import EcidsCore.ConfigManager

set_option autoImplicit false

/-! The typed getters and setters of the configuration. -/
namespace EcidsCore

variable {R : Type}

def getAs {α : Type} (read : Json R → Option α) (config : Json R) (key : String) (default : α) : α :=
  ((ConfigManager.navigate (ConfigManager.segments key) config).bind read).getD default

namespace Json

def asString : Json R → Option String
  | .string s => some s
  | _ => none

def asInt : Json R → Option ℤ
  | .integer z => some (toInt32 z)
  | _ => none

def asDouble [IntCast R] : Json R → Option R
  | .integer z => some z
  | .number x => some x
  | _ => none

def asBool : Json R → Option Bool
  | .boolean b => some b
  | _ => none

end Json

namespace ConfigManager

def getInt : Json R → String → ℤ → ℤ := getAs Json.asInt

def getDouble [IntCast R] : Json R → String → R → R := getAs Json.asDouble

def getBool : Json R → String → Bool → Bool := getAs Json.asBool

theorem getString_eq : (getString : Json R → String → String → String) = getAs Json.asString := by
  funext config key default
  rw [getString, getAs]
  cases navigate (segments key) config with
  | none => rfl
  | some j => cases j <;> rfl

namespace InPlace
variable (lib : Nlohmann R)

def setString (config : Json R) (key val : String) : Option Exc × Json R :=
  setNode lib (.string val) (segments key) config

def setInt (config : Json R) (key : String) (val : ℤ) : Option Exc × Json R :=
  setNode lib (.integer val) (segments key) config

def setDouble (config : Json R) (key : String) (val : R) : Option Exc × Json R :=
  setNode lib (.number val) (segments key) config

def setBool (config : Json R) (key : String) (val : Bool) : Option Exc × Json R :=
  setNode lib (.boolean val) (segments key) config

variable {lib}

inductive Scalar (R : Type) where
  | string (s : String)
  | int (z : ℤ) (fits : -2 ^ 31 ≤ z ∧ z < 2 ^ 31)
  | double (x : R)
  | bool (b : Bool)

namespace Scalar

def toJson : Scalar R → Json R
  | string s => .string s
  | int z _ => .integer z
  | double x => .number x
  | bool b => .boolean b

def set (lib : Nlohmann R) (config : Json R) (key : String) : Scalar R → Option Exc × Json R
  | string s => setString lib config key s
  | int z _ => setInt lib config key z
  | double x => setDouble lib config key x
  | bool b => setBool lib config key b

def ReadsBack [IntCast R] (config : Json R) (key : String) : Scalar R → Prop
  | string s => ∀ default, getString config key default = s
  | int z _ => ∀ default, getInt config key default = z
  | double x => ∀ default, getDouble config key default = x
  | bool b => ∀ default, getBool config key default = b

theorem set_eq (lib : Nlohmann R) (config : Json R) (key : String) (v : Scalar R) :
    v.set lib config key = setNode lib v.toJson (segments key) config := by
  cases v <;> rfl

theorem readsBack_of_navigate [IntCast R] {config : Json R} {key : String} {v : Scalar R}
    (h : navigate (segments key) config = some v.toJson) : v.ReadsBack config key := by
  cases v with
  | string s =>
    intro default
    rw [getString_eq, getAs, h]
    rfl
  | int z fits =>
    intro default
    rw [getInt, getAs, h]
    change Json.toInt32 z = z
    rw [Json.toInt32]
    omega
  | double x =>
    intro default
    rw [getDouble, getAs, h]
    rfl
  | bool b =>
    intro default
    rw [getBool, getAs, h]
    rfl

end Scalar

structure SameReads [IntCast R] (config config' : Json R) (key : String) : Prop where
  string : ∀ default, getString config' key default = getString config key default
  int : ∀ default, getInt config' key default = getInt config key default
  double : ∀ default, getDouble config' key default = getDouble config key default
  bool : ∀ default, getBool config' key default = getBool config key default

theorem sameReads_of_navigate [IntCast R] {config config' : Json R} {key : String}
    (h : navigate (segments key) config' = navigate (segments key) config) :
    SameReads config config' key := by
  constructor <;> intro default <;>
    simp only [getString_eq, getInt, getDouble, getBool, getAs, h]

/-- A setter throws and leaves the tree as it was, or its value is read back and every key
apart from its key reads as before. -/
theorem set_spec [IntCast R] (lib : Nlohmann R) (config : Json R) (key : String) (v : Scalar R) :
    (∃ e, v.set lib config key = (some e, config)) ∨
      ∃ config', v.set lib config key = (none, config') ∧ v.ReadsBack config' key ∧
        ∀ key', Apart (segments key) (segments key') → SameReads config config' key' := by
  rw [Scalar.set_eq]
  rcases setNode_cases (segments key) config with hthrew | ⟨config', hset, hread, hrest⟩
  · exact .inl hthrew
  · refine .inr ⟨config', hset, Scalar.readsBack_of_navigate hread, ?_⟩
    intro key' hapart
    exact sameReads_of_navigate (hrest (segments key') hapart)

end InPlace

end ConfigManager

end EcidsCore
