import EcidsCore.Types

set_option autoImplicit false

/-! JSON values and what the program uses of the JSON library. A string member is
a Lean string: the parser refuses text that is not UTF-8, so only a value built
from other bytes can make `dump` throw, and `makeResponse` is where that shows. -/
namespace EcidsCore
open ByteText

inductive Json (R : Type) where
  | null
  | boolean (b : Bool)
  | integer (z : ℤ)
  | number (x : R)
  | string (s : String)
  | array (items : List (Json R))
  | object (fields : List (String × Json R))

inductive Exc where
  | parseError (text : Bytes)
  | typeError (text : Bytes)
  | filesystemError (text : Bytes)
  | systemError (text : Bytes)
deriving DecidableEq, Repr

def Exc.what : Exc → Bytes
  | .parseError t | .typeError t | .filesystemError t | .systemError t => t

/-- The parts of the JSON library the program calls. `parse` carries the text of
the parse error; `parseStream` is `operator>>`, which leaves trailing input unread. -/
structure Nlohmann (R : Type) where
  parse : Bytes → Except Bytes (Json R)
  parseStream : Bytes → Except Bytes (Json R)
  dump : Json R → Bytes
  typeErrorText : ℕ → Json R → Bytes

/-- Documented behaviour the results below rely on. A string member stands in the
text of its object between quotation marks, so that text is longer. -/
structure Nlohmann.Documented {R : Type} (lib : Nlohmann R) : Prop where
  dump_valid : ∀ j, ValidUtf8 (lib.dump j)
  dump_longer : ∀ fields key s, (key, Json.string s) ∈ fields →
    (bytes s).length < (lib.dump (.object fields)).length
  typeErrorText_valid : ∀ id j, ValidUtf8 (lib.typeErrorText id j)

variable {R : Type}

namespace Json

def isObject : Json R → Bool
  | .object _ => true
  | _ => false

def member? (key : String) : Json R → Option (Json R)
  | .object fields => (fields.find? fun f => f.1 = key).map Prod.snd
  | _ => none

def items? : Json R → Option (List (Json R))
  | .array items => some items
  | _ => none

/-- `value(key, default)` before the conversion of the stored value. -/
def valueOr {α : Type} (lib : Nlohmann R) (convert : Json R → Except Exc α) (j : Json R)
    (key : String) (default : α) : Except Exc α :=
  if j.isObject then
    match j.member? key with
    | some v => convert v
    | none => .ok default
  else .error (.typeError (lib.typeErrorText 306 j))

def getString (lib : Nlohmann R) : Json R → Except Exc String
  | .string s => .ok s
  | j => .error (.typeError (lib.typeErrorText 302 j))

/-- `get<double>()`: any number, but not a boolean. -/
def getDouble [IntCast R] (lib : Nlohmann R) : Json R → Except Exc R
  | .integer z => .ok z
  | .number x => .ok x
  | j => .error (.typeError (lib.typeErrorText 302 j))

def toInt32 (z : ℤ) : ℤ := (z + 2 ^ 31) % 2 ^ 32 - 2 ^ 31

/-- `get<int>()`: numbers are cut to `int`, booleans count as 0 and 1. -/
def getInt (truncate : R → ℤ) (lib : Nlohmann R) : Json R → Except Exc ℤ
  | .integer z => .ok (toInt32 z)
  | .number x => .ok (truncate x)
  | .boolean b => .ok (if b then 1 else 0)
  | j => .error (.typeError (lib.typeErrorText 302 j))

def valueString (lib : Nlohmann R) (j : Json R) (key default : String) : Except Exc String :=
  j.valueOr lib (getString lib) key default

theorem valueOr_throws {α : Type} {lib : Nlohmann R} {convert : Json R → Except Exc α}
    {j : Json R} {key : String} {default : α} {e : Exc}
    (hc : ∀ v e, convert v = .error e → ∃ id w, e = .typeError (lib.typeErrorText id w))
    (h : j.valueOr lib convert key default = .error e) :
    ∃ id w, e = .typeError (lib.typeErrorText id w) := by
  unfold valueOr at h
  split at h
  · split at h
    · exact hc _ _ h
    · cases h
  · cases h
    exact ⟨306, j, rfl⟩

theorem getString_throws {lib : Nlohmann R} {j : Json R} {e : Exc}
    (h : getString lib j = .error e) : ∃ id w, e = .typeError (lib.typeErrorText id w) := by
  cases j <;> simp only [getString, Except.error.injEq, reduceCtorEq] at h <;>
    exact ⟨_, _, h.symm⟩

theorem valueString_throws {lib : Nlohmann R} {j : Json R} {key default : String} {e : Exc}
    (h : j.valueString lib key default = .error e) :
    ∃ id w, e = .typeError (lib.typeErrorText id w) :=
  valueOr_throws (fun _ _ hv => getString_throws hv) h

end Json

/-- An answer of the API: its code where the core node made it, and its text. -/
structure Reply where
  code : Option ℤ
  text : Bytes
deriving DecidableEq, Repr

/-- The `data` member of an answer: the parsed text, or the text itself. -/
def dataMember (lib : Nlohmann R) (dataJson : Bytes) : Option (Json R) :=
  match lib.parse dataJson with
  | .ok v => some v
  | .error _ => (text? dataJson).map .string

def makeResponse (lib : Nlohmann R) (code : ℤ) (message : Bytes)
    (dataJson : Bytes := bytes "{}") : Except Exc Reply :=
  match text? message, dataMember lib dataJson with
  | some m, some d =>
    .ok ⟨some code, lib.dump (.object [("code", .integer code), ("data", d), ("message", .string m)])⟩
  | _, _ => .error (.typeError (lib.typeErrorText 316 .null))

theorem dataMember_isSome {lib : Nlohmann R} {dataJson : Bytes} (h : ValidUtf8 dataJson) :
    ∃ d, dataMember lib dataJson = some d := by
  unfold dataMember
  split
  · exact ⟨_, rfl⟩
  · rw [text?_of_valid h]
    exact ⟨_, rfl⟩

theorem makeResponse_ok (lib : Nlohmann R) (code : ℤ) {message dataJson : Bytes}
    (hm : ValidUtf8 message) (hd : ValidUtf8 dataJson) :
    ∃ text, makeResponse lib code message dataJson = .ok ⟨some code, text⟩ := by
  obtain ⟨d, hd⟩ : ∃ d, dataMember lib dataJson = some d := dataMember_isSome hd
  simp only [makeResponse, text?_of_valid hm, hd, Except.ok.injEq, Reply.mk.injEq, true_and,
    exists_eq']

theorem makeResponse_throws (lib : Nlohmann R) (code : ℤ) {message dataJson : Bytes}
    (hm : ¬ ValidUtf8 message) :
    makeResponse lib code message dataJson = .error (.typeError (lib.typeErrorText 316 .null)) := by
  rw [makeResponse, text?_eq_none.2 hm]

theorem makeResponse_isOk_iff (lib : Nlohmann R) (code : ℤ) (message : Bytes)
    {dataJson : Bytes} (hd : ValidUtf8 dataJson) :
    (∃ r, makeResponse lib code message dataJson = .ok r) ↔ ValidUtf8 message := by
  constructor
  · rintro ⟨r, hr⟩
    by_contra hm
    rw [makeResponse_throws lib code hm] at hr
    cases hr
  · intro hm
    obtain ⟨text, h⟩ := makeResponse_ok lib code hm hd
    exact ⟨_, h⟩

section PlainDump
variable (showNumber : R → String)

mutual

def plainDump : Json R → String
  | .null => "null"
  | .boolean b => if b then "true" else "false"
  | .integer z => toString z
  | .number x => showNumber x
  | .string s => "\"" ++ s ++ "\""
  | .array items => "[" ++ plainItems items ++ "]"
  | .object fields => "\x7b" ++ plainFields fields ++ "\x7d"

def plainItems : List (Json R) → String
  | [] => ""
  | [j] => plainDump j
  | j :: rest => plainDump j ++ "," ++ plainItems rest

def plainFields : List (String × Json R) → String
  | [] => ""
  | [(k, j)] => "\"" ++ k ++ "\":" ++ plainDump j
  | (k, j) :: rest => "\"" ++ k ++ "\":" ++ plainDump j ++ "," ++ plainFields rest

end

theorem plainFields_longer {fields : List (String × Json R)} {key s : String}
    (h : (key, Json.string s) ∈ fields) :
    (bytes s).length < (bytes (plainFields showNumber fields)).length := by
  induction fields with
  | nil => cases h
  | cons f rest ih =>
    obtain ⟨k, j⟩ := f
    cases rest with
    | nil =>
      obtain ⟨rfl, rfl⟩ : key = k ∧ Json.string s = j := by simpa using h
      simp only [plainFields, plainDump, bytes_append, List.length_append]
      have hq : (bytes "\"").length = 1 := rfl
      omega
    | cons g rest =>
      simp only [plainFields, bytes_append, List.length_append]
      rcases List.mem_cons.1 h with h | h
      · obtain ⟨rfl, rfl⟩ : key = k ∧ Json.string s = j := by simpa using h
        simp only [plainDump, bytes_append, List.length_append]
        have hq : (bytes "\"").length = 1 := rfl
        omega
      · have := ih h
        omega

def plainLib : Nlohmann R where
  parse b := if b = bytes "\x7b\x7d" then .ok (.object [])
    else .error (bytes "syntax error while parsing value - invalid literal; last read: '" ++ b ++
      bytes "'")
  parseStream b := if b.take 2 = bytes "\x7b\x7d" then .ok (.object [])
    else .error (bytes "syntax error while parsing value - invalid literal; last read: '" ++ b ++
      bytes "'")
  dump j := bytes (plainDump showNumber j)
  typeErrorText _ _ := bytes "cannot use value() with this value"

theorem plainLib_documented : (plainLib showNumber).Documented where
  dump_valid _ := validUtf8_bytes _
  dump_longer fields key s h := by
    have hlong := plainFields_longer showNumber h
    simp only [plainLib, plainDump, bytes_append, List.length_append]
    omega
  typeErrorText_valid _ _ := validUtf8_bytes _

end PlainDump

/-- A library that reads the documents of a table. -/
def tableLib (table : List (Bytes × Json ℤ)) : Nlohmann ℤ :=
  { plainLib toString with
    parse := fun b =>
      match table.lookup b with
      | some j => .ok j
      | none => (plainLib toString).parse b }

theorem tableLib_documented (table : List (Bytes × Json ℤ)) : (tableLib table).Documented where
  dump_valid := (plainLib_documented toString).dump_valid
  dump_longer := (plainLib_documented toString).dump_longer
  typeErrorText_valid := (plainLib_documented toString).typeErrorText_valid

end EcidsCore
