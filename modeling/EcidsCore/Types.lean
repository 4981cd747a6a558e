import EcidsCore.ByteText
import Mathlib.Algebra.Group.Nat.Defs
import Mathlib.Algebra.Order.Ring.Unbundled.Rat
import Mathlib.Algebra.Ring.Int.Defs
import Mathlib.Data.Nat.Sqrt
import Mathlib.Data.Rat.Floor

set_option autoImplicit false

/-! Shared data of the core node. `R` stands for the values of type `double`. -/
namespace EcidsCore

/-- The operations of `double` that the model uses; no law is assumed of them. -/
class Double (R : Type) extends Zero R, Add R, Sub R, Mul R, Div R, LT R, IntCast R,
    OfScientific R where
  ltDecidable : ∀ x y : R, Decidable (x < y)
  sqrt : R → R
  round : R → R
  truncate : R → ℤ

instance Double.decidableLT {R : Type} [Double R] (x y : R) : Decidable (x < y) :=
  Double.ltDecidable x y

/-- Doubles of integral value. -/
instance : Double ℤ where
  toZero := ⟨0⟩
  ofScientific m s e := if s then (m / 10 ^ e : ℕ) else (m * 10 ^ e : ℕ)
  intCast z := z
  ltDecidable _ _ := inferInstance
  sqrt z := (Nat.sqrt z.toNat : ℕ)
  round z := z
  truncate z := z

/-- Exact numbers; only the square root, which no run on them takes, is cut. -/
instance : Double ℚ where
  ofScientific := OfScientific.ofScientific
  intCast := Int.cast
  ltDecidable := inferInstance
  sqrt x := (Nat.sqrt (x.num.toNat * x.den) : ℚ) / x.den
  round x := if 0 ≤ x then ⌊x + 1 / 2⌋ else -⌊-x + 1 / 2⌋
  truncate x := if 0 ≤ x then ⌊x⌋ else ⌈x⌉

def FitsInt (z : ℤ) : Prop := -2 ^ 31 ≤ z ∧ z < 2 ^ 31

instance (z : ℤ) : Decidable (FitsInt z) := inferInstanceAs (Decidable (_ ∧ _))

/-- A `double` beyond `int` converts to the least one. -/
def castInt (z : ℤ) : ℤ := if FitsInt z then z else -2 ^ 31

inductive Mode where
  | none
  | config
  | inspection
  | data
  | calibration
  | uploading
  | historical
  | aiTest
deriving DecidableEq, Repr

def modeName : Mode → String
  | .none => "none"
  | .config => "config"
  | .inspection => "inspection"
  | .data => "data"
  | .calibration => "calibration"
  | .uploading => "uploading"
  | .historical => "historical"
  | .aiTest => "ai_test"

def modeFromString (s : String) : Mode :=
  if s = "config" then .config
  else if s = "inspection" then .inspection
  else if s = "data" then .data
  else if s = "calibration" then .calibration
  else if s = "uploading" then .uploading
  else if s = "historical" then .historical
  else if s = "ai_test" then .aiTest
  else .none

/-- Every name but that of the idle mode is read back as its mode. -/
theorem modeFromString_modeName (m : Mode) : modeFromString (modeName m) = m := by
  cases m <;> rfl

inductive AIMode where
  | file
  | http
  | binary
deriving DecidableEq, Repr

def aiModeName : AIMode → String
  | .file => "file"
  | .http => "http"
  | .binary => "binary"

def aiModeFromString (s : String) : AIMode :=
  if s = "http" then .http else if s = "binary" then .binary else .file

inductive InspectionSubTask where
  | none
  | installation
  | marking
  | gapInspection
deriving DecidableEq, Repr

structure FrameHeader where
  type : ℤ := 0
  tsSec : ℤ := 0
  tsNsec : ℤ := 0
  pairId : ℕ := 0
  part : String := ""
  channel : String := ""
deriving DecidableEq, Repr

structure DataBundle where
  header : FrameHeader := {}
  data : Bytes := []
deriving DecidableEq, Repr

structure Detection (R : Type) where
  labelId : String
  confidence : R
  fileName : String
  coordinates : List (R × R)
  tsStart : String := ""
  tsEnd : String := ""
deriving DecidableEq, Repr

structure DetectionResponse (R : Type) where
  transactionId : String
  dealerId : String
  results : List (Detection R)
  tsReceived : String := ""
  tsReplied : String := ""
deriving DecidableEq, Repr

inductive WriteType where
  | image
  | aiResult
  | stereoResult
  | pointCloud
  | depthMap
deriving DecidableEq, Repr

structure DBWriteRequest where
  type : WriteType
  recordPath : String
  subfolder : String
  cameraId : String
  pairIndex : ℕ
  data : Bytes := []
  textData : Bytes := []
  format : String := "jpg"
deriving DecidableEq, Repr

inductive ResponseCode where
  | success
  | error
  | notReady
  | alreadyInit
  | invalidParam
  | unavailable
  | modeConflict
deriving DecidableEq, Repr

def ResponseCode.toInt : ResponseCode → ℤ
  | .success => 0
  | .error => 1
  | .notReady => 2
  | .alreadyInit => 3
  | .invalidParam => 4
  | .unavailable => 5
  | .modeConflict => 6

def responseCodeName : ResponseCode → String
  | .success => "Success"
  | .error => "Error"
  | .notReady => "NotReady"
  | .alreadyInit => "AlreadyInit"
  | .invalidParam => "InvalidParam"
  | .unavailable => "Unavailable"
  | .modeConflict => "ModeConflict"

inductive TaskType where
  | none
  | inspection
  | installation
  | aiTest
deriving DecidableEq, Repr

end EcidsCore
