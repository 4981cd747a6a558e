import EcidsCore.JsonText
import EcidsCore.PathResolution
import Mathlib.Data.Nat.Digits.Defs

set_option autoImplicit false

/-! Record directories and the files saved in them. -/
namespace EcidsCore
open ByteText PathResolution

structure TimeParts where
  year : ℕ
  month : ℕ
  day : ℕ
  hour : ℕ
  min : ℕ
  sec : ℕ
  ms : ℕ
deriving DecidableEq, Repr

/-- `%0<w>d` of a number that is not negative. -/
def padded (w n : ℕ) : String :=
  String.ofList (List.replicate (w - (Nat.toDigits 10 n).length) '0' ++ Nat.toDigits 10 n)

def dbDatePathFromParts (t : TimeParts) : String :=
  padded 4 t.year ++ "/" ++ padded 4 t.year ++ "-" ++ padded 2 t.month ++ "/" ++
    padded 4 t.year ++ "-" ++ padded 2 t.month ++ "-" ++ padded 2 t.day

def dbFolderPartFromParts (t : TimeParts) : String :=
  padded 4 t.year ++ "-" ++ padded 2 t.month ++ "-" ++ padded 2 t.day ++ "-" ++
    padded 0 t.hour ++ "-" ++ padded 2 t.min ++ "-" ++ padded 2 t.sec

/-- `init` creates the root directory, which fails for an empty path. -/
structure RecordManager where
  rootPath : String
  rootNonempty : rootPath ≠ ""
  activeRecord : String := ""

namespace RecordManager

def setActiveRecord (path : String) (m : RecordManager) : RecordManager :=
  { m with activeRecord := path }

def inspectionRecordName (t : TimeParts) (stationId escalatorId taskId : String) : String :=
  "(Inspection)" ++ dbFolderPartFromParts t ++ "-" ++ stationId ++ "-" ++ escalatorId ++ "-" ++
    taskId

def aiTestRecordName (t : TimeParts) (stationId escalatorId : String) : String :=
  "(AI Test)" ++ dbFolderPartFromParts t ++
    (if stationId = "" then ""
     else "-" ++ stationId ++ (if escalatorId = "" then "" else "-" ++ escalatorId))

def recordPath (m : RecordManager) (t : TimeParts) (name : String) : String :=
  m.rootPath ++ "/" ++ dbDatePathFromParts t ++ "/" ++ name

/-- The directories `ensure_subdirs_` makes for an inspection. -/
def inspectionDirs (path : String) : List String :=
  [path ++ "/installation", path ++ "/inspection"]

def formatPairIndex (idx : ℕ) : String := padded 3 idx

end RecordManager

def fileName (req : DBWriteRequest) : String :=
  match req.type with
  | .image => req.cameraId ++ "_" ++ RecordManager.formatPairIndex req.pairIndex ++ "." ++ req.format
  | .aiResult =>
    "AI_" ++ req.cameraId ++ "_" ++ RecordManager.formatPairIndex req.pairIndex ++ ".json"
  | .stereoResult => "Stereo_" ++ RecordManager.formatPairIndex req.pairIndex ++ ".json"
  | .pointCloud => "PC_" ++ RecordManager.formatPairIndex req.pairIndex ++ ".pcd"
  | .depthMap => "Depth_" ++ RecordManager.formatPairIndex req.pairIndex ++ ".dat"

def slash : UInt8 := 0x2F
def fullStop : UInt8 := 0x2E

theorem bytes_slash : bytes "/" = [slash] := rfl

/-- The place a path names, seen from the working directory `cwd`. -/
def resolvedPath (cwd : List Bytes) (p : Bytes) : List Bytes :=
  resolve fullStop (if p.head? = some slash then [] else cwd) (components slash p)

abbrev Files := List Bytes → Option Bytes

def saveDir (req : DBWriteRequest) : String := req.recordPath ++ "/" ++ req.subfolder

def savePath (req : DBWriteRequest) : String := saveDir req ++ "/" ++ fileName req

def Files.write (cwd : List Bytes) (fs : Files) (path : String) (content : Bytes) : Files :=
  fun p => if p = resolvedPath cwd (bytes path) then some content else fs p

/-- `DatabaseWriter::process_request_`; the record manager is always attached. -/
def processRequest (cwd : List Bytes) (fs : Files) (req : DBWriteRequest) : Files :=
  match req.type with
  | .aiResult | .stereoResult => fs.write cwd (savePath req) req.textData
  | .image | .pointCloud | .depthMap =>
    if req.data = [] then fs else fs.write cwd (savePath req) req.data

theorem padded_toList (w n : ℕ) : (padded w n).toList =
    List.replicate (w - (Nat.toDigits 10 n).length) '0' ++ Nat.toDigits 10 n :=
  String.toList_ofList

theorem padded_chars {w n : ℕ} :
    ∀ c ∈ (padded w n).toList, 48 ≤ c.val.toNat ∧ c.val.toNat ≤ 57 := by
  intro c hc
  have hdigit : c.isDigit := by
    rw [padded_toList] at hc
    rcases List.mem_append.1 hc with hc | hc
    · rw [List.eq_of_mem_replicate hc]
      rfl
    · exact Nat.isDigit_of_mem_toDigits (by omega) (by omega) hc
  simpa [Char.isDigit, UInt32.le_iff_toNat_le] using hdigit

theorem bytes_padded (w n : ℕ) :
    bytes (padded w n) = (padded w n).toList.map fun c => UInt8.ofNat c.val.toNat := by
  conv_lhs => rw [← String.ofList_toList (s := padded w n)]
  apply bytes_ofList_ascii
  intro c hc
  have hrange := padded_chars c hc
  omega

theorem digits_ascii {w n : ℕ} : ∀ b ∈ bytes (padded w n), 0x30 ≤ b ∧ b ≤ 0x39 := by
  intro b hb
  rw [bytes_padded] at hb
  obtain ⟨c, hc, rfl⟩ := List.mem_map.1 hb
  have hrange := padded_chars c hc
  rw [UInt8.le_iff_toNat_le, UInt8.le_iff_toNat_le, UInt8.toNat_ofNat']
  change 48 ≤ _ ∧ _ ≤ 57
  omega

theorem components_savePath {req : DBWriteRequest} (h : slash ∉ bytes (fileName req)) :
    components slash (bytes (savePath req)) =
      components slash (bytes (saveDir req)) ++ [bytes (fileName req)] := by
  have hs : bytes (savePath req) = bytes (saveDir req) ++ slash :: bytes (fileName req) := by
    rw [savePath, bytes_append, bytes_append, List.append_assoc]
    rfl
  rw [hs, components_append, components, components, List.splitOn_eq_singleton h]

def location (cwd : List Bytes) (req : DBWriteRequest) : List Bytes :=
  resolvedPath cwd (bytes (savePath req))

def PlainNames (req : DBWriteRequest) : Prop :=
  slash ∉ bytes req.cameraId ∧ slash ∉ bytes req.format

theorem not_mem_padded {b : UInt8} (h : b < 0x30) (w n : ℕ) : b ∉ bytes (padded w n) := by
  intro hb
  have hlow := (digits_ascii b hb).1
  exact absurd h (UInt8.not_lt.2 hlow)

theorem slash_not_mem_fileName {req : DBWriteRequest} (h : PlainNames req) :
    slash ∉ bytes (fileName req) := by
  obtain ⟨hc, hf⟩ := h
  have hp : slash ∉ bytes (RecordManager.formatPairIndex req.pairIndex) :=
    not_mem_padded (by decide) 3 req.pairIndex
  unfold fileName
  cases req.type <;> simp only [bytes_append, List.mem_append, not_or] <;>
    simp only [hc, hf, hp, not_false_eq_true, true_and, and_true] <;> decide

theorem underscore_mem_fileName (req : DBWriteRequest) : (0x5F : UInt8) ∈ bytes (fileName req) := by
  have h1 : (0x5F : UInt8) ∈ bytes "_" := by decide
  have h2 : (0x5F : UInt8) ∈ bytes "AI_" := by decide
  have h3 : (0x5F : UInt8) ∈ bytes "Stereo_" := by decide
  have h4 : (0x5F : UInt8) ∈ bytes "PC_" := by decide
  have h5 : (0x5F : UInt8) ∈ bytes "Depth_" := by decide
  unfold fileName
  cases req.type <;> simp only [bytes_append, List.mem_append, h1, h2, h3, h4, h5, true_or, or_true]

theorem location_getLast {cwd : List Bytes} {req : DBWriteRequest} (h : PlainNames req) :
    (location cwd req).getLast? = some (bytes (fileName req)) := by
  have hmem := underscore_mem_fileName req
  have hs : ¬ Stays fullStop (bytes (fileName req)) := by
    rintro (he | he) <;> rw [he] at hmem <;> revert hmem <;> decide
  have hc : ¬ Climbs fullStop (bytes (fileName req)) := by
    intro he
    rw [he] at hmem
    revert hmem
    decide
  rw [location, resolvedPath, components_savePath (slash_not_mem_fileName h),
    resolve_concat hs hc, List.getLast?_append]
  rfl

end EcidsCore
