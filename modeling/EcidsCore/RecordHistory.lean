import EcidsCore.ApiCore

set_option autoImplicit false

/-! What the history requests read from the record directories. -/
namespace EcidsCore
open ByteText

variable {R : Type}

/-- A path and a name below it, as `fs::path` joins them. -/
def joinPath (p name : Bytes) : Bytes :=
  if p.getLast? = some slash then p ++ name else p ++ slash :: name

def startsWith (pre b : Bytes) : Bool := b.take pre.length = pre

/-- What an iteration collected, and whether an exception broke it off. -/
abbrev Collected (α : Type) := List α × Bool

def collect {α : Type} (visit : DirEntry → Collected α) : List DirEntry × Option Bytes → Collected α
  | ([], fault) => ([], fault.isSome)
  | (e :: es, fault) =>
    let found := visit e
    if found.2 then found
    else
      let rest := collect visit (es, fault)
      (found.1 ++ rest.1, rest.2)

def inDirectories {α : Type} (fs : FileSystem) (dir : Bytes)
    (visit : Bytes → Bytes → Collected α) : Collected α :=
  collect (fun e =>
    match e.kind with
    | .error _ => ([], true)
    | .ok EntryKind.directory => visit (joinPath dir e.name) e.name
    | .ok _ => ([], false)) (fs.listDirectory dir)

/-- The record directories below `root/<year>/<month>/<day>`, up to the first exception. -/
def recordDirs (fs : FileSystem) (root : Bytes) : List (Bytes × Bytes) :=
  (inDirectories fs root fun yr _ =>
    inDirectories fs yr fun mo _ =>
      inDirectories fs mo fun dy _ =>
        inDirectories fs dy fun path name =>
          if startsWith (bytes "(Inspection)") name ∨ startsWith (bytes "(AI Test)") name then
            ([(path, name)], false)
          else ([], false)).1

def firstRegular : List DirEntry → Bool
  | [] => false
  | e :: es =>
    match e.kind with
    | .error _ => false
    | .ok EntryKind.regularFile => true
    | .ok _ => firstRegular es

/-- Only the iteration is guarded, not the test whether the directory exists. -/
def dirHasFiles (fs : FileSystem) (dir : Bytes) : Except Bytes Bool := do
  let found ← fs.pathExists dir
  return found && firstRegular (fs.listDirectory dir).1

def isStereoFile (name : Bytes) : Bool :=
  startsWith (bytes "Stereo_") name ∧ (bytes ".json").isSuffixOf name

def stereoVisit (dir : Bytes) (found : List Bytes) (e : DirEntry) : Except Bytes (List Bytes) := do
  let kind ← e.kind
  return if kind = .regularFile ∧ isStereoFile e.name then found ++ [joinPath dir e.name] else found

/-- The result files of a directory; here nothing is guarded. -/
def stereoFiles (fs : FileSystem) (dir : Bytes) : Except Bytes (List Bytes) := do
  let found ← (fs.listDirectory dir).1.foldlM (stereoVisit dir) []
  match (fs.listDirectory dir).2 with
  | none => return found
  | some text => .error text

structure Tally (R : Type) where
  gapSum : R
  gapCount : ℕ := 0
  gapsOver5 : ℕ := 0
  defects : ℕ := 0

structure ScannedRecord (R : Type) where
  id : Bytes
  path : Bytes
  inspectionDate : Bytes
  stationId : Bytes
  escalatorId : Bytes
  taskId : Bytes
  operationType : String
  stepCount : ℕ
  tally : Tally R

def ScannedRecord.texts (r : ScannedRecord R) : List Bytes :=
  [r.id, r.path, r.inspectionDate, r.stationId, r.escalatorId, r.taskId]

section Numbers
variable [Double R] (lib : Nlohmann R)

def addGap (gap : R) (t : Tally R) : Tally R :=
  if 0 < gap then
    { t with gapSum := t.gapSum + gap, gapCount := t.gapCount + 1,
             gapsOver5 := if 5.0 < gap then t.gapsOver5 + 1 else t.gapsOver5 }
  else t

def confident (d : Json R) : Except Exc Bool := do
  let c ← d.valueOr lib (Json.getDouble lib) "confidence" 0
  return ¬ c < 0.5

/-- Detections are counted up to the first that is no object. -/
def addDefects : List (Json R) → Tally R → Tally R
  | [], t => t
  | d :: ds, t =>
    match confident lib d with
    | .error _ => t
    | .ok b => addDefects ds (if b then { t with defects := t.defects + 1 } else t)

def tallyFile (fs : FileSystem) (t : Tally R) (file : Bytes) : Tally R :=
  match (fs.readFile file).map lib.parseStream with
  | some (.ok data) =>
    match data.valueOr lib (Json.getDouble lib) "gap_distance_mm" 0 with
    | .error _ => t
    | .ok gap =>
      match (data.member? "ai_detections").bind Json.items? with
      | none => addGap gap t
      | some ds => addDefects lib ds (addGap gap t)
  | _ => t

def dash : UInt8 := 0x2D

/-- The path below the root, without leading separators. -/
def relativePath (root path : Bytes) : Bytes :=
  (if startsWith root path then path.drop root.length else path).dropWhile (· = slash)

def inspectionType (fs : FileSystem) (dir : Bytes) : Except Bytes String := do
  if ← dirHasFiles fs (dir ++ bytes "/inspection") then return "Gap Inspection"
  if ← dirHasFiles fs (dir ++ bytes "/marking") then return "1st Step Marking"
  if ← dirHasFiles fs (dir ++ bytes "/installation") then return "Installation"
  return "Gap Inspection"

def operationType (fs : FileSystem) (isAiTest : Bool) (dir : Bytes) : Except Bytes String :=
  if isAiTest then .ok "AI Test" else inspectionType fs dir

/-- The directory, where it exists. -/
def existingDir (fs : FileSystem) (dir : Bytes) : Except Bytes (List Bytes) := do
  let found ← fs.pathExists dir
  return if found then [dir] else []

def phaseDirs : List Bytes := [bytes "/installation", bytes "/inspection", bytes "/marking"]

def stereoDirs (fs : FileSystem) (isAiTest : Bool) (dir : Bytes) : Except Bytes (List Bytes) :=
  if isAiTest then .ok [dir]
  else do
    let dirs ← phaseDirs.mapM fun sub => existingDir fs (dir ++ sub)
    return dirs.flatten

def isAiTestName (name : Bytes) : Bool := startsWith (bytes "(AI Test)") name

def namePrefix (name : Bytes) : Bytes :=
  bytes (if isAiTestName name then "(AI Test)" else "(Inspection)")

def nameTokens (name : Bytes) : List Bytes := (name.drop (namePrefix name).length).splitOn dash

def inspectionDate (toks : List Bytes) : Bytes :=
  let tok := fun i => toks.getD i []
  let date := if 3 ≤ toks.length then tok 0 ++ dash :: tok 1 ++ dash :: tok 2 else []
  let time := if 6 ≤ toks.length then tok 3 ++ bytes ":" ++ tok 4 ++ bytes ":" ++ tok 5 else []
  date ++ if time = [] then [] else bytes " " ++ time

def scanRecord (fs : FileSystem) (root : Bytes) (rec : Bytes × Bytes) :
    Except Bytes (ScannedRecord R) := do
  let isAiTest := isAiTestName rec.2
  let toks := nameTokens rec.2
  let tok := fun i => toks.getD i []
  let op ← operationType fs isAiTest rec.1
  let dirs ← stereoDirs fs isAiTest rec.1
  let files ← dirs.mapM (stereoFiles fs)
  return {
    id := rec.2
    path := relativePath root rec.1
    inspectionDate := inspectionDate toks
    stationId := if isAiTest then bytes "--" else tok 6
    escalatorId := if isAiTest then bytes "--" else tok 7
    taskId := if isAiTest then bytes "--" else tok 8
    operationType := op
    stepCount := files.flatten.length
    tally := files.flatten.foldl (tallyFile lib fs) { gapSum := 0 } }

def scanInspectionRecords (fs : FileSystem) (root : Bytes) :
    Except Bytes (List (ScannedRecord R)) := do
  if ← fs.pathExists root then
    let records ← (recordDirs fs root).mapM (scanRecord lib fs root)
    return records.mergeSort fun a b => ¬ a.inspectionDate < b.inspectionDate
  else return []

/-- A record as JSON; `none` where one of its texts cannot be dumped. -/
def ScannedRecord.json? (r : ScannedRecord R) : Option (Json R) := do
  let id ← text? r.id
  let path ← text? r.path
  let date ← text? r.inspectionDate
  let station ← text? r.stationId
  let escalator ← text? r.escalatorId
  let task ← text? r.taskId
  let ave := if 0 < r.tally.gapCount then
      Double.round (r.tally.gapSum / ((r.tally.gapCount : ℤ) : R) * 10.0) / 10.0 else 0.0
  return .object [("aveGapDistance", .number ave), ("defects", .integer r.tally.defects),
    ("escalatorId", .string escalator), ("gapsOver5", .integer r.tally.gapsOver5),
    ("id", .string id), ("inspectionDate", .string date),
    ("operationType", .string r.operationType), ("path", .string path),
    ("stationId", .string station), ("stepCount", .integer r.stepCount), ("taskId", .string task)]

def subfolders : List String := ["", "installation", "inspection", "marking"]

def recordFull (root recordPath : String) : String :=
  root ++ (if recordPath ≠ "" ∧ recordPath.toList.head? ≠ some '/' then "/" else "") ++ recordPath

def aiDetection (ds : List (Json R)) : Except Exc String :=
  match ds with
  | [] => .ok "Normal"
  | d :: rest =>
    match confident lib d with
    | .error e => .error e
    | .ok false => aiDetection rest
    | .ok true =>
      match d.member? "label_id" with
      | some (.integer z) => .ok (if Json.toInt32 z = 1 then "Warning" else "Defect")
      | _ => .ok "Defect"

def tenths (x : R) : R := Double.round (x * 10.0) / 10.0

/-- A result file as a step of the record, with the index it is sorted by. -/
def stepJson (sub : String) (data : Json R) : Except Exc (ℤ × Json R) := do
  let int := Json.getInt Double.truncate lib
  let double := Json.getDouble lib
  let idx ← data.valueOr lib int "pair_index" 0
  let timestamp ← data.valueString lib "timestamp" ""
  let gap ← data.valueOr lib double "gap_distance_mm" 0
  let wd ← data.valueOr lib double "working_distance_mm" 0
  let ds := ((data.member? "ai_detections").bind Json.items?).getD
    (((data.member? "detections").bind Json.items?).getD [])
  let det ← aiDetection lib ds
  let first ← data.valueOr lib int "pair_index" (-1)
  return (idx, .object ([("aiDetection", .string det), ("gapDistance", .number (tenths gap)),
      ("isFirstStep", .boolean (first = 0)), ("pairIndex", .integer idx)] ++
    (if sub = "" then [] else [("phase", .string sub)]) ++
    [("timestamp", .string timestamp), ("workingDistance", .number (tenths wd))]))

def detailDir (full sub : String) : String := if sub = "" then full else full ++ "/" ++ sub

def detailFiles (fs : FileSystem) (full sub : String) : List Bytes :=
  let dir := bytes (detailDir full sub)
  (((fs.readNames dir).filter fun name => isStereoFile name ∧ 5 < name.length).map
    (joinPath dir)).mergeSort fun a b => ¬ b < a

/-- The step that `read_record_details` makes of one file. -/
def fileStep (fs : FileSystem) (sub : String) (file : Bytes) : Option (ℤ × Json R) :=
  match (fs.readFile file).map lib.parseStream with
  | some (.ok data) => (stepJson lib sub data).toOption
  | _ => none

def detailSteps (fs : FileSystem) (full sub : String) : List (ℤ × Json R) :=
  (detailFiles fs full sub).filterMap (fileStep lib fs sub)

def readRecordDetails (fs : FileSystem) (full : String) : Except Bytes (Json R) := do
  if ← fs.pathExists (bytes full) then
    let steps := (subfolders.flatMap (detailSteps lib fs full)).mergeSort fun a b => a.1 ≤ b.1
    return .object [("stepCount", .integer steps.length), ("steps", .array (steps.map Prod.snd))]
  else return .object [("error", .string "Record not found")]

end Numbers

/-- The paths that `read_record_details` looks at, in order. -/
def detailPaths (fs : FileSystem) (full : String) : List Bytes :=
  match fs.pathExists (bytes full) with
  | .ok true =>
    bytes full :: subfolders.flatMap fun sub =>
      bytes (detailDir full sub) :: detailFiles fs full sub
  | _ => [bytes full]

end EcidsCore
