import EcidsCore.ResponseChain

set_option autoImplicit false

/-! The state the API handlers work on, and the steps that the handlers of the start,
stop and mode requests are made of. -/
namespace EcidsCore
open ByteText

variable {R : Type}

inductive EntryKind where
  | directory
  | regularFile
  | other
deriving DecidableEq, Repr

/-- An entry of a directory; asking for its kind can throw. -/
structure DirEntry where
  name : Bytes
  kind : Except Bytes EntryKind

/-- A thrown `filesystem_error` is given by its text. `listDirectory` gives the entries
iterated over and the text of an exception that ends the iteration. -/
structure FileSystem where
  pathExists : Bytes → Except Bytes Bool
  listDirectory : Bytes → List DirEntry × Option Bytes
  readNames : Bytes → List Bytes
  readFile : Bytes → Option Bytes
  createDirectories : Bytes → Option Bytes

/-- What a request finds around the program. -/
structure Env (R : Type) where
  lib : Nlohmann R
  fs : FileSystem
  now : TimeParts
  spawn : Option Bytes
  testDataFound : String → Bool
  camera : String → String → Bytes → Bytes
  ai : String → Bytes → Bytes

/-- An exception text holds the path it is about and is otherwise plain text. -/
structure Env.Documented (env : Env R) : Prop extends env.lib.Documented where
  existsText : ∀ p e, ValidUtf8 p → env.fs.pathExists p = .error e → ValidUtf8 e
  createText : ∀ p e, ValidUtf8 p → env.fs.createDirectories p = some e → ValidUtf8 e
  spawnText : ∀ e, env.spawn = some e → ValidUtf8 e

structure StatusTracker (R : Type) where
  mode : Mode := .none
  taskActive : Bool := false
  stereoCameraConnected : Bool := false
  stereoCameraCapturing : Bool := false
  aiDealerConnected : Bool := false
  aiDealerMode : String := ""
  databaseSizeGb : R
  uploading : Bool := false
  moduleId : String := ""

structure InspectionTask where
  stationId : String := ""
  escalatorId : String := ""
  taskId : String := ""
deriving DecidableEq, Repr

structure TaskManager where
  type : TaskType := .none
  inspection : InspectionTask := {}
  testDataPath : String := ""
deriving DecidableEq, Repr

namespace TaskManager

def startInspection (stationId escalatorId taskId : String) : TaskManager :=
  { type := .inspection, inspection := ⟨stationId, escalatorId, taskId⟩ }

def startAiTest (testDataPath : String) : TaskManager :=
  { type := .aiTest, testDataPath := testDataPath }

def stop : TaskManager := {}

end TaskManager

/-- The last four fields record: how many tasks were started, the task that the capture
loop belongs to, the tasks whose delayed completion is due, and the paths that were
opened or created for a request. -/
structure Core (R : Type) where
  status : StatusTracker R
  mode : Mode := .none
  task : TaskManager := {}
  records : RecordManager
  processingPaused : Bool := true
  aiMode : AIMode
  config : Json R
  preprocess : PreprocessModule R
  post : PostprocessModule R
  installationWdSum : R
  installationWdCount : ℕ := 0
  serial : ℕ := 0
  loopSerial : ℕ := 0
  completions : List ℕ := []
  accessed : List Bytes := []

/-- `ModeController::set_mode`. -/
def Core.setMode (new : Mode) (c : Core R) : ResponseCode × Core R :=
  if new = .uploading then (.invalidParam, c)
  else if c.mode = new then (.alreadyInit, c)
  else (.success, { c with mode := new, status := { c.status with mode := new } })

inductive ApiStep where
  | checkIdle (conflict : String)
  | setMode (mode : Mode) (accept : List ResponseCode)
  | leaveMode
  | startInspectionTask (stationId escalatorId taskId : String)
  | startAiTestTask (testDataPath : String)
  | stopTask
  | setTaskActive (active : Bool)
  | createInspectionRecord (stationId escalatorId taskId : String)
  | createAiTestRecord (stationId escalatorId : String)
  | setActiveRecord
  | clearActiveRecord
  | setPaused (paused : Bool)
  | camera (path body : String)
  | startInspection
  | startAiTest (testDataPath : String)
  | stopInspection
  | stopAiTest
  | resetWorkingDistance
deriving DecidableEq, Repr

/-- How a step leaves its handler: on to the next one with the handler's local record
path, with an answer, with an exception, or waiting for the capture loop to end. -/
inductive StepResult (R : Type) where
  | next (recordPath : String) (c : Core R)
  | answered (code : ResponseCode) (message : String) (c : Core R)
  | threw (e : Exc) (c : Core R)
  | waits (c : Core R)

def StepResult.core : StepResult R → Core R
  | .next _ c | .answered _ _ c | .threw _ c | .waits c => c

/-- The directories passed to `create_directories` up to the first failure, and its text. -/
def ensureDirs (fs : FileSystem) : List String → List Bytes × Option Bytes
  | [] => ([], none)
  | d :: ds =>
    match fs.createDirectories (bytes d) with
    | some text => ([bytes d], some text)
    | none => (bytes d :: (ensureDirs fs ds).1, (ensureDirs fs ds).2)

theorem ensureDirs_failed {fs : FileSystem} {ds : List String} {text : Bytes}
    (h : (ensureDirs fs ds).2 = some text) :
    ∃ d ∈ ds, fs.createDirectories (bytes d) = some text := by
  induction ds with
  | nil => cases h
  | cons d ds ih =>
    rw [ensureDirs] at h
    cases hd : fs.createDirectories (bytes d) with
    | some t =>
      rw [hd] at h
      cases h
      exact ⟨d, List.mem_cons_self, hd⟩
    | none =>
      rw [hd] at h
      obtain ⟨d', hd', ht⟩ := ih h
      exact ⟨d', List.mem_cons_of_mem d hd', ht⟩

namespace Core

/-- `create_*_record`: the record becomes active once its directories exist. -/
def createRecord (fs : FileSystem) (path : String) (dirs : List String) (c : Core R) :
    StepResult R :=
  let c' := { c with accessed := c.accessed ++ (ensureDirs fs dirs).1 }
  match (ensureDirs fs dirs).2 with
  | some text => .threw (.filesystemError text) c'
  | none => .next path { c' with records := c.records.setActiveRecord path }

def loopJoined (called : Bool) (m : PreprocessModule R) (c : Core R) : Core R :=
  { c with preprocess := m,
           completions := if called then c.completions ++ [c.loopSerial] else c.completions }

def startPreprocess (spawn : Option Bytes) (path : String)
    (start : Bool → PreprocessModule R → PreprocessModule R) (c : Core R) : StepResult R :=
  match c.preprocess.join with
  | none => .waits c
  | some (m, called) =>
    let c' := { c.loopJoined called (start spawn.isNone m) with loopSerial := c.serial }
    match spawn with
    | none => .next path c'
    | some text => .threw (.systemError text) c'

theorem createRecord_failed {fs : FileSystem} {path : String} {dirs : List String} {text : Bytes}
    (h : (ensureDirs fs dirs).2 = some text) (c : Core R) :
    c.createRecord fs path dirs =
      .threw (.filesystemError text) { c with accessed := c.accessed ++ (ensureDirs fs dirs).1 } := by
  simp only [createRecord, h]

theorem createRecord_made {fs : FileSystem} {path : String} {dirs : List String}
    (h : (ensureDirs fs dirs).2 = none) (c : Core R) :
    c.createRecord fs path dirs = .next path
      { c with accessed := c.accessed ++ (ensureDirs fs dirs).1,
               records := c.records.setActiveRecord path } := by
  simp only [createRecord, h]

theorem startPreprocess_waits {c : Core R} (h : c.preprocess.join = none) (spawn : Option Bytes)
    (path : String) (start : Bool → PreprocessModule R → PreprocessModule R) :
    c.startPreprocess spawn path start = .waits c := by
  simp only [startPreprocess, h]

theorem startPreprocess_spawned {c : Core R} {joined : PreprocessModule R × Bool}
    {spawn : Option Bytes} (h : c.preprocess.join = some joined) (hs : spawn = none)
    (path : String) (start : Bool → PreprocessModule R → PreprocessModule R) :
    c.startPreprocess spawn path start = .next path
      { c.loopJoined joined.2 (start spawn.isNone joined.1) with loopSerial := c.serial } := by
  subst hs
  simp only [startPreprocess, h]

theorem startPreprocess_threw {c : Core R} {joined : PreprocessModule R × Bool}
    {spawn : Option Bytes} {text : Bytes} (h : c.preprocess.join = some joined)
    (hs : spawn = some text) (path : String)
    (start : Bool → PreprocessModule R → PreprocessModule R) :
    c.startPreprocess spawn path start = .threw (.systemError text)
      { c.loopJoined joined.2 (start spawn.isNone joined.1) with loopSerial := c.serial } := by
  subst hs
  simp only [startPreprocess, h]

def stopPreprocess (finish : PreprocessModule R → PreprocessModule R) (c : Core R) : Core R :=
  c.loopJoined c.preprocess.haltAndJoin.2 (finish c.preprocess.haltAndJoin.1)

end Core

open PreprocessModule in
def exec [Zero R] (env : Env R) (p : String) (c : Core R) : ApiStep → StepResult R
  | .checkIdle conflict => if c.status.taskActive then .answered .modeConflict conflict c else .next p c
  | .setMode m accept =>
    let rc := (c.setMode m).1
    if rc ∈ accept then .next p (c.setMode m).2
    else .answered rc (responseCodeName rc) (c.setMode m).2
  | .leaveMode => .next p (c.setMode .none).2
  | .startInspectionTask s e t =>
    .next p { c with task := .startInspection s e t, serial := c.serial + 1 }
  | .startAiTestTask data => .next p { c with task := .startAiTest data, serial := c.serial + 1 }
  | .stopTask => .next p { c with task := .stop }
  | .setTaskActive b => .next p { c with status := { c.status with taskActive := b } }
  | .createInspectionRecord s e t =>
    let path := c.records.recordPath env.now (RecordManager.inspectionRecordName env.now s e t)
    c.createRecord env.fs path (RecordManager.inspectionDirs path)
  | .createAiTestRecord s e =>
    let path := c.records.recordPath env.now (RecordManager.aiTestRecordName env.now s e)
    c.createRecord env.fs path [path]
  | .setActiveRecord => .next p { c with records := c.records.setActiveRecord p }
  | .clearActiveRecord => .next p { c with records := c.records.setActiveRecord "" }
  | .setPaused b => .next p { c with processingPaused := b }
  | .camera _ _ => .next p c
  | .startInspection => c.startPreprocess env.spawn p (PreprocessModule.startInspection p)
  | .startAiTest data =>
    c.startPreprocess env.spawn p (PreprocessModule.startAiTest data p (env.testDataFound data))
  | .stopInspection => .next p (c.stopPreprocess finishInspection)
  | .stopAiTest => .next p (c.stopPreprocess finishAiTest)
  | .resetWorkingDistance => .next p { c with installationWdSum := 0, installationWdCount := 0 }

/-- A handler's steps one after the other, with no other handler in between. -/
def runSteps [Zero R] (env : Env R) : List ApiStep → String → Core R → StepResult R
  | [], p, c => .next p c
  | a :: as, p, c =>
    match exec env p c a with
    | .next p c => runSteps env as p c
    | r => r

theorem runSteps_next [Zero R] {env : Env R} {a : ApiStep} {p p' : String} {c c' : Core R}
    (h : exec env p c a = .next p' c') (as : List ApiStep) :
    runSteps env (a :: as) p c = runSteps env as p' c' := by
  rw [runSteps, h]

theorem runSteps_threw [Zero R] {env : Env R} {a : ApiStep} {p : String} {c c' : Core R} {e : Exc}
    (h : exec env p c a = .threw e c') (as : List ApiStep) :
    runSteps env (a :: as) p c = .threw e c' := by
  rw [runSteps, h]

theorem runSteps_waits [Zero R] {env : Env R} {a : ApiStep} {p : String} {c c' : Core R}
    (h : exec env p c a = .waits c') (as : List ApiStep) :
    runSteps env (a :: as) p c = .waits c' := by
  rw [runSteps, h]

def cam1 : String := "\x7b\"camera_id\":\"cam1\"\x7d"

def cam1Streams : String :=
  "\x7b\"camera_id\":\"cam1\",\"data_types\":[\"stereo_image\",\"depth_map\"]\x7d"

def startConflict : String := "TaskConflict: another task is active, stop first"

def startInspectionSteps (stationId escalatorId taskId : String) : List ApiStep :=
  [.checkIdle startConflict, .setMode .inspection [.success, .alreadyInit],
    .startInspectionTask stationId escalatorId taskId, .setTaskActive true,
    .createInspectionRecord stationId escalatorId taskId, .setActiveRecord, .setPaused false,
    .camera "/Init" cam1, .camera "/Connect" cam1, .camera "/StartCapture" cam1Streams,
    .startInspection, .resetWorkingDistance]

def startAiTestSteps (testDataPath stationId escalatorId : String) : List ApiStep :=
  [.checkIdle startConflict, .setMode .aiTest [.success, .alreadyInit],
    .startAiTestTask testDataPath, .setTaskActive true,
    .createAiTestRecord stationId escalatorId, .setActiveRecord, .startAiTest testDataPath]

def stopInspectionSteps : List ApiStep :=
  [.stopInspection, .stopTask, .setTaskActive false, .clearActiveRecord, .leaveMode,
    .setPaused true, .camera "/StopCapture" cam1Streams]

def stopAiTestSteps : List ApiStep :=
  [.stopAiTest, .stopTask, .setTaskActive false, .clearActiveRecord, .leaveMode]

/-- What the detached thread does 120 s behind the end of an AI-test loop. -/
def completionSteps : List ApiStep :=
  [.stopAiTest, .stopTask, .setTaskActive false, .clearActiveRecord, .leaveMode]

def setModeSteps (mode : Mode) : List ApiStep :=
  [.checkIdle "ModeConflict: task active, stop first", .setMode mode [.success]]

def emptyDisk : FileSystem where
  pathExists _ := .ok false
  listDirectory _ := ([], none)
  readNames _ := []
  readFile _ := none
  createDirectories _ := none

def plainEnv (table : List (Bytes × Json ℤ)) : Env ℤ where
  lib := tableLib table
  fs := emptyDisk
  now := ⟨2026, 6, 21, 10, 0, 0, 0⟩
  spawn := none
  testDataFound _ := true
  camera _ _ _ := []
  ai _ _ := []

theorem plainEnv_documented (table : List (Bytes × Json ℤ)) : (plainEnv table).Documented where
  toDocumented := tableLib_documented table
  existsText _ _ _ h := by cases h
  createText _ _ _ h := by cases h
  spawnText _ h := by cases h

def bootCore : Core ℤ where
  status := { databaseSizeGb := 0 }
  records := { rootPath := "database", rootNonempty := by decide }
  aiMode := .binary
  config := .object []
  preprocess := { aiMode := .binary }
  post := { minConfidence := 0, sameGap := .default }
  installationWdSum := 0

end EcidsCore
