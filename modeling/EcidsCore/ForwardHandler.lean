import EcidsCore.ConfigManager
import EcidsCore.RecordHistory

set_option autoImplicit false

/-! The handler behind the API server: every request it answers, with its texts. -/
namespace EcidsCore
open ByteText

variable {R : Type}

/-- How a request ends: with an answer, with an exception that leaves the handler, or
not while a capture loop that it waits for goes on. -/
inductive Answer where
  | reply (r : Reply)
  | threw (e : Exc)
  | waits
deriving DecidableEq, Repr

def bare : Except Exc Reply → Answer
  | .ok r => .reply r
  | .error e => .threw e

/-- A `try` block whose handler answers with code 1 and the text of the exception. -/
def guarded (lib : Nlohmann R) (prelude : String) : Except Exc Reply → Answer
  | .ok r => .reply r
  | .error e => bare (makeResponse lib 1 (bytes prelude ++ e.what))

inductive Route where
  | checkStatus
  | getHistory
  | getImage
  | getRecord
  | setMode
  | getMode
  | setParameter
  | getParameter
  | startInspection
  | stopInspection
  | stopAiTest
  | setSubTask
  | startAiTest
  | stereoCameraCommand
  | aiCommand
  | unavailable
deriving DecidableEq, Repr

def routes : List (String × String × Route) :=
  [("GET", "/CheckStatus", .checkStatus), ("GET", "/GetHistory", .getHistory),
    ("POST", "/GetImage", .getImage), ("POST", "/GetRecord", .getRecord),
    ("POST", "/SetMode", .setMode), ("GET", "/GetMode", .getMode),
    ("POST", "/SetParameter", .setParameter), ("POST", "/GetParameter", .getParameter),
    ("POST", "/StartInspection", .startInspection), ("POST", "/StopInspection", .stopInspection),
    ("POST", "/StopAITest", .stopAiTest), ("POST", "/SetSubTask", .setSubTask),
    ("POST", "/StartAITest", .startAiTest), ("POST", "/StereoCameraCommand", .stereoCameraCommand),
    ("POST", "/AICommand", .aiCommand)]

def route (method path : Bytes) : Route :=
  ((routes.find? fun r => bytes r.1 = method ∧ bytes r.2.1 = path).map fun r => r.2.2).getD
    .unavailable

def forwarded (text : Bytes) : Reply := ⟨none, text⟩

def parseBody (lib : Nlohmann R) (body : Bytes) : Except Exc (Json R) :=
  match lib.parse body with
  | .ok j => .ok j
  | .error text => .error (.parseError text)

def dumped (lib : Nlohmann R) (fields : List (String × Json R)) : Bytes :=
  lib.dump (.object fields)

/-- A member written into an object without escaping it. -/
def quoted (key val : String) : Bytes :=
  bytes ("\x7b\"" ++ key ++ "\":\"" ++ val ++ "\"\x7d")

def base64Table : String := "ABCDEFGHIJKLMNOPQRSTUVWXYZabcdefghijklmnopqrstuvwxyz0123456789+/"

def base64Char (val : ℕ) : Char := base64Table.toList.getD (val % 64) '='

/-- The state of the loop: what is written, the accumulator, and how many of its bits
wait, which are at most five between two bytes. -/
structure Base64 where
  out : List Char := []
  val : ℕ := 0
  waiting : ℕ := 0

def Base64.push (s : Base64) (c : UInt8) : Base64 :=
  let val := (s.val * 256 + c.toNat) % 2 ^ 32
  let n := s.waiting + 8
  if 12 ≤ n then ⟨s.out ++ [base64Char (val / 2 ^ (n - 6)), base64Char (val / 2 ^ (n - 12))], val, n - 12⟩
  else ⟨s.out ++ [base64Char (val / 2 ^ (n - 6))], val, n - 6⟩

def base64Encode (data : Bytes) : String :=
  let s := data.foldl Base64.push {}
  let out := if s.waiting = 0 then s.out
    else s.out ++ [base64Char (s.val * 256 % 2 ^ 32 / 2 ^ (s.waiting + 2))]
  String.ofList (out ++ List.replicate ((4 - out.length % 4) % 4) '=')

example : base64Encode (bytes "lift") = "bGlmdA==" := by decide

section Branches
variable (lib : Nlohmann R)

def statusJson (s : StatusTracker R) : Json R :=
  .object [("active_mode", .string (modeName s.mode)),
    ("ai_dealer", .object [("connected", .boolean s.aiDealerConnected),
      ("mode", .string s.aiDealerMode)]),
    ("database_size_gb", .number s.databaseSizeGb), ("module_id", .string s.moduleId),
    ("stereo_camera", .object [("capturing", .boolean s.stereoCameraCapturing),
      ("connected", .boolean s.stereoCameraConnected)]),
    ("task_active", .boolean s.taskActive), ("uploading", .boolean s.uploading)]

def checkStatus (c : Core R) : Except Exc Reply :=
  makeResponse lib 0 (bytes "Status") (lib.dump (statusJson c.status))

def getHistory [Double R] (fs : FileSystem) (c : Core R) : Except Exc Reply :=
  match scanInspectionRecords lib fs (bytes c.records.rootPath) with
  | .error text => .error (.filesystemError text)
  | .ok records =>
    match records.mapM ScannedRecord.json? with
    | none => .error (.typeError (lib.typeErrorText 316 .null))
    | some js => makeResponse lib 0 (bytes "Success")
        (dumped lib [("count", .integer js.length), ("records", .array js)])

structure ImageRequest where
  recordPath : String
  filename : String
  phase : String

def imageRequestOf (body : Bytes) : Except Exc ImageRequest := do
  let req ← parseBody lib body
  let recordPath ← req.valueString lib "record_path" ""
  let filename ← req.valueString lib "filename" ""
  let phase ← req.valueString lib "phase" ""
  return { recordPath, filename, phase }

def imagePath (root : String) (q : ImageRequest) : String :=
  recordFull root q.recordPath ++ (if q.phase = "" then "" else "/" ++ q.phase) ++ "/" ++ q.filename

def readImage (fs : FileSystem) (root : String) (q : ImageRequest) : Except Exc Reply :=
  match fs.readFile (bytes (imagePath root q)) with
  | none => makeResponse lib 2 (bytes ("Image not found: " ++ q.filename))
  | some data => makeResponse lib 0 (bytes "Success")
      (dumped lib [("image", .string (base64Encode data)), ("size", .integer data.length)])

def getImage (fs : FileSystem) (body : Bytes) (c : Core R) : Answer × Core R :=
  match imageRequestOf lib body with
  | .error e => (guarded lib "" (.error e), c)
  | .ok q =>
    if q.recordPath = "" ∨ q.filename = "" then
      (guarded lib "" (makeResponse lib 4 (bytes "record_path and filename are required")), c)
    else (guarded lib "" (readImage lib fs c.records.rootPath q),
      { c with accessed := c.accessed ++ [bytes (imagePath c.records.rootPath q)] })

def recordPathOf (body : Bytes) : Except Exc String := do
  let req ← parseBody lib body
  req.valueString lib "record_path" ""

def getRecord [Double R] (fs : FileSystem) (body : Bytes) (c : Core R) : Answer × Core R :=
  match recordPathOf lib body with
  | .error e => (guarded lib "" (.error e), c)
  | .ok recordPath =>
    let full := recordFull c.records.rootPath recordPath
    (guarded lib "" (match readRecordDetails lib fs full with
      | .error text => .error (.filesystemError text)
      | .ok details => makeResponse lib 0 (bytes "Success") (lib.dump details)),
      { c with accessed := c.accessed ++ detailPaths fs full })

def modeOf (body : Bytes) : Except Exc String := do
  let req ← parseBody lib body
  req.valueString lib "mode" ""

def finish (prelude : String) (done : String → Except Exc Reply) : StepResult R → Answer × Core R
  | .next p c => (guarded lib prelude (done p), c)
  | .answered code message c => (guarded lib prelude (makeResponse lib code.toInt (bytes message)), c)
  | .threw e c => (guarded lib prelude (.error e), c)
  | .waits c => (.waits, c)

@[simp] theorem finish_core (prelude : String) (done : String → Except Exc Reply)
    (r : StepResult R) : (finish lib prelude done r).2 = r.core := by
  cases r <;> rfl

def setMode [Zero R] (env : Env R) (body : Bytes) (c : Core R) : Answer × Core R :=
  match modeOf env.lib body with
  | .error e => (guarded env.lib "Parse error: " (.error e), c)
  | .ok mode =>
    if modeFromString mode = .none then
      (guarded env.lib "Parse error: " (makeResponse env.lib 4 (bytes ("Invalid mode: " ++ mode))), c)
    else
      finish env.lib "Parse error: "
        (fun _ => makeResponse env.lib 0 (bytes ("Mode set to " ++ mode)) (quoted "mode" mode))
        (runSteps env (setModeSteps (modeFromString mode)) "" c)

def getMode (c : Core R) : Except Exc Reply :=
  makeResponse lib 0 (bytes "Success") (quoted "mode" (modeName c.mode))

def parameterName (p : Json R) : Except Exc String := do
  let name ← p.valueString lib "name" ""
  p.valueString lib "key" name

/-- A value that is no string is taken as it is written. -/
def parameterValue (p : Json R) : String :=
  match p.member? "value" with
  | some (.string s) => s
  | some v => (text? (lib.dump v)).getD ""
  | none => ""

def setCoreParameter (p : Json R) (c : Core R) : Except Exc (Core R) := do
  let name ← parameterName lib p
  let value := parameterValue lib p
  if name = "ai_mode" then
    let config ← ConfigManager.setString lib c.config "api2a.ai_mode" value
    return { c with config, aiMode := aiModeFromString value }
  else if name = "processing_paused" then
    return { c with processingPaused := value = "true" ∨ value = "1" }
  else if name ≠ "" then
    let config ← ConfigManager.setString lib c.config name value
    return { c with config }
  else return c

def setCoreParameters : List (Json R) → Core R → Option Exc × Core R
  | [], c => (none, c)
  | p :: ps, c =>
    match setCoreParameter lib p c with
    | .error e => (some e, c)
    | .ok c => setCoreParameters ps c

def moduleOf (body : Bytes) : Except Exc (Json R × String) := do
  let req ← parseBody lib body
  let name ← req.valueString lib "module" "core"
  return (req, name)

def dumpedMember (req : Json R) (key : String) (absent : String) : Bytes :=
  match req.member? key with
  | some v => lib.dump v
  | none => bytes absent

def setParameter (env : Env R) (body : Bytes) (c : Core R) : Answer × Core R :=
  match moduleOf env.lib body with
  | .error e => (guarded env.lib "" (.error e), c)
  | .ok (req, name) =>
    if name = "core" then
      match setCoreParameters env.lib (((req.member? "parameters").bind Json.items?).getD []) c with
      | (some e, c) => (guarded env.lib "" (.error e), c)
      | (none, c) =>
        (guarded env.lib "" (makeResponse env.lib 0 (bytes "Core parameters updated")), c)
    else if name = "stereo_camera" then
      (.reply (forwarded (env.camera "POST" "/SetParameter" body)), c)
    else if name = "ai" then
      (.reply (forwarded (env.ai "SetParameter" (dumpedMember env.lib req "parameters" ""))), c)
    else (guarded env.lib "" (makeResponse env.lib 4 (bytes ("Unknown module: " ++ name))), c)

def getParameter (env : Env R) (body : Bytes) (c : Core R) : Except Exc Reply := do
  let (req, name) ← moduleOf env.lib body
  if name = "core" then
    makeResponse env.lib 0 (bytes "Success") (dumped env.lib
      [("active_mode", .string (modeName c.mode)), ("ai_mode", .string (aiModeName c.aiMode)),
        ("processing_paused", .boolean c.processingPaused)])
  else if name = "stereo_camera" then
    return forwarded (env.camera "POST" "/GetParameter" body)
  else if name = "ai" then
    return forwarded (env.ai "GetParameter" (dumpedMember env.lib req "parameters" ""))
  else makeResponse env.lib 4 (bytes ("Unknown module: " ++ name))

def inspectionOf (body : Bytes) : Except Exc InspectionTask := do
  let req ← parseBody lib body
  let stationId ← req.valueString lib "station_id" ""
  let escalatorId ← req.valueString lib "escalator_id" ""
  let taskId ← req.valueString lib "task_id" "T1"
  return { stationId, escalatorId, taskId }

def startInspection [Zero R] (env : Env R) (body : Bytes) (c : Core R) : Answer × Core R :=
  match inspectionOf env.lib body with
  | .error e => (guarded env.lib "" (.error e), c)
  | .ok q =>
    if q.stationId = "" ∨ q.escalatorId = "" then
      (guarded env.lib "" (makeResponse env.lib 4 (bytes "station_id and escalator_id are required")), c)
    else
      finish env.lib ""
        (fun p => makeResponse env.lib 0 (bytes "Inspection started") (quoted "record_path" p))
        (runSteps env (startInspectionSteps q.stationId q.escalatorId q.taskId) "" c)

structure AiTestRequest where
  testDataPath : String
  stationId : String
  escalatorId : String

def aiTestOf (body : Bytes) : Except Exc AiTestRequest := do
  let req ← parseBody lib body
  let testDataPath ← req.valueString lib "test_data_path" ""
  let stationId ← req.valueString lib "station_id" ""
  let escalatorId ← req.valueString lib "escalator_id" ""
  return { testDataPath, stationId, escalatorId }

def startAiTest [Zero R] (env : Env R) (body : Bytes) (c : Core R) : Answer × Core R :=
  match aiTestOf env.lib body with
  | .error e => (guarded env.lib "" (.error e), c)
  | .ok q =>
    if q.testDataPath = "" then
      (guarded env.lib "" (makeResponse env.lib 4 (bytes "test_data_path is required")), c)
    else
      finish env.lib ""
        (fun p => makeResponse env.lib 0 (bytes "AI test started") (quoted "record_path" p))
        (runSteps env (startAiTestSteps q.testDataPath q.stationId q.escalatorId) "" c)

/-- A stop is in no `try` block, and no step of it can throw or wait. -/
def stop [Zero R] (env : Env R) (steps : List ApiStep) (message : String) (c : Core R) :
    Answer × Core R :=
  match runSteps env steps "" c with
  | .next _ c => (bare (makeResponse env.lib 0 (bytes message)), c)
  | .answered code message c => (bare (makeResponse env.lib code.toInt (bytes message)), c)
  | .threw e c => (.threw e, c)
  | .waits c => (.waits, c)

def subTaskOf (body : Bytes) : Except Exc String := do
  let req ← parseBody lib body
  req.valueString lib "sub_task" ""

def subTaskFromString (s : String) : Option InspectionSubTask :=
  if s = "installation" then some .installation
  else if s = "marking" then some .marking
  else if s = "gap_inspection" then some .gapInspection
  else none

def setSubTask (body : Bytes) (c : Core R) : Answer × Core R :=
  match subTaskOf lib body with
  | .error e => (guarded lib "" (.error e), c)
  | .ok st =>
    match subTaskFromString st with
    | none => (guarded lib "" (makeResponse lib 4 (bytes ("Invalid sub_task: " ++ st))), c)
    | some sub => (guarded lib "" (makeResponse lib 0 (bytes ("Sub-task set to " ++ st))),
        { c with preprocess := c.preprocess.setSubTask sub })

def stereoCameraCommand (env : Env R) (body : Bytes) : Except Exc Reply := do
  let req ← parseBody env.lib body
  let cmd ← req.valueString env.lib "command" "CheckStatus"
  return forwarded (env.camera "POST" ("/" ++ cmd) (dumpedMember env.lib req "params" "\x7b\x7d"))

def aiCommand (env : Env R) (body : Bytes) : Except Exc Reply := do
  let req ← parseBody env.lib body
  let action ← req.valueString env.lib "action" "CheckStatus"
  return forwarded (env.ai action (dumpedMember env.lib req "params" ""))

end Branches

def unavailableText (method path : Bytes) : Bytes :=
  bytes "Unavailable: " ++ method ++ bytes " " ++ path

/-- The forward handler, as `handle_client_` calls it through `route_`. -/
def handle [Double R] (env : Env R) (method path body : Bytes) (c : Core R) : Answer × Core R :=
  match route method path with
  | .checkStatus => (bare (checkStatus env.lib c), c)
  | .getHistory => (bare (getHistory env.lib env.fs c), c)
  | .getImage => getImage env.lib env.fs body c
  | .getRecord => getRecord env.lib env.fs body c
  | .setMode => setMode env body c
  | .getMode => (bare (getMode env.lib c), c)
  | .setParameter => setParameter env body c
  | .getParameter => (guarded env.lib "" (getParameter env body c), c)
  | .startInspection => startInspection env body c
  | .stopInspection => stop env stopInspectionSteps "Inspection stopped" c
  | .stopAiTest => stop env stopAiTestSteps "AI test stopped" c
  | .setSubTask => setSubTask env.lib body c
  | .startAiTest => startAiTest env body c
  | .stereoCameraCommand => (guarded env.lib "" (stereoCameraCommand env body), c)
  | .aiCommand => (guarded env.lib "" (aiCommand env body), c)
  | .unavailable => (bare (makeResponse env.lib 5 (unavailableText method path)), c)

end EcidsCore
