import EcidsCore.ExceptRules
import EcidsCore.ForwardHandler

set_option autoImplicit false

/-! What each request does to the state: the two starts, step by step, the stops, and
what the other requests leave alone. -/
namespace EcidsCore
open ByteText

variable {R : Type}

inductive StartRequest where
  | inspection (q : InspectionTask)
  | aiTest (q : AiTestRequest)

def Route.IsStart (r : Route) : Prop := r = .startInspection ∨ r = .startAiTest

instance (r : Route) : Decidable r.IsStart := inferInstanceAs (Decidable (_ ∨ _))

def startOf (lib : Nlohmann R) (method path body : Bytes) : Option StartRequest :=
  match route method path with
  | .startInspection =>
    match inspectionOf lib body with
    | .ok q => if q.stationId = "" ∨ q.escalatorId = "" then none else some (.inspection q)
    | .error _ => none
  | .startAiTest =>
    match aiTestOf lib body with
    | .ok q => if q.testDataPath = "" then none else some (.aiTest q)
    | .error _ => none
  | _ => none

namespace StartRequest

def steps : StartRequest → List ApiStep
  | .inspection q => startInspectionSteps q.stationId q.escalatorId q.taskId
  | .aiTest q => startAiTestSteps q.testDataPath q.stationId q.escalatorId

def mode : StartRequest → Mode
  | .inspection _ => .inspection
  | .aiTest _ => .aiTest

def task : StartRequest → TaskManager
  | .inspection q => .startInspection q.stationId q.escalatorId q.taskId
  | .aiTest q => .startAiTest q.testDataPath

def recordName (t : TimeParts) : StartRequest → String
  | .inspection q => RecordManager.inspectionRecordName t q.stationId q.escalatorId q.taskId
  | .aiTest q => RecordManager.aiTestRecordName t q.stationId q.escalatorId

def recordPath (env : Env R) (c : Core R) (q : StartRequest) : String :=
  c.records.recordPath env.now (q.recordName env.now)

def dirs (path : String) : StartRequest → List String
  | .inspection _ => RecordManager.inspectionDirs path
  | .aiTest _ => [path]

def message : StartRequest → String
  | .inspection _ => "Inspection started"
  | .aiTest _ => "AI test started"

def createStep : StartRequest → ApiStep
  | .inspection q => .createInspectionRecord q.stationId q.escalatorId q.taskId
  | .aiTest q => .createAiTestRecord q.stationId q.escalatorId

def prepareSteps : StartRequest → List ApiStep
  | .inspection _ => [.setActiveRecord, .setPaused false, .camera "/Init" cam1,
      .camera "/Connect" cam1, .camera "/StartCapture" cam1Streams]
  | .aiTest _ => [.setActiveRecord]

def launchStep : StartRequest → ApiStep
  | .inspection _ => .startInspection
  | .aiTest q => .startAiTest q.testDataPath

def lastSteps : StartRequest → List ApiStep
  | .inspection _ => [.resetWorkingDistance]
  | .aiTest _ => []

/-- What `create_directories` is called with, and the text of its failure. -/
def created (env : Env R) (c : Core R) (q : StartRequest) : List Bytes × Option Bytes :=
  ensureDirs env.fs (q.dirs (q.recordPath env c))

def begun (q : StartRequest) (c : Core R) : Core R :=
  let c' := (c.setMode q.mode).2
  { c' with
    task := q.task
    serial := c'.serial + 1
    status := { c'.status with taskActive := true } }

def prepared (env : Env R) (q : StartRequest) (b : Core R) : Core R :=
  { b with
    accessed := b.accessed ++ (q.created env b).1
    records := b.records.setActiveRecord (q.recordPath env b)
    processingPaused := match q with
      | .inspection _ => false
      | .aiTest _ => b.processingPaused }

def enter (env : Env R) (path : String) : StartRequest → Bool → PreprocessModule R →
    PreprocessModule R
  | .inspection _ => PreprocessModule.startInspection path
  | .aiTest q => PreprocessModule.startAiTest q.testDataPath path (env.testDataFound q.testDataPath)

def launched (env : Env R) (q : StartRequest) (joined : PreprocessModule R × Bool) (b : Core R) :
    Core R :=
  { (q.prepared env b).loopJoined joined.2 (q.enter env (q.recordPath env b) env.spawn.isNone joined.1) with
    loopSerial := b.serial }

def succeeded [Zero R] (c : Core R) : StartRequest → Core R
  | .inspection _ => { c with installationWdSum := 0, installationWdCount := 0 }
  | .aiTest _ => c

/-- How the steps end that follow the check; `b` is the state once the task is active. -/
def outcome [Zero R] (env : Env R) (q : StartRequest) (b : Core R) : StepResult R :=
  match (q.created env b).2 with
  | some text =>
    .threw (.filesystemError text) { b with accessed := b.accessed ++ (q.created env b).1 }
  | none =>
    match b.preprocess.join with
    | none => .waits (q.prepared env b)
    | some joined =>
      match env.spawn with
      | some text => .threw (.systemError text) (q.launched env joined b)
      | none => .next (q.recordPath env b) (q.succeeded (q.launched env joined b))

end StartRequest

theorem setMode_frame (m : Mode) (c : Core R) : ∃ mode tracked, (c.setMode m).2 =
    { c with mode := mode, status := { c.status with mode := tracked } } := by
  unfold Core.setMode
  split
  · exact ⟨c.mode, c.status.mode, rfl⟩
  · split
    · exact ⟨c.mode, c.status.mode, rfl⟩
    · exact ⟨m, m, rfl⟩

section SetMode
variable (m : Mode) (c : Core R)

@[simp] theorem setMode_taskActive : (c.setMode m).2.status.taskActive = c.status.taskActive := by
  obtain ⟨_, _, h⟩ := setMode_frame m c
  rw [h]

@[simp] theorem setMode_task : (c.setMode m).2.task = c.task := by
  obtain ⟨_, _, h⟩ := setMode_frame m c
  rw [h]

@[simp] theorem setMode_records : (c.setMode m).2.records = c.records := by
  obtain ⟨_, _, h⟩ := setMode_frame m c
  rw [h]

@[simp] theorem setMode_preprocess : (c.setMode m).2.preprocess = c.preprocess := by
  obtain ⟨_, _, h⟩ := setMode_frame m c
  rw [h]

@[simp] theorem setMode_paused : (c.setMode m).2.processingPaused = c.processingPaused := by
  obtain ⟨_, _, h⟩ := setMode_frame m c
  rw [h]

@[simp] theorem setMode_accessed : (c.setMode m).2.accessed = c.accessed := by
  obtain ⟨_, _, h⟩ := setMode_frame m c
  rw [h]

@[simp] theorem setMode_serial : (c.setMode m).2.serial = c.serial := by
  obtain ⟨_, _, h⟩ := setMode_frame m c
  rw [h]

theorem setMode_mode (h : m ≠ .uploading) : (c.setMode m).2.mode = m := by
  unfold Core.setMode
  rw [if_neg h]
  split
  · assumption
  · rfl

end SetMode

theorem setMode_accepted (m : Mode) (h : m ≠ .uploading) (c : Core R) :
    (c.setMode m).1 ∈ [ResponseCode.success, .alreadyInit] := by
  unfold Core.setMode
  rw [if_neg h]
  split <;> simp

namespace StartRequest

@[simp] theorem begun_records (q : StartRequest) (c : Core R) : (q.begun c).records = c.records :=
  setMode_records _ _

@[simp] theorem begun_preprocess (q : StartRequest) (c : Core R) :
    (q.begun c).preprocess = c.preprocess :=
  setMode_preprocess _ _

@[simp] theorem begun_accessed (q : StartRequest) (c : Core R) : (q.begun c).accessed = c.accessed :=
  setMode_accessed _ _

@[simp] theorem created_begun (env : Env R) (q : StartRequest) (c : Core R) :
    q.created env (q.begun c) = q.created env c := by
  rw [created, created, recordPath, recordPath, begun_records]

end StartRequest

theorem exec_setMode [Zero R] {env : Env R} {m : Mode} {accept : List ResponseCode} {c : Core R}
    (h : (c.setMode m).1 ∈ accept) (p : String) :
    exec env p c (.setMode m accept) = .next p (c.setMode m).2 := if_pos h

theorem exec_checkIdle [Zero R] {env : Env R} {c : Core R} (h : c.status.taskActive = false)
    (p conflict : String) : exec env p c (.checkIdle conflict) = .next p c :=
  if_neg (by simp [h])

theorem runSteps_begun [Zero R] (env : Env R) (q : StartRequest) {c : Core R}
    (ha : c.status.taskActive = false) :
    runSteps env q.steps "" c =
      runSteps env (q.createStep :: (q.prepareSteps ++ q.launchStep :: q.lastSteps)) ""
        (q.begun c) := by
  have hacc : (c.setMode q.mode).1 ∈ [ResponseCode.success, .alreadyInit] :=
    setMode_accepted q.mode (by cases q <;> simp [StartRequest.mode]) c
  cases q with
  | inspection q =>
    exact (runSteps_next (exec_checkIdle ha _ _) _).trans (runSteps_next (exec_setMode hacc _) _)
  | aiTest q =>
    exact (runSteps_next (exec_checkIdle ha _ _) _).trans (runSteps_next (exec_setMode hacc _) _)

/-- The steps of a start that no active task stands against. -/
theorem runSteps_start [Zero R] (env : Env R) (q : StartRequest) {c : Core R}
    (ha : c.status.taskActive = false) :
    runSteps env q.steps "" c = q.outcome env (q.begun c) := by
  rw [runSteps_begun env q ha, StartRequest.outcome]
  generalize q.begun c = b
  have hcreate : exec env "" b q.createStep =
      b.createRecord env.fs (q.recordPath env b) (q.dirs (q.recordPath env b)) := by
    cases q <;> rfl
  have hlaunch : ∀ p c, exec env p c q.launchStep = c.startPreprocess env.spawn p (q.enter env p) := by
    intro p c
    cases q <;> rfl
  cases hcr : (q.created env b).2 with
  | some text => exact runSteps_threw (hcreate.trans (Core.createRecord_failed hcr b)) _
  | none =>
    rw [runSteps_next (hcreate.trans (Core.createRecord_made hcr b))]
    have hprepare : ∀ as, runSteps env (q.prepareSteps ++ as) (q.recordPath env b)
        { b with
          accessed := b.accessed ++ (q.created env b).1
          records := b.records.setActiveRecord (q.recordPath env b) } =
        runSteps env as (q.recordPath env b) (q.prepared env b) := by
      intro as
      cases q <;> rfl
    refine (hprepare _).trans ?_
    cases hj : b.preprocess.join with
    | none =>
      exact runSteps_waits ((hlaunch _ _).trans
        (Core.startPreprocess_waits (c := q.prepared env b) hj _ _ _)) _
    | some joined =>
      cases hs : env.spawn with
      | none =>
        have hjoined : exec env (q.recordPath env b) (q.prepared env b) q.launchStep =
            .next (q.recordPath env b) (q.launched env joined b) :=
          (hlaunch _ _).trans (Core.startPreprocess_spawned (c := q.prepared env b) hj hs _ _)
        refine (runSteps_next hjoined _).trans ?_
        cases q <;> rfl
      | some text =>
        have hjoined : exec env (q.recordPath env b) (q.prepared env b) q.launchStep =
            .threw (.systemError text) (q.launched env joined b) :=
          (hlaunch _ _).trans (Core.startPreprocess_threw (c := q.prepared env b) hj hs _ _)
        exact runSteps_threw hjoined _

theorem runSteps_conflict [Zero R] (env : Env R) (q : StartRequest) {c : Core R}
    (ha : c.status.taskActive) :
    runSteps env q.steps "" c = .answered .modeConflict startConflict c := by
  cases q <;> simp only [StartRequest.steps, startInspectionSteps, startAiTestSteps, runSteps,
    exec, ha, if_true]

theorem runSteps_setMode [Zero R] (env : Env R) (m : Mode) (c : Core R) :
    runSteps env (setModeSteps m) "" c =
      if c.status.taskActive then
        .answered .modeConflict "ModeConflict: task active, stop first" c
      else if (c.setMode m).1 = .success then .next "" (c.setMode m).2
      else .answered (c.setMode m).1 (responseCodeName (c.setMode m).1) (c.setMode m).2 := by
  by_cases ha : c.status.taskActive
  · simp only [setModeSteps, runSteps, exec, ha, if_true]
  · simp only [setModeSteps, runSteps, exec, ha, Bool.false_eq_true, if_false,
      List.mem_singleton]
    by_cases hs : (c.setMode m).1 = .success
    · simp only [hs, if_true]
    · simp only [hs, if_false]

namespace Core

def deactivated (c : Core R) : Core R :=
  let c' := { c with
    task := .stop
    status := { c.status with taskActive := false }
    records := c.records.setActiveRecord "" }
  (c'.setMode .none).2

@[simp] theorem deactivated_taskActive (c : Core R) :
    c.deactivated.status.taskActive = false := setMode_taskActive _ _

@[simp] theorem deactivated_task (c : Core R) : c.deactivated.task = {} := setMode_task _ _

@[simp] theorem deactivated_records (c : Core R) :
    c.deactivated.records = c.records.setActiveRecord "" := setMode_records _ _

@[simp] theorem deactivated_mode (c : Core R) : c.deactivated.mode = .none :=
  setMode_mode _ _ (by simp)

@[simp] theorem deactivated_preprocess (c : Core R) : c.deactivated.preprocess = c.preprocess :=
  setMode_preprocess _ _

@[simp] theorem deactivated_paused (c : Core R) :
    c.deactivated.processingPaused = c.processingPaused := setMode_paused _ _

@[simp] theorem deactivated_serial (c : Core R) : c.deactivated.serial = c.serial :=
  setMode_serial _ _

def stoppedInspection (c : Core R) : Core R :=
  { (c.stopPreprocess PreprocessModule.finishInspection).deactivated with processingPaused := true }

def stoppedAiTest (c : Core R) : Core R :=
  (c.stopPreprocess PreprocessModule.finishAiTest).deactivated

end Core

structure AtRest (c : Core R) : Prop where
  taskActive : c.status.taskActive = false
  task : c.task = {}
  mode : c.mode = .none
  activeRecord : c.records.activeRecord = ""
  running : c.preprocess.running = false
  thread : c.preprocess.thread = none

namespace Core

theorem stoppedInspection_preprocess (c : Core R) : c.stoppedInspection.preprocess =
    { c.preprocess with
      running := false, thread := none, activeRecordPath := "", subTask := .none } := by
  have h : c.stoppedInspection.preprocess = c.preprocess.haltAndJoin.1.finishInspection :=
    deactivated_preprocess _
  rw [h, PreprocessModule.haltAndJoin_module]
  rfl

theorem stoppedAiTest_preprocess (c : Core R) : c.stoppedAiTest.preprocess =
    { c.preprocess with running := false, thread := none, aiTestMode := false } := by
  have h : c.stoppedAiTest.preprocess = c.preprocess.haltAndJoin.1.finishAiTest :=
    deactivated_preprocess _
  rw [h, PreprocessModule.haltAndJoin_module]
  rfl

theorem stoppedInspection_atRest (c : Core R) : AtRest c.stoppedInspection where
  taskActive := deactivated_taskActive _
  task := deactivated_task _
  mode := deactivated_mode _
  activeRecord := congrArg RecordManager.activeRecord (deactivated_records _)
  running := by rw [stoppedInspection_preprocess]
  thread := by rw [stoppedInspection_preprocess]

theorem stoppedAiTest_atRest (c : Core R) : AtRest c.stoppedAiTest where
  taskActive := deactivated_taskActive _
  task := deactivated_task _
  mode := deactivated_mode _
  activeRecord := congrArg RecordManager.activeRecord (deactivated_records _)
  running := by rw [stoppedAiTest_preprocess]
  thread := by rw [stoppedAiTest_preprocess]

end Core

theorem startOf_route {lib : Nlohmann R} {method path body : Bytes} {q : StartRequest}
    (h : startOf lib method path body = some q) : (route method path).IsStart := by
  unfold startOf at h
  split at h
  · rename_i hr
    exact .inl hr
  · rename_i hr
    exact .inr hr
  · cases h

def StartRequest.reply (lib : Nlohmann R) (q : StartRequest) (path : String) : Except Exc Reply :=
  makeResponse lib 0 (bytes q.message) (quoted "record_path" path)

theorem handle_start [Double R] {env : Env R} {method path body : Bytes} {q : StartRequest}
    (h : startOf env.lib method path body = some q) (c : Core R) :
    handle env method path body c = finish env.lib "" (q.reply env.lib) (runSteps env q.steps "" c) := by
  unfold startOf at h
  unfold handle
  cases hr : route method path <;> simp only [hr, reduceCtorEq] at h
  case startInspection =>
    simp only [startInspection]
    cases hq : inspectionOf env.lib body with
    | error e => simp [hq] at h
    | ok q' =>
      simp only [hq] at h
      split at h
      · cases h
      · rename_i hne
        cases h
        exact if_neg hne
  case startAiTest =>
    simp only [startAiTest]
    cases hq : aiTestOf env.lib body with
    | error e => simp [hq] at h
    | ok q' =>
      simp only [hq] at h
      split at h
      · cases h
      · rename_i hne
        cases h
        exact if_neg hne

theorem handle_refused [Double R] {env : Env R} {method path body : Bytes}
    (hr : (route method path).IsStart) (h : startOf env.lib method path body = none) (c : Core R) :
    ∃ x, handle env method path body c = (guarded env.lib "" x, c) ∧
      ((∃ text, x = makeResponse env.lib 4 (bytes text)) ∨
        ∃ e, x = .error e ∧ (inspectionOf env.lib body = .error e ∨ aiTestOf env.lib body = .error e)) := by
  unfold startOf at h
  unfold handle
  rcases hr with hr | hr
  · simp only [hr, startInspection] at h ⊢
    cases hq : inspectionOf env.lib body with
    | error e => exact ⟨_, rfl, .inr ⟨e, rfl, .inl rfl⟩⟩
    | ok q' =>
      simp only [hq] at h
      split at h
      · rename_i he
        exact ⟨_, if_pos he, .inl ⟨_, rfl⟩⟩
      · cases h
  · simp only [hr, startAiTest] at h ⊢
    cases hq : aiTestOf env.lib body with
    | error e => exact ⟨_, rfl, .inr ⟨e, rfl, .inr rfl⟩⟩
    | ok q' =>
      simp only [hq] at h
      split at h
      · rename_i he
        exact ⟨_, if_pos he, .inl ⟨_, rfl⟩⟩
      · cases h

theorem setCoreParameter_core {lib : Nlohmann R} {p : Json R} {c c' : Core R}
    (h : setCoreParameter lib p c = .ok c') : ∃ config aiMode paused,
      c' = { c with config := config, aiMode := aiMode, processingPaused := paused } := by
  obtain ⟨name, -, h⟩ := ExceptRules.bind_ok h
  dsimp only at h
  split at h
  · obtain ⟨config, -, h⟩ := ExceptRules.bind_ok h
    cases h
    exact ⟨_, _, _, rfl⟩
  · split at h
    · cases h
      exact ⟨_, _, _, rfl⟩
    · split at h
      · obtain ⟨config, -, h⟩ := ExceptRules.bind_ok h
        cases h
        exact ⟨_, _, _, rfl⟩
      · cases h
        exact ⟨_, _, _, rfl⟩

theorem setCoreParameters_core {lib : Nlohmann R} (ps : List (Json R)) (c : Core R) :
    ∃ config aiMode paused, (setCoreParameters lib ps c).2 =
      { c with config := config, aiMode := aiMode, processingPaused := paused } := by
  induction ps generalizing c with
  | nil => exact ⟨_, _, _, rfl⟩
  | cons p ps ih =>
    rw [setCoreParameters]
    cases hp : setCoreParameter lib p c with
    | error e => exact ⟨_, _, _, rfl⟩
    | ok c1 =>
      obtain ⟨_, _, _, rfl⟩ := setCoreParameter_core hp
      obtain ⟨config, aiMode, paused, h⟩ := ih { c with config := _, aiMode := _, processingPaused := _ }
      exact ⟨config, aiMode, paused, h⟩

theorem setParameter_core (env : Env R) (body : Bytes) (c : Core R) :
    ∃ config aiMode paused, (setParameter env body c).2 =
      { c with config := config, aiMode := aiMode, processingPaused := paused } := by
  unfold setParameter
  split
  · exact ⟨_, _, _, rfl⟩
  · split
    · rename_i req name _ _
      obtain ⟨config, aiMode, paused, h⟩ := setCoreParameters_core
        (((req.member? "parameters").bind Json.items?).getD []) c
      refine ⟨config, aiMode, paused, ?_⟩
      rw [← h]
      generalize setCoreParameters env.lib _ c = r
      obtain ⟨_ | e, c'⟩ := r <;> rfl
    · split
      · exact ⟨_, _, _, rfl⟩
      · split <;> exact ⟨_, _, _, rfl⟩

theorem setMode_core [Zero R] (env : Env R) (body : Bytes) (c : Core R) :
    (setMode env body c).2 = c ∨
      c.status.taskActive = false ∧ ∃ m, (setMode env body c).2 = (c.setMode m).2 := by
  unfold setMode
  split
  · exact .inl rfl
  · split
    · exact .inl rfl
    · rw [finish_core, runSteps_setMode]
      split
      · exact .inl rfl
      · rename_i ha
        refine .inr ⟨Bool.eq_false_iff.2 ha, ?_⟩
        split <;> exact ⟨_, rfl⟩

theorem setSubTask_core (lib : Nlohmann R) (body : Bytes) (c : Core R) :
    ∃ sub, (setSubTask lib body c).2 = { c with preprocess := c.preprocess.setSubTask sub } := by
  unfold setSubTask
  split
  · exact ⟨c.preprocess.subTask, rfl⟩
  · split
    · exact ⟨c.preprocess.subTask, rfl⟩
    · exact ⟨_, rfl⟩

def Route.IsStop (r : Route) : Prop := r = .stopInspection ∨ r = .stopAiTest

instance (r : Route) : Decidable r.IsStop := inferInstanceAs (Decidable (_ ∨ _))

/-- What requests set beside the task: the settings, the sub-task, the log of opened paths. -/
def Core.adjusted (config : Json R) (aiMode : AIMode) (paused : Bool) (sub : InspectionSubTask)
    (accessed : List Bytes) (c : Core R) : Core R :=
  { c with
    config := config
    aiMode := aiMode
    processingPaused := paused
    preprocess := c.preprocess.setSubTask sub
    accessed := accessed }

theorem adjusted_refl (c : Core R) : ∃ config aiMode paused sub accessed,
    c = c.adjusted config aiMode paused sub accessed :=
  ⟨c.config, c.aiMode, c.processingPaused, c.preprocess.subTask, c.accessed, rfl⟩

theorem adjusted_accessed (paths : List Bytes) (c : Core R) :
    ∃ config aiMode paused sub accessed, ({ c with accessed := paths } : Core R) =
      c.adjusted config aiMode paused sub accessed :=
  ⟨c.config, c.aiMode, c.processingPaused, c.preprocess.subTask, paths, rfl⟩

/-- A request that neither starts nor stops a task sets the mode while none is active, or
leaves the task alone. -/
theorem handle_other [Double R] (env : Env R) {method path : Bytes} (body : Bytes) (c : Core R)
    (h1 : ¬ (route method path).IsStart) (h2 : ¬ (route method path).IsStop) :
    (∃ config aiMode paused sub accessed, (handle env method path body c).2 =
      c.adjusted config aiMode paused sub accessed) ∨
    route method path = .setMode ∧ c.status.taskActive = false ∧
      ∃ m, (handle env method path body c).2 = (c.setMode m).2 := by
  unfold handle
  cases hr : route method path <;> rw [hr] at h1 h2
  case startInspection => exact absurd (.inl rfl) h1
  case startAiTest => exact absurd (.inr rfl) h1
  case stopInspection => exact absurd (.inl rfl) h2
  case stopAiTest => exact absurd (.inr rfl) h2
  case getImage =>
    left
    simp only [getImage]
    split
    · exact adjusted_refl c
    · split
      · exact adjusted_refl c
      · exact adjusted_accessed _ c
  case getRecord =>
    left
    simp only [getRecord]
    split
    · exact adjusted_refl c
    · exact adjusted_accessed _ c
  case setMode =>
    rcases setMode_core env body c with h | ⟨ha, m, h⟩
    · left
      change ∃ _ _ _ _ _, (setMode env body c).2 = _
      rw [h]
      exact adjusted_refl c
    · exact .inr ⟨rfl, ha, m, h⟩
  case setParameter =>
    obtain ⟨config, aiMode, paused, h⟩ := setParameter_core env body c
    exact .inl ⟨config, aiMode, paused, c.preprocess.subTask, c.accessed, h⟩
  case setSubTask =>
    obtain ⟨sub, h⟩ := setSubTask_core env.lib body c
    exact .inl ⟨c.config, c.aiMode, c.processingPaused, sub, c.accessed, h⟩
  all_goals exact .inl (adjusted_refl c)

/-- A start request that finds no way to its steps, or an active task, changes nothing. -/
theorem handle_start_rejected [Double R] {env : Env R} {method path body : Bytes} {c : Core R}
    (hr : (route method path).IsStart)
    (h : ∀ q, startOf env.lib method path body = some q → c.status.taskActive = true) :
    (handle env method path body c).2 = c := by
  cases hq : startOf env.lib method path body with
  | none =>
    obtain ⟨x, hx, -⟩ := handle_refused hr hq c
    rw [hx]
  | some q => rw [handle_start hq, finish_core, runSteps_conflict env q (h q hq)]; rfl

theorem handle_stop [Double R] (env : Env R) {method path : Bytes} (body : Bytes) (c : Core R)
    (hr : (route method path).IsStop) : (handle env method path body c).2 =
      if route method path = .stopInspection then c.stoppedInspection else c.stoppedAiTest := by
  unfold handle
  rcases hr with hr | hr <;> rw [hr] <;> rfl

theorem bootCore_atRest : AtRest bootCore := ⟨rfl, rfl, rfl, rfl, rfl, rfl⟩

def testBody : Bytes := bytes "\x7b\"test_data_path\":\"frames\"\x7d"

def testTable : List (Bytes × Json ℤ) := [(testBody, .object [("test_data_path", .string "frames")])]

def stationBody : Bytes := bytes "\x7b\"station_id\":\"S\",\"escalator_id\":\"E\"\x7d"

def stationTable : List (Bytes × Json ℤ) :=
  [(stationBody, .object [("escalator_id", .string "E"), ("station_id", .string "S")])]

end EcidsCore
