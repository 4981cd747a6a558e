import EcidsCore.HandlerExceptions

set_option autoImplicit false

/-! What a start that answers with a non-zero code leaves behind. -/
namespace EcidsCore
open ByteText ExceptRules

variable {R : Type}

structure TaskState where
  taskActive : Bool
  task : TaskManager
  mode : Mode
  activeRecord : String
  paused : Bool
  running : Bool
deriving DecidableEq, Repr

def Core.taskState (c : Core R) : TaskState where
  taskActive := c.status.taskActive
  task := c.task
  mode := c.mode
  activeRecord := c.records.activeRecord
  paused := c.processingPaused
  running := c.preprocess.running

/-- Whenever the answer carries a non-zero code, the task state is what it was. -/
def FailsCleanly [Double R] (env : Env R) (method path body : Bytes) (c : Core R) : Prop :=
  ∀ code text, (handle env method path body c).1 = .reply ⟨some code, text⟩ → code ≠ 0 →
    (handle env method path body c).2.taskState = c.taskState

/-- A start that passes its checks finds that its directories can be created, and then
either waits for a capture loop or gets its thread. -/
def StartsSafely (env : Env R) (method path body : Bytes) (c : Core R) : Prop :=
  ∀ q, startOf env.lib method path body = some q → c.status.taskActive = false →
    (q.created env c).2 = none ∧ (c.preprocess.join = none ∨ env.spawn = none)

theorem guarded_error_code (lib : Nlohmann R) (prelude : String) {e : Exc} (h : e.Plain) :
    ∃ text, guarded lib prelude (.error e) = .reply ⟨some 1, text⟩ := by
  have hm : ValidUtf8 (bytes prelude ++ e.what) := (validUtf8_bytes prelude).append h
  obtain ⟨text, hr⟩ := makeResponse_ok lib 1 hm (validUtf8_bytes "\x7b\x7d")
  refine ⟨text, ?_⟩
  rw [guarded, hr]
  rfl

theorem taskState_ne {c c' : Core R} (h : c.status.taskActive = false)
    (h' : c'.status.taskActive = true) : c'.taskState ≠ c.taskState := by
  intro he
  have hact := congrArg TaskState.taskActive he
  rw [Core.taskState, Core.taskState] at hact
  simp [h, h'] at hact

/-- The task stays active when the record cannot be created. -/
theorem failed_record_active [Zero R] {env : Env R} {q : StartRequest} {c : Core R}
    (ha : c.status.taskActive = false) {text : Bytes} (h : (q.created env c).2 = some text) :
    ∃ c', runSteps env q.steps "" c = .threw (.filesystemError text) c' ∧
      c'.status.taskActive = true := by
  refine ⟨{ q.begun c with accessed := (q.begun c).accessed ++ (q.created env (q.begun c)).1 }, ?_, rfl⟩
  rw [runSteps_start env q ha, StartRequest.outcome, StartRequest.created_begun, h]

/-- And so it does when the thread of the capture loop cannot be made. -/
theorem failed_thread_active [Zero R] {env : Env R} {q : StartRequest} {c : Core R}
    (ha : c.status.taskActive = false) (h : (q.created env c).2 = none)
    {joined : PreprocessModule R × Bool} (hj : c.preprocess.join = some joined) {text : Bytes}
    (hs : env.spawn = some text) :
    ∃ c', runSteps env q.steps "" c = .threw (.systemError text) c' ∧
      c'.status.taskActive = true := by
  refine ⟨q.launched env joined (q.begun c), ?_, rfl⟩
  rw [runSteps_start env q ha, StartRequest.outcome, StartRequest.created_begun, h,
    StartRequest.begun_preprocess, hj, hs]

/-- An exception after the task became active is answered with code 1, and the task
stays active. -/
theorem thrown_not_clean [Double R] {env : Env R} {method path body : Bytes} {q : StartRequest}
    {c c' : Core R} {e : Exc} (hq : startOf env.lib method path body = some q)
    (ha : c.status.taskActive = false) (he : e.Plain)
    (hr : runSteps env q.steps "" c = .threw e c') (ha' : c'.status.taskActive = true) :
    ¬ FailsCleanly env method path body c := by
  intro hclean
  have hstart := handle_start hq c
  rw [hr] at hstart
  obtain ⟨text, ht⟩ := guarded_error_code env.lib "" he
  have hsame := hclean 1 text (by rw [hstart]; exact ht) (by decide)
  rw [hstart] at hsame
  exact taskState_ne ha ha' hsame

theorem started_code {lib : Nlohmann R} {q : StartRequest} {text : Bytes} {path : String}
    {code : ℤ} {c : Core R}
    (h : (finish lib "" (q.reply lib) (.next path c)).1 = .reply ⟨some code, text⟩) : code = 0 := by
  obtain ⟨t, ht⟩ := makeResponse_ok lib 0 (validUtf8_bytes q.message)
    (quoted_valid "record_path" path)
  have hfin : (finish lib "" (q.reply lib) (.next path c)).1 = .reply ⟨some 0, t⟩ := by
    rw [finish, StartRequest.reply, ht]
    rfl
  rw [hfin] at h
  cases h
  rfl

theorem start_fails_cleanly_iff [Double R] (env : Env R) (hdoc : env.Documented)
    (method path body : Bytes) (hr : (route method path).IsStart) (c : Core R) :
    FailsCleanly env method path body c ↔ StartsSafely env method path body c := by
  cases hq : startOf env.lib method path body with
  | none =>
    refine iff_of_true ?_ ?_
    · intro code text _ _
      obtain ⟨x, hx, -⟩ := handle_refused hr hq c
      rw [hx]
    · intro q hq'
      rw [hq] at hq'
      cases hq'
  | some q =>
    have hsafe : StartsSafely env method path body c ↔ (c.status.taskActive = false →
        (q.created env c).2 = none ∧ (c.preprocess.join = none ∨ env.spawn = none)) := by
      simp [StartsSafely, hq]
    rw [hsafe]
    by_cases ha : c.status.taskActive
    · refine iff_of_true ?_ (by simp [ha])
      intro code text _ _
      rw [handle_start hq, runSteps_conflict env q ha]
      rfl
    have hidle : c.status.taskActive = false := by simpa using ha
    cases hcr : (q.created env c).2 with
    | some text =>
      refine iff_of_false ?_ (by simp [hidle])
      obtain ⟨c', hrun, hact⟩ := failed_record_active hidle hcr
      obtain ⟨d, -, hd⟩ := ensureDirs_failed hcr
      have hplain : Exc.Plain (.filesystemError text) := hdoc.createText _ _ (validUtf8_bytes d) hd
      exact thrown_not_clean hq hidle hplain hrun hact
    | none =>
      cases hj : c.preprocess.join with
      | none =>
        refine iff_of_true ?_ (by simp)
        intro code text h
        rw [handle_start hq, runSteps_start env q hidle, StartRequest.outcome,
          StartRequest.created_begun, hcr, StartRequest.begun_preprocess, hj] at h
        cases h
      | some joined =>
        cases hs : env.spawn with
        | some text =>
          refine iff_of_false ?_ (by simp [hidle])
          obtain ⟨c', hrun, hact⟩ := failed_thread_active hidle hcr hj hs
          have hplain : Exc.Plain (.systemError text) := hdoc.spawnText text hs
          exact thrown_not_clean hq hidle hplain hrun hact
        | none =>
          refine iff_of_true ?_ (by simp)
          intro code text h hne
          rw [handle_start hq, runSteps_start env q hidle, StartRequest.outcome,
            StartRequest.created_begun, hcr, StartRequest.begun_preprocess, hj, hs] at h
          exact absurd (started_code h) hne

def fullDiskEnv : Env ℤ :=
  { plainEnv stationTable with
    fs := { emptyDisk with
      createDirectories := fun p =>
        some (bytes "filesystem error: cannot create directories: No space left on device [" ++ p ++
          bytes "]") } }

theorem fullDiskEnv_documented : fullDiskEnv.Documented where
  toDocumented := tableLib_documented stationTable
  existsText _ _ _ h := by cases h
  createText p _ hp h := by
    cases h
    exact ((validUtf8_bytes _).append hp).append (validUtf8_bytes _)
  spawnText _ h := by cases h

def busyCore : Core ℤ := { bootCore with status := { databaseSizeGb := 0, taskActive := true } }

theorem start_fails_cleanly_iff_refused :
    (∃ text, (handle fullDiskEnv (bytes "POST") (bytes "/StartInspection") stationBody busyCore).1 =
      .reply ⟨some 6, text⟩) ∧
    FailsCleanly fullDiskEnv (bytes "POST") (bytes "/StartInspection") stationBody busyCore := by
  refine ⟨⟨_, rfl⟩, (start_fails_cleanly_iff _ fullDiskEnv_documented _ _ _ (by decide) _).2 ?_⟩
  intro q _ hidle
  cases hidle

/-- The start is answered with code 1 and leaves an active task behind. -/
theorem full_disk_counterexample :
    ¬ FailsCleanly fullDiskEnv (bytes "POST") (bytes "/StartInspection") stationBody bootCore := by
  have hq : startOf fullDiskEnv.lib (bytes "POST") (bytes "/StartInspection") stationBody =
      some (.inspection ⟨"S", "E", "T1"⟩) := rfl
  have hidle : bootCore.status.taskActive = false := rfl
  obtain ⟨text, hcr⟩ : ∃ text,
      (StartRequest.created fullDiskEnv bootCore (.inspection ⟨"S", "E", "T1"⟩)).2 = some text :=
    ⟨_, rfl⟩
  obtain ⟨c', hrun, hact⟩ := failed_record_active hidle hcr
  obtain ⟨d, -, hd⟩ := ensureDirs_failed hcr
  have hplain : Exc.Plain (.filesystemError text) :=
    fullDiskEnv_documented.createText _ _ (validUtf8_bytes d) hd
  exact thrown_not_clean hq hidle hplain hrun hact

end EcidsCore
