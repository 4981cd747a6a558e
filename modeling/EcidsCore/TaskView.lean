import EcidsCore.RequestSpecs

set_option autoImplicit false

/-! The values that tell which task is active, kept in four places of the program, and what
each step of a handler does to them. -/
namespace EcidsCore

variable {R : Type}

structure TaskView where
  taskActive : Bool
  type : TaskType
  mode : Mode
  activeRecord : String
  recordPath : String
deriving DecidableEq, Repr

def Core.view (c : Core R) : TaskView where
  taskActive := c.status.taskActive
  type := c.task.type
  mode := c.mode
  activeRecord := c.records.activeRecord
  recordPath := c.preprocess.activeRecordPath

def taskMode : TaskType → Mode
  | .none => .none
  | .inspection | .installation => .inspection
  | .aiTest => .aiTest

/-- The places agree on the task. -/
structure TaskView.Coherent (v : TaskView) : Prop where
  active : v.taskActive = true ↔ v.type ≠ .none
  mode : v.taskActive = true → v.mode = taskMode v.type
  record : v.taskActive = true → v.recordPath = v.activeRecord

theorem TaskView.coherent_idle {v : TaskView} (ha : v.taskActive = false) (ht : v.type = .none) :
    v.Coherent where
  active := by simp [ha, ht]
  mode h := by simp [ha] at h
  record h := by simp [ha] at h

theorem TaskView.Coherent.idle {v : TaskView} (h : v.Coherent) (ha : v.taskActive = false) :
    v.type = .none := by
  by_contra ht
  have hact := h.active.2 ht
  rw [ha] at hact
  cases hact

namespace ApiStep

def Creates : ApiStep → Prop
  | .createInspectionRecord .. | .createAiTestRecord .. => True
  | _ => False

def Launches : ApiStep → Prop
  | .startInspection | .startAiTest _ => True
  | _ => False

/-- What a step does, for a handler whose record is `p` behind it. -/
def effect (p : String) (v : TaskView) : ApiStep → TaskView
  | .setMode m _ => if m = .uploading then v else { v with mode := m }
  | .leaveMode => { v with mode := .none }
  | .startInspectionTask .. => { v with type := .inspection }
  | .startAiTestTask .. => { v with type := .aiTest }
  | .stopTask => { v with type := .none }
  | .setTaskActive active => { v with taskActive := active }
  | .createInspectionRecord .. | .createAiTestRecord .. | .setActiveRecord =>
    { v with activeRecord := p }
  | .clearActiveRecord => { v with activeRecord := "" }
  | .startInspection | .startAiTest _ => { v with recordPath := p }
  | .stopInspection => { v with recordPath := "" }
  | .checkIdle _ | .setPaused _ | .camera .. | .stopAiTest | .resetWorkingDistance => v

end ApiStep

theorem setMode_view (m : Mode) (c : Core R) : (c.setMode m).2.view =
    if m = .uploading then c.view else { c.view with mode := m } := by
  split
  · rename_i hm
    rw [Core.setMode, if_pos hm]
  · rename_i hm
    have hmode := setMode_mode m c hm
    simp only [Core.view, setMode_taskActive, setMode_task, setMode_records, setMode_preprocess,
      hmode]

theorem stopPreprocess_view (finish : PreprocessModule R → PreprocessModule R) (c : Core R) :
    (c.stopPreprocess finish).view = { c.view with
      recordPath := (finish c.preprocess.haltAndJoin.1).activeRecordPath } := rfl

theorem createRecord_next {fs : FileSystem} {p p' : String} {dirs : List String} {c c' : Core R}
    (h : c.createRecord fs p dirs = .next p' c') :
    c'.view = { c.view with activeRecord := p' } := by
  dsimp only [Core.createRecord] at h
  split at h
  · cases h
  · cases h
    rfl

theorem createRecord_threw {fs : FileSystem} {p : String} {dirs : List String} {c c' : Core R}
    {e : Exc} (h : c.createRecord fs p dirs = .threw e c') :
    ∃ d, fs.createDirectories d ≠ none := by
  dsimp only [Core.createRecord] at h
  split at h
  · rename_i text htext
    obtain ⟨d, -, hd⟩ := ensureDirs_failed htext
    exact ⟨_, by rw [hd]; exact Option.some_ne_none _⟩
  · cases h

theorem createRecord_not_answered {fs : FileSystem} {p text : String} {dirs : List String}
    {c c' : Core R} {code : ResponseCode} :
    c.createRecord fs p dirs ≠ .answered code text c' := by
  intro h
  dsimp only [Core.createRecord] at h
  split at h <;> cases h

theorem startPreprocess_core {spawn : Option Bytes} {p : String} {c : Core R}
    {start : Bool → PreprocessModule R → PreprocessModule R}
    (hstart : ∀ b m, (start b m).activeRecordPath = p) :
    c.startPreprocess spawn p start = .waits c ∨ ∃ c', c'.view = { c.view with recordPath := p } ∧
      (c.startPreprocess spawn p start = .next p c' ∨
        ∃ e, c.startPreprocess spawn p start = .threw e c') := by
  unfold Core.startPreprocess
  split
  · exact .inl rfl
  · rename_i m called _
    refine .inr ⟨{ c.loopJoined called (start spawn.isNone m) with loopSerial := c.serial }, ?_, ?_⟩
    · rw [← hstart spawn.isNone m]
      rfl
    · cases spawn with
      | none => exact .inl rfl
      | some text => exact .inr ⟨_, rfl⟩

section Exec
variable [Zero R] {env : Env R} {p p' : String} {c c' : Core R} {a : ApiStep}

theorem exec_launch (env : Env R) (p : String) (c : Core R) (h : a.Launches) :
    exec env p c a = .waits c ∨ ∃ c', c'.view = a.effect p c.view ∧
      (exec env p c a = .next p c' ∨ ∃ e, exec env p c a = .threw e c') := by
  cases a with
  | startInspection => exact startPreprocess_core fun _ _ => rfl
  | startAiTest data => exact startPreprocess_core fun _ _ => rfl
  | _ => exact absurd h id

theorem exec_next_view (h : exec env p c a = .next p' c') :
    c'.view = a.effect p' c.view ∧ (¬ a.Creates → p' = p) := by
  have hlaunch : a.Launches → c'.view = a.effect p' c.view ∧ (¬ a.Creates → p' = p) := by
    intro ha
    rcases exec_launch env p c ha with hw | ⟨c1, hv, hn | ⟨e, ht⟩⟩
    · rw [hw] at h
      cases h
    · rw [hn] at h
      cases h
      exact ⟨hv, fun _ => rfl⟩
    · rw [ht] at h
      cases h
  cases a with
  | checkIdle conflict =>
    dsimp only [exec] at h
    split at h
    · cases h
    · cases h
      exact ⟨rfl, fun _ => rfl⟩
  | setMode m accept =>
    dsimp only [exec] at h
    split at h
    · cases h
      exact ⟨setMode_view m c, fun _ => rfl⟩
    · cases h
  | leaveMode =>
    cases h
    exact ⟨setMode_view .none c, fun _ => rfl⟩
  | createInspectionRecord s e t => exact ⟨createRecord_next h, fun hc => absurd trivial hc⟩
  | createAiTestRecord s e => exact ⟨createRecord_next h, fun hc => absurd trivial hc⟩
  | startInspection => exact hlaunch trivial
  | startAiTest data => exact hlaunch trivial
  | stopInspection =>
    cases h
    exact ⟨stopPreprocess_view _ c, fun _ => rfl⟩
  | stopAiTest =>
    cases h
    refine ⟨?_, fun _ => rfl⟩
    rw [stopPreprocess_view, PreprocessModule.haltAndJoin_module]
    rfl
  | _ =>
    cases h
    exact ⟨rfl, fun _ => rfl⟩

theorem exec_threw_view {e : Exc} (hroom : ∀ d, env.fs.createDirectories d = none)
    (h : exec env p c a = .threw e c') :
    a.Launches ∧ c'.view = a.effect p c.view := by
  have hcreate : ∀ path dirs, c.createRecord env.fs path dirs ≠ .threw e c' := by
    intro path dirs hc
    obtain ⟨d, hd⟩ := createRecord_threw hc
    exact hd (hroom d)
  have hlaunch : a.Launches → a.Launches ∧ c'.view = a.effect p c.view := by
    intro ha
    refine ⟨ha, ?_⟩
    rcases exec_launch env p c ha with hw | ⟨c1, hv, hn | ⟨e', ht⟩⟩
    · rw [hw] at h
      cases h
    · rw [hn] at h
      cases h
    · rw [ht] at h
      cases h
      exact hv
  cases a with
  | checkIdle conflict =>
    dsimp only [exec] at h
    split at h <;> cases h
  | setMode m accept =>
    dsimp only [exec] at h
    split at h <;> cases h
  | createInspectionRecord s e t => exact absurd h (hcreate _ _)
  | createAiTestRecord s e => exact absurd h (hcreate _ _)
  | startInspection => exact hlaunch trivial
  | startAiTest data => exact hlaunch trivial
  | _ => cases h

theorem exec_answered {code : ResponseCode} {text : String}
    (h : exec env p c a = .answered code text c') :
    (∃ conflict, a = .checkIdle conflict ∧ c' = c) ∨
    ∃ m accept, a = .setMode m accept ∧ (c.setMode m).1 ∉ accept ∧ c' = (c.setMode m).2 := by
  have hlaunch : ¬ a.Launches := by
    intro ha
    rcases exec_launch env p c ha with hw | ⟨c1, hv, hn | ⟨e, ht⟩⟩
    · rw [hw] at h
      cases h
    · rw [hn] at h
      cases h
    · rw [ht] at h
      cases h
  cases a with
  | checkIdle conflict =>
    dsimp only [exec] at h
    split at h
    · cases h
      exact .inl ⟨_, rfl, rfl⟩
    · cases h
  | setMode m accept =>
    dsimp only [exec] at h
    split at h
    · cases h
    · rename_i hrc
      cases h
      exact .inr ⟨m, accept, rfl, hrc, rfl⟩
  | createInspectionRecord s e t => exact absurd h createRecord_not_answered
  | createAiTestRecord s e => exact absurd h createRecord_not_answered
  | startInspection => exact absurd trivial hlaunch
  | startAiTest data => exact absurd trivial hlaunch
  | _ => cases h

end Exec

end EcidsCore
