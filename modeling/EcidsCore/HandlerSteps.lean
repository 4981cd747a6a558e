import EcidsCore.ApiRuns
import EcidsCore.TaskView
import Mathlib.Tactic.IntervalCases

set_option autoImplicit false

/-! The handlers that start and stop tasks and set the mode, on any number of workers of the
API server, one step at a time, and what each step makes of the task. -/
namespace EcidsCore

variable {R : Type}

inductive HandlerCall where
  | start (q : StartRequest)
  | stopInspection
  | stopAiTest
  | setMode (mode : Mode)

namespace HandlerCall

def steps : HandlerCall → List ApiStep
  | .start q => q.steps
  | .stopInspection => stopInspectionSteps
  | .stopAiTest => stopAiTestSteps
  | .setMode m => setModeSteps m

def IsStart : HandlerCall → Prop
  | .start _ => True
  | _ => False

instance : (c : HandlerCall) → Decidable c.IsStart
  | .start _ => .isTrue trivial
  | .stopInspection | .stopAiTest | .setMode _ => .isFalse id

/-- The number of steps up to the last that touches the task; an inspection is stopped
before its stop pauses the processing. -/
def sectionEnd : HandlerCall → ℕ
  | .stopInspection => 5
  | c => c.steps.length

end HandlerCall

/-- A request in the hands of a worker: the steps done and the handler's record path. -/
structure Worker where
  call : HandlerCall
  done : ℕ := 0
  path : String := ""

namespace Worker

def InSection (k : Worker) : Prop := 0 < k.done ∧ k.done < k.call.sectionEnd

instance (k : Worker) : Decidable k.InSection := inferInstanceAs (Decidable (_ ∧ _))

def next (p : String) (k : Worker) : Option Worker :=
  if k.done + 1 < k.call.steps.length then some { k with done := k.done + 1, path := p } else none

theorem next_done {p : String} {k k' : Worker} (h : k.next p = some k') :
    k'.call = k.call ∧ k'.done = k.done + 1 := by
  unfold next at h
  split at h
  · cases h
    exact ⟨rfl, rfl⟩
  · cases h

end Worker

/-- `starts` counts the starts that succeeded since the last stop. -/
structure HandlerSystem (R : Type) where
  core : Core R
  workers : ℕ → Option Worker := fun _ => none
  starts : ℕ := 0

inductive HandlerAction (R : Type) where
  | begin (w : ℕ) (call : HandlerCall)
  | advance (w : ℕ) (env : Env R)
  | loopEnds

namespace HandlerSystem

def startsBehind (k : Worker) (a : ApiStep) (n : ℕ) : ℕ :=
  if a = .setTaskActive false then 0
  else if k.call.IsStart ∧ k.done + 1 = k.call.steps.length then n + 1
  else n

def step [Zero R] (s : HandlerSystem R) : HandlerAction R → Option (HandlerSystem R)
  | .begin w call =>
    match s.workers w with
    | none => some { s with workers := Function.update s.workers w (some { call }) }
    | some _ => none
  | .advance w env =>
    match s.workers w with
    | none => none
    | some k =>
      match k.call.steps[k.done]? with
      | none => none
      | some a =>
        match exec env k.path s.core a with
        | .next p c => some { core := c, workers := Function.update s.workers w (k.next p),
                              starts := startsBehind k a s.starts }
        | .answered _ _ c | .threw _ c =>
          some { s with core := c, workers := Function.update s.workers w none }
        | .waits _ => none
  | .loopEnds => s.core.loopEnds.map fun c => { s with core := c }

/-- The handler of worker `w` takes its first step, and is not sent back by its check. -/
def Enters (s : HandlerSystem R) (k : Worker) : Prop :=
  k.done = 0 ∧ (k.call = .stopInspection ∨ k.call = .stopAiTest ∨ s.core.status.taskActive = false)

/-- Directories can be created, and no other handler is in its section while a start is in
its own. -/
def Exclusive (s : HandlerSystem R) : HandlerAction R → Prop
  | .advance w env => (∀ d, env.fs.createDirectories d = none) ∧
      ∀ k, s.workers w = some k → Enters s k →
        ∀ v k', v ≠ w → s.workers v = some k' → k'.InSection →
          ¬ k.call.IsStart ∧ ¬ k'.call.IsStart
  | _ => True

/-- At most one start succeeded since the last stop, and between the handlers the places
that know of the task agree. -/
structure Consistent (s : HandlerSystem R) : Prop where
  starts : s.starts ≤ 1
  coherent : (∀ w, s.workers w = none) → s.core.view.Coherent

end HandlerSystem

namespace StartRequest

def launchIndex : StartRequest → ℕ
  | .inspection _ => 10
  | .aiTest _ => 6

theorem four_lt_launchIndex (q : StartRequest) : 4 < q.launchIndex := by
  cases q
  · exact show 4 < 10 by omega
  · exact show 4 < 6 by omega

theorem launchIndex_lt_length (q : StartRequest) : q.launchIndex < q.steps.length := by
  cases q
  · exact show 10 < 12 by omega
  · exact show 6 < 7 by omega

theorem taskMode_type (q : StartRequest) : taskMode q.task.type = q.mode := by
  cases q <;> rfl

theorem type_ne_none (q : StartRequest) : q.task.type ≠ .none := by
  cases q <;> simp [task, TaskManager.startInspection, TaskManager.startAiTest]

theorem setMode_step {q : StartRequest} {i : ℕ} {m : Mode} {accept : List ResponseCode}
    (h : q.steps[i]? = some (.setMode m accept)) :
    m = q.mode ∧ accept = [.success, .alreadyInit] := by
  have hmem := List.mem_of_getElem? h
  cases q <;> simp [steps, startInspectionSteps, startAiTestSteps] at hmem <;> exact hmem

theorem step_kind {q : StartRequest} {i : ℕ} {a : ApiStep} (ha : q.steps[i]? = some a) :
    a ≠ .setTaskActive false ∧ (∀ text, a = .checkIdle text → i = 0) ∧
      (a.Launches → i = q.launchIndex) := by
  have hlt : i < q.steps.length := (List.getElem?_eq_some_iff.1 ha).1
  cases q with
  | inspection q =>
    have h12 : i < 12 := hlt
    interval_cases i <;> cases ha <;> simp [ApiStep.Launches, launchIndex]
  | aiTest q =>
    have h7 : i < 7 := hlt
    interval_cases i <;> cases ha <;> simp [ApiStep.Launches, launchIndex]

theorem step_cases {q : StartRequest} {i : ℕ} {a : ApiStep} (hi : 1 ≤ i)
    (ha : q.steps[i]? = some a) :
    i = 1 ∧ a = .setMode q.mode [.success, .alreadyInit] ∨
    i = 2 ∧ ¬ a.Creates ∧ (∀ p v, a.effect p v = { v with type := q.task.type }) ∨
    i = 3 ∧ a = .setTaskActive true ∨
    i = 4 ∧ (∀ p v, a.effect p v = { v with activeRecord := p }) ∨
    4 < i ∧ ¬ a.Creates ∧ ∀ p v, v.activeRecord = p →
      a.effect p v = if i = q.launchIndex then { v with recordPath := p } else v := by
  have hlt : i < q.steps.length := (List.getElem?_eq_some_iff.1 ha).1
  cases q with
  | inspection q =>
    have h12 : i < 12 := hlt
    interval_cases i <;> cases ha
    · exact .inl ⟨rfl, rfl⟩
    · exact .inr (.inl ⟨rfl, id, fun _ _ => rfl⟩)
    · exact .inr (.inr (.inl ⟨rfl, rfl⟩))
    · exact .inr (.inr (.inr (.inl ⟨rfl, fun _ _ => rfl⟩)))
    all_goals
      refine .inr (.inr (.inr (.inr ⟨by omega, id, ?_⟩)))
      rintro p v rfl
      rfl
  | aiTest q =>
    have h7 : i < 7 := hlt
    interval_cases i <;> cases ha
    · exact .inl ⟨rfl, rfl⟩
    · exact .inr (.inl ⟨rfl, id, fun _ _ => rfl⟩)
    · exact .inr (.inr (.inl ⟨rfl, rfl⟩))
    · exact .inr (.inr (.inr (.inl ⟨rfl, fun _ _ => rfl⟩)))
    all_goals
      refine .inr (.inr (.inr (.inr ⟨by omega, id, ?_⟩)))
      rintro p v rfl
      rfl

/-- What a start has made of the task when `i` of its steps are done. -/
structure Progress (q : StartRequest) (i : ℕ) (p : String) (v : TaskView) : Prop where
  inactive : i ≤ 3 → v.taskActive = false
  mode : 2 ≤ i → v.mode = q.mode
  type : 3 ≤ i → v.type = q.task.type
  active : 4 ≤ i → v.taskActive = true
  activeRecord : 5 ≤ i → v.activeRecord = p
  recordPath : q.launchIndex < i → v.recordPath = p

theorem Progress.step {q : StartRequest} {i : ℕ} {p p' : String} {v : TaskView} {a : ApiStep}
    (h : q.Progress i p v) (hi : 1 ≤ i) (ha : q.steps[i]? = some a) (hp : ¬ a.Creates → p' = p) :
    q.Progress (i + 1) p' (a.effect p' v) := by
  have hlaunch := q.four_lt_launchIndex
  rcases step_cases hi ha with ⟨rfl, rfl⟩ | ⟨rfl, -, heff⟩ | ⟨rfl, rfl⟩ | ⟨rfl, heff⟩ | ⟨h4, hc, heff⟩
  · have hm : q.mode ≠ .uploading := by cases q <;> simp [StartRequest.mode]
    rw [ApiStep.effect, if_neg hm]
    exact ⟨fun _ => h.inactive (by omega), fun _ => rfl, by omega, by omega, by omega, by omega⟩
  · rw [heff]
    exact ⟨fun _ => h.inactive (by omega), fun _ => h.mode (by omega), fun _ => rfl, by omega,
      by omega, by omega⟩
  · exact ⟨by omega, fun _ => h.mode (by omega), fun _ => h.type (by omega), fun _ => rfl,
      by omega, by omega⟩
  · rw [heff]
    exact ⟨by omega, fun _ => h.mode (by omega), fun _ => h.type (by omega),
      fun _ => h.active (by omega), fun _ => rfl, by omega⟩
  · obtain rfl := hp hc
    have hrecord : v.activeRecord = p' := h.activeRecord (by omega)
    rw [heff p' v hrecord]
    split
    · exact ⟨by omega, fun _ => h.mode (by omega), fun _ => h.type (by omega),
        fun _ => h.active (by omega), fun _ => hrecord, fun _ => rfl⟩
    · exact ⟨by omega, fun _ => h.mode (by omega), fun _ => h.type (by omega),
        fun _ => h.active (by omega), fun _ => hrecord, fun _ => h.recordPath (by omega)⟩

theorem Progress.coherent {q : StartRequest} {i : ℕ} {p : String} {v : TaskView}
    (h : q.Progress i p v) (hi : q.launchIndex < i) : v.Coherent := by
  have hlaunch := q.four_lt_launchIndex
  have hact : v.taskActive = true := h.active (by omega)
  have htype : v.type = q.task.type := h.type (by omega)
  refine ⟨⟨fun _ => ?_, fun _ => hact⟩, fun _ => ?_, fun _ => ?_⟩
  · rw [htype]
    exact q.type_ne_none
  · rw [htype, taskMode_type]
    exact h.mode (by omega)
  · rw [h.recordPath hi, h.activeRecord (by omega)]

end StartRequest

namespace HandlerCall

def IsStop (c : HandlerCall) : Prop := c = .stopInspection ∨ c = .stopAiTest

theorem IsStop.sectionEnd {c : HandlerCall} (h : c.IsStop) : c.sectionEnd = 5 := by
  rcases h with rfl | rfl <;> rfl

theorem IsStop.not_isStart {c : HandlerCall} (h : c.IsStop) : ¬ c.IsStart := by
  rcases h with rfl | rfl <;> exact id

theorem IsStop.step_cases {c : HandlerCall} (h : c.IsStop) {i : ℕ} {a : ApiStep}
    (ha : c.steps[i]? = some a) :
    i = 0 ∧ a ≠ .setTaskActive false ∧ (∀ p v, ∃ r, a.effect p v = { v with recordPath := r }) ∨
    i = 1 ∧ a = .stopTask ∨ i = 2 ∧ a = .setTaskActive false ∨ i = 3 ∧ a = .clearActiveRecord ∨
    i = 4 ∧ a = .leaveMode ∨
    4 < i ∧ a ≠ .setTaskActive false ∧ ∀ p v, a.effect p v = v := by
  have hlt : i < c.steps.length := (List.getElem?_eq_some_iff.1 ha).1
  rcases h with rfl | rfl
  · have h7 : i < 7 := hlt
    interval_cases i <;> cases ha
    · exact .inl ⟨rfl, by simp, fun _ _ => ⟨_, rfl⟩⟩
    · exact .inr (.inl ⟨rfl, rfl⟩)
    · exact .inr (.inr (.inl ⟨rfl, rfl⟩))
    · exact .inr (.inr (.inr (.inl ⟨rfl, rfl⟩)))
    · exact .inr (.inr (.inr (.inr (.inl ⟨rfl, rfl⟩))))
    all_goals exact .inr (.inr (.inr (.inr (.inr ⟨by omega, by simp, fun _ _ => rfl⟩))))
  · have h5 : i < 5 := hlt
    interval_cases i <;> cases ha
    · exact .inl ⟨rfl, by simp, fun _ v => ⟨v.recordPath, rfl⟩⟩
    · exact .inr (.inl ⟨rfl, rfl⟩)
    · exact .inr (.inr (.inl ⟨rfl, rfl⟩))
    · exact .inr (.inr (.inr (.inl ⟨rfl, rfl⟩)))
    · exact .inr (.inr (.inr (.inr (.inl ⟨rfl, rfl⟩))))

theorem IsStop.goes_on {c : HandlerCall} (h : c.IsStop) {a : ApiStep} (ha : a ∈ c.steps) :
    ¬ a.Launches ∧ (∀ text, a ≠ .checkIdle text) ∧ ∀ m accept, a ≠ .setMode m accept := by
  rcases h with rfl | rfl
  · simp only [steps, stopInspectionSteps, List.mem_cons, List.not_mem_nil, or_false] at ha
    rcases ha with rfl | rfl | rfl | rfl | rfl | rfl | rfl <;> simp [ApiStep.Launches]
  · simp only [steps, stopAiTestSteps, List.mem_cons, List.not_mem_nil, or_false] at ha
    rcases ha with rfl | rfl | rfl | rfl | rfl <;> simp [ApiStep.Launches]

end HandlerCall

end EcidsCore
