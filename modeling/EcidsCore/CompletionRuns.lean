import EcidsCore.HandlerInterleaving

set_option autoImplicit false

/-! The delayed completion actions of AI tests beside the handlers of the requests, each on a
thread of its own and cut into its steps, and the tasks started after those tests. -/
namespace EcidsCore
open ByteText GuardedRuns PreprocessModule

variable {R : Type}

structure SameView (c c' : Core R) : Prop where
  preprocess : c'.preprocess = c.preprocess
  task : c'.task = c.task
  taskActive : c'.status.taskActive = c.status.taskActive
  mode : c'.mode = c.mode
  activeRecord : c'.records.activeRecord = c.records.activeRecord

structure Stilled (c : Core R) : Prop where
  running : c.preprocess.running = false
  thread : c.preprocess.thread = none

/-- Tasks only end between the two states, and no capture loop is started. -/
structure Quieter (c c' : Core R) : Prop where
  serial : c'.serial = c.serial
  still : Stilled c → Stilled c'
  aiTestMode : c.preprocess.aiTestMode = false → c'.preprocess.aiTestMode = false
  task : c'.task = {} ∨ c'.task = c.task ∧ c'.status.taskActive = c.status.taskActive
  taskActive : c.status.taskActive = false → c'.status.taskActive = false
  activeRecord : c.records.activeRecord = "" → c'.records.activeRecord = ""
  mode : c.mode = .none → c'.mode = .none

theorem Quieter.refl (c : Core R) : Quieter c c :=
  ⟨rfl, id, id, .inr ⟨rfl, rfl⟩, id, id, id⟩

theorem Undisturbed.quieter {c c' : Core R} (h : Undisturbed c c') : Quieter c c' := by
  refine ⟨h.serial, ?_, h.aiTestMode.trans, .inr ⟨h.task, h.taskActive⟩, h.taskActive.trans, ?_,
    h.mode.trans⟩
  · exact fun hs => ⟨h.running.trans hs.running, h.thread.trans hs.thread⟩
  · intro hr
    rw [h.records, hr]

/-- What a stop and a completion action have undone with `d` of their first five steps. -/
structure Undone (d : ℕ) (c : Core R) : Prop where
  still : Stilled c
  task : 2 ≤ d → c.task = {}
  taskActive : 3 ≤ d → c.status.taskActive = false
  activeRecord : 4 ≤ d → c.records.activeRecord = ""

theorem Undone.quieter {d : ℕ} {c c' : Core R} (h : Undone d c) (hq : Quieter c c') :
    Undone d c' where
  still := hq.still h.still
  task hd := by
    rcases hq.task with ht | ⟨ht, -⟩
    · exact ht
    · exact ht.trans (h.task hd)
  taskActive hd := hq.taskActive (h.taskActive hd)
  activeRecord hd := hq.activeRecord (h.activeRecord hd)

theorem stopPreprocess_stilled {finish : PreprocessModule R → PreprocessModule R} (c : Core R)
    (hrunning : ∀ m, (finish m).running = m.running) (hthread : ∀ m, (finish m).thread = m.thread) :
    Stilled (c.stopPreprocess finish) := by
  have h : (c.stopPreprocess finish).preprocess = finish c.preprocess.haltAndJoin.1 := rfl
  rw [haltAndJoin_module] at h
  constructor
  · rw [h, hrunning]
  · rw [h, hthread]

theorem stopPreprocess_undone (finish : PreprocessModule R → PreprocessModule R) (c : Core R)
    (hrunning : ∀ m, (finish m).running = m.running) (hthread : ∀ m, (finish m).thread = m.thread)
    (hmode : ∀ m, m.aiTestMode = false → (finish m).aiTestMode = false) :
    Quieter c (c.stopPreprocess finish) ∧ Undone 1 (c.stopPreprocess finish) := by
  have hstill := stopPreprocess_stilled c hrunning hthread
  have htest : c.preprocess.aiTestMode = false →
      (c.stopPreprocess finish).preprocess.aiTestMode = false := by
    intro h
    change (finish c.preprocess.haltAndJoin.1).aiTestMode = false
    rw [haltAndJoin_module]
    exact hmode _ h
  exact ⟨⟨rfl, fun _ => hstill, htest, .inr ⟨rfl, rfl⟩, id, id, id⟩,
    ⟨hstill, by omega, by omega, by omega⟩⟩

theorem stopPreprocess_of_stilled {c : Core R} (h : Stilled c)
    (ha : c.preprocess.aiTestMode = false) :
    (c.stopPreprocess finishAiTest).preprocess = c.preprocess := by
  obtain ⟨hr, ht⟩ := h
  change c.preprocess.haltAndJoin.1.finishAiTest = c.preprocess
  rw [haltAndJoin_module]
  generalize c.preprocess = m at hr ht ha ⊢
  cases m
  cases hr
  cases ht
  cases ha
  rfl

def Undoes (d : ℕ) (c c' : Core R) : Prop :=
  d = 1 ∧ c' = { c with task := {} } ∨
  d = 2 ∧ c' = { c with status := { c.status with taskActive := false } } ∨
  d = 3 ∧ c' = { c with records := c.records.setActiveRecord "" } ∨
  d = 4 ∧ c' = (c.setMode .none).2

theorem exec_undoes [Zero R] {env : Env R} {p p' : String} {c c' : Core R} {a : ApiStep} {d : ℕ}
    (hd : 1 ≤ d) (ha : completionSteps[d]? = some a) (h : exec env p c a = .next p' c') :
    Undoes d c c' := by
  match d, hd, ha with
  | 1, _, ha =>
    cases ha
    cases h
    exact .inl ⟨rfl, rfl⟩
  | 2, _, ha =>
    cases ha
    cases h
    exact .inr (.inl ⟨rfl, rfl⟩)
  | 3, _, ha =>
    cases ha
    cases h
    exact .inr (.inr (.inl ⟨rfl, rfl⟩))
  | 4, _, ha =>
    cases ha
    cases h
    exact .inr (.inr (.inr ⟨rfl, rfl⟩))

theorem setMode_quieter (c : Core R) : Quieter c (c.setMode .none).2 := by
  refine ⟨setMode_serial _ _, ?_, ?_, .inr ⟨setMode_task _ _, setMode_taskActive _ _⟩,
    (setMode_taskActive _ _).trans, ?_, fun _ => setMode_mode .none _ (by simp)⟩
  · intro h
    constructor <;> rw [setMode_preprocess]
    · exact h.running
    · exact h.thread
  · rw [setMode_preprocess]
    exact id
  · rw [setMode_records]
    exact id

theorem Undone.step {d : ℕ} {c c' : Core R} (h : Undone d c) (hu : Undoes d c c') :
    Quieter c c' ∧ Undone (d + 1) c' := by
  rcases hu with ⟨rfl, rfl⟩ | ⟨rfl, rfl⟩ | ⟨rfl, rfl⟩ | ⟨rfl, rfl⟩
  · exact ⟨⟨rfl, fun hs => ⟨hs.running, hs.thread⟩, id, .inl rfl, id, id, id⟩,
      ⟨⟨h.still.running, h.still.thread⟩, fun _ => rfl, by omega, by omega⟩⟩
  · have htask : c.task = {} := h.task (by omega)
    exact ⟨⟨rfl, fun hs => ⟨hs.running, hs.thread⟩, id, .inl htask, fun _ => rfl, id, id⟩,
      ⟨⟨h.still.running, h.still.thread⟩, fun _ => htask, fun _ => rfl, by omega⟩⟩
  · have htask : c.task = {} := h.task (by omega)
    have hidle : c.status.taskActive = false := h.taskActive (by omega)
    exact ⟨⟨rfl, fun hs => ⟨hs.running, hs.thread⟩, id, .inl htask, id, fun _ => rfl, id⟩,
      ⟨⟨h.still.running, h.still.thread⟩, fun _ => htask, fun _ => hidle, fun _ => rfl⟩⟩
  · have hq := setMode_quieter c
    have hrecord : c.records.activeRecord = "" := h.activeRecord (by omega)
    have hnext := h.quieter hq
    exact ⟨hq, ⟨hnext.still, fun _ => hnext.task (by omega), fun _ => hnext.taskActive (by omega),
      fun _ => hq.activeRecord hrecord⟩⟩

namespace Completion

def InProgress (e : Completion) : Prop := e.done < completionSteps.length

instance (e : Completion) : Decidable e.InProgress := inferInstanceAs (Decidable (_ < _))

/-- The test is the active task but for what the action has already undone. -/
structure Live (e : Completion) (c : Core R) : Prop where
  began : e.began = true
  serial : c.serial = e.test
  task : e.done < 2 → c.task.type = .aiTest
  taskActive : e.done < 3 → c.status.taskActive = true

structure Progress (e : Completion) (c : Core R) : Prop where
  started : 1 ≤ e.done
  undone : Undone e.done c
  aiTestMode : c.preprocess.aiTestMode = false
  serial : e.began = true → c.serial = e.test
  begun : e.began = true → c.task = {} ∨ c.task.type = .aiTest ∧ c.status.taskActive = true
  idle : e.began = false → c.status.taskActive = false

theorem Progress.quieter {e : Completion} {c c' : Core R} (h : e.Progress c) (hq : Quieter c c') :
    e.Progress c' where
  started := h.started
  undone := h.undone.quieter hq
  aiTestMode := hq.aiTestMode h.aiTestMode
  serial hb := hq.serial.trans (h.serial hb)
  begun hb := by
    rcases hq.task with ht | ⟨ht, ha⟩
    · exact .inl ht
    · rw [ht, ha]
      exact h.begun hb
  idle hb := hq.taskActive (h.idle hb)

theorem Progress.advance {e : Completion} {c c' : Core R} (h : e.Progress c)
    (hu : Undoes e.done c c') : Quieter c c' ∧ Progress { e with done := e.done + 1 } c' := by
  obtain ⟨hq, hnext⟩ := h.undone.step hu
  have hkept := h.quieter hq
  exact ⟨hq, ⟨Nat.le_add_left 1 e.done, hnext, hkept.aiTestMode, hkept.serial, hkept.begun,
    hkept.idle⟩⟩

end Completion

/-- The handlers on the workers of the API server, and the completion actions under way. -/
structure TaskSystem (R : Type) where
  handlers : HandlerSystem R
  actions : List Completion := []

/-- A step of a handler, or what another thread does: the capture loops, the dealer, the
completion actions, and the handlers of requests that neither start nor stop a task. -/
inductive TaskAction (R : Type) where
  | handler (a : HandlerAction R)
  | other (a : ApiAction R)

def ApiAction.InSteps : ApiAction R → Prop
  | .request _ method path _ => (route method path).IsStart ∨ (route method path).IsStop ∨
      route method path = .setMode
  | _ => False

instance : (a : ApiAction R) → Decidable a.InSteps
  | .request _ _ _ _ => inferInstanceAs (Decidable (_ ∨ _ ∨ _))
  | .publishPair .. | .publishFile .. | .insertPending .. | .aiResult .. | .reconnected | .loopEnds
  | .completionBegins _ | .completionStep .. => .isFalse id

namespace Worker

def Starting (k : Worker) : Prop := k.call.IsStart ∧ k.InSection

def Stopping (k : Worker) : Prop := k.call.IsStop ∧ k.InSection

end Worker

namespace TaskSystem
open Completion ApiSystem

abbrev core (s : TaskSystem R) : Core R := s.handlers.core

abbrev workers (s : TaskSystem R) : ℕ → Option Worker := s.handlers.workers

def step [Double R] (s : TaskSystem R) : TaskAction R → Option (TaskSystem R)
  | .handler a => (s.handlers.step a).map fun h => { s with handlers := h }
  | .other a =>
    if a.InSteps then none
    else (ApiSystem.step { core := s.core, actions := s.actions } a).map fun t =>
      { handlers := { s.handlers with core := t.core }, actions := t.actions }

/-- A completion action changes something only while its test is still the active task. -/
def Spares [Double R] (s : TaskSystem R) : TaskAction R → Prop
  | .other (.completionBegins k) => ∀ t, s.step (.other (.completionBegins k)) = some t →
      SameView s.core t.core ∨ TestActive k s.core
  | .other (.completionStep env i) => ∀ t e, s.actions[i]? = some e →
      s.step (.other (.completionStep env i)) = some t → SameView s.core t.core ∨ e.Live s.core
  | _ => True

/-- No start and no completion action are under way at once, nor a start and another start or
stop. A completion action begins while its test is active or nothing is left to stop, and one
whose test had ended overtakes no stop and no action whose test had not. -/
def Timely (s : TaskSystem R) : TaskAction R → Prop
  | .handler (.begin _ call) => ∀ m, call ≠ .setMode m
  | .handler (.advance w _) => ∀ k, s.workers w = some k → HandlerSystem.Enters s.handlers k →
      (∀ v k', v ≠ w → s.workers v = some k' → k'.InSection →
        ¬ k.call.IsStart ∧ ¬ k'.call.IsStart) ∧
      (k.call.IsStart → ∀ e ∈ s.actions, ¬ e.InProgress)
  | .other (.completionBegins k) => (∀ w k', s.workers w = some k' → ¬ k'.Starting) ∧
      (TestActive k s.core ∨
        s.core.status.taskActive = false ∧ s.core.preprocess.aiTestMode = false)
  | .other (.completionStep _ i) => ∀ e, s.actions[i]? = some e → e.began = false →
      (s.core.records.activeRecord = "" ∧ s.core.mode = .none) ∨
      (∀ e' ∈ s.actions, e'.began = true → e'.InProgress → e.done < e'.done) ∧
        ∀ w k, s.workers w = some k → k.Stopping → e.done < k.done
  | _ => True

def Undoing (s : TaskSystem R) : Prop :=
  (∃ e ∈ s.actions, e.began = true ∧ e.InProgress) ∨ ∃ w k, s.workers w = some k ∧ k.Stopping

/-- While no task is active nothing runs, and what is left of one is still being undone. -/
structure Resting (s : TaskSystem R) : Prop where
  task : s.core.task = {}
  still : Stilled s.core
  record : (s.core.records.activeRecord = "" ∧ s.core.mode = .none) ∨ s.Undoing

structure Orderly (s : TaskSystem R) : Prop where
  noMode : ∀ w k m, s.workers w = some k → k.call ≠ .setMode m
  apart : ∀ v w k k', v ≠ w → s.workers v = some k → s.workers w = some k' → k.InSection →
    k'.InSection → ¬ k.call.IsStart
  clear : ∀ w k, s.workers w = some k → k.Starting → ∀ e ∈ s.actions, ¬ e.InProgress
  active : ∀ w k, s.workers w = some k → k.Starting → 4 ≤ k.done →
    s.core.status.taskActive = true
  stops : ∀ w k, s.workers w = some k → k.Stopping → Undone k.done s.core
  progress : ∀ e ∈ s.actions, e.InProgress → e.Progress s.core
  resting : s.core.status.taskActive = false →
    (∀ w k, s.workers w = some k → ¬ k.Starting) → Resting s

variable {s : TaskSystem R} {w : ℕ}

theorem orderly_init {c : Core R} (h : AtRest c) : Orderly { handlers := { core := c } } where
  noMode _ _ _ hk := nomatch hk
  apart _ _ _ _ _ hk := nomatch hk
  clear _ _ hk := nomatch hk
  active _ _ hk := nomatch hk
  stops _ _ hk := nomatch hk
  progress _ he := absurd he List.not_mem_nil
  resting _ _ := ⟨h.task, ⟨h.running, h.thread⟩, .inl ⟨h.activeRecord, h.mode⟩⟩

theorem call_cases (c : HandlerCall) : c.IsStart ∨ c.IsStop ∨ ∃ m, c = .setMode m := by
  cases c with
  | start q => exact .inl trivial
  | stopInspection => exact .inr (.inl (.inl rfl))
  | stopAiTest => exact .inr (.inl (.inr rfl))
  | setMode m => exact .inr (.inr ⟨m, rfl⟩)

def withWorker (s : TaskSystem R) (w : ℕ) (c : Core R) (o : Option Worker) (n : ℕ) :
    TaskSystem R where
  handlers := { core := c, workers := Function.update s.workers w o, starts := n }
  actions := s.actions

section Move
variable {c : Core R} {o : Option Worker} {n : ℕ}

theorem withWorker_self : (s.withWorker w c o n).workers w = o := Function.update_self ..

theorem withWorker_other {v : ℕ} (hv : v ≠ w) : (s.withWorker w c o n).workers v = s.workers v :=
  Function.update_of_ne hv ..

/-- A worker moves that is not in a start. -/
theorem Orderly.move (h : Orderly s) (hq : Quieter s.core c)
    (hactive : ∀ v k, v ≠ w → s.workers v = some k → k.Starting →
      c.status.taskActive = s.core.status.taskActive)
    (hnew : ∀ k, o = some k → (∀ m, k.call ≠ .setMode m) ∧ ¬ k.Starting)
    (hstop : ∀ k, o = some k → k.Stopping → Undone k.done c ∧
      ∀ v k', v ≠ w → s.workers v = some k' → ¬ k'.Starting)
    (hrest : c.status.taskActive = false →
      (∀ v k, v ≠ w → s.workers v = some k → ¬ k.Starting) → Resting (s.withWorker w c o n)) :
    Orderly (s.withWorker w c o n) := by
  have hself := @withWorker_self R s w c o n
  have hother := @withWorker_other R s w c o n
  refine ⟨?_, ?_, ?_, ?_, ?_, ?_, ?_⟩
  · intro v k m hv
    by_cases hvw : v = w
    · subst hvw
      exact (hnew k (hself.symm.trans hv)).1 m
    · exact h.noMode v k m ((hother hvw).symm.trans hv)
  · intro u v k k' huv hu hv hk hk' hs
    by_cases huw : u = w
    · subst huw
      exact (hnew k (hself.symm.trans hu)).2 ⟨hs, hk⟩
    · have hu' := (hother huw).symm.trans hu
      by_cases hvw : v = w
      · subst hvw
        have ho := hself.symm.trans hv
        rcases call_cases k'.call with hstart | hst | ⟨m, hm⟩
        · exact (hnew k' ho).2 ⟨hstart, hk'⟩
        · exact (hstop k' ho ⟨hst, hk'⟩).2 u k huw hu' ⟨hs, hk⟩
        · exact (hnew k' ho).1 m hm
      · exact h.apart u v k k' huv hu' ((hother hvw).symm.trans hv) hk hk' hs
  · intro v k hv hk
    by_cases hvw : v = w
    · subst hvw
      exact absurd hk (hnew k (hself.symm.trans hv)).2
    · exact h.clear v k ((hother hvw).symm.trans hv) hk
  · intro v k hv hk h4
    by_cases hvw : v = w
    · subst hvw
      exact absurd hk (hnew k (hself.symm.trans hv)).2
    · have hv' := (hother hvw).symm.trans hv
      exact (hactive v k hvw hv' hk).trans (h.active v k hv' hk h4)
  · intro v k hv hk
    by_cases hvw : v = w
    · subst hvw
      exact (hstop k (hself.symm.trans hv) hk).1
    · exact (h.stops v k ((hother hvw).symm.trans hv) hk).quieter hq
  · exact fun e he hp => (h.progress e he hp).quieter hq
  · exact fun ha hnone => hrest ha fun v k hv hk => hnone v k ((hother hv).trans hk)

/-- A worker moves within a start, beside which nothing else is under way. -/
theorem Orderly.start (h : Orderly s)
    (halone : ∀ v k, v ≠ w → s.workers v = some k → ¬ k.InSection)
    (hclear : ∀ e ∈ s.actions, ¬ e.InProgress)
    (hnew : ∀ k, o = some k → k.call.IsStart ∧ (4 ≤ k.done → c.status.taskActive = true))
    (hrest : (∀ k, o = some k → ¬ k.Starting) → c.status.taskActive = true) :
    Orderly (s.withWorker w c o n) := by
  have hself := @withWorker_self R s w c o n
  have hother := @withWorker_other R s w c o n
  have hout : ∀ v k, v ≠ w → (s.withWorker w c o n).workers v = some k → ¬ k.InSection :=
    fun v k hv hk => halone v k hv ((hother hv).symm.trans hk)
  refine ⟨?_, ?_, ?_, ?_, ?_, ?_, ?_⟩
  · intro v k m hv
    by_cases hvw : v = w
    · subst hvw
      intro hm
      have hstart := (hnew k (hself.symm.trans hv)).1
      rw [hm] at hstart
      exact hstart
    · exact h.noMode v k m ((hother hvw).symm.trans hv)
  · intro u v k k' huv hu hv hk hk'
    by_cases huw : u = w
    · subst huw
      exact absurd hk' (hout v k' huv.symm hv)
    · exact absurd hk (hout u k huw hu)
  · exact fun _ _ _ _ => hclear
  · intro v k hv hk
    by_cases hvw : v = w
    · subst hvw
      exact (hnew k (hself.symm.trans hv)).2
    · exact absurd hk.2 (hout v k hvw hv)
  · intro v k hv hk
    by_cases hvw : v = w
    · subst hvw
      exact absurd (hnew k (hself.symm.trans hv)).1 hk.1.not_isStart
    · exact absurd hk.2 (hout v k hvw hv)
  · exact fun e he hp => absurd hp (hclear e he)
  · intro ha hnone
    have hact := hrest fun k ho => hnone w k (hself.trans ho)
    exact absurd (ha.symm.trans hact) (by simp)

theorem Resting.move (h : Resting s) (hq : Quieter s.core c)
    (hstop : ∀ k, s.workers w = some k → ¬ k.Stopping) : Resting (s.withWorker w c o n) := by
  refine ⟨?_, hq.still h.still, ?_⟩
  · rcases hq.task with ht | ⟨ht, -⟩
    · exact ht
    · exact ht.trans h.task
  · rcases h.record with ⟨hrecord, hmode⟩ | he | ⟨v, k, hv, hk⟩
    · exact .inl ⟨hq.activeRecord hrecord, hq.mode hmode⟩
    · exact .inr (.inl he)
    · have hvw : v ≠ w := by
        rintro rfl
        exact hstop k hv hk
      exact .inr (.inr ⟨v, k, (withWorker_other hvw).trans hv, hk⟩)

theorem Orderly.quiet (h : Orderly s) (hq : Quieter s.core c)
    (hactive : c.status.taskActive = s.core.status.taskActive)
    (hold : ∀ k, s.workers w = some k → ¬ k.InSection)
    (hnew : ∀ k, o = some k → (∀ m, k.call ≠ .setMode m) ∧ ¬ k.InSection) :
    Orderly (s.withWorker w c o n) := by
  refine h.move hq (fun _ _ _ _ _ => hactive) ?_ ?_ ?_
  · exact fun k ho => ⟨(hnew k ho).1, fun hk => (hnew k ho).2 hk.2⟩
  · exact fun k ho hk => absurd hk.2 (hnew k ho).2
  · intro ha hnone
    refine (h.resting (hactive.symm.trans ha) ?_).move hq fun k hk hs => hold k hk hs.2
    intro v k hv hk
    by_cases hvw : v = w
    · subst hvw
      exact hold k hv hk.2
    · exact hnone v k hvw hv hk

end Move

theorem exec_threw_cases [Zero R] {env : Env R} {p : String} {c c' : Core R} {a : ApiStep} {e : Exc}
    (h : exec env p c a = .threw e c') :
    (a.Creates ∨ a.Launches) ∧ c'.status.taskActive = c.status.taskActive := by
  have hcreate {path : String} {dirs : List String}
      (hc : c.createRecord env.fs path dirs = .threw e c') :
      c'.status.taskActive = c.status.taskActive := by
    dsimp only [Core.createRecord] at hc
    split at hc <;> cases hc
    rfl
  have hlaunch {start : Bool → PreprocessModule R → PreprocessModule R}
      (hl : c.startPreprocess env.spawn p start = .threw e c') :
      c'.status.taskActive = c.status.taskActive := by
    unfold Core.startPreprocess at hl
    split at hl
    · cases hl
    · dsimp only at hl
      split at hl <;> cases hl
      rfl
  cases a with
  | createInspectionRecord s e t => exact ⟨.inl trivial, hcreate h⟩
  | createAiTestRecord s e => exact ⟨.inl trivial, hcreate h⟩
  | startInspection => exact ⟨.inr trivial, hlaunch h⟩
  | startAiTest data => exact ⟨.inr trivial, hlaunch h⟩
  | checkIdle conflict =>
    dsimp only [exec] at h
    split at h <;> cases h
  | setMode m accept =>
    dsimp only [exec] at h
    split at h <;> cases h
  | _ => cases h

def Alone (s : TaskSystem R) (w : ℕ) (k : Worker) : Prop :=
  HandlerSystem.Enters s.handlers k →
    (∀ v k', v ≠ w → s.workers v = some k' → k'.InSection →
      ¬ k.call.IsStart ∧ ¬ k'.call.IsStart) ∧
    (k.call.IsStart → ∀ e ∈ s.actions, ¬ e.InProgress)

section Start
variable {q : StartRequest} {done : ℕ} {path p : String} {a : ApiStep} {c : Core R}

theorem Orderly.alone (h : Orderly s) (hk : s.workers w = some ⟨.start q, done, path⟩)
    (hsec : Worker.InSection ⟨.start q, done, path⟩) (v : ℕ) (k : Worker) (hv : v ≠ w)
    (hkv : s.workers v = some k) : ¬ k.InSection := by
  intro hks
  exact h.apart w v _ k hv.symm hk hkv hsec hks trivial

/-- From its fourth step on a start finds its task active. -/
theorem start_active [Zero R] {env : Env R} (h : Orderly s)
    (hk : s.workers w = some ⟨.start q, done, path⟩) (hpos : 1 ≤ done)
    (ha : q.steps[done]? = some a) (he : exec env path s.core a = .next p c) (h4 : 4 ≤ done + 1) :
    c.status.taskActive = true := by
  have hlt : done < q.steps.length := (List.getElem?_eq_some_iff.1 ha).1
  have hold : 4 ≤ done → s.core.status.taskActive = true :=
    h.active w _ hk ⟨trivial, hpos, hlt⟩
  obtain ⟨hview, hpath⟩ := exec_next_view he
  change c.view.taskActive = true
  rw [hview]
  rcases StartRequest.step_cases hpos ha with ⟨rfl, -⟩ | ⟨rfl, -, -⟩ | ⟨rfl, rfl⟩ | ⟨rfl, heff⟩ |
    ⟨hgt, -, -⟩
  · omega
  · omega
  · rfl
  · rw [heff]
    exact hold le_rfl
  · have hkeep : ∀ v : TaskView, (a.effect p v).taskActive = v.taskActive := by
      intro v
      have hlate : ∀ b, a ≠ .setTaskActive b := by
        rintro b rfl
        cases q with
        | inspection q =>
          have h12 : done < 12 := hlt
          interval_cases done <;> cases ha
        | aiTest q =>
          have h7 : done < 7 := hlt
          interval_cases done <;> cases ha
      cases a with
      | setTaskActive b => exact absurd rfl (hlate b)
      | setMode m accept =>
        dsimp only [ApiStep.effect]
        split <;> rfl
      | _ => rfl
    rw [hkeep]
    exact hold (by omega)

theorem orderly_start_next [Zero R] {env : Env R} (h : Orderly s)
    (hk : s.workers w = some ⟨.start q, done, path⟩) (ha : q.steps[done]? = some a)
    (he : exec env path s.core a = .next p c) (hx : Alone s w ⟨.start q, done, path⟩) (n : ℕ) :
    Orderly (s.withWorker w c (Worker.next p ⟨.start q, done, path⟩) n) := by
  have hlt : done < q.steps.length := (List.getElem?_eq_some_iff.1 ha).1
  have hlength := q.launchIndex_lt_length
  have hlaunch := q.four_lt_launchIndex
  have hstarts : ∀ k, Worker.next p ⟨.start q, done, path⟩ = some k →
      k.call.IsStart ∧ k.done = done + 1 := by
    intro k ho
    obtain ⟨hcall, hdone⟩ := Worker.next_done ho
    exact ⟨hcall ▸ trivial, hdone⟩
  have hgoes : done + 1 < q.steps.length → ∃ k, Worker.next p ⟨.start q, done, path⟩ = some k ∧
      k.Starting := by
    intro hmore
    exact ⟨⟨.start q, done + 1, p⟩, if_pos hmore, trivial, Nat.succ_pos done, hmore⟩
  rcases Nat.eq_zero_or_pos done with rfl | hpos
  · obtain rfl : a = .checkIdle startConflict := by cases q <;> cases ha <;> rfl
    have hidle : s.core.status.taskActive = false := by
      dsimp only [exec] at he
      split at he
      · cases he
      · exact Bool.eq_false_iff.2 ‹_›
    obtain ⟨hfree, hclear⟩ := hx ⟨rfl, .inr (.inr hidle)⟩
    refine h.start (fun v k hv hkv hks => (hfree v k hv hkv hks).1 trivial) (hclear trivial) ?_ ?_
    · intro k ho
      obtain ⟨hstart, hdone⟩ := hstarts k ho
      exact ⟨hstart, by omega⟩
    · intro hnone
      obtain ⟨k, ho, hk⟩ := hgoes (by omega)
      exact absurd hk (hnone k ho)
  · have hsec : Worker.InSection ⟨.start q, done, path⟩ := ⟨hpos, hlt⟩
    have hactive := start_active h hk hpos ha he
    refine h.start (h.alone hk hsec) (h.clear w _ hk ⟨trivial, hsec⟩) ?_ ?_
    · intro k ho
      obtain ⟨hstart, hdone⟩ := hstarts k ho
      exact ⟨hstart, fun h4 => hactive (by omega)⟩
    · intro hnone
      by_cases hmore : done + 1 < q.steps.length
      · obtain ⟨k, ho, hk⟩ := hgoes hmore
        exact absurd hk (hnone k ho)
      · exact hactive (by omega)

/-- A start leaves before its end at its check, or with its task active. -/
theorem orderly_start_left [Zero R] {env : Env R} (h : Orderly s)
    (hk : s.workers w = some ⟨.start q, done, path⟩) (ha : q.steps[done]? = some a)
    (he : (∃ code text, exec env path s.core a = .answered code text c) ∨
      ∃ e, exec env path s.core a = .threw e c) (n : ℕ) :
    Orderly (s.withWorker w c none n) := by
  have hlt : done < q.steps.length := (List.getElem?_eq_some_iff.1 ha).1
  rcases he with ⟨code, text, he⟩ | ⟨e, he⟩
  · rcases exec_answered he with ⟨conflict, rfl, rfl⟩ | ⟨m, accept, rfl, hrc, -⟩
    · obtain rfl := (StartRequest.step_kind ha).2.1 conflict rfl
      refine h.quiet (.refl _) rfl ?_ fun k ho => nomatch ho
      intro k hkw hsec
      rw [hk] at hkw
      cases hkw
      exact absurd hsec.1 (Nat.lt_irrefl 0)
    · obtain ⟨rfl, rfl⟩ := StartRequest.setMode_step ha
      have hm : q.mode ≠ .uploading := by cases q <;> simp [StartRequest.mode]
      exact absurd (setMode_accepted q.mode hm s.core) hrc
  · obtain ⟨hkind, hsame⟩ := exec_threw_cases he
    have h4 : 4 ≤ done := by
      rcases hkind with hc | hl
      · rcases Nat.eq_zero_or_pos done with rfl | hpos
        · obtain rfl : a = .checkIdle startConflict := by cases q <;> cases ha <;> rfl
          exact absurd hc id
        · rcases StartRequest.step_cases hpos ha with ⟨-, rfl⟩ | ⟨-, hn, -⟩ | ⟨-, rfl⟩ | ⟨rfl, -⟩ |
            ⟨-, hn, -⟩
          · exact absurd hc id
          · exact absurd hc hn
          · exact absurd hc id
          · exact le_rfl
          · exact absurd hc hn
      · have hindex := (StartRequest.step_kind ha).2.2 hl
        have hlaunch := q.four_lt_launchIndex
        omega
    have hsec : Worker.InSection ⟨.start q, done, path⟩ :=
      ⟨show 0 < done by omega, hlt⟩
    refine h.start (h.alone hk hsec) (h.clear w _ hk ⟨trivial, hsec⟩) (fun k ho => nomatch ho) ?_
    exact fun _ => hsame.trans (h.active w _ hk ⟨trivial, hsec⟩ h4)

end Start

section Stop
variable {call : HandlerCall} {i : ℕ} {path p : String} {a : ApiStep} {c : Core R}

theorem stop_steps (hc : call.IsStop) (hi : 1 ≤ i) (h5 : i < 5) :
    call.steps[i]? = completionSteps[i]? := by
  rcases hc with rfl | rfl <;> interval_cases i <;> rfl

theorem stop_outside [Zero R] {env : Env R} (hc : call.IsStop) (ha : call.steps[i]? = some a)
    (he : exec env path s.core a = .next p c) (hi : i = 0 ∨ 5 ≤ i) :
    Quieter s.core c ∧ c.status.taskActive = s.core.status.taskActive ∧ (i = 0 → Undone 1 c) := by
  have hlt : i < call.steps.length := (List.getElem?_eq_some_iff.1 ha).1
  rcases hc with rfl | rfl
  · have h7 : i < 7 := hlt
    rcases hi with rfl | hi
    · cases ha
      cases he
      obtain ⟨hq, hundone⟩ := stopPreprocess_undone finishInspection s.core
        (fun _ => rfl) (fun _ => rfl) fun _ => id
      exact ⟨hq, rfl, fun _ => hundone⟩
    · interval_cases i <;> cases ha <;> cases he
      · exact ⟨⟨rfl, fun h => ⟨h.running, h.thread⟩, id, .inr ⟨rfl, rfl⟩, id, id, id⟩, rfl, by omega⟩
      · exact ⟨.refl _, rfl, by omega⟩
  · have h5 : i < 5 := hlt
    obtain rfl : i = 0 := by omega
    cases ha
    cases he
    obtain ⟨hq, hundone⟩ := stopPreprocess_undone finishAiTest s.core
      (fun _ => rfl) (fun _ => rfl) fun _ _ => rfl
    exact ⟨hq, rfl, fun _ => hundone⟩

theorem next_stop (hc : call.IsStop) {k : Worker}
    (h : Worker.next p ⟨call, i, path⟩ = some k) :
    (∀ m, k.call ≠ .setMode m) ∧ ¬ k.Starting ∧ k.done = i + 1 ∧ (k.InSection ↔ i + 1 < 5) := by
  obtain ⟨hcall, hdone⟩ := Worker.next_done h
  refine ⟨?_, ?_, hdone, ?_⟩
  · rintro m hm
    rw [hcall] at hm
    rcases hc with rfl | rfl <;> cases hm
  · rintro ⟨hs, -⟩
    rw [hcall] at hs
    exact hc.not_isStart hs
  · rw [Worker.InSection, hcall, hdone, hc.sectionEnd]
    exact ⟨fun h => h.2, fun h => ⟨Nat.succ_pos i, h⟩⟩

theorem orderly_stop_next [Zero R] {env : Env R} (h : Orderly s) (hc : call.IsStop)
    (hk : s.workers w = some ⟨call, i, path⟩) (ha : call.steps[i]? = some a)
    (he : exec env path s.core a = .next p c) (hx : Alone s w ⟨call, i, path⟩) (n : ℕ) :
    Orderly (s.withWorker w c (Worker.next p ⟨call, i, path⟩) n) := by
  have hlen : 5 ≤ call.steps.length := by rcases hc with rfl | rfl <;> decide
  have hnew (k : Worker) (ho : Worker.next p ⟨call, i, path⟩ = some k) := next_stop hc ho
  by_cases hout : 5 ≤ i
  · obtain ⟨hq, hact, -⟩ := stop_outside hc ha he (.inr hout)
    refine h.quiet hq hact ?_ fun k ho => ⟨(hnew k ho).1, fun hks => ?_⟩
    · intro k hkw hks
      rw [hk] at hkw
      cases hkw
      have h5 : i < call.sectionEnd := hks.2
      rw [hc.sectionEnd] at h5
      omega
    · have h5 := (hnew k ho).2.2.2.1 hks
      omega
  · rcases Nat.eq_zero_or_pos i with rfl | hpos
    · obtain ⟨hq, hact, hundone⟩ := stop_outside hc ha he (.inl rfl)
      have hfirst : call = .stopInspection ∨ call = .stopAiTest ∨
          s.core.status.taskActive = false := hc.elim .inl fun hc => .inr (.inl hc)
      have hfree := (hx ⟨rfl, hfirst⟩).1
      refine h.move hq (fun _ _ _ _ _ => hact) (fun k ho => ⟨(hnew k ho).1, (hnew k ho).2.1⟩) ?_ ?_
      · intro k ho hks
        rw [(hnew k ho).2.2.1]
        exact ⟨hundone rfl, fun v k' hv hkv hs => (hfree v k' hv hkv hs.2).2 hs.1⟩
      · intro hidle hnone
        refine (h.resting (hact.symm.trans hidle) ?_).move hq ?_
        · intro v k hv hs
          by_cases hvw : v = w
          · subst hvw
            rw [hk] at hv
            cases hv
            exact absurd hs.2.1 (Nat.lt_irrefl 0)
          · exact hnone v k hvw hv hs
        · intro k hkw hs
          rw [hk] at hkw
          cases hkw
          exact absurd hs.2.1 (Nat.lt_irrefl 0)
    · have hsec : Worker.InSection ⟨call, i, path⟩ := by
        refine ⟨hpos, ?_⟩
        rw [hc.sectionEnd]
        exact show i < 5 by omega
      rw [stop_steps hc hpos (by omega)] at ha
      have hold : Undone i s.core := h.stops w _ hk ⟨hc, hsec⟩
      obtain ⟨hq, hundone⟩ := hold.step (exec_undoes hpos ha he)
      have hfree : ∀ v k, v ≠ w → s.workers v = some k → ¬ k.Starting := fun v k hv hkv hs =>
        h.apart v w k _ hv hkv hk hs.2 hsec hs.1
      refine h.move hq (fun v k hv hkv hs => absurd hs (hfree v k hv hkv))
        (fun k ho => ⟨(hnew k ho).1, (hnew k ho).2.1⟩) ?_ ?_
      · intro k ho hks
        rw [(hnew k ho).2.2.1]
        exact ⟨hundone, hfree⟩
      · intro _ _
        refine ⟨hundone.task (by omega), hundone.still, ?_⟩
        by_cases h4 : i = 4
        · subst h4
          cases ha
          cases he
          exact .inl ⟨hundone.activeRecord (by omega), setMode_mode .none _ (by simp)⟩
        · have hnext : Worker.next p ⟨call, i, path⟩ = some ⟨call, i + 1, p⟩ :=
            if_pos (show i + 1 < call.steps.length by omega)
          refine .inr (.inr ⟨w, ⟨call, i + 1, p⟩, withWorker_self.trans hnext, hc, ?_⟩)
          exact (hnew _ hnext).2.2.2.2 (by omega)

end Stop

theorem orderly_advance [Zero R] {env : Env R} {t : HandlerSystem R} (h : Orderly s)
    (hx : Timely s (.handler (.advance w env))) (ht : s.handlers.step (.advance w env) = some t) :
    Orderly { s with handlers := t } := by
  obtain ⟨⟨call, i, path⟩, a, hk, ha, hend⟩ := HandlerSystem.advance_some ht
  have halone : Alone s w ⟨call, i, path⟩ := hx _ hk
  rcases call_cases call with hs | hc | ⟨m, rfl⟩
  · cases call with
    | start q =>
      rcases hend with ⟨p, c, he, rfl⟩ | ⟨c, rfl, he⟩
      · exact orderly_start_next h hk ha he halone _
      · exact orderly_start_left h hk ha he _
    | _ => exact absurd hs id
  · obtain ⟨hlaunch, hcheck, hset⟩ := hc.goes_on (List.mem_of_getElem? ha)
    rcases hend with ⟨p, c, he, rfl⟩ | ⟨c, -, ⟨code, text, he⟩ | ⟨e, he⟩⟩
    · exact orderly_stop_next h hc hk ha he halone _
    · rcases exec_answered he with ⟨conflict, hc', -⟩ | ⟨m, accept, hm, -⟩
      · exact absurd hc' (hcheck conflict)
      · exact absurd hm (hset m accept)
    · rcases (exec_threw_cases he).1 with hcr | hl
      · have hmem := List.mem_of_getElem? ha
        rcases hc with rfl | rfl <;>
          simp only [HandlerCall.steps, stopInspectionSteps, stopAiTestSteps, List.mem_cons,
            List.not_mem_nil, or_false] at hmem <;>
          rcases hmem with rfl | rfl | rfl | rfl | rfl | rfl | rfl <;> exact absurd hcr id
      · exact absurd hl hlaunch
  · exact absurd rfl (h.noMode w _ m hk)

theorem other_cases [Double R] {t : ApiSystem R} {a : ApiAction R} (hin : ¬ a.InSteps)
    (h : ApiSystem.step { core := s.core, actions := s.actions } a = some t) :
    (∃ c, Undisturbed s.core c ∧ t = { core := c, actions := s.actions }) ∨
    (∃ found, s.core.preprocess.thread = some ⟨.aiTest found, true⟩ ∧
      t = { core := s.core.loopEnded found, actions := s.actions }) ∨
    (∃ k, a = .completionBegins k ∧ t =
      { core := Core.stopPreprocess finishAiTest
          { s.core with completions := s.core.completions.erase k }
        actions := s.actions ++ [{ test := k, began := TestActive k s.core }] }) ∨
    ∃ env i e a' p c, a = .completionStep env i ∧ s.actions[i]? = some e ∧
      completionSteps[e.done]? = some a' ∧ exec env "" s.core a' = .next p c ∧
      t = { core := c, actions := s.actions.set i { e with done := e.done + 1 } } := by
  cases ApiSystem.stepped h with
  | @started env method path body q hq ha =>
    exact absurd (.inl (startOf_route hq)) hin
  | stopped hr => exact absurd (.inr (.inl hr)) hin
  | modeSet hr ha => exact absurd (.inr (.inr hr)) hin
  | undisturbed hu => exact .inl ⟨_, hu, rfl⟩
  | loopEnded hth => exact .inr (.inl ⟨_, hth, rfl⟩)
  | began hk => exact .inr (.inr (.inl ⟨_, rfl, rfl⟩))
  | advanced he ha hc => exact .inr (.inr (.inr ⟨_, _, _, _, _, _, rfl, he, ha, hc, rfl⟩))

def withActions (s : TaskSystem R) (c : Core R) (actions : List Completion) : TaskSystem R where
  handlers := { s.handlers with core := c }
  actions := actions

section Act
variable {c : Core R} {actions : List Completion}

theorem Orderly.act (h : Orderly s) (hq : Quieter s.core c)
    (hactive : ∀ v k, s.workers v = some k → k.Starting →
      c.status.taskActive = s.core.status.taskActive)
    (hclear : ∀ v k, s.workers v = some k → k.Starting → ∀ e ∈ actions, ¬ e.InProgress)
    (hprogress : ∀ e ∈ actions, e.InProgress → e.Progress c)
    (hrest : c.status.taskActive = false → (∀ v k, s.workers v = some k → ¬ k.Starting) →
      Resting (s.withActions c actions)) : Orderly (s.withActions c actions) where
  noMode := h.noMode
  apart := h.apart
  clear := hclear
  active v k hv hk h4 := (hactive v k hv hk).trans (h.active v k hv hk h4)
  stops v k hv hk := (h.stops v k hv hk).quieter hq
  progress := hprogress
  resting := hrest

theorem Resting.act (h : Resting s) (hq : Quieter s.core c)
    (hmore : ∀ e ∈ s.actions, e.began = true → e.InProgress →
      ∃ e' ∈ actions, e'.began = true ∧ e'.InProgress) : Resting (s.withActions c actions) := by
  refine ⟨?_, hq.still h.still, ?_⟩
  · rcases hq.task with ht | ⟨ht, -⟩
    · exact ht
    · exact ht.trans h.task
  · rcases h.record with ⟨hrecord, hmode⟩ | ⟨e, he, hb, hp⟩ | hstop
    · exact .inl ⟨hq.activeRecord hrecord, hq.mode hmode⟩
    · exact .inr (.inl (hmore e he hb hp))
    · exact .inr (.inr hstop)

theorem Orderly.same_actions (h : Orderly s) (hq : Quieter s.core c)
    (hactive : c.status.taskActive = s.core.status.taskActive) :
    Orderly (s.withActions c s.actions) := by
  refine h.act hq (fun _ _ _ _ => hactive) h.clear ?_ ?_
  · exact fun e he hp => (h.progress e he hp).quieter hq
  · intro ha hnone
    exact (h.resting (hactive.symm.trans ha) hnone).act hq fun e he hb hp => ⟨e, he, hb, hp⟩

theorem loopEnded_quieter {found : Bool}
    (h : s.core.preprocess.thread = some ⟨.aiTest found, true⟩) :
    Quieter s.core (s.core.loopEnded found) := by
  refine ⟨rfl, ?_, id, .inr ⟨rfl, rfl⟩, id, id, id⟩
  intro hs
  have hnone := hs.thread
  rw [h] at hnone
  cases hnone

theorem orderly_began {k : ℕ} (h : Orderly s) (hk : Timely s (.other (.completionBegins k))) :
    Orderly (s.withActions (Core.stopPreprocess finishAiTest
        { s.core with completions := s.core.completions.erase k })
      (s.actions ++ [{ test := k, began := TestActive k s.core }])) := by
  obtain ⟨hfree, hk⟩ := hk
  obtain ⟨hq, hundone⟩ := stopPreprocess_undone finishAiTest
    { s.core with completions := s.core.completions.erase k } (fun _ => rfl) (fun _ => rfl)
    fun _ _ => rfl
  have hquieter : Quieter s.core (Core.stopPreprocess finishAiTest
      { s.core with completions := s.core.completions.erase k }) :=
    ⟨rfl, fun _ => hundone.still, fun _ => rfl, .inr ⟨rfl, rfl⟩, id, id, id⟩
  refine h.act hquieter (fun v k' hv hs => absurd hs (hfree v k' hv))
    (fun v k' hv hs => absurd hs (hfree v k' hv)) ?_ ?_
  · intro e he hp
    rcases List.mem_append.1 he with he | he
    · exact (h.progress e he hp).quieter hquieter
    · obtain rfl := List.mem_singleton.1 he
      refine ⟨le_rfl, hundone, rfl, ?_, ?_, ?_⟩
      · exact fun hb => (of_decide_eq_true hb).2.2
      · exact fun hb => .inr ⟨(of_decide_eq_true hb).2.1, (of_decide_eq_true hb).1⟩
      · exact fun hb => (hk.resolve_left (of_decide_eq_false hb)).1
  · intro ha hnone
    exact (h.resting ha hnone).act hquieter fun e he hb hp =>
      ⟨e, List.mem_append_left _ he, hb, hp⟩

theorem mem_set_of_began {i : ℕ} {e x y : Completion} (he : s.actions[i]? = some e)
    (hb : e.began = false) (hx : x ∈ s.actions) (hxb : x.began = true) :
    x ∈ s.actions.set i y := by
  obtain ⟨j, hj⟩ := List.mem_iff_getElem?.1 hx
  have hij : i ≠ j := by
    rintro rfl
    rw [he] at hj
    cases hj
    rw [hb] at hxb
    cases hxb
  rw [List.mem_iff_getElem?]
  exact ⟨j, by rw [List.getElem?_set_ne hij, hj]⟩

theorem Orderly.no_start (h : Orderly s) {e : Completion} (he : e ∈ s.actions)
    (hp : e.InProgress) (v : ℕ) (k : Worker) (hv : s.workers v = some k) : ¬ k.Starting :=
  fun hs => h.clear v k hv hs e he hp

theorem orderly_advanced {i : ℕ} {e : Completion} (h : Orderly s)
    (he : s.actions[i]? = some e) (hp : e.InProgress) (hu : Undoes e.done s.core c) :
    Orderly (s.withActions c (s.actions.set i { e with done := e.done + 1 })) := by
  have hmem := List.mem_of_getElem? he
  have hlt : i < s.actions.length := (List.getElem?_eq_some_iff.1 he).1
  have hprog := h.progress e hmem hp
  have hfree := h.no_start hmem hp
  obtain ⟨hq, hnext⟩ := hprog.advance hu
  have hundone : Undone (e.done + 1) c := hnext.undone
  refine h.act hq (fun v k hv hs => absurd hs (hfree v k hv))
    (fun v k hv hs => absurd hs (hfree v k hv)) ?_ ?_
  · intro x hx hxp
    rcases List.mem_or_eq_of_mem_set hx with hx | rfl
    · exact (h.progress x hx hxp).quieter hq
    · exact hnext
  · intro _ hnone
    have hstarted := hprog.started
    refine ⟨hundone.task (by omega), hundone.still, ?_⟩
    by_cases h4 : e.done = 4
    · refine .inl ⟨hundone.activeRecord (by omega), ?_⟩
      rcases hu with ⟨hd, -⟩ | ⟨hd, -⟩ | ⟨hd, -⟩ | ⟨-, rfl⟩
      · omega
      · omega
      · omega
      · exact setMode_mode .none _ (by simp)
    · have hp5 : e.done < 5 := hp
      cases hb : e.began with
      | true =>
        have hnext5 : e.done + 1 < 5 := by omega
        exact .inr (.inl ⟨_, List.mem_set hlt _, rfl, hnext5⟩)
      | false =>
        rcases (h.resting (hprog.idle hb) hfree).record with ⟨hrecord, hmode⟩ | ⟨x, hx, hxb, hxp⟩ |
          hstop
        · exact .inl ⟨hq.activeRecord hrecord, hq.mode hmode⟩
        · exact .inr (.inl ⟨x, mem_set_of_began he hb hx hxb, hxb, hxp⟩)
        · exact .inr (.inr hstop)

end Act

theorem orderly_step [Double R] {t : TaskSystem R} {a : TaskAction R} (hs : Orderly s)
    (ht : Timely s a) (h : s.step a = some t) : Orderly t := by
  cases a with
  | handler a =>
    obtain ⟨u, hu, rfl⟩ := Option.map_eq_some_iff.1 h
    cases a with
    | begin w call =>
      rw [HandlerSystem.step] at hu
      split at hu <;> cases hu
      rename_i hw
      refine hs.quiet (o := some { call }) (.refl _) rfl ?_ ?_
      · intro k hk
        rw [show s.workers w = none from hw] at hk
        cases hk
      · rintro k ⟨⟩
        exact ⟨ht, fun hsec => absurd hsec.1 (Nat.lt_irrefl 0)⟩
    | advance w env => exact orderly_advance hs ht hu
    | loopEnds =>
      obtain ⟨c, hc, rfl⟩ := Option.map_eq_some_iff.1 hu
      obtain ⟨found, hth, rfl⟩ := Core.loopEnds_some hc
      exact hs.same_actions (loopEnded_quieter hth) rfl
  | other a =>
    rw [step] at h
    split at h
    · cases h
    · rename_i hin
      obtain ⟨u, hu, rfl⟩ := Option.map_eq_some_iff.1 h
      rcases other_cases hin hu with ⟨c, hc, rfl⟩ | ⟨found, hth, rfl⟩ | ⟨k, rfl, rfl⟩ |
        ⟨env, i, e, a', p, c, rfl, he, ha, hc, rfl⟩
      · exact hs.same_actions hc.quieter hc.taskActive
      · exact hs.same_actions (loopEnded_quieter hth) rfl
      · exact orderly_began hs ht
      · have hp : e.InProgress := (List.getElem?_eq_some_iff.1 ha).1
        have hstarted := (hs.progress e (List.mem_of_getElem? he) hp).started
        exact orderly_advanced hs he hp (exec_undoes hstarted ha hc)

/-- An action whose test is not the active one finds nothing left to undo. -/
theorem spares_advanced {i : ℕ} {e : Completion} {c : Core R} (h : Orderly s)
    (he : s.actions[i]? = some e) (hp : e.InProgress) (hu : Undoes e.done s.core c)
    (hstale : e.began = false → (s.core.records.activeRecord = "" ∧ s.core.mode = .none) ∨
      (∀ e' ∈ s.actions, e'.began = true → e'.InProgress → e.done < e'.done) ∧
        ∀ w k, s.workers w = some k → k.Stopping → e.done < k.done) :
    SameView s.core c ∨ e.Live s.core := by
  have hmem := List.mem_of_getElem? he
  have hprog := h.progress e hmem hp
  cases hb : e.began with
  | true =>
    have hserial := hprog.serial hb
    obtain ⟨hd, rfl⟩ | ⟨hd, rfl⟩ | ⟨hd, -⟩ | ⟨hd, -⟩ := hu
    · rcases hprog.begun hb with ht | ⟨ht, hact⟩
      · exact .inl ⟨rfl, ht.symm, rfl, rfl, rfl⟩
      · exact .inr ⟨hb, hserial, fun _ => ht, fun _ => hact⟩
    · cases hact : s.core.status.taskActive with
      | false => exact .inl ⟨rfl, rfl, hact.symm, rfl, rfl⟩
      | true => exact .inr ⟨hb, hserial, by omega, fun _ => hact⟩
    · exact .inr ⟨hb, hserial, by omega, by omega⟩
    · exact .inr ⟨hb, hserial, by omega, by omega⟩
  | false =>
    have hidle : s.core.status.taskActive = false := hprog.idle hb
    have hrest := h.resting hidle (h.no_start hmem hp)
    left
    obtain ⟨hd, rfl⟩ | ⟨hd, rfl⟩ | ⟨hd, rfl⟩ | ⟨hd, rfl⟩ := hu
    · exact ⟨rfl, hrest.task.symm, rfl, rfl, rfl⟩
    · exact ⟨rfl, rfl, hidle.symm, rfl, rfl⟩
    · have hrecord : s.core.records.activeRecord = "" := by
        rcases hstale hb with hr | ⟨hahead, hahead'⟩
        · exact hr.1
        · rcases hrest.record with hr | ⟨x, hx, hxb, hxp⟩ | ⟨w, k, hw, hk⟩
          · exact hr.1
          · have hx4 := hahead x hx hxb hxp
            exact (h.progress x hx hxp).undone.activeRecord (by omega)
          · have hk4 := hahead' w k hw hk
            exact (h.stops w k hw hk).activeRecord (by omega)
      exact ⟨rfl, rfl, rfl, rfl, hrecord.symm⟩
    · have hmode : s.core.mode = .none := by
        rcases hstale hb with hr | ⟨hahead, hahead'⟩
        · exact hr.2
        · rcases hrest.record with hr | ⟨x, hx, hxb, hxp⟩ | ⟨w, k, hw, hk⟩
          · exact hr.2
          · have hx4 := hahead x hx hxb hxp
            have hx5 : x.done < 5 := hxp
            omega
          · have hk4 := hahead' w k hw hk
            have hk5 : k.done < k.call.sectionEnd := hk.2.2
            rw [hk.1.sectionEnd] at hk5
            omega
      refine ⟨setMode_preprocess _ _, setMode_task _ _, setMode_taskActive _ _, ?_, ?_⟩
      · rw [setMode_mode .none _ (by simp), hmode]
      · rw [setMode_records]

theorem spares_of_orderly [Double R] {a : TaskAction R} (hs : Orderly s) (ht : Timely s a) :
    Spares s a := by
  cases a with
  | handler a => trivial
  | other a =>
    cases a with
    | completionBegins k =>
      intro t h
      obtain ⟨hfree, ht⟩ := ht
      rw [step, if_neg (show ¬ (ApiAction.completionBegins (R := R) k).InSteps from id)] at h
      obtain ⟨u, hu, rfl⟩ := Option.map_eq_some_iff.1 h
      rw [ApiSystem.step] at hu
      split at hu
      · cases hu
        rcases ht with ht | ⟨hidle, hmode⟩
        · exact .inr ht
        · have hr := hs.resting hidle hfree
          have hsame := stopPreprocess_of_stilled (c := { s.core with
            completions := s.core.completions.erase k }) ⟨hr.still.running, hr.still.thread⟩ hmode
          exact .inl ⟨hsame, rfl, rfl, rfl, rfl⟩
      · cases hu
    | completionStep env i =>
      intro t e he h
      rw [step, if_neg (show ¬ (ApiAction.completionStep env i).InSteps from id)] at h
      obtain ⟨u, hu, rfl⟩ := Option.map_eq_some_iff.1 h
      obtain ⟨e', a, p, c, he', ha, hc, rfl⟩ := ApiSystem.completionStep_some hu
      obtain rfl : e' = e := Option.some.inj (he'.symm.trans he)
      have hp : e'.InProgress := (List.getElem?_eq_some_iff.1 ha).1
      have hstarted := (hs.progress e' (List.mem_of_getElem? he) hp).started
      exact spares_advanced hs he hp (exec_undoes hstarted ha hc) (ht e' he)
    | _ => trivial

/-- From a program at rest, completion actions that come in time spare every later task. -/
theorem completions_spare_tasks [Double R] {c : Core R} (hc : AtRest c) {as : List (TaskAction R)}
    (h : Along step Timely { handlers := { core := c } } as) :
    Along step Spares { handlers := { core := c } } as :=
  along_of_invariant (fun _ _ _ hs ht hstep => orderly_step hs ht hstep)
    (fun _ _ hs ht => spares_of_orderly hs ht) (orderly_init hc) h

/-- One worker handles the requests, and a completion action begins with its test active. -/
def Solo (w : ℕ) (s : TaskSystem R) : TaskAction R → Prop
  | .handler (.begin v call) => v = w ∧ match call with
    | .start _ => s.actions = []
    | .setMode _ => False
    | _ => True
  | .handler (.advance v _) => v = w
  | .other (.completionBegins k) =>
    TestActive k s.core ∧ (s.workers w).all fun k' => ¬ k'.call.IsStart
  | .other (.completionStep _ _) | .other .loopEnds => True
  | _ => False

instance (w : ℕ) (s : TaskSystem R) : (a : TaskAction R) → Decidable (Solo w s a)
  | .handler (.begin _ (.start _)) => inferInstanceAs (Decidable (_ ∧ s.actions = []))
  | .handler (.begin _ (.setMode _)) => inferInstanceAs (Decidable (_ ∧ False))
  | .handler (.begin _ .stopInspection) | .handler (.begin _ .stopAiTest) =>
    inferInstanceAs (Decidable (_ ∧ True))
  | .handler (.advance _ _) => inferInstanceAs (Decidable (_ = _))
  | .other (.completionBegins _) => inferInstanceAs (Decidable (_ ∧ _ = true))
  | .other (.completionStep _ _) | .other .loopEnds => .isTrue trivial
  | .handler .loopEnds | .other (.request ..) | .other (.publishPair ..) |
    .other (.publishFile ..) | .other (.insertPending ..) | .other (.aiResult ..) |
    .other .reconnected => .isFalse id

/-- The other workers are free, and beside a completion action no start is handled. -/
structure Lone (w : ℕ) (s : TaskSystem R) : Prop where
  others : ∀ v, v ≠ w → s.workers v = none
  began : ∀ e ∈ s.actions, e.began = true
  starts : ∀ k, s.workers w = some k → k.call.IsStart → s.actions = []

theorem lone_step [Double R] {t : TaskSystem R} {a : TaskAction R} (h : Lone w s)
    (ha : Solo w s a) (ht : s.step a = some t) : Lone w t := by
  have hkept {c : Core R} {o : Option Worker} {n : ℕ}
      (hnew : ∀ k, o = some k → k.call.IsStart → s.actions = []) :
      Lone w (s.withWorker w c o n) :=
    ⟨fun v hv => (withWorker_other hv).trans (h.others v hv), h.began,
      fun k hk => hnew k (withWorker_self.symm.trans hk)⟩
  cases a with
  | handler a =>
    obtain ⟨u, hu, rfl⟩ := Option.map_eq_some_iff.1 ht
    cases a with
    | begin v call =>
      obtain ⟨rfl, hcall⟩ := ha
      rw [HandlerSystem.step] at hu
      split at hu <;> cases hu
      refine hkept (o := some { call }) ?_
      rintro k ⟨⟩ hs
      cases call with
      | start q => exact hcall
      | _ => exact absurd hs id
    | advance v env =>
      obtain rfl : v = w := ha
      obtain ⟨k, a, hk, -, ⟨p, c, -, rfl⟩ | ⟨c, rfl, -⟩⟩ := HandlerSystem.advance_some hu
      · refine hkept fun k' ho hs => h.starts k hk ?_
        rwa [(Worker.next_done ho).1] at hs
      · refine hkept ?_
        intro k' ho
        cases ho
    | loopEnds => exact absurd ha id
  | other a =>
    rw [step] at ht
    split at ht
    · cases ht
    · rename_i hin
      obtain ⟨u, hu, rfl⟩ := Option.map_eq_some_iff.1 ht
      rcases other_cases hin hu with ⟨c, -, rfl⟩ | ⟨found, -, rfl⟩ | ⟨k, rfl, rfl⟩ |
        ⟨env, i, e, a', p, c, rfl, he, -, -, rfl⟩
      · exact ⟨h.others, h.began, h.starts⟩
      · exact ⟨h.others, h.began, h.starts⟩
      · refine ⟨h.others, ?_, ?_⟩
        · intro e he
          rcases List.mem_append.1 he with he | he
          · exact h.began e he
          · rw [List.mem_singleton.1 he]
            exact decide_eq_true ha.1
        · intro k' hk' hs
          have hall : (s.workers w).all (fun k' => ¬ k'.call.IsStart) = true := ha.2
          rw [show s.workers w = some k' from hk'] at hall
          exact absurd hs (of_decide_eq_true hall)
      · refine ⟨h.others, ?_, ?_⟩
        · intro x hx
          rcases List.mem_or_eq_of_mem_set hx with hx | rfl
          · exact h.began x hx
          · exact h.began e (List.mem_of_getElem? he)
        · intro k hk hs
          rw [show s.actions = [] from h.starts k hk hs] at he
          cases he

theorem timely_of_solo [Double R] {as : List (TaskAction R)} (h : Lone w s)
    (ha : Along step (Solo w) s as) : Along step Timely s as := by
  refine along_of_invariant (fun _ _ _ => lone_step) ?_ h ha
  intro s a hs ha
  have hnone {v : ℕ} {k : Worker} (hv : v ≠ w) (hk : s.workers v = some k) : False := by
    rw [hs.others v hv] at hk
    cases hk
  cases a with
  | handler a =>
    cases a with
    | begin v call =>
      rintro m rfl
      exact ha.2
    | advance v env =>
      obtain rfl : v = w := ha
      intro k hk _
      refine ⟨fun u k' hu hk' => (hnone hu hk').elim, ?_⟩
      intro hstart e he
      rw [hs.starts k hk hstart] at he
      cases he
    | loopEnds => trivial
  | other a =>
    cases a with
    | completionBegins k =>
      refine ⟨?_, .inl ha.1⟩
      intro v k' hv hstart
      by_cases hvw : v = w
      · subst hvw
        have hall : (s.workers v).all (fun k' => ¬ k'.call.IsStart) = true := ha.2
        rw [hv] at hall
        exact of_decide_eq_true hall hstart.1
      · exact hnone hvw hv
    | completionStep env i =>
      intro e he hb
      rw [hs.began e (List.mem_of_getElem? he)] at hb
      cases hb
    | _ => trivial

end TaskSystem

def handledBy (w : ℕ) (call : HandlerCall) (n : ℕ) : List (TaskAction ℤ) :=
  .handler (.begin w call) :: List.replicate n (.handler (.advance w (plainEnv [])))

def testHandled : List (TaskAction ℤ) := handledBy 0 (.start (.aiTest ⟨"frames", "", ""⟩)) 7

def completesBy (i n : ℕ) : List (TaskAction ℤ) :=
  List.replicate n (.other (.completionStep (plainEnv []) i))

def completedTest : List (TaskAction ℤ) :=
  testHandled ++ .other .loopEnds :: .other (.completionBegins 1) :: completesBy 0 1 ++
    handledBy 0 .stopAiTest 5 ++ completesBy 0 3

theorem completions_spare_tasks_completed :
    (run TaskSystem.step { handlers := { core := bootCore } } completedTest).isSome ∧
      Along TaskSystem.step TaskSystem.Spares { handlers := { core := bootCore } }
        completedTest := by
  refine ⟨rfl, TaskSystem.completions_spare_tasks bootCore_atRest ?_⟩
  exact TaskSystem.timely_of_solo (w := 0)
    ⟨fun _ _ => rfl, List.forall_mem_nil _, fun _ hk => nomatch hk⟩ (by decide)

def stoppedTest : List (TaskAction ℤ) :=
  testHandled ++ .other .loopEnds :: handledBy 0 .stopAiTest 5 ++
    handledBy 0 (.start (.inspection ⟨"S", "E", "T1"⟩)) 12

def checkedStart : List (TaskAction ℤ) :=
  testHandled ++ .other .loopEnds :: handledBy 0 .stopAiTest 5 ++
    handledBy 0 (.start (.inspection ⟨"S", "E", "T1"⟩)) 1 ++ [.other (.completionBegins 1)] ++
    List.replicate 11 (.handler (.advance 0 (plainEnv []))) ++ completesBy 0 1

/-- A completion halts the inspection started behind its test, or ends its task. -/
theorem stale_completion_counterexample :
    (∃ s t, run TaskSystem.step { handlers := { core := bootCore } } stoppedTest = some s ∧
      s.core.task.type = .inspection ∧ s.core.preprocess.running = true ∧
      s.step (.other (.completionBegins 1)) = some t ∧ t.core.preprocess.running = false ∧
      ¬ TaskSystem.Spares s (.other (.completionBegins 1))) ∧
    ∃ s t, run TaskSystem.step { handlers := { core := bootCore } } checkedStart = some s ∧
      s.core.preprocess.running = true ∧ s.core.status.taskActive = true ∧
      s.step (.other (.completionStep (plainEnv []) 0)) = some t ∧
      t.core.status.taskActive = false ∧
      ¬ TaskSystem.Spares s (.other (.completionStep (plainEnv []) 0)) := by
  refine ⟨⟨_, _, rfl, rfl, rfl, rfl, rfl, ?_⟩, _, _, rfl, rfl, rfl, rfl, rfl, ?_⟩
  · intro h
    rcases h _ rfl with h | h
    · exact absurd (congrArg PreprocessModule.running h.preprocess) (by decide)
    · exact absurd h (by decide)
  · intro h
    rcases h _ _ rfl rfl with h | h
    · exact absurd h.taskActive (by decide)
    · exact absurd h.began (by decide)

end EcidsCore
