import EcidsCore.GuardedRuns
import EcidsCore.RequestSpecs

set_option autoImplicit false

/-! The program under a sequence of requests, AI responses, capture steps and delayed
completion actions. A request is handled as a whole; a completion action runs on a
thread of its own, so other actions can come between its steps. It begins with the
first of them. -/
namespace EcidsCore
open ByteText GuardedRuns

variable {R : Type}

def Writes.append (w v : Writes) : Writes where
  enqueued := w.enqueued ++ v.enqueued
  saved := w.saved ++ v.saved

namespace Core

def chainContext (c : Core R) : ChainContext R where
  mode := c.mode
  activeRecord := c.records.activeRecord
  stationId := c.task.inspection.stationId
  escalatorId := c.task.inspection.escalatorId
  post := c.post

def measured [Double R] (sub : InspectionSubTask) (wd : R) (c : Core R) : Core R :=
  if sub = .installation ∧ 0 < wd then
    { c with
      installationWdSum := c.installationWdSum + wd
      installationWdCount := c.installationWdCount + 1 }
  else c

def loopEnded (found : Bool) (c : Core R) : Core R :=
  { c with preprocess := c.preprocess.loopEnds,
           completions := if found then c.completions ++ [c.loopSerial] else c.completions }

/-- The loop of an AI test ends of its own. -/
def loopEnds (c : Core R) : Option (Core R) :=
  match c.preprocess.thread with
  | some ⟨.aiTest found, true⟩ => some (c.loopEnded found)
  | _ => none

theorem loopEnds_some {c c' : Core R} (h : c.loopEnds = some c') :
    ∃ found, c.preprocess.thread = some ⟨.aiTest found, true⟩ ∧ c' = c.loopEnded found := by
  unfold loopEnds at h
  split at h
  · cases h
    exact ⟨_, ‹_›, rfl⟩
  · cases h

def respond [Double R] (lib : Nlohmann R) (vis : Vision R) (now : ℕ) (resp : DetectionResponse R)
    (c : Core R) : Core R × Writes :=
  let handled := c.preprocess.onAiResult lib now resp
  let c := { c with preprocess := handled.1 }
  match handled.2.callback with
  | none => (c, handled.2.writes)
  | some a =>
    let called := resultCallback lib vis c.chainContext a
    ({ c with post := called.1 }.measured a.subTask called.2.1.workingDistanceMm,
      handled.2.writes.append called.2.2)

end Core

/-- The task is as before, and so is what the preprocess module does for it. -/
structure Undisturbed (c c' : Core R) : Prop where
  taskActive : c'.status.taskActive = c.status.taskActive
  task : c'.task = c.task
  serial : c'.serial = c.serial
  mode : c'.mode = c.mode
  records : c'.records = c.records
  running : c'.preprocess.running = c.preprocess.running
  aiTestMode : c'.preprocess.aiTestMode = c.preprocess.aiTestMode
  recordPath : c'.preprocess.activeRecordPath = c.preprocess.activeRecordPath
  thread : c'.preprocess.thread = c.preprocess.thread

theorem Undisturbed.refl (c : Core R) : Undisturbed c c :=
  ⟨rfl, rfl, rfl, rfl, rfl, rfl, rfl, rfl, rfl⟩

theorem Core.respond_undisturbed [Double R] (lib : Nlohmann R) (vis : Vision R) (now : ℕ)
    (resp : DetectionResponse R) (c : Core R) :
    Undisturbed c (c.respond lib vis now resp).1 := by
  obtain ⟨rest, hrest⟩ := PreprocessModule.onAiResult_module lib now resp c.preprocess
  dsimp only [respond]
  rw [hrest]
  split
  · exact ⟨rfl, rfl, rfl, rfl, rfl, rfl, rfl, rfl, rfl⟩
  · unfold measured
    split <;> exact ⟨rfl, rfl, rfl, rfl, rfl, rfl, rfl, rfl, rfl⟩

/-- A completion action that has begun: the AI test that scheduled it, whether that test
was the active task then, and how many of the action's steps are done. -/
structure Completion where
  test : ℕ
  began : Bool
  done : ℕ := 1
deriving DecidableEq, Repr

structure ApiSystem (R : Type) where
  core : Core R
  actions : List Completion := []

inductive ApiAction (R : Type) where
  | request (env : Env R) (method path body : Bytes)
  | publishPair (img : Imaging R) (ts : String) (left right : DataBundle) (wd : R)
  | publishFile (img : Imaging R) (ts leftPath rightPath : String)
  | insertPending (now : ℕ) (p : PairInFlight R)
  | aiResult (env : Env R) (vis : Vision R) (now : ℕ) (resp : DetectionResponse R)
  | reconnected
  | loopEnds
  | completionBegins (test : ℕ)
  | completionStep (env : Env R) (i : ℕ)

namespace ApiSystem

/-- The AI test number `k` is the active task. -/
def TestActive (k : ℕ) (c : Core R) : Prop :=
  c.status.taskActive = true ∧ c.task.type = .aiTest ∧ c.serial = k

instance (k : ℕ) (c : Core R) : Decidable (TestActive k c) :=
  inferInstanceAs (Decidable (_ ∧ _ ∧ _))

def onPreprocess (m : PreprocessModule R) (s : ApiSystem R) : ApiSystem R :=
  { s with core := { s.core with preprocess := m } }

/-- A request is handled whole, in one step. One that is not answered ends the run, and so does
an escaped exception. -/
def step [Double R] (s : ApiSystem R) : ApiAction R → Option (ApiSystem R)
  | .request env method path body =>
    match handle env method path body s.core with
    | (.reply _, c) => some { s with core := c }
    | _ => none
  | .publishPair img ts left right wd =>
    (s.core.preprocess.publishPair img ts left right wd).map fun x => s.onPreprocess x.1
  | .publishFile img ts leftPath rightPath =>
    some (s.onPreprocess (s.core.preprocess.publishFile img ts leftPath rightPath).1)
  | .insertPending now p => some (s.onPreprocess (s.core.preprocess.insertPending now p))
  | .aiResult env vis now resp => some { s with core := (s.core.respond env.lib vis now resp).1 }
  | .reconnected => some (s.onPreprocess s.core.preprocess.clearPending)
  | .loopEnds => s.core.loopEnds.map fun c => { s with core := c }
  | .completionBegins k =>
    if k ∈ s.core.completions then
      let c := { s.core with completions := s.core.completions.erase k }
      some { core := c.stopPreprocess PreprocessModule.finishAiTest
             actions := s.actions ++ [{ test := k, began := TestActive k s.core }] }
    else none
  | .completionStep env i =>
    match s.actions[i]? with
    | none => none
    | some e =>
      match completionSteps[e.done]? with
      | none => none
      | some a =>
        match exec env "" s.core a with
        | .next _ c => some { core := c, actions := s.actions.set i { e with done := e.done + 1 } }
        | _ => none

inductive Stepped [Double R] (s : ApiSystem R) : ApiAction R → ApiSystem R → Prop
  | started {env : Env R} {method path body : Bytes} {q : StartRequest}
      (hq : startOf env.lib method path body = some q) (ha : s.core.status.taskActive = false) :
      Stepped s (.request env method path body)
        { s with core := (q.outcome env (q.begun s.core)).core }
  | stopped {env : Env R} {method path body : Bytes} (hr : (route method path).IsStop) :
      Stepped s (.request env method path body)
        { s with core := if route method path = .stopInspection then s.core.stoppedInspection
            else s.core.stoppedAiTest }
  | modeSet {env : Env R} {method path body : Bytes} {m : Mode} (hr : route method path = .setMode)
      (ha : s.core.status.taskActive = false) :
      Stepped s (.request env method path body) { s with core := (s.core.setMode m).2 }
  | undisturbed {a : ApiAction R} {c : Core R} (h : Undisturbed s.core c) :
      Stepped s a { s with core := c }
  | loopEnded {found : Bool} (h : s.core.preprocess.thread = some ⟨.aiTest found, true⟩) :
      Stepped s .loopEnds { s with core := s.core.loopEnded found }
  | began {k : ℕ} (h : k ∈ s.core.completions) :
      Stepped s (.completionBegins k)
        { core := Core.stopPreprocess PreprocessModule.finishAiTest
            { s.core with completions := s.core.completions.erase k }
          actions := s.actions ++ [{ test := k, began := TestActive k s.core }] }
  | advanced {env : Env R} {i : ℕ} {e : Completion} {a : ApiStep} {p : String} {c : Core R}
      (he : s.actions[i]? = some e) (ha : completionSteps[e.done]? = some a)
      (hc : exec env "" s.core a = .next p c) :
      Stepped s (.completionStep env i)
        { core := c, actions := s.actions.set i { e with done := e.done + 1 } }

theorem completionStep_some [Double R] {s t : ApiSystem R} {env : Env R} {i : ℕ}
    (h : s.step (.completionStep env i) = some t) :
    ∃ e a p c, s.actions[i]? = some e ∧ completionSteps[e.done]? = some a ∧
      exec env "" s.core a = .next p c ∧
      t = { core := c, actions := s.actions.set i { e with done := e.done + 1 } } := by
  rw [step] at h
  split at h
  · cases h
  · split at h
    · cases h
    · split at h
      · cases h
        exact ⟨_, _, _, _, ‹_›, ‹_›, ‹_›, rfl⟩
      · cases h

theorem request_some [Double R] {s t : ApiSystem R} {env : Env R} {method path body : Bytes}
    (h : s.step (.request env method path body) = some t) :
    t = { s with core := (handle env method path body s.core).2 } := by
  rw [step] at h
  split at h
  · rename_i hhandle
    cases h
    rw [hhandle]
  · cases h

theorem stepped [Double R] {s t : ApiSystem R} {a : ApiAction R} (h : s.step a = some t) :
    Stepped s a t := by
  cases a with
  | request env method path body =>
    obtain rfl := request_some h
    by_cases hstart : (route method path).IsStart
    · by_cases hq : ∃ q, startOf env.lib method path body = some q ∧
          s.core.status.taskActive = false
      · obtain ⟨q, hq, ha⟩ := hq
        rw [handle_start hq, finish_core, runSteps_start env q ha]
        exact .started hq ha
      · rw [handle_start_rejected hstart fun q hsome => by simpa [hsome] using hq]
        exact .undisturbed (.refl _)
    · by_cases hstop : (route method path).IsStop
      · rw [handle_stop _ _ _ hstop]
        exact .stopped hstop
      · rcases handle_other env body s.core hstart hstop with
          ⟨_, _, _, _, _, hsame⟩ | ⟨hr, ha, m, hset⟩
        · rw [hsame]
          exact .undisturbed ⟨rfl, rfl, rfl, rfl, rfl, rfl, rfl, rfl, rfl⟩
        · rw [hset]
          exact .modeSet hr ha
  | publishPair img ts left right wd =>
    obtain ⟨x, hx, rfl⟩ := Option.map_eq_some_iff.1 h
    dsimp only [PreprocessModule.publishPair] at hx
    split at hx <;> cases hx
    exact .undisturbed ⟨rfl, rfl, rfl, rfl, rfl, rfl, rfl, rfl, rfl⟩
  | publishFile img ts leftPath rightPath =>
    cases h
    exact .undisturbed ⟨rfl, rfl, rfl, rfl, rfl, rfl, rfl, rfl, rfl⟩
  | insertPending now p =>
    cases h
    exact .undisturbed ⟨rfl, rfl, rfl, rfl, rfl, rfl, rfl, rfl, rfl⟩
  | aiResult env vis now resp =>
    cases h
    exact .undisturbed (Core.respond_undisturbed env.lib vis now resp s.core)
  | reconnected =>
    cases h
    exact .undisturbed ⟨rfl, rfl, rfl, rfl, rfl, rfl, rfl, rfl, rfl⟩
  | loopEnds =>
    obtain ⟨c, hc, rfl⟩ := Option.map_eq_some_iff.1 h
    obtain ⟨found, hth, rfl⟩ := Core.loopEnds_some hc
    exact .loopEnded hth
  | completionBegins k =>
    rw [step] at h
    split at h
    · cases h
      exact .began ‹_›
    · cases h
  | completionStep env i =>
    obtain ⟨e, a, p, c, he, ha, hc, rfl⟩ := completionStep_some h
    exact .advanced he ha hc

end ApiSystem

def startTest : ApiAction ℤ :=
  .request (plainEnv testTable) (bytes "POST") (bytes "/StartAITest") testBody

def startLift : ApiAction ℤ :=
  .request (plainEnv stationTable) (bytes "POST") (bytes "/StartInspection") stationBody

def stopBy (path : String) : ApiAction ℤ := .request (plainEnv []) (bytes "POST") (bytes path) []

end EcidsCore
