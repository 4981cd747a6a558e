import EcidsCore.DataBuffer

set_option autoImplicit false

/-! Which frames and depth maps an inspection works on, over all interleavings of
arrivals with the calls that start and stop a task. -/
namespace EcidsCore
open GuardedRuns PreprocessModule

variable {R : Type}

/-- Frames and depth maps are numbered in the order in which they were received. -/
structure Stamped where
  arrival : ℕ
  bundle : DataBundle
deriving DecidableEq, Repr

def carriesFrames (channel : String) : Bool :=
  channel = "stereo_image" ∨ channel = "visual_geometric_2d"

def carriesDepth (channel : String) : Bool :=
  channel = "depth_map" ∨ channel = "visual_geometric_2d"

inductive CallbackStage where
  | pauseCheck
  | enqueue
  | depth
deriving DecidableEq, Repr

/-- A call of the subscriber callback, under the part's id or the name of the channel. -/
structure Callback where
  thread : ℕ
  channel : String
  item : Stamped
  stage : CallbackStage
deriving DecidableEq, Repr

/-- Where the loop is in its body: before the test of `running_`, before the dequeue,
before it reads the sub-task, before it reads the depth map. -/
inductive CaptureStage where
  | waits
  | entered
  | holds (frame : Stamped)
  | passes (frame : Stamped) (sub : InspectionSubTask)
deriving DecidableEq, Repr

def CaptureStage.frame : CaptureStage → Option Stamped
  | .waits | .entered => none
  | .holds f | .passes f _ => some f

/-- The last three fields record the arrivals, the number of them before the last start
of an inspection, and whether a depth map was stored after it. -/
structure CaptureSystem (R : Type) where
  module : PreprocessModule R
  buffer : DataBuffer Stamped := {}
  paused : Bool := true
  callbacks : List Callback := []
  loop : CaptureStage := .waits
  arrivals : ℕ := 0
  startedAt : ℕ := 0
  depthSinceStart : Bool := false

inductive CaptureAction where
  | receive (thread : ℕ) (channel : String) (bundle : DataBundle)
  | callback (i : ℕ)
  | setPaused (b : Bool)
  | setSubTask (st : InspectionSubTask)
  | startInspection (path : String)
  | startAiTest (testDataPath path : String) (found : Bool)
  | halt
  | loopEnds
  | stopInspection
  | stopAiTest
  | enterLoop
  | dequeue
  | readSubTask (rateOk : Bool)
  | process (ts : String) (now : ℕ)

namespace CaptureSystem

def joined (s : CaptureSystem R) (m : PreprocessModule R) : Option (PreprocessModule R) :=
  if s.loop = .waits then m.join.map Prod.fst else none

def inspecting (s : CaptureSystem R) : Prop := s.module.thread = some { kind := .inspection }

instance (s : CaptureSystem R) : Decidable s.inspecting := inferInstanceAs (Decidable (_ = _))

def depth (s : CaptureSystem R) : Option Stamped :=
  match s.loop with
  | .passes _ sub => usedDepth Stamped.bundle sub s.buffer
  | _ => none

/-- `process_pair_` of a frame, both of its steps at once. -/
def processPair (img : Imaging R) [Zero R] (s : CaptureSystem R) (ts : String) (now : ℕ)
    (frame : Stamped) : PreprocessModule R :=
  let (left, right) := splitFrame frame.bundle
  let wd := match s.depth with
    | none => 0
    | some d => img.workingDistance d.bundle.data
  match s.module.publishPair img ts left right wd with
  | none => s.module
  | some (m, pub) => m.insertPending now pub.pair

/-- One locked call of the subscriber callback at the `i`-th place. -/
def callbackStep (s : CaptureSystem R) (i : ℕ) (c : Callback) : CaptureSystem R :=
  match c.stage with
  | .pauseCheck =>
    { s with callbacks :=
        s.callbacks.set i { c with stage := if s.paused then .depth else .enqueue } }
  | .enqueue =>
    { s with buffer := s.buffer.enqueueInspection c.item,
             callbacks := s.callbacks.set i { c with stage := .depth } }
  | .depth =>
    if carriesDepth c.channel then
      { s with buffer := s.buffer.enqueueDepth c.item, depthSinceStart := true,
               callbacks := s.callbacks.eraseIdx i }
    else { s with callbacks := s.callbacks.eraseIdx i }

/-- A subscriber thread receives again when its callback has returned. -/
def step [Zero R] (img : Imaging R) (s : CaptureSystem R) :
    CaptureAction → Option (CaptureSystem R)
  | .receive thread channel bundle =>
    if s.callbacks.any (·.thread = thread) then none
    else some { s with
      arrivals := s.arrivals + 1,
      callbacks := s.callbacks ++
        [{ thread, channel, item := ⟨s.arrivals, bundle⟩,
           stage := if carriesFrames channel then .pauseCheck else .depth }] }
  | .callback i => s.callbacks[i]?.map (s.callbackStep i)
  | .setPaused b => some { s with paused := b }
  | .setSubTask st => some { s with module := s.module.setSubTask st }
  | .startInspection path =>
    (s.joined s.module).map fun m =>
      { s with module := m.startInspection path true, startedAt := s.arrivals,
               depthSinceStart := false }
  | .startAiTest data path found =>
    (s.joined s.module).map fun m => { s with module := m.startAiTest data path found true }
  | .halt => some { s with module := s.module.halt }
  | .loopEnds =>
    if s.loop = .waits ∧ (s.inspecting → ¬ s.module.running)
    then some { s with module := s.module.loopEnds } else none
  | .stopInspection =>
    (s.joined s.module.halt).map fun m => { s with module := m.finishInspection }
  | .stopAiTest => (s.joined s.module.halt).map fun m => { s with module := m.finishAiTest }
  | .enterLoop =>
    if s.inspecting ∧ s.module.running ∧ s.loop = .waits
    then some { s with loop := .entered } else none
  | .dequeue =>
    if s.loop = .entered then
      match s.buffer.dequeueInspection with
      | none => some { s with loop := .waits }
      | some (f, rest) => some { s with buffer := rest, loop := .holds f }
    else none
  | .readSubTask rateOk =>
    match s.loop with
    | .holds f =>
      if passesFrame s.module.subTask rateOk f.bundle then
        some { s with loop := .passes f s.module.subTask }
      else some { s with loop := .waits }
    | _ => none
  | .process ts now =>
    match s.loop with
    | .passes f _ => some { s with loop := .waits, module := s.processPair img ts now f }
    | _ => none

def Fresh (s : CaptureSystem R) : CaptureAction → Prop
  | .process _ _ => (∀ f, s.loop.frame = some f → s.startedAt ≤ f.arrival) ∧
      ∀ d, s.depth = some d → s.startedAt ≤ d.arrival
  | _ => True

def Callback.StoresOlder (n : ℕ) (c : Callback) : Prop :=
  c.item.arrival < n ∧ (c.stage = .enqueue ∨ c.stage = .depth ∧ carriesDepth c.channel)

instance (n : ℕ) (c : Callback) : Decidable (Callback.StoresOlder n c) :=
  inferInstanceAs (Decidable (_ ∧ _))

/-- An inspection starts with no frame queued, no callback stores what it received before
the last start, and a frame passed on under installation finds no depth map or one has been
stored since the start. -/
def Clear (s : CaptureSystem R) : CaptureAction → Prop
  | .startInspection _ => s.buffer.inspectionQueue = []
  | .callback i => ∀ c ∈ s.callbacks[i]?, ¬ Callback.StoresOlder s.startedAt c
  | .process _ _ => s.depthSinceStart = true ∨ s.depth = none
  | _ => True

instance (s : CaptureSystem R) : (a : CaptureAction) → Decidable (s.Clear a)
  | .startInspection _ => inferInstanceAs (Decidable (_ = _))
  | .callback _ => inferInstanceAs (Decidable (∀ _ ∈ _, _))
  | .process _ _ => inferInstanceAs (Decidable (_ ∨ _))
  | .receive _ _ _ | .setPaused _ | .setSubTask _ | .startAiTest _ _ _ | .halt | .loopEnds
  | .stopInspection | .stopAiTest | .enterLoop | .dequeue | .readSubTask _ => .isTrue trivial

/-- No frame on its way to the loop is older than the last start. -/
structure Fenced (s : CaptureSystem R) : Prop where
  started : s.startedAt ≤ s.arrivals
  queued : ∀ f ∈ s.buffer.inspectionQueue, s.startedAt ≤ f.arrival
  held : ∀ f, s.loop.frame = some f → s.startedAt ≤ f.arrival
  depth : s.depthSinceStart = true → ∃ d, s.buffer.latestDepth = some d ∧ s.startedAt ≤ d.arrival

variable {s t : CaptureSystem R} {a : CaptureAction}

theorem joined_waits {m m' : PreprocessModule R} (h : s.joined m = some m') :
    s.loop = .waits := by
  unfold joined at h
  split at h
  · assumption
  · cases h

theorem fenced_callbackStep {i : ℕ} {c : Callback} (hs : Fenced s)
    (hc : ¬ Callback.StoresOlder s.startedAt c) : Fenced (s.callbackStep i c) := by
  unfold callbackStep
  split
  · exact ⟨hs.started, hs.queued, hs.held, hs.depth⟩
  · rename_i hstage
    refine ⟨hs.started, ?_, hs.held, ?_⟩
    · intro g hg
      rcases DataBuffer.mem_enqueueInspection hg with hg | rfl
      · exact hs.queued g hg
      · by_contra hlt
        exact hc ⟨not_le.1 hlt, .inl hstage⟩
    · rw [DataBuffer.enqueueInspection_latestDepth]
      exact hs.depth
  · rename_i hstage
    split
    · rename_i hdepth
      refine ⟨hs.started, hs.queued, hs.held, fun _ => ⟨c.item, rfl, ?_⟩⟩
      by_contra hlt
      exact hc ⟨not_le.1 hlt, .inr ⟨hstage, hdepth⟩⟩
    · exact ⟨hs.started, hs.queued, hs.held, hs.depth⟩

theorem fenced_step [Zero R] {img : Imaging R} (hs : Fenced s) (hc : Clear s a)
    (h : s.step img a = some t) : Fenced t := by
  cases a <;> simp only [step] at h
  case receive thread channel bundle =>
    split at h
    · cases h
    · cases h
      exact ⟨Nat.le_succ_of_le hs.started, hs.queued, hs.held, hs.depth⟩
  case callback i =>
    obtain ⟨c, hi, rfl⟩ := Option.map_eq_some_iff.1 h
    exact fenced_callbackStep hs (hc c hi)
  case startInspection path =>
    obtain ⟨m, hj, rfl⟩ := Option.map_eq_some_iff.1 h
    have hqueue : s.buffer.inspectionQueue = [] := hc
    refine ⟨le_refl _, ?_, ?_, fun hd => nomatch hd⟩
    · rw [hqueue]
      exact List.forall_mem_nil _
    · rw [joined_waits hj]
      intro f hf
      cases hf
  case startAiTest data path found =>
    obtain ⟨m, -, rfl⟩ := Option.map_eq_some_iff.1 h
    exact ⟨hs.started, hs.queued, hs.held, hs.depth⟩
  case loopEnds =>
    split at h
    · cases h
      exact ⟨hs.started, hs.queued, hs.held, hs.depth⟩
    · cases h
  case stopInspection =>
    obtain ⟨m, -, rfl⟩ := Option.map_eq_some_iff.1 h
    exact ⟨hs.started, hs.queued, hs.held, hs.depth⟩
  case stopAiTest =>
    obtain ⟨m, -, rfl⟩ := Option.map_eq_some_iff.1 h
    exact ⟨hs.started, hs.queued, hs.held, hs.depth⟩
  case enterLoop =>
    split at h
    · cases h
      exact ⟨hs.started, hs.queued, fun f hf => (by cases hf), hs.depth⟩
    · cases h
  case dequeue =>
    split at h
    · split at h
      · cases h
        exact ⟨hs.started, hs.queued, fun f hf => (by cases hf), hs.depth⟩
      · rename_i f rest hd
        cases h
        obtain ⟨hqueue, hdepth⟩ := DataBuffer.dequeueInspection_some hd
        refine ⟨hs.started, ?_, ?_, ?_⟩
        · intro g hg
          exact hs.queued g (hqueue ▸ List.mem_cons_of_mem f hg)
        · intro g hg
          obtain rfl : f = g := Option.some.inj hg
          exact hs.queued f (hqueue ▸ List.mem_cons_self)
        · rw [hdepth]
          exact hs.depth
    · cases h
  case readSubTask rateOk =>
    split at h
    · rename_i f hloop
      split at h
      · cases h
        refine ⟨hs.started, hs.queued, ?_, hs.depth⟩
        intro g hg
        exact hs.held g (hloop ▸ hg)
      · cases h
        exact ⟨hs.started, hs.queued, fun g hg => (by cases hg), hs.depth⟩
    · cases h
  case process ts now =>
    split at h
    · cases h
      exact ⟨hs.started, hs.queued, fun g hg => (by cases hg), hs.depth⟩
    · cases h
  all_goals
    cases h
    exact ⟨hs.started, hs.queued, hs.held, hs.depth⟩

theorem usedDepth_latest {sub : InspectionSubTask} {b : DataBuffer Stamped} {d : Stamped}
    (h : usedDepth Stamped.bundle sub b = some d) : b.latestDepth = some d := by
  unfold usedDepth at h
  split at h
  · exact (Option.filter_eq_some_iff.1 h).1
  · cases h

theorem depth_latest {d : Stamped} (h : s.depth = some d) : s.buffer.latestDepth = some d := by
  unfold depth at h
  split at h
  · exact usedDepth_latest h
  · cases h

theorem fresh_of_fenced (hs : Fenced s) (hc : Clear s a) : Fresh s a := by
  cases a <;> try trivial
  case process ts now =>
    refine ⟨hs.held, ?_⟩
    intro d hd
    rcases hc with hsince | hnone
    · obtain ⟨e, he, hle⟩ := hs.depth hsince
      rw [depth_latest hd] at he
      obtain rfl := Option.some.inj he
      exact hle
    · rw [hd] at hnone
      cases hnone

theorem fenced_init (m : PreprocessModule R) (b : DataBuffer Stamped) :
    Fenced ({ module := m, buffer := b } : CaptureSystem R) where
  started := le_refl _
  queued _ _ := Nat.zero_le _
  held f hf := by cases hf
  depth hd := by cases hd

def captureModule : PreprocessModule ℤ := { aiMode := .binary }

def receiveFrame : List CaptureAction :=
  [.receive 0 "stereo_image" { data := [1] }, .callback 0, .callback 0, .callback 0]

def receiveDepth : List CaptureAction :=
  [.receive 1 "depth_map" { data := [2] }, .callback 0]

/-- The second inspection finds the frame that the first one did not get to. Its sub-task is
changed first, so that no rate is asked for. -/
def frameLeft : List CaptureAction :=
  [.setPaused false, .startInspection "database/a"] ++ receiveFrame ++
    [.halt, .stopInspection, .setPaused true, .setPaused false, .startInspection "database/b",
     .setSubTask .marking, .enterLoop, .dequeue, .readSubTask false]

/-- The frame comes in the first inspection, its thread looks at the flag in the second. -/
def frameLate : List CaptureAction :=
  [.setPaused false, .startInspection "database/a", .receive 0 "stereo_image" { data := [1] },
   .halt, .stopInspection, .setPaused true, .setPaused false, .startInspection "database/b",
   .callback 0, .callback 0, .setSubTask .marking, .enterLoop, .dequeue, .readSubTask false]

def depthLeft : List CaptureAction :=
  [.setPaused false, .startInspection "database/a"] ++ receiveDepth ++
    [.halt, .stopInspection, .setPaused true, .setPaused false, .startInspection "database/b"] ++
    receiveFrame ++ [.enterLoop, .dequeue, .readSubTask true]

def workedOff : List CaptureAction :=
  [.setPaused false, .startInspection "database/a"] ++ receiveDepth ++ receiveFrame ++
    [.enterLoop, .dequeue, .readSubTask true, .process "20260702-101500-250" 0, .halt,
     .stopInspection, .startInspection "database/b"] ++ receiveDepth ++ receiveFrame ++
    [.enterLoop, .dequeue, .readSubTask true, .process "20260702-101501-250" 0]

end CaptureSystem

end EcidsCore
