import EcidsCore.DataBuffer
import EcidsCore.StoredImages
import Mathlib.Algebra.Order.Group.Basic
import Mathlib.Algebra.Order.Group.Nat
import Mathlib.Data.List.Pairwise

set_option autoImplicit false

/-! The loop of the inspection thread, from the queue of frames to the requests to the AI
node, over all interleavings with the subscriber threads, the dealer thread and the calls
that start and stop a task. -/

/-- Each time is at least `d` behind every earlier one. -/
def Spaced {G : Type*} [Add G] [LE G] (d : G) (l : List G) : Prop :=
  l.Pairwise fun a b => a + d ≤ b

namespace Spaced
variable {G : Type*} [AddCommGroup G] [LinearOrder G] [IsOrderedAddMonoid G] {d a b t : G}
  {l w : List G}

omit [LinearOrder G] [IsOrderedAddMonoid G] in
theorem nil [LE G] : Spaced d ([] : List G) := List.Pairwise.nil

omit [LinearOrder G] [IsOrderedAddMonoid G] in
theorem of_sublist [LE G] (h : Spaced d l) (hw : w.Sublist l) : Spaced d w :=
  List.Pairwise.sublist hw h

theorem append_one {m : G} (h : Spaced d l) (hm : ∀ x ∈ l, x ≤ m) (ht : m + d ≤ t) :
    Spaced d (l ++ [t]) := by
  apply List.pairwise_append.2
  refine ⟨h, List.pairwise_singleton _ t, ?_⟩
  intro x hx y hy
  rw [List.mem_singleton.1 hy]
  exact (add_le_add_left (hm x hx) d).trans ht

theorem span_cons (h : Spaced d (a :: l)) (hb : ∀ x ∈ a :: l, x ≤ b) :
    a + l.length • d ≤ b := by
  induction l generalizing a with
  | nil => simpa using hb a List.mem_cons_self
  | cons c l ih =>
    have hfirst : a + d ≤ c := (List.pairwise_cons.1 h).1 c List.mem_cons_self
    have hrest : c + l.length • d ≤ b :=
      ih (List.pairwise_cons.1 h).2 fun x hx => hb x (List.mem_cons_of_mem a hx)
    calc a + (l.length + 1) • d = a + d + l.length • d := by
          rw [succ_nsmul', add_assoc]
      _ ≤ c + l.length • d := add_le_add_left hfirst _
      _ ≤ b := hrest

theorem window (h : Spaced d l) (hw : w.Sublist l) (hin : ∀ x ∈ w, a ≤ x ∧ x ≤ b)
    (hne : w ≠ []) : (w.length - 1) • d ≤ b - a := by
  cases w with
  | nil => exact absurd rfl hne
  | cons c w =>
    have hspan := (h.of_sublist hw).span_cons fun x hx => (hin x hx).2
    have hfirst : a ≤ c := (hin c List.mem_cons_self).1
    rw [List.length_cons, Nat.add_sub_cancel, le_sub_iff_add_le']
    exact (add_le_add_left hfirst _).trans hspan

end Spaced

namespace EcidsCore
open GuardedRuns PreprocessModule

variable {R : Type}

/-- Where the inspection thread stands: before `while (running_)`, in `dequeue_inspection`,
with a frame, behind the throttle, and before `process_pair_`. -/
inductive LoopStage (R : Type) where
  | head
  | waiting
  | holding (frame : DataBundle)
  | passed (frame : DataBundle) (sub : InspectionSubTask) (time : ℕ)
  | measured (frame : DataBundle) (sub : InspectionSubTask) (time : ℕ) (workingDistanceMm : R)

/-- A frame that was sent on; `sub` and `time` are what the throttle read. -/
structure SentFrame (R : Type) where
  frame : DataBundle
  sub : InspectionSubTask
  time : ℕ
  pair : PairInFlight R
  request : Option AiRequest

/-- What the loop did with a frame; an early one with the times that the throttle compared. -/
inductive FrameFate (R : Type) where
  | empty (frame : DataBundle)
  | early (frame : DataBundle) (last now : ℕ)
  | sent (e : SentFrame R)

/-- `lastAiSend` is set once the loop is entered. The last five fields record what was given
to the buffer, what the loop took of it, when it was entered and what it did. -/
structure InspectionLoop (R : Type) where
  system : PendingSystem R
  buffer : DataBuffer DataBundle := {}
  stage : LoopStage R := .head
  lastAiSend : Option ℕ := none
  offered : List DataBundle := []
  depths : List DataBundle := []
  taken : List DataBundle := []
  entered : List ℕ := []
  handled : List (FrameFate R) := []

inductive LoopAction (R : Type) where
  | act (a : PendingAction R)
  | enqueueInspection (bundle : DataBundle)
  | enqueueDepth (bundle : DataBundle)
  | enter
  | check
  | dequeue
  | throttle
  | measure
  | processPair (ts : String)

def PendingAction.awaitsLoop : PendingAction R → Bool
  | .startInspection _ | .startAiTest .. | .stopInspection | .stopAiTest | .stop | .loopEnds =>
    true
  | _ => false

def PendingAction.isPair : PendingAction R → Bool
  | .publishPair .. => true
  | _ => false

def PendingAction.isQuiet : PendingAction R → Bool
  | .tick _ | .deliver _ | .setSubTask _ | .clearPending | .halt => true
  | _ => false

namespace LoopStage

def isHead : LoopStage R → Bool
  | .head => true
  | _ => false

def frames : LoopStage R → List DataBundle
  | .head | .waiting => []
  | .holding frame | .passed frame _ _ | .measured frame _ _ _ => [frame]

def times : LoopStage R → List ℤ
  | .passed _ sub time | .measured _ sub time _ => if sub = .installation then [(time : ℤ)] else []
  | _ => []

end LoopStage

namespace FrameFate

def frame : FrameFate R → DataBundle
  | .empty frame | .early frame _ _ => frame
  | .sent e => e.frame

def sent? : FrameFate R → Option (SentFrame R)
  | .sent e => some e
  | _ => none

end FrameFate

namespace InspectionLoop

/-- `static_cast<int>(1000.0 / installation_fps_)`, in milliseconds. -/
def minIntervalMs [Double R] (fps : R) : ℤ := castInt (Double.truncate (1000.0 / fps))

section Step
variable [Double R] (img : Imaging R) (lib : Nlohmann R) (fps : R)

def inspecting (s : InspectionLoop R) : Bool :=
  s.system.module.thread = some { kind := .inspection }

def throttleFrame (s : InspectionLoop R) (frame : DataBundle) : InspectionLoop R :=
  let sub := s.system.module.subTask
  let now := s.system.clock
  let last := s.lastAiSend.getD now
  if frame.data = [] then { s with stage := .head, handled := s.handled ++ [.empty frame] }
  else if sub = .installation then
    if (((now - last) / 1000000 : ℕ) : ℤ) < minIntervalMs fps then
      { s with stage := .head, handled := s.handled ++ [.early frame last now] }
    else { s with lastAiSend := some now, stage := .passed frame sub now }
  else { s with stage := .passed frame sub now }

def workingDistance (s : InspectionLoop R) (sub : InspectionSubTask) : R :=
  match usedDepth id sub s.buffer with
  | none => 0
  | some depth => img.workingDistance depth.data

/-- `process_pair_` returns at once for an empty left image. -/
def fate (s : InspectionLoop R) (ts : String) (frame : DataBundle) (sub : InspectionSubTask)
    (time : ℕ) (workingDistanceMm : R) : FrameFate R :=
  match s.system.module.publishPair img ts (splitFrame frame).1 (splitFrame frame).2
      workingDistanceMm with
  | none => .empty frame
  | some x => .sent ⟨frame, sub, time, x.2.pair, x.2.request⟩

def step (s : InspectionLoop R) : LoopAction R → Option (InspectionLoop R)
  | .act a =>
    if a.isPair ∨ a.awaitsLoop ∧ ¬ s.stage.isHead then none
    else (s.system.step img lib a).map fun t =>
      { s with system := t, lastAiSend := if a.starts then none else s.lastAiSend }
  | .enqueueInspection bundle =>
    some { s with buffer := s.buffer.enqueueInspection bundle, offered := s.offered ++ [bundle] }
  | .enqueueDepth bundle =>
    some { s with buffer := s.buffer.enqueueDepth bundle, depths := s.depths ++ [bundle] }
  | .enter =>
    if s.inspecting ∧ s.lastAiSend = none then
      some { s with lastAiSend := some s.system.clock, entered := s.entered ++ [s.system.clock] }
    else none
  | .check =>
    match s.stage with
    | .head =>
      if s.inspecting ∧ s.lastAiSend.isSome ∧ s.system.inFlight = none ∧ s.system.module.running
      then some { s with stage := .waiting } else none
    | _ => none
  | .dequeue =>
    match s.stage with
    | .waiting =>
      match s.buffer.dequeueInspection with
      -- the wait of 200 ms is over and there is still no frame
      | none => some { s with stage := .head }
      | some (frame, rest) =>
        some { s with buffer := rest, stage := .holding frame, taken := s.taken ++ [frame] }
    | _ => none
  | .throttle =>
    match s.stage with
    | .holding frame => some (s.throttleFrame fps frame)
    | _ => none
  | .measure =>
    match s.stage with
    | .passed frame sub time =>
      some { s with stage := .measured frame sub time (s.workingDistance img sub) }
    | _ => none
  | .processPair ts =>
    match s.stage with
    | .measured frame sub time wd =>
      (s.system.step img lib
          (.publishPair ts (splitFrame frame).1 (splitFrame frame).2 wd)).map fun t =>
        { s with system := t, stage := .head,
                 handled := s.handled ++ [s.fate img ts frame sub time wd] }
    | _ => none

end Step

def log (s : InspectionLoop R) : List (SentFrame R) := s.handled.filterMap FrameFate.sent?

def throttled (s : InspectionLoop R) : List ℤ :=
  (s.log.filter fun e => e.sub = .installation).map fun e => (e.time : ℤ)

end InspectionLoop

/-- The images of a pair are the halves of a stereo frame; any other frame is the left image as
a whole. Of a raw pair AIVD gets the left one. -/
structure SentFrame.Carries (img : Imaging R) (e : SentFrame R) : Prop where
  filled : e.frame.data ≠ []
  fromLoop : e.pair.fromFile = false
  images : ∃ left right, left ++ right = e.frame.data ∧
    (if e.frame.data.length = 1920 * 2400 * 4 then left.length = right.length else right = []) ∧
    e.pair.left.data = encodeJpegForStorage img left ∧
    e.pair.right.data = encodeJpegForStorage img right ∧
    ∀ ts image, e.request = some (.binary ts image) →
      ts = e.pair.transactionId ∧ image = left

def Measured (img : Imaging R) [Zero R] (depths : List DataBundle) (sub : InspectionSubTask)
    (wd : R) : Prop :=
  wd = 0 ∨ sub = .installation ∧ ∃ d ∈ depths, d.data ≠ [] ∧ wd = img.workingDistance d.data

/-- Why the loop did with a frame what it did: a frame counts as early only for a frame sent
under installation or for the entry of the loop, less than the interval before. -/
def FrameFate.Justified (img : Imaging R) [Double R] (fps : R) (times : List ℤ)
    (entered : List ℕ) (depths : List DataBundle) : FrameFate R → Prop
  | .empty frame => frame.data = []
  | .early frame last now => frame.data ≠ [] ∧ last ≤ now ∧
      (((now - last) / 1000000 : ℕ) : ℤ) < InspectionLoop.minIntervalMs fps ∧
      ((last : ℤ) ∈ times ∨ last ∈ entered)
  | .sent e => e.Carries img ∧ Measured img depths e.sub e.pair.workingDistanceMm

def PendingSystem.loopPairs (s : PendingSystem R) : List (PairInFlight R) :=
  s.sent.filter fun p => !p.fromFile

namespace InspectionLoop

/-- What holds after every run: each frame taken is accounted for, in order and none twice;
two frames sent under installation are an interval apart, over all tasks; the pairs of the
task are numbered from 0 on, those of the loop being its latest. -/
structure Sound (img : Imaging R) [Double R] (fps : R) (s : InspectionLoop R) : Prop where
  offered : (s.taken ++ s.buffer.inspectionQueue).Sublist s.offered
  taken : s.taken = s.handled.map FrameFate.frame ++ s.stage.frames
  fates : ∀ f ∈ s.handled, f.Justified img fps s.throttled s.entered s.depths
  spaced : Spaced (minIntervalMs fps * 1000000) s.throttled
  window : ∀ (w : List ℤ) (first last : ℤ), w.Sublist s.throttled → w ≠ [] →
    (∀ x ∈ w, first ≤ x ∧ x ≤ last) →
    (w.length - 1 : ℕ) * (minIntervalMs fps * 1000000) ≤ last - first
  numbered : s.system.sent.map PairInFlight.pairIndex = List.range s.system.module.pairIndex
  latest : s.system.loopPairs <:+ s.log.map SentFrame.pair

end InspectionLoop

theorem splitFrame_append (frame : DataBundle) :
    (splitFrame frame).1.data ++ (splitFrame frame).2.data = frame.data := by
  unfold splitFrame
  split
  · exact List.take_append_drop _ _
  · exact List.append_nil _

theorem splitFrame_right (frame : DataBundle) :
    if frame.data.length = 1920 * 2400 * 4 then
      (splitFrame frame).1.data.length = (splitFrame frame).2.data.length
    else (splitFrame frame).2.data = [] := by
  unfold splitFrame
  split
  · rename_i hlen
    rw [List.length_take, List.length_drop, hlen]
    rfl
  · rfl

theorem splitFrame_left_ne_nil {frame : DataBundle} (h : frame.data ≠ []) :
    (splitFrame frame).1.data ≠ [] := by
  have hsplit := splitFrame_append frame
  have hright := splitFrame_right frame
  intro hleft
  rw [hleft] at hsplit hright
  split at hright
  · rename_i hlen
    rw [← hsplit, List.nil_append, ← hright] at hlen
    cases hlen
  · rw [hright] at hsplit
    exact h hsplit.symm

namespace PreprocessModule

theorem publishPair_carries (img : Imaging R) (m : PreprocessModule R) (ts : String)
    {frame : DataBundle} (sub : InspectionSubTask) (time : ℕ) (wd : R) (hne : frame.data ≠ []) :
    ∃ x, m.publishPair img ts (splitFrame frame).1 (splitFrame frame).2 wd = some x ∧
      (⟨frame, sub, time, x.2.pair, x.2.request⟩ : SentFrame R).Carries img ∧
      x.2.pair.workingDistanceMm = wd := by
  have hright : (if (splitFrame frame).2.data = [] then []
      else encodeJpegForStorage img (splitFrame frame).2.data) =
        encodeJpegForStorage img (splitFrame frame).2.data := by
    split
    · rename_i hnil
      rw [hnil]
      rfl
    · rfl
  unfold publishPair
  rw [if_neg (splitFrame_left_ne_nil hne)]
  refine ⟨_, rfl, ⟨hne, ?_, (splitFrame frame).1.data, (splitFrame frame).2.data,
    splitFrame_append frame, splitFrame_right frame, ?_, ?_, ?_⟩, ?_⟩
  · dsimp only
    split_ifs <;> rfl
  · dsimp only
    split_ifs <;> rfl
  · rw [← hright]
    dsimp only
    split_ifs <;> rfl
  · intro ts' image hrequest
    dsimp only at hrequest ⊢
    by_cases hbinary : m.aiMode = .binary ∧ m.wired.dealer
    · rw [if_pos hbinary] at hrequest ⊢
      cases hrequest
      exact ⟨rfl, rfl⟩
    · rw [if_neg hbinary] at hrequest
      by_cases hfiles : m.wired.dealer ∧ m.activeRecordPath ≠ "" ∧ m.wired.recordMgr
      · rw [if_pos hfiles] at hrequest
        cases hrequest
      · rw [if_neg hfiles] at hrequest
        cases hrequest
  · dsimp only
    split_ifs <;> rfl

end PreprocessModule

namespace PendingSystem

theorem quiet_step [Double R] {img : Imaging R} {lib : Nlohmann R} {s t : PendingSystem R}
    {a : PendingAction R} (ha : a.isQuiet = true) (h : s.step img lib a = some t) :
    ∃ m now, t = { s with module := m, clock := now } ∧ s.clock ≤ now ∧
      m.thread = s.module.thread ∧ m.pairIndex = s.module.pairIndex := by
  cases a <;> simp only [step] at h
  case tick elapsed =>
    cases h
    exact ⟨s.module, _, rfl, Nat.le_add_right _ _, rfl, rfl⟩
  case deliver resp =>
    cases h
    obtain ⟨rest, hrest⟩ := onAiResult_module lib s.clock resp s.module
    exact ⟨_, s.clock, rfl, le_rfl, by rw [hrest], by rw [hrest]⟩
  case setSubTask st =>
    cases h
    exact ⟨_, s.clock, rfl, le_rfl, rfl, rfl⟩
  case clearPending =>
    cases h
    exact ⟨_, s.clock, rfl, le_rfl, rfl, rfl⟩
  case halt =>
    cases h
    exact ⟨_, s.clock, rfl, le_rfl, rfl, rfl⟩
  all_goals cases ha

/-- What a step that is no part of the loop leaves as the loop needs it. -/
structure Beside (a : PendingAction R) (s t : PendingSystem R) : Prop where
  clock : s.clock ≤ t.clock
  pairs : t.loopPairs = s.loopPairs ∨ t.loopPairs = []
  thread : a.awaitsLoop = false → t.module.thread = s.module.thread
  idle : a.awaitsLoop = false → s.module.thread = some { kind := .inspection } →
    s.inFlight = none → t.inFlight = none

theorem loopPairs_publish (s : PendingSystem R) (m : PreprocessModule R) (p : PairInFlight R) :
    (s.publish m p).loopPairs = s.loopPairs ++ if p.fromFile then [] else [p] := by
  change (s.sent ++ [p]).filter _ = _
  rw [List.filter_append, loopPairs]
  cases hp : p.fromFile with
  | false => simp [hp]
  | true => simp [hp]

theorem beside_startTask {s t : PendingSystem R} {start : PreprocessModule R → PreprocessModule R}
    {a : PendingAction R} (ha : a.awaitsLoop = true) (h : s.startTask start = some t) :
    Beside a s t := by
  obtain ⟨m, -, rfl⟩ := Option.map_eq_some_iff.1 h
  have hnot : a.awaitsLoop ≠ false := by simp [ha]
  exact ⟨le_rfl, .inr rfl, fun h => absurd h hnot, fun h => absurd h hnot⟩

theorem beside_stopTask {s t : PendingSystem R} {finish : PreprocessModule R → PreprocessModule R}
    {a : PendingAction R} (ha : a.awaitsLoop = true) (h : s.stopTask finish = some t) :
    Beside a s t := by
  obtain ⟨m, -, rfl⟩ := Option.map_eq_some_iff.1 h
  have hnot : a.awaitsLoop ≠ false := by simp [ha]
  exact ⟨le_rfl, .inl rfl, fun h => absurd h hnot, fun h => absurd h hnot⟩

theorem beside_of_step [Double R] {img : Imaging R} {lib : Nlohmann R} {s t : PendingSystem R}
    {a : PendingAction R} (ha : a.isPair = false) (h : s.step img lib a = some t) :
    Beside a s t := by
  by_cases hquiet : a.isQuiet = true
  · obtain ⟨m, now, rfl, hnow, hthread, -⟩ := quiet_step hquiet h
    exact ⟨hnow, .inl rfl, fun _ => hthread, fun _ _ hf => hf⟩
  cases a <;> simp only [step] at h
  case publishPair ts left right wd => cases ha
  case publishFile ts l r =>
    split at h
    · rename_i hthread
      cases h
      refine ⟨le_rfl, .inl ?_, fun _ => rfl, ?_⟩
      · rw [loopPairs_publish]
        exact List.append_nil _
      · intro _ hinspecting
        rw [hinspecting] at hthread
        cases hthread.2
    · cases h
  case insert =>
    obtain ⟨p, hp, rfl⟩ := Option.map_eq_some_iff.1 h
    exact ⟨le_rfl, .inl rfl, fun _ => rfl, fun _ _ _ => rfl⟩
  case loopEnds =>
    split at h
    · cases h
      have hnot : (PendingAction.loopEnds : PendingAction R).awaitsLoop ≠ false :=
        Bool.noConfusion
      exact ⟨le_rfl, .inl rfl, fun hw => absurd hw hnot, fun hw => absurd hw hnot⟩
    · cases h
  case startInspection path => exact beside_startTask rfl h
  case startAiTest data path found => exact beside_startTask rfl h
  case stopInspection => exact beside_stopTask rfl h
  case stopAiTest => exact beside_stopTask rfl h
  case stop => exact beside_stopTask rfl h
  all_goals exact absurd rfl hquiet

end PendingSystem

/-- What the throttle keeps of the times of the frames that passed it and of the value it
compares with. -/
structure Timed (d : ℤ) (times : List ℤ) (lastAiSend : Option ℕ) (clock : ℕ)
    (entered : List ℕ) : Prop where
  spaced : Spaced d times
  bound : ∀ x ∈ times, x ≤ (lastAiSend.getD clock : ℕ)
  clock : ∀ last, lastAiSend = some last → last ≤ clock ∧ ((last : ℤ) ∈ times ∨ last ∈ entered)

namespace Timed
variable {d : ℤ} {times : List ℤ} {lastAiSend : Option ℕ} {clock : ℕ} {entered : List ℕ}

theorem last_le (h : Timed d times lastAiSend clock entered) : lastAiSend.getD clock ≤ clock := by
  cases hlast : lastAiSend with
  | none => exact le_rfl
  | some last => exact (h.clock last hlast).1

theorem bound_clock (h : Timed d times lastAiSend clock entered) :
    ∀ x ∈ times, x ≤ (clock : ℤ) :=
  fun x hx => (h.bound x hx).trans (Int.ofNat_le.2 h.last_le)

theorem later (h : Timed d times lastAiSend clock entered) {now : ℕ} (hnow : clock ≤ now) :
    Timed d times lastAiSend now entered := by
  refine ⟨h.spaced, ?_, ?_⟩
  · intro x hx
    have hclock := (h.bound_clock x hx).trans (Int.ofNat_le.2 hnow)
    have hbound := h.bound x hx
    cases hlast : lastAiSend with
    | none => exact hclock
    | some last =>
      rw [hlast] at hbound
      exact hbound
  · intro last hlast
    exact ⟨(h.clock last hlast).1.trans hnow, (h.clock last hlast).2⟩

theorem left (h : Timed d times lastAiSend clock entered) : Timed d times none clock entered :=
  ⟨h.spaced, h.bound_clock, nofun⟩

theorem enter (h : Timed d times lastAiSend clock entered) :
    Timed d times (some clock) clock (entered ++ [clock]) := by
  refine ⟨h.spaced, h.bound_clock, ?_⟩
  intro last hlast
  obtain rfl : clock = last := Option.some.inj hlast
  exact ⟨le_rfl, .inr (List.mem_append_right _ List.mem_cons_self)⟩

theorem send (h : Timed d times lastAiSend clock entered)
    (hlate : (lastAiSend.getD clock : ℤ) + d ≤ clock) :
    Timed d (times ++ [(clock : ℤ)]) (some clock) clock entered := by
  refine ⟨h.spaced.append_one h.bound hlate, ?_, ?_⟩
  · intro x hx
    rcases List.mem_append.1 hx with hx | hx
    · exact h.bound_clock x hx
    · exact (List.mem_singleton.1 hx).le
  · intro last hlast
    obtain rfl : clock = last := Option.some.inj hlast
    exact ⟨le_rfl, .inl (List.mem_append_right _ List.mem_cons_self)⟩

end Timed

theorem Measured.mono {img : Imaging R} [Zero R] {ds ds' : List DataBundle}
    {sub : InspectionSubTask} {wd : R} (h : Measured img ds sub wd) (hds : ds ⊆ ds') :
    Measured img ds' sub wd := by
  rcases h with h | ⟨hsub, d, hd, hdist⟩
  · exact .inl h
  · exact .inr ⟨hsub, d, hds hd, hdist⟩

theorem FrameFate.Justified.mono {img : Imaging R} [Double R] {fps : R} {ts ts' : List ℤ}
    {es es' : List ℕ} {ds ds' : List DataBundle} {f : FrameFate R}
    (h : f.Justified img fps ts es ds) (hts : ts ⊆ ts') (hes : es ⊆ es') (hds : ds ⊆ ds') :
    f.Justified img fps ts' es' ds' := by
  cases f with
  | empty frame => exact h
  | early frame last now =>
    obtain ⟨hne, hle, hlt, hlast⟩ := h
    exact ⟨hne, hle, hlt, hlast.imp (fun ht => hts ht) fun he => hes he⟩
  | sent e => exact ⟨h.1, h.2.mono hds⟩

namespace InspectionLoop

def times (s : InspectionLoop R) : List ℤ := s.throttled ++ s.stage.times

def OnWay (img : Imaging R) [Zero R] (depths : List DataBundle) : LoopStage R → Prop
  | .passed frame _ _ => frame.data ≠ []
  | .measured frame sub _ wd => frame.data ≠ [] ∧ Measured img depths sub wd
  | _ => True

structure Kept (img : Imaging R) [Double R] (fps : R) (s : InspectionLoop R) : Prop where
  busy : s.stage.isHead = false →
    s.inspecting = true ∧ s.system.inFlight = none ∧ s.lastAiSend.isSome = true
  offered : (s.taken ++ s.buffer.inspectionQueue).Sublist s.offered
  taken : s.taken = s.handled.map FrameFate.frame ++ s.stage.frames
  depth : ∀ d, s.buffer.latestDepth = some d → d ∈ s.depths
  onWay : OnWay img s.depths s.stage
  fates : ∀ f ∈ s.handled, f.Justified img fps s.throttled s.entered s.depths
  timed : Timed (minIntervalMs fps * 1000000) s.times s.lastAiSend s.system.clock s.entered
  numbered : PendingSystem.Counted s.system
  latest : s.system.loopPairs <:+ s.log.map SentFrame.pair

variable [Double R] {img : Imaging R} {lib : Nlohmann R} {fps : R} {s t : InspectionLoop R}

theorem kept_act {a : PendingAction R} {u : PendingSystem R} (hs : Kept img fps s)
    (hpair : a.isPair = false) (hawaits : a.awaitsLoop = true → s.stage.isHead = true)
    (h : s.system.step img lib a = some u) :
    Kept img fps
      { s with system := u, lastAiSend := if a.starts then none else s.lastAiSend } := by
  have hbeside := PendingSystem.beside_of_step hpair h
  refine ⟨?_, hs.offered, hs.taken, hs.depth, hs.onWay, hs.fates, ?_,
    PendingSystem.counted_step hs.numbered h, ?_⟩
  · intro hbusy
    have hruns : a.awaitsLoop = false := by
      cases hw : a.awaitsLoop with
      | false => rfl
      | true =>
        rw [hawaits hw] at hbusy
        cases hbusy
    have hstarts : a.starts = false := by
      cases a <;> first | rfl | cases hruns
    obtain ⟨hinspecting, hflight, hsome⟩ := hs.busy hbusy
    have hthread := of_decide_eq_true hinspecting
    refine ⟨decide_eq_true ((hbeside.thread hruns).trans hthread),
      hbeside.idle hruns hthread hflight, ?_⟩
    change (if a.starts then none else s.lastAiSend).isSome = true
    rw [hstarts]
    exact hsome
  · have hlater := hs.timed.later hbeside.clock
    change Timed _ s.times (if a.starts then none else s.lastAiSend) u.clock s.entered
    split
    · exact hlater.left
    · exact hlater
  · change u.loopPairs <:+ s.log.map SentFrame.pair
    rcases hbeside.pairs with hpairs | hpairs
    · rw [hpairs]
      exact hs.latest
    · rw [hpairs]
      exact List.nil_suffix

theorem kept_enqueueInspection (hs : Kept img fps s) (bundle : DataBundle) :
    Kept img fps
      { s with buffer := s.buffer.enqueueInspection bundle, offered := s.offered ++ [bundle] } := by
  refine ⟨hs.busy, ?_, hs.taken, ?_, hs.onWay, hs.fates, hs.timed, hs.numbered, hs.latest⟩
  · change (s.taken ++ (s.buffer.enqueueInspection bundle).inspectionQueue).Sublist
      (s.offered ++ [bundle])
    unfold DataBuffer.enqueueInspection
    split
    · exact hs.offered.trans (List.sublist_append_left _ _)
    · change (s.taken ++ (s.buffer.inspectionQueue ++ [bundle])).Sublist _
      rw [← List.append_assoc]
      exact hs.offered.append_right [bundle]
  · intro d hd
    apply hs.depth
    rw [← hd]
    exact (DataBuffer.enqueueInspection_latestDepth _ _).symm

theorem kept_enqueueDepth (hs : Kept img fps s) (bundle : DataBundle) :
    Kept img fps
      { s with buffer := s.buffer.enqueueDepth bundle, depths := s.depths ++ [bundle] } := by
  have hsub : s.depths ⊆ s.depths ++ [bundle] := List.subset_append_left _ _
  refine ⟨hs.busy, hs.offered, hs.taken, ?_, ?_, ?_, hs.timed, hs.numbered, hs.latest⟩
  · intro d hd
    obtain rfl : bundle = d := Option.some.inj hd
    exact List.mem_append_right _ List.mem_cons_self
  · have honWay := hs.onWay
    change OnWay img (s.depths ++ [bundle]) s.stage
    cases hstage : s.stage with
    | measured frame sub time wd =>
      rw [hstage] at honWay
      exact ⟨honWay.1, honWay.2.mono hsub⟩
    | passed frame sub time =>
      rw [hstage] at honWay
      exact honWay
    | _ => trivial
  · intro f hf
    exact (hs.fates f hf).mono (List.Subset.refl _) (List.Subset.refl _) hsub

theorem kept_enter (hs : Kept img fps s) :
    Kept img fps
      { s with lastAiSend := some s.system.clock, entered := s.entered ++ [s.system.clock] } := by
  refine ⟨?_, hs.offered, hs.taken, hs.depth, hs.onWay, ?_, hs.timed.enter, hs.numbered, hs.latest⟩
  · intro hbusy
    exact ⟨(hs.busy hbusy).1, (hs.busy hbusy).2.1, rfl⟩
  · intro f hf
    exact (hs.fates f hf).mono (List.Subset.refl _) (List.subset_append_left _ _)
      (List.Subset.refl _)

theorem kept_stage (hs : Kept img fps s) (stage : LoopStage R)
    (hframes : stage.frames = s.stage.frames) (htimes : stage.times = s.stage.times)
    (honWay : OnWay img s.depths stage)
    (hbusy : stage.isHead = false →
      s.inspecting = true ∧ s.system.inFlight = none ∧ s.lastAiSend.isSome = true) :
    Kept img fps { s with stage := stage } := by
  refine ⟨hbusy, hs.offered, ?_, hs.depth, honWay, hs.fates, ?_, hs.numbered, hs.latest⟩
  · rw [hs.taken, hframes]
  · change Timed _ (s.throttled ++ stage.times) _ _ _
    rw [htimes]
    exact hs.timed

theorem kept_dequeue (hs : Kept img fps s) (hstage : s.stage = .waiting) {frame : DataBundle}
    {rest : DataBuffer DataBundle} (h : s.buffer.dequeueInspection = some (frame, rest)) :
    Kept img fps
      { s with buffer := rest, stage := .holding frame, taken := s.taken ++ [frame] } := by
  obtain ⟨hqueue, hdepth⟩ := DataBuffer.dequeueInspection_some h
  have hbusy := hs.busy (by rw [hstage]; rfl)
  have htimed := hs.timed
  rw [times, hstage] at htimed
  refine ⟨fun _ => hbusy, ?_, ?_, ?_, trivial, hs.fates, htimed, hs.numbered, hs.latest⟩
  · change (s.taken ++ [frame] ++ rest.inspectionQueue).Sublist s.offered
    rw [List.append_assoc, List.singleton_append, ← hqueue]
    exact hs.offered
  · change s.taken ++ [frame] = _ ++ [frame]
    rw [hs.taken, hstage]
    exact congrArg (· ++ [frame]) (List.append_nil _)
  · intro d hd
    exact hs.depth d (hdepth.symm.trans hd)

/-- The loop is done with its frame; `times` are those of the frames sent by then. -/
theorem kept_handled (hs : Kept img fps s) {u : PendingSystem R} {f : FrameFate R}
    (hframe : s.stage.frames = [f.frame])
    (htimes : s.stage.times = (f.sent?.toList.filter fun e => e.sub = .installation).map
      fun e => (e.time : ℤ))
    (hf : f.Justified img fps s.throttled s.entered s.depths) (hclock : u.clock = s.system.clock)
    (hnumbered : PendingSystem.Counted u)
    (hlatest : u.loopPairs <:+ s.log.map SentFrame.pair ++ f.sent?.toList.map SentFrame.pair) :
    Kept img fps
      { s with system := u, stage := .head, handled := s.handled ++ [f] } := by
  have hlog : (s.handled ++ [f]).filterMap FrameFate.sent? = s.log ++ f.sent?.toList := by
    rw [List.filterMap_append, log]
    cases f <;> rfl
  have hthrottled : ({ s with system := u, stage := .head, handled := s.handled ++ [f] } :
      InspectionLoop R).throttled = s.times := by
    change (((s.handled ++ [f]).filterMap FrameFate.sent?).filter _).map _ = _
    rw [hlog, List.filter_append, List.map_append, times, htimes]
    rfl
  refine ⟨nofun, hs.offered, ?_, hs.depth, trivial, ?_, ?_, hnumbered, ?_⟩
  · change s.taken = (s.handled ++ [f]).map FrameFate.frame ++ []
    rw [hs.taken, hframe, List.map_append, List.append_nil]
    rfl
  · intro g hg
    rw [hthrottled]
    rcases List.mem_append.1 hg with hg | hg
    · exact (hs.fates g hg).mono (List.subset_append_left _ _) (List.Subset.refl _)
        (List.Subset.refl _)
    · rw [List.mem_singleton.1 hg]
      exact hf.mono (List.subset_append_left _ _) (List.Subset.refl _) (List.Subset.refl _)
  · rw [times, hthrottled]
    change Timed _ (s.times ++ []) _ u.clock _
    rw [List.append_nil, hclock]
    exact hs.timed
  · change u.loopPairs <:+ ((s.handled ++ [f]).filterMap FrameFate.sent?).map SentFrame.pair
    rw [hlog, List.map_append]
    exact hlatest

theorem kept_dropped (hs : Kept img fps s) {f : FrameFate R} (hstage : s.stage = .holding f.frame)
    (hsent : f.sent? = none) (hf : f.Justified img fps s.throttled s.entered s.depths) :
    Kept img fps { s with stage := .head, handled := s.handled ++ [f] } := by
  apply kept_handled hs
  · rw [hstage]
    rfl
  · rw [hstage, hsent]
    rfl
  · exact hf
  · rfl
  · exact hs.numbered
  · rw [hsent]
    exact (List.append_nil (s.log.map SentFrame.pair)).symm ▸ hs.latest

theorem kept_throttleFrame (hs : Kept img fps s) {frame : DataBundle}
    (hstage : s.stage = .holding frame) : Kept img fps (s.throttleFrame fps frame) := by
  have hbusy := hs.busy (by rw [hstage]; rfl)
  have htimed := hs.timed
  have htimes : s.times = s.throttled := by
    rw [times, hstage]
    exact List.append_nil _
  rw [htimes] at htimed
  unfold throttleFrame
  dsimp only
  split
  · rename_i hempty
    exact kept_dropped (f := .empty frame) hs hstage rfl hempty
  · rename_i hne
    split
    · rename_i hsub
      split
      · rename_i hearly
        apply kept_dropped (f := .early frame _ _) hs hstage rfl
        obtain ⟨last, hlast⟩ := Option.isSome_iff_exists.1 hbusy.2.2
        rw [hlast] at hearly ⊢
        exact ⟨hne, (htimed.clock last hlast).1, hearly, (htimed.clock last hlast).2⟩
      · rename_i hlate
        have hlast := htimed.last_le
        refine ⟨fun _ => ⟨hbusy.1, hbusy.2.1, rfl⟩, hs.offered, ?_, hs.depth, hne, hs.fates, ?_,
          hs.numbered, hs.latest⟩
        · rw [hs.taken, hstage]
          rfl
        · rw [hsub]
          apply htimed.send
          omega
    · rename_i hsub
      apply kept_stage hs
      · rw [hstage]
        rfl
      · rw [hstage]
        exact if_neg hsub
      · exact hne
      · exact fun _ => hbusy

theorem measured_workingDistance (hs : Kept img fps s) (sub : InspectionSubTask) :
    Measured img s.depths sub (s.workingDistance img sub) := by
  unfold workingDistance
  cases hdepth : usedDepth id sub s.buffer with
  | none => exact .inl rfl
  | some d =>
    unfold usedDepth at hdepth
    split at hdepth
    · rename_i hsub
      obtain ⟨hlatest, hne⟩ := Option.filter_eq_some_iff.1 hdepth
      exact .inr ⟨hsub, d, hs.depth d hlatest, of_decide_eq_true hne, rfl⟩
    · cases hdepth

theorem kept_processPair (hs : Kept img fps s) {ts : String} {frame : DataBundle}
    {sub : InspectionSubTask} {time : ℕ} {wd : R} {u : PendingSystem R}
    (hstage : s.stage = .measured frame sub time wd)
    (h : s.system.step img lib
      (.publishPair ts (splitFrame frame).1 (splitFrame frame).2 wd) = some u) :
    Kept img fps
      { s with system := u, stage := .head,
               handled := s.handled ++ [s.fate img ts frame sub time wd] } := by
  have honWay := hs.onWay
  rw [hstage] at honWay
  obtain ⟨x, hx, hcarries, hwd⟩ := publishPair_carries img s.system.module ts sub time wd honWay.1
  have hfate : s.fate img ts frame sub time wd =
      .sent ⟨frame, sub, time, x.2.pair, x.2.request⟩ := by
    rw [fate, hx]
  have hcounted := PendingSystem.counted_step hs.numbered h
  have hu : u = s.system.publish x.1 x.2.pair := by
    simp only [PendingSystem.step] at h
    split at h
    · rw [hx] at h
      exact (Option.some.inj h).symm
    · cases h
  rw [hfate]
  apply kept_handled hs
  · rw [hstage]
    rfl
  · rw [hstage]
    by_cases hsub : sub = .installation
    · subst hsub
      rfl
    · simp [LoopStage.times, FrameFate.sent?, hsub]
  · refine ⟨hcarries, ?_⟩
    rw [hwd]
    exact honWay.2
  · rw [hu]
    rfl
  · exact hcounted
  · rw [hu, PendingSystem.loopPairs_publish, hcarries.fromLoop]
    exact (List.suffix_append_inj_of_length_eq rfl).2 ⟨hs.latest, rfl⟩

theorem kept_step {a : LoopAction R} (hs : Kept img fps s) (h : s.step img lib fps a = some t) :
    Kept img fps t := by
  cases a <;> simp only [step] at h
  case act a =>
    split at h
    · cases h
    · rename_i hallowed
      obtain ⟨u, hu, rfl⟩ := Option.map_eq_some_iff.1 h
      push Not at hallowed
      exact kept_act hs (Bool.eq_false_iff.2 hallowed.1) hallowed.2 hu
  case enqueueInspection bundle =>
    cases h
    exact kept_enqueueInspection hs bundle
  case enqueueDepth bundle =>
    cases h
    exact kept_enqueueDepth hs bundle
  case enter =>
    split at h
    · cases h
      exact kept_enter hs
    · cases h
  case check =>
    split at h
    · rename_i hstage
      split at h
      · rename_i hready
        cases h
        apply kept_stage hs
        · rw [hstage]
          rfl
        · rw [hstage]
          rfl
        · trivial
        · exact fun _ => ⟨hready.1, hready.2.2.1, hready.2.1⟩
      · cases h
    · cases h
  case dequeue =>
    split at h
    · rename_i hstage
      split at h
      · cases h
        apply kept_stage hs
        · rw [hstage]
          rfl
        · rw [hstage]
          rfl
        · trivial
        · exact nofun
      · rename_i frame rest hgot
        cases h
        exact kept_dequeue hs hstage hgot
    · cases h
  case throttle =>
    split at h
    · rename_i frame hstage
      cases h
      exact kept_throttleFrame hs hstage
    · cases h
  case measure =>
    split at h
    · rename_i frame sub time hstage
      cases h
      have honWay := hs.onWay
      rw [hstage] at honWay
      apply kept_stage hs
      · rw [hstage]
        rfl
      · rw [hstage]
        rfl
      · exact ⟨honWay, measured_workingDistance hs sub⟩
      · exact fun _ => hs.busy (by rw [hstage]; rfl)
    · cases h
  case processPair ts =>
    split at h
    · rename_i frame sub time wd hstage
      obtain ⟨u, hu, rfl⟩ := Option.map_eq_some_iff.1 h
      exact kept_processPair hs hstage hu
    · cases h

theorem Kept.sound (hs : Kept img fps s) : Sound img fps s := by
  have hspaced : Spaced (minIntervalMs fps * 1000000) s.throttled :=
    hs.timed.spaced.of_sublist (List.sublist_append_left _ _)
  refine ⟨hs.offered, hs.taken, hs.fates, hspaced, ?_, hs.numbered, hs.latest⟩
  intro w first last hw hne hin
  have hwindow := hspaced.window hw hin hne
  rwa [nsmul_eq_mul] at hwindow

theorem kept_constructed {m : PreprocessModule R} (hm : m.pairIndex = 0) :
    Kept img fps { system := { module := m } } := by
  refine ⟨nofun, List.Sublist.refl _, rfl, nofun, trivial, List.forall_mem_nil _, ?_, ?_,
    List.nil_suffix⟩
  · exact ⟨Spaced.nil, List.forall_mem_nil _, nofun⟩
  · change [] = List.range m.pairIndex
    rw [hm]
    rfl

theorem Kept.moves (hs : Kept img fps s) (hbusy : s.stage.isHead = false) (ts : String) :
    ∃ a ∈ [LoopAction.dequeue, .throttle, .measure, .processPair ts],
      (s.step img lib fps a).isSome = true := by
  cases hstage : s.stage with
  | head =>
    rw [hstage] at hbusy
    cases hbusy
  | waiting =>
    refine ⟨.dequeue, by simp, ?_⟩
    simp only [step, hstage]
    split <;> rfl
  | holding frame =>
    refine ⟨.throttle, by simp, ?_⟩
    simp only [step, hstage, Option.isSome_some]
  | passed frame sub time =>
    refine ⟨.measure, by simp, ?_⟩
    simp only [step, hstage, Option.isSome_some]
  | measured frame sub time wd =>
    obtain ⟨hinspecting, hflight, -⟩ := hs.busy hbusy
    have hthread := of_decide_eq_true hinspecting
    refine ⟨.processPair ts, by simp, ?_⟩
    simp only [step, hstage, Option.isSome_map, PendingSystem.step]
    rw [if_pos ⟨hflight, hthread⟩]
    split <;> rfl

/-- Two frames of an installation, the second too early, and one behind the change of task. -/
def threeFrames : List (LoopAction ℤ) :=
  [.act (.startInspection "database/r"), .enter, .enqueueDepth { data := [7] },
    .enqueueInspection { data := [1] }, .enqueueInspection { data := [2] },
    .enqueueInspection { data := [3] }, .act (.tick 250000000),
    .check, .dequeue, .throttle, .measure, .processPair "a", .act .insert,
    .act (.tick 100000000), .check, .dequeue, .throttle,
    .act (.setSubTask .gapInspection), .check, .dequeue, .throttle, .measure, .processPair "b"]

end InspectionLoop
end EcidsCore
