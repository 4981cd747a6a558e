import EcidsCore.AiTestFolder
import EcidsCore.InspectionLoop

set_option autoImplicit false

/-! The loop of the AI test, from the folder of test images to the requests to the AI node
and the completion callback, over all interleavings with the dealer thread and the calls
that start and stop a task. -/
namespace EcidsCore
open ByteText GuardedRuns PreprocessModule

variable {R : Type}

/-- Where the thread of the AI test stands; `outside` also where there is none. -/
inductive TestStage where
  | outside
  | reading (found : Bool)
  | next (rest : List AiTest.PairEntry)
  | storing (rest : List AiTest.PairEntry)
  | sleeping (rest : List AiTest.PairEntry) (wakeAt : ℕ)

namespace TestStage

def isOutside : TestStage → Bool
  | .outside => true
  | _ => false

theorem isOutside_iff {stage : TestStage} : stage.isOutside = true ↔ stage = .outside := by
  cases stage <;> simp [isOutside]

def owed : TestStage → ℕ
  | .outside => 0
  | .reading found => if found then 1 else 0
  | .next _ | .storing _ | .sleeping .. => 1

end TestStage

structure TestedPair (R : Type) where
  entry : AiTest.PairEntry
  time : ℕ
  pair : PairInFlight R
  request : Option AiRequest

/-- `plan` and `listed` are what the loop found in the folder, `log` the pairs of the test and
`cut` whether it left some out; they belong to the last task started. `tests` counts the
tests started on a folder that exists, `callbacks` the calls of the completion callback. -/
structure AiTestRun (R : Type) where
  system : PendingSystem R
  stage : TestStage := .outside
  listed : Option (Bytes × List Bytes) := none
  plan : List AiTest.PairEntry := []
  log : List (TestedPair R) := []
  cut : Bool := false
  tests : ℕ := 0
  callbacks : ℕ := 0

inductive TestAction (R : Type) where
  | act (a : PendingAction R)
  | startAiTest (testDataPath path : String) (found : Bool)
  | missing
  | read (names : List Bytes)
  | processPairFile (ts : String)
  | insert
  | wake
  | finish

def PendingAction.isTest : PendingAction R → Bool
  | .publishFile .. | .startAiTest .. => true
  | _ => false

namespace AiTestRun

/-- `usleep(static_cast<int>(1000000.0 / ai_test_fps_))` in nanoseconds. -/
def sleepNs [Double R] (fps : R) : ℕ :=
  (castInt (Double.truncate ((1000000.0 : R) / fps)) % 4294967296).toNat * 1000

section Step
variable [Double R] (img : Imaging R) (lib : Nlohmann R) (fps : R)

/-- The process does not survive a path that is no text: `dump` throws in the thread. -/
def paths (e : AiTest.PairEntry) : Option (String × String) := do
  let left ← text? e.left
  let right ← text? e.right
  return (left, right)

def send (s : AiTestRun R) (e : AiTest.PairEntry) (rest : List AiTest.PairEntry)
    (ts left right : String) : Option (AiTestRun R) :=
  let pub := (s.system.module.publishFile img ts left right).2
  (s.system.step img lib (.publishFile ts left right)).map fun t =>
    { s with system := t, stage := .storing rest,
             log := s.log ++ [⟨e, s.system.clock, pub.pair, pub.request⟩] }

def step (s : AiTestRun R) : TestAction R → Option (AiTestRun R)
  | .act a =>
    if a.isQuiet ∨ s.stage.isOutside ∧ ¬ a.isTest then
      (s.system.step img lib a).map fun t =>
        if a.starts then
          { s with system := t, listed := none, plan := [], log := [], cut := false }
        else { s with system := t }
    else none
  | .startAiTest data path found =>
    if s.stage.isOutside then
      (s.system.step img lib (.startAiTest data path found)).map fun t =>
        { s with system := t, stage := .reading found, listed := none, plan := [], log := [],
                 cut := false, tests := s.tests + if found then 1 else 0 }
    else none
  | .missing =>
    match s.stage with
    | .reading false =>
      (s.system.step img lib .loopEnds).map fun t => { s with system := t, stage := .outside }
    | _ => none
  | .read names =>
    match s.stage with
    | .reading true =>
      -- a folder lists each of its files once, and none without a name
      if names.Nodup ∧ ∀ name ∈ names, name ≠ [] then
        let dir := bytes s.system.module.testDataPath
        some { s with stage := .next (AiTest.entries dir names), listed := some (dir, names),
                      plan := AiTest.entries dir names }
      else none
    | _ => none
  | .processPairFile ts =>
    match s.stage with
    | .next (e :: rest) =>
      if s.system.module.running then
        (paths e).bind fun p => s.send img lib e rest ts p.1 p.2
      else none
    | _ => none
  | .insert =>
    match s.stage with
    | .storing rest =>
      (s.system.step img lib .insert).map fun t =>
        { s with system := t, stage := .sleeping rest (s.system.clock + sleepNs fps) }
    | _ => none
  | .wake =>
    match s.stage with
    | .sleeping rest wakeAt =>
      if wakeAt ≤ s.system.clock then some { s with stage := .next rest } else none
    | _ => none
  | .finish =>
    match s.stage with
    | .next rest =>
      if rest = [] ∨ ¬ s.system.module.running then
        (s.system.step img lib .loopEnds).map fun t =>
          { s with system := t, stage := .outside, cut := rest ≠ [],
                   callbacks := s.callbacks + 1 }
      else none
    | _ => none

end Step

def times (s : AiTestRun R) : List ℤ := s.log.map fun e => (e.time : ℤ)

def sentFiles (s : AiTestRun R) : List Bytes := s.log.flatMap fun e => e.entry.files

end AiTestRun

structure TestedPair.Names (e : TestedPair R) : Prop where
  fromFile : e.pair.fromFile = true
  request : ∀ req, e.request = some req → ∃ uris, uris.map bytes = e.entry.files ∧
    req = .files e.pair.transactionId uris (uris.map pathFilename)

namespace AiTestRun

/-- What holds after every run, of the last test: the pairs sent are the first entries of the
folder that it listed, in order and numbered from 0 on, no image is sent twice or sent that is not in the
folder; each test on an existing folder calls the completion callback once in the end. -/
structure Sound [Double R] (fps : R) (s : AiTestRun R) : Prop where
  folder : ∀ dir names, s.listed = some (dir, names) → s.plan = AiTest.entries dir names
  unlisted : s.listed = none → s.plan = []
  planned : s.log.map TestedPair.entry <+: s.plan
  numbered : s.log.map (fun e => e.pair.pairIndex) = List.range s.log.length
  named : ∀ e ∈ s.log, e.Names
  spaced : Spaced (sleepNs fps : ℤ) s.times
  once : s.sentFiles.Nodup
  listed : ∀ f ∈ s.sentFiles, ∃ dir names, s.listed = some (dir, names) ∧
    f ∈ AiTest.acceptedFiles dir names
  complete : s.stage.isOutside = true → s.cut = false → ∀ dir names,
    s.listed = some (dir, names) → ∀ f ∈ AiTest.acceptedFiles dir names,
      (∀ slot, AiTest.slot f = some slot →
        AiTest.last (AiTest.acceptedFiles dir names) slot = f) → f ∈ s.sentFiles
  answered : s.callbacks + s.stage.owed = s.tests

/-- What is known at each place of the loop; a pair is sent a pause after the one before. -/
def Stands [Double R] (fps : R) (s : AiTestRun R) : TestStage → Prop
  | .outside => ∃ rest, s.plan = s.log.map TestedPair.entry ++ rest ∧ (s.cut = false → rest = [])
  | .reading _ => s.log = [] ∧ s.plan = [] ∧ s.listed = none
  | .next rest => s.plan = s.log.map TestedPair.entry ++ rest ∧
      ∀ x ∈ s.times, x + sleepNs fps ≤ (s.system.clock : ℤ)
  | .storing rest => s.plan = s.log.map TestedPair.entry ++ rest ∧
      ∀ x ∈ s.times, x ≤ (s.system.clock : ℤ)
  | .sleeping rest wakeAt => s.plan = s.log.map TestedPair.entry ++ rest ∧
      ∀ x ∈ s.times, x + sleepNs fps ≤ (wakeAt : ℤ)

structure Kept [Double R] (fps : R) (s : AiTestRun R) : Prop where
  stands : s.Stands fps s.stage
  next : s.stage.isOutside = false → s.system.module.pairIndex = s.log.length
  numbered : s.log.map (fun e => e.pair.pairIndex) = List.range s.log.length
  named : ∀ e ∈ s.log, e.Names
  spaced : Spaced (sleepNs fps : ℤ) s.times
  unlisted : s.listed = none → s.plan = []
  listed : ∀ dir names, s.listed = some (dir, names) →
    s.plan = AiTest.entries dir names ∧ names.Nodup ∧ [] ∉ names
  answered : s.callbacks + s.stage.owed = s.tests

variable [Double R] {img : Imaging R} {lib : Nlohmann R} {fps : R} {s t : AiTestRun R}

theorem stands_later (h : s.Stands fps s.stage) {u : PendingSystem R}
    (hclock : s.system.clock ≤ u.clock) :
    ({ s with system := u } : AiTestRun R).Stands fps s.stage := by
  have hnow : (s.system.clock : ℤ) ≤ u.clock := Int.ofNat_le.2 hclock
  cases hstage : s.stage with
  | outside =>
    rw [hstage] at h
    exact h
  | reading found =>
    rw [hstage] at h
    exact h
  | next rest =>
    rw [hstage] at h
    exact ⟨h.1, fun x hx => (h.2 x hx).trans hnow⟩
  | storing rest =>
    rw [hstage] at h
    exact ⟨h.1, fun x hx => (h.2 x hx).trans hnow⟩
  | sleeping rest wakeAt =>
    rw [hstage] at h
    exact h

theorem kept_quiet (hs : Kept fps s) {a : PendingAction R} {u : PendingSystem R}
    (ha : a.isQuiet = true) (h : s.system.step img lib a = some u) :
    Kept fps { s with system := u } := by
  obtain ⟨m, now, rfl, hnow, -, hindex⟩ := PendingSystem.quiet_step ha h
  refine ⟨stands_later hs.stands hnow, ?_, hs.numbered, hs.named, hs.spaced, hs.unlisted,
    hs.listed, hs.answered⟩
  intro hbusy
  exact hindex.trans (hs.next hbusy)

theorem kept_outside (hs : Kept fps s) (hout : s.stage.isOutside = true) (u : PendingSystem R) :
    Kept fps { s with system := u } := by
  have hstands := hs.stands
  refine ⟨?_, ?_, hs.numbered, hs.named, hs.spaced, hs.unlisted, hs.listed, hs.answered⟩
  · change Stands fps { s with system := u } s.stage
    rw [TestStage.isOutside_iff.1 hout] at hstands ⊢
    exact hstands
  · intro hbusy
    rw [hout] at hbusy
    cases hbusy

theorem kept_started (u : PendingSystem R) {stage : TestStage} {tests callbacks : ℕ}
    (hstage : stage = .outside ∨ u.module.pairIndex = 0 ∧ ∃ found, stage = .reading found)
    (hanswered : callbacks + stage.owed = tests) :
    Kept fps { system := u, stage, tests, callbacks } := by
  refine ⟨?_, ?_, rfl, List.forall_mem_nil _, Spaced.nil, fun _ => rfl, nofun, hanswered⟩
  · rcases hstage with rfl | ⟨-, found, rfl⟩
    · exact ⟨[], rfl, fun _ => rfl⟩
    · exact ⟨rfl, rfl, rfl⟩
  · intro hbusy
    rcases hstage with rfl | ⟨hindex, -⟩
    · cases hbusy
    · exact hindex

theorem paths_bytes {e : AiTest.PairEntry} {p : String × String} (h : paths e = some p) :
    bytes p.1 = e.left ∧ bytes p.2 = e.right := by
  unfold paths at h
  cases hl : text? e.left with
  | none =>
    rw [hl] at h
    cases h
  | some l =>
    cases hr : text? e.right with
    | none =>
      rw [hl, hr] at h
      cases h
    | some r =>
      rw [hl, hr] at h
      cases h
      exact ⟨bytes_text? hl, bytes_text? hr⟩

theorem uris_bytes {e : AiTest.PairEntry} {left right : String} (hl : bytes left = e.left)
    (hr : bytes right = e.right) :
    ([left, right].filter fun p => p ≠ "").map bytes = e.files := by
  have hempty (p : String) : bytes p = [] ↔ p = "" :=
    ⟨fun h => bytes_injective (h.trans rfl), fun h => by rw [h]; rfl⟩
  have hkeep : (fun p : String => decide (p ≠ "")) = (fun b => decide (b ≠ [])) ∘ bytes := by
    funext p
    simp only [Function.comp_apply, ne_eq, hempty]
  rw [AiTest.PairEntry.files, ← hl, ← hr, hkeep, ← List.filter_map]
  rfl

theorem kept_send (hs : Kept fps s) {e : AiTest.PairEntry} {rest : List AiTest.PairEntry}
    {ts left right : String} (hstage : s.stage = .next (e :: rest)) (hl : bytes left = e.left)
    (hr : bytes right = e.right) (h : s.send img lib e rest ts left right = some t) :
    Kept fps t := by
  have hstands := hs.stands
  have hnext := hs.next (by rw [hstage]; rfl)
  have hanswered := hs.answered
  rw [hstage] at hstands hanswered
  unfold send at h
  obtain ⟨u, hu, rfl⟩ := Option.map_eq_some_iff.1 h
  simp only [PendingSystem.step] at hu
  split at hu
  · cases hu
    refine ⟨⟨?_, ?_⟩, ?_, ?_, ?_, ?_, hs.unlisted, hs.listed, hanswered⟩
    · change s.plan = (s.log ++ [_]).map TestedPair.entry ++ rest
      rw [List.map_append, List.append_assoc]
      exact hstands.1
    · intro x hx
      obtain ⟨f, hf, rfl⟩ := List.mem_map.1 hx
      change (f.time : ℤ) ≤ (s.system.clock : ℤ)
      rcases List.mem_append.1 hf with hf | hf
      · have hpause := hstands.2 f.time (List.mem_map_of_mem hf)
        omega
      · rw [List.mem_singleton.1 hf]
    · intro _
      change s.system.module.pairIndex + 1 = (s.log ++ [_]).length
      rw [hnext, List.length_append, List.length_singleton]
    · change (s.log ++ [_]).map _ = List.range (s.log ++ [_]).length
      rw [List.map_append, hs.numbered, List.length_append, List.length_singleton,
        List.range_succ, ← hnext]
      rfl
    · intro f hf
      rcases List.mem_append.1 hf with hf | hf
      · exact hs.named f hf
      · rw [List.mem_singleton.1 hf]
        refine ⟨rfl, ?_⟩
        intro req hreq
        refine ⟨[left, right].filter fun p => p ≠ "", uris_bytes hl hr, ?_⟩
        dsimp only [publishFile] at hreq
        split at hreq
        · exact (Option.some.inj hreq).symm
        · cases hreq
    · change Spaced _ ((s.log ++ [_]).map _)
      rw [List.map_append]
      exact hs.spaced.append_one (m := s.system.clock - sleepNs fps)
        (fun x hx => le_sub_iff_add_le.2 (hstands.2 x hx)) (sub_add_cancel _ _).le
  · cases hu

theorem kept_moved (hs : Kept fps s) {u : PendingSystem R} {stage : TestStage} {callbacks : ℕ}
    {cut : Bool} (hindex : u.module.pairIndex = s.system.module.pairIndex)
    (hbusy : s.stage.isOutside = false)
    (hstands : ({ s with system := u, stage, cut, callbacks } : AiTestRun R).Stands fps stage)
    (hanswered : callbacks + stage.owed = s.callbacks + s.stage.owed) :
    Kept fps { s with system := u, stage, cut, callbacks } := by
  refine ⟨hstands, ?_, hs.numbered, hs.named, hs.spaced, hs.unlisted, hs.listed, ?_⟩
  · intro _
    exact hindex.trans (hs.next hbusy)
  · exact hanswered.trans hs.answered

theorem kept_read (hs : Kept fps s) {names : List Bytes} (hstage : s.stage = .reading true)
    (hnodup : names.Nodup) (hne : [] ∉ names) (dir : Bytes) :
    Kept fps { s with stage := .next (AiTest.entries dir names), listed := some (dir, names),
                      plan := AiTest.entries dir names } := by
  have hstands := hs.stands
  have hanswered := hs.answered
  have hnext := hs.next (by rw [hstage]; rfl)
  rw [hstage] at hstands hanswered
  refine ⟨⟨?_, ?_⟩, fun _ => hnext, hs.numbered, hs.named, hs.spaced, nofun, ?_, hanswered⟩
  · rw [hstands.1]
    rfl
  · intro x hx
    obtain ⟨e, he, -⟩ := List.mem_map.1 hx
    change e ∈ s.log at he
    rw [hstands.1] at he
    cases he
  · intro dir' names' h
    cases h
    exact ⟨rfl, hnodup, hne⟩

theorem kept_step {a : TestAction R} (hs : Kept fps s) (h : s.step img lib fps a = some t) :
    Kept fps t := by
  have hstands := hs.stands
  have hanswered := hs.answered
  cases a <;> simp only [step] at h
  case act a =>
    split at h
    · rename_i hallowed
      obtain ⟨u, hu, rfl⟩ := Option.map_eq_some_iff.1 h
      by_cases hquiet : a.isQuiet = true
      · have hstarts : a.starts = false := by
          cases a <;> first | rfl | cases hquiet
        rw [hstarts]
        exact kept_quiet hs hquiet hu
      · have hout := (hallowed.resolve_left hquiet).1
        rw [TestStage.isOutside_iff.1 hout] at hanswered ⊢
        split
        · exact kept_started u (.inl rfl) hanswered
        · have hkept := kept_outside hs hout u
          rwa [TestStage.isOutside_iff.1 hout] at hkept
    · cases h
  case startAiTest data path found =>
    split at h
    · rename_i hout
      rw [TestStage.isOutside_iff.1 hout] at hanswered
      obtain ⟨u, hu, rfl⟩ := Option.map_eq_some_iff.1 h
      obtain ⟨m, hm, rfl⟩ := Option.map_eq_some_iff.1 hu
      refine kept_started _ (.inr ⟨rfl, found, rfl⟩) ?_
      rw [← hanswered]
      rfl
    · cases h
  case missing =>
    split at h
    · rename_i hstage
      rw [hstage] at hstands hanswered
      obtain ⟨u, hu, rfl⟩ := Option.map_eq_some_iff.1 h
      refine kept_moved (s := s) hs ?_ (by rw [hstage]; rfl) ⟨[], ?_, fun _ => rfl⟩ ?_
      · simp only [PendingSystem.step] at hu
        split at hu
        · cases hu
          rfl
        · cases hu
      · change s.plan = s.log.map TestedPair.entry ++ []
        rw [hstands.1, hstands.2.1]
        rfl
      · rw [hstage]
        rfl
    · cases h
  case read names =>
    split at h
    · rename_i hstage
      split at h
      · rename_i hnames
        cases h
        exact kept_read hs hstage hnames.1 (fun hmem => hnames.2 [] hmem rfl) _
      · cases h
    · cases h
  case processPairFile ts =>
    split at h
    · rename_i e rest hstage
      split at h
      · obtain ⟨p, hp, hsend⟩ := Option.bind_eq_some_iff.1 h
        obtain ⟨hl, hr⟩ := paths_bytes hp
        exact kept_send hs hstage hl hr hsend
      · cases h
    · cases h
  case insert =>
    split at h
    · rename_i rest hstage
      rw [hstage] at hstands hanswered
      obtain ⟨u, hu, rfl⟩ := Option.map_eq_some_iff.1 h
      obtain ⟨p, -, rfl⟩ := Option.map_eq_some_iff.1 hu
      refine kept_moved (s := s) hs rfl (by rw [hstage]; rfl) ⟨hstands.1, ?_⟩ ?_
      · intro x hx
        have hbefore := hstands.2 x hx
        push_cast
        omega
      · rw [hstage]
        rfl
    · cases h
  case wake =>
    split at h
    · rename_i rest wakeAt hstage
      rw [hstage] at hstands hanswered
      split at h
      · rename_i hawake
        cases h
        refine kept_moved (s := s) hs rfl (by rw [hstage]; rfl) ⟨hstands.1, ?_⟩ ?_
        · exact fun x hx => (hstands.2 x hx).trans (Int.ofNat_le.2 hawake)
        · rw [hstage]
          rfl
      · cases h
    · cases h
  case finish =>
    split at h
    · rename_i rest hstage
      rw [hstage] at hstands hanswered
      split at h
      · obtain ⟨u, hu, rfl⟩ := Option.map_eq_some_iff.1 h
        refine kept_moved (s := s) hs ?_ (by rw [hstage]; rfl) ⟨rest, hstands.1, ?_⟩ ?_
        · simp only [PendingSystem.step] at hu
          split at hu
          · cases hu
            rfl
          · cases hu
        · intro hcut
          by_contra hrest
          exact absurd (decide_eq_true hrest) (Bool.eq_false_iff.1 hcut)
        · rw [hstage]
          rfl
      · cases h
    · cases h

theorem Kept.plan_split (hs : Kept fps s) : ∃ rest,
    s.plan = s.log.map TestedPair.entry ++ rest ∧
      (s.stage.isOutside = true → s.cut = false → rest = []) := by
  have hstands := hs.stands
  cases hstage : s.stage with
  | outside =>
    rw [hstage] at hstands
    obtain ⟨rest, hplan, hrest⟩ := hstands
    exact ⟨rest, hplan, fun _ => hrest⟩
  | reading found =>
    rw [hstage] at hstands
    refine ⟨[], ?_, nofun⟩
    rw [hstands.1, hstands.2.1]
    rfl
  | next rest =>
    rw [hstage] at hstands
    exact ⟨rest, hstands.1, nofun⟩
  | storing rest =>
    rw [hstage] at hstands
    exact ⟨rest, hstands.1, nofun⟩
  | sleeping rest wakeAt =>
    rw [hstage] at hstands
    exact ⟨rest, hstands.1, nofun⟩

theorem Kept.sound (hs : Kept fps s) : Sound fps s := by
  obtain ⟨rest, hplan, hrest⟩ := hs.plan_split
  have hfiles : s.plan.flatMap AiTest.PairEntry.files =
      s.sentFiles ++ rest.flatMap AiTest.PairEntry.files := by
    rw [hplan, List.flatMap_append, List.flatMap_map]
    rfl
  have hsub : s.sentFiles.Sublist (s.plan.flatMap AiTest.PairEntry.files) := by
    rw [hfiles]
    exact List.sublist_append_left _ _
  refine ⟨fun dir names hlisted => (hs.listed dir names hlisted).1, hs.unlisted, ?_, hs.numbered,
    hs.named, hs.spaced, ?_, ?_, ?_, hs.answered⟩
  · rw [hplan]
    exact List.prefix_append _ _
  · cases hlisted : s.listed with
    | none =>
      rw [hs.unlisted hlisted] at hsub
      rw [List.sublist_nil.1 hsub]
      exact List.nodup_nil
    | some found =>
      obtain ⟨hentries, hnodup, hne⟩ := hs.listed found.1 found.2 hlisted
      rw [hentries] at hsub
      exact (AiTest.nodup_files (AiTest.acceptedFiles_ne_nil _ hne)
        (AiTest.acceptedFiles_nodup hnodup)).sublist hsub
  · intro f hf
    cases hlisted : s.listed with
    | none =>
      rw [hs.unlisted hlisted] at hsub
      rw [List.sublist_nil.1 hsub] at hf
      cases hf
    | some found =>
      obtain ⟨hentries, -, hne⟩ := hs.listed found.1 found.2 hlisted
      rw [hentries] at hsub
      exact ⟨found.1, found.2, rfl,
        ((AiTest.mem_entries (AiTest.acceptedFiles_ne_nil _ hne)).1 (hsub.subset hf)).1⟩
  · intro hout hcut dir names hlisted f hf hslot
    obtain ⟨hentries, -, hne⟩ := hs.listed dir names hlisted
    have hmem := (AiTest.mem_entries (AiTest.acceptedFiles_ne_nil dir hne)).2 ⟨hf, hslot⟩
    rw [← hentries, hfiles, hrest hout hcut] at hmem
    exact (List.append_nil s.sentFiles) ▸ hmem

def twoImages : List Bytes := [bytes "b.png", bytes "R_1.jpg", bytes "L_1.jpg"]

theorem entries_twoImages : AiTest.entries (bytes "t") twoImages =
    [⟨bytes "t/L_1.jpg", bytes "t/R_1.jpg"⟩, ⟨bytes "t/b.png", []⟩] := by
  decide +kernel

theorem paths_twoImages : paths ⟨bytes "t/L_1.jpg", bytes "t/R_1.jpg"⟩ =
      some ("t/L_1.jpg", "t/R_1.jpg") ∧ paths ⟨bytes "t/b.png", []⟩ = some ("t/b.png", "") := by
  have hempty : text? [] = some "" := text?_bytes ""
  constructor
  · simp [paths, text?_bytes]
  · simp [paths, text?_bytes, hempty]

def bothEntries : List (TestAction ℤ) :=
  [.processPairFile "a", .insert, .act (.tick 100000000), .wake, .processPairFile "b", .insert,
    .act (.tick 100000000), .wake, .finish]

end AiTestRun
end EcidsCore
