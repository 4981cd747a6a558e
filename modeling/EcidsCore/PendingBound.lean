import EcidsCore.TransactionIds

set_option autoImplicit false

/-! How many requests wait for a response. `process_pair_` empties a table of more than
200 entries before it inserts; `process_pair_file_` does not. -/
namespace EcidsCore
open GuardedRuns PreprocessModule

variable {R : Type}

namespace PreprocessModule

def pendingSize (m : PreprocessModule R) : ℕ := m.pending.keys.length

theorem pendingSize_insert (now : ℕ) (p : PairInFlight R) (m : PreprocessModule R) :
    (m.insertPending now p).pendingSize = (m.keptPending p).keys.length +
      if p.transactionId ∈ m.keptPending p then 0 else 1 := by
  rw [pendingSize, insertPending_eq, length_keys_insert]

theorem pendingSize_insert_pair {p : PairInFlight R} (hp : p.fromFile = false) (now : ℕ)
    (m : PreprocessModule R) : (m.insertPending now p).pendingSize ≤ 201 := by
  have hkept : (m.keptPending p).keys.length ≤ 200 := by
    unfold keptPending
    split_ifs with hfull
    · exact Nat.zero_le _
    · have hle := not_and.1 hfull hp
      omega
  rw [pendingSize_insert]
  split_ifs <;> omega

theorem pendingSize_insert_file {p : PairInFlight R} (hp : p.fromFile = true) (now : ℕ)
    (m : PreprocessModule R) : (m.insertPending now p).pendingSize =
      m.pendingSize + if p.transactionId ∈ m.pending then 0 else 1 := by
  have hkept : m.keptPending p = m.pending := by
    rw [keptPending, if_neg]
    rw [hp]
    exact fun h => absurd h.1 (by decide)
  rw [pendingSize_insert, hkept, pendingSize]

end PreprocessModule

namespace PendingSystem

def Bounded (s : PendingSystem R) : Prop := s.module.pendingSize ≤ 201

def RoomForFile (s : PendingSystem R) : PendingAction R → Prop
  | .insert => ∀ p ∈ s.inFlight, p.fromFile = true →
      p.transactionId ∉ s.module.pending → s.module.pendingSize < 201
  | _ => True

instance (s : PendingSystem R) : (a : PendingAction R) → Decidable (s.RoomForFile a)
  | .insert => inferInstanceAs (Decidable (∀ p ∈ s.inFlight, _))
  | .tick _ | .publishPair .. | .publishFile .. | .deliver _ | .setSubTask _ | .clearPending
  | .loopEnds | .halt | .startInspection _ | .startAiTest .. | .stopInspection | .stopAiTest
  | .stop => .isTrue trivial

theorem pendingSize_congr {m n : PreprocessModule R} (h : m.pending = n.pending) :
    m.pendingSize = n.pendingSize := by
  rw [pendingSize, h, pendingSize]

variable [Double R] {img : Imaging R} {lib : Nlohmann R} {s t : PendingSystem R}
  {a : PendingAction R}

theorem pendingSize_step (ha : a ≠ .insert) (h : s.step img lib a = some t) :
    t.module.pendingSize ≤ s.module.pendingSize := by
  cases effect_of_step h with
  | quiet table inFlight sent entered sentIds clock => exact table.length_keys
  | published m p ids table result =>
    rw [result]
    exact Nat.le_of_eq (pendingSize_congr table)
  | inserted p action inFlight result => exact absurd action ha
  | started table inFlight sent entered sentIds =>
    rw [pendingSize, table]
    exact Nat.zero_le _

theorem bounded_step (hs : s.Bounded) (hroom : s.RoomForFile a) (h : s.step img lib a = some t) :
    t.Bounded := by
  by_cases ha : a = .insert
  · subst ha
    obtain ⟨p, hp, rfl⟩ := Option.map_eq_some_iff.1 h
    cases hf : p.fromFile with
    | false => exact pendingSize_insert_pair hf s.clock s.module
    | true =>
      change (s.module.insertPending s.clock p).pendingSize ≤ 201
      rw [pendingSize_insert_file hf]
      split_ifs with hmem
      · exact hs
      · exact hroom p hp hf hmem
  · exact (pendingSize_step ha h).trans hs

theorem roomForFile_of_bounded (h : ∀ t, s.step img lib a = some t → t.Bounded) :
    s.RoomForFile a := by
  cases a with
  | insert =>
    intro p hp hf hmem
    have hsome : s.step img lib .insert = some _ := Option.map_eq_some_iff.2 ⟨p, hp, rfl⟩
    have hbound : (s.module.insertPending s.clock p).pendingSize ≤ 201 := h _ hsome
    rw [pendingSize_insert_file hf, if_neg hmem] at hbound
    omega
  | _ => trivial

/-- Along a run the table stays within 201 entries exactly if no pair of files needs a new
entry in a table of 201 or more. -/
theorem pending_bounded_iff (img : Imaging R) (lib : Nlohmann R) {m : PreprocessModule R}
    (hm : m.pending = ∅) (as : List (PendingAction R)) :
    Along (step img lib) (fun s a => ∀ t, s.step img lib a = some t → t.Bounded)
        { module := m } as ↔
      Along (step img lib) RoomForFile { module := m } as := by
  have hstart : Bounded ({ module := m } : PendingSystem R) := by
    change m.pending.keys.length ≤ 201
    rw [hm]
    exact Nat.zero_le _
  constructor
  · exact along_of_invariant (I := fun _ => True) (fun _ _ _ _ _ _ => trivial)
      (fun _ _ _ h => roomForFile_of_bounded h) trivial
  · exact along_of_invariant (fun _ _ _ hs hroom h => bounded_step hs hroom h)
      (fun _ _ hs hroom _ h => bounded_step hs hroom h) hstart

/-- One file after the other, each published and inserted. -/
def unanswered (ids : List String) : List (PendingAction R) :=
  ids.flatMap fun id => [.publishFile id "frames/L_1.jpg" "", .insert]

theorem unanswered_fill (img : Imaging R) (lib : Nlohmann R) {ids : List String}
    {s : PendingSystem R} (hfree : s.inFlight = none)
    (hloop : s.module.thread = some { kind := .aiTest true }) (hids : ids.Nodup)
    (hnew : ∀ id ∈ ids, id ∉ s.module.pending) :
    ∃ t, run (step img lib) s (unanswered ids) = some t ∧
      t.module.pendingSize = s.module.pendingSize + ids.length := by
  induction ids generalizing s with
  | nil => exact ⟨s, rfl, rfl⟩
  | cons id ids ih =>
    obtain ⟨hid, hids⟩ := List.nodup_cons.1 hids
    let file := s.module.publishFile img id "frames/L_1.jpg" ""
    let s1 := s.publish file.1 file.2.pair
    let s2 : PendingSystem R := { s1 with
      module := s1.module.insertPending s1.clock file.2.pair, inFlight := none,
      entered := s1.entered ++ [file.2.pair.entry s1.module.subTask s1.clock] }
    have hpublish : s.step img lib (.publishFile id "frames/L_1.jpg" "") = some s1 :=
      if_pos ⟨hfree, hloop⟩
    have hinsert : s1.step img lib .insert = some s2 := rfl
    have hfile : file.2.pair.fromFile = true := rfl
    have hsize : s2.module.pendingSize = s.module.pendingSize + 1 := by
      have h := pendingSize_insert_file hfile s1.clock file.1
      have habsent : file.2.pair.transactionId ∉ file.1.pending := hnew id List.mem_cons_self
      rw [if_neg habsent] at h
      exact h
    have hrest : ∀ k ∈ ids, k ∉ s2.module.pending := by
      intro k hk hmem
      have hkept : k ∈ s.module.pending.insert id (file.2.pair.entry s1.module.subTask s1.clock) :=
        hmem
      rcases (AList.mem_insert _).1 hkept with rfl | hold
      · exact hid hk
      · exact hnew k (List.mem_cons_of_mem id hk) hold
    obtain ⟨t, hrun, ht⟩ := ih (s := s2) rfl hloop hids hrest
    refine ⟨t, ?_, ?_⟩
    · exact run_cons_some.2 ⟨s1, hpublish, run_cons_some.2 ⟨s2, hinsert, hrun⟩⟩
    · rw [ht, hsize, List.length_cons]
      omega

end PendingSystem

namespace IdSystem
open Timestamp

/-- The id of the file number `i` of a test that sends ten files a second. -/
def frameId (i : ℕ) : String := nowString firstDay (i * 10 ^ 8)

theorem firstDay_once {a b : ℕ} (ha : a < 86400) (hb : b < 86400) (h : firstDay a = firstDay b) :
    a = b := by
  have hhour : a / 3600 % 24 = b / 3600 % 24 := congrArg Tm.hour h
  have hmin : a / 60 % 60 = b / 60 % 60 := congrArg Tm.min h
  have hsec : a % 60 = b % 60 := congrArg Tm.sec h
  omega

theorem frameId_injOn {i j : ℕ} (hi : i < 864000) (hj : j < 864000) (h : frameId i = frameId j) :
    i = j := by
  by_contra hne
  apply nowParts_ne _ _ (nowString_eq_iff.1 h)
  · omega
  · intro hday
    have hlt (k : ℕ) (hk : k < 864000) : k * 10 ^ 8 / 10 ^ 9 < 86400 := by omega
    exact firstDay_once (hlt i hi) (hlt j hj) hday

end IdSystem

namespace PendingSystem
open IdSystem

def bootSystem : PendingSystem ℤ := { module := { aiMode := .binary } }

def startFrames : PendingAction ℤ := .startAiTest "frames" "database/r" true

theorem pending_bounded_iff_threeFrames :
    Along (step plainImaging (plainLib toString))
      (fun s a => ∀ t, s.step plainImaging (plainLib toString) a = some t → t.Bounded) bootSystem
      (startFrames :: unanswered ((List.range 3).map frameId)) :=
  (pending_bounded_iff plainImaging (plainLib toString) rfl _).2 (by decide)

/-- After 202 files of one test, none of them answered, 202 requests wait. -/
theorem unanswered_counterexample :
    ∃ s, run (step plainImaging (plainLib toString)) bootSystem
        (startFrames :: unanswered ((List.range 202).map frameId)) = some s ∧
      s.module.pendingSize = 202 ∧ ¬ s.Bounded := by
  obtain ⟨s, hstart, hfree, hloop, hempty⟩ : ∃ s,
      bootSystem.step plainImaging (plainLib toString) startFrames = some s ∧ s.inFlight = none ∧
        s.module.thread = some { kind := .aiTest true } ∧ s.module.pending = ∅ :=
    ⟨_, rfl, rfl, rfl, rfl⟩
  have hids : ((List.range 202).map frameId).Nodup := by
    apply List.Nodup.map_on _ List.nodup_range
    intro i hi j hj h
    have hlt := List.mem_range.1 hi
    have hlt' := List.mem_range.1 hj
    exact frameId_injOn (by omega) (by omega) h
  have hnew : ∀ id ∈ (List.range 202).map frameId, id ∉ s.module.pending := by
    rw [hempty]
    exact fun id _ => AList.notMem_empty id
  obtain ⟨t, hrun, ht⟩ := unanswered_fill plainImaging (plainLib toString) hfree hloop hids hnew
  have hsize : t.module.pendingSize = 202 := by
    rw [ht, List.length_map, List.length_range, pendingSize, hempty]
    rfl
  refine ⟨t, run_cons_some.2 ⟨s, hstart, hrun⟩, hsize, ?_⟩
  rw [Bounded, hsize]
  decide

end PendingSystem

end EcidsCore
