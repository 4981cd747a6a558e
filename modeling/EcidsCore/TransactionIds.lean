import EcidsCore.PendingRuns
import EcidsCore.Timestamp

set_option autoImplicit false

/-! The transaction ids of a task. The id of a pair is the local time at which the pair
has read the system clock, so pairs of one millisecond have one id. -/
namespace EcidsCore
open GuardedRuns PreprocessModule Timestamp

variable {R : Type}

namespace PreprocessModule

def keptPending (p : PairInFlight R) (m : PreprocessModule R) : PendingTable R :=
  if p.fromFile = false ∧ 200 < m.pending.keys.length then ∅ else m.pending

structure AddsOne (now : ℕ) (p : PairInFlight R) (m : PreprocessModule R) : Prop where
  new : p.transactionId ∉ m.keptPending p
  one : (m.insertPending now p).pending.keys.length = (m.keptPending p).keys.length + 1
  others : ∀ k e, (m.keptPending p).lookup k = some e →
    (m.insertPending now p).pending.lookup k = some e

theorem insertPending_eq (now : ℕ) (p : PairInFlight R) (m : PreprocessModule R) :
    (m.insertPending now p).pending =
      (m.keptPending p).insert p.transactionId (p.entry m.subTask now) := rfl

theorem addsOne_of_not_mem {p : PairInFlight R} {m : PreprocessModule R}
    (h : p.transactionId ∉ m.pending) (now : ℕ) : AddsOne now p m := by
  have hnew : p.transactionId ∉ m.keptPending p := by
    unfold keptPending
    split
    · exact AList.notMem_empty _
    · exact h
  refine ⟨hnew, ?_, ?_⟩
  · have hkeys : p.transactionId ∉ (m.keptPending p).keys := fun hk => hnew (AList.mem_keys.2 hk)
    rw [insertPending_eq, AList.keys_insert, List.length_cons, List.erase_of_not_mem hkeys]
  · intro k e hk
    have hne : k ≠ p.transactionId := by
      rintro rfl
      rw [AList.lookup_eq_none.2 hnew] at hk
      cases hk
    rw [insertPending_eq, AList.lookup_insert_ne hne]
    exact hk

end PreprocessModule

/-- The last two fields are the system clock, and when the pairs of the task read it whose
requests are out and not answered. -/
structure IdSystem (R : Type) where
  system : PendingSystem R
  wall : ℕ := 0
  outstanding : List ℕ := []

inductive IdAction (R : Type) where
  | wait (ns : ℕ)
  | act (a : PendingAction R)

/-- A pair without a left image is dropped before it reads the clock. -/
def PendingAction.readsClock : PendingAction R → Bool
  | .publishPair _ left _ _ => left.data ≠ []
  | .publishFile .. => true
  | _ => false

namespace IdSystem
variable (localtime : ℕ → Tm)

def ids (s : IdSystem R) : List String := s.outstanding.map (nowString localtime)

/-- A response answers the pairs that have its id. One whose entry is not yet made stays,
since its entry will be made. -/
def outstandingAfter (s : IdSystem R) : PendingAction R → List ℕ
  | .deliver resp =>
    if s.system.inFlight.any fun p => p.transactionId = resp.transactionId then s.outstanding
    else s.outstanding.filter fun r => nowString localtime r ≠ resp.transactionId
  | .startInspection _ | .startAiTest .. => []
  | a => if a.readsClock then s.outstanding ++ [s.wall] else s.outstanding

def step [Double R] (img : Imaging R) (lib : Nlohmann R) (s : IdSystem R) :
    IdAction R → Option (IdSystem R)
  | .wait ns => some { s with wall := s.wall + ns }
  | .act a =>
    if ∀ id ∈ a.ids, id = nowString localtime s.wall then
      (s.system.step img lib a).map fun t =>
        { s with system := t, outstanding := s.outstandingAfter localtime a }
    else none

/-- No outstanding pair has read the clock in the local millisecond in which the next pair
reads it. -/
def FreshMillisecond (s : IdSystem R) : IdAction R → Prop
  | .wait _ => True
  | .act a => a.readsClock → ∀ r ∈ s.outstanding, nowParts localtime r ≠ nowParts localtime s.wall

instance (s : IdSystem R) (x : IdAction R) : Decidable (FreshMillisecond localtime s x) :=
  match x with
  | .wait _ => .isTrue trivial
  | .act a => inferInstanceAs (Decidable (a.readsClock → ∀ r ∈ s.outstanding, _))

/-- The ids of outstanding pairs differ, a new one is none of them, and an insertion adds
one entry. -/
structure IdsUnique (s : IdSystem R) (x : IdAction R) : Prop where
  distinct : (s.ids localtime).Nodup
  new : ∀ a, x = .act a → a.readsClock → nowString localtime s.wall ∉ s.ids localtime
  inserted : x = .act .insert → ∀ p, s.system.inFlight = some p →
    AddsOne s.system.clock p s.system.module

/-- Every entry belongs to an outstanding pair, and the pair in flight has none. -/
structure Exclusive (s : IdSystem R) : Prop where
  distinct : (s.ids localtime).Nodup
  inFlight : ∀ p, s.system.inFlight = some p → p.transactionId ∈ s.ids localtime
  pending : ∀ k e, s.system.module.pending.lookup k = some e → k ∈ s.ids localtime ∧
    ∀ p, s.system.inFlight = some p → k ≠ p.transactionId

variable {localtime : ℕ → Tm} {s t : IdSystem R}

theorem fresh_iff {a : ℕ} :
    (∀ r ∈ s.outstanding, nowParts localtime r ≠ nowParts localtime a) ↔
      nowString localtime a ∉ s.ids localtime := by
  rw [ids, List.mem_map, not_exists]
  simp only [not_and, nowString_eq_iff, ne_eq]

theorem exclusive_of_shrink (hs : Exclusive localtime s) (hout : t.outstanding = s.outstanding)
    (hf : t.system.inFlight = s.system.inFlight)
    (hp : ∀ k e, t.system.module.pending.lookup k = some e →
      s.system.module.pending.lookup k = some e) : Exclusive localtime t := by
  have hids : t.ids localtime = s.ids localtime := by rw [ids, hout, ids]
  constructor
  · rw [hids]
    exact hs.distinct
  · rw [hids, hf]
    exact hs.inFlight
  · intro k e hk
    rw [hids, hf]
    exact hs.pending k e (hp k e hk)

theorem exclusive_publish (hs : Exclusive localtime s)
    (hnew : nowString localtime s.wall ∉ s.ids localtime) {m : PreprocessModule R}
    {p : PairInFlight R} (hid : p.transactionId = nowString localtime s.wall)
    (hm : m.pending = s.system.module.pending) :
    Exclusive localtime { s with system := s.system.publish m p,
                                 outstanding := s.outstanding ++ [s.wall] } := by
  have hids : ids localtime { s with system := s.system.publish m p,
                                     outstanding := s.outstanding ++ [s.wall] } =
      s.ids localtime ++ [nowString localtime s.wall] := List.map_append
  constructor
  · rw [hids, List.nodup_append_comm, List.singleton_append, List.nodup_cons]
    exact ⟨hnew, hs.distinct⟩
  · intro q hq
    obtain rfl : p = q := Option.some.inj hq
    rw [hids, hid]
    exact List.mem_append_right _ List.mem_cons_self
  · intro k e hk
    change m.pending.lookup k = some e at hk
    rw [hm] at hk
    have hmem := (hs.pending k e hk).1
    rw [hids]
    refine ⟨List.mem_append_left _ hmem, ?_⟩
    intro q hq hkq
    obtain rfl : p = q := Option.some.inj hq
    rw [hkq, hid] at hmem
    exact hnew hmem

theorem exclusive_insert (hs : Exclusive localtime s) {p : PairInFlight R}
    (hp : s.system.inFlight = some p) {entered : List (PendingRequest R)} :
    Exclusive localtime { s with system := { s.system with
      module := s.system.module.insertPending s.system.clock p, inFlight := none,
      entered := entered } } := by
  have hnone (q : PairInFlight R) : (none : Option (PairInFlight R)) ≠ some q :=
    (Option.some_ne_none q).symm
  refine ⟨hs.distinct, fun q hq => absurd hq (hnone q), ?_⟩
  intro k e hk
  refine ⟨?_, fun q hq => absurd hq (hnone q)⟩
  rcases insertPending_lookup hk with ⟨rfl, -⟩ | hold
  · exact hs.inFlight p hp
  · exact (hs.pending k e hold).1

theorem onAiResult_answers [Double R] {lib : Nlohmann R} (now : ℕ) (resp : DetectionResponse R)
    (m : PreprocessModule R) : (m.onAiResult lib now resp).1.pending.lookup resp.transactionId = none := by
  rw [onAiResult_pending]
  by_cases hp : m.pending = ∅
  · rw [hp, takePending_empty, AList.lookup_empty]
  · obtain ⟨k, e, hk, hchosen, htake⟩ := takePending_spec now resp.transactionId hp
    rw [htake]
    change (m.pending.erase k).lookup _ = none
    rcases hchosen with rfl | ⟨habsent, -⟩
    · exact AList.lookup_erase _ _
    · have hne : resp.transactionId ≠ k := by
        rintro rfl
        rw [AList.lookup_eq_none.2 habsent] at hk
        cases hk
      rw [AList.lookup_erase_ne hne]
      exact AList.lookup_eq_none.2 habsent

theorem exclusive_deliver [Double R] {lib : Nlohmann R} (hs : Exclusive localtime s)
    (resp : DetectionResponse R) :
    Exclusive localtime { s with
      system := { s.system with module := (s.system.module.onAiResult lib s.system.clock resp).1 },
      outstanding := s.outstandingAfter localtime (.deliver resp) } := by
  by_cases hown : s.system.inFlight.any fun p => p.transactionId = resp.transactionId
  · apply exclusive_of_shrink hs
    · exact if_pos hown
    · rfl
    · intro k e hk
      exact PendingSystem.onAiResult_shrinks _ _ _ hk
  · have hout : s.outstandingAfter localtime (.deliver resp) =
        s.outstanding.filter fun r => nowString localtime r ≠ resp.transactionId := if_neg hown
    have hmem (id : String) : id ∈ (s.outstandingAfter localtime (.deliver resp)).map
        (nowString localtime) ↔ id ∈ s.ids localtime ∧ id ≠ resp.transactionId := by
      rw [hout, ids]
      simp only [List.mem_map, List.mem_filter, decide_eq_true_eq]
      constructor
      · rintro ⟨r, ⟨hr, hne⟩, rfl⟩
        exact ⟨⟨r, hr, rfl⟩, hne⟩
      · rintro ⟨⟨r, hr, rfl⟩, hne⟩
        exact ⟨r, ⟨hr, hne⟩, rfl⟩
    constructor
    · have hsub : (s.outstandingAfter localtime (.deliver resp)).Sublist s.outstanding := by
        rw [hout]
        exact List.filter_sublist
      exact List.Nodup.sublist (hsub.map _) hs.distinct
    · intro p hp
      refine (hmem _).2 ⟨hs.inFlight p hp, ?_⟩
      intro hid
      change s.system.inFlight = some p at hp
      rw [hp] at hown
      exact hown (by simpa using hid)
    · intro k e hk
      have hold := hs.pending k e (PendingSystem.onAiResult_shrinks _ _ _ hk)
      refine ⟨(hmem k).2 ⟨hold.1, ?_⟩, hold.2⟩
      rintro rfl
      rw [onAiResult_answers] at hk
      cases hk

theorem exclusive_start {start : PreprocessModule R → PreprocessModule R}
    (hempty : ∀ m, (start m).pending = ∅) {u : PendingSystem R}
    (h : s.system.startTask start = some u) :
    Exclusive localtime { s with system := u, outstanding := [] } := by
  obtain ⟨m, hj, rfl⟩ := Option.map_eq_some_iff.1 h
  refine ⟨List.nodup_nil, ?_, ?_⟩
  · intro p hp
    change s.system.inFlight = some p at hp
    rw [(PendingSystem.joined_pending hj).1] at hp
    cases hp
  · intro k e hk
    change (start m).pending.lookup k = some e at hk
    rw [hempty, AList.lookup_empty] at hk
    cases hk

theorem exclusive_stop (hs : Exclusive localtime s)
    (finish : PreprocessModule R → PreprocessModule R)
    (hsame : ∀ m, (finish m).pending = m.pending) {u : PendingSystem R}
    (h : s.system.stopTask finish = some u) (ht : t.outstanding = s.outstanding)
    (hu : t.system = u) : Exclusive localtime t := by
  obtain ⟨m, hj, rfl⟩ := Option.map_eq_some_iff.1 h
  apply exclusive_of_shrink hs ht
  · rw [hu]
  · intro k e hk
    rw [hu] at hk
    change (finish m).pending.lookup k = some e at hk
    rw [hsame, (PendingSystem.joined_pending hj).2] at hk
    exact hk

variable [Double R] {img : Imaging R} {lib : Nlohmann R} {x : IdAction R}

theorem exclusive_step (hs : Exclusive localtime s) (hfresh : FreshMillisecond localtime s x)
    (h : s.step localtime img lib x = some t) : Exclusive localtime t := by
  cases x with
  | wait ns =>
    cases h
    exact exclusive_of_shrink hs rfl rfl fun _ _ hk => hk
  | act a =>
    rw [step] at h
    split_ifs at h with hread
    obtain ⟨u, hu, rfl⟩ := Option.map_eq_some_iff.1 h
    cases a <;> simp only [PendingSystem.step] at hu
    case publishPair ts left right wd =>
      have hts : ts = nowString localtime s.wall := hread ts List.mem_cons_self
      split_ifs at hu with hidle
      by_cases hleft : left.data = []
      · rw [PreprocessModule.publishPair, if_pos hleft] at hu
        cases hu
        refine exclusive_of_shrink hs ?_ rfl (fun _ _ hk => hk)
        simp [outstandingAfter, PendingAction.readsClock, hleft]
      · have hreads : PendingAction.readsClock (.publishPair ts left right wd : PendingAction R) = true := by
          simp [PendingAction.readsClock, hleft]
        have hout : s.outstandingAfter localtime (.publishPair ts left right wd) =
            s.outstanding ++ [s.wall] := if_pos hreads
        cases hpub : s.system.module.publishPair img ts left right wd with
        | none =>
          rw [PreprocessModule.publishPair, if_neg hleft] at hpub
          cases hpub
        | some published =>
          rw [hpub] at hu
          cases hu
          rw [hout]
          exact exclusive_publish hs (fresh_iff.1 (hfresh hreads))
            ((publishPair_pair hpub).1.trans hts) (publishPair_pair hpub).2
    case publishFile ts l r =>
      split_ifs at hu with hidle
      cases hu
      exact exclusive_publish hs (fresh_iff.1 (hfresh rfl)) (hread ts List.mem_cons_self) rfl
    case insert =>
      obtain ⟨p, hp, rfl⟩ := Option.map_eq_some_iff.1 hu
      exact exclusive_insert hs hp
    case deliver resp =>
      cases hu
      exact exclusive_deliver hs resp
    case clearPending =>
      cases hu
      refine exclusive_of_shrink hs rfl rfl ?_
      intro k e hk
      cases hk
    case loopEnds =>
      split_ifs at hu with hends
      cases hu
      exact exclusive_of_shrink hs rfl rfl fun _ _ hk => hk
    case startInspection path => exact exclusive_start (fun _ => rfl) hu
    case startAiTest data path found => exact exclusive_start (fun _ => rfl) hu
    case stopInspection => exact exclusive_stop hs finishInspection (fun _ => rfl) hu rfl rfl
    case stopAiTest => exact exclusive_stop hs finishAiTest (fun _ => rfl) hu rfl rfl
    case stop => exact exclusive_stop hs id (fun _ => rfl) hu rfl rfl
    all_goals
      cases hu
      exact exclusive_of_shrink hs rfl rfl fun _ _ hk => hk

omit [Double R] in
theorem idsUnique_of_exclusive (hs : Exclusive localtime s)
    (hfresh : FreshMillisecond localtime s x) : IdsUnique localtime s x := by
  refine ⟨hs.distinct, ?_, ?_⟩
  · rintro a rfl hreads
    exact fresh_iff.1 (hfresh hreads)
  · intro _ p hp
    apply addsOne_of_not_mem
    intro hmem
    obtain ⟨e, he⟩ := Option.isSome_iff_exists.1 (AList.lookup_isSome.2 hmem)
    exact (hs.pending p.transactionId e he).2 p hp rfl

omit [Double R] in
theorem freshMillisecond_of_idsUnique (h : IdsUnique localtime s x) :
    FreshMillisecond localtime s x := by
  cases x with
  | wait ns => trivial
  | act a => exact fun hreads => fresh_iff.2 (h.new a rfl hreads)

omit [Double R] in
/-- A pair that comes at least a millisecond behind every outstanding one, on a clock of
local time that has not been put back since, reads a fresh millisecond. -/
theorem freshMillisecond_of_later {a : PendingAction R}
    (hlater : ∀ r ∈ s.outstanding, r / 10 ^ 6 < s.wall / 10 ^ 6)
    (honce : ∀ r ∈ s.outstanding, localtime (r / 10 ^ 9) = localtime (s.wall / 10 ^ 9) →
      r / 10 ^ 9 = s.wall / 10 ^ 9) : FreshMillisecond localtime s (.act a) := by
  intro _ r hr
  exact nowParts_ne (Nat.ne_of_lt (hlater r hr)) (honce r hr)

omit [Double R] in
theorem exclusive_init (m : PreprocessModule R) (hm : m.pending = ∅) (wall : ℕ) :
    Exclusive localtime { system := { module := m }, wall := wall } := by
  refine ⟨List.nodup_nil, ?_, ?_⟩
  · intro p hp
    cases hp
  · intro k e hk
    change m.pending.lookup k = some e at hk
    rw [hm, AList.lookup_empty] at hk
    cases hk

/-- Along a run the ids of outstanding pairs are unique, and every insertion adds an entry,
exactly if every pair reads a local millisecond that no outstanding pair has read. -/
theorem ids_unique_iff (localtime : ℕ → Tm) (img : Imaging R) (lib : Nlohmann R)
    {m : PreprocessModule R} (hm : m.pending = ∅) (wall : ℕ) (xs : List (IdAction R)) :
    Along (step localtime img lib) (IdsUnique localtime) { system := { module := m }, wall := wall } xs ↔
      Along (step localtime img lib) (FreshMillisecond localtime)
        { system := { module := m }, wall := wall } xs := by
  constructor
  · exact along_of_invariant (I := fun _ => True) (fun _ _ _ _ _ _ => trivial)
      (fun _ _ _ h => freshMillisecond_of_idsUnique h) trivial
  · exact along_of_invariant (fun _ _ _ hs hfresh h => exclusive_step hs hfresh h)
      (fun _ _ hs hfresh => idsUnique_of_exclusive hs hfresh) (exclusive_init m hm wall)

/-- Universal time on the first day of the epoch. -/
def firstDay (t : ℕ) : Tm where
  year := 70
  mon := 0
  mday := 1
  hour := t / 3600 % 24
  min := t / 60 % 60
  sec := t % 60
  mon_lt := by omega
  mday_le := by omega
  hour_lt := Nat.mod_lt _ (by omega)
  min_lt := Nat.mod_lt _ (by omega)
  sec_le := by omega

def pairsApart (ns : ℕ) (id : String) : List (IdAction ℤ) :=
  [.act (.startInspection "database/r"),
   .act (.publishPair "19700101-000000-000" { data := [1] } {} 0), .act .insert, .wait ns,
   .act (.publishPair id { data := [2] } {} 0), .act .insert]

theorem ids_unique_iff_apart :
    (run (step firstDay plainImaging (plainLib toString)) { system := { module := { aiMode := .binary } } }
        (pairsApart (10 ^ 6) "19700101-000000-001")).isSome ∧
      Along (step firstDay plainImaging (plainLib toString)) (IdsUnique firstDay)
        { system := { module := { aiMode := .binary } } }
        (pairsApart (10 ^ 6) "19700101-000000-001") :=
  ⟨rfl, (ids_unique_iff firstDay plainImaging (plainLib toString) rfl 0
    (pairsApart (10 ^ 6) "19700101-000000-001")).2 (by decide)⟩

/-- Within one millisecond the second insertion replaces the entry of the first pair. -/
theorem same_millisecond_counterexample :
    ∃ s, run (step firstDay plainImaging (plainLib toString))
        { system := { module := { aiMode := .binary } } } (pairsApart 999999 "19700101-000000-000") =
          some s ∧
      s.outstanding.length = 2 ∧ ¬ (s.ids firstDay).Nodup ∧
      s.system.module.pending.keys.length = 1 ∧
      (s.system.module.pending.lookup "19700101-000000-000").map (·.pairIndex) = some 1 :=
  ⟨_, rfl, by decide, by decide, by decide, by decide⟩

end IdSystem

end EcidsCore
