import EcidsCore.HistoryOrder
import EcidsCore.TransactionIds
import Mathlib.Data.String.Basic

set_option autoImplicit false

/-! The order of the time stamps, and the age of the request that a response with an unknown
id takes. The keys of the outstanding requests are time stamps, and the smallest is taken. -/
namespace EcidsCore
open GuardedRuns PreprocessModule DigitOrder

variable {R : Type}

def digitChar : Digits Char 10 where
  IsDigit c := 48 ≤ c.val.toNat ∧ c.val.toNat ≤ 57
  value c := c.val.toNat - 48
  value_lt c h := by omega
  lt_iff c d hc hd := by
    rw [Char.lt_def, UInt32.lt_iff_toNat_lt]
    omega
  value_inj c d hc hd h := by
    have hval : c.val.toNat = d.val.toNat := by omega
    exact Char.ext (UInt32.toNat_inj.1 hval)

theorem digitChar_number (w n : ℕ) : digitChar.number 0 (padded w n).toList = n :=
  ofDigitChars_padded w n

theorem padded_chars_lt_iff {w n m : ℕ} (hw : 0 < w) (hn : n < 10 ^ w) (hm : m < 10 ^ w)
    (x y : List Char) :
    (padded w n).toList ++ x < (padded w m).toList ++ y ↔ n < m ∨ n = m ∧ x < y := by
  have hlen : (padded w n).toList.length = (padded w m).toList.length :=
    (padded_length hw hn).trans (padded_length hw hm).symm
  rw [append_lt_append_iff hlen, digitChar.lt_iff_number 0 padded_chars padded_chars hlen,
    digitChar_number, digitChar_number, String.toList_inj, (padded_injective w).eq_iff]

namespace TimeParts

structure Instant (t : TimeParts) : Prop extends t.Calendar where
  ms_lt : t.ms < 1000

def Before (t u : TimeParts) : Prop :=
  [t.year, t.month, t.day, t.hour, t.min, t.sec, t.ms] <
    [u.year, u.month, u.day, u.hour, u.min, u.sec, u.ms]

instance (t u : TimeParts) : Decidable (t.Before u) := inferInstanceAs (Decidable (_ < _))

/-- The text that `nowString` formats. -/
def stamp (t : TimeParts) : String :=
  padded 4 t.year ++ padded 2 t.month ++ padded 2 t.day ++ "-" ++
    padded 2 t.hour ++ padded 2 t.min ++ padded 2 t.sec ++ "-" ++ padded 3 t.ms

theorem stamp_toList (t : TimeParts) : t.stamp.toList =
    (padded 4 t.year).toList ++ ((padded 2 t.month).toList ++ ((padded 2 t.day).toList ++ '-' ::
      ((padded 2 t.hour).toList ++ ((padded 2 t.min).toList ++ ((padded 2 t.sec).toList ++ '-' ::
        ((padded 3 t.ms).toList ++ [])))))) := by
  simp only [stamp, String.toList_append, List.append_assoc, List.append_nil]
  rfl

variable {t u : TimeParts}

theorem stamp_lt_iff (ht : t.Instant) (hu : u.Instant) : t.stamp < u.stamp ↔ t.Before u := by
  have ⟨⟨hyear, hmonth, hday, hhour, hmin, hsec⟩, hms⟩ := ht
  have ⟨⟨hyear', hmonth', hday', hhour', hmin', hsec'⟩, hms'⟩ := hu
  rw [String.lt_iff_toList_lt, stamp_toList, stamp_toList,
    padded_chars_lt_iff (by omega) (by omega) (by omega),
    padded_chars_lt_iff (by omega) (by omega) (by omega),
    padded_chars_lt_iff (by omega) (by omega) (by omega), List.cons_lt_cons_self,
    padded_chars_lt_iff (by omega) (by omega) (by omega),
    padded_chars_lt_iff (by omega) (by omega) (by omega),
    padded_chars_lt_iff (by omega) (by omega) (by omega), List.cons_lt_cons_self,
    padded_chars_lt_iff (by omega) (by omega) (by omega)]
  simp only [Before, List.cons_lt_cons_iff, List.not_lt_nil]

end TimeParts

namespace Timestamp

theorem nowString_eq_stamp (localtime : ℕ → Tm) (now : ℕ) :
    nowString localtime now = (nowParts localtime now).stamp := rfl

theorem nowParts_instant (localtime : ℕ → Tm) {now : ℕ}
    (hyear : (nowParts localtime now).year < 10000) : (nowParts localtime now).Instant := by
  constructor
  · let tm := localtime (now / 10 ^ 9)
    exact ⟨hyear, tm.mon_lt, tm.mday_le, tm.hour_lt, tm.min_lt, tm.sec_le⟩
  · exact Nat.mod_lt _ (by omega)

end Timestamp

def IdAction.act? : IdAction R → Option (PendingAction R)
  | .wait _ => none
  | .act a => some a

namespace IdSystem
variable [Double R] {localtime : ℕ → Tm} {img : Imaging R} {lib : Nlohmann R} {s t : IdSystem R}
  {xs : List (IdAction R)}

theorem wall_le_of_run (h : run (step localtime img lib) s xs = some t) : s.wall ≤ t.wall := by
  refine run_preserves (I := fun u => s.wall ≤ u.wall) ?_ le_rfl h
  intro u x v hu hstep
  cases x with
  | wait ns =>
    cases hstep
    exact hu.trans (Nat.le_add_right _ _)
  | act a =>
    rw [step] at hstep
    split_ifs at hstep
    obtain ⟨w, -, rfl⟩ := Option.map_eq_some_iff.1 hstep
    exact hu

theorem run_stamped (h : run (step localtime img lib) s xs = some t)
    (hyear : ∀ now ≤ t.wall, (Timestamp.nowParts localtime now).year < 10000) :
    run (PendingSystem.step img lib) s.system (xs.filterMap IdAction.act?) = some t.system ∧
      ∀ id ∈ (xs.filterMap IdAction.act?).flatMap PendingAction.ids,
        ∃ u : TimeParts, u.Instant ∧ id = u.stamp := by
  induction xs generalizing s with
  | nil =>
    obtain rfl : s = t := Option.some.inj h
    exact ⟨rfl, List.forall_mem_nil _⟩
  | cons x xs ih =>
    have hwall : s.wall ≤ t.wall := wall_le_of_run h
    obtain ⟨v, hv, hrest⟩ := run_cons_some.1 h
    obtain ⟨hrun, hids⟩ := ih hrest
    cases x with
    | wait ns =>
      cases hv
      exact ⟨hrun, hids⟩
    | act a =>
      rw [step] at hv
      split_ifs at hv with hread
      obtain ⟨w, hw, rfl⟩ := Option.map_eq_some_iff.1 hv
      refine ⟨run_cons_some.2 ⟨w, hw, hrun⟩, ?_⟩
      intro id hid
      rcases List.mem_append.1 hid with hid | hid
      · exact ⟨_, Timestamp.nowParts_instant localtime (hyear _ hwall),
          (hread id hid).trans (Timestamp.nowString_eq_stamp localtime s.wall)⟩
      · exact hids id hid

end IdSystem

namespace PendingSystem

def StampedAt (e : PendingRequest R) (t : TimeParts) : Prop := t.Instant ∧ e.transactionId = t.stamp

/-- The local times that the insertions carry do not go back. -/
def TimesNondecreasing (es : List (PendingRequest R)) : Prop :=
  es.Pairwise fun e f => ∀ t u, StampedAt e t → StampedAt f u → ¬ u.Before t

/-- The task's insertions are logged in the order of the steady clock. -/
structure InsertedInOrder (s : PendingSystem R) : Prop where
  ordered : s.entered.Pairwise fun e f => e.createdAt ≤ f.createdAt
  past : ∀ e ∈ s.entered, e.createdAt ≤ s.clock

section Steps
variable {s t : PendingSystem R}

theorem insertedInOrder_of_same (hs : InsertedInOrder s) (hent : t.entered = s.entered)
    (hclock : s.clock ≤ t.clock) : InsertedInOrder t := by
  constructor
  · rw [hent]
    exact hs.ordered
  · rw [hent]
    exact fun e he => (hs.past e he).trans hclock

theorem insertedInOrder_of_nil (hent : t.entered = []) : InsertedInOrder t := by
  constructor
  · rw [hent]
    exact List.Pairwise.nil
  · rw [hent]
    exact List.forall_mem_nil _

theorem insertedInOrder_insert (hs : InsertedInOrder s) (m : PreprocessModule R)
    {e : PendingRequest R} (he : e.createdAt = s.clock) :
    InsertedInOrder { s with module := m, inFlight := none, entered := s.entered ++ [e] } := by
  constructor
  · apply List.pairwise_append.2
    refine ⟨hs.ordered, List.pairwise_singleton _ _, ?_⟩
    intro f hf g hg
    rw [List.mem_singleton.1 hg, he]
    exact hs.past f hf
  · intro f hf
    rcases List.mem_append.1 hf with hf | hf
    · exact hs.past f hf
    · rw [List.mem_singleton.1 hf]
      exact le_of_eq he

theorem stamped_of_tracked (hs : Tracked s)
    (hids : ∀ id ∈ s.sentIds, ∃ u : TimeParts, u.Instant ∧ id = u.stamp) {k : String}
    {e : PendingRequest R} (hk : s.module.pending.lookup k = some e) : ∃ u, StampedAt e u := by
  obtain ⟨-, hmem⟩ := hs.pending k e hk
  obtain ⟨p, hp, hentry⟩ := hs.entered e hmem
  have hid : e.transactionId = p.transactionId := by rw [hentry]; rfl
  have hsent : p.transactionId ∈ s.sentIds := hs.ids.subset (List.mem_map_of_mem hp)
  obtain ⟨u, hu, hstamp⟩ := hids _ hsent
  exact ⟨u, hu, hid.trans hstamp⟩

theorem createdAt_le_of_key_le (hs : Tracked s) (hins : InsertedInOrder s)
    (hids : ∀ id ∈ s.sentIds, ∃ u : TimeParts, u.Instant ∧ id = u.stamp)
    (htimes : TimesNondecreasing s.entered) {k j : String} {e f : PendingRequest R}
    (hk : s.module.pending.lookup k = some e) (hj : s.module.pending.lookup j = some f)
    (hkj : k ≤ j) : e.createdAt ≤ f.createdAt := by
  by_cases hef : e = f
  · rw [hef]
  obtain ⟨t, ht⟩ := stamped_of_tracked hs hids hk
  obtain ⟨u, hu⟩ := stamped_of_tracked hs hids hj
  obtain ⟨hke, he⟩ := hs.pending k e hk
  obtain ⟨hjf, hf⟩ := hs.pending j f hj
  rcases rel_of_pairwise (hins.ordered.and htimes) he hf hef with hbefore | hafter
  · exact hbefore.1
  · -- inserted behind the other, the entry has a stamp that is not smaller, hence the same key
    have hle : u.stamp ≤ t.stamp := not_lt.1 fun hlt =>
      hafter.2 u t hu ht ((TimeParts.stamp_lt_iff ht.1 hu.1).1 hlt)
    have hkeys : k = j := by
      apply le_antisymm hkj
      rw [← hke, ← hjf, ht.2, hu.2]
      exact hle
    obtain rfl : e = f := by
      rw [hkeys, hj] at hk
      exact (Option.some.inj hk).symm
    exact absurd rfl hef

variable [Double R] {img : Imaging R} {lib : Nlohmann R} {a : PendingAction R}

theorem insertedInOrder_step (hs : InsertedInOrder s) (h : s.step img lib a = some t) :
    InsertedInOrder t := by
  cases effect_of_step h with
  | quiet table inFlight sent entered sentIds clock => exact insertedInOrder_of_same hs entered clock
  | published m p ids table result =>
    rw [result]
    exact insertedInOrder_of_same hs rfl le_rfl
  | inserted p action inFlight result =>
    rw [result]
    exact insertedInOrder_insert hs _ rfl
  | started table inFlight sent entered sentIds => exact insertedInOrder_of_nil entered

/-- Where the ids are stamps and the local times of the insertions do not go back, an unknown id
takes the request that has waited longest. -/
theorem unknown_takes_oldest {m : PreprocessModule R} {as : List (PendingAction R)}
    (hm : m.pending = ∅)
    (hids : ∀ id ∈ as.flatMap PendingAction.ids, ∃ u : TimeParts, u.Instant ∧ id = u.stamp)
    (hr : run (step img lib) { module := m } as = some s) (htimes : TimesNondecreasing s.entered)
    {resp : DetectionResponse R} (hnew : resp.transactionId ∉ s.module.pending)
    (hne : s.module.pending ≠ ∅) :
    ∃ k e, s.module.pending.lookup k = some e ∧ (∀ j ∈ s.module.pending, k ≤ j) ∧
      takePending s.clock resp.transactionId s.module.pending =
        (if 30 * 10 ^ 9 < s.clock - e.createdAt then .stale else .request e,
          s.module.pending.erase k) ∧
      (s.module.onAiResult lib s.clock resp).1.pending = s.module.pending.erase k ∧
      ∀ j f, s.module.pending.lookup j = some f → e.createdAt ≤ f.createdAt := by
  have htracked : Tracked s := run_preserves (fun _ _ _ hI ht => tracked_step hI ht)
    (tracked_init hm) hr
  have hins : InsertedInOrder s := run_preserves (fun _ _ _ hI ht => insertedInOrder_step hI ht)
    (insertedInOrder_of_nil rfl) hr
  have hsent : s.sentIds.Sublist (as.flatMap PendingAction.ids) :=
    run_log_sublist sentIds (fun _ _ _ => sentIds_step) hr
  obtain ⟨k, e, hk, hchosen, htake⟩ := takePending_spec s.clock resp.transactionId hne
  have hkid : k ≠ resp.transactionId := by
    rintro rfl
    rw [AList.lookup_eq_none.2 hnew] at hk
    cases hk
  have hmin : ∀ j ∈ s.module.pending, k ≤ j := (hchosen.resolve_left hkid).2
  refine ⟨k, e, hk, hmin, ?_, ?_, ?_⟩
  · rw [htake]
    simp only [ne_eq, hkid, not_false_eq_true, true_and]
  · rw [onAiResult_pending, htake]
  · intro j f hj
    have hmem : j ∈ s.module.pending := AList.lookup_isSome.1 (by rw [hj]; rfl)
    exact createdAt_le_of_key_le htracked hins (fun x hx => hids x (hsent.subset hx)) htimes hk hj
      (hmin j hmem)

end Steps

/-- The order of the stamps is the one of the times. So where the local times of a task's
insertions do not go back, an unknown id takes the request that has waited longest. -/
theorem smallest_is_oldest [Double R] (img : Imaging R) (lib : Nlohmann R) :
    (∀ t u : TimeParts, t.Instant → u.Instant → (t.stamp < u.stamp ↔ t.Before u)) ∧
    ∀ (m : PreprocessModule R) (as : List (PendingAction R)) (s : PendingSystem R),
      m.pending = ∅ →
      (∀ id ∈ as.flatMap PendingAction.ids, ∃ t : TimeParts, t.Instant ∧ id = t.stamp) →
      run (step img lib) { module := m } as = some s → TimesNondecreasing s.entered →
      ∀ resp : DetectionResponse R, resp.transactionId ∉ s.module.pending → s.module.pending ≠ ∅ →
        ∃ k e, s.module.pending.lookup k = some e ∧ (∀ j ∈ s.module.pending, k ≤ j) ∧
          takePending s.clock resp.transactionId s.module.pending =
            (if 30 * 10 ^ 9 < s.clock - e.createdAt then .stale else .request e,
              s.module.pending.erase k) ∧
          (s.module.onAiResult lib s.clock resp).1.pending = s.module.pending.erase k ∧
          ∀ j f, s.module.pending.lookup j = some f → e.createdAt ≤ f.createdAt := by
  refine ⟨fun _ _ => TimeParts.stamp_lt_iff, ?_⟩
  intro m as s hm hids hr htimes resp hnew hne
  exact unknown_takes_oldest hm hids hr htimes hnew hne

/-- The same of ids that are read off the clock, as long as the year has four digits. -/
theorem clock_takes_oldest [Double R] {localtime : ℕ → Tm} {img : Imaging R} {lib : Nlohmann R}
    {m : PreprocessModule R} {xs : List (IdAction R)} {t : IdSystem R} (hm : m.pending = ∅)
    (hr : run (IdSystem.step localtime img lib) { system := { module := m } } xs = some t)
    (hyear : ∀ now ≤ t.wall, (Timestamp.nowParts localtime now).year < 10000)
    (htimes : TimesNondecreasing t.system.entered) {resp : DetectionResponse R}
    (hnew : resp.transactionId ∉ t.system.module.pending)
    (hne : t.system.module.pending ≠ ∅) :
    ∃ k e, t.system.module.pending.lookup k = some e ∧
      (t.system.module.onAiResult lib t.system.clock resp).1.pending =
        t.system.module.pending.erase k ∧
      ∀ j f, t.system.module.pending.lookup j = some f → e.createdAt ≤ f.createdAt := by
  obtain ⟨hrun, hids⟩ := IdSystem.run_stamped hr hyear
  obtain ⟨k, e, hk, -, -, herase, hage⟩ := unknown_takes_oldest hm hids hrun htimes hnew hne
  exact ⟨k, e, hk, herase, hage⟩

def firstTime : TimeParts := ⟨2026, 7, 2, 10, 15, 0, 250⟩
def secondTime : TimeParts := ⟨2026, 7, 2, 10, 15, 0, 350⟩

def bothPairs : List (PendingAction ℤ) := twoPairs ++ [.tick (10 ^ 8), .insert]

def bothInserted : PendingSystem ℤ :=
  (run (step plainImaging (plainLib toString)) { module := { aiMode := .binary } } bothPairs).get rfl

def foreignResponse : DetectionResponse ℤ where
  transactionId := "20260702-101459-999"
  dealerId := "d"
  results := []

theorem smallest_is_oldest_bothInserted :
    firstTime.stamp < secondTime.stamp ∧
    ∃ k e, bothInserted.module.pending.lookup k = some e ∧
      (bothInserted.module.onAiResult (plainLib toString) bothInserted.clock foreignResponse).1.pending =
        bothInserted.module.pending.erase k ∧
      ∀ j f, bothInserted.module.pending.lookup j = some f → e.createdAt ≤ f.createdAt := by
  have hfirst : firstTime.Instant :=
    ⟨⟨by decide, by decide, by decide, by decide, by decide, by decide⟩, by decide⟩
  have hsecond : secondTime.Instant :=
    ⟨⟨by decide, by decide, by decide, by decide, by decide, by decide⟩, by decide⟩
  have horder := smallest_is_oldest plainImaging (plainLib (R := ℤ) toString)
  refine ⟨(horder.1 firstTime secondTime hfirst hsecond).2 (by decide), ?_⟩
  have hids : ∀ id ∈ bothPairs.flatMap PendingAction.ids,
      ∃ t : TimeParts, t.Instant ∧ id = t.stamp := by
    intro id hid
    change id ∈ ["20260702-101500-250", "20260702-101500-350"] at hid
    rcases List.mem_pair.1 hid with rfl | rfl
    · exact ⟨firstTime, hfirst, by decide⟩
    · exact ⟨secondTime, hsecond, by decide⟩
  have hr : run (step plainImaging (plainLib toString)) { module := { aiMode := .binary } }
      bothPairs = some bothInserted := (Option.some_get _).symm
  have htimes : TimesNondecreasing bothInserted.entered := by
    apply List.pairwise_pair.2
    intro t u ht hu hbefore
    have hlt : u.stamp < t.stamp := (TimeParts.stamp_lt_iff hu.1 ht.1).2 hbefore
    rw [← ht.2, ← hu.2] at hlt
    exact absurd hlt (by decide)
  have hne : bothInserted.module.pending ≠ ∅ := by
    intro h
    exact absurd (congrArg (fun p => p.keys.length) h) (by decide)
  obtain ⟨k, e, hk, -, -, herase, holdest⟩ := horder.2 { aiMode := .binary } _ bothInserted rfl
    hids hr htimes foreignResponse (by decide) hne
  exact ⟨k, e, hk, herase, holdest⟩

end PendingSystem

end EcidsCore
