import EcidsCore.DataBuffer

set_option autoImplicit false

/-! The table of half-pairs that wait for their other half. A table of more than 50
pairs gives one up before the next half goes in. -/
namespace EcidsCore
open GuardedRuns

structure StereoPair where
  left : DataBundle := {}
  right : DataBundle := {}
  hasLeft : Bool := false
  hasRight : Bool := false
deriving DecidableEq, Repr

abbrev StereoPairs := AList fun _ : UInt64 => StereoPair

def StereoPair.put (part : String) (bundle : DataBundle) (pair : StereoPair) : StereoPair :=
  if part = "left" then { pair with left := bundle, hasLeft := true }
  else if part = "right" then { pair with right := bundle, hasRight := true }
  else pair

namespace StereoPairs

def size (pairs : StereoPairs) : ℕ := pairs.keys.length

/-- `first` is the key of the entry that `begin()` denotes. -/
def evict (first : UInt64) (pairs : StereoPairs) : StereoPairs :=
  if 50 < pairs.size then pairs.erase first else pairs

def putStereo (first pairId : UInt64) (part : String) (bundle : DataBundle)
    (pairs : StereoPairs) : StereoPairs :=
  let kept := pairs.evict first
  kept.insert pairId (((kept.lookup pairId).getD {}).put part bundle)

def tryGetStereoPair (pairId : UInt64) (pairs : StereoPairs) :
    Option ((DataBundle × DataBundle) × StereoPairs) :=
  match pairs.lookup pairId with
  | none => none
  | some pair =>
    if !pair.hasLeft || !pair.hasRight then none
    else some ((pair.left, pair.right), pairs.erase pairId)

/-- What `begin()` may denote for the eviction: any pair of the table. -/
def Admissible (first : UInt64) (pairs : StereoPairs) : Prop := 50 < pairs.size → first ∈ pairs

instance (first : UInt64) (pairs : StereoPairs) : Decidable (Admissible first pairs) :=
  inferInstanceAs (Decidable (_ → _))

end StereoPairs

inductive StereoAction where
  | putStereo (first pairId : UInt64) (part : String) (bundle : DataBundle)
  | tryGetStereoPair (pairId : UInt64)
  | clear
deriving DecidableEq, Repr

namespace StereoPairs

def step (pairs : StereoPairs) : StereoAction → Option StereoPairs
  | .putStereo first pairId part bundle =>
    if pairs.Admissible first then some (pairs.putStereo first pairId part bundle) else none
  | .tryGetStereoPair pairId =>
    some (match pairs.tryGetStereoPair pairId with
      | none => pairs
      | some (_, rest) => rest)
  | .clear => some ∅

/-- The two puts that complete a pair, one directly after the other; `parts` in
the order in which they arrive. -/
def putBoth (first second pairId : UInt64) (one other : String × DataBundle)
    (pairs : StereoPairs) : StereoPairs :=
  (pairs.putStereo first pairId one.1 one.2).putStereo second pairId other.1 other.2

/-- The two halves come out together, in whichever order they went in. -/
def Completes (first second pairId : UInt64) (a b : DataBundle) (pairs : StereoPairs) : Prop :=
  (((pairs.putBoth first second pairId ("left", a) ("right", b)).tryGetStereoPair pairId).map
      Prod.fst = some (a, b)) ∧
  (((pairs.putBoth first second pairId ("right", b) ("left", a)).tryGetStereoPair pairId).map
      Prod.fst = some (a, b))

instance (first second pairId : UInt64) (a b : DataBundle) (pairs : StereoPairs) :
    Decidable (Completes first second pairId a b pairs) :=
  inferInstanceAs (Decidable (_ ∧ _))

/-- The first half leaves at most fifty pairs, so the second evicts none. -/
def RoomForBoth (first pairId : UInt64) (pairs : StereoPairs) : Prop :=
  pairId ∈ pairs.evict first ∨ (pairs.evict first).size < 50

variable {first second pairId : UInt64} {pairs : StereoPairs}

theorem size_insert (k : UInt64) (pair : StereoPair) (pairs : StereoPairs) :
    size (pairs.insert k pair) = pairs.size + if k ∈ pairs then 0 else 1 :=
  length_keys_insert pairs k pair

theorem size_erase_le (k : UInt64) (pairs : StereoPairs) : size (pairs.erase k) ≤ pairs.size := by
  unfold size
  rw [AList.keys_erase]
  exact List.length_erase_le

theorem size_evict (h : pairs.Admissible first) (hsize : pairs.size ≤ 51) :
    (pairs.evict first).size ≤ 50 := by
  unfold evict
  split
  · rename_i hfull
    have hmem : first ∈ pairs.keys := AList.mem_keys.1 (h hfull)
    unfold size at hfull hsize ⊢
    rw [AList.keys_erase, List.length_erase_of_mem hmem]
    omega
  · omega

theorem size_putStereo (first pairId : UInt64) (part : String) (bundle : DataBundle)
    (pairs : StereoPairs) : (pairs.putStereo first pairId part bundle).size =
      (pairs.evict first).size + if pairId ∈ pairs.evict first then 0 else 1 :=
  size_insert pairId _ (pairs.evict first)

theorem size_tryGet {taken : DataBundle × DataBundle} {rest : StereoPairs}
    (h : pairs.tryGetStereoPair pairId = some (taken, rest)) : rest.size ≤ pairs.size := by
  unfold tryGetStereoPair at h
  split at h
  · cases h
  · split at h
    · cases h
    · cases h
      exact size_erase_le pairId pairs

theorem size_step {a : StereoAction} {t : StereoPairs} (hsize : pairs.size ≤ 51)
    (h : pairs.step a = some t) : t.size ≤ 51 := by
  cases a with
  | putStereo first pairId part bundle =>
    simp only [step] at h
    split at h
    · rename_i hfirst
      cases h
      have hkept := size_evict hfirst hsize
      rw [size_putStereo]
      split <;> omega
    · cases h
  | tryGetStereoPair pairId =>
    cases htry : pairs.tryGetStereoPair pairId with
    | none =>
      simp only [step, htry, Option.some.injEq] at h
      exact h ▸ hsize
    | some got =>
      simp only [step, htry, Option.some.injEq] at h
      exact h ▸ (size_tryGet htry).trans hsize
  | clear =>
    cases h
    exact Nat.zero_le 51

theorem size_run {as : List StereoAction} (h : run step ∅ as = some pairs) : pairs.size ≤ 51 :=
  run_preserves (I := fun pairs : StereoPairs => pairs.size ≤ 51)
    (fun _ _ _ hsize => size_step hsize) (show size ∅ ≤ 51 from Nat.zero_le 51) h

theorem evicts_again (part : String) (bundle : DataBundle) (h : pairs.Admissible first)
    (hsize : pairs.size ≤ 51) :
    50 < (pairs.putStereo first pairId part bundle).size ↔ ¬ pairs.RoomForBoth first pairId := by
  have hkept := size_evict h hsize
  unfold RoomForBoth
  rw [size_putStereo]
  by_cases hmem : pairId ∈ pairs.evict first
  · rw [if_pos hmem]
    simp only [hmem, true_or, not_true_eq_false, iff_false]
    omega
  · rw [if_neg hmem]
    simp only [hmem, false_or]
    omega

theorem lookup_evict_ne {k : UInt64} (h : first ≠ k) (pairs : StereoPairs) :
    (pairs.evict first).lookup k = pairs.lookup k := by
  unfold evict
  split
  · exact AList.lookup_erase_ne h.symm
  · rfl

theorem lookup_evict_self (h : 50 < pairs.size) : (pairs.evict first).lookup first = none := by
  unfold evict
  rw [if_pos h]
  exact AList.lookup_erase first pairs

theorem lookup_evict_of_room {k : UInt64} (h : ¬ 50 < pairs.size) :
    (pairs.evict first).lookup k = pairs.lookup k := by
  unfold evict
  rw [if_neg h]

theorem lookup_putStereo (first pairId : UInt64) (part : String) (bundle : DataBundle)
    (pairs : StereoPairs) : (pairs.putStereo first pairId part bundle).lookup pairId =
      some ((((pairs.evict first).lookup pairId).getD {}).put part bundle) :=
  AList.lookup_insert _

theorem tryGet_of_lookup {pair : StereoPair} (h : pairs.lookup pairId = some pair) :
    (pairs.tryGetStereoPair pairId).map Prod.fst =
      if !pair.hasLeft || !pair.hasRight then none else some (pair.left, pair.right) := by
  simp only [tryGetStereoPair, h]
  split <;> rfl

theorem lookup_putBoth (second : UInt64) (one other : String × DataBundle)
    (h : pairs.Admissible first) (hsize : pairs.size ≤ 51)
    (hmeet : pairs.RoomForBoth first pairId ∨ second ≠ pairId) :
    (pairs.putBoth first second pairId one other).lookup pairId = some
      (((((pairs.evict first).lookup pairId).getD {}).put one.1 one.2).put other.1 other.2) := by
  have hfirst := lookup_putStereo first pairId one.1 one.2 pairs
  have hkept : ((pairs.putStereo first pairId one.1 one.2).evict second).lookup pairId =
      (pairs.putStereo first pairId one.1 one.2).lookup pairId := by
    rcases hmeet with hroom | hne
    · exact lookup_evict_of_room (mt (evicts_again one.1 one.2 h hsize).1 (not_not.2 hroom))
    · exact lookup_evict_ne hne _
  rw [putBoth, lookup_putStereo, hkept, hfirst, Option.getD_some]

theorem lookup_putBoth_evicted (one other : String × DataBundle) (h : pairs.Admissible first)
    (hsize : pairs.size ≤ 51) (hroom : ¬ pairs.RoomForBoth first pairId) :
    (pairs.putBoth first pairId pairId one other).lookup pairId =
      some (({} : StereoPair).put other.1 other.2) := by
  rw [putBoth, lookup_putStereo,
    lookup_evict_self ((evicts_again one.1 one.2 h hsize).2 hroom), Option.getD_none]

/-- In every reachable table the two halves of a pair come out together, unless
the second one evicts the first. -/
theorem completes_iff {as : List StereoAction} (hr : run step ∅ as = some pairs) :
    pairs.size ≤ 51 ∧ ∀ (first second pairId : UInt64) (a b : DataBundle),
      pairs.Admissible first →
        (pairs.Completes first second pairId a b ↔
          pairs.RoomForBoth first pairId ∨ second ≠ pairId) := by
  have hsize := size_run hr
  refine ⟨hsize, ?_⟩
  intro first second pairId a b h
  constructor
  · intro hc
    by_contra hlost
    obtain ⟨hroom, hsame⟩ := not_or.1 hlost
    obtain rfl := not_not.1 hsame
    have hone := hc.1
    rw [tryGet_of_lookup (lookup_putBoth_evicted ("left", a) ("right", b) h hsize hroom)] at hone
    simp [StereoPair.put] at hone
  · intro hmeet
    constructor
    · rw [tryGet_of_lookup (lookup_putBoth second ("left", a) ("right", b) h hsize hmeet)]
      simp [StereoPair.put]
    · rw [tryGet_of_lookup (lookup_putBoth second ("right", b) ("left", a) h hsize hmeet)]
      simp [StereoPair.put]

def orphans (n : ℕ) : List StereoAction :=
  (List.range n).map fun i => .putStereo 0 (UInt64.ofNat i) "left" {}

theorem completes_iff_full_table : ∃ pairs, run step ∅ (orphans 51) = some pairs ∧
    50 < pairs.size ∧ Completes 3 4 55 {} { data := [1] } pairs := by
  have hfull : ∃ pairs ∈ run step ∅ (orphans 51), 50 < pairs.size ∧ pairs.Admissible 3 := by
    decide
  obtain ⟨pairs, hr, hsize, hfirst⟩ := hfull
  exact ⟨pairs, hr, hsize, ((completes_iff hr).2 3 4 55 _ _ hfirst).2 (.inr (by decide))⟩

/-- After fifty orphans a pair loses its left half to its right one, when `begin()`
denotes the pair put last. -/
theorem completes_fails_after_orphans : ∃ pairs ∈ run step ∅ (orphans 50),
    pairs.Admissible 0 ∧ (pairs.putStereo 0 55 "left" {}).Admissible 55 ∧
      ¬ pairs.Completes 0 55 55 {} {} := by
  decide

end StereoPairs
end EcidsCore
