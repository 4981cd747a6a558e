import EcidsCore.PostprocessSettings
import EcidsCore.OrderStatistic

set_option autoImplicit false

/-! Where the classifier puts each cleat, and how the long and the short ones lie. -/
namespace EcidsCore
open OrderStatistic

variable {R : Type} [StereoMath R]

/-- How doubles compare: NaN is not even at most itself, and other numbers are in a total
order, in which the two zeros are alike. -/
structure Comparisons (R : Type) [StereoMath R] : Prop where
  number : ∀ x y : R, x ≤ y → x ≤ x ∧ y ≤ y
  le_trans : ∀ x y z : R, x ≤ y → y ≤ z → x ≤ z
  le_total : ∀ x y : R, x ≤ x → y ≤ y → x ≤ y ∨ y ≤ x
  lt_iff : ∀ x y : R, x < y ↔ x ≤ x ∧ y ≤ y ∧ ¬ y ≤ x
  zero : (0 : R) ≤ 0

namespace CleatClassifier

/-- Each cleat in exactly one of the two classes, and each class in the order of the list. -/
def Placed (cleats : List (Detection R)) (long short : List (ClassifiedCleat R)) : Prop :=
  ∃ isLong : Detection R → Bool, long = (cleats.filter isLong).map (makeClassified .long) ∧
    short = (cleats.filter fun det => !isLong det).map (makeClassified .short)

structure Weighted (cleats : List (Detection R)) (long short : List (ClassifiedCleat R)) :
    Prop where
  nonempty : cleats ≠ [] → long ≠ []
  half : 2 * short.length ≤ cleats.length

variable (order : Comparisons R)
include order

theorem detectionBottomY_number (det : Detection R) :
    detectionBottomY det ≤ detectionBottomY det := by
  unfold detectionBottomY
  generalize hstart : (0 : R) = start
  have hnumber : start ≤ start := hstart ▸ order.zero
  clear hstart
  induction det.coordinates generalizing start with
  | nil => exact hnumber
  | cons c rest ih =>
    rw [List.foldl_cons]
    split
    · rename_i hlt
      exact ih _ ((order.lt_iff _ _).1 hlt).2.1
    · exact ih _ hnumber

theorem detectionTopY_number (det : Detection R) : detectionTopY det ≤ detectionTopY det := by
  unfold detectionTopY
  dsimp only
  split
  · rename_i hlt
    exact ((order.lt_iff _ _).1 hlt).1
  · exact order.zero

theorem sorted_of_numbers {values : List R} (h : ∀ v ∈ values, v ≤ v) :
    (values.mergeSort fun x y => x ≤ y).Pairwise (· ≤ ·) := by
  let below : R → R → Bool := fun x y => !decide (x ≤ x) || decide (x ≤ y)
  have hbelow : ∀ x y, below x y = true ↔ (x ≤ x → x ≤ y) := by
    intro x y
    simp [below, imp_iff_not_or]
  have hsame : values.mergeSort (fun x y => decide (x ≤ y)) = values.mergeSort below := by
    have hmap := List.map_mergeSort (r := fun x y => decide (x ≤ y)) (s := below) (f := id)
      (l := values) ?_
    · simpa using hmap
    · intro a ha b _
      simp [below, h a ha]
  have htrans : ∀ x y z, below x y = true → below y z = true → below x z = true := by
    intro x y z hxy hyz
    rw [hbelow] at hxy hyz ⊢
    intro hx
    have hle := hxy hx
    exact order.le_trans x y z hle (hyz (order.number x y hle).2)
  have htotal : ∀ x y, (below x y || below y x) = true := by
    intro x y
    rw [Bool.or_eq_true, hbelow, hbelow]
    by_cases hx : x ≤ x
    · by_cases hy : y ≤ y
      · exact (order.le_total x y hx hy).imp (fun h _ => h) fun h _ => h
      · exact .inr fun hy' => absurd hy' hy
    · exact .inl fun hx' => absurd hx' hx
  rw [hsame]
  refine (List.pairwise_mergeSort htrans htotal values).imp_of_mem ?_
  intro x y hx _ hxy
  exact (hbelow x y).1 hxy (h x (List.mem_mergeSort.1 hx))

omit order in
theorem median_eq {values : List R} (h : values ≠ []) :
    (values.mergeSort fun x y => x ≤ y)[values.length / 2]? = some (median values) := by
  have hlt : values.length / 2 < (values.mergeSort fun x y => x ≤ y).length := by
    rw [List.length_mergeSort]
    exact Nat.div_lt_self (List.length_pos_iff.2 h) Nat.one_lt_two
  rw [median, List.getElem?_eq_getElem hlt]
  rfl

omit order in
theorem median_mem {values : List R} (h : values ≠ []) : median values ∈ values :=
  List.mem_mergeSort.1 (List.mem_of_getElem? (median_eq h))

theorem countP_median {values : List R} (h : ∀ v ∈ values, v ≤ v) (hne : values ≠ []) :
    values.countP (fun v => !decide (median values ≤ v)) ≤ values.length / 2 ∧
      values.countP (fun v => !decide (v ≤ median values)) ≤
        values.length - (values.length / 2 + 1) := by
  have hsorted := sorted_of_numbers order h
  have hplace := median_eq hne
  have hnumber := h _ (median_mem hne)
  have hperm := List.mergeSort_perm values fun x y => decide (x ≤ y)
  constructor
  · rw [← hperm.countP_eq]
    exact countP_le_before hsorted hplace (by simp [hnumber]) fun x hx => by simp [hx]
  · rw [← hperm.countP_eq]
    have hafter := countP_le_after hsorted hplace (p := fun v => !decide (v ≤ median values))
      (by simp [hnumber]) fun x hx => by simp [hx]
    rwa [List.length_mergeSort] at hafter

omit order in
theorem splitByMedian_placed (cleats : List (Detection R)) (useBottom : Bool) :
    Placed cleats (splitByMedian cleats useBottom).1 (splitByMedian cleats useBottom).2 :=
  ⟨_, rfl, rfl⟩

omit order in
theorem splitByMedian_short_length (cleats : List (Detection R)) (useBottom : Bool) :
    (splitByMedian cleats useBottom).2.length =
      (cleats.map fun det => if useBottom then detectionBottomY det else detectionTopY det).countP
        (fun v =>
          let mid := median (cleats.map fun det =>
            if useBottom then detectionBottomY det else detectionTopY det)
          if useBottom then !decide (mid ≤ v) else !decide (v ≤ mid)) := by
  dsimp only [splitByMedian]
  rw [List.length_map, ← List.countP_eq_length_filter, List.countP_map]
  congr 1
  funext det
  cases useBottom <;> rfl

theorem splitByMedian_weighted (cleats : List (Detection R)) (useBottom : Bool) :
    Weighted cleats (splitByMedian cleats useBottom).1 (splitByMedian cleats useBottom).2 := by
  by_cases hne : cleats = []
  · subst hne
    exact ⟨fun h => absurd rfl h, Nat.le_refl 0⟩
  have hpos : 0 < cleats.length := List.length_pos_iff.2 hne
  have hshort : 2 * (splitByMedian cleats useBottom).2.length ≤ cleats.length := by
    rw [splitByMedian_short_length]
    cases useBottom with
    | true =>
      obtain ⟨hbelow, -⟩ := countP_median order
        (show ∀ v ∈ cleats.map fun det => detectionBottomY det, v ≤ v by
          simpa using fun det _ => detectionBottomY_number order det) (by simpa using hne)
      rw [List.length_map] at hbelow
      simp only [if_true]
      omega
    | false =>
      obtain ⟨-, habove⟩ := countP_median order
        (show ∀ v ∈ cleats.map fun det => detectionTopY det, v ≤ v by
          simpa using fun det _ => detectionTopY_number order det) (by simpa using hne)
      rw [List.length_map] at habove
      simp only [Bool.false_eq_true, if_false]
      omega
  refine ⟨fun _ hlong => ?_, hshort⟩
  have hall := (splitByMedian_perm cleats useBottom).length_eq
  rw [hlong, List.nil_append, List.length_map] at hall
  omega

theorem splitByMedian_up_below (cleats : List (Detection R)) :
    ∀ long ∈ (splitByMedian cleats true).1, ∀ short ∈ (splitByMedian cleats true).2,
      short.bottomY < long.bottomY := by
  simp only [splitByMedian, if_true, List.forall_mem_map, List.mem_filter, decide_eq_true_eq,
    Bool.not_eq_true', decide_eq_false_iff_not]
  intro long hlong short hshort
  change detectionBottomY short < detectionBottomY long
  have hs := detectionBottomY_number order short
  have hl := detectionBottomY_number order long
  refine (order.lt_iff _ _).2 ⟨hs, hl, fun hle => hshort.2 ?_⟩
  exact order.le_trans _ _ _ hlong.2 hle

theorem splitByMedian_down_above (cleats : List (Detection R)) :
    ∀ long ∈ (splitByMedian cleats false).1, ∀ short ∈ (splitByMedian cleats false).2,
      long.topY < short.topY := by
  simp only [splitByMedian, Bool.false_eq_true, if_false, List.forall_mem_map, List.mem_filter,
    decide_eq_true_eq, Bool.not_eq_true', decide_eq_false_iff_not]
  intro long hlong short hshort
  change detectionTopY long < detectionTopY short
  have hs := detectionTopY_number order short
  have hl := detectionTopY_number order long
  refine (order.lt_iff _ _).2 ⟨hl, hs, fun hle => hshort.2 ?_⟩
  exact order.le_trans _ _ _ hle hlong.2

omit order in
theorem placed_all (cleats : List (Detection R)) :
    Placed cleats (cleats.map (makeClassified .long)) [] ∧
      Placed cleats [] (cleats.map (makeClassified .short)) := by
  refine ⟨⟨fun _ => true, by simp, by simp⟩, ⟨fun _ => false, by simp, by simp⟩⟩

/-- Up cleats by their lower edge, down cleats by their upper one. -/
structure Split (upCleats dnCleats : List (Detection R)) (c : CleatClassification R) : Prop where
  upApart : ∀ long ∈ c.upLong, ∀ short ∈ c.upShort, short.bottomY < long.bottomY
  dnApart : ∀ long ∈ c.dnLong, ∀ short ∈ c.dnShort, long.topY < short.topY
  upWeighted : Weighted upCleats c.upLong c.upShort
  dnWeighted : Weighted dnCleats c.dnLong c.dnShort

theorem classify_placed_split (upCleats dnCleats riserCleats : List (Detection R))
    (taskId : String) :
    let c := classify upCleats dnCleats riserCleats taskId
    Placed (if taskId = "T2" then riserCleats else upCleats) c.upLong c.upShort ∧
      Placed dnCleats c.dnLong c.dnShort ∧
      (taskId ≠ "T2" → Split upCleats dnCleats c) ∧
      (taskId = "T2" → c.upShort = [] ∧ c.dnLong = []) := by
  by_cases hT2 : taskId = "T2"
  · simp only [classify, if_pos hT2]
    exact ⟨(placed_all riserCleats).1, (placed_all dnCleats).2, fun hne => absurd hT2 hne,
      fun _ => ⟨trivial, trivial⟩⟩
  · simp only [classify, if_neg hT2]
    refine ⟨splitByMedian_placed upCleats true, splitByMedian_placed dnCleats false, fun _ => ?_,
      fun h => absurd h hT2⟩
    exact ⟨splitByMedian_up_below order upCleats, splitByMedian_down_above order dnCleats,
      splitByMedian_weighted order upCleats true, splitByMedian_weighted order dnCleats false⟩

omit [StereoMath R] order in
theorem comparisons_int : Comparisons ℤ where
  number _ _ _ := ⟨le_rfl, le_rfl⟩
  le_trans _ _ _ := le_trans
  le_total x y _ _ := le_total x y
  lt_iff _ _ := by simp
  zero := le_rfl

def cleatAt (y : ℤ) : Detection ℤ :=
  ⟨"tread_cleat_up", 1, "left.jpg", [(0, y), (4, y + 3)], "", ""⟩

omit [StereoMath R] order in
theorem classify_placed_split_three :
    Split [cleatAt 1, cleatAt 5, cleatAt 3] []
      (classify [cleatAt 1, cleatAt 5, cleatAt 3] [] [] "T1") :=
  (classify_placed_split comparisons_int [cleatAt 1, cleatAt 5, cleatAt 3] [] [] "T1").2.2.1
    (by decide)

end CleatClassifier
end EcidsCore
