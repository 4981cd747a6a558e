import EcidsCore.RansacFit
import EcidsCore.SteppedLoop

set_option autoImplicit false

/-! The points that are put in where an edge has gaps, over the reals: every position of the
grid has a point afterwards, and a second run puts in none. -/
namespace EcidsCore.EdgeFitter
open StereoMath SteppedLoop

section Model
variable {R : Type} [StereoMath R]

def pointFound (existing : List (Point2D R)) (expectedSpacing x : R) : Bool :=
  let sortedPts := existing.mergeSort fun a b => ¬ b.x < a.x
  sortedPts.any fun p => StereoMath.abs (p.x - x) < expectedSpacing * 0.3

def missingPoint (referenceLine : FittedEdge R) (x : R) : Point2D R where
  x := x
  y := referenceLine.slope * x + referenceLine.intercept

def estimateMissingPoints (fuel : ℕ) (existing : List (Point2D R))
    (expectedSpacing xStart xEnd : R) (referenceLine : FittedEdge R) :
    Option (List (Point2D R)) :=
  if ¬ referenceLine.valid ∨ expectedSpacing ≤ 0 then some existing
  else
    loop (fun result x =>
        if pointFound existing expectedSpacing x then result
        else result ++ [missingPoint referenceLine x])
      expectedSpacing xEnd fuel xStart existing

end Model

def HasPointAt (points : List (Point2D ℝ)) (spacing x : ℝ) : Prop :=
  ∃ p ∈ points, |p.x - x| < spacing * 0.3

section Filling
variable {existing : List (Point2D ℝ)} {spacing xStart xEnd : ℝ} {line : FittedEdge ℝ}

theorem pointFound_iff {x : ℝ} :
    pointFound existing spacing x = true ↔ HasPointAt existing spacing x := by
  simp only [pointFound, List.any_eq_true, List.mem_mergeSort, decide_eq_true_eq, abs_eq_abs]
  rfl

theorem hasPointAt_self (hpos : 0 < spacing) {p : Point2D ℝ} {points : List (Point2D ℝ)}
    (hp : p ∈ points) : HasPointAt points spacing p.x := by
  refine ⟨p, hp, ?_⟩
  rw [sub_self, abs_zero]
  exact mul_pos hpos (by norm_num)

/-- What the loop puts in at `n` positions of the grid. -/
noncomputable def addedPoints (existing : List (Point2D ℝ)) (spacing xStart : ℝ)
    (line : FittedEdge ℝ) (n : ℕ) : List (Point2D ℝ) :=
  (((List.range n).map (position xStart spacing)).filter fun x =>
    !pointFound existing spacing x).map (missingPoint line)

theorem estimateMissingPoints_eq (hvalid : line.valid = true) (hpos : 0 < spacing) {n : ℕ}
    (hcount : ∀ k, position xStart spacing k ≤ xEnd ↔ k < n) {fuel : ℕ} (hfuel : n < fuel) :
    estimateMissingPoints fuel existing spacing xStart xEnd line =
      some (existing ++ addedPoints existing spacing xStart line n) := by
  have hrun : ¬ (¬ line.valid ∨ spacing ≤ 0) := not_or.2 ⟨not_not.2 hvalid, not_le.2 hpos⟩
  rw [estimateMissingPoints, if_neg hrun, loop_eq _ hcount hfuel, foldl_fill]
  rfl

theorem mem_addedPoints {n : ℕ} {p : Point2D ℝ} :
    p ∈ addedPoints existing spacing xStart line n ↔
      ∃ k < n, ¬ HasPointAt existing spacing (position xStart spacing k) ∧
        missingPoint line (position xStart spacing k) = p := by
  simp only [addedPoints, List.mem_map, List.mem_filter, List.mem_range, Bool.not_eq_true',
    ← Bool.not_eq_true, pointFound_iff]
  constructor
  · rintro ⟨x, ⟨⟨k, hk, rfl⟩, hfree⟩, hp⟩
    exact ⟨k, hk, hfree, hp⟩
  · rintro ⟨k, hk, hfree, hp⟩
    exact ⟨_, ⟨⟨k, hk, rfl⟩, hfree⟩, hp⟩

/-- The new points lie on the line, at free positions of the grid and in its order, and with
them no position is free. -/
structure Filled (existing : List (Point2D ℝ)) (spacing xStart xEnd : ℝ) (line : FittedEdge ℝ)
    (added : List (Point2D ℝ)) : Prop where
  grid : ∀ p ∈ added, ∃ k : ℕ, p.x = xStart + k * spacing
  bounded : ∀ p ∈ added, p.x ≤ xEnd
  onLine : ∀ p ∈ added, OnLine line p
  free : ∀ p ∈ added, ∀ q ∈ existing, ¬ |q.x - p.x| < spacing * 0.3
  ascending : added.Pairwise fun p q => p.x < q.x
  covered : ∀ k : ℕ, xStart + k * spacing ≤ xEnd →
    ∃ p ∈ existing ++ added, |p.x - (xStart + k * spacing)| < spacing * 0.3

theorem addedPoints_ascending (hpos : 0 < spacing) (n : ℕ) :
    (addedPoints existing spacing xStart line n).Pairwise fun p q => p.x < q.x := by
  have hgrid : ((List.range n).map (position xStart spacing)).Pairwise (· < ·) :=
    List.Pairwise.map _ (fun _ _ h => position_lt_position xStart hpos h) List.pairwise_lt_range
  exact List.Pairwise.map _ (fun _ _ h => h) (hgrid.filter _)

theorem hasPointAt_filled (hpos : 0 < spacing) {n k : ℕ} (hk : k < n) :
    HasPointAt (existing ++ addedPoints existing spacing xStart line n) spacing
      (position xStart spacing k) := by
  by_cases hfree : HasPointAt existing spacing (position xStart spacing k)
  · obtain ⟨p, hp, hnear⟩ := hfree
    exact ⟨p, List.mem_append_left _ hp, hnear⟩
  · have hnew : missingPoint line (position xStart spacing k) ∈
        addedPoints existing spacing xStart line n := mem_addedPoints.2 ⟨k, hk, hfree, rfl⟩
    exact hasPointAt_self hpos (List.mem_append_right _ hnew)

theorem filled_addedPoints (hpos : 0 < spacing) {n : ℕ}
    (hcount : ∀ k, position xStart spacing k ≤ xEnd ↔ k < n) :
    Filled existing spacing xStart xEnd line (addedPoints existing spacing xStart line n) := by
  constructor
  · intro p hp
    obtain ⟨k, -, -, rfl⟩ := mem_addedPoints.1 hp
    exact ⟨k, rfl⟩
  · intro p hp
    obtain ⟨k, hk, -, rfl⟩ := mem_addedPoints.1 hp
    exact (hcount k).2 hk
  · intro p hp
    obtain ⟨k, -, -, rfl⟩ := mem_addedPoints.1 hp
    rfl
  · intro p hp q hq hnear
    obtain ⟨k, -, hfree, rfl⟩ := mem_addedPoints.1 hp
    exact hfree ⟨q, hq, hnear⟩
  · exact addedPoints_ascending hpos n
  · intro k hk
    exact hasPointAt_filled hpos ((hcount k).1 hk)

theorem addedPoints_nil {n : ℕ}
    (h : ∀ k < n, HasPointAt existing spacing (position xStart spacing k)) :
    addedPoints existing spacing xStart line n = [] := by
  apply List.eq_nil_iff_forall_not_mem.2
  intro p hp
  obtain ⟨k, hk, hfree, -⟩ := mem_addedPoints.1 hp
  exact hfree (h k hk)

end Filling

/-- The function terminates, fills the grid behind the existing points, and is idempotent. -/
theorem missing_points_filled (existing : List (Point2D ℝ)) {spacing : ℝ} (xStart xEnd : ℝ)
    {line : FittedEdge ℝ} (hvalid : line.valid = true) (hpos : 0 < spacing) :
    ∃ added, Filled existing spacing xStart xEnd line added ∧ ∃ n, ∀ fuel, n < fuel →
      estimateMissingPoints fuel existing spacing xStart xEnd line = some (existing ++ added) ∧
      estimateMissingPoints fuel (existing ++ added) spacing xStart xEnd line =
        some (existing ++ added) := by
  obtain ⟨n, hcount⟩ := exists_count xStart xEnd hpos
  refine ⟨addedPoints existing spacing xStart line n, filled_addedPoints hpos hcount, n, ?_⟩
  intro fuel hfuel
  refine ⟨estimateMissingPoints_eq hvalid hpos hcount hfuel, ?_⟩
  have hsecond : addedPoints (existing ++ addedPoints existing spacing xStart line n) spacing
      xStart line n = [] := addedPoints_nil fun _ hk => hasPointAt_filled hpos hk
  rw [estimateMissingPoints_eq hvalid hpos hcount hfuel, hsecond, List.append_nil]

theorem missing_points_filled_between :
    ∃ added, Filled [⟨0, 5⟩, ⟨2, 5⟩] 1 0 2 ⟨0, 5, true⟩ added ∧ ∃ n, ∀ fuel, n < fuel →
      estimateMissingPoints fuel [⟨0, 5⟩, ⟨2, 5⟩] 1 0 2 ⟨0, 5, true⟩ =
        some ([⟨0, 5⟩, ⟨2, 5⟩] ++ added) ∧
      estimateMissingPoints fuel ([⟨0, 5⟩, ⟨2, 5⟩] ++ added) 1 0 2 ⟨0, 5, true⟩ =
        some ([⟨0, 5⟩, ⟨2, 5⟩] ++ added) :=
  missing_points_filled [⟨0, 5⟩, ⟨2, 5⟩] 0 2 rfl one_pos

end EcidsCore.EdgeFitter
