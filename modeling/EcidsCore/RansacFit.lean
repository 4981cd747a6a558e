import EcidsCore.LineFit

set_option autoImplicit false

/-! Over the reals: which points the robust fit is fitted to, whatever the random device
draws. -/
namespace EcidsCore.EdgeFitter
open StereoMath

section fit
variable {R : Type} [StereoMath R]

/-- The best line, if there is one yet, is a candidate, and the count is that of its
inliers. -/
def Tallied (points : List (Point2D R)) (threshold : R) (best : FittedEdge R × ℕ) : Prop :=
  best.2 = 0 ∨ (∃ pick, candidate points pick = some best.1) ∧
    best.2 = (inliers points threshold best.1).length

variable {points : List (Point2D R)} {threshold : R}

theorem tallied_visit {best : FittedEdge R × ℕ} (h : Tallied points threshold best)
    (pick : ℕ × ℕ) : Tallied points threshold (ransacVisit points threshold best pick) := by
  cases hc : candidate points pick with
  | none => simpa only [ransacVisit, hc] using h
  | some line =>
    simp only [ransacVisit, hc]
    split
    · exact .inr ⟨⟨pick, hc⟩, rfl⟩
    · exact h

theorem tallied_foldl (picks : List (ℕ × ℕ)) {best : FittedEdge R × ℕ}
    (h : Tallied points threshold best) :
    Tallied points threshold (picks.foldl (ransacVisit points threshold) best) := by
  induction picks generalizing best with
  | nil => exact h
  | cons pick picks ih => exact ih (tallied_visit h pick)

def Consensus (points : List (Point2D R)) (threshold : R) (kept : List (Point2D R)) : Prop :=
  kept = points ∨ 2 ≤ kept.length ∧
    ∃ pick line, candidate points pick = some line ∧ kept = inliers points threshold line

/-- The branch that keeps the candidate itself is never taken. -/
theorem hybridRansacFitWithin_eq (maxIterations : ℤ) (picks : ℕ → ℕ × ℕ)
    (h : 2 ≤ points.length) : ∃ kept, Consensus points threshold kept ∧
      hybridRansacFitWithin maxIterations picks points threshold = fitLine kept := by
  have hbest : Tallied points threshold
      (((List.range (iterationBound maxIterations points.length)).map picks).foldl
        (ransacVisit points threshold) (noLine, 0)) := tallied_foldl _ (.inl rfl)
  rw [hybridRansacFitWithin, if_neg (Nat.not_lt.2 h), refit]
  dsimp only
  generalize List.foldl _ _ _ = best at *
  by_cases htwo : 2 ≤ best.2
  · rw [if_pos htwo]
    rcases hbest with hzero | ⟨⟨pick, hpick⟩, hcount⟩
    · omega
    · rw [hcount] at htwo
      rw [if_pos htwo]
      exact ⟨_, .inr ⟨htwo, pick, best.1, hpick, rfl⟩, rfl⟩
  · rw [if_neg htwo]
    exact ⟨points, .inl rfl, rfl⟩

end fit

def OnLine (line : FittedEdge ℝ) (p : Point2D ℝ) : Prop := p.y = line.slope * p.x + line.intercept

def Through (points : List (Point2D ℝ)) (line : FittedEdge ℝ) : Prop :=
  ∃ a ∈ points, ∃ b ∈ points, a.x ≠ b.x ∧ OnLine line a ∧ OnLine line b

def Near (threshold : ℝ) (line : FittedEdge ℝ) (p : Point2D ℝ) : Prop :=
  ∃ q, OnLine line q ∧ Real.sqrt ((p.x - q.x) ^ 2 + (p.y - q.y) ^ 2) < threshold

theorem candidate_some {points : List (Point2D ℝ)} {pick : ℕ × ℕ} {line : FittedEdge ℝ}
    (h : candidate points pick = some line) : line.valid = true ∧ Through points line := by
  unfold candidate at h
  split at h
  · cases h
  · split at h
    · rename_i a b ha hb
      dsimp only at h
      split at h
      · cases h
      · rename_i hsteep
        rw [abs_eq_abs] at hsteep
        have hdx : a.x - b.x ≠ 0 := by
          intro hzero
          rw [hzero, abs_zero] at hsteep
          exact hsteep (by norm_num)
        cases h
        refine ⟨rfl, a, List.mem_of_getElem? ha, b, List.mem_of_getElem? hb,
          sub_ne_zero.1 hdx, ?_, ?_⟩
        · simp [OnLine]
        · have hslope := div_mul_cancel₀ (a.y - b.y) hdx
          unfold OnLine
          dsimp only
          linarith
    · cases h

theorem pointToLineDistance_eq {line : FittedEdge ℝ} (hvalid : line.valid = true)
    (p : Point2D ℝ) : pointToLineDistance p line =
      |p.y - (line.slope * p.x + line.intercept)| / Real.sqrt (1 + line.slope ^ 2) := by
  rw [pointToLineDistance, if_neg (by simp [hvalid]), abs_eq_abs, sq]
  change _ / Real.sqrt ((1.0 : ℝ) + line.slope * line.slope) = _
  rw [show (1.0 : ℝ) = 1 by norm_num]

/-- The distance of the source is that of the nearest point of the line. -/
theorem pointToLineDistance_lt_iff {line : FittedEdge ℝ} (hvalid : line.valid = true)
    (p : Point2D ℝ) (threshold : ℝ) :
    pointToLineDistance p line < threshold ↔ Near threshold line p := by
  have hpos : 0 < 1 + line.slope ^ 2 := add_pos_of_pos_of_nonneg one_pos (sq_nonneg _)
  have hroot : 0 < Real.sqrt (1 + line.slope ^ 2) := Real.sqrt_pos.2 hpos
  have hsq : Real.sqrt (1 + line.slope ^ 2) ^ 2 = 1 + line.slope ^ 2 := Real.sq_sqrt hpos.le
  rw [pointToLineDistance_eq hvalid]
  generalize hr : p.y - (line.slope * p.x + line.intercept) = r
  have hdist : ∀ q, OnLine line q → (p.x - q.x) ^ 2 + (p.y - q.y) ^ 2 =
      ((1 + line.slope ^ 2) * (p.x - q.x) + r * line.slope) ^ 2 / (1 + line.slope ^ 2) +
        (|r| / Real.sqrt (1 + line.slope ^ 2)) ^ 2 := by
    intro q hq
    rw [div_pow, hsq, sq_abs, ← add_div, eq_div_iff hpos.ne', ← hr, hq]
    ring
  constructor
  · intro hlt
    -- the foot of the perpendicular
    let x := p.x + r * line.slope / (1 + line.slope ^ 2)
    refine ⟨⟨x, line.slope * x + line.intercept⟩, rfl, ?_⟩
    have hfoot : (1 + line.slope ^ 2) * (p.x - x) + r * line.slope = 0 := by
      change (1 + line.slope ^ 2) * (p.x - (p.x + r * line.slope / (1 + line.slope ^ 2))) + _ = 0
      field_simp
      ring
    rw [hdist ⟨x, line.slope * x + line.intercept⟩ rfl, hfoot]
    rw [zero_pow two_ne_zero, zero_div, zero_add,
      Real.sqrt_sq (div_nonneg (abs_nonneg r) hroot.le)]
    exact hlt
  · rintro ⟨q, hq, hlt⟩
    refine lt_of_le_of_lt ?_ hlt
    rw [hdist q hq]
    apply Real.le_sqrt_of_sq_le
    exact le_add_of_nonneg_left (div_nonneg (sq_nonneg _) hpos.le)

open Classical in
theorem inliers_eq {line : FittedEdge ℝ} (hvalid : line.valid = true)
    (points : List (Point2D ℝ)) (threshold : ℝ) :
    inliers points threshold line = points.filter fun p => Near threshold line p := by
  apply List.filter_congr
  intro p _
  exact decide_eq_decide.2 (pointToLineDistance_lt_iff hvalid p threshold)

theorem inliers_of_collinear {points : List (Point2D ℝ)} {m b : ℝ}
    (h : ∀ p ∈ points, p.y = m * p.x + b) {line : FittedEdge ℝ} (hvalid : line.valid = true)
    (hline : Through points line) {threshold : ℝ} (hsome : inliers points threshold line ≠ []) :
    inliers points threshold line = points := by
  obtain ⟨a, ha, c, hc, hx, hya, hyc⟩ := hline
  rw [OnLine, h a ha] at hya
  rw [OnLine, h c hc] at hyc
  have hslope : m = line.slope := by
    have hmul : (m - line.slope) * (a.x - c.x) = 0 := by linarith
    exact sub_eq_zero.1 ((mul_eq_zero.1 hmul).resolve_right (sub_ne_zero.2 hx))
  have hzero : ∀ p ∈ points, pointToLineDistance p line = 0 := by
    intro p hp
    have hintercept : b = line.intercept := by
      rw [hslope] at hya
      linarith
    rw [pointToLineDistance_eq hvalid, h p hp, hslope, hintercept, sub_self, abs_zero, zero_div]
  obtain ⟨p, hp⟩ := List.exists_mem_of_ne_nil _ hsome
  have hthreshold : 0 < threshold := by
    obtain ⟨hmem, hlt⟩ := List.mem_filter.1 hp
    rw [decide_eq_true_eq, hzero p hmem] at hlt
    exact hlt
  rw [inliers, List.filter_eq_self]
  intro q hq
  rw [hzero q hq]
  exact decide_eq_true hthreshold

open Classical in
/-- The points of a fit: the whole list, or in its order those that are nearer than the
threshold to a line through two of them. -/
def FittedTo (points : List (Point2D ℝ)) (threshold : ℝ) (kept : List (Point2D ℝ)) : Prop :=
  kept = points ∨ 2 ≤ kept.length ∧
    ∃ line, Through points line ∧ kept = points.filter fun p => Near threshold line p

theorem fittedTo_of_consensus {points kept : List (Point2D ℝ)} {threshold : ℝ}
    (h : Consensus points threshold kept) : FittedTo points threshold kept := by
  rcases h with hall | ⟨htwo, pick, line, hpick, hkept⟩
  · exact .inl hall
  · obtain ⟨hvalid, hline⟩ := candidate_some hpick
    exact .inr ⟨htwo, line, hline, hkept.trans (inliers_eq hvalid points threshold)⟩

theorem consensus_of_collinear {points kept : List (Point2D ℝ)} {threshold m b : ℝ}
    (h : ∀ p ∈ points, p.y = m * p.x + b) (hkept : Consensus points threshold kept) :
    kept = points := by
  rcases hkept with hall | ⟨htwo, pick, line, hpick, rfl⟩
  · exact hall
  · obtain ⟨hvalid, hline⟩ := candidate_some hpick
    apply inliers_of_collinear h hvalid hline
    intro hnone
    rw [hnone] at htwo
    cases htwo

/-- For every limit, every draw and every list of at least two points. -/
theorem hybridRansacFit_fitted (maxIterations : ℤ) (picks : ℕ → ℕ × ℕ)
    (points : List (Point2D ℝ)) (threshold : ℝ) (h : 2 ≤ points.length) :
    (∃ kept, FittedTo points threshold kept ∧
      hybridRansacFitWithin maxIterations picks points threshold = fitLine kept) ∧
    ∀ m b, (∀ p ∈ points, p.y = m * p.x + b) →
      hybridRansacFitWithin maxIterations picks points threshold = fitLine points := by
  obtain ⟨kept, hkept, hfit⟩ := hybridRansacFitWithin_eq maxIterations picks h
  refine ⟨⟨kept, fittedTo_of_consensus hkept, hfit⟩, ?_⟩
  intro m b hline
  rw [hfit, consensus_of_collinear hline hkept]

theorem hybridRansacFit_fitted_two_points :
    hybridRansacFitWithin 100 (fun _ => (0, 0)) [⟨0, 1⟩, ⟨1, 3⟩] (3 : ℝ) =
      fitLine [⟨0, 1⟩, ⟨1, 3⟩] := by
  refine (hybridRansacFit_fitted 100 _ [⟨0, 1⟩, ⟨1, 3⟩] 3 (by simp)).2 2 1 ?_
  norm_num

end EcidsCore.EdgeFitter
