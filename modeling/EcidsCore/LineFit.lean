import EcidsCore.GapPipeline
import EcidsCore.LeastSquares

set_option autoImplicit false

/-! `fit_line` over the reals is the line of least squares. -/
namespace EcidsCore.EdgeFitter
open LeastSquares

variable (points : List (Point2D ℝ))

theorem foldl_add_eq_total (f : Point2D ℝ → ℝ) :
    points.foldl (fun s p => s + f p) 0 = total points f := by
  rw [total, List.sum_eq_foldl, List.foldl_map]

def Unfit : Prop := points.length < 2 ∨ spread points Point2D.x < 1e-10

theorem fitLine_eq : (Unfit points → fitLine points = noLine) ∧
    (¬ Unfit points → fitLine points =
      ⟨slope points Point2D.x Point2D.y, intercept points Point2D.x Point2D.y, true⟩) := by
  have hdenom : StereoMath.ofNat points.length *
      points.foldl (fun s p => s + p.x * p.x) 0 -
      points.foldl (fun s p => s + p.x) 0 * points.foldl (fun s p => s + p.x) 0 =
        spread points Point2D.x := by
    rw [foldl_add_eq_total, foldl_add_eq_total, ofNat_eq_cast]
    rfl
  have hslope : (StereoMath.ofNat points.length * points.foldl (fun s p => s + p.x * p.y) 0 -
      points.foldl (fun s p => s + p.x) 0 * points.foldl (fun s p => s + p.y) 0) /
        spread points Point2D.x = slope points Point2D.x Point2D.y := by
    rw [foldl_add_eq_total, foldl_add_eq_total, foldl_add_eq_total, ofNat_eq_cast]
    rfl
  have hintercept : (points.foldl (fun s p => s + p.y) 0 -
      slope points Point2D.x Point2D.y * points.foldl (fun s p => s + p.x) 0) /
        StereoMath.ofNat points.length = intercept points Point2D.x Point2D.y := by
    rw [foldl_add_eq_total, foldl_add_eq_total, ofNat_eq_cast]
    rfl
  have habs : StereoMath.abs (spread points Point2D.x) = spread points Point2D.x := by
    rw [abs_eq_abs, abs_of_nonneg (spread_nonneg points Point2D.x)]
  unfold fitLine
  dsimp only
  rw [hdenom, habs, hslope, hintercept]
  constructor
  · rintro (hfew | hsmall)
    · rw [if_pos hfew]
    · rw [if_pos hsmall, ite_self]
  · intro hfit
    obtain ⟨hfew, hsmall⟩ := not_or.1 hfit
    rw [if_neg hfew, if_neg hsmall]

/-- The line has the smallest sum of squared vertical residuals, no other line has it, and
points on one line give that line. -/
structure BestLine (line : FittedEdge ℝ) : Prop where
  smallest : ∀ m b, residual points Point2D.x Point2D.y line.slope line.intercept ≤
    residual points Point2D.x Point2D.y m b
  only : ∀ m b, (∀ m' b', residual points Point2D.x Point2D.y m b ≤
    residual points Point2D.x Point2D.y m' b') → m = line.slope ∧ b = line.intercept
  exact : ∀ m b, (∀ p ∈ points, p.y = m * p.x + b) → line.slope = m ∧ line.intercept = b

theorem bestLine_of_spread (hs : 0 < spread points Point2D.x) : BestLine points
    ⟨slope points Point2D.x Point2D.y, intercept points Point2D.x Point2D.y, true⟩ where
  smallest _ _ := residual_le hs _ _
  only _ _ h := eq_of_residual_le hs (h _ _)
  exact _ _ h := (fit_of_collinear hs h).imp Eq.symm Eq.symm

/-- For every list of points. -/
theorem fitLine_leastSquares : 0 ≤ spread points Point2D.x ∧
    ((fitLine points).valid = false ↔ Unfit points) ∧
    ((fitLine points).valid = true → BestLine points (fitLine points)) := by
  obtain ⟨hnone, hline⟩ := fitLine_eq points
  refine ⟨spread_nonneg points Point2D.x, ?_⟩
  by_cases hfit : Unfit points
  · rw [hnone hfit]
    exact ⟨⟨fun _ => hfit, fun _ => rfl⟩, nofun⟩
  · rw [hline hfit]
    refine ⟨⟨nofun, fun h => absurd h hfit⟩, fun _ => bestLine_of_spread points ?_⟩
    have hlarge : (1e-10 : ℝ) ≤ spread points Point2D.x := not_lt.1 (not_or.1 hfit).2
    exact lt_of_lt_of_le (by norm_num) hlarge

theorem fitLine_leastSquares_two_points :
    BestLine [⟨0, 1⟩, ⟨1, 3⟩] (fitLine [⟨0, 1⟩, ⟨1, 3⟩]) := by
  refine (fitLine_leastSquares [⟨0, 1⟩, ⟨1, 3⟩]).2.2 ?_
  have hfit : ¬ Unfit [⟨0, 1⟩, ⟨1, 3⟩] := by
    norm_num [Unfit, spread]
  rw [(fitLine_eq _).2 hfit]

end EcidsCore.EdgeFitter
