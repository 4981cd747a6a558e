import EcidsCore.BoundedMarch
import EcidsCore.GapPipeline

set_option autoImplicit false

/-! Over the reals: when the walk along the perpendicular of one edge ends at the other. -/
namespace EcidsCore.GapLocalizer
open BoundedMarch

noncomputable def below (edge : FittedEdge ℝ) (p : Point2D ℝ) : ℝ :=
  p.y - (edge.slope * p.x + edge.intercept)

noncomputable def direction (line : GapLine ℝ) : Point2D ℝ :=
  ⟨(line.dnPoint.x - line.upPoint.x) / line.lengthPx,
    (line.dnPoint.y - line.upPoint.y) / line.lengthPx⟩

noncomputable def pointAt (line : GapLine ℝ) (t : ℝ) : Point2D ℝ :=
  ⟨line.upPoint.x + t * (direction line).x, line.upPoint.y + t * (direction line).y⟩

/-- The line runs along the normal of `up` from `up` to `dn`, less than a pixel beyond. -/
structure RunsBetween (up dn : FittedEdge ℝ) (line : GapLine ℝ) : Prop where
  starts : below up line.upPoint = 0
  normal : (direction line).x + up.slope * (direction line).y = 0
  downward : 0 < (direction line).y
  reaches : 0 ≤ below dn line.dnPoint
  before : below dn (pointAt line (line.lengthPx - 1)) < 0
  excess : ∃ t, below dn (pointAt line t) = 0 ∧ t ≤ line.lengthPx ∧ line.lengthPx < t + 1

noncomputable def startOf (up : FittedEdge ℝ) (cc : ClassifiedCleat ℝ) : Point2D ℝ :=
  ⟨cc.bottomMid.x, up.slope * cc.bottomMid.x + up.intercept⟩

def WithinReach (up dn : FittedEdge ℝ) (cc : ClassifiedCleat ℝ) : Prop :=
  below dn (startOf up cc) < 0 ∧
    -below dn (startOf up cc) ≤
      10000 * ((1 + up.slope * dn.slope) / Real.sqrt (1 + up.slope ^ 2))

theorem below_move (edge : FittedEdge ℝ) (p : Point2D ℝ) (t dx dy : ℝ) :
    below edge ⟨p.x + t * dx, p.y + t * dy⟩ = below edge p + t * (dy - edge.slope * dx) := by
  unfold below
  ring

theorem walk_eq (dx dy : ℝ) (edge : FittedEdge ℝ) (n : ℕ) (p : Point2D ℝ) :
    walk dx dy edge n p =
      ⟨p.x + steps (fun k => 0 ≤ below edge p + k * (dy - edge.slope * dx)) n * dx,
        p.y + steps (fun k => 0 ≤ below edge p + k * (dy - edge.slope * dx)) n * dy⟩ := by
  induction n generalizing p with
  | zero => simp [walk, steps]
  | succ n ih =>
    have hnext : below edge ⟨p.x + dx, p.y + dy⟩ = below edge p + (dy - edge.slope * dx) := by
      simpa using below_move edge p 1 dx dy
    have htest : edge.slope * (p.x + dx) + edge.intercept ≤ p.y + dy ↔
        0 ≤ below edge p + (1 : ℕ) * (dy - edge.slope * dx) := by
      rw [Nat.cast_one, one_mul, ← hnext, below, sub_nonneg]
    unfold walk steps
    dsimp only
    by_cases hone : edge.slope * (p.x + dx) + edge.intercept ≤ p.y + dy
    · rw [if_pos hone, if_pos (htest.1 hone)]
      simp
    · rw [if_neg hone, if_neg (mt htest.2 hone)]
      have hshift : steps (fun k => 0 ≤ below edge ⟨p.x + dx, p.y + dy⟩ +
            (k : ℝ) * (dy - edge.slope * dx)) n =
          steps (fun k => 0 ≤ below edge p + ((k + 1 : ℕ) : ℝ) * (dy - edge.slope * dx)) n := by
        apply steps_congr
        intro k
        rw [hnext, Nat.cast_add, Nat.cast_one, add_mul, one_mul, add_assoc, add_comm (k * _ : ℝ)]
      refine (ih _).trans ?_
      rw [hshift]
      push_cast
      rw [add_mul, add_mul, one_mul, one_mul]
      congr 1 <;> ring

noncomputable def normalOf (edge : FittedEdge ℝ) : Point2D ℝ :=
  ⟨-(edge.slope / Real.sqrt (1 + edge.slope ^ 2)), 1 / Real.sqrt (1 + edge.slope ^ 2)⟩

theorem sqrt_pos (m : ℝ) : 0 < Real.sqrt (1 + m ^ 2) :=
  Real.sqrt_pos.2 (add_pos_of_pos_of_nonneg one_pos (sq_nonneg m))

theorem normalOf_unit (edge : FittedEdge ℝ) :
    (normalOf edge).x * (normalOf edge).x + (normalOf edge).y * (normalOf edge).y = 1 := by
  have hs := sqrt_pos edge.slope
  have hsq : Real.sqrt (1 + edge.slope ^ 2) ^ 2 = 1 + edge.slope ^ 2 :=
    Real.sq_sqrt (add_nonneg zero_le_one (sq_nonneg _))
  unfold normalOf
  field_simp
  rw [hsq]
  ring

variable {up dn : FittedEdge ℝ}

/-- The source turns the angle of the slope by a right angle; that already points down. -/
theorem perpendicularToLine_eq (hup : up.valid = true) (hdn : dn.valid = true)
    (p : Point2D ℝ) :
    perpendicularToLine up dn p = walk (normalOf up).x (normalOf up).y dn 10000 p := by
  have hvalid : ¬ (up.valid = false ∨ dn.valid = false) := by simp [hup, hdn]
  have hx : Real.cos (Real.arctan up.slope + Real.pi / (2.0 : ℝ)) = (normalOf up).x := by
    rw [show (2.0 : ℝ) = 2 by norm_num, Real.cos_add_pi_div_two, Real.sin_arctan]
    rfl
  have hy : Real.sin (Real.arctan up.slope + Real.pi / (2.0 : ℝ)) = (normalOf up).y := by
    rw [show (2.0 : ℝ) = 2 by norm_num, Real.sin_add_pi_div_two, Real.cos_arctan]
    rfl
  have hdown : ¬ (normalOf up).y < 0 :=
    not_lt.2 (one_div_nonneg.2 (sqrt_pos up.slope).le)
  rw [perpendicularToLine, if_neg hvalid]
  change (if Real.sin (Real.arctan up.slope + Real.pi / (2.0 : ℝ)) < 0 then
      walk (0 - Real.cos (Real.arctan up.slope + Real.pi / (2.0 : ℝ)))
        (0 - Real.sin (Real.arctan up.slope + Real.pi / (2.0 : ℝ))) dn 10000 p
    else walk (Real.cos (Real.arctan up.slope + Real.pi / (2.0 : ℝ)))
      (Real.sin (Real.arctan up.slope + Real.pi / (2.0 : ℝ))) dn 10000 p) = _
  rw [hx, hy, if_neg hdown]

noncomputable def gain (up dn : FittedEdge ℝ) : ℝ :=
  (normalOf up).y - dn.slope * (normalOf up).x

theorem gain_eq (up dn : FittedEdge ℝ) :
    gain up dn = (1 + up.slope * dn.slope) / Real.sqrt (1 + up.slope ^ 2) := by
  unfold gain normalOf
  ring

noncomputable def stepsOf (up dn : FittedEdge ℝ) (cc : ClassifiedCleat ℝ) : ℕ :=
  steps (fun k => 0 ≤ below dn (startOf up cc) + k * gain up dn) 10000

theorem stepsOf_pos (up dn : FittedEdge ℝ) (cc : ClassifiedCleat ℝ) :
    (0 : ℝ) < stepsOf up dn cc :=
  Nat.cast_pos.2 (steps_pos _ (by decide))

structure Walked (up dn : FittedEdge ℝ) (cc : ClassifiedCleat ℝ) (line : GapLine ℝ) : Prop where
  upPoint : line.upPoint = startOf up cc
  dnX : line.dnPoint.x = line.upPoint.x + stepsOf up dn cc * (normalOf up).x
  dnY : line.dnPoint.y = line.upPoint.y + stepsOf up dn cc * (normalOf up).y
  lengthPx : line.lengthPx = stepsOf up dn cc
  valid : line.valid = true

theorem lengthOf_walk (edge : FittedEdge ℝ) (p : Point2D ℝ) {t : ℝ} (ht : 0 ≤ t) :
    lengthOf p ⟨p.x + t * (normalOf edge).x, p.y + t * (normalOf edge).y⟩ = t := by
  have hsum : (p.x + t * (normalOf edge).x - p.x) * (p.x + t * (normalOf edge).x - p.x) +
      (p.y + t * (normalOf edge).y - p.y) * (p.y + t * (normalOf edge).y - p.y) = t ^ 2 := by
    linear_combination t ^ 2 * normalOf_unit edge
  change Real.sqrt _ = t
  rw [hsum, Real.sqrt_sq ht]

theorem locateLines_walked (type : GapLineType) (hup : up.valid = true) (hdn : dn.valid = true)
    (cleats : List (ClassifiedCleat ℝ)) :
    List.Forall₂ (Walked up dn) cleats (locateLines type up dn cleats) := by
  have hvalid : ¬ (up.valid = false ∨ dn.valid = false) := by simp [hup, hdn]
  rw [locateLines, if_neg hvalid, List.forall₂_map_right_iff, List.forall₂_same]
  intro cc _
  have hend : perpendicularToLine up dn (startOf up cc) =
      ⟨(startOf up cc).x + stepsOf up dn cc * (normalOf up).x,
        (startOf up cc).y + stepsOf up dn cc * (normalOf up).y⟩ := by
    rw [perpendicularToLine_eq hup hdn, walk_eq]
    rfl
  refine ⟨rfl, congrArg Point2D.x hend, congrArg Point2D.y hend, ?_, rfl⟩
  change lengthOf (startOf up cc) (perpendicularToLine up dn (startOf up cc)) = _
  rw [hend]
  exact lengthOf_walk up _ (stepsOf_pos up dn cc).le

section Walked
variable {cc : ClassifiedCleat ℝ} {line : GapLine ℝ}

theorem Walked.direction (h : Walked up dn cc line) : direction line = normalOf up := by
  have hne : (stepsOf up dn cc : ℝ) ≠ 0 := (stepsOf_pos up dn cc).ne'
  unfold GapLocalizer.direction
  rw [h.dnX, h.dnY, h.lengthPx, add_sub_cancel_left, add_sub_cancel_left,
    mul_div_cancel_left₀ _ hne, mul_div_cancel_left₀ _ hne]

theorem Walked.below_pointAt (h : Walked up dn cc line) (t : ℝ) :
    below dn (pointAt line t) = below dn (startOf up cc) + t * gain up dn := by
  rw [pointAt, h.direction, below_move, h.upPoint, gain]

theorem Walked.below_dnPoint (h : Walked up dn cc line) :
    below dn line.dnPoint = below dn (startOf up cc) + stepsOf up dn cc * gain up dn := by
  have hend : line.dnPoint = ⟨line.upPoint.x + stepsOf up dn cc * (normalOf up).x,
      line.upPoint.y + stepsOf up dn cc * (normalOf up).y⟩ := by
    rw [← h.dnX, ← h.dnY]
  rw [hend, below_move, h.upPoint, gain]

theorem withinReach_iff : WithinReach up dn cc ↔
    below dn (startOf up cc) < 0 ∧ 0 ≤ below dn (startOf up cc) + (10000 : ℕ) * gain up dn := by
  rw [WithinReach, gain_eq, neg_le_iff_add_nonneg', Nat.cast_ofNat]

theorem Walked.runsBetween_iff (h : Walked up dn cc line) :
    RunsBetween up dn line ↔ WithinReach up dn cc := by
  have hmeets := meets_iff (below dn (startOf up cc)) (gain up dn) (n := 10000) (by decide)
  change (0 ≤ _ + (stepsOf up dn cc : ℝ) * _ ∧ _ + ((stepsOf up dn cc : ℝ) - 1) * _ < 0) ↔ _
    at hmeets
  rw [withinReach_iff, ← hmeets]
  constructor
  · intro hrun
    have hreach := hrun.reaches
    have hbefore := hrun.before
    rw [h.below_dnPoint] at hreach
    rw [h.below_pointAt, h.lengthPx] at hbefore
    exact ⟨hreach, hbefore⟩
  · rintro ⟨hreach, hbefore⟩
    have hgain : 0 < gain up dn := by linarith [sub_one_mul (stepsOf up dn cc : ℝ) (gain up dn)]
    have hunit := normalOf_unit up
    refine ⟨?_, ?_, ?_, ?_, ?_, -below dn (startOf up cc) / gain up dn, ?_, ?_, ?_⟩
    · rw [h.upPoint, below, startOf, sub_self]
    · rw [h.direction, normalOf]
      ring
    · rw [h.direction]
      exact one_div_pos.2 (sqrt_pos up.slope)
    · rw [h.below_dnPoint]
      exact hreach
    · rw [h.below_pointAt, h.lengthPx]
      exact hbefore
    · rw [h.below_pointAt, div_mul_cancel₀ _ hgain.ne']
      exact add_neg_cancel _
    · rw [h.lengthPx, div_le_iff₀ hgain]
      linarith
    · rw [h.lengthPx, ← sub_lt_iff_lt_add, lt_div_iff₀ hgain]
      linarith

end Walked

/-- For every pair of valid edges and every list of cleats. -/
theorem locate_runsBetween_iff (cleats : List (ClassifiedCleat ℝ)) (hup : up.valid = true)
    (hdn : dn.valid = true) :
    ((∀ line ∈ locateUpGapLines up dn cleats, line.valid = true → RunsBetween up dn line) ↔
      ∀ cc ∈ cleats, WithinReach up dn cc) ∧
    ((∀ line ∈ locateDownGapLines up dn cleats, line.valid = true → RunsBetween up dn line) ↔
      ∀ cc ∈ cleats, WithinReach up dn cc) := by
  have hboth (type : GapLineType) :
      (∀ line ∈ locateLines type up dn cleats, line.valid = true → RunsBetween up dn line) ↔
        ∀ cc ∈ cleats, WithinReach up dn cc := by
    have hwalked := locateLines_walked type hup hdn cleats
    generalize locateLines type up dn cleats = lines at hwalked
    induction hwalked with
    | nil => simp
    | cons h _ ih => simp only [List.forall_mem_cons, ih, h.valid, h.runsBetween_iff, true_imp_iff]
  exact ⟨hboth .upGap, hboth .downGap⟩

noncomputable def levelEdge (y : ℝ) : FittedEdge ℝ := ⟨0, y, true⟩

noncomputable def cleatAbove (x : ℝ) : ClassifiedCleat ℝ where
  detection := { labelId := "up_cleat", confidence := 1, fileName := "", coordinates := [(x, 0)] }
  type := .short
  bottomMid := ⟨x, 0⟩
  bottomY := 0
  topY := 0
  centerX := x

theorem normalOf_level (y : ℝ) : normalOf (levelEdge y) = ⟨0, 1⟩ := by
  norm_num [normalOf, levelEdge]

theorem gain_level (y z : ℝ) : gain (levelEdge y) (levelEdge z) = 1 := by
  rw [gain, normalOf_level]
  simp

theorem below_level (y z : ℝ) (cc : ClassifiedCleat ℝ) :
    below (levelEdge z) (startOf (levelEdge y) cc) = y - z := by
  simp [below, startOf, levelEdge]

theorem stepsOf_level (y : ℝ) {k : ℕ} (hpos : 0 < k) (hk : k ≤ 10000) (cc : ClassifiedCleat ℝ) :
    stepsOf (levelEdge y) (levelEdge (y + k)) cc = k := by
  refine steps_eq _ hpos hk ?_ ?_
  · rw [below_level, gain_level]
    linarith
  · intro j _ hj
    have hlt : (j : ℝ) < k := Nat.cast_lt.2 hj
    rw [below_level, gain_level]
    linarith

theorem withinReach_level {y z : ℝ} (cc : ClassifiedCleat ℝ) :
    WithinReach (levelEdge y) (levelEdge z) cc ↔ y < z ∧ z - y ≤ 10000 := by
  rw [withinReach_iff, below_level, gain_level, sub_neg, Nat.cast_ofNat, mul_one]
  exact and_congr_right fun _ => ⟨fun h => by linarith, fun h => by linarith⟩

theorem locate_runsBetween_level :
    ∃ line ∈ locateUpGapLines (levelEdge 0) (levelEdge 20) [cleatAbove 0],
      line.valid = true ∧ RunsBetween (levelEdge 0) (levelEdge 20) line := by
  have hreach : ∀ cc ∈ [cleatAbove 0], WithinReach (levelEdge 0) (levelEdge 20) cc := by
    intro cc _
    rw [withinReach_level]
    norm_num
  have hruns := (locate_runsBetween_iff [cleatAbove 0] rfl rfl).1.2 hreach
  have hwalked : List.Forall₂ (Walked (levelEdge 0) (levelEdge 20)) [cleatAbove 0]
      (locateUpGapLines (levelEdge 0) (levelEdge 20) [cleatAbove 0]) :=
    locateLines_walked .upGap rfl rfl [cleatAbove 0]
  generalize locateUpGapLines (levelEdge 0) (levelEdge 20) [cleatAbove 0] = lines at *
  cases hwalked with
  | cons h _ => exact ⟨_, List.mem_cons_self, h.valid, hruns _ List.mem_cons_self h.valid⟩

/-- Two level edges, the second one 10 pixels above the first: the walk moves down one pixel,
finds itself below the second edge and stops. -/
theorem locate_runsBetween_fails_above :
    ∃ line ∈ locateUpGapLines (levelEdge 10) (levelEdge 0) [cleatAbove 0],
      line.valid = true ∧ ¬ RunsBetween (levelEdge 10) (levelEdge 0) line := by
  have hwalked : List.Forall₂ (Walked (levelEdge 10) (levelEdge 0)) [cleatAbove 0]
      (locateUpGapLines (levelEdge 10) (levelEdge 0) [cleatAbove 0]) :=
    locateLines_walked .upGap rfl rfl [cleatAbove 0]
  cases hwalked with
  | cons h _ =>
    refine ⟨_, List.mem_cons_self, h.valid, ?_⟩
    rw [h.runsBetween_iff, withinReach_level]
    norm_num

end EcidsCore.GapLocalizer
