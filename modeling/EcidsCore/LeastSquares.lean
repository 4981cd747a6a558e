import Mathlib.Algebra.BigOperators.Group.List.Basic
import Mathlib.Algebra.Order.BigOperators.Group.List
import Mathlib.Algebra.Order.Field.Basic
import Mathlib.Tactic.Linarith
import Mathlib.Tactic.LinearCombination
import Mathlib.Tactic.Ring

set_option autoImplicit false

/-! The line of least squares through finitely many points: its normal equations, that it
alone has the smallest sum of squared residuals, and when it exists. -/
namespace LeastSquares

variable {α K : Type*} [Field K]

def total (l : List α) (f : α → K) : K := (l.map f).sum

/-- The sum of the squared vertical residuals of the line with slope `m` and intercept `b`. -/
def residual (l : List α) (x y : α → K) (m b : K) : K := total l fun p => (y p - (m * x p + b)) ^ 2

def spread (l : List α) (x : α → K) : K :=
  l.length * total l (fun p => x p * x p) - total l x * total l x

def slope (l : List α) (x y : α → K) : K :=
  (l.length * total l (fun p => x p * y p) - total l x * total l y) / spread l x

def intercept (l : List α) (x y : α → K) : K := (total l y - slope l x y * total l x) / l.length

variable {l : List α} {x y : α → K}

@[simp] theorem total_nil (f : α → K) : total [] f = 0 := rfl

@[simp] theorem total_cons (p : α) (l : List α) (f : α → K) :
    total (p :: l) f = f p + total l f := by
  simp [total]

theorem total_affine_sq (l : List α) (x : α → K) (u v : K) :
    total l (fun p => (u * x p + v) ^ 2) =
      u ^ 2 * total l (fun p => x p * x p) + 2 * u * v * total l x + l.length * v ^ 2 := by
  induction l with
  | nil => simp
  | cons p l ih =>
    simp only [total_cons, List.length_cons, Nat.cast_add, Nat.cast_one, ih]
    ring

theorem residual_shift (l : List α) (x y : α → K) (m b u v : K) :
    residual l x y (m + u) (b + v) = residual l x y m b + total l (fun p => (u * x p + v) ^ 2) -
      2 * (u * (total l (fun p => x p * y p) - m * total l (fun p => x p * x p) - b * total l x) +
        v * (total l y - m * total l x - l.length * b)) := by
  unfold residual
  induction l with
  | nil => simp
  | cons p l ih =>
    simp only [total_cons, List.length_cons, Nat.cast_add, Nat.cast_one, ih]
    ring

theorem normal_equations (hn : (l.length : K) ≠ 0) (hs : spread l x ≠ 0) :
    total l (fun p => x p * y p) - slope l x y * total l (fun p => x p * x p) -
        intercept l x y * total l x = 0 ∧
      total l y - slope l x y * total l x - l.length * intercept l x y = 0 := by
  have hb : l.length * intercept l x y = total l y - slope l x y * total l x :=
    mul_div_cancel₀ _ hn
  have hm : slope l x y * spread l x =
      l.length * total l (fun p => x p * y p) - total l x * total l y := div_mul_cancel₀ _ hs
  refine ⟨?_, by rw [hb]; ring⟩
  apply mul_left_cancel₀ hn
  unfold spread at hm
  linear_combination -hm - total l x * hb

theorem residual_eq (hn : (l.length : K) ≠ 0) (hs : spread l x ≠ 0) (m b : K) :
    residual l x y m b = residual l x y (slope l x y) (intercept l x y) +
      total l (fun p => ((m - slope l x y) * x p + (b - intercept l x y)) ^ 2) := by
  obtain ⟨hslope, hintercept⟩ := normal_equations (y := y) hn hs
  have h := residual_shift l x y (slope l x y) (intercept l x y) (m - slope l x y)
    (b - intercept l x y)
  rw [hslope, hintercept, add_sub_cancel, add_sub_cancel] at h
  rw [h]
  ring

theorem length_mul_affine_sq (l : List α) (x : α → K) (u v : K) :
    l.length * total l (fun p => (u * x p + v) ^ 2) =
      (u * total l x + l.length * v) ^ 2 + u ^ 2 * spread l x := by
  rw [total_affine_sq, spread]
  ring

section change
variable {β : Type*}

theorem total_map (l : List β) (g : β → α) (f : α → K) :
    total (l.map g) f = total l fun p => f (g p) := by
  rw [total, total, List.map_map]
  rfl

theorem spread_map (l : List β) (g : β → α) (x : α → K) :
    spread (l.map g) x = spread l fun p => x (g p) := by
  rw [spread, spread, total_map, total_map, List.length_map]

theorem slope_map (l : List β) (g : β → α) (x y : α → K) :
    slope (l.map g) x y = slope l (fun p => x (g p)) fun p => y (g p) := by
  rw [slope, slope, spread_map, total_map, total_map, total_map, List.length_map]

theorem intercept_map (l : List β) (g : β → α) (x y : α → K) :
    intercept (l.map g) x y = intercept l (fun p => x (g p)) fun p => y (g p) := by
  rw [intercept, intercept, slope_map, total_map, total_map, List.length_map]

theorem total_affine_mul (l : List α) (x y : α → K) (u v : K) :
    total l (fun p => (u * x p + v) * y p) = u * total l (fun p => x p * y p) + v * total l y := by
  induction l with
  | nil => simp
  | cons p l ih =>
    simp only [total_cons, ih]
    ring

theorem total_affine (l : List α) (x : α → K) (u v : K) :
    total l (fun p => u * x p + v) = u * total l x + l.length * v := by
  induction l with
  | nil => simp
  | cons p l ih =>
    simp only [total_cons, List.length_cons, Nat.cast_add, Nat.cast_one, ih]
    ring

theorem spread_affine (l : List α) (x : α → K) (u v : K) :
    spread l (fun p => u * x p + v) = u ^ 2 * spread l x := by
  have hsq : (fun p => (u * x p + v) * (u * x p + v)) = fun p => (u * x p + v) ^ 2 := by
    funext p
    rw [sq]
  rw [spread, spread, hsq, total_affine_sq, total_affine]
  ring

theorem slope_affine (l : List α) (x y : α → K) {u : K} (hu : u ≠ 0) (v : K) :
    slope l (fun p => u * x p + v) y = slope l x y / u := by
  have hnum : l.length * total l (fun p => (u * x p + v) * y p) -
      total l (fun p => u * x p + v) * total l y =
        u * (l.length * total l (fun p => x p * y p) - total l x * total l y) := by
    rw [total_affine_mul, total_affine]
    ring
  rw [slope, slope, hnum, spread_affine, sq, mul_assoc, mul_div_mul_left _ _ hu, mul_comm u,
    div_mul_eq_div_div]

theorem intercept_affine (x y : α → K) {u : K} (hu : u ≠ 0) (v : K)
    (hn : (l.length : K) ≠ 0) :
    intercept l (fun p => u * x p + v) y = intercept l x y - slope l x y / u * v := by
  have hcross : slope l x y / u * (u * total l x + l.length * v) =
      slope l x y * total l x + l.length * (slope l x y / u * v) := by
    rw [mul_add, ← mul_assoc (slope l x y / u) u, div_mul_cancel₀ _ hu]
    ring
  rw [intercept, intercept, slope_affine l x y hu, total_affine, hcross, ← sub_sub, sub_div,
    mul_div_cancel_left₀ _ hn]

end change

variable [LinearOrder K] [IsStrictOrderedRing K]

theorem total_nonneg {f : α → K} (h : ∀ p ∈ l, 0 ≤ f p) : 0 ≤ total l f := by
  apply List.sum_nonneg
  intro v hv
  obtain ⟨p, hp, rfl⟩ := List.mem_map.1 hv
  exact h p hp

theorem residual_nonneg (l : List α) (x y : α → K) (m b : K) : 0 ≤ residual l x y m b :=
  total_nonneg fun _ _ => sq_nonneg _

theorem spread_nonneg (l : List α) (x : α → K) : 0 ≤ spread l x := by
  rcases Nat.eq_zero_or_pos l.length with hn | hn
  · rw [List.length_eq_zero_iff.1 hn]
    simp [spread]
  · have hpos : (0 : K) < l.length := Nat.cast_pos.2 hn
    -- with this offset the completed square vanishes
    have hsq := length_mul_affine_sq l x (l.length : K) (-total l x)
    have hsum : 0 ≤ total l fun p => ((l.length : K) * x p + -total l x) ^ 2 :=
      total_nonneg fun _ _ => sq_nonneg _
    have hprod : (l.length : K) ^ 2 * spread l x =
        l.length * total l fun p => ((l.length : K) * x p + -total l x) ^ 2 := by
      rw [hsq]
      ring
    have hle : 0 ≤ (l.length : K) ^ 2 * spread l x := by
      rw [hprod]
      exact mul_nonneg hpos.le hsum
    exact nonneg_of_mul_nonneg_right hle (pow_pos hpos 2)

section fit
variable (hs : 0 < spread l x)
include hs

theorem length_pos : (0 : K) < l.length := by
  rcases Nat.eq_zero_or_pos l.length with hn | hn
  · rw [List.length_eq_zero_iff.1 hn] at hs
    simp [spread] at hs
  · exact Nat.cast_pos.2 hn

theorem residual_le (m b : K) :
    residual l x y (slope l x y) (intercept l x y) ≤ residual l x y m b := by
  rw [residual_eq (length_pos hs).ne' hs.ne' m b]
  exact le_add_of_nonneg_right (total_nonneg fun _ _ => sq_nonneg _)

theorem eq_of_residual_le {m b : K}
    (h : residual l x y m b ≤ residual l x y (slope l x y) (intercept l x y)) :
    m = slope l x y ∧ b = intercept l x y := by
  have hn := length_pos hs
  have hsum : total l (fun p => ((m - slope l x y) * x p + (b - intercept l x y)) ^ 2) ≤ 0 := by
    rw [residual_eq hn.ne' hs.ne' m b] at h
    linarith
  have hsq := length_mul_affine_sq l x (m - slope l x y) (b - intercept l x y)
  have hprod := mul_nonpos_of_nonneg_of_nonpos hn.le hsum
  have hfirst := sq_nonneg ((m - slope l x y) * total l x + l.length * (b - intercept l x y))
  have hsecond := mul_nonneg (sq_nonneg (m - slope l x y)) hs.le
  have hslope : m - slope l x y = 0 := by
    have hzero : (m - slope l x y) ^ 2 * spread l x = 0 := by linarith
    exact pow_eq_zero_iff two_ne_zero |>.1 ((mul_eq_zero.1 hzero).resolve_right hs.ne')
  have hintercept : b - intercept l x y = 0 := by
    have hzero : ((m - slope l x y) * total l x + l.length * (b - intercept l x y)) ^ 2 = 0 := by
      linarith
    rw [hslope, zero_mul, zero_add, pow_eq_zero_iff two_ne_zero] at hzero
    exact (mul_eq_zero.1 hzero).resolve_left hn.ne'
  exact ⟨sub_eq_zero.1 hslope, sub_eq_zero.1 hintercept⟩

theorem fit_of_collinear {m b : K} (h : ∀ p ∈ l, y p = m * x p + b) :
    m = slope l x y ∧ b = intercept l x y := by
  have hzero : residual l x y m b = 0 := by
    have hnone : ∀ p ∈ l, (y p - (m * x p + b)) ^ 2 = 0 := by
      intro p hp
      rw [h p hp, sub_self]
      ring
    rw [residual, total, List.map_congr_left hnone]
    simp
  exact eq_of_residual_le hs (hzero ▸ residual_nonneg l x y _ _)

end fit

end LeastSquares
