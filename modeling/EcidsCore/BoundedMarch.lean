import Mathlib.Algebra.Order.Ring.Defs
import Mathlib.Tactic.Linarith
import Mathlib.Tactic.Push

set_option autoImplicit false

/-! A march of at most so many steps that moves before it tests, and the march of an
affine quantity towards zero. -/
namespace BoundedMarch

/-- The number of steps taken; `hit k` is what the test says after `k` steps. -/
def steps (hit : ℕ → Prop) [DecidablePred hit] : ℕ → ℕ
  | 0 => 0
  | n + 1 => if hit 1 then 1 else steps (fun k => hit (k + 1)) n + 1

section steps
variable (hit : ℕ → Prop) [DecidablePred hit] {n : ℕ}

theorem steps_congr {hit hit' : ℕ → Prop} [DecidablePred hit] [DecidablePred hit']
    (h : ∀ k, hit k ↔ hit' k) (n : ℕ) : steps hit n = steps hit' n := by
  induction n generalizing hit hit' with
  | zero => rfl
  | succ n ih => simp only [steps, h 1, ih fun k => h (k + 1)]

theorem steps_le (n : ℕ) : steps hit n ≤ n := by
  induction n generalizing hit with
  | zero => exact Nat.le_refl 0
  | succ n ih =>
    unfold steps
    split
    · exact Nat.succ_le_succ (Nat.zero_le n)
    · exact Nat.succ_le_succ (ih _)

theorem steps_pos (h : 0 < n) : 0 < steps hit n := by
  cases n with
  | zero => cases h
  | succ n =>
    unfold steps
    split
    · exact Nat.zero_lt_one
    · exact Nat.succ_pos _

/-- The march ends at a hit, or when its steps are used up. -/
theorem hit_or_all (h : 0 < n) : hit (steps hit n) ∨ steps hit n = n := by
  induction n generalizing hit with
  | zero => cases h
  | succ n ih =>
    unfold steps
    split
    · rename_i hone
      exact .inl hone
    · cases n with
      | zero => exact .inr rfl
      | succ n =>
        rcases ih (fun k => hit (k + 1)) (Nat.succ_pos n) with hhit | hall
        · exact .inl hhit
        · exact .inr (congrArg Nat.succ hall)

theorem not_hit_of_lt {k : ℕ} (hpos : 0 < k) (h : k < steps hit n) : ¬ hit k := by
  induction n generalizing hit k with
  | zero => cases h
  | succ n ih =>
    unfold steps at h
    split at h
    · omega
    · rename_i hone
      cases k with
      | zero => cases hpos
      | succ k =>
        cases k with
        | zero => exact hone
        | succ k => exact ih (fun k => hit (k + 1)) (Nat.succ_pos k) (Nat.lt_of_succ_lt_succ h)

theorem steps_eq {m : ℕ} (hpos : 0 < m) (hm : m ≤ n) (hhit : hit m)
    (hbefore : ∀ k, 0 < k → k < m → ¬ hit k) : steps hit n = m := by
  have hn : 0 < n := Nat.lt_of_lt_of_le hpos hm
  rcases Nat.lt_trichotomy (steps hit n) m with hlt | heq | hgt
  · rcases hit_or_all hit hn with hend | hall
    · exact absurd hend (hbefore _ (steps_pos hit hn) hlt)
    · omega
  · exact heq
  · exact absurd hhit (not_hit_of_lt hit hpos hgt)

end steps

variable {K : Type*} [CommRing K] [LinearOrder K] [IsStrictOrderedRing K]

/-- `a` is where the quantity starts, `c` what a step adds. The march ends with the first
value that is not negative if and only if it starts below zero and its steps suffice. -/
theorem meets_iff (a c : K) {n : ℕ} (hn : 0 < n) :
    (0 ≤ a + steps (fun k => 0 ≤ a + (k : K) * c) n * c ∧
      a + (steps (fun k => 0 ≤ a + (k : K) * c) n - 1 : K) * c < 0) ↔
    a < 0 ∧ 0 ≤ a + n * c := by
  have hle := steps_le (fun k => 0 ≤ a + (k : K) * c) n
  have hpos := steps_pos (fun k => 0 ≤ a + (k : K) * c) hn
  have hend := hit_or_all (fun k => 0 ≤ a + (k : K) * c) hn
  have hbefore := fun {k} => not_hit_of_lt (fun k => 0 ≤ a + (k : K) * c) (n := n) (k := k)
  generalize steps (fun k => 0 ≤ a + (k : K) * c) n = m at *
  have hone : (1 : K) ≤ m := Nat.one_le_cast.2 hpos
  have hlast : (m : K) ≤ n := Nat.cast_le.2 hle
  constructor
  · rintro ⟨hhit, hprev⟩
    have hc : 0 < c := by linarith [sub_one_mul (m : K) c]
    have hnonneg : 0 ≤ (m - 1 : K) * c := mul_nonneg (sub_nonneg.2 hone) hc.le
    have hmore : (m : K) * c ≤ n * c := mul_le_mul_of_nonneg_right hlast hc.le
    exact ⟨by linarith, by linarith⟩
  · rintro ⟨hstart, hreach⟩
    have hhit : 0 ≤ a + m * c := by
      rcases hend with hhit | hall
      · exact hhit
      · rw [hall]
        exact hreach
    refine ⟨hhit, ?_⟩
    -- the point before the last one is the start, or was tested
    rcases Nat.eq_or_lt_of_le hpos with hm | hm
    · rw [← hm]
      simpa using hstart
    · have hno := hbefore (k := m - 1) (by omega) (by omega)
      rwa [Nat.cast_sub hpos, Nat.cast_one, not_le] at hno

end BoundedMarch
