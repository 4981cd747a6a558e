import Mathlib.Algebra.Order.Archimedean.Basic
import Mathlib.Algebra.Order.Field.Basic
import Mathlib.Tactic.Ring

set_option autoImplicit false

/-! The loop `for (x = a; x <= b; x += d)`, with fuel, and the positions that it visits. -/
namespace SteppedLoop

section Loop
variable {K β : Type*} [Add K] [LE K] [DecidableLE K]

def loop (visit : β → K → β) (d b : K) : ℕ → K → β → Option β
  | 0, _, _ => none
  | fuel + 1, x, acc => if x ≤ b then loop visit d b fuel (x + d) (visit acc x) else some acc

end Loop

section Fill
variable {K β : Type*}

theorem foldl_fill (skip : K → Bool) (new : K → β) (xs : List K) (acc : List β) :
    xs.foldl (fun acc x => if skip x then acc else acc ++ [new x]) acc =
      acc ++ (xs.filter fun x => !skip x).map new := by
  induction xs generalizing acc with
  | nil => simp
  | cons x xs ih =>
    rw [List.foldl_cons, ih]
    cases hskip : skip x <;> simp [hskip]

end Fill

section Grid
variable {K β : Type*} [Field K]

def position (a d : K) (k : ℕ) : K := a + k * d

theorem position_zero (a d : K) : position a d 0 = a := by simp [position]

theorem position_succ (a d : K) (k : ℕ) : position a d (k + 1) = position (a + d) d k := by
  simp only [position, Nat.cast_add, Nat.cast_one]
  ring

variable [LinearOrder K]

theorem loop_eq (visit : β → K → β) {a b d : K} {n : ℕ}
    (hcount : ∀ k, position a d k ≤ b ↔ k < n) {fuel : ℕ} (hfuel : n < fuel) (acc : β) :
    loop visit d b fuel a acc = some (((List.range n).map (position a d)).foldl visit acc) := by
  induction n generalizing a fuel acc with
  | zero =>
    obtain ⟨fuel, rfl⟩ : ∃ m, fuel = m + 1 := ⟨fuel - 1, by omega⟩
    have hout : ¬ a ≤ b := by
      rw [← position_zero a d, hcount]
      exact Nat.lt_irrefl 0
    rw [loop, if_neg hout]
    rfl
  | succ n ih =>
    obtain ⟨fuel, rfl⟩ : ∃ m, fuel = m + 1 := ⟨fuel - 1, by omega⟩
    have hin : a ≤ b := by
      rw [← position_zero a d, hcount]
      exact Nat.succ_pos n
    have hnext : ∀ k, position (a + d) d k ≤ b ↔ k < n := by
      intro k
      rw [← position_succ, hcount]
      omega
    rw [loop, if_pos hin, ih hnext (by omega), List.range_succ_eq_map, List.map_cons,
      List.map_map, List.foldl_cons, position_zero]
    congr 3
    funext k
    exact (position_succ a d k).symm

variable [IsStrictOrderedRing K]

theorem position_lt_position (a : K) {d : K} (hd : 0 < d) {j k : ℕ} (h : j < k) :
    position a d j < position a d k := by
  have hcast : (j : K) < k := Nat.cast_lt.2 h
  exact add_lt_add_right (mul_lt_mul_of_pos_right hcast hd) a

theorem exists_count [Archimedean K] (a b : K) {d : K} (hd : 0 < d) :
    ∃ n, ∀ k, position a d k ≤ b ↔ k < n := by
  have hpast : ∃ n, b < position a d n := by
    obtain ⟨n, hn⟩ := exists_lt_nsmul hd (b - a)
    refine ⟨n, ?_⟩
    rw [position, ← nsmul_eq_mul]
    exact sub_lt_iff_lt_add'.1 hn
  classical
  refine ⟨Nat.find hpast, ?_⟩
  intro k
  constructor
  · intro hk
    by_contra hge
    have hfirst := Nat.find_spec hpast
    rcases Nat.eq_or_lt_of_le (Nat.not_lt.1 hge) with heq | hlt
    · rw [heq] at hfirst
      exact absurd hk (not_le.2 hfirst)
    · exact absurd hk (not_le.2 (hfirst.trans (position_lt_position a hd hlt)))
  · intro hk
    exact not_lt.1 (Nat.find_min hpast hk)

end Grid

end SteppedLoop
