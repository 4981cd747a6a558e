import Mathlib.Data.List.Count
import Mathlib.Order.Lattice

set_option autoImplicit false

/-! Counting around the element at one place of a list in order. -/
namespace OrderStatistic

section Place
variable {α : Type*} {r : α → α → Prop} {s : List α} {m : α} {k : ℕ}

theorem eq_take_append (hk : s[k]? = some m) : s = s.take k ++ m :: s.drop (k + 1) := by
  obtain ⟨hlt, rfl⟩ := List.getElem?_eq_some_iff.1 hk
  rw [← List.drop_eq_getElem_cons hlt, List.take_append_drop]

theorem around (hs : s.Pairwise r) (hk : s[k]? = some m) :
    (∀ x ∈ s.take k, r x m) ∧ ∀ x ∈ s.drop (k + 1), r m x := by
  rw [eq_take_append hk, List.pairwise_append, List.pairwise_cons] at hs
  obtain ⟨-, ⟨hafter, -⟩, hbefore⟩ := hs
  exact ⟨fun x hx => hbefore x hx m List.mem_cons_self, hafter⟩

theorem countP_around (hk : s[k]? = some m) {p : α → Bool} (hm : p m = false) :
    s.countP p = (s.take k).countP p + (s.drop (k + 1)).countP p := by
  conv_lhs => rw [eq_take_append hk]
  rw [List.countP_append, List.countP_cons, hm]
  rfl

theorem countP_le_before (hs : s.Pairwise r) (hk : s[k]? = some m) {p : α → Bool}
    (hm : p m = false) (hafter : ∀ x, r m x → p x = false) : s.countP p ≤ k := by
  have hnone : (s.drop (k + 1)).countP p = 0 := by
    rw [List.countP_eq_zero]
    intro x hx
    simp [hafter x ((around hs hk).2 x hx)]
  rw [countP_around hk hm, hnone]
  exact Nat.le_trans List.countP_le_length (List.length_take_le k s)

theorem countP_le_after (hs : s.Pairwise r) (hk : s[k]? = some m) {p : α → Bool}
    (hm : p m = false) (hbefore : ∀ x, r x m → p x = false) :
    s.countP p ≤ s.length - (k + 1) := by
  have hnone : (s.take k).countP p = 0 := by
    rw [List.countP_eq_zero]
    intro x hx
    simp [hbefore x ((around hs hk).1 x hx)]
  rw [countP_around hk hm, hnone, Nat.zero_add, ← List.length_drop]
  exact List.countP_le_length

end Place

section Middle
variable {α : Type*} [LinearOrder α] {xs : List α} {m y : α}

theorem countP_trichotomy (xs : List α) (m : α) :
    xs.countP (· < m) + xs.count m + xs.countP (m < ·) = xs.length := by
  induction xs with
  | nil => rfl
  | cons x rest ih =>
    simp only [List.countP_cons, List.count_cons, List.length_cons]
    rcases lt_trichotomy x m with h | rfl | h
    · simp [h, h.ne, h.not_gt]
      omega
    · simp
      omega
    · simp [h, h.ne', h.not_gt]
      omega

omit [LinearOrder α] in
theorem length_le_countP_add (xs : List α) {p q : α → Bool}
    (h : ∀ x ∈ xs, p x = true ∨ q x = true) :
    xs.length ≤ xs.countP p + xs.countP q := by
  have hmono : xs.countP (fun x => !p x) ≤ xs.countP q :=
    List.countP_mono_left fun x hx hp => (h x hx).resolve_left (by simpa using hp)
  have hall := xs.length_eq_countP_add_countP p
  simp only [Bool.not_eq_true, Bool.decide_eq_false] at hall
  omega

theorem middle_unique (hbelow : 2 * xs.countP (· < y) < xs.length)
    (habove : 2 * xs.countP (y < ·) < xs.length) (hm : 2 * xs.countP (· < m) ≤ xs.length)
    (hm' : 2 * xs.countP (m < ·) ≤ xs.length) : m = y := by
  rcases lt_trichotomy m y with h | h | h
  · have hcover := length_le_countP_add xs (p := (· < y)) (q := (m < ·)) fun x _ =>
      (lt_or_ge x y).imp decide_eq_true fun hx => decide_eq_true (h.trans_le hx)
    omega
  · exact h
  · have hcover := length_le_countP_add xs (p := (· < m)) (q := (y < ·)) fun x _ =>
      (lt_or_ge x m).imp decide_eq_true fun hx => decide_eq_true (h.trans_le hx)
    omega

end Middle

end OrderStatistic
