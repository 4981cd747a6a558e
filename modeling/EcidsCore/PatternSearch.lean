import Mathlib.Data.List.Infix
import Mathlib.Data.Nat.Find
import Mathlib.Data.Nat.Notation

set_option autoImplicit false

/-! The first occurrence of a pattern in a text. -/
namespace PatternSearch

variable {α : Type*} [DecidableEq α] {needle : List α}

def find (needle : List α) : List α → Option ℕ
  | [] => if needle = [] then some 0 else none
  | x :: xs => if needle <+: x :: xs then some 0 else (find needle xs).map (· + 1)

/-- The pattern stands at position `i` of the text, and at no earlier one. -/
structure FirstAt (needle hay : List α) (i : ℕ) : Prop where
  here : needle <+: hay.drop i
  before : ∀ j < i, ¬ needle <+: hay.drop j

omit [DecidableEq α] in
theorem FirstAt.unique {hay : List α} {i j : ℕ} (h : FirstAt needle hay i)
    (h' : FirstAt needle hay j) : i = j := by
  rcases Nat.lt_trichotomy i j with hlt | heq | hlt
  · exact absurd h.here (h'.before i hlt)
  · exact heq
  · exact absurd h'.here (h.before j hlt)

omit [DecidableEq α] in
theorem firstAt_succ {x : α} {xs : List α} (h : ¬ needle <+: x :: xs) {i : ℕ} :
    FirstAt needle (x :: xs) (i + 1) ↔ FirstAt needle xs i := by
  constructor
  · rintro ⟨hhere, hbefore⟩
    exact ⟨hhere, fun j hj => hbefore (j + 1) (Nat.succ_lt_succ hj)⟩
  · rintro ⟨hhere, hbefore⟩
    refine ⟨hhere, ?_⟩
    intro j hj
    cases j with
    | zero => exact h
    | succ j => exact hbefore j (Nat.lt_of_succ_lt_succ hj)

theorem find_eq_some (hne : needle ≠ []) {hay : List α} {i : ℕ} :
    find needle hay = some i ↔ FirstAt needle hay i := by
  induction hay generalizing i with
  | nil =>
    rw [find, if_neg hne]
    refine iff_of_false (Option.some_ne_none i).symm ?_
    intro h
    have hnil := h.here
    rw [List.drop_nil] at hnil
    exact hne (List.prefix_nil.1 hnil)
  | cons x xs ih =>
    rw [find]
    by_cases h : needle <+: x :: xs
    · rw [if_pos h]
      have hzero : FirstAt needle (x :: xs) 0 := ⟨h, fun j hj => absurd hj (Nat.not_lt_zero j)⟩
      constructor
      · intro heq
        cases heq
        exact hzero
      · intro hi
        rw [hzero.unique hi]
    · rw [if_neg h]
      cases i with
      | zero =>
        refine iff_of_false ?_ (fun hi => h hi.here)
        intro heq
        obtain ⟨j, -, hj⟩ := Option.map_eq_some_iff.1 heq
        exact Nat.succ_ne_zero j hj
      | succ i =>
        rw [firstAt_succ h, ← ih, Option.map_eq_some_iff]
        constructor
        · rintro ⟨j, hj, heq⟩
          rwa [← Nat.succ.inj heq]
        · intro hj
          exact ⟨i, hj, rfl⟩

omit [DecidableEq α] in
theorem prefix_drop_append {a b : List α} {i : ℕ} (h : i + needle.length ≤ a.length) :
    needle <+: (a ++ b).drop i ↔ needle <+: a.drop i := by
  rw [List.drop_append_of_le_length (by omega)]
  constructor
  · intro hp
    exact List.prefix_of_prefix_length_le hp (List.prefix_append _ _)
      (by rw [List.length_drop]; omega)
  · intro hp
    exact hp.trans (List.prefix_append _ _)

omit [DecidableEq α] in
theorem length_of_prefix_drop {hay : List α} {i : ℕ} (hne : needle ≠ [])
    (h : needle <+: hay.drop i) : i + needle.length ≤ hay.length := by
  have hlen := h.length_le
  have hpos := List.length_pos_iff.2 hne
  rw [List.length_drop] at hlen
  omega

omit [DecidableEq α] in
theorem FirstAt.append (hne : needle ≠ []) {a : List α} {i : ℕ} (h : FirstAt needle a i)
    (b : List α) : FirstAt needle (a ++ b) i := by
  have hlen := length_of_prefix_drop hne h.here
  refine ⟨(prefix_drop_append hlen).2 h.here, ?_⟩
  intro j hj hp
  exact h.before j hj ((prefix_drop_append (by omega)).1 hp)

omit [DecidableEq α] in
theorem firstAt_skip {x : α} {needle hay : List α} {i : ℕ} (l : List α) (h : x ∉ l) :
    FirstAt (x :: needle) (l ++ hay) (l.length + i) ↔ FirstAt (x :: needle) hay i := by
  induction l with
  | nil => rw [List.nil_append, List.length_nil, Nat.zero_add]
  | cons y l ih =>
    have hy : ¬ x :: needle <+: y :: (l ++ hay) := by
      intro hp
      exact h (List.mem_cons.2 (.inl (List.cons_prefix_cons.1 hp).1))
    rw [List.cons_append, List.length_cons, Nat.add_right_comm, firstAt_succ hy]
    exact ih fun hm => h (List.mem_cons_of_mem y hm)

omit [DecidableEq α] in
theorem firstAt_line {sep : α} {hay : List α} {i : ℕ} {l : List α} (hne : needle ≠ [])
    (hsep : sep ∉ needle) (hl : ∀ j, ¬ needle <+: l.drop j) :
    FirstAt needle (l ++ sep :: hay) (l.length + 1 + i) ↔ FirstAt needle hay i := by
  induction l with
  | nil =>
    have hstart : ¬ needle <+: sep :: hay := by
      intro hp
      obtain ⟨x, rest, hx⟩ := List.exists_cons_of_ne_nil hne
      rw [hx] at hp hsep
      exact hsep (List.mem_cons.2 (.inl (List.cons_prefix_cons.1 hp).1.symm))
    rw [List.nil_append, List.length_nil, Nat.zero_add, Nat.add_comm, firstAt_succ hstart]
  | cons y l ih =>
    have hstart : ¬ needle <+: (y :: l) ++ sep :: hay := by
      intro hp
      rcases Nat.lt_or_ge (y :: l).length needle.length with hlong | hshort
      · have hget := hp.getElem hlong
        rw [List.getElem_append_right (le_refl _)] at hget
        simp only [Nat.sub_self, List.getElem_cons_zero] at hget
        apply hsep
        rw [← hget]
        exact List.getElem_mem hlong
      · exact hl 0 (List.prefix_of_prefix_length_le hp (List.prefix_append (y :: l) _) hshort)
    rw [List.cons_append] at hstart ⊢
    rw [List.length_cons, Nat.add_right_comm (l.length + 1), firstAt_succ hstart]
    exact ih fun j => hl (j + 1)

omit [DecidableEq α] in
theorem exists_firstAt {hay : List α} : (∃ i, FirstAt needle hay i) ↔ needle <:+: hay := by
  constructor
  · rintro ⟨i, h⟩
    exact h.here.isInfix.trans (List.drop_suffix i hay).isInfix
  · rintro ⟨s, t, rfl⟩
    classical
    have hex : ∃ j, needle <+: (s ++ needle ++ t).drop j := by
      refine ⟨s.length, ?_⟩
      rw [List.append_assoc, List.drop_left]
      exact List.prefix_append _ _
    exact ⟨Nat.find hex, Nat.find_spec hex, fun j hj => Nat.find_min hex hj⟩

theorem find_eq_none (hne : needle ≠ []) {hay : List α} :
    find needle hay = none ↔ ¬ needle <:+: hay := by
  rw [← exists_firstAt, not_exists, Option.eq_none_iff_forall_ne_some]
  exact forall_congr' fun i => not_congr (find_eq_some hne)

omit [DecidableEq α] in
theorem prefix_drop_concat {x : α} (hx : x ∉ needle) (hay : List α) (j : ℕ) :
    needle <+: (hay ++ [x]).drop j ↔ needle <+: hay.drop j := by
  rcases Nat.lt_or_ge hay.length j with hlt | hle
  · rw [List.drop_of_length_le (by rw [List.length_append, List.length_singleton]; omega),
      List.drop_of_length_le hlt.le]
  · rw [List.drop_append_of_le_length hle, List.prefix_concat_iff]
    refine or_iff_right ?_
    rintro rfl
    exact hx (List.mem_append_right _ (List.mem_singleton_self x))

theorem find_concat (hne : needle ≠ []) {x : α} (hx : x ∉ needle) (hay : List α) :
    find needle (hay ++ [x]) = find needle hay := by
  apply Option.ext
  intro i
  rw [find_eq_some hne, find_eq_some hne]
  constructor
  · rintro ⟨hhere, hbefore⟩
    exact ⟨(prefix_drop_concat hx hay i).1 hhere,
      fun j hj hp => hbefore j hj ((prefix_drop_concat hx hay j).2 hp)⟩
  · rintro ⟨hhere, hbefore⟩
    exact ⟨(prefix_drop_concat hx hay i).2 hhere,
      fun j hj hp => hbefore j hj ((prefix_drop_concat hx hay j).1 hp)⟩

end PatternSearch
