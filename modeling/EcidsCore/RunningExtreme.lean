import Mathlib.Data.List.MinMax
import Mathlib.Data.List.Nodup
import Mathlib.Data.List.Range
import Mathlib.Order.ConditionallyCompleteLattice.Finset

set_option autoImplicit false

/-! A scan for the greatest or the least member of a list, from any start, and one that keeps
where the least value was found first. -/
namespace RunningExtreme

section Scan
variable {α : Type*} [LinearOrder α]

def high (a x : α) : α := if a < x then x else a

def low (a x : α) : α := if x < a then x else a

theorem foldl_high (xs : List α) (start : α) :
    IsGreatest (insert start {x | x ∈ xs}) (xs.foldl high start) := by
  induction xs generalizing start with
  | nil => simp
  | cons x rest ih =>
    obtain ⟨hmem, hbound⟩ := ih (high start x)
    have hstart : start ≤ high start x := by grind [high]
    have hx : x ≤ high start x := by grind [high]
    have hpick : high start x = start ∨ high start x = x := by grind [high]
    rw [List.foldl_cons]
    constructor
    · rcases hmem with heq | hrest
      · rw [heq]
        rcases hpick with hold | hnew
        · exact .inl hold
        · exact .inr (List.mem_cons.2 (.inl hnew))
      · exact .inr (List.mem_cons_of_mem x hrest)
    · rintro y (rfl | hy)
      · exact hstart.trans (hbound (Set.mem_insert _ _))
      · rcases List.mem_cons.1 hy with rfl | hy
        · exact hx.trans (hbound (Set.mem_insert _ _))
        · exact hbound (.inr hy)

theorem foldl_low (xs : List α) (start : α) :
    IsLeast (insert start {x | x ∈ xs}) (xs.foldl low start) :=
  foldl_high (α := αᵒᵈ) xs start

end Scan

section Extremes
variable {α : Type*} [ConditionallyCompleteLinearOrder α] {xs ys : List α}

noncomputable def greatest (xs : List α) : α := sSup {x | x ∈ xs}

noncomputable def least (xs : List α) : α := sInf {x | x ∈ xs}

theorem greatest_isGreatest (h : xs ≠ []) : IsGreatest {x | x ∈ xs} (greatest xs) := by
  have hfinite := List.finite_toSet xs
  obtain ⟨x, hx⟩ := List.exists_mem_of_ne_nil xs h
  exact ⟨Set.Nonempty.csSup_mem ⟨x, hx⟩ hfinite, fun _ hy => le_csSup hfinite.bddAbove hy⟩

theorem least_isLeast (h : xs ≠ []) : IsLeast {x | x ∈ xs} (least xs) :=
  greatest_isGreatest (α := αᵒᵈ) h

theorem greatest_singleton (x : α) : greatest [x] = x := by
  simp [greatest]

theorem least_singleton (x : α) : least [x] = x := by
  simp [least]

theorem greatest_cons (h : xs ≠ []) (x : α) : greatest (x :: xs) = max x (greatest xs) := by
  have hcons : {y | y ∈ x :: xs} = insert x {y | y ∈ xs} := by
    ext y
    simp
  exact (greatest_isGreatest (List.cons_ne_nil x xs)).unique
    (hcons ▸ (greatest_isGreatest h).insert x)

theorem least_cons (h : xs ≠ []) (x : α) : least (x :: xs) = min x (least xs) :=
  greatest_cons (α := αᵒᵈ) h x

theorem greatest_map_of_monotone {f : α → α} (hf : Monotone f) (h : xs ≠ []) :
    greatest (xs.map f) = f (greatest xs) := by
  have hmap : {y | y ∈ xs.map f} = f '' {x | x ∈ xs} := by
    ext y
    simp
  have himage := hf.map_isGreatest (greatest_isGreatest h)
  rw [← hmap] at himage
  exact (greatest_isGreatest (by simpa using h)).unique himage

theorem least_map_of_monotone {f : α → α} (hf : Monotone f) (h : xs ≠ []) :
    least (xs.map f) = f (least xs) :=
  greatest_map_of_monotone (α := αᵒᵈ) hf.dual h

theorem greatest_map_of_antitone {f : α → α} (hf : Antitone f) (h : xs ≠ []) :
    greatest (xs.map f) = f (least xs) := by
  have hmap : {y | y ∈ xs.map f} = f '' {x | x ∈ xs} := by
    ext y
    simp
  have himage := hf.map_isLeast (least_isLeast h)
  rw [← hmap] at himage
  exact (greatest_isGreatest (by simpa using h)).unique himage

theorem least_map_of_antitone {f : α → α} (hf : Antitone f) (h : xs ≠ []) :
    least (xs.map f) = f (greatest xs) :=
  greatest_map_of_antitone (α := αᵒᵈ) hf.dual h

theorem greatest_perm (h : xs.Perm ys) : greatest xs = greatest ys := by
  simp only [greatest, h.mem_iff]

theorem least_perm (h : xs.Perm ys) : least xs = least ys := by
  simp only [least, h.mem_iff]

theorem foldl_high_eq (h : xs ≠ []) (start : α) :
    xs.foldl high start = max start (greatest xs) :=
  (foldl_high xs start).unique ((greatest_isGreatest h).insert start)

theorem foldl_low_eq (h : xs ≠ []) (start : α) : xs.foldl low start = min start (least xs) :=
  (foldl_low xs start).unique ((least_isLeast h).insert start)

end Extremes

end RunningExtreme

namespace FirstMinimum

variable {ι K : Type*} [LinearOrder K] (f : ι → K)

def visit (best : K × ι) (i : ι) : K × ι := if f i < best.1 then (f i, i) else best

theorem foldl_visit_eq {top : K} (i₀ : ι) {l : List ι} (h : ∀ i ∈ l, f i < top) :
    l.foldl (visit f) (top, i₀) = ((l.argmin f).map fun i => (f i, i)).getD (top, i₀) := by
  induction l using List.reverseRecOn with
  | nil => rfl
  | append_singleton l a ih =>
    have hl : ∀ i ∈ l, f i < top := fun i hi => h i (List.mem_append_left _ hi)
    have ha : f a < top := h a (by simp)
    rw [List.foldl_append, List.foldl_cons, List.foldl_nil, ih hl, List.argmin_concat]
    cases l.argmin f with
    | none => exact if_pos ha
    | some c =>
      simp only [Option.map_some, Option.getD_some, visit]
      split <;> rfl

theorem idxOf_range {n m : ℕ} (h : m < n) : (List.range n).idxOf m = m := by
  have hm : m < (List.range n).length := by rwa [List.length_range]
  simpa using List.nodup_range.idxOf_getElem m hm

theorem foldl_visit_range (f : ℕ → K) {top : K} (i₀ : ℕ) {n : ℕ} (h : ∀ i ≤ n, f i < top) :
    ∃ m ≤ n, (List.range (n + 1)).foldl (visit f) (top, i₀) = (f m, m) ∧
      (∀ i ≤ n, f m ≤ f i) ∧ ∀ i < m, f m < f i := by
  have hmem {i : ℕ} : i ∈ List.range (n + 1) ↔ i ≤ n := by rw [List.mem_range, Nat.lt_succ_iff]
  cases harg : (List.range (n + 1)).argmin f with
  | none => simp at harg
  | some m =>
    have hm : m ≤ n := hmem.1 (List.argmin_mem harg)
    refine ⟨m, hm, ?_, ?_, ?_⟩
    · rw [foldl_visit_eq f i₀ fun i hi => h i (hmem.1 hi), harg]
      rfl
    · intro i hi
      exact List.le_of_mem_argmin (hmem.2 hi) harg
    · intro i hi
      by_contra hle
      have hin : i ≤ n := hi.le.trans hm
      have hidx := List.index_of_argmin harg (hmem.2 hin) (not_lt.1 hle)
      rw [idxOf_range (Nat.lt_succ_of_le hm), idxOf_range (Nat.lt_succ_of_le hin)] at hidx
      omega

end FirstMinimum
