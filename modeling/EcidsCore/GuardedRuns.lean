import Mathlib.Data.List.Basic

set_option autoImplicit false

/-! Finite executions of a partial step function, and properties that have to
hold at every step taken along one of them. -/
namespace GuardedRuns

variable {σ α : Type*} (step : σ → α → Option σ)

/-- A disabled action ends the execution without a result. -/
def run : σ → List α → Option σ
  | s, [] => some s
  | s, a :: as => (step s a).bind fun t => run t as

/-- `P` holds of every action of the list in the state in which it is taken. -/
def Along (P : σ → α → Prop) : σ → List α → Prop
  | _, [] => True
  | s, a :: as => P s a ∧ ∀ t, step s a = some t → Along P t as

variable {step}

@[simp] theorem run_nil (s : σ) : run step s [] = some s := rfl

theorem run_cons (s : σ) (a : α) (as : List α) :
    run step s (a :: as) = (step s a).bind fun t => run step t as := rfl

theorem run_cons_some {s u : σ} {a : α} {as : List α} :
    run step s (a :: as) = some u ↔ ∃ t, step s a = some t ∧ run step t as = some u := by
  rw [run_cons, Option.bind_eq_some_iff]

@[simp] theorem along_nil (P : σ → α → Prop) (s : σ) : Along step P s [] := trivial

theorem along_cons {P : σ → α → Prop} {s : σ} {a : α} {as : List α} :
    Along step P s (a :: as) ↔ P s a ∧ ∀ t, step s a = some t → Along step P t as := Iff.rfl

theorem along_cons_of {P : σ → α → Prop} {s t : σ} {a : α} {as : List α} (hP : P s a)
    (ht : step s a = some t) (h : Along step P t as) : Along step P s (a :: as) := by
  refine ⟨hP, ?_⟩
  intro u hu
  rw [ht] at hu
  cases hu
  exact h

instance decidableAlong (P : σ → α → Prop) [∀ s a, Decidable (P s a)] (s : σ) :
    (as : List α) → Decidable (Along step P s as)
  | [] => .isTrue trivial
  | a :: as =>
    match h : step s a with
    | some t =>
      have := decidableAlong P t as
      decidable_of_iff (P s a ∧ Along step P t as) (by simp [along_cons, h])
    | none => decidable_of_iff (P s a) (by simp [along_cons, h])

theorem along_last {P : σ → α → Prop} {s t : σ} {as : List α} {a : α}
    (h : Along step P s (as ++ [a])) (hr : run step s as = some t) : P t a := by
  induction as generalizing s with
  | nil =>
    obtain rfl : s = t := by simpa using hr
    exact h.1
  | cons b as ih =>
    obtain ⟨u, hu, hr⟩ := run_cons_some.1 hr
    exact ih (h.2 u hu) hr

theorem along_of_forall {P : σ → α → Prop} (h : ∀ s a, P s a) (s : σ) (as : List α) :
    Along step P s as := by
  induction as generalizing s with
  | nil => trivial
  | cons a as ih => exact ⟨h s a, fun t _ => ih t⟩

theorem along_of_mem {P : α → Prop} {as : List α} (h : ∀ a ∈ as, P a) (s : σ) :
    Along step (fun _ => P) s as := by
  induction as generalizing s with
  | nil => trivial
  | cons a as ih =>
    exact ⟨h a List.mem_cons_self, fun t _ => ih (fun b hb => h b (List.mem_cons_of_mem a hb)) t⟩

theorem along_and {P Q : σ → α → Prop} {s : σ} {as : List α} (hP : Along step P s as)
    (hQ : Along step Q s as) : Along step (fun s a => P s a ∧ Q s a) s as := by
  induction as generalizing s with
  | nil => trivial
  | cons a as ih => exact ⟨⟨hP.1, hQ.1⟩, fun t ht => ih (hP.2 t ht) (hQ.2 t ht)⟩

/-- An invariant that the guarded steps keep holds after every guarded execution. -/
theorem run_invariant {I : σ → Prop} {P : σ → α → Prop}
    (keep : ∀ s a t, I s → P s a → step s a = some t → I t)
    {s u : σ} {as : List α} (hs : I s) (hP : Along step P s as)
    (hr : run step s as = some u) : I u := by
  induction as generalizing s with
  | nil =>
    obtain rfl : s = u := by simpa using hr
    exact hs
  | cons a as ih =>
    obtain ⟨t, ht, hr⟩ := run_cons_some.1 hr
    exact ih (keep s a t hs hP.1 ht) (hP.2 t ht) hr

theorem run_preserves {I : σ → Prop} (keep : ∀ s a t, I s → step s a = some t → I t)
    {s u : σ} {as : List α} (hs : I s) (hr : run step s as = some u) : I u :=
  run_invariant (P := fun _ _ => True) (fun s a t hI _ ht => keep s a t hI ht) hs
    (along_of_forall (fun _ _ => trivial) s as) hr

theorem run_log_sublist {β : Type*} (log : σ → List β) {brings : α → List β}
    (hstep : ∀ s a t, step s a = some t → (log t).Sublist (log s ++ brings a))
    {s u : σ} {as : List α} (hr : run step s as = some u) :
    (log u).Sublist (log s ++ as.flatMap brings) := by
  induction as generalizing s with
  | nil =>
    obtain rfl : s = u := by simpa using hr
    simp
  | cons a as ih =>
    obtain ⟨t, ht, hr⟩ := run_cons_some.1 hr
    rw [List.flatMap_cons, ← List.append_assoc]
    exact (ih hr).trans ((hstep s a t ht).append_right _)

/-- A step property that follows from an invariant and the guard holds along
every guarded execution. -/
theorem along_of_invariant {I : σ → Prop} {P Q : σ → α → Prop}
    (keep : ∀ s a t, I s → P s a → step s a = some t → I t)
    (imp : ∀ s a, I s → P s a → Q s a)
    {s : σ} {as : List α} (hs : I s) (hP : Along step P s as) : Along step Q s as := by
  induction as generalizing s with
  | nil => trivial
  | cons a as ih =>
    exact ⟨imp s a hs hP.1, fun t ht => ih (keep s a t hs hP.1 ht) (hP.2 t ht)⟩

/-- An execution with a step outside `P` ends with the mark that such a step leaves, when
no later step removes it. -/
theorem run_of_not_along {I J : σ → Prop} {P : σ → α → Prop}
    (keep : ∀ s a t, I s → step s a = some t → I t)
    (mark : ∀ s a t, I s → ¬ P s a → step s a = some t → J t)
    (stay : ∀ s a t, I s → J s → step s a = some t → J t)
    {s u : σ} {as : List α} (hs : I s) (h : ¬ Along step P s as) (hr : run step s as = some u) :
    J u := by
  induction as generalizing s with
  | nil => exact absurd trivial h
  | cons a as ih =>
    obtain ⟨t, ht, hr⟩ := run_cons_some.1 hr
    have hI := keep s a t hs ht
    by_cases hP : P s a
    · refine ih hI ?_ hr
      intro hrest
      exact h (along_cons_of hP ht hrest)
    · exact (run_preserves (I := fun s => I s ∧ J s)
        (fun s a t hIJ ht => ⟨keep s a t hIJ.1 ht, stay s a t hIJ.1 hIJ.2 ht⟩)
        ⟨hI, mark s a t hs hP ht⟩ hr).2

theorem along_congr {I : σ → Prop} {P Q : σ → α → Prop}
    (keep : ∀ s a t, I s → step s a = some t → I t) (agree : ∀ s a, I s → (P s a ↔ Q s a))
    {s : σ} {as : List α} (hs : I s) : Along step P s as ↔ Along step Q s as :=
  ⟨along_of_invariant (fun s a t hI _ ht => keep s a t hI ht)
      (fun s a hI hP => (agree s a hI).1 hP) hs,
    along_of_invariant (fun s a t hI _ ht => keep s a t hI ht)
      (fun s a hI hQ => (agree s a hI).2 hQ) hs⟩

end GuardedRuns
