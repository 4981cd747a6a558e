import Mathlib.Data.List.Basic

set_option autoImplicit false

/-! Rules for computations that can throw: when one returns, and which exceptions
it can throw. -/
namespace ExceptRules

variable {ε α β : Type}

def Returns (x : Except ε α) : Prop := ∃ a, x = .ok a

/-- Every exception that can be thrown satisfies `P`. -/
def ThrowsOnly (P : ε → Prop) (x : Except ε α) : Prop := ∀ e, x = .error e → P e

@[simp] theorem returns_ok (a : α) : Returns (.ok a : Except ε α) := ⟨a, rfl⟩

@[simp] theorem returns_pure (a : α) : Returns (pure a : Except ε α) := ⟨a, rfl⟩

@[simp] theorem not_returns_error (e : ε) : ¬ Returns (.error e : Except ε α) := by
  rintro ⟨a, h⟩
  cases h

theorem returns_bind {x : Except ε α} {f : α → Except ε β} :
    Returns (x >>= f) ↔ ∃ a, x = .ok a ∧ Returns (f a) := by
  cases x with
  | error e => simp [Returns, bind, Except.bind]
  | ok a => simp [bind, Except.bind]

theorem returns_bind_iff {x : Except ε α} {f : α → Except ε β} {p : Prop}
    (h : ∀ a, Returns (f a) ↔ p) : Returns (x >>= f) ↔ Returns x ∧ p := by
  rw [returns_bind]
  constructor
  · rintro ⟨a, ha, hf⟩
    exact ⟨⟨a, ha⟩, (h a).1 hf⟩
  · rintro ⟨⟨a, ha⟩, hp⟩
    exact ⟨a, ha, (h a).2 hp⟩

theorem returns_bind_pure {x : Except ε α} {g : α → β} :
    Returns (x >>= fun a => pure (g a)) ↔ Returns x :=
  (returns_bind_iff (p := True) fun _ => ⟨fun _ => trivial, fun _ => returns_pure _⟩).trans
    (iff_of_eq (and_true _))

theorem bind_ok {x : Except ε α} {f : α → Except ε β} {b : β} (h : (x >>= f) = .ok b) :
    ∃ a, x = .ok a ∧ f a = .ok b := by
  cases x with
  | error e => cases h
  | ok a => exact ⟨a, rfl, h⟩

theorem bind_error {x : Except ε α} {f : α → Except ε β} {e : ε} (h : (x >>= f) = .error e) :
    x = .error e ∨ ∃ a, x = .ok a ∧ f a = .error e := by
  cases x with
  | error e' =>
    cases h
    exact .inl rfl
  | ok a => exact .inr ⟨a, rfl, h⟩

theorem returns_mapM {f : α → Except ε β} {as : List α} :
    Returns (as.mapM f) ↔ ∀ a ∈ as, Returns (f a) := by
  induction as with
  | nil => simp
  | cons a as ih =>
    rw [List.mapM_cons, returns_bind, List.forall_mem_cons, ← ih]
    constructor
    · rintro ⟨b, hb, h⟩
      obtain ⟨bs, hbs, -⟩ := returns_bind.1 h
      exact ⟨⟨b, hb⟩, ⟨bs, hbs⟩⟩
    · rintro ⟨⟨b, hb⟩, ⟨bs, hbs⟩⟩
      exact ⟨b, hb, returns_bind.2 ⟨bs, hbs, returns_pure _⟩⟩

theorem returns_foldlM {σ : Type} {f : σ → α → Except ε σ} {fine : α → Prop}
    (hf : ∀ s a, Returns (f s a) ↔ fine a) {as : List α} (s : σ) :
    Returns (as.foldlM f s) ↔ ∀ a ∈ as, fine a := by
  induction as generalizing s with
  | nil => simp
  | cons a as ih =>
    rw [List.foldlM_cons, returns_bind, List.forall_mem_cons, ← hf s a]
    constructor
    · rintro ⟨t, ht, h⟩
      exact ⟨⟨t, ht⟩, (ih t).1 h⟩
    · rintro ⟨⟨t, ht⟩, h⟩
      exact ⟨t, ht, (ih t).2 h⟩

theorem foldlM_ok {σ : Type} {f : σ → α → Except ε σ} {g : σ → α → σ} {as : List α}
    (h : ∀ a ∈ as, ∀ s, f s a = .ok (g s a)) (s : σ) : as.foldlM f s = .ok (as.foldl g s) := by
  induction as generalizing s with
  | nil => rfl
  | cons a as ih =>
    rw [List.foldlM_cons, h a List.mem_cons_self]
    exact ih (fun b hb => h b (List.mem_cons_of_mem a hb)) _

theorem foldlM_preserves {σ : Type} {f : σ → α → Except ε σ} {P : σ → Prop} {as : List α}
    (hstep : ∀ a ∈ as, ∀ s s', P s → f s a = .ok s' → P s') {s s' : σ} (hs : P s)
    (h : as.foldlM f s = .ok s') : P s' := by
  induction as generalizing s with
  | nil =>
    cases h
    exact hs
  | cons a as ih =>
    rw [List.foldlM_cons] at h
    obtain ⟨t, ht, h⟩ := bind_ok h
    exact ih (fun b hb => hstep b (List.mem_cons_of_mem a hb)) (hstep a List.mem_cons_self s t hs ht) h

theorem forall₂_mapM {f : α → Except ε β} {as : List α} {bs : List β} (h : as.mapM f = .ok bs) :
    List.Forall₂ (fun a b => f a = .ok b) as bs := by
  induction as generalizing bs with
  | nil =>
    cases h
    exact .nil
  | cons a as ih =>
    rw [List.mapM_cons] at h
    obtain ⟨b, hb, h⟩ := bind_ok h
    obtain ⟨rest, hrest, h⟩ := bind_ok h
    cases h
    exact .cons hb (ih hrest)

theorem mem_mapM {f : α → Except ε β} {as : List α} {bs : List β} (h : as.mapM f = .ok bs)
    (b : β) : b ∈ bs ↔ ∃ a ∈ as, f a = .ok b := by
  have heach := forall₂_mapM h
  clear h
  induction heach with
  | nil => simp
  | cons ha _ ih =>
    refine List.mem_cons.trans ((or_congr_right ih).trans ?_)
    simp [ha, eq_comm]

theorem mapM_isSome {f : α → Option β} {as : List α} :
    (∃ bs, as.mapM f = some bs) ↔ ∀ a ∈ as, ∃ b, f a = some b := by
  induction as with
  | nil => simp
  | cons a as ih =>
    rw [List.forall_mem_cons, ← ih, List.mapM_cons]
    simp only [Option.bind_eq_bind, Option.bind_eq_some_iff, Option.pure_def]
    constructor
    · rintro ⟨_, b, hb, bs, hbs, -⟩
      exact ⟨⟨b, hb⟩, ⟨bs, hbs⟩⟩
    · rintro ⟨⟨b, hb⟩, ⟨bs, hbs⟩⟩
      exact ⟨_, b, hb, bs, hbs, rfl⟩

variable {P : ε → Prop}

theorem throwsOnly_ok (a : α) : ThrowsOnly P (.ok a : Except ε α) := by
  intro e h
  cases h

theorem throwsOnly_error {e : ε} (h : P e) : ThrowsOnly P (.error e : Except ε α) := by
  intro e' he
  cases he
  exact h

theorem ThrowsOnly.bind {x : Except ε α} {f : α → Except ε β} (hx : ThrowsOnly P x)
    (hf : ∀ a, x = .ok a → ThrowsOnly P (f a)) : ThrowsOnly P (x >>= f) := by
  intro e h
  rcases bind_error h with h | ⟨a, ha, h⟩
  · exact hx e h
  · exact hf a ha e h

theorem throwsOnly_foldlM {σ : Type} {f : σ → α → Except ε σ} (hf : ∀ s a, ThrowsOnly P (f s a))
    (as : List α) (s : σ) : ThrowsOnly P (as.foldlM f s) := by
  induction as generalizing s with
  | nil => exact throwsOnly_ok s
  | cons a as ih =>
    rw [List.foldlM_cons]
    exact (hf s a).bind fun t _ => ih t

theorem returns_iff_throwsOnly {Q : ε → Prop} {x : Except ε α} (hP : ThrowsOnly P x)
    (hPQ : ∀ e, P e → ¬ Q e) : Returns x ↔ ThrowsOnly Q x := by
  cases x with
  | ok a => exact ⟨fun _ => throwsOnly_ok a, fun _ => returns_ok a⟩
  | error e =>
    refine ⟨fun h => absurd h (not_returns_error e), ?_⟩
    intro hQ
    exact absurd (hQ e rfl) (hPQ e (hP e rfl))

end ExceptRules
