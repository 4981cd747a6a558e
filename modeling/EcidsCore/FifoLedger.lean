import Mathlib.Data.List.Basic
import Mathlib.Data.List.Perm.Basic

set_option autoImplicit false

/-! A first-in first-out queue with the record of everything that left it.
Items leave at the front only, taken by a consumer or displaced by a producer. -/

/-- How an item left the queue. -/
inductive FifoFate where
  | taken
  | displaced
deriving DecidableEq, Repr

structure FifoLedger (α : Type*) where
  removed : List (FifoFate × α)
  waiting : List α

variable {α : Type*}

namespace FifoLedger

def empty : FifoLedger α := ⟨[], []⟩

/-- Every item ever pushed, in order: the removed ones came first. -/
def accepted (L : FifoLedger α) : List α := L.removed.map Prod.snd ++ L.waiting

def withFate (L : FifoLedger α) (f : FifoFate) : List α :=
  (L.removed.filter fun e => e.1 = f).map Prod.snd

def push (L : FifoLedger α) (a : α) : FifoLedger α := { L with waiting := L.waiting ++ [a] }

def remove (f : FifoFate) (L : FifoLedger α) : FifoLedger α :=
  match L.waiting with
  | [] => L
  | a :: rest => ⟨L.removed ++ [(f, a)], rest⟩

/-- A push that makes room first when `cap` items are waiting. -/
def offer (cap : ℕ) (L : FifoLedger α) (a : α) : FifoLedger α :=
  (if cap ≤ L.waiting.length then L.remove .displaced else L).push a

def flush (f : FifoFate) (L : FifoLedger α) : FifoLedger α :=
  ⟨L.removed ++ L.waiting.map (f, ·), []⟩

theorem remove_cons (f : FifoFate) (L : FifoLedger α) {a : α} {rest : List α}
    (h : L.waiting = a :: rest) : L.remove f = ⟨L.removed ++ [(f, a)], rest⟩ := by
  simp only [remove, h]

@[simp] theorem accepted_push (L : FifoLedger α) (a : α) :
    (L.push a).accepted = L.accepted ++ [a] := by
  simp [accepted, push]

@[simp] theorem accepted_remove (f : FifoFate) (L : FifoLedger α) :
    (L.remove f).accepted = L.accepted := by
  cases h : L.waiting with
  | nil => simp [remove, h]
  | cons a rest => simp [remove_cons f L h, accepted, h]

@[simp] theorem accepted_flush (f : FifoFate) (L : FifoLedger α) :
    (L.flush f).accepted = L.accepted := by
  simp [accepted, flush, Function.comp_def]

@[simp] theorem accepted_offer (cap : ℕ) (L : FifoLedger α) (a : α) :
    (L.offer cap a).accepted = L.accepted ++ [a] := by
  unfold offer
  split <;> simp

@[simp] theorem withFate_push (L : FifoLedger α) (f : FifoFate) (a : α) :
    (L.push a).withFate f = L.withFate f := rfl

theorem withFate_remove_cons (f g : FifoFate) (L : FifoLedger α) {a : α} {rest : List α}
    (h : L.waiting = a :: rest) :
    (L.remove f).withFate g = L.withFate g ++ if f = g then [a] else [] := by
  rw [remove_cons f L h]
  by_cases hfg : f = g <;> simp [withFate, hfg]

theorem offer_cases (cap : ℕ) (L : FifoLedger α) (a : α) :
    L.offer cap a = L.push a ∨
      ∃ b rest, L.waiting = b :: rest ∧ cap ≤ L.waiting.length ∧
        L.offer cap a = ⟨L.removed ++ [(.displaced, b)], rest ++ [a]⟩ := by
  unfold offer
  split
  · rename_i hfull
    cases hw : L.waiting with
    | nil => exact .inl (by rw [remove, hw])
    | cons b rest =>
      refine .inr ⟨b, rest, rfl, by rwa [hw] at hfull, ?_⟩
      rw [remove_cons _ L hw, push]
  · exact .inl rfl

theorem withFate_offer_taken (cap : ℕ) (L : FifoLedger α) (a : α) :
    (L.offer cap a).withFate .taken = L.withFate .taken := by
  rcases L.offer_cases cap a with h | ⟨b, rest, -, -, h⟩ <;> rw [h]
  · exact withFate_push L .taken a
  · simp [withFate]

theorem withFate_sublist (L : FifoLedger α) (f : FifoFate) :
    (L.withFate f).Sublist L.accepted :=
  ((List.filter_sublist).map Prod.snd).trans (List.sublist_append_left _ _)

private theorem perm_by_fate (es : List (FifoFate × α)) :
    (es.map Prod.snd).Perm ((es.filter fun e => e.1 = .taken).map Prod.snd ++
      (es.filter fun e => e.1 = .displaced).map Prod.snd) := by
  induction es with
  | nil => exact .nil
  | cons e es ih =>
    obtain ⟨f, a⟩ := e
    cases f with
    | taken => simpa using ih
    | displaced =>
      simpa using (ih.cons a).trans List.perm_middle.symm

/-- Nothing is lost: an accepted item was taken, was displaced, or still waits. -/
theorem accepted_perm (L : FifoLedger α) :
    L.accepted.Perm (L.withFate .taken ++ L.withFate .displaced ++ L.waiting) :=
  (perm_by_fate L.removed).append_right L.waiting

theorem offer_bounded {cap : ℕ} (hcap : 0 < cap) (L : FifoLedger α) (a : α)
    (h : L.waiting.length ≤ cap) : (L.offer cap a).waiting.length ≤ cap := by
  unfold offer
  split
  · rename_i hfull
    cases hw : L.waiting with
    | nil =>
      rw [hw, List.length_nil] at hfull
      omega
    | cons b rest =>
      rw [hw, List.length_cons] at h
      simp only [remove_cons _ L hw, push, List.length_append, List.length_singleton]
      omega
  · simp only [push, List.length_append, List.length_singleton]
    omega

end FifoLedger
