import EcidsCore.DataBuffer
import EcidsCore.FifoLedger

set_option autoImplicit false

/-! The inspection queue between the subscriber threads and the inspection loop. Each
call runs under the buffer's mutex; a consumer in `wait_for` gives it up while it waits. -/
namespace EcidsCore
open GuardedRuns

/-- A frame that was offered, and how many were queued when it came. -/
structure Arrival (α : Type) where
  met : ℕ
  frame : α
  queued : Bool
deriving DecidableEq, Repr

/-- `left` logs what left the queue: dequeued frames as taken, cleared ones as displaced. -/
structure InspectionQueue (α : Type) where
  buffer : DataBuffer α
  waiting : ℕ := 0
  arrivals : List (Arrival α) := []
  left : List (FifoFate × α) := []

inductive QueueAction (α : Type) where
  | enqueueInspection (frame : α)
  | dequeueInspection (timeoutMs : ℤ)
  | wake (timedOut : Bool)
  | clearInspectionQueue
deriving DecidableEq, Repr

namespace InspectionQueue
variable {α : Type}

def start (capacity : ℕ) : InspectionQueue α := { buffer := { inspectionCapacity := capacity } }

def queue (s : InspectionQueue α) : List α := s.buffer.inspectionQueue

def enqueue (s : InspectionQueue α) (frame : α) : InspectionQueue α :=
  let buffer := s.buffer.enqueueInspection frame
  { s with
    buffer
    arrivals := s.arrivals ++
      [⟨s.queue.length, frame, s.queue.length < buffer.inspectionQueue.length⟩] }

def take (s : InspectionQueue α) (frame : α) (buffer : DataBuffer α) : InspectionQueue α :=
  { s with buffer, left := s.left ++ [(.taken, frame)] }

def clear (s : InspectionQueue α) : InspectionQueue α :=
  { s with
    buffer := s.buffer.clearInspectionQueue
    left := s.left ++ s.queue.map (.displaced, ·) }

def step (s : InspectionQueue α) : QueueAction α → Option (InspectionQueue α)
  | .enqueueInspection frame => some (s.enqueue frame)
  | .dequeueInspection timeoutMs =>
    match s.buffer.dequeueInspection with
    | some (frame, buffer) => some (s.take frame buffer)
    | none => some (if timeoutMs ≤ 0 then s else { s with waiting := s.waiting + 1 })
  | .wake timedOut =>
    -- a waiting consumer has the mutex again: notified, timed out or woken for no reason
    if s.waiting = 0 then none
    else
      match s.buffer.dequeueInspection with
      | some (frame, buffer) => some { s.take frame buffer with waiting := s.waiting - 1 }
      | none => some { s with waiting := if timedOut then s.waiting - 1 else s.waiting }
  | .clearInspectionQueue => some s.clear

def ledger (s : InspectionQueue α) : FifoLedger α := ⟨s.left, s.queue⟩

def dequeued (s : InspectionQueue α) : List α := s.ledger.withFate .taken

def cleared (s : InspectionQueue α) : List α := s.ledger.withFate .displaced

/-- The offered frames that came while fewer than `capacity` were queued, in order. -/
def roomFor (capacity : ℕ) (s : InspectionQueue α) : List α :=
  (s.arrivals.filter fun a => a.met < capacity).map Arrival.frame

structure Accounted (capacity : ℕ) (s : InspectionQueue α) : Prop where
  bounded : s.queue.length ≤ capacity
  inOrder : s.left.map Prod.snd ++ s.queue = s.roomFor capacity
  onceEach : (s.dequeued ++ s.cleared ++ s.queue).Perm (s.roomFor capacity)
  dequeuedInOrder : s.dequeued.Sublist (s.roomFor capacity)
  clearedInOrder : s.cleared.Sublist (s.roomFor capacity)
  refused : ∀ a ∈ s.arrivals, a.queued = false → a.met = capacity

structure Booked (capacity : ℕ) (s : InspectionQueue α) : Prop where
  fixed : s.buffer.inspectionCapacity = capacity
  bounded : s.queue.length ≤ capacity
  accepted : s.ledger.accepted = s.roomFor capacity
  refused : ∀ a ∈ s.arrivals, a.queued = false → a.met = capacity

variable {s t : InspectionQueue α} {a : QueueAction α} {capacity : ℕ}

theorem step_cases (h : s.step a = some t) :
    (∃ frame, a = .enqueueInspection frame ∧ t = s.enqueue frame) ∨
    (∃ frame buffer waiting, s.buffer.dequeueInspection = some (frame, buffer) ∧
      t = { s.take frame buffer with waiting }) ∨
    (∃ waiting, t = { s with waiting }) ∨
    (a = .clearInspectionQueue ∧ t = s.clear) := by
  cases a with
  | enqueueInspection frame => exact .inl ⟨frame, rfl, (Option.some.inj h).symm⟩
  | dequeueInspection timeoutMs =>
    cases hq : s.buffer.dequeueInspection with
    | some got =>
      simp only [step, hq, Option.some.injEq] at h
      exact .inr (.inl ⟨got.1, got.2, s.waiting, rfl, h.symm⟩)
    | none =>
      simp only [step, hq, Option.some.injEq] at h
      refine .inr (.inr (.inl ?_))
      split at h
      · exact ⟨s.waiting, h.symm⟩
      · exact ⟨s.waiting + 1, h.symm⟩
  | wake timedOut =>
    simp only [step] at h
    split at h
    · cases h
    · cases hq : s.buffer.dequeueInspection with
      | some got =>
        simp only [hq, Option.some.injEq] at h
        exact .inr (.inl ⟨got.1, got.2, s.waiting - 1, rfl, h.symm⟩)
      | none =>
        simp only [hq, Option.some.injEq] at h
        exact .inr (.inr (.inl ⟨_, h.symm⟩))
  | clearInspectionQueue => exact .inr (.inr (.inr ⟨rfl, (Option.some.inj h).symm⟩))

theorem booked_enqueue (hs : Booked capacity s) (frame : α) :
    Booked capacity (s.enqueue frame) := by
  obtain ⟨hcap, hbound, haccepted, hrefused⟩ := hs
  by_cases hfull : s.buffer.inspectionCapacity ≤ s.buffer.inspectionQueue.length
  · -- refused: the queue holds exactly `capacity` frames
    have hkept : s.buffer.enqueueInspection frame = s.buffer := by
      rw [DataBuffer.enqueueInspection, if_pos hfull]
    have hmet : s.queue.length = capacity := by
      rw [hcap] at hfull
      exact Nat.le_antisymm hbound hfull
    refine ⟨?_, ?_, ?_, ?_⟩
    · simpa only [enqueue, hkept] using hcap
    · simpa only [enqueue, hkept, queue] using hbound
    · have hroom : (s.enqueue frame).roomFor capacity = s.roomFor capacity := by
        simp [roomFor, enqueue, hmet]
      rw [hroom, ← haccepted]
      simp only [ledger, enqueue, hkept, queue]
    · intro a ha hq
      simp only [enqueue, List.mem_append, List.mem_singleton] at ha
      rcases ha with ha | rfl
      · exact hrefused a ha hq
      · exact hmet
  · have hpushed : s.buffer.enqueueInspection frame =
        { s.buffer with inspectionQueue := s.buffer.inspectionQueue ++ [frame] } := by
      rw [DataBuffer.enqueueInspection, if_neg hfull]
    have hmet : s.queue.length < capacity := by
      rw [hcap] at hfull
      exact Nat.lt_of_not_le hfull
    refine ⟨?_, ?_, ?_, ?_⟩
    · simpa only [enqueue, hpushed] using hcap
    · simp only [enqueue, hpushed, queue, List.length_append, List.length_singleton]
      exact hmet
    · have hroom : (s.enqueue frame).roomFor capacity = s.roomFor capacity ++ [frame] := by
        simp [roomFor, enqueue, hmet]
      have hledger : (s.enqueue frame).ledger = s.ledger.push frame := by
        simp only [ledger, enqueue, hpushed, queue, FifoLedger.push]
      rw [hroom, hledger, FifoLedger.accepted_push, haccepted]
    · intro a ha hq
      simp only [enqueue, hpushed, queue, List.length_append, List.length_singleton,
        List.mem_append, List.mem_singleton] at ha
      rcases ha with ha | rfl
      · exact hrefused a ha hq
      · simp at hq

theorem booked_take (hs : Booked capacity s) {frame : α} {buffer : DataBuffer α} (waiting : ℕ)
    (h : s.buffer.dequeueInspection = some (frame, buffer)) :
    Booked capacity { s.take frame buffer with waiting } := by
  obtain ⟨hcap, hbound, haccepted, hrefused⟩ := hs
  have hq : s.queue = frame :: buffer.inspectionQueue := (DataBuffer.dequeueInspection_some h).1
  refine ⟨?_, ?_, ?_, hrefused⟩
  · exact (DataBuffer.dequeueInspection_capacity h).trans hcap
  · rw [hq, List.length_cons] at hbound
    exact (Nat.le_succ _).trans hbound
  · have hledger : (⟨s.left ++ [(.taken, frame)], buffer.inspectionQueue⟩ : FifoLedger α) =
        s.ledger.remove .taken := (FifoLedger.remove_cons .taken s.ledger hq).symm
    change FifoLedger.accepted ⟨s.left ++ [(.taken, frame)], buffer.inspectionQueue⟩ = _
    rw [hledger, FifoLedger.accepted_remove, haccepted]
    rfl

theorem booked_clear (hs : Booked capacity s) : Booked capacity s.clear := by
  obtain ⟨hcap, -, haccepted, hrefused⟩ := hs
  refine ⟨hcap, Nat.zero_le _, ?_, hrefused⟩
  change (s.ledger.flush .displaced).accepted = s.roomFor capacity
  rw [FifoLedger.accepted_flush, haccepted]

theorem booked_step (hs : Booked capacity s) (h : s.step a = some t) : Booked capacity t := by
  rcases step_cases h with ⟨frame, -, rfl⟩ | ⟨frame, buffer, waiting, hq, rfl⟩ | ⟨waiting, rfl⟩ |
    ⟨-, rfl⟩
  · exact booked_enqueue hs frame
  · exact booked_take hs waiting hq
  · exact ⟨hs.fixed, hs.bounded, hs.accepted, hs.refused⟩
  · exact booked_clear hs

theorem booked_start (capacity : ℕ) : Booked capacity (start capacity : InspectionQueue α) :=
  ⟨rfl, Nat.zero_le _, rfl, fun _ ha => absurd ha List.not_mem_nil⟩

theorem Booked.accounted (hs : Booked capacity s) : Accounted capacity s := by
  refine ⟨hs.bounded, hs.accepted, ?_, ?_, ?_, hs.refused⟩
  · rw [← hs.accepted]
    exact s.ledger.accepted_perm.symm
  · rw [← hs.accepted]
    exact s.ledger.withFate_sublist .taken
  · rw [← hs.accepted]
    exact s.ledger.withFate_sublist .displaced

/-- For every capacity and every interleaving of producers, consumers and clears. -/
theorem run_accounted {as : List (QueueAction α)} (h : run step (start capacity) as = some s) :
    Accounted capacity s :=
  (run_preserves (fun _ _ _ => booked_step) (booked_start capacity) h).accounted

def oneSlot : List (QueueAction ℕ) :=
  [.dequeueInspection 100, .enqueueInspection 4, .wake false, .enqueueInspection 5,
    .enqueueInspection 6]

theorem run_accounted_refusal : Accounted 1
    { buffer := { inspectionQueue := [5], inspectionCapacity := 1 }
      arrivals := [⟨0, 4, true⟩, ⟨0, 5, true⟩, ⟨1, 6, false⟩]
      left := [(.taken, 4)] } :=
  run_accounted (show run step (start 1) oneSlot = some _ from rfl)

end InspectionQueue
end EcidsCore
