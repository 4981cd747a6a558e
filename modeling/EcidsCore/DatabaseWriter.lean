import EcidsCore.FifoLedger
import EcidsCore.GuardedRuns
import EcidsCore.RecordManager

set_option autoImplicit false

/-! The asynchronous file writer: producers that enqueue requests, the thread that
takes them, and `stop`. A call is cut where another thread can come in between. -/
namespace EcidsCore
open GuardedRuns

inductive EnqueueCall where
  | image (recordPath subfolder cameraId : String) (pairIndex : ℕ) (data : Option Bytes)
      (format : String)
  | aiResult (recordPath subfolder cameraId : String) (pairIndex : ℕ) (json : Bytes)
  | stereoResult (recordPath subfolder cameraId : String) (pairIndex : ℕ) (json : Bytes)
deriving DecidableEq, Repr

/-- An image without data is dropped. -/
def EnqueueCall.request? : EnqueueCall → Option DBWriteRequest
  | .image p sub cam i data fmt =>
    match data with
    | none | some [] => none
    | some (b :: bs) =>
      some { type := .image, recordPath := p, subfolder := sub, cameraId := cam, pairIndex := i,
             data := b :: bs, format := fmt }
  | .aiResult p sub cam i json =>
    some { type := .aiResult, recordPath := p, subfolder := sub, cameraId := cam, pairIndex := i,
           textData := json }
  | .stereoResult p sub cam i json =>
    some { type := .stereoResult, recordPath := p, subfolder := sub, cameraId := cam,
           pairIndex := i, textData := json }

def EnqueueCall.pairIndex : EnqueueCall → ℕ
  | .image _ _ _ i _ _ | .aiResult _ _ _ i _ | .stereoResult _ _ _ i _ => i

theorem EnqueueCall.request?_pairIndex {c : EnqueueCall} {r : DBWriteRequest}
    (h : c.request? = some r) : r.pairIndex = c.pairIndex := by
  cases c with
  | image p sub cam i data fmt =>
    cases data with
    | none => cases h
    | some d =>
      cases d with
      | nil => cases h
      | cons b bs =>
        cases h
        rfl
  | aiResult p sub cam i json =>
    cases h
    rfl
  | stereoResult p sub cam i json =>
    cases h
    rfl

def EnqueueCall.subfolder : EnqueueCall → String
  | .image _ sub _ _ _ _ | .aiResult _ sub _ _ _ | .stereoResult _ sub _ _ _ => sub

theorem EnqueueCall.request?_subfolder {c : EnqueueCall} {r : DBWriteRequest}
    (h : c.request? = some r) : r.subfolder = c.subfolder := by
  cases c with
  | image p sub cam i data fmt =>
    rcases data with _ | _ | _ <;> cases h
    rfl
  | aiResult | stereoResult =>
    cases h
    rfl

inductive WriterPhase where
  | head
  | wait
  | holding (req : DBWriteRequest)
  | exited
deriving DecidableEq, Repr

inductive StopCall where
  | notCalled
  | joining
  | returned
deriving DecidableEq, Repr

/-- `inFlight` holds the requests of producers that have passed the running check
and wait for the mutex. The last five fields record what has happened. -/
structure DatabaseWriter where
  maxQueue : ℕ
  running : Bool
  queue : List DBWriteRequest := []
  phase : WriterPhase := .head
  stop : StopCall := .notCalled
  inFlight : List DBWriteRequest := []
  disk : Files
  accepted : List DBWriteRequest := []
  removed : List (FifoFate × DBWriteRequest) := []
  written : List DBWriteRequest := []
  poppedEmpty : Bool := false

inductive WriterAction where
  | enqueue (call : EnqueueCall)
  | push (i : ℕ)
  | testRunning
  | wake
  | process
  | callStop
  | join
deriving DecidableEq, Repr

namespace DatabaseWriter

/-- `size_t` of the `int` that the configuration holds. -/
def maxQueueOf (capacity : ℤ) : ℕ := (capacity % 2 ^ 64).toNat

/-- After `init` and `start`, with the configured number `z` read as an `int`. -/
def init (z : ℤ) (disk : Files) : DatabaseWriter where
  maxQueue := maxQueueOf (Json.toInt32 z)
  running := true
  disk := disk

/-- `queue_.pop()` by a producer; the standard does not define it on an empty queue. -/
def pop (s : DatabaseWriter) : DatabaseWriter :=
  match s.queue with
  | [] => { s with poppedEmpty := true }
  | r :: rest => { s with queue := rest, removed := s.removed ++ [(.displaced, r)] }

def append (s : DatabaseWriter) (r : DBWriteRequest) : DatabaseWriter :=
  { s with queue := s.queue ++ [r], accepted := s.accepted ++ [r] }

def push (s : DatabaseWriter) (r : DBWriteRequest) : DatabaseWriter :=
  (if s.maxQueue ≤ s.queue.length then s.pop else s).append r

def enqueue (s : DatabaseWriter) (call : EnqueueCall) : DatabaseWriter :=
  if s.running then
    match call.request? with
    | none => s
    | some r => { s with inFlight := s.inFlight ++ [r] }
  else s

/-- The wait returns on a request, on `stop` and on its timeout. -/
def wake (s : DatabaseWriter) : DatabaseWriter :=
  match s.queue with
  | [] => { s with phase := if s.running then .head else .exited }
  | r :: rest =>
    { s with queue := rest, removed := s.removed ++ [(.taken, r)], phase := .holding r }

def step (cwd : List Bytes) (s : DatabaseWriter) : WriterAction → Option DatabaseWriter
  | .enqueue call => some (s.enqueue call)
  | .push i =>
    match s.inFlight[i]? with
    | none => none
    | some r => some { s.push r with inFlight := s.inFlight.eraseIdx i }
  | .testRunning =>
    if s.phase = .head then some { s with phase := if s.running then .wait else .exited }
    else none
  | .wake => if s.phase = .wait then some s.wake else none
  | .process =>
    match s.phase with
    | .holding r =>
      some { s with phase := .head, written := s.written ++ [r],
                    disk := processRequest cwd s.disk r }
    | _ => none
  | .callStop =>
    if s.stop = .notCalled then some { s with running := false, stop := .joining } else none
  | .join =>
    if s.stop = .joining ∧ s.phase = .exited then some { s with stop := .returned } else none

def held (s : DatabaseWriter) : List DBWriteRequest :=
  match s.phase with
  | .holding r => [r]
  | _ => []

def displaced (s : DatabaseWriter) : List DBWriteRequest :=
  (s.removed.filter fun e => e.1 = .displaced).map Prod.snd

def ledger (s : DatabaseWriter) : FifoLedger DBWriteRequest := ⟨s.removed, s.queue⟩

theorem displaced_eq (s : DatabaseWriter) : s.displaced = s.ledger.withFate .displaced := rfl

theorem ledger_pop (s : DatabaseWriter) : s.pop.ledger = s.ledger.remove .displaced := by
  unfold pop
  split
  · rename_i h
    simp [ledger, FifoLedger.remove, h]
  · rename_i h
    rw [FifoLedger.remove_cons .displaced s.ledger h]
    rfl

@[simp] theorem ledger_append (s : DatabaseWriter) (r : DBWriteRequest) :
    (s.append r).ledger = s.ledger.push r := rfl

theorem ledger_push (s : DatabaseWriter) (r : DBWriteRequest) :
    (s.push r).ledger = s.ledger.offer s.maxQueue r := by
  rw [push, ledger_append, FifoLedger.offer]
  by_cases h : s.maxQueue ≤ s.queue.length
  · rw [if_pos h, if_pos (show s.maxQueue ≤ s.ledger.waiting.length from h), ledger_pop]
  · rw [if_neg h, if_neg (show ¬ s.maxQueue ≤ s.ledger.waiting.length from h)]

theorem pop_unchanged (s : DatabaseWriter) :
    s.pop.maxQueue = s.maxQueue ∧ s.pop.running = s.running ∧ s.pop.phase = s.phase ∧
      s.pop.stop = s.stop ∧ s.pop.disk = s.disk ∧ s.pop.accepted = s.accepted ∧
      s.pop.written = s.written := by
  unfold pop
  split <;> exact ⟨rfl, rfl, rfl, rfl, rfl, rfl, rfl⟩

theorem push_unchanged (s : DatabaseWriter) (r : DBWriteRequest) :
    (s.push r).maxQueue = s.maxQueue ∧ (s.push r).running = s.running ∧
      (s.push r).phase = s.phase ∧ (s.push r).stop = s.stop ∧ (s.push r).disk = s.disk ∧
      (s.push r).accepted = s.accepted ++ [r] ∧ (s.push r).written = s.written := by
  unfold push
  split
  · obtain ⟨h1, h2, h3, h4, h5, h6, h7⟩ := s.pop_unchanged
    exact ⟨h1, h2, h3, h4, h5, by rw [append, h6], h7⟩
  · exact ⟨rfl, rfl, rfl, rfl, rfl, rfl, rfl⟩

theorem push_poppedEmpty {s : DatabaseWriter} (hcap : 0 < s.maxQueue) (r : DBWriteRequest) :
    (s.push r).poppedEmpty = s.poppedEmpty := by
  unfold push
  split
  · rename_i hfull
    cases hq : s.queue with
    | nil =>
      rw [hq, List.length_nil] at hfull
      omega
    | cons q rest => simp [append, pop, hq]
  · rfl

end DatabaseWriter

end EcidsCore
