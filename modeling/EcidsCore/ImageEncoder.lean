import EcidsCore.FifoLedger
import EcidsCore.GuardedRuns
import EcidsCore.JsonText

set_option autoImplicit false

/-! The thread that compresses images for the WebSocket clients, behind a queue of five
that drops its oldest request. -/
namespace EcidsCore
open GuardedRuns

structure EncodeRequest where
  rawData : Bytes
  width : ℤ
  height : ℤ
  topic : String
  headerJson : Bytes
deriving DecidableEq, Repr

structure EncodeResult where
  jpgData : Bytes
  topic : String
  headerJson : Bytes
deriving DecidableEq, Repr

inductive Outcome where
  | skipped
  | failed
  | delivered (result : EncodeResult)
deriving DecidableEq, Repr

def Outcome.result? : Outcome → Option EncodeResult
  | .delivered result => some result
  | .skipped | .failed => none

namespace EncodeRequest

def dims (r : EncodeRequest) : ℤ × ℤ :=
  if (r.width ≤ 0 ∨ r.height ≤ 0) ∧ r.rawData.length % 4 = 0 then
    (1920, Json.toInt32 (r.rawData.length / (1920 * 4) : ℕ))
  else (r.width, r.height)

def Fits (r : EncodeRequest) : Prop :=
  0 < r.dims.1 ∧ 0 < r.dims.2 ∧ r.dims.1 * r.dims.2 * 4 ≤ r.rawData.length

instance (r : EncodeRequest) : Decidable r.Fits := inferInstanceAs (Decidable (_ ∧ _))

/-- One round of `encode_loop_` behind the queue. `compress` is TurboJPEG, given the pixels,
width and height; an empty result counts as a failure. -/
def outcome (compress : Bytes → ℤ → ℤ → Option Bytes) (r : EncodeRequest) : Outcome :=
  if r.Fits then
    match compress r.rawData r.dims.1 r.dims.2 with
    | none | some [] => .failed
    | some (b :: bs) => .delivered ⟨b :: bs, r.topic, r.headerJson⟩
  else .skipped

end EncodeRequest

inductive EncoderPhase where
  | absent
  | head
  | wait
  | holding (r : EncodeRequest)
  | ended
deriving DecidableEq, Repr

def EncoderPhase.held : EncoderPhase → List EncodeRequest
  | .holding r => [r]
  | .absent | .head | .wait | .ended => []

/-- `inFlight` are calls of `enqueue` between the test of the flag and the lock; `finished`
logs the rounds of the thread. -/
structure ImageEncoder where
  running : Bool := false
  stopping : Bool := false
  phase : EncoderPhase := .absent
  inFlight : List EncodeRequest := []
  ledger : FifoLedger EncodeRequest := .empty
  finished : List (EncodeRequest × Outcome) := []

inductive EncoderAction where
  | start
  | call (r : EncodeRequest)
  | push (i : ℕ)
  | test
  | wake
  | encode
  | callStop
  | join
deriving DecidableEq, Repr

namespace ImageEncoder

def maxQueue : ℕ := 5

abbrev queue (s : ImageEncoder) : List EncodeRequest := s.ledger.waiting

def displaced (s : ImageEncoder) : List EncodeRequest := s.ledger.withFate .displaced

def results (s : ImageEncoder) : List EncodeResult := s.finished.filterMap fun f => f.2.result?

/-- The head of `enqueue`: nothing is taken before `start`, after `stop`, or without data. -/
def call (s : ImageEncoder) (r : EncodeRequest) : ImageEncoder :=
  if s.running ∧ r.rawData ≠ [] then { s with inFlight := s.inFlight ++ [r] } else s

def wake (s : ImageEncoder) : ImageEncoder :=
  match s.queue with
  | [] => { s with phase := if s.running then .head else .ended }
  | r :: _ => { s with phase := .holding r, ledger := s.ledger.remove .taken }

def step (compress : Bytes → ℤ → ℤ → Option Bytes) (s : ImageEncoder) :
    EncoderAction → Option ImageEncoder
  | .start =>
    if s.stopping then none
    else if s.running then some s
    else some { s with running := true, phase := .head }
  | .call r => some (s.call r)
  | .push i =>
    match s.inFlight[i]? with
    | none => none
    | some r =>
      some { s with ledger := s.ledger.offer maxQueue r, inFlight := s.inFlight.eraseIdx i }
  | .test =>
    if s.phase = .head then some { s with phase := if s.running then .wait else .ended } else none
  | .wake => if s.phase = .wait then some s.wake else none
  | .encode =>
    match s.phase with
    | .holding r =>
      some { s with phase := .head, finished := s.finished ++ [(r, r.outcome compress)] }
    | _ => none
  | .callStop =>
    if s.stopping then none
    else if s.running then some { s with running := false, stopping := true }
    else some s
  | .join =>
    if s.stopping ∧ s.phase = .ended then some { s with phase := .absent, stopping := false }
    else none

variable {compress : Bytes → ℤ → ℤ → Option Bytes} {s t : ImageEncoder} {a : EncoderAction}

structure Sound (compress : Bytes → ℤ → ℤ → Option Bytes) (s : ImageEncoder) : Prop where
  bounded : s.queue.length ≤ 5
  inOrder : (s.finished.map Prod.fst).Sublist s.ledger.accepted
  accounted : s.ledger.accepted.Perm
    (s.finished.map Prod.fst ++ s.phase.held ++ s.displaced ++ s.queue)
  outcomes : ∀ f ∈ s.finished, f.2 = f.1.outcome compress
  inside : ∀ f ∈ s.finished, f.2 ≠ .skipped → f.1.Fits
  idle : s.running = false → s.stopping = false → s.phase.held = []

def DisplacesOldest (compress : Bytes → ℤ → ℤ → Option Bytes) (s : ImageEncoder)
    (a : EncoderAction) : Prop :=
  ∀ t, s.step compress a = some t → t.displaced = s.displaced ∨
    ∃ r rest, s.queue = r :: rest ∧ s.queue.length = 5 ∧ t.displaced = s.displaced ++ [r]

structure Kept (compress : Bytes → ℤ → ℤ → Option Bytes) (s : ImageEncoder) : Prop where
  bounded : s.queue.length ≤ maxQueue
  taken : s.ledger.withFate .taken = s.finished.map Prod.fst ++ s.phase.held
  outcomes : ∀ f ∈ s.finished, f.2 = f.1.outcome compress
  halted : s.stopping → s.running = false
  idle : s.running = false → s.stopping = false → s.phase = .absent

theorem fits_of_outcome {r : EncodeRequest} (h : r.outcome compress ≠ .skipped) : r.Fits := by
  by_contra hfits
  exact h (if_neg hfits)

theorem Kept.of_idle_phase (hs : Kept compress s) {p : EncoderPhase} (hp : s.phase.held = [])
    (hp' : p.held = []) (halive : s.phase ≠ .absent) :
    Kept compress { s with phase := p } := by
  refine ⟨hs.bounded, ?_, hs.outcomes, hs.halted, ?_⟩
  · change s.ledger.withFate .taken = s.finished.map Prod.fst ++ p.held
    rw [hs.taken, hp, hp']
  · intro hr hstop
    exact absurd (hs.idle hr hstop) halive

theorem kept_push (hs : Kept compress s) (r : EncodeRequest) (inFlight : List EncodeRequest) :
    Kept compress { s with ledger := s.ledger.offer maxQueue r, inFlight := inFlight } := by
  refine ⟨?_, ?_, hs.outcomes, hs.halted, hs.idle⟩
  · exact FifoLedger.offer_bounded (by decide) s.ledger r hs.bounded
  · change (s.ledger.offer maxQueue r).withFate .taken = _
    rw [FifoLedger.withFate_offer_taken]
    exact hs.taken

theorem kept_wake (hs : Kept compress s) (hp : s.phase = .wait) : Kept compress s.wake := by
  unfold wake
  split
  · refine hs.of_idle_phase (by rw [hp]; rfl) ?_ (by rw [hp]; simp)
    split <;> rfl
  · rename_i r rest hq
    have hremove : s.ledger.remove .taken = ⟨s.ledger.removed ++ [(.taken, r)], rest⟩ :=
      FifoLedger.remove_cons .taken s.ledger hq
    refine ⟨?_, ?_, hs.outcomes, hs.halted, ?_⟩
    · change (s.ledger.remove .taken).waiting.length ≤ maxQueue
      rw [hremove]
      have hbounded := hs.bounded
      rw [hq, List.length_cons] at hbounded
      exact Nat.le_of_succ_le hbounded
    · change (s.ledger.remove .taken).withFate .taken = s.finished.map Prod.fst ++ [r]
      rw [FifoLedger.withFate_remove_cons _ _ _ hq, if_pos rfl, hs.taken, hp]
      simp [EncoderPhase.held]
    · intro hr hstop
      exact absurd (hs.idle hr hstop) (by rw [hp]; simp)

theorem kept_encode (hs : Kept compress s) {r : EncodeRequest} (hp : s.phase = .holding r) :
    Kept compress { s with
      phase := .head, finished := s.finished ++ [(r, r.outcome compress)] } := by
  refine ⟨hs.bounded, ?_, ?_, hs.halted, ?_⟩
  · change s.ledger.withFate .taken = (s.finished ++ [(r, _)]).map Prod.fst ++ []
    rw [hs.taken, hp, List.map_append, List.append_nil]
    rfl
  · intro f hf
    rcases List.mem_append.1 hf with hf | hf
    · exact hs.outcomes f hf
    · rw [List.mem_singleton.1 hf]
  · intro hr hstop
    exact absurd (hs.idle hr hstop) (by rw [hp]; simp)

theorem kept_step (hs : Kept compress s) (h : s.step compress a = some t) : Kept compress t := by
  cases a <;> simp only [step] at h
  case start =>
    split at h
    · cases h
    · rename_i hstop
      split at h
      · cases h
        exact hs
      · rename_i hrun
        cases h
        have habsent := hs.idle (by simpa using hrun) (by simpa using hstop)
        refine ⟨hs.bounded, ?_, hs.outcomes, fun hstop' => absurd hstop' hstop, fun hr => ?_⟩
        · rw [hs.taken, habsent]
          rfl
        · cases hr
  case call r =>
    cases h
    unfold call
    split
    · exact ⟨hs.bounded, hs.taken, hs.outcomes, hs.halted, hs.idle⟩
    · exact hs
  case push i =>
    split at h
    · cases h
    · cases h
      exact kept_push hs _ _
  case test =>
    split at h
    · rename_i hp
      cases h
      refine hs.of_idle_phase (by rw [hp]; rfl) ?_ (by rw [hp]; simp)
      split <;> rfl
    · cases h
  case wake =>
    split at h
    · rename_i hp
      cases h
      exact kept_wake hs hp
    · cases h
  case encode =>
    split at h
    · rename_i r hp
      cases h
      exact kept_encode hs hp
    · cases h
  case callStop =>
    split at h
    · cases h
    · split at h
      · cases h
        exact ⟨hs.bounded, hs.taken, hs.outcomes, fun _ => rfl, fun _ hstop => (by cases hstop)⟩
      · cases h
        exact hs
  case join =>
    split at h
    · rename_i hp
      cases h
      refine ⟨hs.bounded, ?_, hs.outcomes, fun hstop => (by cases hstop), fun _ _ => rfl⟩
      rw [hs.taken, hp.2]
      rfl
    · cases h

theorem kept_constructed : Kept compress {} :=
  ⟨Nat.zero_le _, rfl, fun f hf => absurd hf List.not_mem_nil, fun h => (by cases h), fun _ _ => rfl⟩

theorem sound_of_kept (hs : Kept compress s) : Sound compress s := by
  refine ⟨hs.bounded, ?_, ?_, hs.outcomes, ?_, ?_⟩
  · refine List.Sublist.trans ?_ (s.ledger.withFate_sublist .taken)
    rw [hs.taken]
    exact List.sublist_append_left _ _
  · rw [← hs.taken]
    exact s.ledger.accepted_perm
  · intro f hf hskip
    rw [hs.outcomes f hf] at hskip
    exact fits_of_outcome hskip
  · intro hr hstop
    rw [hs.idle hr hstop]
    rfl

/-- What any step does to the queue and its record. -/
theorem ledger_step (h : s.step compress a = some t) :
    t.ledger = s.ledger ∨ (∃ r, t.ledger = s.ledger.offer maxQueue r) ∨
      ∃ r rest, s.queue = r :: rest ∧ t.ledger = ⟨s.ledger.removed ++ [(.taken, r)], rest⟩ := by
  cases a <;> simp only [step] at h
  case push i =>
    split at h
    · cases h
    · rename_i r hr
      cases h
      exact .inr (.inl ⟨r, rfl⟩)
  case wake =>
    split at h
    · cases h
      unfold wake
      split
      · exact .inl rfl
      · rename_i r rest hq
        exact .inr (.inr ⟨r, rest, hq, FifoLedger.remove_cons .taken s.ledger hq⟩)
    · cases h
  case call r =>
    cases h
    unfold call
    split <;> exact .inl rfl
  case start =>
    split at h
    · cases h
    · split at h <;> cases h <;> exact .inl rfl
  case callStop =>
    split at h
    · cases h
    · split at h <;> cases h <;> exact .inl rfl
  case encode =>
    split at h <;> cases h
    exact .inl rfl
  case test =>
    split at h <;> cases h
    exact .inl rfl
  case join =>
    split at h <;> cases h
    exact .inl rfl

theorem displacesOldest_of_kept (hs : Kept compress s) : s.DisplacesOldest compress a := by
  intro t h
  rcases ledger_step h with hsame | ⟨r, hoffer⟩ | ⟨r, rest, hq, htaken⟩
  · exact .inl (congrArg (FifoLedger.withFate · .displaced) hsame)
  · rw [displaced, hoffer]
    rcases s.ledger.offer_cases maxQueue r with hpush | ⟨b, rest, hq, hfull, hdrop⟩
    · rw [hpush]
      exact .inl rfl
    · rw [hdrop]
      refine .inr ⟨b, rest, hq, Nat.le_antisymm hs.bounded hfull, ?_⟩
      simp [FifoLedger.withFate, displaced]
  · left
    rw [displaced, htaken]
    simp [FifoLedger.withFate, displaced]

/-- Over every interleaving of callers, encoder thread, `start` and `stop`, the encoder
delivers in order, inside its buffers, and drops only the oldest of five. -/
theorem encoder_sound {as : List EncoderAction} {s : ImageEncoder}
    (h : run (step compress) {} as = some s) :
    Sound compress s ∧ Along (step compress) (DisplacesOldest compress) {} as := by
  have hkept : Kept compress s :=
    run_preserves (fun _ _ _ hs ht => kept_step hs ht) kept_constructed h
  refine ⟨sound_of_kept hkept, ?_⟩
  exact along_of_invariant (P := fun _ _ => True) (fun _ _ _ hs _ ht => kept_step hs ht)
    (fun _ _ hs _ => displacesOldest_of_kept hs) kept_constructed
    (along_of_forall (fun _ _ => trivial) _ as)

def twoPixels : EncodeRequest := ⟨[1, 2, 3, 4, 5, 6, 7, 8], 2, 1, "core/live_image", []⟩

def encodeTwo : List EncoderAction :=
  [.start, .call twoPixels, .push 0, .call { twoPixels with width := 3 }, .push 0, .test, .wake,
    .encode, .test, .wake, .encode]

theorem encoder_sound_encodeTwo : ∃ s,
    run (step fun pixels _ _ => some (pixels.take 1)) {} encodeTwo = some s ∧
      s.results = [⟨[1], "core/live_image", []⟩] ∧
      Sound (fun pixels _ _ => some (pixels.take 1)) s :=
  ⟨_, rfl, by decide, (@encoder_sound _ encodeTwo _ rfl).1⟩

end ImageEncoder

end EcidsCore
