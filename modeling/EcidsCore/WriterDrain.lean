import EcidsCore.DatabaseWriter

set_option autoImplicit false

/-! Which requests the file writer executes, over all interleavings of producers,
writer thread and `stop`. -/
namespace EcidsCore.DatabaseWriter
open GuardedRuns

variable {cwd : List Bytes} {s t : DatabaseWriter} {a : WriterAction}

/-- What the writer owes its producers in a state, for a configured capacity. -/
structure Faithful (cwd : List Bytes) (capacity : ℤ) (disk : Files) (s : DatabaseWriter) :
    Prop where
  ordered : s.written.Sublist s.accepted
  executed : s.disk = s.written.foldl (processRequest cwd) disk
  bounded : (s.queue.length : ℤ) ≤ capacity
  poppedEmpty : s.poppedEmpty = false
  kept : s.accepted.Perm (s.written ++ s.held ++ s.displaced ++ s.queue)
  settled : s.stop = .returned → s.accepted.Perm (s.written ++ s.displaced)

/-- A request is displaced by a push on a full queue only, as the oldest in it. -/
def DisplacesOldest (cwd : List Bytes) (s : DatabaseWriter) (a : WriterAction) : Prop :=
  ∀ t, s.step cwd a = some t → t.displaced = s.displaced ∨
    ∃ i r rest, a = .push i ∧ s.queue.length = s.maxQueue ∧ s.queue = r :: rest ∧
      t.displaced = s.displaced ++ [r]

/-- Nothing is pushed into a queue without capacity or after the writer thread has
ended, and that thread tests its loop flag after `stop` with an empty queue only. -/
def Orderly (s : DatabaseWriter) : WriterAction → Prop
  | .push _ => 0 < s.maxQueue ∧ s.phase ≠ .exited
  | .testRunning => s.running ∨ s.queue = []
  | _ => True

instance (s : DatabaseWriter) : (a : WriterAction) → Decidable (Orderly s a)
  | .push _ => inferInstanceAs (Decidable (_ ∧ _))
  | .testRunning => inferInstanceAs (Decidable (_ ∨ _))
  | .enqueue _ | .wake | .process | .callStop | .join => .isTrue trivial

structure Recorded (cwd : List Bytes) (disk : Files) (s : DatabaseWriter) : Prop where
  accepted : s.accepted = s.ledger.accepted
  taken : s.ledger.withFate .taken = s.written ++ s.held
  executed : s.disk = s.written.foldl (processRequest cwd) disk

structure Tidy (s : DatabaseWriter) : Prop where
  bounded : s.queue.length ≤ s.maxQueue
  poppedEmpty : s.poppedEmpty = false
  exited : s.phase = .exited → s.running = false ∧ s.queue = []
  stopped : s.running = false ↔ s.stop ≠ .notCalled
  returned : s.stop = .returned → s.phase = .exited

theorem enqueue_cases (s : DatabaseWriter) (call : EnqueueCall) :
    s.enqueue call = s ∨ ∃ r, s.enqueue call = { s with inFlight := s.inFlight ++ [r] } := by
  unfold enqueue
  split
  · split
    · exact .inl rfl
    · exact .inr ⟨_, rfl⟩
  · exact .inl rfl

/-- Everything a step can do. -/
theorem step_cases (h : s.step cwd a = some t) :
    (∃ call, a = .enqueue call ∧ t = s.enqueue call) ∨
    (∃ i r, a = .push i ∧ s.inFlight[i]? = some r ∧
      t = { s.push r with inFlight := s.inFlight.eraseIdx i }) ∨
    (a = .testRunning ∧ s.phase = .head ∧
      t = { s with phase := if s.running then .wait else .exited }) ∨
    (a = .wake ∧ s.phase = .wait ∧ t = s.wake) ∨
    (∃ r, a = .process ∧ s.phase = .holding r ∧
      t = { s with phase := .head, written := s.written ++ [r],
                   disk := processRequest cwd s.disk r }) ∨
    (a = .callStop ∧ s.stop = .notCalled ∧ t = { s with running := false, stop := .joining }) ∨
    (a = .join ∧ s.stop = .joining ∧ s.phase = .exited ∧ t = { s with stop := .returned }) := by
  cases a <;> simp only [step] at h
  case enqueue call => exact .inl ⟨call, rfl, (Option.some.inj h).symm⟩
  case push i =>
    split at h
    · cases h
    · rename_i r hr
      exact .inr (.inl ⟨i, r, rfl, hr, (Option.some.inj h).symm⟩)
  case testRunning =>
    split at h
    · rename_i hp
      exact .inr (.inr (.inl ⟨rfl, hp, (Option.some.inj h).symm⟩))
    · cases h
  case wake =>
    split at h
    · rename_i hp
      exact .inr (.inr (.inr (.inl ⟨rfl, hp, (Option.some.inj h).symm⟩)))
    · cases h
  case process =>
    split at h
    · rename_i r hp
      exact .inr (.inr (.inr (.inr (.inl ⟨r, rfl, hp, (Option.some.inj h).symm⟩))))
    · cases h
  case callStop =>
    split at h
    · rename_i hs
      exact .inr (.inr (.inr (.inr (.inr (.inl ⟨rfl, hs, (Option.some.inj h).symm⟩)))))
    · cases h
  case join =>
    split at h
    · rename_i hs
      exact .inr (.inr (.inr (.inr (.inr (.inr ⟨rfl, hs.1, hs.2, (Option.some.inj h).symm⟩)))))
    · cases h

theorem recorded_push {disk : Files} (hs : Recorded cwd disk s) (i : ℕ) (r : DBWriteRequest) :
    Recorded cwd disk { s.push r with inFlight := s.inFlight.eraseIdx i } := by
  obtain ⟨_, _, hphase, _, hdisk, haccepted, hwritten⟩ := s.push_unchanged r
  constructor
  · change (s.push r).accepted = (s.push r).ledger.accepted
    rw [haccepted, ledger_push, FifoLedger.accepted_offer, hs.accepted]
  · change (s.push r).ledger.withFate .taken = (s.push r).written ++ (s.push r).held
    rw [ledger_push, FifoLedger.withFate_offer_taken, hwritten, held, hphase]
    exact hs.taken
  · change (s.push r).disk = (s.push r).written.foldl _ disk
    rw [hdisk, hwritten, hs.executed]

theorem recorded_wake {disk : Files} (hs : Recorded cwd disk s) (hp : s.phase = .wait) :
    Recorded cwd disk s.wake := by
  have hheld : s.held = [] := by rw [held, hp]
  have htaken : s.ledger.withFate .taken = s.written := by rw [hs.taken, hheld, List.append_nil]
  unfold wake
  split
  · refine ⟨hs.accepted, ?_, hs.executed⟩
    change s.ledger.withFate .taken = s.written ++ _
    cases hr : s.running <;> simp [held, htaken]
  · rename_i r rest hq
    have hL : (⟨s.removed ++ [(.taken, r)], rest⟩ : FifoLedger DBWriteRequest) =
        s.ledger.remove .taken := (FifoLedger.remove_cons .taken s.ledger hq).symm
    constructor
    · change s.accepted = FifoLedger.accepted ⟨s.removed ++ [(.taken, r)], rest⟩
      rw [hL, FifoLedger.accepted_remove, hs.accepted]
    · change FifoLedger.withFate ⟨s.removed ++ [(.taken, r)], rest⟩ .taken = s.written ++ [r]
      rw [hL, FifoLedger.withFate_remove_cons .taken .taken s.ledger hq, htaken, if_pos rfl]
    · exact hs.executed

theorem recorded_step {disk : Files} (hs : Recorded cwd disk s) (h : s.step cwd a = some t) :
    Recorded cwd disk t := by
  rcases step_cases h with ⟨call, -, rfl⟩ | ⟨i, r, -, -, rfl⟩ | ⟨-, hp, rfl⟩ | ⟨-, hp, rfl⟩ |
    ⟨r, -, hp, rfl⟩ | ⟨-, -, rfl⟩ | ⟨-, -, -, rfl⟩
  · rcases s.enqueue_cases call with he | ⟨r, he⟩ <;> rw [he]
    · exact hs
    · exact ⟨hs.accepted, hs.taken, hs.executed⟩
  · exact recorded_push hs i r
  · have hheld : s.held = [] := by rw [held, hp]
    refine ⟨hs.accepted, ?_, hs.executed⟩
    change s.ledger.withFate .taken = s.written ++ _
    rw [hs.taken, hheld]
    cases hr : s.running <;> simp [held]
  · exact recorded_wake hs hp
  · have hheld : s.held = [r] := by rw [held, hp]
    refine ⟨hs.accepted, ?_, ?_⟩
    · change s.ledger.withFate .taken = (s.written ++ [r]) ++ []
      rw [hs.taken, hheld, List.append_nil]
    · change processRequest cwd s.disk r = (s.written ++ [r]).foldl _ disk
      rw [List.foldl_append, hs.executed]
      rfl
  · exact ⟨hs.accepted, hs.taken, hs.executed⟩
  · exact ⟨hs.accepted, hs.taken, hs.executed⟩

theorem tidy_step (hs : Tidy s) (ho : Orderly s a) (h : s.step cwd a = some t) : Tidy t := by
  rcases step_cases h with ⟨call, -, rfl⟩ | ⟨i, r, rfl, -, rfl⟩ | ⟨rfl, hp, rfl⟩ | ⟨-, hp, rfl⟩ |
    ⟨r, -, hp, rfl⟩ | ⟨-, hstop, rfl⟩ | ⟨-, hstop, hp, rfl⟩
  · rcases s.enqueue_cases call with he | ⟨r, he⟩ <;> rw [he]
    · exact hs
    · exact ⟨hs.bounded, hs.poppedEmpty, hs.exited, hs.stopped, hs.returned⟩
  · obtain ⟨hcap, hphase⟩ := ho
    obtain ⟨hmax, hrun, hph, hst, -, -, -⟩ := s.push_unchanged r
    refine ⟨?_, ?_, ?_, ?_, ?_⟩
    · change (s.push r).ledger.waiting.length ≤ (s.push r).maxQueue
      rw [hmax, ledger_push]
      exact FifoLedger.offer_bounded hcap s.ledger r hs.bounded
    · exact (push_poppedEmpty hcap r).trans hs.poppedEmpty
    · intro he
      exact absurd (hph.symm.trans he) hphase
    · change (s.push r).running = false ↔ (s.push r).stop ≠ .notCalled
      rw [hrun, hst]
      exact hs.stopped
    · intro he
      exact hph.trans (hs.returned (hst.symm.trans he))
  · refine ⟨hs.bounded, hs.poppedEmpty, ?_, hs.stopped, ?_⟩
    · intro he
      cases hr : s.running with
      | true => simp [hr] at he
      | false => exact ⟨rfl, by simpa [Orderly, hr] using ho⟩
    · intro he
      exact absurd (hs.returned he) (by rw [hp]; simp)
  · unfold wake
    split
    · rename_i hq
      refine ⟨hs.bounded, hs.poppedEmpty, ?_, hs.stopped, ?_⟩
      · intro he
        cases hr : s.running with
        | true => simp [hr] at he
        | false => exact ⟨rfl, hq⟩
      · intro he
        exact absurd (hs.returned he) (by rw [hp]; simp)
    · rename_i r rest hq
      have hb := hs.bounded
      rw [hq, List.length_cons] at hb
      refine ⟨?_, hs.poppedEmpty, ?_, hs.stopped, ?_⟩
      · change rest.length ≤ s.maxQueue
        omega
      · intro he
        cases he
      · intro he
        exact absurd (hs.returned he) (by rw [hp]; simp)
  · refine ⟨hs.bounded, hs.poppedEmpty, ?_, hs.stopped, ?_⟩
    · intro he
      cases he
    · intro he
      exact absurd (hs.returned he) (by rw [hp]; simp)
  · refine ⟨hs.bounded, hs.poppedEmpty, ?_, ?_, ?_⟩
    · intro he
      exact ⟨rfl, (hs.exited he).2⟩
    · simp
    · intro he
      cases he
  · refine ⟨hs.bounded, hs.poppedEmpty, hs.exited, ?_, fun _ => hp⟩
    have := hs.stopped
    rw [hstop] at this
    simpa using this

theorem maxQueue_step (h : s.step cwd a = some t) : t.maxQueue = s.maxQueue := by
  rcases step_cases h with ⟨call, -, rfl⟩ | ⟨i, r, -, -, rfl⟩ | ⟨-, -, rfl⟩ | ⟨-, -, rfl⟩ |
    ⟨r, -, -, rfl⟩ | ⟨-, -, rfl⟩ | ⟨-, -, -, rfl⟩
  · rcases s.enqueue_cases call with he | ⟨r, he⟩ <;> rw [he]
  · exact (s.push_unchanged r).1
  · rfl
  · unfold wake
    split <;> rfl
  · rfl
  · rfl
  · rfl

theorem maxQueueOf_toInt32 {z : ℤ} (h : 0 ≤ Json.toInt32 z) :
    (maxQueueOf (Json.toInt32 z) : ℤ) = Json.toInt32 z := by
  have hlt : Json.toInt32 z < 2 ^ 31 := by
    unfold Json.toInt32
    omega
  rw [maxQueueOf, Int.emod_eq_of_lt h (by omega), Int.toNat_of_nonneg h]

theorem recorded_init (z : ℤ) (disk : Files) : Recorded cwd disk (init z disk) := ⟨rfl, rfl, rfl⟩

theorem tidy_init (z : ℤ) (disk : Files) : Tidy (init z disk) where
  bounded := Nat.zero_le _
  poppedEmpty := rfl
  exited h := nomatch h
  stopped := by simp [init]
  returned h := nomatch h

theorem faithful_of_recorded {capacity : ℤ} {disk : Files} (hr : Recorded cwd disk s) (ht : Tidy s)
    (hcap : (s.maxQueue : ℤ) = capacity) : Faithful cwd capacity disk s := by
  have hperm : s.accepted.Perm (s.written ++ s.held ++ s.displaced ++ s.queue) := by
    rw [hr.accepted, ← hr.taken]
    exact s.ledger.accepted_perm
  refine ⟨?_, hr.executed, ?_, ht.poppedEmpty, hperm, ?_⟩
  · rw [hr.accepted]
    refine List.Sublist.trans ?_ (s.ledger.withFate_sublist .taken)
    rw [hr.taken]
    exact List.sublist_append_left _ _
  · have := ht.bounded
    omega
  · intro hstop
    have hexit : s.phase = .exited := ht.returned hstop
    have hheld : s.held = [] := by rw [held, hexit]
    rwa [hheld, (ht.exited hexit).2, List.append_nil, List.append_nil] at hperm

/-- Once everything accepted has left the queue without displacement, the disk is what
the accepted requests make of it in their order. -/
theorem drained_disk {z : ℤ} {disk : Files} {as : List WriterAction}
    (hr : run (step cwd) (init z disk) as = some s) (hq : s.queue = []) (hh : s.held = [])
    (hd : s.displaced = []) : s.disk = s.accepted.foldl (processRequest cwd) disk := by
  have hrec : Recorded cwd disk s :=
    run_preserves (fun _ _ _ => recorded_step) (recorded_init z disk) hr
  have htaken : s.ledger.withFate .taken = s.written := by rw [hrec.taken, hh, List.append_nil]
  have hsub : s.written.Sublist s.accepted := by
    rw [hrec.accepted, ← htaken]
    exact s.ledger.withFate_sublist .taken
  have hlen : s.accepted.length = s.written.length := by
    have hperm := s.ledger.accepted_perm.length_eq
    have hwait : s.ledger.waiting = [] := hq
    rw [← hrec.accepted, htaken, ← displaced_eq, hd, hwait] at hperm
    simpa using hperm
  rw [hrec.executed, hsub.eq_of_length hlen.symm]

theorem displacesOldest_of_tidy (hs : Tidy s) : DisplacesOldest cwd s a := by
  intro t h
  rcases step_cases h with ⟨call, -, rfl⟩ | ⟨i, r, rfl, -, rfl⟩ | ⟨-, -, rfl⟩ | ⟨-, hp, rfl⟩ |
    ⟨r, -, -, rfl⟩ | ⟨-, -, rfl⟩ | ⟨-, -, -, rfl⟩
  · rcases s.enqueue_cases call with he | ⟨r, he⟩ <;> rw [he] <;> exact .inl rfl
  · change (s.push r).displaced = _ ∨ _
    by_cases hfull : s.maxQueue ≤ s.queue.length
    · cases hq : s.queue with
      | nil =>
        left
        rw [push, if_pos hfull, pop, hq]
        rfl
      | cons q rest =>
        refine .inr ⟨i, q, rest, rfl, ?_, rfl, ?_⟩
        · have := hs.bounded
          rw [hq] at this hfull
          omega
        · change (s.push r).ledger.withFate .displaced = s.ledger.withFate .displaced ++ [q]
          rw [ledger_push, FifoLedger.offer, if_pos (show s.maxQueue ≤ s.ledger.waiting.length from hfull),
            FifoLedger.withFate_push, FifoLedger.withFate_remove_cons _ _ s.ledger hq, if_pos rfl]
    · left
      rw [push, if_neg hfull]
      rfl
  · exact .inl rfl
  · left
    unfold wake
    split
    · rfl
    · simp [displaced]
  · exact .inl rfl
  · exact .inl rfl
  · exact .inl rfl

theorem orderly_run_faithful (cwd : List Bytes) (z : ℤ) (disk : Files) {as : List WriterAction}
    {s : DatabaseWriter} (hz : 0 ≤ Json.toInt32 z)
    (ho : Along (step cwd) Orderly (init z disk) as)
    (hr : run (step cwd) (init z disk) as = some s) :
    Faithful cwd (Json.toInt32 z) disk s ∧
      Along (step cwd) (DisplacesOldest cwd) (init z disk) as := by
  have hrec : Recorded cwd disk s :=
    run_preserves (fun _ _ _ => recorded_step) (recorded_init z disk) hr
  have hmax : s.maxQueue = maxQueueOf (Json.toInt32 z) :=
    run_preserves (I := fun u => u.maxQueue = maxQueueOf (Json.toInt32 z))
      (fun _ _ _ hI ht => (maxQueue_step ht).trans hI) rfl hr
  have htidy : Tidy s := run_invariant (fun _ _ _ => tidy_step) (tidy_init z disk) ho hr
  constructor
  · apply faithful_of_recorded hrec htidy
    rw [hmax, maxQueueOf_toInt32 hz]
  · exact along_of_invariant (fun _ _ _ => tidy_step) (fun _ _ hI _ => displacesOldest_of_tidy hI)
      (tidy_init z disk) ho

/-- Two results of one pair, the second still queued when `stop` is called. -/
def tailLost : List WriterAction :=
  [.enqueue (.aiResult "r" "inspection" "L" 1 []), .push 0,
   .enqueue (.aiResult "r" "inspection" "R" 1 []), .push 0,
   .testRunning, .wake, .callStop, .process, .testRunning, .join]

theorem tail_and_capacity_counterexample :
    (∃ s, run (step []) (init 200 fun _ => none) tailLost = some s ∧
      ¬ Faithful [] (Json.toInt32 200) (fun _ => none) s) ∧
    ∃ s, run (step []) (init 0 fun _ => none) (tailLost.take 2) = some s ∧
      ¬ Faithful [] (Json.toInt32 0) (fun _ => none) s := by
  refine ⟨⟨_, rfl, ?_⟩, ⟨_, rfl, ?_⟩⟩
  · intro h
    exact absurd (h.settled rfl).length_eq (by decide)
  · intro h
    exact absurd h.poppedEmpty (by decide)

def orderlyStop : List WriterAction :=
  tailLost.take 6 ++ [.process, .testRunning, .wake, .process, .callStop, .testRunning, .join]

def orderlyState : DatabaseWriter :=
  (run (step []) (init 200 fun _ => none) orderlyStop).get rfl

theorem orderly_run_faithful_stop :
    orderlyState.stop = .returned ∧ orderlyState.written.length = 2 ∧
      Faithful [] (Json.toInt32 200) (fun _ => none) orderlyState := by
  have hrun : run (step []) (init 200 fun _ => none) orderlyStop = some orderlyState :=
    (Option.some_get _).symm
  exact ⟨rfl, rfl, (orderly_run_faithful [] 200 (fun _ => none) (by decide) (by decide) hrun).1⟩

end EcidsCore.DatabaseWriter
