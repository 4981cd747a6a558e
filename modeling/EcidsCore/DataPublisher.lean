import EcidsCore.ForwardHandler
import EcidsCore.GuardedRuns

set_option autoImplicit false

/-! The publisher of results, whose JSON messages carry the time of two readings of the
clock: when the published times keep the order of the clock. -/
namespace EcidsCore
open ByteText GuardedRuns

variable {R : Type}

def Timestamp.nowUnixMs (now : ℤ) : ℤ := now.tdiv 1000000

structure JsonHeader where
  channel : String
  tsNsec : ℤ
  tsSec : ℤ
deriving DecidableEq, Repr

def JsonHeader.members (h : JsonHeader) : List (String × Json R) :=
  [("channel", .string h.channel), ("ts_nsec", .integer h.tsNsec), ("ts_sec", .integer h.tsSec)]

/-- A message with the number of the first clock reading that its call made. -/
structure JsonMessage where
  reading : ℕ
  header : JsonHeader
  payload : Bytes
deriving DecidableEq, Repr

inductive PublishedMessage where
  | json (m : JsonMessage)
  | binary (header data : Bytes)
deriving DecidableEq, Repr

def PublishedMessage.frames (lib : Nlohmann R) : PublishedMessage → List Bytes
  | .json m => [dumped lib m.header.members, m.payload]
  | .binary header data => [header, data]

def PublishedMessage.json? : PublishedMessage → Option JsonMessage
  | .json m => some m
  | .binary _ _ => none

/-- A socket is stored once it is bound, so none is null. `readings` counts the readings
of the clock, and `sent` holds what each socket was given. -/
structure DataPublisher where
  sockets : List (Bytes × ℕ) := []
  started : Bool := false
  readings : ℕ := 0
  sent : List (ℕ × PublishedMessage) := []

/-- The calls, each under the lock; a new channel with what `zmq_socket` and `zmq_bind`
return. -/
inductive PublisherAction where
  | addChannel (name : Bytes) (sock : Option ℕ) (bound : Bool)
  | start
  | stop
  | publishJson (channel payloadJson : Bytes)
  | publishBinary (channel headerJson data : Bytes)

namespace DataPublisher

def addChannel (name : Bytes) (sock : Option ℕ) (bound : Bool) (p : DataPublisher) :
    DataPublisher :=
  match p.sockets.lookup name, sock with
  | some _, _ => p
  | none, none => p
  | none, some sock => if bound then { p with sockets := (name, sock) :: p.sockets } else p

def start (p : DataPublisher) : DataPublisher := { p with started := true }

def stop (p : DataPublisher) : DataPublisher := { p with sockets := [], started := false }

/-- The clock is read for the seconds, then again for the nanoseconds; `dump` throws on a
channel that is not UTF-8. -/
def publishJson (lib : Nlohmann R) (clock : ℕ → ℤ) (channel payloadJson : Bytes)
    (p : DataPublisher) : Option Exc × DataPublisher :=
  match p.sockets.lookup channel with
  | none => (none, p)
  | some sock =>
    let tsSec := (Timestamp.nowUnixMs (clock p.readings)).tdiv 1000
    let tsNsec := (Timestamp.nowUnixMs (clock (p.readings + 1))).tmod 1000 * 1000000
    match text? channel with
    | none =>
      (some (.typeError (lib.typeErrorText 316 .null)), { p with readings := p.readings + 2 })
    | some name =>
      (none, { p with
        readings := p.readings + 2
        sent := p.sent ++ [(sock, .json ⟨p.readings, ⟨name, tsNsec, tsSec⟩, payloadJson⟩)] })

def publishBinary (channel headerJson data : Bytes) (p : DataPublisher) : DataPublisher :=
  match p.sockets.lookup channel with
  | none => p
  | some sock => { p with sent := p.sent ++ [(sock, .binary headerJson data)] }

def step (lib : Nlohmann R) (clock : ℕ → ℤ) (p : DataPublisher) :
    PublisherAction → Option DataPublisher
  | .addChannel name sock bound => some (p.addChannel name sock bound)
  | .start => some p.start
  | .stop => some p.stop
  | .publishJson channel payloadJson => some (p.publishJson lib clock channel payloadJson).2
  | .publishBinary channel headerJson data => some (p.publishBinary channel headerJson data)

def published (p : DataPublisher) : List JsonMessage := p.sent.filterMap fun s => s.2.json?

end DataPublisher

def JsonHeader.time (h : JsonHeader) : ℤ := h.tsSec * 1000 + h.tsNsec.tdiv 1000000

namespace JsonMessage
variable (clock : ℕ → ℤ)

def first (m : JsonMessage) : ℤ := Timestamp.nowUnixMs (clock m.reading)

def second (m : JsonMessage) : ℤ := Timestamp.nowUnixMs (clock (m.reading + 1))

def Between (m : JsonMessage) : Prop :=
  m.first clock ≤ m.header.time ∧ m.header.time ≤ m.second clock

instance (m : JsonMessage) : Decidable (m.Between clock) := inferInstanceAs (Decidable (_ ∧ _))

def Stamped (m : JsonMessage) : Prop :=
  m.header.tsSec = (m.first clock).tdiv 1000 ∧
    m.header.tsNsec = (m.second clock).tmod 1000 * 1000000

end JsonMessage

def NeverBack (clock : ℕ → ℤ) : Prop :=
  ∀ ⦃i j : ℕ⦄, i ≤ j → Timestamp.nowUnixMs (clock i) ≤ Timestamp.nowUnixMs (clock j)

/-- No turn of a second between the readings: the second one stands as far in its second
as the first or farther. -/
def SameTurn (clock : ℕ → ℤ) (i : ℕ) : Prop :=
  (Timestamp.nowUnixMs (clock i)).tmod 1000 ≤ (Timestamp.nowUnixMs (clock (i + 1))).tmod 1000

def PublishesInTurn (clock : ℕ → ℤ) (p : DataPublisher) : PublisherAction → Prop
  | .publishJson channel _ =>
    p.sockets.lookup channel ≠ none → text? channel ≠ none → SameTurn clock p.readings
  | _ => True

instance (clock : ℕ → ℤ) (i : ℕ) : Decidable (SameTurn clock i) :=
  inferInstanceAs (Decidable (_ ≤ _))

instance (clock : ℕ → ℤ) (p : DataPublisher) :
    (a : PublisherAction) → Decidable (PublishesInTurn clock p a)
  | .publishJson channel _ => inferInstanceAs
      (Decidable (p.sockets.lookup channel ≠ none → text? channel ≠ none → SameTurn clock p.readings))
  | .addChannel .. | .start | .stop | .publishBinary .. => .isTrue trivial

variable {lib : Nlohmann R} {clock : ℕ → ℤ}

theorem JsonMessage.Stamped.between_iff {m : JsonMessage} (h : m.Stamped clock)
    (hclock : m.first clock ≤ m.second clock) : m.Between clock ↔ SameTurn clock m.reading := by
  have htime : m.header.time = (m.first clock).tdiv 1000 * 1000 + (m.second clock).tmod 1000 := by
    rw [JsonHeader.time, h.1, h.2, Int.mul_tdiv_cancel _ (by decide)]
  have hfirst := Int.tdiv_mul_add_tmod (m.first clock) 1000
  have hsecond := Int.tdiv_mul_add_tmod (m.second clock) 1000
  have hdiv := Int.tdiv_le_tdiv (show (0 : ℤ) < 1000 by decide) hclock
  rw [Between, htime]
  constructor
  · rintro ⟨hle, -⟩
    show (m.first clock).tmod 1000 ≤ (m.second clock).tmod 1000
    omega
  · intro hturn
    have hturn : (m.first clock).tmod 1000 ≤ (m.second clock).tmod 1000 := hturn
    constructor <;> omega

namespace DataPublisher

/-- Each message is stamped by its own two readings, which come after those of the
messages before it. -/
structure Ledger (clock : ℕ → ℤ) (p : DataPublisher) : Prop where
  stamped : ∀ m ∈ p.published, m.Stamped clock
  done : ∀ m ∈ p.published, m.reading + 2 ≤ p.readings
  ordered : p.published.Pairwise fun m n => m.reading + 2 ≤ n.reading

/-- A call sends one more JSON message, or leaves them as they are. -/
theorem step_cases {p q : DataPublisher} {a : PublisherAction} (h : step lib clock p a = some q) :
    (q.published = p.published ∧ p.readings ≤ q.readings ∧
      ∀ channel payloadJson, a = .publishJson channel payloadJson →
        p.sockets.lookup channel = none ∨ text? channel = none) ∨
    ∃ channel payloadJson m, a = .publishJson channel payloadJson ∧
      p.sockets.lookup channel ≠ none ∧ text? channel ≠ none ∧
      q.published = p.published ++ [m] ∧ q.readings = p.readings + 2 ∧
      m.reading = p.readings ∧ m.Stamped clock := by
  cases a with
  | addChannel name sock bound =>
    cases h
    refine .inl ⟨?_, ?_, fun _ _ h => nomatch h⟩ <;>
    · unfold addChannel
      split <;> try rfl
      split <;> rfl
  | start => cases h; exact .inl ⟨rfl, le_rfl, fun _ _ h => nomatch h⟩
  | stop => cases h; exact .inl ⟨rfl, le_rfl, fun _ _ h => nomatch h⟩
  | publishJson channel payloadJson =>
    cases h
    cases hsock : p.sockets.lookup channel with
    | none =>
      refine .inl ⟨?_, ?_, ?_⟩
      · simp only [publishJson, hsock]
      · simp only [publishJson, hsock, le_rfl]
      · rintro _ _ ⟨rfl, rfl⟩
        exact .inl hsock
    | some sock =>
      cases hname : text? channel with
      | none =>
        refine .inl ⟨?_, ?_, ?_⟩
        · simp only [publishJson, hsock, hname]
          rfl
        · simp only [publishJson, hsock, hname]
          omega
        · rintro _ _ ⟨rfl, rfl⟩
          exact .inr hname
      | some name =>
        refine .inr ⟨channel, payloadJson,
          ⟨p.readings, ⟨name, (Timestamp.nowUnixMs (clock (p.readings + 1))).tmod 1000 * 1000000,
            (Timestamp.nowUnixMs (clock p.readings)).tdiv 1000⟩, payloadJson⟩,
          rfl, hsock ▸ Option.some_ne_none sock, hname ▸ Option.some_ne_none name,
          ?_, ?_, rfl, rfl, rfl⟩
        · simp [publishJson, hsock, hname, published, PublishedMessage.json?]
        · simp only [publishJson, hsock, hname]
  | publishBinary channel headerJson data =>
    cases h
    refine .inl ⟨?_, ?_, fun _ _ h => nomatch h⟩ <;>
    · unfold publishBinary
      split
      · rfl
      · simp [published, PublishedMessage.json?]

theorem Ledger.initial (clock : ℕ → ℤ) : Ledger clock {} where
  stamped := by simp [published]
  done := by simp [published]
  ordered := by simp [published]

theorem Ledger.step {p q : DataPublisher} {a : PublisherAction} (hp : Ledger clock p)
    (h : step lib clock p a = some q) : Ledger clock q := by
  obtain ⟨hsame, hle, -⟩ | ⟨channel, payloadJson, m, -, -, -, hnew, hreadings, hm, hstamped⟩ :=
    step_cases h
  · refine ⟨hsame ▸ hp.stamped, ?_, hsame ▸ hp.ordered⟩
    intro m hm
    exact (hp.done m (hsame ▸ hm)).trans hle
  · refine ⟨?_, ?_, ?_⟩
    · rw [hnew, List.forall_mem_append, List.forall_mem_singleton]
      exact ⟨hp.stamped, hstamped⟩
    · rw [hnew, List.forall_mem_append, List.forall_mem_singleton]
      refine ⟨?_, ?_⟩
      · intro n hn
        have := hp.done n hn
        omega
      · omega
    · rw [hnew, List.pairwise_append]
      refine ⟨hp.ordered, List.pairwise_singleton _ _, ?_⟩
      intro n hn k hk
      obtain rfl := List.mem_singleton.1 hk
      rw [hm]
      exact hp.done n hn

theorem step_published {p q : DataPublisher} {a : PublisherAction}
    (h : step lib clock p a = some q) {m : JsonMessage} (hm : m ∈ p.published) :
    m ∈ q.published := by
  obtain ⟨hsame, -⟩ | ⟨channel, payloadJson, n, -, -, -, hnew, -⟩ := step_cases h
  · exact hsame ▸ hm
  · rw [hnew]
    exact List.mem_append_left _ hm

theorem step_between (hclock : NeverBack clock)
    {p q : DataPublisher} {a : PublisherAction} (h : step lib clock p a = some q)
    (hP : PublishesInTurn clock p a) (hp : ∀ m ∈ p.published, m.Between clock) :
    ∀ m ∈ q.published, m.Between clock := by
  obtain ⟨hsame, -⟩ | ⟨channel, payloadJson, n, rfl, hsock, hname, hnew, -, hn, hstamped⟩ :=
    step_cases h
  · exact hsame ▸ hp
  · rw [hnew, List.forall_mem_append, List.forall_mem_singleton]
    refine ⟨hp, (hstamped.between_iff (hclock (Nat.le_succ _))).2 ?_⟩
    rw [hn]
    exact hP hsock hname

theorem step_not_between (hclock : NeverBack clock)
    {p q : DataPublisher} {a : PublisherAction} (h : step lib clock p a = some q)
    (hP : ¬ PublishesInTurn clock p a) : ∃ m ∈ q.published, ¬ m.Between clock := by
  obtain ⟨-, -, hquiet⟩ | ⟨channel, payloadJson, n, rfl, hsock, hname, hnew, -, hn, hstamped⟩ :=
    step_cases h
  · cases a with
    | publishJson channel payloadJson =>
      refine absurd ?_ hP
      intro hsock hname
      exact ((hquiet channel payloadJson rfl).elim hsock hname).elim
    | _ => exact absurd trivial hP
  · refine ⟨n, hnew ▸ List.mem_append_right _ (List.mem_singleton.2 rfl), ?_⟩
    rw [hstamped.between_iff (hclock (Nat.le_succ _)), hn]
    exact fun hturn => hP fun _ _ => hturn

theorem Ledger.nondecreasing {p : DataPublisher} (hp : Ledger clock p)
    (hclock : NeverBack clock)
    (hbetween : ∀ m ∈ p.published, m.Between clock) :
    p.published.Pairwise fun m n => m.header.time ≤ n.header.time := by
  refine hp.ordered.imp_of_mem ?_
  intro m n hm hn hreading
  calc m.header.time
      ≤ Timestamp.nowUnixMs (clock (m.reading + 1)) := (hbetween m hm).2
    _ ≤ Timestamp.nowUnixMs (clock n.reading) := hclock (by omega)
    _ ≤ n.header.time := (hbetween n hn).1

/-- In every run under a clock that does not go back: the published times lie between the
readings of their calls, and in order, exactly when no call has a turn of a second between
its readings. -/
theorem published_between_iff (hclock : NeverBack clock)
    {actions : List PublisherAction} {p : DataPublisher}
    (hr : run (step lib clock) {} actions = some p) :
    ((∀ m ∈ p.published, m.Between clock) ∧
        p.published.Pairwise fun m n => m.header.time ≤ n.header.time) ↔
      Along (step lib clock) (PublishesInTurn clock) {} actions := by
  have hledger : Ledger clock p :=
    run_preserves (fun s a t hs ht => hs.step ht) (Ledger.initial clock) hr
  constructor
  · rintro ⟨hbetween, -⟩
    by_contra hP
    obtain ⟨m, hm, hout⟩ := run_of_not_along (I := fun _ => True)
      (J := fun s => ∃ m ∈ s.published, ¬ m.Between clock) (fun _ _ _ _ _ => trivial)
      (fun s a t _ hP ht => step_not_between hclock ht hP)
      (fun s a t _ hJ ht => hJ.imp fun m hm => ⟨step_published ht hm.1, hm.2⟩) trivial hP hr
    exact hout (hbetween m hm)
  · intro hP
    have hbetween : ∀ m ∈ p.published, m.Between clock :=
      run_invariant (I := fun s => ∀ m ∈ s.published, m.Between clock)
        (fun s a t hs hPa ht => step_between hclock ht hPa hs) (by simp [published]) hP hr
    exact ⟨hbetween, hledger.nondecreasing hclock hbetween⟩

def everyMs (start : ℤ) (i : ℕ) : ℤ := (start + i) * 1000000

theorem everyMs_neverBack (start : ℤ) : NeverBack (everyMs start) := by
  intro i j h
  simp only [Timestamp.nowUnixMs, everyMs, Int.mul_tdiv_cancel _ (show (1000000 : ℤ) ≠ 0 by decide)]
  omega

def visualCalls (n : ℕ) : List PublisherAction :=
  .addChannel (bytes "Visual2D") (some 7) true ::
    List.replicate n (.publishJson (bytes "Visual2D") (bytes "[]"))

theorem published_between_twice :
    ∃ p, run (step (tableLib []) (everyMs 1990)) {} (visualCalls 2) = some p ∧
      p.published.map (fun m => m.header.time) = [1991, 1993] ∧
      (∀ m ∈ p.published, m.Between (everyMs 1990)) ∧
      p.published.Pairwise fun m n => m.header.time ≤ n.header.time := by
  have hr : run (step (tableLib []) (everyMs 1990)) {} (visualCalls 2) = some _ := rfl
  refine ⟨_, hr, ?_, (published_between_iff (everyMs_neverBack 1990) hr).2 ?_⟩
  · decide +kernel
  · decide +kernel

/-- Two messages, the second 2000 reached between the readings of the later one. -/
theorem published_across_turn :
    NeverBack (everyMs 1997) ∧
      ∃ p, run (step (tableLib []) (everyMs 1997)) {} (visualCalls 2) = some p ∧
        p.published.map (fun m => (m.first (everyMs 1997), m.header.time, m.second (everyMs 1997))) =
          [(1997, 1998, 1998), (1999, 1000, 2000)] ∧
        (¬ ∀ m ∈ p.published, m.Between (everyMs 1997)) ∧
        ¬ p.published.Pairwise fun m n => m.header.time ≤ n.header.time := by
  refine ⟨everyMs_neverBack 1997, _, rfl, ?_, ?_, ?_⟩
  · decide +kernel
  · decide +kernel
  · decide +kernel

end DataPublisher
end EcidsCore
