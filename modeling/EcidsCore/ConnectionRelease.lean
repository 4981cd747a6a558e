import EcidsCore.GuardedRuns
import Mathlib.Data.List.Count
import Mathlib.Logic.Function.Basic

set_option autoImplicit false

/-! Who releases a connection of the WebSocket server: its own detached thread, which
first takes it off the list, or `stop`, which releases whatever is listed. -/
namespace EcidsCore
open GuardedRuns

/-- Where `client_loop_` of a connection stands; `conn` is what its lookup found. -/
inductive ClientPhase where
  | notStarted
  | spawned
  | test (conn : ℕ)
  | poll (conn : ℕ)
  | leaving (conn : ℕ)
  | removed (conn : ℕ)
  | ended
deriving DecidableEq, Repr

inductive AcceptPhase where
  | test
  | accepting
  | spawning (conn : ℕ)
  | ended
deriving DecidableEq, Repr

/-- `stop` holds the mutex of the list while it is `releasing`. -/
inductive StopPhase where
  | notCalled
  | joining
  | releasing (rest : List ℕ)
  | returned
deriving DecidableEq, Repr

/-- Connections are numbered in the order in which they were accepted. `closed` logs
each release of a connection's SSL object and socket, `deleted` that of its record. -/
structure WssConnections where
  running : Bool := true
  accepted : ℕ := 0
  fd : ℕ → ℕ := fun _ => 0
  alive : ℕ → Bool := fun _ => true
  phase : ℕ → ClientPhase := fun _ => .notStarted
  clients : List ℕ := []
  accept : AcceptPhase := .test
  stop : StopPhase := .notCalled
  closed : List ℕ := []
  deleted : List ℕ := []

inductive WssAction where
  | acceptTest
  | acceptFails
  | accept (fd : ℕ)
  | spawn
  | lookup (i : ℕ)
  | test (i : ℕ)
  | poll (i : ℕ) (failed : Bool)
  | remove (i : ℕ)
  | release (i : ℕ)
  | callStop
  | join
  | stopRelease
  | stopClear
deriving DecidableEq, Repr

def ClientPhase.conn : ClientPhase → Option ℕ
  | .test c | .poll c | .leaving c | .removed c => some c
  | .notStarted | .spawned | .ended => none

def ClientPhase.looping : ClientPhase → Bool
  | .test _ | .poll _ | .leaving _ => true
  | .notStarted | .spawned | .removed _ | .ended => false

theorem ClientPhase.looping_ne {p : ClientPhase} (h : p.looping = true) :
    p ≠ .notStarted ∧ p ≠ .spawned ∧ p ≠ .ended := by
  refine ⟨?_, ?_, ?_⟩ <;> rintro rfl <;> cases h

theorem ClientPhase.looping_conn {p : ClientPhase} (h : p.looping = true) :
    p.conn.isSome = true := by
  cases p <;> first | rfl | cases h

def ClientPhase.isRemoved : ClientPhase → Bool
  | .removed _ => true
  | _ => false

theorem ClientPhase.not_removed_of_looping {p : ClientPhase} (h : p.looping = true) :
    p.isRemoved = false := by
  cases p with
  | removed c => cases h
  | _ => rfl

def StopPhase.early : StopPhase → Bool
  | .notCalled | .joining => true
  | .releasing _ | .returned => false

def StopPhase.locks : StopPhase → Bool
  | .releasing _ => true
  | _ => false

namespace WssConnections

/-- A file descriptor that the kernel does not hand out again yet. -/
def FdOpen (s : WssConnections) (fd : ℕ) : Prop :=
  ∃ i < s.accepted, i ∉ s.closed ∧ s.fd i = fd

instance (s : WssConnections) (fd : ℕ) : Decidable (s.FdOpen fd) :=
  inferInstanceAs (Decidable (∃ i < _, _))

def setPhase (s : WssConnections) (i : ℕ) (p : ClientPhase) : WssConnections :=
  { s with phase := Function.update s.phase i p }

@[simp] theorem setPhase_self (s : WssConnections) (i : ℕ) (p : ClientPhase) :
    (s.setPhase i p).phase i = p := by
  simp [setPhase]

theorem setPhase_ne {i j : ℕ} (h : j ≠ i) (s : WssConnections) (p : ClientPhase) :
    (s.setPhase i p).phase j = s.phase j := by
  simp [setPhase, h]

/-- After the loop: `conn->alive = false`, then the wait for the mutex. -/
def leave (s : WssConnections) (i conn : ℕ) : WssConnections :=
  { s.setPhase i (.leaving conn) with alive := Function.update s.alive conn false }

def step (s : WssConnections) : WssAction → Option WssConnections
  | .acceptTest =>
    if s.accept = .test then
      some { s with accept := if s.running then .accepting else .ended }
    else none
  | .acceptFails => if s.accept = .accepting then some { s with accept := .test } else none
  | .accept fd =>
    if s.accept = .accepting ∧ !s.stop.locks ∧ ¬ s.FdOpen fd then
      some { s with
        accepted := s.accepted + 1
        fd := Function.update s.fd s.accepted fd
        clients := s.clients ++ [s.accepted]
        accept := .spawning s.accepted }
    else none
  | .spawn =>
    match s.accept with
    | .spawning i => some { s.setPhase i .spawned with accept := .test }
    | _ => none
  | .lookup i =>
    if s.phase i = .spawned ∧ !s.stop.locks then
      match s.clients.find? fun c => s.fd c = s.fd i with
      | some c => some (s.setPhase i (.test c))
      | none => some (s.setPhase i .ended)
    else none
  | .test i =>
    match s.phase i with
    | .test c => some (if s.running && s.alive c then s.setPhase i (.poll c) else s.leave i c)
    | _ => none
  | .poll i failed =>
    match s.phase i with
    | .poll c => some (if failed then s.leave i c else s.setPhase i (.test c))
    | _ => none
  | .remove i =>
    match s.phase i with
    | .leaving c =>
      if s.stop.locks then none
      else some { s.setPhase i (.removed c) with clients := s.clients.filter (· ≠ c) }
    | _ => none
  | .release i =>
    match s.phase i with
    | .removed c =>
      some { s.setPhase i .ended with closed := s.closed ++ [i], deleted := s.deleted ++ [c] }
    | _ => none
  | .callStop =>
    if s.stop = .notCalled then some { s with running := false, stop := .joining } else none
  | .join =>
    if s.stop = .joining ∧ s.accept = .ended then
      some { s with stop := .releasing s.clients }
    else none
  | .stopRelease =>
    match s.stop with
    | .releasing (c :: rest) =>
      some { s with
        closed := s.closed ++ [c]
        deleted := s.deleted ++ [c]
        alive := Function.update s.alive c false
        stop := .releasing rest }
    | _ => none
  | .stopClear =>
    if s.stop = .releasing [] then some { s with clients := [], stop := .returned } else none

/-- `stop` has returned and every connection's thread has ended. -/
def Finished (s : WssConnections) : Prop :=
  s.stop = .returned ∧ ∀ i < s.accepted, s.phase i = .ended

instance (s : WssConnections) : Decidable s.Finished := inferInstanceAs (Decidable (_ ∧ _))

def EachReleasedOnce (s : WssConnections) : Prop :=
  ∀ i < s.accepted, s.closed.count i = 1 ∧ s.deleted.count i = 1

instance (s : WssConnections) : Decidable s.EachReleasedOnce :=
  inferInstanceAs (Decidable (∀ i < _, _))

/-- `stop` releases no connection that a thread has looked up. -/
def Unclaimed (s : WssConnections) (a : WssAction) : Prop :=
  a = .stopRelease → ∀ c rest, s.stop = .releasing (c :: rest) → (s.phase c).conn.isSome = false

instance (s : WssConnections) : (a : WssAction) → Decidable (Unclaimed s a)
  | .stopRelease =>
    match h : s.stop with
    | .releasing (c :: rest) => decidable_of_iff ((s.phase c).conn.isSome = false) <| by
        rw [Unclaimed, h]
        simp
    | .releasing [] | .notCalled | .joining | .returned => .isTrue fun _ c rest hs => by simp_all
  | .acceptTest | .acceptFails | .accept _ | .spawn | .lookup _ | .test _ | .poll _ _ | .remove _
  | .release _ | .callStop | .join | .stopClear => .isTrue nofun

/-- The listed connections that `stop` has still to release. -/
def pending (s : WssConnections) : List ℕ :=
  match s.stop with
  | .notCalled | .joining => s.clients
  | .releasing rest => rest
  | .returned => []

variable {s t : WssConnections} {a : WssAction}

/-- Everything a step can do. A thread that goes on (`advance`) stays in its loop. -/
inductive Effect (s : WssConnections) : WssAction → WssConnections → Prop
  | acceptMove (a : WssAction) (p : AcceptPhase) (h : s.accept = .test ∨ s.accept = .accepting)
      (hp : ∀ i, p ≠ .spawning i) (ha : a ≠ .stopRelease) : Effect s a { s with accept := p }
  | accept (fd : ℕ) (h : s.accept = .accepting) (hlock : s.stop.locks = false)
      (hfd : ¬ s.FdOpen fd) : Effect s (.accept fd) { s with
        accepted := s.accepted + 1
        fd := Function.update s.fd s.accepted fd
        clients := s.clients ++ [s.accepted]
        accept := .spawning s.accepted }
  | spawn (i : ℕ) (h : s.accept = .spawning i) :
      Effect s .spawn { s.setPhase i .spawned with accept := .test }
  | found (i c : ℕ) (h : s.phase i = .spawned) (hlock : s.stop.locks = false)
      (hc : c ∈ s.clients) (hfd : s.fd c = s.fd i) : Effect s (.lookup i) (s.setPhase i (.test c))
  | notFound (i : ℕ) (h : s.phase i = .spawned) (hlock : s.stop.locks = false)
      (hi : i ∉ s.clients) : Effect s (.lookup i) (s.setPhase i .ended)
  | advance (a : WssAction) (i : ℕ) (p : ClientPhase) (alive : ℕ → Bool)
      (h : (s.phase i).looping = true) (hp : p.looping = true)
      (hconn : p.conn = (s.phase i).conn) (ha : a ≠ .stopRelease) :
      Effect s a { s.setPhase i p with alive }
  | remove (i c : ℕ) (h : s.phase i = .leaving c) (hlock : s.stop.locks = false) :
      Effect s (.remove i) { s.setPhase i (.removed c) with clients := s.clients.filter (· ≠ c) }
  | release (i c : ℕ) (h : s.phase i = .removed c) : Effect s (.release i)
      { s.setPhase i .ended with closed := s.closed ++ [i], deleted := s.deleted ++ [c] }
  | callStop (h : s.stop = .notCalled) :
      Effect s .callStop { s with running := false, stop := .joining }
  | join (h : s.stop = .joining) (hacc : s.accept = .ended) :
      Effect s .join { s with stop := .releasing s.clients }
  | stopRelease (c : ℕ) (rest : List ℕ) (h : s.stop = .releasing (c :: rest)) :
      Effect s .stopRelease { s with
        closed := s.closed ++ [c]
        deleted := s.deleted ++ [c]
        alive := Function.update s.alive c false
        stop := .releasing rest }
  | stopClear (h : s.stop = .releasing []) :
      Effect s .stopClear { s with clients := [], stop := .returned }

theorem effect_lookup {i : ℕ} (h : s.step (.lookup i) = some t) : Effect s (.lookup i) t := by
  simp only [step] at h
  split at h
  · rename_i hi
    have hlock : s.stop.locks = false := by simpa using hi.2
    cases hf : s.clients.find? fun c => s.fd c = s.fd i with
    | some c =>
      simp only [hf, Option.some.injEq] at h
      subst h
      exact .found i c hi.1 hlock (List.mem_of_find?_eq_some hf)
        (by simpa using List.find?_some hf)
    | none =>
      simp only [hf, Option.some.injEq] at h
      subst h
      refine .notFound i hi.1 hlock ?_
      intro hmem
      simpa using List.find?_eq_none.1 hf i hmem
  · cases h

theorem effect_of_step (h : s.step a = some t) : Effect s a t := by
  cases a with
  | acceptTest =>
    simp only [step] at h
    split at h
    · rename_i ha
      cases h
      refine .acceptMove _ _ (.inl ha) ?_ nofun
      intro i
      split <;> nofun
    · cases h
  | acceptFails =>
    simp only [step] at h
    split at h
    · rename_i ha
      cases h
      exact .acceptMove _ _ (.inr ha) nofun nofun
    · cases h
  | accept fd =>
    simp only [step] at h
    split at h
    · rename_i ha
      cases h
      exact .accept fd ha.1 (by simpa using ha.2.1) ha.2.2
    · cases h
  | spawn =>
    cases ha : s.accept <;> simp only [step, ha] at h
    case spawning i => exact Option.some.inj h ▸ .spawn i ha
    all_goals cases h
  | lookup i => exact effect_lookup h
  | test i =>
    cases hp : s.phase i <;> simp only [step, hp] at h
    case test c =>
      cases h
      split
      · exact .advance _ i (.poll c) s.alive (by rw [hp]; rfl) rfl (by rw [hp]; rfl) nofun
      · exact .advance _ i (.leaving c) _ (by rw [hp]; rfl) rfl (by rw [hp]; rfl) nofun
    all_goals cases h
  | poll i failed =>
    cases hp : s.phase i <;> simp only [step, hp] at h
    case poll c =>
      cases h
      split
      · exact .advance _ i (.leaving c) _ (by rw [hp]; rfl) rfl (by rw [hp]; rfl) nofun
      · exact .advance _ i (.test c) s.alive (by rw [hp]; rfl) rfl (by rw [hp]; rfl) nofun
    all_goals cases h
  | remove i =>
    cases hp : s.phase i <;> simp only [step, hp] at h
    case leaving c =>
      split at h
      · cases h
      · rename_i hlock
        cases h
        exact .remove i c hp (by simpa using hlock)
    all_goals cases h
  | release i =>
    cases hp : s.phase i <;> simp only [step, hp] at h
    case removed c => exact Option.some.inj h ▸ .release i c hp
    all_goals cases h
  | callStop =>
    simp only [step] at h
    split at h
    · rename_i hs
      cases h
      exact .callStop hs
    · cases h
  | join =>
    simp only [step] at h
    split at h
    · rename_i hs
      cases h
      exact .join hs.1 hs.2
    · cases h
  | stopRelease =>
    cases hs : s.stop with
    | releasing rest =>
      cases rest with
      | nil => simp only [step, hs] at h; cases h
      | cons c rest =>
        simp only [step, hs] at h
        exact Option.some.inj h ▸ .stopRelease c rest hs
    | notCalled => simp only [step, hs] at h; cases h
    | joining => simp only [step, hs] at h; cases h
    | returned => simp only [step, hs] at h; cases h
  | stopClear =>
    simp only [step] at h
    split at h
    · rename_i hs
      cases h
      exact .stopClear hs
    · cases h

structure Sound (s : WssConnections) : Prop where
  own : ∀ i c, (s.phase i).conn = some c → c = i
  fresh : ∀ i, s.accepted ≤ i → s.phase i = .notStarted
  closed : ∀ i ∈ s.closed, i < s.accepted
  deleted : s.deleted = s.closed
  listed : ∀ i ∈ s.clients, i < s.accepted ∧ s.phase i ≠ .ended ∧ (s.phase i).isRemoved = false
  waits : ∀ i, s.phase i = .spawned → s.stop ≠ .returned → i ∈ s.clients
  spawning : ∀ i, s.accept = .spawning i →
    i < s.accepted ∧ s.phase i = .notStarted ∧ i ∈ s.clients
  unreleased : s.stop.early = true → ∀ i ∈ s.clients, i ∉ s.closed
  distinct : ∀ i ∈ s.clients, ∀ j ∈ s.clients, s.fd i = s.fd j → i = j
  joined : s.accept ≠ .ended → s.stop.early = true
  cleared : s.stop = .returned → s.clients = []
  rest : ∀ r, s.stop = .releasing r → ∀ i ∈ r, i < s.accepted

theorem sound_start : Sound {} where
  own := nofun
  fresh _ _ := rfl
  closed := nofun
  deleted := rfl
  listed := nofun
  waits := nofun
  spawning := nofun
  unreleased := nofun
  distinct := nofun
  joined _ := rfl
  cleared := nofun
  rest := nofun

theorem sound_accept (hs : Sound s) (fd : ℕ) (h : s.accept = .accepting) (hfd : ¬ s.FdOpen fd) :
    Sound { s with
      accepted := s.accepted + 1
      fd := Function.update s.fd s.accepted fd
      clients := s.clients ++ [s.accepted]
      accept := .spawning s.accepted } := by
  have hearly : s.stop.early = true := hs.joined (by rw [h]; nofun)
  have hnew : s.phase s.accepted = .notStarted := hs.fresh _ (Nat.le_refl _)
  have hlt : ∀ i ∈ s.clients, i < s.accepted := fun i hi => (hs.listed i hi).1
  -- a listed connection is open, so the kernel has given another descriptor
  have hother : ∀ i ∈ s.clients, s.fd i ≠ fd := by
    intro i hi he
    exact hfd ⟨i, hlt i hi, hs.unreleased hearly i hi, he⟩
  have hkeep : ∀ i ∈ s.clients, Function.update s.fd s.accepted fd i = s.fd i := fun i hi =>
    Function.update_of_ne (Nat.ne_of_lt (hlt i hi)) _ _
  constructor
  · exact hs.own
  · intro i hi
    exact hs.fresh i (Nat.le_of_succ_le hi)
  · intro i hi
    exact Nat.lt_succ_of_lt (hs.closed i hi)
  · exact hs.deleted
  · intro i hi
    simp only [List.mem_append, List.mem_singleton] at hi
    rcases hi with hi | rfl
    · exact ⟨Nat.lt_succ_of_lt (hlt i hi), (hs.listed i hi).2⟩
    · exact ⟨Nat.lt_succ_self _, by rw [hnew]; nofun, by rw [hnew]; rfl⟩
  · intro i hi hstop
    exact List.mem_append_left _ (hs.waits i hi hstop)
  · rintro i hi
    cases hi
    exact ⟨Nat.lt_succ_self _, hnew, by simp⟩
  · intro _ i hi
    simp only [List.mem_append, List.mem_singleton] at hi
    rcases hi with hi | rfl
    · exact hs.unreleased hearly i hi
    · exact fun hc => Nat.lt_irrefl _ (hs.closed _ hc)
  · intro i hi j hj hij
    simp only [List.mem_append, List.mem_singleton] at hi hj
    rcases hi with hi | rfl <;> rcases hj with hj | rfl
    · simp only [hkeep i hi, hkeep j hj] at hij
      exact hs.distinct i hi j hj hij
    · simp only [hkeep i hi, Function.update_self] at hij
      exact absurd hij (hother i hi)
    · simp only [hkeep j hj, Function.update_self] at hij
      exact absurd hij.symm (hother j hj)
    · rfl
  · exact fun _ => hearly
  · intro hstop
    change s.stop = .returned at hstop
    rw [hstop] at hearly
    cases hearly
  · intro r hr i hi
    exact Nat.lt_succ_of_lt (hs.rest r hr i hi)

/-- A thread moves on, and its connection stays on the list unless it is gone from it. -/
theorem sound_setPhase (hs : Sound s) {i : ℕ} {p : ClientPhase} (hi : i < s.accepted)
    (hconn : ∀ c, p.conn = some c → c = i) (hspawned : p ≠ .spawned)
    (hstarted : s.phase i ≠ .notStarted)
    (hlisted : i ∈ s.clients → p ≠ .ended ∧ p.isRemoved = false) :
    Sound (s.setPhase i p) := by
  have hself : (s.setPhase i p).phase i = p := s.setPhase_self i p
  have hne : ∀ j, j ≠ i → (s.setPhase i p).phase j = s.phase j := fun j hj => setPhase_ne hj s p
  constructor
  · intro j c hc
    by_cases hj : j = i
    · subst hj
      exact hconn c (hself ▸ hc)
    · exact hs.own j c (hne j hj ▸ hc)
  · intro j hj
    have hji : j ≠ i := by
      rintro rfl
      exact Nat.not_le_of_lt hi hj
    rw [hne j hji]
    exact hs.fresh j hj
  · exact hs.closed
  · exact hs.deleted
  · intro j hj
    by_cases hji : j = i
    · subst hji
      rw [hself]
      exact ⟨hi, hlisted hj⟩
    · rw [hne j hji]
      exact hs.listed j hj
  · intro j hj hstop
    by_cases hji : j = i
    · subst hji
      exact absurd (hself ▸ hj) hspawned
    · exact hs.waits j (hne j hji ▸ hj) hstop
  · intro j hj
    have hji : j ≠ i := by
      rintro rfl
      exact hstarted (hs.spawning j hj).2.1
    rw [hne j hji]
    exact hs.spawning j hj
  · exact hs.unreleased
  · exact hs.distinct
  · exact hs.joined
  · exact hs.cleared
  · exact hs.rest

theorem Sound.lt_accepted (hs : Sound s) {i : ℕ} (h : s.phase i ≠ .notStarted) :
    i < s.accepted := by
  by_contra hle
  exact h (hs.fresh i (Nat.le_of_not_lt hle))

theorem Sound.found (hs : Sound s) {i c : ℕ} (h : s.phase i = .spawned) (hc : c ∈ s.clients)
    (hfd : s.fd c = s.fd i) : c = i := by
  have hstop : s.stop ≠ .returned := by
    intro hstop
    rw [hs.cleared hstop] at hc
    cases hc
  exact hs.distinct c hc i (hs.waits i h hstop) hfd

theorem Sound.accept_ended (hs : Sound s) (h : s.stop.early = false) : s.accept = .ended := by
  by_contra hacc
  rw [hs.joined hacc] at h
  cases h

theorem Sound.lt_closed_append (hs : Sound s) {c : ℕ} (hc : c < s.accepted) :
    ∀ i ∈ s.closed ++ [c], i < s.accepted := by
  intro i hi
  rcases List.mem_append.1 hi with hi | hi
  · exact hs.closed i hi
  · exact List.mem_singleton.1 hi ▸ hc

theorem sound_spawn (hs : Sound s) {i : ℕ} (h : s.accept = .spawning i) :
    Sound { s.setPhase i .spawned with accept := .test } := by
  obtain ⟨hi, hphase, hmem⟩ := hs.spawning i h
  have hself : (s.setPhase i .spawned).phase i = .spawned := s.setPhase_self i .spawned
  have hne : ∀ j, j ≠ i → (s.setPhase i .spawned).phase j = s.phase j := fun j hj =>
    setPhase_ne hj s .spawned
  refine { hs with own := ?_, fresh := ?_, listed := ?_, waits := ?_, spawning := nofun,
                   joined := fun _ => hs.joined (by rw [h]; nofun) }
  · intro j c hc
    by_cases hj : j = i
    · subst hj
      cases (hself ▸ hc : ClientPhase.spawned.conn = some c)
    · exact hs.own j c (hne j hj ▸ hc)
  · intro j hj
    have hji : j ≠ i := by
      rintro rfl
      exact Nat.not_le_of_lt hi hj
    exact (hne j hji).trans (hs.fresh j hj)
  · intro j hj
    by_cases hji : j = i
    · subst hji
      change _ ∧ (s.setPhase j .spawned).phase j ≠ _ ∧
        ((s.setPhase j .spawned).phase j).isRemoved = _
      rw [hself]
      exact ⟨hi, nofun, rfl⟩
    · exact (hne j hji).symm ▸ hs.listed j hj
  · intro j hj hstop
    by_cases hji : j = i
    · exact hji ▸ hmem
    · exact hs.waits j (hne j hji ▸ hj) hstop

theorem sound_filter (hs : Sound s) {c : ℕ} (h : s.phase c = .leaving c) :
    Sound { s with clients := s.clients.filter (· ≠ c) } := by
  have hsub : ∀ j ∈ s.clients.filter (· ≠ c), j ∈ s.clients := fun j hj =>
    (List.mem_filter.1 hj).1
  have hstays : ∀ j, s.phase j ≠ s.phase c → j ∈ s.clients → j ∈ s.clients.filter (· ≠ c) := by
    intro j hphase hmem
    have hjc : j ≠ c := fun he => hphase (he ▸ rfl)
    exact List.mem_filter.2 ⟨hmem, by simpa using hjc⟩
  refine { hs with
    listed := fun j hj => hs.listed j (hsub j hj)
    waits := fun j hj hstop => hstays j (by rw [hj, h]; nofun) (hs.waits j hj hstop)
    spawning := ?_
    unreleased := fun he j hj => hs.unreleased he j (hsub j hj)
    distinct := fun j hj k hk => hs.distinct j (hsub j hj) k (hsub k hk)
    cleared := ?_ }
  · intro j hj
    obtain ⟨hlt, hphase, hmem⟩ := hs.spawning j hj
    exact ⟨hlt, hphase, hstays j (by rw [hphase, h]; nofun) hmem⟩
  · intro hstop
    change s.clients.filter _ = []
    rw [hs.cleared hstop]
    rfl

theorem sound_remove (hs : Sound s) {i c : ℕ} (h : s.phase i = .leaving c) :
    Sound { s.setPhase i (.removed c) with clients := s.clients.filter (· ≠ c) } := by
  obtain rfl : c = i := hs.own i c (by rw [h]; rfl)
  have hstart : s.phase c ≠ .notStarted := by rw [h]; nofun
  exact sound_setPhase (sound_filter hs h) (hs.lt_accepted hstart)
    (fun _ he => (Option.some.inj he).symm) nofun hstart fun hmem => by simp at hmem

theorem sound_release (hs : Sound s) {i c : ℕ} (h : s.phase i = .removed c) :
    Sound { s.setPhase i .ended with
      closed := s.closed ++ [i], deleted := s.deleted ++ [c] } := by
  obtain rfl : c = i := hs.own i c (by rw [h]; rfl)
  have hstart : s.phase c ≠ .notStarted := by rw [h]; nofun
  have hoff : c ∉ s.clients := by
    intro hmem
    have hrem := (hs.listed c hmem).2.2
    rw [h] at hrem
    cases hrem
  have hmoved := sound_setPhase hs (p := .ended) (hs.lt_accepted hstart) nofun nofun hstart
    fun hmem => absurd hmem hoff
  refine { hmoved with
    closed := hs.lt_closed_append (hs.lt_accepted hstart)
    deleted := congrArg (· ++ [c]) hs.deleted
    unreleased := ?_ }
  intro he j hj hmem
  rcases List.mem_append.1 hmem with hmem | hmem
  · exact hs.unreleased he j hj hmem
  · exact hoff (List.mem_singleton.1 hmem ▸ hj)

theorem sound_stopRelease (hs : Sound s) {c : ℕ} {rest : List ℕ}
    (h : s.stop = .releasing (c :: rest)) :
    Sound { s with
      closed := s.closed ++ [c]
      deleted := s.deleted ++ [c]
      alive := Function.update s.alive c false
      stop := .releasing rest } := by
  refine { hs with
    closed := hs.lt_closed_append (hs.rest _ h c List.mem_cons_self)
    deleted := congrArg (· ++ [c]) hs.deleted
    waits := fun i hi _ => hs.waits i hi (by rw [h]; nofun)
    unreleased := nofun
    joined := fun hacc => absurd (hs.accept_ended (by rw [h]; rfl)) hacc
    cleared := nofun
    rest := ?_ }
  intro r hr i hi
  cases hr
  exact hs.rest _ h i (List.mem_cons_of_mem c hi)

theorem sound_effect (hs : Sound s) (h : Effect s a t) : Sound t := by
  cases h with
  | acceptMove a p h hp ha =>
    have hnot : s.accept ≠ .ended := by rcases h with h | h <;> rw [h] <;> nofun
    exact { hs with
      spawning := fun i hi => absurd hi (hp i)
      joined := fun _ => hs.joined hnot }
  | accept fd h hlock hfd => exact sound_accept hs fd h hfd
  | spawn i h => exact sound_spawn hs h
  | found i c h hlock hc hfd =>
    obtain rfl := hs.found h hc hfd
    have hstart : s.phase c ≠ .notStarted := by rw [h]; nofun
    exact sound_setPhase hs (hs.lt_accepted hstart) (fun _ he => (Option.some.inj he).symm) nofun
      hstart fun _ => ⟨nofun, rfl⟩
  | notFound i h hlock hi =>
    have hstart : s.phase i ≠ .notStarted := by rw [h]; nofun
    exact sound_setPhase hs (hs.lt_accepted hstart) nofun nofun hstart fun hmem => absurd hmem hi
  | advance a i p alive h hp hconn ha =>
    have hstart := (ClientPhase.looping_ne h).1
    obtain ⟨-, hspawned, hended⟩ := ClientPhase.looping_ne hp
    have hkept := sound_setPhase hs (hs.lt_accepted hstart)
      (fun c hc => hs.own i c (hconn ▸ hc)) hspawned hstart
      fun _ => ⟨hended, ClientPhase.not_removed_of_looping hp⟩
    exact { hkept with }
  | remove i c h hlock => exact sound_remove hs h
  | release i c h => exact sound_release hs h
  | callStop h =>
    have hearly : s.stop.early = true := by rw [h]; rfl
    exact { hs with
      waits := fun i hi _ => hs.waits i hi (by rw [h]; nofun)
      unreleased := fun _ => hs.unreleased hearly
      joined := fun _ => rfl
      cleared := nofun
      rest := nofun }
  | join h hacc =>
    refine { hs with
      waits := fun i hi _ => hs.waits i hi (by rw [h]; nofun)
      unreleased := nofun
      joined := fun hne => absurd hacc hne
      cleared := nofun
      rest := ?_ }
    intro r hr i hi
    cases hr
    exact (hs.listed i hi).1
  | stopRelease c rest h => exact sound_stopRelease hs h
  | stopClear h =>
    have hacc : s.accept = .ended := hs.accept_ended (by rw [h]; rfl)
    exact { hs with
      listed := nofun
      waits := fun _ _ hstop => absurd rfl hstop
      spawning := fun i hi => by cases hacc.symm.trans hi
      unreleased := nofun
      distinct := nofun
      joined := fun hne => absurd hacc hne
      cleared := fun _ => rfl
      rest := nofun }

theorem sound_step (hs : Sound s) (h : s.step a = some t) : Sound t :=
  sound_effect hs (effect_of_step h)

/-- Released so far, still to be released by `stop`, or in the hands of its own thread. -/
def charge (s : WssConnections) (i : ℕ) : ℕ :=
  s.closed.count i + s.pending.count i + if (s.phase i).isRemoved then 1 else 0

/-- Kept while `stop` claims no connection that a thread has looked up. -/
structure Owned (s : WssConnections) : Prop where
  once : ∀ i < s.accepted, s.charge i = 1
  kept : ∀ i, (s.phase i).looping = true → i ∈ s.pending

theorem owned_start : Owned {} := ⟨nofun, nofun⟩

theorem pending_of_early (h : s.stop.early = true) : s.pending = s.clients := by
  unfold pending
  cases hs : s.stop <;> rw [hs] at h <;> first | rfl | cases h

theorem pending_of_returned (h : s.stop = .returned) : s.pending = [] := by
  simp only [pending, h]

theorem early_of_unlocked (hlock : s.stop.locks = false) (h : s.stop ≠ .returned) :
    s.stop.early = true := by
  cases hs : s.stop with
  | releasing r =>
    rw [hs] at hlock
    cases hlock
  | returned => exact absurd hs h
  | _ => rfl

theorem Owned.of_pending_eq (ho : Owned s) (haccepted : t.accepted = s.accepted)
    (hphase : t.phase = s.phase) (hclosed : t.closed = s.closed) (hpend : t.pending = s.pending) :
    Owned t := by
  constructor
  · intro i hi
    rw [charge, hclosed, hpend, hphase]
    exact ho.once i (haccepted ▸ hi)
  · intro i hi
    rw [hphase] at hi
    rw [hpend]
    exact ho.kept i hi

theorem owned_setPhase (ho : Owned s) {i : ℕ} {p : ClientPhase}
    (hrem : p.isRemoved = (s.phase i).isRemoved) (hloop : p.looping = true → i ∈ s.pending) :
    Owned (s.setPhase i p) := by
  constructor
  · intro j hj
    have hsame : ((s.setPhase i p).phase j).isRemoved = (s.phase j).isRemoved := by
      by_cases hji : j = i
      · rw [hji, setPhase_self, hrem]
      · rw [setPhase_ne hji]
    unfold charge
    rw [hsame]
    exact ho.once j hj
  · intro j hj
    by_cases hji : j = i
    · subst hji
      rw [setPhase_self] at hj
      exact hloop hj
    · rw [setPhase_ne hji] at hj
      exact ho.kept j hj

theorem owned_accept (hs : Sound s) (ho : Owned s) (fd : ℕ) (h : s.accept = .accepting) :
    Owned { s with
      accepted := s.accepted + 1
      fd := Function.update s.fd s.accepted fd
      clients := s.clients ++ [s.accepted]
      accept := .spawning s.accepted } := by
  have hearly : s.stop.early = true := hs.joined (by rw [h]; nofun)
  have hpend := pending_of_early hearly
  have hpend' := pending_of_early (s := { s with
    accepted := s.accepted + 1
    fd := Function.update s.fd s.accepted fd
    clients := s.clients ++ [s.accepted]
    accept := .spawning s.accepted }) hearly
  have hnew : s.accepted ∉ s.clients := fun hmem => Nat.lt_irrefl _ (hs.listed _ hmem).1
  have hopen : s.accepted ∉ s.closed := fun hmem => Nat.lt_irrefl _ (hs.closed _ hmem)
  constructor
  · intro i hi
    unfold charge
    rw [hpend']
    change s.closed.count i + (s.clients ++ [s.accepted]).count i + _ = 1
    by_cases hi' : i = s.accepted
    · subst hi'
      have hphase : s.phase s.accepted = .notStarted := hs.fresh _ (Nat.le_refl _)
      simp [List.count_append, List.count_eq_zero.2 hnew, List.count_eq_zero.2 hopen, hphase,
        ClientPhase.isRemoved]
    · have hold := ho.once i (Nat.lt_of_le_of_ne (Nat.le_of_lt_succ hi) hi')
      rw [charge, hpend] at hold
      rw [List.count_append, List.count_singleton, beq_false_of_ne (Ne.symm hi')]
      exact hold
  · intro i hi
    rw [hpend']
    exact List.mem_append_left _ (hpend ▸ ho.kept i hi)

theorem owned_remove (hs : Sound s) (ho : Owned s) {i c : ℕ} (h : s.phase i = .leaving c)
    (hlock : s.stop.locks = false) :
    Owned { s.setPhase i (.removed c) with clients := s.clients.filter (· ≠ c) } := by
  obtain rfl : c = i := hs.own i c (by rw [h]; rfl)
  have hmem : c ∈ s.pending := ho.kept c (by rw [h]; rfl)
  have hearly : s.stop.early = true := by
    refine early_of_unlocked hlock ?_
    intro hstop
    rw [pending_of_returned hstop] at hmem
    cases hmem
  have hpend := pending_of_early hearly
  have hpend' := pending_of_early (s := { s.setPhase c (.removed c) with
    clients := s.clients.filter (· ≠ c) }) hearly
  constructor
  · intro i hi
    have hold := ho.once i hi
    unfold charge at hold ⊢
    rw [hpend']
    rw [hpend] at hold hmem
    change s.closed.count i + (s.clients.filter (· ≠ c)).count i +
      (if ((s.setPhase c (.removed c)).phase i).isRemoved then 1 else 0) = 1
    by_cases hi' : i = c
    · subst hi'
      have hpos : 0 < s.clients.count i := List.count_pos_iff.2 hmem
      have hnone : (s.clients.filter (· ≠ i)).count i = 0 := by simp [List.count_eq_zero]
      rw [setPhase_self, hnone]
      rw [h] at hold
      simp only [ClientPhase.isRemoved, Bool.false_eq_true, if_false] at hold
      simp only [ClientPhase.isRemoved, if_true]
      omega
    · rw [setPhase_ne hi', List.count_filter (by simpa using hi')]
      exact hold
  · intro i hi
    rw [hpend']
    change i ∈ s.clients.filter (· ≠ c)
    change ((s.setPhase c (.removed c)).phase i).looping = true at hi
    by_cases hi' : i = c
    · subst hi'
      rw [setPhase_self] at hi
      cases hi
    · rw [setPhase_ne hi'] at hi
      exact List.mem_filter.2 ⟨hpend ▸ ho.kept i hi, by simpa using hi'⟩

theorem owned_release (ho : Owned s) {i c : ℕ} (h : s.phase i = .removed c) :
    Owned { s.setPhase i .ended with
      closed := s.closed ++ [i], deleted := s.deleted ++ [c] } := by
  constructor
  · intro j hj
    have hold := ho.once j hj
    unfold charge at hold ⊢
    change (s.closed ++ [i]).count j + s.pending.count j +
      (if ((s.setPhase i .ended).phase j).isRemoved then 1 else 0) = 1
    rw [List.count_append, List.count_singleton]
    by_cases hji : j = i
    · subst hji
      rw [h] at hold
      simp only [ClientPhase.isRemoved, if_true] at hold
      simp only [setPhase_self, ClientPhase.isRemoved, beq_self_eq_true, if_true]
      simp only [Bool.false_eq_true, if_false]
      omega
    · rw [setPhase_ne hji, beq_false_of_ne (Ne.symm hji)]
      exact hold
  · intro j hj
    change ((s.setPhase i .ended).phase j).looping = true at hj
    by_cases hji : j = i
    · subst hji
      rw [setPhase_self] at hj
      cases hj
    · rw [setPhase_ne hji] at hj
      exact ho.kept j hj

theorem owned_stopRelease (ho : Owned s) {c : ℕ} {rest : List ℕ}
    (h : s.stop = .releasing (c :: rest)) (hq : (s.phase c).conn.isSome = false) :
    Owned { s with
      closed := s.closed ++ [c]
      deleted := s.deleted ++ [c]
      alive := Function.update s.alive c false
      stop := .releasing rest } := by
  have hpend : s.pending = c :: rest := by simp only [pending, h]
  constructor
  · intro i hi
    have hold := ho.once i hi
    unfold charge at hold ⊢
    rw [hpend, List.count_cons] at hold
    change (s.closed ++ [c]).count i + rest.count i +
      (if (s.phase i).isRemoved then 1 else 0) = 1
    rw [List.count_append, List.count_singleton]
    omega
  · intro i hi
    change i ∈ rest
    have hmem := ho.kept i hi
    rw [hpend] at hmem
    rcases List.mem_cons.1 hmem with rfl | hmem
    · -- a thread that has looked its connection up has found one
      rw [ClientPhase.looping_conn hi] at hq
      cases hq
    · exact hmem

theorem owned_effect (hs : Sound s) (ho : Owned s) (hq : Unclaimed s a) (h : Effect s a t) :
    Owned t := by
  cases h with
  | acceptMove a p h hp ha => exact ⟨ho.once, ho.kept⟩
  | accept fd h hlock hfd => exact owned_accept hs ho fd h
  | spawn i h =>
    have hphase := (hs.spawning i h).2.1
    have hmoved := owned_setPhase ho (i := i) (p := .spawned) (by rw [hphase]; rfl) nofun
    exact ⟨hmoved.once, hmoved.kept⟩
  | found i c h hlock hc hfd =>
    obtain rfl := hs.found h hc hfd
    refine owned_setPhase ho (by rw [h]; rfl) ?_
    intro _
    rw [pending_of_early (early_of_unlocked hlock ?_)]
    · exact hc
    · intro hstop
      rw [hs.cleared hstop] at hc
      cases hc
  | notFound i h hlock hi => exact owned_setPhase ho (by rw [h]; rfl) nofun
  | advance a i p alive h hp hconn ha =>
    have hmoved := owned_setPhase ho (i := i) (p := p)
      (by rw [ClientPhase.not_removed_of_looping h, ClientPhase.not_removed_of_looping hp])
      fun _ => ho.kept i h
    exact ⟨hmoved.once, hmoved.kept⟩
  | remove i c h hlock => exact owned_remove hs ho h hlock
  | release i c h => exact owned_release ho h
  | callStop h =>
    have hpend : s.pending = s.clients := pending_of_early (by rw [h]; rfl)
    exact ho.of_pending_eq rfl rfl rfl hpend.symm
  | join h hacc =>
    have hpend : s.pending = s.clients := pending_of_early (by rw [h]; rfl)
    exact ho.of_pending_eq rfl rfl rfl hpend.symm
  | stopRelease c rest h => exact owned_stopRelease ho h (hq rfl c rest h)
  | stopClear h =>
    have hpend : s.pending = [] := by simp only [pending, h]
    exact ho.of_pending_eq rfl rfl rfl hpend.symm

def owing (s : WssConnections) (i : ℕ) : ℕ :=
  s.closed.count i + if (s.phase i).conn.isSome then 1 else 0

theorem accepted_effect (h : Effect s a t) : s.accepted ≤ t.accepted := by
  cases h with
  | accept fd h hlock hfd => exact Nat.le_succ _
  | _ => exact Nat.le_refl _

theorem owing_setPhase {i : ℕ} {p : ClientPhase}
    (h : (s.phase i).conn.isSome = true → p.conn.isSome = true) (j : ℕ) :
    s.owing j ≤ (s.setPhase i p).owing j := by
  unfold owing
  change s.closed.count j + _ ≤ s.closed.count j + _
  by_cases hji : j = i
  · subst hji
    rw [setPhase_self]
    by_cases hc : (s.phase j).conn.isSome = true
    · exact Nat.le_of_eq (by rw [if_pos hc, if_pos (h hc)])
    · rw [if_neg hc]
      exact Nat.add_le_add_left (Nat.zero_le _) _
  · exact Nat.le_of_eq (by rw [setPhase_ne hji])

theorem owing_effect (hs : Sound s) (h : Effect s a t) (j : ℕ) : s.owing j ≤ t.owing j := by
  cases h with
  | spawn i h =>
    refine owing_setPhase (p := .spawned) ?_ j
    rw [(hs.spawning i h).2.1]
    nofun
  | found i c h hlock hc hfd => exact owing_setPhase (fun _ => rfl) j
  | notFound i h hlock hi =>
    refine owing_setPhase ?_ j
    rw [h]
    nofun
  | advance a i p alive h hp hconn ha => exact owing_setPhase (p := p) (fun he => hconn ▸ he) j
  | remove i c h hlock => exact owing_setPhase (p := .removed c) (fun _ => rfl) j
  | release i c h =>
    unfold owing
    change _ ≤ (s.closed ++ [i]).count j + if ((s.setPhase i .ended).phase j).conn.isSome
      then 1 else 0
    rw [List.count_append, List.count_singleton]
    by_cases hji : j = i
    · subst hji
      simp [h, ClientPhase.conn]
    · rw [setPhase_ne hji]
      omega
  | stopRelease c rest h =>
    unfold owing
    change _ ≤ (s.closed ++ [c]).count j + if (s.phase j).conn.isSome then 1 else 0
    rw [List.count_append]
    omega
  | _ => exact Nat.le_refl _

theorem owing_of_claimed (hs : Sound s) (hq : ¬ Unclaimed s a) (h : Effect s a t) :
    ∃ i < t.accepted, 2 ≤ t.owing i := by
  simp only [Unclaimed, not_forall] at hq
  obtain ⟨rfl, c, rest, hstop, hconn⟩ := hq
  cases h with
  | acceptMove a p h hp ha => exact absurd rfl ha
  | advance a i p alive h hp hconn ha => exact absurd rfl ha
  | stopRelease c' rest' h =>
    obtain ⟨rfl, rfl⟩ : c = c' ∧ rest = rest' := by
      rw [hstop] at h
      cases h
      exact ⟨rfl, rfl⟩
    refine ⟨c, hs.rest _ h c List.mem_cons_self, ?_⟩
    unfold owing
    change 2 ≤ (s.closed ++ [c]).count c + if (s.phase c).conn.isSome then 1 else 0
    rw [if_pos (Bool.not_eq_false _ ▸ hconn), List.count_append, List.count_singleton_self]
    omega

/-- Over every interleaving: without a claim by `stop` nothing is released twice, and in
a run that comes to its end each connection is released exactly once if and only if
`stop` made no such claim. -/
theorem releasedOnce_iff {as : List WssAction} (hr : run step {} as = some s) :
    (Along step Unclaimed {} as →
      ∀ i < s.accepted, s.closed.count i ≤ 1 ∧ s.deleted.count i ≤ 1) ∧
    (s.Finished → (s.EachReleasedOnce ↔ Along step Unclaimed {} as)) := by
  have hsound : Sound s := run_preserves (fun _ _ _ => sound_step) sound_start hr
  have howned : Along step Unclaimed {} as → Owned s := by
    intro hq
    exact (run_invariant (I := fun s => Sound s ∧ Owned s)
      (fun s a t hI hq ht =>
        ⟨sound_step hI.1 ht, owned_effect hI.1 hI.2 hq (effect_of_step ht)⟩)
      ⟨sound_start, owned_start⟩ hq hr).2
  refine ⟨?_, ?_⟩
  · intro hq i hi
    have hone := (howned hq).once i hi
    rw [hsound.deleted, and_self]
    unfold charge at hone
    omega
  · intro hf
    constructor
    · intro heach
      by_contra hq
      obtain ⟨i, hi, htwo⟩ := run_of_not_along (J := fun s => ∃ i < s.accepted, 2 ≤ s.owing i)
        (fun _ _ _ => sound_step)
        (fun s a t hs hq ht => owing_of_claimed hs hq (effect_of_step ht))
        (fun s a t hs hJ ht => by
          obtain ⟨i, hi, htwo⟩ := hJ
          have heff := effect_of_step ht
          exact ⟨i, Nat.lt_of_lt_of_le hi (accepted_effect heff),
            Nat.le_trans htwo (owing_effect hs heff i)⟩)
        sound_start hq hr
      rw [owing, (heach i hi).1, hf.2 i hi] at htwo
      simp [ClientPhase.conn] at htwo
    · intro hq i hi
      have hone := (howned hq).once i hi
      rw [charge, pending_of_returned hf.1, hf.2 i hi] at hone
      rw [hsound.deleted, and_self]
      simpa [ClientPhase.isRemoved] using hone

/-- The first client leaves by itself; `stop` releases the second before its thread looks. -/
def leftAndLate : List WssAction :=
  [.acceptTest, .accept 7, .spawn, .lookup 0, .test 0, .poll 0 true, .acceptTest, .accept 9, .spawn,
    .remove 0, .release 0, .callStop, .acceptTest, .join, .stopRelease, .stopClear, .lookup 1]

theorem releasedOnce_iff_leftAndLate : ∃ s, run step {} leftAndLate = some s ∧ s.Finished ∧
    s.closed = [0, 1] ∧ s.EachReleasedOnce := by
  have hr : run step {} leftAndLate = some _ := rfl
  exact ⟨_, hr, by decide, rfl, ((releasedOnce_iff hr).2 (by decide)).2 (by decide)⟩

/-- A client that is attached when the server stops is released by both sides. -/
theorem releasedOnce_fails_attached : ∃ s ∈ run step {} [.acceptTest, .accept 7, .spawn,
      .lookup 0, .test 0, .callStop, .acceptTest, .join, .stopRelease, .stopClear, .poll 0 false,
      .test 0, .remove 0, .release 0],
    s.Finished ∧ s.closed = [0, 0] ∧ s.deleted = [0, 0] ∧ ¬ s.EachReleasedOnce := by
  decide

end WssConnections
end EcidsCore
