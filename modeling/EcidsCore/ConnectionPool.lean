import EcidsCore.ClientSession
import EcidsCore.FifoLedger
import Mathlib.Data.List.Nodup

set_option autoImplicit false

/-! The accept thread, the queue and the workers of the API server, over any number of
starts and stops. The kernel hands out a descriptor while it is not open. -/
namespace EcidsCore
open GuardedRuns

namespace ClientServer

/-- A connection by its number among all accepted ones, and its descriptor. -/
structure Connection where
  number : ℕ
  fd : ℕ
deriving DecidableEq, Repr

/-- Where `accept_loop_` stands; `left` events of the last `epoll_wait` come behind the
current one. -/
inductive Acceptor where
  | absent
  | test
  | polling
  | event (left : ℕ)
  | holding (c : Connection) (left : ℕ)
  | ended
deriving DecidableEq, Repr

/-- A worker is stuck with a client that stays and goes on neither sending nor receiving. -/
inductive Worker where
  | test
  | wait
  | handling (c : Connection)
  | stuck (c : Connection)
  | ended
deriving DecidableEq, Repr

/-- How far `start` comes. -/
inductive StartResult where
  | noContext
  | badCertificate
  | noSocket
  | notBound
  | notListening
  | started
deriving DecidableEq, Repr

def Acceptor.held : Acceptor → List Connection
  | .holding c _ => [c]
  | .absent | .test | .polling | .event _ | .ended => []

def Worker.held : Worker → List Connection
  | .handling c | .stuck c => [c]
  | .test | .wait | .ended => []

/-- `client_queue_` is what waits in the ledger. `opened` is the kernel's table; `closed`
logs what the calls of `close` really closed. -/
structure Pool where
  running : Bool := false
  stopping : Bool := false
  sslCtx : Bool := false
  listening : Bool := false
  acceptor : Acceptor := .absent
  workers : List Worker := []
  ledger : FifoLedger Connection := .empty
  opened : List Connection := []
  accepted : List Connection := []
  refused : List Connection := []
  handled : List Connection := []
  closed : List Connection := []

inductive PoolAction where
  | start (result : StartResult) (workerThreads : ℤ)
  | acceptTest
  | poll (n : ℕ)
  | acceptFails
  | accept (fd : ℕ)
  | enqueue
  | workerTest (i : ℕ)
  | wake (i : ℕ)
  | handle (i : ℕ) (handler : Option Handler) (t : Tls)
  | callStop
  | join

def maxClients : ℕ := 64

/-- The loop over the events of one `epoll_wait`. -/
def Acceptor.after : ℕ → Acceptor
  | 0 => .test
  | n + 1 => .event n

namespace Pool

abbrev queue (s : Pool) : List Connection := s.ledger.waiting

def serving (s : Pool) : List Connection := s.workers.flatMap Worker.held

def closeFd (s : Pool) (fd : ℕ) : Pool :=
  { s with
    opened := s.opened.filter fun c => c.fd ≠ fd
    closed := s.closed ++ s.opened.filter fun c => c.fd = fd }

def start (s : Pool) (workerThreads : ℤ) : StartResult → Pool
  | .noContext | .badCertificate => { s with sslCtx := false }
  | .noSocket | .notBound | .notListening => { s with sslCtx := true, listening := false }
  | .started =>
    { s with
      running := true
      sslCtx := true
      listening := true
      acceptor := .test
      workers := s.workers ++ List.replicate workerThreads.toNat .test }

/-- The end of an accept: a full queue closes the connection. -/
def receive (s : Pool) (c : Connection) : Pool :=
  if maxClients ≤ s.queue.length then { s.closeFd c.fd with refused := s.refused ++ [c] }
  else { s with ledger := s.ledger.push c }

def setWorker (s : Pool) (i : ℕ) (w : Worker) : Pool := { s with workers := s.workers.set i w }

/-- From the wait for the queue on; a timeout finds it empty. -/
def wake (s : Pool) (i : ℕ) : Pool :=
  match s.queue with
  | [] => s.setWorker i (if s.running then .test else .ended)
  | c :: _ => { s.setWorker i (.handling c) with ledger := s.ledger.remove .taken }

/-- The calls of `handle_client_` on a descriptor. -/
def serve (s : Pool) (fd : ℕ) (calls : List SessionCall) : Pool :=
  calls.foldl (fun s call => if call = .close then s.closeFd fd else s) s

/-- `handle_client_` by the calls it makes; where it comes back, the worker goes on. -/
def serveClient (s : Pool) (i : ℕ) (c : Connection) (session : Session) : Pool :=
  let served := s.serve c.fd session.calls
  if session.returns then { served.setWorker i .test with handled := s.handled ++ [c] }
  else served.setWorker i (.stuck c)

/-- A successful `accept4`. -/
def welcome (s : Pool) (fd left : ℕ) : Pool :=
  let c : Connection := ⟨s.accepted.length, fd⟩
  { s with
    acceptor := .holding c left, opened := s.opened ++ [c], accepted := s.accepted ++ [c] }

def step (s : Pool) : PoolAction → Option Pool
  | .start result workerThreads =>
    if !s.running ∧ !s.stopping then some (s.start workerThreads result) else none
  | .acceptTest =>
    if s.acceptor = .test then some { s with acceptor := if s.running then .polling else .ended }
    else none
  | .poll n =>
    if s.acceptor = .polling ∧ n ≤ 16 then some { s with acceptor := .after n } else none
  | .acceptFails =>
    match s.acceptor with
    | .event left => some { s with acceptor := .after left }
    | _ => none
  | .accept fd =>
    match s.acceptor with
    | .event left =>
      if s.listening ∧ ∀ c ∈ s.opened, c.fd ≠ fd then some (s.welcome fd left) else none
    | _ => none
  | .enqueue =>
    match s.acceptor with
    | .holding c left => some { s.receive c with acceptor := .after left }
    | _ => none
  | .workerTest i =>
    if s.workers[i]? = some .test then
      some (s.setWorker i (if s.running then .wait else .ended))
    else none
  | .wake i => if s.workers[i]? = some .wait then some (s.wake i) else none
  | .handle i handler t =>
    match s.workers[i]? with
    | some (.handling c) => some (s.serveClient i c (handleClientCalls handler t))
    | _ => none
  | .callStop =>
    if s.stopping then none
    else if s.running then some { s with running := false, listening := false, stopping := true }
    else some s
  | .join =>
    if s.stopping ∧ s.acceptor = .ended ∧ ∀ w ∈ s.workers, w = .ended then
      some { s with acceptor := .absent, workers := [], sslCtx := false, stopping := false }
    else none

structure Accounted (s : Pool) : Prop where
  numbered : s.accepted.map Connection.number = List.range s.accepted.length
  accepted : s.accepted.Perm (s.refused ++ s.ledger.accepted ++ s.acceptor.held)
  queued : (s.ledger.accepted ++ s.acceptor.held).Sublist s.accepted
  taken : (s.ledger.withFate .taken).Perm (s.handled ++ s.serving)
  displaced : s.ledger.withFate .displaced = []
  opened : s.opened.Perm (s.acceptor.held ++ s.serving ++ s.queue)
  descriptors : (s.opened.map Connection.fd).Nodup
  closed : s.closed.Perm (s.refused ++ s.handled)
  bounded : s.queue.length ≤ maxClients

structure Staffed (s : Pool) : Prop where
  idle : s.running = false → s.stopping = false → s.acceptor = .absent ∧ s.workers = []
  halted : s.stopping → s.running = false ∧ s.listening = false
  live : s.running ∨ s.stopping → s.sslCtx ∧ s.acceptor ≠ .absent

variable {s t : Pool}

@[simp] theorem held_after (n : ℕ) : (Acceptor.after n).held = [] := by
  cases n <;> rfl

theorem perm_flatMap_set {α β : Type*} (f : α → List β) {l : List α} {i : ℕ} {a : α}
    (h : l[i]? = some a) (b : α) : ((l.set i b).flatMap f ++ f a).Perm (l.flatMap f ++ f b) := by
  induction l generalizing i with
  | nil => cases h
  | cons x l ih =>
    cases i with
    | zero =>
      cases h
      rw [List.set_cons_zero, List.flatMap_cons, List.flatMap_cons, List.append_assoc (f a)]
      exact List.perm_append_comm.trans (List.perm_append_comm.append_left (f a))
    | succ i =>
      rw [List.set_cons_succ, List.flatMap_cons, List.flatMap_cons, List.append_assoc,
        List.append_assoc]
      exact (ih h).append_left (f x)

theorem serving_setWorker {i : ℕ} {w : Worker} (h : s.workers[i]? = some w) (w' : Worker) :
    ((s.setWorker i w').serving ++ w.held).Perm (s.serving ++ w'.held) :=
  perm_flatMap_set Worker.held h w'

theorem serving_setWorker_free {i : ℕ} {w w' : Worker} (h : s.workers[i]? = some w)
    (hw : w.held = []) (hw' : w'.held = []) : (s.setWorker i w').serving.Perm s.serving := by
  have hperm := serving_setWorker h w'
  rwa [hw, hw', List.append_nil, List.append_nil] at hperm

theorem filter_descriptor {l : List Connection} {c : Connection}
    (hn : (l.map Connection.fd).Nodup) (hc : c ∈ l) :
    (l.filter fun d => d.fd = c.fd) = [c] ∧ l.Perm (c :: l.filter fun d => d.fd ≠ c.fd) := by
  obtain ⟨a, b, rfl⟩ := List.append_of_mem hc
  rw [List.map_append, List.map_cons, List.perm_middle.nodup_iff, List.nodup_cons,
    List.mem_append, not_or] at hn
  have hother (l : List Connection) (h : c.fd ∉ l.map Connection.fd) : ∀ d ∈ l, d.fd ≠ c.fd :=
    fun d hd he => h (List.mem_map.2 ⟨d, hd, he⟩)
  have ha := hother a hn.1.1
  have hb := hother b hn.1.2
  have hnone (l : List Connection) (h : ∀ d ∈ l, d.fd ≠ c.fd) :
      (l.filter fun d => d.fd = c.fd) = [] ∧ (l.filter fun d => d.fd ≠ c.fd) = l := by
    constructor
    · exact List.filter_eq_nil_iff.2 fun d hd => by simpa using h d hd
    · exact List.filter_eq_self.2 fun d hd => by simpa using h d hd
  constructor
  · rw [List.filter_append, (hnone a ha).1, List.filter_cons_of_pos (by simp), (hnone b hb).1]
    rfl
  · rw [List.filter_append, (hnone a ha).2, List.filter_cons_of_neg (by simp), (hnone b hb).2]
    exact List.perm_middle

theorem closeFd_open {c : Connection} (hn : (s.opened.map Connection.fd).Nodup)
    (hc : c ∈ s.opened) :
    (s.closeFd c.fd).closed = s.closed ++ [c] ∧ s.opened.Perm (c :: (s.closeFd c.fd).opened) ∧
      ((s.closeFd c.fd).opened.map Connection.fd).Nodup := by
  obtain ⟨hclosed, hperm⟩ := filter_descriptor hn hc
  refine ⟨congrArg (s.closed ++ ·) hclosed, hperm, ?_⟩
  exact hn.sublist (List.filter_sublist.map Connection.fd)

theorem serve_iterate (s : Pool) (fd : ℕ) (calls : List SessionCall) :
    s.serve fd calls = (fun s => s.closeFd fd)^[calls.count .close] s := by
  induction calls generalizing s with
  | nil => rfl
  | cons call calls ih =>
    rw [serve, List.foldl_cons]
    by_cases hcall : call = .close
    · subst hcall
      rw [if_pos rfl, List.count_cons_self, Function.iterate_succ_apply]
      exact ih _
    · rw [if_neg hcall, List.count_cons_of_ne hcall]
      exact ih s

theorem serveClient_eq (s : Pool) (i : ℕ) (c : Connection) {session : Session}
    (h : session.Released) :
    s.serveClient i c session =
      if session.returns then
        { (s.closeFd c.fd).setWorker i .test with handled := s.handled ++ [c] }
      else s.setWorker i (.stuck c) := by
  unfold serveClient
  dsimp only
  rw [serve_iterate, h.closes]
  split <;> rfl

def books (s : Pool) :=
  (s.ledger, s.opened, s.accepted, s.refused, s.handled, s.closed)

inductive Effect (s t : Pool) : Prop where
  | quiet (held : t.acceptor.held = s.acceptor.held) (serving : t.serving.Perm s.serving)
      (same : t.books = s.books)
  | accepted (left fd : ℕ) (phase : s.acceptor = .event left) (fresh : ∀ c ∈ s.opened, c.fd ≠ fd)
      (result : t = s.welcome fd left)
  | admitted (c : Connection) (left : ℕ) (phase : s.acceptor = .holding c left)
      (result : t = { s.receive c with acceptor := .after left })
  | taken (i : ℕ) (c : Connection) (rest : List Connection) (phase : s.workers[i]? = some .wait)
      (queue : s.queue = c :: rest)
      (result : t = { s.setWorker i (.handling c) with ledger := s.ledger.remove .taken })
  | handled (i : ℕ) (c : Connection) (phase : s.workers[i]? = some (.handling c))
      (result : t = { (s.closeFd c.fd).setWorker i .test with handled := s.handled ++ [c] })

theorem serving_start (s : Pool) (n : ℤ) (r : StartResult) : (s.start n r).serving = s.serving := by
  cases r with
  | started =>
    have htest : (List.replicate n.toNat Worker.test).flatMap Worker.held = [] := by
      simp [Worker.held]
    change (s.workers ++ List.replicate n.toNat Worker.test).flatMap Worker.held = _
    rw [List.flatMap_append, htest, List.append_nil]
    rfl
  | _ => rfl

theorem serving_of_ended (h : ∀ w ∈ s.workers, w = .ended) : s.serving = [] := by
  apply List.flatMap_eq_nil_iff.2
  intro w hw
  rw [h w hw]
  rfl

theorem effect_wake {i : ℕ} (h : s.workers[i]? = some .wait) : Effect s (s.wake i) := by
  unfold wake
  split
  · refine .quiet rfl (serving_setWorker_free h rfl ?_) rfl
    split <;> rfl
  · rename_i c rest hq
    exact .taken i c rest h hq rfl

theorem effect_of_step {a : PoolAction} (hs : Staffed s) (h : s.step a = some t) : Effect s t := by
  cases a <;> simp only [step] at h
  case start r n =>
    split at h
    · rename_i hidle
      cases h
      refine .quiet ?_ (.of_eq (serving_start s n r)) (by cases r <;> rfl)
      have habsent := (hs.idle (by simpa using hidle.1) (by simpa using hidle.2)).1
      cases r <;> simp [start, habsent, Acceptor.held]
    · cases h
  case acceptTest =>
    split at h
    · rename_i hp
      cases h
      refine .quiet ?_ (.refl _) rfl
      dsimp only
      rw [hp]
      split <;> rfl
    · cases h
  case poll n =>
    split at h
    · rename_i hp
      cases h
      refine .quiet ?_ (.refl _) rfl
      rw [hp.1]
      exact held_after n
    · cases h
  case acceptFails =>
    split at h
    · rename_i left hp
      cases h
      refine .quiet ?_ (.refl _) rfl
      rw [hp]
      exact held_after left
    · cases h
  case accept fd =>
    split at h
    · rename_i left hp
      split at h
      · rename_i hfresh
        cases h
        exact .accepted left fd hp hfresh.2 rfl
      · cases h
    · cases h
  case enqueue =>
    split at h
    · rename_i c left hp
      cases h
      exact .admitted c left hp rfl
    · cases h
  case workerTest i =>
    split at h
    · rename_i hp
      cases h
      refine .quiet rfl (serving_setWorker_free hp rfl ?_) rfl
      split <;> rfl
    · cases h
  case wake i =>
    split at h
    · rename_i hp
      cases h
      exact effect_wake hp
    · cases h
  case handle i handler tls =>
    split at h
    · rename_i c hp
      cases h
      rw [serveClient_eq s i c (session_released handler tls)]
      split
      · exact .handled i c hp rfl
      · refine .quiet rfl ?_ rfl
        exact (List.perm_append_right_iff [c]).1 (serving_setWorker hp (.stuck c))
    · cases h
  case callStop =>
    split at h
    · cases h
    · split at h <;> cases h <;> exact .quiet rfl (.refl _) rfl
  case join =>
    split at h
    · rename_i hp
      cases h
      refine .quiet ?_ ?_ rfl
      · rw [hp.2.1]
        rfl
      · rw [serving_of_ended hp.2.2]
        exact .refl _
    · cases h

theorem Accounted.of_books (hs : Accounted s) (hheld : t.acceptor.held = s.acceptor.held)
    (hserving : t.serving.Perm s.serving) (hbooks : t.books = s.books) : Accounted t := by
  simp only [books, Prod.mk.injEq] at hbooks
  obtain ⟨hledger, hopened, haccepted, hrefused, hhandled, hclosed⟩ := hbooks
  refine ⟨?_, ?_, ?_, ?_, ?_, ?_, ?_, ?_, ?_⟩
  · rw [haccepted]
    exact hs.numbered
  · rw [haccepted, hrefused, hledger, hheld]
    exact hs.accepted
  · rw [haccepted, hledger, hheld]
    exact hs.queued
  · rw [hledger, hhandled]
    exact hs.taken.trans (hserving.symm.append_left _)
  · rw [hledger]
    exact hs.displaced
  · rw [hopened, hheld, queue, hledger]
    exact hs.opened.trans ((hserving.symm.append_left _).append_right _)
  · rw [hopened]
    exact hs.descriptors
  · rw [hclosed, hrefused, hhandled]
    exact hs.closed
  · rw [queue, hledger]
    exact hs.bounded

theorem accounted_welcome (hs : Accounted s) {left fd : ℕ} (hp : s.acceptor.held = [])
    (hfresh : ∀ c ∈ s.opened, c.fd ≠ fd) : Accounted (s.welcome fd left) := by
  have haccepted := hs.accepted
  have hqueued := hs.queued
  have hopened := hs.opened
  rw [hp, List.append_nil] at haccepted hqueued
  rw [hp, List.nil_append] at hopened
  refine ⟨?_, haccepted.append_right _, hqueued.append_right _, hs.taken, hs.displaced, ?_, ?_,
    hs.closed, hs.bounded⟩
  · change (s.accepted ++ [_]).map Connection.number = List.range (s.accepted ++ [_]).length
    rw [List.map_append, hs.numbered, List.length_append, List.length_singleton,
      List.range_succ]
    rfl
  · exact (hopened.append_right _).trans List.perm_append_comm
  · change ((s.opened ++ [_]).map Connection.fd).Nodup
    rw [List.map_append, List.map_singleton, List.perm_append_comm.nodup_iff, List.singleton_append,
      List.nodup_cons, List.mem_map]
    refine ⟨?_, hs.descriptors⟩
    rintro ⟨c, hc, heq⟩
    exact hfresh c hc heq

theorem accounted_receive (hs : Accounted s) {c : Connection} {left : ℕ}
    (hp : s.acceptor.held = [c]) :
    Accounted { s.receive c with acceptor := .after left } := by
  have haccepted := hs.accepted
  have hqueued := hs.queued
  have hopened := hs.opened
  rw [hp] at haccepted hqueued hopened
  have hmem : c ∈ s.opened := hopened.symm.subset (by simp)
  unfold receive
  split
  · obtain ⟨hclosed, hperm, hnodup⟩ := closeFd_open hs.descriptors hmem
    refine ⟨hs.numbered, ?_, ?_, hs.taken, hs.displaced, ?_, hnodup, ?_, hs.bounded⟩
    · change s.accepted.Perm (s.refused ++ [c] ++ s.ledger.accepted ++ (Acceptor.after left).held)
      rw [held_after, List.append_nil]
      refine haccepted.trans ?_
      rw [List.append_assoc, List.append_assoc]
      exact List.perm_append_comm.append_left _
    · change (s.ledger.accepted ++ (Acceptor.after left).held).Sublist s.accepted
      rw [held_after, List.append_nil]
      exact (List.sublist_append_left _ _).trans hqueued
    · change (s.closeFd c.fd).opened.Perm ((Acceptor.after left).held ++ s.serving ++ s.queue)
      rw [held_after, List.nil_append]
      exact (hperm.symm.trans hopened).cons_inv
    · change (s.closeFd c.fd).closed.Perm (s.refused ++ [c] ++ s.handled)
      rw [hclosed]
      refine (hs.closed.append_right _).trans ?_
      rw [List.append_assoc, List.append_assoc]
      exact List.perm_append_comm.append_left _
  · rename_i hroom
    refine ⟨hs.numbered, ?_, ?_, hs.taken, hs.displaced, ?_, hs.descriptors, hs.closed, ?_⟩
    · change s.accepted.Perm
        (s.refused ++ (s.ledger.push c).accepted ++ (Acceptor.after left).held)
      rw [held_after, List.append_nil, FifoLedger.accepted_push, ← List.append_assoc]
      exact haccepted
    · change ((s.ledger.push c).accepted ++ (Acceptor.after left).held).Sublist s.accepted
      rw [held_after, List.append_nil, FifoLedger.accepted_push]
      exact hqueued
    · change s.opened.Perm ((Acceptor.after left).held ++ s.serving ++ (s.queue ++ [c]))
      rw [held_after, List.nil_append, ← List.append_assoc]
      rw [List.append_assoc] at hopened
      exact hopened.trans List.perm_append_comm
    · change (s.queue ++ [c]).length ≤ maxClients
      rw [List.length_append, List.length_singleton]
      omega

theorem accounted_take (hs : Accounted s) {i : ℕ} {c : Connection} {rest : List Connection}
    (hp : s.workers[i]? = some .wait) (hq : s.queue = c :: rest) :
    Accounted { s.setWorker i (.handling c) with ledger := s.ledger.remove .taken } := by
  have hserving := serving_setWorker hp (.handling c)
  rw [show Worker.wait.held = [] from rfl, List.append_nil] at hserving
  have hremove : s.ledger.remove .taken = ⟨s.ledger.removed ++ [(.taken, c)], rest⟩ :=
    FifoLedger.remove_cons .taken s.ledger hq
  refine ⟨hs.numbered, ?_, ?_, ?_, ?_, ?_, hs.descriptors, hs.closed, ?_⟩
  · change s.accepted.Perm (s.refused ++ (s.ledger.remove .taken).accepted ++ s.acceptor.held)
    rw [FifoLedger.accepted_remove]
    exact hs.accepted
  · change ((s.ledger.remove .taken).accepted ++ s.acceptor.held).Sublist s.accepted
    rw [FifoLedger.accepted_remove]
    exact hs.queued
  · change ((s.ledger.remove .taken).withFate .taken).Perm
      (s.handled ++ (s.setWorker i (.handling c)).serving)
    rw [FifoLedger.withFate_remove_cons _ _ _ hq, if_pos rfl]
    refine (hs.taken.append_right _).trans ?_
    rw [List.append_assoc]
    exact hserving.symm.append_left _
  · change (s.ledger.remove .taken).withFate .displaced = []
    rw [FifoLedger.withFate_remove_cons _ _ _ hq, if_neg (by decide), List.append_nil]
    exact hs.displaced
  · change s.opened.Perm
      (s.acceptor.held ++ (s.setWorker i (.handling c)).serving ++ (s.ledger.remove .taken).waiting)
    rw [hremove]
    have hopened := hs.opened
    rw [hq] at hopened
    refine hopened.trans ?_
    rw [List.append_assoc, List.append_assoc]
    refine List.Perm.append_left _ ?_
    rw [List.append_cons]
    exact hserving.symm.append_right _
  · change (s.ledger.remove .taken).waiting.length ≤ maxClients
    rw [hremove]
    have hbounded := hs.bounded
    rw [hq, List.length_cons] at hbounded
    exact Nat.le_of_succ_le hbounded

theorem accounted_handle (hs : Accounted s) {i : ℕ} {c : Connection}
    (hp : s.workers[i]? = some (.handling c)) :
    Accounted { (s.closeFd c.fd).setWorker i .test with handled := s.handled ++ [c] } := by
  have hserving := serving_setWorker hp .test
  rw [show (Worker.handling c).held = [c] from rfl, show Worker.test.held = [] from rfl,
    List.append_nil] at hserving
  have hmem : c ∈ s.opened := by
    refine hs.opened.symm.subset ?_
    rw [List.mem_append, List.mem_append]
    exact .inl (.inr (hserving.subset (by simp)))
  obtain ⟨hclosed, hperm, hnodup⟩ := closeFd_open hs.descriptors hmem
  refine ⟨hs.numbered, hs.accepted, hs.queued, ?_, hs.displaced, ?_, hnodup, ?_, hs.bounded⟩
  · change (s.ledger.withFate .taken).Perm (s.handled ++ [c] ++ (s.setWorker i .test).serving)
    refine hs.taken.trans ?_
    rw [List.append_assoc]
    exact (hserving.symm.trans List.perm_append_comm).append_left _
  · change (s.closeFd c.fd).opened.Perm
      (s.acceptor.held ++ (s.setWorker i .test).serving ++ s.queue)
    apply List.Perm.cons_inv (a := c)
    refine hperm.symm.trans (hs.opened.trans ?_)
    have hfront := (hserving.symm.trans List.perm_append_comm).append_left s.acceptor.held
    exact (hfront.trans List.perm_middle).append_right s.queue
  · change (s.closeFd c.fd).closed.Perm (s.refused ++ (s.handled ++ [c]))
    rw [hclosed, ← List.append_assoc]
    exact hs.closed.append_right _

theorem accounted_step {a : PoolAction} (hs : Accounted s) (hstaff : Staffed s)
    (h : s.step a = some t) : Accounted t := by
  cases effect_of_step hstaff h with
  | quiet held serving same => exact hs.of_books held serving same
  | accepted left fd phase fresh result =>
    rw [result]
    exact accounted_welcome hs (by rw [phase]; rfl) fresh
  | admitted c left phase result =>
    rw [result]
    exact accounted_receive hs (by rw [phase]; rfl)
  | taken i c rest phase queue result =>
    rw [result]
    exact accounted_take hs phase queue
  | handled i c phase result =>
    rw [result]
    exact accounted_handle hs phase

inductive Shift (s t : Pool) : Prop where
  | thread (running : t.running = s.running) (stopping : t.stopping = s.stopping)
      (listening : t.listening = s.listening) (sslCtx : t.sslCtx = s.sslCtx)
      (alive : s.acceptor = .absent → s.workers ≠ [])
      (stays : s.acceptor ≠ .absent → t.acceptor ≠ .absent)
  | started (r : StartResult) (n : ℤ) (idle : s.running = false ∧ s.stopping = false)
      (result : t = s.start n r)
  | stopped (running : s.running) (now : t.running = false ∧ t.listening = false)
      (stopping : t.stopping) (sslCtx : t.sslCtx = s.sslCtx) (stays : t.acceptor = s.acceptor)
  | ignored (result : t = s)
  | joined (running : t.running = s.running) (stopping : s.stopping) (now : t.stopping = false)
      (gone : t.acceptor = .absent ∧ t.workers = [])

theorem after_ne_absent (n : ℕ) : Acceptor.after n ≠ .absent := by
  cases n <;> simp [Acceptor.after]

theorem shift_of_step {a : PoolAction} (h : s.step a = some t) : Shift s t := by
  have hworker {i : ℕ} {w : Worker} (hw : s.workers[i]? = some w) : s.workers ≠ [] := by
    intro hnil
    rw [hnil] at hw
    cases hw
  cases a <;> simp only [step] at h
  case start r n =>
    split at h
    · rename_i hidle
      cases h
      exact .started r n (by simpa using hidle) rfl
    · cases h
  case acceptTest =>
    split at h
    · rename_i hp
      cases h
      refine .thread rfl rfl rfl rfl (by rw [hp]; simp) fun _ => ?_
      dsimp only
      split <;> simp
    · cases h
  case poll n =>
    split at h
    · rename_i hp
      cases h
      exact .thread rfl rfl rfl rfl (by rw [hp.1]; simp) fun _ => after_ne_absent n
    · cases h
  case acceptFails =>
    split at h
    · rename_i left hp
      cases h
      exact .thread rfl rfl rfl rfl (by rw [hp]; simp) fun _ => after_ne_absent left
    · cases h
  case accept fd =>
    split at h
    · rename_i left hp
      split at h
      · cases h
        exact .thread rfl rfl rfl rfl (by rw [hp]; simp) fun _ => by simp [welcome]
      · cases h
    · cases h
  case enqueue =>
    split at h
    · rename_i c left hp
      cases h
      unfold receive
      split <;>
        exact .thread rfl rfl rfl rfl (by rw [hp]; simp) fun _ => after_ne_absent left
    · cases h
  case workerTest i =>
    split at h
    · rename_i hp
      cases h
      exact .thread rfl rfl rfl rfl (fun _ => hworker hp) id
    · cases h
  case wake i =>
    split at h
    · rename_i hp
      cases h
      unfold wake
      split <;> exact .thread rfl rfl rfl rfl (fun _ => hworker hp) id
    · cases h
  case handle i handler tls =>
    split at h
    · rename_i c hp
      cases h
      rw [serveClient_eq s i c (session_released handler tls)]
      split <;> exact .thread rfl rfl rfl rfl (fun _ => hworker hp) id
    · cases h
  case callStop =>
    split at h
    · cases h
    · split at h
      · rename_i hr
        cases h
        exact .stopped hr ⟨rfl, rfl⟩ rfl rfl rfl
      · cases h
        exact .ignored rfl
  case join =>
    split at h
    · rename_i hp
      cases h
      exact .joined rfl hp.1 rfl ⟨rfl, rfl⟩
    · cases h

theorem staffed_step {a : PoolAction} (hs : Staffed s) (h : s.step a = some t) : Staffed t := by
  cases shift_of_step h with
  | thread running stopping listening sslCtx alive stays =>
    refine ⟨?_, ?_, ?_⟩
    · rw [running, stopping]
      intro hr hstop
      obtain ⟨habsent, hnone⟩ := hs.idle hr hstop
      exact absurd hnone (alive habsent)
    · rw [running, stopping, listening]
      exact hs.halted
    · rw [running, stopping, sslCtx]
      intro hlive
      exact (hs.live hlive).imp_right stays
  | started r n idle result =>
    subst result
    have hgone := hs.idle idle.1 idle.2
    have hstop : ¬ (s.start n r).stopping := by cases r <;> simp [start, idle]
    refine ⟨?_, fun h => absurd h hstop, ?_⟩
    · cases r with
      | started => exact fun hr => absurd hr (by simp [start])
      | _ => exact fun _ _ => hgone
    · cases r with
      | started => exact fun _ => ⟨rfl, by simp [start]⟩
      | _ => exact fun hlive => by simp [start, idle] at hlive
  | stopped running now stopping sslCtx stays =>
    refine ⟨fun _ hstop => ?_, fun _ => now, fun _ => ?_⟩
    · rw [stopping] at hstop
      cases hstop
    · rw [sslCtx, stays]
      exact hs.live (.inl running)
  | ignored result =>
    rw [result]
    exact hs
  | joined running stopping now gone =>
    have hr := running.trans (hs.halted stopping).1
    refine ⟨fun _ _ => gone, fun hstop => ?_, fun hlive => ?_⟩
    · rw [now] at hstop
      cases hstop
    · rw [hr, now] at hlive
      simp at hlive

structure Sound (s : Pool) : Prop where
  bounded : s.queue.length ≤ 64
  descriptors : (s.opened.map Connection.fd).Nodup
  accounted : s.accepted.Perm (s.closed ++ s.acceptor.held ++ s.serving ++ s.queue)
  closedOnce : s.closed.Nodup
  closedBy : s.closed.Perm (s.refused ++ s.handled)
  inOrder : (s.ledger.withFate .taken).Sublist s.accepted
  takenBy : (s.ledger.withFate .taken).Perm (s.handled ++ s.serving)
  context : s.serving ≠ [] → s.sslCtx
  stopped : s.running = false → s.stopping = false → s.accepted.Perm (s.closed ++ s.queue)

/-- A step closes nothing but the connection that its own thread holds, and one that no
worker has had only while 64 others wait. -/
def ClosesOwn (s : Pool) (a : PoolAction) : Prop :=
  ∀ t, s.step a = some t → t.closed = s.closed ∨
    (∃ c, s.acceptor.held = [c] ∧ s.queue.length = 64 ∧ t.closed = s.closed ++ [c] ∧
      t.refused = s.refused ++ [c]) ∨
    ∃ (i : ℕ) (c : Connection), s.workers[i]? = some (.handling c) ∧ t.closed = s.closed ++ [c] ∧
      t.handled = s.handled ++ [c]

theorem sound_of_accounted (hs : Accounted s) (hstaff : Staffed s) : Sound s := by
  have haccounted : s.accepted.Perm (s.closed ++ s.acceptor.held ++ s.serving ++ s.queue) := by
    rw [List.perm_iff_count]
    intro c
    have haccepted := hs.accepted.count_eq c
    have hqueue := s.ledger.accepted_perm.count_eq c
    have htaken := hs.taken.count_eq c
    have hclosed := hs.closed.count_eq c
    rw [hs.displaced, List.append_nil] at hqueue
    simp only [List.count_append] at haccepted hqueue htaken hclosed ⊢
    change _ = _ + s.queue.count c at hqueue
    omega
  have hnodup : s.accepted.Nodup := by
    apply List.Nodup.of_map Connection.number
    rw [hs.numbered]
    exact List.nodup_range
  refine ⟨hs.bounded, hs.descriptors, haccounted, ?_, hs.closed, ?_, hs.taken, ?_, ?_⟩
  · have hparts := haccounted.nodup_iff.1 hnodup
    rw [List.append_assoc, List.append_assoc] at hparts
    exact hparts.of_append_left
  · exact (s.ledger.withFate_sublist .taken).trans
      ((List.sublist_append_left _ _).trans hs.queued)
  · intro hserving
    refine (hstaff.live ?_).1
    by_contra hdead
    rw [not_or, Bool.not_eq_true, Bool.not_eq_true] at hdead
    refine hserving (serving_of_ended ?_)
    rw [(hstaff.idle hdead.1 hdead.2).2]
    simp
  · intro hr hstop
    obtain ⟨habsent, hnone⟩ := hstaff.idle hr hstop
    have hserving : s.serving = [] := serving_of_ended (by rw [hnone]; simp)
    rw [habsent, hserving, List.append_nil] at haccounted
    simpa [Acceptor.held] using haccounted

theorem closesOwn_of_accounted {a : PoolAction} (hs : Accounted s) (hstaff : Staffed s) :
    s.ClosesOwn a := by
  intro t h
  cases effect_of_step hstaff h with
  | quiet held serving same =>
    left
    simp only [books, Prod.mk.injEq] at same
    exact same.2.2.2.2.2
  | accepted left fd phase fresh result =>
    left
    rw [result]
    rfl
  | admitted c left phase result =>
    have hheld : s.acceptor.held = [c] := by rw [phase]; rfl
    subst result
    unfold receive
    split
    · rename_i hfull
      have hmem : c ∈ s.opened := hs.opened.symm.subset (by rw [hheld]; simp)
      have hlen : s.queue.length = 64 := Nat.le_antisymm hs.bounded hfull
      exact .inr (.inl ⟨c, hheld, hlen, (closeFd_open hs.descriptors hmem).1, rfl⟩)
    · exact .inl rfl
  | taken i c rest phase queue result =>
    left
    rw [result]
    rfl
  | handled i c phase result =>
    have hmem : c ∈ s.opened := by
      refine hs.opened.symm.subset ?_
      rw [List.mem_append, List.mem_append]
      refine .inl (.inr (List.mem_flatMap.2 ⟨_, List.mem_of_getElem? phase, ?_⟩))
      exact List.mem_singleton_self c
    subst result
    exact .inr (.inr ⟨i, c, phase, (closeFd_open hs.descriptors hmem).1, rfl⟩)

def constructed : Pool := {}

theorem kept_constructed : Accounted constructed ∧ Staffed constructed := by
  refine ⟨⟨rfl, .refl _, .refl _, .refl _, rfl, .refl _, .nil, .refl _, Nat.zero_le _⟩, ?_⟩
  exact ⟨fun _ _ => ⟨rfl, rfl⟩, fun h => (by cases h), fun h => by simp [constructed] at h⟩

theorem kept_step (s : Pool) (a : PoolAction) (t : Pool) (hs : Accounted s ∧ Staffed s)
    (h : s.step a = some t) : Accounted t ∧ Staffed t :=
  ⟨accounted_step hs.1 hs.2 h, staffed_step hs.2 h⟩

/-- Over every interleaving of the accept thread, the workers, `start` and `stop`, each
accepted connection is with one owner, and closed once by the thread that holds it. -/
theorem pool_sound {as : List PoolAction} {s : Pool} (h : run step constructed as = some s) :
    Sound s ∧ Along step ClosesOwn constructed as := by
  have hkept : Accounted s ∧ Staffed s :=
    run_preserves (I := fun s => Accounted s ∧ Staffed s) kept_step kept_constructed h
  refine ⟨sound_of_accounted hkept.1 hkept.2, ?_⟩
  exact along_of_invariant (I := fun s => Accounted s ∧ Staffed s) (P := fun _ _ => True)
    (fun s a t hs _ ht => kept_step s a t hs ht)
    (fun s a hs _ => closesOwn_of_accounted hs.1 hs.2) kept_constructed
    (along_of_forall (fun _ _ => trivial) constructed as)

def stopEarly : List PoolAction :=
  [.start .started 1, .acceptTest, .poll 1, .accept 7, .enqueue, .workerTest 0, .wake 0,
    .handle 0 none ⟨false, 0, false, [], false, [], false⟩, .acceptTest, .poll 1, .accept 7, .enqueue,
    .callStop, .acceptTest, .workerTest 0, .join]

theorem pool_sound_stopEarly : ∃ s, run step constructed stopEarly = some s ∧
    s.closed = [⟨0, 7⟩] ∧ s.queue = [⟨1, 7⟩] ∧ Sound s :=
  ⟨_, rfl, rfl, rfl, (@pool_sound stopEarly _ rfl).1⟩

end Pool

end ClientServer

end EcidsCore
