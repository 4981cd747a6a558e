import EcidsCore.MessageFrames
import EcidsCore.TopicSubscriptions

set_option autoImplicit false

/-! What a client of the WebSocket server reads: the broadcasts of every thread, one
connection after the other, while clients come, go and change their topics. -/
namespace EcidsCore
open ByteText GuardedRuns WebSocketFrame WssServer Subscription TopicServer

variable {R : Type}

inductive Broadcast where
  | json (topic : String) (text : Bytes)
  | binary (topic : String) (data headerJson : Bytes)
deriving DecidableEq, Repr

namespace Broadcast

def topic : Broadcast → String
  | .json topic _ | .binary topic _ _ => topic

theorem text_lt : 1 < 16 := by decide

theorem binary_lt : 2 < 16 := by decide

def opcode : Broadcast → Fin 16
  | .json _ _ => ⟨1, text_lt⟩
  | .binary _ _ _ => ⟨2, binary_lt⟩

def payload (lib : Nlohmann R) (now : ℤ) : Broadcast → Bytes
  | .json topic text => TopicServer.jsonFrame lib now topic text
  | .binary _ data headerJson => broadcastPayload headerJson data

def frame (lib : Nlohmann R) (now : ℤ) (b : Broadcast) : Frame :=
  ⟨true, b.opcode, none, b.payload lib now⟩

def send (lib : Nlohmann R) (now : ℤ) (accepts : List ℕ) : Broadcast → Bytes × Bool
  | .json topic text => sendWsText (TopicServer.jsonFrame lib now topic text) accepts
  | .binary _ data headerJson => sendWsBinary (broadcastPayload headerJson data) accepts

end Broadcast

def WssAction.locks : WssAction → Bool
  | .accept _ | .lookup _ | .remove _ | .join => true
  | _ => false

def TopicAction.locks : TopicAction → Bool
  | .conn a => a.locks
  | .receive _ _ => false

theorem WssConnections.step_accept {s t : WssConnections} {fd : ℕ}
    (h : s.step (.accept fd) = some t) :
    t.clients = s.clients ++ [s.accepted] ∧ t.accepted = s.accepted + 1 := by
  simp only [step] at h
  split at h
  · cases h
    exact ⟨rfl, rfl⟩
  · cases h

theorem WssConnections.step_listed {s t : WssConnections} {a : WssAction}
    (h : s.step a = some t) (ha : ∀ fd, a ≠ .accept fd) : t.accepted = s.accepted ∧
      (t.clients = s.clients ∨ t.clients ⊆ s.clients ∧ (a.locks || s.stop.locks) = true) := by
  cases effect_of_step h with
  | accept fd => exact absurd rfl (ha fd)
  | remove i c => exact ⟨rfl, .inr ⟨fun _ hd => List.mem_of_mem_filter hd, rfl⟩⟩
  | stopClear hstop => exact ⟨rfl, .inr ⟨List.nil_subset _, by rw [hstop]; rfl⟩⟩
  | _ => exact ⟨rfl, .inl rfl⟩

theorem WssConnections.step_unlocked {s t : WssConnections} {a : WssAction}
    (h : s.step a = some t) (ha : a.locks = false) (hs : s.stop.locks = false) :
    t.stop.locks = false := by
  cases effect_of_step h with
  | join => cases ha
  | stopRelease c rest hstop =>
    rw [hstop] at hs
    cases hs
  | stopClear hstop => rfl
  | callStop => rfl
  | _ => exact hs

theorem TopicServer.step_conns {lib : Nlohmann R} {s t : TopicServer} {a : TopicAction}
    (h : s.step lib a = some t) : ∃ w, s.conns.step w = some t.conns ∧ w.locks = a.locks ∧
      (∀ fd, w = .accept fd ↔ a = .conn (.accept fd)) ∧ ∀ c, s.read c <+: t.read c := by
  cases a with
  | conn w =>
    obtain ⟨conns, hconns, rfl⟩ := Option.map_eq_some_iff.1 h
    exact ⟨w, hconns, rfl, fun fd => by simp, fun c => List.prefix_rfl⟩
  | receive i msg =>
    rw [step] at h
    split at h
    · rename_i d hphase
      obtain ⟨conns, hconns, rfl⟩ := Option.map_eq_some_iff.1 h
      split
      · exact ⟨_, hconns, rfl, fun fd => by simp, fun c => List.prefix_rfl⟩
      · refine ⟨_, hconns, rfl, fun fd => by simp, fun c => ?_⟩
        by_cases hc : c = d
        · subst hc
          simp
        · simp [Function.update_of_ne hc]
    · cases h

/-- A turn of a broadcast's loop: the messages that the connection had processed, its
`alive`, and the clock. -/
structure Offer where
  broadcast : Broadcast
  read : List Bytes
  alive : Bool
  now : ℤ
deriving DecidableEq, Repr

def Offer.Heard (lib : Nlohmann R) (o : Offer) : Prop :=
  o.alive = true ∧ subscribed (topicsAfter lib o.read) o.broadcast.topic = true

instance (lib : Nlohmann R) (o : Offer) : Decidable (o.Heard lib) :=
  inferInstanceAs (Decidable (_ ∧ _))

/-- `sending` is the broadcast that holds `clients_mutex_`, with the connections it has still
to visit; `stream` is what each connection was given, and it is `intact` until a write fails.
The last three fields log the broadcasts, how many came before each connection, and its offers. -/
structure BroadcastServer where
  server : TopicServer := {}
  sending : Option (Broadcast × List ℕ) := none
  stream : ℕ → Bytes := fun _ => []
  intact : ℕ → Bool := fun _ => true
  begun : List Broadcast := []
  joined : ℕ → ℕ := fun _ => 0
  offers : ℕ → List Offer := fun _ => []

inductive BroadcastAction where
  | server (a : TopicAction)
  | begin (b : Broadcast)
  | visit (now : ℤ) (accepts : List ℕ)
  | finish

namespace BroadcastServer

variable (lib : Nlohmann R)

def offer (s : BroadcastServer) (b : Broadcast) (c : ℕ) (now : ℤ) : Offer :=
  ⟨b, s.server.read c, s.server.conns.alive c, now⟩

/-- The body of the loop over `clients_`. -/
def visit (s : BroadcastServer) (b : Broadcast) (c : ℕ) (rest : List ℕ) (now : ℤ)
    (accepts : List ℕ) : BroadcastServer :=
  let t := { s with
    sending := some (b, rest)
    offers := Function.update s.offers c (s.offers c ++ [s.offer b c now]) }
  if s.server.conns.alive c && subscribed (s.server.topics c) b.topic then
    { t with
      stream := Function.update s.stream c (s.stream c ++ (b.send lib now accepts).1)
      intact := Function.update s.intact c (s.intact c && (b.send lib now accepts).2) }
  else t

def enter (s : BroadcastServer) : TopicAction → ℕ → ℕ
  | .conn (.accept _) => Function.update s.joined s.server.conns.accepted s.begun.length
  | _ => s.joined

def step (s : BroadcastServer) : BroadcastAction → Option BroadcastServer
  | .server a =>
    if s.sending.isSome && a.locks then none
    else (s.server.step lib a).map fun server => { s with server, joined := s.enter a }
  | .begin b =>
    if s.sending = none ∧ s.server.conns.stop.locks = false then
      some { s with sending := some (b, s.server.conns.clients), begun := s.begun ++ [b] }
    else none
  | .visit now accepts =>
    match s.sending with
    | some (b, c :: rest) => some (s.visit lib b c rest now accepts)
    | _ => none
  | .finish =>
    match s.sending with
    | some (_, []) => some { s with sending := none }
    | _ => none

/-- No frame is longer than the `int` that counts it. -/
def Fits : BroadcastAction → Prop
  | .begin b => ∀ now, (b.payload lib now).length < 2 ^ 31 - 14
  | _ => True

def waiting (s : BroadcastServer) (i : ℕ) : List Broadcast :=
  match s.sending with
  | some (b, rest) => if i ∈ rest then [b] else []
  | none => []

def frames (os : List Offer) : List Frame :=
  (os.filter fun o => o.Heard lib).map fun o => o.broadcast.frame lib o.now

/-- A connection is offered each broadcast from its acceptance on, in order and once; those
that it subscribes to are all that can be read from its stream. -/
structure Delivered (s : BroadcastServer) : Prop where
  ordered : ∀ i, (s.offers i).map Offer.broadcast <+: s.begun.drop (s.joined i)
  offered : ∀ i ∈ s.server.conns.clients,
    (s.offers i).map Offer.broadcast ++ s.waiting i = s.begun.drop (s.joined i)
  topics : ∀ i, ∀ o ∈ s.offers i, o.read <+: s.server.read i
  framed : ∀ i, s.intact i = true → SpellsAll (frames lib (s.offers i)) (s.stream i)
  readable : ∀ i, s.intact i = true → ∀ fs, SpellsAll fs (s.stream i) → fs = frames lib (s.offers i)
  unreleased : ∀ b rest, s.sending = some (b, rest) → ∀ c ∈ rest, c ∉ s.server.conns.closed

/-- Kept by every step that fits. -/
structure Coherent (s : BroadcastServer) : Prop where
  kept : TopicServer.Kept lib s.server
  sound : s.server.conns.Sound
  unlocked : ∀ b rest, s.sending = some (b, rest) → s.server.conns.stop.locks = false
  visits : ∀ b rest, s.sending = some (b, rest) →
    rest ⊆ s.server.conns.clients ∧ rest.Nodup ∧ ∃ before, s.begun = before ++ [b]
  fits : ∀ b rest, s.sending = some (b, rest) →
    ∀ now, (b.payload lib now).length < 2 ^ 31 - 14
  fresh : ∀ i, s.server.conns.accepted ≤ i → s.offers i = []
  joined : ∀ i, s.joined i ≤ s.begun.length
  ordered : ∀ i, (s.offers i).map Offer.broadcast <+: s.begun.drop (s.joined i)
  offered : ∀ i ∈ s.server.conns.clients,
    (s.offers i).map Offer.broadcast ++ s.waiting i = s.begun.drop (s.joined i)
  topics : ∀ i, ∀ o ∈ s.offers i, o.read <+: s.server.read i
  framed : ∀ i, s.intact i = true → SpellsAll (frames lib (s.offers i)) (s.stream i)

variable {lib} {s t : BroadcastServer}

theorem coherent_start : Coherent lib {} where
  kept := ⟨fun _ => rfl, nofun, List.nodup_nil⟩
  sound := WssConnections.sound_start
  unlocked := nofun
  visits := nofun
  fits := nofun
  fresh _ _ := rfl
  joined _ := Nat.le_refl _
  ordered _ := List.prefix_rfl
  offered := nofun
  topics := nofun
  framed _ _ := .nil

theorem waiting_none (h : s.sending = none) (i : ℕ) : s.waiting i = [] := by
  rw [waiting, h]

theorem waiting_some {b : Broadcast} {rest : List ℕ} (h : s.sending = some (b, rest)) (i : ℕ) :
    s.waiting i = if i ∈ rest then [b] else [] := by
  rw [waiting, h]

theorem enter_ne {a : TopicAction} (h : ∀ fd, a ≠ .conn (.accept fd)) : s.enter a = s.joined := by
  unfold enter
  split
  · exact absurd rfl (h _)
  · rfl

theorem offered_server (hs : Coherent lib s) {a : TopicAction} {u : TopicServer} {w : WssAction}
    (hfree : (s.sending.isSome && a.locks) = false) (hw : s.server.conns.step w = some u.conns)
    (hlocks : w.locks = a.locks) (haccept : ∀ fd, w = .accept fd ↔ a = .conn (.accept fd)) :
    ∀ i ∈ u.conns.clients,
      (s.offers i).map Offer.broadcast ++ s.waiting i = s.begun.drop (s.enter a i) := by
  intro i hi
  by_cases hnew : ∃ fd, w = .accept fd
  · obtain ⟨fd, rfl⟩ := hnew
    obtain rfl := (haccept fd).1 rfl
    rw [(WssConnections.step_accept hw).1] at hi
    rcases List.mem_append.1 hi with hi | hi
    · have hlt := (hs.sound.listed i hi).1
      rw [enter, Function.update_of_ne (Nat.ne_of_lt hlt)]
      exact hs.offered i hi
    · obtain rfl := List.mem_singleton.1 hi
      have hnone : s.sending = none := by
        cases hsend : s.sending with
        | none => rfl
        | some x => simp [hsend, TopicAction.locks, WssAction.locks] at hfree
      rw [enter, Function.update_self, hs.fresh _ (Nat.le_refl _), waiting_none hnone,
        List.drop_length]
      rfl
  · have hne : ∀ fd, w ≠ .accept fd := fun fd h => hnew ⟨fd, h⟩
    rw [enter_ne fun fd h => hne fd ((haccept fd).2 h)]
    obtain ⟨-, hsame | ⟨hsub, -⟩⟩ := WssConnections.step_listed hw hne
    · exact hs.offered i (hsame ▸ hi)
    · exact hs.offered i (hsub hi)

theorem coherent_server (hs : Coherent lib s) {a : TopicAction} {u : TopicServer}
    (hfree : (s.sending.isSome && a.locks) = false) (h : s.server.step lib a = some u) :
    Coherent lib { s with server := u, joined := s.enter a } := by
  obtain ⟨w, hw, hlocks, haccept, hread⟩ := TopicServer.step_conns h
  have hold : ∀ b rest, s.sending = some (b, rest) → a.locks = false := by
    intro b rest hsend
    simpa [hsend] using hfree
  have hle : ∀ i, s.enter a i ≤ s.begun.length := by
    intro i
    unfold enter
    split
    · by_cases hi : i = s.server.conns.accepted
      · rw [hi, Function.update_self]
      · rw [Function.update_of_ne hi]
        exact hs.joined i
    · exact hs.joined i
  refine ⟨TopicServer.kept_step hs.kept h, WssConnections.sound_step hs.sound hw, ?_, ?_, hs.fits,
    ?_, hle, ?_, offered_server hs hfree hw hlocks haccept, ?_, hs.framed⟩
  · intro b rest hsend
    exact WssConnections.step_unlocked hw (hlocks ▸ hold b rest hsend) (hs.unlocked b rest hsend)
  · intro b rest hsend
    obtain ⟨hsub, hnodup, hbegun⟩ := hs.visits b rest hsend
    refine ⟨?_, hnodup, hbegun⟩
    have hwl : w.locks = false := hlocks ▸ hold b rest hsend
    have hne : ∀ fd, w ≠ .accept fd := by
      rintro fd rfl
      cases hwl
    obtain ⟨-, hsame | ⟨-, hlock⟩⟩ := WssConnections.step_listed hw hne
    · change rest ⊆ u.conns.clients
      rw [hsame]
      exact hsub
    · rw [hwl, hs.unlocked b rest hsend] at hlock
      cases hlock
  · intro i hi
    refine hs.fresh i (Nat.le_trans ?_ hi)
    by_cases hnew : ∃ fd, w = .accept fd
    · obtain ⟨fd, rfl⟩ := hnew
      change _ ≤ u.conns.accepted
      rw [(WssConnections.step_accept hw).2]
      exact Nat.le_succ _
    · exact Nat.le_of_eq (WssConnections.step_listed hw fun fd h => hnew ⟨fd, h⟩).1.symm
  · intro i
    change (s.offers i).map Offer.broadcast <+: s.begun.drop (s.enter a i)
    unfold enter
    split
    · by_cases hi : i = s.server.conns.accepted
      · rw [hi, hs.fresh _ (Nat.le_refl _)]
        exact List.nil_prefix
      · rw [Function.update_of_ne hi]
        exact hs.ordered i
    · exact hs.ordered i
  · intro i o ho
    exact (hs.topics i o ho).trans (hread i)

theorem drop_begun (hs : Coherent lib s) (b : Broadcast) (i : ℕ) :
    (s.begun ++ [b]).drop (s.joined i) = s.begun.drop (s.joined i) ++ [b] :=
  List.drop_append_of_le_length (hs.joined i)

theorem coherent_begin (hs : Coherent lib s) {b : Broadcast} (hnone : s.sending = none)
    (hstop : s.server.conns.stop.locks = false)
    (hfits : ∀ now, (b.payload lib now).length < 2 ^ 31 - 14) :
    Coherent lib { s with
      sending := some (b, s.server.conns.clients), begun := s.begun ++ [b] } := by
  refine ⟨hs.kept, hs.sound, fun _ _ _ => hstop, ?_, ?_, hs.fresh, ?_, ?_, ?_, hs.topics, hs.framed⟩
  · intro b' rest hsend
    cases hsend
    exact ⟨List.Subset.refl _, hs.kept.nodup, s.begun, rfl⟩
  · intro b' rest hsend
    cases hsend
    exact hfits
  · intro i
    rw [List.length_append]
    exact Nat.le_add_right_of_le (hs.joined i)
  · intro i
    rw [drop_begun hs]
    exact (hs.ordered i).trans (List.prefix_append _ _)
  · intro i hi
    have hbefore := hs.offered i hi
    rw [waiting_none hnone, List.append_nil] at hbefore
    rw [drop_begun hs, ← hbefore]
    change _ ++ (if i ∈ s.server.conns.clients then [b] else []) = _
    rw [if_pos hi]

theorem coherent_finish (hs : Coherent lib s) {b : Broadcast} (h : s.sending = some (b, [])) :
    Coherent lib { s with sending := none } := by
  refine ⟨hs.kept, hs.sound, nofun, nofun, nofun, hs.fresh, hs.joined, hs.ordered, ?_, hs.topics,
    hs.framed⟩
  intro i hi
  have hbefore := hs.offered i hi
  rwa [waiting_some h, if_neg List.not_mem_nil] at hbefore

@[simp] theorem visit_server (s : BroadcastServer) (b : Broadcast) (c : ℕ) (rest : List ℕ)
    (now : ℤ) (accepts : List ℕ) : (s.visit lib b c rest now accepts).server = s.server := by
  unfold visit
  split <;> rfl

@[simp] theorem visit_sending (s : BroadcastServer) (b : Broadcast) (c : ℕ) (rest : List ℕ)
    (now : ℤ) (accepts : List ℕ) :
    (s.visit lib b c rest now accepts).sending = some (b, rest) := by
  unfold visit
  split <;> rfl

@[simp] theorem visit_begun (s : BroadcastServer) (b : Broadcast) (c : ℕ) (rest : List ℕ)
    (now : ℤ) (accepts : List ℕ) : (s.visit lib b c rest now accepts).begun = s.begun := by
  unfold visit
  split <;> rfl

@[simp] theorem visit_joined (s : BroadcastServer) (b : Broadcast) (c : ℕ) (rest : List ℕ)
    (now : ℤ) (accepts : List ℕ) : (s.visit lib b c rest now accepts).joined = s.joined := by
  unfold visit
  split <;> rfl

@[simp] theorem visit_offers (s : BroadcastServer) (b : Broadcast) (c : ℕ) (rest : List ℕ)
    (now : ℤ) (accepts : List ℕ) : (s.visit lib b c rest now accepts).offers =
      Function.update s.offers c (s.offers c ++ [s.offer b c now]) := by
  unfold visit
  split <;> rfl

theorem send_spells {b : Broadcast} {now : ℤ} {accepts : List ℕ}
    (hfits : (b.payload lib now).length < 2 ^ 31 - 14) (h : (b.send lib now accepts).2 = true) :
    Spells (b.frame lib now) (b.send lib now accepts).1 := by
  cases b with
  | json topic text =>
    obtain ⟨frame, hshort, -, hsend⟩ := sent_frame 1 hfits
    have hsent : (Broadcast.send lib now accepts (.json topic text)).1 = frame :=
      (hsend accepts).2.1 h
    rw [hsent]
    exact hshort.1
  | binary topic data headerJson =>
    obtain ⟨frame, hshort, -, hsend⟩ := sent_frame 2 hfits
    have hsent : (Broadcast.send lib now accepts (.binary topic data headerJson)).1 = frame :=
      (hsend accepts).2.1 h
    rw [hsent]
    exact hshort.1

theorem frames_append_one (os : List Offer) (o : Offer) : frames lib (os ++ [o]) =
    frames lib os ++ if o.Heard lib then [o.broadcast.frame lib o.now] else [] := by
  unfold frames
  rw [List.filter_append, List.map_append]
  by_cases ho : o.Heard lib
  · simp [ho]
  · simp [ho]

theorem framed_visit (hs : Coherent lib s) {b : Broadcast} {c : ℕ} {rest : List ℕ}
    (h : s.sending = some (b, c :: rest)) (now : ℤ) (accepts : List ℕ) {i : ℕ}
    (hi : (s.visit lib b c rest now accepts).intact i = true) :
    SpellsAll (frames lib ((s.visit lib b c rest now accepts).offers i))
      ((s.visit lib b c rest now accepts).stream i) := by
  have hheard : (s.offer b c now).Heard lib ↔
      (s.server.conns.alive c && subscribed (s.server.topics c) b.topic) = true := by
    rw [Bool.and_eq_true, hs.kept.topics c]
    rfl
  rw [visit_offers]
  unfold visit at hi ⊢
  by_cases hic : i = c
  · subst hic
    rw [Function.update_self, frames_append_one]
    split at hi
    · rename_i hsub
      simp only [Function.update_self, Bool.and_eq_true] at hi
      rw [if_pos hsub, if_pos (hheard.2 hsub)]
      simp only [Function.update_self]
      exact (hs.framed i hi.1).append_one (send_spells (hs.fits _ _ h now) hi.2)
    · rename_i hsub
      rw [if_neg hsub, if_neg fun ho => hsub (hheard.1 ho), List.append_nil]
      exact hs.framed i hi
  · rw [Function.update_of_ne hic]
    split at hi
    · rename_i hsub
      rw [if_pos hsub]
      simp only [Function.update_of_ne hic] at hi ⊢
      exact hs.framed i hi
    · rename_i hsub
      rw [if_neg hsub]
      exact hs.framed i hi

theorem coherent_visit (hs : Coherent lib s) {b : Broadcast} {c : ℕ} {rest : List ℕ}
    (h : s.sending = some (b, c :: rest)) (now : ℤ) (accepts : List ℕ) :
    Coherent lib (s.visit lib b c rest now accepts) := by
  obtain ⟨hsub, hnodup, hbegun⟩ := hs.visits _ _ h
  have hc : c ∈ s.server.conns.clients := hsub List.mem_cons_self
  have hdue := hs.offered c hc
  rw [waiting_some h, if_pos List.mem_cons_self] at hdue
  have hmap : ∀ i, i ≠ c → (s.visit lib b c rest now accepts).offers i = s.offers i := by
    intro i hi
    rw [visit_offers, Function.update_of_ne hi]
  have hmapc : ((s.visit lib b c rest now accepts).offers c).map Offer.broadcast =
      s.begun.drop (s.joined c) := by
    rw [visit_offers, Function.update_self, List.map_append, ← hdue]
    rfl
  refine ⟨?_, ?_, ?_, ?_, ?_, ?_, ?_, ?_, ?_, ?_, fun i => framed_visit hs h now accepts⟩
  · rw [visit_server]
    exact hs.kept
  · rw [visit_server]
    exact hs.sound
  · intro b' rest' hsend
    rw [visit_server]
    exact hs.unlocked _ _ h
  · intro b' rest' hsend
    rw [visit_sending] at hsend
    cases hsend
    rw [visit_server, visit_begun]
    exact ⟨fun d hd => hsub (List.mem_cons_of_mem c hd), (List.nodup_cons.1 hnodup).2, hbegun⟩
  · intro b' rest' hsend
    rw [visit_sending] at hsend
    cases hsend
    exact hs.fits _ _ h
  · intro i hi
    rw [visit_server] at hi
    rw [hmap i]
    · exact hs.fresh i hi
    · rintro rfl
      exact absurd (hs.sound.listed i hc).1 (Nat.not_lt.2 hi)
  · rw [visit_joined, visit_begun]
    exact hs.joined
  · intro i
    rw [visit_joined, visit_begun]
    by_cases hi : i = c
    · rw [hi]
      exact ⟨[], by rw [List.append_nil, hmapc]⟩
    · rw [hmap i hi]
      exact hs.ordered i
  · intro i hi
    rw [visit_server] at hi
    rw [visit_joined, visit_begun, waiting_some (visit_sending s b c rest now accepts)]
    by_cases hic : i = c
    · rw [hic, hmapc, if_neg (List.nodup_cons.1 hnodup).1, List.append_nil]
    · have hold := hs.offered i hi
      rw [waiting_some h] at hold
      rw [hmap i hic, ← hold]
      simp [hic]
  · intro i o ho
    rw [visit_server]
    by_cases hi : i = c
    · subst hi
      rw [visit_offers, Function.update_self] at ho
      rcases List.mem_append.1 ho with ho | ho
      · exact hs.topics i o ho
      · rw [List.mem_singleton.1 ho]
        exact List.prefix_rfl
    · rw [hmap i hi] at ho
      exact hs.topics i o ho

theorem coherent_step {a : BroadcastAction} (hs : Coherent lib s) (ha : Fits lib a)
    (h : s.step lib a = some t) : Coherent lib t := by
  cases a with
  | server a =>
    simp only [step] at h
    split at h
    · cases h
    · rename_i hfree
      obtain ⟨u, hu, rfl⟩ := Option.map_eq_some_iff.1 h
      exact coherent_server hs (Bool.eq_false_iff.2 hfree) hu
  | begin b =>
    simp only [step] at h
    split at h
    · rename_i hfree
      cases h
      exact coherent_begin hs hfree.1 hfree.2 ha
    · cases h
  | visit now accepts =>
    simp only [step] at h
    split at h
    · rename_i b c rest hsend
      cases h
      exact coherent_visit hs hsend now accepts
    · cases h
  | finish =>
    simp only [step] at h
    split at h
    · rename_i b hsend
      cases h
      exact coherent_finish hs hsend
    · cases h

theorem Coherent.delivered (hs : Coherent lib s) : Delivered lib s := by
  refine ⟨hs.ordered, hs.offered, hs.topics, hs.framed,
    fun i hi fs hfs => hfs.unique (hs.framed i hi), ?_⟩
  intro b rest hsend c hc
  have hlisted := (hs.visits b rest hsend).1 hc
  refine hs.sound.unreleased ?_ c hlisted
  have hunlocked := hs.unlocked b rest hsend
  cases hstop : s.server.conns.stop with
  | notCalled | joining => rfl
  | releasing r =>
    rw [hstop] at hunlocked
    cases hunlocked
  | returned =>
    rw [hs.sound.cleared hstop] at hlisted
    cases hlisted

/-- Over every interleaving of broadcasts with clients that come, go and send messages. -/
theorem broadcasts_delivered {as : List BroadcastAction} (hr : run (step lib) {} as = some s)
    (hfits : ∀ a ∈ as, Fits lib a) : Delivered lib s :=
  (run_invariant (fun _ _ _ hs ha h => coherent_step hs ha h) coherent_start
    (along_of_mem hfits _) hr).delivered

def lateSubscriber : List BroadcastAction :=
  [.server (.conn .acceptTest), .server (.conn (.accept 7)), .server (.conn .spawn),
    .server (.conn (.lookup 0)), .server (.conn (.test 0)), .begin (.binary "a" [9] []),
    .visit 0 [], .finish, .server (.receive 0 (subscribeText "\"a\"")),
    .begin (.binary "a" [1, 2] []), .visit 0 [1, 3], .finish]

theorem broadcasts_delivered_late : ∃ s,
    run (step (subscribeLib "\"a\"" [.string "a"])) {} lateSubscriber = some s ∧
      s.stream 0 = [0x82, 2, 1, 2] ∧
      Delivered (subscribeLib "\"a\"" [.string "a"]) s := by
  have hreached : run (step (subscribeLib "\"a\"" [.string "a"])) {} lateSubscriber =
    some _ := rfl
  refine ⟨_, hreached, rfl, broadcasts_delivered hreached ?_⟩
  intro a ha
  cases a with
  | begin b =>
    simp only [lateSubscriber, List.mem_cons, BroadcastAction.begin.injEq, reduceCtorEq, false_or,
      or_false, List.not_mem_nil] at ha
    rcases ha with rfl | rfl <;> intro now <;> simp [Broadcast.payload, broadcastPayload]
  | _ => trivial

end BroadcastServer
end EcidsCore
