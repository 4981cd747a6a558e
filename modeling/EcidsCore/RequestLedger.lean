import EcidsCore.PendingRuns
import EcidsCore.TableLedger

set_option autoImplicit false

/-! What becomes of the requests: the table of the preprocess module against a
ledger in which every request that was ever entered has one fate. -/
namespace EcidsCore
open GuardedRuns PreprocessModule

variable {R : Type}

/-- How a request leaves the table: a response takes it, a response finds it too old,
a start or `clear_pending` wipes it, the 202nd pair wipes it, an equal id replaces it. -/
inductive RequestFate where
  | answered
  | stale
  | cleared
  | overflowed
  | replaced
deriving DecidableEq, Repr

def RequestFate.all : List RequestFate := [.answered, .stale, .cleared, .overflowed, .replaced]

abbrev Requests (R : Type) := TableLedger String (PendingRequest R) RequestFate

namespace Requests

/-- The entry that a response with the id `t` is given: its own or the one with the
least id. -/
def servedKey (t : String) (L : Requests R) : Option String :=
  if t ∈ L.table then some t else (L.table.entries.argmin Sigma.fst).map Sigma.fst

def fateOf (now : ℕ) (t k : String) (e : PendingRequest R) : RequestFate :=
  if k ≠ t ∧ 30 * 10 ^ 9 < now - e.createdAt then .stale else .answered

def respond (now : ℕ) (t : String) (L : Requests R) : Requests R :=
  match L.servedKey t with
  | none => L
  | some k => L.take (fateOf now t k) k

def enter (p : PairInFlight R) (e : PendingRequest R) (L : Requests R) : Requests R :=
  (if p.fromFile = false ∧ 200 < L.table.keys.length then L.flush .overflowed else L).put
    .replaced e.transactionId e

def after (s : PendingSystem R) (L : Requests R) : PendingAction R → Requests R
  | .insert =>
    match s.inFlight with
    | none => L
    | some p => L.enter p (p.entry s.module.subTask s.clock)
  | .deliver resp => L.respond s.clock resp.transactionId
  | .clearPending | .startInspection _ | .startAiTest _ _ _ => L.flush .cleared
  | _ => L

end Requests

/-- The system beside the ledger, with the pairs ever published, the responses that got
past the table and the calls of the callback. -/
structure LedgerSystem (R : Type) where
  system : PendingSystem R
  requests : Requests R := TableLedger.empty
  published : List (PairInFlight R) := []
  handled : List (DetectionResponse R × Option (PendingRequest R)) := []
  callbacks : List (CallbackArgs R) := []

namespace LedgerSystem

def newPair (a : PendingAction R) (t : PendingSystem R) : List (PairInFlight R) :=
  if a.ids = [] then [] else t.inFlight.toList

def newHandled (s : PendingSystem R) :
    PendingAction R → List (DetectionResponse R × Option (PendingRequest R))
  | .deliver resp =>
    match (takePending s.clock resp.transactionId s.module.pending).1 with
    | .request e => [(resp, some e)]
    | .stale => []
    | .nothing => [(resp, none)]
  | _ => []

def newCallbacks [Double R] (lib : Nlohmann R) (s : PendingSystem R) :
    PendingAction R → List (CallbackArgs R)
  | .deliver resp => (s.module.onAiResult lib s.clock resp).2.callback.toList
  | _ => []

def step [Double R] (img : Imaging R) (lib : Nlohmann R) (s : LedgerSystem R)
    (a : PendingAction R) : Option (LedgerSystem R) :=
  (s.system.step img lib a).map fun t =>
    { system := t, requests := s.requests.after s.system a,
      published := s.published ++ newPair a t, handled := s.handled ++ newHandled s.system a,
      callbacks := s.callbacks ++ newCallbacks lib s.system a }

end LedgerSystem

namespace Requests

theorem fateOf_self (now : ℕ) (t : String) (e : PendingRequest R) : fateOf now t t e = .answered :=
  if_neg fun h => h.1 rfl

structure Serves (now : ℕ) (t : String) (L : Requests R) (k : String) (e : PendingRequest R) :
    Prop where
  row : L.table.lookup k = some e
  ledger : L.respond now t = L.take (fateOf now t k) k
  taken : takePending now t L.table =
    (if fateOf now t k e = .stale then .stale else .request e, L.table.erase k)

theorem respond_empty {L : Requests R} (h : L.table = ∅) (now : ℕ) (t : String) :
    L.respond now t = L := by
  have hkey : L.servedKey t = none := by
    unfold servedKey
    rw [h]
    rfl
  rw [respond, hkey]

theorem respond_serves (now : ℕ) (t : String) {L : Requests R} (h : L.table ≠ ∅) :
    ∃ k e, Serves now t L k e := by
  cases hl : L.table.lookup t with
  | some e =>
    have hmem : t ∈ L.table := AList.lookup_isSome.1 (by rw [hl]; rfl)
    have hkey : L.servedKey t = some t := if_pos hmem
    refine ⟨t, e, hl, ?_, ?_⟩
    · rw [respond, hkey]
    · rw [fateOf_self, takePending, hl]
      rfl
  | none =>
    have hmem : t ∉ L.table := AList.lookup_eq_none.1 hl
    cases ha : L.table.entries.argmin Sigma.fst with
    | none => exact absurd (AList.ext (List.argmin_eq_none.1 ha)) h
    | some x =>
      obtain ⟨k, e⟩ := x
      have hrow : L.table.lookup k = some e := AList.mem_lookup_iff.2 (List.argmin_mem ha)
      have hkey : L.servedKey t = some k := by
        rw [servedKey, if_neg hmem, ha]
        rfl
      have hne : k ≠ t := by
        rintro rfl
        rw [hl] at hrow
        cases hrow
      refine ⟨k, e, hrow, ?_, ?_⟩
      · rw [respond, hkey]
      · by_cases hold : 30 * 10 ^ 9 < now - e.createdAt
        · have hfate : fateOf now t k e = .stale := if_pos ⟨hne, hold⟩
          simp only [takePending, hl, ha, hfate, hold, if_true]
        · have hfate : fateOf now t k e = .answered := if_neg fun h => hold h.2
          simp only [takePending, hl, ha, hfate, hold, if_false, reduceCtorEq]

theorem respond_table (now : ℕ) (t : String) (L : Requests R) :
    (L.respond now t).table = (takePending now t L.table).2 := by
  by_cases h : L.table = ∅
  · rw [respond_empty h, h, takePending_empty]
  · obtain ⟨k, e, -, hledger, htaken⟩ := respond_serves now t h
    rw [hledger, htaken]
    rfl

theorem respond_accepted (now : ℕ) (t : String) (L : Requests R) :
    (L.respond now t).accepted = L.accepted := by
  unfold respond
  split <;> rfl

theorem respond_keyed {key : PendingRequest R → String} {L : Requests R} (hL : L.Keyed key)
    (now : ℕ) (t : String) : (L.respond now t).Keyed key := by
  unfold respond
  split
  · exact hL
  · exact TableLedger.keyed_take hL _ _

theorem fateOf_cases (now : ℕ) (t k : String) (e : PendingRequest R) :
    fateOf now t k e = .answered ∨
      fateOf now t k e = .stale ∧ e.createdAt + 30 * 10 ^ 9 < now := by
  unfold fateOf
  split
  · rename_i h
    exact .inr ⟨rfl, by omega⟩
  · exact .inl rfl

theorem Serves.withFate {now : ℕ} {t k : String} {L : Requests R} {e : PendingRequest R}
    (h : Serves now t L k e) (f : RequestFate) :
    (L.respond now t).withFate f =
      L.withFate f ++ if fateOf now t k e = f then [e] else [] := by
  rw [h.ledger, TableLedger.withFate_take, h.row, Option.toList_some]
  by_cases hf : fateOf now t k e = f
  · simp [hf]
  · simp [hf]

theorem enter_accepted (p : PairInFlight R) (e : PendingRequest R) (L : Requests R) :
    (L.enter p e).accepted = L.accepted ++ [e] := by
  unfold enter
  split <;> rfl

theorem enter_keyed {L : Requests R} (hL : L.Keyed PendingRequest.transactionId)
    (p : PairInFlight R) (e : PendingRequest R) :
    (L.enter p e).Keyed PendingRequest.transactionId := by
  unfold enter
  split
  · exact TableLedger.keyed_put (TableLedger.keyed_flush _ _ _) _ e
  · exact TableLedger.keyed_put hL _ e

theorem enter_table (now : ℕ) (p : PairInFlight R) {m : PreprocessModule R} {L : Requests R}
    (h : L.table = m.pending) :
    (L.enter p (p.entry m.subTask now)).table = (m.insertPending now p).pending := by
  unfold enter insertPending
  rw [h]
  split
  · rfl
  · exact congrArg (AList.insert p.transactionId (p.entry m.subTask now)) h

theorem enter_overflowed (p : PairInFlight R) (e : PendingRequest R) (L : Requests R) :
    (L.enter p e).withFate .overflowed = L.withFate .overflowed ∨
      200 < ((L.enter p e).withFate .overflowed).length := by
  unfold enter
  split
  · rename_i h
    right
    rw [TableLedger.withFate_put, TableLedger.withFate_flush, if_pos rfl, if_neg (by decide),
      List.append_nil, List.length_append, length_tableRows]
    omega
  · left
    rw [TableLedger.withFate_put, if_neg (by decide), List.append_nil]

theorem enter_replaced {L : Requests R} (hL : L.Keyed PendingRequest.transactionId)
    (p : PairInFlight R) {e : PendingRequest R}
    (hnew : e.transactionId ∉ L.accepted.map PendingRequest.transactionId) :
    (L.enter p e).withFate .replaced = L.withFate .replaced := by
  unfold enter
  split
  · rw [TableLedger.withFate_put, TableLedger.withFate_flush, if_neg (by decide)]
    simp [TableLedger.flush]
  · rw [TableLedger.withFate_put, TableLedger.lookup_eq_none hL hnew]
    simp

theorem enter_fate (p : PairInFlight R) (e : PendingRequest R) (L : Requests R) {f : RequestFate}
    (ho : f ≠ .overflowed) (hr : f ≠ .replaced) : (L.enter p e).withFate f = L.withFate f := by
  unfold enter
  split
  · rw [TableLedger.withFate_put, TableLedger.withFate_flush, if_neg hr.symm, if_neg ho.symm,
      List.append_nil, List.append_nil]
  · rw [TableLedger.withFate_put, if_neg hr.symm, List.append_nil]

end Requests

namespace PendingSystem

theorem joined_wired {s : PendingSystem R} {m : PreprocessModule R} (h : s.joined = some m) :
    m.wired = s.module.wired := by
  unfold joined at h
  split at h
  · obtain ⟨⟨m', b⟩, hj, rfl⟩ := Option.map_eq_some_iff.1 h
    unfold PreprocessModule.join at hj
    split at hj
    · cases hj
      rfl
    · cases hj
      rfl
    · split at hj
      · cases hj
      · cases hj
        rfl
  · cases h

structure Frame (s t : PendingSystem R) : Prop where
  wired : t.module.wired = s.module.wired
  clock : s.clock ≤ t.clock

theorem frame_startTask {s t : PendingSystem R} (start : PreprocessModule R → PreprocessModule R)
    (hstart : ∀ m, (start m).wired = m.wired) (h : s.startTask start = some t) : Frame s t := by
  obtain ⟨m, hj, rfl⟩ := Option.map_eq_some_iff.1 h
  exact ⟨(hstart m).trans (joined_wired hj), le_rfl⟩

theorem frame_stopTask {s t : PendingSystem R} (finish : PreprocessModule R → PreprocessModule R)
    (hfinish : ∀ m, (finish m).wired = m.wired) (h : s.stopTask finish = some t) : Frame s t := by
  obtain ⟨m, hj, rfl⟩ := Option.map_eq_some_iff.1 h
  have hwired := joined_wired hj
  exact ⟨(hfinish m).trans hwired, le_rfl⟩

theorem frame_of_step [Double R] {img : Imaging R} {lib : Nlohmann R} {s t : PendingSystem R}
    {a : PendingAction R} (h : s.step img lib a = some t) : Frame s t := by
  cases a <;> simp only [step] at h
  case tick elapsed =>
    cases h
    exact ⟨rfl, Nat.le_add_right _ _⟩
  case publishPair ts left right wd =>
    split at h
    · cases hpub : s.module.publishPair img ts left right wd with
      | none =>
        rw [hpub] at h
        cases h
        exact ⟨rfl, le_rfl⟩
      | some x =>
        rw [hpub] at h
        cases h
        refine ⟨?_, le_rfl⟩
        dsimp only [PreprocessModule.publishPair] at hpub
        split at hpub
        · cases hpub
        · cases hpub
          rfl
    · cases h
  case publishFile ts l r =>
    split at h
    · cases h
      exact ⟨rfl, le_rfl⟩
    · cases h
  case insert =>
    obtain ⟨p, hp, rfl⟩ := Option.map_eq_some_iff.1 h
    exact ⟨rfl, le_rfl⟩
  case deliver resp =>
    cases h
    obtain ⟨rest, hrest⟩ := onAiResult_module lib s.clock resp s.module
    exact ⟨by rw [hrest], le_rfl⟩
  case loopEnds =>
    split at h
    · cases h
      exact ⟨rfl, le_rfl⟩
    · cases h
  case startInspection path =>
    exact frame_startTask (PreprocessModule.startInspection path true) (fun _ => rfl) h
  case startAiTest data path found =>
    exact frame_startTask (PreprocessModule.startAiTest data path found true) (fun _ => rfl) h
  case stopInspection => exact frame_stopTask finishInspection (fun _ => rfl) h
  case stopAiTest => exact frame_stopTask finishAiTest (fun _ => rfl) h
  case stop => exact frame_stopTask id (fun _ => rfl) h
  all_goals
    cases h
    exact ⟨rfl, le_rfl⟩

end PendingSystem

namespace LedgerSystem
open Requests

variable [Double R] {img : Imaging R} {lib : Nlohmann R} {s t : LedgerSystem R}
  {a : PendingAction R}

def callbackArgs (x : DetectionResponse R × Option (PendingRequest R)) : CallbackArgs R :=
  x.2.elim (argsDefault x.1) (argsOf x.1)

def EntryOf (p : PairInFlight R) (e : PendingRequest R) : Prop :=
  e = p.entry e.subTask e.createdAt

structure Accounted (s : LedgerSystem R) : Prop where
  table : s.requests.table = s.system.module.pending
  keyed : s.requests.Keyed PendingRequest.transactionId
  entered : ∃ done, s.published = done ++ s.system.inFlight.toList ∧
    List.Forall₂ EntryOf done s.requests.accepted
  answered : s.handled.filterMap Prod.snd = s.requests.withFate .answered
  callbacks : s.callbacks =
    if s.system.module.wired.callback then s.handled.map callbackArgs else []
  stale : ∀ e ∈ s.requests.withFate .stale, e.createdAt + 30 * 10 ^ 9 < s.system.clock
  overflowed : s.requests.withFate .overflowed = [] ∨
    200 < (s.requests.withFate .overflowed).length
  replaced : (s.published.map PairInFlight.transactionId).Nodup →
    s.requests.withFate .replaced = []

omit [Double R] in
theorem entryOf_entry (p : PairInFlight R) (sub : InspectionSubTask) (now : ℕ) :
    EntryOf p (p.entry sub now) := by
  cases hf : p.fromFile <;> simp [EntryOf, PairInFlight.entry, hf]

omit [Double R] in
theorem ids_of_entries {done : List (PairInFlight R)} {entries : List (PendingRequest R)}
    (h : List.Forall₂ EntryOf done entries) :
    entries.map PendingRequest.transactionId = done.map PairInFlight.transactionId := by
  induction h with
  | nil => rfl
  | cons he _ ih =>
    rw [List.map_cons, List.map_cons, ih, he]
    rfl

theorem accounted_calm (hs : Accounted s) {u : PendingSystem R}
    (hframe : PendingSystem.Frame s.system u) (htable : u.module.pending = s.system.module.pending)
    (hfree : u.inFlight = s.system.inFlight) : Accounted { s with system := u } where
  table := hs.table.trans htable.symm
  keyed := hs.keyed
  entered := by
    rw [hfree]
    exact hs.entered
  answered := hs.answered
  callbacks := by
    rw [hframe.wired]
    exact hs.callbacks
  stale e he := (hs.stale e he).trans_le hframe.clock
  overflowed := hs.overflowed
  replaced := hs.replaced

theorem accounted_publish (hs : Accounted s) {m : PreprocessModule R} (p : PairInFlight R)
    (hfree : s.system.inFlight = none) (htable : m.pending = s.system.module.pending)
    (hwired : m.wired = s.system.module.wired) :
    Accounted { s with system := s.system.publish m p, published := s.published ++ [p] } where
  table := hs.table.trans htable.symm
  keyed := hs.keyed
  entered := by
    obtain ⟨done, hdone, hentries⟩ := hs.entered
    refine ⟨done, ?_, hentries⟩
    rw [hdone, hfree, Option.toList_none, List.append_nil]
    rfl
  answered := hs.answered
  callbacks := by
    change s.callbacks = if m.wired.callback then _ else []
    rw [hwired]
    exact hs.callbacks
  stale := hs.stale
  overflowed := hs.overflowed
  replaced hnodup := by
    rw [List.map_append] at hnodup
    exact hs.replaced (List.nodup_append.1 hnodup).1

theorem accounted_insert (hs : Accounted s) {p : PairInFlight R}
    (hp : s.system.inFlight = some p) {e : PendingRequest R}
    (he : e = p.entry s.system.module.subTask s.system.clock) :
    Accounted { s with
      system := { s.system with
        module := s.system.module.insertPending s.system.clock p, inFlight := none,
        entered := s.system.entered ++ [e] }
      requests := s.requests.enter p e } where
  table := by
    rw [he]
    exact enter_table _ p hs.table
  keyed := enter_keyed hs.keyed p e
  entered := by
    obtain ⟨done, hdone, hentries⟩ := hs.entered
    refine ⟨done ++ [p], ?_, ?_⟩
    · rw [hp] at hdone
      exact hdone.trans (List.append_nil _).symm
    · rw [enter_accepted, he]
      exact List.rel_append hentries (.cons (entryOf_entry p _ _) .nil)
  answered := by
    rw [enter_fate p e s.requests (by decide) (by decide)]
    exact hs.answered
  callbacks := hs.callbacks
  stale := by
    rw [enter_fate p e s.requests (by decide) (by decide)]
    exact hs.stale
  overflowed := by
    rcases enter_overflowed p e s.requests with h | h
    · rw [h]
      exact hs.overflowed
    · exact .inr h
  replaced hnodup := by
    obtain ⟨done, hdone, hentries⟩ := hs.entered
    have hid : e.transactionId = p.transactionId := by
      rw [he]
      rfl
    rw [enter_replaced hs.keyed p ?_]
    · exact hs.replaced hnodup
    · rw [ids_of_entries hentries, hid]
      rw [hdone, hp, List.map_append] at hnodup
      exact fun hmem => (List.nodup_append.1 hnodup).2.2 _ hmem _ List.mem_cons_self rfl

theorem accounted_clear (hs : Accounted s) {u : PendingSystem R}
    (hframe : PendingSystem.Frame s.system u) (hempty : u.module.pending = ∅)
    (hfree : u.inFlight = s.system.inFlight) :
    Accounted { s with system := u, requests := s.requests.flush .cleared } := by
  have hfate {f : RequestFate} (hf : RequestFate.cleared ≠ f) :
      (s.requests.flush .cleared).withFate f = s.requests.withFate f := by
    rw [TableLedger.withFate_flush, if_neg hf, List.append_nil]
  refine ⟨hempty.symm, TableLedger.keyed_flush _ _ _, ?_, ?_, ?_, ?_, ?_, ?_⟩
  · rw [hfree]
    exact hs.entered
  · rw [hfate (by decide)]
    exact hs.answered
  · rw [hframe.wired]
    exact hs.callbacks
  · rw [hfate (by decide)]
    exact fun e he => (hs.stale e he).trans_le hframe.clock
  · rw [hfate (by decide)]
    exact hs.overflowed
  · rw [hfate (by decide)]
    exact hs.replaced

theorem callback_handled (u : PendingSystem R) (resp : DetectionResponse R) :
    newCallbacks lib u (.deliver resp) =
      if u.module.wired.callback then (newHandled u (.deliver resp)).map callbackArgs else [] := by
  rcases htake : takePending u.clock resp.transactionId u.module.pending with ⟨taken, rest⟩
  cases taken with
  | request e =>
    simp only [newCallbacks, newHandled, onAiResult, htake, handleResult]
    split <;> rfl
  | stale =>
    simp only [newCallbacks, newHandled, onAiResult, htake]
    split <;> rfl
  | nothing =>
    simp only [newCallbacks, newHandled, onAiResult, htake, handleResult]
    split <;> rfl

structure Adds (u : PendingSystem R) (L : Requests R) (resp : DetectionResponse R)
    (f : RequestFate → List (PendingRequest R)) : Prop where
  fates : ∀ g, (L.respond u.clock resp.transactionId).withFate g = L.withFate g ++ f g
  handled : (newHandled u (.deliver resp)).filterMap Prod.snd = f .answered
  stale : ∀ e ∈ f .stale, e.createdAt + 30 * 10 ^ 9 < u.clock
  others : f .overflowed = [] ∧ f .replaced = []

omit [Double R] in
theorem respond_adds {u : PendingSystem R} {L : Requests R} (h : L.table = u.module.pending)
    (resp : DetectionResponse R) : ∃ f, Adds u L resp f := by
  by_cases hempty : L.table = ∅
  · refine ⟨fun _ => [], ?_, ?_, List.forall_mem_nil _, rfl, rfl⟩
    · intro g
      rw [respond_empty hempty, List.append_nil]
    · rw [newHandled, ← h, hempty, takePending_empty]
      rfl
  obtain ⟨k, e, hserves⟩ := respond_serves u.clock resp.transactionId hempty
  have htaken := hserves.taken
  rw [h] at htaken
  refine ⟨fun g => if fateOf u.clock resp.transactionId k e = g then [e] else [],
    hserves.withFate, ?_, ?_, ?_⟩
  · rcases fateOf_cases u.clock resp.transactionId k e with hfate | ⟨hfate, -⟩
    · simp [newHandled, htaken, hfate]
    · simp [newHandled, htaken, hfate]
  · rcases fateOf_cases u.clock resp.transactionId k e with hfate | ⟨hfate, hold⟩
    · simp [hfate]
    · simpa [hfate] using hold
  · rcases fateOf_cases u.clock resp.transactionId k e with hfate | ⟨hfate, -⟩
    · simp [hfate]
    · simp [hfate]

variable (lib) in
theorem accounted_deliver (hs : Accounted s) (resp : DetectionResponse R) :
    Accounted
      { system := { s.system with
          module := (s.system.module.onAiResult lib s.system.clock resp).1 }
        requests := s.requests.respond s.system.clock resp.transactionId
        published := s.published
        handled := s.handled ++ newHandled s.system (.deliver resp)
        callbacks := s.callbacks ++ newCallbacks lib s.system (.deliver resp) } := by
  obtain ⟨f, hadds⟩ := respond_adds hs.table resp
  refine ⟨?_, respond_keyed hs.keyed _ _, ?_, ?_, ?_, ?_, ?_, ?_⟩
  · rw [respond_table, hs.table]
    exact (onAiResult_pending lib s.system.clock resp s.system.module).symm
  · rw [respond_accepted]
    exact hs.entered
  · rw [List.filterMap_append, hs.answered, hadds.handled, hadds.fates]
  · obtain ⟨rest, hrest⟩ := onAiResult_module lib s.system.clock resp s.system.module
    rw [hrest, hs.callbacks, callback_handled]
    dsimp only
    split
    · rw [List.map_append]
    · rfl
  · rw [hadds.fates]
    intro e he
    rcases List.mem_append.1 he with he | he
    · exact hs.stale e he
    · exact hadds.stale e he
  · rw [hadds.fates, hadds.others.1, List.append_nil]
    exact hs.overflowed
  · rw [hadds.fates, hadds.others.2, List.append_nil]
    exact hs.replaced

theorem accounted_step (hs : Accounted s) (h : s.step img lib a = some t) : Accounted t := by
  obtain ⟨u, hu, rfl⟩ := Option.map_eq_some_iff.1 h
  have hframe := PendingSystem.frame_of_step hu
  cases a <;> simp only [PendingSystem.step] at hu
  case publishPair ts left right wd =>
    split at hu
    · rename_i hguard
      cases hpub : s.system.module.publishPair img ts left right wd with
      | none =>
        rw [hpub] at hu
        cases hu
        simpa [after, newPair, newHandled, newCallbacks, hguard.1] using hs
      | some x =>
        rw [hpub] at hu
        cases hu
        have := accounted_publish hs x.2.pair hguard.1 (publishPair_pair hpub).2 hframe.wired
        simpa [after, newPair, newHandled, newCallbacks, PendingAction.ids,
          PendingSystem.publish] using this
    · cases hu
  case publishFile ts l r =>
    split at hu
    · rename_i hguard
      cases hu
      have := accounted_publish (m := (s.system.module.publishFile img ts l r).1) hs
        (s.system.module.publishFile img ts l r).2.pair hguard.1 rfl hframe.wired
      simpa [after, newPair, newHandled, newCallbacks, PendingAction.ids,
        PendingSystem.publish] using this
    · cases hu
  case insert =>
    obtain ⟨p, hp, rfl⟩ := Option.map_eq_some_iff.1 hu
    have := accounted_insert hs hp rfl
    simpa [after, hp, newPair, newHandled, newCallbacks, PendingAction.ids] using this
  case deliver resp =>
    cases hu
    have := accounted_deliver lib hs resp
    simpa [after, newPair, PendingAction.ids] using this
  case clearPending =>
    cases hu
    have := accounted_clear hs hframe rfl rfl
    simpa [after, newPair, newHandled, newCallbacks, PendingAction.ids] using this
  case loopEnds =>
    split at hu
    · cases hu
      have := accounted_calm hs hframe rfl rfl
      simpa [after, newPair, newHandled, newCallbacks, PendingAction.ids] using this
    · cases hu
  case startInspection path =>
    obtain ⟨m, hj, rfl⟩ := Option.map_eq_some_iff.1 hu
    have := accounted_clear hs hframe rfl rfl
    simpa [after, newPair, newHandled, newCallbacks, PendingAction.ids] using this
  case startAiTest data path found =>
    obtain ⟨m, hj, rfl⟩ := Option.map_eq_some_iff.1 hu
    have := accounted_clear hs hframe rfl rfl
    simpa [after, newPair, newHandled, newCallbacks, PendingAction.ids] using this
  case stopInspection | stopAiTest | stop =>
    obtain ⟨m, hj, rfl⟩ := Option.map_eq_some_iff.1 hu
    have := accounted_calm hs hframe (PendingSystem.joined_pending hj).2 rfl
    simpa [after, newPair, newHandled, newCallbacks, PendingAction.ids] using this
  all_goals
    cases hu
    have := accounted_calm hs hframe rfl rfl
    simpa [after, newPair, newHandled, newCallbacks, PendingAction.ids] using this

def boot (m : PreprocessModule R) : LedgerSystem R := { system := { module := m } }

theorem accounted_boot {m : PreprocessModule R} (h : m.pending = ∅) : Accounted (boot m) where
  table := h.symm
  keyed k v hk := by
    cases (AList.lookup_empty (β := fun _ : String => PendingRequest R) k).symm.trans hk
  entered := ⟨[], rfl, .nil⟩
  answered := rfl
  callbacks := (ite_self _).symm
  stale := List.forall_mem_nil _
  overflowed := .inl rfl
  replaced _ := rfl

/-- Over every run each published pair but the one in flight has one entry, and every
entry was answered once, was dropped as too old, was wiped, was replaced, or waits. -/
theorem requests_accounted {m : PreprocessModule R} (hempty : m.pending = ∅)
    {as : List (PendingAction R)} (hrun : run (step img lib) (boot m) as = some t) :
    t.requests.table = t.system.module.pending ∧
      (∃ done, t.published = done ++ t.system.inFlight.toList ∧
        List.Forall₂ EntryOf done t.requests.accepted) ∧
      t.requests.accepted.Perm
        (RequestFate.all.flatMap t.requests.withFate ++ tableRows t.system.module.pending) ∧
      t.handled.filterMap Prod.snd = t.requests.withFate .answered ∧
      t.callbacks = (if t.system.module.wired.callback then t.handled.map callbackArgs else []) ∧
      (∀ e ∈ t.requests.withFate .stale, e.createdAt + 30 * 10 ^ 9 < t.system.clock) ∧
      (t.requests.accepted.length ≤ 200 → t.requests.withFate .overflowed = []) ∧
      ((t.published.map PairInFlight.transactionId).Nodup →
        t.requests.withFate .replaced = [] ∧
          ((t.requests.withFate .answered).map PendingRequest.transactionId).Nodup) := by
  have hs : Accounted t := run_preserves (I := Accounted)
    (fun _ _ _ hs h => accounted_step hs h) (accounted_boot hempty) hrun
  have hall : ∀ f : RequestFate, f ∈ RequestFate.all := by
    intro f
    cases f <;> decide
  have hperm := t.requests.accepted_perm RequestFate.all hall (by decide)
  obtain ⟨done, hdone, hentries⟩ := hs.entered
  refine ⟨hs.table, ⟨done, hdone, hentries⟩, ?_, hs.answered, hs.callbacks, hs.stale, ?_, ?_⟩
  · rw [← hs.table]
    exact hperm
  · intro hfew
    rcases hs.overflowed with h | h
    · exact h
    · -- the wiped requests alone would be more than were ever entered
      have hle := t.requests.length_withFate_le .overflowed
      omega
  · intro hnodup
    refine ⟨hs.replaced hnodup, t.requests.withFate_nodup ?_ .answered⟩
    rw [ids_of_entries hentries]
    rw [hdone, List.map_append] at hnodup
    exact (List.nodup_append.1 hnodup).1

def pairAnswer (id : String) : DetectionResponse ℤ where
  transactionId := id
  dealerId := "d"
  results := []

def twoPairs : List (PendingAction ℤ) :=
  [.startInspection "database/r",
    .publishPair "20260702-101500-250" { data := [1] } { data := [2] } 0, .insert,
    .publishPair "20260702-101500-350" { data := [3] } { data := [] } 0, .insert,
    .tick (31 * 10 ^ 9), .deliver (pairAnswer "20260702-101500-350"),
    .deliver (pairAnswer "other"), .deliver (pairAnswer "other")]

def twoPairsHandled : LedgerSystem ℤ :=
  (run (step plainImaging (plainLib toString)) (boot { aiMode := .binary }) twoPairs).get rfl

theorem requests_accounted_twoPairs :
    twoPairsHandled.requests.accepted.Perm
        (RequestFate.all.flatMap twoPairsHandled.requests.withFate ++ []) ∧
      (twoPairsHandled.requests.withFate .answered).length = 1 ∧
      (twoPairsHandled.requests.withFate .stale).length = 1 ∧
      twoPairsHandled.callbacks.length = 2 ∧ twoPairsHandled.requests.withFate .replaced = [] := by
  have hrun : run (step plainImaging (plainLib toString)) (boot { aiMode := .binary }) twoPairs =
    some twoPairsHandled := (Option.some_get _).symm
  have haccounted := requests_accounted rfl hrun
  refine ⟨haccounted.2.2.1, rfl, rfl, rfl, ?_⟩
  exact (haccounted.2.2.2.2.2.2.2 (by decide)).1

end LedgerSystem

end EcidsCore
