import EcidsCore.ResponseChain

set_option autoImplicit false

/-! Which request an AI response is attributed to, over all interleavings of the
capture thread, the dealer thread and the calls that start and stop a task. -/
namespace EcidsCore
open GuardedRuns PreprocessModule

variable {R : Type}

/-- The last three fields record what was published and inserted: since the last
start of a task, and, for the ids, over the whole run. -/
structure PendingSystem (R : Type) where
  module : PreprocessModule R
  clock : ℕ := 0
  inFlight : Option (PairInFlight R) := none
  sent : List (PairInFlight R) := []
  entered : List (PendingRequest R) := []
  sentIds : List String := []

inductive PendingAction (R : Type) where
  | tick (elapsed : ℕ)
  | publishPair (ts : String) (left right : DataBundle) (workingDistanceMm : R)
  | publishFile (ts leftPath rightPath : String)
  | insert
  | deliver (resp : DetectionResponse R)
  | setSubTask (st : InspectionSubTask)
  | clearPending
  | loopEnds
  | halt
  | startInspection (path : String)
  | startAiTest (testDataPath path : String) (found : Bool)
  | stopInspection
  | stopAiTest
  | stop

def PendingAction.ids : PendingAction R → List String
  | .publishPair ts _ _ _ | .publishFile ts _ _ => [ts]
  | _ => []

namespace PendingSystem

def publish (s : PendingSystem R) (m : PreprocessModule R) (p : PairInFlight R) :
    PendingSystem R :=
  { s with module := m, inFlight := some p, sent := s.sent ++ [p],
           sentIds := s.sentIds ++ [p.transactionId] }

def joined (s : PendingSystem R) : Option (PreprocessModule R) :=
  if s.inFlight.isNone then s.module.join.map Prod.fst else none

def startTask (s : PendingSystem R) (start : PreprocessModule R → PreprocessModule R) :
    Option (PendingSystem R) :=
  s.joined.map fun m => { s with module := start m, sent := [], entered := [] }

def stopTask (s : PendingSystem R) (finish : PreprocessModule R → PreprocessModule R) :
    Option (PendingSystem R) :=
  ({ s with module := s.module.halt } : PendingSystem R).joined.map fun m =>
    { s with module := finish m }

def step [Double R] (img : Imaging R) (lib : Nlohmann R) (s : PendingSystem R) :
    PendingAction R → Option (PendingSystem R)
  | .tick elapsed => some { s with clock := s.clock + elapsed }
  | .publishPair ts left right wd =>
    if s.inFlight = none ∧ s.module.thread = some { kind := .inspection } then
      match s.module.publishPair img ts left right wd with
      | none => some s
      | some (m, pub) => some (s.publish m pub.pair)
    else none
  | .publishFile ts l r =>
    if s.inFlight = none ∧ s.module.thread = some { kind := .aiTest true } then
      some (s.publish (s.module.publishFile img ts l r).1 (s.module.publishFile img ts l r).2.pair)
    else none
  | .insert =>
    s.inFlight.map fun p =>
      { s with module := s.module.insertPending s.clock p, inFlight := none,
               entered := s.entered ++ [p.entry s.module.subTask s.clock] }
  | .deliver resp => some { s with module := (s.module.onAiResult lib s.clock resp).1 }
  | .setSubTask st => some { s with module := s.module.setSubTask st }
  | .clearPending => some { s with module := s.module.clearPending }
  | .loopEnds =>
    if s.inFlight = none ∧ (s.module.thread = some { kind := .inspection } → ¬ s.module.running)
    then some { s with module := s.module.loopEnds } else none
  | .halt => some { s with module := s.module.halt }
  | .startInspection path => s.startTask (startInspection path true)
  | .startAiTest data path found => s.startTask (startAiTest data path found true)
  | .stopInspection => s.stopTask finishInspection
  | .stopAiTest => s.stopTask finishAiTest
  | .stop => s.stopTask id

variable [Double R] {img : Imaging R} {lib : Nlohmann R} {s t : PendingSystem R}
  {a : PendingAction R}

def Shrunk (old new : PendingTable R) : Prop := new.entries.Sublist old.entries

/-- A quiet step publishes and inserts nothing. -/
inductive Effect (a : PendingAction R) (s t : PendingSystem R) : Prop where
  | quiet (table : Shrunk s.module.pending t.module.pending) (inFlight : t.inFlight = s.inFlight)
      (sent : t.sent = s.sent) (entered : t.entered = s.entered) (sentIds : t.sentIds = s.sentIds)
      (clock : s.clock ≤ t.clock)
  | published (m : PreprocessModule R) (p : PairInFlight R) (ids : a.ids = [p.transactionId])
      (table : m.pending = s.module.pending) (result : t = s.publish m p)
  | inserted (p : PairInFlight R) (action : a = .insert) (inFlight : s.inFlight = some p)
      (result : t = { s with module := s.module.insertPending s.clock p, inFlight := none,
                             entered := s.entered ++ [p.entry s.module.subTask s.clock] })
  | started (table : t.module.pending = ∅) (inFlight : t.inFlight = none) (sent : t.sent = [])
      (entered : t.entered = []) (sentIds : t.sentIds = s.sentIds)

omit [Double R] in
theorem Shrunk.of_eq {old new : PendingTable R} (h : new = old) : Shrunk old new := by
  rw [h]
  exact List.Sublist.refl _

omit [Double R] in
theorem Shrunk.lookup {old new : PendingTable R} (h : Shrunk old new) {k : String}
    {e : PendingRequest R} (hk : new.lookup k = some e) : old.lookup k = some e :=
  AList.mem_lookup_iff.2 (h.subset (AList.mem_lookup_iff.1 hk))

omit [Double R] in
theorem Shrunk.length_keys {old new : PendingTable R} (h : Shrunk old new) :
    new.keys.length ≤ old.keys.length :=
  (h.map Sigma.fst).length_le

theorem shrunk_onAiResult (now : ℕ) (resp : DetectionResponse R) (m : PreprocessModule R) :
    Shrunk m.pending (m.onAiResult lib now resp).1.pending := by
  rw [onAiResult_pending]
  by_cases hp : m.pending = ∅
  · rw [hp, takePending_empty]
    exact .of_eq rfl
  · obtain ⟨k, e, -, -, htake⟩ := takePending_spec now resp.transactionId hp
    rw [htake]
    exact List.kerase_sublist k m.pending.entries

theorem onAiResult_shrinks (now : ℕ) (resp : DetectionResponse R) (m : PreprocessModule R)
    {k : String} {e : PendingRequest R}
    (h : (m.onAiResult lib now resp).1.pending.lookup k = some e) :
    m.pending.lookup k = some e :=
  (shrunk_onAiResult now resp m).lookup h

omit [Double R] in
theorem joined_pending {m : PreprocessModule R} (h : s.joined = some m) :
    s.inFlight = none ∧ m.pending = s.module.pending := by
  unfold joined at h
  split at h
  · rename_i hf
    obtain ⟨⟨m', b⟩, hj, rfl⟩ := Option.map_eq_some_iff.1 h
    refine ⟨Option.isNone_iff_eq_none.1 hf, ?_⟩
    unfold PreprocessModule.join at hj
    split at hj
    · cases hj
      rfl
    · cases hj
      rfl
    · split at hj
      · cases hj
      · cases hj
        rfl
  · cases h

omit [Double R] in
theorem effect_startTask {start : PreprocessModule R → PreprocessModule R}
    (hempty : ∀ m, (start m).pending = ∅) (h : s.startTask start = some t) : Effect a s t := by
  obtain ⟨m, hj, rfl⟩ := Option.map_eq_some_iff.1 h
  exact .started (hempty m) (joined_pending hj).1 rfl rfl rfl

omit [Double R] in
theorem effect_stopTask (finish : PreprocessModule R → PreprocessModule R)
    (hsame : ∀ m, (finish m).pending = m.pending) (h : s.stopTask finish = some t) :
    Effect a s t := by
  obtain ⟨m, hj, rfl⟩ := Option.map_eq_some_iff.1 h
  exact .quiet (.of_eq ((hsame m).trans (joined_pending hj).2)) rfl rfl rfl rfl le_rfl

theorem effect_of_step (h : s.step img lib a = some t) : Effect a s t := by
  have hquiet {m : PreprocessModule R} (hm : m.pending = s.module.pending) :
      Effect a s { s with module := m } := .quiet (.of_eq hm) rfl rfl rfl rfl le_rfl
  cases a <;> simp only [step] at h
  case tick elapsed =>
    cases h
    exact .quiet (.of_eq rfl) rfl rfl rfl rfl (Nat.le_add_right _ _)
  case publishPair ts left right wd =>
    split at h
    · cases hpub : s.module.publishPair img ts left right wd with
      | none =>
        rw [hpub] at h
        cases h
        exact hquiet rfl
      | some x =>
        rw [hpub] at h
        cases h
        obtain ⟨hid, htable⟩ := publishPair_pair hpub
        exact .published x.1 x.2.pair (congrArg ([·]) hid.symm) htable rfl
    · cases h
  case publishFile ts l r =>
    split at h
    · cases h
      exact .published (s.module.publishFile img ts l r).1 _ rfl rfl rfl
    · cases h
  case insert =>
    obtain ⟨p, hp, rfl⟩ := Option.map_eq_some_iff.1 h
    exact .inserted p rfl hp rfl
  case deliver resp =>
    cases h
    exact .quiet (shrunk_onAiResult _ _ _) rfl rfl rfl rfl le_rfl
  case clearPending =>
    cases h
    exact .quiet (List.nil_sublist _) rfl rfl rfl rfl le_rfl
  case loopEnds =>
    split at h
    · cases h
      exact hquiet rfl
    · cases h
  case startInspection path => exact effect_startTask (fun _ => rfl) h
  case startAiTest data path found => exact effect_startTask (fun _ => rfl) h
  case stopInspection => exact effect_stopTask finishInspection (fun _ => rfl) h
  case stopAiTest => exact effect_stopTask finishAiTest (fun _ => rfl) h
  case stop => exact effect_stopTask id (fun _ => rfl) h
  all_goals
    cases h
    exact hquiet rfl

/-- Every entry of the table was inserted in the current task, for a pair published
in it. -/
structure Tracked (s : PendingSystem R) : Prop where
  pending : ∀ k e, s.module.pending.lookup k = some e → e.transactionId = k ∧ e ∈ s.entered
  entered : ∀ e ∈ s.entered, ∃ p ∈ s.sent, e = p.entry e.subTask e.createdAt
  inFlight : ∀ p, s.inFlight = some p → p ∈ s.sent
  ids : (s.sent.map PairInFlight.transactionId).Sublist s.sentIds

omit [Double R] in
theorem tracked_of_shrink (hs : Tracked s)
    (hp : ∀ k e, t.module.pending.lookup k = some e → s.module.pending.lookup k = some e)
    (hf : t.inFlight = s.inFlight) (hsent : t.sent = s.sent) (hent : t.entered = s.entered)
    (hids : t.sentIds = s.sentIds) : Tracked t := by
  refine ⟨?_, ?_, ?_, ?_⟩
  · rw [hent]
    exact fun k e h => hs.pending k e (hp k e h)
  · rw [hent, hsent]
    exact hs.entered
  · rw [hf, hsent]
    exact hs.inFlight
  · rw [hsent, hids]
    exact hs.ids

omit [Double R] in
theorem tracked_publish (hs : Tracked s) {m : PreprocessModule R} (p : PairInFlight R)
    (hm : m.pending = s.module.pending) : Tracked (s.publish m p) := by
  refine ⟨?_, ?_, ?_, ?_⟩
  · intro k e hk
    change m.pending.lookup k = some e at hk
    rw [hm] at hk
    exact hs.pending k e hk
  · intro e he
    obtain ⟨q, hq, heq⟩ := hs.entered e he
    exact ⟨q, List.mem_append_left _ hq, heq⟩
  · intro q hq
    obtain rfl : p = q := Option.some.inj hq
    exact List.mem_append_right _ List.mem_cons_self
  · change ((s.sent ++ [p]).map _).Sublist (s.sentIds ++ [p.transactionId])
    rw [List.map_append]
    exact hs.ids.append (List.Sublist.refl _)

omit [Double R] in
theorem tracked_insert (hs : Tracked s) {p : PairInFlight R} (hp : s.inFlight = some p) :
    Tracked { s with module := s.module.insertPending s.clock p, inFlight := none,
                     entered := s.entered ++ [p.entry s.module.subTask s.clock] } := by
  refine ⟨?_, ?_, ?_, hs.ids⟩
  · intro k e hk
    rcases insertPending_lookup hk with ⟨rfl, rfl⟩ | hk
    · exact ⟨rfl, List.mem_append_right _ List.mem_cons_self⟩
    · obtain ⟨hid, hmem⟩ := hs.pending k e hk
      exact ⟨hid, List.mem_append_left _ hmem⟩
  · intro e he
    rcases List.mem_append.1 he with he | he
    · exact hs.entered e he
    · rw [List.mem_singleton.1 he]
      refine ⟨p, hs.inFlight p hp, ?_⟩
      cases hf : p.fromFile <;> simp [PairInFlight.entry, hf]
  · intro q hq
    cases hq

omit [Double R] in
theorem tracked_of_empty (hp : t.module.pending = ∅) (hf : t.inFlight = none) (hsent : t.sent = [])
    (hent : t.entered = []) : Tracked t := by
  refine ⟨?_, ?_, ?_, ?_⟩
  · intro k e hk
    rw [hp, AList.lookup_empty] at hk
    cases hk
  · rw [hent]
    exact List.forall_mem_nil _
  · intro p hin
    rw [hf] at hin
    cases hin
  · rw [hsent]
    exact List.nil_sublist _

theorem tracked_step (hs : Tracked s) (h : s.step img lib a = some t) : Tracked t := by
  cases effect_of_step h with
  | quiet table inFlight sent entered sentIds clock =>
    exact tracked_of_shrink hs (fun _ _ hk => table.lookup hk) inFlight sent entered sentIds
  | published m p ids table result =>
    rw [result]
    exact tracked_publish hs p table
  | inserted p action inFlight result =>
    rw [result]
    exact tracked_insert hs inFlight
  | started table inFlight sent entered sentIds =>
    exact tracked_of_empty table inFlight sent entered

theorem sentIds_step (h : s.step img lib a = some t) :
    t.sentIds.Sublist (s.sentIds ++ a.ids) := by
  cases effect_of_step h with
  | quiet table inFlight sent entered sentIds clock =>
    rw [sentIds]
    exact List.sublist_append_left _ _
  | published m p ids table result =>
    rw [result, ids]
    exact List.Sublist.refl _
  | inserted p action inFlight result =>
    rw [result]
    exact List.sublist_append_left _ _
  | started table inFlight sent entered sentIds =>
    rw [sentIds]
    exact List.sublist_append_left _ _

/-- How the response is dealt with in a state where some request is outstanding:
`e` is the entry with its id or, where that id is not outstanding, with the smallest. -/
structure Attribution (lib : Nlohmann R) (s : PendingSystem R) (resp : DetectionResponse R)
    (e : PendingRequest R) : Prop where
  chosen : e.transactionId = resp.transactionId ∨ resp.transactionId ∉ s.module.pending ∧
    ∀ k ∈ s.module.pending, e.transactionId ≤ k
  outstanding : s.module.pending.lookup e.transactionId = some e
  current : e ∈ s.entered ∧ ∃ p ∈ s.sent, e = p.entry e.subTask e.createdAt ∧
    ∀ q ∈ s.sent, q.transactionId = e.transactionId → q = p
  removed : (s.module.onAiResult lib s.clock resp).1.pending =
    s.module.pending.erase e.transactionId
  stale : e.transactionId ≠ resp.transactionId → 30 * 10 ^ 9 < s.clock - e.createdAt →
    (s.module.onAiResult lib s.clock resp).2 = {}
  passed : (e.transactionId ≠ resp.transactionId → ¬ 30 * 10 ^ 9 < s.clock - e.createdAt) →
    (s.module.onAiResult lib s.clock resp).2.callback =
      if s.module.wired.callback then some (argsOf resp e) else none
  files : ∀ r ∈ (s.module.onAiResult lib s.clock resp).2.writes.requests,
    r.pairIndex = e.pairIndex
  chainFiles : ∀ vis ctx a, (s.module.onAiResult lib s.clock resp).2.callback = some a →
    ∀ r ∈ (resultCallback lib vis ctx a).2.2.requests, r.pairIndex = e.pairIndex

theorem attribution_of_tracked (hs : Tracked s)
    (hids : (s.sent.map PairInFlight.transactionId).Nodup) (resp : DetectionResponse R)
    (hne : s.module.pending ≠ ∅) : ∃ e, Attribution lib s resp e := by
  obtain ⟨k, e, hk, hchosen, htake⟩ := takePending_spec s.clock resp.transactionId hne
  obtain ⟨rfl, hmem⟩ := hs.pending k e hk
  obtain ⟨p, hp, hentry⟩ := hs.entered e hmem
  have hpid : p.transactionId = e.transactionId := by rw [hentry]; rfl
  have hout : s.module.onAiResult lib s.clock resp =
      if e.transactionId ≠ resp.transactionId ∧ 30 * 10 ^ 9 < s.clock - e.createdAt then
        ({ s.module with pending := s.module.pending.erase e.transactionId }, {})
      else ({ s.module with pending := s.module.pending.erase e.transactionId },
        s.module.handleResult lib (argsOf resp e)) := by
    rw [onAiResult, htake]
    split_ifs <;> rfl
  refine ⟨e, hchosen, hk, ⟨hmem, p, hp, hentry, ?_⟩, ?_, ?_, ?_, ?_, ?_⟩
  · intro q hq hqid
    exact List.inj_on_of_nodup_map hids hq hp (hqid.trans hpid.symm)
  · rw [hout]
    split_ifs <;> rfl
  · intro hid hage
    rw [hout, if_pos ⟨hid, hage⟩]
  · intro hfresh
    rw [hout, if_neg fun h => hfresh h.1 h.2]
    rfl
  · rw [hout]
    split_ifs
    · exact (Writes.indexed_nil e.pairIndex).requests
    · exact (resultWrites_filed lib s.module (argsOf resp e)).indexed.requests
  · intro vis ctx a ha
    have hargs : a = argsOf resp e := by
      rw [hout] at ha
      split_ifs at ha
      exact handleResult_callback ha
    rw [hargs]
    exact (resultCallback_indexed lib vis ctx (argsOf resp e)).requests

/-- Without an outstanding request the table stays empty and no image is passed on. -/
theorem unmatched_of_empty (resp : DetectionResponse R) (he : s.module.pending = ∅) :
    (s.module.onAiResult lib s.clock resp).1.pending = ∅ ∧
      ∀ a, (s.module.onAiResult lib s.clock resp).2.callback = some a →
        a.left.data = [] ∧ a.right.data = [] := by
  rw [onAiResult, he, takePending_empty]
  refine ⟨rfl, ?_⟩
  intro a ha
  rw [handleResult_callback ha]
  exact ⟨rfl, rfl⟩

omit [Double R] in
theorem tracked_init {m : PreprocessModule R} (hm : m.pending = ∅) :
    Tracked ({ module := m } : PendingSystem R) :=
  tracked_of_empty hm rfl rfl rfl

theorem response_attributed (img : Imaging R) (lib : Nlohmann R) {m : PreprocessModule R}
    {as : List (PendingAction R)} {s : PendingSystem R} (hm : m.pending = ∅)
    (hids : (as.flatMap PendingAction.ids).Nodup)
    (hr : run (step img lib) { module := m } as = some s) (resp : DetectionResponse R) :
    (s.module.pending ≠ ∅ → ∃ e, Attribution lib s resp e) ∧
    (s.module.pending = ∅ → (s.module.onAiResult lib s.clock resp).1.pending = ∅ ∧
      ∀ a, (s.module.onAiResult lib s.clock resp).2.callback = some a →
        a.left.data = [] ∧ a.right.data = []) := by
  have htracked : Tracked s := run_preserves (fun _ _ _ hI ht => tracked_step hI ht)
    (tracked_init hm) hr
  have hsent : s.sentIds.Sublist (as.flatMap PendingAction.ids) :=
    run_log_sublist sentIds (fun _ _ _ => sentIds_step) hr
  have hnodup : (s.sent.map PairInFlight.transactionId).Nodup :=
    hids.sublist (htracked.ids.trans hsent)
  exact ⟨attribution_of_tracked htracked hnodup resp, unmatched_of_empty resp⟩

def twoPairs : List (PendingAction ℤ) :=
  [.startInspection "database/r",
   .publishPair "20260702-101500-250" { data := [1] } {} 0, .insert,
   .publishPair "20260702-101500-350" { data := [2] } {} 0]

def secondResponse : DetectionResponse ℤ where
  transactionId := "20260702-101500-350"
  dealerId := "d"
  results := []

theorem fallback_counterexample :
    (twoPairs.flatMap PendingAction.ids).Nodup ∧
    ∃ s, run (step plainImaging (plainLib toString)) { module := { aiMode := .binary } } twoPairs =
        some s ∧
      secondResponse.transactionId ∉ s.module.pending ∧
      (s.module.onAiResult (plainLib toString) s.clock secondResponse).1.pending ≠
        s.module.pending ∧
      ∃ p ∈ s.sent, p.transactionId = secondResponse.transactionId ∧
      ∃ a, (s.module.onAiResult (plainLib toString) s.clock secondResponse).2.callback = some a ∧
        a.transactionId = p.transactionId ∧ a.left ≠ p.left ∧ a.pairIndex ≠ p.pairIndex := by
  refine ⟨by decide, _, rfl, by decide, ?_, _, List.mem_cons_of_mem _ List.mem_cons_self, rfl, _,
    rfl, rfl, by decide, by decide⟩
  intro h
  exact absurd (congrArg (fun p => p.keys.length) h) (by decide)

def twoPairsState : PendingSystem ℤ :=
  (run (step plainImaging (plainLib toString)) { module := { aiMode := .binary } } twoPairs).get rfl

theorem response_attributed_twoPairs :
    ∃ e, Attribution (plainLib toString) twoPairsState secondResponse e := by
  have hrun : run (step plainImaging (plainLib toString)) { module := { aiMode := .binary } }
      twoPairs = some twoPairsState := (Option.some_get _).symm
  refine (response_attributed plainImaging (plainLib toString) rfl (by decide) hrun
    secondResponse).1 ?_
  intro h
  exact absurd (congrArg (fun p => p.keys.length) h) (by decide)

end PendingSystem

end EcidsCore
