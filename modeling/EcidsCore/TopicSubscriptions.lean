import EcidsCore.ConnectionRelease
import EcidsCore.WssServer
import Mathlib.Data.List.Induction
import Mathlib.Data.List.Nodup

set_option autoImplicit false

/-! The topics of the connections of the WebSocket server, and whom a broadcast goes to. -/
namespace EcidsCore
open ByteText GuardedRuns WssServer

variable {R : Type}

namespace Subscription

/-- The loop over `topics` ends at the first item that is no string, by the exception of its
conversion; what was pushed before that stays. -/
def pushTopics (topics : List String) : List (Json R) → List String
  | .string t :: rest => pushTopics (topics ++ [t]) rest
  | _ => topics

def eraseTopics (topics : List String) : List (Json R) → List String
  | .string t :: rest => eraseTopics (topics.filter (· ≠ t)) rest
  | _ => topics

/-- One message of `client_loop_`; every exception is swallowed. -/
def process (lib : Nlohmann R) (topics : List String) (msg : Bytes) : List String :=
  match lib.parse msg with
  | .error _ => topics
  | .ok j =>
    match j.valueString lib "action" "", (j.member? "topics").bind Json.items? with
    | .ok action, some items =>
      if action = "subscribe" then pushTopics topics items
      else if action = "unsubscribe" then eraseTopics topics items
      else topics
    | _, _ => topics

def subscribed (topics : List String) (topic : String) : Bool :=
  topics.any fun t => t = topic ∨ t = "core/*"

def request? (lib : Nlohmann R) (msg : Bytes) : Option (String × List (Json R)) :=
  match lib.parse msg with
  | .ok j =>
    match j.member? "action", (j.member? "topics").bind Json.items? with
    | some (.string action), some items => some (action, items)
    | _, _ => none
  | .error _ => none

def leading : List (Json R) → List String
  | .string t :: rest => t :: leading rest
  | _ => []

def OnlyStrings (items : List (Json R)) : Prop := ∀ j ∈ items, ∃ t, j = .string t

open Classical in
noncomputable def apply (lib : Nlohmann R) (topics : Set String) (msg : Bytes) : Set String :=
  match request? lib msg with
  | some (action, items) =>
    if OnlyStrings items then
      if action = "subscribe" then topics ∪ {t | .string t ∈ items}
      else if action = "unsubscribe" then topics \ {t | .string t ∈ items}
      else topics
    else topics
  | none => topics

def topicsAfter (lib : Nlohmann R) (msgs : List Bytes) : List String :=
  msgs.foldl (process lib) []

noncomputable def wanted (lib : Nlohmann R) (msgs : List Bytes) : Set String :=
  msgs.foldl (apply lib) ∅

def AsWanted (lib : Nlohmann R) (msgs : List Bytes) : Prop :=
  ∀ before rest, msgs = before ++ rest → {t | t ∈ topicsAfter lib before} = wanted lib before

def Fine (lib : Nlohmann R) (topics : List String) (msg : Bytes) : Prop :=
  ∀ action items, request? lib msg = some (action, items) → OnlyStrings items ∨
    (action = "subscribe" → ∀ t ∈ leading items, t ∈ topics) ∧
      (action = "unsubscribe" → ∀ t ∈ leading items, t ∉ topics)

def AllFine (lib : Nlohmann R) (msgs : List Bytes) : Prop :=
  ∀ before msg rest, msgs = before ++ msg :: rest → Fine lib (topicsAfter lib before) msg

variable {lib : Nlohmann R}

theorem leading_eq_nil {items : List (Json R)}
    (h : ∀ t rest, items = .string t :: rest → False) : leading items = [] := by
  cases items with
  | nil => rfl
  | cons j rest =>
    cases j with
    | string t => exact absurd rfl (h t rest)
    | _ => rfl

theorem pushTopics_eq (topics : List String) (items : List (Json R)) :
    pushTopics topics items = topics ++ leading items := by
  fun_induction pushTopics topics items with
  | case1 topics t rest ih => rw [ih, leading, List.append_assoc, List.singleton_append]
  | case2 topics items h => rw [leading_eq_nil h, List.append_nil]

theorem eraseTopics_eq (topics : List String) (items : List (Json R)) :
    eraseTopics topics items = topics.filter (· ∉ leading items) := by
  fun_induction eraseTopics topics items with
  | case1 topics t rest ih =>
    rw [ih, List.filter_filter, leading]
    refine List.filter_congr fun x _ => ?_
    simp [Bool.and_comm]
  | case2 topics items h => simp [leading_eq_nil h]

theorem mem_leading_of_onlyStrings {items : List (Json R)} (h : OnlyStrings items) (t : String) :
    t ∈ leading items ↔ .string t ∈ items := by
  induction items with
  | nil => simp [leading]
  | cons j rest ih =>
    obtain ⟨u, rfl⟩ := h j List.mem_cons_self
    rw [leading, List.mem_cons, List.mem_cons, ih fun k hk => h k (List.mem_cons_of_mem _ hk)]
    simp

theorem process_none {topics : List String} {msg : Bytes} (h : request? lib msg = none) :
    process lib topics msg = topics := by
  unfold request? at h
  unfold process
  cases hparse : lib.parse msg with
  | error e => rfl
  | ok j =>
    rw [hparse] at h
    dsimp only at h ⊢
    cases hitems : (j.member? "topics").bind Json.items? with
    | none => split <;> simp_all
    | some items =>
      rw [hitems] at h
      unfold Json.valueString Json.valueOr
      split
      · rename_i action items' haction heq
        cases heq
        split at haction
        · cases hmember : j.member? "action" with
          | none =>
            rw [hmember] at haction
            cases haction
            rfl
          | some v =>
            rw [hmember] at haction h
            cases v <;> simp_all [Json.getString]
        · cases haction
      · rfl

theorem process_some {topics : List String} {msg : Bytes} {action : String}
    {items : List (Json R)} (h : request? lib msg = some (action, items)) :
    process lib topics msg =
      if action = "subscribe" then topics ++ leading items
      else if action = "unsubscribe" then topics.filter (· ∉ leading items)
      else topics := by
  rw [← pushTopics_eq, ← eraseTopics_eq]
  unfold request? at h
  unfold process
  cases hparse : lib.parse msg with
  | error e =>
    rw [hparse] at h
    cases h
  | ok j =>
    rw [hparse] at h
    dsimp only at h ⊢
    split at h
    · rename_i action' items' haction hitems
      cases h
      have hobject : j.isObject = true := by
        cases j <;> first | rfl | cases haction
      have hvalue : j.valueString lib "action" "" = .ok action := by
        rw [Json.valueString, Json.valueOr, if_pos hobject, haction]
        rfl
      rw [hvalue, hitems]
    · cases h

theorem process_iff (topics : List String) (msg : Bytes) :
    {t | t ∈ process lib topics msg} = apply lib {t | t ∈ topics} msg ↔ Fine lib topics msg := by
  unfold apply Fine
  cases hrequest : request? lib msg with
  | none => simp [process_none hrequest]
  | some request =>
    obtain ⟨action, items⟩ := request
    have hfine : (∀ a is, some (action, items) = some (a, is) → OnlyStrings is ∨
        (a = "subscribe" → ∀ t ∈ leading is, t ∈ topics) ∧
          (a = "unsubscribe" → ∀ t ∈ leading is, t ∉ topics)) ↔
        OnlyStrings items ∨ (action = "subscribe" → ∀ t ∈ leading items, t ∈ topics) ∧
          (action = "unsubscribe" → ∀ t ∈ leading items, t ∉ topics) :=
      ⟨fun h => h action items rfl, fun h a is heq => by cases heq; exact h⟩
    rw [process_some hrequest, hfine]
    dsimp only
    by_cases hstrings : OnlyStrings items
    · have hleading := mem_leading_of_onlyStrings hstrings
      rw [if_pos hstrings]
      refine iff_of_true ?_ (.inl hstrings)
      split_ifs
      · ext t
        simp [hleading]
      · ext t
        simp [hleading]
      · rfl
    · rw [if_neg hstrings, or_iff_right hstrings]
      by_cases hsub : action = "subscribe"
      · have hname : "subscribe" ≠ "unsubscribe" := by decide
        rw [hsub, if_pos rfl]
        simp [hname, Set.ext_iff, or_iff_left_iff_imp]
      · by_cases hunsub : action = "unsubscribe"
        · have hname : "unsubscribe" ≠ "subscribe" := by decide
          rw [hunsub, if_neg hname, if_pos rfl]
          simp only [Set.ext_iff, Set.mem_ofPred_eq, List.mem_filter, decide_eq_true_eq,
            and_iff_left_iff_imp]
          exact ⟨fun h => ⟨fun heq => absurd heq hname, fun _ t ht hin => h t hin ht⟩,
            fun h t hin ht => h.2 trivial t ht hin⟩
        · simp [hsub, hunsub]

theorem topicsAfter_append (before : List Bytes) (msg : Bytes) :
    topicsAfter lib (before ++ [msg]) = process lib (topicsAfter lib before) msg := by
  simp [topicsAfter, List.foldl_append]

theorem wanted_append (before : List Bytes) (msg : Bytes) :
    wanted lib (before ++ [msg]) = apply lib (wanted lib before) msg := by
  simp [wanted, List.foldl_append]

theorem asWanted_iff (msgs : List Bytes) : AsWanted lib msgs ↔ AllFine lib msgs := by
  constructor
  · intro hright before msg rest hmsgs
    rw [← process_iff, hright before (msg :: rest) hmsgs, ← topicsAfter_append, ← wanted_append]
    exact hright (before ++ [msg]) rest (by simp [hmsgs])
  · intro hfine before
    induction before using List.reverseRecOn with
    | nil => intro rest _; ext t; simp [topicsAfter, wanted]
    | append_singleton before msg ih =>
      intro rest hmsgs
      have hmsgs' : msgs = before ++ msg :: rest := by simp [hmsgs]
      rw [topicsAfter_append, wanted_append, ← ih (msg :: rest) hmsgs', process_iff]
      exact hfine before msg rest hmsgs'

theorem subscribed_iff {msgs : List Bytes} (h : AllFine lib msgs) (topic : String) :
    subscribed (topicsAfter lib msgs) topic = true ↔
      topic ∈ wanted lib msgs ∨ "core/*" ∈ wanted lib msgs := by
  have hset := (asWanted_iff msgs).2 h msgs [] (by simp)
  rw [← hset, subscribed, List.any_eq_true]
  simp only [decide_eq_true_eq, Set.mem_ofPred_eq]
  constructor
  · rintro ⟨t, ht, rfl | rfl⟩
    · exact .inl ht
    · exact .inr ht
  · rintro (ht | ht)
    · exact ⟨topic, ht, .inl rfl⟩
    · exact ⟨"core/*", ht, .inr rfl⟩

end Subscription

/-- The connections with their topics; `read` logs the messages that each has processed. -/
structure TopicServer where
  conns : WssConnections := {}
  topics : ℕ → List String := fun _ => []
  read : ℕ → List Bytes := fun _ => []

/-- A `poll` of the connections alone is one without a message, or a read that failed. -/
inductive TopicAction where
  | conn (a : WssAction)
  | receive (i : ℕ) (msg : Bytes)

namespace TopicServer
open Subscription

variable (lib : Nlohmann R)

def step (s : TopicServer) : TopicAction → Option TopicServer
  | .conn a => (s.conns.step a).map fun conns => { s with conns }
  | .receive i msg =>
    match s.conns.phase i with
    | .poll c =>
      (s.conns.step (.poll i (msg = []))).map fun conns =>
        if msg = [] then { s with conns }
        else
          { conns := conns
            topics := Function.update s.topics c (process lib (s.topics c) msg)
            read := Function.update s.read c (s.read c ++ [msg]) }
    | _ => none

/-- Every listed connection has its SSL object. -/
def recipients (s : TopicServer) (topic : String) : List ℕ :=
  s.conns.clients.filter fun c => s.conns.alive c && subscribed (s.topics c) topic

/-- The text of `broadcast_json`, which keeps data that cannot be parsed as a placeholder. -/
def jsonFrame (time : ℤ) (topic : String) (json : Bytes) : Bytes :=
  match lib.parse json with
  | .ok data =>
    lib.dump (.object [("data", data), ("topic", .string topic), ("ts_sec", .integer time)])
  | .error _ =>
    bytes "\x7b\"data\":<discarded>,\"topic\":" ++ lib.dump (.string topic) ++
      bytes ",\"ts_sec\":" ++ lib.dump (.integer time) ++ bytes "\x7d"

/-- What is sent to whom; the clock is read again for each connection. -/
def broadcastJson (now : ℕ → ℤ) (topic : String) (json : Bytes) (s : TopicServer) :
    List (ℕ × Bytes) :=
  (s.recipients topic).map fun c => (c, jsonFrame lib (now c) topic json)

def broadcastBinary (topic : String) (data headerJson : Bytes) (s : TopicServer) :
    List (ℕ × Bytes) :=
  (s.recipients topic).map fun c => (c, broadcastPayload headerJson data)

def sentTo (c : ℕ) (sent : List (ℕ × Bytes)) : ℕ := sent.countP fun m => m.1 = c

variable {lib}

structure Kept (lib : Nlohmann R) (s : TopicServer) : Prop where
  topics : ∀ c, s.topics c = topicsAfter lib (s.read c)
  listed : ∀ c ∈ s.conns.clients, c < s.conns.accepted
  nodup : s.conns.clients.Nodup

theorem listed_step {s t : WssConnections} {a : WssAction} (h : s.step a = some t)
    (hlisted : ∀ c ∈ s.clients, c < s.accepted) (hnodup : s.clients.Nodup) :
    (∀ c ∈ t.clients, c < t.accepted) ∧ t.clients.Nodup := by
  cases WssConnections.effect_of_step h with
  | accept fd =>
    constructor
    · intro c hc
      rcases List.mem_append.1 hc with hc | hc
      · exact Nat.lt_succ_of_lt (hlisted c hc)
      · rw [List.mem_singleton.1 hc]
        exact Nat.lt_succ_self _
    · refine List.nodup_append'.2 ⟨hnodup, List.nodup_singleton _, fun c hc hc' => ?_⟩
      rw [List.mem_singleton.1 hc'] at hc
      exact Nat.lt_irrefl _ (hlisted _ hc)
  | remove i c =>
    exact ⟨fun d hd => hlisted d (List.mem_of_mem_filter hd), hnodup.filter _⟩
  | stopClear => exact ⟨fun _ hc => absurd hc List.not_mem_nil, List.nodup_nil⟩
  | _ => exact ⟨hlisted, hnodup⟩

theorem kept_step {s t : TopicServer} {a : TopicAction} (hs : Kept lib s)
    (h : s.step lib a = some t) : Kept lib t := by
  cases a with
  | conn a =>
    obtain ⟨conns, hconns, rfl⟩ := Option.map_eq_some_iff.1 h
    obtain ⟨hlisted, hnodup⟩ := listed_step hconns hs.listed hs.nodup
    exact ⟨hs.topics, hlisted, hnodup⟩
  | receive i msg =>
    rw [step] at h
    split at h
    · rename_i c hphase
      obtain ⟨conns, hconns, rfl⟩ := Option.map_eq_some_iff.1 h
      obtain ⟨hlisted, hnodup⟩ := listed_step hconns hs.listed hs.nodup
      split
      · exact ⟨hs.topics, hlisted, hnodup⟩
      · refine ⟨fun d => ?_, hlisted, hnodup⟩
        by_cases hd : d = c
        · subst hd
          simp only [Function.update_self, topicsAfter_append, hs.topics]
        · simp only [Function.update_of_ne hd, hs.topics]
    · cases h

theorem sentTo_recipients {s : TopicServer} {c : ℕ} (hs : Kept lib s)
    (hc : c ∈ s.conns.clients) (halive : s.conns.alive c = true) (topic : String)
    (payload : ℕ → Bytes) :
    sentTo c ((s.recipients topic).map fun d => (d, payload d)) =
      if subscribed (s.topics c) topic = true then 1 else 0 := by
  have hcount : sentTo c ((s.recipients topic).map fun d => (d, payload d)) =
      (s.recipients topic).count c := by
    rw [sentTo, List.countP_map, List.count]
    exact List.countP_congr fun d _ => by simp
  rw [hcount, recipients]
  by_cases hsub : subscribed (s.topics c) topic = true
  · rw [if_pos hsub, List.count_filter (by simp [halive, hsub])]
    exact List.count_eq_one_of_mem hs.nodup hc
  · rw [if_neg hsub, List.count_eq_zero]
    intro hmem
    simp [hsub] at hmem

theorem kept_run {s : TopicServer} {as : List TopicAction}
    (h : run (step lib) {} as = some s) : Kept lib s :=
  run_invariant (P := fun _ _ => True) (fun _ _ _ hs _ hstep => kept_step hs hstep)
    ⟨fun _ => rfl, fun _ hc => absurd hc List.not_mem_nil, List.nodup_nil⟩ (along_of_forall (fun _ _ => trivial) _ _) h

/-- In every run, for a connection that is attached: its topics are those that were asked for
as long as no half-read list has changed them, and then each broadcast finds it just once or
not at all. -/
theorem broadcast_run {s : TopicServer} {as : List TopicAction}
    (h : run (step lib) {} as = some s) :
    ∀ c ∈ s.conns.clients, s.conns.alive c = true →
      (AsWanted lib (s.read c) ↔ AllFine lib (s.read c)) ∧
      (AllFine lib (s.read c) → ∀ topic now json data headerJson,
        (topic ∈ wanted lib (s.read c) ∨ "core/*" ∈ wanted lib (s.read c) →
          sentTo c (s.broadcastJson lib now topic json) = 1 ∧
            sentTo c (s.broadcastBinary topic data headerJson) = 1) ∧
        (¬ (topic ∈ wanted lib (s.read c) ∨ "core/*" ∈ wanted lib (s.read c)) →
          sentTo c (s.broadcastJson lib now topic json) = 0 ∧
            sentTo c (s.broadcastBinary topic data headerJson) = 0)) := by
  intro c hc halive
  have hkept := kept_run h
  refine ⟨asWanted_iff _, fun hfine topic now json data headerJson => ?_⟩
  rw [broadcastJson, broadcastBinary, sentTo_recipients hkept hc halive,
    sentTo_recipients hkept hc halive, hkept.topics, ← subscribed_iff hfine]
  exact ⟨fun hsub => by simp [hsub], fun hsub => by simp [hsub]⟩

def afterMessage (msg : Bytes) : List TopicAction :=
  [.conn .acceptTest, .conn (.accept 7), .conn .spawn, .conn (.lookup 0), .conn (.test 0),
    .receive 0 msg, .conn (.test 0)]

def subscribeText (items : String) : Bytes :=
  bytes ("\x7b\"action\":\"subscribe\",\"topics\":[" ++ items ++ "]\x7d")

def subscribeLib (items : String) (topics : List (Json ℤ)) : Nlohmann ℤ :=
  tableLib [(subscribeText items,
    .object [("action", .string "subscribe"), ("topics", .array topics)])]

theorem request_subscribe (items : String) (topics : List (Json ℤ)) :
    request? (subscribeLib items topics) (subscribeText items) = some ("subscribe", topics) := by
  simp [request?, subscribeLib, tableLib, Json.member?, Json.items?]

theorem broadcast_run_strings : ∃ s,
    run (step (subscribeLib "\"a\"" [.string "a"])) {} (afterMessage (subscribeText "\"a\"")) =
      some s ∧ sentTo 0 (s.broadcastBinary "a" [1, 2] []) = 1 := by
  refine ⟨_, rfl, ?_⟩
  have hreached : run (step (subscribeLib "\"a\"" [.string "a"])) {}
      (afterMessage (subscribeText "\"a\"")) = some _ := rfl
  have hrun := broadcast_run hreached 0 (by decide) rfl
  have hfine : AllFine (subscribeLib "\"a\"" [.string "a"]) [subscribeText "\"a\""] := by
    intro before msg rest hmsgs action items hrequest
    obtain rfl : msg = subscribeText "\"a\"" :=
      List.mem_singleton.1 (hmsgs ▸ List.mem_append_right _ List.mem_cons_self)
    rw [request_subscribe] at hrequest
    cases hrequest
    exact .inl (by simp [OnlyStrings])
  have hwanted : "a" ∈ wanted (subscribeLib "\"a\"" [.string "a"]) [subscribeText "\"a\""] := by
    simp [wanted, apply, request_subscribe, OnlyStrings]
  exact ((hrun.2 hfine "a" (fun _ => 0) [] [1, 2] []).1 (.inl hwanted)).2

/-- The topic in front of the number stays, though the message is not well-formed. -/
theorem broadcast_run_number : ∃ s,
    run (step (subscribeLib "\"a\",5" [.string "a", .integer 5])) {}
      (afterMessage (subscribeText "\"a\",5")) = some s ∧
    sentTo 0 (s.broadcastBinary "a" [1, 2] []) = 1 ∧
    "a" ∉ wanted (subscribeLib "\"a\",5" [.string "a", .integer 5]) (s.read 0) ∧
    "core/*" ∉ wanted (subscribeLib "\"a\",5" [.string "a", .integer 5]) (s.read 0) := by
  refine ⟨_, rfl, rfl, ?_⟩
  have hwanted : wanted (subscribeLib "\"a\",5" [.string "a", .integer 5])
      [subscribeText "\"a\",5"] = ∅ := by
    simp [wanted, apply, request_subscribe, OnlyStrings]
  exact ⟨fun h => (hwanted ▸ h : "a" ∈ (∅ : Set String)),
    fun h => (hwanted ▸ h : "core/*" ∈ (∅ : Set String))⟩

end TopicServer
end EcidsCore
