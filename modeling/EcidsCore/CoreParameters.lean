import EcidsCore.ConfigSetters
import EcidsCore.StartFailure

set_option autoImplicit false

/-! What a `SetParameter` request for the core node does to the configuration: how far its
list of parameters gets, and what is read back of them. -/
namespace EcidsCore
open ByteText ExceptRules ConfigManager ConfigManager.InPlace

variable {R : Type}

/-- The list of parameters that a request names. -/
def requestParameters (req : Json R) : List (Json R) :=
  ((req.member? "parameters").bind Json.items?).getD []

def applyParameters (lib : Nlohmann R) (ps : List (Json R)) (c : Core R) : Except Exc (Core R) :=
  ps.foldlM (fun c p => setCoreParameter lib p c) c

theorem setCoreParameters_cases (lib : Nlohmann R) (ps : List (Json R)) (c : Core R) :
    (∃ c', setCoreParameters lib ps c = (none, c') ∧ applyParameters lib ps c = .ok c') ∨
      ∃ before p after e c', ps = before ++ p :: after ∧ setCoreParameters lib ps c = (some e, c') ∧
        applyParameters lib before c = .ok c' ∧ setCoreParameter lib p c' = .error e := by
  induction ps generalizing c with
  | nil => exact .inl ⟨c, rfl, rfl⟩
  | cons p ps ih =>
    rw [setCoreParameters]
    cases hp : setCoreParameter lib p c with
    | error e => exact .inr ⟨[], p, ps, e, c, rfl, rfl, rfl, hp⟩
    | ok c1 =>
      have happly (qs : List (Json R)) :
          applyParameters lib (p :: qs) c = applyParameters lib qs c1 := by
        rw [applyParameters, List.foldlM_cons, hp]
        rfl
      rcases ih c1 with ⟨c', hset, hall⟩ | ⟨before, q, after, e, c', hps, hset, hbefore, hq⟩
      · exact .inl ⟨c', hset, (happly ps).trans hall⟩
      · refine .inr ⟨p :: before, q, after, e, c', ?_, hset, (happly before).trans hbefore, hq⟩
        rw [hps, List.cons_append]

theorem applyParameters_append {lib : Nlohmann R} {ps qs : List (Json R)} {c c' : Core R}
    (h : applyParameters lib (ps ++ qs) c = .ok c') :
    ∃ c1, applyParameters lib ps c = .ok c1 ∧ applyParameters lib qs c1 = .ok c' := by
  rw [applyParameters, List.foldlM_append] at h
  exact bind_ok h

variable {env : Env R} {body : Bytes} {c : Core R}

theorem setParameter_core_eq {req : Json R} (h : moduleOf env.lib body = .ok (req, "core")) :
    setParameter env body c =
      ((setCoreParameters env.lib (requestParameters req) c).1.elim
          (guarded env.lib "" (makeResponse env.lib 0 (bytes "Core parameters updated")))
          (fun e => guarded env.lib "" (.error e)),
        (setCoreParameters env.lib (requestParameters req) c).2) := by
  rw [setParameter, h, requestParameters]
  dsimp only
  rw [if_pos rfl]
  generalize setCoreParameters env.lib _ c = r
  obtain ⟨threw, c'⟩ := r
  cases threw <;> rfl

theorem setParameter_other (h : ∀ req, moduleOf env.lib body ≠ .ok (req, "core")) :
    (setParameter env body c).2 = c := by
  unfold setParameter
  split
  · rfl
  · rename_i req name hreq
    split_ifs with hcore
    · rw [hcore] at hreq
      exact absurd hreq (h req)
    · rfl
    · rfl
    · rfl

theorem updated_reply (lib : Nlohmann R) : ∃ text,
    guarded lib "" (makeResponse lib 0 (bytes "Core parameters updated")) = .reply ⟨some 0, text⟩ := by
  have hvalid : ValidUtf8 (bytes "Core parameters updated") := validUtf8_bytes _
  obtain ⟨text, hr⟩ := makeResponse_ok lib 0 hvalid (validUtf8_bytes "\x7b\x7d")
  refine ⟨text, ?_⟩
  rw [hr]
  rfl

/-- A body that is no request for the core node has done nothing, and a request has applied
exactly the parameters in front of the first one that cannot be applied. -/
def StoppedAtFirst (env : Env R) (body : Bytes) (c : Core R) : Prop :=
  (∀ req, moduleOf env.lib body ≠ .ok (req, "core")) ∧ (setParameter env body c).2 = c ∨
    ∃ req before p after e, moduleOf env.lib body = .ok (req, "core") ∧
      requestParameters req = before ++ p :: after ∧
      applyParameters env.lib before c = .ok (setParameter env body c).2 ∧
      setCoreParameter env.lib p (setParameter env body c).2 = .error e

theorem refused_after_prefix {code : ℤ} {text : Bytes}
    (hans : (setParameter env body c).1 = .reply ⟨some code, text⟩) (hcode : code ≠ 0) :
    StoppedAtFirst env body c := by
  by_cases hreq : ∃ req, moduleOf env.lib body = .ok (req, "core")
  · obtain ⟨req, hreq⟩ := hreq
    rw [StoppedAtFirst]
    rw [setParameter_core_eq hreq] at hans ⊢
    rcases setCoreParameters_cases env.lib (requestParameters req) c with ⟨c', hset, -⟩ |
      ⟨before, p, after, e, c', hps, hset, hbefore, hp⟩
    · obtain ⟨text', hupdated⟩ := updated_reply env.lib
      rw [hset] at hans
      have hzero := hupdated.symm.trans hans
      cases hzero
      exact absurd rfl hcode
    · rw [hset]
      exact .inr ⟨req, before, p, after, e, hreq, hps, hbefore, hp⟩
  · have hother : ∀ req, moduleOf env.lib body ≠ .ok (req, "core") := fun req h => hreq ⟨req, h⟩
    exact .inl ⟨hother, setParameter_other hother⟩

def partlyApplied : Bytes := bytes ("\x7b\"parameters\":[" ++
  "\x7b\"key\":\"processing_paused\",\"value\":\"false\"\x7d," ++
  "\x7b\"key\":\"a\",\"value\":\"1\"\x7d,\x7b\"key\":\"a.b\",\"value\":\"2\"\x7d]\x7d")

def stringParameter (key value : String) : Json ℤ :=
  .object [("key", .string key), ("value", .string value)]

def partlyAppliedRequest : Json ℤ :=
  .object [("parameters", .array [stringParameter "processing_paused" "false",
    stringParameter "a" "1", stringParameter "a.b" "2"])]

def partlyEnv : Env ℤ := plainEnv [(partlyApplied, partlyAppliedRequest)]

theorem refused_after_prefix_partly : StoppedAtFirst partlyEnv partlyApplied bootCore := by
  have hans : (setParameter partlyEnv partlyApplied bootCore).1 = .reply ⟨some 1, _⟩ := rfl
  exact refused_after_prefix hans (by decide)

/-- The answer is an error, and the first two parameters are set. -/
theorem partly_applied_counterexample :
    (∃ text, (setParameter partlyEnv partlyApplied bootCore).1 = .reply ⟨some 1, text⟩) ∧
      bootCore.processingPaused = true ∧
      (setParameter partlyEnv partlyApplied bootCore).2.processingPaused = false ∧
      getString bootCore.config "a" "" = "" ∧
      getString (setParameter partlyEnv partlyApplied bootCore).2.config "a" "" = "1" :=
  ⟨⟨_, rfl⟩, by decide, by decide, by decide, by decide⟩

/-- Where the handler writes the value of a parameter of this name. -/
def writtenPath (name : String) : Option (List String) :=
  if name = "ai_mode" then some (segments "api2a.ai_mode")
  else if name = "processing_paused" ∨ name = "" then none
  else some (segments name)

def Spares (lib : Nlohmann R) (ss : List String) (p : Json R) : Prop :=
  ∀ name, parameterName lib p = .ok name → ∀ ts, writtenPath name = some ts → Apart ts ss

theorem writtenPath_ne_nil {name : String} {ts : List String} (h : writtenPath name = some ts) :
    ts ≠ [] := by
  unfold writtenPath at h
  split_ifs at h with hai hskip
  · cases h
    decide
  · cases h
    exact segments_ne_nil (not_or.1 hskip).2

theorem setCoreParameter_config {lib : Nlohmann R} {p : Json R} {c c' : Core R}
    (h : setCoreParameter lib p c = .ok c') :
    ∃ name, parameterName lib p = .ok name ∧
      (writtenPath name = none ∧ c'.config = c.config ∨ ∃ ts, writtenPath name = some ts ∧
        assign lib (.string (parameterValue lib p)) ts c.config = .ok c'.config) := by
  obtain ⟨name, hname, h⟩ := bind_ok h
  refine ⟨name, hname, ?_⟩
  unfold writtenPath
  dsimp only at h
  split_ifs at h with hai hpaused hnamed
  · obtain ⟨config, hset, h⟩ := bind_ok h
    cases h
    exact .inr ⟨_, if_pos hai, hset⟩
  · cases h
    rw [if_neg hai, if_pos (Or.inl hpaused)]
    exact .inl ⟨rfl, rfl⟩
  · obtain ⟨config, hset, h⟩ := bind_ok h
    cases h
    rw [if_neg hai, if_neg (by simp [hpaused, hnamed])]
    exact .inr ⟨_, rfl, hset⟩
  · cases h
    rw [if_neg hai, if_pos (Or.inr (by simpa using hnamed))]
    exact .inl ⟨rfl, rfl⟩

theorem navigate_spared {lib : Nlohmann R} {ss : List String} {ps : List (Json R)} {c c' : Core R}
    (hspare : ∀ p ∈ ps, Spares lib ss p) (h : applyParameters lib ps c = .ok c') :
    navigate ss c'.config = navigate ss c.config := by
  apply foldlM_preserves (P := fun s => navigate ss s.config = navigate ss c.config) _ rfl h
  intro p hp s s' hs hset
  rw [← hs]
  obtain ⟨name, hname, ⟨-, hsame⟩ | ⟨ts, hpath, hwritten⟩⟩ := setCoreParameter_config hset
  · rw [hsame]
  · exact (assign_ok hwritten).2 _ (hspare p hp name hname ts hpath)

def Rooted (config : Json R) : Prop := config.isObject ∨ config = .null

theorem rooted_applyParameters {lib : Nlohmann R} {ps : List (Json R)} {c c' : Core R}
    (hc : Rooted c.config) (h : applyParameters lib ps c = .ok c') : Rooted c'.config := by
  apply foldlM_preserves (P := fun s => Rooted s.config) _ hc h
  intro p _ s s' hs hset
  obtain ⟨name, -, ⟨-, hsame⟩ | ⟨ts, hpath, hwritten⟩⟩ := setCoreParameter_config hset
  · rwa [hsame]
  · cases ts with
    | nil => exact absurd rfl (writtenPath_ne_nil hpath)
    | cons t ts =>
      exact .inl (isObject_of_navigate (assign_ok hwritten).1)

theorem not_readsBack [IntCast R] [Nontrivial R] {config j : Json R} {key : String} {v : Scalar R}
    (hj : navigate (segments key) config = some j)
    (hstring : ∀ s, v = .string s → j.asString = none) (hint : j.asInt = none)
    (hdouble : j.asDouble = none) (hbool : j.asBool = none) : ¬ v.ReadsBack config key := by
  intro h
  cases v with
  | string s =>
    have hread := h (s ++ "0")
    rw [getString_eq, getAs, hj, Option.bind_some, hstring s rfl] at hread
    simp at hread
  | int z fits =>
    have hread := h (z + 1)
    rw [getInt, getAs, hj, Option.bind_some, hint] at hread
    change z + 1 = z at hread
    omega
  | double x =>
    obtain ⟨y, hy⟩ := exists_ne x
    have hread := h y
    rw [getDouble, getAs, hj, Option.bind_some, hdouble] at hread
    exact hy hread
  | bool b =>
    have hread := h (!b)
    rw [getBool, getAs, hj, Option.bind_some, hbool] at hread
    cases b <;> cases hread

theorem not_readsBack_rooted [IntCast R] [Nontrivial R] {config j : Json R} {key : String}
    {v : Scalar R} (hj : navigate (segments key) config = some j) (hroot : Rooted j) :
    ¬ v.ReadsBack config key := by
  rcases hroot with hobj | hnull
  · cases j with
    | object fields => exact not_readsBack hj (fun _ _ => rfl) rfl rfl rfl
    | null | boolean | integer | number | string | array => cases hobj
  · subst hnull
    exact not_readsBack hj (fun _ _ => rfl) rfl rfl rfl

theorem readsBack_text_iff [IntCast R] [Nontrivial R] {config : Json R} {key text : String}
    {v : Scalar R} (hj : navigate (segments key) config = some (.string text))
    (htext : ∀ s, v = .string s → text = s) : v.ReadsBack config key ↔ ∃ s, v = .string s := by
  cases v with
  | string s =>
    rw [htext s rfl] at hj
    exact iff_of_true (Scalar.readsBack_of_navigate hj) ⟨s, rfl⟩
  | int | double | bool =>
    refine iff_of_false (not_readsBack hj ?_ rfl rfl rfl) ?_
    · intro s hs
      cases hs
    · rintro ⟨s, hs⟩
      cases hs

theorem setParameter_success {req p : Json R} {before after : List (Json R)} {text : Bytes}
    (hreq : moduleOf env.lib body = .ok (req, "core"))
    (hps : req.member? "parameters" = some (.array (before ++ p :: after)))
    (hok : (setParameter env body c).1 = .reply ⟨some 0, text⟩) :
    ∃ c1 c2, applyParameters env.lib before c = .ok c1 ∧ setCoreParameter env.lib p c1 = .ok c2 ∧
      applyParameters env.lib after c2 = .ok (setParameter env body c).2 := by
  have hlist : requestParameters req = before ++ p :: after := by
    rw [requestParameters, hps]
    rfl
  rw [setParameter_core_eq hreq] at hok ⊢
  rcases setCoreParameters_cases env.lib (requestParameters req) c with ⟨c', hset, hall⟩ |
    ⟨_, _, _, e, c', -, hset, -, -⟩
  · rw [hset]
    rw [hlist] at hall
    obtain ⟨c1, hbefore, hall⟩ := applyParameters_append hall
    rw [applyParameters, List.foldlM_cons] at hall
    obtain ⟨c2, hp, hafter⟩ := bind_ok hall
    exact ⟨c1, c2, hbefore, hp, hafter⟩
  · rw [hset] at hok
    cases guarded_error_reply hok

/-- A parameter of a successful request is read back by the getter of its value's type
exactly if the value is a string, and the key not the empty one, which is passed over. -/
theorem parameter_read_back_iff [Double R] [Nontrivial R] {req p : Json R}
    {before after : List (Json R)} {text : Bytes} {key : String} {v : Scalar R}
    (hreq : moduleOf env.lib body = .ok (req, "core"))
    (hps : req.member? "parameters" = some (.array (before ++ p :: after)))
    (hkey : parameterName env.lib p = .ok key) (hvalue : p.member? "value" = some v.toJson)
    (hspecial : key ≠ "ai_mode" ∧ key ≠ "processing_paused")
    (hafter : ∀ q ∈ after, Spares env.lib (segments key) q) (hroot : Rooted c.config)
    (hok : (setParameter env body c).1 = .reply ⟨some 0, text⟩) :
    v.ReadsBack (setParameter env body c).2.config key ↔ (∃ s, v = .string s) ∧ key ≠ "" := by
  obtain ⟨c1, c2, hbefore, hp, hrest⟩ := setParameter_success hreq hps hok
  have hspared := navigate_spared hafter hrest
  obtain ⟨name, hname, hwritten⟩ := setCoreParameter_config hp
  rw [hkey] at hname
  cases hname
  by_cases hempty : key = ""
  · subst hempty
    refine iff_of_false ?_ (fun h => h.2 rfl)
    have hconfig : c2.config = c1.config := by
      rcases hwritten with ⟨-, hsame⟩ | ⟨ts, hpath, -⟩
      · exact hsame
      · cases hpath
    have hnode : navigate (segments "") (setParameter env body c).2.config = some c1.config :=
      hspared.trans (congrArg some hconfig)
    exact not_readsBack_rooted hnode (rooted_applyParameters hroot hbefore)
  · have hpath : writtenPath key = some (segments key) := by
      rw [writtenPath, if_neg hspecial.1, if_neg (by simp [hspecial.2, hempty])]
    rw [hpath] at hwritten
    obtain ⟨hnone, -⟩ | ⟨ts, hts, hassign⟩ := hwritten
    · cases hnone
    cases hts
    have htext : ∀ s, v = .string s → parameterValue env.lib p = s := by
      rintro s rfl
      rw [parameterValue, hvalue]
      rfl
    rw [readsBack_text_iff (hspared.trans (assign_ok hassign).1) htext]
    exact (and_iff_left hempty).symm

def rootPathBody : Bytes :=
  bytes "\x7b\"parameters\":[\x7b\"key\":\"database.root_path\",\"value\":\"/data\"\x7d]\x7d"

def rootPathRequest : Json ℤ :=
  .object [("parameters", .array [stringParameter "database.root_path" "/data"])]

theorem parameter_read_back_root_path :
    (Scalar.string "/data" : Scalar ℤ).ReadsBack
        (setParameter (plainEnv [(rootPathBody, rootPathRequest)]) rootPathBody bootCore).2.config
        "database.root_path" ↔
      (∃ s, (Scalar.string "/data" : Scalar ℤ) = .string s) ∧ "database.root_path" ≠ "" := by
  have hok : (setParameter (plainEnv [(rootPathBody, rootPathRequest)]) rootPathBody bootCore).1 =
      .reply ⟨some 0, _⟩ := rfl
  have hps : rootPathRequest.member? "parameters" =
      some (.array ([] ++ stringParameter "database.root_path" "/data" :: [])) := rfl
  exact parameter_read_back_iff rfl hps rfl rfl (by decide)
    (fun q hq => absurd hq List.not_mem_nil) (.inl rfl) hok

def qualityBody : Bytes :=
  bytes "\x7b\"parameters\":[\x7b\"key\":\"api3c.jpeg_quality\",\"value\":90\x7d]\x7d"

def qualityRequest : Json ℤ := .object
  [("parameters", .array [.object [("key", .string "api3c.jpeg_quality"), ("value", .integer 90)]])]

/-- A number is stored as text, and the getter of numbers gives its default. -/
theorem number_not_read_back_counterexample :
    (∃ text, (setParameter (plainEnv [(qualityBody, qualityRequest)]) qualityBody bootCore).1 =
        .reply ⟨some 0, text⟩) ∧
      getInt (setParameter (plainEnv [(qualityBody, qualityRequest)]) qualityBody bootCore).2.config
        "api3c.jpeg_quality" 85 = 85 :=
  ⟨⟨_, rfl⟩, by decide⟩

end EcidsCore
