import EcidsCore.HistoryScan
import EcidsCore.RequestSpecs

set_option autoImplicit false

/-! When the forward handler answers, and when an exception leaves it. -/
namespace EcidsCore
open ByteText ExceptRules

variable {R : Type}

def Exc.Plain (e : Exc) : Prop := ValidUtf8 e.what

def Route.readsBody : Route → Bool
  | .checkStatus | .getHistory | .getMode | .stopInspection | .stopAiTest | .unavailable => false
  | _ => true

def ParseErrorText (lib : Nlohmann R) (body : Bytes) : Prop :=
  ∀ text, lib.parse body = .error text → ValidUtf8 text

def StartWaits (env : Env R) (method path body : Bytes) (c : Core R) : Prop :=
  ∃ q, startOf env.lib method path body = some q ∧ c.status.taskActive = false ∧
    (q.created env c).2 = none ∧ c.preprocess.join = none

def Answerable (env : Env R) (method path body : Bytes) (c : Core R) : Prop :=
  match route method path with
  | .unavailable => ValidUtf8 method ∧ ValidUtf8 path
  | .getHistory => HistoryReadable env.fs (bytes c.records.rootPath)
  | .checkStatus | .getMode | .stopInspection | .stopAiTest => True
  | _ => ParseErrorText env.lib body ∧ ¬ StartWaits env method path body c

def Replies (a : Answer) : Prop := ∃ r, a = .reply r

theorem replies_bare {x : Except Exc Reply} : Replies (bare x) ↔ Returns x := by
  cases x with
  | error e => simp [Replies, bare]
  | ok r => simp [Replies, bare]

section Lib
variable {lib : Nlohmann R}

theorem replies_guarded (prelude : String) {x : Except Exc Reply} :
    Replies (guarded lib prelude x) ↔ ThrowsOnly Exc.Plain x := by
  cases x with
  | ok r => exact iff_of_true ⟨r, rfl⟩ (throwsOnly_ok r)
  | error e =>
    have hmake := makeResponse_isOk_iff lib 1 (bytes prelude ++ e.what)
      (validUtf8_bytes "\x7b\x7d")
    rw [(validUtf8_bytes prelude).append_iff] at hmake
    rw [guarded, replies_bare]
    exact hmake.trans ⟨fun h => throwsOnly_error h, fun h => h e rfl⟩

theorem guarded_error_reply {lib : Nlohmann R} {prelude : String} {e : Exc} {r : Reply}
    (h : guarded lib prelude (.error e) = .reply r) : r.code = some 1 := by
  rw [guarded, makeResponse] at h
  split at h
  · cases h
    rfl
  · cases h

theorem makeResponse_plain (code : ℤ) {message data : Bytes} (hm : ValidUtf8 message)
    (hd : ValidUtf8 data) : ThrowsOnly Exc.Plain (makeResponse lib code message data) := by
  obtain ⟨text, h⟩ := makeResponse_ok lib code hm hd
  rw [h]
  exact throwsOnly_ok _

theorem valueString_plain (hlib : lib.Documented) (j : Json R) (key default : String) :
    ThrowsOnly Exc.Plain (j.valueString lib key default) := by
  intro e h
  obtain ⟨id, w, rfl⟩ := Json.valueString_throws h
  exact hlib.typeErrorText_valid id w

theorem parsed_plain {α : Type} {body : Bytes} {j : Json R} (hj : lib.parse body = .ok j)
    {f : Json R → Except Exc α} (hf : ThrowsOnly Exc.Plain (f j)) :
    ThrowsOnly Exc.Plain (parseBody lib body >>= f) := by
  rw [parseBody, hj]
  exact hf

theorem unparsed_throws {α : Type} {body text : Bytes} (h : lib.parse body = .error text)
    (f : Json R → Except Exc α) : (parseBody lib body >>= f) = .error (.parseError text) := by
  rw [parseBody, h]
  rfl

end Lib

section Requests
variable {lib : Nlohmann R} {body : Bytes} {j : Json R}

theorem memberOf_plain (hlib : lib.Documented) (hj : lib.parse body = .ok j) (key default : String) :
    ThrowsOnly Exc.Plain (do
      let req ← parseBody lib body
      req.valueString lib key default) :=
  parsed_plain hj (valueString_plain hlib j key default)

theorem imageRequestOf_plain (hlib : lib.Documented) (hj : lib.parse body = .ok j) :
    ThrowsOnly Exc.Plain (imageRequestOf lib body) :=
  parsed_plain hj ((valueString_plain hlib j _ _).bind fun _ _ =>
    (valueString_plain hlib j _ _).bind fun _ _ =>
      (valueString_plain hlib j _ _).bind fun _ _ => throwsOnly_ok _)

theorem inspectionOf_plain (hlib : lib.Documented) (hj : lib.parse body = .ok j) :
    ThrowsOnly Exc.Plain (inspectionOf lib body) :=
  parsed_plain hj ((valueString_plain hlib j _ _).bind fun _ _ =>
    (valueString_plain hlib j _ _).bind fun _ _ =>
      (valueString_plain hlib j _ _).bind fun _ _ => throwsOnly_ok _)

theorem aiTestOf_plain (hlib : lib.Documented) (hj : lib.parse body = .ok j) :
    ThrowsOnly Exc.Plain (aiTestOf lib body) :=
  parsed_plain hj ((valueString_plain hlib j _ _).bind fun _ _ =>
    (valueString_plain hlib j _ _).bind fun _ _ =>
      (valueString_plain hlib j _ _).bind fun _ _ => throwsOnly_ok _)

theorem moduleOf_plain (hlib : lib.Documented) (hj : lib.parse body = .ok j) :
    ThrowsOnly Exc.Plain (moduleOf lib body) :=
  parsed_plain hj ((valueString_plain hlib j _ _).bind fun _ _ => throwsOnly_ok _)

theorem setString_plain (hlib : lib.Documented) (config : Json R) (key val : String) :
    ThrowsOnly Exc.Plain (ConfigManager.setString lib config key val) := by
  intro e h
  obtain ⟨w, rfl⟩ := ConfigManager.assign_throws h
  exact hlib.typeErrorText_valid 305 w

theorem setCoreParameter_plain (hlib : lib.Documented) (p : Json R) (c : Core R) :
    ThrowsOnly Exc.Plain (setCoreParameter lib p c) := by
  refine ThrowsOnly.bind ((valueString_plain hlib p _ _).bind fun name _ =>
    valueString_plain hlib p _ _) fun name _ => ?_
  dsimp only
  split
  · exact (setString_plain hlib _ _ _).bind fun _ _ => throwsOnly_ok _
  · split
    · exact throwsOnly_ok _
    · split
      · exact (setString_plain hlib _ _ _).bind fun _ _ => throwsOnly_ok _
      · exact throwsOnly_ok _

theorem setCoreParameters_plain (hlib : lib.Documented) {ps : List (Json R)} {c c' : Core R} {e : Exc}
    (h : setCoreParameters lib ps c = (some e, c')) : e.Plain := by
  induction ps generalizing c with
  | nil => cases h
  | cons p ps ih =>
    rw [setCoreParameters] at h
    cases hp : setCoreParameter lib p c with
    | error e' =>
      rw [hp] at h
      cases h
      exact setCoreParameter_plain hlib p _ _ hp
    | ok c1 =>
      rw [hp] at h
      exact ih h

end Requests

theorem handle_unparsed [Double R] {env : Env R} {method path body text : Bytes}
    (hr : (route method path).readsBody) (h : env.lib.parse body = .error text) (c : Core R) :
    ∃ prelude, (handle env method path body c).1 =
      guarded env.lib prelude (.error (.parseError text)) := by
  have hthrows := fun {α : Type} (f : Json R → Except Exc α) => unparsed_throws h f
  unfold handle
  cases hroute : route method path <;> rw [hroute] at hr
  case checkStatus | getHistory | getMode | stopInspection | stopAiTest | unavailable => cases hr
  case getImage =>
    simp only [getImage, imageRequestOf, hthrows]
    exact ⟨_, rfl⟩
  case getRecord =>
    simp only [getRecord, recordPathOf, hthrows]
    exact ⟨_, rfl⟩
  case setMode =>
    simp only [setMode, modeOf, hthrows]
    exact ⟨_, rfl⟩
  case setParameter =>
    simp only [setParameter, moduleOf, hthrows]
    exact ⟨_, rfl⟩
  case getParameter =>
    simp only [getParameter, moduleOf, hthrows]
    exact ⟨_, rfl⟩
  case startInspection =>
    simp only [startInspection, inspectionOf, hthrows]
    exact ⟨_, rfl⟩
  case setSubTask =>
    simp only [setSubTask, subTaskOf, hthrows]
    exact ⟨_, rfl⟩
  case startAiTest =>
    simp only [startAiTest, aiTestOf, hthrows]
    exact ⟨_, rfl⟩
  case stereoCameraCommand =>
    simp only [stereoCameraCommand, hthrows]
    exact ⟨_, rfl⟩
  case aiCommand =>
    simp only [aiCommand, hthrows]
    exact ⟨_, rfl⟩

section Parsed
variable {env : Env R} {body : Bytes} {j : Json R}

theorem text_replies (env : Env R) (prelude : String) (code : ℤ) (message : String) :
    Replies (guarded env.lib prelude (makeResponse env.lib code (bytes message))) :=
  (replies_guarded prelude).2 (makeResponse_plain code (validUtf8_bytes _) (validUtf8_bytes _))

theorem quoted_valid (key val : String) : ValidUtf8 (quoted key val) := validUtf8_bytes _

theorem getImage_replies (hdoc : env.Documented) (hj : env.lib.parse body = .ok j) (c : Core R) :
    Replies (getImage env.lib env.fs body c).1 := by
  unfold getImage
  cases hq : imageRequestOf env.lib body with
  | error e =>
    exact (replies_guarded "").2 (throwsOnly_error (imageRequestOf_plain hdoc.toDocumented hj e hq))
  | ok q =>
    by_cases he : q.recordPath = "" ∨ q.filename = ""
    · simp only [he, if_true]
      exact text_replies env "" 4 _
    · simp only [he, if_false]
      refine (replies_guarded "").2 ?_
      unfold readImage
      split
      · exact makeResponse_plain 2 (validUtf8_bytes _) (validUtf8_bytes _)
      · exact makeResponse_plain 0 (validUtf8_bytes _) (hdoc.dump_valid _)

theorem getRecord_replies [Double R] (hdoc : env.Documented) (hj : env.lib.parse body = .ok j)
    (c : Core R) : Replies (getRecord env.lib env.fs body c).1 := by
  unfold getRecord
  cases hq : recordPathOf env.lib body with
  | error e =>
    have hplain := memberOf_plain hdoc.toDocumented hj "record_path" ""
    exact (replies_guarded "").2 (throwsOnly_error (hplain e hq))
  | ok p =>
    refine (replies_guarded "").2 ?_
    cases hd : readRecordDetails env.lib env.fs (recordFull c.records.rootPath p) with
    | ok details => exact makeResponse_plain 0 (validUtf8_bytes _) (hdoc.dump_valid _)
    | error text =>
      refine throwsOnly_error ?_
      rcases bind_error hd with hd | ⟨found, -, hd⟩
      · exact hdoc.existsText _ _ (validUtf8_bytes _) hd
      · cases found <;> cases hd

theorem setMode_replies [Zero R] (hdoc : env.Documented) (hj : env.lib.parse body = .ok j)
    (c : Core R) : Replies (setMode env body c).1 := by
  unfold setMode
  cases hq : modeOf env.lib body with
  | error e =>
    have hplain := memberOf_plain hdoc.toDocumented hj "mode" ""
    exact (replies_guarded "Parse error: ").2 (throwsOnly_error (hplain e hq))
  | ok mode =>
    by_cases hm : modeFromString mode = .none
    · simp only [hm, if_true]
      exact text_replies env _ 4 _
    · simp only [hm, if_false, runSteps_setMode]
      split
      · exact text_replies env _ _ _
      · split
        · exact (replies_guarded _).2
            (makeResponse_plain 0 (validUtf8_bytes _) (quoted_valid "mode" mode))
        · exact text_replies env _ _ _

theorem setParameter_replies (hdoc : env.Documented) (hj : env.lib.parse body = .ok j)
    (c : Core R) : Replies (setParameter env body c).1 := by
  unfold setParameter
  cases hq : moduleOf env.lib body with
  | error e =>
    exact (replies_guarded "").2 (throwsOnly_error (moduleOf_plain hdoc.toDocumented hj e hq))
  | ok q =>
    obtain ⟨req, name⟩ := q
    dsimp only
    split
    · generalize hps : setCoreParameters env.lib _ c = r
      obtain ⟨_ | e, c'⟩ := r
      · exact text_replies env "" 0 _
      · exact (replies_guarded "").2
          (throwsOnly_error (setCoreParameters_plain hdoc.toDocumented hps))
    · split
      · exact ⟨_, rfl⟩
      · split
        · exact ⟨_, rfl⟩
        · exact text_replies env "" 4 _

theorem getParameter_plain (hdoc : env.Documented) (hj : env.lib.parse body = .ok j)
    (c : Core R) : ThrowsOnly Exc.Plain (getParameter env body c) := by
  refine (moduleOf_plain hdoc.toDocumented hj).bind fun q _ => ?_
  dsimp only
  split
  · exact makeResponse_plain 0 (validUtf8_bytes _) (hdoc.dump_valid _)
  · split
    · exact throwsOnly_ok _
    · split
      · exact throwsOnly_ok _
      · exact makeResponse_plain 4 (validUtf8_bytes _) (validUtf8_bytes _)

theorem setSubTask_replies (hdoc : env.Documented) (hj : env.lib.parse body = .ok j)
    (c : Core R) : Replies (setSubTask env.lib body c).1 := by
  unfold setSubTask
  cases hq : subTaskOf env.lib body with
  | error e =>
    have hplain := memberOf_plain hdoc.toDocumented hj "sub_task" ""
    exact (replies_guarded "").2 (throwsOnly_error (hplain e hq))
  | ok st =>
    cases hst : subTaskFromString st with
    | none => simp only [hst]; exact text_replies env "" 4 _
    | some sub => simp only [hst]; exact text_replies env "" 0 _

theorem command_plain (hdoc : env.Documented) (hj : env.lib.parse body = .ok j) :
    ThrowsOnly Exc.Plain (stereoCameraCommand env body) ∧
      ThrowsOnly Exc.Plain (aiCommand env body) :=
  ⟨parsed_plain hj ((valueString_plain hdoc.toDocumented j _ _).bind fun _ _ => throwsOnly_ok _),
    parsed_plain hj ((valueString_plain hdoc.toDocumented j _ _).bind fun _ _ => throwsOnly_ok _)⟩

end Parsed

theorem start_replies [Double R] {env : Env R} {method path body : Bytes} {q : StartRequest}
    (hdoc : env.Documented) (hq : startOf env.lib method path body = some q) (c : Core R) :
    Replies (handle env method path body c).1 ↔
      ¬ (c.status.taskActive = false ∧ (q.created env c).2 = none ∧ c.preprocess.join = none) := by
  rw [handle_start hq]
  by_cases ha : c.status.taskActive
  · rw [runSteps_conflict env q ha]
    exact iff_of_true (text_replies env "" _ _) (by simp [ha])
  have hidle : c.status.taskActive = false := by simpa using ha
  rw [runSteps_start env q hidle, StartRequest.outcome, StartRequest.created_begun,
    StartRequest.begun_preprocess]
  cases hcr : (q.created env c).2 with
  | some text =>
    refine iff_of_true ?_ (by simp)
    obtain ⟨d, -, hd⟩ := ensureDirs_failed hcr
    have hplain : Exc.Plain (.filesystemError text) := hdoc.createText _ _ (validUtf8_bytes d) hd
    exact (replies_guarded "").2 (throwsOnly_error hplain)
  | none =>
    cases hj : c.preprocess.join with
    | none =>
      refine iff_of_false ?_ (by simp [hidle])
      rintro ⟨r, hr⟩
      cases hr
    | some joined =>
      refine iff_of_true ?_ (by simp)
      cases hs : env.spawn with
      | none =>
        exact (replies_guarded "").2
          (makeResponse_plain 0 (validUtf8_bytes _) (quoted_valid "record_path" _))
      | some text =>
        have hplain : Exc.Plain (.systemError text) := hdoc.spawnText text hs
        exact (replies_guarded "").2 (throwsOnly_error hplain)

theorem refused_replies [Double R] {env : Env R} {method path body : Bytes} {j : Json R}
    (hdoc : env.Documented) (hj : env.lib.parse body = .ok j) (hr : (route method path).IsStart)
    (h : startOf env.lib method path body = none) (c : Core R) :
    Replies (handle env method path body c).1 := by
  obtain ⟨x, hx, hcases⟩ := handle_refused hr h c
  rw [hx]
  refine (replies_guarded "").2 ?_
  rcases hcases with ⟨text, rfl⟩ | ⟨e, rfl, he | he⟩
  · exact makeResponse_plain 4 (validUtf8_bytes _) (validUtf8_bytes _)
  · exact throwsOnly_error (inspectionOf_plain hdoc.toDocumented hj e he)
  · exact throwsOnly_error (aiTestOf_plain hdoc.toDocumented hj e he)

theorem not_startWaits {env : Env R} {method path body : Bytes}
    (h : ¬ (route method path).IsStart) (c : Core R) : ¬ StartWaits env method path body c := by
  rintro ⟨q, hq, -⟩
  exact h (startOf_route hq)

theorem startOf_unparsed {lib : Nlohmann R} {method path body text : Bytes}
    (h : lib.parse body = .error text) : startOf lib method path body = none := by
  have hi : inspectionOf lib body = .error (.parseError text) := unparsed_throws h _
  have ha : aiTestOf lib body = .error (.parseError text) := unparsed_throws h _
  unfold startOf
  cases route method path <;> simp only [hi, ha]

theorem handle_parsed [Double R] {env : Env R} {method path body : Bytes} {j : Json R}
    (hdoc : env.Documented) (hr : (route method path).readsBody)
    (hj : env.lib.parse body = .ok j) (c : Core R) :
    Replies (handle env method path body c).1 ↔ ¬ StartWaits env method path body c := by
  by_cases hstart : (route method path).IsStart
  · cases hq : startOf env.lib method path body with
    | none =>
      refine iff_of_true (refused_replies hdoc hj hstart hq c) ?_
      rintro ⟨q, hq', -⟩
      rw [hq] at hq'
      cases hq'
    | some q =>
      rw [start_replies hdoc hq, StartWaits]
      simp [hq]
  · refine iff_of_true ?_ (not_startWaits hstart c)
    unfold handle
    cases hroute : route method path <;> rw [hroute] at hr hstart
    case checkStatus | getHistory | getMode | stopInspection | stopAiTest | unavailable => cases hr
    case startInspection => exact absurd (.inl rfl) hstart
    case startAiTest => exact absurd (.inr rfl) hstart
    case getImage => exact getImage_replies hdoc hj c
    case getRecord => exact getRecord_replies hdoc hj c
    case setMode => exact setMode_replies hdoc hj c
    case setParameter => exact setParameter_replies hdoc hj c
    case getParameter => exact (replies_guarded "").2 (getParameter_plain hdoc hj c)
    case setSubTask => exact setSubTask_replies hdoc hj c
    case stereoCameraCommand => exact (replies_guarded "").2 (command_plain hdoc hj).1
    case aiCommand => exact (replies_guarded "").2 (command_plain hdoc hj).2

theorem handle_readsBody [Double R] {env : Env R} {method path body : Bytes}
    (hdoc : env.Documented) (hr : (route method path).readsBody) (c : Core R) :
    Replies (handle env method path body c).1 ↔
      ParseErrorText env.lib body ∧ ¬ StartWaits env method path body c := by
  cases hj : env.lib.parse body with
  | ok j =>
    rw [handle_parsed hdoc hr hj]
    refine (and_iff_right ?_).symm
    intro text h
    rw [hj] at h
    cases h
  | error text =>
    obtain ⟨prelude, hp⟩ := handle_unparsed hr hj c
    have hwaits : ¬ StartWaits env method path body c := by
      rintro ⟨q, hq, -⟩
      rw [startOf_unparsed hj] at hq
      cases hq
    rw [hp, replies_guarded]
    constructor
    · intro h
      refine ⟨?_, hwaits⟩
      intro text' ht
      rw [hj] at ht
      cases ht
      exact h _ rfl
    · rintro ⟨h, -⟩
      have hplain : Exc.Plain (.parseError text) := h text hj
      exact throwsOnly_error hplain

theorem replies_plain {lib : Nlohmann R} {code : ℤ} {message data : Bytes} (hm : ValidUtf8 message)
    (hd : ValidUtf8 data) : Replies (bare (makeResponse lib code message data)) := by
  obtain ⟨text, h⟩ := makeResponse_ok lib code hm hd
  rw [h]
  exact ⟨_, rfl⟩

theorem unavailableText_valid {method path : Bytes} :
    ValidUtf8 (unavailableText method path) ↔ ValidUtf8 method ∧ ValidUtf8 path := by
  have hblank : OwnChar 0x20 := ⟨' ', rfl⟩
  rw [unavailableText, List.append_assoc, List.append_assoc,
    (validUtf8_bytes "Unavailable: ").append_iff]
  exact hblank.parts

theorem handle_replies_iff [Double R] (env : Env R) (hdoc : env.Documented)
    (method path body : Bytes) (c : Core R) :
    (∃ r, (handle env method path body c).1 = .reply r) ↔ Answerable env method path body c := by
  by_cases hbody : (route method path).readsBody
  · refine (handle_readsBody hdoc hbody c).trans ?_
    unfold Answerable
    cases hroute : route method path <;> rw [hroute] at hbody
    case checkStatus | getHistory | getMode | stopInspection | stopAiTest | unavailable =>
      cases hbody
  · unfold Answerable handle
    cases hroute : route method path <;> rw [hroute] at hbody
    case checkStatus => exact iff_of_true (replies_plain (validUtf8_bytes _) (hdoc.dump_valid _)) trivial
    case getHistory => exact replies_bare.trans (getHistory_returns hdoc.toDocumented)
    case getMode =>
      exact iff_of_true (replies_plain (validUtf8_bytes _) (quoted_valid "mode" _)) trivial
    case stopInspection =>
      exact iff_of_true (replies_plain (validUtf8_bytes _) (validUtf8_bytes _)) trivial
    case stopAiTest =>
      exact iff_of_true (replies_plain (validUtf8_bytes _) (validUtf8_bytes _)) trivial
    case unavailable =>
      exact replies_bare.trans ((makeResponse_isOk_iff env.lib 5 _ (validUtf8_bytes "\x7b\x7d")).trans
        unavailableText_valid)
    all_goals exact absurd rfl hbody

theorem handle_replies_iff_getMode :
    ∃ r, (handle (plainEnv []) (bytes "GET") (bytes "/GetMode") [] bootCore).1 = .reply r :=
  (handle_replies_iff (plainEnv []) (plainEnv_documented []) _ _ _ bootCore).2 trivial

/-- A path that is no text, and a body that is none. -/
theorem escape_counterexample :
    (∃ e, (handle (plainEnv []) (bytes "GET") [0x2F, 0xFF] [] bootCore).1 = .threw e) ∧
      ∃ e, (handle (plainEnv []) (bytes "POST") (bytes "/GetImage") [0xFF] bootCore).1 = .threw e := by
  constructor
  · exact ⟨_, rfl⟩
  · exact ⟨_, rfl⟩

end EcidsCore
