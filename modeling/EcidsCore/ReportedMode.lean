import EcidsCore.ApiRuns
import EcidsCore.CoreParameters

set_option autoImplicit false

/-! The AI mode that `GetParameter` reports, and the one in which pairs are sent. The handlers
keep a copy of the mode that `PreprocessModule::init` was given. -/
namespace EcidsCore
open ByteText ExceptRules GuardedRuns

variable {R : Type}

/-- The module sends every pair in this mode: a raw image in binary mode only. -/
structure SendsIn (mode : AIMode) (m : PreprocessModule R) : Prop where
  used : m.aiMode = mode
  request : ∀ img ts left right wd x, m.publishPair img ts left right wd = some x →
    ((∃ image, x.2.request = some (.binary ts image)) ↔ mode = .binary ∧ m.wired.dealer = true)

theorem sendsIn_own (m : PreprocessModule R) : SendsIn m.aiMode m := by
  refine ⟨rfl, ?_⟩
  intro img ts left right wd x h
  dsimp only [PreprocessModule.publishPair] at h
  split at h
  · cases h
  · cases h
    by_cases hbinary : m.aiMode = .binary ∧ m.wired.dealer = true
    · simp only [if_pos hbinary]
      exact iff_of_true ⟨_, rfl⟩ hbinary
    · simp only [if_neg hbinary]
      refine iff_of_false ?_ hbinary
      rintro ⟨image, h⟩
      by_cases hfile : m.wired.dealer = true ∧ m.activeRecordPath ≠ "" ∧ m.wired.recordMgr = true
      · simp only [if_pos hfile] at h
        cases h
      · simp only [if_neg hfile] at h
        cases h

def parametersJson (c : Core R) (mode : AIMode) : List (String × Json R) :=
  [("active_mode", .string (modeName c.mode)), ("ai_mode", .string (aiModeName mode)),
    ("processing_paused", .boolean c.processingPaused)]

theorem getParameter_core {env : Env R} {body : Bytes} {req : Json R}
    (h : moduleOf env.lib body = .ok (req, "core")) (c : Core R) :
    getParameter env body c =
      makeResponse env.lib 0 (bytes "Success") (dumped env.lib (parametersJson c c.aiMode)) := by
  rw [getParameter, h]
  rfl

/-- Every request for the parameters of the core node is answered with the mode in which the
next pair is sent. -/
def ReportsModeUsed (c : Core R) : Prop :=
  ∀ env body req, moduleOf env.lib body = .ok (req, "core") → ∃ mode, SendsIn mode c.preprocess ∧
    getParameter env body c =
      makeResponse env.lib 0 (bytes "Success") (dumped env.lib (parametersJson c mode))

theorem reportsModeUsed_of_eq {c : Core R} (h : c.aiMode = c.preprocess.aiMode) :
    ReportsModeUsed c := by
  intro env body req hreq
  refine ⟨c.aiMode, ?_, getParameter_core hreq c⟩
  rw [h]
  exact sendsIn_own c.preprocess

def Core.aiModes (c : Core R) : AIMode × AIMode := (c.aiMode, c.preprocess.aiMode)

theorem aiModes_congr {c c' : Core R} (h : c'.aiMode = c.aiMode)
    (hp : c'.preprocess.aiMode = c.preprocess.aiMode) : c'.aiModes = c.aiModes := by
  rw [Core.aiModes, h, hp, Core.aiModes]

theorem join_aiMode {m : PreprocessModule R} {joined : PreprocessModule R × Bool}
    (h : m.join = some joined) : joined.1.aiMode = m.aiMode := by
  unfold PreprocessModule.join at h
  split at h
  · cases h
    rfl
  · cases h
    rfl
  · split at h
    · cases h
    · cases h
      rfl

theorem setMode_aiModes (m : Mode) (c : Core R) : (c.setMode m).2.aiModes = c.aiModes := by
  obtain ⟨mode, tracked, h⟩ := setMode_frame m c
  rw [h]
  rfl

theorem createRecord_aiModes (fs : FileSystem) (path : String) (dirs : List String) (c : Core R) :
    (c.createRecord fs path dirs).core.aiModes = c.aiModes := by
  cases h : (ensureDirs fs dirs).2 with
  | some text =>
    rw [Core.createRecord_failed h]
    rfl
  | none =>
    rw [Core.createRecord_made h]
    rfl

theorem startPreprocess_aiModes (start : Bool → PreprocessModule R → PreprocessModule R)
    (hstart : ∀ b m, (start b m).aiMode = m.aiMode) (spawn : Option Bytes) (path : String)
    (c : Core R) : (c.startPreprocess spawn path start).core.aiModes = c.aiModes := by
  cases hj : c.preprocess.join with
  | none =>
    rw [Core.startPreprocess_waits hj]
    rfl
  | some joined =>
    have hmode (b : Bool) : (start b joined.1).aiMode = c.preprocess.aiMode :=
      (hstart b joined.1).trans (join_aiMode hj)
    cases spawn with
    | none =>
      rw [Core.startPreprocess_spawned hj rfl]
      exact aiModes_congr rfl (hmode _)
    | some text =>
      rw [Core.startPreprocess_threw hj rfl]
      exact aiModes_congr rfl (hmode _)

theorem stopPreprocess_aiModes {finish : PreprocessModule R → PreprocessModule R}
    (hfinish : ∀ m, (finish m).aiMode = m.aiMode) (c : Core R) :
    (c.stopPreprocess finish).aiModes = c.aiModes := by
  have hmode : (finish c.preprocess.haltAndJoin.1).aiMode = c.preprocess.aiMode := by
    rw [hfinish, PreprocessModule.haltAndJoin_module]
  exact aiModes_congr rfl hmode

theorem exec_aiModes [Zero R] (env : Env R) (p : String) (c : Core R) (a : ApiStep) :
    (exec env p c a).core.aiModes = c.aiModes := by
  cases a <;> simp only [exec]
  case checkIdle conflict => split <;> rfl
  case setMode m accept => split <;> exact setMode_aiModes m c
  case leaveMode => exact setMode_aiModes .none c
  case createInspectionRecord s e t => exact createRecord_aiModes _ _ _ c
  case createAiTestRecord s e => exact createRecord_aiModes _ _ _ c
  case startInspection =>
    exact startPreprocess_aiModes (PreprocessModule.startInspection p) (fun _ _ => rfl) _ _ c
  case startAiTest data =>
    exact startPreprocess_aiModes (PreprocessModule.startAiTest data p (env.testDataFound data))
      (fun _ _ => rfl) _ _ c
  case stopInspection => exact stopPreprocess_aiModes (fun _ => rfl) c
  case stopAiTest => exact stopPreprocess_aiModes (fun _ => rfl) c
  all_goals rfl

theorem runSteps_aiModes [Zero R] (env : Env R) (as : List ApiStep) (p : String) (c : Core R) :
    (runSteps env as p c).core.aiModes = c.aiModes := by
  induction as generalizing p c with
  | nil => rfl
  | cons a as ih =>
    have hstep := exec_aiModes env p c a
    rw [runSteps]
    cases hexec : exec env p c a with
    | next p' c' =>
      rw [hexec] at hstep
      exact (ih p' c').trans hstep
    | answered code message c' | threw e c' | waits c' =>
      rw [hexec] at hstep
      exact hstep

theorem stop_aiModes [Zero R] (env : Env R) (steps : List ApiStep) (message : String) (c : Core R) :
    (stop env steps message c).2.aiModes = c.aiModes := by
  have hrun := runSteps_aiModes env steps "" c
  unfold stop
  split <;> rename_i h <;> rw [h] at hrun <;> exact hrun

theorem handle_aiModes [Double R] (env : Env R) {method path : Bytes} (body : Bytes) (c : Core R)
    (hr : route method path ≠ .setParameter) :
    (handle env method path body c).2.aiModes = c.aiModes := by
  unfold handle
  cases hroute : route method path
  case setParameter => exact absurd hroute hr
  case getImage =>
    simp only [getImage]
    split
    · rfl
    · split <;> rfl
  case getRecord =>
    simp only [getRecord]
    split <;> rfl
  case setMode =>
    rcases setMode_core env body c with h | ⟨-, m, h⟩
    · exact congrArg Core.aiModes h
    · exact (congrArg Core.aiModes h).trans (setMode_aiModes m c)
  case startInspection =>
    simp only [startInspection]
    split
    · rfl
    · split
      · rfl
      · rw [finish_core]
        exact runSteps_aiModes _ _ _ c
  case startAiTest =>
    simp only [startAiTest]
    split
    · rfl
    · split
      · rfl
      · rw [finish_core]
        exact runSteps_aiModes _ _ _ c
  case stopInspection => exact stop_aiModes env _ _ c
  case stopAiTest => exact stop_aiModes env _ _ c
  case setSubTask =>
    obtain ⟨sub, h⟩ := setSubTask_core env.lib body c
    exact (congrArg Core.aiModes h).trans rfl
  all_goals rfl

def appliedParameters (lib : Nlohmann R) : List (Json R) → Core R → List (Json R)
  | [], _ => []
  | p :: ps, c =>
    match setCoreParameter lib p c with
    | .error _ => []
    | .ok c => p :: appliedParameters lib ps c

def namedMode (lib : Nlohmann R) (p : Json R) : Option AIMode :=
  match parameterName lib p with
  | .ok name => if name = "ai_mode" then some (aiModeFromString (parameterValue lib p)) else none
  | .error _ => none

theorem setCoreParameter_aiMode {lib : Nlohmann R} {p : Json R} {c c' : Core R}
    (h : setCoreParameter lib p c = .ok c') :
    c'.aiMode = (namedMode lib p).getD c.aiMode ∧ c'.preprocess = c.preprocess := by
  obtain ⟨name, hname, h⟩ := bind_ok h
  rw [namedMode, hname]
  dsimp only at h ⊢
  split_ifs at h ⊢ with hai hpaused hnamed
  · obtain ⟨config, -, h⟩ := bind_ok h
    cases h
    exact ⟨rfl, rfl⟩
  · cases h
    exact ⟨rfl, rfl⟩
  · obtain ⟨config, -, h⟩ := bind_ok h
    cases h
    exact ⟨rfl, rfl⟩
  · cases h
    exact ⟨rfl, rfl⟩

def lastMode (lib : Nlohmann R) (ps : List (Json R)) (c : Core R) : Option AIMode :=
  ((appliedParameters lib ps c).filterMap (namedMode lib)).getLast?

theorem setCoreParameters_aiMode (lib : Nlohmann R) (ps : List (Json R)) (c : Core R) :
    (setCoreParameters lib ps c).2.aiMode = (lastMode lib ps c).getD c.aiMode ∧
      (setCoreParameters lib ps c).2.preprocess = c.preprocess := by
  induction ps generalizing c with
  | nil => exact ⟨rfl, rfl⟩
  | cons p ps ih =>
    rw [setCoreParameters, lastMode, appliedParameters]
    cases hp : setCoreParameter lib p c with
    | error e => exact ⟨rfl, rfl⟩
    | ok c1 =>
      obtain ⟨hmode, hpre⟩ := setCoreParameter_aiMode hp
      obtain ⟨hlast, hkept⟩ := ih c1
      refine ⟨?_, hkept.trans hpre⟩
      rw [hlast, hmode, lastMode]
      cases hnamed : namedMode lib p with
      | none => rw [List.filterMap_cons_none hnamed, Option.getD_none]
      | some mode =>
        rw [List.filterMap_cons_some hnamed, List.getLast?_cons, Option.getD_some, Option.getD_some]

def KeepsMode (s : ApiSystem R) : ApiAction R → Prop
  | .request env method path body => route method path = .setParameter →
      ∀ req, moduleOf env.lib body = .ok (req, "core") →
        ∀ mode ∈ lastMode env.lib (requestParameters req) s.core, mode = s.core.preprocess.aiMode
  | _ => True

def AiModesAgree (c : Core R) : Prop := c.aiMode = c.preprocess.aiMode

theorem aiModesAgree_of_eq {c c' : Core R} (h : c'.aiModes = c.aiModes) (hc : AiModesAgree c) :
    AiModesAgree c' := by
  obtain ⟨hmode, hpre⟩ := Prod.ext_iff.1 h
  exact hmode.trans (hc.trans hpre.symm)

theorem setParameter_agree {env : Env R} {body : Bytes} {c : Core R} (hc : AiModesAgree c)
    (hkeep : ∀ req, moduleOf env.lib body = .ok (req, "core") →
      ∀ mode ∈ lastMode env.lib (requestParameters req) c, mode = c.preprocess.aiMode) :
    AiModesAgree (setParameter env body c).2 := by
  by_cases hreq : ∃ req, moduleOf env.lib body = .ok (req, "core")
  · obtain ⟨req, hreq⟩ := hreq
    rw [setParameter_core_eq hreq]
    obtain ⟨hmode, hpre⟩ := setCoreParameters_aiMode env.lib (requestParameters req) c
    rw [AiModesAgree, hmode, hpre]
    cases hlast : lastMode env.lib (requestParameters req) c with
    | none => exact hc
    | some mode => exact hkeep req hreq mode hlast
  · rw [setParameter_other fun req h => hreq ⟨req, h⟩]
    exact hc

theorem respond_aiModes [Double R] (lib : Nlohmann R) (vis : Vision R) (now : ℕ)
    (resp : DetectionResponse R) (c : Core R) :
    (c.respond lib vis now resp).1.aiModes = c.aiModes := by
  obtain ⟨rest, hrest⟩ := PreprocessModule.onAiResult_module lib now resp c.preprocess
  have hpre : (c.preprocess.onAiResult lib now resp).1.aiMode = c.preprocess.aiMode := by
    rw [hrest]
  dsimp only [Core.respond]
  split
  · exact aiModes_congr rfl hpre
  · unfold Core.measured
    split <;> exact aiModes_congr rfl hpre

theorem aiModesAgree_step [Double R] {s t : ApiSystem R} {a : ApiAction R}
    (hs : AiModesAgree s.core) (hkeep : KeepsMode s a) (h : s.step a = some t) :
    AiModesAgree t.core := by
  cases a with
  | request env method path body =>
    obtain rfl := ApiSystem.request_some h
    by_cases hr : route method path = .setParameter
    · have hset : handle env method path body s.core = setParameter env body s.core := by
        rw [handle, hr]
      change AiModesAgree (handle env method path body s.core).2
      rw [hset]
      exact setParameter_agree hs (hkeep hr)
    · exact aiModesAgree_of_eq (handle_aiModes env body s.core hr) hs
  | publishPair img ts left right wd =>
    obtain ⟨x, hx, rfl⟩ := Option.map_eq_some_iff.1 h
    dsimp only [PreprocessModule.publishPair] at hx
    split at hx <;> cases hx
    exact hs
  | aiResult env vis now resp =>
    cases h
    exact aiModesAgree_of_eq (respond_aiModes env.lib vis now resp s.core) hs
  | loopEnds =>
    obtain ⟨c, hc, rfl⟩ := Option.map_eq_some_iff.1 h
    obtain ⟨found, -, rfl⟩ := Core.loopEnds_some hc
    exact hs
  | completionBegins k =>
    rw [ApiSystem.step] at h
    split at h
    · cases h
      exact aiModesAgree_of_eq (stopPreprocess_aiModes (fun _ => rfl) _) hs
    · cases h
  | completionStep env i =>
    obtain ⟨e, a, p, c, -, -, hc, rfl⟩ := ApiSystem.completionStep_some h
    have hexec := exec_aiModes env "" s.core a
    rw [hc] at hexec
    exact aiModesAgree_of_eq hexec hs
  | publishFile | insertPending | reconnected =>
    cases h
    exact hs

/-- In every run that starts with one mode and whose requests do not set another one, the
reported mode is the one in which the next pair is sent. -/
theorem reported_mode_used [Double R] {c : Core R} {as : List (ApiAction R)} {s : ApiSystem R}
    (hc : AiModesAgree c) (hkeep : Along ApiSystem.step KeepsMode { core := c } as)
    (hr : run ApiSystem.step { core := c } as = some s) : ReportsModeUsed s.core := by
  have hagree : AiModesAgree s.core := run_invariant (I := fun s => AiModesAgree s.core)
    (fun _ _ _ hs hk h => aiModesAgree_step hs hk h) hc hkeep hr
  exact reportsModeUsed_of_eq hagree

def modeBody (mode : String) : Bytes :=
  bytes ("\x7b\"parameters\":[\x7b\"key\":\"ai_mode\",\"value\":\"" ++ mode ++ "\"\x7d]\x7d")

def modeRequest (mode : String) : Json ℤ :=
  .object [("parameters", .array [stringParameter "ai_mode" mode])]

def setAiMode (mode : String) : ApiAction ℤ :=
  .request (plainEnv [(modeBody mode, modeRequest mode)]) (bytes "POST") (bytes "/SetParameter")
    (modeBody mode)

def fileModeSystem : ApiSystem ℤ :=
  (ApiSystem.step { core := bootCore } (setAiMode "file")).get rfl

theorem reported_mode_used_binary : ∃ s, run ApiSystem.step { core := bootCore }
    [setAiMode "binary", startLift] = some s ∧ ReportsModeUsed s.core := by
  have hkeep :
      Along ApiSystem.step KeepsMode { core := bootCore } [setAiMode "binary", startLift] := by
    refine ⟨?_, fun t _ => ⟨?_, fun _ _ => trivial⟩⟩
    · intro _ req hreq mode hmode
      cases hreq
      cases hmode
      rfl
    · intro hroute
      exact absurd hroute (by decide)
  have hboot : AiModesAgree bootCore := rfl
  exact ⟨_, rfl, reported_mode_used hboot hkeep rfl⟩

/-- The request is answered with success and `GetParameter` reports file mode; the next pair is
still sent as a raw image. -/
theorem reported_mode_counterexample :
    run ApiSystem.step { core := bootCore } [setAiMode "file"] = some fileModeSystem ∧
      getParameter (plainEnv []) (bytes "\x7b\x7d") fileModeSystem.core =
        makeResponse (plainEnv []).lib 0 (bytes "Success")
          (dumped (plainEnv []).lib (parametersJson fileModeSystem.core .file)) ∧
      (∃ x image, fileModeSystem.core.preprocess.publishPair plainImaging "t" { data := [1] } {} 0 =
        some x ∧ x.2.request = some (.binary "t" image)) ∧
      ¬ ReportsModeUsed fileModeSystem.core := by
  refine ⟨rfl, rfl, ⟨_, _, rfl, rfl⟩, ?_⟩
  intro h
  obtain ⟨mode, hsends, htext⟩ := h (plainEnv []) (bytes "\x7b\x7d") (.object []) rfl
  obtain rfl : AIMode.binary = mode := hsends.used
  exact absurd htext (by decide)

end EcidsCore
