import EcidsCore.ApiRuns

set_option autoImplicit false

/-! What is left running or set behind a stop. -/
namespace EcidsCore
open ByteText GuardedRuns PreprocessModule

variable {R : Type}

structure Idle (c : Core R) : Prop where
  taskActive : c.status.taskActive = false
  task : c.task.type = .none
  mode : c.mode = .none
  activeRecord : c.records.activeRecord = ""
  recordPath : c.preprocess.activeRecordPath = ""
  aiTestMode : c.preprocess.aiTestMode = false
  paused : c.processingPaused = true

/-- What the stop of the other kind of task would have reset is already reset. -/
def ResetsAll (r : Route) (c : Core R) : Prop :=
  if r = .stopInspection then c.preprocess.aiTestMode = false
  else c.preprocess.activeRecordPath = "" ∧ c.processingPaused = true

theorem idle_stopped_iff (r : Route) (c : Core R) :
    Idle (if r = .stopInspection then c.stoppedInspection else c.stoppedAiTest) ↔
      ResetsAll r c := by
  unfold ResetsAll
  split
  · have hrest := c.stoppedInspection_atRest
    constructor
    · intro h
      have hmode := h.aiTestMode
      rwa [Core.stoppedInspection_preprocess] at hmode
    · intro h
      exact ⟨hrest.taskActive, congrArg TaskManager.type hrest.task, hrest.mode,
        hrest.activeRecord, by rw [Core.stoppedInspection_preprocess],
        by rw [Core.stoppedInspection_preprocess]; exact h, rfl⟩
  · have hrest := c.stoppedAiTest_atRest
    have hpaused : c.stoppedAiTest.processingPaused = c.processingPaused :=
      Core.deactivated_paused _
    constructor
    · intro h
      have hpath := h.recordPath
      rw [Core.stoppedAiTest_preprocess] at hpath
      exact ⟨hpath, hpaused.symm.trans h.paused⟩
    · rintro ⟨hpath, hp⟩
      exact ⟨hrest.taskActive, congrArg TaskManager.type hrest.task, hrest.mode,
        hrest.activeRecord, by rw [Core.stoppedAiTest_preprocess]; exact hpath,
        by rw [Core.stoppedAiTest_preprocess], hpaused.trans hp⟩

structure Unrecorded (c : Core R) : Prop where
  activeRecord : c.records.activeRecord = ""
  recordPath : c.preprocess.activeRecordPath = ""

theorem Idle.unrecorded {c : Core R} (h : Idle c) : Unrecorded c := ⟨h.activeRecord, h.recordPath⟩

theorem onAiResult_unrecorded [Double R] {m : PreprocessModule R} (h : m.activeRecordPath = "")
    (lib : Nlohmann R) (now : ℕ) (resp : DetectionResponse R) :
    (m.onAiResult lib now resp).2.writes = {} := by
  have hwrites : ∀ a, (m.handleResult lib a).writes = {} := by
    intro a
    exact if_pos h
  unfold onAiResult
  split
  · exact hwrites _
  · rfl
  · exact hwrites _

theorem resultCallback_unrecorded [Double R] {ctx : ChainContext R} (h : ctx.activeRecord = "")
    (lib : Nlohmann R) (vis : Vision R) (a : CallbackArgs R) :
    (resultCallback lib vis ctx a).2.2 = {} := by
  have hsave : ∀ result, ctx.post.saveResult lib ctx.activeRecord a result = {} := by
    intro result
    exact if_pos (.inr h)
  unfold resultCallback
  split
  · exact if_pos (.inr h)
  · cases hs : (ctx.post.skipsGap a.response a.subTask).1 with
    | true => exact PostprocessModule.process_skipped hs
    | false =>
      obtain ⟨result, hr⟩ := PostprocessModule.process_saved lib vis ctx.activeRecord ctx.stationId
        ctx.escalatorId hs
      exact hr.trans (hsave result)

theorem respond_unrecorded [Double R] {c : Core R} (h : Unrecorded c) (lib : Nlohmann R)
    (vis : Vision R) (now : ℕ) (resp : DetectionResponse R) :
    (c.respond lib vis now resp).2 = {} := by
  have hhandled := onAiResult_unrecorded h.recordPath lib now resp
  dsimp only [Core.respond]
  split
  · exact hhandled
  · rw [hhandled, resultCallback_unrecorded h.activeRecord]
    rfl

namespace ApiSystem
variable [Double R]

/-- No start is accepted. -/
def NoStart (s : ApiSystem R) : ApiAction R → Prop
  | .request env method path body =>
    ∀ q, startOf env.lib method path body = some q → s.core.status.taskActive = true
  | _ => True

/-- A response causes no file to be written. -/
def Silent (s : ApiSystem R) : ApiAction R → Prop
  | .aiResult env vis now resp => (s.core.respond env.lib vis now resp).2 = {}
  | _ => True

/-- A stop leaves the system idle, and silent until the next start. -/
def StopsIdle (s : ApiSystem R) : ApiAction R → Prop
  | .request env method path body => (route method path).IsStop →
    ∀ t, s.step (.request env method path body) = some t →
      Idle t.core ∧ ∀ as, Along step NoStart t as → Along step Silent t as
  | _ => True

def StopsMatching (s : ApiSystem R) : ApiAction R → Prop
  | .request _ method path _ => (route method path).IsStop → ResetsAll (route method path) s.core
  | _ => True

omit [Double R] in
theorem stopPreprocess_unrecorded {c : Core R} (hc : Unrecorded c) :
    Unrecorded (c.stopPreprocess finishAiTest) := by
  refine ⟨hc.activeRecord, ?_⟩
  change c.preprocess.haltAndJoin.1.activeRecordPath = ""
  rw [haltAndJoin_module]
  exact hc.recordPath

theorem completionStep_unrecorded {env : Env R} {p p' : String} {c c' : Core R} {a : ApiStep}
    (ha : a ∈ completionSteps) (h : exec env p c a = .next p' c') (hc : Unrecorded c) :
    Unrecorded c' := by
  simp only [completionSteps, List.mem_cons, List.not_mem_nil, or_false] at ha
  rcases ha with rfl | rfl | rfl | rfl | rfl
  · cases h
    exact stopPreprocess_unrecorded hc
  · cases h
    exact ⟨hc.activeRecord, hc.recordPath⟩
  · cases h
    exact ⟨hc.activeRecord, hc.recordPath⟩
  · cases h
    exact ⟨rfl, hc.recordPath⟩
  · cases h
    exact ⟨by rw [setMode_records]; exact hc.activeRecord,
      by rw [setMode_preprocess]; exact hc.recordPath⟩

theorem step_unrecorded {s t : ApiSystem R} {a : ApiAction R} (hs : Unrecorded s.core)
    (hn : NoStart s a) (h : s.step a = some t) : Unrecorded t.core := by
  cases stepped h with
  | started hq ha =>
    have hactive := hn _ hq
    rw [ha] at hactive
    cases hactive
  | stopped hr =>
    dsimp only
    split
    · exact ⟨(Core.stoppedInspection_atRest _).activeRecord, by rw [Core.stoppedInspection_preprocess]⟩
    · refine ⟨(Core.stoppedAiTest_atRest _).activeRecord, ?_⟩
      rw [Core.stoppedAiTest_preprocess]
      exact hs.recordPath
  | modeSet hr ha =>
    exact ⟨by rw [setMode_records]; exact hs.activeRecord,
      by rw [setMode_preprocess]; exact hs.recordPath⟩
  | undisturbed hc =>
    exact ⟨by rw [hc.records]; exact hs.activeRecord, hc.recordPath.trans hs.recordPath⟩
  | loopEnded hth => exact ⟨hs.activeRecord, hs.recordPath⟩
  | began hk => exact stopPreprocess_unrecorded ⟨hs.activeRecord, hs.recordPath⟩
  | advanced he ha hc => exact completionStep_unrecorded (List.mem_of_getElem? ha) hc hs

theorem silent_of_unrecorded {s : ApiSystem R} (hs : Unrecorded s.core) {as : List (ApiAction R)}
    (h : Along step NoStart s as) : Along step Silent s as := by
  refine along_of_invariant (fun _ _ _ hu hn ht => step_unrecorded hu hn ht) ?_ hs h
  intro u a hu _
  cases a with
  | aiResult env vis now resp => exact respond_unrecorded hu env.lib vis now resp
  | _ => trivial

theorem step_stop (s : ApiSystem R) (env : Env R) {method path : Bytes}
    (hr : (route method path).IsStop) (body : Bytes) :
    s.step (.request env method path body) =
      some { s with core := if route method path = .stopInspection then s.core.stoppedInspection
        else s.core.stoppedAiTest } := by
  have hreply : ∃ r, (handle env method path body s.core).1 = .reply r := by
    unfold handle
    rcases hr with hr | hr <;> rw [hr]
    · obtain ⟨text, h⟩ := makeResponse_ok env.lib 0 (validUtf8_bytes "Inspection stopped")
        (validUtf8_bytes "\x7b\x7d")
      exact ⟨_, congrArg bare h⟩
    · obtain ⟨text, h⟩ := makeResponse_ok env.lib 0 (validUtf8_bytes "AI test stopped")
        (validUtf8_bytes "\x7b\x7d")
      exact ⟨_, congrArg bare h⟩
  obtain ⟨r, hreply⟩ := hreply
  have hpair : handle env method path body s.core =
      (.reply r, (handle env method path body s.core).2) := Prod.ext hreply rfl
  rw [step, hpair, ← handle_stop env body _ hr]

theorem stops_idle_iff (s : ApiSystem R) (as : List (ApiAction R)) :
    Along step StopsIdle s as ↔ Along step StopsMatching s as := by
  refine along_congr (I := fun _ => True) (fun _ _ _ _ _ => trivial) ?_ trivial
  intro s a _
  cases a with
  | request env method path body =>
    refine forall_congr' fun hr => ?_
    rw [← idle_stopped_iff]
    constructor
    · intro h
      exact (h _ (step_stop s env hr body)).1
    · intro hidle t ht
      rw [step_stop s env hr body] at ht
      cases ht
      exact ⟨hidle, fun as => silent_of_unrecorded hidle.unrecorded⟩
  | _ => exact Iff.rfl

end ApiSystem

def lateResponse : DetectionResponse ℤ where
  transactionId := "t1"
  dealerId := "d"
  results := []

/-- The late response of a stopped AI test is written, and the other stop leaves its mode
set in the preprocess module. -/
theorem stopped_test_counterexample :
    (∃ s, run ApiSystem.step { core := bootCore } [startTest, stopBy "/StopAITest"] = some s ∧
      ¬ Idle s.core ∧
      ¬ ApiSystem.Silent s (.aiResult (plainEnv []) noVision 0 lateResponse)) ∧
    ∃ s, run ApiSystem.step { core := bootCore } [startTest, stopBy "/StopInspection"] = some s ∧
      s.core.preprocess.aiTestMode = true := by
  refine ⟨⟨_, rfl, ?_, ?_⟩, _, rfl, rfl⟩
  · intro h
    exact absurd h.recordPath (by decide)
  · intro h
    exact absurd (congrArg Writes.enqueued h) (by decide)

end EcidsCore
