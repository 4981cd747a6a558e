import EcidsCore.ApiRuns
import EcidsCore.PendingRuns
import EcidsCore.WorkingDistance

set_option autoImplicit false

/-! What the result callback publishes. During an installation that is the mean of the
working distances measured since the last start of an inspection. -/
namespace EcidsCore
open ByteText GuardedRuns PreprocessModule PostprocessModule

def subTaskName : InspectionSubTask → String
  | .none => "none"
  | .installation => "installation"
  | .marking => "marking"
  | .gapInspection => "gap_inspection"

/-- What is published of an installation beside the result itself. -/
structure InstallationReport where
  avg : ℚ
  wdOk : Bool
  taskDetected : Bool
deriving DecidableEq, Repr

namespace InstallationReport

def shown (r : InstallationReport) : ℚ := Double.round (r.avg * 10) / 10

def ready (r : InstallationReport) : Bool := r.wdOk && r.taskDetected

def of (sum : ℚ) (count : ℕ) (result : InspectionResult ℚ) : InstallationReport :=
  let avg := if 0 < count then sum / count else result.workingDistanceMm
  { avg, wdOk := 300 ≤ avg ∧ avg ≤ 1000, taskDetected := result.taskId = "T1" ∨ result.taskId = "T2" }

end InstallationReport

/-- The message, its fields in the order of their names. -/
def resultMessage (sub : InspectionSubTask) (report : Option InstallationReport)
    (r : InspectionResult ℚ) : Json ℚ :=
  let status (field : InstallationReport → String × Json ℚ) := (report.map field).toList
  .object ([("abnormal", labelsJson r.abnormal), ("ai_detections", labelsJson r.aiDetections)] ++
    status (fun s => ("avg_working_distance_mm", .number s.shown)) ++
    edgeField "dn_edge_long" r.gap.edges.dnLong ++ edgeField "dn_edge_short" r.gap.edges.dnShort ++
    [("escalator_id", .string r.escalatorId), ("gap_distance_mm", .number r.gap.gapDistanceMm)] ++
    (if r.gap.gapLines = [] then [] else [("gap_lines", gapLinesJson r.gap.gapLines)]) ++
    status (fun s => ("installation_ready", .boolean s.ready)) ++
    [("station_id", .string r.stationId), ("sub_task", .string (subTaskName sub))] ++
    status (fun s => ("task_detected", .boolean s.taskDetected)) ++
    [("task_id", .string r.taskId), ("timestamp", .string r.timestamp),
      ("transaction_id", .string r.transactionId)] ++
    edgeField "up_edge_long" r.gap.edges.upLong ++ edgeField "up_edge_short" r.gap.edges.upShort ++
    [("working_distance_mm", .number r.workingDistanceMm)] ++
    status (fun s => ("working_distance_ok", .boolean s.wdOk)))

structure Publication where
  subTask : InspectionSubTask
  taskId : String
  distances : List ℚ
  message : Json ℚ

def installationKeys : List String :=
  ["avg_working_distance_mm", "working_distance_ok", "task_detected", "installation_ready"]

/-- What an installation message says of the distances that entered it. -/
structure Publication.Says (p : Publication) : Prop where
  mean : p.subTask = .installation → ∃ shown,
    p.message.member? "avg_working_distance_mm" = some (.number shown) ∧
      |shown - p.distances.sum / p.distances.length| ≤ 1 / 20
  range : p.distances = [] ∨
    100 < p.distances.sum / p.distances.length ∧ p.distances.sum / p.distances.length < 5000
  ok : p.subTask = .installation → p.message.member? "working_distance_ok" =
    some (.boolean (300 ≤ p.distances.sum / p.distances.length ∧
      p.distances.sum / p.distances.length ≤ 1000))
  ready : p.subTask = .installation → p.message.member? "installation_ready" =
    some (.boolean ((300 ≤ p.distances.sum / p.distances.length ∧
      p.distances.sum / p.distances.length ≤ 1000) ∧ (p.taskId = "T1" ∨ p.taskId = "T2")))
  others : p.subTask ≠ .installation → ∀ key ∈ installationKeys, p.message.member? key = none

/-- Which of its two assignments the handler of a start has still to make. -/
inductive ResetStage where
  | sum
  | count
deriving DecidableEq, Repr

/-- The program with the handlers that have started the loop of an inspection and not yet
reset both sums. `distances` records the positive working distances of installation results
since the last such start, `published` what was published. -/
structure InstallationRun where
  api : ApiSystem ℚ
  resetting : List ResetStage := []
  distances : List ℚ := []
  published : List Publication := []

/-- A request is handled in one step but for the two assignments behind the start of the
loop. -/
inductive InstallationAction where
  | api (a : ApiAction ℚ)
  | resetSum (i : ℕ)
  | resetCount (i : ℕ)

namespace InstallationRun

/-- What the result callback computes in `respond`, if the response reaches it. -/
def called (env : Env ℚ) (vis : Vision ℚ) (now : ℕ) (resp : DetectionResponse ℚ) (c : Core ℚ) :
    Option (CallbackArgs ℚ × InspectionResult ℚ) :=
  let handled := c.preprocess.onAiResult env.lib now resp
  handled.2.callback.map fun a =>
    (a, (resultCallback env.lib vis { c with preprocess := handled.1 }.chainContext a).2.1)

def startResets (env : Env ℚ) (q : StartRequest) (c : Core ℚ) : Bool :=
  match q, runSteps env q.steps "" c with
  | .inspection _, .next _ _ => true
  | _, _ => false

def resets (env : Env ℚ) (method path body : Bytes) (c : Core ℚ) : Bool :=
  match startOf env.lib method path body with
  | some q => startResets env q c
  | none => false

def startsLoop (s : InstallationRun) : ApiAction ℚ → Bool
  | .request env method path body => resets env method path body s.api.core
  | _ => false

def nextDistances (s : InstallationRun) : ApiAction ℚ → List ℚ
  | .aiResult env vis now resp =>
    match called env vis now resp s.api.core with
    | some (a, result) =>
      if a.subTask = .installation ∧ 0 < result.workingDistanceMm then
        s.distances ++ [result.workingDistanceMm]
      else s.distances
    | none => s.distances
  | _ => s.distances

/-- What an action publishes, with the program's sums behind it. -/
def publications (s : InstallationRun) (after : Core ℚ) : ApiAction ℚ → List Publication
  | .aiResult env vis now resp =>
    match called env vis now resp s.api.core with
    | some (a, result) =>
      let report := if a.subTask = .installation then
          some (.of after.installationWdSum after.installationWdCount result)
        else none
      [{ subTask := a.subTask, taskId := result.taskId,
         distances := s.nextDistances (.aiResult env vis now resp),
         message := resultMessage a.subTask report result }]
    | none => []
  | _ => []

def onCore (s : InstallationRun) (f : Core ℚ → Core ℚ) : InstallationRun :=
  { s with api := { s.api with core := f s.api.core } }

/-- The state once the loop of an inspection is started: the sums are still the old ones. -/
def loopStarted (s : InstallationRun) (api : ApiSystem ℚ) : InstallationRun :=
  { api := { api with core := { api.core with
      installationWdSum := s.api.core.installationWdSum
      installationWdCount := s.api.core.installationWdCount } }
    resetting := s.resetting ++ [.sum]
    published := s.published }

def step (s : InstallationRun) : InstallationAction → Option InstallationRun
  | .api a =>
    (s.api.step a).map fun api =>
      if s.startsLoop a then s.loopStarted api
      else
        { s with api, distances := s.nextDistances a
                 published := s.published ++ s.publications api.core a }
  | .resetSum i =>
    if s.resetting[i]? = some .sum then
      some { s.onCore fun c => { c with installationWdSum := 0 } with
        resetting := s.resetting.set i .count }
    else none
  | .resetCount i =>
    if s.resetting[i]? = some .count then
      some { s.onCore fun c => { c with installationWdCount := 0 } with
        resetting := s.resetting.eraseIdx i }
    else none

def Measured (wd : ℚ) : Prop := ∃ depthData, wd = (calculateWorkingDistance depthData).getD 0

/-- Pairs enter the table with the distance that was measured for them, and the response of an
installation comes while no start is between its loop and the reset of the sums. -/
def Orderly (s : InstallationRun) : InstallationAction → Prop
  | .api (.insertPending _ p) => Measured p.workingDistanceMm
  | .api (.aiResult env vis now resp) => ∀ a result,
      called env vis now resp s.api.core = some (a, result) → a.subTask = .installation →
        s.resetting = []
  | _ => True

end InstallationRun

structure Core.Calm (c c' : Core ℚ) : Prop where
  sum : c'.installationWdSum = c.installationWdSum
  count : c'.installationWdCount = c.installationWdCount
  pending : ∀ k e, c'.preprocess.pending.lookup k = some e →
    c.preprocess.pending.lookup k = some e

namespace Core

variable {c c' : Core ℚ}

theorem Calm.of_eq (hsum : c'.installationWdSum = c.installationWdSum)
    (hcount : c'.installationWdCount = c.installationWdCount)
    (hpending : c'.preprocess.pending = c.preprocess.pending) : Calm c c' := by
  refine ⟨hsum, hcount, ?_⟩
  rw [hpending]
  exact fun _ _ h => h

theorem Calm.trans {d : Core ℚ} (h : Calm c c') (h' : Calm c' d) : Calm c d :=
  ⟨h'.sum.trans h.sum, h'.count.trans h.count, fun k e hk => h.pending k e (h'.pending k e hk)⟩

theorem calm_setMode (m : Mode) (c : Core ℚ) : Calm c (c.setMode m).2 := by
  obtain ⟨mode, tracked, h⟩ := setMode_frame m c
  rw [h]
  exact .of_eq rfl rfl rfl

theorem calm_deactivated (c : Core ℚ) : Calm c c.deactivated := by
  let c' : Core ℚ := { c with
    task := .stop
    status := { c.status with taskActive := false }
    records := c.records.setActiveRecord "" }
  have hcleared : Calm c c' := .of_eq rfl rfl rfl
  exact hcleared.trans (calm_setMode .none c')

theorem calm_stopPreprocess (finish : PreprocessModule ℚ → PreprocessModule ℚ)
    (hfinish : ∀ m, (finish m).pending = m.pending) (c : Core ℚ) :
    Calm c (c.stopPreprocess finish) := by
  refine .of_eq rfl rfl ?_
  change (finish c.preprocess.haltAndJoin.1).pending = _
  rw [hfinish, haltAndJoin_module]

theorem calm_begun (q : StartRequest) (c : Core ℚ) : Calm c (q.begun c) := by
  obtain ⟨mode, tracked, h⟩ := setMode_frame q.mode c
  unfold StartRequest.begun
  rw [h]
  exact .of_eq rfl rfl rfl

theorem calm_launched (env : Env ℚ) (q : StartRequest) (joined : PreprocessModule ℚ × Bool)
    (b : Core ℚ) : Calm b (q.launched env joined b) := by
  refine ⟨by cases q <;> rfl, by cases q <;> rfl, ?_⟩
  have hempty : (q.launched env joined b).preprocess.pending = ∅ := by cases q <;> rfl
  intro k e hk
  rw [hempty, AList.lookup_empty] at hk
  cases hk

theorem outcome_sums (env : Env ℚ) (q : StartRequest) (b : Core ℚ) :
    Calm b (q.outcome env b).core ∧ (∀ r p c', q = .inspection r → q.outcome env b ≠ .next p c') ∨
      (∃ r, q = .inspection r) ∧ ∃ p c', q.outcome env b = .next p c' ∧
        c'.installationWdSum = 0 ∧ c'.installationWdCount = 0 ∧
        Calm b { c' with
          installationWdSum := b.installationWdSum, installationWdCount := b.installationWdCount } := by
  unfold StartRequest.outcome
  cases (q.created env b).2 with
  | some text => exact .inl ⟨.of_eq rfl rfl rfl, fun _ _ _ _ h => by cases h⟩
  | none =>
    cases b.preprocess.join with
    | none => exact .inl ⟨.of_eq rfl rfl rfl, fun _ _ _ _ h => by cases h⟩
    | some joined =>
      cases env.spawn with
      | some text => exact .inl ⟨calm_launched env q joined b, fun _ _ _ _ h => by cases h⟩
      | none =>
        have hlaunched := calm_launched env q joined b
        cases q with
        | aiTest r => exact .inl ⟨hlaunched, fun _ _ _ h => by cases h⟩
        | inspection r =>
          exact .inr ⟨⟨r, rfl⟩, _, _, rfl, rfl, rfl, rfl, rfl, hlaunched.pending⟩

end Core

namespace InstallationRun

theorem resets_not_start {env : Env ℚ} {method path body : Bytes} {c : Core ℚ}
    (h : ¬ (route method path).IsStart) : resets env method path body c = false := by
  unfold resets
  split
  · rename_i q hq
    exact absurd (startOf_route hq) h
  · rfl

theorem start_sums (env : Env ℚ) (q : StartRequest) {c : Core ℚ} (ha : c.status.taskActive = false) :
    startResets env q c = false ∧ Core.Calm c (runSteps env q.steps "" c).core ∨
      startResets env q c = true ∧
        (runSteps env q.steps "" c).core.installationWdSum = 0 ∧
        (runSteps env q.steps "" c).core.installationWdCount = 0 ∧
        ∀ k e, (runSteps env q.steps "" c).core.preprocess.pending.lookup k = some e →
          c.preprocess.pending.lookup k = some e := by
  have hbegun := Core.calm_begun q c
  unfold startResets
  rw [runSteps_start env q ha]
  rcases Core.outcome_sums env q (q.begun c) with ⟨hcalm, hnot⟩ | ⟨⟨r, rfl⟩, p, c', hnext, hsum, hcount, hcalm⟩
  · left
    refine ⟨?_, hbegun.trans hcalm⟩
    cases q with
    | aiTest r => rfl
    | inspection r =>
      cases hout : (StartRequest.inspection r).outcome env ((StartRequest.inspection r).begun c) with
      | next p c' => exact absurd hout (hnot r p c' rfl)
      | _ => rfl
  · right
    rw [hnext]
    exact ⟨rfl, hsum, hcount, fun k e hk => hbegun.pending k e (hcalm.pending k e hk)⟩

/-- What a request does to the sums. -/
theorem request_sums (env : Env ℚ) (method path body : Bytes) (c : Core ℚ) :
    resets env method path body c = false ∧ Core.Calm c (handle env method path body c).2 ∨
      resets env method path body c = true ∧
        (handle env method path body c).2.installationWdSum = 0 ∧
        (handle env method path body c).2.installationWdCount = 0 ∧
        ∀ k e, (handle env method path body c).2.preprocess.pending.lookup k = some e →
          c.preprocess.pending.lookup k = some e := by
  by_cases hstart : (route method path).IsStart
  · by_cases hq : ∃ q, startOf env.lib method path body = some q ∧ c.status.taskActive = false
    · obtain ⟨q, hq, ha⟩ := hq
      rw [handle_start hq, finish_core, resets, hq]
      exact start_sums env q ha
    · rw [handle_start_rejected hstart fun q hsome => by simpa [hsome] using hq]
      refine .inl ⟨?_, .of_eq rfl rfl rfl⟩
      unfold resets
      split
      · rename_i q hsome
        have ha : c.status.taskActive := by simpa [hsome] using hq
        unfold startResets
        rw [runSteps_conflict env q ha]
        cases q <;> rfl
      · rfl
  · left
    refine ⟨resets_not_start hstart, ?_⟩
    by_cases hstop : (route method path).IsStop
    · rw [handle_stop _ _ _ hstop]
      split
      · refine (Core.calm_stopPreprocess finishInspection (fun _ => rfl) c).trans ?_
        exact (Core.calm_deactivated _).trans (.of_eq rfl rfl rfl)
      · exact (Core.calm_stopPreprocess finishAiTest (fun _ => rfl) c).trans (Core.calm_deactivated _)
    · rcases handle_other env body c hstart hstop with
        ⟨_, _, _, _, _, hsame⟩ | ⟨-, -, m, hset⟩
      · rw [hsame]
        exact .of_eq rfl rfl rfl
      · rw [hset]
        exact Core.calm_setMode m c

theorem find?_edgeField {name key : String} (h : name ≠ key) (e : FittedEdge ℚ) :
    (edgeField name e).find? (fun f => f.1 = key) = none := by
  unfold edgeField
  split <;> simp [h]

theorem find?_gapLines {key : String} (h : "gap_lines" ≠ key) (gls : List (GapLineInfo ℚ)) :
    (if gls = [] then [] else [("gap_lines", gapLinesJson gls)]).find? (fun f => f.1 = key) =
      none := by
  split <;> simp [h]

/-- The fields that an installation adds, and that other messages lack. -/
theorem resultMessage_status (sub : InspectionSubTask) (report : Option InstallationReport)
    (r : InspectionResult ℚ) :
    (resultMessage sub report r).member? "avg_working_distance_mm" =
        report.map (fun s => .number s.shown) ∧
      (resultMessage sub report r).member? "working_distance_ok" =
        report.map (fun s => .boolean s.wdOk) ∧
      (resultMessage sub report r).member? "installation_ready" =
        report.map (fun s => .boolean s.ready) := by
  cases report <;>
    simp [resultMessage, Json.member?, List.find?_append, find?_edgeField, find?_gapLines]

theorem resultMessage_none (sub : InspectionSubTask) (r : InspectionResult ℚ) {key : String}
    (hkey : key ∈ installationKeys) : (resultMessage sub none r).member? key = none := by
  simp only [installationKeys, List.mem_cons, List.not_mem_nil, or_false] at hkey
  rcases hkey with rfl | rfl | rfl | rfl <;>
    simp [resultMessage, Json.member?, List.find?_append, find?_edgeField, find?_gapLines]

theorem abs_shown_sub (r : InstallationReport) : |r.shown - r.avg| ≤ 1 / 20 := by
  have hround (x : ℚ) : |(Double.round x : ℚ) - x| ≤ 1 / 2 := by
    change |(if 0 ≤ x then ((⌊x + 1 / 2⌋ : ℤ) : ℚ) else -((⌊-x + 1 / 2⌋ : ℤ) : ℚ)) - x| ≤ 1 / 2
    rw [abs_le]
    split
    · have hle := Int.floor_le (x + 1 / 2)
      have hlt := Int.lt_floor_add_one (x + 1 / 2)
      constructor <;> linarith
    · have hle := Int.floor_le (-x + 1 / 2)
      have hlt := Int.lt_floor_add_one (-x + 1 / 2)
      constructor <;> linarith
  have hten := abs_le.1 (hround (r.avg * 10))
  rw [InstallationReport.shown, abs_le]
  constructor <;> linarith [hten.1, hten.2]

def InRange (wd : ℚ) : Prop := wd = 0 ∨ 100 < wd ∧ wd < 5000

theorem inRange_of_measured {wd : ℚ} (h : Measured wd) : InRange wd := by
  obtain ⟨depthData, rfl⟩ := h
  exact Imaging.measured_range
    ⟨fun _ _ raw => raw, fun _ => [], fun _ => 0⟩ depthData

/-- The sums are those of the recorded distances, once no handler has still to reset them. -/
structure Metered (s : InstallationRun) : Prop where
  sum : .sum ∉ s.resetting → s.api.core.installationWdSum = s.distances.sum
  count : s.resetting = [] → s.api.core.installationWdCount = s.distances.length
  cleared : s.resetting ≠ [] → s.distances = []
  range : ∀ d ∈ s.distances, 100 < d ∧ d < 5000
  pending : ∀ k e, s.api.core.preprocess.pending.lookup k = some e → InRange e.workingDistanceMm
  published : ∀ p ∈ s.published, p.Says

variable {s t : InstallationRun} {env : Env ℚ} {vis : Vision ℚ} {now : ℕ}
  {resp : DetectionResponse ℚ} {c : Core ℚ}

theorem callback_inRange {a : CallbackArgs ℚ}
    (hpending : ∀ k e, c.preprocess.pending.lookup k = some e → InRange e.workingDistanceMm)
    (h : (c.preprocess.onAiResult env.lib now resp).2.callback = some a) :
    InRange a.workingDistanceMm := by
  by_cases hempty : c.preprocess.pending = ∅
  · have htake : takePending now resp.transactionId c.preprocess.pending = (.nothing, ∅) := by
      rw [hempty, takePending_empty]
    rw [onAiResult, htake] at h
    rw [handleResult_callback h]
    exact .inl rfl
  · obtain ⟨k, e, hk, -, htake⟩ := takePending_spec now resp.transactionId hempty
    rw [onAiResult, htake] at h
    split at h
    · rename_i e' rest heq
      rw [handleResult_callback h]
      have he : e' = e := by
        rw [Prod.mk.injEq] at heq
        by_cases hold : k ≠ resp.transactionId ∧ 30 * 10 ^ 9 < now - e.createdAt
        · rw [if_pos hold] at heq
          cases heq.1
        · rw [if_neg hold] at heq
          exact (Taken.request.inj heq.1).symm
      rw [he]
      exact hpending k e hk
    · cases h
    · rename_i rest heq
      rw [Prod.mk.injEq] at heq
      split at heq <;> cases heq.1

theorem result_workingDistance (ctx : ChainContext ℚ) (a : CallbackArgs ℚ) :
    (resultCallback env.lib vis ctx a).2.1.workingDistanceMm = 0 ∨
      (resultCallback env.lib vis ctx a).2.1.workingDistanceMm = a.workingDistanceMm := by
  unfold resultCallback
  split
  · exact .inl rfl
  · right
    dsimp only [process]
    split <;> rfl

theorem respond_called (h : called env vis now resp c = none) :
    Core.Calm c (c.respond env.lib vis now resp).1 := by
  unfold called at h
  rw [Option.map_eq_none_iff] at h
  unfold Core.respond
  dsimp only
  rw [h]
  exact ⟨rfl, rfl, fun k e hk => PendingSystem.onAiResult_shrinks now resp c.preprocess hk⟩

theorem respond_called_some {a : CallbackArgs ℚ} {result : InspectionResult ℚ}
    (h : called env vis now resp c = some (a, result)) :
    ∃ c', Core.Calm c c' ∧
      (c.respond env.lib vis now resp).1 = c'.measured a.subTask result.workingDistanceMm := by
  unfold called at h
  obtain ⟨a', ha, hpair⟩ := Option.map_eq_some_iff.1 h
  rw [Prod.mk.injEq] at hpair
  obtain ⟨rfl, rfl⟩ := hpair
  unfold Core.respond
  dsimp only
  rw [ha]
  refine ⟨_, ?_, rfl⟩
  exact ⟨rfl, rfl, fun k e hk => PendingSystem.onAiResult_shrinks now resp c.preprocess hk⟩

/-- Every other action leaves the sums alone. -/
theorem calm_step {a : ApiAction ℚ} {u v : ApiSystem ℚ}
    (hrequest : ∀ env method path body, a ≠ .request env method path body)
    (hresult : ∀ env vis now resp, a ≠ .aiResult env vis now resp)
    (hinsert : ∀ now p, a ≠ .insertPending now p) (h : u.step a = some v) :
    Core.Calm u.core v.core := by
  cases a with
  | request env method path body => exact absurd rfl (hrequest env method path body)
  | aiResult env vis now resp => exact absurd rfl (hresult env vis now resp)
  | insertPending now p => exact absurd rfl (hinsert now p)
  | publishPair img ts left right wd =>
    obtain ⟨x, hx, rfl⟩ := Option.map_eq_some_iff.1 h
    exact .of_eq rfl rfl (publishPair_pair hx).2
  | publishFile img ts leftPath rightPath =>
    cases h
    exact .of_eq rfl rfl rfl
  | reconnected =>
    cases h
    refine ⟨rfl, rfl, fun k e hk => ?_⟩
    change (∅ : PendingTable ℚ).lookup k = some e at hk
    rw [AList.lookup_empty] at hk
    cases hk
  | loopEnds =>
    obtain ⟨c, hc, rfl⟩ := Option.map_eq_some_iff.1 h
    obtain ⟨found, -, rfl⟩ := Core.loopEnds_some hc
    exact .of_eq rfl rfl rfl
  | completionBegins k =>
    rw [ApiSystem.step] at h
    split at h
    · cases h
      have herased : Core.Calm u.core { u.core with completions := u.core.completions.erase k } :=
        .of_eq rfl rfl rfl
      exact herased.trans (Core.calm_stopPreprocess finishAiTest (fun _ => rfl) _)
    · cases h
  | completionStep env i =>
    obtain ⟨e, b, p, c, -, hb, hc, rfl⟩ := ApiSystem.completionStep_some h
    have hmem := List.mem_of_getElem? hb
    simp only [completionSteps, List.mem_cons, List.not_mem_nil, or_false] at hmem
    rcases hmem with rfl | rfl | rfl | rfl | rfl <;> cases hc
    · exact Core.calm_stopPreprocess finishAiTest (fun _ => rfl) u.core
    · exact .of_eq rfl rfl rfl
    · exact .of_eq rfl rfl rfl
    · exact .of_eq rfl rfl rfl
    · exact Core.calm_setMode .none u.core

theorem Metered.of_calm (hs : Metered s) {v : ApiSystem ℚ} (h : Core.Calm s.api.core v.core) :
    Metered { s with api := v } :=
  ⟨fun hsum => h.sum.trans (hs.sum hsum), fun hfree => h.count.trans (hs.count hfree), hs.cleared,
    hs.range, fun k e hk => hs.pending k e (h.pending k e hk), hs.published⟩

/-- The message of a state whose sums are those of its distances. -/
theorem says_of_sums {ds : List ℚ} (hds : ∀ d ∈ ds, 100 < d ∧ d < 5000) (sub : InspectionSubTask)
    {result : InspectionResult ℚ} {sum : ℚ} {count : ℕ}
    (hsums : sub = .installation → sum = ds.sum ∧ count = ds.length)
    (hempty : sub = .installation → ds = [] → result.workingDistanceMm = 0) :
    Publication.Says
      { subTask := sub, taskId := result.taskId, distances := ds,
        message := resultMessage sub
          (if sub = .installation then some (.of sum count result) else none) result } := by
  have havg (hsub : sub = .installation) :
      (InstallationReport.of sum count result).avg = ds.sum / ds.length := by
    unfold InstallationReport.of
    dsimp only
    rw [(hsums hsub).1, (hsums hsub).2]
    split
    · rfl
    · rename_i hzero
      have hnil : ds = [] := List.length_eq_zero_iff.1 (Nat.eq_zero_of_not_pos hzero)
      rw [hempty hsub hnil, hnil]
      simp
  obtain ⟨hshown, hok, hready⟩ := resultMessage_status sub
    (if sub = .installation then some (.of sum count result) else none) result
  refine ⟨?_, ?_, ?_, ?_, ?_⟩
  · intro hsub
    refine ⟨(InstallationReport.of sum count result).shown, ?_, ?_⟩
    · rw [hshown, if_pos hsub]
      rfl
    · dsimp only
      rw [← havg hsub]
      exact abs_shown_sub _
  · by_cases hnil : ds = []
    · exact .inl hnil
    · exact .inr (mean_between hnil hds)
  · intro hsub
    rw [hok, if_pos hsub]
    dsimp only
    rw [← havg hsub]
    rfl
  · intro hsub
    rw [hready, if_pos hsub]
    dsimp only
    rw [← havg hsub, Bool.decide_and]
    rfl
  · intro hsub key hkey
    rw [if_neg hsub]
    exact resultMessage_none sub result hkey

theorem measured_sums {c' : Core ℚ} (hs : Metered { s with api := { s.api with core := c' } })
    {sub : InspectionSubTask} (hfree : sub = .installation → s.resetting = []) {wd : ℚ}
    (hwd : InRange wd) :
    Metered { s with
      api := { s.api with core := c'.measured sub wd }
      distances := if sub = .installation ∧ 0 < wd then s.distances ++ [wd] else s.distances } := by
  unfold Core.measured
  split
  · rename_i hcond
    have hnone := hfree hcond.1
    have hsum : c'.installationWdSum = s.distances.sum :=
      hs.sum (by change ResetStage.sum ∉ s.resetting; rw [hnone]; exact List.not_mem_nil)
    have hcount : c'.installationWdCount = s.distances.length := hs.count hnone
    refine ⟨fun _ => ?_, fun _ => ?_, fun hbusy => absurd hnone hbusy, ?_, hs.pending, hs.published⟩
    · rw [List.sum_append, List.sum_singleton, ← hsum]
    · rw [List.length_append, ← hcount]
      rfl
    · intro d hd
      rcases List.mem_append.1 hd with hd | hd
      · exact hs.range d hd
      · rw [List.mem_singleton.1 hd]
        exact hwd.resolve_left hcond.2.ne'
  · exact hs

theorem api_some {a : ApiAction ℚ} (h : s.step (.api a) = some t) : ∃ v, s.api.step a = some v ∧
    t = if s.startsLoop a then s.loopStarted v
      else
        { s with api := v, distances := s.nextDistances a
                 published := s.published ++ s.publications v.core a } := by
  obtain ⟨v, hv, rfl⟩ := Option.map_eq_some_iff.1 h
  exact ⟨v, hv, rfl⟩

theorem metered_request {method path body : Bytes} (hs : Metered s)
    (h : s.step (.api (.request env method path body)) = some t) : Metered t := by
  obtain ⟨v, hv, rfl⟩ := api_some h
  have hcore : v.core = (handle env method path body s.api.core).2 := by
    rw [ApiSystem.request_some hv]
  rcases request_sums env method path body s.api.core with
    ⟨hno, hcalm⟩ | ⟨hyes, -, -, hpending⟩
  · rw [← hcore] at hcalm
    rw [show s.startsLoop (.request env method path body) = false from hno]
    have hkept := hs.of_calm hcalm
    refine ⟨hkept.sum, hkept.count, hkept.cleared, hkept.range, hkept.pending, ?_⟩
    change ∀ p ∈ s.published ++ [], Publication.Says p
    rw [List.append_nil]
    exact hs.published
  · rw [← hcore] at hpending
    rw [show s.startsLoop (.request env method path body) = true from hyes]
    refine ⟨fun hsum => ?_, fun hfree => ?_, fun _ => rfl, List.forall_mem_nil _,
      fun k e hk => hs.pending k e (hpending k e hk), hs.published⟩
    · exact absurd (List.mem_append_right _ (List.mem_singleton_self _)) hsum
    · exact absurd hfree (List.append_ne_nil_of_right_ne_nil _ (List.cons_ne_nil _ _))

theorem metered_aiResult (hs : Metered s) (ha : Orderly s (.api (.aiResult env vis now resp)))
    (h : s.step (.api (.aiResult env vis now resp)) = some t) : Metered t := by
  obtain ⟨v, hv, rfl⟩ := api_some h
  obtain rfl : { s.api with core := (s.api.core.respond env.lib vis now resp).1 } = v :=
    Option.some.inj hv
  rw [show s.startsLoop (.aiResult env vis now resp) = false from rfl]
  cases hcalled : called env vis now resp s.api.core with
  | none =>
    have hkept := hs.of_calm (v := { s.api with core := (s.api.core.respond env.lib vis now resp).1 })
      (respond_called hcalled)
    simp only [Bool.false_eq_true, if_false, nextDistances, publications, hcalled, List.append_nil]
    exact hkept
  | some x =>
    obtain ⟨a, result⟩ := x
    obtain ⟨c', hcalm, hcore⟩ := respond_called_some hcalled
    have hkept := hs.of_calm (v := { s.api with core := c' }) hcalm
    have hfree : a.subTask = .installation → s.resetting = [] := ha a result hcalled
    have hwd : InRange result.workingDistanceMm := by
      unfold called at hcalled
      obtain ⟨a', ha, hpair⟩ := Option.map_eq_some_iff.1 hcalled
      rw [Prod.mk.injEq] at hpair
      obtain ⟨rfl, rfl⟩ := hpair
      rcases result_workingDistance _ a' with hzero | hsame
      · exact .inl hzero
      · rw [hsame]
        exact callback_inRange hs.pending ha
    have hafter := measured_sums hkept hfree hwd
    simp only [Bool.false_eq_true, if_false, nextDistances, publications, hcalled, hcore]
    refine ⟨hafter.sum, hafter.count, hafter.cleared, hafter.range, hafter.pending, ?_⟩
    intro p hp
    rcases List.mem_append.1 hp with hp | hp
    · exact hs.published p hp
    · rw [List.mem_singleton.1 hp]
      apply says_of_sums hafter.range
      · intro hsub
        have hnone : ResetStage.sum ∉ s.resetting := by
          rw [hfree hsub]
          exact List.not_mem_nil
        exact ⟨hafter.sum hnone, hafter.count (hfree hsub)⟩
      · intro hsub hnil
        rcases hwd with hzero | hpos
        · exact hzero
        · rw [if_pos ⟨hsub, by linarith [hpos.1]⟩] at hnil
          exact absurd hnil (List.append_ne_nil_of_right_ne_nil _ (List.cons_ne_nil _ _))

theorem metered_insert {p : PairInFlight ℚ} (hs : Metered s) (hp : Measured p.workingDistanceMm)
    (h : s.step (.api (.insertPending now p)) = some t) : Metered t := by
  obtain ⟨v, hv, rfl⟩ := api_some h
  cases hv
  refine ⟨hs.sum, hs.count, hs.cleared, hs.range, ?_, ?_⟩
  · intro k e hk
    rcases insertPending_lookup hk with ⟨-, rfl⟩ | hold
    · exact inRange_of_measured hp
    · exact hs.pending k e hold
  · change ∀ q ∈ s.published ++ [], Publication.Says q
    rw [List.append_nil]
    exact hs.published

theorem metered_api {a : ApiAction ℚ} (hs : Metered s) (ha : Orderly s (.api a))
    (h : s.step (.api a) = some t) : Metered t := by
  by_cases hrequest : ∃ env method path body, a = .request env method path body
  · obtain ⟨env, method, path, body, rfl⟩ := hrequest
    exact metered_request hs h
  · by_cases hresult : ∃ env vis now resp, a = .aiResult env vis now resp
    · obtain ⟨env, vis, now, resp, rfl⟩ := hresult
      exact metered_aiResult hs ha h
    · by_cases hinsert : ∃ now p, a = .insertPending now p
      · obtain ⟨now, p, rfl⟩ := hinsert
        exact metered_insert hs ha h
      · obtain ⟨v, hv, rfl⟩ := api_some h
        have hcalm := calm_step (fun _ _ _ _ he => hrequest ⟨_, _, _, _, he⟩)
          (fun _ _ _ _ he => hresult ⟨_, _, _, _, he⟩) (fun _ _ he => hinsert ⟨_, _, he⟩) hv
        have hkept := hs.of_calm hcalm
        cases a with
        | request env method path body => exact absurd ⟨_, _, _, _, rfl⟩ hrequest
        | aiResult env vis now resp => exact absurd ⟨_, _, _, _, rfl⟩ hresult
        | _ =>
          refine ⟨hkept.sum, hkept.count, hkept.cleared, hkept.range, hkept.pending, ?_⟩
          change ∀ q ∈ s.published ++ [], Publication.Says q
          rw [List.append_nil]
          exact hs.published

/-- The sums stay those of the recorded distances, and every message says their mean. -/
theorem metered_step {a : InstallationAction} (hs : Metered s) (ha : Orderly s a)
    (h : s.step a = some t) : Metered t := by
  cases a with
  | api a => exact metered_api hs ha h
  | resetSum i =>
    simp only [step] at h
    split at h
    · rename_i hi
      cases h
      have hbusy : s.resetting ≠ [] := List.ne_nil_of_mem (List.mem_of_getElem? hi)
      have hnil := hs.cleared hbusy
      refine ⟨fun _ => ?_, fun hfree => ?_, fun _ => hnil, hs.range, hs.pending, hs.published⟩
      · change (0 : ℚ) = s.distances.sum
        rw [hnil]
        rfl
      · exact absurd ((List.set_eq_nil_iff i .count).1 hfree) hbusy
    · cases h
  | resetCount i =>
    simp only [step] at h
    split at h
    · rename_i hi
      cases h
      have hbusy : s.resetting ≠ [] := List.ne_nil_of_mem (List.mem_of_getElem? hi)
      have hnil := hs.cleared hbusy
      refine ⟨fun hsum => hs.sum ?_, fun _ => ?_, fun _ => hnil, hs.range, hs.pending, hs.published⟩
      · -- the handler that leaves has reset its sum before
        intro hmem
        obtain ⟨j, hj⟩ := List.mem_iff_getElem?.1 hmem
        have hne : j ≠ i := by
          rintro rfl
          rw [hi] at hj
          cases hj
        exact hsum (List.mem_eraseIdx_iff_getElem?.2 ⟨j, hne, hj⟩)
      · change 0 = s.distances.length
        rw [hnil]
        rfl
    · cases h

/-- A start whose handler goes on at once is the whole one. -/
theorem reset_whole {a : ApiAction ℚ} (hstarts : s.startsLoop a = true)
    (h : s.step (.api a) = some t) : ∃ u,
      run step t [.resetSum s.resetting.length, .resetCount s.resetting.length] = some u ∧
        s.api.step a = some u.api ∧ u.resetting = s.resetting := by
  obtain ⟨v, hv, rfl⟩ := api_some h
  rw [if_pos hstarts]
  cases a with
  | request env method path body =>
    have hcore : v.core = (handle env method path body s.api.core).2 := by
      rw [ApiSystem.request_some hv]
    rcases request_sums env method path body s.api.core with ⟨hno, -⟩ | ⟨-, hsum, hcount, -⟩
    · rw [startsLoop, hno] at hstarts
      cases hstarts
    · rw [← hcore] at hsum hcount
      have hwhole : { v with core := { v.core with
          installationWdSum := 0, installationWdCount := 0 } } = v := by
        rw [← hsum, ← hcount]
      let between : InstallationRun :=
        { (s.loopStarted v).onCore fun c => { c with installationWdSum := 0 } with
          resetting := s.resetting ++ [.count] }
      have hfirst : (s.loopStarted v).step (.resetSum s.resetting.length) = some between := by
        simp [step, loopStarted, between]
      have hsecond : between.step (.resetCount s.resetting.length) =
          some { api := v, resetting := s.resetting, published := s.published } := by
        have hgone : (s.resetting ++ [ResetStage.count]).eraseIdx s.resetting.length =
            s.resetting := by
          rw [List.eraseIdx_append_of_length_le le_rfl, Nat.sub_self]
          exact List.append_nil _
        have hlast : between.resetting[s.resetting.length]? = some .count := by simp [between]
        refine (if_pos hlast).trans ?_
        simp only [between, onCore, loopStarted, hgone, Option.some.injEq, InstallationRun.mk.injEq]
        exact ⟨hwhole, trivial, trivial, trivial⟩
      exact ⟨_, run_cons_some.2 ⟨_, hfirst, run_cons_some.2 ⟨_, hsecond, rfl⟩⟩, hv, rfl⟩
  | _ => cases hstarts

/-- In every run from a program without sums and pending pairs, whose pairs enter the table
with the distance measured for them, each message of an installation says the mean of the
positive distances since the last start of an inspection. -/
theorem installation_reports {c : Core ℚ} (hsum : c.installationWdSum = 0)
    (hcount : c.installationWdCount = 0) (hpending : c.preprocess.pending = ∅)
    {as : List InstallationAction} {s : InstallationRun}
    (hp : Along step Orderly { api := { core := c } } as)
    (h : run step { api := { core := c } } as = some s) :
    (∀ p ∈ s.published, p.Says) ∧ (s.resetting = [] →
      s.api.core.installationWdSum = s.distances.sum ∧
        s.api.core.installationWdCount = s.distances.length) := by
  have hinit : Metered { api := { core := c } } := by
    refine ⟨fun _ => hsum, fun _ => hcount, fun hbusy => absurd rfl hbusy,
      fun d hd => absurd hd List.not_mem_nil, ?_, fun p hp => absurd hp List.not_mem_nil⟩
    intro k e hk
    change c.preprocess.pending.lookup k = some e at hk
    rw [hpending, AList.lookup_empty] at hk
    cases hk
  have hkept : Metered s := run_invariant (fun _ _ _ hs ha ht => metered_step hs ha ht) hinit hp h
  refine ⟨hkept.published, fun hfree => ⟨hkept.sum ?_, hkept.count hfree⟩⟩
  rw [hfree]
  exact List.not_mem_nil

def installing : Core ℚ where
  status := { databaseSizeGb := 0 }
  records := bootCore.records
  aiMode := .binary
  config := .object []
  preprocess := { aiMode := .binary }
  post := { minConfidence := 0, sameGap := .default }
  installationWdSum := 0

def installerEnv : Env ℚ where
  lib := { plainLib fun _ => "0" with
    parse := fun b =>
      if b = stationBody then .ok (.object [("escalator_id", .string "E"), ("station_id", .string "S")])
      else .ok (.object []) }
  fs := emptyDisk
  now := ⟨2026, 6, 21, 10, 0, 0, 0⟩
  spawn := none
  testDataFound _ := true
  camera _ _ _ := []
  ai _ _ := []

theorem measured_half : Measured 500 := by
  have hvalue : floatValue (BigEndian.value ([0x00, 0x00, 0x00, 0x3F] : Bytes).reverse) =
      .finite (1 / 2) := by
    have hbits : BigEndian.value ([0x00, 0x00, 0x00, 0x3F] : Bytes).reverse = 0x3F000000 := rfl
    rw [hbits]
    norm_num [floatValue]
  refine ⟨levelMap 2 [0x00, 0x00, 0x00, 0x3F], ?_⟩
  rw [calculateWorkingDistance_level le_rfl rfl hvalue (by norm_num) (by norm_num)]
  norm_num

/-- An inspection is started, and then a pair at half a metre and one without a depth map are
answered. -/
def halfMetre : List InstallationAction :=
  [.api (.request installerEnv (bytes "POST") (bytes "/StartInspection") stationBody),
    .resetSum 0, .resetCount 0, .api (.insertPending 0 ⟨"t", {}, {}, 0, 500, false⟩),
    .api (.aiResult installerEnv noVision 0 { transactionId := "t", dealerId := "", results := [] }),
    .api (.insertPending 0 ⟨"u", {}, {}, 1, 0, false⟩),
    .api (.aiResult installerEnv noVision 0 { transactionId := "u", dealerId := "", results := [] })]

theorem installation_reports_halfMetre : ∃ s,
    run step { api := { core := installing } } halfMetre = some s ∧
      s.published.map Publication.distances = [[500], [500]] ∧ ∀ p ∈ s.published, p.Says := by
  have horderly : Along step Orderly { api := { core := installing } } halfMetre :=
    along_cons_of trivial rfl (along_cons_of trivial rfl (along_cons_of trivial rfl
      (along_cons_of measured_half rfl (along_cons_of (fun _ _ _ _ => rfl) rfl
        (along_cons_of ⟨[], rfl⟩ rfl (along_cons_of (fun _ _ _ _ => rfl) rfl (along_nil _ _)))))))
  exact ⟨_, rfl, rfl, (installation_reports rfl rfl rfl horderly rfl).1⟩

end InstallationRun

end EcidsCore
