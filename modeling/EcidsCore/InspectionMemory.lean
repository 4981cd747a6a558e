import EcidsCore.ApiRuns

set_option autoImplicit false

/-! What an inspection's results take over from the inspections before it: the gap that the
checker remembers. -/
namespace EcidsCore
open PostprocessModule

variable {R : Type}

namespace SameGapChecker

/-- Nothing calls it. -/
def reset (c : SameGapChecker R) : SameGapChecker R := { c with previous := none }

variable [Double R] {c : SameGapChecker R} {gap : Detection R}

theorem isSameGap_reset (c : SameGapChecker R) (gap : Detection R) :
    (c.isSameGap gap).2.reset = c.reset := by
  unfold isSameGap
  split
  · rfl
  · dsimp only
    split
    · rfl
    · split <;> rfl

theorem isSameGap_disabled (h : c.enabled = false) (gap : Detection R) :
    c.isSameGap gap = (false, c) := if_pos (.inl h)

theorem isSameGap_resized {prev : GapBox R} (h : c.previous = some prev)
    (hsize : ¬ sizeDiff prev (box gap.coordinates) < c.sizeThreshold) :
    (c.isSameGap gap).1 = false := by
  unfold isSameGap
  split
  · rfl
  · rw [h]
    exact congrArg Prod.fst (if_neg fun hnear => hsize hnear.2)

/-- Behind a gap that is no repetition, nothing is left of the memory before it. -/
theorem isSameGap_new (hon : c.enabled = true) (hgap : gap.coordinates ≠ [])
    (h : (c.isSameGap gap).1 = false) : c.isSameGap gap = c.reset.isSameGap gap := by
  have hopen : ¬ (c.enabled = false ∨ gap.coordinates = []) := by simp [hon, hgap]
  have hopen' : ¬ (c.reset.enabled = false ∨ gap.coordinates = []) := hopen
  rw [isSameGap, if_neg hopen] at h
  rw [isSameGap, isSameGap, if_neg hopen, if_neg hopen']
  cases hp : c.previous with
  | none => rfl
  | some prev =>
    rw [hp] at h
    dsimp only at h ⊢
    split at h
    · cases h
    · rename_i hdiff
      rw [if_neg hdiff]
      rfl

end SameGapChecker

namespace PostprocessModule
variable [Double R]

def gapOf (m : PostprocessModule R) (a : CallbackArgs R) : Option (Detection R) :=
  match a.subTask, (DetectionExtractor.extract a.response.results m.minConfidence).gaps with
  | .gapInspection, gap :: _ => if gap.coordinates = [] then none else some gap
  | _, _ => none

def firstGap (m : PostprocessModule R) (rs : List (CallbackArgs R)) : Option (Detection R) :=
  rs.findSome? m.gapOf

def FirstGapRepeats (m : PostprocessModule R) (rs : List (CallbackArgs R)) : Prop :=
  ∃ gap, m.firstGap rs = some gap ∧ (m.sameGap.isSameGap gap).1 = true

def forget (m : PostprocessModule R) : PostprocessModule R :=
  { m with sameGap := m.sameGap.reset }

variable {m : PostprocessModule R} {a : CallbackArgs R} {gap : Detection R}

omit [Double R] in
theorem forget_of_fresh (h : m.sameGap.previous = none) : m.forget = m := by
  rw [forget, SameGapChecker.reset, ← h]

theorem skipsGap_of_none (h : m.gapOf a = none) :
    m.skipsGap a.response a.subTask = (false, m.sameGap) := by
  unfold gapOf at h
  unfold skipsGap
  cases hgaps : (DetectionExtractor.extract a.response.results m.minConfidence).gaps with
  | nil => cases a.subTask <;> rfl
  | cons gap rest =>
    rw [hgaps] at h
    cases hsub : a.subTask with
    | gapInspection =>
      rw [hsub] at h
      dsimp only at h
      split at h
      · rename_i hempty
        exact if_pos (.inr hempty)
      · cases h
    | none => rfl
    | installation => rfl
    | marking => rfl

theorem skipsGap_of_some (h : m.gapOf a = some gap) :
    m.skipsGap a.response a.subTask = m.sameGap.isSameGap gap := by
  unfold gapOf at h
  unfold skipsGap
  cases hgaps : (DetectionExtractor.extract a.response.results m.minConfidence).gaps with
  | nil =>
    rw [hgaps] at h
    cases hsub : a.subTask <;> rw [hsub] at h <;> cases h
  | cons gap' rest =>
    rw [hgaps] at h
    cases hsub : a.subTask with
    | gapInspection =>
      rw [hsub] at h
      dsimp only at h
      split at h
      · cases h
      · cases h
        rfl
    | none =>
      rw [hsub] at h
      cases h
    | installation =>
      rw [hsub] at h
      cases h
    | marking =>
      rw [hsub] at h
      cases h

theorem coordinates_of_gapOf (h : m.gapOf a = some gap) : gap.coordinates ≠ [] := by
  unfold gapOf at h
  split at h
  · split at h
    · cases h
    · cases h
      assumption
  · cases h

theorem skipsGap_reset (m : PostprocessModule R) (resp : DetectionResponse R)
    (sub : InspectionSubTask) : (m.skipsGap resp sub).2.reset = m.sameGap.reset := by
  unfold skipsGap
  split
  · exact m.sameGap.isSameGap_reset _
  · rfl

theorem process_post (lib : Nlohmann R) (vis : Vision R) (rec st esc : String)
    (a : CallbackArgs R) (m : PostprocessModule R) :
    (m.process lib vis rec st esc a).1 =
      { m with sameGap := (m.skipsGap a.response a.subTask).2 } := by
  unfold process
  dsimp only
  split <;> rfl

/-- The memory tells in a result only by whether it skips the gap. -/
theorem process_forget (lib : Nlohmann R) (vis : Vision R) (rec st esc : String)
    (h : (m.skipsGap a.response a.subTask).1 = false) :
    (m.process lib vis rec st esc a).2 = (m.forget.process lib vis rec st esc a).2 := by
  have hfresh : (m.forget.skipsGap a.response a.subTask).1 = false :=
    skipsGap_fresh rfl a.response a.subTask
  unfold process
  dsimp only
  rw [h, hfresh]
  rfl

end PostprocessModule

inductive ChainAction (R : Type) where
  | startInspection (record stationId escalatorId : String)
  | startAiTest (record : String)
  | stop
  | respond (a : CallbackArgs R)

namespace ChainContext
variable [Double R] (lib : Nlohmann R) (vis : Vision R)

def startInspection (record stationId escalatorId : String) (ctx : ChainContext R) :
    ChainContext R where
  mode := .inspection
  activeRecord := record
  stationId := stationId
  escalatorId := escalatorId
  post := ctx.post

def act (ctx : ChainContext R) : ChainAction R → ChainContext R
  | .startInspection record station escalator => ctx.startInspection record station escalator
  | .startAiTest record =>
    { mode := .aiTest, activeRecord := record, stationId := "", escalatorId := "",
      post := ctx.post }
  | .stop =>
    { mode := .none, activeRecord := "", stationId := "", escalatorId := "", post := ctx.post }
  | .respond a => { ctx with post := (resultCallback lib vis ctx a).1 }

def after (ctx : ChainContext R) (history : List (ChainAction R)) : ChainContext R :=
  history.foldl (act lib vis) ctx

def resultsOf (ctx : ChainContext R) : List (CallbackArgs R) → List (InspectionResult R × Writes)
  | [] => []
  | a :: rs => (resultCallback lib vis ctx a).2 :: (ctx.act lib vis (.respond a)).resultsOf rs

variable {lib vis}

theorem act_forget (ctx : ChainContext R) (x : ChainAction R) :
    (ctx.act lib vis x).post.forget = ctx.post.forget := by
  cases x with
  | respond a =>
    dsimp only [act, resultCallback]
    split
    · rfl
    · rw [process_post]
      have hkept := skipsGap_reset ctx.post a.response a.subTask
      simp only [forget, hkept]
  | startInspection record station escalator => rfl
  | startAiTest record => rfl
  | stop => rfl

theorem after_forget (ctx : ChainContext R) (history : List (ChainAction R)) :
    (ctx.after lib vis history).post.forget = ctx.post.forget := by
  induction history generalizing ctx with
  | nil => rfl
  | cons x history ih => exact (ih (ctx.act lib vis x)).trans (act_forget ctx x)

section Inspection
variable (record station escalator : String) {m : PostprocessModule R}

def inspecting (m : PostprocessModule R) : ChainContext R where
  mode := .inspection
  activeRecord := record
  stationId := station
  escalatorId := escalator
  post := m

theorem resultsOf_cons (a : CallbackArgs R) (rs : List (CallbackArgs R)) :
    (inspecting record station escalator m).resultsOf lib vis (a :: rs) =
      (m.process lib vis record station escalator a).2 ::
        (inspecting record station escalator
          { m with sameGap := (m.skipsGap a.response a.subTask).2 }).resultsOf lib vis rs := by
  have hmode : (inspecting record station escalator m).mode ≠ .aiTest := nofun
  have hcall : resultCallback lib vis (inspecting record station escalator m) a =
      m.process lib vis record station escalator a := if_neg hmode
  rw [resultsOf, act, hcall, process_post]
  rfl

theorem resultsOf_disabled (hoff : m.sameGap.enabled = false) (rs : List (CallbackArgs R)) :
    (inspecting record station escalator m).resultsOf lib vis rs =
      (inspecting record station escalator m.forget).resultsOf lib vis rs := by
  have hskip (n : PostprocessModule R) (hn : n.sameGap.enabled = false) (a : CallbackArgs R) :
      n.skipsGap a.response a.subTask = (false, n.sameGap) := by
    cases hgap : n.gapOf a with
    | none => exact skipsGap_of_none hgap
    | some gap => exact (skipsGap_of_some hgap).trans (SameGapChecker.isSameGap_disabled hn gap)
  induction rs with
  | nil => rfl
  | cons a rs ih =>
    rw [resultsOf_cons, resultsOf_cons, hskip m hoff a, hskip m.forget hoff a,
      process_forget lib vis record station escalator (by rw [hskip m hoff a])]
    exact congrArg _ ih

theorem skipped_ne {a : CallbackArgs R} (hmgr : m.hasRecordMgr = true) (hrec : record ≠ "")
    (h : (m.skipsGap a.response a.subTask).1 = true) :
    (m.process lib vis record station escalator a).2 ≠
      (m.forget.process lib vis record station escalator a).2 := by
  intro heq
  have hfresh : (m.forget.skipsGap a.response a.subTask).1 = false :=
    skipsGap_fresh rfl a.response a.subTask
  obtain ⟨result, hsaved⟩ := process_saved lib vis record station escalator hfresh
  have hmem := stereoRequest_mem_saveResult lib a result (m := m.forget) hmgr hrec
  rw [← hsaved, ← heq, process_skipped h] at hmem
  cases hmem

theorem results_forget_unasked {a : CallbackArgs R} (hgap : m.gapOf a = none)
    (rs : List (CallbackArgs R)) :
    (inspecting record station escalator m).resultsOf lib vis (a :: rs) =
        (inspecting record station escalator m.forget).resultsOf lib vis (a :: rs) ↔
      (inspecting record station escalator m).resultsOf lib vis rs =
        (inspecting record station escalator m.forget).resultsOf lib vis rs := by
  have hskip := skipsGap_of_none hgap
  have hskip' : m.forget.skipsGap a.response a.subTask = (false, m.forget.sameGap) :=
    skipsGap_of_none hgap
  rw [resultsOf_cons, resultsOf_cons, hskip, hskip',
    process_forget lib vis record station escalator (by rw [hskip]), List.cons_inj_right]

theorem results_forget_asked {a : CallbackArgs R} {gap : Detection R}
    (hon : m.sameGap.enabled = true) (hmgr : m.hasRecordMgr = true) (hrec : record ≠ "")
    (hgap : m.gapOf a = some gap) (rs : List (CallbackArgs R)) :
    (inspecting record station escalator m).resultsOf lib vis (a :: rs) =
        (inspecting record station escalator m.forget).resultsOf lib vis (a :: rs) ↔
      (m.sameGap.isSameGap gap).1 = false := by
  have hskip := skipsGap_of_some hgap
  have hskip' : m.forget.skipsGap a.response a.subTask = m.forget.sameGap.isSameGap gap :=
    skipsGap_of_some hgap
  rw [resultsOf_cons, resultsOf_cons]
  cases hsame : (m.sameGap.isSameGap gap).1 with
  | true =>
    constructor
    · intro heq
      exact absurd (List.cons.inj heq).1 (skipped_ne record station escalator hmgr hrec
        (by rw [hskip, hsame]))
    · intro hn
      cases hn
  | false =>
    constructor
    · intro _
      rfl
    · intro _
      have hnew := SameGapChecker.isSameGap_new hon (coordinates_of_gapOf hgap) hsame
      rw [process_forget lib vis record station escalator (by rw [hskip, hsame]), hskip,
        hskip', hnew]
      rfl

theorem results_forget_iff (hmgr : m.hasRecordMgr = true) (hrec : record ≠ "")
    (rs : List (CallbackArgs R)) :
    (inspecting record station escalator m).resultsOf lib vis rs =
        (inspecting record station escalator m.forget).resultsOf lib vis rs ↔
      ¬ m.FirstGapRepeats rs := by
  cases hon : m.sameGap.enabled with
  | false =>
    constructor
    · rintro - ⟨gap, -, hsame⟩
      rw [SameGapChecker.isSameGap_disabled hon] at hsame
      cases hsame
    · intro _
      exact resultsOf_disabled record station escalator hon rs
  | true =>
    -- the memory matters up to the first gap that the checker is asked about
    induction rs with
    | nil =>
      constructor
      · rintro - ⟨gap, hgap, -⟩
        cases hgap
      · intro _
        rfl
    | cons a rs ih =>
      cases hgap : m.gapOf a with
      | none =>
        have hfirst : m.firstGap (a :: rs) = m.firstGap rs :=
          List.findSome?_cons_of_isNone (by rw [hgap]; rfl)
        rw [results_forget_unasked record station escalator hgap, FirstGapRepeats, hfirst]
        exact ih
      | some gap =>
        have hfirst : m.firstGap (a :: rs) = some gap :=
          List.findSome?_cons_of_isSome (by rw [hgap]; rfl) |>.trans hgap
        rw [results_forget_asked record station escalator hon hmgr hrec hgap, FirstGapRepeats,
          hfirst]
        simp

end Inspection

section History
variable {ctx : ChainContext R} {record : String} (station escalator : String)
  {history : List (ChainAction R)}

theorem startInspection_fresh (hfresh : ctx.post.sameGap.previous = none)
    (history : List (ChainAction R)) :
    ctx.startInspection record station escalator =
      inspecting record station escalator (ctx.after lib vis history).post.forget := by
  rw [after_forget, forget_of_fresh hfresh]
  rfl

theorem hasRecordMgr_after (hmgr : ctx.post.hasRecordMgr = true)
    (history : List (ChainAction R)) : (ctx.after lib vis history).post.hasRecordMgr = true :=
  (congrArg PostprocessModule.hasRecordMgr (after_forget ctx history)).trans hmgr

/-- Two runs that differ only before an inspection have the same results in it, if neither has
its first gap taken for one from before. -/
theorem two_runs_agree (hfresh : ctx.post.sameGap.previous = none)
    (hmgr : ctx.post.hasRecordMgr = true) (hrec : record ≠ "") {history' : List (ChainAction R)}
    {rs : List (CallbackArgs R)} (hnew : ¬ (ctx.after lib vis history).post.FirstGapRepeats rs)
    (hnew' : ¬ (ctx.after lib vis history').post.FirstGapRepeats rs) :
    ((ctx.after lib vis history).startInspection record station escalator).resultsOf lib vis rs =
      ((ctx.after lib vis history').startInspection record station escalator).resultsOf lib vis
        rs := by
  have hsame (h : List (ChainAction R)) (hn : ¬ (ctx.after lib vis h).post.FirstGapRepeats rs) :
      ((ctx.after lib vis h).startInspection record station escalator).resultsOf lib vis rs =
        (ctx.startInspection record station escalator).resultsOf lib vis rs := by
    rw [startInspection_fresh station escalator hfresh h]
    exact (results_forget_iff record station escalator (hasRecordMgr_after hmgr h) hrec rs).2 hn
  exact (hsame history hnew).trans (hsame history' hnew').symm

/-- The results of an inspection are those it has as the first one of the program exactly if
its first gap is not taken for the one remembered from before. -/
theorem inspection_independent_iff (hfresh : ctx.post.sameGap.previous = none)
    (hmgr : ctx.post.hasRecordMgr = true) (hrec : record ≠ "") (history : List (ChainAction R))
    (rs : List (CallbackArgs R)) :
    ((ctx.after lib vis history).startInspection record station escalator).resultsOf lib vis rs =
        (ctx.startInspection record station escalator).resultsOf lib vis rs ↔
      ¬ (ctx.after lib vis history).post.FirstGapRepeats rs := by
  rw [startInspection_fresh station escalator hfresh history]
  exact results_forget_iff record station escalator (hasRecordMgr_after hmgr history) hrec rs

end History

end ChainContext

namespace Core
variable [Double R]

theorem measured_chainContext (sub : InspectionSubTask) (wd : R) (c : Core R) :
    (c.measured sub wd).chainContext = c.chainContext := by
  unfold measured
  split <;> rfl

theorem respond_chainContext (lib : Nlohmann R) (vis : Vision R) (now : ℕ)
    (resp : DetectionResponse R) (c : Core R) :
    (c.respond lib vis now resp).1.chainContext =
      match (c.preprocess.onAiResult lib now resp).2.callback with
      | none => c.chainContext
      | some a => c.chainContext.act lib vis (.respond a) := by
  dsimp only [respond]
  cases hcall : (c.preprocess.onAiResult lib now resp).2.callback with
  | none => rfl
  | some a => exact measured_chainContext _ _ _

omit [Double R] in
theorem setMode_chainContext (mode : Mode) (h : mode ≠ .uploading) (c : Core R) :
    (c.setMode mode).2.chainContext = { c.chainContext with mode := mode } := by
  have hmode := setMode_mode mode c h
  obtain ⟨m, tracked, hset⟩ := setMode_frame mode c
  rw [hset] at hmode ⊢
  cases hmode
  rfl

theorem stoppedInspection_chainContext (lib : Nlohmann R) (vis : Vision R) (c : Core R) :
    c.stoppedInspection.chainContext = c.chainContext.act lib vis .stop :=
  setMode_chainContext .none (by decide) _

theorem outcome_record {env : Env R} {q : StartRequest} {b : Core R}
    (h : (q.created env b).2 = none) : (q.outcome env b).core.chainContext =
      { b.chainContext with activeRecord := q.recordPath env b } := by
  unfold StartRequest.outcome
  rw [h]
  dsimp only
  split
  · rfl
  · split
    · rfl
    · cases q <;> rfl

theorem outcome_chainContext {env : Env R} {i : InspectionTask} {c : Core R}
    (h : ((StartRequest.inspection i).created env c).2 = none) :
    ((StartRequest.inspection i).outcome env
        ((StartRequest.inspection i).begun c)).core.chainContext =
      c.chainContext.startInspection ((StartRequest.inspection i).recordPath env c) i.stationId
        i.escalatorId := by
  have hmode := setMode_mode .inspection c (by decide)
  have hbegun : ((StartRequest.inspection i).begun c).chainContext =
      { c.chainContext with
        mode := .inspection, stationId := i.stationId, escalatorId := i.escalatorId } := by
    obtain ⟨m, tracked, hset⟩ := setMode_frame .inspection c
    rw [hset] at hmode
    cases hmode
    simp only [StartRequest.begun, StartRequest.mode, hset]
    rfl
  have hrecord : (StartRequest.inspection i).recordPath env c =
      (StartRequest.inspection i).recordPath env ((StartRequest.inspection i).begun c) := by
    rw [StartRequest.recordPath, StartRequest.recordPath, StartRequest.begun_records]
  rw [outcome_record (by rwa [StartRequest.created_begun]), hbegun, hrecord]
  rfl

end Core

def memoryContext : ChainContext ℤ where
  mode := .none
  activeRecord := ""
  stationId := ""
  escalatorId := ""
  post := { minConfidence := 0, sameGap := { locationThreshold := 30, sizeThreshold := 1 } }

def gapResponse : CallbackArgs ℤ where
  transactionId := "t"
  response :=
    { transactionId := "t", dealerId := "d",
      results := [{ labelId := "gap_t1", confidence := 1, fileName := "L_000.jpg",
                    coordinates := [(100, 100), (300, 120)] }] }
  left := {}
  right := {}
  pairIndex := 0
  subTask := .gapInspection
  workingDistanceMm := 0

def firstEscalator : List (ChainAction ℤ) :=
  [.startInspection "database/a" "S" "E1", .respond gapResponse, .stop]

def otherGap : List (ChainAction ℤ) :=
  [.startInspection "database/a" "S" "E1",
    .respond { gapResponse with
      response :=
        { transactionId := "t", dealerId := "d",
          results := [{ labelId := "gap_t1", confidence := 1, fileName := "L_000.jpg",
                        coordinates := [(500, 600), (600, 620)] }] } },
    .stop]

def secondEscalator (history : List (ChainAction ℤ)) : List (InspectionResult ℤ × Writes) :=
  ((memoryContext.after (plainLib toString) noVision history).startInspection "database/b" "S"
    "E2").resultsOf (plainLib toString) noVision [gapResponse]

theorem inspection_independent_iff_otherGap :
    (memoryContext.after (plainLib toString) noVision otherGap).post.sameGap.previous ≠ none ∧
      secondEscalator otherGap = secondEscalator [] := by
  refine ⟨by decide, ?_⟩
  have hnew : ¬ (memoryContext.after (plainLib toString) noVision otherGap).post.FirstGapRepeats
      [gapResponse] := by
    rintro ⟨gap, hgap, hsame⟩
    cases hgap
    rw [SameGapChecker.isSameGap_resized rfl (by decide)] at hsame
    cases hsame
  exact (ChainContext.inspection_independent_iff "S" "E2" rfl rfl (by decide) _ _).2 hnew

/-- The first gap of the second escalator is skipped, and its measurement is missing. -/
theorem second_escalator_counterexample :
    (secondEscalator firstEscalator).map (fun r => r.2.requests.length) = [0] ∧
      (secondEscalator []).map (fun r => r.2.requests.length) = [3] ∧
        secondEscalator firstEscalator ≠ secondEscalator [] := by
  have hskipped : (secondEscalator firstEscalator).map (fun r => r.2.requests.length) = [0] := rfl
  have hsaved : (secondEscalator []).map (fun r => r.2.requests.length) = [3] := rfl
  refine ⟨hskipped, hsaved, ?_⟩
  intro h
  rw [h, hsaved] at hskipped
  cases hskipped

end EcidsCore
