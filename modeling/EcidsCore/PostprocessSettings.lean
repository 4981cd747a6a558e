import EcidsCore.GapResult
import EcidsCore.InspectionMemory

set_option autoImplicit false

/-! The settings of the postprocess module: which of them reach the parts that they are
meant for, and when those that do not would have changed nothing. -/
namespace EcidsCore
open StereoMath

variable {R : Type}

namespace DetectionExtractor
variable [Double R] {a b : R}

theorem extract_congr (h : ∀ x, x < a ↔ x < b) (detections : List (Detection R)) :
    extract detections a = extract detections b := by
  have hvisit : visit a = visit b := by
    funext best det
    simp only [visit, h]
  rw [extract, hvisit, ← extract]

theorem extract_found (detections : List (Detection R)) (min : R) :
    (extract detections min).gaps =
        (detections.foldl (visit min) ⟨0, 0, { taskConfidence := 0 }⟩).found.gaps ∧
      (extract detections min).abnormals =
        (detections.foldl (visit min) ⟨0, 0, { taskConfidence := 0 }⟩).found.abnormals := by
  unfold extract
  dsimp only
  split
  · split <;> exact ⟨rfl, rfl⟩
  · exact ⟨rfl, rfl⟩

theorem extract_dust {det : Detection R} (hlabel : det.labelId = "dust") (min : R) :
    (extract [det] min).abnormals = if det.confidence < min then [] else [det] := by
  rw [(extract_found [det] min).2, List.foldl_cons, List.foldl_nil]
  unfold visit
  split
  · rfl
  · simp [hlabel]

theorem extract_gap {det : Detection R} (hlabel : det.labelId = "gap_t1") {min : R}
    (hpass : ¬ det.confidence < min) : (extract [det] min).gaps = [det] := by
  rw [(extract_found [det] min).1, List.foldl_cons, List.foldl_nil, visit, if_neg hpass]
  simp [hlabel]

end DetectionExtractor

namespace SameGapConfig
variable [StereoMath R]

def default : SameGapConfig R where
  enabled := true
  locationThreshold := 30.0
  sizeThreshold := 0.3

def Repeats (cfg : SameGapConfig R) (prev cur : GapBox R) : Prop :=
  cfg.enabled = true ∧
    Double.sqrt ((cur.centerX - prev.centerX) * (cur.centerX - prev.centerX) +
      (cur.centerY - prev.centerY) * (cur.centerY - prev.centerY)) < cfg.locationThreshold ∧
      SameGapChecker.sizeDiff prev cur < cfg.sizeThreshold

instance (cfg : SameGapConfig R) (prev cur : GapBox R) : Decidable (cfg.Repeats prev cur) :=
  inferInstanceAs (Decidable (_ ∧ _ ∧ _))

end SameGapConfig

namespace SameGapChecker

/-- Nothing calls it. -/
def init (cfg : SameGapConfig R) (c : SameGapChecker R) : SameGapChecker R :=
  { c with
    enabled := cfg.enabled, locationThreshold := cfg.locationThreshold,
    sizeThreshold := cfg.sizeThreshold }

def config (c : SameGapChecker R) : SameGapConfig R :=
  ⟨c.enabled, c.locationThreshold, c.sizeThreshold⟩

variable [StereoMath R] {c c' : SameGapChecker R} {gap : Detection R}

theorem isSameGap_closed (h : ¬ (c.enabled = true ∧ gap.coordinates ≠ [])) :
    c.isSameGap gap = (false, c) := by
  apply if_pos
  cases hon : c.enabled with
  | false => exact .inl rfl
  | true => exact .inr (by_contra fun hgap => h ⟨hon, hgap⟩)

theorem isSameGap_first (hon : c.enabled = true) (hgap : gap.coordinates ≠ [])
    (h : c.previous = none) :
    c.isSameGap gap = (false, { c with previous := some (box gap.coordinates) }) := by
  have hopen : ¬ (c.enabled = false ∨ gap.coordinates = []) := by simp [hon, hgap]
  rw [isSameGap, if_neg hopen, h]

theorem isSameGap_next {prev : GapBox R} (hon : c.enabled = true) (hgap : gap.coordinates ≠ [])
    (h : c.previous = some prev) :
    c.isSameGap gap = if c.config.Repeats prev (box gap.coordinates) then (true, c)
      else (false, { c with previous := some (box gap.coordinates) }) := by
  have hopen : ¬ (c.enabled = false ∨ gap.coordinates = []) := by simp [hon, hgap]
  rw [isSameGap, if_neg hopen, h]
  simp only [SameGapConfig.Repeats, config, hon, true_and]

theorem isSameGap_iff : (c.isSameGap gap).1 = true ↔ gap.coordinates ≠ [] ∧
    ∃ prev, c.previous = some prev ∧ c.config.Repeats prev (box gap.coordinates) := by
  by_cases hopen : c.enabled = true ∧ gap.coordinates ≠ []
  · obtain ⟨hon, hgap⟩ := hopen
    cases hprev : c.previous with
    | none => simp [isSameGap_first hon hgap hprev]
    | some prev =>
      rw [isSameGap_next hon hgap hprev]
      split <;> simp [*]
  · rw [isSameGap_closed hopen]
    constructor
    · nofun
    · rintro ⟨hgap, prev, -, hon, -⟩
      exact absurd ⟨hon, hgap⟩ hopen

theorem isSameGap_previous : (c.isSameGap gap).2.previous =
    if c.enabled = true ∧ gap.coordinates ≠ [] ∧ (c.isSameGap gap).1 = false then
      some (box gap.coordinates) else c.previous := by
  by_cases hopen : c.enabled = true ∧ gap.coordinates ≠ []
  · obtain ⟨hon, hgap⟩ := hopen
    cases hprev : c.previous with
    | none => simp [isSameGap_first hon hgap hprev, hon, hgap]
    | some prev =>
      rw [isSameGap_next hon hgap hprev]
      split <;> simp [hon, hgap, hprev]
  · rw [isSameGap_closed hopen, if_neg fun h => hopen ⟨h.1, h.2.1⟩]

theorem isSameGap_config (c : SameGapChecker R) (gap : Detection R) :
    (c.isSameGap gap).2.config = c.config := by
  have h := congrArg config (isSameGap_reset c gap)
  exact h

/-- Two checkers that tell the same gaps apart, with the same gap remembered where both compare. -/
structure Alike (c c' : SameGapChecker R) : Prop where
  agree : ∀ p q : List (R × R), p ≠ [] → q ≠ [] →
    (c.config.Repeats (box p) (box q) ↔ c'.config.Repeats (box p) (box q))
  memory : c.enabled = true → c'.enabled = true → c.previous = c'.previous
  seen : ∀ prev, c.previous = some prev → ∃ p, p ≠ [] ∧ prev = box p
  seen' : ∀ prev, c'.previous = some prev → ∃ p, p ≠ [] ∧ prev = box p

theorem Alike.symm (h : Alike c c') : Alike c' c where
  agree p q hp hq := (h.agree p q hp hq).symm
  memory hon hon' := (h.memory hon' hon).symm
  seen := h.seen'
  seen' := h.seen

theorem Alike.isSameGap_of (h : Alike c c') (hsame : (c.isSameGap gap).1 = true) :
    (c'.isSameGap gap).1 = true := by
  obtain ⟨hgap, prev, hprev, hrepeats⟩ := isSameGap_iff.1 hsame
  obtain ⟨p, hp, rfl⟩ := h.seen prev hprev
  have hrepeats' := (h.agree p gap.coordinates hp hgap).1 hrepeats
  have hmemory := h.memory hrepeats.1 hrepeats'.1
  exact isSameGap_iff.2 ⟨hgap, box p, hmemory.symm.trans hprev, hrepeats'⟩

theorem Alike.isSameGap_eq (h : Alike c c') (gap : Detection R) :
    (c.isSameGap gap).1 = (c'.isSameGap gap).1 :=
  Bool.eq_iff_iff.2 ⟨h.isSameGap_of, h.symm.isSameGap_of⟩

theorem seen_step (gap : Detection R)
    (h : ∀ prev, c.previous = some prev → ∃ p, p ≠ [] ∧ prev = box p) :
    ∀ prev, (c.isSameGap gap).2.previous = some prev → ∃ p, p ≠ [] ∧ prev = box p := by
  intro prev hprev
  rw [isSameGap_previous] at hprev
  split at hprev
  · rename_i hnew
    exact ⟨gap.coordinates, hnew.2.1, (Option.some.inj hprev).symm⟩
  · exact h prev hprev

theorem Alike.step (h : Alike c c') (gap : Detection R) :
    Alike (c.isSameGap gap).2 (c'.isSameGap gap).2 where
  agree p q hp hq := by
    rw [isSameGap_config, isSameGap_config]
    exact h.agree p q hp hq
  memory hon hon' := by
    have hconfig := isSameGap_config c gap
    have hconfig' := isSameGap_config c' gap
    have hc : c.enabled = true := (congrArg SameGapConfig.enabled hconfig).symm.trans hon
    have hc' : c'.enabled = true := (congrArg SameGapConfig.enabled hconfig').symm.trans hon'
    rw [isSameGap_previous, isSameGap_previous, h.isSameGap_eq gap, h.memory hc hc', hc, hc']
  seen := seen_step gap h.seen
  seen' := seen_step gap h.seen'

theorem second_isSameGap {first second : Detection R} (hfresh : c.previous = none)
    (hfirst : first.coordinates ≠ []) (hsecond : second.coordinates ≠ []) :
    ((c.isSameGap first).2.isSameGap second).1 = true ↔
      c.config.Repeats (box first.coordinates) (box second.coordinates) := by
  have hnew : (c.isSameGap first).1 = false := by
    cases hsame : (c.isSameGap first).1 with
    | false => rfl
    | true =>
      obtain ⟨-, prev, hprev, -⟩ := isSameGap_iff.1 hsame
      rw [hfresh] at hprev
      cases hprev
  rw [isSameGap_iff, isSameGap_config, isSameGap_previous, hfresh]
  constructor
  · rintro ⟨-, prev, hprev, hrepeats⟩
    rw [if_pos ⟨hrepeats.1, hfirst, hnew⟩] at hprev
    cases hprev
    exact hrepeats
  · intro hrepeats
    rw [if_pos ⟨hrepeats.1, hfirst, hnew⟩]
    exact ⟨hsecond, _, rfl, hrepeats⟩

end SameGapChecker

namespace PostprocessModule
variable [Double R] {m : PostprocessModule R}

theorem process_abnormal (lib : Nlohmann R) (vis : Vision R) (rec st esc : String)
    (a : CallbackArgs R) (m : PostprocessModule R) :
    (m.process lib vis rec st esc a).2.1.abnormal =
      (DetectionExtractor.extract a.response.results m.minConfidence).abnormals := by
  unfold process
  dsimp only
  split <;> rfl

theorem process_annotatedLeft (lib : Nlohmann R) {vis : Vision R} (rec st esc : String)
    {a : CallbackArgs R} (hleft : a.left.data ≠ [])
    (hdraw : ∀ gap dets, vis.annotate a.left.data gap dets ≠ []) :
    (m.process lib vis rec st esc a).2.1.annotatedLeft = [] ↔
      (m.skipsGap a.response a.subTask).1 = true := by
  unfold process
  dsimp only
  split
  · rename_i hskip
    exact ⟨fun _ => hskip, fun _ => rfl⟩
  · rename_i hskip
    constructor
    · intro h
      exact absurd h (hdraw _ _)
    · intro h
      exact absurd h hskip

theorem skipsGap_gap {resp : DetectionResponse R} {det : Detection R}
    (hlabel : det.labelId = "gap_t1") (hpass : ¬ det.confidence < m.minConfidence)
    (hresults : resp.results = [det]) :
    m.skipsGap resp .gapInspection = m.sameGap.isSameGap det := by
  unfold skipsGap
  rw [hresults, DetectionExtractor.extract_gap hlabel hpass]

end PostprocessModule

/-- The postprocess module with the parts that its settings are for. -/
structure ConfiguredModule (R : Type) where
  post : PostprocessModule R
  gapDist : GapDistance R
  config : PostprocessConfig R

structure ProcessCall (R : Type) where
  vision : StereoVision R
  mode : Mode
  activeRecord : String
  stationId : String
  escalatorId : String
  args : CallbackArgs R

namespace ConfiguredModule
variable [StereoMath R]

def new (hasRecordMgr hasDbWriter : Bool) : ConfiguredModule R where
  post := { hasRecordMgr, hasDbWriter, minConfidence := 0.5, sameGap := SameGapChecker.default }
  gapDist := GapDistance.new
  config :=
    { minConfidence := 0.5, gapFilterMargin := 0.10, sameGapConfig := SameGapConfig.default,
      depthReferenceMm := 0, offsetMm := 0, edgeInlierThreshold := 5.0 }

def init (minConfidence baselineMm focalLengthPx : R) (m : ConfiguredModule R) :
    ConfiguredModule R where
  post := { m.post with minConfidence }
  gapDist := m.gapDist.init baselineMm focalLengthPx
  config := { m.config with minConfidence }

def setConfig (cfg : PostprocessConfig R) (m : ConfiguredModule R) : ConfiguredModule R :=
  { m with config := cfg }

def vision (m : ConfiguredModule R) (v : StereoVision R) : Vision R where
  decodedRows := v.decodedRows
  gapPipeline := GapPipeline.runGapPipeline v m.gapDist m.config
  annotate := v.annotate
  annotateAiOnly := v.annotateAiOnly

def call (lib : Nlohmann R) (m : ConfiguredModule R) (x : ProcessCall R) :
    ConfiguredModule R × InspectionResult R × Writes :=
  let out := resultCallback lib (m.vision x.vision)
    ⟨x.mode, x.activeRecord, x.stationId, x.escalatorId, m.post⟩ x.args
  ({ m with post := out.1 }, out.2)

def results (lib : Nlohmann R) (m : ConfiguredModule R) :
    List (ProcessCall R) → List (InspectionResult R × Writes)
  | [] => []
  | x :: calls => (m.call lib x).2 :: (m.call lib x).1.results lib calls

def after (lib : Nlohmann R) (m : ConfiguredModule R) (calls : List (ProcessCall R)) :
    ConfiguredModule R :=
  calls.foldl (fun m x => (m.call lib x).1) m

def Measures (m : ConfiguredModule R) (x : ProcessCall R) : Prop :=
  x.mode = .aiTest ∨ x.args.subTask = .gapInspection ∧
    (m.post.skipsGap x.args.response x.args.subTask).1 = false

def obeying (cfg : PostprocessConfig R) (m : ConfiguredModule R) : ConfiguredModule R where
  post :=
    { m.post with
      minConfidence := cfg.minConfidence, sameGap := m.post.sameGap.init cfg.sameGapConfig }
  gapDist := (m.gapDist.setDepthReference cfg.depthReferenceMm).setOffset cfg.offsetMm
  config := cfg

/-- The edges of a call that measures are fitted with the set threshold to the cleats above the
set confidence, its lines let through by the set margin; the other calls have none. -/
def Draws (lib : Nlohmann R) (m : ConfiguredModule R) (cfg : PostprocessConfig R)
    (x : ProcessCall R) : Prop :=
  let r := (m.call lib x).2.1
  (m.Measures x → GapPipeline.Drawn x.vision
    (GapPipeline.measure x.vision (m.obeying cfg).gapDist x.args.left.data x.args.right.data) cfg
    (DetectionExtractor.extract x.args.response.results cfg.minConfidence) r.taskId
    (PostprocessModule.imageHeight (m.vision x.vision) x.args.left.data) r.gap) ∧
  (¬ m.Measures x → r.gap = PostprocessModule.noGap)

/-- The results are those of a module whose parts obey the settings, their edges and lines are
drawn by the settings, and a positive distance is the depth with the offset. -/
structure Follows (lib : Nlohmann R) (m : ConfiguredModule R) (cfg : PostprocessConfig R) :
    Prop where
  results : ∀ calls, m.results lib calls = (m.obeying cfg).results lib calls
  draws : ∀ calls x, (m.after lib calls).Draws lib cfg x
  distances : ∀ d, 0 < m.gapDist.calculateDistance d →
    m.gapDist.fromDisparity d = m.gapDist.calculateDistance d + cfg.offsetMm

/-- The settings that do not reach their part would change nothing there: no confidence lies
between the two minima, the offset adds nothing to a depth, and the thresholds for a repeated gap
tell the same pairs of gaps apart as those in the header. -/
structure Idle (m : ConfiguredModule R) (cfg : PostprocessConfig R) : Prop where
  confidence : ∀ x, x < cfg.minConfidence ↔ x < m.post.minConfidence
  offset : ∀ d, 0 < m.gapDist.calculateDistance d →
    m.gapDist.calculateDistance d + cfg.offsetMm = m.gapDist.calculateDistance d
  sameGap : ∀ p q : List (R × R), p ≠ [] → q ≠ [] →
    (cfg.sameGapConfig.Repeats (SameGapChecker.box p) (SameGapChecker.box q) ↔
      SameGapConfig.default.Repeats (SameGapChecker.box p) (SameGapChecker.box q))

structure Alike (m m' : ConfiguredModule R) : Prop where
  recordMgr : m.post.hasRecordMgr = m'.post.hasRecordMgr
  dbWriter : m.post.hasDbWriter = m'.post.hasDbWriter
  confidence : ∀ x, x < m.post.minConfidence ↔ x < m'.post.minConfidence
  distance : ∀ d, m.gapDist.fromDisparity d = m'.gapDist.fromDisparity d
  config : m.config = m'.config
  sameGap : m.post.sameGap.Alike m'.post.sameGap

variable {m m' : ConfiguredModule R}

theorem Alike.vision_eq (h : Alike m m') (v : StereoVision R) : m.vision v = m'.vision v := by
  rw [vision, vision, h.config, GapPipeline.runGapPipeline_congr h.distance]

theorem Alike.detected_eq (h : Alike m m') : m.post.detected = m'.post.detected := by
  funext resp unknown
  rw [PostprocessModule.detected, PostprocessModule.detected,
    DetectionExtractor.extract_congr h.confidence]

theorem Alike.skipsGap (h : Alike m m') (resp : DetectionResponse R) (sub : InspectionSubTask) :
    (m.post.skipsGap resp sub).1 = (m'.post.skipsGap resp sub).1 ∧
      SameGapChecker.Alike (m.post.skipsGap resp sub).2 (m'.post.skipsGap resp sub).2 := by
  unfold PostprocessModule.skipsGap
  rw [DetectionExtractor.extract_congr h.confidence]
  split
  · exact ⟨h.sameGap.isSameGap_eq _, h.sameGap.step _⟩
  · exact ⟨rfl, h.sameGap⟩

theorem Alike.process_eq (h : Alike m m') (lib : Nlohmann R) (vis : Vision R)
    (rec st esc : String) (a : CallbackArgs R) :
    (m.post.process lib vis rec st esc a).2 = (m'.post.process lib vis rec st esc a).2 := by
  have hskip := (h.skipsGap a.response a.subTask).1
  unfold PostprocessModule.process
  simp only [h.detected_eq, hskip, PostprocessModule.saveResult, h.recordMgr, h.dbWriter]
  split <;> rfl

theorem Alike.processAiTest_eq (h : Alike m m') (lib : Nlohmann R) (vis : Vision R)
    (rec : String) (a : CallbackArgs R) :
    m.post.processAiTest lib vis rec a = m'.post.processAiTest lib vis rec a := by
  simp only [PostprocessModule.processAiTest, h.detected_eq, PostprocessModule.saveAiTest,
    h.recordMgr, h.dbWriter]

theorem Alike.call (h : Alike m m') (lib : Nlohmann R) (x : ProcessCall R) :
    (m.call lib x).2 = (m'.call lib x).2 ∧ Alike (m.call lib x).1 (m'.call lib x).1 := by
  dsimp only [ConfiguredModule.call, resultCallback]
  rw [h.vision_eq x.vision]
  split
  · exact ⟨h.processAiTest_eq lib _ x.activeRecord x.args, { h with }⟩
  · refine ⟨h.process_eq lib _ x.activeRecord x.stationId x.escalatorId x.args, ?_⟩
    rw [PostprocessModule.process_post, PostprocessModule.process_post]
    exact { h with sameGap := (h.skipsGap x.args.response x.args.subTask).2 }

theorem Alike.results (h : Alike m m') (lib : Nlohmann R) (calls : List (ProcessCall R)) :
    m.results lib calls = m'.results lib calls := by
  induction calls generalizing m m' with
  | nil => rfl
  | cons x calls ih =>
    obtain ⟨hout, hnext⟩ := h.call lib x
    rw [ConfiguredModule.results, ConfiguredModule.results, hout, ih hnext]

theorem call_settings (lib : Nlohmann R) (m : ConfiguredModule R) (x : ProcessCall R) :
    (m.call lib x).1.gapDist = m.gapDist ∧ (m.call lib x).1.config = m.config ∧
      (m.call lib x).1.post.minConfidence = m.post.minConfidence := by
  refine ⟨rfl, rfl, ?_⟩
  dsimp only [call, resultCallback]
  split
  · rfl
  · rw [PostprocessModule.process_post]

theorem after_settings (lib : Nlohmann R) (m : ConfiguredModule R) (calls : List (ProcessCall R)) :
    (m.after lib calls).gapDist = m.gapDist ∧ (m.after lib calls).config = m.config ∧
      (m.after lib calls).post.minConfidence = m.post.minConfidence := by
  induction calls generalizing m with
  | nil => exact ⟨rfl, rfl, rfl⟩
  | cons x calls ih =>
    obtain ⟨hdist, hconfig, hmin⟩ := call_settings lib m x
    obtain ⟨hdist', hconfig', hmin'⟩ := ih (m.call lib x).1
    exact ⟨hdist'.trans hdist, hconfig'.trans hconfig, hmin'.trans hmin⟩

theorem call_gap (lib : Nlohmann R) (m : ConfiguredModule R) (x : ProcessCall R) :
    (m.Measures x → (m.call lib x).2.1.gap =
      GapPipeline.runGapPipeline x.vision m.gapDist m.config
        (DetectionExtractor.extract x.args.response.results m.post.minConfidence)
        (m.call lib x).2.1.taskId x.args.left.data x.args.right.data
        (PostprocessModule.imageHeight (m.vision x.vision) x.args.left.data)) ∧
      (¬ m.Measures x → (m.call lib x).2.1.gap = PostprocessModule.noGap) := by
  unfold Measures
  dsimp only [call, resultCallback]
  by_cases hmode : x.mode = .aiTest
  · rw [if_pos hmode]
    exact ⟨fun _ => rfl, fun h => absurd (.inl hmode) h⟩
  · rw [if_neg hmode]
    unfold PostprocessModule.process
    dsimp only
    cases hskip : (m.post.skipsGap x.args.response x.args.subTask).1 with
    | true => exact ⟨fun h => absurd h (by simp [hmode]), fun _ => rfl⟩
    | false =>
      by_cases hsub : x.args.subTask = .gapInspection
      · rw [if_neg Bool.false_ne_true, if_pos hsub]
        exact ⟨fun _ => rfl, fun h => absurd (.inr ⟨hsub, rfl⟩) h⟩
      · rw [if_neg Bool.false_ne_true, if_neg hsub]
        exact ⟨fun h => absurd h (by simp [hmode, hsub]), fun _ => rfl⟩

theorem draws_of_settings {m : ConfiguredModule R} {cfg : PostprocessConfig R}
    (hconfig : m.config = cfg) (hmin : ∀ x, x < cfg.minConfidence ↔ x < m.post.minConfidence)
    (hdist : ∀ d, m.gapDist.fromDisparity d = (m.obeying cfg).gapDist.fromDisparity d)
    (lib : Nlohmann R) (x : ProcessCall R) : m.Draws lib cfg x := by
  obtain ⟨hmeasures, hnone⟩ := call_gap lib m x
  refine ⟨?_, hnone⟩
  intro h
  rw [hmeasures h, DetectionExtractor.extract_congr hmin, hconfig,
    ← GapPipeline.measure_congr hdist]
  exact GapPipeline.runGapPipeline_drawn _ _ _ _ _ _ _ _

def started (hasRecordMgr hasDbWriter : Bool) (minConfidence baselineMm focalLengthPx : R)
    (cfg : PostprocessConfig R) : ConfiguredModule R :=
  ((new hasRecordMgr hasDbWriter).init minConfidence baselineMm focalLengthPx).setConfig cfg

def probe (sub : InspectionSubTask) (det : Detection R) : ProcessCall R where
  vision :=
    { decodedRows := fun _ => none, disparity := fun _ _ _ => 0, picksUpLong := fun _ => (0, 0),
      picksUpShort := fun _ => (0, 0), picksDnLong := fun _ => (0, 0),
      picksDnShort := fun _ => (0, 0), annotate := fun _ _ _ => [0],
      annotateAiOnly := fun _ _ => [] }
  mode := .inspection
  activeRecord := ""
  stationId := ""
  escalatorId := ""
  args :=
    { transactionId := "", response := { transactionId := "", dealerId := "", results := [det] },
      left := { data := [0] }, right := {}, pairIndex := 0, subTask := sub,
      workingDistanceMm := 0 }

variable {lib : Nlohmann R} {cfg : PostprocessConfig R}

theorem call_probe (m : ConfiguredModule R) (sub : InspectionSubTask) (det : Detection R) :
    m.call lib (probe sub det) =
      ({ m with post := { m.post with
          sameGap := (m.post.skipsGap (probe sub det).args.response sub).2 } },
        (m.post.process lib (m.vision (probe sub det).vision) "" "" ""
          (probe sub det).args).2) := by
  have hmode : (probe sub det).mode ≠ .aiTest := nofun
  rw [call, resultCallback, if_neg hmode, PostprocessModule.process_post]
  rfl

theorem call_probe_abnormal (m : ConfiguredModule R) (sub : InspectionSubTask) {det : Detection R}
    (hlabel : det.labelId = "dust") :
    (m.call lib (probe sub det)).2.1.abnormal =
      if det.confidence < m.post.minConfidence then [] else [det] := by
  rw [call_probe, PostprocessModule.process_abnormal]
  exact DetectionExtractor.extract_dust hlabel m.post.minConfidence

theorem call_probe_annotatedLeft (lib : Nlohmann R) (m : ConfiguredModule R) {det : Detection R}
    (hlabel : det.labelId = "gap_t1") (hpass : ¬ det.confidence < m.post.minConfidence) :
    (m.call lib (probe .gapInspection det)).2.1.annotatedLeft = [] ↔
      (m.post.sameGap.isSameGap det).1 = true := by
  have hleft : (probe .gapInspection det).args.left.data ≠ [] := List.cons_ne_nil 0 []
  have hskip : m.post.skipsGap (probe .gapInspection det).args.response
      (probe .gapInspection det).args.subTask = m.post.sameGap.isSameGap det :=
    PostprocessModule.skipsGap_gap hlabel hpass rfl
  rw [call_probe, PostprocessModule.process_annotatedLeft lib "" "" "" hleft
    (fun _ _ => List.cons_ne_nil 0 []), hskip]

theorem call_probe_sameGap (m : ConfiguredModule R) {det : Detection R}
    (hlabel : det.labelId = "gap_t1") (hpass : ¬ det.confidence < m.post.minConfidence) :
    (m.call lib (probe .gapInspection det)).1 =
      { m with post := { m.post with sameGap := (m.post.sameGap.isSameGap det).2 } } := by
  rw [call_probe, PostprocessModule.skipsGap_gap hlabel hpass rfl]

theorem results_probes (lib : Nlohmann R) (m : ConfiguredModule R) (first second : Detection R)
    (hfresh : m.post.sameGap.previous = none)
    (hlabel : first.labelId = "gap_t1") (hlabel' : second.labelId = "gap_t1")
    (hpass : ¬ first.confidence < m.post.minConfidence)
    (hpass' : ¬ second.confidence < m.post.minConfidence)
    (hfirst : first.coordinates ≠ []) (hsecond : second.coordinates ≠ []) :
    (((m.results lib [probe .gapInspection first, probe .gapInspection second])[1]?.map
        fun out => out.1.annotatedLeft) = some []) ↔
      m.post.sameGap.config.Repeats (SameGapChecker.box first.coordinates)
        (SameGapChecker.box second.coordinates) := by
  let next : ConfiguredModule R :=
    { m with post := { m.post with sameGap := (m.post.sameGap.isSameGap first).2 } }
  have hdrawn := call_probe_annotatedLeft lib next hlabel' hpass'
  rw [results, call_probe_sameGap m hlabel hpass, results]
  simp only [List.getElem?_cons_succ, List.getElem?_cons_zero, Option.map_some, Option.some.injEq]
  exact hdrawn.trans (SameGapChecker.second_isSameGap hfresh hfirst hsecond)

theorem started_fromDisparity (hasRecordMgr hasDbWriter : Bool) (min baseline focal : R)
    (cfg : PostprocessConfig R) (d : R) :
    (started hasRecordMgr hasDbWriter min baseline focal cfg).gapDist.fromDisparity d =
      (started hasRecordMgr hasDbWriter min baseline focal cfg).gapDist.calculateDistance d :=
  if_neg fun h => h.2 rfl

section Iff
variable {hasRecordMgr hasDbWriter : Bool} {min baseline focal : R}

theorem Idle.alike
    (h : (started hasRecordMgr hasDbWriter min baseline focal cfg).Idle cfg) :
    Alike (started hasRecordMgr hasDbWriter min baseline focal cfg)
      ((started hasRecordMgr hasDbWriter min baseline focal cfg).obeying cfg) where
  recordMgr := rfl
  dbWriter := rfl
  confidence x := (h.confidence x).symm
  distance d := by
    rw [started_fromDisparity]
    unfold GapDistance.fromDisparity
    dsimp only
    split
    · rename_i hpos
      exact (h.offset d hpos.1).symm
    · rfl
  config := rfl
  sameGap :=
    { agree := fun p q hp hq => (h.sameGap p q hp hq).symm
      memory := fun _ _ => rfl
      seen := nofun
      seen' := nofun }

theorem Idle.follows
    (h : (started hasRecordMgr hasDbWriter min baseline focal cfg).Idle cfg) (lib : Nlohmann R) :
    (started hasRecordMgr hasDbWriter min baseline focal cfg).Follows lib cfg where
  results calls := h.alike.results lib calls
  draws calls x := by
    let m := started hasRecordMgr hasDbWriter min baseline focal cfg
    obtain ⟨hdist, hconfig, hmin⟩ := after_settings lib m calls
    refine draws_of_settings (hconfig.trans rfl) ?_ ?_ lib x
    · intro y
      rw [hmin]
      exact h.confidence y
    · intro d
      rw [obeying, hdist]
      exact h.alike.distance d
  distances d hpos := by rw [started_fromDisparity, h.offset d hpos]

theorem Follows.idle
    (h : (started hasRecordMgr hasDbWriter min baseline focal cfg).Follows lib cfg) :
    (started hasRecordMgr hasDbWriter min baseline focal cfg).Idle cfg := by
  have hconfidence (x : R) : x < cfg.minConfidence ↔ x < min := by
    let det : Detection R :=
      { labelId := "dust", confidence := x, fileName := "", coordinates := [] }
    have hout := (List.cons.inj (h.results [probe .installation det])).1
    have habnormal := congrArg (fun out => out.1.abnormal) hout
    rw [call_probe_abnormal _ _ rfl, call_probe_abnormal _ _ rfl] at habnormal
    change (if x < min then [] else [det]) = if x < cfg.minConfidence then [] else [det]
      at habnormal
    split at habnormal <;> split at habnormal <;> simp_all
  refine ⟨hconfidence, ?_, ?_⟩
  · intro d hpos
    rw [← h.distances d hpos, started_fromDisparity]
  · intro p q hp hq
    let gap (coordinates : List (R × R)) : Detection R :=
      { labelId := "gap_t1", confidence := cfg.minConfidence, fileName := "", coordinates }
    have hpass : ¬ cfg.minConfidence < cfg.minConfidence := lt_irrefl _
    have hpass' : ¬ cfg.minConfidence < min := fun hlt => hpass ((hconfidence _).2 hlt)
    let m := started hasRecordMgr hasDbWriter min baseline focal cfg
    let calls := [probe .gapInspection (gap p), probe .gapInspection (gap q)]
    have hruns : m.results lib calls = (m.obeying cfg).results lib calls := h.results calls
    have hcode := results_probes lib m (gap p) (gap q) rfl rfl rfl hpass' hpass' hp hq
    have hspec := results_probes lib (m.obeying cfg) (gap p) (gap q) rfl rfl rfl hpass hpass hp hq
    rw [hruns] at hcode
    exact hspec.symm.trans hcode

end Iff

/-- The results follow two configurations, and differ between them exactly where the rules do. -/
theorem settings_followed_iff (lib : Nlohmann R) (hasRecordMgr hasDbWriter : Bool)
    (min baseline focal : R) (cfg other : PostprocessConfig R) :
    ((started hasRecordMgr hasDbWriter min baseline focal cfg).Follows lib cfg ∧
      (started hasRecordMgr hasDbWriter min baseline focal other).Follows lib other ∧
        ∀ calls, (started hasRecordMgr hasDbWriter min baseline focal cfg).results lib calls =
            (started hasRecordMgr hasDbWriter min baseline focal other).results lib calls ↔
          ((started hasRecordMgr hasDbWriter min baseline focal cfg).obeying cfg).results
              lib calls =
            ((started hasRecordMgr hasDbWriter min baseline focal other).obeying other).results
              lib calls) ↔
      (started hasRecordMgr hasDbWriter min baseline focal cfg).Idle cfg ∧
        (started hasRecordMgr hasDbWriter min baseline focal other).Idle other := by
  constructor
  · rintro ⟨h, h', -⟩
    exact ⟨h.idle, h'.idle⟩
  · rintro ⟨h, h'⟩
    refine ⟨h.follows lib, h'.follows lib, ?_⟩
    intro calls
    rw [h.alike.results lib calls, h'.alike.results lib calls]

end ConfiguredModule

def offsetModule : ConfiguredModule ℤ :=
  ConfiguredModule.started true true 1 120 1000 offsetConfig

/-- The offset is not added to the distance of 12 metres. -/
theorem offset_counterexample :
    offsetModule.gapDist.calculateDistance 10 = 12000 ∧
      offsetModule.gapDist.fromDisparity 10 = 12000 ∧
        (offsetModule.obeying offsetConfig).gapDist.fromDisparity 10 = 12005 ∧
          ¬ offsetModule.Follows (plainLib toString) offsetConfig := by
  have hdepth : offsetModule.gapDist.calculateDistance 10 = 12000 := rfl
  have hcode : offsetModule.gapDist.fromDisparity 10 = 12000 := rfl
  have hrule : (offsetModule.obeying offsetConfig).gapDist.fromDisparity 10 = 12005 := rfl
  refine ⟨hdepth, hcode, hrule, ?_⟩
  intro h
  have hadded := h.distances 10 (by rw [hdepth]; decide)
  rw [hcode, hdepth] at hadded
  exact absurd hadded (by decide)

end EcidsCore
