import EcidsCore.GapMeasure
import EcidsCore.LateralMove

set_option autoImplicit false

/-! Whole runs of the postprocess module on pictures that are shifted sideways or reflected:
extraction, the memory of the last gap, and the results. -/
namespace EcidsCore
open SameGapChecker

namespace LateralMove
variable (m : LateralMove)

def best (b : DetectionExtractor.Best ℝ) : DetectionExtractor.Best ℝ :=
  { b with found := m.extracted b.found }

theorem visit_move (minConfidence : ℝ) (b : DetectionExtractor.Best ℝ) (det : Detection ℝ) :
    DetectionExtractor.visit minConfidence (m.best b) (m.detection det) =
      m.best (DetectionExtractor.visit minConfidence b det) := by
  simp only [DetectionExtractor.visit, apply_ite m.best]
  simp only [best, extracted, List.map_append, List.map_cons, List.map_nil]
  rfl

theorem extract_move (dets : List (Detection ℝ)) (minConfidence : ℝ) :
    DetectionExtractor.extract (dets.map m.detection) minConfidence =
      m.extracted (DetectionExtractor.extract dets minConfidence) := by
  have hfold (b : DetectionExtractor.Best ℝ) :
      (dets.map m.detection).foldl (DetectionExtractor.visit minConfidence) (m.best b) =
        m.best (dets.foldl (DetectionExtractor.visit minConfidence) b) := by
    induction dets generalizing b with
    | nil => rfl
    | cons det dets ih =>
      rw [List.map_cons, List.foldl_cons, List.foldl_cons, m.visit_move, ih]
  unfold DetectionExtractor.extract
  dsimp only
  rw [show (⟨0, 0, { taskConfidence := 0 }⟩ : DetectionExtractor.Best ℝ) =
    m.best ⟨0, 0, { taskConfidence := 0 }⟩ from rfl, hfold]
  simp only [apply_ite m.extracted]
  rfl

def gapBox (b : GapBox ℝ) : GapBox ℝ := { b with centerX := m.column b.centerX }

def checker (c : SameGapChecker ℝ) : SameGapChecker ℝ :=
  { c with previous := c.previous.map m.gapBox }

theorem box_move {gap : Detection ℝ} (h : gap.coordinates ≠ []) (hin : InImage gap)
    (hin' : InImage (m.detection gap)) :
    box (m.detection gap).coordinates = m.gapBox (box gap.coordinates) := by
  have hxs : xs (m.detection gap) = (xs gap).map m.column := by
    rw [xs, xs, List.map_map]
    exact List.map_map
  have hys : ys (m.detection gap) = ys gap := List.map_map
  have hne : xs gap ≠ [] := by simpa [xs] using h
  have hcentre (a b : ℝ) : (m.column a + m.column b) / 2.0 = m.column ((a + b) / 2.0) := by
    rw [show (2.0 : ℝ) = 2 by norm_num, column, column, column]
    ring
  rw [box_eq (m.coordinates_ne_nil h) hin', box_eq h hin, hxs, hys, gapBox]
  rcases m.unit with hsign | hsign
  · have hmono : Monotone m.column := by
      intro x y hxy
      simpa [column, hsign] using hxy
    rw [RunningExtreme.least_map_of_monotone hmono hne,
      RunningExtreme.greatest_map_of_monotone hmono hne, hcentre, m.column_sub, hsign, one_mul]
  · have hanti : Antitone m.column := by
      intro x y hxy
      rw [column, column, hsign]
      linarith
    rw [RunningExtreme.least_map_of_antitone hanti hne,
      RunningExtreme.greatest_map_of_antitone hanti hne, hcentre, m.column_sub, hsign, neg_one_mul,
      neg_sub, add_comm]

theorem repeats_move (cfg : SameGapConfig ℝ) (prev cur : GapBox ℝ) :
    cfg.Repeats (m.gapBox prev) (m.gapBox cur) ↔ cfg.Repeats prev cur := by
  have hsq : ((m.gapBox cur).centerX - (m.gapBox prev).centerX) *
      ((m.gapBox cur).centerX - (m.gapBox prev).centerX) =
        (cur.centerX - prev.centerX) * (cur.centerX - prev.centerX) := by
    rw [gapBox, gapBox, m.column_sub]
    linear_combination (cur.centerX - prev.centerX) * (cur.centerX - prev.centerX) *
      m.sign_mul_self
  have hsize : sizeDiff (m.gapBox prev) (m.gapBox cur) = sizeDiff prev cur := rfl
  unfold SameGapConfig.Repeats
  rw [hsq, hsize]
  rfl

theorem isSameGap_move (c : SameGapChecker ℝ) {gap : Detection ℝ} (hin : InImage gap)
    (hin' : InImage (m.detection gap)) :
    (m.checker c).isSameGap (m.detection gap) =
      ((c.isSameGap gap).1, m.checker (c.isSameGap gap).2) := by
  by_cases hopen : c.enabled = true ∧ gap.coordinates ≠ []
  · obtain ⟨hon, hgap⟩ := hopen
    have hgap' := m.coordinates_ne_nil hgap
    cases hprev : c.previous with
    | none =>
      have hprev' : (m.checker c).previous = none := by rw [checker, hprev, Option.map_none]
      rw [isSameGap_first hon hgap hprev, @isSameGap_first _ _ (m.checker c) _ hon hgap' hprev',
        m.box_move hgap hin hin']
      rfl
    | some prev =>
      have hprev' : (m.checker c).previous = some (m.gapBox prev) := by
        rw [checker, hprev, Option.map_some]
      rw [isSameGap_next hon hgap hprev, @isSameGap_next _ _ (m.checker c) _ _ hon hgap' hprev',
        m.box_move hgap hin hin']
      have hrepeats := m.repeats_move c.config prev (box gap.coordinates)
      by_cases h : c.config.Repeats prev (box gap.coordinates)
      · rw [if_pos h]
        exact if_pos (hrepeats.2 h)
      · rw [if_neg h]
        exact if_neg (mt hrepeats.1 h)
  · have hopen' : ¬ ((m.checker c).enabled = true ∧ (m.detection gap).coordinates ≠ []) := by
      rintro ⟨hon, hgap⟩
      exact hopen ⟨hon, fun hnone => hgap (List.map_eq_nil_iff.2 hnone)⟩
    rw [isSameGap_closed hopen, isSameGap_closed hopen']

def post (p : PostprocessModule ℝ) : PostprocessModule ℝ :=
  { p with sameGap := m.checker p.sameGap }

/-- The outlines that the module reads are there, and the starts of the scans of the gap box,
0 and 10¹⁸, are not beyond its extremes, before and after the motion. -/
structure Readable (minConfidence : ℝ) (resp : DetectionResponse ℝ) : Prop where
  outlined : Outlined (DetectionExtractor.extract resp.results minConfidence)
  inImage : ∀ gap ∈ (DetectionExtractor.extract resp.results minConfidence).gaps,
    InImage gap ∧ InImage (m.detection gap)

variable {m} {p : PostprocessModule ℝ} {resp resp' : DetectionResponse ℝ}

theorem detected_move (hresp : resp'.results = resp.results.map m.detection) (default : String) :
    (m.post p).detected resp' default =
      (m.extracted (p.detected resp default).1, (p.detected resp default).2) := by
  unfold PostprocessModule.detected
  rw [hresp]
  dsimp only [post]
  rw [m.extract_move]
  rfl

theorem skipsGap_move (hresp : resp'.results = resp.results.map m.detection)
    (hread : m.Readable p.minConfidence resp) (sub : InspectionSubTask) :
    (m.post p).skipsGap resp' sub =
      ((p.skipsGap resp sub).1, m.checker (p.skipsGap resp sub).2) := by
  have hgaps : (DetectionExtractor.extract resp'.results p.minConfidence).gaps =
      (DetectionExtractor.extract resp.results p.minConfidence).gaps.map m.detection := by
    rw [hresp, m.extract_move]
    rfl
  unfold PostprocessModule.skipsGap
  dsimp only [post]
  rw [hgaps]
  cases hg : (DetectionExtractor.extract resp.results p.minConfidence).gaps with
  | nil => cases sub <;> rfl
  | cons gap rest =>
    obtain ⟨hin, hin'⟩ := hread.inImage gap (by rw [hg]; exact List.mem_cons_self)
    cases sub with
    | gapInspection => exact m.isSameGap_move p.sameGap hin hin'
    | none | installation | marking => rfl

/-- What `process` and `process_ai_test` fill into the fields of a result that do not come
from the drawing. -/
structure Fills (found : ExtractedDetections ℝ × String) (resp : DetectionResponse ℝ)
    (gap : GapFindings ℝ) (r : InspectionResult ℝ) : Prop where
  taskId : r.taskId = found.2
  aiDetections : r.aiDetections = resp.results
  abnormal : r.abnormal = found.1.abnormals
  gap : r.gap = gap

theorem process_fills (lib : Nlohmann ℝ) (vis : Vision ℝ) (activeRecord station escalator : String)
    (a : CallbackArgs ℝ) (p : PostprocessModule ℝ) :
    let found := p.detected a.response "Unknown"
    let out := p.process lib vis activeRecord station escalator a
    out.1 = { p with sameGap := (p.skipsGap a.response a.subTask).2 } ∧
      Fills found a.response
        (if (p.skipsGap a.response a.subTask).1 = false ∧ a.subTask = .gapInspection then
          vis.gapPipeline found.1 found.2 a.left.data a.right.data
            (PostprocessModule.imageHeight vis a.left.data)
        else PostprocessModule.noGap) out.2.1 := by
  dsimp only
  unfold PostprocessModule.process
  cases hskip : (p.skipsGap a.response a.subTask).1 with
  | true =>
    dsimp only
    rw [if_pos hskip]
    exact ⟨rfl, rfl, rfl, rfl, rfl⟩
  | false =>
    dsimp only
    rw [if_neg (by simp [hskip])]
    refine ⟨rfl, rfl, rfl, rfl, ?_⟩
    dsimp only
    by_cases hsub : a.subTask = .gapInspection
    · rw [if_pos hsub, if_pos ⟨rfl, hsub⟩]
    · rw [if_neg hsub, if_neg fun h => hsub h.2]

theorem processAiTest_fills (lib : Nlohmann ℝ) (vis : Vision ℝ) (activeRecord : String)
    (a : CallbackArgs ℝ) (p : PostprocessModule ℝ) :
    let found := p.detected a.response "AI Test"
    Fills found a.response
      (vis.gapPipeline found.1 found.2 a.left.data a.right.data
        (PostprocessModule.imageHeight vis a.left.data))
      (p.processAiTest lib vis activeRecord a).1 :=
  ⟨rfl, rfl, rfl, rfl⟩

/-- What a moved response leaves: the same task, the moved detections and gap results, and
the same distances. -/
structure MovedResult (m : LateralMove) (r r' : InspectionResult ℝ) : Prop where
  taskId : r'.taskId = r.taskId
  aiDetections : r'.aiDetections = r.aiDetections.map m.detection
  abnormal : r'.abnormal = r.abnormal.map m.detection
  gap : r'.gap = m.findings r.gap

theorem Fills.moved {found : ExtractedDetections ℝ × String} {gap : GapFindings ℝ}
    {r r' : InspectionResult ℝ} (hresp : resp'.results = resp.results.map m.detection)
    (h : Fills found resp gap r)
    (h' : Fills (m.extracted found.1, found.2) resp' (m.findings gap) r') :
    MovedResult m r r' := by
  refine ⟨h'.taskId.trans h.taskId.symm, ?_, ?_, ?_⟩
  · rw [h'.aiDetections, h.aiDetections, hresp]
  · rw [h'.abnormal, h.abnormal]
    rfl
  · rw [h'.gap, h.gap]

structure MovedCall (m : LateralMove) (x x' : ProcessCall ℝ) : Prop where
  mode : x'.mode = x.mode
  subTask : x'.args.subTask = x.args.subTask
  results : x'.args.response.results = x.args.response.results.map m.detection
  left : x'.args.left.data = [] ↔ x.args.left.data = []
  rows : x'.vision.decodedRows x'.args.left.data = x.vision.decodedRows x.args.left.data
  sees : m.Sees x.vision x'.vision x.args.left.data x.args.right.data x'.args.left.data
    x'.args.right.data

def configured (m : LateralMove) (c : ConfiguredModule ℝ) : ConfiguredModule ℝ :=
  { c with post := m.post c.post }

section Call
variable {c : ConfiguredModule ℝ} {x x' : ProcessCall ℝ} (hx : MovedCall m x x')
include hx

theorem imageHeight_move :
    PostprocessModule.imageHeight ((m.configured c).vision x'.vision) x'.args.left.data =
      PostprocessModule.imageHeight (c.vision x.vision) x.args.left.data := by
  unfold PostprocessModule.imageHeight
  by_cases hnone : x.args.left.data = []
  · rw [if_pos hnone, if_pos (hx.left.2 hnone)]
  · rw [if_neg hnone, if_neg (mt hx.left.1 hnone)]
    exact congrArg (fun rows => rows.getD 1200) hx.rows

theorem gapPipeline_move (hread : m.Readable c.post.minConfidence x.args.response)
    (default : String) :
    let found' := (m.configured c).post.detected x'.args.response default
    let found := c.post.detected x.args.response default
    ((m.configured c).vision x'.vision).gapPipeline found'.1 found'.2 x'.args.left.data
        x'.args.right.data
        (PostprocessModule.imageHeight ((m.configured c).vision x'.vision) x'.args.left.data) =
      m.findings ((c.vision x.vision).gapPipeline found.1 found.2 x.args.left.data
        x.args.right.data
        (PostprocessModule.imageHeight (c.vision x.vision) x.args.left.data)) := by
  dsimp only
  have hdetected := detected_move (p := c.post) hx.results default
  rw [imageHeight_move hx, show (m.configured c).post = m.post c.post from rfl, hdetected]
  exact m.runGapPipeline_move hx.sees c.gapDist c.config hread.outlined _ _

theorem call_move (lib : Nlohmann ℝ) (hread : m.Readable c.post.minConfidence x.args.response) :
    ((m.configured c).call lib x').1 = m.configured (c.call lib x).1 ∧
      MovedResult m (c.call lib x).2.1 ((m.configured c).call lib x').2.1 := by
  have hdetected (default : String) : (m.configured c).post.detected x'.args.response default =
      (m.extracted (c.post.detected x.args.response default).1,
        (c.post.detected x.args.response default).2) := detected_move hx.results default
  have hskips : (m.configured c).post.skipsGap x'.args.response x'.args.subTask =
      ((c.post.skipsGap x.args.response x.args.subTask).1,
        m.checker (c.post.skipsGap x.args.response x.args.subTask).2) := by
    rw [hx.subTask]
    exact skipsGap_move hx.results hread x.args.subTask
  rw [ConfiguredModule.call, ConfiguredModule.call]
  unfold resultCallback
  rw [hx.mode]
  by_cases htest : x.mode = .aiTest
  · rw [if_pos htest, if_pos htest]
    have hfills' := processAiTest_fills lib ((m.configured c).vision x'.vision) x'.activeRecord
      x'.args (m.configured c).post
    dsimp only at hfills'
    rw [gapPipeline_move hx hread, hdetected] at hfills'
    exact ⟨rfl, (processAiTest_fills lib (c.vision x.vision) x.activeRecord x.args c.post).moved
      hx.results hfills'⟩
  · rw [if_neg htest, if_neg htest]
    obtain ⟨hstate, hfills⟩ := process_fills lib (c.vision x.vision) x.activeRecord x.stationId
      x.escalatorId x.args c.post
    obtain ⟨hstate', hfills'⟩ := process_fills lib ((m.configured c).vision x'.vision)
      x'.activeRecord x'.stationId x'.escalatorId x'.args (m.configured c).post
    rw [gapPipeline_move hx hread, hdetected, hskips, hx.subTask] at hfills'
    rw [hskips] at hstate'
    refine ⟨?_, hfills.moved hx.results ?_⟩
    · dsimp only
      rw [hstate, hstate']
      rfl
    · split at hfills' <;> rename_i hused
      · rw [if_pos hused]
        exact hfills'
      · rw [if_neg hused, m.findings_noGap]
        exact hfills'

end Call

theorem call_minConfidence (lib : Nlohmann ℝ) (c : ConfiguredModule ℝ) (x : ProcessCall ℝ) :
    (c.call lib x).1.post.minConfidence = c.post.minConfidence := by
  rw [ConfiguredModule.call]
  unfold resultCallback
  split
  · rfl
  · dsimp only
    rw [(process_fills lib (c.vision x.vision) x.activeRecord x.stationId x.escalatorId x.args
      c.post).1]

theorem results_configured (lib : Nlohmann ℝ) {calls calls' : List (ProcessCall ℝ)}
    (h : List.Forall₂ (MovedCall m) calls calls') (c : ConfiguredModule ℝ)
    (hread : ∀ x ∈ calls, m.Readable c.post.minConfidence x.args.response) :
    List.Forall₂ (fun out out' => MovedResult m out.1 out'.1) (c.results lib calls)
      ((m.configured c).results lib calls') := by
  induction h generalizing c with
  | nil => exact .nil
  | @cons x x' calls calls' hx _ ih =>
    obtain ⟨hstate, hresult⟩ := call_move hx lib (hread x List.mem_cons_self)
    refine .cons hresult ?_
    rw [hstate]
    apply ih
    intro y hy
    rw [call_minConfidence]
    exact hread y (List.mem_cons_of_mem x hy)

/-- Over every run of responses from a module that has seen no gap, with any pictures, tasks and
settings: each response to the moved pictures has the moved edges and gap lines and the same
distances, also where gaps repeat. -/
theorem results_moved (lib : Nlohmann ℝ) {c : ConfiguredModule ℝ}
    (hnew : c.post.sameGap.previous = none) {calls calls' : List (ProcessCall ℝ)}
    (h : List.Forall₂ (MovedCall m) calls calls')
    (hread : ∀ x ∈ calls, m.Readable c.post.minConfidence x.args.response) :
    List.Forall₂ (fun out out' => MovedResult m out.1 out'.1 ∧
      out'.1.gap.gapDistanceMm = out.1.gap.gapDistanceMm) (c.results lib calls)
        (c.results lib calls') := by
  have hsame : m.configured c = c := by
    rw [configured, post, checker, hnew, Option.map_none, ← hnew]
  have hrun := results_configured lib h c hread
  rw [hsame] at hrun
  refine hrun.imp ?_
  intro out out' hmoved
  refine ⟨hmoved, ?_⟩
  rw [hmoved.gap]
  rfl

def mirrored : LateralMove := ⟨-1, 100, .inr rfl⟩

def cleatBox (label : String) (x y : ℕ) : Detection ℝ :=
  { labelId := label, confidence := 1, fileName := "left.jpg", coordinates := [(x, y), (x, 0)] }

def seenDetections : List (Detection ℝ) :=
  [cornered 1 1, cleatBox "tread_cleat_up" 20 30, cleatBox "tread_cleat_up" 60 32,
    cleatBox "tread_cleat_dn" 25 70, cleatBox "tread_cleat_dn" 65 71]

noncomputable def seen (results : List (Detection ℝ)) : ProcessCall ℝ where
  vision := GapDistance.shiftedVision
  mode := .inspection
  activeRecord := "database/r"
  stationId := "s"
  escalatorId := "e"
  args :=
    { transactionId := "t", response := { transactionId := "t", dealerId := "d", results },
      left := { data := [1] }, right := { data := [2] }, pairIndex := 0,
      subTask := .gapInspection, workingDistanceMm := 0 }

theorem extract_seen :
    DetectionExtractor.extract seenDetections 0.5 =
      { taskConfidence := 0, gaps := [cornered 1 1],
        upCleats := [cleatBox "tread_cleat_up" 20 30, cleatBox "tread_cleat_up" 60 32],
        dnCleats := [cleatBox "tread_cleat_dn" 25 70, cleatBox "tread_cleat_dn" 65 71] } := by
  have hsure : ¬ (1 : ℝ) < 0.5 := by norm_num
  simp [DetectionExtractor.extract, DetectionExtractor.visit, seenDetections, cornered, cleatBox,
    hsure]

theorem results_moved_mirrored :
    List.Forall₂ (fun out out' => MovedResult mirrored out.1 out'.1 ∧
      out'.1.gap.gapDistanceMm = out.1.gap.gapDistanceMm)
      ((ConfiguredModule.new true true).results (plainLib fun _ => "0")
        [seen seenDetections, seen seenDetections])
      ((ConfiguredModule.new true true).results (plainLib fun _ => "0")
        [seen (seenDetections.map mirrored.detection),
          seen (seenDetections.map mirrored.detection)]) := by
  have hcall : MovedCall mirrored (seen seenDetections)
      (seen (seenDetections.map mirrored.detection)) :=
    ⟨rfl, rfl, rfl, Iff.rfl, rfl, rfl, rfl, rfl, rfl, Iff.rfl, fun _ => rfl⟩
  have hin : InImage (mirrored.detection (cornered 1 1)) := by
    constructor <;> norm_num [xs, ys, cornered, detection, vertex, column, mirrored,
      RunningExtreme.least_cons, RunningExtreme.greatest_cons, RunningExtreme.least_singleton,
      RunningExtreme.greatest_singleton]
  have hread : mirrored.Readable 0.5 (seen seenDetections).args.response := by
    refine ⟨?_, ?_⟩
    · change Outlined (DetectionExtractor.extract seenDetections 0.5)
      rw [extract_seen]
      constructor <;> simp [cornered, cleatBox]
    · change ∀ gap ∈ (DetectionExtractor.extract seenDetections 0.5).gaps, _
      rw [extract_seen]
      intro gap hgap
      rw [List.mem_singleton.1 hgap]
      exact ⟨inImage_cornered (by norm_num) (by norm_num), hin⟩
  refine results_moved _ rfl (.cons hcall (.cons hcall .nil)) ?_
  intro x hx
  have heq : x = seen seenDetections := by simpa using hx
  rw [heq]
  exact hread

end LateralMove

end EcidsCore
