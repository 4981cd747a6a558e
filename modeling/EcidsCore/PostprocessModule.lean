import EcidsCore.PreprocessModule

set_option autoImplicit false

/-! The postprocess module: what it takes from a list of detections, when it skips
a repeated gap, and the files it saves. -/
namespace EcidsCore
open ByteText

variable {R : Type}

structure ExtractedDetections (R : Type) where
  taskId : String := ""
  taskConfidence : R
  gaps : List (Detection R) := []
  upCleats : List (Detection R) := []
  dnCleats : List (Detection R) := []
  riserCleats : List (Detection R) := []
  abnormals : List (Detection R) := []

namespace DetectionExtractor
variable [Double R]

structure Best (R : Type) where
  t1 : R
  t2 : R
  found : ExtractedDetections R

def visit (minConfidence : R) (b : Best R) (det : Detection R) : Best R :=
  if det.confidence < minConfidence then b
  else if det.labelId = "T1" then
    if b.t1 < det.confidence then { b with t1 := det.confidence } else b
  else if det.labelId = "T2" then
    if b.t2 < det.confidence then { b with t2 := det.confidence } else b
  else if det.labelId = "gap_t1" ∨ det.labelId = "gap_t2" then
    { b with found.gaps := b.found.gaps ++ [det] }
  else if det.labelId = "tread_cleat_up" then
    { b with found.upCleats := b.found.upCleats ++ [det] }
  else if det.labelId = "tread_cleat_dn" then
    { b with found.dnCleats := b.found.dnCleats ++ [det] }
  else if det.labelId = "riser_cleat" then
    { b with found.riserCleats := b.found.riserCleats ++ [det] }
  else if det.labelId = "dust" ∨ det.labelId = "deformation" then
    { b with found.abnormals := b.found.abnormals ++ [det] }
  else b

def extract (detections : List (Detection R)) (minConfidence : R) : ExtractedDetections R :=
  let b := detections.foldl (visit minConfidence) ⟨0, 0, { taskConfidence := 0 }⟩
  if 0 < b.t1 ∨ 0 < b.t2 then
    if b.t1 < b.t2 then { b.found with taskId := "T2", taskConfidence := b.t2 }
    else { b.found with taskId := "T1", taskConfidence := b.t1 }
  else b.found

end DetectionExtractor

structure GapBox (R : Type) where
  centerX : R
  centerY : R
  width : R
  height : R

/-- The thresholds are the built-in ones: the configured ones never reach the checker. -/
structure SameGapChecker (R : Type) where
  enabled : Bool := true
  locationThreshold : R
  sizeThreshold : R
  previous : Option (GapBox R) := none

namespace SameGapChecker
variable [Double R]

def default : SameGapChecker R where
  locationThreshold := 30.0
  sizeThreshold := 0.3

def box (coordinates : List (R × R)) : GapBox R :=
  let low := fun (a x : R) => if x < a then x else a
  let high := fun (a x : R) => if a < x then x else a
  let minX := (coordinates.map Prod.fst).foldl low 1e18
  let maxX := (coordinates.map Prod.fst).foldl high 0
  let minY := (coordinates.map Prod.snd).foldl low 1e18
  let maxY := (coordinates.map Prod.snd).foldl high 0
  { centerX := (minX + maxX) / 2.0, centerY := (minY + maxY) / 2.0,
    width := maxX - minX, height := maxY - minY }

def sizeDiff (prev cur : GapBox R) : R :=
  let prevArea := prev.width * prev.height
  let diff := cur.width * cur.height - prevArea
  if 0 < prevArea then (if diff < 0 then 0 - diff else diff) / prevArea else 0

def isSameGap (c : SameGapChecker R) (gap : Detection R) : Bool × SameGapChecker R :=
  if c.enabled = false ∨ gap.coordinates = [] then (false, c)
  else
    let cur := box gap.coordinates
    match c.previous with
    | none => (false, { c with previous := some cur })
    | some prev =>
      let dx := cur.centerX - prev.centerX
      let dy := cur.centerY - prev.centerY
      if Double.sqrt (dx * dx + dy * dy) < c.locationThreshold ∧
          sizeDiff prev cur < c.sizeThreshold then (true, c)
      else (false, { c with previous := some cur })

end SameGapChecker

structure FittedEdge (R : Type) where
  slope : R
  intercept : R
  valid : Bool

structure EdgeSet (R : Type) where
  upLong : FittedEdge R
  upShort : FittedEdge R
  dnLong : FittedEdge R
  dnShort : FittedEdge R

structure GapLineInfo (R : Type) where
  up : Bool
  upX : R
  upY : R
  dnX : R
  dnY : R
  gapDistanceMm : R

/-- What the gap pipeline finds; `none` for the edges that it did not fit. -/
structure GapFindings (R : Type) where
  edges : EdgeSet R
  gapLines : List (GapLineInfo R) := []
  gapDistanceMm : R

structure InspectionResult (R : Type) where
  transactionId : String
  taskId : String
  stationId : String := ""
  escalatorId : String := ""
  timestamp : String
  workingDistanceMm : R
  aiDetections : List (Detection R)
  abnormal : List (Detection R)
  gap : GapFindings R
  annotatedLeft : Bytes := []
  annotatedRight : Bytes := []
  aiAnnotatedLeft : Bytes := []
  aiAnnotatedRight : Bytes := []

/-- The image processing below `process`: decoding, the gap pipeline and drawing. -/
structure Vision (R : Type) where
  decodedRows : Bytes → Option ℕ
  gapPipeline : ExtractedDetections R → String → Bytes → Bytes → ℕ → GapFindings R
  annotate : Bytes → GapFindings R → List (Detection R) → Bytes
  annotateAiOnly : Bytes → List (Detection R) → Bytes

structure PostprocessModule (R : Type) where
  hasRecordMgr : Bool := true
  hasDbWriter : Bool := true
  minConfidence : R
  sameGap : SameGapChecker R

namespace PostprocessModule
variable [Double R]

def noGap : GapFindings R :=
  let edge : FittedEdge R := ⟨0, 0, false⟩
  { edges := ⟨edge, edge, edge, edge⟩, gapDistanceMm := 0 }

def imageHeight (vis : Vision R) (left : Bytes) : ℕ :=
  if left = [] then 1200 else (vis.decodedRows left).getD 1200

def labelsJson (dets : List (Detection R)) : Json R :=
  .array (dets.map fun d =>
    .object [("confidence", .number d.confidence), ("label_id", .string d.labelId)])

def edgeField (name : String) (e : FittedEdge R) : List (String × Json R) :=
  if e.valid then
    [(name, .object [("intercept", .number e.intercept), ("slope", .number e.slope)])]
  else []

def gapLinesJson (gls : List (GapLineInfo R)) : Json R :=
  .array (gls.map fun gl =>
    .object [("dn_x", .number gl.dnX), ("dn_y", .number gl.dnY),
      ("gap_distance_mm", .number gl.gapDistanceMm),
      ("type", .string (if gl.up then "up" else "down")),
      ("up_x", .number gl.upX), ("up_y", .number gl.upY)])

def stereoJson (activeRecord : String) (idx : ℕ) (r : InspectionResult R) : Json R :=
  .object ([("abnormal", labelsJson r.abnormal), ("ai_detections", labelsJson r.aiDetections)] ++
    edgeField "dn_edge_long" r.gap.edges.dnLong ++ edgeField "dn_edge_short" r.gap.edges.dnShort ++
    [("escalator_id", .string r.escalatorId), ("gap_distance_mm", .number r.gap.gapDistanceMm)] ++
    (if r.gap.gapLines = [] then [] else [("gap_lines", gapLinesJson r.gap.gapLines)]) ++
    [("pair_index", .integer idx), ("record_id", .string activeRecord),
      ("station_id", .string r.stationId), ("task_id", .string r.taskId),
      ("timestamp", .string r.timestamp)] ++
    edgeField "up_edge_long" r.gap.edges.upLong ++ edgeField "up_edge_short" r.gap.edges.upShort ++
    [("working_distance_mm", .number r.workingDistanceMm)])

def stereoJsonAiTest (idx : ℕ) (r : InspectionResult R) : Json R :=
  .object ([("ai_detections", labelsJson r.aiDetections)] ++
    edgeField "dn_edge_long" r.gap.edges.dnLong ++ edgeField "dn_edge_short" r.gap.edges.dnShort ++
    [("gap_distance_mm", .number r.gap.gapDistanceMm),
      ("gap_lines", gapLinesJson r.gap.gapLines), ("pair_index", .integer idx),
      ("task_id", .string r.taskId), ("timestamp", .string r.timestamp)] ++
    edgeField "up_edge_long" r.gap.edges.upLong ++ edgeField "up_edge_short" r.gap.edges.upShort)

def stereoRequest (path subfolder : String) (idx : ℕ) (text : Bytes) : DBWriteRequest :=
  { type := .stereoResult, recordPath := path, subfolder := subfolder, cameraId := "",
    pairIndex := idx, textData := text }

def detected (m : PostprocessModule R) (resp : DetectionResponse R) (default : String) :
    ExtractedDetections R × String :=
  let extracted := DetectionExtractor.extract resp.results m.minConfidence
  (extracted, if extracted.taskId = "" then default else extracted.taskId)

/-- Whether `process` returns early, and the checker's state behind the check. -/
def skipsGap (m : PostprocessModule R) (resp : DetectionResponse R) (sub : InspectionSubTask) :
    Bool × SameGapChecker R :=
  match sub, (DetectionExtractor.extract resp.results m.minConfidence).gaps with
  | .gapInspection, gap :: _ => m.sameGap.isSameGap gap
  | _, _ => (false, m.sameGap)

def inspectionSubfolder (sub : InspectionSubTask) : String :=
  if sub = .installation then "installation" else "inspection"

/-- The files of `process`; both AI result texts are the bare transaction id. -/
def saveResult (lib : Nlohmann R) (activeRecord : String) (a : CallbackArgs R)
    (result : InspectionResult R) (m : PostprocessModule R) : Writes :=
  let sub := inspectionSubfolder a.subTask
  let text := lib.dump (stereoJson activeRecord a.pairIndex result)
  let txn := bytes a.response.transactionId
  if m.hasRecordMgr = false ∨ activeRecord = "" then {}
  else if m.hasDbWriter then
    { enqueued :=
        [.stereoResult activeRecord sub "" a.pairIndex text,
          .aiResult activeRecord sub "L" a.pairIndex txn,
          .aiResult activeRecord sub "R" a.pairIndex txn] ++
        imageCalls activeRecord sub a.pairIndex
          [("AL", result.annotatedLeft), ("AR", result.annotatedRight)] }
  else { saved := [stereoRequest activeRecord sub a.pairIndex text] }

def saveAiTest (lib : Nlohmann R) (activeRecord : String) (idx : ℕ)
    (result : InspectionResult R) (m : PostprocessModule R) : Writes :=
  let text := lib.dump (stereoJsonAiTest idx result)
  if m.hasRecordMgr = false ∨ activeRecord = "" then {}
  else if m.hasDbWriter then
    { enqueued := .stereoResult activeRecord "" "" idx text ::
        imageCalls activeRecord "" idx
          [("AL", result.annotatedLeft), ("AR", result.annotatedRight),
            ("AL2", result.aiAnnotatedLeft), ("AR2", result.aiAnnotatedRight)] }
  else { saved := [stereoRequest activeRecord "" idx text] }

def process (lib : Nlohmann R) (vis : Vision R) (activeRecord stationId escalatorId : String)
    (a : CallbackArgs R) (m : PostprocessModule R) :
    PostprocessModule R × InspectionResult R × Writes :=
  let (extracted, taskId) := m.detected a.response "Unknown"
  let (skip, checker) := m.skipsGap a.response a.subTask
  let m := { m with sameGap := checker }
  let result : InspectionResult R :=
    { transactionId := a.response.transactionId, taskId, stationId, escalatorId,
      timestamp := a.response.tsReceived, workingDistanceMm := a.workingDistanceMm,
      aiDetections := a.response.results, abnormal := extracted.abnormals, gap := noGap }
  if skip then (m, result, {})
  else
    let gap := if a.subTask = .gapInspection then
        vis.gapPipeline extracted taskId a.left.data a.right.data (imageHeight vis a.left.data)
      else noGap
    let result := { result with gap }
    let draw := fun data : Bytes =>
      if data = [] then [] else vis.annotate data result.gap result.aiDetections
    let result := { result with
      annotatedLeft := draw a.left.data, annotatedRight := draw a.right.data }
    (m, result, m.saveResult lib activeRecord a result)

def processAiTest (lib : Nlohmann R) (vis : Vision R) (activeRecord : String)
    (a : CallbackArgs R) (m : PostprocessModule R) : InspectionResult R × Writes :=
  let (extracted, taskId) := m.detected a.response "AI Test"
  let result : InspectionResult R :=
    { transactionId := a.response.transactionId, taskId, timestamp := a.response.tsReceived,
      workingDistanceMm := 0, aiDetections := a.response.results,
      abnormal := extracted.abnormals,
      gap := vis.gapPipeline extracted taskId a.left.data a.right.data
        (imageHeight vis a.left.data) }
  let draw := fun data : Bytes =>
    if data = [] then [] else vis.annotate data result.gap result.aiDetections
  let drawAi := fun data : Bytes =>
    if data = [] then [] else vis.annotateAiOnly data result.aiDetections
  let result := { result with
    annotatedLeft := draw a.left.data, annotatedRight := draw a.right.data,
    aiAnnotatedLeft := drawAi a.left.data, aiAnnotatedRight := drawAi a.right.data }
  (result, m.saveAiTest lib activeRecord a.pairIndex result)

omit [Double R] in
theorem saveResult_filed (lib : Nlohmann R) (activeRecord : String) (a : CallbackArgs R)
    (result : InspectionResult R) (m : PostprocessModule R) :
    (m.saveResult lib activeRecord a result).Filed (inspectionSubfolder a.subTask)
      a.pairIndex := by
  dsimp only [saveResult]
  split
  · exact Writes.filed_nil _ _
  · split
    · refine ⟨?_, List.forall_mem_nil _⟩
      intro c hc
      rcases List.mem_append.1 hc with hc | hc
      · simp only [List.mem_cons, List.not_mem_nil, or_false] at hc
        rcases hc with rfl | rfl | rfl <;> exact ⟨rfl, rfl⟩
      · exact imageCalls_filed c hc
    · refine ⟨List.forall_mem_nil _, ?_⟩
      intro r hr
      rw [List.mem_singleton.1 hr]
      exact ⟨rfl, rfl⟩

omit [Double R] in
theorem saveAiTest_filed (lib : Nlohmann R) (activeRecord : String) (idx : ℕ)
    (result : InspectionResult R) (m : PostprocessModule R) :
    (m.saveAiTest lib activeRecord idx result).Filed "" idx := by
  dsimp only [saveAiTest]
  split
  · exact Writes.filed_nil _ _
  · split
    · refine ⟨?_, List.forall_mem_nil _⟩
      intro c hc
      rcases List.mem_cons.1 hc with rfl | hc
      · exact ⟨rfl, rfl⟩
      · exact imageCalls_filed c hc
    · refine ⟨List.forall_mem_nil _, ?_⟩
      intro r hr
      rw [List.mem_singleton.1 hr]
      exact ⟨rfl, rfl⟩

theorem process_skipped {lib : Nlohmann R} {vis : Vision R} {activeRecord station escalator : String}
    {a : CallbackArgs R} {m : PostprocessModule R}
    (h : (m.skipsGap a.response a.subTask).1 = true) :
    (m.process lib vis activeRecord station escalator a).2.2 = {} := by
  simp only [process, h, if_true]

theorem process_saved (lib : Nlohmann R) (vis : Vision R) (activeRecord station escalator : String)
    {a : CallbackArgs R} {m : PostprocessModule R}
    (h : (m.skipsGap a.response a.subTask).1 = false) :
    ∃ result, (m.process lib vis activeRecord station escalator a).2.2 =
      m.saveResult lib activeRecord a result := by
  simp only [process, h, Bool.false_eq_true, if_false]
  exact ⟨_, rfl⟩

omit [Double R] in
theorem stereoRequest_mem_saveResult (lib : Nlohmann R) {activeRecord : String} (a : CallbackArgs R)
    (result : InspectionResult R) {m : PostprocessModule R} (hmgr : m.hasRecordMgr = true)
    (hrec : activeRecord ≠ "") :
    stereoRequest activeRecord (inspectionSubfolder a.subTask) a.pairIndex
        (lib.dump (stereoJson activeRecord a.pairIndex result)) ∈
      (m.saveResult lib activeRecord a result).requests := by
  have hopen : ¬ (m.hasRecordMgr = false ∨ activeRecord = "") := by simp [hmgr, hrec]
  dsimp only [saveResult]
  rw [if_neg hopen]
  split
  · exact List.mem_append_left _ (List.mem_filterMap.2 ⟨_, List.mem_cons_self, rfl⟩)
  · exact List.mem_append_right _ List.mem_cons_self

theorem skipsGap_fresh {m : PostprocessModule R} (h : m.sameGap.previous = none)
    (resp : DetectionResponse R) (sub : InspectionSubTask) : (m.skipsGap resp sub).1 = false := by
  unfold skipsGap
  split
  · rw [SameGapChecker.isSameGap]
    split
    · rfl
    · rw [h]
  · rfl

end PostprocessModule

def noVision [Double R] : Vision R where
  decodedRows _ := none
  gapPipeline _ _ _ _ _ := PostprocessModule.noGap
  annotate _ _ _ := []
  annotateAiOnly _ _ := []

end EcidsCore
