import EcidsCore.GapResult

set_option autoImplicit false

/-! Cleats without coordinates. The classifier gives such a cleat the point `(0, 0)`, and
that point takes part in the fit of an edge. -/
namespace EcidsCore.GapPipeline
open StereoMath

variable {R : Type} [StereoMath R]

def hasCoordinates (det : Detection R) : Bool := !det.coordinates.isEmpty

def withoutEmpty (extracted : ExtractedDetections R) : ExtractedDetections R :=
  { extracted with
    upCleats := extracted.upCleats.filter hasCoordinates
    dnCleats := extracted.dnCleats.filter hasCoordinates
    riserCleats := extracted.riserCleats.filter hasCoordinates }

structure EdgePoints (R : Type) where
  upLong : List (Point2D R) := []
  upShort : List (Point2D R) := []
  dnLong : List (Point2D R) := []
  dnShort : List (Point2D R) := []

def pointsOf (c : CleatClassification R) : EdgePoints R where
  upLong := EdgeFitter.extractClassifiedBottomPoints c.upLong
  upShort := EdgeFitter.extractClassifiedBottomPoints c.upShort
  dnLong := EdgeFitter.extractClassifiedTopPoints c.dnLong
  dnShort := EdgeFitter.extractClassifiedTopPoints c.dnShort

def classified (extracted : ExtractedDetections R) (taskId : String) : CleatClassification R :=
  CleatClassifier.classify extracted.upCleats extracted.dnCleats extracted.riserCleats taskId

def fittedPoints (extracted : ExtractedDetections R) (taskId : String) : EdgePoints R :=
  if ReturnsEarly extracted taskId then {} else pointsOf (classified extracted taskId)

def locatedLines (v : StereoVision R) (cfg : PostprocessConfig R)
    (extracted : ExtractedDetections R) (taskId : String) : List (SidedLine R) :=
  if ReturnsEarly extracted taskId then []
  else fourEdgeLines (classified extracted taskId)
    (fitEdges v cfg.edgeInlierThreshold (classified extracted taskId))

/-- Removing the cleats without coordinates changes no point, no edge and no line. -/
structure EmptyInert (extracted : ExtractedDetections R) (taskId : String) : Prop where
  points : fittedPoints extracted taskId = fittedPoints (withoutEmpty extracted) taskId
  edges : ∀ v g cfg left right height,
    (runGapPipeline v g cfg extracted taskId left right height).edges =
      (runGapPipeline v g cfg (withoutEmpty extracted) taskId left right height).edges
  lines : ∀ v cfg, locatedLines v cfg extracted taskId =
    locatedLines v cfg (withoutEmpty extracted) taskId

def usedCleats (extracted : ExtractedDetections R) (taskId : String) : List (Detection R) :=
  (if taskId = "T2" then extracted.riserCleats else extracted.upCleats) ++ extracted.dnCleats

/-- Nothing is fitted, or all cleats of the task have coordinates and the pipeline gets
to the fit without the others as well. -/
def AllLocated (extracted : ExtractedDetections R) (taskId : String) : Prop :=
  ReturnsEarly extracted taskId ∨
    (∀ det ∈ usedCleats extracted taskId, hasCoordinates det = true) ∧
      ¬ ReturnsEarly (withoutEmpty extracted) taskId

def edgesFrom (v : StereoVision R) (threshold : R) (p : EdgePoints R) : EdgeSet R where
  upLong := EdgeFitter.hybridRansacFit v.picksUpLong p.upLong threshold
  upShort := EdgeFitter.hybridRansacFit v.picksUpShort p.upShort threshold
  dnLong := EdgeFitter.hybridRansacFit v.picksDnLong p.dnLong threshold
  dnShort := EdgeFitter.hybridRansacFit v.picksDnShort p.dnShort threshold

def linesFrom (type : GapLineType) (a b : FittedEdge R) (points : List (Point2D R)) :
    List (GapLine R) :=
  if a.valid = false ∨ b.valid = false then []
  else points.map fun p =>
    let upPoint : Point2D R := ⟨p.x, a.slope * p.x + a.intercept⟩
    let dnPoint := GapLocalizer.perpendicularToLine a b upPoint
    ⟨upPoint, dnPoint, GapLocalizer.lengthOf upPoint dnPoint, type, true⟩

theorem locateLines_eq (type : GapLineType) (a b : FittedEdge R)
    (cleats : List (ClassifiedCleat R)) : GapLocalizer.locateLines type a b cleats =
      linesFrom type a b (EdgeFitter.extractClassifiedBottomPoints cleats) := by
  unfold GapLocalizer.locateLines linesFrom EdgeFitter.extractClassifiedBottomPoints
  split
  · rfl
  · rw [List.map_map]
    rfl

def fourLinesFrom (e : EdgeSet R) (p : EdgePoints R) : List (SidedLine R) :=
  (linesFrom .upGap e.upShort e.dnLong p.upShort).map (true, ·) ++
    (linesFrom .downGap e.upLong e.dnShort p.upLong).map (false, ·)

theorem runGapPipeline_edges (v : StereoVision R) (g : GapDistance R) (cfg : PostprocessConfig R)
    (extracted : ExtractedDetections R) (taskId : String) (left right : Bytes) (height : ℕ) :
    (runGapPipeline v g cfg extracted taskId left right height).edges =
      edgesFrom v cfg.edgeInlierThreshold (fittedPoints extracted taskId) := by
  by_cases hearly : ReturnsEarly extracted taskId
  · have hrun : runGapPipeline v g cfg extracted taskId left right height =
        PostprocessModule.noGap := if_pos hearly
    rw [hrun, fittedPoints, if_pos hearly]
    rfl
  · have hrun : (runGapPipeline v g cfg extracted taskId left right height).edges =
        fitEdges v cfg.edgeInlierThreshold (classified extracted taskId) :=
      congrArg GapFindings.edges (if_neg hearly)
    rw [hrun, fittedPoints, if_neg hearly]
    rfl

theorem locatedLines_eq (v : StereoVision R) (cfg : PostprocessConfig R)
    (extracted : ExtractedDetections R) (taskId : String) :
    locatedLines v cfg extracted taskId =
      fourLinesFrom (edgesFrom v cfg.edgeInlierThreshold (fittedPoints extracted taskId))
        (fittedPoints extracted taskId) := by
  unfold locatedLines fittedPoints
  split
  · rfl
  · simp only [fourEdgeLines, GapLocalizer.locateUpGapLines, GapLocalizer.locateDownGapLines,
      locateLines_eq]
    rfl

theorem emptyInert_of_points {extracted : ExtractedDetections R} {taskId : String}
    (h : fittedPoints extracted taskId = fittedPoints (withoutEmpty extracted) taskId) :
    EmptyInert extracted taskId where
  points := h
  edges v g cfg left right height := by rw [runGapPipeline_edges, runGapPipeline_edges, h]
  lines v cfg := by rw [locatedLines_eq, locatedLines_eq, h]

def EdgePoints.total (p : EdgePoints R) : ℕ :=
  p.upLong.length + p.upShort.length + p.dnLong.length + p.dnShort.length

theorem splitByMedian_length (cleats : List (Detection R)) (useBottom : Bool) :
    (CleatClassifier.splitByMedian cleats useBottom).1.length +
      (CleatClassifier.splitByMedian cleats useBottom).2.length = cleats.length := by
  have h := (CleatClassifier.splitByMedian_perm cleats useBottom).length_eq
  simpa using h

theorem total_pointsOf (extracted : ExtractedDetections R) (taskId : String) :
    (pointsOf (classified extracted taskId)).total = (usedCleats extracted taskId).length := by
  have hup := splitByMedian_length extracted.upCleats true
  have hdn := splitByMedian_length extracted.dnCleats false
  by_cases hT2 : taskId = "T2"
  · simp [EdgePoints.total, pointsOf, classified, CleatClassifier.classify, usedCleats, hT2,
      EdgeFitter.extractClassifiedBottomPoints, EdgeFitter.extractClassifiedTopPoints]
  · simp only [EdgePoints.total, pointsOf, classified, CleatClassifier.classify, usedCleats, hT2,
      EdgeFitter.extractClassifiedBottomPoints, EdgeFitter.extractClassifiedTopPoints, if_false,
      List.length_map, List.length_append]
    omega

omit [StereoMath R] in
theorem usedCleats_withoutEmpty (extracted : ExtractedDetections R) (taskId : String) :
    usedCleats (withoutEmpty extracted) taskId =
      (usedCleats extracted taskId).filter hasCoordinates := by
  unfold usedCleats withoutEmpty
  split <;> rw [List.filter_append]

variable {extracted : ExtractedDetections R} {taskId : String}

omit [StereoMath R] in
theorem returnsEarly_withoutEmpty (h : ReturnsEarly extracted taskId) :
    ReturnsEarly (withoutEmpty extracted) taskId := by
  rcases h with h | h
  · left
    by_cases hT2 : taskId = "T2" ∧ extracted.upCleats = []
    · rw [if_pos hT2] at h
      simp [withoutEmpty, hT2, h]
    · rw [if_neg hT2] at h
      have htask : taskId ≠ "T2" := fun htask => hT2 ⟨htask, h⟩
      simp [withoutEmpty, h, htask]
  · right
    simp [withoutEmpty, h]

theorem classified_withoutEmpty
    (h : ∀ det ∈ usedCleats extracted taskId, hasCoordinates det = true) :
    classified (withoutEmpty extracted) taskId = classified extracted taskId := by
  have hdn : extracted.dnCleats.filter hasCoordinates = extracted.dnCleats :=
    List.filter_eq_self.2 fun det hdet => h det (List.mem_append_right _ hdet)
  by_cases hT2 : taskId = "T2"
  · have hriser : extracted.riserCleats.filter hasCoordinates = extracted.riserCleats :=
      List.filter_eq_self.2 fun det hdet => h det (by simp [usedCleats, hT2, hdet])
    simp only [classified, CleatClassifier.classify, withoutEmpty, hT2, if_true, hriser, hdn]
  · have hup : extracted.upCleats.filter hasCoordinates = extracted.upCleats :=
      List.filter_eq_self.2 fun det hdet => h det (by simp [usedCleats, hT2, hdet])
    simp only [classified, CleatClassifier.classify, withoutEmpty, hT2, if_false, hup, hdn]

theorem used_of_points
    (h : fittedPoints extracted taskId = fittedPoints (withoutEmpty extracted) taskId)
    (hearly : ¬ ReturnsEarly extracted taskId) :
    (∀ det ∈ usedCleats extracted taskId, hasCoordinates det = true) ∧
      ¬ ReturnsEarly (withoutEmpty extracted) taskId := by
  have htotal := congrArg EdgePoints.total h
  have hused : extracted.dnCleats ≠ [] := fun hdn => hearly (.inr hdn)
  have hpos : 0 < (usedCleats extracted taskId).length := by
    rw [usedCleats, List.length_append]
    exact Nat.add_pos_right _ (List.length_pos_iff.2 hused)
  rw [fittedPoints, if_neg hearly, total_pointsOf] at htotal
  by_cases hearly' : ReturnsEarly (withoutEmpty extracted) taskId
  · rw [fittedPoints, if_pos hearly'] at htotal
    exact absurd htotal hpos.ne'
  · rw [fittedPoints, if_neg hearly', total_pointsOf, usedCleats_withoutEmpty] at htotal
    exact ⟨List.length_filter_eq_length_iff.1 htotal.symm, hearly'⟩

/-- For every response and task. -/
theorem emptyInert_iff (extracted : ExtractedDetections R) (taskId : String) :
    EmptyInert extracted taskId ↔ AllLocated extracted taskId := by
  constructor
  · intro h
    by_cases hearly : ReturnsEarly extracted taskId
    · exact .inl hearly
    · exact .inr (used_of_points h.points hearly)
  · rintro (hearly | ⟨hall, hearly'⟩)
    · apply emptyInert_of_points
      rw [fittedPoints, fittedPoints, if_pos hearly, if_pos (returnsEarly_withoutEmpty hearly)]
    · have hearly : ¬ ReturnsEarly extracted taskId := mt returnsEarly_withoutEmpty hearly'
      apply emptyInert_of_points
      rw [fittedPoints, fittedPoints, if_neg hearly, if_neg hearly',
        classified_withoutEmpty hall]

def oneEmpty : ExtractedDetections ℤ where
  taskConfidence := 1
  riserCleats := [cleatAt "riser_cleat" [(0, 50)], cleatAt "riser_cleat" [(10, 50)]]
  dnCleats := [cleatAt "dn_cleat" [(10, 100)], cleatAt "dn_cleat" []]

/-- The empty cleat gives the lower edge its second point, and without it there is no edge;
the one pair that is drawn is that of a point with itself. -/
theorem emptyInert_fails_one_empty :
    let v := { evenVision with picksDnShort := fun _ => (0, 0) }
    let found := runGapPipeline v GapDistance.new offsetConfig oneEmpty "T2" [1] [1] 1200
    let found' := runGapPipeline v GapDistance.new offsetConfig (withoutEmpty oneEmpty) "T2" [1] [1]
      1200
    found.edges.dnShort.valid = true ∧ found'.edges.dnShort.valid = false ∧
      ¬ EmptyInert oneEmpty "T2" := by
  refine ⟨rfl, rfl, ?_⟩
  intro h
  have hpoints := congrArg (fun p => p.dnShort.length) h.points
  exact absurd hpoints (by decide)

end EcidsCore.GapPipeline
