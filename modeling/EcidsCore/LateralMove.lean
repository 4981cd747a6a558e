import EcidsCore.CleatGeometry
import EcidsCore.LineFit
import EcidsCore.PerpendicularWalk
import EcidsCore.SameGap

set_option autoImplicit false

/-! Over the reals: a picture shifted sideways, or reflected from left to right, gives the
gap results of the picture, shifted or reflected with it. -/
namespace EcidsCore
open CleatClassifier

/-- A horizontal motion of the picture: a shift, or a reflection and a shift. -/
structure LateralMove where
  sign : ℝ
  shift : ℝ
  unit : sign = 1 ∨ sign = -1

namespace LateralMove
variable (m : LateralMove)

def column (x : ℝ) : ℝ := m.sign * x + m.shift

def point (p : Point2D ℝ) : Point2D ℝ := ⟨m.column p.x, p.y⟩

def vertex (c : ℝ × ℝ) : ℝ × ℝ := (m.column c.1, c.2)

def detection (det : Detection ℝ) : Detection ℝ :=
  { det with coordinates := det.coordinates.map m.vertex }

def edge (e : FittedEdge ℝ) : FittedEdge ℝ :=
  ⟨m.sign * e.slope, e.intercept - m.sign * e.slope * m.shift, e.valid⟩

def cleat (c : ClassifiedCleat ℝ) : ClassifiedCleat ℝ :=
  { c with detection := m.detection c.detection, bottomMid := m.point c.bottomMid,
           centerX := m.column c.centerX }

def classification (c : CleatClassification ℝ) : CleatClassification ℝ where
  upLong := c.upLong.map m.cleat
  upShort := c.upShort.map m.cleat
  dnLong := c.dnLong.map m.cleat
  dnShort := c.dnShort.map m.cleat

def edges (e : EdgeSet ℝ) : EdgeSet ℝ where
  upLong := m.edge e.upLong
  upShort := m.edge e.upShort
  dnLong := m.edge e.dnLong
  dnShort := m.edge e.dnShort

def line (l : GapLine ℝ) : GapLine ℝ :=
  { l with upPoint := m.point l.upPoint, dnPoint := m.point l.dnPoint }

def info (i : GapLineInfo ℝ) : GapLineInfo ℝ :=
  { i with upX := m.column i.upX, dnX := m.column i.dnX }

def findings (f : GapFindings ℝ) : GapFindings ℝ where
  edges := m.edges f.edges
  gapLines := f.gapLines.map m.info
  gapDistanceMm := f.gapDistanceMm

def extracted (e : ExtractedDetections ℝ) : ExtractedDetections ℝ :=
  { e with gaps := e.gaps.map m.detection, upCleats := e.upCleats.map m.detection,
           dnCleats := e.dnCleats.map m.detection, riserCleats := e.riserCleats.map m.detection,
           abnormals := e.abnormals.map m.detection }

theorem sign_mul_self : m.sign * m.sign = 1 := by
  rcases m.unit with h | h <;> simp [h]

theorem sign_ne_zero : m.sign ≠ 0 := by
  rcases m.unit with h | h <;> simp [h]

theorem abs_sign_mul (x : ℝ) : |m.sign * x| = |x| := by
  rcases m.unit with h | h <;> simp [h]

theorem column_sub (x y : ℝ) : m.column x - m.column y = m.sign * (x - y) := by
  unfold column
  ring

theorem edge_at (e : FittedEdge ℝ) (x : ℝ) :
    (m.edge e).slope * m.column x + (m.edge e).intercept = e.slope * x + e.intercept := by
  change m.sign * e.slope * (m.sign * x + m.shift) +
    (e.intercept - m.sign * e.slope * m.shift) = _
  linear_combination e.slope * x * m.sign_mul_self

theorem heights_vertex (vertices : List (ℝ × ℝ)) :
    heights (vertices.map m.vertex) = heights vertices := by
  rw [heights, List.map_map]
  rfl

theorem lowest_vertex (vertices : List (ℝ × ℝ)) :
    lowest (vertices.map m.vertex) = lowest vertices := by
  rw [lowest, heights_vertex, lowest]

theorem meanX_vertex {vertices : List (ℝ × ℝ)} (h : vertices ≠ []) :
    meanX (vertices.map m.vertex) = m.column (meanX vertices) := by
  have hlen : (vertices.length : ℝ) ≠ 0 := by
    simpa using h
  have hsum : ((vertices.map m.vertex).map Prod.fst).sum =
      m.sign * (vertices.map Prod.fst).sum + vertices.length * m.shift := by
    have := LeastSquares.total_affine vertices Prod.fst m.sign m.shift
    rw [LeastSquares.total, LeastSquares.total] at this
    rw [List.map_map]
    exact this
  rw [meanX, hsum, List.length_map, column, meanX]
  field_simp

theorem coordinates_ne_nil {det : Detection ℝ} (h : det.coordinates ≠ []) :
    (m.detection det).coordinates ≠ [] := by
  simpa [detection] using h

theorem bottomMid_move {det : Detection ℝ} (h : det.coordinates ≠ []) :
    detectionBottomMid (m.detection det) = m.point (detectionBottomMid det) := by
  have hsince : since (det.coordinates.map m.vertex) = (since det.coordinates).map m.vertex := by
    unfold since
    rw [lowest_vertex, List.dropWhile_map]
    rfl
  have hnear (vertices : List (ℝ × ℝ)) (bottom : ℝ) :
      near bottom (vertices.map m.vertex) = (near bottom vertices).map m.vertex := by
    unfold near
    rw [List.filter_map]
    rfl
  rw [detectionBottomMid_eq (m.coordinates_ne_nil h), detectionBottomMid_eq h]
  change (⟨meanX (near (lowest (det.coordinates.map m.vertex))
      (since (det.coordinates.map m.vertex))),
    lowest (det.coordinates.map m.vertex)⟩ : Point2D ℝ) = _
  rw [lowest_vertex, hsince, hnear, meanX_vertex m (near_since_ne_nil h)]
  rfl

theorem bottomY_move (det : Detection ℝ) :
    detectionBottomY (m.detection det) = detectionBottomY det := by
  unfold detectionBottomY detection
  rw [List.foldl_map]
  rfl

theorem topY_move (det : Detection ℝ) : detectionTopY (m.detection det) = detectionTopY det := by
  unfold detectionTopY detection
  rw [List.foldl_map]
  rfl

theorem centerX_move {det : Detection ℝ} (h : det.coordinates ≠ []) :
    detectionCenterX (m.detection det) = m.column (detectionCenterX det) := by
  rw [detectionCenterX_eq (m.coordinates_ne_nil h), detectionCenterX_eq h]
  exact m.meanX_vertex h

theorem makeClassified_move (type : CleatType) {det : Detection ℝ} (h : det.coordinates ≠ []) :
    makeClassified type (m.detection det) = m.cleat (makeClassified type det) := by
  unfold makeClassified cleat
  rw [m.bottomMid_move h, m.bottomY_move, m.topY_move, m.centerX_move h]

theorem map_makeClassified (type : CleatType) {dets : List (Detection ℝ)}
    (h : ∀ det ∈ dets, det.coordinates ≠ []) :
    (dets.map m.detection).map (makeClassified type) =
      (dets.map (makeClassified type)).map m.cleat := by
  rw [List.map_map, List.map_map]
  exact List.map_congr_left fun det hdet => m.makeClassified_move type (h det hdet)

/-- The split goes by the heights alone. -/
theorem splitByMedian_move {dets : List (Detection ℝ)} (h : ∀ det ∈ dets, det.coordinates ≠ [])
    (useBottom : Bool) :
    splitByMedian (dets.map m.detection) useBottom =
      ((splitByMedian dets useBottom).1.map m.cleat,
        (splitByMedian dets useBottom).2.map m.cleat) := by
  have hvalues (value : Detection ℝ → ℝ) (hvalue : ∀ det, value (m.detection det) = value det) :
      (dets.map m.detection).map value = dets.map value := by
    rw [List.map_map]
    exact List.map_congr_left fun det _ => hvalue det
  have hside (p q : Detection ℝ → Bool) (hpq : ∀ det, p (m.detection det) = q det)
      (type : CleatType) :
      ((dets.map m.detection).filter p).map (makeClassified type) =
        ((dets.filter q).map (makeClassified type)).map m.cleat := by
    have hfilter : (dets.map m.detection).filter p = (dets.filter q).map m.detection := by
      rw [List.filter_map]
      congr 1
      exact List.filter_congr fun det _ => hpq det
    rw [hfilter]
    exact m.map_makeClassified type fun det hdet => h det (List.mem_of_mem_filter hdet)
  unfold splitByMedian
  cases useBottom with
  | true =>
    simp only [if_true, hvalues detectionBottomY m.bottomY_move]
    rw [hside _ (fun det => decide (median (dets.map detectionBottomY) ≤ detectionBottomY det)),
      hside _ (fun det => !decide (median (dets.map detectionBottomY) ≤ detectionBottomY det))]
    · intro det
      rw [m.bottomY_move]
    · intro det
      rw [m.bottomY_move]
  | false =>
    simp only [Bool.false_eq_true, if_false, hvalues detectionTopY m.topY_move]
    rw [hside _ (fun det => decide (detectionTopY det ≤ median (dets.map detectionTopY))),
      hside _ (fun det => !decide (detectionTopY det ≤ median (dets.map detectionTopY)))]
    · intro det
      rw [m.topY_move]
    · intro det
      rw [m.topY_move]

theorem classify_move {up dn risers : List (Detection ℝ)}
    (hup : ∀ det ∈ up, det.coordinates ≠ []) (hdn : ∀ det ∈ dn, det.coordinates ≠ [])
    (hrisers : ∀ det ∈ risers, det.coordinates ≠ []) (taskId : String) :
    classify (up.map m.detection) (dn.map m.detection) (risers.map m.detection) taskId =
      m.classification (classify up dn risers taskId) := by
  unfold classify
  split
  · rw [m.map_makeClassified .long hrisers, m.map_makeClassified .short hdn]
    rfl
  · dsimp only
    rw [m.splitByMedian_move hup, m.splitByMedian_move hdn]
    rfl

open EdgeFitter

theorem edge_noLine : m.edge noLine = noLine := by
  simp [edge, noLine]

theorem unfit_move (points : List (Point2D ℝ)) :
    Unfit (points.map m.point) ↔ Unfit points := by
  have hspread : LeastSquares.spread (points.map m.point) Point2D.x =
      LeastSquares.spread points Point2D.x := by
    have h := LeastSquares.spread_affine points Point2D.x m.sign m.shift
    rw [sq, m.sign_mul_self, one_mul] at h
    exact (LeastSquares.spread_map points m.point Point2D.x).trans h
  rw [Unfit, Unfit, hspread, List.length_map]

theorem div_sign (x : ℝ) : x / m.sign = m.sign * x := by
  rw [div_eq_iff m.sign_ne_zero]
  linear_combination -x * m.sign_mul_self

theorem fitLine_move (points : List (Point2D ℝ)) :
    fitLine (points.map m.point) = m.edge (fitLine points) := by
  by_cases h : Unfit points
  · rw [(fitLine_eq points).1 h, (fitLine_eq _).1 ((m.unfit_move points).2 h), m.edge_noLine]
  · have hn : (points.length : ℝ) ≠ 0 := by
      have hmany : 2 ≤ points.length := not_lt.1 (not_or.1 h).1
      exact Nat.cast_ne_zero.2 (by omega)
    have hslope := LeastSquares.slope_affine points Point2D.x Point2D.y m.sign_ne_zero m.shift
    have hintercept := LeastSquares.intercept_affine (l := points) Point2D.x Point2D.y
      m.sign_ne_zero m.shift hn
    rw [div_sign] at hslope hintercept
    rw [(fitLine_eq points).2 h, (fitLine_eq _).2 (mt (m.unfit_move points).1 h),
      LeastSquares.slope_map, LeastSquares.intercept_map]
    change (⟨LeastSquares.slope points (fun p => m.sign * p.x + m.shift) Point2D.y,
      LeastSquares.intercept points (fun p => m.sign * p.x + m.shift) Point2D.y, true⟩ :
        FittedEdge ℝ) = _
    rw [hslope, hintercept]
    rfl

theorem pointToLineDistance_move (p : Point2D ℝ) (e : FittedEdge ℝ) :
    pointToLineDistance (m.point p) (m.edge e) = pointToLineDistance p e := by
  have hroot : (m.edge e).slope * (m.edge e).slope = e.slope * e.slope := by
    change m.sign * e.slope * (m.sign * e.slope) = _
    linear_combination e.slope * e.slope * m.sign_mul_self
  have hheight : (m.point p).y - ((m.edge e).slope * (m.point p).x + (m.edge e).intercept) =
      p.y - (e.slope * p.x + e.intercept) := by
    rw [show (m.point p).x = m.column p.x from rfl, m.edge_at]
    rfl
  unfold pointToLineDistance
  rw [hroot, hheight]
  rfl

theorem inliers_move (points : List (Point2D ℝ)) (threshold : ℝ) (e : FittedEdge ℝ) :
    inliers (points.map m.point) threshold (m.edge e) =
      (inliers points threshold e).map m.point := by
  unfold inliers
  rw [List.filter_map]
  congr 1
  apply List.filter_congr
  intro p _
  rw [Function.comp_apply, m.pointToLineDistance_move]

theorem candidate_move (points : List (Point2D ℝ)) (pick : ℕ × ℕ) :
    candidate (points.map m.point) pick = (candidate points pick).map m.edge := by
  unfold candidate
  by_cases hsame : pick.1 = pick.2
  · rw [if_pos hsame, if_pos hsame]
    rfl
  rw [if_neg hsame, if_neg hsame, List.getElem?_map, List.getElem?_map]
  cases points[pick.1]? with
  | none => rfl
  | some a =>
    cases points[pick.2]? with
    | none => rfl
    | some b =>
      have hwidth : (m.point a).x - (m.point b).x = m.sign * (a.x - b.x) := m.column_sub a.x b.x
      have hsteep : StereoMath.abs (m.sign * (a.x - b.x)) = StereoMath.abs (a.x - b.x) := by
        rw [abs_eq_abs, abs_eq_abs, m.abs_sign_mul]
      dsimp only [Option.map_some]
      rw [hwidth, hsteep]
      by_cases hflat : StereoMath.abs (a.x - b.x) < 1e-10
      · rw [if_pos hflat, if_pos hflat]
        rfl
      · rw [if_neg hflat, if_neg hflat, Option.map_some]
        congr 1
        have hslope : (a.y - b.y) / (m.sign * (a.x - b.x)) =
            m.sign * ((a.y - b.y) / (a.x - b.x)) := by
          rw [div_mul_eq_div_div_swap, div_sign]
        change (⟨(a.y - b.y) / (m.sign * (a.x - b.x)),
          a.y - (a.y - b.y) / (m.sign * (a.x - b.x)) * m.column a.x, true⟩ : FittedEdge ℝ) = _
        rw [hslope, edge, column]
        congr 1
        linear_combination -((a.y - b.y) / (a.x - b.x) * a.x) * m.sign_mul_self

theorem ransacVisit_move (points : List (Point2D ℝ)) (threshold : ℝ) (best : FittedEdge ℝ × ℕ)
    (pick : ℕ × ℕ) :
    ransacVisit (points.map m.point) threshold (m.edge best.1, best.2) pick =
      (m.edge (ransacVisit points threshold best pick).1,
        (ransacVisit points threshold best pick).2) := by
  unfold ransacVisit
  rw [m.candidate_move]
  cases candidate points pick with
  | none => rfl
  | some e =>
    dsimp only [Option.map_some]
    rw [m.inliers_move, List.length_map]
    split <;> rfl

theorem foldl_ransacVisit_move (points : List (Point2D ℝ)) (threshold : ℝ)
    (tried : List (ℕ × ℕ)) (best : FittedEdge ℝ × ℕ) :
    tried.foldl (ransacVisit (points.map m.point) threshold) (m.edge best.1, best.2) =
      (m.edge (tried.foldl (ransacVisit points threshold) best).1,
        (tried.foldl (ransacVisit points threshold) best).2) := by
  induction tried generalizing best with
  | nil => rfl
  | cons pick tried ih =>
    rw [List.foldl_cons, List.foldl_cons, m.ransacVisit_move]
    exact ih _

theorem refit_move (points : List (Point2D ℝ)) (threshold : ℝ) (best : FittedEdge ℝ × ℕ) :
    refit (points.map m.point) threshold (m.edge best.1, best.2) =
      m.edge (refit points threshold best) := by
  unfold refit
  dsimp only
  rw [m.inliers_move, List.length_map, m.fitLine_move, m.fitLine_move]
  split_ifs
  · rfl
  · rfl
  · rfl

theorem hybridRansacFitWithin_move (maxIterations : ℤ) (picks : ℕ → ℕ × ℕ)
    (points : List (Point2D ℝ)) (threshold : ℝ) :
    hybridRansacFitWithin maxIterations picks (points.map m.point) threshold =
      m.edge (hybridRansacFitWithin maxIterations picks points threshold) := by
  have hbest := m.foldl_ransacVisit_move points threshold
    ((List.range (iterationBound maxIterations points.length)).map picks) (noLine, 0)
  rw [m.edge_noLine] at hbest
  unfold hybridRansacFitWithin
  rw [List.length_map, hbest, m.refit_move]
  split_ifs
  · exact m.edge_noLine.symm
  · rfl

theorem hybridRansacFit_move (picks : ℕ → ℕ × ℕ) (points : List (Point2D ℝ)) (threshold : ℝ) :
    hybridRansacFit picks (points.map m.point) threshold =
      m.edge (hybridRansacFit picks points threshold) :=
  m.hybridRansacFitWithin_move 100 picks points threshold

theorem fitEdges_move {v v' : StereoVision ℝ} (threshold : ℝ) (c : CleatClassification ℝ)
    (hul : v'.picksUpLong = v.picksUpLong) (hus : v'.picksUpShort = v.picksUpShort)
    (hdl : v'.picksDnLong = v.picksDnLong) (hds : v'.picksDnShort = v.picksDnShort) :
    GapPipeline.fitEdges v' threshold (m.classification c) =
      m.edges (GapPipeline.fitEdges v threshold c) := by
  have hbottom (cleats : List (ClassifiedCleat ℝ)) :
      extractClassifiedBottomPoints (cleats.map m.cleat) =
        (extractClassifiedBottomPoints cleats).map m.point := by
    rw [extractClassifiedBottomPoints, extractClassifiedBottomPoints, List.map_map, List.map_map]
    rfl
  have htop (cleats : List (ClassifiedCleat ℝ)) :
      extractClassifiedTopPoints (cleats.map m.cleat) =
        (extractClassifiedTopPoints cleats).map m.point := by
    rw [extractClassifiedTopPoints, extractClassifiedTopPoints, List.map_map, List.map_map]
    rfl
  simp only [GapPipeline.fitEdges, classification, edges, hbottom, htop,
    m.hybridRansacFit_move, hul, hus, hdl, hds]

open GapLocalizer

theorem walk_move (dx dy : ℝ) (e : FittedEdge ℝ) (steps : ℕ) (p : Point2D ℝ) :
    walk (m.sign * dx) dy (m.edge e) steps (m.point p) = m.point (walk dx dy e steps p) := by
  induction steps generalizing p with
  | zero => rfl
  | succ steps ih =>
    have hnext : (⟨(m.point p).x + m.sign * dx, (m.point p).y + dy⟩ : Point2D ℝ) =
        m.point ⟨p.x + dx, p.y + dy⟩ := by
      simp only [point, column]
      congr 1
      ring
    have htest : (m.edge e).slope * ((m.point p).x + m.sign * dx) + (m.edge e).intercept ≤
        (m.point p).y + dy ↔ e.slope * (p.x + dx) + e.intercept ≤ p.y + dy := by
      have hx : (m.point p).x + m.sign * dx = m.column (p.x + dx) := congrArg Point2D.x hnext
      rw [hx, m.edge_at]
      rfl
    unfold walk
    by_cases hend : e.slope * (p.x + dx) + e.intercept ≤ p.y + dy
    · refine (if_pos (htest.2 hend)).trans (hnext.trans ?_)
      exact congrArg m.point (if_pos hend).symm
    · refine (if_neg (mt htest.1 hend)).trans ?_
      dsimp only
      rw [hnext, ih]
      exact congrArg m.point (if_neg hend).symm

theorem normalOf_move (e : FittedEdge ℝ) :
    normalOf (m.edge e) = ⟨m.sign * (normalOf e).x, (normalOf e).y⟩ := by
  have hsq : (m.edge e).slope ^ 2 = e.slope ^ 2 := by
    change (m.sign * e.slope) ^ 2 = _
    linear_combination e.slope ^ 2 * m.sign_mul_self
  rw [normalOf, hsq, normalOf]
  congr 1
  change -(m.sign * e.slope / _) = _
  rw [mul_div_assoc, mul_neg]

theorem perpendicularToLine_move {up dn : FittedEdge ℝ} (hup : up.valid = true)
    (hdn : dn.valid = true) (p : Point2D ℝ) :
    perpendicularToLine (m.edge up) (m.edge dn) (m.point p) =
      m.point (perpendicularToLine up dn p) := by
  rw [perpendicularToLine_eq hup hdn,
    @perpendicularToLine_eq (m.edge up) (m.edge dn) hup hdn, m.normalOf_move]
  exact m.walk_move _ _ dn 10000 p

theorem lengthOf_move (a b : Point2D ℝ) : lengthOf (m.point a) (m.point b) = lengthOf a b := by
  have hx : (m.point b).x - (m.point a).x = m.sign * (b.x - a.x) := m.column_sub b.x a.x
  have hsq : m.sign * (b.x - a.x) * (m.sign * (b.x - a.x)) = (b.x - a.x) * (b.x - a.x) := by
    linear_combination (b.x - a.x) * (b.x - a.x) * m.sign_mul_self
  unfold lengthOf
  dsimp only
  rw [hx, hsq]
  rfl

theorem point_on_edge (e : FittedEdge ℝ) (x : ℝ) :
    (⟨m.column x, (m.edge e).slope * m.column x + (m.edge e).intercept⟩ : Point2D ℝ) =
      m.point ⟨x, e.slope * x + e.intercept⟩ := by
  rw [m.edge_at]
  rfl

theorem locateLines_move (type : GapLineType) (up dn : FittedEdge ℝ)
    (cleats : List (ClassifiedCleat ℝ)) :
    locateLines type (m.edge up) (m.edge dn) (cleats.map m.cleat) =
      (locateLines type up dn cleats).map m.line := by
  unfold locateLines
  by_cases hinvalid : up.valid = false ∨ dn.valid = false
  · rw [if_pos hinvalid]
    exact if_pos hinvalid
  · have hvalid : up.valid = true ∧ dn.valid = true := by simpa using hinvalid
    rw [if_neg hinvalid, List.map_map]
    refine (if_neg hinvalid).trans ?_
    rw [List.map_map]
    apply List.map_congr_left
    intro cc _
    dsimp only [Function.comp_apply, cleat, line, point]
    have hstart := m.point_on_edge up cc.bottomMid.x
    rw [hstart, m.perpendicularToLine_move hvalid.1 hvalid.2, m.lengthOf_move]
    rfl

theorem locateGap_singleton {up dn : FittedEdge ℝ} (hup : up.valid = true)
    (hdn : dn.valid = true) {gap : Detection ℝ} (h : gap.coordinates ≠ []) :
    locateGap up dn [gap] =
      let start : Point2D ℝ :=
        ⟨detectionCenterX gap, up.slope * detectionCenterX gap + up.intercept⟩
      ⟨start, perpendicularToLine up dn start, lengthOf start (perpendicularToLine up dn start),
        .downGap, true⟩ := by
  simp [locateGap, detectionCenterX, hup, hdn, h]

theorem locateGap_move {up dn : FittedEdge ℝ} (hup : up.valid = true) (hdn : dn.valid = true)
    {gap : Detection ℝ} (h : gap.coordinates ≠ []) :
    locateGap (m.edge up) (m.edge dn) [m.detection gap] = m.line (locateGap up dn [gap]) := by
  rw [locateGap_singleton hup hdn h,
    @locateGap_singleton (m.edge up) (m.edge dn) hup hdn _ (m.coordinates_ne_nil h)]
  dsimp only
  rw [m.centerX_move h, m.point_on_edge, m.perpendicularToLine_move hup hdn, m.lengthOf_move]
  rfl

/-- What the pipeline takes from outside is the same at the moved places: the pairs that the
fits try, whether there are images, and the disparities. -/
structure Sees (v v' : StereoVision ℝ) (left right left' right' : Bytes) : Prop where
  picksUpLong : v'.picksUpLong = v.picksUpLong
  picksUpShort : v'.picksUpShort = v.picksUpShort
  picksDnLong : v'.picksDnLong = v.picksDnLong
  picksDnShort : v'.picksDnShort = v.picksDnShort
  images : left' = [] ∨ right' = [] ↔ left = [] ∨ right = []
  disparity : ∀ p, v'.disparity left' right' (m.point p) = v.disparity left right p

open GapPipeline

theorem midpoint_move (l : GapLine ℝ) :
    GapDistance.midpoint (m.line l) = m.point (GapDistance.midpoint l) := by
  simp only [GapDistance.midpoint, line, point, column]
  congr 1
  rw [show (2.0 : ℝ) = 2 by norm_num]
  ring

variable {m} in
theorem Sees.measure {v v' : StereoVision ℝ} {left right left' right' : Bytes}
    (h : m.Sees v v' left right left' right') (g : GapDistance ℝ) (l : GapLine ℝ) :
    GapPipeline.measure v' g left' right' (m.line l) =
      GapPipeline.measure v g left right l := by
  unfold GapPipeline.measure GapDistance.calculate
  rw [m.midpoint_move, h.disparity]
  by_cases hnone : left = [] ∨ right = []
  · rw [if_pos hnone, if_pos (h.images.2 hnone)]
  · rw [if_neg hnone, if_neg (mt h.images.1 hnone)]
    rfl

section Found
variable {height : ℕ} {distance distance' : GapLine ℝ → ℝ} {cfg : PostprocessConfig ℝ}

theorem foldl_lineVisit_move (h : ∀ l, distance' (m.line l) = distance l) (up : Bool)
    (lines : List (GapLine ℝ)) (found : List (GapLineInfo ℝ) × ℝ) :
    (lines.map m.line).foldl (lineVisit height distance' cfg up) (found.1.map m.info, found.2) =
      ((lines.foldl (lineVisit height distance cfg up) found).1.map m.info,
        (lines.foldl (lineVisit height distance cfg up) found).2) := by
  induction lines generalizing found with
  | nil => rfl
  | cons l lines ih =>
    have hvisit : lineVisit height distance' cfg up (found.1.map m.info, found.2) (m.line l) =
        ((lineVisit height distance cfg up found l).1.map m.info,
          (lineVisit height distance cfg up found l).2) := by
      unfold lineVisit
      rw [h l]
      by_cases hleft : l.valid = false ∨ NearBorder cfg height l
      · rw [if_pos hleft]
        exact if_pos hleft
      · rw [if_neg hleft, List.map_append]
        exact if_neg hleft
    rw [List.map_cons, List.foldl_cons, List.foldl_cons, hvisit]
    exact ih _

theorem edgeLines_move (h : ∀ l, distance' (m.line l) = distance l)
    (c : CleatClassification ℝ) (e : EdgeSet ℝ) :
    edgeLines (lineVisit height distance' cfg) (m.classification c) (m.edges e) =
      ((edgeLines (lineVisit height distance cfg) c e).1.map m.info,
        (edgeLines (lineVisit height distance cfg) c e).2) := by
  have hup : (if e.upShort.valid ∧ e.dnLong.valid then
      locateUpGapLines (m.edge e.upShort) (m.edge e.dnLong) (c.upShort.map m.cleat) else []) =
        (if e.upShort.valid ∧ e.dnLong.valid then
          locateUpGapLines e.upShort e.dnLong c.upShort else []).map m.line := by
    split
    · exact m.locateLines_move .upGap _ _ _
    · rfl
  have hdown : (if e.upLong.valid ∧ e.dnShort.valid then
      locateDownGapLines (m.edge e.upLong) (m.edge e.dnShort) (c.upLong.map m.cleat) else []) =
        (if e.upLong.valid ∧ e.dnShort.valid then
          locateDownGapLines e.upLong e.dnShort c.upLong else []).map m.line := by
    split
    · exact m.locateLines_move .downGap _ _ _
    · rfl
  unfold edgeLines
  refine (congrArg₂ (fun down up => List.foldl (lineVisit height distance' cfg false)
    (List.foldl (lineVisit height distance' cfg true) ([], 0) up) down) hdown hup).trans ?_
  refine Eq.trans ?_ (m.foldl_lineVisit_move h false _ _)
  exact congrArg (fun found => List.foldl (lineVisit height distance' cfg false) found _)
    (m.foldl_lineVisit_move h true _ ([], 0))

theorem gapLines_move (h : ∀ l, distance' (m.line l) = distance l)
    (c : CleatClassification ℝ) {gaps : List (Detection ℝ)}
    (hgaps : ∀ gap ∈ gaps, gap.coordinates ≠ []) (e : EdgeSet ℝ) :
    gapLines height distance' cfg (m.classification c) (gaps.map m.detection) (m.edges e) =
      ((gapLines height distance cfg c gaps e).1.map m.info,
        (gapLines height distance cfg c gaps e).2) := by
  unfold gapLines
  dsimp only
  rw [m.edgeLines_move h]
  by_cases hfallback : (edgeLines (lineVisit height distance cfg) c e).1 = [] ∧
      e.upLong.valid = true ∧ e.dnShort.valid = true
  · have hlines : (gaps.map m.detection).map
        (fun gap => locateGap (m.edge e.upLong) (m.edge e.dnShort) [gap]) =
          (gaps.map fun gap => locateGap e.upLong e.dnShort [gap]).map m.line := by
      rw [List.map_map, List.map_map]
      apply List.map_congr_left
      intro gap hgap
      exact m.locateGap_move hfallback.2.1 hfallback.2.2 (hgaps gap hgap)
    rw [if_pos hfallback]
    refine (if_pos ⟨by rw [hfallback.1]; rfl, hfallback.2⟩).trans ?_
    dsimp only [edges]
    rw [hlines]
    exact m.foldl_lineVisit_move h false _ _
  · rw [if_neg hfallback]
    refine if_neg ?_
    rintro ⟨hnone, hvalid⟩
    exact hfallback ⟨List.map_eq_nil_iff.1 hnone, hvalid⟩

end Found

/-- Every detection that the pipeline takes points from has an outline. -/
structure Outlined (e : ExtractedDetections ℝ) : Prop where
  gaps : ∀ det ∈ e.gaps, det.coordinates ≠ []
  upCleats : ∀ det ∈ e.upCleats, det.coordinates ≠ []
  dnCleats : ∀ det ∈ e.dnCleats, det.coordinates ≠ []
  riserCleats : ∀ det ∈ e.riserCleats, det.coordinates ≠ []

theorem findings_noGap :
    m.findings PostprocessModule.noGap = PostprocessModule.noGap := by
  simp [findings, PostprocessModule.noGap, edges, edge]

theorem runGapPipeline_move {v v' : StereoVision ℝ} {left right left' right' : Bytes}
    (hsees : m.Sees v v' left right left' right') (g : GapDistance ℝ)
    (cfg : PostprocessConfig ℝ) {e : ExtractedDetections ℝ} (he : Outlined e) (taskId : String)
    (height : ℕ) :
    runGapPipeline v' g cfg (m.extracted e) taskId left' right' height =
      m.findings (runGapPipeline v g cfg e taskId left right height) := by
  have hclassified := m.classify_move he.upCleats he.dnCleats he.riserCleats taskId
  have hup : (if taskId = "T2" ∧ (m.extracted e).upCleats = [] then (m.extracted e).riserCleats
      else (m.extracted e).upCleats) = [] ↔
        (if taskId = "T2" ∧ e.upCleats = [] then e.riserCleats else e.upCleats) = [] := by
    have hnone : (m.extracted e).upCleats = [] ↔ e.upCleats = [] := List.map_eq_nil_iff
    by_cases hrisers : taskId = "T2" ∧ e.upCleats = []
    · rw [if_pos hrisers, if_pos ⟨hrisers.1, hnone.2 hrisers.2⟩]
      exact List.map_eq_nil_iff
    · rw [if_neg hrisers, if_neg fun h => hrisers ⟨h.1, hnone.1 h.2⟩]
      exact hnone
  have hdn : (m.extracted e).dnCleats = [] ↔ e.dnCleats = [] := List.map_eq_nil_iff
  unfold runGapPipeline
  dsimp only
  by_cases hnone : (if taskId = "T2" ∧ e.upCleats = [] then e.riserCleats else e.upCleats) = [] ∨
      e.dnCleats = []
  · rw [if_pos hnone, if_pos (hnone.imp hup.2 hdn.2), m.findings_noGap]
  · rw [if_neg hnone, if_neg (mt (Or.imp hup.1 hdn.1) hnone)]
    dsimp only [extracted]
    rw [hclassified, m.fitEdges_move _ _ hsees.picksUpLong hsees.picksUpShort hsees.picksDnLong
      hsees.picksDnShort, m.gapLines_move (hsees.measure g) _ he.gaps]
    rfl

end LateralMove

end EcidsCore
