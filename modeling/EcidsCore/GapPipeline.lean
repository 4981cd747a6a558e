import EcidsCore.PostprocessModule
import Mathlib.Analysis.SpecialFunctions.Trigonometric.Arctan

set_option autoImplicit false

/-! The gap pipeline of the postprocess module: the cleats are split into long and short ones,
an edge is fitted to each of the four groups, and the gap lines run from edge to edge. -/
namespace EcidsCore

/-- What the geometry needs of `double` besides; no number is below itself. -/
class StereoMath (R : Type) extends Double R, LE R where
  leDecidable : ∀ x y : R, Decidable (x ≤ y)
  decEq : DecidableEq R
  pi : R
  atan : R → R
  cos : R → R
  sin : R → R
  lt_irrefl : ∀ x : R, ¬ x < x

namespace StereoMath
variable {R : Type} [StereoMath R]

instance decidableLE (x y : R) : Decidable (x ≤ y) := leDecidable x y

instance decidableEq : DecidableEq R := decEq

def abs (x : R) : R := if x < 0 then 0 - x else x

def ofNat (n : ℕ) : R := (n : ℤ)

end StereoMath

open StereoMath

variable {R : Type}

structure Point2D (R : Type) where
  x : R
  y : R

inductive CleatType where
  | long
  | short

structure ClassifiedCleat (R : Type) where
  detection : Detection R
  type : CleatType
  bottomMid : Point2D R
  bottomY : R
  topY : R
  centerX : R

structure CleatClassification (R : Type) where
  upLong : List (ClassifiedCleat R) := []
  upShort : List (ClassifiedCleat R) := []
  dnLong : List (ClassifiedCleat R) := []
  dnShort : List (ClassifiedCleat R) := []

namespace CleatClassifier
variable [StereoMath R]

/-- The lowest points seen so far: their `y`, and the sum and number of their `x`. -/
structure BottomRow (R : Type) where
  maxY : R
  sumX : R
  count : ℕ

def bottomVisit (b : BottomRow R) (c : R × R) : BottomRow R :=
  let near := if abs (c.2 - b.maxY) < 3.0 then
    { b with sumX := b.sumX + c.1, count := b.count + 1 } else b
  if b.maxY < c.2 then { maxY := c.2, sumX := c.1, count := 1 } else near

def detectionBottomMid (det : Detection R) : Point2D R :=
  match det.coordinates with
  | [] => ⟨0, 0⟩
  | first :: _ =>
    let b := det.coordinates.foldl bottomVisit ⟨first.2, 0, 0⟩
    ⟨if 0 < b.count then b.sumX / ofNat b.count else first.1, b.maxY⟩

def detectionBottomY (det : Detection R) : R :=
  det.coordinates.foldl (fun maxY c => if maxY < c.2 then c.2 else maxY) 0

def detectionTopY (det : Detection R) : R :=
  let minY := det.coordinates.foldl (fun minY c => if c.2 < minY then c.2 else minY) 1e18
  if minY < 1e18 then minY else 0

def detectionCenterX (det : Detection R) : R :=
  if det.coordinates = [] then 0
  else det.coordinates.foldl (fun sum c => sum + c.1) 0 / ofNat det.coordinates.length

def makeClassified (type : CleatType) (det : Detection R) : ClassifiedCleat R where
  detection := det
  type := type
  bottomMid := detectionBottomMid det
  bottomY := detectionBottomY det
  topY := detectionTopY det
  centerX := detectionCenterX det

def median (values : List R) : R :=
  ((values.mergeSort fun x y => x ≤ y)[values.length / 2]?).getD 0

/-- The long cleats and the short ones; the edge of a long one is the nearer to the gap. -/
def splitByMedian (cleats : List (Detection R)) (useBottom : Bool) :
    List (ClassifiedCleat R) × List (ClassifiedCleat R) :=
  let value := fun det => if useBottom then detectionBottomY det else detectionTopY det
  let mid := median (cleats.map value)
  let isLong := fun det => if useBottom then decide (mid ≤ value det) else decide (value det ≤ mid)
  ((cleats.filter isLong).map (makeClassified .long),
    (cleats.filter fun det => !isLong det).map (makeClassified .short))

def classify (upCleats dnCleats riserCleats : List (Detection R)) (taskId : String) :
    CleatClassification R :=
  if taskId = "T2" then
    { upLong := riserCleats.map (makeClassified .long),
      dnShort := dnCleats.map (makeClassified .short) }
  else
    let up := splitByMedian upCleats true
    let dn := splitByMedian dnCleats false
    { upLong := up.1, upShort := up.2, dnLong := dn.1, dnShort := dn.2 }

theorem splitByMedian_perm (cleats : List (Detection R)) (useBottom : Bool) :
    (((splitByMedian cleats useBottom).1 ++ (splitByMedian cleats useBottom).2).map
      ClassifiedCleat.detection).Perm cleats := by
  have hkept (type : CleatType) (dets : List (Detection R)) :
      (dets.map (makeClassified type)).map ClassifiedCleat.detection = dets := by
    rw [List.map_map]
    exact List.map_id dets
  dsimp only [splitByMedian]
  rw [List.map_append, hkept, hkept]
  exact List.filter_append_perm _ cleats

end CleatClassifier

namespace EdgeFitter
variable [StereoMath R]

def noLine : FittedEdge R := ⟨0, 0, false⟩

def fitLine (points : List (Point2D R)) : FittedEdge R :=
  if points.length < 2 then noLine
  else
    let n : R := ofNat points.length
    let sum := fun f : Point2D R → R => points.foldl (fun s p => s + f p) 0
    let sumX := sum Point2D.x
    let sumY := sum Point2D.y
    let denom := n * sum (fun p => p.x * p.x) - sumX * sumX
    if abs denom < 1e-10 then noLine
    else
      let slope := (n * sum (fun p => p.x * p.y) - sumX * sumY) / denom
      ⟨slope, (sumY - slope * sumX) / n, true⟩

def pointToLineDistance (p : Point2D R) (line : FittedEdge R) : R :=
  if line.valid = false then 1e18
  else abs (p.y - (line.slope * p.x + line.intercept)) /
    Double.sqrt (1.0 + line.slope * line.slope)

def inliers (points : List (Point2D R)) (threshold : R) (line : FittedEdge R) :
    List (Point2D R) :=
  points.filter fun p => pointToLineDistance p line < threshold

def candidate (points : List (Point2D R)) (pick : ℕ × ℕ) : Option (FittedEdge R) :=
  if pick.1 = pick.2 then none
  else
    match points[pick.1]?, points[pick.2]? with
    | some a, some b =>
      let dx := a.x - b.x
      if abs dx < 1e-10 then none
      else
        let slope := (a.y - b.y) / dx
        some ⟨slope, a.y - slope * a.x, true⟩
    | _, _ => none

def ransacVisit (points : List (Point2D R)) (threshold : R) (best : FittedEdge R × ℕ)
    (pick : ℕ × ℕ) : FittedEdge R × ℕ :=
  match candidate points pick with
  | none => best
  | some line =>
    let count := (inliers points threshold line).length
    if best.2 < count then (line, count) else best

/-- The product is a `size_t`; its half is cut to `int`. -/
def iterationBound (maxIterations : ℤ) (n : ℕ) : ℕ :=
  (min maxIterations (Json.toInt32 (n * (n - 1) % 2 ^ 64 / 2 : ℕ))).toNat

def refit (points : List (Point2D R)) (threshold : R) (best : FittedEdge R × ℕ) : FittedEdge R :=
  if 2 ≤ best.2 then
    let kept := inliers points threshold best.1
    if 2 ≤ kept.length then fitLine kept else best.1
  else fitLine points

/-- The index pairs come from the random device. -/
def hybridRansacFitWithin (maxIterations : ℤ) (picks : ℕ → ℕ × ℕ) (points : List (Point2D R))
    (threshold : R) : FittedEdge R :=
  if points.length < 2 then noLine
  else refit points threshold
    (((List.range (iterationBound maxIterations points.length)).map picks).foldl
      (ransacVisit points threshold) (noLine, 0))

def hybridRansacFit (picks : ℕ → ℕ × ℕ) (points : List (Point2D R)) (threshold : R) :
    FittedEdge R :=
  hybridRansacFitWithin 100 picks points threshold

def extractClassifiedBottomPoints (cleats : List (ClassifiedCleat R)) : List (Point2D R) :=
  cleats.map ClassifiedCleat.bottomMid

def extractClassifiedTopPoints (cleats : List (ClassifiedCleat R)) : List (Point2D R) :=
  cleats.map fun cc => ⟨cc.centerX, cc.topY⟩

end EdgeFitter

inductive GapLineType where
  | unknown
  | upGap
  | downGap

structure GapLine (R : Type) where
  upPoint : Point2D R
  dnPoint : Point2D R
  lengthPx : R
  type : GapLineType := .unknown
  valid : Bool := false

namespace GapLocalizer
variable [StereoMath R]

def walk (dx dy : R) (endEdge : FittedEdge R) : ℕ → Point2D R → Point2D R
  | 0, p => p
  | steps + 1, p =>
    let next : Point2D R := ⟨p.x + dx, p.y + dy⟩
    if endEdge.slope * next.x + endEdge.intercept ≤ next.y then next
    else walk dx dy endEdge steps next

def perpendicularToLine (startEdge endEdge : FittedEdge R) (start : Point2D R) : Point2D R :=
  if startEdge.valid = false ∨ endEdge.valid = false then start
  else
    let angle := atan startEdge.slope + pi / 2.0
    let dx := cos angle
    let dy := sin angle
    if dy < 0 then walk (0 - dx) (0 - dy) endEdge 10000 start else walk dx dy endEdge 10000 start

def lengthOf (a b : Point2D R) : R :=
  let dx := b.x - a.x
  let dy := b.y - a.y
  Double.sqrt (dx * dx + dy * dy)

def locateGap (upEdge dnEdge : FittedEdge R) (gaps : List (Detection R)) : GapLine R :=
  if upEdge.valid = false then ⟨⟨0, 0⟩, ⟨0, 0⟩, 0, .unknown, false⟩
  else
    let coords := (gaps.head?.map Detection.coordinates).getD []
    let midUp : Point2D R :=
      if coords = [] then ⟨0, upEdge.intercept⟩
      else
        let x := coords.foldl (fun sum c => sum + c.1) 0 / ofNat coords.length
        ⟨x, upEdge.slope * x + upEdge.intercept⟩
    if dnEdge.valid then
      let dnPoint := perpendicularToLine upEdge dnEdge midUp
      ⟨midUp, dnPoint, lengthOf midUp dnPoint, .downGap, true⟩
    else ⟨midUp, ⟨0, 0⟩, 0, .downGap, true⟩

/-- The body of both `locate_up_gap_lines` and `locate_down_gap_lines`. -/
def locateLines (type : GapLineType) (startEdge endEdge : FittedEdge R)
    (cleats : List (ClassifiedCleat R)) : List (GapLine R) :=
  if startEdge.valid = false ∨ endEdge.valid = false then []
  else cleats.map fun cc =>
    let upPoint : Point2D R :=
      ⟨cc.bottomMid.x, startEdge.slope * cc.bottomMid.x + startEdge.intercept⟩
    let dnPoint := perpendicularToLine startEdge endEdge upPoint
    ⟨upPoint, dnPoint, lengthOf upPoint dnPoint, type, true⟩

def locateUpGapLines (upShort dnLong : FittedEdge R) (upShortCleats : List (ClassifiedCleat R)) :
    List (GapLine R) :=
  locateLines .upGap upShort dnLong upShortCleats

def locateDownGapLines (upLong dnShort : FittedEdge R) (upLongCleats : List (ClassifiedCleat R)) :
    List (GapLine R) :=
  locateLines .downGap upLong dnShort upLongCleats

end GapLocalizer

/-- The first two fields are those of the disparity calculator. -/
structure GapDistance (R : Type) where
  baselineMm : R
  focalLengthPx : R
  depthReferenceMm : R
  offsetMm : R

/-- What the pipeline and `process` take from the image library and from the random device. -/
structure StereoVision (R : Type) where
  decodedRows : Bytes → Option ℕ
  disparity : Bytes → Bytes → Point2D R → R
  picksUpLong : ℕ → ℕ × ℕ
  picksUpShort : ℕ → ℕ × ℕ
  picksDnLong : ℕ → ℕ × ℕ
  picksDnShort : ℕ → ℕ × ℕ
  annotate : Bytes → GapFindings R → List (Detection R) → Bytes
  annotateAiOnly : Bytes → List (Detection R) → Bytes

namespace GapDistance
variable [StereoMath R]

def new : GapDistance R where
  baselineMm := 120.0
  focalLengthPx := 0
  depthReferenceMm := 0
  offsetMm := 0

def init (baselineMm focalLengthPx : R) (g : GapDistance R) : GapDistance R :=
  { g with baselineMm, focalLengthPx }

/-- Nothing calls it, nor the next one. -/
def setDepthReference (ref : R) (g : GapDistance R) : GapDistance R :=
  { g with depthReferenceMm := ref }

def setOffset (offset : R) (g : GapDistance R) : GapDistance R := { g with offsetMm := offset }

def calculateDistance (g : GapDistance R) (disparity : R) : R :=
  if disparity < 0.1 then 0
  else if g.focalLengthPx < 0.1 then 0
  else g.baselineMm * g.focalLengthPx / disparity

def fromDisparity (g : GapDistance R) (disparity : R) : R :=
  let dist := g.calculateDistance disparity
  if 0 < dist ∧ g.offsetMm ≠ 0 then dist + g.offsetMm else dist

def midpoint (line : GapLine R) : Point2D R :=
  ⟨(line.upPoint.x + line.dnPoint.x) / 2.0, (line.upPoint.y + line.dnPoint.y) / 2.0⟩

def calculate (v : StereoVision R) (left right : Bytes) (g : GapDistance R) (line : GapLine R) :
    R :=
  if line.valid = false then 0 else g.fromDisparity (v.disparity left right (midpoint line))

end GapDistance

structure SameGapConfig (R : Type) where
  enabled : Bool
  locationThreshold : R
  sizeThreshold : R

structure PostprocessConfig (R : Type) where
  minConfidence : R
  gapFilterMargin : R
  sameGapConfig : SameGapConfig R
  depthReferenceMm : R
  offsetMm : R
  edgeInlierThreshold : R

namespace GapPipeline
variable [StereoMath R]

def NearBorder (cfg : PostprocessConfig R) (height : ℕ) (line : GapLine R) : Prop :=
  (GapDistance.midpoint line).y < ofNat height * cfg.gapFilterMargin ∨
    ofNat height - ofNat height * cfg.gapFilterMargin < (GapDistance.midpoint line).y

instance (cfg : PostprocessConfig R) (height : ℕ) (line : GapLine R) :
    Decidable (NearBorder cfg height line) := inferInstanceAs (Decidable (_ ∨ _))

/-- The distance of a line; without both images there is none. -/
def measure (v : StereoVision R) (g : GapDistance R) (left right : Bytes) (line : GapLine R) : R :=
  if left = [] ∨ right = [] then 0 else g.calculate v left right line

def lineInfo (up : Bool) (line : GapLine R) (distance : R) : GapLineInfo R :=
  ⟨up, line.upPoint.x, line.upPoint.y, line.dnPoint.x, line.dnPoint.y, distance⟩

def lineVisit (height : ℕ) (distance : GapLine R → R) (cfg : PostprocessConfig R) (up : Bool)
    (found : List (GapLineInfo R) × R) (line : GapLine R) : List (GapLineInfo R) × R :=
  if line.valid = false ∨ NearBorder cfg height line then found
  else (found.1 ++ [lineInfo up line (distance line)],
    if found.2 < distance line then distance line else found.2)

/-- The four edges; a group without cleats has none. -/
def fitEdges (v : StereoVision R) (threshold : R) (c : CleatClassification R) : EdgeSet R :=
  let fit := fun picks points => EdgeFitter.hybridRansacFit picks points threshold
  { upLong := fit v.picksUpLong (EdgeFitter.extractClassifiedBottomPoints c.upLong),
    upShort := fit v.picksUpShort (EdgeFitter.extractClassifiedBottomPoints c.upShort),
    dnLong := fit v.picksDnLong (EdgeFitter.extractClassifiedTopPoints c.dnLong),
    dnShort := fit v.picksDnShort (EdgeFitter.extractClassifiedTopPoints c.dnShort) }

/-- The lines from edge to edge, and their largest distance. -/
def edgeLines (visit : Bool → List (GapLineInfo R) × R → GapLine R → List (GapLineInfo R) × R)
    (c : CleatClassification R) (e : EdgeSet R) : List (GapLineInfo R) × R :=
  let up := if e.upShort.valid ∧ e.dnLong.valid then
    GapLocalizer.locateUpGapLines e.upShort e.dnLong c.upShort else []
  let down := if e.upLong.valid ∧ e.dnShort.valid then
    GapLocalizer.locateDownGapLines e.upLong e.dnShort c.upLong else []
  down.foldl (visit false) (up.foldl (visit true) ([], 0))

/-- Where no edge leaves a line, single lines at the detected gaps stand in. -/
def gapLines (height : ℕ) (distance : GapLine R → R) (cfg : PostprocessConfig R)
    (c : CleatClassification R) (gaps : List (Detection R)) (e : EdgeSet R) :
    List (GapLineInfo R) × R :=
  let visit := lineVisit height distance cfg
  let found := edgeLines visit c e
  if found.1 = [] ∧ e.upLong.valid ∧ e.dnShort.valid then
    (gaps.map fun gap => GapLocalizer.locateGap e.upLong e.dnShort [gap]).foldl (visit false) found
  else found

def runGapPipeline (v : StereoVision R) (g : GapDistance R) (cfg : PostprocessConfig R)
    (extracted : ExtractedDetections R) (taskId : String) (left right : Bytes) (height : ℕ) :
    GapFindings R :=
  let upCleats := if taskId = "T2" ∧ extracted.upCleats = [] then extracted.riserCleats
    else extracted.upCleats
  if upCleats = [] ∨ extracted.dnCleats = [] then PostprocessModule.noGap
  else
    let classified := CleatClassifier.classify extracted.upCleats extracted.dnCleats
      extracted.riserCleats taskId
    let edges := fitEdges v cfg.edgeInlierThreshold classified
    let found := gapLines height (measure v g left right) cfg classified extracted.gaps edges
    { edges, gapLines := found.1, gapDistanceMm := found.2 }

def Kept (height : ℕ) (distance : GapLine R → R) (cfg : PostprocessConfig R)
    (info : GapLineInfo R) : Prop :=
  ∃ up line, line.valid = true ∧ ¬ NearBorder cfg height line ∧
    info = lineInfo up line (distance line)

section Kept
variable {height : ℕ} {distance : GapLine R → R} {cfg : PostprocessConfig R}

theorem lineVisit_kept (up : Bool) (found : List (GapLineInfo R) × R) (line : GapLine R)
    (h : ∀ info ∈ found.1, Kept height distance cfg info) :
    ∀ info ∈ (lineVisit height distance cfg up found line).1, Kept height distance cfg info := by
  unfold lineVisit
  split
  · exact h
  · rename_i hkeep
    intro info hinfo
    rcases List.mem_append.1 hinfo with hinfo | hinfo
    · exact h info hinfo
    · have hvalid : line.valid = true := Bool.of_not_eq_false fun hv => hkeep (.inl hv)
      exact ⟨up, line, hvalid, fun hnear => hkeep (.inr hnear), List.mem_singleton.1 hinfo⟩

theorem foldl_lineVisit_kept (up : Bool) (lines : List (GapLine R))
    (found : List (GapLineInfo R) × R) (h : ∀ info ∈ found.1, Kept height distance cfg info) :
    ∀ info ∈ (lines.foldl (lineVisit height distance cfg up) found).1,
      Kept height distance cfg info := by
  induction lines generalizing found with
  | nil => exact h
  | cons line lines ih => exact ih _ (lineVisit_kept up found line h)

theorem gapLines_kept (c : CleatClassification R) (gaps : List (Detection R)) (e : EdgeSet R) :
    ∀ info ∈ (gapLines height distance cfg c gaps e).1, Kept height distance cfg info := by
  have hnone : ∀ info ∈ (([], 0) : List (GapLineInfo R) × R).1, Kept height distance cfg info :=
    List.forall_mem_nil _
  have hedges : ∀ info ∈ (edgeLines (lineVisit height distance cfg) c e).1,
      Kept height distance cfg info := by
    apply foldl_lineVisit_kept
    exact foldl_lineVisit_kept true _ _ hnone
  unfold gapLines
  dsimp only
  split
  · exact foldl_lineVisit_kept false _ _ hedges
  · exact hedges

end Kept

theorem runGapPipeline_kept (v : StereoVision R) (g : GapDistance R) (cfg : PostprocessConfig R)
    (extracted : ExtractedDetections R) (taskId : String) (left right : Bytes) (height : ℕ) :
    ∀ info ∈ (runGapPipeline v g cfg extracted taskId left right height).gapLines,
      Kept height (measure v g left right) cfg info := by
  unfold runGapPipeline
  dsimp only
  generalize (if taskId = "T2" ∧ extracted.upCleats = [] then extracted.riserCleats
    else extracted.upCleats) = upCleats
  split
  · exact List.forall_mem_nil _
  · exact gapLines_kept _ _ _

theorem measure_congr {g g' : GapDistance R} (h : ∀ d, g.fromDisparity d = g'.fromDisparity d)
    (v : StereoVision R) (left right : Bytes) : measure v g left right = measure v g' left right := by
  funext line
  simp only [measure, GapDistance.calculate, h]

theorem runGapPipeline_congr {g g' : GapDistance R}
    (h : ∀ d, g.fromDisparity d = g'.fromDisparity d) (v : StereoVision R)
    (cfg : PostprocessConfig R) : runGapPipeline v g cfg = runGapPipeline v g' cfg := by
  funext extracted taskId left right height
  simp only [runGapPipeline, measure_congr h]

end GapPipeline

/-- Halves are rounded away from zero, as `std::round` does. -/
noncomputable instance : Double ℝ where
  ltDecidable := inferInstance
  sqrt := Real.sqrt
  round x := if 0 ≤ x then ⌊x + 1 / 2⌋ else -⌊-x + 1 / 2⌋
  truncate x := if 0 ≤ x then ⌊x⌋ else ⌈x⌉

noncomputable instance : StereoMath ℝ where
  leDecidable := inferInstance
  decEq := inferInstance
  pi := Real.pi
  atan := Real.arctan
  cos := Real.cos
  sin := Real.sin
  lt_irrefl := lt_irrefl

theorem abs_eq_abs (x : ℝ) : StereoMath.abs x = |x| := by
  unfold StereoMath.abs
  split
  · rename_i h
    rw [abs_of_neg h]
    exact zero_sub x
  · rename_i h
    exact (abs_of_nonneg (not_lt.1 h)).symm

theorem ofNat_eq_cast (n : ℕ) : (StereoMath.ofNat n : ℝ) = n := Int.cast_natCast n

end EcidsCore
