import EcidsCore.GapPipeline

set_option autoImplicit false

/-! What the gap pipeline leaves in a result: its largest distance, where its lines lie, and
which of them come from two edges only. -/
namespace EcidsCore

instance : StereoMath ℤ where
  leDecidable _ _ := inferInstance
  decEq := inferInstance
  pi := 3
  atan _ := 0
  cos _ := 0
  sin _ := 1
  lt_irrefl := Int.lt_irrefl

def offsetConfig : PostprocessConfig ℤ where
  minConfidence := 1
  gapFilterMargin := 0
  sameGapConfig := { enabled := false, locationThreshold := 30, sizeThreshold := 1 }
  depthReferenceMm := 0
  offsetMm := 5
  edgeInlierThreshold := 5

namespace GapPipeline
open StereoMath

variable {R : Type} [StereoMath R]

abbrev SidedLine (R : Type) := Bool × GapLine R

def fourEdgeLines (c : CleatClassification R) (e : EdgeSet R) : List (SidedLine R) :=
  (GapLocalizer.locateUpGapLines e.upShort e.dnLong c.upShort).map (true, ·) ++
    (GapLocalizer.locateDownGapLines e.upLong e.dnShort c.upLong).map (false, ·)

def fallbackLines (gaps : List (Detection R)) (e : EdgeSet R) : List (SidedLine R) :=
  gaps.map fun gap => (false, GapLocalizer.locateGap e.upLong e.dnShort [gap])

def Discarded (cfg : PostprocessConfig R) (height : ℕ) (line : GapLine R) : Prop :=
  line.valid = false ∨ NearBorder cfg height line

instance (cfg : PostprocessConfig R) (height : ℕ) (line : GapLine R) :
    Decidable (Discarded cfg height line) := inferInstanceAs (Decidable (_ ∨ _))

def keptLines (cfg : PostprocessConfig R) (height : ℕ) (lines : List (SidedLine R)) :
    List (SidedLine R) :=
  lines.filter fun l => ¬ Discarded cfg height l.2

def sidedInfo (distance : GapLine R → R) (l : SidedLine R) : GapLineInfo R :=
  lineInfo l.1 l.2 (distance l.2)

def keptInfos (height : ℕ) (distance : GapLine R → R) (cfg : PostprocessConfig R)
    (lines : List (SidedLine R)) : List (GapLineInfo R) :=
  (keptLines cfg height lines).map (sidedInfo distance)

def raise (best distance : R) : R := if best < distance then distance else best

def IsLargest (best : R) (values : List R) : Prop :=
  ¬ best < 0 ∧ (∀ d ∈ values, ¬ best < d) ∧ (best = 0 ∨ best ∈ values)

def midpointY (info : GapLineInfo R) : R := (info.upY + info.dnY) / 2.0

def margin (cfg : PostprocessConfig R) (height : ℕ) : R := ofNat height * cfg.gapFilterMargin

/-- The midpoint is not outside the band; where every two numbers compare, it lies in it. -/
def InBand (cfg : PostprocessConfig R) (height : ℕ) (info : GapLineInfo R) : Prop :=
  (¬ midpointY info < margin cfg height ∧
    ¬ ofNat height - margin cfg height < midpointY info) ∧
  ((∀ x y : R, ¬ x < y → y ≤ x) → margin cfg height ≤ midpointY info ∧
    midpointY info ≤ ofNat height - margin cfg height)

variable (height : ℕ) (distance : GapLine R → R) (cfg : PostprocessConfig R)

theorem foldl_lineVisit (lines : List (SidedLine R)) (found : List (GapLineInfo R) × R) :
    lines.foldl (fun f l => lineVisit height distance cfg l.1 f l.2) found =
      (found.1 ++ keptInfos height distance cfg lines,
        ((keptLines cfg height lines).map fun l => distance l.2).foldl raise found.2) := by
  induction lines generalizing found with
  | nil => simp [keptInfos, keptLines]
  | cons l lines ih =>
    rw [List.foldl_cons, ih]
    by_cases hd : Discarded cfg height l.2
    · have hvisit : lineVisit height distance cfg l.1 found l.2 = found := if_pos hd
      have hkept : keptLines cfg height (l :: lines) = keptLines cfg height lines :=
        List.filter_cons_of_neg (by simpa using hd)
      simp only [hvisit, keptInfos, hkept]
    · have hvisit : lineVisit height distance cfg l.1 found l.2 =
          (found.1 ++ [sidedInfo distance l], raise found.2 (distance l.2)) := if_neg hd
      have hkept : keptLines cfg height (l :: lines) = l :: keptLines cfg height lines :=
        List.filter_cons_of_pos (by simpa using hd)
      simp only [hvisit, keptInfos, hkept, List.map_cons, List.foldl_cons, List.append_assoc,
        List.singleton_append]

theorem edgeLines_eq (c : CleatClassification R) (e : EdgeSet R) :
    edgeLines (lineVisit height distance cfg) c e =
      (fourEdgeLines c e).foldl (fun f l => lineVisit height distance cfg l.1 f l.2) ([], 0) := by
  have hlocate (type : GapLineType) (a b : FittedEdge R) (cleats : List (ClassifiedCleat R)) :
      (if a.valid ∧ b.valid then GapLocalizer.locateLines type a b cleats else []) =
        GapLocalizer.locateLines type a b cleats := by
    split
    · rfl
    · rename_i hv
      have hinvalid : a.valid = false ∨ b.valid = false := by simpa [imp_iff_not_or] using hv
      rw [GapLocalizer.locateLines, if_pos hinvalid]
  simp only [edgeLines, fourEdgeLines, GapLocalizer.locateUpGapLines,
    GapLocalizer.locateDownGapLines, hlocate, List.foldl_append, List.foldl_map]

theorem gapLines_eq (c : CleatClassification R) (gaps : List (Detection R)) (e : EdgeSet R) :
    ∃ lines, gapLines height distance cfg c gaps e =
        (keptInfos height distance cfg lines,
          ((keptLines cfg height lines).map fun l => distance l.2).foldl raise 0) ∧
      (lines = fourEdgeLines c e ∨
        ((∀ l ∈ fourEdgeLines c e, Discarded cfg height l.2) ∧
          e.upLong.valid = true ∧ e.dnShort.valid = true ∧ lines = fallbackLines gaps e)) := by
  have hfour := edgeLines_eq height distance cfg c e
  rw [foldl_lineVisit, List.nil_append] at hfour
  unfold gapLines
  dsimp only
  rw [hfour]
  split
  · rename_i hnone
    obtain ⟨hempty, hup, hdn⟩ := hnone
    have hkept : keptLines cfg height (fourEdgeLines c e) = [] := by
      simpa [keptInfos] using hempty
    have hgone : ∀ l ∈ fourEdgeLines c e, Discarded cfg height l.2 := by
      intro l hl
      by_contra hd
      have hmem : l ∈ keptLines cfg height (fourEdgeLines c e) :=
        List.mem_filter.2 ⟨hl, by simpa using hd⟩
      rw [hkept] at hmem
      cases hmem
    refine ⟨fallbackLines gaps e, ?_, .inr ⟨hgone, hup, hdn, rfl⟩⟩
    have hfold := foldl_lineVisit height distance cfg (fallbackLines gaps e) ([], 0)
    rw [fallbackLines, List.foldl_map, List.nil_append] at hfold
    simp only [hkept, keptInfos, List.map_nil, List.foldl_nil, List.foldl_map] at hfold ⊢
    exact hfold
  · exact ⟨fourEdgeLines c e, rfl, .inl rfl⟩

variable {height distance cfg}

theorem raise_not_lt (htrans : ∀ x y z : R, x < y → y < z → x < z) {best d e : R}
    (h : ¬ best < e) : ¬ raise best d < e := by
  unfold raise
  split
  · rename_i hlt
    exact fun hde => h (htrans _ _ _ hlt hde)
  · exact h

theorem foldl_raise_not_lt (htrans : ∀ x y z : R, x < y → y < z → x < z) (values : List R)
    {best e : R} (h : ¬ best < e) : ¬ values.foldl raise best < e := by
  induction values generalizing best with
  | nil => exact h
  | cons d values ih => exact ih (raise_not_lt htrans h)

theorem foldl_raise_largest (htrans : ∀ x y z : R, x < y → y < z → x < z) (values : List R)
    (best : R) : (∀ d ∈ values, ¬ values.foldl raise best < d) ∧
      (values.foldl raise best = best ∨ values.foldl raise best ∈ values) := by
  induction values generalizing best with
  | nil => exact ⟨List.forall_mem_nil _, .inl rfl⟩
  | cons d values ih =>
    obtain ⟨hbelow, hmem⟩ := ih (raise best d)
    have hraised : ¬ raise best d < d := by
      unfold raise
      split
      · exact lt_irrefl d
      · assumption
    constructor
    · intro e he
      rcases List.mem_cons.1 he with rfl | he
      · exact foldl_raise_not_lt htrans values hraised
      · exact hbelow e he
    · rcases hmem with heq | hmem
      · rw [List.foldl_cons, heq]
        unfold raise
        split
        · exact .inr List.mem_cons_self
        · exact .inl rfl
      · exact .inr (List.mem_cons_of_mem d hmem)

theorem isLargest_foldl (htrans : ∀ x y z : R, x < y → y < z → x < z) (values : List R) :
    IsLargest (values.foldl raise 0) values :=
  have h := foldl_raise_largest htrans values 0
  ⟨foldl_raise_not_lt htrans values (lt_irrefl 0), h.1, h.2⟩

theorem keptInfos_inBand (lines : List (SidedLine R)) :
    ∀ info ∈ keptInfos height distance cfg lines, InBand cfg height info := by
  intro info hinfo
  obtain ⟨l, hl, rfl⟩ := List.mem_map.1 hinfo
  have hkept : ¬ Discarded cfg height l.2 := by simpa using (List.mem_filter.1 hl).2
  obtain ⟨hlow, hhigh⟩ := not_or.1 (not_or.1 hkept).2
  exact ⟨⟨hlow, hhigh⟩, fun htotal => ⟨htotal _ _ hlow, htotal _ _ hhigh⟩⟩

/-- Under `T2` there are no short upper and no long lower cleats to fit an edge to. -/
theorem fitEdges_T2 (v : StereoVision R) (threshold : R)
    (up dn riser : List (Detection R)) :
    (fitEdges v threshold (CleatClassifier.classify up dn riser "T2")).upShort.valid = false ∧
      (fitEdges v threshold (CleatClassifier.classify up dn riser "T2")).dnLong.valid = false :=
  ⟨rfl, rfl⟩

theorem fourEdgeLines_down (c : CleatClassification R) {e : EdgeSet R}
    (h : e.upShort.valid = false) : ∀ l ∈ fourEdgeLines c e, l.1 = false := by
  intro l hl
  rw [fourEdgeLines, GapLocalizer.locateUpGapLines, GapLocalizer.locateLines, if_pos (.inl h),
    List.map_nil, List.nil_append] at hl
  obtain ⟨line, -, rfl⟩ := List.mem_map.1 hl
  rfl

theorem fallbackLines_down (gaps : List (Detection R)) (e : EdgeSet R) :
    ∀ l ∈ fallbackLines gaps e, l.1 = false := by
  intro l hl
  obtain ⟨gap, -, rfl⟩ := List.mem_map.1 hl
  rfl

/-- The lines of a result are those between the four edges that the border filter keeps;
only where it keeps none of them are they lines of the two-edge fallback. -/
def FallbackLast (height : ℕ) (distance : GapLine R → R) (cfg : PostprocessConfig R)
    (c : CleatClassification R) (gaps : List (Detection R)) (r : GapFindings R) : Prop :=
  r.gapLines = keptInfos height distance cfg (fourEdgeLines c r.edges) ∨
    ((∀ l ∈ fourEdgeLines c r.edges, Discarded cfg height l.2) ∧
      r.gapLines = keptInfos height distance cfg (fallbackLines gaps r.edges))

/-- The properties of every result of the pipeline for a task. -/
structure SoundResult (height : ℕ) (distance : GapLine R → R) (cfg : PostprocessConfig R)
    (extracted : ExtractedDetections R) (taskId : String) (r : GapFindings R) : Prop where
  largest : IsLargest r.gapDistanceMm (r.gapLines.map GapLineInfo.gapDistanceMm)
  inBand : ∀ info ∈ r.gapLines, InBand cfg height info
  downOnly : taskId = "T2" → (∀ info ∈ r.gapLines, info.up = false) ∧
    r.edges.upShort.valid = false ∧ r.edges.dnLong.valid = false
  fallback : FallbackLast height distance cfg (CleatClassifier.classify extracted.upCleats
    extracted.dnCleats extracted.riserCleats taskId) extracted.gaps r

theorem soundResult_noGap (extracted : ExtractedDetections R) (taskId : String) :
    SoundResult height distance cfg extracted taskId PostprocessModule.noGap where
  largest := ⟨lt_irrefl 0, List.forall_mem_nil _, .inl rfl⟩
  inBand := List.forall_mem_nil _
  downOnly _ := ⟨List.forall_mem_nil _, rfl, rfl⟩
  fallback := .inl rfl

theorem soundResult_gapLines (htrans : ∀ x y z : R, x < y → y < z → x < z) (v : StereoVision R)
    (extracted : ExtractedDetections R) (taskId : String) (c : CleatClassification R)
    (hc : c = CleatClassifier.classify extracted.upCleats extracted.dnCleats
      extracted.riserCleats taskId) :
    SoundResult height distance cfg extracted taskId
      { edges := fitEdges v cfg.edgeInlierThreshold c,
        gapLines := (gapLines height distance cfg c extracted.gaps
          (fitEdges v cfg.edgeInlierThreshold c)).1,
        gapDistanceMm := (gapLines height distance cfg c extracted.gaps
          (fitEdges v cfg.edgeInlierThreshold c)).2 } := by
  obtain ⟨lines, heq, hlines⟩ := gapLines_eq height distance cfg c extracted.gaps
    (fitEdges v cfg.edgeInlierThreshold c)
  rw [heq]
  constructor
  · have hvalues : (keptInfos height distance cfg lines).map GapLineInfo.gapDistanceMm =
        (keptLines cfg height lines).map fun l => distance l.2 := by
      rw [keptInfos, List.map_map]
      rfl
    dsimp only
    rw [hvalues]
    exact isLargest_foldl htrans _
  · exact keptInfos_inBand lines
  · intro hT2
    subst hT2
    obtain ⟨hup, hdn⟩ := fitEdges_T2 v cfg.edgeInlierThreshold extracted.upCleats
      extracted.dnCleats extracted.riserCleats
    rw [← hc] at hup hdn
    refine ⟨?_, hup, hdn⟩
    intro info hinfo
    obtain ⟨l, hl, rfl⟩ := List.mem_map.1 hinfo
    have hmem : l ∈ lines := (List.mem_filter.1 hl).1
    change l.1 = false
    rcases hlines with rfl | ⟨-, -, -, rfl⟩
    · exact fourEdgeLines_down c hup l hmem
    · exact fallbackLines_down _ _ l hmem
  · rw [← hc]
    rcases hlines with rfl | ⟨hgone, -, -, rfl⟩
    · exact .inl rfl
    · exact .inr ⟨hgone, rfl⟩

def ReturnsEarly (extracted : ExtractedDetections R) (taskId : String) : Prop :=
  (if taskId = "T2" ∧ extracted.upCleats = [] then extracted.riserCleats
    else extracted.upCleats) = [] ∨ extracted.dnCleats = []

instance (extracted : ExtractedDetections R) (taskId : String) :
    Decidable (ReturnsEarly extracted taskId) := inferInstanceAs (Decidable (_ ∨ _))

/-- A result by the settings: none where the pipeline returns early, else edges fitted with the
threshold and the lines that the margin lets through. -/
structure Drawn (v : StereoVision R) (distance : GapLine R → R) (cfg : PostprocessConfig R)
    (extracted : ExtractedDetections R) (taskId : String) (height : ℕ) (r : GapFindings R) :
    Prop where
  absent : ReturnsEarly extracted taskId → r = PostprocessModule.noGap
  edges : ¬ ReturnsEarly extracted taskId → r.edges = fitEdges v cfg.edgeInlierThreshold
    (CleatClassifier.classify extracted.upCleats extracted.dnCleats extracted.riserCleats taskId)
  lines : ¬ ReturnsEarly extracted taskId → FallbackLast height distance cfg
    (CleatClassifier.classify extracted.upCleats extracted.dnCleats extracted.riserCleats taskId)
    extracted.gaps r

theorem runGapPipeline_drawn (v : StereoVision R) (g : GapDistance R) (cfg : PostprocessConfig R)
    (extracted : ExtractedDetections R) (taskId : String) (left right : Bytes) (height : ℕ) :
    Drawn v (measure v g left right) cfg extracted taskId height
      (runGapPipeline v g cfg extracted taskId left right height) := by
  by_cases hearly : ReturnsEarly extracted taskId
  · exact ⟨fun _ => if_pos hearly, fun h => absurd hearly h, fun h => absurd hearly h⟩
  · let c := CleatClassifier.classify extracted.upCleats extracted.dnCleats
      extracted.riserCleats taskId
    let e := fitEdges v cfg.edgeInlierThreshold c
    have hrun : runGapPipeline v g cfg extracted taskId left right height =
        { edges := e,
          gapLines := (gapLines height (measure v g left right) cfg c extracted.gaps e).1,
          gapDistanceMm := (gapLines height (measure v g left right) cfg c extracted.gaps e).2 } :=
      if_neg hearly
    obtain ⟨lines, heq, hlines⟩ := gapLines_eq height (measure v g left right) cfg c
      extracted.gaps e
    rw [hrun, heq]
    refine ⟨fun h => absurd h hearly, fun _ => rfl, fun _ => ?_⟩
    rcases hlines with rfl | ⟨hgone, -, -, rfl⟩
    · exact .inl rfl
    · exact .inr ⟨hgone, rfl⟩

/-- For every input of the pipeline, over numbers whose order is transitive. -/
theorem runGapPipeline_sound (htrans : ∀ x y z : R, x < y → y < z → x < z) (v : StereoVision R)
    (g : GapDistance R) (cfg : PostprocessConfig R) (extracted : ExtractedDetections R)
    (taskId : String) (left right : Bytes) (height : ℕ) :
    SoundResult height (measure v g left right) cfg extracted taskId
      (runGapPipeline v g cfg extracted taskId left right height) := by
  unfold runGapPipeline
  dsimp only
  generalize (if taskId = "T2" ∧ extracted.upCleats = [] then extracted.riserCleats
    else extracted.upCleats) = upCleats
  split
  · exact soundResult_noGap extracted taskId
  · exact soundResult_gapLines htrans v extracted taskId _ rfl

def evenVision : StereoVision ℤ where
  decodedRows _ := none
  disparity _ _ _ := 20
  picksUpLong k := (k, k + 1)
  picksUpShort k := (k, k + 1)
  picksDnLong k := (k, k + 1)
  picksDnShort k := (k, k + 1)
  annotate left _ _ := left
  annotateAiOnly left _ := left

def cleatAt (label : String) (corners : List (ℤ × ℤ)) : Detection ℤ :=
  { labelId := label, confidence := 1, fileName := "", coordinates := corners }

def twoRows : ExtractedDetections ℤ where
  taskConfidence := 1
  riserCleats := [cleatAt "riser_cleat" [(0, 500)], cleatAt "riser_cleat" [(10, 500)]]
  dnCleats := [cleatAt "dn_cleat" [(0, 520)], cleatAt "dn_cleat" [(10, 520)]]

theorem runGapPipeline_sound_two_rows :
    let g := GapDistance.new.init 120 1000
    let r := runGapPipeline evenVision g offsetConfig twoRows "T2" [1] [1] 1200
    r.gapLines = [⟨false, 0, 500, 0, 520, 6000⟩, ⟨false, 10, 500, 10, 520, 6000⟩] ∧
      SoundResult 1200 (measure evenVision g [1] [1]) offsetConfig twoRows "T2" r :=
  ⟨rfl, runGapPipeline_sound (fun _ _ _ => Int.lt_trans) _ _ _ _ _ _ _ _⟩

end GapPipeline

end EcidsCore
