import EcidsCore.ExceptRules
import EcidsCore.RecordHistory
import Mathlib.Data.List.Count

set_option autoImplicit false

/-! The detections of a saved result as the history requests count them, and as the extractor
classified them when the result was saved. -/
namespace EcidsCore
open ByteText ExceptRules PostprocessModule

variable {R : Type}

def Detection.Abnormal (d : Detection R) : Prop := d.labelId = "dust" ∨ d.labelId = "deformation"

instance (d : Detection R) : Decidable d.Abnormal := inferInstanceAs (Decidable (_ ∨ _))

section Extractor
variable [Double R] {minConfidence : R}

def DetectionExtractor.keeps (minConfidence : R) (d : Detection R) : Bool :=
  ¬ d.confidence < minConfidence ∧ d.Abnormal

theorem visit_abnormals (b : DetectionExtractor.Best R) (d : Detection R) :
    (DetectionExtractor.visit minConfidence b d).found.abnormals =
      b.found.abnormals ++ if DetectionExtractor.keeps minConfidence d then [d] else [] := by
  by_cases habnormal : d.Abnormal
  · have hlabel : ¬ (d.labelId = "T1" ∨ d.labelId = "T2" ∨ d.labelId = "gap_t1" ∨
        d.labelId = "gap_t2" ∨ d.labelId = "tread_cleat_up" ∨ d.labelId = "tread_cleat_dn" ∨
        d.labelId = "riser_cleat") := by
      rcases habnormal with h | h <;> rw [h] <;> decide
    simp only [not_or] at hlabel
    obtain ⟨h1, h2, h3, h4, h5, h6, h7⟩ := hlabel
    have hkeeps : DetectionExtractor.keeps minConfidence d =
        decide ¬ d.confidence < minConfidence := by
      simp only [DetectionExtractor.keeps, habnormal, and_true]
    have hlast : d.labelId = "dust" ∨ d.labelId = "deformation" := habnormal
    rw [hkeeps, DetectionExtractor.visit]
    simp only [h1, h2, h3, h4, h5, h6, h7, hlast, or_self, if_true, if_false]
    split <;> simp_all
  · have hkeeps : DetectionExtractor.keeps minConfidence d = false := by
      simp only [DetectionExtractor.keeps, habnormal, and_false, decide_false]
    have hlast : ¬ (d.labelId = "dust" ∨ d.labelId = "deformation") := habnormal
    rw [hkeeps, DetectionExtractor.visit]
    simp only [hlast, Bool.false_eq_true, if_false, List.append_nil]
    split_ifs <;> rfl

theorem foldl_visit_abnormals (minConfidence : R) (ds : List (Detection R))
    (b : DetectionExtractor.Best R) :
    (ds.foldl (DetectionExtractor.visit minConfidence) b).found.abnormals =
      b.found.abnormals ++ ds.filter (DetectionExtractor.keeps minConfidence) := by
  induction ds generalizing b with
  | nil => rw [List.foldl_nil, List.filter_nil, List.append_nil]
  | cons d ds ih =>
    rw [List.foldl_cons, ih, visit_abnormals, List.filter_cons, List.append_assoc]
    split <;> rfl

theorem extract_abnormals (ds : List (Detection R)) :
    (DetectionExtractor.extract ds minConfidence).abnormals =
      ds.filter (DetectionExtractor.keeps minConfidence) := by
  have hfold := foldl_visit_abnormals minConfidence ds
    ⟨0, 0, { taskConfidence := 0 }⟩
  rw [List.nil_append] at hfold
  rw [← hfold]
  dsimp only [DetectionExtractor.extract]
  split_ifs <;> rfl

end Extractor

section Readers
variable [Double R] (lib : Nlohmann R)

def labelJson (d : Detection R) : Json R :=
  .object [("confidence", .number d.confidence), ("label_id", .string d.labelId)]

/-- Enough confidence for both readers, whatever the label. -/
def Detection.Confident (d : Detection R) : Prop := ¬ d.confidence < 0.5

instance (d : Detection R) : Decidable d.Confident := inferInstanceAs (Decidable (¬ _))

theorem confident_labelJson (d : Detection R) :
    confident lib (labelJson d) = .ok (decide d.Confident) := rfl

theorem addDefects_labels (ds : List (Detection R)) (t : Tally R) :
    (addDefects lib (ds.map labelJson) t).defects = t.defects + ds.countP fun d => d.Confident := by
  induction ds generalizing t with
  | nil => rfl
  | cons d ds ih =>
    rw [List.map_cons, addDefects, confident_labelJson, List.countP_cons]
    dsimp only
    rw [ih]
    by_cases hd : d.Confident
    · simp only [hd, decide_true, if_true]
      omega
    · simp only [hd, decide_false, Bool.false_eq_true, if_false, Nat.add_zero]

theorem aiDetection_labels (ds : List (Detection R)) :
    aiDetection lib (ds.map labelJson) =
      .ok (if ∃ d ∈ ds, d.Confident then "Defect" else "Normal") := by
  induction ds with
  | nil => rfl
  | cons d ds ih =>
    rw [List.map_cons, aiDetection, confident_labelJson]
    by_cases hd : d.Confident
    · simp only [hd, decide_true, List.exists_mem_cons_iff, true_or, if_true]
      rfl
    · simp only [hd, decide_false, List.exists_mem_cons_iff, false_or]
      exact ih

structure HoldsDetections (ds : List (Detection R)) (j : Json R) : Prop where
  object : j.isObject = true
  detections : j.member? "ai_detections" = some (.array (ds.map labelJson))
  gap : ∃ g, j.member? "gap_distance_mm" = some (.number g)
  index : ∃ z, j.member? "pair_index" = some (.integer z)
  timestamp : ∃ s, j.member? "timestamp" = some (.string s)
  workingDistance : j.member? "working_distance_mm" = none ∨
    ∃ w, j.member? "working_distance_mm" = some (.number w)

omit [Double R] in
theorem find?_edgeField {key name : String} (h : name ≠ key) (e : FittedEdge R) :
    (edgeField name e).find? (fun f => f.1 = key) = none := by
  unfold edgeField
  split
  · exact List.find?_cons_of_neg (by simpa using h)
  · rfl

omit [Double R] in
theorem find?_unlessEmpty {key name : String} (h : name ≠ key) (p : Prop) [Decidable p]
    (v : Json R) : (if p then [] else [(name, v)]).find? (fun f => f.1 = key) = none := by
  split
  · rfl
  · exact List.find?_cons_of_neg (by simpa using h)

omit [Double R] in
theorem stereoJson_holds (activeRecord : String) (idx : ℕ) (r : InspectionResult R) :
    HoldsDetections r.aiDetections (stereoJson activeRecord idx r) := by
  refine ⟨rfl, rfl, ⟨r.gap.gapDistanceMm, ?_⟩, ⟨idx, ?_⟩, ⟨r.timestamp, ?_⟩,
    .inr ⟨r.workingDistanceMm, ?_⟩⟩ <;>
  simp [stereoJson, Json.member?, List.find?_append, find?_edgeField, find?_unlessEmpty]

omit [Double R] in
theorem stereoJsonAiTest_holds (idx : ℕ) (r : InspectionResult R) :
    HoldsDetections r.aiDetections (stereoJsonAiTest idx r) := by
  refine ⟨rfl, rfl, ⟨r.gap.gapDistanceMm, ?_⟩, ⟨idx, ?_⟩, ⟨r.timestamp, ?_⟩, .inl ?_⟩ <;>
  simp [stereoJsonAiTest, Json.member?, List.find?_append, find?_edgeField]

variable {lib} {ds : List (Detection R)} {j : Json R}

theorem tallyFile_defects {fs : FileSystem} {file text : Bytes} (hj : HoldsDetections ds j)
    (hread : fs.readFile file = some text) (hparse : lib.parseStream text = .ok j) (t : Tally R) :
    (tallyFile lib fs t file).defects = t.defects + ds.countP fun d => d.Confident := by
  obtain ⟨g, hg⟩ := hj.gap
  have hgap : j.valueOr lib (Json.getDouble lib) "gap_distance_mm" 0 = .ok g := by
    rw [Json.valueOr, if_pos hj.object, hg]
    rfl
  have hitems : (j.member? "ai_detections").bind Json.items? = some (ds.map labelJson) := by
    rw [hj.detections]
    rfl
  have hkept : (addGap g t).defects = t.defects := by
    unfold addGap
    split <;> rfl
  rw [tallyFile, hread, Option.map_some, hparse]
  dsimp only
  rw [hgap, hitems]
  dsimp only
  rw [addDefects_labels, hkept]

theorem stepJson_detection (sub : String) (hj : HoldsDetections ds j) :
    ∃ idx step, stepJson lib sub j = .ok (idx, step) ∧ step.member? "aiDetection" =
      some (.string (if ∃ d ∈ ds, d.Confident then "Defect" else "Normal")) := by
  obtain ⟨g, hg⟩ := hj.gap
  obtain ⟨z, hz⟩ := hj.index
  obtain ⟨s, hs⟩ := hj.timestamp
  have hvalue {α : Type} {convert : Json R → Except Exc α} {key : String} {v : Json R} {x d : α}
      (hv : j.member? key = some v) (hx : convert v = .ok x) :
      j.valueOr lib convert key d = .ok x := by
    rw [Json.valueOr, if_pos hj.object, hv]
    exact hx
  obtain ⟨w, hw⟩ : ∃ w, j.valueOr lib (Json.getDouble lib) "working_distance_mm" 0 = .ok w := by
    rcases hj.workingDistance with hnone | ⟨w, hw⟩
    · rw [Json.valueOr, if_pos hj.object, hnone]
      exact ⟨0, rfl⟩
    · exact ⟨w, hvalue hw rfl⟩
  have hitems : (j.member? "ai_detections").bind Json.items? = some (ds.map labelJson) := by
    rw [hj.detections]
    rfl
  have hstep : stepJson lib sub j = .ok (Json.toInt32 z, .object
      ([("aiDetection", .string (if ∃ d ∈ ds, d.Confident then "Defect" else "Normal")),
          ("gapDistance", .number (tenths g)), ("isFirstStep", .boolean (Json.toInt32 z = 0)),
          ("pairIndex", .integer (Json.toInt32 z))] ++
        (if sub = "" then [] else [("phase", .string sub)]) ++
        [("timestamp", .string s), ("workingDistance", .number (tenths w))])) := by
    have hindex (d : ℤ) : j.valueOr lib (Json.getInt Double.truncate lib) "pair_index" d =
        .ok (Json.toInt32 z) := hvalue hz rfl
    have hstamp : j.valueString lib "timestamp" "" = .ok s := hvalue hs rfl
    have hgap : j.valueOr lib (Json.getDouble lib) "gap_distance_mm" 0 = .ok g := hvalue hg rfl
    rw [stepJson, hindex, hindex, hstamp, hgap, hw, hitems]
    change (do
      let det ← aiDetection lib (ds.map labelJson)
      _) = _
    rw [aiDetection_labels]
    rfl
  exact ⟨_, _, hstep, rfl⟩

end Readers

section Saved
variable [Double R] {lib : Nlohmann R} {vis : Vision R} {ctx : ChainContext R} {a : CallbackArgs R}

def savedDocument (lib : Nlohmann R) (vis : Vision R) (ctx : ChainContext R) (a : CallbackArgs R) :
    Json R :=
  let result := (resultCallback lib vis ctx a).2.1
  if ctx.mode = .aiTest then stereoJsonAiTest a.pairIndex result
  else stereoJson ctx.activeRecord a.pairIndex result

omit [Double R] in
theorem imageCalls_type {path sub : String} {idx : ℕ} {images : List (String × Bytes)}
    {r : DBWriteRequest}
    (hr : r ∈ (imageCalls path sub idx images).filterMap EnqueueCall.request?) :
    r.type = .image := by
  obtain ⟨c, hc, hreq⟩ := List.mem_filterMap.1 hr
  obtain ⟨i, -, rfl⟩ := List.mem_map.1 hc
  cases hd : i.2 with
  | nil =>
    rw [hd] at hreq
    cases hreq
  | cons b bs =>
    rw [hd] at hreq
    cases hreq
    rfl

omit [Double R] in
theorem saveResult_stereo {activeRecord : String} {result : InspectionResult R}
    {m : PostprocessModule R} {r : DBWriteRequest}
    (hr : r ∈ (m.saveResult lib activeRecord a result).requests) (ht : r.type = .stereoResult) :
    r.textData = lib.dump (stereoJson activeRecord a.pairIndex result) := by
  dsimp only [saveResult] at hr
  split_ifs at hr
  · cases hr
  · rw [Writes.requests, List.filterMap_append] at hr
    rcases List.mem_append.1 hr with hr | hr
    · rcases List.mem_append.1 hr with hr | hr
      · simp only [List.filterMap_cons, List.filterMap_nil, EnqueueCall.request?, List.mem_cons,
          List.not_mem_nil, or_false] at hr
        rcases hr with rfl | rfl | rfl
        · rfl
        · cases ht
        · cases ht
      · rw [imageCalls_type hr] at ht
        cases ht
    · cases hr
  · rw [List.mem_singleton.1 hr]
    rfl

omit [Double R] in
theorem saveAiTest_stereo {activeRecord : String} {idx : ℕ} {result : InspectionResult R}
    {m : PostprocessModule R} {r : DBWriteRequest}
    (hr : r ∈ (m.saveAiTest lib activeRecord idx result).requests) (ht : r.type = .stereoResult) :
    r.textData = lib.dump (stereoJsonAiTest idx result) := by
  dsimp only [saveAiTest] at hr
  split_ifs at hr
  · cases hr
  · rw [Writes.requests, List.filterMap_cons_some (by rfl)] at hr
    rcases List.mem_append.1 hr with hr | hr
    · rcases List.mem_cons.1 hr with rfl | hr
      · rfl
      · rw [imageCalls_type hr] at ht
        cases ht
    · cases hr
  · rw [List.mem_singleton.1 hr]
    rfl

theorem savedDocument_text {r : DBWriteRequest}
    (hr : r ∈ (resultCallback lib vis ctx a).2.2.requests) (ht : r.type = .stereoResult) :
    r.textData = lib.dump (savedDocument lib vis ctx a) := by
  unfold savedDocument
  unfold resultCallback at hr ⊢
  by_cases hmode : ctx.mode = .aiTest
  · rw [if_pos hmode] at hr
    simp only [if_pos hmode]
    exact saveAiTest_stereo hr ht
  · rw [if_neg hmode] at hr
    simp only [if_neg hmode]
    cases hs : (ctx.post.skipsGap a.response a.subTask).1 with
    | true =>
      rw [process_skipped hs] at hr
      cases hr
    | false =>
      simp only [process, hs, Bool.false_eq_true, if_false] at hr ⊢
      exact saveResult_stereo hr ht

theorem savedDocument_holds :
    HoldsDetections a.response.results (savedDocument lib vis ctx a) := by
  have hresults : (resultCallback lib vis ctx a).2.1.aiDetections = a.response.results := by
    unfold resultCallback
    split
    · rfl
    · dsimp only [process]
      split <;> rfl
  unfold savedDocument
  rw [← hresults]
  split
  · exact stereoJsonAiTest_holds a.pairIndex _
  · exact stereoJson_holds ctx.activeRecord a.pairIndex _

/-- The history views of a saved file agree with the extractor on what is abnormal. -/
structure ViewsAgree (lib : Nlohmann R) (fs : FileSystem) (file : Bytes)
    (abnormals : List (Detection R)) : Prop where
  defects : ∀ t, (tallyFile lib fs t file).defects = t.defects + abnormals.length
  detection : ∀ sub, ∃ idx step, fileStep lib fs sub file = some (idx, step) ∧
    (step.member? "aiDetection" = some (.string "Normal") ↔ abnormals = [])

theorem aiDetection_normal_iff (ds : List (Detection R)) :
    some (Json.string (R := R) (if ∃ d ∈ ds, d.Confident then "Defect" else "Normal")) =
        some (.string "Normal") ↔ (ds.filter fun d => d.Confident) = [] := by
  rw [List.filter_eq_nil_iff]
  by_cases hany : ∃ d ∈ ds, d.Confident
  · obtain ⟨d, hd, hconfident⟩ := hany
    rw [if_pos ⟨d, hd, hconfident⟩]
    constructor
    · intro h
      simp at h
    · intro h
      exact absurd (decide_eq_true hconfident) (h d hd)
  · rw [if_neg hany]
    constructor
    · intro _ d hd hconfident
      exact hany ⟨d, hd, of_decide_eq_true hconfident⟩
    · intro _
      rfl

theorem keeps_eq_confident {d : Detection R} (h : d.Confident → d.Abnormal) :
    DetectionExtractor.keeps 0.5 d = decide d.Confident := by
  apply decide_eq_decide.2
  constructor
  · exact And.left
  · intro hconfident
    exact ⟨hconfident, h hconfident⟩

theorem keeps_of_length_eq {ds : List (Detection R)}
    (h : ds.countP (fun d => d.Confident) = (ds.filter (DetectionExtractor.keeps 0.5)).length) :
    ∀ d ∈ ds, d.Confident → d.Abnormal := by
  rw [← List.countP_eq_length_filter] at h
  induction ds with
  | nil => nofun
  | cons d ds ih =>
    have hle : ds.countP (DetectionExtractor.keeps 0.5) ≤ ds.countP fun d => d.Confident :=
      List.countP_mono_left fun d _ hd => decide_eq_true (of_decide_eq_true hd).1
    have hkeeps : DetectionExtractor.keeps 0.5 d = decide (d.Confident ∧ d.Abnormal) := rfl
    rw [List.countP_cons, List.countP_cons, hkeeps] at h
    by_cases hd : d.Confident ∧ ¬ d.Abnormal
    · simp only [hd.1, hd.2, and_false, decide_true, decide_false, if_true] at h
      simp only [Bool.false_eq_true, if_false] at h
      omega
    · have hd' : d.Confident → d.Abnormal := fun hc => by_contra fun hn => hd ⟨hc, hn⟩
      have hsame : decide (d.Confident ∧ d.Abnormal) = decide d.Confident :=
        decide_eq_decide.2 ⟨And.left, fun hc => ⟨hc, hd' hc⟩⟩
      rw [hsame] at h
      rintro e (_ | ⟨_, he⟩)
      · exact hd'
      · exact ih (Nat.add_right_cancel h) e he

/-- A saved response looks the same in the history exactly if every detection with enough
confidence has one of the two labels of an abnormality. -/
theorem views_agree_iff {fs : FileSystem} {file : Bytes} {r : DBWriteRequest}
    (hmin : ctx.post.minConfidence = 0.5) (hr : r ∈ (resultCallback lib vis ctx a).2.2.requests)
    (ht : r.type = .stereoResult) (hread : fs.readFile file = some r.textData)
    (hparse : lib.parseStream (lib.dump (savedDocument lib vis ctx a)) =
      .ok (savedDocument lib vis ctx a)) :
    ViewsAgree lib fs file
        (DetectionExtractor.extract a.response.results ctx.post.minConfidence).abnormals ↔
      ∀ d ∈ a.response.results, d.Confident → d.Abnormal := by
  have hdoc : HoldsDetections a.response.results (savedDocument lib vis ctx a) :=
    savedDocument_holds
  rw [savedDocument_text hr ht] at hread
  rw [extract_abnormals, hmin]
  constructor
  · intro hviews d hd hconfident
    have hcount := hviews.defects { gapSum := 0 }
    rw [tallyFile_defects hdoc hread hparse] at hcount
    exact keeps_of_length_eq (Nat.add_left_cancel hcount) d hd hconfident
  · intro hall
    have hkept : a.response.results.filter (DetectionExtractor.keeps 0.5) =
        a.response.results.filter fun d => d.Confident :=
      List.filter_congr fun d hd => keeps_eq_confident (hall d hd)
    rw [hkept]
    constructor
    · intro t
      rw [tallyFile_defects hdoc hread hparse, List.countP_eq_length_filter]
    · intro sub
      obtain ⟨idx, step, hstep, hdetection⟩ := stepJson_detection sub hdoc
      refine ⟨idx, step, ?_, ?_⟩
      · rw [fileStep, hread, Option.map_some, hparse]
        dsimp only
        rw [hstep]
        rfl
      · rw [hdetection]
        exact aiDetection_normal_iff a.response.results

end Saved

def viewedContext : ChainContext ℚ where
  mode := .inspection
  activeRecord := "database/r"
  stationId := "S"
  escalatorId := "E"
  post := { minConfidence := 0.5, sameGap := SameGapChecker.default }

def viewedArgs (label : String) : CallbackArgs ℚ where
  transactionId := "t"
  response :=
    { transactionId := "t", dealerId := "d",
      results :=
        [{ labelId := label, confidence := 1, fileName := "L_004.jpg", coordinates := [] }] }
  left := {}
  right := {}
  pairIndex := 4
  subTask := .marking
  workingDistanceMm := 0

def savedLib (doc : Json ℚ) : Nlohmann ℚ :=
  { plainLib toString with
    parseStream := fun b =>
      if b = bytes (plainDump toString doc) then .ok doc else (plainLib toString).parseStream b }

def viewedDocument (label : String) : Json ℚ :=
  savedDocument (plainLib toString) noVision viewedContext (viewedArgs label)

def viewedText (label : String) : Bytes :=
  (savedLib (viewedDocument label)).dump (viewedDocument label)

def viewedDisk (label : String) : FileSystem :=
  { emptyDisk with readFile := fun _ => some (viewedText label) }

theorem parse_viewed (label : String) :
    (savedLib (viewedDocument label)).parseStream (viewedText label) = .ok (viewedDocument label) :=
  if_pos rfl

theorem viewed_saved (label : String) :
    stereoRequest "database/r" "inspection" 4 (viewedText label) ∈
      (resultCallback (savedLib (viewedDocument label)) noVision viewedContext
        (viewedArgs label)).2.2.requests :=
  stereoRequest_mem_saveResult (savedLib (viewedDocument label)) (viewedArgs label)
    (resultCallback (plainLib toString) noVision viewedContext (viewedArgs label)).2.1
    (m := viewedContext.post) rfl (by decide)

theorem views_agree_iff_dust :
    ViewsAgree (savedLib (viewedDocument "dust")) (viewedDisk "dust") []
        (DetectionExtractor.extract (viewedArgs "dust").response.results (0.5 : ℚ)).abnormals := by
  have hread : (viewedDisk "dust").readFile [] = some (viewedText "dust") := rfl
  have habnormal : ∀ d ∈ (viewedArgs "dust").response.results, d.Confident → d.Abnormal := by
    rintro d hd -
    rw [List.mem_singleton.1 hd]
    exact .inl rfl
  exact (views_agree_iff rfl (viewed_saved "dust") rfl hread (parse_viewed "dust")).2 habnormal

/-- The label of a task counts as a defect, though it is no abnormality. -/
theorem task_label_counterexample :
    stereoRequest "database/r" "inspection" 4 (viewedText "T1") ∈
        (resultCallback (savedLib (viewedDocument "T1")) noVision viewedContext
          (viewedArgs "T1")).2.2.requests ∧
      (DetectionExtractor.extract (viewedArgs "T1").response.results (0.5 : ℚ)).abnormals = [] ∧
      (tallyFile (savedLib (viewedDocument "T1")) (viewedDisk "T1") { gapSum := 0 } []).defects =
        1 ∧
      ¬ ViewsAgree (savedLib (viewedDocument "T1")) (viewedDisk "T1") [] [] := by
  have hdoc : HoldsDetections (viewedArgs "T1").response.results (viewedDocument "T1") :=
    savedDocument_holds
  have hread : (viewedDisk "T1").readFile [] = some (viewedText "T1") := rfl
  have hone : (viewedArgs "T1").response.results.countP (fun d => d.Confident) = 1 := by
    decide +kernel
  have hcount := tallyFile_defects hdoc hread (parse_viewed "T1") { gapSum := 0 }
  rw [hone] at hcount
  refine ⟨viewed_saved "T1", ?_, hcount, ?_⟩
  · rw [extract_abnormals]
    decide +kernel
  · intro h
    have hsame := h.defects { gapSum := 0 }
    rw [hcount] at hsame
    cases hsame

end EcidsCore
