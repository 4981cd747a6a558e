import EcidsCore.HistoryScan
import EcidsCore.LastWrite
import EcidsCore.SavedResults

set_option autoImplicit false

/-! The result files of a directory: what executing the requests in any order leaves of them,
and the step that the detail view makes of one. -/
namespace EcidsCore
open ByteText PathResolution PostprocessModule

variable {R : Type}

def Enters (name : Bytes) : Prop := ¬ Stays fullStop name ∧ ¬ Climbs fullStop name

theorem enters_of_head {name : Bytes} {c : UInt8} (h : name.head? = some c) (hc : c ≠ fullStop) :
    Enters name := by
  constructor
  · rintro (hn | hn) <;> rw [hn] at h
    · cases h
    · exact hc (Option.some.inj h).symm
  · intro hn
    rw [hn] at h
    exact hc (Option.some.inj h).symm

theorem isStereoFile_enters {name : Bytes} (h : isStereoFile name) : Enters name :=
  enters_of_head (stereo_initial h) (by decide)

section Place
variable {cwd : List Bytes} {dir name : Bytes}

theorem resolvedPath_below (hdir : dir ≠ []) (hslash : slash ∉ name) (henters : Enters name) :
    resolvedPath cwd (dir ++ slash :: name) = resolvedPath cwd dir ++ [name] := by
  have hname : components slash name = [name] := List.splitOn_eq_singleton hslash
  rw [resolvedPath, resolvedPath, List.head?_append_of_ne_nil dir hdir, components_append, hname]
  exact resolve_concat henters.1 henters.2 _ _

theorem resolvedPath_join (hdir : dir ≠ []) (hslash : slash ∉ name) (henters : Enters name) :
    resolvedPath cwd (joinPath dir name) = resolvedPath cwd dir ++ [name] := by
  rw [joinPath]
  split
  · rename_i hlast
    obtain ⟨front, rfl⟩ := List.getLast?_eq_some_iff.1 hlast
    rw [← resolvedPath_below hdir hslash henters]
    simp only [List.append_assoc, List.singleton_append]
    exact (resolvedPath_doubled cwd front name).symm
  · exact resolvedPath_below hdir hslash henters

theorem location_eq (cwd : List Bytes) {r : DBWriteRequest} (hslash : slash ∉ bytes (fileName r))
    (henters : Enters (bytes (fileName r))) :
    location cwd r = resolvedPath cwd (bytes (saveDir r)) ++ [bytes (fileName r)] := by
  have hdir : bytes (saveDir r) ≠ [] := by
    simp [saveDir, bytes_slash]
  have hpath : bytes (savePath r) = bytes (saveDir r) ++ slash :: bytes (fileName r) := by
    rw [savePath, bytes_append, bytes_append, bytes_slash, List.append_assoc]
    rfl
  rw [location, hpath, resolvedPath_below hdir hslash henters]

theorem location_stereo (cwd : List Bytes) {r : DBWriteRequest} (h : r.type = .stereoResult) :
    location cwd r = resolvedPath cwd (bytes (saveDir r)) ++ [bytes (fileName r)] :=
  location_eq cwd (stereo_fileName h).2 (isStereoFile_enters (stereo_fileName h).1)

theorem OtherFile.location_ne {r : DBWriteRequest} (h : OtherFile r) (hname : isStereoFile name)
    (place : List Bytes) : location cwd r ≠ place ++ [name] := by
  intro hplace
  have hlast : (location cwd r).getLast? = some (bytes (fileName r)) := location_getLast h.names
  rw [hplace, List.getLast?_concat] at hlast
  exact h.other (Option.some.inj hlast ▸ hname)

end Place

def storedIn (cwd : List Bytes) (done : List DBWriteRequest) (dir : Bytes) :
    List DBWriteRequest :=
  (LastWrite.current (location cwd) done).filter fun r =>
    r.type = .stereoResult ∧ resolvedPath cwd (bytes (saveDir r)) = resolvedPath cwd dir

/-- A directory is listed with its result files; it may hold other entries. -/
structure FileSystem.Lists (cwd : List Bytes) (disk : Files) (fs : FileSystem) (dir : Bytes) :
    Prop where
  nodup : (fs.readNames dir).Nodup
  single : ∀ name ∈ fs.readNames dir, slash ∉ name
  complete : ∀ name, isStereoFile name → slash ∉ name →
    (disk (resolvedPath cwd dir ++ [name])).isSome → name ∈ fs.readNames dir

/-- What was executed leaves nothing in a directory that has the name of a result, but
results of the task. -/
structure WrittenBy (requests : List DBWriteRequest) (cwd : List Bytes) (disk : Files)
    (done : List DBWriteRequest) (dir : Bytes) : Prop where
  before : ∀ name, isStereoFile name → disk (resolvedPath cwd dir ++ [name]) = none
  only : ∀ r ∈ done, ∀ name, isStereoFile name →
    location cwd r = resolvedPath cwd dir ++ [name] → r ∈ requests

section Disk
variable {requests done : List DBWriteRequest} {cwd : List Bytes} {disk : Files} {dir : Bytes}

def ResultsOrOther (requests : List DBWriteRequest) : Prop :=
  ∀ r ∈ requests, OtherFile r ∨ r.type = .stereoResult

theorem WrittenBy.stereo (hdone : WrittenBy requests cwd disk done dir)
    (hfiles : ResultsOrOther requests) {r : DBWriteRequest} {name : Bytes} (hr : r ∈ done)
    (hname : isStereoFile name) (hplace : location cwd r = resolvedPath cwd dir ++ [name]) :
    r.type = .stereoResult := by
  rcases hfiles r (hdone.only r hr name hname hplace) with hother | htype
  · exact absurd hplace (hother.location_ne hname _)
  · exact htype

theorem disk_result (hfiles : ResultsOrOther requests)
    (hdone : WrittenBy requests cwd disk done dir) {name : Bytes} (hname : isStereoFile name) :
    done.foldl (processRequest cwd) disk (resolvedPath cwd dir ++ [name]) =
      ((LastWrite.shelf (location cwd) done).lookup (resolvedPath cwd dir ++ [name])).map
        DBWriteRequest.textData := by
  refine LastWrite.read_foldl (fun fs : Files => fs (resolvedPath cwd dir ++ [name]))
    ?_ ?_ (hdone.before name hname)
  · intro r hr hplace fs
    rw [processRequest, hdone.stereo hfiles hr hname hplace, ← hplace]
    exact if_pos rfl
  · intro r _ hplace fs
    exact processRequest_other hplace fs

/-- The names of the directory give each stored result once. -/
theorem listed_perm (hfiles : ResultsOrOther requests)
    (hdone : WrittenBy requests cwd disk done dir) {fs : FileSystem}
    (hlists : fs.Lists cwd (done.foldl (processRequest cwd) disk) dir) :
    (((fs.readNames dir).filter fun name => isStereoFile name ∧ 5 < name.length).filterMap
      fun name =>
        (LastWrite.shelf (location cwd) done).lookup (resolvedPath cwd dir ++ [name])).Perm
      (storedIn cwd done dir) := by
  refine (List.perm_ext_iff_of_nodup ?_ ?_).2 ?_
  · refine (hlists.nodup.filter _).filterMap ?_
    intro name name' r hr hr'
    have hplace := (LastWrite.of_lookup hr).2
    rw [(LastWrite.of_lookup hr').2] at hplace
    have hsingle := List.append_cancel_left hplace
    exact (List.cons.inj hsingle).1.symm
  · exact (LastWrite.current_nodup done).filter _
  · intro r
    simp only [storedIn, List.mem_filterMap, List.mem_filter, decide_eq_true_eq]
    constructor
    · rintro ⟨name, ⟨hmem, hname, -⟩, hrow⟩
      obtain ⟨hr, hplace⟩ := LastWrite.of_lookup hrow
      have htype : r.type = .stereoResult := hdone.stereo hfiles hr hname hplace
      refine ⟨LastWrite.mem_current.2 (hplace ▸ hrow), htype, ?_⟩
      rw [location_stereo cwd htype] at hplace
      exact (List.append_inj' hplace rfl).1
    · rintro ⟨hcurrent, htype, hdir⟩
      have hrow := LastWrite.mem_current.1 hcurrent
      have hname := stereo_fileName htype
      have hplace : location cwd r = resolvedPath cwd dir ++ [bytes (fileName r)] := by
        rw [location_stereo cwd htype, hdir]
      rw [hplace] at hrow
      refine ⟨bytes (fileName r), ⟨?_, hname.1, ?_⟩, hrow⟩
      · refine hlists.complete _ hname.1 hname.2 ?_
        rw [disk_result hfiles hdone hname.1, hrow]
        rfl
      · obtain ⟨hstart, -⟩ := of_decide_eq_true hname.1
        rw [startsWith_eq hstart, List.length_append]
        have hseven : (bytes "Stereo_").length = 7 := by decide
        omega

def listedNames (cwd : List Bytes) (done : List DBWriteRequest) (dir : Bytes) : List Bytes :=
  ((done.filter fun r => r.type = .stereoResult ∧
    resolvedPath cwd (bytes (saveDir r)) = resolvedPath cwd dir).map fun r =>
      bytes (fileName r)).dedup

theorem lists_listedNames (hfiles : ResultsOrOther requests)
    (hdone : WrittenBy requests cwd disk done dir) {fs : FileSystem}
    (hnames : fs.readNames dir = listedNames cwd done dir) :
    fs.Lists cwd (done.foldl (processRequest cwd) disk) dir := by
  refine ⟨hnames ▸ List.nodup_dedup _, ?_, ?_⟩
  · intro name hname
    rw [hnames, listedNames, List.mem_dedup] at hname
    obtain ⟨r, hr, rfl⟩ := List.mem_map.1 hname
    exact (stereo_fileName (of_decide_eq_true (List.mem_filter.1 hr).2).1).2
  · intro name hstereo _ hsome
    rw [disk_result hfiles hdone hstereo, Option.isSome_map] at hsome
    obtain ⟨r, hrow⟩ := Option.isSome_iff_exists.1 hsome
    obtain ⟨hr, hplace⟩ := LastWrite.of_lookup hrow
    have htype : r.type = .stereoResult := hdone.stereo hfiles hr hstereo hplace
    rw [location_stereo cwd htype] at hplace
    obtain ⟨hdir, hname⟩ := List.append_inj' hplace rfl
    rw [hnames, listedNames, List.mem_dedup, ← (List.cons.inj hname).1]
    exact List.mem_map_of_mem (List.mem_filter.2 ⟨hr, decide_eq_true ⟨htype, hdir⟩⟩)

end Disk

section Step
variable [Double R] (lib : Nlohmann R)

structure HoldsResult (idx : ℕ) (r : InspectionResult R) (j : Json R) : Prop where
  object : j.isObject = true
  detections : j.member? "ai_detections" = some (.array (r.aiDetections.map labelJson))
  gap : j.member? "gap_distance_mm" = some (.number r.gap.gapDistanceMm)
  index : j.member? "pair_index" = some (.integer idx)
  timestamp : j.member? "timestamp" = some (.string r.timestamp)
  workingDistance : j.valueOr lib (Json.getDouble lib) "working_distance_mm" 0 =
    .ok r.workingDistanceMm

def stepFields (sub : String) (idx : ℕ) (r : InspectionResult R) : List (String × Json R) :=
  [("aiDetection", .string (if ∃ d ∈ r.aiDetections, d.Confident then "Defect" else "Normal")),
    ("gapDistance", .number (tenths r.gap.gapDistanceMm)), ("isFirstStep", .boolean (idx = 0)),
    ("pairIndex", .integer idx)] ++
  (if sub = "" then [] else [("phase", .string sub)]) ++
  [("timestamp", .string r.timestamp), ("workingDistance", .number (tenths r.workingDistanceMm))]

variable {lib} {vis : Vision R} {idx : ℕ} {r : InspectionResult R}

omit [Double R] in
theorem toInt32_small (h : idx < 2 ^ 31) : Json.toInt32 (idx : ℤ) = idx := by
  unfold Json.toInt32
  omega

theorem stepJson_holds {j : Json R} (hj : HoldsResult lib idx r j) (hidx : idx < 2 ^ 31)
    (sub : String) : stepJson lib sub j = .ok ((idx : ℤ), .object (stepFields sub idx r)) := by
  have hvalue {α : Type} {convert : Json R → Except Exc α} {key : String} {v : Json R} {x d : α}
      (hv : j.member? key = some v) (hx : convert v = .ok x) :
      j.valueOr lib convert key d = .ok x := by
    rw [Json.valueOr, if_pos hj.object, hv]
    exact hx
  have hindex (d : ℤ) : j.valueOr lib (Json.getInt Double.truncate lib) "pair_index" d =
      .ok (idx : ℤ) := hvalue hj.index (congrArg Except.ok (toInt32_small hidx))
  have hstamp : j.valueString lib "timestamp" "" = .ok r.timestamp := hvalue hj.timestamp rfl
  have hgap : j.valueOr lib (Json.getDouble lib) "gap_distance_mm" 0 = .ok r.gap.gapDistanceMm :=
    hvalue hj.gap rfl
  have hitems : (j.member? "ai_detections").bind Json.items? =
      some (r.aiDetections.map labelJson) := by
    rw [hj.detections]
    rfl
  have hfirst : decide ((idx : ℤ) = 0) = decide (idx = 0) :=
    decide_eq_decide.2 Int.natCast_eq_zero
  rw [stepJson, hindex, hindex, hstamp, hgap, hj.workingDistance, hitems]
  change (do
    let det ← aiDetection lib (r.aiDetections.map labelJson)
    _) = _
  rw [aiDetection_labels, stepFields, ← hfirst]
  rfl

theorem stereoJson_result (activeRecord : String) :
    HoldsResult lib idx r (stereoJson activeRecord idx r) := by
  have hwd : (stereoJson activeRecord idx r).member? "working_distance_mm" =
      some (.number r.workingDistanceMm) := by
    simp [stereoJson, Json.member?, List.find?_append, find?_edgeField, find?_unlessEmpty]
  refine ⟨rfl, rfl, ?_, ?_, ?_, ?_⟩
  · simp [stereoJson, Json.member?, List.find?_append, find?_edgeField]
  · simp [stereoJson, Json.member?, List.find?_append, find?_edgeField, find?_unlessEmpty]
  · simp [stereoJson, Json.member?, List.find?_append, find?_edgeField, find?_unlessEmpty]
  · have hobject : (stereoJson activeRecord idx r).isObject = true := rfl
    rw [Json.valueOr, if_pos hobject, hwd]
    rfl

theorem stereoJsonAiTest_result (h : r.workingDistanceMm = 0) :
    HoldsResult lib idx r (stereoJsonAiTest idx r) := by
  have hwd : (stereoJsonAiTest idx r).member? "working_distance_mm" = none := by
    simp [stereoJsonAiTest, Json.member?, List.find?_append, find?_edgeField]
  refine ⟨rfl, rfl, ?_, ?_, ?_, ?_⟩
  · simp [stereoJsonAiTest, Json.member?, List.find?_append, find?_edgeField]
  · simp [stereoJsonAiTest, Json.member?, List.find?_append, find?_edgeField]
  · simp [stereoJsonAiTest, Json.member?, List.find?_append, find?_edgeField]
  · have hobject : (stereoJsonAiTest idx r).isObject = true := rfl
    rw [Json.valueOr, if_pos hobject, hwd, h]

theorem savedDocument_result (x : SavedResult R) :
    HoldsResult lib x.args.pairIndex (x.result lib vis) (savedDocument lib vis x.ctx x.args) := by
  unfold savedDocument
  by_cases hmode : x.ctx.mode = .aiTest
  · have hwd : (x.result lib vis).workingDistanceMm = 0 := by
      rw [SavedResult.result, resultCallback, if_pos hmode]
      rfl
    rw [if_pos hmode]
    exact stereoJsonAiTest_result hwd
  · rw [if_neg hmode]
    exact stereoJson_result x.ctx.activeRecord

def SavedResult.step (lib : Nlohmann R) (vis : Vision R) (sub : String) (x : SavedResult R) :
    ℤ × Json R :=
  (x.args.pairIndex, .object (stepFields sub x.args.pairIndex (x.result lib vis)))

end Step

end EcidsCore
