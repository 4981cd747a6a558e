import EcidsCore.PostprocessSettings

set_option autoImplicit false

/-! What is taken from the detections of a response, and the task that they speak for. -/
namespace EcidsCore

variable {R : Type} [StereoMath R]

namespace DetectionExtractor

structure BestTasks (R : Type) where
  t1 : R
  t2 : R

def weigh (minConfidence : R) (b : BestTasks R) (det : Detection R) : BestTasks R :=
  if det.confidence < minConfidence then b
  else
    let b := if det.labelId = "T1" ∧ b.t1 < det.confidence then
      { b with t1 := det.confidence } else b
    if det.labelId = "T2" ∧ b.t2 < det.confidence then { b with t2 := det.confidence } else b

/-- Nothing calls it. -/
def determineTask (detections : List (Detection R)) (minConfidence : R) : String :=
  let b := detections.foldl (weigh minConfidence) ⟨0, 0⟩
  if b.t1 = 0 ∧ b.t2 = 0 then "" else if b.t1 < b.t2 then "T2" else "T1"

/-- The detections at or above the threshold with one of the labels; what cannot be compared
with the threshold is not below it. -/
def admitted (minConfidence : R) (labels : List String) (ds : List (Detection R)) :
    List (Detection R) :=
  ds.filter fun det => ¬ det.confidence < minConfidence ∧ det.labelId ∈ labels

def gapLabels : List String := ["gap_t1", "gap_t2"]

def abnormalLabels : List String := ["dust", "deformation"]

def listedLabels : List String :=
  gapLabels ++ ["tread_cleat_up"] ++ ["tread_cleat_dn"] ++ ["riser_cleat"] ++ abnormalLabels

def best (minConfidence : R) (label : String) (ds : List (Detection R)) : R :=
  (admitted minConfidence [label] ds).foldl
    (fun b det => if b < det.confidence then det.confidence else b) 0

variable {minConfidence : R}

theorem admitted_append (labels : List String) (ds : List (Detection R)) (det : Detection R) :
    admitted minConfidence labels (ds ++ [det]) = admitted minConfidence labels ds ++
      if ¬ det.confidence < minConfidence ∧ det.labelId ∈ labels then [det] else [] := by
  rw [admitted, List.filter_append, List.filter_singleton, ← admitted, Bool.cond_decide]

theorem best_append (label : String) (ds : List (Detection R)) (det : Detection R) :
    best minConfidence label (ds ++ [det]) =
      if (¬ det.confidence < minConfidence ∧ det.labelId = label) ∧
        best minConfidence label ds < det.confidence then det.confidence
      else best minConfidence label ds := by
  rw [best, admitted_append, List.foldl_append]
  by_cases h : ¬ det.confidence < minConfidence ∧ det.labelId = label
  · simp [h, best]
  · simp only [List.mem_singleton, List.foldl_nil, h, false_and, if_false, best]

structure Scanned (minConfidence : R) (ds : List (Detection R)) (b : Best R) : Prop where
  t1 : b.t1 = best minConfidence "T1" ds
  t2 : b.t2 = best minConfidence "T2" ds
  gaps : b.found.gaps = admitted minConfidence gapLabels ds
  upCleats : b.found.upCleats = admitted minConfidence ["tread_cleat_up"] ds
  dnCleats : b.found.dnCleats = admitted minConfidence ["tread_cleat_dn"] ds
  riserCleats : b.found.riserCleats = admitted minConfidence ["riser_cleat"] ds
  abnormals : b.found.abnormals = admitted minConfidence abnormalLabels ds
  task : b.found.taskId = "" ∧ b.found.taskConfidence = 0

theorem scanned_visit {ds : List (Detection R)} {b : Best R} (h : Scanned minConfidence ds b)
    (det : Detection R) : Scanned minConfidence (ds ++ [det]) (visit minConfidence b det) := by
  obtain ⟨h1, h2, hgaps, hup, hdn, hriser, habnormals, htask⟩ := h
  have hbest (label : String) : best minConfidence label (ds ++ [det]) = _ :=
    best_append label ds det
  have hlist (labels : List String) : admitted minConfidence labels (ds ++ [det]) = _ :=
    admitted_append labels ds det
  rw [visit]
  split_ifs with hlow hT1 hmore hT2 hmore hgap hup' hdn' hriser' habnormal
  -- each label belongs to one branch, so that it decides all the other fields
  · constructor <;> simp_all
  · constructor <;> simp_all [gapLabels, abnormalLabels]
  · constructor <;> simp_all [gapLabels, abnormalLabels]
  · constructor <;> simp_all [gapLabels, abnormalLabels]
  · constructor <;> simp_all [gapLabels, abnormalLabels]
  · rcases hgap with hgap | hgap <;> constructor <;> simp_all [gapLabels, abnormalLabels]
  · constructor <;> simp_all [gapLabels, abnormalLabels]
  · constructor <;> simp_all [gapLabels, abnormalLabels]
  · constructor <;> simp_all [gapLabels, abnormalLabels]
  · rcases habnormal with habnormal | habnormal <;> constructor <;>
      simp_all [gapLabels, abnormalLabels]
  · constructor <;> simp_all [gapLabels, abnormalLabels]

theorem scanned_foldl (minConfidence : R) (ds : List (Detection R)) :
    Scanned minConfidence ds
      (ds.foldl (visit minConfidence) ⟨0, 0, { taskConfidence := 0 }⟩) := by
  induction ds using List.reverseRecOn with
  | nil => exact ⟨rfl, rfl, rfl, rfl, rfl, rfl, rfl, rfl, rfl⟩
  | append_singleton ds det ih =>
    rw [List.foldl_append]
    exact scanned_visit ih det

theorem weigh_foldl (minConfidence : R) (ds : List (Detection R)) :
    ds.foldl (weigh minConfidence) ⟨0, 0⟩ =
      ⟨best minConfidence "T1" ds, best minConfidence "T2" ds⟩ := by
  induction ds using List.reverseRecOn with
  | nil => rfl
  | append_singleton ds det ih =>
    rw [List.foldl_append, List.foldl_cons, List.foldl_nil, ih, best_append, best_append, weigh]
    by_cases hlow : det.confidence < minConfidence
    · simp only [hlow, if_true, not_true, false_and, if_false]
    · simp only [hlow, if_false, not_false_eq_true, true_and]
      split_ifs <;> rfl

variable (htrans : ∀ x y z : R, x < y → y < z → x < z)
include htrans

theorem best_cases (label : String) (ds : List (Detection R)) :
    best minConfidence label ds = 0 ∨ 0 < best minConfidence label ds ∧
      ∃ det ∈ admitted minConfidence [label] ds,
        det.confidence = best minConfidence label ds := by
  induction ds using List.reverseRecOn with
  | nil => exact .inl rfl
  | append_singleton ds det ih =>
    rw [best_append, admitted_append]
    by_cases hnew : (¬ det.confidence < minConfidence ∧ det.labelId = label) ∧
        best minConfidence label ds < det.confidence
    · rw [if_pos hnew]
      refine .inr ⟨?_, det, by simp [hnew.1], rfl⟩
      rcases ih with hzero | ⟨hpos, -⟩
      · exact hzero ▸ hnew.2
      · exact htrans _ _ _ hpos hnew.2
    · rw [if_neg hnew]
      refine ih.imp_right fun ⟨hpos, other, hother, heq⟩ => ⟨hpos, other, ?_, heq⟩
      exact List.mem_append_left _ hother

theorem best_bound (label : String) (ds : List (Detection R)) :
    ∀ det ∈ admitted minConfidence [label] ds,
      ¬ best minConfidence label ds < det.confidence := by
  induction ds using List.reverseRecOn with
  | nil => intro det hdet; cases hdet
  | append_singleton ds det ih =>
    intro other hother hlt
    rw [best_append] at hlt
    rw [admitted_append, List.mem_append] at hother
    by_cases hnew : (¬ det.confidence < minConfidence ∧ det.labelId = label) ∧
        best minConfidence label ds < det.confidence
    · rw [if_pos hnew] at hlt
      rw [if_pos (by simpa using hnew.1), List.mem_singleton] at hother
      rcases hother with hother | rfl
      · exact ih other hother (htrans _ _ _ hnew.2 hlt)
      · exact StereoMath.lt_irrefl _ hlt
    · rw [if_neg hnew] at hlt
      rcases hother with hother | hother
      · exact ih other hother hlt
      · by_cases hlast : ¬ det.confidence < minConfidence ∧ det.labelId = label
        · rw [if_pos (by simpa using hlast), List.mem_singleton] at hother
          exact hnew ⟨hlast, hother ▸ hlt⟩
        · rw [if_neg (by simpa using hlast)] at hother
          cases hother

theorem best_pos_iff (label : String) (ds : List (Detection R)) :
    0 < best minConfidence label ds ↔ best minConfidence label ds ≠ 0 := by
  constructor
  · intro hpos hzero
    rw [hzero] at hpos
    exact StereoMath.lt_irrefl _ hpos
  · exact fun hne => ((best_cases htrans label ds).resolve_left hne).1

def Greatest (minConfidence : R) (label : String) (ds : List (Detection R)) (c : R) : Prop :=
  (∃ det ∈ admitted minConfidence [label] ds, det.confidence = c) ∧
    ∀ det ∈ admitted minConfidence [label] ds, ¬ c < det.confidence

theorem greatest_best {label : String} {ds : List (Detection R)}
    (h : best minConfidence label ds ≠ 0) :
    Greatest minConfidence label ds (best minConfidence label ds) :=
  ⟨((best_cases htrans label ds).resolve_left h).2, best_bound htrans label ds⟩

theorem extract_task (ds : List (Detection R)) :
    let e := extract ds minConfidence
    e.taskId = determineTask ds minConfidence ∧
      (e.taskId = "" → e.taskConfidence = 0) ∧
      (e.taskId ≠ "" → Greatest minConfidence e.taskId ds e.taskConfidence) := by
  have hscan := scanned_foldl minConfidence ds
  dsimp only
  rw [determineTask, weigh_foldl, extract]
  dsimp only
  rw [hscan.t1, hscan.t2]
  have hsome : (0 < best minConfidence "T1" ds ∨ 0 < best minConfidence "T2" ds) ↔
      ¬ (best minConfidence "T1" ds = 0 ∧ best minConfidence "T2" ds = 0) := by
    rw [best_pos_iff htrans, best_pos_iff htrans, not_and_or]
  by_cases hnone : best minConfidence "T1" ds = 0 ∧ best minConfidence "T2" ds = 0
  · rw [if_neg fun h => hsome.1 h hnone, if_pos hnone]
    exact ⟨hscan.task.1, fun _ => hscan.task.2, fun h => absurd hscan.task.1 h⟩
  · rw [if_pos (hsome.2 hnone), if_neg hnone]
    by_cases hless : best minConfidence "T1" ds < best minConfidence "T2" ds
    · have hT2 : best minConfidence "T2" ds ≠ 0 := by
        intro hzero
        rw [hzero] at hless
        rcases best_cases htrans "T1" ds with h | ⟨h, -⟩
        · exact StereoMath.lt_irrefl _ (h ▸ hless)
        · exact StereoMath.lt_irrefl _ (htrans _ _ _ h hless)
      have hname : "T2" ≠ "" := by decide
      rw [if_pos hless, if_pos hless]
      exact ⟨rfl, fun h => absurd h hname, fun _ => greatest_best htrans hT2⟩
    · have hT1 : best minConfidence "T1" ds ≠ 0 := by
        intro hzero
        have hT2 := (best_pos_iff htrans "T2" ds).2 fun h => hnone ⟨hzero, h⟩
        exact hless (hzero ▸ hT2)
      have hname : "T1" ≠ "" := by decide
      rw [if_neg hless, if_neg hless]
      exact ⟨rfl, fun h => absurd h hname, fun _ => greatest_best htrans hT1⟩

omit [StereoMath R] htrans in
theorem filter_or_perm {α : Type} {p q : α → Bool} (l : List α)
    (h : ∀ x ∈ l, p x = true → q x = false) :
    (l.filter p ++ l.filter q).Perm (l.filter fun x => p x || q x) := by
  have hleft : (l.filter fun x => p x || q x).filter p = l.filter p := by
    rw [List.filter_filter]
    exact List.filter_congr fun x _ => by cases p x <;> simp
  have hright : (l.filter fun x => p x || q x).filter (fun x => !p x) = l.filter q := by
    rw [List.filter_filter]
    refine List.filter_congr fun x hx => ?_
    cases hp : p x with
    | false => simp
    | true => simp [h x hx hp]
  have hparts := List.filter_append_perm p (l.filter fun x => p x || q x)
  rwa [hleft, hright] at hparts

omit htrans in
theorem admitted_perm (labels others : List String) (h : ∀ l ∈ labels, l ∉ others)
    (ds : List (Detection R)) :
    (admitted minConfidence labels ds ++ admitted minConfidence others ds).Perm
      (admitted minConfidence (labels ++ others) ds) := by
  refine (filter_or_perm ds fun det _ hdet => ?_).trans (List.Perm.of_eq ?_)
  · have hlabel := (of_decide_eq_true hdet).2
    simp [h _ hlabel]
  · refine List.filter_congr fun det _ => ?_
    simp only [List.mem_append, and_or_left, Bool.decide_or]

theorem extract_spec (detections : List (Detection R)) (minConfidence : R) :
    let e := extract detections minConfidence
    (e.gaps = admitted minConfidence gapLabels detections ∧
      e.upCleats = admitted minConfidence ["tread_cleat_up"] detections ∧
      e.dnCleats = admitted minConfidence ["tread_cleat_dn"] detections ∧
      e.riserCleats = admitted minConfidence ["riser_cleat"] detections ∧
      e.abnormals = admitted minConfidence abnormalLabels detections) ∧
    (e.gaps ++ e.upCleats ++ e.dnCleats ++ e.riserCleats ++ e.abnormals).Perm
      (admitted minConfidence listedLabels detections) ∧
    e.taskId = determineTask detections minConfidence ∧
    (e.taskId = "" → e.taskConfidence = 0) ∧
    (e.taskId ≠ "" → Greatest minConfidence e.taskId detections e.taskConfidence) := by
  have hscan := scanned_foldl minConfidence detections
  have hlists : let e := extract detections minConfidence
      e.gaps = admitted minConfidence gapLabels detections ∧
      e.upCleats = admitted minConfidence ["tread_cleat_up"] detections ∧
      e.dnCleats = admitted minConfidence ["tread_cleat_dn"] detections ∧
      e.riserCleats = admitted minConfidence ["riser_cleat"] detections ∧
      e.abnormals = admitted minConfidence abnormalLabels detections := by
    rw [extract]
    dsimp only
    split_ifs <;> exact ⟨hscan.gaps, hscan.upCleats, hscan.dnCleats, hscan.riserCleats,
      hscan.abnormals⟩
  refine ⟨hlists, ?_, extract_task htrans detections⟩
  obtain ⟨hgaps, hup, hdn, hriser, habnormals⟩ := hlists
  rw [hgaps, hup, hdn, hriser, habnormals]
  refine List.Perm.trans ?_ (admitted_perm _ _ (by decide) detections)
  refine List.Perm.append_right _ (List.Perm.trans ?_ (admitted_perm _ _ (by decide) detections))
  refine List.Perm.append_right _ (List.Perm.trans ?_ (admitted_perm _ _ (by decide) detections))
  exact List.Perm.append_right _ (admitted_perm _ _ (by decide) detections)

omit [StereoMath R] htrans in
theorem extract_spec_tie : ∃ e, e = extract
      [(⟨"T2", 7, "", [], "", ""⟩ : Detection ℤ), ⟨"dust", 2, "", [], "", ""⟩,
        ⟨"T1", 7, "", [], "", ""⟩] 3 ∧ e.taskId = "T1" ∧
      Greatest 3 e.taskId [⟨"T2", 7, "", [], "", ""⟩, ⟨"dust", 2, "", [], "", ""⟩,
        ⟨"T1", 7, "", [], "", ""⟩] e.taskConfidence :=
  ⟨_, rfl, by decide, (extract_spec (fun _ _ _ => lt_trans) _ 3).2.2.2.2 (by decide)⟩

end DetectionExtractor
end EcidsCore
