import EcidsCore.GapPipeline
import EcidsCore.PostprocessSettings
import EcidsCore.RunningExtreme

set_option autoImplicit false

/-! The answers of the checker for a repeated gap over a whole sequence of gaps. -/
namespace EcidsCore
open RunningExtreme

namespace SameGapChecker

structure Call where
  gap : Detection ℝ
  same : Bool

noncomputable def after (c : SameGapChecker ℝ) (gaps : List (Detection ℝ)) : SameGapChecker ℝ :=
  gaps.foldl (fun c gap => (c.isSameGap gap).2) c

noncomputable def calls (c : SameGapChecker ℝ) : List (Detection ℝ) → List Call
  | [] => []
  | gap :: rest => ⟨gap, (c.isSameGap gap).1⟩ :: calls (c.isSameGap gap).2 rest

noncomputable def lastAccepted (made : List Call) : Option (Detection ℝ) :=
  ((made.filter fun call => call.gap.coordinates ≠ [] ∧ call.same = false).getLast?).map Call.gap

noncomputable def xs (gap : Detection ℝ) : List ℝ := gap.coordinates.map Prod.fst

noncomputable def ys (gap : Detection ℝ) : List ℝ := gap.coordinates.map Prod.snd

noncomputable def area (gap : Detection ℝ) : ℝ :=
  (greatest (xs gap) - least (xs gap)) * (greatest (ys gap) - least (ys gap))

noncomputable def centreDistance (last gap : Detection ℝ) : ℝ :=
  √(((least (xs gap) + greatest (xs gap)) / 2.0 - (least (xs last) + greatest (xs last)) / 2.0) ^ 2 +
    ((least (ys gap) + greatest (ys gap)) / 2.0 - (least (ys last) + greatest (ys last)) / 2.0) ^ 2)

def Repeats (c : SameGapChecker ℝ) (last gap : Detection ℝ) : Prop :=
  centreDistance last gap < c.locationThreshold ∧
    (area gap = area last ∨ |area gap - area last| < c.sizeThreshold * area last)

/-- Every call answers by the last gap that was accepted before it. -/
structure RightRun (c : SameGapChecker ℝ) (gaps : List (Detection ℝ)) : Prop where
  answer : ∀ before gap rest, gaps = before ++ gap :: rest →
    (((c.after before).isSameGap gap).1 = true ↔ gap.coordinates ≠ [] ∧
      ∃ last, lastAccepted (c.calls before) = some last ∧ Repeats c last gap)
  empty : ∀ before gap rest, gaps = before ++ gap :: rest → gap.coordinates = [] →
    (c.after before).isSameGap gap = (false, c.after before)

theorem after_append_singleton (c : SameGapChecker ℝ) (gaps : List (Detection ℝ))
    (gap : Detection ℝ) : c.after (gaps ++ [gap]) = ((c.after gaps).isSameGap gap).2 := by
  simp [after, List.foldl_append]

theorem calls_append_singleton (c : SameGapChecker ℝ) (gaps : List (Detection ℝ))
    (gap : Detection ℝ) :
    c.calls (gaps ++ [gap]) = c.calls gaps ++ [⟨gap, ((c.after gaps).isSameGap gap).1⟩] := by
  induction gaps generalizing c with
  | nil => rfl
  | cons first rest ih =>
    rw [List.cons_append, calls, ih]
    rfl

theorem gap_mem_of_calls {c : SameGapChecker ℝ} {gaps : List (Detection ℝ)} {call : Call}
    (h : call ∈ c.calls gaps) : call.gap ∈ gaps := by
  induction gaps generalizing c with
  | nil => cases h
  | cons first rest ih =>
    rcases List.mem_cons.1 h with rfl | h
    · exact List.mem_cons_self
    · exact List.mem_cons_of_mem first (ih h)

theorem lastAccepted_mem {c : SameGapChecker ℝ} {gaps : List (Detection ℝ)} {last : Detection ℝ}
    (h : lastAccepted (c.calls gaps) = some last) : last ∈ gaps ∧ last.coordinates ≠ [] := by
  obtain ⟨call, hcall, rfl⟩ := Option.map_eq_some_iff.1 h
  obtain ⟨hmade, hgap⟩ := List.mem_filter.1 (List.mem_of_getLast? hcall)
  exact ⟨gap_mem_of_calls hmade, (of_decide_eq_true hgap).1⟩

theorem lastAccepted_append (made : List Call) (call : Call) :
    lastAccepted (made ++ [call]) =
      if call.gap.coordinates ≠ [] ∧ call.same = false then some call.gap
      else lastAccepted made := by
  unfold lastAccepted
  by_cases h : call.gap.coordinates ≠ [] ∧ call.same = false
  · rw [if_pos h, List.filter_append, List.filter_singleton]
    simp [h]
  · rw [if_neg h, List.filter_append, List.filter_singleton]
    simp [h]

theorem isSameGap_state {c : SameGapChecker ℝ} (hon : c.enabled = true) (gap : Detection ℝ) :
    (c.isSameGap gap).2 = if gap.coordinates ≠ [] ∧ (c.isSameGap gap).1 = false then
      { c with previous := some (box gap.coordinates) } else c := by
  by_cases hgap : gap.coordinates = []
  · rw [isSameGap_closed fun h => h.2 hgap]
    simp [hgap]
  · cases hprev : c.previous with
    | none => simp [isSameGap_first hon hgap hprev, hgap]
    | some prev =>
      rw [isSameGap_next hon hgap hprev]
      split <;> simp [hgap]

theorem after_eq {c : SameGapChecker ℝ} (hon : c.enabled = true) (hnew : c.previous = none)
    (gaps : List (Detection ℝ)) :
    c.after gaps = { c with
      previous := (lastAccepted (c.calls gaps)).map fun last => box last.coordinates } := by
  induction gaps using List.reverseRecOn with
  | nil => cases c; cases hnew; rfl
  | append_singleton gaps gap ih =>
    have hon' : (c.after gaps).enabled = true := by rw [ih]; exact hon
    rw [after_append_singleton, calls_append_singleton, lastAccepted_append,
      isSameGap_state hon']
    dsimp only
    split
    · rw [ih]
      rfl
    · exact ih

/-- The starts of the scans, zero and 10¹⁸, are no extremes of their own. -/
structure InImage (gap : Detection ℝ) : Prop where
  left : least (xs gap) ≤ 1e18
  right : 0 ≤ greatest (xs gap)
  top : least (ys gap) ≤ 1e18
  bottom : 0 ≤ greatest (ys gap)

/-- Without an area to compare with, only a gap without an area is alike, and a threshold
that lets nothing through leaves out the same area too. -/
def SizesAgree (c : SameGapChecker ℝ) (last gap : Detection ℝ) : Prop :=
  centreDistance last gap < c.locationThreshold →
    if 0 < c.sizeThreshold then area last = 0 → area gap = 0 else area gap ≠ area last

theorem box_eq {gap : Detection ℝ} (hgap : gap.coordinates ≠ []) (h : InImage gap) :
    box gap.coordinates =
      { centerX := (least (xs gap) + greatest (xs gap)) / 2.0
        centerY := (least (ys gap) + greatest (ys gap)) / 2.0
        width := greatest (xs gap) - least (xs gap)
        height := greatest (ys gap) - least (ys gap) } := by
  have hxs : xs gap ≠ [] := by simpa [xs] using hgap
  have hys : ys gap ≠ [] := by simpa [ys] using hgap
  have hminX : (xs gap).foldl low 1e18 = least (xs gap) :=
    (foldl_low_eq hxs _).trans (min_eq_right h.left)
  have hmaxX : (xs gap).foldl high 0 = greatest (xs gap) :=
    (foldl_high_eq hxs _).trans (max_eq_right h.right)
  have hminY : (ys gap).foldl low 1e18 = least (ys gap) :=
    (foldl_low_eq hys _).trans (min_eq_right h.top)
  have hmaxY : (ys gap).foldl high 0 = greatest (ys gap) :=
    (foldl_high_eq hys _).trans (max_eq_right h.bottom)
  change (⟨((xs gap).foldl low 1e18 + (xs gap).foldl high 0) / 2.0,
    ((ys gap).foldl low 1e18 + (ys gap).foldl high 0) / 2.0,
    (xs gap).foldl high 0 - (xs gap).foldl low 1e18,
    (ys gap).foldl high 0 - (ys gap).foldl low 1e18⟩ : GapBox ℝ) = _
  rw [hminX, hmaxX, hminY, hmaxY]

theorem area_nonneg {gap : Detection ℝ} (hgap : gap.coordinates ≠ []) : 0 ≤ area gap := by
  have hxs : xs gap ≠ [] := by simpa [xs] using hgap
  have hys : ys gap ≠ [] := by simpa [ys] using hgap
  exact mul_nonneg (sub_nonneg.2 ((least_isLeast hxs).2 (greatest_isGreatest hxs).1))
    (sub_nonneg.2 ((least_isLeast hys).2 (greatest_isGreatest hys).1))

theorem size_iff {A P s : ℝ} (hP : 0 ≤ P) :
    ((if 0 < P then |A - P| / P else 0) < s ↔ A = P ∨ |A - P| < s * P) ↔
      if 0 < s then P = 0 → A = 0 else A ≠ P := by
  rcases hP.eq_or_lt with rfl | hpos
  · rw [if_neg (lt_irrefl 0), sub_zero, mul_zero]
    have hnone : ¬ |A| < 0 := not_lt.2 (abs_nonneg A)
    by_cases hs : 0 < s <;> simp [hs, hnone]
  · rw [if_pos hpos, div_lt_iff₀ hpos]
    by_cases hs : 0 < s
    · have hsame : A = P → |A - P| < s * P := by
        rintro rfl
        simpa using mul_pos hs hpos
      simp only [if_pos hs, hpos.ne', false_imp_iff, or_iff_right_of_imp hsame]
    · have hnone : ¬ |A - P| < s * P :=
        not_lt.2 ((mul_nonpos_of_nonpos_of_nonneg (not_lt.1 hs) hP).trans (abs_nonneg _))
      simp [hs, hnone]

theorem sizeDiff_eq {last gap : Detection ℝ} (hlast : last.coordinates ≠ [])
    (hgap : gap.coordinates ≠ []) (hin : InImage last) (hin' : InImage gap) :
    sizeDiff (box last.coordinates) (box gap.coordinates) =
      if 0 < area last then |area gap - area last| / area last else 0 := by
  rw [box_eq hlast hin, box_eq hgap hin', ← abs_eq_abs]
  rfl

theorem distance_eq {last gap : Detection ℝ} (hlast : last.coordinates ≠ [])
    (hgap : gap.coordinates ≠ []) (hin : InImage last) (hin' : InImage gap) :
    let dx := (box gap.coordinates).centerX - (box last.coordinates).centerX
    let dy := (box gap.coordinates).centerY - (box last.coordinates).centerY
    Double.sqrt (dx * dx + dy * dy) = centreDistance last gap := by
  rw [box_eq hlast hin, box_eq hgap hin', centreDistance, sq, sq]
  rfl

theorem isSameGap_last {c : SameGapChecker ℝ} {last gap : Detection ℝ} (hon : c.enabled = true)
    (hlast : last.coordinates ≠ []) (hgap : gap.coordinates ≠ []) (hin : InImage last)
    (hin' : InImage gap) :
    ((({ c with previous := some (box last.coordinates) }).isSameGap gap).1 = true ↔
      Repeats c last gap) ↔ SizesAgree c last gap := by
  have hdistance := distance_eq hlast hgap hin hin'
  have hsize := sizeDiff_eq hlast hgap hin hin'
  have hanswer : (({ c with previous := some (box last.coordinates) }).isSameGap gap).1 = true ↔
      centreDistance last gap < c.locationThreshold ∧
        (if 0 < area last then |area gap - area last| / area last else 0) < c.sizeThreshold := by
    dsimp only at hdistance
    simp only [isSameGap_iff, SameGapConfig.Repeats, config, hon, hgap, hdistance, hsize,
      Option.some.injEq, exists_eq_left', ne_eq, not_false_eq_true, true_and]
  rw [hanswer, Repeats, SizesAgree, ← size_iff (area_nonneg hlast)]
  by_cases hnear : centreDistance last gap < c.locationThreshold
  · simp [hnear]
  · simp [hnear]

/-- Each gap with coordinates agrees with the one that was accepted last before it. -/
def StepsAgree (c : SameGapChecker ℝ) (gaps : List (Detection ℝ)) : Prop :=
  ∀ before gap rest, gaps = before ++ gap :: rest → gap.coordinates ≠ [] →
    ∀ last, lastAccepted (c.calls before) = some last → SizesAgree c last gap

theorem answer_iff {c : SameGapChecker ℝ} {gaps before rest : List (Detection ℝ)}
    {gap : Detection ℝ} (hon : c.enabled = true) (hnew : c.previous = none)
    (hin : ∀ gap ∈ gaps, gap.coordinates ≠ [] → InImage gap)
    (hgaps : gaps = before ++ gap :: rest) (hgap : gap.coordinates ≠ []) :
    (((c.after before).isSameGap gap).1 = true ↔ gap.coordinates ≠ [] ∧
      ∃ last, lastAccepted (c.calls before) = some last ∧ Repeats c last gap) ↔
      ∀ last, lastAccepted (c.calls before) = some last → SizesAgree c last gap := by
  rw [after_eq hon hnew]
  cases hlast : lastAccepted (c.calls before) with
  | none =>
    have hanswer := isSameGap_first (c := { c with previous := none }) hon hgap rfl
    simp [hanswer]
  | some last =>
    obtain ⟨hmem, hcoordinates⟩ := lastAccepted_mem hlast
    have hagree := isSameGap_last hon hcoordinates hgap
      (hin last (hgaps ▸ List.mem_append_left _ hmem) hcoordinates)
      (hin gap (hgaps ▸ List.mem_append_right _ List.mem_cons_self) hgap)
    simpa [hgap] using hagree

/-- Within the image the answers are the right ones just as long as the sizes agree. -/
theorem isSameGap_run {c : SameGapChecker ℝ} {gaps : List (Detection ℝ)}
    (hon : c.enabled = true) (hnew : c.previous = none)
    (hin : ∀ gap ∈ gaps, gap.coordinates ≠ [] → InImage gap) :
    RightRun c gaps ↔ StepsAgree c gaps := by
  constructor
  · intro hright before gap rest hgaps hgap
    exact (answer_iff hon hnew hin hgaps hgap).1 (hright.answer before gap rest hgaps)
  · intro hagree
    have hempty {before : List (Detection ℝ)} {gap : Detection ℝ} (h : gap.coordinates = []) :
        (c.after before).isSameGap gap = (false, c.after before) := if_pos (.inr h)
    refine ⟨fun before gap rest hgaps => ?_, fun before gap rest _ h => hempty h⟩
    by_cases hgap : gap.coordinates = []
    · simp [hempty hgap, hgap]
    · exact (answer_iff hon hnew hin hgaps hgap).2 (hagree before gap rest hgaps hgap)

def cornered (width height : ℝ) : Detection ℝ :=
  { labelId := "gap_t1", confidence := 1, fileName := "left.jpg",
    coordinates := [(0, 0), (width, height)] }

theorem extremes_cornered {width height : ℝ} (hw : 0 ≤ width) (hh : 0 ≤ height) :
    least (xs (cornered width height)) = 0 ∧ greatest (xs (cornered width height)) = width ∧
      least (ys (cornered width height)) = 0 ∧ greatest (ys (cornered width height)) = height := by
  simp [xs, ys, cornered, least_cons, greatest_cons, least_singleton, greatest_singleton, hw, hh]

theorem area_cornered {width height : ℝ} (hw : 0 ≤ width) (hh : 0 ≤ height) :
    area (cornered width height) = width * height := by
  obtain ⟨hleft, hright, htop, hbottom⟩ := extremes_cornered hw hh
  rw [area, hleft, hright, htop, hbottom, sub_zero, sub_zero]

theorem inImage_cornered {width height : ℝ} (hw : 0 ≤ width) (hh : 0 ≤ height) :
    InImage (cornered width height) := by
  obtain ⟨hleft, hright, htop, hbottom⟩ := extremes_cornered hw hh
  exact ⟨by rw [hleft]; norm_num, by rwa [hright], by rw [htop]; norm_num, by rwa [hbottom]⟩

theorem isSameGap_run_same :
    RightRun SameGapChecker.default [cornered 10 10, cornered 10 10] := by
  refine (isSameGap_run rfl rfl ?_).2 ?_
  · intro gap hgap _
    have heq : gap = cornered 10 10 := by simpa using hgap
    rw [heq]
    exact inImage_cornered (by norm_num) (by norm_num)
  · intro before gap rest hgaps _ last hlast _
    have hmem : last ∈ [cornered 10 10, cornered 10 10] :=
      hgaps ▸ List.mem_append_left _ (lastAccepted_mem hlast).1
    have heq : last = cornered 10 10 := by simpa using hmem
    have hpos : (0 : ℝ) < 0.3 := by norm_num
    rw [heq, area_cornered (by norm_num) (by norm_num)]
    change if (0 : ℝ) < 0.3 then _ else _
    rw [if_pos hpos]
    norm_num

theorem isSameGap_run_flat :
    ¬ RightRun SameGapChecker.default [cornered 10 0, cornered 10 10] := by
  intro hright
  have hin : ∀ gap ∈ [cornered 10 0, cornered 10 10], gap.coordinates ≠ [] → InImage gap := by
    intro gap hgap _
    rcases List.mem_pair.1 hgap with rfl | rfl
    · exact inImage_cornered (by norm_num) le_rfl
    · exact inImage_cornered (by norm_num) (by norm_num)
  have hlast : lastAccepted (SameGapChecker.default.calls [cornered 10 0]) =
      some (cornered 10 0) := by
    have hfirst : ((SameGapChecker.default (R := ℝ)).isSameGap (cornered 10 0)).1 = false := by
      rw [isSameGap_first rfl (List.cons_ne_nil _ _) rfl]
    have hmade : SameGapChecker.default.calls [cornered 10 0] = [⟨cornered 10 0, false⟩] := by
      rw [calls, calls, hfirst]
    rw [hmade]
    rfl
  have hgap : (cornered 10 10).coordinates ≠ [] := List.cons_ne_nil _ _
  have hagree := (answer_iff rfl rfl hin
    (show [cornered 10 0, cornered 10 10] = [cornered 10 0] ++ cornered 10 10 :: [] from rfl) hgap).1
    (hright.answer [cornered 10 0] (cornered 10 10) [] rfl) _ hlast
  obtain ⟨hleft, hright, htop, hbottom⟩ :=
    extremes_cornered (show (0 : ℝ) ≤ 10 by norm_num) le_rfl
  obtain ⟨hleft', hright', htop', hbottom'⟩ :=
    extremes_cornered (show (0 : ℝ) ≤ 10 by norm_num) (show (0 : ℝ) ≤ 10 by norm_num)
  have hnear : centreDistance (cornered 10 0) (cornered 10 10) < 30.0 := by
    rw [centreDistance, hleft, hright, htop, hbottom, hleft', hright', htop', hbottom']
    rw [Real.sqrt_lt' (by norm_num)]
    norm_num
  have hpos : (0 : ℝ) < 0.3 := by norm_num
  have hsize : if (0 : ℝ) < 0.3 then area (cornered 10 0) = 0 → area (cornered 10 10) = 0
      else _ := hagree hnear
  rw [if_pos hpos, area_cornered (by norm_num) le_rfl,
    area_cornered (by norm_num) (by norm_num)] at hsize
  norm_num at hsize

end SameGapChecker
end EcidsCore
