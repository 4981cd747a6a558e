import EcidsCore.CleatGeometry
import EcidsCore.CleatSplit

set_option autoImplicit false

/-! The two directions of the split, and cleats seen upside down. -/
namespace EcidsCore
open OrderStatistic RunningExtreme

theorem comparisons_real : Comparisons ℝ where
  number _ _ _ := ⟨le_refl _, le_refl _⟩
  le_trans _ _ _ := le_trans
  le_total x y _ _ := le_total x y
  lt_iff x y := by simp
  zero := le_refl 0

namespace CleatClassifier

def mirror (H : ℝ) (det : Detection ℝ) : Detection ℝ :=
  { det with coordinates := det.coordinates.map fun c => (c.1, H - c.2) }

/-- The edge of a down cleat that is compared, and that of its mirror image as an up cleat. -/
noncomputable def tops (cleats : List (Detection ℝ)) : List ℝ := cleats.map detectionTopY

noncomputable def bottoms (H : ℝ) (cleats : List (Detection ℝ)) : List ℝ :=
  cleats.map fun det => detectionBottomY (mirror H det)

def detections (cleats : List (ClassifiedCleat ℝ)) : List (Detection ℝ) :=
  cleats.map ClassifiedCleat.detection

def WithinOne (split : List (ClassifiedCleat ℝ) × List (ClassifiedCleat ℝ)) : Prop :=
  split.1.length ≤ split.2.length + 1 ∧ split.2.length ≤ split.1.length + 1

structure MirrorAlike (H : ℝ) (cleats : List (Detection ℝ)) : Prop where
  long : (detections (splitByMedian cleats false).1).map (mirror H) =
    detections (splitByMedian (cleats.map (mirror H)) true).1
  short : (detections (splitByMedian cleats false).2).map (mirror H) =
    detections (splitByMedian (cleats.map (mirror H)) true).2
  sizes : (tops cleats).Nodup → (bottoms H cleats).Nodup →
    WithinOne (splitByMedian cleats false) ∧
      WithinOne (splitByMedian (cleats.map (mirror H)) true)

theorem mirror_involutive (H : ℝ) : Function.Involutive (mirror H) := by
  rintro ⟨labelId, confidence, fileName, coordinates, tsStart, tsEnd⟩
  simp only [mirror, List.map_map, Detection.mk.injEq, true_and, and_true]
  have hself : ((fun c : ℝ × ℝ => (c.1, H - c.2)) ∘ fun c => (c.1, H - c.2)) = id := by
    funext c
    simp
  rw [hself, List.map_id]

theorem median_half {values : List ℝ} (h : values ≠ []) :
    2 * values.countP (· < median values) ≤ values.length ∧
      2 * values.countP (median values < ·) < values.length := by
  have hpos := List.length_pos_iff.2 h
  have hcount := countP_median comparisons_real (fun v _ => le_refl v) h
  simp only [← not_le, decide_not] at hcount ⊢
  omega

theorem splitByMedian_down (cleats : List (Detection ℝ)) :
    splitByMedian cleats false =
      ((cleats.filter fun det => detectionTopY det ≤ median (tops cleats)).map
        (makeClassified .long),
      (cleats.filter fun det => !decide (detectionTopY det ≤ median (tops cleats))).map
        (makeClassified .short)) := by
  simp only [splitByMedian, Bool.false_eq_true, if_false]
  rfl

theorem splitByMedian_up (H : ℝ) (cleats : List (Detection ℝ)) :
    splitByMedian (cleats.map (mirror H)) true =
      (((cleats.filter fun det =>
          median (bottoms H cleats) ≤ detectionBottomY (mirror H det)).map (mirror H)).map
        (makeClassified .long),
      ((cleats.filter fun det =>
          !decide (median (bottoms H cleats) ≤ detectionBottomY (mirror H det))).map
        (mirror H)).map (makeClassified .short)) := by
  simp only [splitByMedian, if_true, List.map_map, List.filter_map]
  rfl

def SameSide (H : ℝ) (cleats : List (Detection ℝ)) : Prop :=
  ∀ det ∈ cleats, detectionTopY det ≤ median (tops cleats) ↔
    median (bottoms H cleats) ≤ detectionBottomY (mirror H det)

theorem detections_makeClassified (type : CleatType) (dets : List (Detection ℝ)) :
    detections (dets.map (makeClassified type)) = dets := by
  rw [detections, List.map_map]
  exact List.map_id dets

theorem filter_map_mirror_eq_iff (H : ℝ) {cleats : List (Detection ℝ)} {p q : Detection ℝ → Bool} :
    (cleats.filter p).map (mirror H) = (cleats.filter q).map (mirror H) ↔
      ∀ det ∈ cleats, p det = q det := by
  rw [List.map_injective_iff.2 (mirror_involutive H).injective |>.eq_iff]
  constructor
  · intro heq det hdet
    have hmem : det ∈ cleats.filter p ↔ det ∈ cleats.filter q := by rw [heq]
    rw [Bool.eq_iff_iff]
    simpa only [List.mem_filter, hdet, true_and] using hmem
  · exact List.filter_congr

theorem long_eq_iff (H : ℝ) (cleats : List (Detection ℝ)) :
    (detections (splitByMedian cleats false).1).map (mirror H) =
      detections (splitByMedian (cleats.map (mirror H)) true).1 ↔ SameSide H cleats := by
  rw [splitByMedian_down, splitByMedian_up, detections_makeClassified, detections_makeClassified,
    filter_map_mirror_eq_iff]
  simp only [decide_eq_decide, SameSide]

theorem short_eq_iff (H : ℝ) (cleats : List (Detection ℝ)) :
    (detections (splitByMedian cleats false).2).map (mirror H) =
      detections (splitByMedian (cleats.map (mirror H)) true).2 ↔ SameSide H cleats := by
  rw [splitByMedian_down, splitByMedian_up, detections_makeClassified, detections_makeClassified,
    filter_map_mirror_eq_iff]
  simp only [Bool.not_inj_iff, decide_eq_decide, SameSide]

def HasTop (det : Detection ℝ) : Prop := ∃ c ∈ det.coordinates, c.2 < 1e18

def Inside (H : ℝ) (det : Detection ℝ) : Prop := ∀ c ∈ det.coordinates, 0 ≤ c.2 ∧ c.2 ≤ H

theorem bottom_scan (det : Detection ℝ) :
    IsGreatest (insert 0 {y | y ∈ heights det.coordinates}) (detectionBottomY det) := by
  have hscan := foldl_high (heights det.coordinates) (0 : ℝ)
  rwa [heights, List.foldl_map] at hscan

theorem mem_heights {det : Detection ℝ} {y : ℝ} :
    y ∈ heights det.coordinates ↔ ∃ c ∈ det.coordinates, c.2 = y := List.mem_map

theorem mem_heights_mirror {H : ℝ} {det : Detection ℝ} {y : ℝ} :
    y ∈ heights (mirror H det).coordinates ↔ ∃ c ∈ det.coordinates, H - c.2 = y := by
  simp [heights, mirror]

theorem topY_of_hasTop {det : Detection ℝ} (h : HasTop det) :
    IsLeast {y | y ∈ heights det.coordinates} (detectionTopY det) := by
  obtain ⟨c, hc, hlt⟩ := h
  have hne := List.ne_nil_of_mem hc
  have hle := (least_isLeast (heights_ne_nil hne)).2 (mem_heights.2 ⟨c, hc, rfl⟩)
  exact (top_iff hne).2 (hle.trans_lt hlt)

theorem topY_of_not_hasTop {det : Detection ℝ} (h : ¬ HasTop det) : detectionTopY det = 0 := by
  by_cases hne : det.coordinates = []
  · simp [detectionTopY, hne]
  rw [detectionTopY_eq hne]
  refine if_neg fun hlt => h ?_
  obtain ⟨c, hc, hy⟩ := mem_heights.1 (least_isLeast (heights_ne_nil hne)).1
  exact ⟨c, hc, hy.trans_lt hlt⟩

variable {H : ℝ} {det other : Detection ℝ} {cleats : List (Detection ℝ)}

theorem topY_nonneg (h : Inside H det) : 0 ≤ detectionTopY det := by
  by_cases htop : HasTop det
  · obtain ⟨c, hc, hy⟩ := mem_heights.1 (topY_of_hasTop htop).1
    exact hy ▸ (h c hc).1
  · exact (topY_of_not_hasTop htop).ge

theorem bottomY_mirror_of_hasTop (h : Inside H det) (htop : HasTop det) :
    detectionBottomY (mirror H det) = H - detectionTopY det := by
  obtain ⟨hmem, hbound⟩ := topY_of_hasTop htop
  obtain ⟨c, hc, hy⟩ := mem_heights.1 hmem
  refine (bottom_scan (mirror H det)).unique ⟨.inr ?_, ?_⟩
  · exact mem_heights_mirror.2 ⟨c, hc, by rw [hy]⟩
  · rintro y (rfl | hmirror)
    · exact sub_nonneg.2 (hy ▸ (h c hc).2)
    · obtain ⟨d, hd, rfl⟩ := mem_heights_mirror.1 hmirror
      exact sub_le_sub_left (hbound (mem_heights.2 ⟨d, hd, rfl⟩)) H

theorem bottomY_mirror_le (h : ¬ HasTop det) (hother : HasTop other) :
    detectionBottomY (mirror H det) ≤ detectionBottomY (mirror H other) := by
  obtain ⟨c, hc, hlt⟩ := hother
  obtain ⟨hmem, -⟩ := bottom_scan (mirror H det)
  obtain ⟨-, hbound⟩ := bottom_scan (mirror H other)
  rcases hmem with hzero | hmirror
  · rw [hzero]
    exact hbound (.inl rfl)
  · obtain ⟨d, hd, hy⟩ := mem_heights_mirror.1 hmirror
    have hfar : 1e18 ≤ d.2 := not_lt.1 fun hd' => h ⟨d, hd, hd'⟩
    rw [← hy]
    exact (sub_le_sub_left (hlt.le.trans hfar) H).trans
      (hbound (.inr (mem_heights_mirror.2 ⟨c, hc, rfl⟩)))

/-- Fewer than half of the cleats begin above one of them, and fewer than half below it. -/
def MiddleTop (cleats : List (Detection ℝ)) : Prop :=
  ∃ det ∈ cleats, 2 * (tops cleats).countP (· < detectionTopY det) < cleats.length ∧
    2 * (tops cleats).countP (detectionTopY det < ·) < cleats.length

def AllLong (H : ℝ) (cleats : List (Detection ℝ)) : Prop :=
  2 * (bottoms H cleats).countP (fun y => ∃ x ∈ bottoms H cleats, x < y) < cleats.length ∧
    2 * (tops cleats).countP (fun y => ∃ x ∈ tops cleats, y < x) ≤ cleats.length

def Mirrorable (H : ℝ) (cleats : List (Detection ℝ)) : Prop :=
  cleats = [] ∨ ((∀ det ∈ cleats, HasTop det) ∧ MiddleTop cleats) ∨
    (∃ det ∈ cleats, ¬ HasTop det) ∧ AllLong H cleats

theorem tops_length (cleats : List (Detection ℝ)) : (tops cleats).length = cleats.length :=
  List.length_map ..

theorem bottoms_length (H : ℝ) (cleats : List (Detection ℝ)) :
    (bottoms H cleats).length = cleats.length := List.length_map ..

theorem tops_half (h : cleats ≠ []) :
    2 * (tops cleats).countP (· < median (tops cleats)) ≤ cleats.length ∧
      2 * (tops cleats).countP (median (tops cleats) < ·) < cleats.length := by
  rw [← tops_length cleats]
  exact median_half (by simpa [tops] using h)

theorem bottoms_half (h : cleats ≠ []) :
    2 * (bottoms H cleats).countP (· < median (bottoms H cleats)) ≤ cleats.length ∧
      2 * (bottoms H cleats).countP (median (bottoms H cleats) < ·) < cleats.length := by
  rw [← bottoms_length H cleats]
  exact median_half (by simpa [bottoms] using h)

theorem median_tops_mem (h : cleats ≠ []) :
    ∃ det ∈ cleats, detectionTopY det = median (tops cleats) :=
  List.mem_map.1 (median_mem (show tops cleats ≠ [] by simpa [tops] using h))

theorem median_bottoms_mem (h : cleats ≠ []) :
    ∃ det ∈ cleats, detectionBottomY (mirror H det) = median (bottoms H cleats) :=
  List.mem_map.1 (median_mem (show bottoms H cleats ≠ [] by simpa [bottoms] using h))

theorem bottoms_half_tops (h : cleats ≠ []) (hin : ∀ det ∈ cleats, Inside H det)
    (htop : ∀ det ∈ cleats, HasTop det) :
    2 * (tops cleats).countP (H - median (bottoms H cleats) < ·) ≤ cleats.length ∧
      2 * (tops cleats).countP (· < H - median (bottoms H cleats)) < cleats.length := by
  have hmap : bottoms H cleats = (tops cleats).map (H - ·) := by
    rw [bottoms, tops, List.map_map]
    exact List.map_congr_left fun det hdet => bottomY_mirror_of_hasTop (hin det hdet) (htop det hdet)
  obtain ⟨hbelow, habove⟩ := bottoms_half (H := H) h
  generalize median (bottoms H cleats) = m at hbelow habove ⊢
  rw [hmap, List.countP_map] at hbelow habove
  constructor
  · simpa only [Function.comp_def, sub_lt_comm] using hbelow
  · simpa only [Function.comp_def, lt_sub_comm] using habove

theorem sameSide_iff_middle (h : cleats ≠ []) (hin : ∀ det ∈ cleats, Inside H det)
    (htop : ∀ det ∈ cleats, HasTop det) : SameSide H cleats ↔ MiddleTop cleats := by
  obtain ⟨hbelow, habove⟩ := tops_half h
  obtain ⟨hbelow', habove'⟩ := bottoms_half_tops h hin htop
  have hmirror : ∀ det ∈ cleats, detectionBottomY (mirror H det) = H - detectionTopY det :=
    fun det hdet => bottomY_mirror_of_hasTop (hin det hdet) (htop det hdet)
  have hlength := tops_length cleats
  constructor
  · intro hsame
    obtain ⟨det, hdet, hmid⟩ := median_tops_mem h
    obtain ⟨other, hother, hmid'⟩ := median_bottoms_mem (H := H) h
    have hle := (hsame det hdet).1 hmid.le
    have hle' := (hsame other hother).2 hmid'.ge
    rw [hmirror det hdet] at hle
    rw [hmirror other hother] at hmid'
    have heq : H - median (bottoms H cleats) = median (tops cleats) := by linarith
    rw [heq] at habove'
    exact ⟨det, hdet, hmid ▸ habove', hmid ▸ habove⟩
  · rintro ⟨det, hdet, hfew, hfew'⟩ other hother
    have hmid : median (tops cleats) = detectionTopY det :=
      middle_unique (hlength ▸ hfew) (hlength ▸ hfew') (hlength ▸ hbelow) (hlength ▸ habove.le)
    have hmid' : H - median (bottoms H cleats) = detectionTopY det :=
      middle_unique (hlength ▸ hfew) (hlength ▸ hfew') (hlength ▸ habove'.le) (hlength ▸ hbelow')
    rw [hmirror other hother]
    constructor <;> intro hle <;> linarith

theorem all_long (h : cleats ≠ []) (hall : AllLong H cleats) :
    ∀ det ∈ cleats, detectionTopY det ≤ median (tops cleats) ∧
      median (bottoms H cleats) ≤ detectionBottomY (mirror H det) := by
  obtain ⟨hbelow, habove⟩ := tops_half h
  obtain ⟨hbelow', habove'⟩ := bottoms_half (H := H) h
  have hlength := tops_length cleats
  have hlength' := bottoms_length H cleats
  intro det hdet
  constructor
  · by_contra hlt
    have hcover := length_le_countP_add (tops cleats) (p := (median (tops cleats) < ·))
      (q := fun y => ∃ x ∈ tops cleats, y < x) fun y _ =>
        (lt_or_ge (median (tops cleats)) y).imp decide_eq_true fun hy =>
          decide_eq_true ⟨_, List.mem_map_of_mem hdet, hy.trans_lt (not_le.1 hlt)⟩
    have hfew := hall.2
    omega
  · by_contra hlt
    have hcover := length_le_countP_add (bottoms H cleats)
      (p := (· < median (bottoms H cleats))) (q := fun y => ∃ x ∈ bottoms H cleats, x < y)
      fun y _ => (lt_or_ge y (median (bottoms H cleats))).imp decide_eq_true fun hy =>
        decide_eq_true ⟨_, List.mem_map_of_mem hdet, (not_le.1 hlt).trans_le hy⟩
    have hfew := hall.1
    omega

theorem sameSide_iff_allLong (hin : ∀ det ∈ cleats, Inside H det)
    (htop : ∃ det ∈ cleats, ¬ HasTop det) : SameSide H cleats ↔ AllLong H cleats := by
  obtain ⟨first, hfirst, hnone⟩ := htop
  have hne := List.ne_nil_of_mem hfirst
  constructor
  · intro hsame
    have hdown : ∀ det ∈ cleats, ¬ HasTop det →
        median (bottoms H cleats) ≤ detectionBottomY (mirror H det) := by
      intro det hdet hnot
      refine (hsame det hdet).1 ?_
      obtain ⟨mid, hmid, heq⟩ := median_tops_mem hne
      rw [topY_of_not_hasTop hnot, ← heq]
      exact topY_nonneg (hin mid hmid)
    have hup : ∀ det ∈ cleats, median (bottoms H cleats) ≤ detectionBottomY (mirror H det) := by
      intro det hdet
      by_cases hhas : HasTop det
      · exact (hdown first hfirst hnone).trans (bottomY_mirror_le hnone hhas)
      · exact hdown det hdet hhas
    constructor
    · refine lt_of_le_of_lt ?_ (bottoms_half (H := H) hne).2
      refine Nat.mul_le_mul_left 2 (List.countP_mono_left fun y _ hy => ?_)
      obtain ⟨x, hx, hlt⟩ := of_decide_eq_true hy
      obtain ⟨det, hdet, rfl⟩ := List.mem_map.1 hx
      exact decide_eq_true ((hup det hdet).trans_lt hlt)
    · refine le_trans ?_ (tops_half hne).1
      refine Nat.mul_le_mul_left 2 (List.countP_mono_left fun y _ hy => ?_)
      obtain ⟨x, hx, hlt⟩ := of_decide_eq_true hy
      obtain ⟨det, hdet, rfl⟩ := List.mem_map.1 hx
      exact decide_eq_true (hlt.trans_le ((hsame det hdet).2 (hup det hdet)))
  · intro hall det hdet
    obtain ⟨hdown, hup⟩ := all_long hne hall det hdet
    exact ⟨fun _ => hup, fun _ => hdown⟩

theorem sameSide_iff (hin : ∀ det ∈ cleats, Inside H det) :
    SameSide H cleats ↔ Mirrorable H cleats := by
  by_cases hne : cleats = []
  · simp [hne, SameSide, Mirrorable]
  by_cases htop : ∀ det ∈ cleats, HasTop det
  · have hnone : ¬ ∃ det ∈ cleats, ¬ HasTop det := by simpa using htop
    rw [sameSide_iff_middle hne hin htop, Mirrorable]
    simp only [hne, hnone, false_and, or_false, false_or, and_iff_right htop]
  · have hsome : ∃ det ∈ cleats, ¬ HasTop det := by simpa using htop
    rw [sameSide_iff_allLong hin hsome, Mirrorable]
    simp only [hne, htop, false_and, false_or, and_iff_right hsome]

theorem down_short_length (cleats : List (Detection ℝ)) :
    (splitByMedian cleats false).2.length =
      (tops cleats).countP (median (tops cleats) < ·) := by
  rw [splitByMedian_down, List.length_map, ← List.countP_eq_length_filter]
  generalize median (tops cleats) = m
  rw [tops, List.countP_map]
  simp only [Function.comp_def, ← not_le, decide_not]

theorem up_short_length (H : ℝ) (cleats : List (Detection ℝ)) :
    (splitByMedian (cleats.map (mirror H)) true).2.length =
      (bottoms H cleats).countP (· < median (bottoms H cleats)) := by
  rw [splitByMedian_up, List.length_map, List.length_map, ← List.countP_eq_length_filter]
  generalize median (bottoms H cleats) = m
  rw [bottoms, List.countP_map]
  simp only [Function.comp_def, ← not_le, decide_not]

theorem split_length (cleats : List (Detection ℝ)) (useBottom : Bool) :
    (splitByMedian cleats useBottom).1.length + (splitByMedian cleats useBottom).2.length =
      cleats.length := by
  have hall := (splitByMedian_perm cleats useBottom).length_eq
  rwa [List.length_map, List.length_append] at hall

theorem nodup_sides {xs : List ℝ} {m : ℝ} (h : xs.Nodup) (hm : m ∈ xs) :
    xs.countP (· < m) + xs.countP (m < ·) + 1 = xs.length := by
  have hall := countP_trichotomy xs m
  rw [List.count_eq_one_of_mem h hm] at hall
  omega

theorem odd_of_mirrorable (hne : cleats ≠ []) (h : Mirrorable H cleats)
    (htops : (tops cleats).Nodup) (hbottoms : (bottoms H cleats).Nodup) :
    cleats.length % 2 = 1 := by
  have hlength := tops_length cleats
  have hlength' := bottoms_length H cleats
  rcases h.resolve_left hne with ⟨-, det, hdet, hfew, hfew'⟩ | ⟨-, hall⟩
  · have hsides := nodup_sides htops (List.mem_map_of_mem hdet)
    omega
  · obtain ⟨det, hdet, hmid⟩ := median_bottoms_mem (H := H) hne
    have hmem : median (bottoms H cleats) ∈ bottoms H cleats := List.mem_map.2 ⟨det, hdet, hmid⟩
    have hsides := nodup_sides hbottoms hmem
    have hnone : (bottoms H cleats).countP (· < median (bottoms H cleats)) = 0 := by
      rw [List.countP_eq_zero]
      intro y hy
      obtain ⟨other, hother, rfl⟩ := List.mem_map.1 hy
      simpa using (all_long hne hall other hother).2
    have hmono : (bottoms H cleats).countP (median (bottoms H cleats) < ·) ≤
        (bottoms H cleats).countP (fun y => ∃ x ∈ bottoms H cleats, x < y) :=
      List.countP_mono_left fun y _ hy => decide_eq_true ⟨_, hmem, of_decide_eq_true hy⟩
    have hfew := hall.1
    omega

theorem withinOne_of_mirrorable (h : Mirrorable H cleats) (htops : (tops cleats).Nodup)
    (hbottoms : (bottoms H cleats).Nodup) : WithinOne (splitByMedian cleats false) ∧
      WithinOne (splitByMedian (cleats.map (mirror H)) true) := by
  have hdown := split_length cleats false
  have hup := split_length (cleats.map (mirror H)) true
  rw [List.length_map] at hup
  by_cases hne : cleats = []
  · subst hne
    rw [List.length_nil] at hdown hup
    exact ⟨⟨by omega, by omega⟩, by omega, by omega⟩
  have hodd := odd_of_mirrorable hne h htops hbottoms
  have hlength := tops_length cleats
  have hlength' := bottoms_length H cleats
  obtain ⟨det, hdet, hmid⟩ := median_tops_mem hne
  obtain ⟨other, hother, hmid'⟩ := median_bottoms_mem (H := H) hne
  have hsides := nodup_sides htops (List.mem_map.2 ⟨det, hdet, hmid⟩)
  have hsides' := nodup_sides hbottoms (List.mem_map.2 ⟨other, hother, hmid'⟩)
  obtain ⟨hbelow, habove⟩ := tops_half hne
  obtain ⟨hbelow', habove'⟩ := bottoms_half (H := H) hne
  have hshort := down_short_length cleats
  have hshort' := up_short_length H cleats
  exact ⟨⟨by omega, by omega⟩, by omega, by omega⟩

/-- Both directions take the same place of the sorted edges. Upside down, an even number of
cleats has its middle on the other side of that place. -/
theorem splitByMedian_mirror (hin : ∀ det ∈ cleats, Inside H det) :
    MirrorAlike H cleats ↔ Mirrorable H cleats := by
  rw [← sameSide_iff hin]
  constructor
  · intro halike
    exact (long_eq_iff H cleats).1 halike.long
  · intro hsame
    exact ⟨(long_eq_iff H cleats).2 hsame, (short_eq_iff H cleats).2 hsame,
      withinOne_of_mirrorable ((sameSide_iff hin).1 hsame)⟩

def downFrom (y : ℝ) : Detection ℝ :=
  { labelId := "tread_cleat_dn", confidence := 1, fileName := "left.jpg",
    coordinates := [(0, y), (1, y + 1)] }

theorem topY_downFrom {y : ℝ} (h : y < 1e18) : detectionTopY (downFrom y) = y := by
  refine (topY_of_hasTop ⟨(0, y), by simp [downFrom], h⟩).unique ⟨by simp [heights, downFrom], ?_⟩
  simp [heights, downFrom, mem_lowerBounds]

theorem inside_downFrom {y : ℝ} (h : 0 ≤ y) (hH : y + 1 ≤ H) : Inside H (downFrom y) := by
  simp only [Inside, downFrom, List.mem_cons, List.not_mem_nil, or_false, forall_eq_or_imp,
    forall_eq]
  exact ⟨⟨h, by linarith⟩, by linarith, hH⟩

theorem splitByMedian_mirror_two : ¬ MirrorAlike 10 [downFrom 1, downFrom 2] := by
  intro halike
  have hin : ∀ det ∈ [downFrom 1, downFrom 2], Inside 10 det := by
    simp only [List.mem_cons, List.not_mem_nil, or_false, forall_eq_or_imp, forall_eq]
    exact ⟨inside_downFrom (by norm_num) (by norm_num), inside_downFrom (by norm_num) (by norm_num)⟩
  have h1 : detectionTopY (downFrom 1) = 1 := topY_downFrom (by norm_num)
  have h2 : detectionTopY (downFrom 2) = 2 := topY_downFrom (by norm_num)
  have h1' : detectionBottomY (mirror 10 (downFrom 1)) = 10 - 1 := by
    rw [bottomY_mirror_of_hasTop (hin _ (by simp)) ⟨(0, 1), by simp [downFrom], by norm_num⟩, h1]
  have h2' : detectionBottomY (mirror 10 (downFrom 2)) = 10 - 2 := by
    rw [bottomY_mirror_of_hasTop (hin _ (by simp)) ⟨(0, 2), by simp [downFrom], by norm_num⟩, h2]
  have hmirrorable := (sameSide_iff hin).1 ((long_eq_iff 10 _).1 halike.long)
  have hodd := odd_of_mirrorable (by simp) hmirrorable (by simp [tops, h1, h2])
    (by norm_num [bottoms, h1', h2'])
  simp at hodd

theorem splitByMedian_mirror_three : MirrorAlike 10 [downFrom 1, downFrom 2, downFrom 3] := by
  refine (splitByMedian_mirror ?_).2 (.inr (.inl ⟨?_, downFrom 2, by simp, ?_⟩))
  · simp only [List.mem_cons, List.not_mem_nil, or_false, forall_eq_or_imp, forall_eq]
    exact ⟨inside_downFrom (by norm_num) (by norm_num), inside_downFrom (by norm_num) (by norm_num),
      inside_downFrom (by norm_num) (by norm_num)⟩
  · simp only [List.mem_cons, List.not_mem_nil, or_false, forall_eq_or_imp, forall_eq]
    exact ⟨⟨(0, 1), by simp [downFrom], by norm_num⟩, ⟨(0, 2), by simp [downFrom], by norm_num⟩,
      ⟨(0, 3), by simp [downFrom], by norm_num⟩⟩
  · have h1 : detectionTopY (downFrom 1) = 1 := topY_downFrom (by norm_num)
    have h2 : detectionTopY (downFrom 2) = 2 := topY_downFrom (by norm_num)
    have h3 : detectionTopY (downFrom 3) = 3 := topY_downFrom (by norm_num)
    norm_num [tops, h1, h2, h3]

end CleatClassifier
end EcidsCore
