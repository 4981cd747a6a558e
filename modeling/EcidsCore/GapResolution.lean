import EcidsCore.DisparityReads
import EcidsCore.GapMeasure
import EcidsCore.GapResult
import EcidsCore.TemplateMatch

set_option autoImplicit false

/-! Which distances the gap pipeline can report, with the matcher that it uses: the matcher
shifts by whole pixels, at most 128 and never over the left border of the image. -/
namespace EcidsCore
open ExceptRules

namespace DisparityCalculator

theorem keepBest_shift (best : ℚ × ℕ) (d : ℕ) (s : ℕ × ℕ) :
    (keepBest best d s).2 = best.2 ∨ (keepBest best d s).2 = d := by
  unfold keepBest
  split
  · exact .inr rfl
  · exact .inl rfl

theorem shiftLoop_shift {int : IntArith} {left right : Mat} {w : Window} {ds : List ℕ}
    {best r : ℚ × ℕ} (h : shiftLoop int left right w ds best = .ok r) :
    r.2 = best.2 ∨ r.2 ∈ ds ∧ (r.2 : ℤ) ≤ w.x0 := by
  induction ds generalizing best with
  | nil =>
    cases h
    exact .inl rfl
  | cons d ds ih =>
    unfold shiftLoop at h
    split at h
    · cases h
      exact .inl rfl
    · rename_i hx
      obtain ⟨s, -, hrest⟩ := bind_ok h
      rcases ih hrest with hkept | ⟨hmem, hle⟩
      · rcases keepBest_shift best d s with hsame | hsame
        · exact .inl (hkept.trans hsame)
        · rw [hkept, hsame]
          exact .inr ⟨List.mem_cons_self, by omega⟩
      · exact .inr ⟨List.mem_cons_of_mem d hmem, hle⟩

theorem int32_ok {z y : ℤ} (h : int32 z = .ok y) : y = z := by
  unfold int32 at h
  split at h
  · exact (Except.ok.inj h).symm
  · cases h

theorem templateMatch_shift {left right : Mat} {px py wr : ℤ} {d : ℕ}
    (h : templateMatch int32 left right px py wr = .ok d) (hd : 0 < d) :
    d ≤ 128 ∧ (d : ℤ) ≤ px - wr ∧ 3 ≤ left.rows := by
  unfold templateMatch at h
  obtain ⟨w, hw, h⟩ := bind_ok h
  unfold clipWindow at hw
  obtain ⟨l, hl, hw⟩ := bind_ok hw
  obtain ⟨u, -, hw⟩ := bind_ok hw
  obtain ⟨r, -, hw⟩ := bind_ok hw
  obtain ⟨b, -, hw⟩ := bind_ok hw
  cases hw
  obtain ⟨tw, -, h⟩ := bind_ok h
  obtain ⟨th, hth, h⟩ := bind_ok h
  have hheight := int32_ok hth
  split at h
  · cases h
    exact absurd hd (lt_irrefl 0)
  · rename_i hlarge
    obtain ⟨best, hbest, h⟩ := bind_ok h
    cases h
    have hleft := int32_ok hl
    rcases shiftLoop_shift hbest with hnone | ⟨hmem, hle⟩
    · exact absurd hd (by rw [hnone]; exact lt_irrefl 0)
    · have hmost := List.mem_range.1 hmem
      dsimp only at hle hheight
      refine ⟨by omega, by omega, by omega⟩

theorem clampTo_real {length : ℕ} {x : ℝ} {k : ℤ} (hk : 0 < k) (h : k ≤ clampTo length x) :
    (k : ℝ) ≤ x + 1 / 2 := by
  have hround : k ≤ Double.truncate (Double.round x) := by
    unfold clampTo castInt at h
    split at h <;> omega
  change k ≤ (if 0 ≤ Double.round x then ⌊Double.round x⌋ else ⌈Double.round x⌉) at hround
  have hle : (k : ℝ) ≤ Double.round x := by
    split at hround
    · exact Int.le_floor.1 hround
    · rename_i hneg
      have hceil : ⌈Double.round x⌉ ≤ 0 := Int.ceil_le.2 (by push_cast; exact (not_le.1 hneg).le)
      omega
  have hpos : (0 : ℝ) < k := Int.cast_pos.2 hk
  change (k : ℝ) ≤ (if 0 ≤ x then (⌊x + 1 / 2⌋ : ℝ) else -(⌊-x + 1 / 2⌋ : ℝ)) at hle
  split at hle
  · exact hle.trans (Int.floor_le _)
  · rename_i hneg
    have hfloor : (0 : ℝ) ≤ ⌊-x + 1 / 2⌋ :=
      Int.cast_nonneg (Int.floor_nonneg.2 (by linarith [not_le.1 hneg]))
    linarith

theorem rawHeight_le_one {n : ℕ} (h : n < 2 ^ 33) : rawHeight n ≤ 1 := by
  have hquarter : n / 4 < 2 ^ 31 := by omega
  have hexact (m : ℕ) (hm : m < 2 ^ 31) : Json.toInt32 (m : ℤ) = m := by
    unfold Json.toInt32
    omega
  unfold rawHeight rawWidth
  rw [hexact _ hquarter]
  dsimp only
  by_cases hzero : n / 4 = 0
  · rw [hzero]
    decide
  · have hne : ((n / 4 : ℕ) : ℤ) ≠ 0 := Int.natCast_ne_zero.2 hzero
    have hsize : toSize ((n / 4 : ℕ) : ℤ) = n / 4 := by
      unfold toSize
      omega
    rw [if_neg hne, hsize, Nat.div_self (Nat.pos_of_ne_zero hzero), hexact 1 (by norm_num)]
    rfl

theorem cloneRaw_rows {h w : ℤ} {data : Bytes} {m : Mat} (hm : cloneRaw h w data = .ok m) :
    m.rows = h.toNat := by
  unfold cloneRaw at hm
  split at hm
  · cases hm
  · split at hm
    · cases hm
      rfl
    · cases hm

/-- What a positive disparity says about the point and the images. -/
structure Found (imdecode : Bytes → Option DecodedImage) (left right : Bytes) (p : Point2D ℝ)
    (wr : ℤ) (k : ℕ) : Prop where
  most : k ≤ 128
  column : ((k + wr : ℤ) : ℝ) ≤ p.x + 1 / 2
  decoded : left.length < 2 ^ 33 → (imdecode left).isSome = true ∧ (imdecode right).isSome = true

theorem matchAt_shift {left right : Mat} {p : Point2D ℝ} {wr : ℤ} (hwr : 0 ≤ wr) {k : ℕ}
    (h : matchAt int32 left right p wr = .ok k) (hk : 0 < k) :
    k ≤ 128 ∧ ((k + wr : ℤ) : ℝ) ≤ p.x + 1 / 2 ∧ 3 ≤ left.rows := by
  obtain ⟨hmost, hleft, hrows⟩ := templateMatch_shift h hk
  exact ⟨hmost, clampTo_real (by omega) (by omega : (k : ℤ) + wr ≤ clampTo left.cols p.x), hrows⟩

theorem calculateDisparity_found {imdecode : Bytes → Option DecodedImage} {left right : Bytes}
    {p : Point2D ℝ} {wr : ℤ} (hwr : 0 ≤ wr) {k : ℕ}
    (h : calculateDisparity int32 imdecode left right p wr = .ok k) (hk : 0 < k) :
    Found imdecode left right p wr k := by
  unfold calculateDisparity at h
  split at h
  · cases h
    exact absurd hk (lt_irrefl 0)
  · split at h
    · rename_i l r hl hr
      obtain ⟨hmost, hcolumn, -⟩ := matchAt_shift hwr h hk
      exact ⟨hmost, hcolumn, fun _ => ⟨by rw [hl]; rfl, by rw [hr]; rfl⟩⟩
    · split at h
      · cases h
        exact absurd hk (lt_irrefl 0)
      · obtain ⟨l, hl, h⟩ := bind_ok h
        obtain ⟨r, -, h⟩ := bind_ok h
        obtain ⟨hmost, hcolumn, hrows⟩ := matchAt_shift hwr h hk
        refine ⟨hmost, hcolumn, ?_⟩
        intro hshort
        have hone := rawHeight_le_one hshort
        rw [cloneRaw_rows hl] at hrows
        omega

end DisparityCalculator

namespace GapPipeline
open DisparityCalculator GapDistance

/-- The disparities are those of the matcher with its default radius, which reads inside both
images at every point. -/
def Matches (imdecode : Bytes → Option DecodedImage) (v : StereoVision ℝ) (left right : Bytes) :
    Prop :=
  ∀ p, ∃ k : ℕ, calculateDisparity int32 imdecode left right p 15 = .ok k ∧
    v.disparity left right p = k

noncomputable def depthOf (baseline focal : ℝ) (k : ℕ) : ℝ := baseline * focal / k

/-- A shift of `k` pixels with the midpoint at `x`: the window of radius 15 around it is
still in the right image. -/
structure ShiftAt (x : ℝ) (k : ℕ) : Prop where
  pos : 1 ≤ k
  most : k ≤ 128
  column : (k : ℝ) + 15 ≤ x + 1 / 2

/-- The distances that a result can hold: none, or the depth of a whole shift. -/
structure Resolved (imdecode : Bytes → Option DecodedImage) (left right : Bytes)
    (baseline focal : ℝ) (r : GapFindings ℝ) : Prop where
  shifts : ∀ info ∈ r.gapLines, info.gapDistanceMm = 0 ∨
    ∃ k, ShiftAt ((info.upX + info.dnX) / 2) k ∧ info.gapDistanceMm = depthOf baseline focal k
  decoded : imdecode left = none ∨ imdecode right = none → left.length < 2 ^ 33 →
    ∀ info ∈ r.gapLines, info.gapDistanceMm = 0
  reported : r.gapDistanceMm = 0 ∨ ∃ info ∈ r.gapLines, info.gapDistanceMm = r.gapDistanceMm
  least : r.gapDistanceMm = 0 ∨ depthOf baseline focal 128 ≤ r.gapDistanceMm
  apart : ∀ a ∈ r.gapLines, ∀ b ∈ r.gapLines, a.gapDistanceMm < b.gapDistanceMm →
    baseline * focal / (127 * 128) ≤ b.gapDistanceMm - a.gapDistanceMm

variable {imdecode : Bytes → Option DecodedImage} {v : StereoVision ℝ} {left right : Bytes}
  {baseline focal : ℝ} {cfg : PostprocessConfig ℝ}

theorem fromDisparity_shift (baseline focal : ℝ) (k : ℕ) :
    (GapDistance.new.init baseline focal).fromDisparity (k : ℝ) =
      if k = 0 ∨ focal < 0.1 then 0 else depthOf baseline focal k := by
  have hoffset : ¬ (0 < (GapDistance.new.init baseline focal).calculateDistance (k : ℝ) ∧
      (GapDistance.new.init baseline focal).offsetMm ≠ 0) := fun h => h.2 rfl
  rw [fromDisparity, if_neg hoffset, calculateDistance]
  by_cases hk : k = 0
  · rw [if_pos (by rw [hk]; norm_num), if_pos (.inl hk)]
  · have hone : (1 : ℝ) ≤ k := Nat.one_le_cast.2 (Nat.one_le_iff_ne_zero.2 hk)
    rw [if_neg (by norm_num; linarith)]
    by_cases hfocal : focal < 0.1
    · rw [if_pos (show (GapDistance.new.init baseline focal).focalLengthPx < 0.1 from hfocal),
        if_pos (.inr hfocal)]
    · rw [if_neg (show ¬ (GapDistance.new.init baseline focal).focalLengthPx < 0.1 from hfocal),
        if_neg (by simp [hk, hfocal])]
      rfl

theorem measure_shift (hv : Matches imdecode v left right) (line : GapLine ℝ)
    (hvalid : line.valid = true) :
    let d := measure v (GapDistance.new.init baseline focal) left right line
    d = 0 ∨ 0.1 ≤ focal ∧ ∃ k, ShiftAt ((line.upPoint.x + line.dnPoint.x) / 2) k ∧
      d = depthOf baseline focal k ∧
      (left.length < 2 ^ 33 → (imdecode left).isSome = true ∧ (imdecode right).isSome = true) := by
  intro d
  by_cases hempty : left = [] ∨ right = []
  · exact .inl (if_pos hempty)
  · obtain ⟨k, hk, hdisparity⟩ := hv (GapDistance.midpoint line)
    have hd : d = if k = 0 ∨ focal < 0.1 then 0 else depthOf baseline focal k := by
      rw [← fromDisparity_shift, ← hdisparity]
      change (if left = [] ∨ right = [] then 0 else _) = _
      rw [if_neg hempty, calculate, if_neg (by simp [hvalid])]
    by_cases hnone : k = 0 ∨ focal < 0.1
    · exact .inl (hd.trans (if_pos hnone))
    · obtain ⟨hpos, hfocal⟩ := not_or.1 hnone
      have hfound := calculateDisparity_found (by norm_num) hk (Nat.pos_of_ne_zero hpos)
      have hcolumn := hfound.column
      refine .inr ⟨not_lt.1 hfocal, k, ⟨Nat.pos_of_ne_zero hpos, hfound.most, ?_⟩,
        hd.trans (if_neg hnone), hfound.decoded⟩
      have htwo : (2.0 : ℝ) = 2 := by norm_num
      rw [GapDistance.midpoint, htwo] at hcolumn
      push_cast at hcolumn
      exact hcolumn

theorem depthOf_le {j k : ℕ} (hpos : 0 < baseline * focal) (hj : 1 ≤ j) (hjk : j ≤ k) :
    depthOf baseline focal k ≤ depthOf baseline focal j :=
  div_le_div_of_nonneg_left hpos.le (Nat.cast_pos.2 hj) (Nat.cast_le.2 hjk)

theorem depthOf_apart {j k : ℕ} (hpos : 0 < baseline * focal) (hj : 1 ≤ j) (hk : 1 ≤ k)
    (hk128 : k ≤ 128) (hlt : depthOf baseline focal k < depthOf baseline focal j) :
    baseline * focal / (127 * 128) ≤ depthOf baseline focal j - depthOf baseline focal k := by
  have hjk : j < k := by
    by_contra hle
    exact absurd (depthOf_le hpos hk (not_lt.1 hle)) (not_le.2 hlt)
  have hj0 : (0 : ℝ) < j := Nat.cast_pos.2 hj
  have hk0 : (0 : ℝ) < k := Nat.cast_pos.2 hk
  have hgap : (1 : ℝ) ≤ k - j := by
    have hsucc : ((j + 1 : ℕ) : ℝ) ≤ k := Nat.cast_le.2 hjk
    push_cast at hsucc
    linarith
  have hprod : (j : ℝ) * k ≤ 127 * 128 := by
    have hnat : j * k ≤ 127 * 128 := Nat.mul_le_mul (by omega) hk128
    exact_mod_cast hnat
  have hdiff : depthOf baseline focal j - depthOf baseline focal k =
      baseline * focal * (k - j) / (j * k) := by
    unfold depthOf
    field_simp
  rw [hdiff]
  calc baseline * focal / (127 * 128) ≤ baseline * focal / (j * k) :=
        div_le_div_of_nonneg_left hpos.le (mul_pos hj0 hk0) hprod
    _ ≤ baseline * focal * (k - j) / (j * k) :=
        div_le_div_of_nonneg_right (le_mul_of_one_le_right hpos.le hgap) (mul_pos hj0 hk0).le

def OfShift (baseline focal d : ℝ) : Prop :=
  d = 0 ∨ 0 < baseline * focal ∧ ∃ k, 1 ≤ k ∧ k ≤ 128 ∧ d = depthOf baseline focal k

theorem OfShift.least {d : ℝ} (h : OfShift baseline focal d) :
    d = 0 ∨ depthOf baseline focal 128 ≤ d := by
  rcases h with h | ⟨hpos, k, hk, hk128, rfl⟩
  · exact .inl h
  · exact .inr (depthOf_le hpos hk hk128)

theorem OfShift.apart {d e : ℝ} (hd : OfShift baseline focal d) (he : OfShift baseline focal e)
    (hlt : d < e) : baseline * focal / (127 * 128) ≤ e - d := by
  rcases he with rfl | ⟨hpos, j, hj, hj128, rfl⟩
  · rcases hd with rfl | ⟨hpos, k, hk, -, rfl⟩
    · exact absurd hlt (lt_irrefl 0)
    · exact absurd hlt (not_lt.2 (div_nonneg hpos.le (Nat.cast_nonneg k)))
  · rcases hd with rfl | ⟨-, k, hk, hk128, rfl⟩
    · have hleast := depthOf_le hpos hj hj128
      rw [sub_zero]
      refine le_trans ?_ hleast
      exact div_le_div_of_nonneg_left hpos.le (by norm_num) (by norm_num)
    · exact depthOf_apart hpos hj hk hk128 hlt

theorem reported_of_pipeline (v : StereoVision ℝ) (g : GapDistance ℝ) (cfg : PostprocessConfig ℝ)
    (extracted : ExtractedDetections ℝ) (taskId : String) (left right : Bytes) (height : ℕ) :
    let r := runGapPipeline v g cfg extracted taskId left right height
    r.gapDistanceMm = 0 ∨ ∃ info ∈ r.gapLines, info.gapDistanceMm = r.gapDistanceMm := by
  intro r
  have hlargest : IsLargest r.gapDistanceMm (r.gapLines.map GapLineInfo.gapDistanceMm) := by
    subst r
    unfold runGapPipeline
    dsimp only
    generalize (if taskId = "T2" ∧ extracted.upCleats = [] then extracted.riserCleats
      else extracted.upCleats) = upCleats
    split
    · have hnone : SoundResult height (measure v g left right) cfg extracted taskId
          PostprocessModule.noGap := soundResult_noGap extracted taskId
      exact hnone.largest
    · exact (soundResult_gapLines (fun _ _ _ => lt_trans) v extracted taskId _ rfl).largest
  rcases hlargest.2.2 with h | h
  · exact .inl h
  · exact .inr (List.mem_map.1 h)

/-- For every input of the pipeline, over the reals, with the offset that the program leaves
at its initial value. -/
theorem runGapPipeline_resolved (hv : Matches imdecode v left right) (hbaseline : 0 < baseline)
    (cfg : PostprocessConfig ℝ) (extracted : ExtractedDetections ℝ) (taskId : String)
    (height : ℕ) :
    Resolved imdecode left right baseline focal (runGapPipeline v
      (GapDistance.new.init baseline focal) cfg extracted taskId left right height) := by
  have hkept := runGapPipeline_kept v (GapDistance.new.init baseline focal) cfg extracted taskId
    left right height
  have hreported := reported_of_pipeline v (GapDistance.new.init baseline focal) cfg extracted
    taskId left right height
  generalize runGapPipeline v (GapDistance.new.init baseline focal) cfg extracted taskId left right
    height = r at hkept hreported
  have hinfo : ∀ info ∈ r.gapLines, info.gapDistanceMm = 0 ∨ 0.1 ≤ focal ∧
      ∃ k, ShiftAt ((info.upX + info.dnX) / 2) k ∧
        info.gapDistanceMm = depthOf baseline focal k ∧ (left.length < 2 ^ 33 →
          (imdecode left).isSome = true ∧ (imdecode right).isSome = true) := by
    intro info hinfo
    obtain ⟨up, line, hvalid, -, rfl⟩ := hkept info hinfo
    exact measure_shift hv line hvalid
  have hshift : ∀ info ∈ r.gapLines, OfShift baseline focal info.gapDistanceMm := by
    intro info hmem
    rcases hinfo info hmem with h | ⟨hfocal, k, hk, hd, -⟩
    · exact .inl h
    · exact .inr ⟨mul_pos hbaseline (lt_of_lt_of_le (by norm_num) hfocal), k, hk.pos, hk.most, hd⟩
  refine ⟨?_, ?_, hreported, ?_, ?_⟩
  · intro info hmem
    exact (hinfo info hmem).imp_right fun ⟨_, k, hk, hd, _⟩ => ⟨k, hk, hd⟩
  · intro hundecoded hshort info hmem
    rcases hinfo info hmem with h | ⟨-, k, -, -, hdecoded⟩
    · exact h
    · obtain ⟨hl, hr⟩ := hdecoded hshort
      rcases hundecoded with h | h
      · rw [h] at hl
        cases hl
      · rw [h] at hr
        cases hr
  · rcases hreported with h | ⟨info, hmem, h⟩
    · exact .inl h
    · rw [← h]
      exact (hshift info hmem).least
  · intro a ha b hb hlt
    exact (hshift a ha).apart (hshift b hb) hlt

noncomputable def withMatcher (imdecode : Bytes → Option DecodedImage) (v : StereoVision ℝ) :
    StereoVision ℝ :=
  { v with
    disparity := fun left right p =>
      match calculateDisparity int32 imdecode left right p 15 with
      | .ok k => k
      | .error _ => 0 }

theorem clampTo_bounds {length : ℕ} (hpos : 0 < length) (x : ℝ) :
    0 ≤ clampTo length x ∧ clampTo length x < length := by
  unfold clampTo
  omega

/-- Two decoded images of one size with four channels, of at most 4096 by 4096 pixels. -/
theorem matches_withMatcher {l r : DecodedImage} (hleft : imdecode left = some l)
    (hright : imdecode right = some r) (hne : left ≠ [] ∧ right ≠ []) (hl : l.channels = 4)
    (hr : r.channels = 4) (hcols : r.cols = l.cols) (hrows : r.rows = l.rows)
    (hwide : l.cols ≤ 4096) (hhigh : l.rows ≤ 4096) (v : StereoVision ℝ) :
    Matches imdecode (withMatcher imdecode v) left right := by
  intro p
  have hmatch : calculateDisparity int32 imdecode left right p 15 =
      matchAt int32 l.toMat r.toMat p 15 := by
    rw [calculateDisparity, if_neg (not_or.2 hne), hleft, hright]
  have hlf : FourChannel l.toMat l.cols l.rows := ⟨rfl, rfl, hl ▸ l.size⟩
  have hrf : FourChannel r.toMat l.cols l.rows :=
    ⟨hcols, hrows, by rw [r.size, hcols, hrows, hr]⟩
  have hx := clampTo_bounds l.cols_pos p.x
  have hy := clampTo_bounds l.rows_pos p.y
  have harea : l.rows * l.cols ≤ 4096 * 4096 := Nat.mul_le_mul hhigh hwide
  have hfit : IntsFit l.cols l.rows (clampTo l.cols p.x) (clampTo l.rows p.y) 15 := by
    refine ⟨?_, ?_, ?_, ?_, ?_⟩
    all_goals
      unfold FitsInt
      omega
  obtain ⟨k, hk⟩ : ∃ k, templateMatch int32 l.toMat r.toMat (clampTo l.cols p.x)
      (clampTo l.rows p.y) 15 = .ok k := by
    by_cases hsmall : (windowOf l.cols l.rows (clampTo l.cols p.x) (clampTo l.rows p.y) 15).x1 -
        (windowOf l.cols l.rows (clampTo l.cols p.x) (clampTo l.rows p.y) 15).x0 < 3 ∨
        (windowOf l.cols l.rows (clampTo l.cols p.x) (clampTo l.rows p.y) 15).y1 -
        (windowOf l.cols l.rows (clampTo l.cols p.x) (clampTo l.rows p.y) 15).y0 < 3
    · refine ⟨0, ?_⟩
      have hsides : FitsInt ((windowOf l.cols l.rows (clampTo l.cols p.x)
          (clampTo l.rows p.y) 15).x1 - (windowOf l.cols l.rows (clampTo l.cols p.x)
          (clampTo l.rows p.y) 15).x0) ∧ FitsInt ((windowOf l.cols l.rows (clampTo l.cols p.x)
          (clampTo l.rows p.y) 15).y1 - (windowOf l.cols l.rows (clampTo l.cols p.x)
          (clampTo l.rows p.y) 15).y0) := by
        unfold FitsInt windowOf
        dsimp only
        omega
      rw [templateMatch, clipWindow_int32 hfit]
      simp only [bind, Except.bind, int32, hsides.1, hsides.2, if_true]
      exact if_pos hsmall
    · obtain ⟨hwx, hwy⟩ := not_or.1 hsmall
      obtain ⟨d, hd, -⟩ := templateMatch_firstBest hlf hrf (clipWindow_int32 hfit)
        (exactOn_int32 ⟨by norm_num, by norm_num⟩ hfit.size) (not_lt.1 hwx) (not_lt.1 hwy)
      exact ⟨d, hd⟩
  have hdisparity : calculateDisparity int32 imdecode left right p 15 = .ok k := hmatch.trans hk
  refine ⟨k, hdisparity, ?_⟩
  simp only [withMatcher, hdisparity]

def stripesOnly : Bytes → Option DecodedImage := fun data =>
  if data = [1] then some (stripes 0) else if data = [2] then some (stripes 1) else none

theorem runGapPipeline_resolved_stripes :
    ∃ v, Matches stripesOnly v [1] [2] ∧ ∀ cfg extracted taskId height,
      Resolved stripesOnly [1] [2] 120 1000 (runGapPipeline v
        (GapDistance.new.init 120 1000) cfg extracted taskId [1] [2] height) := by
  have hleft : stripesOnly [1] = some (stripes 0) := rfl
  have hright : stripesOnly [2] = some (stripes 1) := rfl
  have hv : Matches stripesOnly (withMatcher stripesOnly GapDistance.shiftedVision) [1] [2] :=
    matches_withMatcher hleft hright (by decide) rfl rfl rfl rfl (by decide) (by decide) _
  exact ⟨_, hv, fun cfg extracted taskId height =>
    runGapPipeline_resolved hv (by norm_num) cfg extracted taskId height⟩

end GapPipeline
end EcidsCore
