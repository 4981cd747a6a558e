import EcidsCore.PerpendicularWalk

set_option autoImplicit false

/-! What the gap distance measures: the distance of the point halfway between the edges, by
its disparity, whatever the length of the line. -/
namespace EcidsCore.GapDistance
open GapLocalizer BoundedMarch

def Located (line : GapLine ℝ) : Prop :=
  ∃ up dn cleats, line ∈ locateUpGapLines up dn cleats ∨ line ∈ locateDownGapLines up dn cleats

/-- Of the lines with the midpoint `m`, a longer one has the larger distance, and one
whose end points coincide has none. -/
structure MeasuresLength (v : StereoVision ℝ) (left right : Bytes) (g : GapDistance ℝ)
    (m : Point2D ℝ) : Prop where
  increasing : ∀ a b, Located a → Located b → midpoint a = m → midpoint b = m →
    a.lengthPx < b.lengthPx → g.calculate v left right a < g.calculate v left right b
  zero : ∀ a : GapLine ℝ, a.valid = true → midpoint a = m → a.upPoint = a.dnPoint →
    g.calculate v left right a = 0

theorem calculate_of_valid {line : GapLine ℝ} (h : line.valid = true) (v : StereoVision ℝ)
    (left right : Bytes) (g : GapDistance ℝ) :
    g.calculate v left right line = g.fromDisparity (v.disparity left right (midpoint line)) := by
  rw [calculate, if_neg (by simp [h])]

theorem calculate_eq {v : StereoVision ℝ} {left right : Bytes} {g : GapDistance ℝ}
    {line : GapLine ℝ} (hvalid : line.valid = true) (hoffset : g.offsetMm = 0)
    (hfocal : (0.1 : ℝ) ≤ g.focalLengthPx)
    (hdisparity : (0.1 : ℝ) ≤ v.disparity left right (midpoint line)) :
    g.calculate v left right line =
      g.baselineMm * g.focalLengthPx / v.disparity left right (midpoint line) := by
  have hnone : ¬ (0 < g.calculateDistance (v.disparity left right (midpoint line)) ∧
      g.offsetMm ≠ 0) := fun h => h.2 hoffset
  rw [calculate_of_valid hvalid, fromDisparity, if_neg hnone, calculateDistance,
    if_neg (not_lt.2 hdisparity), if_neg (not_lt.2 hfocal)]

theorem exists_located (m : Point2D ℝ) {k : ℕ} (hpos : 0 < k) (hk : k ≤ 10000) :
    ∃ line, Located line ∧ line.valid = true ∧ midpoint line = m ∧ line.lengthPx = k := by
  have hwalked : List.Forall₂ (Walked (levelEdge (m.y - k / 2)) (levelEdge (m.y - k / 2 + k)))
      [cleatAbove m.x] (locateUpGapLines (levelEdge (m.y - k / 2))
        (levelEdge (m.y - k / 2 + k)) [cleatAbove m.x]) :=
    locateLines_walked .upGap rfl rfl [cleatAbove m.x]
  cases hlines : locateUpGapLines (levelEdge (m.y - k / 2)) (levelEdge (m.y - k / 2 + k))
      [cleatAbove m.x] with
  | nil =>
    rw [hlines] at hwalked
    cases hwalked
  | cons line rest =>
    rw [hlines] at hwalked
    cases hwalked with
    | cons h _ =>
      have hsteps := stepsOf_level (m.y - k / 2) hpos hk (cleatAbove m.x)
      have hup : line.upPoint = ⟨m.x, m.y - k / 2⟩ := by
        rw [h.upPoint]
        simp [startOf, levelEdge, cleatAbove]
      have hx := h.dnX
      have hy := h.dnY
      rw [hsteps, normalOf_level, hup] at hx hy
      refine ⟨line, ⟨_, _, _, .inl (hlines ▸ List.mem_cons_self)⟩, h.valid, ?_, ?_⟩
      · have hmx : (line.upPoint.x + line.dnPoint.x) / (2.0 : ℝ) = m.x := by
          rw [hx, hup]
          norm_num
        have hmy : (line.upPoint.y + line.dnPoint.y) / (2.0 : ℝ) = m.y := by
          rw [hy, hup]
          norm_num
          ring
        exact congrArg₂ Point2D.mk hmx hmy
      · rw [h.lengthPx, hsteps]

/-- Two lines with one midpoint and one distance, the second twice as long. -/
theorem exists_longer (v : StereoVision ℝ) (left right : Bytes) (g : GapDistance ℝ)
    (m : Point2D ℝ) : ∃ a b, (Located a ∧ Located b) ∧ (midpoint a = m ∧ midpoint b = m) ∧
      a.lengthPx < b.lengthPx ∧ g.calculate v left right a = g.calculate v left right b := by
  obtain ⟨a, ha, hav, ham, hal⟩ := exists_located m (k := 1) (by decide) (by decide)
  obtain ⟨b, hb, hbv, hbm, hbl⟩ := exists_located m (k := 2) (by decide) (by decide)
  refine ⟨a, b, ⟨ha, hb⟩, ⟨ham, hbm⟩, ?_, ?_⟩
  · rw [hal, hbl]
    norm_num
  · rw [calculate_of_valid hav, calculate_of_valid hbv, ham, hbm]

/-- For no images, settings and midpoint does the distance grow with the length. -/
theorem not_measuresLength (v : StereoVision ℝ) (left right : Bytes) (g : GapDistance ℝ)
    (m : Point2D ℝ) : ¬ MeasuresLength v left right g m := by
  intro h
  obtain ⟨a, b, ⟨ha, hb⟩, ⟨ham, hbm⟩, hlonger, hsame⟩ := exists_longer v left right g m
  have hlt := h.increasing a b ha hb ham hbm hlonger
  rw [hsame] at hlt
  exact lt_irrefl _ hlt

noncomputable def shiftedVision : StereoVision ℝ where
  decodedRows _ := none
  disparity _ _ _ := 20
  picksUpLong k := (k, k + 1)
  picksUpShort k := (k, k + 1)
  picksDnLong k := (k, k + 1)
  picksDnShort k := (k, k + 1)
  annotate left _ _ := left
  annotateAiOnly left _ := left

/-- A baseline of 120 mm and a focal length of 1000 pixels: six metres for lines of two
lengths, and for one whose end points coincide. -/
theorem measuresLength_fails_at_six_metres :
    let g : GapDistance ℝ := ⟨120, 1000, 0, 0⟩
    let m : Point2D ℝ := ⟨960, 600⟩
    (∃ a b, (Located a ∧ Located b) ∧ (midpoint a = m ∧ midpoint b = m) ∧
      a.lengthPx < b.lengthPx ∧
        g.calculate shiftedVision [1] [1] a = g.calculate shiftedVision [1] [1] b) ∧
    g.calculate shiftedVision [1] [1] ⟨m, m, 0, .upGap, true⟩ = 6000 := by
  refine ⟨exists_longer _ _ _ _ _, ?_⟩
  rw [calculate_eq rfl rfl (by norm_num) (by norm_num [shiftedVision])]
  norm_num [shiftedVision]

end EcidsCore.GapDistance
