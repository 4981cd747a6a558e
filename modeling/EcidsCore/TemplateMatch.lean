import EcidsCore.DisparityCalculator
import EcidsCore.RunningExtreme
import Mathlib.Algebra.BigOperators.Group.Finset.Sigma
import Mathlib.Algebra.Order.BigOperators.Group.Finset

set_option autoImplicit false

/-! What the matcher returns for two images of one size with four channels. -/
namespace EcidsCore.DisparityCalculator
open ExceptRules FirstMinimum

/-- The arithmetic gives the exact value in this range. -/
def ExactOn (int : IntArith) (lo hi : ℤ) : Prop := ∀ z, lo ≤ z → z ≤ hi → int z = .ok z

theorem exactOn_exactInt (lo hi : ℤ) : ExactOn exactInt lo hi := fun _ _ _ => rfl

theorem exactOn_int32 {lo hi : ℤ} (hlo : FitsInt lo) (hhi : FitsInt hi) :
    ExactOn int32 lo hi := by
  intro z hz hz'
  exact if_pos ⟨hlo.1.trans hz, hz'.trans_lt hhi.2⟩

def colour (m : Mat) (y x c : ℕ) : ℤ := (m.data.getD ((y * m.cols + x) * 4 + c) 0).toNat

def colourDifference (left right : Mat) (y x x' : ℕ) : ℕ :=
  ∑ c ∈ Finset.range 3, (colour left y x c - colour right y x' c).natAbs

/-- The mean over the window of the left image, against the right one shifted by `d`. -/
def meanDifference (left right : Mat) (w : Window) (d : ℕ) : ℚ :=
  (∑ y ∈ Finset.range (w.y1 - w.y0).toNat, ∑ x ∈ Finset.range (w.x1 - w.x0).toNat,
    colourDifference left right (w.y0.toNat + y) (w.x0.toNat + x) (w.x0.toNat + x - d) : ℕ) /
    ((w.y1 - w.y0).toNat * (w.x1 - w.x0).toNat : ℕ)

/-- The right image has the colours of the window `d` pixels further left. -/
def Reproduces (left right : Mat) (w : Window) (d : ℕ) : Prop :=
  ∀ y < (w.y1 - w.y0).toNat, ∀ x < (w.x1 - w.x0).toNat, ∀ c < 3,
    colour left (w.y0.toNat + y) (w.x0.toNat + x) c =
      colour right (w.y0.toNat + y) (w.x0.toNat + x - d) c

/-- The window is not empty and lies in an image of this size. -/
structure WindowIn (w : Window) (cols rows : ℕ) : Prop where
  left : 0 ≤ w.x0
  top : 0 ≤ w.y0
  right : w.x1 ≤ cols
  bottom : w.y1 ≤ rows

theorem windowIn_windowOf (cols rows : ℕ) (px py wr : ℤ) :
    WindowIn (windowOf cols rows px py wr) cols rows :=
  ⟨le_max_left _ _, le_max_left _ _, min_le_left _ _, min_le_left _ _⟩

theorem pixel_lt {y x rows cols : ℕ} (hy : y < rows) (hx : x < cols) :
    y * cols + x < rows * cols :=
  calc y * cols + x < y * cols + cols := Nat.add_lt_add_left hx _
    _ = (y + 1) * cols := (Nat.succ_mul y cols).symm
    _ ≤ rows * cols := Nat.mul_le_mul_right cols hy

theorem read_natCast {data : Bytes} {i : ℕ} (h : i < data.length) :
    read data i = .ok (data.getD i 0).toNat := by
  have hin : 0 ≤ (i : ℤ) ∧ (i : ℤ).toNat < data.length := ⟨Int.natCast_nonneg i, h⟩
  rw [read, dif_pos hin, List.getD_eq_getElem?_getD, List.getElem?_eq_getElem h]
  rfl

theorem channelDifference_natCast {left right : Bytes} {i j : ℕ} (hi : i < left.length)
    (hj : j < right.length) : channelDifference left right i j =
      .ok (((left.getD i 0).toNat : ℤ) - (right.getD j 0).toNat).natAbs := by
  rw [channelDifference, read_natCast hi, read_natCast hj]
  rfl

theorem pixelDifference_eq (left right : Mat) {y x y' x' : ℕ}
    (hl : (y * left.cols + x) * 4 + 2 < left.data.length)
    (hr : (y' * right.cols + x') * 4 + 2 < right.data.length) :
    pixelDifference left.data right.data (((y * left.cols + x) * 4 : ℕ) : ℤ)
        (((y' * right.cols + x') * 4 : ℕ) : ℤ) =
      .ok (∑ c ∈ Finset.range 3, (colour left y x c - colour right y' x' c).natAbs) := by
  have hone (i : ℕ) : ((i : ℕ) : ℤ) + 1 = ((i + 1 : ℕ) : ℤ) := (Nat.cast_succ i).symm
  have htwo (i : ℕ) : ((i : ℕ) : ℤ) + 2 = ((i + 2 : ℕ) : ℤ) := (Nat.cast_add i 2).symm
  rw [pixelDifference, hone, hone, htwo, htwo,
    channelDifference_natCast (Nat.lt_of_le_of_lt (Nat.le_add_right _ 2) hl)
      (Nat.lt_of_le_of_lt (Nat.le_add_right _ 2) hr),
    channelDifference_natCast (Nat.lt_of_succ_lt hl) (Nat.lt_of_succ_lt hr),
    channelDifference_natCast hl hr]
  simp only [Finset.sum_range_succ, Finset.sum_range_zero, zero_add]
  rfl

section equal
variable {int : IntArith} {left right : Mat} {w : Window} {cols rows : ℕ}

structure FourChannel (m : Mat) (cols rows : ℕ) : Prop where
  cols_eq : m.cols = cols
  rows_eq : m.rows = rows
  length : m.data.length = rows * cols * 4

/-- No sample of the window is skipped. -/
theorem sampleDifference_eq (hint : ExactOn int 0 (rows * cols * 4 : ℕ))
    (hl : FourChannel left cols rows) (hr : FourChannel right cols rows)
    (hw : WindowIn w cols rows) {d : ℕ} (hd : (d : ℤ) ≤ w.x0) {p : ℕ × ℕ} (hp : p ∈ samples w) :
    sampleDifference int left right w d p = .ok (some (colourDifference left right
      (w.y0.toNat + p.1) (w.x0.toNat + p.2) (w.x0.toNat + p.2 - d))) := by
  obtain ⟨hpy, hpx⟩ := mem_samples.1 hp
  have hleft := hw.left
  have htop := hw.top
  have hright := hw.right
  have hbottom := hw.bottom
  have hY : w.y0 + p.1 = ((w.y0.toNat + p.1 : ℕ) : ℤ) := by omega
  have hX : w.x0 + p.2 = ((w.x0.toNat + p.2 : ℕ) : ℤ) := by omega
  have hX' : w.x0 + p.2 - d = ((w.x0.toNat + p.2 - d : ℕ) : ℤ) := by omega
  have hYlt : w.y0.toNat + p.1 < rows := by omega
  have hXlt : w.x0.toNat + p.2 < cols := by omega
  have hXlt' : w.x0.toNat + p.2 - d < cols := by omega
  rw [sampleDifference, hX', hY, hX, hl.cols_eq, hr.cols_eq, hr.rows_eq]
  have hq := pixel_lt hYlt hXlt
  have hq' := pixel_lt hYlt hXlt'
  have hpixel := pixelDifference_eq left right
    (show ((w.y0.toNat + p.1) * left.cols + (w.x0.toNat + p.2)) * 4 + 2 < left.data.length by
      rw [hl.cols_eq, hl.length]
      omega)
    (show ((w.y0.toNat + p.1) * right.cols + (w.x0.toNat + p.2 - d)) * 4 + 2 <
        right.data.length by
      rw [hr.cols_eq, hr.length]
      omega)
  rw [hl.cols_eq, hr.cols_eq] at hpixel
  generalize w.y0.toNat + p.1 = y at *
  generalize w.x0.toNat + p.2 = x at *
  generalize x - d = x' at *
  have hli : ((y : ℤ) * cols + x) * 4 = ((y * cols + x) * 4 : ℕ) := by push_cast; ring
  have hri : ((y : ℤ) * cols + x') * 4 = ((y * cols + x') * 4 : ℕ) := by push_cast; ring
  have hlast : (((y * cols + x') * 4 : ℕ) : ℤ) + 3 = ((y * cols + x') * 4 + 3 : ℕ) := rfl
  have hsize : (cols : ℤ) * rows * 4 = ((rows * cols * 4 : ℕ) : ℤ) := by push_cast; ring
  have hin : ¬ ((((y * cols + x') * 4 : ℕ) : ℤ) < 0 ∨
      ((rows * cols * 4 : ℕ) : ℤ) ≤ (((y * cols + x') * 4 : ℕ) : ℤ) + 3) := by omega
  rw [hli, hri, hsize, hint (((y * cols + x) * 4 : ℕ) : ℤ) (by omega) (by omega),
    hint (((y * cols + x') * 4 : ℕ) : ℤ) (by omega) (by omega),
    hint ((rows * cols * 4 : ℕ) : ℤ) (by omega) (by omega)]
  simp only [bind, Except.bind]
  rw [hint ((((y * cols + x') * 4 : ℕ) : ℤ) + 3) (by omega) (by omega)]
  simp only [hin, if_false, hpixel]
  rfl

theorem foldl_addSample (v : ℕ × ℕ → ℕ) (l : List (ℕ × ℕ)) (s : ℕ × ℕ) :
    l.foldl (fun s p => addSample s (some (v p))) s =
      (s.1 + (l.map v).sum, s.2 + l.length) := by
  induction l generalizing s with
  | nil => rfl
  | cons p l ih =>
    rw [List.foldl_cons, ih, List.map_cons, List.sum_cons, List.length_cons]
    exact Prod.ext (Nat.add_assoc _ _ _) (Nat.add_right_comm _ _ _)

theorem sum_map_range (v : ℕ → ℕ) (n : ℕ) :
    ((List.range n).map v).sum = ∑ i ∈ Finset.range n, v i := by
  rfl

theorem sum_samples (w : Window) (v : ℕ × ℕ → ℕ) : ((samples w).map v).sum =
    ∑ y ∈ Finset.range (w.y1 - w.y0).toNat, ∑ x ∈ Finset.range (w.x1 - w.x0).toNat, v (y, x) := by
  simp only [samples, List.flatMap_def, List.map_flatten, List.sum_flatten, List.map_map,
    sum_map_range]
  refine Finset.sum_congr rfl ?_
  intro y _
  simp only [Function.comp_apply, List.map_map]
  exact sum_map_range (v ∘ fun x => (y, x)) _

theorem length_samples (w : Window) :
    (samples w).length = (w.y1 - w.y0).toNat * (w.x1 - w.x0).toNat := by
  simp [samples, List.length_flatMap]

theorem shiftDifference_eq (hint : ExactOn int 0 (rows * cols * 4 : ℕ))
    (hl : FourChannel left cols rows) (hr : FourChannel right cols rows)
    (hw : WindowIn w cols rows) {d : ℕ} (hd : (d : ℤ) ≤ w.x0) :
    shiftDifference int left right w d = .ok
      (∑ y ∈ Finset.range (w.y1 - w.y0).toNat, ∑ x ∈ Finset.range (w.x1 - w.x0).toNat,
        colourDifference left right (w.y0.toNat + y) (w.x0.toNat + x) (w.x0.toNat + x - d),
      (w.y1 - w.y0).toNat * (w.x1 - w.x0).toNat) := by
  have hsample : ∀ p ∈ samples w, ∀ s : ℕ × ℕ, (do
      let x ← sampleDifference int left right w d p
      return addSample s x) = (.ok (addSample s (some (colourDifference left right
        (w.y0.toNat + p.1) (w.x0.toNat + p.2) (w.x0.toNat + p.2 - d)))) : Except ReadFault _) := by
    intro p hp s
    rw [sampleDifference_eq hint hl hr hw hd hp]
    rfl
  rw [shiftDifference, foldlM_ok hsample, foldl_addSample, sum_samples, length_samples]
  simp only [zero_add]

theorem shiftVisit_eq (hint : ExactOn int 0 (rows * cols * 4 : ℕ))
    (hl : FourChannel left cols rows) (hr : FourChannel right cols rows)
    (hw : WindowIn w cols rows) (hpos : 0 < (w.y1 - w.y0).toNat * (w.x1 - w.x0).toNat)
    {d : ℕ} (hd : (d : ℤ) ≤ w.x0) (best : ℚ × ℕ) :
    shiftVisit int left right w best d = .ok (visit (meanDifference left right w) best d) := by
  rw [shiftVisit, shiftDifference_eq hint hl hr hw hd]
  simp only [bind, Except.bind, pure, Except.pure, keepBest, visit, meanDifference, hpos, true_and]
  rfl

end equal

theorem colourDifference_le (left right : Mat) (y x x' : ℕ) :
    colourDifference left right y x x' ≤ 765 := by
  have hbyte (m : Mat) (y x c : ℕ) : 0 ≤ colour m y x c ∧ colour m y x c < 256 := by
    have hlt := (m.data.getD ((y * m.cols + x) * 4 + c) 0).toNat_lt
    unfold colour
    constructor <;> omega
  have hterm (c : ℕ) : (colour left y x c - colour right y x' c).natAbs ≤ 255 := by
    have hl := hbyte left y x c
    have hr := hbyte right y x' c
    omega
  calc colourDifference left right y x x' ≤ ∑ _c ∈ Finset.range 3, 255 :=
        Finset.sum_le_sum fun c _ => hterm c
    _ = 765 := rfl

theorem meanDifference_lt (left right : Mat) (w : Window) (d : ℕ) :
    meanDifference left right w d < 1e18 := by
  have hsum : (∑ y ∈ Finset.range (w.y1 - w.y0).toNat, ∑ x ∈ Finset.range (w.x1 - w.x0).toNat,
      colourDifference left right (w.y0.toNat + y) (w.x0.toNat + x) (w.x0.toNat + x - d)) ≤
      ∑ _y ∈ Finset.range (w.y1 - w.y0).toNat, ∑ _x ∈ Finset.range (w.x1 - w.x0).toNat, 765 :=
    Finset.sum_le_sum fun y _ => Finset.sum_le_sum fun x _ => colourDifference_le left right _ _ _
  simp only [Finset.sum_const, Finset.card_range, nsmul_eq_mul, Nat.cast_id] at hsum
  have hle : meanDifference left right w d ≤ 765 := by
    unfold meanDifference
    refine div_le_of_le_mul₀ (Nat.cast_nonneg _) (by norm_num) ?_
    rw [← Nat.cast_ofNat (R := ℚ) (n := 765), ← Nat.cast_mul]
    refine Nat.cast_le.2 (hsum.trans_eq ?_)
    ring
  exact hle.trans_lt (by norm_num)

theorem meanDifference_nonneg (left right : Mat) (w : Window) (d : ℕ) :
    0 ≤ meanDifference left right w d :=
  div_nonneg (Nat.cast_nonneg _) (Nat.cast_nonneg _)

theorem colourDifference_eq_zero {left right : Mat} {y x x' : ℕ} :
    colourDifference left right y x x' = 0 ↔
      ∀ c < 3, colour left y x c = colour right y x' c := by
  simp only [colourDifference, Finset.sum_eq_zero_iff, Finset.mem_range, Int.natAbs_eq_zero,
    sub_eq_zero]

theorem meanDifference_eq_zero {left right : Mat} {w : Window} {d : ℕ}
    (hpos : 0 < (w.y1 - w.y0).toNat * (w.x1 - w.x0).toNat) :
    meanDifference left right w d = 0 ↔ Reproduces left right w d := by
  have hne : (((w.y1 - w.y0).toNat * (w.x1 - w.x0).toNat : ℕ) : ℚ) ≠ 0 :=
    Nat.cast_ne_zero.2 hpos.ne'
  simp only [meanDifference, div_eq_zero_iff, hne, or_false, Nat.cast_eq_zero,
    Finset.sum_eq_zero_iff, Finset.mem_range, colourDifference_eq_zero, Reproduces]

/-- The first index up to `n` of a smallest value. -/
structure FirstBest (f : ℕ → ℚ) (n d : ℕ) : Prop where
  le : d ≤ n
  smallest : ∀ e ≤ n, f d ≤ f e
  first : ∀ e < d, f d < f e

theorem FirstBest.unique {f : ℕ → ℚ} {n d e : ℕ} (hd : FirstBest f n d)
    (he : FirstBest f n e) : d = e := by
  rcases Nat.lt_trichotomy d e with hlt | heq | hlt
  · exact absurd (hd.smallest e he.le) (not_le.2 (he.first d hlt))
  · exact heq
  · exact absurd (he.smallest d hd.le) (not_le.2 (hd.first e hlt))

/-- All integers of the matcher fit `int`. -/
structure IntsFit (cols rows : ℕ) (px py wr : ℤ) : Prop where
  left : FitsInt (px - wr)
  top : FitsInt (py - wr)
  right : FitsInt (px + wr + 1)
  bottom : FitsInt (py + wr + 1)
  size : FitsInt (rows * cols * 4 : ℕ)

theorem clipWindow_exact (lw lh : ℕ) (px py wr : ℤ) :
    clipWindow exactInt lw lh px py wr = .ok (windowOf lw lh px py wr) := rfl

theorem clipWindow_int32 {cols rows : ℕ} {px py wr : ℤ} (h : IntsFit cols rows px py wr) :
    clipWindow int32 cols rows px py wr = .ok (windowOf cols rows px py wr) := by
  simp only [clipWindow, int32, h.left, h.top, h.right, h.bottom, if_true]
  rfl

/-- For an arithmetic that is exact where the matcher needs it. -/
theorem templateMatch_firstBest {int : IntArith} {left right : Mat} {cols rows : ℕ}
    (hl : FourChannel left cols rows) (hr : FourChannel right cols rows) {px py wr : ℤ}
    (hclip : clipWindow int cols rows px py wr = .ok (windowOf cols rows px py wr))
    (hint : ExactOn int 0 (rows * cols * 4 : ℕ))
    (hx : 3 ≤ (windowOf cols rows px py wr).x1 - (windowOf cols rows px py wr).x0)
    (hy : 3 ≤ (windowOf cols rows px py wr).y1 - (windowOf cols rows px py wr).y0) :
    ∃ d, templateMatch int left right px py wr = .ok d ∧
      FirstBest (meanDifference left right (windowOf cols rows px py wr))
        (min (min 128 cols) (windowOf cols rows px py wr).x0.toNat) d := by
  have hw := windowIn_windowOf cols rows px py wr
  generalize windowOf cols rows px py wr = w at *
  have hpos : 0 < (w.y1 - w.y0).toNat * (w.x1 - w.x0).toNat :=
    Nat.mul_pos (by omega) (by omega)
  have hnot : ¬ (w.x1 - w.x0 < 3 ∨ w.y1 - w.y0 < 3) := by omega
  have hsides : int (w.x1 - w.x0) = .ok (w.x1 - w.x0) ∧ int (w.y1 - w.y0) = .ok (w.y1 - w.y0) := by
    have hleft := hw.left
    have htop := hw.top
    have hright := hw.right
    have hbottom := hw.bottom
    have hcols : cols ≤ rows * cols := Nat.le_mul_of_pos_left cols (by omega)
    have hrows : rows ≤ rows * cols := Nat.le_mul_of_pos_right rows (by omega)
    exact ⟨hint _ (by omega) (by omega), hint _ (by omega) (by omega)⟩
  obtain ⟨d, hd, hscan, hmin, hfirst⟩ := foldl_visit_range (meanDifference left right w) 0
    (n := min (min 128 cols) w.x0.toNat) fun i _ => meanDifference_lt left right w i
  have hvisit : ∀ d ∈ List.range (min (min 128 cols) w.x0.toNat + 1), ∀ best : ℚ × ℕ,
      shiftVisit int left right w best d = .ok (visit (meanDifference left right w) best d) := by
    intro d hd best
    have hd' := List.mem_range.1 hd
    have hleft := hw.left
    exact shiftVisit_eq hint hl hr hw hpos (by omega) best
  refine ⟨d, ?_, hd, hmin, hfirst⟩
  rw [templateMatch, hl.cols_eq, hl.rows_eq, hr.cols_eq, hclip]
  simp only [bind, Except.bind, hsides.1, hsides.2, hnot, if_false]
  rw [shiftLoop_range int left right w hw.left, foldlM_ok hvisit, hscan]
  rfl

/-- Two images of one size with four channels, and a window of at least 3 by 3 pixels. -/
theorem templateMatch_smallest_shift (left right : DecodedImage) (hl : left.channels = 4)
    (hr : right.channels = 4) (hcols : right.cols = left.cols) (hrows : right.rows = left.rows)
    (px py wr : ℤ)
    (hx : 3 ≤ (windowOf left.cols left.rows px py wr).x1 -
      (windowOf left.cols left.rows px py wr).x0)
    (hy : 3 ≤ (windowOf left.cols left.rows px py wr).y1 -
      (windowOf left.cols left.rows px py wr).y0) :
    let w := windowOf left.cols left.rows px py wr
    let most := min (min 128 left.cols) w.x0.toNat
    ∃ d, templateMatch exactInt left.toMat right.toMat px py wr = .ok d ∧
      FirstBest (meanDifference left.toMat right.toMat w) most d ∧
      ((∃ e ≤ most, Reproduces left.toMat right.toMat w e) →
        meanDifference left.toMat right.toMat w d = 0 ∧
          Reproduces left.toMat right.toMat w d ∧
          ∀ e < d, ¬ Reproduces left.toMat right.toMat w e) ∧
      (IntsFit left.cols left.rows px py wr →
        templateMatch int32 left.toMat right.toMat px py wr = .ok d) := by
  intro w most
  have hlf : FourChannel left.toMat left.cols left.rows := ⟨rfl, rfl, hl ▸ left.size⟩
  have hrf : FourChannel right.toMat left.cols left.rows :=
    ⟨hcols, hrows, by rw [right.size, hcols, hrows, hr]⟩
  have hpos : 0 < (w.y1 - w.y0).toNat * (w.x1 - w.x0).toNat := by
    change 3 ≤ w.x1 - w.x0 at hx
    change 3 ≤ w.y1 - w.y0 at hy
    exact Nat.mul_pos (by omega) (by omega)
  obtain ⟨d, hd, hbest⟩ := templateMatch_firstBest hlf hrf (clipWindow_exact _ _ px py wr)
    (exactOn_exactInt _ _) hx hy
  refine ⟨d, hd, hbest, ?_, ?_⟩
  · rintro ⟨e, he, hrep⟩
    have hzero : meanDifference left.toMat right.toMat w d = 0 := by
      have hle := hbest.smallest e he
      rw [(meanDifference_eq_zero hpos).2 hrep] at hle
      exact le_antisymm hle (meanDifference_nonneg _ _ w d)
    refine ⟨hzero, (meanDifference_eq_zero hpos).1 hzero, ?_⟩
    intro e' he' hrep'
    have hlt := hbest.first e' he'
    rw [hzero, (meanDifference_eq_zero hpos).2 hrep'] at hlt
    exact lt_irrefl _ hlt
  · intro hfit
    obtain ⟨d', hd', hbest'⟩ := templateMatch_firstBest hlf hrf (clipWindow_int32 hfit)
      (exactOn_int32 ⟨by norm_num, by norm_num⟩ hfit.size) hx hy
    rw [hd', hbest'.unique hbest]

def stripes (shift : ℕ) : DecodedImage where
  rows := 3
  cols := 4
  channels := 4
  data := (List.range 12).flatMap fun i => List.replicate 4 (UInt8.ofNat (i % 4 + shift))
  rows_pos := by decide
  cols_pos := by decide
  channels_eq := .inr (.inr rfl)
  size := by simp [List.length_flatMap]

theorem templateMatch_smallest_shift_stripes :
    let w := windowOf 4 3 2 1 1
    ∃ d, templateMatch exactInt (stripes 0).toMat (stripes 1).toMat 2 1 1 = .ok d ∧
      FirstBest (meanDifference (stripes 0).toMat (stripes 1).toMat w) 1 d ∧
      ((∃ e ≤ 1, Reproduces (stripes 0).toMat (stripes 1).toMat w e) →
        meanDifference (stripes 0).toMat (stripes 1).toMat w d = 0 ∧
          Reproduces (stripes 0).toMat (stripes 1).toMat w d ∧
          ∀ e < d, ¬ Reproduces (stripes 0).toMat (stripes 1).toMat w e) ∧
      (IntsFit 4 3 2 1 1 → templateMatch int32 (stripes 0).toMat (stripes 1).toMat 2 1 1 = .ok d) :=
  templateMatch_smallest_shift (stripes 0) (stripes 1) rfl rfl rfl rfl 2 1 1 (by decide) (by decide)

end EcidsCore.DisparityCalculator
