import EcidsCore.TemplateMatch

set_option autoImplicit false

/-! When every index that the matcher reads lies in its buffer. A signed overflow counts as
a read outside: what index it would give is not defined. -/
namespace EcidsCore.DisparityCalculator
open ExceptRules

def BytesIn (data : Bytes) (i : ℤ) : Prop := 0 ≤ i ∧ i + 2 < data.length

/-- The sample at row `y` and column `x` of the left image, under the shift `d`. -/
structure SampleIn (left right : Mat) (d y x : ℤ) : Prop where
  leftFits : FitsInt ((y * left.cols + x) * 4)
  rightFits : FitsInt ((y * right.cols + (x - d)) * 4)
  lastFits : FitsInt ((y * right.cols + (x - d)) * 4 + 3)
  sizeFits : FitsInt (right.cols * right.rows * 4)
  bytes : 0 ≤ (y * right.cols + (x - d)) * 4 →
    (y * right.cols + (x - d)) * 4 + 3 < right.cols * right.rows * 4 →
      BytesIn left.data ((y * left.cols + x) * 4) ∧
        BytesIn right.data ((y * right.cols + (x - d)) * 4)

def lastShift (right : Mat) (w : Window) : ℤ := min (min 128 (right.cols : ℤ)) w.x0

def lastRow (right : Mat) (w : Window) : ℤ :=
  min (w.y1 - 1) ((right.cols * right.rows - 1 + lastShift right w - w.x0) / right.cols)

def lastColumn (right : Mat) (w : Window) : ℤ :=
  min (w.x1 - 1) (right.cols * right.rows - 1 + lastShift right w - lastRow right w * right.cols)

/-- The last pixel read of each image is in its buffer, and the last index fits `int`. -/
structure WindowInside (left right : Mat) (w : Window) : Prop where
  leftFits : FitsInt (((w.y1 - 1) * left.cols + (w.x1 - 1)) * 4)
  rightFits : FitsInt (((w.y1 - 1) * right.cols + (w.x1 - 1)) * 4 + 3)
  sizeFits : FitsInt (right.cols * right.rows * 4)
  leftEnd : w.y0 ≤ lastRow right w →
    (lastRow right w * left.cols + lastColumn right w) * 4 + 2 < left.data.length
  rightEnd : w.y0 ≤ lastRow right w →
    min (lastRow right w * right.cols + (w.x1 - 1)) (right.cols * right.rows - 1) * 4 + 2 <
      right.data.length

/-- The same for a point and a radius; a window of less than 3 by 3 pixels is not read. -/
structure MatchInside (left right : Mat) (px py wr : ℤ) : Prop where
  clip : FitsInt (px - wr) ∧ FitsInt (py - wr) ∧ FitsInt (px + wr + 1) ∧ FitsInt (py + wr + 1)
  sides : FitsInt ((windowOf left.cols left.rows px py wr).x1 -
      (windowOf left.cols left.rows px py wr).x0) ∧
    FitsInt ((windowOf left.cols left.rows px py wr).y1 -
      (windowOf left.cols left.rows px py wr).y0)
  window : 3 ≤ (windowOf left.cols left.rows px py wr).x1 -
      (windowOf left.cols left.rows px py wr).x0 →
    3 ≤ (windowOf left.cols left.rows px py wr).y1 -
      (windowOf left.cols left.rows px py wr).y0 →
    WindowInside left right (windowOf left.cols left.rows px py wr)

theorem returns_int32_bind {α : Type} {z : ℤ} {f : ℤ → Except ReadFault α} :
    Returns (int32 z >>= f) ↔ FitsInt z ∧ Returns (f z) := by
  by_cases h : FitsInt z
  · simp [int32, h, returns_bind]
  · simp [int32, h, returns_bind]

theorem returns_read {data : Bytes} {i : ℤ} :
    Returns (read data i) ↔ 0 ≤ i ∧ i < data.length := by
  unfold read
  split
  · rename_i h
    simp only [returns_ok, true_iff]
    omega
  · rename_i h
    simp only [not_returns_error, false_iff]
    omega

theorem returns_channelDifference {left right : Bytes} {li ri : ℤ} :
    Returns (channelDifference left right li ri) ↔
      (0 ≤ li ∧ li < left.length) ∧ 0 ≤ ri ∧ ri < right.length := by
  rw [← returns_read, ← returns_read, channelDifference]
  apply returns_bind_iff
  intro a
  exact returns_bind_pure

theorem returns_pixelDifference {left right : Bytes} {li ri : ℤ} :
    Returns (pixelDifference left right li ri) ↔ BytesIn left li ∧ BytesIn right ri := by
  have hthree : Returns (pixelDifference left right li ri) ↔
      Returns (channelDifference left right li ri) ∧
        Returns (channelDifference left right (li + 1) (ri + 1)) ∧
          Returns (channelDifference left right (li + 2) (ri + 2)) := by
    apply returns_bind_iff
    intro blue
    apply returns_bind_iff
    intro green
    exact returns_bind_pure
  rw [hthree, returns_channelDifference, returns_channelDifference, returns_channelDifference]
  unfold BytesIn
  omega

section samples
variable {left right : Mat} {w : Window}

theorem returns_sampleDifference {d : ℕ} {p : ℕ × ℕ} :
    Returns (sampleDifference int32 left right w d p) ↔
      SampleIn left right d (w.y0 + p.1) (w.x0 + p.2) := by
  have hbody : Returns (sampleDifference int32 left right w d p) ↔
      FitsInt (((w.y0 + p.1) * left.cols + (w.x0 + p.2)) * 4) ∧
      FitsInt (((w.y0 + p.1) * right.cols + (w.x0 + p.2 - d)) * 4) ∧
      FitsInt (((w.y0 + p.1) * right.cols + (w.x0 + p.2 - d)) * 4 + 3) ∧
      FitsInt (right.cols * right.rows * 4) ∧
      (0 ≤ ((w.y0 + p.1) * right.cols + (w.x0 + p.2 - d)) * 4 →
        ((w.y0 + p.1) * right.cols + (w.x0 + p.2 - d)) * 4 + 3 < right.cols * right.rows * 4 →
          BytesIn left.data (((w.y0 + p.1) * left.cols + (w.x0 + p.2)) * 4) ∧
            BytesIn right.data (((w.y0 + p.1) * right.cols + (w.x0 + p.2 - d)) * 4)) := by
    unfold sampleDifference
    rw [returns_int32_bind, returns_int32_bind, returns_int32_bind, returns_int32_bind]
    refine and_congr_right fun _ => and_congr_right fun _ => and_congr_right fun _ =>
      and_congr_right fun _ => ?_
    split
    · rename_i hskip
      simp only [returns_pure, true_iff]
      omega
    · rename_i hread
      rw [returns_bind_pure, returns_pixelDifference]
      obtain ⟨h0, h1⟩ := not_or.1 hread
      exact ⟨fun h _ _ => h, fun h => h (not_lt.1 h0) (not_le.1 h1)⟩
  rw [hbody]
  constructor
  · rintro ⟨hl, hr, hlast, hsize, hbytes⟩
    exact ⟨hl, hr, hlast, hsize, hbytes⟩
  · intro h
    exact ⟨h.leftFits, h.rightFits, h.lastFits, h.sizeFits, h.bytes⟩

theorem returns_shiftDifference {d : ℕ} :
    Returns (shiftDifference int32 left right w d) ↔
      ∀ p ∈ samples w, SampleIn left right d (w.y0 + p.1) (w.x0 + p.2) := by
  apply returns_foldlM
  intro s p
  rw [← returns_sampleDifference]
  exact returns_bind_pure

theorem returns_shiftLoop (hx : 0 ≤ w.x0) (n : ℕ) (best : ℚ × ℕ) :
    Returns (shiftLoop int32 left right w (List.range (n + 1)) best) ↔
      ∀ d ≤ min n w.x0.toNat, ∀ p ∈ samples w,
        SampleIn left right d (w.y0 + p.1) (w.x0 + p.2) := by
  rw [shiftLoop_range int32 left right w hx]
  have hvisit (s : ℚ × ℕ) (d : ℕ) : Returns (shiftVisit int32 left right w s d) ↔
      ∀ p ∈ samples w, SampleIn left right d (w.y0 + p.1) (w.x0 + p.2) := by
    rw [← returns_shiftDifference]
    exact returns_bind_pure
  rw [returns_foldlM hvisit]
  simp only [List.mem_range, Nat.lt_succ_iff]

theorem forall_samples (hx : 0 ≤ w.x0) {P : ℤ → ℤ → ℤ → Prop} :
    (∀ d ≤ min (min 128 right.cols) w.x0.toNat, ∀ p ∈ samples w,
        P d (w.y0 + p.1) (w.x0 + p.2)) ↔
      ∀ d y x : ℤ, 0 ≤ d → d ≤ lastShift right w → w.y0 ≤ y → y < w.y1 → w.x0 ≤ x → x < w.x1 →
        P d y x := by
  unfold lastShift
  constructor
  · intro h d y x hd hd' hy hy' hx' hx''
    have hmem : ((y - w.y0).toNat, (x - w.x0).toNat) ∈ samples w :=
      mem_samples.2 ⟨by dsimp only; omega, by dsimp only; omega⟩
    have hP := h d.toNat (by omega) _ hmem
    have hy0 : w.y0 + ((y - w.y0).toNat : ℤ) = y := by omega
    have hx0 : w.x0 + ((x - w.x0).toNat : ℤ) = x := by omega
    rwa [hy0, hx0, Int.toNat_of_nonneg hd] at hP
  · intro h d hd p hp
    obtain ⟨hy, hx'⟩ := mem_samples.1 hp
    exact h d _ _ (by omega) (by omega) (by omega) (by omega) (by omega) (by omega)

end samples

section last
variable {left right : Mat} {w : Window}

theorem le_lastRow (hcols : 0 < right.cols) {d y x : ℤ} (hd : d ≤ lastShift right w)
    (hy : y < w.y1) (hx : w.x0 ≤ x)
    (hin : y * right.cols + (x - d) < right.cols * right.rows) : y ≤ lastRow right w := by
  refine le_min (by omega) ?_
  rw [Int.le_ediv_iff_mul_le (Int.natCast_pos.2 hcols)]
  omega

theorem lastRow_mul_le (right : Mat) (w : Window) (hcols : 0 < right.cols) :
    lastRow right w * right.cols ≤ right.cols * right.rows - 1 + lastShift right w - w.x0 :=
  (Int.le_ediv_iff_mul_le (Int.natCast_pos.2 hcols)).1 (min_le_right _ _)

theorem le_lastColumn (right : Mat) (hcols : 0 < right.cols) (hx : w.x0 < w.x1) :
    w.x0 ≤ lastColumn right w := by
  have hrow := lastRow_mul_le right w hcols
  unfold lastColumn
  omega

theorem mul_cols_le {a b : ℤ} (h : a ≤ b) (cols : ℕ) : a * cols ≤ b * cols :=
  Int.mul_le_mul_of_nonneg_right h (Int.natCast_nonneg cols)

theorem left_index_le (hcols : 0 < right.cols) (hw : WindowIn w left.cols left.rows)
    (hx01 : w.x0 < w.x1) {d y x : ℤ} (hd : d ≤ lastShift right w) (hy : y < w.y1)
    (hx : w.x0 ≤ x) (hx' : x < w.x1)
    (hin : y * right.cols + (x - d) < right.cols * right.rows) :
    y * left.cols + x ≤ lastRow right w * left.cols + lastColumn right w := by
  have hright := hw.right
  have hleft := hw.left
  rcases Int.le_iff_lt_or_eq.1 (le_lastRow hcols hd hy hx hin) with hlt | rfl
  · have hnext := mul_cols_le (Int.add_one_le_of_lt hlt) left.cols
    have hcolumn := le_lastColumn right hcols hx01
    rw [add_mul, one_mul] at hnext
    omega
  · have hcolumn : x ≤ lastColumn right w := by
      unfold lastColumn
      omega
    omega

theorem right_index_le (hcols : 0 < right.cols) {d y x : ℤ} (hd0 : 0 ≤ d)
    (hd : d ≤ lastShift right w) (hy : y < w.y1) (hx : w.x0 ≤ x) (hx' : x < w.x1)
    (hin : y * right.cols + (x - d) < right.cols * right.rows) :
    y * right.cols + (x - d) ≤
      min (lastRow right w * right.cols + (w.x1 - 1)) (right.cols * right.rows - 1) := by
  have hrow := mul_cols_le (le_lastRow hcols hd hy hx hin) right.cols
  omega

theorem exists_last_right (right : Mat) (w : Window) (hcols : 0 < right.cols) (hx : w.x0 < w.x1) :
    ∃ d x : ℤ, 0 ≤ d ∧ (0 ≤ lastShift right w → d ≤ lastShift right w) ∧ w.x0 ≤ x ∧ x < w.x1 ∧
      (0 ≤ lastShift right w → lastRow right w * right.cols + (x - d) =
        min (lastRow right w * right.cols + (w.x1 - 1)) (right.cols * right.rows - 1)) := by
  have hrow := lastRow_mul_le right w hcols
  generalize lastRow right w * (right.cols : ℤ) = r at *
  generalize (right.cols * right.rows : ℤ) = n at *
  generalize lastShift right w = most at *
  rcases le_or_gt (r + (w.x1 - 1)) (n - 1) with hall | hcut
  · exact ⟨0, w.x1 - 1, by omega, by omega, by omega, by omega, by omega⟩
  · rcases le_or_gt w.x0 (n - 1 - r) with hin | hout
    · exact ⟨0, n - 1 - r, by omega, by omega, by omega, by omega, by omega⟩
    · exact ⟨w.x0 - (n - 1 - r), w.x0, by omega, by omega, by omega, by omega, by omega⟩

theorem fitsInt_of_le {a b : ℤ} (hb : FitsInt b) (ha : 0 ≤ a) (h : a ≤ b) : FitsInt a :=
  ⟨le_trans (by norm_num) ha, h.trans_lt hb.2⟩

theorem windowInside_of_samples (hcols : 0 < right.cols)
    (hw : WindowIn w left.cols left.rows) (hx : 3 ≤ w.x1 - w.x0) (hy : 3 ≤ w.y1 - w.y0)
    (h : ∀ d y x : ℤ, 0 ≤ d → d ≤ lastShift right w → w.y0 ≤ y → y < w.y1 → w.x0 ≤ x →
      x < w.x1 → SampleIn left right d y x) : WindowInside left right w := by
  have hleft := hw.left
  have htop := hw.top
  have hshift : 0 ≤ lastShift right w := by
    unfold lastShift
    omega
  have hcorner := h 0 (w.y1 - 1) (w.x1 - 1) (le_refl 0) hshift (by omega) (by omega) (by omega)
    (by omega)
  have hlast : lastRow right w < w.y1 := by
    have hle : lastRow right w ≤ w.y1 - 1 := min_le_left _ _
    omega
  refine ⟨hcorner.leftFits, ?_, hcorner.sizeFits, ?_, ?_⟩
  · have hfits := hcorner.lastFits
    rwa [sub_zero] at hfits
  · intro hrow
    have hcolumn := le_lastColumn right hcols (show w.x0 < w.x1 by omega)
    have hcolumn' : lastColumn right w ≤ w.x1 - 1 := min_le_left _ _
    have hcut : lastColumn right w ≤ right.cols * right.rows - 1 + lastShift right w -
        lastRow right w * right.cols := min_le_right _ _
    have hnonneg := mul_cols_le (htop.trans hrow) right.cols
    have hrest : lastShift right w ≤ w.x0 := min_le_right _ _
    rw [zero_mul] at hnonneg
    exact ((h (lastShift right w) (lastRow right w) (lastColumn right w) hshift (le_refl _) hrow
      hlast hcolumn (by omega)).bytes (by omega) (by omega)).1.2
  · intro hrow
    obtain ⟨d, x, hd0, hd, hx0, hx1, heq⟩ := exists_last_right right w hcols
      (by omega)
    have hnonneg := mul_cols_le (htop.trans hrow) right.cols
    have hrest : lastShift right w ≤ w.x0 := min_le_right _ _
    have hd' := hd hshift
    have heq' := heq hshift
    rw [zero_mul] at hnonneg
    have hbytes := ((h d (lastRow right w) x hd0 hd' hrow hlast hx0 hx1).bytes (by omega)
      (by omega)).2.2
    rwa [heq'] at hbytes

theorem samples_of_windowInside (hcols : 0 < right.cols)
    (hw : WindowIn w left.cols left.rows) (h : WindowInside left right w) {d y x : ℤ}
    (hd0 : 0 ≤ d) (hd : d ≤ lastShift right w) (hy : w.y0 ≤ y) (hy' : y < w.y1) (hx : w.x0 ≤ x)
    (hx' : x < w.x1) : SampleIn left right d y x := by
  have hleft := hw.left
  have htop := hw.top
  have hrest : lastShift right w ≤ w.x0 := min_le_right _ _
  have hyl := mul_cols_le (htop.trans hy) left.cols
  have hyr := mul_cols_le (htop.trans hy) right.cols
  have hyl' := mul_cols_le (show y ≤ w.y1 - 1 by omega) left.cols
  have hyr' := mul_cols_le (show y ≤ w.y1 - 1 by omega) right.cols
  rw [zero_mul] at hyl hyr
  refine ⟨fitsInt_of_le h.leftFits (by omega) (by omega),
    fitsInt_of_le h.rightFits (by omega) (by omega),
    fitsInt_of_le h.rightFits (by omega) (by omega), h.sizeFits, ?_⟩
  intro _ hin
  have hread : y * right.cols + (x - d) < right.cols * right.rows := by omega
  have hrow : w.y0 ≤ lastRow right w := hy.trans (le_lastRow hcols hd hy' hx hread)
  have hl := left_index_le hcols hw (by omega) hd hy' hx hx' hread
  have hr := right_index_le hcols hd0 hd hy' hx hx' hread
  have hlend := h.leftEnd hrow
  have hrend := h.rightEnd hrow
  exact ⟨⟨by omega, by omega⟩, by omega, by omega⟩

end last

theorem returns_clipWindow_bind {α : Type} {lw lh : ℕ} {px py wr : ℤ}
    {f : Window → Except ReadFault α} : Returns (clipWindow int32 lw lh px py wr >>= f) ↔
      (FitsInt (px - wr) ∧ FitsInt (py - wr) ∧ FitsInt (px + wr + 1) ∧ FitsInt (py + wr + 1)) ∧
        Returns (f (windowOf lw lh px py wr)) := by
  simp only [clipWindow, bind_assoc, returns_int32_bind, pure_bind, and_assoc]
  rfl

theorem returns_templateMatch {left right : Mat} (hcols : 0 < right.cols) (px py wr : ℤ) :
    Returns (templateMatch int32 left right px py wr) ↔ MatchInside left right px py wr := by
  have hw := windowIn_windowOf left.cols left.rows px py wr
  have hiff : MatchInside left right px py wr ↔ (FitsInt (px - wr) ∧ FitsInt (py - wr) ∧
      FitsInt (px + wr + 1) ∧ FitsInt (py + wr + 1)) ∧
      FitsInt ((windowOf left.cols left.rows px py wr).x1 -
        (windowOf left.cols left.rows px py wr).x0) ∧
      FitsInt ((windowOf left.cols left.rows px py wr).y1 -
        (windowOf left.cols left.rows px py wr).y0) ∧
      (3 ≤ (windowOf left.cols left.rows px py wr).x1 - (windowOf left.cols left.rows px py wr).x0 →
        3 ≤ (windowOf left.cols left.rows px py wr).y1 -
          (windowOf left.cols left.rows px py wr).y0 →
        WindowInside left right (windowOf left.cols left.rows px py wr)) :=
    ⟨fun h => ⟨h.clip, h.sides.1, h.sides.2, h.window⟩,
      fun h => ⟨h.1, ⟨h.2.1, h.2.2.1⟩, h.2.2.2⟩⟩
  rw [hiff, templateMatch, returns_clipWindow_bind, returns_int32_bind, returns_int32_bind]
  refine and_congr_right fun _ => and_congr_right fun _ => and_congr_right fun _ => ?_
  generalize windowOf left.cols left.rows px py wr = w at *
  split
  · rename_i hsmall
    simp only [returns_pure, true_iff]
    omega
  · rename_i hlarge
    have hx : 3 ≤ w.x1 - w.x0 := by omega
    have hy : 3 ≤ w.y1 - w.y0 := by omega
    rw [returns_bind_pure, returns_shiftLoop hw.left, forall_samples hw.left]
    exact ⟨fun h _ _ => windowInside_of_samples hcols hw hx hy h,
      fun h d y x => samples_of_windowInside hcols hw (h hx hy)⟩

/-- Every read is inside its buffer; OpenCV may still refuse a size. -/
def ReadsInside {α : Type} (x : Except ReadFault α) : Prop := ThrowsOnly (· = .badSize) x

section faults
variable {left right : Mat} {w : Window}

theorem int32_faults (z : ℤ) : ThrowsOnly (· ≠ .badSize) (int32 z) := by
  unfold int32
  split
  · exact throwsOnly_ok z
  · exact throwsOnly_error nofun

theorem read_faults (data : Bytes) (i : ℤ) : ThrowsOnly (· ≠ .badSize) (read data i) := by
  unfold read
  split
  · exact throwsOnly_ok _
  · exact throwsOnly_error nofun

theorem channelDifference_faults (a b : Bytes) (i j : ℤ) :
    ThrowsOnly (· ≠ .badSize) (channelDifference a b i j) :=
  (read_faults a i).bind fun _ _ => (read_faults b j).bind fun _ _ => throwsOnly_ok _

theorem pixelDifference_faults (a b : Bytes) (i j : ℤ) :
    ThrowsOnly (· ≠ .badSize) (pixelDifference a b i j) :=
  (channelDifference_faults a b i j).bind fun _ _ =>
    (channelDifference_faults a b (i + 1) (j + 1)).bind fun _ _ =>
      (channelDifference_faults a b (i + 2) (j + 2)).bind fun _ _ => throwsOnly_ok _

theorem sampleDifference_faults (d : ℕ) (p : ℕ × ℕ) :
    ThrowsOnly (· ≠ .badSize) (sampleDifference int32 left right w d p) := by
  refine (int32_faults _).bind fun li _ => (int32_faults _).bind fun ri _ =>
    (int32_faults _).bind fun last _ => (int32_faults _).bind fun size _ => ?_
  split
  · exact throwsOnly_ok _
  · exact (pixelDifference_faults _ _ _ _).bind fun _ _ => throwsOnly_ok _

theorem shiftDifference_faults (d : ℕ) :
    ThrowsOnly (· ≠ .badSize) (shiftDifference int32 left right w d) :=
  throwsOnly_foldlM
    (fun _ p => (sampleDifference_faults d p).bind fun _ _ => throwsOnly_ok _) _ _

theorem shiftLoop_faults (ds : List ℕ) (best : ℚ × ℕ) :
    ThrowsOnly (· ≠ .badSize) (shiftLoop int32 left right w ds best) := by
  induction ds generalizing best with
  | nil => exact throwsOnly_ok best
  | cons d ds ih =>
    unfold shiftLoop
    split
    · exact throwsOnly_ok best
    · exact (shiftDifference_faults d).bind fun s _ => ih _

theorem templateMatch_faults (px py wr : ℤ) :
    ThrowsOnly (· ≠ .badSize) (templateMatch int32 left right px py wr) := by
  have hclip : ThrowsOnly (· ≠ .badSize) (clipWindow int32 left.cols left.rows px py wr) :=
    (int32_faults _).bind fun _ _ => (int32_faults _).bind fun _ _ =>
      (int32_faults _).bind fun _ _ => (int32_faults _).bind fun _ _ => throwsOnly_ok _
  refine hclip.bind fun w _ => (int32_faults _).bind fun tw _ => (int32_faults _).bind fun th _ => ?_
  split
  · exact throwsOnly_ok _
  · exact (shiftLoop_faults _ _).bind fun _ _ => throwsOnly_ok _

theorem templateMatch_inside_iff (hcols : 0 < right.cols) (px py wr : ℤ) :
    ReadsInside (templateMatch int32 left right px py wr) ↔ MatchInside left right px py wr := by
  rw [← returns_templateMatch hcols]
  exact (returns_iff_throwsOnly (templateMatch_faults px py wr) fun _ h => h).symm

end faults

def rawBytes (h w : ℤ) : ℕ := h.toNat * w.toNat * 4

def rawMat (h w : ℤ) (data : Bytes) : Mat := ⟨h.toNat, w.toNat, 4, data.take (rawBytes h w)⟩

theorem rawWidth_ne_zero (n : ℕ) : rawWidth n ≠ 0 := by
  unfold rawWidth
  dsimp only
  split <;> omega

theorem toInt32_le {z : ℤ} (h : 0 ≤ z) : Json.toInt32 z ≤ z := by
  unfold Json.toInt32
  omega

theorem toInt32_lt (z : ℤ) : Json.toInt32 z < 2 ^ 31 := by
  unfold Json.toInt32
  omega

theorem rawBytes_le {n : ℕ} (hw : 0 ≤ rawWidth n) : rawBytes (rawHeight n) (rawWidth n) ≤ n := by
  have hlt : rawWidth n < 2 ^ 31 := by
    unfold rawWidth
    dsimp only
    split
    · norm_num
    · exact toInt32_lt _
  have hsize : toSize (rawWidth n) = (rawWidth n).toNat := by
    unfold toSize
    rw [Int.emod_eq_of_lt hw (by omega)]
  have hheight : rawHeight n ≤ (n / 4 / toSize (rawWidth n) : ℕ) :=
    toInt32_le (Int.natCast_nonneg _)
  rw [hsize] at hheight
  generalize rawWidth n = w at *
  generalize rawHeight n = h at *
  have hdiv : n / 4 / w.toNat * w.toNat ≤ n / 4 := Nat.div_mul_le_self _ _
  have hmul : h.toNat * w.toNat ≤ n / 4 / w.toNat * w.toNat :=
    Nat.mul_le_mul_right _ (Int.toNat_le.2 hheight)
  unfold rawBytes
  omega

theorem cloneRaw_eq {h w : ℤ} (hh : 0 ≤ h) (hw : 0 ≤ w) (data : Bytes) : cloneRaw h w data =
    if rawBytes h w ≤ data.length then .ok (rawMat h w data) else .error .outOfBounds := by
  have hsize : ¬ (h < 0 ∨ w < 0) := by omega
  rw [cloneRaw, if_neg hsize]
  rfl

variable {R : Type} [Double R]

def MatchAtInside (left right : Mat) (point : Point2D R) (wr : ℤ) : Prop :=
  MatchInside left right (clampTo left.cols point.x) (clampTo left.rows point.y) wr

theorem matchAt_inside_iff {left right : Mat} (hcols : 0 < right.cols) (point : Point2D R)
    (wr : ℤ) : ReadsInside (matchAt int32 left right point wr) ↔
      MatchAtInside left right point wr :=
  templateMatch_inside_iff hcols _ _ wr

/-- Where both images decode, their last samples are inside; where one does not, the right
data are as long as the image made of the left data, and that holds of the two raw images. -/
structure DisparityInside (imdecode : Bytes → Option DecodedImage) (left right : Bytes)
    (point : Point2D R) (wr : ℤ) : Prop where
  decoded : ∀ l r, imdecode left = some l → imdecode right = some r →
    MatchAtInside l.toMat r.toMat point wr
  raw : imdecode left = none ∨ imdecode right = none →
    0 < rawHeight left.length → 0 ≤ rawWidth left.length →
      rawBytes (rawHeight left.length) (rawWidth left.length) ≤ right.length ∧
        MatchAtInside (rawMat (rawHeight left.length) (rawWidth left.length) left)
          (rawMat (rawHeight left.length) (rawWidth left.length) right) point wr

theorem readsInside_ok {α : Type} (a : α) : ReadsInside (.ok a : Except ReadFault α) :=
  throwsOnly_ok a

/-- The two clones and the match, for a height and a width that leave the left one inside. -/
theorem readsInside_clones {left right : Bytes} {h w : ℤ} (hne : w ≠ 0)
    (hleft : 0 ≤ w → rawBytes h w ≤ left.length) (point : Point2D R) (wr : ℤ) :
    ReadsInside (if h = 0 then return 0
      else do
        let l ← cloneRaw h w left
        let r ← cloneRaw h w right
        matchAt int32 l r point wr) ↔
    (0 < h → 0 ≤ w → rawBytes h w ≤ right.length ∧
      MatchAtInside (rawMat h w left) (rawMat h w right) point wr) := by
  by_cases hzero : h = 0
  · rw [if_pos hzero, hzero]
    exact ⟨fun _ h => absurd h (lt_irrefl 0), fun _ => readsInside_ok 0⟩
  rw [if_neg hzero]
  by_cases hneg : h < 0 ∨ w < 0
  · rw [cloneRaw, if_pos hneg]
    refine ⟨fun _ _ _ => by omega, fun _ => ?_⟩
    exact throwsOnly_error rfl
  · have hh : 0 ≤ h := by omega
    have hw : 0 ≤ w := by omega
    have hpos : 0 < h := by omega
    have hcols : 0 < (rawMat h w right).cols := by
      change 0 < w.toNat
      omega
    rw [cloneRaw_eq hh hw, cloneRaw_eq hh hw, if_pos (hleft hw)]
    by_cases hright : rawBytes h w ≤ right.length
    · rw [if_pos hright]
      have hmatch : ReadsInside (matchAt int32 (rawMat h w left) (rawMat h w right) point wr) ↔
          MatchAtInside (rawMat h w left) (rawMat h w right) point wr :=
        matchAt_inside_iff hcols point wr
      exact ⟨fun h _ _ => ⟨hright, hmatch.1 h⟩, fun h => hmatch.2 (h hpos hw).2⟩
    · rw [if_neg hright]
      constructor
      · intro h
        cases h .outOfBounds rfl
      · intro h
        exact absurd (h hpos hw).1 hright

/-- For every decoder, every two buffers, every point and every radius. -/
theorem calculateDisparity_inside_iff (imdecode : Bytes → Option DecodedImage)
    (left right : Bytes) (point : Point2D R) (wr : ℤ) :
    ReadsInside (calculateDisparity int32 imdecode left right point wr) ↔
      left = [] ∨ right = [] ∨ DisparityInside imdecode left right point wr := by
  unfold calculateDisparity
  by_cases hempty : left = [] ∨ right = []
  · rw [if_pos hempty]
    refine ⟨fun _ => ?_, fun _ => readsInside_ok 0⟩
    rcases hempty with h | h
    · exact .inl h
    · exact .inr (.inl h)
  rw [if_neg hempty, ← or_assoc, or_iff_right hempty]
  cases hl : imdecode left with
  | none =>
    refine (readsInside_clones (rawWidth_ne_zero _) rawBytes_le point wr).trans
      ⟨fun h => ⟨?_, fun _ => h⟩, fun h => h.raw ?_⟩
    · intro l r hl'
      rw [hl] at hl'
      cases hl'
    · exact .inl hl
  | some l =>
    cases hr : imdecode right with
    | none =>
      refine (readsInside_clones (rawWidth_ne_zero _) rawBytes_le point wr).trans
        ⟨fun h => ⟨?_, fun _ => h⟩, fun h => h.raw ?_⟩
      · intro l' r _ hr'
        rw [hr] at hr'
        cases hr'
      · exact .inr hr
    | some r =>
      refine (matchAt_inside_iff r.cols_pos point wr).trans ⟨fun h => ⟨?_, ?_⟩, fun h => ?_⟩
      · intro l' r' hl' hr'
        rw [hl] at hl'
        rw [hr] at hr'
        cases hl'
        cases hr'
        exact h
      · rintro (h' | h')
        · rw [hl] at h'
          cases h'
        · rw [hr] at h'
          cases h'
      · exact h.decoded l r hl hr

theorem grey_side_pos : 0 < 4 := Nat.zero_lt_succ 3

def greyJpeg : DecodedImage where
  rows := 4
  cols := 4
  channels := 3
  data := List.replicate 48 128
  rows_pos := grey_side_pos
  cols_pos := grey_side_pos
  channels_eq := .inr (.inl rfl)
  size := rfl

/-- The matcher steps over three-channel pixels in fours, past the end of the image. -/
theorem calculateDisparity_outside_jpeg :
    calculateDisparity int32 (fun _ => some greyJpeg) [1] [1] (⟨3, 3⟩ : Point2D ℤ) 15 =
      .error .outOfBounds := by
  decide

end EcidsCore.DisparityCalculator
