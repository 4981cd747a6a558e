import EcidsCore.ExceptRules
import EcidsCore.GapPipeline
import EcidsCore.JsonText
import Mathlib.Algebra.Order.Field.Rat
import Mathlib.Data.Rat.Cast.Order

set_option autoImplicit false

/-! The matcher behind the gap distance: a window of the left image is compared with the
right image shifted by up to 128 pixels. Images are read in steps of four bytes. -/
namespace EcidsCore
open ExceptRules

/-- `overflow` is a signed overflow of `int`; `badSize` is what OpenCV throws. -/
inductive ReadFault where
  | overflow
  | outOfBounds
  | badSize
deriving DecidableEq, Repr

structure Mat where
  rows : ℕ
  cols : ℕ
  channels : ℕ
  data : Bytes
deriving DecidableEq, Repr

/-- An image that `imdecode` returns under `IMREAD_UNCHANGED`. -/
structure DecodedImage extends Mat where
  rows_pos : 0 < rows
  cols_pos : 0 < cols
  channels_eq : channels = 1 ∨ channels = 3 ∨ channels = 4
  size : data.length = rows * cols * channels

/-- What an `int` expression gives; its value is exact or a fault. -/
abbrev IntArith := ℤ → Except ReadFault ℤ

def exactInt : IntArith := .ok

def int32 : IntArith := fun z => if FitsInt z then .ok z else .error .overflow

structure Window where
  x0 : ℤ
  y0 : ℤ
  x1 : ℤ
  y1 : ℤ
deriving DecidableEq, Repr

namespace DisparityCalculator

/-- The window of radius `wr` around a point, clipped to an image of this size. -/
def windowOf (lw lh : ℕ) (px py wr : ℤ) : Window where
  x0 := max 0 (px - wr)
  y0 := max 0 (py - wr)
  x1 := min lw (px + wr + 1)
  y1 := min lh (py + wr + 1)

def clipWindow (int : IntArith) (lw lh : ℕ) (px py wr : ℤ) : Except ReadFault Window := do
  let left ← int (px - wr)
  let top ← int (py - wr)
  let right ← int (px + wr + 1)
  let bottom ← int (py + wr + 1)
  return ⟨max 0 left, max 0 top, min lw right, min lh bottom⟩

def read (data : Bytes) (i : ℤ) : Except ReadFault ℤ :=
  if h : 0 ≤ i ∧ i.toNat < data.length then .ok (data.get ⟨i.toNat, h.2⟩).toNat
  else .error .outOfBounds

def channelDifference (left right : Bytes) (li ri : ℤ) : Except ReadFault ℕ := do
  let a ← read left li
  let b ← read right ri
  return (a - b).natAbs

/-- What a sample adds to `sad`. -/
def pixelDifference (left right : Bytes) (li ri : ℤ) : Except ReadFault ℕ := do
  let blue ← channelDifference left right li ri
  let green ← channelDifference left right (li + 1) (ri + 1)
  let red ← channelDifference left right (li + 2) (ri + 2)
  return blue + green + red

/-- The body of the innermost loop; `none` where the sample is skipped. -/
def sampleDifference (int : IntArith) (left right : Mat) (w : Window) (d : ℕ) (p : ℕ × ℕ) :
    Except ReadFault (Option ℕ) := do
  let li ← int (((w.y0 + p.1) * left.cols + (w.x0 + p.2)) * 4)
  let ri ← int (((w.y0 + p.1) * right.cols + (w.x0 + p.2 - d)) * 4)
  let last ← int (ri + 3)
  let size ← int (right.cols * right.rows * 4)
  if ri < 0 ∨ size ≤ last then return none
  let v ← pixelDifference left.data right.data li ri
  return some v

def addSample (s : ℕ × ℕ) : Option ℕ → ℕ × ℕ
  | none => s
  | some v => (s.1 + v, s.2 + 1)

def samples (w : Window) : List (ℕ × ℕ) :=
  (List.range (w.y1 - w.y0).toNat).flatMap fun y =>
    (List.range (w.x1 - w.x0).toNat).map fun x => (y, x)

def shiftDifference (int : IntArith) (left right : Mat) (w : Window) (d : ℕ) :
    Except ReadFault (ℕ × ℕ) :=
  (samples w).foldlM
    (fun s p => do
      let v ← sampleDifference int left right w d p
      return addSample s v) (0, 0)

/-- The quotient is the exact one; `best` holds `best_sad` and `best_disp`. -/
def keepBest (best : ℚ × ℕ) (d : ℕ) (s : ℕ × ℕ) : ℚ × ℕ :=
  if 0 < s.2 ∧ (s.1 / s.2 : ℚ) < best.1 then (s.1 / s.2, d) else best

def shiftLoop (int : IntArith) (left right : Mat) (w : Window) :
    List ℕ → ℚ × ℕ → Except ReadFault (ℚ × ℕ)
  | [], best => return best
  | d :: ds, best =>
    if w.x0 - d < 0 then return best
    else do
      let s ← shiftDifference int left right w d
      shiftLoop int left right w ds (keepBest best d s)

def templateMatch (int : IntArith) (left right : Mat) (px py wr : ℤ) : Except ReadFault ℕ := do
  let w ← clipWindow int left.cols left.rows px py wr
  let tw ← int (w.x1 - w.x0)
  let th ← int (w.y1 - w.y0)
  if tw < 3 ∨ th < 3 then return 0
  let best ← shiftLoop int left right w (List.range (min 128 right.cols + 1)) (1e18, 0)
  return best.2

/-- An `int` as the `size_t` that a division by it uses. -/
def toSize (z : ℤ) : ℕ := (z % 2 ^ 64).toNat

def rawWidth (leftSize : ℕ) : ℤ :=
  let w := Json.toInt32 (leftSize / 4 : ℕ)
  if w = 0 then 1 else w

def rawHeight (leftSize : ℕ) : ℤ :=
  Json.toInt32 (leftSize / 4 / toSize (rawWidth leftSize) : ℕ)

/-- `cv::Mat(h, w, CV_8UC4, data).clone()`. -/
def cloneRaw (h w : ℤ) (data : Bytes) : Except ReadFault Mat :=
  if h < 0 ∨ w < 0 then .error .badSize
  else if h.toNat * w.toNat * 4 ≤ data.length then
    .ok ⟨h.toNat, w.toNat, 4, data.take (h.toNat * w.toNat * 4)⟩
  else .error .outOfBounds

variable {R : Type} [Double R]

/-- The nearest pixel of a row or column of this length. -/
def clampTo (length : ℕ) (v : R) : ℤ :=
  max 0 (min (castInt (Double.truncate (Double.round v))) (length - 1))

def matchAt (int : IntArith) (left right : Mat) (point : Point2D R) (wr : ℤ) :
    Except ReadFault ℕ :=
  templateMatch int left right (clampTo left.cols point.x) (clampTo left.rows point.y) wr

/-- `imdecode` gives nothing for data that it cannot decode. -/
def calculateDisparity (int : IntArith) (imdecode : Bytes → Option DecodedImage)
    (left right : Bytes) (point : Point2D R) (wr : ℤ) : Except ReadFault ℕ :=
  if left = [] ∨ right = [] then return 0
  else
    match imdecode left, imdecode right with
    | some l, some r => matchAt int l.toMat r.toMat point wr
    | _, _ =>
      if rawHeight left.length = 0 then return 0
      else do
        let l ← cloneRaw (rawHeight left.length) (rawWidth left.length) left
        let r ← cloneRaw (rawHeight left.length) (rawWidth left.length) right
        matchAt int l r point wr

section loops
variable (int : IntArith) (left right : Mat) (w : Window)

def shiftVisit (best : ℚ × ℕ) (d : ℕ) : Except ReadFault (ℚ × ℕ) := do
  let s ← shiftDifference int left right w d
  return keepBest best d s

theorem shiftLoop_eq {ds : List ℕ} (hds : ds.Pairwise (· < ·)) (best : ℚ × ℕ) :
    shiftLoop int left right w ds best =
      (ds.filter fun d : ℕ => (d : ℤ) ≤ w.x0).foldlM (shiftVisit int left right w) best := by
  induction ds generalizing best with
  | nil => rfl
  | cons d ds ih =>
    obtain ⟨hd, hds⟩ := List.pairwise_cons.1 hds
    by_cases hx : w.x0 - d < 0
    · have hnone : (d :: ds).filter (fun d : ℕ => (d : ℤ) ≤ w.x0) = [] := by
        apply List.filter_eq_nil_iff.2
        intro e he
        have hle : d ≤ e := by
          rcases List.mem_cons.1 he with rfl | he
          · exact Nat.le_refl _
          · exact (hd e he).le
        simp only [decide_eq_true_eq]
        omega
      rw [shiftLoop, if_pos hx, hnone]
      rfl
    · have hkeep : (d :: ds).filter (fun d : ℕ => (d : ℤ) ≤ w.x0) =
          d :: ds.filter fun d : ℕ => (d : ℤ) ≤ w.x0 :=
        List.filter_cons_of_pos (by simp only [decide_eq_true_eq]; omega)
      rw [shiftLoop, if_neg hx, hkeep, List.foldlM_cons, shiftVisit, bind_assoc]
      simp only [pure_bind, ih hds]

theorem filter_range_le (n m : ℕ) :
    (List.range (n + 1)).filter (fun d => d ≤ m) = List.range (min n m + 1) := by
  induction n with
  | zero => simp
  | succ n ih =>
    rw [List.range_succ, List.filter_append, ih]
    by_cases h : n + 1 ≤ m
    · rw [List.filter_cons_of_pos (by simpa using h), List.filter_nil, Nat.min_eq_left h,
        Nat.min_eq_left (Nat.le_of_succ_le h), List.range_succ (n := n + 1)]
    · rw [List.filter_cons_of_neg (by simpa using h), List.filter_nil, List.append_nil,
        Nat.min_eq_right (by omega), Nat.min_eq_right (by omega)]

theorem shiftLoop_range (hx : 0 ≤ w.x0) (n : ℕ) (best : ℚ × ℕ) :
    shiftLoop int left right w (List.range (n + 1)) best =
      (List.range (min n w.x0.toNat + 1)).foldlM (shiftVisit int left right w) best := by
  rw [shiftLoop_eq int left right w List.pairwise_lt_range, ← filter_range_le]
  congr 2
  funext d
  have hiff : (d : ℤ) ≤ w.x0 ↔ d ≤ w.x0.toNat := by omega
  simp only [hiff]

end loops

theorem mem_samples {w : Window} {p : ℕ × ℕ} :
    p ∈ samples w ↔ (p.1 : ℤ) < w.y1 - w.y0 ∧ (p.2 : ℤ) < w.x1 - w.x0 := by
  obtain ⟨y, x⟩ := p
  simp only [samples, List.mem_flatMap, List.mem_range, List.mem_map, Prod.mk.injEq]
  constructor
  · rintro ⟨y', hy, x', hx, rfl, rfl⟩
    constructor <;> omega
  · rintro ⟨hy, hx⟩
    exact ⟨y, by omega, x, by omega, rfl, rfl⟩

end DisparityCalculator
end EcidsCore
