import EcidsCore.DigitOrder
import EcidsCore.PreprocessModule
import Mathlib.Algebra.Order.BigOperators.Group.List
import Mathlib.Algebra.Order.Field.Rat

set_option autoImplicit false

/-! The working distance of a depth map: a mean over its central window, read only inside
the buffer and within the range that a sample must lie in. -/
namespace EcidsCore

inductive FloatValue where
  | nan
  | infinite
  | finite (x : ℚ)
deriving DecidableEq, Repr

/-- The fields of the format: a sign, eight bits of exponent and the fraction. Every finite
value is a multiple of the least positive one. -/
def floatValue (bits : ℕ) : FloatValue :=
  let sign : ℚ := if bits / 2 ^ 31 % 2 = 1 then -1 else 1
  let exponent : ℕ := bits / 2 ^ 23 % 2 ^ 8
  let fraction : ℕ := bits % 2 ^ 23
  if exponent = 255 then if fraction = 0 then .infinite else .nan
  else if exponent = 0 then .finite (sign * fraction / 2 ^ 149)
  else .finite (sign * ((2 ^ 23 + fraction) * 2 ^ (exponent - 1)) / 2 ^ 149)

example : floatValue 0x3F800000 = .finite 1 := by norm_num [floatValue]

/-- `floats[i]`, the low byte first; a read that leaves the buffer has no result. -/
def floatAt (depthData : Bytes) (i : ℕ) : Option FloatValue :=
  if 4 * i + 4 ≤ depthData.length then
    some (floatValue (BigEndian.value ((depthData.drop (4 * i)).take 4).reverse))
  else none

def addSample (depthData : Bytes) (acc : ℚ × ℕ) (i : ℕ) : Option (ℚ × ℕ) := do
  match ← floatAt depthData i with
  | .nan => return acc
  | .infinite => return acc
  | .finite d =>
    if d = 0 then return acc
    let dMm := d * 1000
    if 100 < dMm ∧ dMm < 5000 then return (acc.1 + dMm, acc.2 + 1)
    return acc

/-- The loops over the central rows and columns: the sum of the samples that count, and how
many they are. -/
def windowSum (depthData : Bytes) (w h : ℕ) : Option (ℚ × ℕ) :=
  let cyStart := h * 3 / 10
  let cyEnd := h * 7 / 10
  let cxStart := w * 3 / 10
  let cxEnd := w * 7 / 10
  (List.range' cyStart (cyEnd - cyStart)).foldlM (fun acc y =>
    (List.range' cxStart (cxEnd - cxStart)).foldlM
      (fun acc x => addSample depthData acc (y * w + x)) acc) (0, 0)

def calculateWorkingDistance (depthData : Bytes) : Option ℚ := do
  if depthData.length < 4 then return 0
  let count := depthData.length / 4
  if count = 0 then return 0
  let w := 1920
  let h := count / w
  if h = 0 ∨ w * h ≠ count then return 0
  let (sum, valid) ← windowSum depthData w h
  if valid = 0 then return 0
  return sum / valid

def goodSample (depthData : Bytes) (i : ℕ) : List ℚ :=
  match floatAt depthData i with
  | some (.finite d) => if 100 < d * 1000 ∧ d * 1000 < 5000 then [d * 1000] else []
  | _ => []

def rowSamples (depthData : Bytes) (y : ℕ) : List ℚ :=
  (List.range' 576 768).flatMap fun x => goodSample depthData (y * 1920 + x)

def imageHeight (depthData : Bytes) : ℕ := depthData.length / 4 / 1920

/-- The samples that count, from the central rows and columns of an image. -/
def windowSamples (depthData : Bytes) : List ℚ :=
  let h := imageHeight depthData
  (List.range' (h * 3 / 10) (h * 7 / 10 - h * 3 / 10)).flatMap (rowSamples depthData)

theorem mem_goodSample {depthData : Bytes} {i : ℕ} {mm : ℚ} :
    mm ∈ goodSample depthData i ↔
      ∃ d, floatAt depthData i = some (.finite d) ∧ mm = d * 1000 ∧ 100 < mm ∧ mm < 5000 := by
  unfold goodSample
  split
  · rename_i d hd
    split_ifs with hrange
    · rw [List.mem_singleton, hd]
      constructor
      · rintro rfl
        exact ⟨d, rfl, rfl, hrange⟩
      · rintro ⟨d', heq, rfl, -⟩
        cases heq
        rfl
    · rw [hd]
      refine iff_of_false List.not_mem_nil ?_
      rintro ⟨d', heq, rfl, hin⟩
      cases heq
      exact hrange hin
  · rename_i hno
    refine iff_of_false List.not_mem_nil ?_
    rintro ⟨d, hd, -⟩
    exact hno d hd

theorem mem_windowSamples {depthData : Bytes} {mm : ℚ} :
    mm ∈ windowSamples depthData ↔
      ∃ y x, imageHeight depthData * 3 / 10 ≤ y ∧ y < imageHeight depthData * 7 / 10 ∧
        576 ≤ x ∧ x < 1344 ∧ mm ∈ goodSample depthData (y * 1920 + x) := by
  simp only [windowSamples, rowSamples, List.mem_flatMap, List.mem_range'_1]
  constructor
  · rintro ⟨y, hy, x, hx, hmm⟩
    exact ⟨y, x, hy.1, by omega, hx.1, by omega, hmm⟩
  · rintro ⟨y, x, hy, hy', hx, hx', hmm⟩
    exact ⟨y, ⟨hy, by omega⟩, x, ⟨hx, by omega⟩, hmm⟩

theorem addSample_eq {depthData : Bytes} {i : ℕ} (h : 4 * i + 4 ≤ depthData.length) (acc : ℚ × ℕ) :
    addSample depthData acc i =
      some (acc.1 + (goodSample depthData i).sum, acc.2 + (goodSample depthData i).length) := by
  obtain ⟨v, hv⟩ : ∃ v, floatAt depthData i = some v := ⟨_, if_pos h⟩
  cases v with
  | nan => simp [addSample, goodSample, hv]
  | infinite => simp [addSample, goodSample, hv]
  | finite d =>
    by_cases hzero : d = 0
    · have hout : ¬ (100 : ℚ) < 0 := not_lt.2 (by decide)
      simp [addSample, goodSample, hv, hzero, hout]
    · by_cases hrange : 100 < d * 1000 ∧ d * 1000 < 5000
      · simp [addSample, goodSample, hv, hzero, hrange]
      · simp [addSample, goodSample, hv, hzero, hrange]

theorem foldlM_adds {α : Type} {f : ℚ × ℕ → α → Option (ℚ × ℕ)} {g : α → List ℚ} {l : List α}
    (h : ∀ a ∈ l, ∀ acc, f acc a = some (acc.1 + (g a).sum, acc.2 + (g a).length))
    (acc : ℚ × ℕ) :
    l.foldlM f acc = some (acc.1 + (l.flatMap g).sum, acc.2 + (l.flatMap g).length) := by
  induction l generalizing acc with
  | nil => simp [pure]
  | cons a l ih =>
    have hrest := ih fun b hb => h b (List.mem_cons_of_mem a hb)
    rw [List.foldlM_cons, h a List.mem_cons_self]
    show l.foldlM f _ = _
    rw [hrest, List.flatMap_cons, List.sum_append, List.length_append, add_assoc, Nat.add_assoc]

theorem mean_between {l : List ℚ} (hne : l ≠ []) {a b : ℚ} (h : ∀ x ∈ l, a < x ∧ x < b) :
    a < l.sum / l.length ∧ l.sum / l.length < b := by
  have hpos : (0 : ℚ) < l.length := Nat.cast_pos.2 (List.length_pos_iff.2 hne)
  have hlow := List.sum_lt_sum_of_ne_nil hne (fun _ => a) id fun x hx => (h x hx).1
  have hhigh := List.sum_lt_sum_of_ne_nil hne id (fun _ => b) fun x hx => (h x hx).2
  rw [List.map_id, List.map_const', List.sum_replicate, nsmul_eq_mul] at hlow hhigh
  constructor
  · rw [lt_div_iff₀ hpos, mul_comm]
    exact hlow
  · rw [div_lt_iff₀ hpos, mul_comm]
    exact hhigh

theorem sample_inside {depthData : Bytes} (himage : 1920 * imageHeight depthData = depthData.length / 4)
    {y x : ℕ} (hy : y < imageHeight depthData * 7 / 10) (hx : x < 1344) :
    4 * (y * 1920 + x) + 4 ≤ depthData.length := by
  omega

theorem row_adds {depthData : Bytes} (himage : 1920 * imageHeight depthData = depthData.length / 4)
    {y : ℕ} (hy : y < imageHeight depthData * 7 / 10) (acc : ℚ × ℕ) :
    (List.range' 576 768).foldlM (fun acc x => addSample depthData acc (y * 1920 + x)) acc =
      some (acc.1 + (rowSamples depthData y).sum, acc.2 + (rowSamples depthData y).length) := by
  apply foldlM_adds
  intro x hx acc
  rw [List.mem_range'_1] at hx
  exact addSample_eq (sample_inside himage hy (by omega)) acc

theorem windowSum_eq {depthData : Bytes}
    (himage : 1920 * imageHeight depthData = depthData.length / 4) :
    windowSum depthData 1920 (imageHeight depthData) =
      some ((windowSamples depthData).sum, (windowSamples depthData).length) := by
  have hrows : ∀ y ∈ List.range' (imageHeight depthData * 3 / 10)
      (imageHeight depthData * 7 / 10 - imageHeight depthData * 3 / 10),
      y < imageHeight depthData * 7 / 10 := by
    intro y hy
    rw [List.mem_range'_1] at hy
    omega
  have hall := foldlM_adds (fun y hy acc => row_adds himage (hrows y hy) acc) (0, 0)
  rw [zero_add, Nat.zero_add] at hall
  exact hall

/-- A buffer that is a whole number of rows gives the mean of its window's samples, every
other one 0; a mean of nothing is 0. -/
theorem calculateWorkingDistance_eq (depthData : Bytes) :
    calculateWorkingDistance depthData =
      some (if 1920 * imageHeight depthData = depthData.length / 4 then
        (windowSamples depthData).sum / (windowSamples depthData).length else 0) := by
  have hempty (hzero : imageHeight depthData = 0) : windowSamples depthData = [] := by
    rw [windowSamples, hzero]
    rfl
  unfold calculateWorkingDistance
  by_cases hshort : depthData.length < 4
  · have hzero : imageHeight depthData = 0 := by
      rw [imageHeight]
      omega
    rw [if_pos hshort, hempty hzero]
    simp [pure]
  · rw [if_neg hshort]
    dsimp only
    rw [if_neg (show ¬ depthData.length / 4 = 0 by omega)]
    by_cases himage : 1920 * imageHeight depthData = depthData.length / 4
    · have hwhole : ¬ (depthData.length / 4 / 1920 = 0 ∨
          1920 * (depthData.length / 4 / 1920) ≠ depthData.length / 4) := by
        rw [imageHeight] at himage
        omega
      have hsum : windowSum depthData 1920 (depthData.length / 4 / 1920) = _ := windowSum_eq himage
      rw [if_neg hwhole, if_pos himage, hsum]
      show (if (windowSamples depthData).length = 0 then some 0 else some _) = _
      split_ifs with hnone
      · simp [List.length_eq_zero_iff.1 hnone]
      · rfl
    · have hpart : depthData.length / 4 / 1920 = 0 ∨
          1920 * (depthData.length / 4 / 1920) ≠ depthData.length / 4 := .inr himage
      rw [if_pos hpart, if_neg himage]
      rfl

theorem windowSamples_range {depthData : Bytes} {mm : ℚ} (h : mm ∈ windowSamples depthData) :
    100 < mm ∧ mm < 5000 := by
  obtain ⟨y, x, -, -, -, -, hgood⟩ := mem_windowSamples.1 h
  obtain ⟨d, -, -, hrange⟩ := mem_goodSample.1 hgood
  exact hrange

/-- The distance as the module has it, with the code's own computation. -/
def Imaging.measured (img : Imaging ℚ) : Imaging ℚ :=
  { img with workingDistance := fun depthData => (calculateWorkingDistance depthData).getD 0 }

theorem Imaging.measured_range (img : Imaging ℚ) (depthData : Bytes) :
    img.measured.workingDistance depthData = 0 ∨
      100 < img.measured.workingDistance depthData ∧
        img.measured.workingDistance depthData < 5000 := by
  show (calculateWorkingDistance depthData).getD 0 = 0 ∨ 100 < (calculateWorkingDistance depthData).getD 0 ∧
    (calculateWorkingDistance depthData).getD 0 < 5000
  rw [calculateWorkingDistance_eq, Option.getD_some]
  split_ifs
  · by_cases hnil : windowSamples depthData = []
    · exact .inl (by simp [hnil])
    · exact .inr (mean_between hnil fun mm hmm => windowSamples_range hmm)
  · exact .inl rfl

def levelMap (rows : ℕ) (value : Bytes) : Bytes := (List.replicate (rows * 1920) value).flatten

theorem levelMap_length (rows : ℕ) {value : Bytes} (h : value.length = 4) :
    (levelMap rows value).length = 4 * (rows * 1920) := by
  simp [levelMap, h, Nat.mul_comm]

theorem floatAt_levelMap {rows i : ℕ} {value : Bytes} (h : value.length = 4)
    (hi : i < rows * 1920) :
    floatAt (levelMap rows value) i = some (floatValue (BigEndian.value value.reverse)) := by
  have hlen := levelMap_length rows h
  obtain ⟨k, hk⟩ : ∃ k, rows * 1920 = i + (k + 1) := ⟨rows * 1920 - i - 1, by omega⟩
  have hsplit : levelMap rows value =
      (List.replicate i value).flatten ++ (value ++ (List.replicate k value).flatten) := by
    rw [levelMap, hk, List.replicate_add, List.flatten_append, List.replicate_succ, List.flatten_cons]
  have hdrop : (levelMap rows value).drop (4 * i) = value ++ (List.replicate k value).flatten := by
    rw [hsplit]
    exact List.drop_left' (by simp [h, Nat.mul_comm])
  rw [floatAt, if_pos (by omega), hdrop, List.take_left' h]

theorem calculateWorkingDistance_level {rows : ℕ} {value : Bytes} {d : ℚ} (hrows : 2 ≤ rows)
    (h : value.length = 4) (hvalue : floatValue (BigEndian.value value.reverse) = .finite d)
    (hlow : 100 < d * 1000) (hhigh : d * 1000 < 5000) :
    calculateWorkingDistance (levelMap rows value) = some (d * 1000) := by
  have hheight : imageHeight (levelMap rows value) = rows := by
    rw [imageHeight, levelMap_length rows h]
    omega
  have hall : ∀ mm ∈ windowSamples (levelMap rows value), mm = d * 1000 := by
    intro mm hmm
    obtain ⟨y, x, -, hy, -, hx, hgood⟩ := mem_windowSamples.1 hmm
    obtain ⟨d', hd', rfl, -⟩ := mem_goodSample.1 hgood
    rw [hheight] at hy
    rw [floatAt_levelMap h (by omega), hvalue] at hd'
    cases hd'
    rfl
  have hne : windowSamples (levelMap rows value) ≠ [] := by
    apply List.ne_nil_of_mem (a := d * 1000)
    refine mem_windowSamples.2 ⟨rows * 3 / 10, 576, ?_, ?_, le_rfl, by omega, ?_⟩
    · rw [hheight]
    · rw [hheight]
      rcases hrows.eq_or_lt with rfl | hmore
      · decide
      · omega
    · refine mem_goodSample.2 ⟨d, ?_, rfl, hlow, hhigh⟩
      rw [floatAt_levelMap h (by omega), hvalue]
  have hpos : ((windowSamples (levelMap rows value)).length : ℚ) ≠ 0 :=
    Nat.cast_ne_zero.2 (mt List.length_eq_zero_iff.1 hne)
  have hsamples := List.eq_replicate_iff.2 ⟨rfl, hall⟩
  rw [calculateWorkingDistance_eq, hheight, levelMap_length rows h, if_pos (by omega)]
  congr 1
  rw [div_eq_iff hpos]
  nth_rewrite 1 [hsamples]
  rw [List.sum_replicate, nsmul_eq_mul, mul_comm]

theorem workingDistance_range (depthData : Bytes) :
    ∃ r, calculateWorkingDistance depthData = some r ∧
      (r = 0 ∨ windowSamples depthData ≠ [] ∧
        r = (windowSamples depthData).sum / (windowSamples depthData).length) ∧
      (∀ mm, mm ∈ windowSamples depthData ↔
        ∃ y x d, imageHeight depthData * 3 / 10 ≤ y ∧ y < imageHeight depthData * 7 / 10 ∧
          576 ≤ x ∧ x < 1344 ∧ floatAt depthData (y * 1920 + x) = some (.finite d) ∧
          mm = d * 1000 ∧ 100 < mm ∧ mm < 5000) ∧
      (r ≠ 0 → 100 < r ∧ r < 5000) := by
  refine ⟨_, calculateWorkingDistance_eq depthData, ?_, ?_, ?_⟩
  · split_ifs
    · by_cases hnil : windowSamples depthData = []
      · exact .inl (by simp [hnil])
      · exact .inr ⟨hnil, rfl⟩
    · exact .inl rfl
  · intro mm
    simp only [mem_windowSamples, mem_goodSample, exists_and_left]
  · split_ifs
    · intro hne
      refine mean_between ?_ fun mm hmm => windowSamples_range hmm
      intro hnil
      exact hne (by simp [hnil])
    · intro hne
      exact absurd rfl hne

end EcidsCore
