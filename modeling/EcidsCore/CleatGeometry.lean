import EcidsCore.GapPipeline
import EcidsCore.RunningExtreme
import Mathlib.Data.List.TakeWhile

set_option autoImplicit false

/-! What is stored about the outline of a cleat, and the order of its vertices. -/
namespace EcidsCore
open RunningExtreme

namespace CleatClassifier

/-- The image has its origin at the top, so that the lowest vertices have the greatest `y`. -/
def heights (vertices : List (ℝ × ℝ)) : List ℝ := vertices.map Prod.snd

noncomputable def lowest (vertices : List (ℝ × ℝ)) : ℝ := greatest (heights vertices)

noncomputable def highest (vertices : List (ℝ × ℝ)) : ℝ := least (heights vertices)

noncomputable def meanX (vertices : List (ℝ × ℝ)) : ℝ :=
  (vertices.map Prod.fst).sum / vertices.length

noncomputable def near (bottom : ℝ) (vertices : List (ℝ × ℝ)) : List (ℝ × ℝ) :=
  vertices.filter fun c => bottom - c.2 < 3

structure GeometryOf (vertices : List (ℝ × ℝ)) (cleat : ClassifiedCleat ℝ) : Prop where
  top : IsLeast {y | y ∈ heights vertices} cleat.topY
  bottom : IsGreatest {y | y ∈ heights vertices} cleat.bottomY
  midY : IsGreatest {y | y ∈ heights vertices} cleat.bottomMid.y
  center : cleat.centerX = meanX vertices
  midX : cleat.bottomMid.x = meanX (near cleat.bottomMid.y vertices)

theorem heights_ne_nil {vertices : List (ℝ × ℝ)} (h : vertices ≠ []) : heights vertices ≠ [] := by
  simpa [heights] using h

theorem detectionBottomY_eq {det : Detection ℝ} (h : det.coordinates ≠ []) :
    detectionBottomY det = max 0 (lowest det.coordinates) :=
  List.foldl_map.symm.trans (foldl_high_eq (heights_ne_nil h) 0)

theorem detectionTopY_eq {det : Detection ℝ} (h : det.coordinates ≠ []) :
    detectionTopY det =
      if highest det.coordinates < 1e18 then highest det.coordinates else 0 := by
  have hscan : det.coordinates.foldl (fun y c => low y c.2) 1e18 =
      min 1e18 (highest det.coordinates) :=
    List.foldl_map.symm.trans (foldl_low_eq (heights_ne_nil h) 1e18)
  change (if det.coordinates.foldl (fun y c => low y c.2) 1e18 < 1e18 then
    det.coordinates.foldl (fun y c => low y c.2) 1e18 else 0) = _
  rw [hscan]
  by_cases hlt : highest det.coordinates < 1e18
  · rw [if_pos hlt, min_eq_right (le_of_lt hlt)]
    exact if_pos hlt
  · rw [if_neg hlt, min_eq_left (not_lt.1 hlt)]
    exact if_neg (lt_irrefl _)

theorem bottom_iff {det : Detection ℝ} (h : det.coordinates ≠ []) :
    IsGreatest {y | y ∈ heights det.coordinates} (detectionBottomY det) ↔
      0 ≤ lowest det.coordinates := by
  have hlowest := greatest_isGreatest (heights_ne_nil h)
  rw [detectionBottomY_eq h]
  constructor
  · intro hgreatest
    exact max_eq_right_iff.1 (hgreatest.unique hlowest)
  · intro hpos
    rw [max_eq_right hpos]
    exact hlowest

theorem top_iff {det : Detection ℝ} (h : det.coordinates ≠ []) :
    IsLeast {y | y ∈ heights det.coordinates} (detectionTopY det) ↔
      highest det.coordinates < 1e18 := by
  have hhighest := least_isLeast (heights_ne_nil h)
  rw [detectionTopY_eq h]
  constructor
  · intro hleast
    by_contra hfar
    rw [if_neg hfar] at hleast
    have hzero : (0 : ℝ) = highest det.coordinates := hleast.unique hhighest
    rw [← hzero] at hfar
    norm_num at hfar
  · intro hlt
    rw [if_pos hlt]
    exact hhighest

noncomputable def before (vertices : List (ℝ × ℝ)) : List (ℝ × ℝ) :=
  vertices.takeWhile fun c => c.2 < lowest vertices

noncomputable def since (vertices : List (ℝ × ℝ)) : List (ℝ × ℝ) :=
  vertices.dropWhile fun c => c.2 < lowest vertices

theorem le_lowest {vertices : List (ℝ × ℝ)} {c : ℝ × ℝ} (hc : c ∈ vertices) :
    c.2 ≤ lowest vertices := by
  have hy : c.2 ∈ heights vertices := List.mem_map_of_mem hc
  exact (greatest_isGreatest (List.ne_nil_of_mem hy)).2 hy

theorem lowest_mem {vertices : List (ℝ × ℝ)} (h : vertices ≠ []) :
    ∃ c ∈ vertices, c.2 = lowest vertices :=
  List.mem_map.1 (greatest_isGreatest (heights_ne_nil h)).1

theorem lowest_eq {vertices : List (ℝ × ℝ)} {c : ℝ × ℝ} (hc : c ∈ vertices)
    (h : ∀ d ∈ vertices, d.2 ≤ c.2) : lowest vertices = c.2 := by
  obtain ⟨d, hd, hlowest⟩ := lowest_mem (List.ne_nil_of_mem hc)
  exact le_antisymm (hlowest ▸ h d hd) (le_lowest hc)

/-- The scan has summed up what is near the lowest vertex, from the first of those on. -/
structure Scanned (vertices : List (ℝ × ℝ)) (b : BottomRow ℝ) : Prop where
  maxY : b.maxY = lowest vertices
  sumX : b.sumX = ((near (lowest vertices) (since vertices)).map Prod.fst).sum
  count : b.count = (near (lowest vertices) (since vertices)).length

theorem before_above {vertices : List (ℝ × ℝ)} {c : ℝ × ℝ} (hc : c ∈ before vertices) :
    c.2 < lowest vertices := by
  simpa using List.mem_takeWhile_imp hc

theorem since_ne_nil {vertices : List (ℝ × ℝ)} (h : vertices ≠ []) : since vertices ≠ [] := by
  intro hnil
  obtain ⟨c, hc, hlowest⟩ := lowest_mem h
  have hbelow := List.dropWhile_eq_nil_iff.1 hnil c hc
  exact absurd hlowest (of_decide_eq_true hbelow).ne

theorem bottomVisit_below {vertices : List (ℝ × ℝ)} {b : BottomRow ℝ} {c : ℝ × ℝ}
    (hb : Scanned vertices b) (hlt : lowest vertices < c.2) :
    Scanned (vertices ++ [c]) (bottomVisit b c) := by
  have hlowest : lowest (vertices ++ [c]) = c.2 := by
    refine lowest_eq (by simp) fun d hd => ?_
    rcases List.mem_append.1 hd with hd | hd
    · exact (le_lowest hd).trans hlt.le
    · rw [List.mem_singleton.1 hd]
  have hsince : since (vertices ++ [c]) = [c] := by
    have hnone : vertices.dropWhile (fun d => d.2 < c.2) = [] :=
      List.dropWhile_eq_nil_iff.2 fun d hd => decide_eq_true ((le_lowest hd).trans_lt hlt)
    rw [since, hlowest, List.dropWhile_append, hnone]
    simp
  rw [bottomVisit, hb.maxY, if_pos hlt]
  constructor
  · exact hlowest.symm
  · simp [hlowest, hsince, near]
  · simp [hlowest, hsince, near]

theorem bottomVisit_near {vertices : List (ℝ × ℝ)} {b : BottomRow ℝ} {c : ℝ × ℝ}
    (h : vertices ≠ []) (hb : Scanned vertices b) (hle : c.2 ≤ lowest vertices) :
    Scanned (vertices ++ [c]) (bottomVisit b c) := by
  have hlowest : lowest (vertices ++ [c]) = lowest vertices := by
    obtain ⟨d, hd, hdl⟩ := lowest_mem h
    rw [← hdl]
    refine lowest_eq (List.mem_append_left _ hd) fun e he => ?_
    rcases List.mem_append.1 he with he | he
    · exact hdl ▸ le_lowest he
    · rw [List.mem_singleton.1 he, hdl]
      exact hle
  have hsince : since (vertices ++ [c]) = since vertices ++ [c] := by
    have hsome := since_ne_nil h
    rw [since] at hsome ⊢
    rw [hlowest, List.dropWhile_append, if_neg (by simpa using hsome)]
    rfl
  have habs : |c.2 - lowest vertices| = lowest vertices - c.2 := by
    rw [abs_sub_comm, abs_of_nonneg (sub_nonneg.2 hle)]
  rw [bottomVisit, hb.maxY, if_neg (not_lt.2 hle), abs_eq_abs, habs]
  have hthree : (3.0 : ℝ) = 3 := by norm_num
  rw [hthree]
  by_cases hnear : lowest vertices - c.2 < 3
  · rw [if_pos hnear]
    constructor
    · exact hlowest.symm
    · simp [hlowest, hsince, near, hnear, hb.sumX]
    · simp [hlowest, hsince, near, hnear, hb.count]
  · rw [if_neg hnear]
    constructor
    · exact hb.maxY.trans hlowest.symm
    · simp [hlowest, hsince, near, hnear, hb.sumX]
    · simp [hlowest, hsince, near, hnear, hb.count]

theorem scanned_singleton (c : ℝ × ℝ) : Scanned [c] (bottomVisit ⟨c.2, 0, 0⟩ c) := by
  have hlowest : lowest [c] = c.2 := lowest_eq (by simp) (by simp)
  have hvisit : bottomVisit ⟨c.2, 0, 0⟩ c = ⟨c.2, c.1, 1⟩ := by
    rw [bottomVisit, if_neg (lt_irrefl _), abs_eq_abs]
    norm_num
  rw [hvisit]
  constructor <;> simp [hlowest, since, near]

theorem foldl_bottomVisit (first : ℝ × ℝ) (rest : List (ℝ × ℝ)) :
    Scanned (first :: rest) ((first :: rest).foldl bottomVisit ⟨first.2, 0, 0⟩) := by
  induction rest using List.reverseRecOn with
  | nil => exact scanned_singleton first
  | append_singleton rest c ih =>
    rw [← List.cons_append, List.foldl_append, List.foldl_cons, List.foldl_nil]
    rcases lt_or_ge (lowest (first :: rest)) c.2 with hlt | hle
    · exact bottomVisit_below ih hlt
    · exact bottomVisit_near (by simp) ih hle

noncomputable def excess (m : ℝ) (vertices : List (ℝ × ℝ)) : ℝ :=
  (vertices.map fun c => c.1 - m).sum

theorem excess_append (m : ℝ) (a b : List (ℝ × ℝ)) :
    excess m (a ++ b) = excess m a + excess m b := by
  simp [excess]

theorem excess_perm (m : ℝ) {a b : List (ℝ × ℝ)} (h : a.Perm b) : excess m a = excess m b :=
  (h.map _).sum_eq

theorem excess_eq (m : ℝ) (vertices : List (ℝ × ℝ)) :
    excess m vertices = (vertices.map Prod.fst).sum - vertices.length * m := by
  induction vertices with
  | nil => simp [excess]
  | cons c rest ih =>
    rw [excess] at ih ⊢
    simp only [List.map_cons, List.sum_cons, List.length_cons, Nat.cast_add, Nat.cast_one, ih]
    ring

theorem excess_eq_zero {m : ℝ} {vertices : List (ℝ × ℝ)} (h : ∀ c ∈ vertices, c.1 = m) :
    excess m vertices = 0 := by
  refine List.sum_eq_zero fun d hd => ?_
  obtain ⟨c, hc, rfl⟩ := List.mem_map.1 hd
  exact sub_eq_zero.2 (h c hc)

theorem meanX_eq_iff {m : ℝ} {vertices : List (ℝ × ℝ)} (h : vertices ≠ []) :
    meanX vertices = m ↔ excess m vertices = 0 := by
  have hlength : (vertices.length : ℝ) ≠ 0 := by simpa using h
  rw [meanX, excess_eq, div_eq_iff hlength, sub_eq_zero, mul_comm]

theorem meanX_perm {a b : List (ℝ × ℝ)} (h : a.Perm b) : meanX a = meanX b := by
  rw [meanX, meanX, (h.map _).sum_eq, h.length_eq]

theorem meanX_append_iff {a b : List (ℝ × ℝ)} (hb : b ≠ []) :
    meanX (a ++ b) = meanX b ↔ a = [] ∨ meanX a = meanX b := by
  have hzero : excess (meanX b) b = 0 := (meanX_eq_iff hb).1 rfl
  rw [meanX_eq_iff (by simp [hb]), excess_append, hzero, add_zero]
  by_cases ha : a = []
  · simp [ha, excess]
  · rw [← meanX_eq_iff ha]
    exact ⟨.inr, fun h => h.resolve_left ha⟩

theorem near_append (bottom : ℝ) (a b : List (ℝ × ℝ)) :
    near bottom (a ++ b) = near bottom a ++ near bottom b := List.filter_append a b

theorem near_split (vertices : List (ℝ × ℝ)) :
    near (lowest vertices) vertices =
      near (lowest vertices) (before vertices) ++ near (lowest vertices) (since vertices) := by
  rw [← near_append]
  exact congrArg (near _) List.takeWhile_append_dropWhile.symm

theorem near_since_ne_nil {vertices : List (ℝ × ℝ)} (h : vertices ≠ []) :
    near (lowest vertices) (since vertices) ≠ [] := by
  obtain ⟨c, hc, hlowest⟩ := lowest_mem h
  have hsince : c ∈ since vertices := by
    rw [← List.takeWhile_append_dropWhile (p := fun c => decide (c.2 < lowest vertices))
      (l := vertices), List.mem_append] at hc
    exact hc.resolve_left fun hbefore => (before_above hbefore).ne hlowest
  exact List.ne_nil_of_mem (List.mem_filter.2 ⟨hsince, by simp [hlowest]⟩)

theorem detectionBottomMid_eq {det : Detection ℝ} (h : det.coordinates ≠ []) :
    detectionBottomMid det =
      ⟨meanX (near (lowest det.coordinates) (since det.coordinates)), lowest det.coordinates⟩ := by
  cases hcs : det.coordinates with
  | nil => exact absurd hcs h
  | cons first rest =>
    have hscan := foldl_bottomVisit first rest
    have hsome : near (lowest (first :: rest)) (since (first :: rest)) ≠ [] :=
      near_since_ne_nil (by simp)
    unfold detectionBottomMid
    rw [hcs]
    dsimp only
    rw [hscan.maxY, hscan.sumX, hscan.count, if_pos (List.length_pos_iff.2 hsome), ofNat_eq_cast]
    rfl

theorem detectionCenterX_eq {det : Detection ℝ} (h : det.coordinates ≠ []) :
    detectionCenterX det = meanX det.coordinates := by
  rw [detectionCenterX, if_neg h, ofNat_eq_cast, meanX, List.sum_eq_foldl, List.foldl_map]

theorem geometryOf_iff {det : Detection ℝ} (type : CleatType) (h : det.coordinates ≠ []) :
    GeometryOf det.coordinates (makeClassified type det) ↔
      highest det.coordinates < 1e18 ∧ 0 ≤ lowest det.coordinates ∧
        meanX (near (lowest det.coordinates) det.coordinates) =
          meanX (near (lowest det.coordinates) (since det.coordinates)) := by
  have hmid := detectionBottomMid_eq h
  constructor
  · intro hgeometry
    refine ⟨(top_iff h).1 hgeometry.top, (bottom_iff h).1 hgeometry.bottom, ?_⟩
    have hmidX := hgeometry.midX
    rw [makeClassified, hmid] at hmidX
    exact hmidX.symm
  · rintro ⟨htop, hbottom, hmean⟩
    refine ⟨(top_iff h).2 htop, (bottom_iff h).2 hbottom, ?_, detectionCenterX_eq h, ?_⟩
    · rw [makeClassified, hmid]
      exact greatest_isGreatest (heights_ne_nil h)
    · rw [makeClassified, hmid]
      exact hmean.symm

noncomputable def atBottom (vertices : List (ℝ × ℝ)) : List (ℝ × ℝ) :=
  vertices.filter fun c => c.2 = lowest vertices

noncomputable def aboveBottom (vertices : List (ℝ × ℝ)) : List (ℝ × ℝ) :=
  vertices.filter fun c => !decide (c.2 = lowest vertices)

theorem bottom_perm (vertices : List (ℝ × ℝ)) :
    (aboveBottom vertices ++ atBottom vertices).Perm vertices :=
  List.perm_append_comm.trans (List.filter_append_perm _ vertices)

theorem atBottom_ne_nil {vertices : List (ℝ × ℝ)} (h : vertices ≠ []) :
    atBottom vertices ≠ [] := by
  obtain ⟨c, hc, hlowest⟩ := lowest_mem h
  exact List.ne_nil_of_mem (List.mem_filter.2 ⟨hc, decide_eq_true hlowest⟩)

theorem lowest_perm {order vertices : List (ℝ × ℝ)} (h : order.Perm vertices) :
    lowest order = lowest vertices := greatest_perm (h.map Prod.snd)

theorem highest_perm {order vertices : List (ℝ × ℝ)} (h : order.Perm vertices) :
    highest order = highest vertices := least_perm (h.map Prod.snd)

theorem near_perm (bottom : ℝ) {order vertices : List (ℝ × ℝ)} (h : order.Perm vertices) :
    (near bottom order).Perm (near bottom vertices) := h.filter _

theorem since_order {vertices ahead behind : List (ℝ × ℝ)}
    (h : (ahead ++ (atBottom vertices ++ behind)).Perm vertices) (hne : vertices ≠ [])
    (hahead : ∀ c ∈ ahead, c.2 ≠ lowest vertices) :
    since (ahead ++ (atBottom vertices ++ behind)) = atBottom vertices ++ behind := by
  have hbelow : ∀ c ∈ ahead, decide (c.2 < lowest vertices) = true := by
    intro c hc
    have hle := le_lowest (h.mem_iff.1 (List.mem_append_left _ hc))
    exact decide_eq_true (lt_of_le_of_ne hle (hahead c hc))
  rw [since, lowest_perm h, List.dropWhile_append_of_pos hbelow]
  cases hbottom : atBottom vertices with
  | nil => exact absurd hbottom (atBottom_ne_nil hne)
  | cons c rest =>
    have hc : c ∈ atBottom vertices := hbottom ▸ List.mem_cons_self
    have hlowest : c.2 = lowest vertices := of_decide_eq_true (List.mem_filter.1 hc).2
    rw [List.cons_append, List.dropWhile_cons_of_neg (by simp [hlowest])]

theorem near_atBottom (vertices : List (ℝ × ℝ)) :
    near (lowest vertices) (atBottom vertices) = atBottom vertices := by
  refine List.filter_eq_self.2 fun c hc => ?_
  have hlowest : c.2 = lowest vertices := of_decide_eq_true (List.mem_filter.1 hc).2
  simp [hlowest]

theorem kept_mean {vertices ahead behind : List (ℝ × ℝ)} (hne : vertices ≠ [])
    (hall : ∀ order : List (ℝ × ℝ), order.Perm vertices →
      meanX (near (lowest order) order) = meanX (near (lowest order) (since order)))
    (h : (ahead ++ (atBottom vertices ++ behind)).Perm vertices)
    (hahead : ∀ c ∈ ahead, c.2 ≠ lowest vertices) :
    meanX (near (lowest vertices) vertices) =
      meanX (atBottom vertices ++ near (lowest vertices) behind) := by
  have hmean := hall _ h
  rw [since_order h hne hahead, lowest_perm h, meanX_perm (near_perm _ h), near_append,
    near_atBottom] at hmean
  exact hmean

theorem off_bottom {vertices : List (ℝ × ℝ)} {c : ℝ × ℝ} (hc : c ∈ aboveBottom vertices) :
    c.2 ≠ lowest vertices := by
  simpa using (List.mem_filter.1 hc).2

theorem mem_aboveBottom {vertices : List (ℝ × ℝ)} {c : ℝ × ℝ} (hc : c ∈ vertices)
    (hoff : c.2 ≠ lowest vertices) : c ∈ aboveBottom vertices :=
  List.mem_filter.2 ⟨hc, by simpa using hoff⟩

theorem x_eq_of_every_order {vertices : List (ℝ × ℝ)} (hne : vertices ≠ [])
    (hall : ∀ order : List (ℝ × ℝ), order.Perm vertices →
      meanX (near (lowest order) order) = meanX (near (lowest order) (since order)))
    {c : ℝ × ℝ} (hc : c ∈ near (lowest vertices) vertices) (hoff : c.2 ≠ lowest vertices) :
    c.1 = meanX (atBottom vertices) := by
  obtain ⟨hmem, hnear⟩ := List.mem_filter.1 hc
  have hbehind := kept_mean hne hall
    (show (aboveBottom vertices ++ (atBottom vertices ++ [])).Perm vertices by
      simpa using bottom_perm vertices) fun d hd => off_bottom hd
  obtain ⟨s, t, hst⟩ := List.append_of_mem (mem_aboveBottom hmem hoff)
  have hperm : ((s ++ t) ++ (atBottom vertices ++ [c])).Perm vertices := by
    refine List.Perm.trans ?_ (bottom_perm vertices)
    rw [hst, ← List.append_assoc]
    exact (List.perm_append_singleton c _).trans (List.perm_middle.symm.append_right _)
  have hone := kept_mean hne hall hperm fun d hd => off_bottom (by
    rw [hst]
    exact List.mem_append.2 ((List.mem_append.1 hd).imp_right (List.mem_cons_of_mem c)))
  have hlast : near (lowest vertices) [c] = [c] := List.filter_eq_self.2 (by simpa using hnear)
  have hnil : near (lowest vertices) [] = [] := rfl
  rw [hbehind, hnil, List.append_nil, hlast, meanX_perm List.perm_append_comm] at hone
  have hmean := ((meanX_append_iff (atBottom_ne_nil hne)).1 hone.symm).resolve_left
    (List.cons_ne_nil c [])
  rw [← hmean]
  simp [meanX]

theorem excess_near_order {vertices order : List (ℝ × ℝ)} (hne : vertices ≠ [])
    (hx : ∀ c ∈ near (lowest vertices) vertices, c.2 ≠ lowest vertices →
      c.1 = meanX (atBottom vertices))
    (horder : order.Perm vertices) :
    excess (meanX (atBottom vertices)) (near (lowest order) order) = 0 ∧
      excess (meanX (atBottom vertices)) (near (lowest order) (before order)) = 0 := by
  constructor
  · have habove : excess (meanX (atBottom vertices))
        (near (lowest vertices) (aboveBottom vertices)) = 0 := by
      refine excess_eq_zero fun c hc => ?_
      obtain ⟨hmem, hclose⟩ := List.mem_filter.1 hc
      exact hx c (List.mem_filter.2 ⟨(List.mem_filter.1 hmem).1, hclose⟩) (off_bottom hmem)
    have hsplit := near_perm (lowest vertices) (horder.trans (bottom_perm vertices).symm)
    rw [lowest_perm horder, excess_perm _ hsplit, near_append, near_atBottom, excess_append,
      habove, (meanX_eq_iff (atBottom_ne_nil hne)).1 rfl, add_zero]
  · refine excess_eq_zero fun c hc => ?_
    obtain ⟨hmem, hclose⟩ := List.mem_filter.1 hc
    have habove := before_above hmem
    rw [lowest_perm horder] at habove hclose
    have hin := horder.mem_iff.1 ((List.takeWhile_sublist _).subset hmem)
    exact hx c (List.mem_filter.2 ⟨hin, hclose⟩) habove.ne

/-- What is near the lowest vertices has, in each order, the mean of what the scan keeps. -/
theorem every_order_iff {vertices : List (ℝ × ℝ)} (hne : vertices ≠ []) :
    (∀ order : List (ℝ × ℝ), order.Perm vertices →
      meanX (near (lowest order) order) = meanX (near (lowest order) (since order))) ↔
      ∀ c ∈ near (lowest vertices) vertices, c.2 ≠ lowest vertices →
        c.1 = meanX (atBottom vertices) := by
  constructor
  · intro hall c hc hoff
    exact x_eq_of_every_order hne hall hc hoff
  · intro hx order horder
    have hne' : order ≠ [] := by
      rintro rfl
      exact hne horder.nil_eq.symm
    obtain ⟨hnear, hbefore⟩ := excess_near_order hne hx horder
    have hsince : excess (meanX (atBottom vertices)) (near (lowest order) (since order)) = 0 := by
      rwa [near_split, excess_append, hbefore, zero_add] at hnear
    have hsome := near_since_ne_nil hne'
    rw [(meanX_eq_iff hsome).2 hsince, meanX_eq_iff (by rw [near_split]; simp [hsome])]
    exact hnear

/-- What is stored does not depend on the order of the vertices only when none of them is
too far up or down and what is near the lowest ones lies, in the mean, where they lie. -/
theorem makeClassified_geometry (type : CleatType) {det : Detection ℝ}
    (h : det.coordinates ≠ []) :
    let vertices := det.coordinates
    let bottom := lowest vertices
    (GeometryOf vertices (makeClassified type det) ↔
      highest vertices < 1e18 ∧ 0 ≤ bottom ∧ (near bottom (before vertices) = [] ∨
        meanX (near bottom (before vertices)) = meanX (near bottom (since vertices)))) ∧
    ((∀ other : Detection ℝ, other.coordinates.Perm vertices →
      GeometryOf other.coordinates (makeClassified type other)) ↔
      highest vertices < 1e18 ∧ 0 ≤ bottom ∧
        ∀ c ∈ near bottom vertices, c.2 ≠ bottom → c.1 = meanX (atBottom vertices)) := by
  dsimp only
  constructor
  · rw [geometryOf_iff type h, near_split, meanX_append_iff (near_since_ne_nil h)]
  · rw [← every_order_iff h]
    constructor
    · intro hall
      have hgiven := (geometryOf_iff type h).1 (hall det (.refl _))
      refine ⟨hgiven.1, hgiven.2.1, fun order horder => ?_⟩
      have hne : order ≠ [] := fun hnil => h (hnil ▸ horder).nil_eq.symm
      have hother := hall { det with coordinates := order } horder
      exact ((geometryOf_iff type hne).1 hother).2.2
    · rintro ⟨htop, hbottom, hmean⟩ other hperm
      have hne : other.coordinates ≠ [] := fun hnil => h (hnil ▸ hperm).nil_eq.symm
      rw [geometryOf_iff type hne, lowest_perm hperm, highest_perm hperm]
      refine ⟨htop, hbottom, ?_⟩
      have hgiven := hmean other.coordinates hperm
      rwa [lowest_perm hperm] at hgiven

def slanted (vertices : List (ℝ × ℝ)) : Detection ℝ :=
  { labelId := "tread_cleat_up", confidence := 1, fileName := "left.jpg", coordinates := vertices }

theorem lowest_slanted : lowest [(0, 98), (10, 100)] = 100 :=
  lowest_eq (c := (10, 100)) (by simp) (by norm_num)

theorem makeClassified_geometry_slanted :
    ¬ GeometryOf (slanted [(0, 98), (10, 100)]).coordinates
        (makeClassified .long (slanted [(0, 98), (10, 100)])) := by
  intro hgeometry
  have hmean := ((geometryOf_iff .long (by simp [slanted])).1 hgeometry).2.2
  simp only [slanted, lowest_slanted, since] at hmean
  norm_num [near, meanX] at hmean

theorem makeClassified_geometry_slanted_back :
    GeometryOf (slanted [(10, 100), (0, 98)]).coordinates
      (makeClassified .long (slanted [(10, 100), (0, 98)])) := by
  have hlowest : lowest [(10, 100), (0, 98)] = 100 :=
    (lowest_perm (.swap _ _ [])).trans lowest_slanted
  have hhighest : highest [(10, 100), (0, 98)] = 98 := by
    refine (least_isLeast (by simp [heights])).unique ⟨by simp [heights], ?_⟩
    norm_num [heights, mem_lowerBounds]
  refine (makeClassified_geometry .long (by simp [slanted])).1.2 ⟨?_, ?_, .inl ?_⟩
  · norm_num [slanted, hhighest]
  · norm_num [slanted, hlowest]
  · simp [slanted, hlowest, before, near]

end CleatClassifier
end EcidsCore
