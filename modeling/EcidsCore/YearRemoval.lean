import EcidsCore.DigitOrder
import EcidsCore.HouseKeeper
import EcidsCore.PathContainment
import Mathlib.Algebra.BigOperators.Finprod

set_option autoImplicit false

/-! A pass of the house-keeping over a database root of directories with sizes: it removes
the shortest prefix of the years that brings the total down to the threshold. -/
namespace EcidsCore
open ByteText PathResolution

variable {R : Type}

/-- A directory of the database root: its name is one component, and its size the number of
bytes in the files below it. -/
structure RootDir where
  name : Bytes
  size : ℕ
  no_slash : slash ∉ name
  enters : ¬ Stays fullStop name ∧ ¬ Climbs fullStop name

namespace RootDir

def entry (e : RootDir) : DirEntry := ⟨e.name, .ok .directory⟩

end RootDir

def placeOf (cwd : List Bytes) (root name : Bytes) : List Bytes := resolvedPath cwd root ++ [name]

def fileSize (disk : Files) (p : List Bytes) : ℕ := ((disk p).map List.length).getD 0

noncomputable def bytesBelow (disk : Files) (place : List Bytes) : ℕ :=
  ∑ᶠ p ∈ {p | place <+: p}, fileSize disk p

/-- The disk holds these directories below the root, and nothing else there. -/
structure Holds (cwd : List Bytes) (root : Bytes) (disk : Files) (dirs : List RootDir) : Prop where
  finite : {p | resolvedPath cwd root <+: p ∧ disk p ≠ none}.Finite
  sizes : ∀ e ∈ dirs, bytesBelow disk (placeOf cwd root e.name) = e.size
  inside : ∀ p, resolvedPath cwd root <+: p → disk p ≠ none →
    ∃ e ∈ dirs, placeOf cwd root e.name <+: p

def totalSize (dirs : List RootDir) : ℕ := (dirs.map RootDir.size).sum

def leftOf (dirs : List RootDir) (gone : List Bytes) : List RootDir :=
  dirs.filter fun e => !gone.contains e.name

/-- Every reading of the size is that of the directories then on the disk. -/
def SizeIsTotal (cwd : List Bytes) (root : Bytes) (size : SizeProvider R) (toGb : ℕ → R) : Prop :=
  ∀ k disk dirs, (dirs.map RootDir.name).Nodup → Holds cwd root disk dirs →
    size k disk = toGb (totalSize dirs)

/-- `remove_all` leaves nothing of the directory. -/
def RemoveAll.Succeeds {cwd : List Bytes} (rm : RemoveAll cwd) : Prop :=
  ∀ dir disk p, resolvedPath cwd dir <+: p → rm.remove dir disk p = none

variable {cwd : List Bytes} {root : Bytes}

theorem resolvedPath_joinPath (hroot : root ≠ []) (e : RootDir) :
    resolvedPath cwd (joinPath root e.name) = placeOf cwd root e.name := by
  have hname : components slash e.name = [e.name] := List.splitOn_eq_singleton e.no_slash
  have hhead (rest : Bytes) : (root ++ rest).head? = root.head? :=
    List.head?_append_of_ne_nil root hroot
  rw [joinPath]
  split
  · rename_i hlast
    obtain ⟨r, rfl⟩ := List.getLast?_eq_some_iff.1 hlast
    have hroot : components slash (r ++ [slash]) = components slash r ++ [[]] :=
      components_append r []
    have hjoined : components slash (r ++ [slash] ++ e.name) = components slash r ++ [e.name] := by
      rw [List.append_assoc, List.singleton_append, components_append, hname]
    rw [placeOf, resolvedPath, resolvedPath, hhead, hroot, hjoined, resolve_append _ _ [[]],
      resolve_cons, resolve_nil, enter, if_pos (stays_nil fullStop)]
    exact resolve_concat e.enters.1 e.enters.2 _ _
  · rw [placeOf, resolvedPath, resolvedPath, hhead, components_append, hname]
    exact resolve_concat e.enters.1 e.enters.2 _ _

theorem placeOf_inj {name name' : Bytes} {p : List Bytes} (h : placeOf cwd root name <+: p)
    (h' : placeOf cwd root name' <+: p) : name = name' := by
  have hlen : (placeOf cwd root name).length = (placeOf cwd root name').length := by
    simp [placeOf]
  have heq := (List.prefix_of_prefix_length_le h h' hlen.le).eq_of_length hlen
  simpa [placeOf] using heq

theorem fileSize_eq_zero {disk : Files} {p : List Bytes} (h : disk p = none) :
    fileSize disk p = 0 := by
  rw [fileSize, h]
  rfl

theorem totalSize_eq {disk : Files} {dirs : List RootDir}
    (hfinite : {p | resolvedPath cwd root <+: p ∧ disk p ≠ none}.Finite)
    (hsizes : ∀ e ∈ dirs, bytesBelow disk (placeOf cwd root e.name) = e.size)
    (hnodup : (dirs.map RootDir.name).Nodup) :
    ∑ᶠ p ∈ {p | ∃ e ∈ dirs, placeOf cwd root e.name <+: p}, fileSize disk p = totalSize dirs := by
  have hsupport (s : Set (List Bytes)) (hs : ∀ p ∈ s, resolvedPath cwd root <+: p) :
      (s ∩ Function.support (fileSize disk)).Finite := by
    refine hfinite.subset ?_
    rintro p ⟨hp, hsize⟩
    exact ⟨hs p hp, fun hnone => hsize (fileSize_eq_zero hnone)⟩
  have hbelow (name : Bytes) (p : List Bytes) (hp : placeOf cwd root name <+: p) :
      resolvedPath cwd root <+: p := (List.prefix_append _ _).trans hp
  induction dirs with
  | nil => simp [totalSize]
  | cons e dirs ih =>
    obtain ⟨hnew, hrest⟩ := List.nodup_cons.1 hnodup
    have hunion : {p | ∃ d ∈ e :: dirs, placeOf cwd root d.name <+: p} =
        {p | placeOf cwd root e.name <+: p} ∪ {p | ∃ d ∈ dirs, placeOf cwd root d.name <+: p} := by
      ext p
      simp
    have hdisjoint : Disjoint {p | placeOf cwd root e.name <+: p}
        {p | ∃ d ∈ dirs, placeOf cwd root d.name <+: p} := by
      rw [Set.disjoint_left]
      rintro p hp ⟨d, hd, hpd⟩
      exact hnew (placeOf_inj hp hpd ▸ List.mem_map_of_mem hd)
    have hfirst := hsizes e List.mem_cons_self
    rw [bytesBelow] at hfirst
    rw [hunion, finsum_mem_union' hdisjoint (hsupport _ fun p hp => hbelow e.name p hp)
      (hsupport _ fun p ⟨d, _, hp⟩ => hbelow d.name p hp), hfirst,
      ih (fun d hd => hsizes d (List.mem_cons_of_mem e hd)) hrest]
    simp [totalSize]

theorem Holds.total {disk : Files} {dirs : List RootDir} (h : Holds cwd root disk dirs)
    (hnodup : (dirs.map RootDir.name).Nodup) :
    bytesBelow disk (resolvedPath cwd root) = totalSize dirs := by
  rw [← totalSize_eq h.finite h.sizes hnodup, bytesBelow]
  apply finsum_mem_inter_support_eq'
  intro p hp
  constructor
  · intro hroot
    exact h.inside p hroot fun hnone => hp (fileSize_eq_zero hnone)
  · rintro ⟨e, -, hbelow⟩
    exact (List.prefix_append _ _).trans hbelow

/-- The sum over all files below the root is such a size. -/
theorem bytesBelow_isTotal (cwd : List Bytes) (root : Bytes) (toGb : ℕ → R) :
    SizeIsTotal cwd root (fun _ disk => toGb (bytesBelow disk (resolvedPath cwd root))) toGb :=
  fun _ _ _ hnodup h => congrArg toGb (h.total hnodup)

theorem mem_leftOf {dirs : List RootDir} {gone : List Bytes} {e : RootDir} :
    e ∈ leftOf dirs gone ↔ e ∈ dirs ∧ e.name ∉ gone := by
  simp [leftOf]

theorem nodup_leftOf {dirs : List RootDir} (h : (dirs.map RootDir.name).Nodup) (gone : List Bytes) :
    ((leftOf dirs gone).map RootDir.name).Nodup :=
  h.sublist (List.filter_sublist.map RootDir.name)

theorem leftOf_cons (dirs : List RootDir) (name : Bytes) (gone : List Bytes) :
    leftOf dirs (name :: gone) = leftOf (leftOf dirs [name]) gone := by
  rw [leftOf, leftOf, leftOf, List.filter_filter]
  refine List.filter_congr fun e _ => ?_
  simp [Bool.and_comm]

variable {rm : RemoveAll cwd}

theorem Holds.remove {disk : Files} {dirs : List RootDir} (h : Holds cwd root disk dirs)
    (hrm : rm.Succeeds) {dir name : Bytes} (hdir : resolvedPath cwd dir = placeOf cwd root name) :
    Holds cwd root (rm.remove dir disk) (leftOf dirs [name]) := by
  have hgone (p : List Bytes) (hp : placeOf cwd root name <+: p) : rm.remove dir disk p = none :=
    hrm dir disk p (hdir ▸ hp)
  have hkept (p : List Bytes) (hp : ¬ placeOf cwd root name <+: p) :
      rm.remove dir disk p = disk p := rm.outside dir disk p (hdir ▸ hp)
  have hstill (p : List Bytes) (hp : rm.remove dir disk p ≠ none) :
      ¬ placeOf cwd root name <+: p ∧ disk p ≠ none := by
    have hout : ¬ placeOf cwd root name <+: p := fun hin => hp (hgone p hin)
    exact ⟨hout, hkept p hout ▸ hp⟩
  refine ⟨?_, ?_, ?_⟩
  · refine h.finite.subset ?_
    rintro p ⟨hroot, hp⟩
    exact ⟨hroot, (hstill p hp).2⟩
  · intro e he
    obtain ⟨hmem, hname⟩ := mem_leftOf.1 he
    rw [← h.sizes e hmem, bytesBelow, bytesBelow]
    refine finsum_mem_congr rfl ?_
    intro p hp
    have hout : ¬ placeOf cwd root name <+: p := by
      intro hin
      exact hname (List.mem_singleton.2 (placeOf_inj hp hin))
    rw [fileSize, fileSize, hkept p hout]
  · intro p hroot hp
    obtain ⟨hout, hdisk⟩ := hstill p hp
    obtain ⟨e, he, hbelow⟩ := h.inside p hroot hdisk
    refine ⟨e, mem_leftOf.2 ⟨he, ?_⟩, hbelow⟩
    intro hname
    obtain rfl : e.name = name := List.mem_singleton.1 hname
    exact hout hbelow

theorem Holds.removeAll {disk : Files} {dirs : List RootDir} (h : Holds cwd root disk dirs)
    (hrm : rm.Succeeds) (hroot : root ≠ []) (gone : List RootDir) :
    Holds cwd root
      ((gone.map fun e => joinPath root e.name).foldl (fun d dir => rm.remove dir d) disk)
      (leftOf dirs (gone.map RootDir.name)) := by
  induction gone generalizing disk dirs with
  | nil =>
    have hall : leftOf dirs [] = dirs := List.filter_eq_self.2 (by simp)
    rw [List.map_nil, List.map_nil, hall]
    exact h
  | cons e gone ih =>
    rw [List.map_cons, List.map_cons, List.foldl_cons, leftOf_cons]
    exact ih (h.remove hrm (resolvedPath_joinPath hroot e))

namespace HouseKeeper

def yearsOf (dirs : List RootDir) : List RootDir :=
  (dirs.filter fun e => e.name.length = 4).mergeSort fun a b => ¬ b.name < a.name

theorem yearsOf_perm (dirs : List RootDir) :
    (yearsOf dirs).Perm (dirs.filter fun e => e.name.length = 4) :=
  List.mergeSort_perm _ _

theorem yearsOf_sorted {dirs : List RootDir} (h : (dirs.map RootDir.name).Nodup) :
    (yearsOf dirs).Pairwise fun a b => a.name < b.name := by
  have hsorted : (yearsOf dirs).Pairwise fun a b => decide (¬ b.name < a.name) = true := by
    apply List.pairwise_mergeSort
    · intro a b c hab hbc
      simp only [decide_eq_true_eq, List.not_lt] at hab hbc ⊢
      exact List.le_trans hab hbc
    · intro a b
      simp only [Bool.or_eq_true, decide_eq_true_eq, List.not_lt]
      exact List.le_total _ _
  have hdistinct : (yearsOf dirs).Pairwise fun a b => a.name ≠ b.name := by
    have hyears := h.sublist (List.filter_sublist (p := fun e => e.name.length = 4).map RootDir.name)
    rw [← ((yearsOf_perm dirs).map RootDir.name).nodup_iff] at hyears
    exact List.pairwise_map.1 hyears
  refine (hsorted.and hdistinct).imp ?_
  rintro a b ⟨hle, hne⟩
  by_contra hge
  exact hne (List.le_antisymm (List.not_lt.1 (of_decide_eq_true hle)) (List.not_lt.1 hge))

theorem joinPath_lt_iff (root a b : Bytes) : joinPath root a < joinPath root b ↔ a < b := by
  have hcut (pre : Bytes) : pre ++ a < pre ++ b ↔ a < b := by
    rw [DigitOrder.append_lt_append_iff rfl]
    simp [List.lt_irrefl]
  rw [joinPath, joinPath]
  split
  · exact hcut root
  · rw [List.append_cons root slash a, List.append_cons root slash b]
    exact hcut (root ++ [slash])

theorem foldlM_yearVisit (dirs : List RootDir) (found : List Bytes) :
    (dirs.map RootDir.entry).foldlM (yearVisit root) found =
      .ok (found ++ (dirs.filter fun e => e.name.length = 4).map fun e => joinPath root e.name) := by
  induction dirs generalizing found with
  | nil => simp [pure, Except.pure]
  | cons e dirs ih =>
    have hvisit : yearVisit root found e.entry =
        .ok (if e.name.length = 4 then found ++ [joinPath root e.name] else found) := by
      simp [yearVisit, RootDir.entry, bind, Except.bind, pure, Except.pure]
    rw [List.map_cons, List.foldlM_cons, hvisit]
    show (dirs.map RootDir.entry).foldlM (yearVisit root) _ = _
    rw [ih]
    by_cases hfour : e.name.length = 4
    · simp [hfour]
    · simp [hfour]

theorem yearDirs_eq {fs : FileSystem} {dirs : List RootDir}
    (h : fs.listDirectory root = (dirs.map RootDir.entry, none)) :
    yearDirs fs root = .ok ((yearsOf dirs).map fun e => joinPath root e.name) := by
  have hsort := List.map_mergeSort (r := fun a b : RootDir => decide (¬ b.name < a.name))
    (s := fun a b => decide (¬ b < a)) (f := fun e => joinPath root e.name)
    (l := dirs.filter fun e => e.name.length = 4)
    (fun a _ b _ => by simp only [joinPath_lt_iff])
  rw [yearDirs, h, foldlM_yearVisit]
  exact congrArg Except.ok hsort.symm

section Removal
variable [Double R] {size : SizeProvider R} {maxSize : R}

theorem clean_disk (maxSize : R) (size : SizeProvider R) (dirs : List Bytes) (disk : Files) :
    (clean rm maxSize size dirs disk).2 =
      (clean rm maxSize size dirs disk).1.foldl (fun d dir => rm.remove dir d) disk := by
  induction dirs generalizing size disk with
  | nil => rfl
  | cons dir dirs ih =>
    rw [clean]
    split
    · exact ih _ _
    · rfl

theorem clean_stops (rm : RemoveAll cwd) (maxSize : R) (size : SizeProvider R) (dirs : List Bytes) (disk : Files) :
    ∃ k ≤ dirs.length,
      clean rm maxSize size dirs disk =
        (dirs.take k, (dirs.take k).foldl (fun d dir => rm.remove dir d) disk) ∧
      (∀ i < k, maxSize < reading rm size dirs disk i) ∧
      (k < dirs.length → ¬ maxSize < reading rm size dirs disk k) := by
  have hstart : (clean rm maxSize size dirs disk).1 <+: dirs := clean_prefix maxSize size dirs disk
  have htake := List.prefix_iff_eq_take.1 hstart
  have hdisk : (clean rm maxSize size dirs disk).2 = _ := clean_disk maxSize size dirs disk
  have hlt := fun i => (lt_clean_length maxSize size dirs disk i : i < (clean rm _ _ _ _).1.length ↔ _)
  refine ⟨(clean rm maxSize size dirs disk).1.length, hstart.length_le, ?_, ?_, ?_⟩
  · rw [← htake]
    exact Prod.ext rfl hdisk
  · intro i hi
    exact ((hlt i).1 hi).2 i le_rfl
  · intro hmore habove
    refine absurd ((hlt _).2 ⟨hmore, ?_⟩) (lt_irrefl _)
    intro j hj
    rcases hj.lt_or_eq with hjlt | rfl
    · exact ((hlt j).1 hjlt).2 j le_rfl
    · exact habove

omit [Double R] in
theorem reading_years (hrm : rm.Succeeds) (hroot : root ≠ []) {disk : Files} {dirs : List RootDir}
    (hnodup : (dirs.map RootDir.name).Nodup) (hdisk : Holds cwd root disk dirs) {toGb : ℕ → R}
    (hsize : SizeIsTotal cwd root size toGb) (years : List RootDir) (i : ℕ) :
    reading rm size (years.map fun e => joinPath root e.name) disk i =
      toGb (totalSize (leftOf dirs ((years.take i).map RootDir.name))) := by
  rw [reading, ← List.map_take]
  exact hsize i _ _ (nodup_leftOf hnodup _) (hdisk.removeAll hrm hroot _)

theorem doHousekeep_eq {h : HouseKeeper R} {fs : FileSystem}
    (hexists : fs.pathExists h.rootPath = .ok true) {dirs : List RootDir}
    (hlist : fs.listDirectory h.rootPath = (dirs.map RootDir.entry, none)) (disk : Files) :
    h.doHousekeep rm size fs disk = .ok (clean rm h.maxSizeGb size
      ((yearsOf dirs).map fun e => joinPath h.rootPath e.name) disk) := by
  unfold doHousekeep
  by_cases hsize : h.maxSizeGb < size 0 disk
  · rw [if_pos hsize, hexists, yearDirs_eq hlist]
    rfl
  · have hnone (years : List Bytes) : clean rm h.maxSizeGb size years disk = ([], disk) := by
      cases years with
      | nil => rfl
      | cons dir years => rw [clean, if_neg hsize]
    rw [if_neg hsize, hnone]
    rfl

/-- For every content of the root: the first years go, as few as bring the total of what is
left down to the threshold, or all of them; nothing else on the disk changes. -/
theorem removes_shortest_prefix (hrm : rm.Succeeds) {h : HouseKeeper R} (hroot : h.rootPath ≠ [])
    {fs : FileSystem} (hexists : fs.pathExists h.rootPath = .ok true) {dirs : List RootDir}
    (hnodup : (dirs.map RootDir.name).Nodup)
    (hlist : fs.listDirectory h.rootPath = (dirs.map RootDir.entry, none)) {disk : Files}
    (hdisk : Holds cwd h.rootPath disk dirs) {toGb : ℕ → R}
    (hsize : SizeIsTotal cwd h.rootPath size toGb) :
    ∃ (years : List RootDir) (k : ℕ) (disk' : Files),
      years.Perm (dirs.filter fun e => e.name.length = 4) ∧
      years.Pairwise (fun a b => a.name < b.name) ∧ k ≤ years.length ∧
      h.doHousekeep rm size fs disk =
        .ok ((years.take k).map fun e => joinPath h.rootPath e.name, disk') ∧
      (∀ i < k, h.maxSizeGb < toGb (totalSize (leftOf dirs ((years.take i).map RootDir.name)))) ∧
      (k < years.length →
        ¬ h.maxSizeGb < toGb (totalSize (leftOf dirs ((years.take k).map RootDir.name)))) ∧
      Holds cwd h.rootPath disk' (leftOf dirs ((years.take k).map RootDir.name)) ∧
      ∀ p, (∀ e ∈ years.take k, ¬ placeOf cwd h.rootPath e.name <+: p) → disk' p = disk p := by
  have hreading := reading_years hrm hroot hnodup hdisk hsize (yearsOf dirs)
  obtain ⟨k, hk, hclean, habove, hstop⟩ := clean_stops rm h.maxSizeGb size
    ((yearsOf dirs).map fun e => joinPath h.rootPath e.name) disk
  simp only [hreading, List.length_map] at hk habove hstop
  rw [← List.map_take] at hclean
  refine ⟨yearsOf dirs, k, _, yearsOf_perm dirs, yearsOf_sorted hnodup, hk, ?_, habove, hstop,
    hdisk.removeAll hrm hroot _, ?_⟩
  · rw [doHousekeep_eq hexists hlist, hclean]
  · intro p hp
    refine (congrFun (congrArg Prod.snd hclean) p).symm.trans ?_
    apply clean_spares
    rw [hclean]
    intro d hd
    obtain ⟨e, he, rfl⟩ := List.mem_map.1 hd
    rw [resolvedPath_joinPath hroot]
    exact hp e he

end Removal

def year2024 : RootDir where
  name := bytes "2024"
  size := 30
  no_slash := by decide
  enters := by decide

def year2025 : RootDir where
  name := bytes "2025"
  size := 40
  no_slash := by decide
  enters := by decide

def twoYears : FileSystem :=
  { emptyDisk with
    pathExists := fun _ => .ok true
    listDirectory := fun _ => ([year2025, year2024].map RootDir.entry, none) }

def twoFiles : Files := fun p =>
  if p = [bytes "database", bytes "2024", bytes "a.jpg"] then some (List.replicate 30 0)
  else if p = [bytes "database", bytes "2025", bytes "b.jpg"] then some (List.replicate 40 0)
  else none

theorem bytesBelow_single {disk : Files} {place p : List Bytes} (hp : place <+: p)
    (h : ∀ q, place <+: q → q ≠ p → disk q = none) : bytesBelow disk place = fileSize disk p := by
  rw [bytesBelow, ← finsum_mem_singleton (f := fileSize disk) (a := p)]
  apply finsum_mem_inter_support_eq'
  intro q hq
  constructor
  · intro hbelow
    by_contra hne
    exact hq (fileSize_eq_zero (h q hbelow hne))
  · rintro rfl
    exact hp

theorem twoFiles_holds : Holds [] fullKeeper.rootPath twoFiles [year2025, year2024] := by
  have hsome (p : List Bytes) (hp : twoFiles p ≠ none) :
      p = [bytes "database", bytes "2024", bytes "a.jpg"] ∨
        p = [bytes "database", bytes "2025", bytes "b.jpg"] := by
    by_contra hno
    rw [not_or] at hno
    exact hp (by rw [twoFiles, if_neg hno.1, if_neg hno.2])
  refine ⟨?_, ?_, ?_⟩
  · refine Set.Finite.subset (Set.toFinite {[bytes "database", bytes "2024", bytes "a.jpg"],
      [bytes "database", bytes "2025", bytes "b.jpg"]}) ?_
    rintro p ⟨-, hp⟩
    exact hsome p hp
  · simp only [List.forall_mem_cons, List.not_mem_nil, false_imp_iff, implies_true, and_true]
    constructor
    · rw [bytesBelow_single (p := [bytes "database", bytes "2025", bytes "b.jpg"]) (by decide)]
      · decide
      · intro q hbelow hne
        by_contra hq
        rcases hsome q hq with rfl | rfl
        · exact absurd hbelow (by decide)
        · exact hne rfl
    · rw [bytesBelow_single (p := [bytes "database", bytes "2024", bytes "a.jpg"]) (by decide)]
      · decide
      · intro q hbelow hne
        by_contra hq
        rcases hsome q hq with rfl | rfl
        · exact hne rfl
        · exact absurd hbelow (by decide)
  · intro p hroot hp
    rcases hsome p hp with rfl | rfl
    · exact ⟨year2024, by simp, by decide⟩
    · exact ⟨year2025, by simp, by decide⟩

theorem removeTree_succeeds (cwd : List Bytes) : (removeTree cwd).Succeeds :=
  fun _ _ _ hp => if_pos hp

theorem removes_first_year :
    ∃ (years : List RootDir) (k : ℕ) (disk' : Files),
      years.Perm [year2025, year2024] ∧ years.Pairwise (fun a b => a.name < b.name) ∧
      fullKeeper.doHousekeep (removeTree [])
          (fun _ disk => (bytesBelow disk (resolvedPath [] fullKeeper.rootPath) : ℤ)) twoYears
          twoFiles =
        .ok ((years.take k).map fun e => joinPath fullKeeper.rootPath e.name, disk') ∧
      (∀ i < k, 50 < (totalSize (leftOf [year2025, year2024]
        ((years.take i).map RootDir.name)) : ℤ)) ∧
      (k < years.length → ¬ 50 < (totalSize (leftOf [year2025, year2024]
        ((years.take k).map RootDir.name)) : ℤ)) := by
  have hnodup : ([year2025, year2024].map RootDir.name).Nodup := by decide
  have hexists : twoYears.pathExists fullKeeper.rootPath = .ok true := rfl
  have hlist : twoYears.listDirectory fullKeeper.rootPath =
      ([year2025, year2024].map RootDir.entry, none) := rfl
  obtain ⟨years, k, disk', hperm, hsorted, -, hpass, habove, hstop, -, -⟩ :=
    removes_shortest_prefix (removeTree_succeeds []) (h := fullKeeper) (by decide) hexists hnodup
      hlist twoFiles_holds (bytesBelow_isTotal [] fullKeeper.rootPath fun n => (n : ℤ))
  exact ⟨years, k, disk', hperm, hsorted, hpass, habove, hstop⟩

end HouseKeeper

end EcidsCore
