import EcidsCore.RecordHistory

set_option autoImplicit false

/-! The house-keeping of the database: whole year directories are removed, the first ones
first, while the size that is read is above a threshold. -/
namespace EcidsCore
open ByteText

variable {R : Type}

/-- `remove_all` on a directory. Its errors are ignored, so it may leave anything behind, but
it touches nothing outside. -/
structure RemoveAll (cwd : List Bytes) where
  remove : Bytes → Files → Files
  outside : ∀ dir disk p, ¬ resolvedPath cwd dir <+: p → remove dir disk p = disk p

/-- The readings of the size, each on the disk as it is then. -/
abbrev SizeProvider (R : Type) := ℕ → Files → R

structure HouseKeeper (R : Type) where
  rootPath : Bytes
  maxSizeGb : R

namespace HouseKeeper

def yearVisit (root : Bytes) (found : List Bytes) (e : DirEntry) : Except Bytes (List Bytes) := do
  let kind ← e.kind
  return if kind = .directory ∧ e.name.length = 4 then found ++ [joinPath root e.name] else found

def yearDirs (fs : FileSystem) (root : Bytes) : Except Bytes (List Bytes) := do
  let found ← (fs.listDirectory root).1.foldlM (yearVisit root) []
  match (fs.listDirectory root).2 with
  | none => return found.mergeSort fun a b => ¬ b < a
  | some text => .error text

section Pass
variable [Double R] {cwd : List Bytes} (rm : RemoveAll cwd)

/-- The loop of a pass, from a disk whose size is the next reading on: the directories removed
and the disk that is left. -/
def clean (maxSize : R) (size : SizeProvider R) : List Bytes → Files → List Bytes × Files
  | [], disk => ([], disk)
  | oldest :: dirs, disk =>
    if maxSize < size 0 disk then
      let rest := clean maxSize (fun k => size (k + 1)) dirs (rm.remove oldest disk)
      (oldest :: rest.1, rest.2)
    else ([], disk)

/-- A size that is no number is not above the threshold either. -/
def doHousekeep (size : SizeProvider R) (fs : FileSystem) (disk : Files) (h : HouseKeeper R) :
    Except Bytes (List Bytes × Files) := do
  if h.maxSizeGb < size 0 disk then
    if ← fs.pathExists h.rootPath then
      let dirs ← yearDirs fs h.rootPath
      return clean rm h.maxSizeGb size dirs disk
    else return ([], disk)
  else return ([], disk)

/-- A pass as the thread makes it: an exception, which comes before the first removal, is
logged. -/
def pass (size : SizeProvider R) (fs : FileSystem) (disk : Files) (h : HouseKeeper R) :
    List Bytes × Files :=
  match h.doHousekeep rm size fs disk with
  | .ok done => done
  | .error _ => ([], disk)

def reading (size : SizeProvider R) (dirs : List Bytes) (disk : Files) (i : ℕ) : R :=
  size i ((dirs.take i).foldl (fun d dir => rm.remove dir d) disk)

variable {rm}

theorem clean_prefix (maxSize : R) (size : SizeProvider R) (dirs : List Bytes) (disk : Files) :
    (clean rm maxSize size dirs disk).1 <+: dirs := by
  induction dirs generalizing size disk with
  | nil => exact List.prefix_refl []
  | cons dir dirs ih =>
    rw [clean]
    split
    · exact List.prefix_cons_inj dir |>.2 (ih _ _)
    · exact List.nil_prefix

theorem lt_clean_length (maxSize : R) (size : SizeProvider R) (dirs : List Bytes) (disk : Files)
    (i : ℕ) : i < (clean rm maxSize size dirs disk).1.length ↔
      i < dirs.length ∧ ∀ j ≤ i, maxSize < reading rm size dirs disk j := by
  induction dirs generalizing size disk i with
  | nil => simp [clean]
  | cons dir dirs ih =>
    have hnext (j : ℕ) : reading rm size (dir :: dirs) disk (j + 1) =
        reading rm (fun k => size (k + 1)) dirs (rm.remove dir disk) j := rfl
    have hfirst : reading rm size (dir :: dirs) disk 0 = size 0 disk := rfl
    rw [clean]
    split
    · rename_i hsize
      cases i with
      | zero =>
        simp only [List.length_cons, Nat.zero_lt_succ, true_and, Nat.le_zero, forall_eq, hfirst,
          hsize]
      | succ i =>
        rw [List.length_cons, Nat.succ_lt_succ_iff, ih, List.length_cons, Nat.succ_lt_succ_iff]
        apply and_congr_right
        intro _
        constructor
        · intro h j hj
          cases j with
          | zero => exact hsize
          | succ j => exact h j (Nat.le_of_succ_le_succ hj)
        · intro h j hj
          exact h (j + 1) (Nat.succ_le_succ hj)
    · rename_i hsize
      constructor
      · intro h
        exact absurd h (Nat.not_lt_zero i)
      · rintro ⟨-, h⟩
        exact absurd (h 0 (Nat.zero_le i)) hsize

theorem clean_spares (maxSize : R) (size : SizeProvider R) (dirs : List Bytes) (disk : Files)
    {p : List Bytes}
    (h : ∀ d ∈ (clean rm maxSize size dirs disk).1, ¬ resolvedPath cwd d <+: p) :
    (clean rm maxSize size dirs disk).2 p = disk p := by
  induction dirs generalizing size disk with
  | nil => rfl
  | cons dir dirs ih =>
    rw [clean] at h ⊢
    split
    · rename_i hsize
      rw [if_pos hsize] at h
      have hdir := h dir List.mem_cons_self
      have hrest := ih (fun k => size (k + 1)) (rm.remove dir disk) fun d hd =>
        h d (List.mem_cons_of_mem dir hd)
      exact hrest.trans (rm.outside dir disk p hdir)
    · rfl

def Touches (cwd : List Bytes) (dir active : Bytes) : Prop :=
  resolvedPath cwd dir <+: resolvedPath cwd active ∨
    resolvedPath cwd active <+: resolvedPath cwd dir

/-- A year directory with the active record comes to its turn while the size is above the
threshold. -/
def Endangers (rm : RemoveAll cwd) (size : SizeProvider R) (fs : FileSystem) (disk : Files)
    (active : Bytes) (h : HouseKeeper R) : Prop :=
  fs.pathExists h.rootPath = .ok true ∧ ∃ dirs, yearDirs fs h.rootPath = .ok dirs ∧
    ∃ i dir, dirs[i]? = some dir ∧ Touches cwd dir active ∧
      ∀ j ≤ i, h.maxSizeGb < reading rm size dirs disk j

variable {size : SizeProvider R} {fs : FileSystem} {disk : Files} {h : HouseKeeper R}

theorem pass_cases (rm : RemoveAll cwd) (size : SizeProvider R) (fs : FileSystem) (disk : Files)
    (h : HouseKeeper R) :
    (∃ dirs, fs.pathExists h.rootPath = .ok true ∧ yearDirs fs h.rootPath = .ok dirs ∧
        h.pass rm size fs disk = clean rm h.maxSizeGb size dirs disk) ∨
      h.pass rm size fs disk = ([], disk) ∧
        (fs.pathExists h.rootPath = .ok true → ∀ dirs, yearDirs fs h.rootPath = .ok dirs →
          ¬ h.maxSizeGb < size 0 disk) := by
  unfold pass doHousekeep
  by_cases hsize : h.maxSizeGb < size 0 disk
  · rw [if_pos hsize]
    cases hroot : fs.pathExists h.rootPath with
    | error text =>
      right
      exact ⟨rfl, nofun⟩
    | ok found =>
      cases found with
      | false =>
        right
        exact ⟨rfl, nofun⟩
      | true =>
        cases hdirs : yearDirs fs h.rootPath with
        | error text =>
          right
          exact ⟨rfl, fun _ _ hd => by cases hd⟩
        | ok dirs =>
          left
          exact ⟨dirs, rfl, rfl, rfl⟩
  · rw [if_neg hsize]
    right
    exact ⟨rfl, fun _ _ _ => hsize⟩

theorem pass_removes_iff (rm : RemoveAll cwd) (size : SizeProvider R) (fs : FileSystem)
    (disk : Files) (active : Bytes) (h : HouseKeeper R) :
    (∃ dir ∈ (h.pass rm size fs disk).1, Touches cwd dir active) ↔
      h.Endangers rm size fs disk active := by
  rcases pass_cases rm size fs disk h with ⟨dirs, hroot, hdirs, hpass⟩ | ⟨hpass, hsmall⟩
  · rw [hpass]
    obtain ⟨rest, hrest⟩ : (clean rm h.maxSizeGb size dirs disk).1 <+: dirs :=
      clean_prefix h.maxSizeGb size dirs disk
    have hget (i : ℕ) (hi : i < (clean rm h.maxSizeGb size dirs disk).1.length) :
        dirs[i]? = (clean rm h.maxSizeGb size dirs disk).1[i]? := by
      conv_lhs => rw [← hrest]
      exact List.getElem?_append_left hi
    constructor
    · rintro ⟨dir, hdir, htouch⟩
      obtain ⟨i, hi⟩ := List.getElem?_of_mem hdir
      obtain ⟨hlt, -⟩ := List.getElem?_eq_some_iff.1 hi
      exact ⟨hroot, dirs, hdirs, i, dir, (hget i hlt).trans hi, htouch,
        ((lt_clean_length h.maxSizeGb size dirs disk i).1 hlt).2⟩
    · rintro ⟨-, dirs', hdirs', i, dir, hi, htouch, hsize⟩
      obtain rfl : dirs = dirs' := Except.ok.inj (hdirs.symm.trans hdirs')
      obtain ⟨hlt, -⟩ := List.getElem?_eq_some_iff.1 hi
      have hremoved := (lt_clean_length h.maxSizeGb size dirs disk i).2 ⟨hlt, hsize⟩
      exact ⟨dir, List.mem_of_getElem? ((hget i hremoved).symm.trans hi), htouch⟩
  · rw [hpass]
    constructor
    · rintro ⟨dir, hdir, -⟩
      cases hdir
    · rintro ⟨hroot, dirs, hdirs, i, -, -, -, hsize⟩
      exact absurd (hsize 0 (Nat.zero_le i)) (hsmall hroot dirs hdirs)

theorem pass_spares (rm : RemoveAll cwd) (size : SizeProvider R) (fs : FileSystem) (disk : Files)
    (h : HouseKeeper R) {p : List Bytes}
    (hp : ∀ dir ∈ (h.pass rm size fs disk).1, ¬ resolvedPath cwd dir <+: p) :
    (h.pass rm size fs disk).2 p = disk p := by
  rcases pass_cases rm size fs disk h with ⟨dirs, -, -, hpass⟩ | ⟨hpass, -⟩
  · rw [hpass] at hp ⊢
    exact clean_spares h.maxSizeGb size dirs disk hp
  · rw [hpass]

/-- A pass removes a directory with the active record exactly if it comes to its turn while the
size is above the threshold; otherwise every file of the record is still there. -/
theorem active_record_removed_iff (rm : RemoveAll cwd) (size : SizeProvider R) (fs : FileSystem)
    (disk : Files) (active : Bytes) (h : HouseKeeper R) :
    ((∃ dir ∈ (h.pass rm size fs disk).1, Touches cwd dir active) ↔
        h.Endangers rm size fs disk active) ∧
      (h.Endangers rm size fs disk active ∨
        ∀ p, resolvedPath cwd active <+: p → (h.pass rm size fs disk).2 p = disk p) := by
  have hiff := pass_removes_iff rm size fs disk active h
  refine ⟨hiff, ?_⟩
  by_cases hdanger : h.Endangers rm size fs disk active
  · exact .inl hdanger
  · right
    intro p hp
    apply pass_spares
    intro dir hdir hbelow
    apply hdanger
    apply hiff.1
    refine ⟨dir, hdir, ?_⟩
    rcases List.prefix_or_prefix_of_prefix hbelow hp with hle | hle
    · exact .inl hle
    · exact .inr hle

end Pass

def removeTree (cwd : List Bytes) : RemoveAll cwd where
  remove dir disk := fun p => if resolvedPath cwd dir <+: p then none else disk p
  outside _ _ _ h := if_neg h

def fullKeeper : HouseKeeper ℤ := { rootPath := bytes "database", maxSizeGb := 50 }

def fullSize : SizeProvider ℤ := fun k _ => if k = 0 then 51 else 0

def oneYear : FileSystem :=
  { emptyDisk with
    pathExists := fun _ => .ok true
    listDirectory := fun _ => ([⟨bytes "2026", .ok .directory⟩], none) }

theorem databaseRoot_nonempty : "database" ≠ "" := by decide

def writtenRecord : RecordManager where
  rootPath := "database"
  rootNonempty := databaseRoot_nonempty
  activeRecord := "database/2026/2026-07/2026-07-02/(Inspection)2026-07-02-12-00-05-S-E-T1"

def writtenFile : List Bytes :=
  resolvedPath [] (bytes (writtenRecord.activeRecord ++ "/inspection/L_000.jpg"))

def oneFile : Files := fun p => if p = writtenFile then some [0xFF] else none

theorem pass_oneYear : fullKeeper.pass (removeTree []) fullSize oneYear oneFile =
    ([bytes "database/2026"], (removeTree []).remove (bytes "database/2026") oneFile) := by
  have hdirs : yearDirs oneYear fullKeeper.rootPath = .ok [bytes "database/2026"] := by
    change Except.ok (List.mergeSort [bytes "database/2026"] _) = _
    rw [List.mergeSort_singleton]
  have hsize : fullKeeper.maxSizeGb < fullSize 0 oneFile := by decide
  have hroot : oneYear.pathExists fullKeeper.rootPath = .ok true := rfl
  unfold pass doHousekeep
  rw [if_pos hsize, hroot, hdirs]
  rfl

theorem active_record_removed_iff_oneYear :
    ((∃ dir ∈ (fullKeeper.pass (removeTree []) fullSize oneYear oneFile).1,
        Touches [] dir (bytes writtenRecord.activeRecord)) ↔
      fullKeeper.Endangers (removeTree []) fullSize oneYear oneFile
        (bytes writtenRecord.activeRecord)) ∧
      (fullKeeper.Endangers (removeTree []) fullSize oneYear oneFile
          (bytes writtenRecord.activeRecord) ∨
        ∀ p, resolvedPath [] (bytes writtenRecord.activeRecord) <+: p →
          (fullKeeper.pass (removeTree []) fullSize oneYear oneFile).2 p = oneFile p) :=
  active_record_removed_iff (removeTree []) fullSize oneYear oneFile _ fullKeeper

/-- The record that is being written goes with its year, and its files with it. -/
theorem current_year_counterexample :
    (fullKeeper.pass (removeTree []) fullSize oneYear oneFile).1 = [bytes "database/2026"] ∧
      resolvedPath [] (bytes "database/2026") <+:
        resolvedPath [] (bytes writtenRecord.activeRecord) ∧
      oneFile writtenFile = some [0xFF] ∧
        (fullKeeper.pass (removeTree []) fullSize oneYear oneFile).2 writtenFile = none := by
  have hbelow : resolvedPath [] (bytes "database/2026") <+: writtenFile := by decide
  have hgone : (removeTree []).remove (bytes "database/2026") oneFile writtenFile = none := by
    simp only [removeTree, hbelow, if_true]
  rw [pass_oneYear]
  exact ⟨rfl, by decide, if_pos rfl, hgone⟩

end HouseKeeper

end EcidsCore
