import EcidsCore.ClientServer
import EcidsCore.RecordManager
import Mathlib.Data.List.AList

set_option autoImplicit false

/-! The pairs that an AI test makes of the image files of a folder. -/
namespace EcidsCore
open ByteText

namespace AiTest

def joinPath (dir name : Bytes) : Bytes :=
  if dir = [] ∨ dir.getLast? = some slash then dir ++ name else dir ++ slash :: name

def fileName (path : Bytes) : Bytes := (path.reverse.takeWhile (· ≠ slash)).reverse

/-- A full stop at the front begins no extension. -/
def extension (path : Bytes) : Bytes :=
  let name := fileName path
  let last := (name.reverse.takeWhile (· ≠ fullStop)).reverse
  if fullStop ∉ name ∨ name = [fullStop, fullStop] ∨ last.length + 1 = name.length then []
  else fullStop :: last

def stem (path : Bytes) : Bytes :=
  (fileName path).take ((fileName path).length - (extension path).length)

def accepted (path : Bytes) : Bool :=
  (extension path).map ClientServer.toLower ∈ [bytes ".jpg", bytes ".jpeg", bytes ".png", bytes ".bmp"]

inductive Side where
  | left
  | right
deriving DecidableEq

def sideOf (front : Bytes) : Option Side :=
  if front ∈ [bytes "1", bytes "L", bytes "l", bytes "left"] then some .left
  else if front ∈ [bytes "2", bytes "R", bytes "r", bytes "right"] then some .right
  else none

def underscore : UInt8 := 0x5F

def slot (file : Bytes) : Option (Side × Bytes) :=
  let front := (stem file).takeWhile (· ≠ underscore)
  if underscore ∈ stem file ∧ 0 < front.length then
    (sideOf front).map fun side => (side, (stem file).drop (front.length + 1))
  else none

structure PairEntry where
  left : Bytes := []
  right : Bytes := []
deriving DecidableEq

def PairEntry.put (e : PairEntry) (file : Bytes) : Side → PairEntry
  | .left => { e with left := file }
  | .right => { e with right := file }

/-- What the first loop fills; a key without an entry is given an empty one. -/
structure Pairing where
  pairs : AList fun _ : Bytes => PairEntry := ∅
  used : List Bytes := []

def place (p : Pairing) (file : Bytes) : Pairing :=
  match slot file with
  | none => p
  | some (side, key) =>
    { pairs := p.pairs.insert key (((p.pairs.lookup key).getD {}).put file side)
      used := file :: p.used }

def acceptedFiles (dir : Bytes) (names : List Bytes) : List Bytes :=
  (names.map (joinPath dir)).filter accepted

def sortKey (e : PairEntry) : Bytes := stem (if e.left = [] then e.right else e.left)

def entries (dir : Bytes) (names : List Bytes) : List PairEntry :=
  let files := acceptedFiles dir names
  let p := files.foldl place {}
  let keyed := p.pairs.entries.mergeSort fun a b => a.1 ≤ b.1
  let paired := (keyed.map Sigma.snd).filter fun e => e.left ≠ [] ∨ e.right ≠ []
  (paired.mergeSort fun a b => !decide (sortKey b < sortKey a)) ++
    (files.filter fun f => f ∉ p.used).map fun f => { left := f }

def PairEntry.files (e : PairEntry) : List Bytes := [e.left, e.right].filter (· ≠ [])

def last (files : List Bytes) (s : Side × Bytes) : Bytes :=
  ((files.filter fun f => slot f = some s).getLast?).getD []

structure EachOnce (files : List Bytes) (es : List PairEntry) : Prop where
  once : ∀ f ∈ files, (es.flatMap PairEntry.files).count f = 1
  only : ∀ f ∈ es.flatMap PairEntry.files, f ∈ files
  left : ∀ e ∈ es, ∀ key, slot e.left ≠ some (.right, key)
  right : ∀ e ∈ es, ∀ key, slot e.right ≠ some (.left, key)

theorem last_append (files : List Bytes) (f : Bytes) (s : Side × Bytes) :
    last (files ++ [f]) s = if slot f = some s then f else last files s := by
  unfold last
  rw [List.filter_append, List.filter_singleton]
  by_cases h : slot f = some s
  · simp [h]
  · simp [h]

theorem last_mem {files : List Bytes} {s : Side × Bytes} (h : last files s ≠ []) :
    last files s ∈ files ∧ slot (last files s) = some s := by
  cases hlast : (files.filter fun f => slot f = some s).getLast? with
  | none =>
    rw [last, hlast] at h
    exact absurd rfl h
  | some f =>
    obtain ⟨hmem, hslot⟩ := List.mem_filter.1 (List.mem_of_getLast? hlast)
    rw [last, hlast]
    exact ⟨hmem, of_decide_eq_true hslot⟩

theorem last_slot {files : List Bytes} {f : Bytes} {s : Side × Bytes} (hf : f ∈ files)
    (hs : slot f = some s) : slot (last files s) = some s ∧ last files s ∈ files := by
  cases hlast : (files.filter fun f => slot f = some s).getLast? with
  | none =>
    have hnone := List.getLast?_eq_none_iff.1 hlast
    have hmem : f ∈ files.filter fun f => slot f = some s :=
      List.mem_filter.2 ⟨hf, decide_eq_true hs⟩
    rw [hnone] at hmem
    cases hmem
  | some g =>
    obtain ⟨hmem, hslot⟩ := List.mem_filter.1 (List.mem_of_getLast? hlast)
    rw [last, hlast]
    exact ⟨of_decide_eq_true hslot, hmem⟩

theorem used_eq (files : List Bytes) (f : Bytes) :
    f ∈ (files.foldl place {}).used ↔ f ∈ files ∧ slot f ≠ none := by
  induction files using List.reverseRecOn with
  | nil => simp
  | append_singleton files g ih =>
    rw [List.foldl_append, List.foldl_cons, List.foldl_nil, place]
    cases hslot : slot g with
    | none =>
      rw [ih, List.mem_append, List.mem_singleton]
      constructor
      · exact fun h => ⟨.inl h.1, h.2⟩
      · rintro ⟨hf | rfl, hne⟩
        · exact ⟨hf, hne⟩
        · exact absurd hslot hne
    | some s =>
      rw [List.mem_cons, ih, List.mem_append, List.mem_singleton]
      constructor
      · rintro (rfl | h)
        · exact ⟨.inr rfl, by simp [hslot]⟩
        · exact ⟨.inl h.1, h.2⟩
      · rintro ⟨hf | rfl, hne⟩
        · exact .inr ⟨hf, hne⟩
        · exact .inl rfl

theorem lookup_pairs (files : List Bytes) (key : Bytes) :
    ((files.foldl place {}).pairs.lookup key).getD {} =
      ⟨last files (.left, key), last files (.right, key)⟩ := by
  induction files using List.reverseRecOn with
  | nil => rfl
  | append_singleton files g ih =>
    rw [List.foldl_append, List.foldl_cons, List.foldl_nil, place, last_append, last_append]
    cases hslot : slot g with
    | none => simpa using ih
    | some s =>
      obtain ⟨side, key'⟩ := s
      dsimp only
      by_cases hkey : key = key'
      · subst hkey
        rw [AList.lookup_insert, Option.getD_some, ih]
        cases side <;> simp [PairEntry.put]
      · rw [AList.lookup_insert_ne hkey, ih]
        simp [Ne.symm hkey]

theorem entry_eq {files : List Bytes} {key : Bytes} {e : PairEntry}
    (h : ⟨key, e⟩ ∈ (files.foldl place {}).pairs.entries) :
    e = ⟨last files (.left, key), last files (.right, key)⟩ := by
  rw [← lookup_pairs, AList.mem_lookup_iff.2 h, Option.getD_some]

theorem mem_files {e : PairEntry} {f : Bytes} :
    f ∈ e.files ↔ f ≠ [] ∧ (f = e.left ∨ f = e.right) := by
  simp [PairEntry.files, and_comm]

theorem mem_entry_files {files : List Bytes} {key f : Bytes} {e : PairEntry}
    (h : ⟨key, e⟩ ∈ (files.foldl place {}).pairs.entries) (hf : f ∈ e.files) :
    f ∈ files ∧ ∃ side, slot f = some (side, key) ∧ last files (side, key) = f := by
  obtain ⟨hne, heq⟩ := mem_files.1 hf
  rw [entry_eq h] at heq
  rcases heq with rfl | rfl
  · obtain ⟨hmem, hslot⟩ := last_mem hne
    exact ⟨hmem, .left, hslot, rfl⟩
  · obtain ⟨hmem, hslot⟩ := last_mem hne
    exact ⟨hmem, .right, hslot, rfl⟩

def paired (files : List Bytes) : List Bytes :=
  (files.foldl place {}).pairs.entries.flatMap fun a => a.2.files

theorem mem_paired {files : List Bytes} (hne : [] ∉ files) {f : Bytes} :
    f ∈ paired files ↔ f ∈ files ∧ ∃ s, slot f = some s ∧ last files s = f := by
  rw [paired, List.mem_flatMap]
  constructor
  · rintro ⟨⟨key, e⟩, hentry, hf⟩
    obtain ⟨hmem, side, hslot⟩ := mem_entry_files hentry hf
    exact ⟨hmem, _, hslot⟩
  · rintro ⟨hmem, ⟨side, key⟩, hslot, hlast⟩
    have hf : f ≠ [] := fun h => hne (h ▸ hmem)
    have hfound := lookup_pairs files key
    cases hlookup : (files.foldl place {}).pairs.lookup key with
    | none =>
      rw [hlookup] at hfound
      cases side with
      | left => exact absurd (hlast.symm.trans (congrArg PairEntry.left hfound).symm) hf
      | right => exact absurd (hlast.symm.trans (congrArg PairEntry.right hfound).symm) hf
    | some e =>
      rw [hlookup] at hfound
      have hentry : e = ⟨last files (.left, key), last files (.right, key)⟩ := hfound
      refine ⟨⟨key, e⟩, AList.mem_lookup_iff.1 hlookup, mem_files.2 ⟨hf, ?_⟩⟩
      rw [hentry, ← hlast]
      cases side with
      | left => exact .inl rfl
      | right => exact .inr rfl

theorem nodup_paired (files : List Bytes) : (paired files).Nodup := by
  rw [paired, List.nodup_flatMap]
  constructor
  · rintro ⟨key, e⟩ hentry
    have hfilter : (e.files).Nodup ↔ e.left = [] ∨ e.right = [] ∨ e.left ≠ e.right := by
      rw [PairEntry.files]
      by_cases hl : e.left = [] <;> by_cases hr : e.right = [] <;> simp [hl, hr]
    rw [hfilter, entry_eq hentry]
    by_contra hsame
    simp only [not_or, not_not] at hsame
    obtain ⟨hl, hr, heq⟩ := hsame
    have hleft := (last_mem hl).2
    rw [heq, (last_mem hr).2] at hleft
    cases hleft
  · have hkeys := List.nodupKeys_iff_pairwise.1 (files.foldl place {}).pairs.nodupKeys
    refine hkeys.imp_of_mem fun {a b} ha hb hne f hfa hfb => hne ?_
    obtain ⟨-, side, hslot, -⟩ := mem_entry_files ha hfa
    obtain ⟨-, side', hslot', -⟩ := mem_entry_files hb hfb
    rw [hslot] at hslot'
    exact congrArg Prod.snd (Option.some.inj hslot')

theorem flatMap_files_filter (es : List PairEntry) :
    (es.filter fun e => e.left ≠ [] ∨ e.right ≠ []).flatMap PairEntry.files =
      es.flatMap PairEntry.files := by
  induction es with
  | nil => rfl
  | cons e rest ih =>
    by_cases h : e.left ≠ [] ∨ e.right ≠ []
    · rw [List.filter_cons_of_pos (by simpa using h), List.flatMap_cons, List.flatMap_cons, ih]
    · rw [List.filter_cons_of_neg (by simpa using h), List.flatMap_cons, ih]
      simp only [not_or, not_not] at h
      simp [PairEntry.files, h.1, h.2]

def unpaired (files : List Bytes) : List Bytes := files.filter fun f => slot f = none

theorem files_perm {dir : Bytes} {names : List Bytes} (hne : [] ∉ acceptedFiles dir names) :
    ((entries dir names).flatMap PairEntry.files).Perm
      (paired (acceptedFiles dir names) ++ unpaired (acceptedFiles dir names)) := by
  have hunused : ((acceptedFiles dir names).filter fun f =>
      f ∉ ((acceptedFiles dir names).foldl place {}).used) = unpaired (acceptedFiles dir names) := by
    refine List.filter_congr fun f hf => ?_
    rw [decide_eq_decide, used_eq]
    simp [hf]
  have hone : ∀ fs : List Bytes, [] ∉ fs →
      (fs.map fun f => ({ left := f } : PairEntry)).flatMap PairEntry.files = fs := by
    intro fs hfs
    induction fs with
    | nil => rfl
    | cons f rest ih =>
      have hf : f ≠ [] := fun h => hfs (h ▸ List.mem_cons_self)
      rw [List.map_cons, List.flatMap_cons, ih fun h => hfs (List.mem_cons_of_mem f h)]
      simp [PairEntry.files, hf]
  have hunpaired : [] ∉ unpaired (acceptedFiles dir names) :=
    fun h => hne (List.mem_of_mem_filter h)
  rw [entries, hunused, List.flatMap_append, hone _ hunpaired]
  refine List.Perm.append_right _ ?_
  refine ((List.mergeSort_perm _ _).flatMap_right _).trans ?_
  rw [flatMap_files_filter, List.flatMap_map]
  exact (List.mergeSort_perm _ _).flatMap_right _

theorem nodup_files {dir : Bytes} {names : List Bytes} (hne : [] ∉ acceptedFiles dir names)
    (hnodup : (acceptedFiles dir names).Nodup) :
    ((entries dir names).flatMap PairEntry.files).Nodup := by
  rw [(files_perm hne).nodup_iff, List.nodup_append']
  refine ⟨nodup_paired _, hnodup.filter _, fun f hf hnone => ?_⟩
  obtain ⟨-, s, hslot, -⟩ := (mem_paired hne).1 hf
  have hslot' : slot f = none := of_decide_eq_true (List.mem_filter.1 hnone).2
  rw [hslot] at hslot'
  cases hslot'

theorem mem_entries {dir : Bytes} {names : List Bytes} (hne : [] ∉ acceptedFiles dir names)
    {f : Bytes} : f ∈ (entries dir names).flatMap PairEntry.files ↔ f ∈ acceptedFiles dir names ∧
      ∀ s, slot f = some s → last (acceptedFiles dir names) s = f := by
  rw [(files_perm hne).mem_iff, List.mem_append, mem_paired hne, unpaired, List.mem_filter]
  cases hslot : slot f with
  | none => simp
  | some s => simp

theorem acceptedFiles_nodup {dir : Bytes} {names : List Bytes} (h : names.Nodup) :
    (acceptedFiles dir names).Nodup := by
  refine (h.map fun a b hab => ?_).filter _
  unfold joinPath at hab
  split at hab
  · exact List.append_cancel_left hab
  · exact (List.cons.inj (List.append_cancel_left hab)).2

theorem acceptedFiles_ne_nil (dir : Bytes) {names : List Bytes} (h : [] ∉ names) :
    [] ∉ acceptedFiles dir names := by
  intro hmem
  obtain ⟨name, hname, hpath⟩ := List.mem_map.1 (List.mem_of_mem_filter hmem)
  unfold joinPath at hpath
  split at hpath
  · exact h ((List.append_eq_nil_iff.1 hpath).2 ▸ hname)
  · simp at hpath

theorem slot_last {files : List Bytes} {s t : Side × Bytes} (h : slot (last files s) = some t) :
    t = s := by
  by_cases hnil : last files s = []
  · rw [hnil] at h
    cases h
  · rw [(last_mem hnil).2] at h
    exact (Option.some.inj h).symm

theorem entries_sides {dir : Bytes} {names : List Bytes} {e : PairEntry}
    (he : e ∈ entries dir names) (key : Bytes) :
    slot e.left ≠ some (.right, key) ∧ slot e.right ≠ some (.left, key) := by
  rw [entries, List.mem_append, List.mem_mergeSort] at he
  rcases he with he | he
  · obtain ⟨⟨key', e⟩, hentry, rfl⟩ := List.mem_map.1 (List.mem_of_mem_filter he)
    rw [entry_eq (List.mem_mergeSort.1 hentry)]
    constructor
    · intro h
      have hside := congrArg Prod.fst (slot_last h)
      cases hside
    · intro h
      have hside := congrArg Prod.fst (slot_last h)
      cases hside
  · obtain ⟨f, hf, rfl⟩ := List.mem_map.1 he
    obtain ⟨hmem, hunused⟩ := List.mem_filter.1 hf
    have hnone : slot f = none := by
      by_contra hslot
      exact of_decide_eq_true hunused ((used_eq _ f).2 ⟨hmem, hslot⟩)
    exact ⟨by rw [hnone]; simp, by simp [slot, stem, fileName]⟩

/-- A second file for a slot takes the place of the first, which is marked as used and so
is not among the single files either. -/
theorem entries_eachOnce {dir : Bytes} {names : List Bytes} (hnodup : names.Nodup)
    (hne : [] ∉ names) : EachOnce (acceptedFiles dir names) (entries dir names) ↔
      ∀ f ∈ acceptedFiles dir names, ∀ g ∈ acceptedFiles dir names, ∀ s,
        slot f = some s → slot g = some s → f = g := by
  have hne' := acceptedFiles_ne_nil dir hne
  have hfiles := nodup_files hne' (acceptedFiles_nodup hnodup)
  constructor
  · intro honce f hf g hg s hslot hslot'
    have hstays {f : Bytes} (hf : f ∈ acceptedFiles dir names) (hslot : slot f = some s) :
        last (acceptedFiles dir names) s = f :=
      ((mem_entries hne').1 (List.count_pos_iff.1 (by rw [honce.once f hf]; decide))).2 s hslot
    exact (hstays hf hslot).symm.trans (hstays hg hslot')
  · intro hone
    refine ⟨fun f hf => ?_, fun f hf => ((mem_entries hne').1 hf).1,
      fun e he key => (entries_sides he key).1, fun e he key => (entries_sides he key).2⟩
    refine List.count_eq_one_of_mem hfiles ((mem_entries hne').2 ⟨hf, fun s hslot => ?_⟩)
    obtain ⟨hlast, hmem⟩ := last_slot hf hslot
    exact hone _ hmem f hf s hlast hslot

theorem entries_eachOnce_pair :
    EachOnce (acceptedFiles (bytes "data") [bytes "1_a.jpg", bytes "R_a.PNG", bytes "b.txt"])
      (entries (bytes "data") [bytes "1_a.jpg", bytes "R_a.PNG", bytes "b.txt"]) :=
  (entries_eachOnce (by decide) (by decide)).2 (by decide)

/-- Two spellings of the left side: the first file is never processed. -/
theorem entries_eachOnce_clash :
    ¬ EachOnce (acceptedFiles (bytes "data") [bytes "1_a.jpg", bytes "L_a.jpg"])
      (entries (bytes "data") [bytes "1_a.jpg", bytes "L_a.jpg"]) := by
  intro honce
  have hcount := honce.once (bytes "data/1_a.jpg") (by decide)
  have hne : [] ∉ acceptedFiles (bytes "data") [bytes "1_a.jpg", bytes "L_a.jpg"] := by decide
  have hmem := (mem_entries hne).1 (List.count_pos_iff.1 (by rw [hcount]; decide))
  exact absurd (hmem.2 (.left, bytes "a") (by decide)) (by decide)

end AiTest
end EcidsCore
