import EcidsCore.TableLedger
import Mathlib.Data.List.Induction

set_option autoImplicit false

/-! A log of writes to keyed places, in which a later entry replaces an earlier one with
its key: the entries that stand at its end, and what a store holds that was written by it. -/
namespace LastWrite

variable {κ ε : Type*} [DecidableEq κ] (key : ε → κ)

/-- The last entry of each key. -/
def shelf (log : List ε) : AList fun _ : κ => ε :=
  log.foldl (fun t e => t.insert (key e) e) ∅

def current (log : List ε) : List ε := tableRows (shelf key log)

variable {key}

theorem shelf_append (log : List ε) (e : ε) :
    shelf key (log ++ [e]) = (shelf key log).insert (key e) e := by
  rw [shelf, List.foldl_append]
  rfl

theorem lookup_append_self {log : List ε} {e : ε} {k : κ} (h : key e = k) :
    (shelf key (log ++ [e])).lookup k = some e := by
  rw [shelf_append, ← h, AList.lookup_insert]

theorem lookup_append_other {log : List ε} {e : ε} {k : κ} (h : key e ≠ k) :
    (shelf key (log ++ [e])).lookup k = (shelf key log).lookup k := by
  rw [shelf_append, AList.lookup_insert_ne (Ne.symm h)]

theorem of_lookup {log : List ε} {k : κ} {e : ε} (h : (shelf key log).lookup k = some e) :
    e ∈ log ∧ key e = k := by
  induction log using List.reverseRecOn with
  | nil => cases (AList.lookup_empty (β := fun _ : κ => ε) k).symm.trans h
  | append_singleton log last ih =>
    by_cases hk : key last = k
    · rw [lookup_append_self hk] at h
      cases h
      exact ⟨List.mem_append_right _ List.mem_cons_self, hk⟩
    · rw [lookup_append_other hk] at h
      obtain ⟨hmem, hkey⟩ := ih h
      exact ⟨List.mem_append_left _ hmem, hkey⟩

theorem exists_lookup {log : List ε} {e : ε} (h : e ∈ log) :
    ∃ last, (shelf key log).lookup (key e) = some last := by
  induction log using List.reverseRecOn with
  | nil => cases h
  | append_singleton log last ih =>
    by_cases hk : key last = key e
    · exact ⟨last, lookup_append_self hk⟩
    · rw [lookup_append_other hk]
      rcases List.mem_append.1 h with h | h
      · exact ih h
      · exact absurd (congrArg key (List.mem_singleton.1 h)).symm hk

theorem mem_current {log : List ε} {e : ε} :
    e ∈ current key log ↔ (shelf key log).lookup (key e) = some e := by
  constructor
  · intro h
    obtain ⟨⟨k, v⟩, hmem, rfl⟩ := List.mem_map.1 h
    have hrow : (shelf key log).lookup k = some v := AList.mem_lookup_iff.2 hmem
    rw [(of_lookup hrow).2]
    exact hrow
  · exact mem_tableRows

theorem current_subset {log : List ε} {e : ε} (h : e ∈ current key log) : e ∈ log :=
  (of_lookup (mem_current.1 h)).1

theorem current_nodup (log : List ε) : (current key log).Nodup := by
  refine List.Nodup.of_map key ?_
  have hkeys : (current key log).map key = (shelf key log).keys := by
    rw [current, tableRows, List.map_map]
    refine List.map_congr_left ?_
    rintro ⟨k, v⟩ hmem
    exact (of_lookup (AList.mem_lookup_iff.2 hmem)).2
  rw [hkeys]
  exact AList.keys_nodup _

theorem mem_current_of_unique {log : List ε} {e : ε} (he : e ∈ log)
    (h : ∀ e' ∈ log, key e' = key e → e' = e) : e ∈ current key log := by
  obtain ⟨last, hlast⟩ : ∃ last, (shelf key log).lookup (key e) = some last := exists_lookup he
  obtain ⟨hmem, hkey⟩ := of_lookup hlast
  rw [mem_current, hlast, h last hmem hkey]

theorem read_foldl {σ β : Type*} {write : σ → ε → σ} (read : σ → Option β) {value : ε → β}
    {log : List ε} {k : κ}
    (hsame : ∀ e ∈ log, key e = k → ∀ s, read (write s e) = some (value e))
    (hother : ∀ e ∈ log, key e ≠ k → ∀ s, read (write s e) = read s) {s : σ}
    (hnone : read s = none) :
    read (log.foldl write s) = ((shelf key log).lookup k).map value := by
  induction log using List.reverseRecOn with
  | nil => exact hnone
  | append_singleton log last ih =>
    have hlast : last ∈ log ++ [last] := List.mem_append_right _ List.mem_cons_self
    rw [List.foldl_append]
    change read (write (log.foldl write s) last) = _
    by_cases hk : key last = k
    · rw [hsame last hlast hk, lookup_append_self hk]
      rfl
    · rw [hother last hlast hk, lookup_append_other hk]
      exact ih (fun e he => hsame e (List.mem_append_left _ he))
        fun e he => hother e (List.mem_append_left _ he)

end LastWrite
