import Mathlib.Data.List.AList
import Mathlib.Data.List.Nodup

set_option autoImplicit false

/-! A keyed table with the record of everything that was ever put in: each value
leaves once, with a fate, or still stands in the table. -/

variable {κ ν φ : Type*} [DecidableEq κ]

def tableRows (table : AList fun _ : κ => ν) : List ν := table.entries.map Sigma.snd

omit [DecidableEq κ] in
@[simp] theorem tableRows_empty : tableRows (∅ : AList fun _ : κ => ν) = [] := rfl

omit [DecidableEq κ] in
theorem length_tableRows (table : AList fun _ : κ => ν) :
    (tableRows table).length = table.keys.length := by
  rw [tableRows, AList.keys, List.keys, List.length_map, List.length_map]

theorem mem_tableRows {table : AList fun _ : κ => ν} {k : κ} {v : ν}
    (h : table.lookup k = some v) : v ∈ tableRows table :=
  List.mem_map.2 ⟨⟨k, v⟩, AList.mem_lookup_iff.1 h, rfl⟩

theorem tableRows_kerase (table : AList fun _ : κ => ν) (k : κ) :
    tableRows (table.erase k) = (table.entries.kerase k).map Sigma.snd := rfl

theorem tableRows_insert (table : AList fun _ : κ => ν) (k : κ) (v : ν) :
    tableRows (table.insert k v) = v :: tableRows (table.erase k) := by
  rw [tableRows, AList.entries_insert]
  rfl

theorem tableRows_erase (table : AList fun _ : κ => ν) (k : κ) :
    (tableRows table).Perm ((table.lookup k).toList ++ tableRows (table.erase k)) := by
  cases h : table.lookup k with
  | none =>
    have hk : k ∉ table.entries.keys := AList.lookup_eq_none.1 h
    rw [Option.toList_none, List.nil_append, tableRows_kerase, List.kerase_of_notMem_keys hk]
    exact .refl _
  | some v =>
    have hk : k ∈ table.entries.keys := AList.lookup_isSome.1 (by rw [h]; rfl)
    obtain ⟨w, front, back, -, hentries, hrest⟩ := List.exists_of_kerase hk
    have hw : table.lookup k = some w :=
      AList.mem_lookup_iff.2 (by rw [hentries]; exact List.mem_append_right _ List.mem_cons_self)
    obtain rfl : v = w := Option.some.inj (h.symm.trans hw)
    rw [tableRows_kerase, hrest, tableRows, hentries, List.map_append, List.map_append]
    exact List.perm_middle

/-- An invalid ledger, in which a value is lost or counted twice, cannot be built. -/
structure TableLedger (κ ν φ : Type*) [DecidableEq κ] where
  accepted : List ν
  removed : List (φ × ν)
  table : AList fun _ : κ => ν
  balanced : accepted.Perm (removed.map Prod.snd ++ tableRows table)

namespace TableLedger

def empty : TableLedger κ ν φ := ⟨[], [], ∅, .nil⟩

/-- Put `v` under `k`; what stood there leaves with fate `f`. -/
def put (f : φ) (k : κ) (v : ν) (L : TableLedger κ ν φ) : TableLedger κ ν φ where
  accepted := L.accepted ++ [v]
  removed := L.removed ++ (L.table.lookup k).toList.map (f, ·)
  table := L.table.insert k v
  balanced := by
    have hrow : ((L.table.lookup k).toList.map (f, ·)).map Prod.snd =
        (L.table.lookup k).toList := by
      simp [Function.comp_def]
    rw [List.map_append, hrow, tableRows_insert, List.append_assoc]
    calc (L.accepted ++ [v]).Perm (v :: L.accepted) := List.perm_append_singleton v L.accepted
      _ |>.Perm (v :: (L.removed.map Prod.snd ++ tableRows L.table)) := L.balanced.cons v
      _ |>.Perm (v :: (L.removed.map Prod.snd ++
            ((L.table.lookup k).toList ++ tableRows (L.table.erase k)))) :=
          ((tableRows_erase L.table k).append_left _).cons v
      _ |>.Perm _ := by
          rw [← List.append_assoc, ← List.append_assoc]
          exact List.perm_middle.symm

/-- Take the value under `k`, with the fate that it decides. -/
def take (fate : ν → φ) (k : κ) (L : TableLedger κ ν φ) : TableLedger κ ν φ where
  accepted := L.accepted
  removed := L.removed ++ (L.table.lookup k).toList.map fun v => (fate v, v)
  table := L.table.erase k
  balanced := by
    have hrow : ((L.table.lookup k).toList.map fun v => (fate v, v)).map Prod.snd =
        (L.table.lookup k).toList := by
      simp [Function.comp_def]
    rw [List.map_append, hrow, List.append_assoc]
    exact L.balanced.trans ((tableRows_erase L.table k).append_left _)

def flush (f : φ) (L : TableLedger κ ν φ) : TableLedger κ ν φ where
  accepted := L.accepted
  removed := L.removed ++ (tableRows L.table).map (f, ·)
  table := ∅
  balanced := by
    simpa [Function.comp_def] using L.balanced

variable [DecidableEq φ]

def withFate (f : φ) (L : TableLedger κ ν φ) : List ν :=
  (L.removed.filter fun e => e.1 = f).map Prod.snd

theorem withFate_put (f g : φ) (k : κ) (v : ν) (L : TableLedger κ ν φ) :
    (L.put f k v).withFate g =
      L.withFate g ++ if f = g then (L.table.lookup k).toList else [] := by
  cases h : L.table.lookup k with
  | none => simp [withFate, put, h]
  | some w => by_cases hfg : f = g <;> simp [withFate, put, h, hfg]

theorem withFate_take (fate : ν → φ) (g : φ) (k : κ) (L : TableLedger κ ν φ) :
    (L.take fate k).withFate g =
      L.withFate g ++ (L.table.lookup k).toList.filter fun v => fate v = g := by
  cases h : L.table.lookup k with
  | none => simp [withFate, take, h]
  | some w => by_cases hfg : fate w = g <;> simp [withFate, take, h, hfg]

theorem withFate_flush (f g : φ) (L : TableLedger κ ν φ) :
    (L.flush f).withFate g = L.withFate g ++ if f = g then tableRows L.table else [] := by
  have hrow : (((tableRows L.table).map (f, ·)).filter fun e => e.1 = g).map Prod.snd =
      if f = g then tableRows L.table else [] := by
    induction tableRows L.table with
    | nil => simp
    | cons v rows ih => by_cases hfg : f = g <;> simp_all
  rw [withFate, flush, List.filter_append, List.map_append, hrow, withFate]

private theorem flatMap_fates_skip {g : φ} {fates : List φ} (hg : g ∉ fates) (v : ν)
    (es : List (φ × ν)) :
    (fates.flatMap fun f => (((g, v) :: es).filter fun e => e.1 = f).map Prod.snd) =
      fates.flatMap fun f => (es.filter fun e => e.1 = f).map Prod.snd := by
  induction fates with
  | nil => rfl
  | cons f fates ih =>
    have hne : ¬ g = f := List.ne_of_not_mem_cons hg
    have hrest : g ∉ fates := List.not_mem_of_not_mem_cons hg
    rw [List.flatMap_cons, List.flatMap_cons, ih hrest,
      List.filter_cons_of_neg (by simpa using hne)]

private theorem perm_by_fates (fates : List φ) (hall : ∀ f, f ∈ fates) (hnodup : fates.Nodup)
    (es : List (φ × ν)) :
    (es.map Prod.snd).Perm
      (fates.flatMap fun f => (es.filter fun e => e.1 = f).map Prod.snd) := by
  induction es with
  | nil => simp
  | cons e es ih =>
    obtain ⟨g, v⟩ := e
    obtain ⟨front, back, rfl⟩ := List.append_of_mem (hall g)
    have honce : g ∉ front ++ back := (List.nodup_middle.1 hnodup).notMem
    have hfront : g ∉ front := fun h => honce (List.mem_append_left back h)
    have hback : g ∉ back := fun h => honce (List.mem_append_right front h)
    simp only [List.flatMap_append, List.flatMap_cons] at ih ⊢
    have hown : (((g, v) :: es).filter fun e => e.1 = g) = (g, v) :: es.filter fun e => e.1 = g :=
      List.filter_cons_of_pos (decide_eq_true rfl)
    rw [flatMap_fates_skip hfront, flatMap_fates_skip hback, hown, List.map_cons, List.map_cons,
      List.cons_append]
    exact (ih.cons v).trans List.perm_middle.symm

/-- Every value put in left with exactly one fate, or still stands in the table. -/
theorem accepted_perm (fates : List φ) (hall : ∀ f, f ∈ fates) (hnodup : fates.Nodup)
    (L : TableLedger κ ν φ) :
    L.accepted.Perm (fates.flatMap L.withFate ++ tableRows L.table) :=
  L.balanced.trans ((perm_by_fates fates hall hnodup L.removed).append_right _)

theorem withFate_sublist (f : φ) (L : TableLedger κ ν φ) :
    (L.withFate f).Sublist (L.removed.map Prod.snd ++ tableRows L.table) :=
  (List.filter_sublist.map Prod.snd).trans (List.sublist_append_left _ _)

theorem length_withFate_le (f : φ) (L : TableLedger κ ν φ) :
    (L.withFate f).length ≤ L.accepted.length := by
  rw [L.balanced.length_eq]
  exact (L.withFate_sublist f).length_le

theorem withFate_nodup {β : Type*} {key : ν → β} (L : TableLedger κ ν φ)
    (h : (L.accepted.map key).Nodup) (f : φ) : ((L.withFate f).map key).Nodup :=
  ((L.balanced.map key).nodup_iff.1 h).sublist ((L.withFate_sublist f).map key)

/-- Every value stands under its own key. -/
def Keyed (key : ν → κ) (L : TableLedger κ ν φ) : Prop :=
  ∀ k v, L.table.lookup k = some v → key v = k

omit [DecidableEq φ] in
theorem keyed_put {key : ν → κ} {L : TableLedger κ ν φ} (hL : L.Keyed key) (f : φ) (v : ν) :
    (L.put f (key v) v).Keyed key := by
  intro k w h
  by_cases hk : k = key v
  · have hw : (L.table.insert (key v) v).lookup k = some v := by rw [hk, AList.lookup_insert]
    rw [hk, Option.some.inj (h.symm.trans hw)]
  · exact hL k w ((AList.lookup_insert_ne hk).symm.trans h)

omit [DecidableEq φ] in
theorem keyed_take {key : ν → κ} {L : TableLedger κ ν φ} (hL : L.Keyed key) (fate : ν → φ)
    (k : κ) : (L.take fate k).Keyed key := by
  intro j v h
  have hmem : (⟨j, v⟩ : Sigma fun _ : κ => ν) ∈ (L.table.erase k).entries :=
    AList.mem_lookup_iff.1 h
  exact hL j v (AList.mem_lookup_iff.2 ((List.kerase_sublist k L.table.entries).subset hmem))

omit [DecidableEq φ] in
theorem keyed_flush (key : ν → κ) (f : φ) (L : TableLedger κ ν φ) : (L.flush f).Keyed key := by
  intro k v h
  cases (AList.lookup_empty (β := fun _ : κ => ν) k).symm.trans h

omit [DecidableEq φ] in
theorem lookup_eq_none {key : ν → κ} {L : TableLedger κ ν φ} (hL : L.Keyed key) {k : κ}
    (hk : k ∉ L.accepted.map key) : L.table.lookup k = none := by
  cases h : L.table.lookup k with
  | none => rfl
  | some v =>
    have hv : v ∈ L.accepted :=
      L.balanced.mem_iff.2 (List.mem_append_right _ (mem_tableRows h))
    exact absurd (List.mem_map.2 ⟨v, hv, hL k v h⟩) hk

end TableLedger
