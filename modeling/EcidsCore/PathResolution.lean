import Mathlib.Data.List.Basic

set_option autoImplicit false

/-! Lexical resolution of paths over any alphabet: a path is cut at a separator,
empty and single-dot components are dropped and a double-dot component removes
the component before it. -/
namespace PathResolution

variable {α : Type*} [DecidableEq α] (sep dot : α)

def components (p : List α) : List (List α) := p.splitOn sep

def Stays (c : List α) : Prop := c = [] ∨ c = [dot]

instance (c : List α) : Decidable (Stays dot c) := inferInstanceAs (Decidable (_ ∨ _))

omit [DecidableEq α] in
theorem stays_nil : Stays dot [] := .inl rfl

def Climbs (c : List α) : Prop := c = [dot, dot]

instance (c : List α) : Decidable (Climbs dot c) := inferInstanceAs (Decidable (_ = _))

def enter (dir : List (List α)) (c : List α) : List (List α) :=
  if Stays dot c then dir else if Climbs dot c then dir.dropLast else dir ++ [c]

/-- The directory reached from `dir` through the components `cs`. -/
def resolve (dir : List (List α)) (cs : List (List α)) : List (List α) :=
  cs.foldl (enter dot) dir

/-- How far below its start a walk that begins `d` levels deep ends; `none` when
it climbs above its start on the way. -/
def depth : ℕ → List (List α) → Option ℕ
  | d, [] => some d
  | d, c :: cs =>
    if Stays dot c then depth d cs
    else if Climbs dot c then
      match d with
      | 0 => none
      | d + 1 => depth d cs
    else depth (d + 1) cs

variable {sep dot}

theorem components_append (p q : List α) :
    components sep (p ++ sep :: q) = components sep p ++ components sep q :=
  List.splitOn_append_cons_self p q

theorem components_append_left {a : List α} (h : sep ∉ a) (q : List α) :
    components sep (a ++ q) = (components sep q).modifyHead (a ++ ·) := by
  induction a with
  | nil =>
    change components sep q = (components sep q).modifyHead id
    rw [List.modifyHead_id]
    rfl
  | cons c a ih =>
    have hc : c ≠ sep := fun he => h (he ▸ List.mem_cons_self)
    have ha : sep ∉ a := fun hm => h (List.mem_cons_of_mem c hm)
    have hcons : components sep (c :: (a ++ q)) = (components sep (a ++ q)).modifyHead (c :: ·) := by
      rw [components, List.splitOn_cons_eq_if_modifyHead, if_neg (by simpa using hc)]
      rfl
    rw [List.cons_append, hcons, ih ha, List.modifyHead_modifyHead]
    rfl

@[simp] theorem resolve_nil (dir : List (List α)) : resolve dot dir [] = dir := rfl

theorem resolve_cons (dir : List (List α)) (c : List α) (cs : List (List α)) :
    resolve dot dir (c :: cs) = resolve dot (enter dot dir c) cs := rfl

theorem resolve_append (dir cs ds : List (List α)) :
    resolve dot dir (cs ++ ds) = resolve dot (resolve dot dir cs) ds :=
  List.foldl_append

theorem depth_append (d : ℕ) (cs ds : List (List α)) :
    depth dot d (cs ++ ds) = (depth dot d cs).bind fun e => depth dot e ds := by
  induction cs generalizing d with
  | nil => rfl
  | cons c cs ih =>
    simp only [List.cons_append, depth]
    split
    · exact ih d
    · split
      · cases d with
        | zero => rfl
        | succ d => exact ih d
      · exact ih (d + 1)

theorem resolve_below {d e : ℕ} {cs : List (List α)} (h : depth dot d cs = some e)
    (below : List (List α)) (hb : below.length = d) :
    (resolve dot below cs).length = e ∧
      ∀ dir, resolve dot (dir ++ below) cs = dir ++ resolve dot below cs := by
  induction cs generalizing d below with
  | nil => exact ⟨by simpa [depth, hb] using h, fun dir => rfl⟩
  | cons c cs ih =>
    simp only [resolve_cons, enter]
    simp only [depth] at h
    by_cases hs : Stays dot c
    · simp only [if_pos hs] at h ⊢
      exact ih h below hb
    · simp only [if_neg hs] at h ⊢
      by_cases hc : Climbs dot c
      · simp only [if_pos hc] at h ⊢
        cases d with
        | zero => simp at h
        | succ d =>
          have hne : below ≠ [] := by
            rintro rfl
            simp at hb
          simp only [List.dropLast_append_of_ne_nil hne]
          exact ih h below.dropLast (by rw [List.length_dropLast, hb]; rfl)
      · simp only [if_neg hc] at h ⊢
        simp only [List.append_assoc]
        exact ih h (below ++ [c]) (by rw [List.length_append, hb]; rfl)

theorem resolve_of_depth {d e : ℕ} {cs : List (List α)} (h : depth dot d cs = some e)
    (dir below : List (List α)) (hb : below.length = d) :
    ∃ ended, ended.length = e ∧ resolve dot (dir ++ below) cs = dir ++ ended :=
  ⟨resolve dot below cs, (resolve_below h below hb).1, (resolve_below h below hb).2 dir⟩

theorem resolve_prefix {e : ℕ} {cs : List (List α)} (h : depth dot 0 cs = some e)
    (dir : List (List α)) : dir <+: resolve dot dir cs := by
  obtain ⟨ended, _, hr⟩ := resolve_of_depth h dir [] rfl
  rw [List.append_nil] at hr
  rw [hr]
  exact List.prefix_append dir ended

theorem depth_isSome_of_no_climb {cs : List (List α)} (h : ∀ c ∈ cs, ¬ Climbs dot c) (d : ℕ) :
    (depth dot d cs).isSome := by
  induction cs generalizing d with
  | nil => rfl
  | cons c cs ih =>
    have ht : ∀ c ∈ cs, ¬ Climbs dot c := fun x hx => h x (List.mem_cons_of_mem c hx)
    simp only [depth, if_neg (h c List.mem_cons_self)]
    split
    · exact ih ht d
    · exact ih ht (d + 1)

theorem resolve_concat {c : List α} (hs : ¬ Stays dot c) (hc : ¬ Climbs dot c)
    (dir cs : List (List α)) : resolve dot dir (cs ++ [c]) = resolve dot dir cs ++ [c] := by
  rw [resolve_append, resolve_cons, resolve_nil, enter, if_neg hs, if_neg hc]

theorem resolve_solid {cs : List (List α)} (h : ∀ c ∈ cs, ¬ Stays dot c ∧ ¬ Climbs dot c)
    (dir : List (List α)) : resolve dot dir cs = dir ++ cs := by
  induction cs generalizing dir with
  | nil => rw [resolve_nil, List.append_nil]
  | cons c cs ih =>
    have hc := h c List.mem_cons_self
    rw [resolve_cons, enter, if_neg hc.1, if_neg hc.2, ih fun x hx => h x (List.mem_cons_of_mem c hx),
      List.append_assoc]
    rfl

end PathResolution
