import EcidsCore.ExceptRules
import EcidsCore.JsonText

set_option autoImplicit false

/-! The configuration: one JSON value, addressed by keys whose segments are parted
by dots. A setter works on the tree in place, so the tree that it leaves when it throws is part
of its result. -/
namespace EcidsCore

variable {R : Type}

/-- Objects are kept sorted by key. -/
def setField (key : String) (v : Json R) : List (String × Json R) → List (String × Json R)
  | [] => [(key, v)]
  | (k, w) :: rest =>
    if key = k then (k, v) :: rest
    else if key < k then (key, v) :: (k, w) :: rest
    else (k, w) :: setField key v rest

namespace Json

def replaceField (key : String) (v : Json R) : List (String × Json R) → List (String × Json R)
  | [] => []
  | (k, w) :: rest => if k = key then (k, v) :: rest else (k, w) :: replaceField key v rest

def replaceMember (j : Json R) (key : String) (v : Json R) : Json R :=
  match j with
  | .object fields => .object (replaceField key v fields)
  | j => j

/-- `operator[]` for a missing member, with an empty object assigned to it. -/
def createMember (lib : Nlohmann R) (j : Json R) (key : String) : Except Exc (Json R) :=
  if (j.member? key).isSome then .ok j
  else match j with
    | .object fields => .ok (.object (setField key (.object []) fields))
    | .null => .ok (.object [(key, .object [])])
    | j => .error (.typeError (lib.typeErrorText 305 j))

end Json

namespace ConfigManager

/-- A key that ends in a dot has no last empty segment. -/
def segments (key : String) : List String :=
  let parts := (key.toList.splitOn '.').map String.ofList
  if parts.getLast? = some "" then parts.dropLast else parts

/-- `navigate_const`. -/
def navigate : List String → Json R → Option (Json R)
  | [], j => some j
  | s :: ss, j => (j.member? s).bind (navigate ss)

namespace InPlace

/-- `navigate` with `create`, and the assignment to the node it reaches. -/
def setNode (lib : Nlohmann R) (v : Json R) : List String → Json R → Option Exc × Json R
  | [], _ => (none, v)
  | s :: ss, j =>
    match j.createMember lib s with
    | .error e => (some e, j)
    | .ok j =>
      match j.member? s with
      | none => (none, j)
      | some child =>
        let (threw, child) := setNode lib v ss child
        (threw, j.replaceMember s child)

end InPlace

def assign (lib : Nlohmann R) (v : Json R) (ss : List String) (j : Json R) : Except Exc (Json R) :=
  match InPlace.setNode lib v ss j with
  | (some e, _) => .error e
  | (none, j') => .ok j'

def getString (config : Json R) (key default : String) : String :=
  match navigate (segments key) config with
  | some (.string s) => s
  | _ => default

def setString (lib : Nlohmann R) (config : Json R) (key val : String) : Except Exc (Json R) :=
  assign lib (.string val) (segments key) config

end ConfigManager

open ConfigManager

namespace Json

theorem member?_nil (key : String) : (Json.object [] : Json R).member? key = none := rfl

theorem member?_cons (key k : String) (v : Json R) (rest : List (String × Json R)) :
    (Json.object ((k, v) :: rest)).member? key =
      if k = key then some v else (Json.object rest).member? key := by
  by_cases hk : k = key <;> simp [member?, hk]

end Json

theorem member?_setField (key : String) (v : Json R) (k : String) (fields : List (String × Json R)) :
    (Json.object (setField key v fields)).member? k =
      if k = key then some v else (Json.object fields).member? k := by
  induction fields with
  | nil =>
    rw [setField, Json.member?_cons]
    simp only [eq_comm]
  | cons f rest ih =>
    obtain ⟨k', w⟩ := f
    rw [setField]
    by_cases hk : key = k'
    · subst hk
      rw [if_pos rfl, Json.member?_cons, Json.member?_cons]
      by_cases hkey : k = key
      · simp [hkey]
      · simp [hkey, Ne.symm hkey]
    · by_cases hlt : key < k'
      · rw [if_neg hk, if_pos hlt, Json.member?_cons]
        simp only [eq_comm]
      · rw [if_neg hk, if_neg hlt, Json.member?_cons, Json.member?_cons, ih]
        by_cases hkey : k' = k
        · subst hkey
          simp [Ne.symm hk]
        · simp [hkey]

namespace Json

theorem member?_replaceField (key : String) (v : Json R) (k : String)
    (fields : List (String × Json R)) :
    (Json.object (replaceField key v fields)).member? k =
      if k = key then ((Json.object fields).member? k).map fun _ => v
      else (Json.object fields).member? k := by
  induction fields with
  | nil => simp [replaceField, member?_nil]
  | cons f rest ih =>
    obtain ⟨k', w⟩ := f
    rw [replaceField]
    by_cases hk' : k' = key
    · subst hk'
      rw [if_pos rfl, member?_cons, member?_cons]
      by_cases hk : k = k'
      · simp [hk]
      · simp [hk, Ne.symm hk]
    · rw [if_neg hk', member?_cons, member?_cons, ih]
      by_cases hk : k' = k
      · subst hk
        simp [hk']
      · simp [hk]

theorem member?_replaceMember {key : String} {j child : Json R} (v : Json R)
    (h : j.member? key = some child) (k : String) :
    (j.replaceMember key v).member? k = if k = key then some v else j.member? k := by
  cases j with
  | object fields =>
    rw [replaceMember, member?_replaceField]
    by_cases hk : k = key
    · rw [if_pos hk, if_pos hk, hk, h, Option.map_some]
    · rw [if_neg hk, if_neg hk]
  | null | boolean | integer | number | string | array => cases h

/-- Assigning what the member holds changes nothing. -/
theorem replaceMember_self {key : String} {j child : Json R} (h : j.member? key = some child) :
    j.replaceMember key child = j := by
  cases j with
  | object fields =>
    apply congrArg Json.object
    induction fields with
    | nil => rfl
    | cons f rest ih =>
      obtain ⟨k, w⟩ := f
      rw [member?_cons] at h
      rw [replaceField]
      by_cases hk : k = key
      · rw [if_pos hk] at h ⊢
        cases h
        rfl
      · rw [if_neg hk] at h ⊢
        rw [ih h]
  | null | boolean | integer | number | string | array => cases h

/-- What the creation of a member can do: refuse, find the member, or add an empty object. -/
theorem createMember_cases (lib : Nlohmann R) (j : Json R) (key : String) :
    (∃ w, j.createMember lib key = .error (.typeError (lib.typeErrorText 305 w))) ∨
      (∃ child, j.member? key = some child ∧ j.createMember lib key = .ok j) ∨
      ∃ j', j.member? key = none ∧ j.createMember lib key = .ok j' ∧
        ∀ k, j'.member? k = if k = key then some (.object []) else j.member? k := by
  unfold createMember
  cases hm : j.member? key with
  | some child => exact .inr (.inl ⟨child, rfl, rfl⟩)
  | none =>
    cases j with
    | object fields =>
      refine .inr (.inr ⟨_, rfl, rfl, ?_⟩)
      intro k
      rw [member?_setField]
    | null =>
      refine .inr (.inr ⟨_, rfl, rfl, ?_⟩)
      intro k
      rw [member?_cons, member?_nil]
      simp only [eq_comm, member?]
    | boolean | integer | number | string | array => exact .inl ⟨_, rfl⟩

end Json

namespace ConfigManager

def Apart (ss ts : List String) : Prop := ¬ ss <+: ts ∧ ¬ ts <+: ss

theorem Apart.of_cons {s : String} {ss ts : List String} (h : Apart (s :: ss) (s :: ts)) :
    Apart ss ts :=
  ⟨fun hp => h.1 (List.cons_prefix_cons.2 ⟨rfl, hp⟩),
    fun hp => h.2 (List.cons_prefix_cons.2 ⟨rfl, hp⟩)⟩

theorem segments_ne_nil {key : String} (h : key ≠ "") : segments key ≠ [] := by
  have hjoin : ['.'].intercalate (key.toList.splitOn '.') = key.toList :=
    List.intercalate_splitOn _
  rw [segments]
  generalize key.toList.splitOn '.' = parts at hjoin
  intro hnil
  apply h
  rw [← String.toList_inj, ← hjoin]
  cases parts with
  | nil => rfl
  | cons part rest =>
    split_ifs at hnil with hlast
    · cases rest with
      | nil =>
        have hpart : part = [] := by simpa using hlast
        rw [hpart]
        rfl
      | cons part' rest => simp at hnil
    · cases hnil

theorem navigate_cons_empty (s : String) (ss : List String) :
    navigate (s :: ss) (.object [] : Json R) = none := rfl

namespace InPlace
variable {lib : Nlohmann R} {v : Json R}

theorem setNode_empty (ss : List String) : (setNode lib v ss (.object [])).1 = none := by
  induction ss with
  | nil => rfl
  | cons s ss ih =>
    have hcreate : (Json.object [] : Json R).createMember lib s = .ok (.object [(s, .object [])]) := rfl
    have hchild : (Json.object [(s, .object [])] : Json R).member? s = some (.object []) := by
      rw [Json.member?_cons, if_pos rfl]
    rw [setNode, hcreate]
    dsimp only
    rw [hchild]
    exact ih

theorem setNode_cons {s : String} {ss : List String} {j j' child : Json R}
    (hcreate : j.createMember lib s = .ok j') (hchild : j'.member? s = some child) :
    setNode lib v (s :: ss) j =
      ((setNode lib v ss child).1, j'.replaceMember s (setNode lib v ss child).2) := by
  rw [setNode, hcreate]
  dsimp only
  rw [hchild]

theorem navigate_replaceMember {s : String} {ss ts : List String} {j j' child child' : Json R}
    (hchild : j'.member? s = some child) (hother : ∀ k, k ≠ s → j'.member? k = j.member? k)
    (hbelow : ∀ us, Apart ss us → (j.member? s).bind (navigate us) = navigate us child')
    (h : Apart (s :: ss) ts) : navigate ts (j'.replaceMember s child') = navigate ts j := by
  cases ts with
  | nil => exact absurd List.nil_prefix h.2
  | cons t ts =>
    rw [navigate, navigate, Json.member?_replaceMember child' hchild]
    by_cases ht : t = s
    · subst ht
      rw [if_pos rfl, Option.bind_some, hbelow ts h.of_cons]
    · rw [if_neg ht, hother t ht]

/-- What an assignment leaves: the tree as it was, or the value at the end of the path and
every node apart from the path as it was. -/
theorem setNode_cases (ss : List String) (j : Json R) :
    (∃ e, setNode lib v ss j = (some e, j)) ∨
      ∃ j', setNode lib v ss j = (none, j') ∧ navigate ss j' = some v ∧
        ∀ ts, Apart ss ts → navigate ts j' = navigate ts j := by
  induction ss generalizing j with
  | nil =>
    refine .inr ⟨v, rfl, rfl, ?_⟩
    intro ts h
    exact absurd List.nil_prefix h.1
  | cons s ss ih =>
    rcases Json.createMember_cases lib j s with ⟨w, hcreate⟩ | ⟨child, hchild, hcreate⟩ |
      ⟨j', hmissing, hcreate, hmembers⟩
    · refine .inl ⟨.typeError (lib.typeErrorText 305 w), ?_⟩
      rw [setNode, hcreate]
    · rw [setNode_cons hcreate hchild]
      rcases ih child with ⟨e, he⟩ | ⟨child', hset, hread, hrest⟩
      · refine .inl ⟨e, ?_⟩
        rw [he, Json.replaceMember_self hchild]
      · refine .inr ⟨j.replaceMember s child', by rw [hset], ?_, ?_⟩
        · rw [navigate, Json.member?_replaceMember child' hchild, if_pos rfl]
          exact hread
        · intro ts hts
          apply navigate_replaceMember hchild (fun _ _ => rfl) _ hts
          intro us hus
          rw [hchild, Option.bind_some, hrest us hus]
    · have hchild : j'.member? s = some (.object []) := by rw [hmembers, if_pos rfl]
      rw [setNode_cons hcreate hchild]
      rcases ih (.object []) with ⟨e, he⟩ | ⟨child', hset, hread, hrest⟩
      · have hnone : (setNode lib v ss (.object [])).1 = none := setNode_empty ss
        rw [he] at hnone
        cases hnone
      · refine .inr ⟨j'.replaceMember s child', by rw [hset], ?_, ?_⟩
        · rw [navigate, Json.member?_replaceMember child' hchild, if_pos rfl]
          exact hread
        · intro ts hts
          apply navigate_replaceMember hchild (fun k hk => by rw [hmembers, if_neg hk]) _ hts
          intro us hus
          rw [hmissing, Option.bind_none, hrest us hus]
          cases us with
          | nil => exact absurd List.nil_prefix hus.2
          | cons u us => exact (navigate_cons_empty u us).symm

theorem setNode_throws {ss : List String} {j : Json R} {e : Exc}
    (h : (setNode lib v ss j).1 = some e) : ∃ w, e = .typeError (lib.typeErrorText 305 w) := by
  induction ss generalizing j with
  | nil => cases h
  | cons s ss ih =>
    rcases Json.createMember_cases lib j s with ⟨w, hcreate⟩ | ⟨child, hchild, hcreate⟩ |
      ⟨j', -, hcreate, hmembers⟩
    · rw [setNode, hcreate] at h
      cases h
      exact ⟨w, rfl⟩
    · rw [setNode_cons hcreate hchild] at h
      exact ih h
    · rw [setNode_cons hcreate (by rw [hmembers, if_pos rfl])] at h
      exact ih h

end InPlace

variable {lib : Nlohmann R} {v : Json R} {ss : List String} {j j' : Json R}

theorem assign_ok (h : assign lib v ss j = .ok j') : navigate ss j' = some v ∧
    ∀ ts, Apart ss ts → navigate ts j' = navigate ts j := by
  unfold assign at h
  rcases InPlace.setNode_cases ss j with ⟨e, hset⟩ | ⟨j1, hset, hread, hrest⟩
  · rw [hset] at h
    cases h
  · rw [hset] at h
    cases h
    exact ⟨hread, hrest⟩

theorem assign_throws {e : Exc} (h : assign lib v ss j = .error e) :
    ∃ w, e = .typeError (lib.typeErrorText 305 w) := by
  unfold assign at h
  split at h
  · rename_i hset
    cases h
    exact InPlace.setNode_throws (congrArg Prod.fst hset)
  · cases h

theorem isObject_of_navigate {s : String} (h : navigate (s :: ss) j = some v) : j.isObject := by
  cases j with
  | object fields => rfl
  | null | boolean | integer | number | string | array => cases h

example : segments "api2a.ai_mode" = ["api2a", "ai_mode"] := by decide

end ConfigManager

end EcidsCore
