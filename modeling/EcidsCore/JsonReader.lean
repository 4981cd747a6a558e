import EcidsCore.JsonText
import EcidsCore.StringLiteral
import Mathlib.Data.List.Induction

set_option autoImplicit false

/-! The texts that are JSON, and the values they stand for. What number a word stands
for is a parameter. -/
namespace EcidsCore
open ByteText StringLiteral

namespace JsonReader
variable {R : Type}

def insertField (key : String) (value : Json R) : List (String × Json R) → List (String × Json R)
  | [] => [(key, value)]
  | f :: rest =>
    if key = f.1 then (key, value) :: rest
    else if bytes key < bytes f.1 then (key, value) :: f :: rest
    else f :: insertField key value rest

/-- The last of the members with one name is kept, in the order of the names. -/
def settled (members : List (String × Json R)) : List (String × Json R) :=
  members.foldl (fun fields m => insertField m.1 m.2 fields) []

theorem mem_insertField {key : String} {value : Json R} {fields : List (String × Json R)}
    {f : String × Json R} (h : f ∈ insertField key value fields) : f = (key, value) ∨ f ∈ fields := by
  induction fields with
  | nil => exact .inl (List.mem_singleton.1 h)
  | cons g rest ih =>
    simp only [insertField] at h
    split at h
    · exact (List.mem_cons.1 h).imp_right (List.mem_cons_of_mem g)
    · split at h
      · exact List.mem_cons.1 h
      · rcases List.mem_cons.1 h with rfl | h
        · exact .inr List.mem_cons_self
        · exact (ih h).imp_right (List.mem_cons_of_mem g)

theorem mem_settled {members : List (String × Json R)} {f : String × Json R}
    (h : f ∈ settled members) : f ∈ members := by
  induction members using List.reverseRecOn with
  | nil => cases h
  | append_singleton members m ih =>
    rw [settled, List.foldl_append] at h
    rcases mem_insertField h with rfl | h
    · exact List.mem_append_right _ List.mem_cons_self
    · exact List.mem_append_left _ (ih h)

def isBlank (b : UInt8) : Bool := b ∈ ([0x20, 0x09, 0x0A, 0x0D] : Bytes)

def skip (t : Bytes) : Bytes := t.dropWhile isBlank

def isWord (b : UInt8) : Bool :=
  (0x30 ≤ b ∧ b ≤ 0x39) ∨ (0x41 ≤ b ∧ b ≤ 0x5A) ∨ (0x61 ≤ b ∧ b ≤ 0x7A) ∨
    b ∈ ([0x2B, 0x2D, 0x2E] : Bytes)

def valueSeparator : UInt8 := 0x2C
def nameSeparator : UInt8 := 0x3A
def openBracket : UInt8 := 0x5B
def closeBracket : UInt8 := 0x5D
def openBrace : UInt8 := 0x7B
def closeBrace : UInt8 := 0x7D

def readString (t : Bytes) : Option (String × Bytes) := do
  let p ← scan t.length t
  let s ← text? p.1
  return (s, p.2)

def readName (t : Bytes) : Option (String × Bytes) :=
  if (skip t).head? = some quote then do
    let name ← readString (skip t).tail
    if (skip name.2).head? = some nameSeparator then return (name.1, (skip name.2).tail)
    else none
  else none

def followed {α : Type} (close : UInt8) (x : α) (t : Bytes)
    (more : Bytes → Option (List α × Bytes)) : Option (List α × Bytes) :=
  if (skip t).head? = some valueSeparator then (more (skip t).tail).map fun p => (x :: p.1, p.2)
  else if (skip t).head? = some close then some ([x], (skip t).tail)
  else none

section Reader
variable (numeral : Bytes → Option (ℤ ⊕ R))

def readWord (w : Bytes) : Option (Json R) :=
  if w = [] then none
  else if w = bytes "null" then some .null
  else if w = bytes "true" then some (.boolean true)
  else if w = bytes "false" then some (.boolean false)
  else (numeral w).map (Sum.elim .integer .number)

theorem readWord_ne_string (w : Bytes) (s : String) : readWord numeral w ≠ some (.string s) := by
  intro h
  unfold readWord at h
  split_ifs at h
  · cases h
  · cases h
  · cases h
  · obtain ⟨x, -, hx⟩ := Option.map_eq_some_iff.1 h
    cases x <;> cases hx

mutual

/-- The value at the head of a text and what follows it, with at most `n` calls one
within another. -/
def readValue : ℕ → Bytes → Option (Json R × Bytes)
  | 0, _ => none
  | n + 1, t =>
    if (skip t).head? = some quote then
      (readString (skip t).tail).map fun p => (.string p.1, p.2)
    else if (skip t).head? = some openBracket then
      if (skip (skip t).tail).head? = some closeBracket then
        some (.array [], (skip (skip t).tail).tail)
      else (readItems n (skip t).tail).map fun p => (.array p.1, p.2)
    else if (skip t).head? = some openBrace then
      if (skip (skip t).tail).head? = some closeBrace then
        some (.object [], (skip (skip t).tail).tail)
      else (readMembers n (skip t).tail).map fun p => (.object (settled p.1), p.2)
    else
      (readWord numeral ((skip t).takeWhile isWord)).map fun j => (j, (skip t).dropWhile isWord)

def readItems : ℕ → Bytes → Option (List (Json R) × Bytes)
  | 0, _ => none
  | n + 1, t =>
    (readValue n t).bind fun v => followed closeBracket v.1 v.2 (readItems n)

def readMembers : ℕ → Bytes → Option (List (String × Json R) × Bytes)
  | 0, _ => none
  | n + 1, t =>
    (readName t).bind fun name => (readValue n name.2).bind fun v =>
      followed closeBrace (name.1, v.1) v.2 (readMembers n)

end

/-- A whole text. A zero byte behind the value ends it, as its end does. -/
def readJson (t : Bytes) : Option (Json R) :=
  (readValue numeral (2 * t.length + 1) t).bind fun v =>
    if (skip v.2).headD 0 = 0 then some v.1 else none

example : (readJson fun _ => none) (bytes "[\x7b\"b\":[ ],\"a\":null,\"b\":\"\\u00e9\"\x7d]\x00,") =
    some (.array [.object [("a", .null), ("b", (.string "é" : Json ℤ))]]) := by rfl

theorem behind_length {t : Bytes} {c : UInt8} (h : (skip t).head? = some c) :
    (skip t).tail.length < t.length := by
  have hskip : (skip t).length ≤ t.length := (List.dropWhile_sublist isBlank).length_le
  have hcons := congrArg List.length (List.cons_head?_tail h)
  rw [List.length_cons] at hcons
  omega

theorem readString_scan {t : Bytes} {p : String × Bytes} (h : readString t = some p) :
    scan t.length t = some (bytes p.1, p.2) := by
  simp only [readString, Option.bind_eq_bind, Option.bind_eq_some_iff, Option.pure_def,
    Option.some.injEq] at h
  obtain ⟨q, hq, s, hs, rfl⟩ := h
  rw [hq, bytes_text? hs]

theorem readString_cases {t : Bytes} {p : String × Bytes} (h : readString t = some p) :
    (t = bytes p.1 ++ quote :: p.2 ∧ ∀ b ∈ bytes p.1, Plain b) ∨
      (bytes p.1).length + 1 + p.2.length < t.length := scan_cases (readString_scan h)

theorem readString_length {t : Bytes} {p : String × Bytes} (h : readString t = some p) :
    (bytes p.1).length + 1 + p.2.length ≤ t.length := scan_length (readString_scan h)

theorem readName_length {t : Bytes} {name : String × Bytes} (h : readName t = some name) :
    (bytes name.1).length + 3 + name.2.length ≤ t.length := by
  unfold readName at h
  split at h
  · rename_i hquote
    simp only [Option.bind_eq_bind, Option.bind_eq_some_iff] at h
    obtain ⟨p, hp, h⟩ := h
    split at h
    · rename_i hseparator
      cases h
      have hopen := behind_length hquote
      have hread := readString_length hp
      have hbehind := behind_length hseparator
      dsimp only
      omega
    · cases h
  · cases h

theorem followed_cases {α : Type} {close : UInt8} {x : α} {t : Bytes}
    {more : Bytes → Option (List α × Bytes)} {p : List α × Bytes}
    (h : followed close x t more = some p) :
    (∃ q, more (skip t).tail = some q ∧ p = (x :: q.1, q.2) ∧ (skip t).tail.length < t.length) ∨
      p.1 = [x] ∧ p.2.length < t.length := by
  unfold followed at h
  split at h
  · rename_i hseparator
    obtain ⟨q, hq, rfl⟩ := Option.map_eq_some_iff.1 h
    exact .inl ⟨q, hq, rfl, behind_length hseparator⟩
  · split at h
    · rename_i hclose
      cases h
      exact .inr ⟨rfl, behind_length hclose⟩
    · cases h

theorem followed_length {α : Type} {close : UInt8} {x : α} {t : Bytes}
    {more : Bytes → Option (List α × Bytes)} {p : List α × Bytes}
    (hmore : ∀ t q, more t = some q → q.2.length < t.length)
    (h : followed close x t more = some p) : p.2.length < t.length := by
  rcases followed_cases h with ⟨q, hq, rfl, hlt⟩ | ⟨-, hlt⟩
  · exact Nat.lt_trans (hmore _ q hq) hlt
  · exact hlt

section Values
variable {numeral}

theorem readWord_length {t : Bytes} {j : Json R} (h : readWord numeral (t.takeWhile isWord) = some j) :
    (t.dropWhile isWord).length < t.length := by
  have hne : t.takeWhile isWord ≠ [] := by
    intro hnil
    rw [readWord, if_pos hnil] at h
    cases h
  have hall := congrArg List.length (List.takeWhile_append_dropWhile (p := isWord) (l := t))
  rw [List.length_append] at hall
  have hpos := List.length_pos_iff.2 hne
  omega

/-- Every value, and every rest of an array or an object, takes a byte at least. -/
theorem read_length (n : ℕ) :
    (∀ t v, readValue numeral n t = some v → v.2.length < t.length) ∧
      (∀ t p, readItems numeral n t = some p → p.2.length < t.length) ∧
      ∀ t p, readMembers numeral n t = some p → p.2.length < t.length := by
  induction n with
  | zero => refine ⟨?_, ?_, ?_⟩ <;> intro t p h <;> cases h
  | succ n ih =>
    obtain ⟨ihvalue, ihitems, ihmembers⟩ := ih
    refine ⟨fun t v h => ?_, fun t p h => ?_, fun t p h => ?_⟩
    · simp only [readValue] at h
      split at h
      case isTrue hquote =>
        obtain ⟨p, hp, rfl⟩ := Option.map_eq_some_iff.1 h
        have hread := readString_length hp
        have hopen := behind_length hquote
        dsimp only
        omega
      split at h
      case isTrue hopen =>
        have hlt := behind_length hopen
        split at h
        case isTrue hclose =>
          cases h
          exact Nat.lt_trans (behind_length hclose) hlt
        obtain ⟨p, hp, rfl⟩ := Option.map_eq_some_iff.1 h
        exact Nat.lt_trans (ihitems _ p hp) hlt
      split at h
      case isTrue hopen =>
        have hlt := behind_length hopen
        split at h
        case isTrue hclose =>
          cases h
          exact Nat.lt_trans (behind_length hclose) hlt
        obtain ⟨p, hp, rfl⟩ := Option.map_eq_some_iff.1 h
        exact Nat.lt_trans (ihmembers _ p hp) hlt
      obtain ⟨j, hj, rfl⟩ := Option.map_eq_some_iff.1 h
      exact Nat.lt_of_lt_of_le (readWord_length hj) (List.dropWhile_sublist isBlank).length_le
    · obtain ⟨v, hv, h⟩ := Option.bind_eq_some_iff.1 h
      exact Nat.lt_trans (followed_length ihitems h) (ihvalue t v hv)
    · obtain ⟨name, hname, h⟩ := Option.bind_eq_some_iff.1 h
      obtain ⟨v, hv, h⟩ := Option.bind_eq_some_iff.1 h
      have hread := readName_length hname
      have hvalue := ihvalue _ v hv
      have hrest := followed_length ihmembers h
      omega

theorem followed_congr {α : Type} {close : UInt8} {x : α} {t : Bytes}
    {more more' : Bytes → Option (List α × Bytes)}
    (h : (skip t).tail.length < t.length → more (skip t).tail = more' (skip t).tail) :
    followed close x t more = followed close x t more' := by
  unfold followed
  split
  · rename_i hseparator
    rw [h (behind_length hseparator)]
  · rfl

theorem read_more (n : ℕ) :
    (∀ t : Bytes, 2 * t.length < n → readValue numeral (n + 1) t = readValue numeral n t) ∧
      (∀ t : Bytes, 2 * t.length + 1 < n → readItems numeral (n + 1) t = readItems numeral n t) ∧
      ∀ t : Bytes, 2 * t.length < n → readMembers numeral (n + 1) t = readMembers numeral n t := by
  induction n with
  | zero => refine ⟨?_, ?_, ?_⟩ <;> intro t h <;> exact absurd h (Nat.not_lt_zero _)
  | succ n ih =>
    obtain ⟨ihvalue, ihitems, ihmembers⟩ := ih
    refine ⟨fun t h => ?_, fun t h => ?_, fun t h => ?_⟩
    · rw [readValue, readValue]
      split
      · rfl
      split
      case isTrue hopen =>
        have hlt := behind_length hopen
        rw [ihitems _ (by omega)]
      split
      case isTrue hopen =>
        have hlt := behind_length hopen
        rw [ihmembers _ (by omega)]
      rfl
    · rw [readItems, readItems, ihvalue t (by omega)]
      refine Option.bind_congr fun v hv => followed_congr fun hlt => ihitems _ ?_
      have hvalue := (read_length n).1 t v hv
      omega
    · rw [readMembers, readMembers]
      refine Option.bind_congr fun name hname => ?_
      have hread := readName_length hname
      rw [ihvalue name.2 (by omega)]
      refine Option.bind_congr fun v hv => followed_congr fun hlt => ihmembers _ ?_
      have hvalue := (read_length n).1 _ v hv
      omega

/-- The bound on the calls refuses no text. -/
theorem readValue_enough {n : ℕ} {t : Bytes} (h : 2 * t.length < n) :
    readValue numeral n t = readValue numeral (2 * t.length + 1) t := by
  induction n, h using Nat.le_induction with
  | base => rfl
  | succ n h ih => rw [(read_more n).1 t h, ih]

theorem readJson_eq {n : ℕ} {t : Bytes} (h : 2 * t.length < n) :
    readJson numeral t = (readValue numeral n t).bind fun v =>
      if (skip v.2).headD 0 = 0 then some v.1 else none := by
  rw [readJson, readValue_enough h]

theorem readValue_string {n : ℕ} {t rest : Bytes} {s : String}
    (h : readValue numeral n t = some (.string s, rest)) :
    (∀ b ∈ bytes s, Plain b) ∨ (bytes s).length + 2 + rest.length < t.length := by
  cases n with
  | zero => cases h
  | succ n =>
    simp only [readValue] at h
    split at h
    case isTrue hquote =>
      obtain ⟨p, hp, he⟩ := Option.map_eq_some_iff.1 h
      cases he
      have hopen := behind_length hquote
      refine (readString_cases hp).imp And.right fun hlt => ?_
      omega
    split at h
    case isTrue =>
      split at h
      · cases h
      · obtain ⟨p, -, he⟩ := Option.map_eq_some_iff.1 h
        cases he
    split at h
    case isTrue =>
      split at h
      · cases h
      · obtain ⟨p, -, he⟩ := Option.map_eq_some_iff.1 h
        cases he
    obtain ⟨j, hj, he⟩ := Option.map_eq_some_iff.1 h
    cases he
    exact absurd hj (readWord_ne_string numeral _ s)

/-- A string member is shorter than the text behind the opening brace, and shorter by
what its own marks take only if it is written byte for byte and stands alone. -/
theorem member_plain {n : ℕ} {t : Bytes} {p : List (String × Json R) × Bytes} {key s : String}
    (h : readMembers numeral n t = some p) (hmem : (key, Json.string s) ∈ p.1) :
    (∀ b ∈ bytes s, Plain b) ∨ (bytes key).length + (bytes s).length + 6 + p.2.length < t.length := by
  induction n generalizing t p with
  | zero => cases h
  | succ n ih =>
    obtain ⟨name, hname, h⟩ := Option.bind_eq_some_iff.1 h
    obtain ⟨⟨j, rest⟩, hv, h⟩ := Option.bind_eq_some_iff.1 h
    have hread := readName_length hname
    have hfirst : p.2.length < rest.length := followed_length (read_length n).2.2 h
    have hvalue := (read_length n).1 _ _ hv
    have hhead (he : (key, Json.string s) = (name.1, j)) : (∀ b ∈ bytes s, Plain b) ∨
        (bytes key).length + (bytes s).length + 6 + p.2.length < t.length := by
      cases he
      refine (readValue_string hv).imp_right fun hlt => ?_
      omega
    rcases followed_cases h with ⟨q, hq, rfl, hlt⟩ | ⟨hone, -⟩
    · rcases List.mem_cons.1 hmem with he | hmem
      · exact hhead he
      · refine (ih hq hmem).imp_right fun hshort => ?_
        dsimp only at hlt hvalue hshort ⊢
        omega
    · rw [hone] at hmem
      exact hhead (List.mem_singleton.1 hmem)

end Values

end Reader

def memberText (key s : String) : Bytes :=
  openBrace :: quote :: (bytes key ++ quote :: nameSeparator :: quote ::
    (bytes s ++ [quote, closeBrace]))

theorem memberText_length (key s : String) :
    (memberText key s).tail.length = (bytes key).length + (bytes s).length + 6 := by
  simp only [memberText, List.tail_cons, List.length_cons, List.length_append, List.length_nil]
  omega

theorem skip_cons {b : UInt8} (h : isBlank b = false) (t : Bytes) : skip (b :: t) = b :: t :=
  List.dropWhile_cons_of_neg (by simp [h])

theorem skip_mark {b : UInt8}
    (h : b ∈ [quote, valueSeparator, nameSeparator, openBrace, closeBrace]) (t : Bytes) :
    skip (b :: t) = b :: t := by
  apply skip_cons
  simp only [List.mem_cons, List.not_mem_nil, or_false] at h
  rcases h with rfl | rfl | rfl | rfl | rfl <;> rfl

theorem readString_plain {s : String} (h : ∀ b ∈ bytes s, Plain b) (rest : Bytes) :
    readString (bytes s ++ quote :: rest) = some (s, rest) := by
  have hscan := scan_plain h (n := (bytes s ++ quote :: rest).length) (by simp) rest
  simp only [readString, hscan, Option.bind_eq_bind, Option.bind_some, text?_bytes]
  rfl

theorem readName_plain {key : String} (h : ∀ b ∈ bytes key, Plain b) (rest : Bytes) :
    readName (quote :: (bytes key ++ quote :: nameSeparator :: rest)) = some (key, rest) := by
  have hquote := skip_mark (b := quote) (by decide) (bytes key ++ quote :: nameSeparator :: rest)
  have hseparator := skip_mark (b := nameSeparator) (by decide) rest
  simp only [readName, hquote, List.head?_cons, List.tail_cons, if_true, readString_plain h,
    Option.bind_eq_bind, Option.bind_some, hseparator, Option.pure_def]

theorem readValue_plain (numeral : Bytes → Option (ℤ ⊕ R)) {s : String}
    (h : ∀ b ∈ bytes s, Plain b) (n : ℕ) (rest : Bytes) :
    readValue numeral (n + 1) (quote :: (bytes s ++ quote :: rest)) = some (.string s, rest) := by
  have hquote := skip_mark (b := quote) (by decide) (bytes s ++ quote :: rest)
  simp only [readValue, hquote, List.head?_cons, List.tail_cons, if_true, readString_plain h,
    Option.map_some]

theorem readJson_memberText (numeral : Bytes → Option (ℤ ⊕ R)) {key : String}
    (hkey : ∀ b ∈ bytes key, Plain b) (s : String) :
    readJson numeral (memberText key s) = some (.object [(key, .string s)]) ↔
      ∀ b ∈ bytes s, Plain b := by
  have hopen : skip (memberText key s) = memberText key s := skip_mark (by decide) _
  have hname : skip (memberText key s).tail = (memberText key s).tail := skip_mark (by decide) _
  have hvalue (n : ℕ) : readValue numeral (n + 1) (memberText key s) =
      (readMembers numeral n (memberText key s).tail).map
        fun p => (.object (settled p.1), p.2) := by
    rw [readValue, hopen, hname]
    rfl
  rw [readJson_eq (n := 2 * (memberText key s).length + 2 + 1) (by omega), hvalue]
  constructor
  · intro h
    obtain ⟨v, hv, h⟩ := Option.bind_eq_some_iff.1 h
    obtain ⟨p, hp, rfl⟩ := Option.map_eq_some_iff.1 hv
    split at h
    · have hsettled : settled p.1 = [(key, Json.string s)] := by simpa using h
      have hmem : (key, Json.string s) ∈ p.1 := mem_settled (hsettled ▸ List.mem_singleton_self _)
      rcases member_plain hp hmem with hplain | hlt
      · exact hplain
      · rw [memberText_length] at hlt
        omega
    · cases h
  · intro hs
    have hclose := skip_mark (b := closeBrace) (by decide) []
    have hmembers (n : ℕ) : readMembers numeral (n + 2) (memberText key s).tail =
        some ([(key, .string s)], []) := by
      simp only [memberText, List.tail_cons, readMembers, readName_plain hkey, Option.bind_some,
        readValue_plain numeral hs, followed, hclose]
      rfl
    rw [hmembers]
    rfl

end JsonReader
end EcidsCore
