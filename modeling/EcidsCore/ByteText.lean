import Mathlib.Data.List.Basic
import Mathlib.Data.Int.Notation
import Mathlib.Data.Nat.Notation

set_option autoImplicit false

/-! Byte strings next to Lean strings. A `String` is valid UTF-8 by its type; a
byte string may be anything, and `text?` says when it is the encoding of one. -/

abbrev Bytes := List UInt8

namespace ByteText

def bytes (s : String) : Bytes := s.toByteArray.data.toList

def ValidUtf8 (b : Bytes) : Prop := ByteArray.IsValidUTF8 ⟨⟨b⟩⟩

instance (b : Bytes) : Decidable (ValidUtf8 b) :=
  inferInstanceAs (Decidable (ByteArray.IsValidUTF8 ⟨⟨b⟩⟩))

def text? (b : Bytes) : Option String :=
  if h : ValidUtf8 b then some (String.ofByteArray ⟨⟨b⟩⟩ h) else none

@[simp] theorem bytes_append (s t : String) : bytes (s ++ t) = bytes s ++ bytes t := by
  rw [bytes, String.toByteArray_append, ByteArray.data_append, Array.toList_append]
  rfl

theorem bytes_injective : Function.Injective bytes := by
  intro s t h
  apply String.toByteArray_inj.1
  exact ByteArray.ext (Array.toList_inj.1 h)

theorem bytes_ofList_ascii {l : List Char} (h : ∀ c ∈ l, c.val.toNat ≤ 127) :
    bytes (String.ofList l) = l.map fun c => UInt8.ofNat c.val.toNat := by
  rw [bytes, String.toByteArray_ofList, List.utf8Encode, List.data_toByteArray, List.toList_toArray]
  induction l with
  | nil => rfl
  | cons c cs ih =>
    have hc : c.val.toNat ≤ 127 := h c List.mem_cons_self
    have hs : ∀ d ∈ cs, d.val.toNat ≤ 127 := fun d hd => h d (List.mem_cons_of_mem c hd)
    rw [List.flatMap_cons, List.map_cons, ih hs, String.utf8EncodeChar, if_pos hc]
    rfl

@[simp] theorem validUtf8_bytes (s : String) : ValidUtf8 (bytes s) := s.isValidUTF8

theorem ValidUtf8.append {a b : Bytes} (ha : ValidUtf8 a) (hb : ValidUtf8 b) :
    ValidUtf8 (a ++ b) := by
  have h := ByteArray.IsValidUTF8.append ha hb
  rwa [show (⟨⟨a⟩⟩ ++ ⟨⟨b⟩⟩ : ByteArray) = ⟨⟨a ++ b⟩⟩ from
    ByteArray.ext (by rw [ByteArray.data_append]; simp)] at h

theorem text?_of_valid {b : Bytes} (h : ValidUtf8 b) :
    text? b = some (String.ofByteArray ⟨⟨b⟩⟩ h) := dif_pos h

theorem bytes_text? {b : Bytes} {s : String} (h : text? b = some s) : bytes s = b := by
  unfold text? at h
  split at h
  · cases h
    rfl
  · cases h

theorem text?_bytes (s : String) : text? (bytes s) = some s := by
  rw [text?_of_valid (validUtf8_bytes s)]
  rfl

theorem text?_eq_none {b : Bytes} : text? b = none ↔ ¬ ValidUtf8 b := by
  unfold text?
  split <;> simp_all

theorem text?_isSome {b : Bytes} : (text? b).isSome ↔ ValidUtf8 b := by
  unfold text?
  split <;> simp_all

theorem validUtf8_iff {b : Bytes} :
    ValidUtf8 b ↔ ∃ l : List Char, l.flatMap String.utf8EncodeChar = b := by
  constructor
  · rintro ⟨l, hl⟩
    refine ⟨l, ?_⟩
    have h := congrArg (fun x => x.data.toList) hl
    simpa [List.utf8Encode] using h.symm
  · rintro ⟨l, rfl⟩
    exact ⟨l, ByteArray.ext (by simp [List.utf8Encode])⟩

@[simp] theorem validUtf8_nil : ValidUtf8 [] := validUtf8_iff.2 ⟨[], rfl⟩

theorem validUtf8_char_append {c : Char} {b : Bytes} :
    ValidUtf8 (String.utf8EncodeChar c ++ b) ↔ ValidUtf8 b := by
  have h := ByteArray.isValidUTF8_utf8Encode_singleton_append_iff (b := ⟨⟨b⟩⟩) (c := c)
  rwa [show [c].utf8Encode ++ ⟨⟨b⟩⟩ = (⟨⟨String.utf8EncodeChar c ++ b⟩⟩ : ByteArray) from
    ByteArray.ext (by simp [List.utf8Encode_singleton])] at h

theorem ValidUtf8.append_iff {a b : Bytes} (ha : ValidUtf8 a) :
    ValidUtf8 (a ++ b) ↔ ValidUtf8 b := by
  obtain ⟨l, rfl⟩ := validUtf8_iff.1 ha
  clear ha
  induction l with
  | nil => rfl
  | cons c l ih => rw [List.flatMap_cons, List.append_assoc, validUtf8_char_append, ih]

/-- A byte that encodes a character of its own. -/
def OwnChar (sep : UInt8) : Prop := ∃ c : Char, String.utf8EncodeChar c = [sep]

/-- Such a byte never lies within the encoding of another character. -/
theorem OwnChar.parts {sep : UInt8} (hsep : OwnChar sep) {a b : Bytes} :
    ValidUtf8 (a ++ sep :: b) ↔ ValidUtf8 a ∧ ValidUtf8 b := by
  obtain ⟨s, hs⟩ := hsep
  have hone : ∀ t, ValidUtf8 (sep :: t) ↔ ValidUtf8 t := fun t => by
    rw [← List.singleton_append, ← hs, validUtf8_char_append]
  have hfirst : sep.IsUTF8FirstByte := by
    have h0 := UInt8.isUTF8FirstByte_getElem_zero_utf8EncodeChar (c := s)
    simpa only [hs, List.getElem_cons_zero] using h0
  constructor
  · intro h
    obtain ⟨l, hl⟩ := validUtf8_iff.1 h
    -- induction on the characters of the whole text
    induction l generalizing a with
    | nil => simp at hl
    | cons c cs ih =>
      rw [List.flatMap_cons] at hl
      rcases List.append_eq_append_iff.1 hl with ⟨t, rfl, ht⟩ | ⟨t, hc, ht⟩
      · obtain ⟨h1, h2⟩ := ih (validUtf8_iff.2 ⟨cs, ht⟩) ht
        exact ⟨validUtf8_char_append.2 h1, h2⟩
      · cases t with
        | nil =>
          rw [List.append_nil] at hc
          obtain ⟨-, h2⟩ := ih (a := []) (validUtf8_iff.2 ⟨cs, ht.symm⟩) ht.symm
          refine ⟨?_, h2⟩
          rw [← hc, ← List.append_nil (String.utf8EncodeChar c)]
          exact validUtf8_char_append.2 validUtf8_nil
        | cons x t =>
          obtain ⟨rfl, -⟩ := List.cons.inj ht
          have hlt : a.length < (String.utf8EncodeChar c).length := by
            rw [hc, List.length_append, List.length_cons]
            omega
          have hget : (String.utf8EncodeChar c)[a.length] = sep := by
            simp only [hc, List.getElem_append_right (Nat.le_refl a.length), Nat.sub_self,
              List.getElem_cons_zero]
          have hzero : a.length = 0 :=
            UInt8.isUTF8FirstByte_getElem_utf8EncodeChar.1 (by rw [hget]; exact hfirst)
          rw [List.length_eq_zero_iff.1 hzero] at h ⊢
          exact ⟨validUtf8_nil, (hone b).1 h⟩
  · rintro ⟨ha, hb⟩
    exact ha.append ((hone b).2 hb)

theorem OwnChar.intercalate {sep : UInt8} (hsep : OwnChar sep) {parts : List Bytes} :
    ValidUtf8 ([sep].intercalate parts) ↔ ∀ t ∈ parts, ValidUtf8 t := by
  induction parts with
  | nil => exact iff_of_true validUtf8_nil (List.forall_mem_nil _)
  | cons t parts ih =>
    cases parts with
    | nil => simp
    | cons u parts =>
      rw [List.intercalate_cons_cons, List.append_assoc, List.singleton_append, hsep.parts, ih,
        List.forall_mem_cons (l := u :: parts)]

theorem OwnChar.splitOn {sep : UInt8} (hsep : OwnChar sep) {b : Bytes} :
    ValidUtf8 b ↔ ∀ t ∈ b.splitOn sep, ValidUtf8 t := by
  rw [← hsep.intercalate, List.intercalate_splitOn]

end ByteText
