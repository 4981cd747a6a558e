import Mathlib.Data.Nat.Notation
import Mathlib.Data.List.Basic
import Mathlib.Data.List.GetD
import Mathlib.Algebra.Order.Floor.Div

set_option autoImplicit false

/-! The base64 of RFC 4648: groups of three bytes written as four characters, and the
strict decoder, which takes padding only at the end and only over zero bits. -/
namespace Base64Codec

def alphabet : List Char :=
  "ABCDEFGHIJKLMNOPQRSTUVWXYZabcdefghijklmnopqrstuvwxyz0123456789+/".toList

def symbol (n : ℕ) : Char := alphabet.getD n '='

def encode : List UInt8 → List Char
  | [] => []
  | [a] => [symbol (a.toNat / 4), symbol (a.toNat % 4 * 16), '=', '=']
  | [a, b] =>
    [symbol (a.toNat / 4), symbol (a.toNat % 4 * 16 + b.toNat / 16), symbol (b.toNat % 16 * 4), '=']
  | a :: b :: c :: data =>
    symbol (a.toNat / 4) :: symbol (a.toNat % 4 * 16 + b.toNat / 16) ::
      symbol (b.toNat % 16 * 4 + c.toNat / 64) :: symbol (c.toNat % 64) :: encode data

def value? (ch : Char) : Option ℕ :=
  if 'A' ≤ ch ∧ ch ≤ 'Z' then some (ch.toNat - 'A'.toNat)
  else if 'a' ≤ ch ∧ ch ≤ 'z' then some (ch.toNat - 'a'.toNat + 26)
  else if '0' ≤ ch ∧ ch ≤ '9' then some (ch.toNat - '0'.toNat + 52)
  else if ch = '+' then some 62
  else if ch = '/' then some 63
  else none

/-- Four characters at a time. A group with padding must be the last one, and the bits
that its padding stands for must be zero. -/
def decode : List Char → Option (List UInt8)
  | [] => some []
  | p :: q :: r :: s :: text =>
    match value? p, value? q, value? r, value? s with
    | some p, some q, some r, some s =>
      (decode text).map ([UInt8.ofNat (p * 4 + q / 16), UInt8.ofNat (q % 16 * 16 + r / 4),
        UInt8.ofNat (r % 4 * 64 + s)] ++ ·)
    | some p, some q, some r, none =>
      if s = '=' ∧ text = [] ∧ r % 4 = 0 then
        some [UInt8.ofNat (p * 4 + q / 16), UInt8.ofNat (q % 16 * 16 + r / 4)]
      else none
    | some p, some q, none, none =>
      if r = '=' ∧ s = '=' ∧ text = [] ∧ q % 16 = 0 then some [UInt8.ofNat (p * 4 + q / 16)]
      else none
    | _, _, _, _ => none
  | _ => none

theorem symbol_mem {n : ℕ} (h : n < 64) : symbol n ∈ alphabet := by
  rw [symbol, List.getD_eq_getElem alphabet '=' (show n < alphabet.length from h)]
  exact List.getElem_mem _

theorem pad_not_mem : '=' ∉ alphabet := by decide

@[simp] theorem value?_pad : value? '=' = none := by decide

theorem value?_symbol {n : ℕ} (h : n < 64) : value? (symbol n) = some n := by
  have table : ∀ i : Fin 64, value? (symbol i) = some i.val := by decide +kernel
  exact table ⟨n, h⟩

theorem ofNat_eq_of_toNat {a : UInt8} {n : ℕ} (h : n = a.toNat) : UInt8.ofNat n = a := by
  rw [h, UInt8.ofNat_toNat]

theorem decode_encode (data : List UInt8) : decode (encode data) = some data := by
  induction data using encode.induct with
  | case1 => rfl
  | case2 a =>
    have ha := a.toNat_lt
    rw [encode, decode, value?_symbol (by omega), value?_symbol (by omega), value?_pad]
    simp only [true_and]
    rw [if_pos (by omega), ofNat_eq_of_toNat (a := a) (by omega)]
  | case3 a b =>
    have ha := a.toNat_lt
    have hb := b.toNat_lt
    rw [encode, decode, value?_symbol (by omega), value?_symbol (by omega),
      value?_symbol (by omega), value?_pad]
    simp only [true_and]
    rw [if_pos (by omega), ofNat_eq_of_toNat (a := a) (by omega),
      ofNat_eq_of_toNat (a := b) (by omega)]
  | case4 a b c data ih =>
    have ha := a.toNat_lt
    have hb := b.toNat_lt
    have hc := c.toNat_lt
    rw [encode, decode, value?_symbol (by omega), value?_symbol (by omega),
      value?_symbol (by omega), value?_symbol (by omega)]
    simp only [ih, Option.map_some]
    rw [ofNat_eq_of_toNat (a := a) (by omega), ofNat_eq_of_toNat (a := b) (by omega),
      ofNat_eq_of_toNat (a := c) (by omega)]
    rfl

theorem length_encode (data : List UInt8) : (encode data).length = 4 * (data.length ⌈/⌉ 3) := by
  rw [Nat.ceilDiv_eq_add_pred_div]
  induction data using encode.induct with
  | case1 => rfl
  | case2 a => simp only [encode, List.length_cons, List.length_nil]
  | case3 a b => simp only [encode, List.length_cons, List.length_nil]
  | case4 a b c data ih =>
    simp only [encode, List.length_cons, ih]
    omega

theorem encode_eq_body_pad (data : List UInt8) :
    ∃ body, encode data = body ++ List.replicate ((3 - data.length % 3) % 3) '=' ∧
      ∀ ch ∈ body, ch ∈ alphabet := by
  induction data using encode.induct with
  | case1 => exact ⟨[], rfl, by simp⟩
  | case2 a =>
    have ha := a.toNat_lt
    refine ⟨[symbol (a.toNat / 4), symbol (a.toNat % 4 * 16)], rfl, ?_⟩
    simp only [List.forall_mem_cons, List.not_mem_nil, false_imp_iff, implies_true, and_true]
    exact ⟨symbol_mem (by omega), symbol_mem (by omega)⟩
  | case3 a b =>
    have ha := a.toNat_lt
    have hb := b.toNat_lt
    refine ⟨[symbol (a.toNat / 4), symbol (a.toNat % 4 * 16 + b.toNat / 16),
      symbol (b.toNat % 16 * 4)], rfl, ?_⟩
    simp only [List.forall_mem_cons, List.not_mem_nil, false_imp_iff, implies_true, and_true]
    exact ⟨symbol_mem (by omega), symbol_mem (by omega), symbol_mem (by omega)⟩
  | case4 a b c data ih =>
    have ha := a.toNat_lt
    have hb := b.toNat_lt
    have hc := c.toNat_lt
    obtain ⟨body, hbody, hmem⟩ := ih
    refine ⟨symbol (a.toNat / 4) :: symbol (a.toNat % 4 * 16 + b.toNat / 16) ::
      symbol (b.toNat % 16 * 4 + c.toNat / 64) :: symbol (c.toNat % 64) :: body, ?_, ?_⟩
    · have hlen : (a :: b :: c :: data).length % 3 = data.length % 3 := by
        simp only [List.length_cons]
        omega
      rw [encode, hbody, hlen]
      rfl
    · simp only [List.forall_mem_cons]
      exact ⟨symbol_mem (by omega), symbol_mem (by omega), symbol_mem (by omega),
        symbol_mem (by omega), hmem⟩

end Base64Codec
