import Mathlib.Data.List.Basic
import Mathlib.Data.Nat.Notation
import Mathlib.Order.Defs.LinearOrder
import Mathlib.Tactic.Ring

set_option autoImplicit false

/-! The lexicographic order of texts that start with words of one length, and of the words
that write numbers with a fixed number of digits; numbers as a fixed count of bytes, the most
significant one first. -/
namespace DigitOrder

variable {α : Type*} [LT α]

theorem append_lt_append_iff {a b : List α} (h : a.length = b.length) (x y : List α) :
    a ++ x < b ++ y ↔ a < b ∨ a = b ∧ x < y := by
  induction a generalizing b with
  | nil =>
    cases b with
    | nil => simp only [List.nil_append, List.not_lt_nil, false_or, true_and]
    | cons d b => simp at h
  | cons c a ih =>
    cases b with
    | nil => simp at h
    | cons d b =>
      simp only [List.cons_append, List.cons_lt_cons_iff, ih (Nat.succ.inj h), List.cons.injEq]
      tauto

structure Digits (α : Type*) [LT α] (base : ℕ) where
  IsDigit : α → Prop
  value : α → ℕ
  value_lt : ∀ c, IsDigit c → value c < base
  lt_iff : ∀ c d, IsDigit c → IsDigit d → (c < d ↔ value c < value d)
  value_inj : ∀ c d, IsDigit c → IsDigit d → value c = value d → c = d

namespace Digits
variable {base : ℕ} (D : Digits α base)

def IsWord (w : List α) : Prop := ∀ c ∈ w, D.IsDigit c

def number (v : ℕ) (w : List α) : ℕ := w.foldl (fun v c => base * v + D.value c) v

variable {D}

theorem IsWord.tail {c : α} {w : List α} (h : D.IsWord (c :: w)) : D.IsWord w :=
  fun d hd => h d (List.mem_cons_of_mem c hd)

theorem number_lt_of_lt {a b : List α} {i j : ℕ} (ha : D.IsWord a) (h : a.length = b.length)
    (hij : i < j) : D.number i a < D.number j b := by
  induction a generalizing b i j with
  | nil =>
    cases b with
    | nil => exact hij
    | cons d b => simp at h
  | cons c a ih =>
    cases b with
    | nil => simp at h
    | cons d b =>
      apply ih ha.tail (Nat.succ.inj h)
      have hc := D.value_lt c (ha c List.mem_cons_self)
      calc base * i + D.value c < base * i + base := Nat.add_lt_add_left hc _
        _ = base * (i + 1) := (Nat.mul_succ base i).symm
        _ ≤ base * j := Nat.mul_le_mul_left base hij
        _ ≤ base * j + D.value d := Nat.le_add_right _ _

theorem lt_iff_number {a b : List α} (i : ℕ) (ha : D.IsWord a) (hb : D.IsWord b)
    (h : a.length = b.length) : a < b ↔ D.number i a < D.number i b := by
  induction a generalizing b i with
  | nil =>
    cases b with
    | nil => simp [number]
    | cons d b => simp at h
  | cons c a ih =>
    cases b with
    | nil => simp at h
    | cons d b =>
      have hc := ha c List.mem_cons_self
      have hd := hb d List.mem_cons_self
      have hlen : a.length = b.length := Nat.succ.inj h
      have hstep (x : α) (w : List α) :
          D.number i (x :: w) = D.number (base * i + D.value x) w := rfl
      rw [List.cons_lt_cons_iff, hstep, hstep, D.lt_iff c d hc hd]
      rcases Nat.lt_trichotomy (D.value c) (D.value d) with hlt | heq | hgt
      · have hnum : D.number (base * i + D.value c) a < D.number (base * i + D.value d) b :=
          number_lt_of_lt ha.tail hlen (Nat.add_lt_add_left hlt _)
        simp only [hlt, hnum, true_or]
      · obtain rfl := D.value_inj c d hc hd heq
        rw [ih (base * i + D.value c) ha.tail hb.tail hlen]
        simp only [Nat.lt_irrefl, false_or, true_and]
      · have hnum : D.number (base * i + D.value d) b < D.number (base * i + D.value c) a :=
          number_lt_of_lt hb.tail hlen.symm (Nat.add_lt_add_left hgt _)
        have hne : c ≠ d := by
          rintro rfl
          exact Nat.lt_irrefl _ hgt
        simp only [hne, false_and, or_false, Nat.lt_asymm hgt, Nat.lt_asymm hnum]

end Digits

end DigitOrder

namespace BigEndian

def encode : ℕ → ℕ → List UInt8
  | 0, _ => []
  | w + 1, n => UInt8.ofNat (n / 256 ^ w) :: encode w n

def value (b : List UInt8) : ℕ := b.foldl (fun n x => 256 * n + x.toNat) 0

@[simp] theorem length_encode (w n : ℕ) : (encode w n).length = w := by
  induction w with
  | zero => rfl
  | succ w ih => rw [encode, List.length_cons, ih]

@[simp] theorem value_nil : value [] = 0 := rfl

theorem foldl_value (b : List UInt8) (n : ℕ) :
    b.foldl (fun n x => 256 * n + x.toNat) n = 256 ^ b.length * n + value b := by
  induction b generalizing n with
  | nil => simp
  | cons x b ih =>
    rw [value, List.foldl_cons, List.foldl_cons, ih, ih (256 * 0 + _), List.length_cons, pow_succ]
    ring

theorem value_cons (x : UInt8) (b : List UInt8) :
    value (x :: b) = 256 ^ b.length * x.toNat + value b := by
  rw [value, List.foldl_cons, foldl_value, Nat.mul_zero, Nat.zero_add]

theorem value_lt (b : List UInt8) : value b < 256 ^ b.length := by
  induction b with
  | nil => simp
  | cons x b ih =>
    have hx : x.toNat + 1 ≤ 256 := x.toNat_lt
    rw [value_cons, List.length_cons, pow_succ]
    calc 256 ^ b.length * x.toNat + value b
        < 256 ^ b.length * x.toNat + 256 ^ b.length := Nat.add_lt_add_left ih _
      _ = 256 ^ b.length * (x.toNat + 1) := by ring
      _ ≤ 256 ^ b.length * 256 := Nat.mul_le_mul_left _ hx

theorem value_encode (w n : ℕ) : value (encode w n) = n % 256 ^ w := by
  induction w with
  | zero => simp [encode, Nat.mod_one]
  | succ w ih =>
    have hx : (UInt8.ofNat (n / 256 ^ w)).toNat = n / 256 ^ w % 256 := by simp
    rw [encode, value_cons, ih, length_encode, hx, pow_succ, Nat.mod_mul]
    ring

theorem value_encode_of_lt {w n : ℕ} (h : n < 256 ^ w) : value (encode w n) = n := by
  rw [value_encode, Nat.mod_eq_of_lt h]

end BigEndian
