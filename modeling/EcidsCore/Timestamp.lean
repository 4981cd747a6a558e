import EcidsCore.RecordManager

set_option autoImplicit false

/-! The system clock in local time, and the time stamp that is written of it. The clock is
the number of nanoseconds since the epoch. -/
namespace EcidsCore

/-- What `localtime_r` fills in: a leap second is the second 60. -/
structure Tm where
  year : ℕ
  mon : ℕ
  mday : ℕ
  hour : ℕ
  min : ℕ
  sec : ℕ
  mon_lt : mon < 12
  mday_le : mday ≤ 31
  hour_lt : hour < 24
  min_lt : min < 60
  sec_le : sec ≤ 60

def toParts (tm : Tm) (ms : ℕ) : TimeParts where
  year := tm.year + 1900
  month := tm.mon + 1
  day := tm.mday
  hour := tm.hour
  min := tm.min
  sec := tm.sec
  ms := ms

theorem toParts_inj {t u : Tm} {a b : ℕ} (h : toParts t a = toParts u b) : t = u ∧ a = b := by
  cases t
  cases u
  simp only [toParts, TimeParts.mk.injEq, Nat.add_right_cancel_iff] at h
  obtain ⟨rfl, rfl, rfl, rfl, rfl, rfl, rfl⟩ := h
  exact ⟨rfl, rfl⟩

namespace Timestamp
variable (localtime : ℕ → Tm)

def nowParts (now : ℕ) : TimeParts := toParts (localtime (now / 10 ^ 9)) (now / 10 ^ 6 % 1000)

def nowString (now : ℕ) : String :=
  let parts := nowParts localtime now
  padded 4 parts.year ++ padded 2 parts.month ++ padded 2 parts.day ++ "-" ++
    padded 2 parts.hour ++ padded 2 parts.min ++ padded 2 parts.sec ++ "-" ++ padded 3 parts.ms

end Timestamp

theorem ofDigitChars_padded (w n : ℕ) : Nat.ofDigitChars 10 (padded w n).toList 0 = n := by
  rw [padded_toList, Nat.ofDigitChars_append, Nat.ofDigitChars_replicate_zero, Nat.mul_zero,
    Nat.ofDigitChars_ten_toDigits]

theorem padded_injective (w : ℕ) : Function.Injective (padded w) := by
  intro n m h
  rw [← ofDigitChars_padded w n, h, ofDigitChars_padded]

theorem padded_length {w n : ℕ} (hw : 0 < w) (hn : n < 10 ^ w) : (padded w n).toList.length = w := by
  have hlen := (Nat.length_toDigits_le_iff (by omega) hw).2 hn
  rw [padded_toList, List.length_append, List.length_replicate]
  omega

theorem append_padded_inj {s t : String} {w n m : ℕ} (hw : 0 < w) (hn : n < 10 ^ w)
    (hm : m < 10 ^ w) (h : s ++ padded w n = t ++ padded w m) : s = t ∧ n = m := by
  have hlist := congrArg String.toList h
  rw [String.toList_append, String.toList_append] at hlist
  have hsplit := List.append_inj' hlist ((padded_length hw hn).trans (padded_length hw hm).symm)
  exact ⟨String.toList_inj.1 hsplit.1, padded_injective w (String.toList_inj.1 hsplit.2)⟩

theorem append_dash_inj {s t : String} (h : s ++ "-" = t ++ "-") : s = t := by
  have hlist := congrArg String.toList h
  rw [String.toList_append, String.toList_append] at hlist
  exact String.toList_inj.1 (List.append_cancel_right hlist)

namespace Timestamp
variable {localtime : ℕ → Tm}

theorem nowString_eq_iff {a b : ℕ} :
    nowString localtime a = nowString localtime b ↔ nowParts localtime a = nowParts localtime b := by
  constructor
  · intro h
    have hmon (s : ℕ) : (localtime s).mon + 1 < 10 ^ 2 := by have := (localtime s).mon_lt; omega
    have hday (s : ℕ) : (localtime s).mday < 10 ^ 2 := by have := (localtime s).mday_le; omega
    have hhour (s : ℕ) : (localtime s).hour < 10 ^ 2 := by have := (localtime s).hour_lt; omega
    have hmin (s : ℕ) : (localtime s).min < 10 ^ 2 := by have := (localtime s).min_lt; omega
    have hsec (s : ℕ) : (localtime s).sec < 10 ^ 2 := by have := (localtime s).sec_le; omega
    have hms (n : ℕ) : n / 10 ^ 6 % 1000 < 10 ^ 3 := Nat.mod_lt _ (by omega)
    -- the fields are compared from the last one to the first
    obtain ⟨h, ms⟩ := append_padded_inj (by omega) (hms a) (hms b) h
    obtain ⟨h, sec⟩ := append_padded_inj (by omega) (hsec _) (hsec _) (append_dash_inj h)
    obtain ⟨h, min⟩ := append_padded_inj (by omega) (hmin _) (hmin _) h
    obtain ⟨h, hour⟩ := append_padded_inj (by omega) (hhour _) (hhour _) h
    obtain ⟨h, day⟩ := append_padded_inj (by omega) (hday _) (hday _) (append_dash_inj h)
    obtain ⟨h, month⟩ := append_padded_inj (by omega) (hmon _) (hmon _) h
    have year := padded_injective 4 h
    simp only [nowParts, toParts, TimeParts.mk.injEq]
    exact ⟨year, month, day, hour, min, sec, ms⟩
  · intro h
    rw [nowString, nowString, h]

/-- Where local time does not repeat itself, moments of different milliseconds have
different local milliseconds. -/
theorem nowParts_ne {a b : ℕ} (h : a / 10 ^ 6 ≠ b / 10 ^ 6)
    (honce : localtime (a / 10 ^ 9) = localtime (b / 10 ^ 9) → a / 10 ^ 9 = b / 10 ^ 9) :
    nowParts localtime a ≠ nowParts localtime b := by
  intro hparts
  obtain ⟨htm, hms⟩ := toParts_inj hparts
  have hsec := honce htm
  omega

end Timestamp

end EcidsCore
