import EcidsCore.DigitOrder
import EcidsCore.RecordNames
import EcidsCore.Timestamp

set_option autoImplicit false

/-! The order in which the history lists the records: the texts of their dates are compared,
and the hour in them is not padded. -/
namespace EcidsCore
open ByteText ExceptRules DigitOrder

variable {R : Type}

def decimal : Digits UInt8 10 where
  IsDigit c := 0x30 ≤ c ∧ c ≤ 0x39
  value c := c.toNat - 48
  value_lt c h := by
    have hlow : 48 ≤ c.toNat := UInt8.le_iff_toNat_le.1 h.1
    have hhigh : c.toNat ≤ 57 := UInt8.le_iff_toNat_le.1 h.2
    omega
  lt_iff c d hc hd := by
    have hlow : 48 ≤ c.toNat := UInt8.le_iff_toNat_le.1 hc.1
    rw [UInt8.lt_iff_toNat_lt]
    omega
  value_inj c d hc hd h := by
    have hc' : 48 ≤ c.toNat := UInt8.le_iff_toNat_le.1 hc.1
    have hd' : 48 ≤ d.toNat := UInt8.le_iff_toNat_le.1 hd.1
    apply UInt8.toNat_inj.1
    omega

theorem number_padded (w n : ℕ) : decimal.number 0 (bytes (padded w n)) = n := by
  have hchars (l : List Char) (v : ℕ) (h : ∀ c ∈ l, c.val.toNat ≤ 57) :
      decimal.number v (l.map fun c => UInt8.ofNat c.val.toNat) = Nat.ofDigitChars 10 l v := by
    induction l generalizing v with
    | nil => rfl
    | cons c l ih =>
      have hc := h c List.mem_cons_self
      have hbyte : (UInt8.ofNat c.val.toNat).toNat = c.val.toNat := by
        rw [UInt8.toNat_ofNat']
        omega
      rw [Nat.ofDigitChars_cons, ← ih _ fun d hd => h d (List.mem_cons_of_mem c hd)]
      change decimal.number (10 * v + ((UInt8.ofNat c.val.toNat).toNat - 48)) _ = _
      rw [hbyte]
      rfl
  rw [bytes_padded, hchars _ _ fun c hc => (padded_chars c hc).2, ofDigitChars_padded]

theorem length_bytes_padded {w n : ℕ} (hw : 0 < w) (hn : n < 10 ^ w) :
    (bytes (padded w n)).length = w := by
  rw [bytes_padded, List.length_map, padded_length hw hn]

theorem padded_append_lt_iff {w n m : ℕ} (hw : 0 < w) (hn : n < 10 ^ w) (hm : m < 10 ^ w)
    (x y : Bytes) :
    bytes (padded w n) ++ x < bytes (padded w m) ++ y ↔ n < m ∨ n = m ∧ x < y := by
  have hlen : (bytes (padded w n)).length = (bytes (padded w m)).length :=
    (length_bytes_padded hw hn).trans (length_bytes_padded hw hm).symm
  rw [append_lt_append_iff hlen, decimal.lt_iff_number 0 digits_ascii digits_ascii hlen,
    number_padded, number_padded, bytes_injective.eq_iff, (padded_injective w).eq_iff]

/-- A time of the calendar, with a year of at most four digits; a leap second is the second 60. -/
structure TimeParts.Calendar (t : TimeParts) : Prop where
  year_lt : t.year < 10000
  month_le : t.month ≤ 12
  day_le : t.day ≤ 31
  hour_lt : t.hour < 24
  min_lt : t.min < 60
  sec_le : t.sec ≤ 60

def TimeParts.Earlier (t u : TimeParts) : Prop :=
  [t.year, t.month, t.day, t.hour, t.min, t.sec] < [u.year, u.month, u.day, u.hour, u.min, u.sec]

instance (t u : TimeParts) : Decidable (t.Earlier u) := inferInstanceAs (Decidable (_ < _))

/-- The hour of `t` has one digit, that of `u` two, and the first of these is not above the
one of `t`. -/
def HourMisplaced (t u : TimeParts) : Prop := t.hour < 10 ∧ 10 ≤ u.hour ∧ u.hour / 10 ≤ t.hour

/-- Two times of one day, the first before the second, whose texts are the other way around. -/
def Misplaced (t u : TimeParts) : Prop :=
  t.year = u.year ∧ t.month = u.month ∧ t.day = u.day ∧ HourMisplaced t u

instance (t u : TimeParts) : Decidable (Misplaced t u) :=
  inferInstanceAs (Decidable (_ ∧ _ ∧ _ ∧ _ ∧ _ ∧ _))

def colon : UInt8 := 0x3A

def clockText (t : TimeParts) : Bytes :=
  bytes (padded 0 t.hour) ++ colon :: (bytes (padded 2 t.min) ++ colon :: bytes (padded 2 t.sec))

theorem dateText_eq (t : TimeParts) : bytes (dateText t) =
    bytes (padded 4 t.year) ++ dash :: (bytes (padded 2 t.month) ++ dash ::
      (bytes (padded 2 t.day) ++ 0x20 :: clockText t)) := by
  simp only [dateText, bytes_append, List.append_assoc]
  rfl

section Order
variable {t u : TimeParts}

theorem minutes_lt_iff (ht : t.Calendar) (hu : u.Calendar) :
    bytes (padded 2 t.min) ++ colon :: bytes (padded 2 t.sec) <
        bytes (padded 2 u.min) ++ colon :: bytes (padded 2 u.sec) ↔
      t.min < u.min ∨ t.min = u.min ∧ t.sec < u.sec := by
  have hmin := ht.min_lt
  have hmin' := hu.min_lt
  have hsec := ht.sec_le
  have hsec' := hu.sec_le
  have hlast : bytes (padded 2 t.sec) < bytes (padded 2 u.sec) ↔ t.sec < u.sec := by
    rw [← List.append_nil (bytes (padded 2 t.sec)), ← List.append_nil (bytes (padded 2 u.sec)),
      padded_append_lt_iff (by omega) (by omega) (by omega)]
    simp only [List.not_lt_nil, and_false, or_false]
  rw [padded_append_lt_iff (by omega) (by omega) (by omega), List.cons_lt_cons_self, hlast]

theorem padded_hour_one : ∀ h < 10, padded 0 h = padded 1 h := by decide

theorem padded_hour_two : ∀ h < 24, 10 ≤ h → padded 0 h = padded 2 h := by decide

theorem bytes_hour_one : ∀ h < 10, bytes (padded 0 h) = [UInt8.ofNat (48 + h)] := by decide

theorem bytes_hour_two : ∀ h < 24, 10 ≤ h →
    bytes (padded 0 h) = [UInt8.ofNat (48 + h / 10), UInt8.ofNat (48 + h % 10)] := by decide

theorem clock_lt_of_widths (ht : t.hour < 10) (hu : u.hour < 24) (hten : 10 ≤ u.hour) :
    (clockText t < clockText u ↔ t.hour < u.hour / 10) ∧
      (clockText u < clockText t ↔ u.hour / 10 ≤ t.hour) := by
  have hdigit (n : ℕ) (hn : n < 10) : (UInt8.ofNat (48 + n)).toNat = 48 + n := by
    rw [UInt8.toNat_ofNat']
    omega
  have hcolon : colon.toNat = 58 := rfl
  rw [clockText, clockText, bytes_hour_one _ ht, bytes_hour_two _ hu hten]
  simp only [List.cons_append, List.nil_append, List.cons_lt_cons_iff, ← UInt8.toNat_inj,
    UInt8.lt_iff_toNat_lt, hdigit _ ht, hdigit (u.hour / 10) (by omega),
    hdigit (u.hour % 10) (by omega), hcolon]
  omega

theorem clock_lt_iff (ht : t.Calendar) (hu : u.Calendar) :
    clockText t < clockText u ↔
      (t.hour < u.hour ∨ t.hour = u.hour ∧ (t.min < u.min ∨ t.min = u.min ∧ t.sec < u.sec)) ∧
        ¬ HourMisplaced t u ∨ HourMisplaced u t := by
  have hhour := ht.hour_lt
  have hhour' := hu.hour_lt
  unfold HourMisplaced
  by_cases h1 : t.hour < 10 <;> by_cases h2 : u.hour < 10
  · rw [clockText, clockText, padded_hour_one _ h1, padded_hour_one _ h2,
      padded_append_lt_iff (by omega) (by omega) (by omega), List.cons_lt_cons_self,
      minutes_lt_iff ht hu]
    omega
  · rw [(clock_lt_of_widths h1 hhour' (by omega)).1]
    omega
  · rw [(clock_lt_of_widths h2 hhour (by omega)).2]
    omega
  · rw [clockText, clockText, padded_hour_two _ hhour (by omega),
      padded_hour_two _ hhour' (by omega), padded_append_lt_iff (by omega) (by omega) (by omega),
      List.cons_lt_cons_self, minutes_lt_iff ht hu]
    omega

theorem date_lt_iff (ht : t.Calendar) (hu : u.Calendar) :
    bytes (dateText t) < bytes (dateText u) ↔ t.Earlier u ∧ ¬ Misplaced t u ∨ Misplaced u t := by
  have hyear := ht.year_lt
  have hyear' := hu.year_lt
  have hmonth := ht.month_le
  have hmonth' := hu.month_le
  have hday := ht.day_le
  have hday' := hu.day_le
  rw [dateText_eq, dateText_eq, padded_append_lt_iff (by omega) (by omega) (by omega),
    List.cons_lt_cons_self, padded_append_lt_iff (by omega) (by omega) (by omega),
    List.cons_lt_cons_self, padded_append_lt_iff (by omega) (by omega) (by omega),
    List.cons_lt_cons_self, clock_lt_iff ht hu]
  simp only [TimeParts.Earlier, Misplaced, HourMisplaced, List.cons_lt_cons_iff, List.not_lt_nil,
    and_false, or_false]
  omega

theorem Misplaced.earlier (h : Misplaced t u) : t.Earlier u := by
  obtain ⟨hyear, hmonth, hday, ht, hu, -⟩ := h
  simp only [TimeParts.Earlier, List.cons_lt_cons_iff]
  omega

end Order

theorem rel_of_pairwise {α : Type} {P : α → α → Prop} {l : List α} (h : l.Pairwise P) {x y : α}
    (hx : x ∈ l) (hy : y ∈ l) (hne : x ≠ y) : P x y ∨ P y x := by
  induction h with
  | nil => cases hx
  | cons hall _ ih =>
    rcases List.mem_cons.1 hx with rfl | hxl
    · exact .inl (hall y ((List.mem_cons.1 hy).resolve_left (Ne.symm hne)))
    · rcases List.mem_cons.1 hy with rfl | hyl
      · exact .inr (hall x hxl)
      · exact ih hxl hyl

def MadeAt (made : MadeRecords) (r : ScannedRecord R) (t : TimeParts) : Prop :=
  ∃ q, (t, q) ∈ made ∧ r.id = bytes (q.recordName t)

def NewestFirst (made : MadeRecords) (rs : List (ScannedRecord R)) : Prop :=
  rs.Pairwise fun a b => ∀ t u, MadeAt made a t → MadeAt made b u → ¬ t.Earlier u

section Scan
variable [Double R] {lib : Nlohmann R} {fs : FileSystem} {root : Bytes} {made : MadeRecords}
  {rs : List (ScannedRecord R)}

theorem scan_sorted (h : scanInspectionRecords lib fs root = .ok rs) :
    rs.Pairwise fun a b => ¬ a.inspectionDate < b.inspectionDate := by
  obtain ⟨found, -, h⟩ := bind_ok h
  cases found with
  | false =>
    cases h
    exact List.Pairwise.nil
  | true =>
    obtain ⟨records, -, h⟩ := bind_ok h
    cases h
    have hsorted : (records.mergeSort fun a b =>
        ¬ a.inspectionDate < b.inspectionDate).Pairwise fun a b =>
          decide (¬ a.inspectionDate < b.inspectionDate) = true := by
      apply List.pairwise_mergeSort
      · intro a b c hab hbc
        simp only [decide_eq_true_eq, List.not_lt] at hab hbc ⊢
        exact List.le_trans hbc hab
      · intro a b
        simp only [Bool.or_eq_true, decide_eq_true_eq, List.not_lt]
        exact List.le_total _ _
    exact hsorted.imp of_decide_eq_true

theorem scanned_of_recordDirs (h : scanInspectionRecords lib fs root = .ok rs)
    (hroot : fs.pathExists root = .ok true) {rec : Bytes × Bytes}
    (hrec : rec ∈ recordDirs fs root) :
    ∃ r ∈ rs, r.id = rec.2 := by
  obtain ⟨found, hfound, h⟩ := bind_ok h
  obtain rfl : true = found := Except.ok.inj (hroot.symm.trans hfound)
  obtain ⟨records, hrecords, h⟩ := bind_ok h
  cases h
  obtain ⟨r, hr⟩ := returns_mapM.1 ⟨records, hrecords⟩ rec hrec
  refine ⟨r, List.mem_mergeSort.2 ((mem_mapM hrecords r).2 ⟨rec, hrec, hr⟩), ?_⟩
  exact (scanRecord_texts hr).1

theorem madeAt_date (h : scanInspectionRecords lib fs root = .ok rs) {r : ScannedRecord R}
    (hr : r ∈ rs) {t : TimeParts} (hmade : MadeAt made r t) :
    r.inspectionDate = bytes (dateText t) := by
  obtain ⟨rec, -, hrec⟩ := mem_scanInspectionRecords h hr
  obtain ⟨q, -, hname⟩ := hmade
  obtain ⟨hid, -, hdate, -⟩ := scanRecord_texts hrec
  rw [hdate, ← hid, hname, q.nameTokens_recordName, inspectionDate_made]

/-- The history lists the records newest first exactly if no two of one day have hours of one
and of two digits whose first digits are the wrong way around. -/
theorem newest_first_iff (h : scanInspectionRecords lib fs root = .ok rs)
    (hroot : fs.pathExists root = .ok true) (hcal : ∀ p ∈ made, p.1.Calendar)
    (hdirs : ∀ p ∈ made, ∃ path, (path, bytes (p.2.recordName p.1)) ∈ recordDirs fs root) :
    NewestFirst made rs ↔ ∀ a ∈ made, ∀ b ∈ made, ¬ Misplaced a.1 b.1 := by
  have hsorted := scan_sorted h
  constructor
  · intro hnewest a ha b hb hbad
    obtain ⟨pa, hpa⟩ := hdirs a ha
    obtain ⟨pb, hpb⟩ := hdirs b hb
    obtain ⟨x, hx, hxid⟩ := scanned_of_recordDirs h hroot hpa
    obtain ⟨y, hy, hyid⟩ := scanned_of_recordDirs h hroot hpb
    have hxa : MadeAt made x a.1 := ⟨a.2, ha, hxid⟩
    have hyb : MadeAt made y b.1 := ⟨b.2, hb, hyid⟩
    have hearlier : a.1.Earlier b.1 := hbad.earlier
    have hlater : y.inspectionDate < x.inspectionDate := by
      rw [madeAt_date h hx hxa, madeAt_date h hy hyb]
      exact (date_lt_iff (hcal b hb) (hcal a ha)).2 (.inr hbad)
    have hne : x ≠ y := by
      rintro rfl
      exact List.lt_irrefl _ hlater
    -- whichever comes first, one of the two orders is broken
    rcases rel_of_pairwise (hnewest.and hsorted) hx hy hne with hxy | hyx
    · exact hxy.1 a.1 b.1 hxa hyb hearlier
    · exact hyx.2 hlater
  · intro hgood
    apply List.Pairwise.imp_of_mem _ hsorted
    intro x y hx hy hxy t u ht hu hearlier
    obtain ⟨q, hq, -⟩ := id ht
    obtain ⟨v, hv, -⟩ := id hu
    apply hxy
    rw [madeAt_date h hx ht, madeAt_date h hy hu]
    exact (date_lt_iff (hcal _ hq) (hcal _ hv)).2 (.inl ⟨hearlier, hgood _ hq _ hv⟩)

end Scan

theorem scan_twoRecords {t u : TimeParts} {i j : InspectionTask}
    (h : ¬ (dayScanned (t, .inspection i)).inspectionDate <
      (dayScanned (u, .inspection j)).inspectionDate) :
    scanInspectionRecords (plainLib toString) (dayDisk [(t, .inspection i), (u, .inspection j)])
        (bytes "database") =
      .ok [dayScanned (t, .inspection i), dayScanned (u, .inspection j)] := by
  rw [scan_dayDisk, List.map_cons, List.map_singleton, List.mapM_cons, List.mapM_cons,
    scanRecord_dayDisk, scanRecord_dayDisk]
  change Except.ok (List.mergeSort [_, _] _) = _
  apply congrArg Except.ok
  apply List.mergeSort_of_pairwise
  apply List.pairwise_pair.2
  exact decide_eq_true h

def nineRecord : TimeParts × StartRequest := (⟨2026, 7, 2, 9, 0, 0, 0⟩, .inspection plainIds)
def tenRecord : TimeParts × StartRequest := (⟨2026, 7, 2, 10, 0, 0, 0⟩, .inspection plainIds)

theorem newest_first_iff_noon :
    scanInspectionRecords (plainLib toString) (dayDisk [noonRecord plainIds, tenRecord])
        (bytes "database") = .ok [dayScanned (noonRecord plainIds), dayScanned tenRecord] ∧
      NewestFirst [noonRecord plainIds, tenRecord]
        [dayScanned (noonRecord plainIds), dayScanned tenRecord] := by
  have hscan : scanInspectionRecords (plainLib toString)
      (dayDisk [noonRecord plainIds, tenRecord]) (bytes "database") =
        .ok [dayScanned (noonRecord plainIds), dayScanned tenRecord] :=
    scan_twoRecords (by decide)
  have hcal : ∀ p ∈ [noonRecord plainIds, tenRecord], p.1.Calendar := by
    intro p hp
    simp only [List.mem_cons, List.not_mem_nil, or_false] at hp
    rcases hp with rfl | rfl
    all_goals exact ⟨by decide, by decide, by decide, by decide, by decide, by decide⟩
  have hdirs : ∀ p ∈ [noonRecord plainIds, tenRecord], ∃ path,
      (path, bytes (p.2.recordName p.1)) ∈
        recordDirs (dayDisk [noonRecord plainIds, tenRecord]) (bytes "database") := by
    intro p hp
    rw [recordDirs_dayDisk]
    exact ⟨_, List.mem_map_of_mem hp⟩
  exact ⟨hscan, (newest_first_iff hscan rfl hcal hdirs).2 (by decide)⟩

/-- The record of nine o'clock comes before the one of ten. -/
theorem nine_o_clock_counterexample :
    scanInspectionRecords (plainLib (R := ℤ) toString) (dayDisk [nineRecord, tenRecord])
        (bytes "database") = .ok [dayScanned nineRecord, dayScanned tenRecord] ∧
      nineRecord.1.Earlier tenRecord.1 ∧
        ¬ NewestFirst [nineRecord, tenRecord] [dayScanned nineRecord, dayScanned tenRecord] := by
  have hearlier : nineRecord.1.Earlier tenRecord.1 := by decide
  refine ⟨scan_twoRecords (by decide), hearlier, ?_⟩
  intro h
  have hfirst := List.pairwise_pair.1 h
  apply hfirst nineRecord.1 tenRecord.1 _ _ hearlier
  · exact ⟨_, List.mem_cons_self, rfl⟩
  · exact ⟨_, List.mem_cons_of_mem _ List.mem_cons_self, rfl⟩

end EcidsCore
