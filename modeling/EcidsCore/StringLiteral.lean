import EcidsCore.ByteText

set_option autoImplicit false

/-! Strings between quotation marks, with the escapes of JSON: what the text behind an
opening mark stands for, and what is left of it behind the closing one. -/
namespace StringLiteral

def quote : UInt8 := 0x22
def backslash : UInt8 := 0x5C

def Plain (b : UInt8) : Prop := 0x20 ≤ b ∧ b ≠ quote ∧ b ≠ backslash

instance (b : UInt8) : Decidable (Plain b) := inferInstanceAs (Decidable (_ ∧ _ ∧ _))

def hexDigit (b : UInt8) : Option ℕ :=
  if 0x30 ≤ b ∧ b ≤ 0x39 then some (b.toNat - 0x30)
  else if 0x41 ≤ b ∧ b ≤ 0x46 then some (b.toNat - 0x37)
  else if 0x61 ≤ b ∧ b ≤ 0x66 then some (b.toNat - 0x57)
  else none

def codeUnit : Bytes → Option (ℕ × Bytes)
  | a :: b :: c :: d :: rest => do
    let a ← hexDigit a
    let b ← hexDigit b
    let c ← hexDigit c
    let d ← hexDigit d
    return (((a * 16 + b) * 16 + c) * 16 + d, rest)
  | _ => none

/-- The code point behind `\u`; two code units make one that does not fit into 16 bits. -/
def codePoint (t : Bytes) : Option (ℕ × Bytes) := do
  let high ← codeUnit t
  if 0xD800 ≤ high.1 ∧ high.1 < 0xDC00 then
    if high.2.take 2 = [backslash, 0x75] then
      let low ← codeUnit (high.2.drop 2)
      if 0xDC00 ≤ low.1 ∧ low.1 < 0xE000 then
        return (0x10000 + (high.1 - 0xD800) * 0x400 + (low.1 - 0xDC00), low.2)
      else none
    else none
  else if 0xDC00 ≤ high.1 ∧ high.1 < 0xE000 then none
  else return high

def shortEscapes : List (UInt8 × UInt8) :=
  [(quote, quote), (backslash, backslash), (0x2F, 0x2F), (0x62, 0x08), (0x66, 0x0C), (0x6E, 0x0A),
    (0x72, 0x0D), (0x74, 0x09)]

def escape : Bytes → Option (Bytes × Bytes)
  | [] => none
  | c :: t =>
    if c = 0x75 then (codePoint t).map fun p => (String.utf8EncodeChar (Char.ofNat p.1), p.2)
    else (shortEscapes.lookup c).map fun b => ([b], t)

def item : Bytes → Option (Bytes × Bytes)
  | [] => none
  | b :: t => if b = backslash then escape t else if Plain b then some ([b], t) else none

/-- The items up to the closing mark, at most `n` of them. -/
def scan : ℕ → Bytes → Option (Bytes × Bytes)
  | 0, _ => none
  | n + 1, t =>
    if t.head? = some quote then some ([], t.tail)
    else do
      let one ← item t
      let more ← scan n one.2
      return (one.1 ++ more.1, more.2)

theorem codeUnit_length {t : Bytes} {u : ℕ × Bytes} (h : codeUnit t = some u) :
    t.length = u.2.length + 4 := by
  unfold codeUnit at h
  split at h
  · simp only [Option.bind_eq_bind, Option.bind_eq_some_iff] at h
    obtain ⟨a, -, b, -, c, -, d, -, hu⟩ := h
    cases hu
    rfl
  · cases h

theorem codePoint_length {t : Bytes} {p : ℕ × Bytes} (h : codePoint t = some p) :
    p.2.length + 4 ≤ t.length := by
  simp only [codePoint, Option.bind_eq_bind, Option.bind_eq_some_iff, Option.pure_def] at h
  obtain ⟨high, hhigh, h⟩ := h
  have hlength := codeUnit_length hhigh
  split at h
  · split at h
    · simp only [Option.bind_eq_some_iff] at h
      obtain ⟨low, hlow, h⟩ := h
      have hlength' := codeUnit_length hlow
      rw [List.length_drop] at hlength'
      split at h
      · simp only [Option.some.injEq] at h
        rw [← h]
        change low.2.length + 4 ≤ t.length
        omega
      · cases h
    · cases h
  · split at h
    · cases h
    · simp only [Option.some.injEq] at h
      exact h ▸ Nat.le_of_eq hlength.symm

theorem escape_length {t : Bytes} {p : Bytes × Bytes} (h : escape t = some p) :
    p.1.length + p.2.length ≤ t.length := by
  cases t with
  | nil => cases h
  | cons c t =>
    simp only [escape] at h
    split at h
    · obtain ⟨q, hq, rfl⟩ := Option.map_eq_some_iff.1 h
      have hlength := codePoint_length hq
      have hchar := Char.utf8Size_le_four (Char.ofNat q.1)
      simp only [String.length_utf8EncodeChar, List.length_cons]
      omega
    · obtain ⟨b, -, rfl⟩ := Option.map_eq_some_iff.1 h
      simp [Nat.add_comm]

theorem item_cases {t : Bytes} {p : Bytes × Bytes} (h : item t = some p) :
    (∃ b, Plain b ∧ p.1 = [b] ∧ t = b :: p.2) ∨ p.1.length + p.2.length < t.length := by
  cases t with
  | nil => cases h
  | cons b t =>
    simp only [item] at h
    split at h
    · exact .inr (Nat.lt_succ_of_le (escape_length h))
    · split at h
      · rename_i hplain
        cases h
        exact .inl ⟨b, hplain, rfl, rfl⟩
      · cases h

theorem scan_cases {n : ℕ} {t : Bytes} {p : Bytes × Bytes} (h : scan n t = some p) :
    (t = p.1 ++ quote :: p.2 ∧ ∀ b ∈ p.1, Plain b) ∨ p.1.length + 1 + p.2.length < t.length := by
  induction n generalizing t p with
  | zero => cases h
  | succ n ih =>
    simp only [scan] at h
    split at h
    · rename_i hquote
      cases h
      exact .inl ⟨(List.cons_head?_tail hquote).symm, List.forall_mem_nil _⟩
    · simp only [Option.bind_eq_bind, Option.bind_eq_some_iff] at h
      obtain ⟨one, hone, more, hmore, h⟩ := h
      cases h
      simp only [List.length_append]
      rcases item_cases hone with ⟨b, hplain, hb, rfl⟩ | hlt
      · simp only [hb, List.length_cons, List.length_nil]
        rcases ih hmore with ⟨ht, hmem⟩ | hlt
        · refine .inl ⟨by rw [ht]; rfl, ?_⟩
          rintro c (_ | ⟨_, hc⟩)
          · exact hplain
          · exact hmem c hc
        · right
          omega
      · right
        rcases ih hmore with ⟨ht, -⟩ | hlt'
        · have hlength := congrArg List.length ht
          rw [List.length_append, List.length_cons] at hlength
          omega
        · omega

theorem scan_length {n : ℕ} {t : Bytes} {p : Bytes × Bytes} (h : scan n t = some p) :
    p.1.length + 1 + p.2.length ≤ t.length := by
  rcases scan_cases h with ⟨ht, -⟩ | hlt
  · rw [ht, List.length_append, List.length_cons]
    omega
  · exact Nat.le_of_lt hlt

theorem item_plain {b : UInt8} (h : Plain b) (t : Bytes) : item (b :: t) = some ([b], t) := by
  rw [item, if_neg h.2.2, if_pos h]

theorem scan_plain {n : ℕ} {s : Bytes} (hs : ∀ b ∈ s, Plain b) (hn : s.length < n) (rest : Bytes) :
    scan n (s ++ quote :: rest) = some (s, rest) := by
  induction s generalizing n with
  | nil =>
    obtain ⟨n, rfl⟩ := Nat.exists_eq_add_of_lt hn
    simp [scan]
  | cons b s ih =>
    obtain ⟨n, rfl⟩ := Nat.exists_eq_add_of_lt hn
    have hb : Plain b := hs b List.mem_cons_self
    have hrest := ih (n := s.length + 1 + n) (fun c hc => hs c (List.mem_cons_of_mem b hc)) (by omega)
    have hhead : ¬ (b :: (s ++ quote :: rest)).head? = some quote := by simpa using hb.2.1
    rw [List.length_cons, List.cons_append, scan, if_neg hhead, item_plain hb]
    simp only [Option.bind_eq_bind, Option.bind_some, hrest]
    rfl

end StringLiteral
