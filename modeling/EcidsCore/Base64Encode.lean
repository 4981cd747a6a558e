import EcidsCore.Base64Codec
import EcidsCore.ForwardHandler

set_option autoImplicit false

/-! The base64 encoder of the entry point over a 32-bit accumulator that is shifted for
every byte and never masked: it writes the standard encoding at every length. -/
namespace EcidsCore
open ByteText

/-- The locals of the encoder, `val` a two's-complement integer. -/
structure Sextets where
  out : List Char := []
  val : BitVec 32 := 0
  valb : ℤ := -6

def tblChar (v : BitVec 32) : Char := base64Table.toList.getD (v &&& 0x3F).toNat '='

/-- `while (valb >= 0)`, the shift arithmetic. -/
def Sextets.drain (s : Sextets) : Sextets :=
  if 0 ≤ s.valb then
    drain ⟨s.out ++ [tblChar (s.val.sshiftRight s.valb.toNat)], s.val, s.valb - 6⟩
  else s
termination_by (s.valb + 6).toNat

def Sextets.push (s : Sextets) (c : UInt8) : Sextets :=
  drain ⟨s.out, (s.val <<< 8) + c.toBitVec.setWidth 32, s.valb + 8⟩

/-- `while (out.size() % 4)` -/
def padFour (out : List Char) : List Char :=
  if out.length % 4 = 0 then out else padFour (out ++ ['='])
termination_by (4 - out.length % 4) % 4
decreasing_by
  rw [List.length_append, List.length_singleton]
  omega

def base64EncodeInt32 (data : Bytes) : String :=
  let s := data.foldl Sextets.push {}
  let out := if -6 < s.valb then
      s.out ++ [tblChar ((s.val <<< 8).sshiftRight (s.valb + 8).toNat)]
    else s.out
  String.ofList (padFour out)

theorem padFour_eq (out : List Char) :
    padFour out = out ++ List.replicate ((4 - out.length % 4) % 4) '=' := by
  induction out using padFour.induct with
  | case1 out h =>
    rw [padFour, if_pos h, h]
    exact (List.append_nil out).symm
  | case2 out h ih =>
    have hlt := Nat.mod_lt out.length (show 0 < 4 by decide)
    have hk : (4 - out.length % 4) % 4 = (4 - (out.length + 1) % 4) % 4 + 1 := by omega
    rw [padFour, if_neg h, ih, List.length_append, List.length_singleton, hk,
      List.replicate_succ, List.append_assoc, List.singleton_append]

theorem sshiftRight_and_mask (v : BitVec 32) {k : ℕ} (hk : k ≤ 26) :
    (v.sshiftRight k &&& 0x3F).toNat = v.toNat / 2 ^ k % 64 := by
  have hand : v.sshiftRight k &&& 0x3F = (v >>> k) &&& 0x3F := by
    apply BitVec.eq_of_getLsbD_eq
    intro i hi
    rw [BitVec.getLsbD_and, BitVec.getLsbD_and, BitVec.getLsbD_sshiftRight,
      BitVec.getLsbD_ushiftRight]
    by_cases h6 : i < 6
    · rw [decide_eq_false (show ¬ 32 ≤ i by omega), if_pos (show k + i < 32 by omega)]
      rfl
    · have hmask : (0x3F : BitVec 32).getLsbD i = false :=
        Nat.testBit_lt_two_pow (lt_of_lt_of_le (show 63 < 2 ^ 6 by decide)
          (Nat.pow_le_pow_right (by decide) (not_lt.1 h6)))
      rw [hmask, Bool.and_false, Bool.and_false]
  rw [hand, BitVec.toNat_and, BitVec.toNat_ushiftRight, Nat.shiftRight_eq_div_pow]
  exact Nat.and_two_pow_sub_one_eq_mod _ 6

theorem tblChar_sshiftRight (n : ℕ) {k : ℕ} (hk : k ≤ 26) :
    tblChar ((BitVec.ofNat 32 n).sshiftRight k) = base64Char (n % 2 ^ 32 / 2 ^ k) := by
  rw [tblChar, base64Char, sshiftRight_and_mask _ hk, BitVec.toNat_ofNat]

def Base64.toSextets (s : Base64) : Sextets := ⟨s.out, BitVec.ofNat 32 s.val, s.waiting - 6⟩

def Base64.Settled (s : Base64) : Prop := s.waiting = 0 ∨ s.waiting = 2 ∨ s.waiting = 4

theorem drain_one (out : List Char) (n : ℕ) {k : ℕ} (hk : k < 6) :
    Sextets.drain ⟨out, BitVec.ofNat 32 n, k⟩ =
      ⟨out ++ [base64Char (n % 2 ^ 32 / 2 ^ k)], BitVec.ofNat 32 n, (k : ℤ) - 6⟩ := by
  have hneg : ¬ 0 ≤ (k : ℤ) - 6 := by omega
  rw [Sextets.drain, if_pos (Int.natCast_nonneg k), Sextets.drain, if_neg hneg]
  rw [Int.toNat_natCast, tblChar_sshiftRight n (by omega)]

theorem drain_two (out : List Char) (n : ℕ) :
    Sextets.drain ⟨out, BitVec.ofNat 32 n, 6⟩ =
      ⟨out ++ [base64Char (n % 2 ^ 32 / 2 ^ 6), base64Char (n % 2 ^ 32 / 2 ^ 0)],
        BitVec.ofNat 32 n, -6⟩ := by
  have hfirst := tblChar_sshiftRight n (show 6 ≤ 26 by decide)
  rw [Sextets.drain, if_pos (show (0 : ℤ) ≤ 6 by decide)]
  show Sextets.drain ⟨out ++ [tblChar ((BitVec.ofNat 32 n).sshiftRight 6)], _, ((0 : ℕ) : ℤ)⟩ = _
  rw [drain_one _ n (by decide), hfirst, List.append_assoc]
  rfl

theorem push_settled {s : Base64} (h : s.Settled) (c : UInt8) : (s.push c).Settled := by
  obtain ⟨out, val, waiting⟩ := s
  rcases h with h | h | h <;> cases h
  · exact .inr (.inl rfl)
  · exact .inr (.inr rfl)
  · exact .inl rfl

theorem accumulate (val : ℕ) (c : UInt8) :
    (BitVec.ofNat 32 val <<< 8) + c.toBitVec.setWidth 32 =
      BitVec.ofNat 32 ((val * 256 + c.toNat) % 2 ^ 32) := by
  have hc := c.toNat_lt
  have h8 : c.toBitVec.toNat = c.toNat := rfl
  apply BitVec.eq_of_toNat_eq
  rw [BitVec.toNat_add, BitVec.toNat_shiftLeft, BitVec.toNat_ofNat, BitVec.toNat_setWidth,
    Nat.shiftLeft_eq, h8, BitVec.toNat_ofNat]
  omega

theorem toSextets_push (out : List Char) (val waiting : ℕ) (c : UInt8) :
    (Base64.toSextets ⟨out, val, waiting⟩).push c =
      Sextets.drain ⟨out, BitVec.ofNat 32 ((val * 256 + c.toNat) % 2 ^ 32), (waiting + 2 : ℕ)⟩ := by
  have hvalb : (waiting : ℤ) - 6 + 8 = (waiting + 2 : ℕ) := by push_cast; ring
  rw [← accumulate, ← hvalb]
  rfl

theorem push_toSextets {s : Base64} (h : s.Settled) (c : UInt8) :
    s.toSextets.push c = (s.push c).toSextets := by
  obtain ⟨out, val, waiting⟩ := s
  have hmod := Nat.mod_mod (val * 256 + c.toNat) (2 ^ 32)
  rw [toSextets_push]
  rcases h with h | h | h <;> cases h
  · rw [drain_one _ _ (by decide), hmod]
    rfl
  · rw [drain_one _ _ (by decide), hmod]
    rfl
  · show Sextets.drain ⟨out, _, 6⟩ = _
    rw [drain_two, hmod]
    rfl

theorem foldl_push_toSextets (data : Bytes) {s : Base64} (h : s.Settled) :
    data.foldl Sextets.push s.toSextets = (data.foldl Base64.push s).toSextets ∧
      (data.foldl Base64.push s).Settled := by
  induction data generalizing s with
  | nil => exact ⟨rfl, h⟩
  | cons c data ih =>
    rw [List.foldl_cons, List.foldl_cons, push_toSextets h]
    exact ih (push_settled h c)

theorem tail_toSextets {s : Base64} (h : s.Settled) :
    (if -6 < s.toSextets.valb then
      s.toSextets.out ++
        [tblChar ((s.toSextets.val <<< 8).sshiftRight (s.toSextets.valb + 8).toNat)]
    else s.toSextets.out) =
    if s.waiting = 0 then s.out
    else s.out ++ [base64Char (s.val * 256 % 2 ^ 32 / 2 ^ (s.waiting + 2))] := by
  obtain ⟨out, val, waiting⟩ := s
  have hshift : BitVec.ofNat 32 val <<< 8 = BitVec.ofNat 32 (val * 256) := by
    apply BitVec.eq_of_toNat_eq
    rw [BitVec.toNat_shiftLeft, BitVec.toNat_ofNat, Nat.shiftLeft_eq, BitVec.toNat_ofNat]
    omega
  have htail (k : ℕ) (hk : k ≤ 26) := tblChar_sshiftRight (val * 256) hk
  rw [← hshift] at htail
  rcases h with h | h | h <;> cases h
  · rfl
  · exact congrArg (fun ch => out ++ [ch]) (htail 4 (by decide))
  · exact congrArg (fun ch => out ++ [ch]) (htail 6 (by decide))

/-- The encoder of the handler model is the one of the source. -/
theorem base64EncodeInt32_eq (data : Bytes) : base64EncodeInt32 data = base64Encode data := by
  obtain ⟨hfold, hset⟩ := foldl_push_toSextets data (s := {}) (.inl rfl)
  have hstart : ({} : Sextets) = Base64.toSextets {} := rfl
  simp only [base64EncodeInt32, base64Encode, hstart, hfold, tail_toSextets hset, padFour_eq]

theorem base64Char_symbol {n k : ℕ} (h : n % 64 = k) : base64Char n = Base64Codec.symbol k := by
  rw [base64Char, h]
  rfl

theorem push_first (out : List Char) (val : ℕ) (a : UInt8) :
    Base64.push ⟨out, val, 0⟩ a =
      ⟨out ++ [Base64Codec.symbol (a.toNat / 4)], (val * 256 + a.toNat) % 2 ^ 32, 2⟩ := by
  have ha := a.toNat_lt
  rw [← base64Char_symbol (n := (val * 256 + a.toNat) % 2 ^ 32 / 2 ^ 2) (by omega)]
  rfl

theorem push_second (out : List Char) (val : ℕ) (a b : UInt8) (h : val % 256 = a.toNat) :
    Base64.push ⟨out, val, 2⟩ b =
      ⟨out ++ [Base64Codec.symbol (a.toNat % 4 * 16 + b.toNat / 16)],
        (val * 256 + b.toNat) % 2 ^ 32, 4⟩ := by
  have hb := b.toNat_lt
  rw [← base64Char_symbol (n := (val * 256 + b.toNat) % 2 ^ 32 / 2 ^ 4) (by omega)]
  rfl

theorem push_third (out : List Char) (val : ℕ) (b c : UInt8) (h : val % 256 = b.toNat) :
    Base64.push ⟨out, val, 4⟩ c =
      ⟨out ++ [Base64Codec.symbol (b.toNat % 16 * 4 + c.toNat / 64),
        Base64Codec.symbol (c.toNat % 64)], (val * 256 + c.toNat) % 2 ^ 32, 0⟩ := by
  have hc := c.toNat_lt
  rw [← base64Char_symbol (n := (val * 256 + c.toNat) % 2 ^ 32 / 2 ^ 6) (by omega),
    ← base64Char_symbol (n := (val * 256 + c.toNat) % 2 ^ 32 / 2 ^ 0) (by omega)]
  rfl

theorem low_byte (val : ℕ) (a : UInt8) : (val * 256 + a.toNat) % 2 ^ 32 % 256 = a.toNat := by
  have ha := a.toNat_lt
  omega

def Base64.close (s : Base64) : List Char :=
  let out := if s.waiting = 0 then s.out
    else s.out ++ [base64Char (s.val * 256 % 2 ^ 32 / 2 ^ (s.waiting + 2))]
  out ++ List.replicate ((4 - out.length % 4) % 4) '='

theorem close_zero {out : List Char} (h : out.length % 4 = 0) (val : ℕ) :
    Base64.close ⟨out, val, 0⟩ = out := by
  simp [Base64.close, h]

theorem close_tail {out : List Char} {val waiting k n : ℕ} (hw : waiting ≠ 0)
    (hk : val * 256 % 2 ^ 32 / 2 ^ (waiting + 2) % 64 = k)
    (hn : (4 - (out.length + 1) % 4) % 4 = n) :
    Base64.close ⟨out, val, waiting⟩ = out ++ Base64Codec.symbol k :: List.replicate n '=' := by
  have hlen : (out ++ [base64Char (val * 256 % 2 ^ 32 / 2 ^ (waiting + 2))]).length =
      out.length + 1 := by simp
  simp only [Base64.close, if_neg hw]
  rw [hlen, hn, base64Char_symbol hk, List.append_assoc, List.singleton_append]

theorem foldl_push_close (data : Bytes) {out : List Char} (h : out.length % 4 = 0) (val : ℕ) :
    (data.foldl Base64.push ⟨out, val, 0⟩).close = out ++ Base64Codec.encode data := by
  induction data using Base64Codec.encode.induct generalizing out val with
  | case1 => exact (close_zero h val).trans (List.append_nil out).symm
  | case2 a =>
    have ha := low_byte val a
    rw [List.foldl_cons, List.foldl_nil, push_first,
      close_tail (k := a.toNat % 4 * 16) (n := 2) (by decide) (by omega) (by simp; omega)]
    exact List.append_assoc _ _ _
  | case3 a b =>
    have ha := low_byte val a
    have hb := low_byte ((val * 256 + a.toNat) % 2 ^ 32) b
    rw [List.foldl_cons, List.foldl_cons, List.foldl_nil, push_first, push_second _ _ a b ha,
      close_tail (k := b.toNat % 16 * 4) (n := 1) (by decide) (by omega) (by simp; omega)]
    simp only [Base64Codec.encode, List.append_assoc]
    rfl
  | case4 a b c data ih =>
    have ha := low_byte val a
    have hb := low_byte ((val * 256 + a.toNat) % 2 ^ 32) b
    rw [List.foldl_cons, List.foldl_cons, List.foldl_cons, push_first, push_second _ _ a b ha,
      push_third _ _ b c hb, ih (by simp [h]), Base64Codec.encode]
    simp

theorem base64Encode_eq_encode (data : Bytes) :
    base64Encode data = String.ofList (Base64Codec.encode data) :=
  congrArg String.ofList (foldl_push_close data (show ([] : List Char).length % 4 = 0 from rfl) 0)

theorem base64_standard (data : Bytes) :
    (base64EncodeInt32 data).toList = Base64Codec.encode data ∧
      (base64EncodeInt32 data).length = 4 * (data.length ⌈/⌉ 3) ∧
      (∃ body pad, (base64EncodeInt32 data).toList = body ++ List.replicate pad '=' ∧ pad ≤ 2 ∧
        ∀ ch ∈ body, ch ∈ base64Table.toList ∧ ch ≠ '=') ∧
      Base64Codec.decode (base64EncodeInt32 data).toList = some data := by
  have hchars : (base64EncodeInt32 data).toList = Base64Codec.encode data := by
    rw [base64EncodeInt32_eq, base64Encode_eq_encode, String.toList_ofList]
  refine ⟨hchars, ?_, ?_, ?_⟩
  · rw [← String.length_toList, hchars, Base64Codec.length_encode]
  · obtain ⟨body, hbody, hmem⟩ := Base64Codec.encode_eq_body_pad data
    refine ⟨body, _, hchars.trans hbody, by omega, fun ch hch => ⟨hmem ch hch, ?_⟩⟩
    exact ne_of_mem_of_not_mem (hmem ch hch) Base64Codec.pad_not_mem
  · rw [hchars, Base64Codec.decode_encode]

end EcidsCore
