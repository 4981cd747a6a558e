import EcidsCore.DigitOrder

set_option autoImplicit false

/-! The base framing of the WebSocket protocol: which byte strings spell a frame. -/
namespace WebSocketFrame
open BigEndian

structure Frame where
  fin : Bool
  opcode : Fin 16
  mask : Option (List UInt8)
  payload : List UInt8
deriving DecidableEq, Repr

/-- The seven-bit code of a payload length, and the extended length behind it. -/
inductive LengthField : ℕ → ℕ → List UInt8 → Prop
  | short {n : ℕ} (h : n ≤ 125) : LengthField n n []
  | medium {n : ℕ} {ext : List UInt8} (h : ext.length = 2) (hv : value ext = n) :
    LengthField n 126 ext
  | long {n : ℕ} {ext : List UInt8} (h : ext.length = 8) (hv : value ext = n) (hn : n < 2 ^ 63) :
    LengthField n 127 ext

/-- Masking and unmasking with a key of four bytes. -/
def applyMask (key payload : List UInt8) : List UInt8 :=
  payload.mapIdx fun i b => b ^^^ key.getD (i % 4) 0

def Frame.firstByte (f : Frame) : ℕ := (if f.fin then 128 else 0) + f.opcode

def Frame.secondByte (f : Frame) (code : ℕ) : ℕ := (if f.mask.isSome then 128 else 0) + code

def Frame.body (f : Frame) : List UInt8 :=
  match f.mask with
  | none => f.payload
  | some key => key ++ applyMask key f.payload

structure Spells (f : Frame) (b : List UInt8) : Prop where
  mask : ∀ key ∈ f.mask, key.length = 4
  bytes : ∃ code ext, LengthField f.payload.length code ext ∧
    b = UInt8.ofNat f.firstByte :: UInt8.ofNat (f.secondByte code) :: ext ++ f.body

/-- The frame is spelled with as few bytes as any. -/
def Shortest (f : Frame) (b : List UInt8) : Prop := Spells f b ∧ ∀ b', Spells f b' → b.length ≤ b'.length

@[simp] theorem length_applyMask (key payload : List UInt8) :
    (applyMask key payload).length = payload.length := List.length_mapIdx

theorem applyMask_applyMask (key payload : List UInt8) :
    applyMask key (applyMask key payload) = payload := by
  rw [applyMask, applyMask, List.mapIdx_mapIdx]
  refine (List.mapIdx_eq_iff.2 ?_)
  intro i
  cases payload[i]? with
  | none => rfl
  | some b => simp only [Option.map_some, Function.comp_apply, UInt8.xor_assoc, UInt8.xor_self, UInt8.xor_zero]

theorem LengthField.code_lt {n code : ℕ} {ext : List UInt8} (h : LengthField n code ext) :
    code < 128 := by
  cases h <;> omega

theorem LengthField.unique {n m code : ℕ} {ext ext' r r' : List UInt8}
    (h : LengthField n code ext) (h' : LengthField m code ext')
    (happ : ext ++ r = ext' ++ r') : n = m ∧ r = r' := by
  have hlen : ext.length = ext'.length := by
    cases h <;> cases h' <;> first | rfl | omega
  obtain ⟨rfl, rfl⟩ := List.append_inj happ hlen
  refine ⟨?_, rfl⟩
  cases h <;> cases h' <;> first | rfl | omega

theorem ofNat_inj {a b : ℕ} (ha : a < 256) (hb : b < 256) (h : UInt8.ofNat a = UInt8.ofNat b) :
    a = b := by
  have hn := congrArg UInt8.toNat h
  rwa [UInt8.toNat_ofNat', UInt8.toNat_ofNat', Nat.mod_eq_of_lt ha, Nat.mod_eq_of_lt hb] at hn

theorem Frame.firstByte_lt (f : Frame) : f.firstByte < 256 := by
  unfold Frame.firstByte
  split <;> omega

theorem Frame.secondByte_lt (f : Frame) {code : ℕ} (h : code < 128) : f.secondByte code < 256 := by
  unfold Frame.secondByte
  split <;> omega

theorem flag_inj {a b : Bool} {m n : ℕ} (hm : m < 128) (hn : n < 128)
    (h : (if a then 128 else 0) + m = (if b then 128 else 0) + n) : a = b ∧ m = n := by
  cases a <;> cases b <;> simp at h ⊢ <;> omega

theorem Frame.firstByte_inj {f g : Frame} (h : f.firstByte = g.firstByte) :
    f.fin = g.fin ∧ f.opcode = g.opcode := by
  obtain ⟨hfin, hop⟩ := flag_inj (by omega) (by omega) h
  exact ⟨hfin, Fin.ext hop⟩

theorem Spells.unique {f g : Frame} {a b r s : List UInt8} (hf : Spells f a) (hg : Spells g b)
    (h : a ++ r = b ++ s) : f = g ∧ r = s := by
  obtain ⟨code, ext, hl, rfl⟩ := hf.bytes
  obtain ⟨code', ext', hl', rfl⟩ := hg.bytes
  simp only [List.cons_append, List.cons.injEq, List.append_assoc] at h
  obtain ⟨h1, h2, happ⟩ := h
  obtain ⟨hfin, hop⟩ := Frame.firstByte_inj (ofNat_inj f.firstByte_lt g.firstByte_lt h1)
  obtain ⟨hm, rfl⟩ := flag_inj hl.code_lt hl'.code_lt
    (ofNat_inj (f.secondByte_lt hl.code_lt) (g.secondByte_lt hl'.code_lt) h2)
  obtain ⟨hn, hbody⟩ := hl.unique hl' happ
  obtain ⟨fin, op, mask, payload⟩ := f
  obtain ⟨fin', op', mask', payload'⟩ := g
  obtain rfl : fin = fin' := hfin
  obtain rfl : op = op' := hop
  cases mask with
  | none =>
    obtain rfl : mask' = none := by simpa using hm.symm
    obtain ⟨rfl, rfl⟩ := List.append_inj hbody hn
    exact ⟨rfl, rfl⟩
  | some key =>
    obtain ⟨key', rfl⟩ := Option.isSome_iff_exists.1 hm.symm
    have hk : key.length = key'.length := (hf.mask key rfl).trans (hg.mask key' rfl).symm
    simp only [Frame.body, List.append_assoc] at hbody
    obtain ⟨rfl, hbody⟩ := List.append_inj hbody hk
    obtain ⟨hp, rfl⟩ := List.append_inj hbody (by rw [length_applyMask, length_applyMask, hn])
    have hpay := congrArg (applyMask key) hp
    rw [applyMask_applyMask, applyMask_applyMask] at hpay
    exact ⟨by rw [hpay], rfl⟩

theorem shortest_of_code {f : Frame} {n code : ℕ} {ext : List UInt8}
    (hmask : ∀ key ∈ f.mask, key.length = 4) (hn : f.payload.length = n)
    (hl : LengthField n code ext) (hmin : code = 126 → 125 < n) (hmax : code = 127 → 65535 < n) :
    Shortest f
      (UInt8.ofNat f.firstByte :: UInt8.ofNat (f.secondByte code) :: ext ++ f.body) := by
  subst hn
  refine ⟨⟨hmask, code, ext, hl, rfl⟩, ?_⟩
  rintro _ ⟨-, code', ext', hl', rfl⟩
  have hext : ext.length ≤ ext'.length := by
    cases hl with
    | short h => exact Nat.zero_le _
    | medium h hv =>
      have hbig := hmin rfl
      cases hl' <;> omega
    | long h hv hn =>
      have hbig := hmax rfl
      cases hl' with
      | short h' => omega
      | medium h' hv' =>
        have hlt := value_lt ext'
        rw [h', hv'] at hlt
        omega
      | long h' hv' hn' => omega
  simp only [List.length_append, List.length_cons]
  omega

/-- A byte string that spells the frames one behind the other. -/
inductive SpellsAll : List Frame → List UInt8 → Prop
  | nil : SpellsAll [] []
  | cons {f : Frame} {fs : List Frame} {a b : List UInt8} (hf : Spells f a)
      (hfs : SpellsAll fs b) : SpellsAll (f :: fs) (a ++ b)

theorem Spells.ne_nil {f : Frame} {a : List UInt8} (h : Spells f a) : a ≠ [] := by
  obtain ⟨code, ext, -, rfl⟩ := h.bytes
  exact List.cons_ne_nil _ _

theorem SpellsAll.append_one {f : Frame} {fs : List Frame} {a b : List UInt8}
    (hfs : SpellsAll fs a) (hf : Spells f b) : SpellsAll (fs ++ [f]) (a ++ b) := by
  induction hfs with
  | nil => simpa using SpellsAll.cons hf .nil
  | cons hg _ ih =>
    rw [List.append_assoc]
    exact .cons hg ih

/-- A stream of frames can be read in one way only. -/
theorem SpellsAll.unique {fs gs : List Frame} {b : List UInt8} (hf : SpellsAll fs b)
    (hg : SpellsAll gs b) : fs = gs := by
  induction hf generalizing gs with
  | nil =>
    generalize hb : ([] : List UInt8) = b at hg
    cases hg with
    | nil => rfl
    | cons hg _ => exact absurd (List.append_eq_nil_iff.1 hb.symm).1 hg.ne_nil
  | @cons f fs a b hf _ ih =>
    generalize hb : a ++ b = c at hg
    cases hg with
    | nil => exact absurd (List.append_eq_nil_iff.1 hb).1 hf.ne_nil
    | cons hg hgs =>
      obtain ⟨rfl, rfl⟩ := hf.unique hg hb
      rw [ih hgs]

end WebSocketFrame
