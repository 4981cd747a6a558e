import EcidsCore.WssServer

set_option autoImplicit false

/-! The messages of a connection as a function of its bytes, and when `recv_ws_text_`
finds them. -/
namespace EcidsCore
open BigEndian SegmentedStream WebSocketFrame

namespace WssServer

def extWidth (h1 : UInt8) : ℕ :=
  if (h1 &&& 0x7F).toNat = 126 then 2 else if (h1 &&& 0x7F).toNat = 127 then 8 else 0

def maskWidth (h1 : UInt8) : ℕ := if isMasked h1 then 4 else 0

def lengthOf (h1 : UInt8) (b : Bytes) : ℕ :=
  if extWidth h1 = 0 then (h1 &&& 0x7F).toNat else value (b.take (extWidth h1))

def decodeMessage : Bytes → Bytes × Bytes
  | _ :: h1 :: b =>
    let len := lengthOf h1 b
    let key := (b.drop (extWidth h1)).take (maskWidth h1)
    let body := (b.drop (extWidth h1)).drop (maskWidth h1)
    if b.length < extWidth h1 ∨ len = 0 ∨ 1024 * 1024 < len ∨ body.length < len then ([], [])
    else (if isMasked h1 then applyMask key (body.take len) else body.take len, body.drop len)
  | _ => ([], [])

variable {uninit : List Bytes → ℕ → UInt8}

def WholeHead (uninit : List Bytes → ℕ → UInt8) (cs : List Bytes) : Prop :=
  Whole 2 cs ∧ ∀ h0 h1, (read 2 cs).1 = [h0, h1] →
    Whole (extWidth h1) (read 2 cs).2 ∧
      Whole (maskWidth h1) (recvLength uninit h1 (read 2 cs).2).2

theorem recvLength_eq (h1 : UInt8) (cs : List Bytes) :
    recvLength uninit h1 cs =
      if extWidth h1 = 0 then ((h1 &&& 0x7F).toNat, cs)
      else
        (value (readInto ((List.range (extWidth h1)).map (uninit cs)) cs).1,
          (readInto ((List.range (extWidth h1)).map (uninit cs)) cs).2) := by
  unfold recvLength extWidth
  by_cases h126 : (h1 &&& 0x7F).toNat = 126
  · simp only [h126, if_true]
    rfl
  · by_cases h127 : (h1 &&& 0x7F).toNat = 127
    · simp only [h127, if_true]
      rfl
    · simp only [if_neg h126, if_neg h127, if_true]

theorem recvLength_whole {h1 : UInt8} {cs : List Bytes} {b : Bytes} (h : Splits cs b)
    (hw : Whole (extWidth h1) cs) :
    Splits (recvLength uninit h1 cs).2 (b.drop (extWidth h1)) ∧
      (extWidth h1 ≤ b.length → (recvLength uninit h1 cs).1 = lengthOf h1 b) := by
  rw [recvLength_eq, lengthOf]
  by_cases hz : extWidth h1 = 0
  · rw [if_pos hz, if_pos hz, hz]
    exact ⟨h, fun _ => rfl⟩
  · have hbuf : ((List.range (extWidth h1)).map (uninit cs)).length = extWidth h1 := by simp
    rw [if_neg hz, if_neg hz]
    rw [← hbuf] at hw
    have hrest := (h.read hw).2
    rw [hbuf] at hrest
    refine ⟨?_, ?_⟩
    · change Splits (read ((List.range (extWidth h1)).map (uninit cs)).length cs).2 _
      rwa [hbuf]
    · intro hlen
      have hext := readInto_whole h hw (by rwa [hbuf])
      rw [hbuf] at hext
      exact congrArg value hext

theorem recvMask_whole {h1 : UInt8} {cs : List Bytes} {b : Bytes} (h : Splits cs b)
    (hw : Whole (maskWidth h1) cs) :
    Splits (recvMask h1 cs).2 (b.drop (maskWidth h1)) ∧
      (isMasked h1 → maskWidth h1 ≤ b.length → (recvMask h1 cs).1 = b.take (maskWidth h1)) := by
  unfold maskWidth recvMask at *
  split_ifs at hw ⊢ with hm
  · exact ⟨(h.read hw).2, fun _ hlen => readInto_whole h hw hlen⟩
  · exact ⟨h, fun hm' => absurd hm' hm⟩

theorem recvPayload_short {h1 : UInt8} {mask : Bytes} {len : ℕ} {cs : List Bytes} {b : Bytes}
    (h : Splits cs b) (hlen : b.length < len ∨ len = 0) :
    (recvPayload h1 mask len cs).1 = [] := by
  have hfill := fill_splits (n := len) h
  unfold recvPayload
  split
  · rfl
  · rcases hlen with hlen | rfl
    · rw [if_neg (by omega)] at hfill
      rw [hfill]
    · rw [fill]
      change (if isMasked h1 then applyMask mask [] else []) = []
      split <;> rfl

theorem recvPayload_full {h1 : UInt8} {mask : Bytes} {len : ℕ} {cs : List Bytes} {b : Bytes}
    (h : Splits cs b) (hlen : len ≤ b.length) (hmax : len ≤ 1024 * 1024) :
    (recvPayload h1 mask len cs).1 =
        (if isMasked h1 then applyMask mask (b.take len) else b.take len) ∧
      Splits (recvPayload h1 mask len cs).2 (b.drop len) := by
  have hfill := fill_splits (n := len) h
  rw [if_pos hlen] at hfill
  obtain ⟨rest, hfill, hrest⟩ := hfill
  rw [recvPayload, if_neg (by omega), hfill]
  exact ⟨rfl, hrest⟩

/-- A call whose reads of the head come whole finds the message that the bytes hold. -/
theorem recvWsText_whole {cs : List Bytes} {b : Bytes} (h : Splits cs b)
    (hw : WholeHead uninit cs) :
    (recvWsText uninit cs).1 = (decodeMessage b).1 ∧
      ((recvWsText uninit cs).1 ≠ [] → Splits (recvWsText uninit cs).2 (decodeMessage b).2) := by
  obtain ⟨hw2, hhead⟩ := hw
  obtain ⟨hgot, hrest⟩ := h.read hw2
  unfold recvWsText
  match b with
  | [] | [_] =>
    have hpair : read 2 cs = ((read 2 cs).1, (read 2 cs).2) := rfl
    rw [hpair, hgot]
    exact ⟨rfl, fun hne => absurd rfl hne⟩
  | h0 :: h1 :: b =>
    replace hrest : Splits (read 2 cs).2 b := hrest
    obtain ⟨hwl, hwm⟩ := hhead h0 h1 hgot
    have hpair : read 2 cs = ([h0, h1], (read 2 cs).2) := Prod.ext hgot rfl
    obtain ⟨hsl, hlen⟩ := @recvLength_whole uninit h1 _ _ hrest hwl
    obtain ⟨hsm, hmask⟩ := recvMask_whole hsl hwm
    rw [hpair, decodeMessage]
    dsimp only
    by_cases hnone : b.length < extWidth h1 ∨ lengthOf h1 b = 0 ∨ 1024 * 1024 < lengthOf h1 b ∨
        ((b.drop (extWidth h1)).drop (maskWidth h1)).length < lengthOf h1 b
    · rw [if_pos hnone]
      have hempty : (recvPayload h1 (recvMask h1 (recvLength uninit h1 (read 2 cs).2).2).1
          (recvLength uninit h1 (read 2 cs).2).1
          (recvMask h1 (recvLength uninit h1 (read 2 cs).2).2).2).1 = [] := by
        by_cases hext : b.length < extWidth h1
        · -- the stream ends within the extended length, so no payload byte is left
          refine recvPayload_short hsm ?_
          rw [List.length_drop, List.length_drop]
          omega
        · rw [hlen (by simpa using hext)]
          rcases hnone with h | h | h | h
          · exact absurd h hext
          · exact recvPayload_short hsm (.inr h)
          · rw [recvPayload, if_pos h]
          · exact recvPayload_short hsm (.inl h)
      exact ⟨hempty, fun hne => absurd hempty hne⟩
    · rw [if_neg hnone]
      obtain ⟨hext, hzero, hmax, hbody⟩ : ¬ b.length < extWidth h1 ∧ ¬ lengthOf h1 b = 0 ∧
          ¬ 1024 * 1024 < lengthOf h1 b ∧
          ¬ ((b.drop (extWidth h1)).drop (maskWidth h1)).length < lengthOf h1 b := by
        simpa only [not_or] using hnone
      have hle : lengthOf h1 b ≤ ((b.drop (extWidth h1)).drop (maskWidth h1)).length := by omega
      obtain ⟨hmsg, hsplit⟩ := @recvPayload_full h1
        (recvMask h1 (recvLength uninit h1 (read 2 cs).2).2).1 _ _ _ hsm hle (by omega)
      rw [hlen (by omega)]
      refine ⟨?_, fun _ => hsplit⟩
      rw [hmsg]
      by_cases hm : isMasked h1
      · rw [List.length_drop] at hbody
        rw [hmask hm (by omega)]
      · rw [if_neg hm, if_neg hm]

theorem flagged_bits : ∀ (flag : Bool) (code : Fin 128),
    ((UInt8.ofNat ((if flag then 128 else 0) + code) &&& 0x7F).toNat = code) ∧
      isMasked (UInt8.ofNat ((if flag then 128 else 0) + code)) = flag := by
  decide

theorem extWidth_of_code {n code : ℕ} {ext : Bytes} (hl : LengthField n code ext) {h1 : UInt8}
    (h : (h1 &&& 0x7F).toNat = code) : extWidth h1 = ext.length := by
  unfold extWidth
  rw [h]
  cases hl with
  | short hn => rw [if_neg (by omega), if_neg (by omega)]; rfl
  | medium hext hv => exact hext.symm
  | long hext hv hn => exact hext.symm

theorem lengthOf_field {n code : ℕ} {ext r : Bytes} (hl : LengthField n code ext) {h1 : UInt8}
    (h : (h1 &&& 0x7F).toNat = code) : lengthOf h1 (ext ++ r) = n := by
  rw [lengthOf, extWidth_of_code hl h, h, List.take_left]
  cases hl with
  | short hn => rfl
  | medium hext hv => rw [if_neg (by omega), hv]
  | long hext hv hn => rw [if_neg (by omega), hv]

theorem decodeMessage_spells {f : Frame} {a : Bytes} (hf : Spells f a) (hpos : f.payload ≠ [])
    (hmax : f.payload.length ≤ 1024 * 1024) (rest : Bytes) :
    decodeMessage (a ++ rest) = (f.payload, rest) := by
  obtain ⟨hmask, code, ext, hl, rfl⟩ := hf
  obtain ⟨hcode, hm⟩ := flagged_bits f.mask.isSome ⟨code, hl.code_lt⟩
  have hlen : f.payload.length ≠ 0 := by simpa using hpos
  have hsecond : UInt8.ofNat (f.secondByte code) =
    UInt8.ofNat ((if f.mask.isSome then 128 else 0) + code) := rfl
  simp only [List.cons_append, List.append_assoc, decodeMessage, hsecond]
  generalize UInt8.ofNat ((if f.mask.isSome then 128 else 0) + code) = h1 at hcode hm
  rw [lengthOf_field hl hcode, extWidth_of_code hl hcode, List.drop_left, maskWidth, hm]
  cases hkey : f.mask with
  | none =>
    have hbody : f.body = f.payload := by rw [Frame.body, hkey]
    rw [hbody]
    simp only [Option.isSome_none, Bool.false_eq_true, if_false, List.drop_zero]
    rw [if_neg (by simp only [List.length_append]; omega), List.take_left, List.drop_left]
  | some key =>
    have hbody : f.body = key ++ applyMask key f.payload := by rw [Frame.body, hkey]
    have hk : key.length = 4 := hmask key hkey
    rw [hbody]
    simp only [Option.isSome_some, if_true, List.append_assoc]
    rw [← hk, List.drop_left, List.take_left,
      if_neg (by simp only [List.length_append, length_applyMask]; omega),
      List.take_left' (length_applyMask key f.payload),
      List.drop_left' (length_applyMask key f.payload), applyMask_applyMask]

theorem sent_frame (op : Fin 16) {payload : Bytes} (h : payload.length < 2 ^ 31 - 14) :
    ∃ frame, Shortest ⟨true, op, none, payload⟩ frame ∧
      (∀ f, Spells f frame → f = ⟨true, op, none, payload⟩) ∧
      ∀ accepts, (writeFrom (frameBytes (UInt8.ofNat (128 + op)) payload) 0 accepts).1 <+: frame ∧
        ((writeFrom (frameBytes (UInt8.ofNat (128 + op)) payload) 0 accepts).2 = true →
          (writeFrom (frameBytes (UInt8.ofNat (128 + op)) payload) 0 accepts).1 = frame) ∧
        ((∀ a ∈ accepts, 0 < a) → frame.length ≤ accepts.length →
          (writeFrom (frameBytes (UInt8.ofNat (128 + op)) payload) 0 accepts).2 = true) := by
  have hshort := frameBytes_shortest op (lt_trans h (by decide))
  refine ⟨frameBytes (UInt8.ofNat (128 + op)) payload, hshort, ?_, ?_⟩
  · intro f hf
    have heq : frameBytes (UInt8.ofNat (128 + op)) payload ++ [] =
      frameBytes (UInt8.ofNat (128 + op)) payload ++ [] := rfl
    exact (hf.unique hshort.1 heq).1
  · intro accepts
    have hsize : (frameBytes (UInt8.ofNat (128 + op)) payload).length < 2 ^ 31 := by
      have hle := length_frameBytes_le (UInt8.ofNat (128 + op)) payload
      omega
    have hspec := writeFrom_spec hsize accepts (Nat.zero_le _)
    rwa [List.drop_zero, Nat.zero_add] at hspec

def senders : List ((Bytes → List ℕ → Bytes × Bool) × Fin 16) :=
  [(sendWsText, 1), (sendWsBinary, 2)]

/-- What is sent is one frame, and a frame that is received gives its payload. -/
theorem frames_exact :
    (∀ send ∈ senders, ∀ payload : Bytes, payload.length < 2 ^ 31 - 14 →
      ∃ frame, Shortest ⟨true, send.2, none, payload⟩ frame ∧
        (∀ f, Spells f frame → f = ⟨true, send.2, none, payload⟩) ∧
        ∀ accepts, (send.1 payload accepts).1 <+: frame ∧
          ((send.1 payload accepts).2 = true → (send.1 payload accepts).1 = frame) ∧
          ((∀ a ∈ accepts, 0 < a) → frame.length ≤ accepts.length →
            (send.1 payload accepts).2 = true)) ∧
    ∀ (f : Frame) (frame rest : Bytes), Spells f frame → 1 ≤ f.payload.length →
      f.payload.length ≤ 1048576 →
      ∀ (uninit : List Bytes → ℕ → UInt8) (cs : List Bytes), Splits cs (frame ++ rest) →
        WholeHead uninit cs →
        (recvWsText uninit cs).1 = f.payload ∧ Splits (recvWsText uninit cs).2 rest := by
  refine ⟨?_, ?_⟩
  · intro send hsend payload hlen
    simp only [senders, List.mem_cons, List.not_mem_nil, or_false] at hsend
    rcases hsend with rfl | rfl
    · exact sent_frame 1 hlen
    · exact sent_frame 2 hlen
  · intro f frame rest hf hpos hmax uninit cs hs hw
    have hne : f.payload ≠ [] := List.ne_nil_of_length_pos hpos
    obtain ⟨hmsg, hrest⟩ := recvWsText_whole hs hw
    rw [decodeMessage_spells hf hne hmax] at hmsg hrest
    exact ⟨hmsg, hrest (by rw [hmsg]; exact hne)⟩

def WholeCalls (uninit : List Bytes → ℕ → UInt8) : ℕ → List Bytes → Prop
  | 0, _ => True
  | k + 1, cs => WholeHead uninit cs ∧
    ((recvWsText uninit cs).1 ≠ [] → WholeCalls uninit k (recvWsText uninit cs).2)

def decodeMessages : ℕ → Bytes → List Bytes
  | 0, _ => []
  | k + 1, b =>
    if (decodeMessage b).1 = [] then []
    else (decodeMessage b).1 :: decodeMessages k (decodeMessage b).2

theorem received_whole {k : ℕ} {cs : List Bytes} {b : Bytes} (h : Splits cs b)
    (hw : WholeCalls uninit k cs) : received uninit k cs = decodeMessages k b := by
  induction k generalizing cs b with
  | zero => rfl
  | succ k ih =>
    obtain ⟨hhead, hnext⟩ := hw
    obtain ⟨hmsg, hrest⟩ := recvWsText_whole h hhead
    rw [received, decodeMessages, ← hmsg]
    dsimp only
    by_cases hne : (recvWsText uninit cs).1 = []
    · rw [if_pos hne, if_pos hne]
    · rw [if_neg hne, if_neg hne, ih (hrest hne) (hnext hne)]

theorem received_of_empty {cs : List Bytes} (h : (recvWsText uninit cs).1 = []) (k : ℕ) :
    received uninit k cs = [] := by
  cases k with
  | zero => rfl
  | succ k =>
    rw [received]
    exact if_pos h

theorem exists_silent (b : Bytes) :
    ∃ cs, Splits cs b ∧ ∀ uninit k, received uninit k cs = [] := by
  match b with
  | [] => exact ⟨[], ⟨rfl, List.not_mem_nil⟩, fun _ _ => received_of_empty rfl _⟩
  | [x] => exact ⟨[[x]], ⟨rfl, by simp⟩, fun _ _ => received_of_empty rfl _⟩
  | x :: y :: b =>
    refine ⟨[[x], y :: b], ⟨by simp, by simp⟩, ?_⟩
    intro uninit k
    exact received_of_empty rfl k

/-- Two ways of handing a stream over give the same messages when they do not split the
heads of its frames. All ways together agree only on a stream that gives no message. -/
theorem received_segmentation (b : Bytes) :
    (∀ cs cs' : List Bytes, Splits cs b → Splits cs' b →
      ∀ (uninit uninit' : List Bytes → ℕ → UInt8) (k : ℕ),
        WholeCalls uninit k cs → WholeCalls uninit' k cs' →
        received uninit k cs = received uninit' k cs') ∧
    ((∀ cs cs' : List Bytes, Splits cs b → Splits cs' b →
      ∀ (uninit uninit' : List Bytes → ℕ → UInt8) (k : ℕ),
        received uninit k cs = received uninit' k cs') ↔
      ∀ cs : List Bytes, Splits cs b → ∀ uninit k, received uninit k cs = []) := by
  constructor
  · intro cs cs' h h' uninit uninit' k hw hw'
    rw [received_whole h hw, received_whole h' hw']
  · constructor
    · intro hall cs h uninit k
      obtain ⟨cs', h', hsilent⟩ := exists_silent b
      rw [hall cs cs' h h' uninit uninit k, hsilent]
    · intro hnone cs cs' h h' uninit uninit' k
      rw [hnone cs h, hnone cs' h']

/-- A masked text frame: handed over at once it is the message; with the first byte
alone there is none, and with the mask cut it is another one. -/
theorem split_counterexample :
    received (fun _ _ => 0) 3 [[0x81, 0x82, 1, 2, 3, 4, 0x69, 0x6B]] = [[0x68, 0x69]] ∧
      received (fun _ _ => 0) 3 [[0x81], [0x82, 1, 2, 3, 4, 0x69, 0x6B]] = [] ∧
      received (fun _ _ => 0) 3 [[0x81, 0x82], [1], [2, 3, 4, 0x69, 0x6B]] = [[3, 3]] := by
  decide

end WssServer

end EcidsCore
