import EcidsCore.JsonText
import EcidsCore.SegmentedStream
import EcidsCore.WebSocketFrame

set_option autoImplicit false

/-! The WebSocket server: the frames it writes, the messages it reads, and the payload
of a binary broadcast. -/
namespace EcidsCore
open BigEndian SegmentedStream WebSocketFrame

namespace WssServer

/-- The vector `frame` of the two senders; `first` holds the final bit and the opcode. -/
def frameBytes (first : UInt8) (payload : Bytes) : Bytes :=
  let len := payload.length
  first ::
    (if len ≤ 125 then [UInt8.ofNat len]
      else if len ≤ 65535 then 126 :: encode 2 len
      else 127 :: encode 8 len) ++ payload

/-- The write loop behind `total` bytes: what it hands over and whether it returns true.
The list holds what the connection takes at each call; a call that takes nothing fails. -/
def writeFrom (frame : Bytes) (total : ℕ) : List ℕ → Bytes × Bool
  | [] => ([], Json.toInt32 frame.length ≤ total)
  | a :: accepts =>
    if Json.toInt32 frame.length ≤ total then ([], true)
    else
      let n := min a (Json.toInt32 frame.length - total).toNat
      if n = 0 then ([], false)
      else
        let (sent, done) := writeFrom frame (total + n) accepts
        ((frame.drop total).take n ++ sent, done)

def sendWsText (text : Bytes) (accepts : List ℕ) : Bytes × Bool :=
  writeFrom (frameBytes 0x81 text) 0 accepts

def sendWsBinary (data : Bytes) (accepts : List ℕ) : Bytes × Bool :=
  writeFrom (frameBytes 0x82 data) 0 accepts

section Receive

-- `uninit cs` is what a local buffer that is not initialised holds when `cs` is left to read.
variable (uninit : List Bytes → ℕ → UInt8)

def recvLength (h1 : UInt8) (cs : List Bytes) : ℕ × List Bytes :=
  let len := (h1 &&& 0x7F).toNat
  if len = 126 then
    let (ext, cs) := readInto ((List.range 2).map (uninit cs)) cs
    (value ext, cs)
  else if len = 127 then
    let (ext, cs) := readInto ((List.range 8).map (uninit cs)) cs
    (value ext, cs)
  else (len, cs)

def isMasked (h1 : UInt8) : Bool := h1 &&& 0x80 ≠ 0

def recvMask (h1 : UInt8) (cs : List Bytes) : Bytes × List Bytes :=
  if isMasked h1 then readInto [0, 0, 0, 0] cs else ([0, 0, 0, 0], cs)

def recvPayload (h1 : UInt8) (mask : Bytes) (len : ℕ) (cs : List Bytes) : Bytes × List Bytes :=
  if 1024 * 1024 < len then ([], cs)
  else
    match fill len cs with
    | none => ([], [])
    | some (payload, cs) => (if isMasked h1 then applyMask mask payload else payload, cs)

def recvWsText (cs : List Bytes) : Bytes × List Bytes :=
  match read 2 cs with
  | ([_, h1], cs) =>
    let (len, cs) := recvLength uninit h1 cs
    let (mask, cs) := recvMask h1 cs
    recvPayload h1 mask len cs
  | (_, cs) => ([], cs)

/-- The messages of the first calls that `client_loop_` makes; an empty one ends it. -/
def received : ℕ → List Bytes → List Bytes
  | 0, _ => []
  | k + 1, cs =>
    let (msg, rest) := recvWsText uninit cs
    if msg = [] then [] else msg :: received k rest

end Receive

/-- The payload that `broadcast_binary` sends; the header length is cut to 16 bits. -/
def broadcastPayload (headerJson data : Bytes) : Bytes :=
  (if headerJson = [] then [] else encode 2 (headerJson.length % 2 ^ 16) ++ headerJson) ++ data

theorem toInt32_of_lt {n : ℕ} (h : n < 2 ^ 31) : Json.toInt32 n = n := by
  unfold Json.toInt32
  omega

/-- The loop hands over what is left of the frame, or returns false behind a part of it. -/
theorem writeFrom_spec {frame : Bytes} (hlen : frame.length < 2 ^ 31) (accepts : List ℕ)
    {total : ℕ} (ht : total ≤ frame.length) :
    (writeFrom frame total accepts).1 <+: frame.drop total ∧
      ((writeFrom frame total accepts).2 = true →
        (writeFrom frame total accepts).1 = frame.drop total) ∧
      ((∀ a ∈ accepts, 0 < a) → frame.length ≤ total + accepts.length →
        (writeFrom frame total accepts).2 = true) := by
  induction accepts generalizing total with
  | nil =>
    simp only [writeFrom, toInt32_of_lt hlen, decide_eq_true_eq, Nat.cast_le, List.length_nil]
    refine ⟨List.nil_prefix, ?_, fun _ h => h⟩
    intro h
    exact (List.drop_eq_nil_of_le h).symm
  | cons a accepts ih =>
    have hsize : ((frame.length : ℤ) - total).toNat = frame.length - total := by omega
    simp only [writeFrom, toInt32_of_lt hlen, Nat.cast_le, hsize]
    by_cases hle : frame.length ≤ total
    · rw [if_pos hle, List.drop_eq_nil_of_le hle]
      exact ⟨List.prefix_rfl, fun _ => rfl, fun _ _ => rfl⟩
    · rw [if_neg hle]
      by_cases hn : min a (frame.length - total) = 0
      · rw [if_pos hn]
        refine ⟨List.nil_prefix, fun h => (Bool.false_ne_true h).elim, ?_⟩
        intro hpos
        have ha := hpos a List.mem_cons_self
        omega
      · rw [if_neg hn]
        have hnext : total + min a (frame.length - total) ≤ frame.length := by omega
        obtain ⟨hpre, hall, hdone⟩ := ih hnext
        have hsplit := List.take_append_drop (min a (frame.length - total)) (frame.drop total)
        rw [List.drop_drop] at hsplit
        refine ⟨?_, ?_, ?_⟩
        · calc (frame.drop total).take (min a (frame.length - total)) ++ _
              <+: (frame.drop total).take (min a (frame.length - total)) ++ _ :=
                (List.prefix_append_right_inj _).2 hpre
            _ = frame.drop total := hsplit
        · intro h
          rw [hall h]
          exact hsplit
        · intro hpos hlong
          rw [List.length_cons] at hlong
          exact hdone (fun b hb => hpos b (List.mem_cons_of_mem a hb)) (by omega)

theorem length_frameBytes_le (first : UInt8) (payload : Bytes) :
    (frameBytes first payload).length ≤ payload.length + 10 := by
  unfold frameBytes
  dsimp only
  split_ifs <;> simp only [List.cons_append, List.nil_append, List.length_cons,
    List.length_append, length_encode] <;> omega

theorem frameBytes_shortest (op : Fin 16) {payload : Bytes} (h : payload.length < 2 ^ 63) :
    Shortest ⟨true, op, none, payload⟩ (frameBytes (UInt8.ofNat (128 + op)) payload) := by
  have hmask : ∀ key ∈ (none : Option Bytes), key.length = 4 := by
    intro key hkey
    cases hkey
  unfold frameBytes
  simp only
  split_ifs with h1 h2
  · have hs := shortest_of_code (f := ⟨true, op, none, payload⟩) (n := payload.length) hmask rfl
      (.short h1) (by omega) (by omega)
    simpa [Frame.firstByte, Frame.secondByte, Frame.body] using hs
  · refine shortest_of_code (f := ⟨true, op, none, payload⟩) (n := payload.length) hmask rfl
      (.medium (length_encode 2 _) (value_encode_of_lt ?_)) (fun _ => by omega) (by omega)
    omega
  · refine shortest_of_code (f := ⟨true, op, none, payload⟩) (n := payload.length) hmask rfl
      (.long (length_encode 8 _) (value_encode_of_lt ?_) h) (by omega) (fun _ => by omega)
    omega

def splitBroadcast (p : Bytes) : Option (Bytes × Bytes) :=
  let rest := p.drop 2
  let len := value (p.take 2)
  if p.length < 2 ∨ rest.length < len then none else some (rest.take len, rest.drop len)

theorem splitBroadcast_payload {header : Bytes} (hne : header ≠ []) (hlen : header.length ≤ 65535)
    (data : Bytes) : splitBroadcast (broadcastPayload header data) = some (header, data) := by
  have hmod : header.length % 2 ^ 16 = header.length := Nat.mod_eq_of_lt (by omega)
  have htwo : (encode 2 header.length).length = 2 := length_encode 2 _
  rw [broadcastPayload, if_neg hne, hmod, List.append_assoc, splitBroadcast,
    List.take_left' htwo, List.drop_left' htwo, value_encode_of_lt (by omega)]
  rw [if_neg (by simp only [List.length_append]; omega), List.take_left, List.drop_left]

/-- Header and data can be told from the payload, where the header is not empty and fits the
length field; without a header the payload is the data. -/
theorem broadcast_determined (header data : Bytes) (hne : header ≠ [])
    (hlen : header.length ≤ 65535) :
    splitBroadcast (broadcastPayload header data) = some (header, data) ∧
      (∀ header' data', header' ≠ [] → header'.length ≤ 65535 →
        broadcastPayload header' data' = broadcastPayload header data →
        header' = header ∧ data' = data) ∧
      broadcastPayload [] data = data := by
  refine ⟨splitBroadcast_payload hne hlen data, ?_, rfl⟩
  intro header' data' hne' hlen' heq
  have hsplit := splitBroadcast_payload hne' hlen' data'
  rw [heq, splitBroadcast_payload hne hlen data] at hsplit
  cases hsplit
  exact ⟨rfl, rfl⟩

theorem broadcast_determined_small :
    splitBroadcast (broadcastPayload [0x7B, 0x7D] [1, 2, 3]) = some ([0x7B, 0x7D], [1, 2, 3]) :=
  (broadcast_determined [0x7B, 0x7D] [1, 2, 3] (by decide) (by decide)).1

/-- Data without a header can look like a header with data, and the length of a long
header is cut. -/
theorem broadcast_counterexample :
    broadcastPayload [] [0, 1, 65, 7] = broadcastPayload [65] [7] ∧
      splitBroadcast (broadcastPayload [] [0, 1, 65, 7]) ≠ some ([], [0, 1, 65, 7]) ∧
      splitBroadcast (broadcastPayload (List.replicate 65536 65) []) =
        some ([], List.replicate 65536 65) := by
  refine ⟨by decide, by decide, ?_⟩
  have hne : List.replicate 65536 (65 : UInt8) ≠ [] := by
    rw [Ne, List.replicate_eq_nil_iff]
    omega
  have htwo : (encode 2 (65536 % 2 ^ 16)).length = 2 := length_encode 2 _
  rw [broadcastPayload, if_neg hne, List.length_replicate, List.append_nil, splitBroadcast,
    List.take_left' htwo, List.drop_left' htwo, value_encode]
  rw [if_neg (by simp only [List.length_append, htwo]; omega)]
  rfl

end WssServer

end EcidsCore
