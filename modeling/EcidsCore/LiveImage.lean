import EcidsCore.ImageEncoder

set_option autoImplicit false

/-! The live image of the left camera, from the callback of the subscriber to the WebSocket
clients. One thread runs the callback: the configurations name one channel of 2D images. -/
namespace EcidsCore
open GuardedRuns ByteText

structure LiveImage where
  height : ℤ
  image : Bytes
  height_pos : 0 < height
  whole : (image.length : ℤ) = 1920 * height * 4
deriving DecidableEq, Repr

namespace LiveImage

def cropHeight (h : ℤ) : ℤ := if 2400 ≤ h then h / 2 else h

theorem cropHeight_pos {h : ℤ} (hpos : 0 < h) : 0 < cropHeight h ∧ cropHeight h ≤ h := by
  unfold cropHeight
  split <;> omega

theorem whole_take {raw : Bytes} {h : ℤ} (hpos : 0 < h) (hlen : 1920 * h * 4 = raw.length) :
    ((raw.take (1920 * cropHeight h * 4).toNat).length : ℤ) = 1920 * cropHeight h * 4 := by
  have hcrop := cropHeight_pos hpos
  rw [List.length_take]
  omega

/-- The test of the frame's size in the callback; `h` is cut to an `int`. -/
def ofFrame (raw : Bytes) : Option LiveImage :=
  if raw ≠ [] ∧ raw.length % 4 = 0 then
    let h := Json.toInt32 (raw.length / (1920 * 4) : ℕ)
    if hfit : 0 < h ∧ 1920 * h * 4 = raw.length then
      some ⟨cropHeight h, raw.take (1920 * cropHeight h * 4).toNat, (cropHeight_pos hfit.1).1,
        whole_take hfit.1 hfit.2⟩
    else none
  else none

def request (l : LiveImage) : EncodeRequest where
  rawData := l.image
  width := 1920
  height := l.height
  topic := "core/live_image"
  headerJson := bytes "\x7b\"camera\":\"L\"\x7d"

/-- The arguments of `publish_binary`: channel, header and data. -/
def publication (l : LiveImage) : String × Bytes × Bytes :=
  ("Visual2D", bytes "\x7b\"camera\":\"L\",\"format\":\"BGRA\"\x7d", l.image)

theorem image_ne_nil (l : LiveImage) : l.image ≠ [] := by
  intro hnil
  have hwhole := l.whole
  have hpos := l.height_pos
  rw [hnil, List.length_nil] at hwhole
  omega

theorem request_dims (l : LiveImage) : l.request.dims = (1920, l.height) := by
  have hpos := l.height_pos
  refine if_neg fun h => h.1.elim (fun hwidth => ?_) fun hheight => ?_
  · exact absurd hwidth (by decide : ¬ (1920 : ℤ) ≤ 0)
  · exact absurd hheight (Int.not_le.2 hpos)

theorem request_fits (l : LiveImage) : l.request.Fits := by
  rw [EncodeRequest.Fits, request_dims]
  exact ⟨(by decide : (0 : ℤ) < 1920), l.height_pos, l.whole.ge⟩

end LiveImage

structure LiveFrame where
  time : ℕ
  shown : LiveImage
deriving DecidableEq, Repr

/-- `clock` counts nanoseconds; `live` logs the frames that were shown. -/
structure LiveSystem where
  clock : ℕ := 0
  lastLiveTs : Option ℕ := none
  encoder : ImageEncoder := {}
  published : List (String × Bytes × Bytes) := []
  live : List LiveFrame := []

/-- `between` is the time between the first reading of the clock, which is the first value
of the static variable, and the second. -/
inductive LiveAction where
  | tick (elapsed : ℕ)
  | frame (channel part : String) (data : Bytes) (between : ℕ)
  | encoder (a : EncoderAction)
deriving DecidableEq, Repr

def EncoderAction.isCall : EncoderAction → Bool
  | .call _ => true
  | _ => false

namespace LiveSystem

def display (s : LiveSystem) (l : LiveImage) : LiveSystem :=
  { s with
    published := s.published ++ [l.publication]
    live := s.live ++ [⟨s.clock, l⟩]
    encoder := s.encoder.call l.request }

def onFrame (s : LiveSystem) (part : String) (data : Bytes) (between : ℕ) : LiveSystem :=
  if part = "" ∨ part = "left" ∨ part = "stereo_image" then
    let last := s.lastLiveTs.getD s.clock
    let now := s.clock + between
    if 200 ≤ (now - last) / 1000000 then
      let s := { s with clock := now, lastLiveTs := some now }
      match LiveImage.ofFrame data with
      | some l => s.display l
      | none => s
    else { s with clock := now, lastLiveTs := some last }
  else s

/-- The callback thread is back from `enqueue` before the next frame. -/
def step (compress : Bytes → ℤ → ℤ → Option Bytes) (s : LiveSystem) :
    LiveAction → Option LiveSystem
  | .tick elapsed => some { s with clock := s.clock + elapsed }
  | .frame channel part data between =>
    if s.encoder.inFlight = [] then
      if channel = "stereo_image" ∨ channel = "visual_geometric_2d" then
        some (s.onFrame part data between)
      else some s
    else none
  | .encoder a =>
    if a.isCall then none
    else (s.encoder.step compress a).map fun e => { s with encoder := e }

/-- The calls of `broadcast_binary` by the callback of the encoder. -/
def broadcasts (s : LiveSystem) : List EncodeResult :=
  s.encoder.results.filter fun r => r.jpgData ≠ []

variable {compress : Bytes → ℤ → ℤ → Option Bytes} {s t : LiveSystem} {a : LiveAction}

structure Sound (compress : Bytes → ℤ → ℤ → Option Bytes) (s : LiveSystem) : Prop where
  spaced : s.live.Pairwise fun f g => f.time + 200000000 ≤ g.time
  published : s.published = s.live.map fun f => f.shown.publication
  bounded : s.encoder.queue.length ≤ 5
  requests : (s.encoder.finished.map Prod.fst).Sublist (s.live.map fun f => f.shown.request)
  noneSkipped : ∀ f ∈ s.encoder.finished, f.2 ≠ .skipped
  broadcast : (s.broadcasts.map fun r => some r.jpgData).Sublist
    (s.live.map fun f => compress f.shown.image 1920 f.shown.height)

structure Kept (compress : Bytes → ℤ → ℤ → Option Bytes) (s : LiveSystem) : Prop where
  encoder : s.encoder.Kept compress
  requests : (s.encoder.ledger.accepted ++ s.encoder.inFlight).Sublist
    (s.live.map fun f => f.shown.request)
  single : s.encoder.inFlight.length ≤ 1
  published : s.published = s.live.map fun f => f.shown.publication
  spaced : s.live.Pairwise fun f g => f.time + 200000000 ≤ g.time
  last : ∀ f ∈ s.live, ∃ last, s.lastLiveTs = some last ∧ f.time ≤ last
  clock : ∀ last ∈ s.lastLiveTs, last ≤ s.clock

/-- With one call at a time, requests enter the queue in the order of the calls. -/
theorem encoder_requests {e e' : ImageEncoder} {b : EncoderAction} (hb : b.isCall = false)
    (hone : e.inFlight.length ≤ 1) (h : e.step compress b = some e') :
    e'.ledger.accepted ++ e'.inFlight = e.ledger.accepted ++ e.inFlight ∧
      e'.inFlight.length ≤ 1 := by
  cases b <;> simp only [ImageEncoder.step] at h
  case push i =>
    split at h
    · cases h
    · rename_i r hr
      cases h
      cases hflight : e.inFlight with
      | nil =>
        rw [hflight] at hr
        cases hr
      | cons q rest =>
        rw [hflight, List.length_cons] at hone
        obtain rfl : rest = [] := List.length_eq_zero_iff.1 (by omega)
        rw [hflight] at hr
        cases i with
        | zero =>
          cases hr
          simp
        | succ i => cases hr
  case wake =>
    split at h
    · cases h
      unfold ImageEncoder.wake
      split
      · exact ⟨rfl, hone⟩
      · refine ⟨?_, hone⟩
        change (e.ledger.remove .taken).accepted ++ _ = _
        rw [FifoLedger.accepted_remove]
    · cases h
  case call r => cases hb
  case start =>
    split at h
    · cases h
    · split at h <;> cases h <;> exact ⟨rfl, hone⟩
  case callStop =>
    split at h
    · cases h
    · split at h <;> cases h <;> exact ⟨rfl, hone⟩
  case encode =>
    split at h <;> cases h
    exact ⟨rfl, hone⟩
  case test =>
    split at h <;> cases h
    exact ⟨rfl, hone⟩
  case join =>
    split at h <;> cases h
    exact ⟨rfl, hone⟩

/-- A frame that is shown follows the one before it at a distance. -/
theorem kept_display (hs : Kept compress s) (hflight : s.encoder.inFlight = []) {last now : ℕ}
    (hlast : s.lastLiveTs.getD s.clock = last) (hgap : last + 200000000 ≤ now)
    (l : LiveImage) :
    Kept compress ({ s with clock := now, lastLiveTs := some now }.display l) := by
  have hrequests := hs.requests
  rw [hflight, List.append_nil] at hrequests
  refine ⟨?_, ?_, ?_, ?_, ?_, ?_, ?_⟩
  · exact ImageEncoder.kept_step (a := .call l.request) hs.encoder rfl
  · change ((s.encoder.call l.request).ledger.accepted ++ (s.encoder.call l.request).inFlight).Sublist
      ((s.live ++ [_]).map fun f : LiveFrame => f.shown.request)
    rw [List.map_append]
    unfold ImageEncoder.call
    split
    · rw [hflight]
      exact hrequests.append_right _
    · rw [hflight, List.append_nil]
      exact hrequests.trans (List.sublist_append_left _ _)
  · change (s.encoder.call l.request).inFlight.length ≤ 1
    unfold ImageEncoder.call
    split <;> simp [hflight]
  · change s.published ++ [_] = (s.live ++ [_]).map fun f : LiveFrame => f.shown.publication
    rw [hs.published, List.map_append]
    rfl
  · change (s.live ++ [_]).Pairwise _
    rw [List.pairwise_append]
    refine ⟨hs.spaced, List.pairwise_singleton _ _, ?_⟩
    intro f hf g hg
    rw [List.mem_singleton.1 hg]
    obtain ⟨v, hv, hle⟩ := hs.last f hf
    rw [hv, Option.getD_some] at hlast
    change f.time + _ ≤ now
    omega
  · intro f hf
    refine ⟨now, rfl, ?_⟩
    rcases List.mem_append.1 hf with hf | hf
    · obtain ⟨v, hv, hle⟩ := hs.last f hf
      rw [hv, Option.getD_some] at hlast
      omega
    · rw [List.mem_singleton.1 hf]
  · intro v hv
    cases hv
    exact le_rfl

theorem kept_clock (hs : Kept compress s) {v now : ℕ}
    (hlast : ∀ last ∈ s.lastLiveTs, last ≤ v) (hnow : v ≤ now) :
    Kept compress { s with clock := now, lastLiveTs := some v } := by
  refine ⟨hs.encoder, hs.requests, hs.single, hs.published, hs.spaced, ?_, ?_⟩
  · intro f hf
    obtain ⟨last, hsome, hle⟩ := hs.last f hf
    exact ⟨v, rfl, hle.trans (hlast last hsome)⟩
  · intro last hsome
    cases hsome
    exact hnow

theorem kept_onFrame (hs : Kept compress s) (hflight : s.encoder.inFlight = []) (part : String)
    (data : Bytes) (between : ℕ) : Kept compress (s.onFrame part data between) := by
  have hle : s.lastLiveTs.getD s.clock ≤ s.clock := by
    cases hlast : s.lastLiveTs with
    | none => exact le_rfl
    | some last => exact hs.clock last hlast
  have hself : ∀ last ∈ s.lastLiveTs, last ≤ s.lastLiveTs.getD s.clock := by
    intro last hsome
    rw [Option.mem_def.1 hsome]
    exact le_rfl
  unfold onFrame
  split
  · dsimp only
    split
    · rename_i hgap
      split
      · exact kept_display hs hflight rfl (by omega) _
      · exact kept_clock hs (fun last hsome => (hself last hsome).trans (by omega)) le_rfl
    · exact kept_clock hs hself (by omega)
  · exact hs

theorem kept_step (hs : Kept compress s) (h : s.step compress a = some t) : Kept compress t := by
  cases a <;> simp only [step] at h
  case tick elapsed =>
    cases h
    refine ⟨hs.encoder, hs.requests, hs.single, hs.published, hs.spaced, hs.last, ?_⟩
    exact fun last hsome => (hs.clock last hsome).trans (Nat.le_add_right _ _)
  case frame channel part data between =>
    split at h
    · rename_i hflight
      split at h <;> cases h
      · exact kept_onFrame hs hflight part data between
      · exact hs
    · cases h
  case encoder b =>
    split at h
    · cases h
    · rename_i hcall
      obtain ⟨e, he, rfl⟩ := Option.map_eq_some_iff.1 h
      obtain ⟨hrequests, hsingle⟩ :=
        encoder_requests (Bool.eq_false_iff.2 hcall) hs.single he
      refine ⟨ImageEncoder.kept_step hs.encoder he, ?_, hsingle, hs.published, hs.spaced, hs.last,
        hs.clock⟩
      change (e.ledger.accepted ++ e.inFlight).Sublist _
      rw [hrequests]
      exact hs.requests

theorem map_filterMap_sublist {α β γ : Type*} {g : α → Option β} {h : β → γ} {k : α → γ}
    {l : List α} (hk : ∀ x ∈ l, ∀ y, g x = some y → h y = k x) :
    ((l.filterMap g).map h).Sublist (l.map k) := by
  induction l with
  | nil => exact .slnil
  | cons x l ih =>
    have ih := ih fun z hz => hk z (List.mem_cons_of_mem x hz)
    rw [List.filterMap_cons, List.map_cons]
    cases hg : g x with
    | none => exact ih.cons _
    | some y =>
      rw [List.map_cons, hk x List.mem_cons_self y hg]
      exact ih.cons_cons _

theorem outcome_result {r : EncodeRequest} {result : EncodeResult}
    (h : (r.outcome compress).result? = some result) :
    compress r.rawData r.dims.1 r.dims.2 = some result.jpgData := by
  unfold EncodeRequest.outcome at h
  split at h
  · split at h
    · cases h
    · cases h
    · rename_i b bs hcompress
      cases h
      exact hcompress
  · cases h

theorem sound_of_kept (hs : Kept compress s) : Sound compress s := by
  have hencoder := ImageEncoder.sound_of_kept hs.encoder
  have hrequests : (s.encoder.finished.map Prod.fst).Sublist
      (s.live.map fun f => f.shown.request) :=
    hencoder.inOrder.trans ((List.sublist_append_left _ _).trans hs.requests)
  refine ⟨hs.spaced, hs.published, hencoder.bounded, hrequests, ?_, ?_⟩
  · intro f hf
    obtain ⟨g, -, hg⟩ := List.mem_map.1 (hrequests.subset (List.mem_map_of_mem hf))
    rw [hencoder.outcomes f hf, EncodeRequest.outcome, ← hg, if_pos g.shown.request_fits]
    split <;> simp
  · let made (r : EncodeRequest) := compress r.rawData r.dims.1 r.dims.2
    have hmade : (s.encoder.results.map fun r => some r.jpgData).Sublist
        (s.encoder.finished.map fun f => made f.1) := by
      refine map_filterMap_sublist fun f hf result hresult => ?_
      rw [hencoder.outcomes f hf] at hresult
      exact (outcome_result hresult).symm
    have hshown : s.live.map (made ∘ fun f => f.shown.request) =
        s.live.map fun f => compress f.shown.image 1920 f.shown.height := by
      refine List.map_congr_left fun f _ => ?_
      change compress f.shown.image f.shown.request.dims.1 f.shown.request.dims.2 = _
      rw [f.shown.request_dims]
    have hlive := hrequests.map made
    rw [List.map_map, List.map_map, hshown] at hlive
    exact ((List.filter_sublist.map _).trans hmade).trans hlive

theorem kept_constructed : Kept compress {} :=
  ⟨ImageEncoder.kept_constructed, .slnil, Nat.zero_le _, rfl, .nil,
    fun f hf => absurd hf List.not_mem_nil, fun last hsome => by cases hsome⟩

def oneRow : LiveImage where
  height := 1
  image := List.replicate 7680 0
  height_pos := by decide
  whole := by rw [List.length_replicate]; rfl

theorem ofFrame_oneRow : LiveImage.ofFrame (List.replicate 7680 0) = some oneRow := by
  have hne : List.replicate 7680 (0 : UInt8) ≠ [] := by
    rw [ne_eq, List.replicate_eq_nil_iff]
    decide
  have hheight : Json.toInt32 (7680 / (1920 * 4) : ℕ) = 1 := by decide
  unfold LiveImage.ofFrame
  rw [if_pos ⟨hne, by rw [List.length_replicate]⟩]
  dsimp only
  simp only [List.length_replicate, hheight]
  rw [dif_pos (by decide)]
  have htake : (List.replicate 7680 (0 : UInt8)).take (1920 * LiveImage.cropHeight 1 * 4).toNat =
      List.replicate 7680 0 := List.take_of_length_le (by rw [List.length_replicate]; decide)
  exact congrArg some (LiveImage.mk.injEq .. |>.mpr ⟨rfl, htake⟩)

def secondShown : List LiveAction :=
  [.encoder .start, .frame "stereo_image" "left" (List.replicate 7680 0) 5, .tick 200000000,
    .frame "stereo_image" "left" (List.replicate 7680 0) 5]

end LiveSystem

end EcidsCore
