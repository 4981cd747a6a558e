import EcidsCore.ExceptRules
import EcidsCore.JsonText

set_option autoImplicit false

/-! The subscriber of the stereo camera: what it makes of one multipart message. -/
namespace EcidsCore
open ExceptRules

variable {R : Type}

namespace Json

def toInt64 (z : ℤ) : ℤ := (z + 2 ^ 63) % 2 ^ 64 - 2 ^ 63

def toUInt64 (z : ℤ) : ℕ := (z % 2 ^ 64).toNat

/-- `get` of an integral type the library does not store itself. -/
def getIntegral {α : Type} (cast : ℤ → α) (truncate : R → ℤ) (lib : Nlohmann R) :
    Json R → Except Exc α
  | .integer z => .ok (cast z)
  | .number x => .ok (cast (truncate x))
  | .boolean b => .ok (cast (if b then 1 else 0))
  | j => .error (.typeError (lib.typeErrorText 302 j))

def isNumeric : Json R → Bool
  | .integer _ | .number _ | .boolean _ => true
  | _ => false

def isString : Json R → Bool
  | .string _ => true
  | _ => false

def MemberIs (ok : Json R → Bool) (j : Json R) (key : String) : Prop :=
  ∀ v, j.member? key = some v → ok v

theorem valueOr_returns {α : Type} {lib : Nlohmann R} {convert : Json R → Except Exc α}
    {ok : Json R → Bool} (hok : ∀ v, Returns (convert v) ↔ ok v) {j : Json R} {key : String}
    {default : α} :
    Returns (j.valueOr lib convert key default) ↔ j.isObject ∧ MemberIs ok j key := by
  unfold valueOr
  split
  · rename_i hj
    unfold MemberIs
    cases j.member? key with
    | none => simp [hj]
    | some v => simp [hok, hj]
  · rename_i hj
    simp [hj]

theorem getIntegral_returns {α : Type} {cast : ℤ → α} {truncate : R → ℤ} {lib : Nlohmann R}
    (v : Json R) : Returns (getIntegral cast truncate lib v) ↔ v.isNumeric := by
  cases v <;> simp [getIntegral, isNumeric]

theorem getInt_returns {truncate : R → ℤ} {lib : Nlohmann R} (v : Json R) :
    Returns (getInt truncate lib v) ↔ v.isNumeric := by
  cases v <;> simp [getInt, isNumeric]

theorem getString_returns {lib : Nlohmann R} (v : Json R) :
    Returns (getString lib v) ↔ v.isString := by
  cases v <;> simp [getString, isString]

end Json

namespace DataSubscriber
variable [Double R] (lib : Nlohmann R) (channel : String)

/-- What one iteration of the loop does: the callback's arguments in order, and the
exception that ends the thread. -/
structure Iteration where
  delivered : List (String × DataBundle)
  threw : Option Exc
deriving DecidableEq, Repr

def layout (parts : List Bytes) : ℕ × ℕ :=
  if 3 ≤ parts.length then
    match lib.parse (parts.headD []) with
    | .ok test => if test.isObject then (0, 1) else (1, 2)
    | .error _ => (1, 2)
  else (0, 1)

def headerOf (parts : List Bytes) : Option (Json R) :=
  match parts[(layout lib parts).1]? with
  | some part =>
    match lib.parse part with
    | .ok hdr => if hdr.isObject then some hdr else none
    | .error _ => none
  | none => none

def payloads (parts : List Bytes) : List Bytes := parts.drop (layout lib parts).2

/-- The numbers of a header; without a pair id the time stamp takes its place. -/
def stampOf (hdr : Json R) : Except Exc FrameHeader := do
  let tsSec ← hdr.valueOr lib (Json.getIntegral Json.toInt64 Double.truncate lib) "ts_sec" 0
  let tsNsec ← hdr.valueOr lib (Json.getIntegral Json.toInt64 Double.truncate lib) "ts_nsec" 0
  let pairId ← hdr.valueOr lib (Json.getIntegral Json.toUInt64 Double.truncate lib) "pair_id" 0
  return { tsSec, tsNsec,
           pairId := if pairId = 0 then Json.toUInt64 (tsSec * 1000000000 + tsNsec) else pairId }

def tagged (tag : String) (bundle : DataBundle) : String × DataBundle :=
  (if tag = "" then channel else tag, bundle)

def partBundle (hdr : Json R) (stamp : FrameHeader) (entry : Json R) (data : Bytes) :
    Except Exc (String × DataBundle) := do
  let dataId ← entry.valueString lib "id" ""
  let ch ← hdr.valueString lib "channel" channel
  return tagged channel dataId { header := { stamp with part := dataId, channel := ch }, data }

/-- The loop over the entries of `parts`, as far as there are payloads. -/
def deliverParts (hdr : Json R) (stamp : FrameHeader) : List (Json R) → List Bytes → Iteration
  | entry :: entries, data :: rest =>
    match partBundle lib channel hdr stamp entry data with
    | .error e => ⟨[], some e⟩
    | .ok b =>
      let it := deliverParts hdr stamp entries rest
      ⟨b :: it.delivered, it.threw⟩
  | _, _ => ⟨[], none⟩

def wholeBundle (hdr : Json R) (stamp : FrameHeader) (data : Bytes) :
    Except Exc (String × DataBundle) := do
  let type ← hdr.valueOr lib (Json.getInt Double.truncate lib) "type" 0
  let part ← hdr.valueString lib "part" ""
  let ch ← hdr.valueString lib "channel" channel
  return tagged channel part { header := { stamp with type, part, channel := ch }, data }

def deliverWhole (hdr : Json R) (stamp : FrameHeader) (rest : List Bytes) : Iteration :=
  match wholeBundle lib channel hdr stamp (rest.headD []) with
  | .error e => ⟨[], some e⟩
  | .ok b => ⟨[b], none⟩

def deliver (hdr : Json R) (rest : List Bytes) : Iteration :=
  match stampOf lib hdr with
  | .error e => ⟨[], some e⟩
  | .ok stamp =>
    match hdr.member? "parts" with
    | some (.array entries) => deliverParts lib channel hdr stamp entries rest
    | _ => deliverWhole lib channel hdr stamp rest

/-- One iteration of `subscriber_loop_` on the parts it has received, with a callback set. -/
def iteration (parts : List Bytes) : Iteration :=
  if parts = [] then ⟨[], none⟩
  else
    match headerOf lib parts with
    | none => ⟨[(channel, { header := { channel }, data := (payloads lib parts).headD [] })], none⟩
    | some hdr => deliver lib channel hdr (payloads lib parts)

def EntryFine (entry : Json R) : Prop := entry.isObject ∧ entry.MemberIs Json.isString "id"

/-- A header all of whose fields that an iteration with `n` payloads reads have their type. -/
structure HeaderFine (hdr : Json R) (n : ℕ) : Prop where
  tsSec : hdr.MemberIs Json.isNumeric "ts_sec"
  tsNsec : hdr.MemberIs Json.isNumeric "ts_nsec"
  pairId : hdr.MemberIs Json.isNumeric "pair_id"
  parts : ∀ entries, hdr.member? "parts" = some (.array entries) →
    ∀ entry ∈ entries.take n, EntryFine entry ∧ hdr.MemberIs Json.isString "channel"
  whole : (∀ entries, hdr.member? "parts" ≠ some (.array entries)) →
    hdr.MemberIs Json.isNumeric "type" ∧ hdr.MemberIs Json.isString "part" ∧
      hdr.MemberIs Json.isString "channel"

def MessageFine (parts : List Bytes) : Prop :=
  ∀ hdr, headerOf lib parts = some hdr → HeaderFine hdr (payloads lib parts).length

omit [Double R] in
theorem headerOf_isObject {parts : List Bytes} {hdr : Json R}
    (h : headerOf lib parts = some hdr) : hdr.isObject := by
  unfold headerOf at h
  split at h
  · split at h
    · split at h
      · rename_i hobj
        cases h
        exact hobj
      · cases h
    · cases h
  · cases h

variable {hdr : Json R} (hobj : hdr.isObject)
include hobj

theorem number_returns {α : Type} (cast : ℤ → α) (key : String) (default : α) :
    Returns (hdr.valueOr lib (Json.getIntegral cast Double.truncate lib) key default) ↔
      hdr.MemberIs Json.isNumeric key := by
  rw [Json.valueOr_returns Json.getIntegral_returns]
  exact and_iff_right hobj

omit [Double R] in
theorem text_returns (key default : String) :
    Returns (hdr.valueString lib key default) ↔ hdr.MemberIs Json.isString key := by
  rw [Json.valueString, Json.valueOr_returns Json.getString_returns]
  exact and_iff_right hobj

theorem stampOf_returns : Returns (stampOf lib hdr) ↔
    hdr.MemberIs Json.isNumeric "ts_sec" ∧ hdr.MemberIs Json.isNumeric "ts_nsec" ∧
      hdr.MemberIs Json.isNumeric "pair_id" := by
  unfold stampOf
  rw [returns_bind_iff fun _ => returns_bind_iff fun _ => returns_bind_iff fun _ =>
      iff_of_true (returns_pure _) trivial, number_returns lib hobj, number_returns lib hobj,
    number_returns lib hobj, and_true]

omit [Double R] in
theorem partBundle_returns (stamp : FrameHeader) (entry : Json R) (data : Bytes) :
    Returns (partBundle lib channel hdr stamp entry data) ↔
      EntryFine entry ∧ hdr.MemberIs Json.isString "channel" := by
  unfold partBundle Json.valueString
  rw [returns_bind_iff fun _ => returns_bind_iff fun _ => iff_of_true (returns_pure _) trivial,
    Json.valueOr_returns Json.getString_returns, Json.valueOr_returns Json.getString_returns,
    and_true]
  exact and_congr_right fun _ => and_iff_right hobj

theorem wholeBundle_returns (stamp : FrameHeader) (data : Bytes) :
    Returns (wholeBundle lib channel hdr stamp data) ↔
      hdr.MemberIs Json.isNumeric "type" ∧ hdr.MemberIs Json.isString "part" ∧
        hdr.MemberIs Json.isString "channel" := by
  unfold wholeBundle
  rw [returns_bind_iff fun _ => returns_bind_iff fun _ => returns_bind_iff fun _ =>
      iff_of_true (returns_pure _) trivial, Json.valueOr_returns Json.getInt_returns,
    text_returns lib hobj, text_returns lib hobj, and_true]
  exact and_congr_left fun _ => and_iff_right hobj

omit [Double R] in
theorem deliverParts_returns (stamp : FrameHeader) (entries : List (Json R)) (rest : List Bytes) :
    (deliverParts lib channel hdr stamp entries rest).threw = none ↔
      ∀ entry ∈ entries.take rest.length, EntryFine entry ∧ hdr.MemberIs Json.isString "channel" := by
  induction entries generalizing rest with
  | nil => simp [deliverParts]
  | cons entry entries ih =>
    cases rest with
    | nil => simp [deliverParts]
    | cons data rest =>
      have hone := partBundle_returns lib channel hobj stamp entry data
      rw [deliverParts, List.length_cons, List.take_succ_cons, List.forall_mem_cons, ← hone, ← ih rest]
      cases partBundle lib channel hdr stamp entry data with
      | error e => simp
      | ok b => simp

theorem deliver_returns (rest : List Bytes) :
    (deliver lib channel hdr rest).threw = none ↔ HeaderFine hdr rest.length := by
  have hstamp := stampOf_returns lib hobj
  unfold deliver
  cases hs : stampOf lib hdr with
  | error e =>
    rw [hs] at hstamp
    refine iff_of_false (by simp) ?_
    intro hf
    exact not_returns_error e (hstamp.2 ⟨hf.tsSec, hf.tsNsec, hf.pairId⟩)
  | ok stamp =>
    rw [hs] at hstamp
    obtain ⟨h1, h2, h3⟩ := hstamp.1 (returns_ok stamp)
    dsimp only
    split
    · rename_i entries hp
      rw [deliverParts_returns lib channel hobj]
      constructor
      · intro h
        refine ⟨h1, h2, h3, ?_, fun hno => absurd hp (hno entries)⟩
        intro entries' hp'
        rw [hp] at hp'
        cases hp'
        exact h
      · intro hf
        exact hf.parts entries hp
    · rename_i hno
      have hwhole := wholeBundle_returns lib channel hobj stamp (rest.headD [])
      have hdone : (deliverWhole lib channel hdr stamp rest).threw = none ↔
          Returns (wholeBundle lib channel hdr stamp (rest.headD [])) := by
        unfold deliverWhole
        cases wholeBundle lib channel hdr stamp (rest.headD []) <;> simp
      rw [hdone, hwhole]
      constructor
      · intro h
        exact ⟨h1, h2, h3, fun entries hp => absurd hp (hno entries), fun _ => h⟩
      · intro hf
        exact hf.whole hno

omit hobj

/-- An iteration ends without an exception exactly on the messages that are fine. -/
theorem iteration_returns_iff (parts : List Bytes) :
    (iteration lib channel parts).threw = none ↔ MessageFine lib parts := by
  unfold iteration MessageFine
  by_cases hp : parts = []
  · subst hp
    rw [if_pos rfl]
    refine iff_of_true rfl ?_
    intro hdr h
    cases h
  · rw [if_neg hp]
    cases hh : headerOf lib parts with
    | none => simp
    | some hdr => simp [deliver_returns lib channel (headerOf_isObject lib hh)]

def textStamp : Bytes := ByteText.bytes "\x7b\"ts_sec\":\"1\"\x7d"

/-- One message of one part ends the thread: a time stamp that is written as text. -/
theorem text_stamp_counterexample :
    (iteration (tableLib [(textStamp, .object [("ts_sec", .string "1")])]) "stereo_image"
      [textStamp]).threw ≠ none := by
  decide

def WellTyped (hdr : Json R) : Prop := hdr.isObject ∧ ∀ n, HeaderFine hdr n

def textField (j : Json R) (key default : String) : String :=
  match j.member? key with
  | some (.string s) => s
  | _ => default

def typeField (hdr : Json R) : ℤ :=
  match hdr.member? "type" with
  | some (.integer z) => Json.toInt32 z
  | some (.number x) => Double.truncate x
  | some (.boolean b) => if b then 1 else 0
  | _ => 0

/-- What a header and its payloads mean: each payload that has an entry goes out under the
id of its entry; without entries the first payload goes out alone. -/
def meaning (hdr : Json R) (stamp : FrameHeader) (rest : List Bytes) : List (String × DataBundle) :=
  let ch := textField hdr "channel" channel
  match hdr.member? "parts" with
  | some (.array entries) => (entries.zip rest).map fun (entry, data) =>
    let part := textField entry "id" ""
    tagged channel part { header := { stamp with part, channel := ch }, data }
  | _ =>
    let part := textField hdr "part" ""
    [tagged channel part
      { header := { stamp with type := typeField hdr, part, channel := ch },
        data := rest.headD [] }]

omit [Double R] in
theorem valueString_textField {j : Json R} (hobj : j.isObject) {key : String}
    (h : j.MemberIs Json.isString key) (default : String) :
    j.valueString lib key default = .ok (textField j key default) := by
  rw [Json.valueString, Json.valueOr, if_pos hobj, textField]
  cases hm : j.member? key with
  | none => rfl
  | some v =>
    have hv := h v hm
    cases v <;> simp_all [Json.isString, Json.getString]

omit [Double R] in
theorem deliverParts_meaning {hdr : Json R} (hobj : hdr.isObject) (stamp : FrameHeader)
    {entries : List (Json R)} {rest : List Bytes} (h : ∀ entry ∈ entries.take rest.length,
      EntryFine entry ∧ hdr.MemberIs Json.isString "channel") :
    deliverParts lib channel hdr stamp entries rest =
      ⟨(entries.zip rest).map fun (entry, data) => tagged channel (textField entry "id" "")
        { header := { stamp with part := textField entry "id" "",
                                 channel := textField hdr "channel" channel }, data }, none⟩ := by
  induction entries generalizing rest with
  | nil => rfl
  | cons entry entries ih =>
    cases rest with
    | nil => rfl
    | cons data rest =>
      rw [List.length_cons, List.take_succ_cons, List.forall_mem_cons] at h
      obtain ⟨⟨⟨heobj, heid⟩, hch⟩, hrest⟩ := h
      rw [deliverParts, partBundle, valueString_textField lib heobj heid,
        valueString_textField lib hobj hch, ih hrest]
      rfl

theorem deliver_meaning {hdr : Json R} (hw : WellTyped hdr) (rest : List Bytes) :
    ∃ stamp, stampOf lib hdr = .ok stamp ∧
      deliver lib channel hdr rest = ⟨meaning channel hdr stamp rest, none⟩ := by
  obtain ⟨hobj, hfine⟩ := hw
  have hf := hfine rest.length
  obtain ⟨stamp, hstamp⟩ := (stampOf_returns lib hobj).2 ⟨hf.tsSec, hf.tsNsec, hf.pairId⟩
  refine ⟨stamp, hstamp, ?_⟩
  unfold deliver meaning
  rw [hstamp]
  dsimp only
  split
  · rename_i entries hp
    exact deliverParts_meaning lib channel hobj stamp (hf.parts entries hp)
  · rename_i hno
    obtain ⟨htype, hpart, hch⟩ := hf.whole hno
    have htyped : hdr.valueOr lib (Json.getInt Double.truncate lib) "type" 0 =
        .ok (typeField hdr) := by
      rw [Json.valueOr, if_pos hobj, typeField]
      cases hm : hdr.member? "type" with
      | none => rfl
      | some v =>
        have hv := htype v hm
        cases v <;> simp_all [Json.isNumeric, Json.getInt]
    rw [deliverWhole, wholeBundle, htyped, valueString_textField lib hobj hpart,
      valueString_textField lib hobj hch]
    rfl

/-- The grouped message of a channel key, a header and payloads, and the plain message of
the header and the payloads, both go out as the header says. -/
def FormatsAgree (k h : Bytes) (hdr : Json R) (rest : List Bytes) : Prop :=
  ∃ stamp, stampOf lib hdr = .ok stamp ∧
    iteration lib channel (k :: h :: rest) = ⟨meaning channel hdr stamp rest, none⟩ ∧
    iteration lib channel (h :: rest) = ⟨meaning channel hdr stamp rest, none⟩

variable {lib} {k h : Bytes} {hdr : Json R}

omit [Double R] in
theorem headerOf_grouped (hk : ∀ j, lib.parse k = .ok j → ¬ j.isObject)
    (hh : lib.parse h = .ok hdr) (hobj : hdr.isObject) (data : Bytes) (rest : List Bytes) :
    headerOf lib (k :: h :: data :: rest) = some hdr ∧
      payloads lib (k :: h :: data :: rest) = data :: rest := by
  have hlayout : layout lib (k :: h :: data :: rest) = (1, 2) := by
    unfold layout
    rw [if_pos (by simp only [List.length_cons]; omega), List.headD_cons]
    cases hp : lib.parse k with
    | error e => rfl
    | ok j => exact if_neg (hk j hp)
  rw [headerOf, payloads, hlayout]
  refine ⟨?_, rfl⟩
  simp only [List.getElem?_cons_succ, List.getElem?_cons_zero, hh, hobj, if_true]

omit [Double R] in
theorem headerOf_plain (hh : lib.parse h = .ok hdr) (hobj : hdr.isObject) (rest : List Bytes) :
    headerOf lib (h :: rest) = some hdr ∧ payloads lib (h :: rest) = rest := by
  have hlayout : layout lib (h :: rest) = (0, 1) := by
    unfold layout
    split
    · rw [List.headD_cons, hh]
      exact if_pos hobj
    · rfl
  rw [headerOf, payloads, hlayout]
  refine ⟨?_, rfl⟩
  simp only [List.getElem?_cons_zero, hh, hobj, if_true]

theorem iteration_key_header (hk : ∀ j, lib.parse k = .ok j → ¬ j.isObject) :
    iteration lib channel [k, h] = ⟨[(channel, { header := { channel }, data := h })], none⟩ := by
  have hnone : headerOf lib [k, h] = none := by
    change (match lib.parse k with
      | .ok hdr => if hdr.isObject then some hdr else none
      | .error _ => none) = none
    cases hp : lib.parse k with
    | error e => rfl
    | ok j => exact if_neg (hk j hp)
  rw [iteration, if_neg (List.cons_ne_nil _ _), hnone]
  rfl

/-- The two formats mean the same exactly when there is a payload; no JSON text is empty. -/
theorem formats_agree_iff (hempty : ∀ j, lib.parse [] ≠ .ok j)
    (hk : ∀ j, lib.parse k = .ok j → ¬ j.isObject) (hh : lib.parse h = .ok hdr)
    (hw : WellTyped hdr) (rest : List Bytes) :
    FormatsAgree lib channel k h hdr rest ↔ rest ≠ [] := by
  cases rest with
  | nil =>
    refine iff_of_false ?_ (fun hne => hne rfl)
    rintro ⟨stamp, -, hgrouped, -⟩
    rw [iteration_key_header channel hk] at hgrouped
    have hdata := congrArg (fun it => it.delivered.map fun b => b.2.data) hgrouped
    have hne : h ≠ [] := by
      rintro rfl
      exact hempty hdr hh
    unfold meaning at hdata
    dsimp only at hdata
    split at hdata
    · simp at hdata
    · simp [tagged, hne] at hdata
  | cons data rest =>
    refine iff_of_true ?_ (List.cons_ne_nil _ _)
    obtain ⟨stamp, hstamp, hdeliver⟩ := deliver_meaning lib channel hw (data :: rest)
    obtain ⟨hhg, hpg⟩ := headerOf_grouped hk hh hw.1 data rest
    obtain ⟨hhp, hpp⟩ := headerOf_plain hh hw.1 (data :: rest)
    refine ⟨stamp, hstamp, ?_, ?_⟩
    · rw [iteration, if_neg (List.cons_ne_nil _ _), hhg, hpg]
      exact hdeliver
    · rw [iteration, if_neg (List.cons_ne_nil _ _), hhp, hpp]
      exact hdeliver

def noPartsHeader : Bytes := ByteText.bytes "\x7b\"parts\":[]\x7d"

def stereoHeader : Bytes :=
  ByteText.bytes "\x7b\"ts_sec\":5,\"parts\":[\x7b\"id\":\"left\"\x7d,\x7b\"id\":\"right\"\x7d]\x7d"

def stereoJson : Json ℤ :=
  .object [("ts_sec", .integer 5),
    ("parts", .array [.object [("id", .string "left")], .object [("id", .string "right")]])]

def headerLib : Nlohmann ℤ :=
  tableLib [(noPartsHeader, .object [("parts", .array [])]), (stereoHeader, stereoJson)]

theorem stereo_wellTyped : WellTyped stereoJson := by
  refine ⟨rfl, ?_⟩
  intro n
  refine ⟨?_, ?_, ?_, ?_, ?_⟩
  · intro v hv
    cases hv
    rfl
  · intro v hv
    cases hv
  · intro v hv
    cases hv
  · intro entries hp entry he
    cases hp
    have hentry := List.mem_of_mem_take he
    refine ⟨?_, fun v hv => nomatch hv⟩
    rcases List.mem_pair.1 hentry with rfl | rfl
    · exact ⟨rfl, fun v hv => by cases hv; rfl⟩
    · exact ⟨rfl, fun v hv => by cases hv; rfl⟩
  · intro hno
    exact absurd rfl (hno _)

theorem formats_agree_iff_stereo :
    FormatsAgree headerLib "camera" [0x6B] stereoHeader stereoJson [[1, 2, 3], [4, 5]] ∧
      (iteration headerLib "camera" [stereoHeader, [1, 2, 3], [4, 5]]).delivered.map
        (fun b => (b.1, b.2.data)) = [("left", [1, 2, 3]), ("right", [4, 5])] := by
  refine ⟨?_, by decide⟩
  have hempty (j : Json ℤ) : headerLib.parse [] ≠ .ok j := by
    intro hj
    cases hj
  have hkey (j : Json ℤ) (hj : headerLib.parse [0x6B] = .ok j) : ¬ j.isObject := by
    cases hj
  exact (formats_agree_iff "camera" hempty hkey rfl stereo_wellTyped _).2 (List.cons_ne_nil _ _)

/-- The header of a grouped message without payloads goes out as image data. -/
theorem header_as_data_counterexample :
    iteration headerLib "stereo_image" [[0x6B], noPartsHeader] =
        ⟨[("stereo_image", { header := { channel := "stereo_image" }, data := noPartsHeader })],
          none⟩ ∧
      iteration headerLib "stereo_image" [noPartsHeader] = ⟨[], none⟩ := by
  decide

end DataSubscriber

end EcidsCore
