import EcidsCore.ClientServer
import EcidsCore.ExceptRules
import EcidsCore.JsonText
import Mathlib.Data.List.Forall2

set_option autoImplicit false

/-! The answers of the AI service: what a message is read as, and the points of a detection. -/
namespace EcidsCore
open ByteText ExceptRules

variable {R : Type}

namespace DetectionDealer

/-- What ends in the handler around a message: an exception of the JSON library, or the
conversion of a number. -/
inductive Thrown where
  | json (e : Exc)
  | conversion

def comma : UInt8 := 0x2C

/-- `getline` up to each comma; the text behind the last one is no token when it is empty. -/
def tokens (text : Bytes) : List Bytes :=
  let parts := text.splitOn comma
  if parts.getLast? = some [] then parts.dropLast else parts

def pairUp : List R → List (R × R)
  | x :: y :: rest => (x, y) :: pairUp rest
  | _ => []

/-- `stod` is the conversion of the standard library, `none` where it throws. -/
def coordinatesOf (stod : Bytes → Option R) (text : Bytes) : List (R × R) :=
  if text = [] then [] else pairUp ((tokens text).filterMap stod)

variable (lib : Nlohmann R) (stod : Bytes → Option R)

def text (j : Json R) (key default : String) : Except Thrown String :=
  (j.valueString lib key default).mapError .json

def number (s : String) : Except Thrown R :=
  match stod (bytes s) with
  | some x => .ok x
  | none => .error .conversion

def parse (part : Bytes) : Except Thrown (Json R) :=
  (lib.parse part).mapError fun t => .json (.parseError t)

def detectionOf (det : Json R) : Except Thrown (Detection R) := do
  let labelId ← text lib det "LabelID" ""
  let confidence ← text lib det "Confidence" "0.0" >>= number stod
  let fileName ← text lib det "FileName" ""
  let tsStart ← text lib det "TimestampStart" ""
  let tsEnd ← text lib det "TimestampEnd" ""
  let coords ← text lib det "Coordinates" ""
  pure
    { labelId := labelId
      confidence := confidence
      fileName := fileName
      coordinates := coordinatesOf stod (bytes coords)
      tsStart := tsStart
      tsEnd := tsEnd }

def resultArray (j : Json R) : Option (List (Json R)) := j.member? "Result" >>= Json.items?

def isReconnect (body : Json R) : Bool :=
  match body.member? "Type" with
  | some (.string s) => s = "Reconnect"
  | _ => false

inductive Polled (R : Type) where
  | nothing
  | reconnect
  | response (dr : DetectionResponse R)

/-- The results, and the transaction that the second part names: none for a notification. -/
def readResults (resp : Json R) (transactionId : String) (parts : List Bytes) :
    Except Thrown (Option (List (Json R) × String)) :=
  match resultArray resp, parts with
  | some items, _ => pure (some (items, transactionId))
  | none, _ :: second :: _ => do
    let body ← parse lib second
    if isReconnect body then pure none
    else do
      let transactionId ← if (body.member? "TransactionID").isSome then
        text lib body "TransactionID" transactionId else pure transactionId
      pure (some ((resultArray body).getD [], transactionId))
  | none, _ => pure (some ([], transactionId))

/-- One message of `poll_loop_`, by its parts. -/
def handleMessage (parts : List Bytes) : Except Thrown (Polled R) :=
  match parts with
  | [] => pure .nothing
  | first :: _ => do
    let resp ← parse lib first
    let transactionId ← text lib resp "transaction_id" "" >>= text lib resp "TransactionID"
    let dealerId ← text lib resp "dealer_id" "" >>= text lib resp "DealerID"
    let tsReceived ← text lib resp "TimestampReceived" ""
    let tsReplied ← text lib resp "TimestampReplied" ""
    match ← readResults lib resp transactionId parts with
    | none => pure .reconnect
    | some (items, transactionId) => do
      let results ← items.mapM (detectionOf lib stod)
      pure (.response
        { transactionId := transactionId
          dealerId := dealerId
          results := results
          tsReceived := tsReceived
          tsReplied := tsReplied })

/-- The result items of a message: those of its first part, or of its second one where the
first has none. -/
def resultItems (parts : List Bytes) : Option (List (Json R)) := do
  let first ← parts.head?
  let resp ← (lib.parse first).toOption
  match resultArray resp, parts.tail with
  | some items, _ => return items
  | none, second :: _ => do
    let body ← (lib.parse second).toOption
    return (resultArray body).getD []
  | none, [] => return []

/-- The tokens by two, the last one alone when it is left over. -/
def byTwo : List (Option R) → List (Option R × Option R)
  | a :: b :: rest => (a, b) :: byTwo rest
  | [a] => [(a, none)]
  | [] => []

def bothNumbers : Option R × Option R → Option (R × R)
  | (some x, some y) => some (x, y)
  | _ => none

/-- The points of the tokens at `2 * k` and `2 * k + 1` that are both numbers. -/
def pointsAt (stod : Bytes → Option R) (text : Bytes) : List (R × R) :=
  (byTwo ((tokens text).map stod)).filterMap bothNumbers

def numbersOf (c : Option R × Option R) : List R := c.1.toList ++ c.2.toList

def Half (v : R) (c : Option R × Option R) : Prop := c = (some v, none) ∨ c = (none, some v)

def Unshifted (cs : List (Option R × Option R)) : Prop :=
  ∀ before c rest, cs = before ++ c :: rest → ∀ v, Half v c →
    ∀ d ∈ rest, d = (none, none) ∨ d = (some v, some v)

theorem numbers_byTwo (values : List (Option R)) :
    (byTwo values).flatMap numbersOf = values.filterMap id := by
  fun_induction byTwo values with
  | case1 a b rest ih =>
    rw [List.flatMap_cons, ih]
    cases a <;> cases b <;> rfl
  | case2 a => cases a <;> rfl
  | case3 => rfl

theorem length_pairUp (l : List R) : (pairUp l).length = l.length / 2 := by
  fun_induction pairUp l with
  | case1 x y rest ih =>
    simp only [List.length_cons, ih]
    omega
  | case2 l h =>
    cases l with
    | nil => simp
    | cons x rest =>
      cases rest with
      | nil => simp
      | cons y rest => exact absurd rfl (h x y rest)

theorem pair_cases (c : Option R × Option R) :
    c = (none, none) ∨ (∃ v, Half v c) ∨ ∃ x y, c = (some x, some y) := by
  obtain ⟨a, b⟩ := c
  cases a with
  | none =>
    cases b with
    | none => exact .inl rfl
    | some y => exact .inr (.inl ⟨y, .inr rfl⟩)
  | some x =>
    cases b with
    | none => exact .inr (.inl ⟨x, .inl rfl⟩)
    | some y => exact .inr (.inr ⟨x, y, rfl⟩)

theorem Half.eq {v w : R} {c : Option R × Option R} (hv : Half v c) (hw : Half w c) : v = w := by
  rcases hv with rfl | rfl <;> rcases hw with hw | hw <;> cases hw <;> rfl

theorem Half.not_whole {v w : R} {c : Option R × Option R} (h : Half v c) :
    ¬ (c = (none, none) ∨ c = (some w, some w)) := by
  rcases h with rfl | rfl <;> simp

theorem Half.points {v : R} {c : Option R × Option R} (h : Half v c)
    (rest : List (Option R × Option R)) :
    (c :: rest).filterMap bothNumbers = rest.filterMap bothNumbers := by
  rcases h with rfl | rfl <;> rfl

theorem Half.numbers {v : R} {c : Option R × Option R} (h : Half v c)
    (rest : List (Option R × Option R)) :
    (c :: rest).flatMap numbersOf = v :: rest.flatMap numbersOf := by
  rcases h with rfl | rfl <;> rfl

theorem length_points_le (cs : List (Option R × Option R)) :
    2 * (cs.filterMap bothNumbers).length ≤ (cs.flatMap numbersOf).length := by
  induction cs with
  | nil => exact Nat.le_refl 0
  | cons c rest ih =>
    rcases pair_cases c with rfl | ⟨v, hv⟩ | ⟨x, y, rfl⟩
    · exact ih
    · rw [hv.points, hv.numbers, List.length_cons]
      omega
    · have hpoints : ((some x, some y) :: rest).filterMap bothNumbers =
        (x, y) :: rest.filterMap bothNumbers := rfl
      have hnumbers : ((some x, some y) :: rest).flatMap numbersOf =
        x :: y :: rest.flatMap numbersOf := rfl
      rw [hpoints, hnumbers, List.length_cons, List.length_cons, List.length_cons]
      omega

theorem pairUp_shifted (v : R) (cs : List (Option R × Option R)) :
    pairUp (v :: cs.flatMap numbersOf) = cs.filterMap bothNumbers ↔
      ∀ d ∈ cs, d = (none, none) ∨ d = (some v, some v) := by
  induction cs generalizing v with
  | nil => simp [pairUp]
  | cons c rest ih =>
    rw [List.forall_mem_cons]
    rcases pair_cases c with rfl | ⟨w, hw⟩ | ⟨x, y, rfl⟩
    · rw [and_iff_right (.inl rfl)]
      exact ih v
    · rw [hw.points, hw.numbers]
      refine iff_of_false (fun heq => ?_) fun h => hw.not_whole h.1
      have hlength := congrArg List.length heq
      have hle := length_points_le rest
      rw [length_pairUp, List.length_cons, List.length_cons] at hlength
      omega
    · change (v, x) :: pairUp (y :: rest.flatMap numbersOf) =
        (x, y) :: rest.filterMap bothNumbers ↔ _
      rw [List.cons.injEq, Prod.mk.injEq, ih y]
      constructor
      · rintro ⟨⟨rfl, rfl⟩, hall⟩
        exact ⟨.inr rfl, hall⟩
      · rintro ⟨hd, hall⟩
        obtain ⟨rfl, rfl⟩ : x = v ∧ y = v := by simpa using hd
        exact ⟨⟨rfl, rfl⟩, hall⟩

theorem unshifted_cons (c : Option R × Option R) (rest : List (Option R × Option R)) :
    Unshifted (c :: rest) ↔
      (∀ v, Half v c → ∀ d ∈ rest, d = (none, none) ∨ d = (some v, some v)) ∧
        Unshifted rest := by
  constructor
  · intro h
    exact ⟨h [] c rest rfl, fun before d after heq => h (c :: before) d after (by rw [heq]; rfl)⟩
  · rintro ⟨hfirst, hrest⟩ before d after heq
    cases before with
    | nil =>
      cases heq
      exact hfirst
    | cons e before =>
      cases heq
      exact hrest before d after rfl

theorem unshifted_of_same {v : R} {cs : List (Option R × Option R)}
    (h : ∀ d ∈ cs, d = (none, none) ∨ d = (some v, some v)) : Unshifted cs := by
  intro before c rest heq w hhalf
  exact absurd (h c (heq ▸ List.mem_append_right _ List.mem_cons_self)) hhalf.not_whole

theorem unshifted_whole {c : Option R × Option R} (h : ∀ v, ¬ Half v c)
    (rest : List (Option R × Option R)) : Unshifted (c :: rest) ↔ Unshifted rest := by
  rw [unshifted_cons]
  exact and_iff_right fun v hv => absurd hv (h v)

theorem pairUp_eq_iff (cs : List (Option R × Option R)) :
    pairUp (cs.flatMap numbersOf) = cs.filterMap bothNumbers ↔ Unshifted cs := by
  induction cs with
  | nil => exact iff_of_true rfl fun before c rest heq => by simp at heq
  | cons c rest ih =>
    rcases pair_cases c with rfl | ⟨v, hv⟩ | ⟨x, y, rfl⟩
    · rw [unshifted_whole (by simp [Half])]
      exact ih
    · rw [hv.points, hv.numbers, pairUp_shifted, unshifted_cons]
      constructor
      · intro hall
        exact ⟨fun w hw => hv.eq hw ▸ hall, unshifted_of_same hall⟩
      · rintro ⟨hall, -⟩
        exact hall v hv
    · rw [unshifted_whole (by simp [Half]), ← ih]
      change (x, y) :: pairUp (rest.flatMap numbersOf) = (x, y) :: rest.filterMap bothNumbers ↔ _
      rw [List.cons.injEq, and_iff_right rfl]

theorem coordinatesOf_eq_iff (stod : Bytes → Option R) (text : Bytes) :
    coordinatesOf stod text = pointsAt stod text ↔ Unshifted (byTwo ((tokens text).map stod)) := by
  rw [← pairUp_eq_iff, numbers_byTwo, List.filterMap_map]
  unfold coordinatesOf pointsAt
  split
  · rename_i h
    subst h
    exact iff_of_true rfl rfl
  · rfl

theorem detectionOf_coordinates {lib : Nlohmann R} {stod : Bytes → Option R} {det : Json R}
    {d : Detection R} (h : detectionOf lib stod det = .ok d) :
    ∃ coords, text lib det "Coordinates" "" = .ok coords ∧
      d.coordinates = coordinatesOf stod (bytes coords) := by
  obtain ⟨labelId, -, h⟩ := bind_ok h
  obtain ⟨confidence, -, h⟩ := bind_ok h
  obtain ⟨fileName, -, h⟩ := bind_ok h
  obtain ⟨tsStart, -, h⟩ := bind_ok h
  obtain ⟨tsEnd, -, h⟩ := bind_ok h
  obtain ⟨coords, hcoords, h⟩ := bind_ok h
  cases h
  exact ⟨coords, hcoords, rfl⟩

theorem parse_toOption {lib : Nlohmann R} {part : Bytes} {j : Json R} (h : parse lib part = .ok j) :
    (lib.parse part).toOption = some j := by
  unfold parse at h
  cases hp : lib.parse part with
  | error t =>
    rw [hp] at h
    cases h
  | ok j' =>
    rw [hp] at h
    cases h
    rfl

theorem readResults_items {lib : Nlohmann R} {first : Bytes} {rest : List Bytes} {resp : Json R}
    {txn txn' : String} {items : List (Json R)} (hresp : parse lib first = .ok resp)
    (h : readResults lib resp txn (first :: rest) = .ok (some (items, txn'))) :
    resultItems lib (first :: rest) = some items := by
  have hfirst := parse_toOption hresp
  unfold readResults at h
  cases harray : resultArray resp with
  | some found =>
    rw [harray] at h
    cases h
    simp [resultItems, hfirst, harray]
  | none =>
    rw [harray] at h
    cases rest with
    | nil =>
      cases h
      simp [resultItems, hfirst, harray]
    | cons second rest =>
      obtain ⟨body, hbody, h⟩ := bind_ok h
      split at h
      · cases h
      · have hitems : items = (resultArray body).getD [] := by
          split at h
          · obtain ⟨_, -, h⟩ := bind_ok h
            cases h
            rfl
          · cases h
            rfl
        simp [resultItems, hfirst, harray, parse_toOption hbody, hitems]

theorem handleMessage_results {lib : Nlohmann R} {stod : Bytes → Option R} {parts : List Bytes}
    {dr : DetectionResponse R} (h : handleMessage lib stod parts = .ok (.response dr)) :
    ∃ items, resultItems lib parts = some items ∧
      List.Forall₂ (fun det d => detectionOf lib stod det = .ok d) items dr.results := by
  cases parts with
  | nil => cases h
  | cons first rest =>
    obtain ⟨resp, hresp, h⟩ := bind_ok h
    obtain ⟨transactionId, -, h⟩ := bind_ok h
    obtain ⟨dealerId, -, h⟩ := bind_ok h
    obtain ⟨tsReceived, -, h⟩ := bind_ok h
    obtain ⟨tsReplied, -, h⟩ := bind_ok h
    obtain ⟨read, hread, h⟩ := bind_ok h
    cases read with
    | none => cases h
    | some found =>
      obtain ⟨results, hresults, h⟩ := bind_ok h
      cases h
      exact ⟨found.1, readResults_items hresp hread, forall₂_mapM hresults⟩

/-- Of the detections that come out of a message, one for each of its items, the points are
those of the item's places just when no number that was dropped has shifted the ones behind it. -/
theorem handleMessage_coordinates {lib : Nlohmann R} {stod : Bytes → Option R}
    {parts : List Bytes} {dr : DetectionResponse R}
    (h : handleMessage lib stod parts = .ok (.response dr)) :
    ∃ items, resultItems lib parts = some items ∧ List.Forall₂ (fun det d => ∃ coords,
      text lib det "Coordinates" "" = .ok coords ∧
        (d.coordinates = pointsAt stod (bytes coords) ↔
          Unshifted (byTwo ((tokens (bytes coords)).map stod)))) items dr.results := by
  obtain ⟨items, hitems, hresults⟩ := handleMessage_results h
  refine ⟨items, hitems, List.Forall₂.imp ?_ hresults⟩
  intro det d hdet
  obtain ⟨coords, hcoords, hpoints⟩ := detectionOf_coordinates hdet
  refine ⟨coords, hcoords, ?_⟩
  rw [hpoints]
  exact coordinatesOf_eq_iff stod (bytes coords)

def digitsOf (token : Bytes) : Option ℤ :=
  if token ≠ [] ∧ token.all ClientServer.isDigit then some (ClientServer.decimal token) else none

def itemText (coords : String) : String :=
  "\x7b\"Confidence\":\"1\",\"Coordinates\":\"" ++ coords ++ "\"\x7d"

def item (coords : String) : Json ℤ :=
  .object [("Confidence", .string "1"), ("Coordinates", .string coords)]

def answerText (coords : List String) : Bytes :=
  bytes ("\x7b\"Result\":[" ++ ",".intercalate (coords.map itemText) ++ "]\x7d")

def answer (coords : List String) : Json ℤ := .object [("Result", .array (coords.map item))]

def answerLib (coords : List String) : Nlohmann ℤ := tableLib [(answerText coords, answer coords)]

def answered (points : List (List (ℤ × ℤ))) : DetectionResponse ℤ :=
  ⟨"", "", points.map fun coordinates => ⟨"", 1, "", coordinates, "", ""⟩, "", ""⟩

theorem parse_answer (coords : List String) :
    parse (answerLib coords) (answerText coords) = .ok (answer coords) := by
  simp [parse, answerLib, tableLib, Except.mapError]

theorem mapM_item (lib : Nlohmann ℤ) (coords : List String) :
    (coords.map item).mapM (detectionOf lib digitsOf) =
      .ok ((coords.map fun c => coordinatesOf digitsOf (bytes c)).map
        fun points => ⟨"", 1, "", points, "", ""⟩) := by
  induction coords with
  | nil => rfl
  | cons c coords ih =>
    rw [List.map_cons, List.mapM_cons, ih]
    rfl

theorem handleMessage_answer (coords : List String) :
    handleMessage (answerLib coords) digitsOf [answerText coords] =
      .ok (.response (answered (coords.map fun c => coordinatesOf digitsOf (bytes c)))) := by
  rw [handleMessage, parse_answer]
  change ((coords.map item).mapM (detectionOf (answerLib coords) digitsOf) >>= _) = _
  rw [mapM_item]
  rfl

theorem handleMessage_coordinates_points : ∃ dr,
    handleMessage (answerLib ["1,2,3,4", "5,6"]) digitsOf [answerText ["1,2,3,4", "5,6"]] =
        .ok (.response dr) ∧
      dr.results.map Detection.coordinates = [[(1, 2), (3, 4)], [(5, 6)]] ∧
      ∃ items, resultItems (answerLib ["1,2,3,4", "5,6"]) [answerText ["1,2,3,4", "5,6"]] =
          some items ∧ List.Forall₂ (fun det d => ∃ coords,
        text (answerLib ["1,2,3,4", "5,6"]) det "Coordinates" "" = .ok coords ∧
          (d.coordinates = pointsAt digitsOf (bytes coords) ↔
            Unshifted (byTwo ((tokens (bytes coords)).map digitsOf)))) items dr.results :=
  ⟨_, handleMessage_answer _, by decide, handleMessage_coordinates (handleMessage_answer _)⟩

/-- A second number that is none: every point behind it is put together from two. -/
theorem handleMessage_coordinates_shifted : ∃ dr,
    handleMessage (answerLib ["1,abc,3,4,5,6"]) digitsOf [answerText ["1,abc,3,4,5,6"]] =
      .ok (.response dr) ∧ dr.results.map Detection.coordinates = [[(1, 3), (4, 5)]] ∧
      pointsAt digitsOf (bytes "1,abc,3,4,5,6") = [(3, 4), (5, 6)] :=
  ⟨_, handleMessage_answer _, by decide, by decide⟩

end DetectionDealer
end EcidsCore
