import EcidsCore.RequestBody
import EcidsCore.WssServer
import Mathlib.Data.List.DropRight

set_option autoImplicit false

/-! The upgrade of a WebSocket connection: how its request is read, cut into lines and
searched for the key. -/
namespace EcidsCore
open ByteText PatternSearch ClientServer

namespace WssServer

def wsMagic : Bytes := bytes "258EAFA5-E914-47DA-95CA-C5AB0DC85B11"

def upgradeText : Bytes := bytes "Upgrade: websocket"

def upgradeTextLower : Bytes := bytes "upgrade: websocket"

def keyText : Bytes := bytes "Sec-WebSocket-Key:"

def keyTextLower : Bytes := bytes "sec-websocket-key:"

/-- The hash and the encoding are OpenSSL's. -/
def computeAcceptKey (sha1 base64 : Bytes → Bytes) (wsKey : Bytes) : Bytes :=
  base64 (sha1 (wsKey ++ wsMagic))

inductive TlsAccept where
  | done
  | retry
  | failed
deriving DecidableEq, Repr

/-- `SSL_accept`, called a second time where the first one asks for it. -/
def tlsAccepted (first second : TlsAccept) : Bool :=
  first = .done ∨ (first = .retry ∧ second = .done)

/-- The loop reads up to the blank line, as the one of the API server does. -/
def upgradeRequest (reads : List Bytes) : Bytes := (readHead [] reads).1

/-- `getline`, with what it has read of the line. -/
def getlines (line : Bytes) : Bytes → List Bytes
  | [] => if line = [] then [] else [line]
  | b :: bs => if b = 0x0A then line :: getlines [] bs else getlines (line ++ [b]) bs

/-- What stands in a line behind the name of the key header. -/
def behindName (line : Bytes) : Option Bytes :=
  match find keyText line with
  | some pos => some (line.drop (pos + 18))
  | none => (find keyTextLower line).map fun pos => line.drop (pos + 18)

/-- The loop over the lines: the number of the line at which it stops, and what stands
there behind the name. -/
def keyLine : List Bytes → Option (ℕ × Bytes)
  | [] => none
  | line :: lines =>
    match behindName line with
    | some rest => some (0, rest)
    | none => (keyLine lines).map fun found => (found.1 + 1, found.2)

def isLineEnd (b : UInt8) : Bool := b = 0x0D ∨ b = 0x0A

def trimKey (rest : Bytes) : Bytes := (rest.dropWhile isBlank).rdropWhile isLineEnd

def wsKey (request : Bytes) : Bytes :=
  match keyLine (getlines [] request) with
  | some found => trimKey found.2
  | none => []

def upgradeResponse (acceptKey : Bytes) : Bytes :=
  bytes "HTTP/1.1 101 Switching Protocols\r\nUpgrade: websocket\r\nConnection: Upgrade\r\nSec-WebSocket-Accept: "
    ++ acceptKey ++ bytes "\r\n\r\n"

def handshakeAnswer (sha1 base64 : Bytes → Bytes) (request : Bytes) : Option Bytes :=
  if find upgradeText request = none ∧ find upgradeTextLower request = none then none
  else if wsKey request = [] then none
  else some (upgradeResponse (computeAcceptKey sha1 base64 (wsKey request)))

/-- The bytes written, and whether the connection is kept. -/
def doHandshake (sha1 base64 : Bytes → Bytes) (first second : TlsAccept) (reads : List Bytes)
    (accepts : List ℕ) : Bytes × Bool :=
  if tlsAccepted first second then
    match handshakeAnswer sha1 base64 (upgradeRequest reads) with
    | some response => writeFrom response 0 accepts
    | none => ([], false)
  else ([], false)

structure HeaderField where
  name : Bytes
  before : Bytes
  value : Bytes
  behind : Bytes
  name_ne_nil : name ≠ []
  name_no_colon : 0x3A ∉ name
  name_oneLine : OneLine name
  blanks : ∀ b ∈ before ++ behind, isBlank b
  value_oneLine : OneLine value
  value_trimmed : ∀ b ∈ value.head?.toList ++ value.getLast?.toList, isBlank b = false

namespace HeaderField

def text (f : HeaderField) : Bytes := f.before ++ f.value ++ f.behind

def line (f : HeaderField) : Bytes := f.name ++ 0x3A :: f.text

def Named (f : HeaderField) (name : String) : Prop := f.name.map toLower = bytes name

instance (f : HeaderField) (name : String) : Decidable (f.Named name) :=
  inferInstanceAs (Decidable (_ = _))

/-- Equal but for the case of the name and of an upgrade's value, and for the blanks. -/
structure Alike (f g : HeaderField) : Prop where
  name : f.name.map toLower = g.name.map toLower
  value : if f.Named "upgrade" then f.value.map toLower = g.value.map toLower
    else f.value = g.value

end HeaderField

structure UpgradeHead where
  requestLine : Bytes
  fields : List HeaderField
  requestLine_oneLine : OneLine requestLine

namespace UpgradeHead

def lines (r : UpgradeHead) : List Bytes := r.requestLine :: r.fields.map HeaderField.line

def sent (r : UpgradeHead) : Bytes :=
  r.requestLine ++ fieldLines (r.fields.map fun f => (f.name, f.text)) ++ headEnd

structure Alike (r r' : UpgradeHead) : Prop where
  requestLine : r.requestLine = r'.requestLine
  fields : List.Forall₂ HeaderField.Alike r.fields r'.fields

end UpgradeHead

def keyName : Bytes := bytes "Sec-WebSocket-Key"

def keyNameLower : Bytes := bytes "sec-websocket-key"

def Spells (line : Bytes) : Prop := keyText <:+: line ∨ keyTextLower <:+: line

instance (line : Bytes) : Decidable (Spells line) := inferInstanceAs (Decidable (_ ∨ _))

def Behind (line rest : Bytes) : Prop :=
  ∃ pos, rest = line.drop (pos + 18) ∧
    (FirstAt keyText line pos ∨ ¬ keyText <:+: line ∧ FirstAt keyTextLower line pos)

theorem behindName_eq_none {line : Bytes} : behindName line = none ↔ ¬ Spells line := by
  rw [behindName, Spells, not_or, ← find_eq_none (show keyText ≠ [] by decide),
    ← find_eq_none (show keyTextLower ≠ [] by decide)]
  cases find keyText line <;> simp

theorem behindName_eq_some {line rest : Bytes} :
    behindName line = some rest ↔ Behind line rest := by
  have hupper : ∀ pos, find keyText line = some pos ↔ FirstAt keyText line pos :=
    fun pos => find_eq_some (by decide)
  have hlower : ∀ pos, find keyTextLower line = some pos ↔ FirstAt keyTextLower line pos :=
    fun pos => find_eq_some (by decide)
  simp only [Behind, ← hupper, ← hlower, ← find_eq_none (show keyText ≠ [] by decide)]
  unfold behindName
  cases hfind : find keyText line with
  | some pos => simp [eq_comm]
  | none => simp [eq_comm, and_comm]

theorem keyLine_eq_some {lines : List Bytes} {i : ℕ} {rest : Bytes} :
    keyLine lines = some (i, rest) ↔
      ∃ before line after, lines = before ++ line :: after ∧ before.length = i ∧
        (∀ l ∈ before, ¬ Spells l) ∧ Behind line rest := by
  induction lines generalizing i with
  | nil => simp [keyLine]
  | cons line lines ih =>
    rw [keyLine]
    cases hbehind : behindName line with
    | some text =>
      have hspells : Spells line := by
        by_contra hnone
        rw [behindName_eq_none.2 hnone] at hbehind
        cases hbehind
      have htext := behindName_eq_some.1 hbehind
      constructor
      · rintro ⟨rfl, rfl⟩
        exact ⟨[], line, lines, rfl, rfl, by simp, htext⟩
      · rintro ⟨before, l, after, heq, rfl, hbefore, hrest⟩
        cases before with
        | nil =>
          obtain ⟨rfl, rfl⟩ := List.cons.inj heq
          rw [← behindName_eq_some, hbehind] at hrest
          cases hrest
          rfl
        | cons b before =>
          obtain ⟨rfl, -⟩ := List.cons.inj heq
          exact absurd hspells (hbefore line List.mem_cons_self)
    | none =>
      have hnone := behindName_eq_none.1 hbehind
      constructor
      · intro hmap
        obtain ⟨⟨j, text⟩, hj, heq⟩ := Option.map_eq_some_iff.1 hmap
        cases heq
        obtain ⟨before, l, after, rfl, rfl, hbefore, hrest⟩ := ih.1 hj
        exact ⟨line :: before, l, after, rfl, rfl, List.forall_mem_cons.2 ⟨hnone, hbefore⟩, hrest⟩
      · rintro ⟨before, l, after, heq, rfl, hbefore, hrest⟩
        cases before with
        | nil =>
          obtain ⟨rfl, -⟩ := List.cons.inj heq
          rw [← behindName_eq_some, hbehind] at hrest
          cases hrest
        | cons b before =>
          obtain ⟨rfl, rfl⟩ := List.cons.inj heq
          rw [ih.2 ⟨before, l, after, rfl, rfl, (List.forall_mem_cons.1 hbefore).2, hrest⟩]
          rfl

theorem getlines_line {l : Bytes} (h : 0x0A ∉ l) (acc rest : Bytes) :
    getlines acc (l ++ 0x0A :: rest) = (acc ++ l) :: getlines [] rest := by
  induction l generalizing acc with
  | nil => rw [List.nil_append, List.append_nil, getlines, if_pos rfl]
  | cons b l ih =>
    obtain ⟨hb, hl⟩ := not_or.1 (mt List.mem_cons.2 h)
    rw [List.cons_append, getlines, if_neg (Ne.symm hb), ih hl, List.append_assoc]
    rfl

theorem behindName_concat (l : Bytes) :
    behindName (l ++ [0x0D]) = (behindName l).map (· ++ [0x0D]) := by
  have hdrop (needle : Bytes) (hlen : needle.length = 18) {pos : ℕ}
      (hfind : find needle l = some pos) :
      (l ++ [0x0D]).drop (pos + 18) = l.drop (pos + 18) ++ [0x0D] := by
    have hne : needle ≠ [] := by
      rintro rfl
      cases hlen
    have hle := length_of_prefix_drop hne ((find_eq_some hne).1 hfind).here
    exact List.drop_append_of_le_length (hlen ▸ hle)
  rw [behindName, behindName, find_concat (by decide) (by decide) l,
    find_concat (by decide) (by decide) l]
  cases hupper : find keyText l with
  | some pos => exact congrArg some (hdrop keyText rfl hupper)
  | none =>
    cases hlower : find keyTextLower l with
    | some pos => exact congrArg some (hdrop keyTextLower rfl hlower)
    | none => rfl

theorem keyLine_concat (lines : List Bytes) :
    keyLine (lines.map (· ++ [0x0D]) ++ [[0x0D]]) =
      (keyLine lines).map fun found => (found.1, found.2 ++ [0x0D]) := by
  induction lines with
  | nil => rfl
  | cons l lines ih =>
    rw [List.map_cons, List.cons_append, keyLine, keyLine, behindName_concat, ih]
    cases behindName l with
    | some rest => rfl
    | none => cases keyLine lines <;> rfl

theorem trimKey_concat {rest : Bytes} (h : OneLine rest) :
    trimKey (rest ++ [0x0D]) = rest.dropWhile isBlank := by
  have hdrop : (rest ++ [0x0D]).dropWhile isBlank = rest.dropWhile isBlank ++ [0x0D] := by
    rw [List.dropWhile_append]
    split
    · rename_i hnil
      rw [List.isEmpty_iff.1 hnil]
      rfl
    · rfl
  rw [trimKey, hdrop, List.rdropWhile_concat_pos _ _ _ (by decide), List.rdropWhile_eq_self_iff]
  intro hne hend
  have hmem : (rest.dropWhile isBlank).getLast hne ∈ rest :=
    (List.dropWhile_suffix isBlank).subset (List.getLast_mem hne)
  rcases of_decide_eq_true hend with hcr | hlf
  · exact h.1 (hcr ▸ hmem)
  · exact h.2 (hlf ▸ hmem)

namespace HeaderField

theorem isBlank_not_lineEnd {b : UInt8} (h : isBlank b) : b ≠ 0x0D ∧ b ≠ 0x0A := by
  constructor <;> rintro rfl <;> exact absurd h (by decide)

theorem text_oneLine (f : HeaderField) : OneLine f.text := by
  have hblank : ∀ b ∈ f.before ++ f.behind, b ≠ 0x0D ∧ b ≠ 0x0A :=
    fun b hb => isBlank_not_lineEnd (f.blanks b hb)
  simp only [List.mem_append, or_imp, forall_and] at hblank
  obtain ⟨⟨hcr, hcr'⟩, hlf, hlf'⟩ := hblank
  constructor
  · simp only [text, List.mem_append, not_or]
    exact ⟨⟨fun h => hcr _ h rfl, f.value_oneLine.1⟩, fun h => hcr' _ h rfl⟩
  · simp only [text, List.mem_append, not_or]
    exact ⟨⟨fun h => hlf _ h rfl, f.value_oneLine.2⟩, fun h => hlf' _ h rfl⟩

theorem line_oneLine (f : HeaderField) : OneLine f.line := by
  have hname := f.name_oneLine
  have htext := f.text_oneLine
  constructor
  · simp only [line, List.mem_append, List.mem_cons, not_or]
    exact ⟨hname.1, by decide, htext.1⟩
  · simp only [line, List.mem_append, List.mem_cons, not_or]
    exact ⟨hname.2, by decide, htext.2⟩

end HeaderField

namespace UpgradeHead

theorem lines_oneLine (r : UpgradeHead) : ∀ l ∈ r.lines, OneLine l := by
  intro l hl
  rcases List.mem_cons.1 hl with rfl | hl
  · exact r.requestLine_oneLine
  · obtain ⟨f, -, rfl⟩ := List.mem_map.1 hl
    exact f.line_oneLine

theorem getlines_fields {l : Bytes} (hl : OneLine l) (fields : List HeaderField) :
    getlines [] (l ++ fieldLines (fields.map fun f => (f.name, f.text)) ++ headEnd) =
      (l :: fields.map HeaderField.line).map (· ++ [0x0D]) ++ [[0x0D]] := by
  have hlf : (0x0A : UInt8) ∉ l ++ [0x0D] := by
    simpa using hl.2
  induction fields generalizing l with
  | nil =>
    have hsplit : l ++ [] ++ headEnd = (l ++ [0x0D]) ++ 0x0A :: ([0x0D] ++ 0x0A :: []) := by
      simp [headEnd]
    show getlines [] (l ++ [] ++ headEnd) = _
    rw [hsplit, getlines_line hlf, getlines_line (by decide)]
    rfl
  | cons f fields ih =>
    have hline := f.line_oneLine
    have hflf : (0x0A : UInt8) ∉ f.line ++ [0x0D] := by
      simpa using hline.2
    have hsplit : l ++ fieldLines ((f :: fields).map fun f => (f.name, f.text)) ++ headEnd =
        (l ++ [0x0D]) ++ 0x0A ::
          (f.line ++ fieldLines (fields.map fun f => (f.name, f.text)) ++ headEnd) := by
      simp [fieldLines, HeaderField.line]
    rw [hsplit, getlines_line hlf, ih hline hflf]
    rfl

theorem getlines_sent (r : UpgradeHead) :
    getlines [] r.sent = r.lines.map (· ++ [0x0D]) ++ [[0x0D]] :=
  getlines_fields r.requestLine_oneLine r.fields

theorem trimKey_of_keyLine {r : UpgradeHead} {found : ℕ × Bytes}
    (h : keyLine r.lines = some found) :
    trimKey (found.2 ++ [0x0D]) = found.2.dropWhile isBlank := by
  obtain ⟨before, line, after, hlines, -, -, pos, hrest, -⟩ := keyLine_eq_some.1 h
  have hone := r.lines_oneLine line (hlines ▸ List.mem_append_right before List.mem_cons_self)
  rw [hrest]
  exact trimKey_concat ⟨fun h => hone.1 (List.mem_of_mem_drop h), fun h => hone.2 (List.mem_of_mem_drop h)⟩

theorem wsKey_sent (r : UpgradeHead) :
    wsKey r.sent =
      match keyLine r.lines with
      | some found => found.2.dropWhile isBlank
      | none => [] := by
  rw [wsKey, getlines_sent, keyLine_concat]
  cases hline : keyLine r.lines with
  | none => rfl
  | some found => exact trimKey_of_keyLine hline

theorem firstAt_sent (r : UpgradeHead) :
    FirstAt headEnd r.sent (r.requestLine ++ fieldLines (r.fields.map fun f => (f.name, f.text))).length := by
  have hfields : FirstAt headEnd (fieldLines (r.fields.map fun f => (f.name, f.text)) ++ headEnd) _ :=
    firstAt_fieldLines (by simp only [List.forall_mem_map]; exact fun f _ => f.name_ne_nil)
    (by simp only [List.forall_mem_map]; exact fun f _ => ⟨f.name_oneLine, f.text_oneLine⟩)
  rw [sent, List.append_assoc, List.length_append]
  exact (firstAt_skip r.requestLine r.requestLine_oneLine.1).2 hfields

theorem upgradeRequest_sent {r : UpgradeHead} {reads : List Bytes} (h : HandedOver r.sent reads) :
    upgradeRequest reads = r.sent := by
  obtain ⟨k, hread, -⟩ := readHead_reads [] reads
  have hfound : FirstAt headEnd (upgradeRequest reads) _ :=
    readHead_found (by rw [List.nil_append, h.1]; exact r.firstAt_sent) rfl
  have hle := length_of_prefix_drop headEnd_ne_nil hfound.here
  have hstarts : upgradeRequest reads <+: r.sent := by
    rw [upgradeRequest, hread, List.nil_append, ← h.1]
    exact (List.take_prefix k reads).flatten
  refine hstarts.eq_of_length_le ?_
  rw [sent, List.length_append]
  exact hle

end UpgradeHead

end WssServer
end EcidsCore
