import EcidsCore.Base64Codec
import EcidsCore.WssHandshake

set_option autoImplicit false

/-! For which upgrade requests the answer does not depend on the spelling of the headers:
the ones answered off their key header, and the ones refused. -/
namespace EcidsCore
open ByteText PatternSearch ClientServer

namespace WssServer

namespace HeaderField
variable {f : HeaderField}

theorem name_length (h : f.Named "sec-websocket-key") : f.name.length = 17 := by
  rw [← List.length_map (f := toLower), h]
  rfl

theorem line_drop (h : f.name.length = 17) (pos : ℕ) : f.line.drop (pos + 18) = f.text.drop pos := by
  have hlen : (f.name ++ [0x3A]).length = 18 := by
    rw [List.length_append, h]
    rfl
  rw [line, List.append_cons, Nat.add_comm, ← hlen, List.drop_length_add_append]

theorem behind_eq_nil (hne : f.value ≠ []) (h : f.value <:+ f.text) : f.behind = [] := by
  by_contra hbehind
  obtain ⟨s, hs⟩ := h
  have hlast : f.value.getLast? = f.behind.getLast? := by
    have hends := congrArg List.getLast? hs
    rwa [text, List.getLast?_append_of_ne_nil _ hne, List.getLast?_append_of_ne_nil _ hbehind] at hends
  obtain ⟨b, hb⟩ := Option.isSome_iff_exists.1 (List.getLast?_isSome.2 hbehind)
  have hblank := f.blanks b (List.mem_append_right _ (List.mem_of_getLast? hb))
  rw [f.value_trimmed b (List.mem_append_right _ (by rw [hlast, hb]; exact List.mem_singleton_self b))] at hblank
  cases hblank

theorem not_prefix_in_blanks {spelling : Bytes} (hcolon : spelling[17]? = some 0x3A)
    (hname : f.name.length = 17) {pos : ℕ} (hpos : 0 < pos) (hle : pos ≤ f.before.length) :
    ¬ spelling <+: f.line.drop pos := by
  rintro ⟨tail, htail⟩
  have hspelling := (List.getElem?_eq_some_iff.1 hcolon).1
  have hat : f.line[pos + 17]? = some 0x3A := by
    rw [← List.getElem?_drop, ← htail, List.getElem?_append_left hspelling, hcolon]
  have hindex : pos + 17 = pos - 1 + 18 + 0 := by omega
  rw [hindex, ← List.getElem?_drop, line_drop hname, List.getElem?_drop, text, List.append_assoc,
    List.getElem?_append_left (by omega)] at hat
  have hblank := f.blanks 0x3A (List.mem_append_left _ (List.mem_of_getElem? hat))
  exact absurd hblank (by decide)

theorem name_of_line_start (spelled : Bytes) (hlen : f.name.length = spelled.length)
    (h : spelled ++ [0x3A] <+: f.line) : f.name = spelled := by
  obtain ⟨tail, htail⟩ := h
  rw [line, List.append_assoc] at htail
  exact (List.append_inj_left htail hlen.symm).symm

theorem prefix_of_name {spelled : Bytes} (h : f.name = spelled) : spelled ++ [0x3A] <+: f.line :=
  ⟨f.text, by rw [line, h, List.append_assoc]; rfl⟩

theorem dropWhile_text (h : f.behind = []) : f.text.dropWhile isBlank = f.value := by
  have hblanks : ∀ b ∈ f.before, isBlank b := fun b hb => f.blanks b (List.mem_append_left _ hb)
  rw [text, h, List.append_nil, List.dropWhile_append_of_pos hblanks]
  cases hvalue : f.value with
  | nil => rfl
  | cons b value =>
    have hb := f.value_trimmed b (List.mem_append_left _ (by rw [hvalue]; exact List.mem_singleton_self b))
    exact List.dropWhile_cons_of_neg (by simp [hb])

/-- The key is read off its header's line exactly when the name has one of the two
spellings and no blanks stand behind the value. -/
theorem key_of_line (hname : f.Named "sec-websocket-key") (hne : f.value ≠ []) {rest : Bytes}
    (h : Behind f.line rest) :
    rest.dropWhile isBlank = f.value ↔
      f.behind = [] ∧
        (f.name = keyName ∨ f.name = keyNameLower ∧ ¬ keyText <:+: f.line) := by
  have hlen := name_length hname
  obtain ⟨pos, rfl, hfirst⟩ := h
  rw [line_drop hlen]
  constructor
  · intro hkey
    have hsuffix : f.value <:+ f.text :=
      hkey ▸ (List.dropWhile_suffix isBlank).trans (List.drop_suffix pos f.text)
    have hbehind := behind_eq_nil hne hsuffix
    have hle : pos ≤ f.before.length := by
      have hkeylen := (List.dropWhile_suffix (l := f.text.drop pos) isBlank).length_le
      have hpos := List.length_pos_iff.2 hne
      rw [hkey, List.length_drop, text, hbehind, List.append_nil, List.length_append] at hkeylen
      omega
    -- a spelling farther on would have its colon among the blanks
    have hstart {spelling : Bytes} (hcolon : spelling[17]? = some 0x3A)
        (hhere : spelling <+: f.line.drop pos) : spelling <+: f.line := by
      rcases Nat.eq_zero_or_pos pos with rfl | hpos
      · exact hhere
      · exact absurd hhere (not_prefix_in_blanks hcolon hlen hpos hle)
    refine ⟨hbehind, ?_⟩
    rcases hfirst with hupper | ⟨hnone, hlower⟩
    · exact .inl (name_of_line_start keyName hlen (hstart rfl hupper.here))
    · exact .inr ⟨name_of_line_start keyNameLower hlen (hstart rfl hlower.here), hnone⟩
  · rintro ⟨hbehind, hspelled⟩
    have hfirstAt {spelling : Bytes} (hstarts : spelling <+: f.line) : FirstAt spelling f.line 0 :=
      ⟨hstarts, fun j hj => absurd hj (Nat.not_lt_zero j)⟩
    have hpos : pos = 0 := by
      rcases hspelled with hname | ⟨hname, hnone⟩
      · have hstarts : keyText <+: f.line := prefix_of_name hname
        rcases hfirst with hupper | ⟨hnone, -⟩
        · exact hupper.unique (hfirstAt hstarts)
        · exact absurd hstarts.isInfix hnone
      · have hstarts : keyTextLower <+: f.line := prefix_of_name hname
        rcases hfirst with hupper | ⟨-, hlower⟩
        · exact absurd (exists_firstAt.1 ⟨pos, hupper⟩) hnone
        · exact hlower.unique (hfirstAt hstarts)
    rw [hpos, List.drop_zero, dropWhile_text hbehind]

end HeaderField

namespace UpgradeHead

def Upgrades (r : UpgradeHead) : Prop := upgradeText <:+: r.sent ∨ upgradeTextLower <:+: r.sent

instance (r : UpgradeHead) : Decidable r.Upgrades := inferInstanceAs (Decidable (_ ∨ _))

/-- The request is answered off its key header: one of the searched texts stands in it, no
line before that header has a spelling of its name, the header's own name has one (and the
line of a lower-case name not the other), its value is not empty, and no blanks follow. -/
def TakesKey (r : UpgradeHead) : Prop :=
  r.Upgrades ∧ ∃ before f after, r.fields = before ++ f :: after ∧
    f.Named "sec-websocket-key" ∧ (∀ g ∈ before, ¬ g.Named "sec-websocket-key") ∧
    (∀ l ∈ r.requestLine :: before.map HeaderField.line, ¬ Spells l) ∧
    f.value ≠ [] ∧ f.behind = [] ∧
    (f.name = keyName ∨ f.name = keyNameLower ∧ ¬ keyText <:+: f.line)

/-- The request is refused: neither text stands in it, or no line has a spelling of the
key header's name, or nothing but blanks follows it in the first line that has. -/
def Refused (r : UpgradeHead) : Prop :=
  ¬ r.Upgrades ∨ ∀ before line after rest, r.lines = before ++ line :: after →
    (∀ l ∈ before, ¬ Spells l) → Behind line rest → ∀ b ∈ rest, isBlank b

/-- The response carries the accept value of the key header, off whose line it was read. -/
def AnsweredByKey (sha1 base64 : Bytes → Bytes) (r : UpgradeHead) (response : Bytes) : Prop :=
  ∃ before f after rest, r.fields = before ++ f :: after ∧
    f.Named "sec-websocket-key" ∧ (∀ g ∈ before, ¬ g.Named "sec-websocket-key") ∧
    keyLine (getlines [] r.sent) = some (before.length + 1, rest) ∧ trimKey rest = f.value ∧
    response = upgradeResponse (computeAcceptKey sha1 base64 f.value)

variable {sha1 base64 : Bytes → Bytes}

theorem handshakeAnswer_sent (r : UpgradeHead) :
    handshakeAnswer sha1 base64 r.sent =
      if r.Upgrades ∧ wsKey r.sent ≠ [] then
        some (upgradeResponse (computeAcceptKey sha1 base64 (wsKey r.sent)))
      else none := by
  have hupgrades : (find upgradeText r.sent = none ∧ find upgradeTextLower r.sent = none) ↔
      ¬ r.Upgrades := by
    rw [find_eq_none (by decide), find_eq_none (by decide), Upgrades, not_or]
  unfold handshakeAnswer
  by_cases hup : r.Upgrades
  · rw [if_neg (not_not.2 hup ∘ hupgrades.1)]
    by_cases hkey : wsKey r.sent = []
    · rw [if_pos hkey, if_neg fun h => h.2 hkey]
    · rw [if_neg hkey, if_pos ⟨hup, hkey⟩]
  · rw [if_pos (hupgrades.2 hup), if_neg fun h => hup h.1]

theorem handshakeAnswer_eq_none {r : UpgradeHead} :
    handshakeAnswer sha1 base64 r.sent = none ↔ r.Refused := by
  have hkey : wsKey r.sent = [] ↔
      ∀ before line after rest, r.lines = before ++ line :: after →
        (∀ l ∈ before, ¬ Spells l) → Behind line rest → ∀ b ∈ rest, isBlank b := by
    rw [wsKey_sent]
    cases hline : keyLine r.lines with
    | none =>
      refine iff_of_true rfl ?_
      intro before line after rest hlines hbefore hrest
      rw [keyLine_eq_some.2 ⟨before, line, after, hlines, rfl, hbefore, hrest⟩] at hline
      cases hline
    | some found =>
      obtain ⟨before, line, after, hlines, hcount, hbefore, hrest⟩ := keyLine_eq_some.1 hline
      show found.2.dropWhile isBlank = [] ↔ _
      rw [List.dropWhile_eq_nil_iff]
      constructor
      · intro hblank before' line' after' rest' hlines' hbefore' hrest'
        have hsame := keyLine_eq_some.2 ⟨before', line', after', hlines', rfl, hbefore', hrest'⟩
        rw [hline] at hsame
        cases hsame
        exact hblank
      · intro hall
        exact hall before line after found.2 hlines hbefore hrest
  rw [handshakeAnswer_sent, Refused, ← hkey]
  by_cases hup : r.Upgrades <;> by_cases hnil : wsKey r.sent = [] <;> simp [hup, hnil]

theorem keyLine_field {r : UpgradeHead} {before after : List HeaderField} {f : HeaderField}
    (hfields : r.fields = before ++ f :: after) {rest : Bytes} :
    keyLine r.lines = some (before.length + 1, rest) ↔
      (∀ l ∈ r.requestLine :: before.map HeaderField.line, ¬ Spells l) ∧ Behind f.line rest := by
  have hlines : r.lines = (r.requestLine :: before.map HeaderField.line) ++
      f.line :: after.map HeaderField.line := by
    rw [lines, hfields, List.map_append, List.map_cons, List.cons_append]
  have hlen : (r.requestLine :: before.map HeaderField.line).length = before.length + 1 := by
    rw [List.length_cons, List.length_map]
  rw [keyLine_eq_some]
  constructor
  · rintro ⟨front, line, back, hsplit, hcount, hfront, hrest⟩
    obtain ⟨rfl, hback⟩ := List.append_inj (hlines.symm.trans hsplit) (hlen.trans hcount.symm)
    obtain ⟨rfl, -⟩ := List.cons.inj hback
    exact ⟨hfront, hrest⟩
  · rintro ⟨hfront, hrest⟩
    exact ⟨_, _, _, hlines, hlen, hfront, hrest⟩

theorem keyLine_sent {r : UpgradeHead} {i : ℕ} {key : Bytes} :
    (∃ rest, keyLine (getlines [] r.sent) = some (i, rest) ∧ trimKey rest = key) ↔
      ∃ rest, keyLine r.lines = some (i, rest) ∧ rest.dropWhile isBlank = key := by
  rw [getlines_sent, keyLine_concat]
  constructor
  · rintro ⟨rest, hrest, hkey⟩
    obtain ⟨⟨j, text⟩, hfound, heq⟩ := Option.map_eq_some_iff.1 hrest
    cases heq
    exact ⟨text, hfound, (trimKey_of_keyLine hfound).symm.trans hkey⟩
  · rintro ⟨rest, hfound, hkey⟩
    exact ⟨rest ++ [0x0D], by rw [hfound]; rfl, (trimKey_of_keyLine hfound).trans hkey⟩

theorem spells_of_name {f : HeaderField} (h : f.name = keyName ∨ f.name = keyNameLower) :
    Spells f.line :=
  h.imp (fun hname => (HeaderField.prefix_of_name hname : keyText <+: f.line).isInfix)
    fun hname => (HeaderField.prefix_of_name hname : keyTextLower <+: f.line).isInfix

theorem answered_iff {r : UpgradeHead} :
    (∃ response, handshakeAnswer sha1 base64 r.sent = some response ∧
      r.AnsweredByKey sha1 base64 response) ↔ r.TakesKey := by
  constructor
  · rintro ⟨response, hanswer, before, f, after, rest, hfields, hnamed, hfirst, hline, hkey, -⟩
    rw [handshakeAnswer_sent] at hanswer
    split_ifs at hanswer with hup
    have hwsKey : wsKey r.sent = f.value := by rw [wsKey, hline]; exact hkey
    have hne : f.value ≠ [] := hwsKey ▸ hup.2
    obtain ⟨text, htext, hvalue⟩ := keyLine_sent.1 ⟨rest, hline, hkey⟩
    obtain ⟨hfront, hbehind⟩ := (keyLine_field hfields).1 htext
    exact ⟨hup.1, before, f, after, hfields, hnamed, hfirst, hfront, hne,
      (HeaderField.key_of_line hnamed hne hbehind).1 hvalue⟩
  · rintro ⟨hup, before, f, after, hfields, hnamed, hfirst, hfront, hne, hspelled⟩
    obtain ⟨text, hbehind⟩ : ∃ text, Behind f.line text := by
      have hspells := spells_of_name (hspelled.2.imp_right And.left)
      cases hname : behindName f.line with
      | none => exact absurd hspells (behindName_eq_none.1 hname)
      | some text => exact ⟨text, behindName_eq_some.1 hname⟩
    have hvalue := (HeaderField.key_of_line hnamed hne hbehind).2 hspelled
    obtain ⟨rest, hline, hkey⟩ :=
      keyLine_sent.2 ⟨text, (keyLine_field hfields).2 ⟨hfront, hbehind⟩, hvalue⟩
    have hwsKey : wsKey r.sent = f.value := by rw [wsKey, hline]; exact hkey
    refine ⟨upgradeResponse (computeAcceptKey sha1 base64 f.value), ?_, before, f, after, rest,
      hfields, hnamed, hfirst, hline, hkey, rfl⟩
    rw [handshakeAnswer_sent, if_pos ⟨hup, hwsKey ▸ hne⟩, hwsKey]

theorem Alike.key_value {r r' : UpgradeHead} (h : r.Alike r') {before before' after after' : List HeaderField}
    {f f' : HeaderField} (hfields : r.fields = before ++ f :: after)
    (hfields' : r'.fields = before' ++ f' :: after') (hf : f.Named "sec-websocket-key")
    (hf' : f'.Named "sec-websocket-key") (hbefore : ∀ g ∈ before, ¬ g.Named "sec-websocket-key")
    (hbefore' : ∀ g ∈ before', ¬ g.Named "sec-websocket-key") : f.value = f'.value := by
  have hall := h.fields
  rw [hfields, hfields'] at hall
  clear hfields hfields' h
  induction before generalizing before' with
  | nil =>
    cases before' with
    | nil =>
      obtain ⟨halike, -⟩ := List.forall₂_cons.1 hall
      have hvalue := halike.value
      rwa [if_neg (by rw [HeaderField.Named, hf]; decide)] at hvalue
    | cons g before' =>
      obtain ⟨halike, -⟩ := List.forall₂_cons.1 hall
      exact absurd (halike.name.symm.trans hf) (hbefore' g List.mem_cons_self)
  | cons g before ih =>
    cases before' with
    | nil =>
      obtain ⟨halike, -⟩ := List.forall₂_cons.1 hall
      exact absurd (halike.name.trans hf') (hbefore g List.mem_cons_self)
    | cons g' before' =>
      obtain ⟨-, hrest⟩ := List.forall₂_cons.1 hall
      exact ih (List.forall_mem_cons.1 hbefore).2 (List.forall_mem_cons.1 hbefore').2 hrest

theorem Alike.response_eq {r r' : UpgradeHead} (h : r.Alike r') {response response' : Bytes}
    (hr : r.AnsweredByKey sha1 base64 response) (hr' : r'.AnsweredByKey sha1 base64 response') :
    response = response' := by
  obtain ⟨before, f, after, -, hfields, hf, hbefore, -, -, rfl⟩ := hr
  obtain ⟨before', f', after', -, hfields', hf', hbefore', -, -, rfl⟩ := hr'
  rw [h.key_value hfields hfields' hf hf' hbefore hbefore']

end UpgradeHead

/-- Both requests are decided alike, and an answer carries the accept value of the header
that holds the key, read off that header's line in both. -/
structure SameAnswer (sha1 base64 : Bytes → Bytes) (r r' : UpgradeHead) (reads reads' : List Bytes) :
    Prop where
  handshake : ∀ first second accepts, doHandshake sha1 base64 first second reads accepts =
    doHandshake sha1 base64 first second reads' accepts
  answer : handshakeAnswer sha1 base64 (upgradeRequest reads) =
    handshakeAnswer sha1 base64 (upgradeRequest reads')
  byKey : ∀ response, handshakeAnswer sha1 base64 (upgradeRequest reads) = some response →
    r.AnsweredByKey sha1 base64 response ∧ r'.AnsweredByKey sha1 base64 response

variable {sha1 base64 : Bytes → Bytes} {r r' : UpgradeHead} {reads reads' : List Bytes}

theorem answers_agree (halike : r.Alike r')
    (hcond : (r.TakesKey ∧ r'.TakesKey) ∨ (r.Refused ∧ r'.Refused)) :
    handshakeAnswer sha1 base64 r.sent = handshakeAnswer sha1 base64 r'.sent ∧
      ∀ response, handshakeAnswer sha1 base64 r.sent = some response →
        r.AnsweredByKey sha1 base64 response ∧ r'.AnsweredByKey sha1 base64 response := by
  rcases hcond with ⟨htakes, htakes'⟩ | ⟨hrefused, hrefused'⟩
  · obtain ⟨response, hdecided, hbyKey⟩ := (@UpgradeHead.answered_iff sha1 base64 r).2 htakes
    obtain ⟨response', hdecided', hbyKey'⟩ :=
      (@UpgradeHead.answered_iff sha1 base64 r').2 htakes'
    obtain rfl := halike.response_eq hbyKey hbyKey'
    refine ⟨hdecided.trans hdecided'.symm, ?_⟩
    intro response' hresponse'
    obtain rfl := Option.some.inj (hdecided.symm.trans hresponse')
    exact ⟨hbyKey, hbyKey'⟩
  · have hnone := (@UpgradeHead.handshakeAnswer_eq_none sha1 base64 r).2 hrefused
    have hnone' := (@UpgradeHead.handshakeAnswer_eq_none sha1 base64 r').2 hrefused'
    refine ⟨hnone.trans hnone'.symm, ?_⟩
    intro response hresponse
    rw [hnone] at hresponse
    cases hresponse

/-- Two requests that differ only in spelling are answered alike, off their key headers,
exactly when both are answered off their key headers or both are refused. -/
theorem sameAnswer_iff (halike : r.Alike r') (hr : HandedOver r.sent reads)
    (hr' : HandedOver r'.sent reads') :
    SameAnswer sha1 base64 r r' reads reads' ↔
      (r.TakesKey ∧ r'.TakesKey) ∨ (r.Refused ∧ r'.Refused) := by
  have hreads := UpgradeHead.upgradeRequest_sent hr
  have hreads' := UpgradeHead.upgradeRequest_sent hr'
  constructor
  · rintro ⟨-, hanswer, hkey⟩
    rw [hreads, hreads'] at hanswer
    rw [hreads] at hkey
    cases hdecided : handshakeAnswer sha1 base64 r.sent with
    | none =>
      rw [hdecided] at hanswer
      exact .inr ⟨UpgradeHead.handshakeAnswer_eq_none.1 hdecided,
        UpgradeHead.handshakeAnswer_eq_none.1 hanswer.symm⟩
    | some response =>
      rw [hdecided] at hanswer
      obtain ⟨hbyKey, hbyKey'⟩ := hkey response hdecided
      exact .inl ⟨UpgradeHead.answered_iff.1 ⟨response, hdecided, hbyKey⟩,
        UpgradeHead.answered_iff.1 ⟨response, hanswer.symm, hbyKey'⟩⟩
  · intro hcond
    have hsame := @answers_agree sha1 base64 r r' halike hcond
    refine ⟨?_, ?_, ?_⟩
    · intro first second accepts
      rw [doHandshake, doHandshake, hreads, hreads', hsame.1]
    · rw [hreads, hreads', hsame.1]
    · rw [hreads]
      exact hsame.2

def sampleSha1 (b : Bytes) : Bytes :=
  if b = bytes "dGhlIHNhbXBsZSBub25jZQ==" ++ wsMagic then
    [0xB3, 0x7A, 0x4F, 0x2C, 0xC0, 0x62, 0x4F, 0x16, 0x90, 0xF6, 0x46, 0x06, 0xCF, 0x38, 0x59,
      0x45, 0xB2, 0xBE, 0xC4, 0xEA]
  else []

def sampleBase64 (b : Bytes) : Bytes := (Base64Codec.encode b).map fun ch => UInt8.ofNat ch.toNat

/-- A header with one blank in front of its value. -/
def plainField (name value : String)
    (h : bytes name ≠ [] ∧ 0x3A ∉ bytes name ∧ OneLine (bytes name) ∧ OneLine (bytes value) ∧
      ∀ b ∈ (bytes value).head?.toList ++ (bytes value).getLast?.toList, isBlank b = false) :
    HeaderField where
  name := bytes name
  before := [0x20]
  value := bytes value
  behind := []
  name_ne_nil := h.1
  name_no_colon := h.2.1
  name_oneLine := h.2.2.1
  blanks := List.forall_mem_singleton.2 rfl
  value_oneLine := h.2.2.2.1
  value_trimmed := h.2.2.2.2

def upgradeField : HeaderField := plainField "Upgrade" "websocket" (by decide +kernel)
def loweredUpgrade : HeaderField := plainField "upgrade" "websocket" (by decide +kernel)
def namedUpgrade : HeaderField := plainField "Upgrade" "WebSocket" (by decide +kernel)

def keyField : HeaderField :=
  plainField "Sec-WebSocket-Key" "dGhlIHNhbXBsZSBub25jZQ==" (by decide +kernel)

def loweredKey : HeaderField :=
  plainField "sec-websocket-key" "dGhlIHNhbXBsZSBub25jZQ==" (by decide +kernel)

def sampleHead (upgrade key : HeaderField) : UpgradeHead where
  requestLine := bytes "GET /ws HTTP/1.1"
  fields := [plainField "Host" "ecids" (by decide +kernel), upgrade,
    plainField "Connection" "Upgrade" (by decide +kernel), key,
    plainField "Sec-WebSocket-Version" "13" (by decide +kernel)]
  requestLine_oneLine := by decide +kernel

def browserHead : UpgradeHead := sampleHead upgradeField keyField

def loweredHead : UpgradeHead := sampleHead loweredUpgrade loweredKey

def namedHead : UpgradeHead := sampleHead namedUpgrade keyField

theorem browserHead_takesKey : browserHead.TakesKey := by
  refine ⟨by decide +kernel, browserHead.fields.take 3, _, _, rfl, ?_⟩
  decide +kernel

theorem loweredHead_takesKey : loweredHead.TakesKey := by
  refine ⟨by decide +kernel, loweredHead.fields.take 3, _, _, rfl, ?_⟩
  decide +kernel

theorem browserHead_alike {upgrade key : HeaderField}
    (hupgrade : upgradeField.Alike upgrade) (hkey : keyField.Alike key) :
    browserHead.Alike (sampleHead upgrade key) where
  requestLine := rfl
  fields := by
    have hself (f : HeaderField) : f.Alike f := ⟨rfl, by split <;> rfl⟩
    exact .cons (hself _) (.cons hupgrade (.cons (hself _) (.cons hkey (.cons (hself _) .nil))))

theorem sameAnswer_lowered :
    SameAnswer sampleSha1 sampleBase64 browserHead loweredHead [browserHead.sent]
        (loweredHead.sent.map ([·])) ∧
      handshakeAnswer sampleSha1 sampleBase64 browserHead.sent =
        some (upgradeResponse (bytes "s3pPLMBiTxaQ9kYGzzhZRbK+xOo=")) := by
  refine ⟨(sameAnswer_iff ?_ ?_ (handedOver_bytes _)).2
    (.inl ⟨browserHead_takesKey, loweredHead_takesKey⟩), ?_⟩
  · exact browserHead_alike ⟨by decide, by decide⟩ ⟨by decide, by decide⟩
  · exact ⟨List.append_nil _, List.forall_mem_singleton.2 (by decide +kernel)⟩
  · decide +kernel

/-- The upgrade's value in another case: one is answered, the other refused. -/
theorem sameAnswer_counterexample :
    browserHead.Alike namedHead ∧ HandedOver browserHead.sent [browserHead.sent] ∧
      HandedOver namedHead.sent [namedHead.sent] ∧
      handshakeAnswer sampleSha1 sampleBase64 (upgradeRequest [browserHead.sent]) =
        some (upgradeResponse (bytes "s3pPLMBiTxaQ9kYGzzhZRbK+xOo=")) ∧
      handshakeAnswer sampleSha1 sampleBase64 (upgradeRequest [namedHead.sent]) = none ∧
      ¬ SameAnswer sampleSha1 sampleBase64 browserHead namedHead [browserHead.sent]
        [namedHead.sent] := by
  have hanswer : handshakeAnswer sampleSha1 sampleBase64 (upgradeRequest [browserHead.sent]) =
      some (upgradeResponse (bytes "s3pPLMBiTxaQ9kYGzzhZRbK+xOo=")) := by decide +kernel
  have hrefused : handshakeAnswer sampleSha1 sampleBase64 (upgradeRequest [namedHead.sent]) =
      none := by decide +kernel
  refine ⟨?_, ?_, ?_, hanswer, hrefused, ?_⟩
  · exact browserHead_alike ⟨by decide, by decide⟩ ⟨by decide, by decide⟩
  · exact ⟨List.append_nil _, List.forall_mem_singleton.2 (by decide +kernel)⟩
  · exact ⟨List.append_nil _, List.forall_mem_singleton.2 (by decide +kernel)⟩
  · intro hsame
    have heq := hsame.answer
    rw [hanswer, hrefused] at heq
    cases heq

end WssServer
end EcidsCore
