import EcidsCore.ClientServer

set_option autoImplicit false

/-! The body of a request that announces its length: it comes out whole and alone when
nothing follows it and the number the server finds in the head is the right one, or too large
a one of a client that leaves. -/
namespace EcidsCore
open ByteText PatternSearch

namespace ClientServer

def OneLine (b : Bytes) : Prop := 0x0D ∉ b ∧ 0x0A ∉ b

instance (b : Bytes) : Decidable (OneLine b) := inferInstanceAs (Decidable (_ ∧ _))

def SpellsLength (value : Bytes) (n : ℕ) : Prop :=
  ∃ before digits behind, value = before ++ digits ++ behind ∧
    (∀ b ∈ before ++ behind, isBlank b) ∧ digits ≠ [] ∧ (∀ d ∈ digits, isDigit d) ∧
      decimal digits = n

/-- A request with a `Content-Length` field that gives the length of its body. -/
structure HttpRequest where
  requestLine : Bytes
  fields : List (Bytes × Bytes)
  body : Bytes
  requestLine_ne_nil : requestLine ≠ []
  requestLine_oneLine : OneLine requestLine
  name_ne_nil : ∀ f ∈ fields, f.1 ≠ [] ∧ 0x3A ∉ f.1
  field_oneLine : ∀ f ∈ fields, OneLine f.1 ∧ OneLine f.2
  hasLength : ∃ f ∈ fields, f.1.map toLower = bytes "content-length" ∧ SpellsLength f.2 body.length

def fieldLines (fields : List (Bytes × Bytes)) : Bytes :=
  fields.flatMap fun f => 0x0D :: 0x0A :: (f.1 ++ 0x3A :: f.2)

namespace HttpRequest

def head (r : HttpRequest) : Bytes := r.requestLine ++ fieldLines r.fields

def sent (r : HttpRequest) : Bytes := r.head ++ headEnd ++ r.body

end HttpRequest

/-- One way in which a stream comes out of `SSL_read`. -/
def HandedOver (stream : Bytes) (reads : List Bytes) : Prop :=
  reads.flatten = stream ∧ ∀ got ∈ reads, got.length ≤ 4096

/-- Where the text `content-length:` first stands in the head, the number `n` follows it; 0
when none can be read there. -/
def Announces (head : Bytes) (n : ℕ) : Prop :=
  ∃ pos, FirstAt lengthName (head.map toLower) pos ∧
    (stoul ((head.drop (pos + 15)).dropWhile isBlank)).getD 0 = n

theorem firstAt_fieldLines {fields : List (Bytes × Bytes)} (hne : ∀ f ∈ fields, f.1 ≠ [])
    (hline : ∀ f ∈ fields, OneLine f.1 ∧ OneLine f.2) :
    FirstAt headEnd (fieldLines fields ++ headEnd) (fieldLines fields).length := by
  induction fields with
  | nil => exact ⟨List.prefix_rfl, fun j hj => absurd hj (Nat.not_lt_zero j)⟩
  | cons f fields ih =>
    have hf := hline f List.mem_cons_self
    have hcr : (0x0D : UInt8) ∉ f.1 ++ 0x3A :: f.2 := by
      simp only [List.mem_append, List.mem_cons, not_or]
      exact ⟨hf.1.1, by decide, hf.2.1⟩
    have hstart : ¬ headEnd <+: 0x0D :: 0x0A :: (f.1 ++ 0x3A :: f.2 ++ (fieldLines fields ++ headEnd)) := by
      obtain ⟨b, name, hname⟩ := List.exists_cons_of_ne_nil (hne f List.mem_cons_self)
      rw [hname] at hcr ⊢
      intro hp
      have hb := (List.cons_prefix_cons.1 (List.cons_prefix_cons.1 (List.cons_prefix_cons.1 hp).2).2).1
      rw [hb] at hcr
      exact hcr List.mem_cons_self
    have hlf : ¬ headEnd <+: 0x0A :: (f.1 ++ 0x3A :: f.2 ++ (fieldLines fields ++ headEnd)) := by
      intro hp
      exact absurd (List.cons_prefix_cons.1 hp).1 (by decide)
    have hrest := ih (fun g hg => hne g (List.mem_cons_of_mem f hg))
      (fun g hg => hline g (List.mem_cons_of_mem f hg))
    have hskip := (firstAt_skip (f.1 ++ 0x3A :: f.2) hcr).2 hrest
    have htwo := (firstAt_succ hstart).2 ((firstAt_succ hlf).2 hskip)
    have hlist : fieldLines (f :: fields) = 0x0D :: 0x0A :: (f.1 ++ 0x3A :: f.2 ++ fieldLines fields) := rfl
    rw [hlist, List.cons_append, List.cons_append, List.append_assoc]
    simpa only [List.length_cons, List.length_append] using htwo

theorem HttpRequest.firstAt_head (r : HttpRequest) :
    FirstAt headEnd (r.head ++ headEnd) r.head.length := by
  have hfields := firstAt_fieldLines (fun f hf => (r.name_ne_nil f hf).1) r.field_oneLine
  rw [HttpRequest.head, List.append_assoc, List.length_append]
  exact (firstAt_skip r.requestLine r.requestLine_oneLine.1).2 hfields

theorem HttpRequest.firstAt_sent (r : HttpRequest) (extra : Bytes) :
    FirstAt headEnd (r.sent ++ extra) r.head.length := by
  rw [HttpRequest.sent, List.append_assoc]
  exact r.firstAt_head.append headEnd_ne_nil _

theorem Announces.contentLength_eq {head : Bytes} {n : ℕ} (h : Announces head n) :
    contentLength head = n := by
  obtain ⟨pos, hpos, hnum⟩ := h
  rw [contentLength, (find_eq_some lengthName_ne_nil).2 hpos]
  exact hnum

theorem HttpRequest.announces (r : HttpRequest) : Announces r.head (contentLength r.head) := by
  obtain ⟨f, hf, hname, -⟩ := r.hasLength
  have hline : f.1 ++ 0x3A :: f.2 <:+: fieldLines r.fields := by
    obtain ⟨before, behind, hfields⟩ := List.append_of_mem hf
    refine ⟨fieldLines before ++ [0x0D, 0x0A], fieldLines behind, ?_⟩
    simp [fieldLines, hfields]
  have hinfix : lengthName <:+: r.head.map toLower := by
    have hmap := (hline.trans (List.infix_append' r.requestLine _ [])).map toLower
    rw [List.append_nil] at hmap
    refine List.IsInfix.trans ⟨[], f.2.map toLower, ?_⟩ hmap
    have hsplit : lengthName = bytes "content-length" ++ [toLower 0x3A] := by decide
    rw [List.map_append, List.map_cons, hname, hsplit, List.nil_append, List.append_assoc,
      List.singleton_append]
  obtain ⟨pos, hpos⟩ := exists_firstAt.2 hinfix
  refine ⟨pos, hpos, ?_⟩
  rw [contentLength, (find_eq_some lengthName_ne_nil).2 hpos]

theorem readHead_bytes {buf s s' : Bytes} {i : ℕ} (h : FirstAt headEnd (buf ++ s) i)
    (hbuf : find headEnd buf = none) (hlen : i + 4 = (buf ++ s).length) :
    readHead buf ((s ++ s').map ([·])) = (buf ++ s, s'.map ([·])) := by
  induction s generalizing buf with
  | nil =>
    rw [List.append_nil] at h
    rw [(find_eq_some headEnd_ne_nil).2 h] at hbuf
    cases hbuf
  | cons x s ih =>
    rw [List.append_cons] at h hlen ⊢
    rw [List.cons_append, List.map_cons, readHead, if_neg (List.cons_ne_nil _ _)]
    split_ifs with hfound
    · obtain ⟨j, hj⟩ := Option.isSome_iff_exists.1 hfound
      have hfirst := (find_eq_some headEnd_ne_nil).1 hj
      have hj4 : j + 4 ≤ (buf ++ [x]).length := length_of_prefix_drop headEnd_ne_nil hfirst.here
      rw [(hfirst.append headEnd_ne_nil s).unique h] at hj4
      rw [List.length_append] at hlen
      have hs : s = [] := List.length_eq_zero_iff.1 (by omega)
      rw [hs, List.append_nil, List.nil_append]
    · exact ih h (by simpa using hfound) hlen

theorem readBody_bytes_length (bodyStart n : ℕ) (buf s : Bytes) :
    (readBody bodyStart n buf (s.map ([·]))).length ≤ max buf.length (bodyStart + n) := by
  induction s generalizing buf with
  | nil => exact Nat.le_max_left _ _
  | cons x s ih =>
    have hnext := ih (buf ++ [x])
    rw [List.map_cons, readBody]
    split_ifs
    · rw [List.length_append, List.length_singleton] at hnext
      omega
    · exact Nat.le_max_left _ _

theorem reads_across (s tail : Bytes) (x y : UInt8) (k : ℕ) :
    ((s.map ([·]) ++ [x, y] :: tail.map ([·])).take k).flatten.length ≠ s.length + 1 := by
  induction s generalizing k with
  | nil =>
    cases k with
    | zero => simp
    | succ k => simp
  | cons z s ih =>
    cases k with
    | zero => simp
    | succ k =>
      have hk := ih k
      simp only [List.map_cons, List.cons_append, List.take_succ_cons, List.flatten_cons,
        List.length_append, List.length_cons, List.length_nil]
      omega

theorem handedOver_bytes (s : Bytes) : HandedOver s (s.map ([·])) := by
  constructor
  · induction s with
    | nil => rfl
    | cons x s ih => rw [List.map_cons, List.flatten_cons, ih, List.singleton_append]
  · intro got hgot
    obtain ⟨x, -, rfl⟩ := List.mem_map.1 hgot
    simp

theorem handedOver_across (s tail : Bytes) (x y : UInt8) :
    HandedOver (s ++ [x] ++ y :: tail) (s.map ([·]) ++ [x, y] :: tail.map ([·])) := by
  obtain ⟨hs, hslen⟩ := handedOver_bytes s
  obtain ⟨htail, htaillen⟩ := handedOver_bytes tail
  constructor
  · rw [List.flatten_append, List.flatten_cons, hs, htail]
    simp
  · intro got hgot
    rcases List.mem_append.1 hgot with hgot | hgot
    · exact hslen got hgot
    · rcases List.mem_cons.1 hgot with rfl | hgot
      · simp
      · exact htaillen got hgot

namespace HttpRequest

variable {r : HttpRequest} {extra : Bytes} {ended : Bool} {reads : List Bytes}

theorem take_head (r : HttpRequest) : r.sent.take r.head.length = r.head := by
  rw [sent, List.append_assoc]
  exact List.take_left' rfl

theorem drop_head (r : HttpRequest) : r.sent.drop (r.head.length + 4) = r.body :=
  List.drop_left' List.length_append

theorem readRequest_sent (hover : HandedOver (r.sent ++ extra) reads)
    (h : (handleClient ended reads).body? = some r.body) :
    readRequest ended reads = some r.sent := by
  obtain ⟨raw, i, hraw, hfirst, hdrop⟩ := handleClient_body h
  obtain ⟨⟨k, hk⟩, -⟩ := readRequest_some hraw
  have hsplit : raw ++ (reads.drop k).flatten = r.sent ++ extra := by
    rw [hk, ← List.flatten_append, List.take_append_drop, hover.1]
  have hi := hfirst.append headEnd_ne_nil (reads.drop k).flatten
  rw [hsplit] at hi
  have hhead := hi.unique (r.firstAt_sent extra)
  have hlen : i + 4 ≤ raw.length := length_of_prefix_drop headEnd_ne_nil hfirst.here
  have hb : r.body.length = raw.length - (i + 4) := by rw [hdrop, List.length_drop]
  have hsent : raw.length = r.sent.length := by
    rw [sent, List.length_append, List.length_append, hb, hhead]
    change _ = r.head.length + 4 + _
    omega
  rw [hraw]
  exact congrArg some (List.append_inj_left hsplit hsent)

theorem extra_eq_nil
    (h : ∀ reads, HandedOver (r.sent ++ extra) reads →
      (handleClient ended reads).body? = some r.body) :
    extra = [] := by
  cases extra with
  | nil => rfl
  | cons y tail =>
    have hne : r.sent ≠ [] := by
      rw [sent, List.append_assoc]
      exact List.append_ne_nil_of_right_ne_nil _ (List.cons_ne_nil _ _)
    obtain ⟨s, x, hs⟩ := (List.eq_nil_or_concat' r.sent).resolve_left hne
    have hover := handedOver_across s tail x y
    rw [← hs] at hover
    have hread := readRequest_sent hover (h _ hover)
    obtain ⟨⟨k, hk⟩, -⟩ := readRequest_some hread
    have hlen := congrArg List.length hk
    rw [hs, List.length_append, List.length_singleton] at hlen
    exact absurd hlen.symm (reads_across s tail x y k)

theorem length_le_contentLength
    (h : ∀ reads, HandedOver r.sent reads → (handleClient ended reads).body? = some r.body) :
    r.body.length ≤ contentLength r.head := by
  have hover := handedOver_bytes r.sent
  have hover' : HandedOver (r.sent ++ []) (r.sent.map ([·])) := by rwa [List.append_nil]
  have hread := readRequest_sent hover' (h _ hover)
  have hfirst := r.firstAt_head
  have hhead : readHead [] (r.sent.map ([·])) = (r.head ++ headEnd, r.body.map ([·])) :=
    readHead_bytes hfirst rfl (by rw [List.nil_append, List.length_append]; rfl)
  have hbody := readBody_bytes_length (r.head.length + 4) (contentLength r.head)
    (r.head ++ headEnd) r.body
  have hstart : (r.head ++ headEnd).length = r.head.length + 4 := List.length_append
  rw [readRequest, hhead] at hread
  dsimp only at hread
  rw [(find_eq_some headEnd_ne_nil).2 hfirst] at hread
  dsimp only at hread
  rw [List.take_left' rfl] at hread
  split at hread
  · cases hread
  · rw [Option.some.inj hread, hstart, sent, List.length_append, hstart] at hbody
    omega

theorem contentLength_le
    (h : ∀ reads, HandedOver r.sent reads → (handleClient false reads).body? = some r.body) :
    contentLength r.head ≤ r.body.length := by
  have hover := handedOver_bytes r.sent
  have hover' : HandedOver (r.sent ++ []) (r.sent.map ([·])) := by rwa [List.append_nil]
  obtain ⟨-, henough⟩ := readRequest_some (readRequest_sent hover' (h _ hover))
  have hfirst := r.firstAt_sent []
  rw [List.append_nil] at hfirst
  have hlen := (henough _ hfirst).resolve_right Bool.false_ne_true
  rw [r.take_head, ← List.length_drop] at hlen
  rwa [r.drop_head] at hlen

theorem body_of_announced (hlen : r.body.length ≤ contentLength r.head)
    (hend : contentLength r.head ≤ r.body.length ∨ ended = true) (hover : HandedOver r.sent reads) :
    readRequest ended reads = some r.sent ∧ (handleClient ended reads).body? = some r.body := by
  have hfirst := r.firstAt_sent []
  rw [List.append_nil] at hfirst
  have hsize : r.sent.length = r.head.length + 4 + r.body.length := by
    rw [sent, List.length_append, List.length_append]
    rfl
  have hread : readRequest ended reads = some r.sent := by
    have htake := r.take_head
    rw [← hover.1] at hfirst htake hsize ⊢
    apply readRequest_all hfirst
    · rw [htake, hsize]
      exact Nat.add_le_add_left hlen _
    · rw [htake, hsize]
      exact hend.imp_left fun h => Nat.add_le_add_left h _
  refine ⟨hread, ?_⟩
  rw [handleClient, hread]
  dsimp only
  rw [(find_eq_some headEnd_ne_nil).2 hfirst]
  exact congrArg some r.drop_head

end HttpRequest

/-- The body comes out exact in every segmentation iff nothing follows the request and the
first number that the search finds announced is its length, or a larger one of a client that
leaves behind it. -/
theorem body_exact_iff (r : HttpRequest) (extra : Bytes) (ended : Bool) :
    (∀ reads, HandedOver (r.sent ++ extra) reads →
      (handleClient ended reads).body? = some r.body) ↔
      extra = [] ∧ ∃ n, Announces r.head n ∧
        (n = r.body.length ∨ ended = true ∧ r.body.length < n) := by
  constructor
  · intro h
    have hextra := HttpRequest.extra_eq_nil h
    subst hextra
    rw [List.append_nil] at h
    have hle := HttpRequest.length_le_contentLength h
    refine ⟨rfl, contentLength r.head, r.announces, ?_⟩
    rcases hle.eq_or_lt with heq | hlt
    · exact .inl heq.symm
    · cases ended with
      | true => exact .inr ⟨rfl, hlt⟩
      | false => exact absurd (HttpRequest.contentLength_le h) (not_le.2 hlt)
  · rintro ⟨rfl, n, hn, hcase⟩ reads hover
    rw [List.append_nil] at hover
    have hlength := hn.contentLength_eq
    refine (HttpRequest.body_of_announced ?_ ?_ hover).2
    · rcases hcase with h | ⟨-, h⟩ <;> omega
    · rcases hcase with h | ⟨h, -⟩
      · exact .inl (by omega)
      · exact .inr h

theorem isDigit_not_space {d : UInt8} (h : isDigit d) :
    isBlank d = false ∧ isSpace d = false ∧ d ≠ 0x2D ∧ d ≠ 0x2B := by
  simp only [isDigit, isBlank, isSpace, decide_eq_true_eq, decide_eq_false_iff_not,
    UInt8.le_iff_toNat_le, ← UInt8.toNat_inj, ne_eq] at h ⊢
  simp at h ⊢
  omega

theorem isBlank_not_digit {b : UInt8} (h : isBlank b) : isDigit b = false := by
  simp only [isDigit, isBlank, decide_eq_true_eq, decide_eq_false_iff_not,
    UInt8.le_iff_toNat_le, ← UInt8.toNat_inj] at h ⊢
  simp at h ⊢
  omega

theorem stoul_spelled {value tail : Bytes} {n : ℕ} (h : SpellsLength value n) (hn : n < 2 ^ 64)
    (htail : ∀ b, tail.head? = some b → isDigit b = false) :
    stoul ((value ++ tail).dropWhile isBlank) = some n := by
  obtain ⟨before, digits, behind, rfl, hblank, hne, hdigits, rfl⟩ := h
  obtain ⟨d, ds, rfl⟩ := List.exists_cons_of_ne_nil hne
  obtain ⟨hd, hspace, hminus, hplus⟩ := isDigit_not_space (hdigits d List.mem_cons_self)
  have hbefore : ∀ b ∈ before, isBlank b := fun b hb => hblank b (List.mem_append_left _ hb)
  have hend : (behind ++ tail).takeWhile isDigit = [] := by
    cases behind with
    | nil =>
      cases tail with
      | nil => rfl
      | cons b tail => rw [List.nil_append, List.takeWhile_cons, htail b rfl]; rfl
    | cons b behind =>
      have hb := isBlank_not_digit (hblank b (List.mem_append_right _ List.mem_cons_self))
      rw [List.cons_append, List.takeWhile_cons, hb]
      rfl
  have hdrop : (before ++ d :: ds ++ behind ++ tail).dropWhile isBlank =
      d :: ds ++ (behind ++ tail) := by
    rw [List.append_assoc, List.append_assoc, List.dropWhile_append_of_pos hbefore,
      List.cons_append, List.dropWhile_cons, hd]
    rfl
  have htake : (d :: ds ++ (behind ++ tail)).takeWhile isDigit = d :: ds := by
    rw [List.takeWhile_append_of_pos hdigits, hend, List.append_nil]
  have hskip : (d :: ds ++ (behind ++ tail)).dropWhile isSpace = d :: ds ++ (behind ++ tail) := by
    rw [List.cons_append, List.dropWhile_cons, hspace]
    rfl
  rw [hdrop, stoul, hskip]
  have hhead : (d :: ds ++ (behind ++ tail)).head? = some d := rfl
  simp only [hhead, Option.some.injEq, hminus, hplus, or_self, if_false, htake]
  rw [if_neg]
  rw [not_or]
  exact ⟨hne, Nat.not_le.2 hn⟩

/-- Where the length field is the first one and the request line does not speak of it, the
search finds the length. -/
theorem announces_of_first_field {r : HttpRequest} {name value : Bytes}
    {rest : List (Bytes × Bytes)} {n : ℕ} (hfields : r.fields = (name, value) :: rest)
    (hname : name.map toLower = bytes "content-length") (hvalue : SpellsLength value n)
    (hn : n < 2 ^ 64)
    (hline : ∀ j, ¬ lengthName <+: (r.requestLine.map toLower).drop j) : Announces r.head n := by
  have hhead : r.head = r.requestLine ++
      0x0D :: 0x0A :: (name ++ 0x3A :: (value ++ fieldLines rest)) := by
    rw [HttpRequest.head, hfields]
    simp [fieldLines]
  have hlower : r.head.map toLower = r.requestLine.map toLower ++
      0x0D :: 0x0A :: (lengthName ++ (value ++ fieldLines rest).map toLower) := by
    rw [hhead, List.map_append, List.map_cons, List.map_cons, List.map_append, hname]
    rfl
  have hlf : ¬ lengthName <+: 0x0A :: (lengthName ++ (value ++ fieldLines rest).map toLower) := by
    intro hp
    exact absurd (List.cons_prefix_cons.1 hp).1 (by decide)
  have hzero : FirstAt lengthName (lengthName ++ (value ++ fieldLines rest).map toLower) 0 :=
    ⟨List.prefix_append _ _, fun j hj => absurd hj (Nat.not_lt_zero j)⟩
  have hcr : (0x0D : UInt8) ∉ lengthName := by decide
  have hpos := (firstAt_line lengthName_ne_nil hcr hline).2 ((firstAt_succ hlf).2 hzero)
  refine ⟨r.requestLine.length + 2, ?_, ?_⟩
  · rw [hlower]
    simpa using hpos
  · have hnamelen : name.length = 14 := by
      have hlen := congrArg List.length hname
      rwa [List.length_map] at hlen
    have hdrop : r.head.drop (r.requestLine.length + 2 + 15) = value ++ fieldLines rest := by
      rw [hhead, Nat.add_assoc, ← List.drop_drop, List.drop_left]
      change (name ++ 0x3A :: (value ++ fieldLines rest)).drop 15 = _
      rw [List.append_cons]
      exact List.drop_left' (by rw [List.length_append, hnamelen]; rfl)
    rw [hdrop, stoul_spelled hvalue hn]
    · rfl
    intro b hb
    cases rest with
    | nil => cases hb
    | cons f rest =>
      cases hb
      decide

/-- The ordinary request comes out right however it is handed over. -/
theorem ordinary_body_exact {r : HttpRequest} {name value : Bytes} {rest : List (Bytes × Bytes)}
    (hfields : r.fields = (name, value) :: rest)
    (hname : name.map toLower = bytes "content-length")
    (hvalue : SpellsLength value r.body.length) (hn : r.body.length < 2 ^ 64)
    (hline : ∀ j, ¬ lengthName <+: (r.requestLine.map toLower).drop j) {reads : List Bytes}
    (hover : HandedOver r.sent reads) (ended : Bool) :
    (handleClient ended reads).body? = some r.body := by
  have hlength := (announces_of_first_field hfields hname hvalue hn hline).contentLength_eq
  exact (HttpRequest.body_of_announced hlength.ge (.inl hlength.le) hover).2

def postTwo : HttpRequest where
  requestLine := bytes "POST /api HTTP/1.1"
  fields := [(bytes "Content-Length", bytes " 2")]
  body := bytes "ab"
  requestLine_ne_nil := by decide
  requestLine_oneLine := by decide
  name_ne_nil := by decide
  field_oneLine := by decide
  hasLength := ⟨_, List.mem_singleton_self _, by decide,
    ⟨[0x20], [0x32], [], by decide, List.forall_mem_singleton.2 rfl, by decide,
      List.forall_mem_singleton.2 rfl, by decide⟩⟩

def postNamed : HttpRequest where
  requestLine := bytes "POST /api HTTP/1.1"
  fields := [(bytes "X-Content-Length", bytes " 0"), (bytes "Content-Length", bytes " 2")]
  body := bytes "ab"
  requestLine_ne_nil := by decide
  requestLine_oneLine := by decide
  name_ne_nil := by decide
  field_oneLine := by decide
  hasLength := ⟨_, List.mem_cons_of_mem _ (List.mem_singleton_self _), by decide,
    ⟨[0x20], [0x32], [], by decide, List.forall_mem_singleton.2 rfl, by decide,
      List.forall_mem_singleton.2 rfl, by decide⟩⟩

def postLong : HttpRequest where
  requestLine := bytes "POST /api HTTP/1.1"
  fields := [(bytes "X-Content-Length", bytes " 9"), (bytes "Content-Length", bytes " 2")]
  body := bytes "ab"
  requestLine_ne_nil := by decide
  requestLine_oneLine := by decide
  name_ne_nil := by decide
  field_oneLine := by decide
  hasLength := ⟨_, List.mem_cons_of_mem _ (List.mem_singleton_self _), by decide,
    ⟨[0x20], [0x32], [], by decide, List.forall_mem_singleton.2 rfl, by decide,
      List.forall_mem_singleton.2 rfl, by decide⟩⟩

theorem body_counterexample :
    HandedOver (postTwo.sent ++ bytes "X") [postTwo.sent ++ bytes "X"] ∧
      (handleClient false [postTwo.sent ++ bytes "X"]).body? = some (bytes "abX") ∧
      HandedOver (postNamed.sent ++ []) [postNamed.head ++ headEnd, bytes "ab"] ∧
      (handleClient false [postNamed.head ++ headEnd, bytes "ab"]).body? = some [] ∧
      HandedOver (postLong.sent ++ []) [postLong.sent] ∧
      handleClient false [postLong.sent] = .waits := by
  unfold HandedOver
  decide

end ClientServer

end EcidsCore
