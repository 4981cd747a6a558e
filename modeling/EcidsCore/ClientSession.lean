import EcidsCore.GuardedRuns
import EcidsCore.RequestBody
import Mathlib.Algebra.GroupWithZero.Nat

set_option autoImplicit false

/-! One connection of the API server from its acceptance to its release: the calls that
`handle_client_` makes, and the bytes that reach the client. -/
namespace EcidsCore
open ByteText PatternSearch GuardedRuns

namespace ClientServer

/-- What OpenSSL answers on one connection. `writes` are the results of the successive
`SSL_write` calls, where 0 wants a retry. Behind the last read and behind the last write the
connection is closed, or every further call wants a retry. -/
structure Tls where
  created : Bool
  acceptRc : ℤ
  acceptRetry : Bool
  reads : List Bytes
  readsEnd : Bool
  writes : List ℕ
  writesEnd : Bool

inductive SessionCall where
  | sslNew (created : Bool)
  | sslAccept
  | read
  | write (sent : Bytes)
  | sslShutdown
  | sslFree
  | close
deriving DecidableEq, Repr

/-- The calls a thread makes for a connection; one that does not return tries the last of
them again for ever. -/
structure Session where
  calls : List SessionCall
  returns : Bool
deriving DecidableEq, Repr

abbrev Handler := Bytes → Bytes → Bytes → Bytes

/-- `route_`. -/
def routeRequest (handler : Option Handler) (method path body : Bytes) : Bytes :=
  match handler with
  | some forward => forward method path body
  | none => bytes "\x7b\"code\":1,\"message\":\"No handler configured\"\x7d"

def httpResponse (body : Bytes) : Bytes :=
  bytes "HTTP/1.1 200 OK\r\n" ++ bytes "Content-Type: application/json\r\n" ++
    bytes ("Content-Length: " ++ toString body.length ++ "\r\n") ++
    bytes "Connection: close\r\n" ++ bytes "\r\n" ++ body

/-- `write_response_`: the bytes that go out of those behind the offset. -/
def writeResponse (rest : Bytes) : List ℕ → Bytes
  | [] => []
  | n :: writes =>
    if rest = [] then [] else rest.take n ++ writeResponse (rest.drop n) writes

/-- `handle_client_`; an empty request ends like one without a blank line. -/
def handleClientCalls (handler : Option Handler) (t : Tls) : Session :=
  if t.created then
    if t.acceptRc ≤ 0 ∧ ¬ t.acceptRetry then ⟨[.sslNew true, .sslAccept, .sslFree, .close], true⟩
    else
      match handleClient t.readsEnd t.reads with
      | .waits => ⟨[.sslNew true, .sslAccept, .read], false⟩
      | .dropped => ⟨[.sslNew true, .sslAccept, .read, .sslShutdown, .sslFree, .close], true⟩
      | .routed method path body =>
        let response := httpResponse (routeRequest handler method path body)
        let sent := writeResponse response t.writes
        if sent.length < response.length ∧ ¬ t.writesEnd then
          ⟨[.sslNew true, .sslAccept, .read, .write sent], false⟩
        else
          ⟨[.sslNew true, .sslAccept, .read, .write sent, .sslShutdown, .sslFree, .close], true⟩
  else ⟨[.sslNew false, .close], true⟩

/-- What a connection still holds. -/
inductive SessionState where
  | socket
  | ssl
  | freed
  | closed
deriving DecidableEq, Repr

/-- The calls that are sound in a state: nothing is used after its release. -/
def SessionState.call : SessionState → SessionCall → Option SessionState
  | .socket, .sslNew created => some (if created then .ssl else .freed)
  | .ssl, .sslAccept | .ssl, .read | .ssl, .write _ | .ssl, .sslShutdown => some .ssl
  | .ssl, .sslFree => some .freed
  | .freed, .close => some .closed
  | _, _ => none

/-- Bytes in which a client finds the answer behind the first blank line, with its length
announced before it. -/
structure Framed (answer got : Bytes) : Prop where
  split : ∃ i, FirstAt headEnd got i ∧ contentLength (got.take i) = answer.length ∧
    got.drop (i + 4) = answer

theorem writeResponse_prefix (rest : Bytes) (writes : List ℕ) :
    writeResponse rest writes <+: rest := by
  induction writes generalizing rest with
  | nil => exact List.nil_prefix
  | cons n writes ih =>
    rw [writeResponse]
    split_ifs
    · exact List.nil_prefix
    · nth_rewrite 3 [← List.take_append_drop n rest]
      exact (List.prefix_append_right_inj _).2 (ih (rest.drop n))

theorem writeResponse_all {rest : Bytes} {writes : List ℕ} (h : rest.length ≤ writes.sum) :
    writeResponse rest writes = rest := by
  induction writes generalizing rest with
  | nil => exact (List.length_eq_zero_iff.1 (Nat.le_zero.1 h)).symm
  | cons n writes ih =>
    rw [List.sum_cons] at h
    rw [writeResponse]
    split_ifs with hnil
    · exact hnil.symm
    · rw [ih (by rw [List.length_drop]; omega), List.take_append_drop]

/-- A session that comes back has released what it took, once and in order; another one has
released nothing. -/
structure Session.Released (s : Session) : Prop where
  state : run SessionState.call .socket s.calls = some (if s.returns then .closed else .ssl)
  closes : s.calls.count .close = if s.returns then 1 else 0

theorem session_released (handler : Option Handler) (t : Tls) :
    (handleClientCalls handler t).Released := by
  rw [handleClientCalls]
  split
  · split
    · exact ⟨rfl, rfl⟩
    · split
      · exact ⟨rfl, rfl⟩
      · exact ⟨rfl, rfl⟩
      · dsimp only
        split <;> exact ⟨rfl, rfl⟩
  · exact ⟨rfl, rfl⟩

theorem toDigits_code {n : ℕ} {c : Char} (h : c ∈ Nat.toDigits 10 n) :
    48 ≤ c.val.toNat ∧ c.val.toNat ≤ 57 := by
  have hdigit := Nat.isDigit_of_mem_toDigits (by omega) (by omega) h
  simp only [Char.isDigit, Bool.and_eq_true, decide_eq_true_eq, UInt32.le_iff_toNat_le] at hdigit
  have h0 : ('0' : Char).val.toNat = 48 := rfl
  have h9 : ('9' : Char).val.toNat = 57 := rfl
  omega

theorem bytes_toString_digits (n : ℕ) :
    bytes (toString n) = (Nat.toDigits 10 n).map fun c => UInt8.ofNat c.val.toNat := by
  rw [Nat.toString_eq_ofList_toDigits]
  apply bytes_ofList_ascii
  intro c hc
  have := toDigits_code hc
  omega

theorem isDigit_bytes_toString {n : ℕ} {d : UInt8} (h : d ∈ bytes (toString n)) : isDigit d := by
  rw [bytes_toString_digits] at h
  obtain ⟨c, hc, rfl⟩ := List.mem_map.1 h
  have hcode := toDigits_code hc
  have hval : (UInt8.ofNat c.val.toNat).toNat = c.val.toNat := by
    rw [UInt8.toNat_ofNat', Nat.mod_eq_of_lt (by omega)]
  simp only [isDigit, decide_eq_true_eq, UInt8.le_iff_toNat_le, hval]
  exact hcode

theorem decimal_bytes_toString (n : ℕ) : decimal (bytes (toString n)) = n := by
  have hfold (l : List Char) (hl : ∀ c ∈ l, c ∈ Nat.toDigits 10 n) (v : ℕ) :
      (l.map fun c => UInt8.ofNat c.val.toNat).foldl (fun n d => 10 * n + (d.toNat - 0x30)) v =
        Nat.ofDigitChars 10 l v := by
    induction l generalizing v with
    | nil => rfl
    | cons c l ih =>
      have hcode := toDigits_code (hl c List.mem_cons_self)
      rw [List.map_cons, List.foldl_cons, Nat.ofDigitChars_cons,
        ih (fun d hd => hl d (List.mem_cons_of_mem c hd)), UInt8.toNat_ofNat',
        Nat.mod_eq_of_lt (by omega)]
      rfl
  rw [decimal, bytes_toString_digits, hfold _ (fun c hc => hc) 0, Nat.ofDigitChars_ten_toDigits]

theorem spellsLength_toString (n : ℕ) : SpellsLength (0x20 :: bytes (toString n)) n := by
  refine ⟨[0x20], bytes (toString n), [], ?_, ?_, ?_, fun d hd => isDigit_bytes_toString hd,
    decimal_bytes_toString n⟩
  · rw [List.append_nil]
    rfl
  · intro b hb
    rw [List.append_nil, List.mem_singleton] at hb
    subst hb
    rfl
  · rw [bytes_toString_digits, ne_eq, List.map_eq_nil_iff]
    exact Nat.toDigits_ne_nil

/-- The response has the shape of a request that announces its length. -/
def responseMessage (answer : Bytes) : HttpRequest where
  requestLine := bytes "HTTP/1.1 200 OK"
  fields := [(bytes "Content-Type", bytes " application/json"),
    (bytes "Content-Length", 0x20 :: bytes (toString answer.length)),
    (bytes "Connection", bytes " close")]
  body := answer
  requestLine_ne_nil := by decide
  requestLine_oneLine := by decide
  name_ne_nil := by
    intro f hf
    simp only [List.mem_cons, List.not_mem_nil, or_false] at hf
    rcases hf with rfl | rfl | rfl
    · decide
    · exact (by decide : bytes "Content-Length" ≠ [] ∧ 0x3A ∉ bytes "Content-Length")
    · decide
  field_oneLine := by
    have hdigits : OneLine (0x20 :: bytes (toString answer.length)) := by
      constructor <;> intro hmem <;> rcases List.mem_cons.1 hmem with h | h
      · cases h
      · exact absurd (isDigit_bytes_toString h) (by decide)
      · cases h
      · exact absurd (isDigit_bytes_toString h) (by decide)
    intro f hf
    simp only [List.mem_cons, List.not_mem_nil, or_false] at hf
    rcases hf with rfl | rfl | rfl
    · decide
    · exact ⟨(by decide : OneLine (bytes "Content-Length")), hdigits⟩
    · decide
  hasLength := ⟨_, List.mem_cons_of_mem _ List.mem_cons_self,
    (by decide : (bytes "Content-Length").map toLower = bytes "content-length"),
    spellsLength_toString answer.length⟩

theorem responseMessage_sent (answer : Bytes) : (responseMessage answer).sent = httpResponse answer := by
  simp only [HttpRequest.sent, HttpRequest.head, responseMessage, fieldLines, httpResponse,
    bytes_append, List.flatMap_cons, List.flatMap_nil, List.append_nil, List.append_assoc]
  rfl

theorem contentLength_response {answer : Bytes} (h : answer.length < 2 ^ 64) :
    contentLength (responseMessage answer).head = answer.length := by
  let before := bytes "HTTP/1.1 200 OK\r\nContent-Type: application/json\r\n"
  let tail := 0x20 :: bytes (toString answer.length) ++ bytes "\r\nConnection: close"
  have hhead : (responseMessage answer).head = before ++ (bytes "Content-Length:" ++ tail) := by
    simp only [HttpRequest.head, responseMessage, fieldLines, List.flatMap_cons, List.flatMap_nil,
      List.append_nil, before, tail]
    rfl
  have hfirst : FirstAt lengthName ((before ++ bytes "Content-Length:").map toLower) 49 :=
    (find_eq_some lengthName_ne_nil).1 (by decide)
  have hfind : find lengthName ((responseMessage answer).head.map toLower) = some 49 := by
    rw [find_eq_some lengthName_ne_nil, hhead, ← List.append_assoc, List.map_append]
    exact hfirst.append lengthName_ne_nil _
  have hdrop : (responseMessage answer).head.drop (49 + 15) = tail := by
    rw [hhead, ← List.append_assoc]
    exact List.drop_left' rfl
  rw [contentLength, hfind]
  dsimp only
  rw [hdrop, stoul_spelled (spellsLength_toString answer.length) h]
  · rfl
  · intro b hb
    cases hb
    decide

theorem framed_httpResponse {answer : Bytes} (h : answer.length < 2 ^ 64) :
    Framed answer (httpResponse answer) := by
  have hfirst := (responseMessage answer).firstAt_sent []
  rw [List.append_nil] at hfirst
  rw [← responseMessage_sent]
  refine ⟨_, hfirst, ?_, List.drop_left' List.length_append⟩
  rw [HttpRequest.take_head, contentLength_response h]

theorem length_lt_httpResponse (answer : Bytes) : answer.length < (httpResponse answer).length := by
  rw [← responseMessage_sent, HttpRequest.sent, List.length_append, List.length_append]
  have : 0 < headEnd.length := by decide
  change answer.length < _ + answer.length
  omega

theorem takeWhile_head (r : HttpRequest) :
    r.head.takeWhile (· ≠ 0x0A) = r.requestLine ++ [0x0D] := by
  obtain ⟨f, hf, -⟩ := r.hasLength
  obtain ⟨g, gs, hfields⟩ := List.exists_cons_of_ne_nil (List.ne_nil_of_mem hf)
  have hline : ∀ b ∈ r.requestLine, decide (b ≠ 0x0A) = true := by
    intro b hb
    rw [decide_eq_true_eq]
    rintro rfl
    exact r.requestLine_oneLine.2 hb
  rw [HttpRequest.head, hfields, List.takeWhile_append_of_pos hline]
  rfl

theorem findIdx?_blank {before : Bytes} (behind : Bytes) (h : 0x20 ∉ before) :
    (before ++ 0x20 :: behind).findIdx? (· = 0x20) = some before.length := by
  induction before with
  | nil => rfl
  | cons b before ih =>
    have hb : b ≠ 0x20 := fun hb => h (hb ▸ List.mem_cons_self)
    rw [List.cons_append, List.findIdx?_cons, if_neg (by simpa using hb),
      ih fun hmem => h (List.mem_cons_of_mem b hmem)]
    rfl

theorem requestLine_head {r : HttpRequest} {method path version : Bytes}
    (hline : r.requestLine = method ++ 0x20 :: (path ++ 0x20 :: version))
    (hmethod : 0x20 ∉ method) (hversion : 0x20 ∉ version) :
    requestLine r.head = (method, path) := by
  let tail := version ++ [0x0D]
  have hsplit : r.requestLine ++ [0x0D] = method ++ 0x20 :: (path ++ 0x20 :: tail) := by
    rw [hline]
    simp only [List.append_assoc, List.cons_append, tail]
  have htail : (0x20 : UInt8) ∉ tail.reverse := by
    rw [List.mem_reverse, List.mem_append, List.mem_singleton]
    exact fun h => h.elim hversion (by decide)
  have hreverse : (r.requestLine ++ [0x0D]).reverse =
      tail.reverse ++ 0x20 :: (method ++ 0x20 :: path).reverse := by
    rw [hsplit]
    simp
  have hlength : (r.requestLine ++ [0x0D]).length = method.length + path.length + tail.length + 2 := by
    rw [hsplit, List.length_append, List.length_cons, List.length_append, List.length_cons]
    omega
  have hdrop : (method ++ 0x20 :: (path ++ 0x20 :: tail)).drop (method.length + 1) =
      path ++ 0x20 :: tail := by
    rw [List.append_cons]
    exact List.drop_left' (by rw [List.length_append, List.length_singleton])
  rw [requestLine, takeWhile_head]
  dsimp only
  rw [hreverse, findIdx?_blank _ htail, hlength, hsplit, findIdx?_blank _ hmethod]
  dsimp only
  rw [List.take_left' rfl, hdrop, List.length_reverse, if_neg (by omega)]
  rw [List.take_left' (by omega)]

theorem handleClient_request {r : HttpRequest} {ended : Bool} {reads : List Bytes}
    {method path version : Bytes}
    (hline : r.requestLine = method ++ 0x20 :: (path ++ 0x20 :: version))
    (hmethod : 0x20 ∉ method) (hversion : 0x20 ∉ version)
    (hlen : ∃ n, Announces r.head n ∧ (n = r.body.length ∨ ended = true ∧ r.body.length < n))
    (hover : HandedOver r.sent reads) :
    handleClient ended reads = .routed method path r.body := by
  obtain ⟨n, hn, hcase⟩ := hlen
  have hlength := hn.contentLength_eq
  have hread : readRequest ended reads = some r.sent := by
    refine (HttpRequest.body_of_announced ?_ ?_ hover).1
    · rcases hcase with h | ⟨-, h⟩ <;> omega
    · exact hcase.imp (fun h => by omega) And.left
  have hfirst := r.firstAt_sent []
  rw [List.append_nil] at hfirst
  rw [handleClient, hread]
  dsimp only
  rw [(find_eq_some headEnd_ne_nil).2 hfirst]
  dsimp only
  rw [r.take_head, requestLine_head hline hmethod hversion, r.drop_head]

def delivered (calls : List SessionCall) : Bytes :=
  calls.flatMap fun
    | .write sent => sent
    | _ => []

/-- Whatever OpenSSL answers, a connection is released once and in order when it is let go,
and the client gets no more than the beginning of the answer to what was read. -/
theorem session_sound (handler : Option Handler) (t : Tls) :
    (handleClientCalls handler t).Released ∧
      (delivered (handleClientCalls handler t).calls = [] ∨
        ∃ method path body, handleClient t.readsEnd t.reads = .routed method path body ∧
          delivered (handleClientCalls handler t).calls <+:
            httpResponse (routeRequest handler method path body)) := by
  refine ⟨session_released handler t, ?_⟩
  unfold handleClientCalls
  split_ifs
  · exact .inl rfl
  · split
    · exact .inl rfl
    · exact .inl rfl
    · rename_i method path body hclient
      refine .inr ⟨method, path, body, hclient, ?_⟩
      dsimp only
      split_ifs
      all_goals simpa [delivered] using writeResponse_prefix _ t.writes
  · exact .inl rfl

/-- A request with an announced body is answered with the framed answer of the handler, in
every segmentation of the bytes that come in and of those that go out. -/
theorem session_answered (handler : Handler) (r : HttpRequest) (t : Tls)
    {method path version : Bytes} (hline : r.requestLine = method ++ 0x20 :: (path ++ 0x20 :: version))
    (hmethod : 0x20 ∉ method) (hversion : 0x20 ∉ version)
    (hlen : ∃ n, Announces r.head n ∧
      (n = r.body.length ∨ t.readsEnd = true ∧ r.body.length < n))
    (hcreated : t.created) (haccept : 0 < t.acceptRc ∨ t.acceptRetry)
    (hreads : HandedOver r.sent t.reads)
    (hint : (httpResponse (handler method path r.body)).length < 2 ^ 31)
    (hwrites : (httpResponse (handler method path r.body)).length ≤ t.writes.sum) :
    (handleClientCalls (some handler) t).returns ∧
      run SessionState.call .socket (handleClientCalls (some handler) t).calls = some .closed ∧
      Framed (handler method path r.body) (delivered (handleClientCalls (some handler) t).calls) := by
  have hanswer : (handler method path r.body).length < 2 ^ 64 :=
    (length_lt_httpResponse _).trans (hint.trans (by decide))
  have hopen : ¬ (t.acceptRc ≤ 0 ∧ ¬ t.acceptRetry) := by
    rintro ⟨hrc, hretry⟩
    rcases haccept with h | h
    · omega
    · exact hretry h
  have hclient := handleClient_request hline hmethod hversion hlen hreads
  have hcalls : handleClientCalls (some handler) t =
      ⟨[.sslNew true, .sslAccept, .read, .write (httpResponse (handler method path r.body)),
        .sslShutdown, .sslFree, .close], true⟩ := by
    rw [handleClientCalls, if_pos hcreated, if_neg hopen, hclient]
    dsimp only [routeRequest]
    rw [writeResponse_all hwrites, if_neg fun h => absurd h.1 (lt_irrefl _)]
  rw [hcalls]
  refine ⟨rfl, rfl, ?_⟩
  have hdelivered : delivered [.sslNew true, .sslAccept, .read,
      .write (httpResponse (handler method path r.body)), .sslShutdown, .sslFree, .close] =
        httpResponse (handler method path r.body) := List.append_nil _
  rw [hdelivered]
  exact framed_httpResponse hanswer

def postSession : Tls where
  created := true
  acceptRc := -1
  acceptRetry := true
  reads := [postTwo.head ++ headEnd, [], postTwo.body]
  readsEnd := false
  writes := [20, 0, 60, 40]
  writesEnd := false

def joined : Handler := fun method path body => method ++ path ++ body

theorem session_answered_post :
    Framed (bytes "POST/apiab") (delivered (handleClientCalls (some joined) postSession).calls) := by
  have hlen : ∃ n, Announces postTwo.head n ∧
      (n = postTwo.body.length ∨ postSession.readsEnd = true ∧ postTwo.body.length < n) :=
    ⟨_, postTwo.announces, .inl (by decide)⟩
  have hline : postTwo.requestLine =
      bytes "POST" ++ 0x20 :: (bytes "/api" ++ 0x20 :: bytes "HTTP/1.1") := rfl
  exact (session_answered joined postTwo postSession hline (by decide) (by decide) hlen rfl
    (Or.inr rfl) (by unfold HandedOver; decide) (by decide) (by decide)).2.2

end ClientServer

end EcidsCore
