import EcidsCore.ByteText
import EcidsCore.PatternSearch
import Mathlib.Algebra.Group.Nat.Defs

set_option autoImplicit false

/-! How the API server reads a request. The connection is the list of the results of the
successive `SSL_read` calls, each asking for 4096 bytes: an empty one wants a retry. Behind
the last one the client has left (`ended`), or every further call wants a retry. -/
namespace EcidsCore
open ByteText PatternSearch

namespace ClientServer

/-- The blank line behind the headers. -/
def headEnd : Bytes := [0x0D, 0x0A, 0x0D, 0x0A]

def lengthName : Bytes := bytes "content-length:"

def toLower (b : UInt8) : UInt8 := if 0x41 ≤ b ∧ b ≤ 0x5A then b + 0x20 else b

def isBlank (b : UInt8) : Bool := b = 0x20 ∨ b = 0x09

def isSpace (b : UInt8) : Bool := b = 0x20 ∨ (0x09 ≤ b ∧ b ≤ 0x0D)

def isDigit (b : UInt8) : Bool := 0x30 ≤ b ∧ b ≤ 0x39

def decimal (digits : Bytes) : ℕ := digits.foldl (fun n d => 10 * n + (d.toNat - 0x30)) 0

/-- `none` where `stoul` throws: there is no digit, or the number does not fit 64 bits. -/
def stoul (b : Bytes) : Option ℕ :=
  let b := b.dropWhile isSpace
  let negative := b.head? = some 0x2D
  let b := if negative ∨ b.head? = some 0x2B then b.tail else b
  let digits := b.takeWhile isDigit
  if digits = [] ∨ 2 ^ 64 ≤ decimal digits then none
  else some (if negative then (2 ^ 64 - decimal digits) % 2 ^ 64 else decimal digits)

def contentLength (headers : Bytes) : ℕ :=
  match find lengthName (headers.map toLower) with
  | none => 0
  | some pos => (stoul ((headers.drop (pos + 15)).dropWhile isBlank)).getD 0

/-- The first read loop: the bytes until the blank line is among them. -/
def readHead (buf : Bytes) : List Bytes → Bytes × List Bytes
  | [] => (buf, [])
  | got :: rest =>
    if got = [] then readHead buf rest
    else if (find headEnd (buf ++ got)).isSome then (buf ++ got, rest)
    else readHead (buf ++ got) rest

/-- The second read loop: whole reads until the length is reached. -/
def readBody (bodyStart contentLength : ℕ) (buf : Bytes) : List Bytes → Bytes
  | [] => buf
  | got :: rest =>
    if buf.length - bodyStart < contentLength then readBody bodyStart contentLength (buf ++ got) rest
    else buf

/-- `none` where one of the loops asks for more of a client that stays and sends nothing:
it tries again for ever. -/
def readRequest (ended : Bool) (reads : List Bytes) : Option Bytes :=
  let (buf, rest) := readHead [] reads
  match find headEnd buf with
  | none => if ended then some buf else none
  | some hdrEnd =>
    let length := contentLength (buf.take hdrEnd)
    let buf := readBody (hdrEnd + 4) length buf rest
    if buf.length - (hdrEnd + 4) < length ∧ ¬ ended then none else some buf

def requestLine (headers : Bytes) : Bytes × Bytes :=
  let line := headers.takeWhile (· ≠ 0x0A)
  match line.findIdx? (· = 0x20), line.reverse.findIdx? (· = 0x20) with
  | some sp1, some back =>
    let sp2 := line.length - 1 - back
    let path := line.drop (sp1 + 1)
    (line.take sp1, if sp1 = sp2 then path else path.take (sp2 - sp1 - 1))
  | _, _ => ([], [])

/-- What becomes of a request: `handle_client_` never has it whole, drops it, or passes
method, path and body to `route_`. -/
inductive Handled where
  | waits
  | dropped
  | routed (method path body : Bytes)
deriving DecidableEq, Repr

def Handled.body? : Handled → Option Bytes
  | .routed _ _ body => some body
  | _ => none

def handleClient (ended : Bool) (reads : List Bytes) : Handled :=
  match readRequest ended reads with
  | none => .waits
  | some raw =>
    match find headEnd raw with
    | none => .dropped
    | some hdrEnd =>
      let (method, path) := requestLine (raw.take hdrEnd)
      .routed method path (raw.drop (hdrEnd + 4))

theorem headEnd_ne_nil : headEnd ≠ [] := List.cons_ne_nil _ _

theorem lengthName_ne_nil : lengthName ≠ [] := by decide

theorem readHead_reads (buf : Bytes) (reads : List Bytes) :
    ∃ k, (readHead buf reads).1 = buf ++ (reads.take k).flatten ∧
      (readHead buf reads).2 = reads.drop k := by
  induction reads generalizing buf with
  | nil => exact ⟨0, by simp [readHead], rfl⟩
  | cons got rest ih =>
    rw [readHead]
    split_ifs with hnil hfound
    · obtain ⟨k, hbuf, hrest⟩ := ih buf
      exact ⟨k + 1, by simp [hbuf, hnil], hrest⟩
    · exact ⟨1, by simp, rfl⟩
    · obtain ⟨k, hbuf, hrest⟩ := ih (buf ++ got)
      exact ⟨k + 1, by simp [hbuf], hrest⟩

theorem readBody_reads (bodyStart n : ℕ) (buf : Bytes) (reads : List Bytes) :
    ∃ k, readBody bodyStart n buf reads = buf ++ (reads.take k).flatten := by
  induction reads generalizing buf with
  | nil => exact ⟨0, by simp [readBody]⟩
  | cons got rest ih =>
    rw [readBody]
    split_ifs
    · obtain ⟨k, hbuf⟩ := ih (buf ++ got)
      exact ⟨k + 1, by simp [hbuf]⟩
    · exact ⟨0, by simp⟩

/-- A request that is passed on is the reads up to some point, with the announced length
behind its blank line unless the client has left. -/
theorem readRequest_some {ended : Bool} {reads : List Bytes} {raw : Bytes}
    (h : readRequest ended reads = some raw) : (∃ k, raw = (reads.take k).flatten) ∧
      ∀ i, FirstAt headEnd raw i →
        contentLength (raw.take i) ≤ raw.length - (i + 4) ∨ ended = true := by
  obtain ⟨k, hbuf, hrest⟩ := readHead_reads [] reads
  rw [List.nil_append] at hbuf
  unfold readRequest at h
  dsimp only at h
  split at h
  · rename_i hnone
    split at h
    · rename_i hended
      cases h
      exact ⟨⟨k, hbuf⟩, fun _ _ => .inr hended⟩
    · cases h
  · rename_i hdrEnd hfind
    obtain ⟨l, hbody⟩ := readBody_reads (hdrEnd + 4)
      (contentLength ((readHead [] reads).1.take hdrEnd)) (readHead [] reads).1 (readHead [] reads).2
    split at h
    · cases h
    · rename_i henough
      cases h
      refine ⟨⟨k + l, ?_⟩, ?_⟩
      · rw [hbody, hbuf, hrest, List.take_add, List.flatten_append]
      · intro i hi
        have hfirst := (find_eq_some headEnd_ne_nil).1 hfind
        have hle := length_of_prefix_drop headEnd_ne_nil hfirst.here
        have htake : (readBody (hdrEnd + 4) (contentLength ((readHead [] reads).1.take hdrEnd))
            (readHead [] reads).1 (readHead [] reads).2).take hdrEnd =
              (readHead [] reads).1.take hdrEnd := by
          rw [hbody, List.take_append_of_le_length (by omega)]
        have hsame : i = hdrEnd := by
          rw [hbody] at hi
          exact hi.unique (hfirst.append headEnd_ne_nil _)
        rw [hsame, htake]
        rcases not_and_or.1 henough with hlen | hended
        · exact .inl (not_lt.1 hlen)
        · exact .inr (not_not.1 hended)

theorem readHead_found {buf : Bytes} {reads : List Bytes} {i : ℕ}
    (h : FirstAt headEnd (buf ++ reads.flatten) i) (hbuf : find headEnd buf = none) :
    FirstAt headEnd (readHead buf reads).1 i := by
  induction reads generalizing buf with
  | nil =>
    rw [List.flatten_nil, List.append_nil] at h
    rw [(find_eq_some headEnd_ne_nil).2 h] at hbuf
    cases hbuf
  | cons got rest ih =>
    rw [List.flatten_cons, ← List.append_assoc] at h
    rw [readHead]
    split_ifs with hnil hfound
    · rw [hnil, List.append_nil] at h
      exact ih h hbuf
    · obtain ⟨j, hj⟩ := Option.isSome_iff_exists.1 hfound
      have hfirst := (find_eq_some headEnd_ne_nil).1 hj
      rwa [h.unique (hfirst.append headEnd_ne_nil rest.flatten)]
    · exact ih h (by simpa using hfound)

theorem readBody_all {bodyStart n : ℕ} {buf : Bytes} {reads : List Bytes}
    (h : (buf ++ reads.flatten).length ≤ bodyStart + n) (hstart : bodyStart ≤ buf.length) :
    readBody bodyStart n buf reads = buf ++ reads.flatten := by
  induction reads generalizing buf with
  | nil => simp [readBody]
  | cons got rest ih =>
    rw [List.flatten_cons, ← List.append_assoc] at h
    have hlen := h
    rw [List.length_append, List.length_append] at hlen
    rw [readBody, List.flatten_cons, ← List.append_assoc]
    split_ifs with hmore
    · exact ih h (by rw [List.length_append]; omega)
    · have hgot : got = [] := List.length_eq_zero_iff.1 (by omega)
      have hrest : rest.flatten = [] := List.length_eq_zero_iff.1 (by omega)
      rw [hgot, hrest, List.append_nil, List.append_nil]

theorem readRequest_all {ended : Bool} {reads : List Bytes} {i : ℕ}
    (h : FirstAt headEnd reads.flatten i)
    (hlen : reads.flatten.length ≤ i + 4 + contentLength (reads.flatten.take i))
    (hend : i + 4 + contentLength (reads.flatten.take i) ≤ reads.flatten.length ∨ ended = true) :
    readRequest ended reads = some reads.flatten := by
  obtain ⟨k, hbuf, hrest⟩ := readHead_reads [] reads
  have hfound : FirstAt headEnd (readHead [] reads).1 i := readHead_found h rfl
  rw [List.nil_append] at hbuf
  have happ : (readHead [] reads).1 ++ (readHead [] reads).2.flatten = reads.flatten := by
    rw [hbuf, hrest, ← List.flatten_append, List.take_append_drop]
  have hle : i + 4 ≤ (readHead [] reads).1.length :=
    length_of_prefix_drop headEnd_ne_nil hfound.here
  have htake : reads.flatten.take i = (readHead [] reads).1.take i := by
    rw [← happ, List.take_append_of_le_length (by omega)]
  rw [readRequest]
  dsimp only
  rw [(find_eq_some headEnd_ne_nil).2 hfound]
  dsimp only
  rw [← htake, readBody_all (by rw [happ]; exact hlen) hle, happ, if_neg]
  rintro ⟨hshort, hopen⟩
  rcases hend with hend | hend
  · omega
  · exact hopen hend

theorem handleClient_body {ended : Bool} {reads : List Bytes} {body : Bytes}
    (h : (handleClient ended reads).body? = some body) :
    ∃ raw i, readRequest ended reads = some raw ∧ FirstAt headEnd raw i ∧
      body = raw.drop (i + 4) := by
  unfold handleClient at h
  split at h
  · cases h
  · rename_i raw hraw
    dsimp only at h
    split at h
    · cases h
    · rename_i i hi
      cases h
      exact ⟨raw, i, hraw, (find_eq_some headEnd_ne_nil).1 hi, rfl⟩

end ClientServer

end EcidsCore
