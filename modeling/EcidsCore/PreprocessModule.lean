import EcidsCore.DatabaseWriter
import Mathlib.Data.List.AList
import Mathlib.Data.List.MinMax
import Mathlib.Data.String.Basic

set_option autoImplicit false

/-! The preprocess module: its two capture loops, the table of requests that wait
for an AI response, and what a response causes. -/
namespace EcidsCore
open ByteText

variable {R : Type}

/-- What OpenCV and float arithmetic compute for the module; an empty byte string
stands for an image that could not be read or encoded. -/
structure Imaging (R : Type) where
  encodeJpg : ℕ → ℕ → Bytes → Bytes
  readAsJpg : String → Bytes
  workingDistance : Bytes → R

def plainImaging : Imaging ℤ where
  encodeJpg _ _ raw := raw
  readAsJpg _ := []
  workingDistance _ := 0

structure PendingRequest (R : Type) where
  transactionId : String
  left : DataBundle
  right : DataBundle
  pairIndex : ℕ
  subTask : InspectionSubTask
  workingDistanceMm : R
  createdAt : ℕ
deriving DecidableEq, Repr

abbrev PendingTable (R : Type) := AList fun _ : String => PendingRequest R

theorem length_keys_insert {α : Type} {β : α → Type} [DecidableEq α] (table : AList β) (k : α)
    (v : β k) :
    (table.insert k v).keys.length = table.keys.length + if k ∈ table then 0 else 1 := by
  rw [AList.keys_insert, List.length_cons]
  by_cases hmem : k ∈ table
  · have hkey : k ∈ table.keys := AList.mem_keys.1 hmem
    have hpos : 0 < table.keys.length := List.length_pos_of_mem hkey
    rw [if_pos hmem, List.length_erase_of_mem hkey]
    omega
  · have hkey : k ∉ table.keys := fun hk => hmem (AList.mem_keys.2 hk)
    rw [if_neg hmem, List.erase_of_not_mem hkey]

/-- `aiTest found`: whether the test data path existed when the loop looked. -/
inductive LoopKind where
  | inspection
  | aiTest (found : Bool)
deriving DecidableEq, Repr

structure LoopThread where
  kind : LoopKind
  alive : Bool := true
deriving DecidableEq, Repr

structure Wiring where
  dealer : Bool := true
  recordMgr : Bool := true
  dbWriter : Bool := true
  callback : Bool := true
deriving DecidableEq, Repr

structure PreprocessModule (R : Type) where
  wired : Wiring := {}
  aiMode : AIMode
  running : Bool := false
  aiTestMode : Bool := false
  activeRecordPath : String := ""
  testDataPath : String := ""
  subTask : InspectionSubTask := .none
  pairIndex : ℕ := 0
  pending : PendingTable R := ∅
  thread : Option LoopThread := none

structure CallbackArgs (R : Type) where
  transactionId : String
  response : DetectionResponse R
  left : DataBundle
  right : DataBundle
  pairIndex : ℕ
  subTask : InspectionSubTask
  workingDistanceMm : R

/-- A pair whose AI request is out and whose table entry is not yet made. -/
structure PairInFlight (R : Type) where
  transactionId : String
  left : DataBundle
  right : DataBundle
  pairIndex : ℕ
  workingDistanceMm : R
  fromFile : Bool
deriving DecidableEq, Repr

/-- What AIVD is sent: one image behind a header, or the places of files. -/
inductive AiRequest where
  | binary (transactionId : String) (image : Bytes)
  | files (transactionId : String) (uris names : List String)
deriving DecidableEq, Repr

/-- The header announces one image, and the right one does not go out. -/
def sendBinaryRequest (transactionId : String) (leftData _rightData : Bytes) : AiRequest :=
  .binary transactionId leftData

/-- What `process_pair_` does before it locks the table. -/
structure Published (R : Type) where
  pair : PairInFlight R
  request : Option AiRequest
  saved : List DBWriteRequest

/-- The files an action causes: calls of the writer thread's queue, and files saved
at once. -/
structure Writes where
  enqueued : List EnqueueCall := []
  saved : List DBWriteRequest := []
deriving DecidableEq, Repr

def Writes.requests (w : Writes) : List DBWriteRequest :=
  w.enqueued.filterMap EnqueueCall.request? ++ w.saved

/-- An image is enqueued only where it holds data. -/
def imageCalls (path subfolder : String) (idx : ℕ) (images : List (String × Bytes)) :
    List EnqueueCall :=
  (images.filter fun c => c.2 ≠ []).map fun c =>
    .image path subfolder c.1 idx (some c.2) "jpg"

structure Writes.Indexed (n : ℕ) (w : Writes) : Prop where
  enqueued : ∀ c ∈ w.enqueued, c.pairIndex = n
  saved : ∀ r ∈ w.saved, r.pairIndex = n

theorem Writes.indexed_nil (n : ℕ) : ({} : Writes).Indexed n :=
  ⟨List.forall_mem_nil _, List.forall_mem_nil _⟩

theorem Writes.Indexed.requests {n : ℕ} {w : Writes} (h : w.Indexed n) :
    ∀ r ∈ w.requests, r.pairIndex = n := by
  intro r hr
  rcases List.mem_append.1 hr with hr | hr
  · obtain ⟨c, hc, hreq⟩ := List.mem_filterMap.1 hr
    exact (EnqueueCall.request?_pairIndex hreq).trans (h.enqueued c hc)
  · exact h.saved r hr

/-- Every file goes to the subfolder `sub` and carries the pair index `n`. -/
structure Writes.Filed (sub : String) (n : ℕ) (w : Writes) : Prop where
  enqueued : ∀ c ∈ w.enqueued, c.subfolder = sub ∧ c.pairIndex = n
  saved : ∀ r ∈ w.saved, r.subfolder = sub ∧ r.pairIndex = n

theorem Writes.filed_nil (sub : String) (n : ℕ) : ({} : Writes).Filed sub n :=
  ⟨List.forall_mem_nil _, List.forall_mem_nil _⟩

theorem Writes.Filed.indexed {sub : String} {n : ℕ} {w : Writes} (h : w.Filed sub n) :
    w.Indexed n :=
  ⟨fun c hc => (h.enqueued c hc).2, fun r hr => (h.saved r hr).2⟩

theorem imageCalls_filed {path sub : String} {idx : ℕ} {images : List (String × Bytes)} :
    ∀ c ∈ imageCalls path sub idx images, c.subfolder = sub ∧ c.pairIndex = idx := by
  intro c hc
  obtain ⟨i, -, rfl⟩ := List.mem_map.1 hc
  exact ⟨rfl, rfl⟩

structure AiOutcome (R : Type) where
  writes : Writes := {}
  callback : Option (CallbackArgs R) := none

inductive Taken (R : Type) where
  | request (e : PendingRequest R)
  | stale
  | nothing

/-- An unknown id takes the entry with the smallest key; one older than 30 s is
removed and the response is dropped. Times are in nanoseconds. -/
def takePending (now : ℕ) (t : String) (pending : PendingTable R) : Taken R × PendingTable R :=
  match pending.lookup t with
  | some e => (.request e, pending.erase t)
  | none =>
    match pending.entries.argmin Sigma.fst with
    | none => (.nothing, pending)
    | some ⟨k, e⟩ =>
      if 30 * 10 ^ 9 < now - e.createdAt then (.stale, pending.erase k)
      else (.request e, pending.erase k)

/-- The one entry a response takes where the table is not empty. -/
theorem takePending_spec (now : ℕ) (t : String) {pending : PendingTable R} (h : pending ≠ ∅) :
    ∃ k e, pending.lookup k = some e ∧ (k = t ∨ t ∉ pending ∧ ∀ j ∈ pending, k ≤ j) ∧
      takePending now t pending =
        (if k ≠ t ∧ 30 * 10 ^ 9 < now - e.createdAt then .stale else .request e,
          pending.erase k) := by
  unfold takePending
  cases hl : pending.lookup t with
  | some e => exact ⟨t, e, hl, .inl rfl, by simp⟩
  | none =>
    have ht : t ∉ pending := AList.lookup_eq_none.1 hl
    have hne : pending.entries ≠ [] := fun he => h (AList.ext he)
    cases ha : pending.entries.argmin Sigma.fst with
    | none => exact absurd (List.argmin_eq_none.1 ha) hne
    | some x =>
      obtain ⟨k, e⟩ := x
      have hmem : ⟨k, e⟩ ∈ pending.entries := List.argmin_mem ha
      have hk : pending.lookup k = some e := AList.mem_lookup_iff.2 hmem
      have hkt : k ≠ t := by
        rintro rfl
        rw [hl] at hk
        cases hk
      refine ⟨k, e, hk, .inr ⟨ht, ?_⟩, ?_⟩
      · intro j hj
        obtain ⟨f, hf⟩ := List.exists_of_mem_keys (AList.mem_keys.1 hj)
        exact List.le_of_mem_argmin hf ha
      · by_cases hs : 30 * 10 ^ 9 < now - e.createdAt
        · simp only [hs, hkt, if_true, ne_eq, not_false_eq_true, and_self]
        · simp only [hs, if_false, and_false]

theorem takePending_empty (now : ℕ) (t : String) :
    takePending now t (∅ : PendingTable R) = (.nothing, ∅) := rfl

def detectionJson (d : Detection R) : Json R :=
  .object [("confidence", .number d.confidence), ("file_name", .string d.fileName),
    ("label_id", .string d.labelId)]

def resultsJson (resp : DetectionResponse R) : Json R := .array (resp.results.map detectionJson)

/-- The document saved as `AI_L_<idx>.json` and `AI_R_<idx>.json`. -/
def aiFields (resp : DetectionResponse R) : List (String × Json R) :=
  [("dealer_id", .string resp.dealerId), ("results", resultsJson resp),
    ("transaction_id", .string resp.transactionId)]

/-- The same document where no writer is attached. -/
def aiFieldsDirect (resp : DetectionResponse R) : List (String × Json R) :=
  [("results", resultsJson resp), ("transaction_id", .string resp.transactionId)]

def encodeJpegForStorage (img : Imaging R) (raw : Bytes) : Bytes :=
  let sz := raw.length
  if sz = 0 then []
  else if sz % 4 = 0 ∧ 1920 * 1200 * 4 ≤ sz then
    let h := if sz / (1920 * 4) = 0 then 1 else sz / (1920 * 4)
    let (w, h) :=
      if 1920 * h * 4 ≠ sz then (sz / (1200 * 4), if 0 < sz / (1200 * 4) then 1200 else 1)
      else (1920, h)
    if w * h * 4 = sz ∧ img.encodeJpg w h raw ≠ [] then img.encodeJpg w h raw else raw
  else raw

def imageRequest (path subfolder cameraId : String) (idx : ℕ) (data : Bytes) : DBWriteRequest :=
  { type := .image, recordPath := path, subfolder := subfolder, cameraId := cameraId,
    pairIndex := idx, data := data }

def aiResultRequest (path subfolder cameraId : String) (idx : ℕ) (text : Bytes) :
    DBWriteRequest :=
  { type := .aiResult, recordPath := path, subfolder := subfolder, cameraId := cameraId,
    pairIndex := idx, textData := text }

/-- The last component of a path, `fs::path::filename`. -/
def pathFilename (p : String) : String :=
  String.ofList ((p.toList.splitOn '/').getLastD [])

namespace PairInFlight

def entry (p : PairInFlight R) (sub : InspectionSubTask) (now : ℕ) :
    PendingRequest R where
  transactionId := p.transactionId
  left := p.left
  right := p.right
  pairIndex := p.pairIndex
  subTask := if p.fromFile then .none else sub
  workingDistanceMm := p.workingDistanceMm
  createdAt := now

end PairInFlight

namespace PreprocessModule

def currentSubfolder (m : PreprocessModule R) : String :=
  match m.subTask with
  | .installation => "installation"
  | .gapInspection => "inspection"
  | .marking => "marking"
  | .none => "inspection"

def clearPending (m : PreprocessModule R) : PreprocessModule R := { m with pending := ∅ }

def setSubTask (st : InspectionSubTask) (m : PreprocessModule R) : PreprocessModule R :=
  { m with subTask := st }

/-- `thread_.join()`: it waits while the loop runs on, and says whether the loop
that it waited for called the completion callback. -/
def join (m : PreprocessModule R) : Option (PreprocessModule R × Bool) :=
  match m.thread with
  | none => some (m, false)
  | some ⟨_, false⟩ => some ({ m with thread := none }, false)
  | some ⟨k, true⟩ =>
    if m.running then none else some ({ m with thread := none }, k = .aiTest true)

/-- `start_inspection` after the join; `spawned` says whether the thread could be made. -/
def startInspection (path : String) (spawned : Bool) (m : PreprocessModule R) :
    PreprocessModule R :=
  { m.clearPending with
    activeRecordPath := path, aiTestMode := false, pairIndex := 0, subTask := .installation,
    running := true, thread := if spawned then some { kind := .inspection } else none }

def startAiTest (testDataPath path : String) (found spawned : Bool) (m : PreprocessModule R) :
    PreprocessModule R :=
  { m.clearPending with
    testDataPath := testDataPath, activeRecordPath := path, aiTestMode := true, pairIndex := 0,
    running := true, thread := if spawned then some { kind := .aiTest found } else none }

def halt (m : PreprocessModule R) : PreprocessModule R := { m with running := false }

/-- `running_ = false` and the join of every stop, which never waits for long. -/
def haltAndJoin (m : PreprocessModule R) : PreprocessModule R × Bool :=
  match m.thread with
  | some ⟨k, true⟩ => ({ m with running := false, thread := none }, k = .aiTest true)
  | _ => ({ m with running := false, thread := none }, false)

/-- `stop_inspection` after the join. -/
def finishInspection (m : PreprocessModule R) : PreprocessModule R :=
  { m with activeRecordPath := "", subTask := .none }

/-- `stop_ai_test` after the join. -/
def finishAiTest (m : PreprocessModule R) : PreprocessModule R := { m with aiTestMode := false }

/-- The loop function returns; the thread stays joinable. -/
def loopEnds (m : PreprocessModule R) : PreprocessModule R :=
  { m with thread := m.thread.map fun th => { th with alive := false } }

def publishPair (img : Imaging R) (ts : String) (left right : DataBundle) (wd : R)
    (m : PreprocessModule R) : Option (PreprocessModule R × Published R) :=
  if left.data = [] then none
  else
    let idx := m.pairIndex
    let lEnc := encodeJpegForStorage img left.data
    let rEnc := if right.data = [] then [] else encodeJpegForStorage img right.data
    let pair : PairInFlight R :=
      { transactionId := ts, left := { data := lEnc }, right := { data := rEnc },
        pairIndex := idx, workingDistanceMm := wd, fromFile := false }
    let images := imageRequest m.activeRecordPath m.currentSubfolder "L" idx lEnc ::
      if rEnc = [] then []
      else [imageRequest m.activeRecordPath m.currentSubfolder "R" idx rEnc]
    let uri := fun req => m.activeRecordPath ++ "/" ++ m.currentSubfolder ++ "/" ++ fileName req
    some ({ m with pairIndex := idx + 1 },
      if m.aiMode = .binary ∧ m.wired.dealer then
        ⟨pair, some (sendBinaryRequest ts left.data right.data), []⟩
      else if m.wired.dealer ∧ m.activeRecordPath ≠ "" ∧ m.wired.recordMgr then
        ⟨pair, some (.files ts (images.map uri) (images.map fileName)), images⟩
      else ⟨pair, none, []⟩)

def publishFile (img : Imaging R) [Zero R] (ts leftPath rightPath : String)
    (m : PreprocessModule R) : PreprocessModule R × Published R :=
  let paths := [leftPath, rightPath].filter fun p => p ≠ ""
  let bundle := fun p : String =>
    if p = "" ∨ img.readAsJpg p = [] then ({} : DataBundle)
    else { header := { channel := "ai_test" }, data := img.readAsJpg p }
  let pair : PairInFlight R :=
    { transactionId := ts, left := bundle leftPath, right := bundle rightPath,
      pairIndex := m.pairIndex, workingDistanceMm := 0, fromFile := true }
  ({ m with pairIndex := m.pairIndex + 1 },
    ⟨pair, if m.wired.dealer then some (.files ts paths (paths.map pathFilename)) else none, []⟩)

/-- Only `process_pair_` empties a table of more than 200 entries first. -/
def insertPending (now : ℕ) (p : PairInFlight R) (m : PreprocessModule R) :
    PreprocessModule R :=
  let kept := if p.fromFile = false ∧ 200 < m.pending.keys.length then ∅ else m.pending
  { m with pending := kept.insert p.transactionId (p.entry m.subTask now) }

def resultSubfolder (m : PreprocessModule R) (sub : InspectionSubTask) : String :=
  if m.aiTestMode then "" else if sub = .installation then "installation" else "inspection"

def resultWrites (lib : Nlohmann R) (m : PreprocessModule R) (a : CallbackArgs R) : Writes :=
  let path := m.activeRecordPath
  let sub := m.resultSubfolder a.subTask
  let idx := a.pairIndex
  let images := [("L", a.left.data), ("R", a.right.data)]
  if path = "" then {}
  else if m.wired.dbWriter then
    let text := lib.dump (.object (aiFields a.response))
    { enqueued := imageCalls path sub idx images ++
        [.aiResult path sub "L" idx text, .aiResult path sub "R" idx text] }
  else if m.wired.recordMgr then
    let text := lib.dump (.object (aiFieldsDirect a.response))
    let nonempty := images.filter fun c => c.2 ≠ []
    { saved := (nonempty.map fun c => imageRequest path sub c.1 idx c.2) ++
        [aiResultRequest path sub "L" idx text, aiResultRequest path sub "R" idx text] }
  else {}

/-- The part of `on_ai_result_` behind the table. -/
def handleResult (lib : Nlohmann R) (m : PreprocessModule R) (a : CallbackArgs R) :
    AiOutcome R where
  writes := m.resultWrites lib a
  callback := if m.wired.callback then some a else none

def argsOf (resp : DetectionResponse R) (e : PendingRequest R) : CallbackArgs R where
  transactionId := resp.transactionId
  response := resp
  left := e.left
  right := e.right
  pairIndex := e.pairIndex
  subTask := e.subTask
  workingDistanceMm := e.workingDistanceMm

/-- The initial values that stay where the table is empty. -/
def argsDefault [Zero R] (resp : DetectionResponse R) : CallbackArgs R where
  transactionId := resp.transactionId
  response := resp
  left := {}
  right := {}
  pairIndex := 0
  subTask := .none
  workingDistanceMm := 0

def onAiResult [Zero R] (lib : Nlohmann R) (now : ℕ) (resp : DetectionResponse R)
    (m : PreprocessModule R) : PreprocessModule R × AiOutcome R :=
  match takePending now resp.transactionId m.pending with
  | (.request e, rest) => ({ m with pending := rest }, m.handleResult lib (argsOf resp e))
  | (.stale, rest) => ({ m with pending := rest }, {})
  | (.nothing, rest) => ({ m with pending := rest }, m.handleResult lib (argsDefault resp))

theorem insertPending_lookup {now : ℕ} {p : PairInFlight R} {m : PreprocessModule R} {k : String}
    {e : PendingRequest R} (h : (m.insertPending now p).pending.lookup k = some e) :
    k = p.transactionId ∧ e = p.entry m.subTask now ∨ m.pending.lookup k = some e := by
  dsimp only [insertPending] at h
  by_cases hk : k = p.transactionId
  · rw [hk, AList.lookup_insert] at h
    exact .inl ⟨hk, (Option.some.inj h).symm⟩
  · rw [AList.lookup_insert_ne hk] at h
    split at h
    · cases h
    · exact .inr h

theorem haltAndJoin_module (m : PreprocessModule R) :
    m.haltAndJoin.1 = { m with running := false, thread := none } := by
  unfold haltAndJoin
  split <;> rfl

theorem publishPair_pair {img : Imaging R} {ts : String} {left right : DataBundle} {wd : R}
    {m : PreprocessModule R} {x : PreprocessModule R × Published R}
    (h : m.publishPair img ts left right wd = some x) :
    x.2.pair.transactionId = ts ∧ x.1.pending = m.pending := by
  dsimp only [publishPair] at h
  split at h
  · cases h
  · cases h
    refine ⟨?_, rfl⟩
    split_ifs <;> rfl

theorem resultWrites_filed (lib : Nlohmann R) (m : PreprocessModule R) (a : CallbackArgs R) :
    (m.resultWrites lib a).Filed (m.resultSubfolder a.subTask) a.pairIndex := by
  dsimp only [resultWrites]
  split
  · exact Writes.filed_nil _ _
  · split
    · refine ⟨?_, List.forall_mem_nil _⟩
      intro c hc
      rcases List.mem_append.1 hc with hc | hc
      · exact imageCalls_filed c hc
      · simp only [List.mem_cons, List.not_mem_nil, or_false] at hc
        rcases hc with rfl | rfl <;> exact ⟨rfl, rfl⟩
    · split
      · refine ⟨List.forall_mem_nil _, ?_⟩
        intro r hr
        rcases List.mem_append.1 hr with hr | hr
        · obtain ⟨i, -, rfl⟩ := List.mem_map.1 hr
          exact ⟨rfl, rfl⟩
        · simp only [List.mem_cons, List.not_mem_nil, or_false] at hr
          rcases hr with rfl | rfl <;> exact ⟨rfl, rfl⟩
      · exact Writes.filed_nil _ _

theorem handleResult_callback {lib : Nlohmann R} {m : PreprocessModule R} {a b : CallbackArgs R}
    (h : (m.handleResult lib a).callback = some b) : b = a := by
  change (if m.wired.callback then some a else none) = some b at h
  split at h
  · exact (Option.some.inj h).symm
  · cases h

theorem onAiResult_module [Zero R] (lib : Nlohmann R) (now : ℕ) (resp : DetectionResponse R)
    (m : PreprocessModule R) :
    ∃ rest, (m.onAiResult lib now resp).1 = { m with pending := rest } := by
  unfold PreprocessModule.onAiResult
  split <;> exact ⟨_, rfl⟩

theorem onAiResult_pending [Zero R] (lib : Nlohmann R) (now : ℕ) (resp : DetectionResponse R)
    (m : PreprocessModule R) :
    (m.onAiResult lib now resp).1.pending = (takePending now resp.transactionId m.pending).2 := by
  unfold onAiResult
  split <;> simp_all

theorem onAiResult_outcome [Zero R] {lib : Nlohmann R} {now : ℕ} {resp : DetectionResponse R}
    {m : PreprocessModule R} {a : CallbackArgs R}
    (h : (m.onAiResult lib now resp).2.callback = some a) :
    (m.onAiResult lib now resp).2 = m.handleResult lib a ∧ a.response = resp := by
  unfold onAiResult at h ⊢
  split at h
  · rw [handleResult_callback h]
    exact ⟨rfl, rfl⟩
  · cases h
  · rw [handleResult_callback h]
    exact ⟨rfl, rfl⟩

end PreprocessModule

end EcidsCore
