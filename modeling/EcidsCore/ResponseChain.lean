import EcidsCore.PostprocessModule
import EcidsCore.WriterDrain

set_option autoImplicit false

/-! One AI response from the preprocess module through the result callback, and the
files it leaves behind. -/
namespace EcidsCore
open ByteText GuardedRuns PreprocessModule PostprocessModule

variable {R : Type}

/-- What the result callback reads of the rest of the program. -/
structure ChainContext (R : Type) where
  mode : Mode
  activeRecord : String
  stationId : String
  escalatorId : String
  post : PostprocessModule R

def resultCallback [Double R] (lib : Nlohmann R) (vis : Vision R) (ctx : ChainContext R)
    (a : CallbackArgs R) : PostprocessModule R × InspectionResult R × Writes :=
  if ctx.mode = .aiTest then (ctx.post, ctx.post.processAiTest lib vis ctx.activeRecord a)
  else ctx.post.process lib vis ctx.activeRecord ctx.stationId ctx.escalatorId a

theorem resultCallback_indexed [Double R] (lib : Nlohmann R) (vis : Vision R)
    (ctx : ChainContext R) (a : CallbackArgs R) :
    (resultCallback lib vis ctx a).2.2.Indexed a.pairIndex := by
  unfold resultCallback
  split
  · exact (saveAiTest_filed _ _ _ _ _).indexed
  · cases hs : (ctx.post.skipsGap a.response a.subTask).1 with
    | true =>
      rw [process_skipped hs]
      exact Writes.indexed_nil _
    | false =>
      obtain ⟨result, hr⟩ := process_saved lib vis ctx.activeRecord ctx.stationId
        ctx.escalatorId hs
      rw [hr]
      exact (saveResult_filed _ _ _ _ _).indexed

def chainCalls [Double R] (lib : Nlohmann R) (vis : Vision R) (ctx : ChainContext R)
    (o : AiOutcome R) : List EnqueueCall :=
  o.writes.enqueued ++
    match o.callback with
    | none => []
    | some a => (resultCallback lib vis ctx a).2.2.enqueued

def chainRequests [Double R] (lib : Nlohmann R) (vis : Vision R) (ctx : ChainContext R)
    (o : AiOutcome R) : List DBWriteRequest :=
  (chainCalls lib vis ctx o).filterMap EnqueueCall.request?

theorem chainRequests_some [Double R] {lib : Nlohmann R} {vis : Vision R} {ctx : ChainContext R}
    {o : AiOutcome R} {a : CallbackArgs R} (h : o.callback = some a) :
    chainRequests lib vis ctx o = o.writes.enqueued.filterMap EnqueueCall.request? ++
      (resultCallback lib vis ctx a).2.2.enqueued.filterMap EnqueueCall.request? := by
  rw [chainRequests, chainCalls, h, List.filterMap_append]

/-- The text is a document with the response's id and all its detections. -/
def Carries (lib : Nlohmann R) (resp : DetectionResponse R) (text : Bytes) : Prop :=
  ∃ fields, text = lib.dump (.object fields) ∧
    ("transaction_id", .string resp.transactionId) ∈ fields ∧
    ("results", resultsJson resp) ∈ fields

def AiFilesCarry (lib : Nlohmann R) (cwd : List Bytes) (resp : DetectionResponse R)
    (disk : Files) (requests : List DBWriteRequest) : Prop :=
  ∀ r ∈ requests, r.type = .aiResult →
    ∃ text, disk (location cwd r) = some text ∧ Carries lib resp text

def KeepsAiFiles [Double R] (ctx : ChainContext R) (a : CallbackArgs R) : Prop :=
  ctx.mode = .aiTest ∨ ctx.post.hasRecordMgr = false ∨ ctx.activeRecord = "" ∨
    (ctx.post.skipsGap a.response a.subTask).1 = true

theorem carries_aiFields (lib : Nlohmann R) (resp : DetectionResponse R) :
    Carries lib resp (lib.dump (.object (aiFields resp))) :=
  ⟨aiFields resp, rfl, by simp [aiFields], by simp [aiFields]⟩

theorem not_carries_bare {lib : Nlohmann R} (hlib : lib.Documented) (resp : DetectionResponse R) :
    ¬ Carries lib resp (bytes resp.transactionId) := by
  rintro ⟨fields, htext, hmem, -⟩
  have hlt := hlib.dump_longer fields _ _ hmem
  rw [← htext] at hlt
  exact absurd hlt (lt_irrefl _)

structure ChainFile (r : DBWriteRequest) : Prop where
  names : PlainNames r
  jpg : r.format = "jpg"
  kind : r.type = .image ∨ r.type = .aiResult ∨ r.type = .stereoResult

theorem fileName_ne_ai {r q : DBWriteRequest} (hr : ChainFile r) (hn : r.type ≠ .aiResult)
    (hq : q.type = .aiResult) : fileName r ≠ fileName q := by
  intro h
  have hl := congrArg String.toList h
  rcases hr.kind with hk | hk | hk
  · have hg : (fileName r).toList.getLast? = some 'g' := by
      rw [fileName, hk, hr.jpg]
      simp only [String.toList_append, List.getLast?_append]
      rfl
    have hn : (fileName q).toList.getLast? = some 'n' := by
      rw [fileName, hq]
      simp only [String.toList_append, List.getLast?_append]
      rfl
    rw [hl, hn] at hg
    exact absurd hg (by decide)
  · exact absurd hk hn
  · have hhead := congrArg List.head? hl
    simp [fileName, hk, hq] at hhead

theorem location_ne {cwd : List Bytes} {r q : DBWriteRequest} (hr : PlainNames r)
    (hq : PlainNames q) (h : fileName r ≠ fileName q) : location cwd r ≠ location cwd q := by
  intro he
  have hlast := congrArg List.getLast? he
  rw [location_getLast hr, location_getLast hq] at hlast
  exact h (bytes_injective (Option.some.inj hlast))

theorem processRequest_other {cwd : List Bytes} {r : DBWriteRequest} {p : List Bytes}
    (h : location cwd r ≠ p) (fs : Files) : processRequest cwd fs r p = fs p := by
  have hw : ∀ content, fs.write cwd (savePath r) content p = fs p := by
    intro content
    exact if_neg fun he => h he.symm
  unfold processRequest
  cases r.type <;> simp only [hw]
  all_goals split <;> first | rfl | exact hw _

theorem foldl_other {cwd : List Bytes} {p : List Bytes} {rs : List DBWriteRequest}
    (h : ∀ r ∈ rs, location cwd r ≠ p) (fs : Files) :
    rs.foldl (processRequest cwd) fs p = fs p := by
  induction rs generalizing fs with
  | nil => rfl
  | cons r rs ih =>
    rw [List.foldl_cons, ih (fun q hq => h q (List.mem_cons_of_mem r hq)),
      processRequest_other (h r List.mem_cons_self)]

theorem processRequest_ai (cwd : List Bytes) (fs : Files) {r : DBWriteRequest}
    (h : r.type = .aiResult) : processRequest cwd fs r (location cwd r) = some r.textData := by
  rw [processRequest, h]
  exact if_pos rfl

theorem foldl_ai {cwd : List Bytes} {pre post : List DBWriteRequest} {r : DBWriteRequest}
    (hr : r.type = .aiResult) (h : ∀ q ∈ post, location cwd q ≠ location cwd r) (fs : Files) :
    (pre ++ r :: post).foldl (processRequest cwd) fs (location cwd r) = some r.textData := by
  rw [List.foldl_append, List.foldl_cons, foldl_other h, processRequest_ai cwd _ hr]

end EcidsCore
