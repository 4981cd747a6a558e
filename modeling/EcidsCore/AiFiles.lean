import EcidsCore.ResponseChain

set_option autoImplicit false

/-! What the AI result files of a pair contain once the writer has drained. -/
namespace EcidsCore
open ByteText GuardedRuns PreprocessModule PostprocessModule

variable {R : Type}

structure SideFile (r : DBWriteRequest) : Prop extends ChainFile r where
  notAi : r.type ≠ .aiResult

theorem imageCalls_requests {path sub : String} {idx : ℕ} {images : List (String × Bytes)}
    (h : ∀ name ∈ images.map Prod.fst, slash ∉ bytes name) :
    ∀ r ∈ (imageCalls path sub idx images).filterMap EnqueueCall.request?,
      SideFile r ∧ r.pairIndex = idx := by
  intro r hr
  obtain ⟨call, hcall, hreq⟩ := List.mem_filterMap.1 hr
  obtain ⟨c, hc, rfl⟩ := List.mem_map.1 hcall
  obtain ⟨hmem, hne⟩ := List.mem_filter.1 hc
  cases hd : c.2 with
  | nil => simp [hd] at hne
  | cons b bs =>
    simp only [EnqueueCall.request?, hd, Option.some.injEq] at hreq
    subst hreq
    have hext : slash ∉ bytes "jpg" := by decide
    exact ⟨⟨⟨⟨h c.1 (List.mem_map_of_mem hmem), hext⟩, rfl, .inl rfl⟩, by simp⟩, rfl⟩

theorem ai_plainNames (path sub : String) (idx : ℕ) (text : Bytes) {cam : String}
    (h : slash ∉ bytes cam) : PlainNames (aiResultRequest path sub cam idx text) :=
  ⟨h, by change slash ∉ bytes "jpg"; decide⟩

theorem ai_L_ne_R (cwd : List Bytes) (path path' sub sub' : String) (idx idx' : ℕ)
    (text text' : Bytes) : location cwd (aiResultRequest path sub "R" idx text) ≠
      location cwd (aiResultRequest path' sub' "L" idx' text') := by
  apply location_ne (ai_plainNames _ _ _ _ (by decide)) (ai_plainNames _ _ _ _ (by decide))
  intro h
  have hl := congrArg String.toList h
  simp [fileName, aiResultRequest] at hl

theorem handle_requests (lib : Nlohmann R) {m : PreprocessModule R} (a : CallbackArgs R)
    (hw : m.wired.dbWriter = true) (hpath : m.activeRecordPath ≠ "") :
    ∃ images, (∀ r ∈ images, SideFile r) ∧
      (m.resultWrites lib a).enqueued.filterMap EnqueueCall.request? =
        images ++
          [aiResultRequest m.activeRecordPath (m.resultSubfolder a.subTask) "L" a.pairIndex
              (lib.dump (.object (aiFields a.response))),
            aiResultRequest m.activeRecordPath (m.resultSubfolder a.subTask) "R" a.pairIndex
              (lib.dump (.object (aiFields a.response)))] := by
  refine ⟨(imageCalls m.activeRecordPath (m.resultSubfolder a.subTask) a.pairIndex
    [("L", a.left.data), ("R", a.right.data)]).filterMap EnqueueCall.request?, ?_, ?_⟩
  · intro r hr
    refine (imageCalls_requests ?_ r hr).1
    change ∀ name ∈ ["L", "R"], slash ∉ bytes name
    decide
  · simp only [resultWrites, if_neg hpath, if_pos hw, List.filterMap_append]
    rfl

theorem sideFile_stereo (path sub : String) (idx : ℕ) (text : Bytes) :
    SideFile (stereoRequest path sub idx text) :=
  ⟨⟨⟨by change slash ∉ bytes ""; decide, by change slash ∉ bytes "jpg"; decide⟩, rfl,
    .inr (.inr rfl)⟩, by simp [stereoRequest]⟩

section Callback
variable [Double R] (lib : Nlohmann R) (vis : Vision R) (ctx : ChainContext R)
  (a : CallbackArgs R)

theorem callback_aiTest (hmode : ctx.mode = .aiTest) :
    ∀ r ∈ (resultCallback lib vis ctx a).2.2.enqueued.filterMap EnqueueCall.request?,
      SideFile r := by
  intro r hr
  simp only [resultCallback, if_pos hmode, processAiTest, saveAiTest] at hr
  split at hr
  · simp at hr
  · split at hr
    · rw [List.filterMap_cons] at hr
      rcases List.mem_cons.1 hr with rfl | hr
      · exact sideFile_stereo _ _ _ _
      · refine (imageCalls_requests ?_ r hr).1
        change ∀ name ∈ ["AL", "AR", "AL2", "AR2"], slash ∉ bytes name
        decide
    · simp at hr

theorem callback_keeps (hmode : ctx.mode ≠ .aiTest) (h : KeepsAiFiles ctx a) :
    (resultCallback lib vis ctx a).2.2 = {} := by
  rw [resultCallback, if_neg hmode]
  cases hs : (ctx.post.skipsGap a.response a.subTask).1 with
  | true => exact process_skipped hs
  | false =>
    obtain ⟨result, hr⟩ := process_saved lib vis ctx.activeRecord ctx.stationId
        ctx.escalatorId hs
    have hnone : ctx.post.hasRecordMgr = false ∨ ctx.activeRecord = "" := by
      simpa [KeepsAiFiles, hmode, hs] using h
    rw [hr, saveResult, if_pos hnone]

theorem callback_bare (hdb : ctx.post.hasDbWriter = true) (h : ¬ KeepsAiFiles ctx a) :
    ∃ sub stereo images, SideFile stereo ∧ (∀ r ∈ images, SideFile r) ∧
      (resultCallback lib vis ctx a).2.2.enqueued.filterMap EnqueueCall.request? =
        stereo ::
        aiResultRequest ctx.activeRecord sub "L" a.pairIndex (bytes a.response.transactionId) ::
        aiResultRequest ctx.activeRecord sub "R" a.pairIndex (bytes a.response.transactionId) ::
        images := by
  simp only [KeepsAiFiles, not_or] at h
  obtain ⟨hmode, hmgr, hrec, hskip⟩ := h
  obtain ⟨result, hr⟩ := process_saved lib vis ctx.activeRecord ctx.stationId
    ctx.escalatorId (Bool.eq_false_iff.2 hskip)
  have hsave : ¬ (ctx.post.hasRecordMgr = false ∨ ctx.activeRecord = "") := not_or.2 ⟨hmgr, hrec⟩
  rw [resultCallback, if_neg hmode, hr, saveResult, if_neg hsave, if_pos hdb]
  refine ⟨inspectionSubfolder a.subTask, stereoRequest _ _ _ _, List.filterMap _ _,
    sideFile_stereo _ _ _ _, ?_, rfl⟩
  intro r hr
  refine (imageCalls_requests ?_ r hr).1
  change ∀ name ∈ ["AL", "AR"], slash ∉ bytes name
  decide

end Callback

theorem side_ne_ai {cwd : List Bytes} {r q : DBWriteRequest} (hr : SideFile r)
    (hq : q.type = .aiResult) (hn : PlainNames q) : location cwd r ≠ location cwd q :=
  location_ne hr.names hn (fileName_ne_ai hr.toChainFile hr.notAi hq)

theorem ai_pair_content (cwd : List Bytes) (pre : List DBWriteRequest)
    {post : List DBWriteRequest} (hpost : ∀ r ∈ post, SideFile r) (path sub : String) (idx : ℕ)
    (text : Bytes) (fs : Files) {cam : String} (hcam : cam = "L" ∨ cam = "R") :
    (pre ++ aiResultRequest path sub "L" idx text :: aiResultRequest path sub "R" idx text ::
      post).foldl (processRequest cwd) fs (location cwd (aiResultRequest path sub cam idx text)) =
        some text := by
  have hside : ∀ r ∈ post, ∀ c : String, slash ∉ bytes c →
      location cwd r ≠ location cwd (aiResultRequest path sub c idx text) := by
    intro r hr c hc
    exact side_ne_ai (hpost r hr) rfl (ai_plainNames path sub idx text hc)
  rcases hcam with rfl | rfl
  · apply foldl_ai rfl
    intro q hq
    rcases List.mem_cons.1 hq with rfl | hq
    · exact ai_L_ne_R cwd path path sub sub idx idx text text
    · exact hside q hq "L" (by decide)
  · rw [← List.singleton_append, ← List.append_assoc]
    apply foldl_ai rfl
    intro q hq
    exact hside q hq "R" (by decide)

section Chain
variable [Double R] {lib : Nlohmann R} {vis : Vision R} {ctx : ChainContext R}
  {m : PreprocessModule R} {o : AiOutcome R} {a : CallbackArgs R}

theorem chain_content_of_keeps (cwd : List Bytes) (hw : m.wired.dbWriter = true)
    (hpath : m.activeRecordPath ≠ "") (ho : o.writes = m.resultWrites lib a)
    (hcall : o.callback = some a) (h : KeepsAiFiles ctx a) (before : List DBWriteRequest)
    (fs : Files) :
    AiFilesCarry lib cwd a.response
      ((before ++ chainRequests lib vis ctx o).foldl (processRequest cwd) fs)
      (chainRequests lib vis ctx o) := by
  obtain ⟨images, himages, hreq⟩ := handle_requests lib a hw hpath
  have hside : ∀ r ∈ (resultCallback lib vis ctx a).2.2.enqueued.filterMap EnqueueCall.request?,
      SideFile r := by
    by_cases hmode : ctx.mode = .aiTest
    · exact callback_aiTest lib vis ctx a hmode
    · rw [callback_keeps lib vis ctx a hmode h]
      exact List.forall_mem_nil _
  intro r hr hai
  rw [chainRequests_some hcall, ho, hreq] at hr ⊢
  have hpair : ∃ cam, (cam = "L" ∨ cam = "R") ∧ r = aiResultRequest m.activeRecordPath
      (m.resultSubfolder a.subTask) cam a.pairIndex (lib.dump (.object (aiFields a.response))) := by
    rcases List.mem_append.1 hr with hr | hr
    · rcases List.mem_append.1 hr with hr | hr
      · exact absurd hai (himages r hr).notAi
      · rcases List.mem_cons.1 hr with rfl | hr
        · exact ⟨"L", .inl rfl, rfl⟩
        · exact ⟨"R", .inr rfl, List.mem_singleton.1 hr⟩
    · exact absurd hai (hside r hr).notAi
  obtain ⟨cam, hcam, rfl⟩ := hpair
  refine ⟨_, ?_, carries_aiFields lib a.response⟩
  have hcontent := ai_pair_content cwd (before ++ images) hside m.activeRecordPath
    (m.resultSubfolder a.subTask) a.pairIndex (lib.dump (.object (aiFields a.response))) fs hcam
  simpa only [List.append_assoc, List.cons_append, List.nil_append] using hcontent

theorem chain_content_of_bare (hlib : lib.Documented) (cwd : List Bytes)
    (hdb : ctx.post.hasDbWriter = true) (hcall : o.callback = some a) (h : ¬ KeepsAiFiles ctx a)
    (before : List DBWriteRequest) (fs : Files) :
    ¬ AiFilesCarry lib cwd a.response
      ((before ++ chainRequests lib vis ctx o).foldl (processRequest cwd) fs)
      (chainRequests lib vis ctx o) := by
  obtain ⟨sub, stereo, images, -, himages, hreq⟩ := callback_bare lib vis ctx a hdb h
  intro hcarry
  have hmem : aiResultRequest ctx.activeRecord sub "L" a.pairIndex
      (bytes a.response.transactionId) ∈ chainRequests lib vis ctx o := by
    rw [chainRequests_some hcall, hreq]
    simp
  obtain ⟨text, htext, hcar⟩ := hcarry _ hmem rfl
  have hcontent := ai_pair_content cwd
    (before ++ o.writes.enqueued.filterMap EnqueueCall.request? ++ [stereo])
    himages ctx.activeRecord sub a.pairIndex (bytes a.response.transactionId) fs
    (.inl rfl : "L" = "L" ∨ _)
  rw [chainRequests_some hcall, hreq] at htext
  simp only [List.append_assoc, List.cons_append, List.nil_append] at htext hcontent
  rw [hcontent] at htext
  obtain rfl := Option.some.inj htext
  exact not_carries_bare hlib a.response hcar

end Chain

def markingEntry : PendingRequest ℤ where
  transactionId := "20260702-101500-250"
  left := {}
  right := {}
  pairIndex := 4
  subTask := .marking
  workingDistanceMm := 0
  createdAt := 0

def markingModule : PreprocessModule ℤ where
  aiMode := .binary
  running := true
  activeRecordPath := "database/r"
  subTask := .marking
  pending := (∅ : PendingTable ℤ).insert markingEntry.transactionId markingEntry

def markingResponse : DetectionResponse ℤ where
  transactionId := markingEntry.transactionId
  dealerId := "d"
  results := [{ labelId := "T1", confidence := 1, fileName := "L_004.jpg", coordinates := [] }]

def markingContext : ChainContext ℤ where
  mode := .inspection
  activeRecord := "database/r"
  stationId := "S"
  escalatorId := "E"
  post := { minConfidence := 0, sameGap := SameGapChecker.default }

def markingCalls : List EnqueueCall :=
  chainCalls (plainLib toString) noVision markingContext
    (markingModule.onAiResult (plainLib toString) 1 markingResponse).2

def markingRun : List WriterAction :=
  (markingCalls.flatMap fun c => [.enqueue c, .push 0]) ++
    (List.replicate 5 [WriterAction.testRunning, .wake, .process]).flatten

def markingWriter : DatabaseWriter :=
  (run (DatabaseWriter.step []) (DatabaseWriter.init 200 fun _ => none) markingRun).get rfl

theorem run_marking : run (DatabaseWriter.step []) (DatabaseWriter.init 200 fun _ => none)
    markingRun = some markingWriter := (Option.some_get _).symm

end EcidsCore
