import EcidsCore.AiFiles
import EcidsCore.Base64Encode
import EcidsCore.PendingRuns
import EcidsCore.Timestamp

set_option autoImplicit false

/-! The images of the pairs of a task, from the capture loop to the answer of the API:
under which names they are stored, and what `GetImage` returns of them. -/
namespace EcidsCore
open ByteText GuardedRuns PathResolution PreprocessModule
open PostprocessModule (stereoRequest)

variable {R : Type}

def PairInFlight.image (p : PairInFlight R) (cameraId : String) : Bytes :=
  if cameraId = "L" then p.left.data else p.right.data

def DBWriteRequest.IsPairImage (r : DBWriteRequest) : Prop :=
  r.type = .image ∧ (r.cameraId = "L" ∨ r.cameraId = "R")

instance (r : DBWriteRequest) : Decidable r.IsPairImage := inferInstanceAs (Decidable (_ ∧ _))

/-- The files requested since the last start of a task; `ctx` is what the result callback
finds of the rest of the program. A response is handled in one step, from the taking of its
entry to its last file. -/
structure RecordingSystem (R : Type) where
  system : PendingSystem R
  ctx : ChainContext R
  requests : List DBWriteRequest := []

inductive RecordingAction (R : Type) where
  | act (a : PendingAction R)
  | context (ctx : ChainContext R)

def PendingAction.starts : PendingAction R → Bool
  | .startInspection _ | .startAiTest .. => true
  | _ => false

namespace RecordingSystem

variable [Double R] (img : Imaging R) (lib : Nlohmann R) (vis : Vision R)

def responseFiles (s : RecordingSystem R) (resp : DetectionResponse R) : List DBWriteRequest :=
  let o := (s.system.module.onAiResult lib s.system.clock resp).2
  o.writes.requests ++
    match o.callback with
    | none => []
    | some a => (resultCallback lib vis s.ctx a).2.2.requests

def files (s : RecordingSystem R) : PendingAction R → List DBWriteRequest
  | .publishPair ts left right wd =>
    match s.system.module.publishPair img ts left right wd with
    | none => []
    | some x => x.2.saved
  | .deliver resp => s.responseFiles lib vis resp
  | _ => []

def step (s : RecordingSystem R) : RecordingAction R → Option (RecordingSystem R)
  | .act a => (s.system.step img lib a).map fun t =>
      { s with system := t,
               requests := if a.starts then [] else s.requests ++ s.files img lib vis a }
  | .context ctx => some { s with ctx }

end RecordingSystem

namespace PreprocessModule

theorem encodeJpegForStorage_ne_nil (img : Imaging R) {raw : Bytes} (h : raw ≠ []) :
    encodeJpegForStorage img raw ≠ [] := by
  unfold encodeJpegForStorage
  dsimp only
  rw [if_neg fun hz => h (List.length_eq_zero_iff.1 hz)]
  split_ifs
  all_goals
    first
    | exact h
    | rename_i hok
      exact hok.2

theorem pair_requests {path sub : String} {idx : ℕ} {left right : Bytes} (h : left ≠ []) :
    ∀ r ∈ imageRequest path sub "L" idx left ::
        (if right = [] then [] else [imageRequest path sub "R" idx right]),
      r.IsPairImage ∧ r.format = "jpg" ∧ r.pairIndex = idx ∧
        r.data = (if r.cameraId = "L" then left else right) ∧ r.data ≠ [] := by
  intro r hr
  rcases List.mem_cons.1 hr with rfl | hr
  · exact ⟨⟨rfl, .inl rfl⟩, rfl, rfl, rfl, h⟩
  · split at hr
    · cases hr
    · rename_i hright
      rw [List.mem_singleton.1 hr]
      exact ⟨⟨rfl, .inr rfl⟩, rfl, rfl, rfl, hright⟩

/-- What `process_pair_` does with the index and the images of a pair. -/
structure PublishesImages (m : PreprocessModule R) (x : PreprocessModule R × Published R) :
    Prop where
  next : x.1.pairIndex = m.pairIndex + 1
  index : x.2.pair.pairIndex = m.pairIndex
  saved : ∀ r ∈ x.2.saved, r.IsPairImage ∧ r.format = "jpg" ∧ r.pairIndex = m.pairIndex ∧
    r.data = x.2.pair.image r.cameraId ∧ r.data ≠ []

theorem publishPair_images {img : Imaging R} {ts : String} {left right : DataBundle} {wd : R}
    {m : PreprocessModule R} {x : PreprocessModule R × Published R}
    (h : m.publishPair img ts left right wd = some x) : PublishesImages m x := by
  dsimp only [publishPair] at h
  split at h
  · cases h
  · rename_i hleft
    cases h
    have hl := encodeJpegForStorage_ne_nil img hleft
    refine ⟨rfl, by split_ifs <;> rfl, ?_⟩
    intro r hr
    by_cases hbinary : m.aiMode = .binary ∧ m.wired.dealer
    · rw [if_pos hbinary] at hr
      cases hr
    · rw [if_neg hbinary] at hr ⊢
      by_cases hfiles : m.wired.dealer ∧ m.activeRecordPath ≠ "" ∧ m.wired.recordMgr
      · rw [if_pos hfiles] at hr ⊢
        exact pair_requests hl r hr
      · rw [if_neg hfiles] at hr
        cases hr

theorem join_pairIndex {m m' : PreprocessModule R} {called : Bool} (h : m.join = some (m', called)) :
    m'.pairIndex = m.pairIndex := by
  unfold join at h
  split at h
  · cases h
    rfl
  · cases h
    rfl
  · split at h
    · cases h
    · cases h
      rfl

end PreprocessModule

namespace PendingSystem

def Counted (s : PendingSystem R) : Prop :=
  s.sent.map PairInFlight.pairIndex = List.range s.module.pairIndex

theorem counted_publish {s : PendingSystem R} (hs : Counted s) {m : PreprocessModule R}
    {p : PairInFlight R} (hm : m.pairIndex = s.module.pairIndex + 1)
    (hp : p.pairIndex = s.module.pairIndex) : Counted (s.publish m p) := by
  change (s.sent ++ [p]).map PairInFlight.pairIndex = List.range m.pairIndex
  rw [List.map_append, hs, hm, List.range_succ, List.map_singleton, hp]

theorem joined_pairIndex {s : PendingSystem R} {m : PreprocessModule R} (h : s.joined = some m) :
    m.pairIndex = s.module.pairIndex := by
  unfold joined at h
  split at h
  · obtain ⟨⟨m', called⟩, hj, rfl⟩ := Option.map_eq_some_iff.1 h
    exact join_pairIndex hj
  · cases h

theorem counted_stopTask {s t : PendingSystem R} (hs : Counted s)
    (finish : PreprocessModule R → PreprocessModule R)
    (hfinish : ∀ m, (finish m).pairIndex = m.pairIndex) (h : s.stopTask finish = some t) :
    Counted t := by
  obtain ⟨m, hm, rfl⟩ := Option.map_eq_some_iff.1 h
  change s.sent.map PairInFlight.pairIndex = List.range (finish m).pairIndex
  rw [hfinish, joined_pairIndex hm]
  exact hs

theorem counted_startTask {s t : PendingSystem R}
    {start : PreprocessModule R → PreprocessModule R}
    (hstart : ∀ m, (start m).pairIndex = 0) (h : s.startTask start = some t) : Counted t := by
  obtain ⟨m, hm, rfl⟩ := Option.map_eq_some_iff.1 h
  change [] = List.range (start m).pairIndex
  rw [hstart]
  rfl

theorem counted_step [Double R] {img : Imaging R} {lib : Nlohmann R} {s t : PendingSystem R}
    {a : PendingAction R} (hs : Counted s) (h : s.step img lib a = some t) : Counted t := by
  cases a <;> simp only [step] at h
  case publishPair ts left right wd =>
    split at h
    · split at h
      · cases h
        exact hs
      · rename_i m pub hpub
        cases h
        have himages := publishPair_images hpub
        exact counted_publish hs himages.next himages.index
    · cases h
  case publishFile ts l r =>
    split at h
    · cases h
      exact counted_publish hs rfl rfl
    · cases h
  case insert =>
    obtain ⟨p, -, rfl⟩ := Option.map_eq_some_iff.1 h
    exact hs
  case deliver resp =>
    cases h
    obtain ⟨rest, hrest⟩ := onAiResult_module lib s.clock resp s.module
    change s.sent.map PairInFlight.pairIndex =
      List.range (s.module.onAiResult lib s.clock resp).1.pairIndex
    rw [hrest]
    exact hs
  case loopEnds =>
    split at h
    · cases h
      exact hs
    · cases h
  case startInspection path => exact counted_startTask (fun _ => rfl) h
  case startAiTest data path found => exact counted_startTask (fun _ => rfl) h
  case stopInspection => exact counted_stopTask hs finishInspection (fun _ => rfl) h
  case stopAiTest => exact counted_stopTask hs finishAiTest (fun _ => rfl) h
  case stop => exact counted_stopTask hs id (fun _ => rfl) h
  all_goals
    cases h
    exact hs

end PendingSystem

structure Aside (r : DBWriteRequest) : Prop where
  names : PlainNames r
  head : (fileName r).toList.head? = some 'A' ∨ (fileName r).toList.head? = some 'S'

/-- An image of a pair, with the pair's index and a camera's bytes. -/
structure PairFile (idx : ℕ) (left right : Bytes) (r : DBWriteRequest) : Prop where
  image : r.IsPairImage
  jpg : r.format = "jpg"
  index : r.pairIndex = idx
  data : r.data = if r.cameraId = "L" then left else right
  filled : r.data ≠ []

theorem imageCalls_image {path sub : String} {idx : ℕ} {images : List (String × Bytes)}
    {r : DBWriteRequest}
    (hr : r ∈ (imageCalls path sub idx images).filterMap EnqueueCall.request?) :
    ∃ c ∈ images, c.2 ≠ [] ∧ r = imageRequest path sub c.1 idx c.2 := by
  obtain ⟨call, hcall, hreq⟩ := List.mem_filterMap.1 hr
  obtain ⟨c, hc, rfl⟩ := List.mem_map.1 hcall
  refine ⟨c, (List.mem_filter.1 hc).1, ?_⟩
  cases hd : c.2 with
  | nil =>
    rw [hd] at hreq
    cases hreq
  | cons b bs =>
    rw [hd] at hreq
    cases hreq
    exact ⟨List.cons_ne_nil b bs, rfl⟩

theorem aside_ai (path sub : String) (idx : ℕ) (text : Bytes) {cam : String}
    (h : slash ∉ bytes cam) : Aside (aiResultRequest path sub cam idx text) := by
  refine ⟨ai_plainNames path sub idx text h, .inl ?_⟩
  simp [fileName, aiResultRequest]

theorem aside_stereo (path sub : String) (idx : ℕ) (text : Bytes) :
    Aside (stereoRequest path sub idx text) := by
  refine ⟨(sideFile_stereo path sub idx text).names, .inr ?_⟩
  simp [fileName, stereoRequest]

theorem aside_images {path sub : String} {idx : ℕ} {images : List (String × Bytes)}
    (h : ∀ name ∈ images.map Prod.fst, name ∈ ["AL", "AR", "AL2", "AR2"]) :
    ∀ r ∈ (imageCalls path sub idx images).filterMap EnqueueCall.request?, Aside r := by
  intro r hr
  obtain ⟨c, hc, -, rfl⟩ := imageCalls_image hr
  have hname := h c.1 (List.mem_map_of_mem hc)
  simp only [List.mem_cons, List.not_mem_nil, or_false] at hname
  have hjpg : slash ∉ bytes "jpg" := by decide
  have hside : slash ∉ bytes c.1 ∧ c.1.toList.head? = some 'A' := by
    rcases hname with hn | hn | hn | hn <;> rw [hn] <;> decide
  refine ⟨⟨hside.1, hjpg⟩, .inl ?_⟩
  simp [fileName, imageRequest, hside.2]

section Response
variable [Double R] (lib : Nlohmann R)

omit [Double R] in
theorem pairFile_images {path sub : String} {idx : ℕ} {left right : Bytes} {r : DBWriteRequest}
    (h : ∃ c ∈ [("L", left), ("R", right)], c.2 ≠ [] ∧ r = imageRequest path sub c.1 idx c.2) :
    PairFile idx left right r := by
  obtain ⟨c, hc, hne, rfl⟩ := h
  simp only [List.mem_cons, List.not_mem_nil, or_false] at hc
  rcases hc with rfl | rfl
  · exact ⟨⟨rfl, .inl rfl⟩, rfl, rfl, rfl, hne⟩
  · exact ⟨⟨rfl, .inr rfl⟩, rfl, rfl, rfl, hne⟩

omit [Double R] in
theorem resultWrites_files (m : PreprocessModule R) (a : CallbackArgs R) :
    ∀ r ∈ (m.resultWrites lib a).requests,
      PairFile a.pairIndex a.left.data a.right.data r ∨ Aside r := by
  intro r hr
  have hai : ∀ path sub text, r ∈ [aiResultRequest path sub "L" a.pairIndex text,
      aiResultRequest path sub "R" a.pairIndex text] → Aside r := by
    intro path sub text hmem
    rcases List.mem_cons.1 hmem with rfl | hmem
    · exact aside_ai _ _ _ _ (by decide)
    · rw [List.mem_singleton.1 hmem]
      exact aside_ai _ _ _ _ (by decide)
  dsimp only [resultWrites] at hr
  split_ifs at hr
  · cases hr
  · rw [Writes.requests, List.append_nil, List.filterMap_append] at hr
    rcases List.mem_append.1 hr with hr | hr
    · exact .inl (pairFile_images (imageCalls_image hr))
    · exact .inr (hai _ _ _ hr)
  · rcases List.mem_append.1 (show r ∈ [] ++ _ from hr) with hr | hr
    · cases hr
    · rcases List.mem_append.1 hr with hr | hr
      · obtain ⟨c, hc, rfl⟩ := List.mem_map.1 hr
        obtain ⟨hmem, hne⟩ := List.mem_filter.1 hc
        exact .inl (pairFile_images ⟨c, hmem, of_decide_eq_true hne, rfl⟩)
      · exact .inr (hai _ _ _ hr)
  · cases hr

omit [Double R] in
theorem saveResult_aside (activeRecord : String) (a : CallbackArgs R) (result : InspectionResult R)
    (m : PostprocessModule R) :
    ∀ r ∈ (m.saveResult lib activeRecord a result).requests, Aside r := by
  intro r hr
  dsimp only [PostprocessModule.saveResult] at hr
  split_ifs at hr
  · cases hr
  · rw [Writes.requests, List.append_nil, List.filterMap_append] at hr
    rcases List.mem_append.1 hr with hr | hr
    · simp only [List.filterMap_cons, List.filterMap_nil, EnqueueCall.request?, List.mem_cons,
        List.not_mem_nil, or_false] at hr
      rcases hr with rfl | rfl | rfl
      · exact aside_stereo _ _ _ _
      · exact aside_ai _ _ _ _ (by decide)
      · exact aside_ai _ _ _ _ (by decide)
    · exact aside_images (by simp) r hr
  · rw [List.mem_singleton.1 hr]
    exact aside_stereo _ _ _ _

omit [Double R] in
theorem saveAiTest_aside (activeRecord : String) (idx : ℕ) (result : InspectionResult R)
    (m : PostprocessModule R) :
    ∀ r ∈ (m.saveAiTest lib activeRecord idx result).requests, Aside r := by
  intro r hr
  dsimp only [PostprocessModule.saveAiTest] at hr
  split_ifs at hr
  · cases hr
  · rw [Writes.requests, List.append_nil, List.filterMap_cons_some (by rfl)] at hr
    rcases List.mem_cons.1 hr with rfl | hr
    · exact aside_stereo _ _ _ _
    · exact aside_images (by simp) r hr
  · rw [List.mem_singleton.1 hr]
    exact aside_stereo _ _ _ _

theorem resultCallback_aside (vis : Vision R) (ctx : ChainContext R) (a : CallbackArgs R) :
    ∀ r ∈ (resultCallback lib vis ctx a).2.2.requests, Aside r := by
  unfold resultCallback
  split
  · exact saveAiTest_aside lib _ _ _ _
  · cases hs : (ctx.post.skipsGap a.response a.subTask).1 with
    | true =>
      rw [PostprocessModule.process_skipped hs]
      exact List.forall_mem_nil _
    | false =>
      obtain ⟨result, hr⟩ := PostprocessModule.process_saved lib vis ctx.activeRecord
        ctx.stationId ctx.escalatorId hs
      rw [hr]
      exact saveResult_aside lib _ _ _ _

theorem onAiResult_args (now : ℕ) (resp : DetectionResponse R) (m : PreprocessModule R) :
    (m.onAiResult lib now resp).2 = {} ∨ ∃ a, (m.onAiResult lib now resp).2 =
        m.handleResult lib a ∧
      (a.left.data = [] ∧ a.right.data = [] ∨
        ∃ k e, m.pending.lookup k = some e ∧ a = argsOf resp e) := by
  by_cases hempty : m.pending = ∅
  · refine .inr ⟨argsDefault resp, ?_, .inl ⟨rfl, rfl⟩⟩
    rw [onAiResult, hempty, takePending_empty]
  · obtain ⟨k, e, hk, -, htake⟩ := takePending_spec now resp.transactionId hempty
    by_cases hstale : k ≠ resp.transactionId ∧ 30 * 10 ^ 9 < now - e.createdAt
    · rw [if_pos hstale] at htake
      left
      rw [onAiResult, htake]
    · rw [if_neg hstale] at htake
      refine .inr ⟨argsOf resp e, ?_, .inr ⟨k, e, hk, rfl⟩⟩
      rw [onAiResult, htake]

end Response

section Place
variable {cwd : List Bytes} {idx jdx : ℕ} {left right left' right' : Bytes} {r q : DBWriteRequest}

theorem PairFile.fileName_eq (h : PairFile idx left right r) :
    fileName r = r.cameraId ++ "_" ++ RecordManager.formatPairIndex idx ++ "." ++ "jpg" := by
  rw [fileName, h.image.1, h.jpg, h.index]

theorem PairFile.plainNames (h : PairFile idx left right r) : PlainNames r := by
  refine ⟨?_, by rw [h.jpg]; decide⟩
  rcases h.image.2 with hc | hc <;> rw [hc] <;> decide

theorem PairFile.location_inj (hr : PairFile idx left right r) (hq : PairFile jdx left' right' q)
    (h : location cwd r = location cwd q) : r.cameraId = q.cameraId ∧ idx = jdx := by
  have hname : fileName r = fileName q := by
    by_contra hne
    exact location_ne hr.plainNames hq.plainNames hne h
  rw [hr.fileName_eq, hq.fileName_eq] at hname
  have hl := congrArg String.toList hname
  simp only [String.toList_append, List.append_assoc] at hl
  have hcam : r.cameraId = q.cameraId := by
    have hhead := congrArg List.head? hl
    rcases hr.image.2 with hc | hc <;> rcases hq.image.2 with hd | hd <;> rw [hc, hd] at hhead ⊢
    · exact absurd hhead (by simp)
    · exact absurd hhead (by simp)
  rw [hcam] at hl
  have htail := List.append_cancel_left (List.append_cancel_left hl)
  have hindex := List.append_cancel_right htail
  exact ⟨hcam, padded_injective 3 (String.toList_inj.1 hindex)⟩

theorem PairFile.location_ne_aside (hr : PairFile idx left right r) (hq : Aside q) :
    location cwd q ≠ location cwd r := by
  apply location_ne hq.names hr.plainNames
  intro h
  have hhead := hq.head
  rw [h, hr.fileName_eq] at hhead
  rcases hr.image.2 with hc | hc <;> rw [hc] at hhead <;> simp at hhead

theorem PairFile.content (hr : PairFile idx left right r) (fs : Files) :
    processRequest cwd fs r (location cwd r) = some r.data := by
  rw [processRequest, hr.image.1]
  simp only [if_neg hr.filled]
  exact if_pos rfl

theorem foldl_content {place : List Bytes} {content : Bytes} {done : List DBWriteRequest}
    (h : ∀ q ∈ done, location cwd q = place → ∀ fs, processRequest cwd fs q place = some content)
    (fs : Files) (hsome : fs place = some content ∨ ∃ q ∈ done, location cwd q = place) :
    done.foldl (processRequest cwd) fs place = some content := by
  induction done generalizing fs with
  | nil =>
    rcases hsome with hfs | ⟨q, hq, -⟩
    · exact hfs
    · cases hq
  | cons q done ih =>
    refine ih (fun q' hq' => h q' (List.mem_cons_of_mem q hq')) _ ?_
    by_cases hplace : location cwd q = place
    · exact .inl (h q List.mem_cons_self hplace fs)
    · rw [processRequest_other hplace]
      rcases hsome with hfs | ⟨q', hq', hp⟩
      · exact .inl hfs
      · rcases List.mem_cons.1 hq' with rfl | hq'
        · exact absurd hp hplace
        · exact .inr ⟨q', hq', hp⟩

end Place

namespace RecordingSystem

structure Filed (s : RecordingSystem R) : Prop where
  tracked : PendingSystem.Tracked s.system
  counted : PendingSystem.Counted s.system
  files : ∀ r ∈ s.requests, Aside r ∨
    ∃ p ∈ s.system.sent, PairFile p.pairIndex p.left.data p.right.data r

variable [Double R] {img : Imaging R} {lib : Nlohmann R} {vis : Vision R}
  {s t : RecordingSystem R}

theorem sent_mono {s t : PendingSystem R} {a : PendingAction R} (ha : a.starts = false)
    (h : s.step img lib a = some t) : ∀ p ∈ s.sent, p ∈ t.sent := by
  intro p hp
  cases a <;> simp only [PendingSystem.step] at h
  case publishPair ts left right wd =>
    split at h
    · split at h <;> cases h
      · exact hp
      · exact List.mem_append_left _ hp
    · cases h
  case publishFile ts l r =>
    split at h
    · cases h
      exact List.mem_append_left _ hp
    · cases h
  case insert =>
    obtain ⟨q, -, rfl⟩ := Option.map_eq_some_iff.1 h
    exact hp
  case loopEnds =>
    split at h
    · cases h
      exact hp
    · cases h
  case startInspection path => cases ha
  case startAiTest data path found => cases ha
  case stopInspection =>
    obtain ⟨m, -, rfl⟩ := Option.map_eq_some_iff.1 h
    exact hp
  case stopAiTest =>
    obtain ⟨m, -, rfl⟩ := Option.map_eq_some_iff.1 h
    exact hp
  case stop =>
    obtain ⟨m, -, rfl⟩ := Option.map_eq_some_iff.1 h
    exact hp
  all_goals
    cases h
    exact hp

theorem files_response (hs : Filed s) (resp : DetectionResponse R) :
    ∀ r ∈ s.responseFiles lib vis resp, Aside r ∨
      ∃ p ∈ s.system.sent, PairFile p.pairIndex p.left.data p.right.data r := by
  intro r hr
  rcases List.mem_append.1 hr with hr | hr
  · rcases onAiResult_args lib s.system.clock resp s.system.module with hnone | ⟨a, ha, hargs⟩
    · rw [hnone] at hr
      cases hr
    · rw [ha] at hr
      rcases resultWrites_files lib s.system.module a r hr with hfile | haside
      · rcases hargs with ⟨hleft, hright⟩ | ⟨k, e, hk, rfl⟩
        · refine absurd hfile.data ?_
          rw [hleft, hright, ite_self]
          exact hfile.filled
        · obtain ⟨p, hp, hentry⟩ := hs.tracked.entered e (hs.tracked.pending k e hk).2
          rw [hentry] at hfile
          exact .inr ⟨p, hp, hfile⟩
      · exact .inl haside
  · split at hr
    · cases hr
    · exact .inl (resultCallback_aside lib vis _ _ r hr)

theorem files_act (hs : Filed s) {a : PendingAction R} {u : PendingSystem R}
    (h : s.system.step img lib a = some u) :
    ∀ r ∈ s.files img lib vis a, Aside r ∨
      ∃ p ∈ u.sent, PairFile p.pairIndex p.left.data p.right.data r := by
  intro r hr
  cases a with
  | publishPair ts left right wd =>
    simp only [PendingSystem.step] at h
    simp only [files] at hr
    split at h
    · split at h
      · rename_i hnone
        rw [hnone] at hr
        cases hr
      · rename_i m pub hpub
        rw [hpub] at hr
        cases h
        have himages := publishPair_images hpub
        obtain ⟨himage, hjpg, hindex, hdata, hne⟩ := himages.saved r hr
        exact .inr ⟨pub.pair, List.mem_append_right _ List.mem_cons_self,
          ⟨himage, hjpg, hindex.trans himages.index.symm, hdata, hne⟩⟩
    · cases h
  | deliver resp =>
    cases h
    exact files_response hs resp r hr
  | _ => cases hr

theorem filed_step {a : RecordingAction R} (hs : Filed s) (h : s.step img lib vis a = some t) :
    Filed t := by
  cases a with
  | context ctx =>
    cases h
    exact ⟨hs.tracked, hs.counted, hs.files⟩
  | act a =>
    obtain ⟨u, hu, rfl⟩ := Option.map_eq_some_iff.1 h
    refine ⟨PendingSystem.tracked_step hs.tracked hu, PendingSystem.counted_step hs.counted hu, ?_⟩
    intro r hr
    dsimp only at hr
    split at hr
    · cases hr
    · rename_i hstart
      rcases List.mem_append.1 hr with hr | hr
      · rcases hs.files r hr with haside | ⟨p, hp, hfile⟩
        · exact .inl haside
        · exact .inr ⟨p, sent_mono (Bool.not_eq_true _ ▸ hstart) hu p hp, hfile⟩
      · exact files_act hs hu r hr

theorem filed_run {m : PreprocessModule R} {ctx : ChainContext R} {as : List (RecordingAction R)}
    (hpending : m.pending = ∅) (hindex : m.pairIndex = 0)
    (hr : run (step img lib vis) { system := { module := m }, ctx } as = some s) : Filed s := by
  refine run_preserves (fun _ _ _ => filed_step) ⟨PendingSystem.tracked_init hpending, ?_,
    fun _ hmem => absurd hmem List.not_mem_nil⟩ hr
  change [] = List.range m.pairIndex
  rw [hindex]
  rfl

end RecordingSystem

def imageFields (data : Bytes) : List (String × Json R) :=
  [("image", .string (base64Encode data)), ("size", .integer data.length)]

def FileSystem.Reads (cwd : List Bytes) (disk : Files) (fs : FileSystem) : Prop :=
  ∀ p, fs.readFile p = disk (resolvedPath cwd p)

theorem resolvedPath_doubled (cwd : List Bytes) (dir name : Bytes) :
    resolvedPath cwd (dir ++ slash :: slash :: name) = resolvedPath cwd (dir ++ slash :: name) := by
  have hhead : (dir ++ slash :: slash :: name).head? = (dir ++ slash :: name).head? := by
    cases dir <;> rfl
  have hempty : components slash (slash :: name) = [] :: components slash name :=
    components_append [] name
  rw [resolvedPath, resolvedPath, hhead, components_append, components_append, hempty,
    resolve_append, resolve_append, resolve_cons, enter, if_pos (stays_nil fullStop)]

theorem imagePath_location {cwd : List Bytes} {root rel : String} {r : DBWriteRequest}
    (h : r.recordPath = recordFull root rel) :
    resolvedPath cwd (bytes (imagePath root ⟨rel, fileName r, r.subfolder⟩)) = location cwd r := by
  rw [imagePath, location, savePath, saveDir, h]
  by_cases hsub : r.subfolder = ""
  · rw [if_pos hsub, hsub]
    simp only [bytes_append, bytes_slash, List.append_assoc]
    exact (resolvedPath_doubled cwd _ _).symm
  · rw [if_neg hsub]
    simp only [bytes_append, List.append_assoc]

theorem getImage_served [Double R] {env : Env R} {cwd : List Bytes} {disk : Files} {body : Bytes}
    {c : Core R} {q : ImageRequest} {data : Bytes} (hq : imageRequestOf env.lib body = .ok q)
    (hpath : q.recordPath ≠ "") (hname : q.filename ≠ "") (hreads : env.fs.Reads cwd disk)
    (hdata : disk (resolvedPath cwd (bytes (imagePath c.records.rootPath q))) = some data)
    (hback : env.lib.parse (dumped env.lib (imageFields data)) = .ok (.object (imageFields data))) :
    (handle env (bytes "POST") (bytes "/GetImage") body c).1 =
      .reply ⟨some 0, env.lib.dump (.object [("code", .integer 0),
        ("data", .object (imageFields data)), ("message", .string "Success")])⟩ := by
  have hroute : route (bytes "POST") (bytes "/GetImage") = .getImage := by decide
  have hmember : dataMember env.lib (dumped env.lib (imageFields data)) =
      some (.object (imageFields data)) := by
    rw [dataMember, hback]
  rw [handle, hroute]
  simp only [getImage, hq]
  rw [if_neg (by simp [hpath, hname]), readImage, hreads, hdata]
  change guarded env.lib "" (makeResponse env.lib 0 (bytes "Success")
    (dumped env.lib (imageFields data))) = _
  rw [makeResponse, hmember]
  rfl

namespace RecordingSystem

theorem index_unique {s : PendingSystem R} (hs : PendingSystem.Counted s) {p q : PairInFlight R}
    (hp : p ∈ s.sent) (hq : q ∈ s.sent) (h : p.pairIndex = q.pairIndex) : p = q := by
  refine List.inj_on_of_nodup_map ?_ hp hq h
  rw [hs]
  exact List.nodup_range

/-- Once any request for an image has been executed, its place holds the image, whatever else
of the task is executed before and after. -/
theorem image_content {s : RecordingSystem R} (hs : Filed s) {cwd : List Bytes}
    {done : List DBWriteRequest} {disk : Files} {r : DBWriteRequest} {p : PairInFlight R}
    (hdone : ∀ q ∈ done, q ∈ s.requests ∨ ∀ r ∈ s.requests, location cwd q ≠ location cwd r)
    (hr : r ∈ done) (hreq : r ∈ s.requests) (hp : p ∈ s.system.sent)
    (hfile : PairFile p.pairIndex p.left.data p.right.data r) :
    done.foldl (processRequest cwd) disk (location cwd r) = some r.data := by
  refine foldl_content ?_ disk (.inr ⟨r, hr, rfl⟩)
  intro q hq hplace fs
  rcases hdone q hq with hmem | hother
  · rcases hs.files q hmem with haside | ⟨p', hp', hfile'⟩
    · exact absurd hplace (hfile.location_ne_aside haside)
    · obtain ⟨hcam, hindex⟩ := hfile'.location_inj hfile hplace
      obtain rfl := index_unique hs.counted hp' hp hindex
      have hdata : q.data = r.data := by rw [hfile'.data, hfile.data, hcam]
      rw [← hplace, ← hdata]
      exact hfile'.content fs
  · exact absurd hplace (hother r hreq)

variable [Double R] {img : Imaging R} {lib : Nlohmann R} {vis : Vision R} {s : RecordingSystem R}

def ServesImage (cwd : List Bytes) (disk : Files) (r : DBWriteRequest) (data : Bytes) : Prop :=
  ∀ (env : Env R) (body : Bytes) (c : Core R) (rel : String), env.fs.Reads cwd disk →
    rel ≠ "" → r.recordPath = recordFull c.records.rootPath rel →
    imageRequestOf env.lib body = .ok ⟨rel, fileName r, r.subfolder⟩ →
    env.lib.parse (dumped env.lib (imageFields data)) = .ok (.object (imageFields data)) →
    (handle env (bytes "POST") (bytes "/GetImage") body c).1 =
      .reply ⟨some 0, env.lib.dump (.object [("code", .integer 0),
        ("data", .object (imageFields data)), ("message", .string "Success")])⟩

/-- Over every run of tasks: the requests for the files of the current task may be executed in
any order and any number of times, among others that go elsewhere. -/
theorem stored_image_served {m : PreprocessModule R} {ctx : ChainContext R}
    {as : List (RecordingAction R)} (hpending : m.pending = ∅) (hindex : m.pairIndex = 0)
    (hrun : run (step img lib vis) { system := { module := m }, ctx } as = some s)
    {cwd : List Bytes} {disk : Files} {done : List DBWriteRequest}
    (hdone : ∀ q ∈ done, q ∈ s.requests ∨ ∀ r ∈ s.requests, location cwd q ≠ location cwd r)
    {r : DBWriteRequest} (hr : r ∈ done) (hreq : r ∈ s.requests) (himage : r.IsPairImage) :
    ∃ p ∈ s.system.sent, p.pairIndex = r.pairIndex ∧
      (∀ p' ∈ s.system.sent, p'.pairIndex = r.pairIndex → p' = p) ∧
      ServesImage (R := R) cwd (done.foldl (processRequest cwd) disk) r (p.image r.cameraId) ∧
      Base64Codec.decode (base64Encode (p.image r.cameraId)).toList =
        some (p.image r.cameraId) := by
  have hs := filed_run hpending hindex hrun
  obtain ⟨p, hp, hfile⟩ : ∃ p ∈ s.system.sent,
      PairFile p.pairIndex p.left.data p.right.data r := by
    rcases hs.files r hreq with haside | hpair
    · have hhead := haside.head
      rw [fileName, himage.1] at hhead
      rcases himage.2 with hc | hc <;> rw [hc] at hhead <;> simp at hhead
    · exact hpair
  refine ⟨p, hp, hfile.index.symm, ?_, ?_, ?_⟩
  · intro p' hp' h
    exact index_unique hs.counted hp' hp (h.trans hfile.index)
  · intro env body c rel hreads hrel hpath hbody hback
    have hname : fileName r ≠ "" := by
      intro hempty
      have hmem := underscore_mem_fileName r
      rw [hempty] at hmem
      cases hmem
    refine getImage_served hbody hrel hname hreads ?_ hback
    rw [imagePath_location hpath, image_content hs hdone hr hreq hp hfile, hfile.data]
    rfl
  · rw [base64Encode_eq_encode, String.toList_ofList, Base64Codec.decode_encode]

def pairResponse : DetectionResponse ℤ where
  transactionId := "20260702-101500-250"
  dealerId := "d"
  results := []

def pairActions : List (RecordingAction ℤ) :=
  [.act (.startInspection "database/r"),
    .act (.publishPair pairResponse.transactionId { data := [1] } { data := [2] } 0),
    .act .insert, .act (.deliver pairResponse)]

def pairStart : RecordingSystem ℤ where
  system := { module := { aiMode := .binary } }
  ctx := markingContext

def pairFiled : RecordingSystem ℤ :=
  (run (step plainImaging (plainLib toString) noVision) pairStart pairActions).get rfl

def rightImage : DBWriteRequest := imageRequest "database/r" "installation" "R" 0 [2]

def rightBody : Bytes :=
  bytes "\x7b\"record_path\":\"r\",\"filename\":\"R_000.jpg\",\"phase\":\"installation\"\x7d"

def pairDisk : Files := pairFiled.requests.foldl (processRequest []) fun _ => none

def imageLib : Nlohmann ℤ :=
  tableLib [(rightBody, .object [("record_path", .string "r"), ("filename", .string "R_000.jpg"),
      ("phase", .string "installation")]),
    (dumped (tableLib []) (imageFields [2]), .object (imageFields [2]))]

def imageEnv : Env ℤ :=
  { plainEnv [] with
    lib := imageLib
    fs := { emptyDisk with readFile := fun p => pairDisk (resolvedPath [] p) } }

theorem stored_image_served_right : ∃ text,
    (handle imageEnv (bytes "POST") (bytes "/GetImage") rightBody bootCore).1 =
      .reply ⟨some 0, text⟩ ∧ Base64Codec.decode (base64Encode [2]).toList = some [2] := by
  have hrun : run (step plainImaging (plainLib toString) noVision) pairStart pairActions =
    some pairFiled := (Option.some_get _).symm
  have hmem : rightImage ∈ pairFiled.requests := by decide
  have hserved := @stored_image_served _ _ _ _ _ _ _ _ _ rfl rfl hrun [] (fun _ => none) _
    (fun q hq => .inl hq) rightImage hmem hmem ⟨rfl, .inr rfl⟩
  obtain ⟨p, hp, -, -, hserves, hdecode⟩ := hserved
  obtain rfl := List.mem_singleton.1 (show p ∈ [_] from hp)
  exact ⟨_, hserves imageEnv rightBody bootCore "r" (fun _ => rfl) (by decide) (by decide) rfl
    (by rfl), hdecode⟩

end RecordingSystem

end EcidsCore
