import EcidsCore.HistoryScan
import EcidsCore.HistoryViews
import EcidsCore.StoredImages
import EcidsCore.TableLedger

set_option autoImplicit false

/-! The results that the responses of a task have saved, beside the files requested for them:
one result at most for each pair. -/
namespace EcidsCore
open ByteText GuardedRuns PathResolution PreprocessModule PostprocessModule

variable {R : Type}

/-- A call of the result callback that saved its result, with the entry that the response
was given. -/
structure SavedResult (R : Type) where
  ctx : ChainContext R
  args : CallbackArgs R
  entry : Option (PendingRequest R)

namespace SavedResult

variable [Double R] (lib : Nlohmann R) (vis : Vision R)

def subfolder (x : SavedResult R) : String :=
  if x.ctx.mode = .aiTest then "" else inspectionSubfolder x.args.subTask

def result (x : SavedResult R) : InspectionResult R := (resultCallback lib vis x.ctx x.args).2.1

def request (x : SavedResult R) : DBWriteRequest :=
  stereoRequest x.ctx.activeRecord x.subfolder x.args.pairIndex
    (lib.dump (savedDocument lib vis x.ctx x.args))

end SavedResult

def RecordingAction.starts : RecordingAction R → Bool
  | .act a => a.starts
  | .context _ => false

/-- The recording system beside the results that were saved since the last start. -/
structure ResultSystem (R : Type) where
  recording : RecordingSystem R
  saved : List (SavedResult R) := []

namespace ResultSystem

variable [Double R] (img : Imaging R) (lib : Nlohmann R) (vis : Vision R)

def givenEntry (s : PendingSystem R) (resp : DetectionResponse R) : Option (PendingRequest R) :=
  match (takePending s.clock resp.transactionId s.module.pending).1 with
  | .request e => some e
  | _ => none

def savesResult (ctx : ChainContext R) (a : CallbackArgs R) : Bool :=
  (resultCallback lib vis ctx a).2.2.requests.any fun r => r.type = .stereoResult

def newSaved (s : RecordingSystem R) : RecordingAction R → List (SavedResult R)
  | .act (.deliver resp) =>
    match (s.system.module.onAiResult lib s.system.clock resp).2.callback with
    | none => []
    | some a => if savesResult lib vis s.ctx a then [⟨s.ctx, a, givenEntry s.system resp⟩] else []
  | _ => []

def step (s : ResultSystem R) (a : RecordingAction R) : Option (ResultSystem R) :=
  (s.recording.step img lib vis a).map fun t =>
    { recording := t,
      saved := if a.starts then [] else s.saved ++ newSaved lib vis s.recording a }

end ResultSystem

structure OtherFile (r : DBWriteRequest) : Prop where
  names : PlainNames r
  other : ¬ isStereoFile (bytes (fileName r))

theorem stereo_initial {b : Bytes} (h : isStereoFile b) : b.head? = some 0x53 := by
  obtain ⟨hstart, -⟩ := of_decide_eq_true h
  rw [startsWith_eq hstart]
  rfl

theorem stereo_fileName {r : DBWriteRequest} (h : r.type = .stereoResult) :
    isStereoFile (bytes (fileName r)) ∧ slash ∉ bytes (fileName r) := by
  have hdigits : slash ∉ bytes (RecordManager.formatPairIndex r.pairIndex) :=
    not_mem_padded (by decide) 3 r.pairIndex
  rw [fileName, h]
  simp only [bytes_append]
  constructor
  · apply decide_eq_true
    refine ⟨?_, List.isSuffixOf_iff_suffix.2 (List.suffix_append _ _)⟩
    rw [startsWith, List.append_assoc, List.take_left]
    exact decide_eq_true rfl
  · simp only [List.mem_append, hdigits, or_false, not_or]
    decide

theorem otherFile_image (path sub : String) (idx : ℕ) (data : Bytes) {cam : String}
    (h : cam ∈ ["L", "R", "AL", "AR", "AL2", "AR2"]) :
    OtherFile (imageRequest path sub cam idx data) := by
  have hcam : slash ∉ bytes cam ∧ (bytes cam).head? ≠ some 0x53 ∧ bytes cam ≠ [] := by
    simp only [List.mem_cons, List.not_mem_nil, or_false] at h
    rcases h with h | h | h | h | h | h <;> rw [h] <;> decide
  refine ⟨⟨hcam.1, by change slash ∉ bytes "jpg"; decide⟩, ?_⟩
  intro hstereo
  have hhead := stereo_initial hstereo
  simp only [fileName, imageRequest, bytes_append, List.append_assoc] at hhead
  rw [List.head?_append_of_ne_nil _ hcam.2.2] at hhead
  exact hcam.2.1 hhead

theorem otherFile_ai (path sub : String) (idx : ℕ) (text : Bytes) {cam : String}
    (h : slash ∉ bytes cam) : OtherFile (aiResultRequest path sub cam idx text) := by
  refine ⟨ai_plainNames path sub idx text h, ?_⟩
  intro hstereo
  have hhead := stereo_initial hstereo
  simp only [fileName, aiResultRequest, bytes_append, List.append_assoc] at hhead
  rw [List.head?_append_of_ne_nil _ (by decide)] at hhead
  revert hhead
  decide

theorem otherFile_images {path sub : String} {idx : ℕ} {images : List (String × Bytes)}
    (h : ∀ name ∈ images.map Prod.fst, name ∈ ["L", "R", "AL", "AR", "AL2", "AR2"]) :
    ∀ r ∈ (imageCalls path sub idx images).filterMap EnqueueCall.request?, OtherFile r := by
  intro r hr
  obtain ⟨c, hc, -, rfl⟩ := imageCalls_image hr
  exact otherFile_image path sub idx c.2 (h c.1 (List.mem_map_of_mem hc))

theorem PairFile.otherFile {idx : ℕ} {left right : Bytes} {r : DBWriteRequest}
    (h : PairFile idx left right r) : OtherFile r := by
  refine ⟨h.plainNames, ?_⟩
  intro hstereo
  have hhead := stereo_initial hstereo
  rw [h.fileName_eq] at hhead
  simp only [bytes_append, List.append_assoc] at hhead
  have hcam : (bytes r.cameraId).head? ≠ some 0x53 ∧ bytes r.cameraId ≠ [] := by
    rcases h.image.2 with hc | hc <;> rw [hc] <;> decide
  rw [List.head?_append_of_ne_nil _ hcam.2] at hhead
  exact hcam.1 hhead

section Response
variable [Double R] {lib : Nlohmann R} {vis : Vision R}

omit [Double R] in
theorem resultWrites_other (m : PreprocessModule R) (a : CallbackArgs R) :
    ∀ r ∈ (m.resultWrites lib a).requests, OtherFile r := by
  intro r hr
  have hai : ∀ path sub text, r ∈ [aiResultRequest path sub "L" a.pairIndex text,
      aiResultRequest path sub "R" a.pairIndex text] → OtherFile r := by
    intro path sub text hmem
    rcases List.mem_cons.1 hmem with rfl | hmem
    · exact otherFile_ai _ _ _ _ (by decide)
    · rw [List.mem_singleton.1 hmem]
      exact otherFile_ai _ _ _ _ (by decide)
  dsimp only [resultWrites] at hr
  split_ifs at hr
  · cases hr
  · rw [Writes.requests, List.append_nil, List.filterMap_append] at hr
    rcases List.mem_append.1 hr with hr | hr
    · exact otherFile_images (by simp) r hr
    · exact hai _ _ _ hr
  · rcases List.mem_append.1 (show r ∈ [] ++ _ from hr) with hr | hr
    · cases hr
    · rcases List.mem_append.1 hr with hr | hr
      · obtain ⟨c, hc, rfl⟩ := List.mem_map.1 hr
        have hname := (List.mem_filter.1 hc).1
        simp only [List.mem_cons, List.not_mem_nil, or_false] at hname
        rcases hname with rfl | rfl <;> exact otherFile_image _ _ _ _ (by simp)
      · exact hai _ _ _ hr
  · cases hr

omit [Double R] in
theorem saveResult_files (activeRecord : String) (a : CallbackArgs R) (result : InspectionResult R)
    (m : PostprocessModule R) : ∀ r ∈ (m.saveResult lib activeRecord a result).requests,
      r = stereoRequest activeRecord (inspectionSubfolder a.subTask) a.pairIndex
          (lib.dump (stereoJson activeRecord a.pairIndex result)) ∨ OtherFile r := by
  intro r hr
  dsimp only [PostprocessModule.saveResult] at hr
  split_ifs at hr
  · cases hr
  · rw [Writes.requests, List.append_nil, List.filterMap_append] at hr
    rcases List.mem_append.1 hr with hr | hr
    · simp only [List.filterMap_cons, List.filterMap_nil, EnqueueCall.request?, List.mem_cons,
        List.not_mem_nil, or_false] at hr
      rcases hr with rfl | rfl | rfl
      · exact .inl rfl
      · exact .inr (otherFile_ai _ _ _ _ (by decide))
      · exact .inr (otherFile_ai _ _ _ _ (by decide))
    · exact .inr (otherFile_images (by simp) r hr)
  · exact .inl (List.mem_singleton.1 hr)

omit [Double R] in
theorem saveAiTest_files (activeRecord : String) (idx : ℕ) (result : InspectionResult R)
    (m : PostprocessModule R) : ∀ r ∈ (m.saveAiTest lib activeRecord idx result).requests,
      r = stereoRequest activeRecord "" idx (lib.dump (stereoJsonAiTest idx result)) ∨
        OtherFile r := by
  intro r hr
  dsimp only [PostprocessModule.saveAiTest] at hr
  split_ifs at hr
  · cases hr
  · rw [Writes.requests, List.append_nil, List.filterMap_cons_some (by rfl)] at hr
    rcases List.mem_cons.1 hr with rfl | hr
    · exact .inl rfl
    · exact .inr (otherFile_images (by simp) r hr)
  · exact .inl (List.mem_singleton.1 hr)

variable (lib vis) in
theorem resultCallback_files (x : SavedResult R) :
    ∀ r ∈ (resultCallback lib vis x.ctx x.args).2.2.requests,
      r = x.request lib vis ∨ OtherFile r := by
  intro r hr
  unfold SavedResult.request SavedResult.subfolder savedDocument
  unfold resultCallback at hr ⊢
  by_cases hmode : x.ctx.mode = .aiTest
  · rw [if_pos hmode] at hr
    simp only [if_pos hmode]
    exact saveAiTest_files _ _ _ _ r hr
  · rw [if_neg hmode] at hr
    simp only [if_neg hmode]
    cases hs : (x.ctx.post.skipsGap x.args.response x.args.subTask).1 with
    | true =>
      rw [process_skipped hs] at hr
      cases hr
    | false =>
      simp only [process, hs, Bool.false_eq_true, if_false] at hr ⊢
      exact saveResult_files _ _ _ _ r hr

end Response

def SavedResult.OfPair (sent : List (PairInFlight R)) (x : SavedResult R) : Prop :=
  ∃ e p, x.entry = some e ∧ p ∈ sent ∧ e = p.entry e.subTask e.createdAt ∧
    x.args = argsOf x.args.response e

def SavedResult.Unrequested [Zero R] (x : SavedResult R) : Prop :=
  x.entry = none ∧ x.args = argsDefault x.args.response

namespace ResultSystem

def heldIndices (saved : List (SavedResult R)) (s : PendingSystem R) : List ℕ :=
  (saved.filterMap SavedResult.entry).map PendingRequest.pairIndex ++
    ((tableRows s.module.pending).map PendingRequest.pairIndex ++
      s.inFlight.toList.map PairInFlight.pairIndex)

variable [Double R] {img : Imaging R} {lib : Nlohmann R} {vis : Vision R}

structure Booked (lib : Nlohmann R) (vis : Vision R) (s : ResultSystem R) : Prop where
  filed : RecordingSystem.Filed s.recording
  requests : ∀ r ∈ s.recording.requests, OtherFile r ∨ ∃ x ∈ s.saved, r = x.request lib vis
  saved : ∀ x ∈ s.saved, x.request lib vis ∈ s.recording.requests
  calls : ∀ x ∈ s.saved, x.Unrequested ∨ x.OfPair s.recording.system.sent
  indices : (heldIndices s.saved s.recording.system).Nodup

theorem callback_cases {s : PendingSystem R} {resp : DetectionResponse R} {a : CallbackArgs R}
    (h : (s.module.onAiResult lib s.clock resp).2.callback = some a) :
    (givenEntry s resp = none ∧ a = argsDefault resp) ∨
      ∃ k e, s.module.pending.lookup k = some e ∧ givenEntry s resp = some e ∧
        a = argsOf resp e ∧ (s.module.onAiResult lib s.clock resp).1.pending =
          s.module.pending.erase k := by
  have hgiven {b : CallbackArgs R} (hb : (s.module.handleResult lib b).callback = some a) :
      b = a := by
    rw [handleResult] at hb
    split at hb
    · exact Option.some.inj hb
    · cases hb
  by_cases hempty : s.module.pending = ∅
  · rw [onAiResult, hempty, takePending_empty] at h
    refine .inl ⟨?_, (hgiven h).symm⟩
    rw [givenEntry, hempty, takePending_empty]
  · obtain ⟨k, e, hk, -, htake⟩ := takePending_spec s.clock resp.transactionId hempty
    rw [onAiResult_pending]
    by_cases hstale : k ≠ resp.transactionId ∧ 30 * 10 ^ 9 < s.clock - e.createdAt
    · rw [if_pos hstale] at htake
      rw [onAiResult, htake] at h
      cases h
    · rw [if_neg hstale] at htake
      rw [onAiResult, htake] at h
      refine .inr ⟨k, e, hk, ?_, (hgiven h).symm, by rw [htake]⟩
      rw [givenEntry, htake]

omit [Double R] in
theorem insertPending_rows (now : ℕ) (p : PairInFlight R) (m : PreprocessModule R) :
    ∃ rest, rest.Sublist (tableRows m.pending) ∧
      tableRows (m.insertPending now p).pending = p.entry m.subTask now :: rest := by
  unfold insertPending
  dsimp only
  rw [tableRows_insert]
  refine ⟨_, ?_, rfl⟩
  split
  · exact List.nil_sublist _
  · exact (List.kerase_sublist _ _).map _

omit [Double R] in
/-- Where nothing is saved, a step holds no index that was not held or is not new. -/
theorem indices_effect {s t : PendingSystem R} {a : PendingAction R}
    {saved saved' : List (SavedResult R)} (hsub : saved'.Sublist saved)
    (hs : (heldIndices saved s).Nodup) (hbelow : ∀ i ∈ heldIndices saved s, i < s.sent.length)
    (ht : PendingSystem.Counted t) (heffect : PendingSystem.Effect a s t) :
    (heldIndices saved' t).Nodup := by
  have hsaved := (hsub.filterMap SavedResult.entry).map PendingRequest.pairIndex
  cases heffect with
  | quiet table inFlight sent entered sentIds clock =>
    unfold heldIndices at hs ⊢
    rw [inFlight]
    exact hs.sublist (hsaved.append (((table.map Sigma.snd).map _).append (.refl _)))
  | published m p ids table result =>
    subst result
    have hindex : p.pairIndex = s.sent.length := by
      have hlast := congrArg List.getLast? ht
      have hlength := congrArg List.length ht
      simp only [PendingSystem.publish, List.map_append, List.map_singleton, List.length_append,
        List.length_map, List.length_singleton, List.length_range] at hlast hlength
      rw [List.getLast?_concat, ← hlength, List.getLast?_range] at hlast
      simpa using hlast
    have hrest : ((saved'.filterMap SavedResult.entry).map PendingRequest.pairIndex ++
        (tableRows s.module.pending).map PendingRequest.pairIndex).Sublist
          (heldIndices saved s) :=
      hsaved.append (List.sublist_append_left _ _)
    change (_ ++ ((tableRows m.pending).map _ ++ [p.pairIndex])).Nodup
    rw [table, ← List.append_assoc, hindex]
    refine List.Nodup.append (hs.sublist hrest) (List.nodup_singleton _) ?_
    rw [List.disjoint_singleton]
    intro hmem
    exact absurd (hbelow _ (hrest.subset hmem)) (lt_irrefl _)
  | inserted p action inFlight result =>
    subst result
    unfold heldIndices at hs ⊢
    rw [inFlight] at hs
    obtain ⟨rest, hrest, hrows⟩ := insertPending_rows s.clock p s.module
    change (_ ++ ((tableRows (s.module.insertPending s.clock p).pending).map _ ++ [])).Nodup
    rw [hrows, List.append_nil]
    have hperm : (p.pairIndex :: rest.map PendingRequest.pairIndex).Perm
        (rest.map PendingRequest.pairIndex ++ [p.pairIndex]) :=
      (List.perm_append_singleton _ _).symm
    refine ((hperm.append_left _).nodup_iff).2 (hs.sublist ?_)
    exact hsaved.append ((hrest.map _).append (.refl _))
  | started table inFlight sent entered sentIds =>
    unfold heldIndices
    rw [table, inFlight]
    simpa using (hs.sublist (hsaved.append (List.nil_sublist _)))

omit [Double R] in
theorem indices_answered {s : PendingSystem R} {m : PreprocessModule R} {k : String}
    {e : PendingRequest R} {saved : List (SavedResult R)} {x : SavedResult R}
    (hs : (heldIndices saved s).Nodup) (hk : s.module.pending.lookup k = some e)
    (hm : m.pending = s.module.pending.erase k) (hx : x.entry = some e) :
    (heldIndices (saved ++ [x]) { s with module := m }).Nodup := by
  have hrows := (tableRows_erase s.module.pending k).map PendingRequest.pairIndex
  rw [hk, Option.toList_some, List.singleton_append, List.map_cons] at hrows
  have hheld : (heldIndices saved s).Perm (heldIndices (saved ++ [x]) { s with module := m }) := by
    unfold heldIndices
    rw [List.filterMap_append, List.map_append, List.append_assoc, hm]
    refine List.Perm.append_left _ ?_
    rw [List.filterMap_cons_some hx]
    exact hrows.append_right _
  exact hheld.nodup_iff.1 hs

omit [Double R] in
theorem index_lt {s : PendingSystem R} (hs : PendingSystem.Counted s) {p : PairInFlight R}
    (hp : p ∈ s.sent) : p.pairIndex < s.sent.length := by
  have hmem : p.pairIndex ∈ s.sent.map PairInFlight.pairIndex := List.mem_map_of_mem hp
  have hlength := congrArg List.length hs
  rw [List.length_map, List.length_range] at hlength
  rw [hs, List.mem_range] at hmem
  rwa [hlength]

theorem Booked.below {s : ResultSystem R} (hs : Booked lib vis s) :
    ∀ i ∈ heldIndices s.saved s.recording.system, i < s.recording.system.sent.length := by
  have hcounted := hs.filed.counted
  have htracked := hs.filed.tracked
  intro i hi
  rcases List.mem_append.1 hi with hi | hi
  · obtain ⟨e, he, rfl⟩ := List.mem_map.1 hi
    obtain ⟨x, hx, hxe⟩ := List.mem_filterMap.1 he
    rcases hs.calls x hx with ⟨hnone, -⟩ | ⟨e', p, he', hp, hentry, -⟩
    · rw [hnone] at hxe
      cases hxe
    · obtain rfl : e' = e := Option.some.inj (he'.symm.trans hxe)
      rw [hentry]
      exact index_lt hcounted hp
  · rcases List.mem_append.1 hi with hi | hi
    · obtain ⟨e, he, rfl⟩ := List.mem_map.1 hi
      obtain ⟨⟨k, v⟩, hrow, rfl⟩ := List.mem_map.1 he
      obtain ⟨-, hentered⟩ := htracked.pending k v (AList.mem_lookup_iff.2 hrow)
      obtain ⟨p, hp, hentry⟩ := htracked.entered v hentered
      rw [hentry]
      exact index_lt hcounted hp
    · obtain ⟨p, hp, rfl⟩ := List.mem_map.1 hi
      exact index_lt hcounted (htracked.inFlight p (Option.mem_toList.1 hp))

theorem OfPair.mono {s t : PendingSystem R} {a : PendingAction R} (ha : a.starts = false)
    (h : s.step img lib a = some t) {x : SavedResult R} (hx : x.OfPair s.sent) :
    x.OfPair t.sent := by
  obtain ⟨e, p, he, hp, hentry, hargs⟩ := hx
  exact ⟨e, p, he, RecordingSystem.sent_mono ha h p hp, hentry, hargs⟩

variable (lib vis) in
/-- The files of a response beside the result that it saves. -/
theorem responseFiles_saved (s : RecordingSystem R) (resp : DetectionResponse R) :
    (∀ r ∈ s.responseFiles lib vis resp, OtherFile r ∨
      ∃ x ∈ newSaved lib vis s (.act (.deliver resp)), r = x.request lib vis) ∧
    ∀ x ∈ newSaved lib vis s (.act (.deliver resp)),
      x.request lib vis ∈ s.responseFiles lib vis resp := by
  have hwrites : ∀ r ∈ (s.system.module.onAiResult lib s.system.clock resp).2.writes.requests,
      OtherFile r := by
    intro r hr
    rcases onAiResult_args lib s.system.clock resp s.system.module with hnone | ⟨a, ha, -⟩
    · rw [hnone] at hr
      cases hr
    · rw [ha] at hr
      exact resultWrites_other s.system.module a r hr
  unfold RecordingSystem.responseFiles newSaved
  dsimp only
  cases hcall : (s.system.module.onAiResult lib s.system.clock resp).2.callback with
  | none =>
    refine ⟨?_, List.forall_mem_nil _⟩
    intro r hr
    rw [List.append_nil] at hr
    exact .inl (hwrites r hr)
  | some a =>
    dsimp only
    have hfiles := resultCallback_files lib vis ⟨s.ctx, a, givenEntry s.system resp⟩
    constructor
    · intro r hr
      rcases List.mem_append.1 hr with hr | hr
      · exact .inl (hwrites r hr)
      · rcases hfiles r hr with hresult | hother
        · have hsaves : savesResult lib vis s.ctx a = true :=
            List.any_eq_true.2 ⟨r, hr, decide_eq_true (by rw [hresult]; rfl)⟩
          rw [if_pos hsaves]
          exact .inr ⟨_, List.mem_singleton.2 rfl, hresult⟩
        · exact .inl hother
    · intro x hx
      split at hx
      · rename_i hsaves
        rw [List.mem_singleton.1 hx]
        obtain ⟨r, hr, htype⟩ := List.any_eq_true.1 hsaves
        rcases hfiles r hr with hresult | hother
        · rw [← hresult]
          exact List.mem_append_right _ hr
        · exact absurd (stereo_fileName (of_decide_eq_true htype)).1 hother.other
      · cases hx

variable (img lib vis) in
theorem files_other {s : RecordingSystem R} {a : PendingAction R}
    (ha : ∀ resp, a ≠ .deliver resp) :
    (∀ r ∈ s.files img lib vis a, OtherFile r) ∧ newSaved lib vis s (.act a) = [] := by
  cases a with
  | publishPair ts left right wd =>
    refine ⟨?_, rfl⟩
    intro r hr
    simp only [RecordingSystem.files] at hr
    split at hr
    · cases hr
    · rename_i x hpub
      obtain ⟨himage, hjpg, hindex, hdata, hne⟩ := (publishPair_images hpub).saved r hr
      exact PairFile.otherFile ⟨himage, hjpg, hindex, hdata, hne⟩
  | deliver resp => exact absurd rfl (ha resp)
  | _ => exact ⟨List.forall_mem_nil _, rfl⟩

theorem saved_calls {s : RecordingSystem R} (hs : RecordingSystem.Filed s)
    {resp : DetectionResponse R} {x : SavedResult R}
    (hx : x ∈ newSaved lib vis s (.act (.deliver resp))) :
    x.Unrequested ∨ x.OfPair s.system.sent := by
  unfold newSaved at hx
  dsimp only at hx
  split at hx
  · cases hx
  · rename_i a hcall
    split at hx
    · rw [List.mem_singleton.1 hx]
      rcases callback_cases hcall with ⟨hnone, rfl⟩ | ⟨k, e, hk, hgiven, rfl, -⟩
      · exact .inl ⟨hnone, rfl⟩
      · obtain ⟨p, hp, hentry⟩ := hs.tracked.entered e (hs.tracked.pending k e hk).2
        exact .inr ⟨e, p, hgiven, hp, hentry, rfl⟩
    · cases hx

theorem indices_deliver {s : ResultSystem R} (hs : Booked lib vis s) (resp : DetectionResponse R)
    {u : PendingSystem R} (hu : s.recording.system.step img lib (.deliver resp) = some u) :
    (heldIndices (s.saved ++ newSaved lib vis s.recording (.act (.deliver resp))) u).Nodup := by
  have hquiet : (heldIndices s.saved u).Nodup :=
    indices_effect (.refl _) hs.indices hs.below (PendingSystem.counted_step hs.filed.counted hu)
      (PendingSystem.effect_of_step hu)
  unfold newSaved
  dsimp only
  split
  · rwa [List.append_nil]
  · rename_i a hcall
    split
    · rcases callback_cases hcall with ⟨hnone, -⟩ | ⟨k, e, hk, hgiven, -, hpending⟩
      · have hentries (x : SavedResult R) (hx : x.entry = none) :
            (s.saved ++ [x]).filterMap SavedResult.entry = s.saved.filterMap SavedResult.entry := by
          rw [List.filterMap_append, List.filterMap_cons_none hx, List.filterMap_nil,
            List.append_nil]
        rw [heldIndices, hentries _ hnone]
        exact hquiet
      · cases hu
        exact indices_answered hs.indices hk hpending hgiven
    · rwa [List.append_nil]

def advance (s : ResultSystem R) (u : PendingSystem R) (files : List DBWriteRequest)
    (new : List (SavedResult R)) : ResultSystem R where
  recording := { s.recording with system := u, requests := s.recording.requests ++ files }
  saved := s.saved ++ new

theorem booked_advance {s : ResultSystem R} {a : PendingAction R} {u : PendingSystem R}
    {files : List DBWriteRequest} {new : List (SavedResult R)} (hs : Booked lib vis s)
    (hu : s.recording.system.step img lib a = some u) (hstart : a.starts = false)
    (hfiles : ∀ r ∈ files, OtherFile r ∨ ∃ x ∈ new, r = x.request lib vis)
    (hnew : ∀ x ∈ new, x.request lib vis ∈ files ∧
      (x.Unrequested ∨ x.OfPair s.recording.system.sent))
    (hfiled : RecordingSystem.Filed (s.advance u files new).recording)
    (hindices : (heldIndices (s.saved ++ new) u).Nodup) :
    Booked lib vis (s.advance u files new) where
  filed := hfiled
  requests := by
    intro r hr
    rcases List.mem_append.1 hr with hr | hr
    · rcases hs.requests r hr with hother | ⟨x, hx, rfl⟩
      · exact .inl hother
      · exact .inr ⟨x, List.mem_append_left _ hx, rfl⟩
    · rcases hfiles r hr with hother | ⟨x, hx, rfl⟩
      · exact .inl hother
      · exact .inr ⟨x, List.mem_append_right _ hx, rfl⟩
  saved := by
    intro x hx
    rcases List.mem_append.1 hx with hx | hx
    · exact List.mem_append_left _ (hs.saved x hx)
    · exact List.mem_append_right _ (hnew x hx).1
  calls := by
    intro x hx
    have hcall : x.Unrequested ∨ x.OfPair s.recording.system.sent := by
      rcases List.mem_append.1 hx with hx | hx
      · exact hs.calls x hx
      · exact (hnew x hx).2
    exact hcall.imp_right (OfPair.mono hstart hu)
  indices := hindices

theorem booked_step {s t : ResultSystem R} {a : RecordingAction R} (hs : Booked lib vis s)
    (h : s.step img lib vis a = some t) : Booked lib vis t := by
  obtain ⟨recording, hrec, rfl⟩ := Option.map_eq_some_iff.1 h
  have hfiled := RecordingSystem.filed_step hs.filed hrec
  cases a with
  | context ctx =>
    cases hrec
    simp only [RecordingAction.starts, newSaved, Bool.false_eq_true, if_false, List.append_nil]
    exact ⟨hfiled, hs.requests, hs.saved, hs.calls, hs.indices⟩
  | act a =>
    obtain ⟨u, hu, rfl⟩ := Option.map_eq_some_iff.1 hrec
    have heffect := PendingSystem.effect_of_step hu
    have hcounted := PendingSystem.counted_step hs.filed.counted hu
    cases hstart : a.starts with
    | true =>
      simp only [RecordingAction.starts, hstart, if_true] at hfiled ⊢
      exact ⟨hfiled, List.forall_mem_nil _, List.forall_mem_nil _, List.forall_mem_nil _,
        indices_effect (List.nil_sublist _) hs.indices hs.below hcounted heffect⟩
    | false =>
      simp only [RecordingAction.starts, hstart, Bool.false_eq_true, if_false] at hfiled ⊢
      change Booked lib vis (s.advance u (s.recording.files img lib vis a)
        (newSaved lib vis s.recording (.act a)))
      by_cases hdeliver : ∃ resp, a = .deliver resp
      · obtain ⟨resp, rfl⟩ := hdeliver
        obtain ⟨hfiles, hsaved⟩ := responseFiles_saved lib vis s.recording resp
        exact booked_advance hs hu hstart hfiles
          (fun x hx => ⟨hsaved x hx, saved_calls hs.filed hx⟩) hfiled (indices_deliver hs resp hu)
      · obtain ⟨hfiles, hnone⟩ := @files_other R _ img lib vis s.recording a
          fun resp he => hdeliver ⟨resp, he⟩
        rw [hnone]
        refine booked_advance hs hu hstart (fun r hr => .inl (hfiles r hr))
          (List.forall_mem_nil _) hfiled ?_
        rw [List.append_nil]
        exact indices_effect (.refl _) hs.indices hs.below hcounted heffect

def boot (m : PreprocessModule R) (ctx : ChainContext R) : ResultSystem R :=
  { recording := { system := { module := m }, ctx } }

theorem booked_run {m : PreprocessModule R} {ctx : ChainContext R} {as : List (RecordingAction R)}
    {s : ResultSystem R} (hpending : m.pending = ∅) (hindex : m.pairIndex = 0)
    (hr : run (step img lib vis) (boot m ctx) as = some s) : Booked lib vis s := by
  have hfiled : RecordingSystem.Filed (boot m ctx).recording :=
    @RecordingSystem.filed_run R _ img lib vis _ m ctx [] hpending hindex rfl
  refine run_preserves (fun _ _ _ => booked_step) ?_ hr
  refine ⟨hfiled, List.forall_mem_nil _, List.forall_mem_nil _, List.forall_mem_nil _, ?_⟩
  change ([] ++ ((tableRows m.pending).map PendingRequest.pairIndex ++ [])).Nodup
  rw [hpending]
  exact List.nodup_nil

end ResultSystem

end EcidsCore
