import EcidsCore.ResultFiles

set_option autoImplicit false

/-! The record that the API shows: one step for each result file that is not overwritten, in
the order of the pairs. -/
namespace EcidsCore
open ByteText GuardedRuns PathResolution PreprocessModule PostprocessModule

variable {R : Type}

def SavedResult.Apart (x y : SavedResult R) : Prop :=
  x.entry ≠ none → y.entry ≠ none → x.args.pairIndex ≠ y.args.pairIndex

instance : Std.Symm (SavedResult.Apart (R := R)) where
  symm _ _ h hx hy he := h hy hx he.symm

namespace ResultSystem

variable [Double R] {img : Imaging R} {lib : Nlohmann R} {vis : Vision R} {s : ResultSystem R}

omit [Double R] in
theorem index_small (hs : RecordingSystem.Filed s.recording) {x : SavedResult R}
    (h : x.OfPair s.recording.system.sent) :
    x.args.pairIndex < s.recording.system.module.pairIndex := by
  obtain ⟨e, p, -, hp, hentry, hargs⟩ := h
  have hlength := congrArg List.length hs.counted
  rw [List.length_map, List.length_range] at hlength
  have hlt := index_lt hs.counted hp
  rw [hlength] at hlt
  rw [hargs]
  change e.pairIndex < _
  rw [hentry]
  exact hlt

theorem Booked.index_lt (hs : Booked lib vis s)
    (hcount : s.recording.system.module.pairIndex ≤ 2 ^ 31) {x : SavedResult R}
    (hx : x ∈ s.saved) : x.args.pairIndex < 2 ^ 31 := by
  rcases hs.calls x hx with ⟨-, hargs⟩ | hpair
  · rw [hargs]
    exact Nat.two_pow_pos 31
  · exact (index_small hs.filed hpair).trans_le hcount

theorem Booked.resultsOrOther (hs : Booked lib vis s) : ResultsOrOther s.recording.requests := by
  intro r hr
  rcases hs.requests r hr with hother | ⟨x, -, rfl⟩
  · exact .inl hother
  · exact .inr rfl

def ReadsBack (lib : Nlohmann R) (vis : Vision R) (x : SavedResult R) : Prop :=
  lib.parseStream (lib.dump (savedDocument lib vis x.ctx x.args)) =
    .ok (savedDocument lib vis x.ctx x.args)

/-- The steps of a directory are those of its stored results. -/
theorem detailSteps_perm (hs : Booked lib vis s)
    (hcount : s.recording.system.module.pairIndex ≤ 2 ^ 31)
    (hback : ∀ x ∈ s.saved, ReadsBack lib vis x) {cwd : List Bytes} {disk : Files}
    {done : List DBWriteRequest} {fs : FileSystem} {full sub : String}
    (hfull : bytes (detailDir full sub) ≠ [])
    (hreads : fs.Reads cwd (done.foldl (processRequest cwd) disk))
    (hlists : fs.Lists cwd (done.foldl (processRequest cwd) disk) (bytes (detailDir full sub)))
    (hdone : WrittenBy s.recording.requests cwd disk done (bytes (detailDir full sub)))
    {saved : DBWriteRequest → SavedResult R}
    (hsaved : ∀ r ∈ s.recording.requests, r.type = .stereoResult →
      saved r ∈ s.saved ∧ r = (saved r).request lib vis) :
    (detailSteps lib fs full sub).Perm
      ((storedIn cwd done (bytes (detailDir full sub))).map fun r =>
        (saved r).step lib vis sub) := by
  have hfiles := hs.resultsOrOther
  have hstep : ∀ name ∈ (fs.readNames (bytes (detailDir full sub))).filter
        fun name => isStereoFile name ∧ 5 < name.length,
      fileStep lib fs sub (joinPath (bytes (detailDir full sub)) name) =
        ((LastWrite.shelf (location cwd) done).lookup
          (resolvedPath cwd (bytes (detailDir full sub)) ++ [name])).map
            fun r => (saved r).step lib vis sub := by
    intro name hname
    obtain ⟨hmem, hstereo⟩ := List.mem_filter.1 hname
    obtain ⟨hstereo, -⟩ := of_decide_eq_true hstereo
    have hplace : resolvedPath cwd (joinPath (bytes (detailDir full sub)) name) =
        resolvedPath cwd (bytes (detailDir full sub)) ++ [name] :=
      resolvedPath_join hfull (hlists.single name hmem) (isStereoFile_enters hstereo)
    rw [fileStep, hreads, hplace, disk_result hfiles hdone hstereo]
    cases hrow : (LastWrite.shelf (location cwd) done).lookup
        (resolvedPath cwd (bytes (detailDir full sub)) ++ [name]) with
    | none => rfl
    | some r =>
      obtain ⟨hr, hat⟩ := LastWrite.of_lookup hrow
      obtain ⟨hx, hrequest⟩ := hsaved r (hdone.only r hr name hstereo hat)
        (hdone.stereo hfiles hr hstereo hat)
      have htext : r.textData = lib.dump (savedDocument lib vis (saved r).ctx (saved r).args) :=
        congrArg DBWriteRequest.textData hrequest
      have hparse := hback _ hx
      have hholds : stepJson lib sub (savedDocument lib vis (saved r).ctx (saved r).args) = _ :=
        stepJson_holds (savedDocument_result (saved r)) (hs.index_lt hcount hx) sub
      rw [Option.map_some, Option.map_some, Option.map_some, htext, hparse]
      dsimp only
      rw [hholds]
      rfl
  rw [detailSteps, detailFiles]
  refine ((List.mergeSort_perm _ _).filterMap _).trans ?_
  rw [List.filterMap_map, Function.comp_def, List.filterMap_congr hstep, ← List.map_filterMap]
  exact (listed_perm hfiles hdone hlists).map _

theorem Booked.entry_index (hs : Booked lib vis s) {x : SavedResult R} (hx : x ∈ s.saved)
    (hentry : x.entry ≠ none) : ∃ e, x.entry = some e ∧ e.pairIndex = x.args.pairIndex := by
  rcases hs.calls x hx with ⟨hnone, -⟩ | ⟨e, p, he, -, -, hargs⟩
  · exact absurd hnone hentry
  · refine ⟨e, he, ?_⟩
    rw [hargs]
    rfl

theorem Booked.apart (hs : Booked lib vis s) : s.saved.Pairwise SavedResult.Apart := by
  have hnodup : ((s.saved.filterMap SavedResult.entry).map PendingRequest.pairIndex).Nodup :=
    hs.indices.sublist (List.sublist_append_left _ _)
  rw [List.Nodup, List.pairwise_map, List.pairwise_filterMap] at hnodup
  refine hnodup.imp_of_mem ?_
  intro x y hx hy hne hex hey
  obtain ⟨e, he, hei⟩ := hs.entry_index hx hex
  obtain ⟨f, hf, hfi⟩ := hs.entry_index hy hey
  rw [← hei, ← hfi]
  exact hne e he f hf

theorem Booked.unique (hs : Booked lib vis s) {x y : SavedResult R} (hx : x ∈ s.saved)
    (hy : y ∈ s.saved) (hentry : x.entry ≠ none)
    (hindex : x.args.pairIndex ≠ 0 ∨ ∀ z ∈ s.saved, z.entry ≠ none)
    (h : y.args.pairIndex = x.args.pairIndex) : y = x := by
  have hyentry : y.entry ≠ none := by
    rcases hs.calls y hy with ⟨-, hargs⟩ | ⟨e, p, he, -⟩
    · rcases hindex with hindex | hall
      · refine absurd ?_ hindex
        rw [← h, hargs]
        rfl
      · exact hall y hy
    · rw [he]
      exact Option.some_ne_none e
  by_contra hne
  exact hs.apart.forall hy hx hne hyentry hentry h

end ResultSystem

structure RecordOnDisk (requests : List DBWriteRequest) (cwd : List Bytes) (disk : Files)
    (done : List DBWriteRequest) (fs : FileSystem) (full : String) : Prop where
  found : fs.pathExists (bytes full) = .ok true
  reads : fs.Reads cwd (done.foldl (processRequest cwd) disk)
  lists : ∀ sub ∈ subfolders,
    fs.Lists cwd (done.foldl (processRequest cwd) disk) (bytes (detailDir full sub))
  written : ∀ sub ∈ subfolders, WrittenBy requests cwd disk done (bytes (detailDir full sub))

def storedSteps (cwd : List Bytes) (done : List DBWriteRequest) (full : String) :
    List (String × DBWriteRequest) :=
  subfolders.flatMap fun sub => (storedIn cwd done (bytes (detailDir full sub))).map (sub, ·)

theorem detailDir_ne_nil {full : String} (h : full ≠ "") (sub : String) :
    bytes (detailDir full sub) ≠ [] := by
  have hfull : bytes full ≠ [] := fun hb => h (bytes_injective hb)
  unfold detailDir
  split
  · exact hfull
  · rw [bytes_append, bytes_append]
    simp [hfull]

theorem exists_map_of_perm {α β : Type} {f : α → β} {l : List β} {m : List α}
    (h : l.Perm (m.map f)) : ∃ m' : List α, l = m'.map f ∧ m'.Perm m := by
  have hcomp : Relation.Comp (fun l m => l = List.map f m) List.Perm l m := by
    rw [List.eq_map_comp_perm]
    exact h
  exact hcomp

namespace ResultSystem

variable [Double R] {img : Imaging R} {lib : Nlohmann R} {vis : Vision R} {s : ResultSystem R}

def recordFields (lib : Nlohmann R) (vis : Vision R) (shown : List (String × SavedResult R)) :
    List (String × Json R) :=
  [("stepCount", .integer shown.length),
    ("steps", .array (shown.map fun x => (x.2.step lib vis x.1).2))]

/-- The steps of a record are its result files, each once, in the order of the pairs. -/
theorem details_shown (hs : Booked lib vis s)
    (hcount : s.recording.system.module.pairIndex ≤ 2 ^ 31)
    (hback : ∀ x ∈ s.saved, ReadsBack lib vis x) {cwd : List Bytes} {disk : Files}
    {done : List DBWriteRequest} {fs : FileSystem} {full : String} (hfull : full ≠ "")
    (hdisk : RecordOnDisk s.recording.requests cwd disk done fs full) :
    ∃ shown, readRecordDetails lib fs full = .ok (.object (recordFields lib vis shown)) ∧
      (shown.Pairwise fun a b => a.2.args.pairIndex ≤ b.2.args.pairIndex) ∧
      (∀ x ∈ shown, x.2 ∈ s.saved) ∧
      (shown.map fun x => (x.1, x.2.request lib vis)).Perm (storedSteps cwd done full) := by
  have hstored : ∀ r, ∃ x : SavedResult R, r ∈ s.recording.requests → r.type = .stereoResult →
      x ∈ s.saved ∧ r = x.request lib vis := by
    intro r
    by_cases hr : r ∈ s.recording.requests ∧ r.type = .stereoResult
    · rcases hs.requests r hr.1 with hother | ⟨x, hx, hrequest⟩
      · exact absurd (stereo_fileName hr.2).1 hother.other
      · exact ⟨x, fun _ _ => ⟨hx, hrequest⟩⟩
    · refine ⟨⟨s.recording.ctx, argsDefault ⟨"", "", [], "", ""⟩, none⟩, ?_⟩
      intro hmem htype
      exact absurd ⟨hmem, htype⟩ hr
  choose saved hsaved using hstored
  have hin : ∀ x ∈ storedSteps cwd done full, saved x.2 ∈ s.saved ∧
      x.2 = (saved x.2).request lib vis := by
    intro x hx
    obtain ⟨sub, hsub, hx⟩ := List.mem_flatMap.1 hx
    obtain ⟨r, hr, rfl⟩ := List.mem_map.1 hx
    obtain ⟨hcurrent, hkept⟩ := List.mem_filter.1 hr
    obtain ⟨htype, hdir⟩ := of_decide_eq_true hkept
    refine hsaved r ((hdisk.written sub hsub).only r (LastWrite.current_subset hcurrent) _
      (stereo_fileName htype).1 ?_) htype
    rw [location_stereo cwd htype, hdir]
  have hsteps : (subfolders.flatMap (detailSteps lib fs full)).Perm
      (((storedSteps cwd done full).map fun x => (x.1, saved x.2)).map fun x =>
        x.2.step lib vis x.1) := by
    rw [storedSteps, List.map_flatMap, List.map_flatMap]
    refine List.Perm.flatMap_left _ ?_
    intro sub hsub
    rw [List.map_map, List.map_map]
    exact detailSteps_perm hs hcount hback (detailDir_ne_nil hfull sub) hdisk.reads
      (hdisk.lists sub hsub) (hdisk.written sub hsub) hsaved
  have hsorted := (List.mergeSort_perm (subfolders.flatMap (detailSteps lib fs full))
    fun a b => a.1 ≤ b.1).trans hsteps
  obtain ⟨shown, hshown, hperm⟩ := exists_map_of_perm hsorted
  have hpairwise : ((subfolders.flatMap (detailSteps lib fs full)).mergeSort
      fun a b => a.1 ≤ b.1).Pairwise fun a b => a.1 ≤ b.1 := by
    have hsort := @List.pairwise_mergeSort (ℤ × Json R) (fun a b => decide (a.1 ≤ b.1))
      (fun a b c hab hbc => decide_eq_true (le_trans (of_decide_eq_true hab)
        (of_decide_eq_true hbc)))
      (fun a b => by simpa using le_total a.1 b.1)
      (subfolders.flatMap (detailSteps lib fs full))
    exact hsort.imp fun hab => of_decide_eq_true hab
  rw [hshown, List.pairwise_map] at hpairwise
  refine ⟨shown, ?_, hpairwise.imp fun hab => Int.ofNat_le.1 hab, ?_, ?_⟩
  · rw [readRecordDetails, hdisk.found]
    change Except.ok (Json.object _) = _
    rw [hshown, List.length_map, List.map_map]
    rfl
  · intro x hx
    obtain ⟨y, hy, rfl⟩ := List.mem_map.1 (hperm.subset hx)
    exact (hin y hy).1
  · refine (hperm.map _).trans ?_
    rw [List.map_map]
    refine List.Perm.of_eq ((List.map_congr_left ?_).trans (List.map_id _))
    intro x hx
    exact Prod.ext rfl (hin x hx).2.symm

omit [Double R] in
theorem fileName_stereo_inj {r q : DBWriteRequest} (hr : r.type = .stereoResult)
    (hq : q.type = .stereoResult) (h : fileName r = fileName q) : r.pairIndex = q.pairIndex := by
  have hl := congrArg String.toList h
  rw [fileName, fileName, hr, hq] at hl
  simp only [String.toList_append, List.append_assoc] at hl
  have hindex := List.append_cancel_right (List.append_cancel_left hl)
  exact padded_injective 3 (String.toList_inj.1 hindex)

theorem request_index {x y : SavedResult R} {cwd : List Bytes}
    (h : location cwd (x.request lib vis) = location cwd (y.request lib vis)) :
    x.args.pairIndex = y.args.pairIndex := by
  rw [location_stereo cwd rfl, location_stereo cwd rfl] at h
  have hname := (List.cons.inj (List.append_inj' h rfl).2).1
  exact fileName_stereo_inj (r := x.request lib vis) (q := y.request lib vis) rfl rfl
    (bytes_injective hname)

theorem result_stored (hs : Booked lib vis s) {cwd : List Bytes} {disk : Files}
    {done : List DBWriteRequest} {dir : Bytes}
    (hdone : WrittenBy s.recording.requests cwd disk done dir) {x : SavedResult R}
    (hx : x ∈ s.saved) (hentry : x.entry ≠ none)
    (hindex : x.args.pairIndex ≠ 0 ∨ ∀ z ∈ s.saved, z.entry ≠ none)
    (hdir : resolvedPath cwd (bytes (saveDir (x.request lib vis))) = resolvedPath cwd dir)
    (hexec : x.request lib vis ∈ done) : x.request lib vis ∈ storedIn cwd done dir := by
  have hname := (stereo_fileName (r := x.request lib vis) rfl).1
  have hplace : location cwd (x.request lib vis) =
      resolvedPath cwd dir ++ [bytes (fileName (x.request lib vis))] := by
    rw [location_stereo cwd rfl, hdir]
  refine List.mem_filter.2 ⟨?_, decide_eq_true ⟨rfl, hdir⟩⟩
  refine LastWrite.mem_current_of_unique hexec ?_
  intro r hr hsame
  rcases hs.requests r (hdone.only r hr _ hname (hsame.trans hplace)) with hother | ⟨y, hy, rfl⟩
  · exact absurd (hsame.trans hplace) (hother.location_ne hname _)
  · rw [hs.unique hx hy hentry hindex (request_index hsame)]

/-- The list of the results that are shown, each in the phase where its file lies. -/
structure RecordShown (lib : Nlohmann R) (vis : Vision R) (s : ResultSystem R)
    (cwd : List Bytes) (done : List DBWriteRequest) (full : String)
    (shown : List (String × SavedResult R)) : Prop where
  sorted : shown.Pairwise fun a b => a.2.args.pairIndex ≤ b.2.args.pairIndex
  saved : ∀ x ∈ shown, x.2 ∈ s.saved
  files : (shown.map fun x => (x.1, x.2.request lib vis)).Perm (storedSteps cwd done full)
  pairs : ∀ sub ∈ subfolders, ∀ x ∈ s.saved, x.entry ≠ none →
    (x.args.pairIndex ≠ 0 ∨ ∀ z ∈ s.saved, z.entry ≠ none) →
    resolvedPath cwd (bytes (saveDir (x.request lib vis))) =
      resolvedPath cwd (bytes (detailDir full sub)) →
    x.request lib vis ∈ done → (sub, x) ∈ shown

theorem getRecord_served {env : Env R} {body : Bytes} {c : Core R} {rel : String}
    {fields : List (String × Json R)} (hbody : recordPathOf env.lib body = .ok rel)
    (hdetails : readRecordDetails env.lib env.fs (recordFull c.records.rootPath rel) =
      .ok (.object fields))
    (hback : env.lib.parse (dumped env.lib fields) = .ok (.object fields)) :
    (handle env (bytes "POST") (bytes "/GetRecord") body c).1 =
      .reply ⟨some 0, env.lib.dump (.object [("code", .integer 0), ("data", .object fields),
        ("message", .string "Success")])⟩ := by
  have hroute : route (bytes "POST") (bytes "/GetRecord") = .getRecord := by decide
  have hmember : dataMember env.lib (dumped env.lib fields) = some (.object fields) := by
    rw [dataMember, hback]
  rw [handle, hroute]
  simp only [getRecord, hbody, hdetails]
  change guarded env.lib "" (makeResponse env.lib 0 (bytes "Success") (dumped env.lib fields)) = _
  rw [makeResponse, hmember]
  rfl

/-- Over every run of tasks: whatever of the task's files has been executed, in any order and
any number of times, `GetRecord` shows the results that stand in the files of the record. -/
theorem record_shown {env : Env R} {m : PreprocessModule R} {ctx : ChainContext R}
    {as : List (RecordingAction R)} (hpending : m.pending = ∅) (hindex : m.pairIndex = 0)
    (hrun : run (step img env.lib vis) (boot m ctx) as = some s)
    (hcount : s.recording.system.module.pairIndex ≤ 2 ^ 31)
    (hback : ∀ x ∈ s.saved, ReadsBack env.lib vis x) {cwd : List Bytes} {disk : Files}
    {done : List DBWriteRequest} {body : Bytes} {c : Core R} {rel : String}
    (hbody : recordPathOf env.lib body = .ok rel)
    (hdisk : RecordOnDisk s.recording.requests cwd disk done env.fs
      (recordFull c.records.rootPath rel)) :
    (∀ x ∈ s.saved, x.request env.lib vis ∈ s.recording.requests ∧
      (x.Unrequested ∨ x.OfPair s.recording.system.sent)) ∧
    s.saved.Pairwise SavedResult.Apart ∧
    ∃ shown, RecordShown env.lib vis s cwd done (recordFull c.records.rootPath rel) shown ∧
      (env.lib.parse (dumped env.lib (recordFields env.lib vis shown)) =
          .ok (.object (recordFields env.lib vis shown)) →
        (handle env (bytes "POST") (bytes "/GetRecord") body c).1 =
          .reply ⟨some 0, env.lib.dump (.object [("code", .integer 0),
            ("data", .object (recordFields env.lib vis shown)),
            ("message", .string "Success")])⟩) := by
  have hs : Booked env.lib vis s := booked_run hpending hindex hrun
  have hfull : recordFull c.records.rootPath rel ≠ "" := by
    intro h
    have hl := congrArg String.toList h
    rw [recordFull, String.toList_append, String.toList_append] at hl
    have hroot := (List.append_eq_nil_iff.1 (List.append_eq_nil_iff.1 hl).1).1
    exact c.records.rootNonempty (String.toList_inj.1 hroot)
  refine ⟨fun x hx => ⟨hs.saved x hx, hs.calls x hx⟩, hs.apart, ?_⟩
  obtain ⟨shown, hdetails, hsorted, hsaved, hperm⟩ := details_shown hs hcount hback hfull hdisk
  refine ⟨shown, ⟨hsorted, hsaved, hperm, ?_⟩, getRecord_served hbody hdetails⟩
  intro sub hsub x hx hentry hindex hdir hexec
  have hstored := result_stored hs (hdisk.written sub hsub) hx hentry hindex hdir hexec
  have hmem : (sub, x.request env.lib vis) ∈
      storedSteps cwd done (recordFull c.records.rootPath rel) :=
    List.mem_flatMap.2 ⟨sub, hsub, List.mem_map_of_mem hstored⟩
  obtain ⟨y, hy, heq⟩ := List.mem_map.1 (hperm.symm.subset hmem)
  obtain ⟨hsub', hrequest⟩ := Prod.ext_iff.1 heq
  have hy' : y.2 = x := hs.unique hx (hsaved y hy) hentry hindex
    (congrArg DBWriteRequest.pairIndex hrequest)
  have hshown : y = (sub, x) := Prod.ext hsub' hy'
  rw [← hshown]
  exact hy

def pairArgs (resp : DetectionResponse ℤ) (image : UInt8) (pairIndex : ℕ) : CallbackArgs ℤ where
  transactionId := resp.transactionId
  response := resp
  left := { data := [image] }
  right := { data := [image] }
  pairIndex := pairIndex
  subTask := .installation
  workingDistanceMm := 0

def pairResult (resp : DetectionResponse ℤ) (image : UInt8) (pairIndex : ℕ) : SavedResult ℤ where
  ctx := markingContext
  args := pairArgs resp image pairIndex
  entry := some ⟨resp.transactionId, { data := [image] }, { data := [image] }, pairIndex,
    .installation, 0, 0⟩

def laterResponse : DetectionResponse ℤ :=
  { RecordingSystem.pairResponse with transactionId := "20260702-101500-350" }

def twoPairActions : List (RecordingAction ℤ) :=
  [.act (.startInspection "database/r"),
    .act (.publishPair RecordingSystem.pairResponse.transactionId { data := [1] } { data := [1] } 0),
    .act .insert,
    .act (.publishPair laterResponse.transactionId { data := [2] } { data := [2] } 0), .act .insert,
    .act (.deliver laterResponse), .act (.deliver RecordingSystem.pairResponse)]

def earlierResult : SavedResult ℤ := pairResult RecordingSystem.pairResponse 1 0

def laterResult : SavedResult ℤ := pairResult laterResponse 2 1

def pairDocument (x : SavedResult ℤ) : Json ℤ :=
  savedDocument (plainLib toString) noVision x.ctx x.args

def shownFields : List (String × Json ℤ) :=
  recordFields (plainLib toString) noVision
    [("installation", earlierResult), ("installation", laterResult)]

def recordBody : Bytes := bytes "\x7b\"record_path\":\"r\"\x7d"

def readingLib (table : List (Bytes × Json ℤ)) (doc doc' : Json ℤ) : Nlohmann ℤ :=
  { tableLib table with
    parseStream := fun b =>
      if b = bytes (plainDump toString doc) then .ok doc
      else if b = bytes (plainDump toString doc') then .ok doc'
      else (plainLib toString).parseStream b }

theorem parse_readingLib (table : List (Bytes × Json ℤ)) (doc doc' : Json ℤ) :
    (readingLib table doc doc').parseStream (bytes (plainDump toString doc)) = .ok doc ∧
      (bytes (plainDump toString doc') ≠ bytes (plainDump toString doc) →
        (readingLib table doc doc').parseStream (bytes (plainDump toString doc')) = .ok doc') :=
  ⟨if_pos rfl, fun h => (if_neg h).trans (if_pos rfl)⟩

def recordLib : Nlohmann ℤ :=
  readingLib [(recordBody, .object [("record_path", .string "r")]),
    (dumped (plainLib toString) shownFields, .object shownFields)]
    (pairDocument earlierResult) (pairDocument laterResult)

def pairsStored : ResultSystem ℤ :=
  (run (step plainImaging recordLib noVision) (boot { aiMode := .binary } markingContext)
    twoPairActions).get rfl

def pairRequests : List DBWriteRequest := pairsStored.recording.requests

def recordEnv : Env ℤ :=
  { plainEnv [] with
    lib := recordLib
    fs := { emptyDisk with
      pathExists := fun _ => .ok true
      readNames := listedNames [] pairRequests
      readFile := fun p => pairRequests.foldl (processRequest []) (fun _ => none)
        (resolvedPath [] p) } }

theorem readsBack_pairs : ∀ x ∈ pairsStored.saved, ReadsBack recordLib noVision x := by
  have hdifferent : bytes (plainDump toString (pairDocument laterResult)) ≠
      bytes (plainDump toString (pairDocument earlierResult)) := by decide +kernel
  intro x hx
  rcases List.mem_cons.1 (show x ∈ [laterResult, earlierResult] from hx) with rfl | hx
  · exact (parse_readingLib _ (pairDocument earlierResult) (pairDocument laterResult)).2 hdifferent
  · rw [List.mem_singleton.1 hx]
    exact (parse_readingLib _ (pairDocument earlierResult) (pairDocument laterResult)).1

set_option maxRecDepth 2000 in
theorem parse_shownFields : recordLib.parse (dumped recordLib shownFields) =
    .ok (.object shownFields) := rfl

set_option maxRecDepth 2000 in
theorem record_shown_twoPairs :
    (handle recordEnv (bytes "POST") (bytes "/GetRecord") recordBody bootCore).1 =
      .reply ⟨some 0, recordLib.dump (.object [("code", .integer 0), ("data", .object shownFields),
        ("message", .string "Success")])⟩ := by
  have hrun : run (step plainImaging recordLib noVision) (boot { aiMode := .binary } markingContext)
    twoPairActions = some pairsStored := (Option.some_get _).symm
  have hs : Booked recordLib noVision pairsStored := booked_run rfl rfl hrun
  have hdone : ∀ dir, WrittenBy pairRequests [] (fun _ => none) pairRequests dir := by
    intro dir
    exact ⟨fun _ _ => rfl, fun r hr _ _ _ => hr⟩
  have hdisk : RecordOnDisk pairRequests [] (fun _ => none) pairRequests recordEnv.fs
      (recordFull bootCore.records.rootPath "r") := by
    refine ⟨rfl, fun _ => rfl, ?_, fun sub _ => hdone _⟩
    intro sub _
    exact lists_listedNames hs.resultsOrOther (hdone _) rfl
  have hbody : recordPathOf recordEnv.lib recordBody = .ok "r" := by rfl
  obtain ⟨-, -, shown, hshown, hanswer⟩ := @record_shown _ _ plainImaging noVision pairsStored
    recordEnv _ _ _ rfl rfl hrun (by decide) readsBack_pairs [] _ _ recordBody bootCore "r" hbody
    hdisk
  have hstored : (storedSteps [] pairRequests (recordFull bootCore.records.rootPath "r")).map
      (fun x => (x.1, x.2.pairIndex)) = [("installation", 0), ("installation", 1)] := by
    decide +kernel
  have hfiles := hshown.files.map fun x => (x.1, x.2.pairIndex)
  rw [hstored, List.map_map] at hfiles
  have hsorted : (shown.map fun x => (x.1, x.2.args.pairIndex)).Pairwise fun a b => a.2 ≤ b.2 :=
    List.pairwise_map.2 hshown.sorted
  have hlist : shown.map (fun x => (x.1, x.2.args.pairIndex)) =
      [("installation", 0), ("installation", 1)] := by
    refine hfiles.eq_of_pairwise ?_ hsorted (by decide)
    intro a b ha hb hab hba
    have ha' := hfiles.subset ha
    simp only [List.mem_cons, List.not_mem_nil, or_false] at ha' hb
    rcases ha' with rfl | rfl <;> rcases hb with rfl | rfl <;> simp at hab hba ⊢
  obtain ⟨x, rest, rfl, hx, hrest⟩ := List.map_eq_cons_iff.1 hlist
  obtain ⟨y, rfl, hy⟩ := List.map_eq_singleton_iff.1 hrest
  have hresult (z : String × SavedResult ℤ) (hz : z ∈ [x, y]) :
      z.2 = laterResult ∨ z.2 = earlierResult := by
    have hmem : z.2 ∈ [laterResult, earlierResult] := hshown.saved z hz
    simpa using hmem
  have hpairs : x = ("installation", earlierResult) ∧ y = ("installation", laterResult) := by
    simp only [Prod.mk.injEq] at hx hy
    constructor
    · rcases hresult x (by simp) with h | h
      · rw [h] at hx
        cases hx.2
      · exact Prod.ext hx.1 h
    · rcases hresult y (by simp) with h | h
      · exact Prod.ext hy.1 h
      · rw [h] at hy
        cases hy.2
  rw [hpairs.1, hpairs.2] at hanswer
  exact hanswer parse_shownFields

end ResultSystem

end EcidsCore
