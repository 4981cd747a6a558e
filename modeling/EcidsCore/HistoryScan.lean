import EcidsCore.ExceptRules
import EcidsCore.ForwardHandler

set_option autoImplicit false

/-! When the scan of the record directories returns, and when its result is text. -/
namespace EcidsCore
open ByteText ExceptRules

variable {R : Type}

def Listable (fs : FileSystem) (dir : Bytes) : Prop :=
  (fs.listDirectory dir).2 = none ∧ ∀ e ∈ (fs.listDirectory dir).1, Returns e.kind

/-- A record directory whose scan meets no exception, and whose name is text. -/
structure RecordReadable (fs : FileSystem) (rec : Bytes × Bytes) : Prop where
  pathText : ValidUtf8 rec.1
  nameText : ValidUtf8 rec.2
  aiTest : isAiTestName rec.2 → Listable fs rec.1
  phases : ¬ isAiTestName rec.2 → ∀ sub ∈ phaseDirs, Returns (fs.pathExists (rec.1 ++ sub)) ∧
    (fs.pathExists (rec.1 ++ sub) = .ok true → Listable fs (rec.1 ++ sub))

def HistoryReadable (fs : FileSystem) (root : Bytes) : Prop :=
  fs.pathExists root = .ok false ∨
    fs.pathExists root = .ok true ∧ ∀ rec ∈ recordDirs fs root, RecordReadable fs rec

theorem stereoFiles_returns {fs : FileSystem} {dir : Bytes} :
    Returns (stereoFiles fs dir) ↔ Listable fs dir := by
  have hvisit : ∀ found e, Returns (stereoVisit dir found e) ↔ Returns e.kind := by
    intro found e
    rw [stereoVisit, returns_bind]
    exact exists_congr fun k => and_iff_left (returns_pure _)
  rw [stereoFiles, returns_bind, Listable, ← returns_foldlM hvisit []]
  cases (fs.listDirectory dir).2 with
  | none =>
    rw [eq_self_iff_true, true_and]
    exact exists_congr fun found => and_iff_left (returns_pure found)
  | some text => simp

theorem dirHasFiles_returns {fs : FileSystem} {dir : Bytes} :
    Returns (dirHasFiles fs dir) ↔ Returns (fs.pathExists dir) := by
  rw [dirHasFiles, returns_bind]
  exact exists_congr fun b => and_iff_left (returns_pure _)

theorem inspectionType_returns {fs : FileSystem} {dir : Bytes}
    (h : ∀ sub ∈ phaseDirs, Returns (fs.pathExists (dir ++ sub))) :
    Returns (inspectionType fs dir) := by
  have htest : ∀ sub ∈ phaseDirs, Returns (dirHasFiles fs (dir ++ sub)) := by
    intro sub hsub
    exact dirHasFiles_returns.2 (h sub hsub)
  obtain ⟨b1, h1⟩ := htest (bytes "/inspection") (by simp [phaseDirs])
  obtain ⟨b2, h2⟩ := htest (bytes "/marking") (by simp [phaseDirs])
  obtain ⟨b3, h3⟩ := htest (bytes "/installation") (by simp [phaseDirs])
  rw [inspectionType, h1, h2, h3]
  cases b1 <;> cases b2 <;> cases b3 <;> exact ⟨_, rfl⟩

theorem existingDir_returns {fs : FileSystem} {dir : Bytes} :
    Returns (existingDir fs dir) ↔ Returns (fs.pathExists dir) := by
  rw [existingDir, returns_bind]
  exact exists_congr fun b => and_iff_left (returns_pure _)

theorem mem_stereoDirs {fs : FileSystem} {dir : Bytes} {dirs : List Bytes}
    (h : stereoDirs fs false dir = .ok dirs) :
    ∀ d, d ∈ dirs ↔ ∃ sub ∈ phaseDirs, fs.pathExists (dir ++ sub) = .ok true ∧ d = dir ++ sub := by
  obtain ⟨found, hfound, h⟩ := bind_ok h
  cases h
  intro d
  rw [List.mem_flatten]
  constructor
  · rintro ⟨l, hl, hd⟩
    obtain ⟨sub, hsub, hl⟩ := (mem_mapM hfound l).1 hl
    obtain ⟨b, hb, hl⟩ := bind_ok hl
    cases hl
    cases b with
    | true => exact ⟨sub, hsub, hb, List.mem_singleton.1 hd⟩
    | false => cases hd
  · rintro ⟨sub, hsub, hb, rfl⟩
    refine ⟨[dir ++ sub], (mem_mapM hfound _).2 ⟨sub, hsub, ?_⟩, List.mem_singleton.2 rfl⟩
    rw [existingDir, hb]
    rfl

theorem stereoDirs_returns {fs : FileSystem} {dir : Bytes} :
    Returns (stereoDirs fs false dir) ↔
      ∀ sub ∈ phaseDirs, Returns (fs.pathExists (dir ++ sub)) := by
  have hdef : stereoDirs fs false dir = (do
      let dirs ← phaseDirs.mapM fun sub => existingDir fs (dir ++ sub)
      return dirs.flatten) := rfl
  rw [hdef, returns_bind]
  have hmap : Returns (phaseDirs.mapM fun sub => existingDir fs (dir ++ sub)) ↔
      ∀ sub ∈ phaseDirs, Returns (existingDir fs (dir ++ sub)) := returns_mapM
  simp only [existingDir_returns] at hmap
  rw [← hmap]
  exact exists_congr fun b => and_iff_left (returns_pure _)

section Scan
variable [Double R] {lib : Nlohmann R} {fs : FileSystem} {root : Bytes}

theorem scanRecord_returns {rec : Bytes × Bytes} (hpath : ValidUtf8 rec.1)
    (hname : ValidUtf8 rec.2) :
    Returns (scanRecord lib fs root rec : Except Bytes (ScannedRecord R)) ↔
      RecordReadable fs rec := by
  simp only [scanRecord, returns_bind, returns_pure, and_true]
  cases hai : isAiTestName rec.2 with
  | true =>
    constructor
    · rintro ⟨op, -, dirs, hdirs, files, hfiles⟩
      cases hdirs
      have hall := returns_mapM.1 ⟨files, hfiles⟩ rec.1 (List.mem_singleton.2 rfl)
      exact ⟨hpath, hname, fun _ => stereoFiles_returns.1 hall, fun h => absurd hai h⟩
    · intro h
      have hall : ∀ d ∈ [rec.1], Returns (stereoFiles fs d) := by
        intro d hd
        rw [List.mem_singleton.1 hd]
        exact stereoFiles_returns.2 (h.aiTest hai)
      obtain ⟨files, hfiles⟩ := returns_mapM.2 hall
      exact ⟨"AI Test", rfl, [rec.1], rfl, files, hfiles⟩
  | false =>
    have hn : ¬ isAiTestName rec.2 := by simp [hai]
    constructor
    · rintro ⟨op, -, dirs, hdirs, files, hfiles⟩
      have hsubs := stereoDirs_returns.1 ⟨dirs, hdirs⟩
      have hall := returns_mapM.1 ⟨files, hfiles⟩
      refine ⟨hpath, hname, fun h => absurd h hn, fun _ sub hsub => ⟨hsubs sub hsub, fun hb => ?_⟩⟩
      exact stereoFiles_returns.1 (hall _ ((mem_stereoDirs hdirs _).2 ⟨sub, hsub, hb, rfl⟩))
    · intro h
      obtain ⟨op, hop⟩ := inspectionType_returns fun sub hsub => (h.phases hn sub hsub).1
      obtain ⟨dirs, hdirs⟩ := stereoDirs_returns.2 fun sub hsub => (h.phases hn sub hsub).1
      have hall : ∀ d ∈ dirs, Returns (stereoFiles fs d) := by
        intro d hd
        obtain ⟨sub, hsub, hb, rfl⟩ := (mem_stereoDirs hdirs d).1 hd
        exact stereoFiles_returns.2 ((h.phases hn sub hsub).2 hb)
      obtain ⟨files, hfiles⟩ := returns_mapM.2 hall
      exact ⟨op, hop, dirs, hdirs, files, hfiles⟩

theorem scanRecord_texts {rec : Bytes × Bytes} {r : ScannedRecord R}
    (h : scanRecord lib fs root rec = .ok r) :
    r.id = rec.2 ∧ r.path = relativePath root rec.1 ∧
      r.inspectionDate = inspectionDate (nameTokens rec.2) ∧
      ∀ t ∈ [r.stationId, r.escalatorId, r.taskId],
        t = bytes "--" ∨ ∃ i, t = (nameTokens rec.2).getD i [] := by
  obtain ⟨op, -, h⟩ := bind_ok h
  obtain ⟨dirs, -, h⟩ := bind_ok h
  obtain ⟨files, -, h⟩ := bind_ok h
  cases h
  refine ⟨rfl, rfl, rfl, ?_⟩
  intro t ht
  simp only [List.mem_cons, List.not_mem_nil, or_false] at ht
  rcases ht with rfl | rfl | rfl <;> split
  · exact .inl rfl
  · exact .inr ⟨6, rfl⟩
  · exact .inl rfl
  · exact .inr ⟨7, rfl⟩
  · exact .inl rfl
  · exact .inr ⟨8, rfl⟩

end Scan

theorem ownChar_dash : OwnChar dash := ⟨'-', rfl⟩

theorem ownChar_slash : OwnChar slash := ⟨'/', rfl⟩

theorem startsWith_eq {pre b : Bytes} (h : startsWith pre b) : b = pre ++ b.drop pre.length := by
  have htake : b.take pre.length = pre := by simpa [startsWith] using h
  conv_lhs => rw [← List.take_append_drop pre.length b, htake]

theorem dropWhile_slash_valid (b : Bytes) :
    ValidUtf8 (b.dropWhile (· = slash)) ↔ ValidUtf8 b := by
  induction b with
  | nil => rfl
  | cons c b ih =>
    by_cases hc : c = slash
    · subst hc
      rw [List.dropWhile_cons_of_pos (by simp), ih, ← List.nil_append (slash :: b),
        ownChar_slash.parts]
      exact (and_iff_right validUtf8_nil).symm
    · rw [List.dropWhile_cons_of_neg (by simpa using hc)]

theorem relativePath_valid {root : String} {path : Bytes} :
    ValidUtf8 (relativePath (bytes root) path) ↔ ValidUtf8 path := by
  rw [relativePath, dropWhile_slash_valid]
  by_cases h : startsWith (bytes root) path
  · rw [if_pos h]
    conv_rhs => rw [startsWith_eq h, (validUtf8_bytes root).append_iff]
  · rw [if_neg h]

theorem mem_collect {α : Type} {visit : DirEntry → Collected α} {listing : List DirEntry × Option Bytes}
    {x : α} (h : x ∈ (collect visit listing).1) : ∃ e, x ∈ (visit e).1 := by
  obtain ⟨es, fault⟩ := listing
  induction es with
  | nil => simp [collect] at h
  | cons e es ih =>
    simp only [collect] at h
    split at h
    · exact ⟨e, h⟩
    · rcases List.mem_append.1 h with h | h
      · exact ⟨e, h⟩
      · exact ih h

theorem mem_inDirectories {α : Type} {fs : FileSystem} {dir : Bytes}
    {visit : Bytes → Bytes → Collected α} {x : α} (h : x ∈ (inDirectories fs dir visit).1) :
    ∃ path name, x ∈ (visit path name).1 := by
  obtain ⟨e, he⟩ := mem_collect h
  split at he
  · cases he
  · exact ⟨_, _, he⟩
  · cases he

theorem recordDirs_name {fs : FileSystem} {root : Bytes} {rec : Bytes × Bytes}
    (h : rec ∈ recordDirs fs root) : rec.2 = namePrefix rec.2 ++ rec.2.drop (namePrefix rec.2).length := by
  obtain ⟨yr, _, h⟩ := mem_inDirectories h
  obtain ⟨mo, _, h⟩ := mem_inDirectories h
  obtain ⟨dy, _, h⟩ := mem_inDirectories h
  obtain ⟨path, name, h⟩ := mem_inDirectories h
  split at h
  · rename_i hname
    rw [List.mem_singleton.1 h]
    apply startsWith_eq
    unfold namePrefix
    by_cases hai : isAiTestName name
    · rw [if_pos hai]
      exact hai
    · rw [if_neg hai]
      exact hname.resolve_right hai
  · cases h

theorem nameTokens_valid {fs : FileSystem} {root : Bytes} {rec : Bytes × Bytes}
    (h : rec ∈ recordDirs fs root) :
    ValidUtf8 rec.2 ↔ ∀ t ∈ nameTokens rec.2, ValidUtf8 t := by
  rw [nameTokens, ← ownChar_dash.splitOn]
  conv_lhs => rw [recordDirs_name h, namePrefix, (validUtf8_bytes _).append_iff]
  rfl

theorem inspectionDate_valid {toks : List Bytes} (h : ∀ t ∈ toks, ValidUtf8 t) :
    ValidUtf8 (inspectionDate toks) := by
  have htok : ∀ i, ValidUtf8 (toks.getD i []) := by
    intro i
    rw [List.getD_eq_getElem?_getD]
    cases hi : toks[i]? with
    | none => exact validUtf8_nil
    | some t => exact h t (List.mem_of_getElem? hi)
  have hdash : ∀ t, ValidUtf8 t → ValidUtf8 (dash :: t) := by
    intro t ht
    exact ownChar_dash.parts (a := []).2 ⟨validUtf8_nil, ht⟩
  have hcolon : ValidUtf8 (bytes ":") := validUtf8_bytes _
  have hblank : ValidUtf8 (bytes " ") := validUtf8_bytes _
  dsimp only [inspectionDate]
  refine ValidUtf8.append ?_ ?_
  · split
    · exact ((htok 0).append (hdash _ (htok 1))).append (hdash _ (htok 2))
    · exact validUtf8_nil
  · split
    · split
      · exact validUtf8_nil
      · exact hblank.append
          (((((htok 3).append hcolon).append (htok 4)).append hcolon).append (htok 5))
    · rw [if_pos rfl]
      exact validUtf8_nil

theorem valid_of_text? {b : Bytes} {s : String} (h : text? b = some s) : ValidUtf8 b :=
  text?_isSome.1 (h ▸ rfl)

theorem json?_isSome [Double R] {r : ScannedRecord R} :
    (∃ j, r.json? = some j) ↔ ∀ t ∈ r.texts, ValidUtf8 t := by
  simp only [ScannedRecord.texts, List.forall_mem_cons]
  constructor
  · rintro ⟨j, hj⟩
    simp only [ScannedRecord.json?, Option.bind_eq_bind, Option.bind_eq_some_iff] at hj
    obtain ⟨_, h1, _, h2, _, h3, _, h4, _, h5, _, h6, -⟩ := hj
    exact ⟨valid_of_text? h1, valid_of_text? h2, valid_of_text? h3, valid_of_text? h4,
      valid_of_text? h5, valid_of_text? h6, List.forall_mem_nil _⟩
  · rintro ⟨h1, h2, h3, h4, h5, h6, -⟩
    simp only [ScannedRecord.json?, text?_of_valid h1, text?_of_valid h2, text?_of_valid h3,
      text?_of_valid h4, text?_of_valid h5, text?_of_valid h6]
    exact ⟨_, rfl⟩

section Scan
variable [Double R] {lib : Nlohmann R} {fs : FileSystem}

theorem scanRecord_texts_valid {root : String} {rec : Bytes × Bytes} {r : ScannedRecord R}
    (hmem : rec ∈ recordDirs fs (bytes root)) (h : scanRecord lib fs (bytes root) rec = .ok r) :
    (∀ t ∈ r.texts, ValidUtf8 t) ↔ ValidUtf8 rec.1 ∧ ValidUtf8 rec.2 := by
  obtain ⟨hid, hpath, hdate, hids⟩ := scanRecord_texts h
  constructor
  · intro ht
    have h1 := ht r.id (by simp [ScannedRecord.texts])
    have h2 := ht r.path (by simp [ScannedRecord.texts])
    rw [hid] at h1
    rw [hpath, relativePath_valid] at h2
    exact ⟨h2, h1⟩
  · rintro ⟨h1, h2⟩
    have htoks := (nameTokens_valid hmem).1 h2
    have hids' : ∀ t ∈ [r.stationId, r.escalatorId, r.taskId], ValidUtf8 t := by
      intro t ht
      rcases hids t ht with rfl | ⟨i, rfl⟩
      · exact validUtf8_bytes _
      · rw [List.getD_eq_getElem?_getD]
        cases hi : (nameTokens rec.2)[i]? with
        | none => exact validUtf8_nil
        | some t => exact htoks t (List.mem_of_getElem? hi)
    simp only [List.forall_mem_cons] at hids'
    simp only [ScannedRecord.texts, List.forall_mem_cons]
    refine ⟨hid ▸ h2, ?_, ?_, hids'⟩
    · rw [hpath]
      exact relativePath_valid.2 h1
    · rw [hdate]
      exact inspectionDate_valid htoks

theorem scanned_readable (lib : Nlohmann R) {root : String} :
    (∃ records : List (ScannedRecord R),
      (recordDirs fs (bytes root)).mapM (scanRecord lib fs (bytes root)) = .ok records ∧
        ∀ r ∈ records, ∀ t ∈ r.texts, ValidUtf8 t) ↔
      ∀ rec ∈ recordDirs fs (bytes root), RecordReadable fs rec := by
  constructor
  · rintro ⟨records, hrecords, htexts⟩ rec hmem
    obtain ⟨r, hr⟩ := returns_mapM.1 ⟨records, hrecords⟩ rec hmem
    have hr' : r ∈ records := (mem_mapM hrecords r).2 ⟨rec, hmem, hr⟩
    obtain ⟨hpath, hname⟩ := (scanRecord_texts_valid hmem hr).1 (htexts r hr')
    exact (scanRecord_returns hpath hname).1 ⟨r, hr⟩
  · intro h
    have hscan : ∀ rec ∈ recordDirs fs (bytes root), Returns (scanRecord lib fs (bytes root) rec) :=
      fun rec hmem =>
        (scanRecord_returns (h rec hmem).pathText (h rec hmem).nameText).2 (h rec hmem)
    obtain ⟨records, hrecords⟩ := returns_mapM.2 hscan
    refine ⟨records, hrecords, ?_⟩
    intro r hr
    obtain ⟨rec, hmem, hrec⟩ := (mem_mapM hrecords r).1 hr
    exact (scanRecord_texts_valid hmem hrec).2 ⟨(h rec hmem).pathText, (h rec hmem).nameText⟩

omit [Double R] in
theorem history_replies (hlib : lib.Documented) (js : List (Json R)) :
    Returns (makeResponse lib 0 (bytes "Success")
      (dumped lib [("count", .integer js.length), ("records", .array js)])) := by
  obtain ⟨text, h⟩ := makeResponse_ok lib 0 (validUtf8_bytes "Success")
    (hlib.dump_valid (.object [("count", .integer js.length), ("records", .array js)]))
  exact ⟨_, h⟩

theorem getHistory_scanned (hlib : lib.Documented) {c : Core R} {records : List (ScannedRecord R)}
    (h : scanInspectionRecords lib fs (bytes c.records.rootPath) = .ok records) :
    Returns (getHistory lib fs c) ↔ ∃ js, records.mapM ScannedRecord.json? = some js := by
  rw [getHistory, h]
  dsimp only
  cases records.mapM ScannedRecord.json? with
  | none => simp
  | some js => exact iff_of_true (history_replies hlib js) ⟨js, rfl⟩

theorem getHistory_returns (hlib : lib.Documented) {c : Core R} :
    Returns (getHistory lib fs c) ↔ HistoryReadable fs (bytes c.records.rootPath) := by
  rw [HistoryReadable, ← scanned_readable lib]
  cases hroot : fs.pathExists (bytes c.records.rootPath) with
  | error text => simp [getHistory, scanInspectionRecords, hroot, bind, Except.bind]
  | ok found =>
    cases found with
    | false =>
      have hscan : scanInspectionRecords lib fs (bytes c.records.rootPath) =
          (.ok [] : Except Bytes (List (ScannedRecord R))) := by
        simp [scanInspectionRecords, hroot, bind, Except.bind, pure, Except.pure]
      exact iff_of_true ((getHistory_scanned hlib hscan).2 ⟨[], rfl⟩) (.inl rfl)
    | true =>
      cases hrecords : (recordDirs fs (bytes c.records.rootPath)).mapM
          (scanRecord lib fs (bytes c.records.rootPath)) with
      | error text => simp [getHistory, scanInspectionRecords, hroot, hrecords, bind, Except.bind]
      | ok records =>
        have hscan : scanInspectionRecords lib fs (bytes c.records.rootPath) =
            .ok (records.mergeSort fun a b => ¬ a.inspectionDate < b.inspectionDate) := by
          simp [scanInspectionRecords, hroot, hrecords, bind, Except.bind, pure, Except.pure]
        rw [getHistory_scanned hlib hscan, mapM_isSome]
        simp only [json?_isSome, List.mem_mergeSort, Except.ok.injEq, Bool.true_eq_false, false_or,
          true_and, exists_eq_left']

end Scan

end EcidsCore
