import EcidsCore.HistoryScan
import EcidsCore.RequestSpecs

set_option autoImplicit false

/-! What the history requests read back from the name of a record directory. -/
namespace EcidsCore
open ByteText ExceptRules

variable {R : Type}

def dateText (t : TimeParts) : String :=
  padded 4 t.year ++ "-" ++ padded 2 t.month ++ "-" ++ padded 2 t.day ++ " " ++
    padded 0 t.hour ++ ":" ++ padded 2 t.min ++ ":" ++ padded 2 t.sec

def timeTokens (t : TimeParts) : List Bytes :=
  [bytes (padded 4 t.year), bytes (padded 2 t.month), bytes (padded 2 t.day),
    bytes (padded 0 t.hour), bytes (padded 2 t.min), bytes (padded 2 t.sec)]

theorem splitOn_padded (w n : ℕ) : (bytes (padded w n)).splitOn dash = [bytes (padded w n)] :=
  List.splitOn_eq_singleton (not_mem_padded (by decide) w n)

theorem bytes_dash : bytes "-" = [dash] := rfl

theorem splitOn_dash (s t : String) :
    (bytes (s ++ "-" ++ t)).splitOn dash = (bytes s).splitOn dash ++ (bytes t).splitOn dash := by
  rw [bytes_append, bytes_append, bytes_dash, List.append_assoc, List.singleton_append,
    List.splitOn_append_cons_self]

theorem splitOn_folderPart (t : TimeParts) :
    (bytes (dbFolderPartFromParts t)).splitOn dash = timeTokens t := by
  simp only [dbFolderPartFromParts, splitOn_dash, splitOn_padded]
  rfl

namespace StartRequest

def stationId : StartRequest → String
  | .inspection q => q.stationId
  | .aiTest q => q.stationId

def escalatorId : StartRequest → String
  | .inspection q => q.escalatorId
  | .aiTest q => q.escalatorId

/-- An AI test has no task id. -/
def taskId? : StartRequest → Option String
  | .inspection q => some q.taskId
  | .aiTest _ => none

def isAiTest : StartRequest → Bool
  | .inspection _ => false
  | .aiTest _ => true

def namePrefix : StartRequest → String
  | .inspection _ => "(Inspection)"
  | .aiTest _ => "(AI Test)"

/-- What a record's name holds behind the time. -/
def idPart : StartRequest → String
  | .inspection q => "-" ++ q.stationId ++ "-" ++ q.escalatorId ++ "-" ++ q.taskId
  | .aiTest q =>
    if q.stationId = "" then ""
    else "-" ++ q.stationId ++ (if q.escalatorId = "" then "" else "-" ++ q.escalatorId)

def idTokens : StartRequest → List Bytes
  | .inspection q => (bytes q.stationId).splitOn dash ++
      ((bytes q.escalatorId).splitOn dash ++ (bytes q.taskId).splitOn dash)
  | .aiTest q =>
    if q.stationId = "" then []
    else (bytes q.stationId).splitOn dash ++
      if q.escalatorId = "" then [] else (bytes q.escalatorId).splitOn dash

variable (t : TimeParts) (q : StartRequest)

theorem isAiTestName_append (q : StartRequest) (rest : Bytes) :
    isAiTestName (bytes q.namePrefix ++ rest) = q.isAiTest := by
  have hlength : (bytes "(AI Test)").length ≤ (bytes q.namePrefix).length := by
    cases q <;> exact of_decide_eq_true rfl
  rw [isAiTestName, startsWith, List.take_append_of_le_length hlength]
  cases q <;> rfl

theorem recordName_eq : q.recordName t = q.namePrefix ++ (dbFolderPartFromParts t ++ q.idPart) := by
  cases q with
  | inspection i =>
    have hids : idPart (.inspection i) =
        "-" ++ i.stationId ++ "-" ++ i.escalatorId ++ "-" ++ i.taskId := rfl
    unfold recordName RecordManager.inspectionRecordName
    rw [hids]
    simp only [String.append_assoc]
    exact rfl
  | aiTest a =>
    exact String.append_assoc

theorem isAiTestName_recordName : isAiTestName (bytes (q.recordName t)) = q.isAiTest := by
  rw [recordName_eq, bytes_append, isAiTestName_append]

theorem recordName_listed : startsWith (bytes "(Inspection)") (bytes (q.recordName t)) ∨
    startsWith (bytes "(AI Test)") (bytes (q.recordName t)) := by
  rw [recordName_eq, bytes_append]
  cases q with
  | inspection i => exact .inl (decide_eq_true List.take_left)
  | aiTest a => exact .inr (decide_eq_true List.take_left)

theorem splitOn_idPart (s : String) :
    (bytes (s ++ q.idPart)).splitOn dash = (bytes s).splitOn dash ++ q.idTokens := by
  cases q with
  | inspection i =>
    simp only [idPart, idTokens, ← String.append_assoc, splitOn_dash, List.append_assoc]
  | aiTest a =>
    dsimp only [idPart, idTokens]
    split
    · rw [String.append_empty, List.append_nil]
    · split
      · rw [String.append_empty, ← String.append_assoc, splitOn_dash, List.append_nil]
      · simp only [← String.append_assoc, splitOn_dash, List.append_assoc]

theorem nameTokens_recordName :
    nameTokens (bytes (q.recordName t)) = timeTokens t ++ q.idTokens := by
  have hkindText : EcidsCore.namePrefix (bytes (q.recordName t)) = bytes q.namePrefix := by
    rw [EcidsCore.namePrefix, isAiTestName_recordName]
    cases q <;> rfl
  rw [nameTokens, hkindText, recordName_eq, bytes_append, List.drop_left, splitOn_idPart,
    splitOn_folderPart]

end StartRequest

theorem not_mem_of_mem_splitOn {sep : UInt8} {b w : Bytes} (h : w ∈ b.splitOn sep) : sep ∉ w := by
  induction b generalizing w with
  | nil =>
    rw [List.splitOn_nil, List.mem_singleton] at h
    rw [h]
    exact List.not_mem_nil
  | cons c b ih =>
    rw [List.splitOn_cons_eq_if_modifyHead] at h
    split at h
    · rcases List.mem_cons.1 h with rfl | h
      · exact List.not_mem_nil
      · exact ih h
    · rename_i hc
      cases hsplit : b.splitOn sep with
      | nil => exact absurd hsplit (List.splitOn_ne_nil sep b)
      | cons first more =>
        rw [hsplit] at h ih
        rcases List.mem_cons.1 h with rfl | h
        · intro hmem
          rcases List.mem_cons.1 hmem with rfl | hmem
          · exact hc (beq_self_eq_true _)
          · exact ih List.mem_cons_self hmem
        · exact ih (List.mem_cons_of_mem first h)

/-- What is read is the text that was given, or `--` where none was. -/
def ReadAs (given : String) (read : Bytes) : Prop :=
  read = bytes given ∨ given = "" ∧ read = bytes "--"

theorem readAs_token {given : String} {rest : List Bytes} :
    ReadAs given (((bytes given).splitOn dash ++ rest).getD 0 []) ↔ dash ∉ bytes given := by
  constructor
  · rintro (h | ⟨rfl, -⟩)
    · cases hsplit : (bytes given).splitOn dash with
      | nil => exact absurd hsplit (List.splitOn_ne_nil dash _)
      | cons first more =>
        rw [hsplit] at h
        rw [← h]
        apply not_mem_of_mem_splitOn
        rw [hsplit]
        exact List.mem_cons_self
    · exact List.not_mem_nil
  · intro h
    rw [List.splitOn_eq_singleton h]
    exact .inl rfl

theorem readAs_missing {given : String} :
    ReadAs given (bytes "--") ↔ given = "" ∨ given = "--" := by
  constructor
  · rintro (h | ⟨h, -⟩)
    · exact .inr (bytes_injective h).symm
    · exact .inl h
  · rintro (h | rfl)
    · exact .inr ⟨h, rfl⟩
    · exact .inl rfl

/-- The history shows a record with the time and the identifiers it was made with. -/
structure ReadsBack (t : TimeParts) (q : StartRequest) (r : ScannedRecord R) : Prop where
  date : r.inspectionDate = bytes (dateText t)
  station : ReadAs q.stationId r.stationId
  escalator : ReadAs q.escalatorId r.escalatorId
  task : ∀ task, q.taskId? = some task → ReadAs task r.taskId

/-- The identifiers that a name keeps apart: none may hold a dash, and those of an AI test
are never read. -/
def StartRequest.NameKeepsIds : StartRequest → Prop
  | .inspection q =>
    dash ∉ bytes q.stationId ∧ dash ∉ bytes q.escalatorId ∧ dash ∉ bytes q.taskId
  | .aiTest q =>
    (q.stationId = "" ∨ q.stationId = "--") ∧ (q.escalatorId = "" ∨ q.escalatorId = "--")

theorem inspectionDate_made (t : TimeParts) (ids : List Bytes) :
    inspectionDate (timeTokens t ++ ids) = bytes (dateText t) := by
  have hlength (n : ℕ) (hn : n ≤ 6) : n ≤ (timeTokens t ++ ids).length := by
    rw [List.length_append]
    exact Nat.le_add_right_of_le hn
  have hcolon : bytes ":" ≠ [] := List.cons_ne_nil _ _
  dsimp only [inspectionDate]
  rw [if_pos (hlength 3 (by omega)), if_pos (hlength 6 (by omega)), if_neg]
  · simp only [dateText, bytes_append, List.append_assoc]
    rfl
  · simp only [List.append_eq_nil_iff, hcolon, and_false, false_and, not_false_eq_true]

section Scan
variable [Double R] {lib : Nlohmann R} {fs : FileSystem} {root : Bytes}

theorem scanRecord_ids {rec : Bytes × Bytes} {r : ScannedRecord R}
    (h : scanRecord lib fs root rec = .ok r) :
    let tok := fun i => if isAiTestName rec.2 then bytes "--" else (nameTokens rec.2).getD i []
    r.stationId = tok 6 ∧ r.escalatorId = tok 7 ∧ r.taskId = tok 8 := by
  obtain ⟨op, -, h⟩ := bind_ok h
  obtain ⟨dirs, -, h⟩ := bind_ok h
  obtain ⟨files, -, h⟩ := bind_ok h
  cases h
  exact ⟨rfl, rfl, rfl⟩

theorem mem_scanInspectionRecords {rs : List (ScannedRecord R)} {r : ScannedRecord R}
    (h : scanInspectionRecords lib fs root = .ok rs) (hr : r ∈ rs) :
    ∃ rec ∈ recordDirs fs root, scanRecord lib fs root rec = .ok r := by
  obtain ⟨found, -, h⟩ := bind_ok h
  cases found with
  | false =>
    cases h
    cases hr
  | true =>
    obtain ⟨records, hrecords, h⟩ := bind_ok h
    cases h
    exact (mem_mapM hrecords r).1 (List.mem_mergeSort.1 hr)

theorem readsBack_tokens {rec : Bytes × Bytes} {r : ScannedRecord R} {t : TimeParts}
    {q : StartRequest} (h : scanRecord lib fs root rec = .ok r)
    (hname : rec.2 = bytes (q.recordName t)) : ReadsBack t q r ↔ q.NameKeepsIds := by
  obtain ⟨-, -, hdate, -⟩ := scanRecord_texts h
  obtain ⟨hstation, hescalator, htask⟩ := scanRecord_ids h
  rw [hname, q.nameTokens_recordName, inspectionDate_made] at hdate
  rw [hname, q.isAiTestName_recordName, q.nameTokens_recordName] at hstation hescalator htask
  cases q with
  | inspection i =>
    replace hstation : r.stationId = (StartRequest.idTokens (.inspection i)).getD 0 [] := hstation
    replace hescalator : r.escalatorId = (StartRequest.idTokens (.inspection i)).getD 1 [] :=
      hescalator
    replace htask : r.taskId = (StartRequest.idTokens (.inspection i)).getD 2 [] := htask
    rw [StartRequest.idTokens] at hstation hescalator htask
    constructor
    · intro hread
      have hs : dash ∉ bytes i.stationId := readAs_token.1 (hstation ▸ hread.station)
      rw [List.splitOn_eq_singleton hs] at hescalator htask
      have he : dash ∉ bytes i.escalatorId := readAs_token.1 (hescalator ▸ hread.escalator)
      rw [List.splitOn_eq_singleton he] at htask
      have hk : ReadAs i.taskId r.taskId := hread.task i.taskId rfl
      rw [htask, ← List.append_nil ((bytes i.taskId).splitOn dash)] at hk
      exact ⟨hs, he, readAs_token.1 hk⟩
    · rintro ⟨hs, he, hk⟩
      rw [List.splitOn_eq_singleton hs, List.splitOn_eq_singleton he,
        List.splitOn_eq_singleton hk] at hstation hescalator htask
      refine ⟨hdate, .inl hstation, .inl hescalator, ?_⟩
      intro task h
      cases h
      exact .inl htask
  | aiTest a =>
    replace hstation : r.stationId = bytes "--" := hstation
    replace hescalator : r.escalatorId = bytes "--" := hescalator
    constructor
    · intro hread
      exact ⟨readAs_missing.1 (hstation ▸ hread.station),
        readAs_missing.1 (hescalator ▸ hread.escalator)⟩
    · rintro ⟨hs, he⟩
      refine ⟨hdate, ?_, ?_, nofun⟩
      · rw [hstation]
        exact readAs_missing.2 hs
      · rw [hescalator]
        exact readAs_missing.2 he

/-- A record of the history shows what it was made with exactly if its name keeps the
identifiers. -/
theorem names_read_back_iff {rs : List (ScannedRecord R)} {r : ScannedRecord R} {t : TimeParts}
    {q : StartRequest} (h : scanInspectionRecords lib fs root = .ok rs) (hr : r ∈ rs)
    (hname : r.id = bytes (q.recordName t)) : ReadsBack t q r ↔ q.NameKeepsIds := by
  obtain ⟨rec, -, hrec⟩ := mem_scanInspectionRecords h hr
  exact readsBack_tokens hrec ((scanRecord_texts hrec).1.symm.trans hname)

end Scan

theorem inDirectories_single {α : Type} {fs : FileSystem} {dir name : Bytes}
    (h : fs.listDirectory dir = ([⟨name, .ok .directory⟩], none))
    (visit : Bytes → Bytes → Collected α) :
    inDirectories fs dir visit = visit (joinPath dir name) name := by
  rw [inDirectories, h, collect, collect]
  dsimp only
  split
  · rfl
  · rename_i hgood
    rw [List.append_nil, Option.isSome_none, ← Bool.eq_false_iff.2 hgood]

def recordVisit (path name : Bytes) : Collected (Bytes × Bytes) :=
  if startsWith (bytes "(Inspection)") name ∨ startsWith (bytes "(AI Test)") name then
    ([(path, name)], false)
  else ([], false)

theorem inDirectories_records {fs : FileSystem} {dir : Bytes} {names : List Bytes}
    (h : fs.listDirectory dir = (names.map fun name => ⟨name, .ok .directory⟩, none))
    (hnames : ∀ name ∈ names,
      startsWith (bytes "(Inspection)") name ∨ startsWith (bytes "(AI Test)") name) :
    inDirectories fs dir recordVisit =
      (names.map fun name => (joinPath dir name, name), false) := by
  rw [inDirectories, h]
  clear h
  induction names with
  | nil =>
    rw [List.map_nil, collect]
    rfl
  | cons name names ih =>
    rw [List.map_cons, collect, ih fun n hn => hnames n (List.mem_cons_of_mem name hn)]
    have hvisit : recordVisit (joinPath dir name) name = ([(joinPath dir name, name)], false) :=
      if_pos (hnames name List.mem_cons_self)
    simp only [hvisit]
    rfl

abbrev MadeRecords := List (TimeParts × StartRequest)

def madeName (m : TimeParts × StartRequest) : Bytes := bytes (m.2.recordName m.1)

def dayPath : Bytes := bytes "database/2026/2026-07/2026-07-02"

def dayDisk (made : MadeRecords) : FileSystem :=
  { emptyDisk with
    pathExists := fun p => .ok (p = bytes "database")
    listDirectory := fun p =>
      (((([(bytes "database", [bytes "2026"]), (bytes "database/2026", [bytes "2026-07"]),
        (bytes "database/2026/2026-07", [bytes "2026-07-02"]),
        (dayPath, made.map madeName)]).lookup p).getD []).map
          fun name => ⟨name, .ok .directory⟩, none) }

def dayRecord (m : TimeParts × StartRequest) : Bytes × Bytes :=
  (joinPath dayPath (madeName m), madeName m)

theorem recordDirs_dayDisk (made : MadeRecords) :
    recordDirs (dayDisk made) (bytes "database") = made.map dayRecord := by
  have hyear : (dayDisk made).listDirectory (bytes "database") =
      ([⟨bytes "2026", .ok .directory⟩], none) := rfl
  have hmonth : (dayDisk made).listDirectory (joinPath (bytes "database") (bytes "2026")) =
      ([⟨bytes "2026-07", .ok .directory⟩], none) := rfl
  have hday : (dayDisk made).listDirectory
      (joinPath (joinPath (bytes "database") (bytes "2026")) (bytes "2026-07")) =
        ([⟨bytes "2026-07-02", .ok .directory⟩], none) := rfl
  have hrecords : (dayDisk made).listDirectory (joinPath (joinPath (joinPath (bytes "database")
      (bytes "2026")) (bytes "2026-07")) (bytes "2026-07-02")) =
        ((made.map madeName).map fun name => ⟨name, .ok .directory⟩, none) := rfl
  have hlisted : ∀ name ∈ made.map madeName,
      startsWith (bytes "(Inspection)") name ∨ startsWith (bytes "(AI Test)") name := by
    intro name hname
    obtain ⟨m, -, rfl⟩ := List.mem_map.1 hname
    exact m.2.recordName_listed m.1
  rw [recordDirs, inDirectories_single hyear, inDirectories_single hmonth,
    inDirectories_single hday]
  change (inDirectories (dayDisk made) _ recordVisit).1 = _
  rw [inDirectories_records hrecords hlisted]
  exact List.map_map

def dayScanned (m : TimeParts × StartRequest) : ScannedRecord ℤ where
  id := madeName m
  path := relativePath (bytes "database") (dayRecord m).1
  inspectionDate := inspectionDate (nameTokens (madeName m))
  stationId := (nameTokens (madeName m)).getD 6 []
  escalatorId := (nameTokens (madeName m)).getD 7 []
  taskId := (nameTokens (madeName m)).getD 8 []
  operationType := "Gap Inspection"
  stepCount := 0
  tally := { gapSum := 0 }

theorem scanRecord_dayDisk (made : MadeRecords) (t : TimeParts) (i : InspectionTask) :
    scanRecord (plainLib toString) (dayDisk made) (bytes "database")
      (dayRecord (t, .inspection i)) = .ok (dayScanned (t, .inspection i)) := by
  have hai : isAiTestName (dayRecord (t, .inspection i)).2 = false :=
    StartRequest.isAiTestName_recordName t (.inspection i)
  rw [scanRecord, hai]
  rfl

theorem scan_dayDisk (made : MadeRecords) :
    scanInspectionRecords (plainLib (R := ℤ) toString) (dayDisk made) (bytes "database") = do
      let records ← (made.map dayRecord).mapM
        (scanRecord (plainLib toString) (dayDisk made) (bytes "database"))
      return records.mergeSort fun a b => ¬ a.inspectionDate < b.inspectionDate := by
  have hroot : (dayDisk made).pathExists (bytes "database") = .ok true := rfl
  rw [scanInspectionRecords, hroot, recordDirs_dayDisk]
  rfl

def noonParts : TimeParts := ⟨2026, 7, 2, 12, 0, 5, 0⟩

def noonRecord (i : InspectionTask) : TimeParts × StartRequest := (noonParts, .inspection i)

theorem scan_noonRecord (i : InspectionTask) :
    scanInspectionRecords (plainLib toString) (dayDisk [noonRecord i]) (bytes "database") =
      .ok [dayScanned (noonRecord i)] := by
  rw [scan_dayDisk, List.map_singleton, List.mapM_cons, noonRecord, scanRecord_dayDisk]
  change Except.ok (List.mergeSort [_] _) = _
  rw [List.mergeSort_singleton]

def plainIds : InspectionTask := ⟨"S1", "E1", "K"⟩

theorem names_read_back_iff_plain :
    ReadsBack noonParts (.inspection plainIds) (dayScanned (noonRecord plainIds)) ↔
      StartRequest.NameKeepsIds (.inspection plainIds) :=
  names_read_back_iff (scan_noonRecord plainIds) List.mem_cons_self rfl

def dashedIds : InspectionTask := ⟨"S-1", "E1", "K"⟩

/-- Such a name is read back cut off at the dash. -/
theorem dashed_station_counterexample :
    scanInspectionRecords (plainLib (R := ℤ) toString) (dayDisk [noonRecord dashedIds])
        (bytes "database") = .ok [dayScanned (noonRecord dashedIds)] ∧
      (dayScanned (noonRecord dashedIds)).stationId = bytes "S" ∧
        ¬ ReadsBack noonParts (.inspection dashedIds) (dayScanned (noonRecord dashedIds)) := by
  have hstation : (dayScanned (noonRecord dashedIds)).stationId = bytes "S" := by decide
  refine ⟨scan_noonRecord dashedIds, hstation, ?_⟩
  intro h
  have hread := h.station
  rw [hstation] at hread
  revert hread
  unfold ReadAs
  decide

end EcidsCore
