import EcidsCore.HandlerExceptions
import EcidsCore.JsonReader
import EcidsCore.RecordDirectories

set_option autoImplicit false

/-! The answer of a start that succeeds, and when the path of the new record is found in it. -/
namespace EcidsCore
open ByteText StringLiteral JsonReader

variable {R : Type}

/-- Documented behaviour: `parse` takes the texts that are JSON, and a byte order mark in
front of them. -/
structure Nlohmann.ReadsJson (lib : Nlohmann R) (numeral : Bytes → Option (ℤ ⊕ R)) : Prop where
  parse_iff : ∀ b j, b.head? ≠ some 0xEF → (lib.parse b = .ok j ↔ readJson numeral b = some j)

def PlainText (s : String) : Prop := ∀ b ∈ bytes s, Plain b

instance (s : String) : Decidable (PlainText s) := List.decidableBAll Plain (bytes s)

theorem plainText_append (s t : String) : PlainText (s ++ t) ↔ PlainText s ∧ PlainText t := by
  rw [PlainText, bytes_append, List.forall_mem_append]
  rfl

theorem plainText_padded (w n : ℕ) : PlainText (padded w n) := by
  intro b hb
  obtain ⟨hlow, hhigh⟩ := digits_ascii b hb
  refine ⟨UInt8.le_trans (by decide) hlow, ?_, ?_⟩
  · rintro rfl
    exact absurd hlow (by decide)
  · rintro rfl
    exact absurd hhigh (by decide)

theorem plainText_folderPart (t : TimeParts) : PlainText (dbFolderPartFromParts t) := by
  have hdash : PlainText "-" := by decide +kernel
  simp only [dbFolderPartFromParts, plainText_append, plainText_padded, hdash, and_self]

theorem plainText_datePath (t : TimeParts) : PlainText (dbDatePathFromParts t) := by
  have hdash : PlainText "-" := by decide +kernel
  have hslash : PlainText "/" := by decide +kernel
  simp only [dbDatePathFromParts, plainText_append, plainText_padded, hdash, hslash, and_self]

namespace StartRequest

def namedIds : StartRequest → List String
  | .inspection q => [q.stationId, q.escalatorId, q.taskId]
  | .aiTest q => if q.stationId = "" then [] else [q.stationId, q.escalatorId]

theorem plainText_idPart (q : StartRequest) :
    PlainText q.idPart ↔ ∀ id ∈ q.namedIds, PlainText id := by
  have hdash : PlainText "-" := by decide +kernel
  have hempty : PlainText "" := by decide +kernel
  cases q with
  | inspection i =>
    have hids : idPart (.inspection i) =
        "-" ++ i.stationId ++ "-" ++ i.escalatorId ++ "-" ++ i.taskId := rfl
    rw [hids]
    simp [namedIds, plainText_append, hdash, and_assoc]
  | aiTest a =>
    by_cases hstation : a.stationId = ""
    · simp [idPart, namedIds, hstation, hempty]
    · by_cases hescalator : a.escalatorId = ""
      · simp [idPart, namedIds, plainText_append, hstation, hescalator, hdash, hempty]
      · simp [idPart, namedIds, plainText_append, hstation, hescalator, hdash]

theorem plainText_recordName (t : TimeParts) (q : StartRequest) :
    PlainText (q.recordName t) ↔ ∀ id ∈ q.namedIds, PlainText id := by
  have hhead : PlainText q.namePrefix := by
    have hboth : PlainText "(Inspection)" ∧ PlainText "(AI Test)" := by decide +kernel
    cases q
    · exact hboth.1
    · exact hboth.2
  rw [recordName_eq, plainText_append, plainText_append, plainText_idPart]
  simp only [hhead, plainText_folderPart, true_and]

def NeedsNoEscape (q : StartRequest) (c : Core R) : Prop :=
  PlainText c.records.rootPath ∧ ∀ id ∈ q.namedIds, PlainText id

theorem plainText_recordPath (env : Env R) (q : StartRequest) (c : Core R) :
    PlainText (q.recordPath env c) ↔ q.NeedsNoEscape c := by
  have hslash : PlainText "/" := by decide +kernel
  simp only [recordPath, RecordManager.recordPath, plainText_append, hslash, and_true,
    plainText_datePath, plainText_recordName, NeedsNoEscape]

end StartRequest

/-- The value that `make_response` dumps. -/
def responseJson (lib : Nlohmann R) (code : ℤ) (message : String) (dataJson : Bytes) :
    Option (Json R) :=
  (dataMember lib dataJson).map fun d =>
    .object [("code", .integer code), ("data", d), ("message", .string message)]

theorem makeResponse_dumps {lib : Nlohmann R} {code : ℤ} {message : String} {dataJson : Bytes}
    {r : Reply} (h : makeResponse lib code (bytes message) dataJson = .ok r) :
    ∃ answer, responseJson lib code message dataJson = some answer ∧
      r = ⟨some code, lib.dump answer⟩ := by
  rw [makeResponse, text?_bytes] at h
  split at h
  · rename_i m d hm hd
    cases hm
    cases h
    exact ⟨_, by rw [responseJson, hd]; rfl, rfl⟩
  · cases h

def HoldsPath (answer : Json R) (path : String) : Prop :=
  answer.member? "data" = some (.object [("record_path", .string path)])

theorem quoted_eq (key s : String) : quoted key s = memberText key s := by
  have hopen : bytes "\x7b\"" = [openBrace, quote] := rfl
  have hmiddle : bytes "\":\"" = [quote, nameSeparator, quote] := rfl
  have hclose : bytes "\"\x7d" = [quote, closeBrace] := rfl
  simp only [quoted, bytes_append, hopen, hmiddle, hclose, memberText, List.append_assoc,
    List.cons_append, List.nil_append]

variable {lib : Nlohmann R} {numeral : Bytes → Option (ℤ ⊕ R)}

theorem dataMember_quoted (hreads : lib.ReadsJson numeral) {key : String} (hkey : PlainText key)
    (s : String) :
    dataMember lib (quoted key s) = some (.object [(key, .string s)]) ↔ PlainText s := by
  have hread := readJson_memberText numeral hkey s
  have hparse := hreads.parse_iff (quoted key s)
  rw [quoted_eq] at hparse ⊢
  rw [PlainText, ← hread, ← hparse _ (by simp [memberText, openBrace]), dataMember]
  cases lib.parse (memberText key s) with
  | ok v => simp
  | error e => simp

theorem holdsPath_iff (hreads : lib.ReadsJson numeral) {code : ℤ} {message path : String}
    {answer : Json R}
    (h : responseJson lib code message (quoted "record_path" path) = some answer) :
    HoldsPath answer path ↔ PlainText path := by
  obtain ⟨d, hd, rfl⟩ := Option.map_eq_some_iff.1 h
  rw [← dataMember_quoted hreads (show PlainText "record_path" by decide +kernel), hd, HoldsPath]
  simp [Json.member?]

theorem guarded_error_ne {lib : Nlohmann R} {prelude : String} {e : Exc} {text : Bytes} :
    guarded lib prelude (.error e) ≠ .reply ⟨some 0, text⟩ := by
  intro h
  have hcode : some (0 : ℤ) = some 1 := guarded_error_reply h
  exact absurd hcode (by decide)

theorem guarded_success {lib : Nlohmann R} {prelude : String} {x : Except Exc Reply} {text : Bytes}
    (h : guarded lib prelude x = .reply ⟨some 0, text⟩) : x = .ok ⟨some 0, text⟩ := by
  cases x with
  | ok r =>
    cases h
    rfl
  | error e => exact absurd h guarded_error_ne

theorem start_answered [Double R] {env : Env R} {method path body text : Bytes} {q : StartRequest}
    (hq : startOf env.lib method path body = some q) {c : Core R}
    (h : (handle env method path body c).1 = .reply ⟨some 0, text⟩) :
    (handle env method path body c).2.records.activeRecord = q.recordPath env c ∧
      ∃ answer, responseJson env.lib 0 q.message (quoted "record_path" (q.recordPath env c)) =
        some answer ∧ text = env.lib.dump answer := by
  rw [handle_start hq] at h ⊢
  by_cases ha : c.status.taskActive
  · rw [runSteps_conflict env q ha] at h
    obtain ⟨answer, -, hr⟩ := makeResponse_dumps (guarded_success h)
    cases hr
  have hidle : c.status.taskActive = false := by simpa using ha
  have hpath : q.recordPath env (q.begun c) = q.recordPath env c := by
    rw [StartRequest.recordPath, StartRequest.begun_records]
    rfl
  rw [runSteps_start env q hidle] at h ⊢
  rw [finish_core]
  unfold StartRequest.outcome at h
  split at h
  · exact absurd h guarded_error_ne
  rename_i hcreated
  refine ⟨(outcome_activeRecord hcreated).trans hpath, ?_⟩
  split at h
  · cases h
  split at h
  · exact absurd h guarded_error_ne
  rw [hpath] at h
  obtain ⟨answer, hanswer, hr⟩ := makeResponse_dumps (guarded_success h)
  cases hr
  exact ⟨answer, hanswer, rfl⟩

/-- The answer dumps an object whose data is the path of the record that is active then. -/
def AnswersPath [Double R] (env : Env R) (method path body : Bytes) (q : StartRequest) (c : Core R)
    (text : Bytes) : Prop :=
  ∃ answer, responseJson env.lib 0 q.message (quoted "record_path" (q.recordPath env c)) =
    some answer ∧ text = env.lib.dump answer ∧
    HoldsPath answer (handle env method path body c).2.records.activeRecord

theorem start_answer_path [Double R] {env : Env R} {numeral : Bytes → Option (ℤ ⊕ R)}
    (hreads : env.lib.ReadsJson numeral) {method path body text : Bytes} {q : StartRequest}
    (hq : startOf env.lib method path body = some q) {c : Core R}
    (h : (handle env method path body c).1 = .reply ⟨some 0, text⟩) :
    AnswersPath env method path body q c text ↔ q.NeedsNoEscape c := by
  obtain ⟨hactive, answer, hanswer, htext⟩ := start_answered hq h
  rw [AnswersPath, hactive, ← StartRequest.plainText_recordPath env q c,
    ← holdsPath_iff hreads hanswer]
  constructor
  · rintro ⟨other, hother, -, hpath⟩
    cases hanswer.symm.trans hother
    exact hpath
  · exact fun hpath => ⟨answer, hanswer, htext, hpath⟩

/-- A start with room on the disk and a thread for the capture loop succeeds. -/
theorem start_success [Double R] {env : Env R} {method path body : Bytes} {q : StartRequest}
    (hq : startOf env.lib method path body = some q) (c : Core R)
    (ha : c.status.taskActive = false) (hcreated : (q.created env c).2 = none)
    (hjoined : c.preprocess.join.isSome) (hspawn : env.spawn = none) :
    ∃ text, (handle env method path body c).1 = .reply ⟨some 0, text⟩ := by
  obtain ⟨joined, hj⟩ := Option.isSome_iff_exists.1 hjoined
  obtain ⟨text, ht⟩ := makeResponse_ok env.lib 0 (validUtf8_bytes q.message)
    (quoted_valid "record_path" (q.recordPath env (q.begun c)))
  refine ⟨text, ?_⟩
  rw [handle_start hq, runSteps_start env q ha, StartRequest.outcome,
    StartRequest.created_begun, hcreated, StartRequest.begun_preprocess, hj, hspawn]
  simp only [finish, StartRequest.reply, ht, guarded]

def readerLib : Nlohmann ℤ :=
  { plainLib toString with
    parse := fun b =>
      match readJson (fun _ => none) b with
      | some j => .ok j
      | none => .error (bytes "syntax error") }

theorem readerLib_reads : readerLib.ReadsJson fun _ => none where
  parse_iff b j _ := by
    simp only [readerLib]
    cases readJson (fun _ => none) b <;> simp

def readerEnv : Env ℤ := { plainEnv [] with lib := readerLib }

def taskBody (written : String) : Bytes :=
  bytes ("\x7b\"station_id\":\"S\",\"escalator_id\":\"E\",\"task_id\":\"" ++ written ++ "\"\x7d")

theorem startOf_taskBody :
    startOf readerEnv.lib (bytes "POST") (bytes "/StartInspection") (taskBody "T1") =
      some (.inspection ⟨"S", "E", "T1"⟩) := rfl

theorem startOf_taskBody_quote :
    startOf readerEnv.lib (bytes "POST") (bytes "/StartInspection") (taskBody "a\\\"b") =
      some (.inspection ⟨"S", "E", "a\"b"⟩) := rfl

theorem start_answer_path_plain : ∃ text,
    (handle readerEnv (bytes "POST") (bytes "/StartInspection") (taskBody "T1") bootCore).1 =
      .reply ⟨some 0, text⟩ ∧
    AnswersPath readerEnv (bytes "POST") (bytes "/StartInspection") (taskBody "T1")
      (.inspection ⟨"S", "E", "T1"⟩) bootCore text := by
  obtain ⟨text, h⟩ := start_success startOf_taskBody bootCore rfl rfl rfl rfl
  refine ⟨text, h, (start_answer_path readerLib_reads startOf_taskBody h).2 ?_⟩
  have hroot : PlainText bootCore.records.rootPath := by decide +kernel
  have hids : PlainText "S" ∧ PlainText "E" ∧ PlainText "T1" := by decide +kernel
  exact ⟨hroot, by simpa [StartRequest.namedIds] using hids⟩

/-- A quotation mark in the task id ends the string, and the data is no object at all. -/
theorem start_answer_path_quote : ∃ text,
    (handle readerEnv (bytes "POST") (bytes "/StartInspection") (taskBody "a\\\"b") bootCore).1 =
      .reply ⟨some 0, text⟩ ∧
    ¬ AnswersPath readerEnv (bytes "POST") (bytes "/StartInspection") (taskBody "a\\\"b")
      (.inspection ⟨"S", "E", "a\"b"⟩) bootCore text := by
  obtain ⟨text, h⟩ := start_success startOf_taskBody_quote bootCore rfl rfl rfl rfl
  refine ⟨text, h, ?_⟩
  rintro ⟨answer, hanswer, -, hpath⟩
  rw [(start_answered startOf_taskBody_quote h).1, holdsPath_iff readerLib_reads hanswer,
    StartRequest.plainText_recordPath] at hpath
  have hquote : ¬ PlainText "a\"b" := by decide +kernel
  exact hquote (hpath.2 _ (by simp [StartRequest.namedIds]))

end EcidsCore
