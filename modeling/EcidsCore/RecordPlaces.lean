import EcidsCore.PathContainment
import EcidsCore.RecordNames
import EcidsCore.Timestamp

set_option autoImplicit false

/-! Where the record directories lie. A place is made of the database's own, three directories
of the day, one directory named after the time and the kind of task, and what the identifiers
add to it. -/
namespace EcidsCore
open ByteText PathResolution

def place (cwd : List Bytes) (path : String) : List Bytes := resolvedPath cwd (cPath (bytes path))

def Solid (c : Bytes) : Prop := ¬ Stays fullStop c ∧ ¬ Climbs fullStop c

theorem solid_of_mem {c : Bytes} {b : UInt8} (h : b ∈ c) (hb : b ≠ fullStop) : Solid c := by
  constructor
  · rintro (rfl | rfl)
    · cases h
    · exact hb (List.mem_singleton.1 h)
  · rintro rfl
    simp only [List.mem_cons, List.not_mem_nil, or_false, or_self] at h
    exact hb h

def dayDirs (t : TimeParts) : List Bytes :=
  [bytes (padded 4 t.year), bytes (padded 4 t.year ++ "-" ++ padded 2 t.month),
    bytes (padded 4 t.year ++ "-" ++ padded 2 t.month ++ "-" ++ padded 2 t.day)]

theorem bytes_datePath (t : TimeParts) : bytes (dbDatePathFromParts t) =
    bytes (padded 4 t.year) ++ slash :: (bytes (padded 4 t.year ++ "-" ++ padded 2 t.month) ++
      slash :: bytes (padded 4 t.year ++ "-" ++ padded 2 t.month ++ "-" ++ padded 2 t.day)) := by
  simp only [dbDatePathFromParts, bytes_append, List.append_assoc]
  rfl

section Digits

theorem not_mem_dashed {b : UInt8} (hd : b ≠ dash) {s t : String}
    (hs : b ∉ bytes s) (ht : b ∉ bytes t) : b ∉ bytes (s ++ "-" ++ t) := by
  rw [bytes_append, bytes_append, bytes_dash]
  simp only [List.mem_append, List.mem_singleton, not_or]
  exact ⟨⟨hs, hd⟩, ht⟩

theorem not_mem_folderPart {b : UInt8} (h : b < 0x30) (hd : b ≠ dash) (t : TimeParts) :
    b ∉ bytes (dbFolderPartFromParts t) := by
  unfold dbFolderPartFromParts
  have hpad := not_mem_padded h
  exact not_mem_dashed hd (not_mem_dashed hd (not_mem_dashed hd (not_mem_dashed hd
    (not_mem_dashed hd (hpad 4 _) (hpad 2 _)) (hpad 2 _)) (hpad 0 _)) (hpad 2 _)) (hpad 2 _)

end Digits

namespace StartRequest
variable (t : TimeParts) (q : StartRequest)

def head : Bytes := bytes (q.namePrefix ++ dbFolderPartFromParts t)

def idParts : List Bytes := components slash (cPath (bytes q.idPart))

/-- The identifiers never leave the directory that is named after the time. -/
def StaysInside : Prop := (depth fullStop 0 q.idParts.tail).isSome

instance : Decidable q.StaysInside := inferInstanceAs (Decidable (_ = true))

def idPlace : Bytes × List Bytes := (q.idParts.headD [], resolve fullStop [] q.idParts.tail)

theorem idParts_eq : q.idParts = q.idParts.headD [] :: q.idParts.tail := by
  cases h : q.idParts with
  | nil => exact absurd h (List.splitOn_ne_nil slash _)
  | cons first rest => rfl

theorem not_mem_head {b : UInt8} (h : b < 0x30) (hd : b ≠ dash)
    (hkindText : b ∉ bytes q.namePrefix) : b ∉ q.head t := by
  rw [head, bytes_append, List.mem_append, not_or]
  exact ⟨hkindText, not_mem_folderPart h hd t⟩

theorem nul_not_mem_head : 0 ∉ q.head t := by
  apply q.not_mem_head t (by decide) (by decide)
  cases q <;> exact of_decide_eq_true rfl

theorem slash_not_mem_head : slash ∉ q.head t := by
  apply q.not_mem_head t (by decide) (by decide)
  cases q <;> exact of_decide_eq_true rfl

theorem head_solid (a : Bytes) : Solid (q.head t ++ a) := by
  have hmem : (0x28 : UInt8) ∈ bytes q.namePrefix := by
    cases q <;> exact of_decide_eq_true rfl
  apply solid_of_mem (b := 0x28) _ (by decide)
  rw [head, bytes_append]
  exact List.mem_append_left _ (List.mem_append_left _ hmem)

end StartRequest

theorem dayDirs_solid (t : TimeParts) : ∀ c ∈ dayDirs t, Solid c := by
  have hyear : ∃ b ∈ bytes (padded 4 t.year), b ≠ fullStop := by
    have hne : bytes (padded 4 t.year) ≠ [] := by
      rw [bytes_padded, padded_toList]
      simp [Nat.toDigits_ne_nil]
    obtain ⟨b, hb⟩ := List.exists_mem_of_ne_nil _ hne
    refine ⟨b, hb, ?_⟩
    rintro rfl
    exact absurd (digits_ascii fullStop hb).1 (by decide)
  obtain ⟨b, hb, hne⟩ := hyear
  intro c hc
  apply solid_of_mem _ hne
  simp only [dayDirs, List.mem_cons, List.not_mem_nil, or_false] at hc
  rcases hc with rfl | rfl | rfl
  · exact hb
  · simp only [bytes_append, List.mem_append, hb, true_or]
  · simp only [bytes_append, List.mem_append, hb, true_or]

theorem not_mem_dayDirs {b : UInt8} (h : b < 0x30) (hd : b ≠ dash) (t : TimeParts) :
    ∀ c ∈ dayDirs t, b ∉ c := by
  have hpad := not_mem_padded h
  intro c hc
  simp only [dayDirs, List.mem_cons, List.not_mem_nil, or_false] at hc
  rcases hc with rfl | rfl | rfl
  · exact hpad 4 _
  · exact not_mem_dashed hd (hpad 4 _) (hpad 2 _)
  · exact not_mem_dashed hd (not_mem_dashed hd (hpad 4 _) (hpad 2 _)) (hpad 2 _)

theorem cPath_recordPath {root : String} (hroot : 0 ∉ bytes root) (t : TimeParts)
    (q : StartRequest) :
    cPath (bytes (root ++ "/" ++ dbDatePathFromParts t ++ "/" ++ q.recordName t)) =
      bytes root ++ slash :: (bytes (padded 4 t.year) ++ slash ::
        (bytes (padded 4 t.year ++ "-" ++ padded 2 t.month) ++ slash ::
          (bytes (padded 4 t.year ++ "-" ++ padded 2 t.month ++ "-" ++ padded 2 t.day) ++
            slash :: (q.head t ++ cPath (bytes q.idPart))))) := by
  have hday : ∀ c ∈ dayDirs t, 0 ∉ c := not_mem_dayDirs (by decide) (by decide) t
  have hname : bytes (q.recordName t) = q.head t ++ bytes q.idPart := by
    rw [q.recordName_eq, StartRequest.head, ← bytes_append, String.append_assoc]
  have hslash (a b : Bytes) (ha : 0 ∉ a) : cPath (a ++ slash :: b) = a ++ slash :: cPath b := by
    rw [cPath_append ha]
    rfl
  simp only [dayDirs, List.forall_mem_cons] at hday
  obtain ⟨hy, hm, hd, -⟩ := hday
  have hpath : bytes (root ++ "/" ++ dbDatePathFromParts t ++ "/" ++ q.recordName t) =
      bytes root ++
        slash :: (bytes (dbDatePathFromParts t) ++ slash :: bytes (q.recordName t)) := by
    simp only [bytes_append, bytes_slash, List.append_assoc, List.cons_append, List.nil_append]
  rw [hpath, bytes_datePath, hname, hslash _ _ hroot, List.append_assoc, List.cons_append,
    List.append_assoc, List.cons_append, hslash _ _ hy, hslash _ _ hm, hslash _ _ hd,
    cPath_append (q.nul_not_mem_head t)]

/-- The components of a record's path below its root: the directories of its day, the record's
own up to the first slash in an identifier, and what is behind that. -/
theorem components_recordPath {root : String} (hroot : 0 ∉ bytes root) (t : TimeParts)
    (q : StartRequest) :
    components slash (cPath (bytes (root ++ "/" ++ dbDatePathFromParts t ++ "/" ++
        q.recordName t))) =
      components slash (bytes root) ++ ((dayDirs t ++ [q.head t ++ q.idPlace.1]) ++
        q.idParts.tail) := by
  have hday : ∀ c ∈ dayDirs t, slash ∉ c := not_mem_dayDirs (by decide) (by decide) t
  have hone (c : Bytes) (hc : c ∈ dayDirs t) : components slash c = [c] :=
    List.splitOn_eq_singleton (hday c hc)
  have hids : components slash (q.head t ++ cPath (bytes q.idPart)) =
      (q.head t ++ q.idPlace.1) :: q.idParts.tail := by
    rw [components_append_left (q.slash_not_mem_head t)]
    change q.idParts.modifyHead _ = _
    rw [q.idParts_eq]
    rfl
  simp only [dayDirs, List.forall_mem_cons] at hone
  rw [cPath_recordPath hroot, components_append, components_append, components_append,
    components_append, hone.1, hone.2.1, hone.2.2.1, hids]
  rfl

/-- A record lies below the root in the directories of its day, in one named after its time
and kind, and further only where its identifiers lead. -/
theorem place_recordPath {root : String} (hroot : 0 ∉ bytes root) (hne : root ≠ "")
    (cwd : List Bytes) (t : TimeParts) {q : StartRequest} (hin : q.StaysInside) :
    place cwd (root ++ "/" ++ dbDatePathFromParts t ++ "/" ++ q.recordName t) =
      place cwd root ++ (dayDirs t ++ (q.head t ++ q.idPlace.1) :: q.idPlace.2) := by
  have hsolid : ∀ c ∈ dayDirs t ++ [q.head t ++ q.idPlace.1], Solid c := by
    intro c hc
    rcases List.mem_append.1 hc with hc | hc
    · exact dayDirs_solid t c hc
    · rw [List.mem_singleton.1 hc]
      exact q.head_solid t _
  have hhead : (cPath (bytes (root ++ "/" ++ dbDatePathFromParts t ++ "/" ++
      q.recordName t))).head? = (cPath (bytes root)).head? := by
    rw [cPath_recordPath hroot, cPath_of_plain hroot]
    exact List.head?_append_of_ne_nil _ fun h => hne (bytes_injective h)
  obtain ⟨e, he⟩ := Option.isSome_iff_exists.1 hin
  rw [place, place, resolvedPath, resolvedPath, hhead, components_recordPath hroot,
    cPath_of_plain hroot, resolve_append, resolve_append, resolve_solid hsolid]
  generalize resolve fullStop _ (components slash (bytes root)) = base
  have hbelow := (resolve_below he [] rfl).2 (base ++ (dayDirs t ++ [q.head t ++ q.idPlace.1]))
  rw [List.append_nil] at hbelow
  rw [hbelow, StartRequest.idPlace]
  simp only [List.append_assoc, List.singleton_append]

theorem timeTokens_inj {t u : TimeParts} (h : timeTokens t = timeTokens u) :
    t.year = u.year ∧ t.month = u.month ∧ t.day = u.day ∧ t.hour = u.hour ∧ t.min = u.min ∧
      t.sec = u.sec := by
  simp only [timeTokens, List.cons.injEq, and_true, bytes_injective.eq_iff,
    (padded_injective _).eq_iff] at h
  exact h

theorem timeTokens_length (t : TimeParts) : (timeTokens t).length = 6 := rfl

theorem dayDirs_length (t : TimeParts) : (dayDirs t).length = 3 := rfl

theorem folderPart_congr {t u : TimeParts} (h : timeTokens t = timeTokens u) :
    dbFolderPartFromParts t = dbFolderPartFromParts u := by
  obtain ⟨h1, h2, h3, h4, h5, h6⟩ := timeTokens_inj h
  rw [dbFolderPartFromParts, dbFolderPartFromParts, h1, h2, h3, h4, h5, h6]

theorem dayDirs_congr {t u : TimeParts} (h : timeTokens t = timeTokens u) :
    dayDirs t = dayDirs u := by
  obtain ⟨h1, h2, h3, -, -, -⟩ := timeTokens_inj h
  rw [dayDirs, dayDirs, h1, h2, h3]

theorem namePrefix_congr {q v : StartRequest} (h : q.isAiTest = v.isAiTest) :
    q.namePrefix = v.namePrefix := by
  cases q <;> cases v <;> first | rfl | cases h

theorem StartRequest.idPlace_dash (q : StartRequest) :
    q.idPlace.1 = [] ∨ ∃ m, q.idPlace.1 = dash :: m := by
  have hpart : q.idPart = "" ∨ ∃ s, q.idPart = "-" ++ s := by
    cases q with
    | inspection i =>
      right
      exact ⟨i.stationId ++ "-" ++ i.escalatorId ++ "-" ++ i.taskId, by
        simp only [idPart, String.append_assoc]⟩
    | aiTest a =>
      dsimp only [idPart]
      split
      · exact .inl rfl
      · exact .inr ⟨_, String.append_assoc⟩
  rcases hpart with h | ⟨s, h⟩
  · left
    rw [idPlace, idParts, h]
    rfl
  · right
    have hparts : q.idParts = (components slash (cPath (bytes s))).modifyHead ([dash] ++ ·) := by
      rw [idParts, h, bytes_append, bytes_dash, cPath_append (by decide)]
      exact components_append_left (by decide) _
    rw [idPlace, hparts]
    cases hs : components slash (cPath (bytes s)) with
    | nil => exact absurd hs (List.splitOn_ne_nil slash _)
    | cons first rest => exact ⟨first, rfl⟩

theorem head_append_inj {t u : TimeParts} {q v : StartRequest}
    (h : q.head t ++ q.idPlace.1 = v.head u ++ v.idPlace.1) :
    q.isAiTest = v.isAiTest ∧ timeTokens t = timeTokens u ∧ q.idPlace.1 = v.idPlace.1 := by
  have hkind : q.isAiTest = v.isAiTest := by
    have hcong := congrArg isAiTestName h
    simp only [StartRequest.head, bytes_append, List.append_assoc,
      StartRequest.isAiTestName_append] at hcong
    exact hcong
  have hkindText := namePrefix_congr hkind
  have htokens (w : TimeParts) (p : StartRequest) : ∃ more,
      (bytes (dbFolderPartFromParts w) ++ p.idPlace.1).splitOn dash = timeTokens w ++ more := by
    rcases p.idPlace_dash with hnil | ⟨m, hm⟩
    · exact ⟨[], by rw [hnil, List.append_nil, List.append_nil, splitOn_folderPart]⟩
    · exact ⟨m.splitOn dash, by rw [hm, List.splitOn_append_cons_self, splitOn_folderPart]⟩
  obtain ⟨more, hmore⟩ := htokens t q
  obtain ⟨more', hmore'⟩ := htokens u v
  have hrest : bytes (dbFolderPartFromParts t) ++ q.idPlace.1 =
      bytes (dbFolderPartFromParts u) ++ v.idPlace.1 := by
    rw [StartRequest.head, StartRequest.head, hkindText, bytes_append, bytes_append,
      List.append_assoc, List.append_assoc] at h
    exact List.append_cancel_left h
  have htime : timeTokens t = timeTokens u := by
    have hlength := (timeTokens_length t).trans (timeTokens_length u).symm
    rw [hrest, hmore'] at hmore
    exact (List.append_inj hmore.symm hlength).1
  rw [folderPart_congr htime] at hrest
  exact ⟨hkind, htime, List.append_cancel_left hrest⟩

section Places
variable {root : String} {cwd : List Bytes} {t u : TimeParts} {q v : StartRequest}

/-- The records are of one kind and of one second, and their identifiers lead to one place. -/
def SameName (t : TimeParts) (q : StartRequest) (u : TimeParts) (v : StartRequest) : Prop :=
  q.isAiTest = v.isAiTest ∧ timeTokens t = timeTokens u ∧ q.idPlace = v.idPlace

instance : Decidable (SameName t q u v) := inferInstanceAs (Decidable (_ ∧ _ ∧ _))

theorem sameHead_of_below {base a b : List Bytes}
    (h : base ++ (dayDirs t ++ (q.head t ++ q.idPlace.1) :: a) =
      base ++ (dayDirs u ++ (v.head u ++ v.idPlace.1) :: b)) :
    q.isAiTest = v.isAiTest ∧ timeTokens t = timeTokens u ∧ q.idPlace.1 = v.idPlace.1 ∧ a = b := by
  have hlength := (dayDirs_length t).trans (dayDirs_length u).symm
  have hrest := (List.append_inj (List.append_cancel_left h) hlength).2
  obtain ⟨hname, hbelow⟩ := List.cons.inj hrest
  obtain ⟨hkind, htime, hids⟩ := head_append_inj hname
  exact ⟨hkind, htime, hids, hbelow⟩

theorem place_eq_iff (hroot : 0 ∉ bytes root) (hne : root ≠ "") (hq : q.StaysInside)
    (hv : v.StaysInside) :
    place cwd (root ++ "/" ++ dbDatePathFromParts t ++ "/" ++ q.recordName t) =
        place cwd (root ++ "/" ++ dbDatePathFromParts u ++ "/" ++ v.recordName u) ↔
      SameName t q u v := by
  rw [place_recordPath hroot hne cwd t hq, place_recordPath hroot hne cwd u hv]
  constructor
  · intro h
    obtain ⟨hkind, htime, hids, hbelow⟩ := sameHead_of_below h
    exact ⟨hkind, htime, Prod.ext hids hbelow⟩
  · rintro ⟨hkind, htime, hids⟩
    rw [hids, dayDirs_congr htime, StartRequest.head, StartRequest.head, folderPart_congr htime,
      namePrefix_congr hkind]

/-- A file saved in a record; a path with a NUL in it names a directory and is not opened. -/
structure SavedIn (path : String) (q : StartRequest) (r : DBWriteRequest) : Prop where
  recordPath : r.recordPath = path
  subfolder : r.subfolder ∈ if q.isAiTest then [""] else ["installation", "inspection", "marking"]
  plain : PlainNames r
  opened : 0 ∉ bytes (savePath r)

def belowRecord (q : StartRequest) (r : DBWriteRequest) : List Bytes :=
  (if q.isAiTest then [] else [bytes r.subfolder]) ++ [bytes (fileName r)]

theorem fileName_solid (r : DBWriteRequest) : Solid (bytes (fileName r)) :=
  solid_of_mem (underscore_mem_fileName r) (by decide)

theorem phase_solid : ∀ s ∈ ["installation", "inspection", "marking"],
    components slash (bytes s) = [bytes s] ∧ Solid (bytes s) := by
  unfold Solid
  decide

theorem location_savedIn {path : String} {r : DBWriteRequest} (hpath : path ≠ "")
    (h : SavedIn path q r) : location cwd r = place cwd path ++ belowRecord q r := by
  have hsave : bytes (savePath r) =
      bytes path ++ slash :: (bytes r.subfolder ++ slash :: bytes (fileName r)) := by
    rw [savePath, saveDir, h.recordPath]
    simp only [bytes_append, bytes_slash, List.append_assoc, List.cons_append, List.nil_append]
  have hopened := h.opened
  rw [hsave] at hopened
  have hnul : 0 ∉ bytes path := fun hm => hopened (List.mem_append_left _ hm)
  have hhead : (bytes (savePath r)).head? = (bytes path).head? := by
    rw [hsave]
    exact List.head?_append_of_ne_nil _ fun he => hpath (bytes_injective he)
  have hfile : components slash (bytes (fileName r)) = [bytes (fileName r)] :=
    List.splitOn_eq_singleton (slash_not_mem_fileName h.plain)
  have hsub := h.subfolder
  rw [location, place, resolvedPath, resolvedPath, cPath_of_plain hnul, hhead, hsave,
    components_append, components_append, hfile, resolve_append, resolve_append]
  generalize resolve fullStop _ (components slash (bytes path)) = dir
  have hfileSolid : ∀ c ∈ [bytes (fileName r)], Solid c := by
    intro c hc
    rw [List.mem_singleton.1 hc]
    exact fileName_solid r
  rw [resolve_solid hfileSolid, belowRecord]
  cases hkind : q.isAiTest with
  | true =>
    rw [hkind, if_pos rfl, List.mem_singleton] at hsub
    rw [hsub]
    rfl
  | false =>
    rw [hkind] at hsub
    obtain ⟨hone, hsolid⟩ := phase_solid _ hsub
    rw [hone, resolve_solid fun c hc => by rw [List.mem_singleton.1 hc]; exact hsolid]
    simp only [Bool.false_eq_true, if_false, List.append_assoc]

theorem files_apart (hroot : 0 ∉ bytes root) (hne : root ≠ "") (hq : q.StaysInside)
    (hv : v.StaysInside) {r r' : DBWriteRequest}
    (hr : SavedIn (root ++ "/" ++ dbDatePathFromParts t ++ "/" ++ q.recordName t) q r)
    (hr' : SavedIn (root ++ "/" ++ dbDatePathFromParts u ++ "/" ++ v.recordName u) v r')
    (happart : ¬ SameName t q u v) : location cwd r ≠ location cwd r' := by
  have hpath (w : TimeParts) (p : StartRequest) :
      root ++ "/" ++ dbDatePathFromParts w ++ "/" ++ p.recordName w ≠ "" := by
    intro h
    have hlen := congrArg (fun s => (bytes s).length) h
    simp only [bytes_append, List.length_append] at hlen
    have hslash : (bytes "/").length = 1 := rfl
    have hempty : (bytes "").length = 0 := rfl
    omega
  intro h
  rw [location_savedIn (hpath t q) hr, location_savedIn (hpath u v) hr',
    place_recordPath hroot hne cwd t hq, place_recordPath hroot hne cwd u hv] at h
  simp only [List.append_assoc, List.cons_append] at h
  obtain ⟨hkind, htime, hids, hbelow⟩ := sameHead_of_below h
  have hlength : (belowRecord q r).length = (belowRecord v r').length := by
    rw [belowRecord, belowRecord, hkind]
    cases v.isAiTest <;> rfl
  exact happart ⟨hkind, htime, Prod.ext hids (List.append_inj' hbelow hlength).1⟩

end Places

end EcidsCore
