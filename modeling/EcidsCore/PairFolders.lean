import EcidsCore.PendingRuns

set_option autoImplicit false

/-! The subfolders that the files of one pair are placed in. The sub-task is read when a pair
is published, and again when its request is entered into the table. -/
namespace EcidsCore
open GuardedRuns PreprocessModule PostprocessModule

variable {R : Type}

/-- The subfolder that `current_subfolder_` assigns to a sub-task. -/
def subfolderOf : InspectionSubTask → String
  | .installation => "installation"
  | .gapInspection => "inspection"
  | .marking => "marking"
  | .none => "inspection"

theorem currentSubfolder_eq (m : PreprocessModule R) :
    m.currentSubfolder = subfolderOf m.subTask := by
  rw [currentSubfolder]
  cases m.subTask <;> rfl

theorem inspectionSubfolder_eq_iff (sub : InspectionSubTask) :
    inspectionSubfolder sub = subfolderOf sub ↔ sub ≠ .marking := by
  cases sub <;> decide

structure Writes.PlacedIn (sub : String) (w : Writes) : Prop where
  enqueued : ∀ c ∈ w.enqueued, c.subfolder = sub
  saved : ∀ r ∈ w.saved, r.subfolder = sub

theorem Writes.placedIn_nil (sub : String) : ({} : Writes).PlacedIn sub :=
  ⟨List.forall_mem_nil _, List.forall_mem_nil _⟩

theorem Writes.PlacedIn.requests {sub : String} {w : Writes} (h : w.PlacedIn sub) :
    ∀ r ∈ w.requests, r.subfolder = sub := by
  intro r hr
  rcases List.mem_append.1 hr with hr | hr
  · obtain ⟨c, hc, hreq⟩ := List.mem_filterMap.1 hr
    exact (EnqueueCall.request?_subfolder hreq).trans (h.enqueued c hc)
  · exact h.saved r hr

theorem Writes.Filed.placedIn {sub : String} {n : ℕ} {w : Writes} (h : w.Filed sub n) :
    w.PlacedIn sub :=
  ⟨fun c hc => (h.enqueued c hc).1, fun r hr => (h.saved r hr).1⟩

theorem process_placedIn [Double R] (lib : Nlohmann R) (vis : Vision R)
    (activeRecord station escalator : String) (a : CallbackArgs R) (m : PostprocessModule R) :
    (m.process lib vis activeRecord station escalator a).2.2.PlacedIn
      (inspectionSubfolder a.subTask) := by
  cases hs : (m.skipsGap a.response a.subTask).1 with
  | true =>
    rw [process_skipped hs]
    exact Writes.placedIn_nil _
  | false =>
    obtain ⟨result, hr⟩ := process_saved lib vis activeRecord station escalator hs
    rw [hr]
    exact (saveResult_filed lib activeRecord a result m).placedIn

/-- `process_pair_` saves the images of a pair itself: in file mode, with a dealer, a record manager
and an active record. -/
def SavesImages (m : PreprocessModule R) : Prop :=
  m.aiMode ≠ .binary ∧ m.wired.dealer ∧ m.wired.recordMgr ∧ m.activeRecordPath ≠ ""

instance (m : PreprocessModule R) : Decidable (SavesImages m) :=
  inferInstanceAs (Decidable (_ ∧ _))

theorem publishPair_placed {img : Imaging R} {ts : String} {left right : DataBundle} {wd : R}
    {m : PreprocessModule R} {x : PreprocessModule R × Published R}
    (h : m.publishPair img ts left right wd = some x) :
    x.2.pair.fromFile = false ∧ (∀ r ∈ x.2.saved, r.subfolder = subfolderOf m.subTask) ∧
      (x.2.saved ≠ [] ↔ SavesImages m) := by
  dsimp only [publishPair] at h
  rw [currentSubfolder_eq] at h
  unfold SavesImages
  split at h
  · cases h
  · cases h
    split
    · rename_i hbinary
      exact ⟨rfl, List.forall_mem_nil _, by simp [hbinary.1]⟩
    · rename_i hbinary
      split
      · rename_i hfile
        refine ⟨rfl, ?_, ?_⟩
        · intro r hr
          generalize (if right.data = [] then [] else encodeJpegForStorage img right.data) = rEnc
            at hr
          rcases List.mem_cons.1 hr with rfl | hr
          · rfl
          · by_cases hempty : rEnc = []
            · rw [if_pos hempty] at hr
              cases hr
            · rw [if_neg hempty] at hr
              rw [List.mem_singleton.1 hr]
              rfl
        · exact iff_of_true (List.cons_ne_nil _ _)
            ⟨fun hb => hbinary ⟨hb, hfile.1⟩, hfile.1, hfile.2.2, hfile.2.1⟩
      · rename_i hfile
        refine ⟨rfl, List.forall_mem_nil _, iff_of_false (fun h => h rfl) ?_⟩
        rintro ⟨-, hdealer, hmgr, hrecord⟩
        exact hfile ⟨hdealer, hrecord, hmgr⟩

/-- A table entry of the capture loop, with the sub-task read when its pair was published, whether
images are saved then, and these images. -/
structure PlacedPair (R : Type) where
  entry : PendingRequest R
  read : InspectionSubTask
  saves : Bool
  files : List DBWriteRequest

/-- The module with a record of the pairs of the task; `read`, `saves` and `files` are those of
the pair in flight. -/
structure FolderSystem (R : Type) where
  system : PendingSystem R
  read : InspectionSubTask := .none
  saves : Bool := false
  files : List DBWriteRequest := []
  placed : List (PlacedPair R) := []

namespace FolderSystem

def published (x : PreprocessModule R × Published R) (s : FolderSystem R) : FolderSystem R :=
  { s with
    read := s.system.module.subTask, saves := decide (SavesImages s.system.module),
    files := x.2.saved }

def inserted (p : PairInFlight R) (s : FolderSystem R) : FolderSystem R :=
  if p.fromFile then s
  else { s with placed := s.placed ++
    [⟨p.entry s.system.module.subTask s.system.clock, s.read, s.saves, s.files⟩] }

def recorded (img : Imaging R) (s : FolderSystem R) : PendingAction R → FolderSystem R
  | .publishPair ts left right wd =>
    (s.system.module.publishPair img ts left right wd).elim s fun x => s.published x
  | .insert => s.system.inFlight.elim s fun p => s.inserted p
  | .startInspection _ | .startAiTest .. => { s with placed := [] }
  | _ => s

def step [Double R] (img : Imaging R) (lib : Nlohmann R) (s : FolderSystem R)
    (a : PendingAction R) : Option (FolderSystem R) :=
  (s.system.step img lib a).map fun t => { s.recorded img a with system := t }

/-- All files of the pair are in the subfolder of the sub-task recorded for it: those saved as
it was published, those of the response, and those of the postprocess module. -/
structure FilesTogether [Double R] (lib : Nlohmann R) (m : PreprocessModule R)
    (resp : DetectionResponse R) (q : PlacedPair R) : Prop where
  published : ∀ r ∈ q.files, r.subfolder = subfolderOf q.entry.subTask
  answered : ∀ r ∈ (m.resultWrites lib (argsOf resp q.entry)).requests,
    r.subfolder = subfolderOf q.entry.subTask
  processed : ∀ (post : PostprocessModule R) vis activeRecord station escalator,
    ∀ r ∈ (post.process lib vis activeRecord station escalator (argsOf resp q.entry)).2.2.requests,
      r.subfolder = subfolderOf q.entry.subTask

/-- The entry that a response takes, with the record of its pair. -/
def Takes (s : FolderSystem R) (resp : DetectionResponse R) (q : PlacedPair R) : Prop :=
  ∃ rest, takePending s.system.clock resp.transactionId s.system.module.pending =
    (.request q.entry, rest) ∧ q ∈ s.placed

def OneFolder [Double R] (lib : Nlohmann R) (s : FolderSystem R) : PendingAction R → Prop
  | .deliver resp => ∀ q, s.Takes resp q → FilesTogether lib s.system.module resp q
  | _ => True

/-- The sub-task recorded for the pair is not marking and, where `process_pair_` saved its images,
the one that was read then has the same subfolder. -/
def FolderKept (s : FolderSystem R) : PendingAction R → Prop
  | .deliver resp => ∀ q, s.Takes resp q → q.entry.subTask ≠ .marking ∧
      (q.saves = true → subfolderOf q.read = subfolderOf q.entry.subTask)
  | _ => True

/-- The images of a pair lie where its sub-task said as it was read, and no pair of the capture
loop is there during an AI test. -/
structure Consistent (s : FolderSystem R) : Prop where
  placed : ∀ q ∈ s.placed,
    (∀ r ∈ q.files, r.subfolder = subfolderOf q.read) ∧ (q.files ≠ [] ↔ q.saves = true)
  inFlight : ∀ p, s.system.inFlight = some p → p.fromFile = false →
    (∀ r ∈ s.files, r.subfolder = subfolderOf s.read) ∧ (s.files ≠ [] ↔ s.saves = true)
  aiTest : s.system.module.aiTestMode = true → s.placed = [] ∧
    (∀ p, s.system.inFlight = some p → p.fromFile = true) ∧
    ∀ alive, s.system.module.thread ≠ some ⟨.inspection, alive⟩

variable {s t : FolderSystem R}

theorem consistent_of_same (hs : s.Consistent) (hplaced : t.placed = s.placed)
    (hfiles : t.files = s.files) (hread : t.read = s.read) (hsaves : t.saves = s.saves)
    (hflight : t.system.inFlight = s.system.inFlight)
    (hmode : t.system.module.aiTestMode = true → s.system.module.aiTestMode = true ∧
      ∀ alive, t.system.module.thread = some ⟨.inspection, alive⟩ →
        ∃ alive', s.system.module.thread = some ⟨.inspection, alive'⟩) : t.Consistent := by
  constructor
  · rw [hplaced]
    exact hs.placed
  · rw [hflight, hfiles, hread, hsaves]
    exact hs.inFlight
  · intro htest
    obtain ⟨hwas, hthread⟩ := hmode htest
    obtain ⟨hnone, hfile, hloop⟩ := hs.aiTest hwas
    rw [hplaced, hflight]
    refine ⟨hnone, hfile, ?_⟩
    intro alive halive
    obtain ⟨alive', h⟩ := hthread alive halive
    exact hloop alive' h

theorem joined_module {s : PendingSystem R} {m : PreprocessModule R} (h : s.joined = some m) :
    m.thread = none ∧ m.aiTestMode = s.module.aiTestMode := by
  unfold PendingSystem.joined at h
  split at h
  · obtain ⟨⟨m', b⟩, hj, rfl⟩ := Option.map_eq_some_iff.1 h
    unfold PreprocessModule.join at hj
    split at hj
    · cases hj
      exact ⟨‹_›, rfl⟩
    · cases hj
      exact ⟨rfl, rfl⟩
    · split at hj
      · cases hj
      · cases hj
        exact ⟨rfl, rfl⟩
  · cases h

theorem consistent_stop (hs : s.Consistent) (finish : PreprocessModule R → PreprocessModule R)
    (hthread : ∀ m, (finish m).thread = m.thread)
    (hmode : ∀ m, (finish m).aiTestMode = true → m.aiTestMode = true) {u : PendingSystem R}
    (h : s.system.stopTask finish = some u) : Consistent { s with system := u } := by
  obtain ⟨m, hj, rfl⟩ := Option.map_eq_some_iff.1 h
  obtain ⟨hnone, hsame⟩ := joined_module hj
  refine consistent_of_same hs rfl rfl rfl rfl rfl ?_
  intro htest
  refine ⟨?_, ?_⟩
  · have hwas := hmode m htest
    rwa [hsame] at hwas
  · intro alive halive
    change (finish m).thread = _ at halive
    rw [hthread, hnone] at halive
    cases halive

variable [Double R] {img : Imaging R} {lib : Nlohmann R} {a : PendingAction R}

theorem consistent_publishPair {ts : String} {left right : DataBundle} {wd : R}
    {u : PendingSystem R} (hs : s.Consistent)
    (hu : s.system.step img lib (.publishPair ts left right wd) = some u) :
    Consistent { s.recorded img (.publishPair ts left right wd) with system := u } := by
  rw [PendingSystem.step] at hu
  split_ifs at hu with hidle
  cases hpub : s.system.module.publishPair img ts left right wd with
  | none =>
    rw [hpub] at hu
    cases hu
    simp only [recorded, hpub, Option.elim_none]
    exact hs
  | some x =>
    rw [hpub] at hu
    cases hu
    simp only [recorded, hpub, Option.elim_some]
    obtain ⟨hpair, hfiles, hsaves⟩ := publishPair_placed hpub
    refine ⟨hs.placed, fun _ _ _ => ⟨hfiles, hsaves.trans decide_eq_true_iff.symm⟩, ?_⟩
    intro htest
    have hmode : s.system.module.aiTestMode = true := by
      dsimp only [publishPair] at hpub
      split at hpub <;> cases hpub
      exact htest
    exact absurd hidle.2 ((hs.aiTest hmode).2.2 true)

theorem consistent_publishFile {ts left right : String} {u : PendingSystem R}
    (hs : s.Consistent) (hu : s.system.step img lib (.publishFile ts left right) = some u) :
    Consistent { s.recorded img (.publishFile ts left right) with system := u } := by
  rw [PendingSystem.step] at hu
  split_ifs at hu with hidle
  cases hu
  refine ⟨hs.placed, ?_, ?_⟩
  · intro p hp hfile
    cases hp
    cases hfile
  · intro htest
    obtain ⟨hnone, -, hloop⟩ := hs.aiTest htest
    refine ⟨hnone, ?_, hloop⟩
    intro p hp
    cases hp
    rfl

theorem consistent_insert {u : PendingSystem R} (hs : s.Consistent)
    (hu : s.system.step img lib .insert = some u) :
    Consistent { s.recorded img .insert with system := u } := by
  obtain ⟨p, hp, rfl⟩ := Option.map_eq_some_iff.1 hu
  simp only [recorded, hp, Option.elim_some, inserted]
  have hnone (q : PairInFlight R) : (none : Option (PairInFlight R)) ≠ some q :=
    (Option.some_ne_none q).symm
  split_ifs with hfile
  · refine ⟨hs.placed, fun q hq => absurd hq (hnone q), ?_⟩
    intro htest
    obtain ⟨hplaced, -, hloop⟩ := hs.aiTest htest
    exact ⟨hplaced, fun q hq => absurd hq (hnone q), hloop⟩
  · have hpair : p.fromFile = false := by simpa using hfile
    refine ⟨?_, fun q hq => absurd hq (hnone q), ?_⟩
    · intro q hq
      rcases List.mem_append.1 hq with hq | hq
      · exact hs.placed q hq
      · rw [List.mem_singleton.1 hq]
        exact hs.inFlight p hp hpair
    · intro htest
      have hall := (hs.aiTest htest).2.1 p hp
      rw [hpair] at hall
      cases hall

theorem consistent_startAiTest {data path : String} {found : Bool} {u : PendingSystem R}
    (hs : s.Consistent) (hu : s.system.step img lib (.startAiTest data path found) = some u) :
    Consistent { s.recorded img (.startAiTest data path found) with system := u } := by
  obtain ⟨m, hj, rfl⟩ := Option.map_eq_some_iff.1 hu
  refine ⟨List.forall_mem_nil _, hs.inFlight, fun _ => ⟨rfl, ?_, ?_⟩⟩
  · intro p hp
    change s.system.inFlight = some p at hp
    rw [(PendingSystem.joined_pending hj).1] at hp
    cases hp
  · intro alive halive
    cases halive

theorem consistent_step (hs : s.Consistent) (h : s.step img lib a = some t) : t.Consistent := by
  obtain ⟨u, hu, rfl⟩ := Option.map_eq_some_iff.1 h
  have hsame (m : PreprocessModule R) (hm : m.aiTestMode = s.system.module.aiTestMode)
      (hth : m.thread = s.system.module.thread) : m.aiTestMode = true →
      s.system.module.aiTestMode = true ∧ ∀ alive, m.thread = some ⟨.inspection, alive⟩ →
        ∃ alive', s.system.module.thread = some ⟨.inspection, alive'⟩ := by
    rw [hm, hth]
    exact fun htest => ⟨htest, fun alive halive => ⟨alive, halive⟩⟩
  cases a
  case publishPair ts left right wd => exact consistent_publishPair hs hu
  case publishFile ts left right => exact consistent_publishFile hs hu
  case insert => exact consistent_insert hs hu
  case startAiTest data path found => exact consistent_startAiTest hs hu
  case startInspection path =>
    obtain ⟨m, hj, rfl⟩ := Option.map_eq_some_iff.1 hu
    refine ⟨List.forall_mem_nil _, hs.inFlight, ?_⟩
    intro htest
    cases htest
  case deliver resp =>
    cases hu
    obtain ⟨rest, hrest⟩ := onAiResult_module lib s.system.clock resp s.system.module
    refine consistent_of_same hs rfl rfl rfl rfl rfl (hsame _ ?_ ?_) <;> rw [hrest]
  case loopEnds =>
    rw [PendingSystem.step] at hu
    split_ifs at hu
    cases hu
    refine consistent_of_same hs rfl rfl rfl rfl rfl ?_
    intro htest
    refine ⟨htest, ?_⟩
    intro alive halive
    obtain ⟨th, hth, hkind⟩ := Option.map_eq_some_iff.1 halive
    obtain ⟨kind, alive'⟩ := th
    cases hkind
    exact ⟨alive', hth⟩
  case stopInspection =>
    exact consistent_stop hs finishInspection (fun _ => rfl) (fun _ htest => htest) hu
  case stopAiTest =>
    refine consistent_stop hs finishAiTest (fun _ => rfl) (fun m htest => ?_) hu
    cases htest
  case stop => exact consistent_stop hs id (fun _ => rfl) (fun _ htest => htest) hu
  all_goals
    cases hu
    exact consistent_of_same hs rfl rfl rfl rfl rfl (hsame _ rfl rfl)

theorem processed_not_marking {q : PlacedPair R} {resp : DetectionResponse R}
    (h : FilesTogether lib s.system.module resp q) : q.entry.subTask ≠ .marking := by
  let post : PostprocessModule R := { minConfidence := 0, sameGap := .default }
  let vis : Vision R := ⟨fun _ => none, fun _ _ _ _ _ => noGap, fun _ _ _ => [], fun _ _ => []⟩
  have hfresh : (post.skipsGap resp q.entry.subTask).1 = false := skipsGap_fresh rfl resp _
  obtain ⟨result, hresult⟩ := process_saved lib vis "record" "" "" (a := argsOf resp q.entry) hfresh
  have hmem := stereoRequest_mem_saveResult lib (argsOf resp q.entry) result (m := post) rfl
    (show "record" ≠ "" by decide)
  rw [← hresult] at hmem
  exact (inspectionSubfolder_eq_iff _).1 (h.processed post _ _ _ _ _ hmem)

theorem oneFolder_iff (hs : s.Consistent) : s.OneFolder lib a ↔ s.FolderKept a := by
  cases a
  case deliver resp =>
    refine forall_congr' fun q => forall_congr' fun htakes => ?_
    obtain ⟨rest, htake, hq⟩ := htakes
    constructor
    · intro h
      refine ⟨processed_not_marking h, ?_⟩
      intro hsaves
      obtain ⟨hplaced, hfiles⟩ := hs.placed q hq
      obtain ⟨r, hr⟩ := List.exists_mem_of_ne_nil _ (hfiles.2 hsaves)
      exact (hplaced r hr).symm.trans (h.published r hr)
    · rintro ⟨hsub, hread⟩
      have hfolder := (inspectionSubfolder_eq_iff q.entry.subTask).2 hsub
      have htest : s.system.module.aiTestMode = false := by
        by_contra hon
        rw [(hs.aiTest (by simpa using hon)).1] at hq
        cases hq
      have hresult :
          s.system.module.resultSubfolder q.entry.subTask = subfolderOf q.entry.subTask := by
        rw [resultSubfolder, htest, ← hfolder]
        rfl
      refine ⟨?_, ?_, ?_⟩
      · intro r hr
        obtain ⟨hplaced, hfiles⟩ := hs.placed q hq
        exact (hplaced r hr).trans (hread (hfiles.1 (List.ne_nil_of_mem hr)))
      · intro r hr
        exact ((resultWrites_filed lib _ _).placedIn.requests r hr).trans hresult
      · intro post vis activeRecord station escalator r hr
        exact ((process_placedIn lib vis _ _ _ _ post).requests r hr).trans hfolder
  all_goals exact Iff.rfl

omit [Double R] in
theorem consistent_init {m : PreprocessModule R} (hm : m.aiTestMode = false) :
    Consistent ({ system := { module := m } } : FolderSystem R) := by
  refine ⟨List.forall_mem_nil _, ?_, ?_⟩
  · intro p hp
    cases hp
  · intro htest
    change m.aiTestMode = true at htest
    rw [hm] at htest
    cases htest

/-- In a run the files of every pair are placed together exactly if no pair whose response comes
was entered as one of marking, or under a sub-task of another subfolder than its saved images. -/
theorem pair_folders_iff (img : Imaging R) (lib : Nlohmann R) {m : PreprocessModule R}
    (hm : m.aiTestMode = false) (as : List (PendingAction R)) :
    Along (step img lib) (OneFolder lib) { system := { module := m } } as ↔
      Along (step img lib) FolderKept { system := { module := m } } as :=
  along_congr (fun _ _ _ hs h => consistent_step hs h) (fun _ _ hs => oneFolder_iff hs)
    (consistent_init hm)

def fileSystem : FolderSystem ℤ := { system := { module := { aiMode := .file } } }

def onePair (sub : InspectionSubTask) : List (PendingAction ℤ) :=
  [.startInspection "database/r", .setSubTask sub,
   .publishPair "20260702-101500-250" { data := [1] } {} 0, .insert]

def pairResponse : DetectionResponse ℤ where
  transactionId := "20260702-101500-250"
  dealerId := "d"
  results := []

theorem pair_folders_iff_gap :
    (run (step plainImaging (plainLib toString)) fileSystem
        (onePair .gapInspection ++ [.deliver pairResponse])).isSome ∧
      Along (step plainImaging (plainLib toString)) (OneFolder (plainLib toString)) fileSystem
        (onePair .gapInspection ++ [.deliver pairResponse]) := by
  refine ⟨rfl, (pair_folders_iff plainImaging (plainLib toString) rfl
    (onePair .gapInspection ++ [.deliver pairResponse])).2 ?_⟩
  apply along_cons_of trivial rfl
  apply along_cons_of trivial rfl
  apply along_cons_of trivial rfl
  apply along_cons_of trivial rfl
  refine along_cons_of ?_ rfl trivial
  rintro q ⟨rest, -, hq⟩
  rw [List.mem_singleton.1 hq]
  exact ⟨by decide, fun _ => rfl⟩

/-- The image that the pair is published with lies in `marking`, the one saved with its
response in `inspection`. -/
theorem marking_folders_counterexample :
    ∃ s q, run (step plainImaging (plainLib toString)) fileSystem (onePair .marking) = some s ∧
      s.Takes pairResponse q ∧ q.entry.subTask = .marking ∧
      (∃ r ∈ q.files, r.subfolder = "marking") ∧
      (∃ r ∈ (s.system.module.resultWrites (plainLib toString)
        (argsOf pairResponse q.entry)).requests, r.subfolder = "inspection") ∧
      ¬ s.OneFolder (plainLib toString) (.deliver pairResponse) := by
  refine ⟨_, _, rfl, ⟨_, rfl, List.mem_singleton.2 rfl⟩, rfl, ⟨_, List.mem_cons_self, rfl⟩,
    ⟨_, List.mem_cons_self, rfl⟩, ?_⟩
  intro h
  exact processed_not_marking (h _ ⟨_, rfl, List.mem_singleton.2 rfl⟩) rfl

end FolderSystem

end EcidsCore
