import EcidsCore.ApiRuns
import EcidsCore.RecordPlaces
import EcidsCore.TransactionIds

set_option autoImplicit false

/-! The directories that the tasks of a run are given, under a clock that never runs
backwards. -/
namespace EcidsCore
open ByteText GuardedRuns

variable {R : Type}

/-- A record directory: the time by which it is named, in nanoseconds, the start it was made
for, and its path. -/
structure GivenRecord where
  time : ℕ
  request : StartRequest
  path : String

structure RecordSystem (R : Type) where
  api : ApiSystem R
  clock : ℕ := 0
  given : List GivenRecord := []

def ApiAction.stamped (t : TimeParts) : ApiAction R → ApiAction R
  | .request env method path body => .request { env with now := t } method path body
  | a => a

def Core.gives (now : ℕ) (c : Core R) : ApiAction R → Option GivenRecord
  | .request env method path body =>
    match startOf env.lib method path body with
    | some q =>
      if c.status.taskActive = false ∧ (q.created env c).2 = none then
        some ⟨now, q, q.recordPath env c⟩
      else none
    | none => none
  | _ => none

theorem gives_some {now : ℕ} {c : Core R} {a : ApiAction R} {g : GivenRecord}
    (h : c.gives now a = some g) : ∃ env method path body,
      a = .request env method path body ∧ startOf env.lib method path body = some g.request ∧
      c.status.taskActive = false ∧ (g.request.created env c).2 = none ∧ g.time = now ∧
      g.path = g.request.recordPath env c := by
  cases a with
  | request env method path body =>
    rw [Core.gives] at h
    split at h
    · split at h
      · cases h
        rename_i hq hmade
        exact ⟨env, method, path, body, rfl, hq, hmade.1, hmade.2, rfl, rfl⟩
      · cases h
    · cases h
  | _ => cases h

namespace RecordSystem
variable [Double R] (localtime : ℕ → Tm)

def step (s : RecordSystem R) (x : ℕ × ApiAction R) : Option (RecordSystem R) :=
  if s.clock ≤ x.1 then
    let a := x.2.stamped (Timestamp.nowParts localtime x.1)
    (s.api.step a).map fun t =>
      { api := t, clock := x.1, given := s.given ++ (s.api.core.gives x.1 a).toList }
  else none

end RecordSystem

theorem outcome_rootPath [Zero R] (env : Env R) (q : StartRequest) (b : Core R) :
    (q.outcome env b).core.records.rootPath = b.records.rootPath := by
  unfold StartRequest.outcome
  split
  · rfl
  · split
    · rfl
    · split
      · rfl
      · cases q <;> rfl

theorem outcome_activeRecord [Zero R] {env : Env R} {q : StartRequest} {b : Core R}
    (h : (q.created env b).2 = none) :
    (q.outcome env b).core.records.activeRecord = q.recordPath env b := by
  unfold StartRequest.outcome
  rw [h]
  dsimp only
  split
  · rfl
  · split
    · rfl
    · cases q <;> rfl

theorem exec_rootPath [Zero R] (env : Env R) (p : String) (c : Core R) (a : ApiStep) :
    (exec env p c a).core.records.rootPath = c.records.rootPath := by
  cases a <;> simp only [exec]
  case checkIdle conflict => split <;> rfl
  case setMode m accept => split <;> exact congrArg RecordManager.rootPath (setMode_records m c)
  case leaveMode => exact congrArg RecordManager.rootPath (setMode_records .none c)
  case createInspectionRecord s e t =>
    unfold Core.createRecord
    split <;> rfl
  case createAiTestRecord s e =>
    unfold Core.createRecord
    split <;> rfl
  case startInspection =>
    unfold Core.startPreprocess
    split
    · rfl
    · split <;> rfl
  case startAiTest data =>
    unfold Core.startPreprocess
    split
    · rfl
    · split <;> rfl
  all_goals rfl

section Steps
variable [Double R]

theorem ApiSystem.step_rootPath {s t : ApiSystem R} {a : ApiAction R} (h : s.step a = some t) :
    t.core.records.rootPath = s.core.records.rootPath := by
  cases stepped h with
  | started hq ha =>
    exact (outcome_rootPath _ _ _).trans
      (congrArg RecordManager.rootPath (StartRequest.begun_records _ _))
  | stopped hr =>
    have hkept (c : Core R) : c.deactivated.records.rootPath = c.records.rootPath := by
      rw [c.deactivated_records]
      rfl
    split
    · exact hkept _
    · exact hkept _
  | modeSet hr ha => exact congrArg RecordManager.rootPath (setMode_records _ _)
  | undisturbed hu => exact congrArg RecordManager.rootPath hu.records
  | loopEnded hth => rfl
  | began hk => rfl
  | @advanced env i e a p c he ha hc =>
    have hexec := exec_rootPath env "" s.core a
    rw [hc] at hexec
    exact hexec

namespace RecordSystem
variable {localtime : ℕ → Tm}

theorem step_some {s t : RecordSystem R} {x : ℕ × ApiAction R}
    (h : s.step localtime x = some t) : s.clock ≤ x.1 ∧
      s.api.step (x.2.stamped (Timestamp.nowParts localtime x.1)) = some t.api ∧ t.clock = x.1 ∧
      t.given = s.given ++
        (s.api.core.gives x.1 (x.2.stamped (Timestamp.nowParts localtime x.1))).toList := by
  rw [step] at h
  split at h
  · obtain ⟨t', ht, rfl⟩ := Option.map_eq_some_iff.1 h
    exact ⟨‹_›, ht, rfl, rfl⟩
  · cases h

def pathAt (localtime : ℕ → Tm) (root : String) (time : ℕ) (q : StartRequest) : String :=
  root ++ "/" ++ dbDatePathFromParts (Timestamp.nowParts localtime time) ++ "/" ++
    q.recordName (Timestamp.nowParts localtime time)

structure Ledger (localtime : ℕ → Tm) (root : String) (s : RecordSystem R) : Prop where
  rootPath : s.api.core.records.rootPath = root
  path : ∀ g ∈ s.given, g.path = pathAt localtime root g.time g.request
  clock : ∀ g ∈ s.given, g.time ≤ s.clock
  ordered : s.given.Pairwise fun g h => g.time ≤ h.time

omit [Double R] in
theorem stamped_now {t : TimeParts} {a : ApiAction R} {env : Env R} {method path body : Bytes}
    (h : a.stamped t = .request env method path body) : env.now = t := by
  cases a <;> cases h
  rfl

theorem ledger_step {root : String} {s t : RecordSystem R} {x : ℕ × ApiAction R}
    (hs : Ledger localtime root s) (h : s.step localtime x = some t) :
    Ledger localtime root t := by
  obtain ⟨hclock, hstep, htime, hgiven⟩ := step_some h
  have hnew : ∀ g ∈ (s.api.core.gives x.1 (x.2.stamped (Timestamp.nowParts localtime x.1))).toList,
      g.time = x.1 ∧ g.path = pathAt localtime root x.1 g.request := by
    intro g hg
    obtain ⟨env, method, path, body, ha, -, -, -, htime, hpath⟩ :=
      gives_some (Option.mem_toList.1 hg)
    rw [hpath, StartRequest.recordPath, RecordManager.recordPath, hs.rootPath, stamped_now ha]
    exact ⟨htime, rfl⟩
  refine ⟨(ApiSystem.step_rootPath hstep).trans hs.rootPath, ?_, ?_, ?_⟩
  · intro g hg
    rw [hgiven] at hg
    rcases List.mem_append.1 hg with hg | hg
    · exact hs.path g hg
    · obtain ⟨hat, hpath⟩ := hnew g hg
      rw [hpath, hat]
  · intro g hg
    rw [hgiven] at hg
    rw [htime]
    rcases List.mem_append.1 hg with hg | hg
    · exact (hs.clock g hg).trans hclock
    · exact (hnew g hg).1.le
  · rw [hgiven, List.pairwise_append]
    refine ⟨hs.ordered, ?_, ?_⟩
    · cases s.api.core.gives x.1 (x.2.stamped (Timestamp.nowParts localtime x.1)) with
      | none => exact List.Pairwise.nil
      | some g => exact List.pairwise_singleton _ _
    · intro g hg k hk
      rw [(hnew k hk).1]
      exact (hs.clock g hg).trans hclock

/-- Two tasks of one kind, started in one second of local time, whose identifiers lead to one
place. -/
def Clash (localtime : ℕ → Tm) (g h : GivenRecord) : Prop :=
  g.request.isAiTest = h.request.isAiTest ∧
    localtime (g.time / 10 ^ 9) = localtime (h.time / 10 ^ 9) ∧
      g.request.idPlace = h.request.idPlace

/-- Two tasks with directories of their own, in which no file of one is a file of the other. -/
structure Apart (cwd : List Bytes) (g h : GivenRecord) : Prop where
  directory : place cwd g.path ≠ place cwd h.path
  files : ∀ r r', SavedIn g.path g.request r → SavedIn h.path h.request r' →
    location cwd r ≠ location cwd r'

theorem timeTokens_nowParts {a b : ℕ} :
    timeTokens (Timestamp.nowParts localtime a) = timeTokens (Timestamp.nowParts localtime b) ↔
      localtime (a / 10 ^ 9) = localtime (b / 10 ^ 9) := by
  constructor
  · intro h
    obtain ⟨h1, h2, h3, h4, h5, h6⟩ := timeTokens_inj h
    have hparts : toParts (localtime (a / 10 ^ 9)) 0 = toParts (localtime (b / 10 ^ 9)) 0 := by
      simp only [toParts, TimeParts.mk.injEq]
      exact ⟨h1, h2, h3, h4, h5, h6, trivial⟩
    exact (toParts_inj hparts).1
  · intro h
    simp only [timeTokens, Timestamp.nowParts, toParts, h]

theorem sameName_iff {g h : GivenRecord} :
    SameName (Timestamp.nowParts localtime g.time) g.request
        (Timestamp.nowParts localtime h.time) h.request ↔ Clash localtime g h := by
  rw [SameName, timeTokens_nowParts, Clash]

/-- In every run whose identifiers stay inside the directory named after the time, the tasks
have directories, and files, of their own exactly if no two of them clash. -/
theorem directories_apart_iff {s u : RecordSystem R} {as : List (ℕ × ApiAction R)}
    (hempty : s.given = []) (hroot : 0 ∉ bytes s.api.core.records.rootPath)
    (hr : run (step localtime) s as = some u) (hin : ∀ g ∈ u.given, g.request.StaysInside)
    (cwd : List Bytes) :
    u.given.Pairwise (Apart cwd) ↔ u.given.Pairwise fun g h => ¬ Clash localtime g h := by
  have hne := s.api.core.records.rootNonempty
  have hledger : Ledger localtime s.api.core.records.rootPath u := by
    apply run_preserves (fun _ _ _ hs hstep => ledger_step hs hstep) _ hr
    refine ⟨rfl, ?_, ?_, ?_⟩ <;> rw [hempty]
    · exact List.forall_mem_nil _
    · exact List.forall_mem_nil _
    · exact List.Pairwise.nil
  apply List.Pairwise.iff_of_mem
  intro g h hg hh
  have hplaces : place cwd g.path = place cwd h.path ↔ Clash localtime g h := by
    rw [hledger.path g hg, hledger.path h hh, ← sameName_iff]
    exact place_eq_iff hroot hne (hin g hg) (hin h hh)
  constructor
  · intro hapart hclash
    exact hapart.directory (hplaces.2 hclash)
  · intro hclash
    refine ⟨fun he => hclash (hplaces.1 he), ?_⟩
    intro r r' hsaved hsaved'
    rw [hledger.path g hg] at hsaved
    rw [hledger.path h hh] at hsaved'
    exact files_apart hroot hne (hin g hg) (hin h hh) hsaved hsaved'
      fun hsame => hclash (sameName_iff.1 hsame)

end RecordSystem

end Steps

namespace RecordSystem
open IdSystem

def bootRecords : RecordSystem ℤ := { api := { core := bootCore } }

def startAt (time : ℕ) : ℕ × ApiAction ℤ := (time, startLift)

def stopAt (time : ℕ) : ℕ × ApiAction ℤ := (time, stopBy "/StopInspection")

def liftRecord (time : ℕ) : GivenRecord where
  time := time
  request := .inspection ⟨"S", "E", "T1"⟩
  path := pathAt firstDay "database" time (.inspection ⟨"S", "E", "T1"⟩)

theorem directories_apart_iff_nextSecond :
    ∃ u, run (step firstDay) bootRecords [startAt 0, stopAt 1, startAt (10 ^ 9)] = some u ∧
      (u.given.Pairwise (Apart []) ↔ u.given.Pairwise fun g h => ¬ Clash firstDay g h) := by
  obtain ⟨u, hu, hgiven⟩ : ∃ u,
      run (step firstDay) bootRecords [startAt 0, stopAt 1, startAt (10 ^ 9)] = some u ∧
        u.given = [liftRecord 0, liftRecord (10 ^ 9)] := ⟨_, rfl, rfl⟩
  have hin : ∀ g ∈ u.given, g.request.StaysInside := by
    rw [hgiven]
    intro g hg
    simp only [List.mem_cons, List.not_mem_nil, or_false] at hg
    rcases hg with rfl | rfl <;> exact of_decide_eq_true rfl
  exact ⟨u, hu, directories_apart_iff rfl (by decide) hu hin []⟩

/-- The second of two tasks for one escalator gets the directory of the first. -/
theorem same_second_counterexample :
    ∃ u, run (step firstDay) bootRecords [startAt 0, stopAt 1, startAt 2] = some u ∧
      u.given = [liftRecord 0, liftRecord 2] ∧ (liftRecord 0).path = (liftRecord 2).path ∧
        ¬ u.given.Pairwise (Apart []) := by
  obtain ⟨u, hu, hgiven⟩ : ∃ u,
      run (step firstDay) bootRecords [startAt 0, stopAt 1, startAt 2] = some u ∧
        u.given = [liftRecord 0, liftRecord 2] := ⟨_, rfl, rfl⟩
  have hparts : Timestamp.nowParts firstDay 0 = Timestamp.nowParts firstDay 2 := rfl
  have hpath : (liftRecord 0).path = (liftRecord 2).path := by
    rw [liftRecord, liftRecord, pathAt, pathAt, hparts]
  refine ⟨u, hu, hgiven, hpath, ?_⟩
  rw [hgiven, List.pairwise_pair]
  intro h
  exact h.directory (congrArg (place []) hpath)

end RecordSystem

end EcidsCore
