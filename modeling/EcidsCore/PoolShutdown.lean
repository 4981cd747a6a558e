import EcidsCore.ConnectionPool

set_option autoImplicit false

/-! `stop` of the API server waits for the workers, and no worker looks at `running_` while
it has a client. It returns unless one of them is stuck: the threads then take a bounded number
of steps under every schedule, and never all wait. -/
namespace EcidsCore
open GuardedRuns

namespace ClientServer

def Acceptor.rank : Acceptor → ℕ
  | .absent | .ended => 0
  | .test => 1
  | .event left | .holding _ left => left + 2
  | .polling => 18

def Worker.rank : Worker → ℕ
  | .stuck _ | .ended => 0
  | .test => 1
  | .handling _ => 2
  | .wait => 3

/-- The clients of the step let their worker go. -/
def PoolAction.Returns : PoolAction → Prop
  | .handle _ handler t => (handleClientCalls handler t).returns
  | _ => True

theorem Worker.rank_le (w : Worker) : w.rank ≤ 3 := by
  cases w <;> simp [rank]

theorem rank_after (n : ℕ) : (Acceptor.after n).rank = n + 1 := by
  cases n <;> rfl

namespace Pool

variable {s t : Pool} {a : PoolAction}

/-- Some worker does not come back from its client. -/
def Stuck (s : Pool) : Prop := ∃ c, .stuck c ∈ s.workers

def rank (s : Pool) : ℕ := s.acceptor.rank + (s.workers.map Worker.rank).sum

theorem sum_map_set {α : Type*} (f : α → ℕ) {l : List α} {i : ℕ} {a : α} (h : l[i]? = some a)
    (b : α) : ((l.set i b).map f).sum + f a = (l.map f).sum + f b := by
  induction l generalizing i with
  | nil => cases h
  | cons x l ih =>
    cases i with
    | zero =>
      cases h
      simp only [List.set_cons_zero, List.map_cons, List.sum_cons]
      omega
    | succ i =>
      have := ih h
      simp only [List.set_cons_succ, List.map_cons, List.sum_cons]
      omega

/-- What a step does while `stop` waits: it brings the accept thread or one worker nearer to
its end, and leaves a worker stuck just when the client does not let it go. -/
inductive WindsDown (s : Pool) (a : PoolAction) (t : Pool) : Prop where
  | acceptor (returns : a.Returns) (workers : t.workers = s.workers)
      (nearer : t.acceptor.rank < s.acceptor.rank)
  | worker (i : ℕ) (w w' : Worker) (phase : s.workers[i]? = some w) (free : ∀ c, w ≠ .stuck c)
      (acceptor : t.acceptor = s.acceptor) (workers : t.workers = s.workers.set i w')
      (nearer : w'.rank < w.rank) (stuck : (∃ c, w' = .stuck c) ↔ ¬ a.Returns)

theorem windsDown_of_step (hs : Staffed s) (hstop : s.stopping) (ha : a ≠ .join)
    (h : s.step a = some t) : t.stopping ∧ WindsDown s a t := by
  obtain ⟨hrun, hlisten⟩ := hs.halted hstop
  cases a <;> simp only [step] at h
  case start r n => simp [hstop] at h
  case acceptTest =>
    split at h
    · rename_i hp
      cases h
      refine ⟨hstop, .acceptor trivial rfl ?_⟩
      simp [hp, hrun, Acceptor.rank]
    · cases h
  case poll n =>
    split at h
    · rename_i hp
      cases h
      refine ⟨hstop, .acceptor trivial rfl ?_⟩
      rw [hp.1]
      exact (rank_after n).trans_lt (Nat.lt_succ_of_le (Nat.succ_le_succ hp.2))
    · cases h
  case acceptFails =>
    split at h
    · rename_i left hp
      cases h
      refine ⟨hstop, .acceptor trivial rfl ?_⟩
      rw [hp]
      exact (rank_after left).trans_lt (Nat.lt_succ_self _)
    · cases h
  case accept fd =>
    split at h
    · simp [hlisten] at h
    · cases h
  case enqueue =>
    split at h
    · rename_i c left hp
      cases h
      unfold receive
      split
      all_goals
        refine ⟨hstop, .acceptor trivial rfl ?_⟩
        rw [hp]
        exact (rank_after left).trans_lt (Nat.lt_succ_self _)
    · cases h
  case workerTest i =>
    split at h
    · rename_i hp
      cases h
      refine ⟨hstop, .worker i .test _ hp (by simp) rfl rfl ?_ ?_⟩
      · simp [hrun, Worker.rank]
      · simp [hrun, PoolAction.Returns]
    · cases h
  case wake i =>
    split at h
    · rename_i hp
      cases h
      unfold wake
      split
      · refine ⟨hstop, .worker i .wait _ hp (by simp) rfl rfl ?_ ?_⟩
        · simp [hrun, Worker.rank]
        · simp [hrun, PoolAction.Returns]
      · rename_i c rest hq
        refine ⟨hstop, .worker i .wait (.handling c) hp (by simp) rfl rfl ?_ ?_⟩
        · simp [Worker.rank]
        · simp [PoolAction.Returns]
    · cases h
  case handle i handler tls =>
    split at h
    · rename_i c hp
      cases h
      rw [serveClient_eq s i c (session_released handler tls)]
      split
      · rename_i hret
        refine ⟨hstop, .worker i (.handling c) .test hp (by simp) rfl rfl ?_ ?_⟩
        · simp [Worker.rank]
        · simp [PoolAction.Returns, hret]
      · rename_i hret
        refine ⟨hstop, .worker i (.handling c) (.stuck c) hp (by simp) rfl rfl ?_ ?_⟩
        · simp [Worker.rank]
        · simp [PoolAction.Returns, hret]
    · cases h
  case callStop => simp [hstop] at h
  case join => exact absurd rfl ha

theorem WindsDown.rank_lt (h : WindsDown s a t) :
    t.workers.length = s.workers.length ∧ t.rank < s.rank := by
  cases h with
  | acceptor returns workers nearer =>
    rw [rank, rank, workers]
    exact ⟨rfl, by omega⟩
  | worker i w w' phase free acceptor workers nearer stuck =>
    have hsum := sum_map_set Worker.rank phase w'
    rw [rank, rank, acceptor, workers]
    exact ⟨List.length_set, by omega⟩

theorem WindsDown.stuck_iff (h : WindsDown s a t) : t.Stuck ↔ s.Stuck ∨ ¬ a.Returns := by
  cases h with
  | acceptor returns workers nearer =>
    rw [Stuck, workers, or_iff_left (not_not.2 returns)]
    rfl
  | worker i w w' phase free acceptor workers nearer stuck =>
    obtain ⟨hi, hget⟩ := List.getElem?_eq_some_iff.1 phase
    rw [Stuck, workers, ← stuck]
    constructor
    · rintro ⟨c, hc⟩
      rcases List.mem_or_eq_of_mem_set hc with hmem | heq
      · exact .inl ⟨c, hmem⟩
      · exact .inr ⟨c, heq.symm⟩
    · rintro (⟨c, hc⟩ | ⟨c, rfl⟩)
      · obtain ⟨j, hj, hjc⟩ := List.mem_iff_getElem.1 hc
        have hne : i ≠ j := by
          rintro rfl
          exact free c (hget.symm.trans hjc)
        refine ⟨c, List.mem_iff_getElem.2 ⟨j, by rw [List.length_set]; exact hj, ?_⟩⟩
        exact (List.getElem_set_ne hne _).trans hjc
      · exact ⟨c, List.mem_set hi (.stuck c)⟩

theorem acceptor_rank_step (hs : s.acceptor.rank ≤ 18) (h : s.step a = some t) :
    t.acceptor.rank ≤ 18 := by
  cases a <;> simp only [step] at h
  case start r n =>
    split at h
    · cases h
      cases r with
      | started => simp [start, Acceptor.rank]
      | _ => exact hs
    · cases h
  case acceptTest =>
    split at h
    · cases h
      dsimp only
      split <;> simp [Acceptor.rank]
    · cases h
  case poll n =>
    split at h
    · rename_i hp
      cases h
      have hn := hp.2
      dsimp only
      rw [rank_after]
      omega
    · cases h
  case acceptFails =>
    split at h
    · rename_i left hp
      cases h
      rw [hp] at hs
      exact (rank_after left).le.trans ((Nat.le_succ _).trans hs)
    · cases h
  case accept fd =>
    split at h
    · rename_i left hp
      rw [hp] at hs
      split at h
      · cases h
        exact hs
      · cases h
    · cases h
  case enqueue =>
    split at h
    · rename_i c left hp
      cases h
      rw [hp] at hs
      exact (rank_after left).le.trans ((Nat.le_succ _).trans hs)
    · cases h
  case workerTest i =>
    split at h <;> cases h
    exact hs
  case wake i =>
    split at h
    · cases h
      unfold wake
      split <;> exact hs
    · cases h
  case handle i handler tls =>
    split at h
    · rename_i c _
      cases h
      rw [serveClient_eq s i c (session_released handler tls)]
      split <;> exact hs
    · cases h
  case callStop =>
    split at h
    · cases h
    · split at h <;> cases h <;> exact hs
  case join =>
    split at h
    · cases h
      exact Nat.zero_le _
    · cases h

theorem sum_rank_le (ws : List Worker) : (ws.map Worker.rank).sum ≤ 3 * ws.length := by
  induction ws with
  | nil => rfl
  | cons w ws ih =>
    have hw := w.rank_le
    rw [List.map_cons, List.sum_cons, List.length_cons]
    omega

theorem worker_moves {i : ℕ} {w : Worker} (hi : s.workers[i]? = some w) (hw : w ≠ .ended)
    (hstuck : ¬ s.Stuck) : ∃ a t, a.Returns ∧ s.step a = some t := by
  cases w with
  | test => exact ⟨.workerTest i, _, trivial, by simp [step, hi]; rfl⟩
  | wait => exact ⟨.wake i, _, trivial, by simp [step, hi]; rfl⟩
  | handling c =>
    exact ⟨.handle i none ⟨false, 0, false, [], false, [], false⟩, _, rfl, by simp [step, hi]; rfl⟩
  | stuck c => exact absurd ⟨c, List.mem_of_getElem? hi⟩ hstuck
  | ended => exact absurd rfl hw

theorem stopping_moves (hs : Staffed s) (hstop : s.stopping) (hstuck : ¬ s.Stuck) :
    ∃ a t, a.Returns ∧ s.step a = some t := by
  have hpresent := (hs.live (.inr hstop)).2
  by_cases hall : ∀ w ∈ s.workers, w = .ended
  · cases hp : s.acceptor with
    | absent => exact absurd hp hpresent
    | test => exact ⟨.acceptTest, _, trivial, by simp [step, hp]; rfl⟩
    | polling => exact ⟨.poll 0, _, trivial, by simp [step, hp]; rfl⟩
    | event left => exact ⟨.acceptFails, _, trivial, by simp [step, hp]; rfl⟩
    | holding c left => exact ⟨.enqueue, _, trivial, by simp [step, hp]; rfl⟩
    | ended => exact ⟨.join, _, trivial, if_pos ⟨hstop, hp, hall⟩⟩
  · simp only [not_forall] at hall
    obtain ⟨w, hmem, hw⟩ := hall
    obtain ⟨i, hi⟩ := List.mem_iff_getElem?.1 hmem
    exact worker_moves hi hw hstuck

theorem Stuck.ne_join (h : s.Stuck) (ht : s.step a = some t) : a ≠ .join := by
  rintro rfl
  obtain ⟨c, hc⟩ := h
  simp only [step] at ht
  split at ht
  · rename_i hended
    cases hended.2.2 _ hc
  · cases ht

theorem stopping_run (hs : Accounted s ∧ Staffed s) (hstop : s.stopping) {bs : List PoolAction}
    (h : run step s bs = some t) (hjoin : .join ∉ bs) :
    t.stopping ∧ bs.length ≤ s.rank ∧ (t.Stuck ↔ s.Stuck ∨ ∃ b ∈ bs, ¬ b.Returns) := by
  induction bs generalizing s with
  | nil =>
    obtain rfl : s = t := by simpa using h
    exact ⟨hstop, Nat.zero_le _, by simp⟩
  | cons b bs ih =>
    obtain ⟨u, hu, h⟩ := run_cons_some.1 h
    rw [List.mem_cons, not_or] at hjoin
    obtain ⟨hstop', hwinds⟩ := windsDown_of_step hs.2 hstop (Ne.symm hjoin.1) hu
    obtain ⟨hend, hlen, hstuck⟩ := ih (kept_step s b u hs hu) hstop' h hjoin.2
    have hrank := hwinds.rank_lt.2
    refine ⟨hend, ?_, ?_⟩
    · rw [List.length_cons]
      omega
    · rw [hstuck, hwinds.stuck_iff, or_assoc]
      simp only [List.mem_cons, exists_eq_or_imp]

theorem stuck_run (hs : Accounted s ∧ Staffed s) (hstop : s.stopping) (hstuck : s.Stuck)
    {bs : List PoolAction} (h : run step s bs = some t) : .join ∉ bs := by
  induction bs generalizing s with
  | nil => exact List.not_mem_nil
  | cons b bs ih =>
    obtain ⟨u, hu, h⟩ := run_cons_some.1 h
    have hb := hstuck.ne_join hu
    obtain ⟨hstop', hwinds⟩ := windsDown_of_step hs.2 hstop hb hu
    rw [List.mem_cons, not_or]
    exact ⟨hb.symm, ih (kept_step s b u hs hu) hstop' (hwinds.stuck_iff.2 (.inl hstuck)) h⟩

/-- While `stop` waits and no worker is stuck some thread can move, and no schedule moves them
more than 18 times and 3 times for each worker before `stop` returns; a worker is stuck just
after a client that did not let it go, and then `stop` never returns. -/
theorem stop_returns {as : List PoolAction} {s : Pool} (h : run step constructed as = some s)
    (hstop : s.stopping) :
    (¬ s.Stuck → ∃ a t, a.Returns ∧ s.step a = some t) ∧
      (∀ bs t, run step s bs = some t → .join ∉ bs →
        t.stopping ∧ bs.length ≤ 18 + 3 * s.workers.length ∧
          (t.Stuck ↔ s.Stuck ∨ ∃ b ∈ bs, ¬ b.Returns)) ∧
      (s.Stuck → ∀ bs t, run step s bs = some t → .join ∉ bs) := by
  have hkept : Accounted s ∧ Staffed s :=
    run_preserves (I := fun s => Accounted s ∧ Staffed s) kept_step kept_constructed h
  have haccept : s.acceptor.rank ≤ 18 :=
    run_preserves (I := fun s => s.acceptor.rank ≤ 18) (fun _ _ _ hs ht => acceptor_rank_step hs ht)
      (Nat.zero_le _) h
  refine ⟨stopping_moves hkept.2 hstop, ?_, fun hstuck bs t => stuck_run hkept hstop hstuck⟩
  intro bs t hrun hjoin
  obtain ⟨hend, hlen, hstuck⟩ := stopping_run hkept hstop hrun hjoin
  have hworkers := sum_rank_le s.workers
  refine ⟨hend, ?_, hstuck⟩
  change _ ≤ _ + _ at hlen
  omega

def stopSilent : List PoolAction :=
  [.start .started 1, .acceptTest, .poll 1, .accept 7, .enqueue, .workerTest 0, .wake 0,
    .callStop]

theorem stop_returns_silent : ∃ s t, run step constructed stopSilent = some s ∧
    (∃ a u, a.Returns ∧ s.step a = some u) ∧
    s.step (.handle 0 none ⟨true, -1, true, [], false, [], false⟩) = some t ∧
    ∀ bs u, run step t bs = some u → .join ∉ bs := by
  refine ⟨_, _, rfl, ?_, rfl, ?_⟩
  · refine (@stop_returns stopSilent _ rfl rfl).1 ?_
    rintro ⟨c, hc⟩
    have hmem : Worker.stuck c ∈ [Worker.handling ⟨0, 7⟩] := hc
    simp at hmem
  · refine (@stop_returns (stopSilent ++ [.handle 0 none ⟨true, -1, true, [], false, [], false⟩]) _
      rfl rfl).2.2 ?_
    exact ⟨⟨0, 7⟩, List.mem_singleton_self _⟩

end Pool

end ClientServer

end EcidsCore
