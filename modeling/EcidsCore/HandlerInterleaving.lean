import EcidsCore.HandlerSteps

set_option autoImplicit false

/-! What holds of the task across the interleavings of the handlers. -/
namespace EcidsCore
open GuardedRuns

variable {R : Type}

def Worker.Holds (v : TaskView) (n : ℕ) (k : Worker) : Prop :=
  match k.call with
  | .start q => q.Progress k.done k.path v ∧ n = 0
  | .stopInspection | .stopAiTest =>
    (2 ≤ k.done → v.type = .none) ∧ (3 ≤ k.done → v.taskActive = false)
  | .setMode _ => v.taskActive = false

theorem Worker.Holds.ended {v v' : TaskView} {n n' : ℕ} {k : Worker} (h : k.Holds v n)
    (hk : ¬ k.call.IsStart) (ht : v.type = .none → v'.type = .none)
    (ha : v.taskActive = false → v'.taskActive = false) : k.Holds v' n' := by
  obtain ⟨call, done, path⟩ := k
  cases call with
  | start q => exact absurd trivial hk
  | stopInspection => exact ⟨fun hd => ht (h.1 hd), fun hd => ha (h.2 hd)⟩
  | stopAiTest => exact ⟨fun hd => ht (h.1 hd), fun hd => ha (h.2 hd)⟩
  | setMode m => exact ha h

namespace HandlerSystem

structure Inv (s : HandlerSystem R) : Prop where
  starts : s.starts ≤ 1
  idle : s.core.view.taskActive = false → s.starts = 0
  holds : ∀ w k, s.workers w = some k → k.InSection → k.Holds s.core.view s.starts
  exclusive : ∀ v w k k', v ≠ w → s.workers v = some k → s.workers w = some k' →
    k.InSection → k'.InSection → ¬ k.call.IsStart
  settled : (∀ w k, s.workers w = some k → k.InSection → ∃ m, k.call = .setMode m) →
    s.core.view.Coherent

variable {s : HandlerSystem R} {w : ℕ}

/-- The task and one worker change. -/
theorem Inv.update {c : Core R} {o : Option Worker} {n : ℕ} (h : Inv s) (hn : n ≤ 1)
    (hidle : c.view.taskActive = false → n = 0)
    (hown : ∀ k, o = some k → k.InSection → k.Holds c.view n)
    (hothers : ∀ v k, v ≠ w → s.workers v = some k → k.InSection →
      k.Holds s.core.view s.starts → k.Holds c.view n)
    (hexcl : ∀ k, o = some k → k.InSection → ∀ v k', v ≠ w → s.workers v = some k' →
      k'.InSection → ¬ k.call.IsStart ∧ ¬ k'.call.IsStart)
    (hsettled : (∀ k, o = some k → k.InSection → ∃ m, k.call = .setMode m) →
      (∀ v k, v ≠ w → s.workers v = some k → k.InSection → ∃ m, k.call = .setMode m) →
      c.view.Coherent) :
    Inv { core := c, workers := Function.update s.workers w o, starts := n } := by
  have hself : Function.update s.workers w o w = o := Function.update_self ..
  have hother : ∀ v, v ≠ w → Function.update s.workers w o v = s.workers v :=
    fun v hv => Function.update_of_ne hv ..
  refine ⟨hn, hidle, ?_, ?_, ?_⟩
  · intro v k hv hk
    by_cases hvw : v = w
    · subst hvw
      exact hown k (hself.symm.trans hv) hk
    · have hv' := (hother v hvw).symm.trans hv
      exact hothers v k hvw hv' hk (h.holds v k hv' hk)
  · intro u v k k' huv hu hv hk hk'
    by_cases huw : u = w
    · subst huw
      exact (hexcl k (hself.symm.trans hu) hk v k' huv.symm
        ((hother v huv.symm).symm.trans hv) hk').1
    · have hu' := (hother u huw).symm.trans hu
      by_cases hvw : v = w
      · subst hvw
        exact (hexcl k' (hself.symm.trans hv) hk' u k huw hu' hk).2
      · exact h.exclusive u v k k' huv hu' ((hother v hvw).symm.trans hv) hk hk'
  · intro hall
    refine hsettled ?_ ?_
    · exact fun k ho hk => hall w k (hself.trans ho) hk
    · exact fun v k hvw hv hk => hall v k ((hother v hvw).trans hv) hk

theorem Inv.update_alone {c : Core R} {o : Option Worker} {n : ℕ} (h : Inv s)
    (halone : ∀ v k, v ≠ w → s.workers v = some k → ¬ k.InSection) (hn : n ≤ 1)
    (hidle : c.view.taskActive = false → n = 0)
    (hown : ∀ k, o = some k → k.InSection → k.Holds c.view n)
    (hsettled : (∀ k, o = some k → k.InSection → ∃ m, k.call = .setMode m) → c.view.Coherent) :
    Inv { core := c, workers := Function.update s.workers w o, starts := n } := by
  refine h.update hn hidle hown ?_ ?_ fun hall _ => hsettled hall
  · exact fun v k hv hkv hks => absurd hks (halone v k hv hkv)
  · exact fun _ _ _ v k hv hkv hks => absurd hks (halone v k hv hkv)

theorem Inv.quiet {c : Core R} {o : Option Worker} (h : Inv s) (hview : c.view = s.core.view)
    (hold : ∀ k, s.workers w = some k → k.InSection → ∃ m, k.call = .setMode m)
    (hnew : ∀ k, o = some k → ¬ k.InSection) :
    Inv { core := c, workers := Function.update s.workers w o, starts := s.starts } := by
  refine h.update h.starts ?_ ?_ ?_ ?_ ?_
  · rw [hview]
    exact h.idle
  · exact fun k ho hk => absurd hk (hnew k ho)
  · rw [hview]
    exact fun _ _ _ _ _ hh => hh
  · exact fun k ho hk => absurd hk (hnew k ho)
  · intro _ hothers
    rw [hview]
    apply h.settled
    intro v k hv hk
    by_cases hvw : v = w
    · subst hvw
      exact hold k hv hk
    · exact hothers v k hvw hv hk

theorem advance_some [Zero R] {env : Env R} {t : HandlerSystem R}
    (h : s.step (.advance w env) = some t) :
    ∃ k a, s.workers w = some k ∧ k.call.steps[k.done]? = some a ∧
      ((∃ p c, exec env k.path s.core a = .next p c ∧
          t = { core := c, workers := Function.update s.workers w (k.next p),
                starts := startsBehind k a s.starts }) ∨
        ∃ c, t = { s with core := c, workers := Function.update s.workers w none } ∧
          ((∃ code text, exec env k.path s.core a = .answered code text c) ∨
            ∃ e, exec env k.path s.core a = .threw e c)) := by
  rw [step] at h
  split at h
  · cases h
  · rename_i k hk
    split at h
    · cases h
    · rename_i a ha
      refine ⟨k, a, hk, ha, ?_⟩
      split at h <;> cases h
      · exact .inl ⟨_, _, ‹_›, rfl⟩
      · exact .inr ⟨_, rfl, .inl ⟨_, _, ‹_›⟩⟩
      · exact .inr ⟨_, rfl, .inr ⟨_, ‹_›⟩⟩

theorem startsBehind_of_more {k : Worker} {a : ApiStep} (ha : a ≠ .setTaskActive false)
    (hk : k.call.IsStart → k.done + 1 < k.call.steps.length) (n : ℕ) : startsBehind k a n = n := by
  rw [startsBehind, if_neg ha, if_neg]
  rintro ⟨hs, hl⟩
  have hlt := hk hs
  omega

def Alone (s : HandlerSystem R) (w : ℕ) (k : Worker) : Prop :=
  Enters s k → ∀ v k', v ≠ w → s.workers v = some k' → k'.InSection →
    ¬ k.call.IsStart ∧ ¬ k'.call.IsStart

section Start
variable {q : StartRequest} {done : ℕ} {path p : String} {a : ApiStep} {c : Core R}

theorem Inv.start_alone (h : Inv s) (hk : s.workers w = some ⟨.start q, done, path⟩)
    (hsec : Worker.InSection ⟨.start q, done, path⟩) (v : ℕ) (k : Worker) (hv : v ≠ w)
    (hkv : s.workers v = some k) : ¬ k.InSection := by
  intro hks
  exact h.exclusive w v _ k hv.symm hk hkv hsec hks trivial

theorem inv_start_checked (h : Inv s) (hview : c.view = s.core.view) (ha : s.core.view.taskActive = false)
    (hx : Alone s w ⟨.start q, 0, path⟩) :
    Inv { core := c, workers := Function.update s.workers w (some ⟨.start q, 1, p⟩),
          starts := s.starts } := by
  have halone : ∀ v k, v ≠ w → s.workers v = some k → ¬ k.InSection := fun v k hv hkv hks =>
    (hx ⟨rfl, .inr (.inr ha)⟩ v k hv hkv hks).1 trivial
  have hlaunch := q.four_lt_launchIndex
  have hlength := q.launchIndex_lt_length
  have hprog : q.Progress 1 p c.view := by
    rw [hview]
    exact ⟨fun _ => ha, by omega, by omega, by omega, by omega, by omega⟩
  refine h.update_alone halone h.starts ?_ ?_ ?_
  · rw [hview]
    exact h.idle
  · rintro k ⟨⟩ -
    exact ⟨hprog, h.idle ha⟩
  · intro hall
    have hsec : Worker.InSection ⟨.start q, 1, p⟩ :=
      ⟨Nat.one_pos, show 1 < q.steps.length by omega⟩
    obtain ⟨m, hm⟩ := hall _ rfl hsec
    cases hm

theorem inv_start_next [Zero R] {env : Env R} (h : Inv s)
    (hk : s.workers w = some ⟨.start q, done, path⟩) (ha : q.steps[done]? = some a)
    (he : exec env path s.core a = .next p c) (hx : Alone s w ⟨.start q, done, path⟩) :
    Inv { core := c, workers := Function.update s.workers w (Worker.next p ⟨.start q, done, path⟩),
          starts := startsBehind ⟨.start q, done, path⟩ a s.starts } := by
  obtain ⟨hview, hpath⟩ := exec_next_view he
  have hlt : done < q.steps.length := (List.getElem?_eq_some_iff.1 ha).1
  have hlength := q.launchIndex_lt_length
  have hlaunch := q.four_lt_launchIndex
  rcases Nat.eq_zero_or_pos done with rfl | hpos
  · obtain rfl : a = .checkIdle startConflict := by cases q <;> cases ha <;> rfl
    have hidle : s.core.view.taskActive = false := by
      dsimp only [exec] at he
      split at he
      · cases he
      · exact Bool.eq_false_iff.2 ‹_›
    have hnext : Worker.next p ⟨.start q, 0, path⟩ = some ⟨.start q, 1, p⟩ :=
      if_pos (show 0 + 1 < q.steps.length by omega)
    rw [hnext, startsBehind_of_more (by simp) fun _ => show 0 + 1 < q.steps.length by omega]
    exact inv_start_checked h hview hidle hx
  · have hsec : Worker.InSection ⟨.start q, done, path⟩ := ⟨hpos, hlt⟩
    obtain ⟨hprog, hzero⟩ : q.Progress done path s.core.view ∧ s.starts = 0 := h.holds w _ hk hsec
    have halone := h.start_alone hk hsec
    have hprog' : q.Progress (done + 1) p c.view := by
      rw [hview]
      exact hprog.step hpos ha hpath
    have hne := (StartRequest.step_kind ha).1
    by_cases hlast : done + 1 < q.steps.length
    · have hnext : Worker.next p ⟨.start q, done, path⟩ = some ⟨.start q, done + 1, p⟩ :=
        if_pos hlast
      rw [hnext, startsBehind_of_more hne fun _ => hlast]
      refine h.update_alone halone h.starts (fun _ => hzero) ?_ ?_
      · rintro k ⟨⟩ -
        exact ⟨hprog', hzero⟩
      · intro hall
        obtain ⟨m, hm⟩ := hall _ rfl ⟨Nat.succ_pos done, hlast⟩
        cases hm
    · have hnext : Worker.next p ⟨.start q, done, path⟩ = none := if_neg hlast
      have hlen : done + 1 = q.steps.length := by omega
      have hcount : startsBehind ⟨.start q, done, path⟩ a s.starts = 1 := by
        rw [startsBehind, if_neg hne, if_pos ⟨trivial, hlen⟩, hzero]
      have hactive : c.view.taskActive = true := hprog'.active (by omega)
      rw [hnext, hcount]
      refine h.update_alone halone le_rfl ?_ ?_ ?_
      · intro hidle
        rw [hactive] at hidle
        cases hidle
      · exact fun k ho => nomatch ho
      · exact fun _ => hprog'.coherent (by omega)

theorem inv_start_left [Zero R] {env : Env R} (h : Inv s)
    (hk : s.workers w = some ⟨.start q, done, path⟩) (ha : q.steps[done]? = some a)
    (hroom : ∀ d, env.fs.createDirectories d = none)
    (he : (∃ code text, exec env path s.core a = .answered code text c) ∨
      ∃ e, exec env path s.core a = .threw e c) :
    Inv { s with core := c, workers := Function.update s.workers w none } := by
  have hlaunch := q.four_lt_launchIndex
  rcases he with ⟨code, text, he⟩ | ⟨e, he⟩
  · rcases exec_answered he with ⟨conflict, rfl, rfl⟩ | ⟨m, accept, rfl, hrc, -⟩
    · obtain rfl := (StartRequest.step_kind ha).2.1 conflict rfl
      refine h.quiet rfl ?_ fun k ho => nomatch ho
      intro k hkw hsec
      rw [hk] at hkw
      cases hkw
      exact absurd hsec.1 (Nat.lt_irrefl 0)
    · obtain ⟨rfl, rfl⟩ := StartRequest.setMode_step ha
      have hm : q.mode ≠ .uploading := by cases q <;> simp [StartRequest.mode]
      exact absurd (setMode_accepted q.mode hm s.core) hrc
  · obtain ⟨hl, hview⟩ := exec_threw_view hroom he
    have hindex := (StartRequest.step_kind ha).2.2 hl
    have hsec : Worker.InSection ⟨.start q, done, path⟩ :=
      ⟨show 0 < done by omega, (List.getElem?_eq_some_iff.1 ha).1⟩
    obtain ⟨hprog, hzero⟩ : q.Progress done path s.core.view ∧ s.starts = 0 := h.holds w _ hk hsec
    have halone := h.start_alone hk hsec
    have hprog' : q.Progress (done + 1) path c.view := by
      rw [hview]
      exact hprog.step (by omega) ha fun _ => rfl
    refine h.update_alone halone h.starts (fun _ => hzero) ?_ ?_
    · exact fun k ho => nomatch ho
    · exact fun _ => hprog'.coherent (by omega)

end Start

section Stop
variable {call : HandlerCall} {i : ℕ} {path p : String} {a : ApiStep} {c : Core R}

theorem stop_holds (hc : call.IsStop) {v : TaskView} {n : ℕ} : Worker.Holds v n ⟨call, i, p⟩ ↔
    (2 ≤ i → v.type = .none) ∧ (3 ≤ i → v.taskActive = false) := by
  rcases hc with rfl | rfl <;> exact Iff.rfl

theorem inv_stop_inside {n : ℕ} {view : TaskView} (h : Inv s) (hc : call.IsStop) (hi : i < 4)
    (hothers : ∀ v k, v ≠ w → s.workers v = some k → k.InSection → ¬ k.call.IsStart)
    (hview : c.view = view) (hn : n ≤ 1) (hidle : view.taskActive = false → n = 0)
    (ht : s.core.view.type = .none → view.type = .none)
    (ha : s.core.view.taskActive = false → view.taskActive = false)
    (hown : (1 ≤ i → view.type = .none) ∧ (2 ≤ i → view.taskActive = false)) :
    Inv { core := c, workers := Function.update s.workers w (some ⟨call, i + 1, p⟩),
          starts := n } := by
  subst hview
  refine h.update hn hidle ?_ ?_ ?_ ?_
  · rintro k ⟨⟩ -
    exact (stop_holds hc).2 ⟨fun hi => hown.1 (by omega), fun hi => hown.2 (by omega)⟩
  · exact fun v k hv hkv hks hh => hh.ended (hothers v k hv hkv hks) ht ha
  · rintro k ⟨⟩ - v k' hv hkv hks
    exact ⟨hc.not_isStart, hothers v k' hv hkv hks⟩
  · intro hall
    have hsec : Worker.InSection ⟨call, i + 1, p⟩ := by
      refine ⟨Nat.succ_pos i, ?_⟩
      rw [hc.sectionEnd]
      exact show i + 1 < 5 by omega
    obtain ⟨m, hm⟩ := hall _ rfl hsec
    rcases hc with rfl | rfl <;> cases hm

theorem stop_out (hc : call.IsStop) (hi : 4 ≤ i) {k : Worker}
    (h : Worker.next p ⟨call, i, path⟩ = some k) : ¬ k.InSection := by
  obtain ⟨hcall, hdone⟩ := Worker.next_done h
  rintro ⟨-, hlt⟩
  rw [hcall, hdone, hc.sectionEnd] at hlt
  exact absurd hlt (show ¬ i + 1 < 5 by omega)

theorem inv_stop_next [Zero R] {env : Env R} (h : Inv s) (hc : call.IsStop)
    (hk : s.workers w = some ⟨call, i, path⟩) (ha : call.steps[i]? = some a)
    (he : exec env path s.core a = .next p c) (hx : Alone s w ⟨call, i, path⟩) :
    Inv { core := c, workers := Function.update s.workers w (Worker.next p ⟨call, i, path⟩),
          starts := startsBehind ⟨call, i, path⟩ a s.starts } := by
  obtain ⟨hview, -⟩ := exec_next_view he
  have hlen : 5 ≤ call.steps.length := by rcases hc with rfl | rfl <;> decide
  have hnext : i < 4 → Worker.next p ⟨call, i, path⟩ = some ⟨call, i + 1, p⟩ := fun hi =>
    if_pos (show i + 1 < call.steps.length by omega)
  have hcount : a ≠ .setTaskActive false →
      startsBehind ⟨call, i, path⟩ a s.starts = s.starts := fun hne =>
    startsBehind_of_more hne (fun hs => absurd hs hc.not_isStart) _
  have hinside : 1 ≤ i → i < 5 → Worker.InSection ⟨call, i, path⟩ := by
    intro h1 h5
    refine ⟨h1, ?_⟩
    rw [hc.sectionEnd]
    exact h5
  have hothers : 1 ≤ i → i < 5 → ∀ v k, v ≠ w → s.workers v = some k → k.InSection →
      ¬ k.call.IsStart := fun h1 h5 v k hv hkv hks =>
    h.exclusive v w k _ hv hkv hk hks (hinside h1 h5)
  have hfacts : 1 ≤ i → i < 5 → (2 ≤ i → s.core.view.type = .none) ∧
      (3 ≤ i → s.core.view.taskActive = false) := fun h1 h5 =>
    (stop_holds hc).1 (h.holds w _ hk (hinside h1 h5))
  rcases hc.step_cases ha with ⟨rfl, hne, heff⟩ | ⟨rfl, rfl⟩ | ⟨rfl, rfl⟩ | ⟨rfl, rfl⟩ | ⟨rfl, rfl⟩ |
    ⟨h4, hne, heff⟩
  · obtain ⟨r, heff⟩ := heff p s.core.view
    rw [heff] at hview
    rw [hnext (by omega), hcount hne]
    have hfirst : call = .stopInspection ∨ call = .stopAiTest ∨ s.core.status.taskActive = false :=
      hc.elim .inl fun hc => .inr (.inl hc)
    have hfree := fun v k hv hkv hks => (hx ⟨rfl, hfirst⟩ v k hv hkv hks).2
    exact inv_stop_inside h hc (by omega) hfree hview h.starts h.idle id id
      ⟨by omega, by omega⟩
  · rw [hnext (by omega), hcount (by simp)]
    exact inv_stop_inside h hc (by omega) (hothers (by omega) (by omega)) hview h.starts h.idle
      (fun _ => rfl) id ⟨fun _ => rfl, by omega⟩
  · have htype := (hfacts (by omega) (by omega)).1 (by omega)
    rw [hnext (by omega)]
    exact inv_stop_inside h hc (by omega) (hothers (by omega) (by omega)) hview (Nat.zero_le 1)
      (fun _ => rfl) id (fun _ => rfl) ⟨fun _ => htype, fun _ => rfl⟩
  · obtain ⟨htype, hidle⟩ := hfacts (by omega) (by omega)
    rw [hnext (by omega), hcount (by simp)]
    exact inv_stop_inside h hc (by omega) (hothers (by omega) (by omega)) hview h.starts h.idle
      id id ⟨fun _ => htype (by omega), fun _ => hidle (by omega)⟩
  · obtain ⟨htype, hidle⟩ := hfacts (by omega) (by omega)
    have hcoherent : c.view.Coherent := by
      rw [hview]
      exact TaskView.coherent_idle (hidle (by omega)) (htype (by omega))
    have hout : ∀ k, Worker.next p ⟨call, 4, path⟩ = some k → ¬ k.InSection :=
      fun k => stop_out hc le_rfl
    rw [hcount (by simp)]
    refine h.update h.starts ?_ ?_ ?_ ?_ ?_
    · rw [hview]
      exact h.idle
    · exact fun k ho hks => absurd hks (hout k ho)
    · intro v k hv hkv hks hh
      refine hh.ended (hothers (by omega) (by omega) v k hv hkv hks) ?_ ?_
      · rw [hview]
        exact id
      · rw [hview]
        exact id
    · exact fun k ho hks => absurd hks (hout k ho)
    · exact fun _ _ => hcoherent
  · rw [heff] at hview
    rw [hcount hne]
    refine h.quiet hview ?_ fun k ho => stop_out hc (by omega) ho
    intro k hkw hks
    rw [hk] at hkw
    cases hkw
    have h5 : i < call.sectionEnd := hks.2
    rw [hc.sectionEnd] at h5
    omega

end Stop

section SetMode
variable {m : Mode} {i : ℕ} {path p : String} {a : ApiStep} {c : Core R}

theorem setMode_cases (ha : (setModeSteps m)[i]? = some a) :
    i = 0 ∧ (∃ conflict, a = .checkIdle conflict) ∨ i = 1 ∧ a = .setMode m [.success] := by
  have hlt : i < 2 := (List.getElem?_eq_some_iff.1 ha).1
  interval_cases i <;> cases ha
  · exact .inl ⟨rfl, _, rfl⟩
  · exact .inr ⟨rfl, rfl⟩

theorem inv_setMode_checked (h : Inv s) (hk : s.workers w = some ⟨.setMode m, 0, path⟩)
    (hview : c.view = s.core.view) (ha : s.core.view.taskActive = false)
    (hx : Alone s w ⟨.setMode m, 0, path⟩) :
    Inv { core := c, workers := Function.update s.workers w (some ⟨.setMode m, 1, p⟩),
          starts := s.starts } := by
  refine h.update h.starts ?_ ?_ ?_ ?_ ?_
  · rw [hview]
    exact h.idle
  · rintro k ⟨⟩ -
    rw [hview]
    exact ha
  · rw [hview]
    exact fun _ _ _ _ _ hh => hh
  · rintro k ⟨⟩ - v k' hv hkv hks
    exact ⟨id, (hx ⟨rfl, .inr (.inr ha)⟩ v k' hv hkv hks).2⟩
  · intro _ hall
    rw [hview]
    apply h.settled
    intro v k hv hks
    by_cases hvw : v = w
    · subst hvw
      rw [hk] at hv
      cases hv
      exact ⟨m, rfl⟩
    · exact hall v k hvw hv hks

theorem inv_setMode_done (h : Inv s) (hk : s.workers w = some ⟨.setMode m, 1, path⟩)
    (hview : c.view = s.core.view ∨ c.view = { s.core.view with mode := m }) :
    Inv { s with core := c, workers := Function.update s.workers w none } := by
  have hsec : Worker.InSection ⟨.setMode m, 1, path⟩ := ⟨Nat.one_pos, show 1 < 2 by omega⟩
  have hidle : s.core.view.taskActive = false := h.holds w _ hk hsec
  have hothers : ∀ v k, v ≠ w → s.workers v = some k → k.InSection → ¬ k.call.IsStart :=
    fun v k hv hkv hks => h.exclusive v w k _ hv hkv hk hks hsec
  have htype : c.view.type = s.core.view.type := by rcases hview with hv | hv <;> rw [hv]
  have hactive : c.view.taskActive = s.core.view.taskActive := by
    rcases hview with hv | hv <;> rw [hv]
  refine h.update h.starts ?_ ?_ ?_ ?_ ?_
  · rw [hactive]
    exact h.idle
  · exact fun k ho => nomatch ho
  · exact fun v k hv hkv hks hh => hh.ended (hothers v k hv hkv hks) htype.trans hactive.trans
  · exact fun k ho => nomatch ho
  · intro _ hall
    have hcoherent : s.core.view.Coherent := by
      apply h.settled
      intro v k hv hks
      by_cases hvw : v = w
      · subst hvw
        rw [hk] at hv
        cases hv
        exact ⟨m, rfl⟩
      · exact hall v k hvw hv hks
    exact TaskView.coherent_idle (hactive.trans hidle) (htype.trans (hcoherent.idle hidle))

theorem inv_setMode_next [Zero R] {env : Env R} (h : Inv s)
    (hk : s.workers w = some ⟨.setMode m, i, path⟩) (ha : (setModeSteps m)[i]? = some a)
    (he : exec env path s.core a = .next p c) (hx : Alone s w ⟨.setMode m, i, path⟩) :
    Inv { core := c, workers := Function.update s.workers w (Worker.next p ⟨.setMode m, i, path⟩),
          starts := startsBehind ⟨.setMode m, i, path⟩ a s.starts } := by
  obtain ⟨hview, -⟩ := exec_next_view he
  rcases setMode_cases ha with ⟨rfl, conflict, rfl⟩ | ⟨rfl, rfl⟩
  · have hidle : s.core.view.taskActive = false := by
      dsimp only [exec] at he
      split at he
      · cases he
      · exact Bool.eq_false_iff.2 ‹_›
    exact inv_setMode_checked h hk hview hidle hx
  · refine inv_setMode_done h hk ?_
    rw [hview, ApiStep.effect]
    split
    · exact .inl rfl
    · exact .inr rfl

theorem inv_setMode_left [Zero R] {env : Env R} (h : Inv s)
    (hk : s.workers w = some ⟨.setMode m, i, path⟩) (ha : (setModeSteps m)[i]? = some a)
    (hroom : ∀ d, env.fs.createDirectories d = none)
    (he : (∃ code text, exec env path s.core a = .answered code text c) ∨
      ∃ e, exec env path s.core a = .threw e c) :
    Inv { s with core := c, workers := Function.update s.workers w none } := by
  rcases he with ⟨code, text, he⟩ | ⟨e, he⟩
  · rcases setMode_cases ha with ⟨rfl, conflict, rfl⟩ | ⟨rfl, rfl⟩
    · rcases exec_answered he with ⟨-, -, rfl⟩ | ⟨m', accept, hm, -⟩
      · refine h.quiet rfl ?_ fun k ho => nomatch ho
        intro k hkw _
        rw [hk] at hkw
        cases hkw
        exact ⟨m, rfl⟩
      · cases hm
    · rcases exec_answered he with ⟨conflict, hc, -⟩ | ⟨m', accept, hm, -, rfl⟩
      · cases hc
      · cases hm
        refine inv_setMode_done h hk ?_
        rw [setMode_view]
        split
        · exact .inl rfl
        · exact .inr rfl
  · obtain ⟨hl, -⟩ := exec_threw_view hroom he
    rcases setMode_cases ha with ⟨-, conflict, rfl⟩ | ⟨-, rfl⟩
    · exact absurd hl id
    · exact absurd hl id

end SetMode

theorem inv_advance [Zero R] {env : Env R} {t : HandlerSystem R} (h : Inv s)
    (hx : Exclusive s (.advance w env)) (ht : s.step (.advance w env) = some t) : Inv t := by
  obtain ⟨⟨call, i, path⟩, a, hk, ha, hend⟩ := advance_some ht
  have halone : Alone s w ⟨call, i, path⟩ := hx.2 _ hk
  have hstop : ∀ hc : call.IsStop, Inv t := by
    intro hc
    obtain ⟨hlaunch, hcheck, hset⟩ := hc.goes_on (List.mem_of_getElem? ha)
    rcases hend with ⟨p, c, he, rfl⟩ | ⟨c, -, ⟨code, text, he⟩ | ⟨e, he⟩⟩
    · exact inv_stop_next h hc hk ha he halone
    · rcases exec_answered he with ⟨conflict, hc', -⟩ | ⟨m, accept, hm, -⟩
      · exact absurd hc' (hcheck conflict)
      · exact absurd hm (hset m accept)
    · exact absurd (exec_threw_view hx.1 he).1 hlaunch
  cases call with
  | start q =>
    rcases hend with ⟨p, c, he, rfl⟩ | ⟨c, rfl, he⟩
    · exact inv_start_next h hk ha he halone
    · exact inv_start_left h hk ha hx.1 he
  | stopInspection => exact hstop (.inl rfl)
  | stopAiTest => exact hstop (.inr rfl)
  | setMode m =>
    rcases hend with ⟨p, c, he, rfl⟩ | ⟨c, rfl, he⟩
    · exact inv_setMode_next h hk ha he halone
    · exact inv_setMode_left h hk ha hx.1 he

theorem Inv.same_view {c : Core R} (h : Inv s) (hview : c.view = s.core.view) :
    Inv { s with core := c } := by
  obtain ⟨hstarts, hidle, hholds, hexcl, hsettled⟩ := h
  rw [← hview] at hidle hholds hsettled
  exact ⟨hstarts, hidle, hholds, hexcl, hsettled⟩

theorem inv_step [Zero R] {t : HandlerSystem R} {a : HandlerAction R} (h : Inv s)
    (hx : Exclusive s a) (ht : s.step a = some t) : Inv t := by
  cases a with
  | begin w call =>
    rw [step] at ht
    split at ht
    · cases ht
      rename_i hw
      refine h.quiet rfl ?_ ?_
      · intro k hk
        rw [hw] at hk
        cases hk
      · rintro k ⟨⟩ hsec
        exact absurd hsec.1 (Nat.lt_irrefl 0)
    · cases ht
  | advance w env => exact inv_advance h hx ht
  | loopEnds =>
    obtain ⟨c, hc, rfl⟩ := Option.map_eq_some_iff.1 ht
    obtain ⟨found, -, rfl⟩ := Core.loopEnds_some hc
    exact h.same_view rfl

theorem inv_init {c : Core R} (h : AtRest c) : Inv { core := c } where
  starts := Nat.zero_le 1
  idle _ := rfl
  holds _ _ hk := nomatch hk
  exclusive _ _ _ _ _ hk := nomatch hk
  settled _ := TaskView.coherent_idle h.taskActive (congrArg TaskManager.type h.task)

/-- Handlers on any number of workers, where no start runs beside another update. -/
theorem handlers_consistent [Zero R] {c : Core R} (hc : AtRest c) {as : List (HandlerAction R)}
    {s : HandlerSystem R} (hx : Along step Exclusive { core := c } as)
    (hr : run step { core := c } as = some s) : Consistent s := by
  have hinv : Inv s := run_invariant (fun _ _ _ h hx ht => inv_step h hx ht) (inv_init hc) hx hr
  refine ⟨hinv.starts, fun hnone => hinv.settled ?_⟩
  intro w k hk
  rw [hnone w] at hk
  cases hk

/-- The actions are those of two workers, and while both have a request neither is a start. -/
def StartsAlone (v w : ℕ) (s : HandlerSystem R) : HandlerAction R → Prop
  | .begin u _ => u = v ∨ u = w
  | .advance u _ => (u = v ∨ u = w) ∧ (s.workers v).all fun k => (s.workers w).all fun k' =>
      ¬ k.call.IsStart ∧ ¬ k'.call.IsStart
  | .loopEnds => True

instance (v w : ℕ) (s : HandlerSystem R) : (a : HandlerAction R) → Decidable (StartsAlone v w s a)
  | .begin _ _ => inferInstanceAs (Decidable (_ ∨ _))
  | .advance _ _ => inferInstanceAs (Decidable (_ ∧ _))
  | .loopEnds => .isTrue trivial

def Roomy : HandlerAction R → Prop
  | .advance _ env => ∀ d, env.fs.createDirectories d = none
  | _ => True

theorem exclusive_of_startsAlone [Zero R] {v : ℕ} {as : List (HandlerAction R)}
    (hw : ∀ u, u ≠ v → u ≠ w → s.workers u = none) (hroom : ∀ a ∈ as, Roomy a)
    (h : Along step (StartsAlone v w) s as) : Along step Exclusive s as := by
  refine along_of_invariant (I := fun s => ∀ u, u ≠ v → u ≠ w → s.workers u = none)
    (P := fun s a => StartsAlone v w s a ∧ Roomy a) ?_ ?_ hw (along_and h (along_of_mem hroom s))
  · intro s a t hs ha ht u hu hu'
    have hkept {x : ℕ} (hx : x = v ∨ x = w) (o : Option Worker) :
        Function.update s.workers x o u = none := by
      have hne : u ≠ x := by
        rcases hx with rfl | rfl
        · exact hu
        · exact hu'
      exact (Function.update_of_ne hne ..).trans (hs u hu hu')
    cases a with
    | begin x call =>
      rw [step] at ht
      split at ht <;> cases ht
      exact hkept ha.1 _
    | advance x env =>
      obtain ⟨k, a, -, -, ⟨p, c, -, rfl⟩ | ⟨c, rfl, -⟩⟩ := advance_some ht
      · exact hkept ha.1.1 _
      · exact hkept ha.1.1 _
    | loopEnds =>
      obtain ⟨c, -, rfl⟩ := Option.map_eq_some_iff.1 ht
      exact hs u hu hu'
  · intro s a hs ha
    cases a with
    | begin x call => trivial
    | loopEnds => trivial
    | advance x env =>
      obtain ⟨⟨hx, hall⟩, hroom⟩ := ha
      have hfree (k k' : Worker) (hk : s.workers v = some k) (hk' : s.workers w = some k') :
          ¬ k.call.IsStart ∧ ¬ k'.call.IsStart := by
        rw [hk, hk'] at hall
        exact of_decide_eq_true hall
      refine ⟨hroom, ?_⟩
      intro k hk _ u k' hu hk' _
      rcases hx with rfl | rfl
      · by_cases huw : u = w
        · subst huw
          exact hfree k k' hk hk'
        · rw [hs u hu huw] at hk'
          cases hk'
      · by_cases huv : u = v
        · subst huv
          exact (hfree k' k hk' hk).symm
        · rw [hs u huv hu] at hk'
          cases hk'

end HandlerSystem

def onWorker (w n : ℕ) : List (HandlerAction ℤ) := List.replicate n (.advance w (plainEnv []))

theorem roomy_onWorker (w n : ℕ) : ∀ a ∈ onWorker w n, HandlerSystem.Roomy a := by
  intro a ha
  rw [List.eq_of_mem_replicate ha]
  exact fun _ => rfl

/-- Two changes of the mode beside each other, a start, and two stops beside each other. -/
def twoWorkers : List (HandlerAction ℤ) :=
  [.begin 0 (.setMode .config), .begin 1 (.setMode .data)] ++ onWorker 0 1 ++ onWorker 1 2 ++
    onWorker 0 1 ++ [.begin 0 (.start (.inspection ⟨"S", "E", "T1"⟩))] ++ onWorker 0 12 ++
    [.begin 0 .stopInspection, .begin 1 .stopAiTest] ++ onWorker 0 3 ++ onWorker 1 5 ++ onWorker 0 4

theorem handlers_consistent_twoWorkers :
    ∃ s, run HandlerSystem.step { core := bootCore } twoWorkers = some s ∧
      HandlerSystem.Consistent s := by
  have hroom : ∀ a ∈ twoWorkers, HandlerSystem.Roomy a := by
    have hplain (w n : ℕ) : (∀ a ∈ onWorker w n, HandlerSystem.Roomy a) = True :=
      eq_true (roomy_onWorker w n)
    simp only [twoWorkers, List.forall_mem_append, List.forall_mem_cons, hplain]
    simp [HandlerSystem.Roomy]
  have halone : Along HandlerSystem.step (HandlerSystem.StartsAlone 0 1) { core := bootCore }
      twoWorkers := by decide +kernel
  exact ⟨_, rfl, HandlerSystem.handlers_consistent bootCore_atRest
    (HandlerSystem.exclusive_of_startsAlone (fun _ _ _ => rfl) hroom halone) rfl⟩

def lateMode : List (HandlerAction ℤ) :=
  [.begin 0 (.setMode .config), .advance 0 (plainEnv []),
    .begin 1 (.start (.inspection ⟨"S", "E", "T1"⟩))] ++ onWorker 1 12 ++ onWorker 0 1

def twoStarts : List (HandlerAction ℤ) :=
  [.begin 0 (.start (.aiTest ⟨"frames", "", ""⟩)), .advance 0 (plainEnv []),
    .begin 1 (.start (.aiTest ⟨"frames", "", ""⟩)), .advance 1 (plainEnv [])] ++
    onWorker 0 6 ++ [.loopEnds] ++ onWorker 1 6

def stopInside : List (HandlerAction ℤ) :=
  .begin 0 (.start (.inspection ⟨"S", "E", "T1"⟩)) :: onWorker 0 2 ++
    .begin 1 .stopAiTest :: onWorker 1 5 ++ onWorker 0 10

/-- Each kind of overlap with a start has an order of steps that goes wrong. -/
theorem interleaving_counterexample :
    (∃ s, run HandlerSystem.step { core := bootCore } lateMode = some s ∧
      s.core.view.taskActive = true ∧ s.core.view.mode = .config ∧
      ¬ HandlerSystem.Consistent s) ∧
    (∃ s, run HandlerSystem.step { core := bootCore } stopInside = some s ∧
      s.core.view.taskActive = true ∧ s.core.view.mode = .none ∧
      ¬ HandlerSystem.Consistent s) ∧
    ∃ s, run HandlerSystem.step { core := bootCore } twoStarts = some s ∧ s.starts = 2 := by
  refine ⟨⟨_, rfl, rfl, rfl, ?_⟩, ⟨_, rfl, rfl, rfl, ?_⟩, _, rfl, rfl⟩
  · intro h
    have hcoherent := h.coherent (by rintro (_ | _ | w) <;> rfl)
    exact absurd (hcoherent.mode rfl) (by decide)
  · intro h
    have hcoherent := h.coherent (by rintro (_ | _ | w) <;> rfl)
    exact absurd (hcoherent.mode rfl) (by decide)

end EcidsCore
