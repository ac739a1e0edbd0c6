import AiOS.Process.Boot

/-!
This module contains the runs in which the scheduler keeps to live processes, and how the others go
wrong.
-/

namespace AiOS

/--
The step keeps the scheduler to live processes: a timer interrupt finds the process that runs, and
switches into a live one, and only a creation brings a killed slot back.
-/
structure Scheduled (s : Session) (e : Event) (s' : Session) : Prop where
  target : ∀ frame, e = .timer frame → s.live s'.kernel.running_process_idx = true
  killed : ∀ i, (s.kernel.process_list i).state = .KILLED →
    (s'.kernel.process_list i).state ≠ .KILLED → ∃ request, e = .create request
  running : ∀ frame, e = .timer frame → (∃ i, s.live i = true) →
    process_get_current_running_pcb_pointer s.kernel = some s.kernel.running_process_idx ∧
      ∀ i, (s.kernel.process_list i).state = .RUNNING → i = s.kernel.running_process_idx

/--
The process that runs is not destroyed, and a timer interrupt finds another one that is ready, unless
process 0 runs.
-/
def Event.Safe (s : Session) (e : Event) : Prop :=
  match e with
  | .destroy pid => pid ≠ UInt32.ofNat s.kernel.running_process_idx
  | .timer _ =>
    s.kernel.running_process_idx = 0 ∨
      ∃ i ≠ s.kernel.running_process_idx, (s.kernel.process_list i).state = .READY
  | _ => True

namespace Session

variable {layout : Layout} {s s' : Session} {e : Event} {m n : Nat}

/--
The slot of the scheduler runs a live process, and any other live process is ready.
-/
structure Steady (s : Session) : Prop where
  running : s.live s.kernel.running_process_idx = true
  state : ∀ i, (s.kernel.process_list i).state =
    if i = s.kernel.running_process_idx then .RUNNING else if s.live i then .READY else .KILLED

namespace Steady

variable (h : s.Steady)

include h

theorem live_of_ready {i : Fin 16} (hready : (s.kernel.process_list i).state = .READY)
    : s.live i = true := by
  rw [h.state] at hready
  split at hready
  . contradiction
  . split at hready
    . assumption
    . contradiction

theorem running_iff (i : Fin 16)
    : (s.kernel.process_list i).state = .RUNNING ↔ i = s.kernel.running_process_idx := by
  rw [h.state]
  split
  . next hi => simp [hi]
  . next hi =>
    split
    . simp [hi]
    . simp [hi]

theorem not_live_of_killed {i : Fin 16} (hkilled : (s.kernel.process_list i).state = .KILLED)
    : s.live i = false ∧ i ≠ s.kernel.running_process_idx := by
  rw [h.state] at hkilled
  split at hkilled
  . contradiction
  . next hi =>
    split at hkilled
    . contradiction
    . next hdead => exact ⟨Bool.eq_false_of_not_eq_true hdead, hi⟩

theorem current_running
    : process_get_current_running_pcb_pointer s.kernel = some s.kernel.running_process_idx := by
  unfold process_get_current_running_pcb_pointer
  rw [Fin.find?_eq_some_iff]
  simp only [decide_eq_true_iff, decide_eq_false_iff_not, h.running_iff]
  refine ⟨trivial, ?_⟩
  intro j hj
  exact Fin.ne_of_lt hj

theorem live_pilihan {frame : InterruptFrame} (hsafe : Event.Safe s (.timer frame))
    : s.live (scheduler_switch_to_next_process.pilihan s.kernel) = true := by
  by_cases hready : ∃ i ≠ s.kernel.running_process_idx, (s.kernel.process_list i).state = .READY
  . apply h.live_of_ready (scheduler_switch_to_next_process.pilihan_ready s.kernel hready).2
  . have hzero := hsafe.resolve_right hready
    rw [scheduler_switch_to_next_process.pilihan_zero s.kernel hready, ← hzero]
    apply h.running

theorem of_switched (hsafe : s.live (scheduler_switch_to_next_process.pilihan s.kernel) = true)
    (hswitched : Switched s.kernel s'.kernel) (hlive : s'.live = s.live)
    : s'.Steady where
  running := by
    rw [hswitched.running_process_idx, hlive]
    apply hsafe
  state i := by
    rw [hswitched.state, hswitched.running_process_idx, hlive]
    split
    . rfl
    . split
      . next hi => rw [hi, if_pos h.running]
      . next hi => rw [h.state, if_neg hi]

theorem of_filled {p_index : Fin 16} {pcb : ProcessControlBlock} (hsound : s.Sound n)
    (hfilled : Filled s.kernel s'.kernel p_index pcb)
    (hlive : s'.live = Function.update s.live p_index true)
    : s'.Steady := by
  have hdead : s.live p_index = false := by
    rw [hsound.live]
    apply Slots.used_of_free hfilled.inactive
  have hne : s.kernel.running_process_idx ≠ p_index := by
    intro heq
    have hrunning := h.running
    rw [heq, hdead] at hrunning
    contradiction
  constructor
  . rw [hlive, hfilled.running_process_idx, Function.update_of_ne hne]
    apply h.running
  . intro i
    rw [hlive, hfilled.running_process_idx, hfilled.process_list]
    by_cases hi : i = p_index
    . rw [hi, Function.update_self, Function.update_self, if_neg hne.symm, if_pos rfl]
      apply hfilled.ready
    . rw [Function.update_of_ne hi, Function.update_of_ne hi]
      apply h.state

theorem of_cleared {i : Fin 16} (hne : i ≠ s.kernel.running_process_idx)
    (hcleared : Cleared s.kernel s'.kernel i) (hlive : s'.live = Function.update s.live i false)
    : s'.Steady := by
  constructor
  . rw [hlive, hcleared.running_process_idx, Function.update_of_ne hne.symm]
    apply h.running
  . intro j
    rw [hlive, hcleared.running_process_idx, hcleared.process_list]
    by_cases hj : j = i
    . rw [hj, Function.update_self, Function.update_self, if_neg hne, if_neg Bool.false_ne_true]
      rfl
    . rw [Function.update_of_ne hj, Function.update_of_ne hj]
      apply h.state

theorem of_change (hchange : Change s n e m s') (hsound : s.Sound n) (hsafe : e.Safe s)
    : s'.Steady := by
  cases hchange with
  | kept _ hsame hlive _ =>
    constructor
    . rw [hlive, hsame.running_process_idx]
      apply h.running
    . intro i
      rw [hlive, hsame.running_process_idx, hsame.process_list]
      apply h.state
  | filled hfilled hlive _ => apply h.of_filled hsound hfilled hlive
  | cleared hcleared hlive _ =>
    apply h.of_cleared _ hcleared hlive
    intro hi
    apply hsafe
    rw [hi]
  | switched hswitched hlive _ => apply h.of_switched (h.live_pilihan hsafe) hswitched hlive

theorem scheduled_of_change (hchange : Change s n e m s') (hsafe : e.Safe s)
    : Scheduled s e s' := by
  constructor
  . intro frame he
    rw [he] at hchange hsafe
    cases hchange with
    | kept _ hsame _ _ =>
      rw [hsame.running_process_idx]
      apply h.running
    | switched hswitched _ _ =>
      rw [hswitched.running_process_idx]
      apply h.live_pilihan hsafe
  . intro i hkilled hback
    rcases h.not_live_of_killed hkilled with ⟨hdead, hi⟩
    cases hchange with
    | kept _ hsame _ _ =>
      rw [hsame.process_list] at hback
      apply absurd hkilled hback
    | filled _ _ _ => exact ⟨_, rfl⟩
    | cleared hcleared _ _ =>
      exfalso
      apply hback
      rw [hcleared.process_list, Function.update_apply]
      split
      . rfl
      . exact hkilled
    | switched hswitched _ _ =>
      exfalso
      have hpilihan : i ≠ scheduler_switch_to_next_process.pilihan s.kernel := by
        intro heq
        have hlive := h.live_pilihan hsafe
        rw [← heq, hdead] at hlive
        contradiction
      rw [hswitched.state, if_neg hpilihan, if_neg hi] at hback
      exact hback hkilled
  . intro _ _ _
    exact ⟨h.current_running, fun i => (h.running_iff i).mp⟩

end Steady

theorem steady_of_first (h : (sessions layout).init s) (hfirst : s.kernel.First) : s.Steady where
  running := by
    rw [h.2.1, hfirst.running_process_idx, hfirst.used_process]
    rfl
  state i := by
    rw [h.2.1, hfirst.running_process_idx, hfirst.used_process, hfirst.state]
    split
    . rfl
    . next hi => simp [hi]

theorem Steady.of_leads (h : s.Steady) (hsound : s.Sound n)
    (hleads : (sessions layout).Leads (fun s e => e.Safe s) s s')
    : s'.Steady ∧ ∃ m, s'.Sound m := by
  apply System.Leads.invariant (I := fun s => s.Steady ∧ ∃ m, s.Sound m) hleads ⟨h, n, hsound⟩
  intro s e s' ⟨h, n, hs⟩ hsafe hstep
  rcases hs.exec hstep with ⟨m, hs', hchange⟩
  exact ⟨h.of_change hchange hs hsafe, m, hs'⟩

theorem Steady.not_scheduled_of_timer {frame : InterruptFrame} (h : s.Steady)
    (hcareless : ¬ Event.Safe s (.timer frame)) (hstep : s.exec layout (.timer frame) = some s')
    : ¬ Scheduled s (.timer frame) s' := by
  intro hscheduled
  unfold Event.Safe at hcareless
  rw [not_or] at hcareless
  injection hstep with hstep
  have htarget := hscheduled.target frame rfl
  rw [← hstep] at htarget
  dsimp only at htarget
  rw [(switched_timer frame s.kernel).running_process_idx] at htarget
  rw [scheduler_switch_to_next_process.pilihan_zero s.kernel hcareless.2] at htarget
  apply hcareless.2
  refine ⟨0, fun hzero => hcareless.1 hzero.symm, ?_⟩
  rw [h.state, if_neg (fun hzero => hcareless.1 hzero.symm), if_pos htarget]

def Stopped (s : Session) : Prop :=
  ∀ i, (s.kernel.process_list i).state = if s.live i then .READY else .KILLED

theorem Steady.stopped_of_destroy (h : s.Steady) (hsound : s.Sound n)
    (hstep : s.exec layout (.destroy (UInt32.ofNat s.kernel.running_process_idx)) = some s')
    : s'.Stopped := by
  rcases exec_destroy_of_live layout hsound h.running with ⟨t, ht, hcleared, hlive⟩
  rw [ht] at hstep
  injection hstep with hstep
  rw [← hstep]
  intro i
  rw [hlive, hcleared.process_list, Function.update_apply, Function.update_apply]
  split
  . rfl
  . next hi => rw [h.state, if_neg hi]

theorem Stopped.of_change (h : s.Stopped) (hchange : Change s n e m s')
    (htimer : ∀ frame, e ≠ .timer frame)
    : s'.Stopped := by
  intro i
  cases hchange with
  | kept _ hsame hlive _ =>
    rw [hlive, hsame.process_list]
    apply h
  | filled hfilled hlive _ =>
    rw [hlive, hfilled.process_list, Function.update_apply, Function.update_apply]
    split
    . apply hfilled.ready
    . apply h
  | cleared hcleared hlive _ =>
    rw [hlive, hcleared.process_list, Function.update_apply, Function.update_apply]
    split
    . rfl
    . apply h
  | switched _ _ _ => exact absurd rfl (htimer _)

theorem Stopped.not_scheduled (h : s.Stopped) (frame : InterruptFrame)
    : ¬ Scheduled s (.timer frame) s' := by
  intro hscheduled
  have hlive := hscheduled.target frame rfl
  have hcurrent := (hscheduled.running frame rfl ⟨_, hlive⟩).1
  unfold process_get_current_running_pcb_pointer at hcurrent
  rw [Fin.find?_eq_some_iff, decide_eq_true_iff, h] at hcurrent
  split at hcurrent
  . exact absurd hcurrent.1 (by decide)
  . exact absurd hcurrent.1 (by decide)

theorem Steady.not_scheduled_after_destroy {s₁ : Session} (h : s.Steady) (hsound : s.Sound n)
    (hstep : s.exec layout (.destroy (UInt32.ofNat s.kernel.running_process_idx)) = some s₁)
    (hleads : (sessions layout).Leads (fun _ e => ∀ frame, e ≠ .timer frame) s₁ s')
    (frame : InterruptFrame) (s'' : Session)
    : ¬ Scheduled s' (.timer frame) s'' := by
  have hstopped := h.stopped_of_destroy hsound hstep
  rcases hsound.exec hstep with ⟨m, hsound₁, _⟩
  have hboth : s'.Stopped ∧ ∃ m, s'.Sound m := by
    apply System.Leads.invariant (I := fun s => s.Stopped ∧ ∃ m, s.Sound m) hleads
      ⟨hstopped, m, hsound₁⟩
    intro s e s' ⟨h, n, hs⟩ htimer hstep
    rcases hs.exec hstep with ⟨m, hs', hchange⟩
    exact ⟨h.of_change hchange htimer, m, hs'⟩
  apply hboth.1.not_scheduled

end Session

/--
After a boot that has created process 0, as long as all events are safe, each step keeps the
scheduler to live processes.
-/
theorem scheduled_of_safe {layout : Layout} {s₀ s s' : Session} {e : Event}
    (h : (sessions layout).init s₀) (hcreated : s₀.kernel.used_process 0 = true)
    (hleads : (sessions layout).Leads (fun s e => e.Safe s) s₀ s) (hsafe : e.Safe s)
    (hstep : s.exec layout e = some s')
    : Scheduled s e s' := by
  rcases Session.sound_of_init h with ⟨n, hsound⟩
  have hsteady := Session.steady_of_first h (h.1.cases.2 hcreated)
  rcases hsteady.of_leads hsound hleads with ⟨hsteady', k, hsound'⟩
  rcases hsound'.exec hstep with ⟨m, _, hchange⟩
  apply hsteady'.scheduled_of_change hchange hsafe

def timer_frame : InterruptFrame :=
  ⟨.zero, 0x20, 0, 0, 0x1B, 0x202⟩

/--
A second process is created after the boot, takes its turn, and is destroyed once process 0 runs
again.
-/
structure Tour (s₀ s₁ s₂ s₃ s₄ : Session) : Prop where
  init : (sessions .low).init s₀
  created : s₀.kernel.used_process 0 = true
  alone : s₀.Grown 1
  create : s₀.exec .low (.create kernel_setup.request) = some s₁
  begun : s₁.kernel.running_process_idx = 0
  away : s₁.exec .low (.timer timer_frame) = some s₂
  steady : s₂.Steady
  grown : s₂.Grown 2
  second : s₂.kernel.running_process_idx = 1
  back : s₂.exec .low (.timer timer_frame) = some s₃
  first : s₃.kernel.running_process_idx = 0
  destroy : s₃.exec .low (.destroy 1) = some s₄
  live : s₄.live = fun i => decide (i = 0)
  still : s₄.kernel.running_process_idx = 0

theorem Session.Steady.pilihan_of_pair {s : Session} (h : s.Steady) (hgrown : s.Grown 2)
    {i j : Fin 16} (hi : i.val < 2) (hne : i ≠ j) (hj : s.kernel.running_process_idx = j)
    : scheduler_switch_to_next_process.pilihan s.kernel = i := by
  have hready : (s.kernel.process_list i).state = .READY := by
    rw [h.state, hj, if_neg hne, if_pos ((hgrown.filled i).mpr hi)]
  rw [← hj] at hne
  rcases scheduler_switch_to_next_process.pilihan_ready s.kernel ⟨i, hne, hready⟩ with
    ⟨hother, hready'⟩
  have hlt := (hgrown.filled _).mp (h.live_of_ready hready')
  have hrunning := (hgrown.filled _).mp h.running
  rw [ne_eq, Fin.ext_iff] at hne hother
  apply Fin.ext
  omega

theorem Session.Steady.exec_of_pair {s : Session} (h : s.Steady) (hgrown : s.Grown 2)
    {i j : Fin 16} (hi : i.val < 2) (hne : i ≠ j) (hj : s.kernel.running_process_idx = j)
    : ∃ s', s.exec .low (.timer timer_frame) = some s' ∧ s'.Steady ∧ s'.Grown 2 ∧
        s'.kernel.running_process_idx = i := by
  have hpilihan := h.pilihan_of_pair hgrown hi hne hj
  have hswitched := switched_timer timer_frame s.kernel
  refine ⟨_, rfl, h.of_switched ?_ hswitched rfl, hgrown.timer timer_frame, ?_⟩
  . rw [hpilihan, hgrown.filled]
    exact hi
  . rw [← hpilihan, ← hswitched.running_process_idx]

theorem exists_tour : ∃ s₀ s₁ s₂ s₃ s₄, Tour s₀ s₁ s₂ s₃ s₄ := by
  rcases Session.exists_grown with ⟨s₀, hinit, hfirst, hgrown₀⟩
  rcases hgrown₀.create (by omega) with ⟨s₁, _, hcreate, hgrown₁, hrunning, _⟩
  rw [hfirst.running_process_idx] at hrunning
  rcases Session.sound_of_init hinit with ⟨n, hsound⟩
  have hcreated : (sessions .low).Leads (fun s e => e.Safe s) s₀ s₁ :=
    .single ⟨.create kernel_setup.request, trivial, hcreate⟩
  rcases (Session.steady_of_first hinit hfirst).of_leads hsound hcreated with ⟨hsteady₁, _⟩
  rcases hsteady₁.exec_of_pair hgrown₁ (i := 1) (by decide) (by decide) hrunning with
    ⟨s₂, haway, hsteady₂, hgrown₂, hsecond⟩
  rcases hsteady₂.exec_of_pair hgrown₂ (i := 0) (by decide) (by decide) hsecond with
    ⟨s₃, hback, _, hgrown₃, hfirst₃⟩
  rcases hgrown₃.sound with ⟨m, _, hsound₃⟩
  have hlive : s₃.live 1 = true := (hgrown₃.filled 1).mpr (by decide)
  rcases Session.exec_destroy_of_live .low hsound₃ hlive with ⟨s₄, hdestroy, hcleared, hlive₄⟩
  refine ⟨s₀, s₁, s₂, s₃, s₄, hinit, hfirst.created, hgrown₀, hcreate, hrunning, haway, hsteady₂,
    hgrown₂, hsecond, hback, hfirst₃, hdestroy, ?_, hcleared.running_process_idx.trans hfirst₃⟩
  rw [hlive₄]
  funext i
  by_cases hi : i = 1
  . rw [hi, Function.update_self]
    rfl
  . rw [Function.update_of_ne hi, Bool.eq_iff_iff, hgrown₃.filled, decide_eq_true_iff]
    omega

namespace Tour

variable {s₀ s₁ s₂ s₃ s₄ : Session} (h : Tour s₀ s₁ s₂ s₃ s₄)

include h

theorem safe_back : Event.Safe s₂ (.timer timer_frame) := by
  right
  refine ⟨0, ?_, ?_⟩
  . rw [h.second]
    decide
  . have hlive : s₂.live 0 = true := (h.grown.filled 0).mpr (by decide)
    rw [h.steady.state, h.second, if_neg (by decide), if_pos hlive]

theorem leads : (sessions .low).Leads (fun s e => e.Safe s) s₀ s₂ :=
  .tail (.single ⟨.create kernel_setup.request, trivial, h.create⟩)
    ⟨.timer timer_frame, Or.inl h.begun, h.away⟩

theorem live_away : s₂.live = s₁.live := by
  have hstep := h.away
  injection hstep with hstep
  rw [← hstep]

theorem leads_back : (sessions .low).Leads (fun s e => e.Safe s) s₂ s₄ := by
  refine .tail (.single ⟨.timer timer_frame, h.safe_back, h.back⟩) ⟨.destroy 1, ?_, h.destroy⟩
  unfold Event.Safe
  dsimp only
  rw [h.first]
  decide

end Tour

theorem scheduled_tour
    : ∃ s₀ s₁ s₂ s₃ s₄ s₅, Tour s₀ s₁ s₂ s₃ s₄ ∧ Scheduled s₂ (.timer timer_frame) s₃ ∧
        s₄.exec .low (.timer timer_frame) = some s₅ ∧ Scheduled s₄ (.timer timer_frame) s₅ := by
  rcases exists_tour with ⟨s₀, s₁, s₂, s₃, s₄, h⟩
  have hsafe : Event.Safe s₄ (.timer timer_frame) := Or.inl h.still
  exact ⟨s₀, s₁, s₂, s₃, s₄, _, h,
    scheduled_of_safe h.init h.created h.leads h.safe_back h.back, rfl,
    scheduled_of_safe h.init h.created (h.leads.trans h.leads_back) hsafe rfl⟩

theorem not_scheduled_first
    : ∃ s₀ s s', (sessions .low).init s₀ ∧ s₀.kernel.used_process 0 = true ∧
        s₀.exec .low (.destroy 0) = some s ∧
        s.exec .low (.timer timer_frame) = some s' ∧ ¬ Scheduled s (.timer timer_frame) s' := by
  rcases exists_session with ⟨s₀, hinit, hfirst, _, n, _, hsound⟩
  have hsteady := Session.steady_of_first hinit hfirst
  rcases Session.exec_destroy_of_live .low hsound hsteady.running with ⟨s, hdestroy, _⟩
  have hstopped := hsteady.stopped_of_destroy hsound hdestroy
  rw [hfirst.running_process_idx] at hdestroy
  exact ⟨s₀, s, _, hinit, hfirst.created, hdestroy, rfl, hstopped.not_scheduled timer_frame⟩

end AiOS
