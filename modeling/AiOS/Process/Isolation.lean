import AiOS.Process.Schedule

/-!
This module proves that a switch into a process loads the context that was stored for it last.
-/

namespace AiOS

/--
Neither process 0 nor the process that runs is destroyed.
-/
def Event.Sparing (s : Session) (e : Event) : Prop :=
  match e with
  | .destroy pid => pid ≠ 0 ∧ pid ≠ UInt32.ofNat s.kernel.running_process_idx
  | _ => True

namespace Session

variable {layout : Layout} {s s' : Session} {e : Event} {m n : Nat}

def loaded (s : Session) : Context :=
  (s.kernel.process_list s.kernel.running_process_idx).context

/--
The context that a step stores for the slot `p`: a timer interrupt while `p` runs, or the creation
of a process in `p`.
-/
def stored (p : Fin 16) (step : Session × Event × Session) : Option Context :=
  match step with
  | (s, .timer frame, _) =>
    if p = s.kernel.running_process_idx then
      some (main_interrupt_handler.currentContext frame s.kernel)
    else
      none
  | (s, .create _, s') =>
    if s.live p = false ∧ s'.live p = true then
      some (s'.kernel.process_list p).context
    else
      none
  | _ => none

def Kept (step : Session × Event × Session) : Prop :=
  ∀ p, step.1.live p = true → step.2.2.live p = true → stored p step = none →
    (step.2.2.kernel.process_list p).context = (step.1.kernel.process_list p).context

/--
At a timer interrupt the slot of the scheduler is the only one that runs, and the switch loads the
context that was stored for its slot by the latest of all steps, this one among them. No step alters
a context in any other way.
-/
structure Isolated (s : Session) (steps : List (Session × Event × Session))
    (frame : InterruptFrame) (s' : Session) : Prop where
  running : ∀ i, (s.kernel.process_list i).state = .RUNNING ↔ i = s.kernel.running_process_idx
  loaded : System.latest (stored s'.kernel.running_process_idx) (steps ++ [(s, .timer frame, s')])
    = some s'.loaded
  kept : ∀ step ∈ steps ++ [(s, .timer frame, s')], Kept step

structure Kempt (steps : List (Session × Event × Session)) (s : Session) : Prop where
  steady : s.Steady
  sound : ∃ n, s.Sound n
  first : s.live 0 = true
  latest : ∀ p, s.live p = true → p ≠ s.kernel.running_process_idx →
    System.latest (stored p) steps = some (s.kernel.process_list p).context
  kept : ∀ step ∈ steps, Kept step

theorem Steady.safe (h : s.Steady) (hfirst : s.live 0 = true) (hsparing : e.Sparing s)
    : e.Safe s := by
  cases e with
  | create request => trivial
  | destroy pid => exact hsparing.2
  | files driver_state disk => trivial
  | timer frame =>
    unfold Event.Safe
    cases decEq s.kernel.running_process_idx 0 with
    | isTrue hzero => exact Or.inl hzero
    | isFalse hne =>
      refine Or.inr ⟨0, Ne.symm hne, ?_⟩
      rw [h.state, if_neg (Ne.symm hne), if_pos hfirst]

theorem Steady.timer_context (h : s.Steady) (frame : InterruptFrame) (p : Fin 16)
    : ((main_interrupt_handler.timer frame s.kernel).process_list p).context
        =
      if p = s.kernel.running_process_idx then
        main_interrupt_handler.currentContext frame s.kernel
      else
        (s.kernel.process_list p).context := by
  rw [main_interrupt_handler.timer_eq]
  rw [scheduler_switch_to_next_process.process_list_context]
  unfold scheduler_save_context_to_current_running_pcb
  rw [h.current_running]
  dsimp only
  rw [Function.update_apply]
  split
  . rfl
  . rfl

theorem live_zero_of_change (hchange : Change s n e m s') (hfirst : s.live 0 = true)
    (hsparing : e.Sparing s)
    : s'.live 0 = true := by
  cases hchange with
  | kept _ _ hlive _ => rw [hlive, hfirst]
  | switched _ hlive _ => rw [hlive, hfirst]
  | filled _ hlive _ =>
    rw [hlive, Function.update_apply]
    split
    . rfl
    . exact hfirst
  | @cleared s' i _ hlive _ =>
    have hne : (0 : Fin 16) ≠ i := by
      intro heq
      apply hsparing.1
      rw [← heq]
      rfl
    rw [hlive, Function.update_of_ne hne, hfirst]

/--
For a slot that is live after the step, either the step stores the context the slot has then, or the
slot was live before and keeps its context.
-/
inductive Noted (s : Session) (e : Event) (s' : Session) (p : Fin 16) : Prop where
  | stored : stored p (s, e, s') = some (s'.kernel.process_list p).context → Noted s e s' p
  | kept : stored p (s, e, s') = none → s.live p = true →
    (s'.kernel.process_list p).context = (s.kernel.process_list p).context →
      (p = s.kernel.running_process_idx → p = s'.kernel.running_process_idx) → Noted s e s' p

theorem stored_create_eq_none {request : FAT32DriverRequest} {p : Fin 16}
    (hlive : s'.live p = s.live p)
    : stored p (s, .create request, s') = none := by
  unfold stored
  dsimp only
  rw [hlive, if_neg]
  intro h
  rw [h.1] at h
  exact Bool.false_ne_true h.2

theorem Steady.noted_timer (h : s.Steady) {frame : InterruptFrame}
    (hstep : s.exec layout (.timer frame) = some s') {p : Fin 16} (hlive : s'.live p = true)
    : Noted s (.timer frame) s' p ∧
      (stored p (s, .timer frame, s') = none → p ≠ s.kernel.running_process_idx) := by
  injection hstep with hstep
  rw [← hstep] at hlive ⊢
  have hcontext := h.timer_context frame p
  unfold stored
  dsimp only
  split
  . next heq =>
    rw [if_pos heq] at hcontext
    refine ⟨.stored ?_, ?_⟩
    . unfold stored
      dsimp only
      rw [if_pos heq, hcontext]
    . intro hnone
      contradiction
  . next hne =>
    rw [if_neg hne] at hcontext
    refine ⟨.kept ?_ hlive hcontext (fun heq => absurd heq hne), fun _ => hne⟩
    unfold stored
    dsimp only
    rw [if_neg hne]

theorem noted_of_kept (hsame : SameProcesses s.kernel s'.kernel) {p : Fin 16}
    (hstored : stored p (s, e, s') = none) (hlive : s.live p = true)
    : Noted s e s' p := by
  apply Noted.kept hstored hlive
  . rw [hsame.process_list]
  . intro heq
    rw [hsame.running_process_idx, heq]

theorem noted_create {request : FAT32DriverRequest} (hsound : s.Sound n)
    (hchange : Change s n (.create request) m s') {p : Fin 16} (hlive : s'.live p = true)
    : Noted s (.create request) s' p := by
  cases hchange with
  | kept _ hsame hsame_live _ =>
    have hsame_p := congrFun hsame_live p
    rw [hsame_p] at hlive
    apply noted_of_kept hsame (stored_create_eq_none hsame_p) hlive
  | @filled _ s' p_index pcb hfilled hsame_live _ =>
    cases decEq p p_index with
    | isTrue heq =>
      apply Noted.stored
      unfold stored
      dsimp only
      rw [if_pos]
      refine ⟨?_, hlive⟩
      rw [hsound.live, heq]
      apply Slots.used_of_free hfilled.inactive
    | isFalse hne =>
      have hsame_p : s'.live p = s.live p := by
        rw [hsame_live, Function.update_of_ne hne]
      rw [hsame_p] at hlive
      apply Noted.kept (stored_create_eq_none hsame_p) hlive
      . rw [hfilled.process_list, Function.update_of_ne hne]
      . intro heq
        rw [hfilled.running_process_idx, heq]

theorem noted_destroy {pid : UInt32} (hchange : Change s n (.destroy pid) m s') {p : Fin 16}
    (hlive : s'.live p = true)
    : Noted s (.destroy pid) s' p := by
  cases hchange with
  | kept _ hsame hsame_live _ =>
    rw [hsame_live] at hlive
    apply noted_of_kept hsame rfl hlive
  | @cleared s' i hcleared hsame_live _ =>
    have hne : p ≠ i := by
      intro heq
      rw [hsame_live, heq, Function.update_self] at hlive
      contradiction
    rw [hsame_live, Function.update_of_ne hne] at hlive
    apply Noted.kept rfl hlive
    . rw [hcleared.process_list, Function.update_of_ne hne]
    . intro heq
      rw [hcleared.running_process_idx, heq]

theorem Steady.noted (h : s.Steady) (hsound : s.Sound n) (hstep : s.exec layout e = some s')
    {p : Fin 16} (hlive : s'.live p = true)
    : Noted s e s' p := by
  rcases hsound.exec hstep with ⟨m, _, hchange⟩
  cases e with
  | create request => apply noted_create hsound hchange hlive
  | destroy pid => apply noted_destroy hchange hlive
  | timer frame => exact (h.noted_timer hstep hlive).1
  | files driver_state disk =>
    injection hstep with hstep
    have hsame : SameProcesses s.kernel s'.kernel := by
      rw [← hstep]
      exact ⟨rfl, rfl, rfl, rfl⟩
    rw [← hstep] at hlive
    apply noted_of_kept hsame rfl hlive

theorem Steady.kept (h : s.Steady) (hsound : s.Sound n) (hstep : s.exec layout e = some s')
    : Kept (s, e, s') := by
  intro p _ hlive hnone
  cases h.noted hsound hstep hlive with
  | stored hsome =>
    rw [hnone] at hsome
    contradiction
  | kept _ _ hcontext _ => exact hcontext

namespace Kempt

variable {steps : List (Session × Event × Session)} (h : Kempt steps s)

include h

theorem kept_concat (hstep : s.exec layout e = some s')
    : ∀ step ∈ steps ++ [(s, e, s')], Kept step := by
  intro step hmem
  rw [List.mem_append, List.mem_singleton] at hmem
  rcases h.sound with ⟨n, hsound⟩
  rcases hmem with hmem | heq
  . exact h.kept step hmem
  . rw [heq]
    apply h.steady.kept hsound hstep

theorem latest_of_noted {p : Fin 16} (hnoted : Noted s e s' p)
    (hrunning : stored p (s, e, s') = none → p ≠ s.kernel.running_process_idx)
    : System.latest (stored p) (steps ++ [(s, e, s')])
        =
      some (s'.kernel.process_list p).context := by
  rw [System.latest_concat]
  cases hnoted with
  | stored hsome =>
    rw [hsome]
    rfl
  | kept hnone hlive hcontext _ =>
    rw [hnone, Option.none_or, h.latest p hlive (hrunning hnone), hcontext]

theorem step (hsparing : e.Sparing s) (hstep : s.exec layout e = some s')
    : Kempt (steps ++ [(s, e, s')]) s' := by
  have hsafe := h.steady.safe h.first hsparing
  rcases h.sound with ⟨n, hsound⟩
  rcases hsound.exec hstep with ⟨m, hsound', hchange⟩
  constructor
  . apply h.steady.of_change hchange hsound hsafe
  . exact ⟨m, hsound'⟩
  . apply live_zero_of_change hchange h.first hsparing
  . intro p hlive hne
    have hnoted := h.steady.noted hsound hstep hlive
    apply h.latest_of_noted hnoted
    intro hnone heq
    cases hnoted with
    | stored hsome =>
      rw [hnone] at hsome
      contradiction
    | kept _ _ _ hstays => exact hne (hstays heq)
  . apply h.kept_concat hstep

theorem isolated {frame : InterruptFrame} (hstep : s.exec layout (.timer frame) = some s')
    : Isolated s steps frame s' := by
  have hsafe := h.steady.safe (e := .timer frame) h.first trivial
  rcases h.sound with ⟨n, hsound⟩
  have hlive : s'.live s'.kernel.running_process_idx = true := by
    injection hstep with hstep
    rw [← hstep]
    dsimp only
    rw [(switched_timer frame s.kernel).running_process_idx]
    apply h.steady.live_pilihan hsafe
  rcases h.steady.noted_timer hstep hlive with ⟨hnoted, hrunning⟩
  exact ⟨h.steady.running_iff, h.latest_of_noted hnoted hrunning, h.kept_concat hstep⟩

end Kempt

theorem kempt_of_first (h : (sessions layout).init s) (hfirst : s.kernel.First) : Kempt [] s where
  steady := steady_of_first h hfirst
  sound := sound_of_init h
  first := by
    rw [h.2.1]
    exact hfirst.created
  latest p hlive hne := by
    rw [h.2.1, hfirst.used_process] at hlive
    rw [hfirst.running_process_idx] at hne
    simp [hne] at hlive
  kept step hmem := by
    contradiction

end Session

/--
After a boot that has created process 0, in every run that destroys neither process 0 nor the process
that runs, each timer interrupt loads what was stored last for the slot it switches into.
-/
theorem isolated_of_sparing {layout : Layout} {s₀ s s' : Session}
    {steps : List (Session × Event × Session)} {frame : InterruptFrame}
    (h : (sessions layout).init s₀) (hcreated : s₀.kernel.used_process 0 = true)
    (hrun : (sessions layout).Run (fun s e => e.Sparing s) s₀ steps s)
    (hstep : s.exec layout (.timer frame) = some s')
    : s.Isolated steps frame s' := by
  have hkempt : Session.Kempt steps s := by
    apply hrun.invariant (J := Session.Kempt)
    . apply Session.kempt_of_first h (h.1.cases.2 hcreated)
    . intro steps s e s' hkempt hsparing hstep
      apply hkempt.step hsparing hstep
  apply hkempt.isolated hstep

theorem Tour.run {s₀ s₁ s₂ s₃ s₄ : Session} (h : Tour s₀ s₁ s₂ s₃ s₄)
    : (sessions .low).Run (fun s e => e.Sparing s) s₀
        [(s₀, .create kernel_setup.request, s₁), (s₁, .timer timer_frame, s₂),
          (s₂, .timer timer_frame, s₃)] s₃ :=
  .tail (.tail (.tail .refl trivial h.create) trivial h.away) trivial h.back

-- process 1 gets back what the second of the three timer interrupts has stored
theorem isolated_tour
    : ∃ s₀ s₁ s₂ s₃ s₄ s', Tour s₀ s₁ s₂ s₃ s₄ ∧ s₃.exec .low (.timer timer_frame) = some s' ∧
        s'.kernel.running_process_idx = 1 ∧
        s₃.Isolated [(s₀, .create kernel_setup.request, s₁), (s₁, .timer timer_frame, s₂),
          (s₂, .timer timer_frame, s₃)] timer_frame s' := by
  rcases exists_tour with ⟨s₀, s₁, s₂, s₃, s₄, h⟩
  rcases h.steady.exec_of_pair h.grown (i := 0) (by decide) (by decide) h.second with
    ⟨t, hback, hsteady, hgrown, hfirst⟩
  have ht : t = s₃ := by
    apply Option.some.inj
    rw [← hback, h.back]
  rw [ht] at hsteady hgrown hfirst
  rcases hsteady.exec_of_pair hgrown (i := 1) (by decide) (by decide) hfirst with
    ⟨s', hstep, _, _, hsecond⟩
  exact ⟨s₀, s₁, s₂, s₃, s₄, s', h, hstep, hsecond,
    isolated_of_sparing h.init h.created h.run hstep⟩

end AiOS
