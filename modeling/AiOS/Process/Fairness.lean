import AiOS.Lib.Turns
import AiOS.Process.Isolation

/-!
This module proves that no live process waits longer than sixteen timer interrupts for its turn,
whatever is created and destroyed in between.
-/

namespace AiOS

namespace Session

variable {layout : Layout} {s s' : Session} {e : Event} {m n : Nat} {p : Fin 16}

def turn (step : Session × Event × Session) : Option (Fin 16) :=
  match step with
  | (_, .timer _, s') => some s'.kernel.running_process_idx
  | _ => none

def turns (steps : List (Session × Event × Session)) : List (Fin 16) :=
  steps.filterMap turn

theorem turns_concat (steps : List (Session × Event × Session)) (step : Session × Event × Session)
    : turns (steps ++ [step]) = turns steps ++ (turn step).toList := by
  unfold turns
  rw [List.filterMap_append]
  cases hturn : turn step with
  | none => simp [hturn]
  | some i => simp [hturn]

structure Spared (s : Session) : Prop where
  steady : s.Steady
  sound : ∃ n, s.Sound n
  first : s.live 0 = true

namespace Spared

theorem of_exec (h : s.Spared) (hsparing : e.Sparing s) (hstep : s.exec layout e = some s')
    : s'.Spared := by
  have hsafe := h.steady.safe h.first hsparing
  rcases h.sound with ⟨n, hsound⟩
  rcases hsound.exec hstep with ⟨m, hsound', hchange⟩
  exact ⟨h.steady.of_change hchange hsound hsafe, ⟨m, hsound'⟩,
    live_zero_of_change hchange h.first hsparing⟩

theorem of_leads (h : s.Spared) (hleads : (sessions layout).Leads (fun s e => e.Sparing s) s s')
    : s'.Spared := by
  apply System.Leads.invariant hleads h
  intro s e s' hs hsparing hstep
  exact hs.of_exec hsparing hstep

theorem ready (h : s.Spared) (hlive : s.live p = true) (hne : p ≠ s.kernel.running_process_idx)
    : (s.kernel.process_list p).state = .READY := by
  rw [h.steady.state, if_neg hne, if_pos hlive]

theorem distance_pilihan (h : s.Spared) (hlive : s.live p = true)
    : scheduler_switch_to_next_process.pilihan s.kernel = p ∨
        Turns.distance (scheduler_switch_to_next_process.pilihan s.kernel) p
          < Turns.distance s.kernel.running_process_idx p := by
  have hsucc : ∀ k : Fin 15, k.succ + s.kernel.running_process_idx
      = k.castSucc + 1 + s.kernel.running_process_idx := by
    intro k
    rw [Fin.coeSucc_eq_succ]
  unfold scheduler_switch_to_next_process.pilihan
  split
  . next k hfind =>
    rw [Fin.find?_eq_some_iff] at hfind
    rw [hsucc]
    by_cases hp : p = s.kernel.running_process_idx
    . right
      apply Turns.distance_step
      rw [hp, sub_self, Fin.lt_def]
      exact k.isLt
    . rcases scheduler_switch_to_next_process.exists_succ_add hp with ⟨j, hj⟩
      rw [hsucc] at hj
      have hle : k ≤ j := by
        by_contra hlt
        have hmiss := hfind.2 j (by omega)
        rw [hsucc, hj, h.ready hlive hp] at hmiss
        contradiction
      cases Nat.lt_or_eq_of_le hle with
      | inl hlt =>
        right
        apply Turns.distance_step
        rw [← hj, add_sub_cancel_right, add_sub_cancel_right]
        exact hlt
      | inr heq =>
        left
        rw [Fin.ext heq, hj]
  . next hfind =>
    -- without a ready slot, only process 0 is live
    left
    rw [Fin.find?_eq_none_iff] at hfind
    have hrunning : ∀ i, s.live i = true → i = s.kernel.running_process_idx := by
      intro i hi
      by_contra hne
      rcases scheduler_switch_to_next_process.exists_succ_add hne with ⟨j, hj⟩
      have hmiss := hfind j
      rw [hj, h.ready hi hne] at hmiss
      simp at hmiss
    rw [hrunning p hlive, hrunning 0 h.first]

theorem distance_timer {frame : InterruptFrame} (h : s.Spared) (hlive : s.live p = true)
    (hstep : s.exec layout (.timer frame) = some s')
    : s'.kernel.running_process_idx = p ∨
        Turns.distance s'.kernel.running_process_idx p
          < Turns.distance s.kernel.running_process_idx p := by
  injection hstep with hstep
  rw [← hstep]
  dsimp only
  rw [(switched_timer frame s.kernel).running_process_idx]
  exact h.distance_pilihan hlive

end Spared

theorem running_of_turn_none (hsound : s.Sound n) (hstep : s.exec layout e = some s')
    (hturn : turn (s, e, s') = none)
    : s'.kernel.running_process_idx = s.kernel.running_process_idx := by
  rcases hsound.exec hstep with ⟨m, _, hchange⟩
  cases hchange with
  | kept _ hsame _ _ => exact hsame.running_process_idx
  | filled hfilled _ _ => exact hfilled.running_process_idx
  | cleared hcleared _ _ => exact hcleared.running_process_idx
  | switched _ _ _ => contradiction

/--
The process has had its turn, or each turn of another one has brought its own turn closer.
-/
def Approached (p : Fin 16) (s : Session) (steps : List (Session × Event × Session)) (s' : Session)
    : Prop :=
  p ∈ turns steps ∨
    Turns.distance s'.kernel.running_process_idx p + (turns steps).length
      ≤ Turns.distance s.kernel.running_process_idx p

theorem Approached.concat {s₀ : Session} {steps : List (Session × Event × Session)}
    (h : Approached p s₀ steps s) (hspared : s.Spared) (hlive : s.live p = true)
    (hstep : s.exec layout e = some s')
    : Approached p s₀ (steps ++ [(s, e, s')]) s' := by
  unfold Approached at *
  rw [turns_concat]
  rcases h with hmem | hle
  . exact Or.inl (List.mem_append_left _ hmem)
  . rcases hspared.sound with ⟨n, hsound⟩
    cases e with
    | timer frame =>
      have hturn : (turn (s, .timer frame, s')).toList = [s'.kernel.running_process_idx] := rfl
      rw [hturn]
      rcases hspared.distance_timer hlive hstep with heq | hlt
      . left
        rw [heq]
        exact List.mem_append_right _ (List.mem_singleton.mpr rfl)
      . right
        rw [List.length_append, List.length_singleton]
        omega
    | create request =>
      have hturn : (turn (s, .create request, s')).toList = [] := rfl
      rw [running_of_turn_none hsound hstep rfl, hturn, List.append_nil]
      exact Or.inr hle
    | destroy pid =>
      have hturn : (turn (s, .destroy pid, s')).toList = [] := rfl
      rw [running_of_turn_none hsound hstep rfl, hturn, List.append_nil]
      exact Or.inr hle
    | files driver_state disk =>
      have hturn : (turn (s, .files driver_state disk, s')).toList = [] := rfl
      rw [running_of_turn_none hsound hstep rfl, hturn, List.append_nil]
      exact Or.inr hle

end Session

/--
After a boot that has created process 0, in every run that destroys neither process 0 nor the process
that runs, sixteen timer interrupts switch into every process that is live all the while, whatever
else happens between them.
-/
theorem no_starvation {layout : Layout} {s₀ s s' : Session}
    {steps : List (Session × Event × Session)} {p : Fin 16}
    (h : (sessions layout).init s₀) (hcreated : s₀.kernel.used_process 0 = true)
    (hleads : (sessions layout).Leads (fun s e => e.Sparing s) s₀ s)
    (hrun : (sessions layout).Run (fun s e => e.Sparing s) s steps s')
    (hlive : ∀ step ∈ steps, step.1.live p = true) (hlong : 16 ≤ (Session.turns steps).length)
    : p ∈ Session.turns steps := by
  have hfirst : s₀.kernel.First := h.1.cases.2 hcreated
  have hspared₀ : s₀.Spared :=
    ⟨Session.steady_of_first h hfirst, Session.sound_of_init h, by rw [h.2.1]; exact hcreated⟩
  have hspared := hspared₀.of_leads hleads
  have happroached : s'.Spared ∧ Session.Approached p s steps s' := by
    clear hlong
    induction hrun with
    | refl => exact ⟨hspared, Or.inr (Nat.le_refl _)⟩
    | @tail steps t t' e _ hsparing hstep ih =>
      have hbefore : ∀ step ∈ steps, step.1.live p = true := by
        intro step hmem
        exact hlive step (List.mem_append_left _ hmem)
      rcases ih hbefore with ⟨hspared', happroached⟩
      have hlast : t.live p = true :=
        hlive (t, e, t') (List.mem_append_right _ (List.mem_singleton.mpr rfl))
      exact ⟨hspared'.of_exec hsparing hstep, happroached.concat hspared' hlast hstep⟩
  rcases happroached.2 with hmem | hle
  . exact hmem
  . have hbound := Turns.distance_le (r := s.kernel.running_process_idx) (i := p)
    have hpos := Turns.distance_pos (r := s'.kernel.running_process_idx) (i := p)
    omega

theorem no_starvation.exists_run {s₀ s : Session} {steps : List (Session × Event × Session)}
    (hrun : (sessions .low).Run (fun s e => e.Sparing s) s₀ steps s) (count : Nat)
    : ∃ steps' s', (sessions .low).Run (fun s e => e.Sparing s) s₀ (steps ++ steps') s' ∧
        (Session.turns steps').length = count ∧ s'.live = s.live ∧
        ∀ step ∈ steps', step.1.live = s.live := by
  induction count with
  | zero =>
    refine ⟨[], s, ?_, rfl, rfl, by simp⟩
    rw [List.append_nil]
    exact hrun
  | succ count ih =>
    rcases ih with ⟨steps', s', hrun', hlength, hlive, hsteps⟩
    let s'' : Session := { s' with kernel := main_interrupt_handler.timer timer_frame s'.kernel }
    refine ⟨steps' ++ [(s', .timer timer_frame, s'')], s'', ?_, ?_, hlive, ?_⟩
    . rw [← List.append_assoc]
      exact .tail hrun' trivial rfl
    . rw [Session.turns_concat, List.length_append, hlength]
      rfl
    . intro step hmem
      rw [List.mem_append, List.mem_singleton] at hmem
      rcases hmem with hmem | heq
      . exact hsteps step hmem
      . rw [heq]
        exact hlive

-- process 1 creates another one, and each of the two that were there before gets a turn
theorem no_starvation_tour
    : ∃ s₀ s₁ s₂ s₃ s₄ t steps s, Tour s₀ s₁ s₂ s₃ s₄ ∧
        s₂.exec .low (.create kernel_setup.request) = some t ∧
        (sessions .low).Run (fun s e => e.Sparing s) s₁
          ([(s₁, .timer timer_frame, s₂), (s₂, .create kernel_setup.request, t)] ++ steps) s ∧
        (Session.turns steps).length = 15 ∧ s.live 2 = true ∧
        ∀ p : Fin 16, p.val < 2 → p ∈ Session.turns
          ([(s₁, .timer timer_frame, s₂), (s₂, .create kernel_setup.request, t)] ++ steps) := by
  rcases exists_tour with ⟨s₀, s₁, s₂, s₃, s₄, h⟩
  rcases h.grown.create (by omega) with ⟨t, _, hcreate, hgrown, _⟩
  have hbegun : (sessions .low).Run (fun s e => e.Sparing s) s₁
      [(s₁, .timer timer_frame, s₂), (s₂, .create kernel_setup.request, t)] t :=
    .tail (.tail .refl trivial h.away) trivial hcreate
  rcases no_starvation.exists_run hbegun 15 with ⟨steps, s, hrun, hlength, hlive, hsteps⟩
  refine ⟨s₀, s₁, s₂, s₃, s₄, t, steps, s, h, hcreate, hrun, hlength, ?_, ?_⟩
  . rw [hlive, hgrown.filled]
    decide
  intro p hp
  apply no_starvation h.init h.created (.single ⟨.create kernel_setup.request, trivial, h.create⟩) hrun
  . intro step hmem
    rw [List.mem_append, List.mem_cons, List.mem_singleton] at hmem
    rcases hmem with (heq | heq) | hmem
    . rw [heq, ← h.live_away]
      exact (h.grown.filled p).mpr hp
    . rw [heq]
      exact (h.grown.filled p).mpr hp
    . rw [hsteps step hmem, hgrown.filled]
      omega
  . have hturns : Session.turns
        ([(s₁, .timer timer_frame, s₂), (s₂, .create kernel_setup.request, t)] ++ steps)
          = s₂.kernel.running_process_idx :: Session.turns steps := rfl
    rw [hturns, List.length_cons, hlength]

end AiOS
