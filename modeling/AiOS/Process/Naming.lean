import AiOS.Process.Boot

/-!
This module contains the names of the processes, which come from the requests that created them.
-/

namespace AiOS

def padded (name : Fin 8 → UInt8) : Fin 10 → UInt8 :=
  memcpy (fun _ => 0) name

section

variable (ctx : Context) (s : KernelState) (i : Fin 16)

theorem save_context_name
    : ((scheduler_save_context_to_current_running_pcb ctx s).process_list i).name
        =
      (s.process_list i).name := by
  unfold scheduler_save_context_to_current_running_pcb
  split
  . rfl
  . next j _ =>
    dsimp only
    by_cases hij : i = j
    . rw [hij, Function.update_self]
    . rw [Function.update_of_ne hij]

theorem scheduler_switch_to_next_process.process_list_name
    : ((scheduler_switch_to_next_process s).process_list i).name = (s.process_list i).name := by
  unfold scheduler_switch_to_next_process
  simp only [Function.update_apply]
  split
  . next hpilihan =>
    rw [hpilihan]
    split
    . next hrunning => rw [hrunning]
    . rfl
  . split
    . next hrunning => rw [hrunning]
    . rfl

theorem main_interrupt_handler.timer_name (frame : InterruptFrame)
    : ((main_interrupt_handler.timer frame s).process_list i).name = (s.process_list i).name := by
  rw [timer_eq, scheduler_switch_to_next_process.process_list_name, save_context_name]

end

namespace process_create_user_process

variable {layout : Layout} {request : FAT32DriverRequest} {s s' : KernelState} {code : Int} {n : Nat}
  {i : Fin 16} {pcb : ProcessControlBlock}

theorem new_pcb_name {p_index : Fin 16} {pagedir : PageDirectoryPointer}
    {pagingProcess paging : UInt32}
    : (new_pcb layout request p_index pagedir pagingProcess paging pcb).name
        =
      padded request.name := by
  funext k
  unfold new_pcb padded memcpy
  dsimp only
  split
  . rfl
  . rw [dif_pos k.isLt]

theorem not_filled_of_used (hused : s'.used_process = s.used_process) : ¬ Filled s s' i pcb := by
  intro hfilled
  have hfree := Slots.used_of_free hfilled.inactive
  have htaken := congrFun hfilled.used_process i
  rw [hused, hfree, Function.update_self] at htaken
  contradiction

theorem name_of_filled (hs : s.paging.Taken n (2 * n + 2))
    (h : process_create_user_process layout request s = some (code, s')) (hfilled : Filled s s' i pcb)
    : pcb.name = padded request.name := by
  by_cases hadmitted : Admitted request s
  . rcases run_of_admitted layout hs hadmitted with ⟨_, pagedir, pagingProcess, paging, t, _, heq⟩
    rw [heq] at h
    unfold load at h
    dsimp only [Option.bind_eq_bind] at h
    rw [Option.bind_eq_some_iff] at h
    rcases h with ⟨⟨⟨status, driver_state, delivered⟩, disk⟩, _, h⟩
    dsimp only at h
    split at h
    . injection h with h
      injection h with _ h
      rw [← h] at hfilled
      exact absurd hfilled (not_filled_of_used rfl)
    . split at h
      . rcases cases_of_fill_slot h with ⟨_, p_index, hinactive, hs'⟩
        have hindex : some p_index = some i := hinactive.symm.trans hfilled.inactive
        injection hindex with hindex
        have hlist := congrFun hfilled.process_list i
        rw [hs', hindex, Function.update_self] at hlist
        dsimp only at hlist
        rw [Function.update_self] at hlist
        rw [← hlist, new_pcb_name]
      . contradiction
  . rcases run_of_not_admitted layout hadmitted with ⟨_, _, heq⟩
    rw [heq] at h
    injection h with h
    injection h with _ h
    rw [← h] at hfilled
    exact absurd hfilled (not_filled_of_used rfl)

end process_create_user_process

theorem Booted.name {layout : Layout} {kernel : KernelState} (h : Booted layout kernel) {i : Fin 16}
    (hused : kernel.used_process i = true)
    : (kernel.process_list i).name = padded kernel_setup.request.name := by
  rcases h with ⟨after_literal, disk, h⟩
  unfold kernel_setup at h
  dsimp only [Option.bind_eq_bind] at h
  rw [Option.bind_eq_some_iff] at h
  rcases h with ⟨s, hbefore, h⟩
  rw [Option.bind_eq_some_iff] at h
  rcases h with ⟨⟨code, s'⟩, hcreate, h⟩
  rw [Option.pure_def, Option.some.injEq] at h
  rcases kernel_setup.before_cases hbefore with ⟨hempty, htaken⟩
  have hlist : (scheduler_init s').process_list = s'.process_list := rfl
  have hswitched : kernel.used_process = s'.used_process := by
    rw [← h]
    rfl
  rw [hswitched] at hused
  rw [← h, scheduler_switch_to_next_process.process_list_name, hlist]
  have hoccupied : s'.used_process ≠ s.used_process := by
    intro heq
    rw [heq, hempty.used_process] at hused
    exact Bool.false_ne_true hused
  cases process_create_user_process.outcome (hempty.sound htaken).taken hcreate with
  | rejected _ _ => exact absurd rfl hoccupied
  | unread _ _ hsame _ => exact absurd hsame.used_process hoccupied
  | @created _ p_index pcb _ _ hfilled _ =>
    have hname := process_create_user_process.name_of_filled htaken hcreate hfilled
    have hi : i = p_index := by
      by_contra hne
      rw [hfilled.used_process, Function.update_of_ne hne, hempty.used_process] at hused
      exact Bool.false_ne_true hused
    rw [hfilled.process_list, hi, Function.update_self, hname]

namespace Session

variable {layout : Layout} {s s' : Session} {e : Event} {m n : Nat} {i : Fin 16}
  {steps : List (Session × Event × Session)}

/--
The name that a step gives to the slot: the one in the request, where it creates a process there.
-/
def named (i : Fin 16) (step : Session × Event × Session) : Option (Fin 8 → UInt8) :=
  match step with
  | (s, .create request, s') =>
    if s.live i = false ∧ s'.live i = true then
      some request.name
    else
      none
  | _ => none

/--
The name in the latest request that created a process in the slot, which is the one of `kernel_setup`
where no request of the run has.
-/
def name (i : Fin 16) (steps : List (Session × Event × Session)) : Fin 8 → UInt8 :=
  (System.latest (named i) steps).getD kernel_setup.request.name

theorem name_concat (step : Session × Event × Session)
    : name i (steps ++ [step]) = (named i step).getD (name i steps) := by
  unfold name
  rw [System.latest_concat]
  cases named i step with
  | none => rfl
  | some _ => rfl

theorem name_of_requests
    (h : ∀ s request s', (s, .create request, s') ∈ steps →
      request.name = kernel_setup.request.name)
    : name i steps = kernel_setup.request.name := by
  unfold name System.latest
  cases hlast : (steps.filterMap (named i)).getLast? with
  | none => rfl
  | some _ =>
    have hmem := List.mem_of_getLast? hlast
    rw [List.mem_filterMap] at hmem
    rcases hmem with ⟨⟨s, e, s'⟩, hmem, hnamed⟩
    cases e with
    | create request =>
      unfold named at hnamed
      dsimp only at hnamed
      split at hnamed
      . injection hnamed with hnamed
        rw [Option.getD_some, ← hnamed]
        exact h s request s' hmem
      . contradiction
    | destroy _ => contradiction
    | timer _ => contradiction
    | files _ _ => contradiction

/--
The processes of the table are the live ones, and have the names that they were created with.
-/
structure Titled (steps : List (Session × Event × Session)) (s : Session) : Prop where
  sound : ∃ n, s.Sound n
  name : ∀ i, s.live i = true → (s.kernel.process_list i).name = padded (name i steps)

theorem named_of_live (hlive : s.live i = true) : named i (s, e, s') = none := by
  unfold named
  split
  . next heq =>
    injection heq with hs _
    rw [← hs, hlive, if_neg]
    intro hnot
    exact Bool.false_ne_true hnot.1.symm
  . rfl

theorem Titled.name_of_live (h : Titled steps s) (hlive : s.live i = true)
    (hname : (s'.kernel.process_list i).name = (s.kernel.process_list i).name)
    : (s'.kernel.process_list i).name = padded (Session.name i (steps ++ [(s, e, s')])) := by
  rw [name_concat, named_of_live hlive, hname, h.name i hlive]
  rfl

theorem exec_create_run {request : FAT32DriverRequest}
    (hstep : s.exec layout (.create request) = some s')
    : ∃ code, process_create_user_process layout request s.kernel = some (code, s'.kernel) := by
  unfold exec at hstep
  dsimp only [Option.bind_eq_bind] at hstep
  rw [Option.bind_eq_some_iff] at hstep
  rcases hstep with ⟨⟨code, kernel⟩, hrun, hstep⟩
  injection hstep with hstep
  rw [← hstep]
  exact ⟨code, hrun⟩

theorem Titled.step (h : Titled steps s) (hstep : s.exec layout e = some s')
    : Titled (steps ++ [(s, e, s')]) s' := by
  rcases h.sound with ⟨n, hsound⟩
  rcases hsound.exec hstep with ⟨m, hsound', hchange⟩
  refine ⟨⟨m, hsound'⟩, ?_⟩
  intro i hlive
  cases hchange with
  | kept _ hsame hkept _ =>
    rw [hkept] at hlive
    apply h.name_of_live hlive
    rw [hsame.process_list]
  | @filled request _ p_index pcb hfilled hlive' _ =>
    by_cases hi : i = p_index
    . rcases exec_create_run hstep with ⟨code, hrun⟩
      have hname := process_create_user_process.name_of_filled hsound.kernel.taken hrun hfilled
      have hfree := Slots.used_of_free hfilled.inactive
      have hnamed : named i (s, .create request, s') = some request.name := by
        unfold named
        dsimp only
        rw [if_pos]
        refine ⟨?_, hlive⟩
        rw [hsound.live, hi, hfree]
      rw [name_concat, hnamed, hi, hfilled.process_list, Function.update_self, hname]
      rfl
    . rw [hlive', Function.update_of_ne hi] at hlive
      apply h.name_of_live hlive
      rw [hfilled.process_list, Function.update_of_ne hi]
  | @cleared _ j hcleared hlive' _ =>
    have hi : i ≠ j := by
      intro hi
      rw [hlive', hi, Function.update_self] at hlive
      contradiction
    rw [hlive', Function.update_of_ne hi] at hlive
    apply h.name_of_live hlive
    rw [hcleared.process_list, Function.update_of_ne hi]
  | @switched frame _ _ hlive' _ =>
    rw [hlive'] at hlive
    apply h.name_of_live hlive
    injection hstep with hstep
    rw [← hstep]
    apply main_interrupt_handler.timer_name

theorem Titled.of_init (h : (sessions layout).init s) : Titled [] s where
  sound := sound_of_init h
  name i hlive := by
    rw [h.2.1] at hlive
    rw [h.1.name hlive]
    rfl

theorem Titled.of_run {ok : Session → Event → Prop} (h : (sessions layout).init s)
    (hrun : (sessions layout).Run ok s steps s')
    : Titled steps s' := by
  apply hrun.invariant (J := Titled) (of_init h)
  intro steps s e s' htitled _ hstep
  exact htitled.step hstep

end Session
end AiOS
