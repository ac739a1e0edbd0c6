import AiOS.Process.Impl.Scheduler

/-!
This module contains what a timer interrupt changes in the process table.
-/

namespace AiOS

section

variable (ctx : Context) (s : KernelState) (i : Fin 16)

@[simp]
theorem save_context_pid
    : ((scheduler_save_context_to_current_running_pcb ctx s).process_list i).pid
        =
      (s.process_list i).pid := by
  unfold scheduler_save_context_to_current_running_pcb
  split
  . rfl
  . next j _ =>
    by_cases hij : i = j
    . simp [hij]
    . simp [hij]

@[simp]
theorem save_context_state
    : ((scheduler_save_context_to_current_running_pcb ctx s).process_list i).state
        =
      (s.process_list i).state := by
  unfold scheduler_save_context_to_current_running_pcb
  split
  . rfl
  . next j _ =>
    by_cases hij : i = j
    . simp [hij]
    . simp [hij]

theorem save_context_eq
    : ∃ process_list, scheduler_save_context_to_current_running_pcb ctx s
        =
      { s with process_list := process_list } := by
  unfold scheduler_save_context_to_current_running_pcb
  split
  . exact ⟨s.process_list, rfl⟩
  . exact ⟨_, rfl⟩

end

namespace scheduler_switch_to_next_process

variable (s : KernelState) (i : Fin 16)

@[simp]
theorem process_list_pid
    : ((scheduler_switch_to_next_process s).process_list i).pid = (s.process_list i).pid := by
  unfold scheduler_switch_to_next_process
  simp only [Function.update_apply]
  split
  . next hpilihan =>
    rw [hpilihan]
    split
    . next hrunning => rw [hrunning]
    . rfl
  . split
    . next hrunning => rw [hrunning]
    . rfl

theorem process_list_state
    : ((scheduler_switch_to_next_process s).process_list i).state
        =
      if i = pilihan s then .RUNNING
      else if i = s.running_process_idx then .READY
      else (s.process_list i).state := by
  unfold scheduler_switch_to_next_process
  simp only [Function.update_apply]
  split
  . rfl
  . split
    . rfl
    . rfl

theorem process_list_context
    : ((scheduler_switch_to_next_process s).process_list i).context
        =
      (s.process_list i).context := by
  unfold scheduler_switch_to_next_process
  simp only [Function.update_apply]
  split
  . next hpilihan =>
    rw [hpilihan]
    split
    . next hrunning => rw [hrunning]
    . rfl
  . split
    . next hrunning => rw [hrunning]
    . rfl

theorem exists_succ_add {i r : Fin 16} (h : i ≠ r) : ∃ k : Fin 15, k.succ + r = i := by
  have hne : i - r ≠ 0 := sub_ne_zero.mpr h
  refine ⟨(i - r).pred hne, ?_⟩
  rw [Fin.succ_pred, sub_add_cancel]

theorem succ_add_ne (k : Fin 15) (r : Fin 16) : k.succ + r ≠ r := by
  intro h
  rw [add_eq_right] at h
  exact Fin.succ_ne_zero k h

theorem pilihan_ready (h : ∃ i ≠ s.running_process_idx, (s.process_list i).state = .READY)
    : pilihan s ≠ s.running_process_idx ∧ (s.process_list (pilihan s)).state = .READY := by
  rcases h with ⟨i, hne, hready⟩
  rcases exists_succ_add hne with ⟨k, hk⟩
  unfold pilihan
  split
  . next j hfind =>
    rw [Fin.find?_eq_some_iff] at hfind
    refine ⟨succ_add_ne j _, ?_⟩
    simpa using hfind.1
  . next hfind =>
    rw [Fin.find?_eq_none_iff] at hfind
    have hmiss := hfind k
    rw [hk, hready] at hmiss
    simp at hmiss

theorem pilihan_zero (h : ¬ ∃ i ≠ s.running_process_idx, (s.process_list i).state = .READY)
    : pilihan s = 0 := by
  unfold pilihan
  split
  . next j hfind =>
    rw [Fin.find?_eq_some_iff] at hfind
    exfalso
    apply h
    refine ⟨_, succ_add_ne j _, ?_⟩
    simpa using hfind.1
  . rfl

variable {s} in
theorem pilihan_congr {s' : KernelState} (hidx : s'.running_process_idx = s.running_process_idx)
    (hstate : ∀ i, (s'.process_list i).state = (s.process_list i).state)
    : pilihan s' = pilihan s := by
  unfold pilihan
  rw [hidx]
  simp only [hstate]

end scheduler_switch_to_next_process

open scheduler_switch_to_next_process

def main_interrupt_handler.currentContext (frame : InterruptFrame) (s : KernelState) : Context :=
  { cpu := frame.cpu
    eflags := frame.eflags
    eip := frame.eip
    ss := 0x20 ||| 0x3
    cs := frame.cs
    page_directory_virtual_addr := paging_get_current_page_directory_addr s.paging }

theorem main_interrupt_handler.timer_eq (frame : InterruptFrame) (s : KernelState)
    : timer frame s
        =
      scheduler_switch_to_next_process
        (scheduler_save_context_to_current_running_pcb (currentContext frame s) s) := by
  rfl

structure Switched (s s' : KernelState) : Prop where
  pid : ∀ i, (s'.process_list i).pid = (s.process_list i).pid
  state : ∀ i, (s'.process_list i).state
    = if i = pilihan s then .RUNNING
      else if i = s.running_process_idx then .READY
      else (s.process_list i).state
  running_process_idx : s'.running_process_idx = pilihan s
  used_process : s'.used_process = s.used_process
  active_process_count : s'.active_process_count = s.active_process_count
  paging : ∃ addr, s'.paging = paging_use_page_directory s.paging addr

theorem switched_switch (s : KernelState) : Switched s (scheduler_switch_to_next_process s) where
  pid := process_list_pid s
  state := process_list_state s
  running_process_idx := rfl
  used_process := rfl
  active_process_count := rfl
  paging := ⟨_, rfl⟩

theorem switched_save (ctx : Context) (s : KernelState)
    : Switched s
        (scheduler_switch_to_next_process (scheduler_save_context_to_current_running_pcb ctx s))
    := by
  have hstate := save_context_state ctx s
  have hpid := save_context_pid ctx s
  rcases save_context_eq ctx s with ⟨process_list, heq⟩
  have hidx := congrArg KernelState.running_process_idx heq
  have hused := congrArg KernelState.used_process heq
  have hcount := congrArg KernelState.active_process_count heq
  have hpaging := congrArg KernelState.paging heq
  generalize scheduler_save_context_to_current_running_pcb ctx s = t at *
  have hswitched := switched_switch t
  have hpilihan : pilihan t = pilihan s := pilihan_congr hidx hstate
  constructor
  . intro i
    rw [hswitched.pid, hpid]
  . intro i
    rw [hswitched.state, hpilihan, hidx, hstate]
  . rw [hswitched.running_process_idx, hpilihan]
  . rw [hswitched.used_process, hused]
  . rw [hswitched.active_process_count, hcount]
  . rcases hswitched.paging with ⟨addr, h⟩
    rw [h, hpaging]
    exact ⟨addr, rfl⟩

theorem switched_timer (frame : InterruptFrame) (s : KernelState)
    : Switched s (main_interrupt_handler.timer frame s) := by
  unfold main_interrupt_handler.timer
  apply switched_save

end AiOS
