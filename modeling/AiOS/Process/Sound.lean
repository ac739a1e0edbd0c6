import AiOS.Process.Lemmas.Create
import AiOS.Process.Lemmas.Destroy
import AiOS.Process.Lemmas.Scheduler

/-!
This module contains what stays true of the process table and of the memory behind it, from
`kernel_setup` on.
-/

namespace AiOS

/--
The kernel after `n` creations have taken memory, each a page directory and two page frames.
-/
structure KernelState.Sound (n : Nat) (s : KernelState) : Prop where
  numbered : s.Numbered
  taken : s.paging.Taken n (2 * n + 2)
  count : Slots.count s.used_process ≤ n

namespace KernelState.Sound

variable {s s' : KernelState} {m n : Nat} {i : Fin 16} {pcb : ProcessControlBlock}

theorem of_same (h : s.Sound n) (hsame : SameProcesses s s') (hn : n ≤ m)
    (ht : s'.paging.Taken m (2 * m + 2))
    : s'.Sound m where
  numbered i := by
    rw [hsame.process_list, hsame.used_process]
    apply h.numbered
  taken := ht
  count := by
    rw [hsame.used_process]
    apply Nat.le_trans h.count hn

theorem of_filled (h : s.Sound n) (hfilled : Filled s s' i pcb)
    (ht : s'.paging.Taken (n + 1) (2 * (n + 1) + 2))
    : s'.Sound (n + 1) where
  numbered j := by
    rw [hfilled.process_list, hfilled.used_process]
    by_cases hj : j = i
    . rw [hj]
      simp [hfilled.pid]
    . rw [Function.update_of_ne hj, Function.update_of_ne hj]
      apply h.numbered
  taken := ht
  count := by
    rw [hfilled.used_process, Slots.count_take (Slots.used_of_free hfilled.inactive)]
    apply Nat.succ_le_succ h.count

theorem of_cleared (h : s.Sound n) (hcleared : Cleared s s' i) : s'.Sound n where
  numbered j := by
    rw [hcleared.process_list, hcleared.used_process]
    by_cases hj : j = i
    . rw [hj]
      simp [ProcessControlBlock.zero]
    . rw [Function.update_of_ne hj, Function.update_of_ne hj]
      apply h.numbered
  taken := by
    rw [hcleared.paging]
    apply h.taken
  count := by
    rw [hcleared.used_process]
    apply Nat.le_trans (Slots.count_release_le _ _) h.count

theorem of_switched (h : s.Sound n) (hswitched : Switched s s') : s'.Sound n where
  numbered i := by
    rw [hswitched.pid, hswitched.used_process]
    apply h.numbered
  taken := by
    rcases hswitched.paging with ⟨addr, hpaging⟩
    rw [hpaging]
    apply h.taken.use
  count := by
    rw [hswitched.used_process]
    apply h.count

end KernelState.Sound

structure KernelState.Empty (s : KernelState) : Prop where
  process_list : ∀ i, s.process_list i = .zero
  used_process : ∀ i, s.used_process i = false
  active_process_count : s.active_process_count = 0
  running_process_idx : s.running_process_idx = 0

section

variable {layout : Layout} {after_literal : Fin 3 → UInt8} {disk : Disk} {s s' : KernelState}

theorem kernel_setup.before_cases
    (h : kernel_setup.before after_literal (.initial layout disk) = some s)
    : s.Empty ∧ s.paging.Taken 0 2 := by
  have ht := PagingState.taken_initial layout
  have hkernel : PageDirectoryPointer.kernel ≠ .null := by decide
  rcases paging_allocate_user_page_frame_spec ht (by omega) (by omega) hkernel 0 with
    ⟨physical_addr, paging, hallocate, _, htaken⟩
  unfold kernel_setup.before at h
  dsimp only [Option.bind_eq_bind] at h
  rw [Option.bind_eq_some_iff] at h
  rcases h with ⟨_, _, h⟩
  have hpaging : (KernelState.initial layout disk).paging = .initial layout := rfl
  rw [hpaging, hallocate, Option.bind_some, Option.bind_eq_some_iff] at h
  rcases h with ⟨_, _, h⟩
  injection h with h
  rw [← h]
  exact ⟨⟨fun _ => rfl, fun _ => rfl, rfl, rfl⟩, htaken⟩

end

def Booted (layout : Layout) (kernel : KernelState) : Prop :=
  ∃ after_literal disk, kernel_setup layout after_literal (.initial layout disk) = some kernel

/--
Process 0 runs, and it is the only one. `scheduler_init` has reset the count.
-/
structure KernelState.First (s : KernelState) : Prop where
  used_process : ∀ i, s.used_process i = decide (i = 0)
  state : ∀ i, (s.process_list i).state = if i = 0 then .RUNNING else .KILLED
  active_process_count : s.active_process_count = 0
  running_process_idx : s.running_process_idx = 0

theorem KernelState.First.created {s : KernelState} (h : s.First) : s.used_process 0 = true := by
  rw [h.used_process]
  rfl

theorem KernelState.First.count_lt {s : KernelState} (h : s.First)
    : s.active_process_count.toNat < 16 := by
  rw [h.active_process_count]
  decide

namespace KernelState.Empty

variable {s s' : KernelState} {i : Fin 16} {pcb : ProcessControlBlock}

theorem sound (h : s.Empty) (ht : s.paging.Taken 0 2) : s.Sound 0 where
  numbered i := by
    rw [h.process_list, h.used_process]
    rfl
  taken := ht
  count := by
    rw [Slots.count_of_free h.used_process]

theorem first (h : s.Empty) (hfilled : Filled s s' i pcb)
    : (scheduler_switch_to_next_process (scheduler_init s')).First := by
  have hzero : i = 0 := by
    have hfree := (Slots.filled_zero h.used_process).free_eq (by omega)
    have hinactive : Slots.free s.used_process = some i := hfilled.inactive
    rw [hinactive] at hfree
    injection hfree
  rw [hzero] at hfilled
  have hswitched := switched_switch (scheduler_init s')
  have hidx : (scheduler_init s').running_process_idx = 0 := rfl
  have hlist : (scheduler_init s').process_list = s'.process_list := rfl
  have hothers : ∀ j : Fin 16, j ≠ 0 → (s'.process_list j).state = .KILLED := by
    intro j hj
    rw [hfilled.process_list, Function.update_of_ne hj, h.process_list]
    rfl
  have hpilihan : scheduler_switch_to_next_process.pilihan (scheduler_init s') = 0 := by
    apply scheduler_switch_to_next_process.pilihan_zero
    intro ⟨j, hj, hready⟩
    rw [hidx] at hj
    rw [hlist, hothers j hj] at hready
    contradiction
  constructor
  . intro j
    have hused : (scheduler_init s').used_process = s'.used_process := rfl
    rw [hswitched.used_process, hused, hfilled.used_process]
    by_cases hj : j = 0
    . simp [hj]
    . simp [hj, h.used_process]
  . intro j
    rw [hswitched.state, hpilihan, hidx, hlist]
    by_cases hj : j = 0
    . simp [hj]
    . rw [if_neg hj, if_neg hj, if_neg hj, hothers j hj]
  . rw [hswitched.active_process_count]
    rfl
  . rw [hswitched.running_process_idx, hpilihan]

end KernelState.Empty

namespace Booted

variable {layout : Layout} {kernel : KernelState}

theorem cases (h : Booted layout kernel)
    : (∃ n ≤ 1, kernel.Sound n) ∧ (kernel.used_process 0 = true → kernel.First) := by
  rcases h with ⟨after_literal, disk, h⟩
  unfold kernel_setup at h
  dsimp only [Option.bind_eq_bind] at h
  rw [Option.bind_eq_some_iff] at h
  rcases h with ⟨s, hbefore, h⟩
  rw [Option.bind_eq_some_iff] at h
  rcases h with ⟨⟨code, s'⟩, hcreate, h⟩
  injection h with h
  rcases kernel_setup.before_cases hbefore with ⟨hempty, htaken⟩
  have hsound := hempty.sound htaken
  have hswitched := switched_switch (scheduler_init s')
  have hinit : ∀ n, s'.Sound n → (scheduler_init s').Sound n :=
    fun _ h => ⟨h.numbered, h.taken, h.count⟩
  have hused : ∀ t : KernelState,
      (scheduler_switch_to_next_process (scheduler_init t)).used_process = t.used_process :=
    fun _ => rfl
  rw [← h]
  cases process_create_user_process.outcome hsound.taken hcreate with
  | rejected _ _ =>
    refine ⟨⟨0, by omega, (hinit 0 hsound).of_switched hswitched⟩, ?_⟩
    intro hcreated
    rw [hused, hempty.used_process] at hcreated
    apply absurd hcreated Bool.false_ne_true
  | unread _ _ hsame ht =>
    refine ⟨⟨1, by omega, (hinit 1 (hsound.of_same hsame (by omega) ht)).of_switched hswitched⟩, ?_⟩
    intro hcreated
    rw [hused, hsame.used_process, hempty.used_process] at hcreated
    apply absurd hcreated Bool.false_ne_true
  | created _ _ hfilled ht =>
    refine ⟨⟨1, by omega, (hinit 1 (hsound.of_filled hfilled ht)).of_switched hswitched⟩, ?_⟩
    intro _
    apply hempty.first hfilled

end Booted
end AiOS
