import AiOS.Fat32.RoundTrip
import AiOS.Process.Session

/-!
This module contains boots from a disk that has the first program on it.
-/

namespace AiOS

open process_create_user_process

section

variable (layout : Layout) (after_literal : Fin 3 → UInt8) {d : Disk}
  (hsigned : d.cluster 0 0 = fs_signature)

include hsigned

theorem kernel_setup.run_before {bufs : List ClusterBuffer}
    (hread : ∀ driver_state, ∃ st,
      (read driver_state kernel_setup.request).run diskDevice d = some ((0, st, bufs), d))
    : ∃ s, kernel_setup.before after_literal (.initial layout d) = some s ∧ s.disk = d := by
  have ht := PagingState.taken_initial layout
  have hkernel : PageDirectoryPointer.kernel ≠ .null := by decide
  rcases paging_allocate_user_page_frame_spec ht (by omega) (by omega) hkernel 0 with
    ⟨physical_addr, paging, hallocate, _, _⟩
  rcases hread ⟨d.fat, FAT32DriverState.zero.dir_table_buf⟩ with ⟨st, hfirst⟩
  have hdisk : (KernelState.initial layout d).disk = d := rfl
  have hpaging : (KernelState.initial layout d).paging = .initial layout := rfl
  have hstate : (KernelState.initial layout d).driver_state = .zero := rfl
  unfold kernel_setup.before
  dsimp only [Option.bind_eq_bind]
  rw [hdisk, hpaging, hstate, run_initialize_filesystem_fat32 hsigned, Option.bind_some]
  dsimp only
  rw [hallocate, Option.bind_some]
  dsimp only
  rw [hfirst]
  exact ⟨_, rfl, rfl⟩

theorem Booted.of_read {bufs : List ClusterBuffer}
    (hread : ∀ driver_state, ∃ st,
      (read driver_state kernel_setup.request).run diskDevice d = some ((0, st, bufs), d))
    (hfit : stores_fit kernel_setup.request bufs)
    : ∃ kernel, kernel_setup layout after_literal (.initial layout d) = some kernel ∧
        kernel.First ∧ kernel.disk = d := by
  rcases kernel_setup.run_before layout after_literal hsigned hread with ⟨s, hbefore, hdisk⟩
  rcases kernel_setup.before_cases hbefore with ⟨hempty, htaken⟩
  have hadmitted : Admitted kernel_setup.request s := by
    apply admitted_of_taken htaken (by omega)
    . rw [hempty.active_process_count]
      decide
    . decide
    . decide
  have hused : Slots.count s.used_process ≤ 0 := by
    rw [Slots.count_of_free hempty.used_process]
  rcases hread s.driver_state with ⟨st, hrun⟩
  rw [← hdisk] at hrun
  rcases run_of_read layout htaken hadmitted hused hrun hfit with ⟨s', hcreate, hdisk'⟩
  refine ⟨scheduler_switch_to_next_process (scheduler_init s'), ?_, ?_, ?_⟩
  . unfold kernel_setup
    dsimp only [Option.bind_eq_bind]
    rw [hbefore, Option.bind_some, hcreate]
    rfl
  . rcases filled_of_success htaken hcreate with ⟨_, _, hfilled, _⟩
    apply hempty.first hfilled
  . rw [← hdisk, ← hdisk']
    rfl

end

def Layout.low : Layout where
  paging_kernel_page_directory := 0xC0110000
  page_directory_list := 0xC0111000
  kernel_above := by decide
  list_above := by decide
  list_fits := by decide

theorem run_read_first (driver_state : FAT32DriverState)
    : ∃ st, (read driver_state kernel_setup.request).run diskDevice write.populated
        = some ((0, st, [write.populated.cluster 3]), write.populated) := by
  exact ⟨_, write.run_read_small driver_state rfl rfl rfl (by decide)⟩

theorem stores_fit_first : stores_fit kernel_setup.request [write.populated.cluster 3] := by
  left
  rfl

theorem exists_session
    : ∃ s : Session, (sessions .low).init s ∧ s.kernel.First ∧ s.kernel.disk = write.populated ∧
        ∃ n ≤ 1, s.Sound n := by
  rcases Booted.of_read .low (fun _ => 0) write.populated_cluster_zero run_read_first
    stores_fit_first with ⟨kernel, hrun, hfirst, hdisk⟩
  have hbooted : Booted .low kernel := ⟨_, _, hrun⟩
  rcases hbooted.cases.1 with ⟨n, hn, hsound⟩
  exact ⟨⟨kernel, kernel.used_process, 0⟩, ⟨hbooted, rfl, rfl⟩, hfirst, hdisk, n, hn, hsound, rfl⟩

namespace Session

structure Grown (k : Nat) (s : Session) : Prop where
  filled : Slots.Filled s.live k
  count : s.kernel.active_process_count.toNat < k
  disk : s.kernel.disk = write.populated
  sound : ∃ n ≤ k, s.Sound n

theorem exists_grown : ∃ s : Session, (sessions .low).init s ∧ s.kernel.First ∧ s.Grown 1 := by
  rcases exists_session with ⟨s, hinit, hfirst, hdisk, hsound⟩
  refine ⟨s, hinit, hfirst, ?_, ?_, hdisk, hsound⟩
  . intro i
    rw [hinit.2.1, hfirst.used_process, decide_eq_true_iff, Fin.ext_iff, Nat.lt_one_iff]
    rfl
  . rw [hfirst.active_process_count]
    decide

namespace Grown

variable {s : Session} {k : Nat} (h : s.Grown k)

include h

theorem create (hk : k < 15)
    : ∃ s', process_create_user_process .low kernel_setup.request s.kernel
          = some (PROCESS_CREATE_SUCCESS, s'.kernel) ∧
        s.exec .low (.create kernel_setup.request) = some s' ∧ s'.Grown (k + 1) ∧
        s'.kernel.running_process_idx = s.kernel.running_process_idx ∧
        s'.live = Function.update s.live ⟨k, Nat.lt_succ_of_lt hk⟩ true := by
  rcases h.sound with ⟨n, hn, hsound⟩
  rcases run_read_first s.kernel.driver_state with ⟨st, hread⟩
  have hcount := h.count
  have hadmitted : Admitted kernel_setup.request s.kernel := by
    apply admitted_of_taken hsound.kernel.taken (by omega) (by omega)
    . decide
    . decide
  rw [← h.disk] at hread
  rcases run_of_read .low hsound.kernel.taken hadmitted hsound.kernel.count hread stores_fit_first
    with ⟨kernel, hcreate, hdisk⟩
  rcases filled_of_success hsound.kernel.taken hcreate with ⟨p_index, pcb, hfilled, htaken⟩
  have hindex : process_list_get_inactive_index s.kernel = some ⟨k, Nat.lt_succ_of_lt hk⟩ := by
    unfold process_list_get_inactive_index
    rw [← hsound.live]
    apply h.filled.free_eq
  have hp : p_index = ⟨k, Nat.lt_succ_of_lt hk⟩ := by
    apply Option.some.inj
    rw [← hfilled.inactive, hindex]
  rw [hp] at hfilled
  have hlive : mark s.live (process_list_get_inactive_index s.kernel) true
      = Function.update s.live ⟨k, Nat.lt_succ_of_lt hk⟩ true := by
    rw [hindex]
    rfl
  refine ⟨⟨kernel, Function.update s.live ⟨k, Nat.lt_succ_of_lt hk⟩ true, s.missed⟩, hcreate, ?_, ?_,
    hfilled.running_process_idx, rfl⟩
  . unfold exec
    dsimp only [Option.bind_eq_bind]
    rw [hcreate, Option.bind_some]
    dsimp only
    rw [if_pos rfl, hlive]
    rfl
  . refine ⟨h.filled.take _, ?_, hdisk.trans h.disk, n + 1, by omega, ?_, ?_⟩
    . dsimp only
      rw [hfilled.active_process_count, UInt32.toNat_add]
      have hone : (1 : UInt32).toNat = 1 := rfl
      omega
    . exact hsound.kernel.of_filled hfilled htaken
    . rw [hfilled.used_process, hsound.live]

theorem timer (frame : InterruptFrame)
    : Grown k { s with kernel := main_interrupt_handler.timer frame s.kernel } := by
  rcases h.sound with ⟨n, hn, hsound⟩
  have hswitched := switched_timer frame s.kernel
  refine ⟨h.filled, ?_, ?_, n, hn, hsound.kernel.of_switched hswitched, ?_⟩
  . dsimp only
    rw [hswitched.active_process_count]
    apply h.count
  . dsimp only
    rw [main_interrupt_handler.timer_eq]
    rcases save_context_eq (main_interrupt_handler.currentContext frame s.kernel) s.kernel with
      ⟨process_list, heq⟩
    rw [heq]
    apply h.disk
  . rw [hswitched.used_process, hsound.live]

end Grown

end Session

end AiOS
