import AiOS.Process.Boot

/-!
This module contains which failed creations leave the kernel as it was.
-/

namespace AiOS

open process_create_user_process

/--
The process table, the page frames, the page directories in use and CR3 are as before.
-/
structure Untouched (s s' : KernelState) : Prop where
  page_frame_map : s'.paging.page_frame_map = s.paging.page_frame_map
  free_page_frame_count : s'.paging.free_page_frame_count = s.paging.free_page_frame_count
  page_directory_used : s'.paging.page_directory_used = s.paging.page_directory_used
  process_list : s'.process_list = s.process_list
  used_process : s'.used_process = s.used_process
  active_process_count : s'.active_process_count = s.active_process_count
  cr3 : s'.paging.cr3 = s.paging.cr3

/--
The states in which the kernel can create a process: that in which it creates the first one, and any
state of a session.
-/
def Running (layout : Layout) (s : KernelState) : Prop :=
  (∃ after_literal disk, kernel_setup.before after_literal (.initial layout disk) = some s) ∨
    ∃ w, (sessions layout).Reachable (fun _ _ => True) w ∧ w.kernel = s

variable {layout : Layout} {request : FAT32DriverRequest} {s s' : KernelState} {n : Nat} {code : Int}

theorem Running.sound (h : Running layout s) : ∃ n, s.Sound n := by
  rcases h with ⟨after_literal, disk, hbefore⟩ | ⟨w, hw, rfl⟩
  . rcases kernel_setup.before_cases hbefore with ⟨hempty, htaken⟩
    exact ⟨0, hempty.sound htaken⟩
  . rcases Session.sound_of_reachable hw with ⟨n, hsound⟩
    exact ⟨n, hsound.kernel⟩

theorem not_untouched_of_taken (h : s.paging.Taken n (2 * n + 2))
    (h' : s'.paging.Taken (n + 1) (2 * (n + 1) + 2))
    : ¬ Untouched s s' := by
  intro huntouched
  have hfree := h'.free
  have hlt : n < 32 := by omega
  have hbefore := h.directories ⟨n, hlt⟩
  have hafter := h'.directories ⟨n, hlt⟩
  rw [huntouched.page_directory_used, hbefore] at hafter
  dsimp only at hafter
  omega

/--
A creation that fails leaves no trace, unless it gets as far as `read` and `read` does not find a
file of the right size.
-/
theorem untouched_iff (h : Running layout s)
    (hrun : process_create_user_process layout request s = some (code, s'))
    : (code ≠ PROCESS_CREATE_SUCCESS → Untouched s s')
        ↔
      ¬ (Admitted request s ∧ ¬ read.Readable request s.disk) := by
  rcases h.sound with ⟨n, hsound⟩
  cases outcome hsound.taken hrun with
  | rejected hnot hcode =>
    constructor
    . intro _ hstray
      apply hnot hstray.1
    . intro _ _
      exact ⟨rfl, rfl, rfl, rfl, rfl, rfl, rfl⟩
  | unread hadmitted hunreadable _ htaken =>
    constructor
    . intro huntouched
      have hfail : PROCESS_CREATE_FAIL_FS_READ_FAILURE ≠ PROCESS_CREATE_SUCCESS := by decide
      apply absurd (huntouched hfail) (not_untouched_of_taken hsound.taken htaken)
    . intro hnot
      apply absurd ⟨hadmitted, hunreadable⟩ hnot
  | created _ hreadable _ _ =>
    constructor
    . intro _ hstray
      apply hstray.2 hreadable
    . intro _ hfail
      apply absurd rfl hfail

def missing : FAT32DriverRequest :=
  { kernel_setup.request with name := ![0x6E, 0x6F, 0x6E, 0x65, 0, 0, 0, 0] }

theorem run_read_missing (driver_state : FAT32DriverState)
    : ∃ st, (read driver_state missing).run diskDevice write.populated
        = some ((2, st, []), write.populated) := by
  have hparent : missing.parent = 2 := rfl
  have hlive : (write.populated.table missing.parent 0).user_attribute = UATTR_NOT_EMPTY := by
    rw [hparent, write.populated_table]
    decide
  have hsearched : read.searched missing write.populated = none := by
    unfold read.searched
    rw [hparent, write.populated_table]
    decide
  rw [read.run_of_live _ _ _ hlive, hsearched]
  exact ⟨_, rfl⟩

theorem exists_unread
    : ∃ s s', Running .low s ∧ process_create_user_process .low missing s
        = some (PROCESS_CREATE_FAIL_FS_READ_FAILURE, s') ∧ ¬ Untouched s s' := by
  rcases exists_session with ⟨w, hinit, hfirst, hdisk, n, hn, hsound⟩
  rcases run_read_missing w.kernel.driver_state with ⟨st, hread⟩
  have ht := hsound.kernel.taken
  have hadmitted : Admitted missing w.kernel := by
    apply admitted_of_taken ht (by omega) hfirst.count_lt
    . decide
    . decide
  rw [← hdisk] at hread
  rcases run_of_unread .low ht hadmitted hread (by decide) with ⟨s', hrun⟩
  refine ⟨w.kernel, s', Or.inr ⟨w, .init hinit, rfl⟩, hrun, ?_⟩
  cases outcome ht hrun with
  | rejected hnot _ => exact absurd hadmitted hnot
  | unread _ _ _ htaken => apply not_untouched_of_taken ht htaken

theorem untouched_iff_missing
    : ∃ s s', process_create_user_process .low missing s
          = some (PROCESS_CREATE_FAIL_FS_READ_FAILURE, s') ∧
        ((PROCESS_CREATE_FAIL_FS_READ_FAILURE ≠ PROCESS_CREATE_SUCCESS → Untouched s s')
            ↔
          ¬ (Admitted missing s ∧ ¬ read.Readable missing s.disk)) := by
  rcases exists_unread with ⟨s, s', hrunning, hrun, _⟩
  exact ⟨s, s', hrun, untouched_iff hrunning hrun⟩

theorem not_untouched_missing
    : ∃ s code s', Running .low s ∧ process_create_user_process .low missing s = some (code, s') ∧
        code ≠ PROCESS_CREATE_SUCCESS ∧ ¬ Untouched s s' := by
  rcases exists_unread with ⟨s, s', hrunning, hrun, huntouched⟩
  exact ⟨s, _, s', hrunning, hrun, by decide, huntouched⟩

end AiOS
