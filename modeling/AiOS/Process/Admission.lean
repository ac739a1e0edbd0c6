import AiOS.Process.Creation

/-!
This module contains what the memory check of `process_create_user_process` lets through, and that
nothing runs out behind it.
-/

namespace AiOS

open process_create_user_process

namespace process_create_user_process

/--
The frames that the image and the stack take, with no sum that wraps around.
-/
def page_frames (request : FAT32DriverRequest) : Nat :=
  (request.buffer_size.toNat + (2 ^ 22 - 1)) / 2 ^ 22 + 1

def PassesMemoryCheck (layout : Layout) (request : FAT32DriverRequest) (s : KernelState) : Prop :=
  ∀ s', process_create_user_process layout request s
    ≠ some (PROCESS_CREATE_FAIL_NOT_ENOUGH_MEMORY, s')

variable {layout : Layout} {request : FAT32DriverRequest} {s s' : KernelState} {code : Int}

theorem load_code_ne {current_pagedir pagingProcess paging : UInt32}
    {pagedir : PageDirectoryPointer}
    (h : load layout request current_pagedir pagedir pagingProcess paging s = some (code, s'))
    : code ≠ PROCESS_CREATE_FAIL_NOT_ENOUGH_MEMORY := by
  unfold load at h
  dsimp only [Option.bind_eq_bind] at h
  rw [Option.bind_eq_some_iff] at h
  rcases h with ⟨_, _, h⟩
  split at h
  . simp only [Option.pure_def, Option.some.injEq, Prod.mk.injEq] at h
    rw [← h.1]
    decide
  . split at h
    . rw [(filled_of_fill_slot h).1]
      decide
    . contradiction

section

variable (hcount : s.active_process_count.toNat < 16)
  (hbuf : request.buf < KERNEL_VIRTUAL_ADDRESS_BASE)

include hcount hbuf

theorem passesMemoryCheck_iff
    : PassesMemoryCheck layout request s
        ↔
      paging_allocate_check s.paging (page_frame_count_needed request) ∧
        (page_frame_count_needed request).toNat ≤ 8 := by
  unfold PassesMemoryCheck process_create_user_process
  rw [if_neg (Nat.not_le.mpr hcount), if_neg (UInt32.not_le.mpr hbuf)]
  split
  . next hmemory =>
    constructor
    . intro h
      exact absurd rfl (h s)
    . intro hpass
      cases hmemory with
      | inl hcheck => exact absurd hpass.1 hcheck
      | inr hmany => exact absurd hpass.2 (Nat.not_le.mpr hmany)
  . next hmemory =>
    rw [not_or, not_not, gt_iff_lt, Nat.not_lt] at hmemory
    constructor
    . intro _
      exact hmemory
    . intro _ s' h
      dsimp only [Option.bind_eq_bind] at h
      rw [Option.bind_eq_some_iff] at h
      rcases h with ⟨_, _, h⟩
      rw [Option.bind_eq_some_iff] at h
      rcases h with ⟨_, _, h⟩
      split at h
      . simp at h
      . exact load_code_ne h rfl

end

-- the sum with a page wraps around for a size of more than 2^32 - 2^22
theorem toNat_page_frame_count_needed (request : FAT32DriverRequest)
    : (page_frame_count_needed request).toNat
        =
      if request.buffer_size.toNat ≤ 2 ^ 32 - 2 ^ 22 then page_frames request else 1 := by
  have hone : (1 : UInt32).toNat = 1 := rfl
  have hsize : PAGE_FRAME_SIZE.toNat = 2 ^ 22 := rfl
  have hlt := request.buffer_size.toNat_lt
  unfold page_frame_count_needed ceil_div page_frames
  rw [UInt32.toNat_add, UInt32.toNat_div, UInt32.toNat_sub, UInt32.toNat_add, hone, hsize]
  split
  . omega
  . omega

end process_create_user_process

/--
The memory check is right about a request where no frame is free at all, or where enough are, or
where the size calls for too many and is not so large that the sum in the check wraps around.
-/
theorem memory_check_exact_iff {layout : Layout} {request : FAT32DriverRequest} {s : KernelState}
    (hcount : s.active_process_count.toNat < 16)
    (hbuf : request.buf < KERNEL_VIRTUAL_ADDRESS_BASE)
    : (PassesMemoryCheck layout request s
          ↔
        page_frames request ≤ s.paging.free_page_frame_count.toNat ∧
          page_frames request ≤ PROCESS_PAGE_FRAME_COUNT_MAX)
        ↔
      s.paging.free_page_frame_count = 0 ∨
        (request.buffer_size.toNat ≤ 2 ^ 32 - 2 ^ 22 ∧
          (request.buffer_size.toNat ≤ 7 * 2 ^ 22 →
            page_frames request ≤ s.paging.free_page_frame_count.toNat)) := by
  have hzero : s.paging.free_page_frame_count = 0 ↔ s.paging.free_page_frame_count.toNat = 0 := by
    rw [← UInt32.toNat_inj]
    rfl
  rw [passesMemoryCheck_iff hcount hbuf, allocate_check_iff, toNat_page_frame_count_needed, hzero]
  have hlt := request.buffer_size.toNat_lt
  unfold page_frames PROCESS_PAGE_FRAME_COUNT_MAX
  split
  . omega
  . omega

theorem memory_check_exact_first
    : (PassesMemoryCheck .low kernel_setup.request (.initial .low fresh)
          ↔
        page_frames kernel_setup.request ≤ 31 ∧ page_frames kernel_setup.request ≤ 8)
        ↔
      (31 : UInt32) = 0 ∨
        (kernel_setup.request.buffer_size.toNat ≤ 2 ^ 32 - 2 ^ 22 ∧
          (kernel_setup.request.buffer_size.toNat ≤ 7 * 2 ^ 22 →
            page_frames kernel_setup.request ≤ 31)) := by
  exact memory_check_exact_iff (s := .initial .low fresh) (by decide) (by decide)

def huge : FAT32DriverRequest :=
  { kernel_setup.request with buffer_size := 0xFFFFFFFF }

theorem not_memory_check_exact
    : (KernelState.initial .low fresh).active_process_count.toNat < 16 ∧
        huge.buf < KERNEL_VIRTUAL_ADDRESS_BASE ∧
        (KernelState.initial .low fresh).paging.free_page_frame_count = 31 ∧
        ¬ (PassesMemoryCheck .low huge (.initial .low fresh)
            ↔
          page_frames huge ≤ 31 ∧ page_frames huge ≤ PROCESS_PAGE_FRAME_COUNT_MAX) := by
  have hcount : (KernelState.initial .low fresh).active_process_count.toNat < 16 := by decide
  have hbuf : huge.buf < KERNEL_VIRTUAL_ADDRESS_BASE := by decide
  refine ⟨hcount, hbuf, rfl, ?_⟩
  rw [passesMemoryCheck_iff hcount hbuf, allocate_check_iff]
  decide

/--
Past the checks, there are a page directory, two page frames and a slot for the new process.
-/
theorem nothing_runs_out {layout : Layout} {request : FAT32DriverRequest} {s : KernelState}
    (h : Running layout s) (hadmitted : Admitted request s)
    : ∃ i p pagingProcess t paging u,
        paging_create_new_page_directory s.paging = (.list i, p) ∧
        paging_allocate_user_page_frame p (.list i) request.buf = some (pagingProcess, t) ∧
        pagingProcess ≠ 0 ∧
        paging_allocate_user_page_frame t (.list i) 0xBFFFFFFC = some (paging, u) ∧
        paging ≠ 0 ∧
        (∀ s' : KernelState, s'.used_process = s.used_process →
          ∃ p_index, process_list_get_inactive_index s' = some p_index) ∧
        ∀ code s', process_create_user_process layout request s = some (code, s') →
          code ≠ PROCESS_CREATE_FAIL_PAGING_ALLOC_FAILURE := by
  rcases h.sound with ⟨n, hsound⟩
  rcases exists_allocated hsound.taken hadmitted with
    ⟨hn, i, p, pagingProcess, t, paging, u, hdir, hfirst, hpagingProcess, hsecond, hpaging, _⟩
  refine ⟨i, p, pagingProcess, t, paging, u, hdir, hfirst, hpagingProcess, hsecond, hpaging, ?_, ?_⟩
  . intro s' hused
    have hcount := hsound.count
    unfold process_list_get_inactive_index
    rw [hused]
    apply Slots.exists_free_of_count
    omega
  . intro code s' hrun
    cases outcome hsound.taken hrun with
    | rejected hnot _ => exact absurd hadmitted hnot
    | unread _ _ _ _ => decide
    | created _ _ _ _ => decide

theorem nothing_runs_out_first
    : ∃ s, Running .low s ∧ Admitted kernel_setup.request s ∧
        ∃ p_index, process_list_get_inactive_index s = some p_index := by
  rcases exists_session with ⟨w, hinit, hfirst, _, n, hn, hsound⟩
  have hrunning : Running .low w.kernel := Or.inr ⟨w, .init hinit, rfl⟩
  have hadmitted : Admitted kernel_setup.request w.kernel := by
    apply admitted_of_taken hsound.kernel.taken (by omega) hfirst.count_lt
    . decide
    . decide
  rcases nothing_runs_out hrunning hadmitted with ⟨_, _, _, _, _, _, _, _, _, _, _, hindex, _⟩
  exact ⟨w.kernel, hrunning, hadmitted, hindex _ rfl⟩

end AiOS
