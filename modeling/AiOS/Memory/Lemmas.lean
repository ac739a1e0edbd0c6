import AiOS.Memory.Impl

/-!
This module contains what the functions of `paging.c` take from the page directories and the page
frames. No function gives anything back, so both are always taken in order.
-/

namespace AiOS

structure PagingState.Taken (m n : Nat) (s : PagingState) : Prop where
  directories : Slots.Filled s.page_directory_used m
  frames : Slots.Filled s.page_frame_map n
  free : s.free_page_frame_count.toNat + n = 32

variable {s s' : PagingState} {m n : Nat}

theorem PagingState.taken_initial (layout : Layout) : (initial layout).Taken 0 1 where
  directories i := by
    unfold initial
    simp
  frames i := by
    unfold initial
    dsimp
    rw [decide_eq_true_iff]
    omega
  free := by rfl

theorem PagingState.Taken.unique {k : Nat} (h : s.Taken m (2 * m + 2)) (h' : s.Taken k (2 * k + 2))
    : m = k := by
  have hfree := h.free
  have hfree' := h'.free
  omega

theorem PagingState.Taken.use (h : s.Taken m n) (page_dir_virtual_addr : UInt32)
    : (paging_use_page_directory s page_dir_virtual_addr).Taken m n where
  directories := h.directories
  frames := h.frames
  free := h.free

theorem paging_create_new_page_directory_spec (h : s.Taken m n)
    (hlt : m < 32)
    : (paging_create_new_page_directory s).1 = .list ⟨m, hlt⟩ ∧
        (paging_create_new_page_directory s).2.Taken (m + 1) n := by
  unfold paging_create_new_page_directory
  rw [h.directories.free_eq hlt]
  refine ⟨rfl, ?_, h.frames, h.free⟩
  apply h.directories.take

theorem PagingState.Taken.update_entry (h : s.Taken m n)
    {page_dir : PageDirectoryPointer} {physical_addr virtual_addr : UInt32}
    {flag : PageDirectoryEntryFlag}
    (hrun : update_page_directory_entry s page_dir physical_addr virtual_addr flag = some s')
    : s'.Taken m n := by
  unfold update_page_directory_entry at hrun
  split at hrun
  . contradiction
  . injection hrun with hrun
    rw [← hrun]
    exact ⟨h.directories, h.frames, h.free⟩
  . injection hrun with hrun
    rw [← hrun]
    exact ⟨h.directories, h.frames, h.free⟩

theorem isSome_update_entry {page_dir : PageDirectoryPointer} (hdir : page_dir ≠ .null)
    (physical_addr virtual_addr : UInt32) (flag : PageDirectoryEntryFlag)
    : ∃ s', update_page_directory_entry s page_dir physical_addr virtual_addr flag = some s' := by
  unfold update_page_directory_entry
  cases page_dir with
  | null => contradiction
  | kernel => exact ⟨_, rfl⟩
  | list i => exact ⟨_, rfl⟩

-- while a frame is left, the lowest one is allocated. Its address is not 0, as frame 0 is never
-- free
theorem paging_allocate_user_page_frame_spec (h : s.Taken m n) (hpos : 0 < n)
    (hlt : n < 32) {page_dir : PageDirectoryPointer} (hdir : page_dir ≠ .null)
    (virtual_addr : UInt32)
    : ∃ physical_addr s',
        paging_allocate_user_page_frame s page_dir virtual_addr = some (physical_addr, s') ∧
          physical_addr ≠ 0 ∧ s'.Taken m (n + 1) := by
  have hcounted := h.free
  unfold paging_allocate_user_page_frame
  rw [h.frames.free_eq hlt]
  dsimp only
  rcases isSome_update_entry hdir _ _ _ with ⟨s', hs'⟩
  rw [hs']
  refine ⟨_, s', rfl, ?_, ?_⟩
  . intro hzero
    have hnat := congrArg UInt32.toNat hzero
    rw [UInt32.toNat_mul, UInt32.toNat_ofNat'] at hnat
    have hsize : PAGE_FRAME_SIZE.toNat = 2 ^ 22 := rfl
    have hz : (0 : UInt32).toNat = 0 := rfl
    rw [hsize, hz] at hnat
    omega
  . apply PagingState.Taken.update_entry _ hs'
    refine ⟨h.directories, h.frames.take hlt, ?_⟩
    dsimp only
    rw [UInt32.toNat_sub_of_le]
    . have hone : (1 : UInt32).toNat = 1 := rfl
      omega
    . rw [UInt32.le_iff_toNat_le]
      have hone : (1 : UInt32).toNat = 1 := rfl
      omega

end AiOS
