import AiOS.Fat32.Lemmas.Read
import AiOS.Memory.Lemmas
import AiOS.Process.Impl.Process

/-!
This module contains the ways in which `process_create_user_process` can end.
-/

namespace AiOS

/--
The file that `request` asks `read` for is there, and it fits the buffer.
-/
def read.Readable (request : FAT32DriverRequest) (d : Disk) : Prop :=
  (d.table request.parent 0).user_attribute = UATTR_NOT_EMPTY ∧
    ∃ i, searched request d = some i ∧
      (d.table request.parent i).attribute ≠ ATTR_SUBDIRECTORY ∧
        (d.table request.parent i).filesize ≤ request.buffer_size

section

variable {driver_state st : FAT32DriverState} {request : FAT32DriverRequest} {d d' : Disk}
  {code : Int} {bufs : List ClusterBuffer}

theorem read.found_code_eq_zero_iff {i : Fin 64}
    (h : (found ⟨d.fat, d.table request.parent⟩ request i).run diskDevice d
      = some ((code, st, bufs), d'))
    : code = 0
        ↔
      (d.table request.parent i).attribute ≠ ATTR_SUBDIRECTORY ∧
        (d.table request.parent i).filesize ≤ request.buffer_size := by
  unfold found at h
  dsimp only at h
  split at h
  . next hdir =>
    simp only [Prog.pure_eq, Prog.run_pure, Option.some.injEq, Prod.mk.injEq] at h
    rw [← h.1.1]
    simp [hdir]
  . next hfile =>
    split at h
    . next hbig =>
      simp only [Prog.pure_eq, Prog.run_pure, Option.some.injEq, Prod.mk.injEq] at h
      rw [gt_iff_lt, ← UInt32.not_le] at hbig
      rw [← h.1.1]
      simp [hbig]
    . next hfits =>
      rw [Prog.run_bind, Option.bind_eq_some_iff] at h
      rcases h with ⟨_, _, h⟩
      simp only [Prog.pure_eq, Prog.run_pure, Option.some.injEq, Prod.mk.injEq] at h
      rw [gt_iff_lt, UInt32.not_lt] at hfits
      rw [← h.1.1]
      simp [hfile, hfits]

theorem read.code_eq_zero_iff
    (h : (read driver_state request).run diskDevice d = some ((code, st, bufs), d'))
    : code = 0 ↔ Readable request d := by
  unfold Readable
  by_cases hlive : (d.table request.parent 0).user_attribute = UATTR_NOT_EMPTY
  . rw [run_of_live _ _ _ hlive] at h
    cases hsearched : searched request d with
    | none =>
      rw [hsearched] at h
      unfold act at h
      simp only [Prog.pure_eq, Prog.run_pure, Option.some.injEq, Prod.mk.injEq] at h
      rw [← h.1.1]
      simp
    | some i =>
      rw [hsearched] at h
      rw [found_code_eq_zero_iff h]
      simp [hlive]
  . rw [run_of_not_live _ _ _ hlive] at h
    simp only [Option.some.injEq, Prod.mk.injEq] at h
    rw [← h.1.1]
    simp [hlive]

end

structure SameProcesses (s s' : KernelState) : Prop where
  process_list : s'.process_list = s.process_list
  used_process : s'.used_process = s.used_process
  active_process_count : s'.active_process_count = s.active_process_count
  running_process_idx : s'.running_process_idx = s.running_process_idx

structure Filled (s s' : KernelState) (p_index : Fin 16) (pcb : ProcessControlBlock) : Prop where
  inactive : process_list_get_inactive_index s = some p_index
  pid : pcb.pid = UInt32.ofNat p_index
  ready : pcb.state = .READY
  process_list : s'.process_list = Function.update s.process_list p_index pcb
  used_process : s'.used_process = Function.update s.used_process p_index true
  active_process_count : s'.active_process_count = s.active_process_count + 1
  running_process_idx : s'.running_process_idx = s.running_process_idx

namespace process_create_user_process

variable {layout : Layout} {request : FAT32DriverRequest} {s s' : KernelState} {code : Int}

theorem page_frame_count_needed_bounds (request : FAT32DriverRequest)
    : 1 ≤ (page_frame_count_needed request).toNat ∧
        (page_frame_count_needed request).toNat ≤ 1024 := by
  have hone : (1 : UInt32).toNat = 1 := rfl
  have hsize : PAGE_FRAME_SIZE.toNat = 2 ^ 22 := rfl
  have hlt := (request.buffer_size + PAGE_FRAME_SIZE - 1).toNat_lt
  unfold page_frame_count_needed ceil_div
  rw [UInt32.toNat_add, UInt32.toNat_div, hone, hsize]
  omega

-- `paging_allocate_check` takes an amount of bytes and is given one of pages, so it asks for one
-- page
theorem allocate_check_iff (request : FAT32DriverRequest) (s : PagingState)
    : paging_allocate_check s (page_frame_count_needed request)
        ↔
      0 < s.free_page_frame_count.toNat := by
  have hbounds := page_frame_count_needed_bounds request
  have hone : (1 : UInt32).toNat = 1 := rfl
  have hsize : PAGE_FRAME_SIZE.toNat = 2 ^ 22 := rfl
  have hsum : (PAGE_FRAME_SIZE + page_frame_count_needed request).toNat
      = 2 ^ 22 + (page_frame_count_needed request).toNat := by
    rw [UInt32.toNat_add, hsize]
    omega
  have hle : (1 : UInt32) ≤ PAGE_FRAME_SIZE + page_frame_count_needed request := by
    rw [UInt32.le_iff_toNat_le, hsum, hone]
    omega
  unfold paging_allocate_check
  rw [UInt32.le_iff_toNat_le, UInt32.toNat_div, UInt32.toNat_sub_of_le _ _ hle, hsum, hone, hsize]
  omega

variable (request s) in
/--
The request passes the three checks that come before anything is allocated.
-/
def Admitted : Prop :=
  s.active_process_count.toNat < 16 ∧ request.buf < KERNEL_VIRTUAL_ADDRESS_BASE ∧
    paging_allocate_check s.paging (page_frame_count_needed request) ∧
      (page_frame_count_needed request).toNat ≤ 8

variable (layout) in
theorem run_of_not_admitted (h : ¬ Admitted request s)
    : ∃ code, code ≠ 0 ∧ process_create_user_process layout request s = some (code, s) := by
  unfold process_create_user_process
  split
  . exact ⟨_, by decide, rfl⟩
  . next hcount =>
    split
    . exact ⟨_, by decide, rfl⟩
    . next hbuf =>
      split
      . exact ⟨_, by decide, rfl⟩
      . next hmemory =>
        exfalso
        apply h
        rw [not_or, not_not] at hmemory
        rw [ge_iff_le, UInt32.not_le] at hbuf
        exact ⟨Nat.not_le.mp hcount, hbuf, hmemory.1, Nat.not_lt.mp hmemory.2⟩

variable (layout) in
theorem run_of_allocated (h : Admitted request s) {pagedir : PageDirectoryPointer}
    {p t u : PagingState} {pagingProcess paging : UInt32}
    (hdir : paging_create_new_page_directory s.paging = (pagedir, p))
    (hfirst : paging_allocate_user_page_frame p pagedir request.buf = some (pagingProcess, t))
    (hpagingProcess : pagingProcess ≠ 0)
    (hsecond : paging_allocate_user_page_frame t pagedir 0xBFFFFFFC = some (paging, u))
    (hpaging : paging ≠ 0)
    : process_create_user_process layout request s
        =
      load layout request (paging_get_current_page_directory_addr s.paging) pagedir pagingProcess
        paging { s with paging := paging_use_page_directory u (layout.address pagedir) } := by
  rcases h with ⟨hcount, hbuf, hcheck, hneeded⟩
  unfold process_create_user_process
  rw [if_neg (Nat.not_le.mpr hcount), if_neg (UInt32.not_le.mpr hbuf), if_neg]
  . rw [hdir]
    dsimp only
    rw [hfirst]
    dsimp only [Option.bind_eq_bind, Option.bind_some]
    rw [hsecond]
    dsimp only [Option.bind_eq_bind, Option.bind_some]
    rw [if_neg (not_not.mpr ⟨hpaging, hpagingProcess⟩)]
  . rw [not_or, not_not]
    exact ⟨hcheck, Nat.not_lt.mpr hneeded⟩

variable {n : Nat}

-- frames go in pairs, so after the check for one page there are two, and both are found
theorem exists_allocated (hs : s.paging.Taken n (2 * n + 2)) (h : Admitted request s)
    : n < 15 ∧ ∃ i p pagingProcess t paging u,
        paging_create_new_page_directory s.paging = (.list i, p) ∧
        paging_allocate_user_page_frame p (.list i) request.buf = some (pagingProcess, t) ∧
        pagingProcess ≠ 0 ∧
        paging_allocate_user_page_frame t (.list i) 0xBFFFFFFC = some (paging, u) ∧
        paging ≠ 0 ∧ u.Taken (n + 1) (2 * (n + 1) + 2) := by
  have hcheck := (allocate_check_iff request s.paging).mp h.2.2.1
  have hfree := hs.free
  have hn : n < 15 := by omega
  have hdir := paging_create_new_page_directory_spec hs (by omega)
  have hnull : (paging_create_new_page_directory s.paging).1 ≠ .null := by simp [hdir.1]
  rcases paging_allocate_user_page_frame_spec hdir.2 (by omega) (by omega) hnull request.buf with
    ⟨pagingProcess, t, hfirst, hpagingProcess, ht⟩
  rcases paging_allocate_user_page_frame_spec ht (by omega) (by omega) hnull 0xBFFFFFFC with
    ⟨paging, u, hsecond, hpaging, hu⟩
  rw [hdir.1] at hfirst hsecond
  exact ⟨hn, _, _, pagingProcess, t, paging, u, Prod.ext hdir.1 rfl, hfirst, hpagingProcess,
    hsecond, hpaging, hu⟩

variable (layout) in
theorem run_of_admitted (hs : s.paging.Taken n (2 * n + 2)) (h : Admitted request s)
    : n < 15 ∧ ∃ pagedir pagingProcess paging paging_state,
        paging_state.Taken (n + 1) (2 * (n + 1) + 2) ∧
          process_create_user_process layout request s
              =
            load layout request (paging_get_current_page_directory_addr s.paging) pagedir
              pagingProcess paging { s with paging := paging_state } := by
  rcases exists_allocated hs h with
    ⟨hn, i, p, pagingProcess, t, paging, u, hdir, hfirst, hpagingProcess, hsecond, hpaging, hu⟩
  exact ⟨hn, .list i, pagingProcess, paging, _, hu.use (layout.address (.list i)),
    run_of_allocated layout h hdir hfirst hpagingProcess hsecond hpaging⟩

theorem cases_of_fill_slot {current_pagedir pagingProcess paging : UInt32}
    {pagedir : PageDirectoryPointer}
    (h : fill_slot layout request current_pagedir pagedir pagingProcess paging s = some (code, s'))
    : code = PROCESS_CREATE_SUCCESS ∧ ∃ p_index,
        process_list_get_inactive_index s = some p_index ∧
        s' = { s with
          used_process := Function.update s.used_process p_index true
          process_list := Function.update s.process_list p_index
            (new_pcb layout request p_index pagedir pagingProcess paging (s.process_list p_index))
          paging := paging_use_page_directory s.paging current_pagedir
          active_process_count := s.active_process_count + 1 } := by
  unfold fill_slot at h
  dsimp only [Option.bind_eq_bind] at h
  rw [Option.bind_eq_some_iff] at h
  rcases h with ⟨p_index, hinactive, h⟩
  injection h with h
  injection h with hcode h
  exact ⟨hcode.symm, p_index, hinactive, h.symm⟩

theorem filled_of_fill_slot {current_pagedir pagingProcess paging : UInt32}
    {pagedir : PageDirectoryPointer}
    (h : fill_slot layout request current_pagedir pagedir pagingProcess paging s = some (code, s'))
    : code = PROCESS_CREATE_SUCCESS ∧ ∃ p_index pcb, Filled s s' p_index pcb ∧
        s'.paging = paging_use_page_directory s.paging current_pagedir := by
  rcases cases_of_fill_slot h with ⟨hcode, p_index, hinactive, hs'⟩
  let pcb := new_pcb layout request p_index pagedir pagingProcess paging (s.process_list p_index)
  rw [hs']
  refine ⟨hcode, p_index, pcb, ?_, rfl⟩
  exact { inactive := hinactive, pid := rfl, ready := rfl, process_list := rfl,
          used_process := rfl, active_process_count := rfl, running_process_idx := rfl }

variable (n request s) in
inductive Outcome : Int → KernelState → Prop where
  | rejected {code : Int} : ¬ Admitted request s → code ≠ 0 → Outcome code s
  | unread {s' : KernelState} :
    Admitted request s → ¬ read.Readable request s.disk → SameProcesses s s' →
      s'.paging.Taken (n + 1) (2 * (n + 1) + 2) → Outcome PROCESS_CREATE_FAIL_FS_READ_FAILURE s'
  | created {s' : KernelState} {p_index : Fin 16} {pcb : ProcessControlBlock} :
    Admitted request s → read.Readable request s.disk → Filled s s' p_index pcb →
      s'.paging.Taken (n + 1) (2 * (n + 1) + 2) → Outcome PROCESS_CREATE_SUCCESS s'

theorem outcome (hs : s.paging.Taken n (2 * n + 2))
    (h : process_create_user_process layout request s = some (code, s'))
    : Outcome request s n code s' := by
  by_cases hadmitted : Admitted request s
  . rcases run_of_admitted layout hs hadmitted with ⟨_, pagedir, pagingProcess, paging, t, ht, heq⟩
    rw [heq] at h
    unfold load at h
    dsimp only [Option.bind_eq_bind] at h
    rw [Option.bind_eq_some_iff] at h
    rcases h with ⟨⟨⟨status, driver_state, delivered⟩, disk⟩, hread, h⟩
    have hstatus := read.code_eq_zero_iff hread
    dsimp only at h
    split at h
    . next hfail =>
      injection h with h
      injection h with hcode h
      rw [← hcode, ← h]
      rw [Ne, hstatus] at hfail
      exact .unread hadmitted hfail ⟨rfl, rfl, rfl, rfl⟩ ht
    . next hok =>
      rw [not_not, hstatus] at hok
      split at h
      . rcases filled_of_fill_slot h with ⟨rfl, p_index, pcb, hfilled, hpaging⟩
        apply Outcome.created hadmitted hok ⟨hfilled.inactive, hfilled.pid, hfilled.ready,
          hfilled.process_list, hfilled.used_process, hfilled.active_process_count,
          hfilled.running_process_idx⟩
        rw [hpaging]
        apply ht.use
      . contradiction
  . rcases run_of_not_admitted layout hadmitted with ⟨code', hcode, heq⟩
    rw [heq] at h
    injection h with h
    injection h with hcode' h
    rw [← hcode', ← h]
    exact .rejected hadmitted hcode

theorem filled_of_success (hs : s.paging.Taken n (2 * n + 2))
    (h : process_create_user_process layout request s = some (PROCESS_CREATE_SUCCESS, s'))
    : ∃ p_index pcb, Filled s s' p_index pcb ∧ s'.paging.Taken (n + 1) (2 * (n + 1) + 2) := by
  cases outcome hs h with
  | rejected _ hcode => exact absurd rfl hcode
  | created _ _ hfilled htaken => exact ⟨_, _, hfilled, htaken⟩

section

variable {status : Int} {driver_state : FAT32DriverState} {bufs : List ClusterBuffer} {disk : Disk}

theorem admitted_of_taken (hs : s.paging.Taken n (2 * n + 2)) (hn : n < 15)
    (hcount : s.active_process_count.toNat < 16) (hbuf : request.buf < KERNEL_VIRTUAL_ADDRESS_BASE)
    (hneeded : (page_frame_count_needed request).toNat ≤ 8)
    : Admitted request s := by
  have hfree := hs.free
  refine ⟨hcount, hbuf, ?_, hneeded⟩
  rw [allocate_check_iff]
  omega

variable (layout)

theorem run_of_unread (hs : s.paging.Taken n (2 * n + 2)) (hadmitted : Admitted request s)
    (hread : (read s.driver_state request).run diskDevice s.disk
      = some ((status, driver_state, bufs), disk))
    (hstatus : status ≠ 0)
    : ∃ s', process_create_user_process layout request s
        = some (PROCESS_CREATE_FAIL_FS_READ_FAILURE, s') := by
  rcases run_of_admitted layout hs hadmitted with ⟨_, pagedir, pagingProcess, paging, t, _, heq⟩
  rw [heq]
  unfold load
  dsimp only [Option.bind_eq_bind]
  rw [hread, Option.bind_some]
  dsimp only
  rw [if_pos hstatus]
  exact ⟨_, rfl⟩

theorem run_of_read (hs : s.paging.Taken n (2 * n + 2)) (hadmitted : Admitted request s)
    (hused : Slots.count s.used_process ≤ n)
    (hread : (read s.driver_state request).run diskDevice s.disk
      = some ((0, driver_state, bufs), disk))
    (hfit : stores_fit request bufs)
    : ∃ s', process_create_user_process layout request s = some (PROCESS_CREATE_SUCCESS, s') ∧
        s'.disk = disk := by
  rcases run_of_admitted layout hs hadmitted with ⟨hn, pagedir, pagingProcess, paging, t, _, heq⟩
  have hlt : Slots.count s.used_process < 16 := by omega
  rcases Slots.exists_free_of_count hlt with ⟨p_index, hinactive⟩
  rw [heq]
  unfold load
  dsimp only [Option.bind_eq_bind]
  rw [hread, Option.bind_some]
  dsimp only
  rw [if_neg (by simp), if_pos hfit]
  unfold fill_slot process_list_get_inactive_index
  dsimp only [Option.bind_eq_bind]
  rw [hinactive, Option.bind_some]
  exact ⟨_, rfl, rfl⟩

end

end process_create_user_process
end AiOS
