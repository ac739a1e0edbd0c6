import AiOS.Memory.Mapping
import AiOS.Process.Creation

/-!
This module contains which page frames a new process gets.
-/

namespace AiOS

open process_create_user_process

section

variable {layout : Layout} {request : FAT32DriverRequest} {s s' : KernelState} {code : Int}

theorem process_create_user_process.paging_of_load {current_pagedir pagingProcess paging : UInt32}
    {pagedir : PageDirectoryPointer}
    (h : load layout request current_pagedir pagedir pagingProcess paging s = some (code, s'))
    : s'.paging = s.paging ∨ s'.paging = paging_use_page_directory s.paging current_pagedir := by
  unfold load at h
  dsimp only [Option.bind_eq_bind] at h
  rw [Option.bind_eq_some_iff] at h
  rcases h with ⟨_, _, h⟩
  split at h
  . left
    simp only [Option.pure_def, Option.some.injEq, Prod.mk.injEq] at h
    rw [← h.2]
  . split at h
    . rcases filled_of_fill_slot h with ⟨_, _, _, _, hpaging⟩
      right
      exact hpaging
    . contradiction

namespace PagingState.Confined

theorem of_create (h : s.paging.Confined)
    (hrun : process_create_user_process layout request s = some (code, s'))
    : s'.paging.Confined := by
  unfold process_create_user_process at hrun
  split at hrun
  . simp only [Option.pure_def, Option.some.injEq, Prod.mk.injEq] at hrun
    rw [← hrun.2]
    exact h
  . split at hrun
    . simp only [Option.pure_def, Option.some.injEq, Prod.mk.injEq] at hrun
      rw [← hrun.2]
      exact h
    . split at hrun
      . simp only [Option.pure_def, Option.some.injEq, Prod.mk.injEq] at hrun
        rw [← hrun.2]
        exact h
      . dsimp only [Option.bind_eq_bind] at hrun
        rw [Option.bind_eq_some_iff] at hrun
        rcases hrun with ⟨⟨pagingProcess, t⟩, hfirst, hrun⟩
        rw [Option.bind_eq_some_iff] at hrun
        rcases hrun with ⟨⟨paging, u⟩, hsecond, hrun⟩
        have hu : u.Confined := (h.create.allocate hfirst).allocate hsecond
        split at hrun
        . simp only [Option.pure_def, Option.some.injEq, Prod.mk.injEq] at hrun
          rw [← hrun.2]
          exact hu
        . cases paging_of_load hrun with
          | inl hpaging =>
            rw [hpaging]
            apply hu.use
          | inr hpaging =>
            rw [hpaging]
            apply PagingState.Confined.use
            apply hu.use

theorem of_destroy (h : s.paging.Confined) {pid : UInt32} {done : Bool}
    (hrun : process_destroy pid s = some (done, s'))
    : s'.paging.Confined := by
  unfold process_destroy at hrun
  split at hrun
  . simp only [Option.some.injEq, Prod.mk.injEq] at hrun
    rw [← hrun.2]
    exact h
  . split at hrun
    . simp only [Option.some.injEq, Prod.mk.injEq] at hrun
      rw [← hrun.2]
      exact h
    . contradiction

theorem of_switched (h : s.paging.Confined) (hswitched : Switched s s') : s'.paging.Confined := by
  rcases hswitched.paging with ⟨addr, hpaging⟩
  rw [hpaging]
  apply h.use

theorem of_before {after_literal : Fin 3 → UInt8} {disk : Disk}
    (h : kernel_setup.before after_literal (.initial layout disk) = some s)
    : s.paging.Confined := by
  unfold kernel_setup.before at h
  dsimp only [Option.bind_eq_bind] at h
  rw [Option.bind_eq_some_iff] at h
  rcases h with ⟨_, _, h⟩
  rw [Option.bind_eq_some_iff] at h
  rcases h with ⟨_, hallocate, h⟩
  rw [Option.bind_eq_some_iff] at h
  rcases h with ⟨_, _, h⟩
  injection h with h
  rw [← h]
  apply (initial layout).allocate hallocate

theorem of_booted (h : Booted layout s) : s.paging.Confined := by
  rcases h with ⟨after_literal, disk, h⟩
  unfold kernel_setup at h
  dsimp only [Option.bind_eq_bind] at h
  rw [Option.bind_eq_some_iff] at h
  rcases h with ⟨t, hbefore, h⟩
  rw [Option.bind_eq_some_iff] at h
  rcases h with ⟨⟨code, t'⟩, hcreate, h⟩
  injection h with h
  have ht' : t'.paging.Confined := (of_before hbefore).of_create hcreate
  have hinit : (scheduler_init t').paging.Confined := ht'
  rw [← h]
  apply hinit.of_switched (switched_switch (scheduler_init t'))

theorem of_exec {w w' : Session} {e : Event} (h : w.kernel.paging.Confined)
    (hstep : w.exec layout e = some w')
    : w'.kernel.paging.Confined := by
  unfold Session.exec at hstep
  cases e with
  | create request =>
    dsimp only [Option.bind_eq_bind] at hstep
    rw [Option.bind_eq_some_iff] at hstep
    rcases hstep with ⟨_, hrun, hstep⟩
    injection hstep with hstep
    rw [← hstep]
    apply h.of_create hrun
  | destroy pid =>
    dsimp only [Option.bind_eq_bind] at hstep
    rw [Option.bind_eq_some_iff] at hstep
    rcases hstep with ⟨_, hrun, hstep⟩
    injection hstep with hstep
    rw [← hstep]
    apply h.of_destroy hrun
  | timer frame =>
    injection hstep with hstep
    rw [← hstep]
    apply h.of_switched (switched_timer frame w.kernel)
  | files driver_state disk =>
    injection hstep with hstep
    rw [← hstep]
    exact h

end PagingState.Confined

theorem Running.confined (h : Running layout s) : s.paging.Confined := by
  rcases h with ⟨after_literal, disk, hbefore⟩ | ⟨w, hw, rfl⟩
  . apply PagingState.Confined.of_before hbefore
  . apply System.Reachable.invariant (I := fun w => w.kernel.paging.Confined) hw
    . intro w hinit
      apply PagingState.Confined.of_booted hinit.1
    . intro w e w' h _ hstep
      apply h.of_exec hstep

end

namespace process_create_user_process

def user_directory (buf : UInt32) (image stack : Fin 32) : PageDirectory :=
  let page_dir := update_entry paging_create_new_page_directory.insert
    (UInt32.ofNat image * PAGE_FRAME_SIZE) buf ⟨true, true, true, true⟩
  update_entry page_dir (UInt32.ofNat stack * PAGE_FRAME_SIZE) 0xBFFFFFFC ⟨true, true, true, true⟩

structure SetUp (buf : UInt32) (s u : PagingState) (i image stack : Fin 32) : Prop where
  directory_unused : s.page_directory_used i = false
  image_unused : s.page_frame_map image = false
  stack_unused : s.page_frame_map stack = false
  ne : image ≠ stack
  page_directory_used : u.page_directory_used = Function.update s.page_directory_used i true
  page_directory_list : u.page_directory_list
    = Function.update s.page_directory_list i (user_directory buf image stack)
  kernel : u.paging_kernel_page_directory = s.paging_kernel_page_directory

variable {s u : PagingState} {buf : UInt32} {i : Fin 32}

theorem setUp_of_allocated {p t : PagingState} {pagingProcess paging : UInt32}
    (hdir : paging_create_new_page_directory s = (.list i, p))
    (hfirst : paging_allocate_user_page_frame p (.list i) buf = some (pagingProcess, t))
    (hpagingProcess : pagingProcess ≠ 0)
    (hsecond : paging_allocate_user_page_frame t (.list i) 0xBFFFFFFC = some (paging, u))
    (hpaging : paging ≠ 0)
    : ∃ image stack : Fin 32, pagingProcess = UInt32.ofNat image * PAGE_FRAME_SIZE ∧
        paging = UInt32.ofNat stack * PAGE_FRAME_SIZE ∧ SetUp buf s u i image stack := by
  rcases exists_allocated_frame hfirst hpagingProcess with ⟨image, himage, hallocated⟩
  rcases exists_allocated_frame hsecond hpaging with ⟨stack, hstack, hallocated'⟩
  refine ⟨image, stack, himage, hstack, ?_⟩
  unfold paging_create_new_page_directory at hdir
  split at hdir
  . simp at hdir
  . next j hfree =>
    injection hdir with hj hp
    injection hj with hj
    rw [hj] at hp hfree
    rw [← hp] at hallocated
    have hunused := hallocated'.unused
    have hne : image ≠ stack := by
      intro heq
      rw [hallocated.page_frame_map, heq, Function.update_self] at hunused
      contradiction
    rw [hallocated.page_frame_map, Function.update_of_ne hne.symm] at hunused
    exact {
      directory_unused := Slots.used_of_free hfree
      image_unused := hallocated.unused
      stack_unused := hunused
      ne := hne
      page_directory_used := by
        rw [hallocated'.page_directory_used, hallocated.page_directory_used]
      page_directory_list := by
        rw [hallocated'.page_directory_list, hallocated.page_directory_list, Function.update_self,
          Function.update_idem, Function.update_idem]
        dsimp only
        rw [Function.update_self]
        rfl
      kernel := by
        rw [hallocated'.kernel, hallocated.kernel]
    }

namespace SetUp

variable {image stack f : Fin 32}

theorem maps_stack (h : SetUp buf s u i image stack)
    : (u.page_directory_list i).Maps (page_index 0xBFFFFFFC) stack := by
  rw [h.page_directory_list, Function.update_self]
  apply PageDirectory.maps_update_entry_self

theorem maps_image (h : SetUp buf s u i image stack) (hne : page_index buf ≠ page_index 0xBFFFFFFC)
    : (u.page_directory_list i).Maps (page_index buf) image := by
  rw [h.page_directory_list, Function.update_self]
  unfold user_directory
  dsimp only
  rw [PageDirectory.maps_update_entry_of_ne hne]
  apply PageDirectory.maps_update_entry_self

theorem not_maps_list (h : SetUp buf s u i image stack) (hs : s.Confined)
    (hunused : s.page_frame_map f = false) {j : Fin 32} (hj : j ≠ i) (k : Fin 1024)
    : ¬ (u.page_directory_list j).Maps k f := by
  intro hmaps
  rw [h.page_directory_list, Function.update_of_ne hj] at hmaps
  have hused := hs.list j k f hmaps
  rw [hunused] at hused
  contradiction

theorem not_maps_kernel (h : SetUp buf s u i image stack) (hs : s.Confined)
    (hunused : s.page_frame_map f = false) (k : Fin 1024)
    : ¬ u.paging_kernel_page_directory.Maps k f := by
  intro hmaps
  rw [h.kernel] at hmaps
  have hused := hs.kernel k f hmaps
  rw [hunused] at hused
  contradiction

end SetUp
end process_create_user_process

/--
A new page directory `i` and a new slot `p_index` have a frame for the image and another one for the
stack. They were free, and no other page directory maps them.
-/
structure OwnFrames (layout : Layout) (request : FAT32DriverRequest) (s s' : KernelState)
    (i : Fin 32) (p_index : Fin 16) (image stack : Fin 32) : Prop where
  page_directory : s.paging.page_directory_used i = false ∧ s'.paging.page_directory_used i = true
  inactive : process_list_get_inactive_index s = some p_index
  page_directory_virtual_addr :
    (s'.process_list p_index).context.page_directory_virtual_addr = layout.address (.list i)
  maps_image : (s'.paging.page_directory_list i).Maps (page_index request.buf) image
  maps_stack : (s'.paging.page_directory_list i).Maps (page_index 0xBFFFFFFC) stack
  ne : image ≠ stack
  unused : s.paging.page_frame_map image = false ∧ s.paging.page_frame_map stack = false
  alone : ∀ f, f = image ∨ f = stack →
    (∀ j ≠ i, ∀ k, ¬ (s'.paging.page_directory_list j).Maps k f) ∧
      ∀ k, ¬ s'.paging.paging_kernel_page_directory.Maps k f
  recorded_image : (s'.process_list p_index).virtual_addr_used 0
    = UInt32.ofNat image * PAGE_FRAME_SIZE + KERNEL_VIRTUAL_ADDRESS_BASE
  recorded_stack : (s'.process_list p_index).virtual_addr_used 1
    = UInt32.ofNat stack * PAGE_FRAME_SIZE + KERNEL_VIRTUAL_ADDRESS_BASE

section

variable {layout : Layout} {request : FAT32DriverRequest} {s s' : KernelState} {n : Nat}

variable (layout) in
theorem process_create_user_process.run_of_setUp (hs : s.paging.Taken n (2 * n + 2))
    (h : Admitted request s)
    : ∃ i image stack u, SetUp request.buf s.paging u i image stack ∧
        process_create_user_process layout request s
            =
          load layout request (paging_get_current_page_directory_addr s.paging) (.list i)
            (UInt32.ofNat image * PAGE_FRAME_SIZE) (UInt32.ofNat stack * PAGE_FRAME_SIZE)
            { s with paging := paging_use_page_directory u (layout.address (.list i)) } := by
  rcases exists_allocated hs h with
    ⟨_, i, p, pagingProcess, t, paging, u, hdir, hfirst, hpagingProcess, hsecond, hpaging, _⟩
  rcases setUp_of_allocated hdir hfirst hpagingProcess hsecond hpaging with
    ⟨image, stack, himage, hstack, hsetUp⟩
  refine ⟨i, image, stack, u, hsetUp, ?_⟩
  rw [← himage, ← hstack]
  apply run_of_allocated layout h hdir hfirst hpagingProcess hsecond hpaging

theorem process_create_user_process.cases_of_load {current_pagedir pagingProcess paging : UInt32}
    {pagedir : PageDirectoryPointer}
    (h : load layout request current_pagedir pagedir pagingProcess paging s
      = some (PROCESS_CREATE_SUCCESS, s'))
    : ∃ p_index, process_list_get_inactive_index s = some p_index ∧
        s'.process_list = Function.update s.process_list p_index
          (new_pcb layout request p_index pagedir pagingProcess paging (s.process_list p_index)) ∧
        s'.paging = paging_use_page_directory s.paging current_pagedir := by
  unfold load at h
  dsimp only [Option.bind_eq_bind] at h
  rw [Option.bind_eq_some_iff] at h
  rcases h with ⟨_, _, h⟩
  split at h
  . simp at h
  . split at h
    . rcases cases_of_fill_slot h with ⟨_, p_index, hinactive, hs'⟩
      rw [hs']
      exact ⟨p_index, hinactive, rfl, rfl⟩
    . contradiction

theorem process_create_user_process.admitted_of_success
    (h : process_create_user_process layout request s = some (PROCESS_CREATE_SUCCESS, s'))
    : Admitted request s := by
  by_cases hadmitted : Admitted request s
  . exact hadmitted
  . rcases run_of_not_admitted layout hadmitted with ⟨code, hcode, hrun⟩
    rw [hrun] at h
    injection h with h
    injection h with hzero _
    exact absurd hzero hcode

theorem ownFrames_of_load {current_pagedir : UInt32} {u : PagingState} {i image stack : Fin 32}
    (hsetUp : SetUp request.buf s.paging u i image stack) (hconfined : s.paging.Confined)
    (hne : page_index request.buf ≠ page_index 0xBFFFFFFC)
    (hrun : load layout request current_pagedir (.list i) (UInt32.ofNat image * PAGE_FRAME_SIZE)
      (UInt32.ofNat stack * PAGE_FRAME_SIZE)
      { s with paging := paging_use_page_directory u (layout.address (.list i)) }
        = some (PROCESS_CREATE_SUCCESS, s'))
    : ∃ p_index, OwnFrames layout request s s' i p_index image stack := by
  rcases cases_of_load hrun with ⟨p_index, hinactive, hlist, hpaging⟩
  have hpages : s'.paging.page_directory_list = u.page_directory_list := by simp [hpaging]
  have hkernel : s'.paging.paging_kernel_page_directory = u.paging_kernel_page_directory := by
    simp [hpaging]
  have hused : s'.paging.page_directory_used = u.page_directory_used := by simp [hpaging]
  refine ⟨p_index, ?_⟩
  exact {
    page_directory := by
      rw [hused, hsetUp.page_directory_used, Function.update_self]
      exact ⟨hsetUp.directory_unused, rfl⟩
    inactive := hinactive
    page_directory_virtual_addr := by
      rw [hlist, Function.update_self]
      rfl
    maps_image := by
      rw [hpages]
      apply hsetUp.maps_image hne
    maps_stack := by
      rw [hpages]
      apply hsetUp.maps_stack
    ne := hsetUp.ne
    unused := ⟨hsetUp.image_unused, hsetUp.stack_unused⟩
    alone := by
      intro f hf
      have hunused : s.paging.page_frame_map f = false := by
        cases hf with
        | inl hf => rw [hf, hsetUp.image_unused]
        | inr hf => rw [hf, hsetUp.stack_unused]
      rw [hpages, hkernel]
      exact ⟨fun _ hj => hsetUp.not_maps_list hconfined hunused hj,
        hsetUp.not_maps_kernel hconfined hunused⟩
    recorded_image := by
      rw [hlist, Function.update_self]
      simp [new_pcb]
    recorded_stack := by
      rw [hlist, Function.update_self]
      simp [new_pcb]
  }

theorem not_ownFrames_of_stack {i image stack : Fin 32} {p_index : Fin 16}
    (hbuf : page_index request.buf = page_index 0xBFFFFFFC)
    : ¬ OwnFrames layout request s s' i p_index image stack := by
  intro hown
  have himage := hown.maps_image
  rw [hbuf] at himage
  apply hown.ne (himage.unique hown.maps_stack)

end

/--
A new process gets two frames of its own, unless its entry point is on the page of the stack: then
the second allocation takes the entry of the first.
-/
theorem own_frames_iff {layout : Layout} {request : FAT32DriverRequest} {s s' : KernelState}
    (h : Running layout s)
    (hrun : process_create_user_process layout request s = some (PROCESS_CREATE_SUCCESS, s'))
    : (∃ i p_index image stack, OwnFrames layout request s s' i p_index image stack)
        ↔
      request.buf < 0xBFC00000 := by
  have hadmitted := admitted_of_success hrun
  have hstack := page_index_eq_stack_iff hadmitted.2.1
  constructor
  . intro ⟨i, p_index, image, stack, hown⟩
    by_contra hbuf
    apply not_ownFrames_of_stack (hstack.mpr hbuf) hown
  . intro hbuf
    have hne : page_index request.buf ≠ page_index 0xBFFFFFFC := by
      intro heq
      apply hstack.mp heq hbuf
    rcases h.sound with ⟨n, hsound⟩
    rcases run_of_setUp layout hsound.taken hadmitted with ⟨i, image, stack, u, hsetUp, heq⟩
    rw [heq] at hrun
    rcases ownFrames_of_load hsetUp h.confined hne hrun with ⟨p_index, hown⟩
    exact ⟨i, p_index, image, stack, hown⟩

theorem exists_created {request : FAT32DriverRequest} {bufs : List ClusterBuffer}
    (hbuf : request.buf < KERNEL_VIRTUAL_ADDRESS_BASE)
    (hneeded : (page_frame_count_needed request).toNat ≤ 8)
    (hread : ∀ driver_state, ∃ st, (read driver_state request).run diskDevice write.populated
      = some ((0, st, bufs), write.populated))
    (hfit : stores_fit request bufs)
    : ∃ s s', Running .low s ∧
        process_create_user_process .low request s = some (PROCESS_CREATE_SUCCESS, s') := by
  rcases exists_session with ⟨w, hinit, hfirst, hdisk, n, hn, hsound⟩
  have ht := hsound.kernel.taken
  have hadmitted : Admitted request w.kernel := by
    apply admitted_of_taken ht (by omega) hfirst.count_lt hbuf hneeded
  rcases hread w.kernel.driver_state with ⟨st, hread⟩
  rw [← hdisk] at hread
  rcases run_of_read .low ht hadmitted hsound.kernel.count hread hfit with ⟨s', hrun, _⟩
  exact ⟨w.kernel, s', Or.inr ⟨w, .init hinit, rfl⟩, hrun⟩

theorem own_frames_first
    : ∃ s s', process_create_user_process .low kernel_setup.request s
          = some (PROCESS_CREATE_SUCCESS, s') ∧
        ∃ i p_index image stack, OwnFrames .low kernel_setup.request s s' i p_index image stack := by
  rcases exists_created (by decide) (by decide) run_read_first stores_fit_first with
    ⟨s, s', hrunning, hrun⟩
  exact ⟨s, s', hrun, (own_frames_iff hrunning hrun).mpr (by decide)⟩

-- what `exec` asks for the program that the kernel starts with: the buffer is on the stack of the
-- caller
def exec_request : FAT32DriverRequest :=
  { kernel_setup.request with
    buf := 0xBFFDF000
    buffer_size := 64 * 2048 }

theorem not_own_frames
    : ∃ s s', Running .low s ∧
        process_create_user_process .low exec_request s = some (PROCESS_CREATE_SUCCESS, s') ∧
        ¬ ∃ i p_index image stack, OwnFrames .low exec_request s s' i p_index image stack := by
  have hread : ∀ driver_state, ∃ st,
      (read driver_state exec_request).run diskDevice write.populated
        = some ((0, st, [write.populated.cluster 3]), write.populated) :=
    fun driver_state => ⟨_, write.run_read_small driver_state rfl rfl rfl (by decide)⟩
  have hfit : stores_fit exec_request [write.populated.cluster 3] := by
    left
    rfl
  rcases exists_created (by decide) (by decide) hread hfit with ⟨s, s', hrunning, hrun⟩
  refine ⟨s, s', hrunning, hrun, ?_⟩
  intro ⟨i, p_index, image, stack, hown⟩
  apply not_ownFrames_of_stack _ hown
  rw [page_index_eq_stack_iff (by decide)]
  decide

end AiOS
