import AiOS.Memory.Lemmas

/-!
This module contains which page frames the page directories map. A frame that one of them maps is in
use, and a process gets frames that were not.
-/

namespace AiOS

theorem page_index_val (addr : UInt32) : (page_index addr).val = addr.toNat / 2 ^ 22 := by
  have hlt := addr.toNat_lt
  have hmask : (0x3FF : UInt32).toNat = 2 ^ 10 - 1 := rfl
  have hshift : (22 : UInt32).toNat % 32 = 22 := rfl
  unfold page_index
  dsimp only
  rw [UInt32.toNat_and, hmask, Nat.and_two_pow_sub_one_eq_mod, UInt32.toNat_shiftRight, hshift,
    Nat.shiftRight_eq_div_pow]
  omega

theorem page_index_frame (f : Fin 32)
    : (page_index (UInt32.ofNat f * PAGE_FRAME_SIZE)).val = f.val := by
  have hsize : PAGE_FRAME_SIZE.toNat = 2 ^ 22 := rfl
  have hlt := f.isLt
  rw [page_index_val, UInt32.toNat_mul, UInt32.toNat_ofNat', hsize]
  omega

theorem page_index_eq_stack_iff {addr : UInt32} (h : addr < KERNEL_VIRTUAL_ADDRESS_BASE)
    : page_index addr = page_index 0xBFFFFFFC ↔ ¬ addr < 0xBFC00000 := by
  have hbase : KERNEL_VIRTUAL_ADDRESS_BASE.toNat = 0xC0000000 := rfl
  have hstack : (0xBFFFFFFC : UInt32).toNat = 0xBFFFFFFC := rfl
  have hpage : (0xBFC00000 : UInt32).toNat = 0xBFC00000 := rfl
  rw [UInt32.lt_iff_toNat_lt, hbase] at h
  rw [← Fin.val_inj, page_index_val, page_index_val, hstack, UInt32.lt_iff_toNat_lt, hpage]
  omega

namespace PageDirectory

def Maps (page_dir : PageDirectory) (k : Fin 1024) (f : Fin 32) : Prop :=
  (page_dir k).flag.present_bit = true ∧ (page_dir k).lower_address.val = f.val

variable {page_dir : PageDirectory} {k : Fin 1024} {f g : Fin 32}

theorem Maps.unique (h : page_dir.Maps k f) (h' : page_dir.Maps k g) : f = g := by
  apply Fin.ext
  rw [← h.2, h'.2]

theorem maps_update_entry_self (page_dir : PageDirectory) (virtual_addr : UInt32) (f : Fin 32)
    : (update_entry page_dir (UInt32.ofNat f * PAGE_FRAME_SIZE) virtual_addr
        ⟨true, true, true, true⟩).Maps (page_index virtual_addr) f := by
  unfold Maps update_entry
  rw [Function.update_self]
  exact ⟨rfl, page_index_frame f⟩

theorem maps_update_entry_of_ne {physical_addr virtual_addr : UInt32}
    {flag : PageDirectoryEntryFlag} (hne : k ≠ page_index virtual_addr)
    : (update_entry page_dir physical_addr virtual_addr flag).Maps k f ↔ page_dir.Maps k f := by
  unfold Maps update_entry
  rw [Function.update_of_ne hne]

theorem maps_of_update_entry {virtual_addr : UInt32}
    (h : (update_entry page_dir (UInt32.ofNat f * PAGE_FRAME_SIZE) virtual_addr
      ⟨true, true, true, true⟩).Maps k g)
    : g = f ∨ page_dir.Maps k g := by
  by_cases hk : k = page_index virtual_addr
  . left
    rw [hk] at h
    apply h.unique (maps_update_entry_self page_dir virtual_addr f)
  . right
    rw [maps_update_entry_of_ne hk] at h
    exact h

theorem maps_insert (h : Maps paging_create_new_page_directory.insert k f) : f = 0 := by
  unfold Maps paging_create_new_page_directory.insert at h
  apply Fin.ext
  rw [← h.2]
  split
  . rfl
  . rfl

end PageDirectory

structure PagingState.Confined (s : PagingState) : Prop where
  zero : s.page_frame_map 0 = true
  list : ∀ i k f, (s.page_directory_list i).Maps k f → s.page_frame_map f = true
  kernel : ∀ k f, s.paging_kernel_page_directory.Maps k f → s.page_frame_map f = true

namespace PagingState.Confined

variable {s s' : PagingState}

theorem initial (layout : Layout) : (PagingState.initial layout).Confined where
  zero := rfl
  list i k f h := absurd h.1 Bool.false_ne_true
  kernel k f h := by
    unfold PageDirectory.Maps PagingState.initial at h
    dsimp only at h
    split at h
    . have hf : f = 0 := Fin.ext h.2.symm
      rw [hf]
      rfl
    . exact absurd h.1 Bool.false_ne_true

theorem use (h : s.Confined) (page_dir_virtual_addr : UInt32)
    : (paging_use_page_directory s page_dir_virtual_addr).Confined where
  zero := h.zero
  list := h.list
  kernel := h.kernel

theorem create (h : s.Confined) : (paging_create_new_page_directory s).2.Confined := by
  unfold paging_create_new_page_directory
  split
  . exact h
  . next i _ =>
    refine ⟨h.zero, ?_, h.kernel⟩
    intro j k f hmaps
    dsimp only at hmaps
    by_cases hj : j = i
    . rw [hj, Function.update_self] at hmaps
      rw [PageDirectory.maps_insert hmaps]
      exact h.zero
    . rw [Function.update_of_ne hj] at hmaps
      apply h.list j k f hmaps

theorem update_entry (h : s.Confined) {page_dir : PageDirectoryPointer} {virtual_addr : UInt32}
    {f : Fin 32} (hused : s.page_frame_map f = true)
    (hrun : update_page_directory_entry s page_dir (UInt32.ofNat f * PAGE_FRAME_SIZE) virtual_addr
      ⟨true, true, true, true⟩ = some s')
    : s'.Confined := by
  have hentry : ∀ {page_dir : PageDirectory},
      (∀ k g, page_dir.Maps k g → s.page_frame_map g = true) →
        ∀ k g, (AiOS.update_entry page_dir (UInt32.ofNat f * PAGE_FRAME_SIZE) virtual_addr
          ⟨true, true, true, true⟩).Maps k g → s.page_frame_map g = true := by
    intro page_dir hdir k g hmaps
    cases PageDirectory.maps_of_update_entry hmaps with
    | inl hg =>
      rw [hg]
      exact hused
    | inr hmaps => apply hdir k g hmaps
  unfold update_page_directory_entry at hrun
  split at hrun
  . contradiction
  . injection hrun with hrun
    rw [← hrun]
    exact ⟨h.zero, h.list, hentry h.kernel⟩
  . next i =>
    injection hrun with hrun
    rw [← hrun]
    refine ⟨h.zero, ?_, h.kernel⟩
    intro j
    dsimp only
    by_cases hj : j = i
    . rw [hj, Function.update_self]
      apply hentry (h.list i)
    . rw [Function.update_of_ne hj]
      apply h.list j

theorem take (h : s.Confined) (i : Fin 32) (free_page_frame_count : UInt32)
    : { s with
        page_frame_map := Function.update s.page_frame_map i true
        free_page_frame_count := free_page_frame_count }.Confined := by
  have hgrows : ∀ f, s.page_frame_map f = true →
      Function.update s.page_frame_map i true f = true := by
    intro f hf
    by_cases hi : f = i
    . simp [hi]
    . rw [Function.update_of_ne hi, hf]
  exact ⟨hgrows 0 h.zero, fun j k f hmaps => hgrows f (h.list j k f hmaps),
    fun k f hmaps => hgrows f (h.kernel k f hmaps)⟩

theorem allocate (h : s.Confined) {page_dir : PageDirectoryPointer}
    {virtual_addr physical_addr : UInt32}
    (hrun : paging_allocate_user_page_frame s page_dir virtual_addr = some (physical_addr, s'))
    : s'.Confined := by
  unfold paging_allocate_user_page_frame at hrun
  split at hrun
  . simp only [Option.some.injEq, Prod.mk.injEq] at hrun
    rw [← hrun.2]
    exact h
  . next i _ =>
    dsimp only [Option.bind_eq_bind] at hrun
    rw [Option.bind_eq_some_iff] at hrun
    rcases hrun with ⟨t, hupdate, hrun⟩
    simp only [Option.pure_def, Option.some.injEq, Prod.mk.injEq] at hrun
    rw [← hrun.2]
    apply update_entry (h.take i (s.free_page_frame_count - 1)) (f := i) _ hupdate
    simp

end PagingState.Confined

section

variable (s : PagingState) (page_dir_virtual_addr : UInt32)

@[simp]
theorem page_directory_used_use
    : (paging_use_page_directory s page_dir_virtual_addr).page_directory_used
        = s.page_directory_used := by
  rfl

@[simp]
theorem page_directory_list_use
    : (paging_use_page_directory s page_dir_virtual_addr).page_directory_list
        = s.page_directory_list := by
  rfl

@[simp]
theorem paging_kernel_page_directory_use
    : (paging_use_page_directory s page_dir_virtual_addr).paging_kernel_page_directory
        = s.paging_kernel_page_directory := by
  rfl

end

structure PagingState.Allocated (s s' : PagingState) (i : Fin 32) (virtual_addr : UInt32)
    (f : Fin 32) : Prop where
  unused : s.page_frame_map f = false
  page_frame_map : s'.page_frame_map = Function.update s.page_frame_map f true
  page_directory_used : s'.page_directory_used = s.page_directory_used
  page_directory_list : s'.page_directory_list
    = Function.update s.page_directory_list i
        (update_entry (s.page_directory_list i) (UInt32.ofNat f * PAGE_FRAME_SIZE) virtual_addr
          ⟨true, true, true, true⟩)
  kernel : s'.paging_kernel_page_directory = s.paging_kernel_page_directory

theorem exists_allocated_frame {s s' : PagingState} {i : Fin 32}
    {virtual_addr physical_addr : UInt32}
    (hrun : paging_allocate_user_page_frame s (.list i) virtual_addr = some (physical_addr, s'))
    (hne : physical_addr ≠ 0)
    : ∃ f : Fin 32, physical_addr = UInt32.ofNat f * PAGE_FRAME_SIZE ∧
        s.Allocated s' i virtual_addr f := by
  unfold paging_allocate_user_page_frame at hrun
  split at hrun
  . simp only [Option.some.injEq, Prod.mk.injEq] at hrun
    exact absurd hrun.1.symm hne
  . next f hfree =>
    injection hrun with hrun
    injection hrun with hphysical hrun
    refine ⟨f, hphysical.symm, ?_⟩
    rw [← hrun]
    exact ⟨Slots.used_of_free hfree, rfl, rfl, rfl, rfl⟩

end AiOS
