import AiOS.Memory.Mapping

/-!
This module contains how the CPU translates addresses through a page directory, and what of it
`paging.c` decides.
-/

namespace AiOS

namespace PageDirectory

/--
The physical address behind a virtual one, when user mode asks for it or else the kernel. An entry
that stands for a table of small pages is none that `paging.c` makes.
-/
def translate (page_dir : PageDirectory) (user : Bool) (virtual_addr : UInt32) : Option UInt32 :=
  let entry := page_dir (page_index virtual_addr)
  if entry.flag.present_bit && entry.flag.use_pagesize_4_mb && (entry.flag.privilege || !user) then
    some (UInt32.ofNat (2 ^ 22 * entry.lower_address.val + virtual_addr.toNat % 2 ^ 22))
  else
    none

/--
User mode reaches the 4 MiB with number `f` of the physical memory through the entry with index `k`.
-/
def UserMaps (page_dir : PageDirectory) (k f : Fin 1024) : Prop :=
  (page_dir k).flag.present_bit = true ∧ (page_dir k).flag.privilege = true ∧
    (page_dir k).lower_address = f

variable {page_dir : PageDirectory} {user : Bool} {virtual_addr physical_addr : UInt32}
  {k f : Fin 1024}

theorem toNat_of_translate
    (h : page_dir.translate user virtual_addr = some physical_addr)
    : physical_addr.toNat
        = 2 ^ 22 * (page_dir (page_index virtual_addr)).lower_address.val
          + virtual_addr.toNat % 2 ^ 22 := by
  have hlt := (page_dir (page_index virtual_addr)).lower_address.isLt
  unfold translate at h
  dsimp only at h
  split at h
  . injection h with h
    rw [← h, UInt32.toNat_ofNat']
    omega
  . contradiction

theorem userMaps_of_translate (h : page_dir.translate true virtual_addr = some physical_addr)
    : page_dir.UserMaps (page_index virtual_addr) (page_index physical_addr) := by
  have haddr := toNat_of_translate h
  unfold translate at h
  dsimp only at h
  split at h
  . next hflags =>
    simp only [Bool.not_true, Bool.or_false, Bool.and_eq_true] at hflags
    refine ⟨hflags.1.1, hflags.2, ?_⟩
    apply Fin.ext
    rw [page_index_val, haddr]
    omega
  . contradiction

theorem translate_of_kernel (h : page_dir 0x300 = .kernel)
    (habove : 0xC0000000 ≤ virtual_addr.toNat) (hbelow : virtual_addr.toNat < 0xC0400000)
    : page_dir.translate false virtual_addr = some (virtual_addr - KERNEL_VIRTUAL_ADDRESS_BASE) := by
  have hindex : page_index virtual_addr = 0x300 := by
    apply Fin.ext
    have hval : (0x300 : Fin 1024).val = 0x300 := rfl
    rw [page_index_val, hval]
    omega
  have hbase : KERNEL_VIRTUAL_ADDRESS_BASE.toNat = 0xC0000000 := rfl
  have hle : KERNEL_VIRTUAL_ADDRESS_BASE ≤ virtual_addr := by
    rw [UInt32.le_iff_toNat_le, hbase]
    exact habove
  have hsub : UInt32.ofNat (2 ^ 22 * 0 + virtual_addr.toNat % 2 ^ 22)
      = virtual_addr - KERNEL_VIRTUAL_ADDRESS_BASE := by
    apply UInt32.toNat_inj.mp
    rw [UInt32.toNat_ofNat', UInt32.toNat_sub_of_le _ _ hle, hbase]
    omega
  unfold translate
  rw [hindex, h, ← hsub]
  rfl

theorem UserMaps.maps {g : Fin 32} (h : page_dir.UserMaps k f) (hg : f.val = g.val)
    : page_dir.Maps k g := by
  refine ⟨h.1, ?_⟩
  rw [h.2.2, hg]

theorem not_userMaps_insert : ¬ UserMaps paging_create_new_page_directory.insert k f := by
  intro h
  unfold UserMaps paging_create_new_page_directory.insert at h
  split at h
  . exact absurd h.2.1 Bool.false_ne_true
  . exact absurd h.1 Bool.false_ne_true

theorem userMaps_update_entry
    (h : (update_entry page_dir physical_addr virtual_addr ⟨true, true, true, true⟩).UserMaps k f)
    : (k = page_index virtual_addr ∧ f = page_index physical_addr) ∨ page_dir.UserMaps k f := by
  unfold UserMaps update_entry at h
  rw [Function.update_apply] at h
  split at h
  . next hk => exact Or.inl ⟨hk, h.2.2.symm⟩
  . exact Or.inr h

end PageDirectory

section

variable {layout : Layout} {i j : Fin 32}

theorem Layout.toNat_address_list (layout : Layout) (i : Fin 32)
    : (layout.address (.list i)).toNat = layout.page_directory_list.toNat + i.val * 4096 := by
  have hfits := layout.list_fits
  have hlt := i.isLt
  unfold Layout.address
  dsimp only
  rw [UInt32.toNat_add, UInt32.toNat_ofNat']
  omega

theorem Layout.address_list_inj (h : layout.address (.list i) = layout.address (.list j))
    : i = j := by
  have hnat := congrArg UInt32.toNat h
  rw [layout.toNat_address_list, layout.toNat_address_list] at hnat
  omega

theorem current_page_directory_use (s : PagingState) (layout : Layout) (i : Fin 32)
    : paging_get_current_page_directory_addr
        (paging_use_page_directory s (layout.address (.list i))) = layout.address (.list i) := by
  have habove : layout.address (.list i) > KERNEL_VIRTUAL_ADDRESS_BASE := by
    have hlist := layout.list_above
    rw [gt_iff_lt, UInt32.lt_iff_toNat_lt] at *
    rw [layout.toNat_address_list]
    omega
  unfold paging_get_current_page_directory_addr paging_use_page_directory
  dsimp only
  rw [if_pos habove, UInt32.sub_add_cancel]

end

end AiOS
