import AiOS.Lib.Slots
import AiOS.Memory.Basic

/-!
This module contains the functions of `paging.c`. Flushing the TLB is left out, as the model reads
page directories from memory.
-/

namespace AiOS

def paging_create_new_page_directory.insert : PageDirectory :=
  fun k => if k.val = 0 ∨ k.val = 0x300 then .kernel else .zero

def paging_create_new_page_directory (s : PagingState) : PageDirectoryPointer × PagingState :=
  match Slots.free s.page_directory_used with
  | none => (.null, s)
  | some i =>
    (.list i,
      { s with
        page_directory_used := Function.update s.page_directory_used i true
        page_directory_list :=
          Function.update s.page_directory_list i paging_create_new_page_directory.insert })

def paging_get_current_page_directory_addr (s : PagingState) : UInt32 :=
  s.cr3 + KERNEL_VIRTUAL_ADDRESS_BASE

def page_index (addr : UInt32) : Fin 1024 :=
  ⟨(addr >>> 22 &&& 0x3FF).toNat, by
    rw [UInt32.toNat_and]
    have h : (addr >>> 22).toNat &&& (0x3FF : UInt32).toNat ≤ (0x3FF : UInt32).toNat :=
      Nat.and_le_right
    exact Nat.lt_of_le_of_lt h (by decide)⟩

def update_entry (page_dir : PageDirectory) (physical_addr virtual_addr : UInt32)
    (flag : PageDirectoryEntryFlag) : PageDirectory :=
  Function.update page_dir (page_index virtual_addr) ⟨flag, page_index physical_addr⟩

-- `none` on a store through a null pointer
def update_page_directory_entry (s : PagingState) (page_dir : PageDirectoryPointer)
    (physical_addr virtual_addr : UInt32) (flag : PageDirectoryEntryFlag) : Option PagingState :=
  match page_dir with
  | .null => none
  | .kernel =>
    some { s with
      paging_kernel_page_directory :=
        update_entry s.paging_kernel_page_directory physical_addr virtual_addr flag }
  | .list i =>
    some { s with
      page_directory_list :=
        Function.update s.page_directory_list i
          (update_entry (s.page_directory_list i) physical_addr virtual_addr flag) }

def paging_allocate_check (s : PagingState) (amount : UInt32) : Prop :=
  (PAGE_FRAME_SIZE + amount - 1) / PAGE_FRAME_SIZE ≤ s.free_page_frame_count

instance (s : PagingState) (amount : UInt32) : Decidable (paging_allocate_check s amount) :=
  inferInstanceAs (Decidable (_ ≤ _))

def paging_allocate_user_page_frame (s : PagingState) (page_dir : PageDirectoryPointer)
    (virtual_addr : UInt32) : Option (UInt32 × PagingState) :=
  match Slots.free s.page_frame_map with
  | none => some (0, s)
  | some i => do
    let s :=
      { s with
        page_frame_map := Function.update s.page_frame_map i true
        free_page_frame_count := s.free_page_frame_count - 1 }
    let physical_addr := UInt32.ofNat i * PAGE_FRAME_SIZE
    let s ← update_page_directory_entry s page_dir physical_addr virtual_addr
      ⟨true, true, true, true⟩
    return (physical_addr, s)

def PagingState.directory (s : PagingState) : PageDirectoryPointer → Option PageDirectory
  | .null => none
  | .kernel => some s.paging_kernel_page_directory
  | .list i => some (s.page_directory_list i)

def PagingState.set_directory (s : PagingState) (page_dir : PageDirectoryPointer)
    (table : PageDirectory) : PagingState :=
  match page_dir with
  | .null => s
  | .kernel => { s with paging_kernel_page_directory := table }
  | .list i => { s with page_directory_list := Function.update s.page_directory_list i table }

-- `none` through a null pointer, and on a store behind `page_frame_map`
def paging_free_user_page_frame (s : PagingState) (page_dir : PageDirectoryPointer)
    (virtual_addr : UInt32) : Option (Bool × PagingState) := do
  let addr_table := page_index virtual_addr
  let table ← s.directory page_dir
  let entry := table addr_table
  if entry.flag.present_bit then
    if h : entry.lower_address.val < 32 then
      let s :=
        { s with
          page_frame_map := Function.update s.page_frame_map ⟨entry.lower_address, h⟩ false
          free_page_frame_count := s.free_page_frame_count + 1 }
      let entry := { entry with flag := { entry.flag with present_bit := false } }
      return (true, s.set_directory page_dir (Function.update table addr_table entry))
    else
      none
  else
    return (false, s)

def paging_free_page_directory (s : PagingState) (page_dir : PageDirectoryPointer)
    : Bool × PagingState :=
  match page_dir with
  | .list i =>
    (true, { s with page_directory_used := Function.update s.page_directory_used i false })
  | _ => (false, s)

def paging_use_page_directory (s : PagingState) (page_dir_virtual_addr : UInt32) : PagingState :=
  { s with
    cr3 :=
      if page_dir_virtual_addr > KERNEL_VIRTUAL_ADDRESS_BASE then
        page_dir_virtual_addr - KERNEL_VIRTUAL_ADDRESS_BASE
      else
        page_dir_virtual_addr }

end AiOS
