import Mathlib

/-!
This module contains the data of `paging.h` and the static state of `paging.c`.
-/

namespace AiOS

-- one meaning for the numerals of this type in all modules
instance instNeZero32 : NeZero 32 := ⟨by decide⟩

abbrev PAGE_FRAME_SIZE : UInt32 := 0x400000
abbrev KERNEL_VIRTUAL_ADDRESS_BASE : UInt32 := 0xC0000000

structure PageDirectoryEntryFlag where
  present_bit : Bool
  write_bit : Bool
  privilege : Bool
  use_pagesize_4_mb : Bool

-- the bits of an entry that no function sets are left out
structure PageDirectoryEntry where
  flag : PageDirectoryEntryFlag
  lower_address : Fin 1024

abbrev PageDirectory : Type :=
  Fin 1024 → PageDirectoryEntry

def PageDirectoryEntry.zero : PageDirectoryEntry where
  flag := ⟨false, false, false, false⟩
  lower_address := 0

def PageDirectoryEntry.kernel : PageDirectoryEntry where
  flag := ⟨true, true, false, true⟩
  lower_address := 0

/--
A `struct PageDirectory *` as `paging.c` makes it.
-/
inductive PageDirectoryPointer where
  | null
  | kernel
  | list (i : Fin 32)
  deriving DecidableEq

/--
Where the linker has put the page directories.
-/
structure Layout where
  paging_kernel_page_directory : UInt32
  page_directory_list : UInt32
  kernel_above : KERNEL_VIRTUAL_ADDRESS_BASE < paging_kernel_page_directory
  list_above : KERNEL_VIRTUAL_ADDRESS_BASE < page_directory_list
  list_fits : page_directory_list.toNat + 32 * 4096 ≤ 2 ^ 32

def Layout.address (layout : Layout) : PageDirectoryPointer → UInt32
  | .null => 0
  | .kernel => layout.paging_kernel_page_directory
  | .list i => layout.page_directory_list + UInt32.ofNat (i * 4096)

/--
`page_manager_state`, `page_directory_manager`, the page directories, and the register CR3.
-/
structure PagingState where
  page_frame_map : Fin 32 → Bool
  free_page_frame_count : UInt32
  page_directory_used : Fin 32 → Bool
  page_directory_list : Fin 32 → PageDirectory
  paging_kernel_page_directory : PageDirectory
  cr3 : UInt32

-- as `kernel_setup` finds it, with the first 4 MiB unmapped again
def PagingState.initial (layout : Layout) : PagingState where
  page_frame_map i := i.val = 0
  free_page_frame_count := 31
  page_directory_used _ := false
  page_directory_list _ _ := .zero
  paging_kernel_page_directory k := if k.val = 0x300 then .kernel else .zero
  cr3 := layout.paging_kernel_page_directory - KERNEL_VIRTUAL_ADDRESS_BASE

end AiOS
