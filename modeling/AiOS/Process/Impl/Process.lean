import AiOS.Fat32.Impl.Read
import AiOS.Memory.Impl
import AiOS.Process.Basic

/-!
This module contains `process.c`. What `read` stores goes to the pages of the new process, which the
state of the kernel leaves out.
-/

namespace AiOS

def process_get_current_running_pcb_pointer (s : KernelState) : Option (Fin 16) :=
  Fin.find? fun i => (s.process_list i).state = .RUNNING

def process_list_get_inactive_index (s : KernelState) : Option (Fin 16) :=
  Slots.free s.used_process

def ceil_div (x y : UInt32) : UInt32 :=
  1 + (x - 1) / y

namespace process_create_user_process

def page_frame_count_needed (request : FAT32DriverRequest) : UInt32 :=
  ceil_div (request.buffer_size + PAGE_FRAME_SIZE) PAGE_FRAME_SIZE

-- the assignments to `new_pcb`, in the slot `p_index` that holds `pcb`
def new_pcb (layout : Layout) (request : FAT32DriverRequest) (p_index : Fin 16)
    (pagedir : PageDirectoryPointer) (pagingProcess paging : UInt32) (pcb : ProcessControlBlock)
    : ProcessControlBlock where
  pid := UInt32.ofNat p_index
  name := memcpy (memcpy pcb.name fun _ : Fin 10 => 0) request.name
  state := .READY
  context :=
    { cpu :=
        { pcb.context.cpu with
          ebp := 0xBFFFFFFC
          esp := 0xBFFFFFFC
          gs := 0x20 ||| 0x3
          fs := 0x20 ||| 0x3
          es := 0x20 ||| 0x3
          ds := 0x20 ||| 0x3 }
      eflags := pcb.context.eflags ||| CPU_EFLAGS_BASE_FLAG ||| CPU_EFLAGS_FLAG_INTERRUPT_ENABLE
      eip := request.buf
      ss := 0x20 ||| 0x3
      cs := 0x18 ||| 0x3
      page_directory_virtual_addr := layout.address pagedir }
  virtual_addr_used :=
    Function.update
      (Function.update pcb.virtual_addr_used 0 (pagingProcess + KERNEL_VIRTUAL_ADDRESS_BASE))
      1 (paging + KERNEL_VIRTUAL_ADDRESS_BASE)
  page_frame_used_count := 2

-- from `process_list_get_inactive_index` on, `none` when that finds no slot
def fill_slot (layout : Layout) (request : FAT32DriverRequest) (current_pagedir : UInt32)
    (pagedir : PageDirectoryPointer) (pagingProcess paging : UInt32) (s : KernelState)
    : Option (Int × KernelState) := do
  let p_index ← process_list_get_inactive_index s
  let pcb := new_pcb layout request p_index pagedir pagingProcess paging (s.process_list p_index)
  return (PROCESS_CREATE_SUCCESS,
    { s with
      used_process := Function.update s.used_process p_index true
      process_list := Function.update s.process_list p_index pcb
      paging := paging_use_page_directory s.paging current_pagedir
      active_process_count := s.active_process_count + 1 })

/--
The stores of `read` from `request.buf` on stay in the two pages that were allocated. They are at
most 1 MiB, so they meet no page between their first and their last.
-/
def stores_fit (request : FAT32DriverRequest) (delivered : List ClusterBuffer) : Prop :=
  let last := request.buf.toNat + (CLUSTER_SIZE * delivered.length - 1)
  last / 2 ^ 22 = request.buf.toNat / 2 ^ 22 ∨ last / 2 ^ 22 = 0xBFFFFFFC / 2 ^ 22

instance (request : FAT32DriverRequest) (delivered : List ClusterBuffer)
    : Decidable (stores_fit request delivered) :=
  inferInstanceAs (Decidable (_ ∨ _))

-- from `read` on, in the new page directory
def load (layout : Layout) (request : FAT32DriverRequest) (current_pagedir : UInt32)
    (pagedir : PageDirectoryPointer) (pagingProcess paging : UInt32) (s : KernelState)
    : Option (Int × KernelState) := do
  let ((readfsStatus, driver_state, delivered), disk) ←
    (read s.driver_state request).run diskDevice s.disk
  let s :=
    { s with
      disk := disk
      driver_state := driver_state }
  if readfsStatus ≠ 0 then
    return (PROCESS_CREATE_FAIL_FS_READ_FAILURE, s)
  else if stores_fit request delivered then
    fill_slot layout request current_pagedir pagedir pagingProcess paging s
  else
    none

end process_create_user_process

open process_create_user_process in
/--
`none` where the source leaves what C defines: a store through a null pointer or to a page that was
not allocated, a slot -1, or a chain that takes `read` out of its table.
-/
def process_create_user_process (layout : Layout) (request : FAT32DriverRequest) (s : KernelState)
    : Option (Int × KernelState) :=
  if s.active_process_count.toNat ≥ PROCESS_COUNT_MAX then
    return (PROCESS_CREATE_FAIL_MAX_PROCESS_EXCEEDED, s)
  else if request.buf ≥ KERNEL_VIRTUAL_ADDRESS_BASE then
    return (PROCESS_CREATE_FAIL_INVALID_ENTRYPOINT, s)
  else if ¬ paging_allocate_check s.paging (page_frame_count_needed request) ∨
      (page_frame_count_needed request).toNat > PROCESS_PAGE_FRAME_COUNT_MAX then
    return (PROCESS_CREATE_FAIL_NOT_ENOUGH_MEMORY, s)
  else do
    let current_pagedir := paging_get_current_page_directory_addr s.paging
    let (pagedir, paging_state) := paging_create_new_page_directory s.paging
    let (pagingProcess, paging_state) ←
      paging_allocate_user_page_frame paging_state pagedir request.buf
    let (paging, paging_state) ← paging_allocate_user_page_frame paging_state pagedir 0xBFFFFFFC
    if ¬ (paging ≠ 0 ∧ pagingProcess ≠ 0) then
      return (PROCESS_CREATE_FAIL_PAGING_ALLOC_FAILURE, { s with paging := paging_state })
    let s :=
      { s with
        paging := paging_use_page_directory paging_state (layout.address pagedir) }
    load layout request current_pagedir pagedir pagingProcess paging s

def process_destroy.find (s : KernelState) (pid : UInt32) : Option (Fin 16) :=
  Fin.find? fun i => (s.process_list i).pid = pid

-- `none` when `pid` is no index of `used_process`
def process_destroy (pid : UInt32) (s : KernelState) : Option (Bool × KernelState) :=
  match process_destroy.find s pid with
  | none => some (false, s)
  | some i =>
    if h : pid.toNat < PROCESS_COUNT_MAX then
      some (true,
        { s with
          process_list := Function.update s.process_list i .zero
          used_process := Function.update s.used_process ⟨pid.toNat, h⟩ false
          active_process_count := s.active_process_count - 1 })
    else
      none

end AiOS
