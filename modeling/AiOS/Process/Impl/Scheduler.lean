import AiOS.Process.Impl.Process

/-!
This module contains `scheduler.c`, the timer interrupt of `interrupt.c`, and `kernel_setup`.
-/

namespace AiOS

def scheduler_init (s : KernelState) : KernelState :=
  { s with
    active_process_count := 0
    running_process_idx := 0 }

-- without a running process the store goes through a null pointer, into page 0 of the user
def scheduler_save_context_to_current_running_pcb (ctx : Context) (s : KernelState) : KernelState :=
  match process_get_current_running_pcb_pointer s with
  | none => s
  | some i =>
    { s with
      process_list := Function.update s.process_list i { s.process_list i with context := ctx } }

/--
The slot that the loop over `i` picks: the first ready one after the running one, else slot 0.
-/
def scheduler_switch_to_next_process.pilihan (s : KernelState) : Fin 16 :=
  match Fin.find? fun i : Fin 15 => (s.process_list (i.succ + s.running_process_idx)).state = .READY
  with
  | some i => i.succ + s.running_process_idx
  | none => 0

-- up to `process_context_switch`, which loads the context of the slot
def scheduler_switch_to_next_process (s : KernelState) : KernelState :=
  let pilihan := scheduler_switch_to_next_process.pilihan s
  let set_state := fun (process_list : Fin 16 → ProcessControlBlock) i state =>
    Function.update process_list i { process_list i with state := state }
  let process_list := set_state s.process_list s.running_process_idx .READY
  let process_list := set_state process_list pilihan .RUNNING
  { s with
    process_list := process_list
    running_process_idx := pilihan
    paging :=
      paging_use_page_directory s.paging (process_list pilihan).context.page_directory_virtual_addr }

-- the case of `PIC1_OFFSET + IRQ_TIMER`
def main_interrupt_handler.timer (frame : InterruptFrame) (s : KernelState) : KernelState :=
  let currentContext : Context :=
    { cpu := frame.cpu
      eflags := frame.eflags
      eip := frame.eip
      ss := 0x20 ||| 0x3
      cs := frame.cs
      page_directory_virtual_addr := paging_get_current_page_directory_addr s.paging }
  scheduler_switch_to_next_process (scheduler_save_context_to_current_running_pcb currentContext s)

def kernel_setup.request : FAT32DriverRequest where
  buf := 0
  name := ![0x73, 0x68, 0x65, 0x6C, 0x6C, 0, 0, 0]
  ext := ![0, 0, 0]
  parent_cluster_number := ROOT_CLUSTER_NUMBER
  buffer_size := 0x100000

def kernel_setup.before (after_literal : Fin 3 → UInt8) (s : KernelState) : Option KernelState := do
  let (driver_state, disk) ←
    (initialize_filesystem_fat32 s.driver_state after_literal).run diskDevice s.disk
  let (_, paging) ← paging_allocate_user_page_frame s.paging .kernel 0
  let ((_, driver_state, _), disk) ← (read driver_state kernel_setup.request).run diskDevice disk
  return { s with
    disk := disk
    driver_state := driver_state
    paging := paging }

/--
`after_literal` are the bytes after the literal `"root"`, see `create_fat32`.
-/
def kernel_setup (layout : Layout) (after_literal : Fin 3 → UInt8) (s : KernelState)
    : Option KernelState := do
  let s ← kernel_setup.before after_literal s
  let (_, s) ← process_create_user_process layout kernel_setup.request s
  return scheduler_switch_to_next_process (scheduler_init s)

end AiOS
