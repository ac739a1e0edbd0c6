import AiOS.Fat32.Basic
import AiOS.Memory.Basic

/-!
This module contains the data of `process.h` and `interrupt.h`, and the state of the kernel.
-/

namespace AiOS

instance instNeZero16 : NeZero 16 := ⟨by decide⟩

abbrev PROCESS_PAGE_FRAME_COUNT_MAX : Nat := 8
abbrev PROCESS_COUNT_MAX : Nat := 16

abbrev CPU_EFLAGS_BASE_FLAG : UInt32 := 0x2
abbrev CPU_EFLAGS_FLAG_INTERRUPT_ENABLE : UInt32 := 0x200

abbrev PROCESS_CREATE_SUCCESS : Int := 0
abbrev PROCESS_CREATE_FAIL_MAX_PROCESS_EXCEEDED : Int := 1
abbrev PROCESS_CREATE_FAIL_INVALID_ENTRYPOINT : Int := 2
abbrev PROCESS_CREATE_FAIL_NOT_ENOUGH_MEMORY : Int := 3
abbrev PROCESS_CREATE_FAIL_FS_READ_FAILURE : Int := 4
abbrev PROCESS_CREATE_FAIL_PAGING_ALLOC_FAILURE : Int := 5

structure CPURegister where
  edi : UInt32
  esi : UInt32
  ebp : UInt32
  esp : UInt32
  ebx : UInt32
  edx : UInt32
  ecx : UInt32
  eax : UInt32
  gs : UInt32
  fs : UInt32
  es : UInt32
  ds : UInt32

structure InterruptFrame where
  cpu : CPURegister
  int_number : UInt32
  error_code : UInt32
  eip : UInt32
  cs : UInt32
  eflags : UInt32

structure Context where
  cpu : CPURegister
  eflags : UInt32
  eip : UInt32
  ss : UInt32
  cs : UInt32
  page_directory_virtual_addr : UInt32

inductive PROCESS_STATE where
  | KILLED
  | RUNNING
  | READY
  | BLOCKED
  deriving DecidableEq

-- the three parts of the structure, `metadata`, `context` and `memory`, one after the other
structure ProcessControlBlock where
  pid : UInt32
  name : Fin 10 → UInt8
  state : PROCESS_STATE
  context : Context
  virtual_addr_used : Fin 8 → UInt32
  page_frame_used_count : UInt32

def CPURegister.zero : CPURegister :=
  ⟨0, 0, 0, 0, 0, 0, 0, 0, 0, 0, 0, 0⟩

def Context.zero : Context :=
  ⟨.zero, 0, 0, 0, 0, 0⟩

def ProcessControlBlock.zero : ProcessControlBlock :=
  ⟨0, fun _ => 0, .KILLED, .zero, fun _ => 0, 0⟩

/--
What the kernel keeps: the disk and its driver, the paging state, the process table with
`process_manager_state`, and the scheduler's `running_process_idx`.
-/
structure KernelState where
  disk : Disk
  driver_state : FAT32DriverState
  paging : PagingState
  process_list : Fin 16 → ProcessControlBlock
  used_process : Fin 16 → Bool
  active_process_count : UInt32
  running_process_idx : Fin 16

def KernelState.initial (layout : Layout) (disk : Disk) : KernelState where
  disk := disk
  driver_state := .zero
  paging := .initial layout
  process_list _ := .zero
  used_process _ := false
  active_process_count := 0
  running_process_idx := 0

end AiOS
