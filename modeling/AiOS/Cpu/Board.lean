import AiOS.Cpu.Entry
import AiOS.Driver.Pic
import AiOS.Lib.System
import AiOS.Process.Basic

/-!
This module contains the interrupts of the whole machine, from the first call of `kernel_setup` on:
devices raise and withdraw requests, the CPU takes them and exceptions, user mode makes system calls,
and the kernel goes on, in any order.
-/

namespace AiOS

inductive Setup where
  | load_gdt
  | pic_remap
  | initialize_idt
  | activate_keyboard_interrupt
  | process_create_user_process
  | scheduler_init
  | scheduler_switch_to_next_process
  deriving DecidableEq

def kernel_setup.calls : List Setup :=
  [.load_gdt, .pic_remap, .initialize_idt, .activate_keyboard_interrupt,
   .process_create_user_process, .scheduler_init, .scheduler_switch_to_next_process]

structure Service where
  int_number : UInt8
  interrupt_flag : Bool
  deriving DecidableEq

/--
The side of the machine that interrupts see: the controllers, the interrupt flag, the IDT once it is
loaded, the calls of `kernel_setup` that are left, the handlers that run, the innermost first, and the
interrupt flags of the contexts that were stored.
-/
structure Board where
  pics : Pics
  interrupt_flag : Bool
  idt : Option (UInt8 → IDTGate)
  calls : List Setup
  services : List Service
  contexts : List Bool

namespace Board

def user (b : Board) : Bool :=
  b.calls.isEmpty && b.services.isEmpty

def enter (b : Board) (software : Bool) (vector : UInt8) : Option Board := do
  let idt ← b.idt
  let gate := Gate.decode (Fields.pack (idt vector).fields)
  guard (gate.type = 0xE ∧ (software → (if b.user then 3 else 0) ≤ gate.dpl) ∧ gate.present)
  return { b with
    interrupt_flag := false
    services := ⟨vector, b.interrupt_flag⟩ :: b.services }

-- `context` is the interrupt flag in the context that `process_context_switch` loads
def scheduler_switch_to_next_process (b : Board) (context : Bool) : Option Board := do
  guard (context ∈ b.contexts)
  return { b with
    pics := pic_ack (IRQ_TIMER + PIC1_OFFSET) b.pics
    interrupt_flag := context
    calls := []
    services := [] }

def main_interrupt_handler (b : Board) (service : Service) (rest : List Service) (context : Bool)
    : Option Board :=
  let returned := { b with interrupt_flag := service.interrupt_flag, services := rest }
  if service.int_number = PIC1_OFFSET + IRQ_KEYBOARD then
    some { returned with pics := pic_ack (IRQ_KEYBOARD + PIC1_OFFSET) b.pics }
  else if service.int_number = PIC1_OFFSET + IRQ_TIMER then
    { b with contexts := service.interrupt_flag :: b.contexts }.scheduler_switch_to_next_process
      context
  else
    some returned

/--
The next call of `kernel_setup`. Nothing else touches a controller while interrupts are off, so that
each call is one step.
-/
def call (isr_stub_table : Nat → UInt32) (b : Board) (setup : Setup) (context : Bool)
    : Option Board :=
  match setup with
  | .load_gdt => some { b with interrupt_flag := false }
  | .pic_remap => some { b with pics := AiOS.pic_remap b.pics }
  | .initialize_idt =>
    some { b with
      idt := some (AiOS.initialize_idt isr_stub_table fun _ => .zero)
      interrupt_flag := true }
  | .activate_keyboard_interrupt =>
    some { b with pics := AiOS.activate_keyboard_interrupt b.pics }
  | .process_create_user_process => some { b with contexts := true :: b.contexts }
  | .scheduler_init =>
    some { b with interrupt_flag := false, pics := activate_timer_interrupt b.pics }
  | .scheduler_switch_to_next_process => b.scheduler_switch_to_next_process context

end Board

/--
`raise` and `withdraw` come from the devices, `interrupt` is the CPU that takes a request of the
controllers, `int` is the instruction in user mode, and in `proceed` the kernel goes on.
-/
inductive Board.Event where
  | raise (irq : Fin 16)
  | withdraw (irq : Fin 16)
  | interrupt
  | exception (vector : Fin 32)
  | int (vector : UInt8)
  | proceed (context : Bool)

def Board.exec (isr_stub_table : Nat → UInt32) (b : Board) (e : Board.Event) : Option Board :=
  match e with
  | .raise irq => some { b with pics := b.pics.line irq true }
  | .withdraw irq => some { b with pics := b.pics.line irq false }
  | .interrupt =>
    if b.interrupt_flag then
      { b with pics := b.pics.acknowledge.2 }.enter false b.pics.acknowledge.1
    else
      none
  | .exception vector => b.enter false (UInt8.ofNat vector)
  | .int vector =>
    if b.user then (b.enter true vector).or (b.enter false 13) else none
  | .proceed context =>
    match b.services, b.calls with
    | service :: rest, _ => b.main_interrupt_handler service rest context
    | [], setup :: calls => { b with calls := calls }.call isr_stub_table setup context
    | [], [] => none

/--
The machine starts with interrupts off, and with the controllers in any state.
-/
def boards (isr_stub_table : Nat → UInt32) : System Board Board.Event where
  init b := b.interrupt_flag = false ∧ b.idt = none ∧ b.calls = kernel_setup.calls ∧
    b.services = [] ∧ b.contexts = []
  step b e b' := b.exec isr_stub_table e = some b'

end AiOS
