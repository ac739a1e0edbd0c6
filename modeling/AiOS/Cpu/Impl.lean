import AiOS.Cpu.Basic
import AiOS.Process.Basic

/-!
This module contains the code of `intsetup.s` up to `main_interrupt_handler`, the code of
`process_context_switch`, and how the structures of C lie in memory.
-/

namespace AiOS

-- `interrupt_handler_%1`, which pushes 0 as error code
def no_error_code_interrupt_handler (int_number : UInt32) (c : Cpu) : Cpu :=
  (c.push 0).push int_number

namespace call_generic_handler

structure Padding where
  ds : UInt16
  es : UInt16
  fs : UInt16
  gs : UInt16

def push_segments (padding : Padding) (c : Cpu) : Cpu :=
  let c := c.push (selector padding.ds c.registers.ds)
  let c := c.push (selector padding.es c.registers.es)
  let c := c.push (selector padding.fs c.registers.fs)
  c.push (selector padding.gs c.registers.gs)

-- the flags that `and` sets are restored by `popf` in `segment_register_setup`
def check_privilege (c : Cpu) : Cpu :=
  let c := c.set fun r => { r with eax := c.load (r.esp + 52) }
  let c := c.set fun r => { r with eax := r.eax &&& 0x3 }
  if c.registers.eax = 0 then
    c
  else
    let c := c.set fun r => { r with eax := c.load (r.esp + 76) }
    c.store (c.registers.esp + 20) c.registers.eax

def segment_register_setup (c : Cpu) : Cpu :=
  let c := c.set fun r => { r with eax := (r.eax &&& 0xFFFF0000) ||| 0x10 }
  let c := c.set fun r => { r with ds := 0x10, es := 0x10, fs := 0x10, gs := 0x10 }
  let c := c.pop_eax
  let c := c.popf
  c.set fun r => { r with ebp := r.esp }

end call_generic_handler

open call_generic_handler in
/--
The code up to the first instruction of `main_interrupt_handler`, which returns to `return_address`.
-/
def call_generic_handler (padding : Padding) (return_address : UInt32) (c : Cpu) : Cpu :=
  let c := push_segments padding c
  let c := c.pushad
  let c := c.pushf
  let c := c.push c.registers.eax
  let c := check_privilege c
  let c := segment_register_setup c
  c.push return_address

def InterruptFrame.read (c : Cpu) (a : UInt32) : InterruptFrame where
  cpu :=
    { edi := c.load a
      esi := c.load (a + 4)
      ebp := c.load (a + 8)
      esp := c.load (a + 12)
      ebx := c.load (a + 16)
      edx := c.load (a + 20)
      ecx := c.load (a + 24)
      eax := c.load (a + 28)
      gs := c.load (a + 32)
      fs := c.load (a + 36)
      es := c.load (a + 40)
      ds := c.load (a + 44) }
  int_number := c.load (a + 48)
  error_code := c.load (a + 52)
  eip := c.load (a + 56)
  cs := c.load (a + 60)
  eflags := c.load (a + 64)

-- the argument of `main_interrupt_handler`, above its return address
def main_interrupt_handler.frame (c : Cpu) : InterruptFrame :=
  .read c (c.registers.esp + 4)

def Context.words (ctx : Context) : List UInt32 :=
  [ctx.cpu.edi, ctx.cpu.esi, ctx.cpu.ebp, ctx.cpu.esp, ctx.cpu.ebx, ctx.cpu.edx, ctx.cpu.ecx,
   ctx.cpu.eax, ctx.cpu.gs, ctx.cpu.fs, ctx.cpu.es, ctx.cpu.ds, ctx.eflags, ctx.eip, ctx.ss,
   ctx.cs, ctx.page_directory_virtual_addr]

def process_context_switch.call (ctx : Context) (return_address : UInt32) (c : Cpu) : Cpu :=
  (ctx.words.foldr (fun x c => c.push x) c).push return_address

namespace process_context_switch

def setup_iret_stack (c : Cpu) : Cpu :=
  let c := c.push (c.load (c.registers.ecx + 56))
  let c := c.push (c.load (c.registers.ecx + 12))
  let c := c.push (c.load (c.registers.ecx + 48))
  let c := c.push (c.load (c.registers.ecx + 60))
  c.push (c.load (c.registers.ecx + 52))

def load_registers (c : Cpu) : Cpu :=
  let c := c.set fun r => { r with eax := c.load (r.ecx + 32) }
  let c := c.set fun r => { r with gs := r.eax.toUInt16 }
  let c := c.set fun r => { r with eax := c.load (r.ecx + 36) }
  let c := c.set fun r => { r with fs := r.eax.toUInt16 }
  let c := c.set fun r => { r with eax := c.load (r.ecx + 40) }
  let c := c.set fun r => { r with es := r.eax.toUInt16 }
  let c := c.set fun r => { r with eax := c.load (r.ecx + 44) }
  let c := c.set fun r => { r with ds := r.eax.toUInt16 }
  let c := c.set fun r => { r with edi := c.load (r.ecx + 0) }
  let c := c.set fun r => { r with esi := c.load (r.ecx + 4) }
  let c := c.set fun r => { r with ebp := c.load (r.ecx + 8) }
  let c := c.set fun r => { r with ebx := c.load (r.ecx + 16) }
  let c := c.set fun r => { r with edx := c.load (r.ecx + 20) }
  let c := c.set fun r => { r with eax := c.load (r.ecx + 28) }
  c.set fun r => { r with ecx := c.load (r.ecx + 24) }

end process_context_switch

open process_context_switch in
def process_context_switch (c : Cpu) : Cpu :=
  let c := c.set fun r => { r with ecx := r.esp + 4 }
  let c := setup_iret_stack c
  let c := load_registers c
  c.iret

end AiOS
