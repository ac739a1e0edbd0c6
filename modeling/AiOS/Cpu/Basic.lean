import AiOS.Lib.Stack

/-!
This module contains the registers of the CPU and the instructions that `intsetup.s` and
`kernel-entrypoint.s` are made of. CR3 is part of the paging state.
-/

namespace AiOS

structure Registers where
  edi : UInt32
  esi : UInt32
  ebp : UInt32
  esp : UInt32
  ebx : UInt32
  edx : UInt32
  ecx : UInt32
  eax : UInt32
  eip : UInt32
  eflags : UInt32
  cs : UInt16
  ss : UInt16
  ds : UInt16
  es : UInt16
  fs : UInt16
  gs : UInt16

structure Cpu where
  registers : Registers
  memory : Memory32

abbrev GDT_KERNEL_CODE_SEGMENT_SELECTOR : UInt16 := 0x8
abbrev GDT_KERNEL_DATA_SEGMENT_SELECTOR : UInt16 := 0x10

/--
A selector as a word of the stack. The CPU leaves open what the upper half holds.
-/
def selector (padding sel : UInt16) : UInt32 :=
  UInt32.ofNat (sel.toNat + 2 ^ 16 * padding.toNat)

namespace Cpu

def load (c : Cpu) (a : UInt32) : UInt32 :=
  c.memory.load a

def store (c : Cpu) (a x : UInt32) : Cpu :=
  { c with memory := c.memory.store a x }

def set (c : Cpu) (f : Registers → Registers) : Cpu :=
  { c with registers := f c.registers }

def push (c : Cpu) (x : UInt32) : Cpu where
  registers := { c.registers with esp := c.registers.esp - 4 }
  memory := c.memory.store (c.registers.esp - 4) x

def top (c : Cpu) : UInt32 :=
  c.load c.registers.esp

def drop (c : Cpu) : Cpu :=
  c.set fun r => { r with esp := r.esp + 4 }

-- all registers are pushed as they were before the first of them
def pushad (c : Cpu) : Cpu :=
  let r := c.registers
  let c := c.push r.eax
  let c := c.push r.ecx
  let c := c.push r.edx
  let c := c.push r.ebx
  let c := c.push r.esp
  let c := c.push r.ebp
  let c := c.push r.esi
  c.push r.edi

def pushf (c : Cpu) : Cpu :=
  c.push c.registers.eflags

def popf (c : Cpu) : Cpu :=
  c.drop.set fun r => { r with eflags := c.top }

def pop_eax (c : Cpu) : Cpu :=
  c.drop.set fun r => { r with eax := c.top }

/--
An interrupt through an interrupt gate to the handler at `handler`. From user mode the CPU switches
to the stack of the TSS first, and pushes where the old one was.
-/
def interrupt (handler esp0 : UInt32) (padding_ss padding_cs : UInt16) (c : Cpu) : Cpu :=
  let r := c.registers
  let c :=
    if r.cs &&& 3 = 0 then
      c
    else
      let c := c.set fun r => { r with esp := esp0, ss := GDT_KERNEL_DATA_SEGMENT_SELECTOR }
      let c := c.push (selector padding_ss r.ss)
      c.push r.esp
  let c := c.push r.eflags
  let c := c.push (selector padding_cs r.cs)
  let c := c.push r.eip
  -- the gate clears TF, IF, NT, RF and VM
  c.set fun r =>
    { r with
      cs := GDT_KERNEL_CODE_SEGMENT_SELECTOR
      eip := handler
      eflags := r.eflags &&& ~~~0x34300 }

/--
A return from an interrupt to the same privilege level or to an outer one. The selectors of user
mode pass the checks that the CPU makes of them, as they did when user mode loaded them.
-/
def iret (c : Cpu) : Cpu :=
  let esp := c.registers.esp
  let eip := c.load esp
  let cs := (c.load (esp + 4)).toUInt16
  let eflags := c.load (esp + 8)
  if (c.registers.cs &&& 3) < (cs &&& 3) then
    c.set fun r =>
      { r with
        eip := eip
        cs := cs
        eflags := eflags
        esp := c.load (esp + 12)
        ss := (c.load (esp + 16)).toUInt16 }
  else
    c.set fun r => { r with eip := eip, cs := cs, eflags := eflags, esp := esp + 12 }

/--
The words on the stack, the last one pushed first.
-/
def Stack (c : Cpu) (words : List UInt32) : Prop :=
  c.memory.Holds c.registers.esp words

@[simp]
theorem push_cs (c : Cpu) (x : UInt32) : (c.push x).registers.cs = c.registers.cs := by
  rfl

@[simp]
theorem set_memory (c : Cpu) (f : Registers → Registers) : (c.set f).memory = c.memory := by
  rfl

variable {c : Cpu} {words : List UInt32}

theorem Stack.push (h : c.Stack words) (hlength : words.length < 100) (x : UInt32)
    : (c.push x).Stack (x :: words) :=
  Memory32.Holds.push h (by omega) x

theorem Stack.set (h : c.Stack words) (f : Registers → Registers) (hf : ∀ r, (f r).esp = r.esp)
    : (c.set f).Stack words := by
  unfold Stack Cpu.set
  dsimp only
  rw [hf]
  exact h

theorem Stack.drop {x : UInt32} (h : c.Stack (x :: words)) : c.drop.Stack words :=
  h.2

theorem Stack.pop_eax {x : UInt32} (h : c.Stack (x :: words)) : c.pop_eax.Stack words :=
  h.drop.set _ fun _ => rfl

theorem Stack.popf {x : UInt32} (h : c.Stack (x :: words)) : c.popf.Stack words :=
  h.drop.set _ fun _ => rfl

theorem Stack.load (h : c.Stack words) (k : Nat) {x : UInt32} (hk : words[k]? = some x)
    : c.load (c.registers.esp + UInt32.ofNat (4 * k)) = x :=
  Memory32.Holds.get h k hk

theorem Stack.store (h : c.Stack words) (hlength : words.length < 100) {k : Nat}
    (hk : k < words.length) (x : UInt32)
    : (c.store (c.registers.esp + UInt32.ofNat (4 * k)) x).Stack (words.set k x) :=
  Memory32.Holds.set h (by omega) hk x

end Cpu

theorem toUInt16_selector (padding sel : UInt16) : (selector padding sel).toUInt16 = sel := by
  apply UInt16.toNat_inj.mp
  have := sel.toNat_lt
  have := padding.toNat_lt
  unfold selector
  rw [UInt32.toNat_toUInt16, UInt32.toNat_ofNat']
  omega

theorem selector_and_three (padding sel : UInt16)
    : selector padding sel &&& 3 = 0 ↔ sel &&& 3 = 0 := by
  have hmask : ∀ n : Nat, n &&& 3 = n % 4 := fun n => Nat.and_two_pow_sub_one_eq_mod n 2
  have := sel.toNat_lt
  have := padding.toNat_lt
  unfold selector
  rw [← UInt32.toNat_inj, ← UInt16.toNat_inj, UInt32.toNat_and, UInt16.toNat_and]
  rw [UInt32.toNat_ofNat']
  change _ &&& 3 = 0 ↔ _ &&& 3 = 0
  rw [hmask, hmask]
  omega

end AiOS
