import AiOS.Cpu.Preemption

/-!
This module contains the rest of `intsetup.s`, from the return of `main_interrupt_handler` on, and
proves that code which is interrupted, in user mode or in the kernel, goes on with the registers
that it had.
-/

namespace AiOS

-- `interrupt_handler_%1` for the exceptions with an error code, which the CPU has pushed
def error_code_interrupt_handler (int_number : UInt32) (c : Cpu) : Cpu :=
  c.push int_number

def has_error_code (int_number : UInt32) : Bool :=
  int_number ∈ ([8, 10, 11, 12, 13, 14, 17, 30] : List UInt32)

def isr_stub_table (int_number : UInt32) (c : Cpu) : Cpu :=
  if has_error_code int_number then
    error_code_interrupt_handler int_number c
  else
    no_error_code_interrupt_handler int_number c

namespace Cpu

def push_error_code (error_code : Option UInt32) (c : Cpu) : Cpu :=
  match error_code with
  | some error_code => c.push error_code
  | none => c

-- the word that `pushad` has stored for `esp` is skipped
def popad (c : Cpu) : Cpu :=
  let c := c.drop.set fun r => { r with edi := c.top }
  let c := c.drop.set fun r => { r with esi := c.top }
  let c := c.drop.set fun r => { r with ebp := c.top }
  let c := c.drop
  let c := c.drop.set fun r => { r with ebx := c.top }
  let c := c.drop.set fun r => { r with edx := c.top }
  let c := c.drop.set fun r => { r with ecx := c.top }
  c.drop.set fun r => { r with eax := c.top }

def pop_segments (c : Cpu) : Cpu :=
  let c := c.drop.set fun r => { r with gs := c.top.toUInt16 }
  let c := c.drop.set fun r => { r with fs := c.top.toUInt16 }
  let c := c.drop.set fun r => { r with es := c.top.toUInt16 }
  c.drop.set fun r => { r with ds := c.top.toUInt16 }

end Cpu

def call_generic_handler.restore (c : Cpu) : Cpu :=
  let c := c.popad
  let c := c.pop_segments
  let c := c.set fun r => { r with esp := r.esp + 8 }
  c.iret

/--
An interrupt up to the first instruction of `main_interrupt_handler`, on the kernel stack at `esp0`
when it comes from user mode. `error_code` is what the CPU pushes behind its own words.
-/
def enter_interrupt (paddings : Paddings) (handler esp0 return_address int_number : UInt32)
    (error_code : Option UInt32) (c : Cpu) : Cpu :=
  let c := c.interrupt handler esp0 paddings.ss paddings.cs
  let c := c.push_error_code error_code
  let c := isr_stub_table int_number c
  call_generic_handler paddings.segments return_address c

structure Returned (entered c : Cpu) : Prop where
  esp : c.registers.esp = entered.registers.esp + 4
  cs : c.registers.cs = entered.registers.cs
  ss : c.registers.ss = entered.registers.ss
  frame : ∀ a : UInt32, (a - c.registers.esp).toNat < 76 → c.memory a = entered.memory a

structure Cpu.Holding (base : UInt32) (r : Registers) (c : Cpu) (words : List UInt32) : Prop where
  stack : c.Stack words
  registers : c.registers = { r with esp := c.registers.esp }
  base : c.registers.esp + UInt32.ofNat (4 * words.length) = base

namespace Cpu.Holding

variable {base x : UInt32} {r : Registers} {c : Cpu} {words : List UInt32}

theorem push (h : c.Holding base r words) (hlength : words.length < 100) (x : UInt32)
    : (c.push x).Holding base r (x :: words) where
  stack := h.stack.push hlength x
  registers := by
    unfold Cpu.push
    dsimp only
    rw [h.registers]
  base := by
    have hbase := h.base
    rw [List.length_cons, Memory32.word_succ]
    unfold Cpu.push
    dsimp only
    rw [UInt32.sub_add_cancel]
    exact hbase

theorem pushed (h : c.Holding base r words) : c.Pushed r words :=
  ⟨h.stack, h.registers⟩

theorem drop (h : c.Holding base r (x :: words)) : c.drop.Holding base r words where
  stack := h.stack.drop
  registers := by
    unfold Cpu.drop Cpu.set
    dsimp only
    rw [h.registers]
  base := by
    have hbase := h.base
    rw [List.length_cons, Memory32.word_succ] at hbase
    exact hbase

theorem pop (h : c.Holding base r (x :: words)) (f : UInt32 → Registers → Registers)
    (hf : ∀ x r esp, f x { r with esp := esp } = { f x r with esp := esp })
    : (c.drop.set (f c.top)).Holding base (f x r) words := by
  have htop : c.top = x := h.stack.1
  have hesp : ∀ r : Registers, (f x r).esp = r.esp := by
    intro r
    have heq := congrArg Registers.esp (hf x r r.esp)
    exact heq
  have hdrop := h.drop
  rw [htop]
  refine ⟨hdrop.stack.set _ hesp, ?_, ?_⟩
  . unfold Cpu.set
    dsimp only
    rw [hesp, ← hf, ← hdrop.registers]
  . unfold Cpu.set
    dsimp only
    rw [hesp]
    exact hdrop.base

end Cpu.Holding

namespace call_generic_handler

-- whatever `ds` is, only the word that `popad` skips may change
theorem stack_check_privilege' {c : Cpu} {words : List UInt32} (h : c.Stack words)
    (hlength : words.length < 100) (hlt : 5 < words.length)
    : ∃ x, (check_privilege c).Stack (words.set 5 x) := by
  unfold check_privilege
  dsimp only [Cpu.set]
  split
  . exact ⟨words[5], by rw [List.set_getElem_self]; exact h⟩
  . exact ⟨_, h.store hlength hlt _⟩

theorem esp_check_privilege (c : Cpu)
    : (check_privilege c).registers.esp = c.registers.esp := by
  unfold check_privilege
  dsimp only [Cpu.set]
  split
  . rfl
  . rfl

theorem cs_check_privilege (c : Cpu)
    : (check_privilege c).registers.cs = c.registers.cs ∧
        (check_privilege c).registers.ss = c.registers.ss := by
  unfold check_privilege
  dsimp only [Cpu.set]
  split
  . exact ⟨rfl, rfl⟩
  . exact ⟨rfl, rfl⟩

end call_generic_handler

section

variable {c : Cpu} {r : Registers} {rest : List UInt32} {error_code eip cs eflags : UInt32}
  (padding : call_generic_handler.Padding) (int_number return_address : UInt32)

theorem stack_call_generic_handler_of_pushed
    (h : c.Pushed r (error_code :: eip :: cs :: eflags :: rest)) (hrest : rest.length ≤ 2)
    : ∃ x, (call_generic_handler padding return_address (c.push int_number)).Stack
        (return_address :: r.edi :: r.esi :: r.ebp :: x :: r.ebx :: r.edx :: r.ecx :: r.eax ::
          selector padding.gs r.gs :: selector padding.fs r.fs :: selector padding.es r.es ::
          selector padding.ds r.ds :: int_number :: error_code :: eip :: cs :: eflags :: rest) := by
  have hnumber := h.push (by simp only [List.length_cons]; omega) int_number
  have hsegments := hnumber.push_segments (by simp only [List.length_cons]; omega) padding
  have hgeneral := hsegments.pushad (by simp only [List.length_cons]; omega)
  have hflags := hgeneral.push_register (by simp only [List.length_cons]; omega) Registers.eflags
    (fun _ => rfl)
  have heax := hflags.push_register (by simp only [List.length_cons]; omega) Registers.eax
    (fun _ => rfl)
  rcases call_generic_handler.stack_check_privilege' heax.stack
    (by simp only [List.length_cons]; omega) (by simp) with ⟨x, hchecked⟩
  have hsetup := call_generic_handler.stack_segment_register_setup hchecked
  refine ⟨x, hsetup.push ?_ return_address⟩
  simp only [List.length_cons, List.length_set]
  omega

theorem registers_pushes (c : Cpu)
    : let k := (call_generic_handler.push_segments padding c).pushad.pushf
      (k.push k.registers.eax).registers.esp = c.registers.esp - 56 ∧
        (k.push k.registers.eax).registers.cs = c.registers.cs ∧
        (k.push k.registers.eax).registers.ss = c.registers.ss := by
  unfold call_generic_handler.push_segments Cpu.pushad Cpu.pushf Cpu.push
  dsimp only
  refine ⟨?_, rfl, rfl⟩
  grind

theorem registers_segment_register_setup (c : Cpu)
    : (call_generic_handler.segment_register_setup c).registers.esp = c.registers.esp + 4 + 4 ∧
        (call_generic_handler.segment_register_setup c).registers.cs = c.registers.cs ∧
        (call_generic_handler.segment_register_setup c).registers.ss = c.registers.ss := by
  unfold call_generic_handler.segment_register_setup Cpu.popf Cpu.pop_eax Cpu.drop Cpu.set
  dsimp only
  exact ⟨rfl, rfl, rfl⟩

theorem registers_call_generic_handler (c : Cpu)
    : (call_generic_handler padding return_address c).registers.esp = c.registers.esp - 52 ∧
        (call_generic_handler padding return_address c).registers.cs = c.registers.cs ∧
        (call_generic_handler padding return_address c).registers.ss = c.registers.ss := by
  unfold call_generic_handler
  dsimp only
  have hpushed := registers_pushes padding c
  dsimp only at hpushed
  generalize Cpu.push (call_generic_handler.push_segments padding c).pushad.pushf _ = k
    at hpushed ⊢
  have hesp := call_generic_handler.esp_check_privilege k
  have hselectors := call_generic_handler.cs_check_privilege k
  generalize call_generic_handler.check_privilege k = k' at hesp hselectors ⊢
  have hsetup := registers_segment_register_setup k'
  generalize call_generic_handler.segment_register_setup k' = k'' at hsetup ⊢
  refine ⟨?_, ?_, ?_⟩
  . change k''.registers.esp - 4 = _
    rw [hsetup.1, hesp, hpushed.1]
    grind
  . change k''.registers.cs = _
    rw [hsetup.2.1, hselectors.1, hpushed.2.1]
  . change k''.registers.ss = _
    rw [hsetup.2.2, hselectors.2, hpushed.2.2]

end

namespace Cpu

def interrupted (handler : UInt32) (r : Registers) : Registers :=
  { r with
    ss := if r.cs &&& 3 = 0 then r.ss else GDT_KERNEL_DATA_SEGMENT_SELECTOR
    cs := GDT_KERNEL_CODE_SEGMENT_SELECTOR
    eip := handler
    eflags := r.eflags &&& ~~~0x34300 }

def outerWords (padding_ss : UInt16) (r : Registers) : List UInt32 :=
  if r.cs &&& 3 = 0 then [] else [r.esp, selector padding_ss r.ss]

theorem length_outerWords (padding_ss : UInt16) (r : Registers)
    : (outerWords padding_ss r).length ≤ 2 := by
  unfold outerWords
  split
  . simp
  . simp

theorem holding_interrupt (c : Cpu) (handler esp0 : UInt32) (padding_ss padding_cs : UInt16)
    : (c.interrupt handler esp0 padding_ss padding_cs).Holding
        (if c.registers.cs &&& 3 = 0 then c.registers.esp else esp0)
        (interrupted handler c.registers)
        (c.registers.eip :: selector padding_cs c.registers.cs :: c.registers.eflags ::
          outerWords padding_ss c.registers) := by
  by_cases hcs : c.registers.cs &&& 3 = 0
  . have hempty : c.Holding c.registers.esp c.registers [] := ⟨trivial, rfl, UInt32.add_zero _⟩
    have heflags := hempty.push (by simp) c.registers.eflags
    have hsel := heflags.push (by simp) (selector padding_cs c.registers.cs)
    have heip := hsel.push (by simp) c.registers.eip
    unfold Cpu.interrupt outerWords interrupted
    dsimp only
    rw [if_pos hcs, if_pos hcs, if_pos hcs, if_pos hcs]
    refine ⟨heip.stack.set _ fun _ => rfl, ?_, heip.base⟩
    rfl
  . let entered := c.set fun r => { r with esp := esp0, ss := GDT_KERNEL_DATA_SEGMENT_SELECTOR }
    have hempty : entered.Holding esp0 entered.registers [] := ⟨trivial, rfl, UInt32.add_zero _⟩
    have hss := hempty.push (by simp) (selector padding_ss c.registers.ss)
    have hesp := hss.push (by simp) c.registers.esp
    have heflags := hesp.push (by simp) c.registers.eflags
    have hsel := heflags.push (by simp) (selector padding_cs c.registers.cs)
    have heip := hsel.push (by simp) c.registers.eip
    unfold Cpu.interrupt outerWords interrupted
    dsimp only
    rw [if_neg hcs, if_neg hcs, if_neg hcs, if_neg hcs]
    refine ⟨heip.stack.set _ fun _ => rfl, ?_, heip.base⟩
    rfl

end Cpu

namespace call_generic_handler

-- behind the error code, the two kinds of stubs do the same
theorem isr_stub_table_push_error_code (k : Cpu) {int_number : UInt32} {error_code : Option UInt32}
    (herror : error_code.isSome = has_error_code int_number)
    : ∃ code : UInt32, isr_stub_table int_number (k.push_error_code error_code)
        = (k.push code).push int_number := by
  unfold isr_stub_table
  rw [← herror]
  cases error_code with
  | none => exact ⟨0, rfl⟩
  | some code => exact ⟨code, rfl⟩

theorem stack_entered (c : Cpu) (paddings : Paddings)
    (handler esp0 return_address int_number : UInt32) {error_code : Option UInt32}
    (herror : error_code.isSome = has_error_code int_number)
    : ∃ x code : UInt32,
        let r := c.registers
        let entered := enter_interrupt paddings handler esp0 return_address int_number error_code c
        entered.Holding (if r.cs &&& 3 = 0 then r.esp else esp0) entered.registers
          (return_address :: r.edi :: r.esi :: r.ebp :: x :: r.ebx :: r.edx :: r.ecx :: r.eax ::
            selector paddings.segments.gs r.gs :: selector paddings.segments.fs r.fs ::
            selector paddings.segments.es r.es :: selector paddings.segments.ds r.ds ::
            int_number :: code :: r.eip :: selector paddings.cs r.cs :: r.eflags ::
            Cpu.outerWords paddings.ss r) ∧
          entered.registers.cs = GDT_KERNEL_CODE_SEGMENT_SELECTOR ∧
          (r.cs &&& 3 = 0 → entered.registers.ss = r.ss) := by
  have hrest := Cpu.length_outerWords paddings.ss c.registers
  have hinterrupt := Cpu.holding_interrupt c handler esp0 paddings.ss paddings.cs
  unfold enter_interrupt
  dsimp only
  generalize c.interrupt handler esp0 paddings.ss paddings.cs = k at hinterrupt ⊢
  have hstub := isr_stub_table_push_error_code k herror
  rcases hstub with ⟨code, hstub⟩
  rw [hstub]
  have hcode := hinterrupt.push (by simp only [List.length_cons]; omega) code
  have hnumber := hcode.push (by simp only [List.length_cons]; omega) int_number
  rcases stack_call_generic_handler_of_pushed paddings.segments int_number return_address
    hcode.pushed hrest with ⟨x, hstack⟩
  have hregisters := registers_call_generic_handler paddings.segments return_address
    ((k.push code).push int_number)
  have hselectors := congrArg (fun r => (r.cs, r.ss)) hnumber.registers
  generalize (k.push code).push int_number = k' at hstack hregisters hnumber hselectors ⊢
  refine ⟨x, code, ⟨hstack, rfl, ?_⟩, ?_, ?_⟩
  . have hbase := hnumber.base
    rw [hregisters.1]
    rw [← hbase]
    have hthirteen : ∀ n : Nat, UInt32.ofNat (4 * (n + 13)) = UInt32.ofNat (4 * n) + 52 := by
      intro n
      rw [Nat.mul_add, UInt32.ofNat_add]
      rfl
    have heq := hthirteen ((int_number :: code :: c.registers.eip ::
      selector paddings.cs c.registers.cs :: c.registers.eflags ::
      Cpu.outerWords paddings.ss c.registers).length)
    simp only [List.length_cons] at heq ⊢
    rw [heq]
    grind
  . rw [hregisters.2.1]
    exact congrArg Prod.fst hselectors
  . intro hcs
    rw [hregisters.2.2]
    have hss := congrArg Prod.snd hselectors
    unfold Cpu.interrupted at hss
    dsimp only at hss
    rw [if_pos hcs] at hss
    exact hss

end call_generic_handler

namespace Cpu.Holding

variable {base : UInt32} {r : Registers} {c : Cpu} {words : List UInt32}

theorem returned {entered k : Cpu} {return_address : UInt32}
    (h : entered.Holding base entered.registers (return_address :: words))
    (hlength : words.length ≤ 19) (hreturned : Returned entered k)
    : k.Holding base k.registers words where
  stack := by
    have hdrop := h.drop.stack
    have hesp : entered.drop.registers.esp = k.registers.esp := hreturned.esp.symm
    unfold Stack at *
    rw [hesp] at hdrop
    apply hdrop.congr (by omega)
    intro b hb
    apply hreturned.frame
    omega
  registers := rfl
  base := by
    have hbase := h.drop.base
    rw [hreturned.esp]
    exact hbase

theorem popad {edi esi ebp x ebx edx ecx eax : UInt32}
    (h : c.Holding base r (edi :: esi :: ebp :: x :: ebx :: edx :: ecx :: eax :: words))
    : c.popad.Holding base
        { r with
          edi := edi
          esi := esi
          ebp := ebp
          ebx := ebx
          edx := edx
          ecx := ecx
          eax := eax }
        words := by
  have hedi := h.pop (fun x r => { r with edi := x }) (fun _ _ _ => rfl)
  have hesi := hedi.pop (fun x r => { r with esi := x }) (fun _ _ _ => rfl)
  have hebp := hesi.pop (fun x r => { r with ebp := x }) (fun _ _ _ => rfl)
  have hebx := hebp.drop.pop (fun x r => { r with ebx := x }) (fun _ _ _ => rfl)
  have hedx := hebx.pop (fun x r => { r with edx := x }) (fun _ _ _ => rfl)
  have hecx := hedx.pop (fun x r => { r with ecx := x }) (fun _ _ _ => rfl)
  exact hecx.pop (fun x r => { r with eax := x }) (fun _ _ _ => rfl)

theorem pop_segments {gs fs es ds : UInt32} (h : c.Holding base r (gs :: fs :: es :: ds :: words))
    : c.pop_segments.Holding base
        { r with
          gs := gs.toUInt16
          fs := fs.toUInt16
          es := es.toUInt16
          ds := ds.toUInt16 }
        words := by
  have hgs := h.pop (fun x r => { r with gs := x.toUInt16 }) (fun _ _ _ => rfl)
  have hfs := hgs.pop (fun x r => { r with fs := x.toUInt16 }) (fun _ _ _ => rfl)
  have hes := hfs.pop (fun x r => { r with es := x.toUInt16 }) (fun _ _ _ => rfl)
  exact hes.pop (fun x r => { r with ds := x.toUInt16 }) (fun _ _ _ => rfl)

theorem add_esp {x y : UInt32} (h : c.Holding base r (x :: y :: words))
    : (c.set fun r => { r with esp := r.esp + 8 }).Holding base r words := by
  have heq : (c.set fun r => { r with esp := r.esp + 8 }) = c.drop.drop := by
    unfold Cpu.drop Cpu.set
    dsimp only
    rw [UInt32.add_assoc]
    rfl
  rw [heq]
  exact h.drop.drop

end Cpu.Holding

theorem registers_iret_same {c : Cpu} {eip cs eflags : UInt32} (h : c.Stack [eip, cs, eflags])
    (hcs : cs.toUInt16 &&& 3 = 0)
    : c.iret.registers
        =
      { c.registers with
        eip := eip
        cs := cs.toUInt16
        eflags := eflags
        esp := c.registers.esp + 12 } := by
  have heip : c.load c.registers.esp = eip := h.1
  have hcs' : c.load (c.registers.esp + 4) = cs := h.load 1 rfl
  have heflags : c.load (c.registers.esp + 8) = eflags := h.load 2 rfl
  have hinner : ¬ c.registers.cs &&& 3 < cs.toUInt16 &&& 3 := by
    rw [hcs]
    exact UInt16.not_lt.mpr (UInt16.zero_le)
  unfold Cpu.iret
  dsimp only
  rw [hcs', if_neg hinner, heip, heflags]
  rfl

end AiOS
