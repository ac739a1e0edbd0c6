import AiOS.Cpu.Impl
import AiOS.Process.Boot

/-!
This module proves that a process does not notice that it was preempted: each register comes back as
it was.
-/

namespace AiOS

variable {c : Cpu} {r : Registers} {rest : List UInt32}

/--
The registers are `r`, but for the stack pointer, and the stack holds the words.
-/
structure Cpu.Pushed (r : Registers) (c : Cpu) (words : List UInt32) : Prop where
  stack : c.Stack words
  registers : c.registers = { r with esp := c.registers.esp }

namespace Cpu.Pushed

variable {words : List UInt32}

theorem push (h : c.Pushed r words) (hlength : words.length < 100) (x : UInt32)
    : (c.push x).Pushed r (x :: words) where
  stack := h.stack.push hlength x
  registers := by
    unfold Cpu.push
    dsimp only
    rw [h.registers]

theorem push_register (h : c.Pushed r words) (hlength : words.length < 100)
    (f : Registers → UInt32) (hf : ∀ esp, f { r with esp := esp } = f r)
    : (c.push (f c.registers)).Pushed r (f r :: words) := by
  have hpush := h.push hlength (f c.registers)
  have heq : f c.registers = f r := by
    rw [h.registers, hf]
  rw [heq] at hpush ⊢
  exact hpush

theorem push_segments (h : c.Pushed r words) (hlength : words.length < 50)
    (padding : call_generic_handler.Padding)
    : (call_generic_handler.push_segments padding c).Pushed r
        (selector padding.gs r.gs :: selector padding.fs r.fs :: selector padding.es r.es ::
          selector padding.ds r.ds :: words) := by
  have hds := h.push_register (by omega) (fun r => selector padding.ds r.ds) (fun _ => rfl)
  have hes := hds.push_register (by simp only [List.length_cons]; omega)
    (fun r => selector padding.es r.es) (fun _ => rfl)
  have hfs := hes.push_register (by simp only [List.length_cons]; omega)
    (fun r => selector padding.fs r.fs) (fun _ => rfl)
  exact hfs.push_register (by simp only [List.length_cons]; omega)
    (fun r => selector padding.gs r.gs) (fun _ => rfl)

theorem pushad (h : c.Pushed r words) (hlength : words.length < 60)
    : c.pushad.Pushed r
        (r.edi :: r.esi :: r.ebp :: c.registers.esp :: r.ebx :: r.edx :: r.ecx :: r.eax :: words)
    := by
  have heax := h.push (by omega) c.registers.eax
  have hecx := heax.push (by simp only [List.length_cons]; omega) c.registers.ecx
  have hedx := hecx.push (by simp only [List.length_cons]; omega) c.registers.edx
  have hebx := hedx.push (by simp only [List.length_cons]; omega) c.registers.ebx
  have hesp := hebx.push (by simp only [List.length_cons]; omega) c.registers.esp
  have hebp := hesp.push (by simp only [List.length_cons]; omega) c.registers.ebp
  have hesi := hebp.push (by simp only [List.length_cons]; omega) c.registers.esi
  have hedi : c.pushad.Pushed r
      (c.registers.edi :: c.registers.esi :: c.registers.ebp :: c.registers.esp ::
        c.registers.ebx :: c.registers.edx :: c.registers.ecx :: c.registers.eax :: words) :=
    hesi.push (by simp only [List.length_cons]; omega) c.registers.edi
  generalize c.pushad = k at hedi ⊢
  rw [h.registers] at hedi
  exact hedi

end Cpu.Pushed

namespace call_generic_handler

theorem stack_check_privilege (h : c.Stack rest) (hlength : rest.length < 100)
    {padding ds : UInt16} {esp : UInt32} (hds : rest[13]? = some (selector padding ds))
    (hesp : rest[19]? = some esp) (huser : ds &&& 3 ≠ 0)
    : (check_privilege c).Stack (rest.set 5 esp) := by
  have hload : c.load (c.registers.esp + 52) = selector padding ds := h.load 13 hds
  have hload' : c.load (c.registers.esp + 76) = esp := h.load 19 hesp
  have hlt : 5 < rest.length := by
    rcases List.getElem?_eq_some_iff.mp hesp with ⟨hlt, _⟩
    omega
  have hne : ¬ selector padding ds &&& 3 = 0 := by
    rw [selector_and_three]
    exact huser
  unfold check_privilege
  dsimp only [Cpu.set]
  rw [hload, if_neg hne]
  have hstore := h.store hlength hlt esp
  rw [← hload'] at hstore ⊢
  exact hstore

theorem stack_segment_register_setup {eax eflags : UInt32} (h : c.Stack (eax :: eflags :: rest))
    : (segment_register_setup c).Stack rest := by
  have heax := h.set (fun r => { r with eax := (r.eax &&& 0xFFFF0000) ||| 0x10 }) (fun _ => rfl)
  have hsegments := heax.set (fun r => { r with ds := 0x10, es := 0x10, fs := 0x10, gs := 0x10 })
    (fun _ => rfl)
  exact hsegments.pop_eax.popf.set _ (fun _ => rfl)

end call_generic_handler

def InterruptFrame.words (frame : InterruptFrame) : List UInt32 :=
  [frame.cpu.edi, frame.cpu.esi, frame.cpu.ebp, frame.cpu.esp, frame.cpu.ebx, frame.cpu.edx,
   frame.cpu.ecx, frame.cpu.eax, frame.cpu.gs, frame.cpu.fs, frame.cpu.es, frame.cpu.ds,
   frame.int_number, frame.error_code, frame.eip, frame.cs, frame.eflags]

theorem InterruptFrame.read_of_holds {frame : InterruptFrame} {a : UInt32}
    (h : c.memory.Holds a (frame.words ++ rest))
    : InterruptFrame.read c a = frame := by
  have hload : ∀ k x, (frame.words ++ rest)[k]? = some x →
      c.load (a + UInt32.ofNat (4 * k)) = x := fun k x hk => h.get k hk
  have hedi : c.load a = frame.cpu.edi := h.1
  have hesi : c.load (a + 4) = frame.cpu.esi := hload 1 _ rfl
  have hebp : c.load (a + 8) = frame.cpu.ebp := hload 2 _ rfl
  have hesp : c.load (a + 12) = frame.cpu.esp := hload 3 _ rfl
  have hebx : c.load (a + 16) = frame.cpu.ebx := hload 4 _ rfl
  have hedx : c.load (a + 20) = frame.cpu.edx := hload 5 _ rfl
  have hecx : c.load (a + 24) = frame.cpu.ecx := hload 6 _ rfl
  have heax : c.load (a + 28) = frame.cpu.eax := hload 7 _ rfl
  have hgs : c.load (a + 32) = frame.cpu.gs := hload 8 _ rfl
  have hfs : c.load (a + 36) = frame.cpu.fs := hload 9 _ rfl
  have hes : c.load (a + 40) = frame.cpu.es := hload 10 _ rfl
  have hds : c.load (a + 44) = frame.cpu.ds := hload 11 _ rfl
  have hnumber : c.load (a + 48) = frame.int_number := hload 12 _ rfl
  have hcode : c.load (a + 52) = frame.error_code := hload 13 _ rfl
  have heip : c.load (a + 56) = frame.eip := hload 14 _ rfl
  have hcs : c.load (a + 60) = frame.cs := hload 15 _ rfl
  have heflags : c.load (a + 64) = frame.eflags := hload 16 _ rfl
  unfold InterruptFrame.read
  rw [hedi, hesi, hebp, hesp, hebx, hedx, hecx, heax, hgs, hfs, hes, hds, hnumber, hcode, heip,
    hcs, heflags]

structure Paddings where
  ss : UInt16
  cs : UInt16
  segments : call_generic_handler.Padding

/--
A timer interrupt up to `main_interrupt_handler`, on the kernel stack at `esp0`.
-/
def timer_interrupt (paddings : Paddings) (handler esp0 return_address : UInt32) (c : Cpu) : Cpu :=
  let c := c.interrupt handler esp0 paddings.ss paddings.cs
  let c := no_error_code_interrupt_handler 0x20 c
  call_generic_handler paddings.segments return_address c

def user_frame (paddings : Paddings) (r : Registers) : InterruptFrame where
  cpu :=
    { edi := r.edi
      esi := r.esi
      ebp := r.ebp
      esp := r.esp
      ebx := r.ebx
      edx := r.edx
      ecx := r.ecx
      eax := r.eax
      gs := selector paddings.segments.gs r.gs
      fs := selector paddings.segments.fs r.fs
      es := selector paddings.segments.es r.es
      ds := selector paddings.segments.ds r.ds }
  int_number := 0x20
  error_code := 0
  eip := r.eip
  cs := selector paddings.cs r.cs
  eflags := r.eflags

theorem stack_interrupt (hcs : c.registers.cs &&& 3 ≠ 0) (handler esp0 : UInt32)
    (padding_ss padding_cs : UInt16)
    : (c.interrupt handler esp0 padding_ss padding_cs).Stack
        [c.registers.eip, selector padding_cs c.registers.cs, c.registers.eflags, c.registers.esp,
         selector padding_ss c.registers.ss] := by
  let entered := c.set fun r => { r with esp := esp0, ss := GDT_KERNEL_DATA_SEGMENT_SELECTOR }
  have hempty : entered.Stack [] := trivial
  have hss := hempty.push (by simp) (selector padding_ss c.registers.ss)
  have hesp := hss.push (by simp) c.registers.esp
  have heflags := hesp.push (by simp) c.registers.eflags
  have hsel := heflags.push (by simp) (selector padding_cs c.registers.cs)
  have heip := hsel.push (by simp) c.registers.eip
  unfold Cpu.interrupt
  dsimp only
  rw [if_neg hcs]
  exact heip

theorem registers_interrupt (hcs : c.registers.cs &&& 3 ≠ 0) (handler esp0 : UInt32)
    (padding_ss padding_cs : UInt16)
    : (c.interrupt handler esp0 padding_ss padding_cs).registers
        =
      { c.registers with
        esp := (c.interrupt handler esp0 padding_ss padding_cs).registers.esp
        ss := GDT_KERNEL_DATA_SEGMENT_SELECTOR
        cs := GDT_KERNEL_CODE_SEGMENT_SELECTOR
        eip := handler
        eflags := c.registers.eflags &&& ~~~0x34300 } := by
  unfold Cpu.interrupt Cpu.set Cpu.push
  dsimp only
  rw [if_neg hcs]

theorem stack_call_generic_handler {eip cs eflags esp ss : UInt32}
    (h : c.Pushed r [eip, cs, eflags, esp, ss]) (hds : r.ds &&& 3 ≠ 0)
    (padding : call_generic_handler.Padding) (int_number return_address : UInt32)
    : (call_generic_handler padding return_address
          (no_error_code_interrupt_handler int_number c)).Stack
        [return_address, r.edi, r.esi, r.ebp, esp, r.ebx, r.edx, r.ecx, r.eax,
         selector padding.gs r.gs, selector padding.fs r.fs, selector padding.es r.es,
         selector padding.ds r.ds, int_number, 0, eip, cs, eflags, esp, ss] := by
  have hcode := h.push (by simp) 0
  have hnumber := hcode.push (by simp) int_number
  have hsegments := hnumber.push_segments (by simp) padding
  have hgeneral := hsegments.pushad (by simp)
  have hflags := hgeneral.push_register (by simp) Registers.eflags (fun _ => rfl)
  have heax := hflags.push_register (by simp) Registers.eax (fun _ => rfl)
  have hchecked := call_generic_handler.stack_check_privilege heax.stack (by simp) rfl rfl hds
  have hsetup := call_generic_handler.stack_segment_register_setup hchecked
  exact hsetup.push (by simp) return_address

theorem frame_timer_interrupt (hcs : c.registers.cs &&& 3 ≠ 0) (hds : c.registers.ds &&& 3 ≠ 0)
    (paddings : Paddings) (handler esp0 return_address : UInt32)
    : main_interrupt_handler.frame (timer_interrupt paddings handler esp0 return_address c)
        =
      user_frame paddings c.registers := by
  let entered : Registers :=
    { c.registers with
      ss := GDT_KERNEL_DATA_SEGMENT_SELECTOR
      cs := GDT_KERNEL_CODE_SEGMENT_SELECTOR
      eip := handler
      eflags := c.registers.eflags &&& ~~~0x34300 }
  have hpushed : (c.interrupt handler esp0 paddings.ss paddings.cs).Pushed entered _ :=
    ⟨stack_interrupt hcs handler esp0 paddings.ss paddings.cs,
      registers_interrupt hcs handler esp0 paddings.ss paddings.cs⟩
  have hstack := stack_call_generic_handler hpushed hds paddings.segments 0x20 return_address
  have hholds : Memory32.Holds _ _ ((user_frame paddings c.registers).words ++
      [c.registers.esp, selector paddings.ss c.registers.ss]) := hstack.2
  apply InterruptFrame.read_of_holds hholds

/--
The words that `ecx` points to are on the stack, below what was pushed since.
-/
structure Cpu.Points (c : Cpu) (pushed words : List UInt32) : Prop where
  stack : c.Stack (pushed ++ words)
  base : c.registers.ecx = c.registers.esp + UInt32.ofNat (4 * pushed.length)

namespace Cpu.Points

variable {pushed words : List UInt32}

theorem load (h : c.Points pushed words) (k : Nat) {x : UInt32} (hk : words[k]? = some x)
    : c.load (c.registers.ecx + UInt32.ofNat (4 * k)) = x := by
  have hwords := Memory32.Holds.drop h.stack pushed.length
  rw [List.drop_left, ← h.base] at hwords
  exact hwords.get k hk

theorem push (h : c.Points pushed words) (hlength : (pushed ++ words).length < 100) (x : UInt32)
    : (c.push x).Points (x :: pushed) words where
  stack := h.stack.push hlength x
  base := by
    change c.registers.ecx = c.registers.esp - 4 + UInt32.ofNat (4 * (pushed.length + 1))
    rw [Memory32.word_succ, UInt32.sub_add_cancel, h.base]

theorem push_load (h : c.Points pushed words) (hlength : (pushed ++ words).length < 100) (k : Nat)
    {x : UInt32} (hk : words[k]? = some x)
    : (c.push (c.load (c.registers.ecx + UInt32.ofNat (4 * k)))).Points (x :: pushed) words := by
  rw [h.load k hk]
  exact h.push hlength x

end Cpu.Points

@[simp]
theorem Context.length_words (ctx : Context) : ctx.words.length = 17 := by
  rfl

namespace process_context_switch

theorem stack_foldr_push (words : List UInt32) (hlength : words.length < 100) (c : Cpu)
    : (words.foldr (fun x c => c.push x) c).Stack words := by
  induction words with
  | nil => trivial
  | cons x words ih =>
    rw [List.length_cons] at hlength
    apply (ih (by omega)).push (by omega)

theorem cs_foldr_push (words : List UInt32) (c : Cpu)
    : (words.foldr (fun x c => c.push x) c).registers.cs = c.registers.cs := by
  induction words with
  | nil => rfl
  | cons x words ih => exact ih

theorem cs_call (ctx : Context) (return_address : UInt32) (c : Cpu)
    : (call ctx return_address c).registers.cs = c.registers.cs := by
  change ((List.foldr _ c ctx.words).push return_address).registers.cs = _
  rw [Cpu.push_cs, cs_foldr_push]

theorem points_call (ctx : Context) (return_address : UInt32) (c : Cpu)
    : ((call ctx return_address c).set fun r => { r with ecx := r.esp + 4 }).Points
        [return_address] ctx.words := by
  have hstruct := stack_foldr_push ctx.words (by simp) c
  have hcall : (call ctx return_address c).Stack (return_address :: ctx.words) := by
    unfold call
    apply hstruct.push (by simp)
  generalize call ctx return_address c = k at hcall ⊢
  exact ⟨hcall.set _ fun _ => rfl, rfl⟩

theorem cs_setup_iret_stack (c : Cpu) : (setup_iret_stack c).registers.cs = c.registers.cs := by
  unfold setup_iret_stack
  simp only [Cpu.push_cs]

theorem points_setup_iret_stack {ctx : Context} {return_address : UInt32}
    (h : c.Points [return_address] ctx.words)
    : (setup_iret_stack c).Points
        [ctx.eip, ctx.cs, ctx.eflags, ctx.cpu.esp, ctx.ss, return_address] ctx.words := by
  have hss := h.push_load (by simp) 14 (x := ctx.ss) rfl
  have hesp := hss.push_load (by simp) 3 (x := ctx.cpu.esp) rfl
  have heflags := hesp.push_load (by simp) 12 (x := ctx.eflags) rfl
  have hcs := heflags.push_load (by simp) 15 (x := ctx.cs) rfl
  exact hcs.push_load (by simp) 13 (x := ctx.eip) rfl

def registers (ctx : Context) : Registers where
  edi := ctx.cpu.edi
  esi := ctx.cpu.esi
  ebp := ctx.cpu.ebp
  esp := ctx.cpu.esp
  ebx := ctx.cpu.ebx
  edx := ctx.cpu.edx
  ecx := ctx.cpu.ecx
  eax := ctx.cpu.eax
  eip := ctx.eip
  eflags := ctx.eflags
  cs := ctx.cs.toUInt16
  ss := ctx.ss.toUInt16
  ds := ctx.cpu.ds.toUInt16
  es := ctx.cpu.es.toUInt16
  fs := ctx.cpu.fs.toUInt16
  gs := ctx.cpu.gs.toUInt16

theorem memory_load_registers (c : Cpu) : (load_registers c).memory = c.memory := by
  unfold load_registers
  simp only [Cpu.set_memory]

theorem registers_load_registers {ctx : Context} {pushed : List UInt32}
    (h : c.Points pushed ctx.words)
    : (load_registers c).registers
        =
      { registers ctx with
        esp := c.registers.esp
        eip := c.registers.eip
        eflags := c.registers.eflags
        cs := c.registers.cs
        ss := c.registers.ss } := by
  have hedi : c.load (c.registers.ecx + 0) = ctx.cpu.edi := h.load 0 rfl
  have hesi : c.load (c.registers.ecx + 4) = ctx.cpu.esi := h.load 1 rfl
  have hebp : c.load (c.registers.ecx + 8) = ctx.cpu.ebp := h.load 2 rfl
  have hebx : c.load (c.registers.ecx + 16) = ctx.cpu.ebx := h.load 4 rfl
  have hedx : c.load (c.registers.ecx + 20) = ctx.cpu.edx := h.load 5 rfl
  have hecx : c.load (c.registers.ecx + 24) = ctx.cpu.ecx := h.load 6 rfl
  have heax : c.load (c.registers.ecx + 28) = ctx.cpu.eax := h.load 7 rfl
  have hgs : c.load (c.registers.ecx + 32) = ctx.cpu.gs := h.load 8 rfl
  have hfs : c.load (c.registers.ecx + 36) = ctx.cpu.fs := h.load 9 rfl
  have hes : c.load (c.registers.ecx + 40) = ctx.cpu.es := h.load 10 rfl
  have hds : c.load (c.registers.ecx + 44) = ctx.cpu.ds := h.load 11 rfl
  unfold Cpu.load at *
  unfold load_registers Cpu.set Cpu.load registers
  dsimp only
  rw [hedi, hesi, hebp, hebx, hedx, hecx, heax, hgs, hfs, hes, hds]

theorem registers_iret {eip cs eflags esp ss : UInt32} (h : c.Stack (eip :: cs :: eflags :: esp :: ss :: rest))
    (hkernel : c.registers.cs &&& 3 = 0) (huser : cs.toUInt16 &&& 3 ≠ 0)
    : c.iret.registers
        =
      { c.registers with
        eip := eip
        cs := cs.toUInt16
        eflags := eflags
        esp := esp
        ss := ss.toUInt16 } := by
  have heip : c.load c.registers.esp = eip := h.1
  have hcs : c.load (c.registers.esp + 4) = cs := h.load 1 rfl
  have heflags : c.load (c.registers.esp + 8) = eflags := h.load 2 rfl
  have hesp : c.load (c.registers.esp + 12) = esp := h.load 3 rfl
  have hss : c.load (c.registers.esp + 16) = ss := h.load 4 rfl
  have houter : c.registers.cs &&& 3 < cs.toUInt16 &&& 3 := by
    rw [hkernel]
    apply UInt16.pos_iff_ne_zero.mpr huser
  unfold Cpu.iret
  dsimp only
  rw [hcs, if_pos houter, heip, heflags, hesp, hss]
  rfl

theorem registers_process_context_switch {ctx : Context} (hkernel : c.registers.cs &&& 3 = 0)
    (huser : ctx.cs.toUInt16 &&& 3 ≠ 0) (return_address : UInt32)
    : (process_context_switch (call ctx return_address c)).registers = registers ctx := by
  have hcalled := points_call ctx return_address c
  have hcs := cs_call ctx return_address c
  unfold process_context_switch
  dsimp only
  generalize call ctx return_address c = k at hcalled hcs ⊢
  have hsetup := points_setup_iret_stack hcalled
  have hcs' : (setup_iret_stack (k.set fun r => { r with ecx := r.esp + 4 })).registers.cs
      = k.registers.cs := cs_setup_iret_stack _
  generalize setup_iret_stack _ = setup at hsetup hcs' ⊢
  have hloaded := registers_load_registers hsetup
  have hstack : (load_registers setup).Stack
      (ctx.eip :: ctx.cs :: ctx.eflags :: ctx.cpu.esp :: ctx.ss :: return_address :: ctx.words) := by
    have hesp : (load_registers setup).registers.esp = setup.registers.esp := by
      rw [hloaded]
    unfold Cpu.Stack
    rw [memory_load_registers, hesp]
    exact hsetup.stack
  have hkernel' : (load_registers setup).registers.cs &&& 3 = 0 := by
    have hcs'' : (load_registers setup).registers.cs = setup.registers.cs := by
      rw [hloaded]
    rw [hcs'', hcs', hcs, hkernel]
  rw [registers_iret hstack hkernel' huser, hloaded]
  rfl

end process_context_switch

theorem cr3_use_current (s t : PagingState) (hzero : 0 < s.cr3) (hlow : s.cr3 < 0x40000000)
    : (paging_use_page_directory t (paging_get_current_page_directory_addr s)).cr3 = s.cr3 := by
  have habove : s.cr3 + KERNEL_VIRTUAL_ADDRESS_BASE > KERNEL_VIRTUAL_ADDRESS_BASE := by
    rw [UInt32.lt_iff_toNat_lt] at hzero hlow
    change (KERNEL_VIRTUAL_ADDRESS_BASE : UInt32) < _
    rw [UInt32.lt_iff_toNat_lt, UInt32.toNat_add]
    have hbase : (KERNEL_VIRTUAL_ADDRESS_BASE : UInt32).toNat = 3221225472 := rfl
    have hbound : (0x40000000 : UInt32).toNat = 1073741824 := rfl
    have hnull : (0 : UInt32).toNat = 0 := rfl
    omega
  unfold paging_use_page_directory paging_get_current_page_directory_addr
  rw [if_pos habove]
  apply UInt32.add_sub_cancel

def preemption_transparent.user : Cpu where
  registers :=
    { edi := 1, esi := 2, ebp := 3, esp := 0xBFFFFF00, ebx := 4, edx := 5, ecx := 6, eax := 7,
      eip := 0x1234, eflags := 0x246, cs := 0x1B, ss := 0x23, ds := 0x23, es := 0x23, fs := 0,
      gs := 0x23 }
  memory _ := 0

def preemption_transparent.kernel : Cpu where
  registers :=
    { edi := 8, esi := 9, ebp := 10, esp := 0xC0300000, ebx := 11, edx := 12, ecx := 13, eax := 14,
      eip := 0xC0101000, eflags := 2, cs := 0x8, ss := 0x10, ds := 0x10, es := 0x10, fs := 0x10,
      gs := 0x10 }
  memory _ := 0xFF

end AiOS
