import Mathlib

/-!
This module contains the two interrupt controllers of a PC, and what `interrupt.c` and `scheduler.c`
do with them.
-/

namespace AiOS

abbrev PIC1_OFFSET : UInt8 := 0x20
abbrev PIC2_OFFSET : UInt8 := 0x28

abbrev PIC1_COMMAND : UInt16 := 0x20
abbrev PIC1_DATA : UInt16 := 0x21
abbrev PIC2_COMMAND : UInt16 := 0xA0
abbrev PIC2_DATA : UInt16 := 0xA1

abbrev PIC_ACK : UInt8 := 0x20
abbrev PIC_DISABLE_ALL_MASK : UInt8 := 0xFF

abbrev ICW1_ICW4 : UInt8 := 0x01
abbrev ICW1_SINGLE : UInt8 := 0x02
abbrev ICW1_INIT : UInt8 := 0x10
abbrev ICW4_8086 : UInt8 := 0x01
abbrev ICW4_AUTO : UInt8 := 0x02

abbrev IRQ_TIMER : UInt8 := 0
abbrev IRQ_KEYBOARD : UInt8 := 1

inductive Pic.Stage where
  | icw2
  | icw3
  | icw4
  | ready
  deriving DecidableEq

/--
An 8259A: the requests on its lines, the masks, the requests that the CPU serves, and the words that
it was initialized with.
-/
structure Pic where
  irr : Fin 8 → Bool
  imr : UInt8
  isr : Fin 8 → Bool
  stage : Pic.Stage
  icw1 : UInt8
  icw2 : UInt8
  icw3 : UInt8
  icw4 : UInt8

namespace Pic

def masked (p : Pic) (i : Fin 8) : Bool :=
  p.imr.toNat.testBit i

-- line 0 comes first, and a line in service holds back all that come after it
def request (p : Pic) : Option (Fin 8) :=
  Fin.find? fun i => p.irr i && !p.masked i && decide (∀ j ≤ i, p.isr j = false)

def take (p : Pic) (i : Fin 8) : Pic :=
  { p with
    irr := Function.update p.irr i false
    isr := if p.icw4 &&& ICW4_AUTO = 0 then Function.update p.isr i true else p.isr }

def vector (p : Pic) (i : Fin 8) : UInt8 :=
  (p.icw2 &&& 0xF8) + UInt8.ofNat i

def end_of_interrupt (p : Pic) : Pic :=
  match Fin.find? fun i => p.isr i with
  | some i => { p with isr := Function.update p.isr i false }
  | none => p

/--
A write to the command port. Of the commands other than ICW1 the kernel sends only the unspecific end
of interrupt, the others are left out.
-/
def command (p : Pic) (value : UInt8) : Pic :=
  if value &&& ICW1_INIT ≠ 0 then
    { p with
      irr := fun _ => false
      imr := 0
      isr := fun _ => false
      stage := .icw2
      icw1 := value
      icw4 := 0 }
  else if value = PIC_ACK then
    p.end_of_interrupt
  else
    p

def data (p : Pic) (value : UInt8) : Pic :=
  let last : Stage := if p.icw1 &&& ICW1_ICW4 ≠ 0 then .icw4 else .ready
  match p.stage with
  | .icw2 =>
    { p with icw2 := value, stage := if p.icw1 &&& ICW1_SINGLE ≠ 0 then last else .icw3 }
  | .icw3 => { p with icw3 := value, stage := last }
  | .icw4 => { p with icw4 := value, stage := .ready }
  | .ready => { p with imr := value }

end Pic

structure Pics where
  pic1 : Pic
  pic2 : Pic

namespace Pics

def out (p : Pics) (port : UInt16) (value : UInt8) : Pics :=
  if port = PIC1_COMMAND then { p with pic1 := p.pic1.command value }
  else if port = PIC1_DATA then { p with pic1 := p.pic1.data value }
  else if port = PIC2_COMMAND then { p with pic2 := p.pic2.command value }
  else if port = PIC2_DATA then { p with pic2 := p.pic2.data value }
  else p

def in_data (p : Pics) : UInt8 :=
  p.pic1.imr

def line (p : Pics) (irq : Fin 16) (level : Bool) : Pics :=
  if h : irq.val < 8 then
    { p with pic1 := { p.pic1 with irr := Function.update p.pic1.irr ⟨irq, h⟩ level } }
  else
    { p with
      pic2 := { p.pic2 with irr := Function.update p.pic2.irr ⟨irq - 8, by omega⟩ level } }

-- the second controller is wired to line 2 of the first one
def request (p : Pics) : Option (Fin 8) :=
  { p.pic1 with irr := Function.update p.pic1.irr 2 p.pic2.request.isSome }.request

/--
The CPU acknowledges an interrupt and gets its vector. A request that was withdrawn in the meantime
leaves it with the vector of line 7, which is not in service then.
-/
def acknowledge (p : Pics) : UInt8 × Pics :=
  match p.request with
  | none => (p.pic1.vector 7, p)
  | some i =>
    let pic1 := p.pic1.take i
    if p.pic1.icw3.toNat.testBit i then
      match p.pic2.request with
      | none => (p.pic2.vector 7, { p with pic1 := pic1 })
      | some j => (p.pic2.vector j, ⟨pic1, p.pic2.take j⟩)
    else
      (p.pic1.vector i, { p with pic1 := pic1 })

end Pics

def io_wait (p : Pics) : Pics :=
  p.out 0x80 0

def pic_ack (irq : UInt8) (p : Pics) : Pics :=
  let p := if irq ≥ 8 then p.out PIC2_COMMAND PIC_ACK else p
  p.out PIC1_COMMAND PIC_ACK

def pic_remap (p : Pics) : Pics :=
  let p := io_wait (p.out PIC1_COMMAND (ICW1_INIT ||| ICW1_ICW4))
  let p := io_wait (p.out PIC2_COMMAND (ICW1_INIT ||| ICW1_ICW4))
  let p := io_wait (p.out PIC1_DATA PIC1_OFFSET)
  let p := io_wait (p.out PIC2_DATA PIC2_OFFSET)
  let p := io_wait (p.out PIC1_DATA 0b0100)
  let p := io_wait (p.out PIC2_DATA 0b0010)
  let p := io_wait (p.out PIC1_DATA ICW4_8086)
  let p := io_wait (p.out PIC2_DATA ICW4_8086)
  let p := p.out PIC1_DATA PIC_DISABLE_ALL_MASK
  p.out PIC2_DATA PIC_DISABLE_ALL_MASK

def activate_keyboard_interrupt (p : Pics) : Pics :=
  p.out PIC1_DATA (p.in_data &&& ~~~(1 <<< IRQ_KEYBOARD))

def activate_timer_interrupt (p : Pics) : Pics :=
  p.out PIC1_DATA (p.in_data &&& ~~~(1 <<< IRQ_TIMER))

namespace Pic

variable {p : Pic} (value : UInt8)

theorem command_init (p : Pic)
    : p.command (ICW1_INIT ||| ICW1_ICW4)
        =
      { p with
        irr := fun _ => false
        imr := 0
        isr := fun _ => false
        stage := .icw2
        icw1 := ICW1_INIT ||| ICW1_ICW4
        icw4 := 0 } := by
  unfold command
  exact if_pos (by decide)

theorem data_icw2 (hstage : p.stage = .icw2) (hsingle : p.icw1 &&& ICW1_SINGLE = 0)
    : p.data value = { p with icw2 := value, stage := .icw3 } := by
  unfold data
  rw [hstage]
  dsimp only
  rw [if_neg (by rw [hsingle]; decide)]

theorem data_icw3 (hstage : p.stage = .icw3) (hicw4 : p.icw1 &&& ICW1_ICW4 ≠ 0)
    : p.data value = { p with icw3 := value, stage := .icw4 } := by
  unfold data
  rw [hstage]
  dsimp only
  rw [if_pos hicw4]

theorem data_icw4 (hstage : p.stage = .icw4)
    : p.data value = { p with icw4 := value, stage := .ready } := by
  unfold data
  rw [hstage]

theorem data_ready (hstage : p.stage = .ready)
    : p.data value = { p with imr := value } := by
  unfold data
  rw [hstage]

theorem initialized (p : Pic) (offset cascade mask : UInt8)
    : ((((p.command (ICW1_INIT ||| ICW1_ICW4)).data offset).data cascade).data ICW4_8086).data mask
        =
      { irr := fun _ => false
        imr := mask
        isr := fun _ => false
        stage := .ready
        icw1 := ICW1_INIT ||| ICW1_ICW4
        icw2 := offset
        icw3 := cascade
        icw4 := ICW4_8086 } := by
  have hsingle : (ICW1_INIT ||| ICW1_ICW4) &&& ICW1_SINGLE = 0 := by decide
  have hicw4 : (ICW1_INIT ||| ICW1_ICW4) &&& ICW1_ICW4 ≠ 0 := by decide
  rw [command_init]
  rw [data_icw2 offset rfl hsingle]
  rw [data_icw3 cascade rfl hicw4]
  rw [data_icw4 ICW4_8086 rfl]
  rw [data_ready mask rfl]

end Pic

namespace Pics

/--
The controllers have been initialized for the kernel, with `imr` as the mask of the first one, and
the second one has nothing in service.
-/
structure Remapped (imr : UInt8) (p : Pics) : Prop where
  stage : p.pic1.stage = .ready
  icw2 : p.pic1.icw2 = PIC1_OFFSET
  icw3 : p.pic1.icw3 = 0b0100
  icw4 : p.pic1.icw4 = ICW4_8086
  imr : p.pic1.imr = imr
  masked : p.pic2.imr = PIC_DISABLE_ALL_MASK
  isr : p.pic2.isr = fun _ => false

@[simp]
theorem out_pic1_command (p : Pics) (value : UInt8)
    : p.out PIC1_COMMAND value = { p with pic1 := p.pic1.command value } := by
  rfl

@[simp]
theorem out_pic1_data (p : Pics) (value : UInt8)
    : p.out PIC1_DATA value = { p with pic1 := p.pic1.data value } := by
  rfl

@[simp]
theorem out_pic2_command (p : Pics) (value : UInt8)
    : p.out PIC2_COMMAND value = { p with pic2 := p.pic2.command value } := by
  rfl

@[simp]
theorem out_pic2_data (p : Pics) (value : UInt8)
    : p.out PIC2_DATA value = { p with pic2 := p.pic2.data value } := by
  rfl

@[simp]
theorem io_wait_eq (p : Pics) : io_wait p = p := by
  rfl

theorem remapped_pic_remap (p : Pics)
    : (pic_remap p).Remapped 0xFF ∧ (pic_remap p).pic1.isr = fun _ => false := by
  unfold pic_remap
  simp only [out_pic1_command, out_pic1_data, out_pic2_command, out_pic2_data, io_wait_eq]
  rw [Pic.initialized, Pic.initialized]
  exact ⟨⟨rfl, rfl, rfl, rfl, rfl, rfl, rfl⟩, rfl⟩

variable {p : Pics} {imr : UInt8}

def Masks (imr : UInt8) : Prop :=
  ∀ i : Fin 8, 2 ≤ i.val → imr.toNat.testBit i = true

theorem request_eq_some (h : p.Remapped imr) (hmasks : Masks imr) {i : Fin 8}
    (hrequest : p.request = some i)
    : i.val < 2 ∧ p.pic1.irr i = true ∧ imr.toNat.testBit i = false ∧
        ∀ j < i, p.pic1.irr j = true → imr.toNat.testBit j = true := by
  unfold request Pic.request Pic.masked at hrequest
  rw [Fin.find?_eq_some_iff] at hrequest
  dsimp only at hrequest
  rw [h.imr] at hrequest
  rcases hrequest with ⟨hi, hbefore⟩
  rw [Bool.and_eq_true, Bool.and_eq_true, decide_eq_true_iff] at hi
  rcases hi with ⟨⟨hirr, hopen⟩, hidle⟩
  have hopen' : imr.toNat.testBit i = false := by
    rw [Bool.not_eq_true'] at hopen
    exact hopen
  have hlt : i.val < 2 := by
    by_contra hge
    rw [hmasks i (by omega)] at hopen'
    contradiction
  have hne : ∀ j : Fin 8, j.val < 2 → j ≠ 2 := by
    intro j hj heq
    rw [heq] at hj
    exact absurd hj (by decide)
  rw [Function.update_of_ne (hne i hlt)] at hirr
  refine ⟨hlt, hirr, hopen', ?_⟩
  intro j hj hjirr
  have hj' := hbefore j hj
  rw [Function.update_of_ne (hne j (by omega)), hjirr] at hj'
  have hjidle : ∀ k ≤ j, p.pic1.isr k = false :=
    fun k hk => hidle k (Fin.le_trans hk (Fin.le_of_lt hj))
  rw [decide_eq_true hjidle, Bool.true_and, Bool.and_true, Bool.not_eq_false'] at hj'
  exact hj'

theorem request_eq_none (h : p.Remapped imr) (hisr : p.pic1.isr = fun _ => false)
    (hrequest : p.request = none) {i : Fin 8} (hlt : i.val < 2) (hirr : p.pic1.irr i = true)
    : imr.toNat.testBit i = true := by
  unfold request Pic.request Pic.masked at hrequest
  rw [Fin.find?_eq_none_iff] at hrequest
  have hi := hrequest i
  dsimp only at hi
  have hne : i ≠ 2 := by
    intro heq
    rw [heq] at hlt
    exact absurd hlt (by decide)
  have hidle : ∀ j ≤ i, p.pic1.isr j = false := fun j _ => congrFun hisr j
  rw [h.imr, Function.update_of_ne hne, hirr, decide_eq_true hidle, Bool.true_and, Bool.and_true,
    Bool.not_eq_false'] at hi
  exact hi

theorem acknowledge_cases (h : p.Remapped imr) (hmasks : Masks imr)
    (hisr : p.pic1.isr = fun _ => false)
    : (∃ i : Fin 8, i.val < 2 ∧ p.pic1.irr i = true ∧ imr.toNat.testBit i = false ∧
          (∀ j < i, p.pic1.irr j = true → imr.toNat.testBit j = true) ∧
          p.acknowledge = (PIC1_OFFSET + UInt8.ofNat i, { p with pic1 := p.pic1.take i })) ∨
        (∀ i : Fin 8, i.val < 2 → p.pic1.irr i = true → imr.toNat.testBit i = true) ∧
          p.acknowledge = (0x27, p) := by
  unfold acknowledge
  cases hrequest : p.request with
  | none =>
    apply Or.inr
    refine ⟨fun i hlt hirr => request_eq_none h hisr hrequest hlt hirr, ?_⟩
    dsimp only
    unfold Pic.vector
    rw [h.icw2]
    rfl
  | some i =>
    rcases request_eq_some h hmasks hrequest with ⟨hlt, hirr, hopen, hbefore⟩
    apply Or.inl
    refine ⟨i, hlt, hirr, hopen, hbefore, ?_⟩
    have hwire : ¬ p.pic1.icw3.toNat.testBit i = true := by
      rw [h.icw3]
      have hcases : i = 0 ∨ i = 1 := by omega
      rcases hcases with rfl | rfl
      . decide
      . decide
    dsimp only
    rw [if_neg hwire]
    unfold Pic.vector
    rw [h.icw2]
    rfl

theorem Remapped.take (h : p.Remapped imr) (i : Fin 8)
    : Remapped imr { p with pic1 := p.pic1.take i } :=
  ⟨h.stage, h.icw2, h.icw3, h.icw4, h.imr, h.masked, h.isr⟩

theorem Remapped.isr_take (h : p.Remapped imr) (i : Fin 8)
    : (p.pic1.take i).isr = Function.update p.pic1.isr i true := by
  unfold Pic.take
  dsimp only
  rw [h.icw4, if_pos (by decide)]

theorem Remapped.line (h : p.Remapped imr) (irq : Fin 16) (level : Bool)
    : (p.line irq level).Remapped imr ∧ (p.line irq level).pic1.isr = p.pic1.isr := by
  unfold Pics.line
  split
  . exact ⟨⟨h.stage, h.icw2, h.icw3, h.icw4, h.imr, h.masked, h.isr⟩, rfl⟩
  . exact ⟨⟨h.stage, h.icw2, h.icw3, h.icw4, h.imr, h.masked, h.isr⟩, rfl⟩

theorem irr_line (p : Pics) (irq : Fin 16) (level : Bool) (i : Fin 8)
    : (p.line irq level).pic1.irr i = if irq.val = i.val then level else p.pic1.irr i := by
  unfold line
  split
  . next h =>
    dsimp only
    rw [Function.update_apply]
    have hiff : i = ⟨irq.val, h⟩ ↔ irq.val = i.val := by
      rw [Fin.ext_iff]
      exact eq_comm
    simp only [hiff]
  . next h =>
    rw [if_neg (by omega)]

theorem Remapped.write_mask (h : p.Remapped imr) (mask : UInt8)
    : (p.out PIC1_DATA mask) = { p with pic1 := { p.pic1 with imr := mask } } := by
  rw [out_pic1_data, Pic.data_ready mask h.stage]

theorem Remapped.mask (h : p.Remapped imr) (mask : UInt8)
    : Remapped mask { p with pic1 := { p.pic1 with imr := mask } } :=
  ⟨h.stage, h.icw2, h.icw3, h.icw4, rfl, h.masked, h.isr⟩

theorem Remapped.pic_ack_eq (h : p.Remapped imr) {irq : UInt8} (hirq : irq ≥ 8)
    : pic_ack irq p = { p with pic1 := p.pic1.end_of_interrupt } := by
  have hidle : p.pic2.end_of_interrupt = p.pic2 := by
    unfold Pic.end_of_interrupt
    rw [h.isr]
    rfl
  have hack : ∀ q : Pic, q.command PIC_ACK = q.end_of_interrupt := fun _ => rfl
  unfold pic_ack
  dsimp only
  rw [if_pos hirq, out_pic2_command, out_pic1_command, hack, hack, hidle]

end Pics

theorem Pic.end_of_interrupt_of_idle {p : Pic} (h : p.isr = fun _ => false)
    : p.end_of_interrupt = p := by
  unfold end_of_interrupt
  rw [h]
  rfl

theorem Pic.end_of_interrupt_of_single {p : Pic} {i : Fin 8}
    (h : p.isr = Function.update (fun _ => false) i true)
    : p.end_of_interrupt = { p with isr := fun _ => false } := by
  have hfind : Fin.find? (fun j => p.isr j) = some i := by
    rw [Fin.find?_eq_some_iff]
    refine ⟨?_, ?_⟩
    . rw [h, Function.update_self]
    . intro j hj
      rw [h, Function.update_of_ne (Fin.ne_of_lt hj)]
  unfold end_of_interrupt
  rw [hfind]
  dsimp only
  rw [h, Function.update_idem, Function.update_eq_self_iff.mpr rfl]

end AiOS
