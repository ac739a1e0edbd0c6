import AiOS.Lib.Fields
import AiOS.Cpu.Basic
import AiOS.Memory.Basic

/-!
This module contains `gdt.c` and `idt.c`, the TSS, and how the CPU goes through these tables when it
takes an interrupt.
-/

namespace AiOS

structure SegmentDescriptor where
  segment_low : UInt16
  base_low : UInt16
  base_mid : UInt8
  type_bit : BitVec 4
  non_system : BitVec 1
  privilege : BitVec 2
  valid_bit : BitVec 1
  segment_high : BitVec 4
  available : BitVec 1
  long_mode : BitVec 1
  opr_32_bit : BitVec 1
  granularity : BitVec 1
  base_high : UInt8

def SegmentDescriptor.fields (d : SegmentDescriptor) : List Fields.Field :=
  [⟨16, d.segment_low.toBitVec⟩, ⟨16, d.base_low.toBitVec⟩, ⟨8, d.base_mid.toBitVec⟩,
   ⟨4, d.type_bit⟩, ⟨1, d.non_system⟩, ⟨2, d.privilege⟩, ⟨1, d.valid_bit⟩, ⟨4, d.segment_high⟩,
   ⟨1, d.available⟩, ⟨1, d.long_mode⟩, ⟨1, d.opr_32_bit⟩, ⟨1, d.granularity⟩,
   ⟨8, d.base_high.toBitVec⟩]

def SegmentDescriptor.null : SegmentDescriptor where
  segment_low := 0
  base_low := 0
  base_mid := 0
  type_bit := 0
  non_system := 0
  privilege := 0
  valid_bit := 0
  segment_high := 0
  available := 0
  long_mode := 0
  opr_32_bit := 0
  granularity := 0
  base_high := 0

def SegmentDescriptor.flat (type_bit : BitVec 4) (privilege : BitVec 2) : SegmentDescriptor :=
  { SegmentDescriptor.null with
    segment_low := 0xFFFF
    type_bit := type_bit
    non_system := 1
    privilege := privilege
    valid_bit := 1
    segment_high := 0xF
    opr_32_bit := 1
    granularity := 1 }

/--
Task state segment, up to the fields that the kernel uses.
-/
structure TSSEntry where
  prev_tss : UInt32
  esp0 : UInt32
  ss0 : UInt32

def TSSEntry.words (tss : TSSEntry) : List UInt32 :=
  [tss.prev_tss, tss.esp0, tss.ss0]

abbrev sizeof_TSSEntry : UInt32 := 104

def _interrupt_tss_entry : TSSEntry where
  prev_tss := 0
  esp0 := 0
  ss0 := GDT_KERNEL_DATA_SEGMENT_SELECTOR.toUInt32

-- `ebp` is the base pointer of the function itself
def set_tss_kernel_current_stack (ebp : UInt32) (tss : TSSEntry) : TSSEntry :=
  { tss with esp0 := ebp + 8 }

def SegmentDescriptor.tss : SegmentDescriptor :=
  { SegmentDescriptor.null with
    segment_high := ((sizeof_TSSEntry &&& ((0xF : UInt32) <<< 16)) >>> 16).toBitVec.setWidth 4
    segment_low := sizeof_TSSEntry.toUInt16
    type_bit := 0x9
    valid_bit := 1
    opr_32_bit := 1 }

def global_descriptor_table (i : Fin 32) : SegmentDescriptor :=
  [.null, .flat 0xA 0, .flat 0x2 0, .flat 0xA 0x3, .flat 0x2 0x3, .tss].getD i .null

def gdt_install_tss (base : UInt32) (table : Fin 32 → SegmentDescriptor)
    : Fin 32 → SegmentDescriptor :=
  Function.update table 5
    { table 5 with
      base_high := ((base &&& ((0xFF : UInt32) <<< 24)) >>> 24).toUInt8
      base_mid := ((base &&& ((0xFF : UInt32) <<< 16)) >>> 16).toUInt8
      base_low := (base &&& 0xFFFF).toUInt16 }

structure IDTGate where
  offset_low : UInt16
  segment : UInt16
  _reserved : BitVec 5
  _r_bit_1 : BitVec 3
  _r_bit_2 : BitVec 3
  gate_32 : BitVec 1
  _r_bit_3 : BitVec 1
  desc_priv_lvl : BitVec 2
  present : BitVec 1
  offset_high : UInt16

def IDTGate.fields (g : IDTGate) : List Fields.Field :=
  [⟨16, g.offset_low.toBitVec⟩, ⟨16, g.segment.toBitVec⟩, ⟨5, g._reserved⟩, ⟨3, g._r_bit_1⟩,
   ⟨3, g._r_bit_2⟩, ⟨1, g.gate_32⟩, ⟨1, g._r_bit_3⟩, ⟨2, g.desc_priv_lvl⟩, ⟨1, g.present⟩,
   ⟨16, g.offset_high.toBitVec⟩]

def IDTGate.zero : IDTGate where
  offset_low := 0
  segment := 0
  _reserved := 0
  _r_bit_1 := 0
  _r_bit_2 := 0
  gate_32 := 0
  _r_bit_3 := 0
  desc_priv_lvl := 0
  present := 0
  offset_high := 0

abbrev ISR_STUB_TABLE_LIMIT : Nat := 64

def set_interrupt_gate (int_vector : UInt8) (handler_address : UInt32) (gdt_seg_selector : UInt16)
    (privilege : UInt8) (table : UInt8 → IDTGate) : UInt8 → IDTGate :=
  Function.update table int_vector
    { table int_vector with
      offset_low := (handler_address &&& 0xFFFF).toUInt16
      offset_high := (handler_address >>> 16).toUInt16
      desc_priv_lvl := privilege.toBitVec.setWidth 2
      segment := gdt_seg_selector
      _r_bit_1 := 0b000
      _r_bit_2 := 0b110
      _r_bit_3 := 0b0
      gate_32 := 1
      present := 1 }

-- `isr_stub_table` are the addresses of the stubs. Loading the table and `sti` are left to the CPU.
def initialize_idt (isr_stub_table : Nat → UInt32) (table : UInt8 → IDTGate) : UInt8 → IDTGate :=
  (List.range ISR_STUB_TABLE_LIMIT).foldl
    (fun table i =>
      let priv := if i = 0x30 then 0x3 else 0
      set_interrupt_gate (UInt8.ofNat i) (isr_stub_table i) GDT_KERNEL_CODE_SEGMENT_SELECTOR priv
        table)
    table

structure Segment where
  base : UInt32
  limit : Nat
  type : Nat
  system : Bool
  dpl : Nat
  present : Bool
  deriving DecidableEq

def Segment.decode (n : Nat) : Segment where
  base := UInt32.ofNat (Fields.extract n 16 16 + 2 ^ 16 * Fields.extract n 32 8
    + 2 ^ 24 * Fields.extract n 56 8)
  limit :=
    let limit := Fields.extract n 0 16 + 2 ^ 16 * Fields.extract n 48 4
    if Fields.extract n 55 1 = 1 then 4096 * limit + 4095 else limit
  type := Fields.extract n 40 4
  system := Fields.extract n 44 1 = 0
  dpl := Fields.extract n 45 2
  present := Fields.extract n 47 1 = 1

structure Gate where
  offset : UInt32
  selector : UInt16
  type : Nat
  dpl : Nat
  present : Bool
  deriving DecidableEq

def Gate.decode (n : Nat) : Gate where
  offset := UInt32.ofNat (Fields.extract n 0 16 + 2 ^ 16 * Fields.extract n 48 16)
  selector := UInt16.ofNat (Fields.extract n 16 16)
  type := Fields.extract n 40 5
  dpl := Fields.extract n 45 2
  present := Fields.extract n 47 1 = 1

-- the CPU notes in the table which segments have been loaded, and that the TSS is in use
def Cpu.note_loaded (accessed : Fin 32 → Bool) (table : Fin 32 → SegmentDescriptor)
    : Fin 32 → SegmentDescriptor :=
  fun i =>
    if i = 5 then
      { table i with type_bit := (table i).type_bit ||| 0b0010 }
    else if accessed i then
      { table i with type_bit := (table i).type_bit ||| 0b0001 }
    else
      table i

structure TableRegister where
  size : UInt16
  address : UInt32

abbrev IDT_MAX_ENTRY_COUNT : Nat := 256

abbrev GDT_MAX_ENTRY_COUNT : Nat := 32

def _idt_idtr (interrupt_descriptor_table : UInt32) : TableRegister where
  size := UInt16.ofNat (8 * IDT_MAX_ENTRY_COUNT)
  address := interrupt_descriptor_table

def _gdt_gdtr (global_descriptor_table : UInt32) : TableRegister where
  size := UInt16.ofNat (8 * GDT_MAX_ENTRY_COUNT - 1)
  address := global_descriptor_table

abbrev GDT_TSS_SELECTOR : UInt16 := 0x28

def descriptor_words (descriptors : List Nat) : List UInt32 :=
  descriptors.flatMap fun n => [UInt32.ofNat n, UInt32.ofNat (n / 2 ^ 32)]

def gdt_words (table : Fin 32 → SegmentDescriptor) : List UInt32 :=
  descriptor_words (List.ofFn fun i => Fields.pack (table i).fields)

def idt_words (table : UInt8 → IDTGate) : List UInt32 :=
  descriptor_words (List.ofFn fun i : Fin 256 => Fields.pack (table (UInt8.ofNat i)).fields)

namespace TableRegister

def descriptor (r : TableRegister) (m : Memory32) (index : Nat) : Nat :=
  (m.load (r.address + UInt32.ofNat (4 * (2 * index)))).toNat
    + 2 ^ 32 * (m.load (r.address + UInt32.ofNat (4 * (2 * index + 1)))).toNat

def segment (r : TableRegister) (m : Memory32) (selector : UInt16) : Option Segment := do
  guard (selector ||| 7 ≤ r.size)
  return Segment.decode (r.descriptor m (selector.toNat / 8))

def gate (r : TableRegister) (m : Memory32) (vector : UInt8) : Option Gate := do
  guard (8 * vector.toNat + 7 ≤ r.size.toNat)
  return Gate.decode (r.descriptor m vector.toNat)

end TableRegister

/--
Where the CPU goes for an interrupt, and to which stack if it leaves its privilege level.
-/
structure Entry where
  handler : UInt32
  cs : UInt16
  stack : Option (UInt16 × UInt32)
  deriving DecidableEq

def TableRegister.stack (gdtr : TableRegister) (m : Memory32) (tr : UInt16) (dpl : Nat)
    : Option (UInt16 × UInt32) := do
  let tss ← gdtr.segment m tr
  guard (8 * dpl + 9 ≤ tss.limit)
  let esp := m.load (tss.base + UInt32.ofNat (8 * dpl + 4))
  let ss := (m.load (tss.base + UInt32.ofNat (8 * dpl + 8))).toUInt16
  let data ← gdtr.segment m ss
  guard (data.present ∧ ¬ data.system ∧ (data.type = 2 ∨ data.type = 3) ∧ data.dpl = dpl)
  return (ss, data.base + esp)

/--
The interrupt `vector` at the privilege level `cpl`, from the outside or by the instruction `int`.
The other kinds of gates do not occur. Without an entry the CPU raises an exception instead.
-/
def Cpu.deliver (m : Memory32) (idtr gdtr : TableRegister) (tr : UInt16) (cpl : Nat)
    (software : Bool) (vector : UInt8) : Option Entry := do
  let gate ← idtr.gate m vector
  guard (gate.type = 0xE)
  guard (software → cpl ≤ gate.dpl)
  guard gate.present
  let code ← gdtr.segment m gate.selector
  guard (code.present ∧ ¬ code.system ∧ (code.type = 0xA ∨ code.type = 0xB) ∧ code.dpl ≤ cpl)
  let stack ← if code.dpl = cpl then pure none else (gdtr.stack m tr code.dpl).map some
  return {
    handler := code.base + gate.offset
    cs := UInt16.ofNat (gate.selector.toNat / 8 * 8 + code.dpl)
    stack := stack }

end AiOS
