import AiOS.Cpu.Descriptor

/-!
This module proves where the CPU goes for every vector, with the tables that the kernel has set up.
-/

namespace AiOS

namespace IDTGate

variable (g : IDTGate)

theorem decode_fields
    : Gate.decode (Fields.pack g.fields)
        =
      { offset := UInt32.ofNat (g.offset_low.toNat + 2 ^ 16 * g.offset_high.toNat)
        selector := g.segment
        type := g._r_bit_2.toNat + 2 ^ 3 * (g.gate_32.toNat + 2 ^ 1 * g._r_bit_3.toNat)
        dpl := g.desc_priv_lvl.toNat
        present := g.present.toNat = 1 } := by
  let f := g.fields
  have hlow : Fields.extract (Fields.pack g.fields) 0 16 = g.offset_low.toNat :=
    Fields.extract_pack [] _ _
  have hsegment : Fields.extract (Fields.pack g.fields) 16 16 = g.segment.toNat :=
    Fields.extract_pack (f.take 1) _ _
  have hkind : Fields.extract (Fields.pack g.fields) 40 3 = g._r_bit_2.toNat :=
    Fields.extract_pack (f.take 4) _ _
  have hgate : Fields.extract (Fields.pack g.fields) 43 1 = g.gate_32.toNat :=
    Fields.extract_pack (f.take 5) _ _
  have hsystem : Fields.extract (Fields.pack g.fields) 44 1 = g._r_bit_3.toNat :=
    Fields.extract_pack (f.take 6) _ _
  have hdpl : Fields.extract (Fields.pack g.fields) 45 2 = g.desc_priv_lvl.toNat :=
    Fields.extract_pack (f.take 7) _ _
  have hpresent : Fields.extract (Fields.pack g.fields) 47 1 = g.present.toNat :=
    Fields.extract_pack (f.take 8) _ _
  have hhigh : Fields.extract (Fields.pack g.fields) 48 16 = g.offset_high.toNat :=
    Fields.extract_pack (f.take 9) _ _
  have htype := Fields.extract_add (Fields.pack g.fields) 40 3 2
  have htwo := Fields.extract_add (Fields.pack g.fields) 43 1 1
  unfold Gate.decode
  rw [htype, htwo, hlow, hsegment, hkind, hgate, hsystem, hdpl, hpresent, hhigh,
    UInt16.ofNat_toNat]

end IDTGate

namespace SegmentDescriptor

variable (d : SegmentDescriptor)

theorem decode_fields
    : Segment.decode (Fields.pack d.fields)
        =
      { base := UInt32.ofNat (d.base_low.toNat + 2 ^ 16 * d.base_mid.toNat
          + 2 ^ 24 * d.base_high.toNat)
        limit :=
          let limit := d.segment_low.toNat + 2 ^ 16 * d.segment_high.toNat
          if d.granularity.toNat = 1 then 4096 * limit + 4095 else limit
        type := d.type_bit.toNat
        system := d.non_system.toNat = 0
        dpl := d.privilege.toNat
        present := d.valid_bit.toNat = 1 } := by
  let f := d.fields
  have hlow : Fields.extract (Fields.pack d.fields) 0 16 = d.segment_low.toNat :=
    Fields.extract_pack [] _ _
  have hbase_low : Fields.extract (Fields.pack d.fields) 16 16 = d.base_low.toNat :=
    Fields.extract_pack (f.take 1) _ _
  have hbase_mid : Fields.extract (Fields.pack d.fields) 32 8 = d.base_mid.toNat :=
    Fields.extract_pack (f.take 2) _ _
  have htype : Fields.extract (Fields.pack d.fields) 40 4 = d.type_bit.toNat :=
    Fields.extract_pack (f.take 3) _ _
  have hsystem : Fields.extract (Fields.pack d.fields) 44 1 = d.non_system.toNat :=
    Fields.extract_pack (f.take 4) _ _
  have hdpl : Fields.extract (Fields.pack d.fields) 45 2 = d.privilege.toNat :=
    Fields.extract_pack (f.take 5) _ _
  have hpresent : Fields.extract (Fields.pack d.fields) 47 1 = d.valid_bit.toNat :=
    Fields.extract_pack (f.take 6) _ _
  have hhigh : Fields.extract (Fields.pack d.fields) 48 4 = d.segment_high.toNat :=
    Fields.extract_pack (f.take 7) _ _
  have hgranularity : Fields.extract (Fields.pack d.fields) 55 1 = d.granularity.toNat :=
    Fields.extract_pack (f.take 11) _ _
  have hbase_high : Fields.extract (Fields.pack d.fields) 56 8 = d.base_high.toNat :=
    Fields.extract_pack (f.take 12) _ _
  unfold Segment.decode
  rw [hlow, hbase_low, hbase_mid, htype, hsystem, hdpl, hpresent, hhigh, hgranularity, hbase_high]

end SegmentDescriptor

theorem toUInt32_halves (a : UInt32)
    : UInt32.ofNat ((a &&& 0xFFFF).toUInt16.toNat + 2 ^ 16 * (a >>> 16).toUInt16.toNat) = a := by
  have hmask : ∀ n : Nat, n &&& 65535 = n % 2 ^ 16 := fun n => Nat.and_two_pow_sub_one_eq_mod n 16
  have hshift : (a >>> 16).toNat = a.toNat / 2 ^ 16 := by
    rw [UInt32.toNat_shiftRight]
    exact Nat.shiftRight_eq_div_pow _ _
  have := a.toNat_lt
  apply UInt32.toNat_inj.mp
  rw [UInt32.toNat_ofNat', UInt32.toNat_toUInt16, UInt32.toNat_toUInt16, hshift, UInt32.toNat_and]
  change ((a.toNat &&& 65535) % 2 ^ 16 + 2 ^ 16 * (a.toNat / 2 ^ 16 % 2 ^ 16)) % 2 ^ 32 = _
  rw [hmask]
  omega

theorem toUInt32_parts (a : UInt32)
    : UInt32.ofNat ((a &&& 0xFFFF).toUInt16.toNat
        + 2 ^ 16 * ((a &&& ((0xFF : UInt32) <<< 16)) >>> 16).toUInt8.toNat
        + 2 ^ 24 * ((a &&& ((0xFF : UInt32) <<< 24)) >>> 24).toUInt8.toNat) = a := by
  have hmask : ∀ n : Nat, n &&& 65535 = n % 2 ^ 16 := fun n => Nat.and_two_pow_sub_one_eq_mod n 16
  have hbyte : ∀ n : Nat, n &&& 255 = n % 2 ^ 8 := fun n => Nat.and_two_pow_sub_one_eq_mod n 8
  have hmid : ((a &&& ((0xFF : UInt32) <<< 16)) >>> 16).toNat = a.toNat / 2 ^ 16 % 2 ^ 8 := by
    rw [← hbyte, UInt32.toNat_shiftRight, UInt32.toNat_and]
    change (a.toNat &&& 255 <<< 16) >>> 16 = _
    rw [Nat.shiftRight_and_distrib, Nat.shiftLeft_shiftRight, Nat.shiftRight_eq_div_pow]
  have hhigh : ((a &&& ((0xFF : UInt32) <<< 24)) >>> 24).toNat = a.toNat / 2 ^ 24 % 2 ^ 8 := by
    rw [← hbyte, UInt32.toNat_shiftRight, UInt32.toNat_and]
    change (a.toNat &&& 255 <<< 24) >>> 24 = _
    rw [Nat.shiftRight_and_distrib, Nat.shiftLeft_shiftRight, Nat.shiftRight_eq_div_pow]
  have := a.toNat_lt
  apply UInt32.toNat_inj.mp
  rw [UInt32.toNat_ofNat', UInt32.toNat_toUInt16, UInt32.toNat_toUInt8, UInt32.toNat_toUInt8,
    hmid, hhigh, UInt32.toNat_and]
  change ((a.toNat &&& 65535) % 2 ^ 16 + _ + _) % 2 ^ 32 = _
  rw [hmask]
  omega

section

variable (isr_stub_table : Nat → UInt32)

theorem set_interrupt_gate_of_ne {v w : UInt8} (h : w ≠ v) (handler_address : UInt32)
    (gdt_seg_selector : UInt16) (privilege : UInt8) (table : UInt8 → IDTGate)
    : set_interrupt_gate v handler_address gdt_seg_selector privilege table w = table w := by
  unfold set_interrupt_gate
  rw [Function.update_of_ne h]

theorem initialize_idt.fold_range (n : Nat) (hn : n ≤ 256) (table : UInt8 → IDTGate) (v : UInt8)
    : (List.range n).foldl
        (fun table i =>
          let priv := if i = 0x30 then 0x3 else 0
          set_interrupt_gate (UInt8.ofNat i) (isr_stub_table i) GDT_KERNEL_CODE_SEGMENT_SELECTOR
            priv table)
        table v
        =
      if v.toNat < n then
        set_interrupt_gate v (isr_stub_table v.toNat) GDT_KERNEL_CODE_SEGMENT_SELECTOR
          (if v.toNat = 0x30 then 0x3 else 0) table v
      else
        table v := by
  induction n with
  | zero => rw [if_neg (by omega)]; rfl
  | succ n ih =>
    have hih := ih (by omega)
    have hn' : (UInt8.ofNat n).toNat = n := UInt8.toNat_ofNat_of_lt' (by change n < 256; omega)
    rw [List.range_succ, List.foldl_append, List.foldl_cons, List.foldl_nil]
    dsimp only at hih ⊢
    generalize List.foldl _ table (List.range n) = table' at hih ⊢
    by_cases hv : v = UInt8.ofNat n
    . subst hv
      rw [hn'] at hih ⊢
      rw [if_neg (Nat.lt_irrefl n)] at hih
      rw [if_pos (Nat.lt_succ_self n)]
      unfold set_interrupt_gate
      rw [Function.update_self, Function.update_self, hih]
    . have hne : v.toNat ≠ n := by
        intro heq
        apply hv
        rw [← heq, UInt8.ofNat_toNat]
      rw [set_interrupt_gate_of_ne hv, hih]
      congr 1
      apply propext
      omega

theorem initialize_idt_apply (table : UInt8 → IDTGate) (v : UInt8)
    : initialize_idt isr_stub_table table v
        =
      if v.toNat < ISR_STUB_TABLE_LIMIT then
        set_interrupt_gate v (isr_stub_table v.toNat) GDT_KERNEL_CODE_SEGMENT_SELECTOR
          (if v.toNat = 0x30 then 0x3 else 0) table v
      else
        table v :=
  initialize_idt.fold_range isr_stub_table ISR_STUB_TABLE_LIMIT (by decide) table v

theorem decode_initialize_idt (v : UInt8)
    : Gate.decode (Fields.pack (initialize_idt isr_stub_table (fun _ => .zero) v).fields)
        =
      if v.toNat < ISR_STUB_TABLE_LIMIT then
        { offset := isr_stub_table v.toNat
          selector := GDT_KERNEL_CODE_SEGMENT_SELECTOR
          type := 0xE
          dpl := if v.toNat = 0x30 then 3 else 0
          present := true }
      else
        { offset := 0
          selector := 0
          type := 0
          dpl := 0
          present := false } := by
  rw [initialize_idt_apply]
  split
  . rw [IDTGate.decode_fields]
    unfold set_interrupt_gate
    rw [Function.update_self]
    dsimp only
    rw [toUInt32_halves]
    split
    . rfl
    . rfl
  . rfl

end

theorem getElem?_descriptor_words (descriptors : List Nat) (k : Nat)
    : (descriptor_words descriptors)[2 * k]? = descriptors[k]?.map UInt32.ofNat ∧
        (descriptor_words descriptors)[2 * k + 1]?
          = descriptors[k]?.map fun n => UInt32.ofNat (n / 2 ^ 32) := by
  induction descriptors generalizing k with
  | nil => simp [descriptor_words]
  | cons n descriptors ih =>
    cases k with
    | zero => exact ⟨rfl, rfl⟩
    | succ k => exact ih k

theorem length_descriptor_words (descriptors : List Nat)
    : (descriptor_words descriptors).length = 2 * descriptors.length := by
  induction descriptors with
  | nil => rfl
  | cons n descriptors ih =>
    change (descriptor_words descriptors).length + 2 = 2 * (descriptors.length + 1)
    rw [ih]
    omega

namespace TableRegister

variable {r : TableRegister} {m : Memory32} {descriptors : List Nat}

theorem descriptor_eq (h : m.Holds r.address (descriptor_words descriptors)) {k n : Nat}
    (hk : descriptors[k]? = some n) (hn : n < 2 ^ 64)
    : r.descriptor m k = n := by
  have hwords := getElem?_descriptor_words descriptors k
  rw [hk] at hwords
  unfold descriptor
  rw [h.get _ hwords.1, h.get _ hwords.2, UInt32.toNat_ofNat', UInt32.toNat_ofNat']
  omega

theorem segment_eq {table : Fin 32 → SegmentDescriptor} (h : m.Holds r.address (gdt_words table))
    {selector : UInt16} (i : Fin 32) (hi : selector.toNat / 8 = i.val)
    (hsize : selector ||| 7 ≤ r.size)
    : r.segment m selector = some (Segment.decode (Fields.pack (table i).fields)) := by
  have hget : (List.ofFn fun i => Fields.pack (table i).fields)[selector.toNat / 8]?
      = some (Fields.pack (table i).fields) := by
    rw [hi, List.getElem?_ofFn, dif_pos i.isLt]
  unfold segment
  rw [descriptor_eq h hget (Fields.pack_lt _)]
  simp only [guard, if_pos hsize]
  rfl

theorem gate_eq {table : UInt8 → IDTGate} (h : m.Holds r.address (idt_words table)) (v : UInt8)
    (hsize : 8 * v.toNat + 7 ≤ r.size.toNat)
    : r.gate m v = some (Gate.decode (Fields.pack (table v).fields)) := by
  have hget : (List.ofFn fun i : Fin 256 => Fields.pack (table (UInt8.ofNat i)).fields)[v.toNat]?
      = some (Fields.pack (table v).fields) := by
    rw [List.getElem?_ofFn, dif_pos v.toNat_lt]
    dsimp only
    rw [UInt8.ofNat_toNat]
  unfold gate
  rw [descriptor_eq h hget (Fields.pack_lt _)]
  simp only [guard, if_pos hsize]
  rfl

end TableRegister

section

variable (accessed : Fin 32 → Bool) (tss : UInt32)

def kernel_setup.gdt : Fin 32 → SegmentDescriptor :=
  Cpu.note_loaded accessed (gdt_install_tss tss global_descriptor_table)

theorem decode_kernel_code
    : Segment.decode (Fields.pack (kernel_setup.gdt accessed tss 1).fields)
        = ⟨0, 2 ^ 32 - 1, if accessed 1 then 0xB else 0xA, false, 0, true⟩ := by
  rw [SegmentDescriptor.decode_fields]
  unfold kernel_setup.gdt Cpu.note_loaded gdt_install_tss
  rw [if_neg (by decide), Function.update_of_ne (by decide)]
  split
  . rfl
  . rfl

theorem decode_kernel_data
    : Segment.decode (Fields.pack (kernel_setup.gdt accessed tss 2).fields)
        = ⟨0, 2 ^ 32 - 1, if accessed 2 then 0x3 else 0x2, false, 0, true⟩ := by
  rw [SegmentDescriptor.decode_fields]
  unfold kernel_setup.gdt Cpu.note_loaded gdt_install_tss
  rw [if_neg (by decide), Function.update_of_ne (by decide)]
  split
  . rfl
  . rfl

theorem decode_tss
    : Segment.decode (Fields.pack (kernel_setup.gdt accessed tss 5).fields)
        = ⟨tss, 104, 0xB, true, 0, true⟩ := by
  rw [SegmentDescriptor.decode_fields]
  unfold kernel_setup.gdt Cpu.note_loaded gdt_install_tss
  rw [if_pos rfl, Function.update_self]
  dsimp only
  rw [toUInt32_parts]
  rfl

variable {accessed tss} {m : Memory32} {gdt ebp : UInt32}

theorem stack_eq (hgdt : m.Holds gdt (gdt_words (kernel_setup.gdt accessed tss)))
    (htss : m.Holds tss (set_tss_kernel_current_stack ebp _interrupt_tss_entry).words)
    : (_gdt_gdtr gdt).stack m GDT_TSS_SELECTOR 0
        = some (GDT_KERNEL_DATA_SEGMENT_SELECTOR, ebp + 8) := by
  have hsegment : (_gdt_gdtr gdt).segment m GDT_TSS_SELECTOR = some _ :=
    TableRegister.segment_eq hgdt 5 rfl (show (0x28 : UInt16) ||| 7 ≤ 255 by decide)
  have hdata : (_gdt_gdtr gdt).segment m GDT_KERNEL_DATA_SEGMENT_SELECTOR = some _ :=
    TableRegister.segment_eq hgdt 2 rfl (show (0x10 : UInt16) ||| 7 ≤ 255 by decide)
  have hesp : m.load (tss + UInt32.ofNat 4) = ebp + 8 := htss.get 1 rfl
  have hss : m.load (tss + UInt32.ofNat 8) = GDT_KERNEL_DATA_SEGMENT_SELECTOR.toUInt32 :=
    htss.get 2 rfl
  rw [decode_tss] at hsegment
  rw [decode_kernel_data] at hdata
  unfold TableRegister.stack
  rw [hsegment]
  simp only [Option.bind_eq_bind, Option.bind_some, guard]
  rw [if_pos (by decide)]
  simp only [Option.bind_some, Option.pure_def, Nat.mul_zero, Nat.zero_add]
  rw [hesp, hss]
  have hselector : GDT_KERNEL_DATA_SEGMENT_SELECTOR.toUInt32.toUInt16
      = GDT_KERNEL_DATA_SEGMENT_SELECTOR := rfl
  rw [hselector, hdata]
  cases accessed 2 with
  | false => simp
  | true => simp

end

theorem door_iff (cpl : Fin 4) (software : Bool) (vector : UInt8)
    : (software → cpl.val ≤ if vector.toNat = 0x30 then 3 else 0)
        ↔
      (software → cpl = 0 ∨ vector = 0x30) := by
  have hvector : vector.toNat = 0x30 ↔ vector = 0x30 := by
    rw [← UInt8.toNat_inj]
    rfl
  have hcpl : cpl.val ≤ 0 ↔ cpl = 0 := by
    rw [Nat.le_zero, Fin.ext_iff]
    rfl
  have hle : cpl.val ≤ 3 := Nat.le_of_lt_succ cpl.isLt
  by_cases h : vector = 0x30
  . simp [h, hle]
  . simp [hvector, h, hcpl]

/--
With the tables that `kernel_setup` leaves in memory, the CPU goes to the stub of the vector, in the
segment of the kernel and on the stack of the kernel, for the vectors below 64. By the instruction
`int` user mode only gets there through vector 0x30. Everything else is an exception.
-/
theorem kernel_entry (accessed : Fin 32 → Bool) {isr_stub_table : Nat → UInt32} {m : Memory32}
    {idt gdt tss ebp : UInt32}
    (hidt : m.Holds idt (idt_words (initialize_idt isr_stub_table fun _ => .zero)))
    (hgdt : m.Holds gdt (gdt_words (kernel_setup.gdt accessed tss)))
    (htss : m.Holds tss (set_tss_kernel_current_stack ebp _interrupt_tss_entry).words)
    (cpl : Fin 4) (software : Bool) (vector : UInt8)
    : Cpu.deliver m (_idt_idtr idt) (_gdt_gdtr gdt) GDT_TSS_SELECTOR cpl software vector
        =
      if vector.toNat < ISR_STUB_TABLE_LIMIT ∧ (software → cpl = 0 ∨ vector = 0x30) then
        some {
          handler := isr_stub_table vector.toNat
          cs := GDT_KERNEL_CODE_SEGMENT_SELECTOR
          stack :=
            if cpl = 0 then none else some (GDT_KERNEL_DATA_SEGMENT_SELECTOR, ebp + 8) }
      else
        none := by
  have hgate : (_idt_idtr idt).gate m vector = some _ :=
    TableRegister.gate_eq hidt vector (by
      have := vector.toNat_lt
      change 8 * vector.toNat + 7 ≤ 2048
      omega)
  have hcode : (_gdt_gdtr gdt).segment m GDT_KERNEL_CODE_SEGMENT_SELECTOR = some _ :=
    TableRegister.segment_eq hgdt 1 rfl (show (0x8 : UInt16) ||| 7 ≤ 255 by decide)
  have hstack := stack_eq hgdt htss
  rw [decode_initialize_idt] at hgate
  rw [decode_kernel_code] at hcode
  by_cases hvector : vector.toNat < ISR_STUB_TABLE_LIMIT
  . rw [if_pos hvector] at hgate
    by_cases hdoor : software = true → cpl = 0 ∨ vector = 0x30
    . have hdpl := (door_iff cpl software vector).mpr hdoor
      rw [if_pos ⟨hvector, hdoor⟩]
      unfold Cpu.deliver
      simp only [hgate, Option.bind_eq_bind, Option.bind_some, guard, ite_true]
      rw [if_pos hdpl]
      simp [hcode, hstack]
      by_cases hcpl : cpl = 0
      . subst hcpl
        rfl
      . have hne : ¬ 0 = cpl.val := fun heq => hcpl (Fin.ext heq.symm)
        rw [if_neg hcpl, if_neg hne]
        rfl
    . have hdpl := mt (door_iff cpl software vector).mp hdoor
      rw [if_neg (by intro h; exact hdoor h.2)]
      unfold Cpu.deliver
      simp [hgate, hdpl, guard]
  . rw [if_neg hvector] at hgate
    rw [if_neg (by intro h; exact hvector h.1)]
    unfold Cpu.deliver
    simp [hgate, guard]

-- the TSS at 3 GiB and 2 MiB, with the GDT and the IDT behind it
def kernel_entry.words : List UInt32 :=
  (set_tss_kernel_current_stack 0xC0300000 _interrupt_tss_entry).words ++
    (gdt_words (kernel_setup.gdt (fun _ => true) 0xC0200000) ++
      idt_words (initialize_idt (fun v => 0xC0101000 + 16 * UInt32.ofNat v) fun _ => .zero))

-- user mode gets to the stub of system calls, but not to the one of the timer
theorem kernel_entry_user
    : ∃ m idt gdt, Cpu.deliver m (_idt_idtr idt) (_gdt_gdtr gdt) GDT_TSS_SELECTOR 3 true 0x30
          = some ⟨0xC0101300, 0x8, some (0x10, 0xC0300008)⟩ ∧
        Cpu.deliver m (_idt_idtr idt) (_gdt_gdtr gdt) GDT_TSS_SELECTOR 3 true 0x20 = none := by
  have hlength : kernel_entry.words.length = 579 := by
    unfold kernel_entry.words gdt_words idt_words
    rw [List.length_append, List.length_append, length_descriptor_words, length_descriptor_words,
      List.length_ofFn, List.length_ofFn]
    rfl
  have hholds := Memory32.holds_write (fun _ => 0) 0xC0200000 kernel_entry.words (by omega)
  rcases Memory32.holds_append.mp hholds with ⟨htss, hbehind⟩
  rcases Memory32.holds_append.mp hbehind with ⟨hgdt, hidt⟩
  have hsyscall := kernel_entry (fun _ => true) hidt hgdt htss 3 true 0x30
  have htimer := kernel_entry (fun _ => true) hidt hgdt htss 3 true 0x20
  rw [if_pos (by decide)] at hsyscall
  rw [if_neg (by decide)] at htimer
  exact ⟨_, _, _, hsyscall, htimer⟩

end AiOS
