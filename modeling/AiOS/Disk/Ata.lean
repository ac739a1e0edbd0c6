import AiOS.Disk.Basic
import AiOS.Lib.Fallible
import AiOS.Lib.LittleEndian
import AiOS.Lib.Span

/-!
This module contains `read_blocks` and `write_blocks` of `disk.c`, on the ports of an ATA device.
-/

namespace AiOS

open Fallible

abbrev BLOCK_SIZE : Nat := 512

abbrev HALF_BLOCK_SIZE : Nat := BLOCK_SIZE / 2

abbrev ATA_STATUS_BSY : UInt8 := 0x80

abbrev ATA_STATUS_RDY : UInt8 := 0x40

/--
How often the status port shows the device busy, and then not ready, after the `n`-th time that a
command or a sector went through its ports.
-/
structure Timing where
  busy : Nat → Nat
  unready : Nat → Nat

def Timing.Within (timing : Timing) (fuel : Nat) : Prop :=
  ∀ n, timing.busy n < fuel ∧ timing.unready n < fuel

/--
The device: the bytes of the disk, the registers behind the ports, and the last command with the
byte at which the next word lies and the words that are left of it.
-/
structure Ata where
  storage : Nat → UInt8
  sector_count : UInt8
  lba_low : UInt8
  lba_mid : UInt8
  lba_high : UInt8
  drive : UInt8
  command : UInt8
  position : Nat
  left : Nat
  busy : Nat
  unready : Nat
  events : Nat

structure Machine where
  memory : Nat → UInt8
  ata : Ata

abbrev AtaM (α : Type) : Type :=
  Fallible Machine α

namespace Ata

def load16 (memory : Nat → UInt8) (address : Nat) : UInt16 :=
  LittleEndian.toUInt16 (memory address) (memory (address + 1))

def store16 (memory : Nat → UInt8) (address : Nat) (word : UInt16) : Nat → UInt8 :=
  Function.update (Function.update memory address (LittleEndian.byte word.toNat 0)) (address + 1)
    (LittleEndian.byte word.toNat 1)

def delay (timing : Timing) (ata : Ata) : Ata :=
  { ata with
    busy := timing.busy ata.events
    unready := timing.unready ata.events
    events := ata.events + 1 }

-- four bits of the address are those of the drive register, and a count of 0 stands for 256
def decode (ata : Ata) (command : UInt8) : Ata :=
  { ata with
    command := command
    position :=
      BLOCK_SIZE *
        (ata.lba_low.toNat + 2 ^ 8 * ata.lba_mid.toNat + 2 ^ 16 * ata.lba_high.toNat +
          2 ^ 24 * (ata.drive.toNat % 2 ^ 4))
    left := HALF_BLOCK_SIZE * (if ata.sector_count = 0 then 256 else ata.sector_count.toNat) }

def advance (timing : Timing) (ata : Ata) : Ata :=
  let next := { ata with position := ata.position + 2, left := ata.left - 1 }
  if next.left % HALF_BLOCK_SIZE = 0 then next.delay timing else next

def register (timing : Timing) (port : UInt16) (data : UInt8) (ata : Ata) : Option Ata :=
  match port with
  | 0x1F2 => some { ata with sector_count := data }
  | 0x1F3 => some { ata with lba_low := data }
  | 0x1F4 => some { ata with lba_mid := data }
  | 0x1F5 => some { ata with lba_high := data }
  | 0x1F6 => some { ata with drive := data }
  | 0x1F7 =>
    if ata.drive &&& 0x40 ≠ 0 ∧ (data = 0x20 ∨ data = 0x30) then
      some ((ata.decode data).delay timing)
    else
      none
  | _ => none

def status (ata : Ata) : UInt8 × Ata :=
  if ata.busy ≠ 0 then
    (ATA_STATUS_BSY, { ata with busy := ata.busy - 1 })
  else if ata.unready ≠ 0 then
    (0, { ata with unready := ata.unready - 1 })
  else
    (ATA_STATUS_RDY, ata)

def Transfers (ata : Ata) (command : UInt8) : Prop :=
  ata.busy = 0 ∧ ata.unready = 0 ∧ ata.command = command ∧ ata.left ≠ 0

instance (ata : Ata) (command : UInt8) : Decidable (ata.Transfers command) :=
  inferInstanceAs (Decidable (_ ∧ _))

section

variable (timing : Timing)

-- while the device is busy, or words of a command are left, it takes nothing
def out (port : UInt16) (data : UInt8) : AtaM Unit := do
  let s ← get
  if s.ata.busy = 0 ∧ s.ata.left = 0 then
    let ata ← Fallible.ofOption (s.ata.register timing port data)
    modify fun s => { s with ata := ata }
  else
    Fallible.ofOption none

def in_status : AtaM UInt8 := do
  let s ← get
  modify fun s => { s with ata := s.ata.status.2 }
  return s.ata.status.1

def in16 : AtaM UInt16 := do
  let s ← get
  if s.ata.Transfers 0x20 then
    modify fun s => { s with ata := s.ata.advance timing }
    return load16 s.ata.storage s.ata.position
  else
    Fallible.ofOption none

def out16 (data : UInt16) : AtaM Unit := do
  let s ← get
  if s.ata.Transfers 0x30 then
    modify fun s =>
      { s with
        ata := Ata.advance timing
          { s.ata with storage := store16 s.ata.storage s.ata.position data } }
  else
    Fallible.ofOption none

-- the loops that wait, without a result where they do not end within `fuel` passes
def ATA_busy_wait (fuel : Nat) : AtaM Unit :=
  match fuel with
  | 0 => Fallible.ofOption none
  | fuel + 1 => do
    let status ← in_status
    if status &&& ATA_STATUS_BSY ≠ 0 then
      ATA_busy_wait fuel
    else
      return ()

def ATA_DRQ_wait (fuel : Nat) : AtaM Unit :=
  match fuel with
  | 0 => Fallible.ofOption none
  | fuel + 1 => do
    let status ← in_status
    if status &&& ATA_STATUS_RDY = 0 then
      ATA_DRQ_wait fuel
    else
      return ()

variable (fuel : Nat)

def request (logical_block_address : UInt32) (block_count : UInt8) (command : UInt8)
    : AtaM Unit := do
  ATA_busy_wait fuel
  out timing 0x1F6 ((0xE0 : UInt32) ||| ((logical_block_address >>> 24) &&& 0xF)).toUInt8
  out timing 0x1F2 block_count
  out timing 0x1F3 logical_block_address.toUInt8
  out timing 0x1F4 (logical_block_address >>> 8).toUInt8
  out timing 0x1F5 (logical_block_address >>> 16).toUInt8
  out timing 0x1F7 command

def read_blocks (ptr : Nat) (logical_block_address : UInt32) (block_count : UInt8)
    : AtaM Unit := do
  request timing fuel logical_block_address block_count 0x20
  let _ ← (List.range block_count.toNat).foldlM
    (fun target _ => do
      ATA_busy_wait fuel
      ATA_DRQ_wait fuel
      (List.range HALF_BLOCK_SIZE).forM fun j => do
        let word ← in16 timing
        modify fun s => { s with memory := store16 s.memory (target + 2 * j) word }
      return target + 2 * HALF_BLOCK_SIZE)
    ptr

def write_blocks (ptr : Nat) (logical_block_address : UInt32) (block_count : UInt8)
    : AtaM Unit := do
  request timing fuel logical_block_address block_count 0x30
  (List.range block_count.toNat).forM fun i => do
    ATA_busy_wait fuel
    ATA_DRQ_wait fuel
    (List.range HALF_BLOCK_SIZE).forM fun j => do
      let s ← get
      out16 timing (load16 s.memory (ptr + 2 * (HALF_BLOCK_SIZE * i + j)))

end

variable {timing : Timing} {fuel : Nat}

/--
What matters of a machine between two accesses to its ports: all but the registers and the waiting.
-/
structure View where
  memory : Nat → UInt8
  storage : Nat → UInt8
  command : UInt8
  position : Nat
  left : Nat

def view (s : Machine) : View where
  memory := s.memory
  storage := s.ata.storage
  command := s.ata.command
  position := s.ata.position
  left := s.ata.left

structure Waits (fuel : Nat) (v : View) (s : Machine) : Prop where
  view_eq : view s = v
  busy_lt : s.ata.busy < fuel
  unready_lt : s.ata.unready < fuel

structure Ready (fuel : Nat) (v : View) (s : Machine) : Prop extends Waits fuel v s where
  busy_eq : s.ata.busy = 0
  unready_eq : s.ata.unready = 0

theorem ATA_busy_wait_succ (s : Machine)
    : ATA_busy_wait (fuel + 1) s
        =
      if s.ata.status.1 &&& ATA_STATUS_BSY ≠ 0 then
        ATA_busy_wait fuel { s with ata := s.ata.status.2 }
      else
        some ((), { s with ata := s.ata.status.2 }) := by
  rw [ATA_busy_wait]
  have h : in_status s = some (s.ata.status.1, { s with ata := s.ata.status.2 }) := rfl
  rw [bind_apply, h, Option.bind_some]
  split
  . rfl
  . rfl

theorem ATA_DRQ_wait_succ (s : Machine)
    : ATA_DRQ_wait (fuel + 1) s
        =
      if s.ata.status.1 &&& ATA_STATUS_RDY = 0 then
        ATA_DRQ_wait fuel { s with ata := s.ata.status.2 }
      else
        some ((), { s with ata := s.ata.status.2 }) := by
  rw [ATA_DRQ_wait]
  have h : in_status s = some (s.ata.status.1, { s with ata := s.ata.status.2 }) := rfl
  rw [bind_apply, h, Option.bind_some]
  split
  . rfl
  . rfl

theorem busy_wait_apply {n : Nat} {v : View} {s : Machine} (h : Waits fuel v s)
    (hn : s.ata.busy < n)
    : ∃ s', ATA_busy_wait n s = some ((), s') ∧ Waits fuel v s' ∧ s'.ata.busy = 0 := by
  have hunready := h.unready_lt
  induction n generalizing s with
  | zero => contradiction
  | succ n ih =>
    rw [ATA_busy_wait_succ]
    by_cases hbusy : s.ata.busy = 0
    . have hstatus : s.ata.status.1 &&& ATA_STATUS_BSY = 0 ∧ s.ata.status.2.busy = 0 ∧
          Waits fuel v { s with ata := s.ata.status.2 } := by
        unfold status
        rw [if_neg (not_not.mpr hbusy)]
        split
        . have hzero : 0 &&& ATA_STATUS_BSY = 0 := by decide
          exact ⟨hzero, hbusy, h.view_eq, h.busy_lt, Nat.lt_of_le_of_lt (Nat.sub_le _ _) hunready⟩
        . have hready : ATA_STATUS_RDY &&& ATA_STATUS_BSY = 0 := by decide
          exact ⟨hready, hbusy, h⟩
      rw [if_neg (not_not.mpr hstatus.1)]
      exact ⟨_, rfl, hstatus.2.2, hstatus.2.1⟩
    . have hstatus : s.ata.status = (ATA_STATUS_BSY, { s.ata with busy := s.ata.busy - 1 }) := by
        unfold status
        rw [if_pos hbusy]
      have hset : ATA_STATUS_BSY &&& ATA_STATUS_BSY ≠ 0 := by decide
      have hlt := h.busy_lt
      rw [hstatus, if_pos hset]
      apply ih
      . exact ⟨h.view_eq, Nat.lt_of_le_of_lt (Nat.sub_le _ _) hlt, hunready⟩
      . dsimp only
        omega
      . exact hunready

theorem DRQ_wait_apply {n : Nat} {v : View} {s : Machine} (h : Waits fuel v s)
    (hbusy : s.ata.busy = 0) (hn : s.ata.unready < n)
    : ∃ s', ATA_DRQ_wait n s = some ((), s') ∧ Ready fuel v s' := by
  induction n generalizing s with
  | zero => contradiction
  | succ n ih =>
    rw [ATA_DRQ_wait_succ]
    by_cases hunready : s.ata.unready = 0
    . have hstatus : s.ata.status = (ATA_STATUS_RDY, s.ata) := by
        unfold status
        rw [if_neg (not_not.mpr hbusy), if_neg (not_not.mpr hunready)]
      have hset : ATA_STATUS_RDY &&& ATA_STATUS_RDY ≠ 0 := by decide
      rw [hstatus, if_neg hset]
      exact ⟨_, rfl, h, hbusy, hunready⟩
    . have hstatus : s.ata.status = (0, { s.ata with unready := s.ata.unready - 1 }) := by
        unfold status
        rw [if_neg (not_not.mpr hbusy), if_pos hunready]
      have hzero : 0 &&& ATA_STATUS_RDY = 0 := by decide
      have hlt := h.unready_lt
      rw [hstatus, if_pos hzero]
      apply ih
      . exact ⟨h.view_eq, h.busy_lt, Nat.lt_of_le_of_lt (Nat.sub_le _ _) hlt⟩
      . exact hbusy
      . dsimp only
        omega

theorem decode_address (logical_block_address : UInt32)
    : logical_block_address.toUInt8.toNat + 2 ^ 8 * (logical_block_address >>> 8).toUInt8.toNat +
        2 ^ 16 * (logical_block_address >>> 16).toUInt8.toNat +
        2 ^ 24 * (((0xE0 : UInt32) ||| ((logical_block_address >>> 24) &&& 0xF)).toUInt8.toNat % 2 ^ 4)
        =
      DiskCmd.lba28 logical_block_address := by
  have hmod : ∀ n : Nat, n % 2 ^ 8 % 2 ^ 4 = n % 2 ^ 4 := fun n => by omega
  have hshift : (8 : UInt32).toNat % 32 = 8 := by decide
  have hshift' : (16 : UInt32).toNat % 32 = 16 := by decide
  have hmask : logical_block_address.toNat >>> ((24 : UInt32).toNat % 32) &&& (0xF : UInt32).toNat
      = logical_block_address.toNat / 2 ^ 24 % 2 ^ 4 := by
    have hshift : (24 : UInt32).toNat % 32 = 24 := by decide
    have hones : (0xF : UInt32).toNat = 2 ^ 4 - 1 := by decide
    rw [hshift, hones, Nat.and_two_pow_sub_one_eq_mod, Nat.shiftRight_eq_div_pow]
  have hdrive : ((0xE0 : UInt32) ||| ((logical_block_address >>> 24) &&& 0xF)).toUInt8.toNat % 2 ^ 4
      = logical_block_address.toNat / 2 ^ 24 % 2 ^ 4 := by
    have hhigh : (0xE0 : UInt32).toNat % 2 ^ 4 = 0 := by decide
    rw [UInt32.toNat_toUInt8, UInt32.toNat_or, UInt32.toNat_and, UInt32.toNat_shiftRight, hmask, hmod,
      Nat.or_mod_two_pow, hhigh, Nat.zero_or, Nat.mod_mod]
  rw [hdrive, UInt32.toNat_toUInt8, UInt32.toNat_toUInt8, UInt32.toNat_toUInt8,
    UInt32.toNat_shiftRight, UInt32.toNat_shiftRight, hshift, hshift', Nat.shiftRight_eq_div_pow,
    Nat.shiftRight_eq_div_pow]
  unfold DiskCmd.lba28
  omega

theorem drive_lba (logical_block_address : UInt32)
    : ((0xE0 : UInt32) ||| ((logical_block_address >>> 24) &&& 0xF)).toUInt8 &&& 0x40 ≠ 0 := by
  intro h
  have hbit := congrArg (fun drive : UInt8 => drive.toBitVec.getLsbD 6) h
  simp at hbit

theorem out_apply {port : UInt16} {data : UInt8} {s : Machine} {ata : Ata}
    (hfree : s.ata.busy = 0 ∧ s.ata.left = 0) (h : s.ata.register timing port data = some ata)
    : out timing port data s = some ((), { s with ata := ata }) := by
  unfold out
  rw [get_bind_apply, if_pos hfree, h]
  rfl

theorem out_bind {port : UInt16} {data : UInt8} {s : Machine} {ata : Ata} {f : Unit → AtaM Unit}
    {Q : Unit → Machine → Prop} (hfree : s.ata.busy = 0 ∧ s.ata.left = 0)
    (h : s.ata.register timing port data = some ata)
    (hrest : ∃ a s', f () { s with ata := ata } = some (a, s') ∧ Q a s')
    : ∃ a s', (out timing port data >>= f) s = some (a, s') ∧ Q a s' := by
  rw [bind_apply, out_apply hfree h]
  exact hrest

theorem request_yields (hfuel : Timing.Within timing fuel) {v : View} (hleft : v.left = 0)
    {block_count : UInt8} (hcount : block_count ≠ 0) {command : UInt8}
    (hcommand : command = 0x20 ∨ command = 0x30) (logical_block_address : UInt32)
    : Yields (Waits fuel v) (request timing fuel logical_block_address block_count command)
        fun _ => Waits fuel
          { v with
            command := command
            position := BLOCK_SIZE * DiskCmd.lba28 logical_block_address
            left := HALF_BLOCK_SIZE * block_count.toNat } := by
  unfold request
  apply Yields.bind (Q := fun _ s => Waits fuel v s ∧ s.ata.busy = 0)
  . intro s hs
    rcases busy_wait_apply hs hs.busy_lt with ⟨s', hrun, hwaits⟩
    exact ⟨(), s', hrun, hwaits⟩
  . intro _ s hs
    have hzero : s.ata.left = 0 := by
      rw [← hleft, ← hs.1.view_eq]
      rfl
    have hcommand' : ∀ ata : Ata,
        ata.drive = ((0xE0 : UInt32) ||| ((logical_block_address >>> 24) &&& 0xF)).toUInt8 →
        ata.register timing 0x1F7 command = some ((ata.decode command).delay timing) := by
      intro ata hdrive
      unfold register
      rw [hdrive]
      exact if_pos ⟨drive_lba logical_block_address, hcommand⟩
    refine out_bind ⟨hs.2, hzero⟩ rfl ?_
    refine out_bind ⟨hs.2, hzero⟩ rfl ?_
    refine out_bind ⟨hs.2, hzero⟩ rfl ?_
    refine out_bind ⟨hs.2, hzero⟩ rfl ?_
    refine out_bind ⟨hs.2, hzero⟩ rfl ?_
    refine ⟨(), _, out_apply ⟨hs.2, hzero⟩ (hcommand' _ rfl), ?_, (hfuel _).1, (hfuel _).2⟩
    rw [← hs.1.view_eq, ← decode_address]
    unfold view decode delay
    dsimp only
    rw [if_neg hcount]

theorem wait_yields {β : Type} {p : AtaM β} {v : View} {Q : β → Machine → Prop}
    (h : Yields (Ready fuel v) p Q)
    : Yields (Waits fuel v)
        (do
          ATA_busy_wait fuel
          ATA_DRQ_wait fuel
          p)
        Q := by
  apply Yields.bind (Q := fun _ s => Waits fuel v s ∧ s.ata.busy = 0)
  . intro s hs
    rcases busy_wait_apply hs hs.busy_lt with ⟨s', hrun, hwaits⟩
    exact ⟨(), s', hrun, hwaits⟩
  . intro _
    apply Yields.bind (Q := fun _ => Ready fuel v)
    . intro s hs
      rcases DRQ_wait_apply hs.1 hs.2 hs.1.unready_lt with ⟨s', hrun, hready⟩
      exact ⟨(), s', hrun, hready⟩
    . intro _
      exact h

def View.advance (v : View) : View :=
  { v with position := v.position + 2, left := v.left - 1 }

theorem Ready.advance (hfuel : timing.Within fuel) {v : View} {s : Machine} (h : Ready fuel v s)
    : Waits fuel v.advance { s with ata := s.ata.advance timing } ∧
        ((v.left - 1) % HALF_BLOCK_SIZE ≠ 0 →
          Ready fuel v.advance { s with ata := s.ata.advance timing }) := by
  have hleft : s.ata.left = v.left := by
    rw [← h.view_eq]
    rfl
  have hview : view { s with ata := s.ata.advance timing } = v.advance := by
    rw [← h.view_eq]
    unfold view View.advance Ata.advance delay
    dsimp only
    split
    . rfl
    . rfl
  by_cases hend : (v.left - 1) % HALF_BLOCK_SIZE = 0
  . refine ⟨⟨hview, ?_, ?_⟩, fun hne => absurd hend hne⟩
    . unfold Ata.advance
      dsimp only
      rw [hleft, if_pos hend]
      exact (hfuel _).1
    . unfold Ata.advance
      dsimp only
      rw [hleft, if_pos hend]
      exact (hfuel _).2
  . have heq : s.ata.advance timing
        = { s.ata with position := s.ata.position + 2, left := s.ata.left - 1 } := by
      unfold Ata.advance
      dsimp only
      rw [hleft, if_neg hend]
    have hready : Ready fuel v.advance { s with ata := s.ata.advance timing } := by
      rw [heq] at hview ⊢
      exact ⟨⟨hview, h.busy_lt, h.unready_lt⟩, h.busy_eq, h.unready_eq⟩
    exact ⟨hready.toWaits, fun _ => hready⟩

theorem Ready.transfers {v : View} {s : Machine} (h : Ready fuel v s) (hleft : v.left ≠ 0)
    : s.ata.Transfers v.command := by
  have hview := h.view_eq
  subst hview
  exact ⟨h.busy_eq, h.unready_eq, rfl, hleft⟩

theorem Waits.store {v : View} {s : Machine} (h : Waits fuel v s) (memory : Nat → UInt8)
    : Waits fuel { v with memory := memory } { s with memory := memory } := by
  have hview := h.view_eq
  subst hview
  exact ⟨rfl, h.busy_lt, h.unready_lt⟩

theorem Ready.put {v : View} {s : Machine} (h : Ready fuel v s) (storage : Nat → UInt8)
    : Ready fuel { v with storage := storage }
        { s with ata := { s.ata with storage := storage } } := by
  have hview := h.view_eq
  subst hview
  exact ⟨⟨rfl, h.busy_lt, h.unready_lt⟩, h.busy_eq, h.unready_eq⟩

theorem in16_apply {s : Machine} (h : s.ata.Transfers 0x20)
    : in16 timing s
        =
      some (load16 s.ata.storage s.ata.position, { s with ata := s.ata.advance timing }) := by
  unfold in16
  rw [get_bind_apply, if_pos h]
  rfl

theorem out16_apply {s : Machine} (h : s.ata.Transfers 0x30) (data : UInt16)
    : out16 timing data s
        =
      some ((), { s with
        ata := Ata.advance timing
          { s.ata with storage := store16 s.ata.storage s.ata.position data } }) := by
  unfold out16
  rw [get_bind_apply, if_pos h]
  rfl

theorem store16_write (memory src : Nat → UInt8) (start n : Nat)
    : store16 (Span.write memory start (2 * n) src) (start + 2 * n)
          (LittleEndian.toUInt16 (src (2 * n)) (src (2 * n + 1)))
        =
      Span.write memory start (2 * (n + 1)) src := by
  unfold store16
  rw [LittleEndian.byte_toUInt16_zero, LittleEndian.byte_toUInt16_one, Span.update_write,
    Nat.add_assoc, Span.update_write]
  rfl

theorem sector_yields {V : Nat → View} {p : Nat → AtaM Unit}
    (h : ∀ j < HALF_BLOCK_SIZE, Yields (Ready fuel (V j)) (p j) fun _ s =>
      Waits fuel (V (j + 1)) s ∧ (j + 1 < HALF_BLOCK_SIZE → Ready fuel (V (j + 1)) s))
    : Yields (Ready fuel (V 0)) ((List.range HALF_BLOCK_SIZE).forM p) fun _ =>
        Waits fuel (V HALF_BLOCK_SIZE) := by
  apply Yields.consequence
    (P := fun s => Waits fuel (V 0) s ∧ (0 < HALF_BLOCK_SIZE → Ready fuel (V 0) s))
    (Q := fun _ s => Waits fuel (V HALF_BLOCK_SIZE) s ∧
      (HALF_BLOCK_SIZE < HALF_BLOCK_SIZE → Ready fuel (V HALF_BLOCK_SIZE) s))
  . apply Yields.forM_range
      (P := fun j s => Waits fuel (V j) s ∧ (j < HALF_BLOCK_SIZE → Ready fuel (V j) s))
    intro j hj s hs
    exact h j hj s (hs.2 hj)
  . intro s hs
    exact ⟨hs.toWaits, fun _ => hs⟩
  . intro _ s hs
    exact hs.1

theorem word_mod {left sectors i j : Nat} (hleft : left = HALF_BLOCK_SIZE * sectors)
    (hi : i < sectors) (hj : j < HALF_BLOCK_SIZE)
    : HALF_BLOCK_SIZE * i + j < left ∧
        (j + 1 < HALF_BLOCK_SIZE →
          (left - (HALF_BLOCK_SIZE * i + j) - 1) % HALF_BLOCK_SIZE ≠ 0) := by
  have hhalf : HALF_BLOCK_SIZE = 256 := rfl
  rw [hhalf] at hleft hj ⊢
  omega

section

variable (v : View) (ptr n : Nat)

def View.reading : View :=
  { v with
    memory := Span.write v.memory ptr (2 * n) fun i => v.storage (v.position + i)
    position := v.position + 2 * n
    left := v.left - n }

def View.writing : View :=
  { v with
    storage := Span.write v.storage v.position (2 * n) fun i => v.memory (ptr + i)
    position := v.position + 2 * n
    left := v.left - n }

@[simp]
theorem View.reading_zero : v.reading ptr 0 = v := by
  unfold View.reading
  rw [Nat.mul_zero, Span.write_zero]
  rfl

@[simp]
theorem View.writing_zero : v.writing ptr 0 = v := by
  unfold View.writing
  rw [Nat.mul_zero, Span.write_zero]
  rfl

theorem View.reading_succ
    : let next := (v.reading ptr n).advance
      { next with
        memory := store16 next.memory (ptr + 2 * n) (load16 v.storage (v.position + 2 * n)) }
        =
      v.reading ptr (n + 1) := by
  have hmemory := store16_write v.memory (fun i => v.storage (v.position + i)) ptr n
  unfold View.reading View.advance
  rw [← hmemory]
  rfl

theorem View.writing_succ
    : let now := v.writing ptr n
      View.advance
          { now with
            storage := store16 now.storage now.position (load16 v.memory (ptr + 2 * n)) }
        =
      v.writing ptr (n + 1) := by
  have hstorage := store16_write v.storage (fun i => v.memory (ptr + i)) v.position n
  unfold View.writing View.advance
  rw [← hstorage]
  rfl

variable {v ptr n}

theorem read_word_yields (hfuel : timing.Within fuel) (hcommand : v.command = 0x20)
    (hn : n < v.left)
    : Yields (Ready fuel (v.reading ptr n))
        (do
          let word ← in16 timing
          modify fun s => { s with memory := store16 s.memory (ptr + 2 * n) word })
        fun _ s => Waits fuel (v.reading ptr (n + 1)) s ∧
          ((v.left - n - 1) % HALF_BLOCK_SIZE ≠ 0 → Ready fuel (v.reading ptr (n + 1)) s) := by
  intro s hs
  have htransfers : s.ata.Transfers 0x20 := by
    rw [← hcommand]
    exact hs.transfers (Nat.sub_ne_zero_of_lt hn)
  have hadvance := hs.advance hfuel
  have hview := hs.view_eq
  have hmemory : s.memory = (v.reading ptr n).advance.memory := congrArg View.memory hview
  have hstorage : s.ata.storage = v.storage := congrArg View.storage hview
  have hposition : s.ata.position = v.position + 2 * n := congrArg View.position hview
  rw [bind_apply, in16_apply htransfers, Option.bind_some]
  refine ⟨(), _, rfl, ?_⟩
  dsimp only
  rw [← View.reading_succ, hstorage, hposition, hmemory]
  refine ⟨hadvance.1.store _, fun hmod => ?_⟩
  have hready := hadvance.2 hmod
  exact ⟨hready.toWaits.store _, hready.busy_eq, hready.unready_eq⟩

theorem write_word_yields (hfuel : timing.Within fuel) (hcommand : v.command = 0x30)
    (hn : n < v.left)
    : Yields (Ready fuel (v.writing ptr n))
        (do
          let s ← get
          out16 timing (load16 s.memory (ptr + 2 * n)))
        fun _ s => Waits fuel (v.writing ptr (n + 1)) s ∧
          ((v.left - n - 1) % HALF_BLOCK_SIZE ≠ 0 → Ready fuel (v.writing ptr (n + 1)) s) := by
  intro s hs
  have htransfers : s.ata.Transfers 0x30 := by
    rw [← hcommand]
    exact hs.transfers (Nat.sub_ne_zero_of_lt hn)
  have hview := hs.view_eq
  have hword : load16 s.memory (ptr + 2 * n) = load16 v.memory (ptr + 2 * n) := by
    have hmemory : s.memory = v.memory := congrArg View.memory hview
    rw [hmemory]
  have hstorage : s.ata.storage = (v.writing ptr n).storage := congrArg View.storage hview
  have hposition : s.ata.position = (v.writing ptr n).position := congrArg View.position hview
  rw [get_bind_apply, out16_apply htransfers]
  refine ⟨(), _, rfl, ?_⟩
  rw [← View.writing_succ, hstorage, hposition, hword]
  exact (hs.put _).advance hfuel

theorem read_sectors_yields (hfuel : timing.Within fuel) (hcommand : v.command = 0x20)
    {sectors : Nat} (hleft : v.left = HALF_BLOCK_SIZE * sectors) (ptr : Nat)
    : Yields (Waits fuel v)
        ((List.range sectors).foldlM
          (fun target _ => do
            ATA_busy_wait fuel
            ATA_DRQ_wait fuel
            (List.range HALF_BLOCK_SIZE).forM fun j => do
              let word ← in16 timing
              modify fun s => { s with memory := store16 s.memory (target + 2 * j) word }
            return target + 2 * HALF_BLOCK_SIZE)
          ptr)
        fun _ => Waits fuel (v.reading ptr (HALF_BLOCK_SIZE * sectors)) := by
  apply Yields.consequence
    (P := fun s => ptr = ptr + 2 * (HALF_BLOCK_SIZE * 0) ∧
      Waits fuel (v.reading ptr (HALF_BLOCK_SIZE * 0)) s)
    (Q := fun target s => target = ptr + 2 * (HALF_BLOCK_SIZE * sectors) ∧
      Waits fuel (v.reading ptr (HALF_BLOCK_SIZE * sectors)) s)
  . apply Yields.foldlM_range
      (P := fun i target s => target = ptr + 2 * (HALF_BLOCK_SIZE * i) ∧
        Waits fuel (v.reading ptr (HALF_BLOCK_SIZE * i)) s)
    intro i hi target
    apply Yields.assuming
    intro htarget
    apply wait_yields
    apply Yields.bind
      (sector_yields (V := fun j => v.reading ptr (HALF_BLOCK_SIZE * i + j)) fun j hj => ?_)
    . intro _
      apply Yields.of_pure
      intro s hs
      refine ⟨?_, hs⟩
      rw [htarget, Nat.mul_succ, Nat.mul_add, ← Nat.add_assoc]
    . have hmod := word_mod hleft hi hj
      have haddress : target + 2 * j = ptr + 2 * (HALF_BLOCK_SIZE * i + j) := by
        rw [htarget, Nat.mul_add, Nat.add_assoc]
      rw [haddress]
      apply Yields.consequence (read_word_yields hfuel hcommand hmod.1)
      . intro s hs
        exact hs
      . intro _ s hs
        exact ⟨hs.1, fun hlt => hs.2 (hmod.2 hlt)⟩
  . intro s hs
    rw [Nat.mul_zero, View.reading_zero]
    exact ⟨rfl, hs⟩
  . intro _ s hs
    exact hs.2

theorem write_sectors_yields (hfuel : timing.Within fuel) (hcommand : v.command = 0x30)
    {sectors : Nat} (hleft : v.left = HALF_BLOCK_SIZE * sectors) (ptr : Nat)
    : Yields (Waits fuel v)
        ((List.range sectors).forM fun i => do
          ATA_busy_wait fuel
          ATA_DRQ_wait fuel
          (List.range HALF_BLOCK_SIZE).forM fun j => do
            let s ← get
            out16 timing (load16 s.memory (ptr + 2 * (HALF_BLOCK_SIZE * i + j))))
        fun _ => Waits fuel (v.writing ptr (HALF_BLOCK_SIZE * sectors)) := by
  apply Yields.consequence (P := fun s => Waits fuel (v.writing ptr (HALF_BLOCK_SIZE * 0)) s)
    (Q := fun _ s => Waits fuel (v.writing ptr (HALF_BLOCK_SIZE * sectors)) s)
  . apply Yields.forM_range
      (P := fun i s => Waits fuel (v.writing ptr (HALF_BLOCK_SIZE * i)) s)
    intro i hi
    apply wait_yields
    apply sector_yields (V := fun j => v.writing ptr (HALF_BLOCK_SIZE * i + j))
    intro j hj
    have hmod := word_mod hleft hi hj
    apply Yields.consequence (write_word_yields hfuel hcommand hmod.1)
    . intro s hs
      exact hs
    . intro _ s hs
      exact ⟨hs.1, fun hlt => hs.2 (hmod.2 hlt)⟩
  . intro s hs
    rw [Nat.mul_zero, View.writing_zero]
    exact hs
  . intro _ s hs
    exact hs

def View.requested (v : View) (logical_block_address : UInt32) (block_count command : UInt8)
    : View :=
  { v with
    command := command
    position := BLOCK_SIZE * DiskCmd.lba28 logical_block_address
    left := HALF_BLOCK_SIZE * block_count.toNat }

theorem words_bytes (block_count : Nat)
    : 2 * (HALF_BLOCK_SIZE * block_count) = BLOCK_SIZE * block_count := by
  have hhalf : HALF_BLOCK_SIZE = 256 := rfl
  have hwhole : BLOCK_SIZE = 512 := rfl
  rw [hhalf, hwhole]
  omega

structure Idle (fuel : Nat) (s : Machine) : Prop where
  left_eq : s.ata.left = 0
  busy_lt : s.ata.busy < fuel
  unready_lt : s.ata.unready < fuel

/--
With enough time, `read_blocks` delivers the blocks, and the disk stays as it is.
-/
theorem read_blocks_apply (hfuel : timing.Within fuel) {s : Machine} (h : Idle fuel s) (ptr : Nat)
    (logical_block_address : UInt32) {block_count : UInt8} (hcount : block_count ≠ 0)
    : ∃ s', read_blocks timing fuel ptr logical_block_address block_count s = some ((), s') ∧
        Idle fuel s' ∧ s'.ata.storage = s.ata.storage ∧
        s'.memory = Span.write s.memory ptr (BLOCK_SIZE * block_count.toNat) fun i =>
          s.ata.storage (BLOCK_SIZE * DiskCmd.lba28 logical_block_address + i) := by
  rcases request_yields hfuel (v := view s) h.left_eq hcount (Or.inl rfl) logical_block_address s
    ⟨rfl, h.busy_lt, h.unready_lt⟩ with ⟨⟨⟩, t, hrequest, ht⟩
  rcases read_sectors_yields hfuel
    (v := (view s).requested logical_block_address block_count 0x20) rfl rfl ptr t ht with
    ⟨target, s', hsectors, hs'⟩
  have hview := hs'.view_eq
  have hleft : s'.ata.left
      = HALF_BLOCK_SIZE * block_count.toNat - HALF_BLOCK_SIZE * block_count.toNat :=
    congrArg View.left hview
  have hmemory := congrArg View.memory hview
  unfold View.reading at hmemory
  dsimp only at hmemory
  rw [words_bytes] at hmemory
  refine ⟨s', ?_, ⟨?_, hs'.busy_lt, hs'.unready_lt⟩, congrArg View.storage hview, hmemory⟩
  . unfold read_blocks
    rw [bind_apply, hrequest, Option.bind_some, bind_apply, hsectors]
    rfl
  . rw [hleft, Nat.sub_self]

/--
With enough time, `write_blocks` leaves the blocks on the disk, and the memory stays as it is.
-/
theorem write_blocks_apply (hfuel : timing.Within fuel) {s : Machine} (h : Idle fuel s) (ptr : Nat)
    (logical_block_address : UInt32) {block_count : UInt8} (hcount : block_count ≠ 0)
    : ∃ s', write_blocks timing fuel ptr logical_block_address block_count s = some ((), s') ∧
        Idle fuel s' ∧ s'.memory = s.memory ∧
        s'.ata.storage = Span.write s.ata.storage
          (BLOCK_SIZE * DiskCmd.lba28 logical_block_address) (BLOCK_SIZE * block_count.toNat)
          fun i => s.memory (ptr + i) := by
  rcases request_yields hfuel (v := view s) h.left_eq hcount (Or.inr rfl) logical_block_address s
    ⟨rfl, h.busy_lt, h.unready_lt⟩ with ⟨⟨⟩, t, hrequest, ht⟩
  rcases write_sectors_yields hfuel
    (v := (view s).requested logical_block_address block_count 0x30) rfl rfl ptr t ht with
    ⟨⟨⟩, s', hsectors, hs'⟩
  have hview := hs'.view_eq
  have hleft : s'.ata.left
      = HALF_BLOCK_SIZE * block_count.toNat - HALF_BLOCK_SIZE * block_count.toNat :=
    congrArg View.left hview
  have hstorage := congrArg View.storage hview
  unfold View.writing at hstorage
  dsimp only at hstorage
  rw [words_bytes] at hstorage
  refine ⟨s', ?_, ⟨?_, hs'.busy_lt, hs'.unready_lt⟩, congrArg View.memory hview, hstorage⟩
  . unfold write_blocks
    rw [bind_apply, hrequest, Option.bind_some, hsectors]
  . rw [hleft, Nat.sub_self]

end

end Ata

end AiOS
