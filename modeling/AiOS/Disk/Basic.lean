import AiOS.Lib.Program

/-!
This module contains the disk behind `read_blocks` and `write_blocks` of `disk.c`: blocks of 512
bytes, addressed by the 28 bits of the block address that reach the ATA ports.
-/

namespace AiOS

abbrev Block : Type :=
  Fin 512 → UInt8

abbrev Blocks (block_count : Nat) : Type :=
  Fin block_count → Block

abbrev Disk : Type :=
  Nat → Block

inductive DiskCmd where
  | read_blocks (logical_block_address : UInt32) (block_count : Nat)
  | write_blocks (logical_block_address : UInt32) (block_count : Nat) (ptr : Blocks block_count)

namespace DiskCmd

def Ret : DiskCmd → Type
  | .read_blocks _ block_count => Blocks block_count
  | .write_blocks _ _ _ => Unit

/--
The device takes the low 28 bits of a block address: 24 from the ports 0x1F3 to 0x1F5, 4 from 0x1F6.
-/
def lba28 (logical_block_address : UInt32) : Nat :=
  logical_block_address.toNat % 2 ^ 28

end DiskCmd

namespace Disk

def blocks (d : Disk) (start block_count : Nat) : Blocks block_count :=
  fun i => d (start + i)

def writeBlock (d : Disk) (w : Nat × Block) : Disk :=
  fun x => if x = w.1 then w.2 else d x

def writeFirst {n : Nat} (d : Disk) (start b : Nat) (ptr : Blocks n) : Disk :=
  fun x =>
    if h : start ≤ x ∧ x < start + b ∧ x < start + n then
      ptr ⟨x - start, by omega⟩
    else
      d x

end Disk

/--
The disk as a device. A cut can fall between two blocks of one `write_blocks`.
-/
def diskDevice : Device Disk DiskCmd DiskCmd.Ret (Nat × Block) where
  answer cmd d :=
    match cmd with
    | .read_blocks lba n => d.blocks (DiskCmd.lba28 lba) n
    | .write_blocks _ _ _ => ()
  atoms cmd :=
    match cmd with
    | .read_blocks _ _ => []
    | .write_blocks lba n ptr =>
      (List.finRange n).map fun i => (DiskCmd.lba28 lba + i.val, ptr i)
  apply := Disk.writeBlock

abbrev DiskM (α : Type) : Type :=
  Prog DiskCmd DiskCmd.Ret α

def read_blocks (logical_block_address : UInt32) (block_count : Nat) : DiskM (Blocks block_count) :=
  Prog.request (DiskCmd.read_blocks logical_block_address block_count)

def write_blocks {block_count : Nat} (ptr : Blocks block_count) (logical_block_address : UInt32)
    : DiskM Unit :=
  Prog.request (DiskCmd.write_blocks logical_block_address block_count ptr)

namespace Disk

variable {n : Nat} (d : Disk) (start b : Nat) (ptr : Blocks n)

@[simp]
theorem writeFirst_zero : d.writeFirst start 0 ptr = d := by
  funext x
  unfold writeFirst
  rw [dif_neg (by omega)]

theorem writeFirst_succ (hb : b < n)
    : d.writeFirst start (b + 1) ptr
        =
      (d.writeFirst start b ptr).writeBlock (start + b, ptr ⟨b, hb⟩) := by
  funext x
  unfold writeFirst writeBlock
  dsimp
  split
  . split
    . next heq =>
      subst heq
      congr
      omega
    . rw [dif_pos (by omega)]
  . rw [if_neg (by omega), dif_neg (by omega)]

theorem writeFirst_of_le (hb : n ≤ b) : d.writeFirst start b ptr = d.writeFirst start n ptr := by
  funext x
  unfold writeFirst
  split
  . rw [dif_pos (by omega)]
  . rw [dif_neg (by omega)]

end Disk

section

variable (d : Disk) (lba : UInt32) (n : Nat) (ptr : Blocks n)

theorem length_atoms_write_blocks
    : (diskDevice.atoms (.write_blocks lba n ptr)).length = n := by
  simp [diskDevice]

theorem applyAll_write_blocks (b : Nat)
    : diskDevice.applyAll d ((diskDevice.atoms (.write_blocks lba n ptr)).take b)
        =
      d.writeFirst (DiskCmd.lba28 lba) b ptr := by
  induction b with
  | zero => simp [Device.applyAll]
  | succ b ih =>
    have hlen := length_atoms_write_blocks lba n ptr
    by_cases hb : b < n
    . rw [Disk.writeFirst_succ d _ b ptr hb, ← ih]
      rw [List.take_succ_eq_append_getElem (by omega)]
      rw [Device.applyAll_append]
      simp [diskDevice, Device.applyAll]
    . rw [Disk.writeFirst_of_le d _ _ ptr (by omega)]
      rw [Disk.writeFirst_of_le d _ _ ptr (by omega)] at ih
      rw [← ih]
      rw [List.take_of_length_le (by omega), List.take_of_length_le (by omega)]

theorem exec_write_blocks
    : diskDevice.exec (.write_blocks lba n ptr) d = d.writeFirst (DiskCmd.lba28 lba) n ptr := by
  have hlen := length_atoms_write_blocks lba n ptr
  unfold Device.exec
  rw [← applyAll_write_blocks]
  rw [List.take_of_length_le (by omega)]

variable {α : Type}

@[simp]
theorem run_read_blocks (f : Blocks n → DiskM α)
    : (read_blocks lba n >>= f).run diskDevice d
        =
      (f (d.blocks (DiskCmd.lba28 lba) n)).run diskDevice d := by
  rfl

@[simp]
theorem run_write_blocks (f : Unit → DiskM α)
    : (write_blocks ptr lba >>= f).run diskDevice d
        =
      (f ()).run diskDevice (d.writeFirst (DiskCmd.lba28 lba) n ptr) := by
  rw [← exec_write_blocks]
  rfl

theorem crash_read_blocks (b : Nat) (f : Blocks n → DiskM α)
    : (read_blocks lba n >>= f).crash diskDevice d b
        =
      (f (d.blocks (DiskCmd.lba28 lba) n)).crash diskDevice d b := by
  rfl

theorem crash_write_blocks_of_le {b : Nat} (hb : b ≤ n) (f : Unit → DiskM α)
    : (write_blocks ptr lba >>= f).crash diskDevice d b = d.writeFirst (DiskCmd.lba28 lba) b ptr := by
  rw [← applyAll_write_blocks]
  apply Prog.crash_call_of_le
  rw [length_atoms_write_blocks]
  exact hb

theorem crash_write_blocks_add (b : Nat) (f : Unit → DiskM α)
    : (write_blocks ptr lba >>= f).crash diskDevice d (n + b)
        =
      (f ()).crash diskDevice (d.writeFirst (DiskCmd.lba28 lba) n ptr) b := by
  have hcall := Prog.crash_call_add diskDevice (.write_blocks lba n ptr) b f d
  rw [length_atoms_write_blocks, exec_write_blocks] at hcall
  exact hcall

end

end AiOS
