import AiOS.Disk.Ata

/-!
This module contains `read_blocks` and `write_blocks` of `external-inserter.c`, which copy from and to
the image of the disk in memory, and their agreement with those of `disk.c`.
-/

namespace AiOS

open Ata Fallible

/--
The inserter: its memory, and the image of the disk.
-/
structure Inserter where
  memory : Nat → UInt8
  image_storage : Nat → UInt8

namespace Inserter

def memcpy (dstbuf : Nat → UInt8) (dest : Nat) (srcbuf : Nat → UInt8) (src n : Nat) : Nat → UInt8 :=
  (List.range n).foldl (fun dstbuf i => Function.update dstbuf (dest + i) (srcbuf (src + i))) dstbuf

-- `BLOCK_SIZE*(logical_block_address+i)`, a product of 32 bits
def offset (logical_block_address : UInt32) (i : Nat) : Nat :=
  (UInt32.ofNat BLOCK_SIZE * (logical_block_address + UInt32.ofNat i)).toNat

def read_blocks (ptr : Nat) (logical_block_address : UInt32) (block_count : UInt8) (t : Inserter)
    : Inserter :=
  { t with
    memory :=
      (List.range block_count.toNat).foldl
        (fun memory i =>
          memcpy memory (ptr + BLOCK_SIZE * i) t.image_storage (offset logical_block_address i)
            BLOCK_SIZE)
        t.memory }

def write_blocks (ptr : Nat) (logical_block_address : UInt32) (block_count : UInt8) (t : Inserter)
    : Inserter :=
  { t with
    image_storage :=
      (List.range block_count.toNat).foldl
        (fun image_storage i =>
          memcpy image_storage (offset logical_block_address i) t.memory (ptr + BLOCK_SIZE * i)
            BLOCK_SIZE)
        t.image_storage }

theorem offset_eq {logical_block_address : UInt32} {i : Nat}
    (h : logical_block_address.toNat + i < 2 ^ 23)
    : offset logical_block_address i = BLOCK_SIZE * logical_block_address.toNat + BLOCK_SIZE * i := by
  have hblock : BLOCK_SIZE = 512 := rfl
  unfold offset
  rw [UInt32.toNat_mul, UInt32.toNat_add, UInt32.toNat_ofNat', UInt32.toNat_ofNat', hblock]
  omega

theorem memcpy_eq (dstbuf : Nat → UInt8) (dest : Nat) (srcbuf : Nat → UInt8) (src n : Nat)
    : memcpy dstbuf dest srcbuf src n = Span.write dstbuf dest n fun i => srcbuf (src + i) := by
  unfold memcpy
  apply Span.foldl_update

variable {logical_block_address : UInt32} {block_count : UInt8}

theorem read_blocks_memory (h : logical_block_address.toNat + block_count.toNat ≤ 2 ^ 23)
    (ptr : Nat) (t : Inserter)
    : (t.read_blocks ptr logical_block_address block_count).memory
        =
      Span.write t.memory ptr (BLOCK_SIZE * block_count.toNat) fun i =>
        t.image_storage (BLOCK_SIZE * logical_block_address.toNat + i) := by
  rw [← Span.foldl_write]
  unfold read_blocks
  apply List.foldl_ext
  intro memory i hi
  rw [List.mem_range] at hi
  rw [memcpy_eq, offset_eq (by omega)]
  simp only [Nat.add_assoc]

theorem write_blocks_image (h : logical_block_address.toNat + block_count.toNat ≤ 2 ^ 23)
    (ptr : Nat) (t : Inserter)
    : (t.write_blocks ptr logical_block_address block_count).image_storage
        =
      Span.write t.image_storage (BLOCK_SIZE * logical_block_address.toNat)
        (BLOCK_SIZE * block_count.toNat) fun i => t.memory (ptr + i) := by
  rw [← Span.foldl_write]
  unfold write_blocks
  apply List.foldl_ext
  intro image i hi
  rw [List.mem_range] at hi
  rw [memcpy_eq, offset_eq (by omega)]
  simp only [Nat.add_assoc]

end Inserter

inductive BlockOperation where
  | read_blocks
  | write_blocks

structure BlockCall where
  operation : BlockOperation
  ptr : Nat
  logical_block_address : UInt32
  block_count : UInt8

namespace BlockCall

def port (timing : Timing) (fuel : Nat) (call : BlockCall) : AtaM Unit :=
  match call.operation with
  | .read_blocks =>
    Ata.read_blocks timing fuel call.ptr call.logical_block_address call.block_count
  | .write_blocks =>
    Ata.write_blocks timing fuel call.ptr call.logical_block_address call.block_count

def copy (t : Inserter) (call : BlockCall) : Inserter :=
  match call.operation with
  | .read_blocks => t.read_blocks call.ptr call.logical_block_address call.block_count
  | .write_blocks => t.write_blocks call.ptr call.logical_block_address call.block_count

structure Inside (blocks : Nat) (call : BlockCall) : Prop where
  count_ne : call.block_count ≠ 0
  end_le : call.logical_block_address.toNat + call.block_count.toNat ≤ blocks

end BlockCall

structure Coincides (blocks : Nat) (s : Machine) (t : Inserter) : Prop where
  memory_eq : s.memory = t.memory
  storage_eq : ∀ a < BLOCK_SIZE * blocks, s.ata.storage a = t.image_storage a

section

variable {timing : Timing} {fuel blocks : Nat} {s : Machine} {t : Inserter}

theorem BlockCall.step (hfuel : timing.Within fuel) {call : BlockCall} (hdisk : call.Inside blocks)
    (hwrap : call.Inside (2 ^ 23)) (hidle : Idle fuel s) (h : Coincides blocks s t)
    : ∃ s', call.port timing fuel s = some ((), s') ∧ Idle fuel s' ∧
        Coincides blocks s' (BlockCall.copy t call) := by
  have haddress : DiskCmd.lba28 call.logical_block_address = call.logical_block_address.toNat := by
    have hend := hwrap.end_le
    unfold DiskCmd.lba28
    omega
  unfold BlockCall.port BlockCall.copy
  cases hop : call.operation with
  | read_blocks =>
    rcases read_blocks_apply hfuel hidle call.ptr call.logical_block_address hdisk.count_ne with
      ⟨s', hrun, hidle', hstorage, hmemory⟩
    refine ⟨s', hrun, hidle', ?_, ?_⟩
    . dsimp only
      rw [hmemory, haddress, h.memory_eq, Inserter.read_blocks_memory hwrap.end_le]
      apply Span.write_congr
      intro i hi
      apply h.storage_eq
      have hle := Nat.mul_le_mul_left BLOCK_SIZE hdisk.end_le
      rw [Nat.mul_add] at hle
      omega
    . rw [hstorage]
      exact h.storage_eq
  | write_blocks =>
    rcases write_blocks_apply hfuel hidle call.ptr call.logical_block_address hdisk.count_ne with
      ⟨s', hrun, hidle', hmemory, hstorage⟩
    refine ⟨s', hrun, hidle', ?_, ?_⟩
    . rw [hmemory]
      exact h.memory_eq
    . intro a ha
      dsimp only
      rw [hstorage, haddress, h.memory_eq, Inserter.write_blocks_image hwrap.end_le]
      unfold Span.write
      split
      . rfl
      . exact h.storage_eq a ha

/--
In every sequence of calls inside the disk, and inside the first 4 GiB of it, the ports and the image
deliver the same and are left the same.
-/
theorem back_ends_agree (hfuel : timing.Within fuel) {calls : List BlockCall}
    (hdisk : ∀ call ∈ calls, call.Inside blocks) (hwrap : ∀ call ∈ calls, call.Inside (2 ^ 23))
    (hidle : Idle fuel s) (h : Coincides blocks s t)
    : ∃ s', calls.forM (BlockCall.port timing fuel) s = some ((), s') ∧ Idle fuel s' ∧
        Coincides blocks s' (calls.foldl BlockCall.copy t) := by
  induction calls generalizing s t with
  | nil => exact ⟨s, rfl, hidle, h⟩
  | cons call calls ih =>
    rw [List.forall_mem_cons] at hdisk hwrap
    rcases BlockCall.step hfuel hdisk.1 hwrap.1 hidle h with ⟨u, hfirst, hidle', h'⟩
    rcases ih hdisk.2 hwrap.2 hidle' h' with ⟨s', hrest, hlast⟩
    refine ⟨s', ?_, hlast⟩
    rw [List.forM_eq_forM] at hrest ⊢
    rw [List.forM_cons, bind_apply, hfirst]
    exact hrest

end

def slow : Timing where
  busy _ := 3
  unready _ := 2

def Machine.boot (storage : Nat → UInt8) : Machine where
  memory a := UInt8.ofNat a
  ata :=
    { storage := storage
      sector_count := 0
      lba_low := 0
      lba_mid := 0
      lba_high := 0
      drive := 0
      command := 0
      position := 0
      left := 0
      busy := 0
      unready := 0
      events := 0 }

theorem slow_within : slow.Within 4 := by
  intro n
  exact ⟨Nat.lt_succ_self 3, Nat.lt_of_lt_of_le (Nat.lt_succ_self 2) (Nat.le_succ 3)⟩

theorem Machine.boot_idle (storage : Nat → UInt8) : Idle 4 (Machine.boot storage) := by
  exact ⟨rfl, Nat.zero_lt_succ 3, Nat.zero_lt_succ 3⟩

theorem back_ends_agree_boot
    : let calls : List BlockCall := [⟨.write_blocks, 100, 8000, 192⟩, ⟨.read_blocks, 0x20000, 7999, 2⟩]
      ∃ s', calls.forM (BlockCall.port slow 4) (Machine.boot fun _ => 0) = some ((), s') ∧
        Idle 4 s' ∧
        Coincides 8192 s' (calls.foldl BlockCall.copy ⟨(fun a => UInt8.ofNat a), fun _ => 0⟩) := by
  apply back_ends_agree slow_within
  . rw [List.forall_mem_cons, List.forall_mem_singleton]
    exact ⟨⟨by decide, by decide⟩, ⟨by decide, by decide⟩⟩
  . rw [List.forall_mem_cons, List.forall_mem_singleton]
    exact ⟨⟨by decide, by decide⟩, ⟨by decide, by decide⟩⟩
  . apply Machine.boot_idle
  . exact ⟨rfl, fun _ _ => rfl⟩

-- the block at 4 GiB, for which the inserter takes the first one
theorem not_back_ends_agree
    : ¬ ∀ (timing : Timing) (fuel blocks : Nat) (calls : List BlockCall) (s : Machine) (t : Inserter),
        timing.Within fuel → (∀ call ∈ calls, call.Inside blocks ∧ call.Inside (2 ^ 28)) →
        Idle fuel s → Coincides blocks s t →
        ∃ s', calls.forM (BlockCall.port timing fuel) s = some ((), s') ∧
          Coincides blocks s' (calls.foldl BlockCall.copy t) := by
  intro h
  let storage : Nat → UInt8 := fun a => if a = 2 ^ 32 then 1 else 0
  let call : BlockCall := ⟨.read_blocks, 0, 2 ^ 23, 1⟩
  have hidle := Machine.boot_idle storage
  have hinside : ∀ call' ∈ [call], call'.Inside (2 ^ 23 + 1) ∧ call'.Inside (2 ^ 28) := by
    rw [List.forall_mem_singleton]
    exact ⟨⟨by decide, by decide⟩, ⟨by decide, by decide⟩⟩
  rcases h slow 4 (2 ^ 23 + 1) [call] (Machine.boot storage) ⟨(fun a => UInt8.ofNat a), storage⟩
    slow_within hinside hidle ⟨rfl, fun _ _ => rfl⟩ with ⟨s', hrun, hsame⟩
  have hone : (1 : UInt8) ≠ 0 := by decide
  rcases read_blocks_apply slow_within hidle 0 (2 ^ 23) hone with ⟨u, hport, _, _, hmemory⟩
  have hcall : [call].forM (BlockCall.port slow 4) (Machine.boot storage) = some ((), u) := by
    rw [List.forM_eq_forM, List.forM_cons, bind_apply]
    change (Ata.read_blocks slow 4 0 (2 ^ 23) 1 (Machine.boot storage)).bind _ = _
    rw [hport]
    rfl
  rw [hcall, Option.some.injEq, Prod.mk.injEq] at hrun
  have hread : u.memory 0 = 1 := by
    rw [hmemory]
    rfl
  have hcopy : (BlockCall.copy ⟨(fun a => UInt8.ofNat a), storage⟩ call).memory 0 = 0 := by
    have hoffset : Inserter.offset (2 ^ 23) 0 = 0 := by decide
    have hrange : List.range (1 : UInt8).toNat = [0] := by decide
    have hfirst := Span.write_of_mem (fun a => UInt8.ofNat a) 0
      (fun i => storage (Inserter.offset (2 ^ 23) 0 + i)) (n := BLOCK_SIZE) (i := 0) (by decide)
    unfold BlockCall.copy Inserter.read_blocks
    dsimp only [call]
    rw [hrange, List.foldl_cons, List.foldl_nil, Inserter.memcpy_eq, hoffset]
    rw [hoffset] at hfirst
    exact hfirst
  have hboth := congrFun hsame.memory_eq 0
  rw [← hrun.2, hread] at hboth
  have hzero : (1 : UInt8) = 0 := hboth.trans hcopy
  revert hzero
  decide

end AiOS
