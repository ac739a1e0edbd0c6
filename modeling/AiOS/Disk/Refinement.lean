import AiOS.Disk.Image

/-!
This module proves that the ports, and the image in memory, serve as the device of blocks on which
the file system works.
-/

namespace AiOS

open Ata Fallible

/--
A disk of blocks, and the memory that they are delivered to and taken from.
-/
structure BlockDevice where
  disk : Disk
  memory : Nat → UInt8

namespace BlockDevice

def disk_of (storage : Nat → UInt8) : Disk :=
  fun x j => storage (BLOCK_SIZE * x + j.val)

def blocks_at (memory : Nat → UInt8) (ptr block_count : Nat) : Blocks block_count :=
  fun i j => memory (ptr + (BLOCK_SIZE * i.val + j.val))

def bytes_of {block_count : Nat} (blocks : Blocks block_count) (i : Nat) : UInt8 :=
  if h : i / 512 < block_count then
    blocks ⟨i / 512, h⟩ ⟨i % 512, Nat.mod_lt i (by decide)⟩
  else
    0

/--
What a call does if the disk is the device of blocks.
-/
def serve (s : BlockDevice) (call : BlockCall) : BlockDevice :=
  let block_count := call.block_count.toNat
  match call.operation with
  | .read_blocks =>
    let blocks : Blocks block_count :=
      diskDevice.answer (.read_blocks call.logical_block_address block_count) s.disk
    { s with
      memory := Span.write s.memory call.ptr (BLOCK_SIZE * block_count) (bytes_of blocks) }
  | .write_blocks =>
    let blocks := blocks_at s.memory call.ptr block_count
    { s with
      disk := diskDevice.exec (.write_blocks call.logical_block_address block_count blocks) s.disk }

theorem write_bytes_of (memory storage : Nat → UInt8) (ptr first block_count : Nat)
    : Span.write memory ptr (BLOCK_SIZE * block_count)
          (bytes_of ((disk_of storage).blocks first block_count))
        =
      Span.write memory ptr (BLOCK_SIZE * block_count) fun i =>
        storage (BLOCK_SIZE * first + i) := by
  have hblock : BLOCK_SIZE = 512 := rfl
  apply Span.write_congr
  intro i hi
  rw [hblock] at hi
  unfold bytes_of Disk.blocks disk_of
  rw [dif_pos (by omega), hblock]
  dsimp only
  congr 1
  omega

theorem disk_of_write (storage src : Nat → UInt8) (first block_count : Nat)
    : disk_of
          (Span.write storage (BLOCK_SIZE * first) (BLOCK_SIZE * block_count) src)
        =
      (disk_of storage).writeFirst first block_count
        fun (i : Fin block_count) j => src (BLOCK_SIZE * i.val + j.val) := by
  have hblock : BLOCK_SIZE = 512 := rfl
  funext x j
  have hj := j.isLt
  unfold disk_of Span.write Disk.writeFirst
  by_cases hx : first ≤ x ∧ x < first + block_count
  . rw [dif_pos ⟨hx.1, hx.2, hx.2⟩, if_pos (by rw [hblock]; omega)]
    dsimp only
    congr 1
    rw [hblock]
    omega
  . rw [dif_neg (by omega), if_neg (by rw [hblock]; omega)]

def ofMachine (s : Machine) : BlockDevice :=
  ⟨disk_of s.ata.storage, s.memory⟩

def ofInserter (t : Inserter) : BlockDevice :=
  ⟨disk_of t.image_storage, t.memory⟩

theorem ofMachine_memory (s : Machine) : (ofMachine s).memory = s.memory := by
  rfl

theorem ofInserter_memory (t : Inserter) : (ofInserter t).memory = t.memory := by
  rfl

section

variable {timing : Timing} {fuel : Nat} {call : BlockCall} {calls : List BlockCall}

theorem port_serves (hfuel : timing.Within fuel) (hcount : call.block_count ≠ 0) {s : Machine}
    (hidle : Idle fuel s)
    : ∃ s', call.port timing fuel s = some ((), s') ∧ Idle fuel s' ∧
        ofMachine s' = serve (ofMachine s) call := by
  unfold BlockCall.port serve
  cases hop : call.operation with
  | read_blocks =>
    rcases read_blocks_apply hfuel hidle call.ptr call.logical_block_address hcount with
      ⟨s', hrun, hidle', hstorage, hmemory⟩
    refine ⟨s', hrun, hidle', ?_⟩
    unfold ofMachine
    dsimp only
    rw [hstorage, hmemory, ← write_bytes_of]
    rfl
  | write_blocks =>
    rcases write_blocks_apply hfuel hidle call.ptr call.logical_block_address hcount with
      ⟨s', hrun, hidle', hmemory, hstorage⟩
    refine ⟨s', hrun, hidle', ?_⟩
    unfold ofMachine
    dsimp only
    rw [hmemory, hstorage, disk_of_write, exec_write_blocks]
    rfl

theorem copy_serves (hwrap : call.Inside (2 ^ 23)) (t : Inserter)
    : ofInserter (BlockCall.copy t call) = serve (ofInserter t) call := by
  have haddress : DiskCmd.lba28 call.logical_block_address = call.logical_block_address.toNat := by
    have hend := hwrap.end_le
    unfold DiskCmd.lba28
    omega
  unfold BlockCall.copy serve ofInserter
  cases hop : call.operation with
  | read_blocks =>
    dsimp only
    rw [Inserter.read_blocks_memory hwrap.end_le, ← write_bytes_of, ← haddress]
    rfl
  | write_blocks =>
    dsimp only
    rw [Inserter.write_blocks_image hwrap.end_le, disk_of_write, exec_write_blocks, haddress]
    rfl

end
end BlockDevice

open BlockDevice

/--
Any calls of the functions at the ports end, deliver what the device of blocks delivers, and leave
what it leaves. So do those of the inserter, inside the first 4 GiB.
-/
theorem block_device_served {timing : Timing} {fuel : Nat} (hfuel : timing.Within fuel)
    {calls : List BlockCall} (hcount : ∀ call ∈ calls, call.block_count ≠ 0) {s : Machine}
    (hidle : Idle fuel s) (t : Inserter)
    : (∃ s', calls.forM (BlockCall.port timing fuel) s = some ((), s') ∧ Idle fuel s' ∧
          ofMachine s' = calls.foldl serve (ofMachine s)) ∧
        ((∀ call ∈ calls, call.Inside (2 ^ 23)) →
          ofInserter (calls.foldl BlockCall.copy t) = calls.foldl serve (ofInserter t)) := by
  constructor
  . induction calls generalizing s with
    | nil => exact ⟨s, rfl, hidle, rfl⟩
    | cons call calls ih =>
      rw [List.forall_mem_cons] at hcount
      rcases port_serves hfuel hcount.1 hidle with ⟨u, hfirst, hidle', hserved⟩
      rcases ih hcount.2 hidle' with ⟨s', hrest, hlast, hall⟩
      refine ⟨s', ?_, hlast, ?_⟩
      . rw [List.forM_eq_forM] at hrest ⊢
        rw [List.forM_cons, bind_apply, hfirst]
        exact hrest
      . rw [hall, hserved]
        rfl
  . intro hwrap
    clear hcount
    induction calls generalizing t with
    | nil => rfl
    | cons call calls ih =>
      rw [List.forall_mem_cons] at hwrap
      rw [List.foldl_cons, List.foldl_cons, ih _ hwrap.2, copy_serves hwrap.1]

def new_image : Inserter :=
  ⟨fun a => UInt8.ofNat a, fun _ => 0⟩

def there_and_back : List BlockCall :=
  [⟨.write_blocks, 100, 8000, 2⟩, ⟨.read_blocks, 0x20000, 8001, 1⟩]

-- the second block that was written is read back to another place
theorem block_device_served_boot
    : ∃ s', there_and_back.forM (BlockCall.port slow 4) (Machine.boot fun _ => 0) = some ((), s') ∧
        s'.memory (0x20000 + 7) = 100 + 7 ∧
        (there_and_back.foldl BlockCall.copy new_image).memory (0x20000 + 7) = 100 + 7 := by
  have hcount : ∀ call ∈ there_and_back, call.block_count ≠ 0 := by decide
  have hwrap : ∀ call ∈ there_and_back, call.Inside (2 ^ 23) := by
    rw [there_and_back, List.forall_mem_cons, List.forall_mem_singleton]
    exact ⟨⟨by decide, by decide⟩, ⟨by decide, by decide⟩⟩
  have hbyte : (there_and_back.foldl serve (ofInserter new_image)).memory (0x20000 + 7)
      = 100 + 7 := by
    decide +kernel
  rcases block_device_served slow_within hcount (Machine.boot_idle fun _ => 0) new_image with
    ⟨⟨s', hrun, _, hports⟩, himage⟩
  have hstart : ofMachine (Machine.boot fun _ => 0) = ofInserter new_image := rfl
  rw [hstart] at hports
  refine ⟨s', hrun, ?_, ?_⟩
  . rw [← hports, ofMachine_memory] at hbyte
    exact hbyte
  . rw [← himage hwrap, ofInserter_memory] at hbyte
    exact hbyte

end AiOS
