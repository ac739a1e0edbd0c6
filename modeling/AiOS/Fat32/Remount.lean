import AiOS.Fat32.Run

/-!
This module contains what a driver leaves behind for the next one: the boot sector keeps its
signature and cluster 1 the file allocation table of the driver state, so that a driver that mounts
the disk afresh behaves like the one before it.
-/

namespace AiOS

namespace Disk

def Signed (d : Disk) : Prop :=
  d.cluster 0 0 = fs_signature

theorem signed_congr {d d' : Disk} (h : d'.cluster 0 = d.cluster 0) : d'.Signed ↔ d.Signed := by
  unfold Signed
  rw [h]

theorem attribute_table_one (d : Disk)
    : (d.table 1 0).attribute = LittleEndian.byte (d.fat 2).toNat 3 := by
  unfold fat FAT32FileAllocationTable.ofCluster
  rw [LittleEndian.byte_toUInt32_three]
  rfl

theorem Signed.attribute_table_zero {d : Disk} (h : d.Signed) : (d.table 0 0).attribute = 0x20 := by
  have hbyte : (d.table 0 0).attribute = d.cluster 0 0 11 := rfl
  rw [hbyte, h]
  decide

theorem user_attribute_table (d : Disk) (c : Nat) (i : Fin 64)
    : (d.table c i).user_attribute = (d.cluster c).byte ⟨32 * i + 12, by omega⟩ := by
  rfl

theorem fs_signature_user_attribute
    : ∀ i : Fin 16, fs_signature ⟨32 * i + 12, by omega⟩ ≠ UATTR_NOT_EMPTY := by
  decide

theorem Signed.user_attribute_table_zero {d : Disk} (h : d.Signed) {i : Fin 64} (hi : i.val < 16)
    : (d.table 0 i).user_attribute ≠ UATTR_NOT_EMPTY := by
  have hblock : (32 * i.val + 12) / 512 = 0 := by omega
  have hoffset : (32 * i.val + 12) % 512 = 32 * i.val + 12 := by omega
  have hbyte : (d.table 0 i).user_attribute = d.cluster 0 0 ⟨32 * i + 12, by omega⟩ := by
    rw [user_attribute_table]
    unfold ClusterBuffer.byte
    simp only [hblock, hoffset]
    rfl
  rw [hbyte, h]
  exact fs_signature_user_attribute ⟨i, hi⟩

end Disk

theorem run_initialize_of_not_signed {d : Disk} (h : ¬ d.Signed)
    (driver_state : FAT32DriverState) (after_literal : Fin 3 → UInt8)
    : (initialize_filesystem_fat32 driver_state after_literal).run diskDevice d
        =
      (create_fat32 driver_state after_literal).run diskDevice d := by
  have hblock : d.blocks 0 1 0 ≠ fs_signature := h
  have hlba : DiskCmd.lba28 0 = 0 := rfl
  unfold initialize_filesystem_fat32 is_empty_storage
  rw [Prog.run_bind, run_read_blocks, hlba]
  simp only [Prog.pure_eq, Prog.run_pure, Option.bind_some, ne_eq, memcmp_eq_zero_iff]
  rw [if_pos (by simpa using hblock)]

theorem FAT32DirectoryTable.toCluster_update_zero (t : FAT32DirectoryTable) {i : Fin 64}
    (hi : 16 ≤ i.val) (entry : FAT32DirectoryEntry)
    : toCluster (Function.update t i entry) 0 = toCluster t 0 := by
  funext o
  unfold toCluster ClusterBuffer.ofBytes
  dsimp only
  rw [Function.update_of_ne]
  rw [ne_eq, Fin.ext_iff]
  have ho := o.isLt
  simp only [Fin.val_zero]
  omega

/--
The driver state agrees with the disk. In a file system that was formatted for it, the entry 2 of
the file allocation table never takes the bytes of a directory's header.
-/
structure Mounted (formatted : Prop) (s : FAT32DriverState × Disk) : Prop where
  signed : s.2.Signed
  cache : s.1.fat_table = s.2.fat
  root : formatted → s.2.fat 2 = FAT32_FAT_END_OF_FILE ∨ s.2.fat 2 = FAT32_FAT_EMPTY_ENTRY

/--
No write goes into cluster 1, which a signed disk may list as a directory.
-/
def Operation.SparesFat : Operation → Prop
  | .write _ _ request => request.parent ≠ 1
  | .read _ => True
  | .read_directory _ => True
  | .delete _ _ => True

namespace Mounted

variable {formatted : Prop} {s s' : FAT32DriverState × Disk}

theorem of_create (h : driver.init s) : Mounted formatted s := by
  rcases h with ⟨driver_state, after_literal, d, hrun⟩
  rw [create_fat32.run_create_fat32, Option.some.injEq] at hrun
  rw [← hrun]
  refine { signed := create_fat32.created_cluster_zero _ _ _, cache := ?_, root := ?_ }
  . exact (create_fat32.created_fat _ _ _).symm
  . intro _
    rw [create_fat32.created_fat]
    exact Or.inl rfl

theorem of_initialize {driver_state : FAT32DriverState} {after_literal : Fin 3 → UInt8} {d : Disk}
    (h : (initialize_filesystem_fat32 driver_state after_literal).run diskDevice d = some s)
    : Mounted (¬ d.Signed) s := by
  by_cases hsigned : d.Signed
  . rw [run_initialize_filesystem_fat32 hsigned, Option.some.injEq] at h
    rw [← h]
    exact { signed := hsigned, cache := rfl, root := fun hnot => absurd hsigned hnot }
  . rw [run_initialize_of_not_signed hsigned] at h
    apply of_create
    exact ⟨driver_state, after_literal, d, h⟩

theorem not_parent_ok_zero (h : Mounted formatted s) : ¬ write.parent_ok (s.2.table 0) := by
  intro hparent
  have hattribute := hparent.2
  rw [h.signed.attribute_table_zero] at hattribute
  contradiction

theorem not_parent_ok_one (h : Mounted formatted s) (hformatted : formatted)
    : ¬ write.parent_ok (s.2.table 1) := by
  intro hparent
  have hattribute := hparent.2
  rw [Disk.attribute_table_one] at hattribute
  cases h.root hformatted with
  | inl hend =>
    rw [hend] at hattribute
    contradiction
  | inr hempty =>
    rw [hempty] at hattribute
    contradiction

theorem of_same_disk {driver_state st : FAT32DriverState} {d : Disk}
    (h : Mounted formatted (driver_state, d))
    (hfat : st.fat_table = driver_state.fat_table ∨ st.fat_table = d.fat)
    : Mounted formatted (st, d) where
  signed := h.signed
  cache := by
    cases hfat with
    | inl hold => exact hold.trans h.cache
    | inr hnew => exact hnew
  root := h.root

section

variable {driver_state st : FAT32DriverState} {request : FAT32DriverRequest} {d d' : Disk}
  {code : Int} (h : Mounted formatted (driver_state, d))

include h

theorem of_committed {memory : UInt32 → UInt8} {newDirectoryTable : FAT32DirectoryTable}
    {i : Fin 64} {cs : List (Fin 512)} (hch : write.Chosen request d i cs)
    (hparent : write.parent_ok (d.table request.parent))
    (hspares : ¬ formatted → request.parent ≠ 1)
    : Mounted formatted (⟨write.link cs d.fat, write.new_table request d i cs⟩,
        write.committed memory newDirectoryTable request d i cs) := by
  have hzero : request.parent ≠ 0 := by
    intro heq
    rw [heq] at hparent
    exact h.not_parent_ok_zero hparent
  have hone : request.parent ≠ 1 := by
    by_cases hformatted : formatted
    . intro heq
      rw [heq] at hparent
      exact h.not_parent_ok_one hformatted hparent
    . exact hspares hformatted
  have hdata : ∀ c ∈ numbers cs, 3 ≤ c := fun c hc => (hch.isData c hc).1
  have hfat : (write.committed memory newDirectoryTable request d i cs).fat
      = write.link cs d.fat := by
    unfold write.committed Disk.fat
    rw [Disk.cluster_writeCluster_of_ne _ _ hone.symm, Disk.cluster_writeCluster_self]
    apply FAT32FileAllocationTable.ofCluster_toCluster
  refine { signed := ?_, cache := hfat.symm, root := ?_ }
  . apply (Disk.signed_congr _).mpr h.signed
    unfold write.committed
    rw [Disk.cluster_writeCluster_of_ne _ _ hzero.symm]
    rw [Disk.cluster_writeCluster_of_ne _ _ (by omega)]
    apply Disk.cluster_writeClusters_of_not_mem
    intro hmem
    have := hdata 0 hmem
    omega
  . intro hformatted
    dsimp only
    rw [hfat, write.link_of_not_mem]
    . exact h.root hformatted
    . intro hmem
      have := hdata 2 (mem_numbers.mpr hmem)
      omega

theorem of_write {memory : UInt32 → UInt8} {newDirectoryTable : FAT32DirectoryTable}
    (hspares : ¬ formatted → request.parent ≠ 1)
    (hrun : (write driver_state memory newDirectoryTable request).run diskDevice d
      = some ((code, st), d'))
    : Mounted formatted (st, d') := by
  cases write.run_cases _ _ _ _ _ hrun with
  | inl hfail =>
    rcases hfail with ⟨_, rfl, rfl⟩
    apply h.of_same_disk (Or.inr rfl)
  | inr hcommit =>
    rcases hcommit with ⟨i, cs, _, hparent, hsearch, rfl, rfl⟩
    apply h.of_committed (write.chosen_of_search hsearch) hparent hspares

theorem signed_dead_table {i : Fin 64} (hlive : (d.table request.parent i).user_attribute
      = UATTR_NOT_EMPTY)
    : (d.writeCluster request.parent (delete.dead_table request d i).toCluster).Signed := by
  by_cases hzero : request.parent = 0
  . have hi : 16 ≤ i.val := by
      by_contra hlt
      rw [hzero] at hlive
      exact h.signed.user_attribute_table_zero (by omega) hlive
    unfold delete.dead_table Disk.Signed
    rw [hzero, Disk.cluster_writeCluster_self]
    rw [FAT32DirectoryTable.toCluster_update_zero _ hi]
    unfold Disk.table
    rw [FAT32DirectoryTable.toCluster_ofCluster]
    exact h.signed
  . apply (Disk.signed_congr _).mpr h.signed
    apply Disk.cluster_writeCluster_of_ne _ _ (Ne.symm hzero)

theorem of_delete {dirTable : FAT32DirectoryTable}
    (hrun : (delete driver_state dirTable request).run diskDevice d = some ((code, st), d'))
    : Mounted formatted (st, d') := by
  cases delete.run_cases _ _ _ _ hrun with
  | inl hfail =>
    rcases hfail with ⟨_, hfat, rfl⟩
    apply h.of_same_disk (Or.inl hfat)
  | inr hdelete =>
    rcases hdelete with ⟨i, cs, _, hsearched, _, _, rfl, rfl⟩
    have hhit := (delete.hit_of_searched _ _ hsearched).2
    have hcache : driver_state.fat_table = d.fat := h.cache
    have hfat : (delete.deleted request d i driver_state.fat_table cs).fat
        = delete.clear cs d.fat := by
      rw [hcache]
      apply delete.fat_deleted
    refine { signed := ?_, cache := ?_, root := ?_ }
    . apply (Disk.signed_congr _).mpr (h.signed_dead_table hhit.1)
      unfold delete.deleted
      rw [Disk.cluster_writeCluster_of_ne _ _ (by omega)]
    . rw [hfat, ← hcache]
    . intro hformatted
      dsimp only
      rw [hfat, delete.clear_apply]
      split
      . exact Or.inr rfl
      . exact h.root hformatted

end

theorem of_step {op : Operation} (h : Mounted formatted s) (hok : ¬ formatted → op.SparesFat)
    (hstep : driver.step s op s')
    : Mounted formatted s' := by
  rcases s with ⟨driver_state, d⟩
  rcases s' with ⟨driver_state', d'⟩
  rcases hstep with ⟨_, code, hrun⟩
  dsimp only at hrun
  cases op with
  | write memory newDirectoryTable request => apply h.of_write hok hrun
  | read request =>
    have hcases := Operation.read_cases hrun
    rw [hcases.1]
    apply h.of_same_disk hcases.2
  | read_directory request =>
    have hcases := Operation.read_directory_cases hrun
    rw [hcases.1]
    apply h.of_same_disk (Or.inl hcases.2)
  | delete dirTable request => apply h.of_delete hrun

end Mounted

namespace Operation

def serve (driver_state : FAT32DriverState)
    : Operation → DiskM (Int × FAT32DriverState × List ClusterBuffer)
  | .write memory newDirectoryTable request => do
    let (code, driver_state) ← AiOS.write driver_state memory newDirectoryTable request
    return (code, driver_state, [])
  | .read request => AiOS.read driver_state request
  | .read_directory request => AiOS.read_directory driver_state request
  | .delete dirTable request => do
    let (code, driver_state) ← AiOS.delete driver_state dirTable request
    return (code, driver_state, [])

-- no operation looks at `dir_table_buf` before it has loaded it
theorem serve_congr {driver_state driver_state' : FAT32DriverState}
    (h : driver_state'.fat_table = driver_state.fat_table) (op : Operation)
    : op.serve driver_state' = op.serve driver_state := by
  rcases driver_state with ⟨fat_table, dir_table_buf⟩
  rcases driver_state' with ⟨fat_table', dir_table_buf'⟩
  have h : fat_table' = fat_table := h
  rw [h]
  cases op with
  | write memory newDirectoryTable request => rfl
  | read request => rfl
  | read_directory request => rfl
  | delete dirTable request => rfl

end Operation

/--
What the callers see of the operations, one after the other: the code, the delivered buffer and the
disk afterwards. The list ends early at an operation that leaves the model.
-/
def observe (s : FAT32DriverState × Disk) : List Operation → List (Int × List ClusterBuffer × Disk)
  | [] => []
  | op :: ops =>
    match (op.serve s.1).run diskDevice s.2 with
    | none => []
    | some ((code, driver_state, delivered), d) =>
      (code, delivered, d) :: observe (driver_state, d) ops

theorem observe_congr {s : FAT32DriverState × Disk} {driver_state : FAT32DriverState}
    (h : driver_state.fat_table = s.1.fat_table) (ops : List Operation)
    : observe (driver_state, s.2) ops = observe s ops := by
  cases ops with
  | nil => rfl
  | cons op ops =>
    unfold observe
    rw [Operation.serve_congr h]

/--
A driver that mounts the disk in the middle of a run does not format it, and whatever is asked of it
from then on, it answers like the driver of the run.
-/
theorem remount_invisible {driver_state : FAT32DriverState} {after_literal : Fin 3 → UInt8}
    {d : Disk} {s₀ s : FAT32DriverState × Disk}
    (hinit : (initialize_filesystem_fat32 driver_state after_literal).run diskDevice d = some s₀)
    (hrun : driver.Leads (fun _ op => d.Signed → op.SparesFat) s₀ s)
    : s.1.fat_table = s.2.fat ∧ s.2.Signed ∧
        ∀ driver_state' after_literal', ∃ st,
          (initialize_filesystem_fat32 driver_state' after_literal').run diskDevice s.2
              = some (st, s.2) ∧
            ∀ ops, observe (st, s.2) ops = observe s ops := by
  have hmounted : Mounted (¬ d.Signed) s := by
    apply hrun.invariant (Mounted.of_initialize hinit)
    intro s op s' hs hok hstep
    apply hs.of_step _ hstep
    rw [not_not]
    exact hok
  refine ⟨hmounted.cache, hmounted.signed, ?_⟩
  intro driver_state' after_literal'
  refine ⟨_, run_initialize_filesystem_fat32 hmounted.signed driver_state' after_literal', ?_⟩
  intro ops
  apply observe_congr hmounted.cache.symm

namespace crafted

-- as a directory table, the header of a directory
def fat_table : FAT32FileAllocationTable :=
  fun i =>
    if i = 0 then
      CLUSTER_0_VALUE
    else if i = 1 then
      CLUSTER_1_VALUE
    else if i = 2 then
      0x10000000
    else if i = 3 then
      0x000000AA
    else
      FAT32_FAT_EMPTY_ENTRY

def root_entry : FAT32DirectoryEntry :=
  { FAT32DirectoryEntry.zero with
    «attribute» := ATTR_SUBDIRECTORY
    user_attribute := UATTR_NOT_EMPTY
    cluster_low := 1 }

def root_table : FAT32DirectoryTable :=
  Function.update (create_fat32.dir_table_buf .zero (fun _ => 0)) 2 root_entry

/--
A signed disk, the root directory of which lists cluster 1 as a directory.
-/
def disk : Disk :=
  (fresh.writeCluster 1 fat_table.toCluster).writeCluster 2 root_table.toCluster

def request : FAT32DriverRequest :=
  { write.small with parent_cluster_number := 1 }

theorem disk_signed : disk.Signed := by
  unfold disk Disk.Signed
  rw [Disk.cluster_writeCluster_of_ne _ _ (by decide)]
  rw [Disk.cluster_writeCluster_of_ne _ _ (by decide)]
  apply create_fat32.created_cluster_zero

theorem disk_directory : disk.Directory 1 := by
  have htable : disk.table 2 = root_table := Disk.table_writeCluster _ _ _
  have hentry : disk.volume.entry (2, 2) = root_entry := by
    change disk.table 2 2 = root_entry
    rw [htable]
    apply Function.update_self
  have hlive : disk.Live (2, 2) := by
    refine ⟨Catalog.Directory.root, Nat.le_refl 2, ?_⟩
    rw [hentry]
    rfl
  have hchild : disk.Directory (disk.volume.entry (2, 2)).cluster := by
    apply hlive.child
    rw [hentry]
    rfl
  rw [hentry] at hchild
  exact hchild

theorem parent_ok : write.parent_ok (disk.table 1) := by
  decide

theorem search : write.search request disk = some ⟨some 2, [4]⟩ := by
  decide +kernel

-- the link of cluster 4, which the write puts on the disk and then overwrites
theorem fat_committed
    : (write.committed (fun _ => 0x41) (fun _ => .zero) request disk 2 [4]).fat 4
        =
      FAT32_FAT_EMPTY_ENTRY := by
  decide

theorem leads (driver_state : FAT32DriverState)
    : driver.Leads (fun _ _ => True) (driver_state, disk)
        (⟨write.link [4] disk.fat, write.new_table request disk 2 [4]⟩,
          write.committed (fun _ => 0x41) (fun _ => .zero) request disk 2 [4]) := by
  have hrun := write.run_of_parent_ok driver_state (fun _ => 0x41) (fun _ => .zero) request disk
    parent_ok
  rw [search] at hrun
  apply Relation.ReflTransGen.single
  exact ⟨.write (fun _ => 0x41) (fun _ => .zero) request, trivial, disk_directory, 0, hrun⟩

end crafted

theorem not_remount_invisible
    : ∃ s₀ s, (initialize_filesystem_fat32 .zero (fun _ => 0)).run diskDevice crafted.disk = some s₀ ∧
        driver.Leads (fun _ _ => True) s₀ s ∧ s.1.fat_table ≠ s.2.fat := by
  have hinit := run_initialize_filesystem_fat32 crafted.disk_signed .zero (fun _ => 0)
  refine ⟨_, _, hinit, crafted.leads _, ?_⟩
  intro hcache
  have hlink : write.link [4] crafted.disk.fat 4 = FAT32_FAT_END_OF_FILE := by
    unfold write.link
    apply Function.update_self
  have hempty := congrFun hcache 4
  dsimp only at hempty
  rw [hlink, crafted.fat_committed] at hempty
  revert hempty
  decide

theorem remount_invisible_populated
    : ∃ s₀ st, (initialize_filesystem_fat32 .zero (fun _ => 0)).run diskDevice (fun _ _ => 0) = some s₀ ∧
        driver.Leads (fun _ op => Disk.Signed (fun _ _ => 0) → op.SparesFat) s₀
          (st, write.populated) ∧
        st.fat_table = write.populated.fat ∧ write.populated.Signed := by
  have hsigned : ¬ Disk.Signed (fun _ _ => 0) := by
    intro h
    have hbyte := congrFun h 0
    revert hbyte
    decide
  have hinit := create_fat32.run_create_fat32 .zero (fun _ => 0) (fun _ _ => 0)
  rw [← run_initialize_of_not_signed hsigned] at hinit
  have hleads : driver.Leads (fun _ op => Disk.Signed (fun _ _ => 0) → op.SparesFat)
      (fresh_driver, fresh)
      (⟨write.link [3] fresh.fat, write.new_table write.small fresh 2 [3]⟩, write.populated) := by
    apply Relation.ReflTransGen.single
    exact ⟨.write (fun _ => 0x41) (fun _ => .zero) write.small, fun h => absurd h hsigned,
      Catalog.Directory.root, 0, write.run_small fresh_driver⟩
  have hremount := remount_invisible hinit hleads
  exact ⟨_, _, hinit, hleads, hremount.1, hremount.2.1⟩

end AiOS
