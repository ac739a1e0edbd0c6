import AiOS.Fat32.Lemmas.Search
import AiOS.Fat32.Volume

/-!
This module contains the file system that `create_fat32` leaves behind: a root directory without
live entries, and no cluster in use.
-/

namespace AiOS

section

variable (dir_table : FAT32DirectoryTable) (name : Fin 8 → UInt8) (parent_dir_cluster : UInt32)

theorem init_directory_table_of_le {j : Fin 64} (hj : 2 ≤ j.val)
    : (init_directory_table dir_table name parent_dir_cluster j).user_attribute
        ≠
      UATTR_NOT_EMPTY := by
  unfold init_directory_table
  rw [if_neg (by omega), if_neg (by omega)]
  change (0 : UInt8) ≠ UATTR_NOT_EMPTY
  decide

theorem init_directory_table_of_lt {j : Fin 64} (hj : j.val < 2)
    : (init_directory_table dir_table name parent_dir_cluster j).attribute = ATTR_SUBDIRECTORY := by
  unfold init_directory_table
  split
  . rfl
  . rw [if_pos (by omega)]

end

namespace create_fat32

variable (driver_state : FAT32DriverState) (after_literal : Fin 3 → UInt8) (d : Disk)

def dir_table_buf : FAT32DirectoryTable :=
  init_directory_table driver_state.dir_table_buf (root_name after_literal) 2

def created : Disk :=
  ((d.writeFirst 0 1 (fun _ : Fin 1 => fs_signature)).writeCluster 1 fat_table.toCluster).writeCluster
    2 (dir_table_buf driver_state after_literal).toCluster

theorem run_create_fat32
    : (create_fat32 driver_state after_literal).run diskDevice d
        =
      some (⟨fat_table, dir_table_buf driver_state after_literal⟩,
        created driver_state after_literal d) := by
  unfold create_fat32
  rw [run_write_blocks, run_write_clusters, run_write_clusters]
  rfl

theorem created_cluster_zero : (created driver_state after_literal d).cluster 0 0 = fs_signature := by
  unfold created
  rw [Disk.cluster_writeCluster_of_ne _ _ (by omega), Disk.cluster_writeCluster_of_ne _ _ (by omega)]
  unfold Disk.cluster Disk.blocks Disk.writeFirst
  rw [dif_pos (by simp)]

@[simp]
theorem created_fat : (created driver_state after_literal d).fat = fat_table := by
  unfold created Disk.fat
  rw [Disk.cluster_writeCluster_of_ne _ _ (by omega), Disk.cluster_writeCluster_self]
  apply FAT32FileAllocationTable.ofCluster_toCluster

@[simp]
theorem created_table
    : (created driver_state after_literal d).table 2
        =
      dir_table_buf driver_state after_literal := by
  unfold created Disk.table
  rw [Disk.cluster_writeCluster_self, FAT32DirectoryTable.ofCluster_toCluster]

theorem created_dead {i : Fin 64} (hi : 2 ≤ i.val)
    : ((created driver_state after_literal d).table 2 i).user_attribute ≠ UATTR_NOT_EMPTY := by
  rw [created_table]
  apply init_directory_table_of_le _ _ _ hi

theorem created_directory_iff (p : Nat)
    : (created driver_state after_literal d).Directory p ↔ p = 2 := by
  constructor
  . intro hp
    induction hp with
    | root => rfl
    | child _ hi hlive _ ih =>
      subst ih
      apply absurd hlive
      apply created_dead _ _ _ hi
  . intro hp
    rw [hp]
    apply Catalog.Directory.root

theorem not_created_live (s : Nat × Fin 64)
    : ¬ (created driver_state after_literal d).Live s := by
  intro hs
  have hroot := (created_directory_iff driver_state after_literal d s.1).mp hs.dir
  have hlive := hs.live
  unfold Catalog.Volume.entry at hlive
  rw [hroot] at hlive
  apply created_dead _ _ _ hs.slot hlive

theorem created_wellFormed : (created driver_state after_literal d).WellFormed where
  chain s hs := absurd hs (not_created_live _ _ _ s)
  disjoint s _ hs := absurd hs (not_created_live _ _ _ s)

theorem next_fat_table {c : Nat} (hc : 3 ≤ c) : fat_table.next c = 0 := by
  unfold FAT32FileAllocationTable.next
  split
  . unfold fat_table
    rw [if_neg, if_neg, if_neg]
    . rfl
    all_goals
      rw [Fin.ext_iff]
      dsimp
      omega
  . rfl

theorem empty_clusters_fat_table : write.empty_clusters fat_table = write.clusters := by
  unfold write.empty_clusters
  rw [List.filter_eq_self]
  intro j hj
  rw [decide_eq_true_iff, ← UInt32.toNat_inj, ← FAT32FileAllocationTable.next_fin]
  rw [write.mem_clusters] at hj
  apply next_fat_table hj

theorem free_slots_created
    : write.free_slots ((created driver_state after_literal d).table 2) write.slots
        =
      write.slots := by
  unfold write.free_slots
  rw [List.filter_eq_self]
  intro i hi
  rw [decide_eq_true_iff]
  rw [write.mem_slots] at hi
  apply created_dead _ _ _ hi

theorem not_named_created {i : Fin 64} (hi : i ∈ write.slots) (request : FAT32DriverRequest)
    : ¬ write.named ((created driver_state after_literal d).table 2) request i := by
  intro hname
  rw [write.mem_slots] at hi
  apply created_dead _ _ _ hi hname.1

theorem created_exact : (created driver_state after_literal d).Exact := by
  intro c hc
  have hfree : (created driver_state after_literal d).fat.next c = 0 := by
    rw [created_fat]
    apply next_fat_table hc.1
  constructor
  . intro hne
    exact absurd hfree hne
  . intro ⟨s, _, hs, _⟩
    exact absurd hs (not_created_live _ _ _ s)

end create_fat32

theorem run_initialize_filesystem_fat32 {d : Disk} (hsigned : d.cluster 0 0 = fs_signature)
    (driver_state : FAT32DriverState) (after_literal : Fin 3 → UInt8)
    : (initialize_filesystem_fat32 driver_state after_literal).run diskDevice d
        =
      some (⟨d.fat, driver_state.dir_table_buf⟩, d) := by
  have hblock : d.blocks 0 1 0 = fs_signature := hsigned
  have hlba : DiskCmd.lba28 0 = 0 := rfl
  unfold initialize_filesystem_fat32 is_empty_storage
  rw [Prog.run_bind, run_read_blocks, hlba, hblock]
  simp only [Prog.pure_eq, Prog.run_pure, Option.bind_some, ne_eq, memcmp_eq_zero_iff]
  rw [if_neg (by simp), run_read_clusters]
  rfl

def fresh : Disk :=
  create_fat32.created .zero (fun _ => 0) (fun _ _ => 0)

theorem fresh_wellFormed : fresh.WellFormed := by
  apply create_fat32.created_wellFormed

end AiOS
