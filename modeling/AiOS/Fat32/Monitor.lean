import AiOS.Fat32.Volume

/-!
This module contains a watcher of the file allocation table: it remembers the table that an
operation has loaded, and looks at each entry the operation changes on the disk.
-/

namespace AiOS

open Catalog

/--
An entry on the disk may only change to something else than what was loaded for it: what is written
back as it was loaded changes nothing.
-/
def fatMonitor : Monitor Disk DiskCmd DiskCmd.Ret FAT32FileAllocationTable where
  note loaded cmd answer :=
    match cmd, answer with
    | .read_blocks lba 4, buf => if DiskCmd.lba28 lba = 4 then .ofCluster buf else loaded
    | _, _ => loaded
  allows loaded cmd d :=
    ∀ j, (diskDevice.exec cmd d).fat j ≠ d.fat j → (diskDevice.exec cmd d).fat j ≠ loaded j

namespace fatMonitor

variable {α : Type} {d : Disk} {p : UInt32} {I : Disk → Prop} {loaded : FAT32FileAllocationTable}

theorem always_read_clusters {f : ClusterBuffer → DiskM α} (hp : clusterIndex p ≠ 1) (hI : I d)
    (h : (f (d.cluster (clusterIndex p))).Always diskDevice fatMonitor I loaded d)
    : (read_clusters p >>= f).Always diskDevice fatMonitor I loaded d := by
  apply AiOS.always_read_clusters _ _ hI
  . intro j hj
    exact absurd rfl hj
  . have hlba : DiskCmd.lba28 (cluster_to_lba p) ≠ 4 := by
      rw [lba28_cluster_to_lba]
      omega
    have hnote : fatMonitor.note loaded (.read_blocks (cluster_to_lba p) 4)
        (d.cluster (clusterIndex p)) = loaded := if_neg hlba
    rw [hnote]
    exact h

theorem always_read_fat {f : ClusterBuffer → DiskM α} (hI : I d)
    (h : (f (d.cluster 1)).Always diskDevice fatMonitor I d.fat d)
    : (read_clusters FAT_CLUSTER_NUMBER >>= f).Always diskDevice fatMonitor I loaded d := by
  apply AiOS.always_read_clusters _ _ hI
  . intro j hj
    exact absurd rfl hj
  . exact h

theorem always_read_loaded {f : ClusterBuffer → DiskM α} (hloaded : loaded = d.fat) (hI : I d)
    (h : (f (d.cluster (clusterIndex p))).Always diskDevice fatMonitor I loaded d)
    : (read_clusters p >>= f).Always diskDevice fatMonitor I loaded d := by
  by_cases hp : clusterIndex p = 1
  . apply AiOS.always_read_clusters _ _ hI
    . intro j hj
      exact absurd rfl hj
    . have hlba : DiskCmd.lba28 (cluster_to_lba p) = 4 := by
        rw [lba28_cluster_to_lba]
        omega
      have hnote : fatMonitor.note loaded (.read_blocks (cluster_to_lba p) 4)
          (d.cluster (clusterIndex p)) = .ofCluster (d.cluster (clusterIndex p)) := if_pos hlba
      have hfat : FAT32FileAllocationTable.ofCluster (d.cluster (clusterIndex p)) = d.fat := by
        unfold Disk.fat
        rw [hp]
      rw [hnote, hfat, ← hloaded]
      exact h
  . apply always_read_clusters hp hI h

theorem always_write_clusters {ptr : ClusterBuffer} {f : Unit → DiskM α} (hp : clusterIndex p ≠ 1)
    (hI : ∀ b, I (d.writeFirst (4 * clusterIndex p) b ptr))
    (h : (f ()).Always diskDevice fatMonitor I loaded (d.writeCluster (clusterIndex p) ptr))
    : (write_clusters ptr p >>= f).Always diskDevice fatMonitor I loaded d := by
  apply AiOS.always_write_clusters _ _ hI
  . intro j hj
    apply absurd _ hj
    rw [exec_write_blocks, lba28_cluster_to_lba]
    unfold Disk.fat
    rw [Disk.cluster_writeFirst, if_neg hp.symm]
  . exact h

theorem always_write_fat {fat_table : FAT32FileAllocationTable} {f : Unit → DiskM α}
    (hI : ∀ b, I (d.writeFirst 4 b fat_table.toCluster))
    (hloaded : ∀ j, fat_table j ≠ d.fat j → fat_table j ≠ loaded j)
    (h : (f ()).Always diskDevice fatMonitor I loaded (d.writeCluster 1 fat_table.toCluster))
    : (write_clusters fat_table.toCluster 1 >>= f).Always diskDevice fatMonitor I loaded d := by
  apply AiOS.always_write_clusters _ _ hI
  . have hfat : (d.writeFirst (4 * 1) 4 fat_table.toCluster).fat = fat_table := by
      unfold Disk.fat
      rw [Disk.cluster_writeFirst, if_pos rfl, torn_of_le (Nat.le_refl 4)]
      apply FAT32FileAllocationTable.ofCluster_toCluster
    intro j
    rw [exec_write_blocks, lba28_cluster_to_lba]
    change (d.writeFirst (4 * 1) 4 fat_table.toCluster).fat j ≠ d.fat j →
      (d.writeFirst (4 * 1) 4 fat_table.toCluster).fat j ≠ loaded j
    rw [hfat]
    apply hloaded
  . exact h

end fatMonitor

end AiOS
