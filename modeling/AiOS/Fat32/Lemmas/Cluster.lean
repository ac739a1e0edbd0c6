import AiOS.Fat32.Impl.Init

/-!
This module contains the effect of `read_clusters` and `write_clusters` on the disk, whole and torn
between two blocks, as seen through file allocation tables and directory tables.
-/

namespace AiOS

def clusterIndex (cluster_number : UInt32) : Nat :=
  cluster_number.toNat % 2 ^ 26

@[simp]
theorem clusterIndex_ofNat (c : Fin 512) : clusterIndex (UInt32.ofNat c) = c := by
  unfold clusterIndex
  rw [UInt32.toNat_ofNat']
  omega

def FAT32DriverRequest.parent (request : FAT32DriverRequest) : Nat :=
  clusterIndex request.parent_cluster_number

theorem clusterIndex_of_lt {p : UInt32} (hp : p.toNat < 2 ^ 26) : clusterIndex p = p.toNat := by
  unfold clusterIndex
  exact Nat.mod_eq_of_lt hp

theorem lba28_cluster_to_lba (p : UInt32)
    : DiskCmd.lba28 (cluster_to_lba p) = 4 * clusterIndex p := by
  unfold DiskCmd.lba28 cluster_to_lba clusterIndex
  rw [UInt32.toNat_mul]
  have : (4 : UInt32).toNat = 4 := rfl
  rw [this]
  omega

/--
The cluster after the first `b` blocks of `new` have gone over `old`.
-/
def torn (b : Nat) (new old : ClusterBuffer) : ClusterBuffer :=
  fun i => if i.val < b then new i else old i

@[simp]
theorem torn_of_le {b : Nat} {new old : ClusterBuffer} (hb : 4 ≤ b) : torn b new old = new := by
  funext i
  unfold torn
  rw [if_pos (by omega)]

theorem FAT32DirectoryTable.ofCluster_torn (b : Nat) (new old : FAT32DirectoryTable) (i : Fin 64)
    : ofCluster (torn b new.toCluster old.toCluster) i
        =
      if i.val < 16 * b then new i else old i := by
  rw [← congrFun (ofCluster_toCluster new) i, ← congrFun (ofCluster_toCluster old) i]
  split
  . unfold ofCluster ClusterBuffer.byte torn
    congr
    funext k
    rw [if_pos (by dsimp; omega)]
  . unfold ofCluster ClusterBuffer.byte torn
    congr
    funext k
    rw [if_neg (by dsimp; omega)]

theorem FAT32DirectoryTable.ofCluster_torn_update (b : Nat) (old : FAT32DirectoryTable) (i : Fin 64)
    (entry : FAT32DirectoryEntry)
    : ofCluster (torn b (toCluster (Function.update old i entry)) old.toCluster)
        =
      if i.val < 16 * b then Function.update old i entry else old := by
  funext j
  rw [ofCluster_torn]
  by_cases hji : j = i
  . rw [hji]
    split
    . rfl
    . rfl
  . rw [Function.update_of_ne hji, ite_self]
    split
    . rw [Function.update_of_ne hji]
    . rfl

theorem FAT32FileAllocationTable.ofCluster_torn (b : Nat) (new : FAT32FileAllocationTable)
    (old : ClusterBuffer) (j : Fin 512)
    : ofCluster (torn b new.toCluster old) j
        =
      if j.val < 128 * b then new j else ofCluster old j := by
  rw [← congrFun (ofCluster_toCluster new) j]
  have h0 : 4 * j.val / 512 = j / 128 := by omega
  have h1 : (4 * j.val + 1) / 512 = j / 128 := by omega
  have h2 : (4 * j.val + 2) / 512 = j / 128 := by omega
  have h3 : (4 * j.val + 3) / 512 = j / 128 := by omega
  unfold ofCluster ClusterBuffer.byte torn
  simp only [h0, h1, h2, h3]
  split
  . rw [if_pos (by omega)]
  . rw [if_neg (by omega)]

namespace Disk

def cluster (d : Disk) (c : Nat) : ClusterBuffer :=
  d.blocks (4 * c) 4

def writeCluster (d : Disk) (c : Nat) (ptr : ClusterBuffer) : Disk :=
  d.writeFirst (4 * c) 4 ptr

theorem cluster_writeFirst (d : Disk) (c b c' : Nat) (ptr : ClusterBuffer)
    : (d.writeFirst (4 * c) b ptr).cluster c'
        =
      if c' = c then torn b ptr (d.cluster c) else d.cluster c' := by
  funext i
  by_cases heq : c' = c
  . subst heq
    rw [if_pos rfl]
    unfold cluster blocks writeFirst torn
    split
    . rw [if_pos (by omega)]
      congr
      omega
    . rw [if_neg (by omega)]
  . rw [if_neg heq]
    unfold cluster blocks writeFirst
    rw [dif_neg (by omega)]

@[simp]
theorem cluster_writeCluster_self (d : Disk) (c : Nat) (ptr : ClusterBuffer)
    : (d.writeCluster c ptr).cluster c = ptr := by
  unfold writeCluster
  rw [cluster_writeFirst]
  simp

theorem cluster_writeCluster_of_ne (d : Disk) {c c' : Nat} (ptr : ClusterBuffer) (h : c' ≠ c)
    : (d.writeCluster c ptr).cluster c' = d.cluster c' := by
  unfold writeCluster
  rw [cluster_writeFirst, if_neg h]

theorem writeCluster_cluster (d : Disk) (c : Nat) : d.writeCluster c (d.cluster c) = d := by
  funext x
  unfold writeCluster writeFirst
  split
  . next h =>
    unfold cluster blocks
    congr
    dsimp
    omega
  . rfl

theorem writeFirst_cluster (d : Disk) (c b : Nat) : d.writeFirst (4 * c) b (d.cluster c) = d := by
  funext x
  unfold writeFirst
  split
  . next h =>
    unfold cluster blocks
    congr
    dsimp
    omega
  . rfl

end Disk

section

variable {α : Type} (d : Disk) (p : UInt32)

@[simp]
theorem run_read_clusters (f : ClusterBuffer → DiskM α)
    : (read_clusters p >>= f).run diskDevice d
        =
      (f (d.cluster (clusterIndex p))).run diskDevice d := by
  unfold read_clusters Disk.cluster
  rw [← lba28_cluster_to_lba, run_read_blocks]

@[simp]
theorem run_write_clusters (ptr : ClusterBuffer) (f : Unit → DiskM α)
    : (write_clusters ptr p >>= f).run diskDevice d
        =
      (f ()).run diskDevice (d.writeCluster (clusterIndex p) ptr) := by
  unfold write_clusters Disk.writeCluster
  rw [← lba28_cluster_to_lba, run_write_blocks]

variable {γ : Type} {M : Monitor Disk DiskCmd DiskCmd.Ret γ} {I : Disk → Prop} {g : γ}

theorem always_read_clusters {f : ClusterBuffer → DiskM α} (hI : I d)
    (hM : M.allows g (.read_blocks (cluster_to_lba p) 4) d)
    (h : (f (d.cluster (clusterIndex p))).Always diskDevice M I
      (M.note g (.read_blocks (cluster_to_lba p) 4) (d.cluster (clusterIndex p))) d)
    : (read_clusters p >>= f).Always diskDevice M I g d := by
  unfold Disk.cluster at h
  rw [← lba28_cluster_to_lba] at h
  exact Prog.Always.call_of_atoms_eq_nil rfl hI hM h

theorem always_write_clusters {ptr : ClusterBuffer} {f : Unit → DiskM α}
    (hI : ∀ b, I (d.writeFirst (4 * clusterIndex p) b ptr))
    (hM : M.allows g (.write_blocks (cluster_to_lba p) 4 ptr) d)
    (h : (f ()).Always diskDevice M I (M.note g (.write_blocks (cluster_to_lba p) 4 ptr) ())
      (d.writeCluster (clusterIndex p) ptr))
    : (write_clusters ptr p >>= f).Always diskDevice M I g d := by
  unfold Disk.writeCluster at h
  rw [← lba28_cluster_to_lba] at hI h
  rw [← exec_write_blocks] at h
  refine ⟨?_, hM, h⟩
  intro b
  rw [applyAll_write_blocks]
  exact hI b

end

end AiOS
