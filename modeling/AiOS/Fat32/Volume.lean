import AiOS.Lib.Catalog
import AiOS.Fat32.Lemmas.Cluster

/-!
This module contains what a disk says as a catalog: the directory tree that hangs on cluster 2, and
the chains of the file allocation table in cluster 1.
-/

namespace AiOS

open Catalog

namespace FAT32DirectoryEntry

def cluster (e : FAT32DirectoryEntry) : Nat :=
  e.cluster_high.toNat * 2 ^ 16 + e.cluster_low.toNat

def clusterCount (e : FAT32DirectoryEntry) : Nat :=
  if e.attribute = ATTR_SUBDIRECTORY then
    1
  else
    (e.filesize.toNat + (CLUSTER_SIZE - 1)) / CLUSTER_SIZE

theorem toNat_cluster_add (e : FAT32DirectoryEntry)
    : ((e.cluster_high.toUInt32 <<< 16) + e.cluster_low.toUInt32).toNat = e.cluster := by
  have hhigh := e.cluster_high.toNat_lt
  have hlow := e.cluster_low.toNat_lt
  have h16 : (16 : UInt32).toNat = 16 := rfl
  unfold cluster
  rw [UInt32.toNat_add, UInt32.toNat_shiftLeft, UInt16.toNat_toUInt32, UInt16.toNat_toUInt32, h16]
  have h32 : 2 ^ (16 % 32) = 2 ^ 16 := rfl
  rw [Nat.shiftLeft_eq, h32]
  omega

theorem cluster_low_of_lt (e : FAT32DirectoryEntry) (h : e.cluster < 2 ^ 16)
    : e.cluster_low.toNat = e.cluster := by
  have hlow := e.cluster_low.toNat_lt
  unfold cluster at h ⊢
  omega

end FAT32DirectoryEntry

def fat32 : Format Nat (Fin 64) FAT32DirectoryEntry where
  root := 2
  stop := 0x0FFFFFFF
  free := 0
  isData c := 3 ≤ c ∧ c < 512
  isSlot i := 2 ≤ i.val
  isLive e := e.user_attribute = UATTR_NOT_EMPTY
  isDir e := e.attribute = ATTR_SUBDIRECTORY
  first e := e.cluster
  length e := e.clusterCount
  root_not_data := by omega
  stop_not_data := by omega
  free_not_data := by omega
  free_ne_stop := by omega
  length_of_isDir e he := by
    unfold FAT32DirectoryEntry.clusterCount
    rw [if_pos he]

namespace FAT32FileAllocationTable

def next (fat : FAT32FileAllocationTable) (c : Nat) : Nat :=
  if h : c < 512 then
    (fat ⟨c, h⟩).toNat
  else
    0

theorem next_fin (fat : FAT32FileAllocationTable) (c : Fin 512) : fat.next c = (fat c).toNat := by
  unfold next
  rw [dif_pos c.isLt]

theorem next_update (fat : FAT32FileAllocationTable) (c : Fin 512) (x : UInt32)
    : next (Function.update fat c x) = Function.update fat.next c x.toNat := by
  funext a
  by_cases ha : a < 512
  . have ha' := next_fin (Function.update fat c x) ⟨a, ha⟩
    dsimp only at ha'
    rw [ha']
    by_cases hac : a = c
    . subst hac
      simp
    . have hne : (⟨a, ha⟩ : Fin 512) ≠ c := fun h => hac (congrArg Fin.val h)
      rw [Function.update_of_ne hne, Function.update_of_ne hac]
      rw [← next_fin fat ⟨a, ha⟩]
  . rw [Function.update_of_ne (by omega)]
    unfold next
    rw [dif_neg ha, dif_neg ha]

def numbers (cs : List (Fin 512)) : List Nat :=
  cs.map Fin.val

theorem mem_numbers {c : Fin 512} {cs : List (Fin 512)} : c.val ∈ numbers cs ↔ c ∈ cs := by
  unfold numbers
  exact List.mem_map_of_injective Fin.val_injective

theorem exists_of_mem_numbers {c : Nat} {cs : List (Fin 512)} (h : c ∈ numbers cs)
    : ∃ j ∈ cs, j.val = c := by
  unfold numbers at h
  rw [List.mem_map] at h
  exact h

theorem next_congr {fat fat' : FAT32FileAllocationTable} {cs : List (Fin 512)} {c : Nat}
    (h : ∀ j, j ∉ cs → fat' j = fat j) (hc : c ∉ numbers cs)
    : fat'.next c = fat.next c := by
  unfold next
  split
  . next hlt =>
    rw [h]
    intro hmem
    apply hc
    rw [← mem_numbers] at hmem
    exact hmem
  . rfl

end FAT32FileAllocationTable

export FAT32FileAllocationTable (numbers mem_numbers exists_of_mem_numbers)

namespace Disk

def fat (d : Disk) : FAT32FileAllocationTable :=
  .ofCluster (d.cluster 1)

def table (d : Disk) (c : Nat) : FAT32DirectoryTable :=
  .ofCluster (d.cluster c)

def volume (d : Disk) : Volume Nat (Fin 64) FAT32DirectoryEntry where
  next := d.fat.next
  table := d.table

abbrev Directory (d : Disk) (p : Nat) : Prop :=
  Catalog.Directory fat32 d.volume p

/--
Slot `s.2`, from 2 on, of the reachable directory `s.1` holds a live entry.
-/
abbrev Live (d : Disk) (s : Nat × Fin 64) : Prop :=
  Catalog.Live fat32 d.volume s

abbrev entry (d : Disk) (s : Nat × Fin 64) : FAT32DirectoryEntry :=
  d.table s.1 s.2

/--
Following `cluster_map` from the first cluster of the entry in `s` passes the clusters of the list
and then reaches `FAT32_FAT_END_OF_FILE`.
-/
abbrev Owns (d : Disk) (s : Nat × Fin 64) (clusters : List Nat) : Prop :=
  Catalog.Owns fat32 d.volume s clusters

/--
Every chain of a live entry stays within 3..511, ends, and is as long as its entry says; the chains
of two entries are disjoint.
-/
abbrev WellFormed (d : Disk) : Prop :=
  Catalog.WellFormed fat32 d.volume

/--
The non-zero entries 3..511 of `cluster_map` are those of the chains of live entries.
-/
abbrev Exact (d : Disk) : Prop :=
  Catalog.Exact fat32 d.volume

/--
The cluster is not empty, but belongs to no live entry either.
-/
abbrev Held (d : Disk) (c : Nat) : Prop :=
  Catalog.Held fat32 d.volume c

theorem table_congr {d d' : Disk} {c : Nat} (h : d'.cluster c = d.cluster c)
    : d'.table c = d.table c := by
  unfold table
  rw [h]

theorem fat_congr {d d' : Disk} (h : d'.cluster 1 = d.cluster 1) : d'.fat = d.fat := by
  unfold fat
  rw [h]

@[simp]
theorem table_writeCluster (d : Disk) (c : Nat) (table : FAT32DirectoryTable)
    : (d.writeCluster c table.toCluster).table c = table := by
  conv => lhs; unfold Disk.table
  rw [cluster_writeCluster_self]
  apply FAT32DirectoryTable.ofCluster_toCluster

@[simp]
theorem fat_writeCluster (d : Disk) (fat_table : FAT32FileAllocationTable)
    : (d.writeCluster 1 fat_table.toCluster).fat = fat_table := by
  unfold Disk.fat
  rw [cluster_writeCluster_self]
  apply FAT32FileAllocationTable.ofCluster_toCluster

theorem length_le_of_nodup {l : List Nat} (hnodup : l.Nodup) (hdata : ∀ c ∈ l, fat32.isData c)
    : l.length ≤ 509 := by
  have hsub : l ⊆ List.range' 3 509 := by
    intro c hc
    have hc : 3 ≤ c ∧ c < 512 := hdata c hc
    rw [List.mem_range'_1]
    omega
  have hle := (hnodup.subperm hsub).length_le
  rw [List.length_range'] at hle
  exact hle

theorem WellFormed.directory_bounds {d : Disk} (h : d.WellFormed) {p : Nat} (hp : d.Directory p)
    : 2 ≤ p ∧ p < 512 := by
  cases h.directory_root_or_data hp with
  | inl hroot =>
    have hroot : p = 2 := hroot
    omega
  | inr hdata =>
    have hdata : 3 ≤ p ∧ p < 512 := hdata
    omega

theorem WellFormed.directory_ne_one {d : Disk} (h : d.WellFormed) {p : Nat} (hp : d.Directory p)
    : p ≠ 1 := by
  have hbounds := h.directory_bounds hp
  omega

theorem WellFormed.parent_eq {d : Disk} {request : FAT32DriverRequest} (h : d.WellFormed)
    (hP : d.Directory request.parent_cluster_number.toNat)
    : request.parent = request.parent_cluster_number.toNat := by
  have hbounds := h.directory_bounds hP
  apply clusterIndex_of_lt
  omega

end Disk

end AiOS
