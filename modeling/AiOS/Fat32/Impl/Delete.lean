import AiOS.Fat32.Impl.Write

/-!
This module contains `delete` of `fat32.c`.
-/

namespace AiOS

namespace delete

-- the entry at which the loop over `i` stops to delete
def hit (table : FAT32DirectoryTable) (request : FAT32DriverRequest) (i : Fin 64) : Prop :=
  (table i).user_attribute = UATTR_NOT_EMPTY ∧ memcmp request.name (table i).name = 0 ∧
    ((table i).attribute = ATTR_SUBDIRECTORY ∨ memcmp (table i).ext request.ext = 0)

instance (table : FAT32DirectoryTable) (request : FAT32DriverRequest) (i : Fin 64)
    : Decidable (hit table request i) :=
  inferInstanceAs (Decidable (_ ∧ _))

def find_entry (table : FAT32DirectoryTable) (request : FAT32DriverRequest) : Option (Fin 64) :=
  ((List.finRange 64).drop 1).find? fun i => hit table request i

def dead_entry (entry : FAT32DirectoryEntry) : FAT32DirectoryEntry :=
  { entry with
    user_attribute := 0
    undelete := 1 }

def has_live_entry (table : FAT32DirectoryTable) : Prop :=
  ∃ j ∈ write.slots, (table j).user_attribute = UATTR_NOT_EMPTY

instance (table : FAT32DirectoryTable) : Decidable (has_live_entry table) :=
  inferInstanceAs (Decidable (∃ j ∈ write.slots, _))

-- the cluster whose table is checked for live entries, taken from the uninitialised `dirTable`
def checked_cluster (dirTable : FAT32DirectoryTable) (i : Fin 64) : UInt32 :=
  (dirTable i).cluster_high.toUInt32 <<< 16 ||| (dirTable i).cluster_low.toUInt32

def directory (driver_state : FAT32DriverState) (dirTable : FAT32DirectoryTable)
    (request : FAT32DriverRequest) (i : Fin 64) : DiskM (Int × FAT32DriverState) := do
  let cluster_number := checked_cluster dirTable i
  if cluster_number = ROOT_CLUSTER_NUMBER then
    return (-1, driver_state)
  let dirTable ← read_clusters cluster_number
  if has_live_entry (.ofCluster dirTable) then
    return (2, driver_state)
  let table := driver_state.dir_table_buf
  if h : (table i).cluster_low.toNat < 512 then
    let fat_table : FAT32FileAllocationTable :=
      Function.update driver_state.fat_table ⟨(table i).cluster_low.toNat, h⟩ 0
    let table : FAT32DirectoryTable := Function.update table i (dead_entry (table i))
    write_clusters table.toCluster request.parent_cluster_number
    write_clusters fat_table.toCluster 1
    return (0, ⟨fat_table, table⟩)
  else
    .fault

-- the first loop over the chain, `none` on an index outside of `cluster_map`
def collect (fat_table : FAT32FileAllocationTable) (cluster_count : Nat) (current_cluster : UInt16)
    : Option (List (Fin 512)) :=
  match cluster_count with
  | 0 => some []
  | cluster_count + 1 =>
    if h : current_cluster.toNat < 512 then
      let c : Fin 512 := ⟨current_cluster.toNat, h⟩
      (collect fat_table cluster_count (fat_table c).toUInt16).map (c :: ·)
    else
      none

def cluster_count (entry : FAT32DirectoryEntry) : Nat :=
  let size := entry.filesize.toNat
  if size % CLUSTER_SIZE = 0 then
    size / CLUSTER_SIZE % 2 ^ 16
  else
    (size / CLUSTER_SIZE + 1) % 2 ^ 16

def file (driver_state : FAT32DriverState) (request : FAT32DriverRequest) (i : Fin 64)
    : DiskM (Int × FAT32DriverState) := do
  let table := driver_state.dir_table_buf
  let table : FAT32DirectoryTable := Function.update table i (dead_entry (table i))
  write_clusters table.toCluster request.parent_cluster_number
  match collect driver_state.fat_table (cluster_count (table i)) (table i).cluster_low with
  | none => .fault
  | some to_zeros =>
    let fat_table : FAT32FileAllocationTable :=
      to_zeros.foldl (fun fat c => Function.update fat c 0) driver_state.fat_table
    write_clusters fat_table.toCluster 1
    return (0, ⟨fat_table, table⟩)

end delete

/--
`dirTable` is what the local variable of that name holds before it is read.
-/
def delete (driver_state : FAT32DriverState) (dirTable : FAT32DirectoryTable)
    (request : FAT32DriverRequest) : DiskM (Int × FAT32DriverState) := do
  let dir_table_buf ← read_clusters request.parent_cluster_number
  let table := FAT32DirectoryTable.ofCluster dir_table_buf
  let driver_state := { driver_state with dir_table_buf := table }
  match delete.find_entry table request with
  | none => return (1, driver_state)
  | some i =>
    if (table i).attribute = ATTR_SUBDIRECTORY then
      delete.directory driver_state dirTable request i
    else
      delete.file driver_state request i

end AiOS
