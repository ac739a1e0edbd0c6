import AiOS.Fat32.Impl.Init

/-!
This module contains `read_directory` and `read` of `fat32.c`. Both return, next to their code and
the new driver state, the clusters they store in the caller's buffer, in order.
-/

namespace AiOS

-- the loop looks for an entry with another name
def read_directory.find_entry (table : FAT32DirectoryTable) (request : FAT32DriverRequest)
    : Option (Fin 64) :=
  (List.finRange 64).find? fun i => memcmp (table i).name request.name ≠ 0

def read_directory.found (driver_state : FAT32DriverState) (request : FAT32DriverRequest)
    (i : Fin 64) : DiskM (Int × FAT32DriverState × List ClusterBuffer) := do
  let table := driver_state.dir_table_buf
  if (table i).attribute ≠ ATTR_SUBDIRECTORY then
    return (1, driver_state, [])
  else
    write_clusters table.toCluster request.parent_cluster_number
    let buf ← read_clusters
      (((table i).cluster_high.toUInt32 <<< 16) + (table i).cluster_low.toUInt32)
    return (0, driver_state, [buf])

def read_directory (driver_state : FAT32DriverState) (request : FAT32DriverRequest)
    : DiskM (Int × FAT32DriverState × List ClusterBuffer) := do
  let dir_table_buf ← read_clusters request.parent_cluster_number
  let table := FAT32DirectoryTable.ofCluster dir_table_buf
  let driver_state := ⟨driver_state.fat_table, table⟩
  if ¬ (table 0).user_attribute = UATTR_NOT_EMPTY then
    return (-1, driver_state, [])
  match read_directory.find_entry table request with
  | some i => read_directory.found driver_state request i
  | none => return (2, driver_state, [])

/--
The loop of `read` over a chain. An index outside of `cluster_map` leaves the model. So does a chain
that is still not at its end after 512 clusters: it has come back to one of them and never ends.
-/
def read.walk (fat_table : FAT32FileAllocationTable) (fuel : Nat) (cluster_number : UInt32)
    (delivered : List ClusterBuffer) : DiskM (List ClusterBuffer) :=
  match fuel with
  | 0 => .fault
  | fuel + 1 =>
    if cluster_number = FAT32_FAT_END_OF_FILE then
      return delivered
    else do
      let buf ← read_clusters cluster_number
      if h : cluster_number.toNat < 512 then
        read.walk fat_table fuel (fat_table ⟨cluster_number.toNat, h⟩) (delivered ++ [buf])
      else
        .fault

def read.find_entry (table : FAT32DirectoryTable) (request : FAT32DriverRequest)
    : Option (Fin 64) :=
  (List.finRange 64).find? fun i =>
    memcmp (table i).name request.name = 0 ∧ memcmp (table i).ext request.ext = 0

def read.found (driver_state : FAT32DriverState) (request : FAT32DriverRequest) (i : Fin 64)
    : DiskM (Int × FAT32DriverState × List ClusterBuffer) := do
  let entry := driver_state.dir_table_buf i
  if entry.attribute = ATTR_SUBDIRECTORY then
    return (1, driver_state, [])
  else if entry.filesize > request.buffer_size then
    return (-1, driver_state, [])
  else
    let cluster_number := (entry.cluster_high.toUInt32 <<< 16) + entry.cluster_low.toUInt32
    let delivered ← read.walk driver_state.fat_table 513 cluster_number []
    return (0, driver_state, delivered)

def read (driver_state : FAT32DriverState) (request : FAT32DriverRequest)
    : DiskM (Int × FAT32DriverState × List ClusterBuffer) := do
  let dir_table_buf ← read_clusters request.parent_cluster_number
  let table := FAT32DirectoryTable.ofCluster dir_table_buf
  if ¬ (table 0).user_attribute = UATTR_NOT_EMPTY then
    return (-1, { driver_state with dir_table_buf := table }, [])
  let fat_table ← read_clusters FAT_CLUSTER_NUMBER
  let driver_state := ⟨.ofCluster fat_table, table⟩
  match read.find_entry table request with
  | some i => read.found driver_state request i
  | none => return (2, driver_state, [])

end AiOS
