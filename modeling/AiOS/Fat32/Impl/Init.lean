import AiOS.Fat32.Basic
import AiOS.Stdlib.String

/-!
This module contains the set-up half of `fat32.c`: cluster access, directory tables, and the
creation and the mounting of a file system.
-/

namespace AiOS

def fs_signature : Block :=
  fun k =>
    if k.val < 80 then
      UInt8.ofNat ((
        "Course          " ++
        "Designed by     " ++
        "Lab Sister ITB  " ++
        "Made with <3    " ++
        "-----------2024\n").toList.getD k.val 'x').toNat
    else if k.val = 510 then
      0x4F
    else if k.val = 511 then
      0x6B
    else
      0

def cluster_to_lba (cluster : UInt32) : UInt32 :=
  cluster * 4

-- every call passes a `cluster_count` of 1
def write_clusters (ptr : ClusterBuffer) (cluster_number : UInt32) : DiskM Unit :=
  write_blocks ptr (cluster_to_lba cluster_number)

def read_clusters (cluster_number : UInt32) : DiskM ClusterBuffer :=
  read_blocks (cluster_to_lba cluster_number) CLUSTER_BLOCK_COUNT

def init_directory_table (dir_table : FAT32DirectoryTable) (name : Fin 8 → UInt8)
    (parent_dir_cluster : UInt32) : FAT32DirectoryTable :=
  fun i =>
    if i = 0 then
      { dir_table i with
        name := name
        user_attribute := UATTR_NOT_EMPTY
        «attribute» := ATTR_SUBDIRECTORY }
    else if i = 1 then
      { dir_table i with
        name := memcpy (dir_table i).name ![0x2E, 0x2E, 0]
        user_attribute := UATTR_NOT_EMPTY
        «attribute» := ATTR_SUBDIRECTORY
        cluster_low := parent_dir_cluster.toUInt16
        cluster_high := (parent_dir_cluster >>> 16).toUInt16 }
    else
      { dir_table i with user_attribute := 0 }

def is_empty_storage : DiskM Bool := do
  let block ← read_blocks 0 1
  return memcmp (block 0) fs_signature ≠ 0

/--
The eight bytes that `memcpy` takes from the literal `"root"`: its five, and three that follow it.
-/
def root_name (after_literal : Fin 3 → UInt8) : Fin 8 → UInt8 :=
  Fin.append ![0x72, 0x6F, 0x6F, 0x74, 0] after_literal

def create_fat32.fat_table : FAT32FileAllocationTable :=
  fun i =>
    if i = 0 then
      CLUSTER_0_VALUE
    else if i = 1 then
      CLUSTER_1_VALUE
    else if i = 2 then
      FAT32_FAT_END_OF_FILE
    else
      FAT32_FAT_EMPTY_ENTRY

def create_fat32 (driver_state : FAT32DriverState) (after_literal : Fin 3 → UInt8)
    : DiskM FAT32DriverState := do
  write_blocks (fun _ : Fin 1 => fs_signature) 0
  write_clusters create_fat32.fat_table.toCluster 1
  let dir_table_buf :=
    init_directory_table driver_state.dir_table_buf (root_name after_literal) 2
  write_clusters dir_table_buf.toCluster 2
  return ⟨create_fat32.fat_table, dir_table_buf⟩

def initialize_filesystem_fat32 (driver_state : FAT32DriverState) (after_literal : Fin 3 → UInt8)
    : DiskM FAT32DriverState := do
  if ← is_empty_storage then
    create_fat32 driver_state after_literal
  else
    let fat_table ← read_clusters 1
    return { driver_state with fat_table := .ofCluster fat_table }

end AiOS
