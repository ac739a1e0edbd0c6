import AiOS.Fat32.Impl.Init

/-!
This module contains `write` of `fat32.c`.
-/

namespace AiOS

namespace write

-- the bounds of `for (int i = 2; i < 64; i++)` and `for (int j = 3; j < 512; j++)`
def slots : List (Fin 64) :=
  (List.finRange 64).drop 2

def clusters : List (Fin 512) :=
  (List.finRange 512).drop 3

def required_clusters (request : FAT32DriverRequest) : Nat :=
  let size := request.buffer_size.toNat
  let required := size / CLUSTER_SIZE + (if size % CLUSTER_SIZE ≠ 0 then 1 else 0)
  if required = 0 then
    1
  else
    required

-- `available_clusters` is the length of `cluster_numbers`, the part of that array filled so far
structure Found where
  entry_number : Option (Fin 64)
  cluster_numbers : List (Fin 512)
  deriving DecidableEq

def find_clusters (fat_table : FAT32FileAllocationTable) (required : Nat) (i : Fin 64)
    (js : List (Fin 512)) (found : Found) : Found :=
  match js with
  | [] => found
  | j :: js =>
    let found :=
      if fat_table j = FAT32_FAT_EMPTY_ENTRY then
        { found with cluster_numbers := found.cluster_numbers ++ [j] }
      else
        found
    if found.cluster_numbers.length = required then
      { found with entry_number := some i }
    else
      find_clusters fat_table required i js found

-- `none` is the return in the middle of the loop, on an entry with the same name and extension
def find_slot (table : FAT32DirectoryTable) (fat_table : FAT32FileAllocationTable)
    (request : FAT32DriverRequest) (required : Nat) (is : List (Fin 64)) (found : Found)
    : Option Found :=
  match is with
  | [] => some found
  | i :: is =>
    let found :=
      if (table i).user_attribute ≠ UATTR_NOT_EMPTY ∧ found.cluster_numbers.length ≠ required then
        find_clusters fat_table required i clusters found
      else
        found
    if (table i).user_attribute = UATTR_NOT_EMPTY ∧ memcmp request.name (table i).name = 0 ∧
        memcmp request.ext (table i).ext = 0 then
      none
    else
      find_slot table fat_table request required is found

def new_entry (old : FAT32DirectoryEntry) (request : FAT32DriverRequest) (cluster : UInt32)
    : FAT32DirectoryEntry :=
  let entry :=
    { old with
      user_attribute := UATTR_NOT_EMPTY
      cluster_high := (cluster >>> 16).toUInt16
      cluster_low := cluster.toUInt16
      name := request.name }
  if request.buffer_size = 0 then
    { entry with «attribute» := ATTR_SUBDIRECTORY }
  else
    { entry with
      «attribute» := 0
      ext := request.ext
      filesize := request.buffer_size
      user_attribute := UATTR_NOT_EMPTY }

def file_cluster (memory : UInt32 → UInt8) (buf : UInt32) (k : Nat) : ClusterBuffer :=
  .ofBytes fun o => memory (buf + UInt32.ofNat (k * CLUSTER_SIZE + o))

-- the loop over `k`, with the cluster numbers it still has to fill
def file_clusters (memory : UInt32 → UInt8) (buf : UInt32) (k : Nat)
    (cluster_numbers : List (Fin 512)) (fat_table : FAT32FileAllocationTable)
    : DiskM FAT32FileAllocationTable :=
  match cluster_numbers with
  | [] => return fat_table
  | c :: cs => do
    write_clusters (file_cluster memory buf k) (UInt32.ofNat c)
    let next :=
      match cs with
      | [] => FAT32_FAT_END_OF_FILE
      | c' :: _ => UInt32.ofNat c'
    file_clusters memory buf (k + 1) cs (Function.update fat_table c next)

def directory_cluster (newDirectoryTable : FAT32DirectoryTable) (request : FAT32DriverRequest)
    (cluster : Fin 512) (fat_table : FAT32FileAllocationTable) : DiskM FAT32FileAllocationTable := do
  let newDirectoryTable :=
    init_directory_table newDirectoryTable request.name request.parent_cluster_number
  let fat_table : FAT32FileAllocationTable := Function.update fat_table cluster FAT32_FAT_END_OF_FILE
  write_clusters newDirectoryTable.toCluster (UInt32.ofNat cluster)
  return fat_table

def fill (memory : UInt32 → UInt8) (newDirectoryTable : FAT32DirectoryTable)
    (request : FAT32DriverRequest) (cluster_numbers : List (Fin 512))
    (fat_table : FAT32FileAllocationTable) : DiskM FAT32FileAllocationTable :=
  if request.buffer_size = 0 then
    directory_cluster newDirectoryTable request (cluster_numbers.headD 0) fat_table
  else
    file_clusters memory request.buf 0 cluster_numbers fat_table

end write

/--
`newDirectoryTable` is what the local variable of that name holds before it is initialised, and `stack`
the bytes that the stack has left for `cluster_numbers[required_clusters]`, `none` where these are
always enough.
-/
def write.onStack (stack : Option Nat) (_driver_state : FAT32DriverState) (memory : UInt32 → UInt8)
    (newDirectoryTable : FAT32DirectoryTable) (request : FAT32DriverRequest)
    : DiskM (Int × FAT32DriverState) := do
  let dir_table_buf ← read_clusters request.parent_cluster_number
  let table := FAT32DirectoryTable.ofCluster dir_table_buf
  let fat_table ← read_clusters FAT_CLUSTER_NUMBER
  let fat_table := FAT32FileAllocationTable.ofCluster fat_table
  if ¬ (table 0).user_attribute = UATTR_NOT_EMPTY ∨ ¬ (table 0).attribute = ATTR_SUBDIRECTORY then
    return (2, ⟨fat_table, table⟩)
  let required := write.required_clusters request
  if stack.any fun room => room < 4 * required then
    .fault
  else
    match write.find_slot table fat_table request required write.slots ⟨none, []⟩ with
    | none => return (1, ⟨fat_table, table⟩)
    | some ⟨none, _⟩ => return (-1, ⟨fat_table, table⟩)
    | some ⟨some entry_number, cluster_numbers⟩ =>
      let cluster := cluster_numbers.headD 0
      let entry := write.new_entry (table entry_number) request (UInt32.ofNat cluster)
      let table : FAT32DirectoryTable := Function.update table entry_number entry
      let fat_table ← write.fill memory newDirectoryTable request cluster_numbers fat_table
      write_clusters fat_table.toCluster 1
      write_clusters table.toCluster request.parent_cluster_number
      return (0, ⟨fat_table, table⟩)

def write (driver_state : FAT32DriverState) (memory : UInt32 → UInt8)
    (newDirectoryTable : FAT32DirectoryTable) (request : FAT32DriverRequest)
    : DiskM (Int × FAT32DriverState) :=
  write.onStack none driver_state memory newDirectoryTable request

end AiOS
