import AiOS.Disk.Basic
import AiOS.Lib.LittleEndian

/-!
This module contains the data of `fat32.h`: the file allocation table, the directory entries and
tables, the driver state and the driver request, and the bytes of the packed structures.
-/

namespace AiOS

-- one meaning for the numerals of these types in all modules
instance instNeZero8 : NeZero 8 := ⟨by decide⟩
instance instNeZero64 : NeZero 64 := ⟨by decide⟩
instance instNeZero512 : NeZero 512 := ⟨by decide⟩

abbrev CLUSTER_BLOCK_COUNT : Nat := 4
abbrev CLUSTER_SIZE : Nat := 2048

abbrev CLUSTER_0_VALUE : UInt32 := 0x0FFFFFF0
abbrev CLUSTER_1_VALUE : UInt32 := 0x0FFFFFFF

abbrev FAT32_FAT_END_OF_FILE : UInt32 := 0x0FFFFFFF
abbrev FAT32_FAT_EMPTY_ENTRY : UInt32 := 0x00000000

abbrev FAT_CLUSTER_NUMBER : UInt32 := 1
abbrev ROOT_CLUSTER_NUMBER : UInt32 := 2

abbrev ATTR_SUBDIRECTORY : UInt8 := 0b00010000
abbrev UATTR_NOT_EMPTY : UInt8 := 0b10101010

abbrev ClusterBuffer : Type :=
  Blocks 4

abbrev FAT32FileAllocationTable : Type :=
  Fin 512 → UInt32

structure FAT32DirectoryEntry where
  name : Fin 8 → UInt8
  ext : Fin 3 → UInt8
  «attribute» : UInt8
  user_attribute : UInt8
  undelete : UInt8
  create_time : UInt16
  create_date : UInt16
  access_date : UInt16
  cluster_high : UInt16
  modified_time : UInt16
  modified_date : UInt16
  cluster_low : UInt16
  filesize : UInt32
  deriving DecidableEq

abbrev FAT32DirectoryTable : Type :=
  Fin 64 → FAT32DirectoryEntry

-- `cluster_buf` of the driver state is left out, no function reads or writes it
structure FAT32DriverState where
  fat_table : FAT32FileAllocationTable
  dir_table_buf : FAT32DirectoryTable

def FAT32DirectoryEntry.zero : FAT32DirectoryEntry :=
  ⟨fun _ => 0, fun _ => 0, 0, 0, 0, 0, 0, 0, 0, 0, 0, 0, 0⟩

def FAT32DriverState.zero : FAT32DriverState :=
  ⟨fun _ => 0, fun _ => .zero⟩

structure FAT32DriverRequest where
  buf : UInt32
  name : Fin 8 → UInt8
  ext : Fin 3 → UInt8
  parent_cluster_number : UInt32
  buffer_size : UInt32

namespace ClusterBuffer

def byte (buf : ClusterBuffer) (k : Fin 2048) : UInt8 :=
  buf ⟨k / 512, by omega⟩ ⟨k % 512, by omega⟩

def ofBytes (bytes : Fin 2048 → UInt8) : ClusterBuffer :=
  fun i o => bytes ⟨512 * i + o, by omega⟩

@[simp]
theorem byte_ofBytes (bytes : Fin 2048 → UInt8) (k : Fin 2048)
    : (ofBytes bytes).byte k = bytes k := by
  unfold byte ofBytes
  congr
  dsimp
  omega

@[simp]
theorem ofBytes_byte (buf : ClusterBuffer) : ofBytes buf.byte = buf := by
  funext i o
  unfold byte ofBytes
  have hi : (512 * i.val + o.val) / 512 = i := by omega
  have ho : (512 * i.val + o.val) % 512 = o := by omega
  simp only [hi, ho]

def byteOf (bufs : List ClusterBuffer) (k : Nat) : Option UInt8 :=
  bufs[k / 2048]?.map fun buf => buf.byte ⟨k % 2048, by omega⟩

end ClusterBuffer

namespace FAT32DirectoryEntry

open LittleEndian

def ofBytes (b : Fin 32 → UInt8) : FAT32DirectoryEntry where
  name k := b ⟨k, by omega⟩
  ext k := b ⟨8 + k, by omega⟩
  «attribute» := b 11
  user_attribute := b 12
  undelete := b 13
  create_time := toUInt16 (b 14) (b 15)
  create_date := toUInt16 (b 16) (b 17)
  access_date := toUInt16 (b 18) (b 19)
  cluster_high := toUInt16 (b 20) (b 21)
  modified_time := toUInt16 (b 22) (b 23)
  modified_date := toUInt16 (b 24) (b 25)
  cluster_low := toUInt16 (b 26) (b 27)
  filesize := toUInt32 (b 28) (b 29) (b 30) (b 31)

def toBytes (e : FAT32DirectoryEntry) (k : Fin 32) : UInt8 :=
  if h : k.val < 8 then e.name ⟨k, h⟩
  else if h : k.val < 11 then e.ext ⟨k - 8, by omega⟩
  else if k.val = 11 then e.attribute
  else if k.val = 12 then e.user_attribute
  else if k.val = 13 then e.undelete
  else if k.val < 16 then byte e.create_time.toNat (k - 14)
  else if k.val < 18 then byte e.create_date.toNat (k - 16)
  else if k.val < 20 then byte e.access_date.toNat (k - 18)
  else if k.val < 22 then byte e.cluster_high.toNat (k - 20)
  else if k.val < 24 then byte e.modified_time.toNat (k - 22)
  else if k.val < 26 then byte e.modified_date.toNat (k - 24)
  else if k.val < 28 then byte e.cluster_low.toNat (k - 26)
  else byte e.filesize.toNat (k - 28)

@[simp]
theorem ofBytes_toBytes (e : FAT32DirectoryEntry) : ofBytes e.toBytes = e := by
  cases e
  simp only [ofBytes, toBytes, mk.injEq]
  refine ⟨?_, ?_, ?_⟩
  . funext k
    simp
  . funext k
    have hge : ¬ 8 + k.val < 8 := by omega
    have hlt : 8 + k.val < 11 := by omega
    simp [hge, hlt]
  . simp

@[simp]
theorem toBytes_ofBytes (b : Fin 32 → UInt8) : (ofBytes b).toBytes = b := by
  funext k
  fin_cases k
  all_goals simp [ofBytes, toBytes]

end FAT32DirectoryEntry

namespace FAT32DirectoryTable

def ofCluster (buf : ClusterBuffer) : FAT32DirectoryTable :=
  fun i => .ofBytes fun k => buf.byte ⟨32 * i + k, by omega⟩

def toCluster (t : FAT32DirectoryTable) : ClusterBuffer :=
  .ofBytes fun k => (t ⟨k / 32, by omega⟩).toBytes ⟨k % 32, by omega⟩

@[simp]
theorem ofCluster_toCluster (t : FAT32DirectoryTable) : ofCluster t.toCluster = t := by
  funext i
  unfold ofCluster toCluster
  rw [← FAT32DirectoryEntry.ofBytes_toBytes (t i)]
  congr
  funext k
  rw [ClusterBuffer.byte_ofBytes]
  congr
  . dsimp
    omega
  . dsimp
    omega

@[simp]
theorem toCluster_ofCluster (buf : ClusterBuffer) : toCluster (ofCluster buf) = buf := by
  rw [← ClusterBuffer.ofBytes_byte buf]
  unfold toCluster
  congr
  funext k
  simp only [ofCluster, FAT32DirectoryEntry.toBytes_ofBytes, ClusterBuffer.ofBytes_byte]
  congr
  omega

end FAT32DirectoryTable

namespace FAT32FileAllocationTable

open LittleEndian

def ofCluster (buf : ClusterBuffer) : FAT32FileAllocationTable :=
  fun j =>
    toUInt32 (buf.byte ⟨4 * j, by omega⟩) (buf.byte ⟨4 * j + 1, by omega⟩)
      (buf.byte ⟨4 * j + 2, by omega⟩) (buf.byte ⟨4 * j + 3, by omega⟩)

def toCluster (fat : FAT32FileAllocationTable) : ClusterBuffer :=
  .ofBytes fun k => byte (fat ⟨k / 4, by omega⟩).toNat (k % 4)

@[simp]
theorem ofCluster_toCluster (fat : FAT32FileAllocationTable) : ofCluster fat.toCluster = fat := by
  funext j
  have h0 : 4 * j.val / 4 = j := by omega
  have h1 : (4 * j.val + 1) / 4 = j := by omega
  have h2 : (4 * j.val + 2) / 4 = j := by omega
  have h3 : (4 * j.val + 3) / 4 = j := by omega
  have h4 : (4 * j.val + 1) % 4 = 1 := by omega
  have h5 : (4 * j.val + 2) % 4 = 2 := by omega
  have h6 : (4 * j.val + 3) % 4 = 3 := by omega
  simp [ofCluster, toCluster, h0, h1, h2, h3, h4, h5, h6]

end FAT32FileAllocationTable

end AiOS
