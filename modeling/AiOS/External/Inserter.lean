import AiOS.Disk.Image
import AiOS.Fat32.Format

/-!
This module contains `main` of `external-inserter.c`. The image of the disk is the disk that its
`read_blocks` and `write_blocks` work on, and what is printed is left out.
-/

namespace AiOS
namespace Inserter

-- `isspace` and `isdigit` in the C locale
def isspace (c : UInt8) : Bool :=
  c = 0x20 || (0x09 ≤ c && c ≤ 0x0D)

def isdigit (c : UInt8) : Bool :=
  0x30 ≤ c && c ≤ 0x39

/--
`sscanf` with the directive `%8s`, into eight bytes that are zero.
-/
def sscanf_s (string : List UInt8) : Fin 8 → UInt8 :=
  fun k => ((string.dropWhile isspace).takeWhile fun c => !isspace c).getD k 0

def sscanf_u.digits (string : List UInt8) : UInt32 :=
  (string.takeWhile isdigit).foldl (fun n c => 10 * n + (c - 0x30).toUInt32) 0

/--
`sscanf` with the directive `%u`, for a number of 32 bits, into an integer that is zero.
-/
def sscanf_u (string : List UInt8) : UInt32 :=
  let string := string.dropWhile isspace
  if string.head? = some 0x2D then
    0 - sscanf_u.digits string.tail
  else if string.head? = some 0x2B then
    sscanf_u.digits string.tail
  else
    sscanf_u.digits string

/--
`argv[1]`, `argv[2]`, and the bytes of the file with the name `argv[1]`, if it can be opened.
-/
structure Arguments where
  file : List UInt8
  parent : List UInt8
  content : Option (List UInt8)

/--
What `main` and the functions it calls find in memory that was not written before.
-/
structure Leftovers where
  file_buffer : UInt32 → UInt8
  after_literal : Fin 3 → UInt8
  newDirectoryTable : FAT32DirectoryTable

namespace Arguments

-- a file that cannot be opened has the size 0
def target (args : Arguments) : List UInt8 :=
  args.content.getD []

-- after `fread`, with indices in the place of addresses
def file_buffer (args : Arguments) (leftovers : Leftovers) : UInt32 → UInt8 :=
  fun a => (args.target.take (4 * 1024 * 1024)).getD a.toNat (leftovers.file_buffer a)

def request (args : Arguments) : FAT32DriverRequest where
  buf := 0
  name := sscanf_s args.file
  ext := ![0, 0, 0]
  parent_cluster_number := sscanf_u args.parent
  buffer_size := UInt32.ofNat args.target.length

end Arguments

def main (args : Arguments) (leftovers : Leftovers) : DiskM Int := do
  let driver_state ← initialize_filesystem_fat32 .zero leftovers.after_literal
  let (retcode, _) ← AiOS.write driver_state (args.file_buffer leftovers)
    leftovers.newDirectoryTable args.request
  return retcode

end Inserter

open Inserter

/--
The image of the disk, which is new and then given to the inserter any number of times.
-/
def inserter : System Disk Arguments where
  init d := d = create_fat32.blank
  step d args d' := ∃ leftovers code, (main args leftovers).run diskDevice d = some (code, d')

/--
Once the image is formatted, the parent is one of its directories, and `write` does not run short of
clusters after its checks.
-/
def Inserter.Arguments.Fits (args : Arguments) (d : Disk) : Prop :=
  ∀ after_literal st d',
    (initialize_filesystem_fat32 .zero after_literal).run diskDevice d = some (st, d') →
      d'.Directory args.request.parent_cluster_number.toNat ∧ ¬ write.short args.request d'

end AiOS
