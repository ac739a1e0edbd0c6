import AiOS.Fat32.Impl.Delete
import AiOS.Fat32.Impl.Read
import AiOS.Lib.Fallible
import AiOS.Process.Impl.Process

/-!
This module contains the state of the user shell, which carries its own copy of `fat32.c`, and the
calls that its commands are made of.
-/

namespace AiOS

-- one meaning for the numerals of these types in all modules
instance instNeZero3 : NeZero 3 := ⟨by decide⟩

-- `char argv[4][100]` and `char output[16][10]`, row after row
abbrev Argv : Type :=
  Fin 400 → UInt8

abbrev PathList : Type :=
  Fin 160 → UInt8

/--
What a function finds in its uninitialised local variables. `clusterBuff` is the address of the
variable of that name, and `memory` what lies around it.
-/
structure Locals where
  request : FAT32DriverRequest
  newDirectoryTable : FAT32DirectoryTable
  dirTable : FAT32DirectoryTable
  argvS : Argv
  argvD : Argv
  clusterBuff : UInt32
  memory : UInt32 → UInt8

/--
The shell with the kernel it runs on. `driver_state` is the one of the shell's `fat32.c`, next to
that of the kernel. `stack` is what the functions to come will find in their uninitialised local
variables, and `printed` what has gone to the screen since it was cleared, with its colour.
-/
structure Shell where
  kernel : KernelState
  driver_state : FAT32DriverState
  currentDirectory : UInt32
  dirTable : FAT32DirectoryTable
  stack : Nat → Locals
  printed : List (List UInt8 × UInt32)

/--
A function of the shell, without a result where it leaves what C defines: an access outside of an
array, a string without an end, a broken chain.
-/
abbrev ShellM (α : Type) : Type :=
  Fallible Shell α

def uninitialised : ShellM Locals := do
  let s ← get
  modify fun s => { s with stack := fun n => s.stack (n + 1) }
  return s.stack 0

def setCurrentDirectory (currentDirectory : UInt32) : ShellM Unit :=
  modify fun s => { s with currentDirectory := currentDirectory }

-- `string` are the bytes from a `char *` to the end of its array
def strlen (string : List UInt8) : Option Nat :=
  string.findIdx? fun c => c = 0

def strlen.chars (string : List UInt8) : Option (List UInt8) :=
  (strlen string).map fun len => string.take len

def bytes (n : Nat) (string : List UInt8) : Option (Fin n → UInt8) :=
  if h : n ≤ string.length then
    some fun k => string[k]
  else
    none

def store {n : Nat} (dest : Fin n → UInt8) (start : Nat) (src : List UInt8)
    : Option (Fin n → UInt8) :=
  if start + src.length ≤ n then
    some fun k => if start ≤ k.val then src.getD (k - start) (dest k) else dest k
  else
    none

theorem Argv.row_lt {k : Nat} (h : k < 100) : 100 + k < 400 := by
  omega

theorem Argv.next_row_lt {k : Fin 400} (h : k.val < 200) : 100 + k.val < 400 := by
  omega

def Argv.row (argv : Argv) (i : Nat) : List UInt8 :=
  (List.ofFn argv).drop (100 * i)

def PathList.row (pathList : PathList) (i : Nat) : List UInt8 :=
  (List.ofFn pathList).drop (10 * i)

def ascii (text : String) : List UInt8 :=
  text.toList.map fun c => UInt8.ofNat c.toNat

def printlen (string : List UInt8) (color : UInt32) : ShellM Unit :=
  modify fun s => { s with printed := s.printed ++ [(string, color)] }

def print (text : String) (color : UInt32) : ShellM Unit :=
  printlen (ascii text) color

-- `print` of a string that is no literal
def print.chars (string : List UInt8) (color : UInt32) : ShellM Unit := do
  let chars ← Fallible.ofOption (strlen.chars string)
  printlen chars color

section

variable {γ : Type} {f : Shell → γ}
  (hf : ∀ (s : Shell) printed, f { s with printed := printed } = f s)

include hf

theorem keeps_printlen (string : List UInt8) (color : UInt32)
    : Fallible.Keeps f (printlen string color) := by
  apply Fallible.Keeps.of_modify
  intro s
  apply hf

theorem keeps_print_chars (string : List UInt8) (color : UInt32)
    : Fallible.Keeps f (print.chars string color) := by
  apply Fallible.Keeps.bind
  . apply Fallible.Keeps.of_ofOption
  . intro chars
    apply keeps_printlen hf

theorem keeps_not_found (string : List UInt8) (color : UInt32)
    : Fallible.Keeps f (do
        print "Error: no such File: " color
        print.chars string color
        print "\n" 0xF) := by
  apply Fallible.Keeps.bind (keeps_printlen hf _ _)
  intro _
  apply Fallible.Keeps.bind (keeps_print_chars hf _ _)
  intro _
  apply keeps_printlen hf

end

def onDisk {α : Type} (p : DiskM α) : ShellM α := do
  let s ← get
  let (a, disk) ← Fallible.ofOption (p.run diskDevice s.kernel.disk)
  modify fun s => { s with kernel := { s.kernel with disk := disk } }
  return a

namespace Shell

def read (request : FAT32DriverRequest) : ShellM (Int × List ClusterBuffer) := do
  let s ← get
  let (code, driver_state, delivered) ← onDisk (AiOS.read s.driver_state request)
  modify fun s => { s with driver_state := driver_state }
  return (code, delivered)

def write (memory : UInt32 → UInt8) (request : FAT32DriverRequest) : ShellM Int := do
  let s ← get
  let locals ← uninitialised
  let (code, driver_state) ←
    onDisk (AiOS.write s.driver_state memory locals.newDirectoryTable request)
  modify fun s => { s with driver_state := driver_state }
  return code

def delete (request : FAT32DriverRequest) : ShellM Int := do
  let s ← get
  let locals ← uninitialised
  let (code, driver_state) ← onDisk (AiOS.delete s.driver_state locals.dirTable request)
  modify fun s => { s with driver_state := driver_state }
  return code

end Shell

namespace syscall

-- system call 0
def read (request : FAT32DriverRequest) : ShellM (Int × List ClusterBuffer) := do
  let s ← get
  let (code, driver_state, delivered) ← onDisk (AiOS.read s.kernel.driver_state request)
  modify fun s => { s with kernel := { s.kernel with driver_state := driver_state } }
  return (code, delivered)

-- system call 8, into a directory table
def read_clusters (cluster_number : UInt32) : ShellM FAT32DirectoryTable := do
  let buf ← onDisk (AiOS.read_clusters cluster_number)
  return .ofCluster buf

-- system call 10
def process_destroy (pid : UInt32) : ShellM Bool := do
  let s ← get
  let (success, kernel) ← Fallible.ofOption (AiOS.process_destroy pid s.kernel)
  modify fun s => { s with kernel := kernel }
  return success

-- system call 11
def process_create_user_process (layout : Layout) (request : FAT32DriverRequest) : ShellM Int := do
  let s ← get
  let (code, kernel) ←
    Fallible.ofOption (AiOS.process_create_user_process layout request s.kernel)
  modify fun s => { s with kernel := kernel }
  return code

end syscall

end AiOS
