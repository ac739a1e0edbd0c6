import AiOS.Shell.Basic

/-!
This module contains the functions of `user-shell.c` that the commands share, and `cd.c`.
-/

namespace AiOS

def isAbsolutePath (path : List UInt8) : Bool :=
  path.head? = some 0x2F

def updateDirectoryTable (dirCluster : UInt32) : ShellM Unit := do
  let table ← syscall.read_clusters dirCluster
  modify fun s => { s with dirTable := table }

-- `cluster_high << 16 | cluster_low`
def FAT32DirectoryEntry.cluster_number (entry : FAT32DirectoryEntry) : UInt32 :=
  entry.cluster_high.toUInt32 <<< 16 ||| entry.cluster_low.toUInt32

-- the characters of a name that is copied into a longer row of zeros
def name_chars (name : Fin 8 → UInt8) : List UInt8 :=
  (List.ofFn name).takeWhile fun c => c ≠ 0

/--
The loop that climbs to the root, with as many iterations as `tempDir` has rows left.
-/
def printDir.climb (rows : Nat) (dir : UInt32) (tempDir : List (Fin 8 → UInt8))
    : ShellM (List (Fin 8 → UInt8)) :=
  if dir = ROOT_CLUSTER_NUMBER then
    return tempDir
  else
    match rows with
    | 0 => Fallible.ofOption none
    | rows + 1 => do
      updateDirectoryTable dir
      let s ← get
      printDir.climb rows (s.dirTable 1).cluster_number (tempDir ++ [(s.dirTable 0).name])

-- the names that are left, from the last to the first
def printDir.names : List (Fin 8 → UInt8) → ShellM Unit
  | [] => return ()
  | [name] => printlen (name_chars name) 0xB
  | name :: rest => do
    printlen (name_chars name) 0xB
    print "/" 0xB
    printDir.names rest

def printDir : ShellM Unit := do
  print "/" 0xB
  let s ← get
  let tempDir ← printDir.climb 32 s.currentDirectory []
  printDir.names tempDir.reverse
  print "$ " 0xF

def findDirEntryIndex (dirTable : FAT32DirectoryTable) (entryName : Fin 8 → UInt8)
    : Option (Fin 64) :=
  (List.finRange 64).find? fun i =>
    memcmp (dirTable i).name entryName = 0 ∧ (dirTable i).user_attribute = UATTR_NOT_EMPTY

/--
The loop of `parsePath` and `parseExt` over the characters that are left. A store past the end of a
row goes to the next one.
-/
def split (separator : UInt8) (chars : List UInt8) (wordCount wordIndex : Nat) (output : PathList)
    : Option (PathList × Nat) :=
  match chars with
  | [] => some (output, wordCount)
  | c :: chars =>
    if c = separator then
      split separator chars (wordCount + 1) 0 output
    else do
      let output ← store output (10 * (wordCount - 1) + wordIndex) [c]
      split separator chars wordCount (wordIndex + 1) output

def parse (separator : UInt8) (path : List UInt8) : Option (PathList × Nat) := do
  let chars ← strlen.chars path
  if chars.head? = some separator then
    split separator chars.tail 1 0 fun _ => 0
  else
    split separator chars 1 0 fun _ => 0

def parsePath (path : List UInt8) : Option (PathList × Nat) :=
  parse 0x2F path

def parseExt (path : List UInt8) : Option (PathList × Nat) :=
  parse 0x2E path

-- the loop over `index`, with the components that are left
def cd.walk (startDir : UInt32) (path : PathList) (indices : List Nat) : ShellM Int :=
  match indices with
  | [] => return 0
  | index :: indices => do
    let entryName ← Fallible.ofOption (bytes 8 (path.row index))
    let s ← get
    match findDirEntryIndex s.dirTable entryName with
    | none => do
      setCurrentDirectory startDir
      return 2
    | some entry =>
      if (s.dirTable entry).attribute ≠ ATTR_SUBDIRECTORY then do
        setCurrentDirectory startDir
        return 3
      else do
        setCurrentDirectory (s.dirTable entry).cluster_number
        updateDirectoryTable (s.dirTable entry).cluster_number
        cd.walk startDir path indices

def cd (argv : Argv) (argc : Nat) (isdir : Bool) : ShellM Int :=
  if argc > 2 then do
    print "Error: too many arguments\n" 0xF
    return 1
  else do
    let s ← get
    let (path, wordCount) ← Fallible.ofOption (parsePath (argv.row 1))
    let lenPath := if isdir then wordCount else wordCount - 1
    let directory :=
      if isAbsolutePath (argv.row 1) then ROOT_CLUSTER_NUMBER else s.currentDirectory
    setCurrentDirectory directory
    updateDirectoryTable directory
    cd.walk s.currentDirectory path (List.range lenPath)

end AiOS
