import AiOS.Shell.Impl.UserShell

/-!
This module contains `ls.c`, `mkdir.c`, `rm.c`, `cat.c` and `find.c`, and what `exec.c` has in common
with `cat.c`.
-/

namespace AiOS

def print.name (name : Fin 8 → UInt8) : ShellM Unit :=
  if name 7 ≠ 0 then
    printlen (List.ofFn name) 0xF
  else
    printlen (name_chars name) 0xF

def ls.entry (entry : FAT32DirectoryEntry) : ShellM Unit := do
  print.name entry.name
  if entry.attribute ≠ ATTR_SUBDIRECTORY ∧ entry.ext 0 ≠ 0 then
    print "." 0xF
    if entry.ext 2 ≠ 0 then
      printlen ((List.ofFn entry.name).take 3) 0xF
  print "\n" 0xF

def ls.list : ShellM Unit := do
  let s ← get
  updateDirectoryTable s.currentDirectory
  let s ← get
  write.slots.forM fun i =>
    if (s.dirTable i).user_attribute = UATTR_NOT_EMPTY then
      ls.entry (s.dirTable i)
    else
      return ()

def ls (argv : Argv) (argc : Nat) : ShellM Unit := do
  let s ← get
  let retval ← if argc = 1 then pure 0 else cd argv argc true
  if retval = 0 then
    ls.list
  setCurrentDirectory s.currentDirectory

-- the uninitialised `request` with the fields that `mkdir` and `rm` set
def mkdir.request (argv : Argv) : ShellM FAT32DriverRequest := do
  let (pathList, pathCount) ← Fallible.ofOption (parsePath (argv.row 1))
  let locals ← uninitialised
  let name ← Fallible.ofOption (bytes 8 (pathList.row (pathCount - 1)))
  let s ← get
  return { locals.request with
    name := name
    buffer_size := 0
    parent_cluster_number := s.currentDirectory }

def mkdir (argv : Argv) (argc : Nat) : ShellM Int :=
  if argc > 2 then do
    print "Error: too many arguments\n" 0xF
    return -2
  else if argc < 2 then do
    print "Error: too few arguments\n" 0xF
    return -2
  else do
    let s ← get
    let retval ← cd argv argc false
    if retval ≠ 0 then
      return -2
    else
      let request ← mkdir.request argv
      -- a directory takes nothing from `request.buf`
      let retval ← Shell.write (fun _ => 0) request
      setCurrentDirectory s.currentDirectory
      return retval

def rm.report (retval : Int) : ShellM Unit :=
  if retval = 1 then
    print "Error: file/directory does not exists\n" 0xF
  else if retval = 2 then
    print "Error: folder tidak kosong\n" 0xF
  else if retval = -1 then
    print "Error: root tidak dapat dihapus\n" 0xF
  else
    return ()

def rm (argv : Argv) (argc : Nat) : ShellM Unit :=
  if argc > 2 then
    print "Error: too many arguments\n" 0xF
  else do
    let s ← get
    let retval ← cd argv argc false
    if retval ≠ 0 then
      return ()
    else
      let request ← mkdir.request argv
      let retval ← Shell.delete request
      rm.report retval
      setCurrentDirectory s.currentDirectory

-- byte `k` of `clusterBuff`, which is zero where nothing was delivered
def clusterBuff.byte (delivered : List ClusterBuffer) (k : Nat) : UInt8 :=
  (ClusterBuffer.byteOf delivered k).getD 0

/--
The part that `cat` and `exec` share, from their `cd` on. `serve` gets the request for the file.
-/
def openFile (color : UInt32) (buffer_size : UInt32) (serve : FAT32DriverRequest → ShellM Unit)
    (argv : Argv) (argc : Nat) : ShellM Unit := do
  let s ← get
  let resultCD ← cd argv argc false
  if resultCD = 0 then
    let (pathList, pathCount) ← Fallible.ofOption (parsePath (argv.row 1))
    let (output, _) ← Fallible.ofOption (parseExt (pathList.row (pathCount - 1)))
    let name ← Fallible.ofOption (bytes 8 (output.row 0))
    let ext ← Fallible.ofOption (bytes 3 (output.row 1))
    let here ← get
    match findDirEntryIndex here.dirTable name with
    | none =>
      -- the `return` before `currentDirectory = temp_Path`
      print "Error: no such File: " color
      print.chars (argv.row 1) color
      print "\n" 0xF
    | some entry =>
      if (here.dirTable entry).attribute ≠ ATTR_SUBDIRECTORY then
        let locals ← uninitialised
        serve {
          buf := locals.clusterBuff
          name := name
          ext := ext
          parent_cluster_number := here.currentDirectory
          buffer_size := buffer_size }
      else
        print "Error: not a file\n" 0xF
      setCurrentDirectory s.currentDirectory
  else
    setCurrentDirectory s.currentDirectory

def cat.report (retcode : Int) : ShellM Unit :=
  if retcode = 1 then
    print "Not a File\n" 0b0110
  else if retcode = 2 then
    print "No file\n" 0b0110
  else if retcode = -1 then
    print "Error\n" 0b0110
  else
    return ()

-- what `strlen` finds after a `clusterBuff` without a zero byte is left out
def cat.serve (request : FAT32DriverRequest) : ShellM Unit := do
  let (retcode, delivered) ← Shell.read request
  if delivered.length > 12 then
    Fallible.ofOption none
  else if retcode ≠ 0 then
    cat.report retcode
  else
    let clusterBuff := (List.range (12 * CLUSTER_SIZE)).map (clusterBuff.byte delivered)
    printlen (clusterBuff.takeWhile fun c => c ≠ 0) 0xF

def cat (argv : Argv) (argc : Nat) : ShellM Unit :=
  if argc < 2 then
    print "cat: missing operand\n" 0b0110
  else if argc > 2 then
    print "cat: too much operand\n" 0b0110
  else
    openFile 0b0110 (12 * 2048) cat.serve argv argc

-- `char pathList[15][10]`, to which `find` has written rows 1 to 14 at most
abbrev find.PathList : Type :=
  Fin 150 → UInt8

def printPathFromList (pathList : find.PathList) (lenPath : Nat) : ShellM Unit := do
  (List.range lenPath).forM fun i => do
    print.chars ((List.ofFn pathList).drop (10 * i)) 0xF
    print "/" 0xF
  print "\n" 0xF

/--
`findHelper` with the depth to which the recursion may go. It returns what it leaves in `pathList`
and `found`, which its caller shares with it.
-/
def findHelper (fuel : Nat) (item : Fin 8 → UInt8) (curDirCluster : UInt32) (lenPath : Nat)
    (pathList : find.PathList) (found : Bool) : ShellM (find.PathList × Bool) :=
  match fuel with
  | 0 => Fallible.ofOption none
  | fuel + 1 => do
    updateDirectoryTable curDirCluster
    write.slots.foldlM (fun (pathList, found) i => do
      let s ← get
      let entry := s.dirTable i
      if entry.user_attribute ≠ UATTR_NOT_EMPTY then
        return (pathList, found)
      else if entry.attribute = ATTR_SUBDIRECTORY then
        let pathList ← Fallible.ofOption (store pathList (10 * lenPath) (List.ofFn entry.name))
        if memcmp entry.name item = 0 then
          printPathFromList pathList (lenPath + 1)
        let found := found || memcmp entry.name item = 0
        let (pathList, found) ←
          findHelper fuel item
            ((entry.cluster_high.toUInt32 <<< 16) + entry.cluster_low.toUInt32) (lenPath + 1)
            pathList found
        updateDirectoryTable curDirCluster
        let pathList ← Fallible.ofOption (store pathList (10 * lenPath) (List.replicate 10 0))
        return (pathList, found)
      else if memcmp entry.name item = 0 then
        printPathFromList pathList lenPath
        print.name entry.name
        return (pathList, true)
      else
        return (pathList, found)) (pathList, found)

def find (fuel : Nat) (argv : Argv) (argc : Nat) : ShellM Unit :=
  if argc > 2 then
    print "Find: wrong argument count" 0xF
  else do
    let item ← Fallible.ofOption (bytes 8 (argv.row 1))
    let (_, found) ← findHelper fuel item ROOT_CLUSTER_NUMBER 1 (fun _ => 0) false
    if ¬ found then
      print "Find: gak ketemu cok!!!" 0xF

end AiOS
