import AiOS.Shell.Impl.Files

/-!
This module contains `cp.c` and `mv.c`.
-/

namespace AiOS

/--
The memory around `clusterBuff`, to which a system call has delivered clusters.
-/
def clusterBuff.memory (locals : Locals) (delivered : List ClusterBuffer) : UInt32 → UInt8 :=
  fun a =>
    let k := (a - locals.clusterBuff).toNat
    if k < 12 * CLUSTER_SIZE then byte delivered k else locals.memory a

def mkfile.report (retval : Int) : ShellM Unit :=
  if retval = 1 then
    print "Error: File exists\n" 0xF
  else if retval = 2 then
    print "Error: Parent directory invalid\n" 0xF
  else if retval = -1 then
    print "Error: Unknown error" 0xF
  else
    return ()

-- `memory` is what `request.buf` points into
def mkfile (argv : Argv) (argc : Nat) (memory : UInt32 → UInt8) (request : FAT32DriverRequest)
    (isDir : Bool) : ShellM Unit :=
  if argc > 2 then
    print "Error: too many arguments\n" 0xF
  else do
    let s ← get
    let retval ← cd argv argc isDir
    if retval ≠ 0 then
      return ()
    else
      let here ← get
      let (pathList, pathCount) ← Fallible.ofOption (parsePath (argv.row 1))
      let name ← Fallible.ofOption (bytes 8 (pathList.row (pathCount - 1)))
      let retval ← Shell.write memory
        { request with
          parent_cluster_number := here.currentDirectory
          name := name }
      mkfile.report retval
      setCurrentDirectory s.currentDirectory

-- no zero byte is written after `source`
def append (argv : Argv) (source : List UInt8) : Option Argv := do
  let len ← strlen (argv.row 1)
  let argv ← store argv (100 + len) [0x2F]
  store argv (100 + len + 1) source

-- the request of `cpHelper` and the memory of its `clusterBuff`, after system call 0
def cpHelper.load (name : Fin 8 → UInt8) (ext : Fin 3 → UInt8)
    : ShellM ((UInt32 → UInt8) × FAT32DriverRequest) := do
  let locals ← uninitialised
  let request : FAT32DriverRequest :=
    { buf := locals.clusterBuff
      name := name
      ext := ext
      parent_cluster_number := ROOT_CLUSTER_NUMBER
      buffer_size := 12 * 2048 }
  let (_, delivered) ← syscall.read request
  if delivered.length > 12 then
    Fallible.ofOption none
  else
    return (clusterBuff.memory locals delivered, request)

-- `attribute != ATTR_SUBDIRECTORY && strlen(ext) == 0`
def cpHelper.plain_file (entry : FAT32DirectoryEntry) : Prop :=
  entry.attribute ≠ ATTR_SUBDIRECTORY ∧ entry.ext 0 = 0

instance (entry : FAT32DirectoryEntry) : Decidable (cpHelper.plain_file entry) :=
  inferInstanceAs (Decidable (_ ∧ _))

-- the case in which the source is a file
def cpHelper.file (argvS argvD : Argv) (lastpath : Fin 8 → UInt8) : ShellM Unit := do
  let _ ← cd argvS 2 false
  let s ← get
  let found := write.slots.find? fun i =>
    (s.dirTable i).user_attribute = UATTR_NOT_EMPTY ∧ cpHelper.plain_file (s.dirTable i) ∧
      memcmp (s.dirTable i).name lastpath = 0
  match found with
  | none => return ()
  | some _ =>
    let (pathList, pathCount) ← Fallible.ofOption (parsePath (argvS.row 1))
    let (output, _) ← Fallible.ofOption (parseExt (pathList.row (pathCount - 1)))
    let name ← Fallible.ofOption (bytes 8 (output.row 0))
    let ext ← Fallible.ofOption (bytes 3 (output.row 1))
    let (memory, request) ← cpHelper.load name ext
    let s ← get
    let retval ← cd argvD 2 true
    setCurrentDirectory s.currentDirectory
    mkfile argvD 2 memory request (retval = 0)

/--
`cpHelper` with the depth to which the recursion may go.
-/
def cpHelper (fuel : Nat) (argvS argvD : Argv) (startDir : UInt32) : ShellM Unit :=
  match fuel with
  | 0 => Fallible.ofOption none
  | fuel + 1 => do
    let (pathList, pathCount) ← Fallible.ofOption (parsePath (argvS.row 1))
    let lastpath ← Fallible.ofOption (bytes 8 (pathList.row (pathCount - 1)))
    let retval ← cd argvS 2 true
    if retval = 3 then
      cpHelper.file argvS argvD lastpath
    else if retval = 0 then
      write.slots.forM fun i => do
        let s ← get
        if (s.dirTable i).user_attribute = UATTR_NOT_EMPTY then
          let curWorkingDir := s.currentDirectory
          if (s.dirTable i).attribute = ATTR_SUBDIRECTORY then
            let locals ← uninitialised
            let argvSnew : Argv := fun k => if k.val < 200 then argvS k else locals.argvS k
            let argvDnew : Argv := fun k => if k.val < 200 then argvD k else locals.argvD k
            let tempName := name_chars (s.dirTable i).name
            let argvDnew ← Fallible.ofOption (append argvDnew tempName)
            let argvSnew ← Fallible.ofOption (append argvSnew tempName)
            setCurrentDirectory startDir
            updateDirectoryTable startDir
            let _ ← mkdir argvDnew 2
            cpHelper fuel argvSnew argvDnew startDir
            setCurrentDirectory curWorkingDir
            updateDirectoryTable curWorkingDir
          -- the table has been loaded again
          let s ← get
          if cpHelper.plain_file (s.dirTable i) then
            let (memory, request) ← cpHelper.load (s.dirTable i).name (s.dirTable i).ext
            setCurrentDirectory startDir
            updateDirectoryTable startDir
            mkfile argvD 2 memory request true
            setCurrentDirectory curWorkingDir
            updateDirectoryTable curWorkingDir

def cp (fuel : Nat) (argv : Argv) (argc : Nat) : ShellM Unit :=
  if argc > 3 then
    print "CP: too many arguments\n" 0xF
  else do
    let locals ← uninitialised
    let argvS : Argv := fun k => if k.val < 200 then argv k else locals.argvS k
    let argvD : Argv := fun k =>
      if k.val < 100 then argv k
      else if h : k.val < 200 then argv ⟨100 + k.val, Argv.next_row_lt h⟩
      else locals.argvD k
    let s ← get
    let startDir := s.currentDirectory
    let retval ← cd argvS 2 true
    setCurrentDirectory startDir
    updateDirectoryTable startDir
    if retval = 0 then
      let _ ← mkdir argvD 2
    cpHelper fuel argvS argvD startDir
    setCurrentDirectory startDir

def mv (fuel : Nat) (argv : Argv) (argc : Nat) : ShellM Unit := do
  let s ← get
  if argc < 3 then
    print "cat: missing operand\n" 0b0110
    setCurrentDirectory s.currentDirectory
  else if argc > 3 then
    print "cat: too much operand\n" 0b0110
    setCurrentDirectory s.currentDirectory
  else
    let (pathList, pathCount) ← Fallible.ofOption (parsePath (argv.row 1))
    let (output, _) ← Fallible.ofOption (parseExt (pathList.row (pathCount - 1)))
    let name ← Fallible.ofOption (bytes 8 (output.row 0))
    match findDirEntryIndex s.dirTable name with
    | none =>
      print "Error: no such File: " 0b0110
      print.chars (argv.row 1) 0b0110
      print "\n" 0xF
    | some entry =>
      if (s.dirTable entry).attribute ≠ ATTR_SUBDIRECTORY then
        cp fuel argv argc
        rm argv (argc - 1)
      else
        print "Error: not a file\n" 0xF
      setCurrentDirectory s.currentDirectory

end AiOS
