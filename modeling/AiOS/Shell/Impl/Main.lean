import AiOS.Shell.Impl.Cp

/-!
This module contains `exec.c`, `ps.c`, `kill.c`, and how `main` of `user-shell.c` calls the commands.
-/

namespace AiOS

def exec.report (retcode : Int) : ShellM Unit :=
  if retcode = 1 then
    print "exec: max process exceeded\n" 0xF
  else if retcode = 2 then
    print "exec: invalid entrypoint\n" 0xF
  else if retcode = 3 then
    print "exec: not enough memory\n" 0xF
  else if retcode = 4 then
    print "exec: fs read failure\n" 0xF
  else if retcode = 5 then
    print "exec: paging alloc failure\n" 0xF
  else
    return ()

def exec.serve (layout : Layout) (request : FAT32DriverRequest) : ShellM Unit := do
  let retcode ← syscall.process_create_user_process layout request
  exec.report retcode

def exec (layout : Layout) (argv : Argv) (argc : Nat) : ShellM Unit :=
  if argc < 2 then
    print "exec: missing argument\n" 0xF
  else if argc > 2 then
    print "exec: too much arguments\n" 0xF
  else
    openFile 0xF (64 * 2048) (exec.serve layout) argv argc

-- how often `n` can be divided by ten until it is zero
def int_to_string.len (n : Nat) : Nat :=
  if n = 0 then
    0
  else
    int_to_string.len (n / 10) + 1
termination_by n

-- the digits from the last one, of `rest` that are left
def int_to_string.fill {size : Nat} (rest num : Nat) (str : Fin size → UInt8)
    : Option (Fin size → UInt8) :=
  match rest with
  | 0 => some str
  | rest + 1 => do
    let str ← store str rest [UInt8.ofNat (num % 10 + 0x30)]
    int_to_string.fill rest (num / 10) str

def int_to_string {size : Nat} (str : Fin size → UInt8) (num : Nat) : Option (Fin size → UInt8) := do
  let len := int_to_string.len num
  let str ← int_to_string.fill len num str
  store str len [0]

-- a pid of `0xFFFFFFFF` is the `-1` of a slot that is not used
def ps.process_list (kernel : KernelState) (i : Fin 16) : UInt32 :=
  if kernel.used_process i then
    (kernel.process_list i).pid
  else
    0xFFFFFFFF

def ps.name (i : Fin 16) : ShellM Unit := do
  print "name: " 0xF
  let s ← get
  let name := (s.kernel.process_list i).name
  printlen ((List.ofFn name).takeWhile fun c => c ≠ 0) 0xF
  print "\n" 0xF

def ps (argc : Nat) : ShellM Unit :=
  if argc > 1 then
    print "ps: too much arguments\n" 0xF
  else do
    let s ← get
    let process_list := ps.process_list s.kernel
    print "Active Processes: \n" 0xF
    if process_list 0 ≠ 0xFFFFFFFF then
      print "pid: 0\n" 0xF
      ps.name 0
    ((List.finRange 16).drop 1).forM fun i => do
      if process_list i ≠ 0xFFFFFFFF then
        -- what `str` held before lies behind the zero byte
        let str ← Fallible.ofOption
          (int_to_string (fun _ : Fin 10 => 0) (process_list i).toNat)
        print "pid: " 0xF
        print.chars (List.ofFn str) 0xF
        print "\n" 0xF
        ps.name i

-- `none` at a character that is no digit
def kill.pid : List UInt8 → UInt32 → Option UInt32
  | [], pid => some pid
  | c :: cs, pid =>
    if c < 0x30 ∨ 0x39 < c then
      none
    else
      kill.pid cs (pid * (c - 0x30).toUInt32)

def kill (argv : Argv) (argc : Nat) : ShellM Unit :=
  if argc < 2 then
    print "exec: missing argument\n" 0xF
  else if argc > 2 then
    print "exec: too much arguments\n" 0xF
  else do
    let chars ← Fallible.ofOption (strlen.chars (argv.row 1))
    match kill.pid chars 1 with
    | none =>
      print "exec: not a number: " 0xF
      print.chars (argv.row 1) 0xF
      print "\n" 0xF
    | some pid =>
      let success ← syscall.process_destroy pid
      if success then
        print "kill: process killed" 0xF
      else
        print "kill: process termination failed" 0xF

/--
The loops of `lineParser` over the characters that are left. `wordIndex` is `none` between two
words.
-/
def lineParser.split (line : List UInt8) (argv : Argv) (argc : Nat) (wordIndex : Option Nat)
    : Option (Argv × Nat) :=
  match line with
  | [] => none
  | c :: line =>
    if c = 0x0A then
      some (argv, argc)
    else if c = 0x20 then
      -- the `break` behind the fourth word
      if wordIndex.isSome ∧ argc = 4 then
        some (argv, argc)
      else
        lineParser.split line argv argc none
    else
      match wordIndex with
      | none => do
        let argv ← store argv (100 * argc) [c]
        lineParser.split line argv (argc + 1) (some 1)
      | some wordIndex => do
        let argv ← store argv (100 * (argc - 1) + wordIndex) [c]
        lineParser.split line argv argc (some (wordIndex + 1))

def lineParser (line : List UInt8) : Option (Argv × Nat) :=
  lineParser.split line (fun _ => 0) 0 none

/--
The programs that `main` tells apart by `argv[0]`.
-/
inductive Command where
  | cd
  | ls
  | mkdir
  | cat
  | cp
  | rm
  | mv
  | find
  | clear
  | exec
  | ps
  | kill
  | clock
  | other
  deriving DecidableEq

namespace Command

-- `memcmp(argv[0], word, n) == 0` for the `n` bytes of `word`
def starts (argv : Argv) (word : List UInt8) : Prop :=
  (List.ofFn argv).take word.length = word

instance (argv : Argv) (word : List UInt8) : Decidable (starts argv word) :=
  inferInstanceAs (Decidable (_ = _))

-- all words but `clock` are compared with the zero byte behind them
def ofArgv (argv : Argv) : Command :=
  if starts argv (ascii "cd\x00") then .cd
  else if starts argv (ascii "ls\x00") then .ls
  else if starts argv (ascii "mkdir\x00") then .mkdir
  else if starts argv (ascii "cat\x00") then .cat
  else if starts argv (ascii "cp\x00") then .cp
  else if starts argv (ascii "rm\x00") then .rm
  else if starts argv (ascii "mv\x00") then .mv
  else if starts argv (ascii "find\x00") then .find
  else if starts argv (ascii "clear\x00") then .clear
  else if starts argv (ascii "exec\x00") then .exec
  else if starts argv (ascii "ps\x00") then .ps
  else if starts argv (ascii "kill\x00") then .kill
  else if starts argv (ascii "clock") then .clock
  else .other

end Command

def main.cd (argv : Argv) (argc : Nat) : ShellM Unit := do
  let retval ← AiOS.cd argv argc true
  if retval = 1 then
    print "Error: too many arguments\n" 0xF
  else if retval = 2 then
    print "Error: no such directory: " 0xF
    print.chars (argv.row 1) 0xF
    print "\n" 0xF
  else if retval = 3 then
    print "Error: not a directory\n" 0xF

def main.mkdir (argv : Argv) (argc : Nat) : ShellM Unit := do
  let retval ← AiOS.mkdir argv argc
  if retval = 1 then
    print "Error: Name is taken\n" 0xF
  else if retval = 2 then
    print "Error: Parent directory invalid\n" 0xF
  else if retval = -1 then
    print "Error: Unknown error" 0xF

-- `memcpy(argv[1], argv[0], 100)`
def main.clock (argv : Argv) : Argv :=
  fun k => if h : 100 ≤ k.val ∧ k.val < 200 then argv ⟨k.val - 100, by omega⟩ else argv k

/--
A call of a command on a parsed line. `fuel` bounds the recursion of `cp`, `mv` and `find`.
-/
def Command.call (layout : Layout) (fuel : Nat) (argv : Argv) (argc : Nat)
    : Command → ShellM Unit
  | .cd => main.cd argv argc
  | .ls => AiOS.ls argv argc
  | .mkdir => main.mkdir argv argc
  | .cat => AiOS.cat argv argc
  | .cp => AiOS.cp fuel argv argc
  | .rm => AiOS.rm argv argc
  | .mv => AiOS.mv fuel argv argc
  | .find => AiOS.find fuel argv argc
  | .clear => modify fun s => { s with printed := [] }
  | .exec => AiOS.exec layout argv argc
  | .ps => AiOS.ps argc
  | .kill => AiOS.kill argv argc
  | .clock => AiOS.exec layout (main.clock argv) 2
  | .other =>
    if argc = 0 then
      return ()
    else do
      print "command not found: " 0xF
      print.chars (argv.row 0) 0xF

-- what follows a line that was typed in
def main.execute (layout : Layout) (fuel : Nat) (argv : Argv) (argc : Nat) : ShellM Unit := do
  let command := Command.ofArgv argv
  command.call layout fuel argv argc
  if command ≠ .clear then
    print "\n" 0xF

/--
The local variables of `main` around its input loop, and the characters that it has echoed.
-/
structure main.Input where
  line : Fin 2000 → UInt8
  linelen : Nat
  buf : UInt8
  isEndLine : Bool
  echoed : List UInt8

def main.Input.reset : main.Input where
  line _ := 0
  linelen := 0
  buf := 0
  isEndLine := false
  echoed := []

-- `syscall(4)`, which leaves `buf` as it is when no key has been pressed
def main.syscall_get (s : main.Input) (key : Option UInt8) : main.Input :=
  match key with
  | some c => { s with buf := c }
  | none => s

-- `syscall(5)`, which also sets `buf` to zero
def main.syscall_put (s : main.Input) : main.Input :=
  { s with
    echoed := s.echoed ++ [s.buf]
    buf := 0 }

/--
The body of the input loop behind the test for a newline. `none` on a store behind `line`.
-/
def main.edit (s : main.Input) : Option main.Input :=
  if s.buf = 0x08 then
    if s.linelen = 0 then
      some s
    else do
      let line ← store s.line (s.linelen - 1) [0]
      return main.syscall_put
        { s with
          line := line
          linelen := s.linelen - 1 }
  else if s.buf ≠ 0 then do
    let line ← store s.line s.linelen [s.buf]
    return main.syscall_put
      { s with
        line := line
        linelen := s.linelen + 1 }
  else
    return main.syscall_put s

def main.poll (s : main.Input) (key : Option UInt8) : Option main.Input :=
  let s := main.syscall_get s key
  main.edit { s with isEndLine := s.isEndLine || s.buf = 0x0A }

-- the input loop, over what the calls of `syscall(4)` find
def main.getline (s : main.Input) (keys : List (Option UInt8)) : Option main.Input :=
  match keys with
  | [] => some s
  | key :: keys =>
    if s.isEndLine then
      some s
    else do
      let s ← main.poll s key
      main.getline s keys

-- what comes before the next one
def main.prompt : ShellM Unit := do
  let s ← get
  updateDirectoryTable s.currentDirectory
  print "User@aiOS:" 0x5A
  printDir

end AiOS
