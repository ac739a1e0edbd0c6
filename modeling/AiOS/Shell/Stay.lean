import AiOS.Process.Boot
import AiOS.Shell.Impl.Main
import AiOS.Shell.Lemmas.Cd

/-!
This module contains which commands leave the shell in the directory it was in.
-/

namespace AiOS

open Fallible

namespace Shell

def In (dir : UInt32) (s : Shell) : Prop :=
  s.currentDirectory = dir

end Shell

abbrev Stays {α : Type} (p : ShellM α) : Prop :=
  Keeps Shell.currentDirectory p

theorem stays_printlen (string : List UInt8) (color : UInt32) : Stays (printlen string color) := by
  apply keeps_printlen
  intro s printed
  rfl

theorem stays_print_chars (string : List UInt8) (color : UInt32)
    : Stays (print.chars string color) := by
  apply keeps_print_chars
  intro s printed
  rfl

section

variable {γ : Type} {f : Shell → γ}
  (hprinted : ∀ (s : Shell) printed, f { s with printed := printed } = f s)
  (htable : ∀ (s : Shell) dirTable, f { s with dirTable := dirTable } = f s)

include htable in
theorem keeps_updateDirectoryTable (dirCluster : UInt32)
    : Keeps f (updateDirectoryTable dirCluster) := by
  intro s a s' hrun
  rw [updateDirectoryTable_apply, Option.some.injEq, Prod.mk.injEq] at hrun
  rw [← hrun.2]
  apply htable

include hprinted

theorem keeps_printPathFromList (pathList : find.PathList) (lenPath : Nat)
    : Keeps f (printPathFromList pathList lenPath) := by
  apply Keeps.bind
  . apply Keeps.forM
    intro i
    apply Keeps.bind (keeps_print_chars hprinted _ _)
    intro _
    apply keeps_printlen hprinted
  . intro _
    apply keeps_printlen hprinted

theorem keeps_print_name (name : Fin 8 → UInt8) : Keeps f (print.name name) := by
  apply Keeps.ite
  . apply keeps_printlen hprinted
  . apply keeps_printlen hprinted

include htable

theorem keeps_findHelper (fuel : Nat) (item : Fin 8 → UInt8) (curDirCluster : UInt32)
    (lenPath : Nat) (pathList : find.PathList) (found : Bool)
    : Keeps f (findHelper fuel item curDirCluster lenPath pathList found) := by
  induction fuel generalizing curDirCluster lenPath pathList found with
  | zero => apply Keeps.of_ofOption
  | succ fuel ih =>
    unfold findHelper
    apply Keeps.bind (keeps_updateDirectoryTable htable _)
    intro _
    apply Keeps.foldlM
    intro b i
    apply Keeps.bind Keeps.of_get
    intro s
    apply Keeps.ite
    . apply Keeps.of_pure
    . apply Keeps.ite
      . apply Keeps.bind (Keeps.of_ofOption _)
        intro pathList
        apply Keeps.optional (keeps_printPathFromList hprinted _ _)
        intro _
        apply Keeps.bind (ih _ _ _ _)
        intro r
        apply Keeps.bind (keeps_updateDirectoryTable htable _)
        intro _
        apply Keeps.bind (Keeps.of_ofOption _)
        intro pathList
        apply Keeps.of_pure
      . apply Keeps.ite
        . apply Keeps.bind (keeps_printPathFromList hprinted _ _)
          intro _
          apply Keeps.bind (keeps_print_name hprinted _)
          intro _
          apply Keeps.of_pure
        . apply Keeps.of_pure

end

theorem stays_findHelper (fuel : Nat) (item : Fin 8 → UInt8) (curDirCluster : UInt32)
    (lenPath : Nat) (pathList : find.PathList) (found : Bool)
    : Stays (findHelper fuel item curDirCluster lenPath pathList found) := by
  apply keeps_findHelper
  . intro s printed
    rfl
  . intro s dirTable
    rfl

theorem stays_find (fuel : Nat) (argv : Argv) (argc : Nat) : Stays (find fuel argv argc) := by
  apply Keeps.ite
  . apply stays_printlen
  . apply Keeps.bind (Keeps.of_ofOption _)
    intro item
    apply Keeps.bind (stays_findHelper _ _ _ _ _ _)
    intro r
    apply Keeps.ite
    . apply stays_printlen
    . apply Keeps.of_pure

section

variable (argv : Argv) (argc : Nat)

theorem ensures_cd (isdir : Bool) (dir : UInt32)
    : Ensures (Shell.In dir) (cd argv argc isdir) fun code s => code ≠ 0 → s.In dir := by
  intro s code s' hs hrun
  by_cases hargc : argc ≤ 2
  . rw [cd_apply hargc, Option.map_eq_some_iff] at hrun
    rcases hrun with ⟨outcome, _, heq⟩
    rw [Prod.mk.injEq] at heq
    rw [← heq.1, ← heq.2]
    intro hcode
    cases outcome with
    | directory dir => exact absurd rfl hcode
    | file loaded => exact hs
    | nothing loaded => exact hs
  . intro _
    unfold cd at hrun
    rw [if_pos (by omega)] at hrun
    have hstays : Stays (do
        print "Error: too many arguments\n" 0xF
        return (1 : Int)) := by
      apply Keeps.bind (stays_printlen _ _)
      intro _
      apply Keeps.of_pure
    exact hstays.ensures dir s code s' hs hrun

end

/--
The program leaves the shell in `dir`, wherever it moves before.
-/
def Returns {α : Type} (dir : UInt32) (p : ShellM α) : Prop :=
  Ensures (fun _ => True) p fun _ => Shell.In dir

namespace Returns

variable {α β : Type} {dir : UInt32} {p : ShellM α} {f : α → ShellM β}

theorem of_setCurrentDirectory : Returns dir (setCurrentDirectory dir) := by
  apply Ensures.of_modify
  intro s _
  rfl

theorem bind (h : ∀ a, Returns dir (f a)) : Returns dir (p >>= f) := by
  refine Ensures.bind (Q := fun _ _ => True) ?_ h
  intro s a s' _ _
  trivial

theorem ite {c : Prop} [Decidable c] {p' : ShellM α} (hp : Returns dir p) (hp' : Returns dir p')
    : Returns dir (if c then p else p') := by
  split
  . exact hp
  . exact hp'

theorem ensures {P : Shell → Prop} (h : Returns dir p) : Ensures P p fun _ => Shell.In dir := by
  refine Ensures.consequence h ?_ ?_
  . intro s _
    trivial
  . intro a s hs
    exact hs

end Returns

theorem stays_of_get_bind {α : Type} {f : Shell → ShellM α}
    (h : ∀ s : Shell, Ensures (Shell.In s.currentDirectory) (f s) fun _ =>
      Shell.In s.currentDirectory)
    : Stays (get >>= f) := by
  intro s a s' hrun
  apply h s s a s' rfl hrun

section

variable (argv : Argv) (argc : Nat)

theorem stays_ls : Stays (ls argv argc) := by
  apply stays_of_get_bind
  intro s
  have hlist : ∀ retval : Int, Returns s.currentDirectory (do
      if retval = 0 then
        ls.list
      setCurrentDirectory s.currentDirectory) := by
    intro retval
    apply Returns.ite
    . apply Returns.bind
      intro _
      apply Returns.of_setCurrentDirectory
    . apply Returns.of_setCurrentDirectory
  apply Returns.ensures
  apply Returns.ite
  . apply Returns.bind hlist
  . apply Returns.bind hlist

theorem stays_mkdir : Stays (mkdir argv argc) := by
  apply Keeps.ite
  . apply Keeps.bind (stays_printlen _ _)
    intro _
    apply Keeps.of_pure
  . apply Keeps.ite
    . apply Keeps.bind (stays_printlen _ _)
      intro _
      apply Keeps.of_pure
    . apply stays_of_get_bind
      intro s
      refine Ensures.bind (ensures_cd argv argc false s.currentDirectory) ?_
      intro retval
      apply Ensures.ite
      . intro hne
        apply Ensures.of_pure
        intro t ht
        exact ht hne
      . intro _
        apply Returns.ensures
        apply Returns.bind
        intro request
        apply Returns.bind
        intro retval
        refine Ensures.bind Returns.of_setCurrentDirectory ?_
        intro _
        exact (Keeps.of_pure _).ensures _

theorem stays_rm : Stays (rm argv argc) := by
  apply Keeps.ite
  . apply stays_printlen
  . apply stays_of_get_bind
    intro s
    refine Ensures.bind (ensures_cd argv argc false s.currentDirectory) ?_
    intro retval
    apply Ensures.ite
    . intro hne
      apply Ensures.of_pure
      intro t ht
      exact ht hne
    . intro _
      apply Returns.ensures
      apply Returns.bind
      intro request
      apply Returns.bind
      intro retval
      apply Returns.bind
      intro _
      apply Returns.of_setCurrentDirectory

theorem stays_uninitialised : Stays uninitialised := by
  apply Keeps.bind Keeps.of_get
  intro s
  apply Keeps.bind
  . apply Keeps.of_modify
    intro s
    rfl
  . intro _
    apply Keeps.of_pure

-- `cpHelper` and `mkfile` need not return to where they were called
theorem stays_cp (fuel : Nat) : Stays (cp fuel argv argc) := by
  apply Keeps.ite
  . apply stays_printlen
  . apply Keeps.bind stays_uninitialised
    intro locals
    apply stays_of_get_bind
    intro s
    have hcopy : ∀ argvS argvD, Returns s.currentDirectory (do
        cpHelper fuel argvS argvD s.currentDirectory
        setCurrentDirectory s.currentDirectory) := by
      intro argvS argvD
      apply Returns.bind
      intro _
      apply Returns.of_setCurrentDirectory
    apply Returns.ensures
    apply Returns.bind
    intro retval
    apply Returns.bind
    intro _
    apply Returns.bind
    intro _
    apply Returns.ite
    . apply Returns.bind
      intro _
      apply hcopy
    . apply hcopy

theorem stays_not_found (color : UInt32)
    : Stays (do
        print "Error: no such File: " color
        print.chars (argv.row 1) color
        print "\n" 0xF) := by
  apply keeps_not_found
  intro s printed
  rfl

theorem stays_mv (fuel : Nat) : Stays (mv fuel argv argc) := by
  apply stays_of_get_bind
  intro s
  split
  . apply Returns.ensures
    apply Returns.bind
    intro _
    apply Returns.of_setCurrentDirectory
  . split
    . apply Returns.ensures
      apply Returns.bind
      intro _
      apply Returns.of_setCurrentDirectory
    . refine Ensures.bind ((Keeps.of_ofOption _).ensures _) ?_
      intro path
      refine Ensures.bind ((Keeps.of_ofOption _).ensures _) ?_
      intro output
      refine Ensures.bind ((Keeps.of_ofOption _).ensures _) ?_
      intro name
      cases findDirEntryIndex s.dirTable name with
      | none => exact (stays_not_found argv _).ensures s.currentDirectory
      | some entry =>
        apply Returns.ensures
        apply Returns.ite
        . apply Returns.bind
          intro _
          apply Returns.bind
          intro _
          apply Returns.of_setCurrentDirectory
        . apply Returns.bind
          intro _
          apply Returns.of_setCurrentDirectory

theorem stays_ps_name (i : Fin 16) : Stays (ps.name i) := by
  apply Keeps.bind (stays_printlen _ _)
  intro _
  apply Keeps.bind Keeps.of_get
  intro s
  apply Keeps.bind (stays_printlen _ _)
  intro _
  apply stays_printlen

theorem stays_ps : Stays (ps argc) := by
  apply Keeps.ite
  . apply stays_printlen
  . apply Keeps.bind Keeps.of_get
    intro s
    apply Keeps.bind (stays_printlen _ _)
    intro _
    have hothers : ∀ i, Stays (do
        if ps.process_list s.kernel i ≠ 0xFFFFFFFF then
          let str ← ofOption
            (int_to_string (fun _ : Fin 10 => 0) (ps.process_list s.kernel i).toNat)
          print "pid: " 0xF
          print.chars (List.ofFn str) 0xF
          print "\n" 0xF
          ps.name i) := by
      intro i
      apply Keeps.ite
      . apply Keeps.bind (Keeps.of_ofOption _)
        intro str
        apply Keeps.bind (stays_printlen _ _)
        intro _
        apply Keeps.bind (stays_print_chars _ _)
        intro _
        apply Keeps.bind (stays_printlen _ _)
        intro _
        apply stays_ps_name
      . apply Keeps.of_pure
    apply Keeps.ite
    . apply Keeps.bind (stays_printlen _ _)
      intro _
      apply Keeps.bind (stays_ps_name _)
      intro _
      apply Keeps.forM hothers
    . apply Keeps.forM hothers

theorem stays_process_destroy (pid : UInt32) : Stays (syscall.process_destroy pid) := by
  apply Keeps.bind Keeps.of_get
  intro s
  apply Keeps.bind (Keeps.of_ofOption _)
  intro r
  apply Keeps.bind
  . apply Keeps.of_modify
    intro s
    rfl
  . intro _
    apply Keeps.of_pure

theorem stays_kill : Stays (kill argv argc) := by
  apply Keeps.ite
  . apply stays_printlen
  . apply Keeps.ite
    . apply stays_printlen
    . apply Keeps.bind (Keeps.of_ofOption _)
      intro chars
      cases kill.pid chars 1 with
      | none =>
        apply Keeps.bind (stays_printlen _ _)
        intro _
        apply Keeps.bind (stays_print_chars _ _)
        intro _
        apply stays_printlen
      | some pid =>
        apply Keeps.bind (stays_process_destroy _)
        intro success
        apply Keeps.ite
        . apply stays_printlen
        . apply stays_printlen

end

namespace openFile

def base (argv : Argv) : Option (Fin 8 → UInt8) := do
  let (pathList, pathCount) ← parsePath (argv.row 1)
  let (output, _) ← parseExt (pathList.row (pathCount - 1))
  bytes 8 (output.row 0)

/--
The components before the last one lead to another directory, which has no entry under the name of
the file.
-/
def Strays (argv : Argv) (s : Shell) : Prop :=
  ∃ dir name, cd.outcome argv false s = some (.directory dir) ∧ base argv = some name ∧
    findDirEntryIndex (s.kernel.disk.table (clusterIndex dir)) name = none ∧
    dir ≠ s.currentDirectory

variable {color buffer_size : UInt32} {serve : FAT32DriverRequest → ShellM Unit} {argv : Argv}
  {argc : Nat} {s s' : Shell}

theorem not_strays_of_ne {outcome : Outcome} (houtcome : cd.outcome argv false s = some outcome)
    (hne : ∀ dir, outcome ≠ .directory dir)
    : ¬ Strays argv s := by
  intro ⟨dir, name, hdir, _⟩
  rw [houtcome, Option.some.injEq] at hdir
  exact hne dir hdir

theorem strays_iff {dir : UInt32} {name : Fin 8 → UInt8}
    (houtcome : cd.outcome argv false s = some (.directory dir)) (hbase : base argv = some name)
    : Strays argv s
        ↔
      findDirEntryIndex (s.kernel.disk.table (clusterIndex dir)) name = none ∧
        dir ≠ s.currentDirectory := by
  constructor
  . intro ⟨dir', name', hdir, hname, hstrays⟩
    rw [houtcome, Option.some.injEq, Outcome.directory.injEq] at hdir
    rw [hbase, Option.some.injEq] at hname
    rw [hdir, hname]
    exact hstrays
  . intro hstrays
    exact ⟨dir, name, houtcome, hbase, hstrays⟩

theorem location_iff (hargc : argc ≤ 2)
    (h : openFile color buffer_size serve argv argc s = some ((), s'))
    : s'.currentDirectory = s.currentDirectory ↔ ¬ Strays argv s := by
  unfold openFile at h
  rw [get_bind_apply, bind_eq_some_iff] at h
  rcases h with ⟨resultCD, t, hcd, h⟩
  rw [cd_apply hargc, Option.map_eq_some_iff] at hcd
  rcases hcd with ⟨outcome, houtcome, heq⟩
  rw [Prod.mk.injEq] at heq
  rcases heq with ⟨rfl, rfl⟩
  cases outcome with
  | file loaded =>
    have hstay := Returns.of_setCurrentDirectory _ () s' trivial h
    have hnot := not_strays_of_ne houtcome (fun dir => by simp)
    exact iff_of_true hstay hnot
  | nothing loaded =>
    have hstay := Returns.of_setCurrentDirectory _ () s' trivial h
    have hnot := not_strays_of_ne houtcome (fun dir => by simp)
    exact iff_of_true hstay hnot
  | directory dir =>
    have htable : (s.visit dir dir).dirTable = s.kernel.disk.table (clusterIndex dir) := rfl
    have hcode : (Outcome.directory dir).code = 0 := rfl
    have hvisit : s.visit ((Outcome.directory dir).location s.currentDirectory)
        (Outcome.directory dir).reached = s.visit dir dir := rfl
    rw [if_pos hcode, hvisit, ofOption_bind_eq_some_iff] at h
    rcases h with ⟨⟨pathList, pathCount⟩, hpath, h⟩
    rw [ofOption_bind_eq_some_iff] at h
    rcases h with ⟨⟨output, count⟩, houtput, h⟩
    rw [ofOption_bind_eq_some_iff] at h
    rcases h with ⟨name, hname, h⟩
    rw [ofOption_bind_eq_some_iff] at h
    rcases h with ⟨ext, hext, h⟩
    have hbase : base argv = some name := by
      unfold base
      rw [hpath, Option.bind_eq_bind, Option.bind_some]
      dsimp only at houtput hname ⊢
      rw [houtput, Option.bind_some]
      exact hname
    rw [get_bind_apply, htable] at h
    rw [strays_iff houtcome hbase]
    cases hentry : findDirEntryIndex (s.kernel.disk.table (clusterIndex dir)) name with
    | none =>
      rw [hentry] at h
      have hstay : s'.currentDirectory = dir := stays_not_found argv color _ () s' h
      rw [hstay]
      simp
    | some entry =>
      rw [hentry] at h
      have hstay : s'.currentDirectory = s.currentDirectory := by
        refine Returns.ite ?_ ?_ _ () s' trivial h
        . apply Returns.bind
          intro locals
          apply Returns.bind
          intro _
          apply Returns.of_setCurrentDirectory
        . apply Returns.bind
          intro _
          apply Returns.of_setCurrentDirectory
      have hfound : ¬ (some entry = none ∧ dir ≠ s.currentDirectory) := by simp
      exact iff_of_true hstay hfound

theorem checked_location_iff {missing extra : String} {color' : UInt32}
    (h : (if argc < 2 then
        print missing color'
      else if argc > 2 then
        print extra color'
      else
        openFile color buffer_size serve argv argc) s = some ((), s'))
    : s'.currentDirectory = s.currentDirectory ↔ ¬ (argc = 2 ∧ Strays argv s) := by
  have hprint : ∀ text, print text color' s = some ((), s') →
      s'.currentDirectory = s.currentDirectory := by
    intro text hrun
    apply stays_printlen _ _ s () s' hrun
  split at h
  . exact iff_of_true (hprint _ h) (by omega)
  . split at h
    . exact iff_of_true (hprint _ h) (by omega)
    . next hmissing hextra =>
      have hargc : argc = 2 := by omega
      rw [location_iff (by omega) h, and_iff_right hargc]

end openFile

/--
`cat` or `exec`, or `clock`, which runs the file named by the first word, with a file that is not
there.
-/
def Command.Strays (argv : Argv) (argc : Nat) (s : Shell) : Command → Prop
  | .cat => argc = 2 ∧ openFile.Strays argv s
  | .exec => argc = 2 ∧ openFile.Strays argv s
  | .clock => openFile.Strays (main.clock argv) s
  | _ => False

theorem Command.location_iff {layout : Layout} {fuel : Nat} {argv : Argv} {argc : Nat} {s s' : Shell}
    {command : Command} (hcd : command ≠ .cd)
    (h : command.call layout fuel argv argc s = some ((), s'))
    : s'.currentDirectory = s.currentDirectory ↔ ¬ command.Strays argv argc s := by
  have hstays : ∀ {p : ShellM Unit}, Stays p → p s = some ((), s') →
      s'.currentDirectory = s.currentDirectory := by
    intro p hp hrun
    apply hp s () s' hrun
  cases command with
  | cd => contradiction
  | ls => exact iff_of_true (hstays (stays_ls argv argc) h) id
  | mkdir =>
    have hmkdir : Stays (main.mkdir argv argc) := by
      apply Keeps.bind (stays_mkdir argv argc)
      intro retval
      apply Keeps.ite
      . apply stays_printlen
      . apply Keeps.ite
        . apply stays_printlen
        . apply Keeps.ite
          . apply stays_printlen
          . apply Keeps.of_pure
    exact iff_of_true (hstays hmkdir h) id
  | cat => exact openFile.checked_location_iff h
  | cp => exact iff_of_true (hstays (stays_cp argv argc fuel) h) id
  | rm => exact iff_of_true (hstays (stays_rm argv argc) h) id
  | mv => exact iff_of_true (hstays (stays_mv argv argc fuel) h) id
  | find => exact iff_of_true (hstays (stays_find fuel argv argc) h) id
  | clear =>
    have hclear : Stays (Command.call layout fuel argv argc .clear) := by
      apply Keeps.of_modify
      intro s
      rfl
    exact iff_of_true (hstays hclear h) id
  | exec => exact openFile.checked_location_iff h
  | ps => exact iff_of_true (hstays (stays_ps argc) h) id
  | kill => exact iff_of_true (hstays (stays_kill argv argc) h) id
  | clock =>
    have h : AiOS.exec layout (main.clock argv) 2 s = some ((), s') := h
    have hexec := openFile.checked_location_iff h
    rw [and_iff_right rfl] at hexec
    exact hexec
  | other =>
    have hother : Stays (Command.call layout fuel argv argc .other) := by
      apply Keeps.ite
      . apply Keeps.of_pure
      . apply Keeps.bind (stays_printlen _ _)
        intro _
        apply stays_print_chars
    exact iff_of_true (hstays hother h) id

/--
After every command but `cd`, the shell is in the directory it was in before, unless `cat` or `exec`
did not find the file in another directory.
-/
theorem only_cd_moves {layout : Layout} {fuel : Nat} {argv : Argv} {argc : Nat} {s s' : Shell}
    (hcd : Command.ofArgv argv ≠ .cd) (h : main.execute layout fuel argv argc s = some ((), s'))
    : s'.currentDirectory = s.currentDirectory ↔ ¬ (Command.ofArgv argv).Strays argv argc s := by
  unfold main.execute at h
  rw [bind_eq_some_iff] at h
  rcases h with ⟨⟨⟩, t, hcall, hrest⟩
  have hstays : ∀ {c : Prop} [Decidable c],
      Stays (if c then print "\n" 0xF else pure ()) := by
    intro c _
    apply Keeps.ite
    . apply stays_printlen
    . apply Keeps.of_pure
  have hstay : s'.currentDirectory = t.currentDirectory := hstays t () s' hrest
  rw [hstay]
  apply Command.location_iff hcd hcall

namespace stray

def request : FAT32DriverRequest :=
  { write.small with
    name := ![0x64, 0x6F, 0x63, 0x73, 0, 0, 0, 0]
    buffer_size := 0 }

def disk : Disk :=
  write.committed (fun _ => 0) (fun _ => .zero) request fresh 2 [3]

def locals : Locals where
  request := request
  newDirectoryTable _ := .zero
  dirTable _ := .zero
  argvS _ := 0
  argvD _ := 0
  clusterBuff := 0
  memory _ := 0

def shell : Shell where
  kernel := .initial .low disk
  driver_state := .zero
  currentDirectory := 3
  dirTable := disk.table 3
  stack _ := locals
  printed := []

def argv : Argv :=
  fun k => if k.val < 100 then (ascii "cat").getD k 0 else (ascii "/nofile").getD (k.val - 100) 0

theorem search_request : write.search request fresh = some ⟨some 2, [3]⟩ := by
  apply write.search_fresh rfl
  decide

theorem run_request (driver_state : FAT32DriverState)
    : (write driver_state (fun _ => 0) (fun _ => .zero) request).run diskDevice fresh
        =
      some ((0, ⟨write.link [3] fresh.fat, write.new_table request fresh 2 [3]⟩), disk) := by
  rw [write.run_of_parent_ok _ _ _ _ _ (write.parent_ok_fresh rfl), search_request]
  rfl

theorem parsed : lineParser (ascii "cat /nofile\n") = some (argv, 2) := by
  decide +kernel

theorem moved
    : (main.execute .low 0 argv 2 shell).map (fun r => r.2.currentDirectory) = some 2 := by
  decide +kernel

theorem directory : disk.Directory 3 := by
  have hlive : (disk.table 2 2).user_attribute = UATTR_NOT_EMPTY := by decide
  have hdir : (disk.table 2 2).attribute = ATTR_SUBDIRECTORY := by decide
  have hfirst : (disk.table 2 2).cluster = 3 := by decide
  have hchild : disk.Directory (disk.table 2 2).cluster :=
    Catalog.Directory.child Catalog.Directory.root (Nat.le_refl 2) hlive hdir
  rw [hfirst] at hchild
  exact hchild

theorem reachable
    : driver.Reachable (fun _ _ => True)
        (⟨write.link [3] fresh.fat, write.new_table request fresh 2 [3]⟩, disk) := by
  apply reachable_write reachable_fresh trivial Catalog.Directory.root (run_request fresh_driver)

theorem run : ∃ s', main.execute .low 0 argv 2 shell = some ((), s') ∧ s'.currentDirectory = 2 := by
  have hmoved := moved
  rw [Option.map_eq_some_iff] at hmoved
  rcases hmoved with ⟨⟨⟨⟩, s'⟩, hrun, hdir⟩
  exact ⟨s', hrun, hdir⟩

end stray

theorem only_cd_moves_stray
    : ∃ s', main.execute .low 0 stray.argv 2 stray.shell = some ((), s') ∧
        (s'.currentDirectory = stray.shell.currentDirectory
          ↔
        ¬ (Command.ofArgv stray.argv).Strays stray.argv 2 stray.shell) := by
  rcases stray.run with ⟨s', hrun, _⟩
  have hcd : Command.ofArgv stray.argv ≠ .cd := by decide
  exact ⟨s', hrun, only_cd_moves hcd hrun⟩

theorem not_only_cd_moves
    : ∃ st, driver.Reachable (fun _ _ => True) (st, stray.shell.kernel.disk) ∧
        stray.shell.kernel.disk.Directory stray.shell.currentDirectory.toNat ∧
        lineParser (ascii "cat /nofile\n") = some (stray.argv, 2) ∧
        ∃ s', main.execute .low 0 stray.argv 2 stray.shell = some ((), s') ∧
          s'.currentDirectory ≠ stray.shell.currentDirectory := by
  refine ⟨_, stray.reachable, stray.directory, stray.parsed, ?_⟩
  rcases stray.run with ⟨s', hrun, hdir⟩
  refine ⟨s', hrun, ?_⟩
  rw [hdir]
  decide

end AiOS
