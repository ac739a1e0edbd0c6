import AiOS.Fat32.Lemmas.Delete
import AiOS.Shell.Resolve
import AiOS.Shell.Stay

/-!
This module contains when `mv` loses no file: when neither its `cp` nor its `rm` gets to the disk.
-/

namespace AiOS

open Fallible

namespace strlen

theorem chars_congr {string string' : List UInt8} {n len : Nat} (hlen : strlen string = some len)
    (hlt : len < n) (h : string'.take n = string.take n)
    : chars string' = chars string := by
  have htake : ∀ string : List UInt8, (string.take n).findIdx? (fun c => c = 0) = some len →
      chars string = some ((string.take n).take len) := by
    intro string hfind
    have hstrlen : strlen string = some len := by
      unfold strlen
      rw [← List.take_append_drop n string, List.findIdx?_append, hfind]
      rfl
    unfold chars
    rw [hstrlen, List.take_take, Nat.min_eq_left (by omega)]
    rfl
  have hfind : (string.take n).findIdx? (fun c => c = 0) = some len := by
    unfold strlen at hlen
    rw [List.findIdx?_eq_some_iff_getElem] at hlen ⊢
    rcases hlen with ⟨hlt', hzero, hbefore⟩
    refine ⟨by rw [List.length_take]; omega, ?_, ?_⟩
    . rw [List.getElem_take]
      exact hzero
    . intro j hj
      rw [List.getElem_take]
      apply hbefore j hj
  rw [htake string hfind, htake string' (by rw [h]; exact hfind), h]

end strlen

theorem parsePath_congr {path path' : List UInt8} (h : strlen.chars path' = strlen.chars path)
    : parsePath path' = parsePath path := by
  unfold parsePath parse
  rw [h]

namespace Argv

def SameRow (argv' argv : Argv) : Prop :=
  ∀ k (h : k < 100), argv' ⟨100 + k, row_lt h⟩ = argv ⟨100 + k, row_lt h⟩

variable {argv argv' : Argv}

theorem SameRow.take_row (h : SameRow argv' argv) : (argv'.row 1).take 100 = (argv.row 1).take 100 := by
  unfold Argv.row
  apply List.ext_getElem
  . simp only [List.length_take, List.length_drop, List.length_ofFn]
  . intro k hk hk'
    have hlt : k < 100 := by
      rw [List.length_take] at hk
      omega
    simp only [List.getElem_take, List.getElem_drop, List.getElem_ofFn]
    apply h k hlt

theorem SameRow.isAbsolutePath (h : SameRow argv' argv)
    : isAbsolutePath (argv'.row 1) = isAbsolutePath (argv.row 1) := by
  have htake := congrArg List.head? h.take_row
  rw [List.head?_take, List.head?_take] at htake
  unfold AiOS.isAbsolutePath
  rw [if_neg (by omega), if_neg (by omega)] at htake
  rw [htake]

end Argv

def Argv.Terminated (argv : Argv) : Prop :=
  ∃ len < 100, strlen (argv.row 1) = some len

theorem Argv.SameRow.parsePath {argv argv' : Argv} (h : SameRow argv' argv) (hends : argv.Terminated)
    : parsePath (argv'.row 1) = AiOS.parsePath (argv.row 1) := by
  rcases hends with ⟨len, hlt, hlen⟩
  apply parsePath_congr
  apply strlen.chars_congr hlen hlt h.take_row

namespace mv

-- the names of the directories on a path, with the last component as one of them if `isdir`
def directories (path : List UInt8) (isdir : Bool) : Option (List (Fin 8 → UInt8)) := do
  let (pathList, pathCount) ← parsePath path
  (List.range (if isdir then pathCount else pathCount - 1)).mapM fun i => bytes 8 (pathList.row i)

def last_name (path : List UInt8) : Option (Fin 8 → UInt8) := do
  let (pathList, pathCount) ← parsePath path
  bytes 8 (pathList.row (pathCount - 1))

def file_name (path : List UInt8) : Option ((Fin 8 → UInt8) × (Fin 3 → UInt8)) := do
  let (pathList, pathCount) ← parsePath path
  let (output, _) ← parseExt (pathList.row (pathCount - 1))
  let name ← bytes 8 (output.row 0)
  let ext ← bytes 3 (output.row 1)
  return (name, ext)

def origin (path : List UInt8) (dir : UInt32) : UInt32 :=
  if isAbsolutePath path then ROOT_CLUSTER_NUMBER else dir

end mv

namespace Disk

structure HoldsFile (d : Disk) (file : UInt32 × Fin 64) (name : Fin 8 → UInt8)
    (ext : Fin 3 → UInt8) : Prop where
  lists : d.Lists file.1 file.2
  isFile : (d.table (clusterIndex file.1) file.2).attribute ≠ ATTR_SUBDIRECTORY
  name : (d.table (clusterIndex file.1) file.2).name = name
  ext : (d.table (clusterIndex file.1) file.2).ext = ext

def NamesFile (d : Disk) (dir : UInt32) (path : List UInt8) (file : UInt32 × Fin 64) : Prop :=
  ∃ names base, mv.directories path false = some names ∧ mv.file_name path = some base ∧
    Walk d.Step (mv.origin path dir) names (.inl file.1) ∧ d.HoldsFile file base.1 base.2

/--
The path from `dir` leads to a directory with a file that has the name at the end of `source`.
-/
def Receives (d : Disk) (dir : UInt32) (source path : List UInt8) (file : UInt32 × Fin 64) : Prop :=
  ∃ names base, mv.directories path true = some names ∧ mv.file_name source = some base ∧
    Walk d.Step (mv.origin path dir) names (.inl file.1) ∧ d.HoldsFile file base.1 base.2

structure SameFile (d : Disk) (file : UInt32 × Fin 64) (d' : Disk) (file' : UInt32 × Fin 64)
    : Prop where
  filesize : (d'.table (clusterIndex file'.1) file'.2).filesize
    = (d.table (clusterIndex file.1) file.2).filesize
  bytes : ∀ l, d.Owns (clusterIndex file.1, file.2) l →
    ∃ l', d'.Owns (clusterIndex file'.1, file'.2) l' ∧
      ∀ k < (d.table (clusterIndex file.1) file.2).filesize.toNat,
        ClusterBuffer.byteOf (l'.map d'.cluster) k = ClusterBuffer.byteOf (l.map d.cluster) k

theorem SameFile.refl (d : Disk) (file : UInt32 × Fin 64) : d.SameFile file d file where
  filesize := rfl
  bytes := by
    intro l hl
    exact ⟨l, hl, fun _ _ => rfl⟩

end Disk

namespace mv

/--
A file that the source path names is still there, or where the destination path says. Nothing else
has been removed.
-/
structure KeepsFiles (argv : Argv) (s s' : Shell) : Prop where
  moved : ∀ file, s.kernel.disk.NamesFile s.currentDirectory (argv.row 1) file →
    ∃ file', s.kernel.disk.SameFile file s'.kernel.disk file' ∧
      (s'.kernel.disk.NamesFile s.currentDirectory (argv.row 1) file' ∨
        s'.kernel.disk.NamesFile s.currentDirectory (argv.row 2) file' ∨
        s'.kernel.disk.Receives s.currentDirectory (argv.row 1) (argv.row 2) file')
  others : ∀ dir i, s.kernel.disk.Tree dir → s.kernel.disk.Lists dir i →
    ¬ s.kernel.disk.NamesFile s.currentDirectory (argv.row 1) (dir, i) →
    s'.kernel.disk.Lists dir i ∧
      (s'.kernel.disk.table (clusterIndex dir) i).name
        = (s.kernel.disk.table (clusterIndex dir) i).name

theorem keepsFiles_of_disk {argv : Argv} {s s' : Shell} (h : s'.kernel.disk = s.kernel.disk)
    : KeepsFiles argv s s' where
  moved := by
    intro file hfile
    rw [h]
    exact ⟨file, Disk.SameFile.refl _ _, Or.inl hfile⟩
  others := by
    intro dir i _ hlists _
    rw [h]
    exact ⟨hlists, rfl⟩

/--
`mv` does not get past its checks.
-/
def Stops (argv : Argv) (argc : Nat) (s : Shell) : Prop :=
  argc ≠ 3 ∨ ∀ name i, openFile.base argv = some name → findDirEntryIndex s.dirTable name = some i →
    (s.dirTable i).attribute = ATTR_SUBDIRECTORY

/--
The lookups of `cd` along the source path find nothing, or stop at a file too early, in a directory
without a file for `cp`.
-/
def Astray (argv : Argv) (s : Shell) : Prop :=
  argv.Terminated ∧
    ((∃ dir, cd.outcome argv true s = some (.nothing dir)) ∨
      ∃ dir, cd.outcome argv false s = some (.file dir) ∧
        ∀ name i, last_name (argv.row 1) = some name → s.kernel.disk.Lists dir i →
          cpHelper.plain_file (s.kernel.disk.table (clusterIndex dir) i) →
          (s.kernel.disk.table (clusterIndex dir) i).name ≠ name)

end mv

theorem split_wordCount_le {separator : UInt8} {chars : List UInt8} {wordCount wordIndex : Nat}
    {output output' : PathList} {n : Nat}
    (h : split separator chars wordCount wordIndex output = some (output', n))
    : wordCount ≤ n := by
  induction chars generalizing wordCount wordIndex output with
  | nil =>
    rw [split, Option.some.injEq, Prod.mk.injEq] at h
    omega
  | cons c chars ih =>
    rw [split] at h
    split at h
    . have := ih h
      omega
    . rw [Option.bind_eq_bind, Option.bind_eq_some_iff] at h
      rcases h with ⟨output, _, h⟩
      exact ih h

theorem parsePath_pos {path : List UInt8} {pathList : PathList} {n : Nat}
    (h : parsePath path = some (pathList, n))
    : 1 ≤ n := by
  unfold parsePath parse at h
  rw [Option.bind_eq_bind, Option.bind_eq_some_iff] at h
  rcases h with ⟨chars, _, h⟩
  split at h
  . apply split_wordCount_le h
  . apply split_wordCount_le h

theorem Disk.follow_concat (d : Disk) (path : PathList) (dir : UInt32) (indices : List Nat)
    (index : Nat)
    : d.follow path dir (indices ++ [index])
        =
      (d.follow path dir indices).bind fun outcome =>
        match outcome with
        | .directory dir => (bytes 8 (path.row index)).map fun name => d.lookup dir name
        | .file dir => some (.file dir)
        | .nothing dir => some (.nothing dir) := by
  induction indices generalizing dir with
  | nil =>
    rw [List.nil_append, follow, follow, Option.bind_some]
    cases bytes 8 (path.row index) with
    | none => rfl
    | some name =>
      rw [Option.bind_eq_bind, Option.bind_some]
      dsimp only
      rw [Option.map_some]
      cases d.lookup dir name with
      | directory dir => rfl
      | file dir => rfl
      | nothing dir => rfl
  | cons index' indices ih =>
    rw [List.cons_append, follow, follow]
    cases bytes 8 (path.row index') with
    | none => rfl
    | some name =>
      rw [Option.bind_eq_bind, Option.bind_some, Option.bind_some]
      cases d.lookup dir name with
      | directory dir => apply ih
      | file dir => rfl
      | nothing dir => rfl

namespace cd

variable {argv : Argv} {s : Shell} {dir : UInt32}

theorem outcome_true_eq (argv : Argv) (s : Shell)
    : cd.outcome argv true s
        =
      (cd.outcome argv false s).bind fun outcome =>
        match outcome with
        | .directory dir => (mv.last_name (argv.row 1)).map fun name => s.kernel.disk.lookup dir name
        | .file dir => some (.file dir)
        | .nothing dir => some (.nothing dir) := by
  unfold cd.outcome mv.last_name
  cases hparse : parsePath (argv.row 1) with
  | none => rfl
  | some parsed =>
    rcases parsed with ⟨path, n⟩
    have hpos := parsePath_pos hparse
    have hrange : List.range n = List.range (n - 1) ++ [n - 1] := by
      rw [← List.range_succ]
      congr 1
      omega
    rw [Option.bind_eq_bind, Option.bind_some, Option.bind_eq_bind, Option.bind_some]
    dsimp only
    rw [if_pos rfl, if_neg (by decide), hrange, Disk.follow_concat]
    rfl

theorem outcome_true_of_file (h : cd.outcome argv false s = some (.file dir))
    : cd.outcome argv true s = some (.file dir) := by
  rw [outcome_true_eq, h]
  rfl

theorem outcome_false_of_nothing (h : cd.outcome argv true s = some (.nothing dir))
    : cd.outcome argv false s = some (.nothing dir) ∨
        (cd.outcome argv false s = some (.directory dir) ∧
          ∃ name, mv.last_name (argv.row 1) = some name ∧
            findDirEntryIndex (s.kernel.disk.table (clusterIndex dir)) name = none) := by
  rw [outcome_true_eq, Option.bind_eq_some_iff] at h
  rcases h with ⟨outcome, houtcome, h⟩
  rw [houtcome]
  cases outcome with
  | directory dir' =>
    right
    dsimp only at h
    rw [Option.map_eq_some_iff] at h
    rcases h with ⟨name, hname, hlookup⟩
    unfold Disk.lookup at hlookup
    dsimp only at hlookup
    cases hfind : findDirEntryIndex (s.kernel.disk.table (clusterIndex dir')) name with
    | none =>
      rw [hfind] at hlookup
      rw [Outcome.nothing.injEq] at hlookup
      rw [← hlookup]
      exact ⟨rfl, name, hname, hfind⟩
    | some i =>
      rw [hfind] at hlookup
      dsimp only at hlookup
      split at hlookup
      . contradiction
      . contradiction
  | file dir' => simp at h
  | nothing dir' =>
    left
    exact h

end cd

namespace Shell

structure At (s : Shell) (dir : UInt32) (t : Shell) : Prop where
  disk : t.kernel.disk = s.kernel.disk
  currentDirectory : t.currentDirectory = dir

theorem at_self (s : Shell) : s.At s.currentDirectory s where
  disk := rfl
  currentDirectory := rfl

end Shell

abbrev Idle {α : Type} (p : ShellM α) : Prop :=
  Keeps (fun s => (s.kernel.disk, s.currentDirectory)) p

theorem ensures_at_of_idle {α : Type} {p : ShellM α} (h : Idle p) (s : Shell) (dir : UInt32)
    : Ensures (s.At dir) p fun _ => s.At dir := by
  intro t a t' ht hrun
  have hsame := h t a t' hrun
  rw [Prod.mk.injEq] at hsame
  exact ⟨hsame.1.trans ht.disk, hsame.2.trans ht.currentDirectory⟩

theorem cd.outcome_congr {argv argv' : Argv} {isdir : Bool} {s t : Shell}
    (hrow : argv'.SameRow argv) (hends : argv.Terminated) (ht : s.At s.currentDirectory t)
    : cd.outcome argv' isdir t = cd.outcome argv isdir s := by
  have hstart : cd.start argv' t = cd.start argv s := by
    unfold cd.start
    rw [hrow.isAbsolutePath, ht.currentDirectory]
  unfold cd.outcome
  rw [hrow.parsePath hends, ht.disk, hstart]

theorem cd.ensures_outcome {argv argv' : Argv} (isdir : Bool) {s : Shell}
    (hrow : argv'.SameRow argv) (hends : argv.Terminated)
    : Ensures (s.At s.currentDirectory) (cd argv' 2 isdir) fun code t =>
        ∃ outcome, cd.outcome argv isdir s = some outcome ∧ code = outcome.code ∧
          s.At (outcome.location s.currentDirectory) t ∧
          t.dirTable = s.kernel.disk.table (clusterIndex outcome.reached) := by
  intro t code t' ht hrun
  rw [cd_apply (Nat.le_refl 2), cd.outcome_congr hrow hends ht, Option.map_eq_some_iff] at hrun
  rcases hrun with ⟨outcome, houtcome, heq⟩
  rw [Prod.mk.injEq] at heq
  rw [← heq.1, ← heq.2, ht.currentDirectory]
  refine ⟨outcome, houtcome, rfl, ⟨ht.disk, rfl⟩, ?_⟩
  unfold Shell.visit
  rw [ht.disk]

theorem idle_printlen (string : List UInt8) (color : UInt32) : Idle (printlen string color) := by
  apply keeps_printlen
  intro s printed
  rfl

theorem idle_uninitialised : Idle uninitialised := by
  apply Keeps.bind Keeps.of_get
  intro s
  apply Keeps.bind
  . apply Keeps.of_modify
    intro s
    rfl
  . intro _
    apply Keeps.of_pure

theorem idle_updateDirectoryTable (dir : UInt32) : Idle (updateDirectoryTable dir) := by
  intro s a s' hrun
  rw [updateDirectoryTable_apply, Option.some.injEq, Prod.mk.injEq] at hrun
  rw [← hrun.2]
  rfl

theorem idle_report (retval : Int) : Idle (rm.report retval) := by
  apply Keeps.ite
  . apply idle_printlen
  . apply Keeps.ite
    . apply idle_printlen
    . apply Keeps.ite
      . apply idle_printlen
      . apply Keeps.of_pure

section

variable {argv : Argv} {s : Shell} {dir dir' : UInt32}

theorem ensures_setCurrentDirectory
    : Ensures (s.At dir) (setCurrentDirectory dir') fun _ => s.At dir' := by
  apply Ensures.of_modify
  intro t ht
  exact ⟨ht.disk, rfl⟩

theorem ensures_mkdir_request
    : Ensures (s.At dir) (mkdir.request argv) fun request t =>
        s.At dir t ∧ mv.last_name (argv.row 1) = some request.name ∧
          request.parent_cluster_number = dir := by
  intro t request t' ht hrun
  unfold mkdir.request at hrun
  rw [ofOption_bind_eq_some_iff] at hrun
  rcases hrun with ⟨⟨pathList, pathCount⟩, hpath, hrun⟩
  dsimp only at hrun
  rw [bind_eq_some_iff] at hrun
  rcases hrun with ⟨locals, u, hlocals, hrun⟩
  have hu := ensures_at_of_idle idle_uninitialised s dir t locals u ht hlocals
  rw [ofOption_bind_eq_some_iff] at hrun
  rcases hrun with ⟨name, hname, hrun⟩
  rw [get_bind_apply, pure_apply, Option.some.injEq, Prod.mk.injEq] at hrun
  rw [← hrun.1, ← hrun.2]
  refine ⟨hu, ?_, hu.currentDirectory⟩
  unfold mv.last_name
  rw [hpath]
  exact hname

theorem ensures_delete_of_none {request : FAT32DriverRequest}
    (hnone : findDirEntryIndex
      (s.kernel.disk.table (clusterIndex request.parent_cluster_number)) request.name = none)
    : Ensures (s.At dir) (Shell.delete request) fun _ => s.At dir := by
  have hsearched : delete.searched request s.kernel.disk = none := by
    unfold delete.searched delete.find_entry
    rw [List.find?_eq_none]
    intro i _ hhit
    rw [decide_eq_true_eq] at hhit
    have hname := memcmp_eq_zero_iff _ _ |>.mp hhit.2.1
    exact findDirEntryIndex_eq_none_iff.mp hnone i hhit.1 hname.symm
  intro t code t' ht hrun
  unfold Shell.delete at hrun
  rw [get_bind_apply, bind_eq_some_iff] at hrun
  rcases hrun with ⟨locals, u, hlocals, hrun⟩
  have hu := ensures_at_of_idle idle_uninitialised s dir t locals u ht hlocals
  rw [bind_eq_some_iff] at hrun
  rcases hrun with ⟨⟨code', driver_state⟩, v, hdelete, hrun⟩
  rw [onDisk_apply, hu.disk, delete.run_of_searched_none _ _ _ _ hsearched, Option.map_some,
    Option.some.injEq, Prod.mk.injEq] at hdelete
  dsimp only at hrun
  rw [modify_bind_apply, pure_apply, Option.some.injEq, Prod.mk.injEq, ← hdelete.2] at hrun
  rw [← hrun.2]
  exact ⟨rfl, hu.currentDirectory⟩

end

namespace mv

variable {argv : Argv} {s : Shell}

theorem Astray.outcome_false (h : Astray argv s)
    : ∃ outcome, cd.outcome argv false s = some outcome ∧
        ∀ dir, outcome = .directory dir → ∃ name, last_name (argv.row 1) = some name ∧
          findDirEntryIndex (s.kernel.disk.table (clusterIndex dir)) name = none := by
  rcases h with ⟨_, ⟨dir, hnothing⟩ | ⟨dir, hfile, _⟩⟩
  . rcases cd.outcome_false_of_nothing hnothing with hbefore | ⟨hlast, name, hname, hnone⟩
    . refine ⟨_, hbefore, ?_⟩
      intro dir' heq
      contradiction
    . refine ⟨_, hlast, ?_⟩
      intro dir' heq
      rw [Outcome.directory.injEq] at heq
      rw [← heq]
      exact ⟨name, hname, hnone⟩
  . refine ⟨_, hfile, ?_⟩
    intro dir' heq
    contradiction

theorem ensures_rm (h : Astray argv s)
    : Ensures (s.At s.currentDirectory) (rm argv 2) fun _ t => t.kernel.disk = s.kernel.disk := by
  have hrow : argv.SameRow argv := fun _ _ => rfl
  rcases h.outcome_false with ⟨outcome, houtcome, hlast⟩
  unfold rm
  rw [if_neg (by omega)]
  apply Ensures.get_bind
  intro t ht
  refine Ensures.bind (cd.ensures_outcome false hrow h.1) ?_
  intro retval
  apply Ensures.ite
  . intro _
    apply Ensures.of_pure
    intro u ⟨_, _, _, hu, _⟩
    exact hu.disk
  . intro hzero
    rw [not_not] at hzero
    have hlast : ∀ u : Shell, (∃ outcome, cd.outcome argv false s = some outcome ∧
        retval = outcome.code ∧ s.At (outcome.location s.currentDirectory) u ∧
        u.dirTable = s.kernel.disk.table (clusterIndex outcome.reached)) →
        ∃ dir name, last_name (argv.row 1) = some name ∧
          findDirEntryIndex (s.kernel.disk.table (clusterIndex dir)) name = none ∧ s.At dir u := by
      intro u ⟨outcome', houtcome', hcode, hu, _⟩
      rw [houtcome, Option.some.injEq] at houtcome'
      rw [← houtcome'] at hcode hu
      rw [hzero, eq_comm, Outcome.code_eq_zero_iff] at hcode
      rcases hcode with ⟨dir, hdir⟩
      rcases hlast dir hdir with ⟨name, hname, hnone⟩
      rw [hdir] at hu
      exact ⟨dir, name, hname, hnone, hu⟩
    refine Ensures.consequence ?_ hlast (fun _ _ h => h)
    apply Ensures.exists_pre
    intro dir
    apply Ensures.exists_pre
    intro name
    refine Ensures.bind (Q := fun request u => s.At dir u ∧
      findDirEntryIndex (s.kernel.disk.table (clusterIndex request.parent_cluster_number))
        request.name = none) ?_ ?_
    . intro u request u' ⟨hname, hnone, hu⟩ hrun
      rcases ensures_mkdir_request u request u' hu hrun with ⟨hu', hname', hparent⟩
      rw [hname, Option.some.injEq] at hname'
      rw [hparent, ← hname']
      exact ⟨hu', hnone⟩
    . intro request
      refine Ensures.bind (Q := fun _ => s.At dir) ?_ ?_
      . intro u code u' ⟨hu, hnone⟩ hrun
        apply ensures_delete_of_none hnone u code u' hu hrun
      . intro retval
        refine Ensures.bind (ensures_at_of_idle (idle_report retval) s dir) ?_
        intro _
        refine Ensures.consequence ensures_setCurrentDirectory (fun _ h => h) ?_
        intro _ u hu
        exact hu.disk

section

variable {argvS argvD : Argv} (hrow : argvS.SameRow argv) (h : Astray argv s)

include h

theorem outcome_true_code {outcome : Outcome} (houtcome : cd.outcome argv true s = some outcome)
    : outcome.code ≠ 0 ∧ outcome.location s.currentDirectory = s.currentDirectory := by
  rcases h.2 with ⟨dir, hnothing⟩ | ⟨dir, hfile, _⟩
  . rw [hnothing, Option.some.injEq] at houtcome
    rw [← houtcome]
    exact ⟨by simp [Outcome.code], rfl⟩
  . rw [cd.outcome_true_of_file hfile, Option.some.injEq] at houtcome
    rw [← houtcome]
    exact ⟨by simp [Outcome.code], rfl⟩

include hrow

theorem last_name_eq : last_name (argvS.row 1) = last_name (argv.row 1) := by
  unfold last_name
  rw [hrow.parsePath h.1]

theorem ensures_file {lastpath : Fin 8 → UInt8} {dir : UInt32}
    (hlast : last_name (argv.row 1) = some lastpath)
    (hfile : cd.outcome argv false s = some (.file dir))
    (hplain : ∀ name i, last_name (argv.row 1) = some name → s.kernel.disk.Lists dir i →
      cpHelper.plain_file (s.kernel.disk.table (clusterIndex dir) i) →
      (s.kernel.disk.table (clusterIndex dir) i).name ≠ name)
    : Ensures (s.At s.currentDirectory) (cpHelper.file argvS argvD lastpath) fun _ =>
        s.At s.currentDirectory := by
  unfold cpHelper.file
  refine Ensures.bind (Q := fun _ t => s.At s.currentDirectory t ∧
    t.dirTable = s.kernel.disk.table (clusterIndex dir)) ?_ ?_
  . refine Ensures.consequence (cd.ensures_outcome false hrow h.1) (fun _ ht => ht) ?_
    intro code t ⟨outcome, houtcome, _, ht, htable⟩
    rw [hfile, Option.some.injEq] at houtcome
    rw [← houtcome] at ht htable
    exact ⟨ht, htable⟩
  . intro _
    apply Ensures.get_bind
    intro t ⟨_, htable⟩
    have hnone : write.slots.find? (fun i =>
        (t.dirTable i).user_attribute = UATTR_NOT_EMPTY ∧ cpHelper.plain_file (t.dirTable i) ∧
          memcmp (t.dirTable i).name lastpath = 0) = none := by
      rw [List.find?_eq_none, htable]
      intro i hi hfound
      rw [decide_eq_true_eq, memcmp_eq_zero_iff] at hfound
      have hlists : s.kernel.disk.Lists dir i := ⟨(write.mem_slots i).mp hi, hfound.1⟩
      exact hplain lastpath i hlast hlists hfound.2.1 hfound.2.2
    dsimp only
    rw [hnone]
    apply Ensures.of_pure
    intro u hu
    exact hu.1

theorem ensures_cpHelper (fuel : Nat) (startDir : UInt32)
    : Ensures (s.At s.currentDirectory) (cpHelper fuel argvS argvD startDir) fun _ t =>
        t.kernel.disk = s.kernel.disk := by
  cases fuel with
  | zero =>
    apply Ensures.of_ofOption
    intro a t hnone
    contradiction
  | succ fuel =>
    intro t a t' ht hrun
    unfold cpHelper at hrun
    rw [ofOption_bind_eq_some_iff] at hrun
    rcases hrun with ⟨⟨pathList, pathCount⟩, hpath, hrun⟩
    dsimp only at hrun
    rw [ofOption_bind_eq_some_iff] at hrun
    rcases hrun with ⟨lastpath, hlastpath, hrun⟩
    have hlast : last_name (argv.row 1) = some lastpath := by
      rw [← last_name_eq hrow h]
      unfold last_name
      rw [hpath]
      exact hlastpath
    rw [bind_eq_some_iff] at hrun
    rcases hrun with ⟨retval, u, hcd, hrun⟩
    rcases cd.ensures_outcome true hrow h.1 t retval u ht hcd with
      ⟨outcome, houtcome, hcode, hu, _⟩
    rcases h.2 with ⟨dir, hnothing⟩ | ⟨dir, hfile, hplain⟩
    . rw [hnothing, Option.some.injEq] at houtcome
      rw [← houtcome] at hcode hu
      have hcode : retval = 2 := hcode
      rw [if_neg (by omega), if_neg (by omega), pure_apply, Option.some.injEq, Prod.mk.injEq]
        at hrun
      rw [← hrun.2]
      exact hu.disk
    . rw [cd.outcome_true_of_file hfile, Option.some.injEq] at houtcome
      rw [← houtcome] at hcode hu
      have hcode : retval = 3 := hcode
      rw [if_pos hcode] at hrun
      exact (ensures_file hrow h hlast hfile hplain u a t' hu hrun).disk

end

theorem ensures_cp (h : Astray argv s) (fuel : Nat)
    : Ensures (s.At s.currentDirectory) (cp fuel argv 3) fun _ => s.At s.currentDirectory := by
  unfold cp
  rw [if_neg (by omega)]
  refine Ensures.bind (ensures_at_of_idle idle_uninitialised s _) ?_
  intro locals
  have hrow : Argv.SameRow (fun k => if k.val < 200 then argv k else locals.argvS k) argv := by
    intro k hk
    dsimp only
    rw [if_pos (by omega)]
  apply Ensures.get_bind
  intro t ht
  rw [ht.currentDirectory]
  refine Ensures.bind (Q := fun retval u => retval ≠ 0 ∧ s.At s.currentDirectory u) ?_ ?_
  . refine Ensures.consequence (cd.ensures_outcome true hrow h.1) (fun _ hu => hu) ?_
    intro retval u ⟨outcome, houtcome, hcode, hu, _⟩
    have hout := outcome_true_code h houtcome
    rw [hout.2] at hu
    rw [hcode]
    exact ⟨hout.1, hu⟩
  . intro retval
    refine Ensures.bind (Q := fun _ u => retval ≠ 0 ∧ s.At s.currentDirectory u) ?_ ?_
    . apply Ensures.of_modify
      intro u hu
      exact ⟨hu.1, hu.2.disk, rfl⟩
    . intro _
      refine Ensures.bind (Q := fun _ u => retval ≠ 0 ∧ s.At s.currentDirectory u) ?_ ?_
      . intro u a u' hu hrun
        exact ⟨hu.1, ensures_at_of_idle (idle_updateDirectoryTable _) s _ u a u' hu.2 hrun⟩
      . intro _
        apply Ensures.ite
        . intro hzero u _ _ hu
          exact absurd hzero hu.1
        . intro _
          refine Ensures.bind (Q := fun _ u => u.kernel.disk = s.kernel.disk) ?_ ?_
          . refine Ensures.consequence (ensures_cpHelper hrow h fuel _) ?_ (fun _ _ hu => hu)
            intro u hu
            exact hu.2
          . intro _
            apply Ensures.of_modify
            intro u hu
            exact ⟨hu, rfl⟩

theorem ensures_return {α : Type} {P : Shell → Prop} {p : ShellM α} {dir : UInt32}
    (hp : Ensures P p fun _ t => t.kernel.disk = s.kernel.disk)
    : Ensures P (p >>= fun _ => setCurrentDirectory dir) fun _ t =>
        t.kernel.disk = s.kernel.disk := by
  refine Ensures.bind hp ?_
  intro _
  apply Ensures.of_modify
  intro t ht
  exact ht

theorem ensures_message (string : List UInt8) (color : UInt32)
    : Ensures (s.At s.currentDirectory) (printlen string color) fun _ t =>
        t.kernel.disk = s.kernel.disk := by
  refine Ensures.consequence (ensures_at_of_idle (idle_printlen string color) s _) (fun _ ht => ht) ?_
  intro _ t ht
  exact ht.disk

theorem ensures_not_found (argv : Argv)
    : Ensures (s.At s.currentDirectory) (do
        print "Error: no such File: " 0b0110
        print.chars (argv.row 1) 0b0110
        print "\n" 0xF) fun _ t => t.kernel.disk = s.kernel.disk := by
  have hidle : Idle (do
      print "Error: no such File: " 0b0110
      print.chars (argv.row 1) 0b0110
      print "\n" 0xF) := by
    apply keeps_not_found
    intro s printed
    rfl
  refine Ensures.consequence (ensures_at_of_idle hidle s _) (fun _ ht => ht) ?_
  intro _ t ht
  exact ht.disk

-- where the source path leads nowhere, `cp` copies nothing and `rm` finds nothing to delete
theorem ensures_move (h : Astray argv s) (fuel : Nat)
    : Ensures (s.At s.currentDirectory) (do
        cp fuel argv 3
        rm argv 2
        setCurrentDirectory s.currentDirectory) fun _ t => t.kernel.disk = s.kernel.disk := by
  refine Ensures.bind (ensures_cp h fuel) ?_
  intro _
  apply ensures_return (ensures_rm h)

theorem disk_eq {fuel argc : Nat} {s' : Shell} (hidle : Stops argv argc s ∨ Astray argv s)
    (h : mv fuel argv argc s = some ((), s'))
    : s'.kernel.disk = s.kernel.disk := by
  unfold mv at h
  rw [get_bind_apply] at h
  split at h
  . exact ensures_return (ensures_message _ _) s () s' s.at_self h
  . split at h
    . exact ensures_return (ensures_message _ _) s () s' s.at_self h
    . next hfew hmany =>
      have hargc : argc = 3 := by omega
      subst hargc
      rw [ofOption_bind_eq_some_iff] at h
      rcases h with ⟨⟨pathList, pathCount⟩, hpath, h⟩
      dsimp only at h
      rw [ofOption_bind_eq_some_iff] at h
      rcases h with ⟨⟨output, count⟩, houtput, h⟩
      dsimp only at h
      rw [ofOption_bind_eq_some_iff] at h
      rcases h with ⟨name, hname, h⟩
      have hbase : openFile.base argv = some name := by
        unfold openFile.base
        rw [hpath, Option.bind_eq_bind, Option.bind_some]
        dsimp only
        rw [houtput, Option.bind_some]
        exact hname
      cases hentry : findDirEntryIndex s.dirTable name with
      | none =>
        rw [hentry] at h
        exact ensures_not_found argv s () s' s.at_self h
      | some entry =>
        rw [hentry] at h
        dsimp only at h
        split at h
        . next hfile =>
          rcases hidle with (hne | hdirectory) | hastray
          . contradiction
          . exact absurd (hdirectory name entry hbase hentry) hfile
          . exact ensures_move hastray fuel s () s' s.at_self h
        . exact ensures_return (ensures_message _ _) s () s' s.at_self h

end mv

/--
`mv` keeps the files where it stops at its checks, or where the source path leads nowhere.
-/
theorem mv_keeps_files {fuel argc : Nat} {argv : Argv} {s s' : Shell}
    (hidle : mv.Stops argv argc s ∨ mv.Astray argv s) (h : mv fuel argv argc s = some ((), s'))
    : mv.KeepsFiles argv s s' := by
  apply mv.keepsFiles_of_disk
  apply mv.disk_eq hidle h

namespace padded

def shell : Shell :=
  newborn.shell write.populated

def argv (source : String) : Argv :=
  fun k =>
    if k.val < 100 then
      (ascii "mv").getD k 0
    else if k.val < 200 then
      (ascii source).getD (k.val - 100) 0
    else
      (ascii "f").getD (k.val - 200) 0

theorem parsed : lineParser (ascii "mv shell f\n") = some (argv "shell", 3) := by
  decide +kernel

theorem reachable
    : driver.Reachable (fun _ _ => True)
        (⟨write.link [3] fresh.fat, write.new_table write.small fresh 2 [3]⟩, write.populated) := by
  apply reachable_write reachable_fresh trivial Catalog.Directory.root
    (write.run_small fresh_driver)

theorem astray : mv.Astray (argv "shell.x") shell := by
  refine ⟨⟨7, by decide, by decide⟩, Or.inl ⟨2, ?_⟩⟩
  decide +kernel

theorem run_astray : ∃ s', mv 1 (argv "shell.x") 3 shell = some ((), s') := by
  have hsome : (mv 1 (argv "shell.x") 3 shell).isSome := by decide +kernel
  rw [Option.isSome_iff_exists] at hsome
  rcases hsome with ⟨⟨⟨⟩, s'⟩, hrun⟩
  exact ⟨s', hrun⟩

theorem run
    : ∃ s', mv 1 (argv "shell") 3 shell = some ((), s') ∧
        ∀ j : Fin 64, 2 ≤ j.val →
          (s'.kernel.disk.table 2 j).user_attribute = UATTR_NOT_EMPTY →
          (s'.kernel.disk.table 2 j).attribute ≠ ATTR_SUBDIRECTORY ∧
            (s'.kernel.disk.table 2 j).filesize ≠ 5 := by
  have hmoved : (mv 1 (argv "shell") 3 shell).map (fun r =>
      decide (∀ j : Fin 64, 2 ≤ j.val →
        (r.2.kernel.disk.table 2 j).user_attribute = UATTR_NOT_EMPTY →
        (r.2.kernel.disk.table 2 j).attribute ≠ ATTR_SUBDIRECTORY ∧
          (r.2.kernel.disk.table 2 j).filesize ≠ 5)) = some true := by
    decide +kernel
  rw [Option.map_eq_some_iff] at hmoved
  rcases hmoved with ⟨⟨⟨⟩, s'⟩, hrun, hlost⟩
  rw [decide_eq_true_eq] at hlost
  exact ⟨s', hrun, hlost⟩

theorem names
    : mv.directories ((argv "shell").row 1) false = some [] ∧
        mv.directories ((argv "shell").row 2) false = some [] ∧
        mv.directories ((argv "shell").row 2) true = some [entry_name (ascii "f")] ∧
        mv.file_name ((argv "shell").row 1) = some (write.small.name, write.small.ext) := by
  decide +kernel

theorem entry
    : let entry := write.populated.table (clusterIndex ROOT_CLUSTER_NUMBER) 2
      entry.user_attribute = UATTR_NOT_EMPTY ∧ entry.attribute ≠ ATTR_SUBDIRECTORY ∧
        entry.name = write.small.name ∧ entry.ext = write.small.ext ∧ entry.filesize = 5 := by
  decide

theorem names_source
    : write.populated.NamesFile ROOT_CLUSTER_NUMBER ((argv "shell").row 1)
        (ROOT_CLUSTER_NUMBER, 2) := by
  rcases names with ⟨hsource, _, _, hfile⟩
  rcases entry with ⟨hlive, hplain, hname, hext, _⟩
  refine ⟨_, _, hsource, hfile, Walk.nil, ?_⟩
  exact { lists := ⟨Nat.le_refl 2, hlive⟩, isFile := hplain, name := hname, ext := hext }

theorem origin_root (path : List UInt8)
    : mv.origin path ROOT_CLUSTER_NUMBER = ROOT_CLUSTER_NUMBER := by
  unfold mv.origin
  split
  . rfl
  . rfl

variable {d : Disk} {path : List UInt8} {file : UInt32 × Fin 64}

theorem root_of_names (hdirectories : mv.directories path false = some [])
    (h : d.NamesFile ROOT_CLUSTER_NUMBER path file)
    : file.1 = ROOT_CLUSTER_NUMBER ∧ d.Lists file.1 file.2 := by
  rcases h with ⟨names, base, hnames, _, hwalk, hfile⟩
  rw [hdirectories, Option.some.injEq] at hnames
  rw [← hnames, Walk.nil_iff, origin_root, Sum.inl.injEq] at hwalk
  exact ⟨hwalk, hfile.lists⟩

theorem not_receives (hlost : ∀ j, d.Lists ROOT_CLUSTER_NUMBER j →
      (d.table (clusterIndex ROOT_CLUSTER_NUMBER) j).attribute ≠ ATTR_SUBDIRECTORY)
    : ¬ d.Receives ROOT_CLUSTER_NUMBER path ((argv "shell").row 2) file := by
  intro ⟨names, base, hnames, _, hwalk, _⟩
  rw [padded.names.2.2.1, Option.some.injEq] at hnames
  rw [← hnames, Walk.singleton_iff, origin_root] at hwalk
  generalize htarget : (Sum.inl file.1 : UInt32 ⊕ Stop) = r at hwalk
  cases hwalk with
  | parent heq => exact absurd heq (by decide)
  | @child i _ hlists _ =>
    rw [eq_comm, FAT32DirectoryEntry.target_eq_inl_iff] at htarget
    exact hlost i hlists htarget.1
  | nothing => contradiction

end padded

theorem mv_keeps_files_astray
    : ∃ s', mv 1 (padded.argv "shell.x") 3 padded.shell = some ((), s') ∧
        mv.KeepsFiles (padded.argv "shell.x") padded.shell s' := by
  rcases padded.run_astray with ⟨s', hrun⟩
  exact ⟨s', hrun, mv_keeps_files (Or.inr padded.astray) hrun⟩

theorem not_mv_keeps_files
    : ∃ st, driver.Reachable (fun _ _ => True) (st, padded.shell.kernel.disk) ∧
        lineParser (ascii "mv shell f\n") = some (padded.argv "shell", 3) ∧
        ∃ s', mv 1 (padded.argv "shell") 3 padded.shell = some ((), s') ∧
          ¬ mv.KeepsFiles (padded.argv "shell") padded.shell s' := by
  refine ⟨_, padded.reachable, padded.parsed, ?_⟩
  rcases padded.run with ⟨s', hrun, hlost⟩
  refine ⟨s', hrun, ?_⟩
  intro hkeeps
  rcases hkeeps.moved _ padded.names_source with ⟨file, hsame, hplace⟩
  have hroot : file.1 = ROOT_CLUSTER_NUMBER ∧ s'.kernel.disk.Lists file.1 file.2 := by
    rcases hplace with hsource | htarget | hinto
    . apply padded.root_of_names padded.names.1 hsource
    . apply padded.root_of_names padded.names.2.1 htarget
    . apply absurd hinto
      apply padded.not_receives
      intro j hlists
      exact (hlost j hlists.slot hlists.live).1
  have hsize := hsame.filesize
  rw [hroot.1] at hsize
  have hlists := hroot.2
  rw [hroot.1] at hlists
  apply (hlost file.2 hlists.slot hlists.live).2
  exact hsize.trans padded.entry.2.2.2.2

end AiOS
