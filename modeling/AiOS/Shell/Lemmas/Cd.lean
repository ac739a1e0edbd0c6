import AiOS.Fat32.Volume
import AiOS.Shell.Impl.UserShell

/-!
This module contains what `cd` returns and where it leaves the shell: where the names of a path lead
when each is looked up in the table of the directory before it.
-/

namespace AiOS

/--
Where a path leads. A path that ends early ends in `dir`, the table of which has a file under the
next name, or nothing.
-/
inductive Outcome where
  | directory (dir : UInt32)
  | file (dir : UInt32)
  | nothing (dir : UInt32)
  deriving DecidableEq

namespace Outcome

def code : Outcome → Int
  | .directory _ => 0
  | .file _ => 3
  | .nothing _ => 2

theorem code_eq_zero_iff (outcome : Outcome) : outcome.code = 0 ↔ ∃ dir, outcome = .directory dir := by
  cases outcome with
  | directory dir => simp [code]
  | file dir => simp [code]
  | nothing dir => simp [code]

-- the shell's directory after a `cd` that was called in `startDir`
def location (startDir : UInt32) : Outcome → UInt32
  | .directory dir => dir
  | .file _ => startDir
  | .nothing _ => startDir

def reached : Outcome → UInt32
  | .directory dir => dir
  | .file dir => dir
  | .nothing dir => dir

end Outcome

namespace Disk

def lookup (d : Disk) (dir : UInt32) (name : Fin 8 → UInt8) : Outcome :=
  let table := d.table (clusterIndex dir)
  match findDirEntryIndex table name with
  | none => .nothing dir
  | some i =>
    if (table i).attribute ≠ ATTR_SUBDIRECTORY then
      .file dir
    else
      .directory (table i).cluster_number

def follow (d : Disk) (path : PathList) (dir : UInt32) (indices : List Nat) : Option Outcome :=
  match indices with
  | [] => some (.directory dir)
  | index :: indices => do
    let name ← bytes 8 (path.row index)
    match d.lookup dir name with
    | .directory dir => d.follow path dir indices
    | outcome => some outcome

end Disk

namespace Shell

def visit (s : Shell) (dir loaded : UInt32) : Shell :=
  { s with
    currentDirectory := dir
    dirTable := s.kernel.disk.table (clusterIndex loaded) }

section

variable (s : Shell) (dir loaded dir' loaded' : UInt32)

@[simp]
theorem visit_kernel : (s.visit dir loaded).kernel = s.kernel := by
  rfl

@[simp]
theorem visit_currentDirectory : (s.visit dir loaded).currentDirectory = dir := by
  rfl

@[simp]
theorem visit_visit : (s.visit dir loaded).visit dir' loaded' = s.visit dir' loaded' := by
  rfl

end
end Shell

theorem onDisk_apply {α : Type} (p : DiskM α) (s : Shell)
    : onDisk p s
        =
      (p.run diskDevice s.kernel.disk).map fun r =>
        (r.1, { s with kernel := { s.kernel with disk := r.2 } }) := by
  unfold onDisk
  rw [Fallible.get_bind_apply, Fallible.ofOption_bind_apply]
  cases p.run diskDevice s.kernel.disk with
  | none => rfl
  | some r => rfl

theorem run_read_clusters_self (p : UInt32) (d : Disk)
    : (read_clusters p).run diskDevice d = some (d.cluster (clusterIndex p), d) := by
  rw [← Prog.bind_pure (read_clusters p), run_read_clusters]
  rfl

@[simp]
theorem setCurrentDirectory_apply (dir : UInt32) (s : Shell)
    : setCurrentDirectory dir s = some ((), { s with currentDirectory := dir }) := by
  rfl

theorem updateDirectoryTable_apply (dir : UInt32) (s : Shell)
    : updateDirectoryTable dir s = some ((), s.visit s.currentDirectory dir) := by
  have hload : onDisk (read_clusters dir) s = some (s.kernel.disk.cluster (clusterIndex dir), s) := by
    rw [onDisk_apply, run_read_clusters_self]
    rfl
  unfold updateDirectoryTable syscall.read_clusters
  rw [Fallible.bind_apply, Fallible.bind_apply, hload]
  rfl

theorem cd.walk_apply (startDir dir : UInt32) (path : PathList) (indices : List Nat) (s : Shell)
    : cd.walk startDir path indices (s.visit dir dir)
        =
      (s.kernel.disk.follow path dir indices).map fun outcome =>
        (outcome.code, s.visit (outcome.location startDir) outcome.reached) := by
  induction indices generalizing dir with
  | nil => rfl
  | cons index indices ih =>
    unfold cd.walk Disk.follow
    rw [Fallible.ofOption_bind_apply]
    cases bytes 8 (path.row index) with
    | none => rfl
    | some name =>
      have htable : (s.visit dir dir).dirTable = s.kernel.disk.table (clusterIndex dir) := rfl
      rw [Option.bind_some, Fallible.get_bind_apply, htable]
      change _ = Option.map _ (match s.kernel.disk.lookup dir name with
        | .directory dir => s.kernel.disk.follow path dir indices
        | outcome => some outcome)
      unfold Disk.lookup
      dsimp only
      cases hentry : findDirEntryIndex (s.kernel.disk.table (clusterIndex dir)) name with
      | none => rfl
      | some i =>
        dsimp only
        split
        . rfl
        . rw [Fallible.bind_apply, setCurrentDirectory_apply, Option.bind_some]
          rw [Fallible.bind_apply, updateDirectoryTable_apply, Option.bind_some]
          apply ih

def cd.start (argv : Argv) (s : Shell) : UInt32 :=
  if isAbsolutePath (argv.row 1) then ROOT_CLUSTER_NUMBER else s.currentDirectory

/--
Where `cd` goes: all components of the path if `isdir`, otherwise all but the last.
-/
def cd.outcome (argv : Argv) (isdir : Bool) (s : Shell) : Option Outcome := do
  let (path, wordCount) ← parsePath (argv.row 1)
  s.kernel.disk.follow path (cd.start argv s)
    (List.range (if isdir then wordCount else wordCount - 1))

theorem cd_apply {argc : Nat} (hargc : argc ≤ 2) (argv : Argv) (isdir : Bool) (s : Shell)
    : cd argv argc isdir s
        =
      (cd.outcome argv isdir s).map fun outcome =>
        (outcome.code, s.visit (outcome.location s.currentDirectory) outcome.reached) := by
  unfold cd cd.outcome
  rw [if_neg (by omega), Fallible.get_bind_apply, Fallible.ofOption_bind_apply]
  cases parsePath (argv.row 1) with
  | none => rfl
  | some parsed =>
    rcases parsed with ⟨path, wordCount⟩
    rw [Option.bind_some]
    dsimp only
    rw [Fallible.bind_apply, setCurrentDirectory_apply, Option.bind_some]
    rw [Fallible.bind_apply, updateDirectoryTable_apply, Option.bind_some]
    apply cd.walk_apply

end AiOS
