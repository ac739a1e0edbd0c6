import AiOS.Fat32.Residue
import AiOS.Shell.Growth
import AiOS.Shell.Stay

/-!
This module contains what `mkdir` and `rm` take from uninitialised memory, as the difference between
two runs that find different things in it.
-/

namespace AiOS

open Fallible

theorem rel_map {α β γ δ : Type} {r : α → β → Prop} {r' : γ → δ → Prop} {f : α → γ} {g : β → δ}
    {x : Option α} {y : Option β} (h : Option.Rel r x y) (hmap : ∀ a b, r a b → r' (f a) (g b))
    : Option.Rel r' (x.map f) (y.map g) := by
  cases h with
  | none => exact Option.Rel.none
  | some hab => exact Option.Rel.some (hmap _ _ hab)

namespace Shell

-- the shell with something else in its uninitialised memory
def with_stack (s : Shell) (stack : Nat → Locals) : Shell :=
  { s with stack := stack }

theorem delete_apply (request : FAT32DriverRequest) (s : Shell)
    : Shell.delete request s
        =
      ((AiOS.delete s.driver_state (s.stack 0).dirTable request).run diskDevice s.kernel.disk).map
        fun r => (r.1.1, s.pop.drive r.1.2 r.2) := by
  have htake : uninitialised s = some (s.stack 0, s.pop) := rfl
  unfold Shell.delete
  rw [get_bind_apply, bind_apply, htake, Option.bind_some, bind_apply, onDisk_apply]
  dsimp only
  rw [pop_kernel]
  cases (AiOS.delete s.driver_state (s.stack 0).dirTable request).run diskDevice s.kernel.disk with
  | none => rfl
  | some r => rfl

/--
Two ends of a command between which nobody can tell.
-/
def Alike {α : Type} (first : Nat) (r r' : α × Shell) : Prop :=
  r'.1 = r.1 ∧ r'.2.printed = r.2.printed ∧ r.2.kernel.disk.Alike first r'.2.kernel.disk

end Shell

/--
Whatever the command finds in uninitialised memory, its result, its output and what it leaves on the
disk are the same.
-/
def Independent {α : Type} (first : Nat) (p : ShellM α) (s : Shell) : Prop :=
  ∀ stack stack', Option.Rel (Shell.Alike first) (p (s.with_stack stack)) (p (s.with_stack stack'))

namespace mkdir

-- the last component of the path, as `mkdir` and `rm` take it for a name
def base (argv : Argv) : Option (Fin 8 → UInt8) := do
  let (pathList, pathCount) ← parsePath (argv.row 1)
  bytes 8 (pathList.row (pathCount - 1))

/--
The command gets as far as a request, for `name` in the directory `dir`.
-/
structure Target (argv : Argv) (s : Shell) (dir : UInt32) (name : Fin 8 → UInt8) : Prop where
  outcome : cd.outcome argv false s = some (.directory dir)
  base : base argv = some name

def holding (locals : Locals) (ext : Fin 3 → UInt8) (table : FAT32DirectoryTable) : Locals :=
  { locals with
    request := { locals.request with ext := ext }
    newDirectoryTable := table
    dirTable := table }

def leftover (b : UInt8) (cluster_low : UInt16) : FAT32DirectoryTable :=
  fun _ => { FAT32DirectoryEntry.zero with
    ext := fun _ => b
    cluster_low := cluster_low }

def filled (locals : Locals) (dir : UInt32) (name : Fin 8 → UInt8) : FAT32DriverRequest :=
  { locals.request with
    name := name
    buffer_size := 0
    parent_cluster_number := dir }

theorem filled_asks (locals : Locals) (dir : UInt32) (name : Fin 8 → UInt8)
    : (filled locals dir name).Asks dir name :=
  ⟨rfl, rfl, rfl⟩

theorem request_of_base {argv : Argv} {name : Fin 8 → UInt8} (h : base argv = some name) (s : Shell)
    : request argv s = some (filled (s.stack 0) s.currentDirectory name, s.pop) := by
  unfold base at h
  rw [Option.bind_eq_bind, Option.bind_eq_some_iff] at h
  rcases h with ⟨parsed, hparsed, hname⟩
  rw [request_apply, hparsed, Option.bind_some]
  dsimp only at hname
  rw [hname]
  rfl

theorem request_of_base_none {argv : Argv} (h : base argv = none) (s : Shell)
    : request argv s = none := by
  unfold base at h
  rw [Option.bind_eq_bind, Option.bind_eq_none_iff] at h
  rw [request_apply, Option.bind_eq_none_iff]
  intro parsed hparsed
  have hname : bytes 8 (parsed.1.row (parsed.2 - 1)) = none := h parsed hparsed
  rw [hname]
  rfl

/--
What `mkdir` and `rm` have in common: a `cd` to the directory, and the request for the last
component.
-/
def addressed {α : Type} (refusal : α) (serve : Shell → FAT32DriverRequest → ShellM α) (argv : Argv)
    (argc : Nat) : ShellM α := do
  let s ← get
  let retval ← cd argv argc false
  if retval ≠ 0 then
    return refusal
  else
    let request ← request argv
    serve s request

theorem Target.with_stack {argv : Argv} {s : Shell} {dir : UInt32} {name : Fin 8 → UInt8}
    (h : Target argv s dir name) (stack : Nat → Locals)
    : Target argv (s.with_stack stack) dir name where
  outcome := h.outcome
  base := h.base

section

variable {α : Type} (refusal : α) (serve : Shell → FAT32DriverRequest → ShellM α) {argv : Argv}
  {argc : Nat} (hargc : argc ≤ 2) {s : Shell}

include hargc

theorem addressed_of_outcome_none (h : cd.outcome argv false s = none)
    : addressed refusal serve argv argc s = none := by
  unfold addressed
  rw [get_bind_apply, bind_apply, cd_apply hargc, h]
  rfl

theorem addressed_of_refused {outcome : Outcome} (h : cd.outcome argv false s = some outcome)
    (hcode : outcome.code ≠ 0)
    : addressed refusal serve argv argc s
        =
      some (refusal, s.visit (outcome.location s.currentDirectory) outcome.reached) := by
  unfold addressed
  rw [get_bind_apply, bind_apply, cd_apply hargc, h, Option.map_some, Option.bind_some]
  dsimp only
  rw [if_pos hcode]
  rfl

theorem addressed_of_directory {dir : UInt32} (h : cd.outcome argv false s = some (.directory dir))
    : addressed refusal serve argv argc s
        =
      (request argv (s.visit dir dir)).bind fun r => serve s r.1 r.2 := by
  have hcode : ¬ (Outcome.directory dir).code ≠ 0 := by simp [Outcome.code]
  unfold addressed
  rw [get_bind_apply, bind_apply, cd_apply hargc, h, Option.map_some, Option.bind_some]
  dsimp only
  rw [if_neg hcode]
  rfl

theorem addressed_of_target {dir : UInt32} {name : Fin 8 → UInt8} (h : Target argv s dir name)
    : addressed refusal serve argv argc s
        =
      serve s (filled (s.stack 0) dir name) (s.visit dir dir).pop := by
  rw [addressed_of_directory refusal serve hargc h.outcome, request_of_base h.base]
  rfl

/--
Up to the request nothing depends on uninitialised memory.
-/
theorem addressed_independent {first : Nat}
    (h : ∀ dir name, Target argv s dir name → ∀ stack stack',
      Option.Rel (Shell.Alike first) (addressed refusal serve argv argc (s.with_stack stack))
        (addressed refusal serve argv argc (s.with_stack stack')))
    : Independent first (addressed refusal serve argv argc) s := by
  intro stack stack'
  cases houtcome : cd.outcome argv false s with
  | none =>
    have hnone : ∀ stack, cd.outcome argv false (s.with_stack stack) = none := fun _ => houtcome
    rw [addressed_of_outcome_none refusal serve hargc (hnone stack)]
    rw [addressed_of_outcome_none refusal serve hargc (hnone stack')]
    exact Option.Rel.none
  | some outcome =>
    have hsome : ∀ stack, cd.outcome argv false (s.with_stack stack) = some outcome :=
      fun _ => houtcome
    by_cases hcode : outcome.code = 0
    . rcases (Outcome.code_eq_zero_iff outcome).mp hcode with ⟨dir, rfl⟩
      cases hbase : base argv with
      | none =>
        rw [addressed_of_directory refusal serve hargc (hsome stack)]
        rw [addressed_of_directory refusal serve hargc (hsome stack')]
        rw [request_of_base_none hbase, request_of_base_none hbase]
        exact Option.Rel.none
      | some name => exact h dir name ⟨houtcome, hbase⟩ stack stack'
    . rw [addressed_of_refused refusal serve hargc (hsome stack) hcode]
      rw [addressed_of_refused refusal serve hargc (hsome stack') hcode]
      exact Option.Rel.some ⟨rfl, rfl, .refl _ _⟩

end

def serve (s : Shell) (request : FAT32DriverRequest) : ShellM Int := do
  let retval ← Shell.write (fun _ => 0) request
  setCurrentDirectory s.currentDirectory
  return retval

theorem eq_addressed (argv : Argv) : mkdir argv 2 = addressed (-2) serve argv 2 := by
  unfold mkdir
  rw [if_neg (by decide), if_neg (by decide)]
  rfl

theorem run_of_target {argv : Argv} {s : Shell} {dir : UInt32} {name : Fin 8 → UInt8}
    (h : Target argv s dir name) (stack : Nat → Locals)
    : mkdir argv 2 (s.with_stack stack)
        =
      ((write s.driver_state (fun _ => 0) (stack 1).newDirectoryTable
        (filled (stack 0) dir name)).run diskDevice s.kernel.disk).map fun r =>
          (r.1.1, { ((s.with_stack stack).visit dir dir).pop.pop.drive r.1.2 r.2 with
            currentDirectory := s.currentDirectory }) := by
  rw [eq_addressed, addressed_of_target _ _ (Nat.le_refl 2) (h.with_stack stack)]
  unfold serve
  rw [bind_apply, Shell.write_apply, Option.bind_map, Option.map_eq_bind]
  apply congrArg (Option.bind _)
  funext r
  rfl

theorem independent_of_refused {argv : Argv} {argc : Nat} (h : argc ≠ 2) (first : Nat) (s : Shell)
    : Independent first (mkdir argv argc) s := by
  intro stack stack'
  unfold mkdir
  by_cases hmany : argc > 2
  . rw [if_pos hmany]
    exact Option.Rel.some ⟨rfl, rfl, .refl _ _⟩
  . rw [if_neg hmany, if_pos (by omega)]
    exact Option.Rel.some ⟨rfl, rfl, .refl _ _⟩

section

variable {argv : Argv} {s : Shell} {dir : UInt32} {name : Fin 8 → UInt8} {first : Nat}

theorem independent_of_targets
    (h : ∀ dir name, Target argv s dir name →
      write.parent_ok (s.kernel.disk.table (clusterIndex dir)) →
        ¬ s.kernel.disk.Homonym 2 dir name ∧
          (2 ≤ first ∨ ∀ c, s.kernel.disk.Offers dir c → c.val = clusterIndex dir))
    : Independent first (mkdir argv 2) s := by
  have haddressed : Independent first (addressed (-2) serve argv 2) s := by
    apply addressed_independent _ _ (Nat.le_refl 2)
    intro dir name htarget stack stack'
    rw [← eq_addressed, run_of_target htarget, run_of_target htarget]
    have hasks := filled_asks (stack 0) dir name
    apply rel_map (hasks.write_alike _ _ _ _ _ (filled_asks _ _ _) (h dir name htarget))
    intro r r' hr
    exact ⟨hr.1, rfl, hr.2⟩
  rw [eq_addressed]
  exact haddressed

variable (htarget : Target argv s dir name)

include htarget

theorem eq_of_independent (h : Independent first (mkdir argv 2) s) (stack stack' : Nat → Locals)
    {r r' : (Int × FAT32DriverState) × Disk}
    (hrun : (write s.driver_state (fun _ => 0) (stack 1).newDirectoryTable
      (filled (stack 0) dir name)).run diskDevice s.kernel.disk = some r)
    (hrun' : (write s.driver_state (fun _ => 0) (stack' 1).newDirectoryTable
      (filled (stack' 0) dir name)).run diskDevice s.kernel.disk = some r')
    : r'.1.1 = r.1.1 ∧ r.2.Alike first r'.2 := by
  have hrel := h stack stack'
  rw [run_of_target htarget, run_of_target htarget, hrun, hrun', Option.map_some, Option.map_some,
    Option.rel_some_some] at hrel
  exact ⟨hrel.1, hrel.2.2⟩

variable (hparent : write.parent_ok (s.kernel.disk.table (clusterIndex dir)))

include hparent

theorem not_independent_of_homonym (h : s.kernel.disk.Homonym 2 dir name)
    : ¬ Independent first (mkdir argv 2) s := by
  intro hindependent
  rcases h with ⟨i, hi, hlive, hname⟩
  rcases (s.kernel.disk.table (clusterIndex dir)).exists_fresh_ext with ⟨ext, hext⟩
  let locals := holding (s.stack 0) (s.kernel.disk.table (clusterIndex dir) i).ext (leftover 0 0)
  let locals' := holding (s.stack 0) ext (leftover 0 0)
  rcases (filled_asks locals dir name).write_of_named s.driver_state (fun _ => 0)
    locals.newDirectoryTable hparent hi hlive hname rfl with ⟨st, hrun⟩
  rcases (filled_asks locals' dir name).write_of_fresh_ext s.driver_state (fun _ => 0)
    locals'.newDirectoryTable hparent hext with ⟨code, st', d', hcode, hrun'⟩
  have heq := eq_of_independent htarget hindependent (fun _ => locals) (fun _ => locals') hrun hrun'
  exact hcode heq.1

theorem not_independent_of_offers (hnames : ¬ s.kernel.disk.Homonym 2 dir name) {c : Fin 512}
    (hc : s.kernel.disk.Offers dir c) (hne : c.val ≠ clusterIndex dir) (hfirst : first < 2)
    : ¬ Independent first (mkdir argv 2) s := by
  intro hindependent
  let locals := holding (s.stack 0) (fun _ => 0) (leftover 0 0)
  let locals' := holding (s.stack 0) (fun _ => 0) (leftover 1 0)
  rcases (filled_asks locals dir name).write_of_offers s.driver_state (fun _ => 0)
    locals.newDirectoryTable hparent hnames hc hne with ⟨st, d, hrun, htable⟩
  rcases (filled_asks locals' dir name).write_of_offers s.driver_state (fun _ => 0)
    locals'.newDirectoryTable hparent hnames hc hne with ⟨st', d', hrun', htable'⟩
  have heq := eq_of_independent htarget hindependent (fun _ => locals) (fun _ => locals') hrun hrun'
  have hlive : (d.table c 1).user_attribute = UATTR_NOT_EMPTY := by
    rw [htable]
    rfl
  have hrecord := heq.2.record c 1 (by change first ≤ 1; omega) hlive
  have hext : (d'.table c 1).ext = (d.table c 1).ext := congrArg (fun r => r.2.1) hrecord
  rw [htable, htable'] at hext
  have hbyte : (1 : UInt8) = 0 := congrFun hext 0
  exact absurd hbyte (by decide)

end
end mkdir

namespace rm

def message (retval : Int) : List (List UInt8 × UInt32) :=
  if retval = 1 then
    [(ascii "Error: file/directory does not exists\n", 0xF)]
  else if retval = 2 then
    [(ascii "Error: folder tidak kosong\n", 0xF)]
  else if retval = -1 then
    [(ascii "Error: root tidak dapat dihapus\n", 0xF)]
  else
    []

theorem report_apply (retval : Int) (s : Shell)
    : report retval s = some ((), { s with printed := s.printed ++ message retval }) := by
  unfold report message
  split
  . rfl
  . split
    . rfl
    . split
      . rfl
      . rw [List.append_nil]
        rfl

def serve (s : Shell) (request : FAT32DriverRequest) : ShellM Unit := do
  let retval ← Shell.delete request
  report retval
  setCurrentDirectory s.currentDirectory

theorem eq_addressed (argv : Argv) {argc : Nat} (hargc : argc ≤ 2)
    : rm argv argc = mkdir.addressed () serve argv argc := by
  unfold rm
  rw [if_neg (by omega)]
  rfl

theorem run_of_target {argv : Argv} {argc : Nat} (hargc : argc ≤ 2) {s : Shell} {dir : UInt32}
    {name : Fin 8 → UInt8} (h : mkdir.Target argv s dir name) (stack : Nat → Locals)
    : rm argv argc (s.with_stack stack)
        =
      ((delete s.driver_state (stack 1).dirTable (mkdir.filled (stack 0) dir name)).run diskDevice
        s.kernel.disk).map fun r =>
          ((), { ((s.with_stack stack).visit dir dir).pop.pop.drive r.1.2 r.2 with
            printed := s.printed ++ message r.1.1
            currentDirectory := s.currentDirectory }) := by
  rw [eq_addressed argv hargc, mkdir.addressed_of_target _ _ hargc (h.with_stack stack)]
  unfold serve
  rw [bind_apply, Shell.delete_apply, Option.bind_map, Option.map_eq_bind]
  apply congrArg (Option.bind _)
  funext r
  rw [Function.comp_apply, bind_apply, report_apply]
  rfl

section

variable {argv : Argv} {argc : Nat} (hargc : argc ≤ 2) {s : Shell} {first : Nat}

theorem independent_of_refused (h : ¬ argc ≤ 2) (first : Nat) (s : Shell)
    : Independent first (rm argv argc) s := by
  intro stack stack'
  unfold rm
  rw [if_pos (by omega)]
  exact Option.Rel.some ⟨rfl, rfl, .refl _ _⟩

include hargc

theorem independent_of_targets
    (h : ∀ dir name, mkdir.Target argv s dir name → ¬ s.kernel.disk.Homonym 1 dir name)
    : Independent first (rm argv argc) s := by
  have haddressed : Independent first (mkdir.addressed () serve argv argc) s := by
    apply mkdir.addressed_independent _ _ hargc
    intro dir name htarget stack stack'
    rw [← eq_addressed argv hargc, run_of_target hargc htarget, run_of_target hargc htarget]
    have hnames := h dir name htarget
    rcases (mkdir.filled_asks (stack 0) dir name).delete_of_not_homonym s.driver_state
      (stack 1).dirTable hnames with ⟨st, hrun⟩
    rcases (mkdir.filled_asks (stack' 0) dir name).delete_of_not_homonym s.driver_state
      (stack' 1).dirTable hnames with ⟨st', hrun'⟩
    rw [hrun, hrun']
    exact Option.Rel.some ⟨rfl, rfl, .refl _ _⟩
  rw [eq_addressed argv hargc]
  exact haddressed

/--
Once the request has an extension that no entry has and the table to check seems to be the root's,
once the extension is that of the entry and the table is another one: only the first run reports an
error other than a directory that is not empty.
-/
theorem not_independent_of_homonym {dir : UInt32} {name : Fin 8 → UInt8}
    (htarget : mkdir.Target argv s dir name) (h : s.kernel.disk.Homonym 1 dir name)
    : ¬ Independent first (rm argv argc) s := by
  intro hindependent
  rcases h with ⟨i, hi, hlive, hname⟩
  rcases (s.kernel.disk.table (clusterIndex dir)).exists_fresh_ext with ⟨ext, hext⟩
  let locals := mkdir.holding (s.stack 0) ext (mkdir.leftover 0 2)
  let locals' := mkdir.holding (s.stack 0) (s.kernel.disk.table (clusterIndex dir) i).ext
    (mkdir.leftover 0 0)
  have hroot : delete.checked_cluster (mkdir.leftover 0 2) 0 = ROOT_CLUSTER_NUMBER := by decide
  have hother : delete.checked_cluster (mkdir.leftover 0 0) 0 ≠ ROOT_CLUSTER_NUMBER := by decide
  rcases (mkdir.filled_asks locals dir name).delete_of_fresh_ext s.driver_state locals.dirTable hext
    (fun _ => hroot) with ⟨code, st, hcode, hrun⟩
  have hrel := hindependent (fun _ => locals) (fun _ => locals')
  rw [run_of_target hargc htarget, run_of_target hargc htarget, hrun, Option.map_some] at hrel
  cases hrun' : (delete s.driver_state locals'.dirTable (mkdir.filled locals' dir name)).run
      diskDevice s.kernel.disk with
  | none =>
    rw [hrun'] at hrel
    contradiction
  | some r =>
    have hcode' := (mkdir.filled_asks locals' dir name).delete_of_found s.driver_state
      locals'.dirTable hi hlive hname rfl (fun _ => hother) hrun'
    rw [hrun', Option.map_some, Option.rel_some_some] at hrel
    have hmessage : message r.1.1 = message code := List.append_cancel_left hrel.2.1
    rcases hcode with rfl | rfl
    . rcases hcode' with hcode' | hcode'
      . rw [hcode'] at hmessage
        exact absurd hmessage (by decide)
      . rw [hcode'] at hmessage
        exact absurd hmessage (by decide)
    . rcases hcode' with hcode' | hcode'
      . rw [hcode'] at hmessage
        exact absurd hmessage (by decide)
      . rw [hcode'] at hmessage
        exact absurd hmessage (by decide)

end
end rm

/--
What `mkdir` and `rm` find in uninitialised memory shows exactly where the directory of the path has
a live entry of the last component's name. With the entries 0 and 1 of the new directory counted
(`first < 2`), it shows also wherever `mkdir` makes a directory.
-/
theorem independent_iff (first : Nat) (argv : Argv) (argc : Nat) (s : Shell)
    : (Independent first (mkdir argv argc) s
          ↔
        (argc = 2 → ∀ dir name, mkdir.Target argv s dir name →
          write.parent_ok (s.kernel.disk.table (clusterIndex dir)) →
            ¬ s.kernel.disk.Homonym 2 dir name ∧
              (2 ≤ first ∨ ∀ c, s.kernel.disk.Offers dir c → c.val = clusterIndex dir)))
        ∧
      (Independent first (rm argv argc) s
          ↔
        (argc ≤ 2 → ∀ dir name, mkdir.Target argv s dir name →
          ¬ s.kernel.disk.Homonym 1 dir name)) := by
  constructor
  . by_cases hargc : argc = 2
    . subst hargc
      constructor
      . intro h _ dir name htarget hparent
        have hnames : ¬ s.kernel.disk.Homonym 2 dir name := by
          intro hhomonym
          exact mkdir.not_independent_of_homonym htarget hparent hhomonym h
        refine ⟨hnames, ?_⟩
        by_cases hfirst : 2 ≤ first
        . exact Or.inl hfirst
        . right
          intro c hc
          by_contra hne
          exact mkdir.not_independent_of_offers htarget hparent hnames hc hne (by omega) h
      . intro h
        exact mkdir.independent_of_targets (h rfl)
    . exact iff_of_true (mkdir.independent_of_refused hargc _ _) fun heq => absurd heq hargc
  . by_cases hargc : argc ≤ 2
    . constructor
      . intro h _ dir name htarget hhomonym
        exact rm.not_independent_of_homonym hargc htarget hhomonym h
      . intro h
        exact rm.independent_of_targets hargc (h hargc)
    . exact iff_of_true (rm.independent_of_refused hargc _ _) fun hle => absurd hle hargc

namespace again

-- `mkdir /docs` and `rm /docs` where there is a directory `docs` in the root
def argv (command : String) : Argv :=
  fun k => if k.val < 100 then (ascii command).getD k 0 else (ascii "/docs").getD (k.val - 100) 0

theorem target_mkdir : mkdir.Target (argv "mkdir") stray.shell 2 stray.request.name := by
  constructor
  . decide +kernel
  . decide +kernel

theorem target_rm : mkdir.Target (argv "rm") stray.shell 2 stray.request.name := by
  constructor
  . decide +kernel
  . decide +kernel

theorem parent_ok : write.parent_ok (stray.shell.kernel.disk.table (clusterIndex 2)) := by
  decide

theorem homonym : stray.shell.kernel.disk.Homonym 2 2 stray.request.name := by
  refine ⟨2, Nat.le_refl 2, ?_, ?_⟩
  . decide
  . decide

theorem homonym_one : stray.shell.kernel.disk.Homonym 1 2 stray.request.name := by
  rcases homonym with ⟨i, hi, hentry⟩
  exact ⟨i, by omega, hentry⟩

end again

theorem not_independent
    : ∃ st, driver.Reachable (fun _ _ => True) (st, stray.shell.kernel.disk) ∧
        stray.shell.kernel.disk.Directory stray.shell.currentDirectory.toNat ∧
        lineParser (ascii "mkdir /docs\n") = some (again.argv "mkdir", 2) ∧
        ¬ Independent 2 (mkdir (again.argv "mkdir") 2) stray.shell ∧
        lineParser (ascii "rm /docs\n") = some (again.argv "rm", 2) ∧
        ¬ Independent 2 (rm (again.argv "rm") 2) stray.shell := by
  refine ⟨_, stray.reachable, stray.directory, by decide +kernel, ?_, by decide +kernel, ?_⟩
  . exact mkdir.not_independent_of_homonym again.target_mkdir again.parent_ok again.homonym
  . exact rm.not_independent_of_homonym (Nat.le_refl 2) again.target_rm again.homonym_one

end AiOS
