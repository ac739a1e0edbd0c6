import AiOS.Lib.Walk
import AiOS.Process.Boot
import AiOS.Shell.Lemmas.Cd
import AiOS.Shell.Lemmas.Path
import AiOS.Shell.Stay

/-!
This module contains when `cd` goes where the directory tree says.
-/

namespace AiOS

/--
Why a path does not lead to a directory.
-/
inductive Stop where
  | file
  | nothing
  deriving DecidableEq

def FAT32DirectoryEntry.target (entry : FAT32DirectoryEntry) : UInt32 ⊕ Stop :=
  if entry.attribute = ATTR_SUBDIRECTORY then
    .inl entry.cluster_number
  else
    .inr .file

namespace FAT32DirectoryEntry

theorem target_eq_inl_iff (entry : FAT32DirectoryEntry) (m : UInt32)
    : entry.target = .inl m
        ↔
      entry.attribute = ATTR_SUBDIRECTORY ∧ entry.cluster_number = m := by
  unfold target
  split
  . next hdir =>
    rw [Sum.inl.injEq]
    simp [hdir]
  . next hfile => simp [hfile]

theorem toNat_cluster_number (entry : FAT32DirectoryEntry)
    : entry.cluster_number.toNat = entry.cluster := by
  have hlow := entry.cluster_low.toNat_lt
  have hadd := toNat_cluster_add entry
  have h16 : (16 : UInt32).toNat % 32 = 16 := rfl
  unfold cluster_number
  rw [UInt32.toNat_or, UInt32.toNat_shiftLeft, UInt16.toNat_toUInt32, UInt16.toNat_toUInt32, h16]
  have hhigh : entry.cluster_high.toNat <<< 16 % 2 ^ 32 = entry.cluster_high.toNat <<< 16 := by
    have := entry.cluster_high.toNat_lt
    rw [Nat.shiftLeft_eq]
    omega
  rw [hhigh, ← Nat.shiftLeft_add_eq_or_of_lt hlow, Nat.shiftLeft_eq]
  rfl

theorem target_ne_nothing (entry : FAT32DirectoryEntry) : entry.target ≠ .inr .nothing := by
  unfold target
  split
  . simp
  . simp

end FAT32DirectoryEntry

def Outcome.target : Outcome → UInt32 ⊕ Stop
  | .directory dir => .inl dir
  | .file _ => .inr .file
  | .nothing _ => .inr .nothing

def dotdot : Fin 8 → UInt8 :=
  entry_name [0x2E, 0x2E]

theorem findDirEntryIndex_eq_none_iff {table : FAT32DirectoryTable} {name : Fin 8 → UInt8}
    : findDirEntryIndex table name = none
        ↔
      ∀ i, (table i).user_attribute = UATTR_NOT_EMPTY → (table i).name ≠ name := by
  unfold findDirEntryIndex
  rw [List.find?_eq_none]
  constructor
  . intro h i hlive hname
    apply h i (List.mem_finRange i)
    simp [hlive, hname]
  . intro h i _ hfound
    simp only [memcmp_eq_zero_iff, decide_eq_true_eq] at hfound
    exact h i hfound.2 hfound.1

namespace Disk

structure Lists (d : Disk) (dir : UInt32) (i : Fin 64) : Prop where
  slot : 2 ≤ i.val
  live : (d.table (clusterIndex dir) i).user_attribute = UATTR_NOT_EMPTY

inductive Tree (d : Disk) : UInt32 → Prop where
  | root : Tree d ROOT_CLUSTER_NUMBER
  | child {dir : UInt32} {i : Fin 64} : Tree d dir → d.Lists dir i →
      (d.table (clusterIndex dir) i).attribute = ATTR_SUBDIRECTORY →
      Tree d (d.table (clusterIndex dir) i).cluster_number

-- the root is its own parent
inductive Parent (d : Disk) : UInt32 → UInt32 → Prop where
  | root : Parent d ROOT_CLUSTER_NUMBER ROOT_CLUSTER_NUMBER
  | child {dir : UInt32} {i : Fin 64} : Tree d dir → d.Lists dir i →
      (d.table (clusterIndex dir) i).attribute = ATTR_SUBDIRECTORY →
      Parent d dir (d.table (clusterIndex dir) i).cluster_number

/--
Where a component leads in the tree: `..` to the parent, any other to the children of that name.
-/
inductive Step (d : Disk) (dir : UInt32) (name : Fin 8 → UInt8) : UInt32 ⊕ Stop → Prop where
  | parent {p : UInt32} : name = dotdot → d.Parent p dir → Step d dir name (.inl p)
  | child {i : Fin 64} : name ≠ dotdot → d.Lists dir i →
      (d.table (clusterIndex dir) i).name = name →
      Step d dir name (d.table (clusterIndex dir) i).target
  | nothing : name ≠ dotdot →
      (∀ i, d.Lists dir i → (d.table (clusterIndex dir) i).name ≠ name) →
      Step d dir name (.inr .nothing)

def look (d : Disk) (dir : UInt32) (name : Fin 8 → UInt8) : UInt32 ⊕ Stop :=
  (d.lookup dir name).target

/--
The first live entry of the name leads to the only parent, for `..`, and otherwise where all the
children of that name lead. There is no such entry, or such a child.
-/
def Clear (d : Disk) (dir : UInt32) (name : Fin 8 → UInt8) : Prop :=
  let table := d.table (clusterIndex dir)
  if name = dotdot then
    ∃ i, findDirEntryIndex table name = some i ∧ (table i).attribute = ATTR_SUBDIRECTORY ∧
      ∀ p, d.Parent p dir ↔ p = (table i).cluster_number
  else
    ∀ i, findDirEntryIndex table name = some i →
      (∃ j, d.Lists dir j ∧ (table j).name = name) ∧
        ∀ j, d.Lists dir j → (table j).name = name → (table j).target = (table i).target

section

variable {d : Disk} {dir : UInt32} {name : Fin 8 → UInt8} {i : Fin 64}

theorem look_of_none (h : findDirEntryIndex (d.table (clusterIndex dir)) name = none)
    : d.look dir name = .inr .nothing := by
  unfold look lookup
  dsimp only
  rw [h]
  rfl

theorem look_of_some (h : findDirEntryIndex (d.table (clusterIndex dir)) name = some i)
    : d.look dir name = (d.table (clusterIndex dir) i).target := by
  unfold look lookup FAT32DirectoryEntry.target
  dsimp only
  rw [h]
  dsimp only
  split
  . rfl
  . next hdir =>
    rw [if_pos (not_not.mp hdir)]
    rfl

theorem look_eq_inl_iff {m : UInt32}
    : d.look dir name = .inl m
        ↔
      ∃ i, findDirEntryIndex (d.table (clusterIndex dir)) name = some i ∧
        (d.table (clusterIndex dir) i).attribute = ATTR_SUBDIRECTORY ∧
        (d.table (clusterIndex dir) i).cluster_number = m := by
  cases hfind : findDirEntryIndex (d.table (clusterIndex dir)) name with
  | none =>
    rw [look_of_none hfind]
    simp
  | some i =>
    rw [look_of_some hfind, FAT32DirectoryEntry.target_eq_inl_iff]
    simp

theorem agrees_dotdot
    : Walk.Agrees d.Step d.look dir dotdot
        ↔
      ∃ i, findDirEntryIndex (d.table (clusterIndex dir)) dotdot = some i ∧
        (d.table (clusterIndex dir) i).attribute = ATTR_SUBDIRECTORY ∧
        ∀ p, d.Parent p dir ↔ p = (d.table (clusterIndex dir) i).cluster_number := by
  have hstep : ∀ r, d.Step dir dotdot r ↔ ∃ p, d.Parent p dir ∧ r = .inl p := by
    intro r
    constructor
    . intro h
      cases h with
      | parent _ hp => exact ⟨_, hp, rfl⟩
      | child hne => contradiction
      | nothing hne => contradiction
    . intro ⟨p, hp, hr⟩
      rw [hr]
      exact Step.parent rfl hp
  unfold Walk.Agrees
  simp only [hstep]
  constructor
  . intro h
    rcases (h _).mpr rfl with ⟨p, hp, hlook⟩
    rw [look_eq_inl_iff] at hlook
    rcases hlook with ⟨i, hfind, hdir, hcluster⟩
    refine ⟨i, hfind, hdir, ?_⟩
    intro p'
    have hp' := h (.inl p')
    rw [look_of_some hfind, eq_comm, FAT32DirectoryEntry.target_eq_inl_iff] at hp'
    rw [and_iff_right hdir, eq_comm] at hp'
    rw [← hp']
    simp
  . intro ⟨i, hfind, hdir, hparent⟩ r
    have hlook : d.look dir dotdot = .inl (d.table (clusterIndex dir) i).cluster_number :=
      look_eq_inl_iff.mpr ⟨i, hfind, hdir, rfl⟩
    rw [hlook]
    simp [hparent]

theorem agrees_child (hname : name ≠ dotdot)
    : Walk.Agrees d.Step d.look dir name
        ↔
      ∀ i, findDirEntryIndex (d.table (clusterIndex dir)) name = some i →
        (∃ j, d.Lists dir j ∧ (d.table (clusterIndex dir) j).name = name) ∧
          ∀ j, d.Lists dir j → (d.table (clusterIndex dir) j).name = name →
            (d.table (clusterIndex dir) j).target = (d.table (clusterIndex dir) i).target := by
  constructor
  . intro h i hfind
    unfold Walk.Agrees at h
    rw [look_of_some hfind] at h
    constructor
    . have hself := (h _).mpr rfl
      generalize htarget : (d.table (clusterIndex dir) i).target = r at hself
      cases hself with
      | parent heq => contradiction
      | child _ hlists hchild => exact ⟨_, hlists, hchild⟩
      | nothing => exact absurd htarget (FAT32DirectoryEntry.target_ne_nothing _)
    . intro j hlists hchild
      apply (h _).mp
      exact Step.child hname hlists hchild
  . intro h r
    cases hfind : findDirEntryIndex (d.table (clusterIndex dir)) name with
    | none =>
      have hnone := findDirEntryIndex_eq_none_iff.mp hfind
      rw [look_of_none hfind]
      constructor
      . intro hstep
        cases hstep with
        | parent heq => contradiction
        | child _ hlists hchild => exact absurd hchild (hnone _ hlists.live)
        | nothing => rfl
      . intro hr
        rw [hr]
        apply Step.nothing hname
        intro i hlists
        exact hnone i hlists.live
    | some i =>
      rcases h i hfind with ⟨⟨j, hlists, hchild⟩, hall⟩
      rw [look_of_some hfind]
      constructor
      . intro hstep
        cases hstep with
        | parent heq => contradiction
        | child _ hlists' hchild' => exact hall _ hlists' hchild'
        | nothing _ hnone => exact absurd hchild (hnone j hlists)
      . intro hr
        rw [hr, ← hall j hlists hchild]
        exact Step.child hname hlists hchild

theorem agrees_iff : Walk.Agrees d.Step d.look dir name ↔ d.Clear dir name := by
  unfold Clear
  dsimp only
  split
  . next heq =>
    rw [heq]
    apply agrees_dotdot
  . next hname => apply agrees_child hname

theorem exists_step (hdir : d.Tree dir) (name : Fin 8 → UInt8) : ∃ r, d.Step dir name r := by
  by_cases hname : name = dotdot
  . have hparent : ∃ p, d.Parent p dir := by
      cases hdir with
      | root => exact ⟨_, Parent.root⟩
      | child hp hlists hsub => exact ⟨_, Parent.child hp hlists hsub⟩
    rcases hparent with ⟨p, hp⟩
    exact ⟨_, Step.parent hname hp⟩
  . by_cases hchild : ∃ i, d.Lists dir i ∧ (d.table (clusterIndex dir) i).name = name
    . rcases hchild with ⟨i, hlists, hi⟩
      exact ⟨_, Step.child hname hlists hi⟩
    . refine ⟨_, Step.nothing hname ?_⟩
      intro i hlists hi
      exact hchild ⟨i, hlists, hi⟩

theorem tree_of_step {m : UInt32} (hdir : d.Tree dir) (h : d.Step dir name (.inl m)) : d.Tree m := by
  generalize htarget : (Sum.inl m : UInt32 ⊕ Stop) = r at h
  cases h with
  | parent _ hp =>
    rw [Sum.inl.injEq] at htarget
    rw [htarget]
    cases hp with
    | root => exact Tree.root
    | child hp => exact hp
  | @child i _ hlists _ =>
    rw [eq_comm, FAT32DirectoryEntry.target_eq_inl_iff] at htarget
    rw [← htarget.2]
    exact Tree.child hdir hlists htarget.1
  | nothing => contradiction

theorem tree_iff (hwf : d.WellFormed) : d.Tree dir ↔ d.Directory dir.toNat := by
  constructor
  . intro h
    induction h with
    | root => exact Catalog.Directory.root
    | @child dir i _ hlists hsub ih =>
      have hbounds := hwf.directory_bounds ih
      rw [clusterIndex_of_lt (by omega)] at hsub ⊢
      have hlive := hlists.live
      rw [clusterIndex_of_lt (by omega)] at hlive
      rw [FAT32DirectoryEntry.toNat_cluster_number]
      exact Catalog.Directory.child ih hlists.slot hlive hsub
  . intro h
    generalize hp : dir.toNat = p at h
    induction h generalizing dir with
    | root =>
      have hroot : dir = ROOT_CLUSTER_NUMBER := UInt32.toNat_inj.mp hp
      rw [hroot]
      exact Tree.root
    | @child p i hdir hi hlive hsub ih =>
      have hbounds := hwf.directory_bounds hdir
      have hofNat : (UInt32.ofNat p).toNat = p := by
        rw [UInt32.toNat_ofNat']
        omega
      have hindex : clusterIndex (UInt32.ofNat p) = p := by
        rw [clusterIndex_of_lt (by omega), hofNat]
      have hchild : d.Tree (d.table (clusterIndex (UInt32.ofNat p)) i).cluster_number := by
        apply Tree.child (ih hofNat)
        . exact ⟨hi, by rw [hindex]; exact hlive⟩
        . rw [hindex]
          exact hsub
      have heq : dir = (d.table (clusterIndex (UInt32.ofNat p)) i).cluster_number := by
        apply UInt32.toNat_inj.mp
        rw [hp, hindex, FAT32DirectoryEntry.toNat_cluster_number]
        rfl
      rw [heq]
      exact hchild

theorem exists_walk (hdir : d.Tree dir) (names : List (Fin 8 → UInt8))
    : ∃ r, Walk d.Step dir names r := by
  apply Walk.exists_of_total _ _ hdir
  . intro n l hn
    apply exists_step hn
  . intro n l m hn hstep
    apply tree_of_step hn hstep

theorem follow_eq (d : Disk) (path : PathList) (dir : UInt32) (indices : List Nat)
    (names : List (Fin 8 → UInt8))
    (h : indices.map (fun index => bytes 8 (path.row index)) = names.map some)
    : ∃ outcome, d.follow path dir indices = some outcome ∧
        outcome.target = Walk.follow d.look dir names := by
  induction indices generalizing dir names with
  | nil =>
    cases names with
    | nil => exact ⟨_, rfl, rfl⟩
    | cons name names => contradiction
  | cons index indices ih =>
    cases names with
    | nil => contradiction
    | cons name names =>
      rw [List.map_cons, List.map_cons, List.cons.injEq] at h
      have hlook : d.look dir name = (d.lookup dir name).target := rfl
      unfold follow
      rw [h.1, Option.bind_eq_bind, Option.bind_some]
      cases houtcome : d.lookup dir name with
      | directory dir' =>
        rw [houtcome] at hlook
        rw [Walk.follow_of_next hlook]
        apply ih dir' names h.2
      | file dir' =>
        rw [houtcome] at hlook
        rw [Walk.follow_of_stop hlook]
        exact ⟨_, rfl, rfl⟩
      | nothing dir' =>
        rw [houtcome] at hlook
        rw [Walk.follow_of_stop hlook]
        exact ⟨_, rfl, rfl⟩

end
end Disk

namespace Outcome

variable {outcome : Outcome} {startDir dir : UInt32}

theorem directory_iff
    : outcome.code = 0 ∧ outcome.location startDir = dir ↔ outcome.target = .inl dir := by
  cases outcome with
  | directory dir' =>
    have hcode : (Outcome.directory dir').code = 0 := rfl
    rw [and_iff_right hcode]
    unfold location target
    simp
  | file dir' => simp [code, target]
  | nothing dir' => simp [code, target]

theorem file_iff
    : outcome.code = 3 ∧ outcome.location startDir = startDir ↔ outcome.target = .inr .file := by
  cases outcome with
  | directory dir' => simp [code, target]
  | file dir' => simp [code, target, location]
  | nothing dir' => simp [code, target]

theorem nothing_iff
    : outcome.code = 2 ∧ outcome.location startDir = startDir ↔ outcome.target = .inr .nothing := by
  cases outcome with
  | directory dir' => simp [code, target]
  | file dir' => simp [code, target]
  | nothing dir' => simp [code, target, location]

end Outcome

namespace cd

def origin (absolute : Bool) (s : Shell) : UInt32 :=
  if absolute then ROOT_CLUSTER_NUMBER else s.currentDirectory

/--
`cd` returns 0 and goes to `dir` exactly where the path ends in `dir`. It returns 3 where the path
names a file and 2 where it names nothing, and stays.
-/
def Conforms (absolute : Bool) (words : List (List UInt8)) (s : Shell)
    (Ends : UInt32 ⊕ Stop → Prop) : Prop :=
  ∀ argv : Argv, argv.Holds (spell absolute words) →
    ∃ code s', cd argv 2 true s = some (code, s') ∧
      (∀ dir, code = 0 ∧ s'.currentDirectory = dir ↔ Ends (.inl dir)) ∧
      (Ends (.inr .file) → code = 3 ∧ s'.currentDirectory = s.currentDirectory) ∧
      (Ends (.inr .nothing) → code = 2 ∧ s'.currentDirectory = s.currentDirectory)

section

variable {absolute : Bool} {words : List (List UInt8)} (h : Spellable absolute words)

include h

theorem outcome_spell {argv : Argv} (hargv : argv.Holds (spell absolute words)) (isdir : Bool)
    (s : Shell)
    : ∃ outcome, cd.outcome argv isdir s = some outcome ∧
        outcome.target
            =
          Walk.follow s.kernel.disk.look (origin absolute s)
            ((if isdir then words else words.dropLast).map entry_name) := by
  rcases hargv with ⟨rest, hrow⟩
  have hstart : cd.start argv s = origin absolute s := by
    unfold cd.start origin
    rw [hrow, h.isAbsolutePath_spell]
  unfold cd.outcome
  rw [hrow, h.parsePath_spell, Option.bind_eq_bind, Option.bind_some]
  dsimp only
  rw [hstart]
  apply Disk.follow_eq
  cases isdir with
  | true =>
    rw [if_pos rfl, if_pos rfl]
    apply List.ext_getElem
    . simp
    . intro i hi hi'
      rw [List.length_map, List.length_map] at hi'
      rw [List.getElem_map, List.getElem_map, List.getElem_map, List.getElem_range]
      apply h.bytes_row hi'
  | false =>
    rw [if_neg (by decide), if_neg (by decide)]
    apply List.ext_getElem
    . simp
    . intro i hi hi'
      rw [List.length_map, List.length_range] at hi
      rw [List.getElem_map, List.getElem_map, List.getElem_map, List.getElem_range,
        List.getElem_dropLast]
      apply h.bytes_row (by omega)

theorem run_spell {argv : Argv} (hargv : argv.Holds (spell absolute words)) (isdir : Bool)
    (s : Shell)
    : ∃ outcome : Outcome,
        cd argv 2 isdir s
            = some (outcome.code, s.visit (outcome.location s.currentDirectory) outcome.reached) ∧
          outcome.target
              =
            Walk.follow s.kernel.disk.look (origin absolute s)
              ((if isdir then words else words.dropLast).map entry_name) := by
  rcases outcome_spell h hargv isdir s with ⟨outcome, houtcome, htarget⟩
  refine ⟨outcome, ?_, htarget⟩
  rw [cd_apply (Nat.le_refl 2), houtcome]
  rfl

theorem run_of_inl {argv : Argv} (hargv : argv.Holds (spell absolute words)) {isdir : Bool}
    {s : Shell} {dir : UInt32}
    (hdir : Walk.follow s.kernel.disk.look (origin absolute s)
      ((if isdir then words else words.dropLast).map entry_name) = .inl dir)
    : cd argv 2 isdir s = some (0, s.visit dir dir) := by
  rcases run_spell h hargv isdir s with ⟨outcome, hrun, htarget⟩
  rw [hdir] at htarget
  rw [hrun]
  cases outcome with
  | directory dir' =>
    rw [Outcome.target, Sum.inl.injEq] at htarget
    rw [htarget]
    rfl
  | file dir' => contradiction
  | nothing dir' => contradiction

theorem run_of_inr {argv : Argv} (hargv : argv.Holds (spell absolute words)) {isdir : Bool}
    {s : Shell} {stop : Stop}
    (hstop : Walk.follow s.kernel.disk.look (origin absolute s)
      ((if isdir then words else words.dropLast).map entry_name) = .inr stop)
    : ∃ loaded, cd argv 2 isdir s
        = some (if stop = .file then 3 else 2, s.visit s.currentDirectory loaded) := by
  rcases run_spell h hargv isdir s with ⟨outcome, hrun, htarget⟩
  rw [hstop] at htarget
  rw [hrun]
  cases outcome with
  | directory dir => contradiction
  | file dir =>
    rw [Outcome.target, Sum.inr.injEq] at htarget
    rw [← htarget]
    exact ⟨dir, rfl⟩
  | nothing dir =>
    rw [Outcome.target, Sum.inr.injEq] at htarget
    rw [← htarget]
    exact ⟨dir, rfl⟩

theorem conforms_iff {s : Shell} {Ends : UInt32 ⊕ Stop → Prop} (htotal : ∃ r, Ends r)
    : Conforms absolute words s Ends
        ↔
      ∀ r, Ends r
          ↔
        r = Walk.follow s.kernel.disk.look (origin absolute s) (words.map entry_name) := by
  constructor
  . intro hconforms
    rcases h.exists_holds with ⟨argv, hargv⟩
    rcases run_spell h hargv true s with ⟨outcome, hrun, htarget⟩
    rw [if_pos rfl] at htarget
    rcases hconforms argv hargv with ⟨code, s', hrun', hdirectory, hfile, hnothing⟩
    rw [hrun, Option.some.injEq, Prod.mk.injEq] at hrun'
    rw [← hrun'.1, ← hrun'.2] at hdirectory hfile hnothing
    simp only [Shell.visit_currentDirectory, Outcome.directory_iff, Outcome.file_iff,
      Outcome.nothing_iff] at hdirectory hfile hnothing
    rw [← htarget]
    have hends : ∀ r, Ends r → r = outcome.target := by
      intro r hr
      cases r with
      | inl dir => exact ((hdirectory dir).mpr hr).symm
      | inr stop =>
        cases stop with
        | file => exact (hfile hr).symm
        | nothing => exact (hnothing hr).symm
    intro r
    constructor
    . apply hends
    . intro hr
      rcases htotal with ⟨r', hr'⟩
      rw [hr, ← hends r' hr']
      exact hr'
  . intro hends argv hargv
    rcases run_spell h hargv true s with ⟨outcome, hrun, htarget⟩
    rw [if_pos rfl] at htarget
    refine ⟨_, _, hrun, ?_⟩
    simp only [hends, ← htarget, Shell.visit_currentDirectory]
    refine ⟨?_, ?_, ?_⟩
    . intro dir
      rw [Outcome.directory_iff, eq_comm]
    . intro hfile
      exact Outcome.file_iff.mpr hfile.symm
    . intro hnothing
      exact Outcome.nothing_iff.mpr hnothing.symm

end

theorem tree_origin {absolute : Bool} {s : Shell} (hdir : s.kernel.disk.Tree s.currentDirectory)
    : s.kernel.disk.Tree (origin absolute s) := by
  unfold origin
  split
  . exact Disk.Tree.root
  . exact hdir

def Ends (absolute : Bool) (path : List Component) (s : Shell) : UInt32 ⊕ Stop → Prop :=
  Walk s.kernel.disk.Step (origin absolute s) (path.map Component.name)

end cd

namespace cd

theorem conforms_path_iff {absolute : Bool} {path : List Component} (hne : path ≠ [])
    (hlen : path.length ≤ 16) {s : Shell} (hdir : s.kernel.disk.Tree s.currentDirectory)
    : Conforms absolute (path.map Component.chars) s (Ends absolute path s)
        ↔
      Walk.Resolves s.kernel.disk.Step s.kernel.disk.look (origin absolute s)
        (path.map Component.name) := by
  have htotal : ∃ r, Ends absolute path s r := Disk.exists_walk (tree_origin hdir) _
  rw [conforms_iff (Component.spellable absolute hne hlen) htotal, List.map_map]
  rfl

theorem conforms_root_iff (s : Shell)
    : Conforms true [[]] s (Ends true [] s)
        ↔
      s.kernel.disk.look ROOT_CLUSTER_NUMBER (fun _ => 0) = .inl ROOT_CLUSTER_NUMBER := by
  have hends : ∀ r, Ends true [] s r ↔ r = .inl ROOT_CLUSTER_NUMBER := by
    intro r
    apply Walk.nil_iff
  have hname : [[]].map entry_name = [fun _ => 0] := by rfl
  have horigin : origin true s = ROOT_CLUSTER_NUMBER := rfl
  rw [conforms_iff spellable_root ⟨_, (hends _).mpr rfl⟩, hname, horigin]
  simp only [hends, Walk.follow_singleton]
  constructor
  . intro h
    exact ((h _).mp rfl).symm
  . intro h r
    rw [h]

theorem conforms_prefixes_iff {absolute : Bool} {path : List Component} {s : Shell}
    (hlen : path.length ≤ 16) (hdir : s.kernel.disk.Tree s.currentDirectory)
    : (∀ k, 1 ≤ k → k ≤ path.length →
        Conforms absolute ((path.take k).map Component.chars) s (Ends absolute (path.take k) s))
        ↔
      ∀ k c dir, path[k]? = some c → Ends absolute (path.take k) s (.inl dir) →
        s.kernel.disk.Clear dir c.name := by
  have hresolves := @Walk.resolves_iff _ _ _ s.kernel.disk.Step s.kernel.disk.look
    (origin absolute s) (path.map Component.name)
  rw [List.length_map] at hresolves
  have hbegin : ∀ k, 1 ≤ k → k ≤ path.length →
      (Conforms absolute ((path.take k).map Component.chars) s (Ends absolute (path.take k) s) ↔
        Walk.Resolves s.kernel.disk.Step s.kernel.disk.look (origin absolute s)
          ((path.map Component.name).take k)) := by
    intro k hone hk
    have hlength : (path.take k).length = k := List.length_take_of_le hk
    rw [← List.map_take]
    apply conforms_path_iff _ (by omega) hdir
    rw [← List.length_pos_iff]
    omega
  constructor
  . intro h k c dir hc hends
    rw [← Disk.agrees_iff]
    apply hresolves.mp _ k c.name dir
    . rw [List.getElem?_map, hc]
      rfl
    . rw [← List.map_take]
      exact hends
    . intro j hj
      cases j with
      | zero => apply Walk.resolves_nil
      | succ j => exact (hbegin _ (by omega) hj).mp (h (j + 1) (by omega) hj)
  . intro h k hone hk
    rw [hbegin k hone hk]
    apply hresolves.mpr _ k hk
    intro j l dir hl hwalk
    rw [List.getElem?_map, Option.map_eq_some_iff] at hl
    rcases hl with ⟨c, hc, rfl⟩
    rw [Disk.agrees_iff]
    apply h j c dir hc
    rw [← List.map_take] at hwalk
    exact hwalk

end cd

/--
`cd` follows the tree along all beginnings of a path exactly when the lookups on the way are clear,
and to `/` exactly when the root lists itself as its first entry without a name.
-/
theorem cd_conforms_iff (absolute : Bool) (path : List Component) (hlen : path.length ≤ 16)
    (s : Shell) (hdir : s.kernel.disk.Tree s.currentDirectory)
    : ((∀ k, 1 ≤ k → k ≤ path.length →
          cd.Conforms absolute ((path.take k).map Component.chars) s
            (cd.Ends absolute (path.take k) s))
          ↔
        ∀ k c dir, path[k]? = some c → cd.Ends absolute (path.take k) s (.inl dir) →
          s.kernel.disk.Clear dir c.name)
        ∧
      (cd.Conforms true [[]] s (cd.Ends true [] s)
          ↔
        ∃ i, findDirEntryIndex (s.kernel.disk.table 2) (fun _ => 0) = some i ∧
          (s.kernel.disk.table 2 i).attribute = ATTR_SUBDIRECTORY ∧
          (s.kernel.disk.table 2 i).cluster_number = ROOT_CLUSTER_NUMBER) := by
  constructor
  . exact cd.conforms_prefixes_iff hlen hdir
  . rw [cd.conforms_root_iff, Disk.look_eq_inl_iff]
    rfl

namespace newborn

def shell (d : Disk) : Shell where
  kernel := .initial .low d
  driver_state := .zero
  currentDirectory := ROOT_CLUSTER_NUMBER
  dirTable := d.table 2
  stack _ := {
    request := write.small
    newDirectoryTable := fun _ => .zero
    dirTable := fun _ => .zero
    argvS := fun _ => 0
    argvD := fun _ => 0
    clusterBuff := 0
    memory := fun _ => 0 }
  printed := []

-- `root`, which is the name in the first entry of the root
def root : Component where
  chars := [0x72, 0x6F, 0x6F, 0x74]
  ne_nil := by decide
  length_le := by decide
  zero_not_mem := by decide
  slash_not_mem := by decide

def file : Component where
  chars := [0x73, 0x68, 0x65, 0x6C, 0x6C]
  ne_nil := by decide
  length_le := by decide
  zero_not_mem := by decide
  slash_not_mem := by decide

theorem ends_root : cd.Ends false [root] (shell fresh) (.inr .nothing) := by
  apply Walk.stop
  apply Disk.Step.nothing
  . decide
  . intro i hlists
    exact absurd hlists.live (create_fat32.created_dead _ _ _ hlists.slot)

theorem look_root : fresh.look ROOT_CLUSTER_NUMBER root.name = .inl 0 := by
  decide

theorem look_nameless : fresh.look ROOT_CLUSTER_NUMBER (fun _ => 0) = .inr .nothing := by
  decide

end newborn

namespace stray

def docs : Component where
  chars := ascii "docs"
  ne_nil := by decide
  length_le := by decide
  zero_not_mem := by decide
  slash_not_mem := by decide

def copy : Component where
  chars := ascii "copy"
  ne_nil := by decide
  length_le := by decide
  zero_not_mem := by decide
  slash_not_mem := by decide

end stray

namespace docs

def request : FAT32DriverRequest :=
  { stray.request with
    name := ![0x63, 0x6F, 0x70, 0x79, 0, 0, 0, 0]
    parent_cluster_number := 3 }

def disk : Disk :=
  write.committed (fun _ => 0) (fun _ => .zero) request stray.disk 2 [4]

def up : Component where
  chars := ascii ".."
  ne_nil := by decide
  length_le := by decide
  zero_not_mem := by decide
  slash_not_mem := by decide

theorem lists {dir : UInt32} (hdir : dir = 2 ∨ dir = 3) {i : Fin 64} (h : disk.Lists dir i)
    : i = 2 := by
  have hroot : ∀ j : Fin 64, 2 < j.val →
      (disk.table 2 j).user_attribute ≠ UATTR_NOT_EMPTY := by
    decide
  have hdocs : ∀ j : Fin 64, 2 < j.val →
      (disk.table 3 j).user_attribute ≠ UATTR_NOT_EMPTY := by
    decide
  have hslot := h.slot
  by_contra hne
  rw [Fin.ext_iff] at hne
  have htwo : (2 : Fin 64).val = 2 := rfl
  rcases hdir with rfl | rfl
  . exact hroot i (by omega) h.live
  . exact hdocs i (by omega) h.live

theorem not_lists (i : Fin 64) : ¬ disk.Lists 4 i := by
  have hdead : ∀ j : Fin 64, 2 ≤ j.val →
      (disk.table 4 j).user_attribute ≠ UATTR_NOT_EMPTY := by
    decide
  intro h
  exact hdead i h.slot h.live

theorem target_root : (disk.table 2 2).cluster_number = 3 := by
  decide

theorem target_docs : (disk.table 3 2).cluster_number = 4 := by
  decide

theorem tree_cases {dir : UInt32} (h : disk.Tree dir) : dir = 2 ∨ dir = 3 ∨ dir = 4 := by
  induction h with
  | root => exact Or.inl rfl
  | @child dir i _ hlists _ ih =>
    rcases ih with rfl | rfl | rfl
    . rw [lists (Or.inl rfl) hlists]
      exact Or.inr (Or.inl target_root)
    . rw [lists (Or.inr rfl) hlists]
      exact Or.inr (Or.inr target_docs)
    . exact absurd hlists (not_lists i)

theorem lists_root : disk.Lists 2 2 :=
  ⟨by decide, by decide⟩

theorem lists_docs : disk.Lists 3 2 :=
  ⟨by decide, by decide⟩

theorem tree_docs : disk.Tree 3 := by
  have h := Disk.Tree.child Disk.Tree.root lists_root (by decide)
  exact target_root ▸ h

theorem parent_iff (p : UInt32) : disk.Parent p 4 ↔ p = 3 := by
  constructor
  . intro h
    generalize hm : (4 : UInt32) = m at h
    cases h with
    | root => contradiction
    | @child dir i htree hlists _ =>
      rcases tree_cases htree with rfl | rfl | rfl
      . rw [lists (Or.inl rfl) hlists] at hm
        exact absurd (hm.trans target_root) (by decide)
      . rfl
      . exact absurd hlists (not_lists i)
  . intro h
    have hparent := Disk.Parent.child tree_docs lists_docs (by decide)
    exact h ▸ target_docs ▸ hparent

theorem clear_of_lists {dir : UInt32} (hdir : dir = 2 ∨ dir = 3) {name : Fin 8 → UInt8}
    (hne : name ≠ dotdot)
    (hfind : findDirEntryIndex (disk.table (clusterIndex dir)) name = some 2)
    (hlists : disk.Lists dir 2) (hname : (disk.table (clusterIndex dir) 2).name = name)
    : disk.Clear dir name := by
  unfold Disk.Clear
  dsimp only
  rw [if_neg hne]
  intro i hi
  rw [hfind, Option.some.injEq] at hi
  rw [← hi]
  refine ⟨⟨2, hlists, hname⟩, ?_⟩
  intro j hj _
  rw [lists hdir hj]

theorem clear_root : disk.Clear 2 stray.docs.name :=
  clear_of_lists (Or.inl rfl) (by decide) (by decide) lists_root (by decide)

theorem clear_docs : disk.Clear 3 stray.copy.name :=
  clear_of_lists (Or.inr rfl) (by decide) (by decide) lists_docs (by decide)

theorem clear_copy : disk.Clear 4 up.name := by
  have hfind : findDirEntryIndex (disk.table 4) up.name = some 1 := by decide
  have hdir : (disk.table 4 1).attribute = ATTR_SUBDIRECTORY := by decide
  have hparent : (disk.table 4 1).cluster_number = 3 := by decide
  unfold Disk.Clear
  dsimp only
  rw [if_pos (by decide)]
  refine ⟨1, hfind, hdir, ?_⟩
  intro p
  have h := parent_iff p
  rw [← hparent] at h
  exact h

section

variable {ls : List (Fin 8 → UInt8)} {r : UInt32 ⊕ Stop}

theorem walk_root : Walk disk.Step 2 (stray.docs.name :: ls) r ↔ Walk disk.Step 3 ls r := by
  have hlook : disk.look 2 stray.docs.name = .inl 3 := by decide
  exact Walk.walk_of_next (Disk.agrees_iff.mpr clear_root) hlook

theorem walk_docs : Walk disk.Step 3 (stray.copy.name :: ls) r ↔ Walk disk.Step 4 ls r := by
  have hlook : disk.look 3 stray.copy.name = .inl 4 := by decide
  exact Walk.walk_of_next (Disk.agrees_iff.mpr clear_docs) hlook

end

end docs

-- `cd docs/copy/..` in the root ends in `docs`
theorem cd_conforms_docs
    : cd.Conforms false ([stray.docs, stray.copy, docs.up].map Component.chars)
          (newborn.shell docs.disk)
          (cd.Ends false [stray.docs, stray.copy, docs.up] (newborn.shell docs.disk)) ∧
        cd.Ends false [stray.docs, stray.copy, docs.up] (newborn.shell docs.disk) (.inl 3) := by
  constructor
  . have hiff := cd_conforms_iff false [stray.docs, stray.copy, docs.up] (by decide)
      (newborn.shell docs.disk) Disk.Tree.root
    apply hiff.1.mpr _ 3 (by decide) (Nat.le_refl 3)
    intro k c dir hc hends
    have hk : k < 3 := (List.getElem?_eq_some_iff.mp hc).1
    have hcases : k = 0 ∨ k = 1 ∨ k = 2 := by omega
    rcases hcases with rfl | rfl | rfl
    . have hdir : (Sum.inl dir : UInt32 ⊕ Stop) = .inl 2 := Walk.nil_iff.mp hends
      rw [← Option.some.inj hc, Sum.inl.inj hdir]
      exact docs.clear_root
    . have hdir : (Sum.inl dir : UInt32 ⊕ Stop) = .inl 3 :=
        Walk.nil_iff.mp (docs.walk_root.mp hends)
      rw [← Option.some.inj hc, Sum.inl.inj hdir]
      exact docs.clear_docs
    . have hdir : (Sum.inl dir : UInt32 ⊕ Stop) = .inl 4 :=
        Walk.nil_iff.mp (docs.walk_docs.mp (docs.walk_root.mp hends))
      rw [← Option.some.inj hc, Sum.inl.inj hdir]
      exact docs.clear_copy
  . have hup : Walk docs.disk.Step 4 [docs.up.name] (.inl 3) :=
      Walk.singleton_iff.mpr (Disk.Step.parent (by decide) ((docs.parent_iff 3).mpr rfl))
    exact docs.walk_root.mpr (docs.walk_docs.mpr hup)

theorem not_cd_conforms
    : driver.Reachable (fun _ _ => True) (fresh_driver, fresh) ∧
        fresh.Tree ROOT_CLUSTER_NUMBER ∧
        ¬ cd.Conforms false [newborn.root.chars] (newborn.shell fresh)
          (cd.Ends false [newborn.root] (newborn.shell fresh)) ∧
        ¬ cd.Conforms true [[]] (newborn.shell fresh) (cd.Ends true [] (newborn.shell fresh)) := by
  refine ⟨reachable_fresh, Disk.Tree.root, ?_, ?_⟩
  . intro h
    have hne : [newborn.root] ≠ [] := by simp
    have hresolves := (cd.conforms_path_iff hne (by decide) Disk.Tree.root).mp h
    have hnothing := (hresolves _).mp newborn.ends_root
    have hfollow : Walk.follow fresh.look ROOT_CLUSTER_NUMBER [newborn.root.name] = .inl 0 := by
      rw [Walk.follow_singleton, newborn.look_root]
    have hnothing : .inr .nothing
        = Walk.follow fresh.look ROOT_CLUSTER_NUMBER [newborn.root.name] := hnothing
    rw [hfollow] at hnothing
    contradiction
  . rw [cd.conforms_root_iff]
    intro h
    have hlook := newborn.look_nameless
    have h : fresh.look ROOT_CLUSTER_NUMBER (fun _ => 0) = .inl ROOT_CLUSTER_NUMBER := h
    rw [hlook] at h
    contradiction

end AiOS
