import AiOS.Shell.Growth

/-!
This module contains how deep the directories may lie for `printDir` and `find`: 32 and 14 levels,
which `mkdir` does not keep to.
-/

namespace AiOS

open Catalog Fallible

namespace findHelper

def Loaded (d : Disk) (dir : UInt32) (s : Shell) : Prop :=
  s.kernel.disk = d ∧ s.dirTable = d.table (clusterIndex dir)

variable {d : Disk} {item : Fin 8 → UInt8}

theorem ensures_disk {P : Shell → Prop} {dir : UInt32} (hP : ∀ s, P s → s.kernel.disk = d)
    (fuel : Nat) (lenPath : Nat) (pathList : find.PathList) (found : Bool)
    : Ensures P (findHelper fuel item dir lenPath pathList found) fun _ s => s.kernel.disk = d := by
  have hkeeps : Keeps (fun s : Shell => s.kernel.disk)
      (findHelper fuel item dir lenPath pathList found) := by
    apply keeps_findHelper
    . intro s printed
      rfl
    . intro s dirTable
      rfl
  exact (hkeeps.ensures d).consequence hP fun _ _ h => h

theorem ensures_updateDirectoryTable (dir : UInt32)
    : Ensures (fun s => s.kernel.disk = d) (updateDirectoryTable dir) fun _ => Loaded d dir := by
  intro s a s' hs hrun
  rw [updateDirectoryTable_apply, Option.some.injEq, Prod.mk.injEq] at hrun
  rw [← hrun.2]
  refine ⟨hs, ?_⟩
  rw [← hs]
  rfl

theorem ensures_loaded {α : Type} {p : ShellM α} (dir : UInt32)
    (hp : Keeps (fun s : Shell => (s.kernel.disk, s.dirTable)) p)
    : Ensures (Loaded d dir) p fun _ => Loaded d dir := by
  intro s a s' hs hrun
  have hkeeps := hp s a s' hrun
  rw [Prod.mk.injEq] at hkeeps
  unfold Loaded
  rw [hkeeps.1, hkeeps.2]
  exact hs

theorem keeps_report (pathList : find.PathList) (lenPath : Nat)
    : Keeps (fun s : Shell => (s.kernel.disk, s.dirTable)) (printPathFromList pathList lenPath) := by
  apply keeps_printPathFromList
  intro s printed
  rfl

def slot (fuel : Nat) (item : Fin 8 → UInt8) (dir : UInt32) (lenPath : Nat)
    (acc : find.PathList × Bool) (i : Fin 64) : ShellM (find.PathList × Bool) := do
  let s ← get
  let entry := s.dirTable i
  if entry.user_attribute ≠ UATTR_NOT_EMPTY then
    return (acc.1, acc.2)
  else if entry.attribute = ATTR_SUBDIRECTORY then
    let pathList ← Fallible.ofOption (store acc.1 (10 * lenPath) (List.ofFn entry.name))
    if memcmp entry.name item = 0 then
      printPathFromList pathList (lenPath + 1)
    let found := acc.2 || memcmp entry.name item = 0
    let (pathList, found) ←
      findHelper fuel item
        ((entry.cluster_high.toUInt32 <<< 16) + entry.cluster_low.toUInt32) (lenPath + 1)
        pathList found
    updateDirectoryTable dir
    let pathList ← Fallible.ofOption (store pathList (10 * lenPath) (List.replicate 10 0))
    return (pathList, found)
  else if memcmp entry.name item = 0 then
    printPathFromList acc.1 lenPath
    print.name entry.name
    return (acc.1, true)
  else
    return (acc.1, acc.2)

theorem succ_eq (fuel : Nat) (dir : UInt32) (lenPath : Nat) (pathList : find.PathList)
    (found : Bool)
    : findHelper (fuel + 1) item dir lenPath pathList found
        =
      updateDirectoryTable dir >>= fun _ =>
        write.slots.foldlM (slot fuel item dir lenPath) (pathList, found) := by
  rfl

theorem ensures_slot (fuel : Nat) (dir : UInt32) (lenPath : Nat) (acc : find.PathList × Bool)
    (i : Fin 64)
    : Ensures (Loaded d dir) (slot fuel item dir lenPath acc i) fun _ => Loaded d dir := by
  apply Ensures.get_bind
  intro t _
  apply Ensures.ite
  . intro _
    apply Ensures.of_pure
    intro s hs
    exact hs
  . intro _
    apply Ensures.ite
    . intro _
      refine Ensures.bind (Q := fun _ => Loaded d dir) ?_ ?_
      . apply Ensures.of_ofOption
        intro a s _ hs
        exact hs
      . intro pathList
        have hrest : ∀ found, Ensures (Loaded d dir) (do
            let (pathList, found) ←
              findHelper fuel item
                (((t.dirTable i).cluster_high.toUInt32 <<< 16) +
                  (t.dirTable i).cluster_low.toUInt32) (lenPath + 1) pathList found
            updateDirectoryTable dir
            let pathList ← Fallible.ofOption (store pathList (10 * lenPath) (List.replicate 10 0))
            return (pathList, found) : ShellM (find.PathList × Bool)) fun _ => Loaded d dir := by
          intro found
          refine Ensures.bind (ensures_disk (fun s hs => hs.1) _ _ _ _) ?_
          intro r
          refine Ensures.bind (ensures_updateDirectoryTable dir) ?_
          intro _
          refine Ensures.bind (Q := fun _ => Loaded d dir) ?_ ?_
          . apply Ensures.of_ofOption
            intro a s _ hs
            exact hs
          . intro pathList
            apply Ensures.of_pure
            intro s hs
            exact hs
        apply Ensures.ite
        . intro _
          exact Ensures.bind (ensures_loaded dir (keeps_report _ _)) fun _ => hrest _
        . intro _
          exact hrest _
    . intro _
      apply ensures_loaded
      apply Keeps.ite
      . apply Keeps.bind (keeps_report _ _)
        intro _
        apply Keeps.bind
        . apply keeps_print_name
          intro s printed
          rfl
        . intro _
          apply Keeps.of_pure
      . apply Keeps.of_pure

theorem eq_none {fuel lenPath : Nat} {dir m : UInt32} {route : List (Fin 64)}
    (hroute : d.graph.follow dir route = some m) (hlen : lenPath ≤ 15)
    (hdeep : 16 ≤ lenPath + route.length) (pathList : find.PathList) (found : Bool) {s : Shell}
    (hs : s.kernel.disk = d)
    : findHelper fuel item dir lenPath pathList found s = none := by
  induction fuel generalizing lenPath dir route pathList found s with
  | zero => rfl
  | succ fuel ih =>
    cases route with
    | nil =>
      rw [List.length_nil] at hdeep
      omega
    | cons i route =>
      rw [List.length_cons] at hdeep
      rw [Slotted.follow_cons_eq_some_iff] at hroute
      rcases hroute with ⟨child, hchild, hroute⟩
      have hslot := d.graph.mem_slots hchild
      rw [Disk.graph_child_eq_some_iff] at hchild
      rcases hchild with ⟨hlists, hsub, rfl⟩
      rw [succ_eq]
      apply Ensures.bind_eq_none (ensures_updateDirectoryTable dir) _ hs
      intro _ t ht
      apply Ensures.foldlM_eq_none hslot (ensures_slot fuel dir lenPath) _ _ ht
      intro acc t ht
      unfold slot
      rw [get_bind_apply, ht.2]
      dsimp only
      rw [if_neg (not_not.mpr hlists.live), if_pos hsub, ofOption_bind_apply]
      by_cases hfull : lenPath = 15
      . have hstore : store acc.1 (10 * lenPath)
            (List.ofFn (d.table (clusterIndex dir) i).name) = none := by
          unfold store
          rw [if_neg (by rw [List.length_ofFn]; omega)]
        rw [hstore]
        rfl
      . rw [Option.bind_eq_none_iff]
        intro pathList _
        have hrest : ∀ (t : Shell), t.kernel.disk = d → ∀ found,
            (findHelper fuel item
              (((d.table (clusterIndex dir) i).cluster_high.toUInt32 <<< 16) +
                (d.table (clusterIndex dir) i).cluster_low.toUInt32) (lenPath + 1) pathList found) t
              = none := by
          intro t ht found
          rw [cluster_add_eq]
          exact ih hroute (by omega) (by omega) pathList found ht
        split
        . apply Ensures.bind_eq_none (ensures_loaded dir (keeps_report _ _)) _ ht
          intro _ t ht
          rw [bind_apply, hrest t ht.1]
          rfl
        . rw [bind_apply, hrest t ht.1]
          rfl

end findHelper

theorem Argv.exists_bytes_row (argv : Argv) : ∃ item, bytes 8 (argv.row 1) = some item := by
  have hlen : (argv.row 1).length = 300 := by
    unfold Argv.row
    rw [List.length_drop, List.length_ofFn]
  unfold bytes
  rw [dif_pos (by omega)]
  exact ⟨_, rfl⟩

theorem find_eq_none {s : Shell} {route : List (Fin 64)} {m : UInt32}
    (hroute : s.kernel.disk.graph.follow ROOT_CLUSTER_NUMBER route = some m)
    (hdeep : 15 ≤ route.length) (fuel : Nat) {argv : Argv} {argc : Nat} (hargc : argc ≤ 2)
    : find fuel argv argc s = none := by
  have hnone : ∀ item,
      findHelper fuel item ROOT_CLUSTER_NUMBER 1 (fun _ => 0) false s = none := by
    intro item
    exact findHelper.eq_none hroute (by decide) (by omega) _ _ rfl
  rcases argv.exists_bytes_row with ⟨item, hitem⟩
  unfold find
  rw [if_neg (by omega), ofOption_bind_apply, hitem, Option.bind_some, bind_apply, hnone,
    Option.bind_none]

/--
`find` stays within `pathList` exactly where no directory is more than 14 levels deep.
-/
theorem find_fits_iff (s : Shell)
    : (∀ argv argc, ∃ fuel r, find fuel argv argc s = some r)
        ↔
      s.kernel.disk.graph.Bounded 14 ROOT_CLUSTER_NUMBER := by
  constructor
  . intro h route m hroute
    by_contra hdeep
    rcases h (fun _ => 0) 2 with ⟨fuel, r, hrun⟩
    rw [find_eq_none hroute (by omega) fuel (Nat.le_refl 2)] at hrun
    exact Option.some_ne_none r hrun.symm
  . intro hbound argv argc
    by_cases hargc : argc ≤ 2
    . rcases argv.exists_bytes_row with ⟨item, hitem⟩
      refine ⟨15, ?_⟩
      rw [find_eq_visit, find.visit_apply hbound find.report_apply (Nat.le_refl 15) item hargc hitem
        rfl]
      exact ⟨_, rfl⟩
    . refine ⟨0, ?_⟩
      unfold find
      rw [if_pos (by omega)]
      exact ⟨_, rfl⟩

namespace Disk.Grown

variable {d : Disk} (h : d.Grown)

include h

theorem up_of_index {parent dir : UInt32} {i : Fin 64} (hparent : d.Tree parent)
    (hlists : d.Lists parent i)
    (hsub : (d.table (clusterIndex parent) i).attribute = ATTR_SUBDIRECTORY)
    (hdir : clusterIndex dir = (d.table (clusterIndex parent) i).cluster_number.toNat)
    : clusterIndex (d.table (clusterIndex dir) 1).cluster_number = parent.toNat := by
  rw [FAT32DirectoryEntry.toNat_cluster_number] at hdir
  rw [hdir]
  rw [Disk.clusterIndex_of_tree h.wellFormed hparent] at hsub ⊢
  have hclimbs := h.climbs (parent.toNat, i) (Disk.live_of_lists h.wellFormed hparent hlists) hsub
  exact hclimbs

theorem ne_root_of_index {parent dir : UInt32} {i : Fin 64} (hparent : d.Tree parent)
    (hlists : d.Lists parent i)
    (hsub : (d.table (clusterIndex parent) i).attribute = ATTR_SUBDIRECTORY)
    (hdir : clusterIndex dir = (d.table (clusterIndex parent) i).cluster_number.toNat)
    : dir ≠ ROOT_CLUSTER_NUMBER := by
  intro heq
  apply Disk.ne_root_of_lists h.wellFormed hparent hlists hsub
  rw [heq] at hdir
  apply UInt32.toNat_inj.mp
  rw [← hdir]
  rfl

theorem climb_some {route : List (Fin 64)} {rows : Nat} (hrows : route.length < rows)
    {dir target : UInt32} (hroute : d.graph.follow ROOT_CLUSTER_NUMBER route = some target)
    (hdir : clusterIndex dir = target.toNat) (tempDir : List (Fin 8 → UInt8)) {s : Shell}
    (hd : s.kernel.disk = d)
    : ∃ r, printDir.climb rows dir tempDir s = some r := by
  induction route using List.reverseRecOn generalizing rows dir target tempDir s with
  | nil =>
    rw [Slotted.follow_nil, Option.some.injEq] at hroute
    cases rows with
    | zero => omega
    | succ rows =>
      by_cases hroot : dir = ROOT_CLUSTER_NUMBER
      . rw [hroot, printDir.climb_root]
        exact ⟨_, rfl⟩
      . -- another number of the root has the root above it
        have hindex : clusterIndex dir = 2 := by
          rw [hdir, ← hroute]
          rfl
        rw [printDir.climb_succ hroot, hd, hindex, h.root, printDir.climb_root]
        exact ⟨_, rfl⟩
  | append_singleton route i ih =>
    rw [Slotted.follow_concat_eq_some_iff] at hroute
    rcases hroute with ⟨parent, hroute, hchild⟩
    rw [Disk.graph_child_eq_some_iff] at hchild
    rcases hchild with ⟨hlists, hsub, rfl⟩
    have htree : d.Tree parent := Disk.tree_iff_follow.mpr ⟨route, hroute⟩
    rw [List.length_append, List.length_singleton] at hrows
    cases rows with
    | zero => omega
    | succ rows =>
      have hle : route.length < rows := by omega
      rw [printDir.climb_succ (h.ne_root_of_index htree hlists hsub hdir), hd]
      exact ih hle hroute (h.up_of_index htree hlists hsub hdir) _ hd

theorem climb_none {route : List (Fin 64)} {rows : Nat} (hrows : rows < route.length)
    {dir target : UInt32} (hroute : d.graph.follow ROOT_CLUSTER_NUMBER route = some target)
    (hdir : clusterIndex dir = target.toNat) (tempDir : List (Fin 8 → UInt8)) {s : Shell}
    (hd : s.kernel.disk = d)
    : printDir.climb rows dir tempDir s = none := by
  induction route using List.reverseRecOn generalizing rows dir target tempDir s with
  | nil =>
    rw [List.length_nil] at hrows
    omega
  | append_singleton route i ih =>
    rw [Slotted.follow_concat_eq_some_iff] at hroute
    rcases hroute with ⟨parent, hroute, hchild⟩
    rw [Disk.graph_child_eq_some_iff] at hchild
    rcases hchild with ⟨hlists, hsub, rfl⟩
    have htree : d.Tree parent := Disk.tree_iff_follow.mpr ⟨route, hroute⟩
    have hne := h.ne_root_of_index htree hlists hsub hdir
    rw [List.length_append, List.length_singleton] at hrows
    cases rows with
    | zero => exact printDir.climb_zero hne _ _
    | succ rows =>
      have hlt : rows < route.length := by omega
      rw [printDir.climb_succ hne, hd]
      exact ih hlt hroute (h.up_of_index htree hlists hsub hdir) _ hd

end Disk.Grown

namespace printDir

theorem eq_of_climb {s : Shell} {r : Option (List (Fin 8 → UInt8) × Shell)}
    (h : printDir.climb 32 s.currentDirectory [] (s.put [(ascii "/", 0xB)]) = r)
    : printDir s = r.map fun (tempDir, t) =>
        ((), t.put (shown tempDir.reverse ++ [(ascii "$ ", 0xF)])) := by
  unfold printDir print
  rw [bind_apply, printlen_apply, Option.bind_some, get_bind_apply, bind_apply,
    Shell.put_currentDirectory, h]
  cases r with
  | none => rfl
  | some r =>
    rw [Option.bind_some, Option.map_some]
    apply prints_bind (names_apply _ _)
    intro s
    apply printlen_apply

end printDir

/--
`printDir` writes no row but 0 to 31 from any directory, and `find` none but 0 to 14.
-/
structure Disk.Fits (d : Disk) : Prop where
  printDir : ∀ s : Shell, s.kernel.disk = d → d.Tree s.currentDirectory →
    ∃ r, printDir s = some r
  find : ∀ s : Shell, s.kernel.disk = d → ∀ argv argc, ∃ fuel r, find fuel argv argc s = some r

theorem Disk.Grown.fits_iff {d : Disk} (h : d.Grown)
    : d.Fits ↔ d.graph.Bounded 14 ROOT_CLUSTER_NUMBER := by
  constructor
  . intro hfits
    exact (find_fits_iff (newborn.shell d)).mp (hfits.find (newborn.shell d) rfl)
  . intro hbound
    constructor
    . intro s hd hdir
      rcases Disk.tree_iff_follow.mp hdir with ⟨route, hroute⟩
      have hlen := hbound route _ hroute
      rcases h.climb_some (by omega : route.length < 32) hroute
        (Disk.clusterIndex_of_tree h.wellFormed hdir) [] (s := s.put [(ascii "/", 0xB)]) hd with
        ⟨r, hclimb⟩
      rw [printDir.eq_of_climb hclimb]
      exact ⟨_, rfl⟩
    . intro s hd
      rw [find_fits_iff, hd]
      exact hbound

inductive Build where
  | mkdir (argv : Argv) (argc : Nat)
  | cd (argv : Argv) (argc : Nat)
  | other

/--
A shell on a new file system, with nothing but `mkdir` and `cd` to change the disk and the directory.
-/
def builder : System Shell Build where
  init s :=
    (∃ driver_state after_literal d,
      (create_fat32 driver_state after_literal).run diskDevice d
        = some (s.kernel.driver_state, s.kernel.disk)) ∧
      s.currentDirectory = ROOT_CLUSTER_NUMBER
  step s a s' :=
    match a with
    | .mkdir argv argc => ∃ code, AiOS.mkdir argv argc s = some (code, s')
    | .cd argv argc => ∃ code, AiOS.cd argv argc true s = some (code, s')
    | .other => s'.kernel.disk = s.kernel.disk ∧ s'.currentDirectory = s.currentDirectory

namespace Build

/--
While a cluster is empty, `mkdir` does not go to a directory that is 14 levels deep.
-/
def Shallow (s : Shell) : Build → Prop
  | .mkdir argv argc => argc = 2 → write.empty_clusters s.kernel.disk.fat ≠ [] →
    ∀ t, AiOS.cd argv 2 false s = some (0, t) → ∀ dir route,
      s.kernel.disk.graph.follow ROOT_CLUSTER_NUMBER route = some dir →
      clusterIndex dir = clusterIndex t.currentDirectory → route.length < 14
  | .cd _ _ => True
  | .other => True

variable {s s' : Shell} {op : Build} {ok : Shell → Build → Prop}

theorem disk_cases (h : builder.step s op s')
    : s'.kernel.disk = s.kernel.disk ∨
        ∃ argv t request newDirectoryTable code st, op = .mkdir argv 2 ∧
          AiOS.cd argv 2 false s = some (0, t) ∧ request.buffer_size = 0 ∧
          request.parent_cluster_number = t.currentDirectory ∧
          (write s.driver_state (fun _ => 0) newDirectoryTable request).run diskDevice s.kernel.disk
            = some ((code, st), s'.kernel.disk) := by
  cases op with
  | mkdir argv argc =>
    rcases h with ⟨code, hrun⟩
    rcases mkdir_cases hrun with hsame | ⟨rfl, hwrite⟩
    . exact Or.inl hsame
    . rcases hwrite with ⟨t, request, newDirectoryTable, code', st, hcd, hsize, hparent, hwrite⟩
      exact Or.inr ⟨argv, t, request, newDirectoryTable, code', st, rfl, hcd, hsize, hparent, hwrite⟩
  | cd argv argc =>
    left
    rcases h with ⟨code, hrun⟩
    by_cases hargc : argc ≤ 2
    . rw [cd_apply hargc, Option.map_eq_some_iff] at hrun
      rcases hrun with ⟨outcome, _, heq⟩
      rw [Prod.mk.injEq] at heq
      rw [← heq.2, Shell.visit_kernel]
    . unfold AiOS.cd print at hrun
      rw [if_pos (by omega), bind_apply, printlen_apply, Option.bind_some, pure_apply,
        Option.some.injEq, Prod.mk.injEq] at hrun
      rw [← hrun.2, Shell.put_kernel]
  | other => exact Or.inl h.1

theorem grown_of_create (h : builder.init s)
    : s.kernel.disk.Grown ∧ s.kernel.disk.graph.Bounded 0 ROOT_CLUSTER_NUMBER := by
  rcases h with ⟨⟨driver_state, after_literal, d, hrun⟩, _⟩
  rw [create_fat32.run_create_fat32, Option.some.injEq, Prod.mk.injEq] at hrun
  rw [← hrun.2]
  constructor
  . refine ⟨create_fat32.created_wellFormed _ _ _, ?_, ?_, ?_⟩
    . rw [create_fat32.created_fat]
      rfl
    . rw [create_fat32.created_table]
      apply UInt32.toNat_inj.mp
      rw [FAT32DirectoryEntry.toNat_cluster_number]
      exact write.toNat_cluster_high_low ROOT_CLUSTER_NUMBER
    . intro t ht
      exact absurd ht (create_fat32.not_created_live _ _ _ t)
  . intro route dir hroute
    cases route with
    | nil => exact Nat.le_refl 0
    | cons i route =>
      rw [Slotted.follow_cons_eq_some_iff] at hroute
      rcases hroute with ⟨m, hchild, _⟩
      rw [Disk.graph_child_eq_some_iff] at hchild
      have hlive := hchild.1.live
      exact absurd hlive (create_fat32.created_dead _ _ _ hchild.1.slot)

theorem not_short_of_size {request : FAT32DriverRequest} (h : request.buffer_size = 0) (d : Disk)
    : ¬ write.short request d := by
  apply write.not_short_of_required_one
  exact write.required_clusters_of_zero request h

theorem grown_of_step (h : s.kernel.disk.Grown) (hstep : builder.step s op s')
    : s'.kernel.disk.Grown := by
  rcases disk_cases hstep with hsame | ⟨_, _, _, _, _, _, _, _, hsize, _, hrun⟩
  . rw [hsame]
    exact h
  . exact (h.of_write (not_short_of_size hsize _) hrun).1

theorem grown_of_reachable (h : builder.Reachable ok s) : s.kernel.disk.Grown := by
  apply h.invariant
  . intro s hs
    exact (grown_of_create hs).1
  . intro s op s' hs _ hstep
    exact grown_of_step hs hstep

theorem bounded_of_step {depth : Nat} (h : s.kernel.disk.Grown)
    (hbound : s.kernel.disk.graph.Bounded depth ROOT_CLUSTER_NUMBER)
    (hbelow : ∀ argv, op = .mkdir argv 2 → write.empty_clusters s.kernel.disk.fat ≠ [] →
      ∀ t, AiOS.cd argv 2 false s = some (0, t) → ∀ dir route,
        s.kernel.disk.graph.follow ROOT_CLUSTER_NUMBER route = some dir →
        clusterIndex dir = clusterIndex t.currentDirectory → route.length < depth)
    (hstep : builder.step s op s')
    : s'.kernel.disk.graph.Bounded depth ROOT_CLUSTER_NUMBER := by
  rcases disk_cases hstep with hsame | ⟨argv, t, request, _, _, _, rfl, hcd, hsize, hparent, hrun⟩
  . rw [hsame]
    exact hbound
  . rcases h.of_write (not_short_of_size hsize _) hrun with ⟨hgrown, new, hgrows, hnew⟩
    intro route dir hroute
    rcases hgrows.follow_cases h.wellFormed hgrown.wellFormed hroute with
      hold | ⟨above, parent, i, rfl, habove, heq, _⟩
    . exact hbound route dir hold
    . have hplace := hnew _ heq
      have htree : s.kernel.disk.Tree parent := Disk.tree_iff_follow.mpr ⟨above, habove⟩
      have hindex : clusterIndex parent = clusterIndex t.currentDirectory := by
        rw [Disk.clusterIndex_of_tree h.wellFormed htree, ← hparent]
        exact hplace.1
      have hlt := hbelow argv rfl hplace.2 t hcd parent above habove hindex
      rw [List.length_append, List.length_singleton]
      omega

end Build

/--
On the trees that `mkdir` and `cd` build, `printDir` and `find` stay within their buffers exactly
where no directory is more than 14 levels deep. It stays so while `mkdir` keeps to 14 levels.
-/
theorem build_fits (s : Shell)
    : (builder.Reachable (fun _ _ => True) s →
        (s.kernel.disk.Fits ↔ s.kernel.disk.graph.Bounded 14 ROOT_CLUSTER_NUMBER)) ∧
      (builder.Reachable Build.Shallow s → s.kernel.disk.Fits) := by
  constructor
  . intro hs
    exact (Build.grown_of_reachable hs).fits_iff
  . intro hs
    have hinv : s.kernel.disk.Grown ∧ s.kernel.disk.graph.Bounded 14 ROOT_CLUSTER_NUMBER := by
      apply hs.invariant
      . intro s hs
        have hcreate := Build.grown_of_create hs
        refine ⟨hcreate.1, ?_⟩
        intro route dir hroute
        have := hcreate.2 route dir hroute
        omega
      . intro s op s' ⟨hgrown, hbound⟩ hok hstep
        refine ⟨Build.grown_of_step hgrown hstep, Build.bounded_of_step hgrown hbound ?_ hstep⟩
        intro argv hop
        rw [hop] at hok
        exact hok rfl
    exact hinv.1.fits_iff.mpr hinv.2

namespace nested

def a : Component where
  chars := [0x61]
  ne_nil := by decide
  length_le := by decide
  zero_not_mem := by decide
  slash_not_mem := by decide

def b : Component where
  chars := [0x62]
  ne_nil := by decide
  length_le := by decide
  zero_not_mem := by decide
  slash_not_mem := by decide

/--
The name of the directory that is made on level `n`. The directory around it has another one, as a
lookup of its own name would find its entry 0.
-/
def component (n : Nat) : Component :=
  if n % 2 = 0 then a else b

theorem component_ne (n : Nat) : (component n).name ≠ (component (n + 1)).name := by
  unfold component
  by_cases hn : n % 2 = 0
  . rw [if_pos hn, if_neg (by omega)]
    decide
  . rw [if_neg hn, if_pos (by omega)]
    decide

theorem component_ne_dots (n : Nat) (name : Fin 8 → UInt8)
    : memcpy name ![0x2E, 0x2E, 0] ≠ (component n).name := by
  intro heq
  have hfirst : (0x2E : UInt8) = (component n).name 0 := by
    rw [← heq]
    rfl
  unfold component at hfirst
  split at hfirst
  . exact absurd hfirst (by decide)
  . exact absurd hfirst (by decide)

/--
The shell is in an empty directory on level `n`, and every level above it has taken one cluster.
-/
structure Level (n : Nat) (s : Shell) : Prop where
  reachable : builder.Reachable (fun _ _ => True) s
  shallow : n ≤ 14 → builder.Reachable Build.Shallow s
  bounded : s.kernel.disk.graph.Bounded n ROOT_CLUSTER_NUMBER
  route : ∃ route, route.length = n ∧
    s.kernel.disk.graph.follow ROOT_CLUSTER_NUMBER route = some s.currentDirectory
  table : ∃ old name parent, name ≠ (component n).name ∧
    s.kernel.disk.table (clusterIndex s.currentDirectory) = init_directory_table old name parent
  empty : (write.empty_clusters s.kernel.disk.fat).length + n = 509

theorem find_new {old : FAT32DirectoryTable} {name : Fin 8 → UInt8} {parent : UInt32} {n : Nat}
    (hname : name ≠ (component n).name) {i : Fin 64} {entry : FAT32DirectoryEntry}
    (hlive : entry.user_attribute = UATTR_NOT_EMPTY) (hentry : entry.name = (component n).name)
    : findDirEntryIndex (Function.update (init_directory_table old name parent) i entry)
        (component n).name = some i := by
  have hself : Function.update (init_directory_table old name parent) i entry i = entry :=
    Function.update_self _ _ _
  cases hfind : findDirEntryIndex (Function.update (init_directory_table old name parent) i entry)
      (component n).name with
  | none =>
    have hnone := findDirEntryIndex_eq_none_iff.mp hfind i
    rw [hself] at hnone
    exact absurd hentry (hnone hlive)
  | some j =>
    have hj := List.find?_some hfind
    simp only [memcmp_eq_zero_iff, decide_eq_true_eq] at hj
    by_cases hji : j = i
    . rw [hji]
    . rw [Function.update_of_ne hji] at hj
      have hcases : j = 0 ∨ j = 1 ∨ 2 ≤ j.val := by omega
      rcases hcases with rfl | rfl | hle
      . exact absurd hj.1 hname
      . exact absurd hj.1 (component_ne_dots n (old 1).name)
      . exact absurd hj.2 (init_directory_table_of_le _ _ _ hle)

namespace Level

variable {n : Nat} {s : Shell} (h : Level n s)

include h

theorem tree : s.kernel.disk.Tree s.currentDirectory := by
  rcases h.route with ⟨route, _, hroute⟩
  exact Disk.tree_iff_follow.mpr ⟨route, hroute⟩

theorem exists_chosen (hn : n < 509)
    : ∃ s' argv request newDirectoryTable i c, builder.step s (.mkdir argv 2) s' ∧
        request.name = (component n).name ∧ request.buffer_size = 0 ∧
        request.parent_cluster_number = s.currentDirectory ∧
        s'.currentDirectory = s.currentDirectory ∧ write.Chosen request s.kernel.disk i [c] ∧
        s'.kernel.disk = write.committed (fun _ => 0) newDirectoryTable request s.kernel.disk i [c] := by
  have hempty : write.empty_clusters s.kernel.disk.fat ≠ [] := by
    intro hnil
    have hlen := h.empty
    rw [hnil, List.length_nil] at hlen
    omega
  have hspell : Spellable false ([component n].map Component.chars) :=
    Component.spellable false (by simp) (by simp)
  rcases hspell.exists_holds with ⟨argv, hargv⟩
  have hhere : Walk.follow s.kernel.disk.look (cd.origin false s)
      (([component n].map Component.chars).dropLast.map entry_name) = .inl s.currentDirectory := rfl
  rcases mkdir.run_of_inl hspell hargv hhere with
    ⟨request, newDirectoryTable, hname, hsize, hparent, hmkdir⟩
  have hindex : clusterIndex s.currentDirectory = request.parent := by
    rw [← hparent]
    rfl
  rcases h.table with ⟨old, name, parent, _, htable⟩
  rw [hindex] at htable
  have hdead : ∀ i : Fin 64, 2 ≤ i.val →
      (s.kernel.disk.table request.parent i).user_attribute ≠ UATTR_NOT_EMPTY := by
    intro i hi
    rw [htable]
    exact init_directory_table_of_le _ _ _ hi
  have hok : write.parent_ok (s.kernel.disk.table request.parent) := by
    rw [htable]
    exact ⟨rfl, rfl⟩
  rcases write.exists_search hsize hdead hempty with ⟨i, c, hsearch⟩
  have hrun := write.run_of_parent_ok s.driver_state (fun _ => 0) newDirectoryTable request
    s.kernel.disk hok
  rw [hsearch] at hrun
  dsimp only at hrun
  rcases hmkdir _ _ _ hrun with ⟨s', hs', hdisk, hcurrent⟩
  exact ⟨s', argv, request, newDirectoryTable, i, c, ⟨_, hs'⟩, hname, hsize, hparent, hcurrent,
    write.chosen_of_search hsearch, hdisk⟩

theorem exists_made (hn : n < 509)
    : ∃ s' i, builder.Reachable (fun _ _ => True) s' ∧
        (n < 14 → builder.Reachable Build.Shallow s') ∧
        s'.kernel.disk.graph.Bounded (n + 1) ROOT_CLUSTER_NUMBER ∧
        s'.currentDirectory = s.currentDirectory ∧
        (∃ route, route.length = n ∧
          s'.kernel.disk.graph.follow ROOT_CLUSTER_NUMBER route = some s.currentDirectory) ∧
        s'.kernel.disk.Lists s.currentDirectory i ∧
        findDirEntryIndex (s'.kernel.disk.table (clusterIndex s.currentDirectory)) (component n).name
            = some i ∧
        (s'.kernel.disk.table (clusterIndex s.currentDirectory) i).attribute = ATTR_SUBDIRECTORY ∧
        (∃ old, s'.kernel.disk.table
            (s'.kernel.disk.table (clusterIndex s.currentDirectory) i).cluster
              = init_directory_table old (component n).name s.currentDirectory) ∧
        (write.empty_clusters s'.kernel.disk.fat).length + n + 1 = 509 := by
  rcases h.exists_chosen hn with
    ⟨s', argv, request, newDirectoryTable, i, c, hstep, hname, hsize, hparent, hcurrent, hch, hdisk⟩
  have hgrown := Build.grown_of_reachable h.reachable
  have hwf := hgrown.wellFormed
  have hnodup : [c].Nodup := List.nodup_singleton c
  have hindex : clusterIndex s.currentDirectory = request.parent := by
    rw [← hparent]
    rfl
  have hP : s.kernel.disk.Directory request.parent := by
    rw [← hindex, Disk.clusterIndex_of_tree hwf h.tree]
    exact (Disk.tree_iff hwf).mp h.tree
  have hst := write.staged_of_chosen (fun _ => 0) newDirectoryTable hch hwf hP hnodup
  have hnew := write.committed_of_chosen (fun _ => 0) newDirectoryTable hch hwf hP hnodup
  have hins := hst.insert hch hwf hP hnodup hnew
  rw [← hdisk] at hnew hins
  rcases h.table with ⟨_, _, _, hne, htable⟩
  rw [hindex] at htable ⊢
  have hlive : (s'.kernel.disk.table request.parent i).user_attribute = UATTR_NOT_EMPTY := by
    rw [hnew.entry_eq]
    apply write.new_entry_user_attribute
  have hsub : (s'.kernel.disk.table request.parent i).attribute = ATTR_SUBDIRECTORY := by
    rw [hnew.isDir_iff]
    exact hsize
  have hdepth : ∀ {route dir}, s.kernel.disk.graph.follow ROOT_CLUSTER_NUMBER route = some dir →
      route.length < n + 1 := fun hroute => Nat.lt_succ_of_le (h.bounded _ _ hroute)
  refine ⟨s', i, h.reachable.step trivial hstep, ?_, ?_, hcurrent, ?_, ?_, ?_, hsub, ?_, ?_⟩
  . intro hn
    apply (h.shallow (Nat.le_of_lt hn)).step _ hstep
    intro _ _ _ _ _ _ hroute _
    exact Nat.lt_of_lt_of_le (hdepth hroute) hn
  . apply Build.bounded_of_step hgrown _ _ hstep
    . intro _ _ hroute
      exact Nat.le_of_lt (hdepth hroute)
    . intro _ _ _ _ _ _ _ hroute _
      exact hdepth hroute
  . rcases h.route with ⟨route, hlen, hroute⟩
    exact ⟨route, hlen, (Disk.Grows.insert hins).follow hwf hroute⟩
  . refine ⟨hch.slot, ?_⟩
    rw [hindex]
    exact hlive
  . have hentry := hnew.entry_eq
    rw [hnew.table] at hlive ⊢
    unfold write.new_table at hlive ⊢
    rw [Function.update_self] at hlive
    rw [htable] at hlive ⊢
    apply find_new hne hlive
    rw [write.new_entry_name, hname]
  . refine ⟨newDirectoryTable, ?_⟩
    rw [hnew.table_first (List.cons_ne_nil c []) hsub, hname, hparent]
  . have hlink := write.length_empty_clusters_link
      ((write.mem_empty_clusters _ _).mpr ⟨hch.data c List.mem_cons_self, hch.empty c
        List.mem_cons_self⟩)
    have hlen := h.empty
    rw [hnew.fat]
    omega

theorem exists_succ (hn : n < 509) : ∃ s', Level (n + 1) s' := by
  rcases h.exists_made hn with
    ⟨s', i, hreach, hshallow, hbounded, hcurrent, ⟨route, hlen, hroute⟩, hlists, hfind, hsub,
      ⟨old, htable⟩, hempty⟩
  have hwf := (Build.grown_of_reachable hreach).wellFormed
  have htree : s'.kernel.disk.Tree s.currentDirectory :=
    Disk.tree_iff_follow.mpr ⟨route, hroute⟩
  have hchild : s'.kernel.disk.graph.child s.currentDirectory i
      = some (s'.kernel.disk.table (clusterIndex s.currentDirectory) i).cluster_number :=
    Disk.graph_child_eq_some_iff.mpr ⟨hlists, hsub, rfl⟩
  have hnext := Disk.clusterIndex_of_tree hwf (Disk.Tree.child htree hlists hsub)
  rw [FAT32DirectoryEntry.toNat_cluster_number] at hnext
  have hlook : s'.kernel.disk.look s.currentDirectory (component n).name
      = .inl (s'.kernel.disk.table (clusterIndex s.currentDirectory) i).cluster_number :=
    Disk.look_eq_inl_iff.mpr ⟨i, hfind, hsub, rfl⟩
  have hspell : Spellable false ([component n].map Component.chars) :=
    Component.spellable false (by simp) (by simp)
  rcases hspell.exists_holds with ⟨argv, hargv⟩
  have hfollow : Walk.follow s'.kernel.disk.look (cd.origin false s')
      (([component n].map Component.chars).map entry_name)
        = .inl (s'.kernel.disk.table (clusterIndex s.currentDirectory) i).cluster_number := by
    have horigin : cd.origin false s' = s.currentDirectory := hcurrent
    rw [horigin]
    unfold Component.name at hlook
    simp [Walk.follow, hlook]
  have hcd : cd argv 2 true s' = _ := cd.run_of_inl hspell hargv hfollow
  have hstep : builder.step s' (.cd argv 2) _ := ⟨_, hcd⟩
  refine ⟨_, hreach.step trivial hstep, ?_, hbounded, ?_, ?_, ?_⟩
  . intro hn
    exact (hshallow hn).step (a := .cd argv 2) trivial hstep
  . refine ⟨route ++ [i], ?_, ?_⟩
    . rw [List.length_append, List.length_singleton, hlen]
    . rw [Slotted.follow_concat_eq_some_iff]
      exact ⟨_, hroute, hchild⟩
  . refine ⟨old, (component n).name, s.currentDirectory, component_ne n, ?_⟩
    rw [Shell.visit_currentDirectory, Shell.visit_kernel, hnext]
    exact htable
  . rw [Shell.visit_kernel]
    omega

end Level

def shell : Shell :=
  { newborn.shell fresh with
    kernel := { newborn.shell fresh |>.kernel with driver_state := fresh_driver } }

theorem init_shell : builder.init shell :=
  ⟨⟨.zero, fun _ => 0, fun _ _ => 0, create_fat32.run_create_fat32 _ _ _⟩, rfl⟩

theorem reachable_shell (ok : Shell → Build → Prop) : builder.Reachable ok shell :=
  System.Reachable.init init_shell

theorem level_zero : Level 0 shell where
  reachable := reachable_shell _
  shallow := fun _ => reachable_shell _
  bounded := (Build.grown_of_create init_shell).2
  route := ⟨[], rfl, rfl⟩
  table := by
    have hroot : root_name (fun _ => 0) ≠ (component 0).name := by decide
    refine ⟨FAT32DriverState.zero.dir_table_buf, root_name (fun _ => 0), 2, hroot, ?_⟩
    apply create_fat32.created_table
  empty := by
    rw [Nat.add_zero]
    exact write.length_empty_clusters_fresh

theorem exists_level (n : Nat) (hn : n ≤ 509) : ∃ s, Level n s := by
  induction n with
  | zero => exact ⟨shell, level_zero⟩
  | succ n ih =>
    rcases ih (by omega) with ⟨s, hs⟩
    exact hs.exists_succ (by omega)

end nested

-- the deepest directory that there may be
theorem build_fits_nested
    : ∃ s route, builder.Reachable Build.Shallow s ∧
        s.kernel.disk.graph.follow ROOT_CLUSTER_NUMBER route = some s.currentDirectory ∧
        route.length = 14 ∧ s.kernel.disk.Fits := by
  rcases nested.exists_level 14 (by decide) with ⟨s, hs⟩
  rcases hs.route with ⟨route, hlen, hroute⟩
  have hreach := hs.shallow (Nat.le_refl 14)
  exact ⟨s, route, hreach, hroute, hlen, (build_fits s).2 hreach⟩

/--
With `mkdir` and `cd` of `a` and `b` in turn, directories come to lie 33 levels deep, and there is
no room for them in `tempDir` and `pathList`.
-/
theorem not_build_fits
    : ∃ s, builder.Reachable (fun _ _ => True) s ∧ s.kernel.disk.Tree s.currentDirectory ∧
        printDir s = none ∧ ∀ fuel, find fuel (fun _ => 0) 2 s = none := by
  rcases nested.exists_level 33 (by decide) with ⟨s, hs⟩
  have hgrown := Build.grown_of_reachable hs.reachable
  rcases hs.route with ⟨route, hlen, hroute⟩
  refine ⟨s, hs.reachable, hs.tree, ?_, ?_⟩
  . have hclimb : printDir.climb 32 s.currentDirectory [] (s.put [(ascii "/", 0xB)]) = none :=
      hgrown.climb_none (by omega) hroute (Disk.clusterIndex_of_tree hgrown.wellFormed hs.tree) _ rfl
    rw [printDir.eq_of_climb hclimb]
    rfl
  . intro fuel
    exact find_eq_none hroute (by omega) fuel (by decide)

end AiOS
