import AiOS.Fat32.Linked
import AiOS.Shell.Search
import AiOS.Shell.Stay

/-!
This module contains what `printDir` shows: the names on the way from the root to the directory of
the shell, where the entries 0 and 1 of the directories lead back up the tree.
-/

namespace AiOS

open Catalog

namespace Disk

section

variable {d : Disk} {dir : UInt32} {i : Fin 64} {route : List (Fin 64)}

theorem names_concat (hroute : d.graph.follow ROOT_CLUSTER_NUMBER route = some dir)
    : d.names ROOT_CLUSTER_NUMBER (route ++ [i])
        =
      d.names ROOT_CLUSTER_NUMBER route ++ [(d.table (clusterIndex dir) i).name] := by
  generalize ROOT_CLUSTER_NUMBER = start at hroute ⊢
  induction route generalizing start with
  | nil =>
    rw [Slotted.follow_nil, Option.some.injEq] at hroute
    rw [hroute]
    rfl
  | cons j route ih =>
    rw [Slotted.follow_cons_eq_some_iff] at hroute
    rcases hroute with ⟨m, hchild, hroute⟩
    rw [graph_child_eq_some_iff] at hchild
    rw [List.cons_append, names, names, hchild.2.2, ih m hroute, List.cons_append]

section

variable (hwf : d.WellFormed)

include hwf

theorem clusterIndex_of_tree (hdir : d.Tree dir) : clusterIndex dir = dir.toNat := by
  have hbounds := hwf.directory_bounds ((tree_iff hwf).mp hdir)
  apply clusterIndex_of_lt
  omega

theorem live_of_lists (hdir : d.Tree dir) (hlists : d.Lists dir i) : d.Live (dir.toNat, i) := by
  have hlive := hlists.live
  rw [clusterIndex_of_tree hwf hdir] at hlive
  exact ⟨(tree_iff hwf).mp hdir, hlists.slot, hlive⟩

theorem child_of_lists (hdir : d.Tree dir) (hlists : d.Lists dir i)
    (hsub : (d.table (clusterIndex dir) i).attribute = ATTR_SUBDIRECTORY)
    : Child fat32 d.volume dir.toNat (d.table (clusterIndex dir) i).cluster_number.toNat := by
  refine ⟨i, live_of_lists hwf hdir hlists, ?_, ?_⟩
  . rw [clusterIndex_of_tree hwf hdir] at hsub
    exact hsub
  . rw [FAT32DirectoryEntry.toNat_cluster_number, clusterIndex_of_tree hwf hdir]
    rfl

theorem ne_root_of_lists (hdir : d.Tree dir) (hlists : d.Lists dir i)
    (hsub : (d.table (clusterIndex dir) i).attribute = ATTR_SUBDIRECTORY)
    : (d.table (clusterIndex dir) i).cluster_number ≠ ROOT_CLUSTER_NUMBER := by
  intro hroot
  have hchild := child_of_lists hwf hdir hlists hsub
  rw [hroot] at hchild
  exact hwf.not_child_root _ hchild

theorem lists_unique {dir' : UInt32} {i' : Fin 64} (hdir : d.Tree dir) (hlists : d.Lists dir i)
    (hsub : (d.table (clusterIndex dir) i).attribute = ATTR_SUBDIRECTORY) (hdir' : d.Tree dir')
    (hlists' : d.Lists dir' i')
    (hsub' : (d.table (clusterIndex dir') i').attribute = ATTR_SUBDIRECTORY)
    (heq : (d.table (clusterIndex dir') i').cluster_number
      = (d.table (clusterIndex dir) i).cluster_number)
    : dir' = dir ∧ i' = i := by
  have hs := live_of_lists hwf hdir hlists
  have hs' := live_of_lists hwf hdir' hlists'
  have heq := congrArg UInt32.toNat heq
  rw [FAT32DirectoryEntry.toNat_cluster_number, FAT32DirectoryEntry.toNat_cluster_number] at heq
  rw [clusterIndex_of_tree hwf hdir] at hsub heq
  rw [clusterIndex_of_tree hwf hdir'] at hsub' heq
  have hown := hwf.owns_dir hs hsub
  have hown' := hwf.owns_dir hs' hsub'
  have hmem : (d.table dir'.toNat i').cluster ∈ [(d.table dir.toNat i).cluster] := by
    rw [heq]
    exact List.mem_cons_self
  have hslot := hwf.eq_of_mem hs' hs hown' hown List.mem_cons_self hmem
  rw [Prod.mk.injEq, UInt32.toNat_inj] at hslot
  exact hslot

end

theorem Linked.entries (h : d.Linked) (hwf : d.WellFormed) (hdir : d.Tree dir)
    (hlists : d.Lists dir i)
    (hsub : (d.table (clusterIndex dir) i).attribute = ATTR_SUBDIRECTORY)
    : (d.table (clusterIndex (d.table (clusterIndex dir) i).cluster_number) 1).cluster_number = dir ∧
        (d.table (clusterIndex (d.table (clusterIndex dir) i).cluster_number) 0).name
          = (d.table (clusterIndex dir) i).name := by
  have hchild : d.Tree (d.table (clusterIndex dir) i).cluster_number := Tree.child hdir hlists hsub
  have hindex := clusterIndex_of_tree hwf hchild
  rw [FAT32DirectoryEntry.toNat_cluster_number] at hindex
  rw [hindex]
  rw [clusterIndex_of_tree hwf hdir] at hsub ⊢
  have hback := h (dir.toNat, i) (live_of_lists hwf hdir hlists) hsub
  refine ⟨?_, hback.2⟩
  apply UInt32.toNat_inj.mp
  rw [FAT32DirectoryEntry.toNat_cluster_number]
  exact hback.1

end

end Disk

namespace printDir

def shown (names : List (Fin 8 → UInt8)) : List (List UInt8 × UInt32) :=
  (names.map fun name => (name_chars name, 0xB)).intersperse (ascii "/", 0xB)

theorem names_apply (list : List (Fin 8 → UInt8)) (s : Shell)
    : printDir.names list s = some ((), s.put (shown list)) := by
  induction list generalizing s with
  | nil =>
    rw [shown, List.map_nil, List.intersperse_nil, Shell.put_nil]
    rfl
  | cons name list ih =>
    cases list with
    | nil => rfl
    | cons next list =>
      have hshown : shown (name :: next :: list)
          = [(name_chars name, 0xB)] ++ ([(ascii "/", 0xB)] ++ shown (next :: list)) := by
        rfl
      rw [hshown]
      unfold printDir.names
      apply prints_bind (printlen_apply _ _ s)
      intro s
      apply prints_bind (printlen_apply _ _ s)
      intro s
      exact ih s

theorem climb_root (rows : Nat) (tempDir : List (Fin 8 → UInt8)) (s : Shell)
    : printDir.climb rows ROOT_CLUSTER_NUMBER tempDir s = some (tempDir, s) := by
  unfold printDir.climb
  rw [if_pos rfl]
  rfl

theorem climb_succ {dir : UInt32} (hdir : dir ≠ ROOT_CLUSTER_NUMBER) (rows : Nat)
    (tempDir : List (Fin 8 → UInt8)) (s : Shell)
    : printDir.climb (rows + 1) dir tempDir s
        =
      printDir.climb rows (s.kernel.disk.table (clusterIndex dir) 1).cluster_number
        (tempDir ++ [(s.kernel.disk.table (clusterIndex dir) 0).name])
        (s.visit s.currentDirectory dir) := by
  conv => lhs; unfold printDir.climb
  rw [if_neg hdir]
  dsimp only
  rw [Fallible.bind_apply, updateDirectoryTable_apply, Option.bind_some, Fallible.get_bind_apply]
  rfl

theorem climb_zero {dir : UInt32} (hdir : dir ≠ ROOT_CLUSTER_NUMBER)
    (tempDir : List (Fin 8 → UInt8)) (s : Shell)
    : printDir.climb 0 dir tempDir s = none := by
  unfold printDir.climb
  rw [if_neg hdir]
  rfl

section

variable {d : Disk} (hwf : d.WellFormed) (hlinked : d.Linked)

include hwf hlinked

theorem climb_apply {route : List (Fin 64)} {rows : Nat} (hrows : route.length ≤ rows)
    {dir : UInt32} (hroute : d.graph.follow ROOT_CLUSTER_NUMBER route = some dir)
    (tempDir : List (Fin 8 → UInt8)) {s : Shell} (hd : s.kernel.disk = d)
    : ∃ table, printDir.climb rows dir tempDir s
        = some (tempDir ++ (d.names ROOT_CLUSTER_NUMBER route).reverse,
            { s with dirTable := table }) := by
  induction route using List.reverseRecOn generalizing rows dir tempDir s with
  | nil =>
    rw [Slotted.follow_nil, Option.some.injEq] at hroute
    refine ⟨s.dirTable, ?_⟩
    rw [← hroute, climb_root]
    simp [Disk.names]
  | append_singleton route i ih =>
    rw [Slotted.follow_concat_eq_some_iff] at hroute
    rcases hroute with ⟨parent, hroute, hchild⟩
    rw [Disk.graph_child_eq_some_iff] at hchild
    rcases hchild with ⟨hlists, hsub, rfl⟩
    have htree : d.Tree parent := Disk.tree_iff_follow.mpr ⟨route, hroute⟩
    have hentries := hlinked.entries hwf htree hlists hsub
    rw [List.length_append, List.length_singleton] at hrows
    cases rows with
    | zero => omega
    | succ rows =>
      rw [climb_succ (Disk.ne_root_of_lists hwf htree hlists hsub), hd, hentries.1, hentries.2]
      have hle : route.length ≤ rows := by omega
      have hrest := ih hle hroute (tempDir ++ [(d.table (clusterIndex parent) i).name])
        (s := s.visit s.currentDirectory (d.table (clusterIndex parent) i).cluster_number) hd
      rcases hrest with ⟨table, hrest⟩
      refine ⟨table, ?_⟩
      rw [hrest, Disk.names_concat hroute, List.reverse_append, List.append_assoc]
      rfl

theorem run_of_follow {route : List (Fin 64)} (hlen : route.length ≤ 32) {s : Shell}
    (hd : s.kernel.disk = d)
    (hroute : d.graph.follow ROOT_CLUSTER_NUMBER route = some s.currentDirectory)
    : ∃ table, printDir s
        = some ((), { s with dirTable := table }.put
            ([(ascii "/", 0xB)] ++
              (shown (d.names ROOT_CLUSTER_NUMBER route) ++ [(ascii "$ ", 0xF)]))) := by
  rcases climb_apply hwf hlinked hlen hroute [] (s := s.put [(ascii "/", 0xB)]) hd with
    ⟨table, hclimb⟩
  refine ⟨table, ?_⟩
  have hend : ∀ s : Shell, (printDir.names (d.names ROOT_CLUSTER_NUMBER route) >>= fun _ =>
      print "$ " 0xF) s
        = some ((), s.put
            (shown (d.names ROOT_CLUSTER_NUMBER route) ++ [(ascii "$ ", 0xF)])) := by
    intro s
    apply prints_bind (names_apply _ s)
    intro s
    apply printlen_apply
  unfold printDir print
  rw [Fallible.bind_apply, printlen_apply, Option.bind_some, Fallible.get_bind_apply,
    Fallible.bind_apply, Shell.put_currentDirectory, hclimb, Option.bind_some, List.nil_append,
    List.reverse_reverse, ← Shell.put_put]
  apply hend

end
end printDir

/--
In every tidy run, every directory but the root has in its entry 1 the one directory that lists it,
and in its entry 0 the name under which that does. So where the shell is at most 32 levels deep,
`printDir` shows the names from the root to its directory.
-/
theorem prompt_shows (s : FAT32DriverState × Disk)
    (h : driver.Reachable (fun s op => op.Tidy s) s)
    : (∀ dir, s.2.Tree dir → dir ≠ ROOT_CLUSTER_NUMBER → ∃ parent i, s.2.Tree parent ∧
        s.2.Lists parent i ∧
        (s.2.table (clusterIndex parent) i).attribute = ATTR_SUBDIRECTORY ∧
        (s.2.table (clusterIndex parent) i).cluster_number = dir ∧
        (s.2.table (clusterIndex dir) 1).cluster_number = parent ∧
        (s.2.table (clusterIndex dir) 0).name = (s.2.table (clusterIndex parent) i).name ∧
        ∀ parent' i', s.2.Tree parent' → s.2.Lists parent' i' →
          (s.2.table (clusterIndex parent') i').attribute = ATTR_SUBDIRECTORY →
          (s.2.table (clusterIndex parent') i').cluster_number = dir →
            parent' = parent ∧ i' = i) ∧
      ∀ (shell : Shell) route, shell.kernel.disk = s.2 →
        s.2.graph.follow ROOT_CLUSTER_NUMBER route = some shell.currentDirectory →
        route.length ≤ 32 →
          ∃ table, printDir shell
            = some ((), { shell with dirTable := table }.put
                ([(ascii "/", 0xB)] ++
                  (printDir.shown (s.2.names ROOT_CLUSTER_NUMBER route) ++
                    [(ascii "$ ", 0xF)]))) := by
  have htracked := Tracked.of_reachable h
  have hwf := htracked.steady.wellFormed
  constructor
  . intro dir hdir hroot
    cases hdir with
    | root => contradiction
    | @child parent i hparent hlists hsub =>
      have hentries := htracked.linked.entries hwf hparent hlists hsub
      refine ⟨parent, i, hparent, hlists, hsub, rfl, hentries.1, hentries.2, ?_⟩
      intro parent' i' hparent' hlists' hsub' heq
      exact Disk.lists_unique hwf hparent hlists hsub hparent' hlists' hsub' heq
  . intro shell route hd hroute hlen
    exact printDir.run_of_follow hwf htracked.linked hlen hd hroute

namespace stray

theorem tidy
    : driver.Reachable (fun s op => op.Tidy s)
        (⟨write.link [3] fresh.fat, write.new_table request fresh 2 [3]⟩, disk) := by
  apply reachable_write reachable_fresh _ Catalog.Directory.root (run_request fresh_driver)
  apply write.not_short_of_required_one
  decide

theorem follow_docs : disk.graph.follow ROOT_CLUSTER_NUMBER [2] = some 3 := by
  decide

theorem names_docs : disk.names ROOT_CLUSTER_NUMBER [2] = [request.name] := by
  decide

end stray

theorem prompt_shows_docs
    : ∃ table, printDir stray.shell
        = some ((), { stray.shell with dirTable := table }.put
            [(ascii "/", 0xB), (ascii "docs", 0xB), (ascii "$ ", 0xF)]) := by
  have hprompt := (prompt_shows _ stray.tidy).2 stray.shell [2] rfl stray.follow_docs (by decide)
  rcases hprompt with ⟨table, hrun⟩
  refine ⟨table, ?_⟩
  rw [hrun, stray.names_docs]
  have hname : name_chars stray.request.name = ascii "docs" := by decide
  have hshown : printDir.shown [stray.request.name] = [(ascii "docs", 0xB)] := by
    rw [← hname]
    rfl
  rw [hshown]
  rfl

end AiOS
