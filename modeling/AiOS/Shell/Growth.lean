import AiOS.Shell.Prompt

/-!
This module contains what `mkdir` does to the tree, wherever the path leads: nothing, or a new
directory in one of the directories, from which the entry 1 leads back.
-/

namespace AiOS

open Catalog Fallible

/--
What `mkdir` keeps. The parent that a directory has in its entry 1 may be another number of the same
cluster, as `cluster_to_lba` drops the upper bits.
-/
structure Disk.Grown (d : Disk) : Prop where
  wellFormed : d.WellFormed
  reserved : d.fat 2 = FAT32_FAT_END_OF_FILE
  root : (d.table 2 1).cluster_number = ROOT_CLUSTER_NUMBER
  climbs : ∀ s, d.Live s → (d.entry s).attribute = ATTR_SUBDIRECTORY →
    clusterIndex (d.table (d.entry s).cluster 1).cluster_number = s.1

theorem Disk.not_parent_ok_fat {d : Disk} (h : d.fat 2 = FAT32_FAT_END_OF_FILE)
    : ¬ write.parent_ok (d.table 1) := by
  have hbyte : (d.table 1 0).attribute = LittleEndian.byte (d.fat 2).toNat 3 := by
    unfold Disk.fat FAT32FileAllocationTable.ofCluster
    rw [LittleEndian.byte_toUInt32_three]
    rfl
  intro hparent
  have hdir := hparent.2
  rw [hbyte, h] at hdir
  exact absurd hdir (by decide)

namespace write

variable {memory : UInt32 → UInt8} {newDirectoryTable : FAT32DirectoryTable}
  {request : FAT32DriverRequest} {d : Disk} {i : Fin 64} {cs : List (Fin 512)}

theorem cluster_committed {c : Nat} (hone : c ≠ 1) (hP : c ≠ request.parent) (hcs : c ∉ numbers cs)
    : (committed memory newDirectoryTable request d i cs).cluster c = d.cluster c := by
  unfold committed
  rw [Disk.cluster_writeCluster_of_ne _ _ hP, Disk.cluster_writeCluster_of_ne _ _ hone,
    Disk.cluster_writeClusters_of_not_mem hcs]

theorem fat_committed (hone : request.parent ≠ 1)
    : (committed memory newDirectoryTable request d i cs).fat = link cs d.fat := by
  unfold committed
  rw [Disk.fat_congr (Disk.cluster_writeCluster_of_ne _ _ hone.symm), Disk.fat_writeCluster]

section

variable (hch : Chosen request d i cs) (hwf : d.WellFormed)

include hch hwf

theorem table_committed_of_ne {q : Nat} (hq : d.Directory q) (hne : q ≠ request.parent)
    : (committed memory newDirectoryTable request d i cs).table q = d.table q := by
  apply Disk.table_congr
  apply cluster_committed (hwf.directory_ne_one hq) hne
  apply hwf.not_mem_of_fresh hq hch.isData
  intro s m hs hm
  apply hwf.disjoint_of_free hch.isFree hs hm

theorem head_committed {q : Nat} (hq : d.Directory q) {j : Fin 64} (hj : j.val < 2)
    : (committed memory newDirectoryTable request d i cs).table q j = d.table q j := by
  by_cases hne : q = request.parent
  . have hji : j ≠ i := by
      intro heq
      have hi := hch.slot
      rw [heq] at hj
      omega
    rw [hne, committed_table]
    apply Function.update_of_ne hji
  . rw [table_committed_of_ne hch hwf hq hne]

variable (memory newDirectoryTable) in
theorem agrees_committed (hone : request.parent ≠ 1) (hP : ¬ d.Directory request.parent)
    : Agrees fat32 d.volume (committed memory newDirectoryTable request d i cs).volume := by
  apply hwf.agrees_of_free hch.isData hch.isFree
  . intro q hq _
    apply table_committed_of_ne hch hwf hq
    intro heq
    rw [heq] at hq
    exact hP hq
  . intro c hc
    apply FAT32FileAllocationTable.next_congr _ hc
    intro j hj
    rw [fat_committed hone, link_of_not_mem hj]

end
end write

/--
What a `write` makes of the tree: nothing in it changes, or slot `i` of the directory `p` gets an
entry, with a directory that lists nothing if it is one.
-/
inductive Disk.Grows (d d' : Disk) : Option (Nat × Fin 64) → Prop where
  | same : Agrees fat32 d.volume d'.volume → Grows d d' none
  | insert {p : Nat} {i : Fin 64} {l : List Nat} :
    Insert fat32 d.volume d'.volume p i l → Grows d d' (some (p, i))

namespace Disk.Grown

variable {d : Disk} (h : d.Grown)

include h

theorem climbs_of_kept {d' : Disk} {s : Nat × Fin 64} (hs : d.Live s)
    (hentry : d'.entry s = d.entry s)
    (hhead : ∀ q j, d.Directory q → j.val < 2 → d'.table q j = d.table q j)
    (hdir : (d'.entry s).attribute = ATTR_SUBDIRECTORY)
    : clusterIndex (d'.table (d'.entry s).cluster 1).cluster_number = s.1 := by
  rw [hentry] at hdir ⊢
  have hchild : d.Directory (d.entry s).cluster := hs.child hdir
  rw [hhead _ 1 hchild (by decide)]
  exact h.climbs s hs hdir

variable {driver_state st : FAT32DriverState} {memory : UInt32 → UInt8}
  {newDirectoryTable : FAT32DirectoryTable} {request : FAT32DriverRequest} {d' : Disk} {code : Int}
  (hshort : ¬ write.short request d)
  (hrun : (write driver_state memory newDirectoryTable request).run diskDevice d
    = some ((code, st), d'))

include hshort hrun

theorem of_write
    : d'.Grown ∧ ∃ new, d.Grows d' new ∧
        ∀ s, new = some s → s.1 = request.parent ∧ write.empty_clusters d.fat ≠ [] := by
  have hwf := h.wellFormed
  cases write.run_cases _ _ _ _ _ hrun with
  | inl hfail =>
    rw [hfail.2.2]
    refine ⟨h, none, .same ⟨fun _ _ _ _ => rfl, fun _ _ _ _ _ _ => rfl⟩, ?_⟩
    intro s hs
    contradiction
  | inr hcommit =>
    rcases hcommit with ⟨i, cs, _, hparent, hsearch, _, rfl⟩
    have hch := write.chosen_of_search hsearch
    have hnodup := write.nodup_of_not_short _ _ hparent hshort hsearch
    have hone : request.parent ≠ 1 := by
      intro heq
      rw [heq] at hparent
      exact Disk.not_parent_ok_fat h.reserved hparent
    have htwo : (2 : Fin 512) ∉ cs := by
      intro hmem
      have := hch.data 2 hmem
      contradiction
    have hreserved : (write.committed memory newDirectoryTable request d i cs).fat 2
        = FAT32_FAT_END_OF_FILE := by
      rw [write.fat_committed hone, write.link_of_not_mem htwo, h.reserved]
    have hhead : ∀ q j, d.Directory q → j.val < 2 →
        (write.committed memory newDirectoryTable request d i cs).table q j = d.table q j :=
      fun q j hq hj => write.head_committed hch hwf hq hj
    have hroot : ((write.committed memory newDirectoryTable request d i cs).table 2 1).cluster_number
        = ROOT_CLUSTER_NUMBER := by
      rw [hhead 2 1 Directory.root (by decide), h.root]
    by_cases hP : d.Directory request.parent
    . have hst := write.staged_of_chosen memory newDirectoryTable hch hwf hP hnodup
      have hnew := write.committed_of_chosen memory newDirectoryTable hch hwf hP hnodup
      have hins := hst.insert hch hwf hP hnodup hnew
      refine ⟨⟨hins.wellFormed hwf, hreserved, hroot, ?_⟩, some (request.parent, i), .insert hins, ?_⟩
      . intro s hs hdir
        cases (hins.live_iff s).mp hs with
        | inl hold => exact h.climbs_of_kept hold (hins.entry_eq hold) hhead hdir
        | inr hnewest =>
          rw [hnewest] at hdir ⊢
          rw [hnew.table_first hch.ne_nil hdir]
          have hback : (init_directory_table newDirectoryTable request.name
              request.parent_cluster_number 1).cluster_number = request.parent_cluster_number := by
            apply UInt32.toNat_inj.mp
            rw [FAT32DirectoryEntry.toNat_cluster_number]
            exact write.toNat_cluster_high_low _
          rw [hback]
          rfl
      . intro s hs
        rw [Option.some.injEq] at hs
        rw [← hs]
        refine ⟨rfl, ?_⟩
        rcases List.exists_mem_of_ne_nil _ hch.ne_nil with ⟨c, hc⟩
        apply List.ne_nil_of_mem (a := c)
        rw [write.mem_empty_clusters]
        exact ⟨hch.data c hc, hch.empty c hc⟩
    . have hagrees := write.agrees_committed memory newDirectoryTable hch hwf hone hP
      refine ⟨⟨hagrees.wellFormed hwf, hreserved, hroot, ?_⟩, none, .same hagrees, ?_⟩
      . intro s hs hdir
        have hold := (hagrees.live_iff s).mp hs
        exact h.climbs_of_kept hold (hagrees.entry_eq hold) hhead hdir
      . intro s hs
        contradiction

end Disk.Grown

namespace Disk.Grows

variable {d d' : Disk} {new : Option (Nat × Fin 64)} {dir m : UInt32} {route : List (Fin 64)}
  {i : Fin 64}

theorem graph_child_congr
    (h : 2 ≤ i.val → d'.table (clusterIndex dir) i = d.table (clusterIndex dir) i)
    : d'.graph.child dir i = d.graph.child dir i := by
  unfold graph
  dsimp only
  by_cases hi : 2 ≤ i.val
  . rw [h hi]
  . rw [if_neg (fun hcond => hi hcond.1), if_neg (fun hcond => hi hcond.1)]

variable (hwf : d.WellFormed) (h : d.Grows d' new)

include hwf h

theorem child_eq (hdir : d.Tree dir) (hne : new ≠ some (dir.toNat, i))
    : d'.graph.child dir i = d.graph.child dir i := by
  apply graph_child_congr
  rw [clusterIndex_of_tree hwf hdir]
  intro hi
  have hdirectory := (tree_iff hwf).mp hdir
  cases h with
  | same hagrees => exact hagrees.table _ i hdirectory hi
  | insert hins =>
    apply hins.table _ i hdirectory hi
    intro heq
    exact hne (congrArg some heq.symm)

theorem follow (hroute : d.graph.follow ROOT_CLUSTER_NUMBER route = some dir)
    : d'.graph.follow ROOT_CLUSTER_NUMBER route = some dir := by
  induction route using List.reverseRecOn generalizing dir with
  | nil => exact hroute
  | append_singleton route i ih =>
    rw [Slotted.follow_concat_eq_some_iff] at hroute ⊢
    rcases hroute with ⟨parent, hparent, hchild⟩
    refine ⟨parent, ih hparent, ?_⟩
    have htree : d.Tree parent := tree_iff_follow.mpr ⟨route, hparent⟩
    have hlists := (graph_child_eq_some_iff.mp hchild).1
    rw [h.child_eq hwf htree, hchild]
    intro heq
    cases h with
    | same _ => contradiction
    | insert hins =>
      rw [Option.some.injEq] at heq
      have hlive := (live_of_lists hwf htree hlists).live
      unfold Volume.entry at hlive
      rw [Prod.mk.injEq] at heq
      rw [← heq.1, ← heq.2] at hlive
      exact hins.dead hlive

theorem follow_cases (hwf' : d'.WellFormed)
    (hroute : d'.graph.follow ROOT_CLUSTER_NUMBER route = some dir)
    : d.graph.follow ROOT_CLUSTER_NUMBER route = some dir ∨
        ∃ above parent i, route = above ++ [i] ∧
          d.graph.follow ROOT_CLUSTER_NUMBER above = some parent ∧
          new = some (parent.toNat, i) ∧ d'.graph.child parent i = some dir := by
  induction route using List.reverseRecOn generalizing dir with
  | nil => exact Or.inl hroute
  | append_singleton route i ih =>
    rw [Slotted.follow_concat_eq_some_iff] at hroute
    rcases hroute with ⟨parent, hparent, hchild⟩
    cases ih hparent with
    | inl hold =>
      by_cases hnew : new = some (parent.toNat, i)
      . exact Or.inr ⟨route, parent, i, rfl, hold, hnew, hchild⟩
      . left
        rw [h.child_eq hwf (tree_iff_follow.mpr ⟨route, hold⟩) hnew] at hchild
        rw [Slotted.follow_concat_eq_some_iff]
        exact ⟨parent, hold, hchild⟩
    | inr hnew =>
      -- nothing is listed in the new directory
      rcases hnew with ⟨above, grandparent, i', _, habove, heq, hparent'⟩
      have htree' : d'.Tree parent := tree_iff_follow.mpr ⟨route, hparent⟩
      have hgrand : d.Tree grandparent := tree_iff_follow.mpr ⟨above, habove⟩
      rw [graph_child_eq_some_iff] at hparent' hchild
      rw [clusterIndex_of_tree hwf hgrand] at hparent'
      have hindex := clusterIndex_of_tree hwf' htree'
      rw [← hparent'.2.2, FAT32DirectoryEntry.toNat_cluster_number] at hindex
      cases h with
      | same _ => contradiction
      | insert hins =>
        rw [Option.some.injEq, Prod.mk.injEq] at heq
        rw [← heq.1, ← heq.2] at hparent' hindex
        have hlive := hchild.1.live
        rw [← hparent'.2.2, hindex] at hlive
        exact absurd hlive (hins.empty hparent'.2.1 i hchild.1.slot)

end Disk.Grows

namespace Shell

def pop (s : Shell) : Shell :=
  { s with stack := fun n => s.stack (n + 1) }

@[simp]
theorem pop_kernel (s : Shell) : s.pop.kernel = s.kernel := by
  rfl

def drive (s : Shell) (driver_state : FAT32DriverState) (disk : Disk) : Shell :=
  { s with
    kernel := { s.kernel with disk := disk }
    driver_state := driver_state }

theorem write_apply (memory : UInt32 → UInt8) (request : FAT32DriverRequest) (s : Shell)
    : Shell.write memory request s
        =
      ((AiOS.write s.driver_state memory (s.stack 0).newDirectoryTable request).run diskDevice
        s.kernel.disk).map fun r => (r.1.1, s.pop.drive r.1.2 r.2) := by
  have htake : uninitialised s = some (s.stack 0, s.pop) := rfl
  unfold Shell.write
  rw [Fallible.get_bind_apply, Fallible.bind_apply, htake, Option.bind_some, Fallible.bind_apply,
    onDisk_apply]
  dsimp only
  rw [pop_kernel]
  cases (AiOS.write s.driver_state memory (s.stack 0).newDirectoryTable request).run diskDevice
      s.kernel.disk with
  | none => rfl
  | some r => rfl

end Shell

theorem mkdir.request_apply (argv : Argv) (s : Shell)
    : mkdir.request argv s
        =
      (parsePath (argv.row 1)).bind fun parsed =>
        (bytes 8 (parsed.1.row (parsed.2 - 1))).map fun name =>
          ({ (s.stack 0).request with
              name := name
              buffer_size := 0
              parent_cluster_number := s.currentDirectory }, s.pop) := by
  have htake : uninitialised s = some (s.stack 0, s.pop) := rfl
  unfold mkdir.request
  rw [Fallible.ofOption_bind_apply]
  cases parsePath (argv.row 1) with
  | none => rfl
  | some parsed =>
    rw [Option.bind_some, Option.bind_some]
    dsimp only
    rw [Fallible.bind_apply, htake, Option.bind_some, Fallible.ofOption_bind_apply]
    cases bytes 8 (parsed.1.row (parsed.2 - 1)) with
    | none => rfl
    | some name => rfl

/--
`mkdir` leaves the disk alone, or it lets the shell's driver write a directory into the one in which
`cd` ends.
-/
theorem mkdir_cases {argv : Argv} {argc : Nat} {s s' : Shell} {code : Int}
    (h : mkdir argv argc s = some (code, s'))
    : s'.kernel.disk = s.kernel.disk ∨
        (argc = 2 ∧ ∃ t request newDirectoryTable code' st, cd argv 2 false s = some (0, t) ∧
          request.buffer_size = 0 ∧ request.parent_cluster_number = t.currentDirectory ∧
          (write s.driver_state (fun _ => 0) newDirectoryTable request).run diskDevice s.kernel.disk
            = some ((code', st), s'.kernel.disk)) := by
  have hrefused : ∀ text, (do print text 0xF; return -2 : ShellM Int) s = some (code, s') →
      s'.kernel.disk = s.kernel.disk := by
    intro text hrun
    unfold print at hrun
    rw [Fallible.bind_apply, printlen_apply, Option.bind_some, Fallible.pure_apply,
      Option.some.injEq, Prod.mk.injEq] at hrun
    rw [← hrun.2]
    rfl
  unfold mkdir at h
  split at h
  . exact Or.inl (hrefused _ h)
  . split at h
    . exact Or.inl (hrefused _ h)
    . have hargc : argc = 2 := by omega
      subst hargc
      rw [Fallible.get_bind_apply, Fallible.bind_eq_some_iff] at h
      rcases h with ⟨retval, t, hcd, h⟩
      have hvisit := hcd
      rw [cd_apply (Nat.le_refl 2), Option.map_eq_some_iff] at hvisit
      rcases hvisit with ⟨outcome, _, heq⟩
      rw [Prod.mk.injEq] at heq
      have hkernel : t.kernel = s.kernel := by
        rw [← heq.2]
        rfl
      have hdriver : t.driver_state = s.driver_state := by
        rw [← heq.2]
        rfl
      split at h
      . left
        rw [Fallible.pure_apply, Option.some.injEq, Prod.mk.injEq] at h
        rw [← h.2, hkernel]
      . next hzero =>
        right
        rw [not_not] at hzero
        rw [Fallible.bind_eq_some_iff] at h
        rcases h with ⟨request, u, hrequest, h⟩
        rw [mkdir.request_apply, Option.bind_eq_some_iff] at hrequest
        rcases hrequest with ⟨parsed, _, hrequest⟩
        rw [Option.map_eq_some_iff] at hrequest
        rcases hrequest with ⟨name, _, hrequest⟩
        rw [Prod.mk.injEq] at hrequest
        rw [Fallible.bind_eq_some_iff] at h
        rcases h with ⟨code', v, hwrite, h⟩
        rw [Shell.write_apply, Option.map_eq_some_iff] at hwrite
        rcases hwrite with ⟨⟨⟨code'', st⟩, d'⟩, hrun, hv⟩
        rw [Prod.mk.injEq] at hv
        rw [Fallible.bind_eq_some_iff] at h
        rcases h with ⟨_, w, hset, h⟩
        rw [setCurrentDirectory_apply, Option.some.injEq, Prod.mk.injEq] at hset
        rw [Fallible.pure_apply, Option.some.injEq, Prod.mk.injEq] at h
        have hdisk : s'.kernel.disk = d' := by
          rw [← h.2, ← hset.2, ← hv.2]
          rfl
        refine ⟨rfl, t, request, (t.pop.stack 0).newDirectoryTable, code'', st, ?_, ?_, ?_, ?_⟩
        . rw [hcd, hzero]
        . rw [← hrequest.1]
        . rw [← hrequest.1]
        . rw [← hrequest.2, Shell.pop_kernel, hkernel] at hrun
          rw [hdisk, ← hdriver]
          exact hrun

section

variable {absolute : Bool} {words : List (List UInt8)} (h : Spellable absolute words)
  {argv : Argv} (hargv : argv.Holds (spell absolute words)) {s : Shell}

include h hargv

theorem parsePath_of_holds
    : ∃ pathList, parsePath (argv.row 1) = some (pathList, words.length) ∧
        bytes 8 (pathList.row (words.length - 1))
          = some (entry_name (words.getLast h.ne_nil)) := by
  rcases hargv with ⟨rest, hrow⟩
  have hpos := List.length_pos_iff.mpr h.ne_nil
  refine ⟨_, by rw [hrow, h.parsePath_spell], ?_⟩
  rw [h.bytes_row (by omega), List.getLast_eq_getElem]

theorem mkdir.run_of_inl {dir : UInt32}
    (hdir : Walk.follow s.kernel.disk.look (cd.origin absolute s) (words.dropLast.map entry_name)
      = .inl dir)
    : ∃ request newDirectoryTable, request.name = entry_name (words.getLast h.ne_nil) ∧
        request.buffer_size = 0 ∧ request.parent_cluster_number = dir ∧ ∀ code st d',
          (write s.driver_state (fun _ => 0) newDirectoryTable request).run diskDevice s.kernel.disk
            = some ((code, st), d') →
          ∃ s', mkdir argv 2 s = some (code, s') ∧ s'.kernel.disk = d' ∧
            s'.currentDirectory = s.currentDirectory := by
  rcases parsePath_of_holds h hargv with ⟨pathList, hparse, hname⟩
  have hcd : cd argv 2 false s = some (0, s.visit dir dir) := cd.run_of_inl h hargv hdir
  refine ⟨{ (s.stack 0).request with
    name := entry_name (words.getLast h.ne_nil)
    buffer_size := 0
    parent_cluster_number := dir }, (s.stack 1).newDirectoryTable, rfl, rfl, rfl, ?_⟩
  intro code st d' hrun
  generalize hrequest : ({ (s.stack 0).request with
    name := entry_name (words.getLast h.ne_nil)
    buffer_size := 0
    parent_cluster_number := dir } : FAT32DriverRequest) = request at hrun
  have htake : mkdir.request argv (s.visit dir dir) = some (request, (s.visit dir dir).pop) := by
    rw [mkdir.request_apply, hparse, Option.bind_some]
    dsimp only
    rw [hname, Option.map_some, ← hrequest]
    rfl
  have hwrite : Shell.write (fun _ => 0) request (s.visit dir dir).pop
      = some (code, (s.visit dir dir).pop.pop.drive st d') := by
    rw [Shell.write_apply]
    have hrun' : (AiOS.write (s.visit dir dir).pop.driver_state (fun _ => 0)
        ((s.visit dir dir).pop.stack 0).newDirectoryTable request).run diskDevice
          (s.visit dir dir).pop.kernel.disk = some ((code, st), d') := hrun
    rw [hrun']
    rfl
  refine ⟨{ (s.visit dir dir).pop.pop.drive st d' with currentDirectory := s.currentDirectory }, ?_,
    rfl, rfl⟩
  unfold mkdir
  rw [if_neg (by decide), if_neg (by decide), get_bind_apply, bind_apply, hcd, Option.bind_some]
  dsimp only
  rw [if_neg (by simp), bind_apply, htake, Option.bind_some, bind_apply, hwrite, Option.bind_some,
    bind_apply, setCurrentDirectory_apply, Option.bind_some]
  rfl

end

namespace write

theorem length_empty_clusters_link {fat_table : FAT32FileAllocationTable} {c : Fin 512}
    (hc : c ∈ empty_clusters fat_table)
    : (empty_clusters (link [c] fat_table)).length + 1 = (empty_clusters fat_table).length := by
  have hnodup : (empty_clusters fat_table).Nodup :=
    (pairwise_empty_clusters fat_table).imp fun hlt => ne_of_lt hlt
  have herase : empty_clusters (link [c] fat_table) = (empty_clusters fat_table).erase c := by
    rw [hnodup.erase_eq_filter]
    unfold empty_clusters
    rw [List.filter_filter]
    apply List.filter_congr
    intro j _
    by_cases hj : j = c
    . have hend : ¬ FAT32_FAT_END_OF_FILE = FAT32_FAT_EMPTY_ENTRY := by decide
      rw [hj]
      simp [link, hend]
    . rw [link_of_not_mem (by simpa using hj)]
      simp [hj]
  rw [herase, List.length_erase_of_mem hc]
  have := List.length_pos_of_mem hc
  omega

theorem exists_search {request : FAT32DriverRequest} {d : Disk}
    (hsize : request.buffer_size = 0)
    (hdead : ∀ i : Fin 64, 2 ≤ i.val →
      (d.table request.parent i).user_attribute ≠ UATTR_NOT_EMPTY)
    (hempty : empty_clusters d.fat ≠ [])
    : ∃ i c, search request d = some ⟨some i, [c]⟩ := by
  have hrequired := required_clusters_of_zero request hsize
  have hnames : ∀ i ∈ slots, ¬ named (d.table request.parent) request i := by
    intro i hi hnamed
    exact hdead i ((mem_slots i).mp hi) hnamed.1
  rcases (search_isSome_iff request d).mpr hnames with ⟨⟨slot, cs⟩, hsearch⟩
  cases slot with
  | none =>
    have hlt := lt_of_search_none _ _ hsearch
    have hfree : 2 ∈ free_slots (d.table request.parent) slots :=
      (mem_free_slots _ _).mpr ⟨Nat.le_refl 2, hdead 2 (Nat.le_refl 2)⟩
    have hpos := Nat.mul_pos (List.length_pos_iff.mpr hempty) (List.length_pos_of_mem hfree)
    rw [hrequired] at hlt
    omega
  | some i =>
    have hlen := length_of_search _ _ hsearch
    rw [hrequired, List.length_eq_one_iff] at hlen
    rcases hlen with ⟨c, rfl⟩
    exact ⟨i, c, hsearch⟩

end write

end AiOS
