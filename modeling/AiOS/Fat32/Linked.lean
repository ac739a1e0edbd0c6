import AiOS.Fat32.Steady

/-!
This module contains that the entries 0 and 1 of the directories lead back up the tree: in every run
in which `write` does not run short of clusters and `delete` stops from slot 2 on, they have the name
and the cluster with which a directory was made.
-/

namespace AiOS

open Catalog

/--
Every directory has the cluster of the directory that lists it in its entry 1, and the name under
which that lists it in its entry 0.
-/
def Disk.Linked (d : Disk) : Prop :=
  ∀ s, d.Live s → (d.entry s).attribute = ATTR_SUBDIRECTORY →
    (d.table (d.entry s).cluster 1).cluster = s.1 ∧
      (d.table (d.entry s).cluster 0).name = (d.entry s).name

namespace Disk.Linked

variable {d d' : Disk} (h : d.Linked)

include h

theorem of_kept {s : Nat × Fin 64} (hs : d.Live s) (hentry : d'.entry s = d.entry s)
    (htable : ∀ j : Fin 64, j.val < 2 →
      d'.table (d.entry s).cluster j = d.table (d.entry s).cluster j)
    (hdir : (d'.entry s).attribute = ATTR_SUBDIRECTORY)
    : (d'.table (d'.entry s).cluster 1).cluster = s.1 ∧
        (d'.table (d'.entry s).cluster 0).name = (d'.entry s).name := by
  rw [hentry] at hdir ⊢
  rw [htable 0 (by decide), htable 1 (by decide)]
  exact h s hs hdir

theorem of_committed {memory : UInt32 → UInt8} {newDirectoryTable : FAT32DirectoryTable}
    {request : FAT32DriverRequest} {i : Fin 64} {cs : List (Fin 512)} (hwf : d.WellFormed)
    (hP : d.Directory request.parent)
    (hroot : request.parent = request.parent_cluster_number.toNat)
    (hch : write.Chosen request d i cs) (hnodup : cs.Nodup)
    : (write.committed memory newDirectoryTable request d i cs).Linked := by
  have hst := write.staged_of_chosen memory newDirectoryTable hch hwf hP hnodup
  have hnew := write.committed_of_chosen memory newDirectoryTable hch hwf hP hnodup
  have hins := hst.insert hch hwf hP hnodup hnew
  intro s hs hdir
  cases (hins.live_iff s).mp hs with
  | inl hold =>
    have hentry : (write.committed memory newDirectoryTable request d i cs).entry s = d.entry s :=
      hins.entry_eq hold
    apply h.of_kept hold hentry _ hdir
    intro j hj
    rw [hentry] at hdir
    have hchild : d.Directory (d.entry s).cluster := hold.child hdir
    have hslot : ((d.entry s).cluster, j) ≠ (request.parent, i) := by
      intro heq
      have hi := hch.slot
      rw [Prod.mk.injEq] at heq
      rw [heq.2] at hj
      omega
    exact hst.table_eq hch hwf hchild hslot
  | inr hnewest =>
    rw [hnewest] at hdir ⊢
    have htable := hnew.table_first hch.ne_nil hdir
    have hname := congrArg FAT32DirectoryEntry.name hnew.entry_eq
    rw [write.new_entry_name] at hname
    rw [htable]
    constructor
    . exact (write.toNat_cluster_high_low _).trans hroot.symm
    . exact hname.symm

theorem of_deleted {request : FAT32DriverRequest} {i : Fin 64} {cs : List (Fin 512)}
    (hwf : d.WellFormed) (hs : d.Live (request.parent, i))
    (hcs : delete.freed d.fat (d.table request.parent i) = some cs)
    : (delete.deleted request d i d.fat cs).Linked := by
  have hone := hwf.directory_ne_one hs.dir
  have hrem := delete.remove_deleted hwf hs (delete.owns_of_freed hwf hs hcs)
  intro t ht hdir
  have hold := hrem.live_of ht
  have hentry : (delete.deleted request d i d.fat cs).entry t = d.entry t :=
    hrem.entry_eq hold (hrem.ne_of_live ht)
  apply h.of_kept hold hentry _ hdir
  intro j hj
  rw [hentry] at hdir
  have hchild := hwf.directory_ne_one (hold.child hdir)
  have hslot : ((d.entry t).cluster, j) ≠ (request.parent, i) := by
    intro heq
    have hi : 2 ≤ i.val := hs.slot
    rw [Prod.mk.injEq] at heq
    rw [heq.2] at hj
    omega
  exact (delete.staged_deleted hone).table_eq hchild hslot

end Disk.Linked

namespace Operation

/--
`write` does not run short of clusters after its checks, and `delete` finds nothing or stops at an
entry from slot 2 on.
-/
def Tidy (s : FAT32DriverState × Disk) : Operation → Prop
  | .write _ _ request => ¬ write.short request s.2
  | .read _ => True
  | .read_directory _ => True
  | .delete _ request => ∀ i, delete.searched request s.2 = some i → 2 ≤ i.val

theorem Tidy.safe {s : FAT32DriverState × Disk} {op : Operation} (h : op.Tidy s) : op.Safe s := by
  cases op with
  | write memory newDirectoryTable request => exact h
  | read request => trivial
  | read_directory request => trivial
  | delete dirTable request =>
    intro i hsearched _
    exact Or.inl (h i hsearched)

end Operation

structure Tracked (s : FAT32DriverState × Disk) : Prop where
  steady : Steady s
  linked : s.2.Linked

namespace Tracked

variable {s s' : FAT32DriverState × Disk} {op : Operation}

theorem of_create (h : driver.init s) : Tracked s := by
  refine { steady := Steady.of_create h, linked := ?_ }
  rcases h with ⟨driver_state, after_literal, d, hrun⟩
  rw [create_fat32.run_create_fat32, Option.some.injEq] at hrun
  rw [← hrun]
  intro t ht
  exact absurd ht (create_fat32.not_created_live _ _ _ t)

theorem of_step (h : Tracked s) (hok : op.Tidy s) (hstep : driver.step s op s') : Tracked s' := by
  refine { steady := h.steady.of_step hok.safe hstep, linked := ?_ }
  have hwf := h.steady.wellFormed
  have hcache := h.steady.cache
  have hlinked := h.linked
  rcases s with ⟨driver_state, d⟩
  rcases s' with ⟨driver_state', d'⟩
  rcases hstep with ⟨hP, code, hrun⟩
  have hparent := hwf.parent_eq hP
  rw [← hparent] at hP
  dsimp only at *
  cases op with
  | write memory newDirectoryTable request =>
    have hrun : (write driver_state memory newDirectoryTable request).run diskDevice d
        = some ((code, driver_state'), d') := hrun
    cases write.run_cases _ _ _ _ _ hrun with
    | inl hfail =>
      rw [hfail.2.2]
      exact hlinked
    | inr hcommit =>
      rcases hcommit with ⟨i, cs, _, hparent_ok, hsearch, _, rfl⟩
      have hch := write.chosen_of_search hsearch
      have hnodup := write.nodup_of_not_short _ _ hparent_ok hok hsearch
      exact hlinked.of_committed hwf hP hparent hch hnodup
  | read request =>
    rw [(Operation.read_cases hrun).1]
    exact hlinked
  | read_directory request =>
    rw [(Operation.read_directory_cases hrun).1]
    exact hlinked
  | delete dirTable request =>
    have hrun : (delete driver_state dirTable request).run diskDevice d
        = some ((code, driver_state'), d') := hrun
    cases delete.run_cases _ _ _ _ hrun with
    | inl hfail =>
      rw [hfail.2.2]
      exact hlinked
    | inr hdelete =>
      rcases hdelete with ⟨i, cs, _, hsearched, _, hcs, _, rfl⟩
      have hhit := delete.hit_of_searched _ _ hsearched
      rw [hcache] at hcs ⊢
      exact hlinked.of_deleted hwf ⟨hP, hok i hsearched, hhit.2.1⟩ hcs

theorem of_reachable (h : driver.Reachable (fun s op => op.Tidy s) s) : Tracked s := by
  apply h.invariant
  . intro s hs
    apply of_create hs
  . intro s op s' hs hok hstep
    apply of_step hs hok hstep

end Tracked

def FAT32DirectoryTable.Dotted (table : FAT32DirectoryTable) : Prop :=
  (table 1).name 0 = 0x2E ∧ (table 1).name 1 = 0x2E ∧ (table 1).name 2 = 0

namespace FAT32DirectoryTable.Dotted

theorem of_init (dir_table : FAT32DirectoryTable) (name : Fin 8 → UInt8)
    (parent_dir_cluster : UInt32)
    : (init_directory_table dir_table name parent_dir_cluster).Dotted :=
  ⟨rfl, rfl, rfl⟩

theorem update {table : FAT32DirectoryTable} {i : Fin 64} {entry : FAT32DirectoryEntry}
    (h : table.Dotted) (hi : 2 ≤ i.val)
    : Dotted (Function.update table i entry) := by
  have hne : (1 : Fin 64) ≠ i := by
    intro heq
    rw [← heq] at hi
    contradiction
  unfold Dotted
  rw [Function.update_of_ne hne]
  exact h

theorem of_step {s s' : FAT32DriverState × Disk} {op : Operation}
    (h : ∀ p, s.2.Directory p → (s.2.table p).Dotted) (hsteady : Steady s) (hok : op.Tidy s)
    (hstep : driver.step s op s') {p : Nat} (hp : s'.2.Directory p)
    : (s'.2.table p).Dotted := by
  cases hsteady.tableStep hok.safe hstep hp with
  | kept hp htable =>
    rw [htable]
    apply h p hp
  | entered hP hhead _ htable =>
    have hi := (write.mem_free_slots _ _).mp (List.mem_of_head? hhead)
    rw [htable]
    apply (h _ hP).update hi.1
  | founded _ htable =>
    rw [htable]
    apply of_init
  | killed hP hsearched htable =>
    rw [htable]
    apply (h _ hP).update (hok _ hsearched)

theorem of_reachable {s : FAT32DriverState × Disk}
    (h : driver.Reachable (fun s op => op.Tidy s) s) {p : Nat} (hp : s.2.Directory p)
    : (s.2.table p).Dotted := by
  have hinv : Tracked s ∧ ∀ p, s.2.Directory p → (s.2.table p).Dotted := by
    apply h.invariant
    . intro s hs
      refine ⟨Tracked.of_create hs, ?_⟩
      rcases hs with ⟨driver_state, after_literal, d, hrun⟩
      rw [create_fat32.run_create_fat32, Option.some.injEq] at hrun
      rw [← hrun]
      intro p hp
      rw [create_fat32.created_directory_iff] at hp
      rw [hp, create_fat32.created_table]
      apply of_init
    . intro s op s' hs hok hstep
      refine ⟨hs.1.of_step hok hstep, ?_⟩
      intro p hp
      exact of_step hs.2 hs.1.steady hok hstep hp
  exact hinv.2 p hp

end FAT32DirectoryTable.Dotted

end AiOS
