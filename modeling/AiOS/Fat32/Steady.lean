import AiOS.Fat32.Run

/-!
This module contains what runs keep in which `delete` may also remove directories that are not empty:
the file system stays well formed, and every table of a directory keeps what `write` and `delete` of
an entry keep.
-/

namespace AiOS

open Catalog

/--
What a step does to the table of a directory that is there after it, when `write` finds enough empty
clusters.
-/
inductive TableStep (d d' : Disk) : Operation → Nat → Prop where
  | kept {op : Operation} {p : Nat} : d.Directory p → d'.table p = d.table p → TableStep d d' op p
  | entered {memory : UInt32 → UInt8} {newDirectoryTable : FAT32DirectoryTable}
      {request : FAT32DriverRequest} {i : Fin 64} {cluster : UInt32} :
    d.Directory request.parent →
      (write.free_slots (d.table request.parent) write.slots).head? = some i →
      (∀ j ∈ write.slots, ¬ write.named (d.table request.parent) request j) →
      d'.table request.parent = Function.update (d.table request.parent) i
        (write.new_entry (d.table request.parent i) request cluster) →
        TableStep d d' (.write memory newDirectoryTable request) request.parent
  | founded {memory : UInt32 → UInt8} {newDirectoryTable : FAT32DirectoryTable}
      {request : FAT32DriverRequest} {p : Nat} :
    d.Directory request.parent_cluster_number.toNat →
      d'.table p = init_directory_table newDirectoryTable request.name
        request.parent_cluster_number →
        TableStep d d' (.write memory newDirectoryTable request) p
  | killed {dirTable : FAT32DirectoryTable} {request : FAT32DriverRequest} {i : Fin 64} :
    d.Directory request.parent → delete.searched request d = some i →
      d'.table request.parent = delete.dead_table request d i →
        TableStep d d' (.delete dirTable request) request.parent

namespace TableStep

variable {driver_state st : FAT32DriverState} {request : FAT32DriverRequest} {d d' : Disk}
  {code : Int} {p : Nat} (hwf : d.WellFormed)
  (hP : d.Directory request.parent_cluster_number.toNat)

include hwf hP

theorem of_write {memory : UInt32 → UInt8} {newDirectoryTable : FAT32DirectoryTable}
    (hshort : ¬ write.short request d)
    (hrun : (write driver_state memory newDirectoryTable request).run diskDevice d
      = some ((code, st), d'))
    (hp : d'.Directory p)
    : TableStep d d' (.write memory newDirectoryTable request) p := by
  have hroot := hP
  rw [← hwf.parent_eq hP] at hP
  cases write.run_cases _ _ _ _ _ hrun with
  | inl hfail =>
    rw [hfail.2.2] at hp ⊢
    exact .kept hp rfl
  | inr hcommit =>
    rcases hcommit with ⟨i, cs, _, hparent, hsearch, _, rfl⟩
    have hch := write.chosen_of_search hsearch
    have hnodup := write.nodup_of_not_short _ _ hparent hshort hsearch
    have henough := write.enough_of_not_short _ _ hparent hshort hsearch
    have hst := write.staged_of_chosen memory newDirectoryTable hch hwf hP hnodup
    have hnew := write.committed_of_chosen memory newDirectoryTable hch hwf hP hnodup
    have hins := hst.insert hch hwf hP hnodup hnew
    cases (hins.directory_iff p).mp hp with
    | inl hold =>
      by_cases heq : p = request.parent
      . rw [heq]
        apply TableStep.entered hP (write.search_of_enough _ _ henough hsearch).1
        . apply (write.search_isSome_iff request d).mp ⟨_, hsearch⟩
        . exact hnew.table
      . exact .kept hold (hst.table_of_ne hch hwf hold heq)
    | inr hdir =>
      have htable := hnew.table_first hch.ne_nil hdir.1
      have hfirst : p = ((write.committed memory newDirectoryTable request d i cs).table
          request.parent i).cluster := hdir.2
      rw [← hfirst] at htable
      exact .founded hroot htable

theorem directory_of_deleted {i : Fin 64} {cs : List (Fin 512)}
    (hp : (delete.deleted request d i d.fat cs).Directory p)
    : d.Directory p := by
  rw [← hwf.parent_eq hP] at hP
  have hbounds := hwf.directory_bounds hP
  have hst : delete.Staged request d i cs (delete.deleted request d i d.fat cs) :=
    delete.staged_deleted (by omega)
  apply Directory.of_live _ hp
  intro q j hq _ hlive
  have hq := hwf.directory_bounds hq
  apply hst.table_eq (by omega)
  intro heq
  rw [Prod.mk.injEq] at heq
  have hlive : ((delete.deleted request d i d.fat cs).table q j).user_attribute
      = UATTR_NOT_EMPTY := hlive
  rw [heq.1, heq.2] at hlive
  exact delete.deleted_not_live (by omega) hlive

theorem of_delete {dirTable : FAT32DirectoryTable} (hcache : driver_state.fat_table = d.fat)
    (hrun : (delete driver_state dirTable request).run diskDevice d = some ((code, st), d'))
    (hp : d'.Directory p)
    : TableStep d d' (.delete dirTable request) p := by
  cases delete.run_cases _ _ _ _ hrun with
  | inl hfail =>
    rw [hfail.2.2] at hp ⊢
    exact .kept hp rfl
  | inr hdelete =>
    rcases hdelete with ⟨i, cs, _, hsearched, _, _, _, rfl⟩
    rw [hcache] at hp ⊢
    have hold := directory_of_deleted hwf hP hp
    rw [← hwf.parent_eq hP] at hP
    have hbounds := hwf.directory_bounds hP
    by_cases heq : p = request.parent
    . rw [heq]
      exact .killed hP hsearched (delete.table_deleted (by omega))
    . have hp := hwf.directory_bounds hold
      refine .kept hold ?_
      apply Disk.table_congr
      apply (delete.staged_deleted (by omega)).cluster p (by omega) heq

end TableStep

namespace Operation

/--
`write` does not run short of clusters after its checks, and `delete` gives up or stops at an entry
from slot 2 on, or at the entry 1 of a directory the parent of which is the root.
-/
def Safe (s : FAT32DriverState × Disk) : Operation → Prop
  | .write _ _ request => ¬ write.short request s.2
  | .read _ => True
  | .read_directory _ => True
  | .delete dirTable request =>
    ∀ i, delete.searched request s.2 = some i → ¬ delete.refused dirTable request s.2 i →
      2 ≤ i.val ∨ (s.2.table request.parent i).cluster_low.toNat < 3

end Operation

/--
The entries 0 and 1 of a directory are directories, and the entry 1 leads into `cluster_map`.
-/
def FAT32DirectoryTable.Headed (table : FAT32DirectoryTable) : Prop :=
  ∀ j : Fin 64, j.val < 2 → (table j).attribute = ATTR_SUBDIRECTORY ∧
    (1 ≤ j.val → (table j).cluster_low.toNat < 512)

structure Steady (s : FAT32DriverState × Disk) : Prop where
  wellFormed : s.2.WellFormed
  cache : s.1.fat_table = s.2.fat
  headed : ∀ p, s.2.Directory p → (s.2.table p).Headed

namespace FAT32DirectoryTable.Headed

theorem of_init (dir_table : FAT32DirectoryTable) (name : Fin 8 → UInt8)
    {parent_dir_cluster : UInt32} (hparent : parent_dir_cluster.toNat < 512)
    : (init_directory_table dir_table name parent_dir_cluster).Headed := by
  intro j hj
  refine ⟨init_directory_table_of_lt _ _ _ hj, ?_⟩
  intro hone
  have heq : j = 1 := by omega
  have hlow : (init_directory_table dir_table name parent_dir_cluster 1).cluster_low
      = parent_dir_cluster.toUInt16 := rfl
  rw [heq, hlow, UInt32.toNat_toUInt16]
  omega

theorem update {table : FAT32DirectoryTable} {i : Fin 64} {entry : FAT32DirectoryEntry}
    (h : table.Headed) (hi : 2 ≤ i.val)
    : Headed (Function.update table i entry) := by
  intro j hj
  have hne : j ≠ i := by omega
  rw [Function.update_of_ne hne]
  apply h j hj

theorem update_dead_entry {table : FAT32DirectoryTable} {i : Fin 64} (h : table.Headed)
    : Headed (Function.update table i (delete.dead_entry (table i))) := by
  intro j hj
  by_cases heq : j = i
  . rw [heq] at hj ⊢
    rw [Function.update_self]
    exact h i hj
  . rw [Function.update_of_ne heq]
    apply h j hj

end FAT32DirectoryTable.Headed

namespace Steady

variable {s s' : FAT32DriverState × Disk} {op : Operation}

theorem of_create (h : driver.init s) : Steady s := by
  have hcoherent := Coherent.of_create h
  refine { wellFormed := hcoherent.wellFormed, cache := hcoherent.cache, headed := ?_ }
  rcases h with ⟨driver_state, after_literal, d, hrun⟩
  rw [create_fat32.run_create_fat32, Option.some.injEq] at hrun
  rw [← hrun]
  intro p hp
  rw [create_fat32.created_directory_iff] at hp
  rw [hp, create_fat32.created_table]
  apply FAT32DirectoryTable.Headed.of_init
  decide

theorem tableStep {p : Nat} (h : Steady s) (hok : op.Safe s) (hstep : driver.step s op s')
    (hp : s'.2.Directory p)
    : TableStep s.2 s'.2 op p := by
  rcases hstep with ⟨hP, code, hrun⟩
  cases op with
  | write memory newDirectoryTable request =>
    have hrun : (write s.1 memory newDirectoryTable request).run diskDevice s.2
        = some ((code, s'.1), s'.2) := hrun
    apply TableStep.of_write h.wellFormed hP hok hrun hp
  | read request =>
    have hcases := Operation.read_cases hrun
    rw [hcases.1] at hp ⊢
    exact .kept hp rfl
  | read_directory request =>
    have hcases := Operation.read_directory_cases hrun
    rw [hcases.1] at hp ⊢
    exact .kept hp rfl
  | delete dirTable request => apply TableStep.of_delete h.wellFormed hP h.cache hrun hp

theorem headed_of_step {p : Nat} (h : Steady s) (hok : op.Safe s) (hstep : driver.step s op s')
    (hp : s'.2.Directory p)
    : (s'.2.table p).Headed := by
  cases h.tableStep hok hstep hp with
  | kept hp htable =>
    rw [htable]
    apply h.headed p hp
  | entered hP hhead _ htable =>
    have hi := (write.mem_free_slots _ _).mp (List.mem_of_head? hhead)
    rw [htable]
    apply (h.headed _ hP).update hi.1
  | founded hP htable =>
    have hbounds := h.wellFormed.directory_bounds hP
    rw [htable]
    apply FAT32DirectoryTable.Headed.of_init
    omega
  | killed hP _ htable =>
    rw [htable]
    apply (h.headed _ hP).update_dead_entry

section

variable {driver_state st : FAT32DriverState} {request : FAT32DriverRequest} {d d' : Disk}
  {code : Int} (h : Steady (driver_state, d)) (hP : d.Directory request.parent)

include h hP

theorem wellFormed_of_write {memory : UInt32 → UInt8} {newDirectoryTable : FAT32DirectoryTable}
    (hshort : ¬ write.short request d)
    (hrun : (write driver_state memory newDirectoryTable request).run diskDevice d
      = some ((code, st), d'))
    : d'.WellFormed ∧ st.fat_table = d'.fat := by
  have hwf : d.WellFormed := h.wellFormed
  cases write.run_cases _ _ _ _ _ hrun with
  | inl hfail =>
    rw [hfail.2.1, hfail.2.2]
    exact ⟨hwf, rfl⟩
  | inr hcommit =>
    rcases hcommit with ⟨i, cs, _, hparent, hsearch, rfl, rfl⟩
    have hch := write.chosen_of_search hsearch
    have hnodup := write.nodup_of_not_short _ _ hparent hshort hsearch
    have hst := write.staged_of_chosen memory newDirectoryTable hch hwf hP hnodup
    have hnew := write.committed_of_chosen memory newDirectoryTable hch hwf hP hnodup
    exact ⟨hst.wellFormed hch hwf hP hnodup, hnew.fat.symm⟩

theorem wellFormed_of_delete {dirTable : FAT32DirectoryTable}
    (hsafe : ∀ i, delete.searched request d = some i → ¬ delete.refused dirTable request d i →
      2 ≤ i.val ∨ (d.table request.parent i).cluster_low.toNat < 3)
    (hrun : (delete driver_state dirTable request).run diskDevice d = some ((code, st), d'))
    : d'.WellFormed ∧ st.fat_table = d'.fat := by
  have hwf : d.WellFormed := h.wellFormed
  have hcache : driver_state.fat_table = d.fat := h.cache
  cases delete.run_cases _ _ _ _ hrun with
  | inl hfail =>
    rw [hfail.2.1, hfail.2.2]
    exact ⟨hwf, hcache⟩
  | inr hdelete =>
    rcases hdelete with ⟨i, cs, _, hsearched, hrefused, hcs, rfl, rfl⟩
    have hhit := delete.hit_of_searched _ _ hsearched
    rw [hcache] at hcs ⊢
    rw [delete.fat_deleted]
    refine ⟨?_, rfl⟩
    by_cases hi : 2 ≤ i.val
    . have hs : d.Live (request.parent, i) := ⟨hP, hi, hhit.2.1⟩
      have hown := delete.owns_of_freed hwf hs hcs
      exact (delete.remove_deleted hwf hs hown).wellFormed hwf
    . have hlow := (hsafe i hsearched hrefused).resolve_left hi
      have hdir := (h.headed _ hP i (by omega)).1
      have hfreed := delete.lt_of_freed hcs hdir hlow
      exact (delete.agrees_deleted hfreed hwf hP (by omega)).wellFormed hwf

end

theorem of_step (h : Steady s) (hok : op.Safe s) (hstep : driver.step s op s') : Steady s' := by
  have hheaded : ∀ p, s'.2.Directory p → (s'.2.table p).Headed :=
    fun p hp => h.headed_of_step hok hstep hp
  rcases s with ⟨driver_state, d⟩
  rcases s' with ⟨driver_state', d'⟩
  rcases hstep with ⟨hP, code, hrun⟩
  rw [← h.wellFormed.parent_eq hP] at hP
  dsimp only at hrun
  cases op with
  | write memory newDirectoryTable request =>
    have hwrite := h.wellFormed_of_write hP hok hrun
    exact { wellFormed := hwrite.1, cache := hwrite.2, headed := hheaded }
  | read request =>
    have hcases := Operation.read_cases hrun
    refine { wellFormed := ?_, cache := ?_, headed := hheaded }
    . rw [hcases.1]
      exact h.wellFormed
    . rw [hcases.1]
      exact hcases.2.elim (fun hold => hold.trans h.cache) id
  | read_directory request =>
    have hcases := Operation.read_directory_cases hrun
    refine { wellFormed := ?_, cache := ?_, headed := hheaded }
    . rw [hcases.1]
      exact h.wellFormed
    . rw [hcases.1]
      exact hcases.2.trans h.cache
  | delete dirTable request =>
    have hdelete := h.wellFormed_of_delete hP hok hrun
    exact { wellFormed := hdelete.1, cache := hdelete.2, headed := hheaded }

theorem of_reachable (h : driver.Reachable (fun s op => op.Safe s) s) : Steady s := by
  apply h.invariant
  . intro s hs
    apply of_create hs
  . intro s op s' hs hok hstep
    apply of_step hs hok hstep

end Steady

end AiOS
