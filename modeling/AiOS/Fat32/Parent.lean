import AiOS.Fat32.Remount

/-!
This module contains which requests `write` and `delete` turn away for their parent: those whose
parent does not look like a directory, whatever the parent is.
-/

namespace AiOS

namespace write

variable (driver_state : FAT32DriverState) (memory : UInt32 → UInt8)
  (newDirectoryTable : FAT32DirectoryTable) (request : FAT32DriverRequest) (d : Disk)

/--
`write` takes the parent for invalid and leaves the disk alone.
-/
def Rejects : Prop :=
  ∃ st, (write driver_state memory newDirectoryTable request).run diskDevice d = some ((2, st), d)

theorem rejects_iff
    : Rejects driver_state memory newDirectoryTable request d
        ↔
      ¬ parent_ok (d.table request.parent) := by
  constructor
  . intro ⟨st, hrun⟩ hparent
    rw [run_of_parent_ok _ _ _ _ _ hparent] at hrun
    split at hrun
    . simp at hrun
    . simp at hrun
    . simp at hrun
  . intro hparent
    exact ⟨_, run_of_not_parent_ok _ _ _ _ _ hparent⟩

end write

namespace delete

variable (driver_state : FAT32DriverState) (dirTable : FAT32DirectoryTable)
  (request : FAT32DriverRequest) (d : Disk)

def Rejects : Prop :=
  ∃ code st, code ≠ 0 ∧
    (delete driver_state dirTable request).run diskDevice d = some ((code, st), d)

theorem rejects_iff
    : Rejects driver_state dirTable request d
        ↔
      ∀ i : Fin 64, 1 ≤ i.val → hit (d.table request.parent) request i →
        (∀ j : Fin 64, 1 ≤ j.val → j < i → ¬ hit (d.table request.parent) request j) →
          refused dirTable request d i := by
  constructor
  . intro ⟨code, st, hne, hrun⟩ i hi hhit hfirst
    have hsearched := (searched_eq_some_iff request d i).mpr ⟨hi, hhit, hfirst⟩
    cases run_cases _ _ _ _ hrun with
    | inl hfail =>
      by_contra hrefused
      cases hcs : freed driver_state.fat_table (d.table request.parent i) with
      | none =>
        rw [run_of_not_freed _ _ _ _ hsearched hrefused hcs] at hrun
        contradiction
      | some cs =>
        rw [run_of_freed _ _ _ _ hsearched hrefused hcs] at hrun
        simp only [Option.some.injEq, Prod.mk.injEq] at hrun
        exact hne hrun.1.1.symm
    | inr hdelete =>
      rcases hdelete with ⟨_, _, hcode, _⟩
      exact absurd hcode hne
  . intro hcheck
    cases hsearched : searched request d with
    | none => exact ⟨1, _, by decide, run_of_searched_none _ _ _ _ hsearched⟩
    | some i =>
      have hfirst := (searched_eq_some_iff request d i).mp hsearched
      have hrefused := hcheck i hfirst.1 hfirst.2.1 hfirst.2.2
      rcases run_of_refused driver_state _ _ _ hsearched hrefused with ⟨code, st, hne, _, hrun⟩
      exact ⟨code, st, hne, hrun⟩

end delete

/--
`write` rejects a request exactly when the first entry of its parent's cluster lacks the two bytes
of a directory's header, and `delete` exactly when the check of `dirTable` stops it, or it finds no
entry to delete. Whether the parent is a directory makes no difference.
-/
theorem parent_rejected_iff (driver_state : FAT32DriverState) (memory : UInt32 → UInt8)
    (newDirectoryTable dirTable : FAT32DirectoryTable) (request : FAT32DriverRequest) (d : Disk)
    : (write.Rejects driver_state memory newDirectoryTable request d
          ↔
        ¬ ((d.table request.parent 0).user_attribute = UATTR_NOT_EMPTY ∧
          (d.table request.parent 0).attribute = ATTR_SUBDIRECTORY))
        ∧
      (delete.Rejects driver_state dirTable request d
          ↔
        ∀ i : Fin 64, 1 ≤ i.val → delete.hit (d.table request.parent) request i →
          (∀ j : Fin 64, 1 ≤ j.val → j < i → ¬ delete.hit (d.table request.parent) request j) →
            delete.refused dirTable request d i) := by
  constructor
  . apply write.rejects_iff
  . apply delete.rejects_iff

/--
In every run from a new file system on, `write` rejects the clusters 0 and 1 as parents.
-/
theorem write_rejects_reserved {s : FAT32DriverState × Disk}
    (h : driver.Reachable (fun _ _ => True) s) {request : FAT32DriverRequest}
    (hparent : request.parent = 0 ∨ request.parent = 1) (memory : UInt32 → UInt8)
    (newDirectoryTable : FAT32DirectoryTable)
    : write.Rejects s.1 memory newDirectoryTable request s.2 := by
  have hmounted : Mounted True s := by
    apply h.invariant
    . intro s hs
      apply Mounted.of_create hs
    . intro s op s' hs _ hstep
      apply hs.of_step _ hstep
      intro hnot
      exact absurd trivial hnot
  rw [write.rejects_iff]
  cases hparent with
  | inl hzero =>
    rw [hzero]
    exact hmounted.not_parent_ok_zero
  | inr hone =>
    rw [hone]
    exact hmounted.not_parent_ok_one trivial

namespace disguised

def memory : UInt32 → UInt8 :=
  fun a => if a = 11 then ATTR_SUBDIRECTORY else if a = 12 then UATTR_NOT_EMPTY else 0

def file : FAT32DriverRequest :=
  { write.small with buffer_size := 2048 }

def disk : Disk :=
  write.committed memory (fun _ => .zero) file fresh 2 [3]

def request : FAT32DriverRequest :=
  { write.small with parent_cluster_number := 3 }

theorem search_file : write.search file fresh = some ⟨some 2, [3]⟩ := by
  apply write.search_fresh rfl
  decide

theorem run_file (driver_state : FAT32DriverState)
    : (write driver_state memory (fun _ => .zero) file).run diskDevice fresh
        =
      some ((0, ⟨write.link [3] fresh.fat, write.new_table file fresh 2 [3]⟩), disk) := by
  rw [write.run_of_parent_ok _ _ _ _ _ (write.parent_ok_fresh rfl), search_file]
  rfl

theorem not_directory : ¬ disk.Directory 3 := by
  have hch := write.chosen_of_search search_file
  have hone : file.parent ≠ 1 := by decide
  have hmem : file.parent ∉ numbers [3] := by decide
  have hnodup : ([3] : List (Fin 512)).Nodup := by decide
  have hst := write.staged_committed memory (fun _ => .zero) hch hone hmem hnodup
  have hnew := write.committed_committed memory (fun _ => .zero) hch hone hmem hnodup
  have hins := hst.insert hch fresh_wellFormed Catalog.Directory.root hnodup hnew
  intro hdir
  cases (hins.directory_iff 3).mp hdir with
  | inl hold =>
    have hroot := (create_fat32.created_directory_iff _ _ _ 3).mp hold
    contradiction
  | inr hchild =>
    have hsize := hnew.isDir_iff.mp hchild.1
    contradiction

theorem parent_ok : write.parent_ok (disk.table request.parent) := by
  decide

theorem search_request : write.search request disk = some ⟨some 2, [4]⟩ := by
  decide +kernel

theorem run_request (driver_state : FAT32DriverState)
    : (write driver_state memory (fun _ => .zero) request).run diskDevice disk
        =
      some ((0, ⟨write.link [4] disk.fat, write.new_table request disk 2 [4]⟩),
        write.committed memory (fun _ => .zero) request disk 2 [4]) := by
  rw [write.run_of_parent_ok _ _ _ _ _ parent_ok, search_request]

theorem reachable
    : driver.Reachable (fun _ _ => True)
        (⟨write.link [3] fresh.fat, write.new_table file fresh 2 [3]⟩, disk) := by
  apply reachable_write reachable_fresh trivial Catalog.Directory.root (run_file fresh_driver)

end disguised

theorem parent_not_rejected
    : ∃ s, driver.Reachable (fun _ _ => True) s ∧
        ¬ s.2.Directory disguised.request.parent_cluster_number.toNat ∧
        ∃ st d', (write s.1 disguised.memory (fun _ => .zero) disguised.request).run diskDevice s.2
            = some ((0, st), d') ∧
          d'.fat ≠ s.2.fat := by
  refine ⟨_, disguised.reachable, disguised.not_directory, _, _,
    disguised.run_request _, ?_⟩
  intro hsame
  have hnew : (write.committed disguised.memory (fun _ => .zero) disguised.request disguised.disk
      2 [4]).fat 4 = FAT32_FAT_END_OF_FILE := by
    decide
  have hold : disguised.disk.fat 4 = FAT32_FAT_EMPTY_ENTRY := by
    decide
  rw [hsame, hold] at hnew
  revert hnew
  decide

end AiOS
