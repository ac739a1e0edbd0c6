import AiOS.Fat32.RoundTrip

/-!
This module contains that `delete` takes back everything a `write` of a file has done, but for the
dead slot and the free clusters it has used.
-/

namespace AiOS

open Catalog

theorem delete.congr_request {driver_state : FAT32DriverState} {dirTable : FAT32DirectoryTable}
    {r request : FAT32DriverRequest}
    (hparent : r.parent_cluster_number = request.parent_cluster_number)
    (hname : r.name = request.name) (hext : r.ext = request.ext)
    : delete driver_state dirTable r = delete driver_state dirTable request := by
  rcases r with ⟨_, name, ext, parent_cluster_number, _⟩
  rcases request
  dsimp only at hparent hname hext
  rw [hparent, hname, hext]
  rfl

namespace write

/--
The disk `d'` says what `d` says: the same file allocation table, the same live slots in the parent,
and the same clusters under the root and all live entries, apart from the parent's own table.
-/
structure Undone (request : FAT32DriverRequest) (d d' : Disk) : Prop where
  fat : d'.fat = d.fat
  live : ∀ j, (d.table request.parent j).user_attribute = UATTR_NOT_EMPTY →
    d'.table request.parent j = d.table request.parent j
  dead : ∀ j, (d.table request.parent j).user_attribute ≠ UATTR_NOT_EMPTY →
    (d'.table request.parent j).user_attribute ≠ UATTR_NOT_EMPTY
  cluster : ∀ c, c ≠ request.parent → (c = 2 ∨ ∃ s l, d.Live s ∧ d.Owns s l ∧ c ∈ l) →
    d'.cluster c = d.cluster c

variable {driver_state st : FAT32DriverState} {memory : UInt32 → UInt8}
  {newDirectoryTable : FAT32DirectoryTable} {request : FAT32DriverRequest} {d d' : Disk}
  {i : Fin 64} {cs : List (Fin 512)}

theorem clear_link (hch : Chosen request d i cs) : delete.clear cs (link cs d.fat) = d.fat := by
  funext j
  rw [delete.clear_apply]
  split
  . next hj => rw [hch.empty j hj]
  . next hj => apply link_of_not_mem hj

section

variable (hch : Chosen request d i cs) (hsize : request.buffer_size ≠ 0)
  (hnew : Committed memory newDirectoryTable request d i cs d')

include hch hsize hnew

theorem searched_of_committed
    (hname : ∀ j : Fin 64, 1 ≤ j.val →
      (d.table request.parent j).user_attribute = UATTR_NOT_EMPTY →
        (d.table request.parent j).name ≠ request.name)
    : delete.searched request d' = some i := by
  have hslot := hch.slot
  rw [delete.searched_eq_some_iff]
  refine ⟨by omega, ?_, ?_⟩
  . unfold delete.hit
    rw [hnew.entry_eq, new_entry_user_attribute, new_entry_name, memcmp_eq_zero_iff,
      memcmp_eq_zero_iff]
    exact ⟨rfl, rfl, Or.inr (new_entry_of_file _ _ _ hsize).1⟩
  . intro j hj hji hhit
    unfold delete.hit at hhit
    rw [hnew.table] at hhit
    unfold new_table at hhit
    rw [Function.update_of_ne (ne_of_lt hji), memcmp_eq_zero_iff] at hhit
    exact hname j hj hhit.1 hhit.2.1.symm

omit hsize in
theorem freed_of_committed (hwf : d'.WellFormed) (hP : d'.Directory request.parent)
    (hnodup : cs.Nodup)
    : delete.freed d'.fat (d'.table request.parent i) = some cs := by
  have hlive : d'.Live (request.parent, i) := by
    refine ⟨hP, hch.slot, ?_⟩
    change (d'.table request.parent i).user_attribute = UATTR_NOT_EMPTY
    rw [hnew.entry_eq, new_entry_user_attribute]
  rcases delete.exists_freed hwf hlive with ⟨cs', hcs', hown⟩
  have hnumbers : numbers cs' = numbers cs := hown.unique (hnew.chain hch hnodup)
  have hcs : cs' = cs := List.map_injective_iff.mpr Fin.val_injective hnumbers
  rw [← hcs]
  exact hcs'

end

theorem undone_deleted (hwf : d.WellFormed) (hP : d.Directory request.parent)
    (hch : Chosen request d i cs) (hst : Staged memory newDirectoryTable request d i cs d')
    (hnew : Committed memory newDirectoryTable request d i cs d')
    : Undone request d (delete.deleted request d' i d'.fat cs) := by
  have hone : request.parent ≠ 1 := hwf.directory_ne_one hP
  have hother : ∀ j, j ≠ i →
      (delete.deleted request d' i d'.fat cs).table request.parent j
        = d.table request.parent j := by
    intro j hji
    rw [delete.table_deleted_of_ne hone hji, hnew.table]
    apply Function.update_of_ne hji
  refine { fat := ?_, live := ?_, dead := ?_, cluster := ?_ }
  . rw [delete.fat_deleted, hnew.fat, clear_link hch]
  . intro j hlive
    apply hother
    intro hji
    rw [hji] at hlive
    exact hch.dead hlive
  . intro j hdead
    by_cases hji : j = i
    . rw [hji]
      apply delete.deleted_not_live hone
    . rw [hother j hji]
      exact hdead
  . intro c hcP hc
    have hfree : 2 ≤ c ∧ c ∉ numbers cs := by
      rcases hc with hroot | ⟨s, l, hs, hl, hcl⟩
      . refine ⟨by omega, ?_⟩
        intro hmem
        have := (hch.isData c hmem).1
        omega
      . have hdata := (hwf.data hs hl c hcl).1
        refine ⟨by omega, ?_⟩
        intro hmem
        exact hwf.disjoint_of_free hch.isFree hs hl hmem hcl
    rw [(delete.staged_deleted hone).cluster c (by omega) hcP]
    apply hst.cluster c (by omega) hcP hfree.2

end write

/--
A `delete` of the file that `write` has just made returns 0, whatever `dirTable` holds, and takes
back all of it.
-/
theorem delete_undoes_write {driver_state st : FAT32DriverState} {memory : UInt32 → UInt8}
    {newDirectoryTable : FAT32DirectoryTable} {request : FAT32DriverRequest} {d d' : Disk}
    (hwf : d.WellFormed) (hP : d.Directory request.parent_cluster_number.toNat)
    (hsize : request.buffer_size ≠ 0)
    (hname : ∀ j : Fin 64, 1 ≤ j.val →
      (d.table request.parent j).user_attribute = UATTR_NOT_EMPTY →
        (d.table request.parent j).name ≠ request.name)
    (henough : write.needed request ≤ (write.empty_clusters d.fat).length)
    (hrun : (write driver_state memory newDirectoryTable request).run diskDevice d
      = some ((0, st), d'))
    {r : FAT32DriverRequest} (hparent : r.parent_cluster_number = request.parent_cluster_number)
    (hrname : r.name = request.name) (hrext : r.ext = request.ext) (dirTable : FAT32DirectoryTable)
    : ∃ st' d'', (delete st dirTable r).run diskDevice d' = some ((0, st'), d'') ∧
        write.Undone request d d'' := by
  have heq := hwf.parent_eq hP
  have hneeded : write.needed request = write.required_clusters request := by
    rw [write.required_clusters_eq]
    rfl
  rw [hneeded] at henough
  rw [← heq] at hP
  rw [delete.congr_request hparent hrname hrext]
  cases write.run_cases _ _ _ _ _ hrun with
  | inl hfail => exact absurd rfl hfail.1
  | inr hcommit =>
    rcases hcommit with ⟨i, cs, _, hok, hsearch, rfl, rfl⟩
    have hch := write.chosen_of_search hsearch
    have hnodup : cs.Nodup := by
      apply write.nodup_of_not_short _ _ hok _ hsearch
      intro hshort
      have hlt := hshort.2.2.1
      omega
    have hst := write.staged_of_chosen memory newDirectoryTable hch hwf hP hnodup
    have hnew := write.committed_of_chosen memory newDirectoryTable hch hwf hP hnodup
    have hins := hst.insert hch hwf hP hnodup hnew
    have hsearched := write.searched_of_committed hch hsize hnew hname
    have hfreed := write.freed_of_committed hch hnew (hins.wellFormed hwf) (hins.directory hP) hnodup
    have hrefused : ¬ delete.refused dirTable request
        (write.committed memory newDirectoryTable request d i cs) i := by
      intro hrefused
      exact hsize (hnew.isDir_iff.mp hrefused.1)
    have hundone := write.undone_deleted hwf hP hch hst hnew
    rw [← hnew.fat]
    exact ⟨_, _, delete.run_of_freed _ _ _ _ hsearched hrefused hfreed, hundone⟩

theorem delete_undoes_write_small
    : ∃ st' d'', (delete ⟨write.link [3] fresh.fat, write.new_table write.small fresh 2 [3]⟩
          (fun _ => .zero) write.small).run diskDevice write.populated = some ((0, st'), d'') ∧
        write.Undone write.small fresh d'' := by
  have hroot : fresh.Directory write.small.parent_cluster_number.toNat := Directory.root
  have hname : ∀ j : Fin 64, 1 ≤ j.val →
      (fresh.table write.small.parent j).user_attribute = UATTR_NOT_EMPTY →
        (fresh.table write.small.parent j).name ≠ write.small.name := by
    intro j _ hlive
    have hj : j.val < 2 := by
      by_contra hge
      exact create_fat32.created_dead _ _ _ (by omega) hlive
    have htable : fresh.table write.small.parent = create_fat32.dir_table_buf .zero (fun _ => 0) :=
      create_fat32.created_table _ _ _
    rw [htable]
    apply write.names_fresh j hj
  have henough : write.needed write.small ≤ (write.empty_clusters fresh.fat).length := by
    rw [write.length_empty_clusters_fresh]
    decide
  exact delete_undoes_write fresh_wellFormed hroot (by decide) hname henough
    (write.run_small fresh_driver) rfl rfl rfl (fun _ => .zero)

end AiOS
