import AiOS.Fat32.Notes
import AiOS.Fat32.Lemmas.Remove

/-!
This module contains that `delete` keeps what other operations own, whatever they do between its
commands.
-/

namespace AiOS

open Catalog

namespace delete

variable {request : FAT32DriverRequest} {d s : Disk} {i : Fin 64} {cs : List (Fin 512)}
  {others : Set Nat}

theorem dead_table_congr (htable : s.table request.parent = d.table request.parent)
    : dead_table request s i = dead_table request d i := by
  unfold dead_table
  rw [htable]

theorem checked_congr (driver_state : FAT32DriverState)
    (htable : s.table request.parent = d.table request.parent)
    : checked driver_state request s i = checked driver_state request d i := by
  funext buf
  unfold checked finish
  rw [dead_table_congr htable, htable]

-- the clusters that are free to go once the entry is dead
def released (cs : List (Fin 512)) : Set Nat :=
  {c | c ∈ numbers cs ∧ fat32.isData c}

section

variable (hs : s.Shared ∅ others) (hP : s.Directory request.parent)

include hs hP

theorem shared_dead_entry (hi : 2 ≤ i.val)
    (hlive : (s.table request.parent i).user_attribute = UATTR_NOT_EMPTY)
    (hcs : freed s.fat (s.table request.parent i) = some cs)
    : (s.writeCluster request.parent (dead_table request s i).toCluster).Shared (released cs)
        others := by
  have hslot : s.Live (request.parent, i) := ⟨hP, hi, hlive⟩
  have hown : s.Owns (request.parent, i) (numbers cs) := owns_of_freed hs.inv hslot hcs
  have hone : request.parent ≠ 1 := Disk.WellFormed.directory_ne_one hs.inv hP
  have hfat : (s.writeCluster request.parent (dead_table request s i).toCluster).fat = s.fat :=
    Disk.fat_congr (Disk.cluster_writeCluster_of_ne _ _ hone.symm)
  have hremove : Remove fat32 s.volume
      (s.writeCluster request.parent (dead_table request s i).toCluster).volume
      request.parent i := by
    apply (staged_table hone 4).remove hs.inv hslot hown
    refine ⟨Disk.table_writeCluster _ _ _, ?_⟩
    intro j _
    exact congrFun hfat j
  have hnext : ∀ c, (s.writeCluster request.parent (dead_table request s i).toCluster).volume.next c
      = s.volume.next c := by
    intro c
    change (s.writeCluster request.parent (dead_table request s i).toCluster).fat.next c = _
    rw [hfat]
    rfl
  refine {
    inv := hremove.wellFormed hs.inv
    owned_mine := ?_
    owned_others := ?_
    apart := ?_ }
  . intro c hc
    apply Held.of_remove hremove hs.inv hc.2
    . rw [hnext]
      apply hs.inv.next_ne_free hslot hown hc.1
    . intro t m ht hne hm hcm
      exact hs.inv.disjoint _ _ ht hslot hne m _ hm hown hcm hc.1
  . intro c hc
    have hheld : s.Held c := hs.owned_others c hc
    apply Held.of_remove hremove hs.inv hheld.data
    . rw [hnext]
      exact hheld.used
    . intro t m ht _ hm
      apply hheld.apart t m ht hm
  . rw [Set.disjoint_left]
    intro c hc hothers
    have hheld : s.Held c := hs.owned_others c hothers
    apply hheld.apart _ _ hslot hown hc.1

theorem shared_dead_parent_entry (hi : i.val < 2) (hcs : ∀ c ∈ cs, c.val < 3)
    : (s.writeCluster request.parent (dead_table request s i).toCluster).Shared (released cs)
        others := by
  have hone : request.parent ≠ 1 := Disk.WellFormed.directory_ne_one hs.inv hP
  have hfat : (s.writeCluster request.parent (dead_table request s i).toCluster).fat = s.fat :=
    Disk.fat_congr (Disk.cluster_writeCluster_of_ne _ _ hone.symm)
  have hempty : ∀ c, c ∉ released cs := by
    intro c hc
    have hdata : 3 ≤ c ∧ c < 512 := hc.2
    have hmem := hc.1
    rcases exists_of_mem_numbers hmem with ⟨j, hj, rfl⟩
    have := hcs j hj
    omega
  apply hs.of_agrees
  . refine { table := ?_, next := ?_ }
    . intro q j _ hj
      have hj : 2 ≤ j.val := hj
      change (s.writeCluster request.parent (dead_table request s i).toCluster).table q j = _
      by_cases hq : q = request.parent
      . rw [hq, Disk.table_writeCluster]
        apply dead_table_of_ne
        intro heq
        rw [heq] at hj
        omega
      . rw [Disk.table_congr (Disk.cluster_writeCluster_of_ne _ _ hq)]
        rfl
    . intro t m c _ _ _
      change (s.writeCluster request.parent (dead_table request s i).toCluster).fat.next c = _
      rw [hfat]
      rfl
  . intro c hc
    exact absurd hc (hempty c)
  . intro c _
    rw [hfat]
  . rw [Set.disjoint_left]
    intro c hc
    exact absurd hc (hempty c)

end

theorem shared_clear (hs : s.Shared (released cs) others)
    : (s.writeCluster 1 (clear cs s.fat).toCluster).Shared ∅ others := by
  have hclear : ∀ j, j ∉ cs → (s.writeCluster 1 (clear cs s.fat).toCluster).fat j = s.fat j := by
    intro j hj
    rw [Disk.fat_writeCluster, clear_apply, if_neg hj]
  apply hs.of_agrees
  . refine { table := ?_, next := ?_ }
    . intro q j hq _
      have hq : q ≠ 1 := by
        have := (Disk.WellFormed.directory_bounds hs.inv hq).1
        omega
      change (s.writeCluster 1 (clear cs s.fat).toCluster).table q j = _
      rw [Disk.table_congr (Disk.cluster_writeCluster_of_ne _ _ hq)]
      rfl
    . intro t m c ht hm hc
      apply FAT32FileAllocationTable.next_congr hclear
      intro hmem
      have hheld : s.Held c := hs.owned_mine c ⟨hmem, hs.inv.data ht hm c hc⟩
      exact hheld.apart t m ht hm hc
  . intro c hc
    exact absurd hc (Set.notMem_empty c)
  . intro c hc
    have hheld : s.Held c := hs.owned_others c hc
    apply FAT32FileAllocationTable.next_congr hclear
    intro hmem
    exact Set.disjoint_left.mp hs.apart ⟨hmem, hheld.data⟩ hc
  . apply disjoint_bot_left

section

variable {op : Operation} {g : Notes} {driver_state : FAT32DriverState}
  {dirTable : FAT32DirectoryTable} (hop : op = .delete dirTable request)
  (hone : request.parent ≠ 1) (hcache : driver_state.fat_table = d.fat)
  (hg : Noted request d g) (hsearched : searched request d = some i)

include hop hsearched

theorem clusters_of_freed (hcs : freed d.fat (d.table request.parent i) = some cs)
    : op.clusters d = cs := by
  rw [hop]
  unfold Operation.clusters
  dsimp only
  rw [hsearched]
  dsimp only
  rw [hcs]
  rfl

include hg in
theorem shared_dead (hs : s.Shared ∅ others) (hP : s.Directory op.request.parent)
    (huptodate : g.UpToDate s) (hsane : op.Sane g.loaded)
    (hcs : freed d.fat (d.table request.parent i) = some cs)
    : (s.writeCluster request.parent (dead_table request d i).toCluster).Shared (released cs)
        others := by
  have htable := hg.table_eq huptodate
  have hfat := hg.fat_eq huptodate
  have hhit := hit_of_searched _ _ hsearched
  rw [hop] at hP hsane
  rw [hg.loaded] at hsane
  have hP : s.Directory request.parent := hP
  rw [← dead_table_congr htable]
  by_cases hi : 2 ≤ i.val
  . apply shared_dead_entry hs hP hi
    . rw [htable]
      exact hhit.2.1
    . rw [hfat, htable]
      exact hcs
  . have hlow := (hsane i hsearched).resolve_left hi
    apply shared_dead_parent_entry hs hP (by omega)
    apply lt_of_freed hcs hlow.1 hlow.2

include hone hcache hg

theorem guarded_finish (hcs : freed d.fat (d.table request.parent i) = some cs)
    : op.Guarded (finish driver_state request d i cs) g ∅ := by
  have hfat : clusterIndex 1 = 1 := by decide
  have hclusters := clusters_of_freed hop hsearched hcs
  unfold finish
  rw [hcache]
  apply Operation.guarded_write_clusters (released cs)
  . intro s others hs hP huptodate hsane
    refine ⟨Disk.keepsFatBut_of_ne_one hone, ?_⟩
    apply shared_dead hop hg hsearched hs hP huptodate hsane hcs
  . apply Operation.guarded_write_clusters ∅
    . intro s others hs _ huptodate _
      rw [hfat]
      have hfats : s.fat = d.fat := by
        apply Disk.fat_congr
        rw [huptodate 1 (List.mem_cons_of_mem _ hg.seen_fat), ← hg.fat]
        apply Disk.cluster_writeCluster_of_ne _ _ hone.symm
      rw [← hfats]
      refine ⟨?_, shared_clear hs⟩
      intro j hj
      change j ∈ op.clusters g.loaded ∧ _
      rw [hg.loaded, hclusters]
      rw [Disk.fat_writeCluster, clear_apply] at hj ⊢
      split at hj
      . next hjcs => exact ⟨hjcs, Or.inr (if_pos hjcs)⟩
      . contradiction
    . apply Operation.guarded_pure

theorem guarded_file (hfile : (d.table request.parent i).attribute ≠ ATTR_SUBDIRECTORY)
    : op.Guarded (act driver_state dirTable request (d.table request.parent) (some i)) g ∅ := by
  cases hcs : freed d.fat (d.table request.parent i) with
  | some cs =>
    rw [← hcache] at hcs
    rw [act_file _ _ _ _ _ hfile hcs]
    rw [hcache] at hcs
    apply guarded_finish hop hone hcache hg hsearched hcs
  | none =>
    unfold act
    dsimp only
    rw [if_neg hfile]
    unfold file
    apply Operation.guarded_write_clusters_of_false
    -- a live file of a well-formed disk has its chain
    intro s others hs hP huptodate hsane
    have htable := hg.table_eq huptodate
    rw [hop] at hP hsane
    rw [hg.loaded] at hsane
    have hi : 2 ≤ i.val := (hsane i hsearched).resolve_right (fun h => hfile h.1)
    have hhit := hit_of_searched _ _ hsearched
    have hslot : s.Live (request.parent, i) := by
      refine ⟨hP, hi, ?_⟩
      change (s.table request.parent i).user_attribute = UATTR_NOT_EMPTY
      rw [htable]
      exact hhit.2.1
    rcases exists_freed hs.inv hslot with ⟨cs, hcs', _⟩
    have hcs' : freed s.fat (s.table request.parent i) = some cs := hcs'
    rw [hg.fat_eq huptodate, htable, hcs] at hcs'
    contradiction

theorem guarded_checked (buf : ClusterBuffer)
    : op.Guarded (checked driver_state request d i buf) g ∅ := by
  by_cases hlive : has_live_entry (.ofCluster buf)
  . rw [checked_of_live _ _ _ _ hlive]
    apply Operation.guarded_pure
  . cases hcs : freed driver_state.fat_table (d.table request.parent i) with
    | none =>
      unfold checked
      rw [if_neg hlive, hcs]
      apply Operation.guarded_fault
    | some cs =>
      rw [checked_of_empty _ _ _ _ hlive hcs]
      rw [hcache] at hcs
      apply guarded_finish hop hone hcache hg hsearched hcs

theorem guarded_directory (hdir : (d.table request.parent i).attribute = ATTR_SUBDIRECTORY)
    : op.Guarded (act driver_state dirTable request (d.table request.parent) (some i)) g ∅ := by
  rw [act_directory _ _ _ _ _ hdir]
  split
  . apply Operation.guarded_pure
  . apply Operation.guarded_read_clusters
    intro buf
    apply Exists.elim (hg.read (clusterIndex (checked_cluster dirTable i)) buf)
    intro d' ⟨hg', htable, hfat⟩
    rw [← checked_congr driver_state htable]
    have hsearched' : searched request d' = some i := by
      unfold searched
      rw [htable]
      exact hsearched
    apply guarded_checked hop hone (hcache.trans hfat.symm) hg' hsearched'

end

theorem noted_of_read (hone : request.parent ≠ 1) (driver_state : FAT32DriverState)
    (dir_table_buf : ClusterBuffer)
    : ∃ d, Noted request d ((Notes.blank.read 1 driver_state.fat_table.toCluster).read
          request.parent dir_table_buf) ∧
        d.table request.parent = .ofCluster dir_table_buf ∧
        driver_state.fat_table = d.fat := by
  have hblank : 1 ∉ Notes.blank.seen := List.not_mem_nil
  have hparent : request.parent ∉ (Notes.blank.read 1 driver_state.fat_table.toCluster).seen := by
    rw [Notes.read_of_not_mem hblank]
    intro h
    exact hone (List.mem_singleton.mp h)
  rw [Notes.read_of_not_mem hparent, Notes.read_of_not_mem hblank]
  refine ⟨_, { loaded := rfl, seen_parent := ?_, seen_fat := ?_, parent := rfl, fat := rfl }, ?_, ?_⟩
  . simp
  . simp
  . unfold Disk.table
    rw [Disk.cluster_writeCluster_self]
  . rw [Disk.fat_congr (Disk.cluster_writeCluster_of_ne _ _ hone.symm), Disk.fat_writeCluster]

theorem guarded_delete (driver_state : FAT32DriverState) (dirTable : FAT32DirectoryTable)
    : (Operation.delete dirTable request).Guarded (delete driver_state dirTable request)
        (Notes.blank.read 1 driver_state.fat_table.toCluster) ∅ := by
  by_cases hone : request.parent = 1
  . apply Operation.guarded_of_parent_eq_one (.delete dirTable request) hone
  rw [delete_eq_act]
  apply Operation.guarded_read_clusters
  intro dir_table_buf
  rcases noted_of_read hone driver_state dir_table_buf with ⟨d, hnoted, htable, hcache⟩
  rw [← htable]
  change Operation.Guarded _ (act driver_state dirTable request (d.table request.parent)
    (searched request d)) _ _
  cases hsearched : searched request d with
  | none =>
    unfold act
    apply Operation.guarded_pure
  | some i =>
    by_cases hdir : (d.table request.parent i).attribute = ATTR_SUBDIRECTORY
    . apply guarded_directory rfl hone hcache hnoted hsearched hdir
    . apply guarded_file rfl hone hcache hnoted hsearched hdir

end delete
end AiOS
