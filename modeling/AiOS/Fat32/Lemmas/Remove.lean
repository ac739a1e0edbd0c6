import AiOS.Fat32.Lemmas.Delete
import AiOS.Fat32.Monitor

/-!
This module contains what `delete` takes off the disk as an entry removed from the catalog, and what
the disk says at every moment before that.
-/

namespace AiOS

open Catalog

namespace delete

variable {request : FAT32DriverRequest} {d d' : Disk} {i : Fin 64} {cs : List (Fin 512)}

theorem collect_of_follows {fat_table : FAT32FileAllocationTable} {a : Nat} {l : List Nat}
    {current_cluster : UInt16} (h : Chain.Follows fat_table.next 0x0FFFFFFF a l)
    (hdata : ∀ c ∈ l, c < 512) (ha : a < 2 ^ 16 → current_cluster.toNat = a)
    : ∃ cs, collect fat_table l.length current_cluster = some cs ∧ numbers cs = l := by
  induction l generalizing a current_cluster with
  | nil => exact ⟨[], rfl, rfl⟩
  | cons x l ih =>
    rcases h with ⟨rfl, _, h⟩
    have hlt := hdata a List.mem_cons_self
    have hcurrent := ha (by omega)
    subst hcurrent
    have hrest : ∀ c ∈ l, c < 512 := fun c hc => hdata c (List.mem_cons_of_mem _ hc)
    have hnext : fat_table.next current_cluster.toNat < 2 ^ 16 →
        (fat_table ⟨current_cluster.toNat, hlt⟩).toUInt16.toNat
          = fat_table.next current_cluster.toNat := by
      have heq := FAT32FileAllocationTable.next_fin fat_table ⟨current_cluster.toNat, hlt⟩
      dsimp only at heq
      rw [heq, UInt32.toNat_toUInt16]
      omega
    rcases ih h hrest hnext with ⟨cs, hcs, hnumbers⟩
    refine ⟨⟨current_cluster.toNat, hlt⟩ :: cs, ?_, ?_⟩
    . rw [List.length_cons]
      unfold collect
      rw [dif_pos hlt]
      dsimp only
      rw [hcs]
      rfl
    . unfold numbers at hnumbers ⊢
      rw [List.map_cons, hnumbers]

theorem exists_freed (hwf : d.WellFormed) {s : Nat × Fin 64} (hs : d.Live s)
    : ∃ cs, freed d.fat (d.entry s) = some cs ∧ d.Owns s (numbers cs) := by
  rcases hwf.chain s hs with ⟨l, hl, hdata, hlen⟩
  have hlt : ∀ c ∈ l, c < 512 := fun c hc => (hdata c hc).2
  unfold freed
  split
  . next hdir =>
    have hown := hwf.owns_dir hs hdir
    have hfirst := hwf.data hs hown _ List.mem_cons_self
    have hfirst : 3 ≤ (d.entry s).cluster ∧ (d.entry s).cluster < 512 := hfirst
    have hlow := FAT32DirectoryEntry.cluster_low_of_lt (d.entry s) (by omega)
    rw [dif_pos (by omega)]
    refine ⟨_, rfl, ?_⟩
    unfold numbers
    rw [List.map_singleton]
    dsimp only
    rw [hlow]
    exact hown
  . next hfile =>
    have hcount : cluster_count (d.entry s) = l.length := by
      have hle := Disk.length_le_of_nodup hl.nodup hdata
      have hlen : l.length = (d.entry s).clusterCount := hlen
      unfold FAT32DirectoryEntry.clusterCount at hlen
      rw [if_neg hfile] at hlen
      unfold cluster_count CLUSTER_SIZE at *
      dsimp only
      split
      . omega
      . omega
    have hlow : (d.entry s).cluster < 2 ^ 16 →
        (d.entry s).cluster_low.toNat = (d.entry s).cluster := by
      apply FAT32DirectoryEntry.cluster_low_of_lt
    rcases collect_of_follows hl hlt hlow with ⟨cs, hcs, hnumbers⟩
    rw [hcount]
    refine ⟨cs, hcs, ?_⟩
    rw [hnumbers]
    exact hl

theorem owns_of_freed (hwf : d.WellFormed) {s : Nat × Fin 64} (hs : d.Live s)
    {cs : List (Fin 512)} (hcs : freed d.fat (d.entry s) = some cs)
    : d.Owns s (numbers cs) := by
  rcases exists_freed hwf hs with ⟨cs', hcs', hown⟩
  rw [hcs, Option.some.injEq] at hcs'
  rw [hcs']
  exact hown

variable (request d) in
structure Staged (i : Fin 64) (cs : List (Fin 512)) (d' : Disk) : Prop where
  cluster : ∀ c, c ≠ 1 → c ≠ request.parent → d'.cluster c = d.cluster c
  entry : (d'.table request.parent = d.table request.parent ∧ d'.fat = d.fat) ∨
    (d'.table request.parent = dead_table request d i ∧ ∀ j, j ∉ cs → d'.fat j = d.fat j)

namespace Staged

theorem table_eq (h : Staged request d i cs d') {q : Nat} {j : Fin 64} (hq : q ≠ 1)
    (hne : (q, j) ≠ (request.parent, i))
    : d'.table q j = d.table q j := by
  by_cases hqP : q = request.parent
  . rw [hqP] at hne ⊢
    cases h.entry with
    | inl hold => rw [hold.1]
    | inr hdead =>
      rw [hdead.1]
      apply dead_table_of_ne
      intro hji
      rw [hji] at hne
      contradiction
  . apply congrFun
    apply Disk.table_congr
    apply h.cluster q hq hqP

variable (h : Staged request d i cs d') (hwf : d.WellFormed) (hs : d.Live (request.parent, i))

include h hwf

theorem agrees (hold : d'.table request.parent = d.table request.parent ∧ d'.fat = d.fat)
    : Agrees fat32 d.volume d'.volume where
  table := by
    intro q j hq _
    have hbounds := hwf.directory_bounds hq
    by_cases hqP : q = request.parent
    . rw [hqP]
      exact congrFun hold.1 j
    . apply congrFun
      apply Disk.table_congr
      apply h.cluster q (by omega) hqP
  next := by
    intro s l c _ _ _
    change d'.fat.next c = d.fat.next c
    rw [hold.2]

include hs

theorem remove (hcs : d.Owns (request.parent, i) (numbers cs))
    (hdead : d'.table request.parent = dead_table request d i ∧ ∀ j, j ∉ cs → d'.fat j = d.fat j)
    : Remove fat32 d.volume d'.volume request.parent i where
  live := hs
  dead := by
    change (d'.table request.parent i).user_attribute ≠ UATTR_NOT_EMPTY
    rw [hdead.1]
    rw [dead_table_self]
    apply dead_entry_not_live
  table := by
    intro q j hq _ hne
    have hbounds := hwf.directory_bounds hq
    apply h.table_eq (by omega) hne
  next := by
    intro s m c hsl hne hm hc
    apply FAT32FileAllocationTable.next_congr hdead.2
    intro hmem
    exact hwf.disjoint _ _ hsl hs hne m _ hm hcs hc hmem

theorem wellFormed (hcs : d.Owns (request.parent, i) (numbers cs)) : d'.WellFormed := by
  cases h.entry with
  | inl hold => apply (h.agrees hwf hold).wellFormed hwf
  | inr hdead => apply (h.remove hwf hs hcs hdead).wellFormed hwf

theorem owns (hcs : d.Owns (request.parent, i) (numbers cs)) {s : Nat × Fin 64} {l : List Nat}
    (hsl : d.Live s) (hne : s ≠ (request.parent, i)) (hl : d.Owns s l)
    : d'.Owns s l := by
  cases h.entry with
  | inl hold => apply (h.agrees hwf hold).owns hsl hl
  | inr hdead => apply (h.remove hwf hs hcs hdead).owns hsl hne hl

theorem cluster_eq {s : Nat × Fin 64} {l : List Nat} {c : Nat} (hsl : d.Live s)
    (hfile : (d.entry s).attribute ≠ ATTR_SUBDIRECTORY) (hl : d.Owns s l) (hc : c ∈ l)
    : d'.cluster c = d.cluster c := by
  have hdata := (hwf.data hsl hl c hc).1
  apply h.cluster c (by omega)
  intro heq
  apply hwf.not_mem_of_directory hsl hfile hl hs.dir
  rw [← heq]
  exact hc

end Staged

section

variable (request d i cs) in
theorem fat_deleted : (deleted request d i d.fat cs).fat = clear cs d.fat := by
  apply Disk.fat_writeCluster

theorem staged_table (hone : request.parent ≠ 1) (b : Nat)
    : Staged request d i cs
        (d.writeFirst (4 * request.parent) b (dead_table request d i).toCluster) where
  cluster c _ hP := by rw [Disk.cluster_writeFirst, if_neg hP]
  entry := by
    have hold : d.cluster request.parent = (d.table request.parent).toCluster := by
      unfold Disk.table
      rw [FAT32DirectoryTable.toCluster_ofCluster]
    have htable : (d.writeFirst (4 * request.parent) b
        (dead_table request d i).toCluster).table request.parent
          = if i.val < 16 * b then dead_table request d i else d.table request.parent := by
      conv => lhs; unfold Disk.table
      rw [Disk.cluster_writeFirst, if_pos rfl, hold]
      apply FAT32DirectoryTable.ofCluster_torn_update
    have hfat : (d.writeFirst (4 * request.parent) b
        (dead_table request d i).toCluster).fat = d.fat := by
      apply Disk.fat_congr
      rw [Disk.cluster_writeFirst, if_neg hone.symm]
    rw [htable, hfat]
    split
    . exact Or.inr ⟨rfl, fun _ _ => rfl⟩
    . exact Or.inl ⟨rfl, rfl⟩

theorem staged_fat (hone : request.parent ≠ 1) (b : Nat)
    : Staged request d i cs
        ((d.writeCluster request.parent (dead_table request d i).toCluster).writeFirst (4 * 1) b
          (clear cs d.fat).toCluster) where
  cluster c h1 hP := by
    rw [Disk.cluster_writeFirst, if_neg h1, Disk.cluster_writeCluster_of_ne _ _ hP]
  entry := by
    right
    refine ⟨?_, ?_⟩
    . conv => lhs; unfold Disk.table
      rw [Disk.cluster_writeFirst, if_neg hone, Disk.cluster_writeCluster_self]
      apply FAT32DirectoryTable.ofCluster_toCluster
    . intro j hj
      have hfat : (d.writeCluster request.parent (dead_table request d i).toCluster).fat
          = d.fat := by
        apply Disk.fat_congr
        apply Disk.cluster_writeCluster_of_ne _ _ hone.symm
      unfold Disk.fat
      rw [Disk.cluster_writeFirst, if_pos rfl, FAT32FileAllocationTable.ofCluster_torn]
      split
      . rw [clear_apply, if_neg hj]
      . exact congrFun hfat j

theorem staged_deleted (hone : request.parent ≠ 1)
    : Staged request d i cs (deleted request d i d.fat cs) := by
  apply staged_fat hone 4

theorem table_deleted (hone : request.parent ≠ 1)
    : (deleted request d i d.fat cs).table request.parent = dead_table request d i := by
  unfold deleted
  rw [Disk.table_congr (Disk.cluster_writeCluster_of_ne _ _ hone), Disk.table_writeCluster]

theorem table_deleted_of_ne {j : Fin 64} (hone : request.parent ≠ 1) (hji : j ≠ i)
    : (deleted request d i d.fat cs).table request.parent j = d.table request.parent j := by
  rw [table_deleted hone]
  apply dead_table_of_ne _ _ _ hji

theorem deleted_not_live (hone : request.parent ≠ 1)
    : ((deleted request d i d.fat cs).table request.parent i).user_attribute
        ≠
      UATTR_NOT_EMPTY := by
  rw [table_deleted hone, dead_table_self]
  apply dead_entry_not_live

theorem fat_deleted_of_not_mem {j : Fin 512} (hj : j ∉ cs)
    : (deleted request d i d.fat cs).fat j = d.fat j := by
  rw [fat_deleted, clear_apply, if_neg hj]

theorem remove_deleted (hwf : d.WellFormed) (hs : d.Live (request.parent, i))
    (hcs : d.Owns (request.parent, i) (numbers cs))
    : Remove fat32 d.volume (deleted request d i d.fat cs).volume request.parent i := by
  have hone : request.parent ≠ 1 := hwf.directory_ne_one hs.dir
  apply (staged_deleted hone).remove hwf hs hcs
  exact ⟨table_deleted hone, fun _ hj => fat_deleted_of_not_mem hj⟩

section

variable (hlow : ∀ c ∈ cs, c.val < 3)

include hlow

theorem next_deleted_of_low {c : Nat} (hc : fat32.isData c)
    : (deleted request d i d.fat cs).fat.next c = d.fat.next c := by
  have hc : 3 ≤ c ∧ c < 512 := hc
  apply FAT32FileAllocationTable.next_congr (fun j hj => fat_deleted_of_not_mem hj)
  intro hmem
  rcases exists_of_mem_numbers hmem with ⟨j, hj, rfl⟩
  have := hlow j hj
  omega

theorem agrees_deleted (hwf : d.WellFormed) (hP : d.Directory request.parent) (hi : i.val < 2)
    : Agrees fat32 d.volume (deleted request d i d.fat cs).volume where
  table := by
    intro q j hq hj
    have hbounds := hwf.directory_bounds hP
    have hq := hwf.directory_bounds hq
    have hj : 2 ≤ j.val := hj
    apply (staged_deleted (by omega)).table_eq (by omega)
    intro heq
    rw [Prod.mk.injEq] at heq
    rw [heq.2] at hj
    omega
  next := by
    intro s l c hs hl hc
    apply next_deleted_of_low hlow (hwf.data hs hl c hc)

end

variable {I : Disk → Prop} {driver_state : FAT32DriverState} (hP : 2 ≤ request.parent)
  (hcache : driver_state.fat_table = d.fat)

include hP hcache

theorem always_finish (hI : ∀ d', Staged request d i cs d' → I d')
    : (finish driver_state request d i cs).Always diskDevice fatMonitor I driver_state.fat_table
        d := by
  have hone : request.parent ≠ 1 := by omega
  unfold finish
  apply fatMonitor.always_write_clusters hone
  . intro b
    apply hI
    apply staged_table hone
  . apply fatMonitor.always_write_fat
    . intro b
      apply hI
      rw [hcache]
      apply staged_fat hone
    . intro j hj
      have hfat : (d.writeCluster request.parent (dead_table request d i).toCluster).fat
          = driver_state.fat_table := by
        rw [hcache]
        apply Disk.fat_congr
        apply Disk.cluster_writeCluster_of_ne _ _ hone.symm
      intro heq
      apply hj
      rw [heq, ← hfat]
      rfl
    . apply hI
      rw [hcache]
      apply staged_fat hone 4

theorem always_delete (dirTable : FAT32DirectoryTable)
    (hd : I d)
    (hI : ∀ i, searched request d = some i → ¬ refused dirTable request d i →
      ∃ cs, freed d.fat (d.table request.parent i) = some cs ∧
        ∀ d', Staged request d i cs d' → I d')
    : (delete driver_state dirTable request).Always diskDevice fatMonitor I driver_state.fat_table
        d := by
  have hone : request.parent ≠ 1 := by omega
  rw [delete_eq_act]
  apply fatMonitor.always_read_clusters hone hd
  change (act driver_state dirTable request (d.table request.parent)
    (searched request d)).Always _ _ _ _ _
  cases hsearched : searched request d with
  | none => exact hd
  | some i =>
    by_cases hdir : (d.table request.parent i).attribute = ATTR_SUBDIRECTORY
    . by_cases hroot : checked_cluster dirTable i = ROOT_CLUSTER_NUMBER
      . rw [act_directory _ _ _ _ _ hdir, if_pos hroot]
        exact hd
      . by_cases hlive : has_live_entry (d.table (clusterIndex (checked_cluster dirTable i)))
        . rw [act_directory _ _ _ _ _ hdir, if_neg hroot]
          apply fatMonitor.always_read_loaded hcache hd
          rw [checked_of_live _ _ _ _ hlive]
          exact hd
        . have hrefused : ¬ refused dirTable request d i := by
            intro hrefused
            cases hrefused.2 with
            | inl h => exact hroot h
            | inr h => exact hlive h
          rcases hI i hsearched hrefused with ⟨cs, hcs, hI⟩
          rw [← hcache] at hcs
          rw [act_directory _ _ _ _ _ hdir, if_neg hroot]
          apply fatMonitor.always_read_loaded hcache hd
          rw [checked_of_empty _ _ _ _ hlive hcs]
          apply always_finish hP hcache hI
    . have hrefused : ¬ refused dirTable request d i := fun h => hdir h.1
      rcases hI i hsearched hrefused with ⟨cs, hcs, hI⟩
      rw [← hcache] at hcs
      rw [act_file _ _ _ _ _ hdir hcs]
      apply always_finish hP hcache hI

end

end delete
end AiOS
