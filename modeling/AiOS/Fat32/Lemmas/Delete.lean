import AiOS.Fat32.Impl.Delete
import AiOS.Fat32.Lemmas.Cluster
import AiOS.Fat32.Volume
import AiOS.Lib.Slots

/-!
This module contains what `delete` returns and leaves on the disk, for every outcome of its search.
-/

namespace AiOS
namespace delete

variable (driver_state : FAT32DriverState) (dirTable : FAT32DirectoryTable)
  (request : FAT32DriverRequest) (d : Disk) (i : Fin 64)

def clear (cs : List (Fin 512)) (fat_table : FAT32FileAllocationTable)
    : FAT32FileAllocationTable :=
  cs.foldl (fun fat c => Function.update fat c 0) fat_table

theorem clear_apply (cs : List (Fin 512)) (fat_table : FAT32FileAllocationTable) (j : Fin 512)
    : clear cs fat_table j = if j ∈ cs then 0 else fat_table j := by
  induction cs generalizing fat_table with
  | nil => rfl
  | cons c cs ih =>
    change clear cs (Function.update fat_table c 0) j = _
    rw [ih]
    by_cases hjc : j = c
    . rw [hjc]
      simp
    . rw [Function.update_of_ne hjc]
      simp [hjc]

-- the clusters freed together with an entry, `none` on an index outside of `cluster_map`
def freed (fat_table : FAT32FileAllocationTable) (entry : FAT32DirectoryEntry)
    : Option (List (Fin 512)) :=
  if entry.attribute = ATTR_SUBDIRECTORY then
    if h : entry.cluster_low.toNat < 512 then
      some [⟨entry.cluster_low.toNat, h⟩]
    else
      none
  else
    collect fat_table (cluster_count entry) entry.cluster_low

theorem lt_of_freed {fat_table : FAT32FileAllocationTable} {entry : FAT32DirectoryEntry}
    {cs : List (Fin 512)} (hcs : freed fat_table entry = some cs)
    (hdir : entry.attribute = ATTR_SUBDIRECTORY) (hlow : entry.cluster_low.toNat < 3)
    : ∀ c ∈ cs, c.val < 3 := by
  unfold freed at hcs
  rw [if_pos hdir, dif_pos (by omega), Option.some.injEq] at hcs
  intro c hc
  rw [← hcs, List.mem_singleton] at hc
  rw [hc]
  exact hlow

theorem dead_entry_not_live (entry : FAT32DirectoryEntry)
    : (dead_entry entry).user_attribute ≠ UATTR_NOT_EMPTY := by
  change (0 : UInt8) ≠ UATTR_NOT_EMPTY
  decide

def dead_table : FAT32DirectoryTable :=
  let table := d.table request.parent
  Function.update table i (dead_entry (table i))

theorem dead_table_self : dead_table request d i i = dead_entry (d.table request.parent i) := by
  unfold dead_table
  rw [Function.update_self]

theorem dead_table_of_ne {j : Fin 64} (hji : j ≠ i)
    : dead_table request d i j = d.table request.parent j := by
  unfold dead_table
  apply Function.update_of_ne hji

/--
The loop stops at a directory, and what it finds in the uninitialised `dirTable` makes it give up.
-/
def refused : Prop :=
  (d.table request.parent i).attribute = ATTR_SUBDIRECTORY ∧
    (checked_cluster dirTable i = ROOT_CLUSTER_NUMBER ∨
      has_live_entry (d.table (clusterIndex (checked_cluster dirTable i))))

def deleted (fat_table : FAT32FileAllocationTable) (cs : List (Fin 512)) : Disk :=
  (d.writeCluster request.parent (dead_table request d i).toCluster).writeCluster 1
    (clear cs fat_table).toCluster

def searched : Option (Fin 64) :=
  find_entry (d.table request.parent) request

def act (table : FAT32DirectoryTable) (found : Option (Fin 64))
    : DiskM (Int × FAT32DriverState) :=
  match found with
  | none => return (1, ⟨driver_state.fat_table, table⟩)
  | some i =>
    if (table i).attribute = ATTR_SUBDIRECTORY then
      directory ⟨driver_state.fat_table, table⟩ dirTable request i
    else
      file ⟨driver_state.fat_table, table⟩ request i

theorem delete_eq_act
    : delete driver_state dirTable request
        =
      (do
        let dir_table_buf ← read_clusters request.parent_cluster_number
        let table := FAT32DirectoryTable.ofCluster dir_table_buf
        act driver_state dirTable request table (find_entry table request)) := by
  rfl

theorem run_eq_act
    : (delete driver_state dirTable request).run diskDevice d
        =
      (act driver_state dirTable request (d.table request.parent) (searched request d)).run
        diskDevice d := by
  rw [delete_eq_act, run_read_clusters]
  rfl

def finish (cs : List (Fin 512)) : DiskM (Int × FAT32DriverState) := do
  write_clusters (dead_table request d i).toCluster request.parent_cluster_number
  write_clusters (clear cs driver_state.fat_table).toCluster 1
  return (0, ⟨clear cs driver_state.fat_table, dead_table request d i⟩)

theorem run_finish (cs : List (Fin 512))
    : (finish driver_state request d i cs).run diskDevice d
        =
      some ((0, ⟨clear cs driver_state.fat_table, dead_table request d i⟩),
        deleted request d i driver_state.fat_table cs) := by
  unfold finish
  rw [run_write_clusters, run_write_clusters]
  rfl

theorem act_file {cs : List (Fin 512)}
    (hfile : (d.table request.parent i).attribute ≠ ATTR_SUBDIRECTORY)
    (hcs : freed driver_state.fat_table (d.table request.parent i) = some cs)
    : act driver_state dirTable request (d.table request.parent) (some i)
        =
      finish driver_state request d i cs := by
  unfold freed at hcs
  rw [if_neg hfile] at hcs
  have hdead : cluster_count (dead_entry (d.table request.parent i))
      = cluster_count (d.table request.parent i) := rfl
  have hcs' : collect driver_state.fat_table
      (cluster_count (dead_entry (d.table request.parent i)))
      (dead_entry (d.table request.parent i)).cluster_low = some cs := hcs
  unfold act
  dsimp only
  rw [if_neg hfile]
  unfold file finish dead_table
  dsimp only
  rw [Function.update_self, hcs']
  rfl

def checked (buf : ClusterBuffer) : DiskM (Int × FAT32DriverState) :=
  if has_live_entry (.ofCluster buf) then
    .pure (2, ⟨driver_state.fat_table, d.table request.parent⟩)
  else
    match freed driver_state.fat_table (d.table request.parent i) with
    | none => .fault
    | some cs => finish driver_state request d i cs

theorem act_directory (hdir : (d.table request.parent i).attribute = ATTR_SUBDIRECTORY)
    : act driver_state dirTable request (d.table request.parent) (some i)
        =
      if checked_cluster dirTable i = ROOT_CLUSTER_NUMBER then
        .pure (-1, ⟨driver_state.fat_table, d.table request.parent⟩)
      else
        read_clusters (checked_cluster dirTable i) >>= checked driver_state request d i := by
  have hfreed : freed driver_state.fat_table (d.table request.parent i)
      = if h : (d.table request.parent i).cluster_low.toNat < 512 then
          some [⟨(d.table request.parent i).cluster_low.toNat, h⟩]
        else
          none := by
    unfold freed
    rw [if_pos hdir]
  unfold act
  dsimp only
  rw [if_pos hdir]
  unfold directory
  dsimp only
  split
  . rfl
  . apply congrArg (read_clusters (checked_cluster dirTable i) >>= ·)
    funext buf
    unfold checked
    rw [hfreed]
    split
    . rfl
    . split
      . rfl
      . rfl

theorem checked_of_live {buf : ClusterBuffer} (h : has_live_entry (.ofCluster buf))
    : checked driver_state request d i buf
        =
      .pure (2, ⟨driver_state.fat_table, d.table request.parent⟩) := by
  unfold checked
  rw [if_pos h]

theorem checked_of_empty {buf : ClusterBuffer} {cs : List (Fin 512)}
    (h : ¬ has_live_entry (.ofCluster buf))
    (hcs : freed driver_state.fat_table (d.table request.parent i) = some cs)
    : checked driver_state request d i buf = finish driver_state request d i cs := by
  unfold checked
  rw [if_neg h, hcs]

theorem run_of_searched_none (hsearched : searched request d = none)
    : (delete driver_state dirTable request).run diskDevice d
        =
      some ((1, ⟨driver_state.fat_table, d.table request.parent⟩), d) := by
  rw [run_eq_act, hsearched]
  rfl

theorem searched_eq_some_iff
    : searched request d = some i
        ↔
      1 ≤ i.val ∧ hit (d.table request.parent) request i ∧
        ∀ j, 1 ≤ j.val → j < i → ¬ hit (d.table request.parent) request j := by
  have hpairwise : ((List.finRange 64).drop 1).Pairwise (· < ·) :=
    (List.pairwise_lt_finRange 64).drop
  have hmem : ∀ j : Fin 64, j ∈ (List.finRange 64).drop 1 ↔ 1 ≤ j.val := by decide
  unfold searched find_entry
  rw [Slots.find?_eq_some_iff hpairwise]
  simp only [hmem, decide_eq_true_eq, decide_eq_false_iff_not]

variable {i}

theorem run_of_refused (hsearched : searched request d = some i)
    (hrefused : refused dirTable request d i)
    : ∃ code st, code ≠ 0 ∧ st.fat_table = driver_state.fat_table ∧
        (delete driver_state dirTable request).run diskDevice d = some ((code, st), d) := by
  rw [run_eq_act, hsearched, act_directory _ _ _ _ _ hrefused.1]
  split
  . exact ⟨-1, ⟨driver_state.fat_table, d.table request.parent⟩, by decide, rfl, rfl⟩
  . next hroot =>
    have hlive := hrefused.2.resolve_left hroot
    rw [run_read_clusters, checked_of_live _ _ _ _ hlive]
    exact ⟨2, ⟨driver_state.fat_table, d.table request.parent⟩, by decide, rfl, rfl⟩

theorem run_of_freed {cs : List (Fin 512)} (hsearched : searched request d = some i)
    (hrefused : ¬ refused dirTable request d i)
    (hcs : freed driver_state.fat_table (d.table request.parent i) = some cs)
    : (delete driver_state dirTable request).run diskDevice d
        =
      some ((0, ⟨clear cs driver_state.fat_table, dead_table request d i⟩),
        deleted request d i driver_state.fat_table cs) := by
  rw [run_eq_act, hsearched]
  by_cases hdir : (d.table request.parent i).attribute = ATTR_SUBDIRECTORY
  . unfold refused at hrefused
    rw [not_and, not_or] at hrefused
    have hchecks := hrefused hdir
    rw [act_directory _ _ _ _ _ hdir, if_neg hchecks.1, run_read_clusters]
    rw [checked_of_empty _ _ _ _ hchecks.2 hcs]
    apply run_finish
  . rw [act_file _ _ _ _ _ hdir hcs]
    apply run_finish

theorem run_of_not_freed (hsearched : searched request d = some i)
    (hrefused : ¬ refused dirTable request d i)
    (hcs : freed driver_state.fat_table (d.table request.parent i) = none)
    : (delete driver_state dirTable request).run diskDevice d = none := by
  rw [run_eq_act, hsearched]
  by_cases hdir : (d.table request.parent i).attribute = ATTR_SUBDIRECTORY
  . unfold refused at hrefused
    rw [not_and, not_or] at hrefused
    have hchecks := hrefused hdir
    rw [act_directory _ _ _ _ _ hdir, if_neg hchecks.1, run_read_clusters]
    have hempty : ¬ has_live_entry
        (.ofCluster (d.cluster (clusterIndex (checked_cluster dirTable i)))) := hchecks.2
    unfold checked
    rw [if_neg hempty, hcs]
    rfl
  . unfold freed at hcs
    rw [if_neg hdir] at hcs
    have hcs' : collect driver_state.fat_table
        (cluster_count (dead_entry (d.table request.parent i)))
        (dead_entry (d.table request.parent i)).cluster_low = none := hcs
    unfold act
    dsimp only
    rw [if_neg hdir]
    unfold file
    dsimp only
    rw [Function.update_self, hcs', run_write_clusters]
    rfl

theorem run_cases {code : Int} {st : FAT32DriverState} {d' : Disk}
    (h : (delete driver_state dirTable request).run diskDevice d = some ((code, st), d'))
    : (code ≠ 0 ∧ st.fat_table = driver_state.fat_table ∧ d' = d)
        ∨
      ∃ i cs, code = 0 ∧ searched request d = some i ∧ ¬ refused dirTable request d i ∧
        freed driver_state.fat_table (d.table request.parent i) = some cs ∧
        st = ⟨clear cs driver_state.fat_table, dead_table request d i⟩ ∧
        d' = deleted request d i driver_state.fat_table cs := by
  cases hsearched : searched request d with
  | none =>
    rw [run_of_searched_none _ _ _ _ hsearched] at h
    simp only [Option.some.injEq, Prod.mk.injEq] at h
    rcases h with ⟨⟨rfl, rfl⟩, rfl⟩
    exact Or.inl ⟨by decide, rfl, rfl⟩
  | some i =>
    by_cases hrefused : refused dirTable request d i
    . rcases run_of_refused driver_state _ _ _ hsearched hrefused with
        ⟨code', st', hne, hfat, hrun⟩
      rw [hrun, Option.some.injEq, Prod.mk.injEq, Prod.mk.injEq] at h
      rcases h with ⟨⟨rfl, rfl⟩, rfl⟩
      exact Or.inl ⟨hne, hfat, rfl⟩
    . cases hcs : freed driver_state.fat_table (d.table request.parent i) with
      | none =>
        rw [run_of_not_freed _ _ _ _ hsearched hrefused hcs] at h
        contradiction
      | some cs =>
        rw [run_of_freed _ _ _ _ hsearched hrefused hcs] at h
        rw [Option.some.injEq, Prod.mk.injEq, Prod.mk.injEq] at h
        rcases h with ⟨⟨rfl, rfl⟩, rfl⟩
        exact Or.inr ⟨i, cs, rfl, rfl, hrefused, hcs, rfl, rfl⟩

theorem hit_of_searched (h : searched request d = some i)
    : 1 ≤ i.val ∧ hit (d.table request.parent) request i := by
  have hfirst := (searched_eq_some_iff request d i).mp h
  exact ⟨hfirst.1, hfirst.2.1⟩

end delete
end AiOS
