import AiOS.Fat32.Impl.Read
import AiOS.Fat32.Lemmas.Cluster
import AiOS.Fat32.Volume
import AiOS.Lib.Slots

/-!
This module contains what `read` and `read_directory` return, and that they leave the disk alone.
-/

namespace AiOS

/--
Following `cluster_map` from cluster `c` stays inside of it and ends, past the clusters of the list.
-/
def Disk.Links (d : Disk) (c : Nat) (l : List Nat) : Prop :=
  Chain.Follows d.fat.next 0x0FFFFFFF c l ∧ ∀ x ∈ l, x < 512

namespace read

variable {driver_state st : FAT32DriverState} {request : FAT32DriverRequest} {d d' : Disk}
  {fat_table : FAT32FileAllocationTable}

theorem run_walk {fuel : Nat} {cluster_number : UInt32} {delivered : List ClusterBuffer}
    {l : List Nat} (h : Chain.Follows fat_table.next 0x0FFFFFFF cluster_number.toNat l)
    (hdata : ∀ c ∈ l, c < 512) (hfuel : l.length < fuel)
    : (walk fat_table fuel cluster_number delivered).run diskDevice d
        =
      some (delivered ++ l.map d.cluster, d) := by
  induction l generalizing fuel cluster_number delivered with
  | nil =>
    have hstop : cluster_number = FAT32_FAT_END_OF_FILE := UInt32.toNat_inj.mp h
    cases fuel with
    | zero => omega
    | succ fuel =>
      unfold walk
      rw [if_pos hstop]
      simp
  | cons c l ih =>
    rcases h with ⟨rfl, hne, h⟩
    have hlt := hdata _ List.mem_cons_self
    have hstop : cluster_number ≠ FAT32_FAT_END_OF_FILE := by
      intro heq
      apply hne
      rw [heq]
      rfl
    have hrest : ∀ x ∈ l, x < 512 := fun x hx => hdata x (List.mem_cons_of_mem _ hx)
    cases fuel with
    | zero => omega
    | succ fuel =>
      have hnext := FAT32FileAllocationTable.next_fin fat_table ⟨cluster_number.toNat, hlt⟩
      dsimp only at hnext
      rw [hnext] at h
      rw [List.length_cons] at hfuel
      unfold walk
      rw [if_neg hstop, run_read_clusters, dif_pos hlt]
      rw [ih h hrest (by omega), clusterIndex_of_lt (by omega)]
      simp

theorem disk_of_walk {fuel : Nat} {cluster_number : UInt32}
    {delivered result : List ClusterBuffer}
    (h : (walk fat_table fuel cluster_number delivered).run diskDevice d = some (result, d'))
    : d' = d := by
  induction fuel generalizing cluster_number delivered with
  | zero =>
    unfold walk at h
    contradiction
  | succ fuel ih =>
    unfold walk at h
    split at h
    . simp only [Prog.pure_eq, Prog.run_pure, Option.some.injEq, Prod.mk.injEq] at h
      rw [h.2]
    . rw [run_read_clusters] at h
      split at h
      . apply ih h
      . contradiction

variable (driver_state request d)

def searched : Option (Fin 64) :=
  find_entry (d.table request.parent) request

-- the loop of `read` does not ask whether the entry is live
def carries (entry : FAT32DirectoryEntry) : Prop :=
  entry.name = request.name ∧ entry.ext = request.ext

theorem searched_eq_some_iff (i : Fin 64)
    : searched request d = some i
        ↔
      carries request (d.table request.parent i) ∧
        ∀ j < i, ¬ carries request (d.table request.parent j) := by
  have hpairwise : (List.finRange 64).Pairwise (· < ·) := List.pairwise_lt_finRange 64
  unfold searched find_entry carries
  rw [Slots.find?_eq_some_iff hpairwise]
  simp only [List.mem_finRange, true_and, true_implies, memcmp_eq_zero_iff, decide_eq_true_eq,
    decide_eq_false_iff_not]

def act (driver_state : FAT32DriverState) (searched : Option (Fin 64))
    : DiskM (Int × FAT32DriverState × List ClusterBuffer) :=
  match searched with
  | some i => found driver_state request i
  | none => return (2, driver_state, [])

theorem run_of_not_live
    (hlive : ¬ (d.table request.parent 0).user_attribute = UATTR_NOT_EMPTY)
    : (read driver_state request).run diskDevice d
        =
      some ((-1, ⟨driver_state.fat_table, d.table request.parent⟩, []), d) := by
  unfold read
  rw [run_read_clusters]
  change Prog.run _ (if ¬ (d.table request.parent 0).user_attribute = UATTR_NOT_EMPTY then _
    else _) _ = _
  rw [if_pos hlive]
  rfl

theorem run_of_live (hlive : (d.table request.parent 0).user_attribute = UATTR_NOT_EMPTY)
    : (read driver_state request).run diskDevice d
        =
      (act request ⟨d.fat, d.table request.parent⟩ (searched request d)).run diskDevice d := by
  unfold read
  rw [run_read_clusters]
  change Prog.run _ (if ¬ (d.table request.parent 0).user_attribute = UATTR_NOT_EMPTY then _
    else _) _ = _
  rw [if_neg (not_not.mpr hlive), run_read_clusters]
  rfl

variable {i : Fin 64}

theorem run_found_directory (hdir : (d.table request.parent i).attribute = ATTR_SUBDIRECTORY)
    : (found ⟨d.fat, d.table request.parent⟩ request i).run diskDevice d
        =
      some ((1, ⟨d.fat, d.table request.parent⟩, []), d) := by
  unfold found
  dsimp only
  rw [if_pos hdir]
  rfl

theorem run_found_file {l : List Nat}
    (hfile : (d.table request.parent i).attribute ≠ ATTR_SUBDIRECTORY)
    (hsize : (d.table request.parent i).filesize ≤ request.buffer_size)
    (hl : Chain.Follows d.fat.next 0x0FFFFFFF (d.table request.parent i).cluster l)
    (hdata : ∀ c ∈ l, c < 512) (hlen : l.length ≤ 512)
    : (found ⟨d.fat, d.table request.parent⟩ request i).run diskDevice d
        =
      some ((0, ⟨d.fat, d.table request.parent⟩, l.map d.cluster), d) := by
  have hnotgt : ¬ (d.table request.parent i).filesize > request.buffer_size := by
    rw [gt_iff_lt, UInt32.not_lt]
    exact hsize
  rw [← FAT32DirectoryEntry.toNat_cluster_add] at hl
  unfold found
  dsimp only
  rw [if_neg hfile, if_neg hnotgt]
  rw [Prog.run_bind, run_walk hl hdata (by omega)]
  rfl

variable {driver_state request d}

theorem found_cases {code : Int} {bufs : List ClusterBuffer}
    (h : (found driver_state request i).run diskDevice d = some ((code, st, bufs), d'))
    : d' = d ∧ st = driver_state := by
  unfold found at h
  dsimp only at h
  split at h
  . simp only [Prog.pure_eq, Prog.run_pure, Option.some.injEq, Prod.mk.injEq] at h
    rw [h.2, h.1.2.1]
    exact ⟨rfl, rfl⟩
  . split at h
    . simp only [Prog.pure_eq, Prog.run_pure, Option.some.injEq, Prod.mk.injEq] at h
      rw [h.2, h.1.2.1]
      exact ⟨rfl, rfl⟩
    . rw [Prog.run_bind, Option.bind_eq_some_iff] at h
      rcases h with ⟨⟨delivered, d''⟩, hwalk, h⟩
      simp only [Prog.pure_eq, Prog.run_pure, Option.some.injEq, Prod.mk.injEq] at h
      rw [← h.2, ← h.1.2.1]
      exact ⟨disk_of_walk hwalk, rfl⟩

theorem run_cases {code : Int} {bufs : List ClusterBuffer}
    (h : (read driver_state request).run diskDevice d = some ((code, st, bufs), d'))
    : d' = d ∧ (st.fat_table = driver_state.fat_table ∨ st.fat_table = d.fat) := by
  by_cases hlive : (d.table request.parent 0).user_attribute = UATTR_NOT_EMPTY
  . rw [run_of_live _ _ _ hlive] at h
    cases hsearched : searched request d with
    | none =>
      rw [hsearched] at h
      unfold act at h
      simp only [Prog.pure_eq, Prog.run_pure, Option.some.injEq, Prod.mk.injEq] at h
      rw [← h.2, ← h.1.2.1]
      exact ⟨rfl, Or.inr rfl⟩
    | some i =>
      rw [hsearched] at h
      rcases found_cases h with ⟨hd, hst⟩
      rw [hst]
      exact ⟨hd, Or.inr rfl⟩
  . rw [run_of_not_live _ _ _ hlive] at h
    simp only [Option.some.injEq, Prod.mk.injEq] at h
    rw [← h.2, ← h.1.2.1]
    exact ⟨rfl, Or.inl rfl⟩

/--
`read` copies the clusters of the entry in slot `i`: it is the first of that name and extension, a
file, and not larger than the buffer.
-/
structure Copies (request : FAT32DriverRequest) (d : Disk) (i : Fin 64) : Prop where
  parent_live : (d.table request.parent 0).user_attribute = UATTR_NOT_EMPTY
  searched : searched request d = some i
  file : (d.table request.parent i).attribute ≠ ATTR_SUBDIRECTORY
  fits : (d.table request.parent i).filesize ≤ request.buffer_size

theorem follows_of_walk {fuel : Nat} {cluster_number : UInt32}
    {delivered result : List ClusterBuffer}
    (h : (walk fat_table fuel cluster_number delivered).run diskDevice d = some (result, d'))
    : ∃ l, Chain.Follows fat_table.next 0x0FFFFFFF cluster_number.toNat l ∧ (∀ c ∈ l, c < 512) ∧
        result = delivered ++ l.map d.cluster := by
  induction fuel generalizing cluster_number delivered with
  | zero =>
    unfold walk at h
    contradiction
  | succ fuel ih =>
    unfold walk at h
    split at h
    . next hstop =>
      simp only [Prog.pure_eq, Prog.run_pure, Option.some.injEq, Prod.mk.injEq] at h
      refine ⟨[], ?_, ?_, ?_⟩
      . rw [hstop]
        rfl
      . simp
      . simp [h.1]
    . next hstop =>
      rw [run_read_clusters] at h
      split at h
      . next hlt =>
        rcases ih h with ⟨l, hl, hdata, hresult⟩
        have hnext := FAT32FileAllocationTable.next_fin fat_table ⟨cluster_number.toNat, hlt⟩
        dsimp only at hnext
        have hne : cluster_number.toNat ≠ 0x0FFFFFFF := fun heq => hstop (UInt32.toNat_inj.mp heq)
        rw [← hnext] at hl
        refine ⟨cluster_number.toNat :: l, ⟨rfl, hne, hl⟩, ?_, ?_⟩
        . simpa using ⟨hlt, hdata⟩
        . rw [hresult, clusterIndex_of_lt (by omega)]
          simp
      . contradiction

theorem length_le_of_links {c : Nat} {l : List Nat} (h : d.Links c l) : l.length ≤ 512 := by
  have hsub : l ⊆ List.range 512 := by
    intro x hx
    rw [List.mem_range]
    apply h.2 x hx
  have hle := (h.1.nodup.subperm hsub).length_le
  rw [List.length_range] at hle
  exact hle

theorem run_of_copies {l : List Nat} (h : Copies request d i)
    (hl : d.Links (d.table request.parent i).cluster l)
    : (read driver_state request).run diskDevice d
        =
      some ((0, ⟨d.fat, d.table request.parent⟩, l.map d.cluster), d) := by
  rw [run_of_live _ _ _ h.parent_live, h.searched]
  unfold act
  apply run_found_file _ _ h.file h.fits hl.1 hl.2 (length_le_of_links hl)

theorem links_of_run {code : Int} {bufs : List ClusterBuffer} (h : Copies request d i)
    (hrun : (read driver_state request).run diskDevice d = some ((code, st, bufs), d'))
    : ∃ l, d.Links (d.table request.parent i).cluster l ∧ bufs = l.map d.cluster := by
  have hfits : ¬ (d.table request.parent i).filesize > request.buffer_size := by
    rw [gt_iff_lt, UInt32.not_lt]
    exact h.fits
  rw [run_of_live _ _ _ h.parent_live, h.searched] at hrun
  unfold act found at hrun
  dsimp only at hrun
  rw [if_neg h.file, if_neg hfits, Prog.run_bind, Option.bind_eq_some_iff] at hrun
  rcases hrun with ⟨⟨delivered, d''⟩, hwalk, hrun⟩
  simp only [Prog.pure_eq, Prog.run_pure, Option.some.injEq, Prod.mk.injEq] at hrun
  rcases follows_of_walk hwalk with ⟨l, hl, hdata, hresult⟩
  rw [FAT32DirectoryEntry.toNat_cluster_add] at hl
  refine ⟨l, ⟨hl, hdata⟩, ?_⟩
  rw [← hrun.1.2.2, hresult, List.nil_append]

-- 1 for a directory, 2 for a name that is not there, -1 for a buffer too small or a parent not live
theorem run_of_not_copies (h : ∀ i, ¬ Copies request d i)
    : ∃ code st, code ≠ 0 ∧
        (read driver_state request).run diskDevice d = some ((code, st, []), d) := by
  by_cases hlive : (d.table request.parent 0).user_attribute = UATTR_NOT_EMPTY
  . rw [run_of_live _ _ _ hlive]
    cases hsearched : searched request d with
    | none => exact ⟨2, ⟨d.fat, d.table request.parent⟩, by decide, rfl⟩
    | some i =>
      by_cases hdir : (d.table request.parent i).attribute = ATTR_SUBDIRECTORY
      . refine ⟨1, ⟨d.fat, d.table request.parent⟩, by decide, ?_⟩
        apply run_found_directory _ _ hdir
      . have hlarge : (d.table request.parent i).filesize > request.buffer_size := by
          rw [gt_iff_lt, ← UInt32.not_le]
          intro hfits
          exact h i ⟨hlive, hsearched, hdir, hfits⟩
        refine ⟨-1, ⟨d.fat, d.table request.parent⟩, by decide, ?_⟩
        unfold act found
        dsimp only
        rw [if_neg hdir, if_pos hlarge]
        rfl
  . exact ⟨-1, _, by decide, run_of_not_live _ _ _ hlive⟩

end read

namespace read_directory

variable {driver_state st : FAT32DriverState} {request : FAT32DriverRequest} {d d' : Disk}

theorem found_cases {code : Int} {bufs : List ClusterBuffer} {i : Fin 64}
    (h : (found ⟨driver_state.fat_table, d.table request.parent⟩ request i).run diskDevice d
      = some ((code, st, bufs), d'))
    : d' = d ∧ st.fat_table = driver_state.fat_table := by
  unfold found at h
  dsimp only at h
  split at h
  . simp only [Prog.pure_eq, Prog.run_pure, Option.some.injEq, Prod.mk.injEq] at h
    rw [← h.2, ← h.1.2.1]
    exact ⟨rfl, rfl⟩
  . have hback : d.writeCluster request.parent (d.table request.parent).toCluster = d := by
      unfold Disk.table
      rw [FAT32DirectoryTable.toCluster_ofCluster, Disk.writeCluster_cluster]
    rw [run_write_clusters, run_read_clusters] at h
    simp only [Prog.pure_eq, Prog.run_pure, Option.some.injEq, Prod.mk.injEq] at h
    rw [← h.2, ← h.1.2.1]
    exact ⟨hback, rfl⟩

theorem run_cases {code : Int} {bufs : List ClusterBuffer}
    (h : (read_directory driver_state request).run diskDevice d = some ((code, st, bufs), d'))
    : d' = d ∧ st.fat_table = driver_state.fat_table := by
  unfold read_directory at h
  rw [run_read_clusters] at h
  change Prog.run _ (if ¬ (d.table request.parent 0).user_attribute = UATTR_NOT_EMPTY then _
    else _) _ = _ at h
  split at h
  . simp only [Prog.pure_eq, Prog.run_pure, Option.some.injEq, Prod.mk.injEq] at h
    rw [← h.2, ← h.1.2.1]
    exact ⟨rfl, rfl⟩
  . split at h
    . apply found_cases h
    . simp only [Prog.pure_eq, Prog.run_pure, Option.some.injEq, Prod.mk.injEq] at h
      rw [← h.2, ← h.1.2.1]
      exact ⟨rfl, rfl⟩

end read_directory
end AiOS
