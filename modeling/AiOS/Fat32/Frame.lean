import AiOS.Fat32.Decision
import AiOS.Fat32.Lemmas.Commit

/-!
This module contains everything a successful `write` with enough empty clusters does to the disk,
and that it does nothing else.
-/

namespace AiOS

open Catalog

namespace write

def Holds (memory : UInt32 → UInt8) (request : FAT32DriverRequest) (bufs : List ClusterBuffer)
    : Prop :=
  ∀ k, k < request.buffer_size.toNat →
    ClusterBuffer.byteOf bufs k = some (memory (request.buf + UInt32.ofNat k))

/--
A table without live entries, the entry 1 of which leads to the parent.
-/
structure NewTable (request : FAT32DriverRequest) (table : FAT32DirectoryTable) : Prop where
  empty : ∀ j : Fin 64, 2 ≤ j.val → (table j).user_attribute ≠ UATTR_NOT_EMPTY
  user_attribute : (table 1).user_attribute = UATTR_NOT_EMPTY
  «attribute» : (table 1).attribute = ATTR_SUBDIRECTORY
  parent : (table 1).cluster = request.parent_cluster_number.toNat

/--
The effect of `write` in slot `i` of the parent and the clusters `cs`.
-/
structure Effect (memory : UInt32 → UInt8) (request : FAT32DriverRequest) (d d' : Disk)
    (i : Fin 64) (cs : List Nat) : Prop where
  live : d'.Live (request.parent_cluster_number.toNat, i)
  name : (d'.entry (request.parent_cluster_number.toNat, i)).name = request.name
  chain : d'.Owns (request.parent_cluster_number.toNat, i) cs
  file : request.buffer_size ≠ 0 →
    let entry := d'.entry (request.parent_cluster_number.toNat, i)
    entry.ext = request.ext ∧ entry.attribute ≠ ATTR_SUBDIRECTORY ∧
      entry.filesize = request.buffer_size ∧ Holds memory request (cs.map d'.cluster)
  directory : request.buffer_size = 0 →
    let entry := d'.entry (request.parent_cluster_number.toNat, i)
    entry.attribute = ATTR_SUBDIRECTORY ∧ NewTable request (d'.table entry.cluster)
  others : ∀ q j, d.Directory q → (q, j) ≠ (request.parent_cluster_number.toNat, i) →
    d'.table q j = d.table q j
  bytes : ∀ s l, d.Live s → (d.entry s).attribute ≠ ATTR_SUBDIRECTORY → d.Owns s l →
    d'.Owns s l ∧ ∀ c ∈ l, d'.cluster c = d.cluster c
  wellFormed : d'.WellFormed

def small : FAT32DriverRequest where
  buf := 0
  name := ![0x73, 0x68, 0x65, 0x6C, 0x6C, 0, 0, 0]
  ext := ![0, 0, 0]
  parent_cluster_number := 2
  buffer_size := 5

section

variable {driver_state st : FAT32DriverState} {memory : UInt32 → UInt8}
  {newDirectoryTable : FAT32DirectoryTable} {request : FAT32DriverRequest} {d d' : Disk}
  {i : Fin 64} {cs : List (Fin 512)}

theorem Committed.holds (h : Committed memory newDirectoryTable request d i cs d')
    (hlen : cs.length = required_clusters request) (hsize : request.buffer_size ≠ 0)
    : Holds memory request ((numbers cs).map d'.cluster) := by
  intro k hk
  have hlt : k / 2048 < cs.length := by
    rw [hlen, required_clusters_eq]
    unfold CLUSTER_SIZE
    omega
  have hcluster := h.content (k / 2048) hlt
  unfold write.content at hcluster
  rw [if_neg hsize] at hcluster
  have hget : ((numbers cs).map d'.cluster)[k / 2048]? = some (d'.cluster cs[k / 2048]) := by
    unfold numbers
    rw [List.map_map, List.getElem?_map, List.getElem?_eq_getElem hlt]
    rfl
  unfold ClusterBuffer.byteOf
  rw [hget, hcluster]
  unfold file_cluster
  rw [Option.map_some, ClusterBuffer.byte_ofBytes]
  have hsum : k / 2048 * CLUSTER_SIZE + k % 2048 = k := by
    unfold CLUSTER_SIZE
    omega
  rw [hsum]

theorem newTable_init_directory_table
    : NewTable request (init_directory_table newDirectoryTable request.name
        request.parent_cluster_number) where
  empty _ hj := init_directory_table_of_le _ _ _ hj
  user_attribute := rfl
  «attribute» := rfl
  parent := toNat_cluster_high_low request.parent_cluster_number

theorem effect_of_staged (hwf : d.WellFormed)
    (hP : d.Directory request.parent_cluster_number.toNat) (hch : Chosen request d i cs)
    (hnodup : cs.Nodup) (h : Staged memory newDirectoryTable request d i cs d')
    (hnew : Committed memory newDirectoryTable request d i cs d')
    : Effect memory request d d' i (numbers cs) := by
  have heq := hwf.parent_eq hP
  have hP' : d.Directory request.parent := by
    rw [heq]
    exact hP
  have hins := h.insert hch hwf hP' hnodup hnew
  have hentry := hnew.entry_eq
  have hlive : d'.Live (request.parent, i) := (hins.live_iff _).mpr (Or.inr rfl)
  rw [heq] at hins hentry hlive
  refine {
    live := hlive
    name := ?_
    chain := hins.owns_new
    file := ?_
    directory := ?_
    others := ?_
    bytes := ?_
    wellFormed := hins.wellFormed hwf }
  . unfold Disk.entry
    dsimp only
    rw [hentry, new_entry_name]
  . intro hsize
    unfold Disk.entry
    dsimp only
    rw [hentry, Ne, new_entry_isDir_iff]
    refine ⟨?_, hsize, ?_, hnew.holds hch.length hsize⟩
    . unfold new_entry
      dsimp only
      rw [if_neg hsize]
    . unfold new_entry
      dsimp only
      rw [if_neg hsize]
  . intro hsize
    have hdir := hnew.isDir_iff.mpr hsize
    have htable := hnew.table_first hch.ne_nil hdir
    unfold Disk.entry
    dsimp only
    rw [heq] at hdir htable
    rw [htable]
    exact ⟨hdir, newTable_init_directory_table⟩
  . intro q j hq hne
    rw [← heq] at hne
    apply h.table_eq hch hwf hq hne
  . intro s l hs hfile hl
    refine ⟨h.owns hch hwf hP' hnodup hs hl, ?_⟩
    intro c hc
    apply h.cluster_eq hch hwf hP' hs hfile hl hc

/--
With enough empty clusters, a `write` that returns 0 takes the first slot that is not live and the
lowest empty clusters, and disturbs nothing else.
-/
theorem write_effect (hwf : d.WellFormed) (hP : d.Directory request.parent_cluster_number.toNat)
    (henough : needed request ≤ (empty_clusters d.fat).length)
    (hrun : (write driver_state memory newDirectoryTable request).run diskDevice d
      = some ((0, st), d'))
    : ∃ i, (free_slots (d.table request.parent_cluster_number.toNat) slots).head? = some i ∧
        Effect memory request d d' i (numbers ((empty_clusters d.fat).take (needed request))) := by
  have heq := hwf.parent_eq hP
  have hneeded : needed request = required_clusters request := by
    rw [required_clusters_eq]
    rfl
  rw [hneeded] at henough ⊢
  rw [← heq] at hP ⊢
  cases run_cases _ _ _ _ _ hrun with
  | inl hfail => exact absurd rfl hfail.1
  | inr hcommit =>
    rcases hcommit with ⟨i, cs, _, hparent, hsearch, _, rfl⟩
    have hfound := search_of_enough _ _ henough hsearch
    have hnodup : cs.Nodup := by
      apply nodup_of_not_short _ _ hparent _ hsearch
      intro hshort
      have hlt := hshort.2.2.1
      omega
    have hch := chosen_of_search hsearch
    have hst := staged_of_chosen memory newDirectoryTable hch hwf hP hnodup
    have hnew := committed_of_chosen memory newDirectoryTable hch hwf hP hnodup
    rw [heq] at hP
    refine ⟨i, hfound.1, ?_⟩
    rw [← hfound.2]
    apply effect_of_staged hwf hP hch hnodup hst hnew

theorem write_effect_fresh
    : ∃ d', ∃ i ∈ (free_slots (fresh.table 2) slots).head?,
        Effect (fun _ => 0x41) small fresh d' i
          (numbers ((empty_clusters fresh.fat).take (needed small))) := by
  have hP : fresh.Directory small.parent_cluster_number.toNat := Directory.root
  have henough : needed small ≤ (empty_clusters fresh.fat).length := by
    rw [length_empty_clusters_fresh]
    decide
  have hroot : small.parent_cluster_number = 2 := rfl
  rcases run_fresh hroot (by decide) .zero (fun _ => 0x41) (fun _ => .zero) with
    ⟨st, d', hrun⟩
  rcases write_effect fresh_wellFormed hP henough hrun with ⟨i, hi, heffect⟩
  exact ⟨d', i, hi, heffect⟩

end

def populated : Disk :=
  committed (fun _ => 0x41) (fun _ => .zero) small fresh 2 [3]

theorem search_fresh {request : FAT32DriverRequest} (hroot : request.parent_cluster_number = 2)
    (hrequired : required_clusters request = 1)
    : search request fresh = some ⟨some 2, [3]⟩ := by
  rcases (search_isSome_iff request fresh).mpr (not_named_fresh hroot) with ⟨⟨slot, cs⟩, hsearch⟩
  cases slot with
  | none =>
    have hlt := lt_of_search_none _ _ hsearch
    rw [length_empty_clusters_fresh, free_slots_fresh hroot, length_slots, hrequired] at hlt
    omega
  | some i =>
    have hfound := search_of_enough _ _ (by rw [length_empty_clusters_fresh]; omega) hsearch
    have hslots : slots.head? = some 2 := by decide
    have hclusters : (empty_clusters fresh.fat).take 1 = [3] := by
      unfold fresh
      rw [create_fat32.created_fat, create_fat32.empty_clusters_fat_table]
      unfold clusters
      rw [List.take_one, List.head?_drop, List.getElem?_eq_getElem (by simp)]
      rw [List.getElem_finRange]
      rfl
    rw [free_slots_fresh hroot, hslots, hrequired, hclusters] at hfound
    rw [hsearch, hfound.2, ← hfound.1]

theorem search_small : search small fresh = some ⟨some 2, [3]⟩ := by
  apply search_fresh rfl
  decide

theorem run_small (driver_state : FAT32DriverState)
    : (write driver_state (fun _ => 0x41) (fun _ => .zero) small).run diskDevice fresh
        =
      some ((0, ⟨link [3] fresh.fat, new_table small fresh 2 [3]⟩), populated) := by
  rw [run_of_parent_ok _ _ _ _ _ (parent_ok_fresh rfl), search_small]
  rfl

theorem chosen_small : Chosen small fresh 2 [3] := by
  apply chosen_of_search search_small

theorem committed_small
    : Committed (fun _ => 0x41) (fun _ => .zero) small fresh 2 [3] populated := by
  apply committed_committed _ _ chosen_small (by decide) (by decide) (by decide)

theorem populated_table
    : populated.table 2
        =
      Function.update (create_fat32.dir_table_buf .zero (fun _ => 0)) 2
        (new_entry (create_fat32.dir_table_buf .zero (fun _ => 0) 2) small 3) := by
  have htable := committed_small.table
  unfold new_table at htable
  have hparent : small.parent = 2 := rfl
  have hfresh : fresh.table 2 = create_fat32.dir_table_buf .zero (fun _ => 0) :=
    create_fat32.created_table _ _ _
  rw [hparent, hfresh] at htable
  exact htable

theorem populated_fat : populated.fat = link [3] create_fat32.fat_table := by
  have hfat := committed_small.fat
  have hfresh : fresh.fat = create_fat32.fat_table := create_fat32.created_fat _ _ _
  rw [hfresh] at hfat
  exact hfat

theorem populated_cluster_zero : populated.cluster 0 0 = fs_signature := by
  unfold populated committed
  rw [Disk.cluster_writeCluster_of_ne _ _ (by decide)]
  rw [Disk.cluster_writeCluster_of_ne _ _ (by decide)]
  rw [Disk.cluster_writeClusters_of_not_mem (by decide)]
  apply create_fat32.created_cluster_zero

theorem populated_wellFormed : populated.WellFormed := by
  have hstaged := staged_committed (fun _ => 0x41) (fun _ => .zero) chosen_small (by decide)
    (by decide) (by decide)
  apply hstaged.wellFormed chosen_small fresh_wellFormed Directory.root (by decide)

end write
end AiOS
