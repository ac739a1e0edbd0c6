import AiOS.Fat32.Lemmas.Create
import AiOS.Fat32.Lemmas.Write
import AiOS.Fat32.Monitor

/-!
This module contains what `write` puts on the disk as a new entry of the catalog, and what the disk
says at every moment before that.
-/

namespace AiOS

open Catalog

namespace write

variable {memory : UInt32 → UInt8} {newDirectoryTable : FAT32DirectoryTable}
  {request : FAT32DriverRequest} {d d' : Disk} {i : Fin 64} {cs : List (Fin 512)}

theorem toNat_cluster_high_low (x : UInt32)
    : (x >>> 16).toUInt16.toNat * 2 ^ 16 + x.toUInt16.toNat = x.toNat := by
  have hlt := x.toNat_lt
  have h16 : (16 : UInt32).toNat % 32 = 16 := rfl
  rw [UInt32.toNat_toUInt16, UInt32.toNat_toUInt16, UInt32.toNat_shiftRight, h16]
  rw [Nat.shiftRight_eq_div_pow]
  omega

section

variable (old : FAT32DirectoryEntry) (request : FAT32DriverRequest) (cluster : UInt32)

@[simp]
theorem new_entry_user_attribute
    : (new_entry old request cluster).user_attribute = UATTR_NOT_EMPTY := by
  unfold new_entry
  dsimp only
  split
  . rfl
  . rfl

@[simp]
theorem new_entry_cluster : (new_entry old request cluster).cluster = cluster.toNat := by
  unfold new_entry FAT32DirectoryEntry.cluster
  dsimp only
  split
  . apply toNat_cluster_high_low
  . apply toNat_cluster_high_low

theorem new_entry_name : (new_entry old request cluster).name = request.name := by
  unfold new_entry
  dsimp only
  split
  . rfl
  . rfl

theorem new_entry_of_file (hsize : request.buffer_size ≠ 0)
    : (new_entry old request cluster).ext = request.ext ∧
        (new_entry old request cluster).filesize = request.buffer_size := by
  unfold new_entry
  dsimp only
  rw [if_neg hsize]
  exact ⟨rfl, rfl⟩

theorem new_entry_isDir_iff
    : (new_entry old request cluster).attribute = ATTR_SUBDIRECTORY
        ↔
      request.buffer_size = 0 := by
  unfold new_entry
  dsimp only
  split
  . next hzero => simp [hzero]
  . next hne =>
    have hfile : (0 : UInt8) ≠ ATTR_SUBDIRECTORY := by decide
    simp [hne, hfile]

theorem new_entry_clusterCount
    : (new_entry old request cluster).clusterCount = required_clusters request := by
  unfold FAT32DirectoryEntry.clusterCount
  split
  . next hdir =>
    rw [new_entry_isDir_iff] at hdir
    rw [required_clusters_of_zero request hdir]
  . next hdir =>
    rw [new_entry_isDir_iff] at hdir
    have hpos : 0 < request.buffer_size.toNat := by
      rw [Nat.pos_iff_ne_zero]
      intro hzero
      apply hdir
      apply UInt32.toNat_inj.mp hzero
    have hsize : (new_entry old request cluster).filesize = request.buffer_size := by
      unfold new_entry
      dsimp only
      rw [if_neg hdir]
    rw [hsize, required_clusters_eq]
    unfold CLUSTER_SIZE
    omega

end

variable (request d) in
/--
A dead slot of the parent, and empty clusters, as many as required.
-/
structure Chosen (i : Fin 64) (cs : List (Fin 512)) : Prop where
  slot : 2 ≤ i.val
  dead : (d.table request.parent i).user_attribute ≠ UATTR_NOT_EMPTY
  length : cs.length = required_clusters request
  data : ∀ c ∈ cs, 3 ≤ c.val
  empty : ∀ c ∈ cs, d.fat c = FAT32_FAT_EMPTY_ENTRY

theorem chosen_of_search (h : search request d = some ⟨some i, cs⟩) : Chosen request d i cs := by
  have hspec := find_slot_spec rfl (required_clusters_pos request) h
  split at hspec
  . contradiction
  . rcases hspec with ⟨⟨k, hk, hik⟩, hlen, hmem⟩
    injection hik with hik
    rw [← hik, mem_free_slots] at hk
    have hempty : ∀ c ∈ cs, c ∈ empty_clusters d.fat := by
      intro c hc
      cases hmem c hc with
      | inl hnil => simp at hnil
      | inr hin => exact hin
    refine ⟨hk.1, hk.2, hlen, ?_, ?_⟩
    . intro c hc
      exact (mem_empty_clusters _ _).mp (hempty c hc) |>.1
    . intro c hc
      exact (mem_empty_clusters _ _).mp (hempty c hc) |>.2

namespace Chosen

variable (h : Chosen request d i cs)

include h

theorem isData : ∀ c ∈ numbers cs, fat32.isData c := by
  intro c hc
  rcases exists_of_mem_numbers hc with ⟨j, hj, rfl⟩
  exact ⟨h.data j hj, j.isLt⟩

theorem isFree : ∀ c ∈ numbers cs, d.volume.next c = fat32.free := by
  intro c hc
  rcases exists_of_mem_numbers hc with ⟨j, hj, rfl⟩
  unfold Disk.volume
  dsimp only
  rw [FAT32FileAllocationTable.next_fin, h.empty j hj]
  rfl

theorem one_not_mem : 1 ∉ numbers cs := by
  intro hone
  have := (h.isData 1 hone).1
  omega

theorem parent_not_mem (hwf : d.WellFormed) (hP : d.Directory request.parent)
    : request.parent ∉ numbers cs := by
  apply hwf.not_mem_of_fresh hP h.isData
  intro s m hs hm
  apply hwf.disjoint_of_free h.isFree hs hm

theorem ne_nil : cs ≠ [] := by
  intro hnil
  have hlen := h.length
  have hpos := required_clusters_pos request
  rw [hnil, List.length_nil] at hlen
  omega

end Chosen

variable (memory newDirectoryTable request d) in
structure Committed (i : Fin 64) (cs : List (Fin 512)) (d' : Disk) : Prop where
  table : d'.table request.parent = new_table request d i cs
  fat : d'.fat = link cs d.fat
  content : ∀ k (hk : k < cs.length),
    d'.cluster cs[k] = content memory newDirectoryTable request k

namespace Committed

variable (h : Committed memory newDirectoryTable request d i cs d')

include h

theorem entry_eq
    : d'.table request.parent i
        =
      new_entry (d.table request.parent i) request (UInt32.ofNat (cs.headD 0)) := by
  rw [h.table]
  unfold new_table
  apply Function.update_self

theorem isDir_iff
    : (d'.table request.parent i).attribute = ATTR_SUBDIRECTORY ↔ request.buffer_size = 0 := by
  rw [h.entry_eq, new_entry_isDir_iff]

theorem first_eq : (d'.table request.parent i).cluster = cs.headD 0 := by
  rw [h.entry_eq, new_entry_cluster, UInt32.toNat_ofNat']
  omega

theorem table_first (hcs : cs ≠ [])
    (hdir : (d'.table request.parent i).attribute = ATTR_SUBDIRECTORY)
    : d'.table (d'.table request.parent i).cluster
        =
      init_directory_table newDirectoryTable request.name request.parent_cluster_number := by
  rw [h.isDir_iff] at hdir
  rw [h.first_eq]
  cases cs with
  | nil => contradiction
  | cons c cs =>
    have hcontent := h.content 0 (by simp)
    unfold write.content at hcontent
    rw [if_pos hdir] at hcontent
    unfold Disk.table
    rw [List.headD_cons]
    rw [List.getElem_cons_zero] at hcontent
    rw [hcontent, FAT32DirectoryTable.ofCluster_toCluster]

theorem chain (hch : Chosen request d i cs) (hnodup : cs.Nodup)
    : Chain.Follows d'.fat.next 0x0FFFFFFF (d'.table request.parent i).cluster (numbers cs) := by
  have hhead : (cs.headD 0).val = (numbers cs).headD 0x0FFFFFFF := by
    cases hcs : cs with
    | nil => exact absurd hcs hch.ne_nil
    | cons c cs => rfl
  rw [h.fat, next_link, h.first_eq, hhead]
  apply Chain.follows_link
  . exact hnodup.map Fin.val_injective
  . intro hmem
    have := (hch.isData _ hmem).2
    omega

theorem insert {s : Disk} (hch : Chosen request d i cs) (hnodup : cs.Nodup)
    (hP : s.Directory request.parent)
    (hdead : (s.table request.parent i).user_attribute ≠ UATTR_NOT_EMPTY)
    (htable : ∀ q j, s.Directory q → (q, j) ≠ (request.parent, i) → d'.table q j = s.table q j)
    (hnext : ∀ t m c, s.Live t → s.Owns t m → c ∈ m → d'.fat.next c = s.fat.next c)
    (hfresh : ∀ t m, s.Live t → s.Owns t m → (numbers cs).Disjoint m)
    : Insert fat32 s.volume d'.volume request.parent i (numbers cs) := by
  refine {
    dir := hP
    slot := hch.slot
    dead := hdead
    live := ?_
    table := fun q j hq _ hne => htable q j hq hne
    next := hnext
    chain := h.chain hch hnodup
    data := hch.isData
    length := ?_
    fresh := hfresh
    empty := ?_ }
  . change (d'.table request.parent i).user_attribute = UATTR_NOT_EMPTY
    rw [h.entry_eq, new_entry_user_attribute]
  . change (numbers cs).length = (d'.table request.parent i).clusterCount
    rw [h.entry_eq, new_entry_clusterCount, ← hch.length]
    apply List.length_map
  . intro hdir j hj
    change (d'.table request.parent i).attribute = ATTR_SUBDIRECTORY at hdir
    change 2 ≤ j.val at hj
    change ¬ (d'.table (d'.table request.parent i).cluster j).user_attribute = UATTR_NOT_EMPTY
    rw [h.table_first hch.ne_nil hdir]
    apply init_directory_table_of_le _ _ _ hj

end Committed

variable (memory newDirectoryTable request d) in
/--
The disk at some moment of a `write` that has chosen slot `i` and the clusters `cs`.
-/
structure Staged (i : Fin 64) (cs : List (Fin 512)) (d' : Disk) : Prop where
  cluster : ∀ c, c ≠ 1 → c ≠ request.parent → c ∉ numbers cs → d'.cluster c = d.cluster c
  fat : ∀ j, j ∉ cs → d'.fat j = d.fat j
  entry : d'.table request.parent = d.table request.parent ∨
    Committed memory newDirectoryTable request d i cs d'

namespace Staged

variable (h : Staged memory newDirectoryTable request d i cs d') (hch : Chosen request d i cs)
  (hwf : d.WellFormed) (hP : d.Directory request.parent)

include h hch hwf

theorem table_of_ne {q : Nat} (hq : d.Directory q) (hne : q ≠ request.parent)
    : d'.table q = d.table q := by
  have hbounds := hwf.directory_bounds hq
  apply Disk.table_congr
  apply h.cluster q (by omega) hne
  apply hwf.not_mem_of_fresh hq hch.isData
  intro s m hs hm
  apply hwf.disjoint_of_free hch.isFree hs hm

theorem table_eq {q : Nat} {j : Fin 64} (hq : d.Directory q) (hne : (q, j) ≠ (request.parent, i))
    : d'.table q j = d.table q j := by
  by_cases hqP : q = request.parent
  . rw [hqP] at hne ⊢
    cases h.entry with
    | inl hold => rw [hold]
    | inr hnew =>
      rw [hnew.table]
      unfold new_table
      apply Function.update_of_ne
      intro hji
      rw [hji] at hne
      contradiction
  . rw [h.table_of_ne hch hwf hq hqP]

theorem cluster_eq {s : Nat × Fin 64} {l : List Nat} {c : Nat}
    (hP : d.Directory request.parent) (hs : d.Live s)
    (hfile : (d.entry s).attribute ≠ ATTR_SUBDIRECTORY) (hl : d.Owns s l) (hc : c ∈ l)
    : d'.cluster c = d.cluster c := by
  have hdata := (hwf.data hs hl c hc).1
  apply h.cluster c (by omega)
  . intro heq
    apply hwf.not_mem_of_directory hs hfile hl hP
    rw [← heq]
    exact hc
  . intro hmem
    exact hwf.disjoint_of_free hch.isFree hs hl hmem hc

theorem agrees (hold : d'.table request.parent = d.table request.parent)
    : Agrees fat32 d.volume d'.volume := by
  apply hwf.agrees_of_free hch.isData hch.isFree
  . intro q hq _
    by_cases hne : q = request.parent
    . rw [hne]
      exact hold
    . exact h.table_of_ne hch hwf hq hne
  . intro c hc
    exact FAT32FileAllocationTable.next_congr h.fat hc

include hP

theorem insert (hnodup : cs.Nodup) (hnew : Committed memory newDirectoryTable request d i cs d')
    : Insert fat32 d.volume d'.volume request.parent i (numbers cs) := by
  apply hnew.insert hch hnodup hP hch.dead
  . intro q j hq hne
    apply h.table_eq hch hwf hq hne
  . intro s m c hs hm hc
    apply FAT32FileAllocationTable.next_congr h.fat
    intro hmem
    exact hwf.disjoint_of_free hch.isFree hs hm hmem hc
  . intro s m hs hm
    apply hwf.disjoint_of_free hch.isFree hs hm

theorem owns (hnodup : cs.Nodup) {s : Nat × Fin 64} {l : List Nat} (hs : d.Live s)
    (hl : d.Owns s l)
    : d'.Owns s l := by
  cases h.entry with
  | inl hold => apply (h.agrees hch hwf hold).owns hs hl
  | inr hnew => apply (h.insert hch hwf hP hnodup hnew).owns hs hl

theorem wellFormed (hnodup : cs.Nodup) : d'.WellFormed := by
  cases h.entry with
  | inl hold => exact (h.agrees hch hwf hold).wellFormed hwf
  | inr hnew => exact (h.insert hch hwf hP hnodup hnew).wellFormed hwf

end Staged

section

variable {α : Type} {I : Disk → Prop} {loaded : FAT32FileAllocationTable}
  (hone : 1 ∉ numbers cs) (hI : ∀ d', (∀ c, c ∉ numbers cs → d'.cluster c = d.cluster c) → I d')

include hone hI

theorem always_file_clusters {d₀ : Disk} {buf : UInt32} {k : Nat} {js : List (Fin 512)}
    {fat_table : FAT32FileAllocationTable} {f : FAT32FileAllocationTable → DiskM α}
    (hjs : ∀ j ∈ js, j ∈ cs) (hd : ∀ c, c ∉ numbers cs → d₀.cluster c = d.cluster c)
    (h : (f (link js fat_table)).Always diskDevice fatMonitor I loaded
      (d₀.writeClusters (file_cluster memory buf) k js))
    : (file_clusters memory buf k js fat_table >>= f).Always diskDevice fatMonitor I loaded d₀ := by
  induction js generalizing d₀ k fat_table with
  | nil => exact h
  | cons j js ih =>
    have hj : j.val ∈ numbers cs := mem_numbers.mpr (hjs j List.mem_cons_self)
    have hstage : ∀ b, ∀ c, c ∉ numbers cs →
        (d₀.writeFirst (4 * j) b (file_cluster memory buf k)).cluster c = d.cluster c := by
      intro b c hc
      have hne : c ≠ j := fun heq => hc (heq ▸ hj)
      rw [Disk.cluster_writeFirst, if_neg hne]
      apply hd c hc
    unfold file_clusters
    rw [Prog.bind_assoc]
    apply fatMonitor.always_write_clusters
    . rw [clusterIndex_ofNat]
      exact fun heq => hone (heq ▸ hj)
    . intro b
      rw [clusterIndex_ofNat]
      apply hI _ (hstage b)
    . rw [clusterIndex_ofNat]
      apply ih
      . intro x hx
        apply hjs x (List.mem_cons_of_mem j hx)
      . apply hstage 4
      . exact h

theorem always_fill {fat_table : FAT32FileAllocationTable} {f : FAT32FileAllocationTable → DiskM α}
    (hlen : cs.length = required_clusters request)
    (h : (f (link cs fat_table)).Always diskDevice fatMonitor I loaded
      (d.writeClusters (content memory newDirectoryTable request) 0 cs))
    : (fill memory newDirectoryTable request cs fat_table >>= f).Always diskDevice fatMonitor I
        loaded d := by
  unfold fill
  unfold content at h
  split
  . next hzero =>
    rw [required_clusters_of_zero request hzero] at hlen
    rcases List.length_eq_one_iff.mp hlen with ⟨c, hc⟩
    subst hc
    simp only [hzero, if_true] at h
    have hmem : c.val ∈ numbers [c] := mem_numbers.mpr List.mem_cons_self
    unfold directory_cluster
    rw [Prog.bind_assoc]
    apply fatMonitor.always_write_clusters
    . rw [List.headD_cons, clusterIndex_ofNat]
      exact fun heq => hone (heq ▸ hmem)
    . intro b
      apply hI
      intro x hx
      rw [List.headD_cons, clusterIndex_ofNat, Disk.cluster_writeFirst]
      have hne : x ≠ c := fun heq => hx (heq ▸ hmem)
      rw [if_neg hne]
    . rw [List.headD_cons, clusterIndex_ofNat]
      exact h
  . next hne =>
    simp only [hne, if_false] at h
    apply always_file_clusters hone hI
    . intro j hj
      exact hj
    . intro c _
      rfl
    . exact h

end

section

variable (memory newDirectoryTable request d cs)

def filled : Disk :=
  d.writeClusters (content memory newDirectoryTable request) 0 cs

def linked : Disk :=
  (filled memory newDirectoryTable request d cs).writeCluster 1 (link cs d.fat).toCluster

theorem linked_fat : (linked memory newDirectoryTable request d cs).fat = link cs d.fat := by
  apply Disk.fat_writeCluster

theorem linked_cluster {c : Nat} (hc : c ≠ 1)
    : (linked memory newDirectoryTable request d cs).cluster c
        =
      (filled memory newDirectoryTable request d cs).cluster c := by
  unfold linked
  rw [Disk.cluster_writeCluster_of_ne _ _ hc]

theorem linked_table {q : Nat} (hq : q ≠ 1) (hmem : q ∉ numbers cs)
    : (linked memory newDirectoryTable request d cs).cluster q = (d.table q).toCluster := by
  rw [linked_cluster _ _ _ _ _ hq]
  unfold filled Disk.table
  rw [Disk.cluster_writeClusters_of_not_mem hmem, FAT32DirectoryTable.toCluster_ofCluster]

end

namespace Staged

variable (hch : Chosen request d i cs)

include hch

theorem of_data (hmem : request.parent ∉ numbers cs)
    (hd : ∀ c, c ∉ numbers cs → d'.cluster c = d.cluster c)
    : Staged memory newDirectoryTable request d i cs d' where
  cluster c _ _ hc := hd c hc
  fat j _ := by rw [Disk.fat_congr (hd 1 hch.one_not_mem)]
  entry := Or.inl (Disk.table_congr (hd _ hmem))

variable (hone : request.parent ≠ 1) (hmem : request.parent ∉ numbers cs) (b : Nat)

include hone hmem

theorem of_fat
    : Staged memory newDirectoryTable request d i cs
        ((filled memory newDirectoryTable request d cs).writeFirst (4 * 1) b
          (link cs d.fat).toCluster) where
  cluster c hc _ hcs := by
    rw [Disk.cluster_writeFirst, if_neg hc]
    apply Disk.cluster_writeClusters_of_not_mem hcs
  fat j hj := by
    have hfat : (filled memory newDirectoryTable request d cs).fat = d.fat := by
      apply Disk.fat_congr
      apply Disk.cluster_writeClusters_of_not_mem hch.one_not_mem
    unfold Disk.fat
    rw [Disk.cluster_writeFirst, if_pos rfl, FAT32FileAllocationTable.ofCluster_torn]
    split
    . apply link_of_not_mem hj
    . apply congrFun hfat
  entry := by
    left
    apply Disk.table_congr
    rw [Disk.cluster_writeFirst, if_neg hone]
    apply Disk.cluster_writeClusters_of_not_mem hmem

omit hch hmem in
theorem fat_of_table
    : ((linked memory newDirectoryTable request d cs).writeFirst (4 * request.parent) b
        (new_table request d i cs).toCluster).fat
        =
      link cs d.fat := by
  rw [← linked_fat memory newDirectoryTable request d cs]
  apply Disk.fat_congr
  rw [Disk.cluster_writeFirst, if_neg hone.symm]

omit hch in
theorem table_of_table
    : ((linked memory newDirectoryTable request d cs).writeFirst (4 * request.parent) b
        (new_table request d i cs).toCluster).table request.parent
        =
      if i.val < 16 * b then new_table request d i cs else d.table request.parent := by
  conv => lhs; unfold Disk.table
  rw [Disk.cluster_writeFirst, if_pos rfl, linked_table _ _ _ _ _ hone hmem]
  apply FAT32DirectoryTable.ofCluster_torn_update

theorem committed_of_table (hnodup : cs.Nodup) (hb : i.val < 16 * b)
    : Committed memory newDirectoryTable request d i cs
        ((linked memory newDirectoryTable request d cs).writeFirst (4 * request.parent) b
          (new_table request d i cs).toCluster) where
  table := by rw [table_of_table hone hmem, if_pos hb]
  fat := fat_of_table hone b
  content k hk := by
    have hmemk : (cs[k]).val ∈ numbers cs := mem_numbers.mpr (List.getElem_mem hk)
    have hP : (cs[k]).val ≠ request.parent := fun heq => hmem (heq ▸ hmemk)
    have h1 : (cs[k]).val ≠ 1 := fun heq => hch.one_not_mem (heq ▸ hmemk)
    rw [Disk.cluster_writeFirst, if_neg hP, linked_cluster _ _ _ _ _ h1]
    unfold filled
    rw [Disk.cluster_writeClusters_getElem hnodup, Nat.zero_add]

theorem of_table (hnodup : cs.Nodup)
    : Staged memory newDirectoryTable request d i cs
        ((linked memory newDirectoryTable request d cs).writeFirst (4 * request.parent) b
          (new_table request d i cs).toCluster) where
  cluster c h1 hP hcs := by
    rw [Disk.cluster_writeFirst, if_neg hP, linked_cluster _ _ _ _ _ h1]
    apply Disk.cluster_writeClusters_of_not_mem hcs
  fat j hj := by rw [fat_of_table hone, link_of_not_mem hj]
  entry := by
    by_cases hb : i.val < 16 * b
    . exact Or.inr (committed_of_table hch hone hmem b hnodup hb)
    . left
      rw [table_of_table hone hmem, if_neg hb]

end Staged

section

variable (memory newDirectoryTable) (hch : Chosen request d i cs) (hone : request.parent ≠ 1)
  (hmem : request.parent ∉ numbers cs) (hnodup : cs.Nodup)

include hch hone hmem hnodup

theorem staged_committed
    : Staged memory newDirectoryTable request d i cs
        (committed memory newDirectoryTable request d i cs) := by
  apply Staged.of_table hch hone hmem 4 hnodup

theorem committed_committed
    : Committed memory newDirectoryTable request d i cs
        (committed memory newDirectoryTable request d i cs) := by
  apply Staged.committed_of_table hch hone hmem 4 hnodup
  omega

end

section

variable (memory newDirectoryTable) (hch : Chosen request d i cs) (hwf : d.WellFormed)
  (hP : d.Directory request.parent) (hnodup : cs.Nodup)

include hch hwf hP hnodup

theorem staged_of_chosen
    : Staged memory newDirectoryTable request d i cs
        (committed memory newDirectoryTable request d i cs) := by
  apply staged_committed memory newDirectoryTable hch (hwf.directory_ne_one hP)
    (hch.parent_not_mem hwf hP) hnodup

theorem committed_of_chosen
    : Committed memory newDirectoryTable request d i cs
        (committed memory newDirectoryTable request d i cs) := by
  apply committed_committed memory newDirectoryTable hch (hwf.directory_ne_one hP)
    (hch.parent_not_mem hwf hP) hnodup

end

section

variable (hP : 2 ≤ request.parent) {I : Disk → Prop}

include hP

theorem always_act {i : Fin 64} (hch : Chosen request d i cs) (hmem : request.parent ∉ numbers cs)
    (hnodup : cs.Nodup)
    (hI : ∀ d', Staged memory newDirectoryTable request d i cs d' → I d')
    : (act memory newDirectoryTable request (d.table request.parent) d.fat
        (some ⟨some i, cs⟩)).Always diskDevice fatMonitor I d.fat d := by
  have hone : request.parent ≠ 1 := by omega
  unfold act
  apply always_fill hch.one_not_mem
  . intro d' hd
    apply hI
    apply Staged.of_data hch hmem hd
  . apply hch.length
  . apply fatMonitor.always_write_fat
    . intro b
      apply hI
      apply Staged.of_fat hch hone hmem
    . intro j hj
      have hfat : (d.writeClusters (content memory newDirectoryTable request) 0 cs).fat = d.fat := by
        apply Disk.fat_congr
        apply Disk.cluster_writeClusters_of_not_mem hch.one_not_mem
      rw [hfat] at hj
      exact hj
    . apply fatMonitor.always_write_clusters hone
      . intro b
        apply hI
        apply Staged.of_table hch hone hmem b hnodup
      . apply hI
        apply Staged.of_table hch hone hmem 4 hnodup

theorem always_write (driver_state : FAT32DriverState) (loaded : FAT32FileAllocationTable)
    (hd : I d)
    (hI : ∀ i cs, parent_ok (d.table request.parent) → search request d = some ⟨some i, cs⟩ →
      cs.Nodup ∧ request.parent ∉ numbers cs ∧
        ∀ d', Staged memory newDirectoryTable request d i cs d' → I d')
    : (write driver_state memory newDirectoryTable request).Always diskDevice fatMonitor I loaded
        d := by
  have hone : request.parent ≠ 1 := by omega
  rw [write_eq_body]
  apply fatMonitor.always_read_clusters hone hd
  apply fatMonitor.always_read_fat hd
  change (body memory newDirectoryTable request (d.table request.parent) d.fat).Always _ _ _ _ _
  by_cases hparent : parent_ok (d.table request.parent)
  . rw [body_of_parent_ok _ _ _ _ hparent]
    cases hsearch : search request d with
    | none => exact hd
    | some found =>
      rcases found with ⟨slot, cs⟩
      cases slot with
      | none => exact hd
      | some i =>
        rcases hI i cs hparent hsearch with ⟨hnodup, hmem, hI⟩
        apply always_act hP (chosen_of_search hsearch) hmem hnodup hI
  . rw [body_of_not_parent_ok _ _ _ _ hparent]
    exact hd

end

end write
end AiOS
