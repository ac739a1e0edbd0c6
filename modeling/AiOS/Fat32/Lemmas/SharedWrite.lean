import AiOS.Fat32.Notes
import AiOS.Fat32.Lemmas.Commit

/-!
This module contains that `write` keeps what other operations own, whatever they do between its
commands.
-/

namespace AiOS

open Catalog

namespace write

variable {memory : UInt32 → UInt8} {newDirectoryTable : FAT32DirectoryTable}
  {request : FAT32DriverRequest} {d s : Disk} {i : Fin 64} {cs : List (Fin 512)}
  {mine others : Set Nat}

theorem Chosen.congr (h : Chosen request d i cs)
    (htable : s.table request.parent = d.table request.parent) (hfat : s.fat = d.fat)
    : Chosen request s i cs where
  slot := h.slot
  dead := by
    rw [htable]
    exact h.dead
  length := h.length
  data := h.data
  empty := by
    rw [hfat]
    exact h.empty

theorem Chosen.disjoint (h : Chosen request s i cs) (hs : s.Shared mine others)
    : Disjoint {c | c ∈ numbers cs} others := by
  rw [Set.disjoint_left]
  intro c hc hothers
  have hheld : s.Held c := hs.owned_others c hothers
  apply hheld.used
  apply h.isFree c hc

section

variable (hch : Chosen request d i cs) (hs : s.Shared ∅ others) (hP : s.Directory request.parent)
  (htable : s.table request.parent = d.table request.parent) (hfat : s.fat = d.fat)

include hch hs hP htable hfat

theorem shared_data {j : Fin 512} (hj : j ∈ cs) (ptr : ClusterBuffer)
    : (s.writeCluster j ptr).Shared ∅ others := by
  have hch := hch.congr htable hfat
  have hmem := hch.parent_not_mem hs.inv hP
  have hcluster : ∀ c, c ∉ numbers cs → (s.writeCluster j ptr).cluster c = s.cluster c := by
    intro c hc
    apply Disk.cluster_writeCluster_of_ne
    intro heq
    rw [heq, mem_numbers] at hc
    exact hc hj
  have hstaged : Staged (fun _ => 0) (fun _ => .zero) request s i cs (s.writeCluster j ptr) :=
    Staged.of_data hch hmem hcluster
  apply hs.of_agrees (hstaged.agrees hch hs.inv (Disk.table_congr (hcluster _ hmem)))
  . intro c hc
    exact absurd hc (Set.notMem_empty c)
  . intro c _
    rw [Disk.fat_congr (hcluster 1 hch.one_not_mem)]
  . apply disjoint_bot_left

theorem shared_fat
    : (s.writeCluster 1 (link cs d.fat).toCluster).Shared {c | c ∈ numbers cs} others := by
  have hch := hch.congr htable hfat
  rw [← hfat]
  have hone : request.parent ≠ 1 := Disk.WellFormed.directory_ne_one hs.inv hP
  have hold : (s.writeCluster 1 (link cs s.fat).toCluster).table request.parent
      = s.table request.parent := by
    apply Disk.table_congr
    apply Disk.cluster_writeCluster_of_ne _ _ hone
  have hlink : ∀ j, j ∉ cs → (s.writeCluster 1 (link cs s.fat).toCluster).fat j = s.fat j := by
    intro j hj
    rw [Disk.fat_writeCluster, link_of_not_mem hj]
  have hstaged : Staged (fun _ => 0) (fun _ => .zero) request s i cs
      (s.writeCluster 1 (link cs s.fat).toCluster) := by
    refine { cluster := ?_, fat := hlink, entry := Or.inl hold }
    intro c hc _ _
    apply Disk.cluster_writeCluster_of_ne _ _ hc
  have hagrees := hstaged.agrees hch hs.inv hold
  apply hs.of_agrees hagrees
  . intro c hc
    apply Held.of_agrees hagrees hs.inv (hch.isData c hc)
    . change (s.writeCluster 1 (link cs s.fat).toCluster).fat.next c ≠ 0
      rw [Disk.fat_writeCluster, next_link]
      cases Chain.link_mem hc with
      | inl hstop =>
        rw [hstop]
        decide
      | inr hmem =>
        have := (hch.isData _ hmem).1
        omega
    . intro t m ht hm
      apply hs.inv.disjoint_of_free hch.isFree ht hm hc
  . intro c hc
    apply FAT32FileAllocationTable.next_congr hlink
    intro hmem
    exact Set.disjoint_left.mp (hch.disjoint hs) hmem hc
  . apply hch.disjoint hs

end

theorem shared_table (memory : UInt32 → UInt8) (newDirectoryTable : FAT32DirectoryTable)
    (hch : Chosen request d i cs) (hnodup : cs.Nodup) (hs : s.Shared {c | c ∈ numbers cs} others)
    (hP : s.Directory request.parent)
    (htable : s.table request.parent = d.table request.parent) (hfat : s.fat = link cs d.fat)
    (hcontent : ∀ k (hk : k < cs.length),
      s.cluster cs[k] = content memory newDirectoryTable request k)
    : (s.writeCluster request.parent (new_table request d i cs).toCluster).Shared ∅ others := by
  have hone : request.parent ≠ 1 := Disk.WellFormed.directory_ne_one hs.inv hP
  have hfresh : ∀ t m, s.Live t → s.Owns t m → (numbers cs).Disjoint m := by
    intro t m ht hm c hc
    have hheld : s.Held c := hs.owned_mine c hc
    apply hheld.apart t m ht hm
  have hmem : request.parent ∉ numbers cs :=
    hs.inv.not_mem_of_fresh hP hch.isData hfresh
  have hfat' : (s.writeCluster request.parent (new_table request d i cs).toCluster).fat = s.fat :=
    Disk.fat_congr (Disk.cluster_writeCluster_of_ne _ _ hone.symm)
  have hnew : Committed memory newDirectoryTable request d i cs
      (s.writeCluster request.parent (new_table request d i cs).toCluster) := by
    refine { table := ?_, fat := ?_, content := ?_ }
    . apply Disk.table_writeCluster
    . rw [hfat', hfat]
    . intro k hk
      rw [Disk.cluster_writeCluster_of_ne, hcontent k hk]
      intro heq
      apply hmem
      rw [← heq, mem_numbers]
      apply List.getElem_mem
  have hinsert : Insert fat32 s.volume
      (s.writeCluster request.parent (new_table request d i cs).toCluster).volume
      request.parent i (numbers cs) := by
    apply hnew.insert hch hnodup hP
    . rw [htable]
      exact hch.dead
    . intro q j _ hne
      by_cases hq : q = request.parent
      . rw [hq] at hne ⊢
        rw [Disk.table_writeCluster, htable]
        unfold new_table
        apply Function.update_of_ne
        intro hji
        rw [hji] at hne
        contradiction
      . rw [Disk.table_congr (Disk.cluster_writeCluster_of_ne _ _ hq)]
    . intro t m c _ _ _
      rw [hfat']
    . exact hfresh
  refine {
    inv := hinsert.wellFormed hs.inv
    owned_mine := ?_
    owned_others := ?_
    apart := disjoint_bot_left }
  . intro c hc
    exact absurd hc (Set.notMem_empty c)
  . intro c hc
    have hheld : s.Held c := hs.owned_others c hc
    apply Held.of_insert hinsert hs.inv hheld
    . intro hmine
      exact Set.disjoint_left.mp hs.apart hmine hc
    . change (s.writeCluster request.parent (new_table request d i cs).toCluster).fat.next c = _
      rw [hfat']
      rfl

section

variable {α : Type} {op : Operation} {g : Notes} {fat_table : FAT32FileAllocationTable}
  {f : FAT32FileAllocationTable → DiskM α} (hop : op.request = request)
  (hch : Chosen request d i cs) (hmem : request.parent ∉ numbers cs)

include hop hch hmem

omit hmem in
theorem guarded_write_data {ptr : ClusterBuffer} {j : Fin 512} {f : Unit → DiskM α}
    (hj : j ∈ cs) (hg : Noted request d g) (h : op.Guarded (f ()) (g.written j ptr) ∅)
    : op.Guarded (write_clusters ptr (UInt32.ofNat j) >>= f) g ∅ := by
  have hone : j.val ≠ 1 := fun heq => hch.one_not_mem (heq ▸ mem_numbers.mpr hj)
  apply Operation.guarded_write_clusters ∅
  . intro s others hs hP huptodate _
    rw [hop] at hP
    rw [clusterIndex_ofNat]
    refine ⟨Disk.keepsFatBut_of_ne_one hone, ?_⟩
    apply shared_data hch hs hP (hg.table_eq huptodate) (hg.fat_eq huptodate) hj
  . rw [clusterIndex_ofNat]
    exact h

theorem guarded_file_clusters {buf : UInt32} {k : Nat} {js : List (Fin 512)}
    (hjs : ∀ j ∈ js, j ∈ cs) (hg : Noted request d g)
    (h : ∀ g', Noted request d g' →
      g'.current = g.current.writeClusters (file_cluster memory buf) k js →
        (∀ c ∈ g.seen, c ∈ g'.seen) → (∀ j ∈ js, j.val ∈ g'.seen) →
          op.Guarded (f (link js fat_table)) g' ∅)
    : op.Guarded (file_clusters memory buf k js fat_table >>= f) g ∅ := by
  induction js generalizing g k fat_table with
  | nil =>
    apply h g hg rfl
    . intro c hc
      exact hc
    . intro j hj
      exact absurd hj List.not_mem_nil
  | cons j js ih =>
    have hj := hjs j List.mem_cons_self
    have hone : 1 ≠ j.val := fun heq => hch.one_not_mem (heq ▸ mem_numbers.mpr hj)
    have hparent : request.parent ≠ j := fun heq => hmem (heq ▸ mem_numbers.mpr hj)
    unfold file_clusters
    rw [Prog.bind_assoc]
    apply guarded_write_data hop hch hj hg
    apply ih
    . intro x hx
      apply hjs x (List.mem_cons_of_mem j hx)
    . apply hg.written hone hparent
    . intro g' hg' hcurrent hseen hcs
      apply h g' hg' hcurrent
      . intro c hc
        apply hseen c (List.mem_cons_of_mem _ hc)
      . intro x hx
        cases List.mem_cons.mp hx with
        | inl heq =>
          rw [heq]
          apply hseen _ List.mem_cons_self
        | inr hmem => apply hcs x hmem

theorem guarded_fill (hg : Noted request d g) (hcurrent : g.current = d)
    (h : ∀ g', Noted request d g' → g'.current = filled memory newDirectoryTable request d cs →
      (∀ j ∈ cs, j.val ∈ g'.seen) → op.Guarded (f (link cs fat_table)) g' ∅)
    : op.Guarded (fill memory newDirectoryTable request cs fat_table >>= f) g ∅ := by
  unfold filled content at h
  unfold fill
  split
  . next hzero =>
    have hlen := hch.length
    rw [required_clusters_of_zero request hzero] at hlen
    rcases List.length_eq_one_iff.mp hlen with ⟨c, hc⟩
    subst hc
    simp only [hzero, if_true] at h
    have hone : 1 ≠ c.val := fun heq => hch.one_not_mem (heq ▸ mem_numbers.mpr List.mem_cons_self)
    have hparent : request.parent ≠ c := fun heq => hmem (heq ▸ mem_numbers.mpr List.mem_cons_self)
    unfold directory_cluster
    rw [Prog.bind_assoc, List.headD_cons]
    apply guarded_write_data hop hch List.mem_cons_self hg
    apply h _ (hg.written hone hparent _)
    . rw [← hcurrent]
      rfl
    . intro j hj
      rw [List.mem_singleton.mp hj]
      apply List.mem_cons_self
  . next hne =>
    simp only [hne, if_false] at h
    apply guarded_file_clusters hop hch hmem (fun j hj => hj) hg
    intro g' hg' hcurrent' _ hcs
    apply h g' hg' _ hcs
    rw [hcurrent', hcurrent]

-- a parent among the empty clusters is no directory, so that the first write is not allowed either
omit hmem in
theorem guarded_fill_of_not_sane (hnot : ¬ (request.parent ∉ numbers cs ∧ op.Sane d))
    (hg : Noted request d g)
    : op.Guarded (fill memory newDirectoryTable request cs fat_table >>= f) g ∅ := by
  have hfalse : ∀ (s : Disk) others, s.Shared ∅ others → s.Directory op.request.parent →
      g.UpToDate s → op.Sane g.loaded → False := by
    intro s others hs hP huptodate hsane
    rw [hop] at hP
    rw [hg.loaded] at hsane
    have hch := hch.congr (hg.table_eq huptodate) (hg.fat_eq huptodate)
    apply hnot
    exact ⟨hch.parent_not_mem hs.inv hP, hsane⟩
  unfold fill
  split
  . unfold directory_cluster
    rw [Prog.bind_assoc]
    apply Operation.guarded_write_clusters_of_false hfalse
  . cases cs with
    | nil => exact absurd rfl hch.ne_nil
    | cons c cs =>
      unfold file_clusters
      rw [Prog.bind_assoc]
      apply Operation.guarded_write_clusters_of_false hfalse

end

section

variable {op : Operation} {g : Notes} (hop : op.request = request)
  (hclusters : op.clusters d = cs) (hch : Chosen request d i cs)

include hop hclusters hch

theorem guarded_finish (hmem : request.parent ∉ numbers cs) (hone : request.parent ≠ 1)
    (hnodup : cs.Nodup) (hg : Noted request d g)
    (hcurrent : g.current = filled memory newDirectoryTable request d cs)
    (hseen : ∀ j ∈ cs, j.val ∈ g.seen) (result : Int × FAT32DriverState)
    : op.Guarded
        (do
          write_clusters (link cs d.fat).toCluster 1
          write_clusters (new_table request d i cs).toCluster request.parent_cluster_number
          return result)
        g ∅ := by
  have hfat : clusterIndex 1 = 1 := by decide
  apply Operation.guarded_write_clusters {c | c ∈ numbers cs}
  . intro s others hs hP huptodate _
    rw [hop] at hP
    have hfats := hg.fat_eq huptodate
    rw [hfat]
    refine ⟨?_, shared_fat hch hs hP (hg.table_eq huptodate) hfats⟩
    intro j hj
    have hjcs : j ∈ cs := by
      by_contra hjcs
      apply hj
      rw [Disk.fat_writeCluster, link_of_not_mem hjcs, hfats]
    rw [hg.loaded, hclusters, hfats]
    exact ⟨hjcs, Or.inl (hch.empty j hjcs)⟩
  . rw [hfat]
    have hlinked : (g.written 1 (link cs d.fat).toCluster).current
        = linked memory newDirectoryTable request d cs := by
      unfold Notes.written
      rw [hcurrent]
      rfl
    apply Operation.guarded_write_clusters ∅
    . intro s others hs hP huptodate _
      rw [hop] at hP
      have hcluster : ∀ c ∈ (g.written 1 (link cs d.fat).toCluster).seen,
          s.cluster c = (linked memory newDirectoryTable request d cs).cluster c := by
        rw [← hlinked]
        exact huptodate
      refine ⟨Disk.keepsFatBut_of_ne_one hone, ?_⟩
      apply shared_table memory newDirectoryTable hch hnodup hs hP
      . have hparent := hcluster _ (List.mem_cons_of_mem _ hg.seen_parent)
        rw [linked_table _ _ _ _ _ hone hmem] at hparent
        unfold Disk.table at hparent ⊢
        rw [hparent, FAT32DirectoryTable.ofCluster_toCluster]
      . rw [Disk.fat_congr (hcluster 1 List.mem_cons_self), linked_fat]
      . intro k hk
        have hmemk : (cs[k]).val ∈ numbers cs := mem_numbers.mpr (List.getElem_mem hk)
        have hnek : (cs[k]).val ≠ 1 := fun heq => hch.one_not_mem (heq ▸ hmemk)
        rw [hcluster _ (List.mem_cons_of_mem _ (hseen _ (List.getElem_mem hk)))]
        rw [linked_cluster _ _ _ _ _ hnek]
        unfold filled
        rw [Disk.cluster_writeClusters_getElem hnodup, Nat.zero_add]
    . apply Operation.guarded_pure

end

theorem guarded_act {op : Operation} {g : Notes} (hop : op = .write memory newDirectoryTable request)
    (hone : request.parent ≠ 1) (hg : Noted request d g) (hcurrent : g.current = d)
    (hparent : parent_ok (d.table request.parent)) (hsearch : search request d = some ⟨some i, cs⟩)
    : op.Guarded
        (act memory newDirectoryTable request (d.table request.parent) d.fat (some ⟨some i, cs⟩))
        g ∅ := by
  have hrequest : op.request = request := by
    rw [hop]
    rfl
  have hclusters : op.clusters d = cs := by
    rw [hop]
    unfold Operation.clusters
    dsimp only
    rw [hsearch]
  have hch := chosen_of_search hsearch
  unfold act
  by_cases hgood : request.parent ∉ numbers cs ∧ op.Sane d
  . have hnodup : cs.Nodup := by
      rw [hop] at hgood
      apply nodup_of_not_short request d hparent hgood.2 hsearch
    apply guarded_fill hrequest hch hgood.1 hg hcurrent
    intro g' hg' hcurrent' hseen
    apply guarded_finish hrequest hclusters hch hgood.1 hone hnodup hg' hcurrent' hseen
  . apply guarded_fill_of_not_sane hrequest hch hgood hg

theorem noted_of_read (hone : request.parent ≠ 1) (dir_table_buf fat_table : ClusterBuffer)
    : ∃ d, (Notes.blank.read request.parent dir_table_buf).read 1 fat_table
          = ⟨d, d, [1, request.parent]⟩ ∧
        d.table request.parent = .ofCluster dir_table_buf ∧ d.fat = .ofCluster fat_table := by
  have hblank : request.parent ∉ Notes.blank.seen := List.not_mem_nil
  have hfat : 1 ∉ (Notes.blank.read request.parent dir_table_buf).seen := by
    rw [Notes.read_of_not_mem hblank]
    intro h
    exact hone (List.mem_singleton.mp h).symm
  rw [Notes.read_of_not_mem hfat, Notes.read_of_not_mem hblank]
  refine ⟨_, rfl, ?_, ?_⟩
  . rw [Disk.table_congr (Disk.cluster_writeCluster_of_ne _ _ hone)]
    unfold Disk.table
    rw [Disk.cluster_writeCluster_self]
  . unfold Disk.fat
    rw [Disk.cluster_writeCluster_self]

theorem guarded_write (driver_state : FAT32DriverState)
    : (Operation.write memory newDirectoryTable request).Guarded
        (write driver_state memory newDirectoryTable request) Notes.blank ∅ := by
  by_cases hone : request.parent = 1
  . apply Operation.guarded_of_parent_eq_one (.write memory newDirectoryTable request) hone
  rw [write_eq_body]
  apply Operation.guarded_read_clusters
  intro dir_table_buf
  apply Operation.guarded_read_clusters
  intro fat_table
  have hfat : clusterIndex FAT_CLUSTER_NUMBER = 1 := rfl
  rcases noted_of_read hone dir_table_buf fat_table with ⟨d, hnotes, htable, hfats⟩
  change Operation.Guarded _ _ ((Notes.blank.read request.parent dir_table_buf).read
    (clusterIndex FAT_CLUSTER_NUMBER) fat_table) _
  rw [hfat, hnotes, ← htable, ← hfats]
  have hnoted : Noted request d ⟨d, d, [1, request.parent]⟩ := by
    refine { loaded := rfl, seen_parent := ?_, seen_fat := ?_, parent := rfl, fat := rfl }
    . simp
    . simp
  by_cases hparent : parent_ok (d.table request.parent)
  . rw [body_of_parent_ok _ _ _ _ hparent]
    cases hsearch : search request d with
    | none => apply Operation.guarded_pure
    | some found =>
      rcases found with ⟨slot, cs⟩
      cases slot with
      | none => apply Operation.guarded_pure
      | some i => apply guarded_act rfl hone hnoted rfl hparent hsearch
  . rw [body_of_not_parent_ok _ _ _ _ hparent]
    apply Operation.guarded_pure

end write
end AiOS
