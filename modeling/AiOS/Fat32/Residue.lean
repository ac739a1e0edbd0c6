import AiOS.Fat32.Run

/-!
This module contains what `write` and `delete` make of a request with a buffer size of zero, the
other fields of which nobody has set.
-/

namespace AiOS

def FAT32DirectoryEntry.record (e : FAT32DirectoryEntry)
    : (Fin 8 → UInt8) × (Fin 3 → UInt8) × UInt8 × UInt32 × Nat :=
  (e.name, e.ext, e.attribute, e.filesize, e.cluster)

namespace Disk

/--
The disks have the same links in the file allocation table, and as directory tables all clusters
have the same live entries from slot `first` on and lead back to the same parents.
-/
structure Alike (first : Nat) (d d' : Disk) : Prop where
  fat : d'.fat = d.fat
  live_iff : ∀ c i, first ≤ i.val →
    ((d'.table c i).user_attribute = UATTR_NOT_EMPTY
      ↔
    (d.table c i).user_attribute = UATTR_NOT_EMPTY)
  record : ∀ c i, first ≤ i.val → (d.table c i).user_attribute = UATTR_NOT_EMPTY →
    (d'.table c i).record = (d.table c i).record
  parent : ∀ c, (d'.table c 1).cluster = (d.table c 1).cluster

def Homonym (first : Nat) (d : Disk) (dir : UInt32) (name : Fin 8 → UInt8) : Prop :=
  ∃ i : Fin 64, first ≤ i.val ∧ (d.table (clusterIndex dir) i).user_attribute = UATTR_NOT_EMPTY ∧
    (d.table (clusterIndex dir) i).name = name

-- the directory has a free slot, and a new directory would get the cluster
def Offers (d : Disk) (dir : UInt32) (c : Fin 512) : Prop :=
  write.free_slots (d.table (clusterIndex dir)) write.slots ≠ [] ∧
    (write.empty_clusters d.fat).head? = some c

namespace Alike

variable {first : Nat} {d d' : Disk}

theorem refl (first : Nat) (d : Disk) : Alike first d d where
  fat := rfl
  live_iff _ _ _ := Iff.rfl
  record _ _ _ _ := rfl
  parent _ := rfl

theorem of_cluster {c : Nat} (hone : c ≠ 1) (hcluster : ∀ k, k ≠ c → d'.cluster k = d.cluster k)
    (hdead : ∀ i : Fin 64, first ≤ i.val → (d.table c i).user_attribute ≠ UATTR_NOT_EMPTY)
    (hdead' : ∀ i : Fin 64, first ≤ i.val → (d'.table c i).user_attribute ≠ UATTR_NOT_EMPTY)
    (hparent : (d'.table c 1).cluster = (d.table c 1).cluster)
    : Alike first d d' where
  fat := Disk.fat_congr (hcluster 1 hone.symm)
  live_iff k i hi := by
    by_cases hk : k = c
    . rw [hk]
      exact iff_of_false (hdead' i hi) (hdead i hi)
    . rw [Disk.table_congr (hcluster k hk)]
  record k i hi hlive := by
    by_cases hk : k = c
    . rw [hk] at hlive
      exact absurd hlive (hdead i hi)
    . rw [Disk.table_congr (hcluster k hk)]
  parent k := by
    by_cases hk : k = c
    . rw [hk, hparent]
    . rw [Disk.table_congr (hcluster k hk)]

theorem of_cluster_eq (hcluster : ∀ k, d'.cluster k = d.cluster k) : Alike first d d' where
  fat := Disk.fat_congr (hcluster 1)
  live_iff k i _ := by rw [Disk.table_congr (hcluster k)]
  record k i _ _ := by rw [Disk.table_congr (hcluster k)]
  parent k := by rw [Disk.table_congr (hcluster k)]

end Alike
end Disk

-- more extensions than entries
theorem FAT32DirectoryTable.exists_fresh_ext (table : FAT32DirectoryTable)
    : ∃ ext : Fin 3 → UInt8, ∀ i, ext ≠ (table i).ext := by
  by_contra hall
  push Not at hall
  have hused : ∀ k : Fin 65, ∃ i, (fun _ => UInt8.ofNat k) = (table i).ext :=
    fun k => hall fun _ => UInt8.ofNat k
  choose slot hslot using hused
  rcases Fintype.exists_ne_map_eq_of_card_lt slot (by simp) with ⟨k, k', hne, heq⟩
  have hext : (fun _ : Fin 3 => UInt8.ofNat k) = fun _ => UInt8.ofNat k' := by
    rw [hslot k, hslot k', heq]
  have hbyte : UInt8.ofNat k = UInt8.ofNat k' := congrFun hext 0
  have hnat := congrArg UInt8.toNat hbyte
  rw [UInt8.toNat_ofNat', UInt8.toNat_ofNat'] at hnat
  apply hne
  apply Fin.ext
  omega

structure FAT32DriverRequest.Asks (request : FAT32DriverRequest) (dir : UInt32)
    (name : Fin 8 → UInt8) : Prop where
  name : request.name = name
  buffer_size : request.buffer_size = 0
  parent_cluster_number : request.parent_cluster_number = dir

namespace FAT32DriverRequest.Asks

open write

variable {request request' : FAT32DriverRequest} {dir : UInt32} {name : Fin 8 → UInt8} {d : Disk}

theorem parent_eq (h : request.Asks dir name) : request.parent = clusterIndex dir := by
  unfold FAT32DriverRequest.parent
  rw [h.parent_cluster_number]

theorem not_named (h : request.Asks dir name) (hnames : ¬ d.Homonym 2 dir name)
    : ∀ i ∈ slots, ¬ named (d.table request.parent) request i := by
  intro i hi hnamed
  apply hnames
  rw [h.parent_eq] at hnamed
  refine ⟨i, (mem_slots i).mp hi, hnamed.1, ?_⟩
  rw [← hnamed.2.1, h.name]

section

variable (h : request.Asks dir name) (hnames : ¬ d.Homonym 2 dir name)

include h hnames

theorem search_of_offers {c : Fin 512} (hc : d.Offers dir c)
    : ∃ i, (free_slots (d.table (clusterIndex dir)) slots).head? = some i ∧
        search request d = some ⟨some i, [c]⟩ := by
  have hrequired := required_clusters_of_zero request h.buffer_size
  have hlen : 0 < (empty_clusters d.fat).length := by
    apply List.length_pos_of_mem
    apply List.mem_of_mem_head? hc.2
  rcases (search_isSome_iff request d).mpr (h.not_named hnames) with ⟨⟨slot, cs⟩, hsearch⟩
  cases slot with
  | none =>
    have hlt := lt_of_search_none _ _ hsearch
    rw [hrequired, h.parent_eq] at hlt
    have hpos := Nat.mul_pos hlen (List.length_pos_iff.mpr hc.1)
    omega
  | some i =>
    have hfound := search_of_enough request d (by omega) hsearch
    rw [h.parent_eq, hrequired] at hfound
    refine ⟨i, hfound.1, ?_⟩
    rcases List.head?_eq_some_iff.mp hc.2 with ⟨rest, hrest⟩
    rw [hrest] at hfound
    rw [hsearch, hfound.2]
    rfl

theorem search_of_not_offers (hc : ¬ ∃ c, d.Offers dir c)
    : ∃ cs, search request d = some ⟨none, cs⟩ := by
  have hrequired := required_clusters_of_zero request h.buffer_size
  rcases (search_isSome_iff request d).mpr (h.not_named hnames) with ⟨⟨slot, cs⟩, hsearch⟩
  cases slot with
  | none => exact ⟨cs, hsearch⟩
  | some i =>
    have hle := le_of_search_some _ _ hsearch
    rw [hrequired, h.parent_eq] at hle
    have hempty : empty_clusters d.fat ≠ [] := by
      intro hnil
      rw [hnil, List.length_nil, Nat.zero_mul] at hle
      omega
    have hfree : free_slots (d.table (clusterIndex dir)) slots ≠ [] := by
      intro hnil
      rw [hnil, List.length_nil, Nat.mul_zero] at hle
      omega
    exfalso
    exact hc ⟨_, hfree, List.head?_eq_some_head hempty⟩

end

section

variable (memory : UInt32 → UInt8) (newDirectoryTable newDirectoryTable' : FAT32DirectoryTable)
  (i : Fin 64) (c : Fin 512) (h : request.Asks dir name)

include h

theorem content_eq (k : Nat)
    : content memory newDirectoryTable request k
        =
      (init_directory_table newDirectoryTable name dir).toCluster := by
  unfold content
  rw [if_pos h.buffer_size, h.name, h.parent_cluster_number]

theorem new_table_eq (h' : request'.Asks dir name)
    : new_table request' d i [c] = new_table request d i [c] := by
  unfold new_table new_entry
  dsimp only
  rw [if_pos h.buffer_size, if_pos h'.buffer_size, h.parent_eq, h'.parent_eq, h.name, h'.name]

theorem cluster_committed_eq (h' : request'.Asks dir name) {k : Nat}
    (hk : k ≠ c ∨ c.val = clusterIndex dir)
    : (committed memory newDirectoryTable' request' d i [c]).cluster k
        =
      (committed memory newDirectoryTable request d i [c]).cluster k := by
  unfold committed
  rw [h.new_table_eq i c h', h'.parent_eq, h.parent_eq]
  by_cases hparent : k = clusterIndex dir
  . rw [hparent, Disk.cluster_writeCluster_self, Disk.cluster_writeCluster_self]
  . have hne : k ≠ c := by
      rcases hk with hk | hk
      . exact hk
      . omega
    have hmem : k ∉ numbers [c] := by
      simpa [numbers] using hne
    rw [Disk.cluster_writeCluster_of_ne _ _ hparent, Disk.cluster_writeCluster_of_ne _ _ hparent]
    by_cases hone : k = 1
    . rw [hone, Disk.cluster_writeCluster_self, Disk.cluster_writeCluster_self]
    . rw [Disk.cluster_writeCluster_of_ne _ _ hone, Disk.cluster_writeCluster_of_ne _ _ hone]
      rw [Disk.cluster_writeClusters_of_not_mem hmem, Disk.cluster_writeClusters_of_not_mem hmem]

theorem table_committed_new (hc : 3 ≤ c.val) (hne : c.val ≠ clusterIndex dir)
    : (committed memory newDirectoryTable request d i [c]).table c
        =
      init_directory_table newDirectoryTable name dir := by
  unfold committed Disk.table
  rw [h.parent_eq, Disk.cluster_writeCluster_of_ne _ _ hne,
    Disk.cluster_writeCluster_of_ne _ _ (by omega)]
  unfold Disk.writeClusters Disk.writeClusters
  rw [Disk.cluster_writeCluster_self, h.content_eq, FAT32DirectoryTable.ofCluster_toCluster]

theorem alike_committed {first : Nat} (h' : request'.Asks dir name) (hc : 3 ≤ c.val)
    (hfirst : 2 ≤ first ∨ c.val = clusterIndex dir)
    : (committed memory newDirectoryTable request d i [c]).Alike first
        (committed memory newDirectoryTable' request' d i [c]) := by
  by_cases hparent : c.val = clusterIndex dir
  . apply Disk.Alike.of_cluster_eq
    intro k
    apply h.cluster_committed_eq _ _ _ _ _ h' (Or.inr hparent)
  . have hge := hfirst.resolve_right hparent
    have hone : c.val ≠ 1 := by omega
    apply Disk.Alike.of_cluster hone
    . intro k hk
      apply h.cluster_committed_eq _ _ _ _ _ h' (Or.inl hk)
    . intro j hj
      rw [h.table_committed_new _ _ _ _ hc hparent]
      apply init_directory_table_of_le _ _ _ (by omega)
    . intro j hj
      rw [h'.table_committed_new _ _ _ _ hc hparent]
      apply init_directory_table_of_le _ _ _ (by omega)
    . rw [h.table_committed_new _ _ _ _ hc hparent, h'.table_committed_new _ _ _ _ hc hparent]
      rfl

end

section

variable (driver_state driver_state' : FAT32DriverState) (memory : UInt32 → UInt8)
  (newDirectoryTable newDirectoryTable' : FAT32DirectoryTable) (h : request.Asks dir name)

include h

/--
Unless the directory has an entry of the name already, `write` finds the same and leaves the same,
but for the entries 0 and 1 of the new directory.
-/
theorem write_alike {first : Nat} (h' : request'.Asks dir name)
    (hgood : parent_ok (d.table (clusterIndex dir)) → ¬ d.Homonym 2 dir name ∧
      (2 ≤ first ∨ ∀ c, d.Offers dir c → c.val = clusterIndex dir))
    : Option.Rel (fun r r' => r'.1.1 = r.1.1 ∧ r.2.Alike first r'.2)
        ((AiOS.write driver_state memory newDirectoryTable request).run diskDevice d)
        ((AiOS.write driver_state' memory newDirectoryTable' request').run diskDevice d) := by
  by_cases hparent : parent_ok (d.table (clusterIndex dir))
  . rcases hgood hparent with ⟨hnames, hfirst⟩
    rw [run_of_parent_ok _ _ _ _ _ (by rw [h.parent_eq]; exact hparent)]
    rw [run_of_parent_ok _ _ _ _ _ (by rw [h'.parent_eq]; exact hparent)]
    by_cases hoffers : ∃ c, d.Offers dir c
    . rcases hoffers with ⟨c, hc⟩
      rcases h.search_of_offers hnames hc with ⟨i, hi, hsearch⟩
      rcases h'.search_of_offers hnames hc with ⟨i', hi', hsearch'⟩
      rw [hi, Option.some.injEq] at hi'
      rw [hsearch, hsearch', ← hi']
      have hdata := ((mem_empty_clusters d.fat c).mp (List.mem_of_mem_head? hc.2)).1
      have hpick : 2 ≤ first ∨ c.val = clusterIndex dir := hfirst.imp_right fun hall => hall c hc
      exact Option.Rel.some ⟨rfl, h.alike_committed _ _ _ _ _ h' hdata hpick⟩
    . rcases h.search_of_not_offers hnames hoffers with ⟨cs, hsearch⟩
      rcases h'.search_of_not_offers hnames hoffers with ⟨cs', hsearch'⟩
      rw [hsearch, hsearch']
      exact Option.Rel.some ⟨rfl, .refl _ _⟩
  . rw [run_of_not_parent_ok _ _ _ _ _ (by rw [h.parent_eq]; exact hparent)]
    rw [run_of_not_parent_ok _ _ _ _ _ (by rw [h'.parent_eq]; exact hparent)]
    exact Option.Rel.some ⟨rfl, .refl _ _⟩

variable (hparent : parent_ok (d.table (clusterIndex dir)))

include hparent

theorem write_of_named {i : Fin 64} (hi : 2 ≤ i.val)
    (hlive : (d.table (clusterIndex dir) i).user_attribute = UATTR_NOT_EMPTY)
    (hname : (d.table (clusterIndex dir) i).name = name)
    (hext : request.ext = (d.table (clusterIndex dir) i).ext)
    : ∃ st, (AiOS.write driver_state memory newDirectoryTable request).run diskDevice d
        = some ((1, st), d) := by
  have hnamed : named (d.table request.parent) request i := by
    rw [h.parent_eq]
    exact ⟨hlive, by rw [h.name, hname], hext⟩
  have hsearch : search request d = none := by
    unfold search
    rw [find_slot_eq_none_iff]
    exact ⟨i, (mem_slots i).mpr hi, hnamed⟩
  rw [run_of_parent_ok _ _ _ _ _ (by rw [h.parent_eq]; exact hparent), hsearch]
  exact ⟨_, rfl⟩

theorem write_of_fresh_ext (hext : ∀ i, request.ext ≠ (d.table (clusterIndex dir) i).ext)
    : ∃ code st d', code ≠ 1 ∧
        (AiOS.write driver_state memory newDirectoryTable request).run diskDevice d
          = some ((code, st), d') := by
  have hnames : ∀ i ∈ slots, ¬ named (d.table request.parent) request i := by
    intro i _ hnamed
    rw [h.parent_eq] at hnamed
    exact hext i hnamed.2.2
  rcases (search_isSome_iff request d).mpr hnames with ⟨⟨slot, cs⟩, hsearch⟩
  rw [run_of_parent_ok _ _ _ _ _ (by rw [h.parent_eq]; exact hparent), hsearch]
  cases slot with
  | none => exact ⟨-1, _, _, by decide, rfl⟩
  | some i => exact ⟨0, _, _, by decide, rfl⟩

theorem write_of_offers (hnames : ¬ d.Homonym 2 dir name) {c : Fin 512} (hc : d.Offers dir c)
    (hne : c.val ≠ clusterIndex dir)
    : ∃ st d', (AiOS.write driver_state memory newDirectoryTable request).run diskDevice d
          = some ((0, st), d') ∧
        d'.table c = init_directory_table newDirectoryTable name dir := by
  rcases h.search_of_offers hnames hc with ⟨i, _, hsearch⟩
  rw [run_of_parent_ok _ _ _ _ _ (by rw [h.parent_eq]; exact hparent), hsearch]
  have hdata := ((mem_empty_clusters d.fat c).mp (List.mem_of_mem_head? hc.2)).1
  exact ⟨_, _, rfl, h.table_committed_new _ _ _ _ hdata hne⟩

end

section

open delete

variable (driver_state : FAT32DriverState) (dirTable : FAT32DirectoryTable)
  (h : request.Asks dir name)

include h

theorem delete_of_not_homonym (hnames : ¬ d.Homonym 1 dir name)
    : ∃ st, (AiOS.delete driver_state dirTable request).run diskDevice d = some ((1, st), d) := by
  have hsearched : searched request d = none := by
    rw [Option.eq_none_iff_forall_ne_some]
    intro i hi
    have hhit := hit_of_searched request d hi
    rw [h.parent_eq] at hhit
    apply hnames
    refine ⟨i, hhit.1, hhit.2.1, ?_⟩
    rw [← (memcmp_eq_zero_iff _ _).mp hhit.2.2.1, h.name]
  exact ⟨_, run_of_searched_none _ _ _ _ hsearched⟩

theorem delete_of_fresh_ext (hext : ∀ i, request.ext ≠ (d.table (clusterIndex dir) i).ext)
    (hroot : ∀ i, checked_cluster dirTable i = ROOT_CLUSTER_NUMBER)
    : ∃ code st, (code = 1 ∨ code = -1) ∧
        (AiOS.delete driver_state dirTable request).run diskDevice d = some ((code, st), d) := by
  cases hsearched : searched request d with
  | none => exact ⟨1, _, Or.inl rfl, run_of_searched_none _ _ _ _ hsearched⟩
  | some i =>
    have hhit := (hit_of_searched request d hsearched).2
    have hdir : (d.table request.parent i).attribute = ATTR_SUBDIRECTORY := by
      apply hhit.2.2.resolve_right
      rw [memcmp_eq_zero_iff, h.parent_eq]
      exact (hext i).symm
    rw [run_eq_act, hsearched, act_directory _ _ _ _ _ hdir, if_pos (hroot i)]
    exact ⟨-1, _, Or.inr rfl, rfl⟩

theorem delete_of_found {i : Fin 64} (hi : 1 ≤ i.val)
    (hlive : (d.table (clusterIndex dir) i).user_attribute = UATTR_NOT_EMPTY)
    (hname : (d.table (clusterIndex dir) i).name = name)
    (hext : request.ext = (d.table (clusterIndex dir) i).ext)
    (hroot : ∀ i, checked_cluster dirTable i ≠ ROOT_CLUSTER_NUMBER)
    {code : Int} {st : FAT32DriverState} {d' : Disk}
    (hrun : (AiOS.delete driver_state dirTable request).run diskDevice d = some ((code, st), d'))
    : code = 0 ∨ code = 2 := by
  have hhit : hit (d.table request.parent) request i := by
    rw [h.parent_eq]
    refine ⟨hlive, ?_, Or.inr ?_⟩
    . rw [memcmp_eq_zero_iff, h.name, hname]
    . rw [memcmp_eq_zero_iff, hext]
  cases hsearched : searched request d with
  | none =>
    exfalso
    unfold searched find_entry at hsearched
    rw [List.find?_eq_none] at hsearched
    have hmem : ∀ j : Fin 64, 1 ≤ j.val → j ∈ (List.finRange 64).drop 1 := by decide
    exact hsearched i (hmem i hi) (by simpa using hhit)
  | some j =>
    by_cases hrefused : refused dirTable request d j
    . have hfull := hrefused.2.resolve_left (hroot j)
      rw [run_eq_act, hsearched, act_directory _ _ _ _ _ hrefused.1, if_neg (hroot j),
        run_read_clusters, checked_of_live _ _ _ _ hfull] at hrun
      simp only [Prog.run_pure, Option.some.injEq, Prod.mk.injEq] at hrun
      exact Or.inr hrun.1.1.symm
    . cases hcs : freed driver_state.fat_table (d.table request.parent j) with
      | none =>
        rw [run_of_not_freed _ _ _ _ hsearched hrefused hcs] at hrun
        contradiction
      | some cs =>
        rw [run_of_freed _ _ _ _ hsearched hrefused hcs] at hrun
        simp only [Option.some.injEq, Prod.mk.injEq] at hrun
        exact Or.inl hrun.1.1.symm

end

end FAT32DriverRequest.Asks
end AiOS
