import AiOS.Fat32.Lemmas.Search
import AiOS.Fat32.Volume

/-!
This module contains what `write` returns and leaves on the disk, for every outcome of its search.
-/

namespace AiOS
namespace write

def parent_ok (table : FAT32DirectoryTable) : Prop :=
  (table 0).user_attribute = UATTR_NOT_EMPTY ∧ (table 0).attribute = ATTR_SUBDIRECTORY

instance (table : FAT32DirectoryTable) : Decidable (parent_ok table) :=
  inferInstanceAs (Decidable (_ ∧ _))

def content (memory : UInt32 → UInt8) (newDirectoryTable : FAT32DirectoryTable)
    (request : FAT32DriverRequest) (k : Nat) : ClusterBuffer :=
  if request.buffer_size = 0 then
    (init_directory_table newDirectoryTable request.name request.parent_cluster_number).toCluster
  else
    file_cluster memory request.buf k

def link (cluster_numbers : List (Fin 512)) (fat_table : FAT32FileAllocationTable)
    : FAT32FileAllocationTable :=
  match cluster_numbers with
  | [] => fat_table
  | c :: cs =>
    let next :=
      match cs with
      | [] => FAT32_FAT_END_OF_FILE
      | c' :: _ => UInt32.ofNat c'
    link cs (Function.update fat_table c next)

theorem next_link (cs : List (Fin 512)) (fat_table : FAT32FileAllocationTable)
    : (link cs fat_table).next = Chain.link 0x0FFFFFFF fat_table.next (numbers cs) := by
  induction cs generalizing fat_table with
  | nil => rfl
  | cons c cs ih =>
    unfold link
    rw [ih, FAT32FileAllocationTable.next_update]
    cases cs with
    | nil => rfl
    | cons c' cs =>
      have : (UInt32.ofNat c').toNat = c' := by
        rw [UInt32.toNat_ofNat']
        omega
      simp only [this]
      rfl

theorem link_of_not_mem {cs : List (Fin 512)} {fat_table : FAT32FileAllocationTable} {j : Fin 512}
    (hj : j ∉ cs)
    : link cs fat_table j = fat_table j := by
  apply UInt32.toNat_inj.mp
  rw [← FAT32FileAllocationTable.next_fin, ← FAT32FileAllocationTable.next_fin, next_link]
  apply Chain.link_of_not_mem
  rw [mem_numbers]
  exact hj

end write

namespace Disk

def writeClusters (d : Disk) (content : Nat → ClusterBuffer) (k : Nat) (cs : List (Fin 512))
    : Disk :=
  match cs with
  | [] => d
  | c :: cs => (d.writeCluster c (content k)).writeClusters content (k + 1) cs

theorem cluster_writeClusters_of_not_mem {d : Disk} {content : Nat → ClusterBuffer} {k : Nat}
    {cs : List (Fin 512)} {c : Nat} (hc : c ∉ numbers cs)
    : (d.writeClusters content k cs).cluster c = d.cluster c := by
  induction cs generalizing d k with
  | nil => rfl
  | cons x cs ih =>
    unfold numbers at hc
    rw [List.map_cons, List.mem_cons, not_or] at hc
    unfold writeClusters
    rw [ih hc.2, cluster_writeCluster_of_ne _ _ hc.1]

theorem cluster_writeClusters_getElem {d : Disk} {content : Nat → ClusterBuffer} {k : Nat}
    {cs : List (Fin 512)} (hcs : cs.Nodup) (n : Nat) (hn : n < cs.length)
    : (d.writeClusters content k cs).cluster cs[n] = content (k + n) := by
  induction cs generalizing d k n with
  | nil => simp at hn
  | cons x cs ih =>
    rw [List.nodup_cons] at hcs
    unfold writeClusters
    cases n with
    | zero =>
      rw [List.getElem_cons_zero, cluster_writeClusters_of_not_mem]
      . simp
      . rw [mem_numbers]
        exact hcs.1
    | succ n =>
      rw [List.getElem_cons_succ, ih hcs.2]
      congr 1
      omega

end Disk

namespace write

variable {α : Type} (driver_state : FAT32DriverState) (memory : UInt32 → UInt8)
  (newDirectoryTable : FAT32DirectoryTable) (request : FAT32DriverRequest) (d : Disk)

theorem required_clusters_pos : 0 < required_clusters request := by
  rw [required_clusters_eq]
  omega

theorem required_clusters_of_zero (h : request.buffer_size = 0)
    : required_clusters request = 1 := by
  have hzero : request.buffer_size.toNat = 0 := by
    rw [h]
    rfl
  rw [required_clusters_eq]
  unfold CLUSTER_SIZE
  omega

theorem run_file_clusters (buf : UInt32) (k : Nat) (cs : List (Fin 512))
    (fat_table : FAT32FileAllocationTable) (f : FAT32FileAllocationTable → DiskM α)
    : (file_clusters memory buf k cs fat_table >>= f).run diskDevice d
        =
      (f (link cs fat_table)).run diskDevice (d.writeClusters (file_cluster memory buf) k cs) := by
  induction cs generalizing d k fat_table with
  | nil => rfl
  | cons c cs ih =>
    unfold file_clusters
    rw [Prog.bind_assoc, run_write_clusters, clusterIndex_ofNat]
    apply ih

theorem run_fill {cs : List (Fin 512)} (fat_table : FAT32FileAllocationTable)
    (f : FAT32FileAllocationTable → DiskM α) (hlen : cs.length = required_clusters request)
    : (fill memory newDirectoryTable request cs fat_table >>= f).run diskDevice d
        =
      (f (link cs fat_table)).run diskDevice
        (d.writeClusters (content memory newDirectoryTable request) 0 cs) := by
  unfold fill content
  split
  . next hzero =>
    rw [required_clusters_of_zero request hzero] at hlen
    rcases List.length_eq_one_iff.mp hlen with ⟨c, hc⟩
    subst hc
    unfold directory_cluster
    rw [Prog.bind_assoc, run_write_clusters]
    simp [link, Disk.writeClusters]
  . apply run_file_clusters

def search : Option Found :=
  find_slot (d.table request.parent) d.fat request (required_clusters request) slots ⟨none, []⟩

def new_table (i : Fin 64) (cs : List (Fin 512)) : FAT32DirectoryTable :=
  let table := d.table request.parent
  Function.update table i (new_entry (table i) request (UInt32.ofNat (cs.headD 0)))

/--
The disk after `write` has put the new object into the clusters `cs` and its entry into slot `i`.
-/
def committed (i : Fin 64) (cs : List (Fin 512)) : Disk :=
  ((d.writeClusters (content memory newDirectoryTable request) 0 cs).writeCluster 1
    (link cs d.fat).toCluster).writeCluster request.parent (new_table request d i cs).toCluster

theorem committed_table (i : Fin 64) (cs : List (Fin 512))
    : (committed memory newDirectoryTable request d i cs).table request.parent
        =
      new_table request d i cs := by
  apply Disk.table_writeCluster

theorem length_of_search {i : Fin 64} {cs : List (Fin 512)}
    (h : search request d = some ⟨some i, cs⟩)
    : cs.length = required_clusters request := by
  have hspec := find_slot_spec rfl (required_clusters_pos request) h
  split at hspec
  . contradiction
  . exact hspec.2.1

/--
All checks of `write` pass although fewer clusters are empty than required: each free slot lets the
loop collect the empty clusters once more.
-/
def short : Prop :=
  let table := d.table request.parent
  let empty := (empty_clusters d.fat).length
  parent_ok table ∧ (∀ i ∈ slots, ¬ named table request i) ∧
    empty < required_clusters request ∧
    required_clusters request ≤ empty * (free_slots table slots).length

theorem search_isSome_iff
    : (∃ r, search request d = some r)
        ↔
      ∀ i ∈ slots, ¬ named (d.table request.parent) request i := by
  unfold search
  rw [← Option.isSome_iff_exists, ← Option.not_isNone, Bool.not_eq_true', ← Bool.not_eq_true]
  rw [Option.isNone_iff_eq_none, find_slot_eq_none_iff]
  simp

theorem lt_of_search_none {cs : List (Fin 512)} (h : search request d = some ⟨none, cs⟩)
    : (empty_clusters d.fat).length * (free_slots (d.table request.parent) slots).length
        <
      required_clusters request := by
  have hspec := find_slot_spec rfl (required_clusters_pos request) h
  rw [List.length_nil, Nat.zero_add] at hspec
  split at hspec
  . assumption
  . rcases hspec with ⟨⟨_, _, hsome⟩, _⟩
    contradiction

theorem le_of_search_some {i : Fin 64} {cs : List (Fin 512)}
    (h : search request d = some ⟨some i, cs⟩)
    : required_clusters request
        ≤
      (empty_clusters d.fat).length * (free_slots (d.table request.parent) slots).length := by
  have hspec := find_slot_spec rfl (required_clusters_pos request) h
  rw [List.length_nil, Nat.zero_add] at hspec
  split at hspec
  . exact absurd hspec (Option.some_ne_none i)
  . omega

theorem search_of_short (h : short request d)
    : ∃ i cs, search request d = some ⟨some i, cs⟩ := by
  rcases (search_isSome_iff request d).mpr h.2.1 with ⟨⟨slot, cs⟩, hsearch⟩
  cases slot with
  | none =>
    have hlt := lt_of_search_none _ _ hsearch
    have hfit := h.2.2.2
    omega
  | some i => exact ⟨i, cs, hsearch⟩

theorem search_of_enough {i : Fin 64} {cs : List (Fin 512)}
    (henough : required_clusters request ≤ (empty_clusters d.fat).length)
    (h : search request d = some ⟨some i, cs⟩)
    : (free_slots (d.table request.parent) slots).head? = some i
        ∧
      cs = (empty_clusters d.fat).take (required_clusters request) := by
  have hfound := find_slot_enough (required_clusters_pos request) henough h
  split at hfound
  . simp only [Found.mk.injEq, reduceCtorEq, false_and] at hfound
  . next hhead =>
    simp only [Found.mk.injEq, Option.some.injEq] at hfound
    rw [hhead, hfound.1]
    exact ⟨rfl, hfound.2⟩

theorem enough_of_not_short {i : Fin 64} {cs : List (Fin 512)}
    (hparent : parent_ok (d.table request.parent)) (hshort : ¬ short request d)
    (h : search request d = some ⟨some i, cs⟩)
    : required_clusters request ≤ (empty_clusters d.fat).length := by
  by_contra hlt
  apply hshort
  exact ⟨hparent, (search_isSome_iff request d).mp ⟨_, h⟩, by omega, le_of_search_some _ _ h⟩

theorem nodup_of_not_short {i : Fin 64} {cs : List (Fin 512)}
    (hparent : parent_ok (d.table request.parent)) (hshort : ¬ short request d)
    (h : search request d = some ⟨some i, cs⟩)
    : cs.Nodup := by
  have henough := enough_of_not_short request d hparent hshort h
  rw [(search_of_enough request d henough h).2]
  apply List.Nodup.sublist (List.take_sublist _ _)
  apply (pairwise_empty_clusters d.fat).imp
  intro a b hab
  apply ne_of_lt hab

def act (table : FAT32DirectoryTable) (fat_table : FAT32FileAllocationTable)
    (found : Option Found) : DiskM (Int × FAT32DriverState) :=
  match found with
  | none => return (1, ⟨fat_table, table⟩)
  | some ⟨none, _⟩ => return (-1, ⟨fat_table, table⟩)
  | some ⟨some i, cs⟩ => do
    let entry := new_entry (table i) request (UInt32.ofNat (cs.headD 0))
    let table : FAT32DirectoryTable := Function.update table i entry
    let fat_table ← fill memory newDirectoryTable request cs fat_table
    write_clusters fat_table.toCluster 1
    write_clusters table.toCluster request.parent_cluster_number
    return (0, ⟨fat_table, table⟩)

def body (table : FAT32DirectoryTable) (fat_table : FAT32FileAllocationTable)
    : DiskM (Int × FAT32DriverState) :=
  if ¬ (table 0).user_attribute = UATTR_NOT_EMPTY ∨ ¬ (table 0).attribute = ATTR_SUBDIRECTORY then
    return (2, ⟨fat_table, table⟩)
  else
    act memory newDirectoryTable request table fat_table
      (find_slot table fat_table request (required_clusters request) slots ⟨none, []⟩)

theorem write_eq_body
    : write driver_state memory newDirectoryTable request
        =
      (do
        let dir_table_buf ← read_clusters request.parent_cluster_number
        let fat_table ← read_clusters FAT_CLUSTER_NUMBER
        body memory newDirectoryTable request (.ofCluster dir_table_buf) (.ofCluster fat_table)) := by
  rfl

theorem body_of_not_parent_ok (hparent : ¬ parent_ok (d.table request.parent))
    : body memory newDirectoryTable request (d.table request.parent) d.fat
        =
      .pure (2, ⟨d.fat, d.table request.parent⟩) := by
  unfold parent_ok at hparent
  rw [not_and_or] at hparent
  unfold body
  rw [if_pos hparent]
  rfl

theorem body_of_parent_ok (hparent : parent_ok (d.table request.parent))
    : body memory newDirectoryTable request (d.table request.parent) d.fat
        =
      act memory newDirectoryTable request (d.table request.parent) d.fat
        (search request d) := by
  unfold parent_ok at hparent
  unfold body
  rw [if_neg (by rw [not_or, not_not, not_not]; exact hparent)]
  rfl

theorem run_eq_body
    : (write driver_state memory newDirectoryTable request).run diskDevice d
        =
      (body memory newDirectoryTable request (d.table request.parent) d.fat).run diskDevice d := by
  rw [write_eq_body, run_read_clusters, run_read_clusters]
  rfl

theorem run_of_not_parent_ok (hparent : ¬ parent_ok (d.table request.parent))
    : (write driver_state memory newDirectoryTable request).run diskDevice d
        =
      some ((2, ⟨d.fat, d.table request.parent⟩), d) := by
  rw [run_eq_body, body_of_not_parent_ok _ _ _ _ hparent]
  rfl

theorem run_of_parent_ok (hparent : parent_ok (d.table request.parent))
    : (write driver_state memory newDirectoryTable request).run diskDevice d
        =
      match search request d with
      | none => some ((1, ⟨d.fat, d.table request.parent⟩), d)
      | some ⟨none, _⟩ => some ((-1, ⟨d.fat, d.table request.parent⟩), d)
      | some ⟨some i, cs⟩ =>
        some ((0, ⟨link cs d.fat, new_table request d i cs⟩),
          committed memory newDirectoryTable request d i cs) := by
  rw [run_eq_body, body_of_parent_ok _ _ _ _ hparent]
  cases h : search request d with
  | none => rfl
  | some found =>
    rcases found with ⟨slot, cs⟩
    cases slot with
    | none => rfl
    | some i =>
      unfold act
      rw [run_fill _ _ _ _ _ _ (length_of_search request d h)]
      rw [run_write_clusters, run_write_clusters]
      rfl

-- `cluster_numbers` has four bytes for each cluster
def FitsStack (stack : Nat) (request : FAT32DriverRequest) : Prop :=
  4 * required_clusters request ≤ stack

instance (stack : Nat) (request : FAT32DriverRequest) : Decidable (FitsStack stack request) :=
  inferInstanceAs (Decidable (_ ≤ _))

theorem onStack_eq_body (stack : Nat)
    : onStack (some stack) driver_state memory newDirectoryTable request
        =
      (do
        let dir_table_buf ← read_clusters request.parent_cluster_number
        let fat_table ← read_clusters FAT_CLUSTER_NUMBER
        let table := FAT32DirectoryTable.ofCluster dir_table_buf
        if parent_ok table ∧ ¬ FitsStack stack request then
          .fault
        else
          body memory newDirectoryTable request table (.ofCluster fat_table)) := by
  unfold onStack
  congr 1
  funext dir_table_buf
  dsimp only
  congr 1
  funext fat_table
  unfold body parent_ok FitsStack
  rw [Option.any_some]
  by_cases hparent : (FAT32DirectoryTable.ofCluster dir_table_buf 0).user_attribute = UATTR_NOT_EMPTY ∧
      (FAT32DirectoryTable.ofCluster dir_table_buf 0).attribute = ATTR_SUBDIRECTORY
  . have hok := not_or.mpr ⟨not_not.mpr hparent.1, not_not.mpr hparent.2⟩
    rw [if_neg hok, if_neg hok]
    by_cases hroom : stack < 4 * required_clusters request
    . rw [if_pos (decide_eq_true hroom), if_pos ⟨hparent, Nat.not_le.mpr hroom⟩]
    . rw [if_neg (by simpa using hroom), if_neg (fun h => hroom (Nat.not_le.mp h.2))]
      rfl
  . have hbad := not_and_or.mp hparent
    rw [if_pos hbad, if_neg (fun h => hparent h.1), if_pos hbad]

/--
Where the parent passes the check, there must be room for the array. `write` is the same otherwise.
-/
theorem run_onStack (stack : Nat)
    : (onStack (some stack) driver_state memory newDirectoryTable request).run diskDevice d
        =
      if parent_ok (d.table request.parent) ∧ ¬ FitsStack stack request then
        none
      else
        (write driver_state memory newDirectoryTable request).run diskDevice d := by
  rw [onStack_eq_body, run_read_clusters, run_read_clusters, run_eq_body]
  dsimp only
  change (if parent_ok (d.table request.parent) ∧ ¬ FitsStack stack request then .fault
    else body memory newDirectoryTable request (d.table request.parent) d.fat).run diskDevice d = _
  split
  . rfl
  . rfl

theorem run_cases {code : Int} {st : FAT32DriverState} {d' : Disk}
    (h : (write driver_state memory newDirectoryTable request).run diskDevice d
      = some ((code, st), d'))
    : (code ≠ 0 ∧ st = ⟨d.fat, d.table request.parent⟩ ∧ d' = d)
        ∨
      ∃ i cs, code = 0 ∧ parent_ok (d.table request.parent) ∧
        search request d = some ⟨some i, cs⟩ ∧
        st = ⟨link cs d.fat, new_table request d i cs⟩ ∧
        d' = committed memory newDirectoryTable request d i cs := by
  by_cases hparent : parent_ok (d.table request.parent)
  . rw [run_of_parent_ok _ _ _ _ _ hparent] at h
    cases hsearch : search request d with
    | none =>
      simp only [hsearch, Option.some.injEq, Prod.mk.injEq] at h
      rcases h with ⟨⟨rfl, rfl⟩, rfl⟩
      exact Or.inl ⟨by decide, rfl, rfl⟩
    | some found =>
      rcases found with ⟨slot, cs⟩
      cases slot with
      | none =>
        simp only [hsearch, Option.some.injEq, Prod.mk.injEq] at h
        rcases h with ⟨⟨rfl, rfl⟩, rfl⟩
        exact Or.inl ⟨by decide, rfl, rfl⟩
      | some i =>
        simp only [hsearch, Option.some.injEq, Prod.mk.injEq] at h
        rcases h with ⟨⟨rfl, rfl⟩, rfl⟩
        exact Or.inr ⟨i, cs, rfl, hparent, rfl, rfl, rfl⟩
  . rw [run_of_not_parent_ok _ _ _ _ _ hparent] at h
    simp only [Option.some.injEq, Prod.mk.injEq] at h
    rcases h with ⟨⟨rfl, rfl⟩, rfl⟩
    exact Or.inl ⟨by decide, rfl, rfl⟩

end write
end AiOS
