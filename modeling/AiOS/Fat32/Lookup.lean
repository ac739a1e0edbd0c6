import AiOS.Fat32.Run

/-!
This module contains when `read_directory` answers what the parent's table says: its search stops at
the first entry with another name, which is the parent's own.
-/

namespace AiOS

namespace FAT32DriverRequest

variable (request : FAT32DriverRequest) (d : Disk) (i : Fin 64)

def Names : Prop :=
  2 ≤ i.val ∧ (d.table request.parent i).user_attribute = UATTR_NOT_EMPTY ∧
    (d.table request.parent i).name = request.name

def NamesDirectory : Prop :=
  request.Names d i ∧ (d.table request.parent i).attribute = ATTR_SUBDIRECTORY

def NamesFile : Prop :=
  request.Names d i ∧ (d.table request.parent i).attribute ≠ ATTR_SUBDIRECTORY

end FAT32DriverRequest

namespace read_directory

def target (entry : FAT32DirectoryEntry) : Nat :=
  clusterIndex ((entry.cluster_high.toUInt32 <<< 16) + entry.cluster_low.toUInt32)

variable (driver_state : FAT32DriverState) (request : FAT32DriverRequest) (d : Disk)

def Returns (code : Int) (bufs : List ClusterBuffer) : Prop :=
  ∃ st, (read_directory driver_state request).run diskDevice d = some ((code, st, bufs), d)

/--
The table of the directory of that name, else 1 for a file of that name, else 2.
-/
def Finds : Prop :=
  ((∃ i, request.NamesDirectory d i) →
    ∃ i, request.NamesDirectory d i ∧
      Returns driver_state request d 0 [d.cluster (target (d.table request.parent i))]) ∧
  ((¬ ∃ i, request.NamesDirectory d i) → (∃ i, request.NamesFile d i) →
    ∃ bufs, Returns driver_state request d 1 bufs) ∧
  ((¬ ∃ i, request.Names d i) → ∃ bufs, Returns driver_state request d 2 bufs)

/--
The entry 0 of the parent leads to a table like the one that is asked for, or it is no directory and
neither is what is asked for.
-/
def HeaderAnswers : Prop :=
  let header := d.table request.parent 0
  header.user_attribute = UATTR_NOT_EMPTY ∧
    if header.attribute = ATTR_SUBDIRECTORY then
      ∃ i, request.NamesDirectory d i ∧
        d.cluster (target (d.table request.parent i)) = d.cluster (target header)
    else
      (∃ i, request.NamesFile d i) ∧ ¬ ∃ i, request.NamesDirectory d i

variable {driver_state request d}

theorem returns_unique {code code' : Int} {bufs bufs' : List ClusterBuffer}
    (h : Returns driver_state request d code bufs) (h' : Returns driver_state request d code' bufs')
    : code = code' ∧ bufs = bufs' := by
  rcases h with ⟨_, hrun⟩
  rcases h' with ⟨_, hrun'⟩
  rw [hrun] at hrun'
  simp only [Option.some.injEq, Prod.mk.injEq] at hrun'
  exact ⟨hrun'.1.1, hrun'.1.2.2⟩

theorem Finds.cases {code : Int} {bufs : List ClusterBuffer} (h : Finds driver_state request d)
    (hreturns : Returns driver_state request d code bufs)
    : (code = 0 ∧ ∃ i, request.NamesDirectory d i ∧
          bufs = [d.cluster (target (d.table request.parent i))])
        ∨
      (code = 1 ∧ (∃ i, request.NamesFile d i) ∧ ¬ ∃ i, request.NamesDirectory d i)
        ∨
      code = 2 := by
  by_cases hdir : ∃ i, request.NamesDirectory d i
  . rcases h.1 hdir with ⟨i, hi, hreturns'⟩
    have huniq := returns_unique hreturns hreturns'
    exact Or.inl ⟨huniq.1, i, hi, huniq.2⟩
  . by_cases hfile : ∃ i, request.NamesFile d i
    . rcases h.2.1 hdir hfile with ⟨_, hreturns'⟩
      exact Or.inr (Or.inl ⟨(returns_unique hreturns hreturns').1, hfile, hdir⟩)
    . have hnone : ¬ ∃ i, request.Names d i := by
        intro ⟨i, hi⟩
        by_cases hattribute : (d.table request.parent i).attribute = ATTR_SUBDIRECTORY
        . exact hdir ⟨i, hi, hattribute⟩
        . exact hfile ⟨i, hi, hattribute⟩
      rcases h.2.2 hnone with ⟨_, hreturns'⟩
      exact Or.inr (Or.inr (returns_unique hreturns hreturns').1)

theorem returns_of_not_live
    (hlive : ¬ (d.table request.parent 0).user_attribute = UATTR_NOT_EMPTY)
    : Returns driver_state request d (-1) [] := by
  refine ⟨⟨driver_state.fat_table, d.table request.parent⟩, ?_⟩
  unfold read_directory
  rw [run_read_clusters]
  change Prog.run _ (if ¬ (d.table request.parent 0).user_attribute = UATTR_NOT_EMPTY then _
    else _) _ = _
  rw [if_pos hlive]
  rfl

section

variable (hname : request.name ≠ (d.table request.parent 0).name)
  (hlive : (d.table request.parent 0).user_attribute = UATTR_NOT_EMPTY)

include hname hlive

theorem run_of_live
    : (read_directory driver_state request).run diskDevice d
        =
      (found ⟨driver_state.fat_table, d.table request.parent⟩ request 0).run diskDevice d := by
  have hfind : find_entry (d.table request.parent) request = some 0 := by
    unfold find_entry
    rw [Slots.find?_eq_some_iff (List.pairwise_lt_finRange 64)]
    simp [hname.symm]
  unfold read_directory
  rw [run_read_clusters]
  change Prog.run _ (if ¬ (d.table request.parent 0).user_attribute = UATTR_NOT_EMPTY then _
    else _) _ = _
  rw [if_neg (not_not.mpr hlive)]
  -- the table as `read_clusters` returns it
  have hread : find_entry (FAT32DirectoryTable.ofCluster
      (d.cluster (clusterIndex request.parent_cluster_number))) request = some 0 := hfind
  rw [hread]
  rfl

theorem returns_of_file (hfile : (d.table request.parent 0).attribute ≠ ATTR_SUBDIRECTORY)
    : Returns driver_state request d 1 [] := by
  refine ⟨⟨driver_state.fat_table, d.table request.parent⟩, ?_⟩
  rw [run_of_live hname hlive]
  unfold found
  dsimp only
  rw [if_pos hfile]
  rfl

theorem returns_of_directory (hdir : (d.table request.parent 0).attribute = ATTR_SUBDIRECTORY)
    : Returns driver_state request d 0 [d.cluster (target (d.table request.parent 0))] := by
  have hback : d.writeCluster (clusterIndex request.parent_cluster_number)
      (d.table request.parent).toCluster = d := by
    unfold Disk.table
    rw [FAT32DirectoryTable.toCluster_ofCluster]
    apply Disk.writeCluster_cluster
  refine ⟨⟨driver_state.fat_table, d.table request.parent⟩, ?_⟩
  rw [run_of_live hname hlive]
  unfold found
  dsimp only
  rw [if_neg (not_not.mpr hdir), run_write_clusters, run_read_clusters]
  rw [hback]
  rfl

end

end read_directory

/--
`read_directory` finds the directory asked for only by luck: it always takes the entry 0 of the
parent, whatever the name.
-/
theorem read_directory_finds_iff (driver_state : FAT32DriverState) {request : FAT32DriverRequest}
    {d : Disk} (hname : request.name ≠ (d.table request.parent 0).name)
    : read_directory.Finds driver_state request d ↔ read_directory.HeaderAnswers request d := by
  unfold read_directory.HeaderAnswers
  dsimp only
  constructor
  . intro h
    by_cases hlive : (d.table request.parent 0).user_attribute = UATTR_NOT_EMPTY
    . refine ⟨hlive, ?_⟩
      split
      . next hdir =>
        rcases h.cases (read_directory.returns_of_directory hname hlive hdir) with
          ⟨_, i, hi, hbufs⟩ | ⟨hcode, _⟩ | hcode
        . rw [List.cons.injEq] at hbufs
          exact ⟨i, hi, hbufs.1.symm⟩
        . contradiction
        . contradiction
      . next hfile =>
        rcases h.cases (read_directory.returns_of_file hname hlive hfile) with
          ⟨hcode, _⟩ | ⟨_, hentry⟩ | hcode
        . contradiction
        . exact hentry
        . contradiction
    . rcases h.cases (read_directory.returns_of_not_live hlive) with ⟨hcode, _⟩ | ⟨hcode, _⟩ | hcode
      . contradiction
      . contradiction
      . contradiction
  . intro ⟨hlive, hanswers⟩
    split at hanswers
    . next hdir =>
      rcases hanswers with ⟨i, hi, hcluster⟩
      have hreturns : read_directory.Returns driver_state request d 0 _ :=
        read_directory.returns_of_directory hname hlive hdir
      refine ⟨?_, ?_, ?_⟩
      . intro _
        rw [← hcluster] at hreturns
        exact ⟨i, hi, hreturns⟩
      . intro hnone _
        exact absurd ⟨i, hi⟩ hnone
      . intro hnone
        exact absurd ⟨i, hi.1⟩ hnone
    . next hfile =>
      rcases hanswers with ⟨⟨i, hi⟩, hnodir⟩
      refine ⟨?_, ?_, ?_⟩
      . intro hdir
        exact absurd hdir hnodir
      . intro _ _
        exact ⟨[], read_directory.returns_of_file hname hlive hfile⟩
      . intro hnone
        exact absurd ⟨i, hi.1⟩ hnone

theorem name_fresh : write.small.name ≠ (fresh.table write.small.parent 0).name := by
  decide

theorem read_directory_finds_fresh
    : read_directory.Finds fresh_driver write.small fresh
        ↔
      read_directory.HeaderAnswers write.small fresh := by
  exact read_directory_finds_iff fresh_driver name_fresh

-- there is no `shell` in a new file system, and yet 0 comes back
theorem not_read_directory_finds
    : driver.Reachable (fun _ _ => True) (fresh_driver, fresh) ∧
        fresh.Directory write.small.parent_cluster_number.toNat ∧
        (∀ j : Fin 64, j.val < 2 →
          write.small.name ≠ (fresh.table write.small.parent j).name) ∧
        ¬ read_directory.Finds fresh_driver write.small fresh := by
  have hlive : (fresh.table write.small.parent 0).user_attribute = UATTR_NOT_EMPTY := by
    decide
  have hdir : (fresh.table write.small.parent 0).attribute = ATTR_SUBDIRECTORY := by
    decide
  have hnames : ∀ j : Fin 64, j.val < 2 →
      write.small.name ≠ (fresh.table write.small.parent j).name := by
    decide
  refine ⟨reachable_fresh, Catalog.Directory.root, hnames, ?_⟩
  intro h
  rcases h.cases (read_directory.returns_of_directory name_fresh hlive hdir) with
    ⟨_, i, hi, _⟩ | ⟨hcode, _⟩ | hcode
  . exact create_fat32.created_dead _ _ _ hi.1.1 hi.1.2.1
  . contradiction
  . contradiction

end AiOS
