import AiOS.Fat32.Lemmas.Delete
import AiOS.Fat32.Lemmas.Write
import AiOS.Fat32.Run
import AiOS.Lib.Interleaving

/-!
This module contains the drivers of several programs on one disk as clients of that disk, each with
its own driver state, and what a running operation has seen of the disk.
-/

namespace AiOS

open Catalog

/--
The clusters a running operation has read or written, as it has read them first (`loaded`) and as it
has read or written them last (`current`).
-/
structure Notes where
  loaded : Disk
  current : Disk
  seen : List Nat

namespace Notes

def blank : Notes where
  loaded := fun _ _ => 0
  current := fun _ _ => 0
  seen := []

-- a cluster that was seen before is not used as it is read again
def read (g : Notes) (c : Nat) (buf : ClusterBuffer) : Notes :=
  if c ∈ g.seen then
    g
  else
    ⟨g.loaded.writeCluster c buf, g.current.writeCluster c buf, c :: g.seen⟩

def written (g : Notes) (c : Nat) (ptr : ClusterBuffer) : Notes :=
  ⟨g.loaded, g.current.writeCluster c ptr, c :: g.seen⟩

def note (g : Notes) (cmd : DiskCmd) (answer : cmd.Ret) : Notes :=
  match cmd, answer with
  | .read_blocks lba 4, buf => g.read (DiskCmd.lba28 lba / 4) buf
  | .write_blocks lba 4 ptr, _ => g.written (DiskCmd.lba28 lba / 4) ptr
  | _, _ => g

theorem read_of_not_mem {g : Notes} {c : Nat} (hc : c ∉ g.seen) (buf : ClusterBuffer)
    : g.read c buf = ⟨g.loaded.writeCluster c buf, g.current.writeCluster c buf, c :: g.seen⟩ := by
  unfold read
  rw [if_neg hc]

/--
Nobody else has changed what the operation has seen.
-/
def UpToDate (g : Notes) (d : Disk) : Prop :=
  ∀ c ∈ g.seen, d.cluster c = g.current.cluster c

end Notes

namespace Notes.UpToDate

variable {g : Notes} {d : Disk}

theorem blank (d : Disk) : Notes.blank.UpToDate d := by
  intro c hc
  exact absurd hc List.not_mem_nil

theorem read (h : g.UpToDate d) (c : Nat) : (g.read c (d.cluster c)).UpToDate d := by
  unfold Notes.read
  split
  . exact h
  . intro c' hc'
    by_cases heq : c' = c
    . rw [heq, Disk.cluster_writeCluster_self]
    . rw [Disk.cluster_writeCluster_of_ne _ _ heq]
      exact h c' ((List.mem_cons.mp hc').resolve_left heq)

theorem written (h : g.UpToDate d) (c : Nat) (ptr : ClusterBuffer)
    : (g.written c ptr).UpToDate (d.writeCluster c ptr) := by
  intro c' hc'
  unfold Notes.written
  by_cases heq : c' = c
  . rw [heq, Disk.cluster_writeCluster_self, Disk.cluster_writeCluster_self]
  . rw [Disk.cluster_writeCluster_of_ne _ _ heq, Disk.cluster_writeCluster_of_ne _ _ heq]
    exact h c' ((List.mem_cons.mp hc').resolve_left heq)

end Notes.UpToDate

/--
From `d` to `d'`, the file allocation table only changes for the clusters `cs`: an entry that was
empty is allocated, or an entry is freed.
-/
def Disk.KeepsFatBut (d : Disk) (cs : List (Fin 512)) (d' : Disk) : Prop :=
  ∀ j, d'.fat j ≠ d.fat j →
    j ∈ cs ∧ (d.fat j = FAT32_FAT_EMPTY_ENTRY ∨ d'.fat j = FAT32_FAT_EMPTY_ENTRY)

theorem Disk.keepsFatBut_of_ne_one {d : Disk} {c : Nat} {ptr : ClusterBuffer}
    {cs : List (Fin 512)} (hc : c ≠ 1)
    : d.KeepsFatBut cs (d.writeCluster c ptr) := by
  intro j hj
  apply absurd _ hj
  rw [Disk.fat_congr (Disk.cluster_writeCluster_of_ne _ _ hc.symm)]

namespace Operation

def clusters (loaded : Disk) : Operation → List (Fin 512)
  | .write _ _ request =>
    match write.search request loaded with
    | some ⟨some _, cluster_numbers⟩ => cluster_numbers
    | _ => []
  | .read _ => []
  | .read_directory _ => []
  | .delete _ request =>
    match delete.searched request loaded with
    | some i => (delete.freed loaded.fat (loaded.table request.parent i)).getD []
    | none => []

/--
`write` does not run short of clusters, and `delete` stops at no entry 1 but that of a directory the
parent of which is the root.
-/
def Sane (loaded : Disk) : Operation → Prop
  | .write _ _ request => ¬ write.short request loaded
  | .read _ => True
  | .read_directory _ => True
  | .delete _ request =>
    ∀ i, delete.searched request loaded = some i → 2 ≤ i.val ∨
      ((loaded.table request.parent i).attribute = ATTR_SUBDIRECTORY ∧
        (loaded.table request.parent i).cluster_low.toNat < 3)

/--
An operation may write when its parent is a directory, what it has seen of the disk is still there,
and what it does with that is sane.
-/
def monitor (op : Operation) : Monitor Disk DiskCmd DiskCmd.Ret Notes where
  note := Notes.note
  allows g cmd d :=
    match cmd with
    | .read_blocks _ _ => True
    | .write_blocks _ _ _ =>
      d.Directory op.request.parent ∧ g.UpToDate d ∧ op.Sane g.loaded

theorem note_read_clusters (op : Operation) (g : Notes) (p : UInt32)
    (buf : DiskCmd.Ret (.read_blocks (cluster_to_lba p) 4))
    : op.monitor.note g (.read_blocks (cluster_to_lba p) 4) buf = g.read (clusterIndex p) buf := by
  change g.read (DiskCmd.lba28 (cluster_to_lba p) / 4) buf = _
  rw [lba28_cluster_to_lba]
  congr
  omega

theorem note_write_clusters (op : Operation) (g : Notes) (p : UInt32) (ptr : ClusterBuffer)
    : op.monitor.note g (.write_blocks (cluster_to_lba p) 4 ptr) ()
        =
      g.written (clusterIndex p) ptr := by
  change g.written (DiskCmd.lba28 (cluster_to_lba p) / 4) ptr = _
  rw [lba28_cluster_to_lba]
  congr
  omega

def KeepsFat (op : Operation) (g : Notes) (cmd : DiskCmd) (d : Disk) : Prop :=
  d.KeepsFatBut (op.clusters g.loaded) (diskDevice.exec cmd d)

end Operation

/--
`delete` starts with the file allocation table in the driver state, all others read it first.
-/
def instances : Client Disk DiskCmd DiskCmd.Ret Notes Operation FAT32DriverState Int where
  prog op driver_state := op.exec driver_state
  start op driver_state :=
    match op with
    | .delete _ _ => Notes.blank.read 1 driver_state.fat_table.toCluster
    | _ => Notes.blank
  monitor := Operation.monitor

structure Noted (request : FAT32DriverRequest) (d : Disk) (g : Notes) : Prop where
  loaded : g.loaded = d
  seen_parent : request.parent ∈ g.seen
  seen_fat : 1 ∈ g.seen
  parent : g.current.cluster request.parent = d.cluster request.parent
  fat : g.current.cluster 1 = d.cluster 1

namespace Noted

variable {request : FAT32DriverRequest} {d s : Disk} {g : Notes} (h : Noted request d g)
  (hs : g.UpToDate s)

include h

theorem written {j : Fin 512} (hone : 1 ≠ j.val) (hparent : request.parent ≠ j)
    (ptr : ClusterBuffer)
    : Noted request d (g.written j ptr) where
  loaded := h.loaded
  seen_parent := List.mem_cons_of_mem _ h.seen_parent
  seen_fat := List.mem_cons_of_mem _ h.seen_fat
  parent := (Disk.cluster_writeCluster_of_ne _ _ hparent).trans h.parent
  fat := (Disk.cluster_writeCluster_of_ne _ _ hone).trans h.fat

theorem read (c : Nat) (buf : ClusterBuffer)
    : ∃ d', Noted request d' (g.read c buf) ∧
        d'.table request.parent = d.table request.parent ∧ d'.fat = d.fat := by
  by_cases hc : c ∈ g.seen
  . unfold Notes.read
    rw [if_pos hc]
    exact ⟨d, h, rfl, rfl⟩
  . have hparent : request.parent ≠ c := fun heq => hc (heq ▸ h.seen_parent)
    have hfat : 1 ≠ c := fun heq => hc (heq ▸ h.seen_fat)
    rw [Notes.read_of_not_mem hc]
    refine ⟨d.writeCluster c buf, ?_, ?_, ?_⟩
    . refine {
        loaded := by rw [h.loaded]
        seen_parent := List.mem_cons_of_mem _ h.seen_parent
        seen_fat := List.mem_cons_of_mem _ h.seen_fat
        parent := ?_
        fat := ?_ }
      . rw [Disk.cluster_writeCluster_of_ne _ _ hparent, h.parent]
        rw [Disk.cluster_writeCluster_of_ne _ _ hparent]
      . rw [Disk.cluster_writeCluster_of_ne _ _ hfat, h.fat]
        rw [Disk.cluster_writeCluster_of_ne _ _ hfat]
    . rw [Disk.table_congr (Disk.cluster_writeCluster_of_ne _ _ hparent)]
    . rw [Disk.fat_congr (Disk.cluster_writeCluster_of_ne _ _ hfat)]

include hs

theorem table_eq : s.table request.parent = d.table request.parent := by
  apply Disk.table_congr
  rw [hs _ h.seen_parent, h.parent]

theorem fat_eq : s.fat = d.fat := by
  apply Disk.fat_congr
  rw [hs _ h.seen_fat, h.fat]

end Noted

/--
The disk between two commands, with the clusters an operation has taken or not yet given back.
-/
abbrev Disk.Shared (d : Disk) (mine others : Set Nat) : Prop :=
  Settled Disk.WellFormed Disk.Held d mine others

theorem Disk.Shared.of_agrees {d d' : Disk} {mine mine' others : Set Nat} (h : d.Shared mine others)
    (hagrees : Agrees fat32 d.volume d'.volume) (hmine : ∀ c ∈ mine', d'.Held c)
    (hnext : ∀ c ∈ others, d'.fat.next c = d.fat.next c) (hapart : Disjoint mine' others)
    : d'.Shared mine' others where
  inv := hagrees.wellFormed h.inv
  owned_mine := hmine
  owned_others := by
    intro c hc
    have hheld : d.Held c := h.owned_others c hc
    apply Held.of_agrees hagrees h.inv hheld.data
    . change d'.fat.next c ≠ fat32.free
      rw [hnext c hc]
      exact hheld.used
    . apply hheld.apart
  apart := hapart

namespace Operation

def Guarded {α : Type} (op : Operation) (p : DiskM α) (g : Notes) (mine : Set Nat) : Prop :=
  p.Guarded Disk.WellFormed Disk.Held diskDevice op.monitor op.KeepsFat g mine

variable {α : Type} {op : Operation} {g : Notes} {mine : Set Nat} {p : UInt32}

theorem keepsFat_of_atoms_eq_nil (g : Notes) (cmd : DiskCmd) (d : Disk)
    (h : diskDevice.atoms cmd = [])
    : op.KeepsFat g cmd d := by
  intro j hj
  rw [diskDevice.exec_eq_of_atoms_eq_nil cmd d h] at hj
  contradiction

theorem guarded_pure (a : α) : op.Guarded (.pure a) g mine := by
  trivial

theorem guarded_fault : op.Guarded (.fault : DiskM α) g mine := by
  trivial

theorem guarded_of_silent {p : DiskM α} (h : p.Silent diskDevice) : op.Guarded p g mine := by
  apply Prog.Guarded.of_silent keepsFat_of_atoms_eq_nil h

theorem guarded_read_clusters {f : ClusterBuffer → DiskM α}
    (h : ∀ buf, op.Guarded (f buf) (g.read (clusterIndex p) buf) mine)
    : op.Guarded (read_clusters p >>= f) g mine := by
  apply Prog.Guarded.call_of_atoms_eq_nil rfl
  . intro d
    apply keepsFat_of_atoms_eq_nil
    rfl
  . intro d _ _
    rw [note_read_clusters]
    apply h

theorem guarded_write_clusters (mine' : Set Nat) {ptr : ClusterBuffer} {f : Unit → DiskM α}
    (hstep : ∀ (d : Disk) others, d.Shared mine others → d.Directory op.request.parent →
      g.UpToDate d → op.Sane g.loaded →
        d.KeepsFatBut (op.clusters g.loaded) (d.writeCluster (clusterIndex p) ptr) ∧
          (d.writeCluster (clusterIndex p) ptr).Shared mine' others)
    (h : op.Guarded (f ()) (g.written (clusterIndex p) ptr) mine')
    : op.Guarded (write_clusters ptr p >>= f) g mine := by
  intro d others hs hallows
  rcases hstep d others hs hallows.1 hallows.2.1 hallows.2.2 with ⟨hkeeps, hshared⟩
  have hexec : diskDevice.exec (.write_blocks (cluster_to_lba p) 4 ptr) d
      = d.writeCluster (clusterIndex p) ptr := by
    rw [exec_write_blocks, lba28_cluster_to_lba]
    rfl
  refine ⟨?_, mine', ?_, ?_⟩
  . unfold KeepsFat
    rw [hexec]
    exact hkeeps
  . rw [hexec]
    exact hshared
  . change op.Guarded (f ()) (op.monitor.note g (.write_blocks (cluster_to_lba p) 4 ptr) ()) mine'
    rw [note_write_clusters]
    exact h

theorem guarded_write_clusters_of_false {ptr : ClusterBuffer} {f : Unit → DiskM α}
    (h : ∀ (d : Disk) others, d.Shared mine others → d.Directory op.request.parent →
      g.UpToDate d → op.Sane g.loaded → False)
    : op.Guarded (write_clusters ptr p >>= f) g mine := by
  intro d others hs hallows
  apply absurd hallows
  intro hallows
  apply h d others hs hallows.1 hallows.2.1 hallows.2.2

-- an operation on cluster 1, which is never a directory, may not write at all
theorem guarded_of_parent_eq_one (op : Operation) {p : DiskM α} (hone : op.request.parent = 1)
    : op.Guarded p g mine := by
  apply Prog.Guarded.of_not_allowed keepsFat_of_atoms_eq_nil
  intro g cmd d hwf hallows
  cases cmd with
  | read_blocks lba n => rfl
  | write_blocks lba n ptr =>
    have hbounds := Disk.WellFormed.directory_bounds hwf hallows.1
    omega

-- a goal about a program is not to be evaluated together with its program
attribute [irreducible] Guarded

end Operation

end AiOS
