import AiOS.Fat32.Crash
import AiOS.Fat32.Lemmas.SharedDelete
import AiOS.Fat32.Lemmas.SharedWrite

/-!
This module contains what holds of the disk when several drivers work on it at the same time.
-/

namespace AiOS

open Catalog

section

variable {α : Type} {p : UInt32}

theorem silent_read_clusters {f : ClusterBuffer → DiskM α} (h : ∀ buf, (f buf).Silent diskDevice)
    : (read_clusters p >>= f).Silent diskDevice := by
  refine ⟨rfl, ?_⟩
  apply h

theorem read.silent_walk (fat_table : FAT32FileAllocationTable) (fuel : Nat)
    (cluster_number : UInt32) (delivered : List ClusterBuffer)
    : (walk fat_table fuel cluster_number delivered).Silent diskDevice := by
  induction fuel generalizing cluster_number delivered with
  | zero => trivial
  | succ fuel ih =>
    unfold walk
    split
    . trivial
    . apply silent_read_clusters
      intro buf
      split
      . apply ih
      . trivial

theorem read.silent (driver_state : FAT32DriverState) (request : FAT32DriverRequest)
    : (AiOS.read driver_state request).Silent diskDevice := by
  unfold AiOS.read
  apply silent_read_clusters
  intro dir_table_buf
  dsimp only
  split
  . trivial
  . apply silent_read_clusters
    intro fat_table
    split
    . unfold read.found
      dsimp only
      split
      . trivial
      . split
        . trivial
        . apply Prog.Silent.bind
          . apply read.silent_walk
          . intro delivered
            trivial
    . trivial

end

theorem read_directory.guarded_found {α : Type} {op : Operation} {request : FAT32DriverRequest}
    {g : Notes} {driver_state : FAT32DriverState} {i : Fin 64}
    {f : Int × FAT32DriverState × List ClusterBuffer → DiskM α}
    (hseen : request.parent ∈ g.seen)
    (hcurrent : g.current.cluster request.parent = driver_state.dir_table_buf.toCluster)
    (hf : ∀ r g, op.Guarded (f r) g ∅)
    : op.Guarded (found driver_state request i >>= f) g ∅ := by
  unfold found
  dsimp only
  split
  . apply hf
  . rw [Prog.bind_assoc]
    apply Operation.guarded_write_clusters ∅
    . intro s others hs _ huptodate _
      have hback : s.writeCluster (clusterIndex request.parent_cluster_number)
          driver_state.dir_table_buf.toCluster = s := by
        rw [← hcurrent, ← huptodate _ hseen]
        apply Disk.writeCluster_cluster
      rw [hback]
      refine ⟨?_, hs⟩
      intro j hj
      contradiction
    . rw [Prog.bind_assoc]
      apply Operation.guarded_read_clusters
      intro buf
      apply hf

theorem read_directory.guarded (driver_state : FAT32DriverState) (request : FAT32DriverRequest)
    : (Operation.read_directory request).Guarded
        ((Operation.read_directory request).exec driver_state) Notes.blank ∅ := by
  unfold Operation.exec
  dsimp only
  unfold AiOS.read_directory
  rw [Prog.bind_assoc]
  apply Operation.guarded_read_clusters
  intro dir_table_buf
  have hblank : clusterIndex request.parent_cluster_number ∉ Notes.blank.seen := List.not_mem_nil
  rw [Notes.read_of_not_mem hblank]
  dsimp only
  split
  . apply Operation.guarded_pure
  . split
    . apply guarded_found
      . apply List.mem_cons_self
      . unfold FAT32DriverRequest.parent
        rw [Disk.cluster_writeCluster_self, FAT32DirectoryTable.toCluster_ofCluster]
      . intro r g
        apply Operation.guarded_pure
    . apply Operation.guarded_pure

theorem Operation.guarded_exec (op : Operation) (driver_state : FAT32DriverState)
    : op.Guarded (op.exec driver_state) (instances.start op driver_state) ∅ := by
  cases op with
  | write memory newDirectoryTable request => apply write.guarded_write driver_state
  | read request =>
    apply guarded_of_silent
    apply Prog.Silent.bind
    . apply read.silent
    . intro r
      trivial
  | read_directory request => apply read_directory.guarded
  | delete dirTable request => apply delete.guarded_delete

abbrev DiskWorld (ι : Type) : Type :=
  World ι Disk DiskCmd DiskCmd.Ret Notes Operation FAT32DriverState Int

/--
Any number of drivers that share a well-formed disk, each with its own driver state.
-/
abbrev sharing (ι : Type) [DecidableEq ι] : System (DiskWorld ι) (Turn ι Operation) :=
  instances.system diskDevice Disk.WellFormed

/--
However the reads and writes of several drivers interleave, as long as every write is allowed: no
cluster is in two files, and every write leaves the entries of the file allocation table alone that
its operation neither allocates nor frees.
-/
theorem sharing_keeps {ι : Type} [DecidableEq ι] {w : DiskWorld ι}
    (h : (sharing ι).Reachable instances.Allowed w)
    : w.device.WellFormed ∧
        ∀ i op cmd k g, w.proc i = .busy op (.call cmd k) g → op.monitor.allows g cmd w.device →
          w.device.KeepsFatBut (op.clusters g.loaded) (diskDevice.exec cmd w.device) := by
  have hprog := Operation.guarded_exec
  unfold Operation.Guarded at hprog
  refine ⟨?_, ?_⟩
  . apply Client.invariant (fun d hd => hd) hprog h
  . intro i op cmd k g hbusy hallows
    apply Client.guarantee (fun d hd => hd) hprog h hbusy hallows

namespace write

/--
The kernel, which has made the file on the disk `populated`, and a shell that has just started.
-/
def kernel_and_shell : DiskWorld Bool where
  device := populated
  proc i :=
    match i with
    | true => .idle ⟨populated.fat, new_table small fresh 2 [3]⟩
    | false => .idle .zero

theorem init_kernel_and_shell : (sharing Bool).init kernel_and_shell := by
  refine ⟨populated_wellFormed, ?_⟩
  intro i
  cases i with
  | true => exact ⟨_, rfl⟩
  | false => exact ⟨_, rfl⟩

end write

namespace instances

variable {ι : Type} [DecidableEq ι] {w : DiskWorld ι} {i : ι} {op : Operation} {g : Notes}
  {p : UInt32}

theorem leads_start (op : Operation) {driver_state : FAT32DriverState}
    (hidle : w.proc i = .idle driver_state)
    : (sharing ι).Leads instances.Allowed w
        (w.set i w.device (.busy op (op.exec driver_state) (instances.start op driver_state))) := by
  apply Relation.ReflTransGen.single
  refine ⟨.start i op, ?_, Client.Step.start hidle⟩
  intro _ _ _ _ _ heq
  contradiction

theorem leads_call (cmd : DiskCmd) (k : cmd.Ret → DiskM (Int × FAT32DriverState))
    (hbusy : w.proc i = .busy op (.call cmd k) g) (hallows : op.monitor.allows g cmd w.device)
    : (sharing ι).Leads instances.Allowed w
        (w.set i (diskDevice.exec cmd w.device)
          (.busy op (k (diskDevice.answer cmd w.device))
            (op.monitor.note g cmd (diskDevice.answer cmd w.device)))) := by
  apply Relation.ReflTransGen.single
  refine ⟨.call i, ?_, Client.Step.call hbusy⟩
  intro j op' cmd' k' g' hturn hbusy'
  injection hturn with hij
  rw [← hij, hbusy] at hbusy'
  injection hbusy' with hop hp hg
  injection hp with hcmd
  rw [← hop, ← hg, ← hcmd]
  exact hallows

variable {d : Disk}

theorem leads_read_clusters {f : ClusterBuffer → DiskM (Int × FAT32DriverState)}
    : (sharing ι).Leads instances.Allowed (w.set i d (.busy op (read_clusters p >>= f) g))
        (w.set i d
          (.busy op (f (d.cluster (clusterIndex p)))
            (g.read (clusterIndex p) (d.cluster (clusterIndex p))))) := by
  have hbusy := World.set_proc_self w i d (.busy op (read_clusters p >>= f) g)
  have hcall := leads_call (.read_blocks (cluster_to_lba p) 4) f hbusy trivial
  rw [Operation.note_read_clusters, World.set_set] at hcall
  unfold Disk.cluster
  rw [← lba28_cluster_to_lba]
  exact hcall

theorem leads_write_clusters {ptr : ClusterBuffer} {f : Unit → DiskM (Int × FAT32DriverState)}
    (hallows : op.monitor.allows g (.write_blocks (cluster_to_lba p) 4 ptr) d)
    : (sharing ι).Leads instances.Allowed (w.set i d (.busy op (write_clusters ptr p >>= f) g))
        (w.set i (d.writeCluster (clusterIndex p) ptr)
          (.busy op (f ()) (g.written (clusterIndex p) ptr))) := by
  have hbusy := World.set_proc_self w i d (.busy op (write_clusters ptr p >>= f) g)
  have hcall := leads_call (.write_blocks (cluster_to_lba p) 4 ptr) f hbusy hallows
  rw [World.set_set] at hcall
  change (sharing ι).Leads instances.Allowed _
    (w.set i (diskDevice.exec (.write_blocks (cluster_to_lba p) 4 ptr) d)
      (.busy op (f ()) (op.monitor.note g (.write_blocks (cluster_to_lba p) 4 ptr) ()))) at hcall
  rw [Operation.note_write_clusters, exec_write_blocks, lba28_cluster_to_lba] at hcall
  exact hcall

theorem leads_finish {code : Int} {driver_state : FAT32DriverState}
    : (sharing ι).Leads instances.Allowed (w.set i d (.busy op (.pure (code, driver_state)) g))
        (w.set i d (.idle driver_state)) := by
  have hbusy := World.set_proc_self w i d (.busy op (.pure (code, driver_state)) g)
  have hfinish := Client.Step.finish (C := instances) (D := diskDevice) hbusy
  rw [World.set_set] at hfinish
  apply Relation.ReflTransGen.single
  refine ⟨.finish i, ?_, hfinish⟩
  intro _ _ _ _ _ heq
  contradiction

end instances

namespace filing

open instances

abbrev operation : Operation :=
  .write (fun _ => 0x41) (fun _ => .zero) write.small

def world : DiskWorld Bool where
  device := fresh
  proc i :=
    match i with
    | true => .idle fresh_driver
    | false => .idle .zero

theorem init_world : (sharing Bool).init world := by
  refine ⟨fresh_wellFormed, ?_⟩
  intro i
  cases i with
  | true => exact ⟨_, rfl⟩
  | false => exact ⟨_, rfl⟩

theorem required_clusters_small : write.required_clusters write.small = 1 := by
  decide

theorem allows {g : Notes} {d : Disk} (h : g.UpToDate d) {lba : UInt32} {n : Nat} (ptr : Blocks n)
    : operation.monitor.allows g (.write_blocks lba n ptr) d :=
  ⟨Directory.root, h, write.not_short_of_required_one required_clusters_small _⟩

def loaded : Notes :=
  (Notes.blank.read 2 (fresh.cluster 2)).read 1 (fresh.cluster 1)

def content : ClusterBuffer :=
  write.content (fun _ => 0x41) (fun _ => .zero) write.small 0

def fat_table : FAT32FileAllocationTable :=
  write.link [3] fresh.fat

def table : FAT32DirectoryTable :=
  write.new_table write.small fresh 2 [3]

def rest : DiskM (Int × FAT32DriverState) := do
  write_clusters fat_table.toCluster 1
  write_clusters table.toCluster 2
  return (0, ⟨fat_table, table⟩)

theorem body_eq
    : write.body (fun _ => 0x41) (fun _ => .zero) write.small (fresh.table 2) fresh.fat
        =
      write_clusters content 3 >>= fun _ => rest := by
  have hparent : write.parent_ok (fresh.table write.small.parent) := write.parent_ok_fresh rfl
  have hbody := write.body_of_parent_ok (fun _ => 0x41) (fun _ => .zero) write.small fresh hparent
  rw [write.search_small] at hbody
  exact hbody

theorem loaded_upToDate : loaded.UpToDate fresh :=
  ((Notes.UpToDate.blank fresh).read 2).read 1

def half : DiskWorld Bool :=
  world.set false (fresh.writeCluster 3 content) (.busy operation rest (loaded.written 3 content))

theorem leads_half : (sharing Bool).Leads instances.Allowed world half := by
  have hstart : (sharing Bool).Leads instances.Allowed world
      (world.set false fresh (.busy operation
        (read_clusters 2 >>= fun dir_table_buf => read_clusters 1 >>= fun fat_table =>
          write.body (fun _ => 0x41) (fun _ => .zero) write.small (.ofCluster dir_table_buf)
            (.ofCluster fat_table))
        Notes.blank)) := leads_start operation rfl
  have hbody : (sharing Bool).Leads instances.Allowed world
      (world.set false fresh (.busy operation
        (write.body (fun _ => 0x41) (fun _ => .zero) write.small (fresh.table 2) fresh.fat)
        loaded)) := (hstart.trans leads_read_clusters).trans leads_read_clusters
  rw [body_eq] at hbody
  exact hbody.trans (leads_write_clusters (p := 3) (allows loaded_upToDate content))

theorem leads_read {w : DiskWorld Bool} {driver_state : FAT32DriverState}
    (hidle : w.proc true = .idle driver_state) (htable : w.device.table 2 = fresh.table 2)
    : ∃ st, (sharing Bool).Leads instances.Allowed w (w.set true w.device (.idle st)) := by
  have hparent : write.parent_ok (fresh.table write.small.parent) := write.parent_ok_fresh rfl
  have hlive : (fresh.table 2 0).user_attribute = UATTR_NOT_EMPTY := hparent.1
  have hfind : read.find_entry (fresh.table 2) write.small = none := by
    decide
  have hprog : ∃ f, (Operation.read write.small).exec driver_state = (read_clusters 2 >>= f) ∧
      f (w.device.cluster 2) = (read_clusters 1 >>= fun fat_table =>
        .pure (2, ⟨.ofCluster fat_table, fresh.table 2⟩)) := by
    have htable : FAT32DirectoryTable.ofCluster (w.device.cluster 2) = fresh.table 2 := htable
    unfold Operation.exec
    dsimp only
    unfold AiOS.read
    rw [Prog.bind_assoc]
    refine ⟨_, rfl, ?_⟩
    dsimp only
    rw [htable, if_neg (not_not.mpr hlive), hfind]
    rfl
  rcases hprog with ⟨f, hexec, hf⟩
  have hstart := leads_start (.read write.small) hidle
  rw [hexec] at hstart
  have hread := hstart.trans (leads_read_clusters (p := 2))
  have hindex : clusterIndex 2 = 2 := rfl
  rw [hindex, hf] at hread
  exact ⟨_, (hread.trans leads_read_clusters).trans leads_finish⟩

theorem clusters_loaded : operation.clusters loaded.loaded = [3] := by
  have hone : write.small.parent ≠ 1 := by decide
  rcases write.noted_of_read hone (fresh.cluster 2) (fresh.cluster 1) with
    ⟨d, hnotes, htable, hfat⟩
  have hloaded : loaded.loaded = d := congrArg Notes.loaded hnotes
  have hsearch : write.search write.small d = some ⟨some 2, [3]⟩ := by
    unfold write.search
    rw [htable, hfat]
    exact write.search_small
  rw [hloaded]
  unfold Operation.clusters
  dsimp only
  rw [hsearch]

theorem leads_populated {w : DiskWorld Bool}
    (hbusy : w.proc false = .busy operation rest (loaded.written 3 content))
    (hdevice : w.device = fresh.writeCluster 3 content)
    : (sharing Bool).Leads instances.Allowed w
        (w.set false write.populated (.idle ⟨fat_table, table⟩)) := by
  have hworld := World.set_self w false
  rw [hbusy, hdevice] at hworld
  have hfilled := loaded_upToDate.written 3 content
  have hlinked := hfilled.written 1 fat_table.toCluster
  have hfat := leads_write_clusters (w := w) (i := false) (p := 1) (f := fun _ => do
    write_clusters table.toCluster 2
    return (0, ⟨fat_table, table⟩)) (allows hfilled fat_table.toCluster)
  have htable := leads_write_clusters (w := w) (i := false) (p := 2) (f := fun _ =>
    .pure (0, ⟨fat_table, table⟩)) (allows hlinked table.toCluster)
  have hdone := (hfat.trans htable).trans leads_finish
  rw [← hworld]
  rw [World.set_set]
  exact hdone

end filing

/--
The kernel reads the root between two writes of the shell, which then goes on to the file allocation
table and to the end.
-/
theorem sharing_keeps_small
    : ∃ w w' k g, (sharing Bool).Reachable instances.Allowed w ∧
        w.proc false = .busy filing.operation
          (.call (.write_blocks (cluster_to_lba 1) 4 filing.fat_table.toCluster) k) g ∧
        w.device.KeepsFatBut [3] (diskDevice.exec
          (.write_blocks (cluster_to_lba 1) 4 filing.fat_table.toCluster) w.device) ∧
        (sharing Bool).Leads instances.Allowed w w' ∧ w'.device = write.populated ∧
        w'.device.WellFormed := by
  have hidle : filing.half.proc true = .idle fresh_driver :=
    World.set_proc_of_ne _ _ _ _ (by decide)
  have htable : filing.half.device.table 2 = fresh.table 2 :=
    Disk.table_congr (Disk.cluster_writeCluster_of_ne _ _ (by decide))
  rcases filing.leads_read hidle htable with ⟨st, hread⟩
  have hreach := System.Reachable.leads (System.Reachable.leads
    (System.Reachable.init filing.init_world) filing.leads_half) hread
  have hbusy : (filing.half.set true filing.half.device (.idle st)).proc false
      = .busy filing.operation filing.rest (filing.loaded.written 3 filing.content) :=
    (World.set_proc_of_ne _ _ _ _ (by decide)).trans (World.set_proc_self _ _ _ _)
  have hleads := filing.leads_populated hbusy rfl
  have hkeeps := (sharing_keeps hreach).2 _ _ _ _ _ hbusy
    (filing.allows (filing.loaded_upToDate.written 3 filing.content) _)
  refine ⟨_, _, _, _, hreach, hbusy, ?_, hleads, rfl, (sharing_keeps (hreach.leads hleads)).1⟩
  rw [← filing.clusters_loaded]
  exact hkeeps

theorem sharing_loses
    : ∃ st d, (delete .zero (fun _ => .zero) write.small).run diskDevice write.populated
          = some ((0, st), d) ∧
        (sharing Bool).Reachable (fun _ _ => True)
          (write.kernel_and_shell.set false d (.idle st)) ∧
        write.populated.Owns (2, 2) [3] ∧ ¬ write.populated.KeepsFatBut [3] d := by
  have hentry : write.populated.table 2 2
      = write.new_entry (create_fat32.dir_table_buf .zero (fun _ => 0) 2) write.small 3 := by
    rw [write.populated_table, Function.update_self]
  have hfreed : delete.freed FAT32DriverState.zero.fat_table (write.populated.table 2 2)
      = some [3] := by
    rw [hentry]
    decide
  have hrefused : ¬ delete.refused (fun _ => .zero) write.small write.populated 2 := by
    intro h
    have hdir : (write.populated.table 2 2).attribute = ATTR_SUBDIRECTORY := h.1
    rw [hentry] at hdir
    contradiction
  have hrun := delete.run_of_freed .zero _ _ _ searched_small hrefused hfreed
  refine ⟨_, _, hrun, ?_, ?_, ?_⟩
  . apply System.Reachable.leads (System.Reachable.init write.init_kernel_and_shell)
    have hidle : write.kernel_and_shell.proc false = .idle .zero := rfl
    have hprog : (instances.prog (.delete (fun _ => .zero) write.small) .zero).run diskDevice
        write.kernel_and_shell.device = _ := hrun
    apply Client.leads_of_run hidle hprog
  . exact write.committed_small.chain write.chosen_small (by decide)
  . intro h
    have hold : write.populated.fat 2 = FAT32_FAT_END_OF_FILE := by
      rw [write.populated_fat, write.link_of_not_mem (by decide)]
      decide
    have hnew : (delete.deleted write.small write.populated 2 FAT32DriverState.zero.fat_table
        [3]).fat 2 = 0 := by
      unfold delete.deleted
      rw [Disk.fat_writeCluster]
      decide
    have hmem := (h 2 (by rw [hnew, hold]; decide)).1
    revert hmem
    decide

end AiOS
