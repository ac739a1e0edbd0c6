import AiOS.Fat32.Power

/-!
This module contains what becomes of a new disk when the power fails while it is formatted. The
signature is written first, and a disk that has it is never formatted again.
-/

namespace AiOS

namespace create_fat32

def blank : Disk :=
  fun _ _ => 0

variable (after_literal : Fin 3 → UInt8)

def signed : Disk :=
  blank.writeFirst 0 1 (fun _ : Fin 1 => fs_signature)

theorem not_signed_blank : ¬ blank.Signed := by
  intro h
  have hbyte := congrFun h 0
  revert hbyte
  decide

theorem cluster_signed {c : Nat} (hc : c ≠ 0) : signed.cluster c = blank.cluster c := by
  funext i
  unfold signed Disk.cluster Disk.blocks Disk.writeFirst
  rw [dif_neg (by omega)]

theorem signed_signed : signed.Signed := by
  unfold signed Disk.Signed Disk.cluster Disk.blocks Disk.writeFirst
  rw [dif_pos (by simp)]

theorem crash_zero : (create_fat32 .zero after_literal).crash diskDevice blank 0 = blank := by
  rfl

theorem crash_fat {n : Nat} (hn : n ≤ 4)
    : (create_fat32 .zero after_literal).crash diskDevice blank (1 + n)
        =
      signed.writeFirst (4 * 1) n fat_table.toCluster := by
  unfold create_fat32 write_clusters
  rw [crash_write_blocks_add, crash_write_blocks_of_le _ _ _ _ hn]
  rfl

theorem crash_table (n : Nat)
    : (create_fat32 .zero after_literal).crash diskDevice blank (5 + n)
        =
      (signed.writeCluster 1 fat_table.toCluster).writeFirst (4 * 2) n
        (dir_table_buf .zero after_literal).toCluster := by
  have hsum : 5 + n = 1 + (4 + n) := by omega
  unfold create_fat32 write_clusters
  rw [hsum, crash_write_blocks_add, crash_write_blocks_add]
  by_cases hn : n ≤ 4
  . rw [crash_write_blocks_of_le _ _ _ _ hn]
    rfl
  . have hrest : n = 4 + (n - 4) := by omega
    rw [hrest, crash_write_blocks_add, Disk.writeFirst_of_le _ _ (4 + (n - 4)) _ (by omega)]
    apply Prog.crash_pure

theorem dir_table_buf_of_le {i : Fin 64} (hi : 2 ≤ i.val)
    : dir_table_buf .zero after_literal i = .zero := by
  unfold dir_table_buf init_directory_table
  rw [if_neg (by omega), if_neg (by omega)]
  rfl

theorem toBytes_zero (k : Fin 32) : FAT32DirectoryEntry.zero.toBytes k = 0 := by
  revert k
  decide

theorem toCluster_dir_table_buf {i : Fin 4} (hi : i ≠ 0)
    : (dir_table_buf .zero after_literal).toCluster i = fun _ => 0 := by
  funext o
  unfold FAT32DirectoryTable.toCluster ClusterBuffer.ofBytes
  dsimp only
  rw [dir_table_buf_of_le, toBytes_zero]
  dsimp only
  omega

theorem writeFirst_of_there {d : Disk} {n start b : Nat} {ptr : Blocks n}
    (h : ∀ i : Fin n, b ≤ i.val → d (start + i) = ptr i)
    : d.writeFirst start b ptr = d.writeFirst start n ptr := by
  funext x
  unfold Disk.writeFirst
  split
  . rw [dif_pos (by omega)]
  . split
    . next hnot hin =>
      have hsum : start + (x - start) = x := by omega
      have hthere := h ⟨x - start, by omega⟩ (by dsimp only; omega)
      dsimp only at hthere
      rw [hsum] at hthere
      exact hthere
    . rfl

theorem crash_of_ge {n : Nat} (hn : 6 ≤ n)
    : (create_fat32 .zero after_literal).crash diskDevice blank n
        =
      created .zero after_literal blank := by
  have hrest : n = 5 + (n - 5) := by omega
  rw [hrest, crash_table]
  apply writeFirst_of_there
  intro i hi
  have hne : i ≠ 0 := by
    intro heq
    rw [heq, Fin.val_zero] at hi
    omega
  rw [toCluster_dir_table_buf _ hne]
  unfold signed blank Disk.writeCluster Disk.writeFirst
  rw [dif_neg (by omega), dif_neg (by omega)]

theorem cluster_crash {n : Nat} (hpos : 1 ≤ n) (hn : n ≤ 5)
    : ((create_fat32 .zero after_literal).crash diskDevice blank n).Signed ∧
        ((create_fat32 .zero after_literal).crash diskDevice blank n).cluster 2 = fun _ _ => 0 := by
  have hrest : n = 1 + (n - 1) := by omega
  rw [hrest, crash_fat _ (by omega)]
  refine ⟨?_, ?_⟩
  . apply (Disk.signed_congr _).mpr signed_signed
    rw [Disk.cluster_writeFirst, if_neg (by omega)]
  . rw [Disk.cluster_writeFirst, if_neg (by omega), cluster_signed (by omega)]
    rfl

theorem crash_initialize (n : Nat)
    : (initialize_filesystem_fat32 .zero after_literal).crash diskDevice blank n
        =
      (create_fat32 .zero after_literal).crash diskDevice blank n := by
  have hempty : memcmp (blank.blocks (DiskCmd.lba28 0) 1 0) fs_signature ≠ 0 := by
    rw [Ne, memcmp_eq_zero_iff]
    exact not_signed_blank
  unfold initialize_filesystem_fat32 is_empty_storage
  rw [Prog.bind_assoc, crash_read_blocks]
  simp [hempty]

end create_fat32

/--
A file system the root directory of which has not even entries for itself, and a driver that has
mounted it.
-/
structure Bricked (s : FAT32DriverState × Disk) : Prop where
  signed : s.2.Signed
  cache : s.1.fat_table = s.2.fat
  dead : ∀ i, (s.2.table 2 i).user_attribute ≠ UATTR_NOT_EMPTY

namespace Bricked

variable {s s' : FAT32DriverState × Disk} {op : Operation}

theorem directory_iff (h : Bricked s) (p : Nat) : s.2.Directory p ↔ p = 2 := by
  constructor
  . intro hp
    induction hp with
    | root => rfl
    | child _ _ hlive _ ih =>
      rw [ih] at hlive
      exact absurd hlive (h.dead _)
  . intro hp
    rw [hp]
    exact Catalog.Directory.root

theorem wellFormed (h : Bricked s) : s.2.WellFormed := by
  have hnone : ∀ t, ¬ s.2.Live t := by
    intro t ht
    have hroot := (h.directory_iff t.1).mp ht.dir
    have hlive := ht.live
    unfold Catalog.Volume.entry at hlive
    rw [hroot] at hlive
    exact h.dead _ hlive
  exact ⟨fun t ht => absurd ht (hnone t), fun t _ ht => absurd ht (hnone t)⟩

section

variable (h : Bricked s) (hP : s.2.Directory op.request.parent_cluster_number.toNat)

include h hP

theorem parent_eq : op.request.parent = 2 := by
  rw [h.wellFormed.parent_eq hP]
  exact (h.directory_iff _).mp hP

theorem not_live (i : Fin 64)
    : (s.2.table op.request.parent i).user_attribute ≠ UATTR_NOT_EMPTY := by
  rw [h.parent_eq hP]
  exact h.dead i

theorem orderly : op.Orderly s := by
  have hdead := h.not_live hP
  cases op with
  | write memory newDirectoryTable request =>
    intro hshort
    exact hdead 0 hshort.1.1
  | read request => trivial
  | read_directory request => trivial
  | delete dirTable request =>
    intro i hsearched
    exact absurd (delete.hit_of_searched _ _ hsearched).2.1 (hdead i)

theorem eq_of_leaves {d : Disk} (hleaves : op.Leaves s.2 d) : d = s.2 := by
  have hdead := h.not_live hP
  cases hleaves with
  | untouched => rfl
  | written hparent _ _ => exact absurd hparent.1 (hdead 0)
  | deleted hsearched _ _ _ =>
    exact absurd (delete.hit_of_searched _ _ hsearched).2.1 (hdead _)

theorem refuses {st : FAT32DriverState} {d : Disk} {code : Int}
    (hrun : (op.exec s.1).run diskDevice s.2 = some ((code, st), d))
    : code ≠ 0 := by
  have hdead := h.not_live hP
  rcases s with ⟨driver_state, d₀⟩
  cases op with
  | write memory newDirectoryTable request =>
    have hrun : (write driver_state memory newDirectoryTable request).run diskDevice d₀
        = some ((code, st), d) := hrun
    rcases write.run_cases _ _ _ _ _ hrun with ⟨hcode, _⟩ | ⟨i, cs, _, hparent, _⟩
    . exact hcode
    . exact absurd hparent.1 (hdead 0)
  | read request =>
    have hdead : (d₀.table request.parent 0).user_attribute ≠ UATTR_NOT_EMPTY := hdead 0
    unfold Operation.exec at hrun
    dsimp only at hrun
    rw [Prog.run_bind, read.run_of_not_live _ _ _ hdead] at hrun
    simp only [Option.bind_some, Prog.pure_eq, Prog.run_pure, Option.some.injEq,
      Prod.mk.injEq] at hrun
    omega
  | read_directory request =>
    have hdead : (d₀.table request.parent 0).user_attribute ≠ UATTR_NOT_EMPTY := hdead 0
    have hreturns : read_directory.Returns driver_state request d₀ (-1) [] :=
      read_directory.returns_of_not_live hdead
    rcases hreturns with ⟨st', hreturns⟩
    unfold Operation.exec at hrun
    dsimp only at hrun
    rw [Prog.run_bind, hreturns] at hrun
    simp only [Option.bind_some, Prog.pure_eq, Prog.run_pure, Option.some.injEq,
      Prod.mk.injEq] at hrun
    omega
  | delete dirTable request =>
    have hrun : (delete driver_state dirTable request).run diskDevice d₀ = some ((code, st), d) :=
      hrun
    rcases delete.run_cases _ _ _ _ hrun with ⟨hcode, _⟩ | ⟨i, cs, _, hsearched, _⟩
    . exact hcode
    . exact absurd (delete.hit_of_searched _ _ hsearched).2.1 (hdead i)

end

theorem of_disk_eq (h : Bricked s) (hdisk : s'.2 = s.2) (hcache : s'.1.fat_table = s'.2.fat)
    : Bricked s' := by
  refine ⟨?_, hcache, ?_⟩
  . rw [hdisk]
    exact h.signed
  . rw [hdisk]
    exact h.dead

theorem of_step {e : PowerEvent} (h : Bricked s) (hstep : powered.step s e s')
    : s'.2 = s.2 ∧ Bricked s' := by
  rcases s with ⟨driver_state, d⟩
  rcases s' with ⟨driver_state', d'⟩
  rcases hstep with ⟨hP, hevent⟩
  have hok := h.orderly hP
  cases e with
  | serve op code =>
    have hdisk : d' = d := h.eq_of_leaves hP (Operation.leaves_run h.wellFormed h.cache hP hok hevent)
    have hmounted : Mounted False (driver_state, d) := ⟨h.signed, h.cache, False.elim⟩
    have hspares : op.SparesFat := by
      have hparent := h.parent_eq hP
      cases op with
      | write memory newDirectoryTable request =>
        intro heq
        have hparent : request.parent = 2 := hparent
        omega
      | read request => trivial
      | read_directory request => trivial
      | delete dirTable request => trivial
    have hstep' : driver.step (driver_state, d) op (driver_state', d') := ⟨hP, code, hevent⟩
    have hmounted' := hmounted.of_step (fun _ => hspares) hstep'
    exact ⟨hdisk, h.of_disk_eq hdisk hmounted'.cache⟩
  | cut op n =>
    rcases hevent with ⟨st, after_literal, hmount⟩
    have hleaves := Operation.leaves_crash h.wellFormed h.cache hP hok n
    have hdisk := h.eq_of_leaves hP hleaves
    dsimp only [PowerEvent.operation] at hdisk hmount
    rw [hdisk, run_initialize_filesystem_fat32 h.signed, Option.some.injEq, Prod.mk.injEq] at hmount
    rcases hmount with ⟨rfl, rfl⟩
    exact ⟨rfl, h.of_disk_eq rfl rfl⟩

theorem of_leads {ok : FAT32DriverState × Disk → PowerEvent → Prop} (h : Bricked s)
    (hleads : powered.Leads ok s s')
    : s'.2 = s.2 ∧ Bricked s' := by
  apply hleads.invariant (I := fun t => t.2 = s.2 ∧ Bricked t)
  . exact ⟨rfl, h⟩
  . intro t e t' ht _ hstep
    have hnext := ht.2.of_step hstep
    exact ⟨hnext.1.trans ht.1, hnext.2⟩

theorem of_mount {driver_state : FAT32DriverState} {after_literal : Fin 3 → UInt8} {d : Disk}
    (hsigned : d.Signed) (hroot : d.cluster 2 = fun _ _ => 0)
    (hmount : (initialize_filesystem_fat32 driver_state after_literal).run diskDevice d = some s)
    : Bricked s := by
  rw [run_initialize_filesystem_fat32 hsigned, Option.some.injEq] at hmount
  rw [← hmount]
  refine ⟨hsigned, rfl, ?_⟩
  intro i
  rw [Disk.user_attribute_table, hroot]
  change (0 : UInt8) ≠ UATTR_NOT_EMPTY
  decide

theorem not_recovered (h : Bricked s) : ¬ Recovered s := by
  intro hrecovered
  have hroot : s.2.Directory 2 := Catalog.Directory.root
  exact h.dead 0 (hrecovered.regular 2 hroot).parent_ok.1

end Bricked

theorem Recovered.of_mount_created {s : FAT32DriverState × Disk} {driver_state : FAT32DriverState}
    {after_literal after_literal' : Fin 3 → UInt8} {d : Disk}
    (hmount : (initialize_filesystem_fat32 driver_state after_literal').run diskDevice
      (create_fat32.created .zero after_literal d) = some s)
    : Recovered s := by
  have hcreated : Recovered (⟨create_fat32.fat_table, create_fat32.dir_table_buf .zero after_literal⟩,
      create_fat32.created .zero after_literal d) :=
    .of_create ⟨_, _, _, create_fat32.run_create_fat32 _ _ _⟩
  rw [run_initialize_filesystem_fat32 hcreated.signed, Option.some.injEq] at hmount
  rw [← hmount]
  exact ⟨hcreated.wellFormed, rfl, hcreated.signed, hcreated.regular⟩

/--
The first boot with a new disk, cut off after `n` block writes, and the boot after it. The file system
is sound if and only if nothing was written or the first block of the root directory was. Otherwise
no operation ever succeeds again, and nothing formats the disk anew.
-/
theorem format_cut_iff {after_literal after_literal' : Fin 3 → UInt8} {n : Nat}
    {s : FAT32DriverState × Disk}
    (hboot : (initialize_filesystem_fat32 .zero after_literal').run diskDevice
      ((initialize_filesystem_fat32 .zero after_literal).crash diskDevice create_fat32.blank n)
        = some s)
    : (Recovered s ↔ n = 0 ∨ 6 ≤ n) ∧
        (¬ Recovered s → ∀ s', powered.Leads (fun _ _ => True) s s' → s'.2 = s.2 ∧
          ∀ op : Operation, s.2.Directory op.request.parent_cluster_number.toNat →
            ∀ code st d, (op.exec s'.1).run diskDevice s'.2 = some ((code, st), d) → code ≠ 0) := by
  rw [create_fat32.crash_initialize] at hboot
  by_cases hn : n = 0 ∨ 6 ≤ n
  . have hrecovered : Recovered s := by
      rcases hn with rfl | hge
      . rw [create_fat32.crash_zero, run_initialize_of_not_signed create_fat32.not_signed_blank]
          at hboot
        exact .of_create ⟨_, _, _, hboot⟩
      . rw [create_fat32.crash_of_ge _ hge] at hboot
        exact .of_mount_created hboot
    exact ⟨⟨fun _ => hn, fun _ => hrecovered⟩, fun hnot => absurd hrecovered hnot⟩
  . have hbricked : Bricked s := by
      have hpos : 1 ≤ n := by omega
      have hcrash := create_fat32.cluster_crash after_literal hpos (by omega)
      exact .of_mount hcrash.1 hcrash.2 hboot
    refine ⟨⟨fun h => absurd h hbricked.not_recovered, fun h => absurd h hn⟩, ?_⟩
    intro _ s' hleads
    have hs' := hbricked.of_leads hleads
    refine ⟨hs'.1, ?_⟩
    intro op hP code st d hrun
    rw [← hs'.1] at hP
    exact hs'.2.refuses hP hrun

-- the signature and two blocks of the file allocation table are written
theorem format_cut_three
    : ∃ s, (initialize_filesystem_fat32 .zero (fun _ => 0)).run diskDevice
          ((initialize_filesystem_fat32 .zero (fun _ => 0)).crash diskDevice create_fat32.blank 3)
            = some s ∧
        ¬ Recovered s := by
  have hsigned : ((create_fat32 .zero (fun _ => 0)).crash diskDevice create_fat32.blank 3).Signed :=
    (create_fat32.cluster_crash _ (by decide) (by decide)).1
  rw [← create_fat32.crash_initialize] at hsigned
  have hmount := run_initialize_filesystem_fat32 hsigned .zero (fun _ => 0)
  refine ⟨_, hmount, ?_⟩
  intro hrecovered
  have hn := (format_cut_iff hmount).1.mp hrecovered
  omega

end AiOS
