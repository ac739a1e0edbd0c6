import AiOS.Fat32.Atomic
import AiOS.Fat32.Instances
import AiOS.Fat32.Remount

/-!
This module contains the runs of a machine whose power may fail at any time: in the middle of an
operation, between any two of its block writes, to be followed by a boot that mounts the disk as it
was left. To its users the disk stays a store in which every operation is done whole or not at all.
-/

namespace AiOS

open Catalog

/--
The driver serves an operation and returns `code`, or the power fails after `n` of the block writes
of an operation and the next boot mounts the disk.
-/
inductive PowerEvent where
  | serve (op : Operation) (code : Int)
  | cut (op : Operation) (n : Nat)

def PowerEvent.operation : PowerEvent → Operation
  | .serve op _ => op
  | .cut op _ => op

/--
One disk and the drivers that mount it one after the other, from a new file system on.
-/
def powered : System (FAT32DriverState × Disk) PowerEvent where
  init := driver.init
  step s e s' :=
    s.2.Directory e.operation.request.parent_cluster_number.toNat ∧
      match e with
      | .serve op code => (op.exec s.1).run diskDevice s.2 = some ((code, s'.1), s'.2)
      | .cut op n => ∃ driver_state after_literal,
        (initialize_filesystem_fat32 driver_state after_literal).run diskDevice
          ((op.exec s.1).crash diskDevice s.2 n) = some s'

namespace Operation

/--
`write` does not run short of clusters after its checks, and `delete` gives up or stops at an entry
from slot 2 on with the extension of the request, a file or an empty directory.
-/
def Orderly (s : FAT32DriverState × Disk) : Operation → Prop
  | .write _ _ request => ¬ write.short request s.2
  | .read _ => True
  | .read_directory _ => True
  | .delete dirTable request =>
    ∀ i, delete.searched request s.2 = some i → ¬ delete.refused dirTable request s.2 i →
      let entry := s.2.table request.parent i
      2 ≤ i.val ∧ entry.ext = request.ext ∧
        (entry.attribute = ATTR_SUBDIRECTORY → ¬ delete.has_live_entry (s.2.table entry.cluster))

theorem Orderly.safe {s : FAT32DriverState × Disk} {op : Operation} (h : op.Orderly s)
    : op.Safe s := by
  cases op with
  | write memory newDirectoryTable request => exact h
  | read request => trivial
  | read_directory request => trivial
  | delete dirTable request =>
    intro i hsearched hrefused
    exact Or.inl (h i hsearched hrefused).1

def Mutates : Operation → Prop
  | .write _ _ _ => True
  | .read _ => False
  | .read_directory _ => False
  | .delete _ _ => True

inductive Leaves (d : Disk) : Operation → Disk → Prop where
  | untouched {op : Operation} : Leaves d op d
  | written {memory : UInt32 → UInt8} {newDirectoryTable : FAT32DirectoryTable}
      {request : FAT32DriverRequest} {i : Fin 64} {cs : List (Fin 512)} {d' : Disk} :
    write.parent_ok (d.table request.parent) → write.search request d = some ⟨some i, cs⟩ →
      write.Staged memory newDirectoryTable request d i cs d' →
        Leaves d (.write memory newDirectoryTable request) d'
  | deleted {dirTable : FAT32DirectoryTable} {request : FAT32DriverRequest} {i : Fin 64}
      {cs : List (Fin 512)} {d' : Disk} :
    delete.searched request d = some i → ¬ delete.refused dirTable request d i →
      delete.freed d.fat (d.table request.parent i) = some cs → delete.Staged request d i cs d' →
        Leaves d (.delete dirTable request) d'

section

variable {driver_state : FAT32DriverState} {d : Disk} {op : Operation}

theorem always_read_directory {request : FAT32DriverRequest} {I : Disk → Prop}
    (hone : request.parent ≠ 1) (hd : I d)
    : ((Operation.read_directory request).exec driver_state).Always diskDevice fatMonitor I d.fat
        d := by
  have hback : (d.table request.parent).toCluster = d.cluster request.parent :=
    FAT32DirectoryTable.toCluster_ofCluster _
  unfold exec AiOS.read_directory
  dsimp only
  rw [Prog.bind_assoc]
  apply fatMonitor.always_read_clusters hone hd
  change Prog.Always _ _ _ ((if ¬ (d.table request.parent 0).user_attribute = UATTR_NOT_EMPTY then _
    else _) >>= _) _ _
  split
  . exact hd
  . split
    . unfold read_directory.found
      dsimp only
      split
      . exact hd
      . rw [Prog.bind_assoc]
        change Prog.Always _ _ _ (write_clusters (d.table request.parent).toCluster _ >>= _) _ _
        rw [hback]
        apply fatMonitor.always_write_clusters hone
        . intro b
          unfold FAT32DriverRequest.parent
          rw [Disk.writeFirst_cluster]
          exact hd
        . rw [Prog.bind_assoc]
          change Prog.Always _ _ _ _ _ (d.writeCluster request.parent (d.cluster request.parent))
          rw [Disk.writeCluster_cluster]
          apply fatMonitor.always_read_loaded rfl hd
          exact hd
    . exact hd

theorem leaves_crash (hwf : d.WellFormed) (hcache : driver_state.fat_table = d.fat)
    (hP : d.Directory op.request.parent_cluster_number.toNat) (hok : op.Orderly (driver_state, d))
    (n : Nat)
    : op.Leaves d ((op.exec driver_state).crash diskDevice d n) := by
  have heq := hwf.parent_eq hP
  have hbounds := hwf.directory_bounds hP
  cases op with
  | read request =>
    have hsilent : ((Operation.read request).exec driver_state).Silent diskDevice := by
      apply Prog.Silent.bind
      . apply read.silent
      . intro r
        trivial
    rw [hsilent.crash_eq]
    exact .untouched
  | read_directory request =>
    have hone : request.parent ≠ 1 := hwf.directory_ne_one (heq ▸ hP)
    apply (always_read_directory hone .untouched).crash n
  | write memory newDirectoryTable request =>
    have heq : request.parent = request.parent_cluster_number.toNat := heq
    have hbounds : 2 ≤ request.parent_cluster_number.toNat := hbounds.1
    apply Prog.Always.crash
    apply write.always_write (by omega) driver_state d.fat .untouched
    intro i cs hparent hsearch
    have hch := write.chosen_of_search hsearch
    have hP : d.Directory request.parent_cluster_number.toNat := hP
    rw [← heq] at hP
    refine ⟨write.nodup_of_not_short _ _ hparent hok hsearch, hch.parent_not_mem hwf hP, ?_⟩
    intro d' hst
    exact .written hparent hsearch hst
  | delete dirTable request =>
    have heq : request.parent = request.parent_cluster_number.toNat := heq
    have hbounds : 2 ≤ request.parent_cluster_number.toNat := hbounds.1
    apply Prog.Always.crash
    apply delete.always_delete (by omega) hcache dirTable .untouched
    intro i hsearched hrefused
    have hP : d.Directory request.parent_cluster_number.toNat := hP
    have hs := delete.live_of_searched hwf hP (hok i hsearched hrefused).1 hsearched
    rcases delete.exists_freed hwf hs with ⟨cs, hcs, _⟩
    refine ⟨cs, hcs, ?_⟩
    intro d' hst
    exact .deleted hsearched hrefused hcs hst

theorem leaves_run {st : FAT32DriverState} {code : Int} {d' : Disk} (hwf : d.WellFormed)
    (hcache : driver_state.fat_table = d.fat)
    (hP : d.Directory op.request.parent_cluster_number.toNat) (hok : op.Orderly (driver_state, d))
    (hrun : (op.exec driver_state).run diskDevice d = some ((code, st), d'))
    : op.Leaves d d' := by
  have heq := hwf.parent_eq hP
  cases op with
  | read request =>
    rw [(read_cases hrun).1]
    exact .untouched
  | read_directory request =>
    rw [(read_directory_cases hrun).1]
    exact .untouched
  | write memory newDirectoryTable request =>
    have hrun : (AiOS.write driver_state memory newDirectoryTable request).run diskDevice d
        = some ((code, st), d') := hrun
    cases write.run_cases _ _ _ _ _ hrun with
    | inl hfail =>
      rw [hfail.2.2]
      exact .untouched
    | inr hcommit =>
      rcases hcommit with ⟨i, cs, _, hparent, hsearch, _, rfl⟩
      have heq : request.parent = request.parent_cluster_number.toNat := heq
      have hP : d.Directory request.parent_cluster_number.toNat := hP
      rw [← heq] at hP
      have hnodup := write.nodup_of_not_short _ _ hparent hok hsearch
      apply Leaves.written hparent hsearch
      exact write.staged_of_chosen _ _ (write.chosen_of_search hsearch) hwf hP hnodup
  | delete dirTable request =>
    have hrun : (AiOS.delete driver_state dirTable request).run diskDevice d
        = some ((code, st), d') := hrun
    cases delete.run_cases _ _ _ _ hrun with
    | inl hfail =>
      rw [hfail.2.2]
      exact .untouched
    | inr hdelete =>
      rcases hdelete with ⟨i, cs, _, hsearched, hrefused, hcs, _, rfl⟩
      have heq : request.parent = request.parent_cluster_number.toNat := heq
      have hP : d.Directory request.parent_cluster_number.toNat := hP
      rw [← heq] at hP
      rw [hcache] at hcs ⊢
      exact .deleted hsearched hrefused hcs (delete.staged_deleted (hwf.directory_ne_one hP))

end

section

variable {driver_state : FAT32DriverState} {d d' : Disk} {dirTable : FAT32DirectoryTable}
  {request : FAT32DriverRequest} {i : Fin 64} {cs : List (Fin 512)} (hwf : d.WellFormed)
  (hP : d.Directory request.parent_cluster_number.toNat)
  (hok : (Operation.delete dirTable request).Orderly (driver_state, d))
  (hsearched : delete.searched request d = some i)
  (hrefused : ¬ delete.refused dirTable request d i)

include hwf hP hok hsearched hrefused

theorem Orderly.live : d.Live (request.parent, i) := by
  apply delete.live_of_searched hwf hP (hok i hsearched hrefused).1 hsearched

theorem Orderly.makes_of_dead (hdistinct : ∀ p, d.Directory p → (d.table p).Distinct)
    (hcs : delete.freed d.fat (d.table request.parent i) = some cs)
    (hst : delete.Staged request d i cs d')
    (hdead : d'.table request.parent = delete.dead_table request d i ∧
      ∀ j, j ∉ cs → d'.fat j = d.fat j)
    : (Operation.delete dirTable request).Makes d.store d'.store := by
  have hs := Orderly.live hwf hP hok hsearched hrefused
  have hname := (delete.hit_of_searched _ _ hsearched).2.2.1
  rw [memcmp_eq_zero_iff] at hname
  rcases hok i hsearched hrefused with ⟨_, hext, hempty⟩
  apply hst.makes_of_dead hwf hs (delete.owns_of_freed hwf hs hcs) hdead hdistinct hname.symm hext
  . intro hdir j hj hlive
    apply hempty hdir
    exact ⟨j, (write.mem_slots j).mpr hj, hlive⟩
  . exact hwf.parent_eq hP

end

namespace Leaves

variable {driver_state : FAT32DriverState} {d d' : Disk} {op : Operation}
  (h : op.Leaves d d') (hwf : d.WellFormed)
  (hP : d.Directory op.request.parent_cluster_number.toNat) (hok : op.Orderly (driver_state, d))

include h hwf hP hok

theorem wellFormed : d'.WellFormed := by
  cases h with
  | untouched => exact hwf
  | @written _ _ request _ _ _ hparent hsearch hst =>
    have hP : d.Directory request.parent_cluster_number.toNat := hP
    rw [← hwf.parent_eq hP] at hP
    have hnodup := write.nodup_of_not_short _ _ hparent hok hsearch
    exact hst.wellFormed (write.chosen_of_search hsearch) hwf hP hnodup
  | deleted hsearched hrefused hcs hst =>
    have hs := Orderly.live hwf hP hok hsearched hrefused
    exact hst.wellFormed hwf hs (delete.owns_of_freed hwf hs hcs)

theorem tableStep {p : Nat} (hp : d'.Directory p) : TableStep d d' op p := by
  cases h with
  | untouched => exact .kept hp rfl
  | @written _ _ request i cs _ hparent hsearch hst =>
    have hroot : d.Directory request.parent_cluster_number.toNat := hP
    have hP : d.Directory request.parent := by rw [hwf.parent_eq hroot]; exact hroot
    have hch := write.chosen_of_search hsearch
    have hnodup := write.nodup_of_not_short _ _ hparent hok hsearch
    have henough := write.enough_of_not_short _ _ hparent hok hsearch
    rcases hst.entry with hold | hnew
    . have hp := ((hst.agrees hch hwf hold).directory_iff p).mp hp
      by_cases hne : p = request.parent
      . rw [hne] at hp ⊢
        exact .kept hp hold
      . exact .kept hp (hst.table_of_ne hch hwf hp hne)
    . have hins := hst.insert hch hwf hP hnodup hnew
      rcases (hins.directory_iff p).mp hp with hold | hdir
      . by_cases hne : p = request.parent
        . rw [hne]
          apply TableStep.entered hP (write.search_of_enough _ _ henough hsearch).1
          . apply (write.search_isSome_iff request d).mp ⟨_, hsearch⟩
          . exact hnew.table
        . exact .kept hold (hst.table_of_ne hch hwf hold hne)
      . have htable := hnew.table_first hch.ne_nil hdir.1
        have hfirst : p = (d'.table request.parent i).cluster := hdir.2
        rw [← hfirst] at htable
        exact .founded hroot htable
  | @deleted _ request i cs _ hsearched hrefused hcs hst =>
    have hs := Orderly.live hwf hP hok hsearched hrefused
    have hkept : d.Directory p → p ≠ request.parent → d'.table p = d.table p := by
      intro hp hne
      have hbounds := hwf.directory_bounds hp
      apply Disk.table_congr
      apply hst.cluster p (by omega) hne
    rcases hst.entry with hold | hdead
    . have hp := ((hst.agrees hwf hold).directory_iff p).mp hp
      by_cases hne : p = request.parent
      . rw [hne] at hp ⊢
        exact .kept hp hold.1
      . exact .kept hp (hkept hp hne)
    . have hrem := hst.remove hwf hs (delete.owns_of_freed hwf hs hcs) hdead
      have hp := hrem.directory_of hp
      by_cases hne : p = request.parent
      . rw [hne]
        exact .killed hs.dir hsearched hdead.1
      . exact .kept hp (hkept hp hne)

theorem signed (hsigned : d.Signed) : d'.Signed := by
  have heq := hwf.parent_eq hP
  have hbounds := hwf.directory_bounds hP
  rw [← heq] at hbounds
  cases h with
  | untouched => exact hsigned
  | @written _ _ request i cs _ hparent hsearch hst =>
    have hbounds : 2 ≤ request.parent := hbounds.1
    have hch := write.chosen_of_search hsearch
    apply (Disk.signed_congr _).mpr hsigned
    apply hst.cluster 0 (by omega) (by omega)
    intro hmem
    have hdata : 3 ≤ 0 := (hch.isData 0 hmem).1
    omega
  | @deleted _ request i cs _ hsearched hrefused hcs hst =>
    have hbounds : 2 ≤ request.parent := hbounds.1
    apply (Disk.signed_congr _).mpr hsigned
    apply hst.cluster 0 (by omega) (by omega)

theorem store (hdistinct : ∀ p, d.Directory p → (d.table p).Distinct)
    : d'.store = d.store ∨ op.Makes d.store d'.store := by
  cases h with
  | untouched => exact Or.inl rfl
  | @written _ _ request i cs _ hparent hsearch hst =>
    have hch := write.chosen_of_search hsearch
    have hnodup := write.nodup_of_not_short _ _ hparent hok hsearch
    rcases hst.entry with hold | hnew
    . exact Or.inl (hst.store_eq hch hwf hP hnodup hold)
    . right
      apply hst.makes_of_committed hch hwf hP hnodup hnew
      apply (write.search_isSome_iff request d).mp ⟨_, hsearch⟩
  | @deleted _ request i cs _ hsearched hrefused hcs hst =>
    rcases hst.entry with hold | hdead
    . have hs := Orderly.live hwf hP hok hsearched hrefused
      exact Or.inl (hst.store_eq hwf hs hold)
    . right
      exact Orderly.makes_of_dead hwf hP hok hsearched hrefused hdistinct hcs hst hdead

end Leaves

end Operation

/--
The entries 0 and 1 are those of a directory, the entry 0 is live, and no two files that can be read
share their name and extension.
-/
structure FAT32DirectoryTable.Regular (table : FAT32DirectoryTable) : Prop where
  headed : table.Headed
  distinct : table.Distinct
  parent_ok : write.parent_ok table

namespace FAT32DirectoryTable.Regular

variable {table : FAT32DirectoryTable} {i : Fin 64}

theorem of_init (dir_table : FAT32DirectoryTable) (name : Fin 8 → UInt8)
    {parent_dir_cluster : UInt32} (hparent : parent_dir_cluster.toNat < 512)
    : (init_directory_table dir_table name parent_dir_cluster).Regular where
  headed := .of_init dir_table name hparent
  distinct := .of_init dir_table name parent_dir_cluster
  parent_ok := ⟨rfl, rfl⟩

theorem parent_ok_update (h : table.Regular) (hi : 1 ≤ i.val) (entry : FAT32DirectoryEntry)
    : write.parent_ok (Function.update table i entry) := by
  have hne : (0 : Fin 64) ≠ i := by
    intro heq
    rw [← heq] at hi
    contradiction
  unfold write.parent_ok
  rw [Function.update_of_ne hne]
  exact h.parent_ok

theorem of_tableStep {d d' : Disk} {op : Operation} {p : Nat} (h : TableStep d d' op p)
    (hwf : d.WellFormed) (hold : ∀ q, d.Directory q → (d.table q).Regular)
    : (d'.table p).Regular := by
  cases h with
  | kept hp htable =>
    rw [htable]
    exact hold p hp
  | @entered _ _ request i cluster hP hhead hnames htable =>
    have hi := ((write.mem_free_slots _ _).mp (List.mem_of_head? hhead)).1
    rw [htable]
    exact ⟨(hold _ hP).headed.update hi, (hold _ hP).distinct.update_new_entry hhead hnames,
      (hold _ hP).parent_ok_update (by omega) _⟩
  | founded hP htable =>
    have hbounds := hwf.directory_bounds hP
    rw [htable]
    apply of_init
    omega
  | @killed _ request i hP hsearched htable =>
    have hi := (delete.hit_of_searched _ _ hsearched).1
    rw [htable]
    exact ⟨(hold _ hP).headed.update_dead_entry, (hold _ hP).distinct.update_dead_entry,
      (hold _ hP).parent_ok_update hi _⟩

end FAT32DirectoryTable.Regular

/--
What every orderly run keeps, over all power failures.
-/
structure Recovered (s : FAT32DriverState × Disk) : Prop where
  wellFormed : s.2.WellFormed
  cache : s.1.fat_table = s.2.fat
  signed : s.2.Signed
  regular : ∀ p, s.2.Directory p → (s.2.table p).Regular

namespace Recovered

variable {s s' : FAT32DriverState × Disk} {e : PowerEvent} {op : Operation}

theorem of_create (h : driver.init s) : Recovered s := by
  have hsteady := Steady.of_create h
  rcases h with ⟨driver_state, after_literal, d, hrun⟩
  rw [create_fat32.run_create_fat32, Option.some.injEq] at hrun
  refine ⟨hsteady.wellFormed, hsteady.cache, ?_, ?_⟩
  . rw [← hrun]
    apply create_fat32.created_cluster_zero
  . rw [← hrun]
    intro p hp
    rw [create_fat32.created_directory_iff] at hp
    rw [hp, create_fat32.created_table]
    apply FAT32DirectoryTable.Regular.of_init
    decide

theorem distinct (h : Recovered s) {p : Nat} (hp : s.2.Directory p) : (s.2.table p).Distinct := by
  exact (h.regular p hp).distinct

theorem of_leaves (h : Recovered s) (hP : s.2.Directory op.request.parent_cluster_number.toNat)
    (hok : op.Orderly s) (hleaves : op.Leaves s.2 s'.2) (hcache : s'.1.fat_table = s'.2.fat)
    : Recovered s' where
  wellFormed := hleaves.wellFormed h.wellFormed hP hok
  cache := hcache
  signed := hleaves.signed h.wellFormed hP hok h.signed
  regular _ hp := .of_tableStep (hleaves.tableStep h.wellFormed hP hok hp) h.wellFormed h.regular

theorem leaves_crash (h : Recovered s)
    (hP : s.2.Directory op.request.parent_cluster_number.toNat) (hok : op.Orderly s) (n : Nat)
    : op.Leaves s.2 ((op.exec s.1).crash diskDevice s.2 n) ∧
        ((op.exec s.1).crash diskDevice s.2 n).Signed := by
  have hleaves := Operation.leaves_crash h.wellFormed h.cache hP hok n
  exact ⟨hleaves, hleaves.signed h.wellFormed hP hok h.signed⟩

theorem leaves_of_step (h : Recovered s) (hok : e.operation.Orderly s) (hstep : powered.step s e s')
    : e.operation.Leaves s.2 s'.2 ∧ s'.1.fat_table = s'.2.fat := by
  rcases s with ⟨driver_state, d⟩
  rcases s' with ⟨driver_state', d'⟩
  rcases hstep with ⟨hP, hevent⟩
  have hheaded : ∀ p, d.Directory p → (d.table p).Headed := fun p hp => (h.regular p hp).headed
  cases e with
  | serve op code =>
    have hsteady : Steady (driver_state, d) := ⟨h.wellFormed, h.cache, hheaded⟩
    have hstep' : driver.step (driver_state, d) op (driver_state', d') := ⟨hP, code, hevent⟩
    exact ⟨Operation.leaves_run h.wellFormed h.cache hP hok hevent,
      (hsteady.of_step hok.safe hstep').cache⟩
  | cut op n =>
    rcases hevent with ⟨st, after_literal, hmount⟩
    rcases h.leaves_crash hP hok n with ⟨hleaves, hsigned⟩
    dsimp only [PowerEvent.operation] at hleaves hsigned
    rw [run_initialize_filesystem_fat32 hsigned, Option.some.injEq, Prod.mk.injEq] at hmount
    rcases hmount with ⟨rfl, rfl⟩
    exact ⟨hleaves, rfl⟩

theorem of_step (h : Recovered s) (hok : e.operation.Orderly s) (hstep : powered.step s e s')
    : Recovered s' := by
  have hleaves := h.leaves_of_step hok hstep
  exact h.of_leaves hstep.1 hok hleaves.1 hleaves.2

theorem exists_cut (h : Recovered s) (hP : s.2.Directory op.request.parent_cluster_number.toNat)
    (hok : op.Orderly s) (n : Nat)
    : ∃ s', powered.step s (.cut op n) s' := by
  have hsigned := (h.leaves_crash hP hok n).2
  exact ⟨_, hP, .zero, fun _ => 0, run_initialize_filesystem_fat32 hsigned _ _⟩

end Recovered

/--
How an event may change the store: an operation that returns 0 does what it is asked for, one that
returns another code does nothing, and one that is cut off does all of it or nothing.
-/
def PowerEvent.Permits (S S' : Set Item) : PowerEvent → Prop
  | .serve op code =>
    (op.Mutates ∧ code = 0 ∧ op.Makes S S') ∨ (¬ (op.Mutates ∧ code = 0) ∧ S' = S)
  | .cut op _ => S' = S ∨ op.Makes S S'

namespace PowerEvent.Permits

variable {S S' : Set Item} {e : PowerEvent}

theorem leads (h : e.Permits S S')
    : (Store.system 2).Leads (fun _ change => e.operation.Asks change) S S' := by
  have hmakes : e.operation.Makes S S' →
      (Store.system 2).Leads (fun _ change => e.operation.Asks change) S S' := by
    intro ⟨change, hasks, hstep⟩
    exact .single ⟨change, hasks, hstep⟩
  cases e with
  | serve op code =>
    rcases h with ⟨_, _, hmade⟩ | ⟨_, heq⟩
    . exact hmakes hmade
    . rw [heq]
  | cut op n =>
    rcases h with heq | hmade
    . rw [heq]
    . exact hmakes hmade

end PowerEvent.Permits

namespace Recovered

variable {s s' : FAT32DriverState × Disk} {e : PowerEvent}

theorem permits (h : Recovered s) (hok : e.operation.Orderly s) (hstep : powered.step s e s')
    : e.Permits s.2.store s'.2.store := by
  have hleaves := (h.leaves_of_step hok hstep).1
  rcases s with ⟨driver_state, d⟩
  rcases s' with ⟨driver_state', d'⟩
  have hwf : d.WellFormed := h.wellFormed
  have hcache : driver_state.fat_table = d.fat := h.cache
  rcases hstep with ⟨hP, hevent⟩
  cases e with
  | cut op n => exact hleaves.store h.wellFormed hP hok (fun _ => h.distinct)
  | serve op code =>
    cases op with
    | read request =>
      have hd := (Operation.read_cases hevent).1
      exact Or.inr ⟨fun hmutates => hmutates.1, congrArg Disk.store hd⟩
    | read_directory request =>
      have hd := (Operation.read_directory_cases hevent).1
      exact Or.inr ⟨fun hmutates => hmutates.1, congrArg Disk.store hd⟩
    | write memory newDirectoryTable request =>
      have hrun : (write driver_state memory newDirectoryTable request).run diskDevice d
          = some ((code, driver_state'), d') := hevent
      rcases write.run_cases _ _ _ _ _ hrun with ⟨hcode, _, hd⟩ | hcommit
      . exact Or.inr ⟨fun hmutates => hcode hmutates.2, congrArg Disk.store hd⟩
      . rcases hcommit with ⟨i, cs, hcode, hparent, hsearch, _, rfl⟩
        have hroot : d.Directory request.parent_cluster_number.toNat := hP
        have hP : d.Directory request.parent := by rw [hwf.parent_eq hroot]; exact hroot
        have hch := write.chosen_of_search hsearch
        have hnodup := write.nodup_of_not_short _ _ hparent hok hsearch
        have hst := write.staged_of_chosen memory newDirectoryTable hch hwf hP hnodup
        have hnew := write.committed_of_chosen memory newDirectoryTable hch hwf hP hnodup
        refine Or.inl ⟨trivial, hcode, hst.makes_of_committed hch hwf hroot hnodup hnew ?_⟩
        apply (write.search_isSome_iff request d).mp ⟨_, hsearch⟩
    | delete dirTable request =>
      have hrun : (delete driver_state dirTable request).run diskDevice d
          = some ((code, driver_state'), d') := hevent
      rcases delete.run_cases _ _ _ _ hrun with ⟨hcode, _, hd⟩ | hdelete
      . exact Or.inr ⟨fun hmutates => hcode hmutates.2, congrArg Disk.store hd⟩
      . rcases hdelete with ⟨i, cs, hcode, hsearched, hrefused, hcs, _, rfl⟩
        have hs := Operation.Orderly.live hwf hP hok hsearched hrefused
        have hone : request.parent ≠ 1 := hwf.directory_ne_one hs.dir
        rw [hcache] at hcs ⊢
        refine Or.inl ⟨trivial, hcode, ?_⟩
        apply Operation.Orderly.makes_of_dead hwf hP hok hsearched hrefused (fun _ => h.distinct) hcs
          (delete.staged_deleted hone)
        exact ⟨delete.table_deleted hone, fun j hj => delete.fat_deleted_of_not_mem hj⟩

end Recovered

namespace Recovered

variable {s : FAT32DriverState × Disk}

theorem store_of_create (h : driver.init s) : s.2.store = ∅ := by
  rcases h with ⟨driver_state, after_literal, d, hrun⟩
  rw [create_fat32.run_create_fat32, Option.some.injEq] at hrun
  rw [← hrun, Set.eq_empty_iff_forall_notMem]
  intro item hmem
  rcases hmem with ⟨t, ht⟩
  exact create_fat32.not_created_live _ _ _ t ht.live

section

variable (h : Recovered s) {memory : UInt32 → UInt8} {request : FAT32DriverRequest}
  (hmem : ⟨request.parent_cluster_number.toNat, (request.name, request.ext),
    .file (request.bytes memory)⟩ ∈ s.2.store)
  (hfiles : ∀ j, read.carries request (s.2.table request.parent_cluster_number.toNat j) →
    (s.2.table request.parent_cluster_number.toNat j).attribute ≠ ATTR_SUBDIRECTORY)

include h hmem hfiles

theorem exists_copies {r : FAT32DriverRequest} (hrname : r.name = request.name)
    (hrext : r.ext = request.ext) (hrparent : r.parent_cluster_number = request.parent_cluster_number)
    (hbuffer : request.buffer_size ≤ r.buffer_size)
    : ∃ i l, read.Copies r s.2 i ∧ s.2.Links (s.2.table r.parent i).cluster l ∧
        write.Holds memory request (l.map s.2.cluster) := by
  rcases s with ⟨driver_state, d⟩
  rcases hmem with ⟨⟨p, i⟩, hshows⟩
  have hparent : request.parent_cluster_number.toNat = p := hshows.parent
  have hwf : d.WellFormed := h.wellFormed
  have hlive : d.Live (p, i) := hshows.live
  have hregular : (d.table p).Regular := h.regular p hlive.dir
  rcases hshows.object with ⟨hfile, hlength, l, hl, hbyte⟩
  have hname := hshows.name
  rw [Prod.mk.injEq] at hname
  rw [hparent] at hfiles
  rw [write.length_bytes] at hlength hbyte
  have hr : r.parent = p := by
    rw [← hparent, ← hrparent]
    apply hwf.parent_eq
    rw [hrparent, hparent]
    exact hlive.dir
  have hcopies : read.Copies r d i := by
    refine { parent_live := ?_, searched := ?_, file := ?_, fits := ?_ }
    . rw [hr]
      exact hregular.parent_ok.1
    . rw [read.searched_eq_some_iff, hr]
      simp only [write.carries_congr hrname hrext]
      refine ⟨⟨hname.1.symm, hname.2.symm⟩, ?_⟩
      intro j hji hcarries
      have hjfile := hfiles j hcarries
      by_cases hj : 2 ≤ j.val
      . apply hregular.distinct j i hj hji hlive.live hjfile hfile
        . exact hcarries.1.trans hname.1
        . exact hcarries.2.trans hname.2
      . exact hjfile (hregular.headed j (by omega)).1
    . rw [hr]
      exact hfile
    . rw [hr, UInt32.le_iff_toNat_le]
      have hle := UInt32.le_iff_toNat_le.mp hbuffer
      have hsize : (d.table p i).filesize.toNat = request.buffer_size.toNat := hlength.symm
      omega
  refine ⟨i, l, hcopies, ?_, ?_⟩
  . rw [hr]
    exact ⟨hl, fun c hc => (hwf.data hlive hl c hc).2⟩
  . intro k hk
    rw [hbyte k hk, write.getElem?_bytes hk]

/--
A file of the store can be read, unless `read` finds a directory of that name and extension first.
-/
theorem readsBack : write.ReadsBack memory request s := by
  intro r hrname hrext hrparent hbuffer
  rcases h.exists_copies hmem hfiles hrname hrext hrparent hbuffer with
    ⟨i, l, hcopies, hlinks, hholds⟩
  exact ⟨_, _, s.2, read.run_of_copies hcopies hlinks, hholds⟩

end

end Recovered

/--
In every orderly run from a new file system on, whatever number of power failures it has, the store of
the disk is empty at first and always a tree, and each event changes it only as it may.
-/
theorem powered_refines {s₀ s : FAT32DriverState × Disk}
    {steps : List ((FAT32DriverState × Disk) × PowerEvent × (FAT32DriverState × Disk))}
    (hinit : powered.init s₀)
    (hrun : powered.Run (fun s e => e.operation.Orderly s) s₀ steps s)
    : s₀.2.store = ∅ ∧ Store.Tree 2 s.2.store ∧
        ∀ step ∈ steps, step.2.1.Permits step.1.2.store step.2.2.2.store := by
  have hempty := Recovered.store_of_create hinit
  refine ⟨hempty, ?_⟩
  have hall : Recovered s ∧ Store.Tree 2 s.2.store ∧
      ∀ step ∈ steps, step.2.1.Permits step.1.2.store step.2.2.2.store := by
    apply hrun.invariant (J := fun steps s => Recovered s ∧ Store.Tree 2 s.2.store ∧
      ∀ step ∈ steps, step.2.1.Permits step.1.2.store step.2.2.2.store)
    . refine ⟨.of_create hinit, ?_, by simp⟩
      rw [hempty]
      exact Store.tree_empty
    . intro steps s e s' ⟨hs, htree, hsteps⟩ hok hstep
      have hpermits := hs.permits hok hstep
      refine ⟨hs.of_step hok hstep, Store.tree_of_leads htree hpermits.leads, ?_⟩
      intro step hmem
      rw [List.mem_append, List.mem_singleton] at hmem
      rcases hmem with hmem | heq
      . exact hsteps step hmem
      . rw [heq]
        exact hpermits
  exact hall.2

theorem orderly_small (s : FAT32DriverState × Disk) (memory : UInt32 → UInt8)
    : (Operation.write memory (fun _ => .zero) write.small).Orderly s := by
  apply not_short_small

theorem recovered_fresh : Recovered (fresh_driver, fresh) := by
  apply Recovered.of_create
  exact ⟨.zero, fun _ => 0, fun _ _ => 0, create_fat32.run_create_fat32 _ _ _⟩

theorem powered_step_small
    : powered.step (fresh_driver, fresh)
        (.serve (.write (fun _ => 0x41) (fun _ => .zero) write.small) 0)
        (⟨write.link [3] fresh.fat, write.new_table write.small fresh 2 [3]⟩, write.populated) :=
  ⟨Catalog.Directory.root, write.run_small fresh_driver⟩

theorem powered_reachable_fresh
    : powered.Reachable (fun s e => e.operation.Orderly s) (fresh_driver, fresh) :=
  .init ⟨.zero, fun _ => 0, fun _ _ => 0, create_fat32.run_create_fat32 _ _ _⟩

-- the power fails when two blocks of a first file are written
theorem powered_refines_fresh
    : ∃ s, powered.step (fresh_driver, fresh)
          (.cut (.write (fun _ => 0x41) (fun _ => .zero) write.small) 2) s ∧
        Store.Tree 2 s.2.store := by
  have hinit : powered.init (fresh_driver, fresh) :=
    ⟨.zero, fun _ => 0, fun _ _ => 0, create_fat32.run_create_fat32 _ _ _⟩
  have hok := orderly_small (fresh_driver, fresh) (fun _ => 0x41)
  rcases recovered_fresh.exists_cut Catalog.Directory.root hok 2 with ⟨s, hstep⟩
  have hevent : (PowerEvent.cut (.write (fun _ => 0x41) (fun _ => .zero)
      write.small) 2).operation.Orderly (fresh_driver, fresh) := hok
  have hrun : powered.Run (fun s e => e.operation.Orderly s) (fresh_driver, fresh) _ s :=
    .tail .refl hevent hstep
  exact ⟨s, hstep, (powered_refines hinit hrun).2.1⟩

theorem Recovered.of_reachable {s : FAT32DriverState × Disk}
    (h : powered.Reachable (fun s e => e.operation.Orderly s) s)
    : Recovered s := by
  apply h.invariant
  . intro s hs
    exact .of_create hs
  . intro s e s' hs hok hstep
    exact hs.of_step hok hstep

def PowerEvent.Deletes (request : FAT32DriverRequest) (e : PowerEvent) : Prop :=
  match e.operation with
  | .delete _ r => r.parent_cluster_number = request.parent_cluster_number ∧
    r.name = request.name ∧ r.ext = request.ext
  | _ => False

theorem PowerEvent.Permits.mem {S S' : Set Item} {e : PowerEvent} {request : FAT32DriverRequest}
    {object : Store.Object Nat (List UInt8)} (h : e.Permits S S') (hdeletes : ¬ e.Deletes request)
    (hmem : ⟨request.parent_cluster_number.toNat, (request.name, request.ext), object⟩ ∈ S)
    : ⟨request.parent_cluster_number.toNat, (request.name, request.ext), object⟩ ∈ S' := by
  apply Store.mem_of_leads hmem
  apply h.leads.mono
  intro _ change hasks heq
  rw [heq] at hasks
  rcases hasks.of_remove with ⟨dirTable, r, hop, hparent, hname⟩
  rw [Prod.mk.injEq] at hname
  apply hdeletes
  unfold Deletes
  rw [hop]
  exact ⟨UInt32.toNat_inj.mp hparent.symm, hname.1.symm, hname.2.symm⟩

/--
A file that `write` has acknowledged stays in the store, and can be read, whatever else is asked of
the driver and however often the power fails, until somebody asks for its deletion.
-/
theorem durable {s₁ s₂ s : FAT32DriverState × Disk} {memory : UInt32 → UInt8}
    {newDirectoryTable : FAT32DirectoryTable} {request : FAT32DriverRequest}
    (h : powered.Reachable (fun s e => e.operation.Orderly s) s₁)
    (hok : (Operation.write memory newDirectoryTable request).Orderly s₁)
    (hsize : request.buffer_size ≠ 0)
    (hwrite : powered.step s₁ (.serve (.write memory newDirectoryTable request) 0) s₂)
    (hleads : powered.Leads (fun s e => e.operation.Orderly s ∧ ¬ e.Deletes request) s₂ s)
    : ⟨request.parent_cluster_number.toNat, (request.name, request.ext),
          .file (request.bytes memory)⟩ ∈ s.2.store ∧
        ((∀ j, read.carries request (s.2.table request.parent_cluster_number.toNat j) →
            (s.2.table request.parent_cluster_number.toNat j).attribute ≠ ATTR_SUBDIRECTORY) →
          write.ReadsBack memory request s) := by
  have hs₁ : Recovered s₁ := .of_reachable h
  have hok : (PowerEvent.serve (.write memory newDirectoryTable request) 0).operation.Orderly s₁ :=
    hok
  have hs₂ : Recovered s₂ := hs₁.of_step hok hwrite
  have hmem : ⟨request.parent_cluster_number.toNat, (request.name, request.ext),
      .file (request.bytes memory)⟩ ∈ s₂.2.store := by
    rcases hs₁.permits hok hwrite with ⟨_, _, change, hasks, _, hstore⟩ | ⟨hnot, _⟩
    . rw [hasks.of_file hsize] at hstore
      rw [hstore]
      exact Set.mem_insert _ _
    . exact absurd ⟨trivial, rfl⟩ hnot
  have hall : Recovered s ∧ ⟨request.parent_cluster_number.toNat, (request.name, request.ext),
      .file (request.bytes memory)⟩ ∈ s.2.store := by
    apply hleads.invariant (I := fun s => Recovered s ∧ ⟨request.parent_cluster_number.toNat,
      (request.name, request.ext), .file (request.bytes memory)⟩ ∈ s.2.store)
    . exact ⟨hs₂, hmem⟩
    . intro s e s' ⟨hs, hmem⟩ ⟨hok, hdeletes⟩ hstep
      exact ⟨hs.of_step hok hstep, (hs.permits hok hstep).mem hdeletes hmem⟩
  exact ⟨hall.2, hall.1.readsBack hall.2⟩

-- the power fails in the middle of another `write` of the same name
theorem durable_small
    : ∃ s₂ s, powered.step (fresh_driver, fresh)
          (.serve (.write (fun _ => 0x41) (fun _ => .zero) write.small) 0) s₂ ∧
        powered.step s₂ (.cut (.write (fun _ => 0x42) (fun _ => .zero) write.small) 3) s ∧
        ⟨2, (write.small.name, write.small.ext), .file (write.small.bytes fun _ => 0x41)⟩
          ∈ s.2.store := by
  have hok := orderly_small (fresh_driver, fresh) (fun _ => 0x41)
  have hrecovered := recovered_fresh.of_step
    (e := .serve (.write (fun _ => 0x41) (fun _ => .zero) write.small) 0) hok powered_step_small
  have hagain := orderly_small (⟨write.link [3] fresh.fat, write.new_table write.small fresh 2 [3]⟩,
    write.populated) (fun _ => 0x42)
  rcases hrecovered.exists_cut Catalog.Directory.root hagain 3 with ⟨s, hstep⟩
  refine ⟨_, s, powered_step_small, hstep, ?_⟩
  have hleads := Relation.ReflTransGen.single (r := powered.Move fun s e =>
    e.operation.Orderly s ∧ ¬ e.Deletes write.small) ⟨_, ⟨hagain, id⟩, hstep⟩
  exact (durable powered_reachable_fresh hok (by decide) powered_step_small hleads).1

end AiOS
