import AiOS.Fat32.Crash
import AiOS.Fat32.Lookup
import AiOS.Fat32.RoundTrip
import AiOS.Fat32.Steady

/-!
This module contains which entries `read` serves. It does not ask whether an entry is live, and after
a safe run that is all it gets wrong.
-/

namespace AiOS

open Catalog

namespace FAT32DirectoryTable

/--
No file before a live one, dead or not, has its name and extension.
-/
def Distinct (table : FAT32DirectoryTable) : Prop :=
  ∀ i j : Fin 64, 2 ≤ i.val → i < j → (table j).user_attribute = UATTR_NOT_EMPTY →
    (table i).attribute ≠ ATTR_SUBDIRECTORY → (table j).attribute ≠ ATTR_SUBDIRECTORY →
      (table i).name = (table j).name → (table i).ext ≠ (table j).ext

namespace Distinct

variable {table : FAT32DirectoryTable} {request : FAT32DriverRequest} {i : Fin 64}
  {cluster : UInt32}

theorem of_init (dir_table : FAT32DirectoryTable) (name : Fin 8 → UInt8)
    (parent_dir_cluster : UInt32)
    : (init_directory_table dir_table name parent_dir_cluster).Distinct := by
  intro i j hi hij hlive
  have hj : 2 ≤ j.val := by omega
  exact absurd hlive (init_directory_table_of_le _ _ _ hj)

theorem update_new_entry (h : table.Distinct)
    (hhead : (write.free_slots table write.slots).head? = some i)
    (hnames : ∀ j ∈ write.slots, ¬ write.named table request j)
    : Distinct (Function.update table i (write.new_entry (table i) request cluster)) := by
  have hother : ∀ k : Fin 64, 2 ≤ k.val → (table k).user_attribute = UATTR_NOT_EMPTY →
      (table k).name = request.name → (table k).ext ≠ request.ext := by
    intro k hk hlive hname hext
    apply hnames k ((write.mem_slots k).mpr hk)
    exact ⟨hlive, hname.symm, hext.symm⟩
  intro a b ha hab hlive hafile hbfile hname
  by_cases hai : a = i
  . -- the new entry comes before a live one
    have hbi : b ≠ i := by omega
    rw [hai, Function.update_self] at hafile hname ⊢
    rw [Function.update_of_ne hbi] at hlive hname ⊢
    rw [Ne, write.new_entry_isDir_iff] at hafile
    rw [write.new_entry_name] at hname
    rw [(write.new_entry_of_file _ _ _ hafile).1]
    apply Ne.symm
    apply hother b (by omega) hlive hname.symm
  . rw [Function.update_of_ne hai] at hafile hname ⊢
    by_cases hbi : b = i
    . -- whatever comes before the new entry is live
      rw [hbi] at hab
      rw [hbi, Function.update_self] at hbfile hname ⊢
      rw [Ne, write.new_entry_isDir_iff] at hbfile
      rw [write.new_entry_name] at hname
      rw [(write.new_entry_of_file _ _ _ hbfile).1]
      apply hother a ha (write.live_of_lt_head hhead ha hab) hname
    . rw [Function.update_of_ne hbi] at hlive hbfile hname ⊢
      apply h a b ha hab hlive hafile hbfile hname

theorem of_same_files {table' : FAT32DirectoryTable} (h : table.Distinct)
    (hlive : ∀ k, (table' k).user_attribute = UATTR_NOT_EMPTY →
      (table k).user_attribute = UATTR_NOT_EMPTY)
    (hfields : ∀ k, (table' k).attribute = (table k).attribute ∧ (table' k).name = (table k).name ∧
      (table' k).ext = (table k).ext)
    : table'.Distinct := by
  intro a b ha hab hb
  rw [(hfields a).1, (hfields b).1, (hfields a).2.1, (hfields b).2.1, (hfields a).2.2,
    (hfields b).2.2]
  apply h a b ha hab (hlive b hb)

theorem update_dead_entry (h : table.Distinct)
    : Distinct (Function.update table i (delete.dead_entry (table i))) := by
  apply h.of_same_files
  . intro k hk
    by_cases hki : k = i
    . rw [hki, Function.update_self] at hk
      exact absurd hk (delete.dead_entry_not_live _)
    . rw [Function.update_of_ne hki] at hk
      exact hk
  . intro k
    by_cases hki : k = i
    . rw [hki, Function.update_self]
      exact ⟨rfl, rfl, rfl⟩
    . rw [Function.update_of_ne hki]
      exact ⟨rfl, rfl, rfl⟩

end Distinct
end FAT32DirectoryTable

namespace Steady

theorem distinct_of_reachable {s : FAT32DriverState × Disk}
    (h : driver.Reachable (fun s op => op.Safe s) s) {p : Nat} (hp : s.2.Directory p)
    : (s.2.table p).Distinct := by
  have hall : Steady s ∧ ∀ p, s.2.Directory p → (s.2.table p).Distinct := by
    apply h.invariant
    . intro s hs
      refine ⟨of_create hs, ?_⟩
      rcases hs with ⟨driver_state, after_literal, d, hrun⟩
      rw [create_fat32.run_create_fat32, Option.some.injEq] at hrun
      rw [← hrun]
      intro p hp
      rw [create_fat32.created_directory_iff] at hp
      rw [hp, create_fat32.created_table]
      apply FAT32DirectoryTable.Distinct.of_init
    . intro s op s' hs hok hstep
      refine ⟨hs.1.of_step hok hstep, ?_⟩
      intro p hp
      cases hs.1.tableStep hok hstep hp with
      | kept hp htable =>
        rw [htable]
        apply hs.2 p hp
      | entered hP hhead hnames htable =>
        rw [htable]
        apply (hs.2 _ hP).update_new_entry hhead hnames
      | founded _ htable =>
        rw [htable]
        apply FAT32DirectoryTable.Distinct.of_init
      | killed hP _ htable =>
        rw [htable]
        apply (hs.2 _ hP).update_dead_entry
  exact hall.2 p hp

end Steady

namespace FAT32DriverRequest

def Locates (request : FAT32DriverRequest) (d : Disk) (i : Fin 64) : Prop :=
  request.NamesFile d i ∧ (d.table request.parent i).ext = request.ext

end FAT32DriverRequest

namespace read

variable (driver_state : FAT32DriverState) (request : FAT32DriverRequest) (d : Disk)

/--
The walk of `read` stays inside of `cluster_map` and ends, and 0 comes back only for a live file that
fits into the buffer.
-/
def Serves : Prop :=
  ∃ code st bufs, (read driver_state request).run diskDevice d = some ((code, st, bufs), d) ∧
    (code = 0 →
      ∃ i, request.Locates d i ∧ (d.table request.parent i).filesize ≤ request.buffer_size)

def CopiesLive : Prop :=
  ∀ i, Copies request d i → (d.table request.parent i).user_attribute = UATTR_NOT_EMPTY

variable {driver_state request d} {i : Fin 64}

theorem serves_of_not_copies (h : ∀ i, ¬ Copies request d i) : Serves driver_state request d := by
  rcases run_of_not_copies h with ⟨code, st, hcode, hrun⟩
  refine ⟨code, st, [], hrun, ?_⟩
  intro hzero
  exact absurd hzero hcode

section

variable (h : Steady (driver_state, d)) (hP : d.Directory request.parent)

include h hP

theorem two_le_of_copies (hcopies : Copies request d i) : 2 ≤ i.val := by
  by_contra hi
  exact hcopies.file (h.headed _ hP i (by omega)).1

theorem locates_of_copies (hcopies : Copies request d i)
    (hlive : (d.table request.parent i).user_attribute = UATTR_NOT_EMPTY)
    : request.Locates d i := by
  have hcarries := ((searched_eq_some_iff request d i).mp hcopies.searched).1
  exact ⟨⟨⟨two_le_of_copies h hP hcopies, hlive, hcarries.1⟩, hcopies.file⟩, hcarries.2⟩

theorem serves_of_live (hcopies : Copies request d i)
    (hlive : (d.table request.parent i).user_attribute = UATTR_NOT_EMPTY)
    : Serves driver_state request d := by
  have hslot : d.Live (request.parent, i) := ⟨hP, two_le_of_copies h hP hcopies, hlive⟩
  rcases h.wellFormed.chain _ hslot with ⟨l, hl, hdata, _⟩
  have hlinks : d.Links (d.table request.parent i).cluster l := ⟨hl, fun c hc => (hdata c hc).2⟩
  refine ⟨0, _, _, run_of_copies hcopies hlinks, ?_⟩
  intro _
  exact ⟨i, locates_of_copies h hP hcopies hlive, hcopies.fits⟩

theorem live_of_serves (hdistinct : (d.table request.parent).Distinct)
    (hserves : Serves driver_state request d) (hcopies : Copies request d i)
    : (d.table request.parent i).user_attribute = UATTR_NOT_EMPTY := by
  rcases hserves with ⟨code, st, bufs, hrun, hserved⟩
  rcases links_of_run hcopies hrun with ⟨l, hl, _⟩
  have hrun' : (read driver_state request).run diskDevice d = _ := run_of_copies hcopies hl
  rw [hrun] at hrun'
  simp only [Option.some.injEq, Prod.mk.injEq] at hrun'
  rcases hserved hrun'.1.1 with ⟨j, hj, _⟩
  have hsearched := (searched_eq_some_iff request d i).mp hcopies.searched
  rcases lt_trichotomy i j with hij | hij | hji
  . -- a dead file before the live one would have another name or extension
    exfalso
    apply hdistinct i j (two_le_of_copies h hP hcopies) hij hj.1.1.2.1 hcopies.file hj.1.2
    . rw [hsearched.1.1, hj.1.1.2.2]
    . rw [hsearched.1.2, hj.2]
  . rw [hij]
    exact hj.1.1.2.1
  . exact absurd ⟨hj.1.1.2.2, hj.2⟩ (hsearched.2 j hji)

end

end read

def Operation.Rewrites (request : FAT32DriverRequest) : Operation → Prop
  | .write _ _ r =>
    r.parent = request.parent ∧ r.name = request.name ∧ r.ext = request.ext ∧ r.buffer_size ≠ 0
  | .read _ => False
  | .read_directory _ => False
  | .delete _ _ => False

namespace FAT32DriverRequest

variable {request : FAT32DriverRequest} {d d' : Disk} {i j : Fin 64}

theorem Locates.congr (h : request.Locates d' j)
    (hentry : d'.table request.parent j = d.table request.parent j)
    : request.Locates d j := by
  unfold Locates NamesFile Names at h ⊢
  rw [hentry] at h
  exact h

theorem not_locates_of_tableStep {op : Operation} {p : Nat} (hp : p = request.parent)
    (h : TableStep d d' op p) (hno : ¬ op.Rewrites request)
    (hold : d.Directory request.parent → ¬ request.Locates d j)
    : ¬ request.Locates d' j := by
  intro hj
  cases h with
  | kept hdir htable =>
    rw [hp] at hdir htable
    exact hold hdir (hj.congr (congrFun htable j))
  | @entered _ _ r i cluster hdir _ _ htable =>
    by_cases hji : j = i
    . have hentry : d'.table request.parent j
          = write.new_entry (d.table r.parent i) r cluster := by
        rw [← hp, htable, hji, Function.update_self]
      have hsize : r.buffer_size ≠ 0 := by
        have hfile := hj.1.2
        rw [hentry, Ne, write.new_entry_isDir_iff] at hfile
        exact hfile
      have hname := hj.1.1.2.2
      have hext := hj.2
      rw [hentry, write.new_entry_name] at hname
      rw [hentry, (write.new_entry_of_file _ _ _ hsize).1] at hext
      exact hno ⟨hp, hname, hext, hsize⟩
    . rw [hp] at hdir htable
      apply hold hdir
      apply hj.congr
      rw [htable]
      apply Function.update_of_ne hji
  | founded _ htable =>
    have hlive := hj.1.1.2.1
    rw [← hp, htable] at hlive
    exact init_directory_table_of_le _ _ _ hj.1.1.1 hlive
  | @killed _ r i hdir _ htable =>
    have hji : j ≠ i := by
      intro heq
      have hlive := hj.1.1.2.1
      rw [← hp, htable, heq, delete.dead_table_self] at hlive
      exact delete.dead_entry_not_live _ hlive
    rw [hp] at hdir
    apply hold hdir
    apply hj.congr
    rw [← hp, htable]
    apply delete.dead_table_of_ne _ _ _ hji

theorem Locates.unique (h : (d.table request.parent).Distinct) (hi : request.Locates d i)
    (hj : request.Locates d j)
    : i = j := by
  have hname : (d.table request.parent i).name = (d.table request.parent j).name := by
    rw [hi.1.1.2.2, hj.1.1.2.2]
  have hext : (d.table request.parent i).ext = (d.table request.parent j).ext := by
    rw [hi.2, hj.2]
  rcases lt_trichotomy i j with hij | hij | hji
  . exact absurd hext (h i j hi.1.1.1 hij hj.1.1.2.1 hi.1.2 hj.1.2 hname)
  . exact hij
  . exact absurd hext.symm (h j i hj.1.1.1 hji hi.1.1.2.1 hj.1.2 hi.1.2 hname.symm)

end FAT32DriverRequest

namespace read

/--
After safe steps that do not write the file once more, a `read` of it does not return 0, as long
as it copies no dead entry.
-/
def StaysGone (request : FAT32DriverRequest) (s : FAT32DriverState × Disk) : Prop :=
  ∀ s', driver.Leads (fun s op => op.Safe s ∧ ¬ op.Rewrites request) s s' →
    s'.2.Directory request.parent →
      ∀ r : FAT32DriverRequest, r.name = request.name → r.ext = request.ext →
        r.parent_cluster_number = request.parent_cluster_number → CopiesLive r s'.2 →
          ∀ code st bufs d, (read s'.1 r).run diskDevice s'.2 = some ((code, st, bufs), d) →
            code ≠ 0

theorem staysGone_of_not_locates {request : FAT32DriverRequest} {s : FAT32DriverState × Disk}
    (hs : Steady s) (hgone : s.2.Directory request.parent → ∀ j, ¬ request.Locates s.2 j)
    : StaysGone request s := by
  intro s' hleads hP r hname hext hparent hlive code st bufs d hrun hzero
  have hall : Steady s' ∧ (s'.2.Directory request.parent → ∀ j, ¬ request.Locates s'.2 j) := by
    apply System.Leads.invariant hleads ⟨hs, hgone⟩
    intro s op s' h hok hstep
    refine ⟨h.1.of_step hok.1 hstep, ?_⟩
    intro hP j
    apply FAT32DriverRequest.not_locates_of_tableStep rfl (h.1.tableStep hok.1 hstep hP) hok.2
    intro hold
    apply h.2 hold j
  have hrparent : r.parent = request.parent := by
    unfold FAT32DriverRequest.parent
    rw [hparent]
  by_cases hcopies : ∃ i, Copies r s'.2 i
  . rcases hcopies with ⟨i, hcopies⟩
    rw [← hrparent] at hP
    have hlocates := locates_of_copies hall.1 hP hcopies (hlive i hcopies)
    rw [hrparent] at hP
    apply hall.2 hP i
    unfold FAT32DriverRequest.Locates FAT32DriverRequest.NamesFile FAT32DriverRequest.Names at *
    rw [hrparent, hname, hext] at hlocates
    exact hlocates
  . rw [not_exists] at hcopies
    have hfail : ∃ code st, code ≠ 0 ∧ (read s'.1 r).run diskDevice s'.2
        = some ((code, st, []), s'.2) := run_of_not_copies hcopies
    rcases hfail with ⟨code', st', hne, hrun'⟩
    rw [hrun] at hrun'
    simp only [Option.some.injEq, Prod.mk.injEq] at hrun'
    apply hne
    rw [← hrun'.1.1, hzero]

theorem not_locates_of_delete {driver_state st : FAT32DriverState} {dirTable : FAT32DirectoryTable}
    {request : FAT32DriverRequest} {d d' : Disk} (h : Steady (driver_state, d))
    (hP : d.Directory request.parent) (hdistinct : (d.table request.parent).Distinct)
    (hfile : ∀ i, delete.searched request d = some i →
      (d.table request.parent i).attribute ≠ ATTR_SUBDIRECTORY)
    (hrun : (delete driver_state dirTable request).run diskDevice d = some ((0, st), d'))
    (j : Fin 64)
    : ¬ request.Locates d' j := by
  intro hj
  cases delete.run_cases _ _ _ _ hrun with
  | inl hfail => exact absurd rfl hfail.1
  | inr hdelete =>
    rcases hdelete with ⟨i, cs, _, hsearched, _, _, _, rfl⟩
    have hcache : driver_state.fat_table = d.fat := h.cache
    have hbounds := h.wellFormed.directory_bounds hP
    have hhit := delete.hit_of_searched _ _ hsearched
    have hi : 2 ≤ i.val := by
      by_contra hlt
      exact hfile i hsearched (h.headed _ hP i (by omega)).1
    have hext := hhit.2.2.2.resolve_left (hfile i hsearched)
    have hname := hhit.2.2.1
    rw [memcmp_eq_zero_iff] at hext hname
    have hlocates : request.Locates d i :=
      ⟨⟨⟨hi, hhit.2.1, hname.symm⟩, hfile i hsearched⟩, hext⟩
    rw [hcache] at hj
    by_cases hji : j = i
    . have hlive := hj.1.1.2.1
      rw [hji] at hlive
      exact delete.deleted_not_live (by omega) hlive
    . have hentry : (delete.deleted request d i d.fat cs).table request.parent j
          = d.table request.parent j := delete.table_deleted_of_ne (by omega) hji
      exact hji (FAT32DriverRequest.Locates.unique hdistinct (hj.congr hentry) hlocates)

end read

/--
In every safe run, `read` serves only live files exactly as long as it does not stop at a dead
one, and then a deleted file stays gone until it is written again.
-/
theorem read_serves_iff {driver_state : FAT32DriverState} {request : FAT32DriverRequest} {d : Disk}
    (h : driver.Reachable (fun s op => op.Safe s) (driver_state, d))
    (hP : d.Directory request.parent_cluster_number.toNat)
    : (read.Serves driver_state request d ↔ read.CopiesLive request d)
        ∧
      ∀ dirTable st d', (Operation.delete dirTable request).Safe (driver_state, d) →
        (∀ i, delete.searched request d = some i →
          (d.table request.parent i).attribute ≠ ATTR_SUBDIRECTORY) →
          (delete driver_state dirTable request).run diskDevice d = some ((0, st), d') →
            read.StaysGone request (st, d') := by
  have hsteady := Steady.of_reachable h
  have heq := hsteady.wellFormed.parent_eq hP
  have hdistinct := Steady.distinct_of_reachable h hP
  rw [← heq] at hP
  dsimp only at hdistinct
  rw [← heq] at hdistinct
  refine ⟨⟨?_, ?_⟩, ?_⟩
  . intro hserves i hcopies
    apply read.live_of_serves hsteady hP hdistinct hserves hcopies
  . intro hlive
    by_cases hcopies : ∃ i, read.Copies request d i
    . rcases hcopies with ⟨i, hcopies⟩
      apply read.serves_of_live hsteady hP hcopies (hlive i hcopies)
    . rw [not_exists] at hcopies
      apply read.serves_of_not_copies hcopies
  . intro dirTable st d' hok hfile hrun
    have hnext : Steady (st, d') := by
      apply hsteady.of_step hok
      rw [heq] at hP
      exact ⟨hP, 0, hrun⟩
    apply read.staysGone_of_not_locates hnext
    intro _ j
    apply read.not_locates_of_delete hsteady hP hdistinct hfile hrun

theorem read_serves_populated
    : read.Serves ⟨write.link [3] fresh.fat, write.new_table write.small fresh 2 [3]⟩ write.small
          write.populated
        ↔
      read.CopiesLive write.small write.populated := by
  have hroot : write.populated.Directory write.small.parent_cluster_number.toNat := Directory.root
  exact (read_serves_iff (reachable_populated (not_short_small fresh)) hroot).1

theorem file_small {i : Fin 64} (hsearched : delete.searched write.small write.populated = some i)
    : 2 ≤ i.val ∧ (write.populated.table write.small.parent i).attribute ≠ ATTR_SUBDIRECTORY := by
  have hi : i = 2 := by
    rw [searched_small] at hsearched
    injection hsearched with hsearched
    exact hsearched.symm
  have hparent : write.small.parent = 2 := rfl
  rw [hi, hparent, write.populated_table, Function.update_self, Ne, write.new_entry_isDir_iff]
  exact ⟨by decide, by decide⟩

theorem copies_deleted (cs : List (Fin 512))
    : read.Copies write.small (delete.deleted write.small write.populated 2 write.populated.fat cs) 2
        ∧
      ((delete.deleted write.small write.populated 2 write.populated.fat cs).table
        write.small.parent 2).user_attribute ≠ UATTR_NOT_EMPTY := by
  have hparent : write.small.parent = 2 := rfl
  have htable : (delete.deleted write.small write.populated 2 write.populated.fat cs).table 2
      = Function.update (write.populated.table 2) 2
        (delete.dead_entry (write.populated.table 2 2)) := by
    have hone : write.small.parent ≠ 1 := by decide
    exact delete.table_deleted hone
  have hother : ∀ j : Fin 64, j.val < 2 →
      (delete.deleted write.small write.populated 2 write.populated.fat cs).table 2 j
        = create_fat32.dir_table_buf .zero (fun _ => 0) j := by
    intro j hj
    have hne : j ≠ 2 := by
      intro heq
      rw [heq] at hj
      contradiction
    rw [htable, Function.update_of_ne hne, write.populated_table, Function.update_of_ne hne]
  refine ⟨{ parent_live := ?_, searched := ?_, file := ?_, fits := ?_ }, ?_⟩
  . rw [hparent, hother 0 (by decide)]
    decide
  . rw [read.searched_eq_some_iff, hparent]
    refine ⟨?_, ?_⟩
    . rw [htable, Function.update_self, write.populated_table, Function.update_self]
      exact ⟨by decide, by decide⟩
    . intro j hj hcarries
      rw [hother j hj] at hcarries
      exact write.names_fresh j hj hcarries.1
  . rw [hparent, htable, Function.update_self, write.populated_table, Function.update_self]
    decide
  . rw [hparent, htable, Function.update_self, write.populated_table, Function.update_self]
    decide
  . rw [hparent, htable, Function.update_self]
    apply delete.dead_entry_not_live

/--
A file is written, deleted, and read: the walk starts at a cluster whose chain is gone.
-/
theorem not_read_serves
    : ∃ st d, driver.Reachable (fun s op => op.Safe s) (st, d) ∧
        d.Directory write.small.parent_cluster_number.toNat ∧
        ¬ read.Serves st write.small d := by
  have hpopulated : driver.Reachable (fun s op => op.Safe s)
      (⟨write.link [3] fresh.fat, write.new_table write.small fresh 2 [3]⟩, write.populated) :=
    reachable_populated (not_short_small fresh)
  have hcache : write.link [3] fresh.fat = write.populated.fat :=
    (Steady.of_reachable hpopulated).cache
  rw [hcache] at hpopulated
  have hroot : write.populated.Directory write.small.parent_cluster_number.toNat := Directory.root
  have hs : write.populated.Live (2, 2) := by
    have hlive : (write.populated.table 2 2).user_attribute = UATTR_NOT_EMPTY := by
      rw [write.populated_table, Function.update_self]
      decide
    exact ⟨Directory.root, (file_small searched_small).1, hlive⟩
  rcases delete.exists_freed write.populated_wellFormed hs with ⟨cs, hcs, _⟩
  have hrefused : ¬ delete.refused (fun _ => .zero) write.small write.populated 2 := by
    intro h
    exact (file_small searched_small).2 h.1
  have hrun := delete.run_of_freed
    ⟨write.populated.fat, write.new_table write.small fresh 2 [3]⟩ _ _ _ searched_small hrefused hcs
  have hsafe : (Operation.delete (fun _ => .zero) write.small).Safe
      (⟨write.populated.fat, write.new_table write.small fresh 2 [3]⟩, write.populated) :=
    fun i hsearched _ => Or.inl (file_small hsearched).1
  have hreach := reachable_delete hpopulated hsafe hroot hrun
  refine ⟨_, _, hreach, Directory.root, ?_⟩
  intro hserves
  have hcopies := copies_deleted cs
  apply hcopies.2
  apply read.live_of_serves (Steady.of_reachable hreach) Directory.root _ hserves hcopies.1
  apply Steady.distinct_of_reachable hreach Directory.root

end AiOS
