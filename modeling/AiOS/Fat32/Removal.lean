import AiOS.Fat32.Lookup
import AiOS.Fat32.Names
import AiOS.Fat32.Remount
import AiOS.Fat32.RoundTrip
import AiOS.Fat32.Steady

/-!
This module contains what `delete` removes. Whether a directory is empty it asks of a cluster that
its uninitialised `dirTable` names, and it stops at entries that were not asked for.
-/

namespace AiOS

open Catalog

namespace FAT32FileAllocationTable

/--
Every entry is empty, a link, or one of the two marks.
-/
def Tidy (fat : FAT32FileAllocationTable) : Prop :=
  ∀ c, (fat c).toNat < 512 ∨ fat c = FAT32_FAT_END_OF_FILE ∨ fat c = CLUSTER_0_VALUE

namespace Tidy

variable {fat : FAT32FileAllocationTable} {cs : List (Fin 512)}

theorem update {x : UInt32} (h : fat.Tidy) (c : Fin 512)
    (hx : x.toNat < 512 ∨ x = FAT32_FAT_END_OF_FILE ∨ x = CLUSTER_0_VALUE)
    : Tidy (Function.update fat c x) := by
  intro j
  by_cases hj : j = c
  . rw [hj, Function.update_self]
    exact hx
  . rw [Function.update_of_ne hj]
    apply h j

theorem link (h : fat.Tidy) : Tidy (write.link cs fat) := by
  induction cs generalizing fat with
  | nil => exact h
  | cons c cs ih =>
    unfold write.link
    apply ih
    apply h.update
    cases cs with
    | nil => exact Or.inr (Or.inl rfl)
    | cons c' cs =>
      left
      dsimp only
      rw [UInt32.toNat_ofNat']
      omega

theorem clear (h : fat.Tidy) : Tidy (delete.clear cs fat) := by
  intro j
  rw [delete.clear_apply]
  split
  . exact Or.inl (by decide)
  . apply h j

theorem created : Tidy create_fat32.fat_table := by
  intro c
  unfold create_fat32.fat_table
  split
  . exact Or.inr (Or.inr rfl)
  . split
    . exact Or.inr (Or.inl rfl)
    . split
      . exact Or.inr (Or.inl rfl)
      . exact Or.inl (by decide)

end Tidy
end FAT32FileAllocationTable

theorem Disk.attribute_table_fat (d : Disk) (i : Fin 64)
    : (d.table 1 i).attribute = LittleEndian.byte (d.fat ⟨8 * i + 2, by omega⟩).toNat 3 := by
  have hoffset : 4 * (8 * i.val + 2) + 3 = 32 * i.val + 11 := by omega
  unfold Disk.fat FAT32FileAllocationTable.ofCluster
  rw [LittleEndian.byte_toUInt32_three]
  dsimp only
  simp only [hoffset]
  rfl

-- what looks like an entry in the file allocation table is never that of a directory
theorem FAT32FileAllocationTable.Tidy.attribute_ne {d : Disk} (h : d.fat.Tidy) (i : Fin 64)
    : (d.table 1 i).attribute ≠ ATTR_SUBDIRECTORY := by
  rw [Disk.attribute_table_fat]
  rcases h ⟨8 * i + 2, by omega⟩ with hlink | hend | hzero
  . intro heq
    have hbyte := congrArg UInt8.toNat heq
    rw [LittleEndian.toNat_byte] at hbyte
    have hdir : ATTR_SUBDIRECTORY.toNat = 16 := rfl
    omega
  . rw [hend]
    decide
  . rw [hzero]
    decide

namespace Mounted

theorem tidy_of_step {s s' : FAT32DriverState × Disk} {op : Operation} (h : Mounted True s)
    (htidy : s.2.fat.Tidy) (hstep : driver.step s op s')
    : s'.2.fat.Tidy := by
  have hcache := (h.of_step (fun hnot => absurd trivial hnot) hstep).cache
  rcases s with ⟨driver_state, d⟩
  rcases s' with ⟨driver_state', d'⟩
  rcases hstep with ⟨_, code, hrun⟩
  have hold : driver_state.fat_table = d.fat := h.cache
  dsimp only at hcache hrun htidy ⊢
  cases op with
  | write memory newDirectoryTable request =>
    cases write.run_cases driver_state _ _ _ _ hrun with
    | inl hfail =>
      rw [hfail.2.2]
      exact htidy
    | inr hcommit =>
      rcases hcommit with ⟨i, cs, _, _, _, hst, _⟩
      rw [← hcache, hst]
      exact htidy.link
  | read request =>
    rw [(Operation.read_cases hrun).1]
    exact htidy
  | read_directory request =>
    rw [(Operation.read_directory_cases hrun).1]
    exact htidy
  | delete dirTable request =>
    cases delete.run_cases _ _ _ _ hrun with
    | inl hfail =>
      rw [hfail.2.2]
      exact htidy
    | inr hdelete =>
      rcases hdelete with ⟨i, cs, _, _, _, _, hst, _⟩
      rw [← hcache, hst, hold]
      exact htidy.clear

theorem of_reachable {s : FAT32DriverState × Disk} (h : driver.Reachable (fun _ _ => True) s)
    : Mounted True s ∧ s.2.fat.Tidy := by
  apply h.invariant
  . intro s hs
    refine ⟨of_create hs, ?_⟩
    rcases hs with ⟨driver_state, after_literal, d, hrun⟩
    rw [create_fat32.run_create_fat32, Option.some.injEq] at hrun
    rw [← hrun, create_fat32.created_fat]
    exact FAT32FileAllocationTable.Tidy.created
  . intro s op s' hs _ hstep
    exact ⟨hs.1.of_step (fun hnot => absurd trivial hnot) hstep, hs.1.tidy_of_step hs.2 hstep⟩

end Mounted

namespace delete

variable (driver_state : FAT32DriverState) (dirTable : FAT32DirectoryTable)
  (request : FAT32DriverRequest) (d : Disk) (k : Fin 64)

/--
`delete` refuses a directory with live entries, and removes the one in slot `k` with its cluster
otherwise.
-/
def TakesEmpty : Prop :=
  let entry := d.table request.parent k
  (has_live_entry (d.table entry.cluster) →
    ∃ st, (delete driver_state dirTable request).run diskDevice d = some ((2, st), d)) ∧
  (¬ has_live_entry (d.table entry.cluster) →
    ∃ st d', (delete driver_state dirTable request).run diskDevice d = some ((0, st), d') ∧
      (d'.table request.parent k).user_attribute ≠ UATTR_NOT_EMPTY ∧
      entry.cluster < 512 ∧ d'.fat.next entry.cluster = 0)

/--
The cluster that `delete` takes from the uninitialised `dirTable` is not that of the root, and has
live entries like the directory in slot `k`, at which the loop has stopped if there are none.
-/
def ChecksOwn : Prop :=
  let entry := d.table request.parent k
  ∃ i, searched request d = some i ∧
    (d.table request.parent i).attribute = ATTR_SUBDIRECTORY ∧
    checked_cluster dirTable i ≠ ROOT_CLUSTER_NUMBER ∧
    (has_live_entry (d.table (clusterIndex (checked_cluster dirTable i))) ↔
      has_live_entry (d.table entry.cluster)) ∧
    (¬ has_live_entry (d.table entry.cluster) → i = k ∧ entry.cluster < 512)

variable {driver_state dirTable request d k} {i : Fin 64}

theorem run_of_checked_root (hsearched : searched request d = some i)
    (hdir : (d.table request.parent i).attribute = ATTR_SUBDIRECTORY)
    (hroot : checked_cluster dirTable i = ROOT_CLUSTER_NUMBER)
    : (delete driver_state dirTable request).run diskDevice d
        =
      some ((-1, ⟨driver_state.fat_table, d.table request.parent⟩), d) := by
  rw [run_eq_act, hsearched, act_directory _ _ _ _ _ hdir, if_pos hroot]
  rfl

theorem run_of_checked_live (hsearched : searched request d = some i)
    (hdir : (d.table request.parent i).attribute = ATTR_SUBDIRECTORY)
    (hroot : checked_cluster dirTable i ≠ ROOT_CLUSTER_NUMBER)
    (hlive : has_live_entry (d.table (clusterIndex (checked_cluster dirTable i))))
    : (delete driver_state dirTable request).run diskDevice d
        =
      some ((2, ⟨driver_state.fat_table, d.table request.parent⟩), d) := by
  rw [run_eq_act, hsearched, act_directory _ _ _ _ _ hdir, if_neg hroot, run_read_clusters]
  rw [checked_of_live _ _ _ _ hlive]
  rfl

section

variable (hcache : driver_state.fat_table = d.fat) (hone : request.parent ≠ 1)
  (hk : request.NamesDirectory d k)

include hcache hone hk

theorem takesEmpty_of_checksOwn (h : ChecksOwn dirTable request d k)
    : TakesEmpty driver_state dirTable request d k := by
  rcases h with ⟨i, hsearched, hdir, hroot, hagree, hown⟩
  constructor
  . intro hlive
    exact ⟨_, run_of_checked_live hsearched hdir hroot (hagree.mpr hlive)⟩
  . intro hempty
    rcases hown hempty with ⟨rfl, hlt⟩
    have hrefused : ¬ refused dirTable request d i := by
      intro hrefused
      cases hrefused.2 with
      | inl h => exact hroot h
      | inr h => exact hempty (hagree.mp h)
    have hlow := FAT32DirectoryEntry.cluster_low_of_lt (d.table request.parent i) (by omega)
    have hfreed : freed driver_state.fat_table (d.table request.parent i)
        = some [⟨(d.table request.parent i).cluster, hlt⟩] := by
      unfold freed
      rw [if_pos hdir, dif_pos (by omega)]
      simp only [hlow]
    have hrun := run_of_freed _ _ _ _ hsearched hrefused hfreed
    rw [hcache] at hrun
    refine ⟨_, _, hrun, deleted_not_live hone, hlt, ?_⟩
    have hnext := FAT32FileAllocationTable.next_fin
      (clear [⟨(d.table request.parent i).cluster, hlt⟩] d.fat)
      ⟨(d.table request.parent i).cluster, hlt⟩
    rw [clear_apply, if_pos List.mem_cons_self] at hnext
    rw [fat_deleted]
    exact hnext

theorem own_of_not_refused (h : TakesEmpty driver_state dirTable request d k)
    (hsearched : searched request d = some i) (hrefused : ¬ refused dirTable request d i)
    : ¬ has_live_entry (d.table (d.table request.parent k).cluster) ∧ i = k ∧
        (d.table request.parent k).cluster < 512 := by
  cases hfreed : freed driver_state.fat_table (d.table request.parent i) with
  | none =>
    have hnone := run_of_not_freed _ _ _ _ hsearched hrefused hfreed
    exfalso
    by_cases hown : has_live_entry (d.table (d.table request.parent k).cluster)
    . rcases h.1 hown with ⟨st, hrun⟩
      rw [hnone] at hrun
      contradiction
    . rcases h.2 hown with ⟨st, d', hrun, _⟩
      rw [hnone] at hrun
      contradiction
  | some cs =>
    have hzero := run_of_freed _ _ _ _ hsearched hrefused hfreed
    rw [hcache] at hzero
    have hown : ¬ has_live_entry (d.table (d.table request.parent k).cluster) := by
      intro hown
      rcases h.1 hown with ⟨st, hrun⟩
      rw [hzero] at hrun
      simp at hrun
    rcases h.2 hown with ⟨st, d', hrun, hdead, hlt, _⟩
    rw [hzero] at hrun
    simp only [Option.some.injEq, Prod.mk.injEq] at hrun
    rw [← hrun.2] at hdead
    refine ⟨hown, ?_, hlt⟩
    by_contra hik
    rw [table_deleted_of_ne hone (Ne.symm hik)] at hdead
    exact hdead hk.1.2.1

theorem checksOwn_of_takesEmpty (h : TakesEmpty driver_state dirTable request d k)
    : ChecksOwn dirTable request d k := by
  -- what the run returns, whatever the table of slot `k` says
  have hcode : ∃ code st d', (code = 2 ∨ code = 0) ∧
      (delete driver_state dirTable request).run diskDevice d = some ((code, st), d') := by
    by_cases hown : has_live_entry (d.table (d.table request.parent k).cluster)
    . rcases h.1 hown with ⟨st, hrun⟩
      exact ⟨2, st, d, Or.inl rfl, hrun⟩
    . rcases h.2 hown with ⟨st, d', hrun, _⟩
      exact ⟨0, st, d', Or.inr rfl, hrun⟩
  rcases hcode with ⟨code, st, d', hcode, hrun⟩
  cases hsearched : searched request d with
  | none =>
    rw [run_of_searched_none _ _ _ _ hsearched] at hrun
    simp only [Option.some.injEq, Prod.mk.injEq] at hrun
    omega
  | some i =>
    by_cases hdir : (d.table request.parent i).attribute = ATTR_SUBDIRECTORY
    . by_cases hroot : checked_cluster dirTable i = ROOT_CLUSTER_NUMBER
      . rw [run_of_checked_root hsearched hdir hroot] at hrun
        simp only [Option.some.injEq, Prod.mk.injEq] at hrun
        omega
      . refine ⟨i, hsearched, hdir, hroot, ?_⟩
        by_cases hlive : has_live_entry (d.table (clusterIndex (checked_cluster dirTable i)))
        . have hown : has_live_entry (d.table (d.table request.parent k).cluster) := by
            by_contra hown
            rcases h.2 hown with ⟨st, d', hrun, _⟩
            rw [run_of_checked_live hsearched hdir hroot hlive] at hrun
            simp at hrun
          exact ⟨⟨fun _ => hown, fun _ => hlive⟩, fun hnot => absurd hown hnot⟩
        . have hrefused : ¬ refused dirTable request d i := by
            intro hrefused
            cases hrefused.2 with
            | inl h => exact hroot h
            | inr h => exact hlive h
          have hown := own_of_not_refused hcache hone hk h hsearched hrefused
          exact ⟨⟨fun h => absurd h hlive, fun h => absurd h hown.1⟩, fun _ => hown.2⟩
    . have hrefused : ¬ refused dirTable request d i := fun hrefused => hdir hrefused.1
      have hown := own_of_not_refused hcache hone hk h hsearched hrefused
      rw [hown.2.1] at hdir
      exact absurd hk.2 hdir

end

end delete

/--
In every run, `delete` decides rightly about a directory exactly when the cluster left over in its
`dirTable` happens to lead to the right answer.
-/
theorem delete_takes_empty_iff {driver_state : FAT32DriverState} {d : Disk}
    (h : driver.Reachable (fun _ _ => True) (driver_state, d)) {request : FAT32DriverRequest}
    {k : Fin 64} (hk : request.NamesDirectory d k) (dirTable : FAT32DirectoryTable)
    : delete.TakesEmpty driver_state dirTable request d k
        ↔
      delete.ChecksOwn dirTable request d k := by
  rcases Mounted.of_reachable h with ⟨hmounted, htidy⟩
  have hcache : driver_state.fat_table = d.fat := hmounted.cache
  have hone : request.parent ≠ 1 := by
    intro heq
    have hdir := hk.2
    rw [heq] at hdir
    exact FAT32FileAllocationTable.Tidy.attribute_ne htidy k hdir
  constructor
  . apply delete.checksOwn_of_takesEmpty hcache hone hk
  . apply delete.takesEmpty_of_checksOwn hcache hone hk

namespace folder

-- the local variable of a `delete` on whose place in the stack a root directory's entry 1 has been
def rooted : FAT32DirectoryTable :=
  fun _ => { FAT32DirectoryEntry.zero with cluster_low := 2 }

theorem reachable_once
    : driver.Reachable (fun _ _ => True)
        (⟨write.link [3] fresh.fat, write.new_table request fresh 2 [3]⟩, once) := by
  exact reachable_fresh.step trivial step_once

theorem names_once : request.NamesDirectory once 2 := by
  have hentry : (once.table request.parent 2).user_attribute = UATTR_NOT_EMPTY ∧
      (once.table request.parent 2).name = request.name ∧
      (once.table request.parent 2).attribute = ATTR_SUBDIRECTORY := by
    decide
  exact ⟨⟨Nat.le_refl 2, hentry.1, hentry.2.1⟩, hentry.2.2⟩

end folder

theorem delete_takes_empty_once
    : delete.TakesEmpty ⟨write.link [3] fresh.fat, write.new_table folder.request fresh 2 [3]⟩
          folder.rooted folder.request folder.once 2
        ↔
      delete.ChecksOwn folder.rooted folder.request folder.once 2 := by
  exact delete_takes_empty_iff folder.reachable_once folder.names_once folder.rooted

-- the directory is empty, and yet `delete` returns -1
theorem not_delete_takes_empty
    : ∃ driver_state, driver.Reachable (fun _ _ => True) (driver_state, folder.once) ∧
        folder.once.Directory folder.request.parent_cluster_number.toNat ∧
        folder.request.NamesDirectory folder.once 2 ∧
        ¬ delete.TakesEmpty driver_state folder.rooted folder.request folder.once 2 := by
  refine ⟨_, folder.reachable_once, Directory.root, folder.names_once, ?_⟩
  intro h
  have hcache := (Mounted.of_reachable folder.reachable_once).1.cache
  rcases delete.checksOwn_of_takesEmpty hcache (by decide) folder.names_once h with
    ⟨i, _, _, hroot, _⟩
  apply hroot
  unfold delete.checked_cluster folder.rooted
  decide

namespace delete

/--
The disk `d'` is `d` without the entry in slot `i` of the parent, the chain of which is `l`.
-/
structure Removed (request : FAT32DriverRequest) (d d' : Disk) (i : Fin 64) (l : List Nat)
    : Prop where
  slot : 2 ≤ i.val
  live : (d.table request.parent i).user_attribute = UATTR_NOT_EMPTY
  dead : (d'.table request.parent i).user_attribute ≠ UATTR_NOT_EMPTY
  name : (d.table request.parent i).name = request.name
  ext : (d.table request.parent i).ext = request.ext
  others : ∀ j, j ≠ i → d'.table request.parent j = d.table request.parent j
  chain : d.Owns (request.parent, i) l
  freed : ∀ c ∈ l, d'.fat.next c = 0
  kept : ∀ c, c ∉ l → d'.fat.next c = d.fat.next c
  above : ∀ q, q = 2 ∨ Above fat32 d.volume q request.parent → d'.fat.next q = d.fat.next q
  tree : ∀ s, d.Live s → s ≠ (request.parent, i) → d'.entry s = d.entry s

/--
If `delete` returns 0, it has removed an entry that the request names, and nothing else.
-/
def RemovesAsked (driver_state : FAT32DriverState) (dirTable : FAT32DirectoryTable)
    (request : FAT32DriverRequest) (d : Disk) : Prop :=
  ∀ st d', (delete driver_state dirTable request).run diskDevice d = some ((0, st), d') →
    ∃ i l, Removed request d d' i l

/--
Unless it gives up, the loop of `delete` stops at an entry from slot 2 on with the extension of the
request.
-/
def StopsAsked (dirTable : FAT32DirectoryTable) (request : FAT32DriverRequest) (d : Disk) : Prop :=
  ∀ i, searched request d = some i → ¬ refused dirTable request d i →
    2 ≤ i.val ∧ (d.table request.parent i).ext = request.ext

variable {driver_state : FAT32DriverState} {dirTable : FAT32DirectoryTable}
  {request : FAT32DriverRequest} {d : Disk} {i : Fin 64} {cs : List (Fin 512)}

theorem removed_deleted (hwf : d.WellFormed) (hs : d.Live (request.parent, i))
    (hname : (d.table request.parent i).name = request.name)
    (hext : (d.table request.parent i).ext = request.ext)
    (hcs : freed d.fat (d.table request.parent i) = some cs)
    : Removed request d (deleted request d i d.fat cs) i (numbers cs) := by
  have hone : request.parent ≠ 1 := hwf.directory_ne_one hs.dir
  have hown : d.Owns (request.parent, i) (numbers cs) := owns_of_freed hwf hs hcs
  have hkept : ∀ c, c ∉ numbers cs → (deleted request d i d.fat cs).fat.next c = d.fat.next c :=
    fun c hc => FAT32FileAllocationTable.next_congr (fun j hj => fat_deleted_of_not_mem hj) hc
  refine {
    slot := hs.slot
    live := hs.live
    dead := deleted_not_live hone
    name := hname
    ext := hext
    others := fun j hj => table_deleted_of_ne hone hj
    chain := hown
    freed := ?_
    kept := hkept
    above := ?_
    tree := ?_ }
  . intro c hc
    rcases exists_of_mem_numbers hc with ⟨j, hj, rfl⟩
    rw [FAT32FileAllocationTable.next_fin, fat_deleted, clear_apply, if_pos hj]
    rfl
  . intro q hq
    apply hkept
    apply hwf.not_mem_of_above hs hown
    cases hq with
    | inl hroot =>
      rw [hroot]
      exact hs.dir.above
    | inr habove => exact habove
  . intro t ht hne
    have hq := hwf.directory_bounds ht.dir
    apply (staged_deleted hone).table_eq (by omega) hne

section

variable (h : Steady (driver_state, d)) (hP : d.Directory request.parent)

include h hP

theorem exists_freed_of_steady (hsearched : searched request d = some i)
    : ∃ cs, freed d.fat (d.table request.parent i) = some cs := by
  have hhit := hit_of_searched _ _ hsearched
  by_cases hi : 2 ≤ i.val
  . have hs : d.Live (request.parent, i) := ⟨hP, hi, hhit.2.1⟩
    rcases exists_freed h.wellFormed hs with ⟨cs, hcs, _⟩
    exact ⟨cs, hcs⟩
  . have hheaded := h.headed _ hP i (by omega)
    refine ⟨[⟨(d.table request.parent i).cluster_low.toNat, hheaded.2 hhit.1⟩], ?_⟩
    unfold freed
    rw [if_pos hheaded.1, dif_pos (hheaded.2 hhit.1)]

theorem removesAsked_of_stopsAsked (hstops : StopsAsked dirTable request d)
    : RemovesAsked driver_state dirTable request d := by
  intro st d' hrun
  have hcache : driver_state.fat_table = d.fat := h.cache
  cases run_cases _ _ _ _ hrun with
  | inl hfail => exact absurd rfl hfail.1
  | inr hdelete =>
    rcases hdelete with ⟨i, cs, _, hsearched, hrefused, hcs, _, rfl⟩
    have hhit := (hit_of_searched _ _ hsearched).2
    have hasked := hstops i hsearched hrefused
    have hname := hhit.2.1
    rw [memcmp_eq_zero_iff] at hname
    rw [hcache] at hcs ⊢
    exact ⟨i, _, removed_deleted h.wellFormed ⟨hP, hasked.1, hhit.1⟩ hname.symm hasked.2 hcs⟩

theorem stopsAsked_of_removesAsked (hremoves : RemovesAsked driver_state dirTable request d)
    : StopsAsked dirTable request d := by
  intro i hsearched hrefused
  have hcache : driver_state.fat_table = d.fat := h.cache
  have hbounds := h.wellFormed.directory_bounds hP
  rcases exists_freed_of_steady h hP hsearched with ⟨cs, hcs⟩
  rw [← hcache] at hcs
  have hrun := run_of_freed _ _ _ _ hsearched hrefused hcs
  rcases hremoves _ _ hrun with ⟨j, l, hremoved⟩
  have hji : j = i := by
    by_contra hne
    apply hremoved.dead
    rw [hcache, table_deleted_of_ne (by omega) hne]
    exact hremoved.live
  rw [hji] at hremoved
  exact ⟨hremoved.slot, hremoved.ext⟩

end

end delete

/--
In every safe run, `delete` removes exactly the entry asked for if and only if its loop does not
stop too early: at the entry 1, or at a directory with another extension.
-/
theorem delete_removes_iff {driver_state : FAT32DriverState} {d : Disk}
    (h : driver.Reachable (fun s op => op.Safe s) (driver_state, d)) {request : FAT32DriverRequest}
    (hP : d.Directory request.parent_cluster_number.toNat) (dirTable : FAT32DirectoryTable)
    : delete.RemovesAsked driver_state dirTable request d
        ↔
      delete.StopsAsked dirTable request d := by
  have hsteady := Steady.of_reachable h
  rw [← hsteady.wellFormed.parent_eq hP] at hP
  constructor
  . apply delete.stopsAsked_of_removesAsked hsteady hP
  . apply delete.removesAsked_of_stopsAsked hsteady hP

theorem delete_removes_populated
    : delete.RemovesAsked ⟨write.link [3] fresh.fat, write.new_table write.small fresh 2 [3]⟩
          (fun _ => .zero) write.small write.populated
        ↔
      delete.StopsAsked (fun _ => .zero) write.small write.populated := by
  have hroot : write.populated.Directory write.small.parent_cluster_number.toNat := Directory.root
  exact delete_removes_iff (reachable_populated (not_short_small fresh)) hroot (fun _ => .zero)

-- `delete` of the name `..` in a new file system removes the root's entry for its own parent
theorem not_delete_removes
    : driver.Reachable (fun s op => op.Safe s) (fresh_driver, fresh) ∧
        fresh.Directory write.dotdot.parent_cluster_number.toNat ∧
        ¬ delete.RemovesAsked fresh_driver (fun _ => .zero) write.dotdot fresh := by
  have hreach : driver.Reachable (fun s op => op.Safe s) (fresh_driver, fresh) := reachable_fresh
  refine ⟨hreach, Directory.root, ?_⟩
  intro h
  have hsearched : delete.searched write.dotdot fresh = some 1 := by
    decide
  have hrefused : ¬ delete.refused (fun _ => .zero) write.dotdot fresh 1 := by
    unfold delete.refused
    decide +kernel
  have hstops := delete.stopsAsked_of_removesAsked (Steady.of_reachable hreach) Directory.root h 1
    hsearched hrefused
  exact absurd hstops.1 (by decide)

end AiOS
