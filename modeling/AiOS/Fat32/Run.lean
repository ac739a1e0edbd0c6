import AiOS.Fat32.Frame
import AiOS.Fat32.Lemmas.Read
import AiOS.Fat32.Lemmas.Remove
import AiOS.Lib.System

/-!
This module contains the runs of one driver from a new file system on, and that the file system
stays well formed and exact in every run whose steps avoid three flaws of `write` and `delete`.
-/

namespace AiOS

open Catalog

/--
A request, with what the memory and the uninitialised local variables hold when it is served.
-/
inductive Operation where
  | write (memory : UInt32 → UInt8) (newDirectoryTable : FAT32DirectoryTable)
      (request : FAT32DriverRequest)
  | read (request : FAT32DriverRequest)
  | read_directory (request : FAT32DriverRequest)
  | delete (dirTable : FAT32DirectoryTable) (request : FAT32DriverRequest)

namespace Operation

def request : Operation → FAT32DriverRequest
  | .write _ _ request => request
  | .read request => request
  | .read_directory request => request
  | .delete _ request => request

def exec (driver_state : FAT32DriverState) : Operation → DiskM (Int × FAT32DriverState)
  | .write memory newDirectoryTable request => AiOS.write driver_state memory newDirectoryTable request
  | .read request => do
    let (code, driver_state, _) ← AiOS.read driver_state request
    return (code, driver_state)
  | .read_directory request => do
    let (code, driver_state, _) ← AiOS.read_directory driver_state request
    return (code, driver_state)
  | .delete dirTable request => AiOS.delete driver_state dirTable request

section

variable {driver_state st : FAT32DriverState} {request : FAT32DriverRequest} {d d' : Disk}
  {code : Int}

theorem read_cases
    (h : (exec driver_state (.read request)).run diskDevice d = some ((code, st), d'))
    : d' = d ∧ (st.fat_table = driver_state.fat_table ∨ st.fat_table = d.fat) := by
  unfold exec at h
  rw [Prog.run_bind, Option.bind_eq_some_iff] at h
  rcases h with ⟨⟨⟨code', st', bufs⟩, d''⟩, hread, hrest⟩
  simp only [Prog.pure_eq, Prog.run_pure, Option.some.injEq, Prod.mk.injEq] at hrest
  have hcases := read.run_cases hread
  rw [hrest.1.2, hrest.2] at hcases
  exact hcases

theorem read_directory_cases
    (h : (exec driver_state (.read_directory request)).run diskDevice d = some ((code, st), d'))
    : d' = d ∧ st.fat_table = driver_state.fat_table := by
  unfold exec at h
  rw [Prog.run_bind, Option.bind_eq_some_iff] at h
  rcases h with ⟨⟨⟨code', st', bufs⟩, d''⟩, hread, hrest⟩
  simp only [Prog.pure_eq, Prog.run_pure, Option.some.injEq, Prod.mk.injEq] at hrest
  have hcases := read_directory.run_cases hread
  rw [hrest.1.2, hrest.2] at hcases
  exact hcases

end

end Operation

/--
One driver and its disk. It starts with `create_fat32`, and every request names a directory that is
reachable from the root.
-/
def driver : System (FAT32DriverState × Disk) Operation where
  init s :=
    ∃ driver_state after_literal d,
      (create_fat32 driver_state after_literal).run diskDevice d = some s
  step s op s' :=
    s.2.Directory op.request.parent_cluster_number.toNat ∧
      ∃ code, (op.exec s.1).run diskDevice s.2 = some ((code, s'.1), s'.2)

/--
The slot at which `delete` stops may lose its entry: a file or an empty directory from slot 2 on, or
the entry 1 of a directory the parent of which is the root.
-/
def delete.removable (d : Disk) (request : FAT32DriverRequest) (i : Fin 64) : Prop :=
  let entry := d.table request.parent i
  if 2 ≤ i.val then
    entry.attribute = ATTR_SUBDIRECTORY → ¬ has_live_entry (d.table entry.cluster)
  else
    entry.cluster_low.toNat < 3

namespace Operation

/--
`write` does not run short of clusters after its checks, and `delete` gives up or stops at an entry
that may go.
-/
def Careful (s : FAT32DriverState × Disk) : Operation → Prop
  | .write _ _ request => ¬ write.short request s.2
  | .read _ => True
  | .read_directory _ => True
  | .delete dirTable request =>
    ∀ i, delete.searched request s.2 = some i → ¬ delete.refused dirTable request s.2 i →
      delete.removable s.2 request i

end Operation

/--
What every careful run keeps: a well-formed and exact file system, its file allocation table in the
driver state, and directories for the entries 0 and 1 of every directory.
-/
structure Coherent (s : FAT32DriverState × Disk) : Prop where
  wellFormed : s.2.WellFormed
  exact : s.2.Exact
  cache : s.1.fat_table = s.2.fat
  headed : ∀ p (j : Fin 64), s.2.Directory p → j.val < 2 →
    (s.2.table p j).attribute = ATTR_SUBDIRECTORY

namespace Coherent

variable {s s' : FAT32DriverState × Disk}

theorem of_create (h : driver.init s) : Coherent s := by
  rcases h with ⟨driver_state, after_literal, d, hrun⟩
  rw [create_fat32.run_create_fat32, Option.some.injEq] at hrun
  rw [← hrun]
  refine {
    wellFormed := create_fat32.created_wellFormed _ _ _
    exact := create_fat32.created_exact _ _ _
    cache := (create_fat32.created_fat _ _ _).symm
    headed := ?_ }
  intro p j hp hj
  rw [create_fat32.created_directory_iff] at hp
  rw [hp, create_fat32.created_table]
  apply init_directory_table_of_lt _ _ _ hj

theorem of_same_disk {driver_state st : FAT32DriverState} {d : Disk}
    (h : Coherent (driver_state, d))
    (hfat : st.fat_table = driver_state.fat_table ∨ st.fat_table = d.fat)
    : Coherent (st, d) where
  wellFormed := h.wellFormed
  exact := h.exact
  cache := by
    cases hfat with
    | inl hold => exact hold.trans h.cache
    | inr hnew => exact hnew
  headed := h.headed

section

variable {driver_state st : FAT32DriverState} {request : FAT32DriverRequest} {d d' : Disk}
  {i : Fin 64} {cs : List (Fin 512)} {code : Int} (h : Coherent (driver_state, d))
  (hP : d.Directory request.parent)

include h hP

theorem of_committed {memory : UInt32 → UInt8} {newDirectoryTable : FAT32DirectoryTable}
    (hch : write.Chosen request d i cs) (hnodup : cs.Nodup)
    : Coherent (⟨write.link cs d.fat, write.new_table request d i cs⟩,
        write.committed memory newDirectoryTable request d i cs) := by
  have hst := write.staged_of_chosen memory newDirectoryTable hch h.wellFormed hP hnodup
  have hnew := write.committed_of_chosen memory newDirectoryTable hch h.wellFormed hP hnodup
  have hins := hst.insert hch h.wellFormed hP hnodup hnew
  refine {
    wellFormed := hins.wellFormed h.wellFormed
    exact := ?_
    cache := hnew.fat.symm
    headed := ?_ }
  . apply hins.exact h.wellFormed h.exact
    intro c _ hc
    exact FAT32FileAllocationTable.next_congr hst.fat hc
  . intro p j hp hj
    cases (hins.directory_iff p).mp hp with
    | inl hold =>
      have hslot : (p, j) ≠ (request.parent, i) := by
        intro heq
        have hi := hch.slot
        rw [Prod.mk.injEq] at heq
        rw [heq.2] at hj
        omega
      rw [hst.table_eq hch h.wellFormed hold hslot]
      apply h.headed p j hold hj
    | inr hdir =>
      have htable := hnew.table_first hch.ne_nil hdir.1
      have hp : p = ((write.committed memory newDirectoryTable request d i cs).table
          request.parent i).cluster := hdir.2
      rw [← hp] at htable
      dsimp only
      rw [htable]
      apply init_directory_table_of_lt _ _ _ hj

theorem headed_deleted {p : Nat} {j : Fin 64} (hp : d.Directory p) (hj : j.val < 2)
    : ((delete.deleted request d i d.fat cs).table p j).attribute = ATTR_SUBDIRECTORY := by
  have hbounds := h.wellFormed.directory_bounds hP
  have hbounds' := h.wellFormed.directory_bounds hp
  have hold := h.headed p j hp hj
  by_cases heq : (p, j) = (request.parent, i)
  . rw [Prod.mk.injEq] at heq
    rw [heq.1, heq.2] at hold ⊢
    rw [delete.table_deleted (by omega), delete.dead_table_self]
    exact hold
  . rw [(delete.staged_deleted (by omega)).table_eq (by omega) heq]
    exact hold

theorem of_deleted (hi : 2 ≤ i.val) (hlive : (d.table request.parent i).user_attribute
      = UATTR_NOT_EMPTY)
    (hcs : delete.freed d.fat (d.table request.parent i) = some cs)
    (hleaf : delete.removable d request i)
    : Coherent (⟨delete.clear cs d.fat, delete.dead_table request d i⟩,
        delete.deleted request d i d.fat cs) := by
  have hs : d.Live (request.parent, i) := ⟨hP, hi, hlive⟩
  have hown : d.Owns (request.parent, i) (numbers cs) :=
    delete.owns_of_freed h.wellFormed hs hcs
  have hrem := delete.remove_deleted h.wellFormed hs hown
  have hleaf : Remove.Leaf fat32 d.volume (request.parent, i) := by
    intro hdir j hj hlive
    unfold delete.removable at hleaf
    dsimp only at hleaf
    rw [if_pos hi] at hleaf
    apply hleaf hdir
    exact ⟨j, (write.mem_slots j).mpr hj, hlive⟩
  refine {
    wellFormed := hrem.wellFormed h.wellFormed
    exact := ?_
    cache := ?_
    headed := ?_ }
  . apply hrem.exact h.wellFormed hleaf h.exact hown
    . intro c hc
      rcases exists_of_mem_numbers hc with ⟨j, hj, rfl⟩
      change (delete.deleted request d i d.fat cs).fat.next j = 0
      rw [FAT32FileAllocationTable.next_fin, delete.fat_deleted, delete.clear_apply, if_pos hj]
      rfl
    . intro c _ hc
      apply FAT32FileAllocationTable.next_congr (fun j hj => delete.fat_deleted_of_not_mem hj) hc
  . rw [delete.fat_deleted]
  . intro p j hp hj
    apply h.headed_deleted hP (hrem.directory_of hp) hj

theorem of_deleted_parent_entry (hi : i.val = 1)
    (hcs : delete.freed d.fat (d.table request.parent i) = some cs)
    (hleaf : delete.removable d request i)
    : Coherent (⟨delete.clear cs d.fat, delete.dead_table request d i⟩,
        delete.deleted request d i d.fat cs) := by
  have hlow : ∀ c ∈ cs, c.val < 3 := by
    have hdir := h.headed request.parent i hP (by omega)
    unfold delete.removable at hleaf
    dsimp only at hleaf
    rw [if_neg (by omega)] at hleaf
    apply delete.lt_of_freed hcs hdir hleaf
  have hwf : d.WellFormed := h.wellFormed
  have hagrees := delete.agrees_deleted (i := i) hlow hwf hP (by omega)
  refine {
    wellFormed := hagrees.wellFormed hwf
    exact := ?_
    cache := ?_
    headed := ?_ }
  . apply hagrees.exact hwf h.exact
    intro c hc
    apply delete.next_deleted_of_low hlow hc
  . rw [delete.fat_deleted]
  . intro p j hp hj
    apply h.headed_deleted hP ((hagrees.directory_iff p).mp hp) hj

theorem of_write {memory : UInt32 → UInt8} {newDirectoryTable : FAT32DirectoryTable}
    (hshort : ¬ write.short request d)
    (hrun : (write driver_state memory newDirectoryTable request).run diskDevice d
      = some ((code, st), d'))
    : Coherent (st, d') := by
  cases write.run_cases _ _ _ _ _ hrun with
  | inl hfail =>
    rcases hfail with ⟨_, rfl, rfl⟩
    apply h.of_same_disk (Or.inr rfl)
  | inr hcommit =>
    rcases hcommit with ⟨i, cs, _, hparent, hsearch, rfl, rfl⟩
    apply h.of_committed hP (write.chosen_of_search hsearch)
    apply write.nodup_of_not_short _ _ hparent hshort hsearch

theorem of_delete {dirTable : FAT32DirectoryTable}
    (hremovable : ∀ i, delete.searched request d = some i → ¬ delete.refused dirTable request d i →
      delete.removable d request i)
    (hrun : (delete driver_state dirTable request).run diskDevice d = some ((code, st), d'))
    : Coherent (st, d') := by
  cases delete.run_cases _ _ _ _ hrun with
  | inl hfail =>
    rcases hfail with ⟨_, hfat, rfl⟩
    apply h.of_same_disk (Or.inl hfat)
  | inr hdelete =>
    rcases hdelete with ⟨i, cs, _, hsearched, hrefused, hcs, rfl, rfl⟩
    have hcache : driver_state.fat_table = d.fat := h.cache
    have hhit := delete.hit_of_searched _ _ hsearched
    have hleaf := hremovable i hsearched hrefused
    rw [hcache] at hcs ⊢
    by_cases hi : 2 ≤ i.val
    . apply h.of_deleted hP hi hhit.2.1 hcs hleaf
    . apply h.of_deleted_parent_entry hP (by omega) hcs hleaf

end

theorem of_step {op : Operation} (h : Coherent s) (hok : op.Careful s) (hstep : driver.step s op s')
    : Coherent s' := by
  rcases s with ⟨driver_state, d⟩
  rcases s' with ⟨driver_state', d'⟩
  rcases hstep with ⟨hP, code, hrun⟩
  rw [← h.wellFormed.parent_eq hP] at hP
  dsimp only at hrun
  cases op with
  | write memory newDirectoryTable request => apply of_write h hP hok hrun
  | read request =>
    have hcases := Operation.read_cases hrun
    rw [hcases.1]
    apply h.of_same_disk hcases.2
  | read_directory request =>
    have hcases := Operation.read_directory_cases hrun
    rw [hcases.1]
    apply h.of_same_disk (Or.inl hcases.2)
  | delete dirTable request => apply of_delete h hP hok hrun

theorem of_reachable (h : driver.Reachable (fun s op => op.Careful s) s) : Coherent s := by
  apply h.invariant
  . intro s hs
    apply of_create hs
  . intro s op s' hs hok hstep
    apply of_step hs hok hstep

end Coherent

/--
In every run whose requests are careful, the file system is well formed, and exactly the clusters of
live entries are in use.
-/
theorem driver_exact {s : FAT32DriverState × Disk}
    (h : driver.Reachable (fun s op => op.Careful s) s)
    : s.2.WellFormed ∧ s.2.Exact ∧ ∀ t l, s.2.Live t → s.2.Owns t l → l.Nodup := by
  have hcoherent := Coherent.of_reachable h
  refine ⟨hcoherent.wellFormed, hcoherent.exact, ?_⟩
  intro t l _ hl
  apply hl.nodup

section

variable {ok : FAT32DriverState × Disk → Operation → Prop}

theorem reachable_write {driver_state st : FAT32DriverState} {d d' : Disk} {code : Int}
    {memory : UInt32 → UInt8} {newDirectoryTable : FAT32DirectoryTable}
    {request : FAT32DriverRequest} (h : driver.Reachable ok (driver_state, d))
    (hok : ok (driver_state, d) (.write memory newDirectoryTable request))
    (hP : d.Directory request.parent_cluster_number.toNat)
    (hrun : (write driver_state memory newDirectoryTable request).run diskDevice d
      = some ((code, st), d'))
    : driver.Reachable ok (st, d') := by
  apply System.Reachable.step h hok
  exact ⟨hP, code, hrun⟩

theorem reachable_delete {driver_state st : FAT32DriverState} {d d' : Disk} {code : Int}
    {dirTable : FAT32DirectoryTable} {request : FAT32DriverRequest}
    (h : driver.Reachable ok (driver_state, d))
    (hok : ok (driver_state, d) (.delete dirTable request))
    (hP : d.Directory request.parent_cluster_number.toNat)
    (hrun : (delete driver_state dirTable request).run diskDevice d = some ((code, st), d'))
    : driver.Reachable ok (st, d') := by
  apply System.Reachable.step h hok
  exact ⟨hP, code, hrun⟩

def fresh_driver : FAT32DriverState :=
  ⟨create_fat32.fat_table, create_fat32.dir_table_buf .zero (fun _ => 0)⟩

theorem reachable_fresh : driver.Reachable ok (fresh_driver, fresh) := by
  apply System.Reachable.init
  exact ⟨.zero, fun _ => 0, fun _ _ => 0, create_fat32.run_create_fat32 _ _ _⟩

end

namespace write

theorem not_short_of_required_one {request : FAT32DriverRequest} (h : required_clusters request = 1)
    (d : Disk)
    : ¬ short request d := by
  intro ⟨_, _, hlt, hle⟩
  have hempty : (empty_clusters d.fat).length = 0 := by omega
  rw [hempty, Nat.zero_mul] at hle
  omega

end write

theorem reachable_populated {ok : FAT32DriverState × Disk → Operation → Prop}
    (hok : ok (fresh_driver, fresh) (.write (fun _ => 0x41) (fun _ => .zero) write.small))
    : driver.Reachable ok
        (⟨write.link [3] fresh.fat, write.new_table write.small fresh 2 [3]⟩, write.populated) := by
  have hroot : fresh.Directory write.small.parent_cluster_number.toNat := Directory.root
  exact reachable_write reachable_fresh hok hroot (write.run_small fresh_driver)

theorem not_short_small (d : Disk) : ¬ write.short write.small d := by
  apply write.not_short_of_required_one
  decide

theorem driver_exact_populated
    : write.populated.WellFormed ∧ write.populated.Exact ∧
        ∀ t l, write.populated.Live t → write.populated.Owns t l → l.Nodup := by
  have hexact := driver_exact (reachable_populated (not_short_small fresh))
  exact hexact

theorem not_wellFormed_of_committed {memory : UInt32 → UInt8}
    {newDirectoryTable : FAT32DirectoryTable} {request : FAT32DriverRequest} {d : Disk}
    {i : Fin 64} {cs : List (Fin 512)} (hi : 2 ≤ i.val) (hroot : request.parent = 2)
    (hrequired : 509 < write.required_clusters request)
    : ¬ (write.committed memory newDirectoryTable request d i cs).WellFormed := by
  intro hwf
  have htable := write.committed_table memory newDirectoryTable request d i cs
  have hentry : (write.committed memory newDirectoryTable request d i cs).table request.parent i
      = write.new_entry (d.table request.parent i) request (UInt32.ofNat (cs.headD 0)) := by
    rw [htable]
    apply Function.update_self
  have hlive : (write.committed memory newDirectoryTable request d i cs).Live
      (request.parent, i) := by
    refine ⟨?_, hi, ?_⟩
    . dsimp only
      rw [hroot]
      apply Directory.root
    . change ((write.committed memory newDirectoryTable request d i cs).table request.parent
        i).user_attribute = UATTR_NOT_EMPTY
      rw [hentry, write.new_entry_user_attribute]
  rcases hwf.chain _ hlive with ⟨l, hl, hdata, hlen⟩
  have hlen : l.length
      = ((write.committed memory newDirectoryTable request d i cs).table request.parent
        i).clusterCount := hlen
  rw [hentry, write.new_entry_clusterCount] at hlen
  have hle := Disk.length_le_of_nodup hl.nodup hdata
  omega

theorem driver_not_wellFormed
    : ∃ st d, (write fresh_driver (fun _ => 0) (fun _ => .zero) write.oversized).run diskDevice fresh
          = some ((0, st), d) ∧
        driver.Reachable (fun _ _ => True) (st, d) ∧ ¬ d.WellFormed := by
  rcases write.search_of_short _ _ write.oversized_short with ⟨i, cs, hsearch⟩
  have hrun := write.run_of_parent_ok fresh_driver (fun _ => 0) (fun _ => .zero) write.oversized
    fresh write.oversized_short.1
  rw [hsearch] at hrun
  have hroot : fresh.Directory write.oversized.parent_cluster_number.toNat := Directory.root
  refine ⟨_, _, hrun, reachable_write reachable_fresh trivial hroot hrun, ?_⟩
  have hch := write.chosen_of_search hsearch
  apply not_wellFormed_of_committed hch.slot rfl
  decide

end AiOS
