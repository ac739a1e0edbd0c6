import AiOS.Fat32.Run

/-!
This module contains when `read` gets back what `write` has just written.
-/

namespace AiOS

open Catalog

namespace write

/--
A `read` of the file just written returns 0 and delivers its bytes, whatever the size of the buffer.
-/
def ReadsBack (memory : UInt32 → UInt8) (request : FAT32DriverRequest) (s : FAT32DriverState × Disk)
    : Prop :=
  ∀ r : FAT32DriverRequest, r.name = request.name → r.ext = request.ext →
    r.parent_cluster_number = request.parent_cluster_number →
      request.buffer_size ≤ r.buffer_size →
        ∃ st bufs d, (read s.1 r).run diskDevice s.2 = some ((0, st, bufs), d) ∧
          Holds memory request bufs

variable {driver_state st : FAT32DriverState} {memory : UInt32 → UInt8}
  {newDirectoryTable : FAT32DirectoryTable} {request : FAT32DriverRequest} {d d' : Disk}
  {i : Fin 64} {cs : List (Fin 512)}

theorem carries_congr {r : FAT32DriverRequest} (hname : r.name = request.name)
    (hext : r.ext = request.ext) (entry : FAT32DirectoryEntry)
    : read.carries r entry ↔ read.carries request entry := by
  unfold read.carries
  rw [hname, hext]

theorem not_carries_of_lt_head (hhead : (free_slots (d.table request.parent) slots).head? = some i)
    (hnames : ∀ j ∈ slots, ¬ named (d.table request.parent) request j) {j : Fin 64}
    (hj : 2 ≤ j.val) (hji : j < i)
    : ¬ read.carries request (d.table request.parent j) := by
  intro hcarries
  apply hnames j ((mem_slots j).mpr hj)
  exact ⟨live_of_lt_head hhead hj hji, hcarries.1.symm, hcarries.2.symm⟩

section

variable (hsize : request.buffer_size ≠ 0) (hch : Chosen request d i cs) (hnodup : cs.Nodup)
  (hlive : (d'.table request.parent 0).user_attribute = UATTR_NOT_EMPTY)
  (hbefore : ∀ j < i, ¬ read.carries request (d'.table request.parent j))
  (hnew : Committed memory newDirectoryTable request d i cs d')

include hsize hch hnodup hlive hbefore hnew

theorem run_read_of_committed {r : FAT32DriverRequest} (hname : r.name = request.name)
    (hext : r.ext = request.ext) (hparent : r.parent = request.parent)
    (hbuffer : request.buffer_size ≤ r.buffer_size)
    : (read st r).run diskDevice d'
        =
      some ((0, ⟨d'.fat, d'.table request.parent⟩, (numbers cs).map d'.cluster), d') := by
  have hentry := hnew.entry_eq
  have hfields := new_entry_of_file (d.table request.parent i) request
    (UInt32.ofNat (cs.headD 0)) hsize
  have hsearched : read.searched r d' = some i := by
    rw [read.searched_eq_some_iff, hparent]
    simp only [carries_congr hname hext]
    refine ⟨?_, hbefore⟩
    rw [hentry]
    exact ⟨new_entry_name _ _ _, hfields.1⟩
  have hdata : ∀ c ∈ numbers cs, c < 512 := fun c hc => (hch.isData c hc).2
  have hlen : (numbers cs).length ≤ 509 := by
    apply Disk.length_le_of_nodup _ hch.isData
    exact hnodup.map Fin.val_injective
  have hfile : (d'.table request.parent i).attribute ≠ ATTR_SUBDIRECTORY := by
    rw [Ne, hnew.isDir_iff]
    exact hsize
  have hfilesize : (d'.table request.parent i).filesize ≤ r.buffer_size := by
    rw [hentry, hfields.2]
    exact hbuffer
  have hchain := hnew.chain hch hnodup
  rw [← hparent] at hlive hchain hfile hfilesize ⊢
  rw [read.run_of_live st r d' hlive, hsearched]
  apply read.run_found_file r d' hfile hfilesize hchain hdata (by omega)

theorem readsBack_of_committed : ReadsBack memory request (st, d') := by
  intro r hname hext hparent hbuffer
  have hrparent : r.parent = request.parent := by
    unfold FAT32DriverRequest.parent
    rw [hparent]
  refine ⟨⟨d'.fat, d'.table request.parent⟩, _, d', ?_, hnew.holds hch.length hsize⟩
  apply run_read_of_committed hsize hch hnodup hlive hbefore hnew hname hext hrparent hbuffer

end

theorem not_readsBack_of_directory {j : Fin 64}
    (hlive : (d'.table request.parent 0).user_attribute = UATTR_NOT_EMPTY)
    (hsearched : read.searched request d' = some j)
    (hdir : (d'.table request.parent j).attribute = ATTR_SUBDIRECTORY)
    : ¬ ReadsBack memory request (st, d') := by
  intro h
  rcases h request rfl rfl rfl (UInt32.le_refl _) with ⟨st', bufs, d'', hrun, _⟩
  rw [read.run_of_live st request d' hlive, hsearched] at hrun
  unfold read.act at hrun
  rw [read.run_found_directory request d' hdir] at hrun
  simp only [Option.some.injEq, Prod.mk.injEq] at hrun
  omega

section

variable (hparent : parent_ok (d.table request.parent))
  (hold : ∀ j : Fin 64, j ≠ i → d'.table request.parent j = d.table request.parent j)
  (hi : 2 ≤ i.val)

include hparent hold hi

theorem live_of_parent_ok : (d'.table request.parent 0).user_attribute = UATTR_NOT_EMPTY := by
  rw [hold 0 (by intro h; rw [← h] at hi; contradiction)]
  exact hparent.1

theorem not_readsBack_of_carries
    (hheaded : ∀ j : Fin 64, j.val < 2 → (d.table request.parent j).attribute = ATTR_SUBDIRECTORY)
    {j : Fin 64} (hj : j.val < 2) (hcarries : read.carries request (d.table request.parent j))
    : ¬ ReadsBack memory request (st, d') := by
  have hlive := live_of_parent_ok hparent hold hi
  have hlow : ∀ k : Fin 64, k.val < 2 → d'.table request.parent k = d.table request.parent k := by
    intro k hk
    apply hold
    intro heq
    rw [heq] at hk
    omega
  -- the first of the two entries that carries the name stops the loop of `read`
  by_cases hfirst : read.carries request (d.table request.parent 0)
  . apply not_readsBack_of_directory (j := 0) hlive
    . rw [read.searched_eq_some_iff, hlow 0 (by decide)]
      refine ⟨hfirst, ?_⟩
      intro k hk
      exact absurd hk (Fin.not_lt_zero k)
    . rw [hlow 0 (by decide)]
      apply hheaded 0 (by decide)
  . have hone : j = 1 := by
      have hne : j ≠ 0 := by
        intro heq
        rw [heq] at hcarries
        exact hfirst hcarries
      omega
    rw [hone] at hcarries
    apply not_readsBack_of_directory (j := 1) hlive
    . rw [read.searched_eq_some_iff, hlow 1 (by decide)]
      refine ⟨hcarries, ?_⟩
      intro k hk
      have hzero : k = 0 := by omega
      rw [hzero, hlow 0 (by decide)]
      exact hfirst
    . rw [hlow 1 (by decide)]
      apply hheaded 1 (by decide)

end

/--
After a careful run, a file that `write` has not run short of clusters for can be read back, unless
its name and extension are those of the entry 0 or 1 of its directory.
-/
theorem readsBack_iff (h : driver.Reachable (fun s op => op.Careful s) (driver_state, d))
    (hP : d.Directory request.parent_cluster_number.toNat) (hsize : request.buffer_size ≠ 0)
    (hshort : ¬ short request d)
    (hrun : (write driver_state memory newDirectoryTable request).run diskDevice d
      = some ((0, st), d'))
    : ReadsBack memory request (st, d')
        ↔
      ∀ j : Fin 64, j.val < 2 →
        ¬ read.carries request (d.table request.parent_cluster_number.toNat j) := by
  have hcoherent := Coherent.of_reachable h
  have hwf : d.WellFormed := hcoherent.wellFormed
  have heq := hwf.parent_eq hP
  rw [← heq] at hP ⊢
  cases run_cases _ _ _ _ _ hrun with
  | inl hfail => exact absurd rfl hfail.1
  | inr hcommit =>
    rcases hcommit with ⟨i, cs, _, hparent, hsearch, _, rfl⟩
    have hch := chosen_of_search hsearch
    have hnodup := nodup_of_not_short request d hparent hshort hsearch
    have henough := enough_of_not_short request d hparent hshort hsearch
    have hhead := (search_of_enough request d henough hsearch).1
    have hnames := (search_isSome_iff request d).mp ⟨_, hsearch⟩
    have hnew := committed_of_chosen memory newDirectoryTable hch hwf hP hnodup
    have hold : ∀ j, j ≠ i →
        (committed memory newDirectoryTable request d i cs).table request.parent j
          = d.table request.parent j := by
      intro j hj
      rw [hnew.table]
      apply Function.update_of_ne hj
    constructor
    . intro hreads j hj hcarries
      have hheaded : ∀ k : Fin 64, k.val < 2 →
          (d.table request.parent k).attribute = ATTR_SUBDIRECTORY := by
        intro k hk
        apply hcoherent.headed request.parent k hP hk
      exact not_readsBack_of_carries hparent hold hch.slot hheaded hj hcarries hreads
    . intro hfree
      apply readsBack_of_committed hsize hch hnodup (live_of_parent_ok hparent hold hch.slot) _ hnew
      intro j hji
      rw [hold j (ne_of_lt hji)]
      by_cases hj : 2 ≤ j.val
      . apply not_carries_of_lt_head hhead hnames hj hji
      . apply hfree j (by omega)

theorem names_fresh
    : ∀ j : Fin 64, j.val < 2 →
        (create_fat32.dir_table_buf .zero (fun _ => 0) j).name ≠ small.name := by
  decide

theorem run_read_small (driver_state : FAT32DriverState) {r : FAT32DriverRequest}
    (hname : r.name = small.name) (hext : r.ext = small.ext) (hparent : r.parent = 2)
    (hbuffer : small.buffer_size ≤ r.buffer_size)
    : (read driver_state r).run diskDevice populated
        =
      some ((0, ⟨populated.fat, populated.table 2⟩, [populated.cluster 3]), populated) := by
  apply run_read_of_committed (by decide) chosen_small (by decide) _ _ committed_small hname hext
    hparent hbuffer
  . change (populated.table 2 0).user_attribute = UATTR_NOT_EMPTY
    rw [populated_table]
    decide
  . change ∀ j < (2 : Fin 64), ¬ read.carries small (populated.table 2 j)
    intro j hj hcarries
    rw [populated_table, Function.update_of_ne (Fin.ne_of_lt hj)] at hcarries
    apply names_fresh j hj hcarries.1

theorem readsBack_small
    : ReadsBack (fun _ => 0x41) small
        (⟨link [3] fresh.fat, new_table small fresh 2 [3]⟩, populated) := by
  have hroot : fresh.Directory small.parent_cluster_number.toNat := Directory.root
  apply (readsBack_iff reachable_fresh hroot (by decide) (not_short_small fresh)
    (run_small fresh_driver)).mpr
  intro j hj hcarries
  apply names_fresh j hj
  rw [← create_fat32.created_table .zero (fun _ => 0) (fun _ _ => 0)]
  exact hcarries.1

def dotdot : FAT32DriverRequest where
  buf := 0
  name := ![0x2E, 0x2E, 0, 0, 0, 0, 0, 0]
  ext := ![0, 0, 0]
  parent_cluster_number := 2
  buffer_size := 5

theorem not_readsBack_dotdot
    : driver.Reachable (fun _ _ => True) (fresh_driver, fresh) ∧
        ∃ st d', (write fresh_driver (fun _ => 0x41) (fun _ => .zero) dotdot).run diskDevice fresh
            = some ((0, st), d') ∧
          ¬ ReadsBack (fun _ => 0x41) dotdot (st, d') := by
  refine ⟨reachable_fresh, ?_⟩
  have hroot : dotdot.parent_cluster_number = 2 := rfl
  rcases run_fresh hroot (by decide) fresh_driver (fun _ => 0x41) (fun _ => .zero) with
    ⟨st, d', hrun⟩
  refine ⟨st, d', hrun, ?_⟩
  cases run_cases _ _ _ _ _ hrun with
  | inl hfail => exact absurd rfl hfail.1
  | inr hcommit =>
    rcases hcommit with ⟨i, cs, _, hparent, hsearch, _, rfl⟩
    have htable : fresh.table dotdot.parent = create_fat32.dir_table_buf .zero (fun _ => 0) :=
      create_fat32.created_table _ _ _
    apply not_readsBack_of_carries (j := 1) hparent _ (chosen_of_search hsearch).slot
    . intro j hj
      apply Coherent.headed (s := (fresh_driver, fresh)) _ _ _ Directory.root hj
      apply Coherent.of_reachable reachable_fresh
    . decide
    . rw [htable]
      exact ⟨by decide, by decide⟩
    . intro j hj
      rw [committed_table]
      apply Function.update_of_ne hj

end write
end AiOS
