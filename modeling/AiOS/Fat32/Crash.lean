import AiOS.Fat32.Frame
import AiOS.Fat32.Lemmas.Remove

/-!
This module contains what is left of a well-formed file system when `write` or `delete` is cut off
between any two of its block writes.
-/

namespace AiOS

open Catalog

/--
`d'` is well formed, and what was live in `d` and can still be reached is as it was, up to `target`.
-/
structure Disk.Survives (d d' : Disk) (target : Option (Nat × Fin 64)) : Prop where
  wellFormed : d'.WellFormed
  acyclic : ∀ s l, d'.Live s → d'.Owns s l → l.Nodup
  allocated : ∀ s l c, d'.Live s → d'.Owns s l → c ∈ l → d'.fat.next c ≠ 0
  entry : ∀ s, d.Live s → d'.Directory s.1 → some s ≠ target → d'.entry s = d.entry s
  bytes : ∀ s l, d.Live s → d'.Directory s.1 → some s ≠ target →
    (d.entry s).attribute ≠ ATTR_SUBDIRECTORY → d.Owns s l →
      d'.Owns s l ∧ ∀ c ∈ l, d'.cluster c = d.cluster c

variable {driver_state : FAT32DriverState} {request : FAT32DriverRequest} {d d' : Disk}
  {i : Fin 64} {cs : List (Fin 512)}

theorem Disk.WellFormed.survives (h : d.WellFormed) (target : Option (Nat × Fin 64))
    : d.Survives d target where
  wellFormed := h
  acyclic _ _ _ hl := hl.nodup
  allocated _ _ _ hs hl hc := h.next_ne_free hs hl hc
  entry _ _ _ _ := rfl
  bytes _ _ _ _ _ _ hl := ⟨hl, fun _ _ => rfl⟩

theorem write.Staged.survives {memory : UInt32 → UInt8} {newDirectoryTable : FAT32DirectoryTable}
    (h : write.Staged memory newDirectoryTable request d i cs d')
    (hch : write.Chosen request d i cs) (hnodup : cs.Nodup) (hwf : d.WellFormed)
    (hP : d.Directory request.parent)
    : d.Survives d' none where
  wellFormed := h.wellFormed hch hwf hP hnodup
  acyclic _ _ _ hl := hl.nodup
  allocated _ _ _ hs hl hc := (h.wellFormed hch hwf hP hnodup).next_ne_free hs hl hc
  entry s hs _ _ := by
    apply h.table_eq hch hwf hs.dir
    intro heq
    have heq : s = (request.parent, i) := heq
    apply hch.dead
    have hlive := hs.live
    rw [heq] at hlive
    exact hlive
  bytes s l hs _ _ hfile hl := by
    refine ⟨h.owns hch hwf hP hnodup hs hl, ?_⟩
    intro c hc
    apply h.cluster_eq hch hwf hP hs hfile hl hc

theorem delete.Staged.survives (h : delete.Staged request d i cs d') (hwf : d.WellFormed)
    (hs : d.Live (request.parent, i)) (hcs : d.Owns (request.parent, i) (numbers cs))
    : d.Survives d' (some (request.parent, i)) where
  wellFormed := h.wellFormed hwf hs hcs
  acyclic _ _ _ hl := hl.nodup
  allocated _ _ _ hsl hl hc := (h.wellFormed hwf hs hcs).next_ne_free hsl hl hc
  entry s hsl _ hne := by
    have hbounds := hwf.directory_bounds hsl.dir
    apply h.table_eq (by omega)
    intro heq
    have heq : s = (request.parent, i) := heq
    apply hne
    rw [heq]
  bytes s l hsl _ hne hfile hl := by
    have hne : s ≠ (request.parent, i) := fun heq => hne (congrArg some heq)
    refine ⟨h.owns hwf hs hcs hsl hne hl, ?_⟩
    intro c hc
    apply h.cluster_eq hwf hs hsl hfile hl hc

section

variable (hwf : d.WellFormed) (hP : d.Directory request.parent_cluster_number.toNat)

include hwf hP

theorem write.always_survives {memory : UInt32 → UInt8} {newDirectoryTable : FAT32DirectoryTable}
    (hshort : ¬ short request d) (loaded : FAT32FileAllocationTable)
    : (write driver_state memory newDirectoryTable request).Always diskDevice fatMonitor
        (d.Survives · none) loaded d := by
  have heq := hwf.parent_eq hP
  have hbounds := hwf.directory_bounds hP
  apply always_write (by omega) driver_state loaded (hwf.survives none)
  intro i cs hparent hsearch
  rw [← heq] at hP
  have hch := chosen_of_search hsearch
  have hnodup := nodup_of_not_short request d hparent hshort hsearch
  refine ⟨hnodup, hch.parent_not_mem hwf hP, ?_⟩
  intro d' h
  apply h.survives hch hnodup hwf hP

theorem delete.live_of_searched (hi : 2 ≤ i.val) (hsearched : searched request d = some i)
    : d.Live (request.parent, i) where
  dir := by
    rw [hwf.parent_eq hP]
    exact hP
  slot := hi
  live := (hit_of_searched _ _ hsearched).2.1

theorem delete.always_survives (dirTable : FAT32DirectoryTable)
    (hcache : driver_state.fat_table = d.fat) (hi : 2 ≤ i.val)
    (hsearched : searched request d = some i)
    : (delete driver_state dirTable request).Always diskDevice fatMonitor
        (d.Survives · (some (request.parent, i))) driver_state.fat_table d := by
  have heq := hwf.parent_eq hP
  have hbounds := hwf.directory_bounds hP
  apply always_delete (by omega) hcache dirTable (hwf.survives _)
  intro j hj _
  rw [hsearched, Option.some.injEq] at hj
  subst hj
  have hs := live_of_searched hwf hP hi hsearched
  rcases exists_freed hwf hs with ⟨cs, hcs, hown⟩
  refine ⟨cs, hcs, ?_⟩
  intro d' h
  apply h.survives hwf hs hown

/--
After any number of block writes of a `write` that finds enough empty clusters, or of a `delete`
that has found an entry from slot 2 on, the file system is well formed and the rest of it unchanged.
-/
theorem crash_consistent (hcache : driver_state.fat_table = d.fat)
    : (∀ memory newDirectoryTable, write.needed request ≤ (write.empty_clusters d.fat).length →
        ∀ n, d.Survives
          ((write driver_state memory newDirectoryTable request).crash diskDevice d n) none)
        ∧
      (∀ dirTable i, 2 ≤ i.val → delete.searched request d = some i →
        ∀ n, d.Survives ((delete driver_state dirTable request).crash diskDevice d n)
          (some (request.parent, i))) := by
  refine ⟨?_, ?_⟩
  . intro memory newDirectoryTable henough n
    have hshort : ¬ write.short request d := by
      intro h
      have hlt := h.2.2.1
      rw [write.required_clusters_eq] at hlt
      unfold write.needed at henough
      omega
    apply (write.always_survives hwf hP hshort d.fat).crash
  . intro dirTable i hi hsearched n
    apply (delete.always_survives hwf hP dirTable hcache hi hsearched).crash

end

theorem searched_small : delete.searched write.small write.populated = some 2 := by
  have hparent : write.small.parent = 2 := rfl
  unfold delete.searched
  rw [hparent, write.populated_table]
  decide

theorem crash_consistent_populated
    : write.populated.Survives
        ((delete ⟨write.populated.fat, fun _ => .zero⟩ (fun _ => .zero) write.small).crash diskDevice
          write.populated 2) (some (2, 2)) := by
  have hroot : write.populated.Directory write.small.parent_cluster_number.toNat := Directory.root
  have hcache : (⟨write.populated.fat, fun _ => .zero⟩ : FAT32DriverState).fat_table
      = write.populated.fat := rfl
  have h := crash_consistent write.populated_wellFormed hroot hcache
  exact h.2 (fun _ => .zero) 2 (by decide) searched_small 2

end AiOS
