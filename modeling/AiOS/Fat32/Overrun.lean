import AiOS.Fat32.RoundTrip

/-!
This module contains when `read` stays within the caller's buffer: it copies whole clusters, so only
a file that fills its last cluster does not run over its size.
-/

namespace AiOS

open Catalog

namespace ClusterBuffer

theorem isSome_byteOf (bufs : List ClusterBuffer) (k : Nat)
    : (byteOf bufs k).isSome ↔ k < 2048 * bufs.length := by
  unfold byteOf
  rw [Option.isSome_map, isSome_getElem?]
  omega

end ClusterBuffer

namespace read

variable (driver_state : FAT32DriverState) (request : FAT32DriverRequest) (d : Disk)

/--
`read` comes back, has stored bytes at offsets below `buffer_size` only, and if it returns 0 these
are as many bytes of the chain of the entry as its `filesize` says. A walk that leaves `cluster_map`
or never ends keeps none of this: nothing bounds what it stores.
-/
def Respects : Prop :=
  ∃ code st bufs, (read driver_state request).run diskDevice d = some ((code, st, bufs), d) ∧
    (∀ k, (ClusterBuffer.byteOf bufs k).isSome → k < request.buffer_size.toNat) ∧
    (code = 0 → ∃ i l, searched request d = some i ∧
      d.Links (d.table request.parent i).cluster l ∧
      ∀ k, ClusterBuffer.byteOf bufs k = ClusterBuffer.byteOf (l.map d.cluster) k ∧
        ((ClusterBuffer.byteOf bufs k).isSome ↔ k < (d.table request.parent i).filesize.toNat))

/--
The chain of the entry has exactly the room that its `filesize` says.
-/
def Fills (i : Fin 64) : Prop :=
  ∃ l, d.Links (d.table request.parent i).cluster l ∧
    CLUSTER_SIZE * l.length = (d.table request.parent i).filesize.toNat

variable {driver_state request d} {i : Fin 64}

theorem respects_of_not_copies (h : ∀ i, ¬ Copies request d i)
    : Respects driver_state request d := by
  rcases run_of_not_copies h with ⟨code, st, hcode, hrun⟩
  refine ⟨code, st, [], hrun, ?_, ?_⟩
  . intro k hk
    rw [ClusterBuffer.isSome_byteOf] at hk
    simp at hk
  . intro hzero
    exact absurd hzero hcode

theorem respects_of_fills (h : Copies request d i) (hfills : Fills request d i)
    : Respects driver_state request d := by
  rcases hfills with ⟨l, hl, hlen⟩
  have hfits := UInt32.le_iff_toNat_le.mp h.fits
  have hstored : ∀ k, (ClusterBuffer.byteOf (l.map d.cluster) k).isSome
      ↔ k < (d.table request.parent i).filesize.toNat := by
    intro k
    rw [ClusterBuffer.isSome_byteOf, List.length_map, ← hlen]
  refine ⟨0, _, _, run_of_copies h hl, ?_, ?_⟩
  . intro k hk
    rw [hstored] at hk
    omega
  . intro _
    refine ⟨i, l, h.searched, hl, ?_⟩
    intro k
    exact ⟨rfl, hstored k⟩

theorem fills_of_respects (h : Copies request d i) (hrespects : Respects driver_state request d)
    : Fills request d i := by
  rcases hrespects with ⟨code, st, bufs, hrun, _, hbytes⟩
  rcases links_of_run h hrun with ⟨l, hl, hbufs⟩
  have hrun' : (read driver_state request).run diskDevice d = _ := run_of_copies h hl
  rw [hrun] at hrun'
  simp only [Option.some.injEq, Prod.mk.injEq] at hrun'
  rcases hbytes hrun'.1.1 with ⟨j, m, hj, hm, hbytes⟩
  have hji : j = i := by
    have hsearched := h.searched
    rw [hj] at hsearched
    injection hsearched
  rw [hji] at hm hbytes
  have hml : m = l := hm.1.unique hl.1
  refine ⟨l, hl, ?_⟩
  rw [hml, hbufs] at hbytes
  -- the chain ends where the stored bytes end
  have hstored : ∀ k, k < 2048 * l.length ↔ k < (d.table request.parent i).filesize.toNat := by
    intro k
    rw [← (hbytes k).2, ClusterBuffer.isSome_byteOf, List.length_map]
  unfold CLUSTER_SIZE
  have hlt := hstored (2048 * l.length)
  have hge := hstored (d.table request.parent i).filesize.toNat
  omega

theorem respects_iff_fills
    : Respects driver_state request d ↔ ∀ i, Copies request d i → Fills request d i := by
  constructor
  . intro h i hcopies
    apply fills_of_respects hcopies h
  . intro h
    by_cases hcopies : ∃ i, Copies request d i
    . rcases hcopies with ⟨i, hcopies⟩
      apply respects_of_fills hcopies (h i hcopies)
    . rw [not_exists] at hcopies
      apply respects_of_not_copies hcopies

theorem fills_iff_dvd (hwf : d.WellFormed) (hs : d.Live (request.parent, i))
    (hfile : (d.table request.parent i).attribute ≠ ATTR_SUBDIRECTORY)
    : Fills request d i ↔ CLUSTER_SIZE ∣ (d.table request.parent i).filesize.toNat := by
  rcases hwf.chain _ hs with ⟨l, hl, hdata, hlen⟩
  have hlen : l.length = (d.table request.parent i).clusterCount := hlen
  unfold FAT32DirectoryEntry.clusterCount at hlen
  rw [if_neg hfile] at hlen
  unfold CLUSTER_SIZE at hlen ⊢
  constructor
  . intro ⟨m, hm, hroom⟩
    exact ⟨m.length, hroom.symm⟩
  . intro hdvd
    refine ⟨l, ⟨hl, fun c hc => (hdata c hc).2⟩, ?_⟩
    unfold CLUSTER_SIZE
    omega

end read

/--
`read` respects the caller's buffer exactly when what it copies has no unused room at its end: for a
live file, when its size is a multiple of the size of a cluster.
-/
theorem read_respects_iff (driver_state : FAT32DriverState) (request : FAT32DriverRequest) {d : Disk}
    (hwf : d.WellFormed)
    : read.Respects driver_state request d
        ↔
      ∀ i, read.Copies request d i →
        (d.Live (request.parent, i) → CLUSTER_SIZE ∣ (d.table request.parent i).filesize.toNat) ∧
          (¬ d.Live (request.parent, i) → read.Fills request d i) := by
  rw [read.respects_iff_fills]
  constructor
  . intro h i hcopies
    have hfills := h i hcopies
    refine ⟨?_, fun _ => hfills⟩
    intro hs
    exact (read.fills_iff_dvd hwf hs hcopies.file).mp hfills
  . intro h i hcopies
    by_cases hs : d.Live (request.parent, i)
    . exact (read.fills_iff_dvd hwf hs hcopies.file).mpr ((h i hcopies).1 hs)
    . exact (h i hcopies).2 hs

theorem read_respects_populated
    : read.Respects fresh_driver write.small write.populated
        ↔
      ∀ i, read.Copies write.small write.populated i →
        (write.populated.Live (write.small.parent, i) →
            CLUSTER_SIZE ∣ (write.populated.table write.small.parent i).filesize.toNat) ∧
          (¬ write.populated.Live (write.small.parent, i) →
            read.Fills write.small write.populated i) := by
  exact read_respects_iff fresh_driver write.small write.populated_wellFormed

-- a file of 5 bytes, read into a buffer of 5 bytes
theorem not_read_respects
    : write.populated.WellFormed ∧ ¬ read.Respects fresh_driver write.small write.populated := by
  refine ⟨write.populated_wellFormed, ?_⟩
  intro ⟨code, st, bufs, hrun, hbound, _⟩
  rw [write.run_read_small fresh_driver rfl rfl rfl (UInt32.le_refl _)] at hrun
  simp only [Option.some.injEq, Prod.mk.injEq] at hrun
  have hlast := hbound 2047
  rw [ClusterBuffer.isSome_byteOf, ← hrun.1.2.2] at hlast
  have hsize : write.small.buffer_size.toNat = 5 := rfl
  simp [hsize] at hlast

end AiOS
