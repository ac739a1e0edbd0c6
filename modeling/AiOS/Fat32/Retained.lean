import AiOS.Fat32.Power

/-!
This module contains what the clusters of a file hold behind its bytes, from the `write` that stores
it to its removal.
-/

namespace AiOS

open Catalog

namespace Operation.Leaves

variable {driver_state : FAT32DriverState} {d d' : Disk} {op : Operation}

theorem kept (h : op.Leaves d d') (hwf : d.WellFormed)
    (hP : d.Directory op.request.parent_cluster_number.toNat) (hok : op.Orderly (driver_state, d))
    {s : Nat × Fin 64} (hs : d.Live s)
    (hspared : ∀ dirTable request, op = .delete dirTable request →
      request.parent_cluster_number.toNat = s.1 → (d.entry s).name = request.name →
        (d.entry s).ext ≠ request.ext)
    : d'.Live s ∧ Disk.Kept d d' s := by
  cases h with
  | untouched => exact ⟨hs, rfl, fun _ hl => hl, fun _ _ _ _ _ => rfl⟩
  | @written _ _ request i cs _ hparent hsearch hst =>
    have hroot : d.Directory request.parent_cluster_number.toNat := hP
    have hdir : d.Directory request.parent := by rw [hwf.parent_eq hroot]; exact hroot
    have hch := write.chosen_of_search hsearch
    have hnodup := write.nodup_of_not_short _ _ hparent hok hsearch
    refine ⟨?_, hst.kept hch hwf hroot hnodup hs⟩
    rcases hst.entry with hold | hnew
    . exact ((hst.agrees hch hwf hold).live_iff s).mpr hs
    . exact ((hst.insert hch hwf hdir hnodup hnew).live_iff s).mpr (Or.inl hs)
  | @deleted dirTable request i cs _ hsearched hrefused hcs hst =>
    have htarget := Orderly.live hwf hP hok hsearched hrefused
    have howns := delete.owns_of_freed hwf htarget hcs
    have hname := (delete.hit_of_searched _ _ hsearched).2.2.1
    rw [memcmp_eq_zero_iff] at hname
    rcases hok i hsearched hrefused with ⟨_, hext, hempty⟩
    have hne : s ≠ (request.parent, i) := by
      intro heq
      have hparent : request.parent = request.parent_cluster_number.toNat := hwf.parent_eq hP
      rw [heq] at hspared
      exact hspared dirTable request rfl hparent.symm hname.symm hext
    refine ⟨?_, hst.kept hwf htarget howns hs hne⟩
    rcases hst.entry with hold | hdead
    . exact ((hst.agrees hwf hold).live_iff s).mpr hs
    . have hleaf : Remove.Leaf fat32 d.volume (request.parent, i) := by
        intro hdir j hj hlive
        apply hempty hdir
        exact ⟨j, (write.mem_slots j).mpr hj, hlive⟩
      exact ((hst.remove hwf htarget howns hdead).live_iff hwf hleaf s).mpr ⟨hs, hne⟩

end Operation.Leaves

/--
The file of the request is in slot `i` of its directory. Its clusters `l` hold the memory from the
buffer on, to the last byte of the last of them.
-/
structure Disk.Retains (d : Disk) (memory : UInt32 → UInt8) (request : FAT32DriverRequest)
    (i : Fin 64) (l : List Nat) : Prop where
  live : d.Live (request.parent_cluster_number.toNat, i)
  name : (d.entry (request.parent_cluster_number.toNat, i)).name = request.name
  ext : (d.entry (request.parent_cluster_number.toNat, i)).ext = request.ext
  file : (d.entry (request.parent_cluster_number.toNat, i)).attribute ≠ ATTR_SUBDIRECTORY
  filesize : (d.entry (request.parent_cluster_number.toNat, i)).filesize = request.buffer_size
  owns : d.Owns (request.parent_cluster_number.toNat, i) l
  length : l.length = write.required_clusters request
  bytes : ∀ k < 2048 * l.length,
    ClusterBuffer.byteOf (l.map d.cluster) k = some (memory (request.buf + UInt32.ofNat k))

namespace Disk.Retains

variable {d d' : Disk} {memory : UInt32 → UInt8} {newDirectoryTable : FAT32DirectoryTable}
  {request : FAT32DriverRequest} {i : Fin 64} {l : List Nat}

theorem of_kept (h : d.Retains memory request i l)
    (hlive : d'.Live (request.parent_cluster_number.toNat, i))
    (hkept : Kept d d' (request.parent_cluster_number.toNat, i))
    : d'.Retains memory request i l := by
  have hmap : l.map d'.cluster = l.map d.cluster := by
    apply List.map_congr_left
    exact hkept.cluster h.file l h.owns
  refine {
    live := hlive
    name := ?_
    ext := ?_
    file := ?_
    filesize := ?_
    owns := hkept.owns l h.owns
    length := h.length
    bytes := ?_ }
  . rw [hkept.entry]
    exact h.name
  . rw [hkept.entry]
    exact h.ext
  . rw [hkept.entry]
    exact h.file
  . rw [hkept.entry]
    exact h.filesize
  . rw [hmap]
    exact h.bytes

theorem of_effect {cs : List (Fin 512)} (h : write.Effect memory request d d' i (numbers cs))
    (hnew : write.Committed memory newDirectoryTable request d i cs d')
    (hlength : cs.length = write.required_clusters request) (hsize : request.buffer_size ≠ 0)
    : d'.Retains memory request i (numbers cs) := by
  rcases h.file hsize with ⟨hext, hfile, hfilesize, _⟩
  refine {
    live := h.live
    name := h.name
    ext := hext
    file := hfile
    filesize := hfilesize
    owns := h.chain
    length := ?_
    bytes := ?_ }
  . unfold numbers
    rw [List.length_map]
    exact hlength
  . intro k hk
    unfold numbers at hk ⊢
    rw [List.length_map] at hk
    have hlt : k / 2048 < cs.length := by omega
    have hcluster := hnew.content (k / 2048) hlt
    have hsum : k / 2048 * CLUSTER_SIZE + k % 2048 = k := by
      unfold CLUSTER_SIZE
      omega
    unfold write.content write.file_cluster at hcluster
    rw [if_neg hsize] at hcluster
    unfold ClusterBuffer.byteOf
    rw [List.map_map, List.getElem?_map, List.getElem?_eq_getElem hlt, Option.map_some,
      Option.map_some]
    dsimp only [Function.comp_apply]
    rw [hcluster, ClusterBuffer.byte_ofBytes, hsum]

theorem of_serve {s s' : FAT32DriverState × Disk} (hs : Recovered s)
    (hok : (Operation.write memory newDirectoryTable request).Orderly s)
    (hsize : request.buffer_size ≠ 0)
    (hstep : powered.step s (.serve (.write memory newDirectoryTable request) 0) s')
    : ∃ i l, s'.2.Retains memory request i l := by
  rcases s with ⟨driver_state, d⟩
  rcases s' with ⟨driver_state', d'⟩
  rcases hstep with ⟨hroot, hevent⟩
  have hwf : d.WellFormed := hs.wellFormed
  have hrun : (write driver_state memory newDirectoryTable request).run diskDevice d
      = some ((0, driver_state'), d') := hevent
  have hroot : d.Directory request.parent_cluster_number.toNat := hroot
  have hP : d.Directory request.parent := by rw [hwf.parent_eq hroot]; exact hroot
  rcases write.run_cases _ _ _ _ _ hrun with ⟨hcode, _, _⟩ | hcommit
  . exact absurd rfl hcode
  . rcases hcommit with ⟨i, cs, _, hparent, hsearch, _, rfl⟩
    have hch := write.chosen_of_search hsearch
    have hnodup := write.nodup_of_not_short _ _ hparent hok hsearch
    have hst := write.staged_of_chosen memory newDirectoryTable hch hwf hP hnodup
    have hnew := write.committed_of_chosen memory newDirectoryTable hch hwf hP hnodup
    have heffect := write.effect_of_staged hwf hroot hch hnodup hst hnew
    exact ⟨i, _, of_effect heffect hnew hch.length hsize⟩

theorem of_step {s s' : FAT32DriverState × Disk} {e : PowerEvent} (hs : Recovered s)
    (hok : e.operation.Orderly s) (hdeletes : ¬ e.Deletes request) (hstep : powered.step s e s')
    (h : s.2.Retains memory request i l)
    : s'.2.Retains memory request i l := by
  have hleaves := (hs.leaves_of_step hok hstep).1
  have hspared : ∀ dirTable r, e.operation = .delete dirTable r →
      r.parent_cluster_number.toNat = request.parent_cluster_number.toNat →
        (s.2.entry (request.parent_cluster_number.toNat, i)).name = r.name →
          (s.2.entry (request.parent_cluster_number.toNat, i)).ext ≠ r.ext := by
    intro dirTable r hop hparent hname hext
    apply hdeletes
    unfold PowerEvent.Deletes
    rw [hop]
    exact ⟨UInt32.toNat_inj.mp hparent, hname.symm.trans h.name, hext.symm.trans h.ext⟩
  rcases hleaves.kept hs.wellFormed hstep.1 hok h.live hspared with ⟨hlive, hkept⟩
  exact h.of_kept hlive hkept

end Disk.Retains

/--
What a `write` has stored stays on the disk to the last byte of its last cluster, whatever else is
asked of the driver and however often the power fails, until somebody asks for its deletion.
-/
theorem Recovered.exists_retains {s₁ s₂ s : FAT32DriverState × Disk} {memory : UInt32 → UInt8}
    {newDirectoryTable : FAT32DirectoryTable} {request : FAT32DriverRequest}
    (h : Recovered s₁) (hok : (Operation.write memory newDirectoryTable request).Orderly s₁)
    (hsize : request.buffer_size ≠ 0)
    (hwrite : powered.step s₁ (.serve (.write memory newDirectoryTable request) 0) s₂)
    (hleads : powered.Leads (fun s e => e.operation.Orderly s ∧ ¬ e.Deletes request) s₂ s)
    : Recovered s ∧ ∃ i l, s.2.Retains memory request i l := by
  have hevent : (PowerEvent.serve (.write memory newDirectoryTable request) 0).operation.Orderly s₁ :=
    hok
  apply hleads.invariant (I := fun s => Recovered s ∧ ∃ i l, s.2.Retains memory request i l)
  . exact ⟨h.of_step hevent hwrite, Disk.Retains.of_serve h hok hsize hwrite⟩
  . intro s e s' ⟨hs, i, l, hretains⟩ ⟨hok, hdeletes⟩ hstep
    exact ⟨hs.of_step hok hstep, i, l, hretains.of_step hs hok hdeletes hstep⟩

end AiOS
