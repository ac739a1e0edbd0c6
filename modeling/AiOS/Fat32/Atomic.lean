import AiOS.Fat32.Content

/-!
This module contains what a `write` or a `delete` that is cut off anywhere makes of the store: either
nothing, or all that it makes of it when it runs to its end.
-/

namespace AiOS

open Catalog

def FAT32DriverRequest.bytes (memory : UInt32 → UInt8) (request : FAT32DriverRequest) : List UInt8 :=
  (List.range request.buffer_size.toNat).map fun k => memory (request.buf + UInt32.ofNat k)

namespace Operation

/--
The changes of the store that an operation may be asked for. A new directory takes the extension that
its slot has had before.
-/
inductive Asks : Operation → Store.Change Nat ((Fin 8 → UInt8) × (Fin 3 → UInt8)) (List UInt8) → Prop
  where
  | file {memory : UInt32 → UInt8} {newDirectoryTable : FAT32DirectoryTable}
      {request : FAT32DriverRequest} : request.buffer_size ≠ 0 →
    Asks (.write memory newDirectoryTable request)
      (.create ⟨request.parent_cluster_number.toNat, (request.name, request.ext),
        .file (request.bytes memory)⟩)
  | directory {memory : UInt32 → UInt8} {newDirectoryTable : FAT32DirectoryTable}
      {request : FAT32DriverRequest} {ext : Fin 3 → UInt8} {c : Nat} : request.buffer_size = 0 →
    Asks (.write memory newDirectoryTable request)
      (.create ⟨request.parent_cluster_number.toNat, (request.name, ext), .directory c⟩)
  | remove {dirTable : FAT32DirectoryTable} {request : FAT32DriverRequest}
      {object : Store.Object Nat (List UInt8)} :
    Asks (.delete dirTable request)
      (.remove ⟨request.parent_cluster_number.toNat, (request.name, request.ext), object⟩)

namespace Asks

theorem of_remove {op : Operation} {item : Item} (h : op.Asks (.remove item))
    : ∃ dirTable request, op = .delete dirTable request ∧
        item.parent = request.parent_cluster_number.toNat ∧
        item.name = (request.name, request.ext) := by
  generalize hchange : Store.Change.remove item = change at h
  cases h with
  | file _ => contradiction
  | directory _ => contradiction
  | @remove dirTable request object =>
    injection hchange with hitem
    rw [hitem]
    exact ⟨dirTable, request, rfl, rfl, rfl⟩

theorem of_file {memory : UInt32 → UInt8} {newDirectoryTable : FAT32DirectoryTable}
    {request : FAT32DriverRequest}
    {change : Store.Change Nat ((Fin 8 → UInt8) × (Fin 3 → UInt8)) (List UInt8)}
    (h : (Operation.write memory newDirectoryTable request).Asks change)
    (hsize : request.buffer_size ≠ 0)
    : change = .create ⟨request.parent_cluster_number.toNat, (request.name, request.ext),
        .file (request.bytes memory)⟩ := by
  cases h with
  | file _ => rfl
  | directory hzero => exact absurd hzero hsize

end Asks

def Makes (op : Operation) (S S' : Set Item) : Prop :=
  ∃ change, op.Asks change ∧ (Store.system 2).step S change S'

end Operation

namespace write

variable {memory : UInt32 → UInt8} {newDirectoryTable : FAT32DirectoryTable}
  {request : FAT32DriverRequest} {d d' : Disk} {i : Fin 64} {cs : List (Fin 512)}

theorem length_bytes : (request.bytes memory).length = request.buffer_size.toNat := by
  unfold FAT32DriverRequest.bytes
  simp

theorem getElem?_bytes {k : Nat} (hk : k < request.buffer_size.toNat)
    : (request.bytes memory)[k]? = some (memory (request.buf + UInt32.ofNat k)) := by
  unfold FAT32DriverRequest.bytes
  rw [List.getElem?_map, List.getElem?_range hk]
  rfl

section

variable (h : Staged memory newDirectoryTable request d i cs d') (hch : Chosen request d i cs)
  (hwf : d.WellFormed) (hP : d.Directory request.parent_cluster_number.toNat) (hnodup : cs.Nodup)

include h hch hwf hP hnodup

theorem Staged.kept {s : Nat × Fin 64} (hs : d.Live s) : Disk.Kept d d' s := by
  have heq := hwf.parent_eq hP
  rw [← heq] at hP
  have hne : s ≠ (request.parent, i) := by
    intro heq
    have hlive := hs.live
    rw [heq] at hlive
    exact hch.dead hlive
  refine { entry := ?_, owns := ?_, cluster := ?_ }
  . apply h.table_eq hch hwf hs.dir hne
  . intro l hl
    apply h.owns hch hwf hP hnodup hs hl
  . intro hfile l hl c hc
    apply h.cluster_eq hch hwf hP hs hfile hl hc

theorem Staged.store_eq (hold : d'.table request.parent = d.table request.parent)
    : d'.store = d.store := by
  have hagrees := h.agrees hch hwf hold
  apply Disk.store_same hwf
  . intro s
    apply hagrees.live_iff
  . intro s hs
    apply h.kept hch hwf hP hnodup hs

theorem Staged.makes_of_committed (hnew : Committed memory newDirectoryTable request d i cs d')
    (hnames : ∀ j ∈ slots, ¬ named (d.table request.parent) request j)
    : (Operation.write memory newDirectoryTable request).Makes d.store d'.store := by
  have heffect := effect_of_staged hwf hP hch hnodup h hnew
  have heq := hwf.parent_eq hP
  have hP' := hP
  rw [← heq] at hP'
  have hins := h.insert hch hwf hP' hnodup hnew
  have hlive := hins.live_iff
  have hkept : ∀ s, d.Live s → Disk.Kept d d' s := fun s hs => h.kept hch hwf hP hnodup hs
  have hparent : Store.Directory 2 d.store request.parent_cluster_number.toNat :=
    (d.store_directory_iff _).mpr hP
  rw [heq] at hlive
  by_cases hsize : request.buffer_size = 0
  . rcases heffect.directory hsize with ⟨hdir, _⟩
    let item : Item := ⟨request.parent_cluster_number.toNat,
      (request.name, (d'.entry (request.parent_cluster_number.toNat, i)).ext),
      .directory (d'.entry (request.parent_cluster_number.toNat, i)).cluster⟩
    have hshows : d'.Shows (request.parent_cluster_number.toNat, i) item := by
      refine ⟨heffect.live, rfl, ?_, hdir, rfl⟩
      rw [heffect.name]
    have hown := heffect.wellFormed.owns_dir heffect.live hdir
    have hcs := heffect.chain.unique hown
    have hfresh : ¬ d.Directory (d'.entry (request.parent_cluster_number.toNat, i)).cluster := by
      intro hold
      apply hwf.not_mem_of_fresh hold hch.isData
      . intro s m hs hm
        apply hwf.disjoint_of_free hch.isFree hs hm
      . rw [hcs]
        exact List.mem_cons_self
    refine ⟨.create item, .directory hsize, ?_, ?_⟩
    . apply Store.Change.Allowed.directory hparent rfl
      . rw [Disk.store_directory_iff]
        exact hfresh
      . intro other hmem heq
        rcases hmem with ⟨s, hs⟩
        apply hfresh
        rw [← heq, hs.parent]
        exact hs.live.dir
    . apply Disk.store_insert hwf hlive hkept hshows
  . rcases heffect.file hsize with ⟨hext, hfile, hfilesize, hholds⟩
    let item : Item := ⟨request.parent_cluster_number.toNat, (request.name, request.ext),
      .file (request.bytes memory)⟩
    have hshows : d'.Shows (request.parent_cluster_number.toNat, i) item := by
      refine ⟨heffect.live, rfl, ?_, hfile, ?_, _, heffect.chain, ?_⟩
      . rw [heffect.name, hext]
      . rw [length_bytes, hfilesize]
      . intro k hk
        rw [length_bytes] at hk
        rw [hholds k hk, getElem?_bytes hk]
    refine ⟨.create item, .file hsize, ?_, ?_⟩
    . apply Store.Change.Allowed.file hparent rfl
      intro other hmem hsame hname
      rcases hmem with ⟨s, hs⟩
      have hs1 : s.1 = request.parent := by
        rw [heq, ← hs.parent]
        exact hsame
      have hnames := hnames s.2 ((mem_slots s.2).mpr hs.live.slot)
      have hsname := hs.name
      rw [hname, Prod.mk.injEq] at hsname
      apply hnames
      rw [← hs1]
      exact ⟨hs.live.live, hsname.1, hsname.2⟩
    . apply Disk.store_insert hwf hlive hkept hshows

end

end write

namespace delete

variable {dirTable : FAT32DirectoryTable} {request : FAT32DriverRequest} {d d' : Disk} {i : Fin 64}
  {cs : List (Fin 512)}

section

variable (h : Staged request d i cs d') (hwf : d.WellFormed) (hs : d.Live (request.parent, i))

include h hwf hs

theorem Staged.kept (hcs : d.Owns (request.parent, i) (numbers cs)) {s : Nat × Fin 64}
    (hsl : d.Live s) (hne : s ≠ (request.parent, i))
    : Disk.Kept d d' s := by
  have hbounds := hwf.directory_bounds hsl.dir
  refine { entry := ?_, owns := ?_, cluster := ?_ }
  . apply h.table_eq (by omega) hne
  . intro l hl
    apply h.owns hwf hs hcs hsl hne hl
  . intro hfile l hl c hc
    apply h.cluster_eq hwf hs hsl hfile hl hc

theorem Staged.store_eq
    (hold : d'.table request.parent = d.table request.parent ∧ d'.fat = d.fat)
    : d'.store = d.store := by
  have hagrees := h.agrees hwf hold
  apply Disk.store_same hwf
  . intro s
    apply hagrees.live_iff
  . intro s hsl
    refine { entry := hagrees.entry_eq hsl, owns := ?_, cluster := ?_ }
    . intro l hl
      apply hagrees.owns hsl hl
    . intro hfile l hl c hc
      apply h.cluster_eq hwf hs hsl hfile hl hc

theorem Staged.makes_of_dead (hcs : d.Owns (request.parent, i) (numbers cs))
    (hdead : d'.table request.parent = dead_table request d i ∧ ∀ j, j ∉ cs → d'.fat j = d.fat j)
    (hdistinct : ∀ p, d.Directory p → (d.table p).Distinct)
    (hname : (d.table request.parent i).name = request.name)
    (hext : (d.table request.parent i).ext = request.ext)
    (hleaf : Remove.Leaf fat32 d.volume (request.parent, i))
    (heq : request.parent = request.parent_cluster_number.toNat)
    : (Operation.delete dirTable request).Makes d.store d'.store := by
  have hrem := h.remove hwf hs hcs hdead
  rcases hwf.exists_content hs with ⟨object, hobject⟩
  let item : Item := ⟨request.parent_cluster_number.toNat, (request.name, request.ext), object⟩
  have hshows : d.Shows (request.parent, i) item := by
    refine ⟨hs, heq.symm, ?_, hobject⟩
    unfold Disk.entry
    dsimp only
    rw [hname, hext]
  refine ⟨.remove item, .remove, ?_, ?_⟩
  . have hmem : item ∈ d.store := ⟨_, hshows⟩
    apply Store.Change.Allowed.remove hmem
    intro c hc other hmem hother
    rcases hmem with ⟨t, ht⟩
    have hc : object = .directory c := hc
    rw [hc] at hobject
    apply hleaf hobject.1 t.2 ht.live.slot
    have hfirst : fat32.first (d.volume.entry (request.parent, i)) = t.1 := by
      rw [← ht.parent, hother]
      exact hobject.2
    rw [hfirst]
    exact ht.live.live
  . apply Disk.store_erase hwf hdistinct _ _ hshows
    . intro s
      apply hrem.live_iff hwf hleaf
    . intro s hsl hne
      apply h.kept hwf hs hcs hsl hne

end

end delete

end AiOS
