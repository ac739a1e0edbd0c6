import AiOS.Fat32.Removal
import AiOS.Fat32.Stale
import AiOS.Lib.Store

/-!
This module contains what a disk means to those who use it: a store of named files and directories,
without the slots, the clusters and the chains behind them.
-/

namespace AiOS

open Catalog

/--
A file or directory as its users know it: the cluster number of its directory, its name and its
extension, and the bytes of a file or the cluster number of a directory.
-/
abbrev Item : Type :=
  Store.Item Nat ((Fin 8 → UInt8) × (Fin 3 → UInt8)) (List UInt8)

namespace Disk

def Content (d : Disk) (s : Nat × Fin 64) : Store.Object Nat (List UInt8) → Prop
  | .file bytes =>
    (d.entry s).attribute ≠ ATTR_SUBDIRECTORY ∧ bytes.length = (d.entry s).filesize.toNat ∧
      ∃ l, d.Owns s l ∧ ∀ k < bytes.length, ClusterBuffer.byteOf (l.map d.cluster) k = bytes[k]?
  | .directory c => (d.entry s).attribute = ATTR_SUBDIRECTORY ∧ (d.entry s).cluster = c

structure Shows (d : Disk) (s : Nat × Fin 64) (item : Item) : Prop where
  live : d.Live s
  parent : item.parent = s.1
  name : item.name = ((d.entry s).name, (d.entry s).ext)
  object : d.Content s item.object

def store (d : Disk) : Set Item :=
  {item | ∃ s, d.Shows s item}

/--
The entry in slot `s`, its chain and the bytes of a file are in `d'` what they are in `d`.
-/
structure Kept (d d' : Disk) (s : Nat × Fin 64) : Prop where
  entry : d'.entry s = d.entry s
  owns : ∀ l, d.Owns s l → d'.Owns s l
  cluster : (d.entry s).attribute ≠ ATTR_SUBDIRECTORY → ∀ l, d.Owns s l → ∀ c ∈ l,
    d'.cluster c = d.cluster c

variable {d d' : Disk} {s t : Nat × Fin 64} {item : Item}

theorem Kept.content_iff (h : Kept d d' s) (hwf : d.WellFormed) (hs : d.Live s)
    (object : Store.Object Nat (List UInt8))
    : d'.Content s object ↔ d.Content s object := by
  rcases hwf.chain s hs with ⟨l, hl, _, _⟩
  cases object with
  | directory c =>
    unfold Content
    rw [h.entry]
  | file bytes =>
    unfold Content
    rw [h.entry]
    have hbytes : (d.entry s).attribute ≠ ATTR_SUBDIRECTORY →
        l.map d'.cluster = l.map d.cluster := by
      intro hfile
      apply List.map_congr_left
      exact h.cluster hfile l hl
    constructor
    . intro ⟨hfile, hlength, m, hm, hbyte⟩
      refine ⟨hfile, hlength, l, hl, ?_⟩
      rw [hm.unique (h.owns l hl), hbytes hfile] at hbyte
      exact hbyte
    . intro ⟨hfile, hlength, m, hm, hbyte⟩
      refine ⟨hfile, hlength, l, h.owns l hl, ?_⟩
      rw [hm.unique hl] at hbyte
      rw [hbytes hfile]
      exact hbyte

theorem Kept.shows_iff (h : Kept d d' s) (hwf : d.WellFormed) (hs : d.Live s) (hs' : d'.Live s)
    : d'.Shows s item ↔ d.Shows s item := by
  constructor
  . intro hshows
    have hname := hshows.name
    rw [h.entry] at hname
    exact ⟨hs, hshows.parent, hname, (h.content_iff hwf hs _).mp hshows.object⟩
  . intro hshows
    have hname := hshows.name
    rw [← h.entry] at hname
    exact ⟨hs', hshows.parent, hname, (h.content_iff hwf hs _).mpr hshows.object⟩

theorem Content.unique {object object' : Store.Object Nat (List UInt8)} (h : d.Content s object)
    (h' : d.Content s object')
    : object = object' := by
  cases object with
  | directory c =>
    cases object' with
    | directory c' => rw [← h.2, ← h'.2]
    | file bytes' => exact absurd h.1 h'.1
  | file bytes =>
    cases object' with
    | directory c' => exact absurd h'.1 h.1
    | file bytes' =>
      rcases h with ⟨_, hlength, l, hl, hbyte⟩
      rcases h' with ⟨_, hlength', l', hl', hbyte'⟩
      have heq : bytes = bytes' := by
        apply List.ext_getElem?
        intro k
        by_cases hk : k < bytes.length
        . rw [← hbyte k hk, hl.unique hl', hbyte' k (by omega)]
        . rw [List.getElem?_eq_none (by omega), List.getElem?_eq_none (by omega)]
      rw [heq]

theorem Shows.unique {item' : Item} (h : d.Shows s item) (h' : d.Shows s item') : item = item' := by
  rcases item with ⟨parent, name, object⟩
  rcases item' with ⟨parent', name', object'⟩
  have hparent := h.parent.trans h'.parent.symm
  have hname := h.name.trans h'.name.symm
  have hobject := Content.unique h.object h'.object
  dsimp only at hparent hname hobject
  rw [hparent, hname, hobject]

theorem WellFormed.exists_content (hwf : d.WellFormed) (hs : d.Live s)
    : ∃ object, d.Content s object := by
  rcases hwf.chain s hs with ⟨l, hl, _, hlength⟩
  by_cases hdir : (d.entry s).attribute = ATTR_SUBDIRECTORY
  . exact ⟨.directory (d.entry s).cluster, hdir, rfl⟩
  . have hcount : l.length = ((d.entry s).filesize.toNat + (CLUSTER_SIZE - 1)) / CLUSTER_SIZE := by
      have hlength : l.length = (d.entry s).clusterCount := hlength
      unfold FAT32DirectoryEntry.clusterCount at hlength
      rw [if_neg hdir] at hlength
      exact hlength
    unfold CLUSTER_SIZE at hcount
    let bytes := (List.range (d.entry s).filesize.toNat).map fun k =>
      (ClusterBuffer.byteOf (l.map d.cluster) k).getD 0
    have hbytes : bytes.length = (d.entry s).filesize.toNat := by
      unfold bytes
      simp
    refine ⟨.file bytes, hdir, hbytes, l, hl, ?_⟩
    intro k hk
    rw [hbytes] at hk
    have hsome : ∃ byte, ClusterBuffer.byteOf (l.map d.cluster) k = some byte := by
      unfold ClusterBuffer.byteOf
      rw [List.getElem?_eq_getElem (by rw [List.length_map]; omega)]
      exact ⟨_, rfl⟩
    rcases hsome with ⟨byte, hbyte⟩
    unfold bytes
    rw [List.getElem?_map, List.getElem?_range hk, Option.map_some, hbyte]
    rfl

theorem WellFormed.exists_shows (hwf : d.WellFormed) (hs : d.Live s) : ∃ item, d.Shows s item := by
  rcases exists_content hwf hs with ⟨object, hobject⟩
  exact ⟨⟨s.1, ((d.entry s).name, (d.entry s).ext), object⟩, hs, rfl, rfl, hobject⟩

/--
An item is in one slot only: a directory has its own cluster, and two files of one directory differ
in name or extension.
-/
theorem Shows.slot_unique (hwf : d.WellFormed)
    (hdistinct : ∀ p, d.Directory p → (d.table p).Distinct) (hs : d.Shows s item)
    (ht : d.Shows t item)
    : s = t := by
  rcases item with ⟨parent, name, object⟩
  have hparent : s.1 = t.1 := hs.parent.symm.trans ht.parent
  have hname := hs.name.symm.trans ht.name
  rw [Prod.mk.injEq] at hname
  have hsobject := hs.object
  have htobject := ht.object
  cases object with
  | directory c =>
    have hsown := hwf.owns_dir hs.live hsobject.1
    have htown := hwf.owns_dir ht.live htobject.1
    apply hwf.eq_of_mem hs.live ht.live hsown htown List.mem_cons_self
    rw [List.mem_singleton]
    exact hsobject.2.trans htobject.2.symm
  | file bytes =>
    rcases s with ⟨p, i⟩
    rcases t with ⟨q, j⟩
    have hparent : p = q := hparent
    subst hparent
    have hp := hdistinct p hs.live.dir
    rcases lt_trichotomy i j with hlt | heq | hgt
    . exact absurd hname.2 (hp i j hs.live.slot hlt ht.live.live hsobject.1 htobject.1 hname.1)
    . rw [heq]
    . have hne := hp j i ht.live.slot hgt hs.live.live htobject.1 hsobject.1 hname.1.symm
      exact absurd hname.2.symm hne

theorem store_directory_iff (p : Nat) : Store.Directory 2 d.store p ↔ d.Directory p := by
  constructor
  . intro h
    induction h with
    | root => exact Catalog.Directory.root
    | child _ hmem hobject _ =>
      rcases hmem with ⟨s, hs⟩
      have hcontent := hs.object
      rw [hobject] at hcontent
      rw [← hcontent.2]
      exact hs.live.child hcontent.1
  . intro h
    induction h with
    | root => exact .root
    | @child q i hq hi hlive hdir ih =>
      have hs : d.Live (q, i) := ⟨hq, hi, hlive⟩
      let item : Item := ⟨q, ((d.entry (q, i)).name, (d.entry (q, i)).ext),
        .directory (d.entry (q, i)).cluster⟩
      have hshows : d.Shows (q, i) item := ⟨hs, rfl, rfl, hdir, rfl⟩
      have hmem : item ∈ d.store := ⟨(q, i), hshows⟩
      exact Store.Directory.child ih hmem rfl

section

variable (hwf : d.WellFormed)

include hwf

theorem store_same (hlive : ∀ s, d'.Live s ↔ d.Live s) (hkept : ∀ s, d.Live s → Kept d d' s)
    : d'.store = d.store := by
  ext item
  constructor
  . intro ⟨s, hs⟩
    have hold := (hlive s).mp hs.live
    exact ⟨s, ((hkept s hold).shows_iff hwf hold hs.live).mp hs⟩
  . intro ⟨s, hs⟩
    have hnew := (hlive s).mpr hs.live
    exact ⟨s, ((hkept s hs.live).shows_iff hwf hs.live hnew).mpr hs⟩

theorem store_insert (hlive : ∀ s, d'.Live s ↔ d.Live s ∨ s = t)
    (hkept : ∀ s, d.Live s → Kept d d' s) (ht : d'.Shows t item)
    : d'.store = insert item d.store := by
  ext other
  rw [Set.mem_insert_iff]
  constructor
  . intro ⟨s, hs⟩
    rcases (hlive s).mp hs.live with hold | heq
    . exact Or.inr ⟨s, ((hkept s hold).shows_iff hwf hold hs.live).mp hs⟩
    . rw [heq] at hs
      exact Or.inl (hs.unique ht)
  . intro hmem
    rcases hmem with heq | ⟨s, hs⟩
    . rw [heq]
      exact ⟨t, ht⟩
    . have hnew := (hlive s).mpr (Or.inl hs.live)
      exact ⟨s, ((hkept s hs.live).shows_iff hwf hs.live hnew).mpr hs⟩

theorem store_erase (hdistinct : ∀ p, d.Directory p → (d.table p).Distinct)
    (hlive : ∀ s, d'.Live s ↔ d.Live s ∧ s ≠ t) (hkept : ∀ s, d.Live s → s ≠ t → Kept d d' s)
    (ht : d.Shows t item)
    : d'.store = d.store \ {item} := by
  ext other
  rw [Set.mem_sdiff, Set.mem_singleton_iff]
  constructor
  . intro ⟨s, hs⟩
    have hold := (hlive s).mp hs.live
    have hshows := ((hkept s hold.1 hold.2).shows_iff hwf hold.1 hs.live).mp hs
    refine ⟨⟨s, hshows⟩, ?_⟩
    intro heq
    rw [heq] at hshows
    exact hold.2 (hshows.slot_unique hwf hdistinct ht)
  . intro ⟨⟨s, hs⟩, hne⟩
    have hst : s ≠ t := by
      intro heq
      rw [heq] at hs
      exact hne (hs.unique ht)
    have hnew := (hlive s).mpr ⟨hs.live, hst⟩
    exact ⟨s, ((hkept s hs.live hst).shows_iff hwf hs.live hnew).mpr hs⟩

end

end Disk

end AiOS
