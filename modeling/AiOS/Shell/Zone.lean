import AiOS.Shell.Calls

/-!
This module contains what the requests of `cp` do to the disk while it copies a directory: entries
come into the directory `up` under the one name of the copy, and into the directories below these.
All other directories stay as they are.
-/

namespace AiOS

open Catalog

theorem findDirEntryIndex_eq_some_iff {table : FAT32DirectoryTable} {name : Fin 8 → UInt8}
    {i : Fin 64}
    : findDirEntryIndex table name = some i
        ↔
      ((table i).name = name ∧ (table i).user_attribute = UATTR_NOT_EMPTY) ∧
        ∀ j < i, ¬ ((table j).name = name ∧ (table j).user_attribute = UATTR_NOT_EMPTY) := by
  have hpairwise : (List.finRange 64).Pairwise (· < ·) := List.pairwise_lt_finRange 64
  unfold findDirEntryIndex
  rw [Slots.find?_eq_some_iff hpairwise]
  simp only [List.mem_finRange, true_and, true_implies, memcmp_eq_zero_iff, decide_eq_true_eq,
    decide_eq_false_iff_not]

theorem findDirEntryIndex_congr {table table' : FAT32DirectoryTable} {name : Fin 8 → UInt8}
    (h : ∀ i, table' i = table i ∨ ((table i).user_attribute ≠ UATTR_NOT_EMPTY ∧
      (table' i).name ≠ name))
    : findDirEntryIndex table' name = findDirEntryIndex table name := by
  unfold findDirEntryIndex
  congr 1
  funext i
  simp only [memcmp_eq_zero_iff, decide_eq_decide]
  rcases h i with heq | ⟨hdead, hname⟩
  . rw [heq]
  . simp [hdead, hname]

theorem FAT32DirectoryTable.Dotted.name_ne {table : FAT32DirectoryTable} (h : table.Dotted)
    {x : Component} (hx : x.name ≠ dotdot)
    : (table 1).name ≠ x.name := by
  intro heq
  have hzero : x.name 2 = 0 := by
    rw [← heq]
    exact h.2.2
  have hlen : x.chars.length ≤ 2 := by
    by_contra hlen
    have hchar : x.chars.getD 2 0 = 0 := hzero
    rw [List.getD_eq_getElem _ _ (by omega)] at hchar
    apply x.zero_not_mem
    rw [← hchar]
    apply List.getElem_mem
  apply hx
  rw [← heq]
  funext k
  have hcases : k = 0 ∨ k = 1 ∨ 2 ≤ k.val := by omega
  rcases hcases with rfl | rfl | hk
  . exact h.1
  . exact h.2.1
  . rw [heq]
    have hbehind : x.name k = 0 := List.getD_eq_default _ _ (by omega)
    have hdots : dotdot k = 0 := List.getD_eq_default _ _ (by simpa using hk)
    rw [hbehind, hdots]

namespace Disk

/--
The directories that `up` has under the name and those below them, with the names under which they
are listed.
-/
inductive Inside (d : Disk) (up : UInt32) (name : Fin 8 → UInt8)
    : UInt32 → (Fin 8 → UInt8) → Prop where
  | entry {i : Fin 64} {m : UInt32} : d.graph.child up i = some m →
    (d.table (clusterIndex up) i).name = name → Inside d up name m name
  | child {dir m : UInt32} {x : Fin 8 → UInt8} {i : Fin 64} : Inside d up name dir x →
    d.graph.child dir i = some m → Inside d up name m (d.table (clusterIndex dir) i).name

structure Outside (d : Disk) (up : UInt32) (name : Fin 8 → UInt8) (dir : UInt32) : Prop where
  tree : d.Tree dir
  apart : ∀ x, ¬ d.Inside up name dir x

/--
A path that the lookups follow from `dir` to `target` outside of these directories. It may also pass
through one of them, on its way back to where the entries 0 and 1 lead.
-/
inductive Way (d : Disk) (up : UInt32) (name : Fin 8 → UInt8)
    : UInt32 → List (Fin 8 → UInt8) → UInt32 → Prop where
  | nil {dir : UInt32} : Way d up name dir [] dir
  | outside {dir m target : UInt32} {x : Fin 8 → UInt8} {xs : List (Fin 8 → UInt8)} :
    d.Outside up name dir → dir ≠ up ∨ x ≠ name → d.look dir x = .inl m → Way d up name m xs target →
      Way d up name dir (x :: xs) target
  | back {dir m target : UInt32} {x : Fin 8 → UInt8} {xs : List (Fin 8 → UInt8)} {i : Fin 64} :
    d.Tree dir → i.val < 2 → findDirEntryIndex (d.table (clusterIndex dir)) x = some i →
      d.look dir x = .inl m → Way d up name m xs target → Way d up name dir (x :: xs) target

section

variable {d d' : Disk} {dir : UInt32} {name : Fin 8 → UInt8} {size : UInt32} {i : Fin 64} {c : Nat}

theorem occupied_of_tree (hwf : d.WellFormed) (hdir : d.Tree dir)
    : d.Occupied (clusterIndex dir) := by
  have hdirectory := (tree_iff hwf).mp hdir
  rw [clusterIndex_of_tree hwf hdir]
  cases hwf.directory_cases hdirectory with
  | inl hroot => exact Or.inl hroot
  | inr hchild =>
    rcases hchild with ⟨s, hs, _, hown⟩
    have hdata : 3 ≤ dir.toNat ∧ dir.toNat < 512 := hwf.data hs hown _ List.mem_cons_self
    exact Or.inr ⟨hdata.1, hwf.next_ne_free hs hown List.mem_cons_self⟩

section

variable {up m : UInt32} {x : Fin 8 → UInt8}

theorem tree_of_child (hdir : d.Tree dir) (hchild : d.graph.child dir i = some m) : d.Tree m := by
  rw [graph_child_eq_some_iff] at hchild
  rw [← hchild.2.2]
  exact Tree.child hdir hchild.1 hchild.2.1

theorem tree_of_inside (hup : d.Tree up) (h : d.Inside up name m x) : d.Tree m := by
  induction h with
  | entry hchild _ => exact tree_of_child hup hchild
  | child _ hchild ih => exact tree_of_child ih hchild

theorem lists_of_inside (hup : d.Tree up) (h : d.Inside up name m x)
    : ∃ dir i, d.Tree dir ∧ d.Lists dir i ∧
        (d.table (clusterIndex dir) i).attribute = ATTR_SUBDIRECTORY ∧
        (d.table (clusterIndex dir) i).cluster_number = m ∧
        (d.table (clusterIndex dir) i).name = x := by
  cases h with
  | entry hchild hname =>
    rw [graph_child_eq_some_iff] at hchild
    exact ⟨up, _, hup, hchild.1, hchild.2.1, hchild.2.2, hname⟩
  | child hinside hchild =>
    rw [graph_child_eq_some_iff] at hchild
    exact ⟨_, _, tree_of_inside hup hinside, hchild.1, hchild.2.1, hchild.2.2, rfl⟩

theorem ne_root_of_inside (hwf : d.WellFormed) (hup : d.Tree up) (h : d.Inside up name m x)
    : m ≠ ROOT_CLUSTER_NUMBER := by
  rcases lists_of_inside hup h with ⟨dir, i, hdir, hlists, hsub, rfl, _⟩
  exact ne_root_of_lists hwf hdir hlists hsub

variable (name) in
theorem outside_root (hwf : d.WellFormed) (hup : d.Tree up)
    : d.Outside up name ROOT_CLUSTER_NUMBER := by
  refine ⟨Tree.root, ?_⟩
  intro x hx
  exact ne_root_of_inside hwf hup hx rfl

variable (name) in
theorem outside_self (hwf : d.WellFormed) (hup : d.Tree up) : d.Outside up name up := by
  have hchild : ∀ {dir m i}, d.Tree dir → d.graph.child dir i = some m →
      Child fat32 d.volume dir.toNat m.toNat := by
    intro dir m i hdir hm
    rw [graph_child_eq_some_iff] at hm
    rw [← hm.2.2]
    exact child_of_lists hwf hdir hm.1 hm.2.1
  have hbelow : ∀ m x, d.Inside up name m x →
      Relation.TransGen (Child fat32 d.volume) up.toNat m.toNat := by
    intro m x h
    induction h with
    | entry hm _ => exact Relation.TransGen.single (hchild hup hm)
    | child hdir hm ih => exact ih.tail (hchild (tree_of_inside hup hdir) hm)
  refine ⟨hup, ?_⟩
  intro x hx
  exact hwf.not_below_self ((tree_iff hwf).mp hup) (hbelow up x hx)

end

namespace Enters

variable (h : d.Enters d' dir name size i c)

include h

theorem ne_of_occupied {q : Nat} (hq : d.Occupied q) : q ≠ c := by
  intro heq
  have hdata := h.data
  cases hq with
  | inl hroot => omega
  | inr hused =>
    apply hused.2
    rw [heq]
    exact h.empty

theorem head {q : Nat} (hq : d.Occupied q) {j : Fin 64} (hj : j.val < 2)
    : d'.table q j = d.table q j := by
  by_cases heq : q = clusterIndex dir
  . have hne : j ≠ i := by
      intro heq
      have := h.slot
      rw [heq] at hj
      omega
    rw [heq]
    exact h.table j hne
  . rw [h.cluster q hq heq]

end Enters
end

/--
What has become of the disk `d` while directories were copied to the name in the directory `up`.
`Z` says which clusters the directories with that name and those below them have, and under which
names: the ones that are new, and the ones that were there.
-/
structure Copying (d d' : Disk) (up : UInt32) (name : Fin 8 → UInt8)
    (Z : Nat → (Fin 8 → UInt8) → Prop) : Prop where
  next : ∀ q, d.fat.next q ≠ 0 → d'.fat.next q = d.fat.next q
  head : ∀ dir, d.Tree dir → ∀ j : Fin 64, j.val < 2 →
    d'.table (clusterIndex dir) j = d.table (clusterIndex dir) j
  outside : ∀ dir, d.Outside up name dir → dir ≠ up →
    d'.table (clusterIndex dir) = d.table (clusterIndex dir)
  above : ∀ i, d'.table (clusterIndex up) i = d.table (clusterIndex up) i ∨
    (2 ≤ i.val ∧ (d.table (clusterIndex up) i).user_attribute ≠ UATTR_NOT_EMPTY ∧
      (d'.table (clusterIndex up) i).name = name ∧
      (d'.table (clusterIndex up) i).attribute = ATTR_SUBDIRECTORY)
  enter : ∀ i : Fin 64, 2 ≤ i.val →
    (d'.table (clusterIndex up) i).user_attribute = UATTR_NOT_EMPTY →
    (d'.table (clusterIndex up) i).attribute = ATTR_SUBDIRECTORY →
    (d'.table (clusterIndex up) i).name = name → Z (d'.table (clusterIndex up) i).cluster name
  occupied : ∀ c x, Z c x → 3 ≤ c ∧ d'.fat.next c ≠ 0
  apart : ∀ c x dir, Z c x → d.Outside up name dir → clusterIndex dir ≠ c
  own : ∀ c x, Z c x → (d'.table c 0).name = x
  dotted : ∀ c x, Z c x → (d'.table c).Dotted
  closed : ∀ c x, Z c x → ∀ i : Fin 64, 2 ≤ i.val →
    (d'.table c i).user_attribute = UATTR_NOT_EMPTY →
    (d'.table c i).attribute = ATTR_SUBDIRECTORY → Z (d'.table c i).cluster (d'.table c i).name

namespace Copying

variable {d d' d'' : Disk} {up dir : UInt32} {name x : Fin 8 → UInt8} {size : UInt32}
  {Z : Nat → (Fin 8 → UInt8) → Prop} (h : d.Copying d' up name Z) (hwf : d.WellFormed)

include h

section

include hwf

theorem occupied_of_tree (hdir : d.Tree dir) : d'.Occupied (clusterIndex dir) := by
  cases Disk.occupied_of_tree hwf hdir with
  | inl hroot => exact Or.inl hroot
  | inr hused =>
    right
    rw [h.next _ hused.2]
    exact hused

section

variable {i : Fin 64} {c : Nat} (henters : d'.Enters d'' dir x size i c)
  (hdir : (dir = up ∧ x = name ∧ size = 0) ∨ ∃ y, Z (clusterIndex dir) y)
  (hup : d.Outside up name up)

include henters hdir hup

theorem above_of_enters (j : Fin 64)
    : d''.table (clusterIndex up) j = d.table (clusterIndex up) j ∨
      (2 ≤ j.val ∧ (d.table (clusterIndex up) j).user_attribute ≠ UATTR_NOT_EMPTY ∧
        (d''.table (clusterIndex up) j).name = name ∧
        (d''.table (clusterIndex up) j).attribute = ATTR_SUBDIRECTORY) := by
  rcases hdir with ⟨rfl, hx, hsize⟩ | ⟨y, hy⟩
  . by_cases hj : j = i
    . right
      rw [hj]
      refine ⟨henters.slot, ?_, henters.named.trans hx, henters.isDir.mpr hsize⟩
      rcases h.above i with heq | hnew
      . rw [← heq]
        exact henters.dead
      . exact hnew.2.1
    . rw [henters.table j hj]
      exact h.above j
  . rw [henters.cluster _ (h.occupied_of_tree hwf hup.tree) (h.apart _ y up hy hup)]
    exact h.above j

theorem enter_of_enters {j : Fin 64} (hj : 2 ≤ j.val)
    (hlive : (d''.table (clusterIndex up) j).user_attribute = UATTR_NOT_EMPTY)
    (hsub : (d''.table (clusterIndex up) j).attribute = ATTR_SUBDIRECTORY)
    (hname : (d''.table (clusterIndex up) j).name = name)
    : Z (d''.table (clusterIndex up) j).cluster name ∨
      (size = 0 ∧ (d''.table (clusterIndex up) j).cluster = c ∧ name = x) := by
  rcases hdir with ⟨rfl, hx, hsize⟩ | ⟨y, hy⟩
  . by_cases hji : j = i
    . rw [hji]
      exact Or.inr ⟨hsize, henters.first, hx.symm⟩
    . rw [henters.table j hji] at hlive hsub hname ⊢
      exact Or.inl (h.enter j hj hlive hsub hname)
  . rw [henters.cluster _ (h.occupied_of_tree hwf hup.tree) (h.apart _ y up hy hup)]
      at hlive hsub hname ⊢
    exact Or.inl (h.enter j hj hlive hsub hname)

omit hwf hdir hup in
theorem closed_of_enters {q : Nat} {y : Fin 8 → UInt8}
    (hq : Z q y ∨ (size = 0 ∧ q = c ∧ y = x)) {j : Fin 64} (hj : 2 ≤ j.val)
    (hlive : (d''.table q j).user_attribute = UATTR_NOT_EMPTY)
    (hsub : (d''.table q j).attribute = ATTR_SUBDIRECTORY)
    : Z (d''.table q j).cluster (d''.table q j).name ∨
      (size = 0 ∧ (d''.table q j).cluster = c ∧ (d''.table q j).name = x) := by
  rcases hq with hq | ⟨hsize, rfl, rfl⟩
  . by_cases hdir' : q = clusterIndex dir
    . rw [hdir'] at hq hlive hsub ⊢
      by_cases hji : j = i
      . rw [hji] at hsub ⊢
        exact Or.inr ⟨henters.isDir.mp hsub, henters.first, henters.named⟩
      . rw [henters.table j hji] at hlive hsub ⊢
        exact Or.inl (h.closed _ y hq j hj hlive hsub)
    . rw [henters.cluster q (Or.inr (h.occupied q y hq)) hdir'] at hlive hsub ⊢
      exact Or.inl (h.closed q y hq j hj hlive hsub)
  . -- nothing is listed in the new directory
    rcases (henters.founded hsize).2 with ⟨old, htable⟩
    rw [htable] at hlive
    exact absurd hlive (init_directory_table_of_le _ _ _ hj)

theorem of_enters
    : d.Copying d'' up name fun q y => Z q y ∨ (size = 0 ∧ q = c ∧ y = x) := by
  have hother : ∀ q y, Z q y → d'.Occupied q := fun q y hq => Or.inr (h.occupied q y hq)
  constructor
  case next =>
    intro q hq
    have hold := h.next q hq
    rw [henters.next q (by rw [hold]; exact hq), hold]
  case head =>
    intro dir' hdir' j hj
    rw [henters.head (h.occupied_of_tree hwf hdir') hj, h.head dir' hdir' j hj]
  case outside =>
    intro dir' hdir' hne
    rw [henters.cluster _ (h.occupied_of_tree hwf hdir'.tree), h.outside dir' hdir' hne]
    rcases hdir with ⟨rfl, _, _⟩ | ⟨y, hy⟩
    . rw [clusterIndex_of_tree hwf hdir'.tree, clusterIndex_of_tree hwf hup.tree]
      intro heq
      exact hne (UInt32.toNat_inj.mp heq)
    . exact h.apart _ y dir' hy hdir'
  case above => exact h.above_of_enters hwf henters hdir hup
  case enter =>
    intro j hj
    apply h.enter_of_enters hwf henters hdir hup hj
  case occupied =>
    intro q y hq
    rcases hq with hq | ⟨hsize, rfl, _⟩
    . have hold := h.occupied q y hq
      rw [henters.next q hold.2]
      exact hold
    . exact ⟨henters.data.1, (henters.founded hsize).1⟩
  case apart =>
    intro q y dir' hq hdir'
    rcases hq with hq | ⟨_, rfl, _⟩
    . exact h.apart q y dir' hq hdir'
    . exact henters.ne_of_occupied (h.occupied_of_tree hwf hdir'.tree)
  case own =>
    intro q y hq
    rcases hq with hq | ⟨hsize, rfl, rfl⟩
    . rw [henters.head (hother q y hq) (by decide)]
      exact h.own q y hq
    . rcases (henters.founded hsize).2 with ⟨old, htable⟩
      rw [htable]
      rfl
  case dotted =>
    intro q y hq
    rcases hq with hq | ⟨hsize, rfl, rfl⟩
    . unfold FAT32DirectoryTable.Dotted
      rw [henters.head (hother q y hq) (by decide)]
      exact h.dotted q y hq
    . rcases (henters.founded hsize).2 with ⟨old, htable⟩
      rw [htable]
      apply FAT32DirectoryTable.Dotted.of_init
  case closed =>
    intro q y hq j hj
    apply h.closed_of_enters henters hq hj

end

theorem of_written (hwritten : d'.Written d'' dir x size)
    (hdir : (dir = up ∧ x = name ∧ size = 0) ∨ ∃ y, Z (clusterIndex dir) y)
    (hup : d.Outside up name up)
    : ∃ Z', d.Copying d'' up name Z' := by
  have hoccupied : d'.Occupied (clusterIndex dir) := by
    rcases hdir with ⟨rfl, _⟩ | ⟨y, hy⟩
    . exact h.occupied_of_tree hwf hup.tree
    . exact Or.inr (h.occupied _ y hy)
  rcases hwritten.cases hoccupied with rfl | ⟨i, c, henters⟩
  . exact ⟨Z, h⟩
  . exact ⟨_, h.of_enters hwf henters hdir hup⟩

end

omit h in
theorem refl (hwf : d.WellFormed) (hlinked : d.Linked)
    (hdotted : ∀ p, d.Directory p → (d.table p).Dotted) (hup : d.Tree up)
    : d.Copying d up name fun c x => ∃ dir, d.Inside up name dir x ∧ clusterIndex dir = c := by
  constructor
  case next => simp
  case head => simp
  case outside => simp
  case above => simp
  case enter =>
    intro i hi hlive hsub hname
    have hchild : d.graph.child up i = some (d.table (clusterIndex up) i).cluster_number :=
      graph_child_eq_some_iff.mpr ⟨⟨hi, hlive⟩, hsub, rfl⟩
    refine ⟨_, .entry hchild hname, ?_⟩
    rw [clusterIndex_of_tree hwf (tree_of_child hup hchild),
      FAT32DirectoryEntry.toNat_cluster_number]
  case occupied =>
    intro c x ⟨dir, hdir, hc⟩
    have hused := Disk.occupied_of_tree hwf (tree_of_inside hup hdir)
    rw [hc] at hused
    cases hused with
    | inl hroot =>
      apply absurd _ (ne_root_of_inside hwf hup hdir)
      apply UInt32.toNat_inj.mp
      rw [← clusterIndex_of_tree hwf (tree_of_inside hup hdir), hc, hroot]
      rfl
    | inr hused => exact hused
  case apart =>
    intro c x dir ⟨dir', hdir', hc⟩ hdir heq
    apply hdir.apart x
    rw [← hc, clusterIndex_of_tree hwf hdir.tree,
      clusterIndex_of_tree hwf (tree_of_inside hup hdir')] at heq
    rw [UInt32.toNat_inj.mp heq]
    exact hdir'
  case own =>
    intro c x ⟨dir, hdir, hc⟩
    rcases lists_of_inside hup hdir with ⟨dir', i, hdir', hlists, hsub, rfl, rfl⟩
    rw [← hc]
    exact (hlinked.entries hwf hdir' hlists hsub).2
  case dotted =>
    intro c x ⟨dir, hdir, hc⟩
    have htree := tree_of_inside hup hdir
    rw [← hc, clusterIndex_of_tree hwf htree]
    exact hdotted _ ((tree_iff hwf).mp htree)
  case closed =>
    intro c x ⟨dir, hdir, hc⟩ i hi hlive hsub
    rw [← hc] at hlive hsub ⊢
    have hchild : d.graph.child dir i = some (d.table (clusterIndex dir) i).cluster_number :=
      graph_child_eq_some_iff.mpr ⟨⟨hi, hlive⟩, hsub, rfl⟩
    refine ⟨_, .child hdir hchild, ?_⟩
    rw [clusterIndex_of_tree hwf (tree_of_child (tree_of_inside hup hdir) hchild),
      FAT32DirectoryEntry.toNat_cluster_number]

theorem look_outside (hdir : d.Outside up name dir) (hne : dir ≠ up ∨ x ≠ name)
    : d'.look dir x = d.look dir x := by
  by_cases hup : dir = up
  . have hx : x ≠ name := by
      rcases hne with hne | hx
      . exact absurd hup hne
      . exact hx
    have hfind : findDirEntryIndex (d'.table (clusterIndex dir)) x
        = findDirEntryIndex (d.table (clusterIndex dir)) x := by
      apply findDirEntryIndex_congr
      intro i
      rw [hup]
      rcases h.above i with heq | ⟨_, hdead, hname, _⟩
      . exact Or.inl heq
      . right
        refine ⟨hdead, ?_⟩
        rw [hname]
        exact hx.symm
    cases hold : findDirEntryIndex (d.table (clusterIndex dir)) x with
    | none => rw [look_of_none hold, look_of_none (hfind.trans hold)]
    | some i =>
      rw [look_of_some hold, look_of_some (hfind.trans hold)]
      rw [hup]
      rcases h.above i with heq | ⟨_, hdead, _⟩
      . rw [heq]
      . have hlive := (findDirEntryIndex_eq_some_iff.mp hold).1.2
        rw [hup] at hlive
        exact absurd hlive hdead
  . have htable := h.outside dir hdir hup
    unfold look lookup
    rw [htable]

theorem look_head (hdir : d.Tree dir) {i : Fin 64} (hi : i.val < 2)
    (hfind : findDirEntryIndex (d.table (clusterIndex dir)) x = some i)
    : d'.look dir x = d.look dir x := by
  have hhead : ∀ j : Fin 64, j ≤ i →
      d'.table (clusterIndex dir) j = d.table (clusterIndex dir) j := by
    intro j hj
    apply h.head dir hdir
    omega
  have hfind' : findDirEntryIndex (d'.table (clusterIndex dir)) x = some i := by
    rw [findDirEntryIndex_eq_some_iff] at hfind ⊢
    rw [hhead i (le_refl i)]
    refine ⟨hfind.1, ?_⟩
    intro j hj
    rw [hhead j (le_of_lt hj)]
    exact hfind.2 j hj
  rw [look_of_some hfind, look_of_some hfind', hhead i (le_refl i)]

theorem follow_way {names : List (Fin 8 → UInt8)} {target : UInt32}
    (hway : d.Way up name dir names target)
    : Walk.follow d'.look dir names = .inl target := by
  induction hway with
  | nil => rfl
  | outside hdir hne hlook _ ih =>
    rw [← h.look_outside hdir hne] at hlook
    rw [Walk.follow_of_next hlook, ih]
  | back hdir hi hfind hlook _ ih =>
    rw [← h.look_head hdir hi hfind] at hlook
    rw [Walk.follow_of_next hlook, ih]

theorem readable (hwf : d.WellFormed) (hup : d.Tree up) {ext : Fin 3 → UInt8}
    (hreadable : d.Readable x ext)
    : d'.Readable x ext := by
  have htwo : clusterIndex ROOT_CLUSTER_NUMBER = 2 := rfl
  have hentry : ∀ i, d'.table 2 i = d.table 2 i ∨ (d'.table 2 i).attribute = ATTR_SUBDIRECTORY := by
    intro i
    by_cases hroot : ROOT_CLUSTER_NUMBER = up
    . rw [← htwo, hroot]
      rcases h.above i with heq | ⟨_, _, _, hsub⟩
      . exact Or.inl heq
      . exact Or.inr hsub
    . left
      rw [← htwo, h.outside _ (outside_root name hwf hup) hroot]
  intro i
  rcases hentry i with heq | hsub
  . rw [heq]
    intro hname hext
    rcases hreadable i hname hext with hdir | hlarge | ⟨l, hl, hlen, hused⟩
    . exact Or.inl hdir
    . exact Or.inr (Or.inl hlarge)
    . have hnext : ∀ y ∈ l, d'.fat.next y = d.fat.next y := fun y hy => h.next y (hused y hy)
      refine Or.inr (Or.inr ⟨l, ⟨hl.1.congr hnext, hl.2⟩, hlen, ?_⟩)
      intro y hy
      rw [hnext y hy]
      exact hused y hy
  . intro _ _
    exact Or.inl hsub

section

variable {m : UInt32}

theorem clusterIndex_eq {q : Nat} (hq : Z q x) (hm : m.toNat = q) : clusterIndex m = q := by
  have hused : d'.Occupied q := Or.inr (h.occupied q x hq)
  have hlt := hused.lt
  rw [clusterIndex_of_lt (by omega), hm]

theorem look_up (hup : d.Outside up name up)
    (hhead : ∀ j : Fin 64, j.val < 2 → (d.table (clusterIndex up) j).name ≠ name)
    (hlook : d'.look up name = .inl m)
    : Z (clusterIndex m) name := by
  rw [look_eq_inl_iff] at hlook
  rcases hlook with ⟨i, hfind, hsub, rfl⟩
  rcases (findDirEntryIndex_eq_some_iff.mp hfind).1 with ⟨hname, hlive⟩
  have hi : 2 ≤ i.val := by
    by_contra hlt
    apply hhead i (by omega)
    rw [← h.head up hup.tree i (by omega)]
    exact hname
  have hq := h.enter i hi hlive hsub hname
  rw [h.clusterIndex_eq hq (FAT32DirectoryEntry.toNat_cluster_number _)]
  exact hq

theorem look_inside {y : Component} (hdir : Z (clusterIndex dir) x) (hne : x ≠ y.name)
    (hdots : y.name ≠ dotdot) (hlook : d'.look dir y.name = .inl m)
    : Z (clusterIndex m) y.name := by
  rw [look_eq_inl_iff] at hlook
  rcases hlook with ⟨i, hfind, hsub, rfl⟩
  rcases (findDirEntryIndex_eq_some_iff.mp hfind).1 with ⟨hname, hlive⟩
  have hcases : i = 0 ∨ i = 1 ∨ 2 ≤ i.val := by omega
  rcases hcases with rfl | rfl | hi
  . rw [h.own _ x hdir] at hname
    exact absurd hname hne
  . exact absurd hname ((h.dotted _ x hdir).name_ne hdots)
  . have hq := h.closed _ x hdir i hi hlive hsub
    rw [hname] at hq
    rw [h.clusterIndex_eq hq (FAT32DirectoryEntry.toNat_cluster_number _)]
    exact hq

/--
From a directory of the copy, a path on which no name follows itself stays inside.
-/
theorem follow_inside {path : List Component} (hdir : Z (clusterIndex dir) x)
    (hchain : (x :: path.map Component.name).IsChain (· ≠ ·))
    (hdots : ∀ y ∈ path, y.name ≠ dotdot)
    (hfollow : Walk.follow d'.look dir (path.map Component.name) = .inl m)
    : ∃ y, Z (clusterIndex m) y := by
  induction path generalizing dir x with
  | nil =>
    have heq : dir = m := Sum.inl.inj hfollow
    rw [← heq]
    exact ⟨x, hdir⟩
  | cons y path ih =>
    rw [List.map_cons, List.isChain_cons_cons] at hchain
    rw [List.map_cons] at hfollow
    cases hlook : d'.look dir y.name with
    | inl k =>
      rw [Walk.follow_of_next hlook] at hfollow
      have hk := h.look_inside hdir hchain.1 (hdots y List.mem_cons_self) hlook
      apply ih hk hchain.2 _ hfollow
      intro z hz
      exact hdots z (List.mem_cons_of_mem y hz)
    | inr stop =>
      rw [Walk.follow_of_stop hlook] at hfollow
      contradiction

end
end Copying
end Disk

end AiOS
