import AiOS.Lib.Chain

/-!
This module contains catalogs: a tree of tables, the slots of which hold entries, where each live
entry names the first cell of a chain, and a directory entry names the cell of a further table.
The cells are of any type `α`, the slots of a table of any type `κ`, the entries of any type `ε`.
-/

namespace Catalog

open Chain (Follows)

/--
How the entries of a catalog are read, and the cells with a fixed meaning.
-/
structure Format (α κ ε : Type) where
  root : α
  stop : α
  free : α
  isData : α → Prop
  isSlot : κ → Prop
  isLive : ε → Prop
  isDir : ε → Prop
  first : ε → α
  length : ε → Nat
  root_not_data : ¬ isData root
  stop_not_data : ¬ isData stop
  free_not_data : ¬ isData free
  free_ne_stop : free ≠ stop
  length_of_isDir : ∀ e, isDir e → length e = 1

structure Volume (α κ ε : Type) where
  next : α → α
  table : α → κ → ε

variable {α κ ε : Type} (F : Format α κ ε)

inductive Directory (v : Volume α κ ε) : α → Prop where
  | root : Directory v F.root
  | child {p : α} {i : κ} : Directory v p → F.isSlot i → F.isLive (v.table p i) →
      F.isDir (v.table p i) → Directory v (F.first (v.table p i))

namespace Volume

def entry (v : Volume α κ ε) (s : α × κ) : ε :=
  v.table s.1 s.2

end Volume

structure Live (v : Volume α κ ε) (s : α × κ) : Prop where
  dir : Directory F v s.1
  slot : F.isSlot s.2
  live : F.isLive (v.entry s)

def Owns (v : Volume α κ ε) (s : α × κ) (cells : List α) : Prop :=
  Follows v.next F.stop (F.first (v.entry s)) cells

structure WellFormed (v : Volume α κ ε) : Prop where
  chain : ∀ s, Live F v s → ∃ l, Owns F v s l ∧ (∀ c ∈ l, F.isData c) ∧
    l.length = F.length (v.entry s)
  disjoint : ∀ s t, Live F v s → Live F v t → s ≠ t →
    ∀ l m, Owns F v s l → Owns F v t m → l.Disjoint m

/--
The cells in use are exactly those of the chains of live entries.
-/
def Exact (v : Volume α κ ε) : Prop :=
  ∀ c, F.isData c → (v.next c ≠ F.free ↔ ∃ s l, Live F v s ∧ Owns F v s l ∧ c ∈ l)

variable {F} {v v' : Volume α κ ε}

theorem Directory.of_live (h : ∀ q j, Directory F v q → F.isSlot j → F.isLive (v'.table q j) →
      v'.table q j = v.table q j)
    {p : α} (hp : Directory F v' p)
    : Directory F v p := by
  induction hp with
  | root => exact Directory.root
  | @child r j _ hj hlive hdir ih =>
    have heq := h r j ih hj hlive
    rw [heq] at hlive hdir ⊢
    exact Directory.child ih hj hlive hdir

theorem Owns.unique {s : α × κ} {l m : List α} (hl : Owns F v s l) (hm : Owns F v s m) : l = m := by
  exact Follows.unique hl hm

theorem Live.child {s : α × κ} (h : Live F v s) (hdir : F.isDir (v.entry s))
    : Directory F v (F.first (v.entry s)) := by
  exact Directory.child h.dir h.slot h.live hdir

namespace WellFormed

theorem data (h : WellFormed F v) {s : α × κ} {l : List α} (hs : Live F v s) (hl : Owns F v s l)
    : ∀ c ∈ l, F.isData c := by
  rcases h.chain s hs with ⟨m, hm, hdata, _⟩
  rw [hl.unique hm]
  exact hdata

theorem eq_of_mem (h : WellFormed F v) {s t : α × κ} {l m : List α} {c : α} (hs : Live F v s)
    (ht : Live F v t) (hl : Owns F v s l) (hm : Owns F v t m) (hcl : c ∈ l) (hcm : c ∈ m)
    : s = t := by
  by_contra hne
  exact h.disjoint s t hs ht hne l m hl hm hcl hcm

theorem next_ne_free (h : WellFormed F v) {s : α × κ} {l : List α} {c : α} (hs : Live F v s)
    (hl : Owns F v s l) (hc : c ∈ l)
    : v.next c ≠ F.free := by
  intro hfree
  cases Follows.next_mem hl hc with
  | inl hstop =>
    apply F.free_ne_stop
    rw [← hfree, hstop]
  | inr hmem =>
    rw [hfree] at hmem
    exact F.free_not_data (h.data hs hl _ hmem)

theorem owns_dir (h : WellFormed F v) {s : α × κ} (hs : Live F v s) (hdir : F.isDir (v.entry s))
    : Owns F v s [F.first (v.entry s)] := by
  rcases h.chain s hs with ⟨l, hl, _, hlen⟩
  rw [F.length_of_isDir _ hdir] at hlen
  rcases List.length_eq_one_iff.mp hlen with ⟨x, hx⟩
  rw [hx] at hl
  have hfirst : F.first (v.entry s) = x := hl.1
  rw [← hfirst] at hl
  exact hl

theorem directory_cases (h : WellFormed F v) {p : α} (hp : Directory F v p)
    : p = F.root ∨ ∃ s, Live F v s ∧ F.isDir (v.entry s) ∧ Owns F v s [p] := by
  cases hp with
  | root => exact Or.inl rfl
  | @child q i hq hi hlive hdir =>
    have hs : Live F v (q, i) := ⟨hq, hi, hlive⟩
    exact Or.inr ⟨(q, i), hs, hdir, h.owns_dir hs hdir⟩

theorem directory_root_or_data (h : WellFormed F v) {p : α} (hp : Directory F v p)
    : p = F.root ∨ F.isData p := by
  cases h.directory_cases hp with
  | inl hroot => exact Or.inl hroot
  | inr hex =>
    rcases hex with ⟨s, hs, _, hl⟩
    exact Or.inr (h.data hs hl p List.mem_cons_self)

theorem not_mem_of_directory (h : WellFormed F v) {s : α × κ} {l : List α} {p : α}
    (hs : Live F v s) (hfile : ¬ F.isDir (v.entry s)) (hl : Owns F v s l) (hp : Directory F v p)
    : p ∉ l := by
  intro hmem
  cases h.directory_cases hp with
  | inl hroot =>
    apply F.root_not_data
    rw [← hroot]
    exact h.data hs hl p hmem
  | inr hex =>
    rcases hex with ⟨t, ht, hdir, hown⟩
    apply hfile
    rw [h.eq_of_mem hs ht hl hown hmem List.mem_cons_self]
    exact hdir

theorem disjoint_of_free (h : WellFormed F v) {s : α × κ} {l m : List α}
    (hfree : ∀ c ∈ l, v.next c = F.free) (hs : Live F v s) (hm : Owns F v s m)
    : l.Disjoint m := by
  intro c hcl hcm
  apply h.next_ne_free hs hm hcm
  apply hfree c hcl

theorem not_mem_of_fresh (h : WellFormed F v) {p : α} {l : List α} (hp : Directory F v p)
    (hdata : ∀ c ∈ l, F.isData c)
    (hfresh : ∀ s m, Live F v s → Owns F v s m → l.Disjoint m)
    : p ∉ l := by
  intro hmem
  cases h.directory_cases hp with
  | inl hroot =>
    apply F.root_not_data
    rw [← hroot]
    exact hdata p hmem
  | inr hex =>
    rcases hex with ⟨s, hs, _, hown⟩
    exact hfresh s [p] hs hown hmem List.mem_cons_self

end WellFormed

variable (F) in
structure Agrees (v v' : Volume α κ ε) : Prop where
  table : ∀ p i, Directory F v p → F.isSlot i → v'.table p i = v.table p i
  next : ∀ s l c, Live F v s → Owns F v s l → c ∈ l → v'.next c = v.next c

namespace Agrees

theorem directory_iff (h : Agrees F v v') (p : α) : Directory F v' p ↔ Directory F v p := by
  constructor
  . intro hp
    induction hp with
    | root => exact Directory.root
    | child _ hi hlive hdir ih =>
      rw [h.table _ _ ih hi] at hlive hdir ⊢
      exact Directory.child ih hi hlive hdir
  . intro hp
    induction hp with
    | root => exact Directory.root
    | child hq hi hlive hdir ih =>
      rw [← h.table _ _ hq hi] at hlive hdir ⊢
      exact Directory.child ih hi hlive hdir

theorem entry_eq (h : Agrees F v v') {s : α × κ} (hs : Live F v s) : v'.entry s = v.entry s := by
  exact h.table s.1 s.2 hs.dir hs.slot

theorem live_iff (h : Agrees F v v') (s : α × κ) : Live F v' s ↔ Live F v s := by
  constructor
  . intro hs
    have hdir := (h.directory_iff s.1).mp hs.dir
    have hlive := hs.live
    unfold Volume.entry at hlive
    rw [h.table s.1 s.2 hdir hs.slot] at hlive
    exact ⟨hdir, hs.slot, hlive⟩
  . intro hs
    have hlive := hs.live
    rw [← h.entry_eq hs] at hlive
    exact ⟨(h.directory_iff s.1).mpr hs.dir, hs.slot, hlive⟩

theorem owns (h : Agrees F v v') {s : α × κ} {l : List α} (hs : Live F v s) (hl : Owns F v s l)
    : Owns F v' s l := by
  unfold Owns
  rw [h.entry_eq hs]
  exact Follows.congr hl (fun c hc => h.next s l c hs hl hc)

theorem wellFormed (h : Agrees F v v') (hwf : WellFormed F v) : WellFormed F v' where
  chain := by
    intro s hs
    have hs := (h.live_iff s).mp hs
    rcases hwf.chain s hs with ⟨l, hl, hdata, hlen⟩
    rw [h.entry_eq hs]
    exact ⟨l, h.owns hs hl, hdata, hlen⟩
  disjoint := by
    intro s t hs ht hne l m hl hm
    have hs := (h.live_iff s).mp hs
    have ht := (h.live_iff t).mp ht
    rcases hwf.chain s hs with ⟨l', hl', _, _⟩
    rcases hwf.chain t ht with ⟨m', hm', _, _⟩
    rw [hl.unique (h.owns hs hl'), hm.unique (h.owns ht hm')]
    exact hwf.disjoint s t hs ht hne l' m' hl' hm'

theorem exact (h : Agrees F v v') (hwf : WellFormed F v) (hex : Exact F v)
    (hnext : ∀ c, F.isData c → v'.next c = v.next c)
    : Exact F v' := by
  intro c hc
  rw [hnext c hc, hex c hc]
  constructor
  . intro ⟨s, l, hs, hl, hcl⟩
    exact ⟨s, l, (h.live_iff s).mpr hs, h.owns hs hl, hcl⟩
  . intro ⟨s, l, hs, hl, hcl⟩
    have hs := (h.live_iff s).mp hs
    rcases hwf.chain s hs with ⟨m, hm, _, _⟩
    rw [hl.unique (h.owns hs hm)] at hcl
    exact ⟨s, m, hs, hm, hcl⟩

end Agrees

theorem WellFormed.agrees_of_free (h : WellFormed F v) {l : List α} (hdata : ∀ c ∈ l, F.isData c)
    (hfree : ∀ c ∈ l, v.next c = F.free)
    (htable : ∀ p, Directory F v p → p ∉ l → v'.table p = v.table p)
    (hnext : ∀ c, c ∉ l → v'.next c = v.next c)
    : Agrees F v v' where
  table := by
    intro p i hp _
    rw [htable p hp]
    apply h.not_mem_of_fresh hp hdata
    intro s m hs hm
    apply h.disjoint_of_free hfree hs hm
  next := by
    intro s m c hs hm hc
    apply hnext
    intro hmem
    exact h.disjoint_of_free hfree hs hm hmem hc

variable (F) in
/--
`v'` is `v` with a new entry in the dead slot `i` of the reachable table `p`, whose chain `l` is
apart from all live chains. A new directory starts without live entries.
-/
structure Insert (v v' : Volume α κ ε) (p : α) (i : κ) (l : List α) : Prop where
  dir : Directory F v p
  slot : F.isSlot i
  dead : ¬ F.isLive (v.table p i)
  live : F.isLive (v'.table p i)
  table : ∀ q j, Directory F v q → F.isSlot j → (q, j) ≠ (p, i) → v'.table q j = v.table q j
  next : ∀ s m c, Live F v s → Owns F v s m → c ∈ m → v'.next c = v.next c
  chain : Follows v'.next F.stop (F.first (v'.table p i)) l
  data : ∀ c ∈ l, F.isData c
  length : l.length = F.length (v'.table p i)
  fresh : ∀ s m, Live F v s → Owns F v s m → l.Disjoint m
  empty : F.isDir (v'.table p i) →
    ∀ j, F.isSlot j → ¬ F.isLive (v'.table (F.first (v'.table p i)) j)

namespace Insert

variable {p : α} {i : κ} {l : List α}

theorem entry_eq (h : Insert F v v' p i l) {s : α × κ} (hs : Live F v s)
    : v'.entry s = v.entry s := by
  apply h.table s.1 s.2 hs.dir hs.slot
  intro heq
  apply h.dead
  have hlive := hs.live
  unfold Volume.entry at hlive
  rw [Prod.mk.injEq] at heq
  rw [heq.1, heq.2] at hlive
  exact hlive

theorem directory (h : Insert F v v' p i l) {q : α} (hq : Directory F v q)
    : Directory F v' q := by
  induction hq with
  | root => exact Directory.root
  | @child r j hr hj hlive hdir ih =>
    have heq : v'.table r j = v.table r j := h.entry_eq (s := (r, j)) ⟨hr, hj, hlive⟩
    rw [← heq] at hlive hdir ⊢
    exact Directory.child ih hj hlive hdir

theorem directory_iff (h : Insert F v v' p i l) (q : α)
    : Directory F v' q
        ↔
      Directory F v q ∨ (F.isDir (v'.table p i) ∧ q = F.first (v'.table p i)) := by
  constructor
  . intro hq
    induction hq with
    | root => exact Or.inl Directory.root
    | @child r j _ hj hlive hdir ih =>
      by_cases heq : (r, j) = (p, i)
      . rw [Prod.mk.injEq] at heq
        rw [heq.1, heq.2] at hdir ⊢
        exact Or.inr ⟨hdir, rfl⟩
      . cases ih with
        | inl hr =>
          rw [h.table r j hr hj heq] at hlive hdir ⊢
          exact Or.inl (Directory.child hr hj hlive hdir)
        | inr hnew =>
          rw [hnew.2] at hlive
          exact absurd hlive (h.empty hnew.1 j hj)
  . intro hq
    cases hq with
    | inl hq => exact h.directory hq
    | inr hnew =>
      rw [hnew.2]
      exact Directory.child (h.directory h.dir) h.slot h.live hnew.1

theorem live_iff (h : Insert F v v' p i l) (s : α × κ) : Live F v' s ↔ Live F v s ∨ s = (p, i) := by
  constructor
  . intro hs
    by_cases heq : s = (p, i)
    . exact Or.inr heq
    . left
      have hlive := hs.live
      cases (h.directory_iff s.1).mp hs.dir with
      | inl hdir =>
        unfold Volume.entry at hlive
        rw [h.table s.1 s.2 hdir hs.slot heq] at hlive
        exact ⟨hdir, hs.slot, hlive⟩
      | inr hnew =>
        unfold Volume.entry at hlive
        rw [hnew.2] at hlive
        exact absurd hlive (h.empty hnew.1 s.2 hs.slot)
  . intro hs
    cases hs with
    | inl hs =>
      have hlive := hs.live
      rw [← h.entry_eq hs] at hlive
      exact ⟨h.directory hs.dir, hs.slot, hlive⟩
    | inr heq =>
      rw [heq]
      exact ⟨h.directory h.dir, h.slot, h.live⟩

theorem owns (h : Insert F v v' p i l) {s : α × κ} {m : List α} (hs : Live F v s)
    (hm : Owns F v s m)
    : Owns F v' s m := by
  unfold Owns
  rw [h.entry_eq hs]
  exact Follows.congr hm (fun c hc => h.next s m c hs hm hc)

theorem owns_new (h : Insert F v v' p i l) : Owns F v' (p, i) l := by
  exact h.chain

theorem wellFormed (h : Insert F v v' p i l) (hwf : WellFormed F v) : WellFormed F v' where
  chain := by
    intro s hs
    cases (h.live_iff s).mp hs with
    | inl hs =>
      rcases hwf.chain s hs with ⟨m, hm, hdata, hlen⟩
      rw [h.entry_eq hs]
      exact ⟨m, h.owns hs hm, hdata, hlen⟩
    | inr heq =>
      rw [heq]
      exact ⟨l, h.owns_new, h.data, h.length⟩
  disjoint := by
    intro s t hs ht hne m n hm hn
    cases (h.live_iff s).mp hs with
    | inl hs =>
      rcases hwf.chain s hs with ⟨m', hm', _, _⟩
      rw [hm.unique (h.owns hs hm')]
      cases (h.live_iff t).mp ht with
      | inl ht =>
        rcases hwf.chain t ht with ⟨n', hn', _, _⟩
        rw [hn.unique (h.owns ht hn')]
        exact hwf.disjoint s t hs ht hne m' n' hm' hn'
      | inr heq =>
        rw [heq] at hn
        rw [hn.unique h.owns_new]
        intro c hcm hcl
        exact h.fresh s m' hs hm' hcl hcm
    | inr heq =>
      rw [heq] at hm
      rw [hm.unique h.owns_new]
      cases (h.live_iff t).mp ht with
      | inl ht =>
        rcases hwf.chain t ht with ⟨n', hn', _, _⟩
        rw [hn.unique (h.owns ht hn')]
        exact h.fresh t n' ht hn'
      | inr heq' => exact absurd (heq.trans heq'.symm) hne

theorem exact (h : Insert F v v' p i l) (hwf : WellFormed F v) (hex : Exact F v)
    (hnext : ∀ c, F.isData c → c ∉ l → v'.next c = v.next c)
    : Exact F v' := by
  have hwf' := h.wellFormed hwf
  have hlive : Live F v' (p, i) := (h.live_iff (p, i)).mpr (Or.inr rfl)
  intro c hc
  by_cases hmem : c ∈ l
  . constructor
    . intro _
      exact ⟨(p, i), l, hlive, h.owns_new, hmem⟩
    . intro _
      exact hwf'.next_ne_free hlive h.owns_new hmem
  . rw [hnext c hc hmem, hex c hc]
    constructor
    . intro ⟨s, m, hs, hm, hcm⟩
      exact ⟨s, m, (h.live_iff s).mpr (Or.inl hs), h.owns hs hm, hcm⟩
    . intro ⟨s, m, hs, hm, hcm⟩
      cases (h.live_iff s).mp hs with
      | inl hs' =>
        rcases hwf.chain s hs' with ⟨m', hm', _, _⟩
        rw [hm.unique (h.owns hs' hm')] at hcm
        exact ⟨s, m', hs', hm', hcm⟩
      | inr heq =>
        rw [heq] at hm
        rw [hm.unique h.owns_new] at hcm
        exact absurd hcm hmem

end Insert

variable (F) in
/--
`v'` is `v` without the live entry in slot `i` of table `p`. The links of its chain may be gone.
-/
structure Remove (v v' : Volume α κ ε) (p : α) (i : κ) : Prop where
  live : Live F v (p, i)
  dead : ¬ F.isLive (v'.table p i)
  table : ∀ q j, Directory F v q → F.isSlot j → (q, j) ≠ (p, i) → v'.table q j = v.table q j
  next : ∀ s m c, Live F v s → s ≠ (p, i) → Owns F v s m → c ∈ m → v'.next c = v.next c

namespace Remove

variable {p : α} {i : κ}

theorem directory_of (h : Remove F v v' p i) {q : α} (hq : Directory F v' q)
    : Directory F v q := by
  apply Directory.of_live _ hq
  intro r j hr hj hlive
  apply h.table r j hr hj
  intro heq
  rw [Prod.mk.injEq] at heq
  rw [heq.1, heq.2] at hlive
  exact h.dead hlive

theorem ne_of_live (h : Remove F v v' p i) {s : α × κ} (hs : Live F v' s) : s ≠ (p, i) := by
  intro heq
  have hlive := hs.live
  rw [heq] at hlive
  exact h.dead hlive

theorem entry_eq (h : Remove F v v' p i) {s : α × κ} (hs : Live F v s) (hne : s ≠ (p, i))
    : v'.entry s = v.entry s := by
  exact h.table s.1 s.2 hs.dir hs.slot hne

theorem live_of (h : Remove F v v' p i) {s : α × κ} (hs : Live F v' s) : Live F v s := by
  have hdir := h.directory_of hs.dir
  have hlive := hs.live
  unfold Volume.entry at hlive
  rw [h.table s.1 s.2 hdir hs.slot (h.ne_of_live hs)] at hlive
  exact ⟨hdir, hs.slot, hlive⟩

theorem owns (h : Remove F v v' p i) {s : α × κ} {m : List α} (hs : Live F v s)
    (hne : s ≠ (p, i)) (hm : Owns F v s m)
    : Owns F v' s m := by
  unfold Owns
  rw [h.entry_eq hs hne]
  exact Follows.congr hm (fun c hc => h.next s m c hs hne hm hc)

theorem wellFormed (h : Remove F v v' p i) (hwf : WellFormed F v) : WellFormed F v' where
  chain := by
    intro s hs
    have hne := h.ne_of_live hs
    have hs := h.live_of hs
    rcases hwf.chain s hs with ⟨l, hl, hdata, hlen⟩
    rw [h.entry_eq hs hne]
    exact ⟨l, h.owns hs hne hl, hdata, hlen⟩
  disjoint := by
    intro s t hs ht hne l m hl hm
    have hsne := h.ne_of_live hs
    have htne := h.ne_of_live ht
    have hs := h.live_of hs
    have ht := h.live_of ht
    rcases hwf.chain s hs with ⟨l', hl', _, _⟩
    rcases hwf.chain t ht with ⟨m', hm', _, _⟩
    rw [hl.unique (h.owns hs hsne hl'), hm.unique (h.owns ht htne hm')]
    exact hwf.disjoint s t hs ht hne l' m' hl' hm'

def Leaf (F : Format α κ ε) (v : Volume α κ ε) (s : α × κ) : Prop :=
  F.isDir (v.entry s) → ∀ j, F.isSlot j → ¬ F.isLive (v.table (F.first (v.entry s)) j)

theorem directory_iff (h : Remove F v v' p i) (hwf : WellFormed F v) (hleaf : Leaf F v (p, i))
    (q : α)
    : Directory F v' q
        ↔
      Directory F v q ∧ ¬ (F.isDir (v.table p i) ∧ q = F.first (v.table p i)) := by
  constructor
  . intro hq
    refine ⟨h.directory_of hq, ?_⟩
    intro ⟨hdir, heq⟩
    have hown : Owns F v (p, i) [q] := by
      rw [heq]
      exact hwf.owns_dir h.live hdir
    cases hq with
    | root => exact F.root_not_data (hwf.data h.live hown _ List.mem_cons_self)
    | @child r j hr hj hlive hdir' =>
      -- the slot that still names the table would be the removed one
      have hlive' : Live F v' (r, j) := ⟨hr, hj, hlive⟩
      have hne := h.ne_of_live hlive'
      have hrj := h.live_of hlive'
      have hentry := h.entry_eq hrj hne
      have hown' := hwf.owns_dir hrj (by rw [← hentry]; exact hdir')
      rw [← hentry] at hown'
      exact hne (hwf.eq_of_mem hrj h.live hown' hown List.mem_cons_self List.mem_cons_self)
  . intro ⟨hq, hne⟩
    induction hq with
    | root => exact Directory.root
    | @child r j hr hj hlive hdir ih =>
      have hrj : (r, j) ≠ (p, i) := by
        intro heq
        rw [Prod.mk.injEq] at heq
        rw [heq.1, heq.2] at hne hdir
        exact hne ⟨hdir, rfl⟩
      have hr' : Directory F v' r := by
        apply ih
        intro ⟨hd, heq⟩
        rw [heq] at hlive
        exact hleaf hd j hj hlive
      rw [← h.table r j hr hj hrj] at hlive hdir ⊢
      exact Directory.child hr' hj hlive hdir

theorem live_iff (h : Remove F v v' p i) (hwf : WellFormed F v) (hleaf : Leaf F v (p, i))
    (s : α × κ)
    : Live F v' s ↔ Live F v s ∧ s ≠ (p, i) := by
  constructor
  . intro hs
    exact ⟨h.live_of hs, h.ne_of_live hs⟩
  . intro ⟨hs, hne⟩
    have hlive := hs.live
    refine ⟨?_, hs.slot, ?_⟩
    . rw [h.directory_iff hwf hleaf]
      refine ⟨hs.dir, ?_⟩
      intro ⟨hdir, heq⟩
      unfold Volume.entry at hlive
      rw [heq] at hlive
      exact hleaf hdir s.2 hs.slot hlive
    . rw [h.entry_eq hs hne]
      exact hlive

theorem exact (h : Remove F v v' p i) (hwf : WellFormed F v) (hleaf : Leaf F v (p, i))
    (hex : Exact F v) {l : List α} (hl : Owns F v (p, i) l)
    (hfree : ∀ c ∈ l, v'.next c = F.free)
    (hnext : ∀ c, F.isData c → c ∉ l → v'.next c = v.next c)
    : Exact F v' := by
  have hwf' := h.wellFormed hwf
  intro c hc
  by_cases hmem : c ∈ l
  . constructor
    . intro hne
      exact absurd (hfree c hmem) hne
    . intro ⟨s, m, hs, hm, hcm⟩
      exact hwf'.next_ne_free hs hm hcm
  . rw [hnext c hc hmem, hex c hc]
    constructor
    . intro ⟨s, m, hs, hm, hcm⟩
      have hne : s ≠ (p, i) := by
        intro heq
        rw [heq] at hm
        rw [hm.unique hl] at hcm
        exact hmem hcm
      exact ⟨s, m, (h.live_iff hwf hleaf s).mpr ⟨hs, hne⟩, h.owns hs hne hm, hcm⟩
    . intro ⟨s, m, hs, hm, hcm⟩
      have hne := h.ne_of_live hs
      have hs := h.live_of hs
      rcases hwf.chain s hs with ⟨m', hm', _, _⟩
      rw [hm.unique (h.owns hs hne hm')] at hcm
      exact ⟨s, m', hs, hm', hcm⟩

end Remove

variable (F) in
structure Held (v : Volume α κ ε) (c : α) : Prop where
  data : F.isData c
  used : v.next c ≠ F.free
  apart : ∀ s l, Live F v s → Owns F v s l → c ∉ l

namespace Held

variable {c : α} {p : α} {i : κ} {l : List α}

theorem of_agrees (h : Agrees F v v') (hwf : WellFormed F v) (hdata : F.isData c)
    (hused : v'.next c ≠ F.free) (hapart : ∀ s m, Live F v s → Owns F v s m → c ∉ m)
    : Held F v' c where
  data := hdata
  used := hused
  apart := by
    intro s m hs hm
    have hs := (h.live_iff s).mp hs
    rcases hwf.chain s hs with ⟨m', hm', _, _⟩
    rw [hm.unique (h.owns hs hm')]
    apply hapart s m' hs hm'

theorem of_insert (h : Insert F v v' p i l) (hwf : WellFormed F v) (hc : Held F v c) (hl : c ∉ l)
    (hnext : v'.next c = v.next c)
    : Held F v' c where
  data := hc.data
  used := by
    rw [hnext]
    exact hc.used
  apart := by
    intro s m hs hm
    cases (h.live_iff s).mp hs with
    | inl hs =>
      rcases hwf.chain s hs with ⟨m', hm', _, _⟩
      rw [hm.unique (h.owns hs hm')]
      apply hc.apart s m' hs hm'
    | inr heq =>
      rw [heq] at hm
      rw [hm.unique h.owns_new]
      exact hl

theorem of_remove (h : Remove F v v' p i) (hwf : WellFormed F v) (hdata : F.isData c)
    (hused : v'.next c ≠ F.free)
    (hapart : ∀ s m, Live F v s → s ≠ (p, i) → Owns F v s m → c ∉ m)
    : Held F v' c where
  data := hdata
  used := hused
  apart := by
    intro s m hs hm
    have hne := h.ne_of_live hs
    have hs := h.live_of hs
    rcases hwf.chain s hs with ⟨m', hm', _, _⟩
    rw [hm.unique (h.owns hs hne hm')]
    apply hapart s m' hs hne hm'

end Held

variable (F) in
def Child (v : Volume α κ ε) (p q : α) : Prop :=
  ∃ i, Live F v (p, i) ∧ F.isDir (v.table p i) ∧ q = F.first (v.table p i)

variable (F) in
abbrev Above (v : Volume α κ ε) : α → α → Prop :=
  Relation.ReflTransGen (Child F v)

theorem Directory.above (h : Directory F v p) : Above F v F.root p := by
  induction h with
  | root => exact Relation.ReflTransGen.refl
  | @child r i hr hi hlive hdir ih => exact ih.tail ⟨i, ⟨hr, hi, hlive⟩, hdir, rfl⟩

theorem Directory.of_above {p q : α} (hq : Directory F v q) (h : Above F v p q)
    : Directory F v p := by
  cases Relation.ReflTransGen.cases_head h with
  | inl heq =>
    rw [heq]
    exact hq
  | inr hchild =>
    rcases hchild with ⟨_, ⟨i, hs, _, _⟩, _⟩
    exact hs.dir

namespace WellFormed

theorem child_unique (h : WellFormed F v) {p p' q : α} (hp : Child F v p q) (hp' : Child F v p' q)
    : p = p' := by
  rcases hp with ⟨i, hs, hdir, hq⟩
  rcases hp' with ⟨i', hs', hdir', hq'⟩
  have hown := h.owns_dir hs hdir
  have hown' := h.owns_dir hs' hdir'
  have hmem : F.first (v.table p i) ∈ [F.first (v.table p' i')] := by
    rw [← hq, hq']
    exact List.mem_cons_self
  have heq := h.eq_of_mem hs hs' hown hown' List.mem_cons_self hmem
  exact congrArg Prod.fst heq

theorem not_child_root (h : WellFormed F v) (p : α) : ¬ Child F v p F.root := by
  intro ⟨i, hs, hdir, hroot⟩
  apply F.root_not_data
  rw [hroot]
  exact h.data hs (h.owns_dir hs hdir) _ List.mem_cons_self

-- no directory lies below itself: the way up is unique, and it ends at the root
theorem not_below_self (h : WellFormed F v) {q : α} (hq : Directory F v q)
    : ¬ Relation.TransGen (Child F v) q q := by
  induction hq with
  | root =>
    intro hcycle
    rcases Relation.TransGen.tail'_iff.mp hcycle with ⟨p, _, hchild⟩
    exact h.not_child_root p hchild
  | @child p i hp hi hlive hdir ih =>
    intro hcycle
    have hchild : Child F v p (F.first (v.table p i)) := ⟨i, ⟨hp, hi, hlive⟩, hdir, rfl⟩
    rcases Relation.TransGen.tail'_iff.mp hcycle with ⟨p', hbelow, hchild'⟩
    rw [h.child_unique hchild' hchild] at hbelow
    exact ih (Relation.TransGen.head' hchild hbelow)

theorem not_mem_of_above (h : WellFormed F v) {p q : α} {i : κ} {l : List α}
    (hs : Live F v (p, i)) (hl : Owns F v (p, i) l) (hq : Above F v q p)
    : q ∉ l := by
  intro hmem
  have hdirectory := Directory.of_above hs.dir hq
  by_cases hdir : F.isDir (v.table p i)
  . rw [hl.unique (h.owns_dir hs hdir), List.mem_singleton] at hmem
    have hchild : Child F v p q := ⟨i, hs, hdir, hmem⟩
    exact h.not_below_self hdirectory (Relation.TransGen.tail' hq hchild)
  . exact h.not_mem_of_directory hs hdir hl hdirectory hmem

end WellFormed

end Catalog
