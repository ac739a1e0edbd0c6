import AiOS.Lib.System

/-!
This module contains stores: sets of named files and directories, each in a directory, and the
changes that make or remove one of them at a time.
-/

namespace Store

inductive Object (α β : Type) where
  | file (content : β)
  | directory (d : α)

structure Item (α ν β : Type) where
  parent : α
  name : ν
  object : Object α β

inductive Change (α ν β : Type) where
  | create (item : Item α ν β)
  | remove (item : Item α ν β)

variable {α ν β : Type}

def Change.apply (S : Set (Item α ν β)) : Change α ν β → Set (Item α ν β)
  | .create item => insert item S
  | .remove item => S \ {item}

section

variable (root : α) (S : Set (Item α ν β))

inductive Directory : α → Prop where
  | root : Directory root
  | child {item : Item α ν β} {d : α} : Directory item.parent → item ∈ S →
      item.object = .directory d → Directory d

def Vacant (d : α) : Prop :=
  ∀ item ∈ S, item.parent ≠ d

/--
A new object goes into a directory that is there; a file takes a name that nothing else there has, a
directory is new and empty. Only an empty directory may go.
-/
inductive Change.Allowed : Change α ν β → Prop where
  | file {item : Item α ν β} {content : β} : Directory root S item.parent →
      item.object = .file content →
      (∀ other ∈ S, other.parent = item.parent → other.name ≠ item.name) →
      Allowed (.create item)
  | directory {item : Item α ν β} {d : α} : Directory root S item.parent →
      item.object = .directory d → ¬ Directory root S d → Vacant S d → Allowed (.create item)
  | remove {item : Item α ν β} : item ∈ S →
      (∀ d, item.object = .directory d → Vacant S d) → Allowed (.remove item)

/--
A tree: every object can be reached from the root, a directory is in one place only, and a name in a
directory stands for one file.
-/
structure Tree : Prop where
  rooted : ∀ item ∈ S, Directory root S item.parent
  not_root : ∀ item ∈ S, item.object ≠ .directory root
  once : ∀ item ∈ S, ∀ other ∈ S, ∀ d, item.object = .directory d → other.object = .directory d →
    item = other
  named : ∀ item ∈ S, ∀ other ∈ S, ∀ content content', item.object = .file content →
    other.object = .file content' → item.parent = other.parent → item.name = other.name →
      item = other

end

variable {root : α} {S S' : Set (Item α ν β)}

theorem Directory.mono (hsub : S ⊆ S') {d : α} (h : Directory root S d) : Directory root S' d := by
  induction h with
  | root => exact .root
  | child _ hmem hobject ih => exact .child ih (hsub hmem) hobject

theorem tree_empty : Tree root (∅ : Set (Item α ν β)) := by
  constructor
  all_goals simp

namespace Tree

variable {item : Item α ν β}

theorem insert (h : Tree root S) (hparent : Directory root S item.parent)
    (hdir : ∀ d, item.object = .directory d → ¬ Directory root S d)
    (hfile : ∀ content, item.object = .file content →
      ∀ other ∈ S, other.parent = item.parent → other.name ≠ item.name)
    : Tree root (insert item S) where
  rooted := by
    intro other hmem
    rw [Set.mem_insert_iff] at hmem
    rcases hmem with heq | hmem
    . rw [heq]
      exact hparent.mono (Set.subset_insert _ _)
    . exact (h.rooted other hmem).mono (Set.subset_insert _ _)
  not_root := by
    intro other hmem hroot
    rw [Set.mem_insert_iff] at hmem
    rcases hmem with heq | hmem
    . rw [heq] at hroot
      exact hdir root hroot .root
    . exact h.not_root other hmem hroot
  once := by
    -- a directory that is new is in no other place
    have hfresh : ∀ other ∈ S, ∀ d, item.object = .directory d → other.object ≠ .directory d := by
      intro other hmem d hitem hother
      exact hdir d hitem (.child (h.rooted other hmem) hmem hother)
    intro a ha b hb d hda hdb
    rw [Set.mem_insert_iff] at ha hb
    rcases ha with ha | ha
    . rcases hb with hb | hb
      . rw [ha, hb]
      . rw [ha] at hda
        exact absurd hdb (hfresh b hb d hda)
    . rcases hb with hb | hb
      . rw [hb] at hdb
        exact absurd hda (hfresh a ha d hdb)
      . exact h.once a ha b hb d hda hdb
  named := by
    intro a ha b hb content content' hca hcb hp hn
    rw [Set.mem_insert_iff] at ha hb
    rcases ha with ha | ha
    . rcases hb with hb | hb
      . rw [ha, hb]
      . rw [ha] at hca hp hn
        exact absurd hn.symm (hfile content hca b hb hp.symm)
    . rcases hb with hb | hb
      . rw [hb] at hcb hp hn
        exact absurd hn (hfile content' hcb a ha hp)
      . exact h.named a ha b hb content content' hca hcb hp hn

theorem directory_remove {d : α} (h : Directory root S d)
    (hvacant : ∀ d, item.object = .directory d → Vacant S d)
    : Directory root (S \ {item}) d ∨ item.object = .directory d := by
  induction h with
  | root => exact Or.inl .root
  | @child other d _ hmem hobject ih =>
    by_cases heq : other = item
    . rw [heq] at hobject
      exact Or.inr hobject
    . rcases ih with hparent | hparent
      . exact Or.inl (.child hparent ⟨hmem, heq⟩ hobject)
      . exact absurd rfl (hvacant _ hparent other hmem)

theorem remove (h : Tree root S) (hvacant : ∀ d, item.object = .directory d → Vacant S d)
    : Tree root (S \ {item}) where
  rooted := by
    intro other hmem
    rcases directory_remove (h.rooted other hmem.1) hvacant with hparent | hparent
    . exact hparent
    . exact absurd rfl (hvacant _ hparent other hmem.1)
  not_root other hmem := h.not_root other hmem.1
  once a ha b hb := h.once a ha.1 b hb.1
  named a ha b hb := h.named a ha.1 b hb.1

theorem of_allowed (h : Tree root S) {change : Change α ν β} (hallowed : change.Allowed root S)
    : Tree root (change.apply S) := by
  cases hallowed with
  | file hparent hobject hname =>
    apply h.insert hparent
    . intro d hdir
      rw [hobject] at hdir
      contradiction
    . intro _ _
      exact hname
  | directory hparent hobject hnew _ =>
    apply h.insert hparent
    . intro d hdir
      rw [hobject] at hdir
      injection hdir with hdir
      rw [← hdir]
      exact hnew
    . intro content hfile
      rw [hobject] at hfile
      contradiction
  | remove _ hvacant => exact h.remove hvacant

end Tree

def system (root : α) : System (Set (Item α ν β)) (Change α ν β) where
  init S := S = ∅
  step S change S' := change.Allowed root S ∧ S' = change.apply S

theorem tree_of_leads {ok : Set (Item α ν β) → Change α ν β → Prop} (h : Tree root S)
    (hleads : (system root).Leads ok S S')
    : Tree root S' := by
  apply System.Leads.invariant hleads h
  intro S change S' hS _ hstep
  rw [hstep.2]
  exact hS.of_allowed hstep.1

theorem mem_of_leads {item : Item α ν β} (hmem : item ∈ S)
    (hleads : (system root).Leads (fun _ change => change ≠ .remove item) S S')
    : item ∈ S' := by
  apply System.Leads.invariant hleads hmem
  intro S change S' hS hok hstep
  rw [hstep.2]
  cases change with
  | create other => exact Or.inr hS
  | remove other =>
    refine ⟨hS, ?_⟩
    intro heq
    rw [Set.mem_singleton_iff] at heq
    rw [heq] at hok
    exact hok rfl

end Store
