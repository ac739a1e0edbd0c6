import AiOS.Fat32.Run

/-!
This module contains the names in the directories: what a list of requests says should be there, and
when the tables say the same.
-/

namespace AiOS

open Catalog

/--
The request that made the entry in a slot of a directory, as far as it has not been deleted since.
-/
abbrev Ledger : Type :=
  Nat → Fin 64 → Option FAT32DriverRequest

namespace Disk

def LiveSlot (d : Disk) (p : Nat) (i : Fin 64) : Prop :=
  (d.table p i).user_attribute = UATTR_NOT_EMPTY

instance (d : Disk) (p : Nat) (i : Fin 64) : Decidable (d.LiveSlot p i) :=
  inferInstanceAs (Decidable (_ = _))

end Disk

namespace Ledger

def Made (request : FAT32DriverRequest) (d d' : Disk) (i : Fin 64) : Prop :=
  ¬ d.LiveSlot request.parent i ∧ d'.LiveSlot request.parent i

def Gone (request : FAT32DriverRequest) (d d' : Disk) (i : Fin 64) : Prop :=
  d.LiveSlot request.parent i ∧ ¬ d'.LiveSlot request.parent i

def Founded (request : FAT32DriverRequest) (d d' : Disk) (p : Nat) : Prop :=
  request.buffer_size = 0 ∧ ∃ i, Made request d d' i ∧ (d'.table request.parent i).cluster = p

instance (request : FAT32DriverRequest) (d d' : Disk) (i : Fin 64)
    : Decidable (Made request d d' i) :=
  inferInstanceAs (Decidable (_ ∧ _))

instance (request : FAT32DriverRequest) (d d' : Disk) (i : Fin 64)
    : Decidable (Gone request d d' i) :=
  inferInstanceAs (Decidable (_ ∧ _))

instance (request : FAT32DriverRequest) (d d' : Disk) (p : Nat)
    : Decidable (Founded request d d' p) :=
  inferInstanceAs (Decidable (_ ∧ _))

/--
The ledger after one step of a run: a `write` enters its request and opens the page of a new
directory, a `delete` strikes the entry it removes.
-/
def enter (ledger : Ledger) (d : Disk) (op : Operation) (d' : Disk) : Ledger :=
  fun p i =>
    match op with
    | .write _ _ request =>
      if p = request.parent ∧ Made request d d' i then
        some request
      else if Founded request d d' p then
        none
      else
        ledger p i
    | .read _ => ledger p i
    | .read_directory _ => ledger p i
    | .delete _ request =>
      if p = request.parent ∧ Gone request d d' i then
        none
      else
        ledger p i

theorem not_made_same (request : FAT32DriverRequest) (d : Disk) (i : Fin 64)
    : ¬ Made request d d i := by
  intro hmade
  exact hmade.1 hmade.2

theorem not_founded_same (request : FAT32DriverRequest) (d : Disk) (p : Nat)
    : ¬ Founded request d d p := by
  intro ⟨_, i, hmade, _⟩
  exact not_made_same request d i hmade

theorem not_gone_same (request : FAT32DriverRequest) (d : Disk) (i : Fin 64)
    : ¬ Gone request d d i := by
  intro hgone
  exact hgone.2 hgone.1

theorem enter_same (ledger : Ledger) (d : Disk) (op : Operation) : ledger.enter d op d = ledger := by
  funext p i
  cases op with
  | write memory newDirectoryTable request =>
    unfold enter
    dsimp only
    rw [if_neg (fun h => not_made_same _ _ _ h.2), if_neg (not_founded_same _ _ _)]
  | read request => rfl
  | read_directory request => rfl
  | delete dirTable request =>
    unfold enter
    dsimp only
    rw [if_neg (fun h => not_gone_same _ _ _ h.2)]

def ofRun (steps : List ((FAT32DriverState × Disk) × Operation × FAT32DriverState × Disk)) : Ledger :=
  steps.foldl (fun ledger step => ledger.enter step.1.2 step.2.1 step.2.2.2) fun _ _ => none

end Ledger

namespace write

-- the entry of a new directory keeps the extension that lies in its slot
def KeepsExt (request : FAT32DriverRequest) (d : Disk) : Prop :=
  request.buffer_size = 0 → empty_clusters d.fat ≠ [] →
    (∀ i ∈ slots, ¬ named (d.table request.parent) request i) →
    ∀ i, (free_slots (d.table request.parent) slots).head? = some i →
      (d.table request.parent i).ext = request.ext

end write

def Operation.KeepsExt (s : FAT32DriverState × Disk) : Operation → Prop
  | .write _ _ request => write.KeepsExt request s.2
  | .read _ => True
  | .read_directory _ => True
  | .delete _ _ => True

/--
The slots of every directory hold what the ledger says, under different names.
-/
structure Recorded (ledger : Ledger) (d : Disk) : Prop where
  header : ∀ p, d.Directory p → write.parent_ok (d.table p)
  dead : ∀ p i, d.Directory p → 2 ≤ i.val → ledger p i = none → ¬ d.LiveSlot p i
  live : ∀ p i request, d.Directory p → 2 ≤ i.val → ledger p i = some request →
    d.LiveSlot p i ∧ (d.table p i).name = request.name ∧ (d.table p i).ext = request.ext
  unique : ∀ p i j, d.Live (p, i) → d.Live (p, j) → (d.table p i).name = (d.table p j).name →
    (d.table p i).ext = (d.table p j).ext → i = j

namespace write

theorem new_entry_ext (old : FAT32DirectoryEntry) (request : FAT32DriverRequest) (cluster : UInt32)
    : (new_entry old request cluster).ext
        =
      if request.buffer_size = 0 then old.ext else request.ext := by
  unfold new_entry
  dsimp only
  split
  . rfl
  . rfl

theorem parent_ok_init_directory_table (dir_table : FAT32DirectoryTable) (name : Fin 8 → UInt8)
    (parent_dir_cluster : UInt32)
    : parent_ok (init_directory_table dir_table name parent_dir_cluster) := by
  exact ⟨rfl, rfl⟩

end write

namespace Recorded

theorem of_created (driver_state : FAT32DriverState) (after_literal : Fin 3 → UInt8) (d : Disk)
    : Recorded (fun _ _ => none) (create_fat32.created driver_state after_literal d) where
  header := by
    intro p hp
    rw [create_fat32.created_directory_iff] at hp
    rw [hp, create_fat32.created_table]
    apply write.parent_ok_init_directory_table
  dead := by
    intro p i hp hi _
    rw [create_fat32.created_directory_iff] at hp
    rw [hp]
    apply create_fat32.created_dead _ _ _ hi
  live := by
    intro p i request _ _ hsome
    contradiction
  unique := by
    intro p i j hi
    exact absurd hi (create_fat32.not_created_live _ _ _ _)

section

variable {ledger : Ledger} {driver_state : FAT32DriverState} {request : FAT32DriverRequest}
  {d d' : Disk} {i : Fin 64} {cs : List (Fin 512)} {memory : UInt32 → UInt8}
  {newDirectoryTable : FAT32DirectoryTable}

section

variable (hch : write.Chosen request d i cs)
  (hnew : write.Committed memory newDirectoryTable request d i cs d')

include hch hnew

theorem made_iff (j : Fin 64) : Ledger.Made request d d' j ↔ j = i := by
  unfold Ledger.Made Disk.LiveSlot
  constructor
  . intro ⟨hdead, hlive⟩
    by_contra hne
    rw [hnew.table] at hlive
    unfold write.new_table at hlive
    rw [Function.update_of_ne hne] at hlive
    exact hdead hlive
  . intro heq
    rw [heq, hnew.entry_eq, write.new_entry_user_attribute]
    exact ⟨hch.dead, rfl⟩

theorem founded_iff (p : Nat)
    : Ledger.Founded request d d' p
        ↔
      (d'.table request.parent i).attribute = ATTR_SUBDIRECTORY ∧
        p = (d'.table request.parent i).cluster := by
  unfold Ledger.Founded
  simp only [made_iff hch hnew, hnew.isDir_iff, exists_eq_left]
  rw [eq_comm (a := p)]

theorem enter_new : ledger.enter d (.write memory newDirectoryTable request) d' request.parent i
    = some request := by
  unfold Ledger.enter
  dsimp only
  rw [if_pos ⟨rfl, (made_iff hch hnew i).mpr rfl⟩]

theorem enter_founded {p : Nat} {j : Fin 64} (hne : p ≠ request.parent)
    (hdir : (d'.table request.parent i).attribute = ATTR_SUBDIRECTORY)
    (hp : p = (d'.table request.parent i).cluster)
    : ledger.enter d (.write memory newDirectoryTable request) d' p j = none := by
  unfold Ledger.enter
  dsimp only
  rw [if_neg (fun h => hne h.1), if_pos ((founded_iff hch hnew p).mpr ⟨hdir, hp⟩)]

theorem enter_old {p : Nat} {j : Fin 64} (hne : (p, j) ≠ (request.parent, i))
    (hold : (d'.table request.parent i).attribute = ATTR_SUBDIRECTORY →
      p ≠ (d'.table request.parent i).cluster)
    : ledger.enter d (.write memory newDirectoryTable request) d' p j = ledger p j := by
  unfold Ledger.enter
  dsimp only
  rw [if_neg, if_neg]
  . rw [founded_iff hch hnew]
    intro h
    exact hold h.1 h.2
  . rw [made_iff hch hnew]
    intro h
    apply hne
    rw [h.1, h.2]

end

section

variable (h : Recorded ledger d) (hwf : d.WellFormed) (hP : d.Directory request.parent)
  (hch : write.Chosen request d i cs) (hnodup : cs.Nodup)
  (hst : write.Staged memory newDirectoryTable request d i cs d')
  (hnew : write.Committed memory newDirectoryTable request d i cs d')

section

include hwf hch hnew

theorem ne_of_committed {p : Nat} (hp : d.Directory p) : p ≠ (d'.table request.parent i).cluster := by
  intro heq
  apply hwf.not_mem_of_fresh hp hch.isData (fun s m hs hm => hwf.disjoint_of_free hch.isFree hs hm)
  rw [heq, hnew.first_eq]
  cases hcs : cs with
  | nil => exact absurd hcs hch.ne_nil
  | cons c cs => exact List.mem_cons_self

end

include hnew in
theorem entry_of_committed
    (hext : request.buffer_size = 0 → (d.table request.parent i).ext = request.ext)
    : (d'.table request.parent i).name = request.name ∧
        (d'.table request.parent i).ext = request.ext := by
  rw [hnew.entry_eq]
  refine ⟨write.new_entry_name _ _ _, ?_⟩
  rw [write.new_entry_ext]
  split
  . next hzero => exact hext hzero
  . rfl

include hch hnew in
theorem table_of_founded {p : Nat}
    (hdir : (d'.table request.parent i).attribute = ATTR_SUBDIRECTORY ∧
      p = (d'.table request.parent i).cluster)
    : d'.table p = init_directory_table newDirectoryTable request.name
        request.parent_cluster_number := by
  rw [hdir.2]
  apply hnew.table_first hch.ne_nil hdir.1

include h hwf hP hch hnodup hst hnew

theorem header_of_committed {p : Nat} (hp : d'.Directory p) : write.parent_ok (d'.table p) := by
  have hins := hst.insert hch hwf hP hnodup hnew
  cases (hins.directory_iff p).mp hp with
  | inl hold =>
    have hslot : (p, (0 : Fin 64)) ≠ (request.parent, i) := by
      intro heq
      have hi := hch.slot
      have hzero : (0 : Fin 64).val = 0 := rfl
      rw [Prod.mk.injEq] at heq
      rw [← heq.2] at hi
      omega
    unfold write.parent_ok
    rw [hst.table_eq hch hwf hold hslot]
    apply h.header p hold
  | inr hdir =>
    rw [table_of_founded hch hnew hdir]
    apply write.parent_ok_init_directory_table

theorem dead_of_committed {p : Nat} {j : Fin 64} (hp : d'.Directory p) (hj : 2 ≤ j.val)
    (hnone : ledger.enter d (.write memory newDirectoryTable request) d' p j = none)
    : ¬ d'.LiveSlot p j := by
  have hins := hst.insert hch hwf hP hnodup hnew
  unfold Disk.LiveSlot
  cases (hins.directory_iff p).mp hp with
  | inl hold =>
    by_cases hslot : (p, j) = (request.parent, i)
    . rw [Prod.mk.injEq] at hslot
      rw [hslot.1, hslot.2, enter_new hch hnew] at hnone
      contradiction
    . rw [enter_old hch hnew hslot (fun _ => ne_of_committed hwf hch hnew hold)] at hnone
      rw [hst.table_eq hch hwf hold hslot]
      apply h.dead p j hold hj hnone
  | inr hdir =>
    rw [table_of_founded hch hnew hdir]
    apply init_directory_table_of_le _ _ _ hj

theorem live_of_committed
    (hext : request.buffer_size = 0 → (d.table request.parent i).ext = request.ext)
    {p : Nat} {j : Fin 64} {r : FAT32DriverRequest} (hp : d'.Directory p) (hj : 2 ≤ j.val)
    (hsome : ledger.enter d (.write memory newDirectoryTable request) d' p j = some r)
    : d'.LiveSlot p j ∧ (d'.table p j).name = r.name ∧ (d'.table p j).ext = r.ext := by
  have hins := hst.insert hch hwf hP hnodup hnew
  cases (hins.directory_iff p).mp hp with
  | inl hold =>
    by_cases hslot : (p, j) = (request.parent, i)
    . rw [Prod.mk.injEq] at hslot
      rw [hslot.1, hslot.2, enter_new hch hnew, Option.some.injEq] at hsome
      rw [hslot.1, hslot.2, ← hsome]
      exact ⟨((made_iff hch hnew i).mpr rfl).2, entry_of_committed hnew hext⟩
    . rw [enter_old hch hnew hslot (fun _ => ne_of_committed hwf hch hnew hold)] at hsome
      unfold Disk.LiveSlot
      rw [hst.table_eq hch hwf hold hslot]
      apply h.live p j r hold hj hsome
  | inr hdir =>
    have hne : p ≠ request.parent := by
      intro heq
      apply ne_of_committed hwf hch hnew hP
      exact heq.symm.trans hdir.2
    rw [enter_founded hch hnew hne hdir.1 hdir.2] at hsome
    contradiction

variable (hnot : ∀ j ∈ write.slots, ¬ write.named (d.table request.parent) request j)
  (hext : request.buffer_size = 0 → (d.table request.parent i).ext = request.ext)

include hnot hext

theorem unique_of_committed {p : Nat} {a b : Fin 64} (ha : d'.Live (p, a)) (hb : d'.Live (p, b))
    (hname : (d'.table p a).name = (d'.table p b).name)
    (hexts : (d'.table p a).ext = (d'.table p b).ext)
    : a = b := by
  have hins := hst.insert hch hwf hP hnodup hnew
  have hentry := entry_of_committed hnew hext
  have hclash : ∀ j, d.Live (request.parent, j) →
      (d.table request.parent j).name = (d'.table request.parent i).name →
        (d.table request.parent j).ext ≠ (d'.table request.parent i).ext := by
    intro j hlive hname hsame
    rw [hentry.1] at hname
    rw [hentry.2] at hsame
    apply hnot j ((write.mem_slots j).mpr hlive.slot)
    exact ⟨hlive.live, hname.symm, hsame.symm⟩
  have hsame : ∀ j, d.Live (p, j) → d'.table p j = d.table p j :=
    fun j hlive => hins.entry_eq hlive
  cases (hins.live_iff (p, a)).mp ha with
  | inl holda =>
    cases (hins.live_iff (p, b)).mp hb with
    | inl holdb =>
      rw [hsame a holda, hsame b holdb] at hname hexts
      apply h.unique p a b holda holdb hname hexts
    | inr hnewb =>
      rw [Prod.mk.injEq] at hnewb
      rw [hsame a holda, hnewb.1, hnewb.2] at hname hexts
      rw [hnewb.1] at holda
      exact absurd hexts (hclash a holda hname)
  | inr hnewa =>
    rw [Prod.mk.injEq] at hnewa
    cases (hins.live_iff (p, b)).mp hb with
    | inl holdb =>
      rw [hsame b holdb, hnewa.1, hnewa.2] at hname hexts
      rw [hnewa.1] at holdb
      exact absurd hexts.symm (hclash b holdb hname.symm)
    | inr hnewb =>
      rw [Prod.mk.injEq] at hnewb
      rw [hnewa.2, hnewb.2]

theorem of_committed
    : Recorded (ledger.enter d (.write memory newDirectoryTable request) d') d' where
  header _ hp := h.header_of_committed hwf hP hch hnodup hst hnew hp
  dead _ _ hp hj hnone := h.dead_of_committed hwf hP hch hnodup hst hnew hp hj hnone
  live _ _ _ hp hj hsome := h.live_of_committed hwf hP hch hnodup hst hnew hext hp hj hsome
  unique _ _ _ ha hb hname hexts :=
    h.unique_of_committed hwf hP hch hnodup hst hnew hnot hext ha hb hname hexts

end

theorem of_deleted (h : Recorded ledger d) (hwf : d.WellFormed) (hP : d.Directory request.parent)
    {dirTable : FAT32DirectoryTable} (hi : 1 ≤ i.val) (hlive : d.LiveSlot request.parent i)
    (hd : d' = delete.deleted request d i d.fat cs)
    : Recorded (ledger.enter d (.delete dirTable request) d') d' := by
  have hone : request.parent ≠ 1 := hwf.directory_ne_one hP
  have hst : delete.Staged request d i cs d' := by
    rw [hd]
    apply delete.staged_deleted hone
  have hdead : ¬ d'.LiveSlot request.parent i := by
    unfold Disk.LiveSlot
    rw [hd]
    apply delete.deleted_not_live hone
  have hsame : ∀ q j, d.Directory q → (q, j) ≠ (request.parent, i) → d'.table q j = d.table q j := by
    intro q j hq hne
    have := (hwf.directory_bounds hq).1
    apply hst.table_eq (by omega) hne
  have hslot : ∀ q j, d'.LiveSlot q j → (q, j) ≠ (request.parent, i) := by
    intro q j hlive heq
    rw [Prod.mk.injEq] at heq
    rw [heq.1, heq.2] at hlive
    exact hdead hlive
  have hdir : ∀ q, d'.Directory q → d.Directory q := by
    intro q hq
    apply Directory.of_live _ hq
    intro r j hr _ hlive
    apply hsame r j hr (hslot r j hlive)
  have hledger : ∀ q j, (q, j) ≠ (request.parent, i) → d.Directory q →
      ledger.enter d (.delete dirTable request) d' q j = ledger q j := by
    intro q j hne hq
    unfold Ledger.enter
    dsimp only
    rw [if_neg]
    intro ⟨heq, hgone⟩
    apply hgone.2
    unfold Disk.LiveSlot
    rw [heq] at hne
    rw [hsame _ j hP hne]
    exact hgone.1
  refine { header := ?_, dead := ?_, live := ?_, unique := ?_ }
  . intro p hp
    have hzero : (0 : Fin 64).val = 0 := rfl
    unfold write.parent_ok
    rw [hsame p 0 (hdir p hp)]
    . apply h.header p (hdir p hp)
    . intro heq
      rw [Prod.mk.injEq] at heq
      rw [← heq.2] at hi
      omega
  . intro p j hp hj hnone
    by_cases heq : (p, j) = (request.parent, i)
    . rw [Prod.mk.injEq] at heq
      rw [heq.1, heq.2]
      exact hdead
    . rw [hledger p j heq (hdir p hp)] at hnone
      unfold Disk.LiveSlot
      rw [hsame p j (hdir p hp) heq]
      apply h.dead p j (hdir p hp) hj hnone
  . intro p j r hp hj hsome
    by_cases heq : (p, j) = (request.parent, i)
    . rw [Prod.mk.injEq] at heq
      unfold Ledger.enter at hsome
      rw [heq.1, heq.2] at hsome
      dsimp only at hsome
      rw [if_pos ⟨rfl, hlive, hdead⟩] at hsome
      contradiction
    . rw [hledger p j heq (hdir p hp)] at hsome
      unfold Disk.LiveSlot
      rw [hsame p j (hdir p hp) heq]
      apply h.live p j r (hdir p hp) hj hsome
  . intro p a b ha hb hname hext
    have hp := hdir p ha.dir
    have hsamea := hsame p a hp (hslot p a ha.live)
    have hsameb := hsame p b hp (hslot p b hb.live)
    have hlivea : d.LiveSlot p a := by
      unfold Disk.LiveSlot
      rw [← hsamea]
      exact ha.live
    have hliveb : d.LiveSlot p b := by
      unfold Disk.LiveSlot
      rw [← hsameb]
      exact hb.live
    rw [hsamea, hsameb] at hname hext
    apply h.unique p a b ⟨hp, ha.slot, hlivea⟩ ⟨hp, hb.slot, hliveb⟩ hname hext

end

theorem of_write {ledger : Ledger} {driver_state st : FAT32DriverState} {d d' : Disk} {code : Int}
    {memory : UInt32 → UInt8} {newDirectoryTable : FAT32DirectoryTable}
    {request : FAT32DriverRequest} (h : Recorded ledger d) (hwf : d.WellFormed)
    (hP : d.Directory request.parent) (hshort : ¬ write.short request d)
    (hext : write.KeepsExt request d)
    (hrun : (write driver_state memory newDirectoryTable request).run diskDevice d
      = some ((code, st), d'))
    : Recorded (ledger.enter d (.write memory newDirectoryTable request) d') d' := by
  cases write.run_cases _ _ _ _ _ hrun with
  | inl hfail =>
    rcases hfail with ⟨_, _, rfl⟩
    rw [Ledger.enter_same]
    exact h
  | inr hcommit =>
    rcases hcommit with ⟨i, cs, _, hparent, hsearch, _, rfl⟩
    have hch := write.chosen_of_search hsearch
    have hnodup := write.nodup_of_not_short _ _ hparent hshort hsearch
    have hnot := (write.search_isSome_iff request d).mp ⟨_, hsearch⟩
    have henough := write.enough_of_not_short request d hparent hshort hsearch
    have hpos := write.required_clusters_pos request
    apply h.of_committed hwf hP hch hnodup
    . apply write.staged_of_chosen memory newDirectoryTable hch hwf hP hnodup
    . apply write.committed_of_chosen memory newDirectoryTable hch hwf hP hnodup
    . exact hnot
    . intro hzero
      apply hext hzero _ hnot i (write.search_of_enough request d henough hsearch).1
      intro hnil
      rw [hnil, List.length_nil] at henough
      omega

theorem of_delete {ledger : Ledger} {driver_state st : FAT32DriverState} {d d' : Disk} {code : Int}
    {dirTable : FAT32DirectoryTable} {request : FAT32DriverRequest} (h : Recorded ledger d)
    (hwf : d.WellFormed) (hcache : driver_state.fat_table = d.fat)
    (hP : d.Directory request.parent)
    (hrun : (delete driver_state dirTable request).run diskDevice d = some ((code, st), d'))
    : Recorded (ledger.enter d (.delete dirTable request) d') d' := by
  cases delete.run_cases _ _ _ _ hrun with
  | inl hfail =>
    rcases hfail with ⟨_, _, rfl⟩
    rw [Ledger.enter_same]
    exact h
  | inr hdelete =>
    rcases hdelete with ⟨i, cs, _, hsearched, _, _, _, hd⟩
    have hhit := delete.hit_of_searched _ _ hsearched
    rw [hcache] at hd
    apply h.of_deleted hwf hP hhit.1 hhit.2.1 hd

theorem of_step {ledger : Ledger} {s s' : FAT32DriverState × Disk} {op : Operation}
    (h : Recorded ledger s.2) (hs : Coherent s) (hcareful : op.Careful s) (hext : op.KeepsExt s)
    (hstep : driver.step s op s')
    : Recorded (ledger.enter s.2 op s'.2) s'.2 := by
  rcases s with ⟨driver_state, d⟩
  rcases s' with ⟨driver_state', d'⟩
  rcases hstep with ⟨hP, code, hrun⟩
  rw [← hs.wellFormed.parent_eq hP] at hP
  dsimp only at hrun
  cases op with
  | write memory newDirectoryTable request =>
    have hwrite : (write driver_state memory newDirectoryTable request).run diskDevice d
      = some ((code, driver_state'), d') := hrun
    apply h.of_write hs.wellFormed hP hcareful hext hwrite
  | read request =>
    rw [(Operation.read_cases hrun).1, Ledger.enter_same]
    exact h
  | read_directory request =>
    rw [(Operation.read_directory_cases hrun).1, Ledger.enter_same]
    exact h
  | delete dirTable request => apply h.of_delete hs.wellFormed hs.cache hP hrun

theorem of_run {s₀ s : FAT32DriverState × Disk}
    {steps : List ((FAT32DriverState × Disk) × Operation × FAT32DriverState × Disk)}
    (hinit : driver.init s₀)
    (hrun : driver.Run (fun s op => op.Careful s ∧ op.KeepsExt s) s₀ steps s)
    : Coherent s ∧ Recorded (Ledger.ofRun steps) s.2 := by
  apply hrun.invariant (J := fun steps s => Coherent s ∧ Recorded (Ledger.ofRun steps) s.2)
  . refine ⟨Coherent.of_create hinit, ?_⟩
    rcases hinit with ⟨driver_state, after_literal, d, hcreate⟩
    rw [create_fat32.run_create_fat32, Option.some.injEq] at hcreate
    rw [← hcreate]
    apply of_created
  . intro steps s op s' ⟨hcoherent, hrecorded⟩ hok hstep
    refine ⟨hcoherent.of_step hok.1 hstep, ?_⟩
    unfold Ledger.ofRun
    rw [List.foldl_concat]
    apply hrecorded.of_step hcoherent hok.1 hok.2 hstep

theorem named_iff {ledger : Ledger} {d : Disk} {request : FAT32DriverRequest}
    (h : Recorded ledger d) (hP : d.Directory request.parent)
    : (∃ i ∈ write.slots, write.named (d.table request.parent) request i)
        ↔
      ∃ i r, 2 ≤ i.val ∧ ledger request.parent i = some r ∧ r.name = request.name ∧
        r.ext = request.ext := by
  constructor
  . intro ⟨i, hi, hlive, hname, hext⟩
    have hi := (write.mem_slots i).mp hi
    cases hledger : ledger request.parent i with
    | none => exact absurd hlive (h.dead _ i hP hi hledger)
    | some r =>
      have hentry := h.live _ i r hP hi hledger
      refine ⟨i, r, hi, hledger, ?_, ?_⟩
      . rw [← hentry.2.1, hname]
      . rw [← hentry.2.2, hext]
  . intro ⟨i, r, hi, hledger, hname, hext⟩
    have hentry := h.live _ i r hP hi hledger
    refine ⟨i, (write.mem_slots i).mpr hi, hentry.1, ?_, ?_⟩
    . rw [hentry.2.1, hname]
    . rw [hentry.2.2, hext]

end Recorded

namespace write

theorem run_one_iff (driver_state : FAT32DriverState) (memory : UInt32 → UInt8)
    (newDirectoryTable : FAT32DirectoryTable) {request : FAT32DriverRequest} {d : Disk}
    (hparent : parent_ok (d.table request.parent))
    : (∃ st, (write driver_state memory newDirectoryTable request).run diskDevice d
          = some ((1, st), d))
        ↔
      ∃ i ∈ slots, named (d.table request.parent) request i := by
  have hsome := search_isSome_iff request d
  rw [run_of_parent_ok _ _ _ _ _ hparent]
  constructor
  . intro ⟨st, hrun⟩
    by_contra hnot
    rcases hsome.mpr (fun i hi hname => hnot ⟨i, hi, hname⟩) with ⟨⟨slot, cs⟩, hsearch⟩
    rw [hsearch] at hrun
    cases slot with
    | none => simp at hrun
    | some i => simp at hrun
  . intro ⟨i, hi, hname⟩
    cases hsearch : search request d with
    | none => exact ⟨_, rfl⟩
    | some found => exact absurd hname (hsome.mp ⟨found, hsearch⟩ i hi)

end write

/--
In every run whose requests are careful and whose new directories keep the extension of their slot:
the names in a directory differ, they are those of the requests in the ledger, and `write` refuses a
name exactly when the ledger has it.
-/
theorem names_recorded {s₀ s : FAT32DriverState × Disk}
    {steps : List ((FAT32DriverState × Disk) × Operation × FAT32DriverState × Disk)}
    (hinit : driver.init s₀)
    (hrun : driver.Run (fun s op => op.Careful s ∧ op.KeepsExt s) s₀ steps s)
    : (∀ p i j, s.2.Live (p, i) → s.2.Live (p, j) →
          (s.2.table p i).name = (s.2.table p j).name →
            (s.2.table p i).ext = (s.2.table p j).ext → i = j)
        ∧
      (∀ p i, s.2.Live (p, i) → ∃ r, Ledger.ofRun steps p i = some r ∧
        (s.2.table p i).name = r.name ∧ (s.2.table p i).ext = r.ext)
        ∧
      ∀ request memory newDirectoryTable,
        s.2.Directory request.parent_cluster_number.toNat →
          ((∃ st, (write s.1 memory newDirectoryTable request).run diskDevice s.2
              = some ((1, st), s.2))
            ↔
          ∃ i r, 2 ≤ i.val ∧ Ledger.ofRun steps request.parent i = some r ∧
            r.name = request.name ∧ r.ext = request.ext) := by
  rcases Recorded.of_run hinit hrun with ⟨hcoherent, hrecorded⟩
  refine ⟨hrecorded.unique, ?_, ?_⟩
  . intro p i hs
    cases hledger : Ledger.ofRun steps p i with
    | none => exact absurd hs.live (hrecorded.dead p i hs.dir hs.slot hledger)
    | some r => exact ⟨r, rfl, (hrecorded.live p i r hs.dir hs.slot hledger).2⟩
  . intro request memory newDirectoryTable hP
    rw [← hcoherent.wellFormed.parent_eq hP] at hP
    rw [write.run_one_iff _ _ _ (hrecorded.header _ hP), hrecorded.named_iff hP]

theorem init_fresh : driver.init (fresh_driver, fresh) := by
  exact ⟨.zero, fun _ => 0, fun _ _ => 0, create_fat32.run_create_fat32 _ _ _⟩

theorem names_recorded_populated
    : ∃ steps st, driver.Run (fun s op => op.Careful s ∧ op.KeepsExt s) (fresh_driver, fresh) steps
          (st, write.populated) ∧
        ∀ p i, write.populated.Live (p, i) → ∃ r, Ledger.ofRun steps p i = some r ∧
          (write.populated.table p i).name = r.name ∧ (write.populated.table p i).ext = r.ext := by
  have hcareful : (Operation.write (fun _ => 0x41) (fun _ => .zero) write.small).Careful
      (fresh_driver, fresh) := not_short_small fresh
  have hext : (Operation.write (fun _ => 0x41) (fun _ => .zero) write.small).KeepsExt
      (fresh_driver, fresh) := by
    intro hzero
    contradiction
  have hstep : driver.step (fresh_driver, fresh)
      (.write (fun _ => 0x41) (fun _ => .zero) write.small)
      (⟨write.link [3] fresh.fat, write.new_table write.small fresh 2 [3]⟩, write.populated) :=
    ⟨Directory.root, 0, write.run_small fresh_driver⟩
  have hrun : driver.Run (fun s op => op.Careful s ∧ op.KeepsExt s) (fresh_driver, fresh) _ _ :=
    System.Run.refl.tail ⟨hcareful, hext⟩ hstep
  exact ⟨_, _, hrun, (names_recorded init_fresh hrun).2.1⟩

namespace folder

def request : FAT32DriverRequest where
  buf := 0
  name := ![0x62, 0, 0, 0, 0, 0, 0, 0]
  ext := ![0x78, 0x79, 0x7A]
  parent_cluster_number := 2
  buffer_size := 0

def operation : Operation :=
  .write (fun _ => 0) (fun _ => .zero) request

def once : Disk :=
  write.committed (fun _ => 0) (fun _ => .zero) request fresh 2 [3]

def twice : Disk :=
  write.committed (fun _ => 0) (fun _ => .zero) request once 3 [4]

theorem careful (s : FAT32DriverState × Disk) : operation.Careful s := by
  apply write.not_short_of_required_one
  decide

theorem step_once
    : driver.step (fresh_driver, fresh) operation
        (⟨write.link [3] fresh.fat, write.new_table request fresh 2 [3]⟩, once) := by
  refine ⟨Directory.root, 0, ?_⟩
  have hrun := write.run_of_parent_ok fresh_driver (fun _ => 0) (fun _ => .zero) request fresh
    (write.parent_ok_fresh rfl)
  rw [write.search_fresh rfl (by decide)] at hrun
  exact hrun

theorem step_twice (driver_state : FAT32DriverState)
    : driver.step (driver_state, once) operation
        (⟨write.link [4] once.fat, write.new_table request once 3 [4]⟩, twice) := by
  refine ⟨Directory.root, 0, ?_⟩
  have hparent : write.parent_ok (once.table request.parent) := by
    decide
  have hsearch : write.search request once = some ⟨some 3, [4]⟩ := by
    decide +kernel
  have hrun := write.run_of_parent_ok driver_state (fun _ => 0) (fun _ => .zero) request once hparent
  rw [hsearch] at hrun
  exact hrun

end folder

theorem not_names_recorded
    : ∃ steps s, driver.Run (fun s op => op.Careful s) (fresh_driver, fresh) steps s ∧
        s.2.Live (2, 2) ∧ s.2.Live (2, 3) ∧ (s.2.table 2 2).name = (s.2.table 2 3).name ∧
        (s.2.table 2 2).ext = (s.2.table 2 3).ext ∧
        (s.2.table 2 2).ext ≠ folder.request.ext := by
  have honce : driver.Run (fun s op => op.Careful s) (fresh_driver, fresh) _ _ :=
    System.Run.refl.tail (folder.careful _) folder.step_once
  have htwice := honce.tail (folder.careful _) (folder.step_twice _)
  have hlive : folder.twice.LiveSlot 2 2 ∧ folder.twice.LiveSlot 2 3 := by
    decide
  refine ⟨_, _, htwice, ?_, ?_, ?_⟩
  . exact ⟨Directory.root, Nat.le_refl 2, hlive.1⟩
  . exact ⟨Directory.root, Nat.le_succ 2, hlive.2⟩
  . dsimp only
    decide

end AiOS
