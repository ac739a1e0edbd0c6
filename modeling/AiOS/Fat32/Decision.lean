import AiOS.Fat32.Lemmas.Create
import AiOS.Fat32.Lemmas.Write

/-!
This module contains the code that the checks of `write` call for, and exactly when `write` returns
it and leaves the disk alone on an error.
-/

namespace AiOS
namespace write

variable (request : FAT32DriverRequest) (d : Disk)

def needed : Nat :=
  max 1 ((request.buffer_size.toNat + (CLUSTER_SIZE - 1)) / CLUSTER_SIZE)

def decision : Int :=
  let table := d.table request.parent
  if ¬ parent_ok table then
    2
  else if ∃ i ∈ slots, named table request i then
    1
  else if free_slots table slots = [] ∨ (empty_clusters d.fat).length < needed request then
    -1
  else
    0

/--
On a stack that has `stack` bytes left for `cluster_numbers`.
-/
def Decides (stack : Nat) : Prop :=
  ∀ driver_state memory newDirectoryTable, ∃ code st d',
    (onStack (some stack) driver_state memory newDirectoryTable request).run diskDevice d
      = some ((code, st), d') ∧
        code = decision request d ∧ (code ≠ 0 → d' = d)

variable {request d}

theorem decision_of_not_parent_ok (hparent : ¬ parent_ok (d.table request.parent))
    : decision request d = 2 := by
  unfold decision
  dsimp only
  rw [if_pos hparent]

section

variable (hparent : parent_ok (d.table request.parent))

include hparent

theorem decision_of_named (h : ∃ i ∈ slots, named (d.table request.parent) request i)
    : decision request d = 1 := by
  unfold decision
  dsimp only
  rw [if_neg (not_not.mpr hparent), if_pos h]

variable (hnames : ∀ i ∈ slots, ¬ named (d.table request.parent) request i)

include hnames

theorem decision_of_new
    : decision request d
        =
      if free_slots (d.table request.parent) slots = []
          ∨ (empty_clusters d.fat).length < required_clusters request then
        -1
      else
        0 := by
  have hnew : ¬ ∃ i ∈ slots, named (d.table request.parent) request i := by
    intro ⟨i, hi, hname⟩
    apply hnames i hi hname
  unfold decision needed
  dsimp only
  rw [if_neg (not_not.mpr hparent), if_neg hnew, required_clusters_eq]

theorem decision_of_slot {i : Fin 64} {cs : List (Fin 512)} (hshort : ¬ short request d)
    (h : search request d = some ⟨some i, cs⟩)
    : decision request d = 0 := by
  have hfit := le_of_search_some _ _ h
  rw [decision_of_new hparent hnames, if_neg]
  rw [not_or]
  refine ⟨?_, ?_⟩
  . intro hnil
    have hpos := required_clusters_pos request
    rw [hnil, List.length_nil, Nat.mul_zero] at hfit
    omega
  . intro hlt
    apply hshort
    exact ⟨hparent, hnames, hlt, hfit⟩

theorem decision_of_no_slot {cs : List (Fin 512)} (h : search request d = some ⟨none, cs⟩)
    : decision request d = -1 := by
  have hlt := lt_of_search_none _ _ h
  rw [decision_of_new hparent hnames, if_pos]
  by_contra hno
  rw [not_or] at hno
  have hslots := List.length_pos_iff.mpr hno.1
  have := Nat.le_mul_of_pos_right (empty_clusters d.fat).length hslots
  omega

end

theorem run_of_short (hshort : short request d) (driver_state : FAT32DriverState)
    (memory : UInt32 → UInt8) (newDirectoryTable : FAT32DirectoryTable)
    : ∃ st d', (write driver_state memory newDirectoryTable request).run diskDevice d
          = some ((0, st), d') ∧
        decision request d = -1 := by
  rcases search_of_short _ _ hshort with ⟨i, cs, hsearch⟩
  rw [run_of_parent_ok _ _ _ _ _ hshort.1, hsearch]
  refine ⟨_, _, rfl, ?_⟩
  rw [decision_of_new hshort.1 hshort.2.1, if_pos (Or.inr hshort.2.2.1)]

theorem run_of_not_short (hshort : ¬ short request d) (driver_state : FAT32DriverState)
    (memory : UInt32 → UInt8) (newDirectoryTable : FAT32DirectoryTable)
    : ∃ code st d', (write driver_state memory newDirectoryTable request).run diskDevice d
          = some ((code, st), d') ∧
        code = decision request d ∧ (code ≠ 0 → d' = d) := by
  by_cases hparent : parent_ok (d.table request.parent)
  . rw [run_of_parent_ok _ _ _ _ _ hparent]
    cases hsearch : search request d with
    | none =>
      refine ⟨_, _, _, rfl, ?_, fun _ => rfl⟩
      unfold search at hsearch
      rw [decision_of_named hparent (find_slot_eq_none_iff.mp hsearch)]
    | some found =>
      have hnames := (search_isSome_iff request d).mp ⟨found, hsearch⟩
      rcases found with ⟨slot, cs⟩
      cases slot with
      | none =>
        refine ⟨_, _, _, rfl, ?_, fun _ => rfl⟩
        rw [decision_of_no_slot hparent hnames hsearch]
      | some i =>
        refine ⟨_, _, _, rfl, ?_, ?_⟩
        . rw [decision_of_slot hparent hnames hshort hsearch]
        . intro hne
          contradiction
  . rw [run_of_not_parent_ok _ _ _ _ _ hparent]
    refine ⟨_, _, _, rfl, ?_, fun _ => rfl⟩
    rw [decision_of_not_parent_ok hparent]

section

variable {stack : Nat}

theorem not_decides_of_not_fits (hparent : parent_ok (d.table request.parent))
    (hover : ¬ FitsStack stack request)
    : ¬ Decides request d stack := by
  intro h
  rcases h .zero (fun _ => 0) (fun _ => .zero) with ⟨code, st, d', hrun, _⟩
  rw [run_onStack, if_pos ⟨hparent, hover⟩] at hrun
  contradiction

theorem not_decides_of_short (hshort : short request d) : ¬ Decides request d stack := by
  intro h
  by_cases hfits : FitsStack stack request
  . rcases h .zero (fun _ => 0) (fun _ => .zero) with ⟨code, st, d', hrun, hcode, _⟩
    rcases run_of_short hshort .zero (fun _ => 0) (fun _ => .zero) with ⟨st', d'', hrun', hdecision⟩
    rw [run_onStack, if_neg (fun hover => hover.2 hfits), hrun'] at hrun
    simp only [Option.some.injEq, Prod.mk.injEq] at hrun
    omega
  . exact not_decides_of_not_fits hshort.1 hfits h

/--
`write` decides correctly and fails atomically where there is room for `cluster_numbers` as soon as
the parent has passed its check, except where the empty clusters are too few and get counted once for
each free slot.
-/
theorem decides_iff (request : FAT32DriverRequest) (d : Disk) (stack : Nat)
    : Decides request d stack
        ↔
      (parent_ok (d.table request.parent) → FitsStack stack request) ∧ ¬ short request d := by
  constructor
  . intro h
    refine ⟨?_, fun hshort => not_decides_of_short hshort h⟩
    intro hparent
    by_contra hover
    exact not_decides_of_not_fits hparent hover h
  . intro ⟨hroom, hshort⟩ driver_state memory newDirectoryTable
    rw [run_onStack, if_neg (fun hover => hover.2 (hroom hover.1))]
    exact run_of_not_short hshort driver_state memory newDirectoryTable

end

def oversized : FAT32DriverRequest where
  buf := 0
  name := ![0x6C, 0x61, 0x72, 0x67, 0x65, 0, 0, 0]
  ext := ![0x62, 0x69, 0x6E]
  parent_cluster_number := 2
  buffer_size := 1044480

theorem length_empty_clusters_fresh : (empty_clusters fresh.fat).length = 509 := by
  unfold fresh
  rw [create_fat32.created_fat, create_fat32.empty_clusters_fat_table, length_clusters]

section

variable {request : FAT32DriverRequest} (hroot : request.parent_cluster_number = 2)

include hroot

theorem parent_root : request.parent = 2 := by
  unfold FAT32DriverRequest.parent
  rw [hroot]
  rfl

theorem parent_ok_fresh : parent_ok (fresh.table request.parent) := by
  rw [parent_root hroot]
  unfold fresh
  rw [create_fat32.created_table]
  exact ⟨rfl, rfl⟩

theorem not_named_fresh : ∀ i ∈ slots, ¬ named (fresh.table request.parent) request i := by
  intro i hi
  rw [parent_root hroot]
  apply create_fat32.not_named_created _ _ _ hi

theorem free_slots_fresh : free_slots (fresh.table request.parent) slots = slots := by
  rw [parent_root hroot]
  apply create_fat32.free_slots_created

theorem short_fresh (hlt : 509 < required_clusters request)
    (hle : required_clusters request ≤ 509 * 62)
    : short request fresh := by
  refine ⟨parent_ok_fresh hroot, not_named_fresh hroot, ?_, ?_⟩
  . rw [length_empty_clusters_fresh]
    exact hlt
  . rw [length_empty_clusters_fresh, free_slots_fresh hroot, length_slots]
    exact hle

theorem run_fresh (hle : required_clusters request ≤ 509) (driver_state : FAT32DriverState)
    (memory : UInt32 → UInt8) (newDirectoryTable : FAT32DirectoryTable)
    : ∃ st d', (write driver_state memory newDirectoryTable request).run diskDevice fresh
        = some ((0, st), d') := by
  have hshort : ¬ short request fresh := by
    intro h
    have hlt := h.2.2.1
    rw [length_empty_clusters_fresh] at hlt
    omega
  have hdecision : decision request fresh = 0 := by
    rw [decision_of_new (parent_ok_fresh hroot) (not_named_fresh hroot), if_neg]
    rw [length_empty_clusters_fresh, free_slots_fresh hroot, not_or]
    refine ⟨?_, by omega⟩
    apply List.ne_nil_of_length_eq_add_one length_slots
  rcases run_of_not_short hshort driver_state memory newDirectoryTable with
    ⟨code, st, d', hrun, hcode, _⟩
  rw [hcode, hdecision] at hrun
  exact ⟨st, d', hrun⟩

end

theorem oversized_short : short oversized fresh := by
  apply short_fresh rfl
  . decide
  . decide

-- of `kernel-entrypoint.s`
def KERNEL_STACK_SIZE : Nat :=
  2097152

/--
A file as long as a request can ask for. Its cluster numbers take 8 MiB.
-/
def largest : FAT32DriverRequest :=
  { oversized with buffer_size := 0xFFFFFFFF }

/--
One request takes an empty cluster twice, and the other one leaves the stack.
-/
theorem not_decides_oversized
    : fresh.WellFormed ∧ ¬ Decides oversized fresh KERNEL_STACK_SIZE ∧
        ¬ Decides largest fresh KERNEL_STACK_SIZE := by
  refine ⟨fresh_wellFormed, not_decides_of_short oversized_short, ?_⟩
  apply not_decides_of_not_fits (parent_ok_fresh rfl)
  decide

end write
end AiOS
