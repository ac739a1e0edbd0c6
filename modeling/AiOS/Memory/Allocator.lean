import AiOS.Lib.System
import AiOS.Memory.Mapping

/-!
This module contains what stays true of the page frames under any sequence of the calls that
allocate and free them, and of the calls that take and give back page directories.
-/

namespace AiOS

inductive PagingCall where
  | create
  | allocate (page_dir : PageDirectoryPointer) (virtual_addr : UInt32)
  | free (page_dir : PageDirectoryPointer) (virtual_addr : UInt32)
  | free_directory (page_dir : PageDirectoryPointer)

def PagingState.InUse (s : PagingState) : PageDirectoryPointer → Prop
  | .null => False
  | .kernel => True
  | .list i => s.page_directory_used i = true

def PagingState.Maps (s : PagingState) (page_dir : PageDirectoryPointer) (k : Fin 1024) (f : Fin 32)
    : Prop :=
  ∃ table, s.directory page_dir = some table ∧ table.Maps k f

/--
The paging state, with the entries that an allocation put into a page directory, and that were
neither freed nor overwritten since.
-/
structure Allocator where
  paging : PagingState
  put : PageDirectoryPointer → Fin 1024 → Bool

def Allocator.note (a : Allocator) (page_dir : PageDirectoryPointer) (k : Fin 1024) (b : Bool)
    : PageDirectoryPointer → Fin 1024 → Bool :=
  Function.update a.put page_dir (Function.update (a.put page_dir) k b)

def Allocator.exec (a : Allocator) (call : PagingCall) : Option Allocator :=
  match call with
  | .create =>
    let (page_dir, paging) := paging_create_new_page_directory a.paging
    some ⟨paging, Function.update a.put page_dir fun _ => false⟩
  | .allocate page_dir virtual_addr => do
    let (physical_addr, paging) ←
      paging_allocate_user_page_frame a.paging page_dir virtual_addr
    if physical_addr = 0 then
      return ⟨paging, a.put⟩
    else
      return ⟨paging, a.note page_dir (page_index virtual_addr) true⟩
  | .free page_dir virtual_addr => do
    let (_, paging) ← paging_free_user_page_frame a.paging page_dir virtual_addr
    return ⟨paging, a.note page_dir (page_index virtual_addr) false⟩
  | .free_directory page_dir =>
    some ⟨(paging_free_page_directory a.paging page_dir).2, a.put⟩

/--
The address is below the kernel, the page directory is in use, and what is freed was allocated.
-/
def PagingCall.Allowed (a : Allocator) : PagingCall → Prop
  | .create => True
  | .allocate page_dir virtual_addr =>
    virtual_addr < KERNEL_VIRTUAL_ADDRESS_BASE ∧ a.paging.InUse page_dir
  | .free page_dir virtual_addr =>
    virtual_addr < KERNEL_VIRTUAL_ADDRESS_BASE ∧ a.paging.InUse page_dir ∧
      a.put page_dir (page_index virtual_addr) = true
  | .free_directory page_dir => a.paging.InUse page_dir

/--
As `paging.c` initialises `page_manager_state` and `page_directory_manager`.
-/
structure PagingState.Fresh (s : PagingState) : Prop where
  page_frame_map : ∀ f, s.page_frame_map f = decide (f = 0)
  free_page_frame_count : s.free_page_frame_count = 31
  page_directory_used : ∀ i, s.page_directory_used i = false

def allocator : System Allocator PagingCall where
  init a := a.paging.Fresh ∧ ∀ page_dir k, a.put page_dir k = false
  step a call a' := a.exec call = some a'

namespace PagingState

variable {s : PagingState} {page_dir page_dir' : PageDirectoryPointer} {k k' : Fin 1024} {f : Fin 32}
  {table : PageDirectory} {entry : PageDirectoryEntry}

theorem InUse.ne_null (h : s.InUse page_dir) : page_dir ≠ .null := by
  intro hnull
  rw [hnull] at h
  exact h

theorem InUse.exists_directory (h : s.InUse page_dir) : ∃ table, s.directory page_dir = some table := by
  cases page_dir with
  | null => contradiction
  | kernel => exact ⟨_, rfl⟩
  | list i => exact ⟨_, rfl⟩

section

variable (s page_dir table)

@[simp]
theorem page_frame_map_set_directory
    : (s.set_directory page_dir table).page_frame_map = s.page_frame_map := by
  cases page_dir with
  | null => rfl
  | kernel => rfl
  | list i => rfl

@[simp]
theorem free_page_frame_count_set_directory
    : (s.set_directory page_dir table).free_page_frame_count = s.free_page_frame_count := by
  cases page_dir with
  | null => rfl
  | kernel => rfl
  | list i => rfl

@[simp]
theorem page_directory_used_set_directory
    : (s.set_directory page_dir table).page_directory_used = s.page_directory_used := by
  cases page_dir with
  | null => rfl
  | kernel => rfl
  | list i => rfl

end

theorem inUse_congr {s' : PagingState} (h : s'.page_directory_used = s.page_directory_used)
    : s'.InUse page_dir ↔ s.InUse page_dir := by
  cases page_dir with
  | null => rfl
  | kernel => rfl
  | list i =>
    unfold InUse
    rw [h]

theorem directory_set_directory_self (h : page_dir ≠ .null)
    : (s.set_directory page_dir table).directory page_dir = some table := by
  cases page_dir with
  | null => contradiction
  | kernel => rfl
  | list i =>
    unfold set_directory directory
    simp

theorem directory_set_directory_of_ne (h : page_dir' ≠ page_dir)
    : (s.set_directory page_dir table).directory page_dir' = s.directory page_dir' := by
  cases page_dir with
  | null => rfl
  | kernel =>
    cases page_dir' with
    | null => rfl
    | kernel => contradiction
    | list j => rfl
  | list i =>
    cases page_dir' with
    | null => rfl
    | kernel => rfl
    | list j =>
      have hne : j ≠ i := by
        intro hij
        apply h
        rw [hij]
      unfold set_directory directory
      dsimp only
      rw [Function.update_of_ne hne]

theorem maps_set_directory_self (h : page_dir ≠ .null)
    : (s.set_directory page_dir (Function.update table k entry)).Maps page_dir k f
        ↔
      entry.flag.present_bit = true ∧ entry.lower_address.val = f.val := by
  unfold Maps PageDirectory.Maps
  rw [directory_set_directory_self h]
  simp

theorem maps_set_directory_of_ne (htable : s.directory page_dir = some table)
    (hne : page_dir' = page_dir → k' ≠ k)
    : (s.set_directory page_dir (Function.update table k entry)).Maps page_dir' k' f
        ↔
      s.Maps page_dir' k' f := by
  have hnull : page_dir ≠ .null := by
    intro hnull
    rw [hnull] at htable
    contradiction
  unfold Maps PageDirectory.Maps
  by_cases hdir : page_dir' = page_dir
  . rw [hdir, directory_set_directory_self hnull, htable]
    simp [Function.update_of_ne (hne hdir)]
  . rw [directory_set_directory_of_ne hdir]

def take_frame (s : PagingState) (f : Fin 32) : PagingState :=
  { s with
    page_frame_map := Function.update s.page_frame_map f true
    free_page_frame_count := s.free_page_frame_count - 1 }

def release_frame (s : PagingState) (f : Fin 32) : PagingState :=
  { s with
    page_frame_map := Function.update s.page_frame_map f false
    free_page_frame_count := s.free_page_frame_count + 1 }

end PagingState

section

variable {s : PagingState} {page_dir : PageDirectoryPointer} {virtual_addr : UInt32}
  {table : PageDirectory}

theorem paging_allocate_user_page_frame_of_none (h : Slots.free s.page_frame_map = none)
    : paging_allocate_user_page_frame s page_dir virtual_addr = some (0, s) := by
  unfold paging_allocate_user_page_frame
  rw [h]

theorem paging_allocate_user_page_frame_of_some {f : Fin 32}
    (h : Slots.free s.page_frame_map = some f) (htable : s.directory page_dir = some table)
    : paging_allocate_user_page_frame s page_dir virtual_addr
        =
      some (UInt32.ofNat f * PAGE_FRAME_SIZE,
        (s.take_frame f).set_directory page_dir
          (update_entry table (UInt32.ofNat f * PAGE_FRAME_SIZE) virtual_addr
            ⟨true, true, true, true⟩)) := by
  unfold paging_allocate_user_page_frame
  rw [h]
  cases page_dir with
  | null => contradiction
  | kernel =>
    injection htable with htable
    rw [← htable]
    rfl
  | list i =>
    injection htable with htable
    rw [← htable]
    rfl

theorem paging_free_user_page_frame_of_maps {f : Fin 32} {k : Fin 1024}
    (hk : page_index virtual_addr = k) (htable : s.directory page_dir = some table)
    (hmaps : table.Maps k f)
    : ∃ entry : PageDirectoryEntry,
        paging_free_user_page_frame s page_dir virtual_addr
          =
        some (true,
          (s.release_frame f).set_directory page_dir (Function.update table k entry)) := by
  have hlt : (table k).lower_address.val < 32 := by
    rw [hmaps.2]
    apply f.isLt
  have hf : (⟨(table k).lower_address.val, hlt⟩ : Fin 32) = f := Fin.ext hmaps.2
  unfold paging_free_user_page_frame
  dsimp only [Option.bind_eq_bind]
  rw [htable, Option.bind_some, hk, if_pos hmaps.1, dif_pos hlt, hf]
  exact ⟨_, rfl⟩

theorem paging_create_new_page_directory_frames (s : PagingState)
    : (paging_create_new_page_directory s).2.page_frame_map = s.page_frame_map ∧
        (paging_create_new_page_directory s).2.free_page_frame_count = s.free_page_frame_count := by
  unfold paging_create_new_page_directory
  split
  . exact ⟨rfl, rfl⟩
  . exact ⟨rfl, rfl⟩

theorem paging_free_page_directory_frames (s : PagingState) (page_dir : PageDirectoryPointer)
    : (paging_free_page_directory s page_dir).2.page_frame_map = s.page_frame_map ∧
        (paging_free_page_directory s page_dir).2.free_page_frame_count
          = s.free_page_frame_count := by
  unfold paging_free_page_directory
  split
  . exact ⟨rfl, rfl⟩
  . exact ⟨rfl, rfl⟩

theorem frame_address_ne_zero {f : Fin 32} (h : f ≠ 0)
    : UInt32.ofNat f * PAGE_FRAME_SIZE ≠ 0 := by
  intro hzero
  have hnat := congrArg UInt32.toNat hzero
  have hsize : PAGE_FRAME_SIZE.toNat = 2 ^ 22 := rfl
  have hz : (0 : UInt32).toNat = 0 := rfl
  rw [UInt32.toNat_mul, UInt32.toNat_ofNat', hsize, hz] at hnat
  apply h
  apply Fin.ext
  rw [Fin.val_zero]
  omega

end

namespace Allocator

/--
The entry of a page directory in use that an allocation put owns the frame it maps, and the kernel
owns frame 0.
-/
def Owns (a : Allocator) : Option (PageDirectoryPointer × Fin 1024) → Fin 32 → Prop
  | none, f => f = 0
  | some (page_dir, k), f =>
    a.paging.InUse page_dir ∧ a.put page_dir k = true ∧ a.paging.Maps page_dir k f

structure Sound (a : Allocator) : Prop where
  counted : a.paging.free_page_frame_count.toNat + Slots.count a.paging.page_frame_map = 32
  mapped : ∀ page_dir k, a.paging.InUse page_dir → a.put page_dir k = true →
    ∃ f, a.paging.Maps page_dir k f
  owned : Slots.Owned a.Owns a.paging.page_frame_map

variable {a a' : Allocator} {page_dir page_dir' : PageDirectoryPointer} {k k' : Fin 1024} {f : Fin 32}
  {table : PageDirectory} {entry : PageDirectoryEntry} {call : PagingCall} {virtual_addr : UInt32}

@[simp]
theorem note_self (a : Allocator) (page_dir : PageDirectoryPointer) (k : Fin 1024) (b : Bool)
    : a.note page_dir k b page_dir k = b := by
  simp [note]

theorem note_of_ne {b : Bool} (hne : page_dir' = page_dir → k' ≠ k)
    : a.note page_dir k b page_dir' k' = a.put page_dir' k' := by
  unfold note
  by_cases hdir : page_dir' = page_dir
  . rw [hdir, Function.update_self, Function.update_of_ne (hne hdir)]
  . rw [Function.update_of_ne hdir]

/--
Every entry that counts in `a'` counted in `a`, and it maps the same frame.
-/
def Fewer (a a' : Allocator) : Prop :=
  ∀ page_dir k, a'.paging.InUse page_dir → a'.put page_dir k = true →
    a.paging.InUse page_dir ∧ a.put page_dir k = true ∧
      ∀ f, a'.paging.Maps page_dir k f ↔ a.paging.Maps page_dir k f

theorem fewer_create
    : a.Fewer ⟨(paging_create_new_page_directory a.paging).2,
        Function.update a.put (paging_create_new_page_directory a.paging).1 fun _ => false⟩ := by
  intro page_dir k hin hput
  dsimp only at hin hput ⊢
  have hdir : page_dir ≠ (paging_create_new_page_directory a.paging).1 := by
    intro hdir
    rw [hdir, Function.update_self] at hput
    contradiction
  rw [Function.update_of_ne hdir] at hput
  unfold paging_create_new_page_directory at hin hdir ⊢
  split at hin
  . exact ⟨hin, hput, fun _ => Iff.rfl⟩
  . next i hfree =>
    rw [hfree] at hdir
    cases page_dir with
    | null => exact absurd hin id
    | kernel => exact ⟨trivial, hput, fun _ => Iff.rfl⟩
    | list j =>
      have hj : j ≠ i := by
        intro hij
        apply hdir
        rw [hij]
      unfold PagingState.InUse at hin
      unfold PagingState.InUse PagingState.Maps PagingState.directory
      dsimp only at hin ⊢
      rw [Function.update_of_ne hj] at hin ⊢
      exact ⟨hin, hput, fun _ => Iff.rfl⟩

theorem fewer_free_directory
    : a.Fewer ⟨(paging_free_page_directory a.paging page_dir).2, a.put⟩ := by
  intro page_dir' k hin hput
  dsimp only at hin hput ⊢
  unfold paging_free_page_directory at hin ⊢
  split at hin
  . next i =>
    refine ⟨?_, hput, fun _ => Iff.rfl⟩
    cases page_dir' with
    | null => exact hin
    | kernel => exact hin
    | list j =>
      unfold PagingState.InUse at hin ⊢
      dsimp only at hin
      rw [Function.update_apply] at hin
      split at hin
      . contradiction
      . exact hin
  . exact ⟨hin, hput, fun _ => Iff.rfl⟩

theorem owns_of_ne {s : PagingState} {b : Bool} (htable : s.directory page_dir = some table)
    (hdirectory : s.directory = a.paging.directory)
    (hused : s.page_directory_used = a.paging.page_directory_used)
    (hne : page_dir' = page_dir → k' ≠ k)
    : Owns ⟨s.set_directory page_dir (Function.update table k entry), a.note page_dir k b⟩
          (some (page_dir', k')) f
        ↔
      a.Owns (some (page_dir', k')) f := by
  unfold Owns
  dsimp only
  rw [PagingState.inUse_congr (PagingState.page_directory_used_set_directory _ _ _),
    PagingState.inUse_congr hused, note_of_ne hne, PagingState.maps_set_directory_of_ne htable hne]
  unfold PagingState.Maps
  rw [hdirectory]

namespace Sound

theorem of_fresh (h : allocator.init a) : a.Sound := by
  have hmap : a.paging.page_frame_map = Function.update (fun _ => false) 0 true := by
    funext f
    rw [h.1.page_frame_map, Function.update_apply]
    split
    . next hf => simp [hf]
    . next hf => simp [hf]
  have hnone : ∀ page_dir k, a.put page_dir k ≠ true := by
    intro page_dir k
    rw [h.2]
    simp
  constructor
  . rw [h.1.free_page_frame_count, hmap, Slots.count_take rfl, Slots.count_of_free (fun _ => rfl)]
    rfl
  . intro page_dir k _ hput
    exact absurd hput (hnone page_dir k)
  . constructor
    . intro key f hown
      cases key with
      | none =>
        rw [show f = 0 from hown, hmap]
        rfl
      | some key => exact absurd hown.2.1 (hnone _ _)
    . intro key key' f hown hown'
      cases key with
      | none =>
        cases key' with
        | none => rfl
        | some key' => exact absurd hown'.2.1 (hnone _ _)
      | some key => exact absurd hown.2.1 (hnone _ _)

variable (h : a.Sound)

include h

theorem zero : a.paging.page_frame_map 0 = true :=
  h.owned.used_of_owns (k := none) rfl

theorem fewer (hfewer : a.Fewer a') (hmap : a'.paging.page_frame_map = a.paging.page_frame_map)
    (hcount : a'.paging.free_page_frame_count = a.paging.free_page_frame_count)
    : a'.Sound where
  counted := by
    rw [hmap, hcount]
    apply h.counted
  mapped page_dir k hin hput := by
    rcases hfewer page_dir k hin hput with ⟨hin, hput, hmaps⟩
    rcases h.mapped page_dir k hin hput with ⟨f, hf⟩
    exact ⟨f, (hmaps f).mpr hf⟩
  owned := by
    rw [hmap]
    apply h.owned.mono
    intro key f hown
    cases key with
    | none => exact hown
    | some key =>
      rcases hown with ⟨hin, hput, hmaps⟩
      rcases hfewer key.1 key.2 hin hput with ⟨hin, hput, hiff⟩
      exact ⟨hin, hput, (hiff f).mp hmaps⟩

theorem take (hin : a.paging.InUse page_dir) (htable : a.paging.directory page_dir = some table)
    (hfree : a.paging.page_frame_map f = false) (hpresent : entry.flag.present_bit = true)
    (haddress : entry.lower_address.val = f.val)
    : Sound ⟨(a.paging.take_frame f).set_directory page_dir (Function.update table k entry),
        a.note page_dir k true⟩ := by
  have hself : ∀ g, ((a.paging.take_frame f).set_directory page_dir
      (Function.update table k entry)).Maps page_dir k g ↔ g = f := by
    intro g
    rw [PagingState.maps_set_directory_self hin.ne_null, haddress, Fin.val_inj]
    simp [hpresent, eq_comm]
  have hother : ∀ {page_dir' k' g}, (page_dir' = page_dir → k' ≠ k) →
      (Owns ⟨(a.paging.take_frame f).set_directory page_dir (Function.update table k entry),
        a.note page_dir k true⟩ (some (page_dir', k')) g ↔ a.Owns (some (page_dir', k')) g) :=
    fun hne => owns_of_ne (s := a.paging.take_frame f) htable rfl rfl hne
  constructor
  . have hone : (1 : UInt32).toNat = 1 := rfl
    have hcounted := h.counted
    have htake := Slots.count_take hfree
    have hlt : Slots.count (Function.update a.paging.page_frame_map f true) ≤ 32 := by
      unfold Slots.count
      apply Finset.card_le_univ
    simp only [PagingState.page_frame_map_set_directory,
      PagingState.free_page_frame_count_set_directory, PagingState.take_frame]
    rw [UInt32.toNat_sub_of_le]
    . omega
    . rw [UInt32.le_iff_toNat_le]
      omega
  . intro page_dir' k' hin' hput'
    by_cases hsame : page_dir' = page_dir → k' ≠ k
    . dsimp only at hin' hput'
      rw [note_of_ne hsame] at hput'
      rw [PagingState.inUse_congr (s := a.paging) (by simp [PagingState.take_frame])] at hin'
      rcases h.mapped page_dir' k' hin' hput' with ⟨g, hg⟩
      exact ⟨g, ((hother hsame).mpr ⟨hin', hput', hg⟩).2.2⟩
    . rw [Classical.not_imp, not_not] at hsame
      rw [hsame.1, hsame.2]
      exact ⟨f, (hself f).mpr rfl⟩
  . simp only [PagingState.page_frame_map_set_directory, PagingState.take_frame]
    apply h.owned.take (k := some (page_dir, k)) hfree
    intro key g hown
    cases key with
    | none => exact Or.inl hown
    | some key =>
      by_cases hsame : key.1 = page_dir → key.2 ≠ k
      . exact Or.inl ((hother hsame).mp hown)
      . rw [Classical.not_imp, not_not] at hsame
        rcases key with ⟨page_dir', k'⟩
        rcases hsame with ⟨rfl, rfl⟩
        exact Or.inr ⟨rfl, (hself g).mp hown.2.2⟩

theorem release (hown : a.Owns (some (page_dir, k)) f)
    (htable : a.paging.directory page_dir = some table)
    : Sound ⟨(a.paging.release_frame f).set_directory page_dir (Function.update table k entry),
        a.note page_dir k false⟩ := by
  have hother : ∀ {page_dir' k' g}, (page_dir' = page_dir → k' ≠ k) →
      (Owns ⟨(a.paging.release_frame f).set_directory page_dir (Function.update table k entry),
        a.note page_dir k false⟩ (some (page_dir', k')) g ↔ a.Owns (some (page_dir', k')) g) :=
    fun hne => owns_of_ne (s := a.paging.release_frame f) htable rfl rfl hne
  have hne : ∀ {page_dir' k'}, a.note page_dir k false page_dir' k' = true →
      page_dir' = page_dir → k' ≠ k := by
    intro page_dir' k' hput hdir hk
    rw [hdir, hk, note_self] at hput
    contradiction
  constructor
  . have hone : (1 : UInt32).toNat = 1 := rfl
    have hcounted := h.counted
    have hrelease := Slots.count_release (h.owned.used_of_owns hown)
    simp only [PagingState.page_frame_map_set_directory,
      PagingState.free_page_frame_count_set_directory, PagingState.release_frame]
    rw [UInt32.toNat_add]
    omega
  . intro page_dir' k' hin' hput'
    have hsame := hne hput'
    dsimp only at hin' hput'
    rw [note_of_ne hsame] at hput'
    rw [PagingState.inUse_congr (s := a.paging) (by simp [PagingState.release_frame])] at hin'
    rcases h.mapped page_dir' k' hin' hput' with ⟨g, hg⟩
    exact ⟨g, ((hother hsame).mpr ⟨hin', hput', hg⟩).2.2⟩
  . simp only [PagingState.page_frame_map_set_directory, PagingState.release_frame]
    apply h.owned.release hown
    intro key g hown'
    cases key with
    | none => exact ⟨hown', by simp⟩
    | some key =>
      have hsame := hne hown'.2.1
      refine ⟨(hother hsame).mp hown', ?_⟩
      intro heq
      injection heq with heq
      rw [heq] at hsame
      exact hsame rfl rfl

end Sound

/--
The free frames are counted, so the count never wraps. Frame 0 stays used, and an allocation returns
0 only when no frame is free. The frames behind the entries that allocations put are in use, and no
two of these entries share one. No call leaves the tables.
-/
structure Correct (a : Allocator) : Prop where
  counted : a.paging.free_page_frame_count.toNat
    = (Finset.univ.filter fun f => a.paging.page_frame_map f = false).card
  zero : a.paging.page_frame_map 0 = true
  allocate : ∀ page_dir virtual_addr, (PagingCall.allocate page_dir virtual_addr).Allowed a →
    ∃ physical_addr s',
      paging_allocate_user_page_frame a.paging page_dir virtual_addr = some (physical_addr, s') ∧
        (physical_addr = 0 ↔ ∀ f, a.paging.page_frame_map f = true) ∧
        (physical_addr = 0 → s' = a.paging) ∧
        (physical_addr ≠ 0 → ∃ f : Fin 32, f ≠ 0 ∧
          physical_addr = UInt32.ofNat f * PAGE_FRAME_SIZE ∧
            a.paging.page_frame_map f = false ∧ s'.page_frame_map f = true)
  mapped : ∀ page_dir k, a.paging.InUse page_dir → a.put page_dir k = true →
    ∃ f, a.paging.Maps page_dir k f ∧ a.paging.page_frame_map f = true
  distinct : ∀ page_dir k page_dir' k' f, a.paging.InUse page_dir → a.put page_dir k = true →
    a.paging.InUse page_dir' → a.put page_dir' k' = true → a.paging.Maps page_dir k f →
      a.paging.Maps page_dir' k' f → page_dir = page_dir' ∧ k = k'
  runs : ∀ call : PagingCall, call.Allowed a → ∃ a', a.exec call = some a'

namespace Sound

variable (h : a.Sound)

include h

theorem allocate (hin : a.paging.InUse page_dir) (virtual_addr : UInt32)
    : (∀ f, a.paging.page_frame_map f = true) ∧
          paging_allocate_user_page_frame a.paging page_dir virtual_addr = some (0, a.paging) ∨
        ∃ f ≠ 0, a.paging.page_frame_map f = false ∧ ∃ s',
          paging_allocate_user_page_frame a.paging page_dir virtual_addr
            = some (UInt32.ofNat f * PAGE_FRAME_SIZE, s') ∧
          s'.page_frame_map = Function.update a.paging.page_frame_map f true ∧
          Sound ⟨s', a.note page_dir (page_index virtual_addr) true⟩ := by
  cases hfree : Slots.free a.paging.page_frame_map with
  | none =>
    left
    exact ⟨Slots.free_eq_none_iff.mp hfree, paging_allocate_user_page_frame_of_none hfree⟩
  | some f =>
    right
    have hunused := Slots.used_of_free hfree
    rcases hin.exists_directory with ⟨table, htable⟩
    refine ⟨f, ?_, hunused, _, paging_allocate_user_page_frame_of_some hfree htable, ?_, ?_⟩
    . intro hf
      rw [hf, h.zero] at hunused
      contradiction
    . simp [PagingState.take_frame]
    . apply h.take hin htable hunused
      . rfl
      . apply page_index_frame

theorem free (hin : a.paging.InUse page_dir)
    (hput : a.put page_dir (page_index virtual_addr) = true)
    : ∃ s', paging_free_user_page_frame a.paging page_dir virtual_addr = some (true, s') ∧
        Sound ⟨s', a.note page_dir (page_index virtual_addr) false⟩ := by
  rcases h.mapped page_dir _ hin hput with ⟨f, hmaps⟩
  have hown : a.Owns (some (page_dir, page_index virtual_addr)) f := ⟨hin, hput, hmaps⟩
  rcases hmaps with ⟨table, htable, hmaps⟩
  rcases paging_free_user_page_frame_of_maps rfl htable hmaps with ⟨entry, hrun⟩
  exact ⟨_, hrun, h.release hown htable⟩

theorem exec (hallowed : call.Allowed a) : ∃ a', a.exec call = some a' ∧ a'.Sound := by
  cases call with
  | create =>
    rcases paging_create_new_page_directory_frames a.paging with ⟨hmap, hcount⟩
    exact ⟨_, rfl, h.fewer fewer_create hmap hcount⟩
  | free_directory page_dir =>
    rcases paging_free_page_directory_frames a.paging page_dir with ⟨hmap, hcount⟩
    exact ⟨_, rfl, h.fewer fewer_free_directory hmap hcount⟩
  | allocate page_dir virtual_addr =>
    unfold Allocator.exec
    dsimp only [Option.bind_eq_bind]
    rcases h.allocate hallowed.2 virtual_addr with ⟨_, hrun⟩ | ⟨f, hf, _, s', hrun, _, hsound⟩
    . rw [hrun]
      exact ⟨_, rfl, h⟩
    . rw [hrun, Option.bind_some, if_neg (frame_address_ne_zero hf)]
      exact ⟨_, rfl, hsound⟩
  | free page_dir virtual_addr =>
    unfold Allocator.exec
    dsimp only [Option.bind_eq_bind]
    rcases h.free hallowed.2.1 hallowed.2.2 with ⟨s', hrun, hsound⟩
    rw [hrun]
    exact ⟨_, rfl, hsound⟩

theorem correct : a.Correct where
  counted := by
    have hcounted := h.counted
    have hunused := Slots.count_unused a.paging.page_frame_map
    omega
  zero := h.zero
  allocate page_dir virtual_addr hallowed := by
    rcases h.allocate hallowed.2 virtual_addr with ⟨hall, hrun⟩ | ⟨f, hf, hfree, s', hrun, hmap, _⟩
    . exact ⟨0, _, hrun, ⟨fun _ => hall, fun _ => rfl⟩, fun _ => rfl, fun hne => absurd rfl hne⟩
    . have hne := frame_address_ne_zero hf
      refine ⟨_, s', hrun, ⟨fun hzero => absurd hzero hne, ?_⟩, fun hzero => absurd hzero hne, ?_⟩
      . intro hall
        rw [hall] at hfree
        contradiction
      . intro _
        refine ⟨f, hf, rfl, hfree, ?_⟩
        rw [hmap, Function.update_self]
  mapped page_dir k hin hput := by
    rcases h.mapped page_dir k hin hput with ⟨f, hmaps⟩
    exact ⟨f, hmaps, h.owned.used_of_owns (k := some (page_dir, k)) ⟨hin, hput, hmaps⟩⟩
  distinct page_dir k page_dir' k' f hin hput hin' hput' hmaps hmaps' := by
    have heq := h.owned.unique (k := some (page_dir, k)) (l := some (page_dir', k'))
      ⟨hin, hput, hmaps⟩ ⟨hin', hput', hmaps'⟩
    injection heq with heq
    injection heq with hdir hk
    exact ⟨hdir, hk⟩
  runs call hallowed := by
    rcases h.exec hallowed with ⟨a', hrun, _⟩
    exact ⟨a', hrun⟩

end Sound

/--
From the initial state, under any sequence of the allowed calls.
-/
theorem correct_of_reachable (h : allocator.Reachable (fun a call => call.Allowed a) a)
    : a.Correct := by
  have hsound : a.Sound := by
    apply h.invariant (I := Sound)
    . intro a hinit
      apply Sound.of_fresh hinit
    . intro a call a' h hallowed hstep
      rcases h.exec hallowed with ⟨a'', hrun, hsound⟩
      injection hrun.symm.trans hstep with heq
      rw [← heq]
      exact hsound
  apply hsound.correct

theorem init_initial (layout : Layout) : allocator.init ⟨.initial layout, fun _ _ => false⟩ := by
  refine ⟨⟨?_, rfl, fun _ => rfl⟩, fun _ _ => rfl⟩
  intro f
  apply decide_eq_decide.mpr
  rw [Fin.ext_iff]
  rfl

theorem exists_created (h : allocator.init a)
    : ∃ a', a.exec .create = some a' ∧ a'.paging.InUse (.list 0) ∧
        a'.paging.page_frame_map 1 = false := by
  have hfree : Slots.free a.paging.page_directory_used = some 0 :=
    (Slots.filled_zero h.1.page_directory_used).free_eq (by omega)
  have hframe := h.1.page_frame_map 1
  unfold exec paging_create_new_page_directory PagingState.InUse
  rw [hfree]
  refine ⟨_, rfl, ?_, hframe⟩
  simp

theorem exists_allocated (h : a.Sound) (hin : a.paging.InUse page_dir)
    (hfree : a.paging.page_frame_map f = false) (virtual_addr : UInt32)
    : ∃ a', a.exec (.allocate page_dir virtual_addr) = some a' ∧
        a'.put page_dir (page_index virtual_addr) = true := by
  unfold exec
  dsimp only [Option.bind_eq_bind]
  rcases h.allocate hin virtual_addr with ⟨hall, _⟩ | ⟨g, hg, _, s', hrun, _, _⟩
  . rw [hall] at hfree
    contradiction
  . rw [hrun, Option.bind_some, if_neg (frame_address_ne_zero hg)]
    exact ⟨_, rfl, note_self _ _ _ _⟩

-- a page directory is taken, and its second page gets a frame
theorem correct_first
    : ∃ a : Allocator, a.put (.list 0) (page_index 0x400000) = true ∧ a.Correct := by
  let layout : Layout := ⟨0xC0100000, 0xC0200000, by decide, by decide, by decide⟩
  have hinit := init_initial layout
  rcases exists_created hinit with ⟨a₁, hcreate, hin, hfree⟩
  have hsound : a₁.Sound := by
    have hallowed : PagingCall.create.Allowed
        (⟨.initial layout, fun _ _ => false⟩ : Allocator) := trivial
    rcases (Sound.of_fresh hinit).exec hallowed with ⟨a', hrun, hsound⟩
    injection hcreate.symm.trans hrun with heq
    rw [heq]
    exact hsound
  rcases exists_allocated hsound hin hfree 0x400000 with ⟨a₂, hallocate, hput⟩
  have hallowed : (PagingCall.allocate (.list 0) 0x400000).Allowed a₁ := ⟨by decide, hin⟩
  have hreachable : allocator.Reachable (fun a call => call.Allowed a) a₁ :=
    .step (a := .create) (.init hinit) trivial hcreate
  exact ⟨a₂, hput, correct_of_reachable (hreachable.step hallowed hallocate)⟩

end Allocator
end AiOS
