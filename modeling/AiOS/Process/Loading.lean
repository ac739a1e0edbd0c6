import AiOS.Process.Frames

/-!
This module contains where the image of a new process is stored.
-/

namespace AiOS

open process_create_user_process

namespace process_create_user_process

def map_pages (request : FAT32DriverRequest) (s : PagingState)
    : Option (PageDirectoryPointer × PagingState) := do
  let (pagedir, s) := paging_create_new_page_directory s
  let (_, s) ← paging_allocate_user_page_frame s pagedir request.buf
  let (_, s) ← paging_allocate_user_page_frame s pagedir 0xBFFFFFFC
  return (pagedir, s)

structure Loaded (s u : PagingState) (i : Fin 32) (addr : UInt32) : Prop where
  below : addr < KERNEL_VIRTUAL_ADDRESS_BASE
  mapped : ∃ f, s.page_frame_map f = false ∧ (u.page_directory_list i).Maps (page_index addr) f

/--
The read of the executable ends, and each byte it stores is at a good place.
-/
def LoadsSafely (request : FAT32DriverRequest) (s : KernelState) : Prop :=
  ∃ i u, map_pages request s.paging = some (.list i, u) ∧
    ∃ code st bufs d,
      (read s.driver_state request).run diskDevice s.disk = some ((code, st, bufs), d) ∧
        ∀ k < CLUSTER_SIZE * bufs.length, Loaded s.paging u i (request.buf + UInt32.ofNat k)

section

variable {s u : PagingState} {buf : UInt32} {i image stack : Fin 32}

theorem SetUp.maps_unused_iff (h : SetUp buf s u i image stack) (hs : s.Confined) (k : Fin 1024)
    : (∃ f, s.page_frame_map f = false ∧ (u.page_directory_list i).Maps k f)
        ↔
      k = page_index buf ∨ k = page_index 0xBFFFFFFC := by
  constructor
  . intro ⟨f, hunused, hmaps⟩
    by_contra hk
    rw [not_or] at hk
    rw [h.page_directory_list, Function.update_self] at hmaps
    unfold user_directory at hmaps
    dsimp only at hmaps
    rw [PageDirectory.maps_update_entry_of_ne hk.2, PageDirectory.maps_update_entry_of_ne hk.1]
      at hmaps
    rw [PageDirectory.maps_insert hmaps, hs.zero] at hunused
    contradiction
  . intro hk
    by_cases hstack : k = page_index 0xBFFFFFFC
    . rw [hstack]
      exact ⟨stack, h.stack_unused, h.maps_stack⟩
    . have himage : k = page_index buf := hk.resolve_right hstack
      rw [himage] at hstack
      rw [himage]
      exact ⟨image, h.image_unused, h.maps_image hstack⟩

end

section

variable {request : FAT32DriverRequest} {bufs : List ClusterBuffer}

theorem toNat_store_addr {buf : UInt32} (hbuf : buf < KERNEL_VIRTUAL_ADDRESS_BASE) {k : Nat}
    (hk : k < 2 ^ 20)
    : (buf + UInt32.ofNat k).toNat = buf.toNat + k := by
  have hbase : KERNEL_VIRTUAL_ADDRESS_BASE.toNat = 0xC0000000 := rfl
  rw [UInt32.lt_iff_toNat_lt, hbase] at hbuf
  rw [UInt32.toNat_add, UInt32.toNat_ofNat']
  omega

theorem stores_fit_iff (hbuf : request.buf < KERNEL_VIRTUAL_ADDRESS_BASE)
    (hlen : bufs.length ≤ 512)
    : stores_fit request bufs
        ↔
      ∀ k < CLUSTER_SIZE * bufs.length,
        request.buf + UInt32.ofNat k < KERNEL_VIRTUAL_ADDRESS_BASE ∧
          (page_index (request.buf + UInt32.ofNat k) = page_index request.buf ∨
            page_index (request.buf + UInt32.ofNat k) = page_index 0xBFFFFFFC) := by
  have hbase : KERNEL_VIRTUAL_ADDRESS_BASE.toNat = 0xC0000000 := rfl
  have hstack : (0xBFFFFFFC : UInt32).toNat = 0xBFFFFFFC := rfl
  have hsize : CLUSTER_SIZE = 2048 := rfl
  have hlt := hbuf
  rw [UInt32.lt_iff_toNat_lt, hbase] at hlt
  have hplace : ∀ k < CLUSTER_SIZE * bufs.length,
      (request.buf + UInt32.ofNat k < KERNEL_VIRTUAL_ADDRESS_BASE ∧
        (page_index (request.buf + UInt32.ofNat k) = page_index request.buf ∨
          page_index (request.buf + UInt32.ofNat k) = page_index 0xBFFFFFFC))
        ↔
      (request.buf.toNat + k) / 2 ^ 22 = request.buf.toNat / 2 ^ 22 ∨
        (request.buf.toNat + k) / 2 ^ 22 = 0xBFFFFFFC / 2 ^ 22 := by
    intro k hk
    rw [hsize] at hk
    have haddr := toNat_store_addr hbuf (k := k) (by omega)
    rw [← Fin.val_inj, ← Fin.val_inj, page_index_val, page_index_val, page_index_val,
      UInt32.lt_iff_toNat_lt, haddr, hbase, hstack]
    omega
  unfold stores_fit
  dsimp only
  constructor
  . intro hfit k hk
    rw [hplace k hk]
    rw [hsize] at hfit hk
    omega
  . intro hall
    cases hempty : bufs.length with
    | zero =>
      left
      rfl
    | succ len =>
      rw [hempty] at hall hplace
      have hlast : CLUSTER_SIZE * (len + 1) - 1 < CLUSTER_SIZE * (len + 1) := by
        rw [hsize]
        omega
      rw [← hplace _ hlast]
      apply hall _ hlast

theorem SetUp.all_loaded_iff {s u : PagingState} {i image stack : Fin 32}
    (h : SetUp request.buf s u i image stack) (hs : s.Confined)
    (hbuf : request.buf < KERNEL_VIRTUAL_ADDRESS_BASE) (hlen : bufs.length ≤ 512)
    : (∀ k < CLUSTER_SIZE * bufs.length, Loaded s u i (request.buf + UInt32.ofNat k))
        ↔
      stores_fit request bufs := by
  rw [stores_fit_iff hbuf hlen]
  constructor
  . intro hall k hk
    have hloaded := hall k hk
    exact ⟨hloaded.below, (h.maps_unused_iff hs _).mp hloaded.mapped⟩
  . intro hall k hk
    have hplace := hall k hk
    exact ⟨hplace.1, (h.maps_unused_iff hs _).mpr hplace.2⟩

theorem exists_map_pages {s : KernelState} {n : Nat} (hs : s.paging.Taken n (2 * n + 2))
    (h : Admitted request s)
    : ∃ i image stack u, map_pages request s.paging = some (.list i, u) ∧
        SetUp request.buf s.paging u i image stack := by
  rcases exists_allocated hs h with
    ⟨_, i, p, pagingProcess, t, paging, u, hdir, hfirst, hpagingProcess, hsecond, hpaging, _⟩
  rcases setUp_of_allocated hdir hfirst hpagingProcess hsecond hpaging with
    ⟨image, stack, _, _, hsetUp⟩
  refine ⟨i, image, stack, u, ?_, hsetUp⟩
  unfold map_pages
  rw [hdir]
  dsimp only [Option.bind_eq_bind]
  rw [hfirst, Option.bind_some]
  dsimp only
  rw [hsecond]
  rfl

end

end process_create_user_process

section

variable {layout : Layout} {request : FAT32DriverRequest} {s : KernelState}

theorem loadsSafely_iff_of_admitted (h : Running layout s) (hadmitted : Admitted request s)
    : LoadsSafely request s
        ↔
      ∀ i, read.Copies request s.disk i →
        ∃ l, s.disk.Links (s.disk.table request.parent i).cluster l ∧
          stores_fit request (l.map s.disk.cluster) := by
  rcases h.sound with ⟨n, hsound⟩
  rcases exists_map_pages hsound.taken hadmitted with ⟨i, image, stack, u, hmap, hsetUp⟩
  have hloaded : ∀ bufs : List ClusterBuffer, bufs.length ≤ 512 →
      ((∀ k < CLUSTER_SIZE * bufs.length, Loaded s.paging u i (request.buf + UInt32.ofNat k))
        ↔
      stores_fit request bufs) :=
    fun _ => hsetUp.all_loaded_iff h.confined hadmitted.2.1
  unfold LoadsSafely
  rw [hmap]
  constructor
  . intro ⟨i', u', heq, code, st, bufs, d, hrun, hall⟩ j hcopies
    injection heq with heq
    injection heq with hi hu
    injection hi with hi
    rw [← hi, ← hu] at hall
    rcases read.links_of_run hcopies hrun with ⟨l, hl, hbufs⟩
    refine ⟨l, hl, ?_⟩
    rw [← hbufs, ← hloaded]
    . exact hall
    . rw [hbufs, List.length_map]
      apply read.length_le_of_links hl
  . intro hcondition
    refine ⟨i, u, rfl, ?_⟩
    by_cases hcopies : ∃ j, read.Copies request s.disk j
    . rcases hcopies with ⟨j, hcopies⟩
      rcases hcondition j hcopies with ⟨l, hl, hfit⟩
      refine ⟨_, _, _, _, read.run_of_copies hcopies hl, ?_⟩
      rw [hloaded]
      . exact hfit
      . rw [List.length_map]
        apply read.length_le_of_links hl
    . rw [not_exists] at hcopies
      have hnothing : ∃ code st, code ≠ 0 ∧ (read s.driver_state request).run diskDevice s.disk
          = some ((code, st, []), s.disk) := read.run_of_not_copies hcopies
      rcases hnothing with ⟨code, st, _, hrun⟩
      refine ⟨code, st, [], s.disk, hrun, ?_⟩
      intro k hk
      simp at hk

end

/--
The read of an executable stays off the kernel and inside the two new pages if and only if it finds
no file to copy, or the file has a chain with an end and its last byte is on one of the two pages.
-/
theorem loads_safely_iff {layout : Layout} {request : FAT32DriverRequest} {s : KernelState}
    (h : Running layout s)
    : (Admitted request s → LoadsSafely request s)
        ↔
      (Admitted request s → ∀ i, read.Copies request s.disk i →
        ∃ l, s.disk.Links (s.disk.table request.parent i).cluster l ∧
          stores_fit request (l.map s.disk.cluster)) := by
  constructor
  . intro hsafe hadmitted
    rw [← loadsSafely_iff_of_admitted h hadmitted]
    apply hsafe hadmitted
  . intro hcondition hadmitted
    rw [loadsSafely_iff_of_admitted h hadmitted]
    apply hcondition hadmitted

theorem loads_safely_first
    : ∃ s, Running .low s ∧ Admitted kernel_setup.request s ∧
        LoadsSafely kernel_setup.request s := by
  rcases exists_session with ⟨w, hinit, hfirst, hdisk, n, hn, hsound⟩
  have hrunning : Running .low w.kernel := Or.inr ⟨w, .init hinit, rfl⟩
  have hadmitted : Admitted kernel_setup.request w.kernel := by
    apply admitted_of_taken hsound.kernel.taken (by omega) hfirst.count_lt
    . decide
    . decide
  refine ⟨w.kernel, hrunning, hadmitted, (loads_safely_iff hrunning).mpr ?_ hadmitted⟩
  intro _ i hcopies
  rcases run_read_first w.kernel.driver_state with ⟨st, hread⟩
  rw [← hdisk] at hread
  rcases read.links_of_run hcopies hread with ⟨l, hl, hbufs⟩
  refine ⟨l, hl, ?_⟩
  rw [← hbufs]
  apply stores_fit_first

def below_kernel : FAT32DriverRequest :=
  { kernel_setup.request with buf := 0xBFFFFFFC }

theorem not_loads_safely
    : ∃ s, Running .low s ∧ below_kernel.buf < KERNEL_VIRTUAL_ADDRESS_BASE ∧
        Admitted below_kernel s ∧ ¬ LoadsSafely below_kernel s := by
  rcases exists_session with ⟨w, hinit, hfirst, hdisk, n, hn, hsound⟩
  have hadmitted : Admitted below_kernel w.kernel := by
    apply admitted_of_taken hsound.kernel.taken (by omega) hfirst.count_lt
    . decide
    . decide
  refine ⟨w.kernel, Or.inr ⟨w, .init hinit, rfl⟩, by decide, hadmitted, ?_⟩
  intro ⟨i, u, _, code, st, bufs, d, hrun, hall⟩
  have hread : (read w.kernel.driver_state below_kernel).run diskDevice write.populated
      = some ((0, _, [write.populated.cluster 3]), write.populated) :=
    write.run_read_small w.kernel.driver_state rfl rfl rfl (by decide)
  rw [hdisk, hread] at hrun
  simp only [Option.some.injEq, Prod.mk.injEq] at hrun
  rw [← hrun.1.2.2] at hall
  have hbelow := (hall 4 (by decide)).below
  revert hbelow
  decide

end AiOS
