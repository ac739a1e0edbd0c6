import AiOS.Memory.Translation
import AiOS.Process.Fairness
import AiOS.Process.Frames

/-!
This module proves that the page directories keep live processes apart: user mode never reaches the
same physical address in two of them.
-/

namespace AiOS

open process_create_user_process

namespace PageDirectory

variable {k f : Fin 1024} {image stack : Fin 32} {buf : UInt32}

theorem userMaps_user_directory (h : (user_directory buf image stack).UserMaps k f)
    : (k = page_index buf ∧ f.val = image.val) ∨ (k = page_index 0xBFFFFFFC ∧ f.val = stack.val) := by
  unfold user_directory at h
  rcases userMaps_update_entry h with ⟨hk, hf⟩ | h
  . right
    rw [hf, page_index_frame]
    exact ⟨hk, rfl⟩
  . rcases userMaps_update_entry h with ⟨hk, hf⟩ | h
    . left
      rw [hf, page_index_frame]
      exact ⟨hk, rfl⟩
    . exact absurd h not_userMaps_insert

theorem user_directory_kernel (hbuf : buf < KERNEL_VIRTUAL_ADDRESS_BASE) (image stack : Fin 32)
    : user_directory buf image stack 0x300 = .kernel := by
  have hbase : KERNEL_VIRTUAL_ADDRESS_BASE.toNat = 0xC0000000 := rfl
  have hstack : (0xBFFFFFFC : UInt32).toNat = 0xBFFFFFFC := rfl
  have hval : (0x300 : Fin 1024).val = 0x300 := rfl
  have hentry : ∀ addr : UInt32, addr.toNat < 0xC0000000 → (0x300 : Fin 1024) ≠ page_index addr := by
    intro addr hlt heq
    have hindex := congrArg Fin.val heq
    rw [hval, page_index_val] at hindex
    omega
  rw [UInt32.lt_iff_toNat_lt, hbase] at hbuf
  unfold user_directory update_entry
  rw [Function.update_of_ne (hentry _ (by omega)), Function.update_of_ne (hentry _ hbuf)]
  rfl

theorem below_of_userMaps (h : (user_directory buf image stack).UserMaps k f)
    (hbuf : buf < KERNEL_VIRTUAL_ADDRESS_BASE)
    : k.val < 0x300 := by
  have hbase : KERNEL_VIRTUAL_ADDRESS_BASE.toNat = 0xC0000000 := rfl
  have hstack : (0xBFFFFFFC : UInt32).toNat = 0xBFFFFFFC := rfl
  rw [UInt32.lt_iff_toNat_lt, hbase] at hbuf
  rcases userMaps_user_directory h with ⟨hk, _⟩ | ⟨hk, _⟩
  . rw [hk, page_index_val]
    omega
  . rw [hk, page_index_val, hstack]
    omega

end PageDirectory

namespace process_create_user_process.SetUp

variable {s s' : PagingState} {buf : UInt32} {i j : Fin 32} {image stack : Fin 32}
  {k l f : Fin 1024}

theorem list_self (h : SetUp buf s s' i image stack)
    : s'.page_directory_list i = user_directory buf image stack := by
  rw [h.page_directory_list, Function.update_self]

theorem list_of_ne (h : SetUp buf s s' i image stack) (hj : j ≠ i)
    : s'.page_directory_list j = s.page_directory_list j := by
  rw [h.page_directory_list, Function.update_of_ne hj]

theorem unused_of_userMaps (h : SetUp buf s s' i image stack)
    (hmaps : (s'.page_directory_list i).UserMaps k f)
    : ∃ g : Fin 32, f.val = g.val ∧ s.page_frame_map g = false := by
  rw [h.list_self] at hmaps
  rcases PageDirectory.userMaps_user_directory hmaps with ⟨_, hf⟩ | ⟨_, hf⟩
  . exact ⟨image, hf, h.image_unused⟩
  . exact ⟨stack, hf, h.stack_unused⟩

-- the frames of the new directory were not in use, those of the others are
theorem not_userMaps_of_ne (h : SetUp buf s s' i image stack) (hconfined : s.Confined) (hj : j ≠ i)
    (hmaps : (s'.page_directory_list i).UserMaps k f)
    : ¬ (s'.page_directory_list j).UserMaps l f := by
  intro hmaps'
  rcases h.unused_of_userMaps hmaps with ⟨g, hg, hfalse⟩
  rw [h.list_of_ne hj] at hmaps'
  rw [hconfined.list j l g (hmaps'.maps hg)] at hfalse
  contradiction

end process_create_user_process.SetUp

/--
User mode reaches page frames through the page directories of the processes only, below the kernel,
never that of the kernel, and each page frame through one page directory only. A page directory in
use maps the kernel for the kernel.
-/
structure PagingState.Separate (s : PagingState) : Prop where
  below : ∀ i k f, (s.page_directory_list i).UserMaps k f → k.val < 0x300
  framed : ∀ i k f, (s.page_directory_list i).UserMaps k f → 0 < f.val ∧ f.val < 32
  alone : ∀ i j k l f, (s.page_directory_list i).UserMaps k f →
    (s.page_directory_list j).UserMaps l f → i = j
  kernel : ∀ i, s.page_directory_used i = true → s.page_directory_list i 0x300 = .kernel

namespace PagingState.Separate

variable {s s' : PagingState} {buf : UInt32} {i image stack : Fin 32}

theorem of_same (h : s.Separate) (hlist : s'.page_directory_list = s.page_directory_list)
    (hused : s'.page_directory_used = s.page_directory_used)
    : s'.Separate where
  below := by
    rw [hlist]
    exact h.below
  framed := by
    rw [hlist]
    exact h.framed
  alone := by
    rw [hlist]
    exact h.alone
  kernel := by
    rw [hlist, hused]
    exact h.kernel

theorem use (h : s.Separate) (page_dir_virtual_addr : UInt32)
    : (paging_use_page_directory s page_dir_virtual_addr).Separate :=
  h.of_same rfl rfl

theorem of_zero (hlist : ∀ i, s.page_directory_list i = fun _ => .zero)
    (hused : ∀ i, s.page_directory_used i = false)
    : s.Separate := by
  have hnone : ∀ i k f, ¬ (s.page_directory_list i).UserMaps k f := by
    intro i k f h
    rw [hlist] at h
    exact absurd h.1 Bool.false_ne_true
  refine ⟨?_, ?_, ?_, ?_⟩
  . intro i k f h
    exact absurd h (hnone i k f)
  . intro i k f h
    exact absurd h (hnone i k f)
  . intro i j k l f h
    exact absurd h (hnone i k f)
  . intro i h
    rw [hused] at h
    contradiction

theorem setUp (h : s.Separate) (hconfined : s.Confined) (hbuf : buf < KERNEL_VIRTUAL_ADDRESS_BASE)
    (hsetUp : SetUp buf s s' i image stack)
    : s'.Separate := by
  refine ⟨?_, ?_, ?_, ?_⟩
  . intro j k f hmaps
    by_cases hj : j = i
    . rw [hj, hsetUp.list_self] at hmaps
      apply PageDirectory.below_of_userMaps hmaps hbuf
    . rw [hsetUp.list_of_ne hj] at hmaps
      apply h.below j k f hmaps
  . intro j k f hmaps
    by_cases hj : j = i
    . rw [hj] at hmaps
      rcases hsetUp.unused_of_userMaps hmaps with ⟨g, hg, hfalse⟩
      have hpos : g ≠ 0 := by
        intro hzero
        rw [hzero, hconfined.zero] at hfalse
        contradiction
      omega
    . rw [hsetUp.list_of_ne hj] at hmaps
      apply h.framed j k f hmaps
  . intro j j' k l f hmaps hmaps'
    by_cases hj : j = i
    . rw [hj] at hmaps
      by_contra hne
      rw [hj] at hne
      apply hsetUp.not_userMaps_of_ne hconfined (Ne.symm hne) hmaps hmaps'
    . by_cases hj' : j' = i
      . rw [hj'] at hmaps'
        exact absurd hmaps (hsetUp.not_userMaps_of_ne hconfined hj hmaps')
      . rw [hsetUp.list_of_ne hj] at hmaps
        rw [hsetUp.list_of_ne hj'] at hmaps'
        apply h.alone j j' k l f hmaps hmaps'
  . intro j hj
    by_cases hji : j = i
    . rw [hji, hsetUp.list_self]
      apply PageDirectory.user_directory_kernel hbuf
    . rw [hsetUp.page_directory_used, Function.update_of_ne hji] at hj
      rw [hsetUp.list_of_ne hji]
      apply h.kernel j hj

end PagingState.Separate

section

variable {layout : Layout} {request : FAT32DriverRequest} {s s' : KernelState} {code : Int} {n : Nat}

/--
What a creation does to the page directories, and where CR3 is left: a creation that fails in `read`
leaves it at the new page directory.
-/
inductive process_create_user_process.Placed (layout : Layout) (request : FAT32DriverRequest)
    (s : KernelState) : Int → KernelState → Prop where
  | rejected {code : Int} : code ≠ PROCESS_CREATE_SUCCESS → Placed layout request s code s
  | stray {s' : KernelState} {u : PagingState} {i image stack : Fin 32} :
    Admitted request s → ¬ read.Readable request s.disk → SetUp request.buf s.paging u i image stack →
      SameProcesses s s' → s'.paging = paging_use_page_directory u (layout.address (.list i)) →
        Placed layout request s PROCESS_CREATE_FAIL_FS_READ_FAILURE s'
  | placed {s' : KernelState} {u : PagingState} {i image stack : Fin 32} {p_index : Fin 16}
      {pcb : ProcessControlBlock} :
    Admitted request s → SetUp request.buf s.paging u i image stack → Filled s s' p_index pcb →
      pcb.context.page_directory_virtual_addr = layout.address (.list i) →
        s'.paging = paging_use_page_directory
          (paging_use_page_directory u (layout.address (.list i)))
          (paging_get_current_page_directory_addr s.paging) →
        Placed layout request s PROCESS_CREATE_SUCCESS s'

theorem process_create_user_process.placed_of_run (hs : s.paging.Taken n (2 * n + 2))
    (h : process_create_user_process layout request s = some (code, s'))
    : Placed layout request s code s' := by
  by_cases hadmitted : Admitted request s
  . rcases run_of_setUp layout hs hadmitted with ⟨i, image, stack, u, hsetUp, heq⟩
    rw [heq] at h
    unfold load at h
    dsimp only [Option.bind_eq_bind] at h
    rw [Option.bind_eq_some_iff] at h
    rcases h with ⟨⟨⟨status, driver_state, delivered⟩, disk⟩, hread, h⟩
    have hstatus := read.code_eq_zero_iff hread
    dsimp only at h
    split at h
    . next hfail =>
      injection h with h
      injection h with hcode h
      rw [Ne, hstatus] at hfail
      rw [← hcode, ← h]
      exact .stray hadmitted hfail hsetUp ⟨rfl, rfl, rfl, rfl⟩ rfl
    . split at h
      . rcases cases_of_fill_slot h with ⟨hcode, p_index, hinactive, hs'⟩
        rw [hcode, hs']
        let pcb := new_pcb layout request p_index (.list i) (UInt32.ofNat image * PAGE_FRAME_SIZE)
          (UInt32.ofNat stack * PAGE_FRAME_SIZE) (s.process_list p_index)
        refine .placed hadmitted hsetUp (?_ : Filled s _ p_index pcb) rfl rfl
        exact { inactive := hinactive, pid := rfl, ready := rfl, process_list := rfl,
                used_process := rfl, active_process_count := rfl, running_process_idx := rfl }
      . contradiction
  . rcases run_of_not_admitted layout hadmitted with ⟨code', hcode, heq⟩
    rw [heq] at h
    injection h with h
    injection h with hcode' h
    rw [← hcode', ← h]
    exact .rejected hcode

variable (s) in
/--
The page directory of a process: the one in CR3 while the process runs, else that of its context.
-/
def KernelState.pagedir (p : Fin 16) : UInt32 :=
  if p = s.running_process_idx then
    paging_get_current_page_directory_addr s.paging
  else
    (s.process_list p).context.page_directory_virtual_addr

def KernelState.Reaches (layout : Layout) (s : KernelState) (p : Fin 16) (user : Bool)
    (virtual_addr physical_addr : UInt32) : Prop :=
  ∃ i, s.pagedir p = layout.address (.list i) ∧
    (s.paging.page_directory_list i).translate user virtual_addr = some physical_addr

end

theorem paging_eq_of_destroy {s s' : KernelState} {pid : UInt32} {done : Bool}
    (h : process_destroy pid s = some (done, s'))
    : s'.paging = s.paging := by
  unfold process_destroy at h
  split at h
  . injection h with h
    injection h with _ h
    rw [h]
  . split at h
    . injection h with h
      injection h with _ h
      rw [← h]
    . contradiction

theorem timer_paging (frame : InterruptFrame) (s : KernelState)
    : (main_interrupt_handler.timer frame s).paging
        =
      paging_use_page_directory s.paging
        ((main_interrupt_handler.timer frame s).process_list
          (main_interrupt_handler.timer frame s).running_process_idx).context.page_directory_virtual_addr
    := by
  rcases save_context_eq (main_interrupt_handler.currentContext frame s) s with ⟨process_list, heq⟩
  rw [main_interrupt_handler.timer_eq, heq]
  rfl

/--
The creation fails in `read`, after the new page directory was loaded into CR3.
-/
def Event.Strays (s : Session) (e : Event) : Prop :=
  match e with
  | .create request => Admitted request s.kernel ∧ ¬ read.Readable request s.kernel.disk
  | _ => False

namespace Session

variable {layout : Layout} {s s' : Session} {e : Event} {n m : Nat}

/--
The page directories that the step leaves to the live processes: all as before, but that a process
which is new, or that created another one in vain, gets one that was not in use.
-/
inductive Assigned (layout : Layout) (s : Session) (e : Event) (s' : Session) : Prop where
  | kept : (∀ p, s'.live p = true → s.live p = true ∧ s'.kernel.pagedir p = s.kernel.pagedir p) →
    s'.kernel.paging.page_directory_list = s.kernel.paging.page_directory_list →
    s'.kernel.paging.page_directory_used = s.kernel.paging.page_directory_used →
      Assigned layout s e s'
  | fresh (p : Fin 16) (i : Fin 32) : s.kernel.paging.page_directory_used i = false →
    s'.kernel.paging.page_directory_used
      = Function.update s.kernel.paging.page_directory_used i true →
    (∀ j, j ≠ i → s'.kernel.paging.page_directory_list j = s.kernel.paging.page_directory_list j) →
    s'.kernel.pagedir p = layout.address (.list i) →
    (∀ q, q ≠ p → s'.live q = true →
      s.live q = true ∧ s'.kernel.pagedir q = s.kernel.pagedir q) →
    (s.live p = true → p = s.kernel.running_process_idx ∧ e.Strays s) → Assigned layout s e s'

/--
Each live process has a page directory in use, and no other process has it. The page directories
keep apart what they map for user mode.
-/
structure Walled (layout : Layout) (s : Session) : Prop where
  spared : s.Spared
  confined : s.kernel.paging.Confined
  separate : s.kernel.paging.Separate
  own : ∀ p, s.live p = true → ∃ i, s.kernel.pagedir p = layout.address (.list i) ∧
    s.kernel.paging.page_directory_used i = true
  apart : ∀ p q, s.live p = true → s.live q = true → s.kernel.pagedir p = s.kernel.pagedir q → p = q

namespace Walled

theorem pagedir_running (h : s.Walled layout)
    : ∃ i, paging_get_current_page_directory_addr s.kernel.paging = layout.address (.list i) ∧
        s.kernel.paging.page_directory_used i = true := by
  rcases h.own _ h.spared.steady.running with ⟨i, hi, hused⟩
  unfold KernelState.pagedir at hi
  rw [if_pos rfl] at hi
  exact ⟨i, hi, hused⟩

section

variable {request : FAT32DriverRequest} {u : PagingState} {i image stack : Fin 32}

theorem assigned_stray (h : s.Walled layout) (hadmitted : Admitted request s.kernel)
    (hunread : ¬ read.Readable request s.kernel.disk)
    (hsetUp : SetUp request.buf s.kernel.paging u i image stack)
    (hsame : SameProcesses s.kernel s'.kernel)
    (hpaging : s'.kernel.paging = paging_use_page_directory u (layout.address (.list i)))
    (hlive : s'.live = s.live)
    : Assigned layout s (.create request) s' ∧ s'.kernel.paging.Separate := by
  have hseparate := h.separate.setUp h.confined hadmitted.2.1 hsetUp
  have hothers : ∀ j, j ≠ i →
      s'.kernel.paging.page_directory_list j = s.kernel.paging.page_directory_list j := by
    intro j hj
    rw [hpaging, page_directory_list_use, hsetUp.list_of_ne hj]
  refine ⟨.fresh s.kernel.running_process_idx i hsetUp.directory_unused ?_ hothers ?_ ?_ ?_, ?_⟩
  . rw [hpaging, page_directory_used_use, hsetUp.page_directory_used]
  . unfold KernelState.pagedir
    rw [hsame.running_process_idx, if_pos rfl, hpaging, current_page_directory_use]
  . intro q hq hqlive
    rw [hlive] at hqlive
    refine ⟨hqlive, ?_⟩
    unfold KernelState.pagedir
    rw [hsame.running_process_idx, if_neg hq, if_neg hq, hsame.process_list]
  . intro _
    exact ⟨rfl, hadmitted, hunread⟩
  . rw [hpaging]
    apply hseparate.use

theorem assigned_placed {p_index : Fin 16} {pcb : ProcessControlBlock} (h : s.Walled layout)
    (hdead : s.live p_index = false) (hadmitted : Admitted request s.kernel)
    (hsetUp : SetUp request.buf s.kernel.paging u i image stack)
    (hfilled : Filled s.kernel s'.kernel p_index pcb)
    (hcontext : pcb.context.page_directory_virtual_addr = layout.address (.list i))
    (hpaging : s'.kernel.paging = paging_use_page_directory
      (paging_use_page_directory u (layout.address (.list i)))
      (paging_get_current_page_directory_addr s.kernel.paging))
    (hlive : s'.live = Function.update s.live p_index true)
    : Assigned layout s (.create request) s' ∧ s'.kernel.paging.Separate := by
  have hseparate := h.separate.setUp h.confined hadmitted.2.1 hsetUp
  have hne : p_index ≠ s.kernel.running_process_idx := by
    intro heq
    have hrunning := h.spared.steady.running
    rw [← heq, hdead] at hrunning
    contradiction
  have hothers : ∀ j, j ≠ i →
      s'.kernel.paging.page_directory_list j = s.kernel.paging.page_directory_list j := by
    intro j hj
    rw [hpaging, page_directory_list_use, page_directory_list_use, hsetUp.list_of_ne hj]
  refine ⟨.fresh p_index i hsetUp.directory_unused ?_ hothers ?_ ?_ ?_, ?_⟩
  . rw [hpaging, page_directory_used_use, page_directory_used_use, hsetUp.page_directory_used]
  . unfold KernelState.pagedir
    rw [hfilled.running_process_idx, if_neg hne, hfilled.process_list, Function.update_self,
      hcontext]
  . intro q hq hqlive
    rw [hlive, Function.update_of_ne hq] at hqlive
    refine ⟨hqlive, ?_⟩
    rcases h.pagedir_running with ⟨j, hj, _⟩
    unfold KernelState.pagedir
    rw [hfilled.running_process_idx, hfilled.process_list, Function.update_of_ne hq, hpaging, hj,
      current_page_directory_use]
  . intro hplive
    rw [hdead] at hplive
    contradiction
  . rw [hpaging]
    apply hseparate.use _ |>.use

end

theorem assigned_create {request : FAT32DriverRequest} (h : s.Walled layout) (hsound : s.Sound n)
    (hstep : s.exec layout (.create request) = some s')
    : Assigned layout s (.create request) s' ∧ s'.kernel.paging.Separate := by
  unfold exec at hstep
  dsimp only [Option.bind_eq_bind] at hstep
  rw [Option.bind_eq_some_iff] at hstep
  rcases hstep with ⟨⟨code, kernel⟩, hrun, hstep⟩
  injection hstep with hstep
  cases placed_of_run hsound.kernel.taken hrun with
  | rejected hcode =>
    rw [← hstep]
    rw [if_neg hcode]
    exact ⟨.kept (fun p hp => ⟨hp, rfl⟩) rfl rfl, h.separate⟩
  | stray hadmitted hunread hsetUp hsame hpaging =>
    rw [← hstep]
    exact h.assigned_stray hadmitted hunread hsetUp hsame hpaging rfl
  | placed hadmitted hsetUp hfilled hcontext hpaging =>
    have hdead := Slots.used_of_free hfilled.inactive
    rw [← hsound.live] at hdead
    rw [← hstep]
    apply h.assigned_placed hdead hadmitted hsetUp hfilled hcontext hpaging
    rw [if_pos rfl, hfilled.inactive]
    rfl

theorem assigned_of_same {e : Event} (h : s.Walled layout)
    (hpaging : s'.kernel.paging = s.kernel.paging)
    (hrunning : s'.kernel.running_process_idx = s.kernel.running_process_idx)
    (hprocesses : ∀ p, s'.live p = true →
      s.live p = true ∧ s'.kernel.process_list p = s.kernel.process_list p)
    : Assigned layout s e s' ∧ s'.kernel.paging.Separate := by
  rw [hpaging]
  refine ⟨.kept ?_ (by rw [hpaging]) (by rw [hpaging]), h.separate⟩
  intro p hp
  rcases hprocesses p hp with ⟨hlive, hsame⟩
  refine ⟨hlive, ?_⟩
  unfold KernelState.pagedir
  rw [hrunning, hpaging, hsame]

theorem assigned_destroy {pid : UInt32} (h : s.Walled layout) (hsound : s.Sound n)
    (hstep : s.exec layout (.destroy pid) = some s')
    : Assigned layout s (.destroy pid) s' ∧ s'.kernel.paging.Separate := by
  have hpaging : s'.kernel.paging = s.kernel.paging := by
    unfold exec at hstep
    dsimp only [Option.bind_eq_bind] at hstep
    rw [Option.bind_eq_some_iff] at hstep
    rcases hstep with ⟨⟨done, kernel⟩, hrun, hstep⟩
    injection hstep with hstep
    rw [← hstep]
    apply paging_eq_of_destroy hrun
  rcases hsound.exec hstep with ⟨m, _, hchange⟩
  cases hchange with
  | kept _ hsame hlive _ =>
    apply h.assigned_of_same hpaging hsame.running_process_idx
    intro p hp
    rw [hlive] at hp
    rw [hsame.process_list]
    exact ⟨hp, rfl⟩
  | @cleared _ i hcleared hlive _ =>
    apply h.assigned_of_same hpaging hcleared.running_process_idx
    intro p hp
    rw [hlive, Function.update_apply] at hp
    split at hp
    . contradiction
    . next hne =>
      rw [hcleared.process_list, Function.update_of_ne hne]
      exact ⟨hp, rfl⟩

theorem timer_page_directory (h : s.Walled layout) (frame : InterruptFrame) (p : Fin 16)
    : ((main_interrupt_handler.timer frame s.kernel).process_list p).context.page_directory_virtual_addr
        =
      s.kernel.pagedir p := by
  rw [h.spared.steady.timer_context]
  unfold KernelState.pagedir
  split
  . rfl
  . rfl

theorem assigned_timer {frame : InterruptFrame} (h : s.Walled layout)
    (hstep : s.exec layout (.timer frame) = some s')
    : Assigned layout s (.timer frame) s' ∧ s'.kernel.paging.Separate := by
  injection hstep with hstep
  have hpaging := timer_paging frame s.kernel
  have hlist := h.timer_page_directory frame
  rw [← hstep]
  dsimp only
  generalize main_interrupt_handler.timer frame s.kernel = t at *
  refine ⟨.kept ?_ (by rw [hpaging]; rfl) (by rw [hpaging]; rfl), ?_⟩
  . intro p hp
    refine ⟨hp, ?_⟩
    rcases h.own p hp with ⟨i, hi, _⟩
    have hpagedir : t.pagedir p = s.kernel.pagedir p := by
      unfold KernelState.pagedir
      split
      . next hrunning =>
        rw [hpaging, ← hrunning, hlist, hi, current_page_directory_use, ← hi]
        rfl
      . apply hlist
    exact hpagedir
  . rw [hpaging]
    apply h.separate.use

theorem assigned (h : s.Walled layout) (hstep : s.exec layout e = some s')
    : Assigned layout s e s' ∧ s'.kernel.paging.Separate := by
  rcases h.spared.sound with ⟨n, hsound⟩
  cases e with
  | create request => exact h.assigned_create hsound hstep
  | destroy pid => exact h.assigned_destroy hsound hstep
  | timer frame => exact h.assigned_timer hstep
  | files driver_state disk =>
    injection hstep with hstep
    rw [← hstep]
    exact h.assigned_of_same rfl rfl fun p hp => ⟨hp, rfl⟩

theorem of_assigned (h : s.Walled layout) (hassigned : Assigned layout s e s')
    (hspared : s'.Spared) (hconfined : s'.kernel.paging.Confined)
    (hseparate : s'.kernel.paging.Separate)
    : s'.Walled layout := by
  cases hassigned with
  | kept hsame _ hused =>
    refine ⟨hspared, hconfined, hseparate, ?_, ?_⟩
    . intro p hp
      rcases hsame p hp with ⟨hlive, hpagedir⟩
      rw [hpagedir, hused]
      exact h.own p hlive
    . intro p q hp hq heq
      rcases hsame p hp with ⟨hplive, hpagedir⟩
      rcases hsame q hq with ⟨hqlive, hqpagedir⟩
      rw [hpagedir, hqpagedir] at heq
      exact h.apart p q hplive hqlive heq
  | fresh p i hunused hused _ hpagedir hothers _ =>
    have hown : ∀ q, q ≠ p → s'.live q = true → ∃ j, j ≠ i ∧
        s'.kernel.pagedir q = layout.address (.list j) ∧
          s.kernel.paging.page_directory_used j = true := by
      intro q hq hqlive
      rcases hothers q hq hqlive with ⟨hlive, hsame⟩
      rcases h.own q hlive with ⟨j, hj, hjused⟩
      refine ⟨j, ?_, hsame.trans hj, hjused⟩
      intro heq
      rw [heq, hunused] at hjused
      contradiction
    have hfresh : ∀ q, q ≠ p → s'.live q = true → s'.kernel.pagedir q ≠ s'.kernel.pagedir p := by
      intro q hq hqlive heq
      rcases hown q hq hqlive with ⟨j, hj, haddress, _⟩
      rw [haddress, hpagedir] at heq
      exact hj (Layout.address_list_inj heq)
    refine ⟨hspared, hconfined, hseparate, ?_, ?_⟩
    . intro q hqlive
      rw [hused]
      by_cases hq : q = p
      . rw [hq]
        exact ⟨i, hpagedir, Function.update_self ..⟩
      . rcases hown q hq hqlive with ⟨j, hj, haddress, hjused⟩
        exact ⟨j, haddress, by rw [Function.update_of_ne hj, hjused]⟩
    . intro q r hq hr heq
      by_cases hqp : q = p
      . by_contra hne
        rw [hqp] at heq hne
        exact hfresh r (Ne.symm hne) hr heq.symm
      . by_cases hrp : r = p
        . rw [hrp] at heq
          exact absurd heq (hfresh q hqp hq)
        . rcases hothers q hqp hq with ⟨hqlive, hqsame⟩
          rcases hothers r hrp hr with ⟨hrlive, hrsame⟩
          rw [hqsame, hrsame] at heq
          exact h.apart q r hqlive hrlive heq

theorem of_exec (h : s.Walled layout) (hsparing : e.Sparing s) (hstep : s.exec layout e = some s')
    : s'.Walled layout := by
  rcases h.assigned hstep with ⟨hassigned, hseparate⟩
  exact h.of_assigned hassigned (h.spared.of_exec hsparing hstep) (h.confined.of_exec hstep) hseparate

theorem reaches_iff (h : s.Walled layout) (hstep : s.exec layout e = some s') {p : Fin 16}
    (hlive : s.live p = true) (hlive' : s'.live p = true)
    (hstays : ¬ (p = s.kernel.running_process_idx ∧ e.Strays s)) (user : Bool)
    (virtual_addr physical_addr : UInt32)
    : s'.kernel.Reaches layout p user virtual_addr physical_addr
        ↔
      s.kernel.Reaches layout p user virtual_addr physical_addr := by
  have hpages : s'.kernel.pagedir p = s.kernel.pagedir p ∧
      ∀ i, s.kernel.pagedir p = layout.address (.list i) →
        s'.kernel.paging.page_directory_list i = s.kernel.paging.page_directory_list i := by
    cases (h.assigned hstep).1 with
    | kept hsame hlist _ =>
      refine ⟨(hsame p hlive').2, ?_⟩
      intro i _
      rw [hlist]
    | fresh q i hunused _ hlist _ hothers hstrays =>
      have hq : p ≠ q := by
        intro heq
        rw [heq] at hlive hstays
        exact hstays (hstrays hlive)
      refine ⟨(hothers p hq hlive').2, ?_⟩
      intro j hj
      apply hlist
      intro heq
      rcases h.own p hlive with ⟨k, hk, hused⟩
      rw [hj] at hk
      rw [← Layout.address_list_inj hk, heq, hunused] at hused
      contradiction
  unfold KernelState.Reaches
  rw [hpages.1]
  constructor
  . intro ⟨i, hi, htranslate⟩
    rw [hpages.2 i hi] at htranslate
    exact ⟨i, hi, htranslate⟩
  . intro ⟨i, hi, htranslate⟩
    rw [← hpages.2 i hi] at htranslate
    exact ⟨i, hi, htranslate⟩

end Walled

theorem allocate_kernel {s s' : PagingState} {virtual_addr physical_addr : UInt32}
    (h : paging_allocate_user_page_frame s .kernel virtual_addr = some (physical_addr, s'))
    : s'.page_directory_list = s.page_directory_list ∧
        s'.page_directory_used = s.page_directory_used := by
  unfold paging_allocate_user_page_frame at h
  split at h
  . injection h with h
    injection h with _ h
    rw [h]
    exact ⟨rfl, rfl⟩
  . injection h with h
    injection h with _ h
    rw [← h]
    exact ⟨rfl, rfl⟩

theorem separate_of_before {after_literal : Fin 3 → UInt8} {disk : Disk} {t : KernelState}
    (h : kernel_setup.before after_literal (.initial layout disk) = some t)
    : t.paging.Separate := by
  unfold kernel_setup.before at h
  dsimp only [Option.bind_eq_bind] at h
  rw [Option.bind_eq_some_iff] at h
  rcases h with ⟨_, _, h⟩
  rw [Option.bind_eq_some_iff] at h
  rcases h with ⟨⟨_, paging⟩, hallocate, h⟩
  rw [Option.bind_eq_some_iff] at h
  rcases h with ⟨_, _, h⟩
  injection h with h
  have hpaging : paging.page_directory_list = (PagingState.initial layout).page_directory_list ∧
      paging.page_directory_used = (PagingState.initial layout).page_directory_used :=
    allocate_kernel hallocate
  rw [← h]
  apply PagingState.Separate.of_zero
  . intro i
    dsimp only
    rw [hpaging.1]
    rfl
  . intro i
    dsimp only
    rw [hpaging.2]
    rfl

theorem walled_of_init (h : (sessions layout).init s) (hfirst : s.kernel.First)
    : s.Walled layout := by
  have hspared : s.Spared :=
    ⟨steady_of_first h hfirst, sound_of_init h, by rw [h.2.1]; exact hfirst.created⟩
  have hconfined := PagingState.Confined.of_booted h.1
  have hzero : ∀ p, s.live p = true → p = 0 := by
    intro p hp
    rw [h.2.1, hfirst.used_process, decide_eq_true_iff] at hp
    exact hp
  rcases h.1 with ⟨after_literal, disk, hboot⟩
  unfold kernel_setup at hboot
  dsimp only [Option.bind_eq_bind] at hboot
  rw [Option.bind_eq_some_iff] at hboot
  rcases hboot with ⟨t, hbefore, hboot⟩
  rw [Option.bind_eq_some_iff] at hboot
  rcases hboot with ⟨⟨code, t'⟩, hcreate, hboot⟩
  injection hboot with hboot
  rcases kernel_setup.before_cases hbefore with ⟨hempty, htaken⟩
  have hcreated := hfirst.created
  have hidx := hfirst.running_process_idx
  have hpaging : s.kernel.paging = paging_use_page_directory t'.paging
      (t'.process_list s.kernel.running_process_idx).context.page_directory_virtual_addr := by
    rw [← hboot]
    have hcontext := scheduler_switch_to_next_process.process_list_context (scheduler_init t')
      (scheduler_switch_to_next_process.pilihan (scheduler_init t'))
    exact congrArg (fun ctx => paging_use_page_directory t'.paging ctx.page_directory_virtual_addr)
      hcontext
  have hused : s.kernel.used_process = t'.used_process := by
    rw [← hboot]
    rfl
  rw [hused] at hcreated
  cases placed_of_run htaken hcreate with
  | rejected _ =>
    rw [hempty.used_process] at hcreated
    exact absurd hcreated Bool.false_ne_true
  | stray _ _ _ hsame _ =>
    rw [hsame.used_process, hempty.used_process] at hcreated
    exact absurd hcreated Bool.false_ne_true
  | @placed _ u i image stack p_index pcb hadmitted hsetUp hfilled hcontext hplaced =>
    have hp_index : p_index = 0 := by
      rw [hfilled.used_process, Function.update_apply] at hcreated
      split at hcreated
      . next heq => exact heq.symm
      . rw [hempty.used_process] at hcreated
        exact absurd hcreated Bool.false_ne_true
    have hown : s.kernel.pagedir 0 = layout.address (.list i) := by
      unfold KernelState.pagedir
      rw [hidx, if_pos rfl, hpaging, hidx, hfilled.process_list, hp_index, Function.update_self,
        hcontext, current_page_directory_use]
    have hseparate := (separate_of_before hbefore).setUp (.of_before hbefore) hadmitted.2.1 hsetUp
    refine ⟨hspared, hconfined, ?_, ?_, ?_⟩
    . rw [hpaging, hplaced]
      apply ((hseparate.use _).use _).use
    . intro p hp
      rw [hzero p hp, hpaging, hplaced]
      refine ⟨i, hown, ?_⟩
      simp [hsetUp.page_directory_used]
    . intro p q hp hq _
      rw [hzero p hp, hzero q hq]

end Session

/--
User mode keeps to page frames of its own, above the kernel's 4 MiB of the physical memory, and each
process maps those 4 MiB for the kernel.
-/
structure Session.Partitioned (layout : Layout) (s : Session) : Prop where
  apart : ∀ p q virtual_addr virtual_addr' physical_addr, s.live p = true → s.live q = true →
    s.kernel.Reaches layout p true virtual_addr physical_addr →
      s.kernel.Reaches layout q true virtual_addr' physical_addr → p = q
  outside : ∀ p virtual_addr physical_addr, s.live p = true →
    s.kernel.Reaches layout p true virtual_addr physical_addr →
      virtual_addr < KERNEL_VIRTUAL_ADDRESS_BASE ∧ 2 ^ 22 ≤ physical_addr.toNat ∧
        physical_addr.toNat < 2 ^ 27
  kernel : ∀ p virtual_addr, s.live p = true → 0xC0000000 ≤ virtual_addr.toNat →
    virtual_addr.toNat < 0xC0400000 →
      s.kernel.Reaches layout p false virtual_addr (virtual_addr - KERNEL_VIRTUAL_ADDRESS_BASE)

theorem Session.Walled.partitioned {layout : Layout} {s : Session} (h : s.Walled layout)
    : s.Partitioned layout := by
  refine ⟨?_, ?_, ?_⟩
  . intro p q virtual_addr virtual_addr' physical_addr hp hq ⟨i, hi, hreach⟩ ⟨j, hj, hreach'⟩
    have hij := h.separate.alone i j _ _ _ (PageDirectory.userMaps_of_translate hreach)
      (PageDirectory.userMaps_of_translate hreach')
    apply h.apart p q hp hq
    rw [hi, hj, hij]
  . intro p virtual_addr physical_addr hp ⟨i, hi, hreach⟩
    have hmaps := PageDirectory.userMaps_of_translate hreach
    have hbelow := h.separate.below i _ _ hmaps
    have hframed := h.separate.framed i _ _ hmaps
    have hbase : KERNEL_VIRTUAL_ADDRESS_BASE.toNat = 0xC0000000 := rfl
    rw [page_index_val] at hbelow hframed
    rw [UInt32.lt_iff_toNat_lt, hbase]
    omega
  . intro p virtual_addr hp habove hbelow
    rcases h.own p hp with ⟨i, hi, hused⟩
    exact ⟨i, hi, PageDirectory.translate_of_kernel (h.separate.kernel i hused) habove hbelow⟩

/--
After a boot that has created process 0, in every run that destroys neither process 0 nor the process
that runs, the page directories keep the memory of the live processes apart, and each live process
reaches the same memory as before the step, unless it has just failed to create another one.
-/
theorem memory_isolated {layout : Layout} {s₀ s : Session}
    {steps : List (Session × Event × Session)} (h : (sessions layout).init s₀)
    (hcreated : s₀.kernel.used_process 0 = true)
    (hrun : (sessions layout).Run (fun s e => e.Sparing s) s₀ steps s)
    : s.Partitioned layout ∧
        ∀ t e t', (t, e, t') ∈ steps → ∀ p, t.live p = true → t'.live p = true →
          ¬ (p = t.kernel.running_process_idx ∧ e.Strays t) →
            ∀ user virtual_addr physical_addr,
              t'.kernel.Reaches layout p user virtual_addr physical_addr
                  ↔
                t.kernel.Reaches layout p user virtual_addr physical_addr := by
  have hall : s.Walled layout ∧ ∀ t e t', (t, e, t') ∈ steps →
      t.Walled layout ∧ t.exec layout e = some t' := by
    apply hrun.invariant (J := fun steps s => s.Walled layout ∧ ∀ t e t', (t, e, t') ∈ steps →
      t.Walled layout ∧ t.exec layout e = some t')
    . refine ⟨Session.walled_of_init h (h.1.cases.2 hcreated), ?_⟩
      intro t e t' hmem
      contradiction
    . intro steps s e s' ⟨hwalled, hsteps⟩ hsparing hstep
      refine ⟨hwalled.of_exec hsparing hstep, ?_⟩
      intro t e' t' hmem
      rw [List.mem_append, List.mem_singleton] at hmem
      rcases hmem with hmem | heq
      . exact hsteps t e' t' hmem
      . injection heq with ht heq
        injection heq with he ht'
        rw [ht, he, ht']
        exact ⟨hwalled, hstep⟩
  refine ⟨hall.1.partitioned, ?_⟩
  intro t e t' hmem p hlive hlive' hstays user virtual_addr physical_addr
  rcases hall.2 t e t' hmem with ⟨hwalled, hstep⟩
  exact hwalled.reaches_iff hstep hlive hlive' hstays user virtual_addr physical_addr

theorem Session.Grown.not_strays {s : Session} {k : Nat} (h : s.Grown k)
    : ¬ Event.Strays s (.create kernel_setup.request) := by
  rcases run_read_first s.kernel.driver_state with ⟨st, hread⟩
  rw [← h.disk] at hread
  intro hstrays
  exact hstrays.2 ((read.code_eq_zero_iff hread).mp rfl)

-- neither the creation of process 1 nor the switch to it alters what the others reach
theorem memory_isolated_tour
    : ∃ s₀ s₁ s₂ s₃ s₄, Tour s₀ s₁ s₂ s₃ s₄ ∧ s₂.Partitioned .low ∧
        (∀ user virtual_addr physical_addr,
          s₁.kernel.Reaches .low 0 user virtual_addr physical_addr
              ↔
            s₀.kernel.Reaches .low 0 user virtual_addr physical_addr) ∧
        ∀ p : Fin 16, p.val < 2 → ∀ user virtual_addr physical_addr,
          s₂.kernel.Reaches .low p user virtual_addr physical_addr
              ↔
            s₁.kernel.Reaches .low p user virtual_addr physical_addr := by
  rcases exists_tour with ⟨s₀, s₁, s₂, s₃, s₄, h⟩
  have hrun : (sessions .low).Run (fun s e => e.Sparing s) s₀
      [(s₀, .create kernel_setup.request, s₁), (s₁, .timer timer_frame, s₂)] s₂ :=
    .tail (.tail .refl trivial h.create) trivial h.away
  rcases memory_isolated h.init h.created hrun with ⟨hpartitioned, hstays⟩
  have hlive : ∀ p : Fin 16, p.val < 2 → s₁.live p = true ∧ s₂.live p = true := by
    intro p hp
    rw [← h.live_away]
    exact ⟨(h.grown.filled p).mpr hp, (h.grown.filled p).mpr hp⟩
  refine ⟨s₀, s₁, s₂, s₃, s₄, h, hpartitioned, ?_, ?_⟩
  . exact hstays _ _ _ List.mem_cons_self 0 ((h.alone.filled 0).mpr (by decide))
      (hlive 0 (by decide)).1 fun hstrays => h.alone.not_strays hstrays.2
  . intro p hp
    exact hstays _ _ _ (List.mem_cons_of_mem _ List.mem_cons_self) p (hlive p hp).1 (hlive p hp).2
      fun hstrays => hstrays.2

end AiOS
