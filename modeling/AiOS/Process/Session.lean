import AiOS.Lib.System
import AiOS.Process.Sound

/-!
This module contains the runs of the kernel: it boots, and then system calls and timer interrupts
follow in any order.
-/

namespace AiOS

/--
The kernel, with the slots of the processes that were created and not destroyed since, and how often
`process_destroy` has cleared a slot without a process.
-/
structure Session where
  kernel : KernelState
  live : Fin 16 → Bool
  missed : Nat

-- system calls on files change nothing but the disk and its driver
inductive Event where
  | create (request : FAT32DriverRequest)
  | destroy (pid : UInt32)
  | timer (frame : InterruptFrame)
  | files (driver_state : FAT32DriverState) (disk : Disk)

def mark (live : Fin 16 → Bool) (slot : Option (Fin 16)) (b : Bool) : Fin 16 → Bool :=
  match slot with
  | some i => Function.update live i b
  | none => live

def Session.exec (layout : Layout) (s : Session) (e : Event) : Option Session :=
  match e with
  | .create request => do
    let (code, kernel) ← process_create_user_process layout request s.kernel
    let live :=
      if code = PROCESS_CREATE_SUCCESS then
        mark s.live (process_list_get_inactive_index s.kernel) true
      else
        s.live
    return ⟨kernel, live, s.missed⟩
  | .destroy pid => do
    let (_, kernel) ← process_destroy pid s.kernel
    let slot := process_destroy.find s.kernel pid
    let missed := if slot.any fun i => !s.live i then s.missed + 1 else s.missed
    return ⟨kernel, mark s.live slot false, missed⟩
  | .timer frame => some { s with kernel := main_interrupt_handler.timer frame s.kernel }
  | .files driver_state disk =>
    some { s with kernel := { s.kernel with driver_state := driver_state, disk := disk } }

def sessions (layout : Layout) : System Session Event where
  init s := Booted layout s.kernel ∧ s.live = s.kernel.used_process ∧ s.missed = 0
  step s e s' := s.exec layout e = some s'

namespace Session

variable {layout : Layout} {s s' : Session} {e : Event} {m n : Nat}

structure Sound (n : Nat) (s : Session) : Prop where
  kernel : s.kernel.Sound n
  live : s.live = s.kernel.used_process

variable (n s) in
inductive Change : Event → Nat → Session → Prop where
  | kept {e : Event} {m : Nat} {s' : Session} :
    n ≤ m → SameProcesses s.kernel s'.kernel → s'.live = s.live → s'.missed = s.missed →
      Change e m s'
  | filled {request : FAT32DriverRequest} {s' : Session} {p_index : Fin 16}
      {pcb : ProcessControlBlock} :
    Filled s.kernel s'.kernel p_index pcb → s'.live = Function.update s.live p_index true →
      s'.missed = s.missed → Change (.create request) (n + 1) s'
  | cleared {s' : Session} {i : Fin 16} :
    Cleared s.kernel s'.kernel i → s'.live = Function.update s.live i false →
      s'.missed = (if s.live i then s.missed else s.missed + 1) →
        Change (.destroy (UInt32.ofNat i)) n s'
  | switched {frame : InterruptFrame} {s' : Session} :
    Switched s.kernel s'.kernel → s'.live = s.live → s'.missed = s.missed →
      Change (.timer frame) n s'

theorem change_of_create {request : FAT32DriverRequest} (h : s.Sound n)
    (hstep : s.exec layout (.create request) = some s')
    : ∃ m, s'.kernel.paging.Taken m (2 * m + 2) ∧ Change s n (.create request) m s' := by
  unfold exec at hstep
  dsimp only [Option.bind_eq_bind] at hstep
  rw [Option.bind_eq_some_iff] at hstep
  rcases hstep with ⟨⟨code, kernel⟩, hrun, hstep⟩
  injection hstep with hstep
  cases process_create_user_process.outcome h.kernel.taken hrun with
  | rejected hnot hcode =>
    rw [← hstep]
    rw [if_neg hcode]
    exact ⟨n, h.kernel.taken, .kept (Nat.le_refl n) ⟨rfl, rfl, rfl, rfl⟩ rfl rfl⟩
  | unread _ _ hsame htaken =>
    rw [← hstep]
    exact ⟨n + 1, htaken, .kept (Nat.le_succ n) hsame rfl rfl⟩
  | created _ _ hfilled htaken =>
    rw [← hstep]
    rw [hfilled.inactive]
    exact ⟨n + 1, htaken, .filled hfilled rfl rfl⟩

theorem change_of_destroy {pid : UInt32} (h : s.Sound n)
    (hstep : s.exec layout (.destroy pid) = some s')
    : ∃ m, s'.kernel.paging.Taken m (2 * m + 2) ∧ Change s n (.destroy pid) m s' := by
  unfold exec at hstep
  dsimp only [Option.bind_eq_bind] at hstep
  rw [Option.bind_eq_some_iff] at hstep
  rcases hstep with ⟨⟨done, kernel⟩, hrun, hstep⟩
  injection hstep with hstep
  cases hfind : process_destroy.find s.kernel pid with
  | none =>
    rw [process_destroy_of_find_eq_none hfind] at hrun
    injection hrun with hrun
    injection hrun with _ hkernel
    rw [hfind, ← hkernel] at hstep
    rw [← hstep]
    exact ⟨n, h.kernel.taken, .kept (Nat.le_refl n) ⟨rfl, rfl, rfl, rfl⟩ rfl rfl⟩
  | some i =>
    rcases process_destroy_of_find_eq_some h.kernel.numbered hfind with ⟨kernel', heq, hcleared⟩
    rw [heq] at hrun
    injection hrun with hrun
    injection hrun with _ hkernel
    rw [h.kernel.numbered.pid_of_find hfind]
    rw [hfind, ← hkernel] at hstep
    rw [← hstep]
    refine ⟨n, ?_, .cleared hcleared rfl ?_⟩
    . rw [hcleared.paging]
      apply h.kernel.taken
    . cases hlive : s.live i with
      | true => simp [hlive]
      | false => simp [hlive]

theorem change (h : s.Sound n) (hstep : s.exec layout e = some s')
    : ∃ m, s'.kernel.paging.Taken m (2 * m + 2) ∧ Change s n e m s' := by
  cases e with
  | create request => apply change_of_create h hstep
  | destroy pid => apply change_of_destroy h hstep
  | timer frame =>
    injection hstep with hstep
    have hswitched := switched_timer frame s.kernel
    rw [← hstep]
    refine ⟨n, ?_, .switched hswitched rfl rfl⟩
    rcases hswitched.paging with ⟨addr, hpaging⟩
    dsimp only
    rw [hpaging]
    apply h.kernel.taken.use
  | files driver_state disk =>
    injection hstep with hstep
    rw [← hstep]
    exact ⟨n, h.kernel.taken, .kept (Nat.le_refl n) ⟨rfl, rfl, rfl, rfl⟩ rfl rfl⟩

theorem exec_destroy_of_live (layout : Layout) (h : s.Sound n) {i : Fin 16} (hlive : s.live i = true)
    : ∃ s', s.exec layout (.destroy (UInt32.ofNat i)) = some s' ∧ Cleared s.kernel s'.kernel i ∧
        s'.live = Function.update s.live i false := by
  rw [h.live] at hlive
  rcases isSome_find_of_used h.kernel.numbered hlive with ⟨j, hfind⟩
  have hj : i = j := pid_inj (h.kernel.numbered.pid_of_find hfind)
  rcases process_destroy_of_find_eq_some h.kernel.numbered hfind with ⟨kernel, hrun, hcleared⟩
  rw [← hj] at hfind hcleared
  unfold exec
  dsimp only [Option.bind_eq_bind]
  rw [hrun, Option.bind_some, hfind]
  exact ⟨_, rfl, hcleared, rfl⟩

theorem Change.le (h : Change s n e m s') : n ≤ m := by
  cases h with
  | kept hn _ _ _ => exact hn
  | filled _ _ _ => apply Nat.le_succ
  | cleared _ _ _ => apply Nat.le_refl
  | switched _ _ _ => apply Nat.le_refl

theorem Sound.of_change (h : s.Sound n) (ht : s'.kernel.paging.Taken m (2 * m + 2))
    (hchange : Change s n e m s')
    : s'.Sound m := by
  cases hchange with
  | kept hn hsame hlive _ =>
    refine ⟨h.kernel.of_same hsame hn ht, ?_⟩
    rw [hlive, hsame.used_process, h.live]
  | filled hfilled hlive _ =>
    refine ⟨h.kernel.of_filled hfilled ht, ?_⟩
    rw [hlive, hfilled.used_process, h.live]
  | cleared hcleared hlive _ =>
    refine ⟨h.kernel.of_cleared hcleared, ?_⟩
    rw [hlive, hcleared.used_process, h.live]
  | switched hswitched hlive _ =>
    refine ⟨h.kernel.of_switched hswitched, ?_⟩
    rw [hlive, hswitched.used_process, h.live]

theorem Sound.exec (h : s.Sound n) (hstep : s.exec layout e = some s')
    : ∃ m, s'.Sound m ∧ Change s n e m s' := by
  rcases change h hstep with ⟨m, ht, hchange⟩
  exact ⟨m, h.of_change ht hchange, hchange⟩

variable {ok : Session → Event → Prop}

theorem sound_of_leads (h : s.Sound n) (hleads : (sessions layout).Leads ok s s')
    : ∃ m, n ≤ m ∧ s'.Sound m := by
  apply System.Leads.invariant (I := fun s => ∃ m, n ≤ m ∧ s.Sound m) hleads ⟨n, Nat.le_refl n, h⟩
  intro s e s' hs _ hstep
  rcases hs with ⟨k, hk, hs⟩
  rcases hs.exec hstep with ⟨m, hs', hchange⟩
  exact ⟨m, Nat.le_trans hk hchange.le, hs'⟩

theorem sound_of_init (h : (sessions layout).init s) : ∃ n, s.Sound n := by
  rcases h with ⟨hbooted, hlive, _⟩
  rcases hbooted.cases.1 with ⟨n, _, hsound⟩
  exact ⟨n, hsound, hlive⟩

theorem sound_of_reachable (h : (sessions layout).Reachable ok s) : ∃ n, s.Sound n := by
  apply h.invariant
  . intro s hs
    apply sound_of_init hs
  . intro s e s' hs _ hstep
    rcases hs with ⟨n, hs⟩
    rcases hs.exec hstep with ⟨m, hs', _⟩
    exact ⟨m, hs'⟩

end Session
end AiOS
