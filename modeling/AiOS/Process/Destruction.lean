import AiOS.Process.Boot

/-!
This module contains when `process_destroy` acts on live processes only. It also finds slot 0
without a process there, and it counts down from a count that `scheduler_init` has reset.
-/

namespace AiOS

/--
`process_destroy` returns true exactly for the pid of a live process. It kills that slot, lowers the
count by one without wrapping, and changes no other slot. Else it changes nothing.
-/
structure Session.DestroysLive (s : Session) (pid : UInt32) (done : Bool) (kernel : KernelState)
    : Prop where
  done_iff : done = true ↔ ∃ i, s.live i = true ∧ pid = UInt32.ofNat i
  killed : done = true → ∃ i : Fin 16, pid = UInt32.ofNat i ∧
    (kernel.process_list i).state = .KILLED ∧ kernel.used_process i = false ∧
      ∀ j ≠ i, kernel.process_list j = s.kernel.process_list j ∧
        kernel.used_process j = s.kernel.used_process j
  count : done = true →
    kernel.active_process_count.toNat + 1 = s.kernel.active_process_count.toNat
  unchanged : done = false → kernel = s.kernel

structure Session.Counted (s : Session) (pid : UInt32) : Prop where
  zero : pid = 0 → s.live 0 = true
  count : (∃ i, s.live i = true ∧ pid = UInt32.ofNat i) → s.kernel.active_process_count ≠ 0

namespace Session

variable {layout : Layout} {s : Session} {pid : UInt32} {n : Nat}

theorem Sound.live_of_find {i : Fin 16} (h : s.Sound n) (hzero : pid = 0 → s.live 0 = true)
    (hfind : process_destroy.find s.kernel pid = some i)
    : s.live i = true ∧ pid = UInt32.ofNat i := by
  have hpid := h.kernel.numbered.pid_of_find hfind
  refine ⟨?_, hpid⟩
  unfold process_destroy.find at hfind
  rw [Fin.find?_eq_some_iff, decide_eq_true_iff] at hfind
  have hhit := hfind.1
  rw [h.kernel.numbered, ← h.live] at hhit
  split at hhit
  . assumption
  . -- an unused slot is found for the pid 0 alone
    have hi : i = 0 := by
      apply pid_inj
      rw [← hpid, ← hhit]
      rfl
    rw [hi]
    apply hzero hhit.symm

theorem toNat_sub_one {count : UInt32} (h : count ≠ 0) : (count - 1).toNat + 1 = count.toNat := by
  have hone : (1 : UInt32).toNat = 1 := rfl
  have hpos : 0 < count.toNat := by
    rw [Nat.pos_iff_ne_zero]
    intro hzero
    apply h
    apply UInt32.toNat_inj.mp hzero
  rw [UInt32.toNat_sub_of_le]
  . omega
  . rw [UInt32.le_iff_toNat_le]
    omega

theorem Sound.destroysLive_of_counted (h : s.Sound n) (hcounted : s.Counted pid)
    : ∃ done kernel, process_destroy pid s.kernel = some (done, kernel) ∧
        s.DestroysLive pid done kernel := by
  cases hfind : process_destroy.find s.kernel pid with
  | none =>
    refine ⟨false, s.kernel, process_destroy_of_find_eq_none hfind, ?_⟩
    constructor
    . constructor
      . intro hfalse
        contradiction
      . intro ⟨i, hlive, hpid⟩
        rw [h.live] at hlive
        rcases isSome_find_of_used h.kernel.numbered hlive with ⟨j, hsome⟩
        rw [← hpid, hfind] at hsome
        contradiction
    . intro hfalse
      contradiction
    . intro hfalse
      contradiction
    . intro _
      rfl
  | some i =>
    rcases h.live_of_find hcounted.zero hfind with ⟨hlive, hpid⟩
    rcases process_destroy_of_find_eq_some h.kernel.numbered hfind with ⟨kernel, hrun, hcleared⟩
    refine ⟨true, kernel, hrun, ?_⟩
    constructor
    . exact ⟨fun _ => ⟨i, hlive, hpid⟩, fun _ => rfl⟩
    . intro _
      refine ⟨i, hpid, ?_, ?_, ?_⟩
      . rw [hcleared.process_list, Function.update_self]
        rfl
      . rw [hcleared.used_process, Function.update_self]
      . intro j hj
        rw [hcleared.process_list, hcleared.used_process]
        exact ⟨Function.update_of_ne hj _ _, Function.update_of_ne hj _ _⟩
    . intro _
      rw [hcleared.active_process_count]
      apply toNat_sub_one (hcounted.count ⟨i, hlive, hpid⟩)
    . intro hfalse
      contradiction

theorem Sound.destroy_zero (h : s.Sound n)
    : ∃ kernel, process_destroy 0 s.kernel = some (true, kernel) ∧ Cleared s.kernel kernel 0 := by
  have hfind : process_destroy.find s.kernel 0 = some 0 := by
    unfold process_destroy.find
    rw [Fin.find?_eq_some_iff, decide_eq_true_iff]
    refine ⟨h.kernel.numbered.pid_zero, ?_⟩
    intro j hj
    omega
  apply process_destroy_of_find_eq_some h.kernel.numbered hfind

theorem Sound.counted_of_destroysLive {done : Bool} {kernel : KernelState} (h : s.Sound n)
    (hrun : process_destroy pid s.kernel = some (done, kernel))
    (hdestroys : s.DestroysLive pid done kernel)
    : s.Counted pid where
  zero hpid := by
    rcases h.destroy_zero with ⟨kernel', hrun', _⟩
    rw [hpid, hrun'] at hrun
    injection hrun with hrun
    injection hrun with hdone _
    rcases hdestroys.done_iff.mp hdone.symm with ⟨i, hlive, hi⟩
    have hzero : i = 0 := by
      apply pid_inj
      rw [← hi, hpid]
      rfl
    rw [← hzero]
    exact hlive
  count hlive hcount := by
    have hone := hdestroys.count (hdestroys.done_iff.mpr hlive)
    rw [hcount] at hone
    contradiction

/--
In every state after boot, and for every pid.
-/
theorem destroysLive_iff (h : (sessions layout).Reachable (fun _ _ => True) s) (pid : UInt32)
    : (∃ done kernel, process_destroy pid s.kernel = some (done, kernel) ∧
        s.DestroysLive pid done kernel) ↔ s.Counted pid := by
  rcases sound_of_reachable h with ⟨n, hsound⟩
  constructor
  . intro ⟨done, kernel, hrun, hdestroys⟩
    apply hsound.counted_of_destroysLive hrun hdestroys
  . intro hcounted
    apply hsound.destroysLive_of_counted hcounted

theorem destroysLive_first
    : ∃ s : Session, (sessions .low).init s ∧ s.Counted 7 ∧
        ∃ done kernel, process_destroy 7 s.kernel = some (done, kernel) ∧
          s.DestroysLive 7 done kernel := by
  rcases exists_session with ⟨s, hinit, hfirst, _⟩
  have hlive : ∀ i, s.live i = decide (i = 0) := by
    rw [hinit.2.1]
    apply hfirst.used_process
  have hcounted : s.Counted 7 := by
    constructor
    . intro hzero
      contradiction
    . intro ⟨i, hi, hpid⟩
      rw [hlive, decide_eq_true_iff] at hi
      rw [hi] at hpid
      contradiction
  exact ⟨s, hinit, hcounted, (destroysLive_iff (.init hinit) 7).mpr hcounted⟩

-- the first process is destroyed right after boot, and then once more
theorem not_destroysLive_first
    : ∃ s s₁ : Session, (sessions .low).init s ∧ s.exec .low (.destroy 0) = some s₁ ∧
        (¬ ∃ done kernel, process_destroy 0 s.kernel = some (done, kernel) ∧
          s.DestroysLive 0 done kernel) ∧
        s₁.kernel.active_process_count = 0xFFFFFFFF ∧ (∀ i, s₁.live i = false) ∧
        (∃ kernel, process_destroy 0 s₁.kernel = some (true, kernel)) ∧
        ¬ ∃ done kernel, process_destroy 0 s₁.kernel = some (done, kernel) ∧
          s₁.DestroysLive 0 done kernel := by
  rcases exists_session with ⟨s, hinit, hfirst, _, n, _, hsound⟩
  have hlive : s.live 0 = true := by
    rw [hinit.2.1]
    apply hfirst.created
  rcases exec_destroy_of_live .low hsound hlive with ⟨s₁, hstep, hcleared, hlive₁⟩
  rcases hsound.exec hstep with ⟨m, hsound₁, _⟩
  have hdead : ∀ i, s₁.live i = false := by
    intro i
    rw [hlive₁, hinit.2.1, Function.update_apply, hfirst.used_process]
    split
    . rfl
    . next hi => simp [hi]
  refine ⟨s, s₁, hinit, hstep, ?_, ?_, hdead, ?_, ?_⟩
  . intro ⟨done, kernel, hrun, hdestroys⟩
    have hcounted := hsound.counted_of_destroysLive hrun hdestroys
    exact hcounted.count ⟨0, hlive, rfl⟩ hfirst.active_process_count
  . rw [hcleared.active_process_count, hfirst.active_process_count]
    rfl
  . rcases hsound₁.destroy_zero with ⟨kernel, hrun, _⟩
    exact ⟨kernel, hrun⟩
  . intro ⟨done, kernel, hrun, hdestroys⟩
    have hcounted := hsound₁.counted_of_destroysLive hrun hdestroys
    have hzero := hcounted.zero rfl
    rw [hdead] at hzero
    contradiction

end Session
end AiOS
