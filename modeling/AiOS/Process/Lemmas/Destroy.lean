import AiOS.Process.Impl.Process

/-!
This module contains which slot `process_destroy` finds, and what it does there.
-/

namespace AiOS

/--
A used slot has its index for a pid, any other slot has the pid 0.
-/
def KernelState.Numbered (s : KernelState) : Prop :=
  ∀ i, (s.process_list i).pid = if s.used_process i then UInt32.ofNat i else 0

variable {s s' : KernelState} {pid : UInt32} {i : Fin 16} {done : Bool}

theorem toNat_pid (i : Fin 16) : (UInt32.ofNat i).toNat = i := by
  rw [UInt32.toNat_ofNat']
  omega

theorem pid_inj {i j : Fin 16} (h : UInt32.ofNat i = UInt32.ofNat j) : i = j := by
  have hnat := congrArg UInt32.toNat h
  rw [toNat_pid, toNat_pid] at hnat
  apply Fin.ext hnat

namespace KernelState.Numbered

variable (h : s.Numbered)

include h

theorem pid_zero : (s.process_list 0).pid = 0 := by
  rw [h 0]
  split
  . rfl
  . rfl

-- slot 0 has the pid 0 even when it is not used, so no other unused slot is ever found
theorem pid_of_find (hfind : process_destroy.find s pid = some i) : pid = UInt32.ofNat i := by
  unfold process_destroy.find at hfind
  rw [Fin.find?_eq_some_iff] at hfind
  rcases hfind with ⟨hhit, hbefore⟩
  rw [decide_eq_true_iff] at hhit
  rw [← hhit, h i]
  split
  . rfl
  . next hunused =>
    rw [h i, if_neg hunused] at hhit
    have hzero : i = 0 := by
      by_contra hne
      have hlt : 0 < i := by omega
      have hmiss := hbefore 0 hlt
      rw [decide_eq_false_iff_not, h.pid_zero] at hmiss
      exact hmiss hhit
    rw [hzero]
    rfl

end KernelState.Numbered

theorem isSome_find_of_used (h : s.Numbered) (hused : s.used_process i = true)
    : ∃ j, process_destroy.find s (UInt32.ofNat i) = some j := by
  rw [← Option.isSome_iff_exists]
  unfold process_destroy.find
  rw [Fin.isSome_find?_iff]
  refine ⟨i, ?_⟩
  rw [decide_eq_true_iff, h i, if_pos hused]

structure Cleared (s s' : KernelState) (i : Fin 16) : Prop where
  process_list : s'.process_list = Function.update s.process_list i .zero
  used_process : s'.used_process = Function.update s.used_process i false
  active_process_count : s'.active_process_count = s.active_process_count - 1
  running_process_idx : s'.running_process_idx = s.running_process_idx
  paging : s'.paging = s.paging

theorem process_destroy_of_find_eq_none (hfind : process_destroy.find s pid = none)
    : process_destroy pid s = some (false, s) := by
  unfold process_destroy
  rw [hfind]

theorem process_destroy_of_find_eq_some (h : s.Numbered)
    (hfind : process_destroy.find s pid = some i)
    : ∃ s', process_destroy pid s = some (true, s') ∧ Cleared s s' i := by
  have hpid := h.pid_of_find hfind
  have hnat := toNat_pid i
  rw [← hpid] at hnat
  have hlt : pid.toNat < PROCESS_COUNT_MAX := by
    rw [hnat]
    apply i.isLt
  have hindex : (⟨pid.toNat, hlt⟩ : Fin 16) = i := Fin.ext hnat
  unfold process_destroy
  rw [hfind]
  dsimp only
  rw [dif_pos hlt, hindex]
  refine ⟨_, rfl, ?_⟩
  exact { process_list := rfl, used_process := rfl, active_process_count := rfl,
          running_process_idx := rfl, paging := rfl }

end AiOS
