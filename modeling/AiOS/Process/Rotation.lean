import AiOS.Lib.Turns
import AiOS.Process.Lemmas.Scheduler

/-!
This module contains that the scheduler takes the live processes in turns.
-/

namespace AiOS

open scheduler_switch_to_next_process

/--
Process `running_process_idx` alone runs, at least one other is ready, and the rest are killed.
-/
structure KernelState.Rotating (s : KernelState) : Prop where
  running : (s.process_list s.running_process_idx).state = .RUNNING
  others : ∀ i ≠ s.running_process_idx,
    (s.process_list i).state = .READY ∨ (s.process_list i).state = .KILLED
  ready : ∃ i ≠ s.running_process_idx, (s.process_list i).state = .READY

def KernelState.alive (s : KernelState) (i : Fin 16) : Bool :=
  (s.process_list i).state ≠ .KILLED

def KernelState.order (s : KernelState) : List (Fin 16) :=
  Turns.order s.alive s.running_process_idx

/--
The scheduler switches into the given slots one after the other. Between two switches anything may
happen that creates and destroys no process.
-/
inductive Switches (s : KernelState) : List (Fin 16) → KernelState → Prop where
  | refl : Switches s [] s
  | other {slots : List (Fin 16)} {t t' : KernelState} :
    Switches s slots t → t'.running_process_idx = t.running_process_idx →
      (∀ i, (t'.process_list i).state = (t.process_list i).state) → Switches s slots t'
  | switch {slots : List (Fin 16)} {t : KernelState} :
    Switches s slots t → Switches s
      (slots ++ [(scheduler_switch_to_next_process t).running_process_idx])
      (scheduler_switch_to_next_process t)

theorem Switches.timer {s t : KernelState} {slots : List (Fin 16)} (h : Switches s slots t)
    (frame : InterruptFrame)
    : Switches s (slots ++ [(main_interrupt_handler.timer frame t).running_process_idx])
        (main_interrupt_handler.timer frame t) := by
  rw [main_interrupt_handler.timer_eq]
  apply Switches.switch
  apply h.other
  . rcases save_context_eq (main_interrupt_handler.currentContext frame t) t with ⟨_, heq⟩
    rw [heq]
  . apply save_context_state

namespace KernelState.Rotating

variable {s t : KernelState}

section

variable (h : s.Rotating)

include h

theorem alive_iff {i : Fin 16} (hi : i ≠ s.running_process_idx)
    : s.alive i = true ↔ (s.process_list i).state = .READY := by
  unfold alive
  rw [decide_eq_true_iff]
  cases h.others i hi with
  | inl hready => simp [hready]
  | inr hkilled => simp [hkilled]

theorem exists_pilihan
    : ∃ k : Fin 16, k + 1 + s.running_process_idx = pilihan s ∧
        s.alive (k + 1 + s.running_process_idx) = true ∧
        ∀ j < k, s.alive (j + 1 + s.running_process_idx) = false := by
  have hsucc : ∀ k : Fin 15, k.castSucc + 1 + s.running_process_idx
      = k.succ + s.running_process_idx := by
    intro k
    rw [Fin.coeSucc_eq_succ]
  unfold pilihan
  split
  . next i hfind =>
    rw [Fin.find?_eq_some_iff] at hfind
    refine ⟨i.castSucc, hsucc i, ?_, ?_⟩
    . rw [hsucc, h.alive_iff (succ_add_ne i _)]
      simpa using hfind.1
    . intro j hj
      have hlt : j.val < 15 := by omega
      have hmiss := hfind.2 ⟨j, hlt⟩ hj
      rw [decide_eq_false_iff_not, ← h.alive_iff (succ_add_ne _ _), Bool.not_eq_true,
        ← hsucc] at hmiss
      exact hmiss
  . next hfind =>
    exfalso
    rcases h.ready with ⟨i, hne, hready⟩
    rcases exists_succ_add hne with ⟨k, hk⟩
    rw [Fin.find?_eq_none_iff] at hfind
    have hmiss := hfind k
    rw [hk, hready] at hmiss
    simp at hmiss

theorem switch : (scheduler_switch_to_next_process s).Rotating := by
  have hswitched := switched_switch s
  rcases pilihan_ready s h.ready with ⟨hne, hready⟩
  constructor
  . rw [hswitched.running_process_idx, hswitched.state, if_pos rfl]
  . intro i hi
    rw [hswitched.running_process_idx] at hi
    rw [hswitched.state, if_neg hi]
    split
    . exact Or.inl rfl
    . next hidx => apply h.others i hidx
  . rw [hswitched.running_process_idx]
    refine ⟨s.running_process_idx, hne.symm, ?_⟩
    rw [hswitched.state, if_neg hne.symm, if_pos rfl]

theorem alive_switch : (scheduler_switch_to_next_process s).alive = s.alive := by
  have hswitched := switched_switch s
  have hready := (pilihan_ready s h.ready).2
  have hrunning := h.running
  funext i
  unfold alive
  rw [hswitched.state]
  split
  . next hi =>
    rw [hi, hready]
    rfl
  . split
    . next hi =>
      rw [hi, hrunning]
      rfl
    . rfl

theorem order_switch
    : ∃ rest, s.order = (scheduler_switch_to_next_process s).running_process_idx :: rest ∧
        (scheduler_switch_to_next_process s).order
          = rest ++ [(scheduler_switch_to_next_process s).running_process_idx] := by
  rcases h.exists_pilihan with ⟨k, hk, halive, hbefore⟩
  rcases Turns.order_of_first halive hbefore with ⟨rest, horder, horder'⟩
  rw [hk] at horder horder'
  refine ⟨rest, horder, ?_⟩
  unfold order
  rw [h.alive_switch]
  exact horder'

theorem congr (hidx : t.running_process_idx = s.running_process_idx)
    (hstate : ∀ i, (t.process_list i).state = (s.process_list i).state)
    : t.Rotating ∧ t.alive = s.alive ∧ t.order = s.order := by
  have halive : t.alive = s.alive := by
    funext i
    unfold alive
    rw [hstate]
  refine ⟨⟨?_, ?_, ?_⟩, halive, ?_⟩
  . rw [hidx, hstate]
    apply h.running
  . intro i hi
    rw [hidx] at hi
    rw [hstate]
    apply h.others i hi
  . rcases h.ready with ⟨i, hi, hready⟩
    refine ⟨i, ?_, ?_⟩
    . rw [hidx]
      exact hi
    . rw [hstate]
      exact hready
  . unfold order
    rw [halive, hidx]

end

structure Turned (s : KernelState) (slots : List (Fin 16)) (t : KernelState) : Prop where
  rotating : t.Rotating
  alive : t.alive = s.alive
  order : t.order = s.order.rotate slots.length
  follows : Turns.Follows s.order slots

theorem turned {slots : List (Fin 16)} (h : s.Rotating) (hrun : Switches s slots t)
    : Turned s slots t := by
  induction hrun with
  | refl =>
    refine ⟨h, rfl, ?_, Turns.follows_nil⟩
    simp
  | other _ hidx hstate ih =>
    rcases ih.rotating.congr hidx hstate with ⟨hrotating, halive, horder⟩
    refine ⟨hrotating, ?_, ?_, ih.follows⟩
    . rw [halive, ih.alive]
    . rw [horder, ih.order]
  | @switch slots t _ ih =>
    rcases ih.rotating.order_switch with ⟨rest, hbefore, hafter⟩
    rw [ih.order] at hbefore
    refine ⟨ih.rotating.switch, ?_, ?_, ih.follows.concat hbefore⟩
    . rw [ih.rotating.alive_switch, ih.alive]
    . rw [hafter, List.length_append, List.length_singleton, ← List.rotate_rotate, hbefore]
      simp

/--
Call number `n` (from 0 on) switches into slot number `n` of the live slots in cyclic order. So as
many calls in a row as there are live slots switch into each of these once, and they stay the same.
-/
theorem round_robin {slots : List (Fin 16)} (h : s.Rotating) (hrun : Switches s slots t)
    : (∀ n < slots.length, slots[n]? = s.order[n % s.order.length]?) ∧
        (∀ n, n + s.order.length ≤ slots.length →
          ((slots.drop n).take s.order.length).Perm s.order) ∧
        s.order.Nodup ∧ (∀ i, i ∈ s.order ↔ (s.process_list i).state ≠ .KILLED) ∧
        (∀ i, (t.process_list i).state ≠ .KILLED ↔ (s.process_list i).state ≠ .KILLED) ∧
        t.Rotating := by
  have hturned := h.turned hrun
  have halive : ∀ (s : KernelState) i, s.alive i = true ↔ (s.process_list i).state ≠ .KILLED := by
    intro s i
    unfold KernelState.alive
    rw [decide_eq_true_iff]
  refine ⟨hturned.follows, fun n hn => hturned.follows.window_perm hn, Turns.nodup_order, ?_, ?_,
    hturned.rotating⟩
  . intro i
    rw [← halive]
    apply Turns.mem_order
  . intro i
    rw [← halive, ← halive, hturned.alive]

def table (layout : Layout) (disk : Disk) : KernelState :=
  { KernelState.initial layout disk with
    process_list := fun i =>
      { ProcessControlBlock.zero with
        state := if i = 0 then .RUNNING else if i = 2 ∨ i = 5 then .READY else .KILLED } }

theorem table_rotating (layout : Layout) (disk : Disk) : (table layout disk).Rotating where
  running := rfl
  others i hi := by
    have hzero : i ≠ 0 := hi
    unfold table
    dsimp only
    rw [if_neg hzero]
    split
    . exact Or.inl rfl
    . exact Or.inr rfl
  ready := by
    have hne : (2 : Fin 16) ≠ 0 := by decide
    exact ⟨2, hne, rfl⟩

theorem table_order (layout : Layout) (disk : Disk) : (table layout disk).order = [2, 5, 0] := by
  rfl

theorem round_robin_table
    : ∃ s t slots, Switches s slots t ∧ slots.length = 4 ∧ s.order = [2, 5, 0] ∧
        slots[3]? = some 2 ∧ ((slots.drop 1).take 3).Perm [2, 5, 0] := by
  let layout : Layout := ⟨0xC0110000, 0xC0111000, by decide, by decide, by decide⟩
  let s := table layout fun _ _ => (0 : UInt8)
  let frame : InterruptFrame := ⟨.zero, 0x20, 0, 0, 0x1B, 0x202⟩
  have hrun := ((((Switches.refl (s := s)).timer frame).switch).timer frame).timer frame
  rcases (table_rotating layout _).round_robin hrun with ⟨hnth, hperm, _⟩
  have horder : s.order = [2, 5, 0] := table_order _ _
  rw [horder] at hnth hperm
  exact ⟨s, _, _, hrun, rfl, horder, hnth 3 (by simp), hperm 1 (by simp)⟩

end KernelState.Rotating
end AiOS
