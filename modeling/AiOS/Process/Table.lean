import AiOS.Process.Boot

/-!
This module contains that `active_process_count` never agrees with the process table, as
`scheduler_init` resets it after the first process has been counted.
-/

namespace AiOS

/--
The count, the used slots, the states and the pids agree.
-/
structure KernelState.Table (s : KernelState) : Prop where
  count : s.active_process_count.toNat = Slots.count s.used_process
  state : ∀ i, s.used_process i = true ↔
    (s.process_list i).state = .READY ∨ (s.process_list i).state = .RUNNING
  pid : ∀ i, s.used_process i = true → (s.process_list i).pid = UInt32.ofNat i

namespace Session

variable {layout : Layout} {s s' : Session} {e : Event} {m n : Nat}

/--
The count is behind by the first process, and by each time a slot without a process was cleared.
-/
def Behind (s : Session) : Prop :=
  (s.kernel.active_process_count.toNat + 1 + s.missed) % 2 ^ 32
    = Slots.count s.kernel.used_process % 2 ^ 32

theorem Behind.of_change (h : s.Behind) (hsound : s.Sound n) (hchange : Change s n e m s')
    : s'.Behind := by
  have hone : (1 : UInt32).toNat = 1 := rfl
  have hlt := s.kernel.active_process_count.toNat_lt
  unfold Behind at h ⊢
  cases hchange with
  | kept _ hsame _ hmissed =>
    rw [hsame.active_process_count, hsame.used_process, hmissed]
    exact h
  | filled hfilled _ hmissed =>
    rw [hfilled.active_process_count, hfilled.used_process, hmissed, UInt32.toNat_add, hone]
    rw [Slots.count_take (Slots.used_of_free hfilled.inactive)]
    omega
  | cleared hcleared _ hmissed =>
    rw [hcleared.active_process_count, hcleared.used_process, hmissed, UInt32.toNat_sub, hone]
    rw [hsound.live]
    split
    . next hused =>
      have hrelease := Slots.count_release hused
      omega
    . next hunused =>
      rw [Slots.release_of_free (Bool.eq_false_of_not_eq_true hunused)]
      omega
  | switched hswitched _ hmissed =>
    rw [hswitched.active_process_count, hswitched.used_process, hmissed]
    exact h

theorem behind_of_first (h : (sessions layout).init s) (hfirst : s.kernel.First) : s.Behind := by
  have hused : s.kernel.used_process = Function.update (fun _ => false) 0 true := by
    funext i
    rw [hfirst.used_process, Function.update_apply]
    split
    . next hi => simp [hi]
    . next hi => simp [hi]
  unfold Behind
  rw [hused, Slots.count_take rfl, Slots.count_of_free (fun _ => rfl)]
  rw [hfirst.active_process_count, h.2.2]
  rfl

theorem Behind.of_leads {ok : Session → Event → Prop} (h : s.Behind) (hsound : s.Sound n)
    (hleads : (sessions layout).Leads ok s s')
    : s'.Behind := by
  have hboth : s'.Behind ∧ ∃ m, s'.Sound m := by
    apply System.Leads.invariant (I := fun s => s.Behind ∧ ∃ m, s.Sound m) hleads ⟨h, n, hsound⟩
    intro s e s' ⟨h, n, hs⟩ _ hstep
    rcases hs.exec hstep with ⟨m, hs', hchange⟩
    exact ⟨h.of_change hs hchange, m, hs'⟩
  exact hboth.1

theorem Behind.dvd_of_table (h : s.Behind) (htable : s.kernel.Table) : 2 ^ 32 ∣ s.missed + 1 := by
  have hcount := htable.count
  unfold Behind at h
  rw [← hcount] at h
  omega

end Session

/--
No boot ends in a state where the process table agrees with its count. Nor does any state after it,
until `process_destroy` has cleared slot 0 without a process there for 2 ^ 32 - 1 times.
-/
theorem not_table {layout : Layout} {s : Session} (h : (sessions layout).init s)
    (hcreated : s.kernel.used_process 0 = true)
    : ¬ s.kernel.Table ∧
        ∀ s', (sessions layout).Leads (fun _ _ => True) s s' → s'.kernel.Table →
          2 ^ 32 ∣ s'.missed + 1 := by
  rcases Session.sound_of_init h with ⟨n, hsound⟩
  have hbehind := Session.behind_of_first h (h.1.cases.2 hcreated)
  constructor
  . intro htable
    have hdvd := hbehind.dvd_of_table htable
    rw [h.2.2] at hdvd
    omega
  . intro s' hleads htable
    exact (hbehind.of_leads hsound hleads).dvd_of_table htable

theorem not_table_first
    : ∃ s, (sessions .low).init s ∧ ¬ s.kernel.Table ∧
        ∀ s', (sessions .low).Leads (fun _ _ => True) s s' → s'.kernel.Table →
          2 ^ 32 ∣ s'.missed + 1 := by
  rcases exists_session with ⟨s, hinit, hfirst, _⟩
  exact ⟨s, hinit, not_table hinit hfirst.created⟩

theorem exists_not_table
    : ∃ s, (sessions .low).init s ∧ s.kernel.used_process 0 = true ∧
        s.kernel.active_process_count = 0 ∧ ¬ s.kernel.Table := by
  rcases exists_session with ⟨s, hinit, hfirst, _⟩
  refine ⟨s, hinit, hfirst.created, hfirst.active_process_count, ?_⟩
  intro htable
  have hdvd := (Session.behind_of_first hinit hfirst).dvd_of_table htable
  rw [hinit.2.2] at hdvd
  omega

end AiOS
