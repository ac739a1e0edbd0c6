import AiOS.Cpu.Interrupts

/-!
This module proves that each request of the timer and of the keyboard is delivered once.
-/

namespace AiOS

namespace Board

variable {isr_stub_table : Nat → UInt32} {b b' : Board} {imr : UInt8} {on : Bool}
  {base : Option UInt8}

section

variable (i : Fin 8) (step : Board × Event × Board)

def raised : Bool :=
  match step.2.1 with
  | .raise irq => irq.val = i.val && !step.1.pics.pic1.irr i
  | _ => false

def withdrawn : Bool :=
  match step.2.1 with
  | .withdraw irq => irq.val = i.val && step.1.pics.pic1.irr i
  | _ => false

def delivered : Bool :=
  step.2.2.services = ⟨PIC1_OFFSET + UInt8.ofNat i, step.1.interrupt_flag⟩ :: step.1.services

/--
The step neither loses a request of line `i` nor delivers one twice.
-/
def Balanced : Prop :=
  (raised i step).toNat + (step.1.pics.pic1.irr i).toNat
    =
  (delivered i step).toNat + (withdrawn i step).toNat + (step.2.2.pics.pic1.irr i).toNat

end

theorem countP_singleton {α : Type} (p : α → Bool) (a : α) : [a].countP p = (p a).toNat := by
  rw [List.countP_singleton]
  cases p a with
  | false => rfl
  | true => rfl

theorem delivered_of_length {i : Fin 8} {e : Event}
    (h : b'.services.length ≤ b.services.length)
    : delivered i (b, e, b') = false := by
  unfold delivered
  rw [decide_eq_false_iff_not]
  intro heq
  dsimp only at heq
  rw [heq, List.length_cons] at h
  omega

theorem delivered_of_vector {i : Fin 8} {e : Event} {vector : UInt8} {flag : Bool}
    (h : b'.services = ⟨vector, flag⟩ :: b.services) (hne : vector ≠ PIC1_OFFSET + UInt8.ofNat i)
    : delivered i (b, e, b') = false := by
  unfold delivered
  rw [decide_eq_false_iff_not]
  intro heq
  rw [h] at heq
  injection heq with heq
  injection heq with heq
  exact hne heq

theorem enter_eq_some {software : Bool} {vector : UInt8} (hb : b.enter software vector = some b')
    : b'.services = ⟨vector, b.interrupt_flag⟩ :: b.services ∧ b'.pics = b.pics := by
  unfold enter at hb
  rw [Option.bind_eq_bind, Option.bind_eq_some_iff] at hb
  rcases hb with ⟨idt, _, hb⟩
  dsimp only at hb
  rw [Option.bind_eq_bind, Option.bind_eq_some_iff] at hb
  rcases hb with ⟨_, _, hb⟩
  injection hb with hb
  subst hb
  exact ⟨rfl, rfl⟩

theorem services_of_switch {context : Bool}
    (hb : b.scheduler_switch_to_next_process context = some b')
    : b'.services = [] := by
  unfold scheduler_switch_to_next_process at hb
  rw [Option.bind_eq_bind, Option.bind_eq_some_iff] at hb
  rcases hb with ⟨_, _, hb⟩
  injection hb with hb
  subst hb
  rfl

theorem length_services_of_proceed {context : Bool}
    (hb : b.exec isr_stub_table (.proceed context) = some b')
    : b'.services.length ≤ b.services.length := by
  unfold exec at hb
  dsimp only at hb
  split at hb
  . next service rest _ hservices =>
    rw [hservices, List.length_cons]
    unfold main_interrupt_handler at hb
    dsimp only at hb
    split at hb
    . injection hb with hb
      subst hb
      exact Nat.le_succ _
    . split at hb
      . rw [services_of_switch hb]
        exact Nat.zero_le _
      . injection hb with hb
        subst hb
        exact Nat.le_succ _
  . next setup _ _ _ =>
    unfold call at hb
    cases setup with
    | scheduler_switch_to_next_process =>
      rw [services_of_switch hb]
      exact Nat.zero_le _
    | load_gdt | pic_remap | initialize_idt | activate_keyboard_interrupt
    | process_create_user_process | scheduler_init =>
      injection hb with hb
      subst hb
      exact Nat.le_refl _
  . injection hb

theorem toNat_vector (i : Fin 8) : (PIC1_OFFSET + UInt8.ofNat i).toNat = 0x20 + i.val := by
  revert i
  decide

theorem vector_ne {vector : UInt8} {i : Fin 8} (hlt : i.val < 2)
    (hvector : vector.toNat < 0x20 ∨ 0x22 ≤ vector.toNat)
    : vector ≠ PIC1_OFFSET + UInt8.ofNat i := by
  intro heq
  rw [heq, toNat_vector] at hvector
  omega

variable {i : Fin 8}

theorem balanced_of_eq {e : Event} (hraised : raised i (b, e, b') = false)
    (hdelivered : delivered i (b, e, b') = false) (hwithdrawn : withdrawn i (b, e, b') = false)
    (hirr : b'.pics.pic1.irr i = b.pics.pic1.irr i)
    : Balanced i (b, e, b') := by
  unfold Balanced
  rw [hraised, hdelivered, hwithdrawn, hirr]
  rfl

theorem balanced_of_enter {e : Event} {software : Bool} {vector : UInt8}
    (henter : b.enter software vector = some b') (hraised : raised i (b, e, b') = false)
    (hwithdrawn : withdrawn i (b, e, b') = false) (hne : vector ≠ PIC1_OFFSET + UInt8.ofNat i)
    : Balanced i (b, e, b') := by
  rcases enter_eq_some henter with ⟨hservices, hpics⟩
  apply balanced_of_eq hraised (delivered_of_vector hservices hne) hwithdrawn
  rw [hpics]

theorem balanced_raise {irq : Fin 16} (hb : b.exec isr_stub_table (.raise irq) = some b')
    : Balanced i (b, .raise irq, b') := by
  injection hb with hb
  have hirr : b'.pics.pic1.irr i = if irq.val = i.val then true else b.pics.pic1.irr i := by
    rw [← hb]
    apply Pics.irr_line
  unfold Balanced
  rw [delivered_of_length (by rw [← hb]), hirr]
  unfold raised withdrawn
  dsimp only
  by_cases hirq : irq.val = i.val
  . rw [if_pos hirq]
    cases b.pics.pic1.irr i with
    | false => simp [hirq]
    | true => simp
  . rw [if_neg hirq]
    simp [hirq]

theorem balanced_withdraw {irq : Fin 16} (hb : b.exec isr_stub_table (.withdraw irq) = some b')
    : Balanced i (b, .withdraw irq, b') := by
  injection hb with hb
  have hirr : b'.pics.pic1.irr i = if irq.val = i.val then false else b.pics.pic1.irr i := by
    rw [← hb]
    apply Pics.irr_line
  unfold Balanced
  rw [delivered_of_length (by rw [← hb]), hirr]
  unfold raised withdrawn
  dsimp only
  by_cases hirq : irq.val = i.val
  . rw [if_pos hirq]
    simp [hirq]
  . rw [if_neg hirq]
    simp [hirq]

theorem Ready.balanced_interrupt (h : b.Ready isr_stub_table imr on base)
    (hphase : Phase b.calls imr on) (hlt : i.val < 2)
    (hb : b.exec isr_stub_table .interrupt = some b')
    : Balanced i (b, .interrupt, b') := by
  have hflag := interrupt_flag_of_exec hb
  have hnested := h.nested
  rw [hflag] at hnested
  have hservices := hnested.outside_of_flag.2.1
  rcases h.interrupt hphase hflag with ⟨pics, vector, hexec, _, hcases⟩
  rw [hexec] at hb
  injection hb with hb
  have hservices' : b'.services = ⟨vector, true⟩ :: b.services := by
    rw [← hb, hservices]
  rcases hcases with ⟨j, hjlt, hvector, hjirr, _, _, hirr⟩ | ⟨hvector, hpics, _⟩
  . have hirr' : b'.pics.pic1.irr i = if i = j then false else b.pics.pic1.irr i := by
      rw [← hb]
      dsimp only
      rw [hirr, Function.update_apply]
    by_cases hij : i = j
    . subst hij
      have hdelivered : delivered i (b, .interrupt, b') = true := by
        unfold delivered
        rw [decide_eq_true_iff]
        dsimp only
        rw [hservices', hvector, hflag]
      unfold Balanced
      dsimp only
      rw [hdelivered, hirr', if_pos rfl, hjirr]
      rfl
    . have hne : vector ≠ PIC1_OFFSET + UInt8.ofNat i := by
        intro heq
        have hnat := congrArg UInt8.toNat (hvector.symm.trans heq)
        rw [toNat_vector, toNat_vector] at hnat
        omega
      apply balanced_of_eq rfl (delivered_of_vector hservices' hne) rfl
      rw [hirr', if_neg hij]
  . have hne : vector ≠ PIC1_OFFSET + UInt8.ofNat i := by
      apply vector_ne hlt
      rw [hvector]
      exact Or.inr (by decide)
    apply balanced_of_eq rfl (delivered_of_vector hservices' hne) rfl
    rw [← hb, hpics]

theorem Ready.balanced_int (h : b.Ready isr_stub_table imr on base) (hlt : i.val < 2)
    {vector : UInt8} (hb : b.exec isr_stub_table (.int vector) = some b')
    : Balanced i (b, .int vector, b') := by
  unfold exec at hb
  dsimp only at hb
  split at hb
  . next huser =>
    cases henter : b.enter true vector with
    | some b'' =>
      rw [henter, Option.some_or] at hb
      injection hb with hb
      subst hb
      apply balanced_of_enter henter rfl rfl
      apply vector_ne hlt
      rw [enter_eq h.idt true vector] at henter
      split at henter
      . next hopen =>
        rw [hopen.2 rfl huser]
        exact Or.inr (by decide)
      . injection henter
    | none =>
      rw [henter, Option.none_or] at hb
      exact balanced_of_enter hb rfl rfl (vector_ne hlt (Or.inl (by decide)))
  . injection hb

theorem Ready.balanced_proceed (h : b.Ready isr_stub_table imr on base)
    (hphase : Phase b.calls imr on) {context : Bool}
    (hb : b.exec isr_stub_table (.proceed context) = some b')
    : Balanced i (b, .proceed context, b') := by
  have hirr : b'.pics.pic1.irr = b.pics.pic1.irr := by
    unfold exec at hb
    dsimp only at hb
    split at hb
    . next hservices =>
      rcases h.main_interrupt_handler hphase hservices hb with ⟨_, _, _, hirr⟩
      exact hirr
    . next hservices hcalls =>
      rcases h.setup hphase hservices hcalls hb with ⟨_, _, _, _, _, hirr⟩
      exact hirr
    . injection hb
  apply balanced_of_eq rfl (delivered_of_length (length_services_of_proceed hb)) rfl
  rw [hirr]

theorem Ready.balanced (h : b.Ready isr_stub_table imr on base) (hphase : Phase b.calls imr on)
    {e : Event} (hb : b.exec isr_stub_table e = some b') (hlt : i.val < 2)
    : Balanced i (b, e, b') := by
  cases e with
  | raise irq => exact balanced_raise hb
  | withdraw irq => exact balanced_withdraw hb
  | interrupt => exact h.balanced_interrupt hphase hlt hb
  | exception vector =>
    exact balanced_of_enter hb rfl rfl (vector_ne hlt (Or.inl (toNat_exception vector)))
  | int vector => exact h.balanced_int hlt hb
  | proceed context => exact h.balanced_proceed hphase hb

/--
From `initialize_idt` on, no request of the timer and of the keyboard is lost and none is delivered
twice, in whatever order the devices, the CPU, user mode and the kernel move: each one that was raised
has been delivered or withdrawn, or it is still there.
-/
theorem delivered_once {steps : List (Board × Event × Board)} {i : Fin 8}
    (h : (boards isr_stub_table).Reachable (fun _ _ => True) b) (hidt : b.idt.isSome)
    (hrun : (boards isr_stub_table).Run (fun _ _ => True) b steps b') (hlt : i.val < 2)
    : steps.countP (raised i) + (b.pics.pic1.irr i).toNat
        =
      steps.countP (delivered i) + steps.countP (withdrawn i) + (b'.pics.pic1.irr i).toNat := by
  have hready : ∃ imr on base, Phase b.calls imr on ∧ b.Ready isr_stub_table imr on base := by
    cases sound_of_reachable h with
    | start hclosed =>
      rw [hclosed.idt] at hidt
      exact absurd hidt Bool.false_ne_true
    | remapped hclosed =>
      rw [hclosed.idt] at hidt
      exact absurd hidt Bool.false_ne_true
    | ready hphase hready => exact ⟨_, _, _, hphase, hready⟩
  have hall : (∃ imr on base, Phase b'.calls imr on ∧ b'.Ready isr_stub_table imr on base) ∧
      steps.countP (raised i) + (b.pics.pic1.irr i).toNat
        = steps.countP (delivered i) + steps.countP (withdrawn i) + (b'.pics.pic1.irr i).toNat := by
    apply hrun.invariant (J := fun steps b' =>
      (∃ imr on base, Phase b'.calls imr on ∧ b'.Ready isr_stub_table imr on base) ∧
        steps.countP (raised i) + (b.pics.pic1.irr i).toNat
          = steps.countP (delivered i) + steps.countP (withdrawn i)
            + (b'.pics.pic1.irr i).toNat)
    . exact ⟨hready, by simp⟩
    . intro steps c e c' ⟨⟨imr, on, base, hphase, hready⟩, hcount⟩ _ hstep
      refine ⟨hready.step hphase hstep, ?_⟩
      have hbalanced := hready.balanced hphase hstep hlt
      unfold Balanced at hbalanced
      dsimp only at hbalanced
      rw [List.countP_append, List.countP_append, List.countP_append, countP_singleton,
        countP_singleton, countP_singleton]
      omega
  exact hall.2

-- a tick of the timer that the CPU takes
theorem delivered_once_tick
    : ∃ b b₁ b₂, b.exec (fun _ => 0) (.raise 0) = some b₁ ∧
        b₁.exec (fun _ => 0) .interrupt = some b₂ ∧
          let steps := [(b, .raise 0, b₁), (b₁, .interrupt, b₂)]
          steps.countP (raised 0) + (b.pics.pic1.irr 0).toNat
            = steps.countP (delivered 0) + steps.countP (withdrawn 0)
              + (b₂.pics.pic1.irr 0).toNat := by
  have hany : (boot.foldlM (exec fun _ => 0) power_on).any (fun b => b.idt.isSome &&
        ((b.exec (fun _ => 0) (.raise 0)).any fun b₁ =>
          (b₁.exec (fun _ => 0) .interrupt).isSome)) = true := by
    decide +kernel
  rcases (Option.any_eq_true _ _).mp hany with ⟨b, hrun, hb⟩
  rw [Bool.and_eq_true] at hb
  rcases (Option.any_eq_true _ _).mp hb.2 with ⟨b₁, hraise, hb₁⟩
  rcases Option.isSome_iff_exists.mp hb₁ with ⟨b₂, hinterrupt⟩
  have hreach := reachable_of_foldlM (.init ⟨rfl, rfl, rfl, rfl, rfl⟩) hrun
  have hsteps : (boards fun _ => 0).Run (fun _ _ => True) b
      [(b, .raise 0, b₁), (b₁, .interrupt, b₂)] b₂ :=
    .tail (.tail .refl trivial hraise) trivial hinterrupt
  exact ⟨b, b₁, b₂, hraise, hinterrupt, delivered_once hreach hb.1 hsteps (by decide)⟩

end Board

end AiOS
