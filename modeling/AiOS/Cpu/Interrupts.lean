import AiOS.Cpu.Board

/-!
This module proves that the timer only ever interrupts user mode, and that no handler keeps the
requests of the timer and of the keyboard back.
-/

namespace AiOS

/--
The handlers that run: at most one that was entered from the code outside, where the interrupt flag
is `on`, and exceptions in it.
-/
inductive Nested (on : Bool) : Option UInt8 → Bool → List Service → Prop where
  | outside : Nested on none on []
  | first (vector : UInt8) : Nested on (some vector) false [⟨vector, on⟩]
  | exception {base vector : UInt8} {services : List Service} :
    vector.toNat < 32 → Nested on (some base) false services →
      Nested on (some base) false (⟨vector, false⟩ :: services)

namespace Nested

variable {on flag : Bool} {base : Option UInt8} {vector : UInt8} {services : List Service}

theorem outside_of_none (h : Nested on none flag services) : services = [] ∧ flag = on := by
  cases h with
  | outside => exact ⟨rfl, rfl⟩

theorem flag_of_some (h : Nested on (some vector) flag services) : flag = false := by
  cases h with
  | first => rfl
  | exception => rfl

theorem outside_of_flag (h : Nested on base true services)
    : base = none ∧ services = [] ∧ on = true := by
  cases h with
  | outside => exact ⟨rfl, rfl, rfl⟩

theorem outside_of_nil (h : Nested on base flag []) : base = none ∧ flag = on := by
  cases h with
  | outside => exact ⟨rfl, rfl⟩

theorem head_cases {service : Service} {rest : List Service}
    (h : Nested on base flag (service :: rest))
    : base = some service.int_number ∧ service.interrupt_flag = on ∧ rest = [] ∨
        service.int_number.toNat < 32 ∧ Nested on base service.interrupt_flag rest := by
  cases h with
  | first => exact Or.inl ⟨rfl, rfl, rfl⟩
  | exception hvector h => exact Or.inr ⟨hvector, h⟩

theorem outermost {service : Service} (h : Nested on base flag services)
    (hmem : service ∈ services) (hnumber : 32 ≤ service.int_number.toNat)
    : base = some service.int_number ∧ services.getLast? = some service ∧
        service.interrupt_flag = on := by
  induction h with
  | outside => simp at hmem
  | first vector =>
    rw [List.mem_singleton] at hmem
    subst hmem
    exact ⟨rfl, rfl, rfl⟩
  | @exception base vector services hvector h ih =>
    rw [List.mem_cons] at hmem
    rcases hmem with rfl | hmem
    . change vector.toNat < 32 at hvector
      dsimp only at hnumber
      omega
    . rcases ih hmem with ⟨hbase, hlast, hflag⟩
      refine ⟨hbase, ?_, hflag⟩
      rw [List.getLast?_cons, hlast]
      rfl

end Nested

def inService (base : Option UInt8) : Fin 8 → Bool :=
  if base = some (PIC1_OFFSET + IRQ_TIMER) then Function.update (fun _ => false) 0 true
  else if base = some (PIC1_OFFSET + IRQ_KEYBOARD) then Function.update (fun _ => false) 1 true
  else fun _ => false

def Served (vector : UInt8) : Prop :=
  vector.toNat < 32 ∨ vector ∈ ([0x20, 0x21, 0x27, 0x30] : List UInt8)

/--
The mask and the interrupt flag of the code outside the handlers, from `initialize_idt` on.
-/
inductive Phase : List Setup → UInt8 → Bool → Prop where
  | masked : Phase (kernel_setup.calls.drop 3) 0xFF true
  | keyboard : Phase (kernel_setup.calls.drop 4) 0xFD true
  | created : Phase (kernel_setup.calls.drop 5) 0xFD true
  | timer : Phase (kernel_setup.calls.drop 6) 0xFC false
  | user : Phase [] 0xFC true

theorem Phase.masks {calls : List Setup} {imr : UInt8} {on : Bool} (h : Phase calls imr on)
    : Pics.Masks imr := by
  unfold Pics.Masks
  cases h with
  | masked => decide
  | keyboard => decide
  | created => decide
  | timer => decide
  | user => decide

theorem Phase.user_of_open {calls : List Setup} {imr : UInt8} (h : Phase calls imr true)
    (hopen : imr.toNat.testBit 0 = false)
    : calls = [] := by
  cases h with
  | masked => exact absurd hopen (by decide)
  | keyboard => exact absurd hopen (by decide)
  | created => exact absurd hopen (by decide)
  | user => rfl

theorem Phase.on_of_nil {imr : UInt8} {on : Bool} (h : Phase [] imr on)
    : imr = 0xFC ∧ on = true := by
  generalize hcalls : ([] : List Setup) = calls at h
  cases h with
  | masked => exact absurd hcalls (by decide)
  | keyboard => exact absurd hcalls (by decide)
  | created => exact absurd hcalls (by decide)
  | timer => exact absurd hcalls (by decide)
  | user => exact ⟨rfl, rfl⟩

namespace Board

variable (isr_stub_table : Nat → UInt32)

/--
What holds from `initialize_idt` on.
-/
structure Ready (b : Board) (imr : UInt8) (on : Bool) (base : Option UInt8) : Prop where
  remapped : b.pics.Remapped imr
  isr : b.pics.pic1.isr = inService base
  idt : b.idt = some (initialize_idt isr_stub_table fun _ => .zero)
  nested : Nested on base b.interrupt_flag b.services
  served : ∀ vector, base = some vector → Served vector
  timer : base = some (PIC1_OFFSET + IRQ_TIMER) → b.calls = []
  contexts : ∀ flag ∈ b.contexts, flag = true

structure Closed (b : Board) : Prop where
  interrupt_flag : b.interrupt_flag = false
  idt : b.idt = none
  services : b.services = []
  contexts : b.contexts = []

inductive Sound : Board → Prop where
  | start {b : Board} :
    b.Closed → b.calls = kernel_setup.calls ∨ b.calls = kernel_setup.calls.drop 1 → Sound b
  | remapped {b : Board} :
    b.Closed → b.calls = kernel_setup.calls.drop 2 → b.pics.Remapped 0xFF →
      b.pics.pic1.isr = (fun _ => false) → Sound b
  | ready {b : Board} {imr : UInt8} {on : Bool} {base : Option UInt8} :
    Phase b.calls imr on → b.Ready isr_stub_table imr on base → Sound b

variable {isr_stub_table} {b b' : Board} {imr : UInt8} {on : Bool} {base : Option UInt8}

theorem enter_of_closed (h : b.Closed) (software : Bool) (vector : UInt8)
    : b.enter software vector = none := by
  unfold enter
  rw [h.idt]
  rfl

section

theorem enter_eq (hidt : b.idt = some (initialize_idt isr_stub_table fun _ => .zero))
    (software : Bool) (vector : UInt8)
    : b.enter software vector
        =
      if vector.toNat < ISR_STUB_TABLE_LIMIT ∧ (software → b.user → vector = 0x30) then
        some { b with
          interrupt_flag := false
          services := ⟨vector, b.interrupt_flag⟩ :: b.services }
      else
        none := by
  have hgate := decode_initialize_idt isr_stub_table vector
  have hdoor := door_iff (if b.user then 3 else 0) software vector
  have hcpl : (if b.user then 3 else 0 : Fin 4).val = if b.user then 3 else 0 := by
    cases b.user with
    | false => rfl
    | true => rfl
  have huser : ((if b.user then 3 else 0 : Fin 4) = 0 ∨ vector = 0x30) ↔ (b.user → vector = 0x30) := by
    cases b.user with
    | false => simp
    | true => simp
  rw [hcpl, huser] at hdoor
  unfold enter
  rw [hidt]
  dsimp only [Option.bind_eq_bind, Option.bind_some]
  by_cases hvector : vector.toNat < ISR_STUB_TABLE_LIMIT
  . rw [if_pos hvector] at hgate
    rw [hgate]
    dsimp only
    by_cases hopen : software → b.user → vector = 0x30
    . have hboth : vector.toNat < ISR_STUB_TABLE_LIMIT ∧ (software → b.user → vector = 0x30) :=
        ⟨hvector, hopen⟩
      have hdpl := hdoor.mpr hopen
      rw [if_pos hboth]
      simp only [guard, true_and, and_true]
      rw [if_pos hdpl]
      rfl
    . have hboth : ¬ (vector.toNat < ISR_STUB_TABLE_LIMIT ∧ (software → b.user → vector = 0x30)) :=
        fun hboth => hopen hboth.2
      have hdpl := mt hdoor.mp hopen
      rw [if_neg hboth]
      simp only [guard, true_and, and_true]
      rw [if_neg hdpl]
      rfl
  . have hboth : ¬ (vector.toNat < ISR_STUB_TABLE_LIMIT ∧ (software → b.user → vector = 0x30)) :=
      fun hboth => hvector hboth.1
    rw [if_neg hvector] at hgate
    rw [hgate, if_neg hboth]
    rfl

theorem enter_hardware (hidt : b.idt = some (initialize_idt isr_stub_table fun _ => .zero))
    {vector : UInt8} (hvector : vector.toNat < ISR_STUB_TABLE_LIMIT)
    : b.enter false vector
        =
      some { b with
        interrupt_flag := false
        services := ⟨vector, b.interrupt_flag⟩ :: b.services } := by
  rw [enter_eq hidt false vector, if_pos ⟨hvector, by simp⟩]

end

namespace Ready

theorem enter_first (h : b.Ready isr_stub_table imr on none) {pics : Pics} {vector : UInt8}
    (hpics : pics.Remapped imr) (hisr : pics.pic1.isr = inService (some vector))
    (hserved : Served vector)
    (htimer : vector = PIC1_OFFSET + IRQ_TIMER → b.calls = [])
    : Ready isr_stub_table
        { b with
          pics := pics
          interrupt_flag := false
          services := ⟨vector, b.interrupt_flag⟩ :: b.services }
        imr on (some vector) where
  remapped := hpics
  isr := hisr
  idt := h.idt
  nested := by
    rcases h.nested.outside_of_none with ⟨hservices, hflag⟩
    dsimp only
    rw [hservices, hflag]
    exact .first vector
  served := by
    intro v hv
    injection hv with hv
    rw [← hv]
    exact hserved
  timer := by
    intro hv
    injection hv with hv
    exact htimer hv
  contexts := h.contexts

theorem inService_exception {vector : UInt8} (h : vector.toNat < 32)
    : inService (some vector) = fun _ => false := by
  have hne : ∀ v : UInt8, 32 ≤ v.toNat → some vector ≠ some v := by
    intro v hv heq
    injection heq with heq
    rw [heq] at h
    omega
  unfold inService
  rw [if_neg (hne _ (by decide)), if_neg (hne _ (by decide))]

theorem exception (h : b.Ready isr_stub_table imr on base) {vector : UInt8}
    (hvector : vector.toNat < 32) (hb : b.enter false vector = some b')
    : ∃ base', b'.calls = b.calls ∧ b'.Ready isr_stub_table imr on base' := by
  rw [enter_hardware h.idt (by change _ < 64; omega)] at hb
  injection hb with hb
  subst hb
  cases base with
  | none =>
    refine ⟨some vector, rfl, h.enter_first h.remapped ?_ (Or.inl hvector) ?_⟩
    . rw [inService_exception hvector]
      exact h.isr
    . intro heq
      rw [heq] at hvector
      exact absurd hvector (by decide)
  | some v =>
    refine ⟨some v, rfl, h.remapped, h.isr, h.idt, ?_, h.served, h.timer, h.contexts⟩
    have hnested := h.nested
    dsimp only
    rw [h.nested.flag_of_some] at hnested ⊢
    exact .exception hvector hnested

theorem int (h : b.Ready isr_stub_table imr on base) (huser : b.user = true) {vector : UInt8}
    (hb : (b.enter true vector).or (b.enter false 13) = some b')
    : ∃ base', b'.calls = b.calls ∧ b'.Ready isr_stub_table imr on base' := by
  rw [enter_eq h.idt true vector] at hb
  split at hb
  . next hopen =>
    have hvector : vector = 0x30 := hopen.2 rfl huser
    rw [Option.some_or] at hb
    injection hb with hb
    subst hb hvector
    have hbase : base = none := by
      have hnested := h.nested
      unfold user at huser
      rw [Bool.and_eq_true, List.isEmpty_iff, List.isEmpty_iff] at huser
      rw [huser.2] at hnested
      exact hnested.outside_of_nil.1
    subst hbase
    exact ⟨some 0x30, rfl, h.enter_first h.remapped h.isr (Or.inr (by decide))
      fun heq => absurd heq (by decide)⟩
  . rw [Option.none_or] at hb
    exact h.exception (by decide) hb

theorem interrupt (h : b.Ready isr_stub_table imr on base) (hphase : Phase b.calls imr on)
    (hflag : b.interrupt_flag = true)
    : ∃ pics vector, b.exec isr_stub_table .interrupt
          = some { b with
              pics := pics
              interrupt_flag := false
              services := [⟨vector, true⟩] } ∧
        Ready isr_stub_table
          { b with
            pics := pics
            interrupt_flag := false
            services := [⟨vector, true⟩] }
          imr on (some vector) ∧
        ((∃ i : Fin 8, i.val < 2 ∧ vector = PIC1_OFFSET + UInt8.ofNat i ∧
            b.pics.pic1.irr i = true ∧ imr.toNat.testBit i = false ∧
            (∀ j < i, b.pics.pic1.irr j = true → imr.toNat.testBit j = true) ∧
            pics.pic1.irr = Function.update b.pics.pic1.irr i false) ∨
          vector = 0x27 ∧ pics = b.pics ∧
            ∀ i : Fin 8, i.val < 2 → b.pics.pic1.irr i = true → imr.toNat.testBit i = true) := by
  have hnested := h.nested
  rw [hflag] at hnested
  rcases hnested.outside_of_flag with ⟨rfl, hservices, rfl⟩
  have hisr : b.pics.pic1.isr = fun _ => false := h.isr
  unfold exec
  dsimp only
  rw [if_pos hflag]
  rcases Pics.acknowledge_cases h.remapped hphase.masks hisr with
    ⟨i, hlt, hirr, hopen, hbefore, hack⟩ | ⟨hnone, hack⟩
  . have hcases : i = 0 ∨ i = 1 := by omega
    have hvector : (PIC1_OFFSET + UInt8.ofNat i).toNat < ISR_STUB_TABLE_LIMIT ∧
        Served (PIC1_OFFSET + UInt8.ofNat i) ∧
        Function.update (fun _ => false) i true = inService (some (PIC1_OFFSET + UInt8.ofNat i)) ∧
        (PIC1_OFFSET + UInt8.ofNat i = PIC1_OFFSET + IRQ_TIMER → i = 0) := by
      rcases hcases with rfl | rfl
      . exact ⟨by decide, Or.inr (by decide), rfl, fun _ => rfl⟩
      . exact ⟨by decide, Or.inr (by decide), rfl, fun heq => absurd heq (by decide)⟩
    rcases hvector with ⟨hlimit, hserved, hservice, htimer⟩
    have hopen' : i = 0 → b.calls = [] := by
      intro hi
      rw [hi] at hopen
      exact hphase.user_of_open hopen
    have hready := h.enter_first (h.remapped.take i) (by
      rw [h.remapped.isr_take i, hisr]
      exact hservice) hserved fun heq => hopen' (htimer heq)
    have henter := enter_hardware
      (b := { b with pics := { b.pics with pic1 := b.pics.pic1.take i } }) h.idt hlimit
    rw [hack]
    dsimp only at henter ⊢
    rw [henter]
    rw [hservices, hflag] at hready ⊢
    exact ⟨_, _, rfl, hready, Or.inl ⟨i, hlt, rfl, hirr, hopen, hbefore, rfl⟩⟩
  . have hready : Ready isr_stub_table _ imr true (some 0x27) := h.enter_first h.remapped h.isr
      (Or.inr (by decide)) fun heq => absurd heq (by decide)
    have henter : b.enter false 0x27 = _ := enter_hardware h.idt (by decide)
    rw [hack]
    dsimp only
    rw [henter]
    rw [hservices, hflag] at hready ⊢
    exact ⟨_, _, rfl, hready, Or.inr ⟨rfl, rfl, hnone⟩⟩

theorem pic_ack (h : b.Ready isr_stub_table imr on base) (irq : UInt8) (hirq : irq ≥ 8)
    : ∃ pics, AiOS.pic_ack irq b.pics = pics ∧ pics.Remapped imr ∧
        pics.pic1.isr = (fun _ => false) ∧ pics.pic1.irr = b.pics.pic1.irr := by
  rw [h.remapped.pic_ack_eq hirq]
  have hidle : b.pics.pic1.isr = (fun _ => false) ∨
      ∃ i, b.pics.pic1.isr = Function.update (fun _ => false) i true := by
    rw [h.isr]
    unfold inService
    split
    . exact Or.inr ⟨0, rfl⟩
    . split
      . exact Or.inr ⟨1, rfl⟩
      . exact Or.inl rfl
  have hkept := h.remapped
  rcases hidle with hisr | ⟨i, hisr⟩
  . rw [Pic.end_of_interrupt_of_idle hisr]
    exact ⟨_, rfl, h.remapped, hisr, rfl⟩
  . rw [Pic.end_of_interrupt_of_single hisr]
    exact ⟨_, rfl, ⟨hkept.stage, hkept.icw2, hkept.icw3, hkept.icw4, hkept.imr, hkept.masked,
      hkept.isr⟩, rfl, rfl⟩

theorem switch (h : b.Ready isr_stub_table imr on base) (hpics : imr = 0xFC) {context : Bool}
    (hb : b.scheduler_switch_to_next_process context = some b')
    : b'.calls = [] ∧ b'.Ready isr_stub_table 0xFC true none ∧
        b'.pics.pic1.irr = b.pics.pic1.irr := by
  unfold scheduler_switch_to_next_process at hb
  rcases h.pic_ack (IRQ_TIMER + PIC1_OFFSET) (by decide) with ⟨pics, hack, hremapped, hisr, hirr⟩
  by_cases hmem : context ∈ b.contexts
  . rw [hack] at hb
    simp only [guard, if_pos hmem] at hb
    injection hb with hb
    subst hb
    rw [hpics] at hremapped
    refine ⟨rfl, ⟨hremapped, hisr, h.idt, ?_, by simp, by simp, h.contexts⟩, hirr⟩
    rw [h.contexts context hmem]
    exact .outside
  . simp only [guard, if_neg hmem] at hb
    injection hb

theorem main_interrupt_handler (h : b.Ready isr_stub_table imr on base)
    (hphase : Phase b.calls imr on) {service : Service} {rest : List Service} {context : Bool}
    (hservices : b.services = service :: rest)
    (hb : b.main_interrupt_handler service rest context = some b')
    : ∃ base', b'.calls = b.calls ∧ b'.Ready isr_stub_table imr on base' ∧
        b'.pics.pic1.irr = b.pics.pic1.irr := by
  have hnested := h.nested
  rw [hservices] at hnested
  unfold Board.main_interrupt_handler at hb
  dsimp only at hb
  rcases hnested.head_cases with ⟨hbase, hflag, hrest⟩ | ⟨hvector, hnested⟩
  . subst hrest
    split at hb
    . rcases h.pic_ack (IRQ_KEYBOARD + PIC1_OFFSET) (by decide) with
        ⟨pics, hack, hremapped, hisr, hirr⟩
      rw [hack] at hb
      injection hb with hb
      subst hb
      refine ⟨none, rfl, ⟨hremapped, hisr, h.idt, ?_, by simp, by simp, h.contexts⟩, hirr⟩
      rw [hflag]
      exact .outside
    . next hkeyboard =>
      split at hb
      . next htimer =>
        rw [htimer] at hbase
        have hcalls := h.timer hbase
        rw [hcalls] at hphase
        rcases hphase.on_of_nil with ⟨rfl, rfl⟩
        have hcontexts : Ready isr_stub_table
            { b with contexts := service.interrupt_flag :: b.contexts } 0xFC true base := by
          refine ⟨h.remapped, h.isr, h.idt, h.nested, h.served, h.timer, ?_⟩
          intro flag hmem
          rw [List.mem_cons] at hmem
          rcases hmem with rfl | hmem
          . exact hflag
          . exact h.contexts flag hmem
        rcases hcontexts.switch rfl hb with ⟨hnil, hready, hirr⟩
        exact ⟨none, hnil.trans hcalls.symm, hready, hirr⟩
      . next htimer =>
        injection hb with hb
        subst hb
        have hisr : inService base = fun _ => false := by
          rw [hbase]
          unfold inService
          rw [if_neg (by simpa using htimer), if_neg (by simpa using hkeyboard)]
        refine ⟨none, rfl, ⟨h.remapped, h.isr.trans hisr, h.idt, ?_, by simp, by simp, h.contexts⟩,
          rfl⟩
        rw [hflag]
        exact .outside
  . have hne : ∀ v : UInt8, 32 ≤ v.toNat → service.int_number ≠ v := by
      intro v hv heq
      rw [heq] at hvector
      omega
    rw [if_neg (hne _ (by decide)), if_neg (hne _ (by decide))] at hb
    injection hb with hb
    subst hb
    exact ⟨base, rfl, ⟨h.remapped, h.isr, h.idt, hnested, h.served, h.timer, h.contexts⟩, rfl⟩

theorem line (h : b.Ready isr_stub_table imr on base) (irq : Fin 16) (level : Bool)
    : Ready isr_stub_table { b with pics := b.pics.line irq level } imr on base := by
  rcases h.remapped.line irq level with ⟨hremapped, hisr⟩
  exact ⟨hremapped, hisr.trans h.isr, h.idt, h.nested, h.served, h.timer, h.contexts⟩

theorem setup (h : b.Ready isr_stub_table imr on base) (hphase : Phase b.calls imr on)
    (hservices : b.services = []) {setup : Setup} {calls : List Setup} {context : Bool}
    (hcalls : b.calls = setup :: calls)
    (hb : { b with calls := calls }.call isr_stub_table setup context = some b')
    : ∃ imr' on' base', Phase b'.calls imr' on' ∧ b'.Ready isr_stub_table imr' on' base' ∧
        b'.pics.pic1.irr = b.pics.pic1.irr := by
  have hnested := h.nested
  rw [hservices] at hnested
  rcases hnested.outside_of_nil with ⟨rfl, hflag⟩
  have hcalled : Ready isr_stub_table { b with calls := calls } imr on none :=
    ⟨h.remapped, h.isr, h.idt, h.nested, h.served, by simp, h.contexts⟩
  rw [hcalls] at hphase
  cases hphase with
  | masked =>
    injection hb with hb
    subst hb
    unfold activate_keyboard_interrupt
    rw [h.remapped.write_mask]
    unfold Pics.in_data
    rw [h.remapped.imr]
    exact ⟨0xFD, true, none, .keyboard, ⟨h.remapped.mask _, h.isr, h.idt, h.nested, by simp,
      by simp, h.contexts⟩, rfl⟩
  | keyboard =>
    injection hb with hb
    subst hb
    refine ⟨0xFD, true, none, .created, ⟨h.remapped, h.isr, h.idt, h.nested, by simp, by simp, ?_⟩,
      rfl⟩
    intro flag hmem
    rw [List.mem_cons] at hmem
    rcases hmem with rfl | hmem
    . rfl
    . exact h.contexts flag hmem
  | created =>
    injection hb with hb
    subst hb
    unfold activate_timer_interrupt
    rw [h.remapped.write_mask]
    unfold Pics.in_data
    rw [h.remapped.imr]
    refine ⟨0xFC, false, none, .timer, ⟨h.remapped.mask _, h.isr, h.idt, ?_, by simp, by simp,
      h.contexts⟩, rfl⟩
    dsimp only
    rw [hservices]
    exact .outside
  | timer =>
    rcases hcalled.switch rfl hb with ⟨hnil, hready, hirr⟩
    rw [hnil]
    exact ⟨0xFC, true, none, .user, hready, hirr⟩

end Ready

theorem toNat_exception (vector : Fin 32) : (UInt8.ofNat vector).toNat < 32 := by
  have := vector.isLt
  rw [UInt8.toNat_ofNat']
  omega

theorem Closed.line (h : b.Closed) (irq : Fin 16) (level : Bool)
    : Closed { b with pics := b.pics.line irq level } :=
  ⟨h.interrupt_flag, h.idt, h.services, h.contexts⟩

theorem Closed.step (h : b.Closed) (hcalls : b.calls ≠ []) {e : Event}
    (hb : b.exec isr_stub_table e = some b')
    : (∃ irq level, b' = { b with pics := b.pics.line irq level }) ∨
        ∃ setup calls context, b.calls = setup :: calls ∧
          { b with calls := calls }.call isr_stub_table setup context = some b' := by
  cases e with
  | raise irq =>
    injection hb with hb
    exact Or.inl ⟨irq, true, hb.symm⟩
  | withdraw irq =>
    injection hb with hb
    exact Or.inl ⟨irq, false, hb.symm⟩
  | interrupt =>
    unfold exec at hb
    dsimp only at hb
    rw [h.interrupt_flag, if_neg Bool.false_ne_true] at hb
    injection hb
  | exception vector =>
    unfold exec at hb
    dsimp only at hb
    rw [enter_of_closed h] at hb
    injection hb
  | int vector =>
    unfold exec at hb
    dsimp only at hb
    rw [enter_of_closed h, enter_of_closed h, Option.none_or, ite_self] at hb
    injection hb
  | proceed context =>
    apply Or.inr
    unfold exec at hb
    dsimp only at hb
    split at hb
    . next hservices =>
      rw [h.services] at hservices
      injection hservices
    . next setup calls _ hlist => exact ⟨setup, calls, context, hlist, hb⟩
    . next hlist => exact absurd hlist hcalls

theorem Ready.step (h : b.Ready isr_stub_table imr on base) (hphase : Phase b.calls imr on)
    {e : Event} (hb : b.exec isr_stub_table e = some b')
    : ∃ imr' on' base', Phase b'.calls imr' on' ∧ b'.Ready isr_stub_table imr' on' base' := by
  cases e with
  | raise irq =>
    injection hb with hb
    subst hb
    exact ⟨imr, on, base, hphase, h.line irq true⟩
  | withdraw irq =>
    injection hb with hb
    subst hb
    exact ⟨imr, on, base, hphase, h.line irq false⟩
  | interrupt =>
    by_cases hflag : b.interrupt_flag = true
    . rcases h.interrupt hphase hflag with ⟨pics, vector, hexec, hready, _⟩
      rw [hexec] at hb
      injection hb with hb
      subst hb
      exact ⟨imr, on, some vector, hphase, hready⟩
    . unfold exec at hb
      dsimp only at hb
      rw [if_neg hflag] at hb
      injection hb
  | exception vector =>
    rcases h.exception (toNat_exception vector) hb with ⟨base', hcalls, hready⟩
    rw [← hcalls] at hphase
    exact ⟨imr, on, base', hphase, hready⟩
  | int vector =>
    unfold exec at hb
    dsimp only at hb
    split at hb
    . next huser =>
      rcases h.int huser hb with ⟨base', hcalls, hready⟩
      rw [← hcalls] at hphase
      exact ⟨imr, on, base', hphase, hready⟩
    . injection hb
  | proceed context =>
    unfold exec at hb
    dsimp only at hb
    split at hb
    . next hservices =>
      rcases h.main_interrupt_handler hphase hservices hb with ⟨base', hcalls, hready, _⟩
      rw [← hcalls] at hphase
      exact ⟨imr, on, base', hphase, hready⟩
    . next hservices hcalls =>
      rcases h.setup hphase hservices hcalls hb with ⟨imr', on', base', hphase', hready, _⟩
      exact ⟨imr', on', base', hphase', hready⟩
    . injection hb

theorem Sound.step (h : Sound isr_stub_table b) {e : Event}
    (hb : b.exec isr_stub_table e = some b')
    : Sound isr_stub_table b' := by
  cases h with
  | start hclosed hcalls =>
    have hne : b.calls ≠ [] := by
      rcases hcalls with hcalls | hcalls
      . rw [hcalls]
        decide
      . rw [hcalls]
        decide
    rcases hclosed.step hne hb with ⟨irq, level, rfl⟩ | ⟨setup, calls, context, hlist, hcall⟩
    . exact .start (hclosed.line irq level) hcalls
    . rcases hcalls with hcalls | hcalls
      . rw [hcalls] at hlist
        injection hlist with hsetup hrest
        subst hsetup hrest
        injection hcall with hcall
        subst hcall
        exact .start ⟨rfl, hclosed.idt, hclosed.services, hclosed.contexts⟩ (Or.inr rfl)
      . rw [hcalls] at hlist
        injection hlist with hsetup hrest
        subst hsetup hrest
        injection hcall with hcall
        subst hcall
        have hremapped := Pics.remapped_pic_remap b.pics
        exact .remapped ⟨hclosed.interrupt_flag, hclosed.idt, hclosed.services, hclosed.contexts⟩
          rfl hremapped.1 hremapped.2
  | remapped hclosed hcalls hremapped hisr =>
    have hne : b.calls ≠ [] := by
      rw [hcalls]
      decide
    rcases hclosed.step hne hb with ⟨irq, level, rfl⟩ | ⟨setup, calls, context, hlist, hcall⟩
    . have hline := hremapped.line irq level
      exact .remapped (hclosed.line irq level) hcalls hline.1 (hline.2.trans hisr)
    . rw [hcalls] at hlist
      injection hlist with hsetup hrest
      subst hsetup hrest
      injection hcall with hcall
      subst hcall
      have hready : Ready isr_stub_table
          { b with
            idt := some (initialize_idt isr_stub_table fun _ => .zero)
            interrupt_flag := true
            calls := kernel_setup.calls.drop 3 }
          0xFF true none := by
        refine ⟨hremapped, hisr, rfl, ?_, by simp, by simp, ?_⟩
        . dsimp only
          rw [hclosed.services]
          exact .outside
        . dsimp only
          rw [hclosed.contexts]
          simp
      exact .ready .masked hready
  | ready hphase hready =>
    rcases hready.step hphase hb with ⟨imr', on', base', hphase', hready'⟩
    exact .ready hphase' hready'

theorem sound_of_reachable {ok : Board → Event → Prop} (h : (boards isr_stub_table).Reachable ok b)
    : Sound isr_stub_table b := by
  apply h.invariant
  . intro b ⟨hflag, hidt, hcalls, hservices, hcontexts⟩
    exact .start ⟨hflag, hidt, hservices, hcontexts⟩ (Or.inl hcalls)
  . intro b e b' hb _ hstep
    exact hb.step hstep

variable (isr_stub_table) in
/--
A timer interrupt has come to user mode, and so its handler, the outermost one, stores the context of
user mode. An interrupt never comes to a handler. In user mode a request of the timer or of the
keyboard is taken, and the one that comes first.
-/
structure Orderly (b : Board) : Prop where
  timer : ∀ service ∈ b.services, service.int_number = PIC1_OFFSET + IRQ_TIMER →
    b.calls = [] ∧ b.services.getLast? = some service ∧ service.interrupt_flag = true
  outside : ∀ b', b.exec isr_stub_table .interrupt = some b' → b.services = [] ∧
    ∃ vector ∈ ([0x20, 0x21, 0x27] : List UInt8), b'.services = [⟨vector, true⟩] ∧
      (vector = PIC1_OFFSET + IRQ_TIMER → b.user = true)
  taken : b.user = true → ∀ i : Fin 8, i.val < 2 → b.pics.pic1.irr i = true →
    ∃ b', ∃ j ≤ i, b.pics.pic1.irr j = true ∧ b.exec isr_stub_table .interrupt = some b' ∧
      b'.services = [⟨PIC1_OFFSET + UInt8.ofNat j, true⟩]

theorem interrupt_flag_of_exec (hb : b.exec isr_stub_table .interrupt = some b')
    : b.interrupt_flag = true := by
  unfold exec at hb
  dsimp only at hb
  split at hb
  . next hflag => exact hflag
  . injection hb

theorem Closed.orderly (h : b.Closed) (huser : b.user = false)
    : b.Orderly isr_stub_table := by
  refine ⟨?_, ?_, ?_⟩
  . rw [h.services]
    simp
  . intro b' hb
    have hflag := interrupt_flag_of_exec hb
    rw [h.interrupt_flag] at hflag
    exact absurd hflag Bool.false_ne_true
  . rw [huser]
    intro hfalse
    exact absurd hfalse Bool.false_ne_true

theorem Ready.outermost_of_timer (h : b.Ready isr_stub_table imr on base)
    (hphase : Phase b.calls imr on) {service : Service} (hmem : service ∈ b.services)
    (hnumber : service.int_number = PIC1_OFFSET + IRQ_TIMER)
    : b.calls = [] ∧ b.services.getLast? = some service ∧ service.interrupt_flag = true := by
  rcases h.nested.outermost hmem (by rw [hnumber]; decide) with ⟨hbase, hlast, hflag⟩
  rw [hnumber] at hbase
  have hcalls := h.timer hbase
  rw [hcalls] at hphase
  exact ⟨hcalls, hlast, hflag.trans hphase.on_of_nil.2⟩

theorem Ready.services_of_interrupt (h : b.Ready isr_stub_table imr on base)
    (hphase : Phase b.calls imr on) (hb : b.exec isr_stub_table .interrupt = some b')
    : b.services = [] ∧
        ∃ vector ∈ ([0x20, 0x21, 0x27] : List UInt8), b'.services = [⟨vector, true⟩] ∧
          (vector = PIC1_OFFSET + IRQ_TIMER → b.user = true) := by
  have hflag := interrupt_flag_of_exec hb
  rcases h.interrupt hphase hflag with ⟨pics, vector, hexec, hready, hcases⟩
  rw [hexec] at hb
  injection hb with hb
  subst hb
  have hnested := h.nested
  rw [hflag] at hnested
  have hservices := hnested.outside_of_flag.2.1
  refine ⟨hservices, vector, ?_, rfl, ?_⟩
  . rcases hcases with ⟨i, hlt, hvector, _⟩ | ⟨hvector, _⟩
    . have hi : i = 0 ∨ i = 1 := by omega
      rw [hvector]
      rcases hi with rfl | rfl
      . decide
      . decide
    . rw [hvector]
      decide
  . intro hvector
    have hcalls : b.calls = [] := hready.timer (congrArg some hvector)
    unfold user
    rw [hservices, hcalls]
    rfl

theorem Ready.exists_interrupt (h : b.Ready isr_stub_table imr on base)
    (hphase : Phase b.calls imr on) (huser : b.user = true) {i : Fin 8} (hlt : i.val < 2)
    (hirr : b.pics.pic1.irr i = true)
    : ∃ b', ∃ j ≤ i, b.pics.pic1.irr j = true ∧ b.exec isr_stub_table .interrupt = some b' ∧
        b'.services = [⟨PIC1_OFFSET + UInt8.ofNat j, true⟩] := by
  unfold user at huser
  rw [Bool.and_eq_true, List.isEmpty_iff, List.isEmpty_iff] at huser
  rcases huser with ⟨hcalls, hservices⟩
  rw [hcalls] at hphase
  rcases hphase.on_of_nil with ⟨rfl, rfl⟩
  have hnested := h.nested
  rw [hservices] at hnested
  have hflag := hnested.outside_of_nil.2
  rw [← hcalls] at hphase
  rcases h.interrupt hphase hflag with ⟨pics, vector, hexec, _, hcases⟩
  have hopen : ∀ j : Fin 8, j.val < 2 → (0xFC : UInt8).toNat.testBit j = false := by decide
  rcases hcases with ⟨j, hjlt, hvector, hjirr, _, hbefore, _⟩ | ⟨_, _, hnone⟩
  . refine ⟨_, j, ?_, hjirr, hexec, ?_⟩
    . by_contra hle
      have hmasked := hbefore i (by omega) hirr
      rw [hopen i hlt] at hmasked
      exact absurd hmasked Bool.false_ne_true
    . rw [hvector]
  . have hmasked := hnone i hlt hirr
    rw [hopen i hlt] at hmasked
    exact absurd hmasked Bool.false_ne_true

/--
In every run of the machine, from the first call of `kernel_setup` on, interrupts are orderly.
-/
theorem interrupts_served (h : (boards isr_stub_table).Reachable (fun _ _ => True) b)
    : b.Orderly isr_stub_table := by
  cases sound_of_reachable h with
  | start hclosed hcalls =>
    apply hclosed.orderly
    unfold user
    rcases hcalls with hcalls | hcalls
    . rw [hcalls]
      rfl
    . rw [hcalls]
      rfl
  | remapped hclosed hcalls =>
    apply hclosed.orderly
    unfold user
    rw [hcalls]
    rfl
  | ready hphase hready =>
    refine ⟨?_, ?_, ?_⟩
    . intro service hmem hnumber
      exact hready.outermost_of_timer hphase hmem hnumber
    . intro b' hb
      exact hready.services_of_interrupt hphase hb
    . intro huser i hlt hirr
      exact hready.exists_interrupt hphase huser hlt hirr

def power_on : Board where
  pics := ⟨⟨fun _ => true, 0xA5, fun _ => true, .icw3, 0, 0, 0, 0⟩,
    ⟨fun _ => true, 0x5A, fun _ => true, .ready, 0, 0, 0, 0⟩⟩
  interrupt_flag := false
  idt := none
  calls := kernel_setup.calls
  services := []
  contexts := []

def boot : List Event :=
  List.replicate 7 (.proceed true)

theorem reachable_of_foldlM {events : List Event}
    (h : (boards isr_stub_table).Reachable (fun _ _ => True) b)
    (hrun : events.foldlM (exec isr_stub_table) b = some b')
    : (boards isr_stub_table).Reachable (fun _ _ => True) b' := by
  induction events generalizing b with
  | nil =>
    injection hrun with hrun
    rw [← hrun]
    exact h
  | cons e events ih =>
    rw [List.foldlM_cons, Option.bind_eq_bind, Option.bind_eq_some_iff] at hrun
    rcases hrun with ⟨b₁, hstep, hrun⟩
    exact ih (h.step trivial hstep) hrun

-- the machine boots, and both devices raise their lines
theorem interrupts_served_boot
    : ∃ b b', (boot ++ [Event.raise 1, Event.raise 0]).foldlM (exec fun _ => 0) power_on = some b ∧
        b.exec (fun _ => 0) .interrupt = some b' ∧ b'.services = [⟨0x20, true⟩] := by
  have hany : ((boot ++ [Event.raise 1, Event.raise 0]).foldlM (exec fun _ => 0) power_on).any
      (fun b => b.user && b.pics.pic1.irr 0) = true := by
    decide +kernel
  rcases (Option.any_eq_true _ _).mp hany with ⟨b, hrun, hb⟩
  rw [Bool.and_eq_true] at hb
  have hreach := reachable_of_foldlM (.init ⟨rfl, rfl, rfl, rfl, rfl⟩) hrun
  rcases (interrupts_served hreach).taken hb.1 0 (by decide) hb.2 with
    ⟨b', j, hle, _, hexec, hservices⟩
  have hj : j = 0 := Fin.le_zero_iff.mp hle
  subst hj
  exact ⟨b, b', hrun, hexec, hservices⟩

end Board

end AiOS
