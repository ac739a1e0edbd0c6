import AiOS.Lib.Program
import AiOS.Lib.System

/-!
This module contains any number of clients whose programs share one device, command by command, and
a rule to verify each program on its own: between two of its commands the others may do anything
that keeps an invariant of the device and what the program owns there.
-/

/--
A client runs the programs of its operations one after the other, each from the memory its last one
has left. The monitor of an operation starts with notes on that memory.
-/
structure Client (σ Cmd : Type) (Ret : Cmd → Type) (γ Op L β : Type) where
  prog : Op → L → Prog Cmd Ret (β × L)
  start : Op → L → γ
  monitor : Op → Monitor σ Cmd Ret γ

inductive Proc (Cmd : Type) (Ret : Cmd → Type) (γ Op L β : Type) where
  | idle (l : L)
  | busy (op : Op) (p : Prog Cmd Ret (β × L)) (g : γ)

structure World (ι σ Cmd : Type) (Ret : Cmd → Type) (γ Op L β : Type) where
  device : σ
  proc : ι → Proc Cmd Ret γ Op L β

inductive Turn (ι Op : Type) where
  | start (i : ι) (op : Op)
  | call (i : ι)
  | finish (i : ι)

variable {ι σ Cmd Atom γ Op L β α : Type} {Ret : Cmd → Type}

namespace World

variable [DecidableEq ι] (w : World ι σ Cmd Ret γ Op L β) (i : ι) (s s' : σ)
  (proc proc' : Proc Cmd Ret γ Op L β)

def set : World ι σ Cmd Ret γ Op L β :=
  ⟨s, Function.update w.proc i proc⟩

theorem set_proc_self : (w.set i s proc).proc i = proc := by
  apply Function.update_self

theorem set_proc_of_ne {j : ι} (h : j ≠ i) : (w.set i s proc).proc j = w.proc j := by
  apply Function.update_of_ne h

theorem set_self : w.set i w.device (w.proc i) = w := by
  unfold set
  rw [Function.update_eq_self]

theorem set_set : (w.set i s proc).set i s' proc' = w.set i s' proc' := by
  unfold set
  rw [Function.update_idem]

end World

namespace Client

section

variable [DecidableEq ι] (C : Client σ Cmd Ret γ Op L β) (D : Device σ Cmd Ret Atom)

inductive Step : World ι σ Cmd Ret γ Op L β → Turn ι Op → World ι σ Cmd Ret γ Op L β → Prop where
  | start {w : World ι σ Cmd Ret γ Op L β} {i : ι} {op : Op} {l : L} :
    w.proc i = .idle l →
      Step w (.start i op) (w.set i w.device (.busy op (C.prog op l) (C.start op l)))
  | call {w : World ι σ Cmd Ret γ Op L β} {i : ι} {op : Op} {c : Cmd}
      {k : Ret c → Prog Cmd Ret (β × L)} {g : γ} :
    w.proc i = .busy op (.call c k) g →
      Step w (.call i)
        (w.set i (D.exec c w.device)
          (.busy op (k (D.answer c w.device)) ((C.monitor op).note g c (D.answer c w.device))))
  | finish {w : World ι σ Cmd Ret γ Op L β} {i : ι} {op : Op} {b : β} {l : L} {g : γ} :
    w.proc i = .busy op (.pure (b, l)) g →
      Step w (.finish i) (w.set i w.device (.idle l))

def system (init : σ → Prop)
    : System (World ι σ Cmd Ret γ Op L β) (Turn ι Op) where
  init w := init w.device ∧ ∀ i, ∃ l, w.proc i = .idle l
  step := C.Step D

end

/--
The command that is about to be executed is one that the monitor of its operation allows.
-/
def Allowed (C : Client σ Cmd Ret γ Op L β) (w : World ι σ Cmd Ret γ Op L β) (a : Turn ι Op)
    : Prop :=
  ∀ i op c k g, a = .call i → w.proc i = .busy op (.call c k) g →
    (C.monitor op).allows g c w.device

end Client

section

variable (I : σ → Prop) (owned : σ → α → Prop)

/--
A state between two commands, as a program that owns `mine` meets it.
-/
structure Settled (s : σ) (mine others : Set α) : Prop where
  inv : I s
  owned_mine : ∀ a ∈ mine, owned s a
  owned_others : ∀ a ∈ others, owned s a
  apart : Disjoint mine others

variable (D : Device σ Cmd Ret Atom) (M : Monitor σ Cmd Ret γ) (G : γ → Cmd → σ → Prop)

namespace Prog

/--
From every settled state, each allowed command of `p` meets the guarantee `G` and settles again, with
all that the others own, and something for `p` itself to own.
-/
def Guarded (p : Prog Cmd Ret β) (g : γ) (mine : Set α) : Prop :=
  match p with
  | .pure _ => True
  | .fault => True
  | .call c k =>
    ∀ s others, Settled I owned s mine others → M.allows g c s →
      G g c s ∧ ∃ mine', Settled I owned (D.exec c s) mine' others ∧
        (k (D.answer c s)).Guarded (M.note g c (D.answer c s)) mine'

def Silent (p : Prog Cmd Ret β) : Prop :=
  match p with
  | .pure _ => True
  | .fault => True
  | .call c k => D.atoms c = [] ∧ ∀ r, (k r).Silent

theorem Silent.bind {p : Prog Cmd Ret β} {f : β → Prog Cmd Ret L} (hp : p.Silent D)
    (hf : ∀ b, (f b).Silent D)
    : (p >>= f).Silent D := by
  induction p with
  | pure b => apply hf
  | fault => trivial
  | call c k ih =>
    refine ⟨hp.1, ?_⟩
    intro r
    apply ih
    apply hp.2

theorem Silent.crash_eq {p : Prog Cmd Ret β} (hp : p.Silent D) (s : σ) (n : Nat)
    : p.crash D s n = s := by
  have htrace : ∀ s, p.trace D s = [] := by
    induction p with
    | pure b =>
      intro s
      rfl
    | fault =>
      intro s
      rfl
    | call c k ih =>
      intro s
      unfold Prog.trace
      rw [hp.1, ih _ (hp.2 _)]
      rfl
  unfold Prog.crash
  rw [htrace, List.take_nil]
  rfl

namespace Guarded

variable {I owned D M G} {p : Prog Cmd Ret β} {g : γ} {mine : Set α}

theorem call_of_atoms_eq_nil {c : Cmd} {k : Ret c → Prog Cmd Ret β} (hc : D.atoms c = [])
    (hG : ∀ s, G g c s)
    (h : ∀ s, I s → M.allows g c s →
      (k (D.answer c s)).Guarded I owned D M G (M.note g c (D.answer c s)) mine)
    : (Prog.call c k).Guarded I owned D M G g mine := by
  intro s others hs hallows
  refine ⟨hG s, mine, ?_, ?_⟩
  . rw [D.exec_eq_of_atoms_eq_nil c s hc]
    exact hs
  . apply h s hs.inv hallows

variable (hG : ∀ g c s, D.atoms c = [] → G g c s)

include hG

theorem of_silent (hp : p.Silent D) : p.Guarded I owned D M G g mine := by
  induction p generalizing g with
  | pure b => trivial
  | fault => trivial
  | call c k ih =>
    apply call_of_atoms_eq_nil hp.1
    . intro s
      apply hG g c s hp.1
    . intro s _ _
      apply ih
      apply hp.2

theorem of_not_allowed (h : ∀ g c s, I s → M.allows g c s → D.atoms c = [])
    : p.Guarded I owned D M G g mine := by
  induction p generalizing g with
  | pure b => trivial
  | fault => trivial
  | call c k ih =>
    intro s others hs hallows
    have hc := h g c s hs.inv hallows
    refine ⟨hG g c s hc, mine, ?_, ?_⟩
    . rw [D.exec_eq_of_atoms_eq_nil c s hc]
      exact hs
    . apply ih

end Guarded
end Prog

end

namespace Client

variable [DecidableEq ι] {C : Client σ Cmd Ret γ Op L β} {D : Device σ Cmd Ret Atom}
  {I : σ → Prop} {owned : σ → α → Prop} {G : Op → γ → Cmd → σ → Prop}
  {w w' : World ι σ Cmd Ret γ Op L β}

variable (C D I owned G) in
/--
Every process has something of its own, apart from all others, and its program is guarded with that.
-/
structure Sound (w : World ι σ Cmd Ret γ Op L β) (own : ι → Set α) : Prop where
  inv : I w.device
  owned_own : ∀ i, ∀ a ∈ own i, owned w.device a
  apart : ∀ i j, i ≠ j → Disjoint (own i) (own j)
  guarded : ∀ i op p g, w.proc i = .busy op p g →
    p.Guarded I owned D (C.monitor op) (G op) g (own i)

namespace Sound

variable {own : ι → Set α} (h : C.Sound D I owned G w own)

include h

omit [DecidableEq ι] in
theorem settled (i : ι) : Settled I owned w.device (own i) (⋃ j ≠ i, own j) where
  inv := h.inv
  owned_mine := h.owned_own i
  owned_others := by
    intro a ha
    simp only [Set.mem_iUnion] at ha
    rcases ha with ⟨j, _, ha⟩
    apply h.owned_own j a ha
  apart := by
    simp only [Set.disjoint_iUnion_right]
    intro j hj
    apply h.apart i j hj.symm

theorem update (i : ι) (mine : Set α) {s' : σ} {proc : Proc Cmd Ret γ Op L β}
    (hs : Settled I owned s' mine (⋃ j ≠ i, own j))
    (hproc : ∀ op p g, proc = .busy op p g →
      p.Guarded I owned D (C.monitor op) (G op) g mine)
    : C.Sound D I owned G (w.set i s' proc) (Function.update own i mine) := by
  have hothers : ∀ j, j ≠ i → ∀ a ∈ own j, a ∈ ⋃ j ≠ i, own j := by
    intro j hj a ha
    simp only [Set.mem_iUnion]
    exact ⟨j, hj, ha⟩
  refine {
    inv := hs.inv
    owned_own := ?_
    apart := ?_
    guarded := ?_ }
  . intro j a ha
    by_cases hj : j = i
    . rw [hj, Function.update_self] at ha
      apply hs.owned_mine a ha
    . rw [Function.update_of_ne hj] at ha
      apply hs.owned_others a (hothers j hj a ha)
  . intro j k hjk
    by_cases hj : j = i
    . have hk : k ≠ i := fun hk => hjk (hj.trans hk.symm)
      rw [hj, Function.update_self, Function.update_of_ne hk]
      apply hs.apart.mono_right (hothers k hk)
    . rw [Function.update_of_ne hj]
      by_cases hk : k = i
      . rw [hk, Function.update_self]
        apply (hs.apart.mono_right (hothers j hj)).symm
      . rw [Function.update_of_ne hk]
        apply h.apart j k hjk
  . intro j op p g hbusy
    unfold World.set at hbusy
    dsimp only at hbusy
    by_cases hj : j = i
    . rw [hj, Function.update_self] at hbusy ⊢
      apply hproc op p g hbusy
    . rw [Function.update_of_ne hj] at hbusy ⊢
      apply h.guarded j op p g hbusy

end Sound

theorem Sound.of_init {init : σ → Prop} (hinit : ∀ s, init s → I s)
    (h : (C.system D init).init w)
    : C.Sound D I owned G w (fun _ => ∅) where
  inv := hinit _ h.1
  owned_own := by
    intro i a ha
    exact absurd ha (Set.notMem_empty a)
  apart := by
    intro i j _
    apply disjoint_bot_left
  guarded := by
    intro i op p g hbusy
    rcases h.2 i with ⟨l, hidle⟩
    rw [hidle] at hbusy
    contradiction

theorem Sound.of_step {own : ι → Set α} {a : Turn ι Op}
    (hprog : ∀ op l, (C.prog op l).Guarded I owned D (C.monitor op) (G op) (C.start op l) ∅)
    (h : C.Sound D I owned G w own) (hallowed : C.Allowed w a) (hstep : C.Step D w a w')
    : ∃ own', C.Sound D I owned G w' own' := by
  cases hstep with
  | @start i op l hidle =>
    have hs := h.settled i
    refine ⟨_, h.update i ∅ ?_ ?_⟩
    . refine ⟨hs.inv, ?_, hs.owned_others, disjoint_bot_left⟩
      intro a ha
      exact absurd ha (Set.notMem_empty a)
    . intro op' p g hbusy
      injection hbusy with hop hp hg
      subst hop hp hg
      apply hprog
  | @call i op c k g hbusy =>
    have hguarded := h.guarded i _ _ _ hbusy
    rcases hguarded w.device _ (h.settled i) (hallowed i op c k g rfl hbusy) with
      ⟨_, mine, hs, hnext⟩
    refine ⟨_, h.update i mine hs ?_⟩
    intro op' p g' hbusy'
    injection hbusy' with hop hp hg
    subst hop hp hg
    exact hnext
  | @finish i op b l g hbusy =>
    have hs := h.settled i
    refine ⟨_, h.update i ∅ ?_ ?_⟩
    . refine ⟨hs.inv, ?_, hs.owned_others, disjoint_bot_left⟩
      intro a ha
      exact absurd ha (Set.notMem_empty a)
    . intro op' p g' hbusy'
      contradiction

variable {init : σ → Prop} (hinit : ∀ s, init s → I s)
  (hprog : ∀ op l, (C.prog op l).Guarded I owned D (C.monitor op) (G op) (C.start op l) ∅)
  (h : (C.system D init).Reachable C.Allowed w)

include hinit hprog h

theorem exists_sound : ∃ own, C.Sound D I owned G w own := by
  apply h.invariant (I := fun w => ∃ own, C.Sound D I owned G w own)
  . intro w hw
    exact ⟨_, Sound.of_init hinit hw⟩
  . intro w a w' hsound hallowed hstep
    rcases hsound with ⟨own, hsound⟩
    exact hsound.of_step hprog hallowed hstep

theorem invariant : I w.device := by
  rcases exists_sound hinit hprog h with ⟨own, hsound⟩
  exact hsound.inv

theorem guarantee {i : ι} {op : Op} {c : Cmd} {k : Ret c → Prog Cmd Ret (β × L)} {g : γ}
    (hbusy : w.proc i = .busy op (.call c k) g) (hallows : (C.monitor op).allows g c w.device)
    : G op g c w.device := by
  rcases exists_sound hinit hprog h with ⟨own, hsound⟩
  exact (hsound.guarded i _ _ _ hbusy w.device _ (hsound.settled i) hallows).1

omit hinit hprog h

theorem leads_of_busy {i : ι} {op : Op} {p : Prog Cmd Ret (β × L)} {g : γ} {b : β} {l : L} {s : σ}
    (hbusy : w.proc i = .busy op p g) (hrun : p.run D w.device = some ((b, l), s))
    : (C.system D init).Leads (fun _ _ => True) w (w.set i s (.idle l)) := by
  induction p generalizing w g with
  | pure a =>
    simp only [Prog.run_pure, Option.some.injEq, Prod.mk.injEq] at hrun
    rcases hrun with ⟨rfl, rfl⟩
    apply Relation.ReflTransGen.single
    exact ⟨.finish i, trivial, Step.finish hbusy⟩
  | fault => contradiction
  | call c k ih =>
    have hcall := Step.call (C := C) (D := D) hbusy
    have hrest := ih _ (World.set_proc_self w i (D.exec c w.device)
      (.busy op (k (D.answer c w.device)) ((C.monitor op).note g c (D.answer c w.device)))) hrun
    rw [World.set_set] at hrest
    apply Relation.ReflTransGen.head _ hrest
    exact ⟨.call i, trivial, hcall⟩

theorem leads_of_run {i : ι} {op : Op} {l l' : L} {b : β} {s : σ} (hidle : w.proc i = .idle l)
    (hrun : (C.prog op l).run D w.device = some ((b, l'), s))
    : (C.system D init).Leads (fun _ _ => True) w (w.set i s (.idle l')) := by
  have hstart : C.Step D w (.start i op)
      (w.set i w.device (.busy op (C.prog op l) (C.start op l))) := Step.start hidle
  have hrest : (C.system D init).Leads (fun _ _ => True)
      (w.set i w.device (.busy op (C.prog op l) (C.start op l))) _ :=
    leads_of_busy (World.set_proc_self w i _ _) hrun
  rw [World.set_set] at hrest
  apply Relation.ReflTransGen.head _ hrest
  exact ⟨.start i op, trivial, hstart⟩

end Client
