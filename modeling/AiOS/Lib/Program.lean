import Mathlib

/-!
This module contains programs that talk to a device by commands, what such a program does when it
runs alone, and which states the device can be left in when the program is cut off.
-/

variable {σ Cmd Atom γ α β : Type} {Ret : Cmd → Type}

/--
A device answers a command from its state. What a command changes is a list of atoms, applied one
after the other: a cut can fall between two atoms, never inside one.
-/
structure Device (σ Cmd : Type) (Ret : Cmd → Type) (Atom : Type) where
  answer : (c : Cmd) → σ → Ret c
  atoms : Cmd → List Atom
  apply : σ → Atom → σ

namespace Device

def applyAll (D : Device σ Cmd Ret Atom) (s : σ) (atoms : List Atom) : σ :=
  atoms.foldl D.apply s

def exec (D : Device σ Cmd Ret Atom) (c : Cmd) (s : σ) : σ :=
  D.applyAll s (D.atoms c)

theorem applyAll_append (D : Device σ Cmd Ret Atom) (s : σ) (xs ys : List Atom)
    : D.applyAll s (xs ++ ys) = D.applyAll (D.applyAll s xs) ys := by
  unfold applyAll
  rw [List.foldl_append]

theorem exec_eq_of_atoms_eq_nil (D : Device σ Cmd Ret Atom) (c : Cmd) (s : σ)
    (h : D.atoms c = [])
    : D.exec c s = s := by
  unfold exec
  rw [h]
  rfl

end Device

/--
A program that either returns, leaves what the model describes (`fault`), or sends a command and
continues with the answer.
-/
inductive Prog (Cmd : Type) (Ret : Cmd → Type) (α : Type) where
  | pure (a : α)
  | fault
  | call (c : Cmd) (k : Ret c → Prog Cmd Ret α)

namespace Prog

def bind (p : Prog Cmd Ret α) (f : α → Prog Cmd Ret β) : Prog Cmd Ret β :=
  match p with
  | .pure a => f a
  | .fault => .fault
  | .call c k => .call c (fun r => (k r).bind f)

instance : Monad (Prog Cmd Ret) where
  pure := Prog.pure
  bind := Prog.bind

theorem bind_assoc {δ : Type} (p : Prog Cmd Ret α) (f : α → Prog Cmd Ret β)
    (g : β → Prog Cmd Ret δ)
    : (p >>= f) >>= g = p >>= fun a => f a >>= g := by
  induction p with
  | pure a => rfl
  | fault => rfl
  | call c k ih =>
    change Prog.call c _ = Prog.call c _
    congr
    funext r
    apply ih

theorem bind_pure (p : Prog Cmd Ret α) : (p >>= Prog.pure) = p := by
  induction p with
  | pure a => rfl
  | fault => rfl
  | call c k ih =>
    change Prog.call c _ = Prog.call c _
    congr
    funext r
    apply ih

def request (c : Cmd) : Prog Cmd Ret (Ret c) :=
  .call c .pure

@[simp]
theorem pure_eq (a : α) : (Pure.pure a : Prog Cmd Ret α) = .pure a := by
  rfl

@[simp]
theorem pure_bind (a : α) (f : α → Prog Cmd Ret β) : (Prog.pure a >>= f) = f a := by
  rfl

def run (D : Device σ Cmd Ret Atom) (p : Prog Cmd Ret α) (s : σ) : Option (α × σ) :=
  match p with
  | .pure a => some (a, s)
  | .fault => none
  | .call c k => (k (D.answer c s)).run D (D.exec c s)

def trace (D : Device σ Cmd Ret Atom) (p : Prog Cmd Ret α) (s : σ) : List Atom :=
  match p with
  | .pure _ => []
  | .fault => []
  | .call c k => D.atoms c ++ (k (D.answer c s)).trace D (D.exec c s)

def crash (D : Device σ Cmd Ret Atom) (p : Prog Cmd Ret α) (s : σ) (n : Nat) : σ :=
  D.applyAll s ((p.trace D s).take n)

section

variable (D : Device σ Cmd Ret Atom)

@[simp]
theorem run_pure (a : α) (s : σ) : (Prog.pure a).run D s = some (a, s) := by
  rfl

theorem run_bind (p : Prog Cmd Ret α) (f : α → Prog Cmd Ret β) (s : σ)
    : (p >>= f).run D s = (p.run D s).bind fun r => (f r.1).run D r.2 := by
  induction p generalizing s with
  | pure a => rfl
  | fault => rfl
  | call c k ih => exact ih _ _

@[simp]
theorem crash_pure (a : α) (s : σ) (n : Nat) : (Prog.pure a : Prog Cmd Ret α).crash D s n = s := by
  unfold crash trace
  rw [List.take_nil]
  rfl

theorem crash_call_of_le {c : Cmd} {n : Nat} (hn : n ≤ (D.atoms c).length)
    (k : Ret c → Prog Cmd Ret α) (s : σ)
    : (Prog.call c k).crash D s n = D.applyAll s ((D.atoms c).take n) := by
  unfold crash trace
  rw [List.take_append_of_le_length hn]

theorem crash_call_add (c : Cmd) (n : Nat) (k : Ret c → Prog Cmd Ret α) (s : σ)
    : (Prog.call c k).crash D s ((D.atoms c).length + n)
        =
      (k (D.answer c s)).crash D (D.exec c s) n := by
  unfold crash
  rw [trace, List.take_length_add_append, D.applyAll_append]
  rfl

end

end Prog

/--
A watcher next to one program: it takes notes of the answers the program gets, and says which
commands its notes allow in which state.
-/
structure Monitor (σ Cmd : Type) (Ret : Cmd → Type) (γ : Type) where
  note : γ → (c : Cmd) → Ret c → γ
  allows : γ → Cmd → σ → Prop

namespace Prog

/--
As long as `p` runs alone from `s`, the device satisfies `I`, also between two atoms of a command,
and every command is allowed by the monitor.
-/
def Always (D : Device σ Cmd Ret Atom) (M : Monitor σ Cmd Ret γ) (I : σ → Prop)
    (p : Prog Cmd Ret α) (g : γ) (s : σ) : Prop :=
  match p with
  | .pure _ => I s
  | .fault => I s
  | .call c k =>
    (∀ n, I (D.applyAll s ((D.atoms c).take n))) ∧ M.allows g c s ∧
      (k (D.answer c s)).Always D M I (M.note g c (D.answer c s)) (D.exec c s)

namespace Always

variable {D : Device σ Cmd Ret Atom} {M : Monitor σ Cmd Ret γ} {I J : σ → Prop}

theorem call_of_atoms_eq_nil {c : Cmd} {k : Ret c → Prog Cmd Ret α} {g : γ} {s : σ}
    (hc : D.atoms c = []) (hs : I s) (hg : M.allows g c s)
    (h : (k (D.answer c s)).Always D M I (M.note g c (D.answer c s)) s)
    : (Prog.call c k).Always D M I g s := by
  refine ⟨?_, hg, ?_⟩
  . intro n
    rw [hc]
    simpa [Device.applyAll] using hs
  . rw [D.exec_eq_of_atoms_eq_nil c s hc]
    exact h

theorem crash {p : Prog Cmd Ret α} {g : γ} {s : σ} (h : p.Always D M I g s) (n : Nat)
    : I (p.crash D s n) := by
  induction p generalizing g s n with
  | pure a =>
    have : I s := h
    simpa [Prog.crash, Prog.trace, Device.applyAll] using this
  | fault =>
    have : I s := h
    simpa [Prog.crash, Prog.trace, Device.applyAll] using this
  | call c k ih =>
    unfold Prog.crash Prog.trace
    rw [List.take_append, D.applyAll_append]
    -- the cut falls inside the atoms of `c`, or all of them are through
    cases Nat.le_total n (D.atoms c).length with
    | inl hle =>
      rw [Nat.sub_eq_zero_of_le hle]
      simpa [Device.applyAll] using h.1 n
    | inr hge =>
      rw [List.take_of_length_le hge]
      exact ih _ h.2.2 _

end Always

end Prog
