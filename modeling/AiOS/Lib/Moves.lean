import Mathlib

/-!
This module contains moves of values between the places of one memory, made one after the other, and
when they have the effect of all of them at once.
-/

namespace Moves

variable {A V : Type} [DecidableEq A]

def run (memory : A → V) (moves : List (A × A)) : A → V :=
  moves.foldl (fun memory move => Function.update memory move.1 (memory move.2)) memory

/--
No move reads or writes a place that an earlier one has written.
-/
def Ordered (moves : List (A × A)) : Prop :=
  moves.Pairwise fun earlier later => later.1 ≠ earlier.1 ∧ later.2 ≠ earlier.1

variable {memory : A → V} {moves : List (A × A)}

theorem run_of_ne {a : A} (h : ∀ move ∈ moves, a ≠ move.1) : run memory moves a = memory a := by
  unfold run
  induction moves generalizing memory with
  | nil => rfl
  | cons move moves ih =>
    rw [List.forall_mem_cons] at h
    rw [List.foldl_cons, ih h.2, Function.update_of_ne h.1]

theorem run_of_mem (h : Ordered moves) {move : A × A} (hmem : move ∈ moves)
    : run memory moves move.1 = memory move.2 := by
  induction moves generalizing memory with
  | nil => contradiction
  | cons first moves ih =>
    unfold Ordered at h
    rw [List.pairwise_cons] at h
    have hrun : run memory (first :: moves)
        = run (Function.update memory first.1 (memory first.2)) moves := rfl
    rw [hrun]
    rw [List.mem_cons] at hmem
    rcases hmem with heq | hmem
    . rw [heq, run_of_ne fun later hlater => (h.1 later hlater).1.symm, Function.update_self]
    . rw [ih h.2 hmem, Function.update_of_ne (h.1 move hmem).2]

end Moves
