import Mathlib

/-!
This module contains the writing of some values, one after the other, into a memory.
-/

namespace Span

variable {V : Type}

def write (memory : Nat → V) (start n : Nat) (src : Nat → V) : Nat → V :=
  fun a => if start ≤ a ∧ a < start + n then src (a - start) else memory a

variable {memory : Nat → V} {start n : Nat} {src src' : Nat → V}

theorem write_of_mem (memory : Nat → V) (start : Nat) (src : Nat → V) {i : Nat} (hi : i < n)
    : write memory start n src (start + i) = src i := by
  unfold write
  rw [if_pos (by omega), Nat.add_sub_cancel_left]

theorem write_of_not_mem {a : Nat} (ha : a < start ∨ start + n ≤ a)
    : write memory start n src a = memory a := by
  unfold write
  rw [if_neg (by omega)]

@[simp]
theorem write_zero (memory : Nat → V) (start : Nat) (src : Nat → V)
    : write memory start 0 src = memory := by
  funext a
  apply write_of_not_mem
  omega

theorem write_congr (h : ∀ i < n, src i = src' i)
    : write memory start n src = write memory start n src' := by
  funext a
  unfold write
  split
  . apply h
    omega
  . rfl

theorem write_write (memory : Nat → V) (start n k : Nat) (src : Nat → V)
    : write (write memory start n src) (start + n) k (fun i => src (n + i))
        =
      write memory start (n + k) src := by
  funext a
  unfold write
  by_cases hsecond : start + n ≤ a ∧ a < start + n + k
  . have hi : n + (a - (start + n)) = a - start := by omega
    rw [if_pos hsecond, if_pos (by omega)]
    dsimp only
    rw [hi]
  . rw [if_neg hsecond]
    by_cases hfirst : start ≤ a ∧ a < start + n
    . rw [if_pos hfirst, if_pos (by omega)]
    . rw [if_neg hfirst, if_neg (by omega)]

theorem update_write (memory : Nat → V) (start n : Nat) (src : Nat → V)
    : Function.update (write memory start n src) (start + n) (src n)
        =
      write memory start (n + 1) src := by
  rw [← write_write]
  funext a
  unfold Function.update
  split
  . next ha =>
    subst ha
    exact (write_of_mem _ _ (fun i => src (n + i)) Nat.zero_lt_one).symm
  . next ha =>
    rw [write_of_not_mem (n := 1) (by omega)]

theorem foldl_update (memory : Nat → V) (start n : Nat) (src : Nat → V)
    : (List.range n).foldl (fun memory i => Function.update memory (start + i) (src i)) memory
        =
      write memory start n src := by
  induction n with
  | zero => simp
  | succ n ih =>
    rw [List.range_succ, List.foldl_append, ih, List.foldl_cons, List.foldl_nil, update_write]

theorem foldl_write (memory : Nat → V) (start n k : Nat) (src : Nat → V)
    : (List.range k).foldl
          (fun memory i => write memory (start + n * i) n (fun j => src (n * i + j))) memory
        =
      write memory start (n * k) src := by
  induction k with
  | zero => simp
  | succ k ih =>
    rw [List.range_succ, List.foldl_append, ih, List.foldl_cons, List.foldl_nil, write_write,
      Nat.mul_succ]

end Span
