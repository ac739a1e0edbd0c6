import Mathlib

/-!
This module contains writes to the places of a store, one after the other, and that it makes no
difference to a place what is done to the others in between.
-/

namespace Writes

variable {κ β : Type} [DecidableEq κ]

def apply (writes : List (κ × β)) (f : κ → β) : κ → β :=
  writes.foldl (fun f w => Function.update f w.1 w.2) f

variable {writes writes' : List (κ × β)} {w : κ × β} {f g : κ → β} {K : Set κ}

@[simp]
theorem apply_nil : apply ([] : List (κ × β)) f = f := by
  rfl

@[simp]
theorem apply_cons : apply (w :: writes) f = apply writes (Function.update f w.1 w.2) := by
  rfl

theorem apply_append : apply (writes ++ writes') f = apply writes' (apply writes f) := by
  unfold apply
  rw [List.foldl_append]

theorem eqOn_update (h : Set.EqOn f g K) (k : κ) (b : β)
    : Set.EqOn (Function.update f k b) (Function.update g k b) K := by
  intro j hj
  rw [Function.update_apply, Function.update_apply, h hj]

theorem eqOn_apply (h : Set.EqOn f g K) (writes : List (κ × β))
    : Set.EqOn (apply writes f) (apply writes g) K := by
  induction writes generalizing f g with
  | nil => exact h
  | cons w writes ih => exact ih (eqOn_update h w.1 w.2)

end Writes
