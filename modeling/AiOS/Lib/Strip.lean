import Mathlib

/-!
This module contains a strip of cells that is typed on at one place, with jumps of that place to the
right, and how a last glyph is taken away.
-/

structure Strip (α : Type) where
  cells : Nat → α
  next : Nat

namespace Strip

variable {α : Type} (blank : α)

def jump (p : Strip α) (next : Nat) : Strip α where
  cells := Function.update p.cells next blank
  next := next

def put (p : Strip α) (a : α) : Strip α :=
  jump blank { p with cells := Function.update p.cells p.next a } (p.next + 1)

def Clear (p : Strip α) : Prop :=
  ∀ k, p.next ≤ k → p.cells k = blank

variable {blank} {p : Strip α}

theorem Clear.jump (h : p.Clear blank) {next : Nat} (hle : p.next ≤ next)
    : (p.jump blank next).Clear blank := by
  intro k hk
  unfold Strip.jump at hk ⊢
  dsimp only at hk ⊢
  rw [Function.update_apply]
  split
  . rfl
  . exact h k (Nat.le_trans hle hk)

theorem Clear.put (h : p.Clear blank) (a : α) : (p.put blank a).Clear blank := by
  intro k hk
  unfold Strip.put Strip.jump at hk ⊢
  dsimp only at hk ⊢
  rw [Function.update_apply, Function.update_of_ne (by omega)]
  split
  . rfl
  . exact h k (Nat.le_of_succ_le hk)

theorem Clear.jump_put (h : p.Clear blank) (a : α) : (p.put blank a).jump blank p.next = p := by
  have hnext := h p.next (Nat.le_refl _)
  have hbehind := h (p.next + 1) (Nat.le_succ _)
  have hcells : Function.update (Function.update (Function.update p.cells p.next a) (p.next + 1) blank)
      p.next blank = p.cells := by
    funext k
    rw [Function.update_apply, Function.update_apply, Function.update_apply]
    split
    . next hk => rw [hk, hnext]
    . split
      . next hk => rw [hk, hbehind]
      . rfl
  unfold Strip.put Strip.jump
  dsimp only
  rw [hcells]

end Strip
