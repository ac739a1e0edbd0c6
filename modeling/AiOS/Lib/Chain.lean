import Mathlib

/-!
This module contains linked chains: a map `next` that sends each cell to its successor, or to a
value `stop` that is no cell.
-/

namespace Chain

variable {α : Type}

/--
Following `next` from `a` visits exactly the cells of the list, in order, and then hits `stop`.
-/
def Follows (next : α → α) (stop : α) : α → List α → Prop
  | a, [] => a = stop
  | a, x :: xs => a = x ∧ a ≠ stop ∧ Follows next stop (next a) xs

namespace Follows

variable {next next' : α → α} {stop a b : α} {xs ys : List α}

theorem unique (hx : Follows next stop a xs) (hy : Follows next stop a ys) : xs = ys := by
  induction xs generalizing a ys with
  | nil =>
    cases ys with
    | nil => rfl
    | cons y ys => exact absurd hx hy.2.1
  | cons x xs ih =>
    cases ys with
    | nil => exact absurd hy hx.2.1
    | cons y ys =>
      rw [← hx.1, ← hy.1]
      rw [ih hx.2.2 hy.2.2]

theorem of_append {zs : List α} (h : Follows next stop a (ys ++ b :: zs))
    : Follows next stop b (b :: zs) := by
  induction ys generalizing a with
  | nil =>
    have hab : a = b := h.1
    rw [hab] at h
    exact h
  | cons y ys ih => exact ih h.2.2

theorem nodup (h : Follows next stop a xs) : xs.Nodup := by
  induction xs generalizing a with
  | nil => exact List.nodup_nil
  | cons x xs ih =>
    refine List.nodup_cons.mpr ⟨?_, ih h.2.2⟩
    intro hmem
    -- a second visit of `x` would start the whole chain once more, inside its own tail
    rcases List.append_of_mem hmem with ⟨ys, zs, hsplit⟩
    have hrest : Follows next stop x (x :: zs) := by
      have htail := h.2.2
      rw [hsplit] at htail
      exact of_append htail
    have hwhole : Follows next stop x (x :: xs) := by
      have := h
      rw [h.1] at this
      exact this
    have hlen := congrArg List.length (unique hwhole hrest)
    rw [hsplit] at hlen
    simp at hlen
    omega

theorem congr (h : Follows next stop a xs) (heq : ∀ x ∈ xs, next' x = next x)
    : Follows next' stop a xs := by
  induction xs generalizing a with
  | nil => exact h
  | cons x xs ih =>
    rcases h with ⟨rfl, hne, h⟩
    refine ⟨rfl, hne, ?_⟩
    rw [heq a List.mem_cons_self]
    apply ih h
    intro y hy
    exact heq y (List.mem_cons_of_mem a hy)

theorem next_mem (h : Follows next stop a xs) (hb : b ∈ xs) : next b = stop ∨ next b ∈ xs := by
  induction xs generalizing a with
  | nil => simp at hb
  | cons x xs ih =>
    cases List.mem_cons.mp hb with
    | inl heq =>
      rw [heq, ← h.1]
      cases xs with
      | nil => exact Or.inl h.2.2
      | cons y ys =>
        right
        rw [h.2.2.1]
        simp
    | inr hmem =>
      cases ih h.2.2 hmem with
      | inl hstop => exact Or.inl hstop
      | inr hin => exact Or.inr (List.mem_cons_of_mem x hin)

end Follows

variable [DecidableEq α]

def link (stop : α) (next : α → α) : List α → α → α
  | [] => next
  | x :: xs => link stop (Function.update next x (xs.headD stop)) xs

theorem link_of_not_mem {stop : α} {next : α → α} {xs : List α} {a : α} (ha : a ∉ xs)
    : link stop next xs a = next a := by
  induction xs generalizing next with
  | nil => rfl
  | cons x xs ih =>
    have hax : a ≠ x := fun h => ha (h ▸ List.mem_cons_self)
    unfold link
    rw [ih (fun h => ha (List.mem_cons_of_mem x h))]
    exact Function.update_of_ne hax _ _

theorem link_mem {stop : α} {next : α → α} {xs : List α} {a : α} (ha : a ∈ xs)
    : link stop next xs a = stop ∨ link stop next xs a ∈ xs := by
  induction xs generalizing next with
  | nil => simp at ha
  | cons x xs ih =>
    unfold link
    by_cases hmem : a ∈ xs
    . cases ih hmem with
      | inl hstop => exact Or.inl hstop
      | inr hin => exact Or.inr (List.mem_cons_of_mem x hin)
    . have hax : a = x := (List.mem_cons.mp ha).resolve_right hmem
      rw [link_of_not_mem hmem, hax, Function.update_self]
      cases xs with
      | nil => exact Or.inl rfl
      | cons y ys =>
        right
        simp

theorem follows_link {stop : α} {next : α → α} {xs : List α} (hnodup : xs.Nodup)
    (hstop : stop ∉ xs)
    : Follows (link stop next xs) stop (xs.headD stop) xs := by
  induction xs generalizing next with
  | nil => rfl
  | cons x xs ih =>
    rw [List.nodup_cons] at hnodup
    refine ⟨rfl, ?_, ?_⟩
    . intro h
      apply hstop
      rw [← h]
      exact List.mem_cons_self
    . have hx : link stop next (x :: xs) x = xs.headD stop := by
        unfold link
        rw [link_of_not_mem hnodup.1]
        exact Function.update_self _ _ _
      have hhead : (x :: xs).headD stop = x := rfl
      rw [hhead, hx]
      exact ih hnodup.2 (fun h => hstop (List.mem_cons_of_mem x h))

end Chain
