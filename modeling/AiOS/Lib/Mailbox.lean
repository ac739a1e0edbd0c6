import Mathlib

/-!
This module contains boxes that hold one value: a put into a full box is dropped, a take empties the
box.
-/

namespace Mailbox

variable {α : Type}

inductive Use (α : Type) where
  | put (a : α)
  | take

def next (box : Option α) (use : Use α) : Option α :=
  match use with
  | .put a => box.or (some a)
  | .take => none

def contents (uses : List (Use α)) : Option α :=
  uses.foldl next none

def Use.offer (use : Use α) : Option α :=
  match use with
  | .put a => some a
  | .take => none

def offered (uses : List (Use α)) : List α :=
  uses.filterMap Use.offer

def since (uses : List (Use α)) : List α :=
  uses.foldl (fun values use => match use with
    | .put a => values ++ [a]
    | .take => []) []

def taken (uses : List (Use α)) : List α :=
  go none uses
where
  go (box : Option α) : List (Use α) → List α
    | [] => []
    | .put a :: uses => go (next box (.put a)) uses
    | .take :: uses => box.toList ++ go none uses

theorem contents_concat (uses : List (Use α)) (use : Use α)
    : contents (uses ++ [use]) = next (contents uses) use := by
  unfold contents
  rw [List.foldl_concat]

theorem since_concat_put (uses : List (Use α)) (a : α)
    : since (uses ++ [.put a]) = since uses ++ [a] := by
  unfold since
  rw [List.foldl_concat]

theorem since_concat_take (uses : List (Use α)) : since (uses ++ [.take]) = [] := by
  unfold since
  rw [List.foldl_concat]

theorem contents_eq_head?_since (uses : List (Use α)) : contents uses = (since uses).head? := by
  induction uses using List.reverseRecOn with
  | nil => rfl
  | append_singleton uses use ih =>
    rw [contents_concat, ih]
    cases use with
    | put a =>
      rw [since_concat_put]
      unfold next
      rw [List.head?_append]
      rfl
    | take =>
      rw [since_concat_take]
      rfl

theorem taken.go_sublist (box : Option α) (uses : List (Use α))
    : (go box uses).Sublist (box.toList ++ offered uses) := by
  induction uses generalizing box with
  | nil => apply List.nil_sublist
  | cons use uses ih =>
    cases use with
    | put a =>
      apply (ih _).trans
      cases box with
      | none => apply List.Sublist.refl
      | some b =>
        apply List.Sublist.cons_cons
        apply List.sublist_cons_self
    | take =>
      unfold go
      apply List.Sublist.append_left
      apply ih

theorem taken_sublist_offered (uses : List (Use α)) : (taken uses).Sublist (offered uses) := by
  apply taken.go_sublist

end Mailbox
