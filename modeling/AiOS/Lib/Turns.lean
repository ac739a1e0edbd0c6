import Mathlib

/-!
This module contains turns around a cycle: the order in which the members of a finite cycle follow
one of them, what a step to the next member does to it, and what a sequence of turns visits.
-/

namespace Turns

section

variable {n : Nat} [NeZero n]

def after (r : Fin n) : List (Fin n) :=
  (List.finRange n).map fun k => k + 1 + r

def order (p : Fin n → Bool) (r : Fin n) : List (Fin n) :=
  (after r).filter p

variable {p : Fin n → Bool} {r k i : Fin n}

@[simp]
theorem length_after : (after r).length = n := by
  simp [after]

theorem getElem_after {j : Nat} (hj : j < (after r).length)
    : (after r)[j] = ⟨j, by simpa using hj⟩ + 1 + r := by
  simp [after]

theorem nodup_after : (after r).Nodup := by
  unfold after
  rw [List.nodup_map_iff]
  . apply List.nodup_finRange
  . intro k l h
    apply add_right_cancel (add_right_cancel h)

theorem mem_after : i ∈ after r := by
  unfold after
  rw [List.mem_map]
  refine ⟨i - r - 1, List.mem_finRange _, ?_⟩
  rw [sub_add_cancel, sub_add_cancel]

theorem nodup_order : (order p r).Nodup := by
  apply nodup_after.filter

theorem mem_order : i ∈ order p r ↔ p i = true := by
  unfold order
  rw [List.mem_filter, and_iff_right mem_after]

theorem after_add (r c : Fin n) : after (r + c) = (after r).rotate c := by
  apply List.ext_getElem
  . simp
  . intro j hj hj'
    rw [List.getElem_rotate, getElem_after, getElem_after]
    have hlt : (j + c.val) % (after r).length < n := by
      rw [length_after]
      apply Nat.mod_lt _ (Nat.pos_of_neZero n)
    have hsum : (⟨j, by simpa using hj⟩ : Fin n) + c = ⟨(j + c.val) % (after r).length, hlt⟩ := by
      apply Fin.ext
      rw [Fin.val_add]
      simp
    rw [← hsum]
    abel

theorem after_step (r k : Fin n) : after (k + 1 + r) = (after r).rotate (k.val + 1) := by
  have hval : (k + 1).val = (k.val + 1) % (after r).length := by
    rw [Fin.val_add, Fin.val_one', Nat.add_mod_mod, length_after]
  rw [add_comm (k + 1) r, after_add, hval, List.rotate_mod]

theorem after_cut (r k : Fin n)
    : ∃ seen rest, after r = seen ++ (k + 1 + r) :: rest ∧
        after (k + 1 + r) = rest ++ (seen ++ [k + 1 + r]) ∧ ∀ i ∈ seen, ∃ j < k, j + 1 + r = i := by
  have hk : k.val < (after r).length := by simp
  have hget : (after r)[k.val] = k + 1 + r := by rw [getElem_after]
  have hcut : after r = (after r).take k ++ (k + 1 + r) :: (after r).drop (k + 1) := by
    rw [← hget, ← List.drop_eq_getElem_cons hk, List.take_append_drop]
  refine ⟨(after r).take k, (after r).drop (k + 1), hcut, ?_, ?_⟩
  . generalize (after r).drop (k + 1) = rest at hcut
    have hlength : k.val + 1 = ((after r).take k ++ [k + 1 + r]).length := by
      rw [List.length_append, List.length_take, length_after, List.length_singleton]
      omega
    rw [after_step, hlength]
    generalize (after r).take k = seen at hcut
    rw [hcut, List.append_cons]
    apply List.rotate_append_length_eq
  . intro i hi
    rw [List.mem_take_iff_getElem] at hi
    rcases hi with ⟨j, hj, hi⟩
    rw [getElem_after] at hi
    refine ⟨_, ?_, hi⟩
    rw [Fin.lt_def]
    dsimp only
    omega

theorem order_of_first (hk : p (k + 1 + r) = true) (hbefore : ∀ j < k, p (j + 1 + r) = false)
    : ∃ rest, order p r = (k + 1 + r) :: rest ∧ order p (k + 1 + r) = rest ++ [k + 1 + r] := by
  rcases after_cut r k with ⟨seen, rest, hcut, hafter, hseen⟩
  have hnone : seen.filter p = [] := by
    rw [List.filter_eq_nil_iff]
    intro i hi
    rcases hseen i hi with ⟨j, hj, hi⟩
    rw [← hi, hbefore j hj]
    simp
  refine ⟨rest.filter p, ?_, ?_⟩
  . unfold order
    rw [hcut, List.filter_append, hnone, List.filter_cons_of_pos hk]
    rfl
  . unfold order
    rw [hafter, List.filter_append, List.filter_append, hnone]
    simp [hk]

/--
How many turns it takes from `r` to the member `i` if no member is left out: one to the member that
follows `r`, and `n` to `r` itself.
-/
def distance (r i : Fin n) : Nat :=
  (i - r - 1).val + 1

theorem distance_le : distance r i ≤ n := by
  apply Fin.isLt

theorem distance_pos : 0 < distance r i := by
  apply Nat.succ_pos

theorem distance_step (hk : k < i - r - 1) : distance (k + 1 + r) i < distance r i := by
  have hval : (k + 1).val = k.val + 1 := by
    rw [Fin.val_add_one_of_lt' (by omega)]
  have hle : k + 1 ≤ i - r - 1 := by
    rw [Fin.le_def, hval]
    exact hk
  have hsub : i - (k + 1 + r) - 1 = i - r - 1 - (k + 1) := by abel
  unfold distance
  rw [hsub, Fin.sub_val_of_le hle, hval]
  omega

end

section

variable {α : Type} {members visited : List α}

/--
The visits go through the members in order, over and over.
-/
def Follows (members visited : List α) : Prop :=
  ∀ j < visited.length, visited[j]? = members[j % members.length]?

theorem follows_nil : Follows members [] := by
  intro j hj
  contradiction

theorem Follows.concat {a : α} {rest : List α} (h : Follows members visited)
    (hnext : members.rotate visited.length = a :: rest)
    : Follows members (visited ++ [a]) := by
  have hpos : 0 < members.length := by
    rw [← List.length_rotate members visited.length, hnext]
    simp
  intro j hj
  rw [List.length_append, List.length_singleton] at hj
  by_cases hlast : j = visited.length
  . have hhead := List.head?_rotate (Nat.mod_lt visited.length hpos)
    rw [List.rotate_mod, hnext] at hhead
    rw [hlast, ← hhead]
    simp
  . rw [List.getElem?_append_left (by omega)]
    apply h j (by omega)

theorem Follows.window_eq {k : Nat} (h : Follows members visited)
    (hk : k + members.length ≤ visited.length)
    : (visited.drop k).take members.length = members.rotate k := by
  apply List.ext_getElem
  . rw [List.length_take, List.length_drop, List.length_rotate]
    omega
  . intro j hj hj'
    rw [List.length_rotate] at hj'
    have hvisit := h (k + j) (by omega)
    rw [List.getElem_take, List.getElem_drop, List.getElem_rotate]
    have hmod : (k + j) % members.length < members.length := Nat.mod_lt _ (by omega)
    rw [List.getElem?_eq_getElem (by omega), List.getElem?_eq_getElem hmod] at hvisit
    injection hvisit with hvisit
    rw [hvisit]
    simp only [Nat.add_comm]

theorem Follows.window_perm {k : Nat} (h : Follows members visited)
    (hk : k + members.length ≤ visited.length)
    : ((visited.drop k).take members.length).Perm members := by
  rw [h.window_eq hk]
  apply List.rotate_perm

end
end Turns
