import Mathlib

/-!
This module contains searches for a slot: in a list of slots in order, and in a table of slots that
are used or not, with the number of those that are and with their owners.
-/

namespace Slots

theorem find?_eq_some_iff {α : Type} [Preorder α] {l : List α} {p : α → Bool} {a : α}
    (h : l.Pairwise (· < ·))
    : l.find? p = some a ↔ a ∈ l ∧ p a = true ∧ ∀ b ∈ l, b < a → p b = false := by
  induction l with
  | nil => simp
  | cons x l ih =>
    rw [List.pairwise_cons] at h
    cases hx : p x with
    | true =>
      rw [List.find?_cons_of_pos hx, Option.some.injEq]
      constructor
      . intro heq
        subst heq
        refine ⟨List.mem_cons_self, hx, ?_⟩
        intro b hb hlt
        rcases List.mem_cons.mp hb with rfl | hmem
        . exact absurd hlt (lt_irrefl _)
        . exact absurd (h.1 b hmem) (lt_asymm hlt)
      . intro ⟨hmem, _, hfirst⟩
        rcases List.mem_cons.mp hmem with rfl | hmem
        . rfl
        . have hfalse := hfirst x List.mem_cons_self (h.1 a hmem)
          rw [hx] at hfalse
          contradiction
    | false =>
      rw [List.find?_cons_of_neg (by simp [hx]), ih h.2]
      constructor
      . intro ⟨hmem, ha, hfirst⟩
        refine ⟨List.mem_cons_of_mem _ hmem, ha, ?_⟩
        intro b hb hlt
        rcases List.mem_cons.mp hb with rfl | hb
        . exact hx
        . apply hfirst b hb hlt
      . intro ⟨hmem, ha, hfirst⟩
        rcases List.mem_cons.mp hmem with rfl | hmem
        . rw [hx] at ha
          contradiction
        . refine ⟨hmem, ha, ?_⟩
          intro b hb hlt
          apply hfirst b (List.mem_cons_of_mem _ hb) hlt

variable {n : Nat} (used : Fin n → Bool)

def free : Option (Fin n) :=
  Fin.find? fun i => !used i

def Filled (k : Nat) : Prop :=
  ∀ i, used i = true ↔ i.val < k

def count : Nat :=
  (Finset.univ.filter fun i => used i = true).card

variable {used} {k : Nat} {i : Fin n}

theorem used_of_free (h : free used = some i) : used i = false := by
  unfold free at h
  rw [Fin.find?_eq_some_iff] at h
  simpa using h.1

theorem free_eq_none_iff : free used = none ↔ ∀ i, used i = true := by
  unfold free
  rw [Fin.find?_eq_none_iff]
  simp

theorem Filled.free_eq (h : Filled used k) (hk : k < n) : free used = some ⟨k, hk⟩ := by
  unfold free
  rw [Fin.find?_eq_some_iff]
  constructor
  . have hnot : ¬ used ⟨k, hk⟩ = true := by
      rw [h]
      dsimp
      omega
    simpa using hnot
  . intro j hj
    have hused : used j = true := (h j).mpr hj
    simp [hused]

theorem Filled.take (h : Filled used k) (hk : k < n)
    : Filled (Function.update used ⟨k, hk⟩ true) (k + 1) := by
  intro j
  by_cases hj : j = ⟨k, hk⟩
  . rw [hj]
    simp
  . have hne : j.val ≠ k := by
      intro heq
      apply hj
      apply Fin.ext heq
    rw [Function.update_of_ne hj, h j]
    omega

theorem filled_zero (h : ∀ i, used i = false) : Filled used 0 := by
  intro i
  rw [h i]
  simp

theorem count_of_free (h : ∀ i, used i = false) : count used = 0 := by
  unfold count
  rw [Finset.card_eq_zero, Finset.filter_eq_empty_iff]
  intro i _
  simp [h i]

theorem exists_free_of_count (h : count used < n) : ∃ i, free used = some i := by
  cases hfree : free used with
  | some i => exact ⟨i, rfl⟩
  | none =>
    rw [free_eq_none_iff] at hfree
    unfold count at h
    rw [Finset.filter_true_of_mem (fun i _ => hfree i), Finset.card_univ, Fintype.card_fin] at h
    omega

theorem count_take (h : used i = false)
    : count (Function.update used i true) = count used + 1 := by
  have hinsert : (Finset.univ.filter fun j => Function.update used i true j = true)
      = insert i (Finset.univ.filter fun j => used j = true) := by
    ext j
    by_cases hj : j = i
    . simp [hj]
    . simp [hj]
  unfold count
  rw [hinsert, Finset.card_insert_of_notMem]
  simp [h]

theorem count_release (h : used i = true)
    : count (Function.update used i false) + 1 = count used := by
  have hback : Function.update (Function.update used i false) i true = used := by
    rw [Function.update_idem, ← h, Function.update_eq_self]
  rw [← count_take, hback]
  simp

theorem release_of_free (h : used i = false) : Function.update used i false = used := by
  rw [← h, Function.update_eq_self]

theorem count_release_le (used : Fin n → Bool) (i : Fin n)
    : count (Function.update used i false) ≤ count used := by
  cases hi : used i with
  | true =>
    rw [← count_release hi]
    omega
  | false => rw [release_of_free hi]

theorem count_unused (used : Fin n → Bool)
    : (Finset.univ.filter fun i => used i = false).card + count used = n := by
  have hcard := Finset.card_filter_add_card_filter_not (s := Finset.univ) fun i => used i = true
  rw [Finset.card_univ, Fintype.card_fin] at hcard
  simp only [Bool.not_eq_true] at hcard
  unfold count
  omega

structure Owned {κ : Type} (owns : κ → Fin n → Prop) (used : Fin n → Bool) : Prop where
  used_of_owns : ∀ {k i}, owns k i → used i = true
  unique : ∀ {k l i}, owns k i → owns l i → k = l

namespace Owned

variable {κ : Type} {owns owns' : κ → Fin n → Prop} {k : κ}

theorem mono (h : Owned owns used) (hle : ∀ l j, owns' l j → owns l j) : Owned owns' used where
  used_of_owns hown := h.used_of_owns (hle _ _ hown)
  unique hown hown' := h.unique (hle _ _ hown) (hle _ _ hown')

theorem take (h : Owned owns used) (hfree : used i = false)
    (hle : ∀ l j, owns' l j → owns l j ∨ l = k ∧ j = i)
    : Owned owns' (Function.update used i true) where
  used_of_owns hown := by
    rw [Function.update_apply]
    split
    . rfl
    . next hj =>
      cases hle _ _ hown with
      | inl hown => apply h.used_of_owns hown
      | inr heq => exact absurd heq.2 hj
  unique {l m j} hown hown' := by
    have hnot : ∀ l, ¬ owns l i := by
      intro l hown
      have hused := h.used_of_owns hown
      rw [hfree] at hused
      contradiction
    rcases hle _ _ hown with hold | ⟨rfl, hj⟩
    . rcases hle _ _ hown' with hold' | ⟨rfl, rfl⟩
      . apply h.unique hold hold'
      . exact absurd hold (hnot _)
    . rcases hle _ _ hown' with hold' | ⟨rfl, _⟩
      . rw [hj] at hold'
        exact absurd hold' (hnot _)
      . rfl

theorem release (h : Owned owns used) (hown : owns k i)
    (hle : ∀ l j, owns' l j → owns l j ∧ l ≠ k)
    : Owned owns' (Function.update used i false) where
  used_of_owns {l j} hown' := by
    rcases hle _ _ hown' with ⟨hold, hne⟩
    have hj : j ≠ i := by
      intro hj
      rw [hj] at hold
      apply hne (h.unique hold hown)
    rw [Function.update_of_ne hj]
    apply h.used_of_owns hold
  unique hown hown' := h.unique (hle _ _ hown).1 (hle _ _ hown').1

end Owned
end Slots
