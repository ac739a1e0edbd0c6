import Mathlib

/-!
This module contains the value of decimal digits, the most significant one first, and how it compares
with their product.
-/

namespace Decimal

def value (digits : List Nat) : Nat :=
  Nat.ofDigits 10 digits.reverse

variable {digits : List Nat} {d : Nat}

@[simp]
theorem value_nil : value [] = 0 := by
  rfl

theorem value_cons (d : Nat) (digits : List Nat)
    : value (d :: digits) = d * 10 ^ digits.length + value digits := by
  unfold value
  rw [List.reverse_cons, Nat.ofDigits_append, List.length_reverse, Nat.ofDigits_singleton]
  rw [Nat.mul_comm, Nat.add_comm]

theorem value_digits (n : Nat) : value (Nat.digits 10 n).reverse = n := by
  unfold value
  rw [List.reverse_reverse, Nat.ofDigits_digits]

theorem value_eq_zero_iff : value digits = 0 ↔ ∀ d ∈ digits, d = 0 := by
  induction digits with
  | nil => simp
  | cons d digits ih =>
    rw [value_cons, Nat.add_eq_zero_iff, ih, List.forall_mem_cons]
    simp

theorem prod_le (h : ∀ d ∈ digits, d < 10) : digits.prod ≤ 9 ^ digits.length := by
  apply List.prod_le_pow_card
  intro d hd
  have := h d hd
  omega

theorem prod_le_value (hne : digits ≠ []) (h : ∀ d ∈ digits, d < 10)
    : digits.prod ≤ value digits := by
  cases digits with
  | nil => contradiction
  | cons d digits =>
    rw [List.forall_mem_cons] at h
    have hprod := prod_le h.2
    have hpow : 9 ^ digits.length ≤ 10 ^ digits.length := Nat.pow_le_pow_left (by decide) _
    have hmul : d * digits.prod ≤ d * 10 ^ digits.length :=
      Nat.mul_le_mul_left d (Nat.le_trans hprod hpow)
    rw [List.prod_cons, value_cons]
    omega

theorem prod_lt_value (hd : d ≠ 0) (hne : digits ≠ []) (h : ∀ d ∈ digits, d < 10)
    : (d :: digits).prod < value (d :: digits) := by
  have hlen : digits.length ≠ 0 := by
    rw [ne_eq, List.length_eq_zero_iff]
    exact hne
  have hpow : 9 ^ digits.length < 10 ^ digits.length := Nat.pow_lt_pow_left (by decide) hlen
  have hmul : d * digits.prod < d * 10 ^ digits.length := by
    apply Nat.mul_lt_mul_of_pos_left
    . exact Nat.lt_of_le_of_lt (prod_le h) hpow
    . omega
  rw [List.prod_cons, value_cons]
  omega

/--
Multiplied, digits give their value for a single digit and for zeros alone.
-/
theorem prod_eq_value_iff (hne : digits ≠ []) (h : ∀ d ∈ digits, d < 10)
    : digits.prod = value digits ↔ digits.length = 1 ∨ ∀ d ∈ digits, d = 0 := by
  cases digits with
  | nil => contradiction
  | cons d digits =>
    rw [List.forall_mem_cons] at h
    constructor
    . intro heq
      by_cases hd : d = 0
      . rw [hd, List.prod_cons, Nat.zero_mul, eq_comm, value_eq_zero_iff] at heq
        right
        rw [hd]
        exact heq
      . left
        by_contra hlen
        have hrest : digits ≠ [] := by
          intro hnil
          rw [hnil] at hlen
          exact hlen rfl
        have hlt := prod_lt_value hd hrest h.2
        omega
    . intro hcases
      rcases hcases with hlen | hzero
      . rw [List.length_cons, Nat.add_eq_right, List.length_eq_zero_iff] at hlen
        rw [hlen, List.prod_cons, value_cons]
        simp
      . rw [value_eq_zero_iff.mpr hzero, List.prod_cons, hzero d List.mem_cons_self, Nat.zero_mul]

end Decimal
