import Mathlib

/-!
This module contains numbers that are made of bit fields of fixed widths, the lowest one first.
-/

namespace Fields

abbrev Field : Type :=
  (w : Nat) × BitVec w

def pack : List Field → Nat
  | [] => 0
  | ⟨w, x⟩ :: fields => x.toNat + 2 ^ w * pack fields

def width : List Field → Nat
  | [] => 0
  | ⟨w, _⟩ :: fields => w + width fields

def extract (n start w : Nat) : Nat :=
  n / 2 ^ start % 2 ^ w

variable {w : Nat} {x : BitVec w} {fields : List Field}

theorem extract_pack_zero : extract (pack (⟨w, x⟩ :: fields)) 0 w = x.toNat := by
  unfold extract pack
  rw [Nat.pow_zero, Nat.div_one, Nat.add_mul_mod_self_left]
  apply Nat.mod_eq_of_lt x.isLt

theorem extract_pack_add (start v : Nat)
    : extract (pack (⟨w, x⟩ :: fields)) (w + start) v = extract (pack fields) start v := by
  unfold extract
  rw [Nat.pow_add, ← Nat.div_div_eq_div_mul]
  conv =>
    lhs
    unfold pack
  rw [Nat.add_mul_div_left _ _ (Nat.two_pow_pos w), Nat.div_eq_of_lt x.isLt, Nat.zero_add]

theorem extract_pack (front : List Field) (x : BitVec w) (fields : List Field)
    : extract (pack (front ++ ⟨w, x⟩ :: fields)) (width front) w = x.toNat := by
  induction front with
  | nil => exact extract_pack_zero
  | cons field front ih =>
    rw [List.cons_append]
    unfold width
    rw [extract_pack_add]
    exact ih

theorem extract_add (n start v w : Nat)
    : extract n start (v + w) = extract n start v + 2 ^ v * extract n (start + v) w := by
  unfold extract
  rw [Nat.pow_add, Nat.pow_add, ← Nat.div_div_eq_div_mul]
  apply Nat.mod_mul

theorem pack_lt (fields : List Field) : pack fields < 2 ^ width fields := by
  induction fields with
  | nil => exact Nat.one_pos
  | cons field fields ih =>
    rcases field with ⟨w, x⟩
    have := x.isLt
    have hle : 2 ^ w * (pack fields + 1) ≤ 2 ^ w * 2 ^ width fields := Nat.mul_le_mul_left _ ih
    unfold pack width
    rw [Nat.pow_add]
    rw [Nat.mul_add] at hle
    omega

end Fields
