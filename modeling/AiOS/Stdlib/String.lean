import Mathlib

/-!
This module contains `memcmp`, `memcpy` and `memset` of `stdlib/string.c`: for the byte arrays that
the file system and the process table compare and copy, and for the memory of the console.
-/

namespace AiOS

def memcmp {n : Nat} (s1 s2 : Fin n → UInt8) : Int :=
  go (List.finRange n)
where
  go : List (Fin n) → Int
    | [] => 0
    | i :: is =>
      if s1 i < s2 i then
        -1
      else if s1 i > s2 i then
        1
      else
        go is

theorem memcmp.go_eq_zero_iff {n : Nat} (s1 s2 : Fin n → UInt8) (is : List (Fin n))
    : go s1 s2 is = 0 ↔ ∀ i ∈ is, s1 i = s2 i := by
  induction is with
  | nil => simp [go]
  | cons i is ih =>
    unfold go
    rw [List.forall_mem_cons]
    split
    . next hlt =>
      have hne : s1 i ≠ s2 i := UInt8.ne_of_lt hlt
      simp [hne]
    . split
      . next hgt =>
        have hne : s1 i ≠ s2 i := (UInt8.ne_of_lt hgt).symm
        simp [hne]
      . next hle hge =>
        have heq : s1 i = s2 i := UInt8.le_antisymm (UInt8.not_lt.mp hge) (UInt8.not_lt.mp hle)
        rw [ih]
        simp [heq]

@[simp]
theorem memcmp_eq_zero_iff {n : Nat} (s1 s2 : Fin n → UInt8) : memcmp s1 s2 = 0 ↔ s1 = s2 := by
  unfold memcmp
  rw [memcmp.go_eq_zero_iff]
  constructor
  . intro h
    funext i
    exact h i (List.mem_finRange i)
  . intro h i _
    rw [h]

-- the copied bytes are the whole of `src`, the rest of `dest` stays
def memcpy {n m : Nat} (dest : Fin n → UInt8) (src : Fin m → UInt8) : Fin n → UInt8 :=
  fun k => if h : k.val < m then src ⟨k, h⟩ else dest k

/--
The same loop where `dest` and `src` are addresses of one memory, so that the two may overlap.
-/
def memcpy.within (memory : Nat → UInt8) (dest src n : Nat) : Nat → UInt8 :=
  (List.range n).foldl (fun dstbuf i => Function.update dstbuf (dest + i) (dstbuf (src + i))) memory

def memset (memory : Nat → UInt8) (s : Nat) (c : UInt8) (n : Nat) : Nat → UInt8 :=
  (List.range n).foldl (fun buf i => Function.update buf (s + i) c) memory

theorem memcpy.within_of_le (memory : Nat → UInt8) {dest src : Nat} (n : Nat) (h : dest ≤ src)
    (k : Nat)
    : within memory dest src n k
        =
      if dest ≤ k ∧ k < dest + n then memory (src + (k - dest)) else memory k := by
  unfold within
  induction n generalizing k with
  | zero =>
    rw [if_neg (by omega)]
    rfl
  | succ n ih =>
    rw [List.range_succ, List.foldl_concat, Function.update_apply]
    split
    . next heq =>
      rw [ih, if_neg (by omega), if_pos (by omega)]
      congr 1
      omega
    . next hne =>
      rw [ih]
      congr 1
      apply propext
      omega

theorem memset_apply (memory : Nat → UInt8) (s : Nat) (c : UInt8) (n k : Nat)
    : memset memory s c n k = if s ≤ k ∧ k < s + n then c else memory k := by
  unfold memset
  induction n with
  | zero =>
    rw [if_neg (by omega)]
    rfl
  | succ n ih =>
    rw [List.range_succ, List.foldl_concat, Function.update_apply]
    split
    . rw [if_pos (by omega)]
    . rw [ih]
      congr 1
      apply propext
      omega

end AiOS
