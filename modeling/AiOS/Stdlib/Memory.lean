import AiOS.Lib.Moves
import AiOS.Stdlib.String

/-!
This module contains `memcpy` and `memmove` of `stdlib/string.c` as they work on a flat memory, where
the two ranges may overlap.
-/

namespace AiOS

abbrev FlatMemory : Type :=
  UInt32 → UInt8

def memcpy.flat (memory : FlatMemory) (dest src n : UInt32) : UInt32 × FlatMemory :=
  (dest,
    (List.range n.toNat).foldl
      (fun dstbuf i =>
        Function.update dstbuf (dest + UInt32.ofNat i) (dstbuf (src + UInt32.ofNat i)))
      memory)

-- the second loop counts `i` down from `n`, and copies byte `i - 1`
def memmove (memory : FlatMemory) (dest src n : UInt32) : UInt32 × FlatMemory :=
  if dest < src then
    (dest,
      (List.range n.toNat).foldl
        (fun dstbuf i =>
          Function.update dstbuf (dest + UInt32.ofNat i) (dstbuf (src + UInt32.ofNat i)))
        memory)
  else
    (dest,
      (List.range n.toNat).reverse.foldl
        (fun dstbuf i =>
          Function.update dstbuf (dest + UInt32.ofNat i) (dstbuf (src + UInt32.ofNat i)))
        memory)

namespace FlatMemory

def Fits (start n : UInt32) : Prop :=
  start.toNat + n.toNat ≤ 2 ^ 32

def Apart (dest src n : UInt32) : Prop :=
  dest.toNat + n.toNat ≤ src.toNat ∨ src.toNat + n.toNat ≤ dest.toNat

/--
The bytes that were at `src` are at `dest`, and no other byte has changed.
-/
structure Copied (dest src n : UInt32) (memory memory' : FlatMemory) : Prop where
  copied : ∀ i < n, memory' (dest + i) = memory (src + i)
  kept : ∀ a, (∀ i < n, a ≠ dest + i) → memory' a = memory a

def moves (dest src : UInt32) (indices : List Nat) : List (UInt32 × UInt32) :=
  indices.map fun i => (dest + UInt32.ofNat i, src + UInt32.ofNat i)

variable {memory : FlatMemory} {dest src n : UInt32}

theorem toNat_add_ofNat (h : Fits dest n) {i : Nat} (hi : i < n.toNat)
    : (dest + UInt32.ofNat i).toNat = dest.toNat + i := by
  have hn := n.toNat_lt
  unfold Fits at h
  rw [UInt32.toNat_add, UInt32.toNat_ofNat']
  omega

theorem copied_of_ordered {indices : List Nat} (hindices : ∀ i, i ∈ indices ↔ i < n.toNat)
    (h : Moves.Ordered (moves dest src indices))
    : Copied dest src n memory (Moves.run memory (moves dest src indices)) := by
  constructor
  . intro i hi
    rw [UInt32.lt_iff_toNat_lt] at hi
    have hmem : (dest + i, src + i) ∈ moves dest src indices := by
      unfold moves
      rw [List.mem_map]
      refine ⟨i.toNat, (hindices _).mpr hi, ?_⟩
      rw [UInt32.ofNat_toNat]
    apply Moves.run_of_mem h hmem
  . intro a ha
    apply Moves.run_of_ne
    intro move hmove
    unfold moves at hmove
    rw [List.mem_map] at hmove
    rcases hmove with ⟨i, hi, rfl⟩
    have hlt := (hindices i).mp hi
    apply ha
    rw [UInt32.lt_iff_toNat_lt, UInt32.toNat_ofNat_of_lt' (Nat.lt_trans hlt n.toNat_lt)]
    exact hlt

theorem ordered_up (hdest : Fits dest n) (hsrc : Fits src n)
    (h : dest.toNat ≤ src.toNat ∨ Apart dest src n)
    : Moves.Ordered (moves dest src (List.range n.toNat)) := by
  unfold Moves.Ordered moves
  rw [List.pairwise_map]
  apply List.Pairwise.imp_of_mem _ List.pairwise_lt_range
  intro i j hi hj hlt
  rw [List.mem_range] at hi hj
  dsimp only
  rw [ne_eq, ne_eq, ← UInt32.toNat_inj, ← UInt32.toNat_inj, toNat_add_ofNat hdest hi,
    toNat_add_ofNat hdest hj, toNat_add_ofNat hsrc hj]
  unfold Apart at h
  omega

theorem ordered_down (hdest : Fits dest n) (hsrc : Fits src n) (h : src.toNat ≤ dest.toNat)
    : Moves.Ordered (moves dest src (List.range n.toNat).reverse) := by
  unfold Moves.Ordered moves
  rw [List.pairwise_map, List.pairwise_reverse]
  apply List.Pairwise.imp_of_mem _ List.pairwise_lt_range
  intro i j hi hj hlt
  rw [List.mem_range] at hi hj
  dsimp only
  rw [ne_eq, ne_eq, ← UInt32.toNat_inj, ← UInt32.toNat_inj, toNat_add_ofNat hdest hi,
    toNat_add_ofNat hdest hj, toNat_add_ofNat hsrc hi]
  omega

end FlatMemory

open FlatMemory

variable {dest src n : UInt32}

theorem memcpy.flat_eq (memory : FlatMemory)
    : (memcpy.flat memory dest src n).2
        =
      Moves.run memory (moves dest src (List.range n.toNat)) := by
  unfold memcpy.flat Moves.run moves
  rw [List.foldl_map]

theorem memmove_of_lt (memory : FlatMemory) (h : dest < src)
    : (memmove memory dest src n).2
        =
      Moves.run memory (moves dest src (List.range n.toNat)) := by
  unfold memmove Moves.run moves
  rw [if_pos h, List.foldl_map]

theorem memmove_of_not_lt (memory : FlatMemory) (h : ¬ dest < src)
    : (memmove memory dest src n).2
        =
      Moves.run memory (moves dest src (List.range n.toNat).reverse) := by
  unfold memmove Moves.run moves
  rw [if_neg h, List.foldl_map]

theorem memcpy.flat_copied (memory : FlatMemory) (hdest : Fits dest n) (hsrc : Fits src n)
    (h : dest ≤ src ∨ FlatMemory.Apart dest src n)
    : Copied dest src n memory (memcpy.flat memory dest src n).2 := by
  rw [memcpy.flat_eq]
  apply copied_of_ordered (fun i => List.mem_range)
  apply ordered_up hdest hsrc
  rw [UInt32.le_iff_toNat_le] at h
  exact h

/--
`memmove` copies however the ranges overlap, and `memcpy` where it copies down or they are apart.
-/
theorem memmove_copied (memory : FlatMemory) (hdest : Fits dest n) (hsrc : Fits src n)
    : Copied dest src n memory (memmove memory dest src n).2 ∧
      (dest ≤ src ∨ FlatMemory.Apart dest src n →
        Copied dest src n memory (memcpy.flat memory dest src n).2) := by
  constructor
  . by_cases hlt : dest < src
    . rw [memmove_of_lt memory hlt]
      apply copied_of_ordered (fun i => List.mem_range)
      apply ordered_up hdest hsrc
      rw [UInt32.lt_iff_toNat_lt] at hlt
      exact Or.inl (Nat.le_of_lt hlt)
    . rw [memmove_of_not_lt memory hlt]
      apply copied_of_ordered (fun i => by rw [List.mem_reverse, List.mem_range])
      apply ordered_down hdest hsrc
      rw [UInt32.lt_iff_toNat_lt] at hlt
      omega
  . intro h
    apply memcpy.flat_copied memory hdest hsrc h

theorem memmove_copied_overlap
    : let memory : FlatMemory := fun a => a.toUInt8
      Copied 0x102 0x100 5 memory (memmove memory 0x102 0x100 5).2 ∧
        Copied 0x100 0x102 5 memory (memmove memory 0x100 0x102 5).2 ∧
        Copied 0x100 0x102 5 memory (memcpy.flat memory 0x100 0x102 5).2 := by
  have hup : Fits 0x100 5 := by
    unfold Fits
    decide
  have hdown : Fits 0x102 5 := by
    unfold Fits
    decide
  refine ⟨(memmove_copied _ hdown hup).1, (memmove_copied _ hup hdown).1, ?_⟩
  exact (memmove_copied _ hup hdown).2 (Or.inl (by decide))

end AiOS
