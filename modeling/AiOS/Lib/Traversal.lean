import Mathlib

/-!
This module contains graphs whose nodes have numbered slots, the routes through them, and the
traversal that visits the slots of a node in order and goes down before it goes on.
-/

structure Slotted (ν κ : Type) where
  slots : List κ
  child : ν → κ → Option ν
  mem_slots : ∀ {n i m}, child n i = some m → i ∈ slots

namespace Slotted

variable {ν κ : Type} (G : Slotted ν κ) {n m : ν} {i : κ} {route route' : List κ}

def follow (n : ν) : List κ → Option ν
  | [] => some n
  | i :: route => (G.child n i).bind fun m => follow m route

@[simp]
theorem follow_nil : G.follow n [] = some n := by
  rfl

theorem follow_cons
    : G.follow n (i :: route) = (G.child n i).bind fun m => G.follow m route := by
  rfl

theorem follow_cons_eq_some_iff {k : ν}
    : G.follow n (i :: route) = some k ↔ ∃ m, G.child n i = some m ∧ G.follow m route = some k := by
  rw [follow_cons, Option.bind_eq_some_iff]

theorem follow_append
    : G.follow n (route ++ route') = (G.follow n route).bind fun m => G.follow m route' := by
  induction route generalizing n with
  | nil => rfl
  | cons i route ih =>
    rw [List.cons_append, follow_cons, follow_cons, Option.bind_assoc]
    congr 1
    funext m
    apply ih

theorem follow_concat_eq_some_iff {k : ν}
    : G.follow n (route ++ [i]) = some k ↔ ∃ m, G.follow n route = some m ∧ G.child m i = some k := by
  rw [follow_append, Option.bind_eq_some_iff]
  simp only [follow_cons_eq_some_iff, follow_nil, Option.some.injEq, exists_eq_right]

def Bounded (depth : Nat) (n : ν) : Prop :=
  ∀ route m, G.follow n route = some m → route.length ≤ depth

theorem Bounded.of_child {G : Slotted ν κ} {depth : Nat}
    (h : ∀ i m, G.child n i = some m → G.Bounded depth m)
    : G.Bounded (depth + 1) n := by
  intro route k hfollow
  cases route with
  | nil => exact Nat.zero_le _
  | cons i route =>
    rw [follow_cons_eq_some_iff] at hfollow
    rcases hfollow with ⟨m, hchild, hrest⟩
    rw [List.length_cons]
    exact Nat.succ_le_succ (h i m hchild route k hrest)

theorem Bounded.child {G : Slotted ν κ} {depth : Nat} (h : G.Bounded depth n)
    (hchild : G.child n i = some m)
    : 1 ≤ depth ∧ G.Bounded (depth - 1) m := by
  have hstep : ∀ route k, G.follow m route = some k → route.length + 1 ≤ depth := by
    intro route k hroute
    apply h (i :: route) k
    rw [follow_cons_eq_some_iff]
    exact ⟨m, hchild, hroute⟩
  constructor
  . apply hstep [] m rfl
  . intro route k hroute
    have := hstep route k hroute
    omega

variable (hit : ν → κ → Bool)

/--
The routes to the slots that are hits, as the traversal meets them: a slot before those below it.
-/
def hits (fuel : Nat) (n : ν) : List (List κ) :=
  match fuel with
  | 0 => []
  | fuel + 1 =>
    G.slots.flatMap fun i =>
      (if hit n i then [[i]] else []) ++
        ((G.child n i).elim [] fun m => (hits fuel m).map (i :: ·))

def hitsAt (fuel : Nat) (n : ν) (i : κ) : List (List κ) :=
  (if hit n i then [[i]] else []) ++
    ((G.child n i).elim [] fun m => (G.hits hit fuel m).map (i :: ·))

theorem hits_succ (fuel : Nat) (n : ν)
    : G.hits hit (fuel + 1) n = G.slots.flatMap (G.hitsAt hit fuel n) := by
  rfl

theorem mem_hitsAt {fuel : Nat}
    : route ∈ G.hitsAt hit fuel n i
        ↔
      (hit n i = true ∧ route = [i]) ∨
        ∃ m below, G.child n i = some m ∧ below ∈ G.hits hit fuel m ∧ route = i :: below := by
  unfold hitsAt
  rw [List.mem_append]
  apply or_congr
  . split
    . next h => simp [h]
    . next h => simp [h]
  . cases G.child n i with
    | none => simp
    | some m =>
      rw [Option.elim_some, List.mem_map]
      simp [eq_comm]

theorem exists_cons_of_mem_hitsAt {fuel : Nat} (h : route ∈ G.hitsAt hit fuel n i)
    : ∃ below, route = i :: below := by
  rw [mem_hitsAt] at h
  rcases h with ⟨_, hroute⟩ | ⟨m, below, _, _, hroute⟩
  . exact ⟨[], hroute⟩
  . exact ⟨below, hroute⟩

theorem ne_nil_of_mem_hits {fuel : Nat} (h : route ∈ G.hits hit fuel n) : route ≠ [] := by
  cases fuel with
  | zero => contradiction
  | succ fuel =>
    rw [hits_succ, List.mem_flatMap] at h
    rcases h with ⟨i, _, hroute⟩
    rcases G.exists_cons_of_mem_hitsAt hit hroute with ⟨below, heq⟩
    rw [heq]
    apply List.cons_ne_nil

/--
The traversal is complete and meets nothing else.
-/
theorem mem_hits {fuel : Nat}
    : route ∈ G.hits hit fuel n
        ↔
      ∃ above m i, route = above ++ [i] ∧ above.length < fuel ∧ G.follow n above = some m ∧
        i ∈ G.slots ∧ hit m i = true := by
  induction fuel generalizing n route with
  | zero =>
    constructor
    . intro h
      contradiction
    . intro ⟨above, m, i, _, hlt, _⟩
      omega
  | succ fuel ih =>
    simp only [hits_succ, List.mem_flatMap, mem_hitsAt, ih]
    constructor
    . rintro ⟨i, hi, ⟨hhit, hroute⟩ | ⟨m, below, hchild, hbelow, hroute⟩⟩
      . exact ⟨[], n, i, hroute, by simp, rfl, hi, hhit⟩
      . rcases hbelow with ⟨above, k, j, heq, hlt, hfollow, hj, hhit⟩
        refine ⟨i :: above, k, j, by rw [hroute, heq, List.cons_append], ?_, ?_, hj, hhit⟩
        . rw [List.length_cons]
          omega
        . rw [follow_cons_eq_some_iff]
          exact ⟨m, hchild, hfollow⟩
    . rintro ⟨above, m, i, hroute, hlt, hfollow, hi, hhit⟩
      cases above with
      | nil =>
        rw [follow_nil, Option.some.injEq] at hfollow
        rw [← hfollow] at hhit
        exact ⟨i, hi, Or.inl ⟨hhit, hroute⟩⟩
      | cons j above =>
        rw [follow_cons_eq_some_iff] at hfollow
        rw [List.length_cons] at hlt
        rcases hfollow with ⟨k, hchild, hfollow⟩
        refine ⟨j, G.mem_slots hchild, Or.inr ⟨k, above ++ [i], hchild, ?_, hroute⟩⟩
        exact ⟨above, m, i, rfl, by omega, hfollow, hi, hhit⟩

theorem pairwise_hits [LT κ] (hslots : G.slots.Pairwise (· < ·)) (fuel : Nat) (n : ν)
    : (G.hits hit fuel n).Pairwise (List.Lex (· < ·)) := by
  induction fuel generalizing n with
  | zero => apply List.Pairwise.nil
  | succ fuel ih =>
    rw [hits_succ, List.pairwise_flatMap]
    constructor
    . intro i _
      unfold hitsAt
      rw [List.pairwise_append]
      refine ⟨?_, ?_, ?_⟩
      . split
        . apply List.pairwise_singleton
        . apply List.Pairwise.nil
      . cases G.child n i with
        | none => apply List.Pairwise.nil
        | some m =>
          rw [Option.elim_some, List.pairwise_map]
          apply (ih m).imp
          intro route route' hlex
          apply List.Lex.cons hlex
      . intro route hroute route' hroute'
        split at hroute
        . cases hchild : G.child n i with
          | none =>
            rw [hchild] at hroute'
            contradiction
          | some m =>
            rw [hchild, Option.elim_some, List.mem_map] at hroute'
            rcases hroute' with ⟨below, hbelow, heq⟩
            rw [List.mem_singleton] at hroute
            rw [hroute, ← heq]
            apply List.Lex.cons
            rcases List.exists_cons_of_ne_nil (G.ne_nil_of_mem_hits hit hbelow) with ⟨j, rest, hcons⟩
            rw [hcons]
            apply List.Lex.nil
        . contradiction
    . apply hslots.imp
      intro i j hlt route hroute route' hroute'
      rcases G.exists_cons_of_mem_hitsAt hit hroute with ⟨below, heq⟩
      rcases G.exists_cons_of_mem_hitsAt hit hroute' with ⟨below', heq'⟩
      rw [heq, heq']
      apply List.Lex.rel hlt

theorem mem_hits_of_bounded {fuel depth : Nat} (hbound : G.Bounded depth n) (hfuel : depth < fuel)
    : route ∈ G.hits hit fuel n
        ↔
      ∃ above m i, route = above ++ [i] ∧ G.follow n above = some m ∧ i ∈ G.slots ∧
        hit m i = true := by
  rw [mem_hits]
  constructor
  . rintro ⟨above, m, i, hroute, _, hrest⟩
    exact ⟨above, m, i, hroute, hrest⟩
  . rintro ⟨above, m, i, hroute, hfollow, hrest⟩
    have hle := hbound above m hfollow
    exact ⟨above, m, i, hroute, by omega, hfollow, hrest⟩

end Slotted
