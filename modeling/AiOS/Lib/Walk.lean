import Mathlib

/-!
This module contains walks through a graph along a list of labels. A step goes on to a node or ends
the walk. The graph may allow several steps, or none, and a lookup picks one.
-/

variable {ν κ ε : Type}

inductive Walk (step : ν → κ → ν ⊕ ε → Prop) : ν → List κ → ν ⊕ ε → Prop where
  | nil {n : ν} : Walk step n [] (.inl n)
  | next {n m : ν} {l : κ} {ls : List κ} {r : ν ⊕ ε} :
      step n l (.inl m) → Walk step m ls r → Walk step n (l :: ls) r
  | stop {n : ν} {l : κ} {ls : List κ} {e : ε} : step n l (.inr e) → Walk step n (l :: ls) (.inr e)

namespace Walk

def follow (look : ν → κ → ν ⊕ ε) (n : ν) : List κ → ν ⊕ ε
  | [] => .inl n
  | l :: ls =>
    match look n l with
    | .inl m => follow look m ls
    | .inr e => .inr e

variable {step : ν → κ → ν ⊕ ε → Prop} {look : ν → κ → ν ⊕ ε} {n m : ν} {l : κ} {ls : List κ}
  {r : ν ⊕ ε} {e : ε}

theorem follow_of_next (h : look n l = .inl m) : follow look n (l :: ls) = follow look m ls := by
  unfold follow
  rw [h]
  cases ls with
  | nil => rfl
  | cons l ls => rfl

theorem follow_of_stop (h : look n l = .inr e) : follow look n (l :: ls) = .inr e := by
  unfold follow
  rw [h]

theorem follow_singleton : follow look n [l] = look n l := by
  cases h : look n l with
  | inl m =>
    rw [follow_of_next h]
    rfl
  | inr e => rw [follow_of_stop h]

theorem follow_append {ls' : List κ} (h : follow look n ls = .inl m)
    : follow look n (ls ++ ls') = follow look m ls' := by
  induction ls generalizing n with
  | nil =>
    have heq : n = m := Sum.inl.inj h
    rw [heq]
    rfl
  | cons l ls ih =>
    cases hlook : look n l with
    | inl k =>
      rw [follow_of_next hlook] at h
      rw [List.cons_append, follow_of_next hlook]
      exact ih h
    | inr e =>
      rw [follow_of_stop hlook] at h
      contradiction

theorem follow_append_of_stop {ls' : List κ} (h : follow look n ls = .inr e)
    : follow look n (ls ++ ls') = .inr e := by
  induction ls generalizing n with
  | nil => contradiction
  | cons l ls ih =>
    cases hlook : look n l with
    | inl k =>
      rw [follow_of_next hlook] at h
      rw [List.cons_append, follow_of_next hlook]
      exact ih h
    | inr e' =>
      rw [follow_of_stop hlook] at h
      rw [List.cons_append, follow_of_stop hlook, h]

theorem nil_iff : Walk step n [] r ↔ r = .inl n := by
  constructor
  . intro h
    cases h with
    | nil => rfl
  . intro h
    rw [h]
    apply nil

theorem cons_iff
    : Walk step n (l :: ls) r
        ↔
      (∃ m, step n l (.inl m) ∧ Walk step m ls r) ∨ ∃ e, step n l (.inr e) ∧ r = .inr e := by
  constructor
  . intro h
    cases h with
    | next hstep hrest => exact Or.inl ⟨_, hstep, hrest⟩
    | stop hstep => exact Or.inr ⟨_, hstep, rfl⟩
  . intro h
    rcases h with ⟨m, hstep, hrest⟩ | ⟨e, hstep, rfl⟩
    . apply next hstep hrest
    . apply stop hstep

theorem singleton_iff : Walk step n [l] r ↔ step n l r := by
  rw [cons_iff]
  constructor
  . intro h
    rcases h with ⟨m, hstep, hrest⟩ | ⟨e, hstep, rfl⟩
    . rw [nil_iff] at hrest
      rw [hrest]
      exact hstep
    . exact hstep
  . intro h
    cases r with
    | inl m => exact Or.inl ⟨m, h, nil⟩
    | inr e => exact Or.inr ⟨e, h, rfl⟩

theorem exists_of_total {I : ν → Prop} (htotal : ∀ n l, I n → ∃ r, step n l r)
    (hkeep : ∀ n l m, I n → step n l (.inl m) → I m) (hn : I n) (ls : List κ)
    : ∃ r, Walk step n ls r := by
  induction ls generalizing n with
  | nil => exact ⟨_, nil⟩
  | cons l ls ih =>
    rcases htotal n l hn with ⟨r, hstep⟩
    cases r with
    | inl m =>
      rcases ih (hkeep n l m hn hstep) with ⟨r, hrest⟩
      exact ⟨r, next hstep hrest⟩
    | inr e => exact ⟨_, stop hstep⟩

/--
The graph allows the step that the lookup picks, and no other.
-/
def Agrees (step : ν → κ → ν ⊕ ε → Prop) (look : ν → κ → ν ⊕ ε) (n : ν) (l : κ) : Prop :=
  ∀ r, step n l r ↔ r = look n l

def Resolves (step : ν → κ → ν ⊕ ε → Prop) (look : ν → κ → ν ⊕ ε) (n : ν) (ls : List κ) : Prop :=
  ∀ r, Walk step n ls r ↔ r = follow look n ls

theorem resolves_nil : Resolves step look n [] := by
  intro r
  apply nil_iff

theorem resolves_singleton : Resolves step look n [l] ↔ Agrees step look n l := by
  unfold Resolves Agrees
  simp only [singleton_iff, follow_singleton]

theorem walk_of_next (h : Agrees step look n l) (hm : look n l = .inl m)
    : Walk step n (l :: ls) r ↔ Walk step m ls r := by
  rw [cons_iff]
  constructor
  . intro hwalk
    rcases hwalk with ⟨m', hstep, hrest⟩ | ⟨e, hstep, _⟩
    . rw [h, hm, Sum.inl.injEq] at hstep
      rw [← hstep]
      exact hrest
    . rw [h, hm] at hstep
      contradiction
  . intro hrest
    exact Or.inl ⟨m, (h _).mpr hm.symm, hrest⟩

theorem walk_of_stop (h : Agrees step look n l) (he : look n l = .inr e)
    : Walk step n (l :: ls) r ↔ r = .inr e := by
  rw [cons_iff]
  constructor
  . intro hwalk
    rcases hwalk with ⟨m, hstep, _⟩ | ⟨e', hstep, hr⟩
    . rw [h, he] at hstep
      contradiction
    . rw [h, he, Sum.inr.injEq] at hstep
      rw [hr, hstep]
  . intro hr
    exact Or.inr ⟨e, (h _).mpr he.symm, hr⟩

theorem resolves_of_next (h : Agrees step look n l) (hm : look n l = .inl m)
    : Resolves step look n (l :: ls) ↔ Resolves step look m ls := by
  unfold Resolves
  simp only [walk_of_next h hm, follow_of_next hm]

theorem resolves_of_stop (h : Agrees step look n l) (he : look n l = .inr e)
    : Resolves step look n (l :: ls) := by
  intro r
  rw [walk_of_stop h he, follow_of_stop he]

/--
All beginnings of a path resolve exactly when the lookup agrees with the graph wherever the walk
comes by.
-/
theorem resolves_iff
    : (∀ k ≤ ls.length, Resolves step look n (ls.take k))
        ↔
      ∀ k l m, ls[k]? = some l → Walk step n (ls.take k) (.inl m) → Agrees step look m l := by
  induction ls generalizing n with
  | nil =>
    constructor
    . intro _ k l m hl
      contradiction
    . intro _ k _
      rw [List.take_nil]
      apply resolves_nil
  | cons l ls ih =>
    constructor
    . intro h
      have hagrees : Agrees step look n l := by
        apply resolves_singleton.mp
        apply h 1 (by simp)
      intro k l' m hl hwalk
      cases k with
      | zero =>
        rw [List.getElem?_cons_zero, Option.some.injEq] at hl
        rw [List.take_zero, nil_iff, Sum.inl.injEq] at hwalk
        rw [← hl, hwalk]
        exact hagrees
      | succ k =>
        rw [List.getElem?_cons_succ] at hl
        rw [List.take_succ_cons] at hwalk
        cases hlook : look n l with
        | inl m' =>
          rw [walk_of_next hagrees hlook] at hwalk
          apply ih.mp _ k l' m hl hwalk
          intro j hj
          have hlonger := h (j + 1) (by rw [List.length_cons]; omega)
          rw [List.take_succ_cons, resolves_of_next hagrees hlook] at hlonger
          exact hlonger
        | inr e =>
          rw [walk_of_stop hagrees hlook] at hwalk
          contradiction
    . intro h k hk
      have hagrees : Agrees step look n l := h 0 l n rfl nil
      cases k with
      | zero => apply resolves_nil
      | succ k =>
        rw [List.take_succ_cons]
        cases hlook : look n l with
        | inl m =>
          rw [resolves_of_next hagrees hlook]
          apply ih.mpr _ k
          . rw [List.length_cons] at hk
            omega
          . intro j l' m' hl hwalk
            apply h (j + 1) l' m' hl
            rw [List.take_succ_cons, walk_of_next hagrees hlook]
            exact hwalk
        | inr e => apply resolves_of_stop hagrees hlook

end Walk
