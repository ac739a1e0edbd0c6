import Mathlib

/-!
This module contains programs that work on a state and may be without a result, and the rules for
what holds of the state when they have one.
-/

variable {σ α β γ : Type}

abbrev Fallible (σ α : Type) : Type :=
  StateT σ Option α

namespace Fallible

def ofOption (result : Option α) : Fallible σ α :=
  fun s => result.map fun a => (a, s)

section

variable (p : Fallible σ α) (f : α → Fallible σ β) (g : σ → Fallible σ β) (h : σ → σ)
  (k : PUnit → Fallible σ β) (result : Option α) (a : α) (s : σ)

@[simp]
theorem pure_apply : (pure a : Fallible σ α) s = some (a, s) := by
  rfl

theorem bind_apply : (p >>= f) s = (p s).bind fun r => f r.1 r.2 := by
  rfl

@[simp]
theorem get_bind_apply : (get >>= g) s = g s s := by
  rfl

@[simp]
theorem modify_apply : (modify h : Fallible σ PUnit) s = some ((), h s) := by
  rfl

@[simp]
theorem modify_bind_apply : (modify h >>= k) s = k () (h s) := by
  rfl

@[simp]
theorem ofOption_apply : (ofOption result : Fallible σ α) s = result.map fun a => (a, s) := by
  rfl

theorem ofOption_bind_apply
    : ((ofOption result : Fallible σ α) >>= f) s = result.bind fun a => f a s := by
  cases result with
  | none => rfl
  | some a => rfl

theorem bind_eq_some_iff (r : β × σ)
    : (p >>= f) s = some r ↔ ∃ a t, p s = some (a, t) ∧ f a t = some r := by
  rw [bind_apply, Option.bind_eq_some_iff, Prod.exists]

theorem ofOption_bind_eq_some_iff (r : β × σ)
    : ((ofOption result : Fallible σ α) >>= f) s = some r
        ↔
      ∃ a, result = some a ∧ f a s = some r := by
  rw [ofOption_bind_apply, Option.bind_eq_some_iff]

end

/--
If the program has a result from a state in `P`, the result and the state after it are in `Q`.
-/
def Ensures (P : σ → Prop) (p : Fallible σ α) (Q : α → σ → Prop) : Prop :=
  ∀ s a s', P s → p s = some (a, s') → Q a s'

namespace Ensures

variable {P P' : σ → Prop} {p : Fallible σ α} {Q Q' : α → σ → Prop} {R : β → σ → Prop}
  {f : α → Fallible σ β}

theorem consequence (h : Ensures P p Q) (hP : ∀ s, P' s → P s) (hQ : ∀ a s, Q a s → Q' a s)
    : Ensures P' p Q' := by
  intro s a s' hs hrun
  apply hQ
  apply h s a s' (hP s hs) hrun

theorem exists_pre {ι : Type} {P : ι → σ → Prop} (h : ∀ i, Ensures (P i) p Q)
    : Ensures (fun s => ∃ i, P i s) p Q := by
  intro s a s' ⟨i, hs⟩ hrun
  apply h i s a s' hs hrun

theorem of_pure {a : α} (h : ∀ s, P s → Q a s) : Ensures P (pure a) Q := by
  intro s b s' hs hrun
  rw [pure_apply, Option.some.injEq, Prod.mk.injEq] at hrun
  rw [← hrun.1, ← hrun.2]
  apply h s hs

theorem bind (hp : Ensures P p Q) (hf : ∀ a, Ensures (Q a) (f a) R) : Ensures P (p >>= f) R := by
  intro s b s' hs hrun
  rw [bind_eq_some_iff] at hrun
  rcases hrun with ⟨a, t, hfirst, hrest⟩
  apply hf a t b s' _ hrest
  apply hp s a t hs hfirst

theorem get_bind {f : σ → Fallible σ β} (h : ∀ t, P t → Ensures P (f t) R)
    : Ensures P (get >>= f) R := by
  intro s b s' hs hrun
  apply h s hs s b s' hs hrun

theorem of_modify {g : σ → σ} {Q : PUnit → σ → Prop} (h : ∀ s, P s → Q () (g s))
    : Ensures P (modify g) Q := by
  intro s a s' hs hrun
  rw [modify_apply, Option.some.injEq, Prod.mk.injEq] at hrun
  rw [← hrun.2]
  apply h s hs

theorem of_ofOption {result : Option α} (h : ∀ a s, result = some a → P s → Q a s)
    : Ensures P (ofOption result) Q := by
  intro s a s' hs hrun
  rw [ofOption_apply, Option.map_eq_some_iff] at hrun
  rcases hrun with ⟨b, hb, heq⟩
  rw [Prod.mk.injEq] at heq
  rw [← heq.1, ← heq.2]
  apply h b s hb hs

theorem ite {c : Prop} [Decidable c] {p' : Fallible σ α} (hp : c → Ensures P p Q)
    (hp' : ¬ c → Ensures P p' Q)
    : Ensures P (if c then p else p') Q := by
  split
  . next hc => exact hp hc
  . next hc => exact hp' hc

theorem bind_eq_none {s : σ} (hp : Ensures P p Q) (hf : ∀ a t, Q a t → f a t = none) (hs : P s)
    : (p >>= f) s = none := by
  rw [bind_apply, Option.bind_eq_none_iff]
  intro r hr
  apply hf
  apply hp s r.1 r.2 hs hr

theorem foldlM_eq_none {p : β → α → Fallible σ β} {l : List α} {a : α} (ha : a ∈ l)
    (hp : ∀ b a, Ensures P (p b a) fun _ => P) (hnone : ∀ b s, P s → p b a s = none) (b : β) {s : σ}
    (hs : P s)
    : l.foldlM p b s = none := by
  induction l generalizing b s with
  | nil => contradiction
  | cons c l ih =>
    rw [List.foldlM_cons]
    cases List.mem_cons.mp ha with
    | inl heq =>
      rw [bind_apply, ← heq, hnone b s hs]
      rfl
    | inr hmem =>
      apply bind_eq_none (hp b c) _ hs
      intro b t ht
      apply ih hmem b ht

end Ensures

/--
From a state in `P` the program has a result. The result and the state after it are in `Q`.
-/
def Yields (P : σ → Prop) (p : Fallible σ α) (Q : α → σ → Prop) : Prop :=
  ∀ s, P s → ∃ a s', p s = some (a, s') ∧ Q a s'

namespace Yields

variable {P P' : σ → Prop} {p : Fallible σ α} {Q Q' : α → σ → Prop} {R : β → σ → Prop}
  {f : α → Fallible σ β}

theorem consequence (h : Yields P p Q) (hP : ∀ s, P' s → P s) (hQ : ∀ a s, Q a s → Q' a s)
    : Yields P' p Q' := by
  intro s hs
  rcases h s (hP s hs) with ⟨a, s', hrun, hq⟩
  exact ⟨a, s', hrun, hQ a s' hq⟩

theorem of_pure {a : α} (h : ∀ s, P s → Q a s) : Yields P (pure a) Q := by
  intro s hs
  exact ⟨a, s, rfl, h s hs⟩

theorem assuming {c : Prop} (h : c → Yields P p Q) : Yields (fun s => c ∧ P s) p Q := by
  intro s hs
  exact h hs.1 s hs.2

theorem bind (hp : Yields P p Q) (hf : ∀ a, Yields (Q a) (f a) R) : Yields P (p >>= f) R := by
  intro s hs
  rcases hp s hs with ⟨a, t, hfirst, hq⟩
  rcases hf a t hq with ⟨b, s', hrest, hr⟩
  refine ⟨b, s', ?_, hr⟩
  rw [bind_eq_some_iff]
  exact ⟨a, t, hfirst, hrest⟩

theorem get_bind {f : σ → Fallible σ β} (h : ∀ t, P t → Yields P (f t) R)
    : Yields P (get >>= f) R := by
  intro s hs
  exact h s hs s hs

theorem ofOption_bind {result : Option α} {a : α} (ha : result = some a) (h : Yields P (f a) R)
    : Yields P (ofOption result >>= f) R := by
  intro s hs
  rw [ofOption_bind_apply, ha, Option.bind_some]
  exact h s hs

theorem ite {c : Prop} [Decidable c] {p' : Fallible σ α} (hp : c → Yields P p Q)
    (hp' : ¬ c → Yields P p' Q)
    : Yields P (if c then p else p') Q := by
  split
  . next hc => exact hp hc
  . next hc => exact hp' hc

theorem forM {l : List α} {p : α → Fallible σ PUnit} (h : ∀ a ∈ l, Yields P (p a) fun _ => P)
    : Yields P (l.forM p) fun _ => P := by
  induction l with
  | nil =>
    apply of_pure
    intro s hs
    exact hs
  | cons a l ih =>
    apply bind (h a List.mem_cons_self)
    intro _
    apply ih
    intro b hb
    exact h b (List.mem_cons_of_mem a hb)

theorem foldlM_range {p : β → Nat → Fallible σ β} {P : Nat → β → σ → Prop} {n : Nat}
    (h : ∀ k < n, ∀ b, Yields (P k b) (p b k) (P (k + 1))) (b : β)
    : Yields (P 0 b) ((List.range n).foldlM p b) (P n) := by
  induction n with
  | zero =>
    apply of_pure
    intro s hs
    exact hs
  | succ n ih =>
    rw [List.range_succ, List.foldlM_append]
    apply bind (ih fun k hk => h k (Nat.lt_succ_of_lt hk))
    intro b
    rw [List.foldlM_cons]
    apply bind (h n (Nat.lt_succ_self n) b)
    intro b
    apply of_pure
    intro s hs
    exact hs

theorem forM_range {p : Nat → Fallible σ PUnit} {P : Nat → σ → Prop} {n : Nat}
    (h : ∀ k < n, Yields (P k) (p k) fun _ => P (k + 1))
    : Yields (P 0) ((List.range n).forM p) fun _ => P n := by
  induction n with
  | zero =>
    apply of_pure
    intro s hs
    exact hs
  | succ n ih =>
    rw [List.range_succ, List.forM_eq_forM, List.forM_append]
    apply bind (ih fun k hk => h k (Nat.lt_succ_of_lt hk))
    intro _
    rw [List.forM_cons]
    apply bind (h n (Nat.lt_succ_self n))
    intro _
    apply of_pure
    intro s hs
    exact hs

end Yields

def Keeps (f : σ → γ) (p : Fallible σ α) : Prop :=
  ∀ s a s', p s = some (a, s') → f s' = f s

namespace Keeps

variable {f : σ → γ} {p : Fallible σ α} {q : α → Fallible σ β}

theorem of_pure (a : α) : Keeps f (pure a) := by
  intro s b s' hrun
  rw [pure_apply, Option.some.injEq, Prod.mk.injEq] at hrun
  rw [hrun.2]

theorem of_get : Keeps f get := by
  intro s a s' hrun
  have heq : some (s, s) = some (a, s') := hrun
  rw [Option.some.injEq, Prod.mk.injEq] at heq
  rw [heq.2]

theorem of_modify {g : σ → σ} (h : ∀ s, f (g s) = f s) : Keeps f (modify g) := by
  intro s a s' hrun
  rw [modify_apply, Option.some.injEq, Prod.mk.injEq] at hrun
  rw [← hrun.2]
  apply h

theorem of_ofOption (result : Option α) : Keeps f (ofOption result) := by
  intro s a s' hrun
  rw [ofOption_apply, Option.map_eq_some_iff] at hrun
  rcases hrun with ⟨b, _, heq⟩
  rw [Prod.mk.injEq] at heq
  rw [heq.2]

theorem bind (hp : Keeps f p) (hq : ∀ a, Keeps f (q a)) : Keeps f (p >>= q) := by
  intro s b s' hrun
  rw [bind_eq_some_iff] at hrun
  rcases hrun with ⟨a, t, hfirst, hrest⟩
  rw [hq a t b s' hrest]
  apply hp s a t hfirst

theorem ite {c : Prop} [Decidable c] {p' : Fallible σ α} (hp : Keeps f p) (hp' : Keeps f p')
    : Keeps f (if c then p else p') := by
  split
  . exact hp
  . exact hp'

theorem optional {c : Prop} [Decidable c] {p : Fallible σ PUnit} {q : PUnit → Fallible σ β}
    (hp : Keeps f p) (hq : ∀ a, Keeps f (q a))
    : Keeps f (if c then p >>= q else q ()) := by
  apply ite
  . apply bind hp hq
  . apply hq

theorem forM {l : List α} {p : α → Fallible σ PUnit} (h : ∀ a, Keeps f (p a))
    : Keeps f (l.forM p) := by
  induction l with
  | nil => apply of_pure
  | cons a l ih =>
    apply bind (h a)
    intro _
    exact ih

theorem foldlM {p : β → α → Fallible σ β} {l : List α} (h : ∀ b a, Keeps f (p b a)) (b : β)
    : Keeps f (l.foldlM p b) := by
  induction l generalizing b with
  | nil => apply of_pure
  | cons a l ih =>
    rw [List.foldlM_cons]
    apply bind (h b a)
    intro b
    apply ih

theorem ensures (h : Keeps f p) (c : γ) : Ensures (fun s => f s = c) p fun _ s => f s = c := by
  intro s a s' hs hrun
  rw [h s a s' hrun]
  exact hs

end Keeps

def Refines (p q : Fallible σ α) : Prop :=
  ∀ s r, p s = some r → q s = some r

namespace Refines

variable {p q : Fallible σ α}

theorem refl (p : Fallible σ α) : Refines p p := by
  intro s r h
  exact h

theorem of_ofOption {result result' : Option α} (h : ∀ a, result = some a → result' = some a)
    : Refines (ofOption result : Fallible σ α) (ofOption result') := by
  intro s r hrun
  rw [ofOption_apply, Option.map_eq_some_iff] at hrun ⊢
  rcases hrun with ⟨a, ha, hr⟩
  exact ⟨a, h a ha, hr⟩

theorem bind {f g : α → Fallible σ β} (hp : Refines p q) (hf : ∀ a, Refines (f a) (g a))
    : Refines (p >>= f) (q >>= g) := by
  intro s r hrun
  rw [bind_eq_some_iff] at hrun ⊢
  rcases hrun with ⟨a, t, hfirst, hrest⟩
  exact ⟨a, t, hp s _ hfirst, hf a t r hrest⟩

theorem get_bind {f g : σ → Fallible σ β} (hf : ∀ s, Refines (f s) (g s))
    : Refines (get >>= f) (get >>= g) := by
  intro s r hrun
  apply hf s s r hrun

theorem ite {c : Prop} [Decidable c] {p' q' : Fallible σ α} (hp : Refines p q)
    (hp' : Refines p' q')
    : Refines (if c then p else p') (if c then q else q') := by
  split
  . exact hp
  . exact hp'

theorem forM {l : List α} {p q : α → Fallible σ PUnit} (h : ∀ a, Refines (p a) (q a))
    : Refines (l.forM p) (l.forM q) := by
  induction l with
  | nil => apply refl
  | cons a l ih =>
    apply bind (h a)
    intro _
    exact ih

end Refines
end Fallible
