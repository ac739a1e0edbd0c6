import Mathlib

/-!
This module contains systems that move from state to state by actions, their runs, and the rules
that carry an invariant along a run.
-/

structure System (σ Act : Type) where
  init : σ → Prop
  step : σ → Act → σ → Prop

namespace System

variable {σ Act : Type} (S : System σ Act) (ok : σ → Act → Prop)

/--
The states of the runs in which every step meets the condition `ok`.
-/
inductive Reachable : σ → Prop where
  | init {s : σ} : S.init s → Reachable s
  | step {s s' : σ} {a : Act} : Reachable s → ok s a → S.step s a s' → Reachable s'

def Move (s s' : σ) : Prop :=
  ∃ a, ok s a ∧ S.step s a s'

abbrev Leads : σ → σ → Prop :=
  Relation.ReflTransGen (S.Move ok)

inductive Run (s : σ) : List (σ × Act × σ) → σ → Prop where
  | refl : Run s [] s
  | tail {steps : List (σ × Act × σ)} {s' s'' : σ} {a : Act} :
    Run s steps s' → ok s' a → S.step s' a s'' → Run s (steps ++ [(s', a, s'')]) s''

variable {S ok} {I : σ → Prop} {s s' : σ}

theorem Reachable.invariant (h : S.Reachable ok s) (hinit : ∀ s, S.init s → I s)
    (hstep : ∀ s a s', I s → ok s a → S.step s a s' → I s')
    : I s := by
  induction h with
  | init hs => apply hinit _ hs
  | step _ hok hmove ih => apply hstep _ _ _ ih hok hmove

theorem Reachable.leads (h : S.Reachable ok s) (hleads : S.Leads ok s s')
    : S.Reachable ok s' := by
  induction hleads with
  | refl => exact h
  | tail _ hmove ih =>
    rcases hmove with ⟨a, hok, hstep⟩
    apply Reachable.step ih hok hstep

theorem Leads.invariant (h : S.Leads ok s s') (hs : I s)
    (hstep : ∀ s a s', I s → ok s a → S.step s a s' → I s')
    : I s' := by
  induction h with
  | refl => exact hs
  | tail _ hmove ih =>
    rcases hmove with ⟨a, hok, hmove⟩
    apply hstep _ a _ ih hok hmove

theorem Leads.mono {ok' : σ → Act → Prop} (h : S.Leads ok s s') (hok : ∀ s a, ok s a → ok' s a)
    : S.Leads ok' s s' := by
  induction h with
  | refl => exact .refl
  | tail _ hmove ih =>
    rcases hmove with ⟨a, ha, hstep⟩
    exact .tail ih ⟨a, hok _ a ha, hstep⟩

theorem Run.invariant {J : List (σ × Act × σ) → σ → Prop} {steps : List (σ × Act × σ)}
    (h : S.Run ok s steps s') (hs : J [] s)
    (hstep : ∀ steps s a s', J steps s → ok s a → S.step s a s' → J (steps ++ [(s, a, s')]) s')
    : J steps s' := by
  induction h with
  | refl => exact hs
  | tail _ hok hmove ih => apply hstep _ _ _ _ ih hok hmove

/--
What the latest of the steps that `note` says something of says.
-/
def latest {β : Type} (note : σ × Act × σ → Option β) (steps : List (σ × Act × σ)) : Option β :=
  (steps.filterMap note).getLast?

theorem latest_concat {β : Type} (note : σ × Act × σ → Option β) (steps : List (σ × Act × σ))
    (step : σ × Act × σ)
    : latest note (steps ++ [step]) = (note step).or (latest note steps) := by
  unfold latest
  rw [List.filterMap_append]
  cases hnote : note step with
  | none => simp [hnote]
  | some b => simp [hnote]

end System
