import AiOS.Lib.Fallible

/-!
This module contains programs that keep a log of what they do, and the rules for the state that they
come to and the entries that they make on the way.
-/

structure Logged (σ ε : Type) where
  state : σ
  log : List ε

namespace Logged

variable {σ ε α : Type}

abbrev Program (σ ε α : Type) : Type :=
  Fallible (Logged σ ε) α

def act (entry : ε) (f : σ → σ) : Program σ ε Unit :=
  modify fun s => ⟨f s.state, s.log ++ [entry]⟩

def alter (f : σ → σ) : Program σ ε Unit :=
  modify fun s => ⟨f s.state, s.log⟩

/--
The program comes from one state to the other, and all entries that it makes are in `ok`.
-/
def Runs (ok : ε → Prop) (p : Program σ ε Unit) (s t : σ) : Prop :=
  ∀ log, ∃ entries, p ⟨s, log⟩ = some ((), ⟨t, log ++ entries⟩) ∧ ∀ e ∈ entries, ok e

def Ends (ok : ε → Prop) (p : Program σ ε Unit) (s t : σ) (last : ε) : Prop :=
  ∀ log, ∃ entries, p ⟨s, log⟩ = some ((), ⟨t, log ++ entries ++ [last]⟩) ∧
    ∀ e ∈ entries ++ [last], ok e

variable {ok : ε → Prop} {p q : Program σ ε Unit} {s t u : σ} {entry last : ε}

namespace Runs

theorem refl (s : σ) : Runs ok (pure ()) s s := by
  intro log
  exact ⟨[], by simp, by simp⟩

theorem of_act (h : ok entry) (f : σ → σ) (s : σ) : Runs ok (act entry f) s (f s) := by
  intro log
  refine ⟨[entry], rfl, ?_⟩
  simpa using h

theorem of_alter (f : σ → σ) (s : σ) : Runs ok (alter f) s (f s) := by
  intro log
  refine ⟨[], ?_, by simp⟩
  rw [List.append_nil]
  rfl

theorem bind (hp : Runs ok p s t) (hq : Runs ok q t u) : Runs ok (p >>= fun _ => q) s u := by
  intro log
  rcases hp log with ⟨first, hfirst, hokfirst⟩
  rcases hq (log ++ first) with ⟨rest, hrest, hokrest⟩
  refine ⟨first ++ rest, ?_, ?_⟩
  . rw [Fallible.bind_apply, hfirst, Option.bind_some, hrest, List.append_assoc]
  . intro e he
    rcases List.mem_append.mp he with hmem | hmem
    . apply hokfirst e hmem
    . apply hokrest e hmem

theorem get_bind {f : Logged σ ε → Program σ ε Unit} (h : ∀ log, Runs ok (f ⟨s, log⟩) s t)
    : Runs ok (get >>= f) s t := by
  intro log
  apply h log

theorem forM {l : List α} {p : α → Program σ ε Unit} {f : σ → α → σ} {I : σ → Prop}
    (h : ∀ a ∈ l, ∀ s, I s → Runs ok (p a) s (f s a) ∧ I (f s a)) (hs : I s)
    : Runs ok (l.forM p) s (l.foldl f s) ∧ I (l.foldl f s) := by
  induction l generalizing s with
  | nil => exact ⟨refl s, hs⟩
  | cons a l ih =>
    rcases h a List.mem_cons_self s hs with ⟨hrun, hnext⟩
    rcases ih (fun b hb => h b (List.mem_cons_of_mem a hb)) hnext with ⟨hrest, hlast⟩
    exact ⟨hrun.bind hrest, hlast⟩

end Runs

namespace Ends

theorem of_act (h : ok last) (f : σ → σ) (s : σ) : Ends ok (act last f) s (f s) last := by
  intro log
  refine ⟨[], ?_, ?_⟩
  . rw [List.append_nil]
    rfl
  . simpa using h

theorem bind (hp : Runs ok p s t) (hq : Ends ok q t u last)
    : Ends ok (p >>= fun _ => q) s u last := by
  intro log
  rcases hp log with ⟨first, hfirst, hokfirst⟩
  rcases hq (log ++ first) with ⟨rest, hrest, hokrest⟩
  refine ⟨first ++ rest, ?_, ?_⟩
  . rw [Fallible.bind_apply, hfirst, Option.bind_some, hrest, List.append_assoc log]
  . intro e he
    rw [List.append_assoc, List.mem_append] at he
    rcases he with hmem | hmem
    . apply hokfirst e hmem
    . apply hokrest e hmem

theorem get_bind {f : Logged σ ε → Program σ ε Unit} (h : ∀ log, Ends ok (f ⟨s, log⟩) s t last)
    : Ends ok (get >>= f) s t last := by
  intro log
  apply h log

theorem runs (h : Ends ok p s t last) : Runs ok p s t := by
  intro log
  rcases h log with ⟨entries, hrun, hok⟩
  refine ⟨entries ++ [last], ?_, hok⟩
  rw [hrun, List.append_assoc]

end Ends
end Logged
