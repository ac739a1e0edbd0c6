import AiOS.Shell.Impl.Cp
import AiOS.Shell.Lemmas.Path

/-!
This module contains what `append` makes of a path that is spelled in `argv[1]` before zeros, and
`cp` with an `append` that keeps within its buffers.
-/

namespace AiOS

open Fallible

/--
The path is spelled in `argv[1]`, with nothing but zeros behind it.
-/
structure Argv.Carries (argv : Argv) (absolute : Bool) (words : List (List UInt8)) : Prop where
  spellable : Spellable absolute words
  length : (spell absolute words).length < 100
  chars : ∀ k (h : k < 100), argv ⟨100 + k, row_lt h⟩ = (spell absolute words).getD k 0

/--
`append`, without a result where the path leaves `argv[1]` or has more components than `parsePath`
has rows.
-/
def append.within (argv : Argv) (source : List UInt8) : Option Argv := do
  let argv ← append argv source
  let len ← strlen (argv.row 1)
  let (_, pathCount) ← parsePath (argv.row 1)
  if len < 100 ∧ pathCount ≤ 16 then
    some argv
  else
    none

theorem intercalate_concat {separator : UInt8} {words : List (List UInt8)} (hne : words ≠ [])
    (word : List UInt8)
    : [separator].intercalate (words ++ [word])
        =
      [separator].intercalate words ++ separator :: word := by
  induction words with
  | nil => contradiction
  | cons first words ih =>
    cases words with
    | nil => simp [List.intercalate_cons_cons]
    | cons second words =>
      have ih := ih (by simp)
      rw [List.cons_append, List.cons_append, List.intercalate_cons_cons,
        List.intercalate_cons_cons, ← List.cons_append, ih]
      simp

theorem spell_concat {words : List (List UInt8)} (absolute : Bool) (hne : words ≠ [])
    (word : List UInt8)
    : spell absolute (words ++ [word]) = spell absolute words ++ 0x2F :: word := by
  unfold spell
  rw [intercalate_concat hne, List.append_assoc]

theorem Component.name_chars (x : Component) : AiOS.name_chars x.name = x.chars := by
  have hlen := x.length_le
  have hofFn : List.ofFn x.name = x.chars ++ List.replicate (8 - x.chars.length) 0 := by
    apply List.ext_getElem
    . simp [hlen]
    . intro k hk hk'
      rw [List.getElem_ofFn, List.getElem_append]
      unfold Component.name entry_name
      split
      . next hlt => rw [List.getD_eq_getElem _ _ hlt]
      . next hge =>
        dsimp only
        rw [List.getD_eq_default _ _ (by omega), List.getElem_replicate]
  unfold AiOS.name_chars
  rw [hofFn, List.takeWhile_append_of_pos]
  . cases 8 - x.chars.length with
    | zero => simp
    | succ n => simp [List.replicate_succ]
  . intro c hc
    rw [decide_eq_true_eq]
    intro hzero
    rw [hzero] at hc
    exact x.zero_not_mem hc

theorem Spellable.concat {absolute : Bool} {words : List (List UInt8)} (h : Spellable absolute words)
    (x : Component) (hlen : words.length < 16)
    : Spellable absolute (words ++ [x.chars]) where
  ne_nil := by simp
  length_le := by
    rw [List.length_append, List.length_singleton]
    omega
  word_length_le := by
    intro word hword
    rw [List.mem_append, List.mem_singleton] at hword
    rcases hword with hword | rfl
    . exact h.word_length_le word hword
    . exact Nat.le_trans x.length_le (by decide)
  zero_not_mem := by
    intro word hword
    rw [List.mem_append, List.mem_singleton] at hword
    rcases hword with hword | rfl
    . exact h.zero_not_mem word hword
    . exact x.zero_not_mem
  slash_not_mem := by
    intro word hword
    rw [List.mem_append, List.mem_singleton] at hword
    rcases hword with hword | rfl
    . exact h.slash_not_mem word hword
    . exact x.slash_not_mem
  relative := by
    intro hrelative
    rw [List.head?_append_of_ne_nil _ h.ne_nil]
    exact h.relative hrelative

namespace Argv.Carries

variable {argv : Argv} {absolute : Bool} {words : List (List UInt8)}
  (h : argv.Carries absolute words)

include h

theorem holds : argv.Holds (spell absolute words) := by
  have hlen := h.length
  refine ⟨(List.ofFn argv).drop (101 + (spell absolute words).length), ?_⟩
  unfold Argv.row
  apply List.ext_getElem
  . simp only [List.length_drop, List.length_ofFn, List.length_append, List.length_cons]
    omega
  . intro k hk hk'
    rw [List.getElem_drop, List.getElem_ofFn, List.getElem_append]
    split
    . next hlt => rw [h.chars k (by omega), List.getD_eq_getElem _ _ hlt]
    . next hge =>
      rw [List.getElem_cons]
      split
      . next hzero => rw [h.chars k (by omega), List.getD_eq_default _ _ (by omega)]
      . rw [List.getElem_drop, List.getElem_ofFn]
        congr 2
        omega

theorem strlen_eq : strlen (argv.row 1) = some (spell absolute words).length := by
  rcases h.holds with ⟨rest, hrow⟩
  rw [hrow, strlen.eq_length h.spellable.zero_not_mem_spell]

theorem parsePath_eq
    : parsePath (argv.row 1) = some (split.rows words 0 (fun _ => 0), words.length) := by
  rcases h.holds with ⟨rest, hrow⟩
  rw [hrow, h.spellable.parsePath_spell]

theorem append_apply (x : Component)
    : ∃ argv', append argv x.chars = some argv' ∧
        ∀ k (hk : k < 100), argv' ⟨100 + k, row_lt hk⟩
          = (spell absolute (words ++ [x.chars])).getD k 0 := by
  have hlen := h.length
  have hx := x.length_le
  have hspell := spell_concat absolute h.spellable.ne_nil x.chars
  unfold append
  rw [h.strlen_eq, Option.bind_eq_bind, Option.bind_some, Option.bind_eq_bind]
  unfold store
  rw [if_pos (by rw [List.length_singleton]; omega), Option.bind_some, if_pos (by omega)]
  refine ⟨_, rfl, ?_⟩
  intro k hk
  have hchar := h.chars k hk
  dsimp only
  rw [hspell, hchar]
  by_cases hbefore : k < (spell absolute words).length
  . rw [if_neg (by omega), if_neg (by omega), List.getD_append _ _ _ _ hbefore]
  . rw [List.getD_append_right _ _ _ _ (by omega)]
    by_cases hslash : k = (spell absolute words).length
    . have hzero : k - (spell absolute words).length = 0 := by omega
      have hzero' : 100 + k - (100 + (spell absolute words).length) = 0 := by omega
      rw [if_neg (by omega), if_pos (by omega), hzero, hzero']
      rfl
    . rcases Nat.exists_eq_add_of_lt (by omega : (spell absolute words).length < k) with ⟨n, rfl⟩
      have hn : (spell absolute words).length + n + 1 - (spell absolute words).length = n + 1 := by
        omega
      have hn' : 100 + ((spell absolute words).length + n + 1) -
          (100 + (spell absolute words).length) = n + 1 := by
        omega
      have hn'' : 100 + ((spell absolute words).length + n + 1) -
          (100 + (spell absolute words).length + 1) = n := by
        omega
      have hbehind : (spell absolute words).getD ((spell absolute words).length + n + 1) 0 = 0 :=
        List.getD_eq_default _ _ (by omega)
      rw [if_pos (by omega), if_pos (by omega), hn, hn', hn'', List.getD_cons_succ,
        List.getD_cons_succ, List.getD_nil, hbehind]

theorem append_within (x : Component) (hlen : words.length < 16)
    (hfit : (spell absolute (words ++ [x.chars])).length < 100)
    : ∃ argv', append.within argv x.chars = some argv' ∧
        argv'.Carries absolute (words ++ [x.chars]) := by
  rcases h.append_apply x with ⟨argv', happend, hchars⟩
  have hcarries : argv'.Carries absolute (words ++ [x.chars]) :=
    ⟨h.spellable.concat x hlen, hfit, hchars⟩
  refine ⟨argv', ?_, hcarries⟩
  have hrows : (words ++ [x.chars]).length ≤ 16 := hcarries.spellable.length_le
  unfold append.within
  rw [happend, Option.bind_eq_bind, Option.bind_some, hcarries.strlen_eq, Option.bind_eq_bind,
    Option.bind_some, hcarries.parsePath_eq, Option.bind_eq_bind, Option.bind_some]
  exact if_pos ⟨hfit, hrows⟩

end Argv.Carries

/--
The loop body of `cpHelper`, with any `append` and any function for the directories below.
-/
def cpHelper.slot (append : Argv → List UInt8 → Option Argv) (descend : Argv → Argv → ShellM Unit)
    (argvS argvD : Argv) (startDir : UInt32) (i : Fin 64) : ShellM Unit := do
  let s ← get
  if (s.dirTable i).user_attribute = UATTR_NOT_EMPTY then
    let curWorkingDir := s.currentDirectory
    if (s.dirTable i).attribute = ATTR_SUBDIRECTORY then
      let locals ← uninitialised
      let argvSnew : Argv := fun k => if k.val < 200 then argvS k else locals.argvS k
      let argvDnew : Argv := fun k => if k.val < 200 then argvD k else locals.argvD k
      let tempName := name_chars (s.dirTable i).name
      let argvDnew ← Fallible.ofOption (append argvDnew tempName)
      let argvSnew ← Fallible.ofOption (append argvSnew tempName)
      setCurrentDirectory startDir
      updateDirectoryTable startDir
      let _ ← mkdir argvDnew 2
      descend argvSnew argvDnew
      setCurrentDirectory curWorkingDir
      updateDirectoryTable curWorkingDir
    let s ← get
    if cpHelper.plain_file (s.dirTable i) then
      let (memory, request) ← cpHelper.load (s.dirTable i).name (s.dirTable i).ext
      setCurrentDirectory startDir
      updateDirectoryTable startDir
      mkfile argvD 2 memory request true
      setCurrentDirectory curWorkingDir
      updateDirectoryTable curWorkingDir

def cpHelper.through (append : Argv → List UInt8 → Option Argv) (fuel : Nat) (argvS argvD : Argv)
    (startDir : UInt32) : ShellM Unit :=
  match fuel with
  | 0 => Fallible.ofOption none
  | fuel + 1 => do
    let (pathList, pathCount) ← Fallible.ofOption (parsePath (argvS.row 1))
    let lastpath ← Fallible.ofOption (bytes 8 (pathList.row (pathCount - 1)))
    let retval ← cd argvS 2 true
    if retval = 3 then
      cpHelper.file argvS argvD lastpath
    else if retval = 0 then
      write.slots.forM
        (cpHelper.slot append
          (fun argvSnew argvDnew => cpHelper.through append fuel argvSnew argvDnew startDir)
          argvS argvD startDir)

def cp.through (append : Argv → List UInt8 → Option Argv) (fuel : Nat) (argv : Argv) (argc : Nat)
    : ShellM Unit :=
  if argc > 3 then
    print "CP: too many arguments\n" 0xF
  else do
    let locals ← uninitialised
    let argvS : Argv := fun k => if k.val < 200 then argv k else locals.argvS k
    let argvD : Argv := fun k =>
      if k.val < 100 then argv k
      else if h : k.val < 200 then argv ⟨100 + k.val, Argv.next_row_lt h⟩
      else locals.argvD k
    let s ← get
    let startDir := s.currentDirectory
    let retval ← cd argvS 2 true
    setCurrentDirectory startDir
    updateDirectoryTable startDir
    if retval = 0 then
      let _ ← mkdir argvD 2
    cpHelper.through append fuel argvS argvD startDir
    setCurrentDirectory startDir

theorem cpHelper.through_append (fuel : Nat) : cpHelper.through append fuel = cpHelper fuel := by
  induction fuel with
  | zero => rfl
  | succ fuel ih =>
    funext argvS argvD startDir
    unfold cpHelper.through cpHelper cpHelper.slot
    rw [ih]

theorem cp.through_append (fuel : Nat) : cp.through append fuel = cp fuel := by
  unfold cp.through cp
  rw [cpHelper.through_append]

section

variable {append append' : Argv → List UInt8 → Option Argv}
  (h : ∀ argv source argv', append argv source = some argv' → append' argv source = some argv')

include h

theorem cpHelper.refines_slot {descend descend' : Argv → Argv → ShellM Unit}
    (hdescend : ∀ argvS argvD, Refines (descend argvS argvD) (descend' argvS argvD))
    (argvS argvD : Argv) (startDir : UInt32) (i : Fin 64)
    : Refines (cpHelper.slot append descend argvS argvD startDir i)
        (cpHelper.slot append' descend' argvS argvD startDir i) := by
  unfold cpHelper.slot
  apply Refines.get_bind
  intro s
  apply Refines.ite _ (Refines.refl _)
  apply Refines.ite _ (Refines.refl _)
  apply Refines.bind (Refines.refl _)
  intro locals
  apply Refines.bind (Refines.of_ofOption (h _ _))
  intro argvDnew
  apply Refines.bind (Refines.of_ofOption (h _ _))
  intro argvSnew
  apply Refines.bind (Refines.refl _)
  intro _
  apply Refines.bind (Refines.refl _)
  intro _
  apply Refines.bind (Refines.refl _)
  intro _
  apply Refines.bind (hdescend _ _)
  intro _
  apply Refines.refl

theorem cpHelper.refines_through (fuel : Nat) (argvS argvD : Argv) (startDir : UInt32)
    : Refines (cpHelper.through append fuel argvS argvD startDir)
        (cpHelper.through append' fuel argvS argvD startDir) := by
  induction fuel generalizing argvS argvD with
  | zero => apply Refines.refl
  | succ fuel ih =>
    unfold cpHelper.through
    apply Refines.bind (Refines.refl _)
    intro parsed
    apply Refines.bind (Refines.refl _)
    intro lastpath
    apply Refines.bind (Refines.refl _)
    intro retval
    apply Refines.ite (Refines.refl _)
    apply Refines.ite _ (Refines.refl _)
    apply Refines.forM
    intro i
    apply refines_slot h ih

end

theorem append.within_eq_some {argv argv' : Argv} {source : List UInt8}
    (h : append.within argv source = some argv')
    : append argv source = some argv' := by
  unfold append.within at h
  rw [Option.bind_eq_bind, Option.bind_eq_some_iff] at h
  rcases h with ⟨argv'', happend, h⟩
  rw [Option.bind_eq_bind, Option.bind_eq_some_iff] at h
  rcases h with ⟨len, _, h⟩
  rw [Option.bind_eq_bind, Option.bind_eq_some_iff] at h
  rcases h with ⟨⟨pathList, pathCount⟩, _, h⟩
  dsimp only at h
  split at h
  . rw [happend, h]
  . contradiction

/--
Where `cp` keeps within the buffers, it does what it does anyway.
-/
theorem cp.refines_within (fuel : Nat) (argv : Argv) (argc : Nat)
    : Refines (cp.through append.within fuel argv argc) (cp fuel argv argc) := by
  rw [← cp.through_append]
  unfold cp.through
  apply Refines.ite (Refines.refl _)
  apply Refines.bind (Refines.refl _)
  intro locals
  apply Refines.get_bind
  intro s
  apply Refines.bind (Refines.refl _)
  intro retval
  apply Refines.bind (Refines.refl _)
  intro _
  apply Refines.bind (Refines.refl _)
  intro _
  have hhelper : ∀ argvS argvD, Refines
      (do
        cpHelper.through append.within fuel argvS argvD s.currentDirectory
        setCurrentDirectory s.currentDirectory)
      (do
        cpHelper.through append fuel argvS argvD s.currentDirectory
        setCurrentDirectory s.currentDirectory) := by
    intro argvS argvD
    apply Refines.bind
    . apply cpHelper.refines_through
      intro argv source argv'
      apply append.within_eq_some
    . intro _
      apply Refines.refl
  apply Refines.ite
  . apply Refines.bind (Refines.refl _)
    intro _
    apply hhelper
  . apply hhelper

end AiOS
