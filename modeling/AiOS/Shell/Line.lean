import AiOS.Lib.Words
import AiOS.Shell.Impl.Main

/-!
This module contains when a command line is read exactly: the input loop of `main` stays in its
buffer, and `lineParser` finds the words.
-/

namespace AiOS

namespace lineParser

def rows (words : List (List UInt8)) : Argv :=
  fun k => (words.getD (k / 100) []).getD (k % 100) 0

theorem rows_concat_nil (words : List (List UInt8)) : rows (words ++ [[]]) = rows words := by
  funext k
  unfold rows
  by_cases hk : k.val / 100 < words.length
  . rw [List.getD_append _ _ _ _ hk]
  . rw [List.getD_append_right _ _ _ _ (by omega), List.getD_eq_default words _ (by omega)]
    cases k.val / 100 - words.length with
    | zero => rfl
    | succ n => rfl

theorem store_rows (words : List (List UInt8)) {word : List UInt8} (c : UInt8)
    (hwords : words.length < 4) (hword : word.length < 100)
    : store (rows (words ++ [word])) (100 * words.length + word.length) [c]
        = some (rows (words ++ [word ++ [c]])) := by
  have hlast : ∀ word : List UInt8, (words ++ [word]).getD words.length [] = word := by
    intro word
    rw [List.getD_append_right _ _ _ _ (Nat.le_refl _), Nat.sub_self, List.getD_cons_zero]
  have hother : ∀ (word : List UInt8) i, i ≠ words.length →
      (words ++ [word]).getD i [] = words.getD i [] := by
    intro word i hi
    by_cases hlt : i < words.length
    . rw [List.getD_append _ _ _ _ hlt]
    . rw [List.getD_eq_default _ _ (by simp; omega), List.getD_eq_default _ _ (by omega)]
  unfold store
  rw [List.length_singleton, if_pos (by omega)]
  congr 1
  funext k
  unfold rows
  by_cases hrow : k.val / 100 = words.length
  . rw [hrow, hlast, hlast]
    rcases Nat.lt_trichotomy (k.val % 100) word.length with hlt | heq | hgt
    . rw [if_neg (by omega), List.getD_append _ _ _ _ hlt]
    . have hsub : k.val - (100 * words.length + word.length) = 0 := by omega
      rw [if_pos (by omega), hsub, heq, List.getD_append_right _ _ _ _ (Nat.le_refl _), Nat.sub_self]
      rfl
    . rw [if_pos (by omega), List.getD_eq_default [c] _ (by simp; omega)]
      rw [List.getD_eq_default word _ (by omega), List.getD_eq_default _ _ (by simp; omega)]
  . rw [hother _ _ hrow, hother _ _ hrow]
    split
    . rw [List.getD_eq_default [c] _ (by simp; omega)]
    . rfl

inductive Position (done : List (List UInt8)) : List UInt8 → Option Nat → Nat → Prop where
  | between : done.length < 4 → Position done [] none done.length
  | inside {word : List UInt8} : done.length < 4 → word ≠ [] → (0x20 : UInt8) ∉ word →
    Position done word (some word.length) (done.length + 1)

theorem Position.lt {done : List (List UInt8)} {word : List UInt8} {wordIndex : Option Nat}
    {argc : Nat} (h : Position done word wordIndex argc)
    : done.length < 4 := by
  cases h with
  | between hdone => exact hdone
  | inside hdone _ _ => exact hdone

theorem Position.space_not_mem {done : List (List UInt8)} {word : List UInt8}
    {wordIndex : Option Nat} {argc : Nat} (h : Position done word wordIndex argc)
    : (0x20 : UInt8) ∉ word := by
  cases h with
  | between _ => simp
  | inside _ _ hspace => exact hspace

theorem Position.char {done : List (List UInt8)} {word : List UInt8} {wordIndex : Option Nat}
    {argc : Nat} (h : Position done word wordIndex argc) {c : UInt8} (hc : c ≠ 0x20)
    : Position done (word ++ [c]) (some (word ++ [c]).length) (done.length + 1) := by
  apply Position.inside h.lt (by simp)
  rw [List.mem_append, List.mem_singleton, not_or]
  exact ⟨h.space_not_mem, Ne.symm hc⟩

theorem mem_take {α : Type} {n : Nat} {done rest : List α} {a : α} (h : done.length < n)
    : a ∈ (done ++ a :: rest).take n := by
  have hsub : n - done.length = n - done.length - 1 + 1 := by omega
  rw [List.take_append, hsub, List.take_succ_cons]
  simp

section

variable (line : List UInt8) (argv : Argv) (argc : Nat) (wordIndex : Option Nat)

theorem split_newline : split (0x0A :: line) argv argc wordIndex = some (argv, argc) := by
  unfold split
  rw [if_pos rfl]

theorem split_space
    : split (0x20 :: line) argv argc wordIndex
        = if wordIndex.isSome ∧ argc = 4 then some (argv, argc) else split line argv argc none := by
  rw [split.eq_def]
  dsimp only
  rw [if_neg (by decide), if_pos rfl]

theorem split_none {c : UInt8} (hnewline : c ≠ 0x0A) (hspace : c ≠ 0x20)
    : split (c :: line) argv argc none
        = (store argv (100 * argc) [c]).bind fun argv => split line argv (argc + 1) (some 1) := by
  rw [split.eq_def]
  dsimp only
  rw [if_neg hnewline, if_neg hspace]
  rfl

theorem split_some {c : UInt8} (hnewline : c ≠ 0x0A) (hspace : c ≠ 0x20) (wordIndex : Nat)
    : split (c :: line) argv argc (some wordIndex)
        = (store argv (100 * (argc - 1) + wordIndex) [c]).bind fun argv =>
          split line argv argc (some (wordIndex + 1)) := by
  rw [split.eq_def]
  dsimp only
  rw [if_neg hnewline, if_neg hspace]
  rfl

end

open Words in
/--
The words found so far, with the one that is being read, are followed by the words that are left, up
to the fourth.
-/
theorem split_eq (chars rest : List UInt8) (hnewline : (0x0A : UInt8) ∉ chars)
    {done : List (List UInt8)} {word : List UInt8} {wordIndex : Option Nat} {argc : Nat}
    (hposition : Position done word wordIndex argc)
    (hlength : ∀ word' ∈ (done ++ words 0x20 (word ++ chars)).take 4, word'.length < 100)
    : split (chars ++ 0x0A :: rest) (rows (done ++ [word])) argc wordIndex
        =
      some (rows ((done ++ words 0x20 (word ++ chars)).take 4),
        ((done ++ words 0x20 (word ++ chars)).take 4).length) := by
  induction chars generalizing done word wordIndex argc with
  | nil =>
    rw [List.nil_append, split_newline, List.append_nil]
    cases hposition with
    | between hdone =>
      rw [rows_concat_nil, words_nil, List.append_nil, List.take_of_length_le (by omega)]
    | inside hdone hne hspace =>
      rw [words_of_not_mem hspace hne, List.take_of_length_le (by simp; omega)]
      simp
  | cons c chars ih =>
    rw [List.mem_cons, not_or] at hnewline
    rw [List.cons_append]
    by_cases hc : c = 0x20
    . rw [hc, split_space]
      cases hposition with
      | between hdone =>
        have hnext := ih hnewline.2 (.between hdone)
        rw [hc, List.nil_append, words_cons_separator] at hlength
        rw [if_neg (by simp), List.nil_append, words_cons_separator]
        apply hnext hlength
      | inside hdone hne hspace =>
        have happend : done ++ word :: words 0x20 chars = (done ++ [word]) ++ words 0x20 chars := by
          rw [List.append_assoc, List.singleton_append]
        rw [hc, words_append_separator hspace hne, happend] at hlength
        rw [words_append_separator hspace hne, happend]
        split
        . next hlast =>
          have hfour : (done ++ [word]).length = 4 := by simpa using hlast.2
          rw [List.take_left' hfour, hfour, hlast.2]
        . next hlast =>
          have hless : (done ++ [word]).length < 4 := by
            rw [Option.isSome_some, eq_self, true_and] at hlast
            rw [List.length_append, List.length_singleton]
            omega
          have hnext := ih hnewline.2 (.between hless) hlength
          rw [rows_concat_nil, List.length_append] at hnext
          exact hnext
    . have happend : word ++ c :: chars = (word ++ [c]) ++ chars := by
        rw [List.append_assoc, List.singleton_append]
      rw [happend] at hlength ⊢
      have hlt : word.length < 100 := by
        rcases words_append (hposition.char hc).space_not_mem (by simp) chars with ⟨more, tail, heq⟩
        have hmem := hlength (word ++ [c] ++ more) (by
          rw [heq]
          apply mem_take hposition.lt)
        simp only [List.length_append] at hmem
        omega
      have hstore := store_rows done c hposition.lt hlt
      rw [← ih hnewline.2 (hposition.char hc) hlength]
      cases hposition with
      | between hdone =>
        rw [List.length_nil, Nat.add_zero] at hstore
        rw [split_none _ _ _ (Ne.symm hnewline.1) hc, hstore]
        rfl
      | inside hdone hne hspace =>
        have hargc : done.length + 1 - 1 = done.length := by omega
        rw [split_some _ _ _ (Ne.symm hnewline.1) hc, hargc, hstore, List.length_append]
        rfl

end lineParser

/--
What is typed so far, after one more key: a backspace takes the last character away.
-/
def main.typed (text : List UInt8) (key : Option UInt8) : List UInt8 :=
  match key with
  | none => text
  | some c => if c = 0x08 then text.dropLast else if c = 0 then text else text ++ [c]

/--
The text never gets longer than the buffer, and there is room for the newline behind it.
-/
def main.Fits (text : List UInt8) : List (Option UInt8) → Prop
  | [] => text.length < 2000
  | key :: keys => (main.typed text key).length ≤ 2000 ∧ main.Fits (main.typed text key) keys

namespace main.Input

def line_of (text : List UInt8) : Fin 2000 → UInt8 :=
  fun k => text.getD k 0

variable {s : main.Input} {text : List UInt8} {keys : List (Option UInt8)}

theorem store_char (c : UInt8) (h : text.length < 2000)
    : store (line_of text) text.length [c] = some (line_of (text ++ [c])) := by
  unfold store
  rw [List.length_singleton, if_pos (by omega)]
  congr 1
  funext k
  unfold line_of
  rcases Nat.lt_trichotomy k.val text.length with hlt | heq | hgt
  . rw [if_neg (by omega), List.getD_append _ _ _ _ hlt]
  . rw [if_pos (by omega), heq, Nat.sub_self, List.getD_append_right _ _ _ _ (Nat.le_refl _),
      Nat.sub_self]
    rfl
  . rw [if_pos (by omega), List.getD_eq_default [c] _ (by simp; omega)]
    rw [List.getD_eq_default text _ (by omega), List.getD_eq_default _ _ (by simp; omega)]

theorem store_overrun (line : Fin 2000 → UInt8) (c : UInt8) {n : Nat} (h : 2000 ≤ n)
    : store line n [c] = none := by
  unfold store
  rw [List.length_singleton, if_neg (by omega)]

theorem store_backspace (hne : text ≠ []) (h : text.length ≤ 2000)
    : store (line_of text) (text.length - 1) [0] = some (line_of text.dropLast) := by
  have hpos := List.length_pos_iff.mpr hne
  unfold store
  rw [List.length_singleton, if_pos (by omega)]
  congr 1
  funext k
  unfold line_of
  have hlength : text.dropLast.length = text.length - 1 := List.length_dropLast
  rcases Nat.lt_trichotomy k.val (text.length - 1) with hlt | heq | hgt
  . rw [if_neg (by omega), List.getD_eq_getElem _ _ (by omega), List.getD_eq_getElem _ _ (by omega),
      List.getElem_dropLast]
  . rw [if_pos (by omega), heq, Nat.sub_self, List.getD_eq_default text.dropLast _ (by omega)]
    rfl
  . rw [if_pos (by omega), List.getD_eq_default [0] _ (by simp; omega)]
    rw [List.getD_eq_default text _ (by omega), List.getD_eq_default text.dropLast _ (by omega)]

structure Holds (s : main.Input) (text : List UInt8) : Prop where
  line : s.line = line_of text
  linelen : s.linelen = text.length
  goes_on : s.isEndLine = false
  buf : s.buf = 0 ∨ s.buf = 0x08 ∧ text = []
  length_le : text.length ≤ 2000

theorem holds_reset : reset.Holds [] where
  line := rfl
  linelen := rfl
  goes_on := rfl
  buf := Or.inl rfl
  length_le := by simp

theorem edit_zero (hbuf : s.buf = 0) : main.edit s = some (main.syscall_put s) := by
  unfold main.edit
  rw [hbuf]
  rfl

theorem edit_backspace_nil (hbuf : s.buf = 0x08) (hlinelen : s.linelen = 0)
    : main.edit s = some s := by
  unfold main.edit
  rw [if_pos hbuf, if_pos hlinelen]

theorem edit_backspace (hbuf : s.buf = 0x08) (hline : s.line = line_of text)
    (hlinelen : s.linelen = text.length) (hne : text ≠ []) (hle : text.length ≤ 2000)
    : main.edit s
        = some (main.syscall_put { s with
            line := line_of text.dropLast
            linelen := text.length - 1 }) := by
  have hpos := List.length_pos_iff.mpr hne
  unfold main.edit
  rw [if_pos hbuf, hlinelen, if_neg (by omega), hline, store_backspace hne hle]
  rfl

theorem edit_char (hbuf : s.buf ≠ 0x08) (hzero : s.buf ≠ 0) (hline : s.line = line_of text)
    (hlinelen : s.linelen = text.length) (hlt : text.length < 2000)
    : main.edit s
        = some (main.syscall_put { s with
            line := line_of (text ++ [s.buf])
            linelen := text.length + 1 }) := by
  unfold main.edit
  rw [if_neg hbuf, if_pos hzero, hlinelen, hline, store_char _ hlt]
  rfl

theorem edit_overrun (hbuf : s.buf ≠ 0x08) (hzero : s.buf ≠ 0) (hlinelen : 2000 ≤ s.linelen)
    : main.edit s = none := by
  unfold main.edit
  rw [if_neg hbuf, if_pos hzero, store_overrun _ _ hlinelen]
  rfl

theorem poll_some (s : main.Input) (c : UInt8)
    : main.poll s (some c)
        = main.edit { s with
            buf := c
            isEndLine := s.isEndLine || c = 0x0A } := by
  rfl

theorem poll_none (s : main.Input)
    : main.poll s none = main.edit { s with isEndLine := s.isEndLine || s.buf = 0x0A } := by
  rfl

@[simp]
theorem typed_zero (text : List UInt8) : main.typed text (some 0) = text := by
  rfl

@[simp]
theorem typed_backspace (text : List UInt8) : main.typed text (some 0x08) = text.dropLast := by
  rfl

theorem typed_char (text : List UInt8) {c : UInt8} (hbackspace : c ≠ 0x08) (hzero : c ≠ 0)
    : main.typed text (some c) = text ++ [c] := by
  unfold main.typed
  dsimp only
  rw [if_neg hbackspace, if_neg hzero]

namespace Holds

variable (h : s.Holds text)

include h

theorem none : ∃ s', main.poll s none = some s' ∧ s'.Holds text := by
  have hopen := h.goes_on
  rw [poll_none]
  rcases h.buf with hbuf | ⟨hbuf, htext⟩
  . refine ⟨_, edit_zero hbuf, h.line, h.linelen, ?_, Or.inl rfl, h.length_le⟩
    simp [main.syscall_put, hopen, hbuf]
  . have hlinelen := h.linelen
    rw [htext, List.length_nil] at hlinelen
    refine ⟨_, edit_backspace_nil hbuf hlinelen, h.line, h.linelen, ?_, Or.inr ⟨hbuf, htext⟩,
      h.length_le⟩
    simp [hopen, hbuf]

theorem backspace
    : ∃ s', main.poll s (some 0x08) = some s' ∧ s'.Holds text.dropLast := by
  have hopen := h.goes_on
  have hlength : text.dropLast.length = text.length - 1 := List.length_dropLast
  have hle := h.length_le
  rw [poll_some]
  by_cases hne : text = []
  . have hlinelen := h.linelen
    rw [hne, List.length_nil] at hlinelen
    have hline := h.line
    rw [hne] at hline
    rw [hne]
    refine ⟨_, edit_backspace_nil rfl hlinelen, hline, hlinelen, ?_, Or.inr ⟨rfl, rfl⟩, by simp⟩
    simp [hopen]
  . refine ⟨_, edit_backspace rfl h.line h.linelen hne hle, rfl, hlength.symm, ?_, Or.inl rfl,
      by omega⟩
    simp [main.syscall_put, hopen]

theorem zero : ∃ s', main.poll s (some 0) = some s' ∧ s'.Holds text := by
  have hopen := h.goes_on
  rw [poll_some]
  refine ⟨_, edit_zero rfl, h.line, h.linelen, ?_, Or.inl rfl, h.length_le⟩
  simp [main.syscall_put, hopen]

theorem char {c : UInt8} (hbackspace : c ≠ 0x08) (hzero : c ≠ 0) (hlt : text.length < 2000)
    : ∃ s', main.poll s (some c) = some s' ∧ s'.line = line_of (text ++ [c]) ∧
        s'.isEndLine = decide (c = 0x0A) ∧ (c ≠ 0x0A → s'.Holds (text ++ [c])) := by
  have hopen := h.goes_on
  rw [poll_some]
  refine ⟨_, edit_char hbackspace hzero h.line h.linelen hlt, rfl, ?_, ?_⟩
  . simp [main.syscall_put, hopen]
  . intro hnewline
    refine ⟨rfl, ?_, ?_, Or.inl rfl, ?_⟩
    . simp [main.syscall_put]
    . simp [main.syscall_put, hopen, hnewline]
    . simp
      omega

theorem overrun {c : UInt8} (hbackspace : c ≠ 0x08) (hzero : c ≠ 0) (hfull : ¬ text.length < 2000)
    : main.poll s (some c) = Option.none := by
  have hlinelen := h.linelen
  rw [poll_some]
  apply edit_overrun hbackspace hzero
  dsimp only
  omega

theorem poll {key : Option UInt8} (hkey : key ≠ some 0x0A)
    : ((main.typed text key).length ≤ 2000 →
          ∃ s', main.poll s key = some s' ∧ s'.Holds (main.typed text key)) ∧
        (¬ (main.typed text key).length ≤ 2000 → main.poll s key = Option.none) := by
  have hle := h.length_le
  cases key with
  | none => exact ⟨fun _ => h.none, fun hlong => absurd hle hlong⟩
  | some c =>
    have hnewline : c ≠ 0x0A := by
      intro heq
      rw [heq] at hkey
      contradiction
    by_cases hbackspace : c = 0x08
    . rw [hbackspace, typed_backspace]
      refine ⟨fun _ => h.backspace, fun hlong => ?_⟩
      rw [List.length_dropLast] at hlong
      omega
    . by_cases hzero : c = 0
      . rw [hzero, typed_zero]
        exact ⟨fun _ => h.zero, fun hlong => absurd hle hlong⟩
      . rw [typed_char _ hbackspace hzero, List.length_append, List.length_singleton]
        constructor
        . intro hlt
          rcases h.char hbackspace hzero hlt with ⟨s', hpoll, _, _, hholds⟩
          exact ⟨s', hpoll, hholds hnewline⟩
        . intro hfull
          apply h.overrun hbackspace hzero hfull

end Holds

theorem getline_iff (h : s.Holds text) (hkeys : ∀ key ∈ keys, key ≠ some 0x0A)
    : (main.Fits text keys →
          ∃ s', main.getline s (keys ++ [some 0x0A]) = some s' ∧ s'.isEndLine = true ∧
            s'.line = line_of (keys.foldl main.typed text ++ [0x0A]) ∧
              (keys.foldl main.typed text).length < 2000) ∧
        (¬ main.Fits text keys → main.getline s (keys ++ [some 0x0A]) = none) := by
  induction keys generalizing s text with
  | nil =>
    have hopen := h.goes_on
    unfold main.Fits
    rw [List.nil_append, main.getline, if_neg (by simp [hopen]), Option.bind_eq_bind]
    constructor
    . intro hlt
      rcases h.char (c := 0x0A) (by decide) (by decide) hlt with ⟨s', hpoll, hline, hend, _⟩
      rw [hpoll]
      exact ⟨s', rfl, hend, hline, hlt⟩
    . intro hfull
      rw [h.overrun (by decide) (by decide) hfull]
      rfl
  | cons key keys ih =>
    rw [List.forall_mem_cons] at hkeys
    have hopen := h.goes_on
    unfold main.Fits
    rw [List.cons_append, main.getline, if_neg (by simp [hopen]), Option.bind_eq_bind,
      List.foldl_cons]
    constructor
    . intro ⟨hlength, hfits⟩
      rcases (h.poll hkeys.1).1 hlength with ⟨s', hpoll, hholds⟩
      rw [hpoll, Option.bind_some]
      apply (ih hholds hkeys.2).1 hfits
    . intro hnot
      by_cases hlength : (main.typed text key).length ≤ 2000
      . rcases (h.poll hkeys.1).1 hlength with ⟨s', hpoll, hholds⟩
        rw [hpoll, Option.bind_some]
        apply (ih hholds hkeys.2).2
        intro hfits
        exact hnot ⟨hlength, hfits⟩
      . rw [(h.poll hkeys.1).2 hlength]
        rfl

theorem newline_not_mem (hkeys : ∀ key ∈ keys, key ≠ some 0x0A) (htext : (0x0A : UInt8) ∉ text)
    : (0x0A : UInt8) ∉ keys.foldl main.typed text := by
  induction keys generalizing text with
  | nil => exact htext
  | cons key keys ih =>
    rw [List.forall_mem_cons] at hkeys
    apply ih hkeys.2
    unfold main.typed
    split
    . exact htext
    . next c =>
      split
      . intro hmem
        apply htext (List.mem_of_mem_dropLast hmem)
      . split
        . exact htext
        . rw [List.mem_append, List.mem_singleton, not_or]
          refine ⟨htext, ?_⟩
          intro heq
          rw [← heq] at hkeys
          exact hkeys.1 rfl

theorem ofFn_line_of (h : text.length < 2000)
    : List.ofFn (line_of (text ++ [0x0A])) = text ++ 0x0A :: List.replicate (1999 - text.length) 0 := by
  apply List.ext_getElem
  . rw [List.length_ofFn, List.length_append, List.length_cons, List.length_replicate]
    omega
  . intro k hk hk'
    rw [List.getElem_ofFn]
    unfold line_of
    dsimp only
    rcases Nat.lt_trichotomy k text.length with hlt | heq | hgt
    . rw [List.getD_append _ _ _ _ hlt, List.getD_eq_getElem _ _ hlt, List.getElem_append_left hlt]
    . rw [List.getD_append_right _ _ _ _ (by omega), List.getElem_append_right (by omega)]
      simp [heq]
    . rw [List.getD_eq_default _ _ (by simp; omega), List.getElem_append_right (by omega),
        List.getElem_cons, dif_neg (by omega), List.getElem_replicate]

end main.Input

/--
The words of the line in the rows of `argv`, as `main` reads it up to the newline and `lineParser`
splits it: at most four words, each before a zero byte in its row, and the other rows empty.
-/
def ReadsLine (keys : List (Option UInt8)) : Prop :=
  ∃ s argv argc, main.getline .reset (keys ++ [some 0x0A]) = some s ∧ s.isEndLine = true ∧
    lineParser (List.ofFn s.line) = some (argv, argc) ∧
      argc = min 4 (Words.words 0x20 (keys.foldl main.typed [])).length ∧
      (∀ k < argc, ∃ word, (Words.words 0x20 (keys.foldl main.typed []))[k]? = some word ∧
        word.length < 100 ∧
          (argv.row k).take 100 = word ++ List.replicate (100 - word.length) 0) ∧
      ∀ k, argc ≤ k → k < 4 → (argv.row k).take 100 = List.replicate 100 0

namespace lineParser

theorem lineParser_eq {text : List UInt8} (rest : List UInt8) (hnewline : (0x0A : UInt8) ∉ text)
    (hlength : ∀ word ∈ (Words.words 0x20 text).take 4, word.length < 100)
    : lineParser (text ++ 0x0A :: rest)
        = some (rows ((Words.words 0x20 text).take 4), ((Words.words 0x20 text).take 4).length) := by
  have hrows : rows ([] ++ [[]]) = fun _ => 0 := by
    rw [rows_concat_nil]
    rfl
  have hposition : Position [] [] none 0 := .between (by simp)
  have hsplit := split_eq text rest hnewline hposition hlength
  rw [hrows] at hsplit
  exact hsplit

theorem take_row (words : List (List UInt8)) {k : Nat} (hk : k < 4)
    (hword : (words.getD k []).length ≤ 100)
    : ((rows words).row k).take 100
        = words.getD k [] ++ List.replicate (100 - (words.getD k []).length) 0 := by
  apply List.ext_getElem
  . unfold Argv.row
    rw [List.length_take, List.length_drop, List.length_ofFn, List.length_append,
      List.length_replicate]
    omega
  . intro i hi hi'
    unfold Argv.row at hi ⊢
    rw [List.length_take] at hi
    rw [List.getElem_take, List.getElem_drop, List.getElem_ofFn]
    have hdiv : (100 * k + i) / 100 = k := by omega
    have hmod : (100 * k + i) % 100 = i := by omega
    unfold rows
    dsimp only
    rw [hdiv, hmod, List.getElem_append]
    split
    . next hlt => rw [List.getD_eq_getElem _ _ hlt]
    . next hge => rw [List.getD_eq_default _ _ (by omega), List.getElem_replicate]

end lineParser

section

variable {keys : List (Option UInt8)} (hkeys : ∀ key ∈ keys, key ≠ some 0x0A)

theorem word_length_of_readsLine (h : ReadsLine keys)
    : ∀ word ∈ (Words.words 0x20 (keys.foldl main.typed [])).take 4, word.length < 100 := by
  rcases h with ⟨s, argv, argc, _, _, _, hargc, hrows, _⟩
  intro word hmem
  rw [List.mem_take_iff_getElem] at hmem
  rcases hmem with ⟨k, hk, hword⟩
  rcases hrows k (by omega) with ⟨word', hword', hlt, _⟩
  rw [List.getElem?_eq_getElem (by omega), hword, Option.some.injEq] at hword'
  rw [hword']
  exact hlt

include hkeys

theorem fits_of_readsLine (h : ReadsLine keys) : main.Fits [] keys := by
  have hgetline := main.Input.getline_iff main.Input.holds_reset hkeys
  rcases h with ⟨s, _, _, hrun, _⟩
  by_contra hfits
  rw [hgetline.2 hfits] at hrun
  contradiction

theorem readsLine_of_fits (hfits : main.Fits [] keys)
    (hlength : ∀ word ∈ (Words.words 0x20 (keys.foldl main.typed [])).take 4, word.length < 100)
    : ReadsLine keys := by
  have hgetline := main.Input.getline_iff main.Input.holds_reset hkeys
  rcases hgetline.1 hfits with ⟨s, hrun, hend, hline, hlt⟩
  have hnewline : (0x0A : UInt8) ∉ keys.foldl main.typed [] :=
    main.Input.newline_not_mem hkeys (by simp)
  have hline : lineParser (List.ofFn s.line)
      = some (lineParser.rows ((Words.words 0x20 (keys.foldl main.typed [])).take 4),
        ((Words.words 0x20 (keys.foldl main.typed [])).take 4).length) := by
    rw [hline, main.Input.ofFn_line_of hlt]
    apply lineParser.lineParser_eq _ hnewline hlength
  unfold ReadsLine
  generalize Words.words 0x20 (keys.foldl main.typed []) = words at hline hlength ⊢
  refine ⟨s, _, _, hrun, hend, hline, List.length_take, ?_, ?_⟩
  . intro k hk
    have hget := List.getElem?_eq_getElem hk
    have hlt := hlength _ (List.getElem_mem hk)
    rw [List.length_take] at hk
    have hrow := lineParser.take_row (words.take 4) (by omega : k < 4)
    rw [List.getD_eq_getElem?_getD, hget, Option.getD_some] at hrow
    refine ⟨_, ?_, hlt, hrow (by omega)⟩
    rw [List.getElem?_take_of_lt (by omega)] at hget
    exact hget
  . intro k hargc hk
    have hrow := lineParser.take_row (words.take 4) hk
    rw [List.getD_eq_default _ _ hargc] at hrow
    apply hrow (by simp)

/--
For any keys before a newline.
-/
theorem readsLine_iff
    : ReadsLine keys
        ↔
      main.Fits [] keys ∧
        ∀ word ∈ (Words.words 0x20 (keys.foldl main.typed [])).take 4, word.length < 100 := by
  constructor
  . intro h
    exact ⟨fits_of_readsLine hkeys h, word_length_of_readsLine h⟩
  . intro ⟨hfits, hlength⟩
    apply readsLine_of_fits hkeys hfits hlength

end

-- `cat` with two words behind, one key late and one taken back
theorem readsLine_cat
    : ReadsLine [some 0x63, some 0x61, none, some 0x78, some 0x08, some 0x74, some 0x20, some 0x61,
        some 0x20, some 0x20, some 0x62] := by
  apply (readsLine_iff (by simp)).mpr
  constructor
  . simp [main.Fits, main.typed]
  . have hwords : Words.words 0x20 ([0x63, 0x61, 0x74, 0x20, 0x61, 0x20, 0x20, 0x62] : List UInt8)
        = [[0x63, 0x61, 0x74], [0x61], [0x62]] := by
      decide
    simp [main.typed, hwords]

theorem foldl_typed_replicate (n : Nat) (text : List UInt8)
    : (List.replicate n (some 0x61)).foldl main.typed text = text ++ List.replicate n 0x61 := by
  induction n generalizing text with
  | zero => simp
  | succ n ih =>
    rw [List.replicate_succ, List.foldl_cons, ih,
      main.Input.typed_char _ (by decide) (by decide), List.append_assoc, List.replicate_succ]
    rfl

theorem length_of_fits {keys : List (Option UInt8)} {text : List UInt8} (h : main.Fits text keys)
    : (keys.foldl main.typed text).length < 2000 := by
  induction keys generalizing text with
  | nil => exact h
  | cons key keys ih => apply ih h.2

theorem not_readsLine_of_word {n : Nat} (hn : 100 ≤ n)
    : ¬ ReadsLine (List.replicate n (some 0x61)) := by
  intro h
  have hlength := word_length_of_readsLine h
  have hspace : (0x20 : UInt8) ∉ List.replicate n 0x61 := by
    intro hmem
    have heq := List.eq_of_mem_replicate hmem
    contradiction
  have hne : List.replicate n (0x61 : UInt8) ≠ [] := by
    rw [← List.length_pos_iff, List.length_replicate]
    omega
  rw [foldl_typed_replicate, List.nil_append, Words.words_of_not_mem hspace hne,
    List.take_of_length_le (by simp), List.forall_mem_singleton, List.length_replicate] at hlength
  omega

-- a single word, of 150 characters and of 2000
theorem not_readsLine
    : ¬ ReadsLine (List.replicate 150 (some 0x61)) ∧
        main.getline .reset (List.replicate 2000 (some 0x61) ++ [some 0x0A]) = none ∧
        ¬ ReadsLine (List.replicate 2000 (some 0x61)) := by
  have hkeys : ∀ n, ∀ key ∈ List.replicate n (some (0x61 : UInt8)), key ≠ some 0x0A := by
    intro n key hkey
    rw [List.eq_of_mem_replicate hkey]
    decide
  have hlong : ¬ main.Fits [] (List.replicate 2000 (some 0x61)) := by
    intro hfits
    have hlength := length_of_fits hfits
    rw [foldl_typed_replicate] at hlength
    rw [List.nil_append, List.length_replicate] at hlength
    omega
  refine ⟨not_readsLine_of_word (by omega), ?_, not_readsLine_of_word (by omega)⟩
  apply (main.Input.getline_iff main.Input.holds_reset (hkeys 2000)).2 hlong

end AiOS
