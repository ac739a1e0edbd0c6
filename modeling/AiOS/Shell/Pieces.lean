import AiOS.Lib.Words
import AiOS.Shell.Lemmas.Path

/-!
This module contains when `parsePath` and `parseExt` split an argument exactly. The rows of their
table have ten bytes, and a longer piece goes on in the rows behind its own.
-/

namespace AiOS

namespace split

/--
The pieces one after the other, each from the start of its row on.
-/
def puts : List (List UInt8) → Nat → PathList → PathList
  | [], _, output => output
  | piece :: pieces, base, output => puts pieces (base + 1) (put piece (10 * base) output)

def Fits : List (List UInt8) → Nat → Prop
  | [], _ => True
  | piece :: pieces, base =>
    (piece ≠ [] → 10 * base + piece.length ≤ 160) ∧ Fits pieces (base + 1)

variable {separator : UInt8} {pieces : List (List UInt8)} {base : Nat}

theorem fits_iff
    : Fits pieces base ↔
        ∀ k piece, pieces[k]? = some piece → piece ≠ [] → 10 * (base + k) + piece.length ≤ 160 := by
  induction pieces generalizing base with
  | nil => simp [Fits]
  | cons piece pieces ih =>
    unfold Fits
    rw [ih]
    constructor
    . intro ⟨hpiece, hpieces⟩ k piece' hk hne
      cases k with
      | zero =>
        rw [List.getElem?_cons_zero, Option.some.injEq] at hk
        rw [← hk] at hne ⊢
        apply hpiece hne
      | succ k =>
        rw [List.getElem?_cons_succ] at hk
        have hfit := hpieces k piece' hk hne
        omega
    . intro h
      constructor
      . intro hne
        apply h 0 piece rfl hne
      . intro k piece' hk hne
        have hfit := h (k + 1) piece' hk hne
        omega

theorem split_word_overrun {word : List UInt8} (hword : separator ∉ word) (hne : word ≠ [])
    (chars : List UInt8) (wordCount wordIndex : Nat) (output : PathList)
    (hover : 160 < 10 * (wordCount - 1) + wordIndex + word.length)
    : split separator (word ++ chars) wordCount wordIndex output = none := by
  induction word generalizing wordIndex output with
  | nil => contradiction
  | cons c word ih =>
    rw [List.mem_cons, not_or] at hword
    rw [List.length_cons] at hover
    rw [List.cons_append, split, if_neg (Ne.symm hword.1), Option.bind_eq_bind]
    by_cases hfit : 10 * (wordCount - 1) + wordIndex + 1 ≤ 160
    . rw [store_eq _ (by simpa using hfit), Option.bind_some]
      apply ih hword.2
      . intro hnil
        rw [hnil, List.length_nil] at hover
        omega
      . omega
    . have hstore : store output (10 * (wordCount - 1) + wordIndex) [c] = none := by
        unfold store
        rw [if_neg (by simpa using hfit)]
      rw [hstore]
      rfl

theorem split_piece (base : Nat) {word : List UInt8} (hword : separator ∉ word) (chars : List UInt8)
    (output : PathList)
    : ((word ≠ [] → 10 * base + word.length ≤ 160) →
          split separator (word ++ chars) (base + 1) 0 output
            = split separator chars (base + 1) word.length (put word (10 * base) output)) ∧
        (¬ (word ≠ [] → 10 * base + word.length ≤ 160) →
          split separator (word ++ chars) (base + 1) 0 output = none) := by
  have hstart : 10 * (base + 1 - 1) + 0 = 10 * base := by omega
  constructor
  . intro hfit
    by_cases hne : word = []
    . rw [hne, put_nil]
      rfl
    . rw [split_word word chars hword, hstart, Nat.zero_add]
      rw [hstart]
      apply hfit hne
  . intro hfit
    rw [Classical.not_imp] at hfit
    apply split_word_overrun hword hfit.1
    omega

theorem split_pieces (base : Nat) (hne : pieces ≠ []) (hpiece : ∀ piece ∈ pieces, separator ∉ piece)
    (output : PathList)
    : (Fits pieces base →
          split separator ([separator].intercalate pieces) (base + 1) 0 output
            = some (puts pieces base output, base + pieces.length)) ∧
        (¬ Fits pieces base →
          split separator ([separator].intercalate pieces) (base + 1) 0 output = none) := by
  induction pieces generalizing base output with
  | nil => contradiction
  | cons piece pieces ih =>
    rw [List.forall_mem_cons] at hpiece
    have hword := fun chars => split_piece base hpiece.1 chars output
    have hchars : ∃ chars, [separator].intercalate (piece :: pieces) = piece ++ chars ∧
        ∀ output, (Fits pieces (base + 1) →
            split separator chars (base + 1) piece.length output
              = some (puts pieces (base + 1) output, base + (piece :: pieces).length)) ∧
          (¬ Fits pieces (base + 1) →
            split separator chars (base + 1) piece.length output = none) := by
      rw [List.length_cons]
      cases pieces with
      | nil =>
        refine ⟨[], by simp, ?_⟩
        intro output
        exact ⟨fun _ => rfl, fun h => absurd trivial h⟩
      | cons piece' pieces =>
        refine ⟨separator :: [separator].intercalate (piece' :: pieces), ?_, ?_⟩
        . rw [List.intercalate_cons_cons, List.append_assoc, List.singleton_append]
        . intro output
          have hcount : base + 1 + (piece' :: pieces).length
              = base + ((piece' :: pieces).length + 1) := by omega
          rw [split, if_pos rfl, ← hcount]
          apply ih (base + 1) (by simp) hpiece.2
    rcases hchars with ⟨chars, hintercalate, hchars⟩
    unfold Fits puts
    rw [hintercalate]
    constructor
    . intro hfit
      rw [(hword chars).1 hfit.1, (hchars _).1 hfit.2]
    . intro hfit
      by_cases hfirst : piece ≠ [] → 10 * base + piece.length ≤ 160
      . rw [(hword chars).1 hfirst]
        apply (hchars _).2
        intro hrest
        exact hfit ⟨hfirst, hrest⟩
      . apply (hword chars).2 hfirst

theorem puts_before (pieces : List (List UInt8)) (output : PathList) {x : Fin 160}
    (hx : x.val < 10 * base)
    : puts pieces base output x = output x := by
  induction pieces generalizing base output with
  | nil => rfl
  | cons piece pieces ih =>
    unfold puts
    rw [ih _ (by omega)]
    unfold put
    rw [if_neg (by omega)]

theorem puts_piece {piece : List UInt8} {k i : Nat} (hk : pieces[k]? = some piece)
    (hi : i < piece.length) (hlt : i < 10) (output : PathList) {x : Fin 160}
    (hx : x.val = 10 * (base + k) + i)
    : puts pieces base output x = piece.getD i 0 := by
  induction pieces generalizing base output k with
  | nil => simp at hk
  | cons first pieces ih =>
    unfold puts
    cases k with
    | zero =>
      rw [List.getElem?_cons_zero, Option.some.injEq] at hk
      have hsub : x.val - 10 * base = i := by omega
      rw [puts_before _ _ (by omega), hk]
      unfold put
      rw [if_pos (by omega), hsub, List.getD_eq_getElem _ _ hi, List.getD_eq_getElem _ _ hi]
    | succ k =>
      rw [List.getElem?_cons_succ] at hk
      apply ih hk _ (by omega)

-- behind its piece a row is zero unless an earlier piece reaches that far
theorem puts_behind (hpieces : ∀ piece ∈ pieces, (0 : UInt8) ∉ piece) {piece : List UInt8}
    {k i : Nat} (hk : pieces[k]? = some piece) (hi : piece.length ≤ i) (hlt : i < 10)
    (output : PathList) {x : Fin 160} (hx : x.val = 10 * (base + k) + i)
    : puts pieces base output x = 0 ↔
        output x = 0 ∧ ∀ j earlier, j < k → pieces[j]? = some earlier →
          10 * j + earlier.length ≤ 10 * k + i := by
  induction pieces generalizing base output k with
  | nil => simp at hk
  | cons first pieces ih =>
    rw [List.forall_mem_cons] at hpieces
    unfold puts
    cases k with
    | zero =>
      rw [List.getElem?_cons_zero, Option.some.injEq] at hk
      rw [puts_before _ _ (by omega), hk]
      unfold put
      rw [if_pos (by omega), List.getD_eq_default _ _ (by omega)]
      simp
    | succ k =>
      rw [List.getElem?_cons_succ] at hk
      rw [ih hpieces.2 hk _ (by omega)]
      unfold put
      rw [if_pos (by omega)]
      constructor
      . intro ⟨hzero, hearlier⟩
        by_cases hreach : x.val - 10 * base < first.length
        . rw [List.getD_eq_getElem _ _ hreach] at hzero
          exfalso
          apply hpieces.1
          rw [← hzero]
          apply List.getElem_mem
        . rw [List.getD_eq_default _ _ (by omega)] at hzero
          refine ⟨hzero, ?_⟩
          intro j earlier hj hget
          cases j with
          | zero =>
            rw [List.getElem?_cons_zero, Option.some.injEq] at hget
            rw [← hget]
            omega
          | succ j =>
            rw [List.getElem?_cons_succ] at hget
            have hle := hearlier j earlier (by omega) hget
            omega
      . intro ⟨hzero, hearlier⟩
        have hfirst := hearlier 0 first (by omega) rfl
        rw [List.getD_eq_default _ _ (by omega)]
        refine ⟨hzero, ?_⟩
        intro j earlier hj hget
        have hle := hearlier (j + 1) earlier (by omega) hget
        omega

theorem puts_row_iff (hpieces : ∀ piece ∈ pieces, (0 : UInt8) ∉ piece) {piece : List UInt8} {k : Nat}
    (hk : pieces[k]? = some piece) (hlt : k < 16)
    : bytes 8 ((puts pieces 0 fun _ => 0).row k) = some (entry_name piece)
        ↔
      (piece.length < 8 → ∀ j earlier, j < k → pieces[j]? = some earlier →
        10 * j + earlier.length ≤ 10 * k + piece.length) := by
  rw [PathList.bytes_row _ hlt, Option.some.injEq]
  constructor
  . intro hrow hshort
    have hzero := congrFun hrow ⟨piece.length, hshort⟩
    unfold entry_name at hzero
    rw [List.getD_eq_default _ _ (Nat.le_refl _)] at hzero
    rw [puts_behind hpieces hk (Nat.le_refl _) (by omega) _ (by simp)] at hzero
    exact hzero.2
  . intro hreach
    funext i
    unfold entry_name
    by_cases hi : i.val < piece.length
    . apply puts_piece hk hi (by omega)
      simp
    . rw [List.getD_eq_default _ _ (by omega)]
      have hbehind : piece.length ≤ i.val := by omega
      rw [puts_behind hpieces hk hbehind (by omega) _ (by simp)]
      refine ⟨rfl, ?_⟩
      intro j earlier hj hget
      have hle := hreach (by omega) j earlier hj hget
      omega

theorem row_eq_none (output : PathList) {k : Nat} (hk : 16 ≤ k) : bytes 8 (output.row k) = none := by
  unfold bytes PathList.row
  rw [dif_neg]
  rw [List.length_drop, List.length_ofFn]
  omega

end split

/--
What stands between the separators, without a separator at the very start.
-/
def pieces (separator : UInt8) (argument : List UInt8) : List (List UInt8) :=
  (if argument.head? = some separator then argument.tail else argument).splitOn separator

/--
Nothing is stored outside of the table, all separators but a first one are counted, and each row of
the pieces counted starts with the first eight characters of its piece, before zeros.
-/
def Splits (separator : UInt8) (argument : List UInt8) (result : Option (PathList × Nat)) : Prop :=
  ∃ output wordCount, result = some (output, wordCount) ∧
    wordCount = argument.tail.count separator + 1 ∧
      ∀ k < wordCount, ∃ piece, (pieces separator argument)[k]? = some piece ∧
        bytes 8 (output.row k) = some (entry_name piece)

/--
There are rows for all pieces, none goes on behind the table, and none of them reaches beyond the end
of a later one that leaves some of its eight bytes free.
-/
structure Apart (pieces : List (List UInt8)) : Prop where
  length_le : pieces.length ≤ 16
  inside : ∀ k piece, pieces[k]? = some piece → piece ≠ [] → 10 * k + piece.length ≤ 160
  reach : ∀ j k earlier piece, j < k → pieces[j]? = some earlier → pieces[k]? = some piece →
    piece.length < 8 → 10 * j + earlier.length ≤ 10 * k + piece.length

theorem Apart.of_length_le {pieces : List (List UInt8)} (hlength : pieces.length ≤ 16)
    (hpiece : ∀ piece ∈ pieces, piece.length ≤ 10)
    : Apart pieces where
  length_le := hlength
  inside k piece hk _ := by
    have hlt := (List.getElem?_eq_some_iff.mp hk).1
    have hle := hpiece piece (List.mem_of_getElem? hk)
    omega
  reach j k earlier piece hj hearlier _ _ := by
    have hle := hpiece earlier (List.mem_of_getElem? hearlier)
    omega

namespace pieces

variable {separator : UInt8} {argument : List UInt8}

theorem ne_nil : pieces separator argument ≠ [] := by
  unfold pieces
  apply List.splitOn_ne_nil

theorem length_eq : (pieces separator argument).length = argument.tail.count separator + 1 := by
  unfold pieces
  rw [Words.length_splitOn]
  split
  . rfl
  . next hhead =>
    cases argument with
    | nil => rfl
    | cons c argument =>
      rw [List.head?_cons, Option.some.injEq] at hhead
      rw [List.count_cons_of_ne hhead, List.tail_cons]

theorem not_mem {piece : List UInt8} (hpiece : piece ∈ pieces separator argument)
    : separator ∉ piece ∧ ∀ c ∈ piece, c ∈ argument := by
  unfold pieces at hpiece
  split at hpiece
  . rcases Words.mem_of_mem_splitOn hpiece with ⟨hnot, hmem⟩
    exact ⟨hnot, fun c hc => List.mem_of_mem_tail (hmem c hc)⟩
  . apply Words.mem_of_mem_splitOn hpiece

theorem parse_eq (separator : UInt8) (hzero : (0 : UInt8) ∉ argument) (rest : List UInt8)
    : parse separator (argument ++ 0 :: rest)
        = split separator ([separator].intercalate (pieces separator argument)) 1 0 fun _ => 0 := by
  unfold parse pieces
  rw [strlen.chars_eq hzero, Option.bind_eq_bind, Option.bind_some, List.intercalate_splitOn]
  split
  . rfl
  . rfl

theorem spell_eq (argument : List UInt8)
    : spell (decide (argument.head? = some 0x2F)) (pieces 0x2F argument) = argument := by
  unfold spell pieces
  by_cases h : argument.head? = some 0x2F
  . rw [if_pos h, if_pos (decide_eq_true h), List.intercalate_splitOn]
    exact List.cons_head?_tail h
  . rw [if_neg h, if_neg (by simpa using h), List.intercalate_splitOn]
    rfl

-- a path that starts with an empty word is empty, or it starts with a slash
theorem head?_ne (hne : argument ≠ []) (h : argument.head? ≠ some 0x2F)
    : (pieces 0x2F argument).head? ≠ some [] := by
  intro hhead
  have hspell := spell_eq argument
  rw [decide_eq_false h, spell_relative, List.eq_cons_of_mem_head? hhead] at hspell
  cases hrest : (pieces 0x2F argument).tail with
  | nil =>
    rw [hrest] at hspell
    exact hne hspell.symm
  | cons word words =>
    rw [hrest, List.intercalate_cons_cons] at hspell
    apply h
    rw [← hspell]
    rfl

theorem spellable (hne : argument ≠ []) (hzero : (0 : UInt8) ∉ argument)
    (hlength : (pieces 0x2F argument).length ≤ 16)
    (hpiece : ∀ piece ∈ pieces 0x2F argument, piece.length ≤ 10)
    : Spellable (decide (argument.head? = some 0x2F)) (pieces 0x2F argument) where
  ne_nil := ne_nil
  length_le := hlength
  word_length_le := hpiece
  zero_not_mem _ hword hmem := hzero ((not_mem hword).2 0 hmem)
  slash_not_mem _ hword := (not_mem hword).1
  relative h := head?_ne hne (of_decide_eq_false h)

end pieces

theorem parse_splits_iff (separator : UInt8) {argument : List UInt8}
    (hzero : (0 : UInt8) ∉ argument) (rest : List UInt8)
    : Splits separator argument (parse separator (argument ++ 0 :: rest))
        ↔
      Apart (pieces separator argument) := by
  have hnot : ∀ piece ∈ pieces separator argument, separator ∉ piece :=
    fun piece hpiece => (pieces.not_mem hpiece).1
  have hnozero : ∀ piece ∈ pieces separator argument, (0 : UInt8) ∉ piece :=
    fun piece hpiece hmem => hzero ((pieces.not_mem hpiece).2 0 hmem)
  have hsplit := split.split_pieces 0 pieces.ne_nil hnot fun _ => 0
  rw [pieces.parse_eq separator hzero]
  rw [Nat.zero_add, Nat.zero_add] at hsplit
  constructor
  . intro ⟨output, wordCount, hresult, hcount, hrows⟩
    have hfit : split.Fits (pieces separator argument) 0 := by
      by_contra hnofit
      rw [hsplit.2 hnofit] at hresult
      contradiction
    rw [hsplit.1 hfit] at hresult
    injection hresult with hresult
    injection hresult with houtput hlength
    have hlength : (pieces separator argument).length ≤ 16 := by
      by_contra hlong
      rcases hrows 16 (by omega) with ⟨piece, _, hbytes⟩
      rw [split.row_eq_none _ (Nat.le_refl _)] at hbytes
      contradiction
    refine ⟨hlength, ?_, ?_⟩
    . intro k piece hk hne
      have hinside := split.fits_iff.mp hfit k piece hk hne
      omega
    . intro j k earlier piece hj hearlier hk hshort
      have hlt := (List.getElem?_eq_some_iff.mp hk).1
      rcases hrows k (by omega) with ⟨piece', hk', hbytes⟩
      rw [hk, Option.some.injEq] at hk'
      rw [← houtput, ← hk', split.puts_row_iff hnozero hk (by omega)] at hbytes
      apply hbytes hshort j earlier hj hearlier
  . intro hapart
    have hlength := hapart.length_le
    have hfit : split.Fits (pieces separator argument) 0 := by
      rw [split.fits_iff]
      intro k piece hk hne
      rw [Nat.zero_add]
      apply hapart.inside k piece hk hne
    refine ⟨_, _, hsplit.1 hfit, pieces.length_eq, ?_⟩
    intro k hk
    have hget := List.getElem?_eq_getElem hk
    refine ⟨_, hget, ?_⟩
    rw [split.puts_row_iff hnozero hget (by omega)]
    intro hshort j earlier hj hearlier
    apply hapart.reach j k earlier _ hj hearlier hget hshort

/--
Both splits of an argument, whatever follows its end.
-/
theorem splits_iff {argument : List UInt8} (hzero : (0 : UInt8) ∉ argument) (rest : List UInt8)
    : (Splits 0x2F argument (parsePath (argument ++ 0 :: rest)) ↔ Apart (pieces 0x2F argument)) ∧
        (Splits 0x2E argument (parseExt (argument ++ 0 :: rest)) ↔ Apart (pieces 0x2E argument)) := by
  constructor
  . apply parse_splits_iff 0x2F hzero
  . apply parse_splits_iff 0x2E hzero

-- the path `ab/cd/e.txt`
theorem splits_path
    : Splits 0x2F [0x61, 0x62, 0x2F, 0x63, 0x64, 0x2F, 0x65, 0x2E, 0x74, 0x78, 0x74]
          (parsePath ([0x61, 0x62, 0x2F, 0x63, 0x64, 0x2F, 0x65, 0x2E, 0x74, 0x78, 0x74] ++ [0])) ∧
        Splits 0x2E [0x61, 0x62, 0x2F, 0x63, 0x64, 0x2F, 0x65, 0x2E, 0x74, 0x78, 0x74]
          (parseExt ([0x61, 0x62, 0x2F, 0x63, 0x64, 0x2F, 0x65, 0x2E, 0x74, 0x78, 0x74] ++ [0])) := by
  constructor
  . apply (splits_iff (by decide) []).1.mpr
    apply Apart.of_length_le
    . decide
    . decide
  . apply (splits_iff (by decide) []).2.mpr
    apply Apart.of_length_le
    . decide
    . decide

-- a name of twelve characters before one of a single character
theorem not_splits
    : ∃ argument : List UInt8, argument.length ≤ 99 ∧ (0 : UInt8) ∉ argument ∧
        pieces 0x2F argument = [List.replicate 12 0x61, [0x78]] ∧
        ¬ Splits 0x2F argument (parsePath (argument ++ [0])) := by
  have hpieces : pieces 0x2F (List.replicate 12 0x61 ++ [0x2F, 0x78])
      = [List.replicate 12 0x61, [0x78]] := by
    decide
  refine ⟨List.replicate 12 0x61 ++ [0x2F, 0x78], by decide, by decide, hpieces, ?_⟩
  intro hsplits
  have hapart := (parse_splits_iff 0x2F (by decide) []).mp hsplits
  rw [hpieces] at hapart
  have hreach := hapart.reach 0 1 _ _ (by omega) rfl rfl (by decide)
  contradiction

end AiOS
