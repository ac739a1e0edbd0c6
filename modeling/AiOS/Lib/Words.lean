import Mathlib

/-!
This module contains the pieces of a text between the separators, and its words, which are the pieces
that are not empty.
-/

namespace Words

variable {α : Type} [DecidableEq α] {separator c : α} {chars rest word : List α}

theorem splitOn_cons_separator (separator : α) (chars : List α)
    : (separator :: chars).splitOn separator = [] :: chars.splitOn separator := by
  rw [List.splitOn_eq_splitOnP, List.splitOnP_cons_eq_if_modifyHead, if_pos (by simp)]
  rfl

theorem splitOn_cons_of_ne (hc : c ≠ separator) (chars : List α)
    : ∃ piece pieces, chars.splitOn separator = piece :: pieces ∧
        (c :: chars).splitOn separator = (c :: piece) :: pieces := by
  rcases List.exists_cons_of_ne_nil (List.splitOn_ne_nil separator chars) with ⟨piece, pieces, heq⟩
  refine ⟨piece, pieces, heq, ?_⟩
  rw [List.splitOn_eq_splitOnP] at heq ⊢
  rw [List.splitOnP_cons_eq_if_modifyHead, if_neg (by simpa using hc), heq]
  rfl

theorem splitOn_append (hword : separator ∉ word) (chars : List α)
    : (word ++ separator :: chars).splitOn separator = word :: chars.splitOn separator := by
  induction word with
  | nil => apply splitOn_cons_separator
  | cons c word ih =>
    rw [List.mem_cons, not_or] at hword
    rcases splitOn_cons_of_ne (Ne.symm hword.1) (word ++ separator :: chars) with
      ⟨piece, pieces, hsplit, hcons⟩
    rw [ih hword.2] at hsplit
    injection hsplit with hpiece hpieces
    rw [List.cons_append, hcons, hpiece, hpieces]

theorem splitOn_of_not_mem (hword : separator ∉ word) : word.splitOn separator = [word] := by
  rw [List.splitOn_eq_splitOnP]
  apply List.splitOnP_eq_singleton
  intro c hc
  rw [beq_eq_false_iff_ne]
  intro heq
  rw [heq] at hc
  exact hword hc

theorem length_splitOn (separator : α) (chars : List α)
    : (chars.splitOn separator).length = chars.count separator + 1 := by
  induction chars with
  | nil => simp
  | cons c chars ih =>
    by_cases hc : c = separator
    . rw [hc, splitOn_cons_separator, List.length_cons, ih, List.count_cons_self]
    . rcases splitOn_cons_of_ne hc chars with ⟨piece, pieces, hsplit, hcons⟩
      rw [hsplit, List.length_cons] at ih
      rw [hcons, List.length_cons, ih, List.count_cons_of_ne hc]

theorem mem_of_mem_splitOn {piece : List α} (hpiece : piece ∈ chars.splitOn separator)
    : separator ∉ piece ∧ ∀ c ∈ piece, c ∈ chars := by
  induction chars generalizing piece with
  | nil =>
    rw [List.splitOn_nil, List.mem_singleton] at hpiece
    rw [hpiece]
    simp
  | cons c chars ih =>
    by_cases hc : c = separator
    . rw [hc, splitOn_cons_separator, List.mem_cons] at hpiece
      rcases hpiece with rfl | hpiece
      . simp
      . rcases ih hpiece with ⟨hnot, hmem⟩
        exact ⟨hnot, fun d hd => List.mem_cons_of_mem _ (hmem d hd)⟩
    . rcases splitOn_cons_of_ne hc chars with ⟨first, pieces, hsplit, hcons⟩
      rw [hsplit] at ih
      rw [hcons, List.mem_cons] at hpiece
      rcases hpiece with rfl | hpiece
      . rcases ih List.mem_cons_self with ⟨hnot, hmem⟩
        constructor
        . rw [List.mem_cons, not_or]
          exact ⟨Ne.symm hc, hnot⟩
        . rw [List.forall_mem_cons]
          exact ⟨List.mem_cons_self, fun d hd => List.mem_cons_of_mem _ (hmem d hd)⟩
      . rcases ih (List.mem_cons_of_mem _ hpiece) with ⟨hnot, hmem⟩
        exact ⟨hnot, fun d hd => List.mem_cons_of_mem _ (hmem d hd)⟩

def words (separator : α) (chars : List α) : List (List α) :=
  (chars.splitOn separator).filter fun piece => piece ≠ []

@[simp]
theorem words_nil (separator : α) : words separator [] = [] := by
  simp [words]

@[simp]
theorem words_cons_separator (separator : α) (chars : List α)
    : words separator (separator :: chars) = words separator chars := by
  unfold words
  rw [splitOn_cons_separator, List.filter_cons_of_neg (by simp)]

theorem words_append_separator (hword : separator ∉ word) (hne : word ≠ []) (chars : List α)
    : words separator (word ++ separator :: chars) = word :: words separator chars := by
  unfold words
  rw [splitOn_append hword, List.filter_cons_of_pos (by simpa using hne)]

theorem words_of_not_mem (hword : separator ∉ word) (hne : word ≠ [])
    : words separator word = [word] := by
  unfold words
  rw [splitOn_of_not_mem hword, List.filter_cons_of_pos (by simpa using hne), List.filter_nil]

theorem words_append (hword : separator ∉ word) (hne : word ≠ []) (chars : List α)
    : ∃ more rest, words separator (word ++ chars) = (word ++ more) :: rest := by
  have hsplit : ∃ piece pieces, (word ++ chars).splitOn separator = (word ++ piece) :: pieces := by
    clear hne
    induction word with
    | nil => apply List.exists_cons_of_ne_nil (List.splitOn_ne_nil separator chars)
    | cons c word ih =>
      rw [List.mem_cons, not_or] at hword
      rcases ih hword.2 with ⟨piece, pieces, heq⟩
      rcases splitOn_cons_of_ne (Ne.symm hword.1) (word ++ chars) with ⟨first, rest, hsplit, hcons⟩
      rw [heq] at hsplit
      injection hsplit with hfirst hrest
      refine ⟨piece, pieces, ?_⟩
      rw [List.cons_append, hcons, ← hfirst, hrest]
      rfl
  rcases hsplit with ⟨piece, pieces, hsplit⟩
  unfold words
  rw [hsplit, List.filter_cons_of_pos (by simp [hne])]
  exact ⟨piece, _, rfl⟩

end Words
