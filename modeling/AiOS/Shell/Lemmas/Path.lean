import AiOS.Shell.Impl.UserShell

/-!
This module contains what `parsePath` makes of a path: its components, each in a row of zeros.
-/

namespace AiOS

namespace split

def rows (words : List (List UInt8)) (base : Nat) (output : PathList) : PathList :=
  fun k =>
    if 10 * base ≤ k.val then
      (words.getD (k / 10 - base) []).getD (k % 10) (output k)
    else
      output k

def put (word : List UInt8) (start : Nat) (output : PathList) : PathList :=
  fun k =>
    if start ≤ k.val then
      word.getD (k - start) (output k)
    else
      output k

theorem put_nil (start : Nat) (output : PathList) : put [] start output = output := by
  funext k
  unfold put
  simp

theorem put_cons (c : UInt8) (word : List UInt8) (start : Nat) (output : PathList)
    : put word (start + 1) (put [c] start output) = put (c :: word) start output := by
  funext k
  unfold put
  by_cases hk : start + 1 ≤ k.val
  . have hsub : k.val - start = k.val - (start + 1) + 1 := by omega
    rw [if_pos hk, if_pos (by omega), if_pos (by omega), hsub]
    simp
  . rw [if_neg hk]
    by_cases hstart : start ≤ k.val
    . have hsub : k.val - start = 0 := by omega
      rw [if_pos hstart, if_pos hstart, hsub]
      simp
    . rw [if_neg hstart, if_neg hstart]

theorem store_eq (output : PathList) {start : Nat} {word : List UInt8}
    (h : start + word.length ≤ 160)
    : store output start word = some (put word start output) := by
  unfold store
  rw [if_pos h]
  rfl

theorem rows_cons {word : List UInt8} (hword : word.length ≤ 10) (words : List (List UInt8))
    (base : Nat) (output : PathList)
    : rows words (base + 1) (put word (10 * base) output) = rows (word :: words) base output := by
  funext k
  unfold rows put
  by_cases hk : 10 * (base + 1) ≤ k.val
  . have hsub : k.val / 10 - base = k.val / 10 - (base + 1) + 1 := by omega
    have hput : word.length ≤ k.val - 10 * base := by omega
    rw [if_pos hk, if_pos (by omega), if_pos (by omega), hsub, List.getD_cons_succ]
    rw [List.getD_eq_default _ _ hput]
  . rw [if_neg hk]
    by_cases hbase : 10 * base ≤ k.val
    . have hzero : k.val / 10 - base = 0 := by omega
      have hmod : k.val - 10 * base = k.val % 10 := by omega
      rw [if_pos hbase, if_pos hbase, hzero, hmod, List.getD_cons_zero]
    . rw [if_neg hbase, if_neg hbase]

theorem rows_nil (base : Nat) (output : PathList) : rows [] base output = output := by
  funext k
  unfold rows
  simp

variable {separator : UInt8}

theorem split_word (word chars : List UInt8) (hword : separator ∉ word) (wordCount wordIndex : Nat)
    (output : PathList) (hfit : 10 * (wordCount - 1) + wordIndex + word.length ≤ 160)
    : split separator (word ++ chars) wordCount wordIndex output
        =
      split separator chars wordCount (wordIndex + word.length)
        (put word (10 * (wordCount - 1) + wordIndex) output) := by
  induction word generalizing wordIndex output with
  | nil =>
    rw [put_nil]
    rfl
  | cons c word ih =>
    rw [List.mem_cons, not_or] at hword
    rw [List.length_cons] at hfit
    rw [List.cons_append, split, if_neg (Ne.symm hword.1), store_eq _ (by simp; omega)]
    rw [Option.bind_eq_bind, Option.bind_some, ih hword.2 _ _ (by omega)]
    have hstart : 10 * (wordCount - 1) + (wordIndex + 1) = 10 * (wordCount - 1) + wordIndex + 1 := by
      omega
    have hlen : wordIndex + 1 + word.length = wordIndex + (c :: word).length := by
      rw [List.length_cons]
      omega
    rw [hstart, put_cons, hlen]

theorem split_words (words : List (List UInt8)) (hne : words ≠ [])
    (hword : ∀ word ∈ words, separator ∉ word ∧ word.length ≤ 10) (base : Nat) (output : PathList)
    (hfit : base + words.length ≤ 16)
    : split separator ([separator].intercalate words) (base + 1) 0 output
        =
      some (rows words base output, base + words.length) := by
  induction words generalizing base output with
  | nil => contradiction
  | cons word words ih =>
    rw [List.forall_mem_cons] at hword
    rw [List.length_cons] at hfit
    have hstart : 10 * (base + 1 - 1) + 0 = 10 * base := by omega
    cases words with
    | nil =>
      rw [List.intercalate_singleton, ← List.append_nil word]
      rw [split_word _ _ hword.1.1 _ _ _ (by omega), hstart, List.append_nil]
      rw [← rows_cons hword.1.2, rows_nil]
      rfl
    | cons word' words =>
      rw [List.intercalate_cons_cons, List.append_assoc, split_word _ _ hword.1.1 _ _ _ (by omega)]
      rw [hstart, List.cons_append, List.nil_append, split, if_pos rfl]
      have hcount : base + 1 + (word' :: words).length = base + (word :: word' :: words).length := by
        simp only [List.length_cons]
        omega
      rw [ih (by simp) hword.2 _ _ (by omega), rows_cons hword.1.2, hcount]

end split

theorem strlen.eq_length {chars : List UInt8} (h : (0 : UInt8) ∉ chars) (rest : List UInt8)
    : strlen (chars ++ 0 :: rest) = some chars.length := by
  unfold strlen
  rw [List.findIdx?_eq_some_iff_getElem]
  refine ⟨by simp, by simp, ?_⟩
  intro j hj
  have hmem : chars[j] ∈ chars := List.getElem_mem hj
  rw [List.getElem_append_left hj]
  simp only [decide_eq_true_eq]
  intro hzero
  rw [hzero] at hmem
  exact h hmem

theorem strlen.chars_eq {chars : List UInt8} (h : (0 : UInt8) ∉ chars) (rest : List UInt8)
    : strlen.chars (chars ++ 0 :: rest) = some chars := by
  unfold strlen.chars
  rw [strlen.eq_length h]
  simp

theorem PathList.bytes_row (pathList : PathList) {i : Nat} (hi : i < 16)
    : bytes 8 (pathList.row i) = some fun k : Fin 8 => pathList ⟨10 * i + k, by omega⟩ := by
  have hlen : (pathList.row i).length = 160 - 10 * i := by
    unfold PathList.row
    rw [List.length_drop, List.length_ofFn]
  unfold bytes
  rw [dif_pos (by omega)]
  congr 1
  funext k
  unfold PathList.row
  simp only [Fin.getElem_fin, List.getElem_drop, List.getElem_ofFn]

-- the first eight characters, or all of them before zeros
def entry_name (chars : List UInt8) : Fin 8 → UInt8 :=
  fun k => chars.getD k 0

def spell (absolute : Bool) (words : List (List UInt8)) : List UInt8 :=
  (if absolute then [0x2F] else []) ++ [0x2F].intercalate words

theorem spell_absolute (words : List (List UInt8))
    : spell true words = 0x2F :: [0x2F].intercalate words := by
  rfl

theorem spell_relative (words : List (List UInt8))
    : spell false words = [0x2F].intercalate words := by
  rfl

theorem not_mem_intercalate {c separator : UInt8} (hc : c ≠ separator) {words : List (List UInt8)}
    (h : ∀ word ∈ words, c ∉ word)
    : c ∉ [separator].intercalate words := by
  induction words with
  | nil => simp
  | cons word words ih =>
    rw [List.forall_mem_cons] at h
    cases words with
    | nil =>
      rw [List.intercalate_singleton]
      exact h.1
    | cons word' words =>
      rw [List.intercalate_cons_cons, List.mem_append, List.mem_append, List.mem_singleton]
      rintro ((hword | hseparator) | hrest)
      . exact h.1 hword
      . exact hc hseparator
      . exact ih h.2 hrest

/--
The words can be told from the way they are spelled.
-/
structure Spellable (absolute : Bool) (words : List (List UInt8)) : Prop where
  ne_nil : words ≠ []
  length_le : words.length ≤ 16
  word_length_le : ∀ word ∈ words, word.length ≤ 10
  zero_not_mem : ∀ word ∈ words, (0 : UInt8) ∉ word
  slash_not_mem : ∀ word ∈ words, (0x2F : UInt8) ∉ word
  relative : absolute = false → words.head? ≠ some []

namespace Spellable

variable {absolute : Bool} {words : List (List UInt8)} (h : Spellable absolute words)

include h

theorem zero_not_mem_spell : (0 : UInt8) ∉ spell absolute words := by
  have hwords := not_mem_intercalate (by decide : (0 : UInt8) ≠ 0x2F) h.zero_not_mem
  cases absolute with
  | true =>
    rw [spell_absolute, List.mem_cons, not_or]
    exact ⟨by decide, hwords⟩
  | false =>
    rw [spell_relative]
    exact hwords

theorem head?_intercalate (hrelative : absolute = false)
    : ([0x2F].intercalate words).head? ≠ some 0x2F := by
  have hnil := h.relative hrelative
  have hslash := h.slash_not_mem
  cases words with
  | nil => exact absurd rfl h.ne_nil
  | cons word words =>
    cases word with
    | nil => exact absurd rfl hnil
    | cons c word =>
      have hc : c ≠ 0x2F := by
        intro heq
        apply hslash (c :: word) List.mem_cons_self
        rw [heq]
        apply List.mem_cons_self
      have hhead : ([0x2F].intercalate ((c :: word) :: words)).head? = some c := by
        cases words with
        | nil => rw [List.intercalate_singleton, List.head?_cons]
        | cons word' words => rw [List.intercalate_cons_cons, List.cons_append, List.cons_append,
            List.head?_cons]
      rw [hhead, ne_eq, Option.some.injEq]
      exact hc

theorem isAbsolutePath_spell (rest : List UInt8)
    : isAbsolutePath (spell absolute words ++ 0 :: rest) = absolute := by
  unfold isAbsolutePath
  cases absolute with
  | true =>
    rw [spell_absolute, List.cons_append, List.head?_cons]
    decide
  | false =>
    have hhead := h.head?_intercalate rfl
    rw [spell_relative]
    cases hchars : [0x2F].intercalate words with
    | nil =>
      rw [List.nil_append, List.head?_cons]
      decide
    | cons c chars =>
      rw [hchars, List.head?_cons] at hhead
      rw [List.cons_append, List.head?_cons]
      exact decide_eq_false hhead

theorem parsePath_spell (rest : List UInt8)
    : parsePath (spell absolute words ++ 0 :: rest)
        =
      some (split.rows words 0 (fun _ => 0), words.length) := by
  have hsplit : split 0x2F ([0x2F].intercalate words) 1 0 (fun _ => 0)
      = some (split.rows words 0 (fun _ => 0), words.length) := by
    have hwords : ∀ word ∈ words, (0x2F : UInt8) ∉ word ∧ word.length ≤ 10 := by
      intro word hword
      exact ⟨h.slash_not_mem word hword, h.word_length_le word hword⟩
    have hlen := h.length_le
    have hrows := split.split_words words h.ne_nil hwords 0 (fun _ => 0) (by omega)
    rw [Nat.zero_add, Nat.zero_add] at hrows
    exact hrows
  unfold parsePath parse
  rw [strlen.chars_eq h.zero_not_mem_spell, Option.bind_eq_bind, Option.bind_some]
  cases absolute with
  | true =>
    rw [spell_absolute, List.head?_cons, if_pos rfl, List.tail_cons]
    exact hsplit
  | false =>
    rw [spell_relative, if_neg (h.head?_intercalate rfl)]
    exact hsplit

theorem bytes_row {i : Nat} (hi : i < words.length)
    : bytes 8 ((split.rows words 0 fun _ => 0).row i) = some (entry_name words[i]) := by
  have hlen := h.length_le
  rw [PathList.bytes_row _ (by omega)]
  congr 1
  funext k
  have hdiv : (10 * i + k.val) / 10 - 0 = i := by omega
  have hmod : (10 * i + k.val) % 10 = k.val := by omega
  unfold split.rows entry_name
  simp only [hdiv, hmod]
  rw [if_pos (by omega), List.getD_eq_getElem _ _ hi]

end Spellable

def Argv.Holds (argv : Argv) (string : List UInt8) : Prop :=
  ∃ rest, argv.row 1 = string ++ 0 :: rest

theorem Argv.exists_holds {string : List UInt8} (h : string.length < 300)
    : ∃ argv : Argv, argv.Holds string := by
  refine ⟨fun k => string.getD (k - 100) 0, (List.replicate (299 - string.length) 0), ?_⟩
  unfold Argv.row
  apply List.ext_getElem
  . rw [List.length_drop, List.length_ofFn, List.length_append, List.length_cons,
      List.length_replicate]
    omega
  . intro k hk hk'
    rw [List.getElem_drop, List.getElem_ofFn]
    have hsub : 100 * 1 + k - 100 = k := by omega
    dsimp only
    rw [hsub, List.getElem_append]
    split
    . next hlt => rw [List.getD_eq_getElem _ _ hlt]
    . next hge =>
      rw [List.getD_eq_default _ _ (by omega), List.getElem_cons]
      split
      . rfl
      . rw [List.getElem_replicate]

theorem length_intercalate_le {separator : UInt8} {words : List (List UInt8)}
    (h : ∀ word ∈ words, word.length ≤ 10)
    : ([separator].intercalate words).length ≤ 11 * words.length := by
  induction words with
  | nil => simp
  | cons word words ih =>
    rw [List.forall_mem_cons] at h
    have ih := ih h.2
    rw [List.length_cons]
    cases words with
    | nil =>
      rw [List.intercalate_singleton]
      omega
    | cons word' words =>
      rw [List.intercalate_cons_cons, List.length_append, List.length_append, List.length_singleton]
      omega

theorem Spellable.exists_holds {absolute : Bool} {words : List (List UInt8)}
    (h : Spellable absolute words)
    : ∃ argv : Argv, argv.Holds (spell absolute words) := by
  have hwords : ([0x2F].intercalate words).length ≤ 11 * words.length :=
    length_intercalate_le h.word_length_le
  have hlen := h.length_le
  apply Argv.exists_holds
  cases absolute with
  | true =>
    rw [spell_absolute, List.length_cons]
    omega
  | false =>
    rw [spell_relative]
    omega

structure Component where
  chars : List UInt8
  ne_nil : chars ≠ []
  length_le : chars.length ≤ 8
  zero_not_mem : (0 : UInt8) ∉ chars
  slash_not_mem : (0x2F : UInt8) ∉ chars

namespace Component

def name (c : Component) : Fin 8 → UInt8 :=
  entry_name c.chars

theorem spellable (absolute : Bool) {path : List Component} (hne : path ≠ [])
    (hlen : path.length ≤ 16)
    : Spellable absolute (path.map chars) where
  ne_nil := by simp [hne]
  length_le := by simpa using hlen
  word_length_le := by
    rw [List.forall_mem_map]
    intro c _
    exact Nat.le_trans c.length_le (by decide)
  zero_not_mem := by
    rw [List.forall_mem_map]
    intro c _
    exact c.zero_not_mem
  slash_not_mem := by
    rw [List.forall_mem_map]
    intro c _
    exact c.slash_not_mem
  relative := by
    intro _ hhead
    rw [List.head?_map, Option.map_eq_some_iff] at hhead
    rcases hhead with ⟨c, _, hnil⟩
    exact c.ne_nil hnil

end Component

theorem spellable_root : Spellable true [[]] where
  ne_nil := by simp
  length_le := by simp
  word_length_le := by simp
  zero_not_mem := by simp
  slash_not_mem := by simp
  relative := by simp

end AiOS
