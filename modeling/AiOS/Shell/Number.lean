import AiOS.Lib.Decimal
import AiOS.Shell.Impl.Main
import AiOS.Shell.Lemmas.Path

/-!
This module contains the numbers of the command line: what `int_to_string` writes for one.
-/

namespace AiOS

def number (chars : List UInt8) : Nat :=
  Decimal.value (chars.map fun c => (c - 0x30).toNat)

/--
The decimal digits of a number, without leading zeros.
-/
def numeral (n : Nat) : List UInt8 :=
  (Nat.digits 10 n).reverse.map fun d => UInt8.ofNat (d + 0x30)

def IsDigit (c : UInt8) : Prop :=
  0x30 ≤ c ∧ c ≤ 0x39

variable {n : Nat} {c : UInt8}

theorem isDigit_ofNat {d : Nat} (hd : d < 10) : IsDigit (UInt8.ofNat (d + 0x30)) := by
  unfold IsDigit
  rw [UInt8.le_iff_toNat_le, UInt8.le_iff_toNat_le, UInt8.toNat_ofNat']
  change 48 ≤ _ ∧ _ ≤ 57
  omega

theorem toNat_sub_of_ofNat {d : Nat} (hd : d < 10) : (UInt8.ofNat (d + 0x30) - 0x30).toNat = d := by
  rw [UInt8.toNat_sub, UInt8.toNat_ofNat']
  change (2 ^ 8 - 48 + _) % _ = d
  omega

theorem isDigit_of_mem_numeral (hc : c ∈ numeral n) : IsDigit c := by
  unfold numeral at hc
  rw [List.mem_map] at hc
  rcases hc with ⟨d, hd, rfl⟩
  rw [List.mem_reverse] at hd
  apply isDigit_ofNat (Nat.digits_lt_base (by decide) hd)

theorem zero_not_mem_numeral : (0 : UInt8) ∉ numeral n := by
  intro hzero
  have hdigit := isDigit_of_mem_numeral hzero
  exact absurd hdigit.1 (by decide)

theorem number_numeral (n : Nat) : number (numeral n) = n := by
  have hdigits : (Nat.digits 10 n).reverse.map ((fun c => (c - 0x30).toNat) ∘
      fun d => UInt8.ofNat (d + 0x30)) = (Nat.digits 10 n).reverse.map id := by
    apply List.map_congr_left
    intro d hd
    rw [List.mem_reverse] at hd
    apply toNat_sub_of_ofNat (Nat.digits_lt_base (by decide) hd)
  unfold number numeral
  rw [List.map_map, hdigits, List.map_id, Decimal.value_digits]

theorem head_numeral_ne (hn : n ≠ 0) : (numeral n).head? ≠ some 0x30 := by
  have hlast := Nat.getLast_digit_ne_zero 10 hn
  have hlt := Nat.digits_lt_base (b := 10) (m := n) (by decide)
    (List.getLast_mem (Nat.digits_ne_nil_iff_ne_zero.mpr hn))
  unfold numeral
  rw [List.head?_map, List.head?_reverse, List.getLast?_eq_getLast_of_ne_nil
    (Nat.digits_ne_nil_iff_ne_zero.mpr hn), Option.map_some]
  intro heq
  rw [Option.some.injEq] at heq
  have hzero := toNat_sub_of_ofNat hlt
  rw [heq] at hzero
  exact hlast hzero.symm

theorem length_numeral (n : Nat) : (numeral n).length = (Nat.digits 10 n).length := by
  unfold numeral
  rw [List.length_map, List.length_reverse]

theorem getElem_numeral {k : Nat} (hk : k < (numeral n).length)
    : (numeral n)[k] = UInt8.ofNat (n / 10 ^ ((numeral n).length - 1 - k) % 10 + 0x30) := by
  have hlen := length_numeral n
  have hget := Nat.getD_digits n ((numeral n).length - 1 - k) (by decide : 2 ≤ 10)
  rw [List.getD_eq_getElem _ _ (by omega)] at hget
  rw [← hget]
  simp only [numeral, List.getElem_map, List.getElem_reverse, List.length_map, List.length_reverse]

theorem strlen.chars_ofFn {size : Nat} {str : Fin size → UInt8} {chars : List UInt8}
    (hlt : chars.length < size)
    (hchars : ∀ k (hk : k < chars.length), str ⟨k, Nat.lt_trans hk hlt⟩ = chars[k])
    (hend : str ⟨chars.length, hlt⟩ = 0) (hzero : (0 : UInt8) ∉ chars)
    : strlen.chars (List.ofFn str) = some chars := by
  have hlen : chars.length < (List.ofFn str).length := by
    rw [List.length_ofFn]
    exact hlt
  have htake : (List.ofFn str).take chars.length = chars := by
    apply List.ext_getElem
    . rw [List.length_take, Nat.min_eq_left (Nat.le_of_lt hlen)]
    . intro k hk hk'
      rw [List.getElem_take, List.getElem_ofFn]
      apply hchars k hk'
  rw [← List.take_append_drop chars.length (List.ofFn str), htake, List.drop_eq_getElem_cons hlen,
    List.getElem_ofFn, hend, strlen.chars_eq hzero]

namespace int_to_string

variable {size : Nat}

theorem store_singleton (str : Fin size → UInt8) {start : Nat} (hstart : start < size) (c : UInt8)
    : store str start [c] = some fun k => if k.val = start then c else str k := by
  unfold store
  rw [List.length_singleton, if_pos (by omega)]
  congr 1
  funext k
  split
  . next hle =>
    split
    . next heq =>
      rw [heq, Nat.sub_self]
      rfl
    . rw [List.getD_eq_default _ _ (by rw [List.length_singleton]; omega)]
  . rw [if_neg (by omega)]

theorem len_eq (n : Nat) : len n = (numeral n).length := by
  rw [length_numeral]
  induction n using len.induct with
  | case1 =>
    rw [len, if_pos rfl, Nat.digits_zero]
    rfl
  | case2 n hn ih =>
    rw [len, if_neg hn, ih, Nat.digits_def' (by decide) (Nat.pos_of_ne_zero hn), List.length_cons]

theorem fill_apply {rest : Nat} (hrest : rest ≤ size) (num : Nat) (str : Fin size → UInt8)
    : ∃ str', fill rest num str = some str' ∧ ∀ k : Fin size,
        str' k
          =
        if k.val < rest then UInt8.ofNat (num / 10 ^ (rest - 1 - k) % 10 + 0x30) else str k := by
  induction rest generalizing num str with
  | zero =>
    refine ⟨str, rfl, ?_⟩
    intro k
    rw [if_neg (by omega)]
  | succ rest ih =>
    rcases ih (by omega) (num / 10)
      (fun k => if k.val = rest then UInt8.ofNat (num % 10 + 0x30) else str k)
      with ⟨str', hfill, happly⟩
    refine ⟨str', ?_, ?_⟩
    . unfold fill
      rw [store_singleton str hrest, Option.bind_eq_bind, Option.bind_some, hfill]
    . intro k
      rw [happly k]
      split
      . next hlt =>
        have hexp : rest + 1 - 1 - k.val = rest - 1 - k.val + 1 := by omega
        rw [if_pos (by omega), Nat.div_div_eq_div_mul, hexp, Nat.pow_succ, Nat.mul_comm]
      . split
        . next heq =>
          have hexp : rest + 1 - 1 - k.val = 0 := by omega
          rw [if_pos (by omega), hexp, Nat.pow_zero, Nat.div_one]
        . rw [if_neg (by omega)]

theorem exists_written {n : Nat} (hlt : (numeral n).length < size) (str : Fin size → UInt8)
    : ∃ str', AiOS.int_to_string str n = some str' ∧
        strlen.chars (List.ofFn str') = some (numeral n) ∧
        ∀ k : Fin size, str' k
            =
          if h : k.val < (numeral n).length then (numeral n)[k]
          else if k.val = (numeral n).length then 0 else str k := by
  rcases fill_apply (Nat.le_of_lt hlt) n str with ⟨filled, hfill, happly⟩
  have hwritten : ∀ k : Fin size, (if k.val = (numeral n).length then 0 else filled k)
      =
    if h : k.val < (numeral n).length then (numeral n)[k]
    else if k.val = (numeral n).length then 0 else str k := by
    intro k
    rw [happly]
    split
    . next heq => rw [dif_neg (by omega)]
    . split
      . next hk => rw [Fin.getElem_fin, getElem_numeral hk]
      . rfl
  refine ⟨fun k => if k.val = (numeral n).length then 0 else filled k, ?_, ?_, hwritten⟩
  . unfold AiOS.int_to_string
    dsimp only
    rw [len_eq, hfill, Option.bind_eq_bind, Option.bind_some, store_singleton filled hlt]
  . apply strlen.chars_ofFn hlt _ _ zero_not_mem_numeral
    . intro k hk
      apply (hwritten _).trans (dif_pos hk)
    . dsimp only
      rw [if_pos rfl]

end int_to_string

/--
`int_to_string` writes the digits and the zero byte behind them, and nothing behind `str[9]`.
-/
theorem int_to_string_exact {size : Nat} (hsize : 10 ≤ size) (str : Fin size → UInt8)
    (hpos : 1 ≤ n) (hn : n ≤ 999999999)
    : ∃ str', int_to_string str n = some str' ∧
        (∀ k : Fin size, 10 ≤ k.val → str' k = str k) ∧
        strlen.chars (List.ofFn str') = some (numeral n) ∧
        (∀ c ∈ numeral n, IsDigit c) ∧ (numeral n).head? ≠ some 0x30 ∧ number (numeral n) = n := by
  have hlen : (numeral n).length ≤ 9 := by
    rw [length_numeral, Nat.digits_length_le_iff (by decide)]
    omega
  rcases int_to_string.fill_apply (by omega : (numeral n).length ≤ size) n str
    with ⟨filled, hfill, happly⟩
  have hend : (numeral n).length < size := by omega
  refine ⟨fun k => if k.val = (numeral n).length then 0 else filled k, ?_, ?_, ?_, ?_, ?_, ?_⟩
  . unfold int_to_string
    dsimp only
    rw [int_to_string.len_eq, hfill, Option.bind_eq_bind, Option.bind_some,
      int_to_string.store_singleton filled hend]
  . intro k hk
    dsimp only
    rw [if_neg (by omega), happly k, if_neg (by omega)]
  . apply strlen.chars_ofFn hend _ _ zero_not_mem_numeral
    . intro k hk
      dsimp only
      rw [if_neg (by omega), happly, if_pos hk, getElem_numeral hk]
    . dsimp only
      rw [if_pos rfl]
  . intro c hc
    apply isDigit_of_mem_numeral hc
  . apply head_numeral_ne (by omega)
  . apply number_numeral

theorem int_to_string_exact_905
    : ∃ str', int_to_string (fun _ : Fin 10 => 0xFF) 905 = some str' ∧
        (∀ k : Fin 10, 10 ≤ k.val → str' k = 0xFF) ∧
        strlen.chars (List.ofFn str') = some (numeral 905) ∧
        (∀ c ∈ numeral 905, IsDigit c) ∧ (numeral 905).head? ≠ some 0x30 ∧
        number (numeral 905) = 905 :=
  int_to_string_exact (Nat.le_refl 10) _ (by decide) (by decide)

end AiOS
