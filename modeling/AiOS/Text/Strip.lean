import AiOS.Lib.Strip
import AiOS.Text.Console

/-!
This module proves that `puts_char` types on the 2000 cells of the screen as on one strip, as long as
it does not scroll.
-/

namespace AiOS

namespace Console

def Scrolls (s : Console) (c : UInt8) : Prop :=
  s.row = 24 ∧
    (c = 0x0A ∨ c = 0x09 ∧ s.col + 4 ≥ 80 ∨
      c ≠ 0 ∧ c ≠ 0x08 ∧ c ≠ 0x09 ∧ c ≠ 0x0A ∧ s.col + 1 = 80)

/--
The cells of the screen are the first ones of the strip, with the cursor at its place.
-/
structure Has (s : Console) (p : Strip UInt8) : Prop where
  at_next : s.At (p.next / 80) (p.next % 80)
  next_lt : p.next < 25 * 80
  cell_eq : ∀ i j, i < 25 → j < 80 → s.cell i j = p.cells (i * 80 + j)
  cursor_eq : s.cursor = p.next

def tab (n : Nat) : Nat :=
  if n % 80 + 4 < 80 then n + 4 else (n / 80 + 1) * 80

def strike (p : Strip UInt8) (c : UInt8) : Strip UInt8 :=
  if c = 0x09 then p.jump 0 (tab p.next) else p.put 0 c

variable {s : Console} {p : Strip UInt8} {process_list : Fin 16 → ProcessControlBlock}

theorem lt_tab (n : Nat) : n < tab n := by
  unfold tab
  split
  . omega
  . omega

theorem next_lt_strike (p : Strip UInt8) (c : UInt8) : p.next < (strike p c).next := by
  unfold strike
  split
  . apply lt_tab
  . apply Nat.lt_succ_self

theorem clear_strike (h : p.Clear 0) (c : UInt8) : (strike p c).Clear 0 := by
  unfold strike
  split
  . apply h.jump
    apply Nat.le_of_lt
    apply lt_tab
  . apply h.put

theorem Has.strike_lt (h : s.Has p) {c : UInt8} (hnull : c ≠ 0) (hnewline : c ≠ 0x0A)
    (hback : c ≠ 0x08) (hcalm : ¬ s.Scrolls c)
    : (strike p c).next < 25 * 80 := by
  have hn := h.next_lt
  have hrow := h.at_next.row_eq
  have hcol := h.at_next.col_eq
  unfold Scrolls at hcalm
  unfold strike
  split
  . next htab =>
    change tab p.next < 25 * 80
    have hstay : ¬ (s.row = 24 ∧ s.col + 4 ≥ 80) := by
      intro hscroll
      exact hcalm ⟨hscroll.1, Or.inr (Or.inl ⟨htab, hscroll.2⟩)⟩
    unfold tab
    split
    . omega
    . omega
  . next htab =>
    change p.next + 1 < 25 * 80
    have hstay : ¬ (s.row = 24 ∧ s.col + 1 = 80) := by
      intro hscroll
      exact hcalm ⟨hscroll.1, Or.inr (Or.inr ⟨hnull, hback, htab, hnewline, hscroll.2⟩)⟩
    omega

theorem has_blank {cells : Nat → UInt8} {n : Nat} (hat : s.At (n / 80) (n % 80)) (hn : n < 25 * 80)
    (hcell : ∀ i j, i < 25 → j < 80 → s.cell i j = cells (i * 80 + j)) (color : UInt32)
    : (puts_char.blank color s).Has ⟨Function.update cells n 0, n⟩ := by
  have hrow : n / 80 < 25 := by omega
  have hcol : n % 80 < 80 := by omega
  rcases hat.write hrow hcol 0 color with ⟨hwritten, hcell'⟩
  rcases hwritten.set_cursor hrow hcol with ⟨hat', hcursor⟩
  refine ⟨hat', hn, ?_, ?_⟩
  . intro i j hi hj
    apply (hcell' i j hi hj).trans
    dsimp only
    rw [Function.update_apply, hcell i j hi hj]
    congr 1
    apply propext
    omega
  . apply hcursor.trans
    change n / 80 * 80 + n % 80 = n
    omega

theorem next_row_eq {row col : Nat} (hat : s.At row col) (hrow : row + 1 < 25)
    : puts_char.next_row process_list s = s.set_row (row + 1 : Nat) := by
  have hsucc : s.row + 1 = (row + 1 : Nat) := by
    rw [hat.row_eq]
    rfl
  unfold puts_char.next_row
  dsimp only
  rw [hsucc, if_neg]
  rw [set_row_row]
  omega

theorem has_wrap {past : Prop} [Decidable past] {cells : Nat → UInt8} {row col n : Nat}
    (hat : s.At row col) (hpast : past ↔ 80 ≤ col)
    (hn : n = if 80 ≤ col then (row + 1) * 80 else row * 80 + col) (hlt : n < 25 * 80)
    (hcell : ∀ i j, i < 25 → j < 80 → s.cell i j = cells (i * 80 + j)) (color : UInt32)
    : (puts_char.blank color
          (if past then (puts_char.next_row process_list s).set_col 0 else s)).Has
        ⟨Function.update cells n 0, n⟩ := by
  split
  . next hp =>
    rw [if_pos (hpast.mp hp)] at hn
    have hdiv : n / 80 = row + 1 := by omega
    have hmod : n % 80 = 0 := by omega
    rw [next_row_eq hat (by omega)]
    apply has_blank _ hlt
    . intro i j hi hj
      rw [set_col_cell, set_row_cell]
      exact hcell i j hi hj
    . rw [hdiv, hmod]
      exact (hat.set_row (row + 1)).set_col 0
  . next hp =>
    have hcol : ¬ 80 ≤ col := fun hle => hp (hpast.mpr hle)
    rw [if_neg hcol] at hn
    have hdiv : n / 80 = row := by omega
    have hmod : n % 80 = col := by omega
    apply has_blank _ hlt hcell
    rw [hdiv, hmod]
    exact hat

theorem Has.type (h : s.Has p) {c : UInt8} (hnull : c ≠ 0) (hnewline : c ≠ 0x0A) (hback : c ≠ 0x08)
    (hlt : (strike p c).next < 25 * 80) (color : UInt32)
    : (puts_char process_list c color s).Has (strike p c) := by
  have hn := h.next_lt
  have hrow : p.next / 80 < 25 := by omega
  have hcol : p.next % 80 < 80 := by omega
  unfold puts_char
  dsimp only
  rw [if_neg hnull, if_neg hnewline]
  unfold strike at hlt ⊢
  split
  . next htab =>
    rw [if_pos htab] at hlt
    have hmoved : s.col + 4 = (p.next % 80 + 4 : Nat) := by
      rw [h.at_next.col_eq]
      rfl
    rw [hmoved]
    apply has_wrap (h.at_next.set_col (p.next % 80 + 4)) _ _ hlt h.cell_eq
    . rw [set_col_col]
      omega
    . change tab p.next = _
      unfold tab
      split
      . rw [if_neg (by omega)]
        omega
      . rw [if_pos (by omega)]
  . next htab =>
    rw [if_neg htab] at hlt
    rcases h.at_next.write hrow hcol c color with ⟨hwritten, hcell⟩
    have hmoved : (framebuffer_write (UInt8.ofInt s.row) (UInt8.ofInt s.col) c color.toUInt8 0 s).col + 1
        = (p.next % 80 + 1 : Nat) := by
      rw [hwritten.col_eq]
      rfl
    rw [hmoved]
    apply has_wrap (hwritten.set_col (p.next % 80 + 1)) _ _ hlt
    . intro i j hi hj
      apply (hcell i j hi hj).trans
      dsimp only
      rw [Function.update_apply, h.cell_eq i j hi hj]
      congr 1
      apply propext
      omega
    . rw [set_col_col]
      omega
    . change p.next + 1 = _
      split
      . omega
      . omega

theorem read_eq {row col : Nat} (hat : s.row = row) (hrow : row < 25) (hcol : col < 80)
    : framebuffer_read (UInt8.ofInt s.row) (UInt8.ofNat col) s = s.cell row col := by
  have hr : (UInt8.ofInt (row : Int)).toNat = row := toNat_ofInt (by omega)
  have hc : (UInt8.ofNat col).toNat = col := UInt8.toNat_ofNat_of_lt' (by change col < 256; omega)
  unfold framebuffer_read cell
  rw [hat, position_eq, hr, hc]

theorem back_cases {row : Nat} (hat : s.row = row) (hrow : row < 25) (col : Nat) (hcol : col < 80)
    : puts_char.back s col ≤ col ∧
        (puts_char.back s col = 0 ∨ s.cell row (puts_char.back s col) ≠ 0) ∧
        (s.cell row col ≠ 0 → puts_char.back s col = col) := by
  induction col with
  | zero => exact ⟨Nat.le_refl _, Or.inl rfl, fun _ => rfl⟩
  | succ col ih =>
    unfold puts_char.back
    rw [read_eq hat hrow hcol]
    split
    . next hblank =>
      rcases ih (by omega) with ⟨hle, hstop, _⟩
      exact ⟨Nat.le_succ_of_le hle, hstop, fun hne => absurd hblank hne⟩
    . next hne => exact ⟨Nat.le_refl _, Or.inr hne, fun _ => rfl⟩

@[simp]
theorem set_col_row (s : Console) (c : Int) : (s.set_col c).row = s.row := by
  rfl

theorem puts_char_backspace (h : ¬ (s.col = 0 ∧ s.row = 0))
    (process_list : Fin 16 → ProcessControlBlock) (color : UInt32)
    : puts_char process_list 0x08 color s
        =
      puts_char.blank color
        (let s := s.set_col (s.col - 1)
        if s.col < 0 then
          let s := s.set_row (s.row - 1)
          let s := s.set_col (puts_char.back s 79)
          if s.row ≤ 0 then s.set_row 0 else s
        else
          s) := by
  unfold puts_char
  rw [if_neg (by decide), if_neg (by decide), if_neg (by decide), if_pos rfl, if_neg h]

theorem Has.backspace_of_ne (h : s.Has p) (hmid : p.next % 80 ≠ 0)
    (process_list : Fin 16 → ProcessControlBlock) (color : UInt32)
    : (puts_char process_list 0x08 color s).Has
        ⟨Function.update p.cells (p.next - 1) 0, p.next - 1⟩ := by
  have hn := h.next_lt
  have hrow := h.at_next.row_eq
  have hcol := h.at_next.col_eq
  have hneg : ¬ (s.set_col (s.col - 1)).col < 0 := by
    rw [set_col_col]
    omega
  have hmoved : s.col - 1 = (p.next % 80 - 1 : Nat) := by omega
  rw [puts_char_backspace (by omega)]
  dsimp only
  rw [if_neg hneg, hmoved]
  have hdiv : (p.next - 1) / 80 = p.next / 80 := by omega
  have hmod : (p.next - 1) % 80 = p.next % 80 - 1 := by omega
  apply has_blank _ (by omega)
  . intro i j hi hj
    rw [set_col_cell]
    exact h.cell_eq i j hi hj
  . rw [hdiv, hmod]
    exact h.at_next.set_col _

theorem Has.backspace_of_eq (h : s.Has p) (hpos : 0 < p.next) (hstart : p.next % 80 = 0)
    (process_list : Fin 16 → ProcessControlBlock) (color : UInt32)
    : ∃ n, (puts_char process_list 0x08 color s).Has ⟨Function.update p.cells n 0, n⟩ ∧
        n / 80 = p.next / 80 - 1 ∧ (n % 80 = 0 ∨ p.cells n ≠ 0) ∧
          (p.cells (p.next - 1) ≠ 0 → n = p.next - 1) := by
  have hn := h.next_lt
  have hrow := h.at_next.row_eq
  have hcol := h.at_next.col_eq
  have hneg : (s.set_col (s.col - 1)).col < 0 := by
    rw [set_col_col]
    omega
  have hmoved : (s.set_col (s.col - 1)).row - 1 = (p.next / 80 - 1 : Nat) := by
    rw [set_col_row]
    omega
  rw [puts_char_backspace (by omega)]
  dsimp only
  rw [if_pos hneg, hmoved]
  have hcell : ∀ i j, i < 25 → j < 80 →
      ((s.set_col (s.col - 1)).set_row (p.next / 80 - 1 : Nat)).cell i j = p.cells (i * 80 + j) := by
    intro i j hi hj
    rw [set_row_cell, set_col_cell]
    exact h.cell_eq i j hi hj
  have hat : ((s.set_col (s.col - 1)).set_row (p.next / 80 - 1 : Nat)).row = (p.next / 80 - 1 : Nat) :=
    rfl
  generalize (s.set_col (s.col - 1)).set_row (p.next / 80 - 1 : Nat) = t at hcell hat ⊢
  rcases back_cases hat (by omega) 79 (by omega) with ⟨hle, hstop, hlast⟩
  generalize puts_char.back t 79 = col at hle hstop hlast ⊢
  rw [hcell _ _ (by omega) (by omega)] at hstop hlast
  have hend : (p.next / 80 - 1) * 80 + 79 = p.next - 1 := by omega
  rw [hend] at hlast
  refine ⟨(p.next / 80 - 1) * 80 + col, ?_, by omega, ?_, ?_⟩
  . have hdiv : ((p.next / 80 - 1) * 80 + col) / 80 = p.next / 80 - 1 := by omega
    have hmod : ((p.next / 80 - 1) * 80 + col) % 80 = col := by omega
    apply has_blank _ (by omega)
    . intro i j hi hj
      rw [← hcell i j hi hj]
      split
      . rfl
      . rfl
    . rw [hdiv, hmod]
      split
      . next hfirst =>
        have hzero : p.next / 80 - 1 = 0 := by
          rw [set_col_row, hat] at hfirst
          omega
        rw [hzero]
        exact ⟨rfl, rfl⟩
      . exact ⟨hat, rfl⟩
  . rcases hstop with hzero | hne
    . left
      omega
    . right
      exact hne
  . intro hne
    rw [← hend, hlast hne]

theorem Has.backspace (h : s.Has p) (hpos : 0 < p.next)
    (process_list : Fin 16 → ProcessControlBlock) (color : UInt32)
    : ∃ n, (puts_char process_list 0x08 color s).Has ⟨Function.update p.cells n 0, n⟩ ∧
        (p.next % 80 ≠ 0 → n = p.next - 1) ∧
        (p.next % 80 = 0 →
          n / 80 = p.next / 80 - 1 ∧ (n % 80 = 0 ∨ p.cells n ≠ 0) ∧
            (p.cells (p.next - 1) ≠ 0 → n = p.next - 1)) := by
  by_cases hstart : p.next % 80 = 0
  . rcases h.backspace_of_eq hpos hstart process_list color with ⟨n, hhas, hn⟩
    exact ⟨n, hhas, fun hne => absurd hstart hne, fun _ => hn⟩
  . exact ⟨p.next - 1, h.backspace_of_ne hstart process_list color, fun _ => rfl,
      fun hzero => absurd hzero hstart⟩

theorem Has.erase_glyph {c : UInt8} (h : s.Has (p.put 0 c)) (hc : c ≠ 0) (hclear : p.Clear 0)
    (color : UInt32)
    : (puts_char process_list 0x08 color s).Has p := by
  have hlast : (p.put 0 c).cells ((p.put 0 c).next - 1) ≠ 0 := by
    unfold Strip.put Strip.jump
    dsimp only
    rw [Nat.add_sub_cancel, Function.update_of_ne (by omega), Function.update_self]
    exact hc
  rcases h.backspace (Nat.succ_pos p.next) process_list color with
    ⟨n, hhas, hback, hrow⟩
  have hn : n = p.next := by
    by_cases hstart : (p.put 0 c).next % 80 = 0
    . exact (hrow hstart).2.2 hlast
    . exact hback hstart
  have hundo := hclear.jump_put c
  unfold Strip.jump at hundo
  rw [hn, hundo] at hhas
  exact hhas

theorem Has.erase_tab (h : s.Has (p.jump 0 (tab p.next))) (hclear : p.Clear 0) (color : UInt32)
    : (puts_char process_list 0x08 color s).cursor ≠ p.next := by
  have hpos : 0 < tab p.next := Nat.zero_lt_of_lt (lt_tab p.next)
  rcases h.backspace hpos process_list color with ⟨n, hhas, hback, hrow⟩
  rw [hhas.cursor_eq]
  change n ≠ p.next
  intro heq
  have hcell : (p.jump 0 (tab p.next)).cells n = 0 := by
    have hlt := lt_tab p.next
    unfold Strip.jump
    dsimp only
    rw [Function.update_of_ne (by omega)]
    exact hclear n (Nat.le_of_eq heq.symm)
  change tab p.next % 80 ≠ 0 → n = tab p.next - 1 at hback
  change tab p.next % 80 = 0 → n / 80 = tab p.next / 80 - 1 ∧ (n % 80 = 0 ∨ _) ∧ _ at hrow
  by_cases hfits : p.next % 80 + 4 < 80
  . have htab : tab p.next = p.next + 4 := if_pos hfits
    have hn := hback (by omega)
    omega
  . have htab : tab p.next = (p.next / 80 + 1) * 80 := if_neg hfits
    rcases (hrow (by omega)).2.1 with hzero | hne
    . omega
    . exact hne hcell

end Console

end AiOS
