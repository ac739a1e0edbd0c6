import Mathlib

/-!
This module contains an unbounded page that is typed on from left to right, with rows of one width,
and what a window of a fixed height shows of its last rows.
-/

inductive Stroke (α : Type) where
  | glyph (a : α)
  | newline

structure Page (α : Type) where
  cell : Nat → Nat → α
  row : Nat
  col : Nat

namespace Page

variable {α : Type} (w h : Nat)

def empty (blank : α) : Page α where
  cell _ _ := blank
  row := 0
  col := 0

def new_row (p : Page α) : Page α :=
  { p with
    row := p.row + 1
    col := 0 }

def put (p : Page α) (a : α) : Page α :=
  { p with
    cell := Function.update p.cell p.row (Function.update (p.cell p.row) p.col a)
    col := p.col + 1 }

def type (p : Page α) (stroke : Stroke α) : Page α :=
  match stroke with
  | .glyph a => if p.col + 1 = w then (p.put a).new_row else p.put a
  | .newline => p.new_row

def layout (blank : α) (strokes : List (Stroke α)) : Page α :=
  strokes.foldl (type w) (empty blank)

def top (p : Page α) : Nat :=
  p.row + 1 - h

structure Shows (p : Page α) (cell : Nat → Nat → α) (row col : Nat) : Prop where
  row_eq : row = p.row - p.top h
  col_eq : col = p.col
  cell_eq : ∀ i j, i < h → j < w → cell i j = p.cell (p.top h + i) j

structure Ready (blank : α) (p : Page α) : Prop where
  col_lt : p.col < w
  blank_row : ∀ j, p.col ≤ j → p.cell p.row j = blank
  blank_below : ∀ i j, p.row < i → p.cell i j = blank

variable {w h} {p : Page α} {blank a : α} {cell : Nat → Nat → α} {row col : Nat}

@[simp]
theorem put_cell_self (j : Nat)
    : (p.put a).cell p.row j = if j = p.col then a else p.cell p.row j := by
  unfold put
  dsimp only
  rw [Function.update_self, Function.update_apply]

theorem put_cell_of_ne {i : Nat} (hi : i ≠ p.row) (j : Nat) : (p.put a).cell i j = p.cell i j := by
  unfold put
  dsimp only
  rw [Function.update_of_ne hi]

theorem ready_empty (hw : 0 < w) : (empty blank).Ready w blank :=
  ⟨hw, fun _ _ => rfl, fun _ _ _ => rfl⟩

theorem Ready.new_row (hp : p.Ready w blank) : p.new_row.Ready w blank where
  col_lt := Nat.zero_lt_of_lt hp.col_lt
  blank_row _ _ := hp.blank_below _ _ (Nat.lt_succ_self _)
  blank_below _ _ hi := hp.blank_below _ _ (Nat.lt_of_succ_lt hi)

theorem Ready.put (hp : p.Ready w blank) (hw : p.col + 1 < w) : (p.put a).Ready w blank where
  col_lt := hw
  blank_row j hj := by
    have hcol : p.col + 1 ≤ j := hj
    change (p.put a).cell p.row j = blank
    rw [put_cell_self, if_neg (by omega)]
    apply hp.blank_row
    omega
  blank_below i j hi := by
    have hrow : p.row < i := hi
    rw [put_cell_of_ne (by omega)]
    apply hp.blank_below _ _ hrow

theorem Ready.put_new_row (hp : p.Ready w blank) : (p.put a).new_row.Ready w blank where
  col_lt := Nat.zero_lt_of_lt hp.col_lt
  blank_row j _ := by
    change (p.put a).cell (p.row + 1) j = blank
    rw [put_cell_of_ne (by omega)]
    apply hp.blank_below
    omega
  blank_below i j hi := by
    have hrow : p.row + 1 < i := hi
    change (p.put a).cell i j = blank
    rw [put_cell_of_ne (by omega)]
    apply hp.blank_below
    omega

theorem Ready.type (hp : p.Ready w blank) (stroke : Stroke α) : (p.type w stroke).Ready w blank := by
  cases stroke with
  | newline => exact hp.new_row
  | glyph a =>
    unfold Page.type
    dsimp only
    split
    . exact hp.put_new_row
    . next hne =>
      have := hp.col_lt
      apply hp.put
      omega

namespace Shows

theorem row_lt (hs : p.Shows w h cell row col) (hh : 0 < h) : row < h := by
  have := hs.row_eq
  unfold top at this
  omega

theorem top_add (hs : p.Shows w h cell row col) (hh : 0 < h) : p.top h + row = p.row := by
  have := hs.row_eq
  unfold top at *
  omega

theorem of_empty (hcell : ∀ i j, i < h → j < w → cell i j = blank)
    : (empty blank).Shows w h cell 0 0 where
  row_eq := (Nat.zero_sub _).symm
  col_eq := rfl
  cell_eq i j hi hj := hcell i j hi hj

theorem put (hs : p.Shows w h cell row col) (hh : 0 < h) {cell' : Nat → Nat → α}
    (hcell : ∀ i j, i < h → j < w → cell' i j = if i = row ∧ j = col then a else cell i j)
    : (p.put a).Shows w h cell' row (col + 1) where
  row_eq := hs.row_eq
  col_eq := by
    rw [hs.col_eq]
    rfl
  cell_eq i j hi hj := by
    have htop : (p.put a).top h = p.top h := rfl
    rw [htop, hcell i j hi hj, hs.cell_eq i j hi hj]
    have hrow := hs.top_add hh
    have hcol := hs.col_eq
    cases Nat.decEq i row with
    | isTrue heq =>
      rw [heq, hrow, put_cell_self, hcol]
      simp only [true_and]
    | isFalse hne =>
      rw [if_neg (by simp [hne]), put_cell_of_ne (by omega)]

theorem clear (hs : p.Shows w h cell row col) (hh : 0 < h) (hp : p.Ready w blank)
    {cell' : Nat → Nat → α}
    (hcell : ∀ i j, i < h → j < w → cell' i j = if i = row ∧ j = col then blank else cell i j)
    : p.Shows w h cell' row col where
  row_eq := hs.row_eq
  col_eq := hs.col_eq
  cell_eq i j hi hj := by
    rw [hcell i j hi hj, hs.cell_eq i j hi hj]
    split
    . next hnext =>
      rw [hnext.1, hs.top_add hh, hnext.2, hs.col_eq]
      apply (hp.blank_row _ (Nat.le_refl _)).symm
    . rfl

theorem new_row_of_lt (hs : p.Shows w h cell row col) (hrow : row + 1 < h)
    : p.new_row.Shows w h cell (row + 1) 0 := by
  have hr := hs.row_eq
  have htop : p.new_row.top h = p.top h := by
    unfold top new_row at *
    dsimp only at *
    omega
  constructor
  . rw [htop]
    unfold top new_row at *
    dsimp only at *
    omega
  . rfl
  . intro i j hi hj
    rw [htop]
    exact hs.cell_eq i j hi hj

theorem new_row_of_eq (hs : p.Shows w h cell row col) (hrow : row + 1 = h)
    {cell' : Nat → Nat → α} (hcell : ∀ i j, i + 1 < h → j < w → cell' i j = cell (i + 1) j)
    (hlast : ∀ j, j < w → cell' row j = blank) (hblank : ∀ j, p.cell (p.row + 1) j = blank)
    : p.new_row.Shows w h cell' row 0 := by
  have hr := hs.row_eq
  have htop : p.new_row.top h = p.top h + 1 := by
    unfold top new_row at *
    dsimp only at *
    omega
  have hpage := hs.top_add (by omega)
  constructor
  . rw [htop]
    unfold new_row
    dsimp only
    omega
  . rfl
  . intro i j hi hj
    rw [htop]
    change cell' i j = p.cell (p.top h + 1 + i) j
    cases Nat.decEq i row with
    | isTrue heq =>
      rw [heq, hlast j hj]
      have hbelow : p.top h + 1 + row = p.row + 1 := by omega
      rw [hbelow, hblank]
    | isFalse hne =>
      rw [hcell i j (by omega) hj, hs.cell_eq (i + 1) j (by omega) hj]
      congr 1
      omega

end Shows

end Page
