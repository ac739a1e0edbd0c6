import AiOS.Lib.Logged
import AiOS.Stdlib.Memory
import AiOS.Text.Console

/-!
This module contains `framebuffer.c` with a log of the cells that it writes and of the positions that
it sends to the cursor, and that neither leaves the screen.
-/

namespace AiOS

/--
A call of `framebuffer_write`, the copy in `go_scroll`, or the two bytes that go to the data port
0x3D5 of the cursor.
-/
inductive Access where
  | cell (row col : UInt8)
  | copy (dest n : Nat)
  | cursor (low high : UInt8)

namespace Access

def InScreen : Access → Prop
  | .cell row col => row.toNat ≤ 24 ∧ col.toNat ≤ 79
  | .copy dest n => dest + n ≤ 25 * 80 * 2
  | .cursor _ _ => True

def position : Access → Option Nat
  | .cursor low high => some (high.toNat * 256 + low.toNat)
  | _ => none

def sent (log : List Access) : Option Nat :=
  (log.filterMap position).getLast?

end Access

namespace Screen

open Logged

abbrev ScreenM : Type :=
  Logged.Program Console Access Unit

def framebuffer_set_cursor (r c : UInt8) : ScreenM :=
  let pos := framebuffer_position r c
  act (.cursor (pos &&& 0xFF).toUInt8 ((pos >>> 8) &&& 0xFF).toUInt8)
    (AiOS.framebuffer_set_cursor r c)

def framebuffer_write (row col c fg bg : UInt8) : ScreenM :=
  act (.cell row col) (AiOS.framebuffer_write row col c fg bg)

def go_scroll.shift : ScreenM :=
  act (.copy 0 (80 * 2 * 25 - 80 * 2)) AiOS.go_scroll.shift

def go_scroll.hide_clock (process_list : Fin 16 → ProcessControlBlock) : ScreenM :=
  if (List.finRange 16).any fun i => go_scroll.is_clock (process_list i) then
    [72, 73, 74, 75, 76, 77, 78, 79].forM fun col => framebuffer_write 23 col 0 0xF 0
  else
    pure ()

def go_scroll.clear_row : ScreenM :=
  (List.range 80).forM fun i => do
    let s ← get
    framebuffer_write (UInt8.ofInt s.state.row) (UInt8.ofNat i) 0 0xF 0

def go_scroll (process_list : Fin 16 → ProcessControlBlock) : ScreenM := do
  go_scroll.shift
  alter fun s => s.set_row (s.row - 1)
  go_scroll.hide_clock process_list
  go_scroll.clear_row

namespace puts_char

def blank (color : UInt32) : ScreenM := do
  let s ← get
  framebuffer_write (UInt8.ofInt s.state.row) (UInt8.ofInt s.state.col) 0 color.toUInt8 0
  let s ← get
  framebuffer_set_cursor (UInt8.ofInt s.state.row) (UInt8.ofInt s.state.col)

def next_row (process_list : Fin 16 → ProcessControlBlock) : ScreenM := do
  alter fun s => s.set_row (s.row + 1)
  let s ← get
  if s.state.row = 25 then
    go_scroll process_list
  else
    pure ()

def wrap (process_list : Fin 16 → ProcessControlBlock) (past : Int → Bool) : ScreenM := do
  let s ← get
  if past s.state.col then
    next_row process_list
    alter fun s => s.set_col 0
  else
    pure ()

-- the loop of the backspace, without a result where it does not end within `fuel` passes
def back (fuel : Nat) : ScreenM :=
  match fuel with
  | 0 => Fallible.ofOption none
  | fuel + 1 => do
    let s ← get
    if framebuffer_read (UInt8.ofInt s.state.row) (UInt8.ofInt s.state.col) s.state = 0 ∧
        s.state.col ≠ 0 then
      alter fun s => s.set_col (s.col - 1)
      back fuel
    else
      pure ()

def first_row : ScreenM := do
  let s ← get
  if s.state.row ≤ 0 then
    alter fun s => s.set_row 0
  else
    pure ()

def row_above (fuel : Nat) : ScreenM := do
  let s ← get
  if s.state.col < 0 then
    alter fun s => s.set_row (s.row - 1)
    alter fun s => s.set_col 79
    back fuel
    first_row
  else
    pure ()

end puts_char

open Screen.puts_char in
def puts_char (fuel : Nat) (process_list : Fin 16 → ProcessControlBlock) (c : UInt8)
    (color : UInt32) : ScreenM :=
  if c = 0 then
    pure ()
  else if c = 0x0A then do
    alter fun s => s.set_col 0
    next_row process_list
    blank color
  else if c = 0x09 then do
    alter fun s => s.set_col (s.col + 4)
    wrap process_list fun col => col ≥ 80
    blank color
  else if c = 0x08 then do
    let s ← get
    if s.state.col = 0 ∧ s.state.row = 0 then
      pure ()
    else
      alter fun s => s.set_col (s.col - 1)
      row_above fuel
      blank color
  else do
    let s ← get
    framebuffer_write (UInt8.ofInt s.state.row) (UInt8.ofInt s.state.col) c color.toUInt8 0
    alter fun s => s.set_col (s.col + 1)
    wrap process_list fun col => col = 80
    blank color

def puts.go (fuel : Nat) (process_list : Fin 16 → ProcessControlBlock) (color : UInt32)
    : List UInt8 → ScreenM
  | [] => pure ()
  | c :: cs =>
    if c = 0 then
      pure ()
    else do
      puts_char fuel process_list c color
      puts.go fuel process_list color cs

def puts (fuel : Nat) (process_list : Fin 16 → ProcessControlBlock) (str : Nat → UInt8)
    (count color : UInt32) : ScreenM := do
  puts.go fuel process_list color ((List.range count.toNat).map str)
  let s ← get
  framebuffer_set_cursor (UInt8.ofInt s.state.row) (UInt8.ofInt s.state.col)

-- system call 9
def clear : ScreenM := do
  alter framebuffer_clear
  framebuffer_set_cursor 0 0

/--
The program stays on the screen, and at its end it sends the position that it comes to.
-/
structure Settles (p : ScreenM) (s t : Console) : Prop where
  at_cursor : ∃ row < 25, ∃ col < 80, t.At row col ∧ t.cursor = row * 80 + col
  ends : Ends Access.InScreen p s t (.cursor t.cursor_low t.cursor_high)

variable {p q : ScreenM} {s t u : Console} {row col : Nat}
  {process_list : Fin 16 → ProcessControlBlock}

theorem Settles.bind (hp : Runs Access.InScreen p s t) (hq : Settles q t u)
    : Settles (p >>= fun _ => q) s u where
  at_cursor := hq.at_cursor
  ends := Ends.bind hp hq.ends

theorem Settles.get_bind {f : Logged Console Access → ScreenM} (h : ∀ log, Settles (f ⟨s, log⟩) s t)
    : Settles (get >>= f) s t where
  at_cursor := (h []).at_cursor
  ends := Ends.get_bind fun log => (h log).ends

theorem toNat_row (hat : s.At row col) (hrow : row < 256) : (UInt8.ofInt s.row).toNat = row := by
  rw [hat.row_eq, Console.toNat_ofInt hrow]

theorem toNat_col (hat : s.At row col) (hcol : col < 256) : (UInt8.ofInt s.col).toNat = col := by
  rw [hat.col_eq, Console.toNat_ofInt hcol]

theorem runs_write {row col : UInt8} (hrow : row.toNat ≤ 24) (hcol : col.toNat ≤ 79)
    (c fg bg : UInt8) (s : Console)
    : Runs Access.InScreen (framebuffer_write row col c fg bg) s
        (AiOS.framebuffer_write row col c fg bg s) := by
  apply Runs.of_act
  exact ⟨hrow, hcol⟩

theorem settles_set_cursor {r c : UInt8} (hr : r.toNat < 25) (hc : c.toNat < 80) (s : Console)
    : Settles (framebuffer_set_cursor r c) s (AiOS.framebuffer_set_cursor r c s) where
  at_cursor := ⟨r.toNat, hr, c.toNat, hc, Console.at_set_cursor r c s⟩
  ends := Ends.of_act trivial _ s

theorem settles_blank (hat : s.At row col) (hrow : row < 25) (hcol : col < 80) (color : UInt32)
    : Settles (puts_char.blank color) s (AiOS.puts_char.blank color s) := by
  have hr := toNat_row hat (by omega)
  have hc := toNat_col hat (by omega)
  apply Settles.get_bind
  intro _
  dsimp only
  apply Settles.bind (runs_write (by omega) (by omega) _ _ _ _)
  apply Settles.get_bind
  intro _
  apply settles_set_cursor
  . change (UInt8.ofInt s.row).toNat < 25
    omega
  . change (UInt8.ofInt s.col).toNat < 80
    omega

theorem runs_hide_clock (process_list : Fin 16 → ProcessControlBlock) (hat : s.At row col)
    : Runs Access.InScreen (go_scroll.hide_clock process_list) s
          (if (List.finRange 16).any fun i => AiOS.go_scroll.is_clock (process_list i) then
            AiOS.go_scroll.hide_clock s
          else
            s) ∧
        (AiOS.go_scroll.hide_clock s).At row col := by
  have hcols : ∀ c ∈ ([72, 73, 74, 75, 76, 77, 78, 79] : List UInt8), c.toNat ≤ 79 := by simp
  have hfold := Runs.forM (ε := Access) (f := fun s c => AiOS.framebuffer_write 23 c 0 0xF 0 s)
      (fun c hc s (hat : s.At row col) =>
        ⟨runs_write (by decide) (hcols c hc) 0 0xF 0 s, hat.row_eq, hat.col_eq⟩) hat
  refine ⟨?_, hfold.2⟩
  unfold go_scroll.hide_clock
  split
  . exact hfold.1
  . exact Runs.refl s

theorem runs_clear_row (hat : s.At row col) (hrow : row < 25)
    : Runs Access.InScreen go_scroll.clear_row s (AiOS.go_scroll.clear_row s) ∧
        (AiOS.go_scroll.clear_row s).At row col := by
  unfold go_scroll.clear_row AiOS.go_scroll.clear_row
  apply Runs.forM (I := fun s => s.At row col) (f := fun s i =>
    AiOS.framebuffer_write (UInt8.ofInt s.row) (UInt8.ofNat i) 0 0xF 0 s) _ hat
  intro c hc s hat
  rw [List.mem_range] at hc
  have hr := toNat_row hat (by omega)
  have hc' : (UInt8.ofNat c).toNat = c := UInt8.toNat_ofNat_of_lt' (by change c < 256; omega)
  refine ⟨?_, hat.row_eq, hat.col_eq⟩
  apply Runs.get_bind
  intro _
  dsimp only
  apply runs_write (by omega) (by omega)

theorem runs_go_scroll (process_list : Fin 16 → ProcessControlBlock) (hat : s.At 25 col)
    : Runs Access.InScreen (go_scroll process_list) s (AiOS.go_scroll process_list s) ∧
        (AiOS.go_scroll process_list s).At 24 col := by
  have hshift : Runs Access.InScreen go_scroll.shift s (AiOS.go_scroll.shift s) := by
    apply Runs.of_act
    exact (by decide : 0 + (80 * 2 * 25 - 80 * 2) ≤ 25 * 80 * 2)
  have hat' : ((AiOS.go_scroll.shift s).set_row ((AiOS.go_scroll.shift s).row - 1)).At 24 col := by
    refine ⟨?_, hat.col_eq⟩
    have hrow : (AiOS.go_scroll.shift s).row = 25 := hat.row_eq
    rw [Console.set_row_row, hrow]
    rfl
  rcases runs_hide_clock process_list hat' with ⟨hhide, hhidden⟩
  have hclear : ∀ t : Console, t.At 24 col →
      Runs Access.InScreen go_scroll.clear_row t (AiOS.go_scroll.clear_row t) ∧
        (AiOS.go_scroll.clear_row t).At 24 col := fun t ht => runs_clear_row ht (by decide)
  unfold go_scroll AiOS.go_scroll
  dsimp only
  split at hhide
  . next hclock =>
    rw [if_pos hclock]
    rcases hclear _ hhidden with ⟨hrun, hat''⟩
    exact ⟨hshift.bind ((Runs.of_alter _ _).bind (hhide.bind hrun)), hat''⟩
  . next hclock =>
    rw [if_neg hclock]
    rcases hclear _ hat' with ⟨hrun, hat''⟩
    exact ⟨hshift.bind ((Runs.of_alter _ _).bind (hhide.bind hrun)), hat''⟩

theorem runs_next_row (process_list : Fin 16 → ProcessControlBlock) (hat : s.At row col)
    (hrow : row < 25)
    : Runs Access.InScreen (puts_char.next_row process_list) s
          (AiOS.puts_char.next_row process_list s) ∧
        ∃ row' < 25, (AiOS.puts_char.next_row process_list s).At row' col := by
  have hnext : (s.set_row (s.row + 1)).At (row + 1) col := by
    refine ⟨?_, hat.col_eq⟩
    rw [Console.set_row_row, hat.row_eq]
    rfl
  unfold puts_char.next_row AiOS.puts_char.next_row
  dsimp only
  by_cases hlast : (s.set_row (s.row + 1)).row = 25
  . have hend : row + 1 = 25 := by
      have heq := hnext.row_eq
      rw [hlast] at heq
      omega
    rw [if_pos hlast]
    rw [hend] at hnext
    rcases runs_go_scroll process_list hnext with ⟨hscroll, hat'⟩
    refine ⟨?_, 24, by decide, hat'⟩
    apply (Runs.of_alter _ _).bind
    apply Runs.get_bind
    intro _
    dsimp only
    rw [if_pos hlast]
    exact hscroll
  . rw [if_neg hlast]
    refine ⟨?_, row + 1, ?_, hnext⟩
    . apply (Runs.of_alter _ _).bind
      apply Runs.get_bind
      intro _
      dsimp only
      rw [if_neg hlast]
      apply Runs.refl
    . by_contra hge
      apply hlast
      rw [hnext.row_eq]
      omega

theorem runs_wrap (process_list : Fin 16 → ProcessControlBlock) (past : Int → Bool)
    (hat : s.At row col) (hrow : row < 25) (hpast : past col = false → col < 80)
    : Runs Access.InScreen (puts_char.wrap process_list past) s
          (if past s.col then (AiOS.puts_char.next_row process_list s).set_col 0 else s) ∧
        ∃ row' < 25, ∃ col' < 80, Console.At
          (if past s.col then (AiOS.puts_char.next_row process_list s).set_col 0 else s) row' col' := by
  have hcol := hat.col_eq
  rcases runs_next_row process_list hat hrow with ⟨hnext, row', hrow', hat'⟩
  by_cases h : past s.col
  . rw [if_pos h]
    refine ⟨?_, row', hrow', 0, by decide, hat'.set_col 0⟩
    apply Runs.get_bind
    intro _
    dsimp only
    rw [if_pos h]
    exact hnext.bind (Runs.of_alter _ _)
  . rw [if_neg h]
    rw [hcol, Bool.not_eq_true] at h
    refine ⟨?_, row, hrow, col, hpast h, hat⟩
    apply Runs.get_bind
    intro _
    dsimp only
    rw [hcol, if_neg (by rw [h]; decide)]
    apply Runs.refl

theorem back_le (s : Console) (n : Nat) : AiOS.puts_char.back s n ≤ n := by
  induction n with
  | zero => exact Nat.le_refl 0
  | succ n ih =>
    unfold AiOS.puts_char.back
    split
    . omega
    . exact Nat.le_refl _

theorem back_set_col (s : Console) (c : Int) (n : Nat)
    : AiOS.puts_char.back (s.set_col c) n = AiOS.puts_char.back s n := by
  induction n with
  | zero => rfl
  | succ n ih =>
    unfold AiOS.puts_char.back
    rw [ih]
    rfl

theorem set_col_self {c : Int} (h : s.col = c) : s.set_col c = s := by
  rw [← h]
  rfl

theorem runs_back {n fuel : Nat} (hn : n < 256) (hfuel : n < fuel) (hcol : s.col = n)
    : Runs Access.InScreen (puts_char.back fuel) s (s.set_col (AiOS.puts_char.back s n)) := by
  induction n generalizing s fuel with
  | zero =>
    cases fuel with
    | zero => contradiction
    | succ fuel =>
      apply Runs.get_bind
      intro _
      dsimp only
      rw [if_neg fun h => h.2 hcol]
      unfold AiOS.puts_char.back
      rw [set_col_self hcol]
      apply Runs.refl
  | succ n ih =>
    cases fuel with
    | zero => contradiction
    | succ fuel =>
      have hread : UInt8.ofInt s.col = UInt8.ofNat (n + 1) := by
        rw [hcol, ← UInt8.toNat_inj, Console.toNat_ofInt hn,
          UInt8.toNat_ofNat_of_lt' (by change n + 1 < 256; omega)]
      have hne : s.col ≠ 0 := by
        rw [hcol]
        omega
      unfold AiOS.puts_char.back
      apply Runs.get_bind
      intro _
      dsimp only
      rw [hread]
      split
      . next hblank =>
        rw [if_pos hblank.1]
        have hprev : (s.set_col (s.col - 1)).col = n := by
          rw [Console.set_col_col, hcol]
          omega
        have hrest := ih (by omega) (by omega : n < fuel) hprev
        rw [back_set_col] at hrest
        exact (Runs.of_alter _ _).bind hrest
      . next hglyph =>
        rw [if_neg fun hzero => hglyph ⟨hzero, hne⟩, set_col_self hcol]
        apply Runs.refl

theorem runs_first_row (s : Console)
    : Runs Access.InScreen puts_char.first_row s (if s.row ≤ 0 then s.set_row 0 else s) := by
  apply Runs.get_bind
  intro _
  dsimp only
  split
  . apply Runs.of_alter
  . apply Runs.refl

theorem runs_row_above {fuel : Nat} (hfuel : 80 ≤ fuel) (hrow : s.row = row)
    (hcol : s.col = (col : Int) - 1) (hlt : row < 25) (hlt' : col < 80) (hstart : ¬ (col = 0 ∧ row = 0))
    : let t :=
        if s.col < 0 then
          let s := s.set_row (s.row - 1)
          let s := s.set_col (AiOS.puts_char.back s 79)
          if s.row ≤ 0 then s.set_row 0 else s
        else
          s
      Runs Access.InScreen (puts_char.row_above fuel) s t ∧
        ∃ row' < 25, ∃ col' < 80, t.At row' col' := by
  dsimp only
  by_cases hneg : s.col < 0
  . rw [if_pos hneg]
    have hup : (s.set_row (s.row - 1)).row = (row - 1 : Nat) := by
      rw [Console.set_row_row, hrow]
      omega
    have hback := back_le (s.set_row (s.row - 1)) 79
    have hrun := runs_back (s := (s.set_row (s.row - 1)).set_col 79) (by decide)
      (by omega : 79 < fuel) rfl
    rw [back_set_col] at hrun
    constructor
    . apply Runs.get_bind
      intro _
      dsimp only
      rw [if_pos hneg]
      apply (Runs.of_alter _ _).bind
      apply (Runs.of_alter _ _).bind
      exact hrun.bind (runs_first_row _)
    . refine ⟨row - 1, by omega, AiOS.puts_char.back (s.set_row (s.row - 1)) 79, by omega, ?_⟩
      split
      . next hzero =>
        have hup' : row - 1 = 0 := by
          have heq : ((s.set_row (s.row - 1)).set_col
              (AiOS.puts_char.back (s.set_row (s.row - 1)) 79)).row = (row - 1 : Nat) := hup
          rw [heq] at hzero
          omega
        rw [hup']
        exact ⟨rfl, rfl⟩
      . exact ⟨hup, rfl⟩
  . rw [if_neg hneg]
    refine ⟨?_, row, hlt, col - 1, by omega, hrow, ?_⟩
    . apply Runs.get_bind
      intro _
      dsimp only
      rw [if_neg hneg]
      apply Runs.refl
    . rw [hcol]
      omega

def Idle (p : ScreenM) (s t : Console) : Prop :=
  t = s ∧ ∀ log, p ⟨s, log⟩ = some ((), ⟨s, log⟩)

theorem settles_column {k : Nat} (hat : s.At row col) (hrow : row < 25)
    (process_list : Fin 16 → ProcessControlBlock) (past : Int → Bool)
    (hpast : past (col + k : Nat) = false → col + k < 80) (color : UInt32)
    : Settles
        (do
          alter fun s => s.set_col (s.col + k)
          puts_char.wrap process_list past
          puts_char.blank color)
        s
        (let s := s.set_col (s.col + k)
        let s := if past s.col then (AiOS.puts_char.next_row process_list s).set_col 0 else s
        AiOS.puts_char.blank color s) := by
  have hat' : (s.set_col (s.col + k)).At row (col + k) := by
    refine ⟨hat.row_eq, ?_⟩
    rw [Console.set_col_col, hat.col_eq]
    rfl
  rcases runs_wrap process_list past hat' hrow hpast
    with ⟨hwrap, row', hrow', col', hcol', hat''⟩
  apply Settles.bind (Runs.of_alter _ _)
  apply Settles.bind hwrap
  apply settles_blank hat'' hrow' hcol'

theorem settles_backspace {fuel : Nat} (hfuel : 80 ≤ fuel) (hat : s.At row col) (hrow : row < 25)
    (hcol : col < 80) (hstart : ¬ (s.col = 0 ∧ s.row = 0)) (color : UInt32)
    : Settles
        (do
          alter fun s => s.set_col (s.col - 1)
          puts_char.row_above fuel
          puts_char.blank color)
        s
        (let s := s.set_col (s.col - 1)
        let s :=
          if s.col < 0 then
            let s := s.set_row (s.row - 1)
            let s := s.set_col (AiOS.puts_char.back s 79)
            if s.row ≤ 0 then s.set_row 0 else s
          else
            s
        AiOS.puts_char.blank color s) := by
  have hprev : (s.set_col (s.col - 1)).col = (col : Int) - 1 := by
    rw [Console.set_col_col, hat.col_eq]
  have hnot : ¬ (col = 0 ∧ row = 0) := by
    intro ⟨hc, hr⟩
    apply hstart
    rw [hat.col_eq, hat.row_eq, hc, hr]
    exact ⟨rfl, rfl⟩
  rcases runs_row_above (s := s.set_col (s.col - 1)) hfuel hat.row_eq hprev hrow hcol hnot
    with ⟨habove, row', hrow', col', hcol', hat'⟩
  apply Settles.bind (Runs.of_alter _ _)
  apply Settles.bind habove
  apply settles_blank hat' hrow' hcol'

theorem puts_char_cases {fuel : Nat} (hfuel : 80 ≤ fuel) (hat : s.At row col) (hrow : row < 25)
    (hcol : col < 80) (process_list : Fin 16 → ProcessControlBlock) (c : UInt8) (color : UInt32)
    : Settles (puts_char fuel process_list c color) s (AiOS.puts_char process_list c color s) ∨
      Idle (puts_char fuel process_list c color) s (AiOS.puts_char process_list c color s) := by
  unfold puts_char AiOS.puts_char
  dsimp only
  split
  . right
    exact ⟨rfl, fun _ => rfl⟩
  split
  . left
    rcases runs_next_row process_list (hat.set_col 0) hrow
      with ⟨hnext, row', hrow', hat'⟩
    apply Settles.bind (Runs.of_alter _ _)
    apply Settles.bind hnext
    apply settles_blank hat' hrow' (by decide)
  split
  . left
    have hsettles := settles_column (k := 4) hat hrow process_list (fun col => col ≥ 80)
      (by simp; omega) color
    simp only [decide_eq_true_eq] at hsettles
    exact hsettles
  split
  . by_cases hstart : s.col = 0 ∧ s.row = 0
    . right
      rw [if_pos hstart]
      refine ⟨rfl, ?_⟩
      intro log
      rw [Fallible.get_bind_apply]
      dsimp only
      rw [if_pos hstart]
      rfl
    . left
      rw [if_neg hstart]
      apply Settles.get_bind
      intro _
      dsimp only
      rw [if_neg hstart]
      exact settles_backspace hfuel hat hrow hcol hstart color
  . left
    have hr := toNat_row hat (by omega)
    have hc := toNat_col hat (by omega)
    have hwrite := runs_write (by omega : (UInt8.ofInt s.row).toNat ≤ 24)
      (by omega : (UInt8.ofInt s.col).toNat ≤ 79) c color.toUInt8 0 s
    have hwritten : (AiOS.framebuffer_write (UInt8.ofInt s.row) (UInt8.ofInt s.col) c color.toUInt8 0
        s).At row col := ⟨hat.row_eq, hat.col_eq⟩
    have hsettles := settles_column (k := 1) hwritten hrow process_list (fun col => col = 80)
      (by simp; omega) color
    simp only [decide_eq_true_eq] at hsettles
    apply Settles.get_bind
    intro _
    dsimp only
    apply Settles.bind hwrite
    exact hsettles

/--
The row and the column are on the screen, all accesses were to the screen, and the position that was
sent last is that of the row and the column. Before the first call nothing has been sent.
-/
structure Safe (s : Logged Console Access) : Prop where
  at_cursor : ∃ row < 25, ∃ col < 80, s.state.At row col ∧
    (s.log = [] ∧ row = 0 ∧ col = 0 ∨ Access.sent s.log = some (row * 80 + col))
  in_screen : ∀ access ∈ s.log, access.InScreen

theorem Settles.safe {log : List Access} (h : Settles p s t) (hlog : ∀ access ∈ log, access.InScreen)
    : ∃ log', p ⟨s, log⟩ = some ((), ⟨t, log'⟩) ∧ Safe ⟨t, log'⟩ := by
  rcases h.ends log with ⟨entries, hrun, hok⟩
  rcases h.at_cursor with ⟨row, hrow, col, hcol, hat, hcursor⟩
  refine ⟨_, hrun, ⟨row, hrow, col, hcol, hat, Or.inr ?_⟩, ?_⟩
  . unfold Access.sent
    rw [← hcursor]
    simp [Access.position, Console.cursor]
  . intro access haccess
    rw [List.append_assoc, List.mem_append] at haccess
    rcases haccess with hmem | hmem
    . apply hlog access hmem
    . apply hok access hmem

theorem runs_go {fuel : Nat} (hfuel : 80 ≤ fuel) (hat : s.At row col) (hrow : row < 25)
    (hcol : col < 80) (process_list : Fin 16 → ProcessControlBlock) (color : UInt32)
    (cs : List UInt8)
    : Runs Access.InScreen (puts.go fuel process_list color cs) s
          (AiOS.puts.go process_list color s cs) ∧
        ∃ row' < 25, ∃ col' < 80, (AiOS.puts.go process_list color s cs).At row' col' := by
  induction cs generalizing s row col with
  | nil => exact ⟨Runs.refl s, row, hrow, col, hcol, hat⟩
  | cons c cs ih =>
    unfold puts.go AiOS.puts.go
    split
    . exact ⟨Runs.refl s, row, hrow, col, hcol, hat⟩
    . rcases puts_char_cases hfuel hat hrow hcol process_list c color with hsettles | hidle
      . rcases hsettles.at_cursor with ⟨row', hrow', col', hcol', hat', _⟩
        rcases ih hat' hrow' hcol' with ⟨hrest, hend⟩
        exact ⟨hsettles.ends.runs.bind hrest, hend⟩
      . rcases ih hat hrow hcol with ⟨hrest, hend⟩
        rw [hidle.1]
        refine ⟨?_, hend⟩
        intro log
        rw [Fallible.bind_apply, hidle.2 log]
        exact hrest log

theorem settles_puts {fuel : Nat} (hfuel : 80 ≤ fuel) (hat : s.At row col) (hrow : row < 25)
    (hcol : col < 80) (process_list : Fin 16 → ProcessControlBlock) (str : Nat → UInt8)
    (count color : UInt32)
    : Settles (puts fuel process_list str count color) s
        (AiOS.puts process_list str count color s) := by
  rcases runs_go hfuel hat hrow hcol process_list color ((List.range count.toNat).map str)
    with ⟨hgo, row', hrow', col', hcol', hat'⟩
  have hr := toNat_row hat' (by omega)
  have hc := toNat_col hat' (by omega)
  apply Settles.bind hgo
  apply Settles.get_bind
  intro _
  apply settles_set_cursor
  . dsimp only
    omega
  . dsimp only
    omega

theorem settles_clear (s : Console) : Settles clear s (Console.cleared s) := by
  apply Settles.bind (Runs.of_alter _ _)
  apply settles_set_cursor
  . decide
  . decide

inductive Call where
  | print (process_list : Fin 16 → ProcessControlBlock) (call : Console.Call)
  | clear

namespace Call

def exec (s : Console) : Call → Console
  | .print process_list call => call.exec process_list s
  | .clear => s.cleared

def call (fuel : Nat) : Call → ScreenM
  | .print process_list (.puts_char c color) => Screen.puts_char fuel process_list c color
  | .print process_list (.puts str count color) => Screen.puts fuel process_list str count color
  | .clear => Screen.clear

end Call

theorem Safe.call {fuel : Nat} (hfuel : 80 ≤ fuel) {s : Logged Console Access} (h : Safe s)
    (call : Call)
    : ∃ log, call.call fuel s = some ((), ⟨call.exec s.state, log⟩) ∧
        Safe ⟨call.exec s.state, log⟩ := by
  rcases h.at_cursor with ⟨row, hrow, col, hcol, hat, _⟩
  cases call with
  | print process_list call =>
    cases call with
    | puts_char c color =>
      rcases puts_char_cases hfuel hat hrow hcol process_list c color with hsettles | hidle
      . apply hsettles.safe h.in_screen
      . have hsame : (Call.print process_list (.puts_char c color)).exec s.state = s.state := hidle.1
        rw [hsame]
        exact ⟨s.log, hidle.2 s.log, h⟩
    | puts str count color =>
      apply (settles_puts hfuel hat hrow hcol process_list str count color).safe h.in_screen
  | clear => apply (settles_clear s.state).safe h.in_screen

theorem Safe.run {fuel : Nat} (hfuel : 80 ≤ fuel) {s : Logged Console Access} (h : Safe s)
    (calls : List Call)
    : ∃ log, calls.forM (Call.call fuel) s
          = some ((), ⟨calls.foldl (fun s call => call.exec s) s.state, log⟩) ∧
        Safe ⟨calls.foldl (fun s call => call.exec s) s.state, log⟩ := by
  induction calls generalizing s with
  | nil => exact ⟨s.log, rfl, h⟩
  | cons call calls ih =>
    rcases h.call hfuel call with ⟨log, hrun, hsafe⟩
    rcases ih hsafe with ⟨log', hrest, hend⟩
    refine ⟨log', ?_, hend⟩
    have hcons : (call :: calls).forM (Call.call fuel)
        = call.call fuel >>= fun _ => calls.forM (Call.call fuel) := rfl
    rw [hcons, Fallible.bind_apply, hrun, Option.bind_some, hrest]
    rfl

end Screen

/--
From the first cell on, the cursor stays on the screen whatever is printed, the scan of the backspace
ends, no other cell is written, and the cursor ports have the position.
-/
theorem screen_safe {s : Console} (hrow : s.row = 0) (hcol : s.col = 0) {fuel : Nat}
    (hfuel : 80 ≤ fuel) (calls : List Screen.Call)
    : ∃ log, calls.forM (Screen.Call.call fuel) ⟨s, []⟩
          = some ((), ⟨calls.foldl (fun s call => call.exec s) s, log⟩) ∧
        Screen.Safe ⟨calls.foldl (fun s call => call.exec s) s, log⟩ := by
  have hstart : Screen.Safe ⟨s, []⟩ := by
    refine ⟨⟨0, by decide, 0, by decide, ⟨hrow, hcol⟩, Or.inl ⟨rfl, rfl, rfl⟩⟩, ?_⟩
    simp
  apply hstart.run hfuel calls

theorem screen_safe_typed
    : let s : Console := ⟨fun _ => 0xFF, 0, 0, ⟨0, 0⟩⟩
      let calls : List Screen.Call :=
        [.print (fun _ => .zero) (.puts (fun _ => 0x0A) 30 0xF),
          .print (fun _ => .zero) (.puts_char 0x08 0xF), .clear,
          .print (fun _ => .zero) (.puts_char 0x09 0xF)]
      ∃ log, calls.forM (Screen.Call.call 80) ⟨s, []⟩
            = some ((), ⟨calls.foldl (fun s call => call.exec s) s, log⟩) ∧
          Screen.Safe ⟨calls.foldl (fun s call => call.exec s) s, log⟩ :=
  screen_safe rfl rfl (Nat.le_refl 80) _

end AiOS
