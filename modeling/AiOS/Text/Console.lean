import AiOS.Lib.Page
import AiOS.Text.Framebuffer

/-!
This module proves that the console shows the last rows of everything that was printed.
-/

namespace AiOS

namespace Console

def cell (s : Console) (i j : Nat) : UInt8 :=
  s.memory ((i * 80 + j) * 2)

def cursor (s : Console) : Nat :=
  s.cursor_high.toNat * 256 + s.cursor_low.toNat

structure At (s : Console) (row col : Nat) : Prop where
  row_eq : s.row = row
  col_eq : s.col = col

def stroke (c : UInt8) : Stroke UInt8 :=
  if c = 0x0A then .newline else .glyph c

def NoClock (process_list : Fin 16 → ProcessControlBlock) : Prop :=
  ∀ i, go_scroll.is_clock (process_list i) = false

variable {s : Console} {row col : Nat}

theorem position_eq (row col : UInt8)
    : (framebuffer_position row col).toNat = row.toNat * 80 + col.toNat := by
  have hrow := row.toNat_lt
  have hcol := col.toNat_lt
  unfold framebuffer_position
  rw [UInt16.toNat_ofNat_of_lt']
  change _ < 65536
  omega

theorem write_cell {r c : UInt8} (hc : c.toNat < 80) (a fg bg : UInt8) (s : Console) {i j : Nat}
    (hj : j < 80)
    : (framebuffer_write r c a fg bg s).cell i j
        =
      if i = r.toNat ∧ j = c.toNat then a else s.cell i j := by
  unfold framebuffer_write cell
  dsimp only
  rw [position_eq, Function.update_of_ne (by omega), Function.update_apply]
  congr 1
  apply propext
  omega

theorem toNat_ofInt {n : Nat} (h : n < 256) : (UInt8.ofInt n).toNat = n := by
  unfold UInt8.ofInt
  rw [UInt8.toNat_ofNat_of_lt']
  . omega
  . change _ < 256
    omega

theorem At.clear_row_fold (hat : s.At row col) (hrow : row < 25) {n : Nat} (hn : n ≤ 80)
    : let t := (List.range n).foldl
        (fun s i => framebuffer_write (UInt8.ofInt s.row) (UInt8.ofNat i) 0 0xF 0 s) s
      t.At row col ∧ ∀ i j, j < 80 → t.cell i j = if i = row ∧ j < n then 0 else s.cell i j := by
  dsimp only
  induction n with
  | zero =>
    refine ⟨hat, ?_⟩
    intro i j _
    rw [if_neg (by omega)]
    rfl
  | succ n ih =>
    rcases ih (by omega) with ⟨hat', hcell⟩
    have hc : (UInt8.ofNat n).toNat = n := UInt8.toNat_ofNat_of_lt' (by change n < 256; omega)
    have hr : (UInt8.ofInt (row : Int)).toNat = row := toNat_ofInt (by omega)
    rw [List.range_succ, List.foldl_concat, hat'.row_eq]
    refine ⟨⟨hat'.row_eq, hat'.col_eq⟩, ?_⟩
    intro i j hj
    rw [write_cell (by omega) _ _ _ _ hj, hcell i j hj, hr, hc]
    split
    . rw [if_pos (by omega)]
    . congr 1
      apply propext
      omega

theorem At.clear_row (hat : s.At row col) (hrow : row < 25)
    : (go_scroll.clear_row s).At row col ∧
      ∀ i j, j < 80 → (go_scroll.clear_row s).cell i j = if i = row then 0 else s.cell i j := by
  rcases hat.clear_row_fold hrow (Nat.le_refl 80) with ⟨hat', hcell⟩
  refine ⟨hat', ?_⟩
  intro i j hj
  apply (hcell i j hj).trans
  simp only [hj, and_true]

theorem shift_cell (s : Console) {i j : Nat} (hi : i < 24) (hj : j < 80)
    : (go_scroll.shift s).cell i j = s.cell (i + 1) j := by
  unfold go_scroll.shift cell
  dsimp only
  rw [memcpy.within_of_le _ _ (by omega), if_pos (by omega)]
  congr 1
  omega

@[simp]
theorem set_row_row (s : Console) (r : Int) : (s.set_row r).row = r := by
  rfl

@[simp]
theorem set_col_col (s : Console) (c : Int) : (s.set_col c).col = c := by
  rfl

@[simp]
theorem set_row_cell (s : Console) (r : Int) : (s.set_row r).cell = s.cell := by
  rfl

@[simp]
theorem set_col_cell (s : Console) (c : Int) : (s.set_col c).cell = s.cell := by
  rfl

theorem At.set_row (hat : s.At row col) (r : Nat) : (s.set_row r).At r col :=
  ⟨rfl, hat.col_eq⟩

theorem At.set_col (hat : s.At row col) (c : Nat) : (s.set_col c).At row c :=
  ⟨hat.row_eq, rfl⟩

theorem At.go_scroll {process_list : Fin 16 → ProcessControlBlock} (hat : s.At 25 col)
    (hclock : NoClock process_list)
    : (go_scroll process_list s).At 24 col ∧
      ∀ i j, i < 25 → j < 80 →
        (go_scroll process_list s).cell i j = if i = 24 then 0 else s.cell (i + 1) j := by
  have hshift : (go_scroll.shift s).At 25 col := ⟨hat.row_eq, hat.col_eq⟩
  have hrow : (go_scroll.shift s).row - 1 = (24 : Nat) := by
    rw [hshift.row_eq]
    rfl
  unfold AiOS.go_scroll
  dsimp only
  rw [if_neg (by simpa [NoClock] using hclock), hrow]
  rcases (hshift.set_row 24).clear_row (by omega) with ⟨hfinal, hcell⟩
  refine ⟨hfinal, ?_⟩
  intro i j hi hj
  rw [hcell i j hj, set_row_cell]
  split
  . rfl
  . rw [shift_cell s (by omega) hj]

/--
The console shows the last 25 rows of the page, and its state is the next position in them.
-/
structure Shows (s : Console) (p : Page UInt8) : Prop where
  at_next : s.At (p.row - p.top 25) p.col
  cell_eq : ∀ i j, i < 25 → j < 80 → s.cell i j = p.cell (p.top 25 + i) j

variable {p : Page UInt8}

theorem Shows.page (h : s.Shows p) : p.Shows 80 25 s.cell (p.row - p.top 25) p.col :=
  ⟨rfl, rfl, h.cell_eq⟩

theorem Shows.of_page (hat : s.At row col) (h : p.Shows 80 25 s.cell row col) : s.Shows p := by
  have hrow := h.row_eq
  have hcol := h.col_eq
  rw [hrow, hcol] at hat
  exact ⟨hat, h.cell_eq⟩

theorem At.write (hat : s.At row col) (hrow : row < 25) (hcol : col < 80) (c : UInt8)
    (color : UInt32)
    : let t := framebuffer_write (UInt8.ofInt s.row) (UInt8.ofInt s.col) c color.toUInt8 0 s
      t.At row col ∧
        ∀ i j, i < 25 → j < 80 → t.cell i j = if i = row ∧ j = col then c else s.cell i j := by
  dsimp only
  rw [hat.row_eq, hat.col_eq]
  refine ⟨⟨hat.row_eq, hat.col_eq⟩, ?_⟩
  intro i j _ hj
  have hr : (UInt8.ofInt (row : Int)).toNat = row := toNat_ofInt (by omega)
  have hc : (UInt8.ofInt (col : Int)).toNat = col := toNat_ofInt (by omega)
  rw [write_cell (by omega) _ _ _ _ hj, hr, hc]

theorem at_set_cursor (r c : UInt8) (s : Console)
    : (framebuffer_set_cursor r c s).At r.toNat c.toNat ∧
      (framebuffer_set_cursor r c s).cursor = r.toNat * 80 + c.toNat := by
  refine ⟨⟨rfl, rfl⟩, ?_⟩
  have hr := r.toNat_lt
  have hc := c.toNat_lt
  have hmask : ∀ n : Nat, n &&& 255 = n % 256 := fun n => Nat.and_two_pow_sub_one_eq_mod n 8
  unfold cursor framebuffer_set_cursor
  dsimp only
  rw [UInt16.toNat_toUInt8, UInt16.toNat_toUInt8, UInt16.toNat_and, UInt16.toNat_and]
  rw [UInt16.toNat_shiftRight, position_eq]
  have hpos : r.toNat * 80 + c.toNat < 65536 := by omega
  generalize r.toNat * 80 + c.toNat = pos at hpos ⊢
  change (pos >>> 8 &&& 255) % 256 * 256 + (pos &&& 255) % 256 = _
  rw [hmask, hmask, Nat.shiftRight_eq_div_pow]
  omega

theorem At.set_cursor (hat : s.At row col) (hrow : row < 25) (hcol : col < 80)
    : let t := framebuffer_set_cursor (UInt8.ofInt s.row) (UInt8.ofInt s.col) s
      t.At row col ∧ t.cursor = row * 80 + col := by
  have h := at_set_cursor (UInt8.ofInt row) (UInt8.ofInt col) s
  rw [toNat_ofInt (by omega), toNat_ofInt (by omega)] at h
  dsimp only
  rw [hat.row_eq, hat.col_eq]
  exact h

theorem At.next_row {process_list : Fin 16 → ProcessControlBlock} {c : Nat} (hat : s.At row c)
    (hclock : NoClock process_list) (hpage : p.Shows 80 25 s.cell row col)
    (hblank : ∀ j, p.cell (p.row + 1) j = 0)
    : ∃ row', row' < 25 ∧ (puts_char.next_row process_list s).At row' c ∧
        p.new_row.Shows 80 25 (puts_char.next_row process_list s).cell row' 0 := by
  have hlt := hpage.row_lt (by omega)
  have hrow : s.row + 1 = (row + 1 : Nat) := by
    rw [hat.row_eq]
    rfl
  unfold puts_char.next_row
  dsimp only
  rw [hrow]
  split
  . next heq =>
    have hlast : row + 1 = 25 := by
      have : ((row + 1 : Nat) : Int) = 25 := heq
      omega
    rw [hlast]
    rcases (hat.set_row 25).go_scroll hclock with ⟨hat', hcell⟩
    refine ⟨24, by omega, hat', ?_⟩
    have hrow24 : row = 24 := by omega
    rw [hrow24] at hpage
    apply hpage.new_row_of_eq rfl _ _ hblank
    . intro i j hi hj
      rw [hcell i j (by omega) hj, if_neg (by omega), set_row_cell]
    . intro j hj
      rw [hcell 24 j (by omega) hj, if_pos rfl]
  . next hne =>
    have hnot : row + 1 ≠ 25 := by
      intro heq
      apply hne
      rw [set_row_row, heq]
      rfl
    refine ⟨row + 1, by omega, hat.set_row (row + 1), ?_⟩
    rw [set_row_cell]
    apply hpage.new_row_of_lt
    omega

theorem At.blank (hat : s.At row col) (hpage : p.Shows 80 25 s.cell row col) (hp : p.Ready 80 0)
    (color : UInt32)
    : (puts_char.blank color s).Shows p ∧
      (puts_char.blank color s).cursor = (p.row - p.top 25) * 80 + p.col := by
  have hrow := hpage.row_lt (by omega)
  have hcol : col < 80 := by
    rw [hpage.col_eq]
    exact hp.col_lt
  rcases hat.write hrow hcol 0 color with ⟨hwritten, hcell⟩
  rcases hwritten.set_cursor hrow hcol with ⟨hat', hcursor⟩
  constructor
  . apply Shows.of_page hat'
    exact hpage.clear (by omega) hp hcell
  . rw [← hpage.row_eq, ← hpage.col_eq]
    exact hcursor

theorem Shows.puts_char {process_list : Fin 16 → ProcessControlBlock} (h : s.Shows p)
    (hp : p.Ready 80 0) (hclock : NoClock process_list) {c : UInt8} (hnull : c ≠ 0)
    (htab : c ≠ 0x09) (hback : c ≠ 0x08) (color : UInt32)
    : let t := puts_char process_list c color s
      t.Shows (p.type 80 (stroke c)) ∧
        t.cursor =
          ((p.type 80 (stroke c)).row - (p.type 80 (stroke c)).top 25) * 80 +
            (p.type 80 (stroke c)).col := by
  have hnext := hp.type (stroke c)
  have hrow := h.page.row_lt (by omega)
  unfold AiOS.puts_char stroke at *
  dsimp only
  rw [if_neg hnull, if_neg htab, if_neg hback]
  split
  . next hnewline =>
    rw [if_pos hnewline] at hnext
    rcases (h.at_next.set_col 0).next_row hclock h.page
        (fun j => hp.blank_below _ _ (Nat.lt_succ_self _)) with ⟨row', _, hat, hpage⟩
    exact hat.blank hpage hnext color
  . next hglyph =>
    rw [if_neg hglyph] at hnext
    rcases h.at_next.write hrow hp.col_lt c color with ⟨hwritten, hcell⟩
    have hput := h.page.put (by omega) hcell
    generalize framebuffer_write _ _ c _ _ s = t at hwritten hput
    have hcol : t.col + 1 = (p.col + 1 : Nat) := by
      rw [hwritten.col_eq]
      rfl
    have hat := hwritten.set_col (p.col + 1)
    rw [hcol]
    unfold Page.type at *
    dsimp only at *
    split
    . next heq =>
      have hwrap : p.col + 1 = 80 := by
        have : ((p.col + 1 : Nat) : Int) = 80 := heq
        omega
      rw [if_pos hwrap] at hnext ⊢
      have hbelow : ∀ j, (p.put c).cell ((p.put c).row + 1) j = 0 := by
        intro j
        change (p.put c).cell (p.row + 1) j = 0
        rw [Page.put_cell_of_ne (by omega)]
        apply hp.blank_below
        omega
      rcases hat.next_row hclock hput hbelow with ⟨row', _, hat', hpage⟩
      exact (hat'.set_col 0).blank hpage hnext color
    . next hne =>
      have hstay : p.col + 1 ≠ 80 := by
        intro heq
        apply hne
        rw [set_col_col, heq]
        rfl
      rw [if_neg hstay] at hnext ⊢
      exact hat.blank hput hnext color

inductive Call where
  | puts_char (c : UInt8) (color : UInt32)
  | puts (str : Nat → UInt8) (count color : UInt32)

namespace Call

def exec (process_list : Fin 16 → ProcessControlBlock) (s : Console) : Call → Console
  | .puts_char c color => AiOS.puts_char process_list c color s
  | .puts str count color => AiOS.puts process_list str count color s

def characters : Call → List UInt8
  | .puts_char c _ => [c]
  | .puts str count _ => ((List.range count.toNat).map str).takeWhile (· ≠ 0)

def Plain (call : Call) : Prop :=
  ∀ c ∈ call.characters, c ≠ 0 ∧ c ≠ 0x09 ∧ c ≠ 0x08

end Call

-- the process table may be another one at each call
def run (s : Console) (calls : List ((Fin 16 → ProcessControlBlock) × Call)) : Console :=
  calls.foldl (fun s call => call.2.exec call.1 s) s

def cleared (s : Console) : Console :=
  framebuffer_set_cursor 0 0 (framebuffer_clear s)

/--
The unbounded layout of everything that was printed.
-/
def printed (calls : List ((Fin 16 → ProcessControlBlock) × Call)) : Page UInt8 :=
  Page.layout 80 0 ((calls.flatMap fun call => call.2.characters).map stroke)

def position (p : Page UInt8) : Nat :=
  (p.row - p.top 25) * 80 + p.col

def typed (p : Page UInt8) (cs : List UInt8) : Page UInt8 :=
  (cs.map stroke).foldl (Page.type 80) p

theorem ready_typed (hp : p.Ready 80 0) (cs : List UInt8) : (typed p cs).Ready 80 0 := by
  unfold typed
  induction cs generalizing p with
  | nil => exact hp
  | cons c cs ih => apply ih (hp.type _)

theorem Shows.go {process_list : Fin 16 → ProcessControlBlock} (h : s.Shows p)
    (hp : p.Ready 80 0) (hclock : NoClock process_list) (color : UInt32) (cs : List UInt8)
    (hplain : ∀ c ∈ cs.takeWhile (· ≠ 0), c ≠ 0 ∧ c ≠ 0x09 ∧ c ≠ 0x08)
    : (puts.go process_list color s cs).Shows (typed p (cs.takeWhile (· ≠ 0))) := by
  induction cs generalizing s p with
  | nil => exact h
  | cons c cs ih =>
    unfold puts.go
    cases decEq c 0 with
    | isTrue heq =>
      rw [if_pos heq, List.takeWhile_cons_of_neg (by simpa using heq)]
      exact h
    | isFalse hne =>
      rw [List.takeWhile_cons_of_pos (by simpa using hne)] at hplain ⊢
      rw [if_neg hne]
      rcases hplain c List.mem_cons_self with ⟨hnull, htab, hback⟩
      have hnext := (h.puts_char hp hclock hnull htab hback color).1
      apply ih hnext (hp.type _)
      intro b hb
      exact hplain b (List.mem_cons_of_mem c hb)

theorem Shows.set_cursor (h : s.Shows p) (hp : p.Ready 80 0)
    : let t := framebuffer_set_cursor (UInt8.ofInt s.row) (UInt8.ofInt s.col) s
      t.Shows p ∧ t.cursor = position p := by
  rcases h.at_next.set_cursor (h.page.row_lt (by omega)) hp.col_lt with ⟨hat, hcursor⟩
  exact ⟨⟨hat, h.cell_eq⟩, hcursor⟩

theorem Shows.exec {process_list : Fin 16 → ProcessControlBlock} (h : s.Shows p)
    (hp : p.Ready 80 0) (hclock : NoClock process_list) {call : Call} (hplain : call.Plain)
    : (call.exec process_list s).Shows (typed p call.characters) ∧
      (call.exec process_list s).cursor = position (typed p call.characters) := by
  cases call with
  | puts_char c color =>
    rcases hplain c List.mem_cons_self with ⟨hnull, htab, hback⟩
    exact h.puts_char hp hclock hnull htab hback color
  | puts str count color =>
    apply (h.go hp hclock color _ hplain).set_cursor
    apply ready_typed hp

theorem shows_cleared (s : Console)
    : (cleared s).Shows (Page.empty 0) ∧ (cleared s).cursor = position (Page.empty 0) := by
  rcases at_set_cursor 0 0 (framebuffer_clear s) with ⟨hat, hcursor⟩
  refine ⟨Shows.of_page hat ?_, hcursor⟩
  apply Page.Shows.of_empty
  intro i j hi hj
  unfold cell cleared framebuffer_set_cursor framebuffer_clear
  dsimp only
  rw [memset_apply, if_pos (by omega)]

theorem Shows.run {calls : List ((Fin 16 → ProcessControlBlock) × Call)} (h : s.Shows p)
    (hcursor : s.cursor = position p) (hp : p.Ready 80 0)
    (hclock : ∀ call ∈ calls, NoClock call.1) (hplain : ∀ call ∈ calls, call.2.Plain)
    : let q := typed p (calls.flatMap fun call => call.2.characters)
      (s.run calls).Shows q ∧ (s.run calls).cursor = position q := by
  induction calls generalizing s p with
  | nil => exact ⟨h, hcursor⟩
  | cons call calls ih =>
    rcases h.exec hp (hclock call List.mem_cons_self) (hplain call List.mem_cons_self)
      with ⟨hnext, hcursor'⟩
    have hrest := ih hnext hcursor' (ready_typed hp _)
      (fun c hc => hclock c (List.mem_cons_of_mem call hc))
      (fun c hc => hplain c (List.mem_cons_of_mem call hc))
    unfold typed at hrest ⊢
    rw [← List.foldl_append, ← List.map_append] at hrest
    rw [List.flatMap_cons]
    exact hrest

/--
After any calls on a cleared screen the cells are the last 25 rows of the layout, and the cursor is
at its next position.
-/
theorem shows_printed (s : Console) (calls : List ((Fin 16 → ProcessControlBlock) × Call))
    (hclock : ∀ call ∈ calls, NoClock call.1) (hplain : ∀ call ∈ calls, call.2.Plain)
    : ((cleared s).run calls).Shows (printed calls) ∧
      ((cleared s).run calls).cursor = position (printed calls) := by
  rcases shows_cleared s with ⟨h, hcursor⟩
  apply h.run hcursor _ hclock hplain
  apply Page.ready_empty
  omega

theorem not_clock_zero : go_scroll.is_clock .zero = false := by
  decide

/--
Newlines down to the last row and beyond, then characters beyond the end of a row.
-/
def overfull : List ((Fin 16 → ProcessControlBlock) × Call) :=
  List.replicate 25 (fun _ => .zero, .puts_char 0x0A 0xF) ++
    [(fun _ => .zero, .puts (fun _ => 0x69) 81 0xF)]

-- the screen has scrolled twice
theorem shows_printed_overfull
    : let s : Console := ⟨fun _ => 0xFF, 0, 0, ⟨3, 4⟩⟩
      ((cleared s).run overfull).Shows (printed overfull) ∧
        ((cleared s).run overfull).cursor = position (printed overfull) ∧
        (printed overfull).top 25 = 2 ∧ position (printed overfull) = 24 * 80 + 1 := by
  have hclock : ∀ call ∈ overfull, NoClock call.1 := by
    intro call hcall i
    rw [overfull, List.mem_append, List.mem_replicate, List.mem_singleton] at hcall
    rcases hcall with ⟨_, heq⟩ | heq
    . rw [heq]
      apply not_clock_zero
    . rw [heq]
      apply not_clock_zero
  have hplain : ∀ call ∈ overfull, call.2.Plain := by
    intro call hcall c hc
    rw [overfull, List.mem_append, List.mem_replicate, List.mem_singleton] at hcall
    rcases hcall with ⟨_, heq⟩ | heq
    . rw [heq] at hc
      rw [List.mem_singleton.mp hc]
      decide
    . rw [heq] at hc
      have hchars : ∀ c ∈ (Call.puts (fun _ => 0x69) 81 0xF).characters,
          c ≠ 0 ∧ c ≠ 0x09 ∧ c ≠ 0x08 := by
        decide +kernel
      exact hchars c hc
  rcases shows_printed ⟨fun _ => 0xFF, 0, 0, ⟨3, 4⟩⟩ overfull hclock hplain with
    ⟨hshows, hcursor⟩
  refine ⟨hshows, hcursor, ?_, ?_⟩
  . decide +kernel
  . decide +kernel

end Console

end AiOS
