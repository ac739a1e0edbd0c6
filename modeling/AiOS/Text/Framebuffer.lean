import AiOS.Process.Basic
import AiOS.Stdlib.String

/-!
This module contains `framebuffer.c`: the memory of the console, its cursor, and the characters that
`puts_char` and `puts` place on it.
-/

namespace AiOS

structure FramebufferState where
  row : Int
  col : Int

/--
The bytes from `FRAMEBUFFER_MEMORY` on, the registers `0x0F` and `0x0E` of the cursor, and
`framebuffer_current_state`.
-/
structure Console where
  memory : Nat → UInt8
  cursor_low : UInt8
  cursor_high : UInt8
  framebuffer_current_state : FramebufferState

namespace Console

abbrev row (s : Console) : Int :=
  s.framebuffer_current_state.row

abbrev col (s : Console) : Int :=
  s.framebuffer_current_state.col

def set_row (s : Console) (row : Int) : Console :=
  { s with framebuffer_current_state := { s.framebuffer_current_state with row := row } }

def set_col (s : Console) (col : Int) : Console :=
  { s with framebuffer_current_state := { s.framebuffer_current_state with col := col } }

end Console

def framebuffer_position (row col : UInt8) : UInt16 :=
  UInt16.ofNat (row.toNat * 80 + col.toNat)

def framebuffer_set_cursor (r c : UInt8) (s : Console) : Console :=
  let pos := framebuffer_position r c
  { s with
    cursor_low := (pos &&& 0xFF).toUInt8
    cursor_high := ((pos >>> 8) &&& 0xFF).toUInt8
    framebuffer_current_state := ⟨r.toNat, c.toNat⟩ }

def framebuffer_write (row col c fg bg : UInt8) (s : Console) : Console :=
  let pos := framebuffer_position row col
  { s with
    memory :=
      Function.update (Function.update s.memory (pos.toNat * 2) c)
        (pos.toNat * 2 + 1) ((bg <<< 4) ||| (fg &&& 0x0F)) }

def framebuffer_clear (s : Console) : Console :=
  { s with memory := memset s.memory 0 0 (120 * 80) }

def framebuffer_read (row col : UInt8) (s : Console) : UInt8 :=
  s.memory ((framebuffer_position row col).toNat * 2)

namespace go_scroll

def clock : Fin 6 → UInt8 :=
  ![0x63, 0x6C, 0x6F, 0x63, 0x6B, 0]

def is_clock (process : ProcessControlBlock) : Bool :=
  memcmp (fun i : Fin 6 => process.name (i.castLE (by decide))) clock = 0

def shift (s : Console) : Console :=
  { s with memory := memcpy.within s.memory 0 (80 * 2) (80 * 2 * 25 - 80 * 2) }

def hide_clock (s : Console) : Console :=
  [72, 73, 74, 75, 76, 77, 78, 79].foldl (fun s col => framebuffer_write 23 col 0 0xF 0 s) s

def clear_row (s : Console) : Console :=
  (List.range 80).foldl
    (fun s i => framebuffer_write (UInt8.ofInt s.row) (UInt8.ofNat i) 0 0xF 0 s) s

end go_scroll

def go_scroll (process_list : Fin 16 → ProcessControlBlock) (s : Console) : Console :=
  let s := go_scroll.shift s
  let s := s.set_row (s.row - 1)
  let s :=
    if (List.finRange 16).any fun i => go_scroll.is_clock (process_list i) then
      go_scroll.hide_clock s
    else
      s
  go_scroll.clear_row s

namespace puts_char

-- the last two calls of each branch
def blank (color : UInt32) (s : Console) : Console :=
  let s := framebuffer_write (UInt8.ofInt s.row) (UInt8.ofInt s.col) 0 color.toUInt8 0 s
  framebuffer_set_cursor (UInt8.ofInt s.row) (UInt8.ofInt s.col) s

def next_row (process_list : Fin 16 → ProcessControlBlock) (s : Console) : Console :=
  let s := s.set_row (s.row + 1)
  if s.row = 25 then go_scroll process_list s else s

-- the loop of the backspace over a row, from `col` to the left
def back (s : Console) : Nat → Nat
  | 0 => 0
  | col + 1 =>
    if framebuffer_read (UInt8.ofInt s.row) (UInt8.ofNat (col + 1)) s = 0 then
      back s col
    else
      col + 1

end puts_char

open puts_char in
def puts_char (process_list : Fin 16 → ProcessControlBlock) (c : UInt8) (color : UInt32)
    (s : Console) : Console :=
  if c = 0 then
    s
  else if c = 0x0A then
    -- the source sets the column before it scrolls, which reads no column
    blank color (next_row process_list (s.set_col 0))
  else if c = 0x09 then
    let s := s.set_col (s.col + 4)
    let s := if s.col ≥ 80 then (next_row process_list s).set_col 0 else s
    blank color s
  else if c = 0x08 then
    if s.col = 0 ∧ s.row = 0 then
      s
    else
      let s := s.set_col (s.col - 1)
      let s :=
        if s.col < 0 then
          let s := s.set_row (s.row - 1)
          let s := s.set_col (back s 79)
          if s.row ≤ 0 then s.set_row 0 else s
        else
          s
      blank color s
  else
    let s := framebuffer_write (UInt8.ofInt s.row) (UInt8.ofInt s.col) c color.toUInt8 0 s
    let s := s.set_col (s.col + 1)
    let s := if s.col = 80 then (next_row process_list s).set_col 0 else s
    blank color s

namespace puts

def go (process_list : Fin 16 → ProcessControlBlock) (color : UInt32) (s : Console)
    : List UInt8 → Console
  | [] => s
  | c :: cs => if c = 0 then s else go process_list color (puts_char process_list c color s) cs

end puts

def puts (process_list : Fin 16 → ProcessControlBlock) (str : Nat → UInt8) (count color : UInt32)
    (s : Console) : Console :=
  let s := puts.go process_list color s ((List.range count.toNat).map str)
  framebuffer_set_cursor (UInt8.ofInt s.row) (UInt8.ofInt s.col) s

end AiOS
