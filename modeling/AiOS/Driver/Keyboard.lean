import AiOS.Lib.Mailbox

/-!
This module contains `keyboard.c`: the interrupt of the keyboard and the poll that reads what it
stored, in any order.
-/

namespace AiOS

structure KeyboardDriverState where
  read_extended_mode : Bool
  keyboard_input_on : Bool
  isBufferEmpty : Bool
  isCaps : Bool
  isShift : Bool
  keyboard_buffer : UInt8
  deriving DecidableEq

def KeyboardDriverState.initial : KeyboardDriverState :=
  ⟨false, false, true, false, false, 0⟩

def keyboard_scancode_1_to_ascii_map : List UInt8 :=
  [0, 0x1B, 0x31, 0x32, 0x33, 0x34, 0x35, 0x36, 0x37, 0x38, 0x39, 0x30, 0x2D, 0x3D, 0x08, 0x09,
   0x71, 0x77, 0x65, 0x72, 0x74, 0x79, 0x75, 0x69, 0x6F, 0x70, 0x5B, 0x5D, 0x0A, 0, 0x61, 0x73,
   0x64, 0x66, 0x67, 0x68, 0x6A, 0x6B, 0x6C, 0x3B, 0x27, 0x60, 0, 0x5C, 0x7A, 0x78, 0x63, 0x76,
   0x62, 0x6E, 0x6D, 0x2C, 0x2E, 0x2F, 0, 0x2A, 0, 0x20, 0, 0, 0, 0, 0, 0,
   0, 0, 0, 0, 0, 0, 0, 0, 0, 0, 0x2D, 0, 0, 0, 0x2B, 0,
   0, 0, 0, 0, 0, 0, 0, 0, 0, 0, 0, 0, 0, 0, 0, 0,
   0, 0, 0, 0, 0, 0, 0, 0, 0, 0, 0, 0, 0, 0, 0, 0,
   0, 0, 0, 0, 0, 0, 0, 0, 0, 0, 0, 0, 0, 0, 0, 0] ++ List.replicate 128 0

def keyboard_state_activate (s : KeyboardDriverState) : KeyboardDriverState :=
  { s with keyboard_input_on := true }

def get_keyboard_buffer (s : KeyboardDriverState) (buf : UInt8) : UInt8 × KeyboardDriverState :=
  if s.keyboard_input_on && !s.isBufferEmpty then
    (s.keyboard_buffer, { s with isBufferEmpty := true, keyboard_buffer := 0 })
  else
    (buf, s)

-- `scancode` is what the data port of the keyboard holds
def keyboard_isr (s : KeyboardDriverState) (scancode : UInt8) : KeyboardDriverState :=
  if s.keyboard_input_on && s.isBufferEmpty then
    { s with
      keyboard_buffer := keyboard_scancode_1_to_ascii_map.getD scancode.toNat 0
      isBufferEmpty := false }
  else
    s

namespace Keyboard

-- system calls run with interrupts off, so that a poll and an interrupt do not overlap
inductive Event where
  | interrupt (scancode : UInt8)
  | poll (buf : UInt8)

def character (scancode : UInt8) : UInt8 :=
  keyboard_scancode_1_to_ascii_map.getD scancode.toNat 0

def pressed_key (scancode : UInt8) : Bool :=
  scancode < 0x80

def step (s : KeyboardDriverState) (e : Event) : KeyboardDriverState :=
  match e with
  | .interrupt scancode => keyboard_isr s scancode
  | .poll buf => (get_keyboard_buffer s buf).2

def after (es : List Event) : KeyboardDriverState :=
  es.foldl step (keyboard_state_activate .initial)

/--
What the polls of `es` put into their buffers when they start in `s`. A poll that finds nothing
leaves its buffer as it was.
-/
def polled (s : KeyboardDriverState) : List Event → List UInt8
  | [] => []
  | .interrupt scancode :: es => polled (keyboard_isr s scancode) es
  | .poll buf :: es =>
    let found := if s.isBufferEmpty then [] else [(get_keyboard_buffer s buf).1]
    found ++ polled (get_keyboard_buffer s buf).2 es

def delivered (es : List Event) : List UInt8 :=
  (polled (keyboard_state_activate .initial) es).filter (· ≠ 0)

def Event.pressed (e : Event) : Option UInt8 :=
  match e with
  | .interrupt scancode => if pressed_key scancode then some (character scancode) else none
  | .poll _ => none

def pressed (es : List Event) : List UInt8 :=
  es.filterMap Event.pressed

def Event.use (e : Event) : Mailbox.Use UInt8 :=
  match e with
  | .interrupt scancode => .put scancode
  | .poll _ => .take

def since_poll (es : List Event) : List UInt8 :=
  Mailbox.since (es.map Event.use)

def Waiting (es : List Event) : Prop :=
  (after es).isBufferEmpty = false ∧
    ∃ scancode ∈ since_poll es, pressed_key scancode = true ∧ character scancode ≠ 0 ∧
      (after es).keyboard_buffer = character scancode

/--
The polls deliver characters of pressed keys in order, each once, and an interrupt for a key with a
character leaves the driver as it is only while a character of an earlier press waits.
-/
def NoPressLost (es : List Event) : Prop :=
  (delivered es).Sublist (pressed es) ∧
    ∀ before scancode rest, es = before ++ .interrupt scancode :: rest →
      pressed_key scancode = true → character scancode ≠ 0 →
        keyboard_isr (after before) scancode = after before → Waiting before

/--
When a key with a character is pressed, the first scancode since the last poll is not one without a
character, such as the release of a key.
-/
def Undisturbed (es : List Event) : Prop :=
  ∀ before scancode rest, es = before ++ .interrupt scancode :: rest →
    pressed_key scancode = true → character scancode ≠ 0 →
      ∀ first ∈ (since_poll before).head?, character first ≠ 0

theorem after_concat (es : List Event) (e : Event) : after (es ++ [e]) = step (after es) e := by
  unfold after
  rw [List.foldl_concat]

theorem character_eq_zero_of_not_pressed {scancode : UInt8} (h : pressed_key scancode = false)
    : character scancode = 0 := by
  have hle : 128 ≤ scancode.toNat := by
    unfold pressed_key at h
    simpa [UInt8.le_iff_toNat_le] using h
  unfold character keyboard_scancode_1_to_ascii_map
  rw [List.getD_append_right]
  . rw [List.getD_eq_getElem?_getD, List.getElem?_replicate]
    split
    . rfl
    . rfl
  . exact hle

theorem pressed_of_character {scancode : UInt8} (h : character scancode ≠ 0)
    : pressed_key scancode = true := by
  cases hkey : pressed_key scancode with
  | true => rfl
  | false => exact absurd (character_eq_zero_of_not_pressed hkey) h

structure Holds (box : Option UInt8) (s : KeyboardDriverState) : Prop where
  on : s.keyboard_input_on = true
  empty : s.isBufferEmpty = box.isNone
  buffer : s.keyboard_buffer = box.elim 0 character

theorem Holds.init : Holds none (keyboard_state_activate .initial) :=
  ⟨rfl, rfl, rfl⟩

theorem Holds.isr {box : Option UInt8} {s : KeyboardDriverState} (h : Holds box s)
    (scancode : UInt8)
    : Holds (Mailbox.next box (.put scancode)) (keyboard_isr s scancode) := by
  unfold keyboard_isr
  cases box with
  | none =>
    rw [if_pos (by rw [h.on, h.empty]; rfl)]
    exact ⟨h.on, rfl, rfl⟩
  | some first =>
    rw [if_neg (by rw [h.on, h.empty]; simp)]
    exact h

theorem Holds.poll {box : Option UInt8} {s : KeyboardDriverState} (h : Holds box s) (buf : UInt8)
    : Holds none (get_keyboard_buffer s buf).2 := by
  unfold get_keyboard_buffer
  cases box with
  | none =>
    rw [if_neg (by rw [h.on, h.empty]; simp)]
    exact h
  | some first =>
    rw [if_pos (by rw [h.on, h.empty]; rfl)]
    exact ⟨h.on, rfl, rfl⟩

theorem Holds.step {box : Option UInt8} {s : KeyboardDriverState} (h : Holds box s) (e : Event)
    : Holds (Mailbox.next box e.use) (step s e) := by
  cases e with
  | interrupt scancode => apply h.isr
  | poll buf => apply h.poll

theorem holds_after (es : List Event) : Holds (since_poll es).head? (after es) := by
  unfold since_poll
  rw [← Mailbox.contents_eq_head?_since]
  induction es using List.reverseRecOn with
  | nil => exact Holds.init
  | append_singleton es e ih =>
    rw [after_concat, List.map_append]
    rw [List.map_singleton, Mailbox.contents_concat]
    apply ih.step

theorem Holds.polled {box : Option UInt8} {s : KeyboardDriverState} (h : Holds box s)
    (es : List Event)
    : polled s es = (Mailbox.taken.go box (es.map Event.use)).map character := by
  induction es generalizing box s with
  | nil => rfl
  | cons e es ih =>
    have hnext := ih (h.step e)
    cases e with
    | interrupt scancode => exact hnext
    | poll buf =>
      unfold Keyboard.polled
      rw [List.map_cons]
      unfold Mailbox.taken.go Event.use
      dsimp only
      rw [List.map_append]
      congr 1
      unfold get_keyboard_buffer
      rw [h.on, h.empty]
      cases box with
      | none => rfl
      | some first =>
        dsimp
        rw [h.buffer]
        rfl

theorem filter_offered (es : List Event)
    : ((Mailbox.offered (es.map Event.use)).map character).filter (· ≠ 0)
        =
      (pressed es).filter (· ≠ 0) := by
  unfold Mailbox.offered pressed
  induction es with
  | nil => rfl
  | cons e es ih =>
    cases e with
    | poll buf => exact ih
    | interrupt scancode =>
      cases hkey : pressed_key scancode with
      | true =>
        simp only [List.map_cons, List.filterMap_cons, Event.use, Mailbox.Use.offer, Event.pressed,
          hkey, if_true, List.filter_cons, ih]
      | false =>
        have hzero := character_eq_zero_of_not_pressed hkey
        simp only [List.map_cons, List.filterMap_cons, Event.use, Mailbox.Use.offer, Event.pressed,
          hkey, hzero, List.filter_cons]
        exact ih

theorem delivered_sublist_pressed (es : List Event) : (delivered es).Sublist (pressed es) := by
  have htaken := (Mailbox.taken_sublist_offered (es.map Event.use)).map character
  have hfilter := htaken.filter (· ≠ 0)
  rw [filter_offered] at hfilter
  unfold delivered
  rw [Holds.init.polled]
  apply hfilter.trans
  apply List.filter_sublist

theorem dropped_iff (es : List Event) (scancode : UInt8)
    : keyboard_isr (after es) scancode = after es ↔ (since_poll es).head?.isSome = true := by
  have h := holds_after es
  unfold keyboard_isr
  rw [h.on, h.empty]
  cases hhead : (since_poll es).head? with
  | some first => simp
  | none =>
    rw [hhead] at h
    simp only [Option.isNone_none, Bool.and_self, if_true, Option.isSome_none, Bool.false_eq_true,
      iff_false]
    intro heq
    have hempty := congrArg KeyboardDriverState.isBufferEmpty heq
    rw [h.empty] at hempty
    apply absurd hempty Bool.false_ne_true

theorem waiting_iff {es : List Event} {first : UInt8} (hfirst : (since_poll es).head? = some first)
    : Waiting es ↔ character first ≠ 0 := by
  have h := holds_after es
  rw [hfirst] at h
  have hbuffer : (after es).keyboard_buffer = character first := h.buffer
  constructor
  . intro hwaiting
    rcases hwaiting with ⟨_, scancode, _, _, hcharacter, heq⟩
    rw [← hbuffer, heq]
    exact hcharacter
  . intro hcharacter
    refine ⟨h.empty, first, ?_, pressed_of_character hcharacter, hcharacter, hbuffer⟩
    apply List.mem_of_mem_head? hfirst

theorem noPressLost_iff (es : List Event) : NoPressLost es ↔ Undisturbed es := by
  constructor
  . intro h before scancode rest heq hkey hcharacter first hfirst
    have hdropped : keyboard_isr (after before) scancode = after before := by
      rw [dropped_iff, Option.mem_def.mp hfirst]
      rfl
    have hwaiting := h.2 before scancode rest heq hkey hcharacter hdropped
    rwa [waiting_iff hfirst] at hwaiting
  . intro h
    refine ⟨delivered_sublist_pressed es, ?_⟩
    intro before scancode rest heq hkey hcharacter hdropped
    rw [dropped_iff, Option.isSome_iff_exists] at hdropped
    rcases hdropped with ⟨first, hfirst⟩
    rw [waiting_iff hfirst]
    exact h before scancode rest heq hkey hcharacter first hfirst

-- `a` is pressed and polled; its release then takes the place of the `s` pressed after it
theorem not_noPressLost
    : ¬ NoPressLost [.interrupt 0x1E, .poll 0, .interrupt 0x9E, .interrupt 0x1F] := by
  intro h
  rcases h.2 [.interrupt 0x1E, .poll 0, .interrupt 0x9E] 0x1F [] rfl rfl (by decide) (by decide)
    with ⟨_, scancode, hmem, hkey, _⟩
  have hsince : since_poll [.interrupt 0x1E, .poll 0, .interrupt 0x9E] = [0x9E] := by rfl
  rw [hsince, List.mem_singleton] at hmem
  rw [hmem] at hkey
  apply absurd hkey (by decide)

end Keyboard

end AiOS
