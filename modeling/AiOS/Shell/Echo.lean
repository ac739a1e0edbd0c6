import AiOS.Shell.Line
import AiOS.Text.Strip

/-!
This module proves when the line that is edited at the prompt and its echo on the screen are in step.
-/

namespace AiOS

/--
The local variables of `main` around its input loop, and the screen.
-/
structure main.Session where
  input : main.Input
  console : Console

/--
A call of `syscall(4)` that finds `key`, with the table of the processes at that time.
-/
abbrev main.Keystroke : Type :=
  (Fin 16 → ProcessControlBlock) × Option UInt8

namespace main.Session

def start (console : Console) : main.Session :=
  ⟨.reset, console⟩

def echo (process_list : Fin 16 → ProcessControlBlock) (console : Console) (text : List UInt8)
    : Console :=
  text.foldl (fun console c => puts_char process_list c 0xF console) console

def step (x : main.Session) (k : main.Keystroke) : Option main.Session := do
  let input ← main.poll x.input k.2
  return ⟨input, echo k.1 x.console (input.echoed.drop x.input.echoed.length)⟩

def text (x : main.Session) : List UInt8 :=
  (List.ofFn x.input.line).take x.input.linelen

/--
The cursor and the cells are those of the text, echoed from scratch where the line began.
-/
structure InStep (prompt : Console) (x : main.Session) : Prop where
  state_eq : ∀ process_list, x.console.framebuffer_current_state
    = (echo process_list prompt x.text).framebuffer_current_state
  cursor_eq : ∀ process_list, x.console.cursor = (echo process_list prompt x.text).cursor
  cell_eq : ∀ process_list i j, i < 25 → j < 80 →
    x.console.cell i j = (echo process_list prompt x.text).cell i j

def Always (P : main.Session → Prop) (x : main.Session) : List main.Keystroke → Prop
  | [] => P x
  | k :: keys => P x ∧ ∀ y, x.step k = some y → Always P y keys

def Each (P : main.Session → main.Keystroke → Prop) (x : main.Session)
    : List main.Keystroke → Prop
  | [] => True
  | k :: keys => P x k ∧ ∀ y, x.step k = some y → Each P y keys

def Calm (x : main.Session) (k : main.Keystroke) : Prop :=
  ¬ x.console.Scrolls (main.syscall_get x.input k.2).buf

def ErasesTab (x : main.Session) (k : main.Keystroke) : Prop :=
  (main.syscall_get x.input k.2).buf = 0x08 ∧ x.text.getLast? = some 0x09

end main.Session

structure Console.Prompt (s : Console) : Prop where
  at_cursor : s.At (s.cursor / 80) (s.cursor % 80)
  cursor_lt : s.cursor < 25 * 80
  blank : ∀ i j, i < 25 → j < 80 → s.cursor ≤ i * 80 + j → s.cell i j = 0

namespace Console

def strip (s : Console) : Strip UInt8 :=
  ⟨fun k => if k < 25 * 80 then s.cell (k / 80) (k % 80) else 0, s.cursor⟩

theorem Prompt.has {s : Console} (h : s.Prompt) : s.Has s.strip := by
  refine ⟨h.at_cursor, h.cursor_lt, ?_, rfl⟩
  intro i j hi hj
  have hdiv : (i * 80 + j) / 80 = i := by omega
  have hmod : (i * 80 + j) % 80 = j := by omega
  unfold strip
  dsimp only
  rw [if_pos (by omega), hdiv, hmod]

theorem Prompt.clear {s : Console} (h : s.Prompt) : s.strip.Clear 0 := by
  intro k hk
  change s.cursor ≤ k at hk
  unfold strip
  dsimp only
  split
  . apply h.blank _ _ (by omega) (by omega)
    omega
  . rfl

theorem Shows.prompt {s : Console} {p : Page UInt8} (h : s.Shows p) (hp : p.Ready 80 0)
    (hcursor : s.cursor = position p)
    : s.Prompt := by
  have hrow := h.page.row_lt (by omega)
  have hcol := hp.col_lt
  unfold position at hcursor
  have hdiv : s.cursor / 80 = p.row - p.top 25 := by omega
  have hmod : s.cursor % 80 = p.col := by omega
  refine ⟨?_, by omega, ?_⟩
  . rw [hdiv, hmod]
    exact h.at_next
  . intro i j hi hj hle
    rw [h.cell_eq i j hi hj]
    have htop : p.top 25 ≤ p.row := by
      unfold Page.top
      omega
    by_cases hsame : i = p.row - p.top 25
    . have hi' : p.top 25 + i = p.row := by omega
      rw [hi']
      apply hp.blank_row
      omega
    . apply hp.blank_below
      omega

theorem printed_prompt (s : Console) {calls : List ((Fin 16 → ProcessControlBlock) × Call)}
    (hclock : ∀ call ∈ calls, NoClock call.1) (hplain : ∀ call ∈ calls, call.2.Plain)
    : ((cleared s).run calls).Prompt := by
  rcases shows_cleared s with ⟨hshows, hcursor⟩
  have hready : (Page.empty (0 : UInt8)).Ready 80 0 := Page.ready_empty (by omega)
  have hrun := hshows.run hcursor hready hclock hplain
  exact hrun.1.prompt (ready_typed hready _) hrun.2

theorem Has.state_eq {s t : Console} {p : Strip UInt8} (hs : s.Has p) (ht : t.Has p)
    : s.framebuffer_current_state = t.framebuffer_current_state := by
  have hrow : s.row = t.row := by rw [hs.at_next.row_eq, ht.at_next.row_eq]
  have hcol : s.col = t.col := by rw [hs.at_next.col_eq, ht.at_next.col_eq]
  unfold Console.row at hrow
  unfold Console.col at hcol
  cases hstate : s.framebuffer_current_state with
  | mk row col =>
    rw [hstate] at hrow hcol
    dsimp only at hrow hcol
    rw [hrow, hcol]

end Console

namespace main.Session

open Console

variable {prompt : Console} {x y : main.Session} {k : main.Keystroke}
  {process_list : Fin 16 → ProcessControlBlock}

def typed_strip (p : Strip UInt8) (text : List UInt8) : Strip UInt8 :=
  text.foldl strike p

theorem typed_strip_concat (p : Strip UInt8) (text : List UInt8) (c : UInt8)
    : typed_strip p (text ++ [c]) = strike (typed_strip p text) c := by
  unfold typed_strip
  rw [List.foldl_concat]

theorem clear_typed_strip {p : Strip UInt8} (h : p.Clear 0) (text : List UInt8)
    : (typed_strip p text).Clear 0 := by
  unfold typed_strip
  induction text generalizing p with
  | nil => exact h
  | cons c text ih => apply ih (clear_strike h c)

def Plain (text : List UInt8) : Prop :=
  ∀ c ∈ text, c ≠ 0 ∧ c ≠ 0x0A ∧ c ≠ 0x08

theorem echo_has {s : Console} {p : Strip UInt8} (h : s.Has p) {text : List UInt8} (htext : Plain text)
    (hlt : (typed_strip p text).next < 25 * 80)
    : (echo process_list s text).Has (typed_strip p text) := by
  induction text using List.reverseRecOn with
  | nil => exact h
  | append_singleton text c ih =>
    unfold Plain at htext
    rw [List.forall_mem_append, List.forall_mem_singleton] at htext
    rw [typed_strip_concat] at hlt ⊢
    unfold echo at ih ⊢
    rw [List.foldl_concat]
    have hnext := next_lt_strike (typed_strip p text) c
    apply Has.type (ih htext.1 (by omega)) htext.2.1 htext.2.2.1 htext.2.2.2 hlt

structure Inv (prompt : Console) (x : main.Session) (text : List UInt8) : Prop where
  holds : x.input.Holds text
  plain : Plain text
  has : x.console.Has (typed_strip prompt.strip text)

theorem text_eq {text : List UInt8} (h : x.input.Holds text) : x.text = text := by
  have hle := h.length_le
  unfold Session.text
  rw [h.line, h.linelen]
  apply List.ext_getElem
  . rw [List.length_take, List.length_ofFn]
    omega
  . intro i hi hi'
    rw [List.getElem_take, List.getElem_ofFn]
    unfold main.Input.line_of
    rw [List.getD_eq_getElem _ _ hi']

theorem Inv.in_step {text : List UInt8} (hprompt : prompt.Prompt) (h : Inv prompt x text)
    : InStep prompt x := by
  have hscratch : ∀ process_list,
      (echo process_list prompt x.text).Has (typed_strip prompt.strip text) := by
    intro process_list
    rw [text_eq h.holds]
    apply echo_has hprompt.has h.plain h.has.next_lt
  constructor
  . intro process_list
    exact h.has.state_eq (hscratch process_list)
  . intro process_list
    rw [h.has.cursor_eq, (hscratch process_list).cursor_eq]
  . intro process_list i j hi hj
    rw [h.has.cell_eq i j hi hj, (hscratch process_list).cell_eq i j hi hj]

def shown (text : List UInt8) (key : Option UInt8) : List UInt8 :=
  match key with
  | none => []
  | some c =>
    if c = 0x08 then
      if text = [] then [] else [0x08]
    else if c = 0 then
      []
    else
      [c]

open main.Input in
theorem edit_echoed {s s' : main.Input} {text : List UInt8} (hedit : main.edit s = some s')
    (hline : s.line = line_of text) (hlinelen : s.linelen = text.length) (hle : text.length ≤ 2000)
    : ∃ echoed, s'.echoed = s.echoed ++ echoed ∧ echoed.filter (· ≠ 0) = shown text (some s.buf) := by
  unfold shown
  dsimp only
  split
  . next hback =>
    split
    . next htext =>
      rw [htext, List.length_nil] at hlinelen
      rw [edit_backspace_nil hback hlinelen, Option.some.injEq] at hedit
      rw [← hedit]
      exact ⟨[], (List.append_nil _).symm, rfl⟩
    . next htext =>
      rw [edit_backspace hback hline hlinelen htext hle, Option.some.injEq] at hedit
      rw [← hedit]
      refine ⟨[s.buf], rfl, ?_⟩
      rw [hback]
      rfl
  . next hback =>
    split
    . next hzero =>
      rw [edit_zero hzero, Option.some.injEq] at hedit
      rw [← hedit]
      refine ⟨[s.buf], rfl, ?_⟩
      rw [hzero]
      rfl
    . next hzero =>
      by_cases hlt : text.length < 2000
      . rw [edit_char hback hzero hline hlinelen hlt, Option.some.injEq] at hedit
        rw [← hedit]
        refine ⟨[s.buf], rfl, ?_⟩
        rw [List.filter_cons_of_pos (by simpa using hzero)]
        rfl
      . rw [edit_overrun hback hzero (by omega)] at hedit
        contradiction

theorem poll_echoed {s s' : main.Input} {text : List UInt8} (h : s.Holds text)
    {key : Option UInt8} (hpoll : main.poll s key = some s')
    : ∃ echoed, s'.echoed = s.echoed ++ echoed ∧ echoed.filter (· ≠ 0) = shown text key := by
  cases key with
  | none =>
    rw [main.Input.poll_none] at hpoll
    rcases edit_echoed hpoll h.line h.linelen h.length_le with ⟨echoed, hechoed, hshown⟩
    refine ⟨echoed, hechoed, ?_⟩
    rw [hshown]
    dsimp only
    rcases h.buf with hbuf | ⟨hbuf, htext⟩
    . rw [hbuf]
      rfl
    . rw [hbuf, htext]
      rfl
  | some c =>
    rw [main.Input.poll_some] at hpoll
    exact edit_echoed hpoll h.line h.linelen h.length_le

theorem echo_filter (process_list : Fin 16 → ProcessControlBlock) (s : Console) (text : List UInt8)
    : echo process_list s (text.filter (· ≠ 0)) = echo process_list s text := by
  unfold echo
  induction text generalizing s with
  | nil => rfl
  | cons c text ih =>
    by_cases hc : c = 0
    . rw [List.filter_cons_of_neg (by simpa using hc), ih, List.foldl_cons, hc]
      rfl
    . rw [List.filter_cons_of_pos (by simpa using hc), List.foldl_cons, List.foldl_cons, ih]

theorem step_cases {text : List UInt8} (h : x.input.Holds text) (hkey : k.2 ≠ some 0x0A)
    (hstep : x.step k = some y)
    : y.input.Holds (main.typed text k.2) ∧
        y.console = echo k.1 x.console (shown text k.2) := by
  unfold step at hstep
  rw [Option.bind_eq_bind, Option.bind_eq_some_iff] at hstep
  rcases hstep with ⟨input, hpoll, hy⟩
  rw [← Option.some.inj hy]
  constructor
  . by_cases hle : (main.typed text k.2).length ≤ 2000
    . rcases (h.poll hkey).1 hle with ⟨s', hpoll', hholds⟩
      rw [hpoll, Option.some.injEq] at hpoll'
      rw [hpoll']
      exact hholds
    . rw [(h.poll hkey).2 hle] at hpoll
      contradiction
  . rcases poll_echoed h hpoll with ⟨echoed, hechoed, hshown⟩
    dsimp only
    rw [hechoed, List.drop_left, ← echo_filter, hshown]

theorem plain_concat {text : List UInt8} {c : UInt8}
    : Plain (text ++ [c]) ↔ Plain text ∧ c ≠ 0 ∧ c ≠ 0x0A ∧ c ≠ 0x08 := by
  unfold Plain
  rw [List.forall_mem_append, List.forall_mem_singleton]

theorem Inv.same {text : List UInt8} (h : Inv prompt x text) (hholds : y.input.Holds text)
    (hconsole : y.console = x.console)
    : Inv prompt y text := by
  refine ⟨hholds, h.plain, ?_⟩
  rw [hconsole]
  exact h.has

theorem Inv.type {text : List UInt8} (h : Inv prompt x text) {c : UInt8}
    (hc : c ≠ 0 ∧ c ≠ 0x0A ∧ c ≠ 0x08)
    (hcalm : ¬ x.console.Scrolls c) (hholds : y.input.Holds (text ++ [c]))
    (hconsole : y.console = puts_char process_list c 0xF x.console)
    : Inv prompt y (text ++ [c]) := by
  refine ⟨hholds, plain_concat.mpr ⟨h.plain, hc⟩, ?_⟩
  rw [hconsole, typed_strip_concat]
  apply h.has.type hc.1 hc.2.1 hc.2.2
  apply h.has.strike_lt hc.1 hc.2.1 hc.2.2 hcalm

theorem Inv.erase {text : List UInt8} {c : UInt8} (hprompt : prompt.Prompt)
    (h : Inv prompt x (text ++ [c])) (hc : c ≠ 0x09) (hholds : y.input.Holds text)
    (hconsole : y.console = puts_char process_list 0x08 0xF x.console)
    : Inv prompt y text := by
  have hplain := plain_concat.mp h.plain
  have hhas := h.has
  rw [typed_strip_concat] at hhas
  unfold strike at hhas
  rw [if_neg hc] at hhas
  refine ⟨hholds, hplain.1, ?_⟩
  rw [hconsole]
  exact hhas.erase_glyph hplain.2.1 (clear_typed_strip hprompt.clear text) 0xF

theorem Inv.erase_tab {text : List UInt8} (hprompt : prompt.Prompt)
    (h : Inv prompt x (text ++ [0x09])) (hholds : y.input.Holds text)
    (hconsole : y.console = puts_char process_list 0x08 0xF x.console)
    : ¬ InStep prompt y := by
  intro hstep
  have hplain := (plain_concat.mp h.plain).1
  have hlt := h.has.next_lt
  have hhas := h.has
  rw [typed_strip_concat] at hhas hlt
  have hless := next_lt_strike (typed_strip prompt.strip text) 0x09
  have hscratch : (echo process_list prompt text).Has (typed_strip prompt.strip text) :=
    echo_has hprompt.has hplain (by omega)
  have hcursor := hstep.cursor_eq process_list
  rw [text_eq hholds, hscratch.cursor_eq, hconsole] at hcursor
  exact hhas.erase_tab (clear_typed_strip hprompt.clear text) 0xF hcursor

theorem Inv.step {text : List UInt8} (hprompt : prompt.Prompt) (h : Inv prompt x text)
    (hkey : k.2 ≠ some 0x0A) (hcalm : Calm x k) (hstep : x.step k = some y)
    : (¬ ErasesTab x k → ∃ text', Inv prompt y text') ∧ (ErasesTab x k → ¬ InStep prompt y) := by
  rcases step_cases h.holds hkey hstep with ⟨hholds, hconsole⟩
  have htext := text_eq h.holds
  unfold ErasesTab Calm at *
  rw [htext]
  rcases k with ⟨process_list, key⟩
  dsimp only at *
  cases key with
  | none =>
    refine ⟨fun _ => ⟨text, h.same hholds hconsole⟩, fun herase => ?_⟩
    rcases h.holds.buf with hbuf | ⟨_, hnil⟩
    . rw [show (main.syscall_get x.input none).buf = x.input.buf from rfl, hbuf] at herase
      exact absurd herase.1 (by decide)
    . rw [hnil] at herase
      exact absurd herase.2 (by simp)
  | some c =>
    change ¬ x.console.Scrolls c at hcalm
    change (¬ (c = 0x08 ∧ _) → _) ∧ (c = 0x08 ∧ _ → _)
    by_cases hback : c = 0x08
    . subst hback
      rw [main.Input.typed_backspace] at hholds
      rcases List.eq_nil_or_concat' text with hnil | ⟨init, last, hconcat⟩
      . subst hnil
        refine ⟨fun _ => ⟨[], h.same hholds hconsole⟩, fun herase => ?_⟩
        exact absurd herase.2 (by simp)
      . subst hconcat
        rw [List.dropLast_concat] at hholds
        have hputs : y.console = puts_char process_list 0x08 0xF x.console := by
          rw [hconsole]
          unfold shown
          dsimp only
          rw [if_pos rfl, if_neg (by simp)]
          rfl
        rw [List.getLast?_concat, Option.some.injEq]
        constructor
        . intro hnot
          exact ⟨init, h.erase hprompt (fun htab => hnot ⟨rfl, htab⟩) hholds hputs⟩
        . intro ⟨_, htab⟩
          subst htab
          exact h.erase_tab hprompt hholds hputs
    . refine ⟨fun _ => ?_, fun herase => absurd herase.1 hback⟩
      by_cases hzero : c = 0
      . subst hzero
        exact ⟨text, h.same hholds hconsole⟩
      . have hnewline : c ≠ 0x0A := fun heq => hkey (congrArg some heq)
        rw [main.Input.typed_char text hback hzero] at hholds
        have hputs : y.console = puts_char process_list c 0xF x.console := by
          rw [hconsole]
          unfold shown
          dsimp only
          rw [if_neg hback, if_neg hzero]
          rfl
        exact ⟨text ++ [c], h.type ⟨hzero, hnewline, hback⟩ hcalm hholds hputs⟩

theorem step_of_erases {text : List UInt8} (h : x.input.Holds text) (herase : ErasesTab x k)
    (hkey : k.2 ≠ some 0x0A)
    : ∃ y, x.step k = some y := by
  have hle := h.length_le
  have hlength : (main.typed text k.2).length ≤ 2000 := by
    cases hk : k.2 with
    | none => exact hle
    | some c =>
      have hback := herase.1
      rw [hk] at hback
      change c = 0x08 at hback
      rw [hback, main.Input.typed_backspace, List.length_dropLast]
      omega
  rcases (h.poll hkey).1 hlength with ⟨input, hpoll, _⟩
  have hstep : x.step k
      = some ⟨input, echo k.1 x.console (input.echoed.drop x.input.echoed.length)⟩ := by
    unfold step
    rw [hpoll]
    rfl
  exact ⟨_, hstep⟩

theorem always_head {P : main.Session → Prop} {keys : List main.Keystroke} (h : Always P x keys)
    : P x := by
  cases keys with
  | nil => exact h
  | cons k keys => exact h.1

theorem Inv.always_iff {text : List UInt8} (hprompt : prompt.Prompt) (h : Inv prompt x text)
    {keys : List main.Keystroke} (hkeys : ∀ k ∈ keys, k.2 ≠ some 0x0A) (hcalm : Each Calm x keys)
    : Always (InStep prompt) x keys ↔ Each (fun x k => ¬ ErasesTab x k) x keys := by
  induction keys generalizing x text with
  | nil => exact ⟨fun _ => trivial, fun _ => h.in_step hprompt⟩
  | cons k keys ih =>
    rw [List.forall_mem_cons] at hkeys
    rw [Each] at hcalm
    rw [Always, Each]
    have hnot : (∀ y, x.step k = some y → Always (InStep prompt) y keys) → ¬ ErasesTab x k := by
      intro halways herase
      rcases step_of_erases h.holds herase hkeys.1 with ⟨y, hstep⟩
      exact (h.step hprompt hkeys.1 hcalm.1 hstep).2 herase (always_head (halways y hstep))
    have hrest : ¬ ErasesTab x k → ∀ y, x.step k = some y →
        (Always (InStep prompt) y keys ↔ Each (fun x k => ¬ ErasesTab x k) y keys) := by
      intro hkept y hstep
      rcases (h.step hprompt hkeys.1 hcalm.1 hstep).1 hkept with ⟨text', h'⟩
      exact ih h' hkeys.2 (hcalm.2 y hstep)
    constructor
    . intro ⟨_, halways⟩
      have hkept := hnot halways
      exact ⟨hkept, fun y hstep => (hrest hkept y hstep).mp (halways y hstep)⟩
    . intro ⟨hkept, heach⟩
      exact ⟨h.in_step hprompt, fun y hstep => (hrest hkept y hstep).mpr (heach y hstep)⟩

theorem inv_start {console : Console} (hprompt : console.Prompt) : Inv console (start console) [] :=
  ⟨main.Input.holds_reset, fun _ hc => absurd hc List.not_mem_nil, hprompt.has⟩

/--
The line and its echo stay in step exactly as long as no backspace erases a tab.
-/
theorem in_step_iff {console : Console} (hprompt : console.Prompt) {keys : List main.Keystroke}
    (hkeys : ∀ k ∈ keys, k.2 ≠ some 0x0A) (hcalm : Each Calm (start console) keys)
    : Always (InStep console) (start console) keys ↔
        Each (fun x k => ¬ ErasesTab x k) (start console) keys :=
  (inv_start hprompt).always_iff hprompt hkeys hcalm

theorem calm_of_row (h : x.console.row ≠ 24) : Calm x k :=
  fun hscrolls => h hscrolls.1

def dollar : List ((Fin 16 → ProcessControlBlock) × Console.Call) :=
  [(fun _ => .zero, .puts_char 0x24 0xF), (fun _ => .zero, .puts_char 0x20 0xF)]

def dollar_screen : Console :=
  (Console.cleared ⟨fun _ => 0, 0, 0, ⟨0, 0⟩⟩).run dollar

theorem dollar_screen_prompt : dollar_screen.Prompt := by
  apply Console.printed_prompt
  . intro call hcall i
    rw [dollar, List.mem_cons, List.mem_singleton] at hcall
    rcases hcall with heq | heq
    . rw [heq]
      apply Console.not_clock_zero
    . rw [heq]
      apply Console.not_clock_zero
  . intro call hcall c hc
    rw [dollar, List.mem_cons, List.mem_singleton] at hcall
    rcases hcall with heq | heq
    . rw [heq] at hc
      rw [List.mem_singleton.mp hc]
      decide
    . rw [heq] at hc
      rw [List.mem_singleton.mp hc]
      decide

def press (c : UInt8) : main.Keystroke :=
  (fun _ => .zero, some c)

theorem calm_pressed (c : UInt8) {c' : UInt8}
    (h : ((start dollar_screen).step (press c)).all fun y => decide (y.console.row ≠ 24))
    : Each Calm (start dollar_screen) [press c, press c'] := by
  refine ⟨calm_of_row (by decide), fun y hy => ⟨calm_of_row ?_, fun _ _ => trivial⟩⟩
  rw [hy] at h
  simpa using h

theorem in_step_iff_pressed
    : Always (InStep dollar_screen) (start dollar_screen) [press 0x6C, press 0x08] ↔
        Each (fun x k => ¬ ErasesTab x k) (start dollar_screen) [press 0x6C, press 0x08] := by
  apply in_step_iff dollar_screen_prompt
  . decide
  . exact calm_pressed 0x6C (by decide)

-- a tab, and a backspace
theorem not_in_step
    : ¬ ∀ (console : Console) (keys : List main.Keystroke), console.Prompt →
        (∀ k ∈ keys, k.2 ≠ some 0x0A) → Each Calm (start console) keys →
        Always (InStep console) (start console) keys := by
  intro h
  have halways := h dollar_screen [press 0x09, press 0x08] dollar_screen_prompt (by decide)
    (calm_pressed 0x09 (by decide))
  have htab := halways.2 _ rfl
  have hback : InStep dollar_screen _ := htab.2 _ rfl
  have hcursor := hback.cursor_eq fun _ => .zero
  revert hcursor
  decide

end main.Session

end AiOS
