import AiOS.Driver.Cmos
import AiOS.Lib.System
import AiOS.Lib.Writes
import AiOS.Shell.Number
import AiOS.Text.Console

/-!
This module contains `clock.c`, whose system calls may be interrupted by anything else that goes to
the console, and when the time that it shows is right.
-/

namespace AiOS

namespace clock

-- the column and the character of a system call 14, which writes into the last row
abbrev Write : Type :=
  Nat × UInt8

def Write.exec (w : Write) (s : Console) : Console :=
  framebuffer_write 24 (UInt8.ofNat w.1) w.2 0xF 0 s

def body (i : Nat) (time : UInt8) (p : Fin 3 → UInt8) : Option ((Fin 3 → UInt8) × List Write) :=
  if time ≠ 0 then do
    let p ← int_to_string p time.toNat
    if p 1 = 0 then
      let p := Function.update p 1 0x30
      return (p, [(78 - i * 3, p 1), (79 - i * 3, p 0)])
    else
      return (p, [(78 - i * 3, p 0), (79 - i * 3, p 1)])
  else
    let p := Function.update (Function.update p 0 0x30) 1 0x30
    return (p, [(79, p 0), (78, p 1)])

/--
One round of the loop of `main`, from what `read_rtc` has found and from what `p` holds at first.
-/
def round (p : Fin 3 → UInt8) (time : read_rtc.Clock) : Option (List Write) := do
  let hour := UInt8.ofNat ((time.hour.toNat + 7) % 24)
  let (p, seconds) ← body 0 time.second p
  let (p, minutes) ← body 1 time.minute p
  let (_, hours) ← body 2 hour p
  return seconds ++ minutes ++ hours ++ [(77, 0x3A), (74, 0x3A)]

end clock

/--
The console, the real-time clock, and the system calls that are left of a round.
-/
structure Display where
  console : Console
  cmos : Cmos
  pending : List clock.Write

inductive DisplayEvent where
  | read (p : Fin 3 → UInt8) (fuel : Nat)
  | write
  | puts (process_list : Fin 16 → ProcessControlBlock) (str : Nat → UInt8) (count color : UInt32)
  | puts_char (process_list : Fin 16 → ProcessControlBlock) (c : UInt8) (color : UInt32)
  | clear

def DisplayEvent.others (e : DisplayEvent) (s : Console) : Console :=
  match e with
  | .puts process_list str count color => AiOS.puts process_list str count color s
  | .puts_char process_list c color => AiOS.puts_char process_list c color s
  | .clear => framebuffer_set_cursor 0 0 (framebuffer_clear s)
  | _ => s

def Display.exec (rtc : Rtc) (s : Display) (e : DisplayEvent) : Option Display :=
  match e with
  | .read p fuel =>
    match s.pending with
    | [] => do
      let ((time, _, _), cmos) ← read_rtc rtc fuel s.cmos
      let pending ← clock.round p time
      return { s with cmos := cmos, pending := pending }
    | _ :: _ => none
  | .write =>
    match s.pending with
    | [] => none
    | w :: pending => some { s with console := w.exec s.console, pending := pending }
  | e => some { s with console := e.others s.console }

def kernel_setup.console (s : Console) : Console :=
  framebuffer_set_cursor 0 0 (framebuffer_write 0 0 0 0xF 0 (framebuffer_clear s))

def displays (rtc : Rtc) : System Display DisplayEvent where
  init s := (∃ console, s.console = kernel_setup.console console) ∧ s.pending = []
  step s e s' := s.exec rtc e = some s'

namespace clock

def digit (n : Nat) : UInt8 :=
  UInt8.ofNat (n + 0x30)

def stamp (col n : Nat) (row : Nat → UInt8) : Nat → UInt8 :=
  Function.update (Function.update row col (digit (n / 10))) (col + 1) (digit (n % 10))

theorem numeral_of_lt_ten {n : Nat} (hn : n ≠ 0) (hlt : n < 10) : numeral n = [digit n] := by
  have h : ∀ n : Fin 10, n.val ≠ 0 → numeral n = [digit n] := by
    decide +kernel
  exact h ⟨n, hlt⟩ hn

theorem numeral_of_ten_le {n : Nat} (hle : 10 ≤ n) (hlt : n < 100)
    : numeral n = [digit (n / 10), digit (n % 10)] := by
  have h : ∀ n : Fin 100, 10 ≤ n.val → numeral n = [digit (n / 10), digit (n % 10)] := by
    decide +kernel
  exact h ⟨n, hlt⟩ hle

theorem toNat_digit {n : Nat} (hn : n < 10) : (digit n).toNat = n + 48 := by
  unfold digit
  rw [UInt8.toNat_ofNat_of_lt']
  change n + 48 < 256
  omega

theorem digit_ne_zero {n : Nat} (hn : n < 10) : digit n ≠ 0 := by
  intro hzero
  have hnat := toNat_digit hn
  rw [hzero] at hnat
  change 0 = n + 48 at hnat
  omega

theorem exists_digits {n : Nat} (hn : n ≠ 0) (hlt : n < 100) (p : Fin 3 → UInt8)
    : ∃ p', int_to_string p n = some p' ∧
        (n < 10 → p' 0 = digit n ∧ p' 1 = 0) ∧
        (10 ≤ n → p' 0 = digit (n / 10) ∧ p' 1 = digit (n % 10)) := by
  by_cases hten : n < 10
  . have hnumeral := numeral_of_lt_ten hn hten
    have hlength : (numeral n).length < 3 := by
      rw [hnumeral]
      exact Nat.lt_of_sub_pos (Nat.zero_lt_succ 1)
    rcases int_to_string.exists_written hlength p with ⟨p', hp', _, hwritten⟩
    simp only [hnumeral] at hwritten
    exact ⟨p', hp', fun _ => ⟨hwritten 0, hwritten 1⟩, fun hle => absurd hten (Nat.not_lt.mpr hle)⟩
  . have hnumeral := numeral_of_ten_le (Nat.not_lt.mp hten) hlt
    have hlength : (numeral n).length < 3 := by
      rw [hnumeral]
      exact Nat.lt_of_sub_pos (Nat.zero_lt_succ 0)
    rcases int_to_string.exists_written hlength p with ⟨p', hp', _, hwritten⟩
    simp only [hnumeral] at hwritten
    exact ⟨p', hp', fun hlt => absurd hlt hten, fun _ => ⟨hwritten 0, hwritten 1⟩⟩

theorem body_spec {i : Nat} (hi : i ≤ 2) {time : UInt8} (htime : time.toNat < 100)
    (p : Fin 3 → UInt8)
    : ∃ p' writes, body i time p = some (p', writes) ∧
        (∀ w ∈ writes, 72 ≤ w.1 ∧ w.1 < 80) ∧
        ∀ row, Writes.apply writes row
          = stamp (if time ≠ 0 then 78 - i * 3 else 78) time.toNat row := by
  have hcol : 79 - i * 3 = 78 - i * 3 + 1 := by omega
  unfold body
  by_cases hzero : time = 0
  . rw [if_neg (not_not.mpr hzero), if_neg (not_not.mpr hzero), hzero]
    refine ⟨_, _, rfl, ?_, ?_⟩
    . simp
    . intro row
      unfold stamp
      rw [Writes.apply_cons, Writes.apply_cons, Writes.apply_nil]
      dsimp only
      rw [Function.update_comm (by decide)]
      rfl
  . rw [if_pos hzero, if_pos hzero, hcol]
    have hne : time.toNat ≠ 0 := by
      intro h
      apply hzero
      rw [← UInt8.toNat_inj, h]
      rfl
    rcases exists_digits hne htime p with ⟨p', hp', hone, htwo⟩
    rw [hp', Option.bind_eq_bind, Option.bind_some]
    by_cases hlt : time.toNat < 10
    . rcases hone hlt with ⟨hfirst, hsecond⟩
      have hdigit : time.toNat / 10 = 0 := by omega
      have hmod : time.toNat % 10 = time.toNat := by omega
      rw [if_pos hsecond]
      refine ⟨_, _, rfl, ?_, ?_⟩
      . rw [List.forall_mem_cons, List.forall_mem_singleton]
        dsimp only
        omega
      . intro row
        unfold stamp
        rw [hdigit, hmod, ← hfirst]
        rfl
    . rcases htwo (Nat.not_lt.mp hlt) with ⟨hfirst, hsecond⟩
      have hsecond' : p' 1 ≠ 0 := by
        rw [hsecond]
        apply digit_ne_zero (Nat.mod_lt _ (by decide))
      rw [if_neg hsecond']
      refine ⟨_, _, rfl, ?_, ?_⟩
      . rw [List.forall_mem_cons, List.forall_mem_singleton]
        dsimp only
        omega
      . intro row
        unfold stamp
        rw [← hfirst, ← hsecond]
        rfl

def dial (hour minute second : Nat) (row : Nat → UInt8) : Nat → UInt8 :=
  let row := stamp 78 second row
  let row := stamp (if minute ≠ 0 then 75 else 78) minute row
  let row := stamp (if hour ≠ 0 then 72 else 78) hour row
  Function.update (Function.update row 77 0x3A) 74 0x3A

theorem round_spec {time : read_rtc.Clock} (hminute : time.minute.toNat < 60)
    (hsecond : time.second.toNat < 60) (p : Fin 3 → UInt8)
    : ∃ writes, round p time = some writes ∧
        (∀ w ∈ writes, 72 ≤ w.1 ∧ w.1 < 80) ∧
        ∀ row, Writes.apply writes row
          = dial ((time.hour.toNat + 7) % 24) time.minute.toNat time.second.toNat row := by
  have hlt : (time.hour.toNat + 7) % 24 < 24 := Nat.mod_lt _ (by decide)
  have hhour : (UInt8.ofNat ((time.hour.toNat + 7) % 24)).toNat = (time.hour.toNat + 7) % 24 := by
    rw [UInt8.toNat_ofNat_of_lt']
    change _ < 256
    omega
  have hzero : ∀ n : UInt8, n ≠ 0 ↔ n.toNat ≠ 0 := by
    intro n
    rw [Ne, ← UInt8.toNat_inj]
    rfl
  have hhour' : (UInt8.ofNat ((time.hour.toNat + 7) % 24)).toNat < 100 := by omega
  rcases body_spec (Nat.zero_le 2) (Nat.lt_trans hsecond (by decide)) p with
    ⟨p, seconds, hseconds, hcols, happly⟩
  rcases body_spec (Nat.one_le_ofNat) (Nat.lt_trans hminute (by decide)) p with
    ⟨p, minutes, hminutes, hcols', happly'⟩
  rcases body_spec (Nat.le_refl 2) hhour' p with ⟨p, hours, hhours, hcols'', happly''⟩
  unfold round
  dsimp only
  rw [hseconds, Option.bind_eq_bind, Option.bind_some]
  dsimp only
  rw [hminutes, Option.bind_some]
  dsimp only
  rw [hhours, Option.bind_some]
  refine ⟨_, rfl, ?_, ?_⟩
  . rw [List.forall_mem_append, List.forall_mem_append, List.forall_mem_append]
    refine ⟨⟨⟨hcols, hcols'⟩, hcols''⟩, ?_⟩
    simp
  . intro row
    simp only [Writes.apply_append, happly, happly', happly'', hzero, hhour]
    unfold dial
    rw [Nat.zero_mul, Nat.sub_zero, ite_self]
    rfl

def face (row : Nat → UInt8) : List UInt8 :=
  (List.range 8).map fun j => row (72 + j)

def two (n : Nat) : List UInt8 :=
  [digit (n / 10), digit (n % 10)]

def text (hour minute second : Nat) : List UInt8 :=
  two hour ++ 0x3A :: (two minute ++ 0x3A :: two second)

/--
Neither the hours nor the minutes are two zeros.
-/
structure NoZeros (row : Nat → UInt8) : Prop where
  hours : ¬ (row 72 = 0x30 ∧ row 73 = 0x30)
  minutes : ¬ (row 75 = 0x30 ∧ row 76 = 0x30)

variable {hour minute second : Nat} {row : Nat → UInt8}

theorem two_inj {a b : Nat} (ha : a < 100) (hb : b < 100) (h : two a = two b) : a = b := by
  unfold two at h
  rw [List.cons.injEq, List.cons.injEq] at h
  have htens := congrArg UInt8.toNat h.1
  have hones := congrArg UInt8.toNat h.2.1
  rw [toNat_digit (by omega), toNat_digit (by omega)] at htens hones
  omega

theorem face_dial (hour minute second : Nat) (row : Nat → UInt8)
    : face (dial hour minute second row)
        =
      (if hour ≠ 0 then two hour else [row 72, row 73]) ++ 0x3A ::
        ((if minute ≠ 0 then two minute else [row 75, row 76]) ++ 0x3A ::
          (if hour = 0 ∨ minute = 0 then two 0 else two second)) := by
  unfold face dial stamp two
  by_cases hhour : hour = 0
  . by_cases hminute : minute = 0
    . simp [hhour, hminute, List.range_succ, Function.update_apply]
    . simp [hhour, hminute, List.range_succ, Function.update_apply]
  . by_cases hminute : minute = 0
    . simp [hhour, hminute, List.range_succ, Function.update_apply]
    . simp [hhour, hminute, List.range_succ, Function.update_apply]

def columns : Set Nat :=
  Set.Ico 72 80

theorem face_congr {row row' : Nat → UInt8} (h : Set.EqOn row row' columns)
    : face row = face row' := by
  unfold face
  apply List.map_congr_left
  intro j hj
  rw [List.mem_range] at hj
  apply h
  exact ⟨Nat.le_add_right _ _, Nat.add_lt_add_left hj 72⟩

theorem NoZeros.congr {row row' : Nat → UInt8} (h : NoZeros row) (heq : Set.EqOn row row' columns)
    : NoZeros row' where
  hours := by
    rw [← heq ⟨by decide, by decide⟩, ← heq ⟨by decide, by decide⟩]
    exact h.hours
  minutes := by
    rw [← heq ⟨by decide, by decide⟩, ← heq ⟨by decide, by decide⟩]
    exact h.minutes

theorem noZeros_iff : NoZeros row ↔ [row 72, row 73] ≠ two 0 ∧ [row 75, row 76] ≠ two 0 := by
  have htwo : two 0 = [0x30, 0x30] := by
    rfl
  rw [htwo]
  constructor
  . intro h
    exact ⟨by simpa using h.hours, by simpa using h.minutes⟩
  . intro h
    exact ⟨by simpa using h.1, by simpa using h.2⟩

theorem pieces_inj {a a' b b' c c' : List UInt8} {colon : UInt8} (ha : a.length = a'.length)
    (hb : b.length = b'.length)
    : a ++ colon :: (b ++ colon :: c) = a' ++ colon :: (b' ++ colon :: c')
        ↔
      a = a' ∧ b = b' ∧ c = c' := by
  constructor
  . intro h
    rcases List.append_inj h ha with ⟨hfirst, hrest⟩
    rw [List.cons_inj_right] at hrest
    rcases List.append_inj hrest hb with ⟨hsecond, hthird⟩
    exact ⟨hfirst, hsecond, List.cons_inj_right _ |>.mp hthird⟩
  . intro ⟨hfirst, hsecond, hthird⟩
    rw [hfirst, hsecond, hthird]

theorem face_eq (row : Nat → UInt8)
    : face row
        =
      [row 72, row 73] ++ row 74 :: ([row 75, row 76] ++ row 77 :: [row 78, row 79]) := by
  rfl

theorem dial_colons (hour minute second : Nat) (row : Nat → UInt8)
    : dial hour minute second row 74 = 0x3A ∧ dial hour minute second row 77 = 0x3A := by
  unfold dial
  rw [Function.update_self, Function.update_of_ne (by decide), Function.update_self]
  exact ⟨rfl, rfl⟩

theorem face_dial_eq_pieces_iff {hours minutes seconds : List UInt8} (hhours : hours.length = 2)
    (hminutes : minutes.length = 2)
    : face (dial hour minute second row) = hours ++ 0x3A :: (minutes ++ 0x3A :: seconds)
        ↔
      (if hour ≠ 0 then two hour else [row 72, row 73]) = hours ∧
        (if minute ≠ 0 then two minute else [row 75, row 76]) = minutes ∧
        (if hour = 0 ∨ minute = 0 then two 0 else two second) = seconds := by
  rw [face_dial, pieces_inj]
  . rw [hhours]
    split
    . rfl
    . rfl
  . rw [hminutes]
    split
    . rfl
    . rfl

theorem NoZeros.dial (h : NoZeros row) (hhour : hour < 24) (hminute : minute < 60) (second : Nat)
    : NoZeros (dial hour minute second row) := by
  have hface := face_eq (clock.dial hour minute second row)
  rcases dial_colons hour minute second row with ⟨hcolon, hcolon'⟩
  rw [hcolon, hcolon', face_dial_eq_pieces_iff rfl rfl] at hface
  rw [noZeros_iff] at h ⊢
  rw [← hface.1, ← hface.2.1]
  constructor
  . split
    . next hne => exact fun heq => hne (two_inj (by omega) (by omega) heq)
    . exact h.1
  . split
    . next hne => exact fun heq => hne (two_inj (by omega) (by omega) heq)
    . exact h.2

/--
The right time appears where there are hours and minutes to be written.
-/
theorem face_dial_eq_iff (h : NoZeros row) (hhour : hour < 24) {hour' : Nat} (hhour' : hour' < 24)
    (hzero : hour = 0 → hour' = 0)
    : face (dial hour minute second row) = text hour' minute second
        ↔
      hour ≠ 0 ∧ minute ≠ 0 ∧ hour = hour' := by
  rw [noZeros_iff] at h
  unfold text
  rw [face_dial_eq_pieces_iff rfl rfl]
  constructor
  . intro ⟨hhours, hminutes, _⟩
    have hne : hour ≠ 0 := by
      intro heq
      rw [if_neg (not_not.mpr heq), hzero heq] at hhours
      exact h.1 hhours
    have hne' : minute ≠ 0 := by
      intro heq
      rw [if_neg (not_not.mpr heq), heq] at hminutes
      exact h.2 hminutes
    rw [if_pos hne] at hhours
    exact ⟨hne, hne', two_inj (by omega) (by omega) hhours⟩
  . intro ⟨hne, hne', heq⟩
    rw [if_pos hne, if_pos hne', if_neg (not_or.mpr ⟨hne, hne'⟩), heq]
    exact ⟨rfl, rfl, rfl⟩

end clock

namespace read_rtc

variable {rtc : Rtc} {start : Nat} {last now : Pass}

theorem Agree.lt (h : Agree rtc start last now)
    : (convert rtc.registerB now).minute.toNat < 60 ∧
        (convert rtc.registerB now).second.toNat < 60 := by
  rcases h.now_eq with ⟨century, hnow⟩
  have hminutes : rtc.time (now.first + 1) / 60 % 60 < 60 := Nat.mod_lt _ (by decide)
  have hseconds : rtc.time now.first % 60 < 60 := Nat.mod_lt _ (by decide)
  have hminute : now.minute = rtc.encode (rtc.time (now.first + 1) / 60 % 60) := by
    rw [hnow]
    rfl
  have hsecond : now.second = rtc.encode (rtc.time now.first % 60) := by
    rw [hnow]
    rfl
  have hconvert := convert_time rtc.registerB now
  dsimp only at hconvert
  rw [hconvert.2.1, hconvert.2.2, hminute, hsecond, decode_encode hminutes, decode_encode hseconds]
  rw [UInt8.toNat_ofNat', UInt8.toNat_ofNat']
  omega

end read_rtc

def DisplayEvent.Beside (s : Display) (e : DisplayEvent) : Prop :=
  Set.EqOn ((e.others s.console).cell 24) (s.console.cell 24) clock.columns

/--
The other processes leave the last eight columns alone in the middle of a round. Between two rounds
they may write there, but not two zeros for the hours or the minutes.
-/
def DisplayEvent.Calm (s : Display) (e : DisplayEvent) : Prop :=
  e.Beside s ∨ s.pending = [] ∧ clock.NoZeros ((e.others s.console).cell 24)

namespace Display

open clock

variable {rtc : Rtc} {s s' : Display} {e : DisplayEvent}

def row (s : Display) : Nat → UInt8 :=
  Writes.apply s.pending (s.console.cell 24)

structure Good (s : Display) : Prop where
  pending : ∀ w ∈ s.pending, 72 ≤ w.1 ∧ w.1 < 80
  zeros : NoZeros s.row

theorem eqOn_exec {w : Write} (hw : 72 ≤ w.1 ∧ w.1 < 80) (s : Console)
    : Set.EqOn ((w.exec s).cell 24) (Function.update (s.cell 24) w.1 w.2) columns := by
  intro j hj
  have hcol : (UInt8.ofNat w.1).toNat = w.1 := by
    rw [UInt8.toNat_ofNat_of_lt']
    change w.1 < 256
    omega
  have hrow : (24 : UInt8).toNat = 24 := rfl
  unfold Write.exec
  rw [Console.write_cell (by omega) _ _ _ _ hj.2, hcol, hrow, Function.update_apply]
  simp only [true_and]

theorem eqOn_row_write {w : Write} {pending : List Write} (hw : 72 ≤ w.1 ∧ w.1 < 80)
    (hpending : s.pending = w :: pending)
    : Set.EqOn (row { s with console := w.exec s.console, pending := pending }) s.row columns := by
  unfold row
  rw [hpending, Writes.apply_cons]
  exact Writes.eqOn_apply (eqOn_exec hw s.console) pending

theorem eqOn_row_beside (h : e.Beside s)
    : Set.EqOn (row { s with console := e.others s.console }) s.row columns :=
  Writes.eqOn_apply h s.pending

theorem exec_read {p : Fin 3 → UInt8} {fuel : Nat} (h : s.exec rtc (.read p fuel) = some s')
    : s.pending = [] ∧ s'.console = s.console ∧
        ∃ time last now, read_rtc rtc fuel s.cmos = some ((time, last, now), s'.cmos) ∧
          round p time = some s'.pending := by
  unfold exec at h
  dsimp only at h
  split at h
  . next hpending =>
    rw [Option.bind_eq_bind, Option.bind_eq_some_iff] at h
    rcases h with ⟨⟨⟨time, last, now⟩, cmos⟩, hread, h⟩
    dsimp only at h
    rw [Option.bind_eq_bind, Option.bind_eq_some_iff] at h
    rcases h with ⟨pending, hround, h⟩
    rw [Option.pure_def, Option.some.injEq] at h
    rw [← h]
    exact ⟨hpending, rfl, time, last, now, hread, hround⟩
  . contradiction

theorem exec_cases (h : s.exec rtc e = some s')
    : (∃ p fuel, e = .read p fuel) ∨
      (∃ w pending, s.pending = w :: pending ∧
        s' = { s with console := w.exec s.console, pending := pending }) ∨
      s' = { s with console := e.others s.console } := by
  cases e with
  | read p fuel => exact Or.inl ⟨p, fuel, rfl⟩
  | write =>
    unfold exec at h
    dsimp only at h
    split at h
    . contradiction
    . next w pending hpending =>
      rw [Option.some.injEq] at h
      exact Or.inr (Or.inl ⟨w, pending, hpending, h.symm⟩)
  | puts process_list str count color => exact Or.inr (Or.inr (Option.some.inj h).symm)
  | puts_char process_list c color => exact Or.inr (Or.inr (Option.some.inj h).symm)
  | clear => exact Or.inr (Or.inr (Option.some.inj h).symm)

theorem exists_round {fuel : Nat} {s : Cmos} {time : read_rtc.Clock} {last now : read_rtc.Pass}
    {cmos : Cmos} (hread : read_rtc rtc fuel s = some ((time, last, now), cmos)) (p : Fin 3 → UInt8)
    : time.minute.toNat < 60 ∧
        ∃ writes, round p time = some writes ∧
          (∀ w ∈ writes, 72 ≤ w.1 ∧ w.1 < 80) ∧
          ∀ row, Writes.apply writes row
            = dial ((time.hour.toNat + 7) % 24) time.minute.toNat time.second.toNat row := by
  rcases read_rtc.agree_of_read_rtc hread with ⟨hagree, _, htime⟩
  have hlt := hagree.lt
  rw [← htime] at hlt
  exact ⟨hlt.1, round_spec hlt.1 hlt.2 p⟩

theorem row_of_read {p : Fin 3 → UInt8} {fuel : Nat} (h : s.exec rtc (.read p fuel) = some s')
    {time : read_rtc.Clock} {last now : read_rtc.Pass} {cmos : Cmos}
    (hread : read_rtc rtc fuel s.cmos = some ((time, last, now), cmos))
    : (∀ w ∈ s'.pending, 72 ≤ w.1 ∧ w.1 < 80) ∧ s'.cmos = cmos ∧ time.minute.toNat < 60 ∧
        s'.row = dial ((time.hour.toNat + 7) % 24) time.minute.toNat time.second.toNat s.row := by
  rcases exec_read h with ⟨hpending, hconsole, time', last', now', hread', hround⟩
  rw [hread, Option.some.injEq, Prod.mk.injEq, Prod.mk.injEq, Prod.mk.injEq] at hread'
  rcases hread' with ⟨⟨rfl, rfl, rfl⟩, hcmos⟩
  rcases exists_round hread p with ⟨hminute, writes, hwrites, hcols, happly⟩
  rw [hround, Option.some.injEq] at hwrites
  have hrow : s.row = s.console.cell 24 := by
    unfold row
    rw [hpending, Writes.apply_nil]
  refine ⟨?_, hcmos.symm, hminute, ?_⟩
  . rw [hwrites]
    exact hcols
  . rw [hrow, ← happly, ← hwrites, ← hconsole]
    rfl

theorem Good.step (h : s.Good) (hcalm : e.Calm s) (hstep : s.exec rtc e = some s') : s'.Good := by
  rcases exec_cases hstep with ⟨p, fuel, rfl⟩ | ⟨w, pending, hpending, hs'⟩ | hs'
  . rcases exec_read hstep with ⟨_, _, time, last, now, hread, _⟩
    rcases row_of_read hstep hread with ⟨hcols, _, hminute, hrow⟩
    refine ⟨hcols, ?_⟩
    rw [hrow]
    apply h.zeros.dial (Nat.mod_lt _ (by decide)) hminute
  . have hcols := h.pending
    rw [hpending, List.forall_mem_cons] at hcols
    rw [hs']
    exact ⟨hcols.2, h.zeros.congr (eqOn_row_write hcols.1 hpending).symm⟩
  . rw [hs']
    refine ⟨h.pending, ?_⟩
    rcases hcalm with hbeside | ⟨hpending, hrow⟩
    . exact h.zeros.congr (eqOn_row_beside hbeside).symm
    . unfold row
      dsimp only
      rw [hpending, Writes.apply_nil]
      exact hrow

theorem cell_kernel_setup (s : Console) {j : Nat} (hj : j < 80)
    : (kernel_setup.console s).cell 24 j = 0 := by
  have hcursor : ∀ s : Console, (framebuffer_set_cursor 0 0 s).cell = s.cell := fun _ => rfl
  have hclear : (framebuffer_clear s).cell 24 j = 0 := by
    unfold framebuffer_clear Console.cell
    dsimp only
    rw [memset_apply, if_pos (by omega)]
  unfold kernel_setup.console
  rw [hcursor, Console.write_cell (by decide) _ _ _ _ hj, hclear, ite_self]

theorem Good.of_init (h : (displays rtc).init s) : s.Good := by
  rcases h with ⟨⟨console, hconsole⟩, hpending⟩
  have hrow : ∀ j, j < 80 → s.row j = 0 := by
    intro j hj
    unfold row
    rw [hpending, Writes.apply_nil, hconsole, cell_kernel_setup console hj]
  refine ⟨?_, ?_, ?_⟩
  . rw [hpending]
    exact fun _ hw => absurd hw List.not_mem_nil
  . rw [hrow 72 (by decide)]
    exact fun h => absurd h.1 (by decide)
  . rw [hrow 75 (by decide)]
    exact fun h => absurd h.1 (by decide)

theorem Good.of_reachable (h : (displays rtc).Reachable (fun s e => e.Calm s) s) : s.Good := by
  apply h.invariant
  . intro s hs
    exact Good.of_init hs
  . intro s e s' hs hcalm hstep
    exact hs.step hcalm hstep

theorem row_of_leads {s₁ s₂ : Display} (hcols : ∀ w ∈ s₁.pending, 72 ≤ w.1 ∧ w.1 < 80)
    (hleads : (displays rtc).Leads (fun s e => e.Beside s ∧ ∀ p fuel, e ≠ .read p fuel) s₁ s₂)
    : Set.EqOn s₂.row s₁.row columns := by
  have hboth : (∀ w ∈ s₂.pending, 72 ≤ w.1 ∧ w.1 < 80) ∧ Set.EqOn s₂.row s₁.row columns := by
    apply hleads.invariant (I := fun s =>
      (∀ w ∈ s.pending, 72 ≤ w.1 ∧ w.1 < 80) ∧ Set.EqOn s.row s₁.row columns)
      ⟨hcols, fun _ _ => rfl⟩
    intro s e s' ⟨hcols, hrow⟩ ⟨hbeside, hnot⟩ hstep
    rcases exec_cases hstep with ⟨p, fuel, he⟩ | ⟨w, pending, hpending, hs'⟩ | hs'
    . exact absurd he (hnot p fuel)
    . rw [hpending, List.forall_mem_cons] at hcols
      rw [hs']
      exact ⟨hcols.2, (eqOn_row_write hcols.1 hpending).trans hrow⟩
    . rw [hs']
      exact ⟨hcols, (eqOn_row_beside hbeside).trans hrow⟩
  exact hboth.2

theorem exists_read (hpending : s.pending = []) {p : Fin 3 → UInt8} {fuel : Nat}
    {time : read_rtc.Clock} {last now : read_rtc.Pass} {cmos : Cmos}
    (hread : read_rtc rtc fuel s.cmos = some ((time, last, now), cmos))
    : ∃ s', s.exec rtc (.read p fuel) = some s' := by
  rcases exists_round hread p with ⟨_, writes, hwrites, _, _⟩
  unfold exec
  rw [hpending]
  dsimp only
  rw [hread, Option.bind_eq_bind, Option.bind_some]
  dsimp only
  rw [hwrites]
  exact ⟨_, rfl⟩

theorem exists_done (rtc : Rtc) (pending : List Write) (console : Console) (cmos : Cmos)
    : ∃ s, (displays rtc).Leads (fun s e => e.Beside s ∧ ∀ p fuel, e ≠ .read p fuel)
          ⟨console, cmos, pending⟩ s ∧ s.pending = [] := by
  induction pending generalizing console with
  | nil => exact ⟨_, .refl, rfl⟩
  | cons w pending ih =>
    rcases ih (w.exec console) with ⟨s, hleads, hdone⟩
    have hbeside : DisplayEvent.write.Beside ⟨console, cmos, w :: pending⟩ := fun _ _ => rfl
    have hnot : ∀ p fuel, DisplayEvent.write ≠ .read p fuel := by
      intro p fuel h
      contradiction
    exact ⟨s, .head ⟨.write, ⟨hbeside, hnot⟩, rfl⟩ hleads, hdone⟩

end Display

def clock.spelled (t : Nat) : List UInt8 :=
  text (t / 3600 % 24) (t / 60 % 60) (t % 60)

theorem clock.spelled_iff {rtc : Rtc} {row : Nat → UInt8} (h : NoZeros row) (t : Nat)
    : face (dial ((read_rtc.shown_hour rtc (t / 3600 % 24) + 7) % 24) (t / 60 % 60) (t % 60) row)
          = spelled (t + 7 * 3600)
        ↔
      t / 60 % 60 ≠ 0 ∧ (t / 3600 + 7) % 24 ≠ 0 ∧ (rtc.hours_24 = true ∨ t / 3600 % 12 ≠ 0) := by
  have hhour : (t + 7 * 3600) / 3600 % 24 = (t / 3600 + 7) % 24 := by omega
  have hminute : (t + 7 * 3600) / 60 % 60 = t / 60 % 60 := by omega
  have hsecond : (t + 7 * 3600) % 60 = t % 60 := by omega
  have hlt : (t / 3600 + 7) % 24 < 24 := Nat.mod_lt _ (by decide)
  have hmod : t / 3600 % 24 % 12 = t / 3600 % 12 := by omega
  unfold spelled read_rtc.shown_hour
  rw [hhour, hminute, hsecond, hmod, face_dial_eq_iff h (Nat.mod_lt _ (by decide)) hlt]
  . split
    . next hswapped =>
      rw [hswapped.1]
      have htwelve := hswapped.2
      simp only [Bool.false_eq_true, false_or]
      omega
    . next hsame =>
      rw [not_and_or, Bool.not_eq_false] at hsame
      have hequal : (t / 3600 % 24 + 7) % 24 = (t / 3600 + 7) % 24 := by omega
      rw [hequal]
      tauto
  . split
    . omega
    . omega

/--
A round of `clock` always gets as far as its system calls, and to their end. The eight columns are
then the time of the clock, seven hours later, exactly where neither its minutes nor the hours that
are shown are zero, and where `read_rtc` does not take noon and midnight for each other. This holds
in every run in which nobody else writes into the columns during a round, nor two zeros for the
hours or the minutes between two of them.
-/
theorem clock_shows_iff {rtc : Rtc} {s : Display}
    (hreach : (displays rtc).Reachable (fun s e => e.Calm s) s) (hpending : s.pending = [])
    {fuel : Nat} {time : read_rtc.Clock} {last now : read_rtc.Pass} {cmos : Cmos}
    (hread : read_rtc rtc fuel s.cmos = some ((time, last, now), cmos))
    (hspan : rtc.time now.final < rtc.time last.first + 60) (p : Fin 3 → UInt8)
    : ∃ s', (displays rtc).step s (.read p fuel) s' ∧
        let t := rtc.time now.first
        read_rtc.During rtc s.cmos s'.cmos t ∧
        (∃ s'', (displays rtc).Leads (fun s e => e.Beside s ∧ ∀ p fuel, e ≠ .read p fuel) s' s'' ∧
          s''.pending = []) ∧
        ∀ s'', (displays rtc).Leads (fun s e => e.Beside s ∧ ∀ p fuel, e ≠ .read p fuel) s' s'' →
          s''.pending = [] →
            (clock.face (s''.console.cell 24) = clock.spelled (t + 7 * 3600)
                ↔
              t / 60 % 60 ≠ 0 ∧ (t / 3600 + 7) % 24 ≠ 0 ∧
                (rtc.hours_24 = true ∨ t / 3600 % 12 ≠ 0)) := by
  have hgood := Display.Good.of_reachable hreach
  rcases read_rtc.agree_of_read_rtc hread with ⟨hagree, hreads, htime⟩
  have hclock := hagree.clock_eq hspan
  dsimp only at hclock
  rw [← htime] at hclock
  rcases hclock with ⟨hhour, hminute, hsecond⟩
  rcases Display.exists_read hpending (p := p) hread with ⟨s', hstep⟩
  rcases Display.row_of_read hstep hread with ⟨hcols, hcmos, _, hrow⟩
  have hduring : read_rtc.During rtc s.cmos s'.cmos (rtc.time now.first) := by
    have hstart := hagree.start_le
    have hfirst := hagree.first_le
    rw [hcmos]
    exact ⟨rtc.mono (by omega), rtc.mono (by omega)⟩
  refine ⟨s', hstep, hduring, Display.exists_done rtc s'.pending s'.console s'.cmos, ?_⟩
  intro s'' hleads hdone
  have hface := clock.face_congr (Display.row_of_leads hcols hleads)
  have hconsole : s''.row = s''.console.cell 24 := by
    unfold Display.row
    rw [hdone, Writes.apply_nil]
  rw [hconsole, hrow, hhour, hminute, hsecond] at hface
  rw [hface]
  exact clock.spelled_iff hgood.zeros _

-- the first round after the boot, at midnight
theorem clock_shows_iff_midnight
    : ∃ s s' s'' : Display, (displays read_rtc.midnight).init s ∧
        (displays read_rtc.midnight).step s (.read (fun _ => 0) 4) s' ∧
        (displays read_rtc.midnight).Leads (fun s e => e.Beside s ∧ ∀ p fuel, e ≠ .read p fuel)
          s' s'' ∧
        s''.pending = [] ∧
        clock.face (s''.console.cell 24) ≠ clock.spelled (read_rtc.midnight.time 22 + 7 * 3600) := by
  have hread : read_rtc read_rtc.midnight 4 ⟨0, 0⟩
      = some ((⟨0, 0, 0, 1, 1, 2024⟩, ⟨0, 0, 0, 1, 1, 0x24, 0, 15⟩, ⟨0, 0, 0, 1, 1, 0x24, 0, 22⟩),
          ⟨0x0B, 29⟩) := by
    rfl
  let s : Display := ⟨kernel_setup.console ⟨fun _ => 0, 0, 0, ⟨0, 0⟩⟩, ⟨0, 0⟩, []⟩
  have hinit : (displays read_rtc.midnight).init s := ⟨⟨_, rfl⟩, rfl⟩
  rcases clock_shows_iff (s := s) (.init hinit) rfl hread (by decide) (fun _ => 0) with
    ⟨s', hstep, _, ⟨s'', hleads, hdone⟩, hshown⟩
  refine ⟨s, s', s'', hinit, hstep, hleads, hdone, ?_⟩
  intro hface
  exact ((hshown s'' hleads hdone).mp hface).1 rfl

end AiOS
