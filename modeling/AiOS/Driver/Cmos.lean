import AiOS.Lib.Fallible

/-!
This module contains `cmos.c`, on a clock that goes on while its registers are read.
-/

namespace AiOS

open Fallible

abbrev CURRENT_YEAR : UInt32 := 2024

/--
The real-time clock. `time n` is its time, in seconds from a midnight on, when the data port is read
for the `n`-th time. `day`, `month` and `year` are the registers of the calendar on a day that is
counted in the same way, `registerA` is the register with the update flag, and `other` stands for
the registers that `read_rtc` does not read.
-/
structure Rtc where
  registerB : UInt8
  time : Nat → Nat
  mono : Monotone time
  day : Nat → UInt8
  month : Nat → UInt8
  year : Nat → UInt8
  registerA : Nat → UInt8
  other : UInt8 → Nat → UInt8

namespace Rtc

variable (rtc : Rtc)

def binary : Bool :=
  rtc.registerB &&& 0x04 ≠ 0

def hours_24 : Bool :=
  rtc.registerB &&& 0x02 ≠ 0

def encode (n : Nat) : UInt8 :=
  if rtc.binary then
    UInt8.ofNat n
  else
    UInt8.ofNat (n / 10 * 16 + n % 10)

-- with bit 7 from noon on where the hours go from 1 to 12
def encode_hour (hour : Nat) : UInt8 :=
  if rtc.hours_24 then
    rtc.encode hour
  else
    rtc.encode (if hour % 12 = 0 then 12 else hour % 12) ||| (if hour < 12 then 0 else 0x80)

def register (index : UInt8) (n : Nat) : UInt8 :=
  let t := rtc.time n
  if index = 0x00 then rtc.encode (t % 60)
  else if index = 0x02 then rtc.encode (t / 60 % 60)
  else if index = 0x04 then rtc.encode_hour (t / 3600 % 24)
  else if index = 0x07 then rtc.day (t / 86400)
  else if index = 0x08 then rtc.month (t / 86400)
  else if index = 0x09 then rtc.year (t / 86400)
  else if index = 0x0A then rtc.registerA n
  else if index = 0x0B then rtc.registerB
  else rtc.other index n

end Rtc

structure Cmos where
  address : UInt8
  reads : Nat

abbrev CmosM (α : Type) : Type :=
  Fallible Cmos α

def century_register : UInt8 :=
  0x00

section

variable (rtc : Rtc)

def Rtc.out_address (index : UInt8) : CmosM Unit :=
  modify fun s => { s with address := index }

def Rtc.in_data : CmosM UInt8 := do
  let s ← get
  modify fun s => { s with reads := s.reads + 1 }
  return rtc.register s.address s.reads

def get_update_in_progress_flag : CmosM UInt8 := do
  Rtc.out_address 0x0A
  let flags ← rtc.in_data
  return flags &&& 0x80

def get_RTC_register (reg : UInt8) : CmosM UInt8 := do
  Rtc.out_address reg
  rtc.in_data

namespace read_rtc

/--
What one pass over the registers finds, and the read of the data port with which it begins.
-/
structure Pass where
  second : UInt8
  minute : UInt8
  hour : UInt8
  day : UInt8
  month : UInt8
  year : UInt8
  century : UInt8
  first : Nat

def Pass.final (pass : Pass) : Nat :=
  pass.first + 5

structure Clock where
  second : UInt8
  minute : UInt8
  hour : UInt8
  day : UInt8
  month : UInt8
  year : UInt32

-- a loop that waits, without a result where it does not end within `fuel` passes
def wait (fuel : Nat) : CmosM Unit :=
  match fuel with
  | 0 => Fallible.ofOption none
  | fuel + 1 => do
    let flag ← get_update_in_progress_flag rtc
    if flag ≠ 0 then
      wait fuel
    else
      return ()

def pass (century : UInt8) : CmosM Pass := do
  let s ← get
  let second ← get_RTC_register rtc 0x00
  let minute ← get_RTC_register rtc 0x02
  let hour ← get_RTC_register rtc 0x04
  let day ← get_RTC_register rtc 0x07
  let month ← get_RTC_register rtc 0x08
  let year ← get_RTC_register rtc 0x09
  let century ← if century_register ≠ 0 then get_RTC_register rtc century_register else pure century
  return ⟨second, minute, hour, day, month, year, century, s.reads⟩

def differ (last now : Pass) : Prop :=
  last.second ≠ now.second ∨ last.minute ≠ now.minute ∨ last.hour ≠ now.hour ∨
    last.day ≠ now.day ∨ last.month ≠ now.month ∨ last.year ≠ now.year ∨
    last.century ≠ now.century

instance (last now : Pass) : Decidable (differ last now) :=
  inferInstanceAs (Decidable (_ ∨ _))

-- the `do` loop, which returns its last two passes
def loop (fuel : Nat) (last : Pass) : CmosM (Pass × Pass) :=
  match fuel with
  | 0 => Fallible.ofOption none
  | fuel + 1 => do
    wait rtc fuel
    let now ← pass rtc last.century
    if differ last now then
      loop fuel now
    else
      return (last, now)

def from_bcd (n : UInt8) : UInt8 :=
  (n &&& 0x0F) + n / 16 * 10

def convert (registerB : UInt8) (pass : Pass) : Clock :=
  let clock : Clock :=
    if registerB &&& 0x04 = 0 then
      { second := from_bcd pass.second
        minute := from_bcd pass.minute
        hour := ((pass.hour &&& 0x0F) + (pass.hour &&& 0x70) / 16 * 10) ||| (pass.hour &&& 0x80)
        day := from_bcd pass.day
        month := from_bcd pass.month
        year := (from_bcd pass.year).toUInt32 }
    else
      { second := pass.second
        minute := pass.minute
        hour := pass.hour
        day := pass.day
        month := pass.month
        year := pass.year.toUInt32 }
  let century :=
    if registerB &&& 0x04 = 0 ∧ century_register ≠ 0 then from_bcd pass.century else pass.century
  let clock :=
    if registerB &&& 0x02 = 0 ∧ clock.hour &&& 0x80 ≠ 0 then
      { clock with hour := ((clock.hour &&& 0x7F) + 12) % 24 }
    else
      clock
  if century_register ≠ 0 then
    { clock with year := clock.year + century.toUInt32 * 100 }
  else
    let year := clock.year + CURRENT_YEAR / 100 * 100
    { clock with year := if year < CURRENT_YEAR then year + 100 else year }

end read_rtc

/--
`read_rtc` returns the global variables and, for what is said about them, its last two passes.
-/
def read_rtc (fuel : Nat) : CmosM (read_rtc.Clock × read_rtc.Pass × read_rtc.Pass) := do
  read_rtc.wait rtc fuel
  let first ← read_rtc.pass rtc 0
  let (last, now) ← read_rtc.loop rtc fuel first
  let registerB ← get_RTC_register rtc 0x0B
  return (read_rtc.convert registerB now, last, now)

end

namespace read_rtc

def seen (rtc : Rtc) (n : Nat) (century : UInt8) : Pass :=
  ⟨rtc.register 0x00 n, rtc.register 0x02 (n + 1), rtc.register 0x04 (n + 2),
    rtc.register 0x07 (n + 3), rtc.register 0x08 (n + 4), rtc.register 0x09 (n + 5), century, n⟩

variable {rtc : Rtc} {fuel : Nat} {s s' : Cmos}

theorem pass_apply (century : UInt8) (s : Cmos)
    : pass rtc century s = some (seen rtc s.reads century, ⟨0x09, s.reads + 6⟩) := by
  rfl

theorem wait_reads (h : wait rtc fuel s = some ((), s')) : s.reads ≤ s'.reads := by
  induction fuel generalizing s with
  | zero => contradiction
  | succ fuel ih =>
    unfold wait at h
    rw [bind_eq_some_iff] at h
    rcases h with ⟨flag, t, hflag, hrest⟩
    have ht : t.reads = s.reads + 1 := by
      have heq : some (rtc.registerA s.reads &&& 0x80, (⟨0x0A, s.reads + 1⟩ : Cmos))
          = some (flag, t) := hflag
      rw [Option.some.injEq, Prod.mk.injEq] at heq
      rw [← heq.2]
    split at hrest
    . have := ih hrest
      omega
    . rw [pure_apply, Option.some.injEq, Prod.mk.injEq] at hrest
      rw [← hrest.2]
      omega

structure Agree (rtc : Rtc) (start : Nat) (last now : Pass) : Prop where
  last_eq : ∃ century, last = seen rtc last.first century
  now_eq : ∃ century, now = seen rtc now.first century
  start_le : start ≤ last.first
  first_le : last.first + 6 ≤ now.first
  same : ¬ differ last now

theorem loop_agree {start : Nat} {last last' now : Pass}
    (hlast : ∃ century, last = seen rtc last.first century) (hstart : start ≤ last.first)
    (hfirst : last.first + 6 ≤ s.reads)
    (h : loop rtc fuel last s = some ((last', now), s'))
    : Agree rtc start last' now ∧ s'.reads = now.first + 6 := by
  induction fuel generalizing last s with
  | zero => contradiction
  | succ fuel ih =>
    unfold loop at h
    rw [bind_eq_some_iff] at h
    rcases h with ⟨⟨⟩, t, hwait, hrest⟩
    have hle := wait_reads hwait
    rw [bind_apply, pass_apply, Option.bind_some] at hrest
    dsimp only at hrest
    split at hrest
    . apply ih _ _ _ hrest
      . exact ⟨last.century, rfl⟩
      . change start ≤ t.reads
        omega
      . change t.reads + 6 ≤ t.reads + 6
        omega
    . next hsame =>
      rw [pure_apply, Option.some.injEq, Prod.mk.injEq, Prod.mk.injEq] at hrest
      rcases hrest with ⟨⟨rfl, rfl⟩, rfl⟩
      refine ⟨⟨hlast, ⟨last.century, rfl⟩, hstart, ?_, hsame⟩, rfl⟩
      change last.first + 6 ≤ t.reads
      omega

theorem agree_of_read_rtc {clock : Clock} {last now : Pass}
    (h : read_rtc rtc fuel s = some ((clock, last, now), s'))
    : Agree rtc s.reads last now ∧ s'.reads = now.first + 7 ∧
        clock = convert rtc.registerB now := by
  unfold read_rtc at h
  rw [bind_eq_some_iff] at h
  rcases h with ⟨⟨⟩, t, hwait, hrest⟩
  have hle := wait_reads hwait
  rw [bind_apply, pass_apply, Option.bind_some, bind_eq_some_iff] at hrest
  rcases hrest with ⟨⟨last', now'⟩, u, hloop, hrest⟩
  rcases loop_agree ⟨0, rfl⟩ hle (Nat.le_refl _) hloop with ⟨hagree, hreads⟩
  have heq : some ((convert rtc.registerB now', last', now'), (⟨0x0B, u.reads + 1⟩ : Cmos))
      = some ((clock, last, now), s') := hrest
  rw [Option.some.injEq, Prod.mk.injEq, Prod.mk.injEq, Prod.mk.injEq] at heq
  rcases heq with ⟨⟨rfl, rfl, rfl⟩, rfl⟩
  refine ⟨hagree, ?_, rfl⟩
  dsimp only
  omega

/--
What becomes of an hour. Without the 24 hours, noon and midnight change places.
-/
def shown_hour (rtc : Rtc) (hour : Nat) : Nat :=
  if rtc.hours_24 = false ∧ hour % 12 = 0 then 12 - hour else hour

theorem from_bcd_of_lt {n : Nat} (hn : n < 60)
    : from_bcd (UInt8.ofNat (n / 10 * 16 + n % 10)) = UInt8.ofNat n := by
  have h : ∀ n : Fin 60, from_bcd (UInt8.ofNat (n.val / 10 * 16 + n.val % 10)) = UInt8.ofNat n := by
    decide
  exact h ⟨n, hn⟩

def hour_from_bcd (hour : UInt8) : UInt8 :=
  ((hour &&& 0x0F) + (hour &&& 0x70) / 16 * 10) ||| (hour &&& 0x80)

theorem hour_from_bcd_of_lt {n : Nat} (hn : n < 24)
    : hour_from_bcd (UInt8.ofNat (n / 10 * 16 + n % 10)) = UInt8.ofNat n ∧
      hour_from_bcd (UInt8.ofNat (n / 10 * 16 + n % 10) ||| 0x80) = UInt8.ofNat n ||| 0x80 := by
  have h : ∀ n : Fin 24,
      hour_from_bcd (UInt8.ofNat (n.val / 10 * 16 + n.val % 10)) = UInt8.ofNat n ∧
      hour_from_bcd (UInt8.ofNat (n.val / 10 * 16 + n.val % 10) ||| 0x80)
        = UInt8.ofNat n ||| 0x80 := by
    decide
  exact h ⟨n, hn⟩

theorem encode_inj {a b : Nat} (ha : a < 60) (hb : b < 60) (h : rtc.encode a = rtc.encode b)
    : a = b := by
  have hnat := congrArg UInt8.toNat h
  unfold Rtc.encode at hnat
  split at hnat
  . rw [UInt8.toNat_ofNat', UInt8.toNat_ofNat'] at hnat
    omega
  . rw [UInt8.toNat_ofNat', UInt8.toNat_ofNat'] at hnat
    omega

variable {last now : Pass} {start : Nat}

-- as both passes found the same second, the clock has not gone on from the first to the second
theorem Agree.time_eq (h : Agree rtc start last now)
    (hspan : rtc.time now.final < rtc.time last.first + 60) {n : Nat} (hle : last.first ≤ n)
    (hle' : n ≤ now.first)
    : rtc.time n = rtc.time now.first := by
  rcases h.last_eq with ⟨century, hlast⟩
  rcases h.now_eq with ⟨century', hnow⟩
  have hlow := rtc.mono hle
  have hhigh := rtc.mono hle'
  have hend : rtc.time now.first ≤ rtc.time now.final := rtc.mono (Nat.le_add_right _ _)
  have hsecond : rtc.encode (rtc.time last.first % 60) = rtc.encode (rtc.time now.first % 60) := by
    have hsame := h.same
    unfold differ at hsame
    rw [not_or, not_not] at hsame
    have heq := hsame.1
    rw [hlast, hnow] at heq
    exact heq
  have hmod := encode_inj (Nat.mod_lt _ (by decide)) (Nat.mod_lt _ (by decide)) hsecond
  omega

theorem Agree.registers (h : Agree rtc start last now)
    (hspan : rtc.time now.final < rtc.time last.first + 60)
    : let t := rtc.time now.first
      now.second = rtc.encode (t % 60) ∧ now.minute = rtc.encode (t / 60 % 60) ∧
        now.hour = rtc.encode_hour (t / 3600 % 24) := by
  rcases h.last_eq with ⟨century, hlast⟩
  rcases h.now_eq with ⟨century', hnow⟩
  have hsame := h.same
  have hle := h.first_le
  unfold differ at hsame
  simp only [not_or, not_not] at hsame
  dsimp only
  refine ⟨?_, ?_, ?_⟩
  . rw [hnow]
    rfl
  . have hminute := h.time_eq hspan (n := last.first + 1) (by omega) (by omega)
    rw [← hsame.2.1, ← hminute, hlast]
    rfl
  . have hhour := h.time_eq hspan (n := last.first + 2) (by omega) (by omega)
    rw [← hsame.2.2.1, ← hhour, hlast]
    rfl

theorem decode_encode {n : Nat} (hn : n < 60)
    : (if rtc.registerB &&& 0x04 = 0 then from_bcd (rtc.encode n) else rtc.encode n)
        = UInt8.ofNat n := by
  unfold Rtc.encode Rtc.binary
  split
  . next hbcd =>
    rw [if_neg (by simp [hbcd]), from_bcd_of_lt hn]
  . next hbinary => rw [if_pos (by simpa using hbinary)]

theorem decode_hour {n : Nat} (hn : n < 24)
    : (if rtc.registerB &&& 0x04 = 0 then hour_from_bcd (rtc.encode_hour n) else rtc.encode_hour n)
        =
      if rtc.hours_24 then
        UInt8.ofNat n
      else
        UInt8.ofNat (if n % 12 = 0 then 12 else n % 12) ||| (if n < 12 then 0 else 0x80) := by
  have h12 : (if n % 12 = 0 then 12 else n % 12) < 24 := by
    split
    . omega
    . omega
  unfold Rtc.encode_hour Rtc.encode Rtc.binary
  generalize (if n % 12 = 0 then 12 else n % 12) = m at h12
  split
  . next hbcd =>
    have hbinary : decide (rtc.registerB &&& 0x04 ≠ 0) = false := by simp [hbcd]
    simp only [hbinary, Bool.false_eq_true, if_false]
    split
    . exact (hour_from_bcd_of_lt hn).1
    . split
      . rw [UInt8.or_zero, UInt8.or_zero]
        exact (hour_from_bcd_of_lt h12).1
      . exact (hour_from_bcd_of_lt h12).2
  . next hbinary =>
    have hbinary' : decide (rtc.registerB &&& 0x04 ≠ 0) = true := by simpa using hbinary
    simp only [hbinary', if_true]

theorem shown_of_decoded {n : Nat} (hn : n < 24)
    : let hour :=
        if rtc.hours_24 then
          UInt8.ofNat n
        else
          UInt8.ofNat (if n % 12 = 0 then 12 else n % 12) ||| (if n < 12 then 0 else 0x80)
      (if rtc.registerB &&& 0x02 = 0 ∧ hour &&& 0x80 ≠ 0 then ((hour &&& 0x7F) + 12) % 24 else hour)
        =
      UInt8.ofNat (shown_hour rtc n) := by
  have h : ∀ n : Fin 24,
      let hour : UInt8 :=
        UInt8.ofNat (if n.val % 12 = 0 then 12 else n.val % 12) ||| (if n.val < 12 then 0 else 0x80)
      (if hour &&& 0x80 ≠ 0 then ((hour &&& 0x7F) + 12) % 24 else hour)
        = UInt8.ofNat (if n.val % 12 = 0 then 12 - n.val else n.val) := by
    decide
  have hmode : rtc.hours_24 = true ↔ rtc.registerB &&& 0x02 ≠ 0 := by
    unfold Rtc.hours_24
    rw [decide_eq_true_eq]
  unfold shown_hour
  dsimp only
  cases h24 : rtc.hours_24 with
  | true =>
    rw [hmode] at h24
    rw [if_neg fun hand => h24 hand.1]
    simp
  | false =>
    have hclear : rtc.registerB &&& 0x02 = 0 := by
      by_contra hne
      rw [hmode.mpr hne] at h24
      contradiction
    simp only [hclear, true_and]
    exact h ⟨n, hn⟩

theorem convert_time (registerB : UInt8) (pass : Pass)
    : let hour := if registerB &&& 0x04 = 0 then hour_from_bcd pass.hour else pass.hour
      let clock := convert registerB pass
      clock.hour =
          (if registerB &&& 0x02 = 0 ∧ hour &&& 0x80 ≠ 0 then ((hour &&& 0x7F) + 12) % 24
          else hour) ∧
        clock.minute = (if registerB &&& 0x04 = 0 then from_bcd pass.minute else pass.minute) ∧
        clock.second = (if registerB &&& 0x04 = 0 then from_bcd pass.second else pass.second) := by
  unfold convert century_register hour_from_bcd
  simp only [ne_eq, not_true_eq_false, if_false]
  by_cases hbcd : registerB &&& 0x04 = 0
  . simp only [hbcd, if_true]
    split
    . exact ⟨rfl, rfl, rfl⟩
    . exact ⟨rfl, rfl, rfl⟩
  . simp only [hbcd, if_false]
    split
    . exact ⟨rfl, rfl, rfl⟩
    . exact ⟨rfl, rfl, rfl⟩

structure Clock.Shows (clock : Clock) (t : Nat) : Prop where
  hour : clock.hour.toNat = t / 3600 % 24
  minute : clock.minute.toNat = t / 60 % 60
  second : clock.second.toNat = t % 60

/--
The times of the clock from the first to the last read of a call.
-/
def During (rtc : Rtc) (s s' : Cmos) (t : Nat) : Prop :=
  rtc.time s.reads ≤ t ∧ t ≤ rtc.time (s'.reads - 1)

theorem shown_hour_lt (rtc : Rtc) {n : Nat} (hn : n < 24) : shown_hour rtc n < 24 := by
  unfold shown_hour
  split
  . omega
  . exact hn

theorem Agree.clock_eq (h : Agree rtc start last now)
    (hspan : rtc.time now.final < rtc.time last.first + 60)
    : let t := rtc.time now.first
      let clock := convert rtc.registerB now
      clock.hour.toNat = shown_hour rtc (t / 3600 % 24) ∧ clock.minute.toNat = t / 60 % 60 ∧
        clock.second.toNat = t % 60 := by
  have hregisters := h.registers hspan
  dsimp only at hregisters ⊢
  generalize rtc.time now.first = t at hregisters
  rcases hregisters with ⟨hsecond, hminute, hhour⟩
  have hhours : t / 3600 % 24 < 24 := Nat.mod_lt _ (by decide)
  have hminutes : t / 60 % 60 < 60 := Nat.mod_lt _ (by decide)
  have hseconds : t % 60 < 60 := Nat.mod_lt _ (by decide)
  have hconvert := convert_time rtc.registerB now
  dsimp only at hconvert
  rw [hhour, hminute, hsecond, decode_hour hhours, shown_of_decoded hhours, decode_encode hminutes,
    decode_encode hseconds] at hconvert
  refine ⟨?_, ?_, ?_⟩
  . have hshown := shown_hour_lt rtc hhours
    rw [hconvert.1, UInt8.toNat_ofNat']
    omega
  . rw [hconvert.2.1, UInt8.toNat_ofNat']
    omega
  . rw [hconvert.2.2, UInt8.toNat_ofNat']
    omega

theorem shows_iff {clock : Clock} {t t' : Nat}
    (hhour : clock.hour.toNat = shown_hour rtc (t / 3600 % 24))
    (hminute : clock.minute.toNat = t / 60 % 60) (hsecond : clock.second.toNat = t % 60)
    : clock.Shows t' ↔
      t' % 86400 =
        (if rtc.hours_24 = false ∧ t / 3600 % 12 = 0 then t + 43200 else t) % 86400 := by
  have hmod : t / 3600 % 24 % 12 = t / 3600 % 12 := by omega
  have hdef : clock.Shows t' ↔
      clock.hour.toNat = t' / 3600 % 24 ∧ clock.minute.toNat = t' / 60 % 60 ∧
        clock.second.toNat = t' % 60 :=
    ⟨fun h => ⟨h.hour, h.minute, h.second⟩, fun h => ⟨h.1, h.2.1, h.2.2⟩⟩
  unfold shown_hour at hhour
  rw [hmod] at hhour
  rw [hdef, hhour, hminute, hsecond]
  split
  . omega
  . omega

/--
What `read_rtc` finds is a time of the call, unless the hours go from 1 to 12 and it is noon or
midnight: these two it takes for each other.
-/
theorem read_rtc_consistent_iff {clock : Clock} {last now : Pass}
    (h : read_rtc rtc fuel s = some ((clock, last, now), s'))
    (hspan : rtc.time now.final < rtc.time last.first + 60)
    : (∃ t, During rtc s s' t ∧ clock.Shows t) ↔
      (rtc.hours_24 = true ∨ rtc.time now.first / 3600 % 12 ≠ 0 ∨
        ∃ t, During rtc s s' t ∧ t % 86400 = (rtc.time now.first + 43200) % 86400) := by
  rcases agree_of_read_rtc h with ⟨hagree, hreads, rfl⟩
  rcases hagree.clock_eq hspan with ⟨hhour, hminute, hsecond⟩
  have hduring : During rtc s s' (rtc.time now.first) := by
    have hstart := hagree.start_le
    have hfirst := hagree.first_le
    exact ⟨rtc.mono (by omega), rtc.mono (by omega)⟩
  simp only [shows_iff hhour hminute hsecond]
  by_cases hnoon : rtc.hours_24 = false ∧ rtc.time now.first / 3600 % 12 = 0
  . simp [hnoon]
  . simp only [hnoon, if_false]
    refine ⟨fun _ => ?_, fun _ => ⟨_, hduring, rfl⟩⟩
    rw [not_and_or, Bool.not_eq_false] at hnoon
    tauto

/--
A clock that shows 23:59:59 until it is read for the ninth time, and midnight from then on.
-/
def midnight : Rtc where
  registerB := 0x02
  time n := if n < 9 then 86399 else 86400
  mono := by
    intro m n hle
    dsimp only
    split
    . split
      . omega
      . omega
    . rw [if_neg (by omega)]
  day _ := 1
  month _ := 1
  year _ := 0x24
  registerA _ := 0
  other _ _ := 0

theorem read_rtc_consistent_midnight
    : (∃ t, During midnight ⟨0, 0⟩ ⟨0x0B, 29⟩ t ∧ Clock.Shows ⟨0, 0, 0, 1, 1, 2024⟩ t) ↔
      (midnight.hours_24 = true ∨ midnight.time 22 / 3600 % 12 ≠ 0 ∨
        ∃ t, During midnight ⟨0, 0⟩ ⟨0x0B, 29⟩ t ∧
          t % 86400 = (midnight.time 22 + 43200) % 86400) := by
  have h : read_rtc midnight 4 ⟨0, 0⟩
      = some ((⟨0, 0, 0, 1, 1, 2024⟩, ⟨0, 0, 0, 1, 1, 0x24, 0, 15⟩, ⟨0, 0, 0, 1, 1, 0x24, 0, 22⟩),
          ⟨0x0B, 29⟩) := by
    rfl
  exact read_rtc_consistent_iff h (by decide)

def noon : Rtc where
  registerB := 0x00
  time _ := 43200
  mono _ _ _ := Nat.le_refl _
  day _ := 1
  month _ := 1
  year _ := 0x24
  registerA _ := 0
  other _ _ := 0

theorem not_read_rtc_consistent
    : ¬ ∀ (rtc : Rtc) (fuel : Nat) (s s' : Cmos) (clock : Clock) (last now : Pass),
        read_rtc rtc fuel s = some ((clock, last, now), s') →
        rtc.time now.final < rtc.time last.first + 60 →
        ∃ t, During rtc s s' t ∧ clock.Shows t := by
  intro h
  have hrun : read_rtc noon 4 ⟨0, 0⟩
      = some ((⟨0, 0, 0, 1, 1, 2024⟩, ⟨0, 0, 0x92, 1, 1, 0x24, 0, 1⟩, ⟨0, 0, 0x92, 1, 1, 0x24, 0, 8⟩),
          ⟨0x0B, 15⟩) := by
    rfl
  rcases h noon 4 _ _ _ _ _ hrun (by decide) with ⟨t, hduring, hshows⟩
  have ht : t = 43200 := Nat.le_antisymm hduring.2 hduring.1
  have hhour := hshows.hour
  rw [ht] at hhour
  revert hhour
  decide

end read_rtc

end AiOS
