import AiOS.Process.Lemmas.Destroy
import AiOS.Shell.Line
import AiOS.Shell.Number
import AiOS.Shell.Stay

/-!
This module contains which process `kill` ends.
-/

namespace AiOS

open Fallible

namespace kill

def report (success : Bool) : ShellM Unit :=
  if success then
    print "kill: process killed" 0xF
  else
    print "kill: process termination failed" 0xF

/--
`kill` with any `process_destroy` behind system call 10.
-/
def through (process_destroy : UInt32 → ShellM Bool) (argv : Argv) (argc : Nat) : ShellM Unit :=
  if argc < 2 then
    print "exec: missing argument\n" 0xF
  else if argc > 2 then
    print "exec: too much arguments\n" 0xF
  else do
    let chars ← Fallible.ofOption (strlen.chars (argv.row 1))
    match kill.pid chars 1 with
    | none =>
      print "exec: not a number: " 0xF
      print.chars (argv.row 1) 0xF
      print "\n" 0xF
    | some pid =>
      let success ← process_destroy pid
      report success

def Passes (argv : Argv) (pid : UInt32) : Prop :=
  ∀ process_destroy, through process_destroy argv 2 = process_destroy pid >>= report

def MakesNoRequest (argv : Argv) : Prop :=
  ∀ process_destroy process_destroy', through process_destroy argv 2 = through process_destroy' argv 2

/--
Of the live processes, the one with this pid is killed, and every other one stays as it is.
-/
structure Ends (pid : UInt32) (kernel kernel' : KernelState) : Prop where
  live_iff : ∀ i : Fin 16, kernel'.used_process i = true ↔
    kernel.used_process i = true ∧ UInt32.ofNat i ≠ pid
  killed : ∀ i : Fin 16, kernel.used_process i = true → UInt32.ofNat i = pid →
    (kernel'.process_list i).state = .KILLED
  kept : ∀ i : Fin 16, UInt32.ofNat i ≠ pid → kernel'.process_list i = kernel.process_list i

def Terminates (argv : Argv) (pid : UInt32) (s : Shell) : Prop :=
  ∃ s', kill argv 2 s = some ((), s') ∧ Ends pid s.kernel s'.kernel

structure Signals (argv : Argv) (pid : UInt32) : Prop where
  passes : Passes argv pid
  terminates : ∀ s : Shell, s.kernel.Numbered → Terminates argv pid s

variable {argv : Argv} {chars : List UInt8} {pid : UInt32} {s : Shell}

theorem eq_through : kill = through syscall.process_destroy := by
  rfl

theorem pid_of_digits (h : ∀ c ∈ chars, IsDigit c) (pid : UInt32)
    : kill.pid chars pid = some (pid * UInt32.ofNat (chars.map fun c => (c - 0x30).toNat).prod) := by
  induction chars generalizing pid with
  | nil => simp [kill.pid]
  | cons c chars ih =>
    rw [List.forall_mem_cons] at h
    have hdigit := h.1
    unfold IsDigit at hdigit
    have hin : ¬ (c < 0x30 ∨ 0x39 < c) := by
      rw [not_or, UInt8.not_lt, UInt8.not_lt]
      exact hdigit
    have hcast : (c - 0x30).toUInt32 = UInt32.ofNat (c - 0x30).toNat := by
      rw [← UInt32.toNat_inj, UInt8.toNat_toUInt32, UInt32.toNat_ofNat_of_lt']
      exact Nat.lt_trans (c - 0x30).toNat_lt (by decide)
    rw [kill.pid, if_neg hin, ih h.2, List.map_cons, List.prod_cons, UInt32.ofNat_mul, hcast,
      UInt32.mul_assoc]

theorem lt_of_isDigit (h : ∀ c ∈ chars, IsDigit c)
    : ∀ d ∈ chars.map fun c => (c - 0x30).toNat, d < 10 := by
  intro d hd
  rw [List.mem_map] at hd
  rcases hd with ⟨c, hc, rfl⟩
  have hdigit := h c hc
  unfold IsDigit at hdigit
  rw [UInt8.le_iff_toNat_le, UInt8.le_iff_toNat_le] at hdigit
  rw [UInt8.toNat_sub_of_le _ _ (UInt8.le_iff_toNat_le.mpr hdigit.1)]
  have hlow : (0x30 : UInt8).toNat = 48 := rfl
  have hhigh : (0x39 : UInt8).toNat = 57 := rfl
  omega

theorem prod_le_number (hne : chars ≠ []) (h : ∀ c ∈ chars, IsDigit c)
    : (chars.map fun c => (c - 0x30).toNat).prod ≤ number chars := by
  apply Decimal.prod_le_value _ (lt_of_isDigit h)
  simpa using hne

theorem prod_eq_number_iff (hne : chars ≠ []) (h : ∀ c ∈ chars, IsDigit c)
    : (chars.map fun c => (c - 0x30).toNat).prod = number chars
        ↔
      chars.length = 1 ∨ ∀ c ∈ chars, c = 0x30 := by
  have hzero : ∀ c ∈ chars, (c - 0x30).toNat = 0 ↔ c = 0x30 := by
    intro c _
    constructor
    . intro heq
      have hsub : c - 0x30 = 0 := UInt8.toNat_inj.mp heq
      rw [← UInt8.sub_add_cancel c 0x30, hsub, UInt8.zero_add]
    . intro heq
      rw [heq]
      rfl
  unfold number
  rw [Decimal.prod_eq_value_iff _ (lt_of_isDigit h), List.length_map, List.forall_mem_map]
  . apply or_congr_right
    apply forall_congr'
    intro c
    apply forall_congr'
    apply hzero
  . simpa using hne

theorem pid_of_not_digit (h : ∃ c ∈ chars, ¬ IsDigit c) (pid : UInt32)
    : kill.pid chars pid = none := by
  induction chars generalizing pid with
  | nil => simp at h
  | cons c chars ih =>
    unfold kill.pid
    split
    . rfl
    . next hin =>
      rw [not_or, UInt8.not_lt, UInt8.not_lt] at hin
      rw [List.exists_mem_cons_iff] at h
      rcases h with hhead | htail
      . exact absurd hin hhead
      . apply ih htail

theorem through_of_chars (hchars : strlen.chars (argv.row 1) = some chars)
    (process_destroy : UInt32 → ShellM Bool)
    : through process_destroy argv 2
        =
      match kill.pid chars 1 with
      | none => do
        print "exec: not a number: " 0xF
        print.chars (argv.row 1) 0xF
        print "\n" 0xF
      | some pid => process_destroy pid >>= report := by
  unfold through
  rw [if_neg (by decide), if_neg (by decide), hchars]
  funext s
  rw [ofOption_bind_apply, Option.bind_some]

theorem passes_of_eq (hchars : strlen.chars (argv.row 1) = some chars)
    (hfound : kill.pid chars 1 = some pid)
    : Passes argv pid := by
  intro process_destroy
  rw [through_of_chars hchars, hfound]

theorem eq_of_passes {pid' : UInt32} (s : Shell) (h : Passes argv pid) (h' : Passes argv pid')
    : pid = pid' := by
  by_contra hne
  have hprobe := fun p =>
    congrFun ((h' fun p => ofOption (if p = pid then some true else none)).symm.trans
      (h fun p => ofOption (if p = pid then some true else none))) p
  have hs := hprobe s
  rw [ofOption_bind_apply, ofOption_bind_apply, if_neg (Ne.symm hne), if_pos rfl] at hs
  contradiction

theorem ends_of_process_destroy {kernel : KernelState} (h : kernel.Numbered) (pid : UInt32)
    : ∃ success kernel', process_destroy pid kernel = some (success, kernel') ∧
        Ends pid kernel kernel' := by
  cases hfind : process_destroy.find kernel pid with
  | none =>
    refine ⟨false, kernel, process_destroy_of_find_eq_none hfind, ?_⟩
    have hmiss : ∀ i : Fin 16, kernel.used_process i = true → UInt32.ofNat i ≠ pid := by
      intro i hused heq
      rcases isSome_find_of_used h hused with ⟨j, hj⟩
      rw [heq, hfind] at hj
      contradiction
    constructor
    . intro i
      constructor
      . intro hused
        exact ⟨hused, hmiss i hused⟩
      . intro hused
        exact hused.1
    . intro i hused heq
      exact absurd heq (hmiss i hused)
    . intro i _
      rfl
  | some i =>
    rcases process_destroy_of_find_eq_some h hfind with ⟨kernel', hrun, hcleared⟩
    have hpid := h.pid_of_find hfind
    refine ⟨true, kernel', hrun, ?_⟩
    have hne_iff : ∀ j : Fin 16, UInt32.ofNat j ≠ pid ↔ j ≠ i := by
      intro j
      rw [hpid]
      constructor
      . intro hne heq
        apply hne
        rw [heq]
      . intro hne heq
        apply hne (pid_inj heq)
    constructor
    . intro j
      rw [hcleared.used_process, hne_iff, Function.update_apply]
      by_cases hj : j = i
      . simp [hj]
      . simp [hj]
    . intro j _ heq
      rw [hpid] at heq
      rw [pid_inj heq, hcleared.process_list, Function.update_self]
      rfl
    . intro j hne
      rw [hne_iff] at hne
      rw [hcleared.process_list, Function.update_of_ne hne]

theorem terminates_of_passes (h : Passes argv pid) (hnumbered : s.kernel.Numbered)
    : Terminates argv pid s := by
  rcases ends_of_process_destroy hnumbered pid with ⟨success, kernel', hrun, hends⟩
  have hsyscall : syscall.process_destroy pid s = some (success, { s with kernel := kernel' }) := by
    unfold syscall.process_destroy
    rw [get_bind_apply, ofOption_bind_apply, hrun]
    rfl
  have hreport : ∀ t : Shell, ∃ t', report success t = some ((), t') ∧ t'.kernel = t.kernel := by
    intro t
    unfold report
    split
    . exact ⟨_, rfl, rfl⟩
    . exact ⟨_, rfl, rfl⟩
  rcases hreport { s with kernel := kernel' } with ⟨s', hs', hkernel⟩
  refine ⟨s', ?_, ?_⟩
  . rw [eq_through, h, bind_apply, hsyscall, Option.bind_some, hs']
  . rw [hkernel]
    exact hends

def crowd : Shell :=
  { stray.shell with
    kernel :=
      { stray.shell.kernel with
        process_list := fun i =>
          { ProcessControlBlock.zero with
            pid := UInt32.ofNat i
            state := .READY }
        used_process := fun _ => true
        active_process_count := 16 } }

theorem numbered_crowd : crowd.kernel.Numbered := by
  intro i
  have hused : crowd.kernel.used_process i = true := rfl
  rw [if_pos hused]
  rfl

end kill

/--
`kill` starts from one and multiplies the digits. That is the number that was typed for a single
digit and for zeros alone.
-/
theorem kill_signals_iff (argv : Argv) {chars : List UInt8}
    (hchars : strlen.chars (argv.row 1) = some chars)
    : (chars ≠ [] → (∀ c ∈ chars, IsDigit c) → number chars < 2 ^ 31 →
        (kill.Signals argv (UInt32.ofNat (number chars))
          ↔
        chars.length = 1 ∨ ∀ c ∈ chars, c = 0x30)) ∧
      ((∃ c ∈ chars, ¬ IsDigit c) → kill.MakesNoRequest argv) := by
  constructor
  . intro hne hdigits hlt
    have hfound := kill.pid_of_digits hdigits 1
    rw [UInt32.one_mul] at hfound
    have hpasses := kill.passes_of_eq hchars hfound
    rw [← kill.prod_eq_number_iff hne hdigits]
    constructor
    . intro hsignals
      have heq := congrArg UInt32.toNat (kill.eq_of_passes kill.crowd hpasses hsignals.passes)
      have hle := kill.prod_le_number hne hdigits
      rw [UInt32.toNat_ofNat_of_lt' (by change _ < 2 ^ 32; omega),
        UInt32.toNat_ofNat_of_lt' (by change _ < 2 ^ 32; omega)] at heq
      exact heq
    . intro heq
      rw [heq] at hpasses
      exact ⟨hpasses, fun s hnumbered => kill.terminates_of_passes hpasses hnumbered⟩
  . intro hother process_destroy process_destroy'
    rw [kill.through_of_chars hchars, kill.through_of_chars hchars, kill.pid_of_not_digit hother]

namespace kill

def typed (pid : String) : Argv :=
  lineParser.rows [ascii "kill", ascii pid]

theorem passes_typed_12 : Passes (typed "12") 2 := by
  have hchars : strlen.chars ((typed "12").row 1) = some (ascii "12") := by decide
  apply passes_of_eq hchars
  decide

end kill

theorem kill_signals_7
    : (kill.Signals (kill.typed "7") (UInt32.ofNat (number (ascii "7")))
        ↔
      (ascii "7").length = 1 ∨ ∀ c ∈ ascii "7", c = 0x30) := by
  have hchars : strlen.chars ((kill.typed "7").row 1) = some (ascii "7") := by decide
  apply (kill_signals_iff (kill.typed "7") hchars).1
  . decide
  . intro c hc
    rw [List.mem_singleton.mp hc]
    exact ⟨by decide, by decide⟩
  . decide

/--
`kill 12` ends the process with the pid 2.
-/
theorem not_kill_signals
    : lineParser (ascii "kill 12\n") = some (kill.typed "12", 2) ∧
        strlen.chars ((kill.typed "12").row 1) = some (ascii "12") ∧ number (ascii "12") = 12 ∧
        kill.crowd.kernel.Numbered ∧ kill.Terminates (kill.typed "12") 2 kill.crowd ∧
        ¬ kill.Signals (kill.typed "12") 12 := by
  refine ⟨by decide +kernel, by decide, by decide, kill.numbered_crowd, ?_, ?_⟩
  . apply kill.terminates_of_passes kill.passes_typed_12 kill.numbered_crowd
  . intro hsignals
    have heq := kill.eq_of_passes kill.crowd kill.passes_typed_12 hsignals.passes
    exact absurd heq (by decide)

end AiOS
