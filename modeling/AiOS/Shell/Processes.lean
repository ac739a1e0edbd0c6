import AiOS.Process.Naming
import AiOS.Shell.Listing
import AiOS.Shell.Number

/-!
This module proves that `ps` shows the processes that live and the names they were created with.
-/

namespace AiOS

theorem shows_forM {ι : Type} {l : List ι} {q : ι → ShellM Unit}
    {o : ι → List (List UInt8 × UInt32)} {kernel : KernelState}
    (h : ∀ a ∈ l, ∀ s : Shell, s.kernel = kernel → q a s = some ((), s.put (o a))) {s : Shell}
    (hs : s.kernel = kernel)
    : l.forM q s = some ((), s.put (l.flatMap o)) := by
  induction l generalizing s with
  | nil =>
    rw [List.flatMap_nil, Shell.put_nil]
    rfl
  | cons a l ih =>
    rw [List.forall_mem_cons] at h
    rw [List.flatMap_cons]
    change (q a >>= fun _ => l.forM q) s = _
    rw [Fallible.bind_apply, h.1 s hs, Option.bind_some]
    dsimp only
    rw [ih (s := s.put (o a)) h.2 hs, Shell.put_put]

namespace ps

def text (i : Fin 16) (name : Fin 8 → UInt8) : List UInt8 :=
  ascii "pid: " ++ ascii (toString i.val) ++ ascii "\nname: " ++ name_chars name ++ ascii "\n"

def lines (i : Fin 16) (name : Fin 8 → UInt8) : List (List UInt8 × UInt32) :=
  (if i = 0 then
    [(ascii "pid: 0\n", 0xF)]
  else
    [(ascii "pid: ", 0xF), (numeral i, 0xF), (ascii "\n", 0xF)]) ++
    [(ascii "name: ", 0xF), (name_chars name, 0xF), (ascii "\n", 0xF)]

theorem numeral_eq {i : Fin 16} (hi : i ≠ 0) : numeral i = ascii (toString i.val) := by
  revert i
  decide +kernel

theorem chars_lines (i : Fin 16) (name : Fin 8 → UInt8)
    : printed.chars (lines i name) = text i name := by
  have hname : ascii "\n" ++ (ascii "name: " ++ (name_chars name ++ ascii "\n"))
      = ascii "\nname: " ++ (name_chars name ++ ascii "\n") := by
    rfl
  unfold lines text printed.chars
  split
  . next hi =>
    rw [hi]
    rfl
  . next hi =>
    simp only [List.flatMap_append, List.flatMap_cons, List.flatMap_nil, List.append_nil,
      List.append_assoc, numeral_eq hi, hname]

theorem takeWhile_padded (name : Fin 8 → UInt8)
    : ((List.ofFn (padded name)).takeWhile fun c => c ≠ 0) = name_chars name := by
  have hsplit : List.ofFn (padded name) = List.ofFn name ++ [0, 0] := by
    rfl
  rw [hsplit, name_chars, takeWhile_append_eq_iff]
  exact Or.inr rfl

variable {s : Shell} {i : Fin 16} {name : Fin 8 → UInt8}

theorem name_apply (h : (s.kernel.process_list i).name = padded name)
    : ps.name i s
        =
      some ((), s.put [(ascii "name: ", 0xF), (name_chars name, 0xF), (ascii "\n", 0xF)]) := by
  unfold ps.name
  rw [Fallible.bind_apply, print, printlen_apply, Option.bind_some, Fallible.get_bind_apply]
  dsimp only
  rw [Shell.put_kernel, h, takeWhile_padded]
  simp only [print, Fallible.bind_apply, printlen_apply, Option.bind_some, Shell.put_put,
    List.cons_append, List.nil_append]

theorem numbered_apply (h : (s.kernel.process_list i).name = padded name) (hi : i ≠ 0)
    : (do
        let str ← Fallible.ofOption (int_to_string (fun _ : Fin 10 => 0) (UInt32.ofNat i).toNat)
        print "pid: " 0xF
        print.chars (List.ofFn str) 0xF
        print "\n" 0xF
        ps.name i : ShellM Unit) s = some ((), s.put (lines i name)) := by
  have hlt : ∀ i : Fin 16, (numeral i).length < 10 := by
    decide +kernel
  rcases int_to_string.exists_written (hlt i) (fun _ => 0) with ⟨str, hstr, hchars, _⟩
  unfold lines
  rw [toNat_pid, hstr, if_neg hi, Fallible.ofOption_bind_apply, Option.bind_some, Fallible.bind_apply,
    print, printlen_apply, Option.bind_some, Fallible.bind_apply, print_chars_apply hchars,
    Option.bind_some, Fallible.bind_apply, print, printlen_apply, Option.bind_some]
  dsimp only
  rw [name_apply (s := ((s.put _).put _).put _) h]
  simp only [Shell.put_put, List.cons_append, List.nil_append]

theorem process_list_of_used (h : s.kernel.Numbered) (hused : s.kernel.used_process i = true)
    : ps.process_list s.kernel i = UInt32.ofNat i := by
  unfold process_list
  rw [if_pos hused, h i, if_pos hused]

theorem process_list_ne_iff (h : s.kernel.Numbered)
    : ps.process_list s.kernel i ≠ 0xFFFFFFFF ↔ s.kernel.used_process i = true := by
  have hne : ∀ i : Fin 16, UInt32.ofNat i ≠ 0xFFFFFFFF := by
    decide
  by_cases hused : s.kernel.used_process i = true
  . rw [process_list_of_used h hused, iff_true_right hused]
    exact hne i
  . unfold process_list
    rw [if_neg hused, iff_false_right hused, not_not]

theorem others_apply {live : Fin 16 → Bool} {names : Fin 16 → Fin 8 → UInt8}
    (hnumbered : s.kernel.Numbered) (hused : s.kernel.used_process = live)
    (hname : ∀ i, live i = true → (s.kernel.process_list i).name = padded (names i)) {t : Shell}
    (ht : t.kernel = s.kernel)
    : (((List.finRange 16).drop 1).forM fun i => do
        if ps.process_list s.kernel i ≠ 0xFFFFFFFF then
          let str ← Fallible.ofOption
            (int_to_string (fun _ : Fin 10 => 0) (ps.process_list s.kernel i).toNat)
          print "pid: " 0xF
          print.chars (List.ofFn str) 0xF
          print "\n" 0xF
          ps.name i) t
        =
      some ((), t.put (((List.finRange 16).drop 1).flatMap fun i =>
        if live i then lines i (names i) else [])) := by
  apply shows_forM _ ht
  intro i hi t ht
  have hi : i ≠ 0 := by
    intro hzero
    rw [hzero] at hi
    revert hi
    decide
  by_cases hlive : live i = true
  . have hi' : s.kernel.used_process i = true := by
      rw [hused, hlive]
    rw [if_pos ((process_list_ne_iff hnumbered).mpr hi'), process_list_of_used hnumbered hi',
      if_pos hlive]
    apply numbered_apply _ hi
    rw [ht, hname i hlive]
  . rw [if_neg, if_neg hlive, Shell.put_nil]
    . rfl
    . rw [process_list_ne_iff hnumbered, hused]
      exact hlive

theorem run {argc : Nat} (hargc : argc ≤ 1) {live : Fin 16 → Bool} {names : Fin 16 → Fin 8 → UInt8}
    (hnumbered : s.kernel.Numbered) (hused : s.kernel.used_process = live)
    (hname : ∀ i, live i = true → (s.kernel.process_list i).name = padded (names i))
    : ps argc s
        =
      some ((), s.put ((ascii "Active Processes: \n", 0xF) ::
        ((List.finRange 16).filter live).flatMap fun i => lines i (names i))) := by
  have hslots : (((List.finRange 16).filter live).flatMap fun i => lines i (names i))
      = (if live 0 then lines 0 (names 0) else []) ++
          ((List.finRange 16).drop 1).flatMap fun i => if live i then lines i (names i) else [] := by
    rw [flatMap_filter]
    rfl
  unfold ps
  rw [if_neg (by omega), Fallible.get_bind_apply]
  dsimp only
  rw [Fallible.bind_apply, print, printlen_apply, Option.bind_some]
  rw [hslots]
  dsimp only
  by_cases hlive : live 0 = true
  . have hi' : s.kernel.used_process 0 = true := by
      rw [hused, hlive]
    rw [if_pos ((process_list_ne_iff hnumbered).mpr hi'), Fallible.bind_apply, print, printlen_apply,
      Option.bind_some, Fallible.bind_apply]
    dsimp only
    rw [name_apply (s := (s.put _).put _) (hname 0 hlive), Option.bind_some]
    dsimp only
    rw [others_apply hnumbered hused hname (t := ((s.put _).put _).put _) rfl, if_pos hlive]
    simp only [Shell.put_put, lines, if_pos, List.cons_append, List.nil_append]
  . rw [if_neg, others_apply hnumbered hused hname (t := s.put _) rfl, if_neg hlive, Shell.put_put]
    . rfl
    . rw [process_list_ne_iff hnumbered, hused]
      exact hlive

end ps

/--
In every run of the kernel, `ps` shows the processes that were created and not destroyed since, in
the order of their slots, each with its slot as the pid and with the name it was created with.
-/
theorem ps_lists {layout : Layout} {ok : Session → Event → Prop} {w w' : Session}
    {steps : List (Session × Event × Session)} (hinit : (sessions layout).init w)
    (hrun : (sessions layout).Run ok w steps w') {s : Shell} (hkernel : s.kernel = w'.kernel)
    {argc : Nat} (hargc : argc ≤ 1)
    : ∃ output, ps argc s = some ((), s.put output) ∧
        printed.chars output
            =
          ascii "Active Processes: \n" ++
            ((List.finRange 16).filter w'.live).flatMap fun i =>
              ps.text i (Session.name i steps) := by
  have htitled := Session.Titled.of_run hinit hrun
  rcases htitled.sound with ⟨n, hsound⟩
  have hnumbered : s.kernel.Numbered := by
    rw [hkernel]
    exact hsound.kernel.numbered
  have hused : s.kernel.used_process = w'.live := by
    rw [hkernel, hsound.live]
  have hname : ∀ i, w'.live i = true →
      (s.kernel.process_list i).name = padded (Session.name i steps) := by
    intro i hlive
    rw [hkernel, htitled.name i hlive]
  refine ⟨_, ps.run hargc hnumbered hused hname, ?_⟩
  unfold printed.chars
  rw [List.flatMap_cons, List.flatMap_assoc]
  congr 1
  congr 1
  funext i
  apply ps.chars_lines

-- of the three processes that were there, the second has been destroyed
theorem ps_lists_destroyed
    : ∃ w₀ w₁ w₂ w s output, (sessions .low).init w₀ ∧
        w₀.exec .low (.create kernel_setup.request) = some w₁ ∧
        w₁.exec .low (.create kernel_setup.request) = some w₂ ∧
        w₂.exec .low (.destroy 1) = some w ∧ s.kernel = w.kernel ∧
        ps 1 s = some ((), s.put output) ∧
        printed.chars output
          = ascii "Active Processes: \npid: 0\nname: shell\npid: 2\nname: shell\n" := by
  rcases Session.exists_grown with ⟨w₀, hinit, _, hgrown₀⟩
  rcases hgrown₀.create (by omega) with ⟨w₁, _, hfirst, hgrown₁, _⟩
  rcases hgrown₁.create (by omega) with ⟨w₂, _, hsecond, hgrown₂, _⟩
  rcases hgrown₂.sound with ⟨n, _, hsound⟩
  have hlive₂ : w₂.live 1 = true := (hgrown₂.filled 1).mpr (by decide)
  rcases Session.exec_destroy_of_live .low hsound hlive₂ with ⟨w, hdestroy, _, hlive⟩
  have hrun : (sessions .low).Run (fun _ _ => True) w₀
      [(w₀, .create kernel_setup.request, w₁), (w₁, .create kernel_setup.request, w₂),
        (w₂, .destroy 1, w)] w :=
    .tail (.tail (.tail .refl trivial hfirst) trivial hsecond) trivial hdestroy
  have hleft : w.live = fun i => decide (i = 0 ∨ i = 2) := by
    rw [hlive]
    funext i
    by_cases hi : i = 1
    . rw [hi, Function.update_self]
      rfl
    . rw [Function.update_of_ne hi, Bool.eq_iff_iff, hgrown₂.filled, decide_eq_true_iff]
      omega
  let s : Shell := { newborn.shell write.populated with kernel := w.kernel }
  rcases ps_lists (s := s) hinit hrun rfl (Nat.le_refl 1) with ⟨output, hps, hchars⟩
  refine ⟨w₀, w₁, w₂, w, s, output, hinit, hfirst, hsecond, hdestroy, rfl, hps, ?_⟩
  have hname : ∀ i, Session.name i [(w₀, .create kernel_setup.request, w₁),
      (w₁, .create kernel_setup.request, w₂), (w₂, .destroy 1, w)]
        = kernel_setup.request.name := by
    intro i
    apply Session.name_of_requests
    intro s request s' hmem
    simp only [List.mem_cons, Prod.mk.injEq, Event.create.injEq, List.not_mem_nil, reduceCtorEq,
      false_and, and_false, or_false] at hmem
    rcases hmem with ⟨_, heq, _⟩ | ⟨_, heq, _⟩
    . rw [heq]
    . rw [heq]
  simp only [hchars, hleft, hname]
  decide +kernel

end AiOS
