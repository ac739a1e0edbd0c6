import AiOS.Shell.Descent
import AiOS.Shell.Move

/-!
This module contains when `cp` ends, goes no deeper than the directory that it copies, and keeps the
paths that it builds within their buffers.
-/

namespace AiOS

open Fallible

/--
The name and the extension that `cpHelper` asks for where the path names a file.
-/
def Path.file (path : Path) : Option ((Fin 8 → UInt8) × (Fin 3 → UInt8)) :=
  mv.file_name (spell path.absolute path.words ++ [0])

theorem Path.exists_parse {path : Path} {name : Fin 8 → UInt8} {ext : Fin 3 → UInt8}
    (hfile : path.file = some (name, ext)) {argv : Argv}
    (hargv : argv.Holds (spell path.absolute path.words))
    : ∃ pathList pathCount output count, parsePath (argv.row 1) = some (pathList, pathCount) ∧
        parseExt (pathList.row (pathCount - 1)) = some (output, count) ∧
        bytes 8 (output.row 0) = some name ∧ bytes 3 (output.row 1) = some ext := by
  rcases hargv with ⟨rest, hrow⟩
  unfold Path.file mv.file_name at hfile
  rw [path.spellable.parsePath_spell, Option.bind_eq_bind, Option.bind_some] at hfile
  dsimp only at hfile
  rw [Option.bind_eq_bind, Option.bind_eq_some_iff] at hfile
  rcases hfile with ⟨⟨output, count⟩, hext, hfile⟩
  dsimp only at hfile
  rw [Option.bind_eq_bind, Option.bind_eq_some_iff] at hfile
  rcases hfile with ⟨name', hname, hfile⟩
  rw [Option.bind_eq_some_iff] at hfile
  rcases hfile with ⟨ext', hext', hfile⟩
  rw [Option.pure_def, Option.some.injEq, Prod.mk.injEq] at hfile
  rw [hfile.1] at hname
  rw [hfile.2] at hext'
  refine ⟨_, _, output, count, ?_, hext, hname, hext'⟩
  rw [hrow, path.spellable.parsePath_spell]

namespace cp

variable {s : Shell} {source target : Path}

theorem yields_cd {argv : Argv} {absolute : Bool} {words : List (List UInt8)}
    (hargv : argv.Carries absolute words) (isdir : Bool) (d : Disk)
    : Yields (fun t : Shell => t.kernel.disk = d) (cd argv 2 isdir) fun _ t =>
        t.kernel.disk = d := by
  intro t ht
  rcases cd.run_spell hargv.spellable hargv.holds isdir t with ⟨outcome, hrun, _⟩
  exact ⟨_, _, hrun, ht⟩

theorem yields_file {argvS argvD : Argv} (hargvS : argvS.Carries source.absolute source.words)
    {absolute : Bool} {words : List (List UInt8)} (hargvD : argvD.Carries absolute words)
    {d : Disk} (hreadable : ∃ base, source.file = some base ∧ d.Readable base.1 base.2)
    (lastpath : Fin 8 → UInt8)
    : Yields (fun t : Shell => t.kernel.disk = d) (cpHelper.file argvS argvD lastpath) fun _ _ =>
        True := by
  rcases hreadable with ⟨⟨name, ext⟩, hfile, hreadable⟩
  rcases source.exists_parse hfile hargvS.holds with
    ⟨pathList, pathCount, output, count, hparse, hext⟩
  unfold cpHelper.file
  apply Yields.bind (yields_cd hargvS false d)
  intro _
  apply Yields.get_bind
  intro t _
  dsimp only
  cases write.slots.find? (fun i =>
      (t.dirTable i).user_attribute = UATTR_NOT_EMPTY ∧ cpHelper.plain_file (t.dirTable i) ∧
        memcmp (t.dirTable i).name lastpath = 0) with
  | none =>
    apply Yields.of_pure
    intro u _
    trivial
  | some i =>
    dsimp only
    apply Yields.ofOption_bind hparse
    dsimp only
    apply Yields.ofOption_bind hext.1
    apply Yields.ofOption_bind hext.2.1
    apply Yields.ofOption_bind hext.2.2
    have hload : Yields (fun t : Shell => t.kernel.disk = d) (cpHelper.load name ext) fun _ t =>
        t.kernel.disk = d := by
      intro u hu
      rw [← hu] at hreadable
      rcases cpHelper.load_spec hreadable with ⟨memory, request, u', hrun, _, hdisk, _, _⟩
      exact ⟨_, u', hrun, hdisk.trans hu⟩
    apply Yields.bind hload
    intro loaded
    apply Yields.get_bind
    intro u _
    apply Yields.bind (yields_cd hargvD true d)
    intro retval
    apply Yields.bind (Q := fun _ t => t.kernel.disk = d)
    . intro u' hu'
      exact ⟨(), _, rfl, hu'⟩
    . intro _ u' _
      rcases mkfile.spec hargvD.spellable hargvD.holds (s := u') loaded.1 loaded.2 (retval = 0) with
        ⟨v, hrun, _, _⟩
      exact ⟨(), v, hrun, trivial⟩

theorem found_leads {path : Path} {d : Disk} {n src dir : UInt32} {xs : List Component}
    (hsrc : Walk.follow d.look n (path.names []) = .inl src) (h : d.Found src xs dir)
    : Walk.follow d.look n (path.names xs) = .inl dir := by
  induction h with
  | nil => exact hsrc
  | child _ _ _ hlook ih => rw [Path.names_concat, Walk.follow_append ih, Walk.follow_singleton, hlook]

/--
The target has its place in the directory `up` and outside of the source: neither `up` nor what it
has there under that name belongs to the directories that are copied, and neither path leads through
that. No directory that is copied has the name of the one around it, where the target counts for the
source, as that name in the entry 0 of the copy leads anywhere.
-/
structure Aside (s : Shell) (source target : Path) (src up : UInt32) : Prop where
  tree : s.kernel.disk.Tree up
  way : s.kernel.disk.Way up target.last (cd.origin target.absolute s) target.parent up
  source_way : s.kernel.disk.Way up target.last (cd.origin source.absolute s) (source.names []) src
  head : ∀ j : Fin 64, j.val < 2 →
    (s.kernel.disk.table (clusterIndex up) j).name ≠ target.last
  apart : ∀ xs dir, s.kernel.disk.Found src xs dir →
    s.kernel.disk.Outside up target.last dir ∧ dir ≠ up
  distinct : ∀ xs dir, s.kernel.disk.Found src xs dir →
    (target.last :: xs.map Component.name).IsChain (· ≠ ·) ∧ ∀ x ∈ xs, x.name ≠ dotdot

/--
What `cp` writes stays away from what it reads: there is no directory for the target, no cluster is
empty, or the target lies aside.
-/
inductive Clear (s : Shell) (source target : Path) (src : UInt32) : Prop where
  | nowhere :
    (∀ up, Walk.follow s.kernel.disk.look (cd.origin target.absolute s) target.parent ≠ .inl up) →
      Clear s source target src
  | full : write.empty_clusters s.kernel.disk.fat = [] → Clear s source target src
  | aside {up : UInt32} : Aside s source target src up → Clear s source target src

variable {src : UInt32}

section

variable (hsrc : Walk.follow s.kernel.disk.look (cd.origin source.absolute s)
  (source.names []) = .inl src)

include hsrc

theorem Steady.of_idle
    (hidle : ∀ d' into names name size,
      Walk.follow s.kernel.disk.look (cd.origin target.absolute s) (target.parent ++ names)
        = .inl into → s.kernel.disk.Written d' into name size → d' = s.kernel.disk)
    : Steady s source target src fun d => d = s.kernel.disk where
  table := by
    rintro d xs dir rfl _
    rfl
  leads := by
    rintro d xs dir rfl hfound
    exact found_leads hsrc hfound
  readable := by
    rintro d name ext rfl hreadable
    exact hreadable
  made := by
    rintro d d' into rfl hinto hwritten
    apply hidle d' into [] _ _ _ hwritten
    rw [List.append_nil]
    exact hinto
  written := by
    rintro d d' xs dir into name size rfl _ hinto hwritten
    apply hidle d' into (target.last :: xs.map Component.name) _ _ _ hwritten
    rw [← Path.names_eq]
    exact hinto

end

theorem Steady.of_aside {up : UInt32} (hwf : s.kernel.disk.WellFormed)
    (h : Aside s source target src up)
    : Steady s source target src fun d =>
        ∃ Z, s.kernel.disk.Copying d up target.last Z where
  table := by
    intro d xs dir ⟨Z, hcopying⟩ hfound
    have hapart := h.apart xs dir hfound
    exact hcopying.outside dir hapart.1 hapart.2
  leads := by
    intro d xs dir ⟨Z, hcopying⟩ hfound
    induction hfound with
    | nil => exact hcopying.follow_way h.source_way
    | child hdir _ _ hlook ih =>
      have hapart := h.apart _ _ hdir
      rw [← hcopying.look_outside hapart.1 (Or.inl hapart.2)] at hlook
      rw [Path.names_concat, Walk.follow_append ih, Walk.follow_singleton, hlook]
  readable := by
    intro d name ext ⟨Z, hcopying⟩ hreadable
    exact hcopying.readable hwf h.tree hreadable
  made := by
    intro d d' into ⟨Z, hcopying⟩ hinto hwritten
    rw [hcopying.follow_way h.way, Sum.inl.injEq] at hinto
    have hup := Disk.outside_self target.last hwf h.tree
    rw [← hinto] at hwritten
    exact hcopying.of_written hwf hwritten (Or.inl ⟨rfl, rfl, rfl⟩) hup
  written := by
    intro d d' xs dir into name size ⟨Z, hcopying⟩ hfound hinto hwritten
    have hup := Disk.outside_self target.last hwf h.tree
    have hdistinct := h.distinct xs dir hfound
    rw [Path.names_eq, Walk.follow_append (hcopying.follow_way h.way)] at hinto
    cases hlook : d.look up target.last with
    | inl top =>
      rw [Walk.follow_of_next hlook] at hinto
      have htop := hcopying.look_up hup h.head hlook
      have hinside := hcopying.follow_inside htop hdistinct.1 hdistinct.2 hinto
      exact hcopying.of_written hwf hwritten (Or.inr hinside) hup
    | inr stop =>
      rw [Walk.follow_of_stop hlook] at hinto
      contradiction

theorem Clear.exists_steady (h : Clear s source target src)
    (hsrc : Walk.follow s.kernel.disk.look (cd.origin source.absolute s) (source.names [])
      = .inl src)
    (hwf : s.kernel.disk.WellFormed) (hlinked : s.kernel.disk.Linked)
    (hdotted : ∀ p, s.kernel.disk.Directory p → (s.kernel.disk.table p).Dotted)
    : ∃ Inv : Disk → Prop, Inv s.kernel.disk ∧ Steady s source target src Inv := by
  cases h with
  | nowhere hnowhere =>
    refine ⟨fun d => d = s.kernel.disk, rfl, Steady.of_idle hsrc ?_⟩
    intro d' into names name size hinto _
    cases hparent : Walk.follow s.kernel.disk.look (cd.origin target.absolute s) target.parent with
    | inl up => exact absurd hparent (hnowhere up)
    | inr stop =>
      rw [Walk.follow_append_of_stop hparent] at hinto
      contradiction
  | full hfull =>
    refine ⟨fun d => d = s.kernel.disk, rfl, Steady.of_idle hsrc ?_⟩
    intro d' into names name size _ hwritten
    exact hwritten.eq_of_full hfull
  | aside haside =>
    refine ⟨_, ⟨_, Disk.Copying.refl hwf hlinked hdotted haside.tree⟩, Steady.of_aside hwf haside⟩

def argv (source target : Path) : Argv :=
  lineParser.rows
    [ascii "cp", spell source.absolute source.words, spell target.absolute target.words]

theorem carries_source (source target : Path) (old : Argv)
    : Argv.Carries (fun k => if k.val < 200 then argv source target k else old k) source.absolute
        source.words where
  spellable := source.spellable
  length := source.short
  chars := by
    intro k hk
    have hlt : 100 + k < 200 := by omega
    have hdiv : (100 + k) / 100 = 1 := by omega
    have hmod : (100 + k) % 100 = k := by omega
    dsimp only
    unfold argv lineParser.rows
    rw [if_pos hlt, hdiv, hmod]
    rfl

theorem carries_target (source target : Path) (old : Argv)
    : Argv.Carries
        (fun k =>
          if k.val < 100 then argv source target k
          else if h : k.val < 200 then argv source target ⟨100 + k.val, Argv.next_row_lt h⟩
          else old k)
        target.absolute target.words where
  spellable := target.spellable
  length := target.short
  chars := by
    intro k hk
    have hge : ¬ 100 + k < 100 := by omega
    have hlt : 100 + k < 200 := by omega
    have hdiv : (100 + (100 + k)) / 100 = 2 := by omega
    have hmod : (100 + (100 + k)) % 100 = k := by omega
    dsimp only
    unfold argv lineParser.rows
    rw [if_neg hge, dif_pos hlt]
    dsimp only
    rw [hdiv, hmod]
    rfl

/--
The condition under which `cp` keeps to its bounds. A directory must be legible, the paths to all
that is found in it must fit into the buffers behind the source as well as behind the target, and
the target must not be in the way. A file must be readable, under what comes of its name.
-/
def Clean (s : Shell) (source target : Path) : Prop :=
  match Walk.follow s.kernel.disk.look (cd.origin source.absolute s) (source.names []) with
  | .inl src =>
    s.kernel.disk.Legible src ∧
      (∀ xs dir, s.kernel.disk.Found src xs dir → source.Fits xs ∧ target.Fits xs) ∧
        Clear s source target src
  | .inr .file =>
    ∃ base, source.file = some base ∧ s.kernel.disk.Readable base.1 base.2
  | .inr .nothing => True

def Shallow (s : Shell) (source : Path) (depth : Nat) : Prop :=
  ∀ src, Walk.follow s.kernel.disk.look (cd.origin source.absolute s) (source.names []) = .inl src →
    s.kernel.disk.graph.Bounded depth src

def Start (s t : Shell) : Prop :=
  t.kernel.disk = s.kernel.disk ∧ t.currentDirectory = s.currentDirectory

theorem yields_uninitialised : Yields (Start s) uninitialised fun _ => Start s := by
  intro t ht
  exact ⟨_, _, rfl, ht⟩

theorem yields_back
    : Yields (fun t => t.kernel.disk = s.kernel.disk)
        (do
          setCurrentDirectory s.currentDirectory
          updateDirectoryTable s.currentDirectory)
        fun _ => Start s := by
  apply Yields.bind (yields_setCurrentDirectory (fun d => d = s.kernel.disk) _)
  intro _
  apply (yields_updateDirectoryTable (fun d => d = s.kernel.disk) _ _).consequence
  . intro t ht
    exact ht
  . intro _ t ht
    exact ht.1

theorem yields_directory {depth : Nat}
    (hsrc : Walk.follow s.kernel.disk.look (cd.origin source.absolute s) (source.names [])
      = .inl src)
    (hbound : s.kernel.disk.graph.Bounded depth src) (hlegible : s.kernel.disk.Legible src)
    (hfits : ∀ xs dir, s.kernel.disk.Found src xs dir → source.Fits xs ∧ target.Fits xs)
    {Inv : Disk → Prop} (hinv : Inv s.kernel.disk) (h : Steady s source target src Inv)
    : Yields (Start s) (cp.through append.within (depth + 1) (argv source target) 3) fun _ _ =>
        True := by
  unfold cp.through
  rw [if_neg (by decide)]
  apply Yields.bind yields_uninitialised
  intro locals
  apply Yields.get_bind
  intro t ht
  dsimp only
  rw [ht.2]
  have hargvS := carries_source source target locals.argvS
  have hargvD := carries_target source target locals.argvD
  have hcd : Yields (Start s)
      (cd (fun k => if k.val < 200 then argv source target k else locals.argvS k) 2 true)
      fun retval t => retval = 0 ∧ t.kernel.disk = s.kernel.disk := by
    intro t ht
    have hleads : Walk.follow t.kernel.disk.look (cd.origin source.absolute t)
        ((if true then source.words else source.words.dropLast).map entry_name) = .inl src := by
      rw [if_pos rfl, ht.1, origin_congr _ ht.2, ← Path.names_nil]
      exact hsrc
    exact ⟨0, _, cd.run_of_inl hargvS.spellable hargvS.holds hleads, rfl, ht.1⟩
  apply Yields.bind hcd
  intro retval
  apply Yields.assuming
  intro hretval
  rw [hretval, if_pos rfl, ← bind_assoc]
  apply Yields.bind yields_back
  intro _
  apply Yields.bind (Q := fun _ t => Inv t.kernel.disk ∧ t.currentDirectory = s.currentDirectory)
  . intro t ht
    rcases mkdir.spec hargvD.spellable hargvD.holds (s := t) with ⟨code, t', hrun, hcurrent, hdisk⟩
    refine ⟨code, t', hrun, ?_, hcurrent.trans ht.2⟩
    rcases hdisk with heq | ⟨into, hinto, hwritten⟩
    . rw [heq, ht.1]
      exact hinv
    . rw [ht.1, origin_congr _ ht.2] at hinto
      rw [ht.1] at hwritten
      exact h.made _ _ into hinv hinto hwritten
  . intro _
    rw [← Path.append_nil] at hargvS hargvD
    have hthrough := yields_through h hlegible (fun ys q hq => (hfits ys q hq).1)
      (fun ys q hq => (hfits ys q hq).2) .nil hbound (Nat.lt_succ_self depth) hargvS hargvD
    apply Yields.bind hthrough
    intro _ t _
    exact ⟨(), _, rfl, trivial⟩

theorem yields_stop {stop : Stop} (fuel : Nat)
    (hsrc : Walk.follow s.kernel.disk.look (cd.origin source.absolute s) (source.names [])
      = .inr stop)
    (hfile : stop = .file → ∃ base, source.file = some base ∧
      s.kernel.disk.Readable base.1 base.2)
    : Yields (Start s) (cp.through append.within (fuel + 1) (argv source target) 3) fun _ _ =>
        True := by
  unfold cp.through
  rw [if_neg (by decide)]
  apply Yields.bind yields_uninitialised
  intro locals
  apply Yields.get_bind
  intro t ht
  dsimp only
  rw [ht.2]
  have hargvS := carries_source source target locals.argvS
  have hargvD := carries_target source target locals.argvD
  have hcd : Yields (Start s)
      (cd (fun k => if k.val < 200 then argv source target k else locals.argvS k) 2 true)
      fun retval t => retval = (if stop = .file then 3 else 2) ∧
        t.kernel.disk = s.kernel.disk := by
    intro t ht
    have hstop : Walk.follow t.kernel.disk.look (cd.origin source.absolute t)
        ((if true then source.words else source.words.dropLast).map entry_name) = .inr stop := by
      rw [if_pos rfl, ht.1, origin_congr _ ht.2, ← Path.names_nil]
      exact hsrc
    rcases cd.run_of_inr hargvS.spellable hargvS.holds hstop with ⟨loaded, hrun⟩
    exact ⟨_, _, hrun, rfl, ht.1⟩
  have hcode : (if stop = .file then (3 : Int) else 2) ≠ 0 := by
    split
    . decide
    . decide
  apply Yields.bind hcd
  intro retval
  apply Yields.assuming
  intro hretval
  rw [hretval, if_neg hcode, ← bind_assoc]
  apply Yields.bind yields_back
  intro _
  apply Yields.bind (Q := fun _ _ => True)
  . unfold cpHelper.through
    rcases parsePath_of_holds hargvS.spellable hargvS.holds with ⟨pathList, hparse, hname⟩
    apply Yields.ofOption_bind hparse
    apply Yields.ofOption_bind hname
    apply Yields.bind hcd
    intro retval'
    apply Yields.assuming
    intro hretval'
    rw [hretval']
    cases stop with
    | file =>
      rw [if_pos (by rw [if_pos rfl])]
      exact yields_file hargvS hargvD (hfile rfl) _
    | nothing =>
      rw [if_neg (by decide), if_neg hcode]
      apply Yields.of_pure
      intro _ _
      trivial
  . intro _ u _
    exact ⟨(), _, rfl, trivial⟩

end cp

/--
`cp` ends without a recursion deeper than `depth`, and every path that `append` builds stays within
`argv[1]` and has at most 16 components.
-/
def cp.KeepsBounds (s : Shell) (source target : Path) (depth : Nat) : Prop :=
  ∃ r, cp.through append.within (depth + 1) (cp.argv source target) 3 s = some r ∧
    AiOS.cp (depth + 1) (cp.argv source target) 3 s = some r

namespace stray

def above : Shell :=
  { shell with
    currentDirectory := ROOT_CLUSTER_NUMBER
    dirTable := disk.table 2 }

def source : Path where
  absolute := false
  words := [docs].map Component.chars
  spellable := Component.spellable false (by simp) (by decide)
  short := by decide

def target : Path where
  absolute := false
  words := [copy].map Component.chars
  spellable := Component.spellable false (by simp) (by decide)
  short := by decide

def below : Path where
  absolute := false
  words := [docs, copy].map Component.chars
  spellable := Component.spellable false (by simp) (by decide)
  short := by decide

theorem look_docs : disk.look ROOT_CLUSTER_NUMBER docs.name = .inl 3 := by
  decide

theorem follow_source
    : Walk.follow above.kernel.disk.look (cd.origin source.absolute above) (source.names [])
        = .inl 3 := by
  have hfollow : Walk.follow disk.look ROOT_CLUSTER_NUMBER [docs.name] = .inl 3 := by
    rw [Walk.follow_singleton]
    exact look_docs
  exact hfollow

theorem child_docs (i : Fin 64) : disk.graph.child 3 i = none := by
  revert i
  decide

theorem shallow : cp.Shallow above source 0 := by
  intro src hsrc
  rw [follow_source, Sum.inl.injEq] at hsrc
  rw [← hsrc]
  intro route m hroute
  cases route with
  | nil => exact Nat.le_refl 0
  | cons i route =>
    rw [Slotted.follow_cons_eq_some_iff] at hroute
    rcases hroute with ⟨k, hchild, _⟩
    exact absurd (hchild.symm.trans (child_docs i)) (by simp)

theorem found {xs : List Component} {dir : UInt32} (h : disk.Found 3 xs dir)
    : xs = [] ∧ dir = 3 := by
  induction h with
  | nil => exact ⟨rfl, rfl⟩
  | child _ hchild _ _ ih =>
    rw [ih.2, child_docs] at hchild
    contradiction

theorem outside_docs : disk.Outside ROOT_CLUSTER_NUMBER target.last 3 where
  tree := Disk.tree_iff_follow.mpr ⟨[2], follow_docs⟩
  apart := by
    have hnames : ∀ i : Fin 64, disk.graph.child ROOT_CLUSTER_NUMBER i ≠ none →
        (disk.table (clusterIndex ROOT_CLUSTER_NUMBER) i).name ≠ target.last := by
      decide
    have hnone : ∀ m x, ¬ disk.Inside ROOT_CLUSTER_NUMBER target.last m x := by
      intro m x hx
      induction hx with
      | @entry i m hchild hname =>
        apply hnames i _ hname
        rw [hchild]
        simp
      | child _ _ ih => exact ih
    exact hnone 3

theorem clean : cp.Clean above source target := by
  unfold cp.Clean
  rw [follow_source]
  refine ⟨⟨?_, ?_, ?_⟩, ?_, ?_⟩
  . intro xs dir i m hfound hchild
    rw [(found hfound).2] at hchild
    exact absurd (hchild.symm.trans (child_docs i)) (by simp)
  . intro xs dir i m x hfound hchild
    rw [(found hfound).2] at hchild
    exact absurd (hchild.symm.trans (child_docs i)) (by simp)
  . have hdead : ∀ i : Fin 64, 2 ≤ i.val →
        (disk.table (clusterIndex 3) i).user_attribute ≠ UATTR_NOT_EMPTY := by
      decide
    intro xs dir i hfound hlists
    rw [(found hfound).2] at hlists
    exact absurd hlists.live (hdead i hlists.slot)
  . intro xs dir hfound
    rw [(found hfound).1]
    exact ⟨⟨by decide, by decide⟩, ⟨by decide, by decide⟩⟩
  . have hhead : ∀ j : Fin 64, j.val < 2 →
        (disk.table (clusterIndex ROOT_CLUSTER_NUMBER) j).name ≠ target.last := by
      decide
    have hroot : disk.Outside ROOT_CLUSTER_NUMBER target.last ROOT_CLUSTER_NUMBER :=
      Disk.outside_self target.last (Tracked.of_reachable tidy).steady.wellFormed Disk.Tree.root
    have haside : cp.Aside above source target 3 ROOT_CLUSTER_NUMBER := by
      refine ⟨Disk.Tree.root, .nil, ?_, hhead, ?_, ?_⟩
      . exact .outside hroot (Or.inr (by decide)) look_docs .nil
      . intro xs dir hfound
        rw [(found hfound).2]
        exact ⟨outside_docs, by decide⟩
      . intro xs dir hfound
        rw [(found hfound).1]
        simp
    exact .aside haside

theorem run_below : cp.through append.within 1 (cp.argv source below) 3 above = none := by
  rw [← Option.isNone_iff_eq_none]
  decide +kernel

end stray

end AiOS
