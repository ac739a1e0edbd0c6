import AiOS.Shell.Pieces
import AiOS.Shell.Zone

/-!
This module contains how `cpHelper` goes down a directory, as long as what it writes leaves the
directory and the paths to it alone.
-/

namespace AiOS

open Fallible

/--
A path that has its place in a row of `argv`, and that `parsePath` splits into its words.
-/
structure Path where
  absolute : Bool
  words : List (List UInt8)
  spellable : Spellable absolute words
  short : (spell absolute words).length < 100

namespace Path

theorem exists_spell {argument : List UInt8} (hne : argument ≠ []) (hzero : (0 : UInt8) ∉ argument)
    (hshort : argument.length < 100) (hlength : (pieces 0x2F argument).length ≤ 16)
    (hpiece : ∀ piece ∈ pieces 0x2F argument, piece.length ≤ 10)
    : ∃ path : Path, spell path.absolute path.words = argument := by
  refine ⟨⟨_, _, pieces.spellable hne hzero hlength hpiece, ?_⟩, pieces.spell_eq argument⟩
  rw [pieces.spell_eq]
  exact hshort

def append (path : Path) (xs : List Component) : List (List UInt8) :=
  path.words ++ xs.map Component.chars

def names (path : Path) (xs : List Component) : List (Fin 8 → UInt8) :=
  (path.append xs).map entry_name

structure Fits (path : Path) (xs : List Component) : Prop where
  length : (spell path.absolute (path.append xs)).length < 100
  rows : (path.append xs).length ≤ 16

theorem append_nil (path : Path) : path.append [] = path.words := by
  unfold append
  rw [List.map_nil, List.append_nil]

theorem names_nil (path : Path) : path.names [] = path.words.map entry_name := by
  unfold names
  rw [append_nil]

theorem append_concat (path : Path) (xs : List Component) (x : Component)
    : path.append (xs ++ [x]) = path.append xs ++ [x.chars] := by
  unfold append
  rw [List.map_append, List.append_assoc]
  rfl

theorem names_concat (path : Path) (xs : List Component) (x : Component)
    : path.names (xs ++ [x]) = path.names xs ++ [x.name] := by
  unfold names
  rw [append_concat, List.map_append]
  rfl

def parent (path : Path) : List (Fin 8 → UInt8) :=
  path.words.dropLast.map entry_name

def last (path : Path) : Fin 8 → UInt8 :=
  entry_name (path.words.getLast path.spellable.ne_nil)

theorem names_eq (path : Path) (xs : List Component)
    : path.names xs = path.parent ++ path.last :: xs.map Component.name := by
  have hwords := List.dropLast_append_getLast path.spellable.ne_nil
  unfold names append parent last
  conv => lhs; rw [← hwords]
  rw [List.map_append, List.map_append, List.append_assoc, List.map_map]
  rfl

end Path

theorem Argv.Carries.of_row {argv argv' : Argv} {absolute : Bool} {words : List (List UInt8)}
    (h : argv.Carries absolute words)
    (hrow : ∀ k (hk : k < 100), argv' ⟨100 + k, row_lt hk⟩ = argv ⟨100 + k, row_lt hk⟩)
    : argv'.Carries absolute words where
  spellable := h.spellable
  length := h.length
  chars := by
    intro k hk
    rw [hrow k hk]
    exact h.chars k hk

theorem Argv.Carries.of_copied {argv : Argv} {absolute : Bool} {words : List (List UInt8)}
    (h : argv.Carries absolute words) (old : Argv)
    : Argv.Carries (fun k => if k.val < 200 then argv k else old k) absolute words := by
  apply h.of_row
  intro k hk
  have hlt : 100 + k < 200 := by omega
  exact if_pos hlt

theorem Argv.Carries.append_fits {argv : Argv} {path : Path} {xs : List Component} {x : Component}
    (h : argv.Carries path.absolute (path.append xs)) (old : Argv) (hfits : path.Fits (xs ++ [x]))
    : ∃ argv', append.within (fun k => if k.val < 200 then argv k else old k) x.chars = some argv' ∧
        argv'.Carries path.absolute (path.append (xs ++ [x])) := by
  have hlength := hfits.length
  have hrows := hfits.rows
  rw [Path.append_concat] at hlength hrows ⊢
  apply (h.of_copied old).append_within x _ hlength
  rw [List.length_append, List.length_singleton] at hrows
  omega

namespace Disk

/--
The directories that the lookups find from `src` on, under the names of the subdirectories that are
listed on the way.
-/
inductive Found (d : Disk) (src : UInt32) : List Component → UInt32 → Prop where
  | nil : Found d src [] src
  | child {xs : List Component} {dir m m' : UInt32} {i : Fin 64} {x : Component} :
    Found d src xs dir → d.graph.child dir i = some m →
      x.name = (d.table (clusterIndex dir) i).name → d.look dir x.name = .inl m' →
        Found d src (xs ++ [x]) m'

/--
All subdirectories below `src` have names that a path may have, and under its name each of them is
found, or another one of the directory. All files there can be read from the root.
-/
structure Legible (d : Disk) (src : UInt32) : Prop where
  component : ∀ xs dir i m, d.Found src xs dir → d.graph.child dir i = some m →
    ∃ x : Component, x.name = (d.table (clusterIndex dir) i).name
  child : ∀ xs dir i m (x : Component), d.Found src xs dir → d.graph.child dir i = some m →
    x.name = (d.table (clusterIndex dir) i).name →
      ∃ j m', d.look dir x.name = .inl m' ∧ d.graph.child dir j = some m'
  readable : ∀ xs dir i, d.Found src xs dir → d.Lists dir i →
    cpHelper.plain_file (d.table (clusterIndex dir) i) →
      d.Readable (d.table (clusterIndex dir) i).name (d.table (clusterIndex dir) i).ext

end Disk

namespace cp

/--
As long as a disk is in `Inv`, `cp` finds the directory that it copies as it was when the shell was
in the state `s`, and what it writes keeps `Inv`.
-/
structure Steady (s : Shell) (source target : Path) (src : UInt32) (Inv : Disk → Prop) : Prop where
  table : ∀ d xs dir, Inv d → s.kernel.disk.Found src xs dir →
    d.table (clusterIndex dir) = s.kernel.disk.table (clusterIndex dir)
  leads : ∀ d xs dir, Inv d → s.kernel.disk.Found src xs dir →
    Walk.follow d.look (cd.origin source.absolute s) (source.names xs) = .inl dir
  readable : ∀ d name ext, Inv d → s.kernel.disk.Readable name ext → d.Readable name ext
  made : ∀ d d' into, Inv d →
    Walk.follow d.look (cd.origin target.absolute s) target.parent = .inl into →
      d.Written d' into target.last 0 → Inv d'
  written : ∀ d d' xs dir into name size, Inv d → s.kernel.disk.Found src xs dir →
    Walk.follow d.look (cd.origin target.absolute s) (target.names xs) = .inl into →
      d.Written d' into name size → Inv d'

section

variable {s : Shell} {source target : Path} {src : UInt32} {Inv : Disk → Prop}

theorem yields_setCurrentDirectory (Inv : Disk → Prop) (dir : UInt32)
    : Yields (fun t : Shell => Inv t.kernel.disk) (setCurrentDirectory dir) fun _ t =>
        Inv t.kernel.disk ∧ t.currentDirectory = dir := by
  intro t ht
  exact ⟨(), _, rfl, ht, rfl⟩

theorem yields_updateDirectoryTable (Inv : Disk → Prop) (dir loaded : UInt32)
    : Yields (fun t : Shell => Inv t.kernel.disk ∧ t.currentDirectory = dir)
        (updateDirectoryTable loaded) fun _ t => (Inv t.kernel.disk ∧ t.currentDirectory = dir) ∧
          t.dirTable = t.kernel.disk.table (clusterIndex loaded) := by
  intro t ht
  refine ⟨(), _, updateDirectoryTable_apply loaded t, ?_, rfl⟩
  exact ht

theorem origin_congr {s t : Shell} (absolute : Bool) (h : t.currentDirectory = s.currentDirectory)
    : cd.origin absolute t = cd.origin absolute s := by
  unfold cd.origin
  rw [h]

section

variable (h : Steady s source target src Inv) {xs : List Component} {dir : UInt32}
  (hfound : s.kernel.disk.Found src xs dir)

include h hfound

theorem yields_mkdir {argv : Argv} {x : Component}
    (hargv : argv.Carries target.absolute (target.append (xs ++ [x])))
    : Yields (fun t : Shell => Inv t.kernel.disk ∧ t.currentDirectory = s.currentDirectory)
        (mkdir argv 2) fun _ t => Inv t.kernel.disk ∧ t.currentDirectory = s.currentDirectory := by
  intro t ht
  rcases mkdir.spec hargv.spellable hargv.holds (s := t) with ⟨code, t', hrun, hcurrent, hdisk⟩
  refine ⟨code, t', hrun, ?_, hcurrent.trans ht.2⟩
  rcases hdisk with heq | ⟨into, hinto, hwritten⟩
  . rw [heq]
    exact ht.1
  . rw [Path.append_concat, List.dropLast_concat, origin_congr _ ht.2] at hinto
    exact h.written _ _ xs dir into _ _ ht.1 hfound hinto hwritten

theorem yields_mkfile {argv : Argv} (hargv : argv.Carries target.absolute (target.append xs))
    (memory : UInt32 → UInt8) (request : FAT32DriverRequest)
    : Yields (fun t : Shell => Inv t.kernel.disk ∧ t.currentDirectory = s.currentDirectory)
        (mkfile argv 2 memory request true) fun _ t => Inv t.kernel.disk := by
  intro t ht
  rcases mkfile.spec hargv.spellable hargv.holds (s := t) memory request true with
    ⟨t', hrun, _, hdisk⟩
  refine ⟨(), t', hrun, ?_⟩
  rcases hdisk with heq | ⟨into, hinto, hwritten⟩
  . rw [heq]
    exact ht.1
  . rw [if_pos rfl, origin_congr _ ht.2] at hinto
    exact h.written _ _ xs dir into _ _ ht.1 hfound hinto hwritten

end

def Loaded (s : Shell) (Inv : Disk → Prop) (dir : UInt32) (t : Shell) : Prop :=
  (Inv t.kernel.disk ∧ t.currentDirectory = dir) ∧
    t.dirTable = s.kernel.disk.table (clusterIndex dir)

section

variable (h : Steady s source target src Inv) {xs : List Component} {dir : UInt32}
  (hfound : s.kernel.disk.Found src xs dir)

include h hfound

theorem yields_return
    : Yields (fun t : Shell => Inv t.kernel.disk)
        (do
          setCurrentDirectory dir
          updateDirectoryTable dir)
        fun _ => Loaded s Inv dir := by
  apply Yields.bind (yields_setCurrentDirectory Inv dir)
  intro _
  apply (yields_updateDirectoryTable Inv dir dir).consequence
  . intro t ht
    exact ht
  . intro _ t ht
    refine ⟨ht.1, ?_⟩
    rw [ht.2]
    exact h.table _ xs dir ht.1.1 hfound

theorem yields_plain_file (hlegible : s.kernel.disk.Legible src) {argvD : Argv}
    (hargvD : argvD.Carries target.absolute (target.append xs)) {i : Fin 64}
    (hlists : s.kernel.disk.Lists dir i)
    : Yields (Loaded s Inv dir)
        (do
          let t ← get
          if cpHelper.plain_file (t.dirTable i) then
            let loaded ← cpHelper.load (t.dirTable i).name (t.dirTable i).ext
            setCurrentDirectory s.currentDirectory
            updateDirectoryTable s.currentDirectory
            mkfile argvD 2 loaded.1 loaded.2 true
            setCurrentDirectory dir
            updateDirectoryTable dir)
        fun _ => Loaded s Inv dir := by
  apply Yields.get_bind
  intro t ht
  rw [ht.2]
  apply Yields.ite
  . intro hplain
    have hreadable := hlegible.readable xs dir i hfound hlists hplain
    have hload : Yields (Loaded s Inv dir)
        (cpHelper.load (s.kernel.disk.table (clusterIndex dir) i).name
          (s.kernel.disk.table (clusterIndex dir) i).ext) fun _ t => Inv t.kernel.disk := by
      intro t ht
      rcases cpHelper.load_spec (h.readable _ _ _ ht.1.1 hreadable) with
        ⟨memory, request, t', hrun, _, hdisk, _, _⟩
      refine ⟨_, t', hrun, ?_⟩
      dsimp only
      rw [hdisk]
      exact ht.1.1
    apply Yields.bind hload
    intro loaded
    apply Yields.bind (yields_setCurrentDirectory Inv _)
    intro _
    apply Yields.bind (yields_updateDirectoryTable Inv _ _)
    intro _
    have hmkfile := yields_mkfile h hfound hargvD loaded.1 loaded.2
    apply Yields.bind (hmkfile.consequence (fun t ht => ht.1) fun _ t ht => ht)
    intro _
    exact yields_return h hfound
  . intro _
    apply Yields.of_pure
    intro t ht
    exact ht

theorem yields_slot (hlegible : s.kernel.disk.Legible src)
    (hS : ∀ ys q, s.kernel.disk.Found src ys q → source.Fits ys)
    (hD : ∀ ys q, s.kernel.disk.Found src ys q → target.Fits ys)
    {argvS argvD : Argv} (hargvS : argvS.Carries source.absolute (source.append xs))
    (hargvD : argvD.Carries target.absolute (target.append xs))
    {descend : Argv → Argv → ShellM Unit}
    (hdescend : ∀ (argvS argvD : Argv) (x : Component) (m : UInt32) (j : Fin 64),
      s.kernel.disk.Found src (xs ++ [x]) m → s.kernel.disk.graph.child dir j = some m →
      argvS.Carries source.absolute (source.append (xs ++ [x])) →
      argvD.Carries target.absolute (target.append (xs ++ [x])) →
        Yields (fun t : Shell => Inv t.kernel.disk ∧ t.currentDirectory = s.currentDirectory)
          (descend argvS argvD) fun _ t => Inv t.kernel.disk)
    {i : Fin 64} (hi : 2 ≤ i.val)
    : Yields (Loaded s Inv dir)
        (cpHelper.slot append.within descend argvS argvD s.currentDirectory i) fun _ =>
          Loaded s Inv dir := by
  unfold cpHelper.slot
  apply Yields.get_bind
  intro t ht
  rw [ht.2, ht.1.2]
  apply Yields.ite
  . intro hlive
    dsimp only
    have hlists : s.kernel.disk.Lists dir i := ⟨hi, hlive⟩
    apply Yields.ite
    . intro hsub
      have hchild : s.kernel.disk.graph.child dir i = some _ :=
        Disk.graph_child_eq_some_iff.mpr ⟨hlists, hsub, rfl⟩
      rcases hlegible.component xs dir i _ hfound hchild with ⟨x, hx⟩
      rcases hlegible.child xs dir i _ x hfound hchild hx with ⟨j, m, hlook, hm⟩
      have hnext : s.kernel.disk.Found src (xs ++ [x]) m := .child hfound hchild hx hlook
      have hlocals : Yields (Loaded s Inv dir) uninitialised fun _ t => Inv t.kernel.disk := by
        intro t ht
        exact ⟨_, _, rfl, ht.1.1⟩
      apply Yields.bind hlocals
      intro locals
      rw [← hx, Component.name_chars]
      rcases hargvD.append_fits locals.argvD (hD _ _ hnext) with ⟨argvDnew, happendD, hD'⟩
      rcases hargvS.append_fits locals.argvS (hS _ _ hnext) with ⟨argvSnew, happendS, hS'⟩
      apply Yields.ofOption_bind happendD
      apply Yields.ofOption_bind happendS
      apply Yields.bind (yields_setCurrentDirectory Inv _)
      intro _
      apply Yields.bind (yields_updateDirectoryTable Inv _ _)
      intro _
      have hmkdir := yields_mkdir h hfound hD'
      apply Yields.bind (hmkdir.consequence (fun t ht => ht.1) fun _ t ht => ht)
      intro _
      apply Yields.bind (hdescend argvSnew argvDnew x m j hnext hm hS' hD')
      intro _
      have hrest := yields_plain_file h hfound hlegible hargvD hlists
      have hreturn := (yields_return h hfound).bind fun _ => hrest
      rw [bind_assoc] at hreturn
      exact hreturn
    . intro _
      exact yields_plain_file h hfound hlegible hargvD hlists
  . intro _
    apply Yields.of_pure
    intro t ht
    exact ht

end

/--
`cpHelper` goes no deeper than the directories that are found.
-/
theorem yields_through (h : Steady s source target src Inv) (hlegible : s.kernel.disk.Legible src)
    (hS : ∀ ys q, s.kernel.disk.Found src ys q → source.Fits ys)
    (hD : ∀ ys q, s.kernel.disk.Found src ys q → target.Fits ys) {fuel depth : Nat}
    {xs : List Component} {dir : UInt32} (hfound : s.kernel.disk.Found src xs dir)
    (hbound : s.kernel.disk.graph.Bounded depth dir) (hfuel : depth < fuel) {argvS argvD : Argv}
    (hargvS : argvS.Carries source.absolute (source.append xs))
    (hargvD : argvD.Carries target.absolute (target.append xs))
    : Yields (fun t : Shell => Inv t.kernel.disk ∧ t.currentDirectory = s.currentDirectory)
        (cpHelper.through append.within fuel argvS argvD s.currentDirectory) fun _ t =>
          Inv t.kernel.disk := by
  induction fuel generalizing depth xs dir argvS argvD with
  | zero => omega
  | succ fuel ih =>
    unfold cpHelper.through
    rcases parsePath_of_holds hargvS.spellable hargvS.holds with ⟨pathList, hparse, hname⟩
    apply Yields.ofOption_bind hparse
    apply Yields.ofOption_bind hname
    have hcd : Yields
        (fun t : Shell => Inv t.kernel.disk ∧ t.currentDirectory = s.currentDirectory)
        (cd argvS 2 true) fun retval t => retval = 0 ∧ Loaded s Inv dir t := by
      intro t ht
      have hleads : Walk.follow t.kernel.disk.look (cd.origin source.absolute t)
          ((if true then source.append xs else (source.append xs).dropLast).map entry_name)
            = .inl dir := by
        rw [if_pos rfl, origin_congr _ ht.2]
        exact h.leads _ xs dir ht.1 hfound
      refine ⟨0, _, cd.run_of_inl hargvS.spellable hargvS.holds hleads, rfl, ⟨ht.1, rfl⟩, ?_⟩
      exact h.table _ xs dir ht.1 hfound
    apply Yields.bind hcd
    intro retval t ht
    rw [ht.1, if_neg (by decide), if_pos rfl]
    have hslots : Yields (Loaded s Inv dir)
        (write.slots.forM
          (cpHelper.slot append.within
            (fun argvSnew argvDnew =>
              cpHelper.through append.within fuel argvSnew argvDnew s.currentDirectory)
            argvS argvD s.currentDirectory)) fun _ => Loaded s Inv dir := by
      apply Yields.forM
      intro i hi
      apply yields_slot h hfound hlegible hS hD hargvS hargvD _ ((write.mem_slots i).mp hi)
      intro argvSnew argvDnew x m j hnext hchild hS' hD'
      have hbelow := hbound.child hchild
      exact ih hnext hbelow.2 (by omega) hS' hD'
    rcases hslots t ht.2 with ⟨a, t', hrun, ht'⟩
    exact ⟨a, t', hrun, ht'.1.1⟩

end
end cp

end AiOS
