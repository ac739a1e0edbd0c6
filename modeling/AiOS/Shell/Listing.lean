import AiOS.Fat32.Power
import AiOS.Shell.Prompt

/-!
This module proves that `ls` shows what the store has in a directory, and when its lines are right.
-/

namespace AiOS

theorem takeWhile_append_eq_iff {α : Type} {p : α → Bool} (xs ys : List α) (y : α)
    : (xs ++ y :: ys).takeWhile p = xs.takeWhile p ↔ (∃ x ∈ xs, p x = false) ∨ p y = false := by
  induction xs with
  | nil =>
    rw [List.nil_append, List.takeWhile_cons]
    cases hy : p y with
    | true => simp
    | false => simp
  | cons x xs ih =>
    rw [List.cons_append, List.takeWhile_cons, List.takeWhile_cons]
    cases hx : p x with
    | true =>
      rw [if_pos rfl, if_pos rfl, List.cons_inj_right, ih]
      simp [hx]
    | false => simp [hx]

theorem flatMap_filter {α β : Type} (p : α → Bool) (f : α → List β) (l : List α)
    : (l.filter p).flatMap f = l.flatMap fun a => if p a then f a else [] := by
  induction l with
  | nil => rfl
  | cons a l ih =>
    rw [List.flatMap_cons, ← ih, List.filter_cons]
    split
    . rw [List.flatMap_cons]
    . rw [List.nil_append]

def printed.chars (output : List (List UInt8 × UInt32)) : List UInt8 :=
  output.flatMap Prod.fst

namespace Item

def isFile (item : Item) : Bool :=
  match item.object with
  | .file _ => true
  | .directory _ => false

/--
What a file or a directory is called: its name and, for a file that has one, the extension behind a
period.
-/
def label (item : Item) : List UInt8 :=
  name_chars item.name.1 ++
    if item.isFile ∧ item.name.2 0 ≠ 0 then
      0x2E :: (List.ofFn item.name.2).takeWhile fun c => c ≠ 0
    else
      []

end Item

namespace ls

def period (item : Item) : List (List UInt8 × UInt32) :=
  if item.isFile ∧ item.name.2 0 ≠ 0 then
    (ascii ".", 0xF) ::
      if item.name.2 2 ≠ 0 then [((List.ofFn item.name.1).take 3, 0xF)] else []
  else
    []

def line (item : Item) : List (List UInt8 × UInt32) :=
  (if item.name.1 7 ≠ 0 then List.ofFn item.name.1 else name_chars item.name.1, 0xF) ::
    (period item ++ [(ascii "\n", 0xF)])

/--
The name has nothing behind a zero byte, and the extension of a file is its beginning, if it has one.
-/
structure Plain (item : Item) : Prop where
  name : item.name.1 7 ≠ 0 → ∀ k, item.name.1 k ≠ 0
  ext : item.isFile → item.name.2 0 ≠ 0 →
    ∀ k : Fin 3, item.name.2 k ≠ 0 ∧ item.name.2 k = item.name.1 (k.castLE (by decide))

theorem name_apply (name : Fin 8 → UInt8) (s : Shell)
    : print.name name s
        =
      some ((), s.put [(if name 7 ≠ 0 then List.ofFn name else name_chars name, 0xF)]) := by
  unfold print.name
  split
  . rfl
  . rfl

theorem isFile_iff {d : Disk} {slot : Nat × Fin 64} {item : Item} (h : d.Shows slot item)
    : item.isFile = true ↔ (d.entry slot).attribute ≠ ATTR_SUBDIRECTORY := by
  have hobject := h.object
  unfold Item.isFile
  cases hitem : item.object with
  | file bytes =>
    rw [hitem] at hobject
    simp [hobject.1]
  | directory c =>
    rw [hitem] at hobject
    simp [hobject.1]

theorem entry_apply {d : Disk} {slot : Nat × Fin 64} {item : Item} (h : d.Shows slot item)
    (s : Shell)
    : ls.entry (d.entry slot) s = some ((), s.put (line item)) := by
  have hfile := isFile_iff h
  have hname : item.name.1 = (d.entry slot).name := congrArg Prod.fst h.name
  have hext : item.name.2 = (d.entry slot).ext := congrArg Prod.snd h.name
  unfold ls.entry line period
  rw [← hname, ← hext, Fallible.bind_apply, name_apply, Option.bind_some]
  simp only [← hfile]
  split
  . split
    . simp only [Fallible.bind_apply, print, printlen_apply, Option.bind_some, Shell.put_put,
        List.cons_append, List.nil_append]
    . simp only [Fallible.bind_apply, print, printlen_apply, Option.bind_some, Shell.put_put,
        List.cons_append, List.nil_append]
  . simp only [print, printlen_apply, Shell.put_put, List.cons_append, List.nil_append]

theorem takeWhile_ofFn {n : Nat} {name : Fin n → UInt8} (h : ∀ k, name k ≠ 0)
    : ((List.ofFn name).takeWhile fun c => c ≠ 0) = List.ofFn name := by
  rw [List.takeWhile_eq_self_iff]
  intro c hc
  rw [List.mem_ofFn] at hc
  rcases hc with ⟨k, rfl⟩
  simpa using h k

theorem zero_not_mem_takeWhile (chars : List UInt8)
    : (0 : UInt8) ∉ chars.takeWhile fun c => c ≠ 0 := by
  intro hmem
  have hne := List.mem_takeWhile_imp hmem
  simp at hne

theorem zero_not_mem_label (item : Item) : (0 : UInt8) ∉ item.label := by
  unfold Item.label name_chars
  rw [List.mem_append, not_or]
  refine ⟨zero_not_mem_takeWhile _, ?_⟩
  split
  . rw [List.mem_cons, not_or]
    exact ⟨by decide, zero_not_mem_takeWhile _⟩
  . exact List.not_mem_nil

theorem takeWhile_eq_take_iff {ext : Fin 3 → UInt8} {name : Fin 8 → UInt8}
    : (List.ofFn name).take 3 = (List.ofFn ext).takeWhile (fun c => c ≠ 0)
        ↔
      ∀ k : Fin 3, ext k ≠ 0 ∧ ext k = name (k.castLE (by decide)) := by
  have htake : (List.ofFn name).take 3 = List.ofFn fun k : Fin 3 => name (k.castLE (by decide)) := by
    rfl
  constructor
  . intro h
    have hlength := congrArg List.length h
    rw [htake, List.length_ofFn] at hlength
    have hprefix := List.takeWhile_prefix (l := List.ofFn ext) fun c => c ≠ 0
    have hall := hprefix.eq_of_length (by rw [← hlength, List.length_ofFn])
    rw [hall, htake, List.ofFn_inj] at h
    rw [List.takeWhile_eq_self_iff] at hall
    intro k
    refine ⟨?_, (congrFun h k).symm⟩
    simpa using hall (ext k) (List.mem_ofFn.mpr ⟨k, rfl⟩)
  . intro h
    rw [takeWhile_ofFn fun k => (h k).1, htake, List.ofFn_inj]
    funext k
    exact (h k).2.symm

theorem period_eq_iff {item : Item}
    : printed.chars (period item)
          =
        (if item.isFile ∧ item.name.2 0 ≠ 0 then
          0x2E :: (List.ofFn item.name.2).takeWhile fun c => c ≠ 0
        else
          [])
        ↔
      (item.isFile → item.name.2 0 ≠ 0 →
        ∀ k : Fin 3, item.name.2 k ≠ 0 ∧ item.name.2 k = item.name.1 (k.castLE (by decide))) := by
  unfold period printed.chars
  by_cases hext : item.isFile ∧ item.name.2 0 ≠ 0
  . have hchars : ∀ rest : List (List UInt8 × UInt32),
        ((ascii ".", 0xF) :: rest).flatMap Prod.fst = 0x2E :: rest.flatMap Prod.fst :=
      fun _ => rfl
    rw [if_pos hext, if_pos hext, hchars, List.cons_inj_right, imp_iff_right hext.1,
      imp_iff_right hext.2]
    by_cases hlong : item.name.2 2 ≠ 0
    . rw [if_pos hlong, ← takeWhile_eq_take_iff]
      rfl
    . rw [if_neg hlong, List.flatMap_nil, List.ofFn_succ, List.takeWhile_cons,
        if_pos (decide_eq_true hext.2)]
      constructor
      . intro h
        contradiction
      . intro h
        exact absurd (h 2).1 hlong
  . rw [if_neg hext, if_neg hext, List.flatMap_nil, eq_self_iff_true, true_iff]
    intro hfile hne
    exact absurd ⟨hfile, hne⟩ hext

theorem line_eq_iff {item : Item}
    : printed.chars (line item) = item.label ++ ascii "\n" ↔ Plain item := by
  have hplain : Plain item ↔ (item.name.1 7 ≠ 0 → ∀ k, item.name.1 k ≠ 0) ∧
      (item.isFile → item.name.2 0 ≠ 0 →
        ∀ k : Fin 3, item.name.2 k ≠ 0 ∧ item.name.2 k = item.name.1 (k.castLE (by decide))) :=
    ⟨fun h => ⟨h.name, h.ext⟩, fun h => ⟨h.1, h.2⟩⟩
  have hchars : printed.chars (line item)
      = (if item.name.1 7 ≠ 0 then List.ofFn item.name.1 else name_chars item.name.1) ++
        printed.chars (period item) ++ ascii "\n" := by
    unfold line printed.chars
    rw [List.flatMap_cons, List.flatMap_append, List.flatMap_singleton, List.append_assoc]
  rw [hplain, hchars, List.append_left_inj, ← period_eq_iff]
  by_cases hclean : item.name.1 7 ≠ 0 → ∀ k, item.name.1 k ≠ 0
  . have hname : (if item.name.1 7 ≠ 0 then List.ofFn item.name.1 else name_chars item.name.1)
        = name_chars item.name.1 := by
      split
      . next hlong => exact (takeWhile_ofFn (hclean hlong)).symm
      . rfl
    unfold Item.label
    rw [hname, List.append_right_inj]
    exact (and_iff_right hclean).symm
  . -- a zero byte in the middle goes to the screen, but is in no label
    simp only [Classical.not_imp, not_forall, not_not] at hclean
    rcases hclean with ⟨hlong, k, hzero⟩
    constructor
    . intro h
      exfalso
      apply zero_not_mem_label item
      rw [← h, if_pos hlong, List.mem_append, List.mem_ofFn]
      exact Or.inl ⟨k, hzero⟩
    . intro h
      exact absurd hzero (h.1 hlong k)

/--
`items` are what the store has in the directory, each once, in the order of the slots.
-/
structure Listing (d : Disk) (dir : UInt32) (items : List Item) : Prop where
  mem_iff : ∀ item, item ∈ items ↔ item ∈ d.store ∧ item.parent = dir.toNat
  nodup : items.Nodup
  ordered : items.Pairwise fun item item' => ∃ i j : Fin 64, i < j ∧
    d.Shows (dir.toNat, i) item ∧ d.Shows (dir.toNat, j) item'

/--
`ls` is called for the directory: without an argument in it, or with a path that leads there.
-/
inductive Goes (argv : Argv) (s : Shell) : Nat → UInt32 → Prop where
  | here : Goes argv s 1 s.currentDirectory
  | path {absolute : Bool} {words : List (List UInt8)} {dir : UInt32} :
    Spellable absolute words → argv.Holds (spell absolute words) →
      Walk.follow s.kernel.disk.look (cd.origin absolute s) (words.map entry_name) = .inl dir →
        Goes argv s 2 dir

def occupied (d : Disk) (dir : UInt32) : List (Fin 64) :=
  write.slots.filter fun i => (d.table (clusterIndex dir) i).user_attribute = UATTR_NOT_EMPTY

theorem list_apply {s : Shell} {f : Fin 64 → Item}
    (hf : ∀ i ∈ occupied s.kernel.disk s.currentDirectory,
      s.kernel.disk.Shows (clusterIndex s.currentDirectory, i) (f i))
    : ls.list s
        =
      some ((), (s.visit s.currentDirectory s.currentDirectory).put
        (((occupied s.kernel.disk s.currentDirectory).map f).flatMap line)) := by
  unfold ls.list
  rw [Fallible.get_bind_apply, Fallible.bind_apply, updateDirectoryTable_apply, Option.bind_some,
    Fallible.get_bind_apply, List.flatMap_map]
  unfold occupied
  rw [flatMap_filter]
  simp only [decide_eq_true_eq]
  apply prints_forM
  intro i hi t
  have htable : (s.visit s.currentDirectory s.currentDirectory).dirTable
      = s.kernel.disk.table (clusterIndex s.currentDirectory) := rfl
  rw [htable]
  split
  . next hlive =>
    exact entry_apply (hf i (List.mem_filter.mpr ⟨hi, decide_eq_true hlive⟩)) t
  . rw [Shell.put_nil]
    rfl

theorem run_of_goes {argv : Argv} {s : Shell} {argc : Nat} {dir : UInt32}
    (h : Goes argv s argc dir) {f : Fin 64 → Item}
    (hf : ∀ i ∈ occupied s.kernel.disk dir, s.kernel.disk.Shows (clusterIndex dir, i) (f i))
    : AiOS.ls argv argc s
        =
      some ((), (s.visit s.currentDirectory dir).put
        (((occupied s.kernel.disk dir).map f).flatMap line)) := by
  unfold AiOS.ls
  rw [Fallible.get_bind_apply]
  cases h with
  | here =>
    rw [if_pos rfl, pure_bind]
    dsimp only
    rw [if_pos rfl, Fallible.bind_apply, list_apply hf]
    rfl
  | path hspell hargv hfollow =>
    have hcd : cd argv 2 true s = some (0, s.visit dir dir) := by
      apply cd.run_of_inl hspell hargv
      rw [if_pos rfl]
      exact hfollow
    rw [if_neg (by decide), Fallible.bind_apply, hcd, Option.bind_some]
    dsimp only
    rw [if_pos rfl, Fallible.bind_apply, list_apply (s := s.visit dir dir) hf]
    rfl

section

variable {d : Disk} {dir : UInt32} {f : Fin 64 → Item}

theorem mem_occupied_iff {i : Fin 64} : i ∈ occupied d dir ↔ d.Lists dir i := by
  unfold occupied
  rw [List.mem_filter, write.mem_slots, decide_eq_true_eq]
  exact ⟨fun h => ⟨h.1, h.2⟩, fun h => ⟨h.slot, h.live⟩⟩

theorem listing_of_shows {st : FAT32DriverState} (h : Recovered (st, d)) (hdir : d.Tree dir)
    (hf : ∀ i ∈ occupied d dir, d.Shows (clusterIndex dir, i) (f i))
    : Listing d dir ((occupied d dir).map f) := by
  have hwf : d.WellFormed := h.wellFormed
  have hindex := Disk.clusterIndex_of_tree hwf hdir
  rw [hindex] at hf
  have hordered : (occupied d dir).Pairwise (· < ·) := write.pairwise_slots.filter _
  refine ⟨?_, ?_, ?_⟩
  . intro item
    rw [List.mem_map]
    constructor
    . intro ⟨i, hi, heq⟩
      rw [← heq]
      exact ⟨⟨_, hf i hi⟩, (hf i hi).parent⟩
    . intro ⟨⟨⟨p, i⟩, hshows⟩, hparent⟩
      have hp : p = dir.toNat := hshows.parent.symm.trans hparent
      subst hp
      have hlists : d.Lists dir i := by
        refine ⟨hshows.live.slot, ?_⟩
        rw [hindex]
        exact hshows.live.live
      have hmem := mem_occupied_iff.mpr hlists
      exact ⟨i, hmem, (hf i hmem).unique hshows⟩
  . apply List.Nodup.map_on _ hordered.nodup
    intro i hi j hj heq
    have hdistinct : ∀ p, d.Directory p → (d.table p).Distinct := fun p hp => (h.regular p hp).distinct
    have hshows := hf i hi
    rw [heq] at hshows
    have hslot := hshows.slot_unique hwf hdistinct (hf j hj)
    exact congrArg Prod.snd hslot
  . rw [List.pairwise_map]
    apply hordered.imp_of_mem
    intro i j hi hj hlt
    exact ⟨i, j, hlt, hf i hi, hf j hj⟩

theorem exists_shows {st : FAT32DriverState} (h : Recovered (st, d)) (hdir : d.Tree dir)
    : ∃ f : Fin 64 → Item, ∀ i ∈ occupied d dir, d.Shows (clusterIndex dir, i) (f i) := by
  have hwf : d.WellFormed := h.wellFormed
  have hall : ∀ i, ∃ item, i ∈ occupied d dir → d.Shows (clusterIndex dir, i) item := by
    intro i
    by_cases hi : i ∈ occupied d dir
    . have hlive := Disk.live_of_lists hwf hdir (mem_occupied_iff.mp hi)
      rw [← Disk.clusterIndex_of_tree hwf hdir] at hlive
      rcases hwf.exists_shows hlive with ⟨item, hitem⟩
      exact ⟨item, fun _ => hitem⟩
    . exact ⟨⟨0, (fun _ => 0, fun _ => 0), .directory 0⟩, fun hmem => absurd hmem hi⟩
  choose f hf using hall
  exact ⟨f, hf⟩

end
end ls

end AiOS
