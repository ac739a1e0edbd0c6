import AiOS.Fat32.Lemmas.Search
import AiOS.Lib.Traversal
import AiOS.Shell.Impl.Files
import AiOS.Shell.Line
import AiOS.Shell.Resolve

/-!
This module contains what `find` reports: the entries with the name it looks for, each once and in
the order of the slots, on every disk where no directory is more than 14 levels deep.
-/

namespace AiOS

namespace Disk

/--
The directories, with the slots of their subdirectories.
-/
def graph (d : Disk) : Slotted UInt32 (Fin 64) where
  slots := write.slots
  child dir i :=
    let entry := d.table (clusterIndex dir) i
    if 2 ≤ i.val ∧ entry.user_attribute = UATTR_NOT_EMPTY ∧
        entry.attribute = ATTR_SUBDIRECTORY then
      some entry.cluster_number
    else
      none
  mem_slots := by
    intro dir i m h
    dsimp only at h
    split at h
    . next hcond => exact (write.mem_slots i).mpr hcond.1
    . contradiction

def names (d : Disk) (dir : UInt32) : List (Fin 64) → List (Fin 8 → UInt8)
  | [] => []
  | i :: route =>
    let entry := d.table (clusterIndex dir) i
    entry.name :: d.names entry.cluster_number route

def last (d : Disk) (dir : UInt32) : List (Fin 64) → FAT32DirectoryEntry
  | [] => .zero
  | [i] => d.table (clusterIndex dir) i
  | i :: j :: route => d.last (d.table (clusterIndex dir) i).cluster_number (j :: route)

/--
The names of the directories down to the entry at the end of a route, with its own if it is one.
-/
def directories (d : Disk) (dir : UInt32) (route : List (Fin 64)) : List (Fin 8 → UInt8) :=
  if (d.last dir route).attribute = ATTR_SUBDIRECTORY then
    d.names dir route
  else
    (d.names dir route).dropLast

def named (d : Disk) (item : Fin 8 → UInt8) (dir : UInt32) (i : Fin 64) : Bool :=
  let entry := d.table (clusterIndex dir) i
  entry.user_attribute = UATTR_NOT_EMPTY ∧ entry.name = item

section

variable {d : Disk} {dir m : UInt32} {i : Fin 64} {route : List (Fin 64)}

theorem graph_child_eq_some_iff
    : d.graph.child dir i = some m
        ↔
      d.Lists dir i ∧ (d.table (clusterIndex dir) i).attribute = ATTR_SUBDIRECTORY ∧
        (d.table (clusterIndex dir) i).cluster_number = m := by
  unfold graph
  dsimp only
  split
  . next h =>
    rw [Option.some.injEq]
    constructor
    . intro hm
      exact ⟨⟨h.1, h.2.1⟩, h.2.2, hm⟩
    . intro hm
      exact hm.2.2
  . next h =>
    constructor
    . intro hm
      contradiction
    . intro ⟨hlists, hdir, _⟩
      exact absurd ⟨hlists.slot, hlists.live, hdir⟩ h

theorem tree_iff_follow : d.Tree dir ↔ ∃ route, d.graph.follow ROOT_CLUSTER_NUMBER route = some dir := by
  constructor
  . intro h
    induction h with
    | root => exact ⟨[], rfl⟩
    | @child dir i _ hlists hsub ih =>
      rcases ih with ⟨route, hroute⟩
      refine ⟨route ++ [i], ?_⟩
      rw [Slotted.follow_concat_eq_some_iff]
      exact ⟨dir, hroute, graph_child_eq_some_iff.mpr ⟨hlists, hsub, rfl⟩⟩
  . intro ⟨route, hroute⟩
    induction route using List.reverseRecOn generalizing dir with
    | nil =>
      rw [Slotted.follow_nil, Option.some.injEq] at hroute
      rw [← hroute]
      exact Tree.root
    | append_singleton route i ih =>
      rw [Slotted.follow_concat_eq_some_iff] at hroute
      rcases hroute with ⟨p, hp, hchild⟩
      rw [graph_child_eq_some_iff] at hchild
      rw [← hchild.2.2]
      exact Tree.child (ih hp) hchild.1 hchild.2.1

theorem named_iff {item : Fin 8 → UInt8}
    : i ∈ d.graph.slots ∧ d.named item dir i = true
        ↔
      d.Lists dir i ∧ (d.table (clusterIndex dir) i).name = item := by
  unfold named
  rw [decide_eq_true_iff, ← and_assoc]
  apply and_congr_left'
  have hslots : i ∈ d.graph.slots ↔ 2 ≤ i.val := write.mem_slots i
  rw [hslots]
  constructor
  . intro ⟨hslot, hlive⟩
    exact ⟨hslot, hlive⟩
  . intro hlists
    exact ⟨hlists.slot, hlists.live⟩

theorem directories_singleton
    : d.directories dir [i]
        =
      if (d.table (clusterIndex dir) i).attribute = ATTR_SUBDIRECTORY then
        [(d.table (clusterIndex dir) i).name]
      else
        [] := by
  rfl

theorem last_cons (hne : route ≠ [])
    : d.last dir (i :: route) = d.last (d.table (clusterIndex dir) i).cluster_number route := by
  cases route with
  | nil => contradiction
  | cons j route => rfl

theorem directories_cons (hne : route ≠ [])
    : d.directories dir (i :: route)
        =
      (d.table (clusterIndex dir) i).name ::
        d.directories (d.table (clusterIndex dir) i).cluster_number route := by
  unfold directories
  rw [last_cons hne, names]
  split
  . rfl
  . cases route with
    | nil => contradiction
    | cons j route => rfl

end
end Disk

namespace Shell

def put (s : Shell) (output : List (List UInt8 × UInt32)) : Shell :=
  { s with printed := s.printed ++ output }

section

variable (s : Shell) (output output' : List (List UInt8 × UInt32)) (dir loaded : UInt32)

@[simp]
theorem put_nil : s.put [] = s := by
  unfold put
  rw [List.append_nil]

@[simp]
theorem put_put : (s.put output).put output' = s.put (output ++ output') := by
  unfold put
  rw [List.append_assoc]

@[simp]
theorem put_kernel : (s.put output).kernel = s.kernel := by
  rfl

@[simp]
theorem put_currentDirectory : (s.put output).currentDirectory = s.currentDirectory := by
  rfl

@[simp]
theorem visit_put : (s.put output).visit dir loaded = (s.visit dir loaded).put output := by
  rfl

theorem visit_of_loaded (h : s.dirTable = s.kernel.disk.table (clusterIndex loaded))
    : s.visit s.currentDirectory loaded = s := by
  unfold visit
  rw [← h]

end
end Shell

section

variable {ι : Type} {p : ShellM Unit} {f : Unit → ShellM Unit} {l : List ι} {q : ι → ShellM Unit}
  {o : ι → List (List UInt8 × UInt32)} {output output' : List (List UInt8 × UInt32)}

theorem prints_bind {s : Shell} (hp : p s = some ((), s.put output))
    (hf : ∀ s : Shell, f () s = some ((), s.put output'))
    : (p >>= f) s = some ((), s.put (output ++ output')) := by
  rw [Fallible.bind_apply, hp, Option.bind_some, hf, Shell.put_put]

theorem optional_apply {β : Type} {c : Prop} [Decidable c] {k : Unit → ShellM β} {s : Shell}
    (hp : p s = some ((), s.put output))
    : (if c then p >>= k else k ()) s = k () (s.put (if c then output else [])) := by
  split
  . rw [Fallible.bind_apply, hp, Option.bind_some]
  . rw [Shell.put_nil]

theorem prints_forM (h : ∀ a ∈ l, ∀ s : Shell, q a s = some ((), s.put (o a))) (s : Shell)
    : l.forM q s = some ((), s.put (l.flatMap o)) := by
  induction l generalizing s with
  | nil =>
    rw [List.flatMap_nil, Shell.put_nil]
    rfl
  | cons a l ih =>
    rw [List.forall_mem_cons] at h
    rw [List.flatMap_cons]
    apply prints_bind (h.1 s)
    exact ih h.2

end

theorem printlen_apply (string : List UInt8) (color : UInt32) (s : Shell)
    : printlen string color s = some ((), s.put [(string, color)]) := by
  rfl

theorem print_chars_apply {string chars : List UInt8} (h : strlen.chars string = some chars)
    (color : UInt32) (s : Shell)
    : print.chars string color s = some ((), s.put [(chars, color)]) := by
  unfold print.chars
  rw [Fallible.ofOption_bind_apply, h]
  rfl

theorem strlen.chars_append (chars rest : List UInt8)
    : strlen.chars (chars ++ 0 :: rest) = some (chars.takeWhile fun c => c ≠ 0) := by
  induction chars with
  | nil => rfl
  | cons c chars ih =>
    unfold strlen.chars strlen at ih ⊢
    rw [List.cons_append, List.findIdx?_cons, List.takeWhile_cons]
    by_cases hc : c = 0
    . simp [hc]
    . rw [Option.map_eq_some_iff] at ih
      rcases ih with ⟨len, hlen, htake⟩
      simp [hc, hlen, htake]

namespace find

def path (names : List (Fin 8 → UInt8)) : PathList :=
  fun k =>
    if h : k.val % 10 < 8 then
      (((fun _ => 0) :: names).getD (k / 10) fun _ => 0) ⟨k % 10, h⟩
    else
      0

theorem path_nil : path [] = fun _ => 0 := by
  funext k
  unfold path
  split
  . cases k.val / 10 with
    | zero => rfl
    | succ j => rfl
  . rfl

variable {names : List (Fin 8 → UInt8)} {name : Fin 8 → UInt8}

theorem getD_concat {j : Nat} (hj : j ≠ names.length + 1)
    : ((fun _ => 0) :: (names ++ [name])).getD j (fun _ => 0)
        =
      ((fun _ => 0) :: names).getD j fun _ => 0 := by
  cases j with
  | zero => rfl
  | succ j =>
    rw [List.getD_cons_succ, List.getD_cons_succ]
    by_cases hlt : j < names.length
    . rw [List.getD_append _ _ _ _ hlt]
    . have hlen : (names ++ [name]).length ≤ j := by
        rw [List.length_append, List.length_singleton]
        omega
      rw [List.getD_eq_default _ _ hlen, List.getD_eq_default _ _ (by omega)]

theorem getD_length
    : ((fun _ => 0) :: (names ++ [name])).getD (names.length + 1) (fun _ => 0) = name := by
  rw [List.getD_cons_succ, List.getD_append_right _ _ _ _ (Nat.le_refl _)]
  simp

theorem store_name (h : names.length ≤ 13)
    : store (path names) (10 * (names.length + 1)) (List.ofFn name)
        =
      some (path (names ++ [name])) := by
  unfold store
  rw [if_pos (by rw [List.length_ofFn]; omega)]
  congr 1
  funext k
  unfold path
  by_cases hrow : k.val / 10 = names.length + 1
  . rw [if_pos (by omega), hrow, getD_length]
    split
    . next hk =>
      rw [List.getD_eq_getElem _ _ (by rw [List.length_ofFn]; omega), List.getElem_ofFn]
      congr 1
      rw [Fin.mk.injEq]
      omega
    . next hk => rw [List.getD_eq_default _ _ (by rw [List.length_ofFn]; omega)]
  . rw [getD_concat hrow]
    split
    . rw [List.getD_eq_default _ _ (by rw [List.length_ofFn]; omega)]
    . rfl

theorem store_zeros (h : names.length ≤ 13)
    : store (path (names ++ [name])) (10 * (names.length + 1)) (List.replicate 10 0)
        =
      some (path names) := by
  unfold store
  rw [if_pos (by rw [List.length_replicate]; omega)]
  congr 1
  funext k
  unfold path
  by_cases hrow : k.val / 10 = names.length + 1
  . have hk : k.val - 10 * (names.length + 1) < (List.replicate 10 (0 : UInt8)).length := by
      rw [List.length_replicate]
      omega
    have hlen : (((fun _ => 0) : Fin 8 → UInt8) :: names).length ≤ names.length + 1 := by
      apply Nat.le_of_eq
      apply List.length_cons
    rw [if_pos (by omega), hrow, List.getD_eq_default _ _ hlen, List.getD_eq_getElem _ _ hk,
      List.getElem_replicate]
    split
    . rfl
    . rfl
  . rw [getD_concat hrow]
    split
    . rw [List.getD_eq_default _ _ (by rw [List.length_replicate]; omega)]
    . rfl

theorem chars_row {i : Nat} (hi : i < 15)
    : strlen.chars ((List.ofFn (path names)).drop (10 * i))
        =
      some (name_chars (((fun _ => 0) :: names).getD i fun _ => 0)) := by
  have hlen : (List.ofFn (path names)).length = 150 := List.length_ofFn
  have hname : ((List.ofFn (path names)).drop (10 * i)).take 8
      = List.ofFn (((fun _ => 0) :: names).getD i fun _ => 0) := by
    apply List.ext_getElem
    . rw [List.length_take, List.length_drop, List.length_ofFn, List.length_ofFn]
      omega
    . intro k hk hk'
      rw [List.length_ofFn] at hk'
      have hmod : (10 * i + k) % 10 = k := by omega
      have hdiv : (10 * i + k) / 10 = i := by omega
      rw [List.getElem_take, List.getElem_drop, List.getElem_ofFn, List.getElem_ofFn]
      unfold path
      simp only [hmod, hdiv]
      rw [dif_pos hk']
  have hzero : (List.ofFn (path names)).drop (10 * i + 8)
      = 0 :: (List.ofFn (path names)).drop (10 * i + 8 + 1) := by
    rw [List.drop_eq_getElem_cons (by omega), List.getElem_ofFn]
    congr 1
    unfold path
    rw [dif_neg (by dsimp only; omega)]
  unfold name_chars
  rw [← List.take_append_drop 8 ((List.ofFn (path names)).drop (10 * i)), hname, List.drop_drop,
    hzero, strlen.chars_append]

def shown (names : List (Fin 8 → UInt8)) : List (List UInt8 × UInt32) :=
  ((List.range (names.length + 1)).flatMap fun i =>
    [(name_chars (((fun _ => 0) :: names).getD i fun _ => 0), 0xF), (ascii "/", 0xF)]) ++
      [(ascii "\n", 0xF)]

theorem printPathFromList_apply (h : names.length ≤ 14) (s : Shell)
    : printPathFromList (path names) (names.length + 1) s = some ((), s.put (shown names)) := by
  unfold printPathFromList shown
  apply prints_bind
  . apply prints_forM
    intro i hi s
    rw [List.mem_range] at hi
    have hchars : strlen.chars ((List.ofFn (path names)).drop (10 * i)) = some _ :=
      chars_row (by omega)
    have hname := print_chars_apply hchars 0xF s
    have hslash : ∀ s : Shell, printlen (ascii "/") 0xF s = some ((), s.put [(ascii "/", 0xF)]) :=
      fun s => printlen_apply _ _ s
    exact prints_bind hname hslash
  . intro s
    apply printlen_apply

end find

def findHelper.report (pathList : find.PathList) (lenPath : Nat) (entry : FAT32DirectoryEntry)
    : ShellM Unit :=
  if entry.attribute = ATTR_SUBDIRECTORY then
    printPathFromList pathList lenPath
  else do
    printPathFromList pathList lenPath
    print.name entry.name

def findHelper.visit (report : find.PathList → Nat → FAT32DirectoryEntry → ShellM Unit)
    (fuel : Nat) (item : Fin 8 → UInt8) (curDirCluster : UInt32) (lenPath : Nat)
    (pathList : find.PathList) (found : Bool) : ShellM (find.PathList × Bool) :=
  match fuel with
  | 0 => Fallible.ofOption none
  | fuel + 1 => do
    updateDirectoryTable curDirCluster
    write.slots.foldlM (fun (pathList, found) i => do
      let s ← get
      let entry := s.dirTable i
      if entry.user_attribute ≠ UATTR_NOT_EMPTY then
        return (pathList, found)
      else if entry.attribute = ATTR_SUBDIRECTORY then
        let pathList ← Fallible.ofOption (store pathList (10 * lenPath) (List.ofFn entry.name))
        if memcmp entry.name item = 0 then
          report pathList (lenPath + 1) entry
        let found := found || memcmp entry.name item = 0
        let (pathList, found) ←
          findHelper.visit report fuel item
            ((entry.cluster_high.toUInt32 <<< 16) + entry.cluster_low.toUInt32) (lenPath + 1)
            pathList found
        updateDirectoryTable curDirCluster
        let pathList ← Fallible.ofOption (store pathList (10 * lenPath) (List.replicate 10 0))
        return (pathList, found)
      else if memcmp entry.name item = 0 then
        report pathList lenPath entry
        return (pathList, true)
      else
        return (pathList, found)) (pathList, found)

def find.visit (report : find.PathList → Nat → FAT32DirectoryEntry → ShellM Unit) (fuel : Nat)
    (argv : Argv) (argc : Nat) : ShellM Unit :=
  if argc > 2 then
    print "Find: wrong argument count" 0xF
  else do
    let item ← Fallible.ofOption (bytes 8 (argv.row 1))
    let (_, found) ← findHelper.visit report fuel item ROOT_CLUSTER_NUMBER 1 (fun _ => 0) false
    if ¬ found then
      print "Find: gak ketemu cok!!!" 0xF

theorem findHelper_eq_visit (fuel : Nat) : findHelper fuel = findHelper.visit findHelper.report fuel := by
  induction fuel with
  | zero => rfl
  | succ fuel ih =>
    funext item curDirCluster lenPath pathList found
    unfold findHelper findHelper.visit
    congr 1
    funext _
    congr 1
    funext reached i s
    rcases reached with ⟨pathList, found⟩
    simp only [Fallible.get_bind_apply]
    split
    . rfl
    . split
      . next hdir =>
        rw [ih]
        simp only [findHelper.report, if_pos hdir]
      . next hfile =>
        simp only [findHelper.report, if_neg hfile, bind_assoc]

theorem find_eq_visit (fuel : Nat) : find fuel = find.visit findHelper.report fuel := by
  unfold find find.visit
  rw [findHelper_eq_visit]

namespace findHelper

section

variable {d : Disk} {item : Fin 8 → UInt8} {dir : UInt32} {i : Fin 64} (fuel : Nat)

theorem hitsAt_of_unused (h : (d.table (clusterIndex dir) i).user_attribute ≠ UATTR_NOT_EMPTY)
    : d.graph.hitsAt (d.named item) fuel dir i = [] := by
  have hchild : d.graph.child dir i = none := if_neg fun hcond => h hcond.2.1
  have hnamed : d.named item dir i = false := decide_eq_false fun hcond => h hcond.1
  unfold Slotted.hitsAt
  rw [hchild, hnamed]
  rfl

variable (hlists : d.Lists dir i)

include hlists

theorem hitsAt_of_file (h : (d.table (clusterIndex dir) i).attribute ≠ ATTR_SUBDIRECTORY)
    : d.graph.hitsAt (d.named item) fuel dir i
        =
      if (d.table (clusterIndex dir) i).name = item then [[i]] else [] := by
  have hchild : d.graph.child dir i = none := if_neg fun hcond => h hcond.2.2
  unfold Slotted.hitsAt Disk.named
  rw [hchild, Option.elim_none, List.append_nil]
  simp [hlists.live]

theorem hitsAt_of_directory (h : (d.table (clusterIndex dir) i).attribute = ATTR_SUBDIRECTORY)
    : d.graph.hitsAt (d.named item) fuel dir i
        =
      (if (d.table (clusterIndex dir) i).name = item then [[i]] else []) ++
        (d.graph.hits (d.named item) fuel (d.table (clusterIndex dir) i).cluster_number).map
          (i :: ·) := by
  have hchild : d.graph.child dir i = some (d.table (clusterIndex dir) i).cluster_number :=
    Disk.graph_child_eq_some_iff.mpr ⟨hlists, h, rfl⟩
  unfold Slotted.hitsAt Disk.named
  rw [hchild, Option.elim_some]
  simp [hlists.live]

end

theorem flatMap_hitsAt (fuel : Nat) {d : Disk} {item : Fin 8 → UInt8} {dir : UInt32} {i : Fin 64}
    (hlists : d.Lists dir i)
    (hsub : (d.table (clusterIndex dir) i).attribute = ATTR_SUBDIRECTORY)
    (out : List (Fin 8 → UInt8) → FAT32DirectoryEntry → List (List UInt8 × UInt32))
    (names : List (Fin 8 → UInt8))
    : ((d.graph.hitsAt (d.named item) fuel dir i).flatMap fun route =>
        out (names ++ d.directories dir route) (d.last dir route))
        =
      (if (d.table (clusterIndex dir) i).name = item then
        out (names ++ [(d.table (clusterIndex dir) i).name]) (d.table (clusterIndex dir) i)
      else
        []) ++
        ((d.graph.hits (d.named item) fuel (d.table (clusterIndex dir) i).cluster_number).flatMap
          fun route =>
            out
              (names ++ [(d.table (clusterIndex dir) i).name] ++
                d.directories (d.table (clusterIndex dir) i).cluster_number route)
              (d.last (d.table (clusterIndex dir) i).cluster_number route)) := by
  rw [hitsAt_of_directory fuel hlists hsub, List.flatMap_append]
  congr 1
  . split
    . rw [List.flatMap_singleton, Disk.directories_singleton, if_pos hsub]
      rfl
    . rfl
  . rw [List.flatMap_map]
    apply List.flatMap_congr
    intro route hroute
    have hne := d.graph.ne_nil_of_mem_hits (d.named item) hroute
    rw [Disk.directories_cons hne, Disk.last_cons hne, List.append_assoc, List.singleton_append]

theorem isEmpty_hitsAt (fuel : Nat) {d : Disk} {item : Fin 8 → UInt8} {dir : UInt32} {i : Fin 64}
    (hlists : d.Lists dir i)
    (hsub : (d.table (clusterIndex dir) i).attribute = ATTR_SUBDIRECTORY)
    : (d.graph.hitsAt (d.named item) fuel dir i).isEmpty
        =
      (!decide ((d.table (clusterIndex dir) i).name = item) &&
        (d.graph.hits (d.named item) fuel (d.table (clusterIndex dir) i).cluster_number).isEmpty) := by
  rw [hitsAt_of_directory fuel hlists hsub]
  split
  . next hname => simp [hname]
  . next hname => simp [hname]

theorem cluster_add_eq (entry : FAT32DirectoryEntry)
    : (entry.cluster_high.toUInt32 <<< 16) + entry.cluster_low.toUInt32 = entry.cluster_number := by
  apply UInt32.toNat_inj.mp
  rw [FAT32DirectoryEntry.toNat_cluster_number]
  exact FAT32DirectoryEntry.toNat_cluster_add entry

theorem foldlM_apply {ι κ : Type} {l : List ι} {hits : ι → List κ} {d : Disk} {loaded : UInt32}
    {out : κ → List (List UInt8 × UInt32)} {pathList : find.PathList}
    {body : find.PathList × Bool → ι → ShellM (find.PathList × Bool)}
    (hbody : ∀ i ∈ l, ∀ found (s : Shell), s.kernel.disk = d →
      s.dirTable = d.table (clusterIndex loaded) →
      body (pathList, found) i s
        = some ((pathList, found || !(hits i).isEmpty), s.put ((hits i).flatMap out)))
    (found : Bool) (s : Shell) (hd : s.kernel.disk = d)
    (hs : s.dirTable = d.table (clusterIndex loaded))
    : l.foldlM body (pathList, found) s
        =
      some ((pathList, found || !(l.flatMap hits).isEmpty), s.put ((l.flatMap hits).flatMap out)) := by
  induction l generalizing found s with
  | nil => simp
  | cons i l ih =>
    rw [List.forall_mem_cons] at hbody
    rw [List.foldlM_cons, Fallible.bind_apply, hbody.1 found s hd hs, Option.bind_some]
    have hrest := ih hbody.2 (found || !(hits i).isEmpty) (s.put ((hits i).flatMap out)) hd hs
    dsimp only
    rw [hrest, Shell.put_put, List.flatMap_cons, List.flatMap_append]
    cases hits i with
    | nil => simp
    | cons a rest => simp

section

variable {report : find.PathList → Nat → FAT32DirectoryEntry → ShellM Unit}
  {out : List (Fin 8 → UInt8) → FAT32DirectoryEntry → List (List UInt8 × UInt32)}
  (hreport : ∀ names entry (s : Shell), names.length ≤ 14 →
    report (find.path names) (names.length + 1) entry s = some ((), s.put (out names entry)))
  (item : Fin 8 → UInt8) (d : Disk)

include hreport

theorem visit_apply {fuel depth : Nat} {dir : UInt32} {names : List (Fin 8 → UInt8)}
    (hbound : d.graph.Bounded depth dir) (hfuel : depth < fuel) (hdepth : names.length + depth ≤ 14)
    (found : Bool) {s : Shell} (hd : s.kernel.disk = d)
    : findHelper.visit report fuel item dir (names.length + 1) (find.path names) found s
        =
      some
        ((find.path names, found || !(d.graph.hits (d.named item) fuel dir).isEmpty),
          (s.visit s.currentDirectory dir).put
            ((d.graph.hits (d.named item) fuel dir).flatMap fun route =>
              out (names ++ d.directories dir route) (d.last dir route))) := by
  induction fuel generalizing depth dir names found s with
  | zero => contradiction
  | succ fuel ih =>
    unfold findHelper.visit
    rw [Fallible.bind_apply, updateDirectoryTable_apply, Option.bind_some, Slotted.hits_succ]
    have hloaded : (s.visit s.currentDirectory dir).dirTable = d.table (clusterIndex dir) := by
      rw [← hd]
      rfl
    apply foldlM_apply _ _ (s.visit s.currentDirectory dir) hd hloaded
    intro i hi found t htd ht
    dsimp only
    rw [Fallible.get_bind_apply, ht]
    by_cases hlive : (d.table (clusterIndex dir) i).user_attribute = UATTR_NOT_EMPTY
    . have hlists : d.Lists dir i := ⟨(write.mem_slots i).mp hi, hlive⟩
      rw [if_neg (not_not.mpr hlive)]
      split
      . next hsub =>
        have hchild : d.graph.child dir i = some (d.table (clusterIndex dir) i).cluster_number :=
          Disk.graph_child_eq_some_iff.mpr ⟨hlists, hsub, rfl⟩
        have hnext := hbound.child hchild
        have hlen : (names ++ [(d.table (clusterIndex dir) i).name]).length = names.length + 1 := by
          rw [List.length_append, List.length_singleton]
        rw [Fallible.ofOption_bind_apply, find.store_name (by omega), Option.bind_some]
        have hself : report (find.path (names ++ [(d.table (clusterIndex dir) i).name]))
            (names.length + 1 + 1) (d.table (clusterIndex dir) i) t
              = some ((), t.put (out (names ++ [(d.table (clusterIndex dir) i).name])
                  (d.table (clusterIndex dir) i))) := by
          rw [← hlen]
          apply hreport _ _ _ (by omega)
        have hbelow := fun found (t' : Shell) (htd' : t'.kernel.disk = d) =>
          ih hnext.2 (by omega) (by rw [hlen]; omega) found htd'
        rw [hlen] at hbelow
        rw [optional_apply hself, Fallible.bind_apply, cluster_add_eq, hbelow _ (t.put _) htd,
          Option.bind_some]
        dsimp only
        rw [Fallible.bind_apply, updateDirectoryTable_apply, Option.bind_some,
          Fallible.ofOption_bind_apply, find.store_zeros (by omega), Option.bind_some,
          Fallible.pure_apply]
        have hvisit : t.visit t.currentDirectory dir = t := by
          apply Shell.visit_of_loaded
          rw [htd]
          exact ht
        simp only [Shell.visit_put, Shell.visit_visit, Shell.put_currentDirectory, Shell.put_put,
          Shell.visit_currentDirectory, memcmp_eq_zero_iff]
        rw [hvisit, isEmpty_hitsAt fuel hlists hsub, flatMap_hitsAt fuel hlists hsub, Bool.not_and,
          Bool.not_not, Bool.or_assoc]
      . next hfile =>
        have hself := hreport names (d.table (clusterIndex dir) i) t (by omega)
        rw [hitsAt_of_file fuel hlists hfile]
        simp only [memcmp_eq_zero_iff]
        split
        . rw [Fallible.bind_apply, hself]
          simp [Disk.directories_singleton, Disk.last, hfile]
        . simp
    . rw [if_pos hlive, hitsAt_of_unused fuel hlive]
      simp

end
end findHelper

namespace find

def printed (names : List (Fin 8 → UInt8)) (entry : FAT32DirectoryEntry)
    : List (List UInt8 × UInt32) :=
  if entry.attribute = ATTR_SUBDIRECTORY then
    shown names
  else if entry.name 7 ≠ 0 then
    shown names ++ [(List.ofFn entry.name, 0xF)]
  else
    shown names ++ [(name_chars entry.name, 0xF)]

theorem report_apply (names : List (Fin 8 → UInt8)) (entry : FAT32DirectoryEntry) (s : Shell)
    (h : names.length ≤ 14)
    : findHelper.report (path names) (names.length + 1) entry s
        = some ((), s.put (printed names entry)) := by
  unfold findHelper.report printed
  split
  . exact printPathFromList_apply h s
  . unfold print.name
    split
    . apply prints_bind (printPathFromList_apply h s)
      apply printlen_apply
    . apply prints_bind (printPathFromList_apply h s)
      apply printlen_apply

-- a report that writes down all that it is given
def record (out : PathList → Nat → FAT32DirectoryEntry → List (List UInt8 × UInt32))
    (pathList : PathList) (lenPath : Nat) (entry : FAT32DirectoryEntry) : ShellM Unit :=
  modify fun s => s.put (out pathList lenPath entry)

def complaint (reports : List (List (Fin 64))) : List (List UInt8 × UInt32) :=
  if reports = [] then [(ascii "Find: gak ketemu cok!!!", 0xF)] else []

/--
The routes from the root to all the entries of the name, each once, in the order of a search that
goes down before it goes on. In a tree, where no directory has two routes, each entry has one.
-/
structure Exact (d : Disk) (item : Fin 8 → UInt8) (reports : List (List (Fin 64))) : Prop where
  complete : ∀ route, route ∈ reports ↔ ∃ above dir i, route = above ++ [i] ∧
    d.graph.follow ROOT_CLUSTER_NUMBER above = some dir ∧ d.Lists dir i ∧
    (d.table (clusterIndex dir) i).name = item
  sorted : reports.Pairwise (List.Lex (· < ·))
  nodup : reports.Nodup
  once : (∀ route route' dir, d.graph.follow ROOT_CLUSTER_NUMBER route = some dir →
      d.graph.follow ROOT_CLUSTER_NUMBER route' = some dir → route = route') →
    ∀ dir i, d.Tree dir → d.Lists dir i → (d.table (clusterIndex dir) i).name = item →
      ∃! route, route ∈ reports ∧
        ∃ above, route = above ++ [i] ∧ d.graph.follow ROOT_CLUSTER_NUMBER above = some dir

theorem Exact.ne_nil_iff {d : Disk} {item : Fin 8 → UInt8} {reports : List (List (Fin 64))}
    (h : Exact d item reports)
    : reports ≠ []
        ↔
      ∃ dir i, d.Tree dir ∧ d.Lists dir i ∧ (d.table (clusterIndex dir) i).name = item := by
  simp only [Disk.tree_iff_follow]
  constructor
  . intro hne
    rcases List.exists_mem_of_ne_nil _ hne with ⟨route, hroute⟩
    rw [h.complete] at hroute
    rcases hroute with ⟨above, dir, i, _, hfollow, hlists, hname⟩
    exact ⟨dir, i, ⟨above, hfollow⟩, hlists, hname⟩
  . rintro ⟨dir, i, ⟨above, hfollow⟩, hlists, hname⟩
    apply List.ne_nil_of_mem (a := above ++ [i])
    rw [h.complete]
    exact ⟨above, dir, i, rfl, hfollow, hlists, hname⟩

section

variable {d : Disk} (hdeep : d.graph.Bounded 14 ROOT_CLUSTER_NUMBER)

include hdeep

theorem exact_hits {fuel : Nat} (hfuel : 15 ≤ fuel) (item : Fin 8 → UInt8)
    : Exact d item (d.graph.hits (d.named item) fuel ROOT_CLUSTER_NUMBER) := by
  have hsorted : (d.graph.hits (d.named item) fuel ROOT_CLUSTER_NUMBER).Pairwise
      (List.Lex (· < ·)) := by
    have hslots : write.slots.Pairwise (· < ·) := by decide
    exact d.graph.pairwise_hits _ hslots fuel _
  have hcomplete : ∀ route, route ∈ d.graph.hits (d.named item) fuel ROOT_CLUSTER_NUMBER
      ↔ ∃ above dir i, route = above ++ [i] ∧
        d.graph.follow ROOT_CLUSTER_NUMBER above = some dir ∧ d.Lists dir i ∧
        (d.table (clusterIndex dir) i).name = item := by
    intro route
    rw [Slotted.mem_hits_of_bounded _ _ hdeep (by omega)]
    simp only [Disk.named_iff]
  refine ⟨hcomplete, hsorted, ?_, ?_⟩
  . apply hsorted.imp
    intro route route' hlex heq
    rw [heq] at hlex
    exact lt_irrefl route' hlex
  . intro hunique dir i htree hlists hname
    rw [Disk.tree_iff_follow] at htree
    rcases htree with ⟨above, hfollow⟩
    refine ⟨above ++ [i], ⟨?_, above, rfl, hfollow⟩, ?_⟩
    . rw [hcomplete]
      exact ⟨above, dir, i, rfl, hfollow, hlists, hname⟩
    . rintro route ⟨_, above', hroute, hfollow'⟩
      rw [hroute, hunique above' above dir hfollow' hfollow]

variable {report : find.PathList → Nat → FAT32DirectoryEntry → ShellM Unit}
  {out : List (Fin 8 → UInt8) → FAT32DirectoryEntry → List (List UInt8 × UInt32)}
  (hreport : ∀ names entry (s : Shell), names.length ≤ 14 →
    report (path names) (names.length + 1) entry s = some ((), s.put (out names entry)))
  {fuel : Nat} (hfuel : 15 ≤ fuel) (item : Fin 8 → UInt8)

include hreport hfuel

theorem visit_root {s : Shell} (hd : s.kernel.disk = d)
    : findHelper.visit report fuel item ROOT_CLUSTER_NUMBER 1 (fun _ => 0) false s
        =
      some
        ((fun _ => 0, !(d.graph.hits (d.named item) fuel ROOT_CLUSTER_NUMBER).isEmpty),
          (s.visit s.currentDirectory ROOT_CLUSTER_NUMBER).put
            ((d.graph.hits (d.named item) fuel ROOT_CLUSTER_NUMBER).flatMap fun route =>
              out (d.directories ROOT_CLUSTER_NUMBER route) (d.last ROOT_CLUSTER_NUMBER route))) := by
  have hempty : ([] : List (Fin 8 → UInt8)).length + 14 ≤ 14 := by simp
  have hvisit := findHelper.visit_apply hreport item d hdeep (by omega : 14 < fuel) hempty false hd
  rw [path_nil] at hvisit
  simpa using hvisit

theorem visit_apply {argv : Argv} {argc : Nat} (hargc : argc ≤ 2)
    (hargv : bytes 8 (argv.row 1) = some item) {s : Shell} (hd : s.kernel.disk = d)
    : find.visit report fuel argv argc s
        =
      some
        ((), (s.visit s.currentDirectory ROOT_CLUSTER_NUMBER).put
          (((d.graph.hits (d.named item) fuel ROOT_CLUSTER_NUMBER).flatMap fun route =>
            out (d.directories ROOT_CLUSTER_NUMBER route) (d.last ROOT_CLUSTER_NUMBER route)) ++
            complaint (d.graph.hits (d.named item) fuel ROOT_CLUSTER_NUMBER))) := by
  unfold find.visit complaint
  rw [if_neg (by omega), Fallible.ofOption_bind_apply, hargv, Option.bind_some,
    Fallible.bind_apply, visit_root hdeep hreport hfuel item hd, Option.bind_some]
  dsimp only
  cases d.graph.hits (d.named item) fuel ROOT_CLUSTER_NUMBER with
  | nil =>
    rw [if_pos (by simp), if_pos rfl, ← Shell.put_put]
    apply printlen_apply
  | cons route reports =>
    rw [if_neg (by simp), if_neg (List.cons_ne_nil _ _), List.append_nil]
    rfl

end
end find

/--
Where no directory is more than 14 levels deep, `find` ends and reports the entries with the name it
looks for, padded with zeros, and no other. Any report gets the names of the directories down to the
entry in `pathList`.
-/
theorem find_exact (s : Shell) (hdeep : s.kernel.disk.graph.Bounded 14 ROOT_CLUSTER_NUMBER)
    (item : List UInt8) (argv : Argv) (hargv : bytes 8 (argv.row 1) = some (entry_name item))
    (argc : Nat) (hargc : argc ≤ 2) (fuel : Nat) (hfuel : 15 ≤ fuel)
    : ∃ reports found,
        find.Exact s.kernel.disk (entry_name item) reports ∧
        (found = true ↔ ∃ dir i, s.kernel.disk.Tree dir ∧ s.kernel.disk.Lists dir i ∧
          (s.kernel.disk.table (clusterIndex dir) i).name = entry_name item) ∧
        findHelper fuel (entry_name item) ROOT_CLUSTER_NUMBER 1 (fun _ => 0) false s
          = some ((fun _ => 0, found),
              (s.visit s.currentDirectory ROOT_CLUSTER_NUMBER).put
                (reports.flatMap fun route =>
                  find.printed (s.kernel.disk.directories ROOT_CLUSTER_NUMBER route)
                    (s.kernel.disk.last ROOT_CLUSTER_NUMBER route))) ∧
        find fuel argv argc s
          = some ((),
              (s.visit s.currentDirectory ROOT_CLUSTER_NUMBER).put
                ((reports.flatMap fun route =>
                  find.printed (s.kernel.disk.directories ROOT_CLUSTER_NUMBER route)
                    (s.kernel.disk.last ROOT_CLUSTER_NUMBER route)) ++
                  find.complaint reports)) ∧
        find fuel = find.visit findHelper.report fuel ∧
        ∀ out, find.visit (find.record out) fuel argv argc s
          = some ((),
              (s.visit s.currentDirectory ROOT_CLUSTER_NUMBER).put
                ((reports.flatMap fun route =>
                  out (find.path (s.kernel.disk.directories ROOT_CLUSTER_NUMBER route))
                    ((s.kernel.disk.directories ROOT_CLUSTER_NUMBER route).length + 1)
                    (s.kernel.disk.last ROOT_CLUSTER_NUMBER route)) ++
                  find.complaint reports)) := by
  generalize hd : s.kernel.disk = d at hdeep
  have hexact := find.exact_hits hdeep hfuel (entry_name item)
  refine ⟨d.graph.hits (d.named (entry_name item)) fuel ROOT_CLUSTER_NUMBER,
    !(d.graph.hits (d.named (entry_name item)) fuel ROOT_CLUSTER_NUMBER).isEmpty, hexact, ?_, ?_, ?_,
    find_eq_visit fuel, ?_⟩
  . rw [← hexact.ne_nil_iff]
    simp
  . rw [findHelper_eq_visit]
    exact find.visit_root hdeep find.report_apply hfuel _ hd
  . rw [find_eq_visit]
    exact find.visit_apply hdeep find.report_apply hfuel _ hargc hargv hd
  . intro out
    have hrecord : ∀ names entry (s : Shell), names.length ≤ 14 →
        find.record out (find.path names) (names.length + 1) entry s
          = some ((), s.put (out (find.path names) (names.length + 1) entry)) := by
      intro names entry s _
      rfl
    exact find.visit_apply hdeep hrecord hfuel _ hargc hargv hd

theorem lineParser.bytes_rows (words : List (List UInt8))
    : bytes 8 ((lineParser.rows words).row 1) = some (entry_name (words.getD 1 [])) := by
  have hlen : ((lineParser.rows words).row 1).length = 300 := by
    unfold Argv.row
    rw [List.length_drop, List.length_ofFn]
  unfold bytes
  rw [dif_pos (by omega)]
  congr 1
  funext k
  have hdiv : (100 * 1 + k.val) / 100 = 1 := by omega
  have hmod : (100 * 1 + k.val) % 100 = k.val := by omega
  unfold Argv.row lineParser.rows entry_name
  simp only [Fin.getElem_fin, List.getElem_drop, List.getElem_ofFn, hdiv, hmod]

theorem find.Exact.unique {d : Disk} {item : Fin 8 → UInt8} {reports reports' : List (List (Fin 64))}
    (h : find.Exact d item reports) (h' : find.Exact d item reports')
    : reports = reports' := by
  apply List.Pairwise.eq_of_mem_iff h.sorted h'.sorted
  intro route
  rw [h.complete, h'.complete]

namespace docs

theorem bounded_of_only {dir next : UInt32} {depth : Nat}
    (h : ∀ i : Fin 64, disk.graph.child dir i = none ∨ disk.graph.child dir i = some next)
    (hnext : disk.graph.Bounded depth next)
    : disk.graph.Bounded (depth + 1) dir := by
  apply Slotted.Bounded.of_child
  intro i m hchild
  rcases h i with hnone | hsome
  . exact absurd (hnone.symm.trans hchild) (by simp)
  . have hm : next = m := Option.some.inj (hsome.symm.trans hchild)
    rw [← hm]
    exact hnext

theorem bounded : disk.graph.Bounded 14 ROOT_CLUSTER_NUMBER := by
  have hroot : ∀ i : Fin 64, disk.graph.child 2 i = none ∨ disk.graph.child 2 i = some 3 := by
    decide
  have hdocs : ∀ i : Fin 64, disk.graph.child 3 i = none ∨ disk.graph.child 3 i = some 4 := by
    decide
  have hcopy : ∀ i : Fin 64, disk.graph.child 4 i = none := by
    decide
  have hfour : disk.graph.Bounded 12 4 := by
    apply Slotted.Bounded.of_child
    intro i m hchild
    exact absurd ((hcopy i).symm.trans hchild) (by simp)
  exact bounded_of_only hroot (bounded_of_only hdocs hfour)

end docs

-- `find copy` goes down into `docs`
theorem find_exact_docs
    : lineParser (ascii "find copy\n")
        = some (lineParser.rows [ascii "find", stray.copy.chars], 2) ∧
      find.Exact docs.disk stray.copy.name [[2, 2]] ∧
        find 15 (lineParser.rows [ascii "find", stray.copy.chars]) 2 (newborn.shell docs.disk)
          = some ((), ((newborn.shell docs.disk).visit 2 2).put
              (find.shown [stray.docs.name, stray.copy.name])) := by
  constructor
  . decide +kernel
  . rcases find_exact (newborn.shell docs.disk) docs.bounded stray.copy.chars
      (lineParser.rows [ascii "find", stray.copy.chars]) (lineParser.bytes_rows _) 2
      (Nat.le_refl 2) 15 (Nat.le_refl 15) with ⟨reports, _, hexact, _, _, hfind, _⟩
    have hhits : docs.disk.graph.hits (docs.disk.named stray.copy.name) 15 ROOT_CLUSTER_NUMBER
        = [[2, 2]] := by
      decide +kernel
    have hreports : reports = [[2, 2]] := by
      rw [← hhits]
      exact hexact.unique (find.exact_hits docs.bounded (Nat.le_refl 15) _)
    rw [hreports] at hexact hfind
    have hshown : ([[2, 2]].flatMap fun route =>
          find.printed (docs.disk.directories 2 route) (docs.disk.last 2 route))
            ++ find.complaint [[2, 2]]
        = find.shown [stray.docs.name, stray.copy.name] := by
      decide +kernel
    refine ⟨hexact, ?_⟩
    rw [← hshown]
    exact hfind

end AiOS
