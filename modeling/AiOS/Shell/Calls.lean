import AiOS.Shell.Append
import AiOS.Shell.Growth
import AiOS.Shell.Move

/-!
This module contains what `mkdir`, `mkfile` and the system call of `cpHelper` do to the disk, where
the paths are spelled.
-/

namespace AiOS

open Fallible

theorem write.exists_run (driver_state : FAT32DriverState) (memory : UInt32 → UInt8)
    (newDirectoryTable : FAT32DirectoryTable) (request : FAT32DriverRequest) (d : Disk)
    : ∃ code st d', (write driver_state memory newDirectoryTable request).run diskDevice d
        = some ((code, st), d') := by
  by_cases hparent : parent_ok (d.table request.parent)
  . rw [run_of_parent_ok _ _ _ _ _ hparent]
    split
    . exact ⟨_, _, _, rfl⟩
    . exact ⟨_, _, _, rfl⟩
    . exact ⟨_, _, _, rfl⟩
  . exact ⟨_, _, _, run_of_not_parent_ok _ _ _ _ _ hparent⟩

namespace Disk

def Written (d d' : Disk) (dir : UInt32) (name : Fin 8 → UInt8) (size : UInt32) : Prop :=
  ∃ driver_state memory newDirectoryTable request code st, request.name = name ∧
    request.buffer_size = size ∧ request.parent_cluster_number = dir ∧
    (write driver_state memory newDirectoryTable request).run diskDevice d = some ((code, st), d')

def Occupied (d : Disk) (c : Nat) : Prop :=
  c = 2 ∨ (3 ≤ c ∧ d.fat.next c ≠ 0)

structure Enters (d d' : Disk) (dir : UInt32) (name : Fin 8 → UInt8) (size : UInt32) (i : Fin 64)
    (c : Nat) : Prop where
  slot : 2 ≤ i.val
  dead : (d.table (clusterIndex dir) i).user_attribute ≠ UATTR_NOT_EMPTY
  live : (d'.table (clusterIndex dir) i).user_attribute = UATTR_NOT_EMPTY
  named : (d'.table (clusterIndex dir) i).name = name
  isDir : (d'.table (clusterIndex dir) i).attribute = ATTR_SUBDIRECTORY ↔ size = 0
  first : (d'.table (clusterIndex dir) i).cluster = c
  table : ∀ j, j ≠ i → d'.table (clusterIndex dir) j = d.table (clusterIndex dir) j
  data : 3 ≤ c ∧ c < 512
  empty : d.fat.next c = 0
  next : ∀ q, d.fat.next q ≠ 0 → d'.fat.next q = d.fat.next q
  cluster : ∀ q, d.Occupied q → q ≠ clusterIndex dir → d'.table q = d.table q
  founded : size = 0 → d'.fat.next c ≠ 0 ∧
    ∃ old, d'.table c = init_directory_table old name dir

theorem Occupied.lt {d : Disk} {c : Nat} (h : d.Occupied c) : 2 ≤ c ∧ c < 512 := by
  cases h with
  | inl hroot => omega
  | inr hused =>
    refine ⟨by omega, ?_⟩
    by_contra hge
    apply hused.2
    unfold FAT32FileAllocationTable.next
    rw [dif_neg hge]

theorem Occupied.not_mem {d : Disk} {c : Nat} (h : d.Occupied c) {cs : List (Fin 512)}
    (hdata : ∀ j ∈ cs, 3 ≤ j.val) (hempty : ∀ j ∈ cs, d.fat j = FAT32_FAT_EMPTY_ENTRY)
    : c ∉ numbers cs := by
  intro hmem
  rcases exists_of_mem_numbers hmem with ⟨j, hj, rfl⟩
  cases h with
  | inl hroot =>
    have := hdata j hj
    omega
  | inr hused =>
    apply hused.2
    rw [FAT32FileAllocationTable.next_fin, hempty j hj]
    rfl

end Disk

namespace write.Chosen

variable {memory : UInt32 → UInt8} {newDirectoryTable : FAT32DirectoryTable}
  {request : FAT32DriverRequest} {d : Disk} {i : Fin 64} {c : Fin 512} {cs : List (Fin 512)}

theorem next_committed (hch : Chosen request d i cs) (hone : request.parent ≠ 1) {q : Nat}
    (hq : d.fat.next q ≠ 0)
    : (committed memory newDirectoryTable request d i cs).fat.next q = d.fat.next q := by
  rw [fat_committed hone]
  apply FAT32FileAllocationTable.next_congr
  . intro j hj
    apply link_of_not_mem hj
  . intro hmem
    rcases exists_of_mem_numbers hmem with ⟨j, hj, rfl⟩
    apply hq
    rw [FAT32FileAllocationTable.next_fin, hch.empty j hj]
    rfl

theorem founded_committed (hch : Chosen request d i (c :: cs)) (hone : request.parent ≠ 1)
    (hmem : request.parent ∉ numbers (c :: cs)) (hsize : request.buffer_size = 0)
    : (committed memory newDirectoryTable request d i (c :: cs)).fat.next c ≠ 0 ∧
        ∃ old, (committed memory newDirectoryTable request d i (c :: cs)).table c
          = init_directory_table old request.name request.parent_cluster_number := by
  have hlen := hch.length
  rw [required_clusters_of_zero request hsize, List.length_cons, Nat.add_eq_right,
    List.length_eq_zero_iff] at hlen
  subst hlen
  have hnew := committed_committed memory newDirectoryTable hch hone hmem (List.nodup_singleton c)
  constructor
  . rw [hnew.fat, FAT32FileAllocationTable.next_fin]
    simp [link, FAT32_FAT_END_OF_FILE]
  . refine ⟨newDirectoryTable, ?_⟩
    have hfirst := hnew.table_first (List.cons_ne_nil c []) (hnew.isDir_iff.mpr hsize)
    rw [hnew.first_eq] at hfirst
    exact hfirst

theorem enters (hch : Chosen request d i (c :: cs)) (hdir : d.Occupied request.parent)
    : d.Enters (committed memory newDirectoryTable request d i (c :: cs))
        request.parent_cluster_number request.name request.buffer_size i c := by
  have hlt := hdir.lt
  have hone : request.parent ≠ 1 := by omega
  have hmem := hdir.not_mem hch.data hch.empty
  have hc : c ∈ c :: cs := List.mem_cons_self
  have hentry : (committed memory newDirectoryTable request d i (c :: cs)).table request.parent i
      = new_entry (d.table request.parent i) request (UInt32.ofNat c) := by
    rw [committed_table]
    unfold new_table
    apply Function.update_self
  constructor
  case slot => exact hch.slot
  case dead => exact hch.dead
  case live =>
    change ((committed _ _ _ _ _ _).table request.parent i).user_attribute = _
    rw [hentry]
    apply new_entry_user_attribute
  case named =>
    change ((committed _ _ _ _ _ _).table request.parent i).name = _
    rw [hentry]
    apply new_entry_name
  case isDir =>
    change ((committed _ _ _ _ _ _).table request.parent i).attribute = _ ↔ _
    rw [hentry]
    apply new_entry_isDir_iff
  case first =>
    change ((committed _ _ _ _ _ _).table request.parent i).cluster = _
    rw [hentry, new_entry_cluster, UInt32.toNat_ofNat']
    omega
  case table =>
    intro j hj
    change (committed _ _ _ _ _ _).table request.parent j = _
    rw [committed_table]
    unfold new_table
    apply Function.update_of_ne hj
  case data => exact ⟨hch.data c hc, c.isLt⟩
  case empty =>
    rw [FAT32FileAllocationTable.next_fin, hch.empty c hc]
    rfl
  case next =>
    intro q hq
    apply hch.next_committed hone hq
  case cluster =>
    intro q hq hne
    have hlt := hq.lt
    apply Disk.table_congr
    apply cluster_committed (by omega) hne (hq.not_mem hch.data hch.empty)
  case founded => exact hch.founded_committed hone hmem

end write.Chosen

namespace Disk

variable {d d' : Disk} {dir : UInt32} {name : Fin 8 → UInt8} {size : UInt32}

theorem Written.cases (h : d.Written d' dir name size) (hdir : d.Occupied (clusterIndex dir))
    : d' = d ∨ ∃ i c, d.Enters d' dir name size i c := by
  rcases h with ⟨driver_state, memory, newDirectoryTable, request, code, st, rfl, rfl, rfl, hrun⟩
  rcases write.run_cases _ _ _ _ _ hrun with ⟨_, _, hsame⟩ | ⟨i, cs, _, _, hsearch, _, rfl⟩
  . exact Or.inl hsame
  . right
    have hch := write.chosen_of_search hsearch
    rcases List.exists_cons_of_ne_nil hch.ne_nil with ⟨c, cs', rfl⟩
    exact ⟨i, c.val, hch.enters hdir⟩

theorem Written.eq_of_full (h : d.Written d' dir name size) (hfull : write.empty_clusters d.fat = [])
    : d' = d := by
  rcases h with ⟨driver_state, memory, newDirectoryTable, request, code, st, _, _, _, hrun⟩
  rcases write.run_cases _ _ _ _ _ hrun with ⟨_, _, hsame⟩ | ⟨i, cs, _, _, hsearch, _, _⟩
  . exact hsame
  . have hch := write.chosen_of_search hsearch
    rcases List.exists_mem_of_ne_nil _ hch.ne_nil with ⟨c, hc⟩
    have hmem := (write.mem_empty_clusters d.fat c).mpr ⟨hch.data c hc, hch.empty c hc⟩
    rw [hfull] at hmem
    exact absurd hmem List.not_mem_nil

end Disk

theorem mkfile.report_apply (retval : Int) (dir : UInt32) (s : Shell)
    : ∃ printed, (do
        mkfile.report retval
        setCurrentDirectory dir) s
          = some ((), { s with currentDirectory := dir, printed := printed }) := by
  unfold mkfile.report
  split
  . exact ⟨_, rfl⟩
  . split
    . exact ⟨_, rfl⟩
    . split
      . exact ⟨_, rfl⟩
      . exact ⟨_, rfl⟩

section

variable {absolute : Bool} {words : List (List UInt8)} (h : Spellable absolute words)
  {argv : Argv} (hargv : argv.Holds (spell absolute words)) {s : Shell}

include h hargv

/--
`mkdir` returns to where the shell is. Where all components but the last lead to a directory, that
one is what the disk may change in.
-/
theorem mkdir.spec
    : ∃ code s', mkdir argv 2 s = some (code, s') ∧ s'.currentDirectory = s.currentDirectory ∧
        (s'.kernel.disk = s.kernel.disk ∨
          ∃ dir, Walk.follow s.kernel.disk.look (cd.origin absolute s)
              (words.dropLast.map entry_name) = .inl dir ∧
            s.kernel.disk.Written s'.kernel.disk dir (entry_name (words.getLast h.ne_nil)) 0) := by
  cases hfollow : Walk.follow s.kernel.disk.look (cd.origin absolute s)
      (words.dropLast.map entry_name) with
  | inl dir =>
    rcases mkdir.run_of_inl h hargv hfollow with
      ⟨request, newDirectoryTable, hname, hsize, hparent, hmkdir⟩
    rcases write.exists_run s.driver_state (fun _ => 0) newDirectoryTable request s.kernel.disk with
      ⟨code, st, d', hrun⟩
    rcases hmkdir code st d' hrun with ⟨s', hs', rfl, hcurrent⟩
    refine ⟨code, s', hs', hcurrent, Or.inr ⟨dir, rfl, ?_⟩⟩
    exact ⟨_, _, newDirectoryTable, request, code, st, hname, hsize, hparent, hrun⟩
  | inr stop =>
    have hcd : ∃ loaded, cd argv 2 false s
        = some (if stop = .file then 3 else 2, s.visit s.currentDirectory loaded) :=
      cd.run_of_inr h hargv hfollow
    rcases hcd with ⟨loaded, hcd⟩
    refine ⟨-2, s.visit s.currentDirectory loaded, ?_, rfl, Or.inl rfl⟩
    have hcode : (if stop = .file then (3 : Int) else 2) ≠ 0 := by
      split
      . decide
      . decide
    unfold mkdir
    rw [if_neg (by decide), if_neg (by decide), get_bind_apply, bind_apply, hcd, Option.bind_some]
    dsimp only
    rw [if_pos hcode]
    rfl

/--
`mkfile` returns to where the shell is. Where the components lead to a directory, all of them or all
but the last, that one is what the disk may change in.
-/
theorem mkfile.spec (memory : UInt32 → UInt8) (request : FAT32DriverRequest) (isDir : Bool)
    : ∃ s', mkfile argv 2 memory request isDir s = some ((), s') ∧
        s'.currentDirectory = s.currentDirectory ∧
        (s'.kernel.disk = s.kernel.disk ∨
          ∃ dir, Walk.follow s.kernel.disk.look (cd.origin absolute s)
              ((if isDir then words else words.dropLast).map entry_name) = .inl dir ∧
            s.kernel.disk.Written s'.kernel.disk dir (entry_name (words.getLast h.ne_nil))
              request.buffer_size) := by
  cases hfollow : Walk.follow s.kernel.disk.look (cd.origin absolute s)
      ((if isDir then words else words.dropLast).map entry_name) with
  | inl dir =>
    have hcd : cd argv 2 isDir s = some (0, s.visit dir dir) := cd.run_of_inl h hargv hfollow
    rcases parsePath_of_holds h hargv with ⟨pathList, hparse, hname⟩
    generalize hserved : ({ request with
      parent_cluster_number := dir
      name := entry_name (words.getLast h.ne_nil) } : FAT32DriverRequest) = served
    rcases write.exists_run s.driver_state memory ((s.visit dir dir).stack 0).newDirectoryTable
      served s.kernel.disk with ⟨code, st, d', hrun⟩
    have hwrite : Shell.write memory served (s.visit dir dir)
        = some (code, (s.visit dir dir).pop.drive st d') := by
      rw [Shell.write_apply]
      have hrun' : (AiOS.write (s.visit dir dir).driver_state memory
          ((s.visit dir dir).stack 0).newDirectoryTable served).run diskDevice
            (s.visit dir dir).kernel.disk = some ((code, st), d') := hrun
      rw [hrun']
      rfl
    rcases mkfile.report_apply code s.currentDirectory ((s.visit dir dir).pop.drive st d') with
      ⟨printed, hreport⟩
    refine ⟨{ (s.visit dir dir).pop.drive st d' with
      currentDirectory := s.currentDirectory
      printed := printed }, ?_, rfl, Or.inr ⟨dir, rfl, ?_⟩⟩
    . unfold mkfile
      rw [if_neg (by decide), get_bind_apply, bind_apply, hcd, Option.bind_some]
      dsimp only
      rw [if_neg (by simp), get_bind_apply, ofOption_bind_apply, hparse, Option.bind_some]
      dsimp only
      rw [ofOption_bind_apply, hname, Option.bind_some, Shell.visit_currentDirectory, hserved,
        bind_apply, hwrite, Option.bind_some]
      exact hreport
    . refine ⟨_, memory, _, served, code, st, ?_, ?_, ?_, hrun⟩
      . rw [← hserved]
      . rw [← hserved]
      . rw [← hserved]
  | inr stop =>
    have hcd : ∃ loaded, cd argv 2 isDir s
        = some (if stop = .file then 3 else 2, s.visit s.currentDirectory loaded) :=
      cd.run_of_inr h hargv hfollow
    rcases hcd with ⟨loaded, hcd⟩
    refine ⟨s.visit s.currentDirectory loaded, ?_, rfl, Or.inl rfl⟩
    have hcode : (if stop = .file then (3 : Int) else 2) ≠ 0 := by
      split
      . decide
      . decide
    unfold mkfile
    rw [if_neg (by decide), get_bind_apply, bind_apply, hcd, Option.bind_some]
    dsimp only
    rw [if_pos hcode]
    rfl

end

/--
What `cpHelper` gets from the root for that name and extension fits into `clusterBuff`: every entry
that has them, also one that is not live, is a directory, a file that is too long, or one with a
chain of clusters in use that ends within 12.
-/
def Disk.Readable (d : Disk) (name : Fin 8 → UInt8) (ext : Fin 3 → UInt8) : Prop :=
  ∀ i, (d.table 2 i).name = name → (d.table 2 i).ext = ext →
    (d.table 2 i).attribute = ATTR_SUBDIRECTORY ∨ 12 * 2048 < (d.table 2 i).filesize ∨
      ∃ l, d.Links (d.table 2 i).cluster l ∧ l.length ≤ 12 ∧ ∀ x ∈ l, d.fat.next x ≠ 0

theorem Disk.Readable.exists_run {d : Disk} {request : FAT32DriverRequest}
    (h : d.Readable request.name request.ext)
    (hroot : request.parent_cluster_number = ROOT_CLUSTER_NUMBER)
    (hsize : request.buffer_size = 12 * 2048) (driver_state : FAT32DriverState)
    : ∃ code st delivered, (AiOS.read driver_state request).run diskDevice d
          = some ((code, st, delivered), d) ∧ delivered.length ≤ 12 := by
  by_cases hcopies : ∃ i, read.Copies request d i
  . rcases hcopies with ⟨i, hcopies⟩
    have hparent : request.parent = 2 := by
      unfold FAT32DriverRequest.parent
      rw [hroot]
      rfl
    have hcarries := ((read.searched_eq_some_iff _ _ i).mp hcopies.searched).1
    have hfile := hcopies.file
    have hfits := hcopies.fits
    rw [hparent] at hcarries hfile hfits
    rw [hsize] at hfits
    rcases h i hcarries.1 hcarries.2 with hdir | hlarge | ⟨l, hl, hlen, _⟩
    . exact absurd hdir hfile
    . exact absurd hfits (UInt32.not_le.mpr hlarge)
    . rw [← hparent] at hl
      rw [read.run_of_copies hcopies hl]
      refine ⟨_, _, _, rfl, ?_⟩
      rw [List.length_map]
      exact hlen
  . rw [not_exists] at hcopies
    have hrun : ∃ code st, code ≠ 0 ∧ (AiOS.read driver_state request).run diskDevice d
        = some ((code, st, []), d) := read.run_of_not_copies hcopies
    rcases hrun with ⟨code, st, _, hrun⟩
    exact ⟨code, st, [], hrun, by simp⟩

theorem syscall.read_apply {request : FAT32DriverRequest} {s : Shell} {code : Int}
    {st : FAT32DriverState} {delivered : List ClusterBuffer}
    (h : (AiOS.read s.kernel.driver_state request).run diskDevice s.kernel.disk
      = some ((code, st, delivered), s.kernel.disk))
    : syscall.read request s
        =
      some ((code, delivered), { s with kernel := { s.kernel with driver_state := st } }) := by
  unfold syscall.read
  rw [get_bind_apply, bind_apply, onDisk_apply, h]
  rfl

theorem cpHelper.load_spec {name : Fin 8 → UInt8} {ext : Fin 3 → UInt8} {s : Shell}
    (h : s.kernel.disk.Readable name ext)
    : ∃ memory request s', cpHelper.load name ext s = some ((memory, request), s') ∧
        request.buffer_size = 12 * 2048 ∧ s'.kernel.disk = s.kernel.disk ∧
        s'.currentDirectory = s.currentDirectory ∧ s'.dirTable = s.dirTable := by
  have htake : uninitialised s = some (s.stack 0, s.pop) := rfl
  generalize hrequest : ({
    buf := (s.stack 0).clusterBuff
    name := name
    ext := ext
    parent_cluster_number := ROOT_CLUSTER_NUMBER
    buffer_size := 12 * 2048 } : FAT32DriverRequest) = request
  have hreadable : s.pop.kernel.disk.Readable request.name request.ext := by
    rw [← hrequest]
    exact h
  rcases hreadable.exists_run (by rw [← hrequest]) (by rw [← hrequest]) s.pop.kernel.driver_state with
    ⟨code, st, delivered, hrun, hlen⟩
  refine ⟨clusterBuff.memory (s.stack 0) delivered, request,
    { s.pop with kernel := { s.pop.kernel with driver_state := st } }, ?_, by rw [← hrequest], rfl,
    rfl, rfl⟩
  unfold cpHelper.load
  rw [bind_apply, htake, Option.bind_some]
  dsimp only
  rw [hrequest, bind_apply, syscall.read_apply hrun, Option.bind_some]
  dsimp only
  rw [if_neg (by omega)]
  rfl

end AiOS
