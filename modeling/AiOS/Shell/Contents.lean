import AiOS.Fat32.Retained
import AiOS.Shell.Copy
import AiOS.Shell.Listing

/-!
This module proves that `cat` shows what `write` has stored, and when it shows no more than that.
-/

namespace AiOS

open Fallible

namespace cat

/--
A directory is found in the place of the file: it is the first live entry of the name, or the first
entry of the name and extension.
-/
def Hidden (d : Disk) (request : FAT32DriverRequest) : Prop :=
  ∃ j, (findDirEntryIndex (d.table request.parent) request.name = some j ∨
      read.searched request d = some j) ∧
    (d.table request.parent j).attribute = ATTR_SUBDIRECTORY

def request (buf : UInt32) (file : FAT32DriverRequest) : FAT32DriverRequest where
  buf := buf
  name := file.name
  ext := file.ext
  parent_cluster_number := file.parent_cluster_number
  buffer_size := 12 * 2048

def text (delivered : List ClusterBuffer) : List UInt8 :=
  ((List.range (12 * CLUSTER_SIZE)).map (clusterBuff.byte delivered)).takeWhile fun c => c ≠ 0

theorem searched_request (buf : UInt32) (file : FAT32DriverRequest) (d : Disk)
    : read.searched (request buf file) d = read.searched file d := by
  rfl

section

variable {d : Disk} {memory : UInt32 → UInt8} {file : FAT32DriverRequest} {i : Fin 64} {l : List Nat}

theorem byte_eq (h : d.Retains memory file i l) {k : Nat}
    (hk : k < file.buffer_size.toNat)
    : clusterBuff.byte (l.map d.cluster) k = memory (file.buf + UInt32.ofNat k) := by
  have hlength := h.length
  rw [write.required_clusters_eq] at hlength
  unfold CLUSTER_SIZE at hlength
  unfold clusterBuff.byte
  rw [h.bytes k (by omega)]
  rfl

theorem byte_behind_eq_zero_iff (h : d.Retains memory file i l) (hsize : file.buffer_size ≠ 0)
    : clusterBuff.byte (l.map d.cluster) file.buffer_size.toNat = 0
        ↔
      file.buffer_size.toNat % 2048 = 0 ∨ memory (file.buf + file.buffer_size) = 0 := by
  have hlength := h.length
  have hpos : file.buffer_size.toNat ≠ 0 := by
    intro hzero
    exact hsize (UInt32.toNat_inj.mp hzero)
  rw [write.required_clusters_eq] at hlength
  unfold CLUSTER_SIZE at hlength
  unfold clusterBuff.byte
  by_cases hmod : file.buffer_size.toNat % 2048 = 0
  . have hnone : ClusterBuffer.byteOf (l.map d.cluster) file.buffer_size.toNat = none := by
      unfold ClusterBuffer.byteOf
      rw [List.getElem?_eq_none (by rw [List.length_map]; omega)]
      rfl
    rw [hnone]
    exact iff_of_true rfl (Or.inl hmod)
  . rw [h.bytes _ (by omega), UInt32.ofNat_toNat, or_iff_right hmod]
    rfl

theorem text_eq_iff (h : d.Retains memory file i l) (hsize : file.buffer_size ≠ 0)
    (hlt : file.buffer_size.toNat < 12 * 2048)
    : text (l.map d.cluster) = (file.bytes memory).takeWhile (fun c => c ≠ 0)
        ↔
      0 ∈ file.bytes memory ∨ file.buffer_size.toNat % 2048 = 0 ∨
        memory (file.buf + file.buffer_size) = 0 := by
  have hcount : ∃ m, 12 * CLUSTER_SIZE = file.buffer_size.toNat + (m + 1) := by
    refine ⟨12 * 2048 - file.buffer_size.toNat - 1, ?_⟩
    unfold CLUSTER_SIZE
    omega
  rcases hcount with ⟨m, hcount⟩
  have hbytes : (List.range file.buffer_size.toNat).map (clusterBuff.byte (l.map d.cluster))
      = file.bytes memory := by
    unfold FAT32DriverRequest.bytes
    apply List.map_congr_left
    intro k hk
    exact byte_eq h (List.mem_range.mp hk)
  unfold text
  rw [hcount, List.range_add, List.map_append, hbytes, List.range_succ_eq_map, List.map_cons,
    List.map_cons, Nat.add_zero, takeWhile_append_eq_iff, ← byte_behind_eq_zero_iff h hsize]
  simp

theorem exists_found {st : FAT32DriverState} (hd : Recovered (st, d))
    (h : d.Retains memory file i l)
    : (d.table file.parent 0).user_attribute = UATTR_NOT_EMPTY ∧
        ∃ j, findDirEntryIndex (d.table file.parent) file.name = some j := by
  have hwf : d.WellFormed := hd.wellFormed
  rw [hwf.parent_eq h.live.dir]
  refine ⟨(hd.regular _ h.live.dir).parent_ok.1, ?_⟩
  cases hfind : findDirEntryIndex (d.table file.parent_cluster_number.toNat) file.name with
  | none => exact absurd h.name (findDirEntryIndex_eq_none_iff.mp hfind i h.live.live)
  | some j => exact ⟨j, rfl⟩

theorem Hidden.exists_searched {j : Fin 64} (h : Hidden d file)
    (hfind : findDirEntryIndex (d.table file.parent) file.name = some j)
    (hdir : (d.table file.parent j).attribute ≠ ATTR_SUBDIRECTORY)
    : ∃ k, read.searched file d = some k ∧
        (d.table file.parent k).attribute = ATTR_SUBDIRECTORY := by
  rcases h with ⟨k, hk | hk, hkdir⟩
  . rw [hfind, Option.some.injEq] at hk
    rw [← hk] at hkdir
    exact absurd hkdir hdir
  . exact ⟨k, hk, hkdir⟩

theorem copies_of_not_hidden {st : FAT32DriverState} (hd : Recovered (st, d))
    (h : d.Retains memory file i l) (hlt : file.buffer_size.toNat < 12 * 2048)
    (hhidden : ¬ Hidden d file) (buf : UInt32)
    : read.Copies (request buf file) d i ∧
        d.Links (d.table (request buf file).parent i).cluster l := by
  have hwf : d.WellFormed := hd.wellFormed
  have hparent : file.parent = file.parent_cluster_number.toNat := hwf.parent_eq h.live.dir
  have hregular : (d.table file.parent).Regular := by
    rw [hparent]
    exact hd.regular _ h.live.dir
  have hcarries : read.carries file (d.table file.parent i) := by
    rw [hparent]
    exact ⟨h.name, h.ext⟩
  have hfile : (d.table file.parent i).attribute ≠ ATTR_SUBDIRECTORY := by
    rw [hparent]
    exact h.file
  have hlive : (d.table file.parent i).user_attribute = UATTR_NOT_EMPTY := by
    rw [hparent]
    exact h.live.live
  have hsearched : read.searched file d = some i := by
    cases hfound : read.searched file d with
    | none =>
      unfold read.searched read.find_entry at hfound
      rw [List.find?_eq_none] at hfound
      exact absurd hcarries (by simpa [read.carries, memcmp_eq_zero_iff] using hfound i)
    | some k =>
      have hk := (read.searched_eq_some_iff _ _ k).mp hfound
      have hkfile : (d.table file.parent k).attribute ≠ ATTR_SUBDIRECTORY := by
        intro hdir
        exact hhidden ⟨k, Or.inr hfound, hdir⟩
      rcases lt_trichotomy k i with hki | heq | hik
      . exfalso
        by_cases hslot : 2 ≤ k.val
        . apply hregular.distinct k i hslot hki hlive hkfile hfile
          . exact hk.1.1.trans hcarries.1.symm
          . exact hk.1.2.trans hcarries.2.symm
        . exact hkfile (hregular.headed k (by omega)).1
      . rw [heq]
      . exact absurd hcarries (hk.2 i hik)
  refine ⟨⟨hregular.parent_ok.1, hsearched, hfile, ?_⟩, ?_, ?_⟩
  . have hfilesize : (d.table file.parent i).filesize = file.buffer_size := by
      rw [hparent]
      exact h.filesize
    have hle : (d.table file.parent i).filesize ≤ 12 * 2048 := by
      rw [hfilesize, UInt32.le_iff_toNat_le]
      exact Nat.le_of_lt hlt
    exact hle
  . have howns : d.Owns (file.parent, i) l := by
      rw [hparent]
      exact h.owns
    exact howns
  . intro c hc
    exact (hwf.data h.live h.owns c hc).2

end

theorem read_apply {request : FAT32DriverRequest} {s : Shell} {code : Int} {st : FAT32DriverState}
    {delivered : List ClusterBuffer}
    (h : (AiOS.read s.driver_state request).run diskDevice s.kernel.disk
      = some ((code, st, delivered), s.kernel.disk))
    : Shell.read request s = some ((code, delivered), s.drive st s.kernel.disk) := by
  unfold Shell.read
  rw [get_bind_apply, bind_apply, onDisk_apply, h]
  rfl

theorem serve_of_copies {request : FAT32DriverRequest} {s : Shell} {i : Fin 64} {l : List Nat}
    (hcopies : read.Copies request s.kernel.disk i)
    (hlinks : s.kernel.disk.Links (s.kernel.disk.table request.parent i).cluster l)
    (hlength : (l.map s.kernel.disk.cluster).length ≤ 12)
    : ∃ st, serve request s
        =
      some ((), (s.drive st s.kernel.disk).put [(text (l.map s.kernel.disk.cluster), 0xF)]) := by
  refine ⟨⟨s.kernel.disk.fat, s.kernel.disk.table request.parent⟩, ?_⟩
  unfold serve
  rw [bind_apply, read_apply (read.run_of_copies hcopies hlinks), Option.bind_some]
  dsimp only
  rw [if_neg (by omega), if_neg (by decide)]
  apply printlen_apply

theorem serve_of_directory {file : FAT32DriverRequest} {s : Shell} {j : Fin 64} (buf : UInt32)
    (hlive : (s.kernel.disk.table file.parent 0).user_attribute = UATTR_NOT_EMPTY)
    (hsearched : read.searched file s.kernel.disk = some j)
    (hdir : (s.kernel.disk.table file.parent j).attribute = ATTR_SUBDIRECTORY)
    : ∃ st, serve (request buf file) s
        =
      some ((), (s.drive st s.kernel.disk).put [(ascii "Not a File\n", 0b0110)]) := by
  have hread : (AiOS.read s.driver_state (request buf file)).run diskDevice s.kernel.disk
      = some ((1, ⟨s.kernel.disk.fat, s.kernel.disk.table file.parent⟩, []), s.kernel.disk) := by
    rw [read.run_of_live _ (request buf file) _ hlive, searched_request, hsearched]
    exact read.run_found_directory (request buf file) _ hdir
  refine ⟨⟨s.kernel.disk.fat, s.kernel.disk.table file.parent⟩, ?_⟩
  unfold serve
  rw [bind_apply, read_apply hread, Option.bind_some]
  dsimp only
  rw [if_neg (by decide), if_pos (by decide)]
  apply printlen_apply

def here (s : Shell) (file : FAT32DriverRequest) : Shell :=
  s.visit file.parent_cluster_number file.parent_cluster_number

theorem run_of_found {path : Path} {argv : Argv} {s : Shell} {file : FAT32DriverRequest}
    (hargv : argv.Holds (spell path.absolute path.words))
    (hfile : path.file = some (file.name, file.ext))
    (hfollow : Walk.follow s.kernel.disk.look (cd.origin path.absolute s) path.parent
      = .inl file.parent_cluster_number) {j : Fin 64}
    (hfind : findDirEntryIndex (s.kernel.disk.table file.parent) file.name = some j)
    : cat argv 2 s
        =
      (if (s.kernel.disk.table file.parent j).attribute ≠ ATTR_SUBDIRECTORY then
        serve (request ((here s file).stack 0).clusterBuff file) (here s file).pop
      else
        some ((), (here s file).put [(ascii "Error: not a file\n", 0xF)])).map fun r =>
          ((), { r.2 with currentDirectory := s.currentDirectory }) := by
  have hcd : cd argv 2 false s = some (0, here s file) := by
    apply cd.run_of_inl path.spellable hargv
    rw [if_neg (by decide)]
    exact hfollow
  rcases path.exists_parse hfile hargv with ⟨pathList, pathCount, output, count, hparse, hext⟩
  have htable : (here s file).dirTable = s.kernel.disk.table file.parent := rfl
  unfold cat openFile
  rw [if_neg (by decide), if_neg (by decide), get_bind_apply, bind_apply, hcd, Option.bind_some]
  dsimp only
  rw [if_pos rfl, ofOption_bind_apply, hparse, Option.bind_some]
  dsimp only
  rw [ofOption_bind_apply, hext.1, Option.bind_some]
  dsimp only
  rw [ofOption_bind_apply, hext.2.1, Option.bind_some, ofOption_bind_apply, hext.2.2,
    Option.bind_some, get_bind_apply, htable, hfind]
  dsimp only
  split
  . have htake : uninitialised (here s file) = some ((here s file).stack 0, (here s file).pop) := rfl
    rw [bind_apply, htake, Option.bind_some, bind_apply, Option.map_eq_bind]
    rfl
  . rfl

/--
What `cat` prints is an error where a directory hides the file, and otherwise its characters, with
nothing behind them exactly where a zero byte or the end of a cluster follows.
-/
theorem prints {st : FAT32DriverState} {memory : UInt32 → UInt8} {file : FAT32DriverRequest}
    {i : Fin 64} {l : List Nat} {s : Shell} (hd : Recovered (st, s.kernel.disk))
    (h : s.kernel.disk.Retains memory file i l) (hsize : file.buffer_size ≠ 0)
    (hlt : file.buffer_size.toNat < 12 * 2048) {path : Path} {argv : Argv}
    (hargv : argv.Holds (spell path.absolute path.words))
    (hfile : path.file = some (file.name, file.ext))
    (hfollow : Walk.follow s.kernel.disk.look (cd.origin path.absolute s) path.parent
      = .inl file.parent_cluster_number)
    : ∃ s' out, cat argv 2 s = some ((), s') ∧ s'.kernel = s.kernel ∧
        s'.currentDirectory = s.currentDirectory ∧ s'.printed = s.printed ++ [out] ∧
        (Hidden s.kernel.disk file →
          out = (ascii "Error: not a file\n", 0xF) ∨ out = (ascii "Not a File\n", 0b0110)) ∧
        (¬ Hidden s.kernel.disk file →
          (out = ((file.bytes memory).takeWhile (fun c => c ≠ 0), 0xF)
              ↔
            0 ∈ file.bytes memory ∨ file.buffer_size.toNat % 2048 = 0 ∨
              memory (file.buf + file.buffer_size) = 0)) := by
  rcases exists_found hd h with ⟨hparent, j, hfind⟩
  have hrun := run_of_found hargv hfile hfollow hfind
  by_cases hdir : (s.kernel.disk.table file.parent j).attribute = ATTR_SUBDIRECTORY
  . rw [if_neg (not_not.mpr hdir)] at hrun
    refine ⟨_, _, hrun, rfl, rfl, rfl, fun _ => Or.inl rfl, ?_⟩
    intro hnot
    exact absurd ⟨j, Or.inl hfind, hdir⟩ hnot
  . rw [if_pos hdir] at hrun
    by_cases hhidden : Hidden s.kernel.disk file
    . rcases hhidden.exists_searched hfind hdir with ⟨k, hk, hkdir⟩
      rcases serve_of_directory (s := (here s file).pop) ((here s file).stack 0).clusterBuff
        hparent hk hkdir with ⟨st, hserve⟩
      rw [hserve] at hrun
      refine ⟨_, _, hrun, rfl, rfl, rfl, fun _ => Or.inr rfl, ?_⟩
      intro hnot
      exact absurd hhidden hnot
    . have hlength : (l.map s.kernel.disk.cluster).length ≤ 12 := by
        rw [List.length_map, h.length, write.required_clusters_eq]
        unfold CLUSTER_SIZE
        omega
      have hcopies := copies_of_not_hidden hd h hlt hhidden ((here s file).stack 0).clusterBuff
      rcases serve_of_copies (s := (here s file).pop) hcopies.1 hcopies.2 hlength with
        ⟨st, hserve⟩
      rw [hserve] at hrun
      refine ⟨_, _, hrun, rfl, rfl, rfl, ?_, ?_⟩
      . intro hyes
        exact absurd hyes hhidden
      . intro _
        rw [Prod.mk.injEq, and_iff_left rfl]
        exact text_eq_iff h hsize hlt

end cat

/--
From the `write` of a file on, whatever else is asked of the driver and however often the power fails,
until somebody asks for its deletion, `cat` shows the file in any shell with a path that leads there,
unless a directory hides it. It shows exactly the characters of the file where one of its bytes is
zero, its size is one of whole clusters, or the byte behind the buffer of the `write` was zero.
-/
theorem cat_shows {s₁ s₂ s : FAT32DriverState × Disk} {memory : UInt32 → UInt8}
    {newDirectoryTable : FAT32DirectoryTable} {file : FAT32DriverRequest}
    (hreach : powered.Reachable (fun s e => e.operation.Orderly s) s₁)
    (hok : (Operation.write memory newDirectoryTable file).Orderly s₁)
    (hsize : file.buffer_size ≠ 0) (hlt : file.buffer_size.toNat < 12 * 2048)
    (hwrite : powered.step s₁ (.serve (.write memory newDirectoryTable file) 0) s₂)
    (hleads : powered.Leads (fun s e => e.operation.Orderly s ∧ ¬ e.Deletes file) s₂ s)
    {shell : Shell} (hdisk : shell.kernel.disk = s.2) {path : Path} {argv : Argv}
    (hargv : argv.Holds (spell path.absolute path.words))
    (hfile : path.file = some (file.name, file.ext))
    (hfollow : Walk.follow shell.kernel.disk.look (cd.origin path.absolute shell) path.parent
      = .inl file.parent_cluster_number)
    : ∃ shell' out, cat argv 2 shell = some ((), shell') ∧ shell'.kernel = shell.kernel ∧
        shell'.currentDirectory = shell.currentDirectory ∧
        shell'.printed = shell.printed ++ [out] ∧
        (cat.Hidden s.2 file →
          out = (ascii "Error: not a file\n", 0xF) ∨ out = (ascii "Not a File\n", 0b0110)) ∧
        (¬ cat.Hidden s.2 file →
          (out = ((file.bytes memory).takeWhile (fun c => c ≠ 0), 0xF)
              ↔
            0 ∈ file.bytes memory ∨ file.buffer_size.toNat % 2048 = 0 ∨
              memory (file.buf + file.buffer_size) = 0)) := by
  rcases (Recovered.of_reachable hreach).exists_retains hok hsize hwrite hleads with
    ⟨hrecovered, i, l, hretains⟩
  rw [← hdisk] at hretains ⊢
  have hd : Recovered (s.1, shell.kernel.disk) := by
    rw [hdisk]
    exact hrecovered
  exact cat.prints hd hretains hsize hlt hargv hfile hfollow

namespace newborn

theorem spellable_file : Spellable false ([file].map Component.chars) := by
  apply Component.spellable
  . simp
  . decide

def path : Path where
  absolute := false
  words := [file.chars]
  spellable := spellable_file
  short := by decide

theorem file_path : path.file = some (write.small.name, write.small.ext) := by
  decide +kernel

theorem not_hidden_small : ¬ cat.Hidden write.populated write.small := by
  have hfind : findDirEntryIndex (write.populated.table 2) write.small.name = some 2 := by decide
  have hsearched : read.searched write.small write.populated = some 2 := by decide
  have hfile : (write.populated.table 2 2).attribute ≠ ATTR_SUBDIRECTORY := by decide
  intro ⟨j, hj, hdir⟩
  have htwo : j = 2 := by
    rcases hj with hj | hj
    . exact Option.some.inj (hj.symm.trans hfind)
    . exact Option.some.inj (hj.symm.trans hsearched)
  rw [htwo] at hdir
  exact hfile hdir

end newborn

-- a file of five bytes, without a zero behind the buffer
theorem cat_shows_small
    : ∃ argv shell' out, cat argv 2 (newborn.shell write.populated) = some ((), shell') ∧
        shell'.printed = [out] ∧
        out ≠ ((write.small.bytes fun _ => 0x41).takeWhile (fun c => c ≠ 0), 0xF) := by
  rcases newborn.path.spellable.exists_holds with ⟨argv, hargv⟩
  have hfive : write.small.buffer_size.toNat = 5 := rfl
  have hdisk : (newborn.shell write.populated).kernel.disk = write.populated := rfl
  rcases cat_shows powered_reachable_fresh (orderly_small _ _) (by decide) (by omega)
    powered_step_small .refl hdisk hargv newborn.file_path rfl with
    ⟨shell', out, hrun, _, _, hprinted, _, hshown⟩
  refine ⟨argv, shell', out, hrun, hprinted, ?_⟩
  rw [Ne, hshown newborn.not_hidden_small, hfive]
  decide

end AiOS
