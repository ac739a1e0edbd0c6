import AiOS.External.Inserter
import AiOS.Process.Boot

/-!
This module proves that a machine boots from an image that the inserter has made.
-/

namespace AiOS

open Catalog Inserter process_create_user_process

section

variable {driver_state st : FAT32DriverState} {memory : UInt32 → UInt8}
  {newDirectoryTable : FAT32DirectoryTable} {request : FAT32DriverRequest} {d d' : Disk} {code : Int}

theorem write.root_of_run (h : Recovered (driver_state, d))
    (hP : d.Directory request.parent_cluster_number.toNat) (hshort : ¬ write.short request d)
    (hrun : (write driver_state memory newDirectoryTable request).run diskDevice d
      = some ((code, st), d'))
    : (d'.table 2 = d.table 2 ∧ (code ≠ 0 ∨ 2 ≠ request.parent)) ∨
        ∃ i cluster, 2 ≤ i.val ∧ (∀ j ∈ slots, ¬ named (d.table 2) request j) ∧
          d'.table 2 = Function.update (d.table 2) i (new_entry (d.table 2 i) request cluster) := by
  have hwf : d.WellFormed := h.wellFormed
  cases run_cases _ _ _ _ _ hrun with
  | inl hfail =>
    left
    rw [hfail.2.2]
    exact ⟨rfl, Or.inl hfail.1⟩
  | inr hcommit =>
    rcases hcommit with ⟨i, cs, _, hparent, hsearch, _, rfl⟩
    rw [← hwf.parent_eq hP] at hP
    have hch := chosen_of_search hsearch
    have hnodup := nodup_of_not_short _ _ hparent hshort hsearch
    have hst := staged_of_chosen memory newDirectoryTable hch hwf hP hnodup
    have hnew := committed_of_chosen memory newDirectoryTable hch hwf hP hnodup
    have hnames := (search_isSome_iff request d).mp ⟨_, hsearch⟩
    by_cases hroot : 2 = request.parent
    . right
      refine ⟨i, UInt32.ofNat (cs.headD 0), hch.slot, ?_, ?_⟩
      . rw [hroot]
        exact hnames
      . rw [hroot]
        exact hnew.table
    . left
      exact ⟨hst.table_of_ne hch hwf Directory.root hroot, Or.inr hroot⟩

end

def mount (d : Disk) : FAT32DriverState × Disk :=
  (⟨d.fat, FAT32DriverState.zero.dir_table_buf⟩, d)

theorem Recovered.mount {s : FAT32DriverState × Disk} (h : Recovered s)
    : Recovered (mount s.2) where
  wellFormed := h.wellFormed
  cache := rfl
  signed := h.signed
  regular := h.regular

/--
An image that the inserter has formatted: in the root, only live entries from slot 2 on can have the
name of the shell.
-/
structure Installed (d : Disk) : Prop where
  recovered : Recovered (mount d)
  carried : ∀ j, read.carries kernel_setup.request (d.table 2 j) →
    2 ≤ j.val ∧ (d.table 2 j).user_attribute = UATTR_NOT_EMPTY

/--
The shell is in the root, and its name leads `read` to it.
-/
structure Bootable (content : List UInt8) (d : Disk) : Prop where
  installed : Installed d
  files : ∀ j, read.carries kernel_setup.request (d.table 2 j) →
    (d.table 2 j).attribute ≠ ATTR_SUBDIRECTORY
  stored : ⟨2, (kernel_setup.request.name, kernel_setup.request.ext), .file content⟩ ∈ d.store

namespace Installed

theorem of_created (after_literal : Fin 3 → UInt8)
    : Installed (create_fat32.created .zero after_literal create_fat32.blank) where
  recovered := by
    apply Recovered.mount (s := (⟨_, _⟩, _))
    apply Recovered.of_create
    exact ⟨.zero, after_literal, _, create_fat32.run_create_fat32 _ _ _⟩
  carried := by
    intro j ⟨hname, _⟩
    exfalso
    rw [create_fat32.created_table] at hname
    unfold create_fat32.dir_table_buf init_directory_table at hname
    split at hname
    . have hbyte : (0x6F : UInt8) = 0x68 := congrFun hname 1
      revert hbyte
      decide
    . split at hname
      . have hbyte : (0x2E : UInt8) = 0x73 := congrFun hname 0
        revert hbyte
        decide
      . have hbyte : (0 : UInt8) = 0x73 := congrFun hname 0
        revert hbyte
        decide

variable {st : FAT32DriverState} {memory : UInt32 → UInt8} {newDirectoryTable : FAT32DirectoryTable}
  {request : FAT32DriverRequest} {d d' : Disk} {code : Int}

theorem run_initialize (h : Installed d) (after_literal : Fin 3 → UInt8)
    : (initialize_filesystem_fat32 .zero after_literal).run diskDevice d = some (mount d) :=
  run_initialize_filesystem_fat32 h.recovered.signed _ _

theorem powered_step (hP : d.Directory request.parent_cluster_number.toNat)
    (hrun : (write (mount d).1 memory newDirectoryTable request).run diskDevice d
      = some ((code, st), d'))
    : powered.step (mount d) (.serve (.write memory newDirectoryTable request) code) (st, d') :=
  ⟨hP, hrun⟩

section

variable (h : Installed d) (hP : d.Directory request.parent_cluster_number.toNat)
  (hshort : ¬ write.short request d)
  (hrun : (write (mount d).1 memory newDirectoryTable request).run diskDevice d
    = some ((code, st), d'))

include h hP hshort hrun

theorem of_write : Installed d' where
  recovered := by
    have hstep := powered_step hP hrun
    have hok : (Operation.write memory newDirectoryTable request).Orderly (mount d) := hshort
    exact (h.recovered.of_step (e := .serve _ code) hok hstep).mount
  carried := by
    rcases write.root_of_run h.recovered hP hshort hrun with ⟨htable, _⟩ | ⟨i, cluster, hi, _, htable⟩
    . rw [htable]
      exact h.carried
    . intro j hcarries
      rw [htable, Function.update_apply] at hcarries ⊢
      split at hcarries
      . next hj =>
        rw [if_pos hj, hj]
        exact ⟨hi, write.new_entry_user_attribute _ _ _⟩
      . next hj =>
        rw [if_neg hj]
        exact h.carried j hcarries

-- the name was not there, so the new entry is the only one that has it
theorem bootable_of_write (hname : request.name = kernel_setup.request.name)
    (hext : request.ext = kernel_setup.request.ext) (hparent : request.parent_cluster_number = 2)
    (hsize : request.buffer_size ≠ 0) (hcode : code = 0)
    : Bootable (request.bytes memory) d' where
  installed := h.of_write hP hshort hrun
  files := by
    intro j hcarries
    rcases write.root_of_run h.recovered hP hshort hrun with ⟨_, hnot⟩ | ⟨i, cluster, _, hnames, htable⟩
    . have hroot : 2 = request.parent := by
        rw [h.recovered.wellFormed.parent_eq hP, hparent]
        rfl
      exact absurd hnot (by simp [hcode, hroot])
    . rw [htable, Function.update_apply] at hcarries ⊢
      split at hcarries
      . next hj =>
        rw [if_pos hj, Ne, write.new_entry_isDir_iff]
        exact hsize
      . next hj =>
        rcases h.carried j hcarries with ⟨hslot, hlive⟩
        exfalso
        apply hnames j ((write.mem_slots j).mpr hslot)
        exact ⟨hlive, hname.trans hcarries.1.symm, hext.trans hcarries.2.symm⟩
  stored := by
    have hpermits := h.recovered.permits (e := .serve (.write memory newDirectoryTable request) code)
      hshort (powered_step hP hrun)
    rcases hpermits with ⟨_, _, change, hasks, _, hstore⟩ | ⟨hnot, _⟩
    . rw [hasks.of_file hsize] at hstore
      have hroot : request.parent_cluster_number.toNat = 2 := by
        rw [hparent]
        rfl
      rw [hroot, hname, hext] at hstore
      rw [hstore]
      exact Set.mem_insert _ _
    . exact absurd ⟨trivial, hcode⟩ hnot

end

end Installed

namespace Bootable

variable {content : List UInt8} {st : FAT32DriverState} {memory : UInt32 → UInt8}
  {newDirectoryTable : FAT32DirectoryTable} {request : FAT32DriverRequest} {d d' : Disk} {code : Int}

theorem of_write (h : Bootable content d) (hP : d.Directory request.parent_cluster_number.toNat)
    (hshort : ¬ write.short request d) (hext : request.ext = kernel_setup.request.ext)
    (hrun : (write (mount d).1 memory newDirectoryTable request).run diskDevice d
      = some ((code, st), d'))
    : Bootable content d' where
  installed := h.installed.of_write hP hshort hrun
  files := by
    rcases write.root_of_run h.installed.recovered hP hshort hrun with
      ⟨htable, _⟩ | ⟨i, cluster, _, hnames, htable⟩
    . rw [htable]
      exact h.files
    . intro j hcarries
      rw [htable, Function.update_apply] at hcarries ⊢
      split at hcarries
      . exfalso
        rcases h.stored with ⟨⟨p, k⟩, hshows⟩
        have hroot : 2 = p := hshows.parent
        have hname := hshows.name
        have hlive : d.Live (p, k) := hshows.live
        rw [← hroot] at hlive
        rw [Prod.mk.injEq, ← hroot] at hname
        have hslot : 2 ≤ k.val := hlive.slot
        apply hnames k ((write.mem_slots k).mpr hslot)
        have hrequest : request.name = kernel_setup.request.name := by
          rw [← hcarries.1, write.new_entry_name]
        exact ⟨hlive.live, hrequest.trans hname.1, hext.trans hname.2⟩
      . next hj =>
        rw [if_neg hj]
        exact h.files j hcarries
  stored := by
    have hpermits := h.installed.recovered.permits
      (e := .serve (.write memory newDirectoryTable request) code) hshort
      (Installed.powered_step hP hrun)
    have hkept : ¬ PowerEvent.Deletes kernel_setup.request
        (.serve (.write memory newDirectoryTable request) code) := id
    exact hpermits.mem hkept h.stored

end Bootable

theorem FAT32DriverRequest.bytes_eq {memory : UInt32 → UInt8} {request : FAT32DriverRequest}
    {content : List UInt8} (hbuf : request.buf = 0)
    (hsize : request.buffer_size = UInt32.ofNat content.length) (hlength : content.length < 2 ^ 32)
    (hmemory : ∀ k < content.length, memory (UInt32.ofNat k) = content.getD k 0)
    : request.bytes memory = content := by
  have hcount : (UInt32.ofNat content.length).toNat = content.length := by
    rw [UInt32.toNat_ofNat']
    omega
  apply List.ext_getElem
  . rw [write.length_bytes, hsize, hcount]
  . intro k hk hk'
    apply Option.some.inj
    rw [write.length_bytes] at hk
    rw [← List.getElem?_eq_getElem, write.getElem?_bytes hk, hbuf, UInt32.zero_add, hmemory k hk',
      List.getD_eq_getElem _ _ hk']

namespace Inserter

variable {args : Arguments} {leftovers : Leftovers} {d d' : Disk} {code : Int}

theorem bytes_file_buffer (leftovers : Leftovers) (hlength : args.target.length ≤ 4 * 1024 * 1024)
    : args.request.bytes (args.file_buffer leftovers) = args.target := by
  apply FAT32DriverRequest.bytes_eq rfl rfl (by omega)
  intro k hk
  have hnat : (UInt32.ofNat k).toNat = k := by
    rw [UInt32.toNat_ofNat']
    omega
  unfold Arguments.file_buffer
  rw [hnat, List.take_of_length_le hlength, List.getD_eq_getElem _ _ hk,
    List.getD_eq_getElem _ _ hk]

theorem cases_of_main (hrun : (main args leftovers).run diskDevice d = some (code, d'))
    : ∃ st d₀ st', (initialize_filesystem_fat32 .zero leftovers.after_literal).run diskDevice d
          = some (st, d₀) ∧
        (AiOS.write st (args.file_buffer leftovers) leftovers.newDirectoryTable args.request).run
          diskDevice d₀ = some ((code, st'), d') := by
  unfold main at hrun
  rw [Prog.run_bind, Option.bind_eq_some_iff] at hrun
  rcases hrun with ⟨⟨st, d₀⟩, hinit, hrun⟩
  rw [Prog.run_bind, Option.bind_eq_some_iff] at hrun
  rcases hrun with ⟨⟨⟨retcode, st'⟩, d''⟩, hwrite, hrun⟩
  simp only [Prog.pure_eq, Prog.run_pure, Option.some.injEq, Prod.mk.injEq] at hrun
  rw [hrun.1, hrun.2] at hwrite
  exact ⟨st, d₀, st', hinit, hwrite⟩

theorem installed_of_fresh {st : FAT32DriverState} {after_literal : Fin 3 → UInt8}
    (h : d = create_fat32.blank ∨ Installed d)
    (hinit : (initialize_filesystem_fat32 .zero after_literal).run diskDevice d = some (st, d'))
    : Installed d' := by
  rcases h with heq | h
  . rw [heq, run_initialize_of_not_signed create_fat32.not_signed_blank,
      create_fat32.run_create_fat32] at hinit
    injection hinit with hinit
    injection hinit with _ hd
    rw [← hd]
    exact .of_created after_literal
  . rw [h.run_initialize] at hinit
    injection hinit with hinit
    injection hinit with _ hd
    rw [← hd]
    exact h

theorem installed_of_main (h : d = create_fat32.blank ∨ Installed d) (hfits : args.Fits d)
    (hrun : (main args leftovers).run diskDevice d = some (code, d'))
    : Installed d' := by
  rcases cases_of_main hrun with ⟨st, d₀, st', hinit, hwrite⟩
  rcases hfits _ _ _ hinit with ⟨hP, hshort⟩
  exact (installed_of_fresh h hinit).of_write hP hshort hwrite

theorem bootable_of_main {content : List UInt8} (h : Bootable content d) (hfits : args.Fits d)
    (hrun : (main args leftovers).run diskDevice d = some (code, d'))
    : Bootable content d' := by
  rcases cases_of_main hrun with ⟨st, d₀, st', hinit, hwrite⟩
  rcases hfits _ _ _ hinit with ⟨hP, hshort⟩
  rw [h.installed.run_initialize] at hinit
  injection hinit with hinit
  injection hinit with _ hd
  rw [← hd] at hP hshort hwrite
  exact h.of_write hP hshort rfl hwrite

/--
The inserter is asked to put a file that is not empty into the root, as the shell.
-/
structure Arguments.Shell (args : Arguments) : Prop where
  name : sscanf_s args.file = kernel_setup.request.name
  parent : sscanf_u args.parent = 2
  pos : 0 < args.target.length
  le : args.target.length ≤ 0x100000

theorem bootable_of_shell (h : d = create_fat32.blank ∨ Installed d) (hshell : args.Shell)
    (hfits : args.Fits d) (hrun : (main args leftovers).run diskDevice d = some (0, d'))
    : Bootable args.target d' := by
  have hpos := hshell.pos
  have hle := hshell.le
  rcases cases_of_main hrun with ⟨st, d₀, st', hinit, hwrite⟩
  rcases hfits _ _ _ hinit with ⟨hP, hshort⟩
  have hsize : args.request.buffer_size ≠ 0 := by
    intro hzero
    have hnat := congrArg UInt32.toNat hzero
    have hcount : args.request.buffer_size.toNat = args.target.length % 2 ^ 32 :=
      UInt32.toNat_ofNat'
    have hnull : (0 : UInt32).toNat = 0 := rfl
    omega
  rw [← bytes_file_buffer leftovers (by omega)]
  exact (installed_of_fresh h hinit).bootable_of_write hP hshort hwrite hshell.name rfl
    hshell.parent hsize rfl

end Inserter

theorem Bootable.exists_read {content : List UInt8} {d : Disk} (h : Bootable content d)
    (hle : content.length ≤ 0x100000)
    : ∃ bufs : List ClusterBuffer, bufs.length ≤ 512 ∧
        (∀ driver_state, ∃ st, (read driver_state kernel_setup.request).run diskDevice d
          = some ((0, st, bufs), d)) ∧
        ∀ k < content.length, ClusterBuffer.byteOf bufs k = content[k]? := by
  let request : FAT32DriverRequest :=
    { kernel_setup.request with buffer_size := UInt32.ofNat content.length }
  let memory : UInt32 → UInt8 := fun a => content.getD a.toNat 0
  have hcount : request.buffer_size.toNat = content.length := by
    have hmod : request.buffer_size.toNat = content.length % 2 ^ 32 := UInt32.toNat_ofNat'
    omega
  have hbytes : request.bytes memory = content := by
    apply FAT32DriverRequest.bytes_eq rfl rfl (by omega)
    intro k hk
    have hnat : (UInt32.ofNat k).toNat = k := by
      rw [UInt32.toNat_ofNat']
      omega
    dsimp only [memory]
    rw [hnat]
  have hmem : ⟨request.parent_cluster_number.toNat, (request.name, request.ext),
      .file (request.bytes memory)⟩ ∈ (mount d).2.store := by
    rw [hbytes]
    exact h.stored
  have hbuffer : request.buffer_size ≤ kernel_setup.request.buffer_size := by
    rw [UInt32.le_iff_toNat_le, hcount]
    exact hle
  rcases h.installed.recovered.exists_copies hmem h.files (r := kernel_setup.request) rfl rfl rfl
    hbuffer with ⟨i, l, hcopies, hlinks, hholds⟩
  refine ⟨l.map d.cluster, ?_, ?_, ?_⟩
  . rw [List.length_map]
    exact read.length_le_of_links hlinks
  . intro driver_state
    exact ⟨_, read.run_of_copies hcopies hlinks⟩
  . intro k hk
    rw [← hcount] at hk
    have hbyte : ClusterBuffer.byteOf (l.map d.cluster) k
        = some (memory (request.buf + UInt32.ofNat k)) := hholds k hk
    rw [hbyte, ← hbytes, write.getElem?_bytes hk]

/--
An image that is made by the inserter, run after run from an empty one, with the shell in one of the
runs, boots: `kernel_setup` creates process 0, and the file that it reads has the bytes of the shell.
-/
theorem image_boots {layout : Layout} {after_literal : Fin 3 → UInt8} {args : Arguments}
    {leftovers : Leftovers} {d₁ d₂ d : Disk}
    (hreach : inserter.Reachable (fun d args => args.Fits d) d₁) (hshell : args.Shell)
    (hfits : args.Fits d₁) (hrun : (main args leftovers).run diskDevice d₁ = some (0, d₂))
    (hleads : inserter.Leads (fun d args => args.Fits d) d₂ d)
    : (∃ kernel, kernel_setup layout after_literal (.initial layout d) = some kernel ∧
          kernel.First ∧ kernel.disk = d) ∧
        ∀ driver_state, ∃ st bufs, (read driver_state kernel_setup.request).run diskDevice d
            = some ((0, st, bufs), d) ∧
          ∀ k < args.target.length, ClusterBuffer.byteOf bufs k = args.target[k]? := by
  have hd₁ : d₁ = create_fat32.blank ∨ Installed d₁ := by
    apply hreach.invariant (I := fun d => d = create_fat32.blank ∨ Installed d)
    . intro d hinit
      exact Or.inl hinit
    . intro d args d' h hfits ⟨leftovers, code, hrun⟩
      exact Or.inr (installed_of_main h hfits hrun)
  have hbootable : Bootable args.target d := by
    apply hleads.invariant (I := Bootable args.target) (bootable_of_shell hd₁ hshell hfits hrun)
    intro d args d' h hfits ⟨leftovers, code, hrun⟩
    exact bootable_of_main h hfits hrun
  have hsigned : d.cluster 0 0 = fs_signature := hbootable.installed.recovered.signed
  rcases hbootable.exists_read hshell.le with ⟨bufs, hlength, hread, hbytes⟩
  have hfit : stores_fit kernel_setup.request bufs := by
    have hsize : CLUSTER_SIZE = 2048 := rfl
    have hbuf : kernel_setup.request.buf.toNat = 0 := rfl
    left
    rw [hsize, hbuf]
    omega
  refine ⟨Booted.of_read layout after_literal hsigned hread hfit, ?_⟩
  intro driver_state
  rcases hread driver_state with ⟨st, hst⟩
  exact ⟨st, bufs, hst, hbytes⟩

def Inserter.small : Arguments where
  file := [0x73, 0x68, 0x65, 0x6C, 0x6C]
  parent := [0x32]
  content := some [0x41, 0x41, 0x41, 0x41, 0x41]

theorem Inserter.request_small : small.request = write.small := by
  have hname : sscanf_s small.file = write.small.name := by decide
  unfold Arguments.request
  rw [hname]
  rfl

theorem Inserter.run_small
    : (main small ⟨fun _ => 0x41, fun _ => 0, fun _ => .zero⟩).run diskDevice create_fat32.blank
        = some (0, write.populated) := by
  have hbuffer : small.file_buffer ⟨fun _ => 0x41, fun _ => 0, fun _ => .zero⟩ = fun _ => 0x41 := by
    funext a
    unfold Arguments.file_buffer
    have hbytes : ∀ k, [(0x41 : UInt8), 0x41, 0x41, 0x41, 0x41].getD k 0x41 = 0x41 := by
      intro k
      rw [List.getD_eq_getElem?_getD]
      cases hk : [(0x41 : UInt8), 0x41, 0x41, 0x41, 0x41][k]? with
      | none => rfl
      | some byte =>
        have hmem := List.mem_of_getElem? hk
        simp at hmem
        rw [hmem]
        rfl
    exact hbytes a.toNat
  unfold main
  rw [hbuffer, request_small, Prog.run_bind, run_initialize_of_not_signed create_fat32.not_signed_blank,
    create_fat32.run_create_fat32, Option.bind_some]
  dsimp only
  rw [Prog.run_bind]
  have hrun := write.run_small ⟨create_fat32.fat_table, create_fat32.dir_table_buf .zero fun _ => 0⟩
  have hfresh : create_fat32.created .zero (fun _ => 0) create_fat32.blank = fresh := rfl
  rw [hfresh, hrun]
  rfl

theorem image_boots_small
    : ∃ d kernel, (main small ⟨fun _ => 0x41, fun _ => 0, fun _ => .zero⟩).run diskDevice
          create_fat32.blank = some (0, d) ∧
        kernel_setup .low (fun _ => 0) (.initial .low d) = some kernel ∧ kernel.First := by
  have hfits : small.Fits create_fat32.blank := by
    intro after_literal st d' hinit
    rw [run_initialize_of_not_signed create_fat32.not_signed_blank,
      create_fat32.run_create_fat32] at hinit
    injection hinit with hinit
    injection hinit with _ hd
    rw [← hd, request_small]
    exact ⟨Directory.root, not_short_small _⟩
  have hshell : small.Shell := ⟨by decide, by decide, by decide, by decide⟩
  rcases (@image_boots .low _ _ _ _ _ _ (.init rfl) hshell hfits run_small .refl).1 with
    ⟨kernel, hrun, hfirst, _⟩
  exact ⟨_, kernel, run_small, hrun, hfirst⟩

end AiOS
