import AiOS.Process.Boot

/-!
This module contains that nothing gives back the memory of a process.
-/

namespace AiOS

open process_create_user_process

/--
What a creation took between `before` and `after` is no longer taken once a destruction has led from
`last` to `released`, and its frames are counted free again.
-/
structure GivenBack (before after last released : KernelState) : Prop where
  page_directory : ∀ i, before.paging.page_directory_used i = false →
    after.paging.page_directory_used i = true → released.paging.page_directory_used i = false
  page_frames : ∀ i, before.paging.page_frame_map i = false →
    after.paging.page_frame_map i = true → released.paging.page_frame_map i = false
  free_page_frame_count : released.paging.free_page_frame_count
    = last.paging.free_page_frame_count
      + (before.paging.free_page_frame_count - after.paging.free_page_frame_count)
  slot : ∀ i, before.used_process i = false → after.used_process i = true →
    released.used_process i = false

variable {layout : Layout} {before after last released : KernelState} {m n : Nat}

theorem not_givenBack_of_taken (hbefore : before.paging.Taken n (2 * n + 2))
    (hafter : after.paging.Taken (n + 1) (2 * (n + 1) + 2))
    (hreleased : released.paging.Taken m (2 * m + 2)) (hlt : n < m)
    : ¬ GivenBack before after last released := by
  intro h
  have hfree := hafter.free
  have hdirectory : n < 32 := by omega
  have hunused : before.paging.page_directory_used ⟨n, hdirectory⟩ = false := by
    rw [← Bool.not_eq_true, hbefore.directories]
    dsimp only
    omega
  have hused : after.paging.page_directory_used ⟨n, hdirectory⟩ = true := by
    rw [hafter.directories]
    dsimp only
    omega
  have hstill : released.paging.page_directory_used ⟨n, hdirectory⟩ = true := by
    rw [hreleased.directories]
    exact hlt
  rw [h.page_directory _ hunused hused] at hstill
  contradiction

theorem paging_of_destroy {pid : UInt32} {done : Bool} (h : last.Sound n)
    (hrun : process_destroy pid last = some (done, released))
    : released.paging = last.paging := by
  cases hfind : process_destroy.find last pid with
  | none =>
    rw [process_destroy_of_find_eq_none hfind] at hrun
    injection hrun with hrun
    injection hrun with _ hrun
    rw [hrun]
  | some i =>
    rcases process_destroy_of_find_eq_some h.numbered hfind with ⟨s', heq, hcleared⟩
    rw [heq] at hrun
    injection hrun with hrun
    injection hrun with _ hrun
    rw [← hrun, hcleared.paging]

/--
No destruction that follows a creation gives back what it took, whatever happens in between.
-/
theorem not_givenBack {s s₁ s₂ : Session} {request : FAT32DriverRequest} {pid : UInt32}
    {done : Bool} (h : (sessions layout).Reachable (fun _ _ => True) s)
    (hcreate : process_create_user_process layout request s.kernel
      = some (PROCESS_CREATE_SUCCESS, s₁.kernel))
    (hstep : s.exec layout (.create request) = some s₁)
    (hleads : (sessions layout).Leads (fun _ _ => True) s₁ s₂)
    (hdestroy : process_destroy pid s₂.kernel = some (done, released))
    : ¬ GivenBack s.kernel s₁.kernel s₂.kernel released := by
  rcases Session.sound_of_reachable h with ⟨n, hsound⟩
  rcases filled_of_success hsound.kernel.taken hcreate with ⟨_, _, _, htaken⟩
  rcases hsound.exec hstep with ⟨k, hsound₁, _⟩
  have hk : k = n + 1 := hsound₁.kernel.taken.unique htaken
  rcases Session.sound_of_leads hsound₁ hleads with ⟨m, hm, hsound₂⟩
  have hreleased := hsound₂.kernel.taken
  rw [← paging_of_destroy hsound₂.kernel hdestroy] at hreleased
  apply not_givenBack_of_taken hsound.kernel.taken htaken hreleased
  omega

theorem exists_destroyed
    : ∃ s s₁ : Session, ∃ pid released, (sessions .low).init s ∧
        process_create_user_process .low kernel_setup.request s.kernel
          = some (PROCESS_CREATE_SUCCESS, s₁.kernel) ∧
        s.exec .low (.create kernel_setup.request) = some s₁ ∧
        process_destroy pid s₁.kernel = some (true, released) ∧
        released.used_process = s.kernel.used_process := by
  rcases Session.exists_grown with ⟨s, hinit, _, hgrown⟩
  rcases hgrown.create (by omega) with ⟨s₁, hcreate, hstep, hgrown₁, _, hlive⟩
  rcases hgrown.sound with ⟨n, _, hsound⟩
  rcases hgrown₁.sound with ⟨m, _, hsound₁⟩
  have hused : s₁.kernel.used_process 1 = true := by
    rw [← hsound₁.live, hlive]
    rfl
  rcases isSome_find_of_used hsound₁.kernel.numbered hused with ⟨i, hfind⟩
  have hi : 1 = i := pid_inj (hsound₁.kernel.numbered.pid_of_find hfind)
  rcases process_destroy_of_find_eq_some hsound₁.kernel.numbered hfind with
    ⟨released, hdestroy, hcleared⟩
  refine ⟨s, s₁, UInt32.ofNat (1 : Fin 16), released, hinit, hcreate, hstep, hdestroy, ?_⟩
  have hdead : s.live 1 = false := by
    rw [← Bool.not_eq_true, hgrown.filled]
    decide
  rw [hcleared.used_process, ← hsound₁.live, hlive, ← hi, ← hsound.live]
  exact (Function.update_idem _ _ _).trans (Slots.release_of_free hdead)

theorem not_givenBack_first
    : ∃ s s₁ : Session, ∃ released, ¬ GivenBack s.kernel s₁.kernel s₁.kernel released := by
  rcases exists_destroyed with ⟨s, s₁, pid, released, hinit, hcreate, hstep, hdestroy, _⟩
  exact ⟨s, s₁, released, not_givenBack (.init hinit) hcreate hstep .refl hdestroy⟩

theorem not_givenBack_second
    : ∃ s s₁ : Session, ∃ pid released, (sessions .low).init s ∧
        process_create_user_process .low kernel_setup.request s.kernel
          = some (PROCESS_CREATE_SUCCESS, s₁.kernel) ∧
        process_destroy pid s₁.kernel = some (true, released) ∧
        released.used_process = s.kernel.used_process ∧
        ¬ GivenBack s.kernel s₁.kernel s₁.kernel released := by
  rcases exists_destroyed with ⟨s, s₁, pid, released, hinit, hcreate, _, hdestroy, hsame⟩
  refine ⟨s, s₁, pid, released, hinit, hcreate, hdestroy, hsame, ?_⟩
  rcases Session.sound_of_init hinit with ⟨n, hsound⟩
  rcases filled_of_success hsound.kernel.taken hcreate with ⟨_, _, hfilled, htaken⟩
  have hreleased := htaken
  rw [← paging_of_destroy (hsound.kernel.of_filled hfilled htaken) hdestroy] at hreleased
  apply not_givenBack_of_taken hsound.kernel.taken htaken hreleased (by omega)

end AiOS
