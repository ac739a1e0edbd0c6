import AiOS.Fat32.Impl.Write

/-!
This module contains what the nested loop of `write` finds: an entry with the request's name, or a
slot together with as many empty clusters as the request needs, or neither.
-/

namespace AiOS
namespace write

variable (table : FAT32DirectoryTable) (fat_table : FAT32FileAllocationTable)
  (request : FAT32DriverRequest) (required : Nat)

theorem mem_slots (i : Fin 64) : i ∈ slots ↔ 2 ≤ i.val := by
  revert i
  decide

theorem mem_clusters (j : Fin 512) : j ∈ clusters ↔ 3 ≤ j.val := by
  unfold clusters
  rw [List.mem_drop_iff_getElem]
  constructor
  . intro ⟨k, hk, heq⟩
    rw [List.getElem_finRange] at heq
    rw [← heq]
    simp
  . intro hj
    refine ⟨j.val - 3, ?_, ?_⟩
    . simp
      omega
    . simp only [List.getElem_finRange]
      apply Fin.ext
      simp
      omega

theorem length_slots : slots.length = 62 := by
  simp [slots]

theorem length_clusters : clusters.length = 509 := by
  simp [clusters]

theorem pairwise_slots : slots.Pairwise (· < ·) := by
  unfold slots
  exact (List.pairwise_lt_finRange 64).drop

theorem pairwise_clusters : clusters.Pairwise (· < ·) := by
  unfold clusters
  exact (List.pairwise_lt_finRange 512).drop

theorem required_clusters_eq
    : required_clusters request = max 1 ((request.buffer_size.toNat + (CLUSTER_SIZE - 1)) / CLUSTER_SIZE) := by
  unfold required_clusters CLUSTER_SIZE
  dsimp
  split
  . split
    . omega
    . omega
  . split
    . omega
    . omega

def empty_clusters : List (Fin 512) :=
  clusters.filter fun j => fat_table j = FAT32_FAT_EMPTY_ENTRY

def free_slots (is : List (Fin 64)) : List (Fin 64) :=
  is.filter fun i => (table i).user_attribute ≠ UATTR_NOT_EMPTY

def named (i : Fin 64) : Prop :=
  (table i).user_attribute = UATTR_NOT_EMPTY ∧ request.name = (table i).name ∧
    request.ext = (table i).ext

instance (i : Fin 64) : Decidable (named table request i) :=
  inferInstanceAs (Decidable (_ ∧ _))

theorem mem_free_slots (i : Fin 64)
    : i ∈ free_slots table slots ↔ 2 ≤ i.val ∧ (table i).user_attribute ≠ UATTR_NOT_EMPTY := by
  unfold free_slots
  rw [List.mem_filter, mem_slots, decide_eq_true_iff]

theorem mem_empty_clusters (c : Fin 512)
    : c ∈ empty_clusters fat_table ↔ 3 ≤ c.val ∧ fat_table c = FAT32_FAT_EMPTY_ENTRY := by
  unfold empty_clusters
  rw [List.mem_filter, mem_clusters, decide_eq_true_iff]

theorem pairwise_empty_clusters : (empty_clusters fat_table).Pairwise (· < ·) := by
  unfold empty_clusters
  apply pairwise_clusters.filter

theorem pairwise_free_slots : (free_slots table slots).Pairwise (· < ·) := by
  unfold free_slots
  apply pairwise_slots.filter

variable {table fat_table request required}

theorem live_of_lt_head {i j : Fin 64} (h : (free_slots table slots).head? = some i)
    (hj : 2 ≤ j.val) (hji : j < i)
    : (table j).user_attribute = UATTR_NOT_EMPTY := by
  by_contra hdead
  have hmem : j ∈ free_slots table slots := (mem_free_slots table j).mpr ⟨hj, hdead⟩
  have hpairwise := pairwise_free_slots table
  rcases List.head?_eq_some_iff.mp h with ⟨rest, hrest⟩
  rw [hrest] at hmem hpairwise
  rw [List.pairwise_cons] at hpairwise
  cases List.mem_cons.mp hmem with
  | inl heq => omega
  | inr hin =>
    have hlt := hpairwise.1 j hin
    omega

theorem find_clusters_eq {i : Fin 64} {js : List (Fin 512)} {found : Found}
    (hlen : found.cluster_numbers.length < required)
    : find_clusters fat_table required i js found
        =
      let empty := js.filter fun j => fat_table j = FAT32_FAT_EMPTY_ENTRY
      if found.cluster_numbers.length + empty.length < required then
        ⟨found.entry_number, found.cluster_numbers ++ empty⟩
      else
        ⟨some i, found.cluster_numbers ++ empty.take (required - found.cluster_numbers.length)⟩ := by
  induction js generalizing found with
  | nil => simp [find_clusters, hlen]
  | cons j js ih =>
    unfold find_clusters
    by_cases hj : fat_table j = FAT32_FAT_EMPTY_ENTRY
    . simp only [hj, if_true, List.filter_cons, decide_true, List.length_append, List.length_cons,
        List.length_nil]
      by_cases hreq : found.cluster_numbers.length + 1 = required
      . -- `j` is the last cluster that was missing
        have hone : required - found.cluster_numbers.length = 1 := by omega
        rw [if_pos (by omega), if_neg (by omega), hone]
        simp
      . rw [if_neg (by omega), ih (by simp; omega)]
        have htake : required - found.cluster_numbers.length
            = required - (found.cluster_numbers.length + 1) + 1 := by omega
        rw [htake]
        simp [Nat.add_assoc, Nat.add_comm 1]
    . rw [if_neg hj, if_neg (by omega), ih hlen]
      simp [hj]

theorem find_clusters_of_short {i : Fin 64} {found : Found}
    (hshort : found.cluster_numbers.length + (empty_clusters fat_table).length < required)
    : find_clusters fat_table required i clusters found
        =
      ⟨found.entry_number, found.cluster_numbers ++ empty_clusters fat_table⟩ := by
  unfold empty_clusters at hshort ⊢
  rw [find_clusters_eq (by omega)]
  dsimp only
  rw [if_pos hshort]

theorem find_clusters_of_enough {i : Fin 64} {found : Found}
    (hlen : found.cluster_numbers.length < required)
    (henough : required ≤ found.cluster_numbers.length + (empty_clusters fat_table).length)
    : find_clusters fat_table required i clusters found
        =
      ⟨some i, found.cluster_numbers ++
        (empty_clusters fat_table).take (required - found.cluster_numbers.length)⟩ := by
  unfold empty_clusters at henough ⊢
  rw [find_clusters_eq hlen]
  dsimp only
  rw [if_neg (by omega)]

theorem free_slots_cons_of_free {i : Fin 64} {is : List (Fin 64)}
    (hi : (table i).user_attribute ≠ UATTR_NOT_EMPTY)
    : free_slots table (i :: is) = i :: free_slots table is := by
  simp [free_slots, hi]

theorem free_slots_cons_of_live {i : Fin 64} {is : List (Fin 64)}
    (hi : (table i).user_attribute = UATTR_NOT_EMPTY)
    : free_slots table (i :: is) = free_slots table is := by
  simp [free_slots, hi]

theorem find_slot_cons_of_named {i : Fin 64} {is : List (Fin 64)} {found : Found}
    (hi : named table request i)
    : find_slot table fat_table request required (i :: is) found = none := by
  unfold named at hi
  unfold find_slot
  simp only [memcmp_eq_zero_iff]
  rw [if_pos hi]

theorem find_slot_cons_of_live {i : Fin 64} {is : List (Fin 64)} {found : Found}
    (hi : (table i).user_attribute = UATTR_NOT_EMPTY) (hname : ¬ named table request i)
    : find_slot table fat_table request required (i :: is) found
        =
      find_slot table fat_table request required is found := by
  unfold named at hname
  conv => lhs; unfold find_slot
  simp only [memcmp_eq_zero_iff]
  rw [if_neg hname, if_neg (by simp [hi])]

theorem find_slot_cons_of_free {i : Fin 64} {is : List (Fin 64)} {found : Found}
    (hi : (table i).user_attribute ≠ UATTR_NOT_EMPTY)
    (hlen : found.cluster_numbers.length ≠ required)
    : find_slot table fat_table request required (i :: is) found
        =
      find_slot table fat_table request required is
        (find_clusters fat_table required i clusters found) := by
  conv => lhs; unfold find_slot
  simp only [memcmp_eq_zero_iff]
  rw [if_neg (by simp [hi]), if_pos ⟨hi, hlen⟩]

theorem find_slot_cons_of_full {i : Fin 64} {is : List (Fin 64)} {found : Found}
    (hname : ¬ named table request i) (hlen : found.cluster_numbers.length = required)
    : find_slot table fat_table request required (i :: is) found
        =
      find_slot table fat_table request required is found := by
  unfold named at hname
  conv => lhs; unfold find_slot
  simp only [memcmp_eq_zero_iff]
  rw [if_neg hname, if_neg (by simp [hlen])]

theorem find_slot_eq_none_iff {is : List (Fin 64)} {found : Found}
    : find_slot table fat_table request required is found = none
        ↔
      ∃ i ∈ is, named table request i := by
  induction is generalizing found with
  | nil => simp [find_slot]
  | cons i is ih =>
    by_cases hi : named table request i
    . rw [find_slot_cons_of_named hi]
      simp [hi]
    . rw [List.exists_mem_cons_iff]
      by_cases hlive : (table i).user_attribute = UATTR_NOT_EMPTY
      . rw [find_slot_cons_of_live hlive hi, ih]
        simp [hi]
      . by_cases hlen : found.cluster_numbers.length = required
        . rw [find_slot_cons_of_full hi hlen, ih]
          simp [hi]
        . rw [find_slot_cons_of_free hlive hlen, ih]
          simp [hi]

theorem not_named_of_find_slot {i : Fin 64} {is : List (Fin 64)} {found r : Found}
    (h : find_slot table fat_table request required (i :: is) found = some r)
    : ¬ named table request i := by
  intro hi
  rw [find_slot_cons_of_named hi] at h
  contradiction

theorem find_slot_full {is : List (Fin 64)} {found r : Found}
    (hlen : found.cluster_numbers.length = required)
    (h : find_slot table fat_table request required is found = some r)
    : r = found := by
  induction is with
  | nil =>
    unfold find_slot at h
    injection h with h
    rw [h]
  | cons i is ih =>
    rw [find_slot_cons_of_full (not_named_of_find_slot h) hlen] at h
    apply ih h

theorem find_slot_spec {is : List (Fin 64)} {found r : Found}
    (hentry : found.entry_number = none) (hlen : found.cluster_numbers.length < required)
    (h : find_slot table fat_table request required is found = some r)
    : if found.cluster_numbers.length
          + (empty_clusters fat_table).length * (free_slots table is).length < required then
        r.entry_number = none
      else
        (∃ i ∈ free_slots table is, r.entry_number = some i) ∧
          r.cluster_numbers.length = required ∧
          ∀ c ∈ r.cluster_numbers, c ∈ found.cluster_numbers ∨ c ∈ empty_clusters fat_table := by
  induction is generalizing found with
  | nil =>
    unfold find_slot at h
    injection h with h
    rw [← h, if_pos (by simpa [free_slots] using hlen)]
    assumption
  | cons i is ih =>
    by_cases hi : (table i).user_attribute = UATTR_NOT_EMPTY
    . rw [find_slot_cons_of_live hi (not_named_of_find_slot h)] at h
      rw [free_slots_cons_of_live hi]
      apply ih hentry hlen h
    . -- a free slot sees all empty clusters once more
      rw [find_slot_cons_of_free hi (by omega)] at h
      rw [free_slots_cons_of_free hi, List.length_cons, Nat.mul_succ]
      by_cases hshort : found.cluster_numbers.length + (empty_clusters fat_table).length < required
      . rw [find_clusters_of_short hshort] at h
        have hstep := @ih ⟨_, _ ++ empty_clusters fat_table⟩ hentry (by simpa using hshort) h
        simp only [List.length_append] at hstep
        split at hstep
        . rw [if_pos (by omega)]
          assumption
        . rw [if_neg (by omega)]
          rcases hstep with ⟨⟨k, hk, hrk⟩, hrlen, hrmem⟩
          refine ⟨⟨k, List.mem_cons_of_mem i hk, hrk⟩, hrlen, ?_⟩
          intro c hc
          cases hrmem c hc with
          | inl hin =>
            rw [List.mem_append] at hin
            apply hin
          | inr hin => apply Or.inr hin
      . rw [find_clusters_of_enough hlen (by omega)] at h
        have hfull := find_slot_full (by simp; omega) h
        rw [if_neg (by
          have := Nat.zero_le ((empty_clusters fat_table).length * (free_slots table is).length)
          omega)]
        rw [hfull]
        refine ⟨⟨i, List.mem_cons_self, rfl⟩, by simp; omega, ?_⟩
        intro c hc
        rw [List.mem_append] at hc
        cases hc with
        | inl hin => apply Or.inl hin
        | inr hin => apply Or.inr (List.mem_of_mem_take hin)

theorem find_slot_enough {is : List (Fin 64)} {r : Found} (hpos : 0 < required)
    (henough : required ≤ (empty_clusters fat_table).length)
    (h : find_slot table fat_table request required is ⟨none, []⟩ = some r)
    : r = match (free_slots table is).head? with
        | none => ⟨none, []⟩
        | some i => ⟨some i, (empty_clusters fat_table).take required⟩ := by
  induction is with
  | nil =>
    unfold find_slot at h
    injection h with h
    rw [← h]
    rfl
  | cons i is ih =>
    by_cases hi : (table i).user_attribute = UATTR_NOT_EMPTY
    . rw [find_slot_cons_of_live hi (not_named_of_find_slot h)] at h
      rw [free_slots_cons_of_live hi]
      apply ih h
    . rw [find_slot_cons_of_free hi (by dsimp; omega)] at h
      rw [find_clusters_of_enough hpos (by dsimp; omega)] at h
      rw [free_slots_cons_of_free hi]
      apply find_slot_full _ h
      simpa using henough

end write
end AiOS
