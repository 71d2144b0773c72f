import Mathlib

/-!
# Processes sharing locks, registries and counters

Each process has a local state. A region is a set of local states, and a shared
variable keeps track of a region when it says which processes are inside it: a
lock names the one process inside, a registry lists them, a counter counts
them. One step moves one process, and a variable that accounts for the move
keeps track of its region.
-/

namespace Processes

open Finset List

variable {ι π : Type} {region : π → Bool} {pc pc' : ι → π} {i j : ι}

/-- The lock is owned by the process inside the region. -/
def Owns (region : π → Bool) (pc : ι → π) (lock : Option ι) : Prop :=
  ∀ i, region (pc i) = true ↔ lock = some i

/-- The registry lists the processes inside the region, each once. -/
structure Lists (region : π → Bool) (pc : ι → π) (l : List ι) : Prop where
  nodup : l.Nodup
  mem_iff : ∀ i, i ∈ l ↔ region (pc i) = true

section

variable (region : π → Bool)

/-- The counter is the number of processes inside the region. -/
def Counts (pc : ι → π) (n : Nat) : Prop :=
  ∃ l, Lists region pc l ∧ l.length = n

/-- A lock is taken on entering the region and released on leaving it. -/
def LockMoves (p q : π) (i : ι) (lock lock' : Option ι) : Prop :=
  match region p, region q with
  | false, true => lock = none ∧ lock' = some i
  | true, false => lock' = none
  | _, _ => lock' = lock

/-- A registry gains a process on entering the region and loses it on leaving. -/
def ListMoves [DecidableEq ι] (p q : π) (i : ι) (l l' : List ι) : Prop :=
  match region p, region q with
  | false, true => l' = i :: l
  | true, false => l' = l.erase i
  | _, _ => l' = l

def CountMoves (p q : π) (n n' : Nat) : Prop :=
  match region p, region q with
  | false, true => n' = n + 1
  | true, false => n' = n - 1
  | _, _ => n' = n

/-- Only process `i` may have entered or left the region. -/
def Only (i : ι) (pc pc' : ι → π) : Prop :=
  ∀ j, j ≠ i → region (pc' j) = region (pc j)

end

lemma Owns.unique {lock : Option ι} (h : Owns region pc lock) (hi : region (pc i) = true)
    (hj : region (pc j) = true) : i = j :=
  Option.some.inj (((h i).mp hi).symm.trans ((h j).mp hj))

lemma Owns.none (h : Owns region pc none) (i : ι) : region (pc i) = false := by
  cases hi : region (pc i) with
  | false => rfl
  | true => exact absurd ((h i).mp hi) (by simp)

lemma Owns.step {lock lock' : Option ι} (h : Owns region pc lock) (honly : Only region i pc pc')
    (hmove : LockMoves region (pc i) (pc' i) i lock lock') : Owns region pc' lock' := by
  intro j
  have hj := h j
  have hi := h i
  by_cases hji : j = i
  · cases hp : region (pc j) <;> cases hq : region (pc' j) <;>
      simp_all [LockMoves]
  · have ho := honly j hji
    cases hp : region (pc i) <;> cases hq : region (pc' i) <;>
      simp only [LockMoves, hp, hq] at hmove
    · rw [ho, hmove]; exact hj
    · rw [ho, hmove.2, hj, hmove.1]
      simp [Ne.symm hji]
    · rw [ho, hmove, hj, hi.mp hp]
      simp [Ne.symm hji]
    · rw [ho, hmove]; exact hj

lemma Lists.step [DecidableEq ι] {l l' : List ι} (h : Lists region pc l)
    (honly : Only region i pc pc') (hmove : ListMoves region (pc i) (pc' i) i l l') :
    Lists region pc' l' := by
  have hmem : ∀ j, j ≠ i → (j ∈ l ↔ region (pc' j) = true) := fun j hj => by
    rw [honly j hj, h.mem_iff]
  have hi := h.mem_iff i
  cases hp : region (pc i) <;> cases hq : region (pc' i) <;>
    simp only [ListMoves, hp, hq] at hmove <;> subst hmove
  · refine ⟨h.nodup, fun j => ?_⟩
    by_cases hj : j = i
    · subst hj; rw [hi, hp, hq]
    · exact hmem j hj
  · refine ⟨nodup_cons.mpr ⟨by simp [hi, hp], h.nodup⟩, fun j => ?_⟩
    by_cases hj : j = i
    · subst hj; simp [hq]
    · simp [hj, hmem j hj]
  · refine ⟨h.nodup.erase i, fun j => ?_⟩
    by_cases hj : j = i
    · subst hj; simp [h.nodup.not_mem_erase, hq]
    · rw [mem_erase_of_ne hj, hmem j hj]
  · refine ⟨h.nodup, fun j => ?_⟩
    by_cases hj : j = i
    · subst hj; rw [hi, hp, hq]
    · exact hmem j hj

lemma Counts.step [DecidableEq ι] {n n' : Nat} (h : Counts region pc n)
    (honly : Only region i pc pc') (hmove : CountMoves region (pc i) (pc' i) n n') :
    Counts region pc' n' := by
  obtain ⟨l, hl, rfl⟩ := h
  have hi := hl.mem_iff i
  cases hp : region (pc i) <;> cases hq : region (pc' i) <;>
    simp only [CountMoves, hp, hq] at hmove <;> subst hmove
  · exact ⟨l, hl.step honly (by simp [ListMoves, hp, hq]), rfl⟩
  · exact ⟨i :: l, hl.step honly (by simp [ListMoves, hp, hq]), rfl⟩
  · exact ⟨l.erase i, hl.step honly (by simp [ListMoves, hp, hq]),
      length_erase_of_mem (hi.mpr hp)⟩
  · exact ⟨l, hl.step honly (by simp [ListMoves, hp, hq]), rfl⟩

lemma Counts.all_but_one [DecidableEq ι] {listed : π → Bool} {l : List ι} {n : Nat}
    (hcnt : Counts region pc n) (hlist : Lists listed pc l)
    (hsub : ∀ j, region (pc j) = true → listed (pc j) = true)
    (hi : region (pc i) = false) (hmem : i ∈ l) (hle : l.length ≤ n + 1)
    (hj : j ∈ l) (hne : j ≠ i) : region (pc j) = true := by
  obtain ⟨inside, hinside, rfl⟩ := hcnt
  have hsubset : inside.toFinset ⊆ (l.erase i).toFinset := by
    intro k hk
    have hk' := (hinside.mem_iff k).mp (mem_toFinset.mp hk)
    have hki : k ≠ i := by
      rintro rfl
      rw [hi] at hk'
      cases hk'
    rw [mem_toFinset, mem_erase_of_ne hki, hlist.mem_iff]
    exact hsub k hk'
  have hcard : (l.erase i).toFinset.card ≤ inside.toFinset.card := by
    rw [toFinset_card_of_nodup (hlist.nodup.erase i),
      toFinset_card_of_nodup hinside.nodup, length_erase_of_mem hmem]
    omega
  have heq := eq_of_subset_of_card_le hsubset hcard
  have hjin : j ∈ inside.toFinset := by
    rw [heq, mem_toFinset, mem_erase_of_ne hne]
    exact hj
  exact (hinside.mem_iff j).mp (mem_toFinset.mp hjin)

/-- The counter is the sum of what each process contributes, finitely many of them anything. -/
def Sums (weight : ι → Nat) (n : Nat) : Prop :=
  ∃ T : Finset ι, (∀ i, i ∉ T → weight i = 0) ∧ ∑ i ∈ T, weight i = n

lemma Sums.le {weight : ι → Nat} {n : Nat} (h : Sums weight n) (i : ι) : weight i ≤ n := by
  obtain ⟨T, hout, rfl⟩ := h
  by_cases hi : i ∈ T
  · exact single_le_sum (fun _ _ => Nat.zero_le _) hi
  · rw [hout i hi]
    exact Nat.zero_le _

lemma Sums.step [DecidableEq ι] {weight weight' : ι → Nat} {n n' : Nat} (h : Sums weight n)
    (hoth : ∀ j, j ≠ i → weight' j = weight j) (hmove : n' + weight i = n + weight' i) :
    Sums weight' n' := by
  obtain ⟨T, hout, hsum⟩ := h
  have hspl : ∀ w : ι → Nat, ∑ j ∈ insert i T, w j = w i + ∑ j ∈ T.erase i, w j := fun w => by
    rw [← add_sum_erase _ _ (mem_insert_self i T), erase_insert_eq_erase]
  have hrest : ∑ j ∈ T.erase i, weight' j = ∑ j ∈ T.erase i, weight j :=
    sum_congr rfl fun j hj => hoth j (ne_of_mem_erase hj)
  have hold : ∑ j ∈ insert i T, weight j = n := by
    by_cases hi : i ∈ T
    · rwa [insert_eq_of_mem hi]
    · rw [sum_insert hi, hout i hi, hsum, zero_add]
  refine ⟨insert i T, fun j hj => ?_, ?_⟩
  · obtain ⟨hne, hmem⟩ := not_or.mp (mt mem_insert.mpr hj)
    rw [hoth j hne, hout j hmem]
  · rw [hspl weight']
    rw [hspl weight] at hold
    omega

end Processes
