import Mathlib

/-!
# Grouping by key

A list is grouped by a key into one flat list, with the elements of a key next to
each other and in their order, and a table of the ranges of the keys. Elements,
keys and the order of the keys are arbitrary.
-/

namespace Grouping

open List

variable {α κ : Type} [DecidableEq κ]

/-- The elements of a key. -/
def group (key : α → κ) (as : List α) (k : κ) : List α := as.filter fun a => decide (key a = k)

/-- The groups one after the other. -/
def flatten (key : α → κ) (as : List α) (keys : List κ) : List α := keys.flatMap (group key as)

/-- Start and length of each group, the first one at `start`. -/
def ranges (key : α → κ) (as : List α) : Nat → List κ → List (κ × Nat × Nat)
  | _, [] => []
  | start, k :: keys =>
    (k, start, (group key as k).length) :: ranges key as (start + (group key as k).length) keys

def slice (as : List α) (range : Nat × Nat) : List α := (as.drop range.1).take range.2

variable {key : α → κ} {as : List α} {k : κ} {keys : List κ}

lemma flatten_perm (hkeys : ∀ a ∈ as, key a ∈ keys) (hnd : keys.Nodup) :
    (flatten key as keys).Perm as := by
  induction keys generalizing as with
  | nil =>
    obtain rfl : as = [] := eq_nil_iff_forall_not_mem.mpr fun a ha => by
      cases hkeys a ha
    exact List.Perm.nil
  | cons k keys ih =>
    obtain ⟨hk, hnd⟩ := nodup_cons.mp hnd
    -- the elements of the other keys are those of the list without the first key
    have hrest : flatten key as keys =
        flatten key (as.filter fun a => !decide (key a = k)) keys := by
      refine flatMap_congr fun k' hk' => ?_
      rw [group, group, filter_filter]
      refine filter_congr fun a _ => ?_
      have hne : k' ≠ k := fun h => hk (h ▸ hk')
      by_cases ha : key a = k'
      · simp [ha, hne]
      · simp [ha]
    have hperm : (flatten key as keys).Perm (as.filter fun a => !decide (key a = k)) := by
      rw [hrest]
      refine ih (fun a ha => ?_) hnd
      obtain ⟨hmem, hne⟩ := mem_filter.mp ha
      exact (mem_cons.mp (hkeys a hmem)).resolve_left (by simpa using hne)
    exact (hperm.append_left _).trans (filter_append_perm _ as)

lemma slice_of_lookup {range : Nat × Nat} (front : List α)
    (h : (ranges key as front.length keys).lookup k = some range) :
    slice (front ++ flatten key as keys) range = group key as k := by
  induction keys generalizing front with
  | nil => cases h
  | cons k' keys ih =>
    have hflat : front ++ flatten key as (k' :: keys) =
        (front ++ group key as k') ++ flatten key as keys := by
      simp [flatten]
    by_cases hk : k = k'
    · subst hk
      have hrng : (front.length, (group key as k).length) = range := by
        simpa [ranges] using h
      subst hrng
      simp [slice, flatten]
    · have hbeq : (k == k') = false := beq_eq_false_iff_ne.mpr hk
      have hrest : (ranges key as (front ++ group key as k').length keys).lookup k =
          some range := by
        simpa [ranges, lookup_cons, hbeq] using h
      rw [hflat]
      exact ih _ hrest

lemma lookup_ranges_isSome {start : Nat} (h : k ∈ keys) :
    ((ranges key as start keys).lookup k).isSome = true := by
  induction keys generalizing start with
  | nil => cases h
  | cons k' keys ih =>
    by_cases hk : k = k'
    · simp [ranges, hk]
    · have hbeq : (k == k') = false := beq_eq_false_iff_ne.mpr hk
      simp only [ranges, lookup_cons, hbeq]
      exact ih ((mem_cons.mp h).resolve_left hk)

lemma find?_ranges (hkeys : ∀ a ∈ as, key a ∈ keys) (p : α → Bool) :
    (((ranges key as 0 keys).lookup k).bind fun range =>
      (slice (flatten key as keys) range).find? p) =
      (group key as k).find? p := by
  cases hrng : (ranges key as 0 keys).lookup k with
  | some range =>
    have hslice : slice ([] ++ flatten key as keys) range = group key as k :=
      slice_of_lookup [] hrng
    rw [nil_append] at hslice
    rw [Option.bind_some, hslice]
  | none =>
    have hemp : group key as k = [] := by
      refine filter_eq_nil_iff.mpr fun a ha heq => ?_
      have hmem : k ∈ keys := by
        rw [← of_decide_eq_true heq]
        exact hkeys a ha
      have hsome : ((ranges key as 0 keys).lookup k).isSome = true := lookup_ranges_isSome hmem
      rw [hrng] at hsome
      cases hsome
    rw [hemp]
    rfl

end Grouping
