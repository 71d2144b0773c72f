import Mathlib

/-!
# Bits of a word

The loop that reads off the lowest set bit of a word and clears it until the word
is zero visits exactly the set bits. A word that is built by or-ing shifted fields
onto each other, each above the bits already used, is the sum of its fields, and
reading a field back is division and remainder.
-/

namespace Bits

open BitVec

def trailingZeros : Nat → Nat → Nat
  | 0, _ => 0
  | n + 1, x => if x % 2 = 1 then 0 else trailingZeros n (x / 2) + 1

/-- Subtracting one and masking clears the lowest set bit and no other. -/
lemma testBit_clear_lowest {n x : Nat} (hpos : 0 < x) (hlt : x < 2 ^ n) (i : Nat) :
    (x &&& (x - 1)).testBit i = (x.testBit i && decide (i ≠ trailingZeros n x)) := by
  induction n generalizing x i with
  | zero => omega
  | succ n ih =>
    rw [Nat.testBit_and, trailingZeros]
    by_cases hodd : x % 2 = 1
    · rw [if_pos hodd]
      cases i with
      | zero => simp [show (x - 1) % 2 = 0 by omega]
      | succ i =>
        have hhalf : (x - 1) / 2 = x / 2 := by omega
        simp [Nat.testBit_succ, hhalf]
    · rw [if_neg hodd]
      cases i with
      | zero => simp [hodd]
      | succ i =>
        have hhalf : (x - 1) / 2 = x / 2 - 1 := by omega
        have hclear := ih (x := x / 2) (by omega) (by omega) i
        simpa [Nat.testBit_succ, hhalf] using hclear

lemma testBit_trailingZeros {n x : Nat} (hpos : 0 < x) (hlt : x < 2 ^ n) :
    x.testBit (trailingZeros n x) = true := by
  induction n generalizing x with
  | zero => omega
  | succ n ih =>
    rw [trailingZeros]
    by_cases hodd : x % 2 = 1
    · simp [hodd]
    · rw [if_neg hodd, Nat.testBit_succ]
      exact ih (by omega) (by omega)

lemma trailingZeros_le {n x i : Nat} (h : x.testBit i = true) : trailingZeros n x ≤ i := by
  induction n generalizing x i with
  | zero => exact Nat.zero_le i
  | succ n ih =>
    rw [trailingZeros]
    split
    · exact Nat.zero_le i
    · rename_i heven
      cases i with
      | zero => simp [heven] at h
      | succ i => exact Nat.succ_le_succ (ih (Nat.testBit_succ x i ▸ h))

variable {w : Nat}

/-- The loop, with a bound on the number of rounds. -/
def indicesWithin : Nat → BitVec w → List Nat
  | 0, _ => []
  | rounds + 1, x =>
    if x = 0 then [] else trailingZeros w x.toNat :: indicesWithin rounds (x &&& (x - 1))

/-- The positions of the set bits; the word gets smaller with each round. -/
def indices (x : BitVec w) : List Nat := indicesWithin x.toNat x

variable {x : BitVec w}

lemma toNat_pos (hx : x ≠ 0) : 0 < x.toNat :=
  pos_of_ne_zero fun h => hx (eq_of_toNat_eq (by simpa using h))

lemma toNat_clear_lowest (hx : x ≠ 0) : (x &&& (x - 1)).toNat = x.toNat &&& (x.toNat - 1) := by
  have hpos := toNat_pos hx
  have hone : (1 : BitVec w).toNat = 1 := by
    cases w with
    | zero => omega
    | succ w => simp
  rw [toNat_and, toNat_sub, hone]
  congr 1
  rw [show 2 ^ w - 1 + x.toNat = (x.toNat - 1) + 2 ^ w by omega, Nat.add_mod_right]
  exact Nat.mod_eq_of_lt (by omega)

lemma clear_lowest_le {rounds : Nat} (hx : x ≠ 0) (h : x.toNat ≤ rounds + 1) :
    (x &&& (x - 1)).toNat ≤ rounds := by
  have hle : x.toNat &&& (x.toNat - 1) ≤ x.toNat - 1 := Nat.and_le_right
  rw [toNat_clear_lowest hx]
  omega

lemma mem_indicesWithin {rounds : Nat} (h : x.toNat ≤ rounds) {i : Nat} :
    i ∈ indicesWithin rounds x ↔ x.toNat.testBit i = true := by
  induction rounds generalizing x with
  | zero =>
    have hz : x.toNat = 0 := Nat.le_zero.mp h
    simp [indicesWithin, hz]
  | succ rounds ih =>
    rw [indicesWithin]
    by_cases hx : x = 0
    · simp [hx]
    · have hpos := toNat_pos hx
      have hclear := testBit_clear_lowest hpos x.isLt i
      rw [if_neg hx, List.mem_cons, ih (clear_lowest_le hx h), toNat_clear_lowest hx, hclear]
      by_cases hi : i = trailingZeros w x.toNat
      · simp [hi, testBit_trailingZeros hpos x.isLt]
      · simp [hi]

lemma pairwise_indicesWithin {rounds : Nat} (h : x.toNat ≤ rounds) :
    (indicesWithin rounds x).Pairwise (· < ·) := by
  induction rounds generalizing x with
  | zero => exact .nil
  | succ rounds ih =>
    rw [indicesWithin]
    split
    · exact .nil
    · rename_i hx
      have hle := clear_lowest_le hx h
      refine .cons (fun i hi => ?_) (ih hle)
      have hclear := (mem_indicesWithin hle).mp hi
      rw [toNat_clear_lowest hx, testBit_clear_lowest (toNat_pos hx) x.isLt] at hclear
      have hbit := (Bool.and_eq_true _ _ ▸ hclear)
      exact lt_of_le_of_ne (trailingZeros_le hbit.1) (Ne.symm (of_decide_eq_true hbit.2))

/-- The loop visits exactly the set bits. -/
lemma mem_indices {i : Nat} : i ∈ indices x ↔ x.toNat.testBit i = true :=
  mem_indicesWithin (le_refl _)

end Bits

namespace BitFields

open BitVec

variable {w : Nat} {x y : BitVec w} {k n : Nat}

lemma lor_shiftLeft {a : Nat} (h : a < 2 ^ k) (b : Nat) : a ||| b <<< k = a + b * 2 ^ k := by
  rw [Nat.lor_comm, ← Nat.shiftLeft_add_eq_or_of_lt h, Nat.shiftLeft_eq, add_comm]

lemma toNat_shiftLeft_low (h : k ≤ w) (x : BitVec w) :
    (x <<< k).toNat = (x.toNat % 2 ^ (w - k)) * 2 ^ k := by
  rw [toNat_shiftLeft, Nat.shiftLeft_eq]
  calc x.toNat * 2 ^ k % 2 ^ w = x.toNat * 2 ^ k % (2 ^ (w - k) * 2 ^ k) := by
        rw [← Nat.pow_add, Nat.sub_add_cancel h]
    _ = x.toNat % 2 ^ (w - k) * 2 ^ k := Nat.mul_mod_mul_right _ _ _

lemma toNat_or_shiftLeft (hk : k ≤ w) (hx : x.toNat < 2 ^ k) :
    (x ||| y <<< k).toNat = x.toNat + (y.toNat % 2 ^ (w - k)) * 2 ^ k := by
  have hor := lor_shiftLeft hx (y.toNat % 2 ^ (w - k))
  rw [Nat.shiftLeft_eq] at hor
  rw [toNat_or, toNat_shiftLeft_low hk, hor]

lemma toNat_and_mask (hn : n ≤ w) : (x &&& BitVec.ofNat w (2 ^ n - 1)).toNat = x.toNat % 2 ^ n := by
  have hlt : 2 ^ n - 1 < 2 ^ w :=
    lt_of_lt_of_le (Nat.sub_lt (Nat.two_pow_pos n) Nat.one_pos)
      (Nat.pow_le_pow_right (by decide) hn)
  rw [toNat_and, toNat_ofNat, Nat.mod_eq_of_lt hlt, Nat.and_two_pow_sub_one_eq_mod]

lemma toNat_shiftRight : (x >>> k).toNat = x.toNat / 2 ^ k := by
  rw [toNat_ushiftRight, Nat.shiftRight_eq_div_pow]

end BitFields
