import Mathlib

/-!
# Conversions between binary floating-point formats

The magnitude of a floating-point number, all of its bits but the sign, is taken as
a natural number: an exponent field above the fraction bits. A finite magnitude
stands for a number of units, the smallest positive number of the format. Both
formats live on one scale of integers, so a conversion is one rounding to the
nearest magnitude. Widening is exact, and narrowing undoes it for everything but
signalling NaNs, which a conversion makes quiet.
-/

namespace Floats

open Nat

/-- The number of units a finite magnitude stands for, with `m` fraction bits. -/
def units (m mag : Nat) : Nat :=
  if mag / 2 ^ m = 0 then mag % 2 ^ m else (2 ^ m + mag % 2 ^ m) * 2 ^ (mag / 2 ^ m - 1)

def roundShift (n s : Nat) : Nat :=
  if 2 * (n % 2 ^ s) < 2 ^ s ∨ (2 * (n % 2 ^ s) = 2 ^ s ∧ n / 2 ^ s % 2 = 0) then n / 2 ^ s
  else n / 2 ^ s + 1

def ofUnits (m s n : Nat) : Nat :=
  (n.log2 - s - m) * 2 ^ m + roundShift n (n.log2 - s - m + s)

lemma roundShift_mul (r s : Nat) : roundShift (r * 2 ^ s) s = r := by
  have hpos := Nat.two_pow_pos s
  rw [roundShift, Nat.mul_mod_left, Nat.mul_div_cancel _ hpos, if_pos]
  omega

lemma log2_mul_two_pow {r : Nat} (hr : r ≠ 0) (s : Nat) : (r * 2 ^ s).log2 = r.log2 + s := by
  have hpos : r * 2 ^ s ≠ 0 := Nat.mul_ne_zero hr (Nat.two_pow_pos s).ne'
  rw [log2_eq_iff hpos]
  have hlow := log2_self_le hr
  have hhigh := lt_log2_self (n := r)
  constructor
  · rw [pow_add]
    exact mul_le_mul_right _ hlow
  · rw [add_right_comm, pow_add]
    exact Nat.mul_lt_mul_of_pos_right hhigh (Nat.two_pow_pos s)

lemma log2_eq_of_lt {m f : Nat} (hf : f < 2 ^ m) : (2 ^ m + f).log2 = m := by
  have hne : 2 ^ m + f ≠ 0 := by omega
  rw [log2_eq_iff hne, pow_succ]
  omega

lemma ofUnits_units (m s mag : Nat) : ofUnits m s (units m mag * 2 ^ s) = mag := by
  have hspl := div_add_mod mag (2 ^ m)
  have hf : mag % 2 ^ m < 2 ^ m := Nat.mod_lt _ (Nat.two_pow_pos m)
  unfold units
  split
  next hsub =>
    -- a subnormal number, or zero
    have hmag : mag % 2 ^ m = mag := by rw [hsub] at hspl; omega
    rw [hmag] at hf ⊢
    have hk : (mag * 2 ^ s).log2 - s - m = 0 := by
      rcases Nat.eq_zero_or_pos mag with rfl | hpos
      · simp
      · rw [log2_mul_two_pow hpos.ne', Nat.add_sub_cancel]
        have hlt := (log2_lt hpos.ne').mpr hf
        omega
    rw [ofUnits, hk, zero_mul, zero_add, zero_add, roundShift_mul]
  next hnorm =>
    have hne : 2 ^ m + mag % 2 ^ m ≠ 0 := by omega
    have hk : ((2 ^ m + mag % 2 ^ m) * 2 ^ (mag / 2 ^ m - 1) * 2 ^ s).log2 - s - m =
        mag / 2 ^ m - 1 := by
      rw [mul_assoc, ← pow_add, log2_mul_two_pow hne, log2_eq_of_lt hf]
      omega
    rw [ofUnits, hk, mul_assoc, ← pow_add, roundShift_mul]
    obtain ⟨e, he⟩ := exists_eq_succ_of_ne_zero hnorm
    rw [he] at hspl ⊢
    rw [succ_sub_one, ← add_assoc, ← succ_mul, mul_comm]
    exact hspl

lemma units_ofUnits {m r j : Nat} (hr : r < 2 ^ (m + 1)) :
    units m (ofUnits m 0 (r * 2 ^ j)) = r * 2 ^ j ∧ ofUnits m 0 (r * 2 ^ j) < (j + 2) * 2 ^ m := by
  generalize hn : r * 2 ^ j = n
  have hpos := Nat.two_pow_pos m
  by_cases hsmall : n < 2 ^ (m + 1)
  · have hk : n.log2 - 0 - m = 0 := by
      rcases Nat.eq_zero_or_pos n with rfl | hpos
      · simp
      · have hlt := (Nat.log2_lt hpos.ne').mpr hsmall
        omega
    have hself : ofUnits m 0 n = n := by
      have hround := roundShift_mul n 0
      rw [pow_zero, mul_one] at hround
      rw [ofUnits, hk, zero_mul, zero_add, hround]
    rw [hself]
    constructor
    · unfold units
      split
      next hz => exact mod_eq_of_lt ((div_eq_zero_iff_lt hpos).mp hz)
      next hone =>
        have hdiv : n / 2 ^ m = 1 := by
          have hlt : n / 2 ^ m < 2 := (div_lt_iff_lt_mul hpos).mpr (by omega)
          exact le_antisymm (Nat.lt_succ_iff.mp hlt) (pos_of_ne_zero hone)
        have hspl := div_add_mod n (2 ^ m)
        rw [hdiv] at hspl ⊢
        omega
    · calc n < 2 * 2 ^ m := by omega
        _ ≤ (j + 2) * 2 ^ m := mul_le_mul_right _ (by omega)
  · have hne : n ≠ 0 := by omega
    have hr0 : r ≠ 0 := by
      rintro rfl
      rw [zero_mul] at hn
      exact hne hn.symm
    have hlog : n.log2 = r.log2 + j := by rw [← hn, log2_mul_two_pow hr0]
    have hrlog : r.log2 < m + 1 := (log2_lt hr0).mpr hr
    have hnlog : m + 1 ≤ n.log2 := (le_log2 hne).mpr (by omega)
    obtain ⟨k, hk⟩ : ∃ k, n.log2 = k + m := ⟨n.log2 - m, by omega⟩
    have hkj : k ≤ j := by omega
    -- the significand, after the trailing zeros are shifted out
    obtain ⟨q, hq⟩ : ∃ q, n = q * 2 ^ k := by
      refine ⟨r * 2 ^ (j - k), ?_⟩
      rw [mul_assoc, ← pow_add, Nat.sub_add_cancel hkj, hn]
    have hlow : 2 ^ m ≤ q := by
      have hle := log2_self_le hne
      rw [hk, add_comm k m, pow_add, hq] at hle
      exact Nat.le_of_mul_le_mul_right hle (Nat.two_pow_pos k)
    have hhigh : q < 2 ^ (m + 1) := by
      have hlt := lt_log2_self (n := n)
      rw [hk, show k + m + 1 = m + 1 + k by omega, pow_add, hq] at hlt
      exact Nat.lt_of_mul_lt_mul_right hlt
    have hmag : ofUnits m 0 n = k * 2 ^ m + q := by
      have hshift : n.log2 - 0 - m = k := by omega
      rw [ofUnits, hshift, add_zero, hq, roundShift_mul]
    obtain ⟨f, rfl⟩ := Nat.exists_eq_add_of_le hlow
    have hf : f < 2 ^ m := by omega
    have hsum : k * 2 ^ m + (2 ^ m + f) = f + (k + 1) * 2 ^ m := by
      rw [add_mul, one_mul]
      omega
    rw [hmag, hsum]
    constructor
    · rw [units, add_mul_div_right _ _ hpos, add_mul_mod_self_right, mod_eq_of_lt hf,
        Nat.div_eq_of_lt hf, zero_add, if_neg (Nat.succ_ne_zero k), Nat.add_sub_cancel, hq]
    · calc f + (k + 1) * 2 ^ m < 2 ^ m + (k + 1) * 2 ^ m := by omega
        _ = (k + 2) * 2 ^ m := by rw [add_mul, add_mul]; omega
        _ ≤ (j + 2) * 2 ^ m := mul_le_mul_right _ (by omega)

/-- The magnitude of infinity: the exponent field is all ones. -/
def singleInfinity : Nat := 255 * 2 ^ 23

def doubleInfinity : Nat := 2047 * 2 ^ 52

/-- A conversion sets the leading fraction bit of a NaN. -/
def quieten (m fraction : Nat) : Nat :=
  if fraction = 0 ∨ 2 ^ (m - 1) ≤ fraction then fraction else fraction + 2 ^ (m - 1)

def widenMagnitude (mag : Nat) : Nat :=
  if mag < singleInfinity then ofUnits 52 0 (units 23 mag * 2 ^ 925)
  else doubleInfinity + quieten 52 ((mag - singleInfinity) * 2 ^ 29)

def narrowMagnitude (mag : Nat) : Nat :=
  if mag < doubleInfinity then min (ofUnits 23 925 (units 52 mag)) singleInfinity
  else singleInfinity + quieten 23 ((mag - doubleInfinity) / 2 ^ 29)

/-- A signalling NaN: the fraction is not zero and its leading bit is. -/
def isSignalling (mag : Nat) : Bool :=
  decide (singleInfinity < mag ∧ mag < singleInfinity + 2 ^ 22)

/-- `f32 as f64`, on bit patterns. -/
def widen (x : BitVec 32) : BitVec 64 :=
  BitVec.ofNat 64 (x.toNat / 2 ^ 31 * 2 ^ 63 + widenMagnitude (x.toNat % 2 ^ 31))

/-- `f64 as f32`, on bit patterns. -/
def narrow (x : BitVec 64) : BitVec 32 :=
  BitVec.ofNat 32 (x.toNat / 2 ^ 63 * 2 ^ 31 + narrowMagnitude (x.toNat % 2 ^ 63))

variable {mag : Nat}

lemma units_single (h : mag < singleInfinity) :
    ∃ r j, units 23 mag = r * 2 ^ j ∧ r < 2 ^ 24 ∧ j ≤ 253 := by
  have he : mag / 2 ^ 23 < 255 := (div_lt_iff_lt_mul (by decide)).mpr h
  unfold units
  split
  · exact ⟨mag % 2 ^ 23, 0, by rw [pow_zero, mul_one], by omega, by omega⟩
  · exact ⟨2 ^ 23 + mag % 2 ^ 23, mag / 2 ^ 23 - 1, rfl, by omega, by omega⟩

lemma widenMagnitude_finite (h : mag < singleInfinity) :
    units 52 (widenMagnitude mag) = units 23 mag * 2 ^ 925 ∧
      widenMagnitude mag < doubleInfinity := by
  obtain ⟨r, j, hunits, hr, hj⟩ := units_single h
  have hr' : r < 2 ^ (52 + 1) := lt_trans hr (by decide)
  rw [widenMagnitude, if_pos h, hunits, mul_assoc, ← pow_add]
  obtain ⟨hex, hlt⟩ := units_ofUnits (m := 52) (j := j + 925) hr'
  refine ⟨hex, lt_of_lt_of_le hlt ?_⟩
  exact mul_le_mul_right _ (by omega)

lemma widenMagnitude_lt (h : mag < 2 ^ 31) : widenMagnitude mag < 2 ^ 63 := by
  by_cases hfin : mag < singleInfinity
  · exact lt_trans (widenMagnitude_finite hfin).2 (by decide)
  · rw [widenMagnitude, if_neg hfin]
    unfold quieten
    unfold singleInfinity doubleInfinity at *
    split <;> omega

lemma narrowMagnitude_widenMagnitude :
    narrowMagnitude (widenMagnitude mag) = if isSignalling mag then mag + 2 ^ 22 else mag := by
  by_cases hfin : mag < singleInfinity
  · obtain ⟨hunits, hlt⟩ := widenMagnitude_finite hfin
    have hqt : isSignalling mag = false := by
      rw [isSignalling, decide_eq_false_iff_not]
      omega
    rw [narrowMagnitude, if_pos hlt, hunits, ofUnits_units, min_eq_left hfin.le, hqt]
    rfl
  · rw [widenMagnitude, if_neg hfin, narrowMagnitude, if_neg (by omega), Nat.add_sub_cancel_left]
    unfold quieten isSignalling
    simp only [decide_eq_true_eq]
    split_ifs <;> omega

lemma narrow_widen (x : BitVec 32) :
    (narrow (widen x)).toNat =
      if isSignalling (x.toNat % 2 ^ 31) then x.toNat + 2 ^ 22 else x.toNat := by
  have hx := x.isLt
  have hmag : x.toNat % 2 ^ 31 < 2 ^ 31 := mod_lt _ (by decide)
  have hwide := widenMagnitude_lt hmag
  have hwiden : (widen x).toNat =
      x.toNat / 2 ^ 31 * 2 ^ 63 + widenMagnitude (x.toNat % 2 ^ 31) := by
    rw [widen, BitVec.toNat_ofNat]
    exact mod_eq_of_lt (by omega)
  have hsign : (widen x).toNat / 2 ^ 63 = x.toNat / 2 ^ 31 := by omega
  have hrest : (widen x).toNat % 2 ^ 63 = widenMagnitude (x.toNat % 2 ^ 31) := by omega
  rw [narrow, hsign, hrest, narrowMagnitude_widenMagnitude, BitVec.toNat_ofNat]
  unfold isSignalling singleInfinity
  simp only [decide_eq_true_eq]
  split_ifs <;> omega

lemma narrow_widen_eq_iff (x : BitVec 32) :
    narrow (widen x) = x ↔ isSignalling (x.toNat % 2 ^ 31) = false := by
  rw [← BitVec.toNat_inj, narrow_widen]
  cases isSignalling (x.toNat % 2 ^ 31) <;> simp

/-- A NaN of double precision. -/
def isNan (x : BitVec 64) : Bool := decide (doubleInfinity < x.toNat % 2 ^ 63)

def signedMagnitude (x : BitVec 64) : Int :=
  if x.toNat / 2 ^ 63 = 0 then (x.toNat % 2 ^ 63 : Nat) else -((x.toNat % 2 ^ 63 : Nat) : Int)

/-- `f64::partial_cmp`: nothing is ordered with a NaN. -/
def partialCmp (x y : BitVec 64) : Option Ordering :=
  if isNan x || isNan y then none else some (compare (signedMagnitude x) (signedMagnitude y))

/-- `f64::eq`. -/
def equal (x y : BitVec 64) : Bool := partialCmp x y == some .eq

end Floats
