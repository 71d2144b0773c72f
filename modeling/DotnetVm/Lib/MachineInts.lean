import Mathlib

/-!
# Machine integers and the integers they stand for

A word is read as a signed or as an unsigned number. The operations of a host that
checks its arithmetic give no result where the exact one does not fit; each of them
is described by the exact integer operation on the values of its operands.
-/

namespace MachineInts

inductive Sign where
  | signed | unsigned
  deriving DecidableEq, Repr

section Values

variable {w n : Nat}

/-- The number a word stands for. -/
def value : Sign → BitVec w → Int
  | .signed, v => v.toInt
  | .unsigned, v => v.toNat

section

variable (s : Sign)

/-- The numbers that words of `w` bits stand for. -/
def fits (w : Nat) (n : Int) : Bool :=
  match s with
  | .signed => decide (-2 ^ (w - 1) ≤ n ∧ n < 2 ^ (w - 1))
  | .unsigned => decide (0 ≤ n ∧ n < 2 ^ w)

def extend (n : Nat) (v : BitVec w) : BitVec n :=
  match s with
  | .signed => v.signExtend n
  | .unsigned => v.setWidth n

lemma ofInt_value (v : BitVec w) : BitVec.ofInt w (value s v) = v := by
  cases s with
  | signed => exact BitVec.ofInt_toInt
  | unsigned => rw [value, BitVec.ofInt_natCast, BitVec.ofNat_toNat, BitVec.setWidth_eq]

lemma not_fits_signed (m : Int) :
    fits .signed w m = false ↔ 2 ^ (w - 1) ≤ m ∨ m < -2 ^ (w - 1) := by
  unfold fits
  rw [decide_eq_false_iff_not]
  omega

lemma not_fits_unsigned (m : Int) : fits .unsigned w m = false ↔ 2 ^ w ≤ m ∨ m < 0 := by
  unfold fits
  rw [decide_eq_false_iff_not]
  omega

lemma value_extend (h : w ≤ n) (v : BitVec w) : value s (extend s n v) = value s v := by
  cases s with
  | signed => exact BitVec.toInt_signExtend_of_le h
  | unsigned =>
    have hlt : v.toNat < 2 ^ n := lt_of_lt_of_le v.isLt (Nat.pow_le_pow_right (by decide) h)
    rw [value, value, extend, BitVec.toNat_setWidth, Nat.mod_eq_of_lt hlt]

lemma value_eq_zero_iff (v : BitVec w) : value s v = 0 ↔ v = 0#w := by
  constructor
  · intro h
    rw [← ofInt_value s v, h]
    rfl
  · rintro rfl
    cases s <;> simp [value]

end

lemma eq_intMin_iff (hw : 0 < w) (v : BitVec w) :
    v = BitVec.intMin w ↔ value .signed v = -2 ^ (w - 1) := by
  have hmin : (BitVec.intMin w).toInt = -2 ^ (w - 1) := by
    have hlt : 2 ^ (w - 1) < 2 ^ w := Nat.pow_lt_pow_right (by decide) (by omega)
    rw [BitVec.toInt_intMin, Nat.mod_eq_of_lt hlt]
    norm_cast
  rw [← hmin]
  exact BitVec.toInt_inj.symm

lemma eq_neg_one_iff (hw : 0 < w) (v : BitVec w) : v = -1#w ↔ value .signed v = -1 := by
  have hone : (-1#w).toInt = -1 := by
    rw [BitVec.neg_one_eq_allOnes, BitVec.toInt_allOnes, if_pos hw]
  rw [← hone]
  exact BitVec.toInt_inj.symm

end Values

section Operations

variable {w : Nat} (s : Sign) (l r : BitVec w)

def checkedAdd : Option (BitVec w) :=
  match s with
  | .signed => if l.saddOverflow r then none else some (l + r)
  | .unsigned => if l.uaddOverflow r then none else some (l + r)

def checkedSub : Option (BitVec w) :=
  match s with
  | .signed => if l.ssubOverflow r then none else some (l - r)
  | .unsigned => if l.usubOverflow r then none else some (l - r)

def checkedMul : Option (BitVec w) :=
  match s with
  | .signed => if l.smulOverflow r then none else some (l * r)
  | .unsigned => if l.umulOverflow r then none else some (l * r)

lemma ofInt_value_add : BitVec.ofInt w (value s l + value s r) = l + r := by
  rw [BitVec.ofInt_add, ofInt_value, ofInt_value]

lemma ofInt_value_sub : BitVec.ofInt w (value s l - value s r) = l - r := by
  rw [sub_eq_add_neg, BitVec.ofInt_add, BitVec.ofInt_neg, ofInt_value, ofInt_value,
    BitVec.sub_eq_add_neg]

lemma ofInt_value_mul : BitVec.ofInt w (value s l * value s r) = l * r := by
  rw [BitVec.ofInt_mul, ofInt_value, ofInt_value]

variable {s l r}

lemma guarded_eq {overflow : Bool} {v : BitVec w} {n : Int} (hv : BitVec.ofInt w n = v)
    (hflag : overflow = true ↔ fits s w n = false) :
    (if overflow then none else some v) =
      if fits s w n then some (BitVec.ofInt w n) else none := by
  rw [hv]
  cases hfits : fits s w n with
  | true =>
    have hoff : ¬overflow = true := by rw [hflag, hfits]; decide
    rw [if_neg hoff, if_pos rfl]
  | false => rw [if_pos (hflag.mpr hfits), if_neg Bool.false_ne_true]

variable (s l r)

lemma checkedAdd_eq : checkedAdd s l r =
    if fits s w (value s l + value s r) then some (BitVec.ofInt w (value s l + value s r))
    else none := by
  cases s with
  | signed =>
    refine guarded_eq (ofInt_value_add .signed l r) ?_
    rw [not_fits_signed, BitVec.saddOverflow, Bool.or_eq_true, decide_eq_true_eq, decide_eq_true_eq]
    exact Iff.rfl
  | unsigned =>
    refine guarded_eq (ofInt_value_add .unsigned l r) ?_
    rw [not_fits_unsigned, BitVec.uaddOverflow, decide_eq_true_eq]
    simp only [value]
    norm_cast
    omega

lemma checkedSub_eq : checkedSub s l r =
    if fits s w (value s l - value s r) then some (BitVec.ofInt w (value s l - value s r))
    else none := by
  cases s with
  | signed =>
    refine guarded_eq (ofInt_value_sub .signed l r) ?_
    rw [not_fits_signed, BitVec.ssubOverflow, Bool.or_eq_true, decide_eq_true_eq, decide_eq_true_eq]
    exact Iff.rfl
  | unsigned =>
    refine guarded_eq (ofInt_value_sub .unsigned l r) ?_
    have hl : (l.toNat : Int) < 2 ^ w := by exact_mod_cast l.isLt
    rw [not_fits_unsigned, BitVec.usubOverflow, decide_eq_true_eq]
    simp only [value]
    omega

lemma checkedMul_eq : checkedMul s l r =
    if fits s w (value s l * value s r) then some (BitVec.ofInt w (value s l * value s r))
    else none := by
  cases s with
  | signed =>
    refine guarded_eq (ofInt_value_mul .signed l r) ?_
    rw [not_fits_signed, BitVec.smulOverflow, Bool.or_eq_true, decide_eq_true_eq, decide_eq_true_eq]
    exact Iff.rfl
  | unsigned =>
    refine guarded_eq (ofInt_value_mul .unsigned l r) ?_
    rw [not_fits_unsigned, BitVec.umulOverflow, decide_eq_true_eq]
    simp only [value]
    norm_cast
    omega

/-- The one quotient of two words that is no word: of the least number by minus one. -/
def quotientOverflows : Bool :=
  match s with
  | .signed => decide (l = BitVec.intMin w ∧ r = -1#w)
  | .unsigned => false

lemma quotientOverflows_iff (hw : 0 < w) :
    quotientOverflows s l r = true ↔ s = .signed ∧ value s l = -2 ^ (w - 1) ∧ value s r = -1 := by
  cases s with
  | unsigned => simp [quotientOverflows]
  | signed =>
    rw [quotientOverflows, decide_eq_true_eq, eq_intMin_iff hw, eq_neg_one_iff hw]
    exact ⟨fun h => ⟨rfl, h⟩, fun h => h.2⟩

def div : Option (BitVec w) :=
  if r = 0#w ∨ quotientOverflows s l r = true then none
  else some (match s with | .signed => l.sdiv r | .unsigned => l / r)

def rem : Option (BitVec w) :=
  if r = 0#w ∨ quotientOverflows s l r = true then none
  else some (match s with | .signed => l.srem r | .unsigned => l % r)

lemma div_eq : div s l r =
    if r = 0#w ∨ quotientOverflows s l r = true then none
    else some (BitVec.ofInt w ((value s l).tdiv (value s r))) := by
  unfold div
  split
  · rfl
  next h =>
    push Not at h
    congr 1
    cases s with
    | signed =>
      have hne : l ≠ BitVec.intMin w ∨ r ≠ -1#w := by
        have hno := h.2
        simp only [quotientOverflows, ne_eq, decide_eq_true_eq] at hno
        tauto
      rw [value, value, ← BitVec.toInt_sdiv_of_ne_or_ne l r hne, BitVec.ofInt_toInt]
    | unsigned =>
      rw [value, value, ← Int.ofNat_tdiv, BitVec.ofInt_natCast]
      apply BitVec.eq_of_toNat_eq
      rw [BitVec.toNat_udiv, BitVec.toNat_ofNat, Nat.mod_eq_of_lt]
      exact lt_of_le_of_lt (Nat.div_le_self _ _) l.isLt

lemma rem_eq : rem s l r =
    if r = 0#w ∨ quotientOverflows s l r = true then none
    else some (BitVec.ofInt w ((value s l).tmod (value s r))) := by
  unfold rem
  split
  · rfl
  · congr 1
    cases s with
    | signed => rw [value, value, ← BitVec.toInt_srem, BitVec.ofInt_toInt]
    | unsigned =>
      rw [value, value, ← Int.ofNat_tmod, BitVec.ofInt_natCast]
      apply BitVec.eq_of_toNat_eq
      have hlt : l.toNat % r.toNat < 2 ^ w := lt_of_le_of_lt (Nat.mod_le _ _) l.isLt
      rw [BitVec.toNat_umod, BitVec.toNat_ofNat, Nat.mod_eq_of_lt hlt]

end Operations

section Shifts

variable {w : Nat} (s : Sign) (v : BitVec w) (n : Nat)

def neg : Option (BitVec w) := if v = BitVec.intMin w then none else some (-v)

def shiftLeft : Option (BitVec w) := if n < w then some (v <<< n) else none

def shiftRight : Option (BitVec w) :=
  if n < w then some (match s with | .signed => v.sshiftRight n | .unsigned => v >>> n) else none

lemma neg_eq (hw : 0 < w) : neg v =
    if value .signed v = -2 ^ (w - 1) then none
    else some (BitVec.ofInt w (-value .signed v)) := by
  rw [BitVec.ofInt_neg, ofInt_value]
  exact if_congr (eq_intMin_iff hw v) rfl rfl

lemma shiftLeft_eq : shiftLeft v n =
    if n < w then some (BitVec.ofInt w (value .signed v * 2 ^ n)) else none := by
  have hpow : BitVec.ofInt w (2 ^ n) = BitVec.twoPow w n := by
    rw [show (2 : Int) ^ n = ((2 ^ n : Nat) : Int) by norm_cast, BitVec.ofInt_natCast]
    apply BitVec.eq_of_toNat_eq
    rw [BitVec.toNat_ofNat, BitVec.toNat_twoPow]
  rw [shiftLeft, BitVec.ofInt_mul, ofInt_value, hpow, BitVec.mul_twoPow_eq_shiftLeft]

lemma shiftRight_eq : shiftRight s v n =
    if n < w then some (BitVec.ofInt w (value s v / 2 ^ n)) else none := by
  unfold shiftRight
  congr 2
  cases s with
  | signed => rw [BitVec.sshiftRight, Int.shiftRight_eq_div_pow]; norm_cast
  | unsigned =>
    rw [value, show (2 : Int) ^ n = ((2 ^ n : Nat) : Int) by norm_cast, ← Int.natCast_ediv,
      BitVec.ofInt_natCast]
    apply BitVec.eq_of_toNat_eq
    rw [BitVec.toNat_ushiftRight, Nat.shiftRight_eq_div_pow, BitVec.toNat_ofNat, Nat.mod_eq_of_lt]
    exact lt_of_le_of_lt (Nat.div_le_self _ _) v.isLt

end Shifts

end MachineInts
