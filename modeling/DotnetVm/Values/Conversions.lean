import DotnetVm.Values.Arithmetic

/-!
# Checked conversions to integers

`conv.ovf` compares a floating-point operand with the bounds of the target type
before it is truncated, and the upper bound is itself rounded to a double. So an
operand less than one beyond a bound is refused although its truncation fits, and
the first number above a 64-bit type passes and saturates.
-/

namespace DotnetVm.RawMemory.Arithmetic

open MachineInts

inductive ConversionType where
  | int8 | uInt8 | int16 | uInt16 | int32 | uInt32 | int64 | uInt64 | intPtr | uIntPtr
  deriving DecidableEq, Repr

namespace ConversionType

def sign : ConversionType → Sign
  | .int8 | .int16 | .int32 | .int64 | .intPtr => .signed
  | .uInt8 | .uInt16 | .uInt32 | .uInt64 | .uIntPtr => .unsigned

def width : ConversionType → Nat
  | .int8 | .uInt8 => 8
  | .int16 | .uInt16 => 16
  | .int32 | .uInt32 => 32
  | .int64 | .uInt64 | .intPtr | .uIntPtr => 64

/-- The kind of the value that is pushed. -/
def kind : ConversionType → Kind
  | .int64 | .uInt64 => .int64
  | .intPtr | .uIntPtr => .nativeInt
  | _ => .int32

/-- `MIN` and `MAX` of the target type. -/
def least (t : ConversionType) : Int :=
  match t.sign with
  | .signed => -2 ^ (t.width - 1)
  | .unsigned => 0

def greatest (t : ConversionType) : Nat :=
  match t.sign with
  | .signed => 2 ^ (t.width - 1) - 1
  | .unsigned => 2 ^ t.width - 1

end ConversionType

inductive FloatValue where
  | nan
  | infinite (negative : Bool)
  | finite (q : ℚ)
  deriving DecidableEq

def floatValue (bits : BitVec 64) : FloatValue :=
  let magnitude := bits.toNat % 2 ^ 63
  if Floats.doubleInfinity < magnitude then .nan
  else if magnitude = Floats.doubleInfinity then .infinite bits.msb
  else .finite ((if bits.msb then -1 else 1) * Floats.units 52 magnitude / 2 ^ 1074)

/-- `as f64`: the number rounded to 53 significant bits. -/
def asF64 (n : Nat) : Nat := Floats.roundShift n (n.log2 - 52) * 2 ^ (n.log2 - 52)

/-- Truncation towards zero. -/
def truncate (q : ℚ) : Int := if 0 ≤ q then ⌊q⌋ else ⌈q⌉

section Conversion

variable (t : ConversionType)

def inRange (n : Int) : Option Int := if fits t.sign t.width n then some n else none

/-- The branch of `do_conv!` for floating-point numbers. The cast saturates. -/
def fromFloat : FloatValue → Option Int
  | .nan | .infinite _ => none
  | .finite q =>
    if q < t.least ∨ (asF64 t.greatest : ℚ) < q then none
    else some (max t.least (min t.greatest (truncate q)))

def doConv (sgn : NumberSign) : StackValue → Option (Option Int)
  | .int32 i => some (inRange t (value sgn i))
  | .int64 i => some (inRange t (value sgn i))
  | .nativeInt i => some (inRange t (value sgn i))
  | .nativeFloat bits => some (fromFloat t (floatValue bits))
  | _ => none

def invalidProgram : ManagedExceptionError :=
  ⟨"System.InvalidProgramException", "Common Language Runtime detected an invalid program."⟩

def convOvf (sgn : NumberSign) : List StackValue → StepResult
  | [] => .error .stackUnderflow []
  | v :: stack =>
    match doConv t sgn v with
    | none => .thrown invalidProgram stack
    | some none => .thrown overflow stack
    | some (some n) => .continue (t.kind.wrap n :: stack)

/-- No number strictly between a bound and the next integer beyond it, and not the first integer
above a 64-bit type. -/
def OffBounds (q : ℚ) : Prop :=
  ¬((t.least : ℚ) - 1 < q ∧ q < t.least) ∧
    if t.width = 64 then q ≠ t.greatest + 1 else ¬((t.greatest : ℚ) < q ∧ q < t.greatest + 1)

end Conversion

section Bounds

variable {t : ConversionType} {q : ℚ}

section

variable (t : ConversionType)

lemma asF64_greatest : asF64 t.greatest = if t.width = 64 then t.greatest + 1 else t.greatest := by
  cases t <;> decide +kernel

lemma least_nonpos : t.least ≤ 0 := by cases t <;> decide

lemma fits_iff (n : Int) : fits t.sign t.width n = true ↔ t.least ≤ n ∧ n ≤ t.greatest := by
  cases t <;> simp only [fits, ConversionType.sign, ConversionType.least,
    ConversionType.greatest] <;> norm_num

end

/-- The truncation is in the range exactly if the number is less than one away from it. -/
lemma fits_truncate_iff : fits t.sign t.width (truncate q) = true ↔
    (t.least : ℚ) - 1 < q ∧ q < t.greatest + 1 := by
  have hleast : (t.least : ℚ) ≤ 0 := by exact_mod_cast least_nonpos t
  rw [fits_iff, truncate]
  split
  next hq =>
    have hfloor : (0 : Int) ≤ ⌊q⌋ := Int.floor_nonneg.mpr hq
    have hle : ⌊q⌋ ≤ (t.greatest : Int) ↔ q < t.greatest + 1 := by
      rw [← Int.lt_add_one_iff, Int.floor_lt]
      push_cast
      rfl
    rw [hle]
    exact and_congr_left fun _ => iff_of_true ((least_nonpos t).trans hfloor) (by linarith)
  next hq =>
    have hceil : ⌈q⌉ ≤ 0 := Int.ceil_le.mpr (by push_cast; linarith)
    have hlt : t.least ≤ ⌈q⌉ ↔ (t.least : ℚ) - 1 < q := by
      rw [← Int.sub_one_lt_iff, Int.lt_ceil]
      push_cast
      rfl
    rw [hlt]
    exact and_congr_right fun _ => iff_of_true (hceil.trans (Int.natCast_nonneg _)) (by linarith)

/-- Off the bounds, the test accepts exactly the numbers whose truncation is in the range. -/
lemma offBounds_iff : OffBounds t q ↔ (((t.least : ℚ) - 1 < q ∧ q < t.greatest + 1) ↔
    ¬(q < t.least ∨ (asF64 t.greatest : ℚ) < q)) := by
  have hleast : (t.least : ℚ) ≤ 0 := by exact_mod_cast least_nonpos t
  rw [asF64_greatest, OffBounds]
  split
  · grind
  · grind

end Bounds

/-- A checked conversion of a finite number pushes its truncation if that fits and raises the
overflow exception otherwise, exactly if the number is off the bounds. -/
theorem convOvf_float_iff (t : ConversionType) (sgn : NumberSign) (bits : BitVec 64) (q : ℚ)
    (stack : List StackValue) (hq : floatValue bits = .finite q) :
    convOvf t sgn (.nativeFloat bits :: stack) =
      (if fits t.sign t.width (truncate q) then .continue (t.kind.wrap (truncate q) :: stack)
      else .thrown overflow stack) ↔ OffBounds t q := by
  rw [offBounds_iff, ← fits_truncate_iff, convOvf, doConv, hq, fromFloat]
  by_cases href : q < t.least ∨ (asF64 t.greatest : ℚ) < q
  · by_cases hfits : fits t.sign t.width (truncate q) = true <;> simp [href]
  · rw [if_neg href]
    by_cases hfits : fits t.sign t.width (truncate q) = true
    · -- the cast does not saturate
      have hrng := (fits_iff t _).mp hfits
      rw [min_eq_right hrng.2, max_eq_right hrng.1, if_pos hfits]
      exact iff_of_true rfl (iff_of_true hfits href)
    · simp [hfits, href]

/-- The double 100.5, which is between two bytes. -/
theorem converted_inside :
    convOvf .uInt8 .signed [.nativeFloat 0x4059200000000000] = .continue [.int32 100] := by
  have hq : floatValue 0x4059200000000000 = .finite (201 / 2) := by decide +kernel
  refine ((convOvf_float_iff .uInt8 .signed _ _ [] hq).mpr ?_).trans ?_
  · unfold OffBounds
    decide +kernel
  · decide +kernel

/-- The doubles -128.5 and 255.5 are refused, and `2 ^ 63` is pushed as the largest integer. -/
theorem bounds_refused_or_saturated :
    convOvf .int8 .signed [.nativeFloat 0xC060100000000000] = .thrown overflow [] ∧
      truncate (-257 / 2) = -128 ∧
      convOvf .uInt8 .signed [.nativeFloat 0x406FF00000000000] = .thrown overflow [] ∧
      truncate (511 / 2) = 255 ∧
      convOvf .int64 .signed [.nativeFloat 0x43E0000000000000] =
        .continue [.int64 0x7FFFFFFFFFFFFFFF] := by
  decide +kernel

end DotnetVm.RawMemory.Arithmetic
