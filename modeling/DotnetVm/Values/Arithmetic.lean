import DotnetVm.Lib.MachineInts
import DotnetVm.Values.Scalars

/-!
# Arithmetic on the evaluation stack

The arithmetic and shift instructions pop their operands, take an enum as its underlying
integer, and compute with the integers of the host. The host checks its own
arithmetic: an operator without an exact result stops it, unless the instruction
has asked for a wrapping or a checked operation. An instruction is compared with
the exact operation on the integers its operands stand for.
-/

namespace DotnetVm.RawMemory.Arithmetic

open BitVec MachineInts

abbrev NumberSign := MachineInts.Sign

structure ManagedExceptionError where
  exceptionType : String
  message : String
  deriving DecidableEq, Repr

def overflow : ManagedExceptionError :=
  ⟨"System.OverflowException", "Arithmetic operation resulted in an overflow."⟩

def divideByZero : ManagedExceptionError :=
  ⟨"System.DivideByZeroException", "Attempted to divide by zero."⟩

inductive ExecutionError where
  | stackUnderflow
  | typeMismatch (expected actual : String)
  | notImplemented (message : String)
  deriving DecidableEq, Repr

/-- The ways in which an instruction does not complete. -/
inductive Fault where
  | managedException (e : ManagedExceptionError)
  | execution (e : ExecutionError)
  | hostPanic
  deriving DecidableEq, Repr

def stackValueKind : StackValue → String
  | .int32 _ => "Int32"
  | .int64 _ => "Int64"
  | .nativeInt _ => "NativeInt"
  | .nativeFloat _ => "NativeFloat"
  | .objectRef _ => "ObjectRef"
  | .unmanagedPtr _ => "UnmanagedPtr"
  | .managedPtr _ => "ManagedPtr"
  | .valueType _ _ => "ValueType"

structure ArithmeticUnit where
  floatAdd : BitVec 64 → BitVec 64 → BitVec 64
  floatSub : BitVec 64 → BitVec 64 → BitVec 64
  floatMul : BitVec 64 → BitVec 64 → BitVec 64
  floatDiv : BitVec 64 → BitVec 64 → BitVec 64
  floatRem : BitVec 64 → BitVec 64 → BitVec 64
  objectAddress : BitVec 64 → BitVec 64
  checkedOffset : RawMemory.ManagedPtr → BitVec 64 → Option RawMemory.ManagedPtr

def mismatch (expected : String) (l r : StackValue) : Fault :=
  .execution (.typeMismatch expected (stackValueKind l ++ ", " ++ stackValueKind r))

def orElse {α : Type} (fault : Fault) : Option α → Except Fault α
  | some a => .ok a
  | none => .error fault

lemma orElse_ite {α β : Type} (fault : Fault) (c : Prop) [Decidable c] (a : α) (f : α → β) :
    orElse fault ((if c then some a else none).map f) = if c then .ok (f a) else .error fault := by
  split <;> rfl

lemma orElse_ite_not {α β : Type} (fault : Fault) (c : Prop) [Decidable c] (a : α) (f : α → β) :
    orElse fault ((if c then none else some a).map f) = if c then .error fault else .ok (f a) := by
  split <;> rfl

section Operators

section

variable (op : {w : Nat} → NumberSign → BitVec w → BitVec w → Option (BitVec w))

/-- `checked_arithmetic_op!`. -/
def checkedArithmeticOp (l r : StackValue) (sgn : NumberSign) : Except Fault StackValue :=
  let checked {w : Nat} (x : Option (BitVec w)) (k : BitVec w → StackValue) :=
    orElse (.managedException overflow) (x.map k)
  match l, r with
  | .int32 l, .int32 r => checked (op sgn l r) .int32
  | .int64 l, .int64 r => checked (op sgn l r) .int64
  | .nativeInt l, .nativeInt r => checked (op sgn l r) .nativeInt
  | .nativeInt l, .int32 r => checked (op sgn l (extend sgn 64 r)) .nativeInt
  | .int32 l, .nativeInt r => checked (op sgn (extend sgn 64 l) r) .nativeInt
  | l, r => .error (mismatch "checked arithmetic operands (Int32, Int64, NativeInt)" l r)

/-- `arithmetic_op!`, with an operator of the host. -/
def arithmeticOp
    (floatOp : BitVec 64 → BitVec 64 → BitVec 64) (l r : StackValue) (sgn : NumberSign) :
    Except Fault StackValue :=
  let computed {w : Nat} (x : Option (BitVec w)) (k : BitVec w → StackValue) :=
    orElse .hostPanic (x.map k)
  match l, r with
  | .int32 l, .int32 r => computed (op sgn l r) .int32
  | .int64 l, .int64 r => computed (op sgn l r) .int64
  | .nativeInt l, .nativeInt r => computed (op sgn l r) .nativeInt
  | .nativeFloat l, .nativeFloat r => .ok (.nativeFloat (floatOp l r))
  | .nativeInt l, .int32 r => computed (op sgn l (extend sgn 64 r)) .nativeInt
  | .int32 l, .nativeInt r => computed (op sgn (extend sgn 64 l) r) .nativeInt
  | l, r => .error (mismatch "arithmetic operands (Int32, Int64, NativeInt, NativeFloat)" l r)

end

/-- `wrapping_arithmetic_op!`. -/
def wrappingArithmeticOp (unit : ArithmeticUnit) (op : {w : Nat} → BitVec w → BitVec w → BitVec w)
    (floatOp : BitVec 64 → BitVec 64 → BitVec 64) (l r : StackValue) : Except Fault StackValue :=
  match l, r with
  | .int32 l, .int32 r => .ok (.int32 (op l r))
  | .int32 l, .nativeInt r => .ok (.nativeInt (op (l.signExtend 64) r))
  | .int64 l, .int64 r => .ok (.int64 (op l r))
  | .int64 l, .nativeInt r => .ok (.int64 (op l r))
  | .nativeInt l, .int32 r => .ok (.nativeInt (op l (r.signExtend 64)))
  | .nativeInt l, .int64 r => .ok (.int64 (op l r))
  | .nativeInt l, .nativeInt r => .ok (.nativeInt (op l r))
  | .nativeFloat l, .nativeFloat r => .ok (.nativeFloat (floatOp l r))
  | .objectRef l, .nativeInt r => .ok (.nativeInt (op (unit.objectAddress l) r))
  | .objectRef l, .int32 r => .ok (.nativeInt (op (unit.objectAddress l) (r.signExtend 64)))
  | .objectRef l, .objectRef r =>
    .ok (.nativeInt (op (unit.objectAddress l) (unit.objectAddress r)))
  | l, r => .error (mismatch
      "arithmetic operands (Int32, Int64, NativeInt, NativeFloat, ObjectRef+nint)" l r)

def managedOffsetError : Fault :=
  .execution (.notImplemented
    ("managed pointer offset is unrepresentable (negative or beyond the compact offset range is " ++
      "not supported; overflow or null cached address is unsupported)"))

section

variable (unit : ArithmeticUnit) (m : RawMemory.ManagedPtr) (bytes : BitVec 64)

def managedOffset : Except Fault StackValue :=
  orElse managedOffsetError ((unit.checkedOffset m bytes).map .managedPtr)

def managedOffsetBack :
    Except Fault StackValue := do
  managedOffset unit m (← orElse managedOffsetError (MachineInts.neg bytes))

end

def unmanagedPtrOffset (address delta : BitVec 64) : StackValue :=
  if address + delta = 0 then .nativeInt 0 else .unmanagedPtr (address + delta)

variable (host : Host) (unit : ArithmeticUnit)

def add (l r : StackValue) : Except Fault StackValue :=
  match l, r with
  | .int32 i, .managedPtr m | .managedPtr m, .int32 i => managedOffset unit m (i.signExtend 64)
  | .nativeInt i, .managedPtr m | .managedPtr m, .nativeInt i => managedOffset unit m i
  | .int32 i, .unmanagedPtr u | .unmanagedPtr u, .int32 i =>
    .ok (unmanagedPtrOffset u (i.signExtend 64))
  | .nativeInt i, .unmanagedPtr u | .unmanagedPtr u, .nativeInt i => .ok (unmanagedPtrOffset u i)
  | l, r => wrappingArithmeticOp unit (fun l r => l + r) unit.floatAdd l r

def sub (l r : StackValue) : Except Fault StackValue :=
  match l, r with
  | .managedPtr m, .int32 i => managedOffsetBack unit m (i.signExtend 64)
  | .managedPtr m, .nativeInt i => managedOffsetBack unit m i
  | .managedPtr m, .int64 i => managedOffsetBack unit m i
  | .unmanagedPtr u, .int32 i => .ok (unmanagedPtrOffset u (-i.signExtend 64))
  | .unmanagedPtr u, .nativeInt i => .ok (unmanagedPtrOffset u (-i))
  | .unmanagedPtr l, .unmanagedPtr r => .ok (.nativeInt (l - r))
  | .nativeInt l, .unmanagedPtr r => .ok (.nativeInt (l - r))
  | .unmanagedPtr l, .managedPtr r => .ok (.nativeInt (l - host.address r.encoding))
  | .managedPtr l, .unmanagedPtr r => .ok (.nativeInt (host.address l.encoding - r))
  | .managedPtr l, .managedPtr r =>
    .ok (.nativeInt (host.address l.encoding - host.address r.encoding))
  | l, r => wrappingArithmeticOp unit (fun l r => l - r) unit.floatSub l r

def mul (l r : StackValue) : Except Fault StackValue :=
  wrappingArithmeticOp unit (fun l r => l * r) unit.floatMul l r

def isZero : StackValue → Bool
  | .int32 v => v == 0
  | .int64 v => v == 0
  | .nativeInt v => v == 0
  | _ => false

def div (l r : StackValue) (sgn : NumberSign) : Except Fault StackValue :=
  if isZero r then .error (.managedException divideByZero)
  else arithmeticOp MachineInts.div unit.floatDiv l r sgn

def rem (l r : StackValue) (sgn : NumberSign) : Except Fault StackValue :=
  if isZero r then .error (.managedException divideByZero)
  else arithmeticOp MachineInts.rem unit.floatRem l r sgn

def extractShiftAmount : StackValue → Except Fault Nat
  | .int32 i => .ok i.toNat
  | .nativeInt i => .ok (i.setWidth 32).toNat
  | v => .error (.execution
      (.typeMismatch "shift amount (Int32 or NativeInt)" (stackValueKind v)))

def shiftOp (op : {w : Nat} → BitVec w → Nat → Option (BitVec w)) (target : StackValue)
    (amount : Nat) : Except Fault StackValue :=
  match target with
  | .int32 i => orElse .hostPanic ((op i amount).map .int32)
  | .int64 i => orElse .hostPanic ((op i amount).map .int64)
  | .nativeInt i => orElse .hostPanic ((op i amount).map .nativeInt)
  | v => .error (.execution
      (.typeMismatch "shift target (Int32, Int64, NativeInt)" (stackValueKind v)))

def shl (l r : StackValue) : Except Fault StackValue := do
  shiftOp shiftLeft l (← extractShiftAmount r)

def shr (l r : StackValue) (sgn : NumberSign) : Except Fault StackValue := do
  shiftOp (shiftRight sgn) l (← extractShiftAmount r)

def neg : StackValue → Except Fault StackValue
  | .int32 i => orElse .hostPanic ((MachineInts.neg i).map .int32)
  | .int64 i => orElse .hostPanic ((MachineInts.neg i).map .int64)
  | .nativeInt i => orElse .hostPanic ((MachineInts.neg i).map .nativeInt)
  | .nativeFloat bits => .ok (.nativeFloat (bits ^^^ intMin 64))
  | v => .error (.execution
      (.typeMismatch "neg operand (Int32, Int64, NativeInt, NativeFloat)" (stackValueKind v)))

end Operators

inductive Instruction where
  | add | addOverflow (sgn : NumberSign)
  | divide (sgn : NumberSign)
  | multiply | multiplyOverflow (sgn : NumberSign)
  | negate
  | remainder (sgn : NumberSign)
  | shiftLeft
  | shiftRight (sgn : NumberSign)
  | subtract | subtractOverflow (sgn : NumberSign)
  deriving DecidableEq, Repr

/-- How a step ends for the dispatch loop. -/
inductive StepResult where
  | continue (stack : List StackValue)
  | thrown (e : ManagedExceptionError) (stack : List StackValue)
  | error (e : ExecutionError) (stack : List StackValue)
  | hostPanic
  deriving DecidableEq, Repr

/-- A result is pushed; an exception is thrown. -/
def finish (stack : List StackValue) : Except Fault StackValue → StepResult
  | .ok v => .continue (v :: stack)
  | .error (.managedException e) => .thrown e stack
  | .error (.execution e) => .error e stack
  | .error .hostPanic => .hostPanic

section Steps

variable (host : Host)

def binaryOp (op : StackValue → StackValue → Except Fault StackValue) : List StackValue → StepResult
  | v2 :: v1 :: stack =>
    finish stack (op (coerceEnumToUnderlying host v1) (coerceEnumToUnderlying host v2))
  | _ => .error .stackUnderflow []

/-- `unary_op!`. -/
def unaryOp (op : StackValue → Except Fault StackValue) : List StackValue → StepResult
  | v :: stack => finish stack (op (coerceEnumToUnderlying host v))
  | [] => .error .stackUnderflow []

def step (unit : ArithmeticUnit) : Instruction → List StackValue → StepResult
  | .add => binaryOp host (add unit)
  | .addOverflow sgn =>
    binaryOp host fun l r => checkedArithmeticOp MachineInts.checkedAdd l r sgn
  | .divide sgn => binaryOp host fun l r => div unit l r sgn
  | .multiply => binaryOp host (mul unit)
  | .multiplyOverflow sgn =>
    binaryOp host fun l r => checkedArithmeticOp checkedMul l r sgn
  | .negate => unaryOp host neg
  | .remainder sgn => binaryOp host fun l r => rem unit l r sgn
  | .shiftLeft => binaryOp host shl
  | .shiftRight sgn => binaryOp host fun l r => shr l r sgn
  | .subtract => binaryOp host (sub host unit)
  | .subtractOverflow sgn =>
    binaryOp host fun l r => checkedArithmeticOp MachineInts.checkedSub l r sgn

end Steps

/-- The kinds of integers on the stack. -/
inductive Kind where
  | int32 | int64 | nativeInt
  deriving DecidableEq, Repr

def Kind.width : Kind → Nat
  | .int32 => 32
  | .int64 | .nativeInt => 64

/-- The integer reduced modulo `2 ^ w` into a kind of width `w`. -/
def Kind.wrap : Kind → Int → StackValue
  | .int32, n => .int32 (BitVec.ofInt 32 n)
  | .int64, n => .int64 (BitVec.ofInt 64 n)
  | .nativeInt, n => .nativeInt (BitVec.ofInt 64 n)

def kindOf : StackValue → Option Kind
  | .int32 _ => some .int32
  | .int64 _ => some .int64
  | .nativeInt _ => some .nativeInt
  | _ => none

/-- The integer an operand stands for, 0 for an operand of another kind. -/
def operandValue (sgn : NumberSign) : StackValue → Int
  | .int32 v => value sgn v
  | .int64 v => value sgn v
  | .nativeInt v => value sgn v
  | _ => 0

/-- The kind of the result of division, remainder and the checked operations, for the operands
they accept. -/
def strictKind : Kind → Kind → Option Kind
  | .int32, .int32 => some .int32
  | .int64, .int64 => some .int64
  | .nativeInt, .nativeInt | .nativeInt, .int32 | .int32, .nativeInt => some .nativeInt
  | _, _ => none

/-- The wrapping operations accept a 64-bit and a native integer, too. -/
def wrappingKind : Kind → Kind → Option Kind
  | .int64, .nativeInt | .nativeInt, .int64 => some .int64
  | l, r => strictKind l r

section Results

variable {l r : StackValue} {kl kr k : Kind}

lemma strict_cases (hl : kindOf l = some kl) (hr : kindOf r = some kr)
    (hk : strictKind kl kr = some k) :
    (∃ a b, l = .int32 a ∧ r = .int32 b ∧ k = .int32) ∨
    (∃ a b, l = .int64 a ∧ r = .int64 b ∧ k = .int64) ∨
    (∃ a b, l = .nativeInt a ∧ r = .nativeInt b ∧ k = .nativeInt) ∨
    (∃ a b, l = .nativeInt a ∧ r = .int32 b ∧ k = .nativeInt) ∨
    (∃ a b, l = .int32 a ∧ r = .nativeInt b ∧ k = .nativeInt) := by
  cases l <;> cases hl <;> cases r <;> cases hr <;> cases hk <;> simp

variable {op : {w : Nat} → NumberSign → BitVec w → BitVec w → Option (BitVec w)}
  {f : Int → Int → Int}

lemma checkedArithmeticOp_eq (hop : ∀ (w : Nat) (s : NumberSign) (l r : BitVec w), op s l r =
      if fits s w (f (value s l) (value s r)) then some (BitVec.ofInt w (f (value s l) (value s r)))
      else none)
    (hl : kindOf l = some kl) (hr : kindOf r = some kr) (hk : strictKind kl kr = some k)
    (sgn : NumberSign) : checkedArithmeticOp op l r sgn =
      if fits sgn k.width (f (operandValue sgn l) (operandValue sgn r)) then
        .ok (k.wrap (f (operandValue sgn l) (operandValue sgn r)))
      else .error (.managedException overflow) := by
  have hchk {w : Nat} (a b : BitVec w) (g : BitVec w → StackValue) :
      orElse (.managedException overflow) ((op sgn a b).map g) =
        if fits sgn w (f (value sgn a) (value sgn b)) then
          .ok (g (BitVec.ofInt w (f (value sgn a) (value sgn b))))
        else .error (.managedException overflow) := by
    rw [hop, orElse_ite]
  rcases strict_cases hl hr hk with ⟨a, b, rfl, rfl, rfl⟩ | ⟨a, b, rfl, rfl, rfl⟩ |
    ⟨a, b, rfl, rfl, rfl⟩ | ⟨a, b, rfl, rfl, rfl⟩ | ⟨a, b, rfl, rfl, rfl⟩
  · exact hchk a b .int32
  · exact hchk a b .int64
  · exact hchk a b .nativeInt
  · have h := hchk a (extend sgn 64 b) .nativeInt
    rw [value_extend sgn (by decide)] at h
    exact h
  · have h := hchk (extend sgn 64 a) b .nativeInt
    rw [value_extend sgn (by decide)] at h
    exact h

lemma wrappingArithmeticOp_eq (unit : ArithmeticUnit)
    {op : {w : Nat} → BitVec w → BitVec w → BitVec w} (hop : ∀ (w : Nat) (l r : BitVec w),
      BitVec.ofInt w (f (value .signed l) (value .signed r)) = op l r)
    (floatOp : BitVec 64 → BitVec 64 → BitVec 64)
    (hl : kindOf l = some kl) (hr : kindOf r = some kr) (hk : wrappingKind kl kr = some k) :
    wrappingArithmeticOp unit op floatOp l r =
      .ok (k.wrap (f (operandValue .signed l) (operandValue .signed r))) := by
  have hextend (v : BitVec 32) : value .signed v = value .signed (v.signExtend 64) :=
    (value_extend .signed (by decide) v).symm
  cases l <;> cases hl <;> cases r <;> cases hr <;> cases hk <;>
    simp only [wrappingArithmeticOp, operandValue, Kind.wrap]
  case int32.refl.int32.refl.refl => rw [hop]
  case int32.refl.nativeInt.refl.refl => rw [hextend, hop]
  case nativeInt.refl.int32.refl.refl => rw [hextend, hop]
  all_goals rw [hop]

/-- The one quotient that does not fit the kind of the result. -/
def quotientTooLarge (k : Kind) (sgn : NumberSign) (a b : Int) : Prop :=
  sgn = .signed ∧ a = -2 ^ (k.width - 1) ∧ b = -1

instance (k : Kind) (sgn : NumberSign) (a b : Int) : Decidable (quotientTooLarge k sgn a b) :=
  inferInstanceAs (Decidable (_ ∧ _ ∧ _))

lemma isZero_iff (hr : kindOf r = some kr) (sgn : NumberSign) :
    isZero r = true ↔ operandValue sgn r = 0 := by
  cases r <;> cases hr <;> simp only [isZero, operandValue, value_eq_zero_iff, beq_iff_eq] <;> rfl

lemma arithmeticOp_eq (hop : ∀ (w : Nat) (s : NumberSign) (l r : BitVec w), op s l r =
      if r = 0#w ∨ quotientOverflows s l r = true then none
      else some (BitVec.ofInt w (f (value s l) (value s r))))
    (floatOp : BitVec 64 → BitVec 64 → BitVec 64)
    (hl : kindOf l = some kl) (hr : kindOf r = some kr) (hk : strictKind kl kr = some k)
    (sgn : NumberSign) (hz : operandValue sgn r ≠ 0) : arithmeticOp op floatOp l r sgn =
      if quotientTooLarge k sgn (operandValue sgn l) (operandValue sgn r) then .error .hostPanic
      else .ok (k.wrap (f (operandValue sgn l) (operandValue sgn r))) := by
  have hwide {w : Nat} (hw : 0 < w) (l r : BitVec w) (h : value sgn r ≠ 0) :
      (r = 0#w ∨ quotientOverflows sgn l r = true) ↔
        sgn = .signed ∧ value sgn l = -2 ^ (w - 1) ∧ value sgn r = -1 := by
    rw [← value_eq_zero_iff sgn, quotientOverflows_iff _ _ _ hw]
    tauto
  have hcomp {w : Nat} (hw : 0 < w) (a b : BitVec w) (hb : value sgn b ≠ 0)
      (g : BitVec w → StackValue) : orElse .hostPanic ((op sgn a b).map g) =
        if sgn = .signed ∧ value sgn a = -2 ^ (w - 1) ∧ value sgn b = -1 then .error .hostPanic
        else .ok (g (BitVec.ofInt w (f (value sgn a) (value sgn b)))) := by
    rw [hop, orElse_ite_not]
    exact if_congr (hwide hw a b hb) rfl rfl
  rcases strict_cases hl hr hk with ⟨a, b, rfl, rfl, rfl⟩ | ⟨a, b, rfl, rfl, rfl⟩ |
    ⟨a, b, rfl, rfl, rfl⟩ | ⟨a, b, rfl, rfl, rfl⟩ | ⟨a, b, rfl, rfl, rfl⟩
  · exact hcomp (by decide) a b hz .int32
  · exact hcomp (by decide) a b hz .int64
  · exact hcomp (by decide) a b hz .nativeInt
  · have hb : value sgn (extend sgn 64 b) = value sgn b := value_extend sgn (by decide) b
    have h := hcomp (by decide) a (extend sgn 64 b) (by rw [hb]; exact hz) .nativeInt
    rw [hb] at h
    exact h
  · have h := hcomp (by decide) (extend sgn 64 a) b hz .nativeInt
    rw [value_extend sgn (by decide)] at h
    exact h

lemma shiftOp_eq (op : {w : Nat} → BitVec w → Nat → Option (BitVec w)) (f : Int → Nat → Int)
    (sgn : NumberSign) (hop : ∀ (w : Nat) (v : BitVec w) (n : Nat), op v n =
      if n < w then some (BitVec.ofInt w (f (value sgn v) n)) else none)
    (hl : kindOf l = some k) (n : Nat) : shiftOp op l n =
      if n < k.width then .ok (k.wrap (f (operandValue sgn l) n)) else .error .hostPanic := by
  have hshift {w : Nat} (v : BitVec w) (g : BitVec w → StackValue) :
      orElse .hostPanic ((op v n).map g) =
        if n < w then .ok (g (BitVec.ofInt w (f (value sgn v) n))) else .error .hostPanic := by
    rw [hop, orElse_ite]
  cases l <;> cases hl
  case int32.refl v => exact hshift v .int32
  case int64.refl v => exact hshift v .int64
  case nativeInt.refl v => exact hshift v .nativeInt

lemma neg_eq (hl : kindOf l = some k) : neg l =
    if operandValue .signed l = -2 ^ (k.width - 1) then .error .hostPanic
    else .ok (k.wrap (-operandValue .signed l)) := by
  have hneg {w : Nat} (hw : 0 < w) (v : BitVec w) (g : BitVec w → StackValue) :
      orElse .hostPanic ((MachineInts.neg v).map g) =
        if value .signed v = -2 ^ (w - 1) then .error .hostPanic
        else .ok (g (BitVec.ofInt w (-value .signed v))) := by
    rw [MachineInts.neg_eq v hw, orElse_ite_not]
  cases l <;> cases hl
  case int32.refl v => exact hneg (by decide) v .int32
  case int64.refl v => exact hneg (by decide) v .int64
  case nativeInt.refl v => exact hneg (by decide) v .nativeInt

def shiftAmount (r : StackValue) : Nat := (operandValue .unsigned r).toNat % 2 ^ 32

lemma extractShiftAmount_eq (hr : kindOf r = some kr) (hne : kr ≠ .int64) :
    extractShiftAmount r = .ok (shiftAmount r) := by
  cases r <;> cases hr
  case int32.refl v => exact congrArg Except.ok (Nat.mod_eq_of_lt v.isLt).symm
  case int64.refl v => exact absurd rfl hne
  case nativeInt.refl v => exact congrArg Except.ok (toNat_setWidth 32 v)

lemma shiftAmount_of_lt (hr : kindOf r = some kr) (h0 : 0 ≤ operandValue .signed r)
    (h : operandValue .signed r < 64) : shiftAmount r = (operandValue .signed r).toNat := by
  have hsm {w : Nat} (v : BitVec w) (h : 0 ≤ v.toInt) : (v.toNat : Int) = v.toInt := by
    rw [toInt_eq_toNat_cond] at h ⊢
    split
    · rfl
    next hno =>
      omega
  have hread : operandValue .unsigned r = operandValue .signed r := by
    cases r <;> cases hr
    case int32.refl v => exact hsm v h0
    case int64.refl v => exact hsm v h0
    case nativeInt.refl v => exact hsm v h0
  rw [shiftAmount, hread]
  exact Nat.mod_eq_of_lt (by omega)

end Results

section Conformance

variable (stack : List StackValue)

def RaisesArithmetic (result : StepResult) : Prop :=
  ∃ e, result = .thrown e stack ∧
    (e.exceptionType = "System.ArithmeticException" ∨ e.exceptionType = "System.OverflowException")

def DivisionConforms (k : Kind) (sgn : NumberSign) (a b exact : Int) (result : StepResult) : Prop :=
  if b = 0 then result = .thrown divideByZero stack
  else result = .continue (k.wrap exact :: stack) ∨
    (quotientTooLarge k sgn a b ∧ RaisesArithmetic stack result)

def ShiftConforms (k : Kind) (amount exact : Int) (result : StepResult) : Prop :=
  if 0 ≤ amount ∧ amount < k.width then result = .continue (k.wrap exact :: stack)
  else (∃ v, result = .continue (v :: stack)) ∨ RaisesArithmetic stack result

variable {stack}

lemma not_raisesArithmetic_panic : ¬RaisesArithmetic stack .hostPanic := by
  rintro ⟨e, he, -⟩
  cases he

variable {result : StepResult}

lemma divisionConforms_iff {k : Kind} {sgn : NumberSign} {a b exact : Int}
    (hres : result = finish stack (if b = 0 then .error (.managedException divideByZero)
      else if quotientTooLarge k sgn a b then .error .hostPanic else .ok (k.wrap exact))) :
    DivisionConforms stack k sgn a b exact result ↔ ¬quotientTooLarge k sgn a b := by
  unfold DivisionConforms
  by_cases hb : b = 0
  · have hsmall : ¬quotientTooLarge k sgn a b := by
      rintro ⟨-, -, hone⟩
      omega
    rw [if_pos hb] at hres ⊢
    exact iff_of_true hres hsmall
  · rw [if_neg hb] at hres ⊢
    by_cases hlarge : quotientTooLarge k sgn a b
    · rw [if_pos hlarge] at hres
      refine iff_of_false ?_ (not_not.mpr hlarge)
      rw [hres]
      rintro (h | ⟨-, h⟩)
      · cases h
      · exact not_raisesArithmetic_panic h
    · rw [if_neg hlarge] at hres
      exact iff_of_true (Or.inl hres) hlarge

lemma shiftConforms_iff {k : Kind} {amount : Int} {taken : Nat} {f : Nat → Int}
    (htaken : 0 ≤ amount → amount < k.width → taken = amount.toNat) (hres : result = finish stack
      (if taken < k.width then .ok (k.wrap (f taken)) else .error .hostPanic)) :
    ShiftConforms stack k amount (f amount.toNat) result ↔ taken < k.width := by
  unfold ShiftConforms
  by_cases hlt : taken < k.width
  · rw [if_pos hlt] at hres
    refine iff_of_true ?_ hlt
    split
    next hrng =>
      rw [hres, htaken hrng.1 hrng.2]
      rfl
    · exact .inl ⟨_, hres⟩
  · rw [if_neg hlt] at hres
    refine iff_of_false ?_ hlt
    rw [if_neg (by rintro ⟨h0, h⟩; omega), hres]
    rintro (⟨v, hv⟩ | h)
    · cases hv
    · exact not_raisesArithmetic_panic h

end Conformance

/-- Division and remainder conform to the standard exactly if the quotient fits its kind, shifts
exactly if the amount is below the width, and negation exactly if the operand is not the least
number. -/
theorem integer_instructions_conform_iff (host : Host) (unit : ArithmeticUnit)
    (v1 v2 : StackValue) (stack : List StackValue) (k1 k2 : Kind)
    (h1 : kindOf (coerceEnumToUnderlying host v1) = some k1)
    (h2 : kindOf (coerceEnumToUnderlying host v2) = some k2) :
    let l := coerceEnumToUnderlying host v1
    let r := coerceEnumToUnderlying host v2
    (∀ k sgn, strictKind k1 k2 = some k →
      let a := operandValue sgn l
      let b := operandValue sgn r
      (DivisionConforms stack k sgn a b (a.tdiv b)
          (step host unit (.divide sgn) (v2 :: v1 :: stack)) ↔ ¬quotientTooLarge k sgn a b) ∧
      (DivisionConforms stack k sgn a b (a.tmod b)
          (step host unit (.remainder sgn) (v2 :: v1 :: stack)) ↔ ¬quotientTooLarge k sgn a b)) ∧
    (k2 ≠ .int64 →
      let amount := operandValue .signed r
      (ShiftConforms stack k1 amount (operandValue .signed l * 2 ^ amount.toNat)
          (step host unit .shiftLeft (v2 :: v1 :: stack)) ↔ shiftAmount r < k1.width) ∧
      ∀ sgn, (ShiftConforms stack k1 amount (operandValue sgn l / 2 ^ amount.toNat)
          (step host unit (.shiftRight sgn) (v2 :: v1 :: stack)) ↔ shiftAmount r < k1.width)) ∧
    (step host unit .negate (v1 :: stack) = .continue (k1.wrap (-operandValue .signed l) :: stack) ↔
      operandValue .signed l ≠ -2 ^ (k1.width - 1)) := by
  intro l r
  refine ⟨?_, ?_, ?_⟩
  · intro k sgn hk a b
    have hquotient (f : Int → Int → Int)
        (op : {w : Nat} → NumberSign → BitVec w → BitVec w → Option (BitVec w))
        (floatOp : BitVec 64 → BitVec 64 → BitVec 64)
        (hop : ∀ (w : Nat) (s : NumberSign) (l r : BitVec w), op s l r =
          if r = 0#w ∨ quotientOverflows s l r = true then none
          else some (BitVec.ofInt w (f (value s l) (value s r)))) :
        finish stack (if isZero r then .error (.managedException divideByZero)
          else arithmeticOp op floatOp l r sgn) =
        finish stack (if b = 0 then .error (.managedException divideByZero)
          else if quotientTooLarge k sgn a b then .error .hostPanic
            else .ok (k.wrap (f a b))) := by
      by_cases hb : b = 0
      · rw [if_pos hb, if_pos ((isZero_iff h2 sgn).mpr hb)]
      · rw [if_neg hb, if_neg (mt (isZero_iff h2 sgn).mp hb),
          arithmeticOp_eq hop floatOp h1 h2 hk sgn hb]
    constructor
    · exact divisionConforms_iff
        (hquotient Int.tdiv MachineInts.div unit.floatDiv fun _ => div_eq)
    · exact divisionConforms_iff
        (hquotient Int.tmod MachineInts.rem unit.floatRem fun _ => rem_eq)
  · intro hne amount
    have hwd : k1.width ≤ 64 := by cases k1 <;> decide
    have htaken (h0 : 0 ≤ amount) (h : amount < k1.width) : shiftAmount r = amount.toNat :=
      shiftAmount_of_lt h2 h0 (by omega)
    have hextract := extractShiftAmount_eq h2 hne
    constructor
    · refine shiftConforms_iff (f := fun n => operandValue .signed l * 2 ^ n) htaken ?_
      rw [← shiftOp_eq shiftLeft (fun a n => a * 2 ^ n) .signed
        (fun _ => shiftLeft_eq) h1]
      change finish stack (shl l r) = _
      rw [shl, hextract]
      rfl
    · intro sgn
      refine shiftConforms_iff (f := fun n => operandValue sgn l / 2 ^ n) htaken ?_
      rw [← shiftOp_eq (shiftRight sgn) (fun a n => a / 2 ^ n) sgn
        (fun _ => shiftRight_eq sgn) h1]
      change finish stack (shr l r sgn) = _
      rw [shr, hextract]
      rfl
  · change finish stack (neg l) = _ ↔ _
    rw [neg_eq h1]
    by_cases hmin : operandValue .signed l = -2 ^ (k1.width - 1)
    · rw [if_pos hmin]
      refine iff_of_false ?_ (not_not.mpr hmin)
      intro h
      cases h
    · rw [if_neg hmin]
      exact iff_of_true rfl hmin

/-- A unit for programs on integers alone. -/
def bareUnit : ArithmeticUnit :=
  ⟨fun l _ => l, fun l _ => l, fun l _ => l, fun l _ => l, fun l _ => l, id, fun _ _ => none⟩

/-- Quotient and shift of a negative number conform. -/
theorem minus_seven_conforms : DivisionConforms [] .nativeInt .signed (-7) 2 (-3)
        (step bareHost bareUnit (.divide .signed) [.nativeInt 2, .int32 (-7)]) ∧
      ShiftConforms [] .int32 2 (-28)
        (step bareHost bareUnit .shiftLeft [.nativeInt 2, .int32 (-7)]) := by
  have h := integer_instructions_conform_iff bareHost bareUnit (.int32 (-7)) (.nativeInt 2) []
    .int32 .nativeInt rfl rfl
  exact ⟨(h.1 .nativeInt .signed rfl).1.mpr (by decide), (h.2.1 (by decide)).1.mpr (by decide)⟩

/-- The least number divided by minus one, its negation and shifts by the width stop the host. -/
theorem least_number_stops_host :
    step bareHost bareUnit (.divide .signed) [.int32 (-1), .int32 0x80000000] = .hostPanic ∧
      step bareHost bareUnit (.remainder .signed) [.int32 (-1), .int32 0x80000000] = .hostPanic ∧
      step bareHost bareUnit .negate [.int32 0x80000000] = .hostPanic ∧
      step bareHost bareUnit .shiftLeft [.int32 32, .int32 1] = .hostPanic ∧
      step bareHost bareUnit (.shiftRight .unsigned) [.int32 32, .int32 1] = .hostPanic := by
  decide

section Exact

variable {l r : StackValue} {kl kr : Kind}

lemma add_integral (unit : ArithmeticUnit) (hl : kindOf l = some kl) (hr : kindOf r = some kr) :
    add unit l r = wrappingArithmeticOp unit (fun l r => l + r) unit.floatAdd l r := by
  cases l <;> cases hl <;> cases r <;> cases hr <;> rfl

lemma sub_integral (host : Host) (unit : ArithmeticUnit) (hl : kindOf l = some kl)
    (hr : kindOf r = some kr) :
    sub host unit l r = wrappingArithmeticOp unit (fun l r => l - r) unit.floatSub l r := by
  cases l <;> cases hl <;> cases r <;> cases hr <;> rfl

lemma finish_checked (stack : List StackValue) (c : Prop) [Decidable c] (v : StackValue) :
    finish stack (if c then .ok v else .error (.managedException overflow)) =
      if c then .continue (v :: stack) else .thrown overflow stack := by
  split <;> rfl

end Exact

/-- Addition, subtraction and multiplication wrap the exact result to the kind of the operands; the
checked ones give it where it fits and throw where it does not. -/
theorem arithmetic_exact (host : Host) (unit : ArithmeticUnit) (v1 v2 : StackValue)
    (stack : List StackValue) (k1 k2 : Kind)
    (h1 : kindOf (coerceEnumToUnderlying host v1) = some k1)
    (h2 : kindOf (coerceEnumToUnderlying host v2) = some k2) :
    let l := coerceEnumToUnderlying host v1
    let r := coerceEnumToUnderlying host v2
    (∀ k, wrappingKind k1 k2 = some k →
      let a := operandValue .signed l
      let b := operandValue .signed r
      step host unit .add (v2 :: v1 :: stack) = .continue (k.wrap (a + b) :: stack) ∧
      step host unit .subtract (v2 :: v1 :: stack) = .continue (k.wrap (a - b) :: stack) ∧
      step host unit .multiply (v2 :: v1 :: stack) = .continue (k.wrap (a * b) :: stack)) ∧
    (∀ k sgn, strictKind k1 k2 = some k →
      let a := operandValue sgn l
      let b := operandValue sgn r
      step host unit (.addOverflow sgn) (v2 :: v1 :: stack) =
        (if fits sgn k.width (a + b) then .continue (k.wrap (a + b) :: stack)
        else .thrown overflow stack) ∧
      step host unit (.subtractOverflow sgn) (v2 :: v1 :: stack) =
        (if fits sgn k.width (a - b) then .continue (k.wrap (a - b) :: stack)
        else .thrown overflow stack) ∧
      step host unit (.multiplyOverflow sgn) (v2 :: v1 :: stack) =
        (if fits sgn k.width (a * b) then .continue (k.wrap (a * b) :: stack)
        else .thrown overflow stack)) := by
  intro l r
  constructor
  · intro k hk a b
    refine ⟨?_, ?_, ?_⟩
    · change finish stack (add unit l r) = _
      rw [add_integral unit h1 h2,
        wrappingArithmeticOp_eq unit (fun _ => ofInt_value_add .signed) _ h1 h2 hk]
      rfl
    · change finish stack (sub host unit l r) = _
      rw [sub_integral host unit h1 h2,
        wrappingArithmeticOp_eq unit (fun _ => ofInt_value_sub .signed) _ h1 h2 hk]
      rfl
    · change finish stack (mul unit l r) = _
      rw [mul, wrappingArithmeticOp_eq unit (fun _ => ofInt_value_mul .signed) _ h1 h2 hk]
      rfl
  · intro k sgn hk a b
    refine ⟨?_, ?_, ?_⟩
    · change finish stack (checkedArithmeticOp MachineInts.checkedAdd l r sgn) = _
      rw [checkedArithmeticOp_eq (fun _ => checkedAdd_eq) h1 h2 hk, finish_checked]
    · change finish stack (checkedArithmeticOp MachineInts.checkedSub l r sgn) = _
      rw [checkedArithmeticOp_eq (fun _ => checkedSub_eq) h1 h2 hk, finish_checked]
    · change finish stack (checkedArithmeticOp checkedMul l r sgn) = _
      rw [checkedArithmeticOp_eq (fun _ => checkedMul_eq) h1 h2 hk, finish_checked]

theorem mixed_sum_exact :
    step bareHost bareUnit .add [.nativeInt 5, .int32 (-7)] = .continue [.nativeInt (-2)] ∧
      step bareHost bareUnit (.addOverflow .unsigned) [.int32 1, .int32 (-1)] =
        .thrown overflow [] := by
  have hsum := (arithmetic_exact bareHost bareUnit (.int32 (-7)) (.nativeInt 5) [] .int32
    .nativeInt rfl rfl).1 .nativeInt rfl
  have hchk := (arithmetic_exact bareHost bareUnit (.int32 (-1)) (.int32 1) [] .int32
    .int32 rfl rfl).2 .int32 .unsigned rfl
  exact ⟨hsum.1.trans (by decide), hchk.1.trans (by decide)⟩

/-- An unsigned checked sum extends the narrower operand with zeros, not with its sign. -/
theorem mixed_unsigned_zero_extends :
    value .unsigned (extend .signed 64 (-1 : BitVec 32)) = 2 ^ 64 - 1 ∧
      fits .unsigned 64 (0 + (2 ^ 64 - 1)) = true ∧
      Kind.nativeInt.wrap (0 + (2 ^ 64 - 1)) = .nativeInt (-1) ∧
      step bareHost bareUnit (.addOverflow .unsigned) [.int32 (-1), .nativeInt 0] =
        .continue [.nativeInt 4294967295] := by
  decide

end DotnetVm.RawMemory.Arithmetic
