import DotnetVm.Lib.Floats
import DotnetVm.Memory.Values

/-!
# Scalars of the type system and values of the stack

A scalar has a kind of the common type system; on the evaluation stack there are only
the 32-bit, 64-bit and native integers and one floating-point kind. This is the way of
a scalar between the two: widening a value, narrowing it back, and the three decoders
that make a stack value of bytes in storage.
-/

namespace DotnetVm.RawMemory

open Bytes List

inductive CtsScalarKind where
  | boolean | char | int8 | uInt8 | int16 | uInt16 | int32 | uInt32 | int64 | uInt64
  | nativeInt | nativeUInt
  deriving DecidableEq, Repr

inductive ValueType where
  | bool (v : Bool)
  | char (v : BitVec 16)
  | int8 (v : BitVec 8)
  | uInt8 (v : BitVec 8)
  | int16 (v : BitVec 16)
  | uInt16 (v : BitVec 16)
  | int32 (v : BitVec 32)
  | uInt32 (v : BitVec 32)
  | int64 (v : BitVec 64)
  | uInt64 (v : BitVec 64)
  | nativeInt (v : BitVec 64)
  | nativeUInt (v : BitVec 64)
  | pointer (p : RawMemory.ManagedPtr)
  | float32 (bits : BitVec 32)
  | float64 (bits : BitVec 64)
  | struct (description : TypeDescription) (data : List (BitVec 8))
  deriving DecidableEq, Repr

/-- The type operand of an indirect load. -/
inductive LoadType where
  | int8 | uInt8 | int16 | uInt16 | int32 | uInt32 | int64 | float32 | float64 | intPtr | object
  deriving DecidableEq, Repr

namespace CtsScalarKind

def fromEnumUnderlying : Primitive → Option CtsScalarKind
  | .boolean => some .boolean
  | .char => some .char
  | .int8 => some .int8
  | .uInt8 => some .uInt8
  | .int16 => some .int16
  | .uInt16 => some .uInt16
  | .int32 => some .int32
  | .uInt32 => some .uInt32
  | .int64 => some .int64
  | .uInt64 => some .uInt64
  | .intPtr => some .nativeInt
  | .uIntPtr => some .nativeUInt
  | .float32 | .float64 | .object | .string => none

def fromLoadType : LoadType → Option CtsScalarKind
  | .int8 => some .int8
  | .uInt8 => some .uInt8
  | .int16 => some .int16
  | .uInt16 => some .uInt16
  | .int32 => some .int32
  | .uInt32 => some .uInt32
  | .int64 => some .int64
  | .intPtr => some .nativeInt
  | .float32 | .float64 | .object => none

def storageSize : CtsScalarKind → Nat
  | .boolean | .int8 | .uInt8 => 1
  | .char | .int16 | .uInt16 => 2
  | .int32 | .uInt32 => 4
  | .int64 | .uInt64 => 8
  | .nativeInt | .nativeUInt => 8

def widenRaw (raw : BitVec 64) : CtsScalarKind → StackValue
  | .boolean | .uInt8 => .int32 ((raw.setWidth 8).setWidth 32)
  | .int8 => .int32 ((raw.setWidth 8).signExtend 32)
  | .char | .uInt16 => .int32 ((raw.setWidth 16).setWidth 32)
  | .int16 => .int32 ((raw.setWidth 16).signExtend 32)
  | .int32 => .int32 (raw.setWidth 32)
  | .uInt32 => .int32 (raw.setWidth 32)
  | .int64 | .uInt64 => .int64 raw
  | .nativeInt | .nativeUInt => .nativeInt raw

def fromNeBytes (w : Nat) (data : List (BitVec 8)) : Option (BitVec w) :=
  if 8 * data.length = w then some (BitVec.ofNat w (decode data)) else none

/-- A host panic, on a slice of another length, is `none`. -/
def readStorageValue (data : List (BitVec 8)) : CtsScalarKind → Option ValueType
  | .boolean => data.head?.map fun b => .bool (b != 0)
  | .char => (fromNeBytes 16 data).map .char
  | .int8 => data.head?.map .int8
  | .uInt8 => data.head?.map .uInt8
  | .int16 => (fromNeBytes 16 data).map .int16
  | .uInt16 => (fromNeBytes 16 data).map .uInt16
  | .int32 => (fromNeBytes 32 data).map .int32
  | .uInt32 => (fromNeBytes 32 data).map .uInt32
  | .int64 => (fromNeBytes 64 data).map .int64
  | .uInt64 => (fromNeBytes 64 data).map .uInt64
  | .nativeInt => (fromNeBytes 64 data).map .nativeInt
  | .nativeUInt => (fromNeBytes 64 data).map .nativeUInt

end CtsScalarKind

namespace CtsToCli

open CtsScalarKind

def widenValueType : ValueType → StackValue
  | .bool v => CtsScalarKind.widenRaw ((BitVec.ofBool v).setWidth 64) .boolean
  | .char v => CtsScalarKind.widenRaw (v.setWidth 64) .char
  | .int8 v => CtsScalarKind.widenRaw (v.setWidth 64) .int8
  | .uInt8 v => CtsScalarKind.widenRaw (v.setWidth 64) .uInt8
  | .int16 v => CtsScalarKind.widenRaw (v.setWidth 64) .int16
  | .uInt16 v => CtsScalarKind.widenRaw (v.setWidth 64) .uInt16
  | .int32 v => CtsScalarKind.widenRaw (v.setWidth 64) .int32
  | .uInt32 v => CtsScalarKind.widenRaw (v.setWidth 64) .uInt32
  | .int64 v => CtsScalarKind.widenRaw v .int64
  | .uInt64 v => CtsScalarKind.widenRaw v .uInt64
  | .nativeInt v => CtsScalarKind.widenRaw v .nativeInt
  | .nativeUInt v => CtsScalarKind.widenRaw v .nativeUInt
  | .pointer p => .managedPtr p
  | .float32 bits => .nativeFloat (Floats.widen bits)
  | .float64 bits => .nativeFloat bits
  | .struct description data => .valueType description data

def readLeU64Prefix (data : List (BitVec 8)) (width : Nat) : BitVec 64 :=
  BitVec.ofNat 64 (decode (data.take width))

def widenEnumUnderlyingBytes (p : Primitive) (data : List (BitVec 8)) : Option StackValue :=
  (fromEnumUnderlying p).map fun scalar =>
    CtsScalarKind.widenRaw (readLeU64Prefix data scalar.storageSize) scalar

/-- Object loads do not come here. -/
def widenLoadAtomicRaw (load : LoadType) (raw : BitVec 64) : Option StackValue :=
  match fromLoadType load, load with
  | some scalar, _ => some (CtsScalarKind.widenRaw raw scalar)
  | none, .float32 => some (.nativeFloat (Floats.widen (raw.setWidth 32)))
  | none, .float64 => some (.nativeFloat raw)
  | none, _ => none

end CtsToCli

/-- The width `load_atomic` reads. -/
def LoadType.size : LoadType → Nat
  | .int8 | .uInt8 => 1
  | .int16 | .uInt16 => 2
  | .int32 | .uInt32 | .float32 => 4
  | .int64 | .float64 => 8
  | .intPtr => 8
  | .object => 8

/-- `load_atomic`, from the bytes at the address. -/
def loadAtomic (load : LoadType) (data : List (BitVec 8)) : Option StackValue :=
  CtsToCli.widenLoadAtomicRaw load (BitVec.ofNat 64 (decode (data.take load.size)))

/-- An integer type of the host with `w` bits. -/
structure IntType (w : Nat) where
  signed : Bool
  name : String

namespace IntType

def u8 : IntType 8 := ⟨false, "u8"⟩

def i8 : IntType 8 := ⟨true, "i8"⟩

def u16 : IntType 16 := ⟨false, "u16"⟩

def i16 : IntType 16 := ⟨true, "i16"⟩

def i32 : IntType 32 := ⟨true, "i32"⟩

def isize : IntType 64 := ⟨true, "isize"⟩

def usize : IntType 64 := ⟨false, "usize"⟩

variable {w : Nat} {T : IntType w}

/-- `try_from`: the number, if it is one of the type. -/
def tryFrom (T : IntType w) (n : Int) : Option (BitVec w) :=
  if T.signed then
    if -2 ^ (w - 1) ≤ n ∧ n < 2 ^ (w - 1) then some (BitVec.ofInt w n) else none
  else if 0 ≤ n ∧ n < 2 ^ w then some (BitVec.ofInt w n) else none

lemma tryFrom_toInt (h : T.signed = true) (v : BitVec w) : T.tryFrom v.toInt = some v := by
  have hlow := BitVec.le_toInt v
  have hhigh := BitVec.toInt_lt (x := v)
  rw [tryFrom, if_pos h, if_pos ⟨hlow, hhigh⟩, BitVec.ofInt_toInt]

lemma tryFrom_toNat (h : T.signed = false) (v : BitVec w) : T.tryFrom v.toNat = some v := by
  have hhigh : (v.toNat : Int) < 2 ^ w := by exact_mod_cast v.isLt
  rw [tryFrom, if_neg (by simp [h]), if_pos ⟨Int.natCast_nonneg _, hhigh⟩, BitVec.ofInt_natCast,
    BitVec.ofNat_toNat, BitVec.setWidth_eq]

end IntType

/-- `TypeResolutionError::InvalidLayout`. -/
structure InvalidLayout where
  message : String
  deriving DecidableEq, Repr

namespace CliToCts

section Narrowing

-- `debug` is how a stack value is printed.
variable (host : Host) (debug : StackValue → String)

section

variable (data : StackValue)

def convertU32 : Except InvalidLayout (BitVec 32) :=
  match coerceEnumToUnderlying host data with
  | .int32 i => .ok i
  | .nativeInt i => .ok (i.setWidth 32)
  | .unmanagedPtr address => .ok (address.setWidth 32)
  | .managedPtr p =>
    if p.transient then
      .error ⟨"cannot convert a Transient managed pointer to an integer"⟩
    else .ok ((host.address p.encoding).setWidth 32)
  | other => .error ⟨"invalid stack value " ++ debug other ++ " for conversion into u32"⟩

def orInvalidLayout {α : Type} (x : Option α) (message : String) : Except InvalidLayout α :=
  match x with
  | some a => .ok a
  | none => .error ⟨message⟩

def convertNum {w : Nat} (T : IntType w) (data : StackValue) : Except InvalidLayout (BitVec w) :=
  match coerceEnumToUnderlying host data with
  | .int32 i => orInvalidLayout (T.tryFrom i.toInt) ("failed to convert from i32 into " ++ T.name)
  | .nativeInt i =>
    orInvalidLayout (T.tryFrom i.toInt) ("failed to convert from isize into " ++ T.name)
  | .unmanagedPtr address =>
    orInvalidLayout (T.tryFrom address.toNat)
      ("failed to convert unmanaged pointer into " ++ T.name)
  | .managedPtr p =>
    if p.transient then
      .error ⟨"cannot convert a Transient managed pointer to an integer"⟩
    else
      orInvalidLayout (T.tryFrom (host.address p.encoding).toNat)
        ("failed to convert managed pointer into " ++ T.name)
  | other => .error ⟨"invalid stack value " ++ debug other ++ " for conversion into " ++ T.name⟩

def convertI64 : Except InvalidLayout (BitVec 64) :=
  match coerceEnumToUnderlying host data with
  | .int64 i => .ok i
  | other => .error ⟨"invalid stack value " ++ debug other ++ " for integer conversion"⟩

def reinterpretI64AsU64 : Except InvalidLayout (BitVec 64) :=
  match coerceEnumToUnderlying host data with
  | .int64 i => .ok i
  | other => .error ⟨"invalid stack value " ++ debug other ++ " for u64 reinterpretation"⟩

def narrowScalarValue : CtsScalarKind → Except InvalidLayout ValueType
  | .boolean => (convertNum host debug .u8 data).map fun n => .bool (n != 0)
  | .char => (convertNum host debug .u16 data).map .char
  | .int8 => (convertNum host debug .i8 data).map .int8
  | .uInt8 => (convertNum host debug .u8 data).map .uInt8
  | .int16 => (convertNum host debug .i16 data).map .int16
  | .uInt16 => (convertNum host debug .u16 data).map .uInt16
  | .int32 => (convertNum host debug .i32 data).map .int32
  | .uInt32 => (convertU32 host debug data).map .uInt32
  | .int64 => (convertI64 host debug data).map .int64
  | .uInt64 => (reinterpretI64AsU64 host debug data).map .uInt64
  | .nativeInt => (convertNum host debug .isize data).map .nativeInt
  | .nativeUInt => (convertNum host debug .usize data).map .nativeUInt

def narrowFloat32 : StackValue → Except InvalidLayout ValueType
  | .nativeFloat bits => .ok (.float32 (Floats.narrow bits))
  | other => .error ⟨"invalid stack value " ++ debug other ++ " for conversion into f32"⟩

def narrowFloat64 : StackValue → Except InvalidLayout ValueType
  | .nativeFloat bits => .ok (.float64 bits)
  | other => .error ⟨"invalid stack value " ++ debug other ++ " for conversion into f64"⟩

/-- What `new_cts_value` does for a scalar type; the other primitive types are references. -/
def newScalarValue (p : Primitive) : Option (Except InvalidLayout ValueType) :=
  match CtsScalarKind.fromEnumUnderlying p, p with
  | some kind, _ => some (narrowScalarValue host debug data kind)
  | none, .float32 => some (narrowFloat32 debug data)
  | none, .float64 => some (narrowFloat64 debug data)
  | none, _ => none

end

end Narrowing

end CliToCts

namespace ValueType

def scalarType : ValueType → Option Primitive
  | .bool _ => some .boolean
  | .char _ => some .char
  | .int8 _ => some .int8
  | .uInt8 _ => some .uInt8
  | .int16 _ => some .int16
  | .uInt16 _ => some .uInt16
  | .int32 _ => some .int32
  | .uInt32 _ => some .uInt32
  | .int64 _ => some .int64
  | .uInt64 _ => some .uInt64
  | .nativeInt _ => some .intPtr
  | .nativeUInt _ => some .uIntPtr
  | .float32 _ => some .float32
  | .float64 _ => some .float64
  | .pointer _ | .struct _ _ => none

def survives : ValueType → Bool
  | .nativeUInt v => decide (v.toNat < 2 ^ 63)
  | .float32 bits => !Floats.isSignalling (bits.toNat % 2 ^ 31)
  | _ => true

end ValueType

section Survival

open CliToCts CtsToCli

variable (host : Host) (debug : StackValue → String) {w : Nat} {T : IntType w}

lemma convertNum_int32 {i : BitVec 32} {v : BitVec w} (h : T.tryFrom i.toInt = some v) :
    convertNum host debug T (.int32 i) = .ok v := by
  simp only [convertNum, coerceEnumToUnderlying, h, orInvalidLayout]

lemma convertNum_nativeInt {i : BitVec 64} {v : BitVec w} (h : T.tryFrom i.toInt = some v) :
    convertNum host debug T (.nativeInt i) = .ok v := by
  simp only [convertNum, coerceEnumToUnderlying, h, orInvalidLayout]

lemma toInt_setWidth_of_lt (hw : w < 32) (v : BitVec w) : (v.setWidth 32).toInt = v.toNat := by
  have hlt : v.toNat < 2 ^ 31 := lt_of_lt_of_le v.isLt (Nat.pow_le_pow_right (by decide) (by omega))
  have hnat : (v.setWidth 32).toNat = v.toNat := by
    rw [BitVec.toNat_setWidth]
    exact Nat.mod_eq_of_lt (by omega)
  rw [BitVec.toInt_eq_toNat_of_lt (by omega), hnat]

lemma setWidth_setWidth_of_le {n : Nat} (h : w ≤ n) (v : BitVec w) :
    (v.setWidth n).setWidth w = v := by
  rw [BitVec.setWidth_setWidth_of_le _ h, BitVec.setWidth_eq]

lemma convertNum_zeroExtended (hT : T.signed = false) (hw : w < 32) (v : BitVec w) :
    convertNum host debug T (.int32 (v.setWidth 32)) = .ok v := by
  apply convertNum_int32
  rw [toInt_setWidth_of_lt hw, IntType.tryFrom_toNat hT]

lemma convertNum_signExtended (hT : T.signed = true) (hw : w ≤ 32) (v : BitVec w) :
    convertNum host debug T (.int32 (v.signExtend 32)) = .ok v := by
  apply convertNum_int32
  rw [BitVec.toInt_signExtend_of_le hw, IntType.tryFrom_toInt hT]

lemma convertNum_usize (v : BitVec 64) :
    convertNum host debug .usize (.nativeInt v) = .ok v ↔ v.toNat < 2 ^ 63 := by
  by_cases h : v.toNat < 2 ^ 63
  · have hint : v.toInt = v.toNat := BitVec.toInt_eq_toNat_of_lt (by omega)
    refine iff_of_true (convertNum_nativeInt host debug ?_) h
    rw [hint, IntType.tryFrom_toNat rfl]
  · have hneg : v.toInt < 0 := by
      rw [BitVec.toInt_eq_toNat_cond]
      omega
    have hno : IntType.usize.tryFrom v.toInt = none := by
      rw [IntType.tryFrom, if_neg (by decide), if_neg (by omega)]
    refine iff_of_false ?_ h
    simp only [convertNum, coerceEnumToUnderlying, hno]
    intro h
    cases h

lemma map_ok {α β : Type} {x : Except InvalidLayout α} {a : α} (f : α → β) (h : x = .ok a) :
    x.map f = .ok (f a) := by
  rw [h, Except.map]

lemma narrowScalarValue_widen {v : ValueType} {p : Primitive} {kind : CtsScalarKind}
    (hp : v.scalarType = some p) (hkind : CtsScalarKind.fromEnumUnderlying p = some kind)
    (hne : kind ≠ .nativeUInt) : narrowScalarValue host debug (widenValueType v) kind = .ok v := by
  cases v with
  | pointer | struct | float32 | float64 => cases hp; try cases hkind
  | nativeUInt v => cases hp; cases hkind; exact absurd rfl hne
  | bool v => cases hp; cases hkind; cases v <;> rfl
  | char v | uInt8 v | uInt16 v =>
    cases hp; cases hkind
    simp only [widenValueType, CtsScalarKind.widenRaw]
    rw [setWidth_setWidth_of_le (by decide)]
    exact map_ok _ (convertNum_zeroExtended host debug rfl (by decide) v)
  | int8 v | int16 v =>
    cases hp; cases hkind
    simp only [widenValueType, CtsScalarKind.widenRaw]
    rw [setWidth_setWidth_of_le (by decide)]
    exact map_ok _ (convertNum_signExtended host debug rfl (by decide) v)
  | int32 v =>
    cases hp; cases hkind
    simp only [widenValueType, CtsScalarKind.widenRaw]
    rw [setWidth_setWidth_of_le (by decide)]
    exact map_ok _ (convertNum_int32 host debug (IntType.tryFrom_toInt rfl v))
  | uInt32 v =>
    cases hp; cases hkind
    simp only [widenValueType, CtsScalarKind.widenRaw]
    rw [setWidth_setWidth_of_le (by decide)]
    rfl
  | int64 v | uInt64 v => cases hp; cases hkind; rfl
  | nativeInt v =>
    cases hp; cases hkind
    exact map_ok _ (convertNum_nativeInt host debug (IntType.tryFrom_toInt rfl v))

lemma narrowScalarValue_widen_nativeUInt (v : BitVec 64) :
    narrowScalarValue host debug (widenValueType (.nativeUInt v)) .nativeUInt =
      .ok (.nativeUInt v) ↔ v.toNat < 2 ^ 63 := by
  rw [← convertNum_usize host debug]
  constructor
  · intro h
    obtain ⟨u, hu, huv⟩ := map_eq_ok h
    obtain rfl := ValueType.nativeUInt.inj huv
    exact hu
  · exact map_ok ValueType.nativeUInt

end Survival

/-- A scalar that is widened for the stack narrows back to itself exactly if it is no native
unsigned integer with the top bit set and no signalling NaN of single precision. -/
theorem narrow_widen_scalar_iff (host : Host) (debug : StackValue → String) (v : ValueType)
    (p : Primitive) (hp : v.scalarType = some p) :
    CliToCts.newScalarValue host debug (CtsToCli.widenValueType v) p = some (.ok v) ↔
      v.survives = true := by
  have hintegral (kind : CtsScalarKind)
      (hkind : CtsScalarKind.fromEnumUnderlying p = some kind) (hne : kind ≠ .nativeUInt) :
      some (CliToCts.narrowScalarValue host debug (CtsToCli.widenValueType v) kind) =
        some (.ok v) ↔ true = true :=
    iff_of_true (congrArg some (narrowScalarValue_widen host debug hp hkind hne)) rfl
  cases v with
  | pointer p => cases hp
  | struct description data => cases hp
  | nativeUInt v =>
    cases hp
    rw [ValueType.survives, decide_eq_true_eq, ← narrowScalarValue_widen_nativeUInt host debug]
    exact Option.some_inj
  | float32 bits =>
    cases hp
    rw [ValueType.survives, Bool.not_eq_true', ← Floats.narrow_widen_eq_iff]
    refine Option.some_inj.trans (Except.ok.injEq .. |>.to_iff.trans ?_)
    exact (ValueType.float32.injEq ..).to_iff
  | float64 bits => cases hp; exact iff_of_true rfl rfl
  | bool v | char v | int8 v | uInt8 v | int16 v | uInt16 v | int32 v | uInt32 v | int64 v
  | uInt64 v | nativeInt v =>
    cases hp
    exact hintegral _ rfl (by decide)

def bareHost : Host := ⟨fun _ => none, Floats.narrow, Floats.widen, fun _ => 0, fun _ => none⟩

theorem widened_minus_one_narrows :
    CliToCts.newScalarValue bareHost (fun _ => "") (CtsToCli.widenValueType (.int16 0xFFFF))
        .int16 = some (.ok (.int16 0xFFFF)) :=
  (narrow_widen_scalar_iff bareHost (fun _ => "") (.int16 0xFFFF) .int16 rfl).mpr rfl

/-- The native unsigned integer with only the top bit set does not narrow back, and a signalling
NaN comes back as a quiet one. -/
theorem top_bit_and_signalling_lost :
    CliToCts.newScalarValue bareHost (fun _ => "")
        (CtsToCli.widenValueType (.nativeUInt 0x8000000000000000)) .uIntPtr =
      some (.error ⟨"failed to convert from isize into usize"⟩) ∧
    CliToCts.newScalarValue bareHost (fun _ => "")
        (CtsToCli.widenValueType (.float32 0x7F800001)) .float32 =
      some (.ok (.float32 0x7FC00001)) :=
  ⟨rfl, rfl⟩

/-- What `read_cts_value` does for a scalar type. -/
def readScalarValue (data : List (BitVec 8)) (p : Primitive) : Option ValueType :=
  match CtsScalarKind.fromEnumUnderlying p, p with
  | some kind, _ => kind.readStorageValue data
  | none, .float32 => (CtsScalarKind.fromNeBytes 32 data).map .float32
  | none, .float64 => (CtsScalarKind.fromNeBytes 64 data).map .float64
  | none, _ => none

/-- The bytes a scalar type takes in storage. -/
def scalarWidth (p : Primitive) : Option Nat :=
  match CtsScalarKind.fromEnumUnderlying p, p with
  | some kind, _ => some kind.storageSize
  | none, .float32 => some 4
  | none, .float64 => some 8
  | none, _ => none

def LoadType.loads : LoadType → Primitive → Bool
  | .int8, .int8 | .uInt8, .uInt8 | .uInt8, .boolean => true
  | .int16, .int16 | .uInt16, .uInt16 | .uInt16, .char => true
  | .int32, .int32 | .uInt32, .uInt32 => true
  | .int64, .int64 | .int64, .uInt64 => true
  | .intPtr, .intPtr | .intPtr, .uIntPtr => true
  | .float32, .float32 | .float64, .float64 => true
  | _, _ => false

section Decoders

open CtsScalarKind CtsToCli

variable {data : List (BitVec 8)}

lemma fromNeBytes_of_length {w : Nat} (hw : 8 * data.length = w) :
    fromNeBytes w data = some (BitVec.ofNat w (decode data)) := by
  rw [fromNeBytes, if_pos hw]

lemma setWidth_ofNat_decode {w : Nat} (hw : 8 * data.length = w) :
    (BitVec.ofNat w (decode data)).setWidth 64 = BitVec.ofNat 64 (decode data) := by
  have hlt : decode data < 2 ^ w := by
    rw [← hw, pow_mul]
    exact decode_lt data
  apply BitVec.eq_of_toNat_eq
  rw [BitVec.toNat_setWidth, BitVec.toNat_ofNat, BitVec.toNat_ofNat, Nat.mod_eq_of_lt hlt]

lemma decode_singleton (b : BitVec 8) : decode [b] = b.toNat := by
  rw [decode, decode, mul_zero, add_zero]

variable {kind : CtsScalarKind}

lemma widen_readStorageValue (hlen : data.length = kind.storageSize)
    (hkind : kind = .boolean → decode data ≤ 1) :
    (kind.readStorageValue data).map widenValueType =
      some (kind.widenRaw (BitVec.ofNat 64 (decode data))) := by
  cases kind with
  | boolean =>
    obtain ⟨b, rfl⟩ := length_eq_one_iff.mp hlen
    have hb : b.toNat ≤ 1 := by exact hkind rfl
    obtain rfl | rfl : b = 0#8 ∨ b = 1#8 := by
      rcases Nat.le_one_iff_eq_zero_or_eq_one.mp hb with hz | hone
      · exact .inl (BitVec.eq_of_toNat_eq hz)
      · exact .inr (BitVec.eq_of_toNat_eq hone)
    · rfl
    · rfl
  | int8 | uInt8 =>
    obtain ⟨b, rfl⟩ := length_eq_one_iff.mp hlen
    rw [decode_singleton, BitVec.ofNat_toNat]
    rfl
  | char | int16 | uInt16 | int32 | uInt32 =>
    simp only [storageSize] at hlen
    rw [readStorageValue, fromNeBytes_of_length (by omega), Option.map_some, Option.map_some,
      widenValueType, setWidth_ofNat_decode (by omega)]
  | int64 | uInt64 | nativeInt | nativeUInt =>
    simp only [storageSize] at hlen
    rw [readStorageValue, fromNeBytes_of_length (by omega)]
    rfl

lemma widen_readStorageValue_boolean {b : BitVec 8}
    (h : (readStorageValue [b] .boolean).map widenValueType =
      some (CtsScalarKind.widenRaw (BitVec.ofNat 64 (decode [b])) .boolean)) : b.toNat ≤ 1 := by
  revert b
  decide

lemma loadAtomic_of_loads {load : LoadType} {p : Primitive}
    (hkind : fromEnumUnderlying p = some kind) (hload : load.loads p = true)
    (hlen : data.length = kind.storageSize) :
    loadAtomic load data = some (kind.widenRaw (BitVec.ofNat 64 (decode data))) := by
  have hsize : load.size = data.length := by
    rw [hlen]
    cases load <;> cases p <;> cases hload <;> cases hkind <;> rfl
  rw [loadAtomic, hsize, take_length]
  cases load <;> cases p <;> cases hload <;> cases hkind <;> rfl

lemma floating_of_scalarWidth {p : Primitive} {n : Nat} (hkind : fromEnumUnderlying p = none)
    (hwd : scalarWidth p = some n) : p = .float32 ∧ n = 4 ∨ p = .float64 ∧ n = 8 := by
  cases p <;> cases hkind <;> cases hwd
  · exact .inl ⟨rfl, rfl⟩
  · exact .inr ⟨rfl, rfl⟩

end Decoders

/-- The three decoders make one stack value of the bytes of a scalar, unless the scalar is a
Boolean with a byte other than zero and one. -/
theorem decoders_agree_iff (p : Primitive) (data : List (BitVec 8))
    (hwidth : scalarWidth p = some data.length) :
    (∃ v, (readScalarValue data p).map CtsToCli.widenValueType = some v ∧
      ((CtsScalarKind.fromEnumUnderlying p).isSome →
        CtsToCli.widenEnumUnderlyingBytes p data = some v) ∧
      ∀ load : LoadType, load.loads p = true → loadAtomic load data = some v) ↔
    (p = .boolean → decode data ≤ 1) := by
  cases hkind : CtsScalarKind.fromEnumUnderlying p with
  | some kind =>
    have hlen : data.length = kind.storageSize := by
      simp only [scalarWidth, hkind] at hwidth
      exact (Option.some.inj hwidth).symm
    have henum : CtsToCli.widenEnumUnderlyingBytes p data =
        some (kind.widenRaw (BitVec.ofNat 64 (decode data))) := by
      rw [CtsToCli.widenEnumUnderlyingBytes, hkind, Option.map_some,
        CtsToCli.readLeU64Prefix, take_of_length_le (le_of_eq hlen)]
    have hread : readScalarValue data p = kind.readStorageValue data := by
      simp only [readScalarValue, hkind]
    have hboolean : p = .boolean ↔ kind = .boolean := by
      cases p <;> cases hkind <;> decide
    rw [hread, hboolean]
    constructor
    · rintro ⟨v, hstor, hv, -⟩ rfl
      obtain ⟨b, rfl⟩ := length_eq_one_iff.mp hlen
      apply widen_readStorageValue_boolean
      rw [hstor, ← hv rfl, henum]
    · intro h
      refine ⟨_, widen_readStorageValue hlen h, fun _ => henum, ?_⟩
      intro load hload
      exact loadAtomic_of_loads hkind hload hlen
  | none =>
    have hp : p ≠ .boolean := by
      rintro rfl
      cases hkind
    refine iff_of_true ?_ fun h => absurd h hp
    simp only [Option.isSome_none, Bool.false_eq_true, false_implies, true_and]
    rcases floating_of_scalarWidth hkind hwidth with ⟨rfl, hlen⟩ | ⟨rfl, hlen⟩
    · refine ⟨.nativeFloat (Floats.widen (BitVec.ofNat 32 (decode data))), ?_, ?_⟩
      · have hbytes : CtsScalarKind.fromNeBytes 32 data = some (BitVec.ofNat 32 (decode data)) :=
          fromNeBytes_of_length (by omega)
        simp only [readScalarValue, hbytes]
        rfl
      · intro load hload
        cases load <;> cases hload
        rw [loadAtomic, LoadType.size, take_of_length_le (le_of_eq hlen)]
        simp only [CtsToCli.widenLoadAtomicRaw, CtsScalarKind.fromLoadType]
        rw [BitVec.setWidth_ofNat_of_le (by decide)]
    · refine ⟨.nativeFloat (BitVec.ofNat 64 (decode data)), ?_, ?_⟩
      · have hbytes : CtsScalarKind.fromNeBytes 64 data = some (BitVec.ofNat 64 (decode data)) :=
          fromNeBytes_of_length (by omega)
        simp only [readScalarValue, hbytes]
        rfl
      · intro load hload
        cases load <;> cases hload
        rw [loadAtomic, LoadType.size, take_of_length_le (le_of_eq hlen)]
        rfl

theorem int16_decoders_agree :
    ∃ v, (readScalarValue [0xFE, 0xFF] .int16).map CtsToCli.widenValueType = some v ∧
      ((CtsScalarKind.fromEnumUnderlying .int16).isSome →
        CtsToCli.widenEnumUnderlyingBytes .int16 [0xFE, 0xFF] = some v) ∧
      ∀ load : LoadType, load.loads .int16 = true → loadAtomic load [0xFE, 0xFF] = some v :=
  (decoders_agree_iff .int16 [0xFE, 0xFF] rfl).mpr (by intro h; cases h)

/-- A Boolean with the byte two is true in storage and stays two as an enum. -/
theorem boolean_two_differs :
    (readScalarValue [2] .boolean).map CtsToCli.widenValueType = some (.int32 1) ∧
      CtsToCli.widenEnumUnderlyingBytes .boolean [2] = some (.int32 2) ∧
      loadAtomic .uInt8 [2] = some (.int32 2) :=
  ⟨rfl, rfl, rfl⟩

end DotnetVm.RawMemory
