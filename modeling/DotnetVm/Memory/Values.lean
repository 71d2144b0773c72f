import DotnetVm.Lib.Bytes
import DotnetVm.Layout.Types

/-!
# Values in memory

How a value of the evaluation stack is written to memory with a layout and read
back. Integers are narrowed to the width of the layout when they are written and
widened when they are read; a reference and a managed pointer are known by the
words they are serialised to, a value of a value type by its bytes.
-/

namespace DotnetVm.RawMemory

open Bytes

/-- `ManagedPtr::write` writes the encoding; a transient pointer has none that outlives its
owner. -/
structure ManagedPtr where
  encoding : BitVec 192
  transient : Bool
  deriving DecidableEq, Repr

/-- Values on the evaluation stack. -/
inductive StackValue where
  | int32 (v : BitVec 32)
  | int64 (v : BitVec 64)
  | nativeInt (v : BitVec 64)
  | nativeFloat (bits : BitVec 64)
  | objectRef (word : BitVec 64)
  | unmanagedPtr (address : BitVec 64)
  | managedPtr (p : ManagedPtr)
  | valueType (description : TypeDescription) (data : List (BitVec 8))
  deriving DecidableEq, Repr

structure Host where
  isEnum : TypeDescription → Option Primitive
  toFloat32 : BitVec 64 → BitVec 32
  ofFloat32 : BitVec 32 → BitVec 64
  address : BitVec 192 → BitVec 64
  /-- Why the words of a managed pointer cannot be read back, if they cannot. -/
  pointerError : BitVec 192 → Option String

inductive MemoryAccessError where
  | nullPointer
  | boundsCheck (offset size len : Nat)
  | typeMismatch (message : String)
  | unalignedAccess (address : Nat)
  | invalidOrigin
  deriving DecidableEq, Repr

def widenRaw (raw : BitVec 64) : Primitive → Option StackValue
  | .boolean | .uInt8 => some (.int32 ((raw.setWidth 8).setWidth 32))
  | .int8 => some (.int32 ((raw.setWidth 8).signExtend 32))
  | .char | .uInt16 => some (.int32 ((raw.setWidth 16).setWidth 32))
  | .int16 => some (.int32 ((raw.setWidth 16).signExtend 32))
  | .int32 | .uInt32 => some (.int32 (raw.setWidth 32))
  | .int64 | .uInt64 => some (.int64 raw)
  | .intPtr | .uIntPtr => some (.nativeInt raw)
  | _ => none

variable (host : Host)

section

variable (v : StackValue)

def coerceEnumToUnderlying : StackValue :=
  match v with
  | .valueType description data =>
    (((host.isEnum description).bind fun p =>
      widenRaw (BitVec.ofNat 64 (decode (data.take p.scalar.size))) p)).getD v
  | v => v

def extractInt : Except MemoryAccessError (BitVec 32) :=
  match coerceEnumToUnderlying host v with
  | .int32 v => .ok v
  | _ => .error (.typeMismatch "Expected Int32")

def extractLong : Except MemoryAccessError (BitVec 64) :=
  match coerceEnumToUnderlying host v with
  | .int64 v => .ok v
  | _ => .error (.typeMismatch "Expected Int64")

def extractNativeInt : Except MemoryAccessError (BitVec 64) :=
  match coerceEnumToUnderlying host v with
  | .nativeInt v => .ok v
  | .unmanagedPtr address => .ok address
  | _ => .error (.typeMismatch "Expected NativeInt")

end

def extractFloat : StackValue → Except MemoryAccessError (BitVec 64)
  | .nativeFloat bits => .ok bits
  | _ => .error (.typeMismatch "Expected NativeFloat")

/-- The bytes `write_value_internal` stores for a scalar. -/
def writeScalar : Scalar → StackValue → Except MemoryAccessError (List (BitVec 8))
  | .int8, v | .uInt8, v => (extractInt host v).map fun v => encode 1 (v.setWidth 8).toNat
  | .int16, v | .uInt16, v => (extractInt host v).map fun v => encode 2 (v.setWidth 16).toNat
  | .int32, v => (extractInt host v).map fun v => encode 4 v.toNat
  | .int64, v => (extractLong host v).map fun v => encode 8 v.toNat
  | .nativeInt, v => (extractNativeInt host v).map fun v => encode 8 v.toNat
  | .float32, v => (extractFloat v).map fun bits => encode 4 (host.toFloat32 bits).toNat
  | .float64, v => (extractFloat v).map fun bits => encode 8 bits.toNat
  | .managedPtr, .managedPtr p =>
    if p.transient then .error .invalidOrigin else .ok (encode 24 p.encoding.toNat)
  | .managedPtr, _ => .error (.typeMismatch "Expected ManagedPtr")
  | .objectRef, .objectRef word => .ok (encode 8 word.toNat)
  | .objectRef, _ => .error (.typeMismatch "Expected ObjectRef")

/-- The value `read_value_internal` makes of the bytes of a scalar. -/
def readScalar (bs : List (BitVec 8)) : Scalar → Except MemoryAccessError StackValue
  | .int8 => .ok (.int32 ((BitVec.ofNat 8 (decode bs)).signExtend 32))
  | .uInt8 => .ok (.int32 ((BitVec.ofNat 8 (decode bs)).setWidth 32))
  | .int16 => .ok (.int32 ((BitVec.ofNat 16 (decode bs)).signExtend 32))
  | .uInt16 => .ok (.int32 ((BitVec.ofNat 16 (decode bs)).setWidth 32))
  | .int32 => .ok (.int32 (BitVec.ofNat 32 (decode bs)))
  | .int64 => .ok (.int64 (BitVec.ofNat 64 (decode bs)))
  | .nativeInt => .ok (.nativeInt (BitVec.ofNat 64 (decode bs)))
  | .float32 => .ok (.nativeFloat (host.ofFloat32 (BitVec.ofNat 32 (decode bs))))
  | .float64 => .ok (.nativeFloat (BitVec.ofNat 64 (decode bs)))
  | .managedPtr =>
    match host.pointerError (BitVec.ofNat 192 (decode bs)) with
    | some e => .error (.typeMismatch ("ManagedPtr read failed: " ++ e))
    | none => .ok (.managedPtr ⟨BitVec.ofNat 192 (decode bs), false⟩)
  | .objectRef => .ok (.objectRef (BitVec.ofNat 64 (decode bs)))

def writeValueInternal (layout : LayoutManager) (v : StackValue) :
    Except MemoryAccessError (List (BitVec 8)) :=
  match layout with
  | .scalar s => writeScalar host s v
  | .field m =>
    match v with
    | .valueType _ data => .ok (data.take m.totalSize)
    | _ => .error (.typeMismatch "Expected ValueType for Struct write")
  | .array _ _ => .error (.typeMismatch "Cannot write entire array unaligned")

def readValueInternal (layout : LayoutManager) (description : Option TypeDescription)
    (bs : List (BitVec 8)) : Except MemoryAccessError StackValue :=
  match layout with
  | .scalar s => readScalar host bs s
  | .field m =>
    match description with
    | some description => .ok (.valueType description (bs.take m.totalSize))
    | none => .error (.typeMismatch
        "Struct read requires TypeDescription, which is not passed to read_unaligned")
  | .array _ _ => .error (.typeMismatch "Array read not supported")

/-- A value narrowed to a scalar and widened back. -/
def settle (s : Scalar) (v : StackValue) : Option StackValue :=
  match s, coerceEnumToUnderlying host v with
  | .int8, .int32 v => some (.int32 ((v.setWidth 8).signExtend 32))
  | .uInt8, .int32 v => some (.int32 ((v.setWidth 8).setWidth 32))
  | .int16, .int32 v => some (.int32 ((v.setWidth 16).signExtend 32))
  | .uInt16, .int32 v => some (.int32 ((v.setWidth 16).setWidth 32))
  | .int32, .int32 v => some (.int32 v)
  | .int64, .int64 v => some (.int64 v)
  | .nativeInt, .nativeInt v => some (.nativeInt v)
  | .nativeInt, .unmanagedPtr address => some (.nativeInt address)
  | .float32, .nativeFloat bits => some (.nativeFloat (host.ofFloat32 (host.toFloat32 bits)))
  | .float64, .nativeFloat bits => some (.nativeFloat bits)
  | .managedPtr, .managedPtr p =>
    if p.transient || (host.pointerError p.encoding).isSome then none else some (.managedPtr p)
  | .objectRef, .objectRef word => some (.objectRef word)
  | _, _ => none

variable {host}

section RoundTrip

variable {s : Scalar} {v : StackValue} {bs : List (BitVec 8)}

lemma map_eq_ok {α β ε : Type} {f : α → β} {x : Except ε α} {b : β} (h : x.map f = .ok b) :
    ∃ a, x = .ok a ∧ f a = b := by
  cases x with
  | error e => cases h
  | ok a => exact ⟨a, rfl, Except.ok.inj h⟩

lemma extractInt_eq_ok {n : BitVec 32} :
    extractInt host v = .ok n ↔ coerceEnumToUnderlying host v = .int32 n := by
  unfold extractInt
  cases coerceEnumToUnderlying host v <;> simp

lemma extractLong_eq_ok {n : BitVec 64} :
    extractLong host v = .ok n ↔ coerceEnumToUnderlying host v = .int64 n := by
  unfold extractLong
  cases coerceEnumToUnderlying host v <;> simp

lemma extractNativeInt_eq_ok {n : BitVec 64} : extractNativeInt host v = .ok n ↔
    coerceEnumToUnderlying host v = .nativeInt n ∨
      coerceEnumToUnderlying host v = .unmanagedPtr n := by
  unfold extractNativeInt
  cases coerceEnumToUnderlying host v <;> simp

lemma extractFloat_eq_ok {bits : BitVec 64} :
    extractFloat v = .ok bits ↔ v = .nativeFloat bits := by
  unfold extractFloat
  cases v <;> simp

lemma readScalar_writeScalar (h : writeScalar host s v = .ok bs) :
    bs.length = s.size ∧ settle host s v = (readScalar host bs s).toOption := by
  have h8 := ofNat_decode_encode (w := 8) (n := 1) (by decide)
  have h16 := ofNat_decode_encode (w := 16) (n := 2) (by decide)
  have h32 := ofNat_decode_encode (w := 32) (n := 4) (by decide)
  have h64 := ofNat_decode_encode (w := 64) (n := 8) (by decide)
  cases s with
  | int8 | uInt8 | int16 | uInt16 | int32 =>
    obtain ⟨n, hn, rfl⟩ := map_eq_ok h
    simp only [settle, extractInt_eq_ok.mp hn, readScalar, h8, h16, h32, length_encode,
      Scalar.size, Except.toOption, and_self]
  | int64 =>
    obtain ⟨n, hn, rfl⟩ := map_eq_ok h
    simp [settle, extractLong_eq_ok.mp hn, readScalar, h64, Scalar.size, Except.toOption]
  | nativeInt =>
    obtain ⟨n, hn, rfl⟩ := map_eq_ok h
    refine ⟨length_encode 8 _, ?_⟩
    rcases extractNativeInt_eq_ok.mp hn with hv | hv <;>
      simp only [settle, hv, readScalar, h64, Except.toOption]
  | float32 | float64 =>
    obtain ⟨bits, hbits, rfl⟩ := map_eq_ok h
    obtain rfl := extractFloat_eq_ok.mp hbits
    simp [settle, coerceEnumToUnderlying, readScalar, h32, h64, Scalar.size, Except.toOption]
  | managedPtr =>
    cases v with
    | managedPtr p =>
      simp only [writeScalar] at h
      split at h
      · cases h
      next hp =>
        obtain rfl := Except.ok.inj h
        have hword := ofNat_decode_encode (n := 24) (by decide) p.encoding
        refine ⟨length_encode 24 _, ?_⟩
        simp only [settle, coerceEnumToUnderlying, readScalar, hword]
        cases p
        cases hread : host.pointerError _ <;> simp_all [Except.toOption]
    | _ => cases h
  | objectRef =>
    cases v with
    | objectRef word =>
      obtain rfl := Except.ok.inj h
      refine ⟨length_encode 8 _, ?_⟩
      simp only [settle, coerceEnumToUnderlying, readScalar, h64, Except.toOption]
    | _ => cases h

end RoundTrip

end DotnetVm.RawMemory
