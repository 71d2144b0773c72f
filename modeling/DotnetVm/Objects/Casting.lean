import DotnetVm.Types.Comparer
import DotnetVm.Values.Scalars

/-!
# Casts, catch clauses and boxes

`castclass`, `isinst`, `unbox.any` and `unbox`, and the test of a catch clause in the
first pass. Each finds a type for the object and asks whether it is assignable, but
not the same type nor with the same special cases: the catch clause forgets the type
arguments of the object, `unbox.any` forgets the arrays, and for a value type no
type is asked for at all. The theorems say exactly where the instructions do what they
should nevertheless, whatever relation the comparer computes.
-/

namespace DotnetVm.Casting

open RawMemory (ValueType)

/-- `ConcreteType::from`, which gives no type arguments. -/
def toConcrete (td : TypeDescription) : ConcreteType :=
  .node ⟨td.resolution, .user (.definition td.index) none⟩ []

structure Object where
  description : TypeDescription
  generics : GenericLookup
  data : List (BitVec 8)

inductive HeapStorage where
  | obj (o : Object)
  | boxed (o : Object)
  | vec (element : ConcreteType)
  | str

/-- A reference, with the storage it leads to. -/
abbrev ObjectRef := Option (Nat × HeapStorage)

inductive Exception where
  | invalidCast | nullReference
  deriving DecidableEq

/-- How an instruction ends. -/
inductive Outcome where
  | reference (r : Option Nat)
  | value (v : RawMemory.StackValue)
  | address (owner : Nat) (type : TypeDescription)
  | thrown (e : Exception)
  | error (e : TypeResolutionError)
  | panicked
  deriving DecidableEq

/-- What the instructions ask of the runtime. The instructions on `Nullable<T>`, and the values
`read_cts_value` reads that are neither scalars nor enumerations, are not spelled out. -/
structure Loader extends LayoutLoader where
  resolution : ResolutionS
  generics : GenericLookup
  isAssignableTo : ConcreteType → ConcreteType → Bool
  isValueConcrete : ConcreteType → Bool
  genericArrayInterfaces : List TypeDescription
  hierarchyCached : ConcreteType → ConcreteType → Option Bool
  readOther : ConcreteType → List (BitVec 8) → Option (Except TypeResolutionError ValueType)
  unboxAnyNullable : ObjectRef → ConcreteType → Outcome
  unboxNullable : ObjectRef → ConcreteType → Outcome

namespace Loader

variable (M : Loader)

def getHeapDescription : HeapStorage → Except TypeResolutionError TypeDescription
  | .obj o | .boxed o => .ok o.description
  | .vec _ => M.corlibWkt .array
  | .str => M.corlibWkt .string

def objectRuntimeConcreteType (o : Object) : ConcreteType :=
  let typeArity := (M.definition o.description).genericParameters.length
  if typeArity = 0 then toConcrete o.description
  else
    let typeArgs := o.generics.typeGenerics.take typeArity
    if typeArgs.length ≠ typeArity then toConcrete o.description
    else .node ⟨o.description.resolution, .generic (.definition o.description.index) none⟩ typeArgs

def runtimeType : HeapStorage → Except TypeResolutionError ConcreteType
  | .obj o | .boxed o => .ok (M.objectRuntimeConcreteType o)
  | storage => (M.getHeapDescription storage).map toConcrete

def isA (value ancestor : ConcreteType) : Except TypeResolutionError Bool := do
  let value ← M.normalizeType value
  let ancestor ← M.normalizeType ancestor
  if value == ancestor then return true
  return (M.hierarchyCached value ancestor).getD (M.isAssignableTo value ancestor)

def vectorMatchesGenericArrayInterfaces (element target : ConcreteType) : Bool :=
  M.genericArrayInterfaces.any fun td =>
    M.isAssignableTo (.node ⟨td.resolution, .generic (.definition td.index) none⟩ [element]) target

def vectorMatchesArrayType (element target : ConcreteType) : Bool :=
  match target.head, target.children with
  | .vector _, targetElement :: _ =>
    M.concreteTypesEqual element targetElement ||
      (!M.isValueConcrete element && !M.isValueConcrete targetElement &&
        M.isAssignableTo element targetElement)
  | _, _ => M.vectorMatchesGenericArrayInterfaces element target

section

variable (storage : HeapStorage) (target : ConcreteType)

def storageIsA : Except TypeResolutionError Bool :=
  M.runtimeType storage >>= fun source => M.isA source target

def checkObjectAssignability : Except TypeResolutionError Bool :=
  match storage with
  | .vec element =>
    if M.vectorMatchesArrayType element target then .ok true else M.storageIsA storage target
  | _ => M.storageIsA storage target

end

/-- The reference if the test succeeds, and what `failed` gives otherwise. -/
def keepIf (id : Nat) (failed : Outcome) : Except TypeResolutionError Bool → Outcome
  | .ok true => .reference (some id)
  | .ok false => failed
  | .error e => .error e

def cast (failed : Outcome) (r : ObjectRef) (target : Except TypeResolutionError ConcreteType) :
    Outcome :=
  match r with
  | none => .reference none
  | some (id, storage) => keepIf id failed (target >>= M.checkObjectAssignability storage)

def castclass : ObjectRef → Except TypeResolutionError ConcreteType → Outcome :=
  M.cast (.thrown .invalidCast)

def isinst : ObjectRef → Except TypeResolutionError ConcreteType → Outcome :=
  M.cast (.reference none)

/-- The test of a catch clause in `search_for_handler`. -/
def catchMatches (storage : HeapStorage) (catchType : ConcreteType) :
    Except TypeResolutionError Bool :=
  M.getHeapDescription storage >>= fun td => M.isA (toConcrete td) catchType

section

variable (r : ObjectRef)

def unboxAnyReference (target : ConcreteType) : Outcome :=
  match r with
  | none => .reference none
  | some (id, .vec element) =>
    if M.vectorMatchesGenericArrayInterfaces element target then .reference (some id)
    else keepIf id (.thrown .invalidCast) (M.storageIsA (.vec element) target)
  | some (id, storage) => keepIf id (.thrown .invalidCast) (M.storageIsA storage target)

/-- The type an enumeration stores, resolved where the enumeration is. -/
def enumType (t : ConcreteType) : Option (Except TypeResolutionError ConcreteType) :=
  match t.head with
  | .user _ kind | .generic _ kind =>
    if kind = some .classKind then none
    else
      match M.findConcreteType t with
      | .error e => some (.error e)
      | .ok td => (M.isEnum td).map fun e =>
          GenericLookup.makeConcrete ⟨t.children, []⟩ M.toTypeResolver t.resolution
            (MemberType.toMethodType e)
  | _ => none

/-- The type a value is read as: an enumeration is read as the type it stores. -/
def plainType (t : ConcreteType) : Except TypeResolutionError ConcreteType := do
  let t ← M.normalizeType t
  match M.enumType t with
  | none => return t
  | some stored => stored >>= M.normalizeType

def readCtsValue (t : ConcreteType) (data : List (BitVec 8)) :
    Option (Except TypeResolutionError ValueType) :=
  match M.plainType t with
  | .error e => some (.error e)
  | .ok t =>
    match t.head with
    | .primitive .object | .primitive .string => M.readOther t data
    | .primitive p => (RawMemory.readScalarValue data p).map .ok
    | _ => M.readOther t data

def pushRead : Option (Except TypeResolutionError ValueType) → Outcome
  | none => .panicked
  | some (.error _) => .thrown .invalidCast
  | some (.ok v) => .value (RawMemory.CtsToCli.widenValueType v)

def isSystemPrimitive (td : TypeDescription) : Bool :=
  let name := (M.definition td).simple
  decide (name.nameSpace = some "System") && ["Boolean", "Char", "SByte", "Byte", "Int16", "UInt16",
    "Int32", "UInt32", "Int64", "UInt64", "Single", "Double", "IntPtr",
    "UIntPtr"].contains name.name

def unboxStored (target : ConcreteType) (o : Object) : Outcome :=
  match M.isEnum o.description with
  | some e =>
    match M.generics.makeConcrete M.toTypeResolver M.resolution (MemberType.toMethodType e) with
    | .error _ => .thrown .invalidCast
    | .ok enumType => pushRead (M.readCtsValue enumType o.data)
  | none =>
    if M.isSystemPrimitive o.description then pushRead (M.readCtsValue target o.data)
    else .value (.valueType o.description o.data)

def isNullable (t : ConcreteType) : Bool :=
  match M.findConcreteType t with
  | .ok td => decide ((M.definition td).simple = ⟨some "System", "Nullable`1"⟩)
  | .error _ => false

def unboxAnyValue (target : ConcreteType) : Outcome :=
  if M.isNullable target then M.unboxAnyNullable r target
  else
    match r with
    | none => .thrown .nullReference
    | some (_, .boxed o) | some (_, .obj o) => M.unboxStored target o
    | some _ => .thrown .invalidCast

def isValueTarget (target : ConcreteType) : Except TypeResolutionError Bool :=
  match target.head with
  | .user _ _ | .generic _ _ => M.findConcreteType target >>= M.isValueType
  | .vector _ | .array _ | .primitive .object | .primitive .string => .ok false
  | _ => .ok true

def unboxAny : Except TypeResolutionError ConcreteType → Outcome
  | .error e => .error e
  | .ok target =>
    match M.isValueTarget target with
    | .error e => .error e
    | .ok true => M.unboxAnyValue r target
    | .ok false => M.unboxAnyReference r target

def unbox : Except TypeResolutionError ConcreteType → Outcome
  | .error e => .error e
  | .ok target =>
    if M.isNullable target then M.unboxNullable r target
    else
      match r with
      | none => .thrown .nullReference
      | some (id, .boxed _) | some (id, .obj _) =>
        match M.findConcreteType target with
        | .error e => .error e
        | .ok td => .address id td
      | some _ => .thrown .invalidCast

end

variable {M}

/-- `unbox.any` of a reference type is `castclass`, exactly if on an array the generic interfaces
answer as the array types do, or `System.Array` is of the type anyway. -/
theorem unboxAny_eq_castclass_iff (r : ObjectRef) (target : ConcreteType)
    (href : M.isValueTarget target = .ok false) :
    M.unboxAny r (.ok target) = M.castclass r (.ok target) ↔
      ∀ id element, r = some (id, .vec element) →
        M.vectorMatchesArrayType element target =
            M.vectorMatchesGenericArrayInterfaces element target ∨
          M.storageIsA (.vec element) target = .ok true := by
  simp only [unboxAny, href]
  rcases r with _ | ⟨id, o | o | element | _⟩
  · exact iff_of_true rfl nofun
  · exact iff_of_true rfl nofun
  · exact iff_of_true rfl nofun
  · have hvec : (∀ id' element', some (id, HeapStorage.vec element) = some (id', .vec element') →
        M.vectorMatchesArrayType element' target =
            M.vectorMatchesGenericArrayInterfaces element' target ∨
          M.storageIsA (.vec element') target = .ok true) ↔
        M.vectorMatchesArrayType element target =
            M.vectorMatchesGenericArrayInterfaces element target ∨
          M.storageIsA (.vec element) target = .ok true :=
      ⟨fun h => h id element rfl, fun h _ _ heq => by cases heq; exact h⟩
    rw [hvec]
    change (if M.vectorMatchesGenericArrayInterfaces element target then _ else _) =
      keepIf id _ (if M.vectorMatchesArrayType element target then .ok true else _) ↔ _
    rcases M.storageIsA (.vec element) target with e | (_ | _) <;>
      cases M.vectorMatchesGenericArrayInterfaces element target <;>
      cases M.vectorMatchesArrayType element target <;> simp [keepIf]
  · exact iff_of_true rfl nofun

/-- `CTSValue::write`. -/
def storedBytes : ValueType → List (BitVec 8)
  | .bool v => [if v then 1 else 0]
  | .int8 v | .uInt8 v => [v]
  | .char v | .int16 v | .uInt16 v => Bytes.encode 2 v.toNat
  | .int32 v | .uInt32 v | .float32 v => Bytes.encode 4 v.toNat
  | .int64 v | .uInt64 v | .nativeInt v | .nativeUInt v | .float64 v => Bytes.encode 8 v.toNat
  | .pointer p => Bytes.encode 24 p.encoding.toNat
  | .struct _ data => data

lemma fromNeBytes_encode {w n : Nat} (hw : 2 ^ w = 256 ^ n) (hn : 8 * n = w) (v : BitVec w) :
    RawMemory.CtsScalarKind.fromNeBytes w (Bytes.encode n v.toNat) = some v := by
  rw [RawMemory.CtsScalarKind.fromNeBytes, Bytes.length_encode, if_pos hn,
    Bytes.ofNat_decode_encode hw]

lemma readScalarValue_storedBytes {v : ValueType} {p : Primitive} (h : v.scalarType = some p) :
    RawMemory.readScalarValue (storedBytes v) p = some v := by
  have h16 := fromNeBytes_encode (n := 2) rfl rfl
  have h32 := fromNeBytes_encode (n := 4) rfl rfl
  have h64 := fromNeBytes_encode (n := 8) rfl rfl
  cases v <;> cases h
  case bool v => cases v <;> rfl
  all_goals
    simp [RawMemory.readScalarValue, RawMemory.CtsScalarKind.fromEnumUnderlying,
      RawMemory.CtsScalarKind.readStorageValue, storedBytes, h16, h32, h64]

section

variable (M)

/-- The primitive type whose bytes a value of the type has: its own, or the one it stores. -/
def scalarOf (t : ConcreteType) : Option Primitive :=
  match M.plainType t with
  | .error _ => none
  | .ok t =>
    match t.head with
    | .primitive p => some p
    | _ => none

/-- The box is of the type, or both are primitive types or enumerations that store the same one. -/
def sameType (o : Object) (target : ConcreteType) : Bool :=
  match M.scalarOf (M.objectRuntimeConcreteType o) with
  | some p => decide (M.scalarOf target = some p)
  | none => M.concreteTypesEqual (M.objectRuntimeConcreteType o) target

/-- What `box_value` makes of a value: the object that holds its bytes. -/
inductive BoxOf (o : Object) : ValueType → Prop
  | scalar {v : ValueType} {p : Primitive} {t : ConcreteType} (hscalar : v.scalarType = some p)
      (hnorm : M.normalizeType (M.objectRuntimeConcreteType o) = .ok t)
      (hhead : t.head = .primitive p) (henum : M.isEnum o.description = none)
      (hname : M.isSystemPrimitive o.description = true) (hdata : o.data = storedBytes v) :
      BoxOf o v
  | enumeration {v : ValueType} {p : Primitive} {e : MemberType} {t t' : ConcreteType}
      (hscalar : v.scalarType = some p) (henum : M.isEnum o.description = some e)
      (hmake : M.generics.makeConcrete M.toTypeResolver M.resolution (MemberType.toMethodType e) =
        .ok t)
      (hnorm : M.normalizeType t = .ok t') (hhead : t'.head = .primitive p)
      (hdata : o.data = storedBytes v) : BoxOf o v
  | struct (henum : M.isEnum o.description = none)
      (hname : M.isSystemPrimitive o.description = false) : BoxOf o (.struct o.description o.data)

/-- What is asked of `unbox.any` and `unbox` on the box of a value: the box is of the type or both
throw, and what `unbox.any` pushes is the value that was boxed. -/
structure Unboxed (id : Nat) (o : Object) (v : ValueType) (target : ConcreteType) : Prop where
  same : M.sameType o target = true ∨
    M.unboxAny (some (id, .boxed o)) (.ok target) = .thrown .invalidCast ∧
      M.unbox (some (id, .boxed o)) (.ok target) = .thrown .invalidCast
  value : ∀ w, M.unboxAny (some (id, .boxed o)) (.ok target) = .value w →
    w = RawMemory.CtsToCli.widenValueType v

end

variable {target t : ConcreteType} {td : TypeDescription} {v : ValueType} {p : Primitive}

lemma readCtsValue_storedBytes (hsc : v.scalarType = some p) (h : M.scalarOf target = some p) :
    M.readCtsValue target (storedBytes v) = some (.ok v) := by
  have hread := readScalarValue_storedBytes hsc
  unfold scalarOf at h
  unfold readCtsValue
  split at h
  · cases h
  · next t hplain =>
    split at h
    · next hhead =>
      cases h
      simp only [hhead]
      cases v <;> cases hsc <;> simp [hread]
    · cases h

lemma scalarOf_primitive (hnorm : M.normalizeType target = .ok t) (hhead : t.head = .primitive p) :
    M.scalarOf target = some p := by
  have hplain : M.plainType target = .ok t := by
    rw [plainType, hnorm]
    change (match M.enumType t with | none => Except.ok t | some stored => _) = _
    rw [enumType, hhead]
  rw [scalarOf, hplain]
  simp only [hhead]

/-- On the box of a value of the type, `unbox.any` pushes that value. -/
lemma unboxStored_of_sameType {o : Object} (h : M.BoxOf o v)
    (hsame : M.sameType o target = true) :
    M.unboxStored target o = .value (RawMemory.CtsToCli.widenValueType v) := by
  unfold unboxStored
  cases h with
  | scalar hsc hnorm hhead henum hname hdata =>
    simp only [sameType, scalarOf_primitive hnorm hhead, decide_eq_true_eq] at hsame
    simp [henum, hname, hdata, readCtsValue_storedBytes hsc hsame, pushRead]
  | enumeration hsc henum hmake hnorm hhead hdata =>
    simp only [henum, hmake, hdata,
      readCtsValue_storedBytes hsc (scalarOf_primitive hnorm hhead), pushRead]
  | struct henum hname =>
    simp only [henum, hname]
    rfl

end Loader

def catalogued (td : TypeDescription) : SimpleName × List Variance :=
  match td.index with
  | 0 => (⟨some "System", "Array"⟩, [])
  | 1 => (⟨none, "Failure`1"⟩, [.invariant])
  | 2 => (⟨some "System", "Int32"⟩, [])
  | 3 => (⟨some "System", "SByte"⟩, [])
  | _ => (⟨some "System", "ValueType"⟩, [])

def entry (index : Nat) : TypeDescription := ⟨⟨some 0⟩, index⟩

def catalogueTypes : LayoutLoader where
  definition td :=
    ⟨(catalogued td).1, [], (catalogued td).2, none⟩
  locateType res handle :=
    match handle with
    | .definition i => .ok ⟨res, i⟩
    | .reference _ => .error (.typeNotFound "")
  corlibWkt w := .ok (entry (match w with | .array => 0 | .int32 => 2 | .sByte => 3 | _ => 4))
  canonicalTypeName name := name
  userTypeName _ handle :=
    match handle with
    | .definition 2 => "System.Int32"
    | .definition 3 => "System.SByte"
    | _ => ""
  constraintsHold _ := .ok ()
  height _ := 0
  acyclic := nofun
  fields _ := []
  layout _ := .automatic
  attributes _ := []
  supportSlotIdForField _ _ := none

def catalogue : Loader :=
  { catalogueTypes with
    resolution := ⟨some 0⟩
    generics := default
    isAssignableTo := fun s t => s == t
    isValueConcrete := fun _ => true
    genericArrayInterfaces := []
    hierarchyCached := fun _ _ => none
    readOther := fun _ _ => none
    unboxAnyNullable := fun _ _ => .panicked
    unboxNullable := fun _ _ => .panicked }

def primitiveType (p : Primitive) : ConcreteType := .node ⟨⟨some 0⟩, .primitive p⟩ []

def arrayOf (p : Primitive) : ConcreteType := .node ⟨⟨some 0⟩, .vector []⟩ [primitiveType p]

def failureOfInt32 : ConcreteType :=
  .node ⟨⟨some 0⟩, .generic (.definition 1) none⟩ [primitiveType .int32]

def thrownFailure : HeapStorage := .obj ⟨entry 1, ⟨[primitiveType .int32], []⟩, []⟩

/-- An array of integers is cast to its type by `castclass`, and not by `unbox.any`. -/
theorem array_not_unboxed :
    catalogue.castclass (some (0, .vec (primitiveType .int32))) (.ok (arrayOf .int32)) =
        .reference (some 0) ∧
      catalogue.unboxAny (some (0, .vec (primitiveType .int32))) (.ok (arrayOf .int32)) =
        .thrown .invalidCast := by
  decide +kernel

/-- It is an array of strings for neither. -/
theorem array_unboxed_as_cast :
    catalogue.unboxAny (some (0, .vec (primitiveType .int32))) (.ok (arrayOf .string)) =
      catalogue.castclass (some (0, .vec (primitiveType .int32))) (.ok (arrayOf .string)) :=
  (Loader.unboxAny_eq_castclass_iff _ (arrayOf .string) (by decide +kernel)).mpr fun _ _ heq => by
    cases heq
    exact .inl (by decide +kernel)

end DotnetVm.Casting
