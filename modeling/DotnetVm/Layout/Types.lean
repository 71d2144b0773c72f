import DotnetVm.Lib.Runs
import DotnetVm.Layout.Factory

/-!
# Layouts of types

The part of the factory that reads the metadata: which fields a type has, what is
stored in each, and which layouts are needed first. One class at a time is
finished by `finish`. A value type that contains itself has no layout and
sends the computation into a recursion without end; `fuel` bounds its depth.

Whatever was asked before, every layout that comes out has been put together from
such levels (`made_of_request`).
-/

namespace DotnetVm

open Trees Caching

structure FieldDefinition where
  name : String
  returnType : MemberType
  byRef : Bool
  staticMember : Bool
  runtimeSpecialName : Bool
  offset : Option Nat

/-- The fields of support types whose representation the runtime replaces. -/
inductive RuntimeSlotId where
  | runtimeTypeHandleValue | runtimeFieldHandleValue | runtimeMethodHandleValue | other
  deriving DecidableEq, Repr

structure Attribute where
  constructorParent : Option String
  firstArgument : Option Int

/-- The loader with what the layout factory reads besides the class hierarchy. -/
structure LayoutLoader extends AssemblyLoader where
  fields : TypeDescription → List FieldDefinition
  layout : TypeDescription → Layout
  attributes : TypeDescription → List Attribute
  supportSlotIdForField : TypeDescription → String → Option RuntimeSlotId

def integralToUsize (value : Int) : Option Nat :=
  if 0 < value ∧ value < 2 ^ 63 then some value.toNat else none

/-- The layouts computed so far. -/
structure LayoutCaches where
  types : List (ConcreteType × LayoutManager)
  instanceFields : List ((TypeDescription × GenericLookup) × FieldLayoutManager)

namespace LayoutCaches

def empty : LayoutCaches := ⟨[], []⟩

def getLayoutCached (c : LayoutCaches) (t : ConcreteType) : Option LayoutManager :=
  (c.types.find? fun entry => entry.1 == t).map Prod.snd

def setLayoutCached (c : LayoutCaches) (t : ConcreteType) (l : LayoutManager) : LayoutCaches :=
  { c with types := (t, l) :: c.types }

section

variable (c : LayoutCaches) (td : TypeDescription) (g : GenericLookup)

def getInstanceFieldLayoutCached : Option FieldLayoutManager :=
  (c.instanceFields.find? fun entry => decide (entry.1.1 = td) && entry.1.2 == g).map Prod.snd

def setInstanceFieldLayoutCached (m : FieldLayoutManager) : LayoutCaches :=
  { c with instanceFields := ((td, g), m) :: c.instanceFields }

end

end LayoutCaches

abbrev LayoutM := Cached LayoutCaches TypeResolutionError

structure ClassLevel where
  td : TypeDescription
  isStatic : Bool
  fields : List (String × Option Nat × LayoutManager)
  layout : Layout
  base : Option FieldLayoutManager

namespace ClassLevel

section

variable (level : ClassLevel)

def inputs : List FieldInput :=
  level.fields.map fun (name, offset, layout) => ⟨level.td, name, offset, layout⟩

def baseSize : Nat := (level.base.map FieldLayouts.totalSize).getD 0

def baseAlignment : Alignment := (level.base.map FieldLayouts.alignment).getD .one

end

end ClassLevel

/-- The names the runtime gives to the primitive types. -/
def primitiveOfName (name : String) : Option Primitive :=
  if name = "System.Boolean" then some .boolean
  else if name = "System.Char" then some .char
  else if name = "System.Byte" then some .uInt8
  else if name = "System.SByte" then some .int8
  else if name = "System.Int16" then some .int16
  else if name = "System.UInt16" then some .uInt16
  else if name = "System.Int32" then some .int32
  else if name = "System.UInt32" then some .uInt32
  else if name = "System.Int64" then some .int64
  else if name = "System.UInt64" then some .uInt64
  else if name = "System.IntPtr" then some .intPtr
  else if name = "System.UIntPtr" then some .uIntPtr
  else if name = "System.Single" then some .float32
  else if name = "System.Double" then some .float64
  else if name = "System.String" then some .string
  else if name = "System.Object" then some .object
  else none

def Primitive.scalar : Primitive → Scalar
  | .boolean => .uInt8
  | .uInt8 => .uInt8
  | .int8 => .int8
  | .char => .uInt16
  | .uInt16 => .uInt16
  | .int16 => .int16
  | .int32 => .int32
  | .uInt32 => .int32
  | .int64 => .int64
  | .uInt64 => .int64
  | .intPtr => .nativeInt
  | .uIntPtr => .nativeInt
  | .float32 => .float32
  | .float64 => .float64
  | .object => .objectRef
  | .string => .objectRef

def isByReferenceName (name : String) : Bool :=
  name = "System.ByReference`1" || name = "System.ReadOnlyByReference`1" ||
    name = "System.ByReference" || name = "System.Runtime.CompilerServices.ByReference`1" ||
    name = "System.Runtime.CompilerServices.ReadOnlyByReference`1"

namespace LayoutLoader

variable (M : LayoutLoader)

section

variable (td : TypeDescription)

def inlineArrayLength : Option Nat :=
  (M.attributes td).findSome? fun attr =>
    if attr.constructorParent = some "System.Runtime.CompilerServices.InlineArrayAttribute" then
      attr.firstArgument.bind integralToUsize
    else none

def isByrefLike : Bool :=
  (M.attributes td).any fun attr =>
    decide (attr.constructorParent = some "System.Runtime.CompilerServices.IsByRefLikeAttribute")

def isValueType : Except TypeResolutionError Bool := do
  let enumType ← M.corlibWkt .enum
  let valueType ← M.corlibWkt .valueType
  let ancestors ← M.ancestors td
  return ancestors.any fun (a, _) => decide (a = enumType) || decide (a = valueType)

def isEnum : Option MemberType :=
  match (M.definition td).extendsClause with
  | some (.user u) =>
    if M.userTypeName td.resolution u = "System.Enum" then
      match M.fields td with
      | inner :: _ =>
        if inner.runtimeSpecialName && decide (inner.name = "value__") then some inner.returnType
        else none
      | [] => none
    else none
  | _ => none

end

def normalizeType (t : ConcreteType) : Except TypeResolutionError ConcreteType :=
  match t.head.handle? with
  | none => .ok t
  | some ut =>
    match primitiveOfName (M.userTypeName t.resolution ut) with
    | some p => .ok (.node ⟨t.resolution, .primitive p⟩ [])
    | none =>
      match t.head.valueKind? with
      | some _ => .ok t
      | none => do
        let td ← M.locateType t.resolution ut
        let isValueType ← M.isValueType td
        if isValueType then
          match t.head with
          | .generic h _ => .ok (.node ⟨t.resolution, .generic h (some .valueType)⟩ t.children)
          | _ => .ok (.node ⟨t.resolution, .user ut (some .valueType)⟩ t.children)
        else .ok t

/-- The end of `collect_fields`: place the fields of one class, enter what it inherits, and repeat
the first field of an inline array. -/
def finish (level : ClassLevel) : Option (Except TypeResolutionError FieldLayoutManager) :=
  match createFieldLayout M.typeName level.inputs level.layout level.baseSize
      level.baseAlignment with
  | .error e => some (.error e)
  | .ok result =>
    let merged := mergeBase result level.base
    match M.inlineArrayLength level.td with
    | none => some (.ok merged)
    | some inlineLen =>
      if 1 < inlineLen then (repeatFirstField level.td inlineLen merged).map .ok
      else some (.ok merged)

section fields

variable (layoutOf : ConcreteType → LayoutM LayoutManager)

/-- What is stored in a field. -/
def fieldLayout (td : TypeDescription) (resolution : ResolutionS) (generics : GenericLookup)
    (f : FieldDefinition) : LayoutM LayoutManager :=
  match M.supportSlotIdForField td f.name with
  | some .runtimeTypeHandleValue => return .scalar .objectRef
  | some .runtimeFieldHandleValue => return .scalar .objectRef
  | some .runtimeMethodHandleValue => return .scalar .objectRef
  | _ =>
    if f.byRef then
      if M.isByrefLike td then return .scalar .managedPtr
      else
        Cached.ofExcept (.error (.invalidLayout ("ref field '" ++ f.name ++ "' is declared by '" ++
          M.typeName td ++ "', which is not a byref-like type")))
    else do
      let t ← Cached.ofExcept
        (generics.makeConcrete M.toTypeResolver resolution (MemberType.toMethodType f.returnType))
      layoutOf t

def declaredFields (isStatic : Bool) (td : TypeDescription) (resolution : ResolutionS)
    (generics : GenericLookup) (base : Option FieldLayoutManager) : LayoutM FieldLayoutManager := do
  let fields ← Cached.forEach (fun f => do
      let layout ← M.fieldLayout layoutOf td resolution generics f
      return (f.name, f.offset, layout))
    ((M.fields td).filter fun f => decide (f.staticMember = isStatic))
  Cached.ofOption (M.finish ⟨td, isStatic, fields, M.layout td, base⟩)

def collectFields (isStatic includeBase : Bool) :
    Ancestor → List Ancestor → ResolutionS → GenericLookup → LayoutM FieldLayoutManager
  | (td, _), [], resolution, generics =>
    M.declaredFields layoutOf isStatic td resolution generics none
  | (td, extendsGenerics), base :: rest, resolution, generics =>
    if includeBase then do
      let arguments ← Cached.forEach (fun t => Cached.ofExcept
          (generics.makeConcrete M.toTypeResolver resolution (MemberType.toMethodType t)))
        extendsGenerics
      let layout ← collectFields isStatic includeBase base rest base.1.resolution ⟨arguments, []⟩
      M.declaredFields layoutOf isStatic td resolution generics (some layout)
    else M.declaredFields layoutOf isStatic td resolution generics none

section

variable (td : TypeDescription) (generics : GenericLookup)

def fieldsOf (isStatic includeBase : Bool) :
    LayoutM FieldLayoutManager := do
  match ← Cached.ofExcept (M.ancestors td) with
  | [] => Cached.ofExcept (.error .invalidHandle)
  | first :: rest => M.collectFields layoutOf isStatic includeBase first rest td.resolution generics

def instanceFieldsWithLookup :
    LayoutM FieldLayoutManager := do
  let isValueType ← Cached.ofExcept (M.isValueType td)
  M.fieldsOf layoutOf td generics false (!isValueType)

def staticFieldsWithLookup : LayoutM FieldLayoutManager :=
  M.fieldsOf layoutOf td generics true false

end

def valueTypeLayout (t : ConcreteType) (handle : UserType) : LayoutM LayoutManager := do
  let td ← Cached.ofExcept (M.locateType t.resolution handle)
  let name := M.typeName td
  if name = "System.TypedReference" then
    Cached.ofExcept (.error (.invalidLayout
      "ECMA-335 typedref values may only occupy parameters and locals"))
  else if isByReferenceName name then return .scalar .managedPtr
  else
    match M.isEnum td with
    | some inner => do
      let stored ← Cached.ofExcept (t.makeLookup.makeConcrete M.toTypeResolver t.resolution
        (MemberType.toMethodType inner))
      layoutOf stored
    | none => do
      let m ← M.instanceFieldsWithLookup layoutOf td t.makeLookup
      return .field m

def typeLayoutInternal (t : ConcreteType) : LayoutM LayoutManager :=
  match t.head with
  | .primitive p => return .scalar p.scalar
  | .valuePointer _ => return .scalar .nativeInt
  | .functionPointer _ => return .scalar .nativeInt
  | .user h (some .valueType) => M.valueTypeLayout layoutOf t h
  | .generic h (some .valueType) => M.valueTypeLayout layoutOf t h
  | _ => return .scalar .objectRef

end fields

/-- `type_layout_cached_with_lookup`. -/
def typeLayoutCached : Nat → ConcreteType → LayoutM LayoutManager
  | 0, _ => Cached.diverge
  | fuel + 1, t => do
    let t ← Cached.ofExcept (M.normalizeType t)
    let caches ← Cached.get
    match caches.getLayoutCached t with
    | some cached => return cached
    | none =>
      let result ← M.typeLayoutInternal (typeLayoutCached fuel) t
      Cached.modify fun c => c.setLayoutCached t result
      return result

def instanceFieldLayoutCached (fuel : Nat) (td : TypeDescription) (generics : GenericLookup) :
    LayoutM FieldLayoutManager := do
  let caches ← Cached.get
  match caches.getInstanceFieldLayoutCached td generics with
  | some cached => return cached
  | none =>
    let result ← M.instanceFieldsWithLookup (M.typeLayoutCached fuel) td generics
    Cached.modify fun c => c.setInstanceFieldLayoutCached td generics result
    return result

def createArrayLayout (fuel : Nat) (element : ConcreteType) (length : Nat) :
    LayoutM LayoutManager := do
  let elementLayout ← M.typeLayoutCached fuel element
  if length > 0x40000000 ∨ 0 < length ∧ elementLayout.size > usizeMax / length then
    Cached.ofExcept (.error (.massiveAllocation ("massive array allocation attempt: length=" ++
      toString length ++ ", element_size=" ++ toString elementLayout.size)))
  else return .array elementLayout length

/-- What the runtime asks the factory for. -/
inductive LayoutRequest where
  | type (t : ConcreteType)
  | instanceFields (td : TypeDescription) (generics : GenericLookup)
  | staticFields (td : TypeDescription) (generics : GenericLookup)
  | array (element : ConcreteType) (length : Nat)

/-- Does the answer describe the static fields of a type? -/
def LayoutRequest.isStatic : LayoutRequest → Bool
  | .staticFields _ _ => true
  | _ => false

def answer (fuel : Nat) : LayoutRequest → LayoutM LayoutManager
  | .type t => M.typeLayoutCached fuel t
  | .instanceFields td generics => do
    let m ← M.instanceFieldLayoutCached fuel td generics
    return .field m
  | .staticFields td generics => do
    let m ← M.staticFieldsWithLookup (M.typeLayoutCached fuel) td generics
    return .field m
  | .array element length => M.createArrayLayout fuel element length

/-- Requests, and entries that are dropped from the caches. -/
inductive LayoutEvent where
  | request (fuel : Nat) (r : LayoutRequest)
  | evict (keepTypes : ConcreteType → Bool)
      (keepInstanceFields : TypeDescription × GenericLookup → Bool)

def layoutStep (c : LayoutCaches) : LayoutEvent → Option LayoutCaches
  | .request fuel r => (M.answer fuel r c).map Prod.snd
  | .evict keepTypes keepInstanceFields =>
    some ⟨c.types.filter fun e => keepTypes e.1,
      c.instanceFields.filter fun e => keepInstanceFields e.1⟩

/-- Caches that some sequence of requests and evictions leaves. -/
def ReachableLayouts (c : LayoutCaches) : Prop :=
  Runs.Run M.layoutStep Runs.anyStep .empty c

end LayoutLoader
end DotnetVm
