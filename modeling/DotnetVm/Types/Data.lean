import DotnetVm.Lib.Trees

/-!
# Metadata and runtime types

The metadata a loaded assembly gives to the runtime, as far as type comparison
reads it, and the fully specialised runtime types. A type of
the source's `BaseType` is a tree: the constructor and its own data are the
label of a node, the types it is built from are the children. A concrete type
carries at each node the assembly in which its handles are to be read; a type
in a signature has generic parameters for leaves.
-/

namespace DotnetVm

open Trees

/-- The assembly a handle is resolved in, known by identity; `none` is the null sentinel. -/
structure ResolutionS where
  arena : Option Nat
  deriving DecidableEq, Repr

def ResolutionS.isNull (r : ResolutionS) : Bool := r.arena.isNone

/-- A handle into the type tables of an assembly. -/
inductive UserType where
  | definition (index : Nat)
  | reference (index : Nat)
  deriving DecidableEq, Repr

/-- The annotation a signature may carry on a type handle. -/
inductive ValueKind where
  | classKind
  | valueType
  deriving DecidableEq, Repr

/-- The constructors of `BaseType` that have no components. -/
inductive Primitive where
  | boolean | char | int8 | uInt8 | int16 | uInt16 | int32 | uInt32 | int64 | uInt64
  | float32 | float64 | intPtr | uIntPtr | object | string
  deriving DecidableEq, Repr

inductive CustomTypeModifier where
  | optional (handle : UserType)
  | required (handle : UserType)
  deriving DecidableEq, Repr

structure ArrayShape where
  rank : Nat
  sizes : List Nat
  lowerBounds : List Int
  deriving DecidableEq, Repr

inductive TypeHead where
  | user (handle : UserType) (valueKind : Option ValueKind)
  | generic (handle : UserType) (valueKind : Option ValueKind)
  | primitive (p : Primitive)
  | vector (modifiers : List CustomTypeModifier)
  | array (shape : ArrayShape)
  | valuePointer (modifiers : List CustomTypeModifier)
  | functionPointer (convention : Nat)
  deriving DecidableEq, Repr

/-- The handle of a `BaseType::Type`, whichever `TypeSource` it has. -/
def TypeHead.handle? : TypeHead → Option UserType
  | .user h _ => some h
  | .generic h _ => some h
  | _ => none

def TypeHead.valueKind? : TypeHead → Option ValueKind
  | .user _ k => k
  | .generic _ k => k
  | _ => none

def TypeHead.withoutValueKind : TypeHead → TypeHead
  | .user h _ => .user h none
  | .generic h _ => .generic h none
  | head => head

/-- The label of a concrete type: a constructor, and the assembly its handles belong to. -/
structure TypeNode where
  source : ResolutionS
  head : TypeHead
  deriving DecidableEq, Repr

def TypeNode.withoutValueKind (n : TypeNode) : TypeNode :=
  { n with head := n.head.withoutValueKind }

/-- A fully specialised runtime type. -/
abbrev ConcreteType := Trees.Tree TypeNode

namespace ConcreteType

def resolution (c : ConcreteType) : ResolutionS := c.label.source

def head (c : ConcreteType) : TypeHead := c.label.head

def erase (c : ConcreteType) : ConcreteType := c.map TypeNode.withoutValueKind

/-- `PartialEq` of `ConcreteType`. -/
instance : BEq ConcreteType := ⟨fun c d => decide (c.erase = d.erase)⟩

lemma beq_iff {c d : ConcreteType} : (c == d) = true ↔ c.erase = d.erase := decide_eq_true_iff

end ConcreteType

inductive GenericVar where
  | typeGeneric (index : Nat)
  | methodGeneric (index : Nat)
  deriving DecidableEq, Repr

abbrev MemberType := Term TypeHead Nat

/-- A type in a method signature or body. -/
abbrev MethodType := Term TypeHead GenericVar

inductive TypeSource (α : Type) where
  | user (handle : UserType)
  | generic (handle : UserType) (parameters : List α)

def TypeSource.handle {α : Type} : TypeSource α → UserType
  | .user h => h
  | .generic h _ => h

def TypeSource.parameters {α : Type} : TypeSource α → List α
  | .user _ => []
  | .generic _ ps => ps

def MemberType.toMethodType : MemberType → MethodType :=
  Term.fold (fun i => .var (.typeGeneric i)) fun head cs => .node head cs

def memberToMethodType : TypeSource MemberType → MethodType
  | .user h => .node (.user h none) []
  | .generic h ps => .node (.generic h none) (ps.map MemberType.toMethodType)

/-- A resolved reference to a type definition. -/
structure TypeDescription where
  resolution : ResolutionS
  index : Nat
  deriving DecidableEq, Repr

def TypeDescription.isNull (t : TypeDescription) : Bool := t.resolution.isNull

inductive TypeResolutionError where
  | typeNotFound (message : String)
  | methodNotFound (message : String)
  | fieldNotFound (message : String)
  | invalidHandle
  | assemblyLoad (message : String)
  | massiveAllocation (message : String)
  | invalidLayout (message : String)
  | genericIndexOutOfBounds (index length : Nat)
  | genericConstraintViolation (message : String)
  deriving DecidableEq, Repr

/-- Type and method arguments for the generic parameters of a member. -/
structure GenericLookup where
  typeGenerics : List ConcreteType
  methodGenerics : List ConcreteType

instance : Inhabited GenericLookup := ⟨⟨[], []⟩⟩

def GenericLookup.erase (g : GenericLookup) : GenericLookup :=
  ⟨g.typeGenerics.map ConcreteType.erase, g.methodGenerics.map ConcreteType.erase⟩

instance : DecidableEq GenericLookup := fun g g' =>
  decidable_of_iff (g.typeGenerics = g'.typeGenerics ∧ g.methodGenerics = g'.methodGenerics)
    (by cases g; cases g'; simp)

instance : BEq GenericLookup := ⟨fun g g' => decide (g.erase = g'.erase)⟩

def ConcreteType.makeLookup (c : ConcreteType) : GenericLookup :=
  match c.head with
  | .generic _ _ => ⟨c.children, []⟩
  | _ => default

inductive Variance where
  | invariant | covariant | contravariant
  deriving DecidableEq, Repr

structure SimpleName where
  nameSpace : Option String
  name : String
  deriving DecidableEq, Repr

structure TypeDefinition where
  simple : SimpleName
  enclosers : List SimpleName
  genericParameters : List Variance
  extendsClause : Option (TypeSource MemberType)

section

variable (d : TypeDefinition)

def TypeDefinition.fullName : List SimpleName := d.enclosers ++ [d.simple]

def SimpleName.text (n : SimpleName) : String :=
  match n.nameSpace with
  | some ns => ns ++ "." ++ n.name
  | none => n.name

/-- `nested_type_name`. -/
def TypeDefinition.typeName : String :=
  "/".intercalate (d.fullName.map SimpleName.text)

end

/-- The core-library types the runtime asks for by name. -/
inductive WellKnown where
  | boolean | char | sByte | byte | int16 | uInt16 | int32 | uInt32 | int64 | uInt64
  | single | double | intPtr | uIntPtr | object | string | array
  | delegate | multicastDelegate | enum | valueType
  deriving DecidableEq, Repr

def Primitive.wellKnown : Primitive → WellKnown
  | .boolean => .boolean
  | .char => .char
  | .int8 => .sByte
  | .uInt8 => .byte
  | .int16 => .int16
  | .uInt16 => .uInt16
  | .int32 => .int32
  | .uInt32 => .uInt32
  | .int64 => .int64
  | .uInt64 => .uInt64
  | .float32 => .single
  | .float64 => .double
  | .intPtr => .intPtr
  | .uIntPtr => .uIntPtr
  | .object => .object
  | .string => .string

structure TypeResolver where
  definition : TypeDescription → TypeDefinition
  locateType : ResolutionS → UserType → Except TypeResolutionError TypeDescription
  corlibWkt : WellKnown → Except TypeResolutionError TypeDescription
  canonicalTypeName : String → String
  userTypeName : ResolutionS → UserType → String
  constraintsHold : ConcreteType → Except TypeResolutionError Unit

namespace TypeResolver

variable (R : TypeResolver)

def typeName (t : TypeDescription) : String :=
  if t.isNull then "UNRESOLVED_TYPE_DEF" else (R.definition t).typeName

def findConcreteType (c : ConcreteType) : Except TypeResolutionError TypeDescription :=
  match c.head with
  | .user h _ => R.locateType c.resolution h
  | .generic h _ => R.locateType c.resolution h
  | .primitive p => R.corlibWkt p.wellKnown
  | .valuePointer _ => R.corlibWkt .intPtr
  | .functionPointer _ => R.corlibWkt .intPtr
  | .vector _ => R.corlibWkt .array
  | .array _ => R.corlibWkt .array

end TypeResolver

end DotnetVm
