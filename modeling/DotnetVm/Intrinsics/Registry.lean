import DotnetVm.Lib.Grouping
import DotnetVm.Types.Data

/-!
# Selection of intrinsic handlers

A handler is registered with the text of a method signature. The names of the
types in it are normalised, a filter is generated from the parameters with
primitive types, and the registrations are grouped by a key made of class, name,
arity and staticness. A method is looked up by its key, and the first registration
of the group whose filter accepts it is selected.
-/

namespace DotnetVm.Intrinsics

open Grouping List

structure TypeSyntax where
  isRef : Bool
  first : String
  rest : List (Char × String)
  suffix : String
  deriving DecidableEq, Repr

/-- The names that stand alone. -/
def keywords : List (String × String) :=
  [("void", "Void"), ("bool", "Boolean"), ("byte", "UInt8"), ("sbyte", "Int8"), ("char", "Char"),
    ("short", "Int16"), ("ushort", "UInt16"), ("int", "Int32"), ("uint", "UInt32"),
    ("long", "Int64"), ("ulong", "UInt64"), ("float", "Float32"), ("double", "Float64"),
    ("string", "String"), ("object", "Object"), ("nint", "IntPtr"), ("nuint", "UIntPtr")]

/-- The names in the namespace `System`. -/
def systemNames : List (String × String) :=
  [("Void", "Void"), ("Boolean", "Boolean"), ("Byte", "UInt8"), ("SByte", "Int8"), ("Char", "Char"),
    ("Int16", "Int16"), ("UInt16", "UInt16"), ("Int32", "Int32"), ("UInt32", "UInt32"),
    ("Int64", "Int64"), ("UInt64", "UInt64"), ("Single", "Float32"), ("Double", "Float64"),
    ("String", "String"), ("Object", "Object"), ("IntPtr", "IntPtr"), ("UIntPtr", "UIntPtr")]

/-- The normalised name of segments joined by dots. -/
def normalize : List String → String
  | [name] => (keywords.lookup name).getD name
  | ["System", name] => (systemNames.lookup name).getD ("System." ++ name)
  | segments => ".".intercalate segments

def parseType (t : TypeSyntax) : String :=
  (if t.rest.all fun s => s.1 == '.' then normalize (t.first :: t.rest.map Prod.snd)
    else t.rest.foldl (fun name s => name.push s.1 ++ s.2) t.first) ++
    t.suffix ++ (if t.isRef then "&" else "")

/-- A character that separates the parts of a key. No identifier has one. -/
def Separates (c : Char) : Prop := c = ':' ∨ c = '#'

instance (c : Char) : Decidable (Separates c) := inferInstanceAs (Decidable (c = ':' ∨ c = '#'))

/-- A registered signature. It has fewer parameters than would wrap the `u16` arity. -/
structure Signature where
  isStatic : Bool
  returnType : TypeSyntax
  className : String
  methodName : String
  parameters : List TypeSyntax
  class_plain : ∀ c ∈ className.toList, ¬Separates c
  method_plain : ∀ c ∈ methodName.toList, ¬Separates c
  length_lt : parameters.length + 1 < 2 ^ 16

def Signature.arity (s : Signature) : Nat := s.parameters.length + if s.isStatic then 0 else 1

/-- `BaseType` as the filters see it. -/
inductive BaseType where
  | primitive (p : Primitive)
  | valuePointer (pointee : String)
  | type (name : String)
  | other (spelling : String)
  deriving DecidableEq, Repr

/-- A type in a method signature or body. -/
inductive MethodType where
  | base (b : BaseType)
  | generic (name : String)
  deriving DecidableEq, Repr

inductive ParameterType where
  | value (t : MethodType)
  | ref (t : MethodType)
  | typedReference
  deriving DecidableEq, Repr

/-- A method as the registry looks it up. -/
structure Method where
  parent : String
  name : String
  instance_ : Bool
  returnType : String
  parameters : List ParameterType

/-- `method_arity`. -/
def Method.arity (m : Method) : Nat := m.parameters.length + if m.instance_ then 1 else 0

/-- The rows of `match_primitive`. -/
def primitiveNames : List (Primitive × List String) :=
  [(.boolean, ["bool", "Boolean", "System.Boolean"]), (.char, ["char", "Char", "System.Char"]),
    (.int8, ["sbyte", "SByte", "System.SByte"]), (.uInt8, ["byte", "Byte", "System.Byte"]),
    (.int16, ["short", "Int16", "System.Int16"]), (.uInt16, ["ushort", "UInt16", "System.UInt16"]),
    (.int32, ["int", "Int32", "System.Int32"]), (.uInt32, ["uint", "UInt32", "System.UInt32"]),
    (.int64, ["long", "Int64", "System.Int64"]), (.uInt64, ["ulong", "UInt64", "System.UInt64"]),
    (.float32, ["float", "Single", "System.Single", "Float32"]),
    (.float64, ["double", "Double", "System.Double", "Float64"]),
    (.string, ["string", "String", "System.String"]),
    (.object, ["object", "Object", "System.Object"]), (.intPtr, ["IntPtr", "System.IntPtr"]),
    (.uIntPtr, ["UIntPtr", "System.UIntPtr"])]

/-- The first row with a name. -/
def rowOf (rows : List (Primitive × List String)) (name : String) : Option Primitive :=
  (rows.find? fun row => decide (name ∈ row.2)).map Prod.fst

def matchPrimitive (name : String) : Option Primitive := rowOf primitiveNames name

def checkParam (p : Primitive) : Option ParameterType → Bool
  | some (.value (.base (.valuePointer _))) => decide (p = .intPtr ∨ p = .uIntPtr)
  | some (.value (.base (.type _))) => decide (p = .intPtr ∨ p = .uIntPtr)
  | some (.value (.base (.primitive q))) => decide (q = p)
  | some (.ref (.base (.primitive q))) => decide (q = p)
  | _ => false

def checkDeclared (d : TypeSyntax) (param : Option ParameterType) : Bool :=
  match matchPrimitive (parseType d) with
  | some p => checkParam p param
  | none => true

/-- The filter function `generate_intrinsic_filter_fn` generates. -/
def filter (s : Signature) (m : Method) : Bool :=
  s.parameters.zipIdx.all fun d => checkDeclared d.1 m.parameters[d.2]?

inductive Registration where
  | method (s : Signature)
  | field (className name : String) (isStatic : Bool)

def staticKeySegment (isStatic : Bool) : String := if isStatic then "S" else "I"

def methodKey (className name : String) (arity : Nat) (isStatic : Bool) : String :=
  "M:" ++ className ++ "::" ++ name ++ "#" ++ toString arity ++ ":" ++ staticKeySegment isStatic

def Registration.key : Registration → String
  | .method s => methodKey s.className s.methodName s.arity s.isStatic
  | .field className name isStatic =>
    "F:" ++ className ++ "::" ++ name ++ ":" ++ staticKeySegment isStatic

section

variable (entries : List Registration)

def sortedKeys : List String :=
  (entries.map Registration.key).dedup.mergeSort fun a b => decide (a ≤ b)

def intrinsicEntries : List Registration :=
  flatten Registration.key entries (sortedKeys entries)

def intrinsicLookup : List (String × Nat × Nat) :=
  ranges Registration.key entries 0 (sortedKeys entries)

end

section Lookup

variable (canonicalTypeName : String → String)

def Method.className (m : Method) : String :=
  (canonicalTypeName m.parent).map fun c => if c = '/' then '+' else c

def Method.key (m : Method) : String :=
  methodKey (m.className canonicalTypeName) m.name m.arity (!m.instance_)

def buildMethodKey (m : Method) : Option String :=
  if (m.key canonicalTypeName).utf8ByteSize ≤ 512 then some (m.key canonicalTypeName) else none

def Registration.accepts (m : Method) : Registration → Bool
  | .method s => filter s m
  | .field _ _ _ => false

/-- `get_metadata`: the registration it selects. -/
def getMetadata (entries : List Registration) (m : Method) : Option Registration :=
  (buildMethodKey canonicalTypeName m).bind fun key =>
    ((intrinsicLookup entries).lookup key).bind fun range =>
      (slice (intrinsicEntries entries) range).find? (Registration.accepts m)

end Lookup

section Keys

lemma append_double_inj {α : Type} {a : α} {xs ys xs' ys' : List α} (hxs : a ∉ xs) (hys : a ∉ ys)
    (h : xs ++ a :: a :: ys = xs' ++ a :: a :: ys') : xs = xs' ∧ ys = ys' := by
  induction xs generalizing xs' with
  | nil =>
    cases xs' with
    | nil => exact ⟨rfl, (cons.inj (cons.inj h).2).2⟩
    | cons x xs' =>
      have htail : a :: ys = xs' ++ a :: a :: ys' := (cons.inj h).2
      cases xs' with
      | nil =>
        have hys' : ys = a :: ys' := (cons.inj htail).2
        exact absurd (hys' ▸ mem_cons_self) hys
      | cons y xs' =>
        have hys' : ys = xs' ++ a :: a :: ys' := (cons.inj htail).2
        exact absurd (by rw [hys']; simp) hys
  | cons x xs ih =>
    have hx : a ≠ x := fun heq => hxs (heq ▸ mem_cons_self)
    cases xs' with
    | nil => exact absurd (cons.inj h).1.symm hx
    | cons x' xs' =>
      obtain ⟨rfl, htail⟩ := cons.inj h
      obtain ⟨rfl, hrest⟩ := ih (fun hmem => hxs (mem_cons_of_mem _ hmem)) htail
      exact ⟨rfl, hrest⟩

lemma hash_notMem_toString (n : Nat) : '#' ∉ (toString n).toList := by
  intro hmem
  have hdigit : Char.isDigit '#' = true :=
    Nat.isDigit_of_mem_toDigits (b := 10) (by decide) (by decide)
      (by simpa [Nat.repr] using hmem)
  cases hdigit

lemma staticKeySegment_inj {b b' : Bool} (h : staticKeySegment b = staticKeySegment b') :
    b = b' := by
  cases b <;> cases b' <;> first | rfl | (exact absurd h (by decide))

/-- A key of a registration tells class, name, arity and staticness. -/
lemma methodKey_inj {c c' n n' : String} {a a' : Nat} {b b' : Bool}
    (hc : ∀ ch ∈ c.toList, ¬Separates ch) (hn : ∀ ch ∈ n.toList, ¬Separates ch) :
    methodKey c n a b = methodKey c' n' a' b' ↔ c = c' ∧ n = n' ∧ a = a' ∧ b = b' := by
  constructor
  · intro h
    have hchars : ('M' :: ':' :: (c.toList ++ ':' :: ':' :: n.toList)) ++
          '#' :: ((toString a).toList ++ (':' :: (staticKeySegment b).toList)) =
        ('M' :: ':' :: (c'.toList ++ ':' :: ':' :: n'.toList)) ++
          '#' :: ((toString a').toList ++ (':' :: (staticKeySegment b').toList)) := by
      simpa [methodKey] using congrArg String.toList h
    have hfront : '#' ∉ 'M' :: ':' :: (c.toList ++ ':' :: ':' :: n.toList) := by
      simp only [mem_cons, mem_append, not_or]
      exact ⟨by decide, by decide, fun hmem => hc _ hmem (Or.inr rfl), by decide, by decide,
        fun hmem => hn _ hmem (Or.inr rfl)⟩
    have hback : '#' ∉ (toString a).toList ++ (':' :: (staticKeySegment b).toList) := by
      simp only [mem_cons, mem_append, not_or]
      exact ⟨hash_notMem_toString a, by decide, by cases b <;> decide⟩
    obtain ⟨hnames, _, htails⟩ := (append_cons_inj_of_notMem hfront hback).mp hchars
    obtain ⟨hcls, hname⟩ := append_double_inj (fun hmem => hc _ hmem (Or.inl rfl))
      (fun hmem => hn _ hmem (Or.inl rfl)) (cons.inj (cons.inj hnames).2).2
    have hlast : (':' :: (staticKeySegment b).toList).length =
        (':' :: (staticKeySegment b').toList).length := by
      cases b <;> cases b' <;> rfl
    obtain ⟨har, hstat⟩ := append_inj' htails hlast
    exact ⟨String.toList_injective hcls, String.toList_injective hname,
      Nat.repr_inj.mp (String.toList_injective har),
      staticKeySegment_inj (String.toList_injective (cons.inj hstat).2)⟩
  · rintro ⟨rfl, rfl, rfl, rfl⟩
    rfl

end Keys

def declaredNames : List (Primitive × List String) :=
  (.int8, ["Int8"]) :: (.uInt8, ["UInt8"]) :: primitiveNames

/-- The primitive type a parameter is declared with. -/
def declared (d : TypeSyntax) : Option Primitive := rowOf declaredNames (parseType d)

example : declared ⟨false, "byte", [], ""⟩ = some .uInt8 ∧
    declared ⟨false, "System", [('.', "SByte")], ""⟩ = some .int8 ∧
    declared ⟨false, "int", [], ""⟩ = some .int32 ∧ declared ⟨true, "int", [], ""⟩ = none := by
  decide

/-- The filters do not know the normalised names of bytes. -/
def Unchecked (d : TypeSyntax) : Prop := parseType d = "Int8" ∨ parseType d = "UInt8"

lemma matchPrimitive_eq_some {d : TypeSyntax} {p : Primitive} :
    matchPrimitive (parseType d) = some p ↔ declared d = some p ∧ ¬Unchecked d := by
  unfold declared Unchecked matchPrimitive
  generalize parseType d = name
  by_cases h8 : name = "Int8"
  · subst h8
    have hno : rowOf primitiveNames "Int8" = none := by decide
    simp [hno]
  · by_cases hu8 : name = "UInt8"
    · subst hu8
      have hno : rowOf primitiveNames "UInt8" = none := by decide
      simp [hno]
    · have hsm : rowOf declaredNames name = rowOf primitiveNames name := by
        simp [rowOf, declaredNames, h8, hu8]
      simp [hsm, h8, hu8]

/-- What a parameter of a method may be for a check to pass. -/
def Passes (p : Primitive) (t : ParameterType) : Prop :=
  t = .value (.base (.primitive p)) ∨ t = .ref (.base (.primitive p)) ∨
    ((p = .intPtr ∨ p = .uIntPtr) ∧
      ∃ name, t = .value (.base (.valuePointer name)) ∨ t = .value (.base (.type name)))

lemma checkParam_iff {p : Primitive} {t : ParameterType} :
    checkParam p (some t) = true ↔ Passes p t := by
  cases t with
  | value t | ref t =>
    cases t with
    | base b => cases b <;> simp [checkParam, Passes]
    | generic name => simp [checkParam, Passes]
  | typedReference => simp [checkParam, Passes]

/-- The normalised name of a primitive type. -/
def primitiveName : Primitive → String
  | .boolean => "Boolean"
  | .char => "Char"
  | .int8 => "Int8"
  | .uInt8 => "UInt8"
  | .int16 => "Int16"
  | .uInt16 => "UInt16"
  | .int32 => "Int32"
  | .uInt32 => "UInt32"
  | .int64 => "Int64"
  | .uInt64 => "UInt64"
  | .float32 => "Float32"
  | .float64 => "Float64"
  | .intPtr => "IntPtr"
  | .uIntPtr => "UIntPtr"
  | .object => "Object"
  | .string => "String"

def BaseType.spelling : BaseType → String
  | .primitive p => primitiveName p
  | .valuePointer pointee => pointee ++ "*"
  | .type name => name
  | .other spelling => spelling

def MethodType.spelling : MethodType → String
  | .base b => b.spelling
  | .generic name => name

/-- How a signature spells the type of a parameter. -/
def ParameterType.spelling : ParameterType → String
  | .value t => t.spelling
  | .ref t => t.spelling ++ "&"
  | .typedReference => "System.TypedReference"

/-- The declared type is the type of the parameter. -/
structure Declares (d : TypeSyntax) (t : ParameterType) : Prop where
  primitive : ∀ p, declared d = some p → t = .value (.base (.primitive p))
  named : declared d = none → parseType d = t.spelling

def AtEach (r : TypeSyntax → ParameterType → Prop) (s : Signature) (m : Method) : Prop :=
  ∀ (i : Nat) d t, s.parameters[i]? = some d → m.parameters[i]? = some t → r d t

variable {s : Signature} {m : Method}

lemma AtEach.mono {r r' : TypeSyntax → ParameterType → Prop}
    (h : AtEach r s m) (himp : ∀ d t, r d t → r' d t) : AtEach r' s m :=
  fun i d t hd ht => himp d t (h i d t hd ht)

/-- Where a primitive type is declared, the method has that type. -/
def Fits : Signature → Method → Prop :=
  AtEach fun d t => ∀ p, declared d = some p → t = .value (.base (.primitive p))

/-- Nothing the filters check speaks against the method. -/
def Admits : Signature → Method → Prop :=
  AtEach fun d t => ¬Unchecked d → ∀ p, declared d = some p → Passes p t

/-- The signature is that of the method. -/
structure IsSignature (s : Signature) (m : Method) : Prop where
  returnType : parseType s.returnType = m.returnType
  parameters : AtEach Declares s m

lemma IsSignature.fits (h : IsSignature s m) : Fits s m :=
  h.parameters.mono fun _ _ hd => hd.primitive

lemma checkDeclared_iff {d : TypeSyntax} {t : ParameterType} : checkDeclared d (some t) = true ↔
    (¬Unchecked d → ∀ p, declared d = some p → Passes p t) := by
  unfold checkDeclared
  cases hmatch : matchPrimitive (parseType d) with
  | some p =>
    obtain ⟨hdecl, hchk⟩ := matchPrimitive_eq_some.mp hmatch
    simp only [checkParam_iff]
    constructor
    · intro hpasses _ q hq
      obtain rfl : p = q := Option.some.inj (hdecl.symm.trans hq)
      exact hpasses
    · exact fun h => h hchk p hdecl
  | none =>
    simp only [true_iff]
    intro hchk p hp
    have hsome := matchPrimitive_eq_some.mpr ⟨hp, hchk⟩
    rw [hmatch] at hsome
    cases hsome

lemma filter_iff
    (hlen : s.parameters.length = m.parameters.length) : filter s m = true ↔ Admits s m := by
  simp only [filter, all_eq_true, Prod.forall, mem_zipIdx_iff_getElem?]
  constructor
  · intro h i d t hd ht
    have hcheck := h d i hd
    rw [ht] at hcheck
    exact checkDeclared_iff.mp hcheck
  · intro h d i hd
    obtain ⟨hi, _⟩ := List.getElem?_eq_some_iff.mp hd
    have hsome : (m.parameters[i]?).isSome = true := by simpa [hlen] using hi
    obtain ⟨t, ht⟩ := Option.isSome_iff_exists.mp hsome
    rw [ht]
    exact checkDeclared_iff.mpr (h i d t hd ht)

section Selection

variable (canonicalTypeName : String → String)

/-- Class, name, arity and staticness agree. -/
structure Overload (s : Signature) (m : Method) : Prop where
  className : s.className = m.className canonicalTypeName
  name : s.methodName = m.name
  arity : s.parameters.length = m.parameters.length
  isStatic : s.isStatic = !m.instance_

/-- The signature of the method is registered. -/
def Registered (entries : List Registration) (m : Method) : Prop :=
  ∃ s, .method s ∈ entries ∧ Overload canonicalTypeName s m ∧ IsSignature s m

structure Selects (entries : List Registration) (m : Method) : Prop where
  fits : ∀ r, getMetadata canonicalTypeName entries m = some r →
    ∃ s, r = .method s ∧ r ∈ entries ∧ Overload canonicalTypeName s m ∧ Fits s m
  own : Registered canonicalTypeName entries m →
    ∃ s, getMetadata canonicalTypeName entries m = some (.method s) ∧ IsSignature s m

def FirstAdmitted (entries : List Registration) (m : Method) (s : Signature) : Prop :=
  Overload canonicalTypeName s m ∧ Admits s m ∧
    ∃ before rest, entries = before ++ .method s :: rest ∧
    ∀ s', .method s' ∈ before → Overload canonicalTypeName s' m → ¬Admits s' m

/-- The key of the method goes into the buffer. -/
def KeyFits (m : Method) : Prop := (m.key canonicalTypeName).utf8ByteSize ≤ 512

/-- When selection keeps its promise. -/
structure Unambiguous (entries : List Registration) (m : Method) : Prop where
  key : Registered canonicalTypeName entries m → KeyFits canonicalTypeName m
  first : ∀ s, KeyFits canonicalTypeName m → FirstAdmitted canonicalTypeName entries m s →
    Fits s m ∧ (Registered canonicalTypeName entries m → IsSignature s m)

variable {canonicalTypeName} {entries : List Registration} {m : Method} {s : Signature}

variable {r : Registration}

lemma key_eq_iff : r.key = m.key canonicalTypeName ↔
    ∃ s, r = .method s ∧ Overload canonicalTypeName s m := by
  cases r with
  | method s =>
    have hinj : (Registration.method s).key = m.key canonicalTypeName ↔
        s.className = m.className canonicalTypeName ∧ s.methodName = m.name ∧ s.arity = m.arity ∧
          s.isStatic = !m.instance_ := methodKey_inj s.class_plain s.method_plain
    constructor
    · intro h
      obtain ⟨hcls, hname, har, hstat⟩ := hinj.mp h
      refine ⟨s, rfl, hcls, hname, ?_, hstat⟩
      simp only [Signature.arity, Method.arity, hstat] at har
      cases hm : m.instance_ <;> simp [hm] at har <;> omega
    · rintro ⟨_, hs, hover⟩
      obtain rfl := Registration.method.inj hs
      refine hinj.mpr ⟨hover.className, hover.name, ?_, hover.isStatic⟩
      simp only [Signature.arity, Method.arity, hover.arity, hover.isStatic]
      cases m.instance_ <;> rfl
  | field className name isStatic =>
    refine iff_of_false (fun h => ?_) nofun
    have hchars := congrArg String.toList h
    simp [Registration.key, Method.key, methodKey] at hchars

lemma accepts_iff : (decide (r.key = m.key canonicalTypeName) && r.accepts m) = true ↔
      ∃ s, r = .method s ∧ Overload canonicalTypeName s m ∧ Admits s m := by
  simp only [Bool.and_eq_true, decide_eq_true_eq, key_eq_iff]
  constructor
  · rintro ⟨⟨s, rfl, hover⟩, haccepts⟩
    exact ⟨s, rfl, hover, (filter_iff hover.arity).mp haccepts⟩
  · rintro ⟨s, rfl, hover, hadmits⟩
    exact ⟨⟨s, rfl, hover⟩, (filter_iff hover.arity).mpr hadmits⟩

lemma find?_eq_some_iff :
    (entries.find? fun r => decide (r.key = m.key canonicalTypeName) && r.accepts m) = some r ↔
      ∃ s, r = .method s ∧ FirstAdmitted canonicalTypeName entries m s := by
  rw [find?_eq_some_iff_append, accepts_iff]
  simp only [Bool.not_eq_true', ← Bool.not_eq_true]
  constructor
  · rintro ⟨⟨s, rfl, hover, hadmits⟩, before, rest, hspl, hbef⟩
    refine ⟨s, rfl, hover, hadmits, before, rest, hspl, fun s' hs' hover' hadmits' => ?_⟩
    exact hbef _ hs' (accepts_iff.mpr ⟨s', rfl, hover', hadmits'⟩)
  · rintro ⟨s, rfl, hover, hadmits, before, rest, hspl, hbef⟩
    refine ⟨⟨s, rfl, hover, hadmits⟩, before, rest, hspl, fun r hr haccepts => ?_⟩
    obtain ⟨s', rfl, hover', hadmits'⟩ := accepts_iff.mp haccepts
    exact hbef s' hr hover' hadmits'

lemma getMetadata_eq (hkey : KeyFits canonicalTypeName m) :
    getMetadata canonicalTypeName entries m =
      entries.find? fun r => decide (r.key = m.key canonicalTypeName) && r.accepts m := by
  have hkeys : ∀ r ∈ entries, r.key ∈ sortedKeys entries := by
    intro r hr
    simpa [sortedKeys] using ⟨r, hr, rfl⟩
  have hbuild : buildMethodKey canonicalTypeName m = some (m.key canonicalTypeName) := if_pos hkey
  rw [getMetadata, hbuild]
  refine (find?_ranges hkeys (Registration.accepts m)).trans ?_
  rw [group]
  simp

lemma getMetadata_iff : getMetadata canonicalTypeName entries m = some r ↔
    KeyFits canonicalTypeName m ∧ ∃ s, r = .method s ∧
      FirstAdmitted canonicalTypeName entries m s := by
  by_cases hkey : KeyFits canonicalTypeName m
  · rw [getMetadata_eq hkey, find?_eq_some_iff]
    exact (and_iff_right hkey).symm
  · have hno : buildMethodKey canonicalTypeName m = none := if_neg hkey
    rw [getMetadata, hno]
    exact iff_of_false nofun fun h => hkey h.1

lemma exists_firstAdmitted (h : Registered canonicalTypeName entries m) :
    ∃ s, FirstAdmitted canonicalTypeName entries m s := by
  obtain ⟨s, hmem, hover, hown⟩ := h
  have hfnd : (entries.find? fun r =>
      decide (r.key = m.key canonicalTypeName) && r.accepts m).isSome = true := by
    rw [find?_isSome]
    exact ⟨_, hmem, accepts_iff.mpr ⟨s, rfl, hover, hown.fits.mono fun _ _ hd _ p hp =>
      .inl (hd p hp)⟩⟩
  obtain ⟨r, hr⟩ := Option.isSome_iff_exists.mp hfnd
  obtain ⟨s', _, hfst⟩ := find?_eq_some_iff.mp hr
  exact ⟨s', hfst⟩

end Selection

/-- For every table and every method: the registration selected for the method is an overload with
its primitive types, and its own if that is registered, exactly if the first overload in the table
that no check speaks against is. -/
theorem selects_iff_unambiguous (canonicalTypeName : String → String) (entries : List Registration)
    (m : Method) :
    Selects canonicalTypeName entries m ↔ Unambiguous canonicalTypeName entries m := by
  constructor
  · intro h
    refine ⟨fun hreg => ?_, fun s hkey hfst => ⟨?_, fun hreg => ?_⟩⟩
    · obtain ⟨s, hs, _⟩ := h.own hreg
      exact (getMetadata_iff.mp hs).1
    · obtain ⟨s', hs', _, _, hfits⟩ := h.fits _ (getMetadata_iff.mpr ⟨hkey, s, rfl, hfst⟩)
      obtain rfl := Registration.method.inj hs'
      exact hfits
    · obtain ⟨s', hs', hown⟩ := h.own hreg
      rw [getMetadata_iff.mpr ⟨hkey, s, rfl, hfst⟩] at hs'
      obtain rfl := Registration.method.inj (Option.some.inj hs')
      exact hown
  · intro h
    refine ⟨fun r hr => ?_, fun hreg => ?_⟩
    · obtain ⟨hkey, s, rfl, hfst⟩ := getMetadata_iff.mp hr
      have ⟨hover, _, before, rest, hspl, _⟩ := hfst
      refine ⟨s, rfl, ?_, hover, (h.first s hkey hfst).1⟩
      rw [hspl]
      simp
    · obtain ⟨s, hfst⟩ := exists_firstAdmitted hreg
      have hkey := h.key hreg
      exact ⟨s, getMetadata_iff.mpr ⟨hkey, s, rfl, hfst⟩, (h.first s hkey hfst).2 hreg⟩

/-- `static t System.Math::Min(t, t)`. -/
def minOf (t : String) : Signature where
  isStatic := true
  returnType := ⟨false, t, [], ""⟩
  className := "System.Math"
  methodName := "Min"
  parameters := [⟨false, t, [], ""⟩, ⟨false, t, [], ""⟩]
  class_plain := by simp [Separates]
  method_plain := by simp [Separates]
  length_lt := by simp

/-- The registered overloads in the order of the source. -/
def minTable : List Registration :=
  [.method (minOf "double"), .method (minOf "int"), .method (minOf "uint"), .method (minOf "byte")]

/-- `System.Math::Min(long, long)`. -/
def minLong : Method where
  parent := "System.Math"
  name := "Min"
  instance_ := false
  returnType := "Int64"
  parameters := [.value (.base (.primitive .int64)), .value (.base (.primitive .int64))]

lemma not_admits_minOf {t : String} (h : filter (minOf t) minLong = false) :
    ¬Admits (minOf t) minLong := by
  rw [← filter_iff rfl, h]
  exact Bool.false_ne_true

lemma firstAdmitted_byte : FirstAdmitted id minTable minLong (minOf "byte") := by
  refine ⟨⟨by decide +kernel, rfl, rfl, rfl⟩, (filter_iff rfl).mp (by decide +kernel),
    [.method (minOf "double"), .method (minOf "int"), .method (minOf "uint")], [], rfl, ?_⟩
  intro s hs _
  simp only [mem_cons, not_mem_nil, or_false, Registration.method.injEq] at hs
  rcases hs with rfl | rfl | rfl
  · exact not_admits_minOf (by decide +kernel)
  · exact not_admits_minOf (by decide +kernel)
  · exact not_admits_minOf (by decide +kernel)

/-- The overload for longs is not registered, and gets the handler for bytes. -/
theorem min_long_selects_byte :
    getMetadata id minTable minLong = some (.method (minOf "byte")) ∧
      ¬Selects id minTable minLong := by
  have hsel : getMetadata id minTable minLong = some (.method (minOf "byte")) :=
    getMetadata_iff.mpr ⟨by unfold KeyFits; decide +kernel, _, rfl, firstAdmitted_byte⟩
  refine ⟨hsel, fun h => ?_⟩
  obtain ⟨s, hs, _, _, hfits⟩ := h.fits _ hsel
  obtain rfl := Registration.method.inj hs
  have hbyte := hfits 0 _ _ rfl rfl .uInt8 (by decide +kernel)
  cases hbyte

end DotnetVm.Intrinsics
