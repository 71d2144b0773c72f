import DotnetVm.Types.Generics

/-!
# Runtime types

A `RuntimeType` is what the runtime knows a `System.Type` by. The primitive types,
`object`, `string`, `void` and `TypedReference` have runtime types of their own
beside the one of their definition, so a closed type may have several; one of them
is canonical. `runtime_type_from_concrete` builds the canonical one of every closed
type without `void*` and function pointers, and a canonical runtime type survives
the way through a concrete type that `get_BaseType` takes.
-/

namespace DotnetVm.TypeObjects

open List Trees Trees.Tree

/-- The types that have a runtime type of their own beside `RuntimeType::Type`. -/
inductive Special where
  | primitive (p : Primitive)
  | void
  | typedReference
  deriving DecidableEq, Repr

namespace Special

def name : Special → String
  | .primitive .boolean => "Boolean"
  | .primitive .char => "Char"
  | .primitive .int8 => "SByte"
  | .primitive .uInt8 => "Byte"
  | .primitive .int16 => "Int16"
  | .primitive .uInt16 => "UInt16"
  | .primitive .int32 => "Int32"
  | .primitive .uInt32 => "UInt32"
  | .primitive .int64 => "Int64"
  | .primitive .uInt64 => "UInt64"
  | .primitive .float32 => "Single"
  | .primitive .float64 => "Double"
  | .primitive .intPtr => "IntPtr"
  | .primitive .uIntPtr => "UIntPtr"
  | .primitive .object => "Object"
  | .primitive .string => "String"
  | .void => "Void"
  | .typedReference => "TypedReference"

/-- The names `runtime_type_from_desc` of `Object.GetType` knows. -/
def described : List Special :=
  [.boolean, .char, .int8, .uInt8, .int16, .uInt16, .int32, .uInt32, .int64, .uInt64, .float32,
    .float64, .intPtr, .uIntPtr].map .primitive

/-- The names `runtime_type_from_concrete` and `make_runtime_type` know. -/
def all : List Special :=
  [.void, .typedReference] ++ described ++ [.primitive .object, .primitive .string]

end Special

inductive RuntimeHead where
  | special (s : Special)
  | type (td : TypeDescription)
  | generic (td : TypeDescription)
  | vector
  | array (rank : Nat)
  | pointer
  | byRef
  | functionPointer (vararg : Bool)
  | typeParameter (owner : TypeDescription) (index : Nat)
  | methodParameter (owner : Nat) (index : Nat)
  deriving DecidableEq, Repr

abbrev RuntimeType := Trees.Tree RuntimeHead

def special (s : Special) : RuntimeType := .node (.special s) []

def plainType (td : TypeDescription) : RuntimeType := .node (.type td) []

def allSome {α : Type} : List (Option α) → Option (List α)
  | [] => some []
  | none :: _ => none
  | some a :: rest => (allSome rest).map (a :: ·)

def specialOf (n : SimpleName) : Option Special :=
  if n.nameSpace = some "System" then Special.all.find? fun s => decide (s.name = n.name) else none

section Resolver

variable (R : TypeResolver)

section

variable (td : TypeDescription)

def arity : Nat := (R.definition td).genericParameters.length

def openDefinition : RuntimeType :=
  .node (.generic td) ((List.range (arity R td)).map fun i => .node (.typeParameter td i) [])

/-- The branch of `runtime_type_from_concrete` for a handle without arguments. -/
def runtimeTypeOfDefinition : RuntimeType :=
  match specialOf (R.definition td).simple with
  | some s => special s
  | none =>
    if (R.definition td).simple = ⟨some "System", "Delegate"⟩ then
      plainType ((R.corlibWkt .delegate).toOption.getD td)
    else if (R.definition td).simple = ⟨some "System", "MulticastDelegate"⟩ then
      plainType ((R.corlibWkt .multicastDelegate).toOption.getD td)
    else if 0 < arity R td then openDefinition R td
    else plainType td

end

def runtimeTypeFromConcrete : ConcreteType → Option RuntimeType :=
  Trees.Tree.fold fun n cs =>
    match n.head, cs with
    | .primitive p, _ => some (special (.primitive p))
    | .user h _, _ => (R.locateType n.source h).toOption.map (runtimeTypeOfDefinition R)
    | .generic h _, cs =>
      (R.locateType n.source h).toOption.bind fun td => (allSome cs).map (.node (.generic td))
    | .vector _, [c] => c.map fun t => .node .vector [t]
    | .array shape, [c] => c.map fun t => .node (.array shape.rank) [t]
    | .valuePointer _, [c] => c.map fun t => .node .pointer [t]
    | .valuePointer _, [] => some (special (.primitive .intPtr))
    | _, _ => none

/-- The frame a token is read in. -/
structure Context where
  resolution : ResolutionS
  generics : GenericLookup
  typeOwner : Option TypeDescription
  methodOwner : Option Nat

/-- The definition branch of `make_runtime_type`: generic definitions first, and no delegates. -/
def makeDefinition (td : TypeDescription) : RuntimeType :=
  if 0 < arity R td then openDefinition R td
  else (specialOf (R.definition td).simple).elim (plainType td) special

def makeRuntimeType (ctx : Context) : MethodType → Option RuntimeType :=
  Term.fold (fun
      | .typeGeneric i => ctx.typeOwner.map fun owner => .node (.typeParameter owner i) []
      | .methodGeneric i => ctx.methodOwner.map fun owner => .node (.methodParameter owner i) [])
    fun head cs =>
      match head, cs with
      | .primitive p, _ => some (special (.primitive p))
      | .user h _, _ => (R.locateType ctx.resolution h).toOption.map (makeDefinition R)
      | .generic h _, [] => (R.locateType ctx.resolution h).toOption.map (makeDefinition R)
      | .generic h _, cs =>
        (R.locateType ctx.resolution h).toOption.bind fun td =>
          (allSome cs).map (.node (.generic td))
      | .vector _, [c] => c.map fun t => .node .vector [t]
      | .array shape, [c] => c.map fun t => .node (.array shape.rank) [t]
      | .valuePointer _, [c] => c.map fun t => .node .pointer [t]
      | .valuePointer _, [] => some (special (.primitive .intPtr))
      | .functionPointer convention, cs =>
        (allSome cs).map (.node (.functionPointer (decide (convention = 1))))
      | _, _ => none

/-- `ldtoken_type`: the runtime type it asks for. -/
def ldtoken (ctx : Context) (t : MethodType) : Option RuntimeType :=
  match (ctx.generics.makeConcrete R ctx.resolution t).toOption.bind
    (runtimeTypeFromConcrete R) with
  | some rt => some rt
  | none => makeRuntimeType R ctx t

inductive Held where
  | obj (td : TypeDescription) (typeGenerics : List ConcreteType)
  | str
  | vec (element : ConcreteType) (dims : Nat) (multi : Bool)
  | boxed (td : TypeDescription) (typeGenerics : List ConcreteType)

inductive Receiver where
  | objectRef (held : Option Held)
  | nullPtr
  | managedPtr (owner : Option Held) (innerType : TypeDescription) (arguments : List ConcreteType)
  | valueType (td : TypeDescription) (typeGenerics : List ConcreteType)
  | other

section

variable (td : TypeDescription)

def runtimeTypeFromDesc : RuntimeType :=
  match Special.described.find? fun s => decide (R.typeName td = "System." ++ s.name) with
  | some s => special s
  | none => plainType td

def instantiated (arguments : List ConcreteType) : ConcreteType :=
  .node ⟨td.resolution, .generic (.definition td.index) none⟩ arguments

def runtimeTypeFromObject (typeGenerics : List ConcreteType) : RuntimeType :=
  if arity R td = 0 then runtimeTypeFromDesc R td
  else if (typeGenerics.take (arity R td)).length ≠ arity R td then plainType td
  else
    (runtimeTypeFromConcrete R (instantiated td (typeGenerics.take (arity R td)))).getD
      (plainType td)

end

def runtimeTypeFromHeap : Held → RuntimeType
  | .obj td typeGenerics => runtimeTypeFromObject R td typeGenerics
  | .str => special (.primitive .string)
  | .vec element dims _ =>
    let elementRt := (runtimeTypeFromConcrete R element).getD (special (.primitive .object))
    if dims ≤ 1 then .node .vector [elementRt] else .node (.array dims) [elementRt]
  | .boxed td typeGenerics => runtimeTypeFromObject R td typeGenerics

/-- `object_get_type`; a null receiver throws, and any other value is an error. -/
def getType : Receiver → Option RuntimeType
  | .objectRef held => held.map (runtimeTypeFromHeap R)
  | .nullPtr => none
  | .managedPtr (some owner) _ _ => some (runtimeTypeFromHeap R owner)
  | .managedPtr none innerType _ => some (runtimeTypeFromDesc R innerType)
  | .valueType td _ => some (runtimeTypeFromDesc R td)
  | .other => none

end Resolver

/-- `core` are the definitions `corlib_wkt` has for the types with runtime types of their own, and
`byReference` the one for `System.ByReference` with an argument. -/
structure Library where
  resolver : TypeResolver
  corlibType : String → Except TypeResolutionError TypeDescription
  core : Special → TypeDescription
  byReference : TypeDescription

namespace Library

variable (L : Library)

def corlibRes : ResolutionS := (L.core (.primitive .object)).resolution

/-- `ConcreteType::from` a description. -/
def ofDefinition (td : TypeDescription) : ConcreteType :=
  .node ⟨td.resolution, .user (.definition td.index) none⟩ []

def toConcrete : RuntimeType → ConcreteType :=
  Trees.Tree.fold fun head cs =>
    match head with
    | .special (.primitive p) => .node ⟨L.corlibRes, .primitive p⟩ []
    | .special s => ofDefinition (L.core s)
    | .type td => ofDefinition td
    | .generic td => instantiated td cs
    | .vector => .node ⟨L.corlibRes, .vector []⟩ cs
    | .array rank => .node ⟨L.corlibRes, .array ⟨rank, [], []⟩⟩ cs
    | .pointer => .node ⟨L.corlibRes, .valuePointer []⟩ cs
    | .byRef =>
      .node ⟨L.byReference.resolution, .generic (.definition L.byReference.index)
        (some .valueType)⟩ cs
    | .functionPointer vararg => .node ⟨L.corlibRes, .functionPointer (if vararg then 1 else 0)⟩ cs
    | .typeParameter _ _ | .methodParameter _ _ => .node ⟨L.corlibRes, .primitive .object⟩ []

/-- The definition whose base `get_BaseType` takes, and the lookup the base is read with. -/
def baseSource (rt : RuntimeType) : Option (TypeDescription × GenericLookup) :=
  match rt.label with
  | .type td => some (td, default)
  | .generic td => some (td, ⟨rt.children.map L.toConcrete, []⟩)
  | _ =>
    (L.resolver.findConcreteType (L.toConcrete rt)).toOption.map fun td =>
      (td, (L.toConcrete rt).makeLookup)

/-- `handle_get_base_type`; without a base the result is null. -/
def getBaseType (rt : RuntimeType) : Option RuntimeType :=
  (L.baseSource rt).bind fun (td, lookup) =>
    (L.resolver.definition td).extendsClause.bind fun clause =>
      (lookup.makeConcrete L.resolver td.resolution (memberToMethodType clause)).toOption.bind
        (runtimeTypeFromConcrete L.resolver)

/-- `handle_get_element_type`. -/
def getElementType (rt : RuntimeType) : Option RuntimeType :=
  match rt.label with
  | .vector | .array _ | .pointer | .byRef => rt.children.head?
  | _ => none

/-- `handle_make_generic_type`; arguments that violate the constraints of the definition throw. -/
def makeGenericType (target : RuntimeType) (arguments : List RuntimeType) : Option RuntimeType :=
  match target.label with
  | .type td | .generic td =>
    match L.resolver.constraintsHold (instantiated td (arguments.map L.toConcrete)).erase with
    | .ok () => some (.node (.generic td) arguments)
    | .error _ => none
  | _ => none

end Library

/-- The constructors of a type. A primitive type is its definition. -/
inductive ExactHead where
  | definition (td : TypeDescription)
  | vector
  | array (rank : Nat)
  | pointer
  | voidPointer
  | byRef
  | functionPointer (convention : Nat)
  | typeParameter (owner : TypeDescription) (index : Nat)
  | methodParameter (owner : Nat) (index : Nat)
  deriving DecidableEq, Repr

/-- A type up to the ways of writing it. -/
abbrev ExactType := Trees.Tree ExactHead

namespace Library

variable (L : Library)

def exactNode (res : ResolutionS) (head : TypeHead) (cs : List (Option ExactType)) :
    Option ExactType :=
  match head, cs with
  | .primitive p, _ => some (.node (.definition (L.core (.primitive p))) [])
  | .user h _, _ =>
    (L.resolver.locateType res h).toOption.bind fun td =>
      if arity L.resolver td = 0 then some (.node (.definition td) []) else none
  | .generic h _, cs =>
    (L.resolver.locateType res h).toOption.bind fun td =>
      if cs.length = arity L.resolver td ∧ 0 < cs.length
        then (allSome cs).map (.node (.definition td))
      else none
  | .vector _, [c] => c.map fun t => .node .vector [t]
  | .array shape, [c] => c.map fun t => .node (.array shape.rank) [t]
  | .valuePointer _, [c] => c.map fun t => .node .pointer [t]
  | .valuePointer _, [] => some (.node .voidPointer [])
  | .functionPointer convention, cs => (allSome cs).map (.node (.functionPointer convention))
  | _, _ => none

/-- The closed type a concrete type stands for. -/
def exactType : ConcreteType → Option ExactType :=
  Trees.Tree.fold fun n cs => L.exactNode n.source n.head cs

/-- The type a runtime type stands for. -/
def headMeaning : RuntimeHead → ExactHead
  | .special s => .definition (L.core s)
  | .type td | .generic td => .definition td
  | .vector => .vector
  | .array rank => .array rank
  | .pointer => .pointer
  | .byRef => .byRef
  | .functionPointer vararg => .functionPointer (if vararg then 1 else 0)
  | .typeParameter owner index => .typeParameter owner index
  | .methodParameter owner index => .methodParameter owner index

def meaning (rt : RuntimeType) : ExactType := rt.map L.headMeaning

def HeadCanonical : RuntimeHead → Nat → Prop
  | .special _, n => n = 0
  | .type td, n => n = 0 ∧ arity L.resolver td = 0 ∧ ∀ s, td ≠ L.core s
  | .generic td, n => n = arity L.resolver td ∧ 0 < n
  | .vector, n | .array _, n | .pointer, n => n = 1
  | _, _ => False

/-- The one runtime type for a closed type. -/
def Canonical : RuntimeType → Prop :=
  Trees.Tree.fold fun head ps => L.HeadCanonical head ps.length ∧ ∀ p ∈ ps, p

structure WellNamed : Prop where
  special_iff : ∀ td s, specialOf (L.resolver.definition td).simple = some s ↔ td = L.core s
  typeName_iff : ∀ td s, L.resolver.typeName td = "System." ++ s.name ↔ td = L.core s
  coreArity : ∀ s, arity L.resolver (L.core s) = 0
  primitive : ∀ p : Primitive, L.resolver.corlibWkt p.wellKnown = .ok (L.core (.primitive p))
  delegate : ∀ td, (L.resolver.definition td).simple = ⟨some "System", "Delegate"⟩ →
    L.resolver.corlibWkt .delegate = .ok td
  multicastDelegate : ∀ td,
    (L.resolver.definition td).simple = ⟨some "System", "MulticastDelegate"⟩ →
    L.resolver.corlibWkt .multicastDelegate = .ok td
  locate : ∀ td : TypeDescription,
    L.resolver.locateType td.resolution (.definition td.index) = .ok td

end Library

def Representable : ExactType → Prop :=
  Trees.Tree.fold fun head ps =>
    (head ≠ .voidPointer ∧ ∀ convention, head ≠ .functionPointer convention) ∧ ∀ p ∈ ps, p

lemma representable_node {head : ExactHead} {cs : List ExactType} :
    Representable (.node head cs) ↔
      (head ≠ .voidPointer ∧ ∀ convention, head ≠ .functionPointer convention) ∧
        ∀ c ∈ cs, Representable c := by
  rw [Representable, fold_node, forall_mem_map]

lemma allSome_map_eq_some {α β : Type} {f : α → Option β} {cs : List α} {bs : List β} :
    allSome (cs.map f) = some bs ↔ List.Forall₂ (fun c b => f c = some b) cs bs := by
  induction cs generalizing bs with
  | nil => cases bs <;> simp [allSome]
  | cons c cs ih =>
    cases hc : f c with
    | none => cases bs <;> simp [allSome, hc]
    | some b => cases bs <;> simp [allSome, hc, ih, and_comm]

namespace Library

variable {L : Library}

lemma canonical_node {head : RuntimeHead} {cs : List RuntimeType} :
    L.Canonical (.node head cs) ↔ L.HeadCanonical head cs.length ∧ ∀ c ∈ cs, L.Canonical c := by
  rw [Canonical, fold_node, length_map, forall_mem_map]

@[simp] lemma meaning_node (head : RuntimeHead) (cs : List RuntimeType) :
    L.meaning (.node head cs) = .node (L.headMeaning head) (cs.map L.meaning) :=
  map_node ..

lemma WellNamed.core_injective (h : L.WellNamed) : Function.Injective L.core := by
  intro s s' hs
  have hcore := (h.special_iff (L.core s) s).mpr rfl
  rw [(h.special_iff (L.core s) s').mpr hs] at hcore
  exact (Option.some.inj hcore).symm

lemma HeadCanonical.eq (h : L.WellNamed) {head head' : RuntimeHead} {n : Nat}
    (hhead : L.HeadCanonical head n) (hhead' : L.HeadCanonical head' n)
    (heq : L.headMeaning head = L.headMeaning head') : head = head' := by
  cases head with
  | special s =>
    cases head' with
    | special s' => rw [h.core_injective (ExactHead.definition.inj heq)]
    | type td => exact absurd (ExactHead.definition.inj heq).symm (hhead'.2.2 s)
    | generic td => exact absurd hhead hhead'.2.ne'
    | _ => cases heq
  | type td =>
    cases head' with
    | special s' => exact absurd (ExactHead.definition.inj heq) (hhead.2.2 s')
    | type td' => rw [ExactHead.definition.inj heq]
    | generic td' => exact absurd hhead.1 hhead'.2.ne'
    | _ => cases heq
  | generic td =>
    cases head' with
    | special s' => exact absurd hhead' hhead.2.ne'
    | type td' => exact absurd hhead'.1 hhead.2.ne'
    | generic td' => rw [ExactHead.definition.inj heq]
    | _ => cases heq
  | array rank =>
    cases head' with
    | array rank' => rw [ExactHead.array.inj heq]
    | _ => cases heq
  | vector | pointer => cases head' <;> first | rfl | cases heq
  | byRef | functionPointer _ | typeParameter _ _ | methodParameter _ _ => exact hhead.elim

lemma Canonical.eq_of_meaning (h : L.WellNamed) {rt rt' : RuntimeType} (hrt : L.Canonical rt)
    (hrt' : L.Canonical rt') (heq : L.meaning rt = L.meaning rt') : rt = rt' := by
  induction rt using Trees.Tree.induction generalizing rt' with
  | node head cs ih =>
    obtain ⟨head', cs'⟩ := rt'
    rw [canonical_node] at hrt hrt'
    rw [meaning_node, meaning_node, Trees.Tree.node.injEq] at heq
    have hlen : cs.length = cs'.length := by simpa using congrArg List.length heq.2
    have hhead := hrt.1.eq h (hlen ▸ hrt'.1) heq.1
    have hcs : cs = cs' := by
      refine ext_getElem hlen fun i hi hi' => ?_
      refine ih _ (getElem_mem hi) (hrt.2 _ (getElem_mem hi))
        (hrt'.2 _ (getElem_mem hi')) ?_
      simpa [hi, hi'] using congrArg (fun l => l[i]?) heq.2
    rw [hhead, hcs]

end Library

namespace Library

variable {L : Library}

lemma exactType_node (n : TypeNode) (cs : List ConcreteType) :
    L.exactType (.node n cs) = L.exactNode n.source n.head (cs.map L.exactType) :=
  fold_node ..

lemma runtimeTypeOfDefinition_canonical (h : L.WellNamed) {td : TypeDescription}
    (har : arity L.resolver td = 0) :
    L.Canonical (runtimeTypeOfDefinition L.resolver td) ∧
      L.meaning (runtimeTypeOfDefinition L.resolver td) = .node (.definition td) [] := by
  unfold runtimeTypeOfDefinition
  cases hspec : specialOf (L.resolver.definition td).simple with
  | some s =>
    have htd := (h.special_iff td s).mp hspec
    exact ⟨canonical_node.mpr ⟨rfl, by simp⟩, by simp [special, headMeaning, htd]⟩
  | none =>
    have hcore : ∀ s, td ≠ L.core s := by
      intro s hs
      rw [(h.special_iff td s).mpr hs] at hspec
      cases hspec
    have hpl : L.Canonical (plainType td) ∧ L.meaning (plainType td) = .node (.definition td) [] :=
      ⟨canonical_node.mpr ⟨⟨rfl, har, hcore⟩, by simp⟩, by simp [plainType, headMeaning]⟩
    by_cases hdel : (L.resolver.definition td).simple = ⟨some "System", "Delegate"⟩
    · simpa [hdel, h.delegate td hdel, Except.toOption] using hpl
    · by_cases hmulti : (L.resolver.definition td).simple = ⟨some "System", "MulticastDelegate"⟩
      · simpa [hmulti, h.multicastDelegate td hmulti, Except.toOption] using hpl
      · simpa [hdel, hmulti, har] using hpl

def Builds (L : Library) (c : ConcreteType) (T : ExactType) : Prop :=
  ∃ rt, runtimeTypeFromConcrete L.resolver c = some rt ∧ L.Canonical rt ∧ L.meaning rt = T

variable {cs : List ConcreteType}

lemma builds_all {Ts : List ExactType} (h : List.Forall₂ (Builds L) cs Ts) :
    ∃ rts, allSome (cs.map (runtimeTypeFromConcrete L.resolver)) = some rts ∧
      (∀ rt ∈ rts, L.Canonical rt) ∧ rts.map L.meaning = Ts := by
  induction h with
  | nil => exact ⟨[], rfl, by simp, rfl⟩
  | cons hc _ ih =>
    obtain ⟨rt, hrt, hcan, hmean⟩ := hc
    obtain ⟨rts, hrts, hall, hmap⟩ := ih
    refine ⟨rt :: rts, ?_, forall_mem_cons.mpr ⟨hcan, hall⟩, by simp [hmean, hmap]⟩
    simp [allSome, hrt, hrts]

lemma builds_children {Ts : List ExactType}
    (ih : ∀ c ∈ cs, ∀ T, L.exactType c = some T → Representable T → Builds L c T)
    (hex : List.Forall₂ (fun c T => L.exactType c = some T) cs Ts)
    (hTs : ∀ T ∈ Ts, Representable T) : List.Forall₂ (Builds L) cs Ts := by
  induction hex with
  | nil => exact .nil
  | cons hc _ ihs =>
    rw [forall_mem_cons] at hTs
    exact .cons (ih _ mem_cons_self _ hc hTs.1)
      (ihs (fun c hmem => ih c (mem_cons_of_mem _ hmem)) hTs.2)

lemma Builds.wrap {n : TypeNode} {c : ConcreteType} {T : ExactType} (h : Builds L c T)
    (head : RuntimeHead) (hhead : L.HeadCanonical head 1)
    (hnode : runtimeTypeFromConcrete L.resolver (.node n [c]) =
      (runtimeTypeFromConcrete L.resolver c).map fun t => .node head [t]) :
    Builds L (.node n [c]) (.node (L.headMeaning head) [T]) := by
  obtain ⟨rt, hrt, hcan, hmean⟩ := h
  refine ⟨.node head [rt], by rw [hnode, hrt]; rfl, canonical_node.mpr ⟨hhead, ?_⟩, ?_⟩
  · simpa using hcan
  · rw [meaning_node, map_singleton, hmean]

/-- `runtime_type_from_concrete` builds the canonical runtime type of every representable closed
type. -/
lemma builds_of_exactType (h : L.WellNamed) {c : ConcreteType} {T : ExactType}
    (hc : L.exactType c = some T) (hT : Representable T) : Builds L c T := by
  induction c using Trees.Tree.induction generalizing T with
  | node n cs ih =>
    have hih : ∀ c ∈ cs, ∀ T, L.exactType c = some T → Representable T → Builds L c T :=
      fun c hmem T hc hT => ih c hmem hc hT
    rw [exactType_node] at hc
    obtain ⟨source, head⟩ := n
    -- one case per constructor of `BaseType`
    cases head with
    | primitive p =>
      obtain rfl := Option.some.inj hc
      exact ⟨special (.primitive p), by rw [runtimeTypeFromConcrete, fold_node],
        canonical_node.mpr ⟨rfl, by simp⟩, by simp [special, headMeaning]⟩
    | user handle kind =>
      obtain ⟨td, htd, hif⟩ := Option.bind_eq_some_iff.mp hc
      split at hif
      · rename_i har
        obtain rfl := Option.some.inj hif
        obtain ⟨hcan, hmean⟩ := runtimeTypeOfDefinition_canonical h har
        refine ⟨_, ?_, hcan, hmean⟩
        exact Option.map_eq_some_iff.mpr ⟨td, htd, rfl⟩
      · cases hif
    | generic handle kind =>
      obtain ⟨td, htd, hif⟩ := Option.bind_eq_some_iff.mp hc
      split at hif
      · rename_i har
        obtain ⟨Ts, hTs, rfl⟩ := Option.map_eq_some_iff.mp hif
        rw [length_map] at har
        have hforall := allSome_map_eq_some.mp hTs
        obtain ⟨rts, hrts, hall, hmap⟩ :=
          builds_all (builds_children hih hforall (representable_node.mp hT).2)
        have hlen : rts.length = cs.length := by
          rw [hforall.length_eq, ← hmap, length_map]
        refine ⟨.node (.generic td) rts, ?_, canonical_node.mpr ⟨?_, hall⟩, ?_⟩
        · rw [runtimeTypeFromConcrete, fold_node]
          refine Option.bind_eq_some_iff.mpr ⟨td, htd, ?_⟩
          exact Option.map_eq_some_iff.mpr ⟨rts, hrts, rfl⟩
        · rw [hlen]
          exact har
        · rw [meaning_node, hmap]
          rfl
      · cases hif
    | vector modifiers =>
      obtain _ | ⟨c, _ | ⟨d, cs⟩⟩ := cs
      · cases hc
      · obtain ⟨T, hcT, rfl⟩ := Option.map_eq_some_iff.mp hc
        exact (hih c (by simp) T hcT ((representable_node.mp hT).2 T (by simp))).wrap
          .vector rfl (by rfl)
      · cases hc
    | array shape =>
      obtain _ | ⟨c, _ | ⟨d, cs⟩⟩ := cs
      · cases hc
      · obtain ⟨T, hcT, rfl⟩ := Option.map_eq_some_iff.mp hc
        exact (hih c (by simp) T hcT ((representable_node.mp hT).2 T (by simp))).wrap
          (.array shape.rank) rfl (by rfl)
      · cases hc
    | valuePointer modifiers =>
      obtain _ | ⟨c, _ | ⟨d, cs⟩⟩ := cs
      · obtain rfl := Option.some.inj hc
        exact absurd rfl (representable_node.mp hT).1.1
      · obtain ⟨T, hcT, rfl⟩ := Option.map_eq_some_iff.mp hc
        exact (hih c (by simp) T hcT ((representable_node.mp hT).2 T (by simp))).wrap
          .pointer rfl (by rfl)
      · cases hc
    | functionPointer convention =>
      obtain ⟨Ts, _, rfl⟩ := Option.map_eq_some_iff.mp hc
      exact absurd rfl ((representable_node.mp hT).1.2 convention)

end Library

lemma collect_map_eq_ok {α β ε : Type} {f : α → Except ε β} {cs : List α} {bs : List β}
    (h : collect (cs.map f) = .ok bs) : List.Forall₂ (fun c b => f c = .ok b) cs bs := by
  induction cs generalizing bs with
  | nil =>
    obtain rfl := Except.ok.inj h
    exact .nil
  | cons c cs ih =>
    simp only [map_cons, collect] at h
    cases hrest : collect (cs.map f) with
    | error e =>
      rw [hrest] at h
      cases h
    | ok xs =>
      cases hc : f c with
      | error e =>
        rw [hrest, hc] at h
        cases h
      | ok x =>
        rw [hrest, hc] at h
        obtain rfl := Except.ok.inj h
        exact .cons hc (ih hrest)

namespace Library

variable {L : Library}

section

variable (L : Library) (arguments : List ExactType) (res : ResolutionS)

def exactMember : MemberType → Option ExactType :=
  Term.fold (fun i => arguments[i]?) (L.exactNode res)

/-- The closed type a base clause stands for. -/
def exactClause : TypeSource MemberType → Option ExactType
  | .user h => L.exactNode res (.user h none) []
  | .generic h ps => L.exactNode res (.generic h none) (ps.map (L.exactMember arguments res))

end

lemma exactType_ofDefinition (h : L.WellNamed) {td : TypeDescription}
    (har : arity L.resolver td = 0) :
    L.exactType (ofDefinition td) = some (.node (.definition td) []) := by
  rw [ofDefinition, exactType_node]
  simp [exactNode, h.locate td, Except.toOption, har]

lemma exactType_toConcrete (h : L.WellNamed) {rt : RuntimeType} (hrt : L.Canonical rt) :
    L.exactType (L.toConcrete rt) = some (L.meaning rt) := by
  induction rt using Trees.Tree.induction with
  | node head cs ih =>
    rw [canonical_node] at hrt
    have hcs : List.Forall₂ (fun c T => L.exactType (L.toConcrete c) = some T) cs
        (cs.map L.meaning) := by
      rw [forall₂_map_right_iff, forall₂_same]
      exact fun c hc => ih c hc (hrt.2 c hc)
    have hone (hlen : cs.length = 1) : ∃ c, cs = [c] ∧
        L.exactType (L.toConcrete c) = some (L.meaning c) := by
      obtain ⟨c, rfl⟩ := length_eq_one_iff.mp hlen
      exact ⟨c, rfl, ih c (by simp) (hrt.2 c (by simp))⟩
    rw [toConcrete, fold_node, ← toConcrete]
    cases head with
    | special s =>
      obtain rfl := length_eq_zero_iff.mp hrt.1
      cases s with
      | primitive p => rfl
      | void | typedReference => exact exactType_ofDefinition h (h.coreArity _)
    | type td =>
      obtain rfl := length_eq_zero_iff.mp hrt.1.1
      exact exactType_ofDefinition h hrt.1.2.1
    | generic td =>
      have hall : allSome ((cs.map L.toConcrete).map L.exactType) = some (cs.map L.meaning) := by
        rw [map_map]
        exact allSome_map_eq_some.mpr hcs
      show L.exactType (instantiated td (cs.map L.toConcrete)) = _
      rw [instantiated, exactType_node]
      have hlen := hrt.1
      simp [exactNode, h.locate td, Except.toOption, hlen.1, hlen.1 ▸ hlen.2, headMeaning,
        -map_map, hall]
    | vector | array _ | pointer =>
      obtain ⟨c, rfl, hc⟩ := hone hrt.1
      rw [exactType_node]
      simp [exactNode, hc, headMeaning]
    | byRef | functionPointer _ | typeParameter _ _ | methodParameter _ _ => exact hrt.1.elim

lemma exactType_instantiate {res : ResolutionS} {head : TypeHead} {α : Type} {ts : List α}
    {f : α → Except TypeResolutionError ConcreteType} {e : α → Option ExactType} {c : ConcreteType}
    (hf : ∀ t ∈ ts, ∀ c, f t = .ok c → L.exactType c = e t)
    (hc : L.resolver.instantiate res head (ts.map f) = .ok c) :
    L.exactType c = L.exactNode res head (ts.map e) := by
  unfold TypeResolver.instantiate at hc
  cases hcoll : collect (ts.map f) with
  | error err => simp [hcoll] at hc
  | ok cs =>
    have hmap : cs.map L.exactType = ts.map e := by
      have hforall := collect_map_eq_ok hcoll
      clear hcoll hc
      induction hforall with
      | nil => rfl
      | cons hcd _ ih =>
        rw [forall_mem_cons] at hf
        rw [map_cons, map_cons, hf.1 _ hcd, ih hf.2]
    have hnode : c = .node ⟨res, head⟩ cs := by
      simp only [hcoll] at hc
      split at hc
      · split at hc
        · cases hc
        · exact (Except.ok.inj hc).symm
      · exact (Except.ok.inj hc).symm
    rw [hnode, exactType_node, hmap]

lemma exactType_makeConcrete {cs : List ConcreteType} {arguments : List ExactType}
    (hargs : cs.map L.exactType = arguments.map some) {res : ResolutionS} (t : MemberType)
    {c : ConcreteType}
    (hc : GenericLookup.makeConcrete ⟨cs, []⟩ L.resolver res (MemberType.toMethodType t) = .ok c) :
    L.exactType c = L.exactMember arguments res t := by
  induction t using Term.induction generalizing c with
  | var i =>
    have hget : (⟨cs, []⟩ : GenericLookup).argument (.typeGeneric i) = .ok c := hc
    have hi := congrArg (fun l => l[i]?) hargs
    simp only [getElem?_map] at hi
    rw [exactMember]
    unfold GenericLookup.argument at hget
    cases hci : cs[i]? with
    | none => simp [hci, GenericLookup.lookupMethodGenericWithFallbackIndices] at hget
    | some d =>
      simp only [hci, Except.ok.injEq] at hget
      subst hget
      rw [hci] at hi
      cases hai : arguments[i]? with
      | none => simp [hai] at hi
      | some T => simpa [hai] using hi
  | node head ts ih =>
    rw [exactMember, Term.fold_node]
    refine exactType_instantiate (fun t ht c hc => ih t ht hc) ?_
    rw [MemberType.toMethodType, Term.fold_node, GenericLookup.makeConcrete, Term.fold_node,
      map_map] at hc
    exact hc

end Library

end DotnetVm.TypeObjects
