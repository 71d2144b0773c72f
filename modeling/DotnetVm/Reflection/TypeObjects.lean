import DotnetVm.Lib.Runs
import DotnetVm.Reflection.RuntimeTypes

/-!
# Type objects

A `System.Type` is asked for by `ldtoken`, by `Object.GetType`, by name, and from
other type objects. Every route builds a runtime type and takes the object cached
for it, so two routes give one object exactly if they build equal runtime types. Not
every route builds the canonical one: a type asked for by name never has a runtime
type of its own. Where all calls of a thread build canonical runtime types, its
objects are in one-to-one correspondence with the closed types.
-/

namespace DotnetVm.TypeObjects

open List Runs Trees

structure State where
  types : RuntimeType → Option Nat
  indices : RuntimeType → Option Nat
  rev : Nat → Option RuntimeType
  nextIndex : Nat
  objects : Nat → Option Nat
  nextObject : Nat
  results : List (Nat × ExactType)

def init : State := ⟨fun _ => none, fun _ => none, fun _ => none, 0, fun _ => none, 0, []⟩

namespace State

/-- `resolve_runtime_type`. -/
def resolve (s : State) (o : Nat) : Option RuntimeType := (s.objects o).bind s.rev

/-- The closed type an object was last given out for. -/
def typeOf (s : State) (o : Nat) : Option ExactType :=
  (s.results.find? fun r => decide (r.1 = o)).map Prod.snd

section

variable (s : State) (rt : RuntimeType)

/-- `reflection_runtime_type_index_get_or_insert`, the registry after it. -/
def register : State :=
  match s.indices rt with
  | some _ => s
  | none =>
    { s with
      indices := Function.update s.indices rt (some s.nextIndex)
      rev := Function.update s.rev s.nextIndex (some rt)
      nextIndex := s.nextIndex + 1 }

/-- `alloc_reflection_obj` for the index of a runtime type, and the entry in the cache. -/
def allocate : State :=
  { s with
    types := Function.update s.types rt (some s.nextObject)
    objects := Function.update s.objects s.nextObject (s.indices rt)
    nextObject := s.nextObject + 1 }

def getRuntimeType : State × Nat :=
  match s.types rt with
  | some o => (s, o)
  | none => ((s.register rt).allocate rt, s.nextObject)

end

end State

inductive Event where
  | ldtoken (ctx : Context) (t : MethodType)
  | getType (receiver : Receiver)
  | getTypeByName (name : String)
  | makeGenericType (target : Nat) (arguments : List Nat)
  | getElementType (o : Nat)
  | getBaseType (o : Nat)
  | registered (rt : RuntimeType)

def definitionOf (rt : RuntimeType) : Option TypeDescription :=
  match rt.label with
  | .type td | .generic td => some td
  | _ => none

namespace Library

section Machine

variable (L : Library)

/-- The runtime type a route asks for. -/
def requested (s : State) : Event → Option RuntimeType
  | .ldtoken ctx t => ldtoken L.resolver ctx t
  | .getType receiver => getType L.resolver receiver
  | .getTypeByName name => (L.corlibType name).toOption.map plainType
  | .makeGenericType target arguments =>
    (s.resolve target).bind fun rt =>
      (allSome (arguments.map s.resolve)).bind (L.makeGenericType rt)
  | .getElementType o => (s.resolve o).bind getElementType
  | .getBaseType o => (s.resolve o).bind L.getBaseType
  | .registered _ => none

def instanceType (td : TypeDescription) (typeGenerics : List ConcreteType) : Option ExactType :=
  if arity L.resolver td ≤ typeGenerics.length then
    (allSome ((typeGenerics.take (arity L.resolver td)).map L.exactType)).map
      (.node (.definition td))
  else none

/-- The exact type of an object. -/
def heldType : Held → Option ExactType
  | .obj td typeGenerics | .boxed td typeGenerics => L.instanceType td typeGenerics
  | .str => some (.node (.definition (L.core (.primitive .string))) [])
  | .vec element dims multi =>
    (L.exactType element).map fun T => .node (if multi then .array dims else .vector) [T]

def receiverType : Receiver → Option ExactType
  | .objectRef held => held.bind L.heldType
  | .managedPtr _ innerType arguments => L.instanceType innerType arguments
  | .valueType td typeGenerics => L.instanceType td typeGenerics
  | .nullPtr | .other => none

def elementOf (T : ExactType) : Option ExactType :=
  match T.label with
  | .vector | .array _ | .pointer => T.children.head?
  | _ => none

def baseOf (T : ExactType) : Option ExactType :=
  match T.label with
  | .definition td =>
    (L.resolver.definition td).extendsClause.bind (L.exactClause T.children td.resolution)
  | .vector | .array _ =>
    (L.resolver.corlibWkt .array).toOption.map fun td => .node (.definition td) []
  | _ => none

/-- The closed type a call asks for, if it asks for one. -/
def asked (s : State) : Event → Option ExactType
  | .ldtoken ctx t =>
    (ctx.generics.makeConcrete L.resolver ctx.resolution t).toOption.bind L.exactType
  | .getType receiver => L.receiverType receiver
  | .getTypeByName name =>
    (L.corlibType name).toOption.bind fun td =>
      if arity L.resolver td = 0 then some (.node (.definition td) []) else none
  | .makeGenericType target arguments =>
    ((s.resolve target).bind definitionOf).bind fun td =>
      (allSome (arguments.map s.typeOf)).bind fun Ts =>
        if Ts.length = arity L.resolver td ∧ 0 < Ts.length then some (.node (.definition td) Ts)
        else none
  | .getElementType o => (s.typeOf o).bind elementOf
  | .getBaseType o => (s.typeOf o).bind L.baseOf
  | .registered _ => none

/-- A call of the thread. One that throws or gives null leaves the objects as they are. -/
def call (s : State) (e : Event) : State :=
  match L.requested s e with
  | none => s
  | some rt =>
    let (s', o) := s.getRuntimeType rt
    { s' with results := ((L.asked s e).map fun T => (o, T)).toList ++ s'.results }

def step (s : State) : Event → Option State
  | .registered rt => some (s.register rt)
  | e => some (L.call s e)

/-- `runtime_type_from_desc` knows the definition if it has a runtime type of its own. -/
def Described (td : TypeDescription) : Prop := ∀ s, s ∉ Special.described → td ≠ L.core s

def HeldDirect : Held → Prop
  | .obj td _ | .boxed td _ => L.Described td
  | .str => True
  | .vec _ dims multi => multi = true ↔ 1 < dims

/-- The receiver has the type that `object_get_type` looks at. -/
def ReceiverDirect : Receiver → Prop
  | .objectRef (some held) => L.HeldDirect held
  | .managedPtr (some owner) innerType arguments =>
    L.HeldDirect owner ∧ L.heldType owner = L.instanceType innerType arguments
  | .managedPtr none td _ | .valueType td _ => arity L.resolver td = 0 ∧ L.Described td
  | _ => True

def RouteDirect (s : State) : Event → Prop
  | .getType receiver => L.ReceiverDirect receiver
  | .getTypeByName name => ∀ td, L.corlibType name = .ok td → ∀ s, td ≠ L.core s
  | .getBaseType o => ∀ T, s.typeOf o = some T → ∃ td, T.label = .definition td
  | _ => True

def Direct (s : State) (e : Event) : Prop :=
  ∀ T, L.asked s e = some T → Representable T ∧ L.RouteDirect s e

end Machine

def Stands (L : Library) (s : State) (o : Nat) (T : ExactType) : Prop :=
  ∃ rt, s.types rt = some o ∧ L.Canonical rt ∧ L.meaning rt = T

structure Consistent (L : Library) (s : State) : Prop where
  indexed : ∀ rt i, s.indices rt = some i → s.rev i = some rt
  revBelow : ∀ i rt, s.rev i = some rt → i < s.nextIndex
  cached : ∀ rt o, s.types rt = some o → s.resolve o = some rt ∧ o < s.nextObject
  stands : ∀ r ∈ s.results, L.Stands s r.1 r.2

variable {L : Library} {s : State}

lemma consistent_init : L.Consistent init where
  indexed _ _ h := by cases h
  revBelow _ _ h := by cases h
  cached _ _ h := by cases h
  stands _ h := by cases h

lemma resolve_register (h : L.Consistent s) (rt : RuntimeType) {o : Nat} {rt' : RuntimeType}
    (ho : s.resolve o = some rt') : (s.register rt).resolve o = some rt' := by
  unfold State.register
  split
  · exact ho
  · obtain ⟨i, hi, hrev⟩ := Option.bind_eq_some_iff.mp ho
    have hne : i ≠ s.nextIndex := (h.revBelow i rt' hrev).ne
    simp [State.resolve, hi, Function.update_of_ne hne, hrev]

lemma types_register (s : State) (rt : RuntimeType) :
    (s.register rt).types = s.types ∧ (s.register rt).results = s.results ∧
      (s.register rt).nextObject = s.nextObject := by
  unfold State.register
  split <;> exact ⟨rfl, rfl, rfl⟩

variable (h : L.Consistent s)
include h

lemma Consistent.register (rt : RuntimeType) :
    L.Consistent (s.register rt) ∧ ∃ i, (s.register rt).indices rt = some i := by
  obtain ⟨htypes, hresults, hnext⟩ := types_register s rt
  refine ⟨⟨?_, ?_, ?_, ?_⟩, ?_⟩
  · intro rt' i hi
    unfold State.register at hi ⊢
    split at hi
    · exact h.indexed rt' i hi
    · simp only [Function.update_apply] at hi ⊢
      split at hi
      · subst rt'
        obtain rfl := Option.some.inj hi
        simp
      · have hrev := h.indexed rt' i hi
        rw [if_neg (h.revBelow i rt' hrev).ne, hrev]
  · intro i rt' hrev
    unfold State.register at hrev ⊢
    split at hrev
    · exact h.revBelow i rt' hrev
    · simp only [Function.update_apply] at hrev ⊢
      split at hrev
      · omega
      · exact Nat.lt_succ_of_lt (h.revBelow i rt' hrev)
  · intro rt' o ho
    rw [htypes] at ho
    rw [hnext]
    exact ⟨resolve_register h rt (h.cached rt' o ho).1, (h.cached rt' o ho).2⟩
  · intro r hr
    rw [hresults] at hr
    obtain ⟨rt', hrt', hcan⟩ := h.stands r hr
    exact ⟨rt', by rw [htypes, hrt'], hcan⟩
  · unfold State.register
    split
    · rename_i i hi
      exact ⟨i, hi⟩
    · exact ⟨s.nextIndex, by simp⟩

lemma Consistent.allocate {rt : RuntimeType} {i : Nat} (hi : s.indices rt = some i)
    (hno : s.types rt = none) : L.Consistent (s.allocate rt) where
  indexed := h.indexed
  revBelow := h.revBelow
  cached := by
    intro rt' o ho
    simp only [State.allocate, Function.update_apply] at ho
    split at ho
    · subst rt'
      obtain rfl := Option.some.inj ho
      exact ⟨by simp [State.resolve, State.allocate, hi, h.indexed rt i hi], Nat.lt_succ_self _⟩
    · obtain ⟨hres, hlt⟩ := h.cached rt' o ho
      refine ⟨?_, Nat.lt_succ_of_lt hlt⟩
      simp only [State.resolve, State.allocate, Function.update_of_ne hlt.ne]
      exact hres
  stands := by
    intro r hr
    obtain ⟨rt', hrt', hcan⟩ := h.stands r hr
    have hne : rt' ≠ rt := by
      rintro rfl
      rw [hno] at hrt'
      cases hrt'
    exact ⟨rt', by simp only [State.allocate, Function.update_of_ne hne, hrt'], hcan⟩

lemma Consistent.getRuntimeType (rt : RuntimeType) :
    L.Consistent (s.getRuntimeType rt).1 ∧
      (s.getRuntimeType rt).1.types rt = some (s.getRuntimeType rt).2 := by
  unfold State.getRuntimeType
  cases hrt : s.types rt with
  | some o => exact ⟨h, hrt⟩
  | none =>
    obtain ⟨hreg, i, hi⟩ := h.register rt
    obtain ⟨htypes, -, hnext⟩ := types_register s rt
    exact ⟨hreg.allocate hi (by rw [htypes, hrt]), by simp [State.allocate, hnext]⟩

lemma Consistent.typeOf {o : Nat} {T : ExactType} (ho : s.typeOf o = some T) :
    ∃ rt, s.resolve o = some rt ∧ L.Canonical rt ∧ L.meaning rt = T := by
  obtain ⟨r, hfind, rfl⟩ := Option.map_eq_some_iff.mp ho
  have hfst : r.1 = o := by simpa using find?_some hfind
  obtain ⟨rt, hrt, hcan⟩ := h.stands r (mem_of_find?_eq_some hfind)
  exact ⟨rt, hfst ▸ (h.cached rt r.1 hrt).1, hcan⟩

lemma Consistent.stands_iff (hL : L.WellNamed) {o o' : Nat} {T T' : ExactType}
    (ho : L.Stands s o T) (ho' : L.Stands s o' T') : o = o' ↔ T = T' := by
  obtain ⟨rt, hrt, hcan, rfl⟩ := ho
  obtain ⟨rt', hrt', hcan', rfl⟩ := ho'
  constructor
  · rintro rfl
    have hres := (h.cached rt o hrt).1
    rw [(h.cached rt' o hrt').1] at hres
    rw [Option.some.inj hres]
  · intro hmean
    rw [hcan.eq_of_meaning hL hcan' hmean, hrt'] at hrt
    exact (Option.some.inj hrt).symm

end Library

namespace Library

variable {L : Library} {s : State}

/-- A runtime type that is the canonical one of a closed type. -/
def Represents (L : Library) (rt : RuntimeType) (T : ExactType) : Prop :=
  L.Canonical rt ∧ L.meaning rt = T

variable {td : TypeDescription}

lemma represents_plainType (har : arity L.resolver td = 0)
    (hcore : ∀ s, td ≠ L.core s) : L.Represents (plainType td) (.node (.definition td) []) :=
  ⟨canonical_node.mpr ⟨⟨rfl, har, hcore⟩, by simp⟩, by simp [plainType, headMeaning]⟩

lemma represents_special (x : Special) :
    L.Represents (special x) (.node (.definition (L.core x)) []) :=
  ⟨canonical_node.mpr ⟨rfl, by simp⟩, by simp [special, headMeaning]⟩

variable {T : ExactType} {rt : RuntimeType}

lemma represents_ldtoken (h : L.WellNamed) {ctx : Context} {t : MethodType}
    (hasked : L.asked s (.ldtoken ctx t) = some T) (hT : Representable T)
    (hrt : ldtoken L.resolver ctx t = some rt) : L.Represents rt T := by
  obtain ⟨c, hc, hex⟩ := Option.bind_eq_some_iff.mp hasked
  obtain ⟨rt', hrt', hrep⟩ := builds_of_exactType h hex hT
  rw [ldtoken, hc, Option.bind_some, hrt'] at hrt
  obtain rfl := Option.some.inj hrt
  exact hrep

lemma represents_desc (h : L.WellNamed) (har : arity L.resolver td = 0) (hdesc : L.Described td) :
    L.Represents (runtimeTypeFromDesc L.resolver td) (.node (.definition td) []) := by
  unfold runtimeTypeFromDesc
  split
  · rename_i x hx
    have hname : L.resolver.typeName td = "System." ++ x.name := by simpa using find?_some hx
    rw [(h.typeName_iff td x).mp hname]
    exact represents_special x
  · rename_i hno
    refine represents_plainType har fun x hx => ?_
    by_cases hmem : x ∈ Special.described
    · have hname := find?_eq_none.mp hno x hmem
      exact hname (decide_eq_true ((h.typeName_iff td x).mpr hx))
    · exact hdesc x hmem hx

variable {typeGenerics : List ConcreteType}

lemma represents_object (h : L.WellNamed)
    (hdesc : L.Described td) (hT : L.instanceType td typeGenerics = some T)
    (hrep : Representable T) :
    L.Represents (runtimeTypeFromObject L.resolver td typeGenerics) T := by
  unfold instanceType at hT
  split at hT
  · obtain ⟨Ts, hTs, rfl⟩ := Option.map_eq_some_iff.mp hT
    unfold runtimeTypeFromObject
    by_cases har : arity L.resolver td = 0
    · rw [if_pos har]
      rw [har] at hTs
      obtain rfl := Option.some.inj hTs
      exact represents_desc h har hdesc
    · have hlen : (typeGenerics.take (arity L.resolver td)).length = arity L.resolver td := by
        rw [length_take]
        omega
      have hex : L.exactType (instantiated td (typeGenerics.take (arity L.resolver td))) =
          some (.node (.definition td) Ts) := by
        rw [instantiated, exactType_node]
        simp only [exactNode, h.locate td, Except.toOption, Option.bind_some, length_map, hlen,
          hTs, Option.map_some]
        rw [if_pos ⟨trivial, pos_of_ne_zero har⟩]
      obtain ⟨rt, hrt, hrepresents⟩ := builds_of_exactType h hex hrep
      rw [if_neg har, if_neg (not_not.mpr hlen), hrt]
      exact hrepresents
  · cases hT

lemma represents_heap (h : L.WellNamed) {held : Held} (hdir : L.HeldDirect held)
    (hT : L.heldType held = some T) (hrep : Representable T) :
    L.Represents (runtimeTypeFromHeap L.resolver held) T := by
  cases held with
  | obj td typeGenerics | boxed td typeGenerics => exact represents_object h hdir hT hrep
  | str =>
    obtain rfl := Option.some.inj hT
    exact represents_special _
  | vec element dims multi =>
    obtain ⟨E, hE, rfl⟩ := Option.map_eq_some_iff.mp hT
    obtain ⟨rt, hrt, hcan, hmean⟩ :=
      builds_of_exactType h hE ((representable_node.mp hrep).2 E (by simp))
    have hdims : multi = true ↔ 1 < dims := hdir
    simp only [runtimeTypeFromHeap, hrt]
    cases multi with
    | false =>
      have hle : dims ≤ 1 := by simpa using hdims
      rw [if_pos hle]
      exact ⟨canonical_node.mpr ⟨rfl, by simpa using hcan⟩, by simp [hmean, headMeaning]⟩
    | true =>
      have hlt : ¬ dims ≤ 1 := not_le.mpr (hdims.mp rfl)
      rw [if_neg hlt]
      exact ⟨canonical_node.mpr ⟨rfl, by simpa using hcan⟩, by simp [hmean, headMeaning]⟩

lemma instanceType_of_arity_eq_zero (har : arity L.resolver td = 0) :
    L.instanceType td typeGenerics = some (.node (.definition td) []) := by
  simp [instanceType, har, allSome]

lemma represents_getType (h : L.WellNamed) {receiver : Receiver}
    (hdir : L.ReceiverDirect receiver) (hT : L.receiverType receiver = some T)
    (hrep : Representable T) (hrt : getType L.resolver receiver = some rt) : L.Represents rt T := by
  cases receiver with
  | objectRef held =>
    obtain ⟨x, rfl, hx⟩ := Option.bind_eq_some_iff.mp hT
    obtain rfl := Option.some.inj hrt
    exact represents_heap h hdir hx hrep
  | managedPtr owner innerType arguments =>
    cases owner with
    | some held =>
      obtain rfl := Option.some.inj hrt
      exact represents_heap h hdir.1 (hdir.2.trans hT) hrep
    | none =>
      obtain rfl := Option.some.inj hrt
      obtain rfl := Option.some.inj ((instanceType_of_arity_eq_zero hdir.1).symm.trans hT)
      exact represents_desc h hdir.1 hdir.2
  | valueType td typeGenerics =>
    obtain rfl := Option.some.inj hrt
    obtain rfl := Option.some.inj ((instanceType_of_arity_eq_zero hdir.1).symm.trans hT)
    exact represents_desc h hdir.1 hdir.2
  | nullPtr | other => cases hT

variable {arguments : List Nat} {rts : List RuntimeType}

lemma represents_arguments (h : L.Consistent s) {Ts : List ExactType}
    (hTs : allSome (arguments.map s.typeOf) = some Ts)
    (hrts : allSome (arguments.map s.resolve) = some rts) :
    (∀ rt ∈ rts, L.Canonical rt) ∧ rts.map L.meaning = Ts := by
  rw [allSome_map_eq_some] at hTs hrts
  induction hTs generalizing rts with
  | nil =>
    cases hrts
    exact ⟨by simp, rfl⟩
  | cons hT _ ih =>
    cases hrts with
    | cons hrt hrest =>
      obtain ⟨rt, hres, hcan, hmean⟩ := h.typeOf hT
      obtain rfl := Option.some.inj (hres.symm.trans hrt)
      obtain ⟨hall, hmap⟩ := ih hrest
      exact ⟨forall_mem_cons.mpr ⟨hcan, hall⟩, by rw [map_cons, hmean, hmap]⟩

lemma makeGenericType_eq_some {target : RuntimeType} (h : L.makeGenericType target rts = some rt) :
    ∃ td, definitionOf target = some td ∧ rt = .node (.generic td) rts := by
  unfold makeGenericType at h
  unfold definitionOf
  cases hlabel : target.label <;> simp only [hlabel] at h ⊢ <;> try cases h
  all_goals
    split at h
    · exact ⟨_, rfl, (Option.some.inj h).symm⟩
    · cases h

lemma represents_makeGenericType (h : L.Consistent s) {target : Nat}
    (hasked : L.asked s (.makeGenericType target arguments) = some T)
    (hrt : L.requested s (.makeGenericType target arguments) = some rt) : L.Represents rt T := by
  obtain ⟨targetRt, htgt, hrt⟩ := Option.bind_eq_some_iff.mp hrt
  obtain ⟨rts, hrts, hrt⟩ := Option.bind_eq_some_iff.mp hrt
  obtain ⟨td, htd, rfl⟩ := makeGenericType_eq_some hrt
  obtain ⟨td', htd', hasked⟩ := Option.bind_eq_some_iff.mp hasked
  rw [htgt, Option.bind_some, htd] at htd'
  obtain rfl := Option.some.inj htd'
  obtain ⟨Ts, hTs, hif⟩ := Option.bind_eq_some_iff.mp hasked
  obtain ⟨hall, hmap⟩ := represents_arguments h hTs hrts
  split at hif
  · rename_i hlen
    obtain rfl := Option.some.inj hif
    refine ⟨canonical_node.mpr ⟨?_, hall⟩, by rw [meaning_node, hmap]; rfl⟩
    rw [← hmap, length_map] at hlen
    exact hlen
  · cases hif

lemma represents_getElementType {rt₀ : RuntimeType} {T₀ : ExactType}
    (h : L.Represents rt₀ T₀) (hT : elementOf T₀ = some T) (hrt : getElementType rt₀ = some rt) :
    L.Represents rt T := by
  obtain ⟨hcan, rfl⟩ := h
  obtain ⟨head, cs⟩ := rt₀
  have hch : cs.head? = some rt ∧ (cs.map L.meaning).head? = some T := by
    rw [meaning_node] at hT
    cases head <;> first
      | exact ⟨hrt, hT⟩
      | cases hrt
      | cases hT
  have hmem := mem_of_head? hch.1
  rw [head?_map, hch.1] at hch
  exact ⟨(canonical_node.mp hcan).2 rt hmem, Option.some.inj hch.2⟩

lemma eq_ok_of_toOption {ε α : Type} {x : Except ε α} {a : α} (h : x.toOption = some a) :
    x = .ok a := by
  cases x with
  | error e => cases h
  | ok b => rw [Option.some.inj h]

lemma baseSource_canonical (h : L.WellNamed) (hrt : L.Canonical rt)
    (htd : (L.meaning rt).label = .definition td) :
    ∃ cs, L.baseSource rt = some (td, ⟨cs, []⟩) ∧
      cs.map L.exactType = (L.meaning rt).children.map some := by
  obtain ⟨head, cs⟩ := rt
  rw [canonical_node] at hrt
  rw [meaning_node] at htd ⊢
  cases head with
  | special x =>
    obtain rfl := length_eq_zero_iff.mp hrt.1
    obtain rfl := ExactHead.definition.inj htd
    refine ⟨[], ?_, rfl⟩
    have hfind : L.resolver.findConcreteType (L.toConcrete (.node (.special x) [])) =
        .ok (L.core x) := by
      cases x with
      | primitive p => exact h.primitive p
      | void | typedReference => exact h.locate _
    rw [baseSource]
    simp only [hfind]
    cases x <;> rfl
  | type td' =>
    obtain rfl := length_eq_zero_iff.mp hrt.1.1
    obtain rfl := ExactHead.definition.inj htd
    exact ⟨[], rfl, rfl⟩
  | generic td' =>
    obtain rfl := ExactHead.definition.inj htd
    refine ⟨cs.map L.toConcrete, rfl, ?_⟩
    rw [Trees.Tree.children_node, map_map, map_map]
    exact map_congr_left fun c hc => exactType_toConcrete h (hrt.2 c hc)
  | vector | array _ | pointer => cases htd
  | byRef | functionPointer _ | typeParameter _ _ | methodParameter _ _ => exact hrt.1.elim

lemma exactType_clause {cs : List ConcreteType} {arguments : List ExactType}
    (hargs : cs.map L.exactType = arguments.map some) {res : ResolutionS}
    {clause : TypeSource MemberType} {c : ConcreteType}
    (hc : GenericLookup.makeConcrete ⟨cs, []⟩ L.resolver res (memberToMethodType clause) = .ok c) :
    L.exactType c = L.exactClause arguments res clause := by
  cases clause with
  | user handle =>
    rw [memberToMethodType, GenericLookup.makeConcrete, Term.fold_node] at hc
    have hno : ∀ t ∈ ([] : List MemberType), ∀ c,
        GenericLookup.makeConcrete ⟨cs, []⟩ L.resolver res (MemberType.toMethodType t) = .ok c →
          L.exactType c = L.exactMember arguments res t := by simp
    exact exactType_instantiate hno hc
  | generic handle ps =>
    rw [memberToMethodType, GenericLookup.makeConcrete, Term.fold_node, map_map] at hc
    exact exactType_instantiate (fun t _ c hc => exactType_makeConcrete hargs t hc) hc

lemma represents_getBaseType (h : L.WellNamed) {rt₀ : RuntimeType} {T₀ : ExactType}
    (hrepresents : L.Represents rt₀ T₀) (htd : T₀.label = .definition td)
    (hT : L.baseOf T₀ = some T) (hrep : Representable T)
    (hrt : L.getBaseType rt₀ = some rt) : L.Represents rt T := by
  obtain ⟨hcan, rfl⟩ := hrepresents
  obtain ⟨cs, hsrc, hargs⟩ := baseSource_canonical h hcan htd
  rw [getBaseType, hsrc, Option.bind_some] at hrt
  obtain ⟨clause, hcl, hrt⟩ := Option.bind_eq_some_iff.mp hrt
  obtain ⟨c, hc, hrt⟩ := Option.bind_eq_some_iff.mp hrt
  rw [baseOf, htd] at hT
  simp only [hcl] at hT
  obtain ⟨rt', hrt', hbuilt⟩ :=
    builds_of_exactType h ((exactType_clause hargs (eq_ok_of_toOption hc)).trans hT) hrep
  obtain rfl := Option.some.inj (hrt'.symm.trans hrt)
  exact hbuilt

lemma Consistent.resolved (h : L.Consistent s) {o : Nat} {f : ExactType → Option ExactType}
    {g : RuntimeType → Option RuntimeType} (hasked : (s.typeOf o).bind f = some T)
    (hrt : (s.resolve o).bind g = some rt) :
    ∃ T₀ rt₀, s.typeOf o = some T₀ ∧ L.Represents rt₀ T₀ ∧ f T₀ = some T ∧ g rt₀ = some rt := by
  obtain ⟨T₀, hT₀, hT⟩ := Option.bind_eq_some_iff.mp hasked
  obtain ⟨rt₀, hres, hrep⟩ := h.typeOf hT₀
  rw [hres] at hrt
  exact ⟨T₀, rt₀, hT₀, hrep, hT, hrt⟩

lemma represents_requested (hL : L.WellNamed) (h : L.Consistent s) {e : Event}
    (hdir : L.Direct s e) (hasked : L.asked s e = some T)
    (hrt : L.requested s e = some rt) : L.Represents rt T := by
  obtain ⟨hrep, hroute⟩ := hdir T hasked
  cases e with
  | ldtoken ctx t => exact represents_ldtoken hL hasked hrep hrt
  | getType receiver => exact represents_getType hL hroute hasked hrep hrt
  | getTypeByName name =>
    obtain ⟨td, htd, hif⟩ := Option.bind_eq_some_iff.mp hasked
    obtain ⟨td', htd', rfl⟩ := Option.map_eq_some_iff.mp hrt
    obtain rfl := Option.some.inj (htd.symm.trans htd')
    obtain ⟨har, heq⟩ := Option.ite_none_right_eq_some.mp hif
    obtain rfl := Option.some.inj heq
    exact represents_plainType har (hroute td (eq_ok_of_toOption htd))
  | makeGenericType target arguments => exact represents_makeGenericType h hasked hrt
  | getElementType o =>
    obtain ⟨T₀, rt₀, hT₀, hrepresents, hT, hrt⟩ := h.resolved hasked hrt
    exact represents_getElementType hrepresents hT hrt
  | getBaseType o =>
    obtain ⟨T₀, rt₀, hT₀, hrepresents, hT, hrt⟩ := h.resolved hasked hrt
    obtain ⟨td, htd⟩ := hroute T₀ hT₀
    exact represents_getBaseType hL hrepresents htd hT hrep hrt
  | registered rt' => cases hrt

end Library

namespace Library

variable {L : Library} {s s' : State}

lemma Consistent.record (h : L.Consistent s) {new : List (Nat × ExactType)}
    (hnew : ∀ r ∈ new, L.Stands s r.1 r.2) :
    L.Consistent { s with results := new ++ s.results } where
  indexed := h.indexed
  revBelow := h.revBelow
  cached := h.cached
  stands := fun r hr => (mem_append.mp hr).elim (hnew r) (h.stands r)

lemma Consistent.call (hL : L.WellNamed) (h : L.Consistent s) {e : Event}
    (hdir : L.Direct s e) : L.Consistent (L.call s e) := by
  unfold Library.call
  cases hrt : L.requested s e with
  | none => exact h
  | some rt =>
    obtain ⟨hcons, htypes⟩ := h.getRuntimeType rt
    refine hcons.record fun r hr => ?_
    obtain ⟨T, hT, rfl⟩ := Option.map_eq_some_iff.mp (Option.mem_toList.mp hr)
    obtain ⟨hcan, hmean⟩ := represents_requested hL h hdir hT hrt
    exact ⟨rt, htypes, hcan, hmean⟩

lemma Consistent.step (hL : L.WellNamed) (h : L.Consistent s) {e : Event}
    (hdir : L.Direct s e) (hst : L.step s e = some s') : L.Consistent s' := by
  cases e with
  | registered rt =>
    obtain rfl := Option.some.inj hst
    exact (h.register rt).1
  | _ =>
    obtain rfl := Option.some.inj hst
    exact h.call hL hdir

end Library

namespace Special

lemma mem_all (x : Special) : x ∈ all := by
  rcases x with p | _ | _
  · cases p <;> decide
  · decide
  · decide

lemma specialOf_name (x : Special) : specialOf ⟨some "System", x.name⟩ = some x := by
  rcases x with p | _ | _
  · cases p <;> simp [specialOf, all, described, name]
  · simp [specialOf, all]
  · simp [specialOf, all, name]

lemma name_injective : Function.Injective name := by
  intro x y h
  have hx := specialOf_name x
  rw [h, specialOf_name y] at hx
  exact (Option.some.inj hx).symm

lemma qualified_inj {x y : Special} (h : "System." ++ x.name = "System." ++ y.name) : x = y := by
  have hlist := congrArg String.toList h
  rw [String.toList_append, String.toList_append] at hlist
  exact name_injective (String.toList_inj.mp (append_cancel_left hlist))

lemma name_ne (x : Special) :
    (x.name ≠ "Delegate" ∧ x.name ≠ "MulticastDelegate") ∧
      "UNRESOLVED_TYPE_DEF" ≠ "System." ++ x.name ∧ "Other" ≠ "System." ++ x.name := by
  rcases x with p | _ | _
  · cases p <;> simp [name]
  · simp [name]
  · simp [name]

end Special

section

variable (td : TypeDescription)

def coreSpecial : Option Special :=
  if td.resolution = ⟨some 0⟩ then Special.all[td.index]? else none

def coreDescription (x : Special) : TypeDescription := ⟨⟨some 0⟩, Special.all.idxOf x⟩

def coreDefinition : TypeDefinition where
  simple := ((coreSpecial td).map fun x => ⟨some "System", x.name⟩).getD ⟨none, "Other"⟩
  enclosers := []
  genericParameters := []
  extendsClause := none

def coreWkt (w : WellKnown) : Except TypeResolutionError TypeDescription :=
  match Special.all.find? fun
    | .primitive p => decide (p.wellKnown = w)
    | _ => false with
  | some x => .ok (coreDescription x)
  | none => .error .invalidHandle

def coreLibrary : Library where
  resolver :=
    { definition := coreDefinition
      locateType := fun res handle =>
        match handle with
        | .definition index => .ok ⟨res, index⟩
        | .reference _ => .error .invalidHandle
      corlibWkt := coreWkt
      canonicalTypeName := id
      userTypeName := fun _ _ => ""
      constraintsHold := fun _ => .ok () }
  corlibType name :=
    match Special.all.find? fun x => decide ("System." ++ x.name = name) with
    | some x => .ok (coreDescription x)
    | none => .error (.typeNotFound name)
  core := coreDescription
  byReference := ⟨⟨some 0⟩, 100⟩

lemma coreSpecial_eq_some {td : TypeDescription} {x : Special} :
    coreSpecial td = some x ↔ td = coreDescription x := by
  have hnd : Special.all.Nodup := by decide
  constructor
  · intro h
    unfold coreSpecial at h
    split at h
    · rename_i hres
      obtain ⟨res, index⟩ := td
      obtain ⟨hlt, hget⟩ := List.getElem?_eq_some_iff.mp h
      have hidx : Special.all.idxOf x = index := by
        rw [← hget]
        exact hnd.idxOf_getElem index hlt
      rw [coreDescription, hidx]
      exact congrArg (TypeDescription.mk · index) hres
    · cases h
  · rintro rfl
    have hlt := idxOf_lt_length_of_mem (Special.mem_all x)
    exact List.getElem?_eq_some_iff.mpr ⟨hlt, List.getElem_idxOf hlt⟩

lemma coreLibrary_typeName (x : Special) :
    coreLibrary.resolver.typeName td = "System." ++ x.name ↔ td = coreDescription x := by
  have hnamed (y : Special) (hy : td = coreDescription y) :
      coreLibrary.resolver.typeName td = "System." ++ y.name := by
    have hspec := coreSpecial_eq_some.mpr hy
    have hnull : td.isNull = false := by rw [hy]; rfl
    simp only [TypeResolver.typeName, hnull, coreLibrary, coreDefinition, hspec]
    rcases y with p | _ | _
    · cases p <;> rfl
    · rfl
    · rfl
  constructor
  · intro h
    cases hspec : coreSpecial td with
    | some y =>
      have hy := coreSpecial_eq_some.mp hspec
      rw [hy, Special.qualified_inj ((hnamed y hy).symm.trans h)]
    | none =>
      unfold TypeResolver.typeName at h
      split at h
      · exact absurd h x.name_ne.2.1
      · simp only [coreLibrary, coreDefinition,
          hspec] at h
        exact absurd h x.name_ne.2.2
  · exact hnamed x

lemma coreLibrary_simple : (∃ x, td = coreDescription x ∧
      (coreLibrary.resolver.definition td).simple = ⟨some "System", x.name⟩) ∨
    (coreSpecial td = none ∧ (coreLibrary.resolver.definition td).simple = ⟨none, "Other"⟩) := by
  cases hspec : coreSpecial td with
  | some x =>
    exact .inl ⟨x, coreSpecial_eq_some.mp hspec, by simp [coreLibrary, coreDefinition, hspec]⟩
  | none => exact .inr ⟨rfl, by simp [coreLibrary, coreDefinition, hspec]⟩

lemma coreLibrary_not_delegate :
    (coreLibrary.resolver.definition td).simple ≠ ⟨some "System", "Delegate"⟩ ∧
      (coreLibrary.resolver.definition td).simple ≠ ⟨some "System", "MulticastDelegate"⟩ := by
  rcases coreLibrary_simple td with ⟨x, -, hsimp⟩ | ⟨-, hsimp⟩
  · rw [hsimp]
    simpa using x.name_ne.1
  · rw [hsimp]
    simp

end

lemma coreLibrary_wellNamed : coreLibrary.WellNamed where
  special_iff td x := by
    rcases coreLibrary_simple td with ⟨y, hy, hsimp⟩ | ⟨hno, hsimp⟩
    · rw [hsimp, Special.specialOf_name, Option.some.injEq]
      constructor
      · rintro rfl
        exact hy
      · intro hx
        have hspec := coreSpecial_eq_some.mpr hy
        rw [coreSpecial_eq_some.mpr hx] at hspec
        exact (Option.some.inj hspec).symm
    · rw [hsimp]
      constructor
      · intro h
        cases h
      · intro hx
        rw [coreSpecial_eq_some.mpr hx] at hno
        cases hno
  typeName_iff := coreLibrary_typeName
  coreArity _ := rfl
  primitive p := by cases p <;> rfl
  delegate td h := absurd h (coreLibrary_not_delegate td).1
  multicastDelegate td h := absurd h (coreLibrary_not_delegate td).2
  locate _ := rfl

def coreContext : Context := ⟨⟨some 0⟩, default, none, none⟩

def int32Type : ExactType := .node (.definition (coreDescription (.primitive .int32))) []

def int32Token : Event := .ldtoken coreContext (.node (.primitive .int32) [])

/-- `GetType` on a boxed `int`. -/
def int32Boxed : Event :=
  .getType (.objectRef (some (.boxed (coreDescription (.primitive .int32)) [])))

def int32Named : Event := .getTypeByName "System.Int32"

/-- The state after the token and the boxed integer. -/
def afterBoxed : State := coreLibrary.call (coreLibrary.call init int32Token) int32Boxed

lemma representable_int32Type : Representable int32Type :=
  representable_node.mpr ⟨⟨by simp, by simp⟩, by simp⟩

lemma described_int32 : coreLibrary.Described (coreDescription (.primitive .int32)) := by
  intro x hx h
  have hspec := coreSpecial_eq_some.mpr h
  obtain rfl := Option.some.inj hspec
  exact hx (by decide)

lemma afterBoxed_run : Run coreLibrary.step coreLibrary.Direct init afterBoxed := by
  refine (Run.refl.tail (e := int32Token) ?_ rfl).tail (e := int32Boxed) ?_ rfl
  · intro T hT
    obtain rfl : int32Type = T := Option.some.inj hT
    exact ⟨representable_int32Type, trivial⟩
  · intro T hT
    obtain rfl : int32Type = T := Option.some.inj hT
    exact ⟨representable_int32Type, described_int32⟩

end DotnetVm.TypeObjects
