import DotnetVm.Types.Data

/-!
# Specialising generic types

`make_concrete` replaces the generic parameters of a type by the arguments of a
lookup. Parameters are numbered separately for the type and for the method; a
parameter without an argument is looked for under the other numbering schemes
the runtime has met before the specialisation fails.
-/

namespace DotnetVm

open List Trees

variable {α ε : Type}

def checkedSub (i n : Nat) : Option Nat := if n ≤ i then some (i - n) else none

namespace GenericLookup

variable (g : GenericLookup)

def lookupMethodGenericWithFallbackIndices (i : Nat) : Option ConcreteType :=
  let typeArity := g.typeGenerics.length
  let methodArity := g.methodGenerics.length
  [some i, checkedSub i typeArity, checkedSub i (typeArity + 1), checkedSub i methodArity,
    checkedSub i (methodArity + 1), checkedSub i 1].findSome?
      fun index => index.bind fun j => g.methodGenerics[j]?

def lookupTypeGenericWithFallbackIndices (i : Nat) : Option ConcreteType :=
  let methodArity := g.methodGenerics.length
  [some i, checkedSub i methodArity, checkedSub i (methodArity + 1), checkedSub i 1].findSome?
    fun index => index.bind fun j => g.typeGenerics[j]?

/-- The argument for a generic parameter. -/
def argument : GenericVar → Except TypeResolutionError ConcreteType
  | .typeGeneric i =>
    match g.typeGenerics[i]? with
    | some t => .ok t
    | none =>
      match g.lookupMethodGenericWithFallbackIndices i with
      | some t => .ok t
      | none => .error (.genericIndexOutOfBounds i g.typeGenerics.length)
  | .methodGeneric i =>
    match g.methodGenerics[i]? with
    | some t => .ok t
    | none =>
      match g.lookupMethodGenericWithFallbackIndices i with
      | some t => .ok t
      | none =>
        match g.lookupTypeGenericWithFallbackIndices i with
        | some t => .ok t
        | none => .error (.genericIndexOutOfBounds i g.methodGenerics.length)

end GenericLookup

/-- All components are specialised before an error is reported; the last one wins. -/
def collect : List (Except ε α) → Except ε (List α)
  | [] => .ok []
  | r :: rs =>
    match collect rs, r with
    | .error e, _ => .error e
    | .ok _, .error e => .error e
    | .ok xs, .ok x => .ok (x :: xs)

def TypeResolver.instantiate (R : TypeResolver) (res : ResolutionS) (head : TypeHead)
    (children : List (Except TypeResolutionError ConcreteType)) :
    Except TypeResolutionError ConcreteType :=
  match collect children with
  | .error e => .error e
  | .ok cs =>
    let c : ConcreteType := .node ⟨res, head⟩ cs
    match head with
    | .generic _ _ =>
      match R.constraintsHold c.erase with
      | .error e => .error e
      | .ok () => .ok c
    | _ => .ok c

def GenericLookup.makeConcrete (g : GenericLookup) (R : TypeResolver) (res : ResolutionS) :
    MethodType → Except TypeResolutionError ConcreteType :=
  Term.fold g.argument (R.instantiate res)

end DotnetVm
