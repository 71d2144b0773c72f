import DotnetVm.Types.Generics

/-!
# Comparing types and signatures

The structural comparison of the type comparer. A type to be compared is either
concrete or a type of a signature together with the assembly and the lookup it
is read in. The comparison recurses through the children of both types; the
recursion is bounded by the depth of the types, and the bound is never reached
(`normalizedTypesEqual_unfold`), so that the comparison satisfies the equations of the
source.
-/

namespace DotnetVm

open Bool List Option Trees

/-- What makes two different definitions count as the same type. -/
inductive TypeIdentityComparison where
  | canonicalNameFallback
  | definitionNameFallback
  deriving DecidableEq, Repr

inductive TypeResolutionFailureBehavior where
  | returnFalse
  | compareResultsThenReturnFalse
  deriving DecidableEq, Repr

structure TypeComparisonPolicy where
  typeIdentity : TypeIdentityComparison
  resolutionFailure : TypeResolutionFailureBehavior
  deriving DecidableEq, Repr

namespace TypeComparisonPolicy

def concreteTypesEqual : TypeComparisonPolicy :=
  ⟨.definitionNameFallback, .compareResultsThenReturnFalse⟩

end TypeComparisonPolicy

/-- A type together with what is needed to read it. -/
inductive NormalizedTypeRef where
  | method (res : ResolutionS) (type : MethodType) (generics : Option GenericLookup)
  | concrete (c : ConcreteType)

def resolveGenericType (generics : Option GenericLookup) : MethodType → Option ConcreteType
  | .var (.typeGeneric i) => generics.bind fun g => g.typeGenerics[i]?
  | .var (.methodGeneric i) => generics.bind fun g => g.methodGenerics[i]?
  | .node _ _ => none

def sameGenericPlaceholder : MethodType → MethodType → Bool
  | .var x, .var y => decide (x = y)
  | _, _ => false

/-- Two lists of children, compared one by one. -/
def allEqual {α β : Type} (childEqual : α → β → Bool) : List α → List β → Bool
  | [], [] => true
  | a :: as, b :: bs => childEqual a b && allEqual childEqual as bs
  | _, _ => false

namespace TypeResolver

variable (R : TypeResolver) (policy : TypeComparisonPolicy)

def resolvedTypesEqual (left right : TypeDescription) : Bool :=
  if left = right then true
  else
    match policy.typeIdentity with
    | .canonicalNameFallback =>
      !left.isNull && !right.isNull &&
        decide (R.canonicalTypeName (R.typeName left) = R.canonicalTypeName (R.typeName right))
    | .definitionNameFallback =>
      -- the enclosing types are not looked at
      decide ((R.definition left).simple = (R.definition right).simple)

/-- Do two handles name the same definition? -/
def sameDefinition (leftRes : ResolutionS) (left : UserType) (rightRes : ResolutionS)
    (right : UserType) : Bool :=
  match policy.resolutionFailure with
  | .compareResultsThenReturnFalse =>
    let leftResult := R.locateType leftRes left
    let rightResult := R.locateType rightRes right
    if leftResult = rightResult then true
    else
      match leftResult, rightResult with
      | .ok l, .ok r => R.resolvedTypesEqual policy l r
      | _, _ => false
  | .returnFalse =>
    match R.locateType leftRes left, R.locateType rightRes right with
    | .ok l, .ok r => R.resolvedTypesEqual policy l r
    | _, _ => false

def normalizedBaseTypesEqual {α β : Type} (leftRes : ResolutionS) (left : TypeHead)
    (leftChildren : List α) (rightRes : ResolutionS) (right : TypeHead) (rightChildren : List β)
    (childEqual : α → β → Bool) : Bool :=
  match left.handle?, right.handle? with
  | some l, some r =>
    R.sameDefinition policy leftRes l rightRes r && allEqual childEqual leftChildren rightChildren
  | none, none =>
    match left, right with
    | .primitive p, .primitive q => decide (p = q)
    | .vector _, .vector _ => allEqual childEqual leftChildren rightChildren
    | .array _, .array _ => allEqual childEqual leftChildren rightChildren
    | .valuePointer _, .valuePointer _ => allEqual childEqual leftChildren rightChildren
    | _, _ => false
  | _, _ => false

section step

variable (recurse : NormalizedTypeRef → NormalizedTypeRef → Bool)

def normalizedConcreteEqualsMethodType (c : ConcreteType) (res : ResolutionS) (t : MethodType)
    (generics : Option GenericLookup) : Bool :=
  match resolveGenericType generics t with
  | some other => c == other
  | none =>
    match t with
    | .node head children =>
      R.normalizedBaseTypesEqual policy c.resolution c.head c.children res head children
        fun l r => recurse (.concrete l) (.method res r generics)
    | .var _ => false

def normalizedMethodTypesEqual (leftRes : ResolutionS) (left : MethodType)
    (leftGenerics : Option GenericLookup) (rightRes : ResolutionS) (right : MethodType)
    (rightGenerics : Option GenericLookup) : Bool :=
  if sameGenericPlaceholder left right then true
  else
    match resolveGenericType leftGenerics left with
    | some c =>
      R.normalizedConcreteEqualsMethodType policy recurse c rightRes right rightGenerics
    | none =>
      match resolveGenericType rightGenerics right with
      | some c => R.normalizedConcreteEqualsMethodType policy recurse c leftRes left leftGenerics
      | none =>
        match left, right with
        | .node leftHead leftChildren, .node rightHead rightChildren =>
          R.normalizedBaseTypesEqual policy leftRes leftHead leftChildren rightRes rightHead
            rightChildren
            fun l r => recurse (.method leftRes l leftGenerics) (.method rightRes r rightGenerics)
        | _, _ => false

/-- One unfolding of `normalized_types_equal`, with `recurse` for the recursive calls. -/
def normalizedTypesEqualStep : NormalizedTypeRef → NormalizedTypeRef → Bool
  | .method leftRes left leftGenerics, .method rightRes right rightGenerics =>
    R.normalizedMethodTypesEqual policy recurse leftRes left leftGenerics rightRes right
      rightGenerics
  | .concrete c, .method res t generics =>
    R.normalizedConcreteEqualsMethodType policy recurse c res t generics
  | .method res t generics, .concrete c =>
    R.normalizedConcreteEqualsMethodType policy recurse c res t generics
  | .concrete l, .concrete r =>
    if l == r then true
    else
      R.normalizedBaseTypesEqual policy l.resolution l.head l.children r.resolution r.head
        r.children fun a b => recurse (.concrete a) (.concrete b)

end step

/-- `normalized_types_equal`, cut off at a depth. -/
def normalizedTypesEqualWithin : Nat → NormalizedTypeRef → NormalizedTypeRef → Bool
  | 0 => fun _ _ => false
  | n + 1 => R.normalizedTypesEqualStep policy (normalizedTypesEqualWithin n)

end TypeResolver

/-- A bound on the depth of the comparison of two types. -/
def comparisonDepth : NormalizedTypeRef → NormalizedTypeRef → Nat
  | .method _ l _, .method _ r _ => max l.depth r.depth
  | .concrete _, .method _ r _ => r.depth
  | .method _ l _, .concrete _ => l.depth
  | .concrete l, .concrete _ => l.depth

namespace TypeResolver

variable (R : TypeResolver)

def normalizedTypesEqual (policy : TypeComparisonPolicy) (left right : NormalizedTypeRef) : Bool :=
  R.normalizedTypesEqualWithin policy (comparisonDepth left right) left right

def concreteTypesEqual (c1 c2 : ConcreteType) : Bool :=
  R.normalizedTypesEqual .concreteTypesEqual (.concrete c1) (.concrete c2)

end TypeResolver

variable {α β : Type}

lemma allEqual_iff {f : α → β → Bool} {as : List α} {bs : List β} :
    allEqual f as bs = true ↔ List.Forall₂ (fun a b => f a b = true) as bs := by
  induction as generalizing bs with
  | nil =>
    cases bs with
    | nil => exact ⟨fun _ => .nil, fun _ => rfl⟩
    | cons b bs => exact ⟨fun h => (nomatch h), fun h => nomatch h⟩
  | cons a as ih =>
    cases bs with
    | nil => exact ⟨fun h => (nomatch h), fun h => nomatch h⟩
    | cons b bs => rw [allEqual, and_eq_true, ih, forall₂_cons]

lemma allEqual_congr {f f' : α → β → Bool} {as : List α} {bs : List β}
    (h : ∀ a ∈ as, ∀ b ∈ bs, f a b = f' a b) : allEqual f as bs = allEqual f' as bs := by
  induction as generalizing bs with
  | nil => cases bs <;> rfl
  | cons a as ih =>
    cases bs with
    | nil => rfl
    | cons b bs =>
      have hhead : f a b = f' a b := h a mem_cons_self b mem_cons_self
      have htail : allEqual f as bs = allEqual f' as bs :=
        ih fun x hx y hy => h x (mem_cons_of_mem a hx) y (mem_cons_of_mem b hy)
      rw [allEqual, allEqual, hhead, htail]

namespace TypeResolver

variable {R : TypeResolver} {policy : TypeComparisonPolicy}

lemma normalizedBaseTypesEqual_congr {leftRes rightRes : ResolutionS}
    {left right : TypeHead} {as : List α} {bs : List β} {f f' : α → β → Bool}
    (h : ∀ a ∈ as, ∀ b ∈ bs, f a b = f' a b) :
    R.normalizedBaseTypesEqual policy leftRes left as rightRes right bs f =
      R.normalizedBaseTypesEqual policy leftRes left as rightRes right bs f' := by
  simp only [normalizedBaseTypesEqual, allEqual_congr h]

variable {f f' : NormalizedTypeRef → NormalizedTypeRef → Bool}

lemma normalizedConcreteEqualsMethodType_congr {c : ConcreteType} {res : ResolutionS}
    {t : MethodType} {generics : Option GenericLookup} (h : ∀ l r, r.depth < t.depth →
      f (.concrete l) (.method res r generics) = f' (.concrete l) (.method res r generics)) :
    R.normalizedConcreteEqualsMethodType policy f c res t generics =
      R.normalizedConcreteEqualsMethodType policy f' c res t generics := by
  unfold normalizedConcreteEqualsMethodType
  cases resolveGenericType generics t with
  | some other => rfl
  | none =>
    cases t with
    | var x => rfl
    | node head children =>
      exact normalizedBaseTypesEqual_congr fun l _ r hr => h l r (Term.depth_lt hr)

variable {left right : NormalizedTypeRef}

lemma normalizedTypesEqualStep_congr
    (h : ∀ l r, comparisonDepth l r < comparisonDepth left right → f l r = f' l r) :
    R.normalizedTypesEqualStep policy f left right =
      R.normalizedTypesEqualStep policy f' left right := by
  cases left with
  | concrete l =>
    cases right with
    | concrete r =>
      have hch : ∀ a ∈ l.children, ∀ b ∈ r.children,
          f (.concrete a) (.concrete b) = f' (.concrete a) (.concrete b) :=
        fun a ha b _ => h (.concrete a) (.concrete b) (Trees.Tree.depth_lt ha)
      simp only [normalizedTypesEqualStep, normalizedBaseTypesEqual_congr hch]
    | method res t generics =>
      exact normalizedConcreteEqualsMethodType_congr fun a b hb => h _ _ hb
  | method leftRes left leftGenerics =>
    cases right with
    | concrete r => exact normalizedConcreteEqualsMethodType_congr fun a b hb => h _ _ hb
    | method rightRes right rightGenerics =>
      have hleft (c : ConcreteType) :
          R.normalizedConcreteEqualsMethodType policy f c leftRes left leftGenerics =
            R.normalizedConcreteEqualsMethodType policy f' c leftRes left leftGenerics :=
        normalizedConcreteEqualsMethodType_congr fun a b hb =>
          h _ _ (lt_of_lt_of_le hb (le_max_left ..))
      have hright (c : ConcreteType) :
          R.normalizedConcreteEqualsMethodType policy f c rightRes right rightGenerics =
            R.normalizedConcreteEqualsMethodType policy f' c rightRes right rightGenerics :=
        normalizedConcreteEqualsMethodType_congr fun a b hb =>
          h _ _ (lt_of_lt_of_le hb (le_max_right ..))
      simp only [normalizedTypesEqualStep, normalizedMethodTypesEqual, hleft, hright]
      cases left with
      | var x => rfl
      | node leftHead leftChildren =>
        cases right with
        | var y => rfl
        | node rightHead rightChildren =>
          have hch : ∀ a ∈ leftChildren, ∀ b ∈ rightChildren,
              f (.method leftRes a leftGenerics) (.method rightRes b rightGenerics) =
                f' (.method leftRes a leftGenerics) (.method rightRes b rightGenerics) := by
            intro a ha b hb
            apply h
            have hleft := Term.depth_lt (a := leftHead) ha
            have hright := Term.depth_lt (a := rightHead) hb
            simp only [comparisonDepth]
            omega
          simp only [normalizedBaseTypesEqual_congr hch]

lemma comparisonDepth_pos (left right : NormalizedTypeRef) : 0 < comparisonDepth left right := by
  cases left with
  | concrete l =>
    cases right with
    | concrete r => exact l.depth_pos
    | method res t generics => exact t.depth_pos
  | method leftRes left leftGenerics =>
    cases right with
    | concrete r => exact left.depth_pos
    | method rightRes right rightGenerics =>
      exact lt_of_lt_of_le left.depth_pos (le_max_left ..)

lemma normalizedTypesEqualWithin_eq {d m n : Nat} (hm : d ≤ m) (hn : d ≤ n)
    (h : comparisonDepth left right ≤ d) :
    R.normalizedTypesEqualWithin policy m left right =
      R.normalizedTypesEqualWithin policy n left right := by
  induction d generalizing m n left right with
  | zero => exact absurd h (Nat.not_le_of_lt (comparisonDepth_pos left right))
  | succ d ih =>
    obtain ⟨m, rfl⟩ := Nat.exists_eq_add_of_lt hm
    obtain ⟨n, rfl⟩ := Nat.exists_eq_add_of_lt hn
    apply normalizedTypesEqualStep_congr
    intro l r hlr
    exact ih (Nat.le_add_right d m) (Nat.le_add_right d n)
      (Nat.le_of_lt_succ (lt_of_lt_of_le hlr h))

lemma normalizedTypesEqual_unfold (left right : NormalizedTypeRef) :
    R.normalizedTypesEqual policy left right =
      R.normalizedTypesEqualStep policy (R.normalizedTypesEqual policy) left right := by
  have hdep : comparisonDepth left right = comparisonDepth left right - 1 + 1 := by
    have hpos := comparisonDepth_pos left right
    omega
  rw [normalizedTypesEqual, hdep]
  apply normalizedTypesEqualStep_congr
  intro l r hlr
  exact normalizedTypesEqualWithin_eq (Nat.le_sub_one_of_lt hlr) (le_refl _) (le_refl _)

/-- `concrete_types_equal`, unfolded once. -/
lemma concreteTypesEqual_unfold (c d : ConcreteType) : R.concreteTypesEqual c d = (c == d ||
      R.normalizedBaseTypesEqual .concreteTypesEqual c.resolution c.head c.children d.resolution
        d.head d.children R.concreteTypesEqual) := by
  rw [concreteTypesEqual, normalizedTypesEqual_unfold, normalizedTypesEqualStep]
  by_cases hcd : (c == d) = true
  · rw [if_pos hcd, hcd, Bool.true_or]
  · rw [eq_false_of_ne_true hcd]
    rfl

end TypeResolver

end DotnetVm
