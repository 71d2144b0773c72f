import DotnetVm.Types.Data

/-!
# Hashes of types and lookups

A concrete type carries the hash of its structure, computed when it is built, and
a generic lookup one of its arguments, refreshed by its setters. Equality ignores
the class or value-type annotation of every node; so does the hash, and the two
agree whatever digest the hasher makes of the words written to it.
-/

namespace DotnetVm

open Bool List Trees

/-- `base_type_eq_without_value_kind`, given how the components compare. -/
def TypeHead.equalWithoutValueKind (componentsEqual : Bool) : TypeHead → TypeHead → Bool
  | .user l _, .user r _ => l == r && componentsEqual
  | .generic l _, .generic r _ => l == r && componentsEqual
  | .primitive l, .primitive r => l == r
  | .vector ls, .vector rs => ls == rs && componentsEqual
  | .array l, .array r => componentsEqual && l == r
  | .valuePointer ls, .valuePointer rs => ls == rs && componentsEqual
  | .functionPointer l, .functionPointer r => l == r && componentsEqual
  | _, _ => false

mutual
/-- `PartialEq::eq`. The test for a shared base is left out: a shared base compares equal. -/
def ConcreteType.equal : ConcreteType → ConcreteType → Bool
  | .node n cs, .node m ds =>
    n.source == m.source && n.head.equalWithoutValueKind (ConcreteType.allEqual cs ds) m.head

def ConcreteType.allEqual : List ConcreteType → List ConcreteType → Bool
  | [], [] => true
  | c :: cs, d :: ds => ConcreteType.equal c d && ConcreteType.allEqual cs ds
  | _, _ => false
end

def ResolutionS.words : ResolutionS → List Nat
  | ⟨none⟩ => [0]
  | ⟨some arena⟩ => [arena]

def UserType.words : UserType → List Nat
  | .definition i => [0, i]
  | .reference i => [1, i]

def CustomTypeModifier.words : CustomTypeModifier → List Nat
  | .optional h => 0 :: h.words
  | .required h => 1 :: h.words

def ArrayShape.words (shape : ArrayShape) : List Nat :=
  shape.rank :: shape.sizes.length :: shape.sizes ++
    shape.lowerBounds.length :: shape.lowerBounds.map Encodable.encode

def Primitive.tag : Primitive → Nat
  | .boolean => 1 | .char => 2 | .int8 => 3 | .uInt8 => 4 | .int16 => 5 | .uInt16 => 6
  | .int32 => 7 | .uInt32 => 8 | .int64 => 9 | .uInt64 => 10 | .float32 => 11 | .float64 => 12
  | .intPtr => 13 | .uIntPtr => 14 | .object => 15 | .string => 16

def modifierWords (ms : List CustomTypeModifier) : List Nat :=
  ms.length :: ms.flatMap CustomTypeModifier.words

/-- `hash_base_type_without_value_kind`, given the hashes of the components. -/
def TypeHead.words (components : List Nat) : TypeHead → List Nat
  | .user h _ => 0 :: 0 :: h.words
  | .generic h _ => 0 :: 1 :: h.words ++ components.length :: components
  | .primitive p => [p.tag]
  | .vector ms => 17 :: modifierWords ms ++ components
  | .array shape => 18 :: components ++ shape.words
  | .valuePointer ms => 19 :: modifierWords ms ++ components
  | .functionPointer convention => 20 :: convention :: components.length :: components

variable (digest : List Nat → Nat)

/-- `ConcreteType::new` hashes the assembly and the base; a component contributes its own hash. -/
def ConcreteType.hash : ConcreteType → Nat :=
  Tree.fold fun n components => digest (n.source.words ++ n.head.words components)

variable {cs ds : List ConcreteType}

lemma words_of_equal {l r : TypeHead}
    (h : l.equalWithoutValueKind (ConcreteType.allEqual cs ds) r = true)
    (hall : ConcreteType.allEqual cs ds = true →
      cs.map (ConcreteType.hash digest) = ds.map (ConcreteType.hash digest)) :
    l.words (cs.map (ConcreteType.hash digest)) = r.words (ds.map (ConcreteType.hash digest)) := by
  cases l <;> cases r <;>
    simp only [TypeHead.equalWithoutValueKind, and_eq_true, beq_iff_eq, reduceCtorEq] at h
  case primitive => rw [h]; rfl
  case array => rw [h.2, TypeHead.words, TypeHead.words, hall h.1]
  case user => rw [h.1]; rfl
  all_goals rw [h.1, TypeHead.words, TypeHead.words, hall h.2]

lemma map_hash_of_allEqual
    (ih : ∀ c ∈ cs, ∀ d, ConcreteType.equal c d = true → c.hash digest = d.hash digest)
    (h : ConcreteType.allEqual cs ds = true) :
    cs.map (ConcreteType.hash digest) = ds.map (ConcreteType.hash digest) := by
  induction cs generalizing ds with
  | nil => cases ds with
    | nil => rfl
    | cons => simp [ConcreteType.allEqual] at h
  | cons c cs ihs =>
    cases ds with
    | nil => simp [ConcreteType.allEqual] at h
    | cons d ds =>
      rw [ConcreteType.allEqual, and_eq_true] at h
      rw [map_cons, map_cons, ih c mem_cons_self d h.1,
        ihs (fun c hc => ih c (mem_cons_of_mem _ hc)) h.2]

lemma hash_of_equal {c d : ConcreteType} (h : ConcreteType.equal c d = true) :
    c.hash digest = d.hash digest := by
  induction c using Tree.induction generalizing d with
  | node n cs ih =>
    cases d with
    | node m ds =>
      rw [ConcreteType.equal, and_eq_true, beq_iff_eq] at h
      rw [ConcreteType.hash, Tree.fold_node, Tree.fold_node, h.1]
      congr 2
      exact words_of_equal digest h.2 (map_hash_of_allEqual digest fun c hc d => ih c hc)

/-- A `GenericLookup` with the hash it remembers. -/
structure HashedLookup where
  typeGenerics : List ConcreteType
  methodGenerics : List ConcreteType
  hash : Nat

namespace HashedLookup

def sliceWords (ts : List ConcreteType) : List Nat :=
  ts.length :: ts.map (ConcreteType.hash digest)

section

variable (typeGenerics methodGenerics : List ConcreteType)

def computeHash : Nat :=
  digest (sliceWords digest typeGenerics ++ sliceWords digest methodGenerics)

def fromArcs : HashedLookup :=
  ⟨typeGenerics, methodGenerics, computeHash digest typeGenerics methodGenerics⟩

end

/-- `new` and `default` build their lookups by this one too. -/
def fromTypeArc (typeGenerics : List ConcreteType) : HashedLookup := fromArcs digest typeGenerics []

def setTypeGenerics (g : HashedLookup) (typeGenerics : List ConcreteType) : HashedLookup :=
  { g with typeGenerics, hash := computeHash digest typeGenerics g.methodGenerics }

def setMethodGenerics (g : HashedLookup) (methodGenerics : List ConcreteType) : HashedLookup :=
  { g with methodGenerics, hash := computeHash digest g.typeGenerics methodGenerics }

def equal (g g' : HashedLookup) : Bool :=
  ConcreteType.allEqual g.typeGenerics g'.typeGenerics &&
    ConcreteType.allEqual g.methodGenerics g'.methodGenerics

/-- The lookups that constructions and setter calls lead to. -/
inductive Built : HashedLookup → Prop
  | fromArcs (ts ms : List ConcreteType) : Built (fromArcs digest ts ms)
  | fromTypeArc (ts : List ConcreteType) : Built (fromTypeArc digest ts)
  | setTypeGenerics {g : HashedLookup} (h : Built g) (ts : List ConcreteType) :
    Built (g.setTypeGenerics digest ts)
  | setMethodGenerics {g : HashedLookup} (h : Built g) (ms : List ConcreteType) :
    Built (g.setMethodGenerics digest ms)

variable {digest}

lemma Built.fresh {g : HashedLookup} (h : Built digest g) :
    g.hash = computeHash digest g.typeGenerics g.methodGenerics := by
  cases h <;> rfl

lemma computeHash_of_equal {g g' : HashedLookup} (h : equal g g' = true) :
    computeHash digest g.typeGenerics g.methodGenerics =
      computeHash digest g'.typeGenerics g'.methodGenerics := by
  rw [equal, and_eq_true] at h
  have hslice : ∀ {cs ds : List ConcreteType}, ConcreteType.allEqual cs ds = true →
      sliceWords digest cs = sliceWords digest ds := by
    intro cs ds hall
    have hmap := map_hash_of_allEqual digest (fun c _ d => hash_of_equal digest) hall
    have hlen := congrArg List.length hmap
    rw [length_map, length_map] at hlen
    rw [sliceWords, sliceWords, hmap, hlen]
  rw [computeHash, computeHash, hslice h.1, hslice h.2]

end HashedLookup

/-- Equal types have equal hashes, a lookup remembers the hash of the arguments it has, and equal
lookups remember equal hashes. -/
theorem equal_types_and_lookups_hash_equally (digest : List Nat → Nat) :
    (∀ c d : ConcreteType, c.equal d = true → c.hash digest = d.hash digest) ∧
    (∀ g, HashedLookup.Built digest g →
      g.hash = HashedLookup.computeHash digest g.typeGenerics g.methodGenerics) ∧
    ∀ g g', HashedLookup.Built digest g → HashedLookup.Built digest g' → g.equal g' = true →
      g.hash = g'.hash := by
  refine ⟨fun c d => hash_of_equal digest, fun g => HashedLookup.Built.fresh, ?_⟩
  intro g g' hg hg' h
  rw [hg.fresh, hg'.fresh, HashedLookup.computeHash_of_equal h]

end DotnetVm
