import DotnetVm.Types.Comparer

/-!
# Types the comparer takes for one another

`denote` says which runtime type a concrete type is: a tree that keeps at each node
the full name of the definition, the primitive, the rank of the array.
`concrete_types_equal` looks at less than that: only at the innermost name of a
definition, not at the rank of an array, and where a definition cannot be located
only at the error. It is therefore right exactly for those pairs of types that
differ in something it looks at or that are nowhere confusable.
-/

namespace DotnetVm

open List Trees

/-- What a node of a type means at run time. -/
inductive RuntimeNode where
  | named (fullName : List SimpleName)
  /-- A type that cannot be located is known by its assembly and its handle only. -/
  | unresolved (res : ResolutionS) (handle : UserType)
  | primitive (p : Primitive)
  | vector
  | array (rank : Nat)
  | pointer
  | functionPointer (signature : TypeHead)
  deriving DecidableEq

namespace TypeResolver

variable (R : TypeResolver)

def runtimeNode (res : ResolutionS) (head : TypeHead) : RuntimeNode :=
  match head.handle? with
  | some handle =>
    match R.locateType res handle with
    | .ok t => .named (R.definition t).fullName
    | .error _ => .unresolved res handle
  | none =>
    match head with
    | .primitive p => .primitive p
    | .vector _ => .vector
    | .array shape => .array shape.rank
    | .valuePointer _ => .pointer
    | other => .functionPointer other

/-- The runtime type a concrete type stands for. -/
def denote : ConcreteType → Trees.Tree RuntimeNode :=
  Trees.Tree.fold fun n cs =>
    .node (R.runtimeNode n.source n.head) (match n.head with
      | .primitive _ => []
      | _ => cs)

end TypeResolver

/-- The types a type is built from; a primitive has none. -/
def ConcreteType.components (c : ConcreteType) : List ConcreteType :=
  match c.head with
  | .primitive _ => []
  | _ => c.children

namespace ConcreteType

lemma components_erase (c : ConcreteType) : components (erase c) = (components c).map erase := by
  cases c with
  | node n cs =>
    rw [erase, Trees.Tree.map_node]
    obtain ⟨source, head⟩ := n
    cases head <;> rfl

variable {c d : ConcreteType}

lemma map_components_of_beq (h : (c == d) = true) :
    (components c).map erase = (components d).map erase := by
  rw [← components_erase, ← components_erase, beq_iff.mp h]

/-- Equal types have equal components. -/
lemma beq_of_mem_zip_components {a b : ConcreteType} (h : (c == d) = true)
    (hab : (a, b) ∈ c.components.zip d.components) : (a == b) = true := by
  have hmap := map_components_of_beq h
  rw [← forall₂_eq_eq_eq, forall₂_map_left_iff, forall₂_map_right_iff,
    forall₂_iff_zip] at hmap
  exact beq_iff.mpr (hmap.2 hab)

end ConcreteType

namespace TypeResolver

variable (R : TypeResolver)

lemma denote_eq (c : ConcreteType) :
    R.denote c = .node (R.runtimeNode c.resolution c.head) (c.components.map R.denote) := by
  cases c with
  | node n cs =>
    rw [denote, Trees.Tree.fold_node]
    obtain ⟨source, head⟩ := n
    cases head <;> rfl

/-- What `concrete_types_equal` compares at two nodes, their components apart. -/
inductive LooksSame : ConcreteType → ConcreteType → Prop
  | located {a b : ConcreteType} {l r : UserType} {t u : TypeDescription}
      (ha : a.head.handle? = some l) (hb : b.head.handle? = some r)
      (ht : R.locateType a.resolution l = .ok t) (hu : R.locateType b.resolution r = .ok u)
      (hname : (R.definition t).simple = (R.definition u).simple) : LooksSame a b
  | unlocated {a b : ConcreteType} {l r : UserType} {e : TypeResolutionError}
      (ha : a.head.handle? = some l) (hb : b.head.handle? = some r)
      (hl : R.locateType a.resolution l = .error e)
      (hr : R.locateType b.resolution r = .error e) : LooksSame a b
  | primitive {a b : ConcreteType} {p : Primitive} (ha : a.head = .primitive p)
      (hb : b.head = .primitive p) : LooksSame a b
  | vector {a b : ConcreteType} {m m' : List CustomTypeModifier} (ha : a.head = .vector m)
      (hb : b.head = .vector m') : LooksSame a b
  | array {a b : ConcreteType} {s s' : ArrayShape} (ha : a.head = .array s)
      (hb : b.head = .array s') : LooksSame a b
  | pointer {a b : ConcreteType} {m m' : List CustomTypeModifier} (ha : a.head = .valuePointer m)
      (hb : b.head = .valuePointer m') : LooksSame a b

/-- Two nodes between which the comparison sees no difference. -/
def Indistinct (a b : ConcreteType) : Prop :=
  (a == b) = true ∨ R.LooksSame a b ∧ a.components.length = b.components.length

inductive Confusable : ConcreteType → ConcreteType → Prop
  | rank {a b : ConcreteType} {s s' : ArrayShape} (ha : a.head = .array s) (hb : b.head = .array s')
      (hrank : s.rank ≠ s'.rank) : Confusable a b
  | nested {a b : ConcreteType} {l r : UserType} {t u : TypeDescription}
      (ha : a.head.handle? = some l) (hb : b.head.handle? = some r)
      (ht : R.locateType a.resolution l = .ok t) (hu : R.locateType b.resolution r = .ok u)
      (hname : (R.definition t).simple = (R.definition u).simple)
      (henclosers : (R.definition t).enclosers ≠ (R.definition u).enclosers) : Confusable a b
  | unlocated {a b : ConcreteType} {l r : UserType} {e : TypeResolutionError}
      (ha : a.head.handle? = some l) (hb : b.head.handle? = some r)
      (hl : R.locateType a.resolution l = .error e)
      (hr : R.locateType b.resolution r = .error e)
      (hne : (a.resolution, l) ≠ (b.resolution, r)) : Confusable a b

/-- Two subtypes at the same position of two types. -/
abbrev Corresponding (c d a b : ConcreteType) : Prop :=
  Trees.Tree.Aligned ConcreteType.components c d a b

variable {R}

lemma components_of_handle {c : ConcreteType} {h : UserType} (hc : c.head.handle? = some h) :
    c.components = c.children := by
  unfold ConcreteType.components
  split
  · rename_i p hp
    rw [hp] at hc
    nomatch hc
  · rfl

variable {a : ConcreteType}

lemma mem_children_of_mem_components {c : ConcreteType} (h : a ∈ c.components) :
    a ∈ c.children := by
  unfold ConcreteType.components at h
  split at h
  · nomatch h
  · exact h

lemma denote_eq_iff (c d : ConcreteType) :
    R.denote c = R.denote d ↔ ∀ a b, Corresponding c d a b →
      R.runtimeNode a.resolution a.head = R.runtimeNode b.resolution b.head ∧
        a.components.length = b.components.length := by
  apply Trees.Tree.iff_forall_aligned (r := fun c d => R.denote c = R.denote d)
  · intro s c hc
    exact mem_children_of_mem_components hc
  · intro s t
    rw [denote_eq, denote_eq, Trees.Tree.node.injEq, ← forall₂_eq_eq_eq, forall₂_map_left_iff,
      forall₂_map_right_iff, forall₂_iff_zip, and_assoc]

lemma sameDefinition_iff {leftRes rightRes : ResolutionS} {l r : UserType} :
    R.sameDefinition .concreteTypesEqual leftRes l rightRes r = true ↔
      (∃ t u, R.locateType leftRes l = .ok t ∧ R.locateType rightRes r = .ok u ∧
        (R.definition t).simple = (R.definition u).simple) ∨
      ∃ e, R.locateType leftRes l = .error e ∧ R.locateType rightRes r = .error e := by
  simp only [sameDefinition, TypeComparisonPolicy.concreteTypesEqual]
  cases R.locateType leftRes l with
  | error e =>
    cases R.locateType rightRes r with
    | error e' => simp [eq_comm]
    | ok u => simp
  | ok t =>
    cases R.locateType rightRes r with
    | error e' => simp
    | ok u =>
      by_cases htu : t = u
      · simp [htu]
      · simp [htu, resolvedTypesEqual]

lemma normalizedBaseTypesEqual_iff (a b : ConcreteType) (f : ConcreteType → ConcreteType → Bool) :
    R.normalizedBaseTypesEqual .concreteTypesEqual a.resolution a.head a.children
      b.resolution b.head
        b.children f = true ↔
      R.LooksSame a b ∧ List.Forall₂ (fun c d => f c d = true) a.components b.components := by
  constructor
  · intro h
    unfold normalizedBaseTypesEqual at h
    split at h
    · rename_i l r hl hr
      rw [Bool.and_eq_true, allEqual_iff] at h
      rw [components_of_handle hl, components_of_handle hr]
      refine ⟨?_, h.2⟩
      rcases sameDefinition_iff.mp h.1 with ⟨t, u, ht, hu, hname⟩ | ⟨e, hl', hr'⟩
      · exact .located hl hr ht hu hname
      · exact .unlocated hl hr hl' hr'
    · -- neither node is a definition
      unfold ConcreteType.components
      split at h
      · rename_i p q hp hq
        rw [hp, hq]
        exact ⟨.primitive hp (of_decide_eq_true h ▸ hq), .nil⟩
      · rename_i m m' hm hm'
        rw [hm, hm']
        exact ⟨.vector hm hm', allEqual_iff.mp h⟩
      · rename_i m m' hm hm'
        rw [hm, hm']
        exact ⟨.array hm hm', allEqual_iff.mp h⟩
      · rename_i m m' hm hm'
        rw [hm, hm']
        exact ⟨.pointer hm hm', allEqual_iff.mp h⟩
      · nomatch h
    · nomatch h
  · rintro ⟨hlook, hkids⟩
    unfold normalizedBaseTypesEqual
    cases hlook with
    | located ha hb ht hu hname =>
      rw [components_of_handle ha, components_of_handle hb] at hkids
      simp only [ha, hb, Bool.and_eq_true, allEqual_iff]
      exact ⟨sameDefinition_iff.mpr (.inl ⟨_, _, ht, hu, hname⟩), hkids⟩
    | unlocated ha hb hl hr =>
      rw [components_of_handle ha, components_of_handle hb] at hkids
      simp only [ha, hb, Bool.and_eq_true, allEqual_iff]
      exact ⟨sameDefinition_iff.mpr (.inr ⟨_, hl, hr⟩), hkids⟩
    | primitive ha hb => simp [ha, hb, TypeHead.handle?]
    | vector ha hb | array ha hb | pointer ha hb =>
      simp only [ConcreteType.components] at hkids
      simpa only [ha, hb, TypeHead.handle?, allEqual_iff] using hkids

lemma concreteTypesEqual_iff_indistinct (c d : ConcreteType) :
    R.concreteTypesEqual c d = true ↔ ∀ a b, Corresponding c d a b → R.Indistinct a b := by
  apply Trees.Tree.iff_forall_aligned (r := fun c d => R.concreteTypesEqual c d = true)
  · intro s c hc
    exact mem_children_of_mem_components hc
  · intro s t
    rw [concreteTypesEqual_unfold, Bool.or_eq_true, normalizedBaseTypesEqual_iff,
      forall₂_iff_zip, Indistinct]
    by_cases hst : (s == t) = true
    · -- the components of equal types are equal, and a type equals itself
      simp only [hst, true_or, true_and, true_iff]
      intro c d hcd
      rw [concreteTypesEqual_unfold, ConcreteType.beq_of_mem_zip_components hst hcd, Bool.true_or]
    · simp [eq_false_of_ne_true hst, and_assoc]

lemma runtimeNode_erase (a : ConcreteType) :
    R.runtimeNode (ConcreteType.erase a).resolution (ConcreteType.erase a).head =
      R.runtimeNode a.resolution a.head := by
  cases a with
  | node n cs =>
    obtain ⟨source, head⟩ := n
    cases head <;> rfl

variable {b : ConcreteType}

lemma runtimeNode_eq_of_indistinct (h : R.Indistinct a b) (hnot : ¬ R.Confusable a b) :
    R.runtimeNode a.resolution a.head = R.runtimeNode b.resolution b.head ∧
      a.components.length = b.components.length := by
  rcases h with heq | ⟨hlook, hlen⟩
  · rw [← runtimeNode_erase a, ← runtimeNode_erase b, ConcreteType.beq_iff.mp heq]
    exact ⟨rfl, by simpa using congrArg List.length (ConcreteType.map_components_of_beq heq)⟩
  · refine ⟨?_, hlen⟩
    unfold runtimeNode
    cases hlook with
    | located ha hb ht hu hname =>
      simp only [ha, hb, ht, hu]
      by_contra hne
      refine hnot (.nested ha hb ht hu hname fun henclosers => hne ?_)
      rw [TypeDefinition.fullName, TypeDefinition.fullName, hname, henclosers]
    | unlocated ha hb hl hr =>
      simp only [ha, hb, hl, hr]
      by_contra hne
      refine hnot (.unlocated ha hb hl hr fun hsm => hne ?_)
      rw [Prod.mk.injEq] at hsm
      rw [hsm.1, hsm.2]
    | primitive ha hb | vector ha hb | pointer ha hb => simp only [ha, hb, TypeHead.handle?]
    | array ha hb =>
      simp only [ha, hb, TypeHead.handle?]
      by_contra hne
      exact hnot (.rank ha hb fun hrank => hne (by rw [hrank]))

lemma runtimeNode_ne_of_confusable (h : R.Confusable a b) :
    R.runtimeNode a.resolution a.head ≠ R.runtimeNode b.resolution b.head := by
  unfold runtimeNode
  cases h with
  | rank ha hb hrank => simpa [ha, hb, TypeHead.handle?] using hrank
  | nested ha hb ht hu hname henclosers =>
    simpa [ha, hb, ht, hu, TypeDefinition.fullName, hname] using henclosers
  | unlocated ha hb hl hr hne => simpa [ha, hb, hl, hr] using hne

/-- `concrete_types_equal` answers rightly about two types exactly when they differ somewhere in
what it looks at, or when no two corresponding nodes are confusable. -/
theorem concreteTypesEqual_sound_iff (c d : ConcreteType) :
    (R.concreteTypesEqual c d = true → R.denote c = R.denote d) ↔
      (∃ a b, Corresponding c d a b ∧ ¬ R.Indistinct a b) ∨
        ∀ a b, Corresponding c d a b → ¬ R.Confusable a b := by
  rw [concreteTypesEqual_iff_indistinct, denote_eq_iff]
  constructor
  · intro hsound
    by_cases hall : ∀ a b, Corresponding c d a b → R.Indistinct a b
    · right
      intro a b hab hconfusable
      exact runtimeNode_ne_of_confusable hconfusable (hsound hall a b hab).1
    · left
      simpa only [not_forall, exists_prop] using hall
  · rintro (⟨a, b, hab, hdist⟩ | hno) hall
    · exact absurd (hall a b hab) hdist
    · intro a b hab
      exact runtimeNode_eq_of_indistinct (hall a b hab) (hno a b hab)

def nestedNodes : TypeResolver where
  definition t :=
    ⟨⟨none, "Node"⟩, [⟨none, if t.index = 0 then "List" else "Tree"⟩], [], none⟩
  locateType res handle :=
    match handle with
    | .definition i => .ok ⟨res, i⟩
    | .reference _ => .error (.typeNotFound "")
  corlibWkt _ := .error (.typeNotFound "")
  canonicalTypeName name := name
  userTypeName _ _ := ""
  constraintsHold _ := .ok ()

def nestedNode (index : Nat) : ConcreteType :=
  .node ⟨⟨some 0⟩, .user (.definition index) none⟩ []

def arrayOfRank (rank : Nat) (element : ConcreteType) : ConcreteType :=
  .node ⟨⟨some 0⟩, .array ⟨rank, [], []⟩⟩ [element]

/-- `List.Node` and `Tree.Node` are called equal, and so are their arrays of ranks 2 and 3. -/
theorem nested_types_and_ranks_confused :
    (nestedNodes.concreteTypesEqual (nestedNode 0) (nestedNode 1) = true ∧
      nestedNodes.denote (nestedNode 0) ≠ nestedNodes.denote (nestedNode 1)) ∧
    (nestedNodes.concreteTypesEqual (arrayOfRank 2 (nestedNode 0)) (arrayOfRank 3 (nestedNode 0)) =
        true ∧
      nestedNodes.denote (arrayOfRank 2 (nestedNode 0)) ≠
        nestedNodes.denote (arrayOfRank 3 (nestedNode 0))) := by
  decide

end TypeResolver
end DotnetVm
