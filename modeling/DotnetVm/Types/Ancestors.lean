import DotnetVm.Types.Generics

/-!
# The classes a type derives from

The runtime walks from a type to the root of its hierarchy, with the type arguments
each class gives to the next one. That metadata is acyclic is part of a loader.
-/

namespace DotnetVm

namespace TypeResolver

variable (R : TypeResolver)

def parentOf (t : TypeDescription) : Option (Except TypeResolutionError TypeDescription) :=
  (R.definition t).extendsClause.map fun clause =>
    let name := R.canonicalTypeName (R.userTypeName t.resolution clause.handle)
    if name = "System.Delegate" then R.corlibWkt .delegate
    else if name = "System.MulticastDelegate" then R.corlibWkt .multicastDelegate
    else R.locateType t.resolution clause.handle

def extendsGenerics (t : TypeDescription) : List MemberType :=
  match (R.definition t).extendsClause with
  | some clause => clause.parameters
  | none => []

end TypeResolver

structure AssemblyLoader extends TypeResolver where
  height : TypeDescription → Nat
  acyclic : ∀ {t parent}, toTypeResolver.parentOf t = some (.ok parent) → height parent < height t

/-- A class on the way to the root, with the type arguments it gives to the next one. -/
abbrev Ancestor := TypeDescription × List MemberType

namespace AssemblyLoader

variable (L : AssemblyLoader)

def ancestorsWithin : Nat → TypeDescription → Except TypeResolutionError (List Ancestor)
  | 0, _ => .ok []
  | n + 1, t =>
    match L.parentOf t with
    | none => .ok [(t, L.extendsGenerics t)]
    | some (.error e) => .error e
    | some (.ok parent) =>
      match ancestorsWithin n parent with
      | .error e => .error e
      | .ok rest => .ok ((t, L.extendsGenerics t) :: rest)

def ancestors (t : TypeDescription) : Except TypeResolutionError (List Ancestor) :=
  L.ancestorsWithin (L.height t + 1) t

variable {t : TypeDescription}

lemma ancestorsWithin_eq {n k : Nat} (hn : L.height t < n)
    (hk : L.height t < k) : L.ancestorsWithin n t = L.ancestorsWithin k t := by
  induction n generalizing k t with
  | zero => exact absurd hn (Nat.not_lt_zero _)
  | succ n ih =>
    cases k with
    | zero => exact absurd hk (Nat.not_lt_zero _)
    | succ k =>
      unfold ancestorsWithin
      cases hp : L.parentOf t with
      | none => rfl
      | some r =>
        cases r with
        | error e => rfl
        | ok parent =>
          have hlt : L.height parent < L.height t := L.acyclic hp
          have hrest : L.ancestorsWithin n parent = L.ancestorsWithin k parent :=
            ih (by omega) (by omega)
          simp only [hrest]

lemma ancestors_eq (t : TypeDescription) : L.ancestors t =
      match L.parentOf t with
      | none => .ok [(t, L.extendsGenerics t)]
      | some (.error e) => .error e
      | some (.ok parent) =>
        match L.ancestors parent with
        | .error e => .error e
        | .ok rest => .ok ((t, L.extendsGenerics t) :: rest) := by
  rw [ancestors, ancestorsWithin]
  cases hp : L.parentOf t with
  | none => rfl
  | some r =>
    cases r with
    | error e => rfl
    | ok parent =>
      have hlt : L.height parent < L.height t := L.acyclic hp
      have hrest : L.ancestorsWithin (L.height t) parent = L.ancestors parent :=
        L.ancestorsWithin_eq hlt (Nat.lt_succ_self _)
      cases hanc : L.ancestors parent <;> simp only [hrest, hanc]

/-- A list that is the chain of its first class. -/
def IsChain : List Ancestor → Prop
  | [] => True
  | (t, arguments) :: rest => L.ancestors t = .ok ((t, arguments) :: rest)

variable {L}

lemma isChain_ancestors {as : List Ancestor}
    (h : L.ancestors t = .ok as) : L.IsChain as ∧
      ∃ rest, as = (t, L.extendsGenerics t) :: rest := by
  have heq := L.ancestors_eq t
  rw [h] at heq
  cases hp : L.parentOf t with
  | none =>
    simp only [hp, Except.ok.injEq] at heq
    subst heq
    exact ⟨h, [], rfl⟩
  | some r =>
    cases r with
    | error e =>
      simp only [hp] at heq
      nomatch heq
    | ok parent =>
      simp only [hp] at heq
      cases hrest : L.ancestors parent with
      | error e =>
        simp only [hrest] at heq
        nomatch heq
      | ok rest =>
        simp only [hrest, Except.ok.injEq] at heq
        subst heq
        exact ⟨h, rest, rfl⟩

variable {rest : List Ancestor}

lemma IsChain.tail {a : Ancestor} (h : L.IsChain (a :: rest)) : L.IsChain rest := by
  obtain ⟨t, arguments⟩ := a
  have h : L.ancestors t = .ok ((t, arguments) :: rest) := h
  rw [L.ancestors_eq] at h
  cases hp : L.parentOf t with
  | none =>
    simp only [hp, Except.ok.injEq, List.cons.injEq] at h
    rw [← h.2]
    exact True.intro
  | some r =>
    cases r with
    | error e =>
      simp only [hp] at h
      nomatch h
    | ok parent =>
      simp only [hp] at h
      cases hrest : L.ancestors parent with
      | error e =>
        simp only [hrest] at h
        nomatch h
      | ok rest' =>
        simp only [hrest, Except.ok.injEq, List.cons.injEq] at h
        rw [← h.2]
        exact (isChain_ancestors hrest).1

end AssemblyLoader

end DotnetVm
