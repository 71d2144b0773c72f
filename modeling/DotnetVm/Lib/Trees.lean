import Mathlib

/-!
# Labelled trees and terms

Finitely branching trees with labelled nodes, and terms: trees whose leaves may
also be variables. Both are folded bottom up; the recursion through the list of
children is packaged once, in `fold` and in the induction principles.
-/

namespace Trees

open List

/-- A node with a label and a list of subtrees. -/
inductive Tree (α : Type) where
  | node (label : α) (children : List (Tree α))

/-- A tree over labels `α` whose leaves may be variables of `ν`. -/
inductive Term (α ν : Type) where
  | var (x : ν)
  | node (label : α) (children : List (Term α ν))

variable {α β γ ν : Type}

namespace Tree

def label : Tree α → α
  | .node a _ => a

def children : Tree α → List (Tree α)
  | .node _ cs => cs

@[simp] lemma label_node (a : α) (cs : List (Tree α)) : (node a cs).label = a := rfl

@[simp] lemma children_node (a : α) (cs : List (Tree α)) : (node a cs).children = cs := rfl

@[elab_as_elim, induction_eliminator]
lemma induction {motive : Tree α → Prop}
    (node : ∀ a cs, (∀ c ∈ cs, motive c) → motive (.node a cs)) (t : Tree α) : motive t :=
  @Tree.rec α motive (fun cs => ∀ c ∈ cs, motive c) (fun a cs ih => node a cs ih)
    nofun
    (fun _ _ ih ihs c hc => (mem_cons.mp hc).elim (fun h => h ▸ ih) (ihs c)) t

mutual
def fold (f : α → List β → β) : Tree α → β
  | .node a cs => f a (foldAll f cs)

/-- Evaluate each term of a list. -/
def foldAll (f : α → List β → β) : List (Tree α) → List β
  | [] => []
  | c :: cs => fold f c :: foldAll f cs
end

lemma foldAll_eq_map (f : α → List β → β) (cs : List (Tree α)) :
    foldAll f cs = cs.map (fold f) := by
  induction cs with
  | nil => rfl
  | cons c cs ih => rw [foldAll, ih, map_cons]

@[simp] lemma fold_node (f : α → List β → β) (a : α) (cs : List (Tree α)) :
    fold f (.node a cs) = f a (cs.map (fold f)) := by
  rw [fold, foldAll_eq_map]

section

variable (f : α → β)

/-- Relabel every node. -/
def map : Tree α → Tree β :=
  fold fun a cs => .node (f a) cs

@[simp] lemma map_node (a : α) (cs : List (Tree α)) :
    map f (.node a cs) = .node (f a) (cs.map (map f)) := fold_node ..

end

/-- The number of nodes and variables on a longest path from the root. -/
def depth : Tree α → Nat :=
  fold fun _ ds => ds.foldr max 0 + 1

lemma depth_pos (t : Tree α) : 0 < t.depth := by
  cases t
  exact Nat.succ_pos _

lemma le_foldr_max {n : Nat} {ns : List Nat} (h : n ∈ ns) : n ≤ ns.foldr max 0 := by
  induction ns with
  | nil => exact absurd h not_mem_nil
  | cons m ns ih =>
    rcases mem_cons.mp h with rfl | h
    · exact le_max_left ..
    · exact le_trans (ih h) (le_max_right ..)

lemma depth_lt {t c : Tree α} (h : c ∈ t.children) : c.depth < t.depth := by
  cases t with
  | node a cs =>
    rw [depth, fold_node]
    exact Nat.lt_succ_of_le (le_foldr_max (mem_map_of_mem h))

/-- Two trees put on top of each other: a pair of subtrees at the same position, where `kids` are
the children that count. -/
inductive Aligned (kids : Tree α → List (Tree α)) : Tree α → Tree α → Tree α → Tree α → Prop
  | here {s t : Tree α} : Aligned kids s t s t
  | under {s t c d a b : Tree α} (h : (c, d) ∈ (kids s).zip (kids t))
      (h' : Aligned kids c d a b) : Aligned kids s t a b

variable {kids : Tree α → List (Tree α)}

lemma forall_aligned {P : Tree α → Tree α → Prop} {s t : Tree α} :
    (∀ a b, Aligned kids s t a b → P a b) ↔
      P s t ∧ ∀ c d, (c, d) ∈ (kids s).zip (kids t) → ∀ a b, Aligned kids c d a b → P a b := by
  constructor
  · intro h
    exact ⟨h s t .here, fun c d hcd a b hab => h a b (.under hcd hab)⟩
  · rintro ⟨hroot, hbel⟩ a b hab
    cases hab with
    | here => exact hroot
    | under hcd hab => exact hbel _ _ hcd a b hab

lemma iff_forall_aligned {r test : Tree α → Tree α → Prop}
    (hkids : ∀ s, ∀ c ∈ kids s, c ∈ s.children)
    (h : ∀ s t, r s t ↔ test s t ∧ ∀ c d, (c, d) ∈ (kids s).zip (kids t) → r c d) (s t : Tree α) :
    r s t ↔ ∀ a b, Aligned kids s t a b → test a b := by
  induction s generalizing t with
  | node x cs ih =>
    rw [forall_aligned, h]
    refine and_congr_right fun _ => ?_
    constructor
    · intro hr c d hcd
      exact (ih c (hkids _ c (of_mem_zip hcd).1) d).mp (hr c d hcd)
    · intro htest c d hcd
      exact (ih c (hkids _ c (of_mem_zip hcd).1) d).mpr (htest c d hcd)

mutual
/-- Structural equality is decidable. -/
def decEq [DecidableEq α] : (s t : Tree α) → Decidable (s = t)
  | .node a as, .node b bs =>
    if h : a = b then
      match decEqAll as bs with
      | isTrue h' => isTrue (by rw [h, h'])
      | isFalse h' => isFalse fun e => h' (Tree.node.inj e).2
    else isFalse fun e => h (Tree.node.inj e).1

/-- Structural equality of lists of trees is decidable. -/
def decEqAll [DecidableEq α] : (ss ts : List (Tree α)) → Decidable (ss = ts)
  | [], [] => isTrue rfl
  | [], _ :: _ => isFalse fun e => nomatch e
  | _ :: _, [] => isFalse fun e => nomatch e
  | s :: ss, t :: ts =>
    match decEq s t, decEqAll ss ts with
    | isTrue h, isTrue h' => isTrue (by rw [h, h'])
    | isFalse h, _ => isFalse fun e => h (cons.inj e).1
    | _, isFalse h => isFalse fun e => h (cons.inj e).2
end

instance [DecidableEq α] : DecidableEq (Tree α) := decEq

end Tree

namespace Term

@[elab_as_elim, induction_eliminator]
lemma induction {motive : Term α ν → Prop} (var : ∀ x, motive (.var x))
    (node : ∀ a cs, (∀ c ∈ cs, motive c) → motive (.node a cs)) (t : Term α ν) : motive t :=
  @Term.rec α ν motive (fun cs => ∀ c ∈ cs, motive c) var (fun a cs ih => node a cs ih)
    nofun
    (fun _ _ ih ihs c hc => (mem_cons.mp hc).elim (fun h => h ▸ ih) (ihs c)) t

mutual
def fold (v : ν → β) (f : α → List β → β) : Term α ν → β
  | .var x => v x
  | .node a cs => f a (foldAll v f cs)

def foldAll (v : ν → β) (f : α → List β → β) : List (Term α ν) → List β
  | [] => []
  | c :: cs => fold v f c :: foldAll v f cs
end

section

variable (v : ν → β) (f : α → List β → β)

lemma foldAll_eq_map (cs : List (Term α ν)) : foldAll v f cs = cs.map (fold v f) := by
  induction cs with
  | nil => rfl
  | cons c cs ih => rw [foldAll, ih, map_cons]

@[simp] lemma fold_var (x : ν) : fold v f (.var x) = v x :=
  rfl

@[simp] lemma fold_node (a : α) (cs : List (Term α ν)) :
    fold v f (.node a cs) = f a (cs.map (fold v f)) := by
  rw [fold, foldAll_eq_map]

end

def depth : Term α ν → Nat :=
  fold (fun _ => 1) fun _ ds => ds.foldr max 0 + 1

lemma depth_pos (t : Term α ν) : 0 < t.depth := by
  cases t with
  | var x => exact Nat.one_pos
  | node a cs =>
    exact Nat.succ_pos _

lemma depth_lt {a : α} {cs : List (Term α ν)} {c : Term α ν} (h : c ∈ cs) :
    c.depth < (node a cs).depth := by
  rw [depth, fold_node]
  exact Nat.lt_succ_of_le (Tree.le_foldr_max (mem_map_of_mem h))

end Term

end Trees
