import Mathlib

/-!
# Depth-first search with a bounded depth

A search that follows the edges of a graph recursively, keeps the nodes it has
visited and gives up when the recursion gets too deep. An edge may lead nowhere.
When the search does not give up, what it has newly visited is closed under the
edges, and is all reached from where it was started.
-/

namespace DepthFirst

open Relation

variable {α : Type} {edges : α → List (Option α)}

/-- One edge of the graph. -/
def Edge (edges : α → List (Option α)) (p q : α) : Prop := some q ∈ edges p

/-- What a search from the nodes of `starts` adds to the visited ones. -/
structure Explored (edges : α → List (Option α)) (starts : α → Prop) (visited visited' : List α) :
    Prop where
  mono : ∀ x ∈ visited, x ∈ visited'
  mem : ∀ x, starts x → x ∈ visited'
  closed : ∀ x ∈ visited', x ∉ visited → ∀ y, Edge edges x y → y ∈ visited'
  reached : ∀ x ∈ visited', x ∉ visited → ∃ p, starts p ∧ ReflTransGen (Edge edges) p x

namespace Explored

variable {P Q : α → Prop} {visited visited' visited'' : List α}

lemma nothing (h : ∀ x, P x → x ∈ visited) : Explored edges P visited visited where
  mono _ hx := hx
  mem := h
  closed _ hx hnot := absurd hx hnot
  reached _ hx hnot := absurd hx hnot

lemma trans (h : Explored edges P visited visited') (h' : Explored edges Q visited' visited'') :
    Explored edges (fun x => P x ∨ Q x) visited visited'' where
  mono x hx := h'.mono x (h.mono x hx)
  mem x hx := hx.elim (fun hP => h'.mono x (h.mem x hP)) (h'.mem x)
  closed x hx hnot y hy := by
    by_cases hmem : x ∈ visited'
    · exact h'.mono y (h.closed x hmem hnot y hy)
    · exact h'.closed x hx hmem y hy
  reached x hx hnot := by
    by_cases hmem : x ∈ visited'
    · obtain ⟨p, hp, hpath⟩ := h.reached x hmem hnot
      exact ⟨p, Or.inl hp, hpath⟩
    · obtain ⟨p, hp, hpath⟩ := h'.reached x hx hmem
      exact ⟨p, Or.inr hp, hpath⟩

lemma congr (h : Explored edges P visited visited') (hPQ : ∀ x, P x ↔ Q x) :
    Explored edges Q visited visited' := by
  obtain rfl : P = Q := funext fun x => propext (hPQ x)
  exact h

lemma node {p : α} (h : Explored edges (Edge edges p) (p :: visited) visited') :
    Explored edges (fun x => x = p) visited visited' where
  mono x hx := h.mono x (List.mem_cons_of_mem p hx)
  mem x hx := h.mono x (hx ▸ List.mem_cons_self)
  closed x hx hnot y hy := by
    by_cases hxp : x = p
    · exact h.mem y (hxp ▸ hy)
    · exact h.closed x hx (by simp [hxp, hnot]) y hy
  reached x hx hnot := by
    by_cases hxp : x = p
    · exact ⟨p, rfl, hxp ▸ ReflTransGen.refl⟩
    · obtain ⟨q, hq, hpath⟩ := h.reached x hx (by simp [hxp, hnot])
      exact ⟨p, rfl, ReflTransGen.head hq hpath⟩

lemma mem_iff (h : Explored edges P [] visited') {x : α} :
    x ∈ visited' ↔ ∃ p, P p ∧ ReflTransGen (Edge edges) p x := by
  refine ⟨fun hx => h.reached x hx List.not_mem_nil, ?_⟩
  rintro ⟨p, hp, hpath⟩
  induction hpath with
  | refl => exact h.mem p hp
  | tail _ hedge ih => exact h.closed _ ih List.not_mem_nil _ hedge

end Explored

section Search

variable [DecidableEq α]

/-- Follows one edge; the number is how many more levels the recursion may go down. -/
def follow (edges : α → List (Option α)) : Nat → List α → Option α → Option (List α)
  | 0, _, _ => none
  | _ + 1, visited, none => some visited
  | n + 1, visited, some p =>
    if p ∈ visited then some visited else (edges p).foldlM (follow edges n) (p :: visited)

def visit (edges : α → List (Option α)) (n : Nat) (visited : List α) (p : α) : Option (List α) :=
  if p ∈ visited then some visited else (edges p).foldlM (follow edges n) (p :: visited)

omit [DecidableEq α] in
/-- A list of searches, one after the other. -/
lemma explored_foldlM {β : Type} {search : List α → β → Option (List α)} {starts : β → α → Prop}
    (hsrch : ∀ visited b visited', search visited b = some visited' →
      Explored edges (starts b) visited visited') {l : List β} {visited visited' : List α}
    (h : l.foldlM search visited = some visited') :
    Explored edges (fun x => ∃ b ∈ l, starts b x) visited visited' := by
  induction l generalizing visited with
  | nil =>
    cases h
    exact .nothing fun x hx => by simp at hx
  | cons b l ih =>
    rw [List.foldlM_cons] at h
    obtain ⟨mid, hb, hl⟩ := Option.bind_eq_some_iff.mp h
    exact ((hsrch visited b mid hb).trans (ih hl)).congr fun x => by simp

variable {visited visited' : List α}

lemma explored_of_follow {n : Nat} {e : Option α} (h : follow edges n visited e = some visited') :
    Explored edges (fun x => e = some x) visited visited' := by
  induction n generalizing visited visited' e with
  | zero => cases h
  | succ n ih =>
    cases e with
    | none =>
      cases h
      exact .nothing fun x hx => by cases hx
    | some p =>
      simp only [follow] at h
      split at h
      · rename_i hp
        cases h
        exact .nothing fun x hx => Option.some.inj hx ▸ hp
      · have hall : Explored edges (Edge edges p) (p :: visited) visited' :=
          (explored_foldlM (fun _ _ _ hst => ih hst) h).congr fun x => by simp [Edge]
        exact (hall.node).congr fun x => by simp [eq_comm]

lemma explored_of_visit {n : Nat} {p : α} (h : visit edges n visited p = some visited') :
    Explored edges (fun x => x = p) visited visited' := by
  simp only [visit] at h
  split at h
  · rename_i hp
    cases h
    exact .nothing fun x hx => hx ▸ hp
  · have hall : Explored edges (Edge edges p) (p :: visited) visited' :=
      (explored_foldlM (fun _ _ _ hst => explored_of_follow hst) h).congr
        fun x => by simp [Edge]
    exact hall.node

omit [DecidableEq α] in
/-- A search that never forgets what it has visited completes on a list if it completes on each
entry. -/
lemma foldlM_total {β : Type} {search : List α → β → Option (List α)} (base : List α)
    (hmono : ∀ v b v', search v b = some v' → v ⊆ v') {l : List β}
    (h : ∀ b ∈ l, ∀ v, base ⊆ v → ∃ v', search v b = some v') (hbase : base ⊆ visited) :
    ∃ v', l.foldlM search visited = some v' := by
  induction l generalizing visited with
  | nil => exact ⟨visited, rfl⟩
  | cons b l ih =>
    obtain ⟨v, hv⟩ := h b List.mem_cons_self visited hbase
    obtain ⟨v', hv'⟩ := ih (fun b hb => h b (List.mem_cons_of_mem _ hb))
      (List.Subset.trans hbase (hmono visited b v hv))
    exact ⟨v', by rw [List.foldlM_cons, hv]; exact hv'⟩

/-- A path that repeats no node and ends at one with an edge to follow, if only to nowhere. -/
structure Path (edges : α → List (Option α)) (p : α) (path : List α) : Prop where
  nodup : (p :: path).Nodup
  chain : (p :: path).IsChain (Edge edges)
  last : ∀ q ∈ (p :: path).getLast?, edges q ≠ []

omit [DecidableEq α] in
lemma Path.cons {p q : α} {path : List α} (h : Path edges q path) (hedge : Edge edges p q)
    (hp : p ∉ q :: path) : Path edges p (q :: path) :=
  ⟨List.nodup_cons.mpr ⟨hp, h.nodup⟩, List.isChain_cons_cons.mpr ⟨hedge, h.chain⟩, h.last⟩

/-- Every path from `p` that meets no visited node has at most `n` edges. -/
def Shallow (edges : α → List (Option α)) (n : Nat) (visited : List α) (p : α) : Prop :=
  ∀ path, Path edges p path → (p :: path).Disjoint visited → path.length ≤ n

lemma expand_total {n : Nat} {p : α} (hfoll : ∀ q v, Edge edges p q → p :: visited ⊆ v → q ∉ v →
      ∃ v', (edges q).foldlM (follow edges n) (q :: v) = some v') :
    ∃ v', (edges p).foldlM (follow edges (n + 1)) (p :: visited) = some v' := by
  refine foldlM_total _ (fun v e v' h => (explored_of_follow h).mono) (fun e he v hv => ?_)
    (List.Subset.refl _)
  cases e with
  | none => exact ⟨v, rfl⟩
  | some q =>
    simp only [follow]
    split
    · exact ⟨v, rfl⟩
    next hq => exact hfoll q v he hv hq

omit [DecidableEq α] in
lemma Shallow.through {n : Nat} {p q : α} {v path : List α} (h : Shallow edges n visited p)
    (hp : p ∉ visited) (hedge : Edge edges p q) (hv : p :: visited ⊆ v) (hpath : Path edges q path)
    (hdisj : (q :: path).Disjoint v) : path.length + 1 ≤ n :=
  h (q :: path) (hpath.cons hedge fun hmem => hdisj hmem (hv List.mem_cons_self))
    (List.disjoint_cons_left.mpr ⟨hp, fun _ hx hxv => hdisj hx (hv (List.mem_cons_of_mem _ hxv))⟩)

lemma follow_total {n : Nat} {p : α} (h : Shallow edges n visited p) (hp : p ∉ visited) :
    ∃ v', (edges p).foldlM (follow edges (n + 1)) (p :: visited) = some v' := by
  induction n generalizing p visited with
  | zero =>
    refine expand_total fun q v hedge hv hq => ?_
    by_cases hlast : edges q = []
    · exact ⟨q :: v, by rw [hlast]; rfl⟩
    · have hpath : Path edges q [] := ⟨List.nodup_singleton q, .singleton q, by simpa using hlast⟩
      exact absurd (h.through hp hedge hv hpath (by simpa using hq)) (Nat.not_succ_le_zero _)
  | succ n ih =>
    refine expand_total fun q v hedge hv hq => ih (fun path hpath hdisj => ?_) hq
    exact Nat.le_of_succ_le_succ (h.through hp hedge hv hpath hdisj)

lemma visitAll_total {n : Nat} {l : List α}
    (h : ∀ p ∈ l, ∀ path, Path edges p path → path.length ≤ n) :
    ∃ v, l.foldlM (visit edges (n + 1)) [] = some v := by
  refine foldlM_total [] (fun v p v' h => (explored_of_visit h).mono) (fun p hp v _ => ?_)
    (List.Subset.refl _)
  unfold visit
  split
  · exact ⟨v, rfl⟩
  next hnot => exact follow_total (fun path hpath _ => h p hp path hpath) hnot

/-- A search that takes a long path first gives up. -/
lemma visit_eq_none {n : Nat} {p : α} {path : List α} (hpath : Path edges p path)
    (hfirst : (p :: path).IsChain fun x y => (edges x).head? = some (some y))
    (hnew : (p :: path).Disjoint visited) (hn : n ≤ path.length) :
    visit edges n visited p = none := by
  induction n generalizing p path visited with
  | zero =>
    obtain ⟨e, es, hes⟩ : ∃ e es, edges p = e :: es := by
      cases path with
      | nil => exact List.exists_cons_of_ne_nil (hpath.last p rfl)
      | cons q path => exact List.exists_cons_of_ne_nil (List.ne_nil_of_mem hpath.chain.rel)
    rw [visit, if_neg fun hmem => hnew List.mem_cons_self hmem, hes]
    rfl
  | succ n ih =>
    obtain ⟨q, rest, rfl⟩ : ∃ q rest, path = q :: rest :=
      List.exists_cons_of_length_pos (Nat.lt_of_lt_of_le (Nat.succ_pos n) hn)
    obtain ⟨hp, hnodup⟩ := List.nodup_cons.mp hpath.nodup
    obtain ⟨hhead, hfirst⟩ := List.isChain_cons_cons.mp hfirst
    obtain ⟨es, hes⟩ := List.head?_eq_some_iff.mp hhead
    have hrest : Path edges q rest :=
      ⟨hnodup, (List.isChain_cons_cons.mp hpath.chain).2, hpath.last⟩
    have hnew' : (q :: rest).Disjoint (p :: visited) := List.disjoint_cons_right.mpr
      ⟨hp, fun x hx => hnew (List.mem_cons_of_mem _ hx)⟩
    have hnone : follow edges (n + 1) (p :: visited) (some q) = none :=
      ih hrest hfirst hnew' (Nat.le_of_succ_le_succ hn)
    rw [visit, if_neg fun hmem => hnew List.mem_cons_self hmem, hes, List.foldlM_cons, hnone]
    rfl

lemma mem_of_visitAll {n : Nat} {l : List α}
    (h : l.foldlM (visit edges n) [] = some visited) {x : α} :
    x ∈ visited ↔ ∃ p ∈ l, ReflTransGen (Edge edges) p x := by
  have hall := explored_foldlM (fun _ _ _ hst => explored_of_visit hst) h
  rw [hall.mem_iff]
  exact exists_congr fun p => by simp

end Search

end DepthFirst
