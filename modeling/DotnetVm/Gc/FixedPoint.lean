import DotnetVm.Gc.Marking

/-!
# Marking reaches exactly what is reachable

A round keeps three things: what an arena has marked is the local closure of
its roots, everything handed out is installed as a root of its owner, and every
edge that leaves an arena from a marked object is either handed out or waiting
to be. When nothing new is waiting, the marked objects are closed under all
edges. Each further round hands out a reference that was not handed out before,
and there are only as many as objects.
-/

namespace DotnetVm

open Function List

namespace ObjectGraph

variable {G : ObjectGraph}

/-- The reference recorded for an object. -/
def crossRef (G : ObjectGraph) (p : Nat) : CrossArenaRef := ⟨G.identity (G.ownerId p), p⟩

variable {p : Nat}

lemma Reachable.mem_objects (h : G.Reachable p) : p ∈ G.objects := by
  induction h with
  | root ha hp => exact G.roots_subset _ ha hp
  | ref _ hq _ => exact G.refs_subset _ hq

lemma Reachable.ownerId_mem (h : G.Reachable p) : G.ownerId p ∈ G.arenas :=
  G.ownerId_mem p h.mem_objects

variable {a : ArenaId} {roots : Finset Nat}

lemma LocallyReachable.ownerId_eq (h : G.LocallyReachable a roots p) : G.ownerId p = a := by
  cases h with
  | root _ ha => exact ha
  | ref _ _ ha => exact ha

lemma LocallyReachable.reachable
    (hroots : ∀ q ∈ roots, G.Reachable q) (h : G.LocallyReachable a roots p) : G.Reachable p := by
  induction h with
  | root hp _ => exact hroots _ hp
  | ref _ hq _ ih => exact ih.ref hq

lemma tryAcquireLeaseForIdentity_iff {identity : ArenaIdentity} :
    G.tryAcquireLeaseForIdentity identity = true ↔
      identity.arenaId ∈ G.arenas ∧ G.identity identity.arenaId = identity := by
  simp [tryAcquireLeaseForIdentity]

lemma traceRef_eq_some_iff {reference : CrossArenaRef} : G.traceRef a p = some reference ↔
      G.ownerId p ≠ a ∧ G.ownerId p ∈ G.arenas ∧ reference = G.crossRef p := by
  unfold traceRef tryAcquireLease crossRef
  split
  · split <;> simp_all [eq_comm]
  · simp_all

end ObjectGraph

namespace Marking

variable {G : ObjectGraph} {F : FinishMarking G}

variable {a : ArenaId}

lemma mem_recordFoundCrossArenaRefs {traced : List Nat} {reference : CrossArenaRef} :
    reference ∈ recordFoundCrossArenaRefs G a traced ↔
      ∃ p ∈ traced, G.ownerId p ≠ a ∧ G.ownerId p ∈ G.arenas ∧ reference = G.crossRef p := by
  simp only [recordFoundCrossArenaRefs, mem_filter, mem_filterMap,
    ObjectGraph.traceRef_eq_some_iff, ObjectGraph.tryAcquireLeaseForIdentity_iff]
  constructor
  · rintro ⟨h, -⟩
    exact h
  · rintro ⟨p, hp, hne, hmem, rfl⟩
    refine ⟨⟨p, hp, hne, hmem, rfl⟩, ?_⟩
    simp only [ObjectGraph.crossRef, G.identity_arenaId]
    exact ⟨hmem, trivial⟩

lemma installRoots_marked (a : ArenaId) (ptrs : List CrossArenaRef) (m : ArenaMarks) :
    (installRoots G a ptrs m).marked = m.marked := by
  unfold installRoots
  induction ptrs generalizing m with
  | nil => rfl
  | cons reference rest ih =>
    rw [foldl_cons, ih]
    split
    · rfl
    · split <;> rfl

variable {m : ArenaMarks}

lemma mem_installRoots (ha : a ∈ G.arenas) {ptrs : List CrossArenaRef} {p : Nat} :
    p ∈ (installRoots G a ptrs m).crossArenaRoots ↔
      p ∈ m.crossArenaRoots ∨ (⟨G.identity a, p⟩ : CrossArenaRef) ∈ ptrs := by
  unfold installRoots
  induction ptrs generalizing m with
  | nil => simp
  | cons reference rest ih =>
    obtain ⟨identity, ptr⟩ := reference
    rw [foldl_cons, ih]
    by_cases hid : G.identity a = identity
    · subst hid
      have hlease : G.tryAcquireLeaseForIdentity (G.identity a) = true :=
        ObjectGraph.tryAcquireLeaseForIdentity_iff.mpr (by simp [G.identity_arenaId, ha])
      simp [G.identity_arenaId, hlease]
      tauto
    · simp [hid]

section

variable (F : FinishMarking G) (a : ArenaId) (command : MarkPhaseCommand)

def obey (m : ArenaMarks) : ArenaMarks :=
  { prepare G a m command with marked := (F.run a (prepare G a m command)).1 }

/-- The references a command adds to the shared set. -/
def adds (m : ArenaMarks) : List CrossArenaRef :=
  recordFoundCrossArenaRefs G a (F.run a (prepare G a m command)).2

lemma mem_foldl_insert {α : Type} [DecidableEq α] {l acc : List α} {x : α} :
    x ∈ l.foldl (fun acc y => acc.insert y) acc ↔ x ∈ l ∨ x ∈ acc := by
  induction l generalizing acc with
  | nil => simp
  | cons y l ih => simp [ih]; tauto

lemma executeGcCommand_heap (s : Marking) :
    (executeGcCommand F a command s).heap = update s.heap a (obey F a command (s.heap a)) := rfl

end

variable {command : MarkPhaseCommand} {s : Marking}

variable {order : List ArenaId}

section

variable (commands : ArenaId → Option MarkPhaseCommand)

lemma executeAll_heap (hnd : order.Nodup) (s : Marking) (a : ArenaId) :
    (executeAll F commands order s).heap a =
      if a ∈ order then ((commands a).map fun c => obey F a c (s.heap a)).getD (s.heap a)
      else s.heap a := by
  unfold executeAll
  induction order generalizing s with
  | nil => simp
  | cons b order ih =>
    obtain ⟨hb, hnd⟩ := nodup_cons.mp hnd
    rw [foldl_cons, ih hnd]
    by_cases hab : a = b
    · subst hab
      cases hc : commands a <;> simp [hb, executeGcCommand_heap]
    · cases hc : commands b <;> simp [hab, executeGcCommand_heap]

lemma mem_executeAll_refs (hnd : order.Nodup) (s : Marking) (x : CrossArenaRef) :
    x ∈ (executeAll F commands order s).crossArenaRefs ↔
      (∃ a ∈ order, ∃ c, commands a = some c ∧ x ∈ adds F a c (s.heap a)) ∨
        x ∈ s.crossArenaRefs := by
  unfold executeAll
  induction order generalizing s with
  | nil => simp
  | cons b order ih =>
    obtain ⟨hb, hnd⟩ := nodup_cons.mp hnd
    have hoth : ∀ a ∈ order, ∀ c, (executeGcCommand F b c s).heap a = s.heap a := fun a ha c => by
      rw [executeGcCommand_heap, update_of_ne]
      rintro rfl
      exact hb ha
    rw [foldl_cons, ih hnd]
    cases hc : commands b with
    | none => simp [hc]
    | some c =>
      have hrefs : ∀ y, y ∈ (executeGcCommand F b c s).crossArenaRefs ↔ _ := fun _ =>
        mem_foldl_insert
      simp only [hrefs, mem_cons]
      constructor
      · rintro (⟨a, ha, d, hd, hx⟩ | hx | hx)
        · rw [hoth a ha] at hx
          exact .inl ⟨a, Or.inr ha, d, hd, hx⟩
        · exact .inl ⟨b, Or.inl rfl, c, hc, hx⟩
        · exact .inr hx
      · rintro (⟨a, rfl | ha, d, hd, hx⟩ | hx)
        · rw [hc] at hd
          cases hd
          exact .inr (Or.inl hx)
        · exact .inl ⟨a, ha, d, hd, by rwa [hoth a ha]⟩
        · exact .inr (Or.inr hx)

end

/-- The marks of an arena are the local closure of roots that are rightly its own. -/
structure ArenaExact (G : ObjectGraph) (a : ArenaId) (m : ArenaMarks) : Prop where
  roots : ∀ q ∈ m.crossArenaRoots, G.ownerId q = a ∧ G.Reachable q
  marked : ∀ p, p ∈ m.marked ↔ G.LocallyReachable a (G.roots a ∪ m.crossArenaRoots) p

lemma ArenaExact.roots_reachable (ha : a ∈ G.arenas)
    (h : ∀ q ∈ m.crossArenaRoots, G.ownerId q = a ∧ G.Reachable q) (q : Nat)
    (hq : q ∈ G.roots a ∪ m.crossArenaRoots) : G.Reachable q := by
  cases Finset.mem_union.mp hq with
  | inl hroot => exact .root ha hroot
  | inr hcross => exact (h q hcross).2

lemma ArenaExact.reachable (ha : a ∈ G.arenas)
    (h : ArenaExact G a m) {p : Nat} (hp : p ∈ m.marked) : G.Reachable p :=
  ((h.marked p).mp hp).reachable (roots_reachable ha h.roots)

/-- The edges leaving the arena of `m`. -/
def Leaves (G : ObjectGraph) (a : ArenaId) (m : ArenaMarks) (q : Nat) : Prop :=
  G.ownerId q ≠ a ∧ (q ∈ G.roots a ∨ ∃ p ∈ m.marked, q ∈ G.refs p)

lemma Leaves.reachable (ha : a ∈ G.arenas)
    (h : ArenaExact G a m) {q : Nat} (hq : Leaves G a m q) : G.Reachable q := by
  rcases hq.2 with hroot | ⟨p, hp, hpq⟩
  · exact .root ha hroot
  · exact (h.reachable ha hp).ref hpq

section Commands

variable {a : ArenaId} {m : ArenaMarks} {command : MarkPhaseCommand}

section

variable (hroots : ∀ q ∈ (prepare G a m command).crossArenaRoots, G.ownerId q = a ∧ G.Reachable q)
include hroots

lemma obey_exact : ArenaExact G a (obey F a command m) :=
  ⟨hroots, fun p => F.marks a _ p⟩

lemma leaves_of_mem_adds {x : CrossArenaRef} (hx : x ∈ adds F a command m) :
    ∃ q, Leaves G a (obey F a command m) q ∧ x = G.crossRef q := by
  obtain ⟨q, hq, hne, -, rfl⟩ := mem_recordFoundCrossArenaRefs.mp hx
  refine ⟨q, ⟨hne, ?_⟩, rfl⟩
  rcases F.traces_only a _ q hq with hroot | hmark
  · cases Finset.mem_union.mp hroot with
    | inl hroot => exact .inl hroot
    | inr hcross => exact absurd (hroots q hcross).1 hne
  · exact .inr hmark

end

lemma mem_adds_of_leaves (ha : a ∈ G.arenas) (hex : ArenaExact G a (obey F a command m))
    (hmark : (prepare G a m command).marked = m.marked) {q : Nat}
    (hq : Leaves G a (obey F a command m) q) :
    Leaves G a m q ∨ G.crossRef q ∈ adds F a command m := by
  have hown := (hq.reachable ha hex).ownerId_mem
  have hadds : q ∈ (F.run a (prepare G a m command)).2 → G.crossRef q ∈ adds F a command m :=
    fun htrace => mem_recordFoundCrossArenaRefs.mpr ⟨q, htrace, hq.1, hown, rfl⟩
  rcases hq.2 with hroot | ⟨p, hp, hpq⟩
  · exact .inr (hadds (F.traces_roots a _ q hroot))
  · by_cases hbef : p ∈ m.marked
    · exact .inl ⟨hq.1, Or.inr ⟨p, hbef, hpq⟩⟩
    · exact .inr (hadds (F.traces_new a _ p q hp (hmark ▸ hbef) hpq))

end Commands

/-- What holds before each round. -/
structure Distributed (G : ObjectGraph) (s : Marking) (dispatched : List CrossArenaRef) : Prop where
  exact : ∀ a ∈ G.arenas, ArenaExact G a (s.heap a)
  leaves : ∀ a ∈ G.arenas, ∀ q, Leaves G a (s.heap a) q →
    G.crossRef q ∈ s.crossArenaRefs ∨ G.crossRef q ∈ dispatched
  refs : ∀ x ∈ s.crossArenaRefs, ∃ q, G.Reachable q ∧ x = G.crossRef q
  dispatched : ∀ x ∈ dispatched, ∃ q, G.Reachable q ∧ x = G.crossRef q ∧
    q ∈ (s.heap (G.ownerId q)).crossArenaRoots

lemma Distributed.marked_iff {dispatched : List CrossArenaRef}
    (h : Distributed G s dispatched) (hnil : ∀ x ∈ s.crossArenaRefs, x ∈ dispatched)
    (ha : a ∈ G.arenas) (p : Nat) : p ∈ (s.heap a).marked ↔ G.ownerId p = a ∧ G.Reachable p := by
  have hinst : ∀ b ∈ G.arenas, ∀ q, Leaves G b (s.heap b) q → G.Reachable q →
      q ∈ (s.heap (G.ownerId q)).marked := fun b hb q hq hreach => by
    have hdispatched : G.crossRef q ∈ dispatched :=
      (h.leaves b hb q hq).elim (hnil _) id
    obtain ⟨q', -, heq, hcross⟩ := h.dispatched _ hdispatched
    obtain rfl : q = q' := congrArg CrossArenaRef.ptr heq
    exact ((h.exact _ hreach.ownerId_mem).marked q).mpr
      (.root (Finset.mem_union_right _ hcross) rfl)
  have hall : ∀ q, G.Reachable q → q ∈ (s.heap (G.ownerId q)).marked := fun q hq => by
    induction hq with
    | @root b q hb hroot =>
      by_cases hown : G.ownerId q = b
      · subst hown
        exact ((h.exact _ hb).marked q).mpr (.root (Finset.mem_union_left _ hroot) rfl)
      · exact hinst b hb q ⟨hown, Or.inl hroot⟩ (.root hb hroot)
    | @ref p q hp hpq ih =>
      by_cases hown : G.ownerId q = G.ownerId p
      · have hloc := ((h.exact _ hp.ownerId_mem).marked p).mp ih
        rw [hown]
        exact ((h.exact _ hp.ownerId_mem).marked q).mpr (.ref hloc hpq hown)
      · exact hinst _ hp.ownerId_mem q ⟨hown, Or.inr ⟨p, ih, hpq⟩⟩ (hp.ref hpq)
  constructor
  · intro hp
    exact ⟨((h.exact a ha).marked p |>.mp hp).ownerId_eq, (h.exact a ha).reachable ha hp⟩
  · rintro ⟨rfl, hp⟩
    exact hall p hp

lemma distributed_of_markAll (hord : order.Perm G.arenas) (hrefs : s.crossArenaRefs = [])
    (hwhite : ∀ a, (s.heap a).marked = ∅) :
    Distributed G (executeAll F (fun _ => some .all) order s) [] := by
  have hnd := hord.nodup_iff.mpr G.arenas_nodup
  have hheap : ∀ a ∈ G.arenas, (executeAll F (fun _ => some .all) order s).heap a =
      obey F a .all (s.heap a) := fun a ha => by
    simp [executeAll_heap _ hnd, hord.mem_iff.mpr ha]
  have hclr : ∀ a, ∀ q ∈ (prepare G a (s.heap a) .all).crossArenaRoots,
      G.ownerId q = a ∧ G.Reachable q := fun a q hq => absurd hq (Finset.notMem_empty q)
  have hex : ∀ a ∈ G.arenas, ArenaExact G a (obey F a .all (s.heap a)) := fun a _ =>
    obey_exact (hclr a)
  refine ⟨fun a ha => hheap a ha ▸ hex a ha, fun a ha q hq => Or.inl ?_, fun x hx => ?_,
    fun x hx => absurd hx not_mem_nil⟩
  · rw [hheap a ha] at hq
    refine (mem_executeAll_refs _ hnd s _).mpr (Or.inl ⟨a, hord.mem_iff.mpr ha, .all, rfl, ?_⟩)
    cases mem_adds_of_leaves ha (hex a ha) rfl hq with
    | inr hadds => exact hadds
    | inl hbef =>
      -- nothing was marked before, so the edge starts at a root and is traced again
      rcases hbef.2 with hroot | ⟨p, hp, -⟩
      · exact mem_recordFoundCrossArenaRefs.mpr ⟨q, F.traces_roots a _ q hroot, hq.1,
          (hq.reachable ha (hex a ha)).ownerId_mem, rfl⟩
      · rw [hwhite] at hp
        exact absurd hp (Finset.notMem_empty p)
  · rcases (mem_executeAll_refs _ hnd s x).mp hx with ⟨a, ha, c, hc, hadds⟩ | hold
    · cases hc
      have ha := hord.mem_iff.mp ha
      obtain ⟨q, hq, rfl⟩ := leaves_of_mem_adds (hclr a) hadds
      exact ⟨q, hq.reachable ha (hex a ha), rfl⟩
    · rw [hrefs] at hold
      cases hold

variable {crossRefs : List CrossArenaRef}

lemma objectsFor_eq_none
    (h : objectsFor crossRefs a = none) : ∀ x ∈ crossRefs, x.identity.arenaId ≠ a := by
  unfold objectsFor at h
  split at h
  case h_1 hnil =>
    intro x hx heq
    have hmem : x ∈ crossRefs.filter fun y => decide (y.identity.arenaId = a) :=
      mem_filter.mpr ⟨hx, by simpa using heq⟩
    rw [hnil] at hmem
    cases hmem
  case h_2 => cases h

lemma objectsFor_eq_some (h : objectsFor crossRefs a = some command) :
    ∃ ptrs, command = .objects ptrs ∧ ∀ x, x ∈ ptrs ↔ x ∈ crossRefs ∧ x.identity.arenaId = a := by
  unfold objectsFor at h
  split at h
  · cases h
  · cases h
    exact ⟨_, rfl, fun x => by simp⟩

section Round

variable {s : Marking} {dispatched crossRefs : List CrossArenaRef} {a : ArenaId}
  {command : MarkPhaseCommand}

lemma mem_prepare (ha : a ∈ G.arenas) (hcmd : objectsFor crossRefs a = some command) {q : Nat} :
    q ∈ (prepare G a m command).crossArenaRoots ↔
      q ∈ m.crossArenaRoots ∨ (⟨G.identity a, q⟩ : CrossArenaRef) ∈ crossRefs := by
  obtain ⟨ptrs, rfl, hptrs⟩ := objectsFor_eq_some hcmd
  simp [prepare, mem_installRoots ha, hptrs, G.identity_arenaId]

lemma prepare_marked (hcmd : objectsFor crossRefs a = some command) (m : ArenaMarks) :
    (prepare G a m command).marked = m.marked := by
  obtain ⟨ptrs, rfl, -⟩ := objectsFor_eq_some hcmd
  exact installRoots_marked a ptrs m

lemma Distributed.prepare_owned (h : Distributed G s dispatched) (ha : a ∈ G.arenas)
    (hsub : ∀ x ∈ crossRefs, x ∈ s.crossArenaRefs) (hcmd : objectsFor crossRefs a = some command) :
    ∀ q ∈ (prepare G a (s.heap a) command).crossArenaRoots, G.ownerId q = a ∧ G.Reachable q := by
  intro q hq
  cases (mem_prepare ha hcmd).mp hq with
  | inl hold => exact (h.exact a ha).roots q hold
  | inr hnew =>
    obtain ⟨q', hreach, heq⟩ := h.refs _ (hsub _ hnew)
    obtain rfl : q = q' := congrArg CrossArenaRef.ptr heq
    have hid : G.identity a = G.identity (G.ownerId q) := congrArg CrossArenaRef.identity heq
    refine ⟨?_, hreach⟩
    rw [← G.identity_arenaId (G.ownerId q), ← hid, G.identity_arenaId]

lemma Distributed.round (h : Distributed G s dispatched)
    (hord : order.Perm G.arenas) (hsub : ∀ x ∈ crossRefs, x ∈ s.crossArenaRefs)
    (hfresh : ∀ x ∈ s.crossArenaRefs, x ∈ crossRefs ∨ x ∈ dispatched) :
    Distributed G (executeAll F (objectsFor crossRefs) order { s with crossArenaRefs := [] })
      (crossRefs ++ dispatched) := by
  have hnd := hord.nodup_iff.mpr G.arenas_nodup
  have hheap := fun a (ha : a ∈ G.arenas) => executeAll_heap (F := F)
    (objectsFor crossRefs) hnd { s with crossArenaRefs := [] } a |>.trans
      (if_pos (hord.mem_iff.mpr ha))
  have hrefs := fun x => mem_executeAll_refs (F := F)
    (objectsFor crossRefs) hnd { s with crossArenaRefs := [] } x
  have hex : ∀ a ∈ G.arenas, ∀ command, objectsFor crossRefs a = some command →
      ArenaExact G a (obey F a command (s.heap a)) := fun a ha command hcmd =>
    obey_exact (h.prepare_owned ha hsub hcmd)
  have hknown : ∀ a ∈ G.arenas, ∀ q, Leaves G a (s.heap a) q →
      G.crossRef q ∈ crossRefs ++ dispatched := fun a ha q hq =>
    mem_append.mpr ((h.leaves a ha q hq).elim (hfresh _) Or.inr)
  constructor
  case exact =>
    intro a ha
    rw [hheap a ha]
    cases hcmd : objectsFor crossRefs a with
    | none => exact h.exact a ha
    | some command => exact hex a ha command hcmd
  case leaves =>
    intro a ha q hq
    rw [hheap a ha] at hq
    cases hcmd : objectsFor crossRefs a with
    | none =>
      rw [hcmd] at hq
      exact .inr (hknown a ha q hq)
    | some command =>
      rw [hcmd] at hq
      cases mem_adds_of_leaves ha (hex a ha command hcmd) (prepare_marked hcmd _) hq with
      | inl hbef => exact .inr (hknown a ha q hbef)
      | inr hadds =>
        exact .inl ((hrefs _).mpr (Or.inl ⟨a, hord.mem_iff.mpr ha, command, hcmd, hadds⟩))
  case refs =>
    intro x hx
    rcases (hrefs x).mp hx with ⟨a, ha, command, hcmd, hadds⟩ | hold
    · have ha := hord.mem_iff.mp ha
      obtain ⟨q, hq, rfl⟩ := leaves_of_mem_adds (h.prepare_owned ha hsub hcmd) hadds
      exact ⟨q, hq.reachable ha (hex a ha command hcmd), rfl⟩
    · cases hold
  case dispatched =>
    have hinst : ∀ q, G.Reachable q →
        q ∈ (s.heap (G.ownerId q)).crossArenaRoots ∨ G.crossRef q ∈ crossRefs →
        q ∈ ((executeAll F (objectsFor crossRefs) order { s with crossArenaRefs := [] }).heap
          (G.ownerId q)).crossArenaRoots := fun q hreach hq => by
      rw [hheap _ hreach.ownerId_mem]
      cases hcmd : objectsFor crossRefs (G.ownerId q) with
      | some command => exact (mem_prepare hreach.ownerId_mem hcmd).mpr hq
      | none =>
        cases hq with
        | inl hold => exact hold
        | inr hnew => exact absurd (G.identity_arenaId _) (objectsFor_eq_none hcmd _ hnew)
    intro x hx
    cases mem_append.mp hx with
    | inl hnew =>
      obtain ⟨q, hreach, rfl⟩ := h.refs x (hsub x hnew)
      exact ⟨q, hreach, rfl, hinst q hreach (Or.inr hnew)⟩
    | inr hold =>
      obtain ⟨q, hreach, rfl, hcross⟩ := h.dispatched x hold
      exact ⟨q, hreach, rfl, hinst q hreach (Or.inl hcross)⟩

end Round

/-- The references that have not been handed out yet. -/
def remaining (G : ObjectGraph) (r : Round) : Nat :=
  (G.objects.image G.crossRef).card - r.dispatched.toFinset.card

lemma remaining_lt {r r' : Round} (hne : crossRefs ≠ [])
    (hnew : ∀ x ∈ crossRefs, x ∉ r.dispatched) (hr' : r'.dispatched = crossRefs ++ r.dispatched)
    (hobjects : ∀ x ∈ r'.dispatched, ∃ q, G.Reachable q ∧ x = G.crossRef q) :
    remaining G r' < remaining G r := by
  have hbd : r'.dispatched.toFinset ⊆ G.objects.image G.crossRef := by
    intro x hx
    obtain ⟨q, hq, rfl⟩ := hobjects x (mem_toFinset.mp hx)
    exact Finset.mem_image_of_mem _ hq.mem_objects
  have hgrows : r.dispatched.toFinset ⊂ r'.dispatched.toFinset := by
    rw [hr', Finset.ssubset_iff_of_subset (by intro x hx; simp_all)]
    obtain ⟨x, hx⟩ := exists_mem_of_ne_nil _ hne
    exact ⟨x, by simp [hx], by simpa using hnew x hx⟩
  have := Finset.card_le_card hbd
  have := Finset.card_lt_card hgrows
  unfold remaining
  omega

lemma remaining_le (r : Round) : remaining G r ≤ G.objects.card :=
  (Nat.sub_le _ _).trans Finset.card_image_le

lemma Distributed.next (hord : order.Perm G.arenas) {r : Round}
    (h : Distributed G r.marking r.dispatched) :
    let crossRefs := r.marking.crossArenaRefs.filter fun x => decide (x ∉ r.dispatched)
    Distributed G
      (executeAll F (objectsFor crossRefs) order { r.marking with crossArenaRefs := [] })
      (crossRefs ++ r.dispatched) :=
  h.round hord (fun _ hx => (mem_filter.mp hx).1)
    (fun x hx => by by_cases hd : x ∈ r.dispatched <;> simp [hx, hd])

lemma fixedPoint_total {order : Nat → List ArenaId} (hord : ∀ n, (order n).Perm G.arenas)
    {r : Round} (h : Distributed G r.marking r.dispatched) :
    ∃ s, (∀ a ∈ G.arenas, ∀ p, p ∈ (s.heap a).marked ↔ G.ownerId p = a ∧ G.Reachable p) ∧
      ∀ n, remaining G r < n → Loops.loop (fixedPointRound F order) n r = some s := by
  apply Loops.loop_total (I := fun r : Round => Distributed G r.marking r.dispatched)
    (remaining G) _ _ h
  · intro r r' hr hbody
    have hnext := hr.next (F := F) (hord r.index)
    simp only [fixedPointRound] at hbody
    split at hbody
    · cases hbody
    · rename_i hne
      split at hbody
      · cases hbody
      · cases hbody
        refine ⟨hnext, remaining_lt hne (fun x hx => ?_) rfl fun x hx => ?_⟩
        · simpa using (mem_filter.mp hx).2
        · obtain ⟨q, hq, heq, -⟩ := hnext.dispatched x hx
          exact ⟨q, hq, heq⟩
  · intro r s hr hbody a ha p
    have hnext := hr.next (F := F) (hord r.index)
    simp only [fixedPointRound] at hbody
    split at hbody
    · rename_i hnil
      cases hbody
      refine hr.marked_iff (fun x hx => ?_) ha p
      simpa using filter_eq_nil_iff.mp hnil x hx
    · split at hbody
      · rename_i hnil
        cases hbody
        exact hnext.marked_iff (fun x hx => by rw [hnil] at hx; cases hx) ha p
      · cases hbody

/-- The marking phase ends after at most one round for each object, whatever the order of the
arenas in each round, and then the marked objects of each arena are those of its own that are
reachable from any arena's roots. -/
theorem markPhase_marks_reachable {order : Nat → List ArenaId}
    (horder : ∀ n, (order n).Perm G.arenas) {initiatingThreadId : ArenaId}
    (hinitiating : initiatingThreadId ∈ G.arenas) {s : Marking}
    (hwhite : ∀ a, (s.heap a).marked = ∅) :
    ∃ s', (∀ n, G.objects.card < n → markPhase F order initiatingThreadId n s = some s') ∧
      ∀ a ∈ G.arenas, ∀ p, p ∈ (s'.heap a).marked ↔ G.ownerId p = a ∧ G.Reachable p := by
  have hbeg : Distributed G (executeAll F (fun _ => some .all) (order 0)
      { s with crossArenaRefs := [] }) [] := distributed_of_markAll (horder 0) rfl hwhite
  obtain ⟨s', hmark, hrun⟩ := fixedPoint_total
    (r := ⟨1, executeAll F (fun _ => some .all) (order 0) { s with crossArenaRefs := [] }, []⟩)
    horder hbeg
  refine ⟨s', fun n hn => ?_, hmark⟩
  simp only [markPhase, if_pos hinitiating]
  exact hrun n (lt_of_le_of_lt (remaining_le _) hn)

section Ideal

open Classical

noncomputable def idealMarking (G : ObjectGraph) : FinishMarking G where
  run a m :=
    let roots := G.roots a ∪ m.crossArenaRoots
    let marked := (roots ∪ G.objects).filter (G.LocallyReachable a roots)
    (marked, roots.toList ++ (marked.biUnion G.refs).toList)
  marks a m p := by
    simp only [Finset.mem_filter, Finset.mem_union, and_iff_right_iff_imp]
    intro h
    cases h with
    | root hp _ => exact .inl (Finset.mem_union.mp hp)
    | ref _ hq _ => exact .inr (G.refs_subset _ hq)
  traces_roots a m q hq := by
    simp only [mem_append, Finset.mem_toList, Finset.mem_union]
    exact .inl (Or.inl hq)
  traces_new a m p q hp _ hq := by
    simp only [mem_append, Finset.mem_toList, Finset.mem_biUnion]
    exact .inr ⟨p, hp, hq⟩
  traces_only a m q hq := by
    simpa only [mem_append, Finset.mem_toList, Finset.mem_biUnion] using hq

end Ideal

def backAndForth : ObjectGraph where
  arenas := [1, 2]
  identity a := ⟨a, 0⟩
  objects := {10, 11, 20, 21}
  ownerId p := if p < 20 then 1 else 2
  roots a := if a = 1 then {10} else ∅
  refs p := if p = 10 then {20} else if p = 20 then {10, 21} else if p = 11 then {20} else ∅
  arenas_nodup := by decide
  identity_arenaId _ := rfl
  roots_subset := by decide
  refs_subset p := by
    split
    · decide
    · split
      · decide
      · split <;> decide
  ownerId_mem := by decide

theorem backAndForth_marked :
    ∃ s', markPhase (idealMarking backAndForth) (fun n => if n = 0 then [1, 2] else [2, 1]) 1 5
        ⟨fun _ => ⟨∅, ∅⟩, []⟩ = some s' ∧
      21 ∈ (s'.heap 2).marked ∧ 11 ∉ (s'.heap 1).marked := by
  have hord : ∀ n : Nat, (if n = 0 then [1, 2] else [2, 1]).Perm backAndForth.arenas :=
    fun n => by split <;> decide
  have hinit : 1 ∈ backAndForth.arenas := by decide
  obtain ⟨s', hrun, hmark⟩ := markPhase_marks_reachable hord
    hinit (s := ⟨fun _ => ⟨∅, ∅⟩, []⟩) (fun _ => rfl)
  have hreach : backAndForth.Reachable 21 :=
    .ref (.ref (.root (a := 1) (by decide) (p := 10) (by decide)) (q := 20) (by decide)) (by decide)
  have hunreach : ∀ p, backAndForth.Reachable p → p ≠ 11 := fun p hp => by
    induction hp with
    | @root a p _ hroot =>
      simp only [backAndForth] at hroot
      split at hroot <;> simp_all
    | @ref p q _ hq _ =>
      simp only [backAndForth] at hq
      split at hq
      · simp_all
      · split at hq
        · simp only [Finset.mem_insert, Finset.mem_singleton] at hq
          omega
        · cases hq
  refine ⟨s', hrun 5 (by decide), (hmark 2 (by decide) 21).mpr ⟨rfl, hreach⟩, fun h => ?_⟩
  exact hunreach 11 ((hmark 1 (by decide) 11).mp h).2 rfl

end Marking

end DotnetVm
