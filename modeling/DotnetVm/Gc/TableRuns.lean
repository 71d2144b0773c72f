import DotnetVm.Gc.Tables

/-!
# What the tables refer to

An object is kept when it was not swept and is not about to be. The invariant is
that everything the roots, the tables and the kept objects refer to is kept. The
threads only pass on references they have, so their steps preserve it; a
collection does when the dependent handles and the objects that wait for their
finalizers lead to nothing its sweeps free.
-/

namespace DotnetVm.Finalization.HeapManager

open HeapTables List

variable {h h' : HeapManager} {new : Nat → Prop}

/-- After the change the tables refer to nothing but what they did and the new objects. -/
def Adds (h h' : HeapManager) (new : Nat → Prop) : Prop := ∀ p, h'.Names p → h.Names p ∨ new p

lemma Adds.refl : Adds h h new := fun _ hp => Or.inl hp

lemma Adds.trans {h'' : HeapManager} (hfst : Adds h h' new) (hsecond : Adds h' h'' new) :
    Adds h h'' new :=
  fun p hp => (hsecond p hp).elim (hfst p) Or.inr

/-- The tables may be looked at one by one. -/
lemma adds_of_tables (hqueue : ∀ p ∈ h'.finalizationQueue, h.Names p ∨ new p)
    (hpend : ∀ p ∈ h'.pendingFinalization, h.Names p ∨ new p)
    (hpin : ∀ p, some p ∈ h'.pinnedObjects → h.Names p ∨ new p)
    (hhs : ∀ p ty, some (some p, ty) ∈ h'.gchandles → h.Names p ∨ new p)
    (hdep : ∀ t d, some (t, d) ∈ h'.dependentHandles →
      ∀ p, t = some p ∨ d = some p → h.Names p ∨ new p)
    (hregistry : ∀ entry ∈ h'.objectRegistry, h.Names entry.obj ∨ new entry.obj) :
    Adds h h' new := by
  intro p hp
  cases hp with
  | queue hmem => exact hqueue p hmem
  | pending hmem => exact hpend p hmem
  | pinned hmem => exact hpin p hmem
  | handle ty hmem => exact hhs p ty hmem
  | target d hmem => exact hdep _ d hmem p (Or.inl rfl)
  | dependent t hmem => exact hdep t _ hmem p (Or.inr rfl)
  | registry entry hmem heq => exact heq ▸ hregistry entry hmem

lemma names_of_dependent (h : HeapManager) {t d : Option Nat}
    (hmem : some (t, d) ∈ h.dependentHandles) (p : Nat)
    (hp : t = some p ∨ d = some p) : h.Names p := by
  cases hp with
  | inl ht => exact .target d (ht ▸ hmem)
  | inr hd => exact .dependent t (hd ▸ hmem)

variable {α : Type}

lemma mem_of_mem_swapRemove {l : List α} {i : Nat} {x : α} (hx : x ∈ swapRemove l i) : x ∈ l := by
  simp only [swapRemove] at hx
  split at hx
  · exact mem_of_mem_take hx
  · rename_i last hlast
    cases mem_append.mp hx with
    | inl hx => exact mem_of_mem_take hx
    | inr hx =>
      cases mem_cons.mp hx with
      | inl heq => exact heq ▸ mem_of_mem_drop (mem_of_getLast? hlast)
      | inr hx => exact mem_of_mem_drop (mem_of_mem_dropLast hx)

variable {handles : List (Option α)}

lemma mem_allocOrReuseSlot {value : α} {x : Option α}
    (hx : x ∈ allocOrReuseSlot handles value) : x ∈ handles ∨ x = some value := by
  simp only [allocOrReuseSlot] at hx
  split at hx
  · exact mem_or_eq_of_mem_set hx
  · simpa using hx

variable {handle : Nat}

lemma mem_setEntry {entry x : Option α}
    (hx : x ∈ setEntry handles handle entry) : x ∈ handles ∨ x = entry := by
  simp only [setEntry] at hx
  split at hx
  · exact .inl hx
  · exact mem_or_eq_of_mem_set hx

lemma mem_of_entryOf {entry : α}
    (h : entryOf handles handle = some entry) : some entry ∈ handles := by
  simp only [entryOf] at h
  split at h
  · cases h
  · exact mem_of_getElem? (Option.join_eq_some_iff.mp h)

lemma adds_pinned {pinned : List (Option Nat)} (hpin : ∀ p, some p ∈ pinned → h.Names p ∨ new p) :
    Adds h { h with pinnedObjects := pinned } new :=
  adds_of_tables (fun _ hp => Or.inl (.queue hp)) (fun _ hp => Or.inl (.pending hp)) hpin
    (fun _ ty hp => Or.inl (.handle ty hp))
    (fun _ _ hp p hobj => Or.inl (names_of_dependent h hp p hobj))
    (fun entry hp => Or.inl (.registry entry hp rfl))

lemma adds_handles {handles : List (Option (Option Nat × GCHandleType))} (hch : Adds h h' new)
    (hhs : ∀ p ty, some (some p, ty) ∈ handles → h.Names p ∨ new p) :
    Adds h { h' with gchandles := handles } new :=
  adds_of_tables (fun p hp => hch p (.queue hp)) (fun p hp => hch p (.pending hp))
    (fun p hp => hch p (.pinned hp)) hhs
    (fun _ _ hp p hobj => hch p (names_of_dependent h' hp p hobj))
    (fun entry hp => hch entry.obj (.registry entry hp rfl))

lemma adds_dependent {handles : List (Option (Option Nat × Option Nat))}
    (hdep : ∀ t d, some (t, d) ∈ handles → ∀ p, t = some p ∨ d = some p → h.Names p ∨ new p) :
    Adds h { h with dependentHandles := handles } new :=
  adds_of_tables (fun _ hp => Or.inl (.queue hp)) (fun _ hp => Or.inl (.pending hp))
    (fun _ hp => Or.inl (.pinned hp)) (fun _ ty hp => Or.inl (.handle ty hp)) hdep
    (fun entry hp => Or.inl (.registry entry hp rfl))

lemma adds_queues {queue pending : List Nat} (hqueue : ∀ p ∈ queue, h.Names p ∨ new p)
    (hpend : ∀ p ∈ pending, h.Names p ∨ new p) :
    Adds h { h with finalizationQueue := queue, pendingFinalization := pending } new :=
  adds_of_tables hqueue hpend (fun _ hp => Or.inl (.pinned hp))
    (fun _ ty hp => Or.inl (.handle ty hp))
    (fun _ _ hp p hobj => Or.inl (names_of_dependent h hp p hobj))
    (fun entry hp => Or.inl (.registry entry hp rfl))

lemma adds_registerObject (start size p : Nat) :
    Adds h (h.registerObject start size p) (· = p) := by
  simp only [registerObject]
  split
  · exact .refl
  · refine adds_of_tables (fun _ hp => Or.inl (.queue hp)) (fun _ hp => Or.inl (.pending hp))
      (fun _ hp => Or.inl (.pinned hp)) (fun _ ty hp => Or.inl (.handle ty hp))
      (fun _ _ hp p hobj => Or.inl (names_of_dependent h hp p hobj)) (fun entry hent => ?_)
    cases mem_append.mp hent with
    | inl hold => exact .inl (.registry entry (mem_of_mem_filter hold) rfl)
    | inr hnew =>
      rw [mem_singleton.mp hnew]
      exact .inr rfl

lemma adds_enqueue (p : Nat) :
    Adds h { h with finalizationQueue := h.finalizationQueue ++ [p] } (· = p) := by
  refine adds_queues (fun q hq => ?_) fun q hq => Or.inl (.pending hq)
  cases mem_append.mp hq with
  | inl hold => exact .inl (.queue hold)
  | inr hnew => exact .inr (mem_singleton.mp hnew)

lemma adds_registerNewObject (start size p : Nat) (hasFinalizer : Bool) :
    Adds h (h.registerNewObject start size p hasFinalizer) (· = p) := by
  simp only [registerNewObject]
  split
  · exact (adds_registerObject start size p).trans (adds_enqueue p)
  · exact adds_registerObject start size p

lemma adds_reRegisterForFinalize (p : Nat) : Adds h (h.reRegisterForFinalize p) (· = p) := by
  simp only [reRegisterForFinalize]
  split
  · exact .refl
  · exact adds_enqueue p

lemma adds_pinObject (obj : Option Nat) : Adds h (h.pinObject obj) (obj = some ·) := by
  simp only [pinObject]
  split
  · exact .refl
  · refine adds_pinned fun p hp => ?_
    cases mem_append.mp hp with
    | inl hold => exact .inl (.pinned hold)
    | inr hnew => exact .inr (mem_singleton.mp hnew).symm

lemma adds_unpinObject (obj : Option Nat) : Adds h (h.unpinObject obj) new := by
  simp only [unpinObject]
  split
  · exact adds_pinned fun p hp => Or.inl (.pinned (mem_of_mem_swapRemove hp))
  · exact .refl

lemma adds_gchandleAlloc (obj : Option Nat) (handleType : GCHandleType) :
    Adds h (h.gchandleAlloc obj handleType) (obj = some ·) := by
  have halloc : Adds h { h with gchandles := allocOrReuseSlot h.gchandles (obj, handleType) }
      (obj = some ·) := by
    refine adds_handles .refl fun p ty hp => ?_
    cases mem_allocOrReuseSlot hp with
    | inl hold => exact .inl (.handle ty hold)
    | inr hnew => exact .inr (Prod.mk.inj (Option.some.inj hnew)).1.symm
  simp only [gchandleAlloc]
  split
  · exact halloc.trans (adds_pinObject obj)
  · exact halloc

lemma names_of_setEntry {entry : Option (Option Nat × GCHandleType)}
    (hent : ∀ p ty, some (some p, ty) = entry → new p) (p : Nat) (ty : GCHandleType)
    (hp : some (some p, ty) ∈ setEntry h.gchandles handle entry) : h.Names p ∨ new p := by
  cases mem_setEntry hp with
  | inl hold => exact .inl (.handle ty hold)
  | inr hnew => exact .inr (hent p ty hnew)

section

variable (handle : Nat)

lemma adds_gchandleFree : Adds h (h.gchandleFree handle) new := by
  refine adds_handles ?_ (names_of_setEntry fun p ty heq => by cases heq)
  split
  · exact adds_unpinObject _
  · exact .refl

lemma adds_gchandleSet (obj : Option Nat) : Adds h (h.gchandleSet handle obj) (obj = some ·) := by
  simp only [gchandleSet]
  split
  · refine adds_handles ?_ (names_of_setEntry fun p ty heq => ?_)
    · split
      · exact (adds_unpinObject _).trans (adds_pinObject obj)
      · exact .refl
    · exact (Prod.mk.inj (Option.some.inj heq)).1.symm
  · exact .refl

lemma adds_dependentHandleAlloc (target dependent : Option Nat) :
    Adds h (h.dependentHandleAlloc target dependent)
      (fun p => target = some p ∨ dependent = some p) := by
  refine adds_dependent fun t d hmem p hp => ?_
  cases mem_allocOrReuseSlot hmem with
  | inl hold => exact .inl (names_of_dependent h hold p hp)
  | inr hnew =>
    cases hnew
    exact .inr hp

lemma adds_dependentHandleSetDependent (dependent : Option Nat) :
    Adds h (h.dependentHandleSetDependent handle dependent) (dependent = some ·) := by
  simp only [dependentHandleSetDependent]
  split
  · rename_i target old hent
    refine adds_dependent fun t d hmem p hp => ?_
    cases mem_setEntry hmem with
    | inl hold => exact .inl (names_of_dependent h hold p hp)
    | inr hnew =>
      cases hnew
      exact hp.imp_left fun ht => names_of_dependent h (mem_of_entryOf hent) p (Or.inl ht)
  · exact .refl

lemma adds_dependentHandleSetTargetToNull :
    Adds h (h.dependentHandleSetTargetToNull handle) new := by
  simp only [dependentHandleSetTargetToNull]
  split
  · refine adds_dependent fun t d hmem p hp => ?_
    cases mem_setEntry hmem with
    | inl hold => exact .inl (names_of_dependent h hold p hp)
    | inr hnew =>
      cases hnew
      cases hp with
      | inl hnull => cases hnull
      | inr hnull => cases hnull
  · exact .refl

lemma adds_dependentHandleFree : Adds h (h.dependentHandleFree handle) new := by
  refine adds_dependent fun t d hmem p hp => ?_
  cases mem_setEntry hmem with
  | inl hold => exact .inl (names_of_dependent h hold p hp)
  | inr hnew =>
    cases hnew

end

lemma names_findObject {ptr p : Nat} (hp : h.findObject ptr = some p) : h.Names p := by
  simp only [findObject] at hp
  split at hp
  · rename_i entry hfind
    exact .registry entry (mem_of_find?_eq_some hfind) (Option.some.inj hp)
  · obtain ⟨entry, hfind, heq⟩ := Option.map_eq_some_iff.mp hp
    exact .registry entry (mem_of_find?_eq_some hfind) heq

/-- The traced entries, table by table. -/
lemma mem_traced {p : Nat} : p ∈ h.traced ↔
    (some (some p, .normal) ∈ h.gchandles ∨ some (some p, .pinned) ∈ h.gchandles) ∨
      some p ∈ h.pinnedObjects ∨ p ∈ h.pendingFinalization := by
  have hhs : (∃ obj handleType, some (obj, handleType) ∈ h.gchandles ∧
      (if handleType = GCHandleType.normal ∨ handleType = .pinned then obj else none) = some p) ↔
      some (some p, .normal) ∈ h.gchandles ∨ some (some p, .pinned) ∈ h.gchandles := by
    constructor
    · rintro ⟨obj, ty, hmem, heq⟩
      split at heq
      · rename_i hty
        subst heq
        cases hty with
        | inl hnorm => exact .inl (hnorm ▸ hmem)
        | inr hpin => exact .inr (hpin ▸ hmem)
      · cases heq
    · rintro (hmem | hmem)
      · exact ⟨_, _, hmem, by simp⟩
      · exact ⟨_, _, hmem, by simp⟩
  simp only [traced, mem_append, reduceOption_mem_iff, mem_filterMap, Prod.exists,
    hhs, or_assoc]

end DotnetVm.Finalization.HeapManager

namespace DotnetVm.HeapTables

open Finalization Function Relation Runs

variable {B : Build} {s s' : State} {a : ArenaId}

/-- Allocated, and neither swept nor about to be. -/
def State.Kept (s : State) (p : Nat) : Prop := p ∈ s.objects ∧ ∀ doomed ∈ s.sweeping, p ∉ doomed

/-- Whatever is referred to is kept. -/
structure Sound (B : Build) (s : State) : Prop where
  roots : ∀ a ∈ B.arenas, ∀ p ∈ s.roots a, s.Kept p
  tables : ∀ a ∈ B.arenas, ∀ p, (s.heaps a).Names p → s.Kept p
  slots : ∀ p q, s.Kept p → s.contents.Refers p q → s.Kept q
  fresh : ∀ p ∈ s.objects, p < s.nextObject
  owned : ∀ p ∈ s.objects, s.ownerId p ∈ B.arenas
  sweeping : ∀ doomed ∈ s.sweeping, doomed ⊆ s.objects

lemma sound_init : Sound B init where
  roots _ _ p hp := by cases hp
  tables _ _ p hp := by
    cases hp with
    | queue h | pending h | pinned h | handle _ h | target _ h | dependent _ h | registry _ h =>
      cases h
  slots _ _ hp := by cases hp.1
  fresh p hp := by cases hp
  owned p hp := by cases hp
  sweeping _ hdoomed := by cases hdoomed

variable {slots : List Reference}

section

variable (h : Sound B s)
include h

lemma Sound.setRoots {roots : List Nat} (hroots : a ∈ B.arenas → ∀ p ∈ roots, s.Kept p) :
    Sound B { s with roots := update s.roots a roots } := by
  refine ⟨fun b hb q hq => ?_, h.tables, h.slots, h.fresh, h.owned, h.sweeping⟩
  change q ∈ update s.roots a roots b at hq
  by_cases hba : b = a
  · subst hba
    rw [update_self] at hq
    exact hroots hb q hq
  · rw [update_of_ne hba] at hq
    exact h.roots b hb q hq

lemma Sound.pushRoot (a : ArenaId) {obj : Option Nat} (hobj : ∀ p, obj = some p → s.Kept p) :
    Sound B (s.pushRoot a obj) := by
  cases obj with
  | none => exact h
  | some p =>
    refine h.setRoots fun ha q hq => ?_
    cases List.mem_cons.mp hq with
    | inl heq => exact heq ▸ hobj p rfl
    | inr hold => exact h.roots a ha q hold

lemma Sound.setHeap {heap : HeapManager} {new : Nat → Prop} (ha : a ∈ B.arenas)
    (hadds : (s.heaps a).Adds heap new) (hnew : ∀ p, new p → s.Kept p) :
    Sound B (s.setHeap a heap) := by
  refine ⟨h.roots, fun b hb q hq => ?_, h.slots, h.fresh, h.owned, h.sweeping⟩
  change (update s.heaps a heap b).Names q at hq
  by_cases hba : b = a
  · subst hba
    rw [update_self] at hq
    exact (hadds q hq).elim (h.tables b hb q) (hnew q)
  · rw [update_of_ne hba] at hq
    exact h.tables b hb q hq

lemma Sound.setSuppressed (p : Nat) (value : Bool) : Sound B (s.setSuppressed p value) :=
  ⟨h.roots, h.tables, h.slots, h.fresh, h.owned, h.sweeping⟩

lemma Sound.holds (ha : a ∈ B.arenas) {obj : Option Nat} (hobj : s.Holds a obj) (p : Nat)
    (hp : obj = some p) : s.Kept p :=
  h.roots a ha p (hobj p hp)

lemma Sound.setSlots {p : Nat} (hp : s.Kept p)
    (hsl : ∀ r ∈ slots, ∀ q, r.target = some q → s.Kept q) : Sound B (s.setSlots p slots) := by
  refine ⟨h.roots, h.tables, fun x q hx href => ?_, h.fresh, h.owned, h.sweeping⟩
  obtain ⟨r, hr, htgt⟩ := href
  change r ∈ update s.contents.slots p slots x at hr
  by_cases hxp : x = p
  · subst hxp
    rw [update_self] at hr
    exact hsl r hr q htgt
  · rw [update_of_ne hxp] at hr
    exact h.slots x q hx ⟨r, hr, htgt⟩

lemma Sound.allocate (ha : a ∈ B.arenas) (hsl : ∀ r ∈ slots, s.Holds a r.target)
    (start size : Nat) (hasFinalizer : Bool) :
    Sound B (s.allocate a start size slots hasFinalizer) := by
  have hmono : ∀ p, s.Kept p → (s.allocate a start size slots hasFinalizer).Kept p :=
    fun p hp => ⟨Finset.mem_insert_of_mem hp.1, hp.2⟩
  have hfresh : s.nextObject ∉ s.objects := fun hmem => lt_irrefl _ (h.fresh _ hmem)
  have hnew : (s.allocate a start size slots hasFinalizer).Kept s.nextObject :=
    ⟨Finset.mem_insert_self _ _, fun doomed hd hmem => hfresh (h.sweeping doomed hd hmem)⟩
  refine ⟨fun b hb p hp => ?_, fun b hb p hp => ?_, fun p q hp href => ?_, fun p hp => ?_,
    fun p hp => ?_, fun doomed hd => (h.sweeping doomed hd).trans (Finset.subset_insert _ _)⟩
  · change p ∈ update s.roots a (s.nextObject :: s.roots a) b at hp
    by_cases hba : b = a
    · subst hba
      rw [update_self] at hp
      cases List.mem_cons.mp hp with
      | inl heq => exact heq ▸ hnew
      | inr hold => exact hmono p (h.roots b hb p hold)
    · rw [update_of_ne hba] at hp
      exact hmono p (h.roots b hb p hp)
  · change (update s.heaps a _ b).Names p at hp
    by_cases hba : b = a
    · subst hba
      rw [update_self] at hp
      cases HeapManager.adds_registerNewObject start size s.nextObject hasFinalizer p hp with
      | inl hold => exact hmono p (h.tables b hb p hold)
      | inr heq => exact heq ▸ hnew
    · rw [update_of_ne hba] at hp
      exact hmono p (h.tables b hb p hp)
  · obtain ⟨r, hr, htgt⟩ := href
    change r ∈ update s.contents.slots s.nextObject slots p at hr
    by_cases hpn : p = s.nextObject
    · rw [hpn, update_self] at hr
      exact hmono q (h.holds ha (hsl r hr) q htgt)
    · rw [update_of_ne hpn] at hr
      have hold : s.Kept p := ⟨(Finset.mem_insert.mp hp.1).resolve_left hpn, hp.2⟩
      exact hmono q (h.slots p q hold ⟨r, hr, htgt⟩)
  · change p < s.nextObject + 1
    cases Finset.mem_insert.mp hp with
    | inl heq => omega
    | inr hold => exact Nat.lt_succ_of_lt (h.fresh p hold)
  · change update s.ownerId s.nextObject a p ∈ B.arenas
    by_cases hpn : p = s.nextObject
    · rw [hpn, update_self]
      exact ha
    · rw [update_of_ne hpn]
      exact h.owned p ((Finset.mem_insert.mp hp).resolve_left hpn)

lemma Sound.load (ha : a ∈ B.arenas) {p q : Nat} (hp : p ∈ s.roots a)
    (href : s.contents.Refers p q) : Sound B (s.pushRoot a (some q)) := by
  refine h.pushRoot a fun x hx => ?_
  obtain rfl : q = x := Option.some.inj hx
  exact h.slots p q (h.roots a ha p hp) href

lemma Sound.store (ha : a ∈ B.arenas) {p : Nat} (hp : p ∈ s.roots a)
    (hsl : ∀ r ∈ slots, r ∈ s.contents.slots p ∨ s.Holds a r.target) :
    Sound B (s.setSlots p slots) := by
  have hkept := h.roots a ha p hp
  refine h.setSlots hkept fun r hr q htgt => ?_
  cases hsl r hr with
  | inl hold => exact h.slots p q hkept ⟨r, hold, htgt⟩
  | inr hheld => exact h.holds ha hheld q htgt

lemma Sound.dependentHandleGet (ha : a ∈ B.arenas) (handle : Nat) :
    Sound B ((s.pushRoot a ((entryOf (s.heaps a).dependentHandles handle).bind Prod.fst)).pushRoot a
      ((entryOf (s.heaps a).dependentHandles handle).bind Prod.snd)) := by
  have hkept : ∀ t d, entryOf (s.heaps a).dependentHandles handle = some (t, d) →
      ∀ p, t = some p ∨ d = some p → s.Kept p := fun t d hent p hp =>
    h.tables a ha p (HeapManager.names_of_dependent _ (HeapManager.mem_of_entryOf hent) p hp)
  have hfst : Sound B (s.pushRoot a ((entryOf (s.heaps a).dependentHandles handle).bind
      Prod.fst)) := h.pushRoot a fun p hp => by
    obtain ⟨⟨t, d⟩, hent, ht⟩ := Option.bind_eq_some_iff.mp hp
    exact hkept t d hent p (Or.inl ht)
  refine hfst.pushRoot a fun p hp => ?_
  obtain ⟨⟨t, d⟩, hent, hd⟩ := Option.bind_eq_some_iff.mp hp
  have hp := hkept t d hent p (Or.inr hd)
  simp only [hent]
  cases t with
  | none => exact hp
  | some q => exact hp

lemma Sound.takePending (ha : a ∈ B.arenas) {p : Nat}
    (hlast : (s.heaps a).pendingFinalization.getLast? = some p) :
    Sound B ((s.setHeap a { s.heaps a with
      pendingFinalization := (s.heaps a).pendingFinalization.dropLast }).pushRoot a (some p)) := by
  have hp : s.Kept p := h.tables a ha p (.pending (List.mem_of_getLast? hlast))
  have hheap : (s.heaps a).Adds { s.heaps a with
      pendingFinalization := (s.heaps a).pendingFinalization.dropLast } (fun _ => False) :=
    HeapManager.adds_queues (fun q hq => Or.inl (.queue hq))
      (fun q hq => Or.inl (.pending (List.mem_of_mem_dropLast hq)))
  refine (h.setHeap ha hheap fun _ (hnew : False) => hnew.elim).pushRoot a fun q hq => ?_
  exact Option.some.inj hq ▸ hp

/-- The threads pass on only references they have. -/
lemma Sound.act (ha : a ∈ B.arenas) {action : Action} (hact : s.act a action = some s') :
    Sound B s' := by
  have hno : ∀ p : Nat, False → s.Kept p := fun _ hnew => hnew.elim
  cases action with
  | allocate start size slots hasFinalizer =>
    obtain ⟨hsl, heq⟩ := Option.ite_none_right_eq_some.mp hact
    cases heq
    exact h.allocate ha hsl start size hasFinalizer
  | load p q =>
    obtain ⟨⟨hp, r, hr, htgt⟩, heq⟩ := Option.ite_none_right_eq_some.mp hact
    cases heq
    exact h.load ha hp ⟨r, hr, htgt⟩
  | store p slots =>
    obtain ⟨⟨hp, hsl⟩, heq⟩ := Option.ite_none_right_eq_some.mp hact
    cases heq
    exact h.store ha hp hsl
  | forget p =>
    cases hact
    exact h.setRoots fun _ q hq => h.roots a ha q (List.mem_of_mem_erase hq)
  | suppressFinalize p =>
    obtain ⟨-, heq⟩ := Option.ite_none_right_eq_some.mp hact
    cases heq
    exact h.setSuppressed p true
  | reRegisterForFinalize p =>
    obtain ⟨hp, heq⟩ := Option.ite_none_right_eq_some.mp hact
    cases heq
    refine (h.setSuppressed p false).setHeap ha (HeapManager.adds_reRegisterForFinalize p)
      fun q hq => ?_
    exact hq ▸ h.roots a ha p hp
  | gchandleAlloc obj handleType =>
    obtain ⟨hobj, heq⟩ := Option.ite_none_right_eq_some.mp hact
    cases heq
    exact h.setHeap ha (HeapManager.adds_gchandleAlloc obj handleType) (h.holds ha hobj)
  | gchandleFree handle =>
    cases hact
    exact h.setHeap ha (HeapManager.adds_gchandleFree handle) hno
  | gchandleGet handle =>
    cases hact
    refine h.pushRoot a fun p hp => ?_
    obtain ⟨⟨obj, ty⟩, hent, hobj⟩ := Option.bind_eq_some_iff.mp hp
    obtain rfl : obj = some p := hobj
    exact h.tables a ha p (.handle ty (HeapManager.mem_of_entryOf hent))
  | gchandleSet handle obj =>
    obtain ⟨hobj, heq⟩ := Option.ite_none_right_eq_some.mp hact
    cases heq
    exact h.setHeap ha (HeapManager.adds_gchandleSet handle obj) (h.holds ha hobj)
  | dependentHandleAlloc target dependent =>
    obtain ⟨⟨htgt, hdep⟩, heq⟩ := Option.ite_none_right_eq_some.mp hact
    cases heq
    refine h.setHeap ha (HeapManager.adds_dependentHandleAlloc target dependent) fun p hp => ?_
    exact hp.elim (h.holds ha htgt p) (h.holds ha hdep p)
  | dependentHandleGet handle =>
    cases hact
    exact h.dependentHandleGet ha handle
  | dependentHandleSetDependent handle dependent =>
    obtain ⟨hobj, heq⟩ := Option.ite_none_right_eq_some.mp hact
    cases heq
    exact h.setHeap ha (HeapManager.adds_dependentHandleSetDependent handle dependent)
      (h.holds ha hobj)
  | dependentHandleSetTargetToNull handle =>
    cases hact
    exact h.setHeap ha (HeapManager.adds_dependentHandleSetTargetToNull handle) hno
  | dependentHandleFree handle =>
    cases hact
    exact h.setHeap ha (HeapManager.adds_dependentHandleFree handle) hno
  | pinObject obj =>
    obtain ⟨hobj, heq⟩ := Option.ite_none_right_eq_some.mp hact
    cases heq
    exact h.setHeap ha (HeapManager.adds_pinObject obj) (h.holds ha hobj)
  | unpinObject obj =>
    cases hact
    exact h.setHeap ha (HeapManager.adds_unpinObject obj) hno
  | findObject ptr =>
    cases hact
    exact h.pushRoot a fun p hp => h.tables a ha p (HeapManager.names_findObject hp)
  | takePending =>
    simp only [State.act] at hact
    split at hact
    · rename_i p hlast
      cases hact
      exact h.takePending ha hlast
    · cases hact
      exact h

end

def State.KeptByOwner (s : State) (marked : Finset Nat) (q : Nat) : Prop :=
  q ∈ marked ∨ ∃ d, Due s.contents (State.dead marked) (s.heaps (s.ownerId q)).finalizationQueue d ∧
    ReflTransGen s.contents.Follows d q

def Collectable (B : Build) (s : State) : Event → Prop
  | .fullCollection marked _ => s.sweeping = none →
    (∀ a ∈ B.arenas, ∀ t d, some (t, d) ∈ (s.heaps a).dependentHandles →
      ∀ p, t = some p ∨ d = some p → s.KeptByOwner marked p) ∧
    ∀ a ∈ B.arenas, ∀ d, Due s.contents (State.dead marked) (s.heaps a).finalizationQueue d →
      ∀ q, ReflTransGen s.contents.Refers d q → s.KeptByOwner marked q
  | .debtMarked marked => ∀ a ∈ B.arenas, ∀ p, (s.heaps a).Names p → p ∈ marked
  | _ => True

variable {marked : Finset Nat} {order : List ArenaId}

section

variable (h : Sound B s)
include h

lemma Sound.reaches {p q : Nat} (hp : s.Kept p) (hpath : ReflTransGen s.contents.Refers p q) :
    s.Kept q := by
  induction hpath with
  | refl => exact hp
  | tail _ href ih => exact h.slots _ _ ih href

/-- What the sweeps of a full collection leave. -/
lemma keeps_iff (hord : order.Perm B.arenas) {c : Finalized}
    (hrun : finalizeAll s.contents (State.dead marked) order s.heaps = some c) {q : Nat}
    (hq : q ∈ s.objects) :
    c.keeps s.ownerId (State.dead marked) q = true ↔ s.KeptByOwner marked q := by
  have hchk := checked_of_finalizeAll (hord.nodup_iff.mpr B.arenas_nodup) hrun
    (hord.mem_iff.mpr (h.owned q hq))
  simp only [Finalized.keeps, Bool.or_eq_true, decide_eq_true_eq, hchk.resurrected_iff,
    State.KeptByOwner]
  simp [State.dead]

lemma Sound.swept {objects : Finset Nat} {sweeping : Option (Finset Nat)}
    (hsub : objects ⊆ s.objects)
    (hkept : ∀ p, State.Kept { s with objects := objects, sweeping := sweeping } p ↔ s.Kept p)
    (hsweep : ∀ doomed ∈ sweeping, doomed ⊆ objects) :
    Sound B { s with objects := objects, sweeping := sweeping } :=
  ⟨fun a ha p hp => (hkept p).mpr (h.roots a ha p hp),
    fun a ha p hp => (hkept p).mpr (h.tables a ha p hp),
    fun p q hp href => (hkept q).mpr (h.slots p q ((hkept p).mp hp) href),
    fun p hp => h.fresh p (hsub hp), fun p hp => h.owned p (hsub hp), hsweep⟩

lemma Sound.debtSwept {doomed freed : Finset Nat} (hdoomed : s.sweeping = some doomed)
    (hfreed : freed ⊆ doomed) :
    Sound B { s with
      objects := s.objects \ freed
      sweeping := if doomed \ freed = ∅ then none else some (doomed \ freed) } := by
  have hsub := h.sweeping doomed hdoomed
  have hkept : ∀ p, s.Kept p ↔ p ∈ s.objects ∧ p ∉ doomed := fun p => by
    simp [State.Kept, hdoomed]
  refine h.swept Finset.sdiff_subset (fun p => ?_) fun rest hrest => ?_
  · rw [hkept]
    split
    · rename_i hemp
      have hall : p ∈ doomed → p ∈ freed := fun hp => by
        by_contra hnot
        exact Finset.notMem_empty p (hemp ▸ Finset.mem_sdiff.mpr ⟨hp, hnot⟩)
      simp only [State.Kept, Finset.mem_sdiff, Option.mem_def, reduceCtorEq, false_implies,
        implies_true, and_true]
      exact and_congr_right fun _ => not_congr ⟨(hfreed ·), hall⟩
    · simp only [State.Kept, Finset.mem_sdiff, Option.mem_def, Option.some.injEq, forall_eq']
      constructor
      · rintro ⟨⟨hmem, hnot⟩, hrest⟩
        exact ⟨hmem, fun hp => hrest ⟨hp, hnot⟩⟩
      · rintro ⟨hmem, hnot⟩
        exact ⟨⟨hmem, fun hp => hnot (hfreed hp)⟩, fun hp => hnot hp.1⟩
  · split at hrest
    · cases hrest
    · cases hrest
      exact Finset.sdiff_subset_sdiff hsub (Finset.Subset.refl _)

lemma Sound.debtMarked (hmark : s.Marked B marked)
    (htables : ∀ a ∈ B.arenas, ∀ p, (s.heaps a).Names p → p ∈ marked) :
    Sound B { s with sweeping := some (s.objects \ marked) } := by
  have hkept : ∀ p, State.Kept { s with sweeping := some (s.objects \ marked) } p ↔ p ∈ marked := by
    intro p
    simp only [State.Kept, Option.mem_def, Option.some.injEq, forall_eq', Finset.mem_sdiff, not_and,
      not_not]
    exact ⟨fun hp => hp.2 hp.1, fun hp => ⟨hmark.objects hp, fun _ => hp⟩⟩
  refine ⟨fun a ha p hp => (hkept p).mpr (hmark.roots a ha p hp),
    fun a ha p hp => (hkept p).mpr (htables a ha p hp), fun p q hp href => (hkept q).mpr ?_,
    h.fresh, h.owned, fun doomed hd => ?_⟩
  · obtain ⟨r, hr, htgt⟩ := href
    exact hmark.closed p ((hkept p).mp hp) r hr q htgt
  · cases hd
    exact Finset.sdiff_subset

lemma Sound.finalized (hsweep : s.sweeping = none)
    (hok : Collectable B s (.fullCollection marked order)) (hmarked : s.Marked B marked)
    (hord : order.Perm B.arenas) {c : Finalized}
    (hrun : finalizeAll s.contents (State.dead marked) order s.heaps = some c) :
    Sound B (s.collected marked c) := by
  obtain ⟨hdep, hfinalized⟩ := hok hsweep
  have hkept : ∀ p, s.Kept p → s.KeptByOwner marked p → (s.collected marked c).Kept p :=
    fun p hp hown => ⟨Finset.mem_filter.mpr ⟨hp.1, (keeps_iff h hord hrun hp.1).mpr hown⟩,
      fun doomed hd => by simp [State.collected, hsweep] at hd⟩
  have hobj : ∀ p ∈ s.objects, s.Kept p :=
    fun p hp => ⟨hp, fun doomed hd => by simp [hsweep] at hd⟩
  have hlive : ∀ p ∈ marked, (s.collected marked c).Kept p :=
    fun p hp => hkept p (hobj p (hmarked.objects hp)) (Or.inl hp)
  -- the objects a check finalizes, and what they lead to
  have hdue : ∀ a ∈ B.arenas, ∀ d,
      Due s.contents (State.dead marked) (s.heaps a).finalizationQueue d →
      ∀ q, ReflTransGen s.contents.Refers d q → (s.collected marked c).Kept q :=
    fun a ha d hd q hpath =>
      hkept q (h.reaches (h.tables a ha d (.queue hd.1)) hpath) (hfinalized a ha d hd q hpath)
  have hmarked_of : ∀ p, State.dead marked p = false → p ∈ marked := fun p hp => by
    simpa [State.dead] using hp
  refine ⟨fun a ha p hp => hlive p (hmarked.roots a ha p hp), fun a ha p hp => ?_,
    fun p q hp href => ?_, fun p hp => h.fresh p (Finset.mem_filter.mp hp).1,
    fun p hp => h.owned p (Finset.mem_filter.mp hp).1,
    fun doomed hd => by simp [State.collected, hsweep] at hd⟩
  · have hchk := checked_of_finalizeAll (hord.nodup_iff.mpr B.arenas_nodup) hrun
      (hord.mem_iff.mpr ha)
    have hres : ∀ q ∈ c.resurrected a, (s.collected marked c).Kept q := by
      intro q hq
      obtain ⟨d, hd, hpath⟩ := (hchk.resurrected_iff q).mp hq
      exact hdue a ha d hd q (ReflTransGen.mono (fun _ _ hst => hst.refers) _ _ hpath)
    have htrace : ∀ q ∈ (s.heaps a).traced, q ∈ marked := hmarked.tables a ha
    change (c.heaps a).Names p at hp
    cases hp with
    | queue hmem => exact hlive p (hmarked_of p (hchk.queue p hmem).2)
    | pending hmem =>
      cases hchk.pending p hmem with
      | inl hold =>
        exact hlive p (htrace p (HeapManager.mem_traced.mpr (Or.inr (Or.inr hold))))
      | inr hd => exact hdue a ha p hd p ReflTransGen.refl
    | pinned hmem =>
      rw [hchk.pinned] at hmem
      exact hlive p (htrace p (HeapManager.mem_traced.mpr (Or.inr (Or.inl hmem))))
    | handle ty hmem =>
      obtain ⟨hold, hweak, htracking⟩ := hchk.handles p ty hmem
      by_cases hdead : State.dead marked p = true
      · cases ty with
        | weak => exact (hweak hdead rfl).elim
        | weakTrackResurrection => exact hres p (htracking hdead rfl)
        | normal => exact hlive p (htrace p (HeapManager.mem_traced.mpr (Or.inl (Or.inl hold))))
        | pinned => exact hlive p (htrace p (HeapManager.mem_traced.mpr (Or.inl (Or.inr hold))))
      · exact hlive p (hmarked_of p (by simpa using hdead))
    | target d hmem =>
      rw [hchk.dependent] at hmem
      exact hkept p (h.tables a ha p (.target d hmem)) (hdep a ha _ d hmem p (Or.inl rfl))
    | dependent t hmem =>
      rw [hchk.dependent] at hmem
      exact hkept p (h.tables a ha p (.dependent t hmem)) (hdep a ha t _ hmem p (Or.inr rfl))
    | registry entry hmem heq =>
      subst heq
      cases (hchk.registry entry hmem).2 with
      | inl hmark => exact hlive entry.obj (hmarked_of entry.obj hmark)
      | inr hback => exact hres entry.obj hback
  · obtain ⟨hmem, hkp⟩ := Finset.mem_filter.mp hp.1
    cases (keeps_iff h hord hrun hmem).mp hkp with
    | inl hmark =>
      obtain ⟨r, hr, htgt⟩ := href
      exact hlive q (hmarked.closed p hmark r hr q htgt)
    | inr hown =>
      obtain ⟨d, hd, hpath⟩ := hown
      have hpath : ReflTransGen s.contents.Refers d p :=
        ReflTransGen.mono (fun _ _ hst => hst.refers) _ _ hpath
      exact hdue _ (h.owned p hmem) d hd q (hpath.tail href)

lemma Sound.step {e : Event} (hok : Collectable B s e) (hst : step B s e = some s') :
    Sound B s' := by
  cases e with
  | act a action =>
    obtain ⟨ha, hact⟩ := Option.ite_none_right_eq_some.mp hst
    exact h.act ha hact
  | share a b p =>
    obtain ⟨⟨ha, -, hp⟩, heq⟩ := Option.ite_none_right_eq_some.mp hst
    cases heq
    exact h.pushRoot b fun q hq => Option.some.inj hq ▸ h.roots a ha p hp
  | fullCollection marked order =>
    simp only [HeapTables.step, State.fullCollection] at hst
    cases hsweep : s.sweeping with
    | some doomed =>
      simp only [hsweep] at hst
      cases hst
      simpa using h.debtSwept hsweep (Finset.Subset.refl doomed)
    | none =>
      simp only [hsweep] at hst
      obtain ⟨⟨hmark, hord⟩, hrun⟩ := Option.ite_none_right_eq_some.mp hst
      obtain ⟨c, hfin, rfl⟩ := Option.map_eq_some_iff.mp hrun
      exact h.finalized hsweep hok hmark hord hfin
  | debtMarked marked =>
    obtain ⟨⟨-, -, hmark⟩, heq⟩ := Option.ite_none_right_eq_some.mp hst
    cases heq
    exact h.debtMarked hmark hok
  | debtSwept freed =>
    simp only [HeapTables.step] at hst
    cases hsweep : s.sweeping with
    | none => simp only [hsweep] at hst; cases hst
    | some doomed =>
      simp only [hsweep] at hst
      obtain ⟨hfreed, heq⟩ := Option.ite_none_right_eq_some.mp hst
      cases heq
      exact h.debtSwept hsweep hfreed

end

/-- In every run whose collections keep what they are asked to, the tables of the heaps refer to
no object that was swept. -/
theorem tables_refer_to_unswept (h : Run (step B) (Collectable B) init s) (ha : a ∈ B.arenas)
    {p : Nat} (hp : (s.heaps a).Names p) : p ∈ s.objects := by
  have hsound : Sound B s := Run.invariant (fun _ _ _ hs hok hst => hs.step hok hst) h sound_init
  exact (hsound.tables a ha p hp).1

lemma Sound.finalized_single (h : Sound B s) (hsingle : B.arenas = [a])
    (hpl : ∀ p, ∀ r ∈ s.contents.slots p, ∃ obj, r = .object obj) {d : Nat}
    (hd : Due s.contents (State.dead marked) (s.heaps a).finalizationQueue d) {q : Nat}
    (hpath : ReflTransGen s.contents.Refers d q) : s.KeptByOwner marked q := by
  have ha : a ∈ B.arenas := by simp [hsingle]
  have hq : s.ownerId q = a := by
    have howned := h.owned q (h.reaches (h.tables a ha d (.queue hd.1)) hpath).1
    simpa [hsingle] using howned
  have hfollows : ∀ x y, s.contents.Refers x y → s.contents.Follows x y := by
    rintro x y ⟨r, hr, htgt⟩
    obtain ⟨obj, rfl⟩ := hpl x r hr
    obtain rfl : obj = some y := htgt
    exact Contents.follows_iff.mpr hr
  exact .inr ⟨d, hq ▸ hd, ReflTransGen.mono hfollows _ _ hpath⟩

/-- A build without multithreading. -/
def oneArena : Build := ⟨[1], false, by decide, fun _ => rfl⟩

def dependentOnly : List Event :=
  [.act 1 (.allocate 64 16 [] false), .act 1 (.allocate 96 16 [] false),
    .act 1 (.dependentHandleAlloc (some 0) (some 1)), .act 1 (.forget 0), .act 1 (.forget 1),
    .fullCollection ∅ [1]]

def weakInDebtCycle : List Event :=
  [.act 1 (.allocate 64 16 [] false), .act 1 (.gchandleAlloc (some 0) .weak), .act 1 (.forget 0),
    .debtMarked ∅, .debtSwept {0}]

/-- Both end with a table that refers to a swept object. -/
theorem swept_object_in_tables :
    (∃ s, exec (step oneArena) init dependentOnly = some s ∧ (s.heaps 1).Names 0 ∧ 0 ∉ s.objects) ∧
    ∃ s, exec (step oneArena) init weakInDebtCycle = some s ∧ (s.heaps 1).Names 0 ∧
      0 ∉ s.objects := by
  refine ⟨⟨_, rfl, .target (some 1) ?_, ?_⟩, _, rfl, .handle .weak ?_, ?_⟩
  · decide
  · decide
  · decide
  · decide

def trackedActions : List Action :=
  [.allocate 64 16 [] false, .allocate 96 16 [.object (some 0)] true,
    .gchandleAlloc (some 0) .weakTrackResurrection, .forget 0, .forget 1]

lemma guarded_actions (actions : List Action) (s : State) :
    Guarded (step B) (Collectable B) s (actions.map (.act a)) := by
  induction actions generalizing s with
  | nil => exact True.intro
  | cons action actions ih => exact ⟨True.intro, fun s' _ => ih s'⟩

/-- The thread after these actions. -/
def tracked : State := (exec (step oneArena) init (trackedActions.map (.act 1))).getD init

/-- The collection finalizes object 1 and resurrects object 0, which its handle goes on to name. -/
theorem tracked_object_unswept :
    ∃ s, step oneArena tracked (.fullCollection ∅ [1]) = some s ∧ (s.heaps 1).Names 0 ∧
      0 ∈ s.objects := by
  have hexec : exec (step oneArena) init (trackedActions.map (.act 1)) = some tracked := rfl
  have hrun : Run (step oneArena) (Collectable oneArena) init tracked :=
    Run.of_exec _ (guarded_actions trackedActions init) hexec
  have hsound : Sound oneArena tracked :=
    Run.invariant (fun _ _ _ hs hok hst => hs.step hok hst) hrun sound_init
  have hpl : ∀ p, ∀ r ∈ tracked.contents.slots p, ∃ obj, r = .object obj := by
    intro p r hr
    by_cases hp : p = 1
    · subst hp
      exact ⟨some 0, List.mem_singleton.mp hr⟩
    · have hnil : tracked.contents.slots p = [] := by
        change update (update (fun _ => []) 0 []) 1 [Reference.object (some 0)] p = []
        rw [update_of_ne hp]
        by_cases hp : p = 0 <;> simp [hp]
      rw [hnil] at hr
      cases hr
  have hok : Collectable oneArena tracked (.fullCollection ∅ [1]) := by
    refine fun _ => ⟨fun a ha t d hmem => ?_, fun a ha d hd q hpath => ?_⟩
    · obtain rfl : a = 1 := List.mem_singleton.mp ha
      cases hmem
    · obtain rfl : a = 1 := List.mem_singleton.mp ha
      exact hsound.finalized_single rfl hpl hd hpath
  have hnames : ∀ s, step oneArena tracked (.fullCollection ∅ [1]) = some s →
      (s.heaps 1).Names 0 → 0 ∈ s.objects := fun s hst hp =>
    tables_refer_to_unswept (hrun.tail hok hst) List.mem_cons_self hp
  exact ⟨_, rfl, .handle .weakTrackResurrection (by decide), hnames _ rfl
    (.handle .weakTrackResurrection (by decide))⟩

end DotnetVm.HeapTables
