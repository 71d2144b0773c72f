import DotnetVm.Data
import DotnetVm.Lib.DepthFirst
import DotnetVm.Lib.Runs

/-!
# The tables of a heap and their finalization check

The tables of a heap refer to its objects. Some of the references are traced and
keep their objects alive. The others are looked through between marking and
sweeping, when it is known which objects are dead: the queue hands its dead objects
over to be finalized, which resurrects them and what they refer to, and references
to what stays dead are cleared.
-/

namespace DotnetVm.Finalization

open List

inductive GCHandleType
  | weak
  | weakTrackResurrection
  | normal
  | pinned
  deriving DecidableEq, Repr

/-- What tracing finds in an object. The elements of an inline array after the first stand in its
descriptor, but have no entry in the map of its fields. -/
inductive Reference
  | object (obj : Option Nat)
  | bufferElement (obj : Option Nat)
  | crossArenaObjectRef (ptr : Nat)
  deriving DecidableEq, Repr

def Reference.target : Reference → Option Nat
  | .object obj | .bufferElement obj => obj
  | .crossArenaObjectRef ptr => some ptr

structure Contents where
  slots : Nat → List Reference
  finalizerSuppressed : Nat → Bool

namespace Contents

/-- The references `resurrect` follows: it walks the map of the fields. A captured managed pointer
is offered to `record_cross_arena_ref`, which drops it because no arena is being traced then. -/
def resurrects (C : Contents) (p : Nat) : List (Option Nat) :=
  (C.slots p).filterMap fun reference =>
    match reference with
    | .object obj => some obj
    | .bufferElement _ | .crossArenaObjectRef _ => none

/-- An object refers to another one. -/
def Refers (C : Contents) (p q : Nat) : Prop := ∃ reference ∈ C.slots p, reference.target = some q

/-- An object refers to another one by a reference that resurrection follows. -/
def Follows (C : Contents) : Nat → Nat → Prop := DepthFirst.Edge C.resurrects

lemma follows_iff {C : Contents} {p q : Nat} :
    C.Follows p q ↔ Reference.object (some q) ∈ C.slots p := by
  simp only [Follows, DepthFirst.Edge, resurrects, mem_filterMap]
  constructor
  · rintro ⟨reference, hmem, heq⟩
    cases reference with
    | object obj =>
      obtain rfl : obj = some q := Option.some.inj heq
      exact hmem
    | bufferElement obj => cases heq
    | crossArenaObjectRef ptr => cases heq
  · exact fun hmem => ⟨_, hmem, rfl⟩

lemma Follows.refers {C : Contents} {p q : Nat} (h : C.Follows p q) : C.Refers p q :=
  ⟨_, follows_iff.mp h, rfl⟩

/-- The same references in another order, as a map of fields may list them. -/
structure Reorders (C' C : Contents) : Prop where
  slots : ∀ p, (C'.slots p).Perm (C.slots p)
  finalizerSuppressed : C'.finalizerSuppressed = C.finalizerSuppressed

namespace Reorders

variable {C C' : Contents} (h : C'.Reorders C)
include h

lemma symm : C.Reorders C' := ⟨fun p => (h.slots p).symm, h.finalizerSuppressed.symm⟩

lemma refers : C'.Refers = C.Refers := by
  ext p q
  exact exists_congr fun r => and_congr_left fun _ => (h.slots p).mem_iff

lemma follows : C'.Follows = C.Follows := by
  ext p q
  rw [follows_iff, follows_iff]
  exact (h.slots p).mem_iff

lemma path {d : Nat} {path : List Nat} (hpath : DepthFirst.Path C'.resurrects d path) :
    DepthFirst.Path C.resurrects d path := by
  refine ⟨hpath.nodup, ?_, fun q hq hnil => hpath.last q hq ?_⟩
  · have hchain : (d :: path).IsChain C'.Follows := hpath.chain
    rwa [h.follows] at hchain
  · exact List.Perm.eq_nil (((h.slots q).filterMap _).trans (.of_eq hnil))

end Reorders

/-- The references along a path can be the first ones their objects list. -/
lemma exists_first {C : Contents} {d : Nat} {path : List Nat} (hnodup : (d :: path).Nodup)
    (hchain : (d :: path).IsChain C.Follows) : ∃ C' : Contents, C'.Reorders C ∧
      (d :: path).IsChain fun x y => (C'.slots x).head? = some (.object (some y)) := by
  induction path generalizing d with
  | nil => exact ⟨C, ⟨fun _ => .refl _, rfl⟩, .singleton d⟩
  | cons q path ih =>
    obtain ⟨hd, hnodup⟩ := nodup_cons.mp hnodup
    obtain ⟨hedge, hchain⟩ := isChain_cons_cons.mp hchain
    obtain ⟨C', hre, hfirst⟩ := ih hnodup hchain
    let slots := Reference.object (some q) :: (C.slots d).erase (.object (some q))
    refine ⟨{ C' with slots := Function.update C'.slots d slots },
      ⟨fun p => ?_, hre.finalizerSuppressed⟩, isChain_cons_cons.mpr ⟨by simp [slots], ?_⟩⟩
    · by_cases hp : p = d
      · subst hp
        simpa [slots] using (perm_cons_erase (follows_iff.mp hedge)).symm
      · simpa [Function.update_of_ne hp] using hre.slots p
    · refine hfirst.imp_of_mem_imp fun x y hx _ hxy => ?_
      simpa [Function.update_of_ne (show x ≠ d from fun heq => hd (heq ▸ hx))] using hxy

end Contents

structure RegistryEntry where
  start : Nat
  size : Nat
  obj : Nat
  deriving DecidableEq, Repr

structure HeapManager where
  finalizationQueue : List Nat
  pendingFinalization : List Nat
  pinnedObjects : List (Option Nat)
  gchandles : List (Option (Option Nat × GCHandleType))
  dependentHandles : List (Option (Option Nat × Option Nat))
  objectRegistry : List RegistryEntry
  deriving DecidableEq, Repr

section Queue

def swapRemove {α : Type} (l : List α) (i : Nat) : List α :=
  match (l.drop (i + 1)).getLast? with
  | none => l.take i
  | some last => l.take i ++ last :: (l.drop (i + 1)).dropLast

lemma swapRemove_perm {α : Type} {l : List α} {i : Nat} {x : α} (h : l[i]? = some x) :
    l.Perm (x :: swapRemove l i) := by
  obtain ⟨hi, rfl⟩ := List.getElem?_eq_some_iff.mp h
  have hl : l = l.take i ++ l[i] :: l.drop (i + 1) := by simp
  have hfront : l.Perm (l[i] :: (l.take i ++ l.drop (i + 1))) := by
    conv_lhs => rw [hl]
    exact perm_middle
  refine hfront.trans (List.Perm.cons _ ?_)
  simp only [swapRemove]
  cases hlast : (l.drop (i + 1)).getLast? with
  | none => simp [getLast?_eq_none_iff.mp hlast]
  | some last =>
    obtain ⟨front, hfront⟩ := getLast?_eq_some_iff.mp hlast
    simp only [hfront, dropLast_concat]
    exact List.Perm.append_left _ (perm_append_singleton last front)

lemma swapRemove_getElem? {α : Type} {l : List α} {i j : Nat} (hi : i ≤ l.length) (h : j < i) :
    (swapRemove l i)[j]? = l[j]? := by
  have hj : j < (l.take i).length := by simp; omega
  have htake : (l.take i)[j]? = l[j]? := getElem?_take_of_lt h
  simp only [swapRemove]
  split
  · exact htake
  · rw [getElem?_append_left hj, htake]

/-- The loop over the finalization queue. -/
structure Scan where
  queue : List Nat
  index : Nat
  toFinalize : List Nat

variable (C : Contents) (isDead : Nat → Bool)

def scanStep (s : Scan) : Scan ⊕ (List Nat × List Nat) :=
  match s.queue[s.index]? with
  | none => .inr (s.queue, s.toFinalize)
  | some obj =>
    if C.finalizerSuppressed obj then .inl { s with queue := swapRemove s.queue s.index }
    else if isDead obj then
      .inl { s with queue := swapRemove s.queue s.index, toFinalize := s.toFinalize ++ [obj] }
    else .inl { s with index := s.index + 1 }

/-- The queue that stays, and the objects taken from it to be finalized. -/
def scanQueue (queue : List Nat) : Option (List Nat × List Nat) :=
  Loops.loop (scanStep C isDead) (queue.length + 1) ⟨queue, 0, []⟩

/-- To be finalized: queued, not suppressed, and dead. -/
def Due (queue : List Nat) (p : Nat) : Prop :=
  p ∈ queue ∧ C.finalizerSuppressed p = false ∧ isDead p = true

def isDue (p : Nat) : Bool := !C.finalizerSuppressed p && isDead p

def stays (p : Nat) : Bool := !C.finalizerSuppressed p && !isDead p

/-- What the loop knows about the queue it was started with. -/
structure Scanned (queue : List Nat) (s : Scan) : Prop where
  kept : (s.queue.filter (stays C isDead)).Perm (queue.filter (stays C isDead))
  due : (s.toFinalize ++ s.queue.filter (isDue C isDead)).Perm (queue.filter (isDue C isDead))
  passed : ∀ j < s.index, ∀ p, s.queue[j]? = some p → stays C isDead p = true
  bound : s.index ≤ s.queue.length

variable {C isDead} {queue : List Nat} {s : Scan}

lemma mem_filter_isDue {p : Nat} : p ∈ queue.filter (isDue C isDead) ↔ Due C isDead queue p := by
  simp [isDue, Due]

lemma Scanned.removed {toFinalize : List Nat} {p : Nat} (h : Scanned C isDead queue s)
    (hp : s.queue[s.index]? = some p) (hgone : stays C isDead p = false)
    (hdue : toFinalize = s.toFinalize ++ if isDue C isDead p then [p] else []) :
    Scanned C isDead queue ⟨swapRemove s.queue s.index, s.index, toFinalize⟩ := by
  have hperm := swapRemove_perm hp
  have hlt := (List.getElem?_eq_some_iff.mp hp).1
  refine ⟨?_, ?_, fun j hj q hq => ?_, ?_⟩
  · have hkept := (hperm.filter (stays C isDead)).symm.trans h.kept
    rwa [filter_cons_of_neg (by simp [hgone])] at hkept
  · refine .trans ?_ (((hperm.filter _).append_left _).symm.trans h.due)
    rw [hdue, filter_cons, append_assoc]
    split <;> rfl
  · rw [swapRemove_getElem? hlt.le hj] at hq
    exact h.passed j hj q hq
  · have hlen := hperm.length_eq
    simp only [length_cons] at hlen
    change s.index ≤ (swapRemove s.queue s.index).length
    omega

lemma Scanned.step {s' : Scan} (h : Scanned C isDead queue s)
    (hst : scanStep C isDead s = .inl s') :
    Scanned C isDead queue s' ∧ s'.queue.length - s'.index < s.queue.length - s.index := by
  simp only [scanStep] at hst
  cases hp : s.queue[s.index]? with
  | none => rw [hp] at hst; cases hst
  | some p =>
    have hlen := (swapRemove_perm hp).length_eq
    have hlt := (List.getElem?_eq_some_iff.mp hp).1
    simp only [length_cons] at hlen
    simp only [hp] at hst
    split at hst
    next hsup =>
      cases hst
      exact ⟨h.removed hp (by simp [stays, hsup]) (by simp [isDue, hsup]), by dsimp only; omega⟩
    next hsup =>
      split at hst
      next hdead =>
        cases hst
        exact ⟨h.removed hp (by simp [stays, hdead]) (by simp [isDue, hsup, hdead]),
          by dsimp only; omega⟩
      next hdead =>
        cases hst
        refine ⟨⟨h.kept, h.due, fun j hj q hq => ?_, hlt⟩, by dsimp only; omega⟩
        by_cases hlast : j < s.index
        · exact h.passed j hlast q hq
        · obtain rfl : j = s.index := by dsimp only at hj; omega
          obtain rfl : q = p := Option.some.inj (hq.symm.trans hp)
          simp [stays, hsup, hdead]

/-- What the loop has found when it breaks. -/
lemma Scanned.finish {r : List Nat × List Nat} (h : Scanned C isDead queue s)
    (hst : scanStep C isDead s = .inr r) :
    r.1.Perm (queue.filter (stays C isDead)) ∧ r.2.Perm (queue.filter (isDue C isDead)) := by
  simp only [scanStep] at hst
  cases hp : s.queue[s.index]? with
  | some p =>
    simp only [hp] at hst
    split at hst
    · cases hst
    · split at hst <;> cases hst
  | none =>
    simp only [hp] at hst
    cases hst
    have hall : ∀ p ∈ s.queue, stays C isDead p = true := by
      intro p hmem
      obtain ⟨j, hj⟩ := mem_iff_getElem?.mp hmem
      have hlt := (List.getElem?_eq_some_iff.mp hj).1
      exact h.passed j (lt_of_lt_of_le hlt (getElem?_eq_none_iff.mp hp)) p hj
    have hno : s.queue.filter (isDue C isDead) = [] := filter_eq_nil_iff.mpr fun p hmem => by
      have hp := hall p hmem
      simp only [stays, isDue] at hp ⊢
      grind
    have hkept := h.kept
    have hdue := h.due
    rw [filter_eq_self.mpr hall] at hkept
    rw [hno, append_nil] at hdue
    exact ⟨hkept, hdue⟩

lemma scanQueue_total (C : Contents) (isDead : Nat → Bool) (queue : List Nat) :
    ∃ kept toFinalize, scanQueue C isDead queue = some (kept, toFinalize) ∧
      kept.Perm (queue.filter (stays C isDead)) ∧
      toFinalize.Perm (queue.filter (isDue C isDead)) := by
  have hbeg : Scanned C isDead queue ⟨queue, 0, []⟩ :=
    ⟨.refl _, .refl _, fun j hj => by simp at hj, Nat.zero_le _⟩
  obtain ⟨⟨kept, toFinalize⟩, hspec, hrun⟩ := Loops.loop_total
    (fun s : Scan => s.queue.length - s.index) (fun s s' hs hst => Scanned.step hs hst)
    (fun s r hs hst => Scanned.finish hs hst) hbeg
  exact ⟨kept, toFinalize, hrun _ (by simp), hspec⟩

/-- The first entry of the queue is the first to be finalized. -/
lemma scanQueue_cons (queue : List Nat) {d : Nat} (hsup : C.finalizerSuppressed d = false)
    (hdead : isDead d = true) :
    ∃ kept rest, scanQueue C isDead (d :: queue) = some (kept, d :: rest) := by
  have hstart : Scanned C isDead (d :: queue) ⟨d :: queue, 0, []⟩ :=
    ⟨.refl _, .refl _, fun j hj => absurd hj (Nat.not_lt_zero j), Nat.zero_le _⟩
  have hfirst : scanStep C isDead ⟨d :: queue, 0, []⟩ =
      .inl ⟨swapRemove (d :: queue) 0, 0, [d]⟩ := by
    simp [scanStep, hsup, hdead]
  obtain ⟨hscanned, hlt⟩ := hstart.step hfirst
  obtain ⟨⟨kept, taken⟩, htaken, hrun⟩ := Loops.loop_total
    (I := fun s => Scanned C isDead (d :: queue) s ∧ s.toFinalize.head? = some d)
    (Q := fun r => r.2.head? = some d) (fun s : Scan => s.queue.length - s.index)
    (fun s s' hs hst => ⟨⟨(hs.1.step hst).1, by grind [scanStep]⟩, (hs.1.step hst).2⟩)
    (fun s r hs hst => by grind [scanStep]) ⟨hscanned, rfl⟩
  obtain ⟨rest, rfl⟩ : ∃ rest, taken = d :: rest := head?_eq_some_iff.mp htaken
  refine ⟨kept, rest, ?_⟩
  rw [scanQueue, Loops.loop, hfirst]
  exact hrun _ (by simpa using hlt)

end Queue

def zeroOutHandles (forType : GCHandleType) (isDead : Nat → Bool) (resurrected : List Nat)
    (handles : List (Option (Option Nat × GCHandleType))) :
    List (Option (Option Nat × GCHandleType)) :=
  handles.map fun entry =>
    entry.map fun (obj, handleType) =>
      if handleType = forType ∧ obj.any isDead then
        if forType = .weakTrackResurrection ∧ obj.any (decide <| · ∈ resurrected) then
          (obj, handleType)
        else (none, handleType)
      else (obj, handleType)

def resurrectDepths : Nat := 1001

def finalizeCheck (C : Contents) (isDead : Nat → Bool) (h : HeapManager) :
    Option (HeapManager × List Nat) := do
  let (queue, toFinalize) ← scanQueue C isDead h.finalizationQueue
  let handles := zeroOutHandles .weak isDead [] h.gchandles
  let resurrected ← toFinalize.foldlM (DepthFirst.visit C.resurrects resurrectDepths) []
  let staysDead := fun p => isDead p && decide (p ∉ resurrected)
  let handles := zeroOutHandles .weakTrackResurrection staysDead resurrected handles
  some ({ h with
    finalizationQueue := queue
    pendingFinalization := h.pendingFinalization ++ toFinalize
    gchandles := handles
    objectRegistry := h.objectRegistry.filter fun entry => !staysDead entry.obj }, resurrected)

/-- What the check does, table by table. -/
structure Checked (C : Contents) (isDead : Nat → Bool) (h h' : HeapManager)
    (resurrected : List Nat) : Prop where
  resurrected_iff : ∀ p, p ∈ resurrected ↔
    ∃ d, Due C isDead h.finalizationQueue d ∧ Relation.ReflTransGen C.Follows d p
  queue : ∀ p ∈ h'.finalizationQueue, p ∈ h.finalizationQueue ∧ isDead p = false
  pending : ∀ p ∈ h'.pendingFinalization,
    p ∈ h.pendingFinalization ∨ Due C isDead h.finalizationQueue p
  pinned : h'.pinnedObjects = h.pinnedObjects
  dependent : h'.dependentHandles = h.dependentHandles
  registry : ∀ entry ∈ h'.objectRegistry,
    entry ∈ h.objectRegistry ∧ (isDead entry.obj = false ∨ entry.obj ∈ resurrected)
  handles : ∀ p ty, some (some p, ty) ∈ h'.gchandles → some (some p, ty) ∈ h.gchandles ∧
    (isDead p = true → ty = .weak → False) ∧
    (isDead p = true → ty = .weakTrackResurrection → p ∈ resurrected)

variable {C : Contents} {isDead : Nat → Bool} {resurrected : List Nat} {h h' : HeapManager}

/-- The handles of this type to a target are cleared. -/
def clears (isDead : Nat → Bool) (resurrected : List Nat) : GCHandleType → Nat → Bool
  | .weak, p => isDead p
  | .weakTrackResurrection, p => isDead p && decide (p ∉ resurrected)
  | .normal, _ | .pinned, _ => false

lemma zeroOutHandles_eq (handles : List (Option (Option Nat × GCHandleType))) :
    zeroOutHandles .weakTrackResurrection (fun p => isDead p && decide (p ∉ resurrected))
        resurrected (zeroOutHandles .weak isDead [] handles) =
      handles.map (Option.map fun (obj, ty) =>
        (obj.filter fun p => !clears isDead resurrected ty p, ty)) := by
  simp only [zeroOutHandles, map_map]
  refine map_congr_left fun entry _ => ?_
  rcases entry with _ | ⟨_ | p, _ | _ | _ | _⟩ <;> simp [clears, Option.filter]
  · by_cases hp : isDead p = true <;> simp [hp]
  · by_cases hp : isDead p = true ∧ p ∉ resurrected <;> grind

structure Settled (C : Contents) (isDead : Nat → Bool) (h h' : HeapManager)
    (resurrected : List Nat) : Prop where
  resurrected_iff : ∀ p, p ∈ resurrected ↔
    ∃ d, Due C isDead h.finalizationQueue d ∧ Relation.ReflTransGen C.Follows d p
  queue : h'.finalizationQueue.Perm (h.finalizationQueue.filter (stays C isDead))
  pending : ∃ taken, h'.pendingFinalization = h.pendingFinalization ++ taken ∧
    taken.Perm (h.finalizationQueue.filter (isDue C isDead))
  handles : h'.gchandles = h.gchandles.map (Option.map fun (obj, ty) =>
    (obj.filter fun p => !clears isDead resurrected ty p, ty))
  pinned : h'.pinnedObjects = h.pinnedObjects
  dependent : h'.dependentHandles = h.dependentHandles
  registry : h'.objectRegistry =
    h.objectRegistry.filter fun entry => !(isDead entry.obj && decide (entry.obj ∉ resurrected))

lemma settled_of_finalizeCheck (hrun : finalizeCheck C isDead h = some (h', resurrected)) :
    Settled C isDead h h' resurrected := by
  obtain ⟨kept, toFinalize, hscan, hkept, hdue⟩ := scanQueue_total C isDead h.finalizationQueue
  simp only [finalizeCheck, hscan, Option.bind_eq_bind, Option.bind_some] at hrun
  obtain ⟨visited, hvisit, heq⟩ := Option.bind_eq_some_iff.mp hrun
  cases heq
  refine ⟨fun p => ?_, hkept, ⟨_, rfl, hdue⟩, zeroOutHandles_eq h.gchandles, rfl, rfl, rfl⟩
  rw [DepthFirst.mem_of_visitAll hvisit]
  exact exists_congr fun d => and_congr_left fun _ => hdue.mem_iff.trans mem_filter_isDue

lemma checked_of_finalizeCheck (hrun : finalizeCheck C isDead h = some (h', resurrected)) :
    Checked C isDead h h' resurrected := by
  have hset := settled_of_finalizeCheck hrun
  refine ⟨hset.resurrected_iff, fun p hp => ?_, fun p hp => ?_, hset.pinned, hset.dependent,
    fun entry hent => ?_, fun p ty hp => ?_⟩
  · simpa [stays] using And.imp_right (by simp [stays]) (mem_filter.mp (hset.queue.mem_iff.mp hp))
  · obtain ⟨taken, htaken, hperm⟩ := hset.pending
    rw [htaken] at hp
    exact (mem_append.mp hp).imp_right fun hp => mem_filter_isDue.mp (hperm.mem_iff.mp hp)
  · rw [hset.registry] at hent
    obtain ⟨hmem, hlive⟩ := mem_filter.mp hent
    exact ⟨hmem, by simpa [or_iff_not_imp_left] using hlive⟩
  · rw [hset.handles] at hp
    obtain ⟨entry, hmem, hentry⟩ := mem_map.mp hp
    obtain ⟨⟨obj, _⟩, rfl, heq⟩ := Option.map_eq_some_iff.mp hentry
    obtain ⟨hobj, rfl⟩ := Prod.mk.inj heq
    obtain ⟨rfl, hkeep⟩ := Option.filter_eq_some_iff.mp hobj
    refine ⟨hmem, fun hdead hty => ?_, fun hdead hty => ?_⟩ <;> subst hty
    · simp [clears, hdead] at hkeep
    · simpa [clears, hdead] using hkeep

/-- The objects the due ones lead to by such references, the due ones among them. -/
def FromDue (C : Contents) (isDead : Nat → Bool) (queue : List Nat) (R : Nat → Nat → Prop)
    (p : Nat) : Prop :=
  ∃ d, Due C isDead queue d ∧ Relation.ReflTransGen R d p

lemma FromDue.refers {queue : List Nat} {p : Nat} (hp : FromDue C isDead queue C.Follows p) :
    FromDue C isDead queue C.Refers p := by
  obtain ⟨d, hd, hpath⟩ := hp
  exact ⟨d, hd, Relation.ReflTransGen.mono (fun _ _ hst => hst.refers) _ _ hpath⟩

/-- The handles of this type to a target are to be cleared. -/
def ToClear (C : Contents) (isDead : Nat → Bool) (queue : List Nat) : GCHandleType → Nat → Prop
  | .weak, p => isDead p = true
  | .weakTrackResurrection, p => isDead p = true ∧ ¬FromDue C isDead queue C.Refers p
  | .normal, _ | .pinned, _ => False

lemma clears_iff_toClear {ty : GCHandleType} {p : Nat} (hset : Settled C isDead h h' resurrected)
    (hfollowed : ty = .weakTrackResurrection → isDead p = true →
      FromDue C isDead h.finalizationQueue C.Refers p →
      FromDue C isDead h.finalizationQueue C.Follows p) :
    clears isDead resurrected ty p = true ↔ ToClear C isDead h.finalizationQueue ty p := by
  cases ty with
  | weak => exact .rfl
  | normal | pinned => simp [clears, ToClear]
  | weakTrackResurrection =>
    simp only [clears, ToClear, Bool.and_eq_true, decide_eq_true_eq, hset.resurrected_iff]
    exact and_congr_right fun hdead => not_congr ⟨FromDue.refers, hfollowed rfl hdead⟩

/-- After a check that completes, exactly the targets to be cleared have been set to null, if and
only if every dead target of a handle that tracks resurrection is followed from the due objects when
they lead to it. The dependent handles are as they were, and what stays in the queue is what was
alive and not suppressed. -/
theorem finalizeCheck_settles_iff (hrun : finalizeCheck C isDead h = some (h', resurrected)) :
    ((∃ cleared : GCHandleType → Nat → Bool,
        (∀ ty p, cleared ty p = true ↔ ToClear C isDead h.finalizationQueue ty p) ∧
        h'.gchandles = h.gchandles.map (Option.map fun (obj, ty) =>
          (obj.filter fun p => !cleared ty p, ty))) ↔
      ∀ p, some (some p, .weakTrackResurrection) ∈ h.gchandles → isDead p = true →
        FromDue C isDead h.finalizationQueue C.Refers p →
        FromDue C isDead h.finalizationQueue C.Follows p) ∧
    h'.dependentHandles = h.dependentHandles ∧
    h'.finalizationQueue.Perm (h.finalizationQueue.filter fun p =>
      !C.finalizerSuppressed p && !isDead p) := by
  have hset := settled_of_finalizeCheck hrun
  refine ⟨⟨?_, fun hfollowed => ?_⟩, hset.dependent, hset.queue⟩
  · rintro ⟨cleared, hcleared, htable⟩ p hmem hdead hp
    have hkept : cleared .weakTrackResurrection p = false :=
      Bool.eq_false_iff.mpr fun hc => ((hcleared _ p).mp hc).2 hp
    have hsame := map_inj_left.mp (htable.symm.trans hset.handles) _ hmem
    simp only [Option.map_some, Option.filter_some, hkept, clears, hdead] at hsame
    by_contra hnot
    have hgone : p ∉ resurrected := fun hres => hnot ((hset.resurrected_iff p).mp hres)
    simp [hgone] at hsame
  · classical
    refine ⟨fun ty p => decide (ToClear C isDead h.finalizationQueue ty p),
      fun ty p => decide_eq_true_iff, hset.handles.trans (map_congr_left fun entry hmem => ?_)⟩
    rcases entry with _ | ⟨_ | p, ty⟩
    · rfl
    · rfl
    · have hclears : clears isDead resurrected ty p =
          decide (ToClear C isDead h.finalizationQueue ty p) := by
        rw [Bool.eq_iff_iff, decide_eq_true_iff]
        exact clears_iff_toClear hset fun hty hdead => hfollowed p (hty ▸ hmem) hdead
      simp only [Option.map_some, Option.filter_some, hclears]

def finalizing (p : Nat) : HeapManager := ⟨[p], [], [], [some (some p, .weak)], [], []⟩

def lone : Contents := ⟨fun _ => [], fun _ => false⟩

theorem lone_settles : ∃ (h' : HeapManager) (resurrected : List Nat),
    finalizeCheck lone (fun _ => true) (finalizing 0) = some (h', resurrected) ∧
      h'.finalizationQueue.Perm [] := by
  have hrun : finalizeCheck lone (fun _ => true) (finalizing 0) =
      some (⟨[], [0], [], [some (none, .weak)], [], []⟩, [0]) := rfl
  exact ⟨_, _, hrun, (finalizeCheck_settles_iff hrun).2.2⟩

/-- Object 0 is an inline array of two references. -/
def buffered : Contents :=
  ⟨fun p => if p = 0 then [.object (some 1), .bufferElement (some 2)] else [], fun _ => false⟩

/-- A handle that tracks resurrection loses object 2, though the queued object 0 refers to it. -/
theorem buffered_element_cleared :
    finalizeCheck buffered (fun _ => true)
        ⟨[0], [], [], [some (some 2, .weakTrackResurrection)], [], []⟩ =
      some (⟨[], [0], [], [some (none, .weakTrackResurrection)], [], []⟩, [1, 0]) ∧
    buffered.Refers 0 2 :=
  ⟨rfl, .bufferElement (some 2), by decide, rfl⟩

/-- The check completes, resurrects exactly what the due objects lead to, and hands each of them
over once. -/
def Finalizes (C : Contents) (isDead : Nat → Bool) (h : HeapManager) : Prop :=
  ∃ h' resurrected taken, finalizeCheck C isDead h = some (h', resurrected) ∧
    (∀ p, p ∈ resurrected ↔ FromDue C isDead h.finalizationQueue C.Refers p) ∧
    h'.pendingFinalization = h.pendingFinalization ++ taken ∧
    taken.Perm (h.finalizationQueue.filter fun p => !C.finalizerSuppressed p && isDead p)

lemma finalizes_iff (hrun : finalizeCheck C isDead h = some (h', resurrected)) :
    Finalizes C isDead h ↔ ∀ p, FromDue C isDead h.finalizationQueue C.Refers p →
      FromDue C isDead h.finalizationQueue C.Follows p := by
  have hset := settled_of_finalizeCheck hrun
  constructor
  · rintro ⟨_, _, _, hrun', hres, -⟩ p hp
    cases hrun.symm.trans hrun'
    exact (hset.resurrected_iff p).mp ((hres p).mpr hp)
  · intro hfollowed
    obtain ⟨taken, htaken, hperm⟩ := hset.pending
    exact ⟨h', resurrected, taken, hrun, fun p =>
      (hset.resurrected_iff p).trans ⟨FromDue.refers, hfollowed p⟩, htaken, hperm⟩

lemma finalizeCheck_total (hdepth : ∀ d path, Due C isDead h.finalizationQueue d →
      DepthFirst.Path C.resurrects d path → path.length ≤ 1000) :
    ∃ r, finalizeCheck C isDead h = some r := by
  obtain ⟨kept, toFinalize, hscan, -, hdue⟩ := scanQueue_total C isDead h.finalizationQueue
  obtain ⟨resurrected, hvisit⟩ : ∃ v,
      toFinalize.foldlM (DepthFirst.visit C.resurrects resurrectDepths) [] = some v :=
    DepthFirst.visitAll_total fun d hd path =>
      hdepth d path (mem_filter_isDue.mp (hdue.mem_iff.mp hd))
  simp only [finalizeCheck, hscan, Option.bind_eq_bind, Option.bind_some, hvisit]
  exact ⟨_, rfl⟩

lemma finalizeCheck_eq_none {d : Nat} {path queue : List Nat}
    (hsup : C.finalizerSuppressed d = false) (hdead : isDead d = true)
    (hpath : DepthFirst.Path C.resurrects d path)
    (hfirst : (d :: path).IsChain fun x y => (C.resurrects x).head? = some (some y))
    (hlong : 1000 < path.length) :
    finalizeCheck C isDead { h with finalizationQueue := d :: queue } = none := by
  obtain ⟨kept, rest, hscan⟩ := scanQueue_cons queue hsup hdead
  have hvisit : DepthFirst.visit C.resurrects resurrectDepths [] d = none :=
    DepthFirst.visit_eq_none hpath hfirst (disjoint_nil_right _) hlong
  simp only [finalizeCheck, hscan, Option.bind_eq_bind, Option.bind_some, foldlM_cons, hvisit]
  rfl

section Order

variable {C' : Contents} {queue queue' : List Nat} (hre : C'.Reorders C) (hperm : queue'.Perm queue)
include hre hperm

lemma due_of_reorders {d : Nat} : Due C' isDead queue' d ↔ Due C isDead queue d := by
  rw [Due, Due, hperm.mem_iff, hre.finalizerSuppressed]

lemma fromDue_of_reorders {R : Nat → Nat → Prop} {p : Nat} :
    FromDue C' isDead queue' R p ↔ FromDue C isDead queue R p :=
  exists_congr fun _ => and_congr_left fun _ => due_of_reorders hre hperm

end Order

/-- Objects 0 to 2000, each referring to the next one. -/
def chained : Contents :=
  ⟨fun p => if p < 2000 then [.object (some (p + 1))] else [], fun _ => false⟩

lemma chained_path {n : Nat} (hn : n < 2000) : DepthFirst.Path chained.resurrects 0 (range' 1 n) ∧
    (0 :: range' 1 n).IsChain fun x y => (chained.resurrects x).head? = some (some y) := by
  have hedges : ∀ p ∈ 0 :: range' 1 n, chained.resurrects p = [some (p + 1)] := fun p hp => by
    have hlt : p < 2000 := by
      have hmem : p ∈ range' 0 (n + 1) := hp
      have := mem_range'_1.mp hmem
      omega
    simp [Contents.resurrects, chained, hlt]
  have hchain : (0 :: range' 1 n).IsChain fun x y => (chained.resurrects x).head? = some (some y) :=
    (isChain_range' 0 (n + 1) 1).imp_of_mem_imp fun x y hx _ hxy => by
      simp [hedges x hx, hxy]
  refine ⟨⟨nodup_range' (s := 0) (n := n + 1), ?_, fun q hq => ?_⟩, hchain⟩
  · exact hchain.imp fun x y hxy => mem_of_mem_head? hxy
  · rw [hedges q (mem_of_getLast? hq)]
    exact cons_ne_nil _ _

section Arenas

open Function

/-- The arenas while they run their checks. -/
structure Finalized where
  heaps : ArenaId → HeapManager
  resurrected : ArenaId → List Nat

/-- `SweepPhaseCommand::Finalize` on the thread of arena `a`. -/
def finalizeArena (C : Contents) (isDead : Nat → Bool) (c : Finalized) (a : ArenaId) :
    Option Finalized :=
  (finalizeCheck C isDead (c.heaps a)).map fun (heap, resurrected) =>
    ⟨update c.heaps a heap, update c.resurrected a resurrected⟩

/-- The arenas execute the command in some order. -/
def finalizeAll (C : Contents) (isDead : Nat → Bool) (order : List ArenaId)
    (heaps : ArenaId → HeapManager) : Option Finalized :=
  order.foldlM (finalizeArena C isDead) ⟨heaps, fun _ => []⟩

def Finalized.keeps (ownerId : Nat → ArenaId) (isDead : Nat → Bool) (c : Finalized) (p : Nat) :
    Bool :=
  !isDead p || decide (p ∈ c.resurrected (ownerId p))

variable {isDead : Nat → Bool} {order : List ArenaId}

lemma finalizeArena_foldlM {C : Contents} (hnd : order.Nodup) {c c' : Finalized}
    (h : order.foldlM (finalizeArena C isDead) c = some c') :
    (∀ a ∉ order, c'.heaps a = c.heaps a ∧ c'.resurrected a = c.resurrected a) ∧
      ∀ a ∈ order, Checked C isDead (c.heaps a) (c'.heaps a) (c'.resurrected a) := by
  induction order generalizing c with
  | nil =>
    cases h
    exact ⟨fun _ _ => ⟨rfl, rfl⟩, fun a ha => by simp at ha⟩
  | cons b order ih =>
    obtain ⟨hb, hnd⟩ := nodup_cons.mp hnd
    obtain ⟨mid, hmid, hrest⟩ := Option.bind_eq_some_iff.mp h
    obtain ⟨⟨heap, resurrected⟩, hcheck, rfl⟩ := Option.map_eq_some_iff.mp hmid
    obtain ⟨hothers, hchk⟩ := ih hnd hrest
    constructor
    · intro a ha
      obtain ⟨hab, ha⟩ := not_or.mp (mem_cons.not.mp ha)
      simpa [update_of_ne hab] using hothers a ha
    · intro a ha
      cases mem_cons.mp ha with
      | inl hab =>
        subst hab
        obtain ⟨hheap, hres⟩ := hothers a hb
        simp only [update_self] at hheap hres
        rw [hheap, hres]
        exact checked_of_finalizeCheck hcheck
      | inr ha =>
        have hab : a ≠ b := fun heq => hb (heq ▸ ha)
        simpa [update_of_ne hab] using hchk a ha

lemma checked_of_finalizeAll {C : Contents}
    (hnd : order.Nodup) {heaps : ArenaId → HeapManager} {c : Finalized}
    (h : finalizeAll C isDead order heaps = some c) {a : ArenaId} (ha : a ∈ order) :
    Checked C isDead (heaps a) (c.heaps a) (c.resurrected a) :=
  (finalizeArena_foldlM hnd h).2 a ha

end Arenas

end DotnetVm.Finalization
