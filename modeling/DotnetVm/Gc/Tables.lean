import DotnetVm.Gc.FinalizeCheck
import DotnetVm.Lib.Runs

/-!
# The tables of the heaps over whole runs

Collections come in two kinds: a full one marks, runs the finalization checks and
sweeps while no thread runs; the single thread of a build without multithreading
also pays its allocation debt in small steps, and the cycle these complete sweeps
without any finalization check.

The dependent handles are neither traced nor looked at by the check. That the tables
refer to no swept object therefore depends on what the collections find.
-/

namespace DotnetVm.HeapTables

open Finalization Function Relation Runs

/-- Which arenas there are. The collector pays its debt in steps only where there is one. -/
structure Build where
  arenas : List ArenaId
  multithreading : Bool
  arenas_nodup : arenas.Nodup
  single : multithreading = false → arenas.length = 1

section Heap

/-- `alloc_or_reuse_slot`, without the index it returns. -/
def allocOrReuseSlot {α : Type} (handles : List (Option α)) (value : α) : List (Option α) :=
  match handles.findIdx? Option.isNone with
  | some i => handles.set i (some value)
  | none => handles ++ [some value]

def entryOf {α : Type} (handles : List (Option α)) (handle : Nat) : Option α :=
  if handle = 0 then none else (handles[handle - 1]?).join

def setEntry {α : Type} (handles : List (Option α)) (handle : Nat) (entry : Option α) :
    List (Option α) :=
  if handle = 0 then handles else handles.set (handle - 1) entry

end Heap

end DotnetVm.HeapTables

namespace DotnetVm.Finalization.HeapManager

open HeapTables

variable (h : HeapManager)

/-- A table of the heap refers to the object. -/
inductive Names (p : Nat) : Prop
  | queue : p ∈ h.finalizationQueue → Names p
  | pending : p ∈ h.pendingFinalization → Names p
  | pinned : some p ∈ h.pinnedObjects → Names p
  | handle (ty : GCHandleType) : some (some p, ty) ∈ h.gchandles → Names p
  | target (dependent : Option Nat) : some (some p, dependent) ∈ h.dependentHandles → Names p
  | dependent (target : Option Nat) : some (target, some p) ∈ h.dependentHandles → Names p
  | registry (entry : RegistryEntry) : entry ∈ h.objectRegistry → entry.obj = p → Names p

/-- The table entries `HeapManager::trace` traces. -/
def traced : List Nat :=
  (h.gchandles.reduceOption.filterMap fun (obj, handleType) =>
    if handleType = .normal ∨ handleType = .pinned then obj else none) ++
  h.pinnedObjects.reduceOption ++ h.pendingFinalization

def registerObject (start size p : Nat) : HeapManager :=
  if size = 0 then h
  else { h with objectRegistry :=
    (h.objectRegistry.filter fun entry => decide (entry.start ≠ start)) ++ [⟨start, size, p⟩] }

def registerNewObject (start size p : Nat) (hasFinalizer : Bool) : HeapManager :=
  if hasFinalizer then
    { h.registerObject start size p with
      finalizationQueue := (h.registerObject start size p).finalizationQueue ++ [p] }
  else h.registerObject start size p

def pinObject (obj : Option Nat) : HeapManager :=
  if obj ∈ h.pinnedObjects then h else { h with pinnedObjects := h.pinnedObjects ++ [obj] }

def unpinObject (obj : Option Nat) : HeapManager :=
  match h.pinnedObjects.idxOf? obj with
  | some i => { h with pinnedObjects := swapRemove h.pinnedObjects i }
  | none => h

def gchandleAlloc (obj : Option Nat) (handleType : GCHandleType) : HeapManager :=
  let h' := { h with gchandles := allocOrReuseSlot h.gchandles (obj, handleType) }
  if handleType = .pinned then h'.pinObject obj else h'

section

variable (handle : Nat)

def gchandleFree : HeapManager :=
  let h' := match entryOf h.gchandles handle with
    | some (obj, .pinned) => h.unpinObject obj
    | _ => h
  { h' with gchandles := setEntry h.gchandles handle none }

def gchandleSet (obj : Option Nat) : HeapManager :=
  match entryOf h.gchandles handle with
  | some (old, handleType) =>
    let h' := if handleType = .pinned then (h.unpinObject old).pinObject obj else h
    { h' with gchandles := setEntry h.gchandles handle (some (obj, handleType)) }
  | none => h

def dependentHandleAlloc (target dependent : Option Nat) : HeapManager :=
  { h with dependentHandles := allocOrReuseSlot h.dependentHandles (target, dependent) }

def dependentHandleSetDependent (dependent : Option Nat) : HeapManager :=
  match entryOf h.dependentHandles handle with
  | some (target, _) =>
    { h with dependentHandles := setEntry h.dependentHandles handle (some (target, dependent)) }
  | none => h

def dependentHandleSetTargetToNull : HeapManager :=
  match entryOf h.dependentHandles handle with
  | some _ => { h with dependentHandles := setEntry h.dependentHandles handle (some (none, none)) }
  | none => h

def dependentHandleFree : HeapManager :=
  { h with dependentHandles := setEntry h.dependentHandles handle none }

end

def reRegisterForFinalize (p : Nat) : HeapManager :=
  if p ∈ h.finalizationQueue then h
  else { h with finalizationQueue := h.finalizationQueue ++ [p] }

def findObject (ptr : Nat) : Option Nat :=
  match h.objectRegistry.find? fun entry => decide (entry.start = ptr) with
  | some entry => some entry.obj
  | none => (h.objectRegistry.find? fun entry =>
      decide (entry.start ≤ ptr ∧ ptr < entry.start + entry.size)).map RegistryEntry.obj

end DotnetVm.Finalization.HeapManager

namespace DotnetVm.HeapTables

open Finalization Function Relation Runs

/-- The objects, and the references the threads and the heaps hold. -/
structure State where
  contents : Contents
  ownerId : Nat → ArenaId
  roots : ArenaId → List Nat
  heaps : ArenaId → HeapManager
  objects : Finset Nat
  nextObject : Nat
  /-- In the middle of a sweep, the objects it is still to free. -/
  sweeping : Option (Finset Nat)

/-- What a thread can do. References come from its roots. -/
inductive Action
  | allocate (start size : Nat) (slots : List Reference) (hasFinalizer : Bool)
  | load (p q : Nat)
  | store (p : Nat) (slots : List Reference)
  | forget (p : Nat)
  | suppressFinalize (p : Nat)
  | reRegisterForFinalize (p : Nat)
  | gchandleAlloc (obj : Option Nat) (handleType : GCHandleType)
  | gchandleFree (handle : Nat)
  | gchandleGet (handle : Nat)
  | gchandleSet (handle : Nat) (obj : Option Nat)
  | dependentHandleAlloc (target dependent : Option Nat)
  | dependentHandleGet (handle : Nat)
  | dependentHandleSetDependent (handle : Nat) (dependent : Option Nat)
  | dependentHandleSetTargetToNull (handle : Nat)
  | dependentHandleFree (handle : Nat)
  | pinObject (obj : Option Nat)
  | unpinObject (obj : Option Nat)
  | findObject (ptr : Nat)
  | takePending

inductive Event
  | act (a : ArenaId) (action : Action)
  | share (a b : ArenaId) (p : Nat)
  | fullCollection (marked : Finset Nat) (order : List ArenaId)
  | debtMarked (marked : Finset Nat)
  | debtSwept (freed : Finset Nat)

namespace State

variable (s : State)

def setHeap (a : ArenaId) (h : HeapManager) : State := { s with heaps := update s.heaps a h }

def pushRoot (a : ArenaId) (obj : Option Nat) : State :=
  match obj with
  | some p => { s with roots := update s.roots a (p :: s.roots a) }
  | none => s

/-- The thread has the reference, or it is null. -/
def Holds (a : ArenaId) (obj : Option Nat) : Prop := ∀ p ∈ obj, p ∈ s.roots a

instance (a : ArenaId) (obj : Option Nat) : Decidable (s.Holds a obj) :=
  inferInstanceAs (Decidable (∀ p ∈ obj, p ∈ s.roots a))

def allocate (a : ArenaId) (start size : Nat) (slots : List Reference) (hasFinalizer : Bool) :
    State :=
  let p := s.nextObject
  { s with
    contents := ⟨update s.contents.slots p slots, update s.contents.finalizerSuppressed p false⟩
    ownerId := update s.ownerId p a
    roots := update s.roots a (p :: s.roots a)
    heaps := update s.heaps a ((s.heaps a).registerNewObject start size p hasFinalizer)
    objects := insert p s.objects
    nextObject := p + 1 }

def setSlots (p : Nat) (slots : List Reference) : State :=
  { s with contents := { s.contents with slots := update s.contents.slots p slots } }

def setSuppressed (p : Nat) (value : Bool) : State :=
  { s with contents := { s.contents with
      finalizerSuppressed := update s.contents.finalizerSuppressed p value } }

/-- One action of the thread of arena `a`. -/
def act (a : ArenaId) : Action → Option State
  | .allocate start size slots hasFinalizer =>
    if ∀ r ∈ slots, s.Holds a r.target then some (s.allocate a start size slots hasFinalizer)
    else none
  | .load p q =>
    if p ∈ s.roots a ∧ ∃ r ∈ s.contents.slots p, r.target = some q then
      some (s.pushRoot a (some q))
    else none
  | .store p slots =>
    if p ∈ s.roots a ∧ ∀ r ∈ slots, r ∈ s.contents.slots p ∨ s.Holds a r.target then
      some (s.setSlots p slots)
    else none
  | .forget p => some { s with roots := update s.roots a ((s.roots a).erase p) }
  | .suppressFinalize p => if p ∈ s.roots a then some (s.setSuppressed p true) else none
  | .reRegisterForFinalize p =>
    if p ∈ s.roots a then
      some ((s.setSuppressed p false).setHeap a ((s.heaps a).reRegisterForFinalize p))
    else none
  | .gchandleAlloc obj handleType =>
    if s.Holds a obj then some (s.setHeap a ((s.heaps a).gchandleAlloc obj handleType)) else none
  | .gchandleFree handle => some (s.setHeap a ((s.heaps a).gchandleFree handle))
  | .gchandleGet handle =>
    some (s.pushRoot a ((entryOf (s.heaps a).gchandles handle).bind Prod.fst))
  | .gchandleSet handle obj =>
    if s.Holds a obj then some (s.setHeap a ((s.heaps a).gchandleSet handle obj)) else none
  | .dependentHandleAlloc target dependent =>
    if s.Holds a target ∧ s.Holds a dependent then
      some (s.setHeap a ((s.heaps a).dependentHandleAlloc target dependent))
    else none
  | .dependentHandleGet handle =>
    let entry := entryOf (s.heaps a).dependentHandles handle
    some ((s.pushRoot a (entry.bind Prod.fst)).pushRoot a (entry.bind Prod.snd))
  | .dependentHandleSetDependent handle dependent =>
    if s.Holds a dependent then
      some (s.setHeap a ((s.heaps a).dependentHandleSetDependent handle dependent))
    else none
  | .dependentHandleSetTargetToNull handle =>
    some (s.setHeap a ((s.heaps a).dependentHandleSetTargetToNull handle))
  | .dependentHandleFree handle => some (s.setHeap a ((s.heaps a).dependentHandleFree handle))
  | .pinObject obj =>
    if s.Holds a obj then some (s.setHeap a ((s.heaps a).pinObject obj)) else none
  | .unpinObject obj => some (s.setHeap a ((s.heaps a).unpinObject obj))
  | .findObject ptr => some (s.pushRoot a ((s.heaps a).findObject ptr))
  | .takePending =>
    match (s.heaps a).pendingFinalization.getLast? with
    | some p =>
      some ((s.setHeap a { s.heaps a with
        pendingFinalization := (s.heaps a).pendingFinalization.dropLast }).pushRoot a (some p))
    | none => some s

structure Marked (B : Build) (marked : Finset Nat) : Prop where
  objects : marked ⊆ s.objects
  roots : ∀ a ∈ B.arenas, ∀ p ∈ s.roots a, p ∈ marked
  tables : ∀ a ∈ B.arenas, ∀ p ∈ (s.heaps a).traced, p ∈ marked
  closed : ∀ p ∈ marked, ∀ r ∈ s.contents.slots p, ∀ q ∈ r.target, q ∈ marked

instance (B : Build) (marked : Finset Nat) : Decidable (s.Marked B marked) :=
  decidable_of_iff (marked ⊆ s.objects ∧ (∀ a ∈ B.arenas, ∀ p ∈ s.roots a, p ∈ marked) ∧
    (∀ a ∈ B.arenas, ∀ p ∈ (s.heaps a).traced, p ∈ marked) ∧
    ∀ p ∈ marked, ∀ r ∈ s.contents.slots p, ∀ q ∈ r.target, q ∈ marked)
    ⟨fun h => ⟨h.1, h.2.1, h.2.2.1, h.2.2.2⟩, fun h => ⟨h.objects, h.roots, h.tables, h.closed⟩⟩

/-- Not marked, as `Gc::is_dead` tells it. -/
def dead (marked : Finset Nat) (p : Nat) : Bool := decide (p ∉ marked)

def collected (marked : Finset Nat) (c : Finalized) : State :=
  { s with
    heaps := c.heaps
    objects := s.objects.filter fun p => c.keeps s.ownerId (dead marked) p = true }

/-- `perform_full_gc`. In the middle of a sweep `finish_marking` has nothing to mark, and the
collection only finishes that sweep. -/
def fullCollection (B : Build) (marked : Finset Nat) (order : List ArenaId) : Option State :=
  match s.sweeping with
  | some doomed => some { s with objects := s.objects \ doomed, sweeping := none }
  | none =>
    if s.Marked B marked ∧ order.Perm B.arenas then
      (finalizeAll s.contents (dead marked) order s.heaps).map (s.collected marked)
    else none

end State

/-- The system. `collect_debt` exists without multithreading only; the marking it completes goes
over into a sweep at once. -/
def step (B : Build) (s : State) : Event → Option State
  | .act a action => if a ∈ B.arenas then s.act a action else none
  | .share a b p =>
    if a ∈ B.arenas ∧ b ∈ B.arenas ∧ p ∈ s.roots a then some (s.pushRoot b (some p)) else none
  | .fullCollection marked order => s.fullCollection B marked order
  | .debtMarked marked =>
    if B.multithreading = false ∧ s.sweeping = none ∧ s.Marked B marked then
      some { s with sweeping := some (s.objects \ marked) }
    else none
  | .debtSwept freed =>
    match s.sweeping with
    | some doomed =>
      if freed ⊆ doomed then
        some { s with
          objects := s.objects \ freed
          sweeping := if doomed \ freed = ∅ then none else some (doomed \ freed) }
      else none
    | none => none

def init : State where
  contents := ⟨fun _ => [], fun _ => false⟩
  ownerId _ := 0
  roots _ := []
  heaps _ := ⟨[], [], [], [], [], []⟩
  objects := ∅
  nextObject := 0
  sweeping := none

end DotnetVm.HeapTables
