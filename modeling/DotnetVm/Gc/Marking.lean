import DotnetVm.Data
import DotnetVm.Lib.Runs

/-!
# The marking phase of a coordinated collection

Every arena first marks from its own roots. References that lead into other arenas
are recorded instead of followed, handed to their owners as additional roots, and so
on in rounds, until a round finds nothing that was not handed out before. The order
in which the arenas of a round run is left open.

What one arena does inside `finish_marking` belongs to the arena library. It is
described by what it marks and which foreign references it comes across.
-/

namespace DotnetVm

open Function

/-- The objects of all arenas, which do not change while the world is stopped. -/
structure ObjectGraph where
  arenas : List ArenaId
  identity : ArenaId → ArenaIdentity
  objects : Finset Nat
  ownerId : Nat → ArenaId
  roots : ArenaId → Finset Nat
  refs : Nat → Finset Nat
  arenas_nodup : arenas.Nodup
  identity_arenaId : ∀ a, (identity a).arenaId = a
  roots_subset : ∀ a ∈ arenas, roots a ⊆ objects
  refs_subset : ∀ p, refs p ⊆ objects
  ownerId_mem : ∀ p ∈ objects, ownerId p ∈ arenas

/-- The part of an arena that marking changes. -/
structure ArenaMarks where
  marked : Finset Nat
  crossArenaRoots : Finset Nat
  deriving DecidableEq

namespace ObjectGraph

variable (G : ObjectGraph)

/-- Reached from the given roots without leaving the arena. -/
inductive LocallyReachable (a : ArenaId) (roots : Finset Nat) : Nat → Prop
  | root {p : Nat} : p ∈ roots → G.ownerId p = a → LocallyReachable a roots p
  | ref {p q : Nat} : LocallyReachable a roots p → q ∈ G.refs p → G.ownerId q = a →
      LocallyReachable a roots q

/-- Reached from the roots of any arena, through objects of all arenas. -/
inductive Reachable : Nat → Prop
  | root {a : ArenaId} {p : Nat} : a ∈ G.arenas → p ∈ G.roots a → Reachable p
  | ref {p q : Nat} : Reachable p → q ∈ G.refs p → Reachable q

def tryAcquireLease (target : ArenaId) : Option ArenaIdentity :=
  if target ∈ G.arenas then some (G.identity target) else none

def tryAcquireLeaseForIdentity (identity : ArenaIdentity) : Bool :=
  decide (identity.arenaId ∈ G.arenas) && decide (G.identity identity.arenaId = identity)

def traceRef (a : ArenaId) (ptr : Nat) : Option CrossArenaRef :=
  if G.ownerId ptr ≠ a then
    (G.tryAcquireLease (G.ownerId ptr)).map fun identity => ⟨identity, ptr⟩
  else none

end ObjectGraph

structure FinishMarking (G : ObjectGraph) where
  run : ArenaId → ArenaMarks → Finset Nat × List Nat
  marks : ∀ a m p, p ∈ (run a m).1 ↔ G.LocallyReachable a (G.roots a ∪ m.crossArenaRoots) p
  traces_roots : ∀ a m q, q ∈ G.roots a → q ∈ (run a m).2
  traces_new : ∀ a m p q, p ∈ (run a m).1 → p ∉ m.marked → q ∈ G.refs p → q ∈ (run a m).2
  traces_only : ∀ a m q, q ∈ (run a m).2 →
    q ∈ G.roots a ∪ m.crossArenaRoots ∨ ∃ p ∈ (run a m).1, q ∈ G.refs p

/-- The collection as the coordinator sees it. -/
structure Marking where
  heap : ArenaId → ArenaMarks
  crossArenaRefs : List CrossArenaRef

namespace Marking

variable {G : ObjectGraph}

section

variable (G : ObjectGraph) (a : ArenaId)

def installRoots (ptrs : List CrossArenaRef) (m : ArenaMarks) : ArenaMarks :=
  ptrs.foldl (fun m reference =>
    if reference.identity.arenaId ≠ a ∨ G.identity a ≠ reference.identity then m
    else if G.tryAcquireLeaseForIdentity reference.identity then
      { m with crossArenaRoots := insert reference.ptr m.crossArenaRoots }
    else m) m

def prepare (m : ArenaMarks) : MarkPhaseCommand → ArenaMarks
  | .all => { m with crossArenaRoots := ∅ }
  | .objects ptrs => installRoots G a ptrs m

def recordFoundCrossArenaRefs (traced : List Nat) : List CrossArenaRef :=
  (traced.filterMap (G.traceRef a)).filter fun reference =>
    G.tryAcquireLeaseForIdentity reference.identity

end

section

variable (F : FinishMarking G)

/-- `execute_gc_command_for_current_thread` on the thread of arena `a`. -/
def executeGcCommand (a : ArenaId) (command : MarkPhaseCommand) (s : Marking) : Marking :=
  let m := prepare G a (s.heap a) command
  { heap := update s.heap a { m with marked := (F.run a m).1 }
    crossArenaRefs := (recordFoundCrossArenaRefs G a (F.run a m).2).foldl
      (fun refs reference => refs.insert reference) s.crossArenaRefs }

def executeAll (commands : ArenaId → Option MarkPhaseCommand)
    (order : List ArenaId) (s : Marking) : Marking :=
  order.foldl (fun s a =>
    match commands a with
    | some command => executeGcCommand F a command s
    | none => s) s

structure Round where
  index : Nat
  marking : Marking
  dispatched : List CrossArenaRef

/-- The command a round leaves for an arena. -/
def objectsFor (crossRefs : List CrossArenaRef) (a : ArenaId) : Option MarkPhaseCommand :=
  match crossRefs.filter fun reference => decide (reference.identity.arenaId = a) with
  | [] => none
  | ptrs => some (.objects ptrs)

/-- One round of the fixed-point loop of `collect_all_arenas`. -/
def fixedPointRound (order : Nat → List ArenaId) (r : Round) : Round ⊕ Marking :=
  let crossRefs := r.marking.crossArenaRefs.filter fun reference =>
    decide (reference ∉ r.dispatched)
  let s := { r.marking with crossArenaRefs := [] }
  if crossRefs = [] then .inr s
  else
    let s := executeAll F (objectsFor crossRefs) (order r.index) s
    if s.crossArenaRefs = [] then .inr s
    else .inl ⟨r.index + 1, s, crossRefs ++ r.dispatched⟩

/-- The marking phase of `collect_all_arenas`. The arenas execute the commands of round `n` in the
order `order n`. -/
def markPhase (order : Nat → List ArenaId) (initiatingThreadId : ArenaId)
    (fuel : Nat) (s : Marking) : Option Marking :=
  if initiatingThreadId ∈ G.arenas then
    let s := executeAll F (fun _ => some .all) (order 0) { s with crossArenaRefs := [] }
    Loops.loop (fixedPointRound F order) fuel ⟨1, s, []⟩
  else none

end

end Marking

end DotnetVm
