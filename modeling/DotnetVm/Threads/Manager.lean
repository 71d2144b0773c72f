import DotnetVm.Data
import DotnetVm.Lib.Runs

/-!
# Stopping the world

The thread manager and the collection coordinator, as the threads of the process see
them. One event is one atomic operation of one thread: a load or a store of a shared
flag or counter, a lock taken or released, a wait entered or a notification sent.

A thread that loses the race for `gc_coordination` inside `request_stop_the_world`
polls the same `safe_point` as a mutator, so a safe point remembers where it returns
to. The condition variables have no spurious wake-ups; the wait for
`all_threads_stopped` has a time-out instead.
-/

namespace DotnetVm.StopTheWorld

open Function

/-- Where a call of `safe_point` returns to. -/
inductive Caller where
  | mutator
  | initiator
  deriving DecidableEq, Repr

/-- The operations of `safe_point` and of `wait_for_command_or_resume` inside it. -/
inductive SafePoint where
  /-- The stop request was seen, the registry not yet consulted. -/
  | polled
  /-- `threads_at_safepoint` was raised; about to look up the arena. -/
  | counted
  /-- At the head of the wait loop, about to load the stop request. -/
  | checking
  /-- Holding `current_command` with no command there, about to wait. -/
  | deciding
  /-- Waiting for `command_signal`. -/
  | asleep
  | executing (command : GCCommand)
  /-- The wait returned `None`; `threads_at_safepoint` not yet lowered. -/
  | leaving
  deriving DecidableEq, Repr

/-- The operations of `perform_full_gc`. -/
inductive Collecting where
  /-- `begin_collection` succeeded. -/
  | admitted
  /-- The stop request is stored; at the head of the `try_lock` loop. -/
  | requested
  /-- Holding `gc_coordination`, about to read the number of threads. -/
  | counting
  | measured (targetStopped : Nat)
  /-- Waiting for `all_threads_stopped`, with `gc_coordination` given up. -/
  | waiting
  /-- Holding the `StopTheWorldGuard`. -/
  | holding
  /-- The session is cleaned up, the guard not yet dropped. -/
  | finished
  /-- Inside the drop of the guard: the stop request is cleared. -/
  | resumed
  | notified
  deriving DecidableEq, Repr

/-- Where a thread is. -/
inductive Pc where
  | absent
  /-- In the registry, its arena not yet known to the coordinator. -/
  | registering
  | running
  /-- Its arena is gone from the coordinator, still in the registry. -/
  | exiting
  | safePoint (place : SafePoint) (caller : Caller)
  | collecting (place : Collecting)
  deriving DecidableEq, Repr

def Caller.resume : Caller → Pc
  | .mutator => .running
  | .initiator => .collecting .requested

structure State where
  threads : List ArenaId
  arenas : List ArenaId
  nextThreadId : Nat
  pc : ArenaId → Pc
  gcStopRequested : Bool
  threadsAtSafepoint : Nat
  gcCoordination : Option ArenaId
  collectionLock : Option ArenaId
  stwInProgress : Bool
  currentCommand : ArenaId → Option GCCommand
  isPerformingGc : ArenaId → Bool
  /-- Whether the thread has an active write guard of a `ThreadSafeLock`. -/
  hasWriteGuard : ArenaId → Bool

namespace State

def init : State where
  threads := []
  arenas := []
  nextThreadId := 1
  pc := fun _ => .absent
  gcStopRequested := false
  threadsAtSafepoint := 0
  gcCoordination := none
  collectionLock := none
  stwInProgress := false
  currentCommand := fun _ => none
  isPerformingGc := fun _ => false
  hasWriteGuard := fun _ => false

def move (s : State) (t : ArenaId) (q : Pc) : State := { s with pc := update s.pc t q }

/-- `safe_point` goes on past its first three tests. -/
def stopsHere (s : State) (t : ArenaId) : Bool :=
  s.gcStopRequested && !s.isPerformingGc t && !s.hasWriteGuard t

/-- Notifying `command_signal` moves a waiting thread back to the head of the wait loop. -/
def wake : Pc → Pc
  | .safePoint .asleep c => .safePoint .checking c
  | p => p

def pendingCommands (s : State) : Bool := s.arenas.any fun t => (s.currentCommand t).isSome

section

variable (s : State) (t : ArenaId)

def advanceSafePoint (c : Caller) : SafePoint → Option State
  | .polled =>
    if t ∈ s.threads then
      some { s.move t (.safePoint .counted c) with
        threadsAtSafepoint := s.threadsAtSafepoint + 1 }
    else some (s.move t c.resume)
  | .counted =>
    if t ∈ s.arenas then some (s.move t (.safePoint .checking c))
    else some (s.move t (.safePoint .leaving c))
  | .checking =>
    if s.gcStopRequested then
      match s.currentCommand t with
      | some command => some (s.move t (.safePoint (.executing command) c))
      | none => some (s.move t (.safePoint .deciding c))
    else some (s.move t (.safePoint .leaving c))
  | .deciding => some (s.move t (.safePoint .asleep c))
  | .asleep => none
  | .executing _ =>
    if t ∈ s.arenas then
      match s.currentCommand t with
      | some _ => some { s.move t (.safePoint .counted c) with
          currentCommand := update s.currentCommand t none }
      | none => none
    else some (s.move t (.safePoint .counted c))
  | .leaving =>
    some { s.move t c.resume with threadsAtSafepoint := s.threadsAtSafepoint - 1 }

def advanceCollecting : Collecting → Option State
  | .admitted =>
    if s.hasWriteGuard t then none
    else some { s.move t (.collecting .requested) with gcStopRequested := true }
  | .requested =>
    match s.gcCoordination with
    | none => some { s.move t (.collecting .counting) with gcCoordination := some t }
    | some _ =>
      if s.stopsHere t then some (s.move t (.safePoint .polled .initiator)) else some s
  | .counting =>
    let targetStopped := if t ∈ s.threads then s.threads.length - 1 else s.threads.length
    some (s.move t (.collecting (.measured targetStopped)))
  | .measured targetStopped =>
    if targetStopped ≤ s.threadsAtSafepoint then
      some { s.move t (.collecting .holding) with isPerformingGc := update s.isPerformingGc t true }
    else some { s.move t (.collecting .waiting) with gcCoordination := none }
  | .waiting =>
    match s.gcCoordination with
    | none => some { s.move t (.collecting .counting) with gcCoordination := some t }
    | some _ => none
  | .holding => none
  | .finished => some { s.move t (.collecting .resumed) with gcStopRequested := false }
  | .resumed =>
    some { s with
      pc := update (fun u => if u ∈ s.arenas then wake (s.pc u) else s.pc u) t
        (.collecting .notified) }
  | .notified =>
    some { s.move t .running with
      isPerformingGc := update s.isPerformingGc t false
      gcCoordination := none }

/-- The next operation of a thread inside the protocol. -/
def advance : Option State :=
  match s.pc t with
  | .absent => none
  | .registering => some { s.move t .running with arenas := t :: s.arenas }
  | .running => none
  | .exiting => some { s.move t .absent with threads := s.threads.erase t }
  | .safePoint place c => s.advanceSafePoint t c place
  | .collecting place => s.advanceCollecting t place

/-- Ids are issued in order and never used again. -/
def registerThread (s : State) : Option State :=
  let managedId := s.nextThreadId
  if 1 ≤ managedId ∧ managedId ≤ 65535 then
    some { s.move managedId .registering with
      threads := managedId :: s.threads
      nextThreadId := managedId + 1
      isPerformingGc := update s.isPerformingGc managedId false }
  else none

/-- The coordinator forgets the arena first; the registry follows with the next operation. -/
def beginExit : State :=
  { s.move t .exiting with
    arenas := s.arenas.erase t
    currentCommand := update s.currentCommand t none
    isPerformingGc := update s.isPerformingGc t false }

def beginCollection : Option State :=
  match s.collectionLock with
  | some _ => some s
  | none =>
    if s.stwInProgress || s.pendingCommands then none
    else some { s.move t (.collecting .admitted) with
      collectionLock := some t
      stwInProgress := true }

def enqueueCommandForArena (s : State) (u : ArenaId) (command : GCCommand) : Option State :=
  match s.currentCommand u with
  | some _ => none
  | none => some { s.move u (wake (s.pc u)) with
      currentCommand := update s.currentCommand u (some command) }

def finishCollection : Option State :=
  if s.stwInProgress && !s.pendingCommands then
    some { s.move t (.collecting .finished) with
      collectionLock := none
      stwInProgress := false }
  else none

end

end State

inductive Event where
  | registerThread
  | advance (t : ArenaId)
  | poll (t : ArenaId)
  | performFullGc (t : ArenaId)
  | exit (t : ArenaId)
  | borrowMut (t : ArenaId)
  | releaseMut (t : ArenaId)
  | dispatch (t u : ArenaId) (command : GCCommand)
  | finishCollection (t : ArenaId)
  deriving DecidableEq, Repr

open State in
def step (s : State) : Event → Option State
  | .registerThread => s.registerThread
  | .advance t => s.advance t
  | .poll t =>
    if s.pc t = .running then
      if s.stopsHere t then some (s.move t (.safePoint .polled .mutator)) else some s
    else none
  | .performFullGc t => if s.pc t = .running then s.beginCollection t else none
  | .exit t => if s.pc t = .running then some (s.beginExit t) else none
  | .borrowMut t =>
    if s.pc t = .running then some { s with hasWriteGuard := update s.hasWriteGuard t true }
    else none
  | .releaseMut t =>
    if s.pc t = .running then some { s with hasWriteGuard := update s.hasWriteGuard t false }
    else none
  | .dispatch t u command =>
    -- a thread that is about to wait still holds the lock of its command
    if s.pc t = .collecting .holding ∧ u ∈ s.arenas ∧ u ≠ t ∧
        s.pc u ≠ .safePoint .deciding .mutator ∧ s.pc u ≠ .safePoint .deciding .initiator then
      s.enqueueCommandForArena u command
    else none
  | .finishCollection t =>
    if s.pc t = .collecting .holding then s.finishCollection t else none

end DotnetVm.StopTheWorld
