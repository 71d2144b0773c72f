import DotnetVm.Data
import DotnetVm.Lib.Processes
import DotnetVm.Lib.Runs

/-!
# The arena registry and its leases

An arena is published in a registry under its id and under a token of its own, with
a generation. A dereference into another arena holds a lease: a count on the shared
state of one registration, taken under the read lock of the registry. An owner
removes the entry under the write lock and then waits, outside the lock, until the
count is zero.

A `Handle`, the number of a registration, stands for the pointer to its state.
-/

namespace DotnetVm.Leases

open Function

abbrev ThreadId := Nat

abbrev Handle := Nat

structure ArenaState where
  arenaId : ArenaId
  generation : Nat
  token : Nat
  deriving DecidableEq, Repr

def ArenaState.identity (st : ArenaState) : ArenaIdentity := ⟨st.arenaId, st.generation⟩

structure ArenaLease where
  state : Handle
  generation : Nat
  arenaId : ArenaId
  deriving DecidableEq, Repr

inductive ArenaRegistrationError where
  | duplicateLive (id : ArenaId)
  | generationExhausted
  | tokenExhausted
  deriving DecidableEq, Repr

structure ArenaRegistry where
  states : List ArenaState
  byId : ArenaId → Option Handle
  byToken : Nat → Option ArenaId
  nextGeneration : Nat
  nextToken : Nat

namespace ArenaRegistry

def new : ArenaRegistry where
  states := []
  byId := fun _ => none
  byToken := fun _ => none
  nextGeneration := 0
  nextToken := 1

def register (r : ArenaRegistry) (id : ArenaId) : Except ArenaRegistrationError ArenaRegistry :=
  if (r.byId id).isSome then .error (.duplicateLive id)
  -- `u64::checked_add`, then `u32::try_from` and the non-zero test of `from_raw`
  else if 2 ^ 64 ≤ r.nextGeneration + 1 then .error .generationExhausted
  else if 2 ^ 32 ≤ r.nextToken ∨ r.nextToken = 0 then .error .tokenExhausted
  else .ok
    { states := r.states ++ [⟨id, r.nextGeneration, r.nextToken⟩]
      byId := update r.byId id (some r.states.length)
      byToken := update r.byToken r.nextToken (some id)
      nextGeneration := r.nextGeneration + 1
      nextToken := r.nextToken + 1 }

/-- The removed state and the registry without it. -/
def remove (r : ArenaRegistry) (id : ArenaId) (expected : Option ArenaIdentity) :
    Option (Handle × ArenaRegistry) :=
  match r.byId id with
  | none => none
  | some h =>
    match r.states[h]? with
    | none => none
    | some st =>
      if expected.any (fun identity =>
          identity.arenaId != id || identity.generation != st.generation) then none
      else some (h, { r with
        byId := update r.byId id none
        byToken := update r.byToken st.token none })

/-- Removing one id after the other, as `reset_arena_registry` does. -/
def removeAll (r : ArenaRegistry) : List ArenaId → List Handle × ArenaRegistry
  | [] => ([], r)
  | id :: ids =>
    match r.remove id none with
    | none => r.removeAll ids
    | some (h, r') => ((h :: (r'.removeAll ids).1), (r'.removeAll ids).2)

/-- The ids with an entry. -/
def keys (r : ArenaRegistry) : List ArenaId :=
  (r.states.map ArenaState.arenaId).dedup.filter fun id => (r.byId id).isSome

end ArenaRegistry

/-- The three ways to ask for a lease. -/
inductive Request where
  | id (targetId : ArenaId)
  | identity (identity : ArenaIdentity)
  | token (token : Nat)
  deriving DecidableEq, Repr

def ArenaRegistry.lookup (r : ArenaRegistry) : Request → Option (ArenaId × Handle)
  | .id targetId => (r.byId targetId).map fun h => (targetId, h)
  | .identity identity =>
    match r.byId identity.arenaId with
    | none => none
    | some h =>
      match r.states[h]? with
      | none => none
      | some st =>
        if st.generation = identity.generation then some (identity.arenaId, h) else none
  | .token token =>
    match r.byToken token with
    | none => none
    | some targetId => (r.byId targetId).map fun h => (targetId, h)

/-- What is done under the write lock. -/
inductive WriteOp where
  | register (id : ArenaId)
  /-- `remove_registration` from `unregister_and_drain` of one registration. -/
  | removeOwn (state : Handle)
  | removeAndDrain (id : ArenaId) (expected : Option ArenaIdentity)
  | reset
  deriving DecidableEq, Repr

/-- Where a thread is. -/
inductive Pc where
  | idle
  | fastPath (request : Request)
  | readWait (request : Request)
  | looking (request : Request)
  | found (request : Request) (targetId : ArenaId) (state : Handle)
  | counted (request : Request) (lease : ArenaLease)
  /-- The read lock is released, `HELD_LEASES` not updated yet. -/
  | tracking (request : Request) (lease : ArenaLease)
  /-- In `drop`, after `HELD_LEASES` was updated. -/
  | dropping (lease : ArenaLease)
  | writeWait (op : WriteOp)
  | writing (op : WriteOp)
  /-- In `unregister_and_drain`, after the removal. -/
  | removedOwn (state : Handle)
  /-- In `drain_leases` for an owner, and after it. -/
  | drainingOwn (state : Handle)
  | drainedOwn (state : Handle)
  /-- In `drain_leases` of the states that are left. -/
  | draining (states : List Handle)
  deriving DecidableEq, Repr

inductive TeardownOutcome where
  | drained
  | selfHeldLease
  deriving DecidableEq, Repr

structure State where
  registry : ArenaRegistry
  readers : List ThreadId
  writer : Option ThreadId
  /-- `VALID_ARENAS_FAST`, one bit for each id below 64. -/
  fast : ArenaId → Bool
  activeLeases : Handle → Nat
  /-- `HELD_LEASES` of each thread. -/
  heldLeases : ThreadId → List (ArenaId × Nat)
  /-- The lease guards each thread has in scope. -/
  leases : ThreadId → List ArenaLease
  pc : ThreadId → Pc
  /-- Every lease returned so far, with the request it answered. -/
  granted : List (Request × ArenaLease)
  /-- What the calls of `unregister_and_drain` returned so far. -/
  outcomes : List (Handle × TeardownOutcome)

def init : State where
  registry := .new
  readers := []
  writer := none
  fast := fun _ => false
  activeLeases := fun _ => 0
  heldLeases := fun _ => []
  leases := fun _ => []
  pc := fun _ => .idle
  granted := []
  outcomes := []

/-- What an idle thread may call. -/
inductive Call where
  | tryRegisterArena (id : ArenaId)
  | tryAcquireLease (request : Request)
  | dropLease (index : Nat)
  | unregisterAndDrain (state : Handle)
  | unregisterArena (id : ArenaId)
  | unregisterArenaIdentity (identity : ArenaIdentity)
  | resetArenaRegistry
  deriving DecidableEq, Repr

/-- `track_lease`: one more lease on the arena. -/
def trackLease (held : List (ArenaId × Nat)) (id : ArenaId) : List (ArenaId × Nat) :=
  match held with
  | [] => [(id, 1)]
  | (id', n) :: rest =>
    if id' = id then (id', n + 1) :: rest else (id', n) :: trackLease rest id

/-- The bookkeeping of `drop`: one lease less, and no entry for none. -/
def untrackLease (held : List (ArenaId × Nat)) (id : ArenaId) : List (ArenaId × Nat) :=
  match held with
  | [] => []
  | (id', n) :: rest =>
    if id' = id then (if n - 1 = 0 then rest else (id', n - 1) :: rest)
    else (id', n) :: untrackLease rest id

namespace State

section

variable (s : State) (t : ThreadId)

def goto (p : Pc) : State := { s with pc := update s.pc t p }

def currentThreadHoldsLease (id : ArenaId) : Bool :=
  (s.heldLeases t).any fun entry => entry.1 == id

def call : Call → Option State
  | .tryRegisterArena id => some (s.goto t (.writeWait (.register id)))
  | .tryAcquireLease request => some (s.goto t (.fastPath request))
  | .dropLease index =>
    match (s.leases t)[index]? with
    | none => none
    | some lease => some { s with
        leases := update s.leases t ((s.leases t).eraseIdx index)
        heldLeases := update s.heldLeases t (untrackLease (s.heldLeases t) lease.arenaId)
        pc := update s.pc t (.dropping lease) }
  | .unregisterAndDrain h =>
    if h < s.registry.states.length then some (s.goto t (.writeWait (.removeOwn h))) else none
  | .unregisterArena id => some (s.goto t (.writeWait (.removeAndDrain id none)))
  | .unregisterArenaIdentity identity =>
    some (s.goto t (.writeWait (.removeAndDrain identity.arenaId (some identity))))
  | .resetArenaRegistry => some (s.goto t (.writeWait .reset))

def removeRegistration (s : State) (id : ArenaId) (expected : Option ArenaIdentity) :
    Option Handle × State :=
  match s.registry.remove id expected with
  | none => (none, s)
  | some (h, registry) =>
    (some h, { s with
      registry
      fast := if id < 64 then update s.fast id false else s.fast })

/-- The work under the write lock and where the thread goes on after it. -/
def write (s : State) : WriteOp → Pc × State
  | .register id =>
    match s.registry.register id with
    | .error _ => (.idle, s)
    | .ok registry =>
      (.idle, { s with registry, fast := if id < 64 then update s.fast id true else s.fast })
  | .removeOwn h =>
    match s.registry.states[h]? with
    | none => (.idle, s)
    | some st => (.removedOwn h, (s.removeRegistration st.arenaId (some st.identity)).2)
  | .removeAndDrain id expected =>
    match s.removeRegistration id expected with
    | (none, s') => (.idle, s')
    | (some h, s') => (.draining [h], s')
  | .reset =>
    (.draining (s.registry.removeAll s.registry.keys).1,
      { s with
        registry := (s.registry.removeAll s.registry.keys).2
        fast := fun _ => false })

/-- One step of the thread inside its call. -/
def advance : Option State :=
  match s.pc t with
  | .idle => none
  | .fastPath request =>
    match request with
    | .id targetId =>
      if targetId < 64 ∧ s.fast targetId = false then some (s.goto t .idle)
      else some (s.goto t (.readWait request))
    | _ => some (s.goto t (.readWait request))
  | .readWait request =>
    if s.writer = none then
      some { s with readers := t :: s.readers, pc := update s.pc t (.looking request) }
    else none
  | .looking request =>
    match s.registry.lookup request with
    | none => some { s with readers := s.readers.erase t, pc := update s.pc t .idle }
    | some (targetId, h) => some (s.goto t (.found request targetId h))
  -- `lease_under_lock`
  | .found request targetId h =>
    match s.registry.states[h]? with
    | none => none
    | some st => some { s with
        activeLeases := update s.activeLeases h (s.activeLeases h + 1)
        pc := update s.pc t (.counted request ⟨h, st.generation, targetId⟩) }
  | .counted request lease =>
    some { s with readers := s.readers.erase t, pc := update s.pc t (.tracking request lease) }
  | .tracking request lease => some { s with
      heldLeases := update s.heldLeases t (trackLease (s.heldLeases t) lease.arenaId)
      leases := update s.leases t (lease :: s.leases t)
      granted := (request, lease) :: s.granted
      pc := update s.pc t .idle }
  | .dropping lease => some { s with
      activeLeases := update s.activeLeases lease.state (s.activeLeases lease.state - 1)
      pc := update s.pc t .idle }
  | .writeWait op =>
    if s.writer = none ∧ s.readers = [] then
      some { s with writer := some t, pc := update s.pc t (.writing op) }
    else none
  | .writing op => some { (s.write op).2 with
      writer := none
      pc := update s.pc t (s.write op).1 }
  | .removedOwn h =>
    match s.registry.states[h]? with
    | none => none
    | some st =>
      if s.currentThreadHoldsLease t st.arenaId then some { s with
        outcomes := (h, .selfHeldLease) :: s.outcomes
        pc := update s.pc t .idle }
      else some (s.goto t (.drainingOwn h))
  -- `drain_leases` spins while the count it reads is not zero
  | .drainingOwn h => if s.activeLeases h = 0 then some (s.goto t (.drainedOwn h)) else none
  | .drainedOwn h => some { s with
      outcomes := (h, .drained) :: s.outcomes
      pc := update s.pc t .idle }
  | .draining [] => some (s.goto t .idle)
  | .draining (h :: hs) =>
    if s.activeLeases h = 0 then some (s.goto t (.draining hs)) else none

end

end State

/-- A thread enters a call, or goes on with the one it is in. -/
inductive Event where
  | call (t : ThreadId) (c : Call)
  | advance (t : ThreadId)
  deriving DecidableEq, Repr

def step (s : State) : Event → Option State
  | .call t c => if s.pc t = .idle then s.call t c else none
  | .advance t => s.advance t

end DotnetVm.Leases
