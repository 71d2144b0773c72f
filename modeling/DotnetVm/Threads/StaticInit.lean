import DotnetVm.Lib.Runs

/-!
# Static initialization

Each type instantiation has a storage with an initialization state. `init` reads the
state without a lock, reads it again under the mutex of the storage, and answers the
calling thread: execute the static constructor, go on, or wait. A thread that has to
wait is recorded in a graph of waiting threads, and is told to go on without waiting
when its wait would close a cycle in that graph.

Every load, store, lock and unlock is a step of its own.
-/

namespace DotnetVm.StaticInit

open Function

/-- Thread ids are positive: `initializing_thread` is zero for none. -/
abbrev ThreadId := Nat

/-- A type with its generic arguments. -/
abbrev Key := Nat

inductive InitState where
  | uninitialized
  | initializing
  | initialized
  | failed
  deriving DecidableEq, Repr

structure StaticStorage where
  initState : InitState
  initializingThread : ThreadId
  deriving DecidableEq, Repr

def StaticStorage.new : StaticStorage := ⟨.uninitialized, 0⟩

inductive StaticInitResult where
  | execute
  | initialized
  | recursive
  | failed
  | waiting
  deriving DecidableEq, Repr

/-- Where a thread is. -/
inductive Pc where
  | idle
  /-- In `init`: whether the storage exists, and its insertion. -/
  | ensuring (k : Key)
  | inserting (k : Key)
  | loadState (k : Key)
  | loadThread (k : Key)
  | exchanging (k : Key)
  | locking (k : Key)
  /-- Holding `init_mutex`. -/
  | locked (k : Key)
  | claimed (k : Key)
  | loadTarget (k : Key)
  | checkCycle (k : Key) (target : ThreadId)
  /-- In `wait_for_init`, at the top of the loop and down its body. -/
  | waiting (k : Key)
  | waitTarget (k : Key)
  | waitUpdate (k : Key) (target : ThreadId)
  | polling (k : Key)
  | relocking (k : Key)
  | relocked (k : Key)
  | leaving
  /-- In `mark_initialized` or `mark_failed`. -/
  | marking (k : Key) (outcome : InitState)
  | storing (k : Key) (outcome : InitState)
  | clearing (k : Key)
  deriving DecidableEq, Repr

structure State where
  storages : Key → Option StaticStorage
  /-- `init_mutex` of each storage. -/
  mutex : Key → Option ThreadId
  waitGraph : List (ThreadId × ThreadId)
  pc : ThreadId → Pc
  /-- Every answer of `init` so far. -/
  results : List (ThreadId × Key × StaticInitResult)
  /-- The instantiations `mark_initialized` was called for. -/
  marked : List Key

def start : State where
  storages := fun _ => none
  mutex := fun _ => none
  waitGraph := []
  pc := fun _ => .idle
  results := []
  marked := []

/-- `HashMap::insert` on the wait graph. -/
def insertEdge (graph : List (ThreadId × ThreadId)) (waiter target : ThreadId) :
    List (ThreadId × ThreadId) :=
  (waiter, target) :: graph.filter fun edge => edge.1 != waiter

def removeEdge (graph : List (ThreadId × ThreadId)) (waiter : ThreadId) :
    List (ThreadId × ThreadId) :=
  graph.filter fun edge => edge.1 != waiter

def causesCycle (graph : List (ThreadId × ThreadId)) (waiter : ThreadId) :
    Nat → ThreadId → Option Bool
  | 0, _ => none
  | rounds + 1, current =>
    match graph.lookup current with
    | none => some false
    | some next => if next = waiter then some true else causesCycle graph waiter rounds next

namespace State

def initState (s : State) (k : Key) : InitState :=
  match s.storages k with
  | none => .uninitialized
  | some st => st.initState

def initializingThread (s : State) (k : Key) : ThreadId :=
  match s.storages k with
  | none => 0
  | some st => st.initializingThread

section

variable (s : State) (t : ThreadId)

def goto (p : Pc) : State := { s with pc := update s.pc t p }

/-- `init` returns without holding the mutex. -/
def answer (k : Key) (r : StaticInitResult) (p : Pc) : State :=
  { s with results := (t, k, r) :: s.results, pc := update s.pc t p }

def unlock (s : State) (k : Key) : State := { s with mutex := update s.mutex k none }

def setStorage (s : State) (k : Key) (st : StaticStorage) : State :=
  { s with storages := update s.storages k (some st) }

/-- Take the mutex of the storage when it is free. -/
def lock (k : Key) (p : Pc) : Option State :=
  if s.mutex k = none then
    some { s with mutex := update s.mutex k (some t), pc := update s.pc t p }
  else none

end

end State

section Steps

variable (hasCctor : Key → Bool)

/-- After the lock-free test `init` asks for the static constructor. -/
def afterLoad (k : Key) : Pc := if hasCctor k then .locking k else .exchanging k

/-- One step of a thread inside its call. `flag` says whether the field layout fails to resolve
and whether a collection is requested, `rounds` bounds the loop of `causes_cycle`. -/
def State.advance (s : State) (t : ThreadId) (flag : Bool) (rounds : Nat) : Option State :=
  match s.pc t with
  | .idle => none
  | .ensuring k =>
    if (s.storages k).isSome then some (s.goto t (.loadState k))
    else some (s.goto t (if flag then .idle else .inserting k))
  | .inserting k =>
    some ((s.setStorage k ((s.storages k).getD .new)).goto t (.loadState k))
  | .loadState k =>
    match s.initState k with
    | .initialized => some (s.answer t k .initialized .idle)
    | .failed => some (s.answer t k .failed .idle)
    | .initializing => some (s.goto t (.loadThread k))
    | .uninitialized => some (s.goto t (afterLoad hasCctor k))
  | .loadThread k =>
    if s.initializingThread k = t then some (s.answer t k .recursive .idle)
    else some (s.goto t (afterLoad hasCctor k))
  | .exchanging k =>
    match s.initState k with
    | .uninitialized =>
      some ((s.setStorage k ⟨.initialized, s.initializingThread k⟩).answer t k .initialized .idle)
    | _ => some (s.answer t k .initialized .idle)
  | .locking k => s.lock t k (.locked k)
  | .locked k =>
    match s.initState k with
    | .uninitialized =>
      some ((s.setStorage k ⟨.initializing, s.initializingThread k⟩).goto t (.claimed k))
    | .initialized => some ((s.unlock k).answer t k .initialized .idle)
    | .failed => some ((s.unlock k).answer t k .failed .idle)
    | .initializing => some (s.goto t (.loadTarget k))
  | .claimed k =>
    some (((s.setStorage k ⟨s.initState k, t⟩).unlock k).answer t k .execute .idle)
  | .loadTarget k =>
    if s.initializingThread k ≠ 0 then
      some (s.goto t (.checkCycle k (s.initializingThread k)))
    else some ((s.unlock k).answer t k .waiting (.waiting k))
  | .checkCycle k target =>
    match causesCycle s.waitGraph t rounds target with
    | none => none
    | some true => some ((s.unlock k).answer t k .recursive .idle)
    | some false => some ({ s.unlock k with
        waitGraph := insertEdge s.waitGraph t target }.answer t k .waiting (.waiting k))
  | .waiting k =>
    some (s.goto t (if s.initState k = .initializing then .waitTarget k else .leaving))
  | .waitTarget k => some (s.goto t (.waitUpdate k (s.initializingThread k)))
  | .waitUpdate k target => some { s with
      waitGraph :=
        if target = 0 ∨ target = t then s.waitGraph else insertEdge s.waitGraph t target
      pc := update s.pc t (.polling k) }
  | .polling k => some (s.goto t (if flag then .leaving else .relocking k))
  | .relocking k => s.lock t k (.relocked k)
  -- the wait releases the mutex, and a woken thread takes and drops it again
  | .relocked k =>
    some ((s.unlock k).goto t (if s.initState k = .initializing then .waiting k else .leaving))
  | .leaving => some { s with
      waitGraph := removeEdge s.waitGraph t
      pc := update s.pc t .idle }
  | .marking k outcome =>
    if (s.storages k).isSome then s.lock t k (.storing k outcome) else some (s.goto t .idle)
  | .storing k outcome =>
    some ((s.setStorage k ⟨outcome, s.initializingThread k⟩).goto t (.clearing k))
  | .clearing k => some (((s.setStorage k ⟨s.initState k, 0⟩).unlock k).goto t .idle)

/-- What an idle thread may call. A thread that is told to wait goes on with `wait_for_init`,
as `initialize_static_storage` does. -/
inductive Event where
  | init (t : ThreadId) (k : Key)
  | markInitialized (t : ThreadId) (k : Key)
  | markFailed (t : ThreadId) (k : Key)
  | advance (t : ThreadId) (flag : Bool) (rounds : Nat)
  deriving DecidableEq, Repr

def step (s : State) : Event → Option State
  | .init t k => if t ≠ 0 ∧ s.pc t = .idle then some (s.goto t (.ensuring k)) else none
  | .markInitialized t k =>
    if t ≠ 0 ∧ s.pc t = .idle then
      some { s.goto t (.marking k .initialized) with marked := k :: s.marked }
    else none
  | .markFailed t k =>
    if t ≠ 0 ∧ s.pc t = .idle then some (s.goto t (.marking k .failed)) else none
  | .advance t flag rounds => s.advance hasCctor t flag rounds

end Steps

end DotnetVm.StaticInit
