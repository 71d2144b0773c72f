import DotnetVm.Data

/-!
# Exception handling data

The data types of the two-pass exception engine: protected sections and their
handlers, the address of a handler in the call stack, and the states of the
exception state machine. The type a `catch` clause names is a parameter `Ty`;
an exception object is known by its reference alone.
-/

namespace DotnetVm

/-- A reference to a heap object; `none` is the null reference. -/
abbrev ObjectRef := Option Nat

/-- A half-open range of instruction indices, `start..stop`. -/
structure Range where
  start : Nat
  stop : Nat
  deriving DecidableEq, Repr

def Range.contains (r : Range) (ip : Nat) : Bool := decide (r.start ≤ ip) && decide (ip < r.stop)

@[simp] lemma Range.contains_iff (r : Range) (ip : Nat) :
    r.contains ip = true ↔ r.start ≤ ip ∧ ip < r.stop := by simp [Range.contains]

/-- A branch target is an index into an instruction vector, hence below `usize::MAX`. -/
abbrev JumpTarget := { ip : Nat // ip < usizeMax }

/-- A target in a short method. -/
def JumpTarget.short (ip : BitVec 8) : JumpTarget := ⟨ip.toNat, lt_trans ip.isLt (by decide)⟩

/-- Specifies the behavior and trigger conditions of an exception handler. -/
inductive HandlerKind (Ty : Type) where
  | catchClause (t : Ty)
  | filterClause (clauseOffset : Nat)
  | finallyClause
  | faultClause
  deriving DecidableEq, Repr

/-- A handler and the range of its body. -/
structure Handler (Ty : Type) where
  instructions : Range
  kind : HandlerKind Ty
  deriving DecidableEq, Repr

/-- A `try` block and its handlers, in metadata order. -/
structure ProtectedSection (Ty : Type) where
  instructions : Range
  handlers : List (Handler Ty)
  deriving DecidableEq, Repr

structure HandlerAddress where
  frameIndex : Nat
  sectionIndex : Nat
  handlerIndex : Nat
  deriving DecidableEq, Repr

/-- The first handler position of a frame. -/
def HandlerAddress.startOf (frameIndex : Nat) : HandlerAddress := ⟨frameIndex, 0, 0⟩

/-- The position after a handler in its own section. -/
def HandlerAddress.nextHandler (a : HandlerAddress) : HandlerAddress :=
  { a with handlerIndex := a.handlerIndex + 1 }

structure FilterState where
  exception : ObjectRef
  handler : HandlerAddress
  originalIp : Nat
  originalStackHeight : Nat
  deriving DecidableEq, Repr

structure SearchState where
  exception : ObjectRef
  cursor : HandlerAddress
  nestedFilter : Option FilterState
  deriving DecidableEq, Repr

inductive UnwindTarget where
  | handler (h : HandlerAddress)
  | instruction (ip : Nat)
  deriving DecidableEq, Repr

structure UnwindState where
  exception : Option ObjectRef
  target : UnwindTarget
  cursor : HandlerAddress
  nestedFilter : Option FilterState
  deriving DecidableEq, Repr

inductive ExceptionState where
  | none
  | throwing (exception : ObjectRef) (preserve : Bool)
  | searching (state : SearchState)
  | filtering (state : FilterState)
  | unwinding (state : UnwindState)
  | executingHandler (state : UnwindState)
  deriving DecidableEq, Repr

/-- The modes in which the dispatch loop executes instructions; in the others it runs the engine. -/
def ExceptionState.isNormal : ExceptionState → Bool
  | .none | .executingHandler _ | .filtering _ => true
  | _ => false

@[simp] lemma isNormal_none : ExceptionState.none.isNormal = true := rfl
@[simp] lemma isNormal_executingHandler (u : UnwindState) :
    (ExceptionState.executingHandler u).isNormal = true := rfl
@[simp] lemma isNormal_filtering (f : FilterState) :
    (ExceptionState.filtering f).isNormal = true := rfl
@[simp] lemma isNormal_throwing (e : ObjectRef) (p : Bool) :
    (ExceptionState.throwing e p).isNormal = false := rfl
@[simp] lemma isNormal_searching (s : SearchState) :
    (ExceptionState.searching s).isNormal = false := rfl
@[simp] lemma isNormal_unwinding (u : UnwindState) :
    (ExceptionState.unwinding u).isNormal = false := rfl

/-- What the thread resumes with beside its stacks. The saved unwinds are a stack, top first. -/
inductive VmContinuation where
  | none
  | retryInstruction
  | handlerUnwinds (unwinds : List UnwindState)
  deriving DecidableEq, Repr

/-- The saved handler unwinds, top first. -/
def VmContinuation.unwinds : VmContinuation → List UnwindState
  | .handlerUnwinds us => us
  | _ => []

@[simp] lemma unwinds_none : VmContinuation.none.unwinds = [] := rfl
@[simp] lemma unwinds_retry : VmContinuation.retryInstruction.unwinds = [] := rfl
@[simp] lemma unwinds_handlerUnwinds (us : List UnwindState) :
    (VmContinuation.handlerUnwinds us).unwinds = us := rfl

section

variable (k : VmContinuation)

def VmContinuation.pushHandlerUnwind (state : UnwindState) : VmContinuation :=
  match k with
  | .handlerUnwinds us => .handlerUnwinds (state :: us)
  | _ => .handlerUnwinds [state]

def VmContinuation.popHandlerUnwind : Option UnwindState × VmContinuation :=
  match k with
  | .handlerUnwinds (u :: u' :: us) => (some u, .handlerUnwinds (u' :: us))
  | .handlerUnwinds [u] => (some u, .none)
  | .handlerUnwinds [] => (Option.none, .none)
  | k => (Option.none, k)

@[simp] lemma unwinds_pushHandlerUnwind (u : UnwindState) :
    (k.pushHandlerUnwind u).unwinds = u :: k.unwinds := by
  cases k <;> rfl

@[simp] lemma popHandlerUnwind_fst : k.popHandlerUnwind.1 = k.unwinds.head? := by
  match k with
  | .none | .retryInstruction | .handlerUnwinds [] | .handlerUnwinds [_]
  | .handlerUnwinds (_ :: _ :: _) => rfl

@[simp] lemma unwinds_popHandlerUnwind : k.popHandlerUnwind.2.unwinds = k.unwinds.tail := by
  match k with
  | .none | .retryInstruction | .handlerUnwinds [] | .handlerUnwinds [_]
  | .handlerUnwinds (_ :: _ :: _) => rfl

end

/-- The host-side failures the modelled code reports. -/
inductive VmError where
  | invalidCil (message : String)
  | invalidIP (ip : Nat)
  | stackUnderflow
  | typeMismatch
  | aborted (message : String)
  | typeResolution (message : String)
  deriving DecidableEq, Repr

end DotnetVm
