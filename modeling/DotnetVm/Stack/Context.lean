import DotnetVm.Exceptions.Data

/-!
# The thread context

The state of one interpreter thread: the evaluation stack, the frame stack, the
exception mode and the continuation, with the operations through which every
other part of the interpreter changes them. Vectors that are indexed
(evaluation slots, frames) are lists in index order, so a push appends; the
per-frame exception stack is only used as a stack and has its top first.
-/

namespace DotnetVm

open List

variable {Ty : Type}

/-- Values on the evaluation stack. Only the kinds the modelled code looks at are told apart. -/
inductive StackValue where
  | int32 (v : Int)
  | objectRef (o : ObjectRef)
  | managedPtr (owner : Nat)
  | other (payload : Nat)
  deriving DecidableEq, Repr

inductive Instruction where
  | leave (target : JumpTarget)
  | endFinally
  | endFilter
  | throw
  | rethrow
  | ret
  | op
  deriving DecidableEq

/-- What a method returns, as far as `return_frame` distinguishes it. -/
inductive ReturnKind where
  | void
  | value
  | typedReference
  deriving DecidableEq, Repr

structure MethodInfo (Ty : Type) where
  instructions : List Instruction
  exceptions : List (ProtectedSection Ty) := []
  isInstance : Bool := false
  parameters : Nat := 0
  locals : List StackValue := []
  returnType : ReturnKind := .void
  isCctor : Bool := false
  parentIsValueType : Bool := false
  isSynchronized : Bool := false
  deriving DecidableEq

def MethodInfo.argumentCount (m : MethodInfo Ty) : Nat := m.isInstance.toNat + m.parameters

/-- Where the slots of a frame begin: its arguments, its locals, its operands. -/
structure BasePointer where
  arguments : Nat
  locals : Nat
  stack : Nat
  deriving DecidableEq, Repr

/-- The remaining work of a multicast invocation. -/
structure MulticastState where
  targets : List ObjectRef
  nextIndex : Nat
  args : List StackValue
  deriving DecidableEq, Repr

inductive FrameReturnAction where
  | invokeVoid
  | invokeValue
  deriving DecidableEq, Repr

structure StackFrame (Ty : Type) where
  stackHeight : Nat
  base : BasePointer
  ip : Nat
  info : MethodInfo Ty
  exceptionStack : List ObjectRef
  isFinalizer : Bool
  multicastState : Option MulticastState
  frameContinuation : Option FrameReturnAction
  constructorResult : Option Nat
  deriving DecidableEq

/-- A frame as `push_frame` installs it. -/
def StackFrame.new (base : BasePointer) (info : MethodInfo Ty) : StackFrame Ty where
  stackHeight := 0
  base := base
  ip := 0
  info := info
  exceptionStack := []
  isFinalizer := false
  multicastState := none
  frameContinuation := none
  constructorResult := none

structure ThreadContext (Ty : Type) where
  stack : List StackValue
  suspendedStack : List StackValue
  frames : List (StackFrame Ty)
  suspendedFrames : List (StackFrame Ty)
  exceptionMode : ExceptionState
  continuation : VmContinuation
  originalIp : Nat
  originalStackHeight : Nat
  processingFinalizer : Bool
  deriving DecidableEq

inductive Stop where
  | returned (stack : List StackValue)
  | methodThrew (exception : ObjectRef)
  | error (e : VmError)
  | panicked
  deriving DecidableEq

/-- Change the current frame, if there is one. -/
def modifyCurrent (frames : List (StackFrame Ty)) (g : StackFrame Ty → StackFrame Ty) :
    List (StackFrame Ty) :=
  match frames.getLast? with
  | some f => frames.dropLast ++ [g f]
  | none => frames

@[simp] lemma modifyCurrent_nil (g : StackFrame Ty → StackFrame Ty) :
    modifyCurrent [] g = [] := rfl

@[simp] lemma modifyCurrent_concat (fs : List (StackFrame Ty)) (f : StackFrame Ty)
    (g : StackFrame Ty → StackFrame Ty) : modifyCurrent (fs ++ [f]) g = fs ++ [g f] := by
  simp [modifyCurrent]

@[simp] lemma length_modifyCurrent (fs : List (StackFrame Ty))
    (g : StackFrame Ty → StackFrame Ty) : (modifyCurrent fs g).length = fs.length := by
  rcases eq_nil_or_concat' fs with rfl | ⟨init, f, rfl⟩ <;> simp

variable {α : Type}

lemma getElem?_concat_cases {l : List α} {i : Nat} {a b : α}
    (h : (l ++ [a])[i]? = some b) : i < l.length ∧ l[i]? = some b ∨ i = l.length ∧ a = b := by
  rw [getElem?_append] at h
  split at h
  · exact .inl ⟨by assumption, h⟩
  · obtain ⟨hi, hab⟩ := List.getElem?_eq_some_iff.mp h
    simp only [List.length_singleton, List.getElem_singleton] at hi hab
    exact .inr ⟨by omega, hab⟩

lemma le_of_lt_concat {l init : List α} {a : α} {n : Nat} (hl : l = init ++ [a])
    (h : n < l.length) : n ≤ init.length := by
  simp only [hl, length_append, length_singleton] at h
  omega

lemma exists_split {l : List α} {i : Nat} {a : α} (h : l[i]? = some a) :
    ∃ low high, l = low ++ a :: high ∧ low.length = i := by
  obtain ⟨hlt, hget⟩ := List.getElem?_eq_some_iff.mp h
  refine ⟨l.take i, l.drop (i + 1), ?_, by rw [List.length_take]; omega⟩
  rw [← hget, getElem_cons_drop, take_append_drop]

lemma modify_split (low : List α) (a : α) (high : List α) (g : α → α) :
    (low ++ a :: high).modify low.length g = low ++ g a :: high := by
  induction low with
  | nil => rfl
  | cons b low ih => simpa using ih

namespace ThreadContext

variable (s : ThreadContext Ty)

def push (v : StackValue) : ThreadContext Ty :=
  { s with
    stack := s.stack ++ [v]
    frames := modifyCurrent s.frames fun f => { f with stackHeight := f.stackHeight + 1 } }

/-- `on_pop_safe`: the current frame gives up one slot. -/
def onPopSafe : Except Stop (ThreadContext Ty) :=
  match s.frames.getLast? with
  | none => .ok s
  | some f =>
    if f.stackHeight = 0 then .error (.error .stackUnderflow)
    else .ok { s with
      frames := modifyCurrent s.frames fun f => { f with stackHeight := f.stackHeight - 1 } }

def popSafe : Except Stop (StackValue × ThreadContext Ty) :=
  match s.onPopSafe with
  | .error e => .error e
  | .ok s =>
    match s.stack.getLast? with
    | none => .error (.error .stackUnderflow)
    | some v => .ok (v, { s with stack := s.stack.dropLast })

/-- `set_slot`: an index past the end panics. -/
def setSlot (i : Nat) (v : StackValue) : Except Stop (ThreadContext Ty) :=
  if i < s.stack.length then .ok { s with stack := s.stack.set i v } else .error .panicked

/-- `clear_evaluation_stack_from` and `truncate`: drop the slots from `start` on. -/
def truncate (start : Nat) : ThreadContext Ty := { s with stack := s.stack.take start }

def clearSuspended : ThreadContext Ty := { s with suspendedStack := [], suspendedFrames := [] }

def suspendAbove (slot frameIndex : Nat) : ThreadContext Ty :=
  { s with
    suspendedStack := s.stack.drop slot
    stack := s.stack.take slot
    suspendedFrames := s.frames.drop (frameIndex + 1)
    frames := s.frames.take (frameIndex + 1) }

def restoreSuspended : ThreadContext Ty :=
  { s with
    stack := s.stack ++ s.suspendedStack
    suspendedStack := []
    frames := s.frames ++ s.suspendedFrames
    suspendedFrames := [] }

/-- Change the frame at an index. -/
def modifyFrame (i : Nat) (g : StackFrame Ty → StackFrame Ty) : ThreadContext Ty :=
  { s with frames := s.frames.modify i g }

def setMode (mode : ExceptionState) : ThreadContext Ty := { s with exceptionMode := mode }

end ThreadContext

end DotnetVm
