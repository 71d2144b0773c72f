import DotnetVm.Exceptions.Unwind
import DotnetVm.Stack.Calls
import DotnetVm.Lib.Runs

/-!
# The interpreter as an event-driven machine

One step is one iteration of the dispatch loop: an instruction in the normal modes,
a phase of the exception engine in the others. The instructions of the exception
machinery are executed here; every other instruction, intrinsic or delegate stub is
an arbitrary sequence of evaluation-stack operations followed by an outcome, both
supplied by the event of the step. The executor interposes a finalizer frame and
re-enters the loop after a yield.
-/

namespace DotnetVm

variable {Ty : Type}

inductive StackOp where
  | push (v : StackValue)
  | pop
  | setLocal (index : Nat) (v : StackValue)
  | setArgument (index : Nat) (v : StackValue)
  | setReturnAction (action : FrameReturnAction)
  deriving DecidableEq, Repr

inductive OpResult (Ty : Type) where
  | proceed
  | jump (target : Nat)
  | raise (exception : ObjectRef)
  | spin
  | retry
  | fail (e : VmError)
  | call (info : MethodInfo Ty) (multicast : Option MulticastState)
  | construct (info : MethodInfo Ty) (pointer : StackValue) (args : List StackValue)
  | tailCall (info : MethodInfo Ty)
  | jmp (info : MethodInfo Ty) (args : List StackValue)
  deriving DecidableEq

/-- What the rest of the interpreter contributes to one step. -/
structure Effects (Ty : Type) where
  ops : List StackOp := []
  result : OpResult Ty := .proceed
  returned : ReturnData := {}
  nullReference : ObjectRef := some 0
  typeInitialization : Option ObjectRef := none
  deriving DecidableEq

inductive Event (Ty : Type) where
  | dispatch (e : Effects Ty)
  | finalizer (info : MethodInfo Ty) (this : Nat)
  | resume
  deriving DecidableEq

/-- One evaluation-stack operation of the current frame. -/
def applyOp (s : ThreadContext Ty) : StackOp → Except Stop (ThreadContext Ty)
  | .push v => .ok (s.push v)
  | .pop =>
    match s.popSafe with
    | .error e => .error e
    | .ok (_, s) => .ok s
  | .setLocal index v =>
    match s.frames.getLast? with
    | none => .error .panicked
    | some f => s.setSlot (f.base.locals + index) v
  | .setArgument index v =>
    match s.frames.getLast? with
    | none => .error .panicked
    | some f => s.setSlot (f.base.arguments + index) v
  | .setReturnAction action =>
    .ok { s with
      frames := modifyCurrent s.frames fun f => { f with frameContinuation := some action } }

def applyOps (s : ThreadContext Ty) : List StackOp → Except Stop (ThreadContext Ty)
  | [] => .ok s
  | op :: ops =>
    match applyOp s op with
    | .error e => .error e
    | .ok s => applyOps s ops

section

variable (s : ThreadContext Ty)

def yieldAndRetry : ThreadContext Ty :=
  let continuation := match s.continuation with
    | .handlerUnwinds us => .handlerUnwinds us
    | _ => .retryInstruction
  { s with
    continuation := continuation
    stack := s.stack.take s.originalStackHeight
    frames := modifyCurrent s.frames fun f =>
      { f with
        ip := s.originalIp
        stackHeight := s.originalStackHeight - f.base.stack } }

/-- `call_frame`, with what the caller installs in the new frame afterwards. -/
def callWith (info : MethodInfo Ty) (multicast : Option MulticastState)
    (constructorResult : Option Nat) : Except Stop (ThreadContext Ty) :=
  match callFrame s info with
  | .error e => .error e
  | .ok s => .ok { s with
      frames := modifyCurrent s.frames fun f =>
        { f with multicastState := multicast, constructorResult := constructorResult } }

def pushAll (vs : List StackValue) : ThreadContext Ty :=
  vs.foldl ThreadContext.push s

def constructorFrame (info : MethodInfo Ty) (pointer : StackValue)
    (args : List StackValue) : Except Stop (ThreadContext Ty) :=
  if info.isInstance && args.length == info.parameters then
    callWith (pushAll s (.objectRef none :: pointer :: args)) info none (some s.stack.length)
  else .error .panicked

def inProtectedRegion (info : MethodInfo Ty) (ip : Nat) : Bool :=
  info.exceptions.any fun p =>
    p.instructions.contains ip || p.handlers.any fun h => h.instructions.contains ip

def shouldHonorTailCall (frame : StackFrame Ty) (argCount : Nat) : Bool :=
  !frame.info.isSynchronized && !frame.info.isCctor && !frame.isFinalizer &&
    frame.multicastState.isNone && frame.frameContinuation.isNone &&
    frame.constructorResult.isNone &&
    frame.info.instructions[frame.ip + 1]? == some .ret &&
    frame.stackHeight == argCount && !inProtectedRegion frame.info frame.ip

def replaceFrame (frame : StackFrame Ty) (info : MethodInfo Ty)
    (args : List StackValue) (constructorResult : Option Nat) : Except Stop (ThreadContext Ty) :=
  let popped := { s with frames := s.frames.dropLast }.truncate frame.base.arguments
  callWith (pushAll popped args) info none constructorResult

/-- `dispatch_method_tail` for a method with a body. -/
def dispatchTail (info : MethodInfo Ty) : Except Stop (ThreadContext Ty) :=
  match s.frames.getLast? with
  | none => .error .panicked
  | some frame =>
    if shouldHonorTailCall frame info.argumentCount then
      if s.stack.length < frame.base.stack + info.argumentCount then .error .panicked
      else replaceFrame s frame info ((s.stack.drop frame.base.stack).take info.argumentCount) none
    else callFrame s info

/-- `dispatch_method_jmp`; the arguments are read from the current frame's variables. -/
def dispatchJmp (info : MethodInfo Ty) (args : List StackValue) : Except Stop (ThreadContext Ty) :=
  match s.frames.getLast? with
  | none => .error .panicked
  | some frame =>
    if frame.stackHeight ≠ 0 then .error (.error (.aborted "jmp requires empty evaluation stack"))
    else if inProtectedRegion frame.info frame.ip then
      .error (.error (.aborted "jmp out of try/catch/finally block"))
    else if args.length ≠ info.argumentCount then .error .panicked
    else replaceFrame s frame info args frame.constructorResult

def finishOp (frame : StackFrame Ty) : OpResult Ty → Except Stop (ThreadContext Ty)
  | .proceed => .ok (if frame.multicastState.isSome then s else branch s (frame.ip + 1))
  | .jump target => .ok (branch s target)
  | .raise exception => .ok (s.setMode (.throwing exception false))
  | .spin => .ok s
  | .retry => .ok (yieldAndRetry s)
  | .fail e => .error (.error e)
  | .call info multicast => callWith s info multicast none
  | .construct info pointer args => constructorFrame s info pointer args
  | .tailCall info => dispatchTail s info
  | .jmp info args => dispatchJmp s info args

def runOp (frame : StackFrame Ty) (e : Effects Ty) : Except Stop (ThreadContext Ty) :=
  match applyOps s e.ops with
  | .error err => .error err
  | .ok s => finishOp s frame e.result

/-- `leave`: an unwind of a lower frame that is executing a handler is saved. -/
def leave (target : JumpTarget) : ThreadContext Ty :=
  let frameIndex := s.frames.length - 1
  let continuation := match s.exceptionMode with
    | .executingHandler state =>
      if state.cursor.frameIndex < frameIndex then s.continuation.pushHandlerUnwind state
      else s.continuation
    | _ => s.continuation
  { s with
    continuation := continuation
    exceptionMode := .unwinding
      { exception := none
        target := .instruction target
        cursor := .startOf frameIndex
        nestedFilter := none } }

def endFinally : Except Stop (ThreadContext Ty) :=
  match s.exceptionMode with
  | .executingHandler state => .ok (s.setMode (.unwinding state))
  | _ => .error (.error (.invalidCil "endfinally called outside of handler"))

def afterFilter (state : FilterState) (result : Int) : ExceptionState :=
  if result = 1 then .unwinding (unwindToHandler s state.exception state.handler)
  else .searching
    { exception := state.exception
      cursor := state.handler.nextHandler
      nestedFilter := none }

def endFilter (result : Int) : Except Stop (ThreadContext Ty) :=
  match s.exceptionMode with
  | .filtering state =>
    if state.handler.frameIndex < s.frames.length then
      let restored := (s.modifyFrame state.handler.frameIndex fun f =>
        { f with
          ip := state.originalIp
          stackHeight := state.originalStackHeight - f.base.stack
          exceptionStack := f.exceptionStack.tail }).restoreSuspended
      .ok (restored.setMode (afterFilter restored state result))
    else .error .panicked
  | _ => .error (.error (.invalidCil "EndFilter called but not in Filtering mode"))

end

def rethrow (s : ThreadContext Ty) (frame : StackFrame Ty) : Except Stop (ThreadContext Ty) :=
  match frame.exceptionStack with
  | [] => .error (.error (.invalidCil "rethrow without active exception"))
  | exception :: _ => .ok (s.setMode (.throwing exception true))

def hasFinallyBlocks (info : MethodInfo Ty) (ip : Nat) : Bool :=
  info.exceptions.any fun p =>
    p.instructions.contains ip && p.handlers.any fun h => !h.kind.isCatchOrFilter

def ret (s : ThreadContext Ty) (frame : StackFrame Ty) : Signal × ThreadContext Ty :=
  let frameIndex := s.frames.length - 1
  let direct : Signal × ThreadContext Ty :=
    if hasFinallyBlocks frame.info frame.ip then
      (.exception, s.setMode (.unwinding
        { exception := none
          target := .instruction usizeMax
          cursor := .startOf frameIndex
          nestedFilter := none }))
    else (.returnFrame, s)
  match s.exceptionMode with
  | .executingHandler state =>
    if state.cursor.frameIndex = frameIndex then
      (.exception, s.setMode (.unwinding { state with target := .instruction usizeMax }))
    else direct
  | _ => direct

def throwValue (s : ThreadContext Ty) (nullReference : ObjectRef) :
    StackValue → Except Stop (ThreadContext Ty)
  | .objectRef (some o) => .ok (s.setMode (.throwing (some o) false))
  | .objectRef none => .ok (s.setMode (.throwing nullReference false))
  | _ => .error (.error .typeMismatch)

/-- Follow the signal of an instruction or engine phase. -/
def followSignal (data : ReturnData) : Signal × ThreadContext Ty → Except Stop (ThreadContext Ty)
  | (.exception, s) => .ok s
  | (.returnFrame, s) => handleReturn s data

section

variable (s : ThreadContext Ty)

/-- Execute one instruction of the current frame. -/
def execute (frame : StackFrame Ty) (e : Effects Ty) : Instruction → Except Stop (ThreadContext Ty)
  | .leave target => .ok (leave s target)
  | .endFinally => endFinally s
  | .endFilter =>
    match s.popSafe with
    | .ok (.int32 result, s) => endFilter s result
    | .ok _ => .error (.error .typeMismatch)
    | .error err => .error err
  | .throw =>
    match s.popSafe with
    | .ok (v, s) => throwValue s e.nullReference v
    | .error err => .error err
  | .rethrow => rethrow s frame
  | .ret => followSignal e.returned (ret s frame)
  | .op => runOp s frame e

def discardResult (frame : StackFrame Ty) (state : MulticastState) :
    Except Stop (ThreadContext Ty) :=
  if 0 < frame.stackHeight ∧ state.nextIndex < state.targets.length ∧
      frame.info.returnType ≠ .void then
    match s.popSafe with
    | .ok (_, s) => .ok s
    | .error _ => .error .panicked
  else .ok s

/-- `handle_multicast_step`: invoke the next target with the retained arguments, or return. -/
def multicastStep (frame : StackFrame Ty) (state : MulticastState)
    (e : Effects Ty) : Except Stop (ThreadContext Ty) :=
  match discardResult s frame state with
  | .error err => .error err
  | .ok s =>
    match state.targets[state.nextIndex]? with
    | some target =>
      let advanced : ThreadContext Ty := { s with
        frames := modifyCurrent s.frames fun f =>
          { f with multicastState := some { state with nextIndex := state.nextIndex + 1 } } }
      runOp (pushAll advanced (.objectRef target :: state.args)) frame e
    | none => handleReturn s e.returned

def stepNormal (e : Effects Ty) : Except Stop (ThreadContext Ty) :=
  match s.frames.getLast? with
  | none => .error (.returned s.stack)
  | some frame =>
    match frame.multicastState with
    | some state => multicastStep s frame state e
    | none =>
      match frame.info.instructions[frame.ip]? with
      | none => .error (.error (.invalidIP frame.ip))
      | some i =>
        execute { s with originalIp := frame.ip, originalStackHeight := s.stack.length } frame e i

/-- `process_pending_finalizers` with an object in the queue. -/
def interposeFinalizer (info : MethodInfo Ty) (this : Nat) : Except Stop (ThreadContext Ty) :=
  if s.processingFinalizer then .ok s
  else if s.frames = [] then .error .panicked
  else
    match callFrame ({ s with processingFinalizer := true }.push (.objectRef (some this))) info with
    | .error e => .error e
    | .ok s => .ok { s with
        frames := modifyCurrent s.frames fun f => { f with isFinalizer := true } }

/-- Entering the loop again clears a retry marker. -/
def clearRetry : ThreadContext Ty :=
  match s.continuation with
  | .retryInstruction => { s with continuation := .none }
  | _ => s

end

section

variable (host : Host Ty) (s : ThreadContext Ty)

/-- One step of the interpreter. -/
def step : Event Ty → Except Stop (ThreadContext Ty)
  | .dispatch e =>
    if s.exceptionMode.isNormal then stepNormal s e
    else
      match handleException host s e.typeInitialization with
      | .error err => .error err
      | .ok r => followSignal e.returned r
  | .finalizer info this => interposeFinalizer s info this
  | .resume => .ok (clearRetry s)

/-- The transitions between running states. -/
def next (e : Event Ty) : Option (ThreadContext Ty) :=
  (step host s e).toOption

/-- The states a thread reaches from its entry point. -/
def Reachable : Prop :=
  ∃ info args, Runs.Run (next host) Runs.anyStep (entrypoint info args) s

end

end DotnetVm
