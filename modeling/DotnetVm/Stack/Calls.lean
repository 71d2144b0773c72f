import DotnetVm.Stack.Context

/-!
# Calls and returns

`call_frame` moves the arguments of the caller into a new frame, `return_frame`
pops a frame and hands its result to the caller, and `handle_return` steps the
caller past its call. Frame homes (address-taken variables) live outside the
evaluation stack and are not part of this state.
-/

namespace DotnetVm

variable {Ty : Type}

structure ReturnData where
  constructed : StackValue := .other 0
  boxed : Option StackValue := none
  deriving DecidableEq, Repr

section

variable (s : ThreadContext Ty)

def canonicalizeThis (info : MethodInfo Ty) (argumentBase : Nat) : Except Stop (ThreadContext Ty) :=
  match info.isInstance, s.stack[argumentBase]? with
  | false, _ => .ok s
  | true, none => .error .panicked
  | true, some (.objectRef o) =>
    if info.parentIsValueType then
      match o with
      | none => .error .panicked
      | some obj => .ok { s with stack := s.stack.set argumentBase (.managedPtr obj) }
    else .ok s
  | true, some _ => .ok s

def consumeArguments (count : Nat) : Except Stop (ThreadContext Ty) :=
  match s.frames.getLast? with
  | none => .ok s
  | some f =>
    if f.stackHeight < count then .error .panicked
    else .ok { s with
      frames := modifyCurrent s.frames fun f => { f with stackHeight := f.stackHeight - count } }

def callFrame (info : MethodInfo Ty) : Except Stop (ThreadContext Ty) :=
  let localsBase := s.stack.length
  if localsBase < info.argumentCount then .error .panicked else
  let argumentBase := localsBase - info.argumentCount
  match canonicalizeThis { s with stack := s.stack ++ info.locals } info argumentBase with
  | .error e => .error e
  | .ok s =>
    match consumeArguments s info.argumentCount with
    | .error e => .error e
    | .ok s => .ok { s with
        frames := s.frames ++ [.new
          { arguments := argumentBase
            locals := localsBase
            stack := localsBase + info.locals.length } info] }

/-- `entrypoint_frame` on an empty thread. -/
def entrypoint (info : MethodInfo Ty) (args : List StackValue) : ThreadContext Ty where
  stack := args ++ info.locals
  suspendedStack := []
  frames := [.new
    { arguments := 0
      locals := args.length
      stack := args.length + info.locals.length } info]
  suspendedFrames := []
  exceptionMode := .none
  continuation := .none
  originalIp := 0
  originalStackHeight := 0
  processingFinalizer := false

def returnValue (frame : StackFrame Ty) : Except Stop (Option StackValue) :=
  match frame.info.returnType with
  | .void => .ok none
  | _ =>
    match frame.base.stack + frame.stackHeight with
    | 0 => .error .panicked
    | slot + 1 =>
      match s.stack[slot]? with
      | none => .error .panicked
      | some v => .ok (some v)

/-- `complete_constructor_receiver`: the slot the caller reserved receives the constructed value. -/
def completeConstructor (slot : Option Nat) (data : ReturnData) : Except Stop (ThreadContext Ty) :=
  match slot with
  | none => .ok s
  | some slot => s.setSlot slot data.constructed

def applyReturnAction (data : ReturnData) : Except Stop (ThreadContext Ty) :=
  let taken : ThreadContext Ty :=
    { s with frames := modifyCurrent s.frames fun f => { f with frameContinuation := none } }
  match s.frames.getLast?.bind (·.frameContinuation) with
  | none => .ok taken
  | some .invokeVoid => .ok (taken.push (.objectRef none))
  | some .invokeValue =>
    match taken.popSafe with
    | .error _ => .error .panicked
    | .ok (v, s) => .ok (s.push (data.boxed.getD v))

def pushOption : Option StackValue → ThreadContext Ty
  | none => s
  | some v => s.push v

def returnFrame (data : ReturnData) : Except Stop (ThreadContext Ty) :=
  match s.frames.getLast? with
  | none => .error .panicked
  | some frame =>
    if frame.info.returnType = .typedReference then
      .error (.error (.invalidCil "ECMA-335 typedref values cannot be method return values"))
    else
      match returnValue s frame with
      | .error e => .error e
      | .ok value =>
        let popped : ThreadContext Ty := { s with
          frames := s.frames.dropLast
          processingFinalizer := s.processingFinalizer && !frame.isFinalizer }
        match completeConstructor (pushOption (popped.truncate frame.base.arguments) value)
            frame.constructorResult data with
        | .error e => .error e
        | .ok s => applyReturnAction s data

/-- Move the current frame to another instruction. -/
def branch (ip : Nat) : ThreadContext Ty :=
  { s with frames := modifyCurrent s.frames fun f => { f with ip := ip } }

end

/-- `handle_return`, popping at most `fuel` frames: a caller that was at its last instruction
returns as well. -/
def handleReturnFrames (data : ReturnData) : Nat → ThreadContext Ty → Except Stop (ThreadContext Ty)
  | 0, s => .error (.returned s.stack)
  | fuel + 1, s =>
    match s.frames.getLast? with
    | none => .error (.returned s.stack)
    | some frame =>
      match returnFrame s data with
      | .error e => .error e
      | .ok s =>
        match s.frames.getLast? with
        | none => .error (.returned s.stack)
        | some caller =>
          if frame.info.isCctor || frame.isFinalizer then .ok s
          else if caller.multicastState.isSome then .ok s
          else if caller.info.instructions.length ≤ caller.ip + 1 then
            handleReturnFrames data fuel (branch s (caller.ip + 1))
          else .ok (branch s (caller.ip + 1))

/-- `handle_return`: every frame may return. -/
def handleReturn (s : ThreadContext Ty) (data : ReturnData) : Except Stop (ThreadContext Ty) :=
  handleReturnFrames data s.frames.length s

end DotnetVm
