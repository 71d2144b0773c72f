import DotnetVm.Stack.Context

/-!
# The first pass: throwing, searching and entering a filter

`begin_throwing` turns a thrown exception into a search, `search_for_handler`
walks the frames down from the cursor, and the walk ends in a matching `catch`,
in a filter to evaluate, or in an unhandled exception. Stack-trace capture only
writes a string field of the exception object and is left out.
-/

namespace DotnetVm

variable {Ty : Type}

/-- What type resolution contributes to the engine. -/
structure Host (Ty : Type) where
  systemException : Except VmError Ty
  getHeapDescription : Nat → Except VmError Ty
  isA : Ty → Ty → Except VmError Bool

/-- What the dispatch loop does next: look at the mode again, or pop the current frame. -/
inductive Signal where
  | exception
  | returnFrame
  deriving DecidableEq, Repr

/-- `begin_throwing`. The dispatch loop calls it in mode `Throwing`; its tail call of
`handle_exception` is left to the next step. -/
def beginThrowing (host : Host Ty) (s : ThreadContext Ty) (exception : ObjectRef) :
    Except Stop (Signal × ThreadContext Ty) :=
  if s.frames = [] then .error .panicked else
  match host.systemException with
  | .error e => .error (.error e)
  | .ok _ =>
    if exception = none then .error .panicked else
    let cleared := match s.exceptionMode with
      | .none | .throwing _ _ => s.clearSuspended
      | _ => s
    let nestedFilter := match s.exceptionMode with
      | .filtering state => some state
      | .searching state => state.nestedFilter
      | _ => none
    .ok (.exception, cleared.setMode (.searching
      { exception := exception
        cursor := .startOf (s.frames.length - 1)
        nestedFilter := nestedFilter }))

/-- What the first pass settles on. -/
inductive Candidate where
  | accepted (addr : HandlerAddress)
  | filter (addr : HandlerAddress) (clauseOffset : Nat)
  deriving DecidableEq, Repr

def searchHandler (host : Host Ty) (exception : ObjectRef) (addr : HandlerAddress)
    (handler : Handler Ty) : Except Stop (Option Candidate) :=
  match handler.kind with
  | .catchClause t =>
    match exception with
    | none => .error (.error (.typeResolution "InvalidHandle"))
    | some o =>
      match host.getHeapDescription o with
      | .error e => .error (.error e)
      | .ok excType =>
        match host.isA excType t with
        | .ok true => .ok (some (.accepted addr))
        | .ok false => .ok none
        | .error e => .error (.error e)
  | .filterClause clauseOffset => .ok (some (.filter addr clauseOffset))
  | .finallyClause | .faultClause => .ok none

def searchHandlers (host : Host Ty) (exception : ObjectRef) (frameIndex sectionIndex : Nat) :
    Nat → List (Handler Ty) → Except Stop (Option Candidate)
  | _, [] => .ok none
  | handlerIndex, h :: hs =>
    match searchHandler host exception ⟨frameIndex, sectionIndex, handlerIndex⟩ h with
    | .ok none => searchHandlers host exception frameIndex sectionIndex (handlerIndex + 1) hs
    | r => r

def handlerStart (cursor : HandlerAddress) (frameIndex sectionIndex : Nat) : Nat :=
  if frameIndex = cursor.frameIndex ∧ sectionIndex = cursor.sectionIndex then cursor.handlerIndex
  else 0

/-- The first section index a walk looks at in a frame. -/
def sectionStart (cursor : HandlerAddress) (frameIndex : Nat) : Nat :=
  if frameIndex = cursor.frameIndex then cursor.sectionIndex else 0

def searchSections (host : Host Ty) (exception : ObjectRef) (cursor : HandlerAddress)
    (frameIndex ip : Nat) :
    Nat → List (ProtectedSection Ty) → Except Stop (Option Candidate)
  | _, [] => .ok none
  | sectionIndex, p :: ps =>
    if p.instructions.contains ip then
      let start := handlerStart cursor frameIndex sectionIndex
      match searchHandlers host exception frameIndex sectionIndex start (p.handlers.drop start) with
      | .ok none => searchSections host exception cursor frameIndex ip (sectionIndex + 1) ps
      | r => r
    else searchSections host exception cursor frameIndex ip (sectionIndex + 1) ps

/-- One frame of the first pass. -/
def searchFrame (host : Host Ty) (frames : List (StackFrame Ty)) (exception : ObjectRef)
    (cursor : HandlerAddress) (frameIndex : Nat) : Except Stop (Option Candidate) :=
  match frames[frameIndex]? with
  | none => .error .panicked
  | some frame =>
    let start := sectionStart cursor frameIndex
    searchSections host exception cursor frameIndex frame.ip start
      (frame.info.exceptions.drop start)

/-- The frames from `frameIndex` down to `stopFrame`. -/
def searchFrames (host : Host Ty) (frames : List (StackFrame Ty)) (exception : ObjectRef)
    (cursor : HandlerAddress) (stopFrame : Nat) : Nat → Except Stop (Option Candidate)
  | 0 => if 0 < stopFrame then .ok none else searchFrame host frames exception cursor 0
  | frameIndex + 1 =>
    if frameIndex + 1 < stopFrame then .ok none
    else
      match searchFrame host frames exception cursor (frameIndex + 1) with
      | .ok none => searchFrames host frames exception cursor stopFrame frameIndex
      | r => r

def stopFrame (state : SearchState) : Except Stop Nat :=
  match state.nestedFilter with
  | none => .ok 0
  | some nested =>
    if nested.handler.frameIndex = 0 then .error .panicked else .ok nested.handler.frameIndex

section

variable (s : ThreadContext Ty) (exception : ObjectRef) (addr : HandlerAddress)

def enterFilter (clauseOffset : Nat) : Except Stop (Signal × ThreadContext Ty) :=
  match s.frames[addr.frameIndex]? with
  | none => .error .panicked
  | some frame =>
    if s.stack.length < frame.base.stack then .error .panicked else
    let filtering := s.setMode (.filtering
      { exception := exception
        handler := addr
        originalIp := frame.ip
        originalStackHeight := frame.base.stack + frame.stackHeight })
    let suspended := filtering.suspendAbove frame.base.stack addr.frameIndex
    let entered := suspended.modifyFrame addr.frameIndex fun f =>
      { f with
        ip := clauseOffset
        stackHeight := 0
        exceptionStack := exception :: f.exceptionStack }
    .ok (.exception, ({ entered with
      originalIp := frame.ip
      originalStackHeight := frame.stackHeight }).push (.objectRef exception))

def unwindToHandler : UnwindState where
  exception := some exception
  target := .handler addr
  cursor := .startOf (s.frames.length - 1)
  nestedFilter := none

end

def searchForHandler (host : Host Ty) (s : ThreadContext Ty) (state : SearchState) :
    Except Stop (Signal × ThreadContext Ty) :=
  match stopFrame state with
  | .error e => .error e
  | .ok stop =>
    match searchFrames host s.frames state.exception state.cursor stop state.cursor.frameIndex with
    | .error e => .error e
    | .ok (some (.accepted addr)) =>
      .ok (.exception, s.setMode (.unwinding (unwindToHandler s state.exception addr)))
    | .ok (some (.filter addr clauseOffset)) => enterFilter s state.exception addr clauseOffset
    | .ok none =>
      match state.nestedFilter with
      | some nested =>
        .ok (.exception, s.setMode (.unwinding
          { exception := some state.exception
            target := .instruction usizeMax
            cursor := .startOf (s.frames.length - 1)
            nestedFilter := some nested }))
      | none => .error (.methodThrew state.exception)

end DotnetVm
