import DotnetVm.Exceptions.Search

/-!
# The second pass: unwinding to a handler or to an instruction

`unwind` walks the frames from the cursor down to the target frame, running the
finally and fault handlers of the sections being exited one at a time. The walk
is a function of its own, so that what it met (a handler to run, a wrapped
type-initializer failure, the target) can be looked at apart from how the
engine continues.
-/

namespace DotnetVm

variable {Ty : Type}

def HandlerKind.isCatchOrFilter : HandlerKind Ty → Bool
  | .catchClause _ | .filterClause _ => true
  | _ => false

def HandlerKind.shouldRun (exception : Option ObjectRef) : HandlerKind Ty → Bool
  | .finallyClause => true
  | .faultClause => exception.isSome
  | _ => false

def isExitingSection (p : ProtectedSection Ty) (ip : Nat) : UnwindTarget → Bool
  | .handler _ => p.instructions.contains ip
  | .instruction targetIp =>
    if p.handlers.any fun h => h.instructions.contains ip && h.instructions.contains targetIp then
      false
    else
      (p.instructions.contains ip || p.handlers.any fun h => h.instructions.contains ip) &&
        !p.instructions.contains targetIp

/-- A finally or fault handler the walk has to run, and where the walk resumes after it. -/
structure CleanupEntry (Ty : Type) where
  addr : HandlerAddress
  handler : Handler Ty
  next : HandlerAddress

def unwindHandlers (exception : Option ObjectRef) (ip : Nat) :
    Nat → List (Handler Ty) → List ObjectRef → List ObjectRef × Option (Nat × Handler Ty)
  | _, [], es => (es, none)
  | handlerIndex, h :: hs, es =>
    if h.instructions.contains ip then
      unwindHandlers exception ip (handlerIndex + 1) hs
        (if h.kind.isCatchOrFilter then es.tail else es)
    else if h.kind.shouldRun exception then (es, some (handlerIndex, h))
    else unwindHandlers exception ip (handlerIndex + 1) hs es

def stopsBefore (target : UnwindTarget) (frameIndex sectionIndex : Nat) : Bool :=
  match target with
  | .handler h => frameIndex == h.frameIndex && decide (h.sectionIndex ≤ sectionIndex)
  | .instruction _ => false

def resumeAfter (addr : HandlerAddress) (count : Nat) : HandlerAddress :=
  if addr.handlerIndex + 1 < count then addr.nextHandler
  else ⟨addr.frameIndex, addr.sectionIndex + 1, 0⟩

def unwindSections (u : UnwindState) (frameIndex ip : Nat) :
    Nat → List (ProtectedSection Ty) → List ObjectRef → List ObjectRef × Option (CleanupEntry Ty)
  | _, [], es => (es, none)
  | sectionIndex, p :: ps, es =>
    if stopsBefore u.target frameIndex sectionIndex then (es, none)
    else if isExitingSection p ip u.target then
      let start := handlerStart u.cursor frameIndex sectionIndex
      match unwindHandlers u.exception ip start (p.handlers.drop start) es with
      | (es, some (handlerIndex, h)) =>
        let addr : HandlerAddress := ⟨frameIndex, sectionIndex, handlerIndex⟩
        (es, some ⟨addr, h, resumeAfter addr p.handlers.length⟩)
      | (es, none) => unwindSections u frameIndex ip (sectionIndex + 1) ps es
    else unwindSections u frameIndex ip (sectionIndex + 1) ps es

/-- One frame of the second pass. -/
def unwindInFrame (u : UnwindState) (frameIndex : Nat) (s : ThreadContext Ty) :
    Except Stop (ThreadContext Ty × Option (CleanupEntry Ty)) :=
  match s.frames[frameIndex]? with
  | none => .error .panicked
  | some frame =>
    let start := sectionStart u.cursor frameIndex
    let (es, entry) := unwindSections u frameIndex frame.ip start
      (frame.info.exceptions.drop start) frame.exceptionStack
    .ok (s.modifyFrame frameIndex fun f => { f with exceptionStack := es }, entry)

/-- The exception a mode carries. -/
def ExceptionState.currentException : ExceptionState → Option ObjectRef
  | .throwing exception _ => some exception
  | .searching state => some state.exception
  | .unwinding state => state.exception
  | .executingHandler state => state.exception
  | .filtering state => some state.exception
  | .none => Option.none

def unwindFrame (s : ThreadContext Ty) (typeInitializationException : Option ObjectRef) :
    Except Stop (ThreadContext Ty) :=
  match s.frames.getLast? with
  | none => .error .panicked
  | some frame =>
    let mode :=
      if frame.info.isCctor then
        match s.exceptionMode.currentException, typeInitializationException with
        | some _, some wrapped => .throwing wrapped false
        | _, _ => s.exceptionMode
      else s.exceptionMode
    .ok ({ s with
      frames := s.frames.dropLast
      exceptionMode := mode
      processingFinalizer := s.processingFinalizer && !frame.isFinalizer }.truncate
        frame.base.arguments)

/-- What the walk of an unwind met. -/
inductive UnwindOutcome (Ty : Type) where
  | entered (s : ThreadContext Ty) (entry : CleanupEntry Ty)
  | raised (s : ThreadContext Ty)
  | arrived (s : ThreadContext Ty)

/-- The frame an unwind ends in. -/
def UnwindState.targetFrame (u : UnwindState) : Nat :=
  match u.target with
  | .handler h => h.frameIndex
  | .instruction _ =>
    match u.nestedFilter with
    | some nested => nested.handler.frameIndex
    | none => u.cursor.frameIndex

def unwindFrames (u : UnwindState) (typeInit : Option ObjectRef) :
    Nat → ThreadContext Ty → Except Stop (UnwindOutcome Ty)
  | 0, s =>
    match unwindInFrame u 0 s with
    | .error e => .error e
    | .ok (s, some entry) => .ok (.entered s entry)
    | .ok (s, none) => .ok (.arrived s)
  | frameIndex + 1, s =>
    match unwindInFrame u (frameIndex + 1) s with
    | .error e => .error e
    | .ok (s, some entry) => .ok (.entered s entry)
    | .ok (s, none) =>
      if u.targetFrame < frameIndex + 1 then
        match unwindFrame s typeInit with
        | .error e => .error e
        | .ok s =>
          match s.exceptionMode with
          | .throwing _ _ => .ok (.raised s)
          | _ => unwindFrames u typeInit frameIndex s
      else .ok (.arrived s)

def unwindWalk (u : UnwindState) (typeInit : Option ObjectRef) (s : ThreadContext Ty) :
    Except Stop (UnwindOutcome Ty) :=
  if u.cursor.frameIndex < u.targetFrame then .ok (.arrived s)
  else unwindFrames u typeInit u.cursor.frameIndex s

def enterCleanup (u : UnwindState) (s : ThreadContext Ty) (entry : CleanupEntry Ty) :
    ThreadContext Ty :=
  (s.setMode (.executingHandler { u with cursor := entry.next })).modifyFrame
    entry.addr.frameIndex fun f =>
      { f with ip := entry.handler.instructions.start, stackHeight := 0 }

section

variable (s : ThreadContext Ty)

def completeNestedFilterUnwind (nested : FilterState) : Except Stop (Signal × ThreadContext Ty) :=
  let restored := s.restoreSuspended
  if nested.handler.frameIndex < restored.frames.length then
    .ok (.exception, (restored.modifyFrame nested.handler.frameIndex fun f =>
      { f with
        ip := nested.originalIp
        stackHeight := nested.originalStackHeight - f.base.stack
        exceptionStack := f.exceptionStack.tail }).setMode (.searching
          { exception := nested.exception
            cursor := nested.handler.nextHandler
            nestedFilter := none }))
  else .error .panicked

def enterHandler (exception : Option ObjectRef) (addr : HandlerAddress) :
    Except Stop (Signal × ThreadContext Ty) :=
  match s.frames[addr.frameIndex]? with
  | none => .error .panicked
  | some frame =>
    match frame.info.exceptions[addr.sectionIndex]? with
    | none => .error .panicked
    | some p =>
      match p.handlers[addr.handlerIndex]?, exception with
      | some h, some x =>
        .ok (.exception, ((s.setMode .none).modifyFrame addr.frameIndex fun f =>
          { f with
            ip := h.instructions.start
            stackHeight := 0
            exceptionStack := x :: f.exceptionStack }).truncate frame.base.stack |>.push
              (.objectRef x))
      | _, _ => .error .panicked

def arriveAt (frameIndex ip : Nat) : Except Stop (Signal × ThreadContext Ty) :=
  if frameIndex < s.frames.length then
    let mode := match s.continuation.popHandlerUnwind.1 with
      | some state => .executingHandler state
      | none => .none
    .ok (.exception, { s with
      exceptionMode := mode
      continuation := s.continuation.popHandlerUnwind.2 }.modifyFrame frameIndex fun f =>
        { f with ip := ip, stackHeight := 0 })
  else .error .panicked

def unwind (u : UnwindState) (typeInit : Option ObjectRef) :
    Except Stop (Signal × ThreadContext Ty) :=
  match unwindWalk u typeInit s with
  | .error e => .error e
  | .ok (.entered s entry) => .ok (.exception, enterCleanup u s entry)
  | .ok (.raised s) => .ok (.exception, s)
  | .ok (.arrived s) =>
    match u.target with
    | .handler addr => enterHandler s u.exception addr
    | .instruction ip =>
      if ip = usizeMax then
        match u.nestedFilter with
        | some nested => completeNestedFilterUnwind s nested
        | none => .ok (.returnFrame, s.setMode .none)
      else arriveAt s u.targetFrame ip

end

def handleException (host : Host Ty) (s : ThreadContext Ty) (typeInit : Option ObjectRef) :
    Except Stop (Signal × ThreadContext Ty) :=
  match s.exceptionMode with
  | .throwing exception _ => beginThrowing host s exception
  | .searching state => searchForHandler host s state
  | .unwinding state => unwind s state typeInit
  | .none | .filtering _ | .executingHandler _ => .ok (.exception, s)

end DotnetVm
