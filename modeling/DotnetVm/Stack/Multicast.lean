import DotnetVm.Exceptions.NestedFilters
import DotnetVm.Stack.TailFrames

/-!
# Multicast delegates

The invocation of a multicast delegate has a frame of its own, without a body. Each
step of the dispatch loop at that frame drops the result of the previous target,
pushes the next target and the retained arguments and calls it; the return of the
target leads back to the frame. When all targets have had their turn the frame returns
what the last of them left. The turn is counted before the target is called, so one
that yields, or whose type first runs its initializer, is not called any more.
-/

namespace DotnetVm

open List

variable {Ty : Type}

/-- The `Invoke` method of a delegate type, for calls with these arguments. It has no body. -/
structure InvokeInfo (info : MethodInfo Ty) (args : List StackValue) : Prop where
  isInstance : info.isInstance = true
  parameters : info.parameters = args.length
  locals : info.locals = []
  parentIsValueType : info.parentIsValueType = false
  isCctor : info.isCctor = false
  returnType : info.returnType ≠ .typedReference

def invokeDelegate (s : ThreadContext Ty) (info : MethodInfo Ty) (targets : List ObjectRef) :
    Except Stop (ThreadContext Ty) :=
  callWith s info (some ⟨targets, 0, s.stack.drop (s.stack.length - info.parameters)⟩) none

/-- What `handle_multicast_step` comes to: the next target and its arguments are on the stack, so
many operands, or all targets have been called. -/
inductive MulticastTurn (Ty : Type) where
  | call (s : ThreadContext Ty) (count : Nat)
  | finished (s : ThreadContext Ty)

section

variable (s : ThreadContext Ty) (frame : StackFrame Ty) (state : MulticastState)

def multicastTurn : Except Stop (MulticastTurn Ty) :=
  match discardResult s frame state with
  | .error e => .error e
  | .ok s =>
    match state.targets[state.nextIndex]? with
    | some target => .ok (.call (invokeNext s state target) (state.args.length + 1))
    | none => .ok (.finished s)

/-- The step of the machine dispatches the prepared call, or returns. -/
lemma multicastStep_eq (e : Effects Ty) :
    multicastStep s frame state e =
      match multicastTurn s frame state with
      | .error err => .error err
      | .ok (.call t _) => runOp t frame e
      | .ok (.finished t) => handleReturn t e.returned := by
  unfold multicastStep multicastTurn
  cases discardResult s frame state with
  | error err => rfl
  | ok t =>
    cases state.targets[state.nextIndex]? <;> rfl

end

structure TargetReturn (Ty : Type) where
  frame : StackFrame Ty
  slots : List StackValue

/-- How the dispatch of a target comes back to the frame of the invocation: by the return of the
target's frame, at once from an intrinsic, or without a call. The last is a yield, or the return of
a type initializer that had to run first; `slots` is what then stands in place of the operands. -/
inductive TargetOutcome (Ty : Type) where
  | returned (r : TargetReturn Ty) (result : Option StackValue)
  | answered (result : Option StackValue)
  | deferred (slots : List StackValue)

def TargetOutcome.isCall : TargetOutcome Ty → Bool
  | .deferred _ => false
  | _ => true

def TargetOutcome.result : TargetOutcome Ty → Option StackValue
  | .returned _ result | .answered result => result
  | .deferred _ => none

section

variable (s : ThreadContext Ty) (count : Nat)

def atReturn (r : TargetReturn Ty) : ThreadContext Ty :=
  { s with
    stack := s.stack.take (s.stack.length - count) ++ r.slots
    frames := modifyCurrent s.frames (fun f => { f with stackHeight := f.stackHeight - count }) ++
      [r.frame] }

/-- The operands of the call are replaced without a frame. -/
def resumed (slots : List StackValue) : ThreadContext Ty :=
  { s with
    stack := s.stack.take (s.stack.length - count) ++ slots
    frames := modifyCurrent s.frames
      fun f => { f with stackHeight := f.stackHeight - count + slots.length } }

def comeBack (data : ReturnData) : TargetOutcome Ty → Except Stop (ThreadContext Ty)
  | .returned r _ => handleReturn (atReturn s count r) data
  | .answered result => .ok (resumed s count result.toList)
  | .deferred slots => .ok (resumed s count slots)

end

structure TargetReturn.Returns (r : TargetReturn Ty) (base : Nat) (result : Option StackValue) :
    Prop where
  arguments : r.frame.base.arguments = base
  isCctor : r.frame.info.isCctor = false
  isFinalizer : r.frame.isFinalizer = false
  constructorResult : r.frame.constructorResult = none
  value : match result with
    | none => r.frame.info.returnType = .void
    | some v => r.frame.info.returnType = .value ∧ r.slots.getLast? = some v ∧
        r.frame.base.stack + r.frame.stackHeight = base + r.slots.length

def currentTurn (s : ThreadContext Ty) : Except Stop (MulticastTurn Ty) :=
  match s.frames.getLast? with
  | none => .error .panicked
  | some frame =>
    match frame.multicastState with
    | none => .error .panicked
    | some state => multicastTurn s frame state

/-- A dispatch that only rearranges the operands and yields is a step of the machine. -/
lemma stepNormal_deferred {s t : ThreadContext Ty} {count : Nat} {e : Effects Ty}
    {slots : List StackValue} (hturn : currentTurn s = .ok (.call t count))
    (hops : applyOps t e.ops = .ok (resumed t count slots)) (hspin : e.result = .spin) :
    stepNormal s e = comeBack t count e.returned (.deferred slots) := by
  unfold currentTurn at hturn
  unfold stepNormal
  split at hturn
  · cases hturn
  next frame hframe =>
    split at hturn
    · cases hturn
    next state hstate =>
      simp only [hframe, hstate, multicastStep_eq, hturn, runOp, hops, hspin]
      rfl

/-- The operands of the targets that are called, and what the invocation comes to. -/
def multicastRun (data : ReturnData) : List (TargetOutcome Ty) → ThreadContext Ty →
    Except Stop (List (List StackValue) × ThreadContext Ty)
  | [], s =>
    match currentTurn s with
    | .ok (.finished t) => (handleReturn t data).map ([], ·)
    | .ok (.call _ _) => .error .panicked
    | .error e => .error e
  | o :: os, s =>
    match currentTurn s with
    | .ok (.call t count) =>
      match comeBack t count data o with
      | .error e => .error e
      | .ok t' => (multicastRun data os t').map fun p =>
          (if o.isCall then t.stack.drop (t.stack.length - count) :: p.1 else p.1, p.2)
    | .ok (.finished _) => .error .panicked
    | .error e => .error e

lemma length_of_multicastRun {data : ReturnData} {os : List (TargetOutcome Ty)}
    {s t : ThreadContext Ty} {calls : List (List StackValue)}
    (h : multicastRun data os s = .ok (calls, t)) :
    calls.length = os.countP TargetOutcome.isCall := by
  induction os generalizing s calls with
  | nil =>
    rw [multicastRun] at h
    split at h
    · cases hret : handleReturn _ data <;> rw [hret] at h <;> cases h
      rfl
    · cases h
    · cases h
  | cons o os ih =>
    rw [multicastRun] at h
    split at h
    · split at h
      · cases h
      next t' _ =>
        cases hrest : multicastRun data os t' with
        | error e => rw [hrest] at h; cases h
        | ok p =>
          rw [hrest] at h
          cases h
          cases hcall : o.isCall <;> simp [hcall, ih hrest]
    · cases h
    · cases h

lemma handleReturn_plain {s : ThreadContext Ty} {low : List (StackFrame Ty)} {c f : StackFrame Ty}
    {value : Option StackValue} (data : ReturnData) (hs : s.frames = low ++ [c] ++ [f])
    (hcc : f.info.isCctor = false) (hfin : f.isFinalizer = false)
    (hctor : f.constructorResult = none) (htyped : f.info.returnType ≠ .typedReference)
    (hval : returnValue s f = .ok value) (hc : c.frameContinuation = none) :
    handleReturn s data = continueBelow data (low.length + 1) { s with
      stack := s.stack.take f.base.arguments ++ value.toList
      frames := low ++ [{ c with stackHeight := c.stackHeight + value.toList.length }] } := by
  have hfs : ({ s with frames := low ++ [c] }.truncate f.base.arguments).frames = low ++ [c] :=
    rfl
  have hpush := pushOption_concat hfs value
  have hcur :
      (pushOption ({ s with frames := low ++ [c] }.truncate f.base.arguments) value).frames =
        low ++ [{ c with stackHeight := c.stackHeight + value.toList.length }] := by rw [hpush]
  rw [handleReturn_value data hs hcc hfin hctor htyped hval,
    applyReturnAction_plain hcur hc, hpush]
  simp [ThreadContext.truncate]

section Targets

variable (s : ThreadContext Ty) (info : MethodInfo Ty) (targets : List ObjectRef)
  (slots args : List StackValue)

def multicastFrame (i height : Nat) : StackFrame Ty :=
  { StackFrame.new ⟨slots.length - (args.length + 1), slots.length, slots.length⟩ info with
    multicastState := some ⟨targets, i, args⟩
    stackHeight := height }

def during (i : Nat) (result : Option StackValue) : ThreadContext Ty :=
  { s with
    stack := slots ++ result.toList
    frames := s.frames ++ [multicastFrame info targets slots args i result.toList.length] }

/-- The thread when the target after `i` others is called. -/
def calling (i : Nat) (target : ObjectRef) : ThreadContext Ty :=
  { s with
    stack := slots ++ .objectRef target :: args
    frames := s.frames ++ [multicastFrame info targets slots args (i + 1) (args.length + 1)] }

variable {s info targets slots args} {i : Nat} {result : Option StackValue}

lemma discardResult_during (hi : i < targets.length)
    (hval : result.isSome = true → info.returnType ≠ .void) :
    discardResult (during s info targets slots args i result)
        (multicastFrame info targets slots args i result.toList.length) ⟨targets, i, args⟩ =
      .ok (during s info targets slots args i none) := by
  cases result with
  | none => simp [discardResult, multicastFrame]
  | some v =>
    have hne : info.returnType ≠ .void := hval rfl
    simp [discardResult, multicastFrame, StackFrame.new, hi, hne, ThreadContext.popSafe,
      ThreadContext.onPopSafe, during]

lemma currentTurn_during (hval : result.isSome = true → info.returnType ≠ .void) :
    currentTurn (during s info targets slots args i result) =
      match targets[i]? with
      | some target => .ok (.call (calling s info targets slots args i target) (args.length + 1))
      | none => .ok (.finished (during s info targets slots args i result)) := by
  have hturn : currentTurn (during s info targets slots args i result) =
      multicastTurn (during s info targets slots args i result)
        (multicastFrame info targets slots args i result.toList.length) ⟨targets, i, args⟩ := by
    rw [currentTurn, show (during s info targets slots args i result).frames.getLast? =
      some (multicastFrame info targets slots args i result.toList.length) from
        getLast?_concat ..]
    rfl
  rw [hturn]
  unfold multicastTurn
  cases htgt : targets[i]? with
  | some target =>
    have hi : i < targets.length := (List.getElem?_eq_some_iff.mp htgt).1
    have hfs : (during s info targets slots args i none).frames =
        s.frames ++ [multicastFrame info targets slots args i 0] := rfl
    rw [discardResult_during hi hval]
    dsimp only
    rw [invokeNext_concat hfs]
    simp [calling, during, multicastFrame]
  | none =>
    have hi : ¬i < targets.length := by simpa using htgt
    simp [discardResult, hi]

variable {target : ObjectRef} {data : ReturnData}

lemma handleReturn_target {r : TargetReturn Ty} (hr : r.Returns slots.length result) :
    handleReturn (atReturn (calling s info targets slots args i target) (args.length + 1) r) data =
      .ok (during s info targets slots args (i + 1) result) := by
  have hstk : (atReturn (calling s info targets slots args i target) (args.length + 1) r).stack =
      slots ++ r.slots := by
    simp [atReturn, calling]
  have hfs : (atReturn (calling s info targets slots args i target) (args.length + 1) r).frames =
      s.frames ++ [multicastFrame info targets slots args (i + 1) 0] ++ [r.frame] := by
    simp [atReturn, calling, multicastFrame]
  have hval : returnValue (atReturn (calling s info targets slots args i target)
      (args.length + 1) r) r.frame = .ok result ∧ r.frame.info.returnType ≠ .typedReference := by
    have hr := hr.value
    cases result with
    | none => simp [returnValue, hr]
    | some v =>
      obtain ⟨hkind, hlast, htop⟩ := hr
      obtain ⟨front, hfront⟩ : ∃ front, r.slots = front ++ [v] :=
        getLast?_eq_some_iff.mp hlast
      simp [returnValue, hkind, htop, hstk, hfront]
  rw [handleReturn_plain data hfs hr.isCctor hr.isFinalizer hr.constructorResult hval.2
    hval.1 rfl, hr.arguments]
  simp [continueBelow, during, multicastFrame, atReturn, calling]

/-- A target that is called returns a value exactly if the delegate does. -/
def TargetOutcome.Fits (info : MethodInfo Ty) (base : Nat) : TargetOutcome Ty → Prop
  | .returned r result => r.Returns base result ∧ (result.isSome = true ↔ info.returnType ≠ .void)
  | .answered result => result.isSome = true ↔ info.returnType ≠ .void
  | .deferred _ => True

lemma TargetOutcome.Fits.shape {base : Nat} {o : TargetOutcome Ty} (h : o.Fits info base)
    (hcall : o.isCall = true) : o.result.isSome = true ↔ info.returnType ≠ .void := by
  cases o with
  | returned r result => exact h.2
  | answered result => exact h
  | deferred slots => cases hcall

lemma comeBack_call {o : TargetOutcome Ty} (h : o.Fits info slots.length)
    (hcall : o.isCall = true) :
    comeBack (calling s info targets slots args i target) (args.length + 1) data o =
      .ok (during s info targets slots args (i + 1) o.result) := by
  cases o with
  | returned r result => exact handleReturn_target h.1
  | answered result =>
    simp [comeBack, resumed, calling, during, multicastFrame, TargetOutcome.result]
  | deferred slots => cases hcall

lemma multicastRun_call {o : TargetOutcome Ty} {os : List (TargetOutcome Ty)}
    (hval : result.isSome = true → info.returnType ≠ .void) (htgt : targets[i]? = some target)
    (h : o.Fits info slots.length) (hcall : o.isCall = true) :
    multicastRun data (o :: os) (during s info targets slots args i result) =
      (multicastRun data os (during s info targets slots args (i + 1) o.result)).map fun p =>
        ((.objectRef target :: args) :: p.1, p.2) := by
  have hoperands : (calling s info targets slots args i target).stack.drop
      ((calling s info targets slots args i target).stack.length - (args.length + 1)) =
        .objectRef target :: args := by
    simp [calling]
  rw [multicastRun, currentTurn_during hval, htgt]
  dsimp only
  rw [comeBack_call h hcall, hoperands, hcall]
  rfl

variable {low : List (StackFrame Ty)} {caller : StackFrame Ty}

lemma multicastRun_return (hinfo : InvokeInfo info args) (hs : s.frames = low ++ [caller])
    (hclr : caller.frameContinuation = none) (hdone : targets[i]? = none)
    (hval : result.isSome = true ↔ info.returnType ≠ .void) :
    multicastRun data [] (during s info targets slots args i result) =
      (continueBelow data (low.length + 1) { s with
        stack := slots.take (slots.length - (args.length + 1)) ++ result.toList
        frames := low ++ [{ caller with
          stackHeight := caller.stackHeight + result.toList.length }] }).map ([], ·) := by
  have hfs : (during s info targets slots args i result).frames = low ++ [caller] ++
      [multicastFrame info targets slots args i result.toList.length] := by
    rw [← hs]
    rfl
  have hreturned : returnValue (during s info targets slots args i result)
      (multicastFrame info targets slots args i result.toList.length) = .ok result := by
    cases result with
    | none =>
      have hvoid : info.returnType = .void := by simpa using hval
      simp [returnValue, multicastFrame, StackFrame.new, hvoid]
    | some v =>
      have hkind : info.returnType = .value := by
        cases hret : info.returnType with
        | void => exact absurd hret (hval.mp rfl)
        | value => rfl
        | typedReference => exact absurd hret hinfo.returnType
      simp [returnValue, multicastFrame, StackFrame.new, hkind, during]
  have hcut : (slots ++ result.toList).take (slots.length - (args.length + 1)) =
      slots.take (slots.length - (args.length + 1)) :=
    take_append_of_le_length (Nat.sub_le ..)
  rw [multicastRun, currentTurn_during hval.mp, hdone]
  dsimp only
  rw [handleReturn_plain data hfs hinfo.isCctor rfl rfl hinfo.returnType hreturned hclr]
  simp [during, multicastFrame, StackFrame.new, hcut]

def lastResult : Option StackValue → List (TargetOutcome Ty) → Option StackValue
  | result, [] => result
  | _, o :: os => lastResult o.result os

lemma lastResult_concat (result : Option StackValue) (os : List (TargetOutcome Ty))
    (o : TargetOutcome Ty) : lastResult result (os ++ [o]) = o.result := by
  induction os generalizing result with
  | nil => rfl
  | cons o' os ih => exact ih o'.result

/-- The caller of the invocation when it has returned. -/
def returned (s : ThreadContext Ty) (low : List (StackFrame Ty)) (caller : StackFrame Ty)
    (below : List StackValue) (result : Option StackValue) : ThreadContext Ty :=
  { s with
    stack := below ++ result.toList
    frames := low ++ [{ caller with stackHeight := caller.stackHeight + result.toList.length }] }

lemma multicastRun_during (hinfo : InvokeInfo info args) (hs : s.frames = low ++ [caller])
    (hclr : caller.frameContinuation = none) {os : List (TargetOutcome Ty)}
    (hos : ∀ o ∈ os, o.Fits info slots.length ∧ o.isCall = true)
    (hlen : i + os.length = targets.length)
    (hlast : (lastResult result os).isSome = true ↔ info.returnType ≠ .void)
    (hval : result.isSome = true → info.returnType ≠ .void) :
    multicastRun data os (during s info targets slots args i result) =
      (continueBelow data (low.length + 1) (returned s low caller
        (slots.take (slots.length - (args.length + 1))) (lastResult result os))).map
        ((targets.drop i).map fun target => .objectRef target :: args, ·) := by
  induction os generalizing i result with
  | nil =>
    have hdone : targets.length ≤ i := by simpa using hlen.ge
    have hret : result.isSome = true ↔ info.returnType ≠ .void := hlast
    rw [multicastRun_return hinfo hs hclr (getElem?_eq_none hdone) hret,
      drop_eq_nil_of_le hdone]
    rfl
  | cons o os ih =>
    obtain ⟨⟨hfits, hcall⟩, hos⟩ := forall_mem_cons.mp hos
    rw [length_cons] at hlen
    have hi : i < targets.length := by omega
    have hrest := ih (i := i + 1) hos (by omega) hlast (hfits.shape hcall).mp
    rw [multicastRun_call hval (getElem?_eq_getElem hi) hfits hcall, hrest,
      drop_eq_getElem_cons hi, lastResult]
    cases continueBelow data (low.length + 1) (returned s low caller
      (slots.take (slots.length - (args.length + 1))) (lastResult o.result os)) <;> rfl

end Targets

section Invocation

variable {s : ThreadContext Ty} {info : MethodInfo Ty} {delegate : ObjectRef}
  {targets : List ObjectRef} {below args : List StackValue} {low : List (StackFrame Ty)}
  {caller : StackFrame Ty}

lemma invokeDelegate_eq (hinfo : InvokeInfo info args) (hs : s.frames = low ++ [caller])
    (hstack : s.stack = below ++ .objectRef delegate :: args)
    (hheight : args.length + 1 ≤ caller.stackHeight) :
    invokeDelegate s info targets = .ok (during
      { s with frames := low ++ [{ caller with
        stackHeight := caller.stackHeight - (args.length + 1) }] } info targets s.stack args 0
      none) := by
  have hspl : s.stack = below ++ [.objectRef delegate] ++ args := by simp [hstack]
  have hretained : s.stack.drop (s.stack.length - info.parameters) = args := by
    rw [hinfo.parameters, hspl, length_append, Nat.add_sub_cancel, drop_left]
  have hcnt : info.argumentCount = args.length + 1 := by
    simp [MethodInfo.argumentCount, hinfo.isInstance, hinfo.parameters, add_comm]
  have hbel : s.stack.length - (args.length + 1) = below.length := by simp [hstack]
  have henough : ¬s.stack.length < args.length + 1 := by
    rw [hstack, length_append, length_cons]
    omega
  have hthis : s.stack[below.length]? = some (.objectRef delegate) := by simp [hstack]
  have hcall : callFrame s info = .ok { s with
      frames := low ++ [{ caller with stackHeight := caller.stackHeight - (args.length + 1) }] ++
        [.new ⟨below.length, s.stack.length, s.stack.length⟩ info] } := by
    simp [callFrame, hcnt, henough, hinfo.locals, canonicalizeThis, hinfo.isInstance, hbel,
      hthis, hinfo.parentIsValueType, consumeArguments, hs, not_lt.mpr hheight]
  rw [invokeDelegate, callWith, hcall]
  simp only [modifyCurrent_concat, hretained]
  simp [during, multicastFrame, StackFrame.new, hbel]

end Invocation

def sampleInvoke : MethodInfo Unit where
  instructions := []
  isInstance := true
  parameters := 1
  returnType := .value

/-- A target about to return a number. -/
def sampleReturn (n : Nat) : TargetOutcome Unit :=
  .returned ⟨{ StackFrame.new ⟨3, 5, 5⟩ sampleInvoke with stackHeight := 1 },
    [.objectRef (some 7), .other 1, .other n]⟩ (some (.other n))

def sampleFrame : StackFrame Unit :=
  { StackFrame.new ⟨0, 0, 0⟩ ⟨[.op, .ret], [], false, 0, [], .void, false, false, false⟩ with
    stackHeight := 3 }

def sampleCaller : ThreadContext Unit :=
  ⟨[.other 5, .objectRef (some 7), .other 1], [], [sampleFrame], [], .none, .none, 0, 0, false⟩

def sampleInitializer : MethodInfo Unit where
  instructions := [.ret]
  isCctor := true

def sampleLowered : ThreadContext Unit :=
  { sampleCaller with frames := [{ sampleFrame with stackHeight := 1 }] }

def sampleInvocation : ThreadContext Unit :=
  during sampleLowered sampleInvoke [some 8, some 9] sampleCaller.stack [.other 1] 0 none

def sampleCalling : ThreadContext Unit :=
  calling sampleLowered sampleInvoke [some 8, some 9] sampleCaller.stack [.other 1] 0 (some 8)

end DotnetVm
