import DotnetVm.Stack.Tiling

/-!
# The frames of a tail call

A tail call replaces the frame of the caller by that of the callee; an ordinary
call puts the callee on top of it and passes its result on through the caller's
`ret`. The two contexts are set side by side at the call, where the callee gets
the same slots, and at the return, where the frames below get the same result.
-/

namespace DotnetVm

open List

section

variable {Ty : Type} {s s₁ s₂ : ThreadContext Ty} {low init : List (StackFrame Ty)}
  {f g caller callee : StackFrame Ty} {info : MethodInfo Ty} {args : List StackValue}
  {lower own top : List StackValue}

def canonicalArguments (info : MethodInfo Ty) (args : List StackValue) :
    Except Stop (List StackValue) :=
  match info.isInstance, args with
  | true, [] => .error .panicked
  | true, .objectRef o :: rest =>
    if info.parentIsValueType then
      match o with
      | none => .error .panicked
      | some obj => .ok (.managedPtr obj :: rest)
    else .ok args
  | _, _ => .ok args

lemma canonicalizeThis_append (lower args top : List StackValue)
    (hs : s.stack = lower ++ args ++ top) (hargs : info.isInstance = true → args ≠ []) :
    canonicalizeThis s info lower.length = match canonicalArguments info args with
      | .error e => .error e
      | .ok args' => .ok { s with stack := lower ++ args' ++ top } := by
  unfold canonicalizeThis canonicalArguments
  cases hi : info.isInstance with
  | false => simp [← hs]
  | true =>
    cases args with
    | nil => exact absurd rfl (hargs hi)
    | cons v rest =>
      have hget : s.stack[lower.length]? = some v := by simp [hs]
      simp only [hget]
      cases v with
      | objectRef o =>
        dsimp only
        split
        · cases o with
          | none => rfl
          | some obj => simp [hs]
        · simp [← hs]
      | int32 _ => simp [← hs]
      | managedPtr _ => simp [← hs]
      | other _ => simp [← hs]

def frameAt (info : MethodInfo Ty) (start : Nat) : StackFrame Ty :=
  .new ⟨start, start + info.argumentCount, start + info.argumentCount + info.locals.length⟩ info

lemma callFrame_append (hs : s.stack = lower ++ args) (hlen : args.length = info.argumentCount) :
    callFrame s info = match canonicalArguments info args with
      | .error e => .error e
      | .ok args' =>
        match consumeArguments { s with stack := lower ++ args' ++ info.locals }
            info.argumentCount with
        | .error e => .error e
        | .ok t => .ok { t with frames := t.frames ++ [frameAt info lower.length] } := by
  have hstk : s.stack.length = lower.length + info.argumentCount := by simp [hs, hlen]
  have hthis : info.isInstance = true → args ≠ [] := by
    rintro hi rfl
    simp [MethodInfo.argumentCount, hi] at hlen
    omega
  unfold callFrame
  simp only [hstk, if_neg (show ¬ lower.length + info.argumentCount < info.argumentCount by omega),
    Nat.add_sub_cancel]
  rw [canonicalizeThis_append lower args info.locals (by simp [hs]) hthis]
  cases canonicalArguments info args with
  | error e => rfl
  | ok args' => rfl

lemma callFrame_concat (hfs : s.frames = low ++ [f]) (hs : s.stack = lower ++ args)
    (hlen : args.length = info.argumentCount) (hht : info.argumentCount ≤ f.stackHeight) :
    callFrame s info = match canonicalArguments info args with
      | .error e => .error e
      | .ok args' => .ok { s with
          stack := lower ++ args' ++ info.locals
          frames := low ++ [{ f with stackHeight := f.stackHeight - info.argumentCount }] ++
            [frameAt info lower.length] } := by
  rw [callFrame_append hs hlen]
  cases canonicalArguments info args with
  | error e => rfl
  | ok args' =>
    simp [consumeArguments, hfs, not_lt.mpr hht]

lemma callFrame_nil (hfs : s.frames = []) (hs : s.stack = lower ++ args)
    (hlen : args.length = info.argumentCount) :
    callFrame s info = match canonicalArguments info args with
      | .error e => .error e
      | .ok args' => .ok { s with
          stack := lower ++ args' ++ info.locals
          frames := [frameAt info lower.length] } := by
  rw [callFrame_append hs hlen]
  cases canonicalArguments info args with
  | error e => rfl
  | ok args' => simp [consumeArguments, hfs]

section

variable (s : ThreadContext Ty) (vs : List StackValue)

lemma pushAll_stack : (pushAll s vs).stack = s.stack ++ vs := by
  rcases eq_nil_or_concat' s.frames with hnil | ⟨init, f, hs⟩
  · rw [pushAll_nil hnil]
  · rw [pushAll_concat hs]

lemma length_pushAll_frames : (pushAll s vs).frames.length = s.frames.length := by
  rcases eq_nil_or_concat' s.frames with hnil | ⟨init, f, hs⟩
  · rw [pushAll_nil hnil]
  · rw [pushAll_concat hs, hs, length_append, length_append]
    rfl

end

lemma callFrame_pushAll (hlen : args.length = info.argumentCount) :
    callFrame (pushAll s args) info = match canonicalArguments info args with
      | .error e => .error e
      | .ok args' => .ok { s with
          stack := s.stack ++ args' ++ info.locals
          frames := s.frames ++ [frameAt info s.stack.length] } := by
  rcases eq_nil_or_concat' s.frames with hnil | ⟨init, f, hs⟩
  · rw [pushAll_nil hnil, callFrame_nil (s := { s with stack := s.stack ++ args })
      hnil rfl hlen, hnil]
    rfl
  · rw [pushAll_concat hs, callFrame_concat rfl rfl hlen (by simp [hlen]), hs]
    simp [hlen]

/-- A frame whose slots begin `d` slots higher. -/
def StackFrame.raised (f : StackFrame Ty) (d : Nat) : StackFrame Ty :=
  { f with base := ⟨f.base.arguments + d, f.base.locals + d, f.base.stack + d⟩ }

structure Beside (low : List (StackFrame Ty)) (caller callee : StackFrame Ty)
    (lower own top : List StackValue) (s₁ s₂ : ThreadContext Ty) : Prop where
  frames : s₂.frames = low ++ [callee]
  stack : s₂.stack = lower ++ top
  ordinary : s₁ = { s₂ with
    frames := low ++ [caller] ++ [callee.raised own.length]
    stack := lower ++ own ++ top }
  callee_arguments : callee.base.arguments = lower.length
  caller_arguments : caller.base.arguments = lower.length
  caller_stack : caller.base.stack = lower.length + own.length

lemma beside_of_call (ht : Tiled s) (hs : s.frames = low ++ [f])
    (hht : f.stackHeight = info.argumentCount) :
    match canonicalArguments info (s.stack.drop f.base.stack) with
    | .error e => callFrame s info = .error e ∧
        callFrame (pushAll ({ s with frames := low }.truncate f.base.arguments)
          (s.stack.drop f.base.stack)) info = .error e
    | .ok args => ∃ s₁ s₂, callFrame s info = .ok s₁ ∧
        callFrame (pushAll ({ s with frames := low }.truncate f.base.arguments)
          (s.stack.drop f.base.stack)) info = .ok s₂ ∧
        Beside low { f with stackHeight := 0 } (frameAt info f.base.arguments)
          (s.stack.take f.base.arguments)
          ((s.stack.take f.base.stack).drop f.base.arguments) (args ++ info.locals) s₁ s₂ := by
  obtain ⟨-, -, htop⟩ := (tiled_concat hs).mp ht
  obtain ⟨hle, hle'⟩ := ht.base_le hs
  rw [StackFrame.top] at htop
  have hlen : (s.stack.drop f.base.stack).length = info.argumentCount := by
    rw [length_drop]
    omega
  have htake : (s.stack.take f.base.stack).length = f.base.stack := by
    rw [length_take]
    omega
  have hlow : (s.stack.take f.base.arguments).length = f.base.arguments := by
    rw [length_take]
    omega
  have hord := callFrame_concat hs (take_append_drop f.base.stack s.stack).symm hlen
    (by omega)
  have htail := callFrame_pushAll (s := { s with frames := low }.truncate f.base.arguments) hlen
  rw [htake] at hord
  simp only [ThreadContext.truncate, hlow] at htail
  rw [hord]
  simp only [ThreadContext.truncate]
  rw [htail]
  cases canonicalArguments info (s.stack.drop f.base.stack) with
  | error e => exact ⟨rfl, rfl⟩
  | ok args =>
    have hown : ((s.stack.take f.base.stack).drop f.base.arguments).length =
        f.base.stack - f.base.arguments := by
      rw [length_drop, htake]
    refine ⟨_, _, rfl, rfl, rfl, by simp, ?_, by simp [frameAt, StackFrame.new, hlow],
      by simp [hlow],
      by simp only [hown]; omega⟩
    have hspl := take_append_drop f.base.arguments (s.stack.take f.base.stack)
    rw [take_take, min_eq_left hle] at hspl
    have hraised : frameAt info f.base.stack =
        (frameAt info f.base.arguments).raised (f.base.stack - f.base.arguments) := by
      simp only [frameAt, StackFrame.raised, StackFrame.new, StackFrame.mk.injEq,
        BasePointer.mk.injEq, true_and, and_true]
      omega
    simp [hown, ← hraised, hspl, hht]

lemma Beside.top_eq (h : Beside low caller callee lower own top s₁ s₂)
    {callee' : StackFrame Ty} {lower' own' top' : List StackValue}
    (h' : Beside low caller callee' lower' own' top' s₁ s₂) : top' = top := by
  have hcallee : callee' = callee := by
    have hfs := h.frames.symm.trans h'.frames
    exact (singleton_inj.mp (append_cancel_left hfs)).symm
  have hlow : lower'.length = lower.length := by
    rw [← h'.callee_arguments, ← h.callee_arguments, hcallee]
  exact (append_inj (h'.stack.symm.trans h.stack) hlow).2

def returnThroughCaller (s : ThreadContext Ty) (data callerData : ReturnData) :
    Except Stop (ThreadContext Ty) :=
  match handleReturn s data with
  | .error e => .error e
  | .ok s => stepNormal s { returned := callerData }

lemma returnValue_beside (h : Beside low caller callee lower own top s₁ s₂)
    (hres : callee.info.returnType ≠ .void →
      lower.length < callee.base.stack + callee.stackHeight) :
    returnValue s₁ (callee.raised own.length) = returnValue s₂ callee := by
  unfold returnValue
  rw [h.ordinary]
  simp only [StackFrame.raised, h.stack]
  have hslot : callee.info.returnType ≠ .void → ∃ slot,
      callee.base.stack + callee.stackHeight = lower.length + slot + 1 := fun hret =>
    ⟨callee.base.stack + callee.stackHeight - lower.length - 1, by have := hres hret; omega⟩
  have hget : ∀ slot, (lower ++ own ++ top)[lower.length + slot + own.length]? =
      (lower ++ top)[lower.length + slot]? := fun slot => by
    rw [getElem?_append_right (by simp), getElem?_append_right (by omega)]
    congr 1
    simp
    omega
  by_cases hvoid : callee.info.returnType = .void
  · simp only [hvoid]
  · obtain ⟨slot, hslot⟩ := hslot hvoid
    rw [show callee.base.stack + own.length + callee.stackHeight =
      lower.length + slot + own.length + 1 by omega, hslot]
    simp only [hget]

/-- What `return_frame` does to a frame with no deferred work. -/
lemma returnFrame_plain (data : ReturnData) (hs : s.frames = low ++ [f])
    (hfin : f.isFinalizer = false) (hctor : f.constructorResult = none) :
    returnFrame s data =
      if f.info.returnType = .typedReference then
        .error (.error (.invalidCil "ECMA-335 typedref values cannot be method return values"))
      else
        match returnValue s f with
        | .error e => .error e
        | .ok value => applyReturnAction
            (pushOption ({ s with frames := low }.truncate f.base.arguments) value) data := by
  unfold returnFrame
  cases hval : returnValue s f <;>
    simp only [hs, getLast?_concat, dropLast_concat, hfin, hctor, hval,
      completeConstructor, Bool.not_false, Bool.and_true]

/-- The caller of a tail call has no deferred work, and its next instruction is `ret`. -/
structure CallerReturns (caller : StackFrame Ty) : Prop where
  isCctor : caller.info.isCctor = false
  isFinalizer : caller.isFinalizer = false
  multicastState : caller.multicastState = none
  frameContinuation : caller.frameContinuation = none
  constructorResult : caller.constructorResult = none
  ret : caller.info.instructions[caller.ip + 1]? = some .ret

lemma callerReturns_of_honored {count : Nat} (h : shouldHonorTailCall f count = true) :
    CallerReturns f ∧ f.stackHeight = count := by
  simp only [shouldHonorTailCall, Bool.and_eq_true, Bool.not_eq_true', Option.isNone_iff_eq_none,
    beq_iff_eq] at h
  obtain ⟨⟨⟨⟨⟨⟨⟨⟨-, hcc⟩, hfin⟩, hmulti⟩, hcont⟩, hctor⟩, hret⟩,
    hht⟩, -⟩ := h
  exact ⟨⟨hcc, hfin, hmulti, hcont, hctor, hret⟩, hht⟩

/-- The callee and the caller agree on what they return, the callee is no static constructor, and no
finally or fault handler is pending at the caller's `ret`. -/
structure ReturnsAlike (caller : StackFrame Ty) (info : MethodInfo Ty) : Prop where
  returnType : info.returnType = caller.info.returnType
  isCctor : info.isCctor = false
  noFinally : hasFinallyBlocks caller.info (caller.ip + 1) = false

structure AtReturn (low : List (StackFrame Ty)) (callee : StackFrame Ty) (s : ThreadContext Ty) :
    Prop where
  isFinalizer : callee.isFinalizer = false
  constructorResult : callee.constructorResult = none
  base : callee.base.arguments ≤ callee.base.stack
  result : callee.info.returnType ≠ .void → 0 < callee.stackHeight
  mode : ∀ u, s.exceptionMode = .executingHandler u → u.cursor.frameIndex < low.length

/-- `handle_return` once the frame is popped: the frame below goes on after its call, or returns as
well. -/
def continueBelow (data : ReturnData) (fuel : Nat) (t : ThreadContext Ty) :
    Except Stop (ThreadContext Ty) :=
  match t.frames.getLast? with
  | none => .error (.returned t.stack)
  | some caller =>
    if caller.multicastState.isSome then .ok t
    else if caller.info.instructions.length ≤ caller.ip + 1 then
      handleReturnFrames data fuel (branch t (caller.ip + 1))
    else .ok (branch t (caller.ip + 1))

variable {data : ReturnData}

lemma handleReturn_concat_eq (hs : s.frames = low ++ [f])
    (hcc : f.info.isCctor = false) (hfin : f.isFinalizer = false) :
    handleReturn s data = match returnFrame s data with
      | .error e => .error e
      | .ok t => continueBelow data low.length t := by
  unfold handleReturn
  rw [hs, length_append, length_singleton, handleReturnFrames]
  simp only [hs, getLast?_concat, hcc, hfin]
  cases returnFrame s data <;> rfl

variable {value : Option StackValue}

lemma handleReturn_value (data : ReturnData)
    (hs : s.frames = low ++ [f]) (hcc : f.info.isCctor = false)
    (hfin : f.isFinalizer = false) (hctor : f.constructorResult = none)
    (htyped : f.info.returnType ≠ .typedReference) (hval : returnValue s f = .ok value) :
    handleReturn s data =
      match applyReturnAction
          (pushOption ({ s with frames := low }.truncate f.base.arguments) value) data with
      | .error e => .error e
      | .ok t => continueBelow data low.length t := by
  rw [handleReturn_concat_eq hs hcc hfin, returnFrame_plain data hs hfin hctor,
    if_neg htyped, hval]

lemma pushOption_concat (hs : s.frames = low ++ [f]) (value : Option StackValue) :
    pushOption s value = { s with
      stack := s.stack ++ value.toList
      frames := low ++ [{ f with stackHeight := f.stackHeight + value.toList.length }] } := by
  cases value with
  | none => simp [pushOption, ← hs]
  | some v => exact push_concat hs v

/-- A return to a frame that asked for nothing. -/
lemma applyReturnAction_plain (hs : s.frames = low ++ [f])
    (hf : f.frameContinuation = none) : applyReturnAction s data = .ok s := by
  have hsm : ({ f with frameContinuation := none } : StackFrame Ty) = f := by
    rw [← hf]
  have htaken : modifyCurrent s.frames (fun f => { f with frameContinuation := none }) =
      s.frames := by
    rw [hs, modifyCurrent_concat, hsm]
  have hno : s.frames.getLast?.bind (·.frameContinuation) = none := by
    rw [hs, getLast?_concat]
    exact hf
  simp only [applyReturnAction, hno, htaken]

def StackFrame.atRet (caller : StackFrame Ty) (value : Option StackValue) : StackFrame Ty :=
  { caller with ip := caller.ip + 1, stackHeight := value.toList.length }

lemma handleReturn_to_caller
    (h : Beside low caller callee lower own top s₁ s₂) (hc : CallerReturns caller)
    (hht : caller.stackHeight = 0) (hfin : callee.isFinalizer = false)
    (hctor : callee.constructorResult = none) (hcc : callee.info.isCctor = false)
    (htyped : callee.info.returnType ≠ .typedReference)
    (hval : returnValue s₁ (callee.raised own.length) = .ok value) :
    handleReturn s₁ data = .ok { s₂ with
      frames := low ++ [caller.atRet value]
      stack := lower ++ own ++ value.toList } := by
  have hfs : s₁.frames = low ++ [caller] ++ [callee.raised own.length] := by rw [h.ordinary]
  have hpop : { s₁ with frames := low ++ [caller] }.truncate
      (callee.raised own.length).base.arguments =
        { s₂ with frames := low ++ [caller], stack := lower ++ own } := by
    have hargs : (callee.raised own.length).base.arguments = (lower ++ own).length := by
      simp [StackFrame.raised, h.callee_arguments]
    rw [h.ordinary, ThreadContext.truncate, hargs, take_left]
  have hreturned : returnFrame s₁ data = .ok { s₂ with
      frames := low ++ [{ caller with stackHeight := value.toList.length }]
      stack := lower ++ own ++ value.toList } := by
    rw [returnFrame_plain data hfs hfin hctor,
      if_neg (show (callee.raised own.length).info.returnType ≠ _ from htyped), hval]
    dsimp only
    rw [hpop, pushOption_concat rfl]
    simp only [hht, zero_add]
    exact applyReturnAction_plain rfl
      hc.frameContinuation
  have hlt : ¬ caller.info.instructions.length ≤ caller.ip + 1 := by
    have hret := List.getElem?_eq_some_iff.mp hc.ret
    obtain ⟨hlt, -⟩ := hret
    omega
  rw [handleReturn_concat_eq hfs hcc hfin, hreturned]
  simp [continueBelow, hc.multicastState, hlt, branch, StackFrame.atRet]

/-- A `ret` with nothing pending returns. -/
lemma stepNormal_ret (data : ReturnData) (hs : s.frames = low ++ [f])
    (hmulti : f.multicastState = none) (hret : f.info.instructions[f.ip]? = some .ret)
    (hfinally : hasFinallyBlocks f.info f.ip = false)
    (hmd : ∀ u, s.exceptionMode = .executingHandler u → u.cursor.frameIndex < low.length) :
    stepNormal s { returned := data } =
      handleReturn { s with originalIp := f.ip, originalStackHeight := s.stack.length } data := by
  simp only [stepNormal, hs, getLast?_concat, hmulti, hret, execute, ret,
    hfinally, length_append, length_singleton,
    Nat.add_sub_cancel]
  split
  · next u hu =>
    rw [if_neg (ne_of_lt (hmd u hu))]
    rfl
  · rfl

lemma returnValue_only (hs : s.stack = lower ++ value.toList)
    (hbase : f.base.stack = lower.length) (hht : f.stackHeight = value.toList.length)
    (hvoid : f.info.returnType = .void ↔ value = none) : returnValue s f = .ok value := by
  unfold returnValue
  cases value with
  | none => simp only [hvoid.mpr rfl]
  | some v =>
    have hne : f.info.returnType ≠ .void := fun h => nomatch hvoid.mp h
    have hget : s.stack[lower.length]? = some v := by simp [hs]
    simp [hbase, hht, hget]

lemma returnValue_void (h : returnValue s f = .ok value) :
    f.info.returnType = .void ↔ value = none := by
  unfold returnValue at h
  split at h
  · next hvoid => simp_all
  · next hvoid =>
    split at h
    · cases h
    · split at h
      · cases h
      · cases h
        simpa using hvoid

lemma return_beside (h : Beside low caller callee lower own top s₁ s₂)
    (hc : CallerReturns caller) (hht : caller.stackHeight = 0)
    (halike : ReturnsAlike caller callee.info) (hr : AtReturn low callee s₂)
    (data callerData : ReturnData) : ∃ ip height,
    returnThroughCaller s₁ data callerData =
      handleReturn { s₂ with originalIp := ip, originalStackHeight := height } callerData := by
  have hslot : callee.info.returnType ≠ .void →
      lower.length < callee.base.stack + callee.stackHeight := fun hret => by
    have hpos := hr.result hret
    have hbase := hr.base
    rw [h.callee_arguments] at hbase
    omega
  have hval := returnValue_beside h hslot
  have hfs : s₁.frames = low ++ [caller] ++ [callee.raised own.length] := by rw [h.ordinary]
  have htail : ∀ ip height, handleReturn { s₂ with originalIp := ip, originalStackHeight := height }
      callerData = _ := fun ip height => handleReturn_concat_eq h.frames halike.isCctor
        hr.isFinalizer
  have hpl : ∀ ip height, returnFrame
      { s₂ with originalIp := ip, originalStackHeight := height } callerData = _ :=
    fun ip height => returnFrame_plain callerData h.frames hr.isFinalizer
      hr.constructorResult
  by_cases htyped : callee.info.returnType = .typedReference
  · refine ⟨0, 0, ?_⟩
    have hfst := returnFrame_plain data hfs hr.isFinalizer hr.constructorResult
    rw [if_pos (show (callee.raised own.length).info.returnType = _ from htyped)] at hfst
    rw [htail, hpl, if_pos htyped, returnThroughCaller,
      handleReturn_concat_eq hfs halike.isCctor hr.isFinalizer, hfst]
  · cases hv : returnValue s₂ callee with
    | error e =>
      refine ⟨0, 0, ?_⟩
      have hfst := returnFrame_plain data hfs hr.isFinalizer hr.constructorResult
      rw [if_neg (show (callee.raised own.length).info.returnType ≠ _ from htyped), hval, hv]
        at hfst
      rw [htail, hpl, if_neg htyped, returnThroughCaller,
        handleReturn_concat_eq hfs halike.isCctor hr.isFinalizer, hfst,
        show returnValue { s₂ with originalIp := 0, originalStackHeight := 0 } callee = .error e
          from hv]
    | ok value =>
      have hvoid := returnValue_void hv
      rw [returnThroughCaller, handleReturn_to_caller h hc hht hr.isFinalizer
        hr.constructorResult halike.isCctor htyped (hval.trans hv)]
      dsimp only
      have hst := stepNormal_ret callerData (s := { s₂ with
          frames := low ++ [caller.atRet value]
          stack := lower ++ own ++ value.toList }) rfl hc.multicastState
        hc.ret halike.noFinally hr.mode
      rw [hst]
      refine ⟨caller.ip + 1, (lower ++ own ++ value.toList).length, ?_⟩
      have hord := handleReturn_value callerData (s := { s₂ with
          frames := low ++ [caller.atRet value]
          stack := lower ++ own ++ value.toList
          originalIp := caller.ip + 1
          originalStackHeight := (lower ++ own ++ value.toList).length })
        (show _ = low ++ [caller.atRet value] from rfl) hc.isCctor hc.isFinalizer
        hc.constructorResult (fun h => htyped (halike.returnType.trans h))
        (returnValue_only (show _ = (lower ++ own) ++ value.toList from rfl)
          (by simp [StackFrame.atRet, h.caller_stack])
            rfl (by rw [← hvoid, halike.returnType]; rfl))
      have htail := handleReturn_value callerData (s := { s₂ with
          originalIp := caller.ip + 1
          originalStackHeight := (lower ++ own ++ value.toList).length }) h.frames halike.isCctor
        hr.isFinalizer hr.constructorResult htyped hv
      have hlow : (lower ++ own ++ value.toList).take lower.length = lower := by
        rw [append_assoc, take_left]
      have hbase : (caller.atRet value).base.arguments = lower.length := h.caller_arguments
      simp only [ThreadContext.truncate, hbase, hlow] at hord
      simp only [ThreadContext.truncate, h.stack, h.callee_arguments, take_left] at htail
      refine hord.trans ?_
      rw [← htail, ← h.stack]

end

end DotnetVm
