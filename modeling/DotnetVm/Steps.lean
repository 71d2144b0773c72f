import DotnetVm.Exceptions.Phases

/-!
# What a step can do

Inversion of the step function: one constructor for each way the dispatch loop
can go on in a normal mode, one lemma for each phase of the engine. Every
invariant of the machine is a case analysis over these.
-/

namespace DotnetVm

open List

variable {Ty : Type} {host : Host Ty} {s s' t : ThreadContext Ty} {f : StackFrame Ty}
  {init : List (StackFrame Ty)} {e : Effects Ty}

/-- The frame is at this instruction (a multicast frame is at none). -/
def Executes (f : StackFrame Ty) (i : Instruction) : Prop :=
  f.multicastState = none ∧ f.info.instructions[f.ip]? = some i

variable {i : Instruction}

lemma Executes.unique {j : Instruction} (hi : Executes f i) (hj : Executes f j) : i = j :=
  Option.some.inj (hi.2.symm.trans hj.2)

def snapshot (s : ThreadContext Ty) (f : StackFrame Ty) : ThreadContext Ty :=
  { s with originalIp := f.ip, originalStackHeight := s.stack.length }

section

variable (s f)

@[simp] lemma snapshot_frames : (snapshot s f).frames = s.frames := rfl
@[simp] lemma snapshot_stack : (snapshot s f).stack = s.stack := rfl
@[simp] lemma snapshot_mode : (snapshot s f).exceptionMode = s.exceptionMode := rfl
@[simp] lemma snapshot_continuation : (snapshot s f).continuation = s.continuation := rfl
@[simp] lemma snapshot_suspendedFrames : (snapshot s f).suspendedFrames = s.suspendedFrames := rfl
@[simp] lemma snapshot_suspendedStack : (snapshot s f).suspendedStack = s.suspendedStack := rfl

lemma snapshot_quiet : Quiet s (snapshot s f) :=
  ⟨rfl, rfl, rfl, rfl⟩

end

def invokeNext (s : ThreadContext Ty) (state : MulticastState) (target : ObjectRef) :
    ThreadContext Ty :=
  pushAll { s with
    frames := modifyCurrent s.frames fun f =>
      { f with multicastState := some { state with nextIndex := state.nextIndex + 1 } } }
    (.objectRef target :: state.args)

inductive ReturnUnwind (s : ThreadContext Ty) (f : StackFrame Ty) : UnwindState → Prop
  | handler (u : UnwindState) (hm : s.exceptionMode = .executingHandler u)
      (hc : u.cursor.frameIndex = s.frames.length - 1) :
      ReturnUnwind s f { u with target := .instruction usizeMax }
  | tryBlock (hb : hasFinallyBlocks f.info f.ip = true)
      (hm : ∀ u, s.exceptionMode = .executingHandler u →
        u.cursor.frameIndex ≠ s.frames.length - 1) :
      ReturnUnwind s f
        { exception := none
          target := .instruction usizeMax
          cursor := .startOf (s.frames.length - 1)
          nestedFilter := none }

inductive NormalStep (f : StackFrame Ty) (e : Effects Ty) (s s' : ThreadContext Ty) : Prop
  | leave (target : JumpTarget) (hi : Executes f (.leave target))
      (h : s' = leave (snapshot s f) target)
  | endFinally (u : UnwindState) (hi : Executes f .endFinally)
      (hm : s.exceptionMode = .executingHandler u)
      (h : s' = (snapshot s f).setMode (.unwinding u))
  | endFilter (result : Int) (t : ThreadContext Ty) (hi : Executes f .endFilter)
      (hpop : (snapshot s f).popSafe = .ok (.int32 result, t)) (h : endFilter t result = .ok s')
  | throw (v : StackValue) (t : ThreadContext Ty) (hi : Executes f .throw)
      (hpop : (snapshot s f).popSafe = .ok (v, t)) (h : throwValue t e.nullReference v = .ok s')
  | rethrow (x : ObjectRef) (rest : List ObjectRef) (hi : Executes f .rethrow)
      (hes : f.exceptionStack = x :: rest)
      (h : s' = (snapshot s f).setMode (.throwing x true))
  | retUnwind (u : UnwindState) (hi : Executes f .ret) (hu : ReturnUnwind s f u)
      (h : s' = (snapshot s f).setMode (.unwinding u))
  | retReturn (hi : Executes f .ret) (hb : hasFinallyBlocks f.info f.ip = false)
      (hm : ∀ u, s.exceptionMode = .executingHandler u → u.cursor.frameIndex ≠ s.frames.length - 1)
      (h : handleReturn (snapshot s f) e.returned = .ok s')
  | op (hi : Executes f .op) (h : runOp (snapshot s f) f e = .ok s')
  | multicast (state : MulticastState) (target : ObjectRef) (t : ThreadContext Ty)
      (hm : f.multicastState = some state) (hd : discardResult s f state = .ok t)
      (h : runOp (invokeNext t state target) f e = .ok s')
  | multicastReturn (state : MulticastState) (hm : f.multicastState = some state)
      (h : handleReturn s e.returned = .ok s')

/-- What the instructions that leave a handler do. -/
def LeavesHandler (f : StackFrame Ty) (s s' : ThreadContext Ty) : Instruction → Prop
  | .leave target => s' = leave (snapshot s f) target
  | .endFinally => ∃ u, s.exceptionMode = .executingHandler u ∧
      s' = (snapshot s f).setMode (.unwinding u)
  | .endFilter => ∃ result t, (snapshot s f).popSafe = .ok (.int32 result, t) ∧
      endFilter t result = .ok s'
  | _ => True

lemma NormalStep.leavesHandler (hi : Executes f i) (h : NormalStep f e s s') :
    LeavesHandler f s s' i := by
  cases h with
  | leave target hj h => cases hi.unique hj; exact h
  | endFinally u hj hm h => cases hi.unique hj; exact ⟨u, hm, h⟩
  | endFilter result t hj hpop h => cases hi.unique hj; exact ⟨result, t, hpop, h⟩
  | throw _ _ hj _ _ | rethrow _ _ hj _ _ | retUnwind _ hj _ _ | retReturn hj _ _ _ | op hj _ =>
    cases hi.unique hj; trivial
  | multicast _ _ _ hmc _ _ | multicastReturn _ hmc _ => cases hi.1.symm.trans hmc

lemma ret_cases (s : ThreadContext Ty) (f : StackFrame Ty) :
    (∃ u, ReturnUnwind s f u ∧ ret s f = (.exception, s.setMode (.unwinding u))) ∨
      (hasFinallyBlocks f.info f.ip = false ∧ (∀ u, s.exceptionMode = .executingHandler u →
          u.cursor.frameIndex ≠ s.frames.length - 1) ∧ ret s f = (.returnFrame, s)) := by
  by_cases hown : ∃ u, s.exceptionMode = .executingHandler u ∧
      u.cursor.frameIndex = s.frames.length - 1
  · obtain ⟨u, hm, hc⟩ := hown
    exact .inl ⟨_, .handler u hm hc, by simp [ret, hm, hc]⟩
  · have hoth : ∀ u, s.exceptionMode = .executingHandler u →
        u.cursor.frameIndex ≠ s.frames.length - 1 := fun u hm hc => hown ⟨u, hm, hc⟩
    have hret : ret s f = if hasFinallyBlocks f.info f.ip then
        (.exception, s.setMode (.unwinding
          { exception := none
            target := .instruction usizeMax
            cursor := .startOf (s.frames.length - 1)
            nestedFilter := none }))
        else (.returnFrame, s) := by
      cases hm : s.exceptionMode <;> simp only [ret, hm]
      next u => rw [if_neg (hoth u hm)]
    cases hb : hasFinallyBlocks f.info f.ip with
    | true => exact .inl ⟨_, .tryBlock hb hoth, by rw [hret, hb]; rfl⟩
    | false => exact .inr ⟨rfl, hoth, by rw [hret, hb]; rfl⟩

lemma multicastStep_cases {state : MulticastState} (hm : f.multicastState = some state)
    (h : multicastStep s f state e = .ok s') : NormalStep f e s s' := by
  unfold multicastStep at h
  split at h
  · cases h
  · next t ht =>
    split at h
    · next target _ => exact .multicast state target t hm ht h
    · next hno =>
      have hdone : ¬ state.nextIndex < state.targets.length := by
        simpa using hno
      have hsm : t = s := by
        simp only [discardResult, hdone, false_and, and_false] at ht
        exact (Except.ok.inj ht).symm
      subst hsm
      exact .multicastReturn state hm h

lemma execute_cases (hi : Executes f i)
    (h : execute (snapshot s f) f e i = .ok s') : NormalStep f e s s' := by
  cases i with
  | leave target => exact .leave target hi (Except.ok.inj h).symm
  | endFinally =>
    simp only [execute, endFinally] at h
    split at h
    · next u hm => exact .endFinally u hi hm (Except.ok.inj h).symm
    · cases h
  | endFilter =>
    simp only [execute] at h
    split at h
    · next result t hpop => exact .endFilter result t hi hpop h
    · cases h
    · cases h
  | throw =>
    simp only [execute] at h
    split at h
    · next v t hpop => exact .throw v t hi hpop h
    · cases h
  | rethrow =>
    simp only [execute, rethrow] at h
    split at h
    · cases h
    · next x rest hes => exact .rethrow x rest hi hes (Except.ok.inj h).symm
  | ret =>
    simp only [execute] at h
    rcases ret_cases (snapshot s f) f with ⟨u, hu, hret⟩ | ⟨hb, hoth, hret⟩
    · rw [hret] at h
      refine .retUnwind u hi ?_ (Except.ok.inj h).symm
      cases hu with
      | handler u hm hc => exact .handler u hm hc
      | tryBlock hb hm => exact .tryBlock hb hm
    · rw [hret] at h
      exact .retReturn hi hb hoth h
  | op => exact .op hi h

/-- Inversion of `step_normal`. -/
lemma stepNormal_cases (h : stepNormal s e = .ok s') :
    ∃ init f, s.frames = init ++ [f] ∧ NormalStep f e s s' := by
  rcases eq_nil_or_concat' s.frames with hs | ⟨init, f, hs⟩
  · simp [stepNormal, hs] at h
  · refine ⟨init, f, hs, ?_⟩
    simp only [stepNormal, hs, getLast?_concat] at h
    split at h
    · next state hm => exact multicastStep_cases hm h
    · next hm =>
      split at h
      · cases h
      · next i hi =>
        rw [← hs] at h
        exact execute_cases ⟨hm, hi⟩ h

def goesTo (s : ThreadContext Ty) (f : StackFrame Ty) : OpResult Ty → Option Nat
  | .proceed => some (if f.multicastState.isSome then f.ip else f.ip + 1)
  | .jump target => some target
  | .spin => some f.ip
  | .retry => some s.originalIp
  | _ => none

/-- Operations that may discard the current frame. -/
def OpResult.discardsFrame : OpResult Ty → Bool
  | .tailCall _ | .jmp _ _ => true
  | _ => false

inductive OpMove (init : List (StackFrame Ty)) (f g : StackFrame Ty) (result : OpResult Ty)
    (s s' : ThreadContext Ty) : Prop
  | moved (ip : Nat) (g' : StackFrame Ty) (hip : goesTo s f result = some ip) (hq : Quiet s s')
      (hsame : SameFrame { g with ip := ip } g') (hframes : s'.frames = init ++ [g'])
  | raised (x : ObjectRef) (t : ThreadContext Ty) (hr : result = .raise x) (hl : Local init g s t)
      (h : s' = t.setMode (.throwing x false))
  | called (hc : Called init g s s')
  | replaced (hr : result.discardsFrame = true) (h : Replaced init s s')

variable {g : StackFrame Ty} {info : MethodInfo Ty}

lemma dispatchTail_cases (ht : t.frames = init ++ [g])
    (h : dispatchTail t info = .ok s') : Called init g t s' ∨ Replaced init t s' := by
  simp only [dispatchTail, ht, getLast?_concat] at h
  split at h
  · split at h
    · cases h
    · next hlen =>
      refine .inr (replaceFrame_replaced ht ?_ h)
      simp only [length_take, length_drop]
      omega
  · exact .inl (callFrame_called ht h)

variable {args : List StackValue}

lemma dispatchJmp_cases
    (ht : t.frames = init ++ [g]) (h : dispatchJmp t info args = .ok s') : Replaced init t s' := by
  simp only [dispatchJmp, ht, getLast?_concat] at h
  split at h
  · cases h
  · split at h
    · cases h
    · split at h
      · cases h
      · next hargs => exact replaceFrame_replaced ht (not_not.mp hargs) h

lemma Local.replaced (hl : Local init g s t)
    (hr : ∀ g', t.frames = init ++ [g'] → Replaced init t s') : Replaced init s s' := by
  obtain ⟨hq, g', _, hfs⟩ := hl
  obtain ⟨hq', n, hn, hfs'⟩ := hr g' hfs
  exact ⟨hq.trans hq', n, hn, hfs'⟩

lemma constructorFrame_called {pointer : StackValue} (ht : t.frames = init ++ [g])
    (h : constructorFrame t info pointer args = .ok s') : Called init g t s' := by
  unfold constructorFrame at h
  split at h
  · exact (pushAll_local ht _).called fun g' hg' => callWith_called hg' h
  · cases h

/-- Inversion of an ordinary instruction. -/
lemma runOp_cases (hs : s.frames = init ++ [g]) (hip : g.ip = f.ip)
    (h : runOp s f e = .ok s') : OpMove init f g e.result s s' := by
  unfold runOp at h
  split at h
  · cases h
  · next t ht =>
    have hl := applyOps_local hs ht
    obtain ⟨hq, g', hsm, hg'⟩ := applyOps_local hs ht
    have hgoto : ∀ ip, SameFrame { g with ip := ip } { g' with ip := ip } := hsm.atIp
    cases hr : e.result with
    | proceed =>
      rw [hr] at h
      cases hmc : f.multicastState.isSome with
      | true =>
        simp only [finishOp, hmc, Except.ok.injEq] at h
        subst h
        exact .moved f.ip g' (by simp [goesTo, hmc]) hq (by rw [← hip]; exact hsm) hg'
      | false =>
        simp only [finishOp, hmc, Bool.false_eq_true, if_false, Except.ok.injEq] at h
        subst h
        exact .moved (f.ip + 1) _ (by simp [goesTo, hmc]) (hq.branch _) (hgoto _)
          (by rw [branch_concat hg'])
    | jump target =>
      rw [hr] at h
      obtain rfl := Except.ok.inj h
      exact .moved target _ rfl (hq.branch _) (hgoto _) (by rw [branch_concat hg'])
    | raise x =>
      rw [hr] at h
      exact .raised x t rfl hl (Except.ok.inj h).symm
    | spin =>
      rw [hr] at h
      obtain rfl := Except.ok.inj h
      exact .moved f.ip g' rfl hq (by rw [← hip]; exact hsm) hg'
    | retry =>
      rw [hr] at h
      obtain rfl := Except.ok.inj h
      obtain ⟨hqy, hfs⟩ := yieldAndRetry_concat hg'
      rw [(applyOps_originalIp hs ht).1] at hfs
      refine .moved s.originalIp _ rfl (hq.trans hqy) ?_ hfs
      exact ⟨hsm.base, rfl, hsm.info, hsm.exceptionStack, hsm.isFinalizer,
        hsm.multicastState, hsm.constructorResult⟩
    | fail err => rw [hr] at h; cases h
    | call info multicast =>
      rw [hr] at h
      exact .called (hl.called fun g'' hg'' => callWith_called hg'' h)
    | construct info pointer args =>
      rw [hr] at h
      exact .called (hl.called fun g'' hg'' => constructorFrame_called hg'' h)
    | tailCall info =>
      rw [hr] at h
      rcases dispatchTail_cases hg' h with hcall | hrep
      · exact .called (hl.called fun g'' hg'' => by
          obtain rfl : g'' = g' := (append_singleton_inj.mp (hg''.symm.trans hg')).2
          exact hcall)
      · exact .replaced rfl (hl.replaced fun _ _ => hrep)
    | jmp info args =>
      rw [hr] at h
      exact .replaced rfl (hl.replaced fun g'' hg'' => dispatchJmp_cases hg'' h)

lemma step_dispatch_cases (h : step host s (.dispatch e) = .ok s') :
    (s.exceptionMode.isNormal = true ∧ ∃ init f, s.frames = init ++ [f] ∧ NormalStep f e s s') ∨
      (s.exceptionMode.isNormal = false ∧ ∃ sig t,
        handleException host s e.typeInitialization = .ok (sig, t) ∧
        followSignal e.returned (sig, t) = .ok s') := by
  simp only [step] at h
  split at h
  · next hn => exact .inl ⟨hn, stepNormal_cases h⟩
  · next hn =>
    split at h
    · cases h
    · next r hr =>
      obtain ⟨sig, t⟩ := r
      exact .inr ⟨by simpa using hn, sig, t, hr, h⟩

lemma interposeFinalizer_cases {this : Nat} (h : interposeFinalizer s info this = .ok s') :
    s' = s ∨ ∃ init f, s.frames = init ++ [f] ∧ Called init f s s' := by
  unfold interposeFinalizer at h
  split at h
  · exact .inl (Except.ok.inj h).symm
  · split at h
    · cases h
    · next hne =>
      split at h
      · cases h
      · next t ht =>
        obtain rfl := Except.ok.inj h
        rcases eq_nil_or_concat' s.frames with hs | ⟨init, f, hs⟩
        · exact absurd hs hne
        · refine .inr ⟨init, f, hs, ?_⟩
          let marked : ThreadContext Ty := { s with processingFinalizer := true }
          have hmark : Local init f s marked :=
            Local.intro hs (SameFrame.refl f) ⟨rfl, rfl, rfl, rfl⟩
          have hpush : Local init f s (marked.push (.objectRef (some this))) :=
            hmark.step fun f' _ hf' => push_local hf' _
          obtain ⟨hq, f', n, hsm, hn, hfs⟩ :=
            hpush.called fun f' hf' => callFrame_called hf' ht
          refine ⟨⟨hq.mode, hq.unwinds, hq.suspendedStack, hq.suspendedFrames⟩, f',
            { n with isFinalizer := true }, hsm, ⟨hn.ip, hn.exceptionStack⟩, ?_⟩
          simp only [hfs, modifyCurrent_concat]

lemma clearRetry_eq (s : ThreadContext Ty) :
    ∃ k, clearRetry s = { s with continuation := k } ∧ k.unwinds = s.continuation.unwinds := by
  unfold clearRetry
  split
  · next hk => exact ⟨.none, rfl, by rw [hk]; rfl⟩
  · exact ⟨s.continuation, rfl, rfl⟩

lemma next_eq_some {ev : Event Ty} : next host s ev = some s' ↔ step host s ev = .ok s' := by
  unfold next
  cases step host s ev <;> simp [Except.toOption]

/-- The filter a search or unwind is nested in. -/
def ExceptionState.nestedFilter : ExceptionState → Option FilterState
  | .searching state => state.nestedFilter
  | .unwinding state => state.nestedFilter
  | .executingHandler state => state.nestedFilter
  | _ => Option.none

inductive MachineStep (host : Host Ty) (s s' : ThreadContext Ty) : Event Ty → Prop
  | normal (e : Effects Ty) (init : List (StackFrame Ty)) (f : StackFrame Ty)
      (hm : s.exceptionMode.isNormal = true) (hs : s.frames = init ++ [f])
      (h : NormalStep f e s s') : MachineStep host s s' (.dispatch e)
  | throwing (e : Effects Ty) (x : ObjectRef) (p : Bool) (hm : s.exceptionMode = .throwing x p)
      (h : s' = s.clearSuspended.setMode (.searching
        { exception := x, cursor := .startOf (s.frames.length - 1), nestedFilter := none })) :
      MachineStep host s s' (.dispatch e)
  | accepted (e : Effects Ty) (state : SearchState) (addr : HandlerAddress)
      (hm : s.exceptionMode = .searching state)
      (hfound : searchFrames host s.frames state.exception state.cursor 0
        state.cursor.frameIndex = .ok (some (.accepted addr)))
      (h : s' = s.setMode (.unwinding (unwindToHandler s state.exception addr))) :
      MachineStep host s s' (.dispatch e)
  | filter (e : Effects Ty) (state : SearchState) (addr : HandlerAddress) (clauseOffset : Nat)
      (low : List (StackFrame Ty)) (frame : StackFrame Ty) (high : List (StackFrame Ty))
      (hm : s.exceptionMode = .searching state)
      (hfound : searchFrames host s.frames state.exception state.cursor 0
        state.cursor.frameIndex = .ok (some (.filter addr clauseOffset)))
      (hs : s.frames = low ++ frame :: high) (hlow : low.length = addr.frameIndex)
      (hbase : frame.base.stack ≤ s.stack.length)
      (h : s' = filterEntered s state.exception addr clauseOffset low high frame) :
      MachineStep host s s' (.dispatch e)
  | unwound (e : Effects Ty) (u : UnwindState) (hm : s.exceptionMode = .unwinding u)
      (h : UnwindStep u e.typeInitialization s s' .exception) :
      MachineStep host s s' (.dispatch e)
  | returned (e : Effects Ty) (u : UnwindState) (t : ThreadContext Ty)
      (hm : s.exceptionMode = .unwinding u)
      (hw : unwindWalk u e.typeInitialization s = .ok (.arrived t))
      (ht : u.target = .instruction usizeMax)
      (h : handleReturn (t.setMode .none) e.returned = .ok s') :
      MachineStep host s s' (.dispatch e)
  | interposed (info : MethodInfo Ty) (this : Nat) (init : List (StackFrame Ty))
      (f : StackFrame Ty) (hs : s.frames = init ++ [f])
      (hstep : interposeFinalizer s info this = .ok s') (h : Called init f s s') :
      MachineStep host s s' (.finalizer info this)
  | deferred (info : MethodInfo Ty) (this : Nat) (h : s' = s) :
      MachineStep host s s' (.finalizer info this)
  | resume (k : VmContinuation) (hk : k.unwinds = s.continuation.unwinds)
      (h : s' = { s with continuation := k }) : MachineStep host s s' .resume

/-- Inversion of a phase of the engine. -/
lemma handleException_cases {sig : Signal} (hn : s.exceptionMode.nestedFilter = none)
    (hm : s.exceptionMode.isNormal = false)
    (hh : handleException host s e.typeInitialization = .ok (sig, t))
    (h : followSignal e.returned (sig, t) = .ok s') : MachineStep host s s' (.dispatch e) := by
  cases hmd : s.exceptionMode with
  | none => simp [hmd] at hm
  | filtering state => simp [hmd] at hm
  | executingHandler u => simp [hmd] at hm
  | throwing x p =>
    simp only [handleException, hmd] at hh
    obtain ⟨rfl, rfl⟩ := beginThrowing_eq hmd hh
    exact .throwing e x p hmd (Except.ok.inj h).symm
  | searching state =>
    rw [hmd] at hn
    simp only [handleException, hmd] at hh
    obtain ⟨rfl, ⟨addr, hfnd, rfl⟩ | ⟨addr, off, hfnd, low, frame, high, hs, hlow, hbase, rfl⟩⟩ :=
      searchForHandler_cases hn hh
    · exact .accepted e state addr hmd hfnd (Except.ok.inj h).symm
    · exact .filter e state addr off low frame high hmd hfnd hs hlow hbase
        (Except.ok.inj h).symm
  | unwinding u =>
    rw [hmd] at hn
    simp only [handleException, hmd] at hh
    have hu := unwind_cases hn hh
    cases sig with
    | exception =>
      obtain rfl := Except.ok.inj h
      exact .unwound e u hmd hu
    | returnFrame =>
      cases hu with
      | handler w addr _ _ sig he => exact absurd (enterHandler_quiet he).1 (by simp)
      | leave w ip _ _ _ sig ha => exact absurd (arriveAt_eq ha).1 (by simp)
      | returnFrame w hw ht hset =>
        subst hset
        exact .returned e u w hmd hw ht h

lemma step_cases {ev : Event Ty} (hn : s.exceptionMode.nestedFilter = none)
    (h : step host s ev = .ok s') : MachineStep host s s' ev := by
  cases ev with
  | dispatch e =>
    rcases step_dispatch_cases h with ⟨hm, init, f, hs, hnorm⟩ | ⟨hm, sig, t, hh, hf⟩
    · exact .normal e init f hm hs hnorm
    · exact handleException_cases hn hm hh hf
  | finalizer info this =>
    rcases interposeFinalizer_cases h with rfl | ⟨init, f, hs, hc⟩
    · exact .deferred info this rfl
    · exact .interposed info this init f hs h hc
  | resume =>
    obtain ⟨k, hk, hunwinds⟩ := clearRetry_eq s
    exact .resume k hunwinds ((Except.ok.inj h).symm.trans hk)

end DotnetVm
