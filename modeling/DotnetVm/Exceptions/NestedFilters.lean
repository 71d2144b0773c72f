import DotnetVm.Activations

/-!
# Exceptions thrown while a filter runs

A search can carry the filter it is nested in, and `complete_nested_filter_unwind`
resumes the search that filter was part of. No execution gets there: throwing
replaces the mode by `Throwing` before `begin_throwing` looks for a running
filter in it. So an exception that leaves a filter is never swallowed.
-/

namespace DotnetVm

open ThreadContext

variable {Ty : Type} {host : Host Ty} {s s' t : ThreadContext Ty} {f : StackFrame Ty}
  {init : List (StackFrame Ty)} {e : Effects Ty}

variable {state : MulticastState}

lemma discardResult_quiet (hs : s.frames = init ++ [f])
    (h : discardResult s f state = .ok t) : Local init f s t := by
  unfold discardResult at h
  split at h
  · split at h
    · next v w hpop =>
      obtain rfl := Except.ok.inj h
      exact popSafe_local hs hpop
    · cases h
  · obtain rfl := Except.ok.inj h
    exact Local.refl hs

lemma invokeNext_concat {g : StackFrame Ty} (ht : t.frames = init ++ [g])
    (state : MulticastState) (target : ObjectRef) :
    invokeNext t state target = { t with
      stack := t.stack ++ .objectRef target :: state.args
      frames := init ++ [{ g with
        multicastState := some { state with nextIndex := state.nextIndex + 1 }
        stackHeight := g.stackHeight + (state.args.length + 1) }] } := by
  unfold invokeNext
  have hadv : ({ t with frames := modifyCurrent t.frames fun f => { f with
      multicastState := some { state with nextIndex := state.nextIndex + 1 } } } :
      ThreadContext Ty).frames = init ++ [{ g with
        multicastState := some { state with nextIndex := state.nextIndex + 1 } }] := by
    simp [ht]
  rw [pushAll_concat hadv]
  simp

lemma multicast_moves {target : ObjectRef}
    (hs : s.frames = init ++ [f]) (hd : discardResult s f state = .ok t)
    (h : runOp (invokeNext t state target) f e = .ok s') :
    ∃ g, Quiet s (invokeNext t state target) ∧
      OpMove init f g e.result (invokeNext t state target) s' := by
  obtain ⟨hq, g, hsm, hg⟩ := discardResult_quiet hs hd
  have hfs := congrArg ThreadContext.frames (invokeNext_concat hg state target)
  refine ⟨_, ?_, runOp_cases hfs hsm.ip h⟩
  rw [invokeNext_concat hg]
  exact hq.trans ⟨rfl, rfl, rfl, rfl⟩

/-- How an instruction changes what the engine looks at. -/
inductive ModeChange (f : StackFrame Ty) (s s' : ThreadContext Ty) : Prop
  | quiet (hq : Quiet s s')
  | thrown (t : ThreadContext Ty) (x : ObjectRef) (p : Bool) (hq : Quiet s t)
      (h : s' = t.setMode (.throwing x p))
  | unwinds (u : UnwindState) (h : s' = (snapshot s f).setMode (.unwinding u))
      (hu : s.exceptionMode = .executingHandler u ∨ ReturnUnwind s f u)
  | left (target : JumpTarget) (h : s' = leave (snapshot s f) target)
  | filtered (t : ThreadContext Ty) (result : Int) (hq : Quiet s t)
      (h : endFilter t result = .ok s')

lemma OpMove.modeChange {g : StackFrame Ty} {result : OpResult Ty} (hq : Quiet s t)
    (h : OpMove init f g result t s') : ModeChange f s s' := by
  cases h with
  | moved ip g' _ hq' _ _ => exact .quiet (hq.trans hq')
  | raised x w _ hl hset => exact .thrown w x false (hq.trans hl.1) hset
  | called hc => exact .quiet (hq.trans hc.1)
  | replaced _ hr => exact .quiet (hq.trans hr.1)

lemma throwValue_eq {v : StackValue} {x : ObjectRef} (h : throwValue s x v = .ok s') :
    ∃ y, s' = s.setMode (.throwing y false) := by
  unfold throwValue at h
  split at h
  · exact ⟨_, (Except.ok.inj h).symm⟩
  · exact ⟨_, (Except.ok.inj h).symm⟩
  · cases h

lemma NormalStep.modeChange (hs : s.frames = init ++ [f]) (h : NormalStep f e s s') :
    ModeChange f s s' := by
  have hsnap : (snapshot s f).frames = init ++ [f] := hs
  cases h with
  | leave target _ h => exact .left target h
  | endFinally u _ hm h => exact .unwinds u h (.inl hm)
  | endFilter result t _ hpop h =>
    exact .filtered t result ((snapshot_quiet s f).trans (popSafe_local hsnap hpop).1) h
  | throw v t _ hpop h =>
    obtain ⟨y, hset⟩ := throwValue_eq h
    exact .thrown t y false ((snapshot_quiet s f).trans (popSafe_local hsnap hpop).1) hset
  | rethrow x rest _ _ h => exact .thrown _ x true (snapshot_quiet s f) h
  | retUnwind u _ hu h => exact .unwinds u h (.inr hu)
  | retReturn _ _ _ h => exact .quiet ((snapshot_quiet s f).trans (handleReturn_quiet h))
  | op _ h => exact (runOp_cases hsnap rfl h).modeChange (snapshot_quiet s f)
  | multicast state target t _ hd h =>
    obtain ⟨g, hqt, hmove⟩ := multicast_moves hs hd h
    exact hmove.modeChange hqt
  | multicastReturn state _ h => exact .quiet (handleReturn_quiet h)

lemma afterFilter_ne_filtering (s : ThreadContext Ty) (state : FilterState) (result : Int)
    (st : FilterState) : afterFilter s state result ≠ .filtering st := by
  unfold afterFilter
  split <;> simp

lemma NormalStep.not_endFilter {state : FilterState} (h : NormalStep f e s s')
    (hm : s'.exceptionMode = .filtering state) : ¬ Executes f .endFilter := by
  intro hexec
  obtain ⟨result, t, _, hend⟩ := h.leavesHandler hexec
  obtain ⟨st, restored, _, _, _, rfl⟩ := endFilter_eq hend
  exact absurd hm (afterFilter_ne_filtering restored st result state)

/-- No instruction enters a filter. -/
lemma ModeChange.filtering {state : FilterState} (h : ModeChange f s s')
    (hm : s'.exceptionMode = .filtering state) : s.exceptionMode = .filtering state := by
  cases h with
  | quiet hq => rwa [hq.mode] at hm
  | thrown t x p _ h => subst h; cases hm
  | unwinds u h _ => subst h; cases hm
  | left target h => subst h; cases hm
  | filtered t result _ h =>
    obtain ⟨st, restored, _, _, _, rfl⟩ := endFilter_eq h
    exact absurd hm (afterFilter_ne_filtering restored st result state)

def interruptedUnwind (s : ThreadContext Ty) : Option UnwindState :=
  match s.exceptionMode with
  | .executingHandler u => if u.cursor.frameIndex < s.frames.length - 1 then some u else none
  | _ => none

variable {u : UnwindState}

lemma interruptedUnwind_eq_some : interruptedUnwind s = some u ↔
    s.exceptionMode = .executingHandler u ∧ u.cursor.frameIndex < s.frames.length - 1 := by
  unfold interruptedUnwind
  cases s.exceptionMode <;> simp
  next w => exact ⟨fun ⟨hlt, heq⟩ => ⟨heq, heq ▸ hlt⟩, fun ⟨heq, hlt⟩ => ⟨heq ▸ hlt, heq⟩⟩

lemma unwinds_leave (s : ThreadContext Ty) (target : JumpTarget) :
    (leave s target).continuation.unwinds =
      (interruptedUnwind s).toList ++ s.continuation.unwinds := by
  unfold interruptedUnwind leave
  cases s.exceptionMode <;> simp only [Option.toList_none, List.nil_append]
  next u =>
    by_cases hlt : u.cursor.frameIndex < s.frames.length - 1
    · simp [hlt]
    · simp [hlt]

variable {typeInit : Option ObjectRef}

lemma UnwindStep.mode_ne {sig : Signal} (h : UnwindStep u typeInit s s' sig) :
    (∀ state, s'.exceptionMode ≠ .searching state) ∧
      ∀ state, s'.exceptionMode ≠ .filtering state := by
  cases h with
  | cleanup t entry _ h =>
    subst h
    simp [enterCleanup, setMode, modifyFrame]
  | raised hw =>
    obtain ⟨x, p, hmd⟩ := (unwindWalk_quiet hw).raised s' rfl
    simp [hmd]
  | handler t addr _ _ sig h => simp [(enterHandler_quiet h).2.1]
  | leave t ip _ _ _ sig h =>
    obtain ⟨_, _, rfl⟩ := arriveAt_eq h
    cases hus : t.continuation.unwinds <;> simp [resumedMode]
  | returnFrame t _ _ h => subst h; simp [setMode]

/-- Neither the mode nor a saved unwind is nested in a filter. -/
structure NestedFree (s : ThreadContext Ty) : Prop where
  mode : s.exceptionMode.nestedFilter = none
  saved : ∀ u ∈ s.continuation.unwinds, u.nestedFilter = none

lemma NestedFree.quiet (hn : NestedFree s) (hq : Quiet s s') : NestedFree s' :=
  ⟨by rw [hq.mode]; exact hn.mode, by rw [hq.unwinds]; exact hn.saved⟩

lemma NestedFree.setMode {mode : ExceptionState} (hn : NestedFree s)
    (hmd : mode.nestedFilter = none) : NestedFree (s.setMode mode) := ⟨hmd, hn.saved⟩

lemma nestedFree_entrypoint (info : MethodInfo Ty) (args : List StackValue) :
    NestedFree (entrypoint info args) := ⟨rfl, by simp [entrypoint]⟩

lemma nestedFilter_afterFilter (s : ThreadContext Ty) (state : FilterState) (result : Int) :
    (afterFilter s state result).nestedFilter = none := by
  unfold afterFilter
  split <;> rfl

section

variable (hn : NestedFree s)
include hn

lemma NestedFree.leave (target : JumpTarget) : NestedFree (leave s target) := by
  refine ⟨rfl, fun w hw => ?_⟩
  rw [unwinds_leave, List.mem_append, Option.mem_toList] at hw
  rcases hw with hw | hw
  · have hmd := hn.mode
    rw [(interruptedUnwind_eq_some.mp hw).1] at hmd
    exact hmd
  · exact hn.saved w hw

lemma NestedFree.modeChange (h : ModeChange f s s') : NestedFree s' := by
  have hsnap : NestedFree (snapshot s f) := hn.quiet (snapshot_quiet s f)
  cases h with
  | quiet hq => exact hn.quiet hq
  | thrown t x p hq h =>
    subst h
    exact (hn.quiet hq).setMode rfl
  | unwinds u h hu =>
    subst h
    refine hsnap.setMode ?_
    have hmd := hn.mode
    rcases hu with hm | hu
    · rw [hm] at hmd
      exact hmd
    · cases hu with
      | handler w hm _ =>
        rw [hm] at hmd
        exact hmd
      | tryBlock => rfl
  | left target h =>
    subst h
    exact hsnap.leave target
  | filtered t result hq h =>
    obtain ⟨state, restored, _, _, hrest, rfl⟩ := endFilter_eq h
    subst hrest
    exact ⟨nestedFilter_afterFilter _ state result, (hn.quiet hq).saved⟩

lemma NestedFree.walk {o : UnwindOutcome Ty} (h : unwindWalk u typeInit s = .ok o) :
    NestedFree o.context := by
  have hq := unwindWalk_quiet h
  refine ⟨?_, by rw [hq.continuation]; exact hn.saved⟩
  by_cases hr : ∃ t, o = .raised t
  · obtain ⟨t, rfl⟩ := hr
    obtain ⟨x, p, hm⟩ := hq.raised t rfl
    simp only [UnwindOutcome.context, hm]
    rfl
  · rw [hq.mode (not_exists.mp hr)]
    exact hn.mode

lemma NestedFree.unwindStep {sig : Signal} (hu : u.nestedFilter = none)
    (h : UnwindStep u typeInit s s' sig) : NestedFree s' := by
  cases h with
  | cleanup t entry hw h =>
    subst h
    exact ⟨hu, (hn.walk hw).saved⟩
  | raised hw => exact hn.walk hw
  | handler t addr hw _ sig h =>
    obtain ⟨_, hmd, hk⟩ := enterHandler_quiet h
    exact ⟨by rw [hmd]; rfl, by rw [hk]; exact (hn.walk hw).saved⟩
  | leave t ip hw _ _ sig h =>
    obtain ⟨_, _, rfl⟩ := arriveAt_eq h
    have hsaved := (hn.walk hw).saved
    simp only [UnwindOutcome.context] at hsaved
    constructor
    · cases hus : t.continuation.unwinds with
      | nil => simp [resumedMode, ExceptionState.nestedFilter]
      | cons w ws => exact hsaved w (by simp [hus])
    · intro w hw
      simp only [unwinds_popHandlerUnwind] at hw
      exact hsaved w (List.mem_of_mem_tail hw)
  | returnFrame t hw _ h =>
    subst h
    exact (hn.walk hw).setMode rfl

lemma nestedFree_step {ev : Event Ty} (hst : step host s ev = .ok s') : NestedFree s' := by
  have hmd := hn.mode
  have hcase := step_cases hn.mode hst
  cases hcase with
  | normal e init f _ hs h => exact hn.modeChange (h.modeChange hs)
  | throwing _ _ _ _ h | accepted _ _ _ _ _ h | filter _ _ _ _ _ _ _ _ _ _ _ _ h =>
    subst h; exact ⟨rfl, hn.saved⟩
  | unwound e u hm h =>
    rw [hm] at hmd
    exact hn.unwindStep hmd h
  | returned e u t hm hw _ h =>
    have ht : NestedFree (t.setMode .none) := (hn.walk hw).setMode rfl
    exact ht.quiet (handleReturn_quiet h)
  | interposed info this init f _ _ h => exact hn.quiet h.1
  | deferred info this h => subst h; exact hn
  | resume k hk h =>
    subst h
    exact ⟨hn.mode, by rw [hk]; exact hn.saved⟩

end

lemma NestedFree.run {ok : ThreadContext Ty × Activations Ty → Event Ty → Prop}
    {a : Activations Ty} (h : TrackedRun host ok s a) : NestedFree s :=
  h.invariant nestedFree_entrypoint
    fun _ _ _ _ hn _ hst => nestedFree_step hn hst

structure SearchResumed (state : FilterState) (entry s : ThreadContext Ty) : Prop where
  mode : s.exceptionMode = .searching
    { exception := state.exception
      cursor := state.handler.nextHandler
      nestedFilter := none }
  frames : s.frames.drop (state.handler.frameIndex + 1) =
    entry.frames.drop (state.handler.frameIndex + 1)
  frame : s.frames[state.handler.frameIndex]?.map (fun f => (f.ip, f.stackHeight)) =
    entry.frames[state.handler.frameIndex]?.map (fun f => (f.ip, f.stackHeight))
  slots : ∀ f, entry.frames[state.handler.frameIndex]? = some f →
    s.stack.drop f.base.stack = entry.stack.drop f.base.stack

def ThrownInFilter (host : Host Ty) (state : FilterState) (entry : ThreadContext Ty) (x : ObjectRef)
    (s : ThreadContext Ty) : Prop :=
  ∃ s₀ a ev, TrackedRun host Runs.anyStep s₀ a ∧ (∃ b ∈ a.live, b.kind = .clause state entry) ∧
    next host s₀ ev = some s ∧ ∃ p, s.exceptionMode = .throwing x p

section

variable (state : FilterState) (s : ThreadContext Ty)

/-- The filter is being evaluated for its exception. -/
def Evaluates : Prop :=
  ∃ st, s.exceptionMode = .filtering st ∧ st.exception = state.exception ∧
    st.handler = state.handler

/-- The search after a filter's handler is not under way. -/
def NotSearchingAfter : Prop :=
  ∀ st, s.exceptionMode = .searching st →
    st.exception = state.exception → st.cursor ≠ state.handler.nextHandler

end

section

variable {state : FilterState}

lemma NotSearchingAfter.of_mode (h : ∀ st, s.exceptionMode ≠ .searching st) :
    NotSearchingAfter state s := fun st hm => absurd hm (h st)

lemma NotSearchingAfter.quiet (hns : NotSearchingAfter state s) (hq : Quiet s s') :
    NotSearchingAfter state s' := by
  unfold NotSearchingAfter
  rw [hq.mode]
  exact hns

lemma nextHandler_injective : Function.Injective HandlerAddress.nextHandler := by
  intro a b h
  obtain ⟨i, j, k⟩ := a
  obtain ⟨i', j', k'⟩ := b
  simpa [HandlerAddress.nextHandler] using h

lemma notSearchingAfter_endFilter {result : Int} (hev : ¬ Evaluates state s)
    (h : endFilter s result = .ok s') : NotSearchingAfter state s' := by
  obtain ⟨st, restored, hm, _, _, rfl⟩ := endFilter_eq h
  intro found hfnd hexc hcur
  have hafter : afterFilter restored st result = .searching found := hfnd
  unfold afterFilter at hafter
  split at hafter
  · cases hafter
  · obtain rfl := ExceptionState.searching.inj hafter
    exact hev ⟨st, hm, hexc, nextHandler_injective hcur⟩

lemma NotSearchingAfter.modeChange (hns : NotSearchingAfter state s)
    (hev : ¬ Evaluates state s) (h : ModeChange f s s') : NotSearchingAfter state s' := by
  cases h with
  | quiet hq => exact hns.quiet hq
  | thrown t x p _ h | unwinds u h _ => subst h; exact .of_mode (by simp [setMode])
  | left target h => subst h; exact .of_mode (by simp [leave])
  | filtered t result hq h =>
    refine notSearchingAfter_endFilter (fun hst => hev ?_) h
    unfold Evaluates at hst
    rwa [hq.mode] at hst

lemma notSearchingAfter_step {ev : Event Ty} (hn : NestedFree s)
    (hns : NotSearchingAfter state s) (hev : ¬ Evaluates state s)
    (hstep : step host s ev = .ok s') : NotSearchingAfter state s' := by
  have hcase := step_cases hn.mode hstep
  cases hcase with
  | normal e init f _ hs h => exact hns.modeChange hev (h.modeChange hs)
  | throwing e x p _ h =>
    -- a new search starts at a first handler, so it is not the one after a handler
    subst h
    intro st hst _ hcur
    obtain rfl := ExceptionState.searching.inj hst
    simp [HandlerAddress.startOf, HandlerAddress.nextHandler] at hcur
  | accepted e st addr _ _ h => subst h; exact .of_mode (by simp [setMode])
  | filter e st addr off low frame high _ _ _ _ _ h =>
    subst h
    exact .of_mode (by simp [filterEntered])
  | unwound e u _ h => exact .of_mode h.mode_ne.1
  | returned e u t _ _ _ h =>
    have hmd := (handleReturn_quiet h).mode
    exact .of_mode (by simp [hmd, setMode])
  | interposed info this init f _ _ h => exact hns.quiet h.1
  | deferred info this h => subst h; exact hns
  | resume k _ h => subst h; exact hns

lemma notSearchingAfter_run (hn : NestedFree s) (hns : NotSearchingAfter state s)
    (hrun : Runs.Run (next host) (fun s _ => ¬ Evaluates state s) s t) :
    NotSearchingAfter state t := by
  have hboth : NestedFree t ∧ NotSearchingAfter state t := by
    refine hrun.invariant (I := fun s => NestedFree s ∧ NotSearchingAfter state s) ?_ ⟨hn, hns⟩
    intro s ev s' ⟨hn, hns⟩ hev hnext
    have hst := next_eq_some.mp hnext
    exact ⟨nestedFree_step hn hst, notSearchingAfter_step hn hns hev hst⟩
  exact hboth.2

variable {entry : ThreadContext Ty}

lemma ThrownInFilter.notSearchingAfter {x : ObjectRef} (h : ThrownInFilter host state entry x s)
    (hrun : Runs.Run (next host) (fun s _ => ¬ Evaluates state s) s t) :
    NotSearchingAfter state t := by
  obtain ⟨s₀, a, ev, hreach, _, hnext, p, hm⟩ := h
  have hn := nestedFree_step (NestedFree.run hreach) (next_eq_some.mp hnext)
  exact notSearchingAfter_run hn (.of_mode (by simp [hm])) hrun

lemma NotSearchingAfter.not_resumed (h : NotSearchingAfter state s) :
    ¬ SearchResumed state entry s := fun hr => h _ hr.mode rfl rfl

/-- An exception thrown while a filter runs is not swallowed: until the filter is evaluated for its
exception anew, the search it was part of is never resumed. -/
theorem exception_in_filter_never_resumes_search {entry : ThreadContext Ty} {x : ObjectRef}
    (h : ThrownInFilter host state entry x s)
    (hrun : Runs.Run (next host) (fun s _ => ¬ Evaluates state s) s t) :
    ¬ SearchResumed state entry t :=
  (h.notSearchingAfter hrun).not_resumed

end

/-- `try { throw E; } filter { throw X; } { } catch { }`. -/
def throwingFilter : MethodInfo Unit where
  instructions := [.op, .throw, .leave (.short 8), .op, .throw, .endFilter,
    .leave (.short 8), .leave (.short 8), .ret]
  exceptions := [⟨⟨0, 3⟩, [⟨⟨6, 7⟩, .filterClause 3⟩, ⟨⟨7, 8⟩, .catchClause ()⟩]⟩]

/-- The evaluation of its filter for `E`. -/
def throwingFilterState : FilterState := ⟨some 1, ⟨0, 0, 0⟩, 1, 0⟩

def throwingFilterEntry : ThreadContext Unit :=
  { entrypoint throwingFilter [] with
    frames := [{ StackFrame.new ⟨0, 0, 0⟩ throwingFilter with ip := 1 }]
    exceptionMode := .searching ⟨some 1, ⟨0, 0, 0⟩, none⟩
    originalIp := 1
    originalStackHeight := 1 }

/-- The filter body has just thrown `X`. -/
def throwingFilterThrown : ThreadContext Unit :=
  { entrypoint throwingFilter [] with
    frames := [{ StackFrame.new ⟨0, 0, 0⟩ throwingFilter with
      ip := 4, exceptionStack := [some 1] }]
    exceptionMode := .throwing (some 2) false
    originalIp := 4
    originalStackHeight := 1 }

lemma thrownInFilter_throwingFilter :
    ThrownInFilter unitHost throwingFilterState throwingFilterEntry (some 2)
      throwingFilterThrown := by
  refine ⟨_, _, .dispatch {}, TrackedRun.of_exec throwingFilter [] [
    .dispatch { ops := [.push (.objectRef (some 1))] }, .dispatch {}, .dispatch {}, .dispatch {},
    .dispatch { ops := [.pop, .push (.objectRef (some 2))] }] rfl, ?_, rfl, false, rfl⟩
  exact ⟨_, List.mem_cons_self, rfl⟩

theorem exception_in_throwingFilter_never_resumes_search :
    ¬ SearchResumed throwingFilterState throwingFilterEntry
      (throwingFilterThrown.setMode (.searching ⟨some 2, ⟨0, 0, 0⟩, none⟩)) :=
  exception_in_filter_never_resumes_search thrownInFilter_throwingFilter
    (Runs.Run.tail (e := .dispatch {}) Runs.Run.refl (by rintro ⟨st, hm, _⟩; cases hm) rfl)

/-- `X` is caught nowhere, the search for `E` never goes on with the catch handler after the filter,
and the thread ends with `X` unhandled. -/
theorem throwing_filter_not_swallowed :
    ThrownInFilter unitHost throwingFilterState throwingFilterEntry (some 2) throwingFilterThrown ∧
      (∀ t, Runs.Run (next unitHost) (fun s _ => ¬ Evaluates throwingFilterState s)
        throwingFilterThrown t → ¬ SearchResumed throwingFilterState throwingFilterEntry t) ∧
      ∃ t, next unitHost throwingFilterThrown (.dispatch {}) = some t ∧
        step unitHost t (.dispatch {}) = .error (.methodThrew (some 2)) :=
  ⟨thrownInFilter_throwingFilter,
    fun _ hrun => (thrownInFilter_throwingFilter.notSearchingAfter hrun).not_resumed,
    _, rfl, rfl⟩

end DotnetVm
