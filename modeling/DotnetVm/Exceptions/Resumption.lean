import DotnetVm.Exceptions.Bodies

/-!
# Bodies resume in their own mode

Along disciplined runs the mode at the end of a finally, fault or filter body is
the one the body was entered with, and the saved unwinds are those of the live
bodies a `leave` interrupted. Neither survives a `leave` inside a body of the
same frame, or an exception that escapes while an unwind is saved.
-/

namespace DotnetVm

variable {Ty : Type} {host : Host Ty} {s s' t : ThreadContext Ty} {a : Activations Ty}
  {f : StackFrame Ty} {init : List (StackFrame Ty)} {e : Effects Ty} {u : UnwindState}
  {b : Activation Ty}

lemma track_normal (hm : s.exceptionMode.isNormal = true) (hs : s.frames = init ++ [f]) :
    track a s (.dispatch e) s' = trackInstruction a s f e s' := by
  unfold track
  cases hmd : s.exceptionMode <;> simp_all

section

variable (hc : Coherent s a) (hm : s.exceptionMode = .unwinding u) (hd : Disciplined (s, a)
  (.dispatch e))
include hc hm hd

lemma Coherent.unwindStep (hn : NestedFree s')
    (h : UnwindStep u e.typeInitialization s s' .exception) :
    Coherent s' { a with live := trackUnwind a.live s u e.typeInitialization s' } := by
  unfold trackUnwind
  cases h with
  | cleanup t entry hw h =>
    subst h
    simp only [hw]
    exact hc.cleanup hm hw
  | raised hw =>
    simp only [hw]
    exact hc.raised hm hw
  | handler t addr hw ht _ h =>
    obtain ⟨handler, y, hat, hx, _, _⟩ := enterHandler_handlerAt h
    have hat' := (unwindWalk_quiet hw).methods.handlerAt hat
    simp only [hw, ht, hat, hx]
    simp only [Disciplined, hm, ht] at hd
    exact hc.caught hm hw ht (hd handler hat') hn h
  | leave t ip hw ht hip _ h =>
    simp only [hw, ht, if_neg hip]
    exact hc.arrived hm hw ht hip hn h

lemma Coherent.returnedThrough (hn : NestedFree s')
    (hw : unwindWalk u e.typeInitialization s = .ok (.arrived t))
    (ht : u.target = .instruction usizeMax)
    (h : handleReturn (t.setMode .none) e.returned = .ok s') :
    Coherent s' { a with live := trackUnwind a.live s u e.typeInitialization s' } := by
  have hmd := hc.mode
  have hnest := hc.nested.mode
  rw [hm] at hmd hnest
  obtain ⟨hcur, hcont⟩ := hmd
  simp only [Disciplined, hm, ht] at hd
  have htgt := targetFrame_of_instruction hnest ht
  obtain ⟨init, f, hs, hcur', hstays⟩ := unwindWalk_here hcur htgt hw
  have hctx : t = _ := hstays.context
  have hnil : bodies a.live = [] := by
    generalize bodies a.live = bs at hcont
    cases hcont with
    | handler addr ht' _ => rw [ht] at ht'; cases ht'
    | ret _ => rfl
    | leaveOutside _ _ _ => rfl
    | leaveInside ip ht' hip _ _ _ _ =>
      rw [ht] at ht'
      exact absurd (UnwindTarget.instruction.inj ht').symm hip
  have hlen : t.frames.length = s.frames.length := by simp [hctx, hs]
  have hno : Coherent (t.setMode .none) a :=
    { nested := (hc.nested.walk hw).setMode rfl
      within := fun b hb => by
        simp only [ThreadContext.setMode, hlen]
        exact hc.within b hb
      suspended := hc.suspended
      suspendedWithin := by simp [ThreadContext.setMode]
      saved := by rw [← hc.saved, hctx]; rfl
      mode := hnil }
  have hset : (t.setMode .none).frames =
      init ++ [{ f with exceptionStack := (walkFrame u init.length f).1 }] := by rw [hctx]; rfl
  have hret : ReturnsToCode (t.setMode .none) := by
    obtain ⟨lower, c, rfl⟩ := handleReturn_caller hset h
    exact (returnsToCode_iff hset).mpr ((returnsToCode_iff hs).mp (hd True.intro))
  have hbody : RunsNoBody (t.setMode .none) a := by simp [RunsNoBody, Within, hnil]
  simp only [trackUnwind, hw, ht]
  exact hno.returned rfl hset hbody hret hn h

end

lemma coherent_step {ev : Event Ty} (hc : Coherent s a) (hd : Disciplined (s, a) ev)
    (hst : step host s ev = .ok s') : Coherent s' (track a s ev s') := by
  have hn := nestedFree_step hc.nested hst
  have hcase := step_cases hc.nested.mode hst
  cases hcase with
  | normal e init f hm hs h =>
    rw [track_normal hm hs]
    exact hc.normalStep hm hs (hd.instruction hm hs) hn h
  | throwing e x p hm h =>
    subst h
    simp only [track, hm]
    exact hc.searching hm _ rfl
  | accepted e state addr hm hfnd h =>
    subst h
    have hlt := lt_of_searchFrames hfnd
    simp only [track, hm]
    exact hc.accepted hm (by omega)
  | filter e state addr clauseOffset low frame high hm _ hs hlow _ h =>
    subst h
    simp only [track, hm]
    exact hc.filterEntered hm hs hlow s _ rfl
  | unwound e u hm h =>
    simp only [track, hm]
    exact hc.unwindStep hm hd hn h
  | returned e u t hm hw ht h =>
    simp only [track, hm]
    exact hc.returnedThrough hm hd hn hw ht h
  | interposed info this init f hs _ h =>
    obtain ⟨hq, f', n, _, _, hfs⟩ := h
    have hlen : s'.frames.length = s.frames.length + 1 := by simp [hfs, hs]
    exact hc.quiet hd hn hq (hc.within.mono (by omega)) rfl
  | deferred info this h =>
    subst h
    exact hc
  | resume k hk h =>
    subst h
    exact ⟨hn, hc.within, hc.suspended, hc.suspendedWithin, hk.trans hc.saved, hc.mode⟩

lemma Coherent.run (h : TrackedRun host Disciplined s a) : Coherent s a :=
  h.invariant coherent_entrypoint fun _ _ _ _ hc hd hst => coherent_step hc hd hst

lemma Coherent.mode_of_head (hc : Coherent s a) (hm : s.exceptionMode.isNormal = true)
    (hb : (bodies a.live).head? = some b) : b.mode? = some s.exceptionMode := by
  have hmd := hc.mode
  cases hx : s.exceptionMode with
  | none =>
    rw [hx] at hmd
    have hnil : bodies a.live = [] := hmd
    simp [hnil] at hb
  | executingHandler u =>
    rw [hx] at hmd
    obtain ⟨c, rest, hc, hk, _, _⟩ := hmd
    obtain rfl : c = b := by simpa [hc] using hb
    simp [Activation.mode?, hk]
  | filtering state =>
    rw [hx] at hmd
    obtain ⟨c, rest, entry, hc, hk, _⟩ := hmd
    obtain rfl : c = b := by simpa [hc] using hb
    simp [Activation.mode?, hk]
  | throwing => simp [hx] at hm
  | searching => simp [hx] at hm
  | unwinding => simp [hx] at hm

lemma step_endFinally (hs : s.frames = init ++ [f]) (hi : Executes f .endFinally)
    (hm : s.exceptionMode = .executingHandler u) (e : Effects Ty) :
    step host s (.dispatch e) = .ok ((snapshot s f).setMode (.unwinding u)) := by
  simp only [step, hm, stepNormal, hs, List.getLast?_concat,
    hi.1, hi.2, execute, endFinally]
  simp [snapshot, ThreadContext.setMode, hs]

/-- The mode an evaluated filter continues in is that of its own search. -/
def Resumes (state : FilterState) (mode : ExceptionState) : Prop :=
  mode = .searching
      { exception := state.exception
        cursor := state.handler.nextHandler
        nestedFilter := none } ∨
    ∃ cursor, mode = .unwinding
      { exception := some state.exception
        target := .handler state.handler
        cursor := cursor
        nestedFilter := none }

lemma resumes_afterFilter (s : ThreadContext Ty) (state : FilterState) (result : Int) :
    Resumes state (afterFilter s state result) := by
  unfold afterFilter
  split
  · exact .inr ⟨_, rfl⟩
  · exact .inl rfl

lemma step_endFilter {state : FilterState} (hs : s.frames = init ++ [f])
    (hi : Executes f .endFilter) (hm : s.exceptionMode = .filtering state)
    (h : step host s (.dispatch e) = .ok s') : Resumes state s'.exceptionMode := by
  rcases step_dispatch_cases h with ⟨_, init', f', hs', hstep⟩ | ⟨hnot, _⟩
  · obtain ⟨rfl, rfl⟩ := List.append_singleton_inj.mp (hs.symm.trans hs')
    obtain ⟨result, t, hpop, hend⟩ := hstep.leavesHandler hi
    obtain ⟨hq, _⟩ := popSafe_local (s := snapshot s f) hs hpop
    obtain ⟨st, restored, hst, _, _, rfl⟩ := endFilter_eq hend
    have hmd := hst.symm.trans hq.mode
    rw [snapshot_mode, hm] at hmd
    obtain rfl := ExceptionState.filtering.inj hmd
    exact resumes_afterFilter restored st result
  · simp [hm] at hnot

/-- While instructions execute, the mode is the one the innermost finally, fault or filter body was
entered with; so at its end the body resumes its own unwind or its own search. -/
theorem body_end_in_own_mode (h : TrackedRun host Disciplined s a)
    (hm : s.exceptionMode.isNormal = true) (hs : s.frames = init ++ [f])
    (hb : (bodies a.live).head? = some b) :
    b.mode? = some s.exceptionMode ∧
      (∀ u interrupted, b.kind = .cleanup u interrupted → Executes f .endFinally →
        ∀ e, ∃ s', step host s (.dispatch e) = .ok s' ∧ s'.exceptionMode = .unwinding u) ∧
      (∀ state entry, b.kind = .clause state entry → Executes f .endFilter →
        ∀ e s', step host s (.dispatch e) = .ok s' → Resumes state s'.exceptionMode) := by
  have hmd := (Coherent.run h).mode_of_head hm hb
  refine ⟨hmd, fun u interrupted hk hfin e => ?_, fun state entry hk hfil e s' hst => ?_⟩
  · rw [Activation.mode?, hk] at hmd
    exact ⟨_, step_endFinally hs hfin (Option.some.inj hmd).symm e, rfl⟩
  · rw [Activation.mode?, hk] at hmd
    exact step_endFilter hs hfil (Option.some.inj hmd).symm hst

/-- `{ leave L; L: ret }`, called from a finally body. -/
def leavingCallee : MethodInfo Unit where
  instructions := [.leave (.short 1), .ret]

/-- `try { leave } finally { call }`. -/
def callInFinally : MethodInfo Unit where
  instructions := [.leave (.short 3), .op, .endFinally, .ret]
  exceptions := [⟨⟨0, 1⟩, [⟨⟨1, 3⟩, .finallyClause⟩]⟩]

/-- The unwind of the `leave`, past the finally handler. -/
def callInFinallyUnwind : UnwindState := ⟨none, .instruction 3, ⟨0, 1, 0⟩, none⟩

def callInFinallyBody : Activation Unit := ⟨⟨0, 0, 0⟩, ⟨1, 3⟩, .cleanup callInFinallyUnwind false⟩

def callInFinallyEnd : ThreadContext Unit :=
  { entrypoint callInFinally [] with
    frames := [{ StackFrame.new ⟨0, 0, 0⟩ callInFinally with ip := 2 }]
    exceptionMode := .executingHandler callInFinallyUnwind
    originalIp := 1 }

lemma disciplined_callInFinally :
    TrackedRun unitHost Disciplined callInFinallyEnd ⟨[callInFinallyBody], []⟩ :=
  TrackedRun.of_guarded callInFinally [] [.dispatch {}, .dispatch {},
    .dispatch { result := .call leavingCallee none }, .dispatch {}, .dispatch {}, .dispatch {}]
    (by decide) rfl

theorem callInFinally_ends_in_own_mode :
    callInFinallyBody.mode? = some callInFinallyEnd.exceptionMode :=
  (body_end_in_own_mode disciplined_callInFinally rfl (List.nil_append _).symm rfl).1

def leaveInFinally : MethodInfo Unit where
  instructions := [.leave (.short 4), .leave (.short 3), .leave (.short 3), .endFinally, .ret]
  exceptions := [⟨⟨1, 2⟩, [⟨⟨2, 3⟩, .catchClause ()⟩]⟩, ⟨⟨0, 1⟩, [⟨⟨1, 4⟩, .finallyClause⟩]⟩]

def leaveInFinallyUnwind : UnwindState := ⟨none, .instruction 4, ⟨0, 2, 0⟩, none⟩

/-- A finally body executes in `ExecutingHandler(u)`; after a try block of its own has been left it
is at its `endfinally` in mode `None`, and the `endfinally` is rejected. -/
theorem leave_in_finally_loses_mode : ∃ s a t, ∃ b : Activation Unit,
    TrackedRun unitHost Runs.anyStep s a ∧
      s.exceptionMode = .executingHandler leaveInFinallyUnwind ∧
      (bodies a.live).head? = some b ∧ b.kind = .cleanup leaveInFinallyUnwind false ∧
      Runs.exec (trackedNext unitHost) (s, a) [.dispatch {}, .dispatch {}] = some (t, a) ∧
      (∃ f, t.frames = [f] ∧ Executes f .endFinally) ∧ t.exceptionMode = .none ∧
      step unitHost t (.dispatch {}) =
        .error (.error (.invalidCil "endfinally called outside of handler")) :=
  ⟨_, _, _, _, TrackedRun.of_exec leaveInFinally [] [.dispatch {}, .dispatch {}] rfl, rfl, rfl, rfl,
    rfl, ⟨_, rfl, rfl, rfl⟩, rfl, rfl⟩

/-- The saved unwinds are, innermost first, those of the live finally and fault bodies a `leave`
interrupted; the one a completed `leave` takes is that of a live body. -/
theorem saved_unwinds_of_live_bodies (h : TrackedRun host Disciplined s a) :
    s.continuation.unwinds = interruptedUnwinds a.live ∧
      ∀ w, s.continuation.popHandlerUnwind.1 = some w →
        ∃ b ∈ a.live, b.kind = .cleanup w true ∧ b.frameIndex < s.frames.length := by
  have hc := Coherent.run h
  refine ⟨hc.saved, fun w hw => ?_⟩
  have hmem : w ∈ interruptedUnwinds a.live := by
    rw [← hc.saved]
    exact List.mem_of_head? (by rw [← hw, popHandlerUnwind_fst])
  obtain ⟨b, hb, hk⟩ := List.mem_filterMap.mp hmem
  exact ⟨b, hb, interrupted?_eq_some.mp hk, hc.within b hb⟩

def callInFinallySaved : ThreadContext Unit :=
  { entrypoint callInFinally [] with
    frames := [{ StackFrame.new ⟨0, 0, 0⟩ callInFinally with ip := 1 },
      StackFrame.new ⟨0, 0, 0⟩ leavingCallee]
    exceptionMode := .unwinding ⟨none, .instruction 1, ⟨1, 0, 0⟩, none⟩
    continuation := .handlerUnwinds [callInFinallyUnwind] }

theorem saved_unwind_of_callInFinally : callInFinallySaved.continuation.unwinds =
      interruptedUnwinds [callInFinallyBody.setInterrupted true] :=
  have hrun : TrackedRun unitHost Disciplined callInFinallySaved
      ⟨[callInFinallyBody.setInterrupted true], []⟩ :=
    TrackedRun.of_guarded callInFinally [] [.dispatch {}, .dispatch {},
      .dispatch { result := .call leavingCallee none }, .dispatch {}] (by decide) rfl
  (saved_unwinds_of_live_bodies hrun).1

/-- `try { leave } finally { throw X }`. -/
def throwInFinally : MethodInfo Unit where
  instructions := [.leave (.short 3), .op, .endFinally, .ret]
  exceptions := [⟨⟨0, 1⟩, [⟨⟨1, 3⟩, .finallyClause⟩]⟩]

def catchAroundFinally : MethodInfo Unit where
  instructions := [.leave (.short 4), .op, .endFinally, .leave (.short 4), .ret]
  exceptions := [⟨⟨0, 1⟩, [⟨⟨1, 3⟩, .finallyClause⟩]⟩, ⟨⟨0, 3⟩, [⟨⟨3, 4⟩, .catchClause ()⟩]⟩]

def catchAroundFinallyUnwind : UnwindState := ⟨none, .instruction 4, ⟨0, 1, 0⟩, none⟩

/-- The exception abandons both the `leave` of the callee and the finally body it interrupted,
and is caught; the unwind of that body is still saved, and the catch handler's own `leave`
resumes it. -/
theorem abandoned_unwind_resumed : ∃ s a t b,
    TrackedRun unitHost Runs.anyStep s a ∧ bodies a.live = [] ∧
      s.continuation.unwinds = [catchAroundFinallyUnwind] ∧
      Runs.exec (trackedNext unitHost) (s, a) [.dispatch {}, .dispatch {}] = some (t, b) ∧
      b.live = [] ∧ t.exceptionMode = .executingHandler catchAroundFinallyUnwind :=
  ⟨_, _, _, _, TrackedRun.of_exec catchAroundFinally [] [.dispatch {}, .dispatch {},
    .dispatch { result := .call throwInFinally none }, .dispatch {}, .dispatch {},
    .dispatch { result := .raise (some 1) }, .dispatch {}, .dispatch {}, .dispatch {}] rfl,
    rfl, rfl, rfl, rfl, rfl⟩

end DotnetVm
