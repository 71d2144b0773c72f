import DotnetVm.Exceptions.Resumption
import DotnetVm.Stack.Balance

/-!
# What a filter exit restores

While a filter runs, the frames and slots above its frame are suspended. Along
disciplined and balanced runs its `endfilter` puts back exactly these, on a
frame and slots that are those of its entry but for the variables the filter
assigned. An exception thrown and caught inside the filter loses them.
-/

namespace DotnetVm

open List Option ThreadContext

variable {Ty : Type} {host : Host Ty} {s s' t : ThreadContext Ty} {a : Activations Ty}
  {f : StackFrame Ty} {init : List (StackFrame Ty)} {e : Effects Ty} {b : Activation Ty}
  {state : FilterState} {entry : ThreadContext Ty}

/-- The frame a filter ends in has the pending return action it was entered with. -/
def KeepsPendingAction (p : ThreadContext Ty × Activations Ty) : Event Ty → Prop
  | .dispatch _ => ∀ f ∈ p.1.frames.getLast?, f.info.instructions[f.ip]? = some .endFilter →
      ∀ b ∈ (bodies p.2.live).head?,
        match b.kind with
        | .clause state entry =>
          (entry.frames[state.handler.frameIndex]?).map StackFrame.frameContinuation =
            some f.frameContinuation
        | _ => True
  | .finalizer _ _ | .resume => True

instance (p : ThreadContext Ty × Activations Ty) (ev : Event Ty) :
    Decidable (KeepsPendingAction p ev) := by
  have (b : Activation Ty) (f : StackFrame Ty) : Decidable (match b.kind with
      | .clause state entry =>
        (entry.frames[state.handler.frameIndex]?).map StackFrame.frameContinuation =
          some f.frameContinuation
      | _ => True) := by
    generalize b.kind = kind
    exact match kind with
      | .clause _ _ | .caught _ | .cleanup _ _ => by
        dsimp only
        infer_instance
  unfold KeepsPendingAction
  exact match ev with
    | .dispatch _ | .finalizer _ _ | .resume => by
      dsimp only
      infer_instance

/-- The steps of runs on which filters give back what they suspended. -/
def FilterSafe (p : ThreadContext Ty × Activations Ty) (ev : Event Ty) : Prop :=
  Disciplined p ev ∧ Balanced p.1 ev ∧ KeepsPendingAction p ev

instance [DecidableEq Ty] (p : ThreadContext Ty × Activations Ty) (ev : Event Ty) :
    Decidable (FilterSafe p ev) := inferInstanceAs (Decidable (_ ∧ _))

structure Intact (state : FilterState) (entry s : ThreadContext Ty) : Prop where
  exists_frame : ∃ g₀ g ip, entry.frames[state.handler.frameIndex]? = some g₀ ∧
    s.frames[state.handler.frameIndex]? = some g ∧
    SameFrame { g₀ with ip := ip, exceptionStack := state.exception :: g₀.exceptionStack } g ∧
    state.originalIp = g₀.ip ∧ state.originalStackHeight = g₀.base.stack + g₀.stackHeight ∧
    s.suspendedStack = entry.stack.drop g₀.base.stack ∧ Below g₀.base.arguments entry s
  lower : s.frames.take state.handler.frameIndex = entry.frames.take state.handler.frameIndex
  suspendedFrames : s.suspendedFrames = entry.frames.drop (state.handler.frameIndex + 1)

/-- Steps the filter's frame survives. -/
lemma Intact.survives (hi : Intact state entry s) (hq : Quiet s s')
    (hsurv : FrameSurvives state.handler.frameIndex s s') : Intact state entry s' := by
  obtain ⟨g₀, g, ip, hg₀, hg, hsm, hip, hht, hstk, hbel⟩ := hi.exists_frame
  obtain ⟨g', ip', hg', hsm'⟩ := hsurv.frame g hg
  refine ⟨⟨g₀, g', ip', hg₀, hg', ?_, hip, hht, hq.suspendedStack.trans hstk, ?_⟩,
    hsurv.lower.trans hi.lower, hq.suspendedFrames.trans hi.suspendedFrames⟩
  · exact (hsm.atIp ip').trans hsm'
  · have hsurvb := hsurv.below g hg
    rw [show g.base = g₀.base from hsm.base] at hsurvb
    exact hbel.trans hsurvb

lemma filterEntered_intact {x : ObjectRef} {addr : HandlerAddress} {clauseOffset : Nat}
    {low high : List (StackFrame Ty)} (ht : Tiled s) (hs : s.frames = low ++ f :: high)
    (hlow : low.length = addr.frameIndex) (hbase : f.base.stack ≤ s.stack.length)
    (hm : (filterEntered s x addr clauseOffset low high f).exceptionMode = .filtering state) :
    Intact state s (filterEntered s x addr clauseOffset low high f) := by
  obtain rfl := ExceptionState.filtering.inj hm
  have htile := ht.frames
  simp only [hs, Tiling.tiles_append] at htile
  have hlocals := htile.2.1.locals
  have hstk := htile.2.1.stack
  refine ⟨⟨f, { f with
      ip := clauseOffset, stackHeight := 1, exceptionStack := x :: f.exceptionStack }, clauseOffset,
      ?_, ?_, ⟨rfl, rfl, rfl, rfl, rfl, rfl, rfl⟩, rfl, rfl, rfl, ?_⟩, ?_, ?_⟩
  · rw [hs, ← hlow]; simp
  · simp only [filterEntered, ← hlow]; simp
  · unfold Below
    simp only [filterEntered]
    rw [take_append_of_le_length (by rw [length_take]; omega), take_take,
      min_eq_left (by omega)]
  · simp only [filterEntered, hs, ← hlow]; simp
  · simp only [filterEntered, hs, ← hlow]; simp

def FilterIntact (s : ThreadContext Ty) (a : Activations Ty) : Prop :=
  ∀ b state entry, (bodies a.live).head? = some b → b.kind = .clause state entry →
    s.exceptionMode = .filtering state → Intact state entry s

lemma filterIntact_of_mode (h : ∀ state, s.exceptionMode ≠ .filtering state) :
    FilterIntact s a := fun _ state _ _ _ hm => absurd hm (h state)

lemma head_bodies_popTo {count : Nat} {c : Activation Ty} {as : List (Activation Ty)}
    (hb : (bodies as).head? = some b) (hc : (bodies (popTo count as)).head? = some c)
    (hidx : b.frameIndex = c.frameIndex) : b = c := by
  have hcnt : c.frameIndex < count := by
    have hmem := mem_bodies (mem_of_head? hc)
    exact (mem_popTo.mp hmem).2
  have hcomm : bodies (popTo count as) = popTo count (bodies as) := by
    exact filter_comm ..
  rw [hcomm] at hc
  cases hbs : bodies as with
  | nil => simp [hbs] at hb
  | cons d rest =>
    obtain rfl : d = b := by simpa [hbs] using hb
    rw [hbs, popTo, filter_cons_of_pos (by simp; omega)] at hc
    simpa using hc

lemma trackInstruction_popTo (hm : s'.exceptionMode = .filtering state) (h : NormalStep f e s s') :
    ∃ count, (trackInstruction a s f e s').live = popTo count a.live := by
  unfold trackInstruction
  split
  · next target hmc hi =>
    obtain rfl : s' = leave (snapshot s f) target := h.leavesHandler ⟨hmc, hi⟩
    cases hm
  · next hmc hi =>
    obtain ⟨u, _, rfl⟩ := h.leavesHandler ⟨hmc, hi⟩
    cases hm
  · next hmc hi => exact absurd ⟨hmc, hi⟩ (h.not_endFilter hm)
  all_goals exact ⟨_, rfl⟩

lemma Coherent.filter_head (hc : Coherent s a) (hm : s.exceptionMode = .filtering state) :
    ∃ b entry, (bodies a.live).head? = some b ∧ b.kind = .clause state entry ∧
      b.frameIndex = state.handler.frameIndex := by
  have hmd := hc.mode
  rw [hm] at hmd
  obtain ⟨b, rest, entry, hbs, hk, hidx, _⟩ := hmd
  exact ⟨b, entry, by rw [hbs]; rfl, hk, hidx⟩

/-- What the filter-safe steps keep. -/
structure FilterInvariant (s : ThreadContext Ty) (a : Activations Ty) : Prop where
  coherent : Coherent s a
  tiling : TilingInvariant s
  intact : FilterIntact s a

section

variable (hi : FilterInvariant s a)
include hi

lemma FilterInvariant.normalStep (hs : s.frames = init ++ [f])
    (hc' : Coherent s' (trackInstruction a s f e s')) (hb : BalancedInstruction s f e)
    (h : NormalStep f e s s') : FilterIntact s' (trackInstruction a s f e s') := by
  intro c state entry hhead hk hm'
  have hm := (h.modeChange hs).filtering hm'
  obtain ⟨b, _, hbhead, _, hbidx⟩ := hi.coherent.filter_head hm
  -- the innermost body after the step is the one before it
  obtain ⟨c', _, hchead, _, hcidx⟩ := hc'.filter_head hm'
  obtain rfl : c' = c := some.inj (hchead.symm.trans hhead)
  obtain ⟨count, hlive⟩ := trackInstruction_popTo hm' h
  rw [hlive] at hhead
  obtain rfl := head_bodies_popTo hbhead hhead (hbidx.trans hcidx.symm)
  have hintact := hi.intact b state entry hbhead hk hm
  have hend := h.not_endFilter hm'
  obtain ⟨g, hg, _⟩ := hi.tiling.suspended state hm
  have hle := le_of_lt_concat hs (List.getElem?_eq_some_iff.mp hg).1
  obtain ⟨hq, hsurv⟩ := (h.keeps hi.tiling.tiled hs hb hend).filter state hm hle (by rw [hm']; rfl)
  exact hintact.survives hq hsurv

lemma FilterInvariant.survives (hq : Quiet s s')
    (hsurv : ∀ state, s.exceptionMode = .filtering state →
      FrameSurvives state.handler.frameIndex s s') : FilterIntact s' a := by
  intro b state entry hhead hk hm
  rw [hq.mode] at hm
  exact (hi.intact b state entry hhead hk hm).survives hq (hsurv state hm)

lemma filterIntact_step {ev : Event Ty} (hb : Balanced s ev)
    (hc' : Coherent s' (track a s ev s')) (hstep : step host s ev = .ok s') :
    FilterIntact s' (track a s ev s') := by
  have hcase := step_cases hi.coherent.nested.mode hstep
  cases hcase with
  | normal e init f hm hs h =>
    rw [track_normal hm hs] at hc' ⊢
    exact hi.normalStep hs hc' (hb.instruction hm hs) h
  | throwing e x p hm h | accepted e state addr hm _ h =>
    subst h
    exact filterIntact_of_mode (by simp [setMode])
  | filter e search addr clauseOffset low frame high hm _ hs hlow hbase h =>
    subst h
    intro b state entry hhead hk hst
    simp only [track, hm] at hhead
    obtain rfl := some.inj hhead
    obtain ⟨rfl, rfl⟩ := ActivationKind.clause.inj hk
    exact filterEntered_intact hi.tiling.tiled hs hlow hbase hst
  | unwound e u hm h => exact filterIntact_of_mode h.mode_ne.2
  | returned e u t hm hw _ h =>
    have hmd := (handleReturn_quiet h).mode
    exact filterIntact_of_mode (by simp [hmd, setMode])
  | interposed info this init f hs hstep h =>
    obtain ⟨_, hbel⟩ := interposeFinalizer_tiled hi.tiling.tiled hs hstep
    refine hi.survives h.1 fun state hst => ?_
    obtain ⟨g, hg, _⟩ := hi.tiling.suspended state hst
    have hle := le_of_lt_concat hs (List.getElem?_eq_some_iff.mp hg).1
    exact h.survives hi.tiling.tiled hs hbel hle
  | deferred info this h =>
    subst h
    exact hi.intact
  | resume k hk h =>
    subst h
    exact hi.survives ⟨rfl, hk, rfl, rfl⟩ fun state _ =>
      ⟨rfl, fun g hg => ⟨g, g.ip, hg, SameFrame.refl g⟩, fun _ _ => rfl⟩

end

lemma FilterInvariant.run (h : TrackedRun host FilterSafe s a) : FilterInvariant s a := by
  refine h.invariant ?_ ?_
  · intro info args
    exact ⟨coherent_entrypoint info args, tilingInvariant_entrypoint info args,
      filterIntact_of_mode (by simp [entrypoint])⟩
  · intro s a ev s' hi hok hst
    have hc' := coherent_step hi.coherent hok.1 hst
    exact ⟨hc', tilingInvariant_step hi.tiling hok.2.1 hst,
      filterIntact_step hi hok.2.1 hc' hst⟩

lemma filteredFrame_eq {g₀ : StackFrame Ty} {ip height : Nat}
    (hsm : SameFrame { g₀ with ip := ip, exceptionStack := state.exception :: g₀.exceptionStack } f)
    (hip : state.originalIp = g₀.ip)
    (hht : state.originalStackHeight = g₀.base.stack + g₀.stackHeight)
    (hcont : g₀.frameContinuation = f.frameContinuation) :
    filteredFrame state { f with stackHeight := height } = g₀ := by
  obtain ⟨hbase, _, hinfo, hes, hfin, hmc, hctor⟩ := hsm
  obtain ⟨stackHeight, base, ip', info, exceptionStack, isFinalizer, mc, cont, ctor⟩ := f
  simp only at hbase hinfo hes hfin hmc hctor hcont
  subst hbase hinfo hes hfin hmc hctor
  simp [filteredFrame, hip, hht, ← hcont]

lemma step_endFilter_eq (host : Host Ty) {result : Int} (hs : s.frames = init ++ [f])
    (hi : Executes f .endFilter) (hm : s.exceptionMode = .filtering state)
    (hidx : state.handler.frameIndex = init.length) (hone : f.stackHeight = 1)
    (htop : s.stack.getLast? = some (.int32 result)) (e : Effects Ty) :
    ∃ s', step host s (.dispatch e) = .ok s' ∧
      s'.frames = init ++ filteredFrame state { f with stackHeight := 0 } :: s.suspendedFrames ∧
      s'.stack = s.stack.dropLast ++ s.suspendedStack ∧
      s'.exceptionMode = afterFilter s' state result := by
  have hpop : (snapshot s f).popSafe = .ok (.int32 result, { snapshot s f with
      stack := s.stack.dropLast, frames := init ++ [{ f with stackHeight := 0 }] }) := by
    simp [popSafe, onPopSafe, hs, hone, htop]
  have hexec : step host s (.dispatch e) = endFilter { snapshot s f with
      stack := s.stack.dropLast, frames := init ++ [{ f with stackHeight := 0 }] } result := by
    have hnorm : s.exceptionMode.isNormal = true := by rw [hm]; rfl
    have hlast : s.frames.getLast? = some f := by rw [hs]; exact getLast?_concat
    unfold snapshot at hpop ⊢
    simp [step, hnorm, stepNormal, hlast, hi.1, hi.2, execute, hpop]
  rw [hexec]
  unfold endFilter
  simp only [snapshot, hm, hidx, length_append, length_singleton, Nat.lt_succ_self]
  refine ⟨_, rfl, ?_, rfl, rfl⟩
  simp only [restoreSuspended, modifyFrame,
    modify_split, append_assoc]
  rfl

lemma Intact.frames_eq (hi : Intact state entry s) (hs : s.frames = init ++ [f])
    (hidx : state.handler.frameIndex = init.length)
    (hcont : entry.frames[state.handler.frameIndex]?.map StackFrame.frameContinuation =
      some f.frameContinuation) :
    init ++ filteredFrame state { f with stackHeight := 0 } :: s.suspendedFrames =
      entry.frames := by
  obtain ⟨g₀, g, ip, hg₀, hg, hsm, hip, hht, _⟩ := hi.exists_frame
  obtain rfl : f = g := by
    rw [hs, hidx] at hg
    simpa using hg
  have hcont' : g₀.frameContinuation = f.frameContinuation := by
    simpa [hg₀] using hcont
  have hlower : init = entry.frames.take init.length := by
    have hlow := hi.lower
    rw [hs, hidx] at hlow
    simpa using hlow
  have hspl : entry.frames.take init.length ++ g₀ :: entry.frames.drop (init.length + 1) =
      entry.frames := by
    rw [hidx] at hg₀
    obtain ⟨hlt, rfl⟩ := List.getElem?_eq_some_iff.mp hg₀
    rw [List.getElem_cons_drop, List.take_append_drop]
  rw [filteredFrame_eq hsm hip hht hcont', hi.suspendedFrames, hidx]
  rw [← hlower] at hspl
  exact hspl

lemma Intact.slots_eq (hi : Intact state entry s) (ht : Tiled s) (hs : s.frames = init ++ [f])
    (hidx : state.handler.frameIndex = init.length) (hone : f.stackHeight = 1) :
    s.stack.dropLast ++ s.suspendedStack = entry.stack.take f.base.arguments ++
      (s.stack.take f.base.stack).drop f.base.arguments ++ entry.stack.drop f.base.stack := by
  obtain ⟨g₀, g, ip, hg₀, hg, hsm, _, _, hsusp, hbel⟩ := hi.exists_frame
  obtain rfl : f = g := by
    rw [hs, hidx] at hg
    simpa using hg
  have hbase : f.base = g₀.base := hsm.base
  obtain ⟨_, hfit, hlen⟩ := (tiled_concat hs).mp ht
  have hlocals := hfit.locals
  have hstk := hfit.stack
  simp only [StackFrame.top, hone] at hlen
  have hargs : entry.stack.take f.base.arguments =
      (s.stack.take f.base.stack).take f.base.arguments := by
    rw [take_take, min_eq_left (by omega), hbase]
    exact hbel.symm
  rw [hsusp, ← hbase, hargs, take_append_drop, dropLast_eq_take, ← hlen,
    Nat.add_sub_cancel]

/-- On a filter-safe run the `endfilter` of the innermost filter completes and leaves the frames and
the operands its entry found: those suspended for it and those below. Only its own frame's arguments
and locals are as the filter assigned them. -/
theorem filter_exit_restores_entry {result : Int} (h : TrackedRun host FilterSafe s a)
    (hok : FilterSafe (s, a) (.dispatch e)) (hm : s.exceptionMode.isNormal = true)
    (hs : s.frames = init ++ [f]) (hi : Executes f .endFilter)
    (hb : (bodies a.live).head? = some b) (hk : b.kind = .clause state entry)
    (htop : s.stack.getLast? = some (.int32 result)) :
    ∃ s', step host s (.dispatch e) = .ok s' ∧ s'.frames = entry.frames ∧
      s'.stack = entry.stack.take f.base.arguments ++
        (s.stack.take f.base.stack).drop f.base.arguments ++ entry.stack.drop f.base.stack ∧
      ((s.stack.take f.base.stack).drop f.base.arguments =
        (entry.stack.take f.base.stack).drop f.base.arguments → s'.stack = entry.stack) := by
  obtain ⟨hc, ht, hintact⟩ := FilterInvariant.run h
  have hfilt : s.exceptionMode = .filtering state := by
    have hmd := hc.mode_of_head hm hb
    rw [Activation.mode?, hk] at hmd
    exact (some.inj hmd).symm
  have hends : state.handler.frameIndex + 1 = s.frames.length ∧ f.stackHeight = 1 := by
    have hbal := hok.2.1.instruction hm hs
    simpa only [BalancedInstruction, hi.1, hi.2, EndsFilter, hfilt] using hbal
  have hpend := hok.2.2 f (by simp [hs]) hi.2 b (by simp [hb])
  rw [hk] at hpend
  have hidx : state.handler.frameIndex = init.length := by simpa [hs] using hends.1
  have hin := hintact b state entry hb hk hfilt
  obtain ⟨s', hst, hfs, hstk, _⟩ := step_endFilter_eq host hs hi hfilt hidx hends.2 htop e
  have hsl := hin.slots_eq ht.tiled hs hidx hends.2
  refine ⟨s', hst, hfs.trans (hin.frames_eq hs hidx hpend), hstk.trans hsl,
    fun hvars => ?_⟩
  have hargs : f.base.arguments ≤ f.base.stack := by
    obtain ⟨_, hfit, _⟩ := (tiled_concat hs).mp ht.tiled
    exact le_trans hfit.locals hfit.stack
  have htake : entry.stack.take f.base.arguments =
      (entry.stack.take f.base.stack).take f.base.arguments := by
    rw [take_take, min_eq_left hargs]
  rw [hstk, hsl, hvars, htake, take_append_drop, take_append_drop]

/-- `{ throw E }`, called in a try block. -/
def throwingCallee : MethodInfo Unit where
  instructions := [.op]

def assigningFilter : MethodInfo Unit where
  instructions := [.op, .op, .leave (.short 6), .op, .endFilter, .leave (.short 6), .ret]
  locals := [.int32 0]
  exceptions := [⟨⟨0, 3⟩, [⟨⟨5, 6⟩, .filterClause 3⟩]⟩]

def assigningFilterState : FilterState := ⟨some 1, ⟨0, 0, 0⟩, 1, 2⟩

def assigningFilterEntry : ThreadContext Unit :=
  { entrypoint assigningFilter [] with
    stack := [.int32 0, .int32 7]
    frames := [{ StackFrame.new ⟨0, 0, 1⟩ assigningFilter with ip := 1, stackHeight := 1 },
      StackFrame.new ⟨2, 2, 2⟩ throwingCallee]
    exceptionMode := .searching ⟨some 1, ⟨1, 0, 0⟩, none⟩
    originalIp := 0
    originalStackHeight := 2 }

def assigningFilterBody : Activation Unit :=
  ⟨⟨0, 0, 0⟩, ⟨3, 5⟩, .clause assigningFilterState assigningFilterEntry⟩

/-- The filter is about to accept. -/
def assigningFilterEnd : ThreadContext Unit :=
  { assigningFilterEntry with
    stack := [.int32 3, .int32 1]
    frames := [{ StackFrame.new ⟨0, 0, 1⟩ assigningFilter with
      ip := 4, stackHeight := 1, exceptionStack := [some 1] }]
    exceptionMode := .filtering assigningFilterState
    suspendedStack := [.int32 7]
    suspendedFrames := [StackFrame.new ⟨2, 2, 2⟩ throwingCallee]
    originalIp := 3 }

theorem assigningFilter_exit_restores_entry :
    ∃ s', step unitHost assigningFilterEnd (.dispatch {}) = .ok s' ∧
      s'.frames = assigningFilterEntry.frames ∧ s'.stack = [.int32 3, .int32 7] := by
  have hrun : TrackedRun unitHost FilterSafe assigningFilterEnd ⟨[assigningFilterBody], []⟩ :=
    TrackedRun.of_guarded assigningFilter [] [.dispatch { ops := [.push (.int32 7)] },
      .dispatch { result := .call throwingCallee none }, .dispatch { result := .raise (some 1) },
      .dispatch {}, .dispatch {},
      .dispatch { ops := [.pop, .setLocal 0 (.int32 3), .push (.int32 1)] }] (by decide) rfl
  obtain ⟨s', hst, hfs, hstk, _⟩ := filter_exit_restores_entry (e := {})
    hrun (by decide) rfl (nil_append _).symm ⟨rfl, rfl⟩ rfl rfl rfl
  exact ⟨s', hst, hfs, hstk⟩

def filteringCallee : MethodInfo Unit where
  instructions := [.op, .op, .endFilter, .leave (.short 4), .ret]
  exceptions := [⟨⟨0, 1⟩, [⟨⟨3, 4⟩, .filterClause 1⟩]⟩]

/-- `try { call } filter { call; 1 } { leave L } L: ret`. -/
def callingFilter : MethodInfo Unit where
  instructions := [.op, .leave (.short 6), .op, .op, .endFilter, .leave (.short 6), .ret]
  exceptions := [⟨⟨0, 2⟩, [⟨⟨5, 6⟩, .filterClause 2⟩]⟩]

/-- The method the filter calls accepts an exception in a filter of its own. The frame that was
suspended for the outer filter is lost, and its `endfilter` is rejected. -/
theorem nested_filter_loses_suspended : ∃ s a t, ∃ state entry, ∃ b : Activation Unit,
    TrackedRun unitHost Runs.anyStep s a ∧ (bodies a.live).head? = some b ∧
      b.kind = .clause state entry ∧ s.exceptionMode = .filtering state ∧
      s.suspendedFrames = entry.frames.drop 1 ∧ s.suspendedFrames.length = 1 ∧
      Runs.exec (trackedNext unitHost) (s, a) [ .dispatch { result := .call filteringCallee none },
        .dispatch { result := .raise (some 2) }, .dispatch {}, .dispatch {},
        .dispatch { ops := [.pop, .push (.int32 1)] }, .dispatch {}, .dispatch {}, .dispatch {},
        .dispatch {}, .dispatch {},
        .dispatch { ops := [.pop, .push (.int32 1)] }] = some (t, a) ∧
      (∃ f, t.frames = [f] ∧ Executes f .endFilter) ∧ t.suspendedFrames = [] ∧
      step unitHost t (.dispatch {}) =
        .error (.error (.invalidCil "EndFilter called but not in Filtering mode")) :=
  ⟨_, _, _, _, _, _, TrackedRun.of_exec callingFilter [] [
    .dispatch { result := .call throwingCallee none }, .dispatch { result := .raise (some 1) },
    .dispatch {}, .dispatch {}] rfl, rfl, rfl, rfl, rfl, rfl, rfl, ⟨_, rfl, rfl, rfl⟩, rfl, rfl⟩

end DotnetVm
