import DotnetVm.Stack.Tiling
import DotnetVm.Exceptions.NestedFilters

/-!
# Where the tiling survives the exception engine

Catch entry discards the operands of its frame together with their slots. Entry
into a finally or fault handler and the arrival of a `leave` only reset the
height. The tiling therefore survives exactly as long as these find no operands,
and a running filter keeps its frame.
-/

namespace DotnetVm

open List Tiling

variable {Ty : Type} {host : Host Ty} {s s' t : ThreadContext Ty} {f : StackFrame Ty}
  {init : List (StackFrame Ty)} {e : Effects Ty} {u : UnwindState}

/-- The unwind has a finally or fault handler of the frame at index `n` to run. -/
def runsCleanup (u : UnwindState) (n : Nat) (f : StackFrame Ty) : Bool :=
  (walkFrame u n f).2.isSome

/-- The unwind starts at the current frame, and the frames in which it runs a handler, or a `leave`
arrives, hold no operands. -/
def UnwindsEmpty (u : UnwindState) (frames : List (StackFrame Ty)) : Prop :=
  u.cursor.frameIndex + 1 = frames.length ∧
    (∀ p ∈ frames.zipIdx, u.targetFrame ≤ p.2 → runsCleanup u p.2 p.1 = true →
      p.1.stackHeight = 0) ∧
    match u.target with
    | .instruction ip => ip ≠ usizeMax → ∀ f ∈ frames.getLast?, f.stackHeight = 0
    | .handler _ => True

section

variable (s : ThreadContext Ty)

/-- The frame of a running filter is not the one about to be popped. -/
def AboveFilter : Prop :=
  match s.exceptionMode with
  | .filtering state => state.handler.frameIndex + 1 < s.frames.length ∧ ReturnsToCode s
  | _ => True

/-- A filter ends in its own frame, with its result as the only operand. -/
def EndsFilter (f : StackFrame Ty) : Prop :=
  match s.exceptionMode with
  | .filtering state => state.handler.frameIndex + 1 = s.frames.length ∧ f.stackHeight = 1
  | _ => True

def BalancedResult (e : Effects Ty) : Prop :=
  match e.result with
  | .retry => popCount e.ops ≤ pushCount e.ops
  | .tailCall _ | .jmp _ _ => AboveFilter s
  | _ => True

def BalancedInstruction (f : StackFrame Ty) (e : Effects Ty) : Prop :=
  match f.multicastState, f.info.instructions[f.ip]? with
  | some _, _ => e.result ≠ .retry ∧ AboveFilter s
  | none, some .op => BalancedResult s e
  | none, some .ret => AboveFilter s
  | none, some .endFilter => EndsFilter s f
  | none, _ => True

/-- The steps that keep the tiling. -/
def Balanced : Event Ty → Prop
  | .dispatch e =>
    match s.exceptionMode with
    | .unwinding u => UnwindsEmpty u s.frames
    | .throwing _ _ | .searching _ => True
    | .none | .filtering _ | .executingHandler _ =>
      ∀ f ∈ s.frames.getLast?, BalancedInstruction s f e
  | .finalizer _ _ | .resume => True

end

lemma Balanced.instruction (h : Balanced s (.dispatch e))
    (hm : s.exceptionMode.isNormal = true) (hs : s.frames = init ++ [f]) :
    BalancedInstruction s f e := by
  unfold Balanced at h
  cases hmd : s.exceptionMode <;> simp_all

section

variable [DecidableEq Ty]

instance (frames : List (StackFrame Ty)) (u : UnwindState) : Decidable (UnwindsEmpty u frames) := by
  unfold UnwindsEmpty
  generalize u.target = target
  exact match target with
    | .handler _ | .instruction _ => by
      dsimp only
      infer_instance

instance (s : ThreadContext Ty) : Decidable (AboveFilter s) := by
  unfold AboveFilter
  generalize s.exceptionMode = mode
  exact match mode with
    | .none | .throwing _ _ | .searching _ | .filtering _ | .executingHandler _ | .unwinding _ => by
      dsimp only
      infer_instance

instance (s : ThreadContext Ty) (f : StackFrame Ty) : Decidable (EndsFilter s f) := by
  unfold EndsFilter
  generalize s.exceptionMode = mode
  exact match mode with
    | .none | .throwing _ _ | .searching _ | .filtering _ | .executingHandler _ | .unwinding _ => by
      dsimp only
      infer_instance

instance (s : ThreadContext Ty) (e : Effects Ty) : Decidable (BalancedResult s e) := by
  unfold BalancedResult
  split <;> infer_instance

instance (s : ThreadContext Ty) (f : StackFrame Ty) (e : Effects Ty) :
    Decidable (BalancedInstruction s f e) := by
  unfold BalancedInstruction
  generalize f.multicastState = multicast, f.info.instructions[f.ip]? = instruction
  exact match multicast, instruction with
    | some _, _ | none, none | none, some .op | none, some .throw | none, some .rethrow
    | none, some (.leave _) | none, some .endFinally | none, some .endFilter | none, some .ret => by
      dsimp only
      infer_instance

instance (s : ThreadContext Ty) (ev : Event Ty) : Decidable (Balanced s ev) := by
  unfold Balanced
  generalize s.exceptionMode = mode
  exact match ev, mode with
    | .dispatch _, .none | .dispatch _, .throwing _ _ | .dispatch _, .searching _
    | .dispatch _, .filtering _ | .dispatch _, .executingHandler _ | .dispatch _, .unwinding _
    | .finalizer _ _, _ | .resume, _ => by
      dsimp only
      infer_instance

end

structure FrameSurvives (i : Nat) (s s' : ThreadContext Ty) : Prop where
  lower : s'.frames.take i = s.frames.take i
  frame : ∀ g, s.frames[i]? = some g →
    ∃ g' ip, s'.frames[i]? = some g' ∧ SameFrame { g with ip := ip } g'
  below : ∀ g, s.frames[i]? = some g → Below g.base.arguments s s'

variable {frames : List (StackFrame Ty)}

lemma boundary_le {p : Nat × Nat} (h : FramesTile p frames) : p.2 ≤ (frameEnd p frames).2 := by
  induction frames generalizing p with
  | nil => exact le_refl _
  | cons f frames ih =>
    have hfit := h.1
    have hrest := ih h.2
    have h₁ := hfit.arguments
    have h₂ := hfit.locals
    have h₃ := hfit.stack
    simp only [frameEnd, endOf_cons, StackFrame.boundary, StackFrame.top] at hrest ⊢
    omega

variable {g : StackFrame Ty}

/-- Lower frames begin lower. -/
lemma arguments_le {p : Nat × Nat} {i : Nat}
    (h : FramesTile p (frames ++ [f])) (hg : (frames ++ [f])[i]? = some g) :
    g.base.arguments ≤ f.base.arguments := by
  rcases getElem?_concat_cases hg with ⟨_, hg⟩ | ⟨rfl, rfl⟩
  · obtain ⟨low, high, rfl, _⟩ := exists_split hg
    simp only [append_assoc, cons_append, tiles_append, tiles_cons] at h
    obtain ⟨_, hfit, hhigh, hf, _⟩ := h
    have hle := boundary_le hhigh
    have h₁ := hfit.locals
    have h₂ := hfit.stack
    have h₃ := hf.arguments
    simp only [frameEnd, StackFrame.boundary, StackFrame.top] at hle h₃
    omega
  · exact le_refl _

variable {high rest : List (StackFrame Ty)}

lemma FrameSurvives.of_split {i ip : Nat}
    (ht : Tiled s) (hs : s.frames = init ++ f :: high) (hs' : s'.frames = init ++ g :: rest)
    (hsm : SameFrame { f with ip := ip } g) (hbel : Below f.base.arguments s s')
    (hi : i ≤ init.length) : FrameSurvives i s s' where
  lower := by rw [hs, hs', take_append_of_le_length hi, take_append_of_le_length hi]
  frame := by
    intro k hk
    rw [hs] at hk
    rw [hs']
    by_cases hlt : i < init.length
    · rw [getElem?_append_left hlt] at hk ⊢
      exact ⟨k, k.ip, hk, SameFrame.refl k⟩
    · obtain rfl : i = init.length := by omega
      obtain rfl : f = k := by simpa using hk
      exact ⟨g, ip, by simp, hsm⟩
  below := by
    intro k hk
    have htile := ht.frames
    rw [hs, append_cons] at htile hk
    have hlow : FramesTile (0, 0) (init ++ [f]) := (tiles_append.mp htile).1
    rw [getElem?_append_left (by simp; omega)] at hk
    exact hbel.mono (arguments_le hlow hk)

lemma Called.survives {i : Nat} (h : Called init f s s') (ht : Tiled s)
    (hs : s.frames = init ++ [f]) (hbel : Below f.base.arguments s s') (hi : i ≤ init.length) :
    FrameSurvives i s s' := by
  obtain ⟨_, f', n, hsm, _, hfs⟩ := h
  have hfs' : s'.frames = init ++ f' :: [n] := by rw [hfs]; simp
  have hsm' : SameFrame { f with ip := f.ip } f' := hsm
  exact .of_split ht hs hfs' hsm' hbel hi

lemma FrameSurvives.of_popped {i : Nat} (ht : Tiled s)
    (hs : s.frames = init ++ [f]) (hs' : s'.frames = init ++ rest)
    (hbel : Below f.base.arguments s s') (hi : i < init.length) : FrameSurvives i s s' where
  lower := by
    rw [hs, hs', take_append_of_le_length (by omega), take_append_of_le_length (by omega)]
  frame := by
    intro k hk
    rw [hs, getElem?_append_left hi] at hk
    exact ⟨k, k.ip, by rw [hs', getElem?_append_left hi]; exact hk, SameFrame.refl k⟩
  below := by
    intro k hk
    have htile := ht.frames
    rw [hs] at htile hk
    exact hbel.mono (arguments_le htile hk)

lemma OpMove.frames_append {result : OpResult Ty}
    (h : OpMove init f g result t s') : ∃ rest, s'.frames = init ++ rest := by
  cases h with
  | moved ip g' _ _ _ hfs => exact ⟨_, hfs⟩
  | raised x w _ hl h =>
    obtain ⟨_, g', _, hfs⟩ := hl
    subst h
    exact ⟨_, hfs⟩
  | called hc =>
    obtain ⟨_, g', n, _, _, hfs⟩ := hc
    exact ⟨[g', n], by simp [hfs]⟩
  | replaced _ hr =>
    obtain ⟨_, n, _, hfs⟩ := hr
    exact ⟨_, hfs⟩

variable {state : FilterState}

lemma AboveFilter.filtering (h : AboveFilter s) (hm : s.exceptionMode = .filtering state) :
    state.handler.frameIndex + 1 < s.frames.length ∧ ReturnsToCode s := by
  unfold AboveFilter at h
  rw [hm] at h
  exact h

lemma handleReturn_survives {data : ReturnData} (ht : Tiled s)
    (hs : s.frames = init ++ [f]) (ha : AboveFilter s) (hm : s.exceptionMode = .filtering state)
    (h : handleReturn s data = .ok s') :
    Quiet s s' ∧ FrameSurvives state.handler.frameIndex s s' := by
  obtain ⟨hlt, hcode⟩ := ha.filtering hm
  obtain ⟨lower, c, rfl⟩ := handleReturn_caller hs h
  obtain ⟨t, c', hret, hfs, hsm, hq, rfl⟩ :=
    handleReturn_concat hs ((returnsToCode_iff hs).mp hcode) h
  obtain ⟨_, hbel, _⟩ := returnFrame_kept ht hs hret
  refine ⟨⟨hq.mode, hq.unwinds, hq.suspendedStack, hq.suspendedFrames⟩, ?_⟩
  have hspl : s.frames = lower ++ c :: [f] := by rw [hs]; simp
  refine FrameSurvives.of_split ht hspl rfl (hsm.atIp _) hbel ?_
  simp only [hs, length_append, length_singleton] at hlt
  omega

/-- What an instruction that does not end a filter keeps. -/
structure StepKeeps (init : List (StackFrame Ty)) (s s' : ThreadContext Ty) : Prop where
  tiled : Tiled s'
  filter : ∀ state, s.exceptionMode = .filtering state →
    state.handler.frameIndex ≤ init.length → s'.exceptionMode.isNormal = true →
    Quiet s s' ∧ FrameSurvives state.handler.frameIndex s s'

lemma StepKeeps.of_engine (ht : Tiled s') (hm : s'.exceptionMode.isNormal = false) :
    StepKeeps init s s' := ⟨ht, fun _ _ _ hn => by rw [hm] at hn; cases hn⟩

variable {frame : StackFrame Ty}

variable {state : MulticastState}

variable {target : ObjectRef}

section

variable (ht : Tiled s) (hs : s.frames = init ++ [f])
include ht hs

lemma runOp_balanced (hb : BalancedResult s e) (h : runOp (snapshot s f) frame e = .ok s') :
    Tiled s' ∧ Below f.base.arguments s s' := by
  have hsnap : Tiled (snapshot s f) := ht.congr rfl rfl
  have hsnaps : (snapshot s f).frames = init ++ [f] := hs
  have hretry : e.result = .retry → (snapshot s f).originalStackHeight =
      (snapshot s f).stack.length ∧ popCount e.ops ≤ pushCount e.ops := by
    intro hr
    unfold BalancedResult at hb
    rw [hr] at hb
    exact ⟨rfl, hb⟩
  obtain ⟨htil, hbel⟩ := runOp_tiled hsnap hsnaps hretry h
  exact ⟨htil, hbel⟩

lemma StepKeeps.op (hb : BalancedResult s e) (hip : frame.ip = f.ip)
    (h : runOp (snapshot s f) frame e = .ok s') : StepKeeps init s s' := by
  have hsnaps : (snapshot s f).frames = init ++ [f] := hs
  obtain ⟨htil, hbel'⟩ := runOp_balanced ht hs hb h
  refine ⟨htil, fun state hm hi hn => ?_⟩
  have hmove := runOp_cases hsnaps hip.symm h
  cases hmove with
  | moved ip g _ hq hsm hfs =>
    exact ⟨(snapshot_quiet s f).trans hq, FrameSurvives.of_split ht hs hfs hsm hbel' hi⟩
  | raised x w _ _ hset => subst hset; cases hn
  | called hc =>
    have hcalled : Called init f s s' := ⟨(snapshot_quiet s f).trans hc.1, hc.2⟩
    exact ⟨hcalled.1, hcalled.survives ht hs hbel' hi⟩
  | replaced hr hrep =>
    obtain ⟨hq, n, _, hfs⟩ := hrep
    have habove : AboveFilter s := by
      unfold BalancedResult at hb
      cases hres : e.result <;> rw [hres] at hr hb <;> first | exact hb | cases hr
    obtain ⟨hlt, _⟩ := habove.filtering hm
    simp only [hs, length_append, length_singleton] at hlt
    exact ⟨(snapshot_quiet s f).trans hq, FrameSurvives.of_popped ht hs hfs hbel' (by omega)⟩

lemma discardResult_kept (h : discardResult s f state = .ok t) : ∃ g, Kept init f s t g := by
  unfold discardResult at h
  split at h
  · split at h
    · next v w hpop =>
      obtain rfl := Except.ok.inj h
      obtain ⟨height, _, _, hkept⟩ := popSafe_kept ht hs hpop
      exact ⟨_, hkept⟩
    · cases h
  · obtain rfl := Except.ok.inj h
    exact ⟨f, Kept.refl ht hs⟩

lemma multicast_balanced (hr : e.result ≠ .retry) (hd : discardResult s f state = .ok t)
    (h : runOp (invokeNext t state target) f e = .ok s') :
    Tiled s' ∧ Below f.base.arguments s s' ∧ ∃ g, Quiet s (invokeNext t state target) ∧
      OpMove init f g e.result (invokeNext t state target) s' := by
  obtain ⟨hq, g, hsm, hg⟩ := discardResult_quiet hs hd
  obtain ⟨g', hkept⟩ := discardResult_kept ht hs hd
  have hnext := invokeNext_concat hg state target
  have hfs := congrArg ThreadContext.frames hnext
  have hstk := congrArg ThreadContext.stack hnext
  obtain ⟨hinit, hfit, htop⟩ := (tiled_concat hg).mp hkept.tiled
  have hinvoked : Tiled (invokeNext t state target) := by
    refine Tiled.of_concat hfs hinit (hfit.of_eq rfl rfl) ?_
    rw [hstk]
    unfold StackFrame.top at htop ⊢
    simp only [length_append, length_cons]
    omega
  have hbase := hkept.tiled.base_le hg
  have hbel : Below g.base.arguments t (invokeNext t state target) := by
    unfold Below
    rw [hstk, take_append_of_le_length (by omega)]
  obtain ⟨htil, hbel'⟩ := runOp_tiled hinvoked hfs (fun hretry => absurd hretry hr) h
  have hrest : Below g.base.arguments t s' := hbel.trans hbel'
  refine ⟨htil, hkept.below.trans (hsm.base ▸ hrest), _, ?_, runOp_cases hfs hsm.ip h⟩
  rw [hnext]
  exact hq.trans ⟨rfl, rfl, rfl, rfl⟩

lemma StepKeeps.multicast (hr : e.result ≠ .retry) (ha : AboveFilter s)
    (hd : discardResult s f state = .ok t) (h : runOp (invokeNext t state target) f e = .ok s') :
    StepKeeps init s s' := by
  obtain ⟨htil, hbel, _, hinvokedq, hmove⟩ := multicast_balanced ht hs hr hd h
  refine ⟨htil, fun st hm hi hn => ?_⟩
  obtain ⟨hlt, _⟩ := ha.filtering hm
  simp only [hs, length_append, length_singleton] at hlt
  obtain ⟨rest, hrest⟩ := hmove.frames_append
  have hqt : Quiet s s' := by
    cases hmove with
    | moved ip k _ hq' _ _ => exact hinvokedq.trans hq'
    | raised x w _ _ hset => subst hset; cases hn
    | called hc => exact hinvokedq.trans hc.1
    | replaced _ hrep => exact hinvokedq.trans hrep.1
  exact ⟨hqt, FrameSurvives.of_popped ht hs hrest hbel (by omega)⟩

lemma NormalStep.keeps (hb : BalancedInstruction s f e) (hend : ¬ Executes f .endFilter)
    (h : NormalStep f e s s') : StepKeeps init s s' := by
  have hsnap : Tiled (snapshot s f) := ht.congr rfl rfl
  have hsnaps : (snapshot s f).frames = init ++ [f] := hs
  unfold BalancedInstruction at hb
  cases h with
  | leave _ _ h | endFinally _ _ _ h | rethrow _ _ _ _ h | retUnwind _ _ _ h =>
    subst h; exact .of_engine (ht.congr rfl rfl) rfl
  | endFilter result t hi _ _ => exact absurd hi hend
  | throw v t _ hpop h =>
    obtain ⟨_, _, _, hkept⟩ := popSafe_kept hsnap hsnaps hpop
    obtain ⟨y, rfl⟩ := throwValue_eq h
    exact .of_engine (hkept.tiled.congr rfl rfl) rfl
  | retReturn hi _ _ h =>
    simp only [hi.1, hi.2] at hb
    refine ⟨handleReturn_tiled hsnap h, fun state hm _ _ => ?_⟩
    obtain ⟨hq, hsurv⟩ := handleReturn_survives hsnap hsnaps hb hm h
    exact ⟨(snapshot_quiet s f).trans hq, hsurv.lower, hsurv.frame, hsurv.below⟩
  | op hi h =>
    simp only [hi.1, hi.2] at hb
    exact .op ht hs hb rfl h
  | multicast state target t hmc hd h =>
    simp only [hmc] at hb
    exact .multicast ht hs hb.1 hb.2 hd h
  | multicastReturn state hmc h =>
    simp only [hmc] at hb
    exact ⟨handleReturn_tiled ht h, fun st hm _ _ => handleReturn_survives ht hs hb.2 hm h⟩

end

/-- The suspended frames tile the suspended slots, beginning where the operands of the filter's
frame ended. -/
structure SuspendedTiled (state : FilterState) (s : ThreadContext Ty) (base : Nat) : Prop where
  base_le : base ≤ state.originalStackHeight
  frames : FramesTile (base, state.originalStackHeight) s.suspendedFrames
  length : (frameEnd (base, state.originalStackHeight) s.suspendedFrames).2 =
    base + s.suspendedStack.length

/-- What the balanced steps keep. -/
structure TilingInvariant (s : ThreadContext Ty) : Prop where
  nested : NestedFree s
  tiled : Tiled s
  suspended : ∀ state, s.exceptionMode = .filtering state →
    ∃ g, s.frames[state.handler.frameIndex]? = some g ∧ SuspendedTiled state s g.base.stack

lemma TilingInvariant.of_engine (hn : NestedFree s) (ht : Tiled s)
    (hm : ∀ state, s.exceptionMode ≠ .filtering state) : TilingInvariant s :=
  ⟨hn, ht, fun state hst => absurd hst (hm state)⟩

lemma tilingInvariant_entrypoint (info : MethodInfo Ty) (args : List StackValue) :
    TilingInvariant (entrypoint info args) := by
  refine .of_engine (nestedFree_entrypoint info args) ?_ (by simp [entrypoint])
  have hfs : (entrypoint info args).frames = [] ++ [StackFrame.new
      ⟨0, args.length, args.length + info.locals.length⟩ info] := rfl
  refine Tiled.of_concat hfs tiles_nil ?_ (by simp [StackFrame.top, StackFrame.new, entrypoint])
  exact ⟨rfl, Nat.zero_le _, Nat.le_add_right _ _, by simp [StackFrame.new]⟩

section

variable (hi : TilingInvariant s)
include hi

lemma TilingInvariant.survives (hn : NestedFree s') (ht : Tiled s') (hq : Quiet s s')
    (hsurv : ∀ state, s.exceptionMode = .filtering state →
      FrameSurvives state.handler.frameIndex s s') : TilingInvariant s' := by
  refine ⟨hn, ht, fun state hm => ?_⟩
  rw [hq.mode] at hm
  obtain ⟨g, hg, hsusp⟩ := hi.suspended state hm
  obtain ⟨g', ip, hg', hsm⟩ := (hsurv state hm).frame g hg
  refine ⟨g', hg', ?_⟩
  rw [show g'.base = g.base from hsm.base]
  exact ⟨hsusp.base_le, by rw [hq.suspendedFrames]; exact hsusp.frames,
    by rw [hq.suspendedFrames, hq.suspendedStack]; exact hsusp.length⟩

lemma TilingInvariant.endFilter {result : Int} {v : StackValue} (hs : s.frames = init ++ [f])
    (hb : EndsFilter s f) (hn : NestedFree s') (hpop : (snapshot s f).popSafe = .ok (v, t))
    (h : endFilter t result = .ok s') : TilingInvariant s' := by
  have hsnap : Tiled (snapshot s f) := hi.tiled.congr rfl rfl
  obtain ⟨height, hht, hstk, hkept⟩ :=
    popSafe_kept hsnap hs hpop
  obtain ⟨hq, _⟩ := popSafe_local (s := snapshot s f) hs hpop
  obtain ⟨state, restored, hm, hlt, hrest, rfl⟩ := endFilter_eq h
  have hm' : s.exceptionMode = .filtering state := by rw [← hm, hq.mode]; rfl
  unfold EndsFilter at hb
  rw [hm'] at hb
  obtain ⟨hidx, hone⟩ := hb
  obtain ⟨g, hg, hsusp⟩ := hi.suspended state hm'
  have hlen : state.handler.frameIndex = init.length := by simpa [hs] using hidx
  obtain rfl : f = g := by
    rw [hs, hlen] at hg
    simpa using hg
  obtain ⟨hinit, hfit, htop⟩ := (tiled_concat hkept.frames).mp hkept.tiled
  have hbase := hsusp.base_le
  have hfs : restored.frames = init ++ filteredFrame state { f with stackHeight := height } ::
      t.suspendedFrames := by
    rw [hrest]
    simp only [ThreadContext.restoreSuspended, ThreadContext.modifyFrame, hkept.frames, hlen,
      modify_split]
    simp
  have hstk' : restored.stack = t.stack ++ t.suspendedStack := by rw [hrest]; rfl
  have hboundary : (filteredFrame state { f with stackHeight := height }).boundary =
      (f.base.stack, state.originalStackHeight) := by
    simp only [StackFrame.boundary, StackFrame.top, filteredFrame, Prod.mk.injEq, true_and]
    omega
  have hsf : t.suspendedFrames = s.suspendedFrames := hq.suspendedFrames
  have hss : t.suspendedStack = s.suspendedStack := hq.suspendedStack
  have htil : Tiled restored := by
    constructor
    · rw [hfs]
      simp only [tiles_append, tiles_cons, hboundary, hsf]
      exact ⟨hinit, hfit.of_eq rfl rfl, hsusp.frames⟩
    · rw [hfs, hstk']
      have hend := hsusp.length
      unfold StackFrame.top at htop
      simp only [endOf_append, endOf_cons, hboundary, hsf, hss, length_append, hend]
      simp only at htop
      omega
  exact .of_engine hn (htil.congr rfl rfl) (afterFilter_ne_filtering restored state result)

lemma TilingInvariant.normalStep (hs : s.frames = init ++ [f]) (hb : BalancedInstruction s f e)
    (hn : NestedFree s') (h : NormalStep f e s s') : TilingInvariant s' := by
  by_cases hend : Executes f .endFilter
  · have hb' : EndsFilter s f := by
      unfold BalancedInstruction at hb
      simpa only [hend.1, hend.2] using hb
    obtain ⟨result, t, hpop, hrestore⟩ := h.leavesHandler hend
    exact hi.endFilter hs hb' hn hpop hrestore
  · have hkp := h.keeps hi.tiled hs hb hend
    by_cases hn' : s'.exceptionMode.isNormal = true
    · by_cases hfil : ∃ state, s.exceptionMode = .filtering state
      · obtain ⟨state, hstate⟩ := hfil
        obtain ⟨g, hg, _⟩ := hi.suspended state hstate
        have hle := le_of_lt_concat hs (List.getElem?_eq_some_iff.mp hg).1
        obtain ⟨hq, hsurv⟩ := hkp.filter state hstate hle hn'
        refine hi.survives hn hkp.tiled hq fun st hst => ?_
        rw [hstate] at hst
        obtain rfl := ExceptionState.filtering.inj hst
        exact hsurv
      · refine .of_engine hn hkp.tiled fun st hst => hfil ⟨st, ?_⟩
        exact (h.modeChange hs).filtering hst
    · refine .of_engine hn hkp.tiled fun st hst => ?_
      rw [hst] at hn'
      exact hn' rfl

lemma filterEntered_tiled {x : ObjectRef} {addr : HandlerAddress} {clauseOffset : Nat}
    {low : List (StackFrame Ty)} (hn : NestedFree s') (hs : s.frames = low ++ f :: high)
    (hlow : low.length = addr.frameIndex) (hbase : f.base.stack ≤ s.stack.length)
    (h : s' = filterEntered s x addr clauseOffset low high f) : TilingInvariant s' := by
  have htile := hi.tiled.frames
  have hlen := hi.tiled.length
  rw [hs] at htile hlen
  simp only [tiles_append] at htile
  simp only [endOf_append] at hlen
  obtain ⟨hinit, hfit, hhigh⟩ := htile
  have hfs : s'.frames = low ++ [{ f with
      ip := clauseOffset, stackHeight := 1, exceptionStack := x :: f.exceptionStack }] := by
    rw [h]; rfl
  refine ⟨hn, Tiled.of_concat hfs hinit (hfit.of_eq rfl rfl) ?_, fun state hm => ?_⟩
  · rw [h]
    simp only [StackFrame.top, filterEntered, length_append, length_take,
      length_singleton]
    omega
  · rw [h] at hm
    obtain rfl := ExceptionState.filtering.inj hm
    have hget : s'.frames[addr.frameIndex]? = some { f with
        ip := clauseOffset, stackHeight := 1, exceptionStack := x :: f.exceptionStack } := by
      rw [hfs, ← hlow]
      exact getElem?_concat_length
    refine ⟨_, hget, Nat.le_add_right _ _, ?_, ?_⟩
    · rw [h]
      exact hhigh
    · rw [h]
      simp only [filterEntered, length_drop]
      have hend : (endOf StackFrame.boundary (f.base.stack, f.base.stack + f.stackHeight) high).2 =
          s.stack.length := hlen
      simp only [frameEnd]
      omega

end

variable {typeInit : Option ObjectRef}

lemma unwindWalk_tiled {o : UnwindOutcome Ty} (ht : Tiled s)
    (hcur : u.cursor.frameIndex + 1 = s.frames.length) (h : unwindWalk u typeInit s = .ok o) :
    Tiled o.context := by
  have inFrame : ∀ n (t t' : ThreadContext Ty) r, Tiled t → t.frames.length = n + 1 →
      unwindInFrame u n t = .ok (t', r) → Tiled t' ∧ t'.frames.length = n + 1 := by
    intro n t t' r htt hlen hin
    rcases eq_nil_or_concat' t.frames with hnil | ⟨init, f, hfs⟩
    · simp [hnil] at hlen
    · obtain rfl : init.length = n := by simpa [hfs] using hlen
      obtain ⟨_, rfl⟩ := unwindInFrame_concat hfs hin
      exact ⟨htt.current hfs rfl rfl rfl rfl rfl, by simp⟩
  unfold unwindWalk at h
  split at h
  · obtain rfl := Except.ok.inj h
    exact ht
  · refine unwindFrames_induct (P := fun n t => Tiled t ∧ t.frames.length = n + 1)
      (Q := fun o => Tiled o.context) ?_ ?_ ?_ (by omega) ⟨ht, hcur.symm⟩ h
    · rintro n t t' entry ⟨htt, hlen⟩ hin
      exact (inFrame n t t' _ htt hlen hin).1
    · rintro n t t' ⟨htt, hlen⟩ hin _
      exact (inFrame n t t' _ htt hlen hin).1
    · rintro n t t' t'' ⟨htt, hlen⟩ hin _ hpop
      obtain ⟨htt', hlen'⟩ := inFrame (n + 1) t t' _ htt hlen hin
      have hlen'' := unwindFrame_length hpop
      have htil : Tiled t'' := by
        rcases eq_nil_or_concat' t'.frames with hnil | ⟨init, f, hfs⟩
        · simp [hnil] at hlen'
        · obtain ⟨mode, finalizing, _, rfl⟩ := unwindFrame_concat hfs hpop
          exact tiled_popped htt' hfs rfl rfl
      exact ⟨fun _ _ _ => htil, fun _ => ⟨htil, by omega⟩⟩

lemma UnwindStep.tiled {sig : Signal} (ht : Tiled s)
    (hnest : u.nestedFilter = none) (he : UnwindsEmpty u s.frames)
    (h : UnwindStep u typeInit s s' sig) : Tiled s' := by
  obtain ⟨hcur, hcleanup, harr⟩ := he
  cases h with
  | cleanup t entry hw h =>
    have htil : Tiled t := unwindWalk_tiled ht hcur hw
    by_cases hle : u.targetFrame ≤ u.cursor.frameIndex
    · obtain ⟨init, f, hat, htgt⟩ := (unwindWalk_shape hcur hle hw).entered t entry rfl
      have haddr : entry.addr.frameIndex = init.length := (unwindSections_entry hat.found).1
      have hget : s.frames[init.length]? = some f := by
        have hget := congrArg (fun l => l[init.length]?) hat.taken
        simpa using hget
      have hz : f.stackHeight = 0 :=
        hcleanup (f, init.length) (mk_mem_zipIdx_iff_getElem?.mpr hget) htgt
          (by rw [runsCleanup, hat.found]; rfl)
      subst h
      exact htil.current hat.frames (enterCleanup_frames hat.frames haddr) rfl rfl rfl hz.symm
    · cases unwindWalk_above hle hw
  | raised hw => exact unwindWalk_tiled ht hcur hw
  | handler t addr hw htgt _ h =>
    have htil : Tiled t := unwindWalk_tiled ht hcur hw
    have htf : u.targetFrame = addr.frameIndex := by simp [UnwindState.targetFrame, htgt]
    have hle := target_le_of_enterHandler hcur hw htf h
    obtain ⟨init, f, hat, hlen⟩ := (unwindWalk_shape hcur hle hw).arrived t rfl
    obtain ⟨_, p, handler, y, _, _, _, rfl⟩ := enterHandler_concat hat.frames (hlen.trans htf) h
    obtain ⟨hinit, hfit, _⟩ := (tiled_concat hat.frames).mp htil
    have hbase := htil.base_le hat.frames
    refine Tiled.of_concat rfl hinit (hfit.of_eq rfl rfl) ?_
    simp only [StackFrame.top, caughtFrame, length_append, length_take,
      length_singleton]
    simp only at hbase
    omega
  | leave t ip hw htgt hip _ h =>
    have htf : u.targetFrame = u.cursor.frameIndex := by
      simp [UnwindState.targetFrame, htgt, hnest]
    obtain ⟨init, f, hs, hcur', hstays⟩ := unwindWalk_here hcur htf hw
    have hctx : t = _ := hstays.context
    rw [htgt] at harr
    have hz : f.stackHeight = 0 := harr hip f (by simp [hs])
    obtain ⟨_, _, rfl⟩ := arriveAt_eq h
    have htil : Tiled t := unwindWalk_tiled ht hcur hw
    have hfs : t.frames = init ++ [{ f with
        exceptionStack := (walkFrame u init.length f).1 }] := by rw [hctx]
    refine htil.current hfs (g := { f with
        exceptionStack := (walkFrame u init.length f).1, ip := ip, stackHeight := 0 })
      ?_ rfl rfl rfl hz.symm
    simp only [hfs, htf, hcur', modify_split]
  | returnFrame t hw _ h =>
    subst h
    have htil : Tiled t := unwindWalk_tiled ht hcur hw
    exact htil.congr rfl rfl

lemma tilingInvariant_step {ev : Event Ty} (hi : TilingInvariant s) (hb : Balanced s ev)
    (hstep : step host s ev = .ok s') : TilingInvariant s' := by
  have hn := nestedFree_step hi.nested hstep
  have hmd := hi.nested.mode
  have hcase := step_cases hi.nested.mode hstep
  cases hcase with
  | normal e init f hm hs h => exact hi.normalStep hs (hb.instruction hm hs) hn h
  | throwing e x p _ h | accepted e state addr _ _ h =>
    subst h
    exact .of_engine hn (hi.tiled.congr rfl rfl) (by simp [ThreadContext.setMode])
  | filter e state addr clauseOffset low frame high _ _ hs hlow hbase h =>
    exact filterEntered_tiled hi hn hs hlow hbase h
  | unwound e u hm h =>
    simp only [Balanced, hm] at hb
    rw [hm] at hmd
    exact .of_engine hn (h.tiled hi.tiled hmd hb) h.mode_ne.2
  | returned e u t hm hw _ h =>
    simp only [Balanced, hm] at hb
    have htil : Tiled t := unwindWalk_tiled hi.tiled hb.1 hw
    have hset : Tiled (t.setMode .none) := htil.congr rfl rfl
    refine .of_engine hn (handleReturn_tiled hset h) fun state hst => ?_
    rw [(handleReturn_quiet h).mode] at hst
    cases hst
  | interposed info this init f hs hstep h =>
    obtain ⟨htil, hbel⟩ := interposeFinalizer_tiled hi.tiled hs hstep
    refine hi.survives hn htil h.1 fun state hst => ?_
    obtain ⟨g, hg, _⟩ := hi.suspended state hst
    have hle := le_of_lt_concat hs (List.getElem?_eq_some_iff.mp hg).1
    exact h.survives hi.tiled hs hbel hle
  | deferred info this h => subst h; exact hi
  | resume k hk h =>
    subst h
    exact hi.survives hn (hi.tiled.congr rfl rfl) ⟨rfl, hk, rfl, rfl⟩ fun state _ =>
      ⟨rfl, fun g hg => ⟨g, g.ip, hg, SameFrame.refl g⟩, fun _ _ => rfl⟩

lemma TilingInvariant.run {info : MethodInfo Ty} {args : List StackValue}
    (h : Runs.Run (next host) Balanced (entrypoint info args) s) : TilingInvariant s := by
  refine h.invariant ?_ (tilingInvariant_entrypoint info args)
  intro s ev s' hi hb hnext
  exact tilingInvariant_step hi hb (next_eq_some.mp hnext)

/-- In every state a balanced run reaches the frames tile the evaluation stack, so a return takes
the value on top of the stack and leaves the caller's slots below it. -/
theorem frames_tile_evaluation_stack {info : MethodInfo Ty} {args : List StackValue}
    (h : Runs.Run (next host) Balanced (entrypoint info args) s) :
    (∀ f, s.frames.getLast? = some f → s.stack.length = f.base.stack + f.stackHeight) ∧
      (∀ (i : Nat) (c f : StackFrame Ty), s.frames[i]? = some c → s.frames[i + 1]? = some f →
        c.base.stack + c.stackHeight = f.base.arguments) ∧
      ∀ lower c f data s', s.frames = lower ++ [c] ++ [f] → returnFrame s data = .ok s' →
        f.constructorResult = none → c.frameContinuation = none →
        s'.stack = s.stack.take (c.base.stack + c.stackHeight) ++
          (if f.info.returnType = .void then none else s.stack.getLast?).toList := by
  have ht := (TilingInvariant.run h).tiled
  refine ⟨fun f hf => ?_, fun i c f hc hf => ?_, fun lower c f data s' hs hret hno hcont => ?_⟩
  · obtain ⟨init, hs⟩ := getLast?_eq_some_iff.mp hf
    exact ((tiled_concat hs).mp ht).2.2.symm
  · exact (ht.frames.adjacent hc hf).arguments.symm
  · exact (returnFrame_kept ht hs hret).2.2 hno hcont

/-- `f(x) { push; ret }`, called with one operand of its caller. -/
def returningCallee : MethodInfo Unit where
  instructions := [.op, .ret]
  parameters := 1
  returnType := .value

def callingMethod : MethodInfo Unit where
  instructions := [.op, .op, .op, .ret]

def returningState : ThreadContext Unit :=
  { entrypoint callingMethod [] with
    stack := [.int32 1, .int32 2, .int32 42]
    frames := [{ StackFrame.new ⟨0, 0, 0⟩ callingMethod with ip := 1, stackHeight := 1 },
      { StackFrame.new ⟨1, 2, 2⟩ returningCallee with ip := 1, stackHeight := 1 }]
    originalStackHeight := 2 }

theorem frames_tile_returningState : returningState.stack.length = 3 ∧
      ∀ data s', returnFrame returningState data = .ok s' → s'.stack = [.int32 1, .int32 42] := by
  have hrun : Runs.Run (next unitHost) Balanced (entrypoint callingMethod []) returningState :=
    Runs.Run.of_exec ([.dispatch { ops := [.push (.int32 1), .push (.int32 2)] },
      .dispatch { result := .call returningCallee none },
      .dispatch { ops := [.push (.int32 42)] }]) (by decide) rfl
  obtain ⟨hcur, _, hreturn⟩ := frames_tile_evaluation_stack hrun
  exact ⟨hcur _ rfl, fun data s' hret => hreturn [] _ _ data s' rfl hret rfl rfl⟩

def leaveWithOperand : MethodInfo Unit where
  instructions := [.op, .leave (.short 3), .leave (.short 3), .op, .ret]
  exceptions := [⟨⟨0, 2⟩, [⟨⟨2, 3⟩, .catchClause ()⟩]⟩]
  returnType := .value

/-- The operand the `leave` discarded is still on the stack: the frame accounts for one slot of two,
and the method returns 7 instead of the 42 on top. -/
theorem leave_breaks_tiling : ∃ s f,
    Reachable unitHost s ∧ s.exceptionMode = .none ∧ s.frames = [f] ∧
      s.stack = [.int32 7, .int32 42] ∧ f.base.stack + f.stackHeight = 1 ∧
      step unitHost s (.dispatch {}) = .error (.returned [.int32 7]) :=
  ⟨_, _, ⟨leaveWithOperand, [], Runs.Run.of_exec_any ([
    .dispatch { ops := [.push (.int32 7)] }, .dispatch {}, .dispatch {},
    .dispatch { ops := [.push (.int32 42)] }]) rfl⟩, rfl, rfl, rfl, rfl, rfl⟩

end DotnetVm
