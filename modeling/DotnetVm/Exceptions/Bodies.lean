import DotnetVm.Exceptions.NestedFilters

/-!
# The modes of running handler bodies

A finally, fault or filter body runs in a mode of its own, which has to be the
current one whenever control is back in the body; the unwinds that a `leave`
interrupted have to be the saved ones. Both hold along runs that keep a
discipline: exceptions are caught outside the bodies they are thrown in, and
`leave` and `ret` are executed by frames that run no body.
-/

namespace DotnetVm

open Activation List ThreadContext

variable {Ty : Type} {host : Host Ty} {s s' t : ThreadContext Ty} {a : Activations Ty}
  {f : StackFrame Ty} {init : List (StackFrame Ty)} {e : Effects Ty} {u : UnwindState}
  {as : List (Activation Ty)} {b : Activation Ty}

section

variable (s : ThreadContext Ty) (a : Activations Ty)

/-- The current frame runs no finally, fault or filter body. -/
def RunsNoBody : Prop :=
  Within (s.frames.length - 1) (bodies a.live)

/-- The innermost body is one of the current frame and satisfies `p`. -/
def InBody (p : Activation Ty → Bool) (s : ThreadContext Ty) (a : Activations Ty) : Prop :=
  ∃ b ∈ (bodies a.live).head?, p b = true ∧ b.frameIndex + 1 = s.frames.length

/-- An ordinary instruction raises only if no unwind is saved, and replaces its frame only if the
frame runs no body. -/
def DisciplinedResult : OpResult Ty → Prop
  | .raise _ => s.continuation.unwinds = []
  | .tailCall _ | .jmp _ _ => RunsNoBody s a
  | _ => True

/-- What the discipline asks of each instruction of the current frame. -/
def DisciplinedInstruction (f : StackFrame Ty) (e : Effects Ty) : Prop :=
  match f.multicastState, f.info.instructions[f.ip]? with
  | some _, _ => DisciplinedResult s a e.result ∧ RunsNoBody s a ∧ ReturnsToCode s
  | none, some .op => DisciplinedResult s a e.result
  | none, some .throw | none, some .rethrow => s.continuation.unwinds = []
  | none, some (.leave _) => RunsNoBody s a ∧ ∀ b ∈ (bodies a.live).head?, b.isClause = false
  | none, some .endFinally => InBody isCleanup s a
  | none, some .endFilter => InBody isClause s a
  | none, some .ret => RunsNoBody s a ∧ ReturnsToCode s ∧
      (hasFinallyBlocks f.info f.ip = true → s.exceptionMode = .none)
  | none, none => True

end

def Disciplined (p : ThreadContext Ty × Activations Ty) : Event Ty → Prop
  | .dispatch e =>
    match p.1.exceptionMode with
    | .unwinding u =>
      match u.target with
      | .handler addr => ∀ h ∈ handlerAt p.1.frames addr,
          bodies (leaveTo addr.frameIndex h.instructions.start p.2.live) = []
      | .instruction ip => ip = usizeMax → ReturnsToCode p.1
    | .throwing _ _ | .searching _ => True
    | .none | .filtering _ | .executingHandler _ =>
      ∀ f ∈ p.1.frames.getLast?, DisciplinedInstruction p.1 p.2 f e
  | .finalizer _ _ => p.1.exceptionMode.isNormal = true
  | .resume => True

instance (count : Nat) (as : List (Activation Ty)) : Decidable (Within count as) :=
  inferInstanceAs (Decidable (∀ b ∈ as, b.frameIndex < count))

instance (s : ThreadContext Ty) (a : Activations Ty) : Decidable (RunsNoBody s a) :=
  inferInstanceAs (Decidable (Within _ _))

instance (p : Activation Ty → Bool) (s : ThreadContext Ty) (a : Activations Ty) :
    Decidable (InBody p s a) :=
  inferInstanceAs (Decidable (∃ b ∈ (bodies a.live).head?,
    p b = true ∧ b.frameIndex + 1 = s.frames.length))

instance (s : ThreadContext Ty) (a : Activations Ty) (result : OpResult Ty) :
    Decidable (DisciplinedResult s a result) := by
  unfold DisciplinedResult
  split <;> infer_instance

instance (s : ThreadContext Ty) (a : Activations Ty) (f : StackFrame Ty) (e : Effects Ty) :
    Decidable (DisciplinedInstruction s a f e) := by
  unfold DisciplinedInstruction
  generalize f.multicastState = multicast, f.info.instructions[f.ip]? = instruction
  rcases multicast with _ | _ <;> rcases instruction with _ | instr <;> try cases instr
  all_goals dsimp only; infer_instance

instance [DecidableEq Ty] (p : ThreadContext Ty × Activations Ty) (ev : Event Ty) :
    Decidable (Disciplined p ev) := by
  cases ev with
  | dispatch e =>
    unfold Disciplined
    generalize p.1.exceptionMode = mode
    cases mode with
    | unwinding u =>
      dsimp only
      generalize u.target = target
      cases target <;> dsimp only <;> infer_instance
    | _ => dsimp only; infer_instance
  | finalizer _ _ => exact inferInstanceAs (Decidable (_ = _))
  | resume => exact inferInstanceAs (Decidable True)

lemma Disciplined.instruction (h : Disciplined (s, a) (.dispatch e))
    (hm : s.exceptionMode.isNormal = true) (hs : s.frames = init ++ [f]) :
    DisciplinedInstruction s a f e := by
  unfold Disciplined at h
  cases hmd : s.exceptionMode <;> simp_all

inductive Continues : UnwindState → List (Activation Ty) → Prop
  | handler {u : UnwindState} {bs : List (Activation Ty)} (addr : HandlerAddress)
      (ht : u.target = .handler addr) (h : ∀ b ∈ bs, b.interrupted? = none) : Continues u bs
  | ret {u : UnwindState} (ht : u.target = .instruction usizeMax) : Continues u []
  | leaveOutside {u : UnwindState} (ip : Nat) (ht : u.target = .instruction ip)
      (hip : ip ≠ usizeMax) : Continues u []
  | leaveInside {u w : UnwindState} {b : Activation Ty} {bs : List (Activation Ty)} (ip : Nat)
      (ht : u.target = .instruction ip) (hip : ip ≠ usizeMax) (hk : b.kind = .cleanup w true)
      (hb : b.frameIndex = w.cursor.frameIndex)
      (hbelow : Within u.cursor.frameIndex (b :: bs)) (h : Continues w bs) : Continues u (b :: bs)

/-- The mode describes the running bodies. -/
def ModeCoherent (count : Nat) (mode : ExceptionState) (bs : List (Activation Ty)) : Prop :=
  match mode with
  | .none => bs = []
  | .throwing _ _ | .searching _ => ∀ b ∈ bs, b.interrupted? = none
  | .filtering state => ∃ b rest entry, bs = b :: rest ∧ b.kind = .clause state entry ∧
      b.frameIndex = state.handler.frameIndex ∧ ∀ c ∈ rest, c.interrupted? = none
  | .unwinding u => u.cursor.frameIndex + 1 = count ∧ Continues u bs
  | .executingHandler u => ∃ b rest, bs = b :: rest ∧ b.kind = .cleanup u false ∧
      b.frameIndex = u.cursor.frameIndex ∧ Continues u rest

/-- The mode and the saved unwinds describe the running bodies. -/
structure Coherent (s : ThreadContext Ty) (a : Activations Ty) : Prop where
  nested : NestedFree s
  within : Within s.frames.length a.live
  suspended : ∀ b ∈ a.suspended, b.interrupted? = none
  suspendedWithin : ∀ state, s.exceptionMode = .filtering state →
    Within (state.handler.frameIndex + 1 + s.suspendedFrames.length) a.suspended
  saved : s.continuation.unwinds = interruptedUnwinds a.live
  mode : ModeCoherent s.frames.length s.exceptionMode (bodies a.live)

lemma coherent_entrypoint (info : MethodInfo Ty) (args : List StackValue) :
    Coherent (entrypoint info args) ⟨[], []⟩ where
  nested := nestedFree_entrypoint info args
  within := by simp [Within]
  suspended := by simp
  suspendedWithin := by simp [Within]
  saved := rfl
  mode := rfl

variable {bs : List (Activation Ty)}

lemma ModeCoherent.normal {n m : Nat} {mode : ExceptionState}
    (hm : mode.isNormal = true) (h : ModeCoherent n mode bs) : ModeCoherent m mode bs := by
  cases mode <;> first | exact h | cases hm

lemma mem_bodies (h : b ∈ bodies as) : b ∈ as := (mem_filter.mp h).1

variable {x : ObjectRef}

section

variable (hc : Coherent s a)
include hc

/-- A step that changes nothing the engine looks at and leaves no body. -/
lemma Coherent.quiet (hm : s.exceptionMode.isNormal = true) (hn : NestedFree s')
    (hq : Quiet s s') (hwin : Within s'.frames.length as) (hb : bodies as = bodies a.live) :
    Coherent s' { a with live := as } where
  nested := hn
  within := hwin
  suspended := hc.suspended
  suspendedWithin := by
    rw [hq.mode, hq.suspendedFrames]
    exact hc.suspendedWithin
  saved := by rw [hq.unwinds, hc.saved, ← interruptedUnwinds_bodies, ← hb,
    interruptedUnwinds_bodies]
  mode := by
    rw [hq.mode, hb]
    exact hc.mode.normal hm

/-- No body is interrupted if no unwind is saved. -/
lemma Coherent.not_interrupted (h : s.continuation.unwinds = []) :
    ∀ b ∈ a.live, b.interrupted? = none := by
  rw [hc.saved] at h
  exact filterMap_eq_nil_iff.mp h

lemma Coherent.thrown {p : Bool} (hus : s.continuation.unwinds = []) (hq : Quiet s t)
    (hlen : t.frames.length = s.frames.length) :
    Coherent (t.setMode (.throwing x p)) { a with live := popTo t.frames.length a.live } := by
  have hlive : popTo t.frames.length a.live = a.live := popTo_eq_self (hlen ▸ hc.within)
  rw [hlive]
  exact
    { nested := (hc.nested.quiet hq).setMode rfl
      within := hlen ▸ hc.within
      suspended := hc.suspended
      suspendedWithin := by simp [setMode]
      saved := hq.unwinds.trans hc.saved
      mode := fun b hb => hc.not_interrupted hus b (mem_bodies hb) }

/-- Outside filters an instruction executes in no body, or in one that is part of an unwind. -/
lemma Coherent.normal_cases (hm : s.exceptionMode.isNormal = true)
    (hcl : ∀ b ∈ (bodies a.live).head?, b.isClause = false) :
    (s.exceptionMode = .none ∧ bodies a.live = []) ∨
      ∃ u b rest, s.exceptionMode = .executingHandler u ∧ bodies a.live = b :: rest ∧
        b.kind = .cleanup u false ∧ b.frameIndex = u.cursor.frameIndex ∧ Continues u rest := by
  have hmd := hc.mode
  cases hx : s.exceptionMode with
  | none =>
    rw [hx] at hmd
    exact .inl ⟨rfl, hmd⟩
  | executingHandler u =>
    rw [hx] at hmd
    obtain ⟨b, rest, hb⟩ := hmd
    exact .inr ⟨u, b, rest, rfl, hb⟩
  | filtering state =>
    rw [hx] at hmd
    obtain ⟨b, rest, entry, hb, hk, _⟩ := hmd
    have hnot := hcl b (by simp [hb])
    simp [isClause, hk] at hnot
  | throwing => simp [hx] at hm
  | searching => simp [hx] at hm
  | unwinding => simp [hx] at hm

lemma Coherent.leave (hs : s.frames = init ++ [f]) (hm : s.exceptionMode.isNormal = true)
    (hbody : RunsNoBody s a) (hcl : ∀ b ∈ (bodies a.live).head?, b.isClause = false)
    (target : JumpTarget) : Coherent (leave s target) { a with live := interrupt a.live } := by
  have hne : target.val ≠ usizeMax := ne_of_lt target.property
  have hcur : (s.frames.length - 1) + 1 = s.frames.length := by simp [hs]
  have hsaved : (DotnetVm.leave s target).continuation.unwinds =
      (interruptedUnwind s).toList ++ interruptedUnwinds (bodies a.live) := by
    rw [unwinds_leave, hc.saved, interruptedUnwinds_bodies]
  rcases hc.normal_cases hm hcl with ⟨hx, hb⟩ | ⟨u, b, rest, hx, hb, hk, hidx, hcont⟩
  · rw [interrupt_of_bodies_nil hb]
    refine ⟨hc.nested.leave target, hc.within, hc.suspended, by simp [DotnetVm.leave], ?_, hcur, ?_⟩
    · rw [hsaved, ← interruptedUnwinds_bodies a.live]
      simp [interruptedUnwind, hx]
    · rw [hb]
      exact .leaveOutside target rfl hne
  · have hbel : Within (s.frames.length - 1) (b :: rest) := hb ▸ hbody
    have hlt : u.cursor.frameIndex < s.frames.length - 1 := hidx ▸ hbel b (by simp)
    refine ⟨hc.nested.leave target, hc.within.interrupt, hc.suspended, by simp [DotnetVm.leave],
      ?_, hcur, ?_⟩
    · rw [hsaved, ← interruptedUnwinds_bodies (interrupt a.live), bodies_interrupt hb hk, hb,
        interruptedUnwind_eq_some.mpr ⟨hx, hlt⟩]
      simp [interruptedUnwinds, Activation.interrupted?, hk]
    · simp only [bodies_interrupt hb hk]
      refine .leaveInside target rfl hne rfl hidx (fun c hmem => ?_) hcont
      rcases mem_cons.mp hmem with rfl | hmem
      · exact hbel b (by simp)
      · exact hbel c (by simp [hmem])

lemma Coherent.endFinally (hm : s.exceptionMode = .executingHandler u)
    (hin : InBody isCleanup s a) :
    Coherent (s.setMode (.unwinding u))
      { a with live := dropThrough isCleanup a.live } := by
  have hmd := hc.mode
  have hnest := hc.nested.mode
  rw [hm] at hmd hnest
  obtain ⟨b, rest, hb, hk, hidx, hcont⟩ := hmd
  obtain ⟨c, hhead, _, htop⟩ := hin
  obtain rfl : b = c := by simpa [hb] using hhead
  have hrest : bodies (dropThrough isCleanup a.live) = rest :=
    bodies_dropThrough (fun _ => isBody_of_isCleanup) (by simp [isCleanup, hk]) hb
  refine
    { nested := hc.nested.setMode hnest
      within := fun d hd => hc.within d (mem_dropThrough hd)
      suspended := hc.suspended
      suspendedWithin := by simp [setMode]
      saved := ?_
      mode := ⟨by rw [← hidx]; exact htop, by rw [hrest]; exact hcont⟩ }
  have hsaved := hc.saved
  rw [← interruptedUnwinds_bodies, hb] at hsaved
  rw [← interruptedUnwinds_bodies, hrest]
  simpa [interruptedUnwinds, Activation.interrupted?, hk, setMode] using hsaved

lemma Coherent.endFilter {result : Int} (hn : NestedFree s')
    (h : endFilter s result = .ok s') :
    Coherent s'
      { live := a.suspended ++ dropThrough isClause a.live, suspended := [] } := by
  obtain ⟨state, restored, hm, hlt, hrest, rfl⟩ := endFilter_eq h
  have hmd := hc.mode
  have hsusp := hc.suspendedWithin state hm
  rw [hm] at hmd
  obtain ⟨b, rest, entry, hb, hk, hidx, hclean⟩ := hmd
  have hlen : restored.frames.length = s.frames.length + s.suspendedFrames.length := by
    rw [hrest]
    simp [restoreSuspended, modifyFrame]
  have hdrop : bodies (dropThrough isClause a.live) = rest :=
    bodies_dropThrough (fun _ => isBody_of_isClause) (by simp [isClause, hk]) hb
  have hno : ∀ d ∈ bodies (a.suspended ++ dropThrough isClause a.live),
      d.interrupted? = none := by
    intro d hd
    unfold bodies at hd hdrop
    rw [filter_append, hdrop, mem_append] at hd
    rcases hd with hd | hd
    · exact hc.suspended d (mem_filter.mp hd).1
    · exact hclean d hd
  refine
    { nested := hn
      within := fun d hd => ?_
      suspended := by simp
      suspendedWithin := by simp [Within]
      saved := ?_
      mode := ?_ }
  · have hgoal : d.frameIndex < restored.frames.length := by
      rcases mem_append.mp hd with hd | hd
      · have := hsusp d hd
        omega
      · have := hc.within d (mem_dropThrough hd)
        omega
    exact hgoal
  · have hus : restored.continuation.unwinds = s.continuation.unwinds := by
      rw [hrest]; rfl
    have hsaved := hc.saved
    rw [← interruptedUnwinds_bodies, hb] at hsaved
    have hnil : s.continuation.unwinds = [] := by
      rw [hsaved]
      refine interruptedUnwinds_eq_nil fun d hd => ?_
      rcases mem_cons.mp hd with rfl | hd
      · simp [Activation.interrupted?, hk]
      · exact hclean d hd
    rw [← interruptedUnwinds_bodies, interruptedUnwinds_eq_nil hno]
    exact hus.trans hnil
  · unfold afterFilter
    split
    · exact ⟨by simp only [unwindToHandler, HandlerAddress.startOf, setMode]; omega,
        .handler state.handler rfl hno⟩
    · exact hno

lemma Coherent.returned {data : ReturnData} (hm : s.exceptionMode.isNormal = true)
    (hs : s.frames = init ++ [f]) (hbody : RunsNoBody s a) (hret : ReturnsToCode s)
    (hn : NestedFree s') (h : handleReturn s data = .ok s') :
    Coherent s' { a with live := popTo s'.frames.length a.live } := by
  obtain ⟨hq, hlen⟩ := handleReturn_pops hs hret h
  refine hc.quiet hm hn hq (within_popTo _ _) (bodies_popTo ?_)
  have hinit : s.frames.length - 1 = init.length := by simp [hs]
  rw [hlen, ← hinit]
  exact hbody

end

variable {result : OpResult Ty}

lemma not_discardsFrame_of_goesTo {ip : Nat}
    (h : goesTo s f result = some ip) : result.discardsFrame = false := by
  cases result <;> first | rfl | cases h

/-- The activations an ordinary instruction leaves. -/
def afterOp (a : Activations Ty) (s : ThreadContext Ty) (result : OpResult Ty)
    (s' : ThreadContext Ty) : Activations Ty :=
  { a with live := popTo (if result.discardsFrame ∧ s'.frames.length = s.frames.length
      then s'.frames.length - 1 else s'.frames.length) a.live }

/-- An instruction that keeps the frames leaves no handler. -/
lemma afterOp_eq_self (hwin : Within s.frames.length a.live)
    (hle : s.frames.length ≤ s'.frames.length)
    (hd : result.discardsFrame = false ∨ s.frames.length < s'.frames.length) :
    afterOp a s result s' = a := by
  unfold afterOp
  rw [if_neg, popTo_eq_self (hwin.mono hle)]
  rintro ⟨hdis, heq⟩
  rcases hd with hd | hd
  · simp [hd] at hdis
  · omega

section

variable (hc : Coherent s a) (hm : s.exceptionMode.isNormal = true)
include hc hm

lemma Coherent.opMove {g : StackFrame Ty} (hd : DisciplinedResult s a e.result) (hq : Quiet s t)
    (hs : s.frames = init ++ [f]) (hn : NestedFree s') (h : OpMove init f g e.result t s') :
    Coherent s' (afterOp a s e.result s') := by
  have hlen : s.frames.length = init.length + 1 := by simp [hs]
  cases h with
  | moved ip g' hip hq' _ hfs =>
    have hlen' : s'.frames.length = s.frames.length := by simp [hfs, hlen]
    rw [afterOp_eq_self hc.within (by omega) (.inl (not_discardsFrame_of_goesTo hip))]
    exact hc.quiet hm hn (hq.trans hq') (hlen' ▸ hc.within) rfl
  | raised x w hr hl hset =>
    rw [hr] at hd ⊢
    obtain ⟨hql, g', _, hfs⟩ := hl
    have hlen' : w.frames.length = s.frames.length := by simp [hfs, hlen]
    subst hset
    exact hc.thrown hd (hq.trans hql) hlen'
  | called hcall =>
    obtain ⟨hqc, f', n, _, _, hfs⟩ := hcall
    have hlen' : s'.frames.length = s.frames.length + 1 := by simp [hfs, hlen]
    rw [afterOp_eq_self hc.within (by omega) (.inr (by omega))]
    exact hc.quiet hm hn (hq.trans hqc) (hc.within.mono (by omega)) rfl
  | replaced hr hrep =>
    obtain ⟨hqr, n, _, hfs⟩ := hrep
    have hlen' : s'.frames.length = s.frames.length := by simp [hfs, hlen]
    have hbody : RunsNoBody s a := by
      cases hres : e.result <;> rw [hres] at hr hd <;> first | exact hd | cases hr
    unfold afterOp
    rw [if_pos ⟨hr, hlen'⟩]
    refine hc.quiet hm hn (hq.trans hqr) ?_ (bodies_popTo (by rw [hlen']; exact hbody))
    exact (within_popTo _ _).mono (by omega)

/-- Every instruction of a disciplined run keeps the invariant. -/
lemma Coherent.normalStep (hs : s.frames = init ++ [f]) (hd : DisciplinedInstruction s a f e)
    (hn : NestedFree s') (h : NormalStep f e s s') : Coherent s' (trackInstruction a s f e s') := by
  have hsnap : Coherent (snapshot s f) a :=
    hc.quiet hm (hc.nested.quiet (snapshot_quiet s f)) (snapshot_quiet s f) hc.within rfl
  have hsnaps : (snapshot s f).frames = init ++ [f] := hs
  unfold DisciplinedInstruction at hd
  unfold trackInstruction
  cases h with
  | leave target hi h =>
    simp only [hi.1, hi.2] at hd ⊢
    subst h
    exact hsnap.leave hsnaps hm hd.1 hd.2 target
  | endFinally u hi hmd h =>
    simp only [hi.1, hi.2] at hd ⊢
    subst h
    exact hsnap.endFinally hmd hd
  | endFilter result w hi hpop h =>
    simp only [hi.1, hi.2]
    obtain ⟨hq, f', _, hfs⟩ := popSafe_local hsnaps hpop
    have hlen : w.frames.length = s.frames.length := by simp [hfs, hs]
    have hw : Coherent w a := hsnap.quiet hm (hsnap.nested.quiet hq) hq (hlen ▸ hc.within) rfl
    exact hw.endFilter hn h
  | throw v w hi hpop h =>
    simp only [hi.1, hi.2] at hd ⊢
    obtain ⟨hq, f', _, hfs⟩ := popSafe_local hsnaps hpop
    obtain ⟨y, rfl⟩ := throwValue_eq h
    exact hsnap.thrown hd hq (by simp [hfs, hs])
  | rethrow x rest hi _ h =>
    simp only [hi.1, hi.2] at hd ⊢
    subst h
    exact hc.thrown hd (snapshot_quiet s f) rfl
  | retUnwind u hi hu h =>
    simp only [hi.1, hi.2] at hd ⊢
    obtain ⟨hbody, _, hfinally⟩ := hd
    subst h
    have hlive : popTo s.frames.length a.live = a.live := popTo_eq_self hc.within
    simp only [setMode, snapshot_frames, hlive]
    have hmd := hc.mode
    cases hu with
    | handler w hmd' hcur =>
      -- the frame of an executing handler runs a body
      rw [hmd'] at hmd
      obtain ⟨b, rest, hb, _, hidx, _⟩ := hmd
      have hlt := hbody b (by simp [hb])
      omega
    | tryBlock hb _ =>
      rw [hfinally hb] at hmd
      have hnil : bodies a.live = [] := hmd
      refine ⟨hsnap.nested.setMode rfl, hc.within, hc.suspended, by simp, hc.saved, ?_, ?_⟩
      · simp [HandlerAddress.startOf, hs]
      · rw [hnil]
        exact .ret rfl
  | retReturn hi _ _ h =>
    simp only [hi.1, hi.2] at hd ⊢
    exact hsnap.returned hm hsnaps hd.1 hd.2.1 hn h
  | op hi h =>
    simp only [hi.1, hi.2] at hd ⊢
    exact hc.opMove hm hd (snapshot_quiet s f) hs hn (runOp_cases hsnaps rfl h)
  | multicast state target w hmc hdis h =>
    simp only [hmc] at hd ⊢
    obtain ⟨g, hqt, hmove⟩ := multicast_moves hs hdis h
    exact hc.opMove hm hd.1 hqt hs hn hmove
  | multicastReturn state hmc h =>
    simp only [hmc] at hd ⊢
    have hret := hc.returned hm hs hd.2.1 hd.2.2 hn h
    obtain ⟨_, hlen⟩ := handleReturn_pops hs hd.2.2 h
    rw [if_neg (by simp [hlen, hs])]
    exact hret

end

lemma not_interrupted_of_bodies (h : ∀ b ∈ bodies as, b.interrupted? = none) :
    ∀ b ∈ as, b.interrupted? = none := by
  intro b hb
  cases hbody : b.isBody with
  | true => exact h b (mem_filter.mpr ⟨hb, hbody⟩)
  | false => exact interrupted?_of_not_isBody hbody

lemma Coherent.searching {p : Bool} (hc : Coherent s a)
    (hm : s.exceptionMode = .throwing x p) (state : SearchState) (hn : state.nestedFilter = none) :
    Coherent (s.clearSuspended.setMode (.searching state)) { a with suspended := [] } where
  nested := ⟨hn, hc.nested.saved⟩
  within := hc.within
  suspended := by simp
  suspendedWithin := by simp [Within]
  saved := hc.saved
  mode := by
    have hmd := hc.mode
    rw [hm] at hmd
    exact hmd

variable {state : SearchState} {addr : HandlerAddress}

section

variable (hc : Coherent s a) (hm : s.exceptionMode = .searching state)
include hc hm

lemma Coherent.accepted (hne : 0 < s.frames.length) :
    Coherent (s.setMode (.unwinding (unwindToHandler s state.exception addr))) a where
  nested := hc.nested.setMode rfl
  within := hc.within
  suspended := hc.suspended
  suspendedWithin := by simp [setMode]
  saved := hc.saved
  mode := by
    have hmd := hc.mode
    rw [hm] at hmd
    refine ⟨?_, .handler addr rfl hmd⟩
    simp only [unwindToHandler, HandlerAddress.startOf, setMode]
    omega

lemma Coherent.filterEntered {clauseOffset : Nat} {low high : List (StackFrame Ty)}
    {range : Range} (hs : s.frames = low ++ f :: high) (hlow : low.length = addr.frameIndex)
    (entry : ThreadContext Ty) (st : FilterState)
    (hst : (DotnetVm.filterEntered s state.exception addr clauseOffset low high f).exceptionMode =
      .filtering st) :
    Coherent (DotnetVm.filterEntered s state.exception addr clauseOffset low high f)
      { live := ⟨addr, range, .clause st entry⟩ :: popTo (addr.frameIndex + 1) a.live
        suspended := a.live.filter fun b => decide (addr.frameIndex < b.frameIndex) } := by
  obtain rfl := ExceptionState.filtering.inj hst
  have hmd := hc.mode
  rw [hm] at hmd
  have hno := not_interrupted_of_bodies hmd
  have hpop : ∀ b ∈ popTo (addr.frameIndex + 1) a.live, b.interrupted? = none :=
    fun b hb => hno b (mem_popTo.mp hb).1
  refine
    { nested := ⟨rfl, hc.nested.saved⟩
      within := ?_
      suspended := fun b hb => hno b (mem_filter.mp hb).1
      suspendedWithin := ?_
      saved := ?_
      mode := ⟨_, _, entry, bodies_cons rfl, rfl, rfl,
        fun b hb => hpop b (mem_bodies hb)⟩ }
  · intro b hb
    have hlen : (DotnetVm.filterEntered s state.exception addr clauseOffset low high
        f).frames.length = addr.frameIndex + 1 := by simp [DotnetVm.filterEntered, hlow]
    rw [hlen]
    rcases mem_cons.mp hb with rfl | hb
    · exact Nat.lt_succ_self _
    · exact (mem_popTo.mp hb).2
  · intro st' hst' b hb
    obtain rfl := ExceptionState.filtering.inj hst'
    have hlt := hc.within b (mem_filter.mp hb).1
    simp only [hs, length_append, length_cons] at hlt
    simp only [DotnetVm.filterEntered]
    omega
  · have hus : interruptedUnwinds a.live = [] := interruptedUnwinds_eq_nil hno
    have hus' : interruptedUnwinds (popTo (addr.frameIndex + 1) a.live) = [] :=
      interruptedUnwinds_eq_nil hpop
    rw [interruptedUnwinds_cons rfl, hus']
    exact hc.saved.trans hus

end

lemma bodies_leaveTo_nil {i ip : Nat} (h : bodies as = []) : bodies (leaveTo i ip as) = [] := by
  rw [bodies_leaveTo (by simp [h]), h]

lemma Continues.enter {i : Nat} {cursor : HandlerAddress} (ip : Nat) (hc : Continues u (bodies as))
    (hi : ∀ target, u.target = .instruction target → i = u.cursor.frameIndex)
    (hcur : cursor.frameIndex = i) :
    Continues { u with cursor := cursor } (bodies (leaveTo i ip as)) ∧
      interruptedUnwinds (leaveTo i ip as) = interruptedUnwinds as := by
  rw [← interruptedUnwinds_bodies as, ← interruptedUnwinds_bodies (leaveTo i ip as)]
  generalize hbs : bodies as = bs at hc
  cases hc with
  | handler addr ht h =>
    rw [← hbs] at h
    have hleft : ∀ b ∈ bodies (leaveTo i ip as), b.interrupted? = none := fun b hb =>
      not_interrupted_of_bodies h b (mem_leaveTo (mem_bodies hb)).1
    rw [interruptedUnwinds_eq_nil hleft, interruptedUnwinds_eq_nil (hbs ▸ h)]
    exact ⟨.handler addr ht hleft, rfl⟩
  | ret ht =>
    rw [bodies_leaveTo_nil hbs]
    exact ⟨.ret ht, rfl⟩
  | leaveOutside target ht hip =>
    rw [bodies_leaveTo_nil hbs]
    exact ⟨.leaveOutside target ht hip, rfl⟩
  | leaveInside target ht hip hk hb hbel h =>
    obtain rfl := hi target ht
    rw [bodies_leaveTo (by rw [hbs]; exact hbel), hbs]
    exact ⟨.leaveInside target ht hip hk hb (by rw [hcur]; exact hbel) h, rfl⟩

lemma Continues.not_interrupted
    (hc : Continues u bs) (ht : u.target = .handler addr) : ∀ b ∈ bs, b.interrupted? = none := by
  cases hc with
  | handler _ _ h => exact h
  | ret ht' => rw [ht] at ht'; cases ht'
  | leaveOutside target ht' _ => rw [ht] at ht'; cases ht'
  | leaveInside target ht' _ _ _ _ _ => rw [ht] at ht'; cases ht'

lemma targetFrame_of_instruction {target : Nat} (hn : u.nestedFilter = none)
    (ht : u.target = .instruction target) : u.targetFrame = u.cursor.frameIndex := by
  simp [UnwindState.targetFrame, ht, hn]

variable {typeInit : Option ObjectRef}

section

variable (hc : Coherent s a) (hm : s.exceptionMode = .unwinding u)
include hc hm

lemma Coherent.cleanup {entry : CleanupEntry Ty}
    (hw : unwindWalk u typeInit s = .ok (.entered t entry)) :
    Coherent (enterCleanup u t entry)
      { a with live := ⟨entry.addr, entry.handler.instructions,
          .cleanup { u with cursor := entry.next } false⟩ ::
            leaveTo entry.addr.frameIndex entry.handler.instructions.start a.live } := by
  have hmd := hc.mode
  have hnest := hc.nested.mode
  rw [hm] at hmd hnest
  obtain ⟨hcur, hcont⟩ := hmd
  have hfs := unwindWalk_frames hcur hw
  have hqt := unwindWalk_quiet hw
  obtain ⟨haddr, hnext⟩ := hfs.entered t entry rfl
  have hstays : ∀ target, u.target = .instruction target →
      entry.addr.frameIndex = u.cursor.frameIndex := by
    intro target ht
    have hlen := (hfs.stays (targetFrame_of_instruction hnest ht)).1
    simp only [UnwindOutcome.context] at hlen
    omega
  obtain ⟨hbel, hus⟩ := hcont.enter entry.handler.instructions.start hstays hnext
  refine
    { nested := ⟨hnest, (hc.nested.walk hw).saved⟩
      within := ?_
      suspended := hc.suspended
      suspendedWithin := by simp [enterCleanup, setMode, modifyFrame]
      saved := ?_
      mode := ⟨_, _, bodies_cons rfl, rfl, hnext.symm, hbel⟩ }
  · intro b hb
    have hlen : (enterCleanup u t entry).frames.length = t.frames.length := by
      simp [enterCleanup, setMode, modifyFrame]
    rw [hlen, ← haddr]
    rcases mem_cons.mp hb with rfl | hb
    · exact Nat.lt_succ_self _
    · exact (mem_leaveTo hb).2
  · have hk : t.continuation = s.continuation := hqt.continuation
    rw [interruptedUnwinds_cons rfl, hus, ← hc.saved, ← hk]
    rfl

lemma Coherent.raised (hw : unwindWalk u typeInit s = .ok (.raised t)) :
    Coherent t { a with live := popTo t.frames.length a.live } := by
  have hmd := hc.mode
  have hnest := hc.nested.mode
  rw [hm] at hmd hnest
  obtain ⟨hcur, hcont⟩ := hmd
  have hfs := unwindWalk_frames hcur hw
  have hqt := unwindWalk_quiet hw
  obtain ⟨x, p, hthr⟩ := hqt.raised t rfl
  -- only an unwind towards a handler pops frames
  have hno : ∀ b ∈ bodies a.live, b.interrupted? = none := by
    cases ht : u.target with
    | handler addr => exact hcont.not_interrupted ht
    | instruction target =>
      exact absurd rfl ((hfs.stays (targetFrame_of_instruction hnest ht)).2 t)
  have hlive := not_interrupted_of_bodies hno
  have hpop : ∀ b ∈ popTo t.frames.length a.live, b.interrupted? = none :=
    fun b hb => hlive b (mem_popTo.mp hb).1
  refine
    { nested := hc.nested.walk hw
      within := within_popTo _ _
      suspended := hc.suspended
      suspendedWithin := by simp [hthr]
      saved := ?_
      mode := by rw [hthr]; exact fun b hb => hpop b (mem_bodies hb) }
  have hk : t.continuation = s.continuation := hqt.continuation
  rw [hk, hc.saved, interruptedUnwinds_eq_nil hlive, interruptedUnwinds_eq_nil hpop]

end

lemma MethodsOf.handlerAt {fs gs : List (StackFrame Ty)}
    {h : Handler Ty} (hm : MethodsOf fs gs) (hh : handlerAt gs addr = some h) :
    handlerAt fs addr = some h := by
  obtain ⟨g, hg, hrest⟩ := Option.bind_eq_some_iff.mp hh
  obtain ⟨f, hf, hinfo⟩ := hm _ g hg
  refine Option.bind_eq_some_iff.mpr ⟨f, hf, ?_⟩
  rw [← hinfo]
  exact hrest

variable {sig : Signal}

lemma enterHandler_handlerAt {x : Option ObjectRef} (h : enterHandler s x addr = .ok (sig, s')) :
    ∃ handler y, handlerAt s.frames addr = some handler ∧ x = some y ∧
      addr.frameIndex < s.frames.length ∧ s'.frames.length = s.frames.length := by
  unfold enterHandler at h
  split at h
  · cases h
  · next frame hfr =>
    split at h
    · cases h
    · next p hp =>
      split at h
      · next handler y hh =>
        simp only [Except.ok.injEq, Prod.mk.injEq] at h
        refine ⟨handler, y, by simp [handlerAt, hfr, hp, hh], rfl, ?_, ?_⟩
        · exact (List.getElem?_eq_some_iff.mp hfr).1
        · rw [← h.2]
          simp [ThreadContext.push, ThreadContext.truncate, modifyFrame,
            setMode]
      · cases h

variable (hc : Coherent s a) (hm : s.exceptionMode = .unwinding u)
  (hw : unwindWalk u typeInit s = .ok (.arrived t))
include hc hm hw

lemma Coherent.caught {handler : Handler Ty} (ht : u.target = .handler addr)
    (hleft : bodies (leaveTo addr.frameIndex handler.instructions.start a.live) = [])
    (hn : NestedFree s') (h : enterHandler t u.exception addr = .ok (sig, s')) :
    Coherent s'
      { a with live := ⟨addr, handler.instructions, .caught x⟩ ::
          leaveTo addr.frameIndex handler.instructions.start a.live } := by
  have hmd := hc.mode
  rw [hm] at hmd
  have hno : ∀ b ∈ bodies a.live, b.interrupted? = none := hmd.2.not_interrupted ht
  obtain ⟨_, hent, hk⟩ := enterHandler_quiet h
  obtain ⟨_, _, _, _, hlt, hlen⟩ := enterHandler_handlerAt h
  refine
    { nested := hn
      within := ?_
      suspended := hc.suspended
      suspendedWithin := by simp [hent]
      saved := ?_
      mode := by rw [hent]; exact hleft }
  · intro b hb
    rw [hlen]
    rcases mem_cons.mp hb with rfl | hb
    · exact hlt
    · exact lt_of_lt_of_le (mem_leaveTo hb).2 hlt
  · have hk' : t.continuation = s.continuation := (unwindWalk_quiet hw).continuation
    rw [hk, hk', hc.saved, interruptedUnwinds_eq_nil (not_interrupted_of_bodies hno),
      interruptedUnwinds_cons rfl, ← interruptedUnwinds_bodies, hleft]
    rfl

/-- A completed `leave` continues in the body it interrupted, if there is one. -/
lemma Coherent.arrived {ip : Nat} (ht : u.target = .instruction ip) (hip : ip ≠ usizeMax)
    (hn : NestedFree s') (h : arriveAt t u.targetFrame ip = .ok (sig, s')) :
    Coherent s' { a with live := resumeInterrupted (leaveTo u.targetFrame ip a.live) } := by
  have hmd := hc.mode
  have hnest := hc.nested.mode
  rw [hm] at hmd hnest
  obtain ⟨hcur, hcont⟩ := hmd
  have htgt := targetFrame_of_instruction hnest ht
  have hlen := ((unwindWalk_frames hcur hw).stays htgt).1
  have hk : t.continuation = s.continuation := (unwindWalk_quiet hw).continuation
  simp only [UnwindOutcome.context] at hlen
  obtain ⟨_, _, rfl⟩ := arriveAt_eq h
  have hwin : Within t.frames.length (resumeInterrupted (leaveTo u.targetFrame ip a.live)) :=
    Within.resumeInterrupted fun b hb => hlen ▸ hc.within b (mem_leaveTo hb).1
  have hus : t.continuation.unwinds = interruptedUnwinds (bodies a.live) := by
    rw [hk, hc.saved, interruptedUnwinds_bodies]
  have hres : ∀ bs, bodies (resumeInterrupted (leaveTo u.targetFrame ip a.live)) = bs →
      t.continuation.unwinds.tail = interruptedUnwinds bs →
      ModeCoherent s.frames.length (resumedMode t.continuation.unwinds) bs →
      (∀ state, resumedMode t.continuation.unwinds ≠ .filtering state) →
      Coherent { t with
        exceptionMode := resumedMode t.continuation.unwinds
        continuation := t.continuation.popHandlerUnwind.2
        frames := t.frames.modify u.targetFrame fun f => { f with ip := ip, stackHeight := 0 } }
        { a with live := resumeInterrupted (leaveTo u.targetFrame ip a.live) } := by
    intro bs hbs htail hmd hnot
    refine
      { nested := hn
        within := by simpa using hwin
        suspended := hc.suspended
        suspendedWithin := fun state hst => absurd hst (hnot state)
        saved := ?_
        mode := ?_ }
    · rw [← interruptedUnwinds_bodies, hbs, ← htail]
      exact unwinds_popHandlerUnwind _
    · simp only [hbs, length_modify, hlen]
      exact hmd
  generalize hbs : bodies a.live = bs at hcont hus
  cases hcont with
  | handler addr ht' _ => rw [ht] at ht'; cases ht'
  | ret ht' =>
    rw [ht] at ht'
    exact absurd (UnwindTarget.instruction.inj ht') hip
  | leaveOutside target ht' _ =>
    have hnil : bodies (leaveTo u.targetFrame ip a.live) = [] := bodies_leaveTo_nil hbs
    refine hres [] ?_ ?_ ?_ ?_
    · rw [resumeInterrupted_of_bodies_nil hnil, hnil]
    · rw [hus]; rfl
    · rw [hus]; rfl
    · simp [hus, interruptedUnwinds, resumedMode]
  | @leaveInside _ w b rest target ht' _ hk hb hbel h =>
    have hkept : bodies (leaveTo u.targetFrame ip a.live) = b :: rest := by
      rw [bodies_leaveTo (by rw [hbs, htgt]; exact hbel), hbs]
    have hus' : t.continuation.unwinds = w :: interruptedUnwinds rest := by
      simpa [interruptedUnwinds, interrupted?_eq_some.mpr hk] using hus
    refine hres _ (bodies_resumeInterrupted hkept hk) ?_ ?_ ?_
    · rw [hus']
      rfl
    · rw [hus']
      exact ⟨_, rest, rfl, rfl, hb, h⟩
    · simp [hus', resumedMode]

end DotnetVm
