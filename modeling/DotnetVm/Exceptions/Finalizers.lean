import DotnetVm.Exceptions.ExceptionStacks
import DotnetVm.Stack.Interposed

/-!
# Modes across a finalizer

The mode and the saved unwinds are no part of a frame, so a finalizer runs with
those of the code it interrupts. A `leave` in the finalizer saves an interrupted
finally or fault body and takes it back, but replaces the mode of an interrupted
filter; and a finalizer interposed while an exception is under way is unwound before
it has run. In the other modes, the bodies below, the mode and the saved unwinds are
the same when it returns.
-/

namespace DotnetVm

open List ThreadContext

variable {Ty : Type} {host : Host Ty} {s t t' w : ThreadContext Ty} {a b : Activations Ty}
  {info : MethodInfo Ty} {f : StackFrame Ty} {init : List (StackFrame Ty)} {e : Effects Ty}
  {u : UnwindState} {as bs cs : List (Activation Ty)} {c : Activation Ty} {n : Nat}

/-- The bodies that run in the frames below index `n`. -/
def bodiesBelow (n : Nat) (as : List (Activation Ty)) : List (Activation Ty) := popTo n (bodies as)

/-- The same bodies, but for whether a `leave` interrupts the innermost. -/
def SameBodies (as bs : List (Activation Ty)) : Prop :=
  as.tail = bs.tail ∧
    as.head?.map (Activation.setInterrupted false) = bs.head?.map (Activation.setInterrupted false)

lemma SameBodies.refl (as : List (Activation Ty)) : SameBodies as as := ⟨rfl, rfl⟩

lemma SameBodies.trans (h : SameBodies as bs) (h' : SameBodies bs cs) : SameBodies as cs :=
  ⟨h.1.trans h'.1, h.2.trans h'.2⟩

lemma bodies_popTo_comm (n : Nat) (as : List (Activation Ty)) :
    bodies (popTo n as) = bodiesBelow n as := filter_comm ..

lemma popTo_popTo {m : Nat} (h : n ≤ m) (as : List (Activation Ty)) :
    popTo n (popTo m as) = popTo n as := by
  unfold popTo
  rw [filter_filter]
  refine filter_congr fun c _ => ?_
  simp only [← Bool.decide_and, decide_eq_decide]
  omega

lemma popTo_cons_of_le (h : n ≤ c.frameIndex) (as : List (Activation Ty)) :
    popTo n (c :: as) = popTo n as := filter_cons_of_neg (by simp; omega)

lemma bodiesBelow_cons (h : n ≤ c.frameIndex) (as : List (Activation Ty)) :
    bodiesBelow n (c :: as) = bodiesBelow n as := by
  rw [← bodies_popTo_comm, popTo_cons_of_le h, bodies_popTo_comm]

lemma bodiesBelow_popTo {m : Nat} (h : n ≤ m) (as : List (Activation Ty)) :
    bodiesBelow n (popTo m as) = bodiesBelow n as := by
  rw [← bodies_popTo_comm, popTo_popTo h, bodies_popTo_comm]

lemma bodiesBelow_leaveTo {i : Nat} (h : n ≤ i) (ip : Nat) (as : List (Activation Ty)) :
    bodiesBelow n (leaveTo i ip as) = bodiesBelow n as := by
  have hdrop : popTo n (leaveTo i ip as) = popTo n (popTo (i + 1) as) := by
    refine filter_dropWhile fun c _ hq => ?_
    simp only [Bool.and_eq_true, beq_iff_eq] at hq
    simp only [decide_eq_false_iff_not]
    omega
  rw [← bodies_popTo_comm, hdrop, popTo_popTo (by omega), bodies_popTo_comm]

lemma bodiesBelow_eq_nil (h : ∀ c ∈ as, n ≤ c.frameIndex) : bodiesBelow n as = [] := by
  refine filter_eq_nil_iff.mpr fun c hc => ?_
  have hle := h c (mem_bodies hc)
  simp only [decide_eq_true_eq]
  omega

lemma frameIndex_setInterrupted (i : Bool) (c : Activation Ty) :
    (c.setInterrupted i).frameIndex = c.frameIndex :=
  congrArg HandlerAddress.frameIndex (addr_setInterrupted i c)

lemma setInterrupted_setInterrupted (i j : Bool) (c : Activation Ty) :
    (c.setInterrupted i).setInterrupted j = c.setInterrupted j := by
  cases hk : c.kind with
  | cleanup u k =>
    rw [setInterrupted_of_kind hk, setInterrupted_of_kind hk,
      setInterrupted_of_kind rfl]
  | _ => simp [Activation.setInterrupted, hk]

lemma sameBodies_setInterrupted (n : Nat) (i : Bool) (c : Activation Ty)
    (as : List (Activation Ty)) :
    SameBodies (popTo n (c :: as)) (popTo n (c.setInterrupted i :: as)) := by
  by_cases hlt : c.frameIndex < n
  · have hc : popTo n (c :: as) = c :: popTo n as := filter_cons_of_pos (by simpa using hlt)
    have hc' : popTo n (c.setInterrupted i :: as) = c.setInterrupted i :: popTo n as :=
      filter_cons_of_pos (by simpa [frameIndex_setInterrupted] using hlt)
    rw [hc, hc']
    refine ⟨rfl, ?_⟩
    simp [setInterrupted_setInterrupted]
  · rw [popTo_cons_of_le (by omega), popTo_cons_of_le (by rw [frameIndex_setInterrupted]; omega)]
    exact SameBodies.refl _

/-- What a filter suspended belongs to frames above its own. -/
def SuspendedAbove (s : ThreadContext Ty) (a : Activations Ty) : Prop :=
  ∀ state, s.exceptionMode = .filtering state → ∀ c ∈ a.suspended, state.handler.frameIndex <
    c.frameIndex

lemma sameBodies_leave (hc : Coherent t a) (hm : t.exceptionMode.isNormal = true)
    (hcl : ∀ c ∈ (bodies a.live).head?, c.isClause = false) (n : Nat) :
    SameBodies (bodiesBelow n a.live) (bodiesBelow n (interrupt a.live)) := by
  rcases hc.normal_cases hm hcl with ⟨_, hnil⟩ | ⟨u, c, rest, _, hbod, hk, _, _⟩
  · rw [interrupt_of_bodies_nil hnil]
    exact SameBodies.refl _
  · unfold bodiesBelow
    rw [bodies_interrupt hbod hk, ← setInterrupted_of_kind hk, hbod]
    exact sameBodies_setInterrupted n true c rest

lemma bodiesBelow_dropThrough {p : Activation Ty → Bool}
    (hp : ∀ c : Activation Ty, p c = true → c.isBody = true) (hin : InBody p t a)
    (hlt : n < t.frames.length) : bodiesBelow n (dropThrough p a.live) = bodiesBelow n a.live := by
  obtain ⟨c, hhead, hpc, htop⟩ := hin
  obtain ⟨rest, hbod⟩ := head?_eq_some_iff.mp hhead
  unfold bodiesBelow
  rw [bodies_dropThrough hp hpc hbod, hbod, popTo_cons_of_le (by omega)]

lemma bodiesBelow_append (n : Nat) (as bs : List (Activation Ty)) :
    bodiesBelow n (as ++ bs) = bodiesBelow n as ++ bodiesBelow n bs := by
  simp [bodiesBelow, bodies, popTo]

lemma sameBodies_instruction (hc : Coherent t a) (hsusp : SuspendedAbove t a)
    (hm : t.exceptionMode.isNormal = true) (hs : t.frames = init ++ [f])
    (hd : DisciplinedInstruction t a f e) (hb : BalancedInstruction t f e)
    (h : NormalStep f e t t') (hn : n ≤ init.length) (hlen : n ≤ t'.frames.length) :
    SameBodies (bodiesBelow n a.live) (bodiesBelow n (trackInstruction a t f e t').live) := by
  have hlt : n < t.frames.length := by simp [hs]; omega
  unfold DisciplinedInstruction at hd
  unfold BalancedInstruction at hb
  unfold trackInstruction
  split
  · next target hmc hx =>
    simp only [hmc, hx] at hd
    exact sameBodies_leave hc hm hd.2 n
  · next hmc hx =>
    simp only [hmc, hx] at hd
    rw [bodiesBelow_dropThrough (fun _ => isBody_of_isCleanup) hd hlt]
    exact SameBodies.refl _
  · next hmc hx =>
    simp only [hmc, hx] at hd hb
    obtain ⟨result, w, hpop, hend⟩ := h.leavesHandler ⟨hmc, hx⟩
    obtain ⟨hq, _⟩ := popSafe_local (s := snapshot t f) hs hpop
    obtain ⟨state, _, hst, _, _, _⟩ := endFilter_eq hend
    have hmd : t.exceptionMode = .filtering state := by rw [← hst, hq.mode]; rfl
    unfold EndsFilter at hb
    rw [hmd] at hb
    have habove : ∀ c ∈ a.suspended, n ≤ c.frameIndex := fun c hmem => by
      have hidx := hsusp state hmd c hmem
      omega
    rw [bodiesBelow_append, bodiesBelow_eq_nil habove,
      bodiesBelow_dropThrough (fun _ => isBody_of_isClause) hd hlt]
    exact SameBodies.refl _
  iterate 3
    rw [bodiesBelow_popTo hlen]
    exact SameBodies.refl _
  · rw [bodiesBelow_popTo]
    · exact SameBodies.refl _
    · split
      · next hkept =>
        rw [hkept.2, hs]
        simpa using hn
      · exact hlen

section

variable (hc : Coherent t a) (hm : t.exceptionMode = .unwinding u)
include hc hm

lemma sameBodies_resume {ip : Nat} (ht : u.target = .instruction ip) (hip : ip ≠ usizeMax)
    (n : Nat) :
    SameBodies (bodiesBelow n a.live)
      (bodiesBelow n (resumeInterrupted (leaveTo u.targetFrame ip a.live))) := by
  have hmd := hc.mode
  have hnest := hc.nested.mode
  rw [hm] at hmd hnest
  obtain ⟨_, hcont⟩ := hmd
  have htgt := targetFrame_of_instruction hnest ht
  generalize hbod : bodies a.live = bs at hcont
  unfold bodiesBelow
  cases hcont with
  | handler addr ht' _ => rw [ht] at ht'; cases ht'
  | ret ht' =>
    rw [ht] at ht'
    exact absurd (UnwindTarget.instruction.inj ht') hip
  | leaveOutside target _ _ =>
    have hnil : bodies (leaveTo u.targetFrame ip a.live) = [] := bodies_leaveTo_nil hbod
    rw [resumeInterrupted_of_bodies_nil hnil, hnil, hbod]
    exact SameBodies.refl _
  | @leaveInside _ v c rest target _ _ hk _ hbel _ =>
    have hkept : bodies (leaveTo u.targetFrame ip a.live) = c :: rest := by
      rw [bodies_leaveTo (by rw [hbod, htgt]; exact hbel), hbod]
    rw [bodies_resumeInterrupted hkept hk, ← setInterrupted_of_kind hk, hbod]
    exact sameBodies_setInterrupted n false c rest

lemma sameBodies_unwind {typeInit : Option ObjectRef} (h : UnwindStep u typeInit t t' .exception)
    (hlt : n < t'.frames.length) :
    SameBodies (bodiesBelow n a.live) (bodiesBelow n (trackUnwind a.live t u typeInit t')) := by
  have hmd := hc.mode
  rw [hm] at hmd
  obtain ⟨hcur, _⟩ := hmd
  unfold trackUnwind
  cases h with
  | cleanup w entry hw heq =>
    have haddr := ((unwindWalk_frames hcur hw).entered w entry rfl).1
    have hlen : t'.frames.length = w.frames.length := by
      rw [heq]
      simp [enterCleanup, setMode, modifyFrame]
    have hle : n ≤ entry.addr.frameIndex := by omega
    simp only [hw]
    rw [bodiesBelow_cons hle, bodiesBelow_leaveTo hle]
    exact SameBodies.refl _
  | raised hw =>
    simp only [hw]
    rw [bodiesBelow_popTo (le_of_lt hlt)]
    exact SameBodies.refl _
  | handler w addr hw ht _ hent =>
    obtain ⟨handler, y, hat, hx, haddr, hlen⟩ := enterHandler_handlerAt hent
    simp only [hw, ht, hat, hx]
    have htf : u.targetFrame = addr.frameIndex := by simp [UnwindState.targetFrame, ht]
    have hle : n ≤ addr.frameIndex := by
      by_cases hbel : u.targetFrame ≤ u.cursor.frameIndex
      · obtain ⟨low, f, hwalk, htop⟩ := (unwindWalk_shape hcur hbel hw).arrived w rfl
        have hw' : w.frames.length = low.length + 1 := by simp [hwalk.frames]
        omega
      · have hle' := (unwindWalk_frames hcur hw).le
        simp only [UnwindOutcome.context] at hle'
        omega
    rw [bodiesBelow_cons hle, bodiesBelow_leaveTo hle]
    exact SameBodies.refl _
  | leave w ip hw ht hip _ _ =>
    simp only [hw, ht, if_neg hip]
    exact sameBodies_resume hc hm ht hip n

end

/-- The steps of runs on which finalizers leave no trace. -/
def FinalizerSafe (p : ThreadContext Ty × Activations Ty) (ev : Event Ty) : Prop :=
  Disciplined p ev ∧ Balanced p.1 ev ∧ KeepsFinalizer p.1 ev

/-- What these steps keep. -/
structure FinalizerInvariant (s : ThreadContext Ty) (a : Activations Ty) : Prop where
  coherent : Coherent s a
  tiling : TilingInvariant s
  above : SuspendedAbove s a

variable {ev : Event Ty}

lemma suspendedAbove_step (hc : Coherent s a) (h : SuspendedAbove s a)
    (hst : step host s ev = .ok t) : SuspendedAbove t (track a s ev t) := by
  have hcase := step_cases hc.nested.mode hst
  intro state hm
  cases hcase with
  | normal e init f hnorm hs hinstr =>
    rw [track_normal hnorm hs, trackInstruction_suspended (hinstr.not_endFilter hm)]
    exact h state ((hinstr.modeChange hs).filtering hm)
  | throwing e x p _ heq => subst heq; cases hm
  | accepted e search addr _ _ heq => subst heq; cases hm
  | filter e search addr clauseOffset low frame high hsrch _ _ _ _ heq =>
    intro c hc
    simp only [track, hsrch, trackSearch, hm, mem_filter, decide_eq_true_eq] at hc
    exact hc.2
  | unwound e u _ hunw => exact absurd hm (hunw.mode_ne.2 state)
  | returned e u w _ _ _ hret =>
    rw [(handleReturn_quiet hret).mode] at hm
    cases hm
  | interposed callee this init f _ _ hcall =>
    rw [hcall.1.mode] at hm
    exact h state hm
  | deferred callee this heq | resume k _ heq =>
    subst heq
    exact h state hm

lemma finalizerInvariant_step (hi : FinalizerInvariant s a)
    (hok : FinalizerSafe (s, a) ev) (hst : step host s ev = .ok t) :
    FinalizerInvariant t (track a s ev t) :=
  ⟨coherent_step hi.coherent hok.1 hst, tilingInvariant_step hi.tiling hok.2.1 hst,
    suspendedAbove_step hi.coherent hi.above hst⟩

lemma FinalizerInvariant.run (h : TrackedRun host FinalizerSafe s a) : FinalizerInvariant s a :=
  h.invariant
    (fun info args => ⟨coherent_entrypoint info args, tilingInvariant_entrypoint info args,
      by simp [SuspendedAbove]⟩)
    fun _ _ _ _ hi hok hst => finalizerInvariant_step hi hok hst

lemma sameBodies_step (hi : FinalizerInvariant t a)
    (hok : FinalizerSafe (t, a) ev) (hst : step host t ev = .ok t') (hn : n < t.frames.length)
    (hlt : n < t'.frames.length) :
    SameBodies (bodiesBelow n a.live) (bodiesBelow n (track a t ev t').live) := by
  obtain ⟨hd, hb, _⟩ := hok
  have hcase := step_cases hi.coherent.nested.mode hst
  cases hcase with
  | normal e init f hm hs hinstr =>
    rw [track_normal hm hs]
    have hle : n ≤ init.length := by
      simp only [hs, length_append, length_singleton] at hn
      omega
    exact sameBodies_instruction hi.coherent hi.above hm hs (hd.instruction hm hs)
      (hb.instruction hm hs) hinstr hle (le_of_lt hlt)
  | throwing e x p hm heq =>
    simp only [track, hm]
    exact SameBodies.refl _
  | accepted e state addr hm _ heq =>
    subst heq
    simp only [track, hm]
    exact SameBodies.refl _
  | filter e state addr clauseOffset low frame high hm _ hs hlow _ heq =>
    have hle : n ≤ addr.frameIndex := by
      simp only [heq, filterEntered, length_append, length_singleton] at hlt
      omega
    have hmd : t'.exceptionMode = .filtering
        ⟨state.exception, addr, frame.ip, frame.base.stack + frame.stackHeight⟩ := by rw [heq]; rfl
    simp only [track, hm, trackSearch, hmd]
    rw [bodiesBelow_cons hle, bodiesBelow_popTo (by omega)]
    exact SameBodies.refl _
  | unwound e u hm hunw =>
    simp only [track, hm]
    exact sameBodies_unwind hi.coherent hm hunw hlt
  | returned e u w hm hw ht hret =>
    simp only [track, hm, trackUnwind, hw, ht, if_true]
    rw [bodiesBelow_popTo (le_of_lt hlt)]
    exact SameBodies.refl _
  | interposed callee this init f hs _ hcall => exact SameBodies.refl _
  | deferred callee this heq => exact SameBodies.refl _
  | resume k _ heq => exact SameBodies.refl _

section

variable (hc : Coherent s a) (hm : s.exceptionMode.isNormal = true)
include hc hm

lemma Coherent.head_settled : ∀ c ∈ (bodies a.live).head?, c.setInterrupted false = c := by
  intro c hhead
  have hmd := hc.mode_of_head hm hhead
  have hcoherent := hc.mode
  cases hk : c.kind with
  | cleanup u i =>
    rw [Activation.mode?, hk] at hmd
    rw [← Option.some.inj hmd] at hcoherent
    obtain ⟨d, rest, hbod, hd, _⟩ := hcoherent
    obtain rfl : d = c := by simpa [hbod] using hhead
    rw [setInterrupted_of_kind hd, ← hd]
  | _ => simp [Activation.setInterrupted, hk]

lemma Coherent.mode_of_bodies_nil (hnil : bodies a.live = []) : s.exceptionMode = .none := by
  rcases hc.normal_cases hm (by simp [hnil]) with ⟨hx, _⟩ | ⟨u, c, rest, _, hcons, _⟩
  · exact hx
  · rw [hnil] at hcons
    cases hcons

end

lemma SameBodies.eq (h : SameBodies as bs) (ha : ∀ c ∈ as.head?, c.setInterrupted false = c)
    (hb : ∀ c ∈ bs.head?, c.setInterrupted false = c) : as = bs := by
  obtain ⟨htail, hhead⟩ := h
  cases as with
  | nil =>
    cases bs with
    | nil => rfl
    | cons d ds => cases hhead
  | cons c cs =>
    cases bs with
    | nil => cases hhead
    | cons d ds =>
      have hc := ha c rfl
      have hd := hb d rfl
      simp only [head?_cons, Option.map_some, hc, hd, Option.some.injEq] at hhead
      rw [hhead]
      exact congrArg (d :: ·) htail

lemma Coherent.determined (hc : Coherent s a) (hc' : Coherent t b)
    (hm : s.exceptionMode.isNormal = true) (hm' : t.exceptionMode.isNormal = true)
    (h : SameBodies (bodies a.live) (bodies b.live)) :
    t.exceptionMode = s.exceptionMode ∧ t.continuation.unwinds = s.continuation.unwinds := by
  have heq := h.eq (hc.head_settled hm) (hc'.head_settled hm')
  constructor
  · cases hbod : bodies a.live with
    | nil => rw [hc.mode_of_bodies_nil hm hbod, hc'.mode_of_bodies_nil hm' (heq ▸ hbod)]
    | cons c rest =>
      have hmd := hc.mode_of_head hm (by rw [hbod]; rfl)
      have hmd' := hc'.mode_of_head hm' (by rw [← heq, hbod]; rfl)
      exact Option.some.inj (hmd'.symm.trans hmd)
  · rw [hc.saved, hc'.saved, ← interruptedUnwinds_bodies a.live, heq, interruptedUnwinds_bodies]

lemma NormalStep.popped (hs : t.frames = init ++ [f]) (h : NormalStep f e t t')
    (hlt : t'.frames.length < t.frames.length) :
    (Executes f .ret ∧ handleReturn (snapshot t f) e.returned = .ok t') ∨
      (f.multicastState.isSome = true ∧ handleReturn t e.returned = .ok t') := by
  have hsnaps : (snapshot t f).frames = init ++ [f] := hs
  have hmoved : ∀ {g w}, ¬ OpMove init f g e.result w t' := by
    intro g w hmove
    have hlen : t.frames.length = init.length + 1 := by simp [hs]
    cases hmove with
    | moved ip g' _ _ _ hfs => simp [hfs, hlen] at hlt
    | raised x v _ hl hset =>
      obtain ⟨_, g', _, hfs⟩ := hl
      simp [hset, setMode, hfs, hlen] at hlt
    | called hc =>
      obtain ⟨_, g', k, _, _, hfs⟩ := hc
      simp only [hfs, length_append, length_singleton] at hlt
      omega
    | replaced _ hr =>
      obtain ⟨_, k, _, hfs⟩ := hr
      simp [hfs, hlen] at hlt
  cases h with
  | leave _ _ h | endFinally _ _ _ h | rethrow _ _ _ _ h | retUnwind _ _ _ h =>
    subst h; exact absurd hlt (lt_irrefl _)
  | endFilter result w _ hpop h =>
    obtain ⟨_, g, _, hfs⟩ := popSafe_local hsnaps hpop
    obtain ⟨state, restored, _, _, hrest, rfl⟩ := endFilter_eq h
    simp only [setMode, hrest, restoreSuspended,
      modifyFrame, length_append, length_modify, length_singleton,
      hfs, hs] at hlt
    omega
  | throw v w _ hpop h =>
    obtain ⟨_, g, _, hfs⟩ := popSafe_local hsnaps hpop
    obtain ⟨y, rfl⟩ := throwValue_eq h
    simp [setMode, hfs, hs] at hlt
  | retReturn hx _ _ h => exact .inl ⟨hx, h⟩
  | op _ h => exact absurd (runOp_cases hsnaps rfl h) hmoved
  | multicast state target w _ hdis h =>
    obtain ⟨_, _, hmove⟩ := multicast_moves hs hdis h
    exact absurd hmove hmoved
  | multicastReturn state hmc h => exact .inr ⟨by rw [hmc]; rfl, h⟩

/-- A safe step taken while there are more than `count` frames. -/
def SafeAbove (count : Nat) (p : ThreadContext Ty × Activations Ty) (ev : Event Ty) : Prop :=
  FinalizerSafe p ev ∧ count < p.1.frames.length

def Returning (s : ThreadContext Ty) : Prop :=
  s.exceptionMode.isNormal = true ∨
    ∃ u, s.exceptionMode = .unwinding u ∧ u.target = .instruction usizeMax

structure Completes (host : Host Ty) (s : ThreadContext Ty)
    (p q : ThreadContext Ty × Activations Ty) (ev : Event Ty) (t : ThreadContext Ty) : Prop where
  run : Runs.Run (trackedNext host) (SafeAbove s.frames.length) p q
  safe : SafeAbove s.frames.length q ev
  returning : Returning q.1
  step : step host q.1 ev = .ok t
  popped : t.frames.length ≤ s.frames.length

/-- What the finalizer keeps of the thread it interrupted. -/
structure Interrupted (s : ThreadContext Ty) (a : Activations Ty) (info : MethodInfo Ty)
    (p : ThreadContext Ty × Activations Ty) : Prop where
  invariant : FinalizerInvariant p.1 p.2
  finalizing : s.frames.length < p.1.frames.length → Finalizing s info p.1
  bodies : s.frames.length < p.1.frames.length →
    SameBodies (bodies a.live) (bodiesBelow s.frames.length p.2.live)

variable {q : ThreadContext Ty × Activations Ty}

lemma interrupted_step {p : ThreadContext Ty × Activations Ty}
    (hi : Interrupted s a info p) (hok : SafeAbove s.frames.length p ev)
    (hnext : trackedNext host p ev = some q) : Interrupted s a info q := by
  obtain ⟨hsafe, hlt⟩ := hok
  obtain ⟨hst, hq⟩ := trackedNext_eq_some.mp hnext
  refine ⟨by rw [hq]; exact finalizerInvariant_step hi.invariant hsafe hst, fun hlt' => ?_,
    fun hlt' => ?_⟩
  · exact finalizing_step (hi.finalizing hlt) hi.invariant.tiling hsafe.1 hsafe.2.1 hsafe.2.2 hst
      hlt'
  · rw [hq]
    exact (hi.bodies hlt).trans (sameBodies_step hi.invariant hsafe hst hlt hlt')

structure FinalReturn (s : ThreadContext Ty) (info : MethodInfo Ty)
    (q : ThreadContext Ty × Activations Ty) (ev : Event Ty) (t : ThreadContext Ty) : Prop where
  current : ∃ f, q.1.frames = s.frames ++ [f] ∧ f.info = info ∧ f.isFinalizer = true ∧
    (q.1.exceptionMode.isNormal = true → Executes f .ret)
  frames : t.frames = s.frames
  stack : t.stack = s.stack
  mode : t.exceptionMode.isNormal = true
  live : (track q.2 q.1 ev t).live = popTo t.frames.length q.2.live

lemma finalReturn_of_popped (hi : Interrupted s a info q) (hinfo : IsFinalizer info)
    (hcont : ∀ c ∈ s.frames.getLast?, c.frameContinuation = none)
    (hok : SafeAbove s.frames.length q ev) (hret : Returning q.1)
    (hstep : step host q.1 ev = .ok t) (hpop : t.frames.length ≤ s.frames.length) :
    FinalReturn s info q ev t := by
  obtain ⟨w, b⟩ := q
  obtain ⟨⟨hd, hb, _⟩, hlt⟩ := hok
  have hfin := hi.finalizing hlt
  have htil := hi.invariant.tiling
  have hnest := htil.nested.mode
  have hcase := step_cases htil.nested.mode hstep
  simp only at hfin htil hnest hcase hret hlt
  cases hcase with
  | normal e init f hm hs hinstr =>
    have hdis := hd.instruction hm hs
    unfold DisciplinedInstruction at hdis
    rcases hinstr.popped hs (by omega) with ⟨hx, hreturn⟩ | ⟨hmc, hreturn⟩
    · simp only [hx.1, hx.2] at hdis
      have hsnap : Finalizing s info (snapshot w f) := hfin.congr rfl rfl
      obtain ⟨rfl, hfr, hfs, hstk⟩ :=
        hsnap.ends hinfo hcont hs hdis.2.1 hreturn hpop
      refine ⟨⟨f, hs, hfr.method, hfr.isFinalizer, fun _ => hx⟩, hfs, hstk, ?_, ?_⟩
      · rw [(handleReturn_quiet hreturn).mode]
        exact hm
      · rw [track_normal hm hs]
        simp only [trackInstruction, hx.1, hx.2]
    · obtain ⟨state, hst⟩ := Option.isSome_iff_exists.mp hmc
      simp only [hst] at hdis
      obtain ⟨rfl, hfr, _, _⟩ := hfin.ends hinfo hcont hs hdis.2.2 hreturn hpop
      rw [hfr.multicastState] at hmc
      cases hmc
  | throwing e x p hm _ | accepted e state addr hm _ _
  | filter e state addr clauseOffset low frame high hm _ _ _ _ _ => simp [Returning, hm] at hret
  | unwound e u hm hunw =>
    have htgt : u.target = .instruction usizeMax := by simpa [Returning, hm] using hret
    simp only [Balanced, hm] at hb
    rw [hm] at hnest
    have hstays := targetFrame_of_instruction hnest htgt
    exfalso
    cases hunw with
    | cleanup v entry hw heq =>
      have hlen := ((unwindWalk_frames hb.1 hw).stays hstays).1
      simp only [UnwindOutcome.context] at hlen
      simp only [heq, enterCleanup, setMode, modifyFrame,
        length_modify] at hpop
      omega
    | raised hw => exact ((unwindWalk_frames hb.1 hw).stays hstays).2 t rfl
    | handler v addr _ ht' _ _ => rw [htgt] at ht'; cases ht'
    | leave v ip _ ht' hip _ _ =>
      rw [htgt] at ht'
      exact hip (UnwindTarget.instruction.inj ht').symm
  | returned e u v hm hw htgt hreturn =>
    simp only [Balanced, hm] at hb
    simp only [Disciplined, hm, htgt] at hd
    rw [hm] at hnest
    obtain ⟨init, f, hs, hfin', hcode⟩ :=
      hfin.arrived htil.tiled hnest hb.1 hw htgt (hd True.intro) hreturn
    obtain ⟨rfl, hfr, hfs, hstk⟩ := hfin'.ends hinfo hcont hs hcode hreturn hpop
    have hlen : w.frames.length = s.frames.length + 1 := by
      have hlen := ((unwindWalk_frames hb.1 hw).stays (targetFrame_of_instruction hnest htgt)).1
      rw [← hlen]
      exact (congrArg List.length hs).trans (by simp)
    rcases eq_nil_or_concat' w.frames with hnil | ⟨low, g, hw'⟩
    · simp [hnil] at hlt
    · obtain ⟨rfl, hcur⟩ := hfin.current hw' (by simpa [hw'] using hlen)
      refine ⟨⟨g, hw', hcur.method, hcur.isFinalizer, by simp [hm]⟩, hfs, hstk, ?_, ?_⟩
      · rw [(handleReturn_quiet hreturn).mode]
        rfl
      · simp [track, hm, trackUnwind, hw, htgt]
  | interposed callee this init f hs _ hcall =>
    obtain ⟨_, g, k, _, _, hfs⟩ := hcall
    simp only [hfs, hs, length_append, length_singleton] at hpop hlt
    omega
  | deferred callee this heq => subst heq; omega
  | resume k _ heq =>
    subst heq
    exact absurd hpop (by simpa using hlt)

/-- On safe runs, a finalizer that completes normally starts at its first instruction and ends with
its return, and leaves the interrupted thread its frames, its evaluation stack, its mode and its
saved unwinds. -/
theorem finalizer_restores_thread {this : Nat} {p q : ThreadContext Ty × Activations Ty}
    {ev : Event Ty} (hrun : TrackedRun host FinalizerSafe s a) (hinfo : IsFinalizer info)
    (hsafe : FinalizerSafe (s, a) (.finalizer info this)) (hidle : s.processingFinalizer = false)
    (hstart : trackedNext host (s, a) (.finalizer info this) = some p)
    (hbody : Completes host s p q ev t) :
    (∃ f, p.1.frames = s.frames ++ [f] ∧ f.info = info ∧ f.isFinalizer = true ∧ f.ip = 0) ∧
      (∃ f, q.1.frames = s.frames ++ [f] ∧ f.info = info ∧ f.isFinalizer = true ∧
        (q.1.exceptionMode.isNormal = true → Executes f .ret)) ∧
      t.frames = s.frames ∧ t.stack = s.stack ∧ t.exceptionMode = s.exceptionMode ∧
      t.continuation.unwinds = s.continuation.unwinds := by
  have hi := FinalizerInvariant.run hrun
  obtain ⟨hst, hp⟩ := trackedNext_eq_some.mp hstart
  obtain ⟨hfin, f, hfs, hip⟩ := interposeFinalizer_finalizing hinfo hidle hst
  have hwin : bodiesBelow s.frames.length a.live = bodies a.live :=
    popTo_eq_self fun c hc => hi.coherent.within c (mem_bodies hc)
  have hstd : Interrupted s a info p := by
    refine ⟨by rw [hp]; exact finalizerInvariant_step hi hsafe hst, fun _ => hfin, fun _ => ?_⟩
    rw [hp]
    exact hwin.symm ▸ SameBodies.refl _
  have hended : Interrupted s a info q :=
    hbody.run.invariant (fun _ _ _ hq hok hnext => interrupted_step hq hok hnext) hstd
  have hret := finalReturn_of_popped hended hinfo hsafe.2.2 hbody.safe hbody.returning
    hbody.step hbody.popped
  have hc' := coherent_step hended.invariant.coherent hbody.safe.1.1 hbody.step
  have hsm : SameBodies (bodies a.live) (bodies (track q.2 q.1 ev t).live) := by
    rw [hret.live, hret.frames, bodies_popTo_comm]
    exact hended.bodies hbody.safe.2
  have hdetermined := hi.coherent.determined hc' hsafe.1 hret.mode hsm
  obtain ⟨_, hfr⟩ := hfin.current hfs rfl
  exact ⟨⟨f, hfs, hfr.method, hfr.isFinalizer, hip⟩, hret.current, hret.frames,
    hret.stack, hdetermined⟩

section

variable [DecidableEq Ty]

instance (s : ThreadContext Ty) (ev : Event Ty) : Decidable (KeepsFinalizer s ev) :=
  match ev with
  | .dispatch e => inferInstanceAs (Decidable (e.result.isJmp = true →
      ∀ f ∈ s.frames.getLast?, f.isFinalizer = false))
  | .finalizer _ _ =>
    inferInstanceAs (Decidable (∀ f ∈ s.frames.getLast?, f.frameContinuation = none))
  | .resume => inferInstanceAs (Decidable True)

instance (p : ThreadContext Ty × Activations Ty) (ev : Event Ty) :
    Decidable (FinalizerSafe p ev) := inferInstanceAs (Decidable (_ ∧ _))

instance (count : Nat) (p : ThreadContext Ty × Activations Ty) (ev : Event Ty) :
    Decidable (SafeAbove count p ev) := inferInstanceAs (Decidable (_ ∧ _))

end

/-- `~C() { try { leave L } finally { } L: ret }`. -/
def leavingFinalizer : MethodInfo Unit where
  instructions := [.leave (.short 2), .endFinally, .ret]
  exceptions := [⟨⟨0, 1⟩, [⟨⟨1, 2⟩, .finallyClause⟩]⟩]
  isInstance := true

def inFinally : ThreadContext Unit :=
  { entrypoint callInFinally [] with
    frames := [{ StackFrame.new ⟨0, 0, 0⟩ callInFinally with ip := 1 }]
    exceptionMode := .executingHandler callInFinallyUnwind }

/-- The finalizer is on top of it. -/
def finalizerStarted (ip originalIp : Nat) : ThreadContext Unit :=
  { inFinally with
    stack := [.objectRef (some 7)]
    frames := [{ StackFrame.new ⟨0, 0, 0⟩ callInFinally with ip := 1 },
      { StackFrame.new ⟨0, 1, 1⟩ leavingFinalizer with ip := ip, isFinalizer := true }]
    originalIp := originalIp
    originalStackHeight := if ip = 0 then 0 else 1
    processingFinalizer := true }

/-- Interposed in a finally body, the finalizer executes a `leave` through a finally body of its own
and returns; the interrupted body is still in its mode. -/
theorem finalizer_in_finally_restores :
    ∃ t, step unitHost (finalizerStarted 2 1) (.dispatch {}) = .ok t ∧
      t.frames = inFinally.frames ∧ t.stack = inFinally.stack ∧
      t.exceptionMode = .executingHandler callInFinallyUnwind ∧
      t.continuation.unwinds = inFinally.continuation.unwinds := by
  have hrun : TrackedRun unitHost FinalizerSafe inFinally ⟨[callInFinallyBody], []⟩ :=
    TrackedRun.of_guarded callInFinally [] [.dispatch {}, .dispatch {}] (by decide) rfl
  have hbody : Completes unitHost inFinally (finalizerStarted 0 0, ⟨[callInFinallyBody], []⟩)
      (finalizerStarted 2 1, ⟨[callInFinallyBody], []⟩) (.dispatch {})
      { inFinally with originalIp := 2, originalStackHeight := 1 } :=
    { run := Runs.Run.of_exec [.dispatch {}, .dispatch {}, .dispatch {}, .dispatch {}]
        (by decide) rfl
      safe := by decide
      returning := .inl rfl
      step := rfl
      popped := by decide }
  exact ⟨_, hbody.step, (finalizer_restores_thread hrun
    (show IsFinalizer leavingFinalizer from ⟨rfl, rfl⟩) (by decide) rfl rfl hbody).2.2⟩

/-- `try { throw } filter { op; endfilter } { leave }`. -/
def throwIntoFilter : MethodInfo Unit where
  instructions := [.op, .op, .endFilter, .leave (.short 4), .ret]
  exceptions := [⟨⟨0, 1⟩, [⟨⟨3, 4⟩, .filterClause 1⟩]⟩]

/-- `~C() { ret }`. -/
def emptyFinalizer : MethodInfo Unit where
  instructions := [.ret]
  isInstance := true

/-- Interposed while an exception is on its way to its handler, the finalizer's frame is suspended
by the filter and unwound at its first instruction. Interposed while the filter runs, a finalizer
with a `leave` returns in mode `None`, and the filter ends outside its mode. -/
theorem finalizer_unwound_or_mode_lost : (∃ s a p q t, TrackedRun unitHost Runs.anyStep s a ∧
      s.exceptionMode = .throwing (some 1) false ∧
      trackedNext unitHost (s, a) (.finalizer emptyFinalizer 7) = some p ∧
      Runs.exec (trackedNext unitHost) p [.dispatch {}, .dispatch {},
        .dispatch { ops := [.pop, .push (.int32 1)] }, .dispatch {}] = some q ∧
      q.1.frames.length = 2 ∧
      (∃ f, q.1.frames[1]? = some f ∧ f.info = emptyFinalizer ∧ f.ip = 0) ∧
      step unitHost q.1 (.dispatch {}) = .ok t ∧ t.frames.length = 1 ∧
      t.processingFinalizer = false) ∧
    ∃ s a state p q, TrackedRun unitHost Runs.anyStep s a ∧ s.exceptionMode = .filtering state ∧
      trackedNext unitHost (s, a) (.finalizer leavingFinalizer 7) = some p ∧
      Runs.exec (trackedNext unitHost) p [.dispatch {}, .dispatch {}, .dispatch {}, .dispatch {},
        .dispatch {}] = some q ∧
      q.1.frames = s.frames ∧ q.1.stack = s.stack ∧ q.1.exceptionMode = .none :=
  ⟨⟨_, _, _, _, _, TrackedRun.of_exec throwIntoFilter []
      [.dispatch { result := .raise (some 1) }] rfl, rfl, rfl, rfl, rfl, ⟨_, rfl, rfl, rfl⟩, rfl,
      rfl, rfl⟩,
    ⟨_, _, _, _, _, TrackedRun.of_exec throwIntoFilter []
      [.dispatch { result := .raise (some 1) }, .dispatch {}, .dispatch {}] rfl, rfl, rfl, rfl, rfl,
      rfl, rfl⟩⟩

end DotnetVm
