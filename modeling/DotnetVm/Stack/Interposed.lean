import DotnetVm.Exceptions.Resumption
import DotnetVm.Stack.Balance

/-!
# What lies below a finalizer

A finalizer is interposed as a call by whatever frame is current. While its
frame is on the stack, balanced steps touch neither the frames below it nor the
slots below its argument, and its return takes exactly itself off again.
-/

namespace DotnetVm

open List Tiling

variable {Ty : Type} {host : Host Ty} {s t t' w : ThreadContext Ty} {info : MethodInfo Ty}
  {f g : StackFrame Ty} {init : List (StackFrame Ty)} {e : Effects Ty} {u : UnwindState}
  {a : Activations Ty}

/-- An activation of the finalizer `info`, interposed in `s`. -/
structure FinalizerFrame (s : ThreadContext Ty) (info : MethodInfo Ty) (g : StackFrame Ty) :
    Prop where
  method : g.info = info
  isFinalizer : g.isFinalizer = true
  base : g.base.arguments = s.stack.length
  multicastState : g.multicastState = none
  constructorResult : g.constructorResult = none

lemma FinalizerFrame.same {ip : Nat} {es : List ObjectRef} (h : FinalizerFrame s info f)
    (hsm : SameFrame { f with ip := ip, exceptionStack := es } g) : FinalizerFrame s info g where
  method := hsm.info.trans h.method
  isFinalizer := hsm.isFinalizer.trans h.isFinalizer
  base := (congrArg BasePointer.arguments hsm.base).trans h.base
  multicastState := hsm.multicastState.trans h.multicastState
  constructorResult := hsm.constructorResult.trans h.constructorResult

/-- The finalizer interposed in `s` is still on the stack, directly above the frames of `s` and
their slots. -/
structure Finalizing (s : ThreadContext Ty) (info : MethodInfo Ty) (t : ThreadContext Ty) :
    Prop where
  lower : t.frames.take s.frames.length = s.frames
  frame : ∃ g, t.frames[s.frames.length]? = some g ∧ FinalizerFrame s info g
  below : t.stack.take s.stack.length = s.stack

variable {rest : List (StackFrame Ty)}

variable {data : ReturnData}

section

variable (h : Finalizing s info t)
include h

lemma Finalizing.lt : s.frames.length < t.frames.length := by
  obtain ⟨g, hg, _⟩ := h.frame
  exact (List.getElem?_eq_some_iff.mp hg).1

lemma Finalizing.le_init (hs : t.frames = init ++ [f]) :
    s.frames.length ≤ init.length := le_of_lt_concat hs h.lt

/-- If nothing is on top of it, the finalizer is the current frame. -/
lemma Finalizing.current (hs : t.frames = init ++ [f]) (hlen : init.length = s.frames.length) :
    init = s.frames ∧ FinalizerFrame s info f := by
  obtain ⟨g, hg, hfin⟩ := h.frame
  have hlow := h.lower
  rw [hs, ← hlen, take_left] at hlow
  rw [hs, ← hlen, getElem?_concat_length] at hg
  exact ⟨hlow, Option.some.inj hg ▸ hfin⟩

lemma Finalizing.congr (hfs : t'.frames = t.frames) (hstk : t'.stack = t.stack) :
    Finalizing s info t' :=
  ⟨by rw [hfs]; exact h.lower, by rw [hfs]; exact h.frame, by rw [hstk]; exact h.below⟩

/-- The finalizer's frame or one above it was operated on, and what is above that one is new. -/
lemma Finalizing.of_split {ip : Nat} {es : List ObjectRef} {high : List (StackFrame Ty)}
    (ht : Tiled t) (hs : t.frames = init ++ f :: high) (hs' : t'.frames = init ++ g :: rest)
    (hsm : SameFrame { f with ip := ip, exceptionStack := es } g)
    (hbel : Below f.base.arguments t t') (hle : s.frames.length ≤ init.length) :
    Finalizing s info t' := by
  obtain ⟨k, hk, hfin⟩ := h.frame
  have hlow := h.lower
  rw [hs, take_append_of_le_length hle] at hlow
  refine ⟨by rw [hs', take_append_of_le_length hle]; exact hlow, ?_, ?_⟩
  · rw [hs] at hk
    rw [hs']
    by_cases hlt : s.frames.length < init.length
    · rw [getElem?_append_left hlt] at hk ⊢
      exact ⟨k, hk, hfin⟩
    · have heq : s.frames.length = init.length := by omega
      rw [heq] at hk ⊢
      obtain rfl : f = k := by simpa using hk
      exact ⟨g, by simp, hfin.same hsm⟩
  · have htile := ht.frames
    rw [hs, append_cons] at htile hk
    rw [getElem?_append_left (by simp; omega)] at hk
    have hle' := arguments_le (tiles_append.mp htile).1 hk
    have hkept : Below s.stack.length t t' := hfin.base ▸ hbel.mono hle'
    exact Eq.trans hkept h.below

/-- The current frame is above the finalizer's, and may be gone. -/
lemma Finalizing.of_popped (ht : Tiled t) (hs : t.frames = init ++ [f])
    (hs' : t'.frames = init ++ rest) (hbel : Below f.base.arguments t t')
    (hlt : s.frames.length < init.length) : Finalizing s info t' := by
  have hsurvives := FrameSurvives.of_popped ht hs hs' hbel hlt
  obtain ⟨k, hk, hfin⟩ := h.frame
  obtain ⟨k', ip, hk', hsm⟩ := hsurvives.frame k hk
  have hkept : Below s.stack.length t t' := hfin.base ▸ hsurvives.below k hk
  exact ⟨hsurvives.lower.trans h.lower, ⟨k', hk', hfin.same hsm⟩, Eq.trans hkept h.below⟩

omit h in
lemma below_of_isPrefix {n : Nat} (h : t'.stack <+: t.stack) (hle : n ≤ t'.stack.length) :
    Below n t t' := by
  obtain ⟨rest, hrest⟩ := h
  unfold Below
  rw [← hrest, take_append_of_le_length hle]

/-- Frames above the finalizer's were unwound. -/
lemma Finalizing.of_take {n : Nat} (hfs : t'.frames = t.frames.take n)
    (hstk : t'.stack <+: t.stack) (ht' : Tiled t') (hlt : s.frames.length < t'.frames.length) :
    Finalizing s info t' := by
  obtain ⟨k, hk, hfin⟩ := h.frame
  have hlt' : s.frames.length < n := by
    rw [hfs, length_take] at hlt
    omega
  have hk' : t'.frames[s.frames.length]? = some k := by
    rw [hfs, getElem?_take_of_lt hlt']
    exact hk
  refine ⟨?_, ⟨k, hk', hfin⟩, ?_⟩
  · rw [hfs, take_take, min_eq_left (by omega)]
    exact h.lower
  · rcases eq_nil_or_concat' t'.frames with hnil | ⟨init, f, hs⟩
    · simp [hnil] at hlt
    · have htile := ht'.frames
      rw [hs] at htile hk'
      have hle := arguments_le htile hk'
      have hbase := ht'.base_le hs
      have hkept : Below s.stack.length t t' := below_of_isPrefix hstk (by rw [← hfin.base]; omega)
      exact Eq.trans hkept h.below

omit h in
/-- A tail call of a finalizer is an ordinary call, which keeps the frame. -/
lemma runOp_finalizer_called (hs : t.frames = init ++ [f]) (hfin : f.isFinalizer = true)
    (hjmp : ∀ info args, e.result ≠ .jmp info args) (hd : e.result.discardsFrame = true)
    (h : runOp t f e = .ok t') : Called init f t t' := by
  unfold runOp at h
  split at h
  · cases h
  · next w hw =>
    have hl := applyOps_local hs hw
    cases hr : e.result with
    | tailCall callee =>
      rw [hr] at h
      refine hl.called fun g hg => ?_
      obtain ⟨_, g', hsm, hg'⟩ := hl
      obtain rfl : g = g' := (append_singleton_inj.mp (hg.symm.trans hg')).2
      have hhonor : shouldHonorTailCall g callee.argumentCount = false := by
        simp [shouldHonorTailCall, hsm.isFinalizer.trans hfin]
      have hcall : callFrame w callee = .ok t' := by
        simpa [finishOp, dispatchTail, hg, hhonor] using h
      exact callFrame_called hg hcall
    | jmp callee args => exact absurd hr (hjmp callee args)
    | _ => rw [hr] at hd; cases hd

section

variable (ht : Tiled t) (hs : t.frames = init ++ [f])
include ht hs

lemma Finalizing.op (hb : BalancedResult t e)
    (hjmp : f.isFinalizer = true → ∀ info args, e.result ≠ .jmp info args)
    (hrun : runOp (snapshot t f) f e = .ok t') : Finalizing s info t' := by
  have hsnaps : (snapshot t f).frames = init ++ [f] := hs
  obtain ⟨_, hbel⟩ := runOp_balanced ht hs hb hrun
  have hmove := runOp_cases hsnaps rfl hrun
  have hcalled : ∀ {w}, Called init f w t' → Finalizing s info t' := by
    rintro w ⟨_, g, n, hsm, _, hfs⟩
    have hfs' : t'.frames = init ++ g :: [n] := by rw [hfs]; simp
    exact h.of_split ht hs hfs' hsm hbel (h.le_init hs)
  cases hmove with
  | moved ip g _ _ hsm hfs => exact h.of_split ht hs hfs hsm hbel (h.le_init hs)
  | raised x w _ hl hset =>
    obtain ⟨_, g, hsm, hfs⟩ := hl
    have hfs' : t'.frames = init ++ [g] := by rw [hset]; exact hfs
    exact h.of_split ht hs hfs' hsm hbel (h.le_init hs)
  | called hc => exact hcalled hc
  | replaced hr hrep =>
    obtain ⟨_, n, _, hfs⟩ := hrep
    by_cases hlt : s.frames.length < init.length
    · exact h.of_popped ht hs hfs hbel hlt
    · have hlen : init.length = s.frames.length := by
        have hle := h.le_init hs
        omega
      have hfin := (h.current hs hlen).2.isFinalizer
      exact hcalled (runOp_finalizer_called hsnaps hfin (hjmp hfin) hr hrun)

/-- A return of a frame above the finalizer's. -/
lemma Finalizing.returned (hcode : ReturnsToCode t) (hret : handleReturn t data = .ok t')
    (hlt : s.frames.length < t'.frames.length) : Finalizing s info t' := by
  obtain ⟨lower, c, rfl⟩ := handleReturn_caller hs hret
  obtain ⟨w, c', hreturn, hfs, hsm, _, rfl⟩ :=
    handleReturn_concat hs ((returnsToCode_iff hs).mp hcode) hret
  obtain ⟨_, hbel, _⟩ := returnFrame_kept ht hs hreturn
  have hspl : t.frames = lower ++ c :: [f] := by rw [hs]; simp
  refine h.of_split ht hspl rfl (hsm.atIp _) hbel ?_
  simp only [length_append, length_singleton] at hlt
  omega

/-- The end of a filter above the finalizer puts back what the filter suspended. -/
lemma Finalizing.endFilter {result : Int} {v : StackValue} (hb : EndsFilter t f)
    (hpop : (snapshot t f).popSafe = .ok (v, w)) (hend : endFilter w result = .ok t') :
    Finalizing s info t' := by
  have hsnap : Tiled (snapshot t f) := ht.congr rfl rfl
  obtain ⟨height, _, _, hkept⟩ := popSafe_kept hsnap hs hpop
  obtain ⟨hq, _⟩ := popSafe_local (s := snapshot t f) hs hpop
  obtain ⟨state, restored, hm, _, hrest, rfl⟩ := endFilter_eq hend
  have hm' : t.exceptionMode = .filtering state := by rw [← hm, hq.mode]; rfl
  unfold EndsFilter at hb
  rw [hm'] at hb
  have hlen : state.handler.frameIndex = init.length := by simpa [hs] using hb.1
  have hfs : restored.frames = init ++ filteredFrame state { f with stackHeight := height } ::
      w.suspendedFrames := by
    rw [hrest]
    simp only [ThreadContext.restoreSuspended, ThreadContext.modifyFrame, hkept.frames, hlen,
      modify_split]
    simp
  have hstk : restored.stack = w.stack ++ w.suspendedStack := by rw [hrest]; rfl
  have hbase := hkept.tiled.base_le hkept.frames
  have hbel : Below f.base.arguments t restored := by
    have hpopped : Below f.base.arguments t w := hkept.below
    refine hpopped.trans ?_
    unfold Below
    rw [hstk, take_append_of_le_length (by simp only at hbase; omega)]
  exact h.of_split ht hs hfs ⟨rfl, rfl, rfl, rfl, rfl, rfl, rfl⟩ hbel (h.le_init hs)

end

end

/-- Instructions that do not return from the finalizer leave it in place. -/
lemma NormalStep.finalizing (hi : Finalizing s info t) (ht : Tiled t)
    (hs : t.frames = init ++ [f]) (hd : DisciplinedInstruction t a f e)
    (hb : BalancedInstruction t f e)
    (hjmp : f.isFinalizer = true → ∀ info args, e.result ≠ .jmp info args)
    (h : NormalStep f e t t') (hlt : s.frames.length < t'.frames.length) :
    Finalizing s info t' := by
  have hsnap : Tiled (snapshot t f) := ht.congr rfl rfl
  have hsnaps : (snapshot t f).frames = init ++ [f] := hs
  have hisnap : Finalizing s info (snapshot t f) := hi.congr rfl rfl
  unfold BalancedInstruction at hb
  unfold DisciplinedInstruction at hd
  cases h with
  | leave _ _ h | endFinally _ _ _ h | rethrow _ _ _ _ h | retUnwind _ _ _ h =>
    subst h; exact hi.congr rfl rfl
  | endFilter result w hx hpop h =>
    simp only [hx.1, hx.2] at hb
    exact hi.endFilter ht hs hb hpop h
  | throw v w _ hpop h =>
    obtain ⟨_, _, _, hkept⟩ := popSafe_kept hsnap hsnaps hpop
    obtain ⟨y, rfl⟩ := throwValue_eq h
    exact hisnap.of_split hsnap hsnaps hkept.frames hkept.same hkept.below (hi.le_init hs)
  | retReturn hx _ _ h =>
    simp only [hx.1, hx.2] at hd
    exact hisnap.returned hsnap hsnaps hd.2.1 h hlt
  | op hx h =>
    simp only [hx.1, hx.2] at hb
    exact hi.op ht hs hb hjmp h
  | multicast state target w hmc hdis h =>
    simp only [hmc] at hb
    obtain ⟨_, hbel, _, _, hmove⟩ := multicast_balanced ht hs hb.1 hdis h
    obtain ⟨rest, hrest⟩ := hmove.frames_append
    refine hi.of_popped ht hs hrest hbel (lt_of_le_of_ne (hi.le_init hs) fun hlen => ?_)
    have hno := (hi.current hs hlen.symm).2.multicastState
    rw [hmc] at hno
    cases hno
  | multicastReturn state hmc h =>
    simp only [hmc] at hd
    exact hi.returned ht hs hd.2.2 h hlt

variable {typeInit : Option ObjectRef}

/-- An unwind only drops slots from the top. -/
lemma unwindWalk_stack {o : UnwindOutcome Ty}
    (h : unwindWalk u typeInit t = .ok o) : o.context.stack <+: t.stack := by
  have inFrame : ∀ n (w w' : ThreadContext Ty) r, w.stack <+: t.stack →
      unwindInFrame u n w = .ok (w', r) → w'.stack <+: t.stack := by
    intro n w w' r hw hin
    obtain ⟨_, rfl, _⟩ := unwindInFrame_eq hin
    exact hw
  unfold unwindWalk at h
  split at h
  · obtain rfl := Except.ok.inj h
    exact prefix_rfl
  · refine unwindFrames_induct (P := fun _ w => w.stack <+: t.stack)
      (Q := fun o => o.context.stack <+: t.stack) ?_ ?_ ?_ (by omega) prefix_rfl h
    · intro n w w' entry hw hin
      exact inFrame n w w' _ hw hin
    · intro n w w' hw hin _
      exact inFrame n w w' _ hw hin
    · intro n w w' w'' hw hin _ hpop
      have hw' := inFrame (n + 1) w w' _ hw hin
      have hpopped : w''.stack <+: t.stack := by
        rcases eq_nil_or_concat' w'.frames with hnil | ⟨init, f, hs⟩
        · simp [unwindFrame, hnil] at hpop
        · obtain ⟨mode, finalizing, _, rfl⟩ := unwindFrame_concat hs hpop
          exact List.IsPrefix.trans ⟨_, take_append_drop _ _⟩ hw'
      exact ⟨fun _ _ _ => hpopped, fun _ => hpopped⟩

section

variable (h : Finalizing s info t) (ht : Tiled t)
include h ht

/-- A walk that ends in the finalizer's frame or above it. -/
lemma Finalizing.walked {r : Option (CleanupEntry Ty)} (hat : WalkAt u t w init f r)
    (hw : Tiled w) (hstk : w.stack <+: t.stack) (hle : s.frames.length ≤ init.length) :
    Finalizing s info w := by
  have hspl : t.frames = init ++ f :: t.frames.drop (init.length + 1) := by
    rw [append_cons, ← hat.taken, take_append_drop]
  have hbase := hw.base_le hat.frames
  have hbel : Below f.base.arguments t w :=
    below_of_isPrefix hstk (by simp only at hbase; omega)
  exact h.of_split ht hspl hat.frames ⟨rfl, rfl, rfl, rfl, rfl, rfl, rfl⟩ hbel hle

lemma Finalizing.unwound {sig : Signal} (hnest : u.nestedFilter = none)
    (he : UnwindsEmpty u t.frames) (hst : UnwindStep u typeInit t t' sig)
    (hlt : s.frames.length < t'.frames.length) : Finalizing s info t' := by
  have ht' := hst.tiled ht hnest he
  obtain ⟨hcur, _⟩ := he
  by_cases hle : u.targetFrame ≤ u.cursor.frameIndex
  · cases hst with
    | cleanup w entry hw heq =>
      obtain ⟨init, f, hat, _⟩ := (unwindWalk_shape hcur hle hw).entered w entry rfl
      have haddr : entry.addr.frameIndex = init.length := (unwindSections_entry hat.found).1
      have htw : Tiled w := unwindWalk_tiled ht hcur hw
      subst heq
      have hfs := enterCleanup_frames (u := u) hat.frames haddr
      have hlen := le_of_lt_concat hfs hlt
      have hiw := h.walked ht hat htw (unwindWalk_stack hw) hlen
      exact hiw.of_split htw hat.frames hfs ⟨rfl, rfl, rfl, rfl, rfl, rfl, rfl⟩ (Below.refl _ _)
        hlen
    | raised hw =>
      obtain ⟨n, hfs⟩ := (unwindWalk_shape hcur hle hw).raised t' rfl
      exact h.of_take hfs (unwindWalk_stack hw) ht' hlt
    | handler w addr hw htgt _ hent =>
      have htf : u.targetFrame = addr.frameIndex := by simp [UnwindState.targetFrame, htgt]
      obtain ⟨init, f, hat, hlen⟩ := (unwindWalk_shape hcur hle hw).arrived w rfl
      have htw : Tiled w := unwindWalk_tiled ht hcur hw
      obtain ⟨_, p, handler, y, _, _, _, rfl⟩ :=
        enterHandler_concat hat.frames (hlen.trans htf) hent
      have hlen' := le_of_lt_concat rfl hlt
      have hiw := h.walked ht hat htw (unwindWalk_stack hw) hlen'
      have hbase := htw.base_le hat.frames
      refine hiw.of_split htw hat.frames rfl ⟨rfl, rfl, rfl, rfl, rfl, rfl, rfl⟩ ?_ hlen'
      unfold Below
      rw [take_append_of_le_length (by rw [length_take]; omega), take_take,
        min_eq_left (by omega)]
    | leave w ip hw htgt hip _ harr =>
      obtain ⟨init, f, hat, hlen⟩ := (unwindWalk_shape hcur hle hw).arrived w rfl
      have htw : Tiled w := unwindWalk_tiled ht hcur hw
      obtain ⟨_, _, rfl⟩ := arriveAt_eq harr
      have hlen' : s.frames.length ≤ init.length := by
        simp only [hat.frames, length_modify, length_append, length_singleton] at hlt
        omega
      have hiw := h.walked ht hat htw (unwindWalk_stack hw) hlen'
      have hfs : (w.frames.modify u.targetFrame fun f => { f with ip := ip, stackHeight := 0 }) =
          init ++ [{ f with
            exceptionStack := (walkFrame u init.length f).1, ip := ip, stackHeight := 0 }] := by
        simp only [hat.frames, ← hlen, modify_split]
      exact hiw.of_split htw hat.frames hfs ⟨rfl, rfl, rfl, rfl, rfl, rfl, rfl⟩ (Below.refl _ _)
        hlen'
    | returnFrame w hw _ heq =>
      subst heq
      obtain ⟨init, f, hat, hlen⟩ := (unwindWalk_shape hcur hle hw).arrived w rfl
      have htw : Tiled w := unwindWalk_tiled ht hcur hw
      have hlen' : s.frames.length ≤ init.length := by
        simp only [ThreadContext.setMode, hat.frames, length_append,
          length_singleton] at hlt
        omega
      exact (h.walked ht hat htw (unwindWalk_stack hw) hlen').congr rfl rfl
  · -- a target above the current frame stops the walk at once
    cases hst with
    | cleanup _ _ hw _ | raised hw => cases unwindWalk_above hle hw
    | handler w addr hw htgt _ hent =>
      have htf : u.targetFrame = addr.frameIndex := by simp [UnwindState.targetFrame, htgt]
      exact absurd (target_le_of_enterHandler hcur hw htf hent) hle
    | leave _ _ _ htgt _ _ _ | returnFrame _ _ htgt _ =>
      exact absurd (targetFrame_of_instruction hnest htgt) (by omega)

/-- The frame of a `ret` whose handlers have all run. -/
lemma Finalizing.arrived (hnest : u.nestedFilter = none)
    (hcur : u.cursor.frameIndex + 1 = t.frames.length)
    (hw : unwindWalk u typeInit t = .ok (.arrived w)) (htgt : u.target = .instruction usizeMax)
    (hcode : ReturnsToCode t) (hret : handleReturn (w.setMode .none) data = .ok t') :
    ∃ init f, (w.setMode .none).frames = init ++ [f] ∧ Finalizing s info (w.setMode .none) ∧
      ReturnsToCode (w.setMode .none) := by
  obtain ⟨init, f, hs, hcur', hstays⟩ :=
    unwindWalk_here hcur (targetFrame_of_instruction hnest htgt) hw
  have hctx : w = _ := hstays.context
  have hset : (w.setMode .none).frames =
      init ++ [{ f with exceptionStack := (walkFrame u init.length f).1 }] := by rw [hctx]; rfl
  have hbel : Below f.base.arguments t (w.setMode .none) := by rw [hctx]; exact Below.refl _ _
  refine ⟨init, _, hset, h.of_split ht hs hset ⟨rfl, rfl, rfl, rfl, rfl, rfl, rfl⟩ hbel
    (h.le_init hs), ?_⟩
  obtain ⟨lower, c, rfl⟩ := handleReturn_caller hset hret
  exact (returnsToCode_iff hset).mpr ((returnsToCode_iff hs).mp hcode)

end

def OpResult.isJmp : OpResult Ty → Bool
  | .jmp _ _ => true
  | _ => false

/-- Finalizers do not replace their frame by a `jmp`, and do not interrupt a frame that waits for
the result of a reflective call. -/
def KeepsFinalizer (s : ThreadContext Ty) : Event Ty → Prop
  | .dispatch e => e.result.isJmp = true → ∀ f ∈ s.frames.getLast?, f.isFinalizer = false
  | .finalizer _ _ => ∀ f ∈ s.frames.getLast?, f.frameContinuation = none
  | .resume => True

lemma KeepsFinalizer.not_jmp (h : KeepsFinalizer t (.dispatch e)) (hs : t.frames = init ++ [f])
    (hfin : f.isFinalizer = true) (callee : MethodInfo Ty) (args : List StackValue) :
    e.result ≠ .jmp callee args := by
  intro hr
  have hnot := h (by rw [hr]; rfl) f (by simp [hs])
  rw [hfin] at hnot
  cases hnot

/-- Every step after which the finalizer's frame has not been popped leaves what is below it. -/
lemma finalizing_step {ev : Event Ty} (h : Finalizing s info t) (htil : TilingInvariant t)
    (hd : Disciplined (t, a) ev) (hb : Balanced t ev) (hk : KeepsFinalizer t ev)
    (hst : step host t ev = .ok t') (hlt : s.frames.length < t'.frames.length) :
    Finalizing s info t' := by
  have hnest := htil.nested.mode
  have hcase := step_cases htil.nested.mode hst
  cases hcase with
  | normal e init f hm hs hnorm =>
    exact hnorm.finalizing h htil.tiled hs (hd.instruction hm hs) (hb.instruction hm hs)
      (hk.not_jmp hs) hlt
  | throwing e x p _ heq | accepted e state addr _ _ heq | resume k _ heq =>
    subst heq; exact h.congr rfl rfl
  | filter e state addr clauseOffset low frame high _ _ hs hlow hbase heq =>
    have htile := htil.tiled.frames
    simp only [hs, tiles_append] at htile
    have hlocals := htile.2.1.locals
    have hstk := htile.2.1.stack
    subst heq
    have hfs : (filterEntered t state.exception addr clauseOffset low high frame).frames =
        low ++ [{ frame with
          ip := clauseOffset
          stackHeight := 1
          exceptionStack := state.exception :: frame.exceptionStack }] := rfl
    refine h.of_split htil.tiled hs hfs ⟨rfl, rfl, rfl, rfl, rfl, rfl, rfl⟩ ?_ ?_
    · unfold Below
      simp only [filterEntered]
      rw [take_append_of_le_length (by rw [length_take]; omega), take_take,
        min_eq_left (by omega)]
    · simp only [filterEntered, length_append, length_singleton] at hlt
      omega
  | unwound e u hm hunw =>
    simp only [Balanced, hm] at hb
    rw [hm] at hnest
    exact h.unwound htil.tiled hnest hb hunw hlt
  | returned e u w hm hw htgt hret =>
    simp only [Balanced, hm] at hb
    simp only [Disciplined, hm, htgt] at hd
    rw [hm] at hnest
    obtain ⟨init, f, hs, hfin, hcode⟩ :=
      h.arrived htil.tiled hnest hb.1 hw htgt (hd True.intro) hret
    have htiled : Tiled w := unwindWalk_tiled htil.tiled hb.1 hw
    exact hfin.returned (htiled.congr rfl rfl) hs hcode hret hlt
  | interposed callee this init f hs hst hcall =>
    obtain ⟨_, hbel⟩ := interposeFinalizer_tiled htil.tiled hs hst
    obtain ⟨_, g, n, hsm, _, hfs⟩ := hcall
    have hfs' : t'.frames = init ++ g :: [n] := by rw [hfs]; simp
    exact h.of_split htil.tiled hs hfs' hsm hbel (h.le_init hs)
  | deferred callee this heq => subst heq; exact h

/-- `Finalize` is an instance method without parameters that returns nothing. -/
structure IsFinalizer (info : MethodInfo Ty) : Prop where
  argumentCount : info.argumentCount = 1
  returnType : info.returnType = .void

/-- An idle thread starts the finalizer at its first instruction, on top of what it has. -/
lemma interposeFinalizer_finalizing {this : Nat} (hinfo : IsFinalizer info)
    (hidle : s.processingFinalizer = false) (h : interposeFinalizer s info this = .ok t) :
    Finalizing s info t ∧ ∃ g, t.frames = s.frames ++ [g] ∧ g.ip = 0 := by
  unfold interposeFinalizer at h
  rw [if_neg (by simp [hidle])] at h
  split at h
  · cases h
  · next hne =>
    split at h
    · cases h
    · next w hcall =>
      obtain rfl := Except.ok.inj h
      rcases eq_nil_or_concat' s.frames with hs | ⟨init, f, hs⟩
      · exact absurd hs hne
      · obtain ⟨_, gs, st, rfl, hgs, _, hbel⟩ := callFrame_eq hcall
        simp only [ThreadContext.push, hs, modifyCurrent_concat, hinfo.argumentCount] at hgs
        obtain ⟨_, rfl⟩ := hgs.concat
        have hfs : modifyCurrent (init ++ [{ f with stackHeight := f.stackHeight + 1 - 1 }] ++
            [calleeFrame (({ s with processingFinalizer := true }).push (.objectRef (some this)))
              info]) (fun f => { f with isFinalizer := true }) =
            s.frames ++ [{ calleeFrame (({ s with processingFinalizer := true }).push
              (.objectRef (some this))) info with isFinalizer := true }] := by
          rw [modifyCurrent_concat, hs, Nat.add_sub_cancel]
        have hbase : s.stack.length + 1 - info.argumentCount = s.stack.length := by
          rw [hinfo.argumentCount, Nat.add_sub_cancel]
        refine ⟨⟨?_, ⟨{ calleeFrame (({ s with processingFinalizer := true }).push
          (.objectRef (some this))) info with isFinalizer := true }, ?_, rfl, rfl, ?_,
          rfl, rfl⟩, ?_⟩, _, hfs, rfl⟩
        · simp only [hfs, take_left]
        · simp only [hfs, getElem?_concat_length]
        · simpa [calleeFrame, StackFrame.new, ThreadContext.push] using hbase
        · have htaken := hbel s.stack.length (by simp [ThreadContext.push, hinfo.argumentCount])
          rw [htaken]
          simp [ThreadContext.push]

/-- A finalizer returns without advancing its caller. -/
lemma handleReturn_finalizer {lower : List (StackFrame Ty)} {c : StackFrame Ty}
    (hs : t.frames = lower ++ [c] ++ [f]) (hfin : f.isFinalizer = true)
    (hvoid : f.info.returnType = .void) (hres : f.constructorResult = none)
    (hcont : c.frameContinuation = none) (data : ReturnData) :
    handleReturn t data = .ok { t with
      frames := lower ++ [c], stack := t.stack.take f.base.arguments,
      processingFinalizer := false } := by
  have hc : { c with frameContinuation := none } = c := by rw [← hcont]
  have hret : returnFrame t data = .ok { t with
      frames := lower ++ [c], stack := t.stack.take f.base.arguments,
      processingFinalizer := false } := by
    simp only [returnFrame, hs, getLast?_concat, hvoid, returnValue, dropLast_concat,
      pushOption, hres, completeConstructor, ThreadContext.truncate, applyReturnAction, hcont,
      Option.bind_some, modifyCurrent_concat, hc, hfin]
    simp
  simp [handleReturn, hs, handleReturnFrames, hret, hfin]

/-- The return that takes the finalizer off the stack leaves the interrupted frames and slots. -/
lemma Finalizing.ends (h : Finalizing s info t) (hinfo : IsFinalizer info)
    (hcont : ∀ c ∈ s.frames.getLast?, c.frameContinuation = none) (hs : t.frames = init ++ [f])
    (hcode : ReturnsToCode t) (hret : handleReturn t data = .ok t')
    (hle : t'.frames.length ≤ s.frames.length) :
    init = s.frames ∧ FinalizerFrame s info f ∧ t'.frames = s.frames ∧ t'.stack = s.stack := by
  obtain ⟨_, hlen⟩ := handleReturn_pops hs hcode hret
  have hle' := h.le_init hs
  obtain ⟨hinit, hfr⟩ := h.current hs (by omega)
  obtain ⟨lower, c, rfl⟩ := handleReturn_caller hs hret
  have hc : c.frameContinuation = none := hcont c (by rw [← hinit]; simp)
  have hvoid : f.info.returnType = .void := by rw [hfr.method]; exact hinfo.returnType
  rw [handleReturn_finalizer hs hfr.isFinalizer hvoid hfr.constructorResult hc] at hret
  obtain rfl := Except.ok.inj hret
  exact ⟨hinit, hfr, hinit, by rw [hfr.base]; exact h.below⟩

end DotnetVm
