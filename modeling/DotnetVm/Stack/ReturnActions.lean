import DotnetVm.Lib.FrameStacks
import DotnetVm.Lib.Runs

/-!
# Return actions of reflective invocations

A reflective invocation records on the calling frame what is to be done with the
result, dispatches its target, and `return_frame` takes the recorded action of
whatever frame it returns to. The two belong together only if the frame that
returns next to the caller is the target.

Invocations are numbered, and a recorded action is the number of its invocation. The
frame of the target carries that number too; the interpreter does not know it.
-/

namespace DotnetVm.ReturnActions

open FrameStacks List Option Runs

/-- What a return looks at: the kind of the frame, and the invocations it waits for and serves. -/
structure StackFrame where
  isCctor : Bool
  isFinalizer : Bool
  frameContinuation : Option Nat
  invokedBy : Option Nat
  deriving DecidableEq, Repr

def StackFrame.plain : StackFrame := ⟨false, false, none, none⟩

structure State where
  stack : Frames StackFrame
  nextInvocation : Nat
  processingFinalizer : Bool
  /-- Every return to a caller so far: the invocation whose target returned, and the one whose
  action was applied. -/
  returns : List (Option Nat × Option Nat)
  deriving DecidableEq, Repr

/-- The entry point of a thread. -/
def start : State := ⟨⟨[.plain], []⟩, 0, false, []⟩

/-- What dispatching the target of an invocation comes to. -/
inductive Route where
  | target
  /-- `dispatch_method` runs the static constructor of the declaring type first; the instruction
  is executed again afterwards. -/
  | initializer
  /-- The target has no frame: an intrinsic, an external function, or an exception or a yield
  before the call. -/
  | frameless
  deriving DecidableEq, Repr

namespace State

section

variable (s : State)

def setFrames (frames : List StackFrame) : State :=
  { s with stack := { s.stack with frames } }

def pushFrame (frame : StackFrame) : State := s.setFrames (frame :: s.stack.frames)

/-- `set_frame_return_action` on the current frame, then the dispatch of the target. -/
def invoke (route : Route) : Option State :=
  match s.stack.frames with
  | [] => none
  | frame :: rest =>
    let recorded :=
      { s.setFrames ({ frame with frameContinuation := some s.nextInvocation } :: rest) with
        nextInvocation := s.nextInvocation + 1 }
    match route with
    | .target => some (recorded.pushFrame { StackFrame.plain with invokedBy := s.nextInvocation })
    | .initializer => some (recorded.pushFrame { StackFrame.plain with isCctor := true })
    | .frameless => some recorded

def returnFrame : Option State :=
  match s.stack.frames with
  | [] => none
  | frame :: rest =>
    let popped := { s with processingFinalizer := s.processingFinalizer && !frame.isFinalizer }
    match rest with
    | [] => some (popped.setFrames [])
    | caller :: below =>
      some { popped.setFrames ({ caller with frameContinuation := none } :: below) with
        returns := (frame.invokedBy, caller.frameContinuation) :: s.returns }

def unwindFrame : Option State :=
  match s.stack.frames with
  | [] => none
  | frame :: rest => some
      { s.setFrames rest with processingFinalizer := s.processingFinalizer && !frame.isFinalizer }

/-- `process_pending_finalizers` with an object in the queue. -/
def interposeFinalizer : State :=
  if s.processingFinalizer then s
  else { s.pushFrame { StackFrame.plain with isFinalizer := true } with
    processingFinalizer := true }

/-- `dispatch_method_tail`. `honored` stands for the conditions of `should_honor_tail_call` on the
method, its code and its operands. The new frame returns in place of the one it replaces. -/
def dispatchMethodTail (honored : Bool) : Option State :=
  match s.stack.frames with
  | [] => none
  | frame :: rest =>
    if honored && !frame.isCctor && !frame.isFinalizer && frame.frameContinuation.isNone then
      some (s.setFrames ({ StackFrame.plain with invokedBy := frame.invokedBy } :: rest))
    else some (s.pushFrame .plain)

/-- `dispatch_method_jmp` after its checks. -/
def dispatchMethodJmp : Option State :=
  match s.stack.frames with
  | [] => none
  | frame :: rest =>
    some (s.setFrames ({ StackFrame.plain with invokedBy := frame.invokedBy } :: rest))

end

end State

inductive Event where
  | invoke (route : Route)
  | call (isCctor : Bool)
  | ret
  | unwind
  | finalizer
  | tail (honored : Bool)
  | jmp
  | suspendAbove (index : Nat)
  | restoreSuspended
  | clearSuspended
  | clear
  deriving DecidableEq, Repr

def step (s : State) : Event → Option State
  | .invoke route => s.invoke route
  | .call isCctor => some (s.pushFrame { StackFrame.plain with isCctor })
  | .ret => s.returnFrame
  | .unwind => s.unwindFrame
  | .finalizer => some s.interposeFinalizer
  | .tail honored => s.dispatchMethodTail honored
  | .jmp => s.dispatchMethodJmp
  | .suspendAbove index => (s.stack.suspendAbove index).map fun fs => { s with stack := fs }
  | .restoreSuspended => some { s with stack := s.stack.restoreSuspended }
  | .clearSuspended => some { s with stack := s.stack.clearSuspended }
  | .clear => some { s with stack := .empty }

/-- The static constructor of the declaring type returns first; the target throws, and the caller
that caught the exception calls something else; a finalizer runs before a target without a frame
is dispatched again. -/
theorem action_applied_elsewhere :
    (∃ s, exec step start [.invoke .initializer, .ret] = some s ∧ (none, some 0) ∈ s.returns) ∧
    (∃ s, exec step start [.invoke .target, .unwind, .call false, .ret] = some s ∧
      (none, some 0) ∈ s.returns) ∧
    (∃ s, exec step start [.invoke .frameless, .finalizer, .ret] = some s ∧
      (none, some 0) ∈ s.returns) :=
  ⟨⟨_, rfl, by decide⟩, ⟨_, rfl, by decide⟩, ⟨_, rfl, by decide⟩⟩

/-- The current frame has no recorded action. -/
def Settled (s : State) : Prop := ∀ f ∈ s.stack.frames.head?, f.frameContinuation = none

def Straight (s : State) : Event → Prop
  | .invoke route => route = .target
  | .call _ | .tail _ => Settled s
  | .finalizer => s.processingFinalizer = false → Settled s
  | .restoreSuspended => ∀ low ∈ s.stack.suspendedFrames.getLast?,
      ∃ current ∈ s.stack.frames.head?, current.frameContinuation = low.invokedBy
  | .ret | .unwind | .jmp | .suspendAbove _ | .clearSuspended | .clear => True

/-- A frame executes the target of the invocation recorded on the frame below. -/
def Matches (upper lower : StackFrame) : Prop := lower.frameContinuation = upper.invokedBy

structure Paired (s : State) : Prop where
  live : s.stack.frames.IsChain Matches
  suspended : s.stack.suspendedFrames.IsChain Matches
  bottom : ∀ f ∈ s.stack.frames.getLast?, f.invokedBy = none
  returned : ∀ r ∈ s.returns, r.1 = r.2

variable {s s' : State}

lemma paired_start : Paired start :=
  ⟨isChain_singleton _, isChain_nil, fun f hf => (by cases hf; rfl),
    fun _ h => (by cases h)⟩

variable {frames : List StackFrame}

lemma Paired.setFrames (hs : Paired s) (hlive : frames.IsChain Matches)
    (hbot : ∀ f ∈ frames.getLast?, f.invokedBy = none)
    (hfs : s'.stack = { s.stack with frames }) (hrets : s'.returns = s.returns) : Paired s' := by
  refine ⟨?_, ?_, ?_, ?_⟩
  · rw [hfs]
    exact hlive
  · rw [hfs]
    exact hs.suspended
  · rw [hfs]
    exact hbot
  · rw [hrets]
    exact hs.returned

lemma getLast?_cons_of_ne {α : Type} {a : α} {l : List α} (h : l ≠ []) :
    (a :: l).getLast? = l.getLast? := by
  cases l with
  | nil => exact absurd rfl h
  | cons b l => simp [getLast?_cons_cons]

variable {frame : StackFrame} {rest : List StackFrame}

section

variable (hs : Paired s)
include hs

lemma Paired.push (frame : StackFrame) (hmatch : ∀ f ∈ s.stack.frames.head?, Matches frame f)
    (hemp : s.stack.frames = [] → frame.invokedBy = none)
    (hfs : s'.stack = { s.stack with frames := frame :: s.stack.frames })
    (hrets : s'.returns = s.returns) : Paired s' := by
  refine hs.setFrames (isChain_cons.mpr ⟨hmatch, hs.live⟩) (fun f hf => ?_) hfs hrets
  by_cases hnil : s.stack.frames = []
  · rw [hnil] at hf
    cases hf
    exact hemp hnil
  · rw [getLast?_cons_of_ne hnil] at hf
    exact hs.bottom f hf

lemma Paired.replace (frame' : StackFrame) (hfs : s.stack.frames = frame :: rest)
    (hsm : frame'.invokedBy = frame.invokedBy)
    (hstk : s'.stack = { s.stack with frames := frame' :: rest })
    (hrets : s'.returns = s.returns) : Paired s' := by
  have hlive := hs.live
  have hbot := hs.bottom
  rw [hfs] at hlive hbot
  obtain ⟨hhead, hrest⟩ := isChain_cons.mp hlive
  refine hs.setFrames (isChain_cons.mpr ⟨fun f hf => ?_, hrest⟩) (fun f hf => ?_) hstk
    hrets
  · unfold Matches
    rw [hsm]
    exact hhead f hf
  · by_cases hnil : rest = []
    · subst hnil
      cases hf
      exact hsm.trans (hbot frame rfl)
    · rw [getLast?_cons_of_ne hnil] at hf hbot
      exact hbot f hf

lemma Paired.pop (hfs : s.stack.frames = frame :: rest)
    (hstk : s'.stack = { s.stack with frames := rest }) (hrets : s'.returns = s.returns) :
    Paired s' := by
  have hlive := hs.live
  have hbot := hs.bottom
  rw [hfs] at hlive hbot
  refine hs.setFrames (isChain_cons.mp hlive).2 (fun f hf => ?_) hstk hrets
  cases rest with
  | nil => cases hf
  | cons g rest =>
    exact hbot f hf

lemma Paired.invoke (hst : s.invoke .target = some s') : Paired s' := by
  unfold State.invoke at hst
  split at hst
  · cases hst
  · rename_i frame rest hfs
    cases hst
    have hrecorded : Paired (s.setFrames
        ({ frame with frameContinuation := some s.nextInvocation } :: rest)) :=
      hs.replace { frame with frameContinuation := some s.nextInvocation } hfs rfl rfl rfl
    exact hrecorded.push { StackFrame.plain with invokedBy := s.nextInvocation }
      (fun f hf => by cases hf; rfl) nofun rfl rfl

lemma Paired.ret (hst : s.returnFrame = some s') : Paired s' := by
  unfold State.returnFrame at hst
  split at hst
  · cases hst
  · rename_i frame rest hfs
    cases rest with
    | nil =>
      cases hst
      exact hs.pop hfs rfl rfl
    | cons caller below =>
      cases hst
      have hmatch : caller.frameContinuation = frame.invokedBy := by
        have hlive := hs.live
        rw [hfs] at hlive
        exact (isChain_cons_cons.mp hlive).1
      have hpop : Paired (s.setFrames (caller :: below)) := hs.pop hfs rfl rfl
      have htaken : Paired (s.setFrames ({ caller with frameContinuation := none } :: below)) :=
        hpop.replace { caller with frameContinuation := none } rfl rfl rfl rfl
      refine ⟨htaken.live, htaken.suspended, htaken.bottom, fun r hr => ?_⟩
      rcases mem_cons.mp hr with rfl | hold
      · exact hmatch.symm
      · exact hs.returned r hold

lemma Paired.restore (hok : ∀ low ∈ s.stack.suspendedFrames.getLast?,
      ∃ current ∈ s.stack.frames.head?, current.frameContinuation = low.invokedBy) :
    Paired { s with stack := s.stack.restoreSuspended } := by
  refine ⟨?_, isChain_nil, fun f hf => ?_, hs.returned⟩
  · refine isChain_append.mpr ⟨hs.suspended, hs.live, fun low hlow current hcur => ?_⟩
    obtain ⟨current', hcur', hmatch⟩ := hok low hlow
    cases mem_unique hcur hcur'
    exact hmatch
  · simp only [Frames.restoreSuspended] at hf
    cases hlow : s.stack.suspendedFrames.getLast? with
    | none =>
      rw [getLast?_eq_none_iff.mp hlow] at hf
      exact hs.bottom f hf
    | some low =>
      obtain ⟨current, hcur, -⟩ := hok low hlow
      rw [getLast?_append_of_ne_nil _ (ne_nil_of_mem (mem_of_head? hcur))] at hf
      exact hs.bottom f hf

lemma Paired.suspend {index : Nat} {fs : Frames StackFrame}
    (hfs : s.stack.suspendAbove index = some fs) : Paired { s with stack := fs } := by
  have happend := Frames.append_of_suspendAbove hfs
  have hlive := hs.live
  rw [← happend] at hlive
  obtain ⟨hupper, hlow, -⟩ := isChain_append.mp hlive
  refine ⟨hlow, hupper, fun f hf => hs.bottom f ?_, hs.returned⟩
  rw [← happend]
  exact mem_getLast?_append_of_mem_getLast? hf

lemma Paired.step {e : Event} (hok : Straight s e) (hst : step s e = some s') : Paired s' := by
  cases e with
  | invoke route =>
    cases hok
    exact hs.invoke hst
  | call isCctor =>
    cases hst
    exact hs.push { StackFrame.plain with isCctor } (fun f hf => hok f hf) (fun _ => rfl) rfl rfl
  | ret => exact hs.ret hst
  | unwind =>
    simp only [ReturnActions.step, State.unwindFrame] at hst
    split at hst
    · cases hst
    · rename_i frame rest hframes
      cases hst
      exact hs.pop hframes rfl rfl
  | finalizer =>
    cases hst
    unfold State.interposeFinalizer
    split
    · exact hs
    · rename_i hfree
      exact hs.push { StackFrame.plain with isFinalizer := true }
        (fun f hf => hok (by simpa using hfree) f hf) (fun _ => rfl) rfl rfl
  | tail honored =>
    simp only [ReturnActions.step, State.dispatchMethodTail] at hst
    split at hst
    · cases hst
    · rename_i frame rest hframes
      split at hst
      · cases hst
        exact hs.replace { StackFrame.plain with invokedBy := frame.invokedBy } hframes rfl rfl rfl
      · cases hst
        exact hs.push .plain (fun f hf => hok f hf) (fun _ => rfl) rfl rfl
  | jmp =>
    simp only [ReturnActions.step, State.dispatchMethodJmp] at hst
    split at hst
    · cases hst
    · rename_i frame rest hframes
      cases hst
      exact hs.replace { StackFrame.plain with invokedBy := frame.invokedBy } hframes rfl rfl rfl
  | suspendAbove index =>
    obtain ⟨fs, hfs, rfl⟩ := map_eq_some_iff.mp hst
    exact hs.suspend hfs
  | restoreSuspended => cases hst; exact hs.restore hok
  | clearSuspended =>
    cases hst
    exact ⟨hs.live, isChain_nil, hs.bottom, hs.returned⟩
  | clear =>
    cases hst
    exact ⟨isChain_nil, isChain_nil, fun _ h => (by cases h), hs.returned⟩

end

def recordedOn (frames : List StackFrame) : List Nat :=
  frames.filterMap StackFrame.frameContinuation

def State.actions (s : State) : List Nat :=
  recordedOn s.stack.all ++ s.returns.filterMap Prod.snd

structure Once (s : State) : Prop where
  nodup : s.actions.Nodup
  issued : ∀ id ∈ s.actions, id < s.nextInvocation

lemma Once.shrink (hs : Once s) (hsub : s'.actions.Subperm s.actions)
    (hnext : s'.nextInvocation = s.nextInvocation) : Once s' := by
  obtain ⟨l, hperm, hsub⟩ := hsub
  refine ⟨hperm.nodup_iff.mp (hs.nodup.sublist hsub), fun id hid => ?_⟩
  rw [hnext]
  exact hs.issued id (hsub.subset (hperm.mem_iff.mpr hid))

lemma Once.grow (hs : Once s) {old : List Nat} (hsub : old.Subperm s.actions)
    (hperm : s'.actions.Perm (s.nextInvocation :: old))
    (hnext : s'.nextInvocation = s.nextInvocation + 1) : Once s' := by
  have hlt : ∀ id ∈ old, id < s.nextInvocation := fun id hid => hs.issued id (hsub.subset hid)
  obtain ⟨l, hl, hsub'⟩ := hsub
  have hnd : old.Nodup := hl.nodup_iff.mp (hs.nodup.sublist hsub')
  refine ⟨hperm.nodup_iff.mpr (nodup_cons.mpr ⟨fun h => lt_irrefl _ (hlt _ h), hnd⟩),
    fun id hid => ?_⟩
  rw [hnext]
  rcases mem_cons.mp (hperm.mem_iff.mp hid) with rfl | hold
  · exact Nat.lt_succ_self _
  · exact Nat.lt_succ_of_lt (hlt id hold)

/-- Frames with fewer recorded actions. -/
lemma Once.setFrames (hs : Once s) (frames : List StackFrame)
    (hsub : (recordedOn frames).Sublist (recordedOn s.stack.frames))
    (hstk : s'.stack = { s.stack with frames }) (hrets : s'.returns = s.returns)
    (hnext : s'.nextInvocation = s.nextInvocation) : Once s' := by
  refine hs.shrink (List.Sublist.subperm ?_) hnext
  unfold State.actions
  rw [hrets, hstk]
  simp only [Frames.all, recordedOn, filterMap_append]
  exact (hsub.append_right _).append_right _

lemma recordedOn_cons (f : StackFrame) (frames : List StackFrame) :
    recordedOn (f :: frames) = f.frameContinuation.toList ++ recordedOn frames := by
  unfold recordedOn
  rw [filterMap_cons]
  cases f.frameContinuation <;> rfl

lemma Once.push (hs : Once s) (hstk : s'.stack = { s.stack with frames := frame :: s.stack.frames })
    (hno : frame.frameContinuation = none) (hrets : s'.returns = s.returns)
    (hnext : s'.nextInvocation = s.nextInvocation) : Once s' := by
  refine hs.setFrames _ ?_ hstk hrets hnext
  rw [recordedOn_cons, hno]
  exact List.Sublist.refl _

lemma Once.invoke (hs : Once s) {route : Route} (hst : s.invoke route = some s') : Once s' := by
  unfold State.invoke at hst
  split at hst
  · cases hst
  rename_i frame rest hfs
  have hold : (recordedOn rest ++ recordedOn s.stack.suspendedFrames ++
      s.returns.filterMap Prod.snd).Subperm s.actions := by
    refine List.Sublist.subperm ?_
    unfold State.actions
    simp only [Frames.all, hfs, cons_append, recordedOn_cons]
    simp only [recordedOn, filterMap_append]
    exact (sublist_append_right _ _).append_right _
  have hgrow : ∀ s' : State, recordedOn s'.stack.frames = s.nextInvocation :: recordedOn rest →
      s'.stack.suspendedFrames = s.stack.suspendedFrames → s'.returns = s.returns →
      s'.nextInvocation = s.nextInvocation + 1 → Once s' := fun s' hlive hsusp hret hnext => by
    refine hs.grow hold (List.Perm.of_eq ?_) hnext
    unfold State.actions
    rw [hret]
    simp only [Frames.all, hsusp, recordedOn, filterMap_append] at hlive ⊢
    rw [hlive]
    simp
  cases route with
  | target | initializer | frameless => cases hst; exact hgrow _ rfl rfl rfl rfl

lemma actions_of_frames (h : s.stack.frames = frames) :
    s.actions = recordedOn frames ++ (recordedOn s.stack.suspendedFrames ++
      s.returns.filterMap Prod.snd) := by
  unfold State.actions Frames.all recordedOn
  rw [h, filterMap_append, append_assoc]

lemma Once.ret (hs : Once s) (hst : s.returnFrame = some s') : Once s' := by
  unfold State.returnFrame at hst
  split at hst
  · cases hst
  rename_i frame rest hfs
  cases rest with
  | nil =>
    cases hst
    exact hs.setFrames [] (nil_sublist _) rfl rfl rfl
  | cons caller below =>
    cases hst
    -- the caller's action moves from the frames to the returns
    refine hs.shrink ?_ rfl
    rw [actions_of_frames hfs, actions_of_frames rfl]
    simp only [recordedOn_cons, append_assoc]
    refine List.Subperm.trans (List.Perm.subperm ?_)
      (sublist_append_right frame.frameContinuation.toList _).subperm
    cases caller.frameContinuation with
    | none => exact List.Perm.refl _
    | some id =>
      simp only [toList_some, cons_append, nil_append]
      rw [← append_assoc, ← append_assoc]
      exact perm_middle

lemma Once.step {e : Event} (hs : Once s) (hst : step s e = some s') : Once s' := by
  cases e with
  | invoke route => exact hs.invoke hst
  | call isCctor =>
    cases hst
    exact hs.push rfl rfl rfl rfl
  | ret => exact hs.ret hst
  | finalizer =>
    cases hst
    unfold State.interposeFinalizer
    split
    · exact hs
    · exact hs.push rfl rfl rfl rfl
  | tail honored =>
    simp only [ReturnActions.step, State.dispatchMethodTail] at hst
    split at hst
    · cases hst
    · rename_i frame rest hframes
      split at hst
      · cases hst
        refine hs.setFrames _ ?_ rfl rfl rfl
        rw [hframes, recordedOn_cons, recordedOn_cons]
        exact sublist_append_right _ _
      · cases hst
        exact hs.push rfl rfl rfl rfl
  | unwind | jmp =>
    simp only [ReturnActions.step, State.unwindFrame, State.dispatchMethodJmp] at hst
    split at hst
    · cases hst
    · rename_i frame rest hframes
      cases hst
      refine hs.setFrames _ ?_ rfl rfl rfl
      simp only [hframes, recordedOn_cons]
      exact sublist_append_right _ _
  | suspendAbove index =>
    obtain ⟨fs, hfs, rfl⟩ := map_eq_some_iff.mp hst
    refine hs.shrink ?_ rfl
    have hsub : (recordedOn fs.all).Subperm (recordedOn s.stack.all) := by
      obtain ⟨l, hperm, hsub⟩ := (Frames.all_perm_of_suspendAbove hfs).subperm.trans
        (sublist_append_left s.stack.frames s.stack.suspendedFrames).subperm
      exact ⟨recordedOn l, hperm.filterMap _, hsub.filterMap _⟩
    exact (subperm_append_right _).mpr hsub
  | restoreSuspended =>
    cases hst
    refine hs.shrink (List.Perm.subperm ?_) rfl
    exact ((Frames.all_restoreSuspended_perm _).filterMap _).append_right _
  | clearSuspended =>
    cases hst
    refine hs.shrink (List.Sublist.subperm ?_) rfl
    refine List.Sublist.append_right (List.Sublist.filterMap _ ?_) _
    simp only [Frames.all, Frames.clearSuspended, append_nil]
    exact sublist_append_left _ _
  | clear =>
    cases hst
    refine hs.shrink (List.Sublist.subperm ?_) rfl
    exact List.Sublist.append_right (nil_sublist _) _

/-- In every run whose invocations go straight to their targets, each return applies exactly the
action of the invocation whose target returns, and none if it is not the target of one, and no
action is applied twice. -/
theorem actions_of_straight (s : State) (hrun : Run step Straight start s) :
    (∀ r ∈ s.returns, r.1 = r.2) ∧ (s.returns.filterMap Prod.snd).Nodup := by
  have hpaired : Paired s :=
    hrun.invariant (fun _ _ _ hs hok hst => hs.step hok hst) paired_start
  have honce : Once s := hrun.invariant (fun _ _ _ hs _ hst => hs.step hst) ⟨nodup_nil, nofun⟩
  exact ⟨hpaired.returned, (nodup_append.mp honce.nodup).2.1⟩

/-- In every run an action is pending on one frame or was applied once, never both. -/
theorem actions_nodup (hrun : Run step anyStep start s) : s.actions.Nodup :=
  (hrun.invariant (fun _ _ _ hs _ hst => Once.step hs hst) ⟨nodup_nil, nofun⟩).nodup

theorem initializer_action_nodup :
    ∃ s, exec step start [.invoke .initializer, .ret] = some s ∧ s.actions.Nodup :=
  ⟨_, rfl, actions_nodup (Run.of_exec_any [.invoke .initializer, .ret] rfl)⟩

instance decidableSettled (s : State) : Decidable (Settled s) :=
  inferInstanceAs (Decidable (∀ f ∈ s.stack.frames.head?, f.frameContinuation = none))

instance decidableStraight (s : State) : (e : Event) → Decidable (Straight s e)
  | .invoke route => inferInstanceAs (Decidable (route = .target))
  | .call _ | .tail _ => inferInstanceAs (Decidable (Settled s))
  | .finalizer => inferInstanceAs (Decidable (s.processingFinalizer = false → Settled s))
  | .restoreSuspended => inferInstanceAs (Decidable (∀ low ∈ s.stack.suspendedFrames.getLast?,
      ∃ current ∈ s.stack.frames.head?, current.frameContinuation = low.invokedBy))
  | .ret | .unwind | .jmp | .suspendAbove _ | .clearSuspended | .clear =>
    inferInstanceAs (Decidable True)

def nestedInvocations : List Event :=
  [.invoke .target, .call false, .finalizer, .ret, .ret, .invoke .target, .suspendAbove 1,
    .restoreSuspended, .ret, .ret]

theorem nestedInvocations_paired : ∃ s, Run step Straight start s ∧ s.stack.frames.length = 1 ∧
      (some 0, some 0) ∈ s.returns ∧ (s.returns.filterMap Prod.snd).Nodup := by
  have h : exec step start nestedInvocations = some _ := rfl
  have hrun : Run step Straight start _ := Run.of_exec nestedInvocations (by decide) h
  exact ⟨_, hrun, rfl, by decide, (actions_of_straight _ hrun).2⟩

end DotnetVm.ReturnActions
