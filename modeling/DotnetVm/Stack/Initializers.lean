import DotnetVm.Lib.FrameStacks
import DotnetVm.Lib.Runs

/-!
# How activations of static constructors end

`init` answers `Execute` for one thread, which dispatches the static constructor.
The type leaves the initializing state only when a frame of that constructor is
popped by `return_frame` or by `unwind_frame`. Frames also leave the stack in other
ways, and a constructor may be dispatched without a frame.

Here a frame is only what these operations look at: the type it initializes, if its
method is a static constructor. The top frame comes first.
-/

namespace DotnetVm.Initializers

open Bool FrameStacks Function List Runs

abbrev ThreadId := Nat

/-- A type with its generic arguments. -/
abbrev Key := Nat

inductive InitState where
  | uninitialized
  | initializing (thread : ThreadId)
  | initialized
  | failed
  deriving DecidableEq, Repr

/-- The type whose static constructor the frame executes. -/
structure StackFrame where
  cctor : Option Key
  deriving DecidableEq, Repr

structure State where
  statics : Key → InitState
  stack : ThreadId → Frames StackFrame

structure Metadata where
  hasCctor : Key → Bool
  isIntrinsic : Key → Bool
  isPinvoke : Key → Bool
  hasBody : Key → Bool

namespace State

section

variable (s : State) (t : ThreadId)

def setStack (fs : Frames StackFrame) : State :=
  { s with stack := update s.stack t fs }

def setFrames (frames : List StackFrame) : State :=
  s.setStack t { s.stack t with frames }

def mark (s : State) (state : InitState) : Option Key → State
  | none => s
  | some k => { s with statics := update s.statics k state }

def callFrame (cctor : Option Key) : State :=
  s.setFrames t (⟨cctor⟩ :: (s.stack t).frames)

def returnFrame : Option State :=
  match (s.stack t).frames with
  | [] => none
  | frame :: rest => some ((s.setFrames t rest).mark .initialized frame.cctor)

/-- `unwind_frame`: a static constructor has failed. -/
def unwindFrame : Option State :=
  match (s.stack t).frames with
  | [] => none
  | frame :: rest => some ((s.setFrames t rest).mark .failed frame.cctor)

/-- `dispatch_method_tail` for a method with a body. `honored` stands for the conditions of
`should_honor_tail_call` on the method, its code and its operands. -/
def dispatchMethodTail (cctor : Option Key) (honored : Bool) : Option State :=
  match (s.stack t).frames with
  | [] => none
  | frame :: rest =>
    if honored && frame.cctor.isNone then some ((s.setFrames t rest).callFrame t cctor)
    else some (s.callFrame t cctor)

/-- `dispatch_method_jmp` after its checks. -/
def dispatchMethodJmp (cctor : Option Key) : Option State :=
  match (s.stack t).frames with
  | [] => none
  | _ :: rest => some ((s.setFrames t rest).callFrame t cctor)

end

section

variable (D : Metadata) (s : State) (t : ThreadId)

/-- `dispatch_resolved_method_with_mode` for the static constructor of a type. `entered` says
whether a body got its frame: its preparation, the depth budget or the call may fail. -/
def dispatchCctor (k : Key) (entered : Bool) : State :=
  if D.isIntrinsic k then s
  else if D.isPinvoke k then s
  else if !D.hasBody k then s
  else if entered then s.callFrame t (some k)
  else s

/-- `initialize_static_storage`, for the answers that change something. -/
def initializeStaticStorage (k : Key) (entered : Bool) : State :=
  match s.statics k with
  | .uninitialized =>
    if D.hasCctor k then
      dispatchCctor D { s with statics := update s.statics k (.initializing t) } t k entered
    else { s with statics := update s.statics k .initialized }
  | _ => s

end

/-- The frames that were suspended before are dropped. -/
def suspendAbove (s : State) (t : ThreadId) (index : Nat) : Option State :=
  ((s.stack t).suspendAbove index).map (s.setStack t)

def restoreSuspended (s : State) (t : ThreadId) : State :=
  s.setStack t (s.stack t).restoreSuspended

def clearSuspended (s : State) (t : ThreadId) : State := s.setStack t (s.stack t).clearSuspended

/-- An exception nobody handles ends the thread. -/
def clear (s : State) (t : ThreadId) : State := s.setStack t .empty

end State

/-- What a thread does to its frames. -/
inductive Event where
  | initType (t : ThreadId) (k : Key) (entered : Bool)
  | call (t : ThreadId) (cctor : Option Key)
  | ret (t : ThreadId)
  | unwind (t : ThreadId)
  | tail (t : ThreadId) (cctor : Option Key) (honored : Bool)
  | jmp (t : ThreadId) (cctor : Option Key)
  | suspendAbove (t : ThreadId) (index : Nat)
  | restoreSuspended (t : ThreadId)
  | clearSuspended (t : ThreadId)
  | clear (t : ThreadId)
  deriving DecidableEq, Repr

def step (D : Metadata) (s : State) : Event → Option State
  | .initType t k entered => some (s.initializeStaticStorage D t k entered)
  | .call t cctor => some (s.callFrame t cctor)
  | .ret t => s.returnFrame t
  | .unwind t => s.unwindFrame t
  | .tail t cctor honored => s.dispatchMethodTail t cctor honored
  | .jmp t cctor => s.dispatchMethodJmp t cctor
  | .suspendAbove t index => s.suspendAbove t index
  | .restoreSuspended t => some (s.restoreSuspended t)
  | .clearSuspended t => some (s.clearSuspended t)
  | .clear t => some (s.clear t)

def start : State where
  statics := fun _ => .uninitialized
  stack := fun _ => .empty

def Attended (s : State) : Prop :=
  ∀ k t, s.statics k = .initializing t → ∃ f ∈ (s.stack t).all, f.cctor = some k

/-- Constructor 0 is an intrinsic, constructor 1 jumps to another method, constructor 2 throws an
exception that nobody handles. -/
def environment : Metadata where
  hasCctor := fun _ => true
  isIntrinsic := fun k => k == 0
  isPinvoke := fun _ => false
  hasBody := fun _ => true

def abandoned : List Event :=
  [.call 1 none, .initType 1 0 true, .initType 1 1 true, .jmp 1 none, .ret 1,
    .initType 1 2 true, .clear 1]

/-- A constructor that is an intrinsic, one whose frame `jmp` replaced and one whose frame was
cleared leave their types initializing. -/
theorem abandoned_stays_initializing :
    ∃ s, Run (step environment) anyStep start s ∧ (s.stack 1).all = [] ∧
      s.statics 0 = .initializing 1 ∧ s.statics 1 = .initializing 1 ∧
      s.statics 2 = .initializing 1 := by
  have h : exec (step environment) start abandoned = some _ := rfl
  exact ⟨_, Run.of_exec_any abandoned h, rfl, rfl, rfl, rfl⟩

/-- Dropping the frame would leave its type initializing. -/
def Pending (s : State) (t : ThreadId) (f : StackFrame) : Prop :=
  ∃ k ∈ f.cctor, s.statics k = .initializing t

def Completes (D : Metadata) (s : State) : Event → Prop
  | .initType _ k entered =>
    s.statics k = .uninitialized → D.hasCctor k = true →
      D.isIntrinsic k = false ∧ D.isPinvoke k = false ∧ D.hasBody k = true ∧ entered = true
  | .jmp t _ => ∀ f ∈ (s.stack t).frames.head?, ¬ Pending s t f
  | .suspendAbove t _ | .clearSuspended t => ∀ f ∈ (s.stack t).suspendedFrames, ¬ Pending s t f
  | .clear t => ∀ f ∈ (s.stack t).all, ¬ Pending s t f
  | .call _ _ | .ret _ | .unwind _ | .tail _ _ _ | .restoreSuspended _ => True

instance decidablePending (s : State) (t : ThreadId) (f : StackFrame) : Decidable (Pending s t f) :=
  inferInstanceAs (Decidable (∃ k ∈ f.cctor, s.statics k = .initializing t))

instance decidableCompletes (D : Metadata) (s : State) : (e : Event) → Decidable (Completes D s e)
  | .initType _ k entered => inferInstanceAs (Decidable (s.statics k = .uninitialized →
      D.hasCctor k = true →
        D.isIntrinsic k = false ∧ D.isPinvoke k = false ∧ D.hasBody k = true ∧ entered = true))
  | .jmp t _ => inferInstanceAs (Decidable (∀ f ∈ (s.stack t).frames.head?, ¬ Pending s t f))
  | .suspendAbove t _ | .clearSuspended t =>
    inferInstanceAs (Decidable (∀ f ∈ (s.stack t).suspendedFrames, ¬ Pending s t f))
  | .clear t => inferInstanceAs (Decidable (∀ f ∈ (s.stack t).all, ¬ Pending s t f))
  | .call _ _ | .ret _ | .unwind _ | .tail _ _ _ | .restoreSuspended _ =>
    inferInstanceAs (Decidable True)

variable {D : Metadata} {s s' : State} {t : ThreadId}

section

variable (hs : Attended s)
include hs

lemma Attended.moved {fs : Frames StackFrame}
    (hkept : ∀ f ∈ (s.stack t).all, Pending s t f → f ∈ fs.all) : Attended (s.setStack t fs) := by
  intro k u hk
  obtain ⟨f, hf, hcc⟩ := hs k u hk
  by_cases hut : u = t
  · subst hut
    refine ⟨f, ?_, hcc⟩
    simp only [State.setStack, update_self]
    exact hkept f hf ⟨k, hcc, hk⟩
  · refine ⟨f, ?_, hcc⟩
    simp only [State.setStack, update_of_ne hut]
    exact hf

/-- Popping a frame and marking its type. -/
lemma Attended.marked {frame : StackFrame} {rest : List StackFrame}
    (hfs : (s.stack t).frames = frame :: rest) {state : InitState}
    (hdone : ∀ u, state ≠ .initializing u) :
    Attended ((s.setFrames t rest).mark state frame.cctor) := by
  intro k u hk
  have hne : frame.cctor ≠ some k := fun heq => by
    rw [heq] at hk
    simp only [State.mark, update_self] at hk
    exact hdone u hk
  have hold : s.statics k = .initializing u := by
    cases hc : frame.cctor with
    | none => rw [hc] at hk; exact hk
    | some k' =>
      have hkk : k ≠ k' := fun heq => hne (heq ▸ hc)
      rw [hc] at hk
      simpa only [State.mark, State.setFrames, State.setStack, update_of_ne hkk] using hk
  have hstk : ((s.setFrames t rest).mark state frame.cctor).stack =
      update s.stack t { s.stack t with frames := rest } := by
    cases frame.cctor <;> rfl
  obtain ⟨f, hf, hcc⟩ := hs k u hold
  refine ⟨f, ?_, hcc⟩
  rw [hstk]
  by_cases hut : u = t
  · subst hut
    rw [update_self]
    simp only [Frames.all, hfs, cons_append, mem_cons] at hf ⊢
    exact hf.resolve_left fun heq => hne (heq ▸ hcc)
  · rwa [update_of_ne hut]

lemma Attended.call (cctor : Option Key) : Attended (s.callFrame t cctor) :=
  hs.moved fun _ hf _ => mem_cons_of_mem _ hf

lemma Attended.initType {k : Key} {entered : Bool} (hok : Completes D s (.initType t k entered)) :
    Attended (s.initializeStaticStorage D t k entered) := by
  unfold State.initializeStaticStorage
  split
  · rename_i hst
    have hoth : ∀ k' u, k' ≠ k → s.statics k' = .initializing u →
        ∃ f ∈ (s.stack u).all, f.cctor = some k' := fun k' u _ h => hs k' u h
    cases hc : D.hasCctor k with
    | false =>
      simp only [false_eq_true, if_false]
      intro k' u hk'
      by_cases hk : k' = k
      · subst hk
        simp at hk'
      · simp only [update_of_ne hk] at hk'
        exact hoth k' u hk hk'
    | true =>
      obtain ⟨hintr, hpinv, hbody, rfl⟩ := hok hst hc
      simp only [if_true, State.dispatchCctor, hintr, hpinv, hbody, false_eq_true,
        if_false, Bool.not_true]
      intro k' u hk'
      simp only [State.callFrame, State.setFrames, State.setStack] at hk' ⊢
      by_cases hk : k' = k
      · subst hk
        rw [update_self] at hk'
        cases hk'
        exact ⟨⟨some k'⟩, by rw [update_self]; exact mem_cons_self, rfl⟩
      · rw [update_of_ne hk] at hk'
        obtain ⟨f, hf, hcc⟩ := hoth k' u hk hk'
        refine ⟨f, ?_, hcc⟩
        by_cases hut : u = t
        · subst hut
          rw [update_self]
          exact mem_cons_of_mem _ hf
        · rwa [update_of_ne hut]
  · exact hs

lemma Attended.step {e : Event} (hok : Completes D s e) (hst : step D s e = some s') :
    Attended s' := by
  cases e with
  | initType t k entered => cases hst; exact hs.initType hok
  | call t cctor => cases hst; exact hs.call cctor
  | ret t | unwind t =>
    simp only [Initializers.step, State.returnFrame, State.unwindFrame] at hst
    split at hst
    · cases hst
    · rename_i frame rest hframes
      cases hst
      exact hs.marked hframes fun u h => by cases h
  | tail t cctor honored =>
    simp only [Initializers.step, State.dispatchMethodTail] at hst
    split at hst
    · cases hst
    · rename_i frame rest hframes
      split at hst
      · rename_i hhonored
        cases hst
        have hno : frame.cctor = none := by
          simpa using (and_eq_true_iff.mp hhonored).2
        refine Attended.call (hs.moved fun f hf hp => ?_) cctor
        simp only [Frames.all, hframes, cons_append, mem_cons] at hf ⊢
        refine hf.resolve_left fun heq => ?_
        obtain ⟨k, hk, -⟩ := hp
        rw [heq, hno] at hk
        cases hk
      · cases hst
        exact hs.call cctor
  | jmp t cctor =>
    simp only [Initializers.step, State.dispatchMethodJmp] at hst
    split at hst
    · cases hst
    · rename_i frame rest hframes
      cases hst
      refine Attended.call (hs.moved fun f hf hp => ?_) cctor
      have hfr : ¬ Pending s t frame := hok frame (by rw [hframes]; rfl)
      simp only [Frames.all, hframes, cons_append, mem_cons] at hf ⊢
      exact hf.resolve_left fun heq => hfr (heq ▸ hp)
  | suspendAbove t index =>
    obtain ⟨fs, hfs, rfl⟩ := Option.map_eq_some_iff.mp hst
    refine hs.moved fun f hf hp => ?_
    rcases mem_append.mp hf with hlive | hsusp
    · exact (Frames.all_perm_of_suspendAbove hfs).mem_iff.mpr hlive
    · exact absurd hp (hok f hsusp)
  | restoreSuspended t =>
    cases hst
    exact hs.moved fun f hf _ => (Frames.all_restoreSuspended_perm _).mem_iff.mpr hf
  | clearSuspended t =>
    cases hst
    refine hs.moved fun f hf hp => ?_
    rcases mem_append.mp hf with hlive | hsusp
    · exact mem_append_left _ hlive
    · exact absurd hp (hok f hsusp)
  | clear t =>
    cases hst
    exact hs.moved fun f hf hp => absurd hp (hok f hf)

end

/-- In every run whose steps complete the constructors they end, a type that is being initialized
has an activation of its static constructor on the initializing thread, so a type whose
constructor has stopped executing is initialized or failed. -/
theorem attended_of_completes (D : Metadata) (s : State)
    (hrun : Run (step D) (Completes D) start s) : Attended s :=
  hrun.invariant (fun _ _ _ hs hok hst => hs.step hok hst) nofun

/-- A constructor returns and another one is unwound. -/
def completed : List Event :=
  [.call 1 none, .initType 1 1 true, .call 1 none, .ret 1, .ret 1, .initType 1 2 true,
    .initType 1 3 true, .unwind 1]

theorem completed_attended :
    ∃ s, Run (step environment) (Completes environment) start s ∧ s.statics 1 = .initialized ∧
      s.statics 3 = .failed ∧ s.statics 2 = .initializing 1 ∧ Attended s := by
  have h : exec (step environment) start completed = some _ := rfl
  have hrun : Run (step environment) (Completes environment) start _ :=
    Run.of_exec completed (by decide) h
  exact ⟨_, hrun, rfl, rfl, rfl, attended_of_completes environment _ hrun⟩

end DotnetVm.Initializers
