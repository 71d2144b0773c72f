import DotnetVm.Machine

/-!
# What instructions leave alone

Evaluation-stack operations, calls and returns change the top of the frame
stack only, and never the exception mode, the saved unwinds or the suspended
segments. The lemmas here say so once for each operation; invariants of the
exception machinery are derived from them without unfolding the operations.
-/

namespace DotnetVm

open List Option

variable {Ty : Type} {s s' t : ThreadContext Ty} {f g h : StackFrame Ty}
  {init : List (StackFrame Ty)}

/-- The two frames are one activation at one instruction: they may differ in the operands they hold
and in a pending return action. -/
structure SameFrame (f g : StackFrame Ty) : Prop where
  base : g.base = f.base
  ip : g.ip = f.ip
  info : g.info = f.info
  exceptionStack : g.exceptionStack = f.exceptionStack
  isFinalizer : g.isFinalizer = f.isFinalizer
  multicastState : g.multicastState = f.multicastState
  constructorResult : g.constructorResult = f.constructorResult

lemma SameFrame.refl (f : StackFrame Ty) : SameFrame f f := ⟨rfl, rfl, rfl, rfl, rfl, rfl, rfl⟩

lemma SameFrame.trans (h₁ : SameFrame f g) (h₂ : SameFrame g h) : SameFrame f h where
  base := h₂.base.trans h₁.base
  ip := h₂.ip.trans h₁.ip
  info := h₂.info.trans h₁.info
  exceptionStack := h₂.exceptionStack.trans h₁.exceptionStack
  isFinalizer := h₂.isFinalizer.trans h₁.isFinalizer
  multicastState := h₂.multicastState.trans h₁.multicastState
  constructorResult := h₂.constructorResult.trans h₁.constructorResult

/-- The exception machinery's own fields are unchanged. -/
structure Quiet (s s' : ThreadContext Ty) : Prop where
  mode : s'.exceptionMode = s.exceptionMode
  unwinds : s'.continuation.unwinds = s.continuation.unwinds
  suspendedStack : s'.suspendedStack = s.suspendedStack
  suspendedFrames : s'.suspendedFrames = s.suspendedFrames

lemma Quiet.refl (s : ThreadContext Ty) : Quiet s s := ⟨rfl, rfl, rfl, rfl⟩

lemma Quiet.trans (h₁ : Quiet s s') (h₂ : Quiet s' t) : Quiet s t where
  mode := h₂.mode.trans h₁.mode
  unwinds := h₂.unwinds.trans h₁.unwinds
  suspendedStack := h₂.suspendedStack.trans h₁.suspendedStack
  suspendedFrames := h₂.suspendedFrames.trans h₁.suspendedFrames

/-- Only the current frame `f` was touched, and it is still the same activation. -/
def Local (init : List (StackFrame Ty)) (f : StackFrame Ty) (s s' : ThreadContext Ty) : Prop :=
  Quiet s s' ∧ ∃ f', SameFrame f f' ∧ s'.frames = init ++ [f']

lemma Local.intro {f' : StackFrame Ty} (hfs : s'.frames = init ++ [f'])
    (hsm : SameFrame f f') (hq : Quiet s s') : Local init f s s' :=
  ⟨hq, f', hsm, hfs⟩

lemma Local.refl (hs : s.frames = init ++ [f]) : Local init f s s :=
  ⟨Quiet.refl s, f, SameFrame.refl f, hs⟩

lemma Local.step (hl : Local init f s s')
    (hst : ∀ f', SameFrame f f' → s'.frames = init ++ [f'] → Local init f' s' t) :
    Local init f s t := by
  obtain ⟨hq, f', hsm, hfs⟩ := hl
  obtain ⟨hq', f'', hsm', hfs'⟩ := hst f' hsm hfs
  exact ⟨hq.trans hq', f'', hsm.trans hsm', hfs'⟩

lemma push_concat (hs : s.frames = init ++ [f]) (v : StackValue) : s.push v = { s with
      stack := s.stack ++ [v]
      frames := init ++ [{ f with stackHeight := f.stackHeight + 1 }] } := by
  simp [ThreadContext.push, hs]

lemma push_nil (hs : s.frames = []) (v : StackValue) :
    s.push v = { s with stack := s.stack ++ [v] } := by
  simp [ThreadContext.push, hs]

variable {v : StackValue}

section

variable (hs : s.frames = init ++ [f])
include hs

lemma push_local (v : StackValue) : Local init f s (s.push v) := by
  rw [push_concat hs]
  exact Local.intro rfl ⟨rfl, rfl, rfl, rfl, rfl, rfl, rfl⟩ ⟨rfl, rfl, rfl, rfl⟩

lemma onPopSafe_concat (h : s.onPopSafe = .ok s') :
    ∃ height, f.stackHeight = height + 1 ∧
      s' = { s with frames := init ++ [{ f with stackHeight := height }] } := by
  simp only [ThreadContext.onPopSafe, hs, getLast?_concat, modifyCurrent_concat] at h
  split at h
  · cases h
  · next hne =>
    obtain ⟨height, hht⟩ := Nat.exists_eq_succ_of_ne_zero hne
    refine ⟨height, hht, ?_⟩
    rw [hht] at h
    simpa using h.symm

lemma popSafe_concat (h : s.popSafe = .ok (v, s')) :
    ∃ height st, f.stackHeight = height + 1 ∧ s.stack = st ++ [v] ∧
      s' = { s with stack := st, frames := init ++ [{ f with stackHeight := height }] } := by
  unfold ThreadContext.popSafe at h
  split at h
  · cases h
  · next t ht =>
    obtain ⟨height, hht, rfl⟩ := onPopSafe_concat hs ht
    rcases eq_nil_or_concat' s.stack with hst | ⟨st, w, hst⟩
    · simp [hst] at h
    · simp only [hst, getLast?_concat, dropLast_concat] at h
      obtain ⟨rfl, rfl⟩ := h
      exact ⟨height, st, hht, hst, rfl⟩

lemma popSafe_local (h : s.popSafe = .ok (v, s')) : Local init f s s' := by
  obtain ⟨height, st, _, _, rfl⟩ := popSafe_concat hs h
  exact Local.intro rfl ⟨rfl, rfl, rfl, rfl, rfl, rfl, rfl⟩ ⟨rfl, rfl, rfl, rfl⟩

omit hs in
lemma setSlot_eq {i : Nat} (h : s.setSlot i v = .ok s') :
    i < s.stack.length ∧ s' = { s with stack := s.stack.set i v } := by
  unfold ThreadContext.setSlot at h
  split at h
  · next hi => exact ⟨hi, by simpa using h.symm⟩
  · cases h

lemma setSlot_local {i : Nat} (h : s.setSlot i v = .ok s') : Local init f s s' := by
  obtain ⟨_, rfl⟩ := setSlot_eq h
  exact ⟨⟨rfl, rfl, rfl, rfl⟩, f, SameFrame.refl f, hs⟩

lemma applyOp_local {op : StackOp} (h : applyOp s op = .ok s') : Local init f s s' := by
  cases op with
  | push v =>
    obtain rfl : s.push v = s' := by simpa [applyOp] using h
    exact push_local hs v
  | pop =>
    simp only [applyOp] at h
    split at h
    · cases h
    · next v t hp =>
      obtain rfl : t = s' := by simpa using h
      exact popSafe_local hs hp
  | setLocal index v | setArgument index v =>
    simp only [applyOp, hs, getLast?_concat] at h
    exact setSlot_local hs h
  | setReturnAction action =>
    simp only [applyOp, hs, modifyCurrent_concat, Except.ok.injEq] at h
    subst h
    exact Local.intro rfl ⟨rfl, rfl, rfl, rfl, rfl, rfl, rfl⟩ ⟨rfl, rfl, rfl, rfl⟩

lemma applyOps_local {ops : List StackOp} (h : applyOps s ops = .ok s') : Local init f s s' := by
  induction ops generalizing s f with
  | nil =>
    obtain rfl : s = s' := by simpa [applyOps] using h
    exact Local.refl hs
  | cons op ops ih =>
    simp only [applyOps] at h
    split at h
    · cases h
    · next t hop => exact (applyOp_local hs hop).step fun f' _ hf' => ih hf' h

end

lemma applyOps_originalIp {ops : List StackOp} (hs : s.frames = init ++ [g])
    (h : applyOps s ops = .ok t) : t.originalIp = s.originalIp ∧
      t.originalStackHeight = s.originalStackHeight := by
  induction ops generalizing s g with
  | nil =>
    obtain rfl : s = t := by simpa [applyOps] using h
    exact ⟨rfl, rfl⟩
  | cons op ops ih =>
    simp only [applyOps] at h
    split at h
    · cases h
    · next u hop =>
      obtain ⟨_, g', _, hg'⟩ := applyOp_local hs hop
      have hrest := ih hg' h
      suffices hone : u.originalIp = s.originalIp ∧
          u.originalStackHeight = s.originalStackHeight from
        ⟨hrest.1.trans hone.1, hrest.2.trans hone.2⟩
      cases op with
      | push _ | setReturnAction _ =>
        obtain rfl := Except.ok.inj hop
        exact ⟨rfl, rfl⟩
      | pop =>
        simp only [applyOp] at hop
        split at hop
        · cases hop
        · next v w hw =>
          obtain rfl := Except.ok.inj hop
          obtain ⟨_, _, _, _, rfl⟩ := popSafe_concat hs hw
          exact ⟨rfl, rfl⟩
      | setLocal _ _ | setArgument _ _ =>
        simp only [applyOp, hs, getLast?_concat] at hop
        obtain ⟨_, rfl⟩ := setSlot_eq hop
        exact ⟨rfl, rfl⟩

lemma yieldAndRetry_concat (ht : t.frames = init ++ [g]) :
    Quiet t (yieldAndRetry t) ∧ (yieldAndRetry t).frames = init ++ [{ g with
      ip := t.originalIp
      stackHeight := t.originalStackHeight - g.base.stack }] := by
  constructor
  · refine ⟨rfl, ?_, rfl, rfl⟩
    cases hk : t.continuation <;> simp [yieldAndRetry, hk]
  · simp [yieldAndRetry, ht]

lemma pushAll_concat (hs : s.frames = init ++ [f]) (vs : List StackValue) :
    pushAll s vs = { s with
      stack := s.stack ++ vs
      frames := init ++ [{ f with stackHeight := f.stackHeight + vs.length }] } := by
  induction vs generalizing s f with
  | nil => simp [pushAll, ← hs]
  | cons v vs ih =>
    have hpush := push_concat hs v
    have hfs : (s.push v).frames = init ++ [{ f with stackHeight := f.stackHeight + 1 }] := by
      rw [hpush]
    have hrest := ih hfs
    rw [show pushAll s (v :: vs) = pushAll (s.push v) vs from rfl, hrest, hpush]
    simp [add_assoc, add_comm 1]

lemma pushAll_nil (hs : s.frames = []) (vs : List StackValue) :
    pushAll s vs = { s with stack := s.stack ++ vs } := by
  induction vs generalizing s with
  | nil => simp [pushAll]
  | cons v vs ih =>
    have hpush := push_nil hs v
    have hfs : (s.push v).frames = [] := by rw [hpush]; exact hs
    rw [show pushAll s (v :: vs) = pushAll (s.push v) vs from rfl, ih hfs, hpush]
    simp

variable {info : MethodInfo Ty}

lemma canonicalizeThis_eq {a : Nat} (h : canonicalizeThis s info a = .ok s') :
    ∃ st, s' = { s with stack := st } ∧ st.length = s.stack.length ∧
      ∀ n ≤ a, st.take n = s.stack.take n := by
  have same : ∃ st, s = { s with stack := st } ∧ st.length = s.stack.length ∧
      ∀ n ≤ a, st.take n = s.stack.take n := ⟨s.stack, rfl, rfl, fun _ _ => rfl⟩
  unfold canonicalizeThis at h
  split at h
  · obtain rfl : s = s' := by simpa using h
    exact same
  · cases h
  · split at h
    · split at h
      · cases h
      · next obj _ =>
        obtain rfl : { s with stack := s.stack.set a (.managedPtr obj) } = s' := by simpa using h
        refine ⟨_, rfl, by simp, fun n hn => ?_⟩
        exact take_set_of_le hn
    · obtain rfl : s = s' := by simpa using h
      exact same
  · obtain rfl : s = s' := by simpa using h
    exact same

def Consumed (fs : List (StackFrame Ty)) (count : Nat) (gs : List (StackFrame Ty)) : Prop :=
  (fs = [] ∧ gs = []) ∨ ∃ init f, fs = init ++ [f] ∧ count ≤ f.stackHeight ∧
      gs = init ++ [{ f with stackHeight := f.stackHeight - count }]

variable {count : Nat}

lemma consumeArguments_eq (h : consumeArguments s count = .ok s') :
    ∃ gs, s' = { s with frames := gs } ∧ Consumed s.frames count gs := by
  rcases eq_nil_or_concat' s.frames with hs | ⟨init, f, hs⟩
  · simp only [consumeArguments, hs, getLast?_nil, Except.ok.injEq] at h
    subst h
    exact ⟨[], by simp [← hs], .inl ⟨hs, rfl⟩⟩
  · simp only [consumeArguments, hs, getLast?_concat, modifyCurrent_concat] at h
    split at h
    · cases h
    · next hle =>
      obtain rfl := Except.ok.inj h
      exact ⟨_, rfl, .inr ⟨init, f, hs, by omega, rfl⟩⟩

/-- The frame a call pushes on the stack of `s`. -/
def calleeFrame (s : ThreadContext Ty) (info : MethodInfo Ty) : StackFrame Ty :=
  .new
    { arguments := s.stack.length - info.argumentCount
      locals := s.stack.length
      stack := s.stack.length + info.locals.length } info

lemma callFrame_eq (h : callFrame s info = .ok s') :
    info.argumentCount ≤ s.stack.length ∧ ∃ gs st,
      s' = { s with stack := st, frames := gs ++ [calleeFrame s info] } ∧
      Consumed s.frames info.argumentCount gs ∧
      st.length = s.stack.length + info.locals.length ∧
      ∀ n ≤ s.stack.length - info.argumentCount, st.take n = s.stack.take n := by
  unfold callFrame at h
  dsimp only at h
  split at h
  · cases h
  · next hlen =>
    split at h
    · cases h
    · next t ht =>
      obtain ⟨st, rfl, hst, htake⟩ := canonicalizeThis_eq ht
      split at h
      · cases h
      · next t' ht' =>
        obtain ⟨gs, rfl, hgs⟩ := consumeArguments_eq ht'
        obtain rfl := Except.ok.inj h
        refine ⟨by omega, gs, st, rfl, hgs, by simpa using hst, fun n hn => ?_⟩
        rw [htake n hn, take_append_of_le_length (by omega)]

/-- The frame `callWith` pushes. -/
def preparedFrame (s : ThreadContext Ty) (info : MethodInfo Ty) (multicast : Option MulticastState)
    (constructorResult : Option Nat) : StackFrame Ty :=
  { calleeFrame s info with multicastState := multicast, constructorResult := constructorResult }

variable {multicast : Option MulticastState} {slot : Option Nat}

lemma callWith_eq (h : callWith s info multicast slot = .ok s') :
    info.argumentCount ≤ s.stack.length ∧ ∃ gs st,
      s' = { s with stack := st, frames := gs ++ [preparedFrame s info multicast slot] } ∧
      Consumed s.frames info.argumentCount gs ∧
      st.length = s.stack.length + info.locals.length ∧
      ∀ n ≤ s.stack.length - info.argumentCount, st.take n = s.stack.take n := by
  unfold callWith at h
  split at h
  · cases h
  · next t ht =>
    obtain ⟨hargs, gs, st, rfl, hgs, hst, htake⟩ := callFrame_eq ht
    obtain rfl := Except.ok.inj h
    exact ⟨hargs, gs, st, by simp [preparedFrame], hgs, hst, htake⟩

/-- A frame at the start of a method, with no handler entered. -/
structure Fresh (f : StackFrame Ty) : Prop where
  ip : f.ip = 0
  exceptionStack : f.exceptionStack = []

section

variable (s : ThreadContext Ty) (info : MethodInfo Ty)

lemma fresh_preparedFrame (multicast : Option MulticastState) (slot : Option Nat) :
    Fresh (preparedFrame s info multicast slot) := ⟨rfl, rfl⟩

end

def Called (init : List (StackFrame Ty)) (f : StackFrame Ty) (s s' : ThreadContext Ty) : Prop :=
  Quiet s s' ∧ ∃ f' n, SameFrame f f' ∧ Fresh n ∧ s'.frames = init ++ [f'] ++ [n]

variable {gs : List (StackFrame Ty)}

lemma Consumed.concat (h : Consumed (init ++ [f]) count gs) :
    count ≤ f.stackHeight ∧ gs = init ++ [{ f with stackHeight := f.stackHeight - count }] := by
  rcases h with ⟨hnil, _⟩ | ⟨init', f', heq, hle, rfl⟩
  · simp at hnil
  · obtain ⟨rfl, rfl⟩ := append_singleton_inj.mp heq
    exact ⟨hle, rfl⟩

lemma Consumed.nil (h : Consumed ([] : List (StackFrame Ty)) count gs) : gs = [] := by
  rcases h with ⟨_, hgs⟩ | ⟨init', f', heq, _⟩
  · exact hgs
  · simp at heq

lemma callFrame_called (hs : s.frames = init ++ [f])
    (h : callFrame s info = .ok s') : Called init f s s' := by
  obtain ⟨_, gs, st, rfl, hgs, _⟩ := callFrame_eq h
  rw [hs] at hgs
  obtain ⟨_, rfl⟩ := hgs.concat
  exact ⟨⟨rfl, rfl, rfl, rfl⟩, { f with stackHeight := f.stackHeight - info.argumentCount },
    calleeFrame s info, ⟨rfl, rfl, rfl, rfl, rfl, rfl, rfl⟩, ⟨rfl, rfl⟩, rfl⟩

lemma callWith_called (hs : s.frames = init ++ [f])
    (h : callWith s info multicast slot = .ok s') : Called init f s s' := by
  obtain ⟨_, gs, st, rfl, hgs, _⟩ := callWith_eq h
  rw [hs] at hgs
  obtain ⟨_, rfl⟩ := hgs.concat
  exact ⟨⟨rfl, rfl, rfl, rfl⟩, { f with stackHeight := f.stackHeight - info.argumentCount },
    preparedFrame s info multicast slot, ⟨rfl, rfl, rfl, rfl, rfl, rfl, rfl⟩,
    fresh_preparedFrame s info multicast slot, rfl⟩

lemma Local.called (hl : Local init f s s')
    (hcall : ∀ f', s'.frames = init ++ [f'] → Called init f' s' t) : Called init f s t := by
  obtain ⟨hq, f', hsm, hfs⟩ := hl
  obtain ⟨hq', f'', n, hsm', hn, hfs'⟩ := hcall f' hfs
  exact ⟨hq.trans hq', f'', n, hsm.trans hsm', hn, hfs'⟩

lemma pushAll_local (hs : s.frames = init ++ [f]) (vs : List StackValue) :
    Local init f s (pushAll s vs) := by
  rw [pushAll_concat hs]
  exact Local.intro rfl ⟨rfl, rfl, rfl, rfl, rfl, rfl, rfl⟩ ⟨rfl, rfl, rfl, rfl⟩

/-- The current frame was discarded and a fresh one stands in its place. -/
def Replaced (init : List (StackFrame Ty)) (s s' : ThreadContext Ty) : Prop :=
  Quiet s s' ∧ ∃ n, Fresh n ∧ s'.frames = init ++ [n]

variable {data : ReturnData}

section

variable (hs : s.frames = init ++ [f])
include hs

lemma replaceFrame_replaced {args : List StackValue} (hargs : args.length = info.argumentCount)
    (h : replaceFrame s f info args slot = .ok s') : Replaced init s s' := by
  obtain ⟨_, gs, st, rfl, hgs, _⟩ := callWith_eq h
  have hfresh := fresh_preparedFrame
    (pushAll ({ s with frames := s.frames.dropLast }.truncate f.base.arguments) args) info none slot
  suffices hkey : gs = init ∧
      Quiet s (pushAll ({ s with frames := s.frames.dropLast }.truncate f.base.arguments) args) by
    obtain ⟨rfl, hq⟩ := hkey
    exact ⟨⟨hq.mode, hq.unwinds, hq.suspendedStack, hq.suspendedFrames⟩, _, hfresh, rfl⟩
  rcases eq_nil_or_concat' init with rfl | ⟨lower, c, rfl⟩
  · have hpop : ({ s with frames := s.frames.dropLast }.truncate f.base.arguments).frames = [] := by
      simp [ThreadContext.truncate, hs]
    rw [pushAll_nil hpop] at hgs ⊢
    exact ⟨(hpop ▸ hgs).nil, ⟨rfl, rfl, rfl, rfl⟩⟩
  · have hpop : ({ s with frames := s.frames.dropLast }.truncate f.base.arguments).frames =
        lower ++ [c] := by
      simp [ThreadContext.truncate, hs]
    rw [pushAll_concat hpop] at hgs ⊢
    obtain ⟨_, hgs⟩ := hgs.concat
    refine ⟨?_, ⟨rfl, rfl, rfl, rfl⟩⟩
    rw [hgs]
    simp [hargs]

lemma completeConstructor_local (h : completeConstructor s slot data = .ok s') :
    Local init f s s' := by
  cases slot with
  | none =>
    obtain rfl : s = s' := by simpa [completeConstructor] using h
    exact Local.refl hs
  | some slot => exact setSlot_local hs h

lemma applyReturnAction_local (h : applyReturnAction s data = .ok s') : Local init f s s' := by
  have hmod : modifyCurrent s.frames (fun f => { f with frameContinuation := none }) =
      init ++ [{ f with frameContinuation := none }] := by rw [hs, modifyCurrent_concat]
  have htaken : Local init f s { s with
      frames := modifyCurrent s.frames fun f => { f with frameContinuation := none } } :=
    Local.intro hmod ⟨rfl, rfl, rfl, rfl, rfl, rfl, rfl⟩ ⟨rfl, rfl, rfl, rfl⟩
  simp only [applyReturnAction] at h
  split at h
  · obtain rfl := Except.ok.inj h
    exact htaken
  · obtain rfl := Except.ok.inj h
    exact htaken.step fun f' _ hf' => push_local hf' _
  · split at h
    · cases h
    · next v t ht =>
      obtain rfl := Except.ok.inj h
      exact htaken.step fun f' _ hf' =>
        (popSafe_local hf' ht).step fun f'' _ hf'' => push_local hf'' _

lemma pushOption_local (v : Option StackValue) : Local init f s (pushOption s v) := by
  cases v with
  | none => exact Local.refl hs
  | some v => exact push_local hs v

end

variable {lower : List (StackFrame Ty)} {c : StackFrame Ty}

/-- A return with a caller changes the caller's frame only. -/
lemma returnFrame_local (hs : s.frames = lower ++ [c] ++ [f]) (h : returnFrame s data = .ok s') :
    Local lower c { s with frames := lower ++ [c] } s' := by
  simp only [returnFrame, hs, getLast?_concat, dropLast_concat] at h
  split at h
  · cases h
  · split at h
    · cases h
    · next value _ =>
      split at h
      · cases h
      · next t ht =>
        let popped : ThreadContext Ty := { s with
          frames := lower ++ [c]
          processingFinalizer := s.processingFinalizer && !f.isFinalizer }
        have hpop : Local lower c { s with frames := lower ++ [c] }
            (popped.truncate f.base.arguments) :=
          Local.intro rfl (SameFrame.refl c) ⟨rfl, rfl, rfl, rfl⟩
        exact hpop.step fun c₁ _ h₁ =>
          (pushOption_local h₁ value).step fun c₂ _ h₂ =>
            (completeConstructor_local h₂ ht).step fun c₃ _ h₃ => applyReturnAction_local h₃ h

lemma pushOption_frames_nil (hs : s.frames = []) (v : Option StackValue) :
    (pushOption s v).frames = [] := by
  cases v with
  | none => exact hs
  | some v => rw [pushOption, push_nil hs]; exact hs

lemma returnFrame_last (hs : s.frames = [f])
    (h : returnFrame s data = .ok s') : s'.frames = [] := by
  simp only [returnFrame, hs, getLast?_singleton] at h
  split at h
  · cases h
  · split at h
    · cases h
    · next value _ =>
      split at h
      · cases h
      · next t ht =>
        have hpush := pushOption_frames_nil (s := ({ s with
          frames := []
          processingFinalizer := s.processingFinalizer && !f.isFinalizer }.truncate
            f.base.arguments)) rfl value
        have hdone : t.frames = [] := by
          cases hslot : f.constructorResult with
          | none =>
            rw [hslot] at ht
            obtain rfl := Except.ok.inj ht
            exact hpush
          | some slot =>
            rw [hslot] at ht
            obtain ⟨_, rfl⟩ := setSlot_eq ht
            exact hpush
        simp only [applyReturnAction, hdone] at h
        obtain rfl := Except.ok.inj h
        rfl

def advancesCaller (f c : StackFrame Ty) : Bool :=
  !(f.info.isCctor || f.isFinalizer) && c.multicastState.isNone

/-- The instruction a caller continues at. -/
def returnIp (f c : StackFrame Ty) : Nat := if advancesCaller f c then c.ip + 1 else c.ip

lemma branch_concat (hs : s.frames = init ++ [f]) (ip : Nat) :
    branch s ip = { s with frames := init ++ [{ f with ip := ip }] } := by
  simp [branch, hs]

lemma Quiet.branch (h : Quiet s s') (ip : Nat) : Quiet s (branch s' ip) :=
  ⟨h.mode, h.unwinds, h.suspendedStack, h.suspendedFrames⟩

lemma SameFrame.atIp (h : SameFrame f g) (ip : Nat) :
    SameFrame { f with ip := ip } { g with ip := ip } :=
  ⟨h.base, rfl, h.info, h.exceptionStack, h.isFinalizer, h.multicastState, h.constructorResult⟩

lemma handleReturn_concat (hs : s.frames = lower ++ [c] ++ [f])
    (hnext : advancesCaller f c → c.ip + 1 < c.info.instructions.length)
    (h : handleReturn s data = .ok s') :
    ∃ t c', returnFrame s data = .ok t ∧ t.frames = lower ++ [c'] ∧ SameFrame c c' ∧ Quiet s t ∧
      s' = { t with frames := lower ++ [{ c' with ip := returnIp f c }] } := by
  simp only [handleReturn, hs, length_append, length_singleton, handleReturnFrames,
    getLast?_concat] at h
  split at h
  · cases h
  · next t ht =>
    obtain ⟨hq, c', hsm, hfs⟩ := returnFrame_local hs ht
    refine ⟨t, c', ht, hfs, hsm,
      ⟨hq.mode, hq.unwinds, hq.suspendedStack, hq.suspendedFrames⟩, ?_⟩
    simp only [hfs, getLast?_concat] at h
    by_cases hadv : advancesCaller f c = true
    · have hcond := hadv
      simp only [advancesCaller, Bool.and_eq_true, Bool.not_eq_true', isNone_iff_eq_none]
        at hcond
      have hmc : c'.multicastState = none := hsm.multicastState.trans hcond.2
      have hlt := hnext hadv
      rw [if_neg (by simp [hcond.1]), if_neg (by simp [hmc]),
        if_neg (by rw [hsm.info, hsm.ip]; omega)] at h
      obtain rfl := Except.ok.inj h
      rw [branch_concat hfs, returnIp, if_pos hadv, hsm.ip]
    · have hstay : s' = t := by
        by_cases hauto : (f.info.isCctor || f.isFinalizer) = true
        · rw [if_pos hauto] at h
          exact (Except.ok.inj h).symm
        · have hmc : c.multicastState.isSome = true := by
            simpa [advancesCaller, hauto, isSome_iff_ne_none] using hadv
          rw [if_neg hauto, if_pos (by rw [hsm.multicastState]; exact hmc)] at h
          exact (Except.ok.inj h).symm
      rw [hstay, returnIp, if_neg hadv, ← hsm.ip, ← hfs]

lemma handleReturn_induct {P : ThreadContext Ty → Prop}
    (hret : ∀ w t lower c f, w = s ∨ P w → w.frames = lower ++ [c] ++ [f] →
      returnFrame w data = .ok t → P t)
    (hbranch : ∀ t ip, P t → P (branch t ip)) (h : handleReturn s data = .ok s') : P s' := by
  suffices hgen : ∀ fuel (w : ThreadContext Ty), w = s ∨ P w →
      handleReturnFrames data fuel w = .ok s' → P s' from hgen _ s (.inl rfl) h
  intro fuel
  induction fuel with
  | zero => intro w _ h; cases h
  | succ fuel ih =>
    intro w hP h
    rcases eq_nil_or_concat' w.frames with hs | ⟨init, f, hs⟩
    · simp [handleReturnFrames, hs] at h
    · simp only [handleReturnFrames, hs, getLast?_concat] at h
      split at h
      · cases h
      · next t ht =>
        rcases eq_nil_or_concat' init with rfl | ⟨lower, c, rfl⟩
        · simp [returnFrame_last (by simpa using hs) ht] at h
        · have hPt := hret w t lower c f hP hs ht
          obtain ⟨_, c', _, hfs⟩ := returnFrame_local hs ht
          simp only [hfs, getLast?_concat] at h
          split at h
          · obtain rfl := Except.ok.inj h
            exact hPt
          · split at h
            · obtain rfl := Except.ok.inj h
              exact hPt
            · split at h
              · exact ih _ (.inr (hbranch t _ hPt)) h
              · obtain rfl := Except.ok.inj h
                exact hbranch t _ hPt

/-- Returns never touch the exception machinery. -/
lemma handleReturn_quiet (h : handleReturn s data = .ok s') : Quiet s s' := by
  refine handleReturn_induct ?_ (fun t ip hq => hq.branch ip) h
  intro w t lower c f hw hs ht
  obtain ⟨hq, _⟩ := returnFrame_local hs ht
  have hqt : Quiet w t := ⟨hq.mode, hq.unwinds, hq.suspendedStack, hq.suspendedFrames⟩
  rcases hw with rfl | hw
  · exact hqt
  · exact hw.trans hqt

lemma handleReturn_caller (hs : s.frames = init ++ [f])
    (h : handleReturn s data = .ok s') : ∃ lower c, init = lower ++ [c] := by
  rcases eq_nil_or_concat' init with rfl | ⟨lower, c, hinit⟩
  · simp only [handleReturn, hs, nil_append, length_singleton, handleReturnFrames,
      getLast?_singleton] at h
    split at h
    · cases h
    · next t ht =>
      rw [returnFrame_last (by simpa using hs) ht] at h
      simp at h
  · exact ⟨lower, c, hinit⟩

/-- A return from the current frame finds a next instruction in the caller. -/
def ReturnsToCode (s : ThreadContext Ty) : Prop :=
  match s.frames.reverse with
  | f :: c :: _ => advancesCaller f c = true → c.ip + 1 < c.info.instructions.length
  | _ => True

instance (s : ThreadContext Ty) : Decidable (ReturnsToCode s) := by
  unfold ReturnsToCode
  split <;> infer_instance

lemma returnsToCode_iff (hs : s.frames = lower ++ [c] ++ [f]) : ReturnsToCode s ↔
      (advancesCaller f c = true → c.ip + 1 < c.info.instructions.length) := by
  simp [ReturnsToCode, hs]

lemma handleReturn_pops (hs : s.frames = init ++ [f])
    (hret : ReturnsToCode s) (h : handleReturn s data = .ok s') :
    Quiet s s' ∧ s'.frames.length = init.length := by
  obtain ⟨lower, c, rfl⟩ := handleReturn_caller hs h
  obtain ⟨t, c', _, _, _, hq, rfl⟩ := handleReturn_concat hs ((returnsToCode_iff hs).mp hret) h
  exact ⟨⟨hq.mode, hq.unwinds, hq.suspendedStack, hq.suspendedFrames⟩, by simp⟩

end DotnetVm
