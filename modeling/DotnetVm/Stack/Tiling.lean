import DotnetVm.Stack.Effects
import DotnetVm.Lib.Tiling

/-!
# The frames tile the evaluation stack

A frame owns the slots from its arguments to the end of its operands; its
callee's arguments begin where these end. The operations of the current frame
keep this tiling, and they leave the slots below the frame alone.
-/

namespace DotnetVm

open List Tiling

variable {Ty : Type} {s s' t : ThreadContext Ty} {f g : StackFrame Ty}
  {init : List (StackFrame Ty)}

/-- Where the slots of a frame end. -/
def StackFrame.top (f : StackFrame Ty) : Nat := f.base.stack + f.stackHeight

/-- What a frame leaves for its callee: where its own operands begin and where they end. -/
def StackFrame.boundary (f : StackFrame Ty) : Nat × Nat := (f.base.stack, f.top)

/-- A frame begins where its caller's operands end, with its variables below its operands; the slot
of a value under construction is one of the caller's operands. -/
structure FrameFits (p : Nat × Nat) (f : StackFrame Ty) : Prop where
  arguments : f.base.arguments = p.2
  locals : f.base.arguments ≤ f.base.locals
  stack : f.base.locals ≤ f.base.stack
  result : ∀ slot ∈ f.constructorResult, p.1 ≤ slot

lemma FrameFits.of_eq {p : Nat × Nat} (h : FrameFits p f) (hbase : g.base = f.base)
    (hres : g.constructorResult = f.constructorResult) : FrameFits p g where
  arguments := by rw [hbase]; exact h.arguments
  locals := by rw [hbase]; exact h.locals
  stack := by rw [hbase]; exact h.stack
  result := by rw [hres]; exact h.result

section

variable (p : Nat × Nat) (frames : List (StackFrame Ty))

/-- The frames are laid end to end. -/
abbrev FramesTile : Prop :=
  Tiles FrameFits StackFrame.boundary p frames

/-- The boundary above a list of frames. -/
abbrev frameEnd : Nat × Nat :=
  endOf StackFrame.boundary p frames

end

/-- The frames tile the evaluation stack. -/
structure Tiled (s : ThreadContext Ty) : Prop where
  frames : FramesTile (0, 0) s.frames
  length : (frameEnd (0, 0) s.frames).2 = s.stack.length

lemma tiled_concat (hs : s.frames = init ++ [f]) : Tiled s ↔
    FramesTile (0, 0) init ∧ FrameFits (frameEnd (0, 0) init) f ∧ f.top = s.stack.length := by
  constructor
  · rintro ⟨hfs, hlen⟩
    rw [hs] at hfs hlen
    simp only [tiles_append, tiles_cons, tiles_nil, and_true] at hfs
    exact ⟨hfs.1, hfs.2, by simpa [StackFrame.boundary] using hlen⟩
  · rintro ⟨hinit, hf, htop⟩
    refine ⟨?_, ?_⟩
    · rw [hs]
      simp only [tiles_append, tiles_cons, tiles_nil, and_true]
      exact ⟨hinit, hf⟩
    · rw [hs]
      simpa [StackFrame.boundary] using htop

lemma Tiled.of_concat (hs : s.frames = init ++ [f]) (hinit : FramesTile (0, 0) init)
    (hf : FrameFits (frameEnd (0, 0) init) f) (htop : f.top = s.stack.length) : Tiled s :=
  (tiled_concat hs).mpr ⟨hinit, hf, htop⟩

lemma Tiled.base_le (ht : Tiled s) (hs : s.frames = init ++ [f]) :
    f.base.arguments ≤ f.base.stack ∧ f.base.stack ≤ s.stack.length := by
  obtain ⟨_, hf, htop⟩ := (tiled_concat hs).mp ht
  have hl := hf.locals
  have hst := hf.stack
  unfold StackFrame.top at htop
  omega

/-- The slots below `n` are the same. -/
def Below (n : Nat) (s s' : ThreadContext Ty) : Prop := s'.stack.take n = s.stack.take n

lemma Below.refl (n : Nat) (s : ThreadContext Ty) : Below n s s := rfl

lemma Below.trans {n : Nat} (h₁ : Below n s s') (h₂ : Below n s' t) : Below n s t :=
  Eq.trans h₂ h₁

lemma Below.mono {m n : Nat} (h : Below n s s') (hle : m ≤ n) : Below m s s' := by
  have hcut := congrArg (List.take m) h
  rwa [take_take, take_take, min_eq_left hle] at hcut

structure Kept (init : List (StackFrame Ty)) (f : StackFrame Ty) (s s' : ThreadContext Ty)
    (g : StackFrame Ty) : Prop where
  frames : s'.frames = init ++ [g]
  same : SameFrame f g
  tiled : Tiled s'
  below : Below f.base.arguments s s'

lemma Kept.refl (ht : Tiled s) (hs : s.frames = init ++ [f]) : Kept init f s s f :=
  ⟨hs, SameFrame.refl f, ht, Below.refl _ s⟩

lemma Kept.trans {h : StackFrame Ty} (h₁ : Kept init f s s' g) (h₂ : Kept init g s' t h) :
    Kept init f s t h where
  frames := h₂.frames
  same := h₁.same.trans h₂.same
  tiled := h₂.tiled
  below := h₁.below.trans (by rw [← h₁.same.base]; exact h₂.below)

variable {info : MethodInfo Ty} {result : Option Nat}

variable {args : List StackValue}

section

variable (ht : Tiled s) (hs : s.frames = init ++ [f])
include ht hs

lemma pushAll_kept (vs : List StackValue) :
    Kept init f s (pushAll s vs) { f with stackHeight := f.stackHeight + vs.length } := by
  obtain ⟨hinit, hf, htop⟩ := (tiled_concat hs).mp ht
  have hbase := ht.base_le hs
  rw [pushAll_concat hs]
  refine ⟨rfl, ⟨rfl, rfl, rfl, rfl, rfl, rfl, rfl⟩, Tiled.of_concat rfl hinit ?_ ?_, ?_⟩
  · exact hf.of_eq rfl rfl
  · unfold StackFrame.top at htop ⊢
    simp only [length_append]
    omega
  · unfold Below
    rw [take_append_of_le_length (by omega)]

lemma push_kept (v : StackValue) :
    Kept init f s (s.push v) { f with stackHeight := f.stackHeight + 1 } :=
  pushAll_kept ht hs [v]

lemma popSafe_kept {v : StackValue} (h : s.popSafe = .ok (v, s')) :
    ∃ height, f.stackHeight = height + 1 ∧ s.stack = s'.stack ++ [v] ∧
      Kept init f s s' { f with stackHeight := height } := by
  obtain ⟨height, st, hht, hst, rfl⟩ := popSafe_concat hs h
  obtain ⟨hinit, hf, htop⟩ := (tiled_concat hs).mp ht
  have hbase := ht.base_le hs
  have hlen : st.length + 1 = s.stack.length := by simp [hst]
  refine ⟨height, hht, hst, rfl, ⟨rfl, rfl, rfl, rfl, rfl, rfl, rfl⟩,
    Tiled.of_concat rfl hinit (hf.of_eq rfl rfl) ?_, ?_⟩
  · unfold StackFrame.top at htop ⊢
    simp only
    omega
  · unfold Below StackFrame.top at *
    rw [hst, take_append_of_le_length (by omega)]

/-- Writing a slot of the current frame. -/
lemma setSlot_kept {i : Nat} {v : StackValue} (hi : f.base.arguments ≤ i)
    (h : s.setSlot i v = .ok s') : Kept init f s s' f := by
  obtain ⟨_, rfl⟩ := setSlot_eq h
  obtain ⟨hinit, hf, htop⟩ := (tiled_concat hs).mp ht
  refine ⟨hs, SameFrame.refl f, Tiled.of_concat hs hinit hf (by simpa using htop), ?_⟩
  exact take_set_of_le hi

lemma applyOp_kept {op : StackOp} (h : applyOp s op = .ok s') : ∃ g, Kept init f s s' g := by
  cases op with
  | push v =>
    obtain rfl := Except.ok.inj h
    exact ⟨_, push_kept ht hs v⟩
  | pop =>
    simp only [applyOp] at h
    split at h
    · cases h
    · next v t hp =>
      obtain rfl := Except.ok.inj h
      obtain ⟨height, _, _, hkept⟩ := popSafe_kept ht hs hp
      exact ⟨_, hkept⟩
  | setLocal index v =>
    simp only [applyOp, hs, getLast?_concat] at h
    have hlocals := ((tiled_concat hs).mp ht).2.1.locals
    exact ⟨f, setSlot_kept ht hs (by omega) h⟩
  | setArgument index v =>
    simp only [applyOp, hs, getLast?_concat] at h
    exact ⟨f, setSlot_kept ht hs (by omega) h⟩
  | setReturnAction action =>
    simp only [applyOp, hs, modifyCurrent_concat, Except.ok.injEq] at h
    subst h
    obtain ⟨hinit, hf, htop⟩ := (tiled_concat hs).mp ht
    exact ⟨{ f with frameContinuation := some action }, rfl, ⟨rfl, rfl, rfl, rfl, rfl, rfl, rfl⟩,
      Tiled.of_concat rfl hinit (hf.of_eq rfl rfl) htop, rfl⟩

lemma applyOps_kept {ops : List StackOp} (h : applyOps s ops = .ok s') :
    ∃ g, Kept init f s s' g := by
  induction ops generalizing s f with
  | nil =>
    obtain rfl := Except.ok.inj h
    exact ⟨f, Kept.refl ht hs⟩
  | cons op ops ih =>
    simp only [applyOps] at h
    split at h
    · cases h
    · next t hop =>
      obtain ⟨g, hg⟩ := applyOp_kept ht hs hop
      obtain ⟨k, hk⟩ := ih hg.tiled hg.frames h
      exact ⟨k, hg.trans hk⟩

lemma callWith_tiled {multicast : Option MulticastState}
    (hres : ∀ slot ∈ result, f.base.stack ≤ slot)
    (h : callWith s info multicast result = .ok s') : Tiled s' ∧ Below f.base.arguments s s' := by
  obtain ⟨hargs, gs, st, rfl, hgs, hst, hbel⟩ := callWith_eq h
  rw [hs] at hgs
  obtain ⟨hle, rfl⟩ := hgs.concat
  obtain ⟨hinit, hf, htop⟩ := (tiled_concat hs).mp ht
  have hbase := ht.base_le hs
  unfold StackFrame.top at htop
  refine ⟨Tiled.of_concat rfl ?_ ?_ ?_, hbel _ (by omega)⟩
  · simp only [tiles_append, tiles_cons, tiles_nil, and_true]
    exact ⟨hinit, hf.of_eq rfl rfl⟩
  · simp only [endOf_append, endOf_cons, endOf_nil, StackFrame.boundary, StackFrame.top,
      preparedFrame, calleeFrame, StackFrame.new]
    refine ⟨?_, ?_, ?_, hres⟩
    · simp only
      omega
    · simp only
      omega
    · simp only
      omega
  · simpa [StackFrame.top, preparedFrame, calleeFrame, StackFrame.new] using hst.symm

lemma callFrame_tiled (h : callFrame s info = .ok s') : Tiled s' ∧ Below f.base.arguments s s' := by
  have hwith : callWith s info none none = .ok s' := by
    obtain ⟨_, gs, st, rfl, _⟩ := callFrame_eq h
    simp [callWith, h, calleeFrame, StackFrame.new]
  exact callWith_tiled ht hs (by simp) hwith

lemma constructorFrame_tiled {pointer : StackValue}
    (h : constructorFrame s info pointer args = .ok s') :
    Tiled s' ∧ Below f.base.arguments s s' := by
  unfold constructorFrame at h
  split at h
  · have hpush := pushAll_kept ht hs (.objectRef none :: pointer :: args)
    have hbase := ht.base_le hs
    obtain ⟨htil, hbel⟩ := callWith_tiled hpush.tiled hpush.frames
      (by simpa using hbase.2) h
    exact ⟨htil, hpush.below.trans hbel⟩
  · cases h

lemma tiled_popped (hfs : t.frames = init) (hstk : t.stack = s.stack.take f.base.arguments) :
    Tiled t := by
  obtain ⟨hinit, hf, _⟩ := (tiled_concat hs).mp ht
  have hbase := ht.base_le hs
  refine ⟨by rw [hfs]; exact hinit, ?_⟩
  rw [hfs, hstk, length_take, ← hf.arguments]
  omega

lemma replaceFrame_tiled (hargs : args.length = info.argumentCount)
    (hres : result = none ∨ result = f.constructorResult)
    (h : replaceFrame s f info args result = .ok s') : Tiled s' ∧ Below f.base.arguments s s' := by
  obtain ⟨_, hf, _⟩ := (tiled_concat hs).mp ht
  have hbase := ht.base_le hs
  have hslot : ∀ slot ∈ result, (frameEnd (0, 0) init).1 ≤ slot := by
    rcases hres with rfl | rfl
    · simp
    · exact hf.result
  unfold replaceFrame at h
  generalize hp : ({ s with frames := s.frames.dropLast }.truncate f.base.arguments) = popped at h
  have hfs : popped.frames = init := by rw [← hp]; simp [ThreadContext.truncate, hs]
  have hstk : popped.stack = s.stack.take f.base.arguments := by rw [← hp]; rfl
  have hpop : Tiled popped := tiled_popped ht hs hfs hstk
  have hbel : Below f.base.arguments s popped := by
    unfold Below
    rw [hstk, take_take, Nat.min_self]
  rcases eq_nil_or_concat' init with rfl | ⟨lower, c, rfl⟩
  · obtain ⟨_, gs, st, rfl, hgs, hst, htake⟩ := callWith_eq h
    rw [pushAll_nil hfs] at hgs hst htake ⊢
    rw [hfs] at hgs
    obtain rfl := hgs.nil
    have harg : f.base.arguments = 0 := hf.arguments
    have hlen : popped.stack.length = 0 := by rw [hstk, harg]; simp
    refine ⟨Tiled.of_concat rfl tiles_nil ?_ ?_, ?_⟩
    · simp only [endOf_nil, preparedFrame, calleeFrame, StackFrame.new,
        length_append]
      refine ⟨?_, ?_, ?_, by simp⟩
      · simp only
        omega
      · simp only
        omega
      · simp only
        omega
    · simpa [StackFrame.top, preparedFrame, calleeFrame, StackFrame.new] using hst.symm
    · rw [harg]
      simp [Below]
  · have hpush := pushAll_kept hpop hfs args
    obtain ⟨htil, _⟩ := callWith_tiled hpush.tiled hpush.frames
      (by simpa [StackFrame.boundary] using hslot) h
    refine ⟨htil, hbel.trans ?_⟩
    -- the callee's arguments begin at the boundary the discarded frame began at
    obtain ⟨_, gs, st, rfl, _, _, htake⟩ := callWith_eq h
    have hlen : popped.stack.length = f.base.arguments := by
      rw [hstk, length_take]
      omega
    rw [pushAll_concat hfs] at htake
    unfold Below
    have hcut := htake f.base.arguments (by simp only [length_append]; omega)
    rw [hcut, take_append_of_le_length (by omega)]

end

def pushCount (ops : List StackOp) : Nat := ops.countP fun
  | .push _ => true
  | _ => false

def popCount (ops : List StackOp) : Nat := ops.countP fun
  | .pop => true
  | _ => false

lemma applyOps_length {ops : List StackOp} (ht : Tiled s) (hs : s.frames = init ++ [f])
    (h : applyOps s ops = .ok s') :
    s'.stack.length + popCount ops = s.stack.length + pushCount ops := by
  induction ops generalizing s f with
  | nil =>
    obtain rfl := Except.ok.inj h
    rfl
  | cons op ops ih =>
    simp only [applyOps] at h
    split at h
    · cases h
    · next t hop =>
      obtain ⟨g, hg⟩ := applyOp_kept ht hs hop
      have hrest := ih hg.tiled hg.frames h
      unfold popCount pushCount at *
      cases op with
      | push v =>
        obtain rfl := Except.ok.inj hop
        have hlen : (s.push v).stack.length = s.stack.length + 1 := by simp [ThreadContext.push]
        simp only [countP_cons]
        simp only [reduceIte, Bool.false_eq_true]
        omega
      | pop =>
        simp only [applyOp] at hop
        split at hop
        · cases hop
        · next v w hw =>
          obtain rfl := Except.ok.inj hop
          obtain ⟨_, _, hst, _⟩ := popSafe_kept ht hs hw
          have hlen : s.stack.length = w.stack.length + 1 := by simp [hst]
          simp only [countP_cons]
          simp only [reduceIte, Bool.false_eq_true]
          omega
      | setLocal _ _ | setArgument _ _ =>
        simp only [applyOp, hs, getLast?_concat] at hop
        obtain ⟨_, rfl⟩ := setSlot_eq hop
        simpa [countP_cons] using hrest
      | setReturnAction action =>
        obtain rfl := Except.ok.inj hop
        simpa [countP_cons] using hrest

lemma yieldAndRetry_tiled (ht : Tiled t) (hs : t.frames = init ++ [g])
    (hbase : g.base.stack ≤ t.originalStackHeight) (hle : t.originalStackHeight ≤ t.stack.length) :
    Tiled (yieldAndRetry t) ∧ Below g.base.arguments t (yieldAndRetry t) := by
  obtain ⟨hinit, hf, _⟩ := (tiled_concat hs).mp ht
  have hargs := ht.base_le hs
  have hstk : (yieldAndRetry t).stack = t.stack.take t.originalStackHeight := rfl
  constructor
  · refine Tiled.of_concat (yieldAndRetry_concat hs).2 hinit (hf.of_eq rfl rfl) ?_
    rw [hstk, length_take]
    simp only [StackFrame.top]
    omega
  · unfold Below
    rw [hstk, take_take, min_eq_left (by omega)]

variable {data : ReturnData}

variable (ht : Tiled s)
include ht

section

variable (hs : s.frames = init ++ [f])
include hs

lemma pushOption_kept (v : Option StackValue) : ∃ g, Kept init f s (pushOption s v) g := by
  cases v with
  | none => exact ⟨f, Kept.refl ht hs⟩
  | some v => exact ⟨_, push_kept ht hs v⟩

lemma completeConstructor_kept {slot : Option Nat} (hslot : ∀ i ∈ slot, f.base.arguments ≤ i)
    (h : completeConstructor s slot data = .ok s') : Kept init f s s' f := by
  cases slot with
  | none =>
    obtain rfl := Except.ok.inj h
    exact Kept.refl ht hs
  | some i => exact setSlot_kept ht hs (hslot i rfl) h

lemma applyReturnAction_kept (h : applyReturnAction s data = .ok s') : ∃ g, Kept init f s s' g := by
  obtain ⟨hinit, hf, htop⟩ := (tiled_concat hs).mp ht
  have hmod : modifyCurrent s.frames (fun f => { f with frameContinuation := none }) =
      init ++ [{ f with frameContinuation := none }] := by rw [hs, modifyCurrent_concat]
  have htaken : Kept init f s
      { s with frames := modifyCurrent s.frames fun f => { f with frameContinuation := none } }
      { f with frameContinuation := none } :=
    ⟨hmod, ⟨rfl, rfl, rfl, rfl, rfl, rfl, rfl⟩,
      Tiled.of_concat hmod hinit (hf.of_eq rfl rfl) htop, rfl⟩
  simp only [applyReturnAction] at h
  split at h
  · obtain rfl := Except.ok.inj h
    exact ⟨_, htaken⟩
  · obtain rfl := Except.ok.inj h
    exact ⟨_, htaken.trans (push_kept htaken.tiled htaken.frames _)⟩
  · split at h
    · cases h
    · next v t hp =>
      obtain rfl := Except.ok.inj h
      obtain ⟨height, _, _, hpop⟩ := popSafe_kept htaken.tiled htaken.frames hp
      exact ⟨_, (htaken.trans hpop).trans (push_kept hpop.tiled hpop.frames _)⟩

lemma returnValue_eq {v : Option StackValue} (h : returnValue s f = .ok v) :
    v = if f.info.returnType = .void then none else s.stack.getLast? := by
  have htop := ((tiled_concat hs).mp ht).2.2
  unfold StackFrame.top at htop
  unfold returnValue at h
  split at h
  · next hvoid =>
    rw [if_pos hvoid]
    exact (Except.ok.inj h).symm
  · next hvoid =>
    rw [if_neg hvoid]
    split at h
    · cases h
    · next slot hslot =>
      have hlast : s.stack.getLast? = s.stack[slot]? := by
        rw [getLast?_eq_getElem?]
        congr 1
        omega
      rw [hlast]
      split at h
      · cases h
      · next w hw => rw [hw]; exact (Except.ok.inj h).symm

end

omit ht in
lemma applyReturnAction_stack {value : Option StackValue}
    (hs : s.frames = init ++ [f]) (hno : f.frameContinuation = none)
    (h : applyReturnAction (pushOption s value) data = .ok s') :
    s'.stack = s.stack ++ value.toList := by
  have hpush : ∃ g, (pushOption s value).frames = init ++ [g] ∧ g.frameContinuation = none ∧
      (pushOption s value).stack = s.stack ++ value.toList := by
    cases value with
    | none => exact ⟨f, hs, hno, by simp [pushOption]⟩
    | some v =>
      rw [pushOption, push_concat hs]
      exact ⟨_, rfl, hno, rfl⟩
  obtain ⟨g, hfs, hcont, hstk⟩ := hpush
  simp only [applyReturnAction, hfs, getLast?_concat, Option.bind_some, hcont,
    Except.ok.injEq] at h
  rw [← h]
  exact hstk

lemma returnFrame_kept {lower : List (StackFrame Ty)} {c : StackFrame Ty}
    (hs : s.frames = lower ++ [c] ++ [f]) (h : returnFrame s data = .ok s') :
    Tiled s' ∧ Below c.base.arguments s s' ∧
      (f.constructorResult = none → c.frameContinuation = none → s'.stack = s.stack.take c.top ++
        (if f.info.returnType = .void then none else s.stack.getLast?).toList) := by
  have hfit := ((tiled_concat hs).mp ht).2.1
  have hargs : f.base.arguments = c.top := by
    simpa [StackFrame.boundary] using hfit.arguments
  simp only [returnFrame, hs, getLast?_concat, dropLast_concat] at h
  split at h
  · cases h
  · split at h
    · cases h
    · next value hval =>
      split at h
      · cases h
      · next t hcomp =>
        generalize hp : (ThreadContext.truncate { s with
          frames := lower ++ [c]
          processingFinalizer := s.processingFinalizer && !f.isFinalizer }
          f.base.arguments) = popped at hcomp
        have hfs : popped.frames = lower ++ [c] := by rw [← hp]; rfl
        have hstk : popped.stack = s.stack.take f.base.arguments := by rw [← hp]; rfl
        have hpop : Tiled popped := tiled_popped ht hs hfs hstk
        have hcbase := hpop.base_le hfs
        have hbel : Below c.base.arguments s popped := by
          have hle : c.base.arguments ≤ f.base.arguments := by
            rw [hstk, length_take] at hcbase
            omega
          unfold Below
          rw [hstk, take_take, min_eq_left hle]
        obtain ⟨c₁, h₁⟩ := pushOption_kept hpop hfs value
        have hslot : ∀ i ∈ f.constructorResult, c₁.base.arguments ≤ i := by
          intro i hi
          have hclr := hfit.result i hi
          simp only [endOf_append, endOf_cons, endOf_nil, StackFrame.boundary]
            at hclr
          rw [h₁.same.base]
          omega
        have h₂ := completeConstructor_kept h₁.tiled h₁.frames hslot hcomp
        obtain ⟨c₂, h₃⟩ := applyReturnAction_kept h₂.tiled h₂.frames h
        refine ⟨h₃.tiled, hbel.trans ((h₁.trans h₂).trans h₃).below, fun hno hcont => ?_⟩
        rw [hno] at hcomp
        obtain rfl := Except.ok.inj hcomp
        rw [← returnValue_eq ht hs hval, ← hargs, ← hstk]
        exact applyReturnAction_stack hfs hcont h

lemma Tiled.congr (hfs : s'.frames = s.frames) (hstk : s'.stack = s.stack) :
    Tiled s' := ⟨by rw [hfs]; exact ht.frames, by rw [hfs, hstk]; exact ht.length⟩

lemma Tiled.current (hs : s.frames = init ++ [f]) (hs' : s'.frames = init ++ [g])
    (hstk : s'.stack = s.stack) (hbase : g.base = f.base)
    (hres : g.constructorResult = f.constructorResult) (hht : g.stackHeight = f.stackHeight) :
    Tiled s' := by
  obtain ⟨hinit, hf, htop⟩ := (tiled_concat hs).mp ht
  refine Tiled.of_concat hs' hinit (hf.of_eq hbase hres) ?_
  unfold StackFrame.top at htop ⊢
  rw [hbase, hht, hstk]
  exact htop

lemma branch_tiled (ip : Nat) : Tiled (branch s ip) := by
  rcases eq_nil_or_concat' s.frames with hs | ⟨init, f, hs⟩
  · exact ht.congr (by simp [branch, hs]) rfl
  · have hs' : (branch s ip).frames = init ++ [{ f with ip := ip }] := by rw [branch_concat hs]
    exact ht.current hs hs' rfl rfl rfl rfl

lemma dispatchTail_tiled (hs : s.frames = init ++ [f]) (h : dispatchTail s info = .ok s') :
    Tiled s' ∧ Below f.base.arguments s s' := by
  simp only [dispatchTail, hs, getLast?_concat] at h
  split at h
  · split at h
    · cases h
    · next hlen =>
      refine replaceFrame_tiled ht hs ?_ (.inl rfl) h
      simp only [length_take, length_drop]
      omega
  · exact callFrame_tiled ht hs h

lemma dispatchJmp_tiled (hs : s.frames = init ++ [f]) (h : dispatchJmp s info args = .ok s') :
    Tiled s' ∧ Below f.base.arguments s s' := by
  simp only [dispatchJmp, hs, getLast?_concat] at h
  split at h
  · cases h
  · split at h
    · cases h
    · split at h
      · cases h
      · next hargs => exact replaceFrame_tiled ht hs (not_not.mp hargs) (.inr rfl) h

lemma runOp_tiled {frame : StackFrame Ty} {e : Effects Ty} (hs : s.frames = init ++ [f])
    (hretry : e.result = .retry → s.originalStackHeight = s.stack.length ∧
      popCount e.ops ≤ pushCount e.ops) (h : runOp s frame e = .ok s') :
    Tiled s' ∧ Below f.base.arguments s s' := by
  unfold runOp at h
  split at h
  · cases h
  · next t hops =>
    obtain ⟨g, hg⟩ := applyOps_kept ht hs hops
    have hbase : g.base = f.base := hg.same.base
    have done : Tiled s' ∧ Below g.base.arguments t s' → Tiled s' ∧
        Below f.base.arguments s s' := by
      rintro ⟨htil, hbel⟩
      exact ⟨htil, hg.below.trans (hbase ▸ hbel)⟩
    cases hr : e.result with
    | proceed =>
      rw [hr] at h
      simp only [finishOp] at h
      split at h
      · obtain rfl := Except.ok.inj h
        exact ⟨hg.tiled, hg.below⟩
      · obtain rfl := Except.ok.inj h
        exact ⟨branch_tiled hg.tiled _, hg.below⟩
    | jump target =>
      rw [hr] at h
      obtain rfl := Except.ok.inj h
      exact ⟨branch_tiled hg.tiled _, hg.below⟩
    | raise x =>
      rw [hr] at h
      obtain rfl := Except.ok.inj h
      exact ⟨hg.tiled.congr rfl rfl, hg.below⟩
    | spin =>
      rw [hr] at h
      obtain rfl := Except.ok.inj h
      exact ⟨hg.tiled, hg.below⟩
    | retry =>
      rw [hr] at h
      obtain rfl := Except.ok.inj h
      obtain ⟨horig, hcnt⟩ := hretry hr
      have hht := (applyOps_originalIp hs hops).2
      have hlen := applyOps_length ht hs hops
      have hle := ht.base_le hs
      exact done (yieldAndRetry_tiled hg.tiled hg.frames (by rw [hbase]; omega) (by omega))
    | fail err => rw [hr] at h; cases h
    | call info multicast =>
      rw [hr] at h
      exact done (callWith_tiled hg.tiled hg.frames (by simp) h)
    | construct info pointer args =>
      rw [hr] at h
      exact done (constructorFrame_tiled hg.tiled hg.frames h)
    | tailCall info =>
      rw [hr] at h
      exact done (dispatchTail_tiled hg.tiled hg.frames h)
    | jmp info args =>
      rw [hr] at h
      exact done (dispatchJmp_tiled hg.tiled hg.frames h)

lemma handleReturn_tiled (h : handleReturn s data = .ok s') : Tiled s' := by
  refine handleReturn_induct ?_ (fun t ip htil => branch_tiled htil ip) h
  intro w t lower c f hw hs hret
  have htil : Tiled w := by
    rcases hw with rfl | hw
    · exact ht
    · exact hw
  exact (returnFrame_kept htil hs hret).1

lemma interposeFinalizer_tiled {this : Nat} (hs : s.frames = init ++ [f])
    (h : interposeFinalizer s info this = .ok s') : Tiled s' ∧ Below f.base.arguments s s' := by
  unfold interposeFinalizer at h
  split at h
  · obtain rfl := Except.ok.inj h
    exact ⟨ht, Below.refl _ _⟩
  · split at h
    · cases h
    · split at h
      · cases h
      · next t hcall =>
        obtain rfl := Except.ok.inj h
        have hmark : Tiled { s with processingFinalizer := true } := ht.congr rfl rfl
        have hpush := push_kept hmark hs (.objectRef (some this))
        obtain ⟨htil, hbel⟩ := callFrame_tiled hpush.tiled hpush.frames hcall
        obtain ⟨_, f', n, _, _, hfs⟩ := callFrame_called hpush.frames hcall
        have hmod : modifyCurrent t.frames (fun f => { f with isFinalizer := true }) =
            init ++ [f'] ++ [{ n with isFinalizer := true }] := by
          rw [hfs, modifyCurrent_concat]
        have hbel' : Below f.base.arguments s t := hpush.below.trans hbel
        exact ⟨htil.current hfs hmod rfl rfl rfl rfl, hbel'⟩

end DotnetVm
