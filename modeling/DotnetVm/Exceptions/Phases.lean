import DotnetVm.Stack.Effects

/-!
# What a phase of the engine can do

Inversion lemmas for the phases of the exception engine. The walk of an unwind
gets an induction principle of its own: a property of the frames still to be
walked is carried down frame by frame to whatever the walk meets.
-/

namespace DotnetVm

open List ThreadContext

variable {Ty : Type} {host : Host Ty} {s s' t : ThreadContext Ty} {f : StackFrame Ty}
  {init : List (StackFrame Ty)} {sig : Signal} {u : UnwindState} {typeInit : Option ObjectRef}

variable {x : ObjectRef}

/-- In the mode the loop calls it in, `begin_throwing` drops what a filter had suspended and starts
a search that is nested in no filter. -/
lemma beginThrowing_eq {p : Bool} (hm : s.exceptionMode = .throwing x p)
    (h : beginThrowing host s x = .ok (sig, s')) :
    sig = .exception ∧ s' = s.clearSuspended.setMode (.searching
      { exception := x, cursor := .startOf (s.frames.length - 1), nestedFilter := none }) := by
  unfold beginThrowing at h
  split at h
  · cases h
  · split at h
    · cases h
    · split at h
      · cases h
      · simp only [hm, Except.ok.injEq, Prod.mk.injEq] at h
        exact ⟨h.1.symm, h.2.symm⟩

def filterEntered (s : ThreadContext Ty) (x : ObjectRef) (addr : HandlerAddress)
    (clauseOffset : Nat) (low high : List (StackFrame Ty)) (frame : StackFrame Ty) :
    ThreadContext Ty :=
  { s with
    stack := s.stack.take frame.base.stack ++ [.objectRef x]
    suspendedStack := s.stack.drop frame.base.stack
    frames := low ++ [{ frame with
      ip := clauseOffset
      stackHeight := 1
      exceptionStack := x :: frame.exceptionStack }]
    suspendedFrames := high
    exceptionMode := .filtering
      { exception := x
        handler := addr
        originalIp := frame.ip
        originalStackHeight := frame.base.stack + frame.stackHeight }
    originalIp := frame.ip
    originalStackHeight := frame.stackHeight }

variable {addr : HandlerAddress}

lemma enterFilter_eq {clauseOffset : Nat} (h : enterFilter s x addr clauseOffset = .ok (sig, s')) :
    sig = .exception ∧ ∃ low frame high, s.frames = low ++ frame :: high ∧
      low.length = addr.frameIndex ∧ frame.base.stack ≤ s.stack.length ∧
      s' = filterEntered s x addr clauseOffset low high frame := by
  unfold enterFilter at h
  split at h
  · cases h
  · next frame hfr =>
    obtain ⟨low, high, hspl, hlow⟩ := exists_split hfr
    split at h
    · cases h
    · next hlen =>
      simp only [Except.ok.injEq, Prod.mk.injEq] at h
      refine ⟨h.1.symm, low, frame, high, hspl, hlow, by omega, ?_⟩
      have htake : s.frames.take (low.length + 1) = low ++ [frame] := by
        rw [hspl, append_cons]
        exact take_left' (by simp)
      have hdrop : s.frames.drop (low.length + 1) = high := by
        rw [hspl, append_cons]
        exact drop_left' (by simp)
      rw [← h.2]
      simp [ThreadContext.push, modifyFrame, suspendAbove,
        setMode, htake, hdrop, ← hlow, modify_split,
        filterEntered]

lemma searchForHandler_cases {state : SearchState} (hn : state.nestedFilter = none)
    (h : searchForHandler host s state = .ok (sig, s')) :
    sig = .exception ∧ ((∃ addr, searchFrames host s.frames state.exception state.cursor 0
          state.cursor.frameIndex = .ok (some (.accepted addr)) ∧
        s' = s.setMode (.unwinding (unwindToHandler s state.exception addr))) ∨
      (∃ addr clauseOffset, searchFrames host s.frames state.exception state.cursor 0
          state.cursor.frameIndex = .ok (some (.filter addr clauseOffset)) ∧
        ∃ low frame high, s.frames = low ++ frame :: high ∧ low.length = addr.frameIndex ∧
          frame.base.stack ≤ s.stack.length ∧
          s' = filterEntered s state.exception addr clauseOffset low high frame)) := by
  simp only [searchForHandler, stopFrame, hn] at h
  split at h
  · cases h
  · next addr hfnd =>
    simp only [Except.ok.injEq, Prod.mk.injEq] at h
    exact ⟨h.1.symm, .inl ⟨addr, hfnd, h.2.symm⟩⟩
  · next addr clauseOffset hfnd =>
    obtain ⟨hsig, hent⟩ := enterFilter_eq h
    exact ⟨hsig, .inr ⟨addr, clauseOffset, hfnd, hent⟩⟩
  · cases h

variable {n : Nat}

lemma lt_of_searchFrames {frames : List (StackFrame Ty)} {cursor : HandlerAddress}
    {r : Option Candidate} (h : searchFrames host frames x cursor 0 n = .ok r) :
    n < frames.length := by
  by_contra hge
  have hno : frames[n]? = none := getElem?_eq_none (by omega)
  cases n <;> simp [searchFrames, searchFrame, hno] at h

def walkFrame (u : UnwindState) (frameIndex : Nat) (f : StackFrame Ty) :
    List ObjectRef × Option (CleanupEntry Ty) :=
  let start := sectionStart u.cursor frameIndex
  unwindSections u frameIndex f.ip start (f.info.exceptions.drop start) f.exceptionStack

variable {r : Option (CleanupEntry Ty)}

lemma unwindInFrame_concat (hs : s.frames = init ++ [f])
    (h : unwindInFrame u init.length s = .ok (s', r)) :
    r = (walkFrame u init.length f).2 ∧ s' = { s with
      frames := init ++ [{ f with exceptionStack := (walkFrame u init.length f).1 }] } := by
  have hget : s.frames[init.length]? = some f := by rw [hs]; simp
  simp only [unwindInFrame, hget, modifyFrame, Except.ok.injEq, Prod.mk.injEq] at h
  refine ⟨h.2.symm, ?_⟩
  rw [← h.1]
  congr 1
  rw [hs]
  exact modify_split init f [] _

lemma unwindFrame_concat (hs : s.frames = init ++ [f]) (h : unwindFrame s typeInit = .ok s') :
    ∃ mode finalizing, (mode = s.exceptionMode ∨ ∃ x, typeInit = some x ∧ f.info.isCctor = true ∧
        mode = .throwing x false) ∧
      s' = { s with
        frames := init
        stack := s.stack.take f.base.arguments
        exceptionMode := mode
        processingFinalizer := finalizing } := by
  simp only [unwindFrame, hs, getLast?_concat, dropLast_concat, Except.ok.injEq] at h
  refine ⟨_, _, ?_, h.symm⟩
  split
  · next hc =>
    split
    · next x _ => exact .inr ⟨x, rfl, hc, rfl⟩
    · exact .inl rfl
  · exact .inl rfl

variable {o : UnwindOutcome Ty}

lemma unwindFrames_induct {P : Nat → ThreadContext Ty → Prop} {Q : UnwindOutcome Ty → Prop}
    (hent : ∀ n s s' entry, P n s → unwindInFrame u n s = .ok (s', some entry) →
      Q (.entered s' entry))
    (harrived : ∀ n s s', P n s → unwindInFrame u n s = .ok (s', none) → n = u.targetFrame →
      Q (.arrived s'))
    (hpop : ∀ n s s' t, P (n + 1) s → unwindInFrame u (n + 1) s = .ok (s', none) →
      u.targetFrame < n + 1 → unwindFrame s' typeInit = .ok t →
      (∀ x p, t.exceptionMode = .throwing x p → Q (.raised t)) ∧
        ((∀ x p, t.exceptionMode ≠ .throwing x p) → P n t)) (hn : u.targetFrame ≤ n) (hP : P n s)
    (h : unwindFrames u typeInit n s = .ok o) : Q o := by
  induction n generalizing s with
  | zero =>
    simp only [unwindFrames] at h
    split at h
    · cases h
    · next s' entry hin =>
      obtain rfl := Except.ok.inj h
      exact hent 0 s s' entry hP hin
    · next s' hin =>
      obtain rfl := Except.ok.inj h
      exact harrived 0 s s' hP hin (by omega)
  | succ n ih =>
    simp only [unwindFrames] at h
    split at h
    · cases h
    · next s' entry hin =>
      obtain rfl := Except.ok.inj h
      exact hent (n + 1) s s' entry hP hin
    · next s' hin =>
      split at h
      · next hlt =>
        split at h
        · cases h
        · next t ht =>
          obtain ⟨hraised, hnext⟩ := hpop n s s' t hP hin hlt ht
          split at h
          · next x p hmd =>
            obtain rfl := Except.ok.inj h
            exact hraised x p hmd
          · next hmd => exact ih (by omega) (hnext hmd) h
      · next hge =>
        obtain rfl := Except.ok.inj h
        exact harrived (n + 1) s s' hP hin (by omega)

/-- The context a walk ends with. -/
def UnwindOutcome.context : UnwindOutcome Ty → ThreadContext Ty
  | .entered s _ | .raised s | .arrived s => s

/-- The frames are, from the bottom, activations of the methods of `fs`. -/
def MethodsOf (fs gs : List (StackFrame Ty)) : Prop :=
  ∀ (i : Nat) (g : StackFrame Ty), gs[i]? = some g →
    ∃ f : StackFrame Ty, fs[i]? = some f ∧ g.info = f.info

lemma MethodsOf.refl (fs : List (StackFrame Ty)) : MethodsOf fs fs :=
  fun _ g hg => ⟨g, hg, rfl⟩

lemma MethodsOf.trans {fs gs hs : List (StackFrame Ty)} (h₁ : MethodsOf fs gs)
    (h₂ : MethodsOf gs hs) : MethodsOf fs hs := by
  intro i g hg
  obtain ⟨g', hg', hinfo⟩ := h₂ i g hg
  obtain ⟨g'', hg'', hinfo'⟩ := h₁ i g' hg'
  exact ⟨g'', hg'', hinfo.trans hinfo'⟩

lemma methodsOf_modify {g : StackFrame Ty → StackFrame Ty} (hg : ∀ f, (g f).info = f.info)
    (fs : List (StackFrame Ty)) (n : Nat) : MethodsOf fs (fs.modify n g) := by
  intro i f' hf'
  rw [getElem?_modify] at hf'
  cases hf : fs[i]? with
  | none => simp [hf] at hf'
  | some f =>
    refine ⟨f, rfl, ?_⟩
    simp only [hf, Option.map_eq_map, Option.map_some, Option.some.injEq] at hf'
    rw [← hf']
    split
    · exact hg f
    · rfl

lemma methodsOf_dropLast (fs : List (StackFrame Ty)) : MethodsOf fs fs.dropLast := by
  intro i g hg
  rw [getElem?_dropLast] at hg
  split at hg
  · exact ⟨g, hg, rfl⟩
  · cases hg

structure WalkQuiet (s : ThreadContext Ty) (o : UnwindOutcome Ty) : Prop where
  continuation : o.context.continuation = s.continuation
  suspendedStack : o.context.suspendedStack = s.suspendedStack
  suspendedFrames : o.context.suspendedFrames = s.suspendedFrames
  methods : MethodsOf s.frames o.context.frames
  mode : (∀ t, o ≠ .raised t) → o.context.exceptionMode = s.exceptionMode
  raised : ∀ t, o = .raised t → ∃ x p, t.exceptionMode = .throwing x p

lemma unwindInFrame_eq (h : unwindInFrame u n s = .ok (s', r)) :
    ∃ frames, s' = { s with frames := frames } ∧ MethodsOf s.frames frames := by
  unfold unwindInFrame at h
  split at h
  · cases h
  · simp only [Except.ok.injEq, Prod.mk.injEq] at h
    refine ⟨_, h.1.symm, ?_⟩
    apply methodsOf_modify
    intro f
    rfl

lemma unwindFrame_eq (h : unwindFrame s typeInit = .ok s') : ∃ mode finalizing slots,
      (mode = s.exceptionMode ∨ ∃ x, mode = .throwing x false) ∧
      s' = { s with
        frames := s.frames.dropLast
        stack := slots
        exceptionMode := mode
        processingFinalizer := finalizing } := by
  rcases eq_nil_or_concat' s.frames with hs | ⟨init, f, hs⟩
  · simp [unwindFrame, hs] at h
  · obtain ⟨mode, finalizing, hmd, rfl⟩ := unwindFrame_concat hs h
    refine ⟨mode, finalizing, _, ?_, by rw [hs, dropLast_concat]⟩
    rcases hmd with hmd | ⟨x, _, _, hmd⟩
    · exact .inl hmd
    · exact .inr ⟨x, hmd⟩

lemma unwindWalk_quiet (h : unwindWalk u typeInit s = .ok o) : WalkQuiet s o := by
  unfold unwindWalk at h
  split at h
  · obtain rfl := Except.ok.inj h
    exact ⟨rfl, rfl, rfl, MethodsOf.refl _, fun _ => rfl, by simp⟩
  · next hle =>
    refine unwindFrames_induct (P := fun _ t => WalkQuiet s (.arrived t)) ?_ ?_ ?_ (by omega)
      ⟨rfl, rfl, rfl, MethodsOf.refl _, fun _ => rfl, by simp⟩ h
    · intro n t t' entry hq hin
      obtain ⟨frames, rfl, hms⟩ := unwindInFrame_eq hin
      exact ⟨hq.continuation, hq.suspendedStack, hq.suspendedFrames, hq.methods.trans hms,
        fun _ => hq.mode (by simp), by simp⟩
    · intro n t t' hq hin _
      obtain ⟨frames, rfl, hms⟩ := unwindInFrame_eq hin
      exact ⟨hq.continuation, hq.suspendedStack, hq.suspendedFrames, hq.methods.trans hms,
        fun _ => hq.mode (by simp), by simp⟩
    · intro n t t' t'' hq hin _ hpop
      obtain ⟨frames, rfl, hms⟩ := unwindInFrame_eq hin
      obtain ⟨mode, finalizing, slots, hmd, rfl⟩ := unwindFrame_eq hpop
      have hdropped := hq.methods.trans (hms.trans (methodsOf_dropLast frames))
      constructor
      · intro x p hx
        refine ⟨hq.continuation, hq.suspendedStack, hq.suspendedFrames, hdropped,
          fun hnot => absurd rfl (hnot _), fun w heq => ?_⟩
        obtain rfl := UnwindOutcome.raised.inj heq
        exact ⟨x, p, hx⟩
      · intro hnot
        refine ⟨hq.continuation, hq.suspendedStack, hq.suspendedFrames, hdropped, fun _ => ?_,
          by simp⟩
        rcases hmd with hmd | ⟨y, hmd⟩
        · exact hmd.trans (hq.mode (by simp))
        · exact absurd hmd (hnot y false)

lemma resumeAfter_frameIndex (addr : HandlerAddress) (count : Nat) :
    (resumeAfter addr count).frameIndex = addr.frameIndex := by
  unfold resumeAfter
  split <;> rfl

variable {ip : Nat} {ps : List (ProtectedSection Ty)} {es : List ObjectRef}
  {entry : CleanupEntry Ty}

lemma unwindSections_entry {k : Nat} (h : (unwindSections u n ip k ps es).2 = some entry) :
    entry.addr.frameIndex = n ∧ entry.next.frameIndex = n := by
  induction ps generalizing k es with
  | nil => simp [unwindSections] at h
  | cons p ps ih =>
    simp only [unwindSections] at h
    split at h
    · cases h
    · split at h
      · split at h
        · obtain rfl := Option.some.inj h
          exact ⟨rfl, resumeAfter_frameIndex _ _⟩
        · exact ih h
      · exact ih h

variable {x : Option ObjectRef}

lemma unwindInFrame_frames
    (h : unwindInFrame u n s = .ok (s', r)) : s'.frames.length = s.frames.length ∧
      ∀ entry, r = some entry → entry.addr.frameIndex = n ∧ entry.next.frameIndex = n := by
  unfold unwindInFrame at h
  split at h
  · cases h
  · simp only [Except.ok.injEq, Prod.mk.injEq] at h
    refine ⟨by rw [← h.1]; simp [modifyFrame], fun entry hr => ?_⟩
    exact unwindSections_entry (h.2.trans hr)

/-- The frames a walk that starts at the current frame leaves, and the frame of the handler it
entered. -/
structure WalkFrames (u : UnwindState) (s : ThreadContext Ty) (o : UnwindOutcome Ty) : Prop where
  le : o.context.frames.length ≤ s.frames.length
  entered : ∀ t entry, o = .entered t entry → entry.addr.frameIndex + 1 = t.frames.length ∧
      entry.next.frameIndex = entry.addr.frameIndex
  stays : u.targetFrame = u.cursor.frameIndex →
    o.context.frames.length = s.frames.length ∧ ∀ t, o ≠ .raised t

lemma unwindFrame_length (h : unwindFrame s typeInit = .ok s') :
    s'.frames.length + 1 = s.frames.length := by
  rcases eq_nil_or_concat' s.frames with hs | ⟨init, f, hs⟩
  · simp [unwindFrame, hs] at h
  · obtain ⟨mode, finalizing, _, rfl⟩ := unwindFrame_concat hs h
    simp [hs]

lemma unwindWalk_frames (hcur : u.cursor.frameIndex + 1 = s.frames.length)
    (h : unwindWalk u typeInit s = .ok o) : WalkFrames u s o := by
  unfold unwindWalk at h
  split at h
  · obtain rfl := Except.ok.inj h
    exact ⟨le_refl _, by simp, fun _ => ⟨rfl, by simp⟩⟩
  · next hle =>
    refine unwindFrames_induct (P := fun n t => t.frames.length = n + 1 ∧ u.targetFrame ≤ n ∧
      n ≤ u.cursor.frameIndex) ?_ ?_ ?_ (by omega) ⟨hcur.symm, by omega, le_refl _⟩ h
    · intro n t t' entry ⟨hlen, htgt, hn⟩ hin
      obtain ⟨hlen', hent⟩ := unwindInFrame_frames hin
      obtain ⟨haddr, hnext⟩ := hent entry rfl
      refine ⟨by simp only [UnwindOutcome.context]; omega, ?_, fun hloc => ?_⟩
      · intro w en heq
        obtain ⟨rfl, rfl⟩ := UnwindOutcome.entered.inj heq
        omega
      · refine ⟨?_, by simp⟩
        simp only [UnwindOutcome.context]
        omega
    · intro n t t' ⟨hlen, _, hn⟩ hin htgt
      obtain ⟨hlen', _⟩ := unwindInFrame_frames hin
      refine ⟨by simp only [UnwindOutcome.context]; omega, by simp, fun hloc => ⟨?_, by simp⟩⟩
      simp only [UnwindOutcome.context]
      omega
    · intro n t t' t'' ⟨hlen, _, hn⟩ hin hlt hpop
      obtain ⟨hlen', _⟩ := unwindInFrame_frames hin
      have hpopped := unwindFrame_length hpop
      refine ⟨fun x p _ => ⟨?_, by simp, fun hloc => ?_⟩, fun _ => ⟨by omega, by omega, by omega⟩⟩
      · simp only [UnwindOutcome.context]
        omega
      · omega

structure WalkAt (u : UnwindState) (s t : ThreadContext Ty) (init : List (StackFrame Ty))
    (f : StackFrame Ty) (r : Option (CleanupEntry Ty)) : Prop where
  taken : s.frames.take (init.length + 1) = init ++ [f]
  frames : t.frames = init ++ [{ f with exceptionStack := (walkFrame u init.length f).1 }]
  found : (walkFrame u init.length f).2 = r

/-- The frames a walk ends with are the lower ones of those it started with. -/
structure WalkShape (u : UnwindState) (s : ThreadContext Ty) (o : UnwindOutcome Ty) : Prop where
  entered : ∀ t entry, o = .entered t entry →
    ∃ init f, WalkAt u s t init f (some entry) ∧ u.targetFrame ≤ init.length
  arrived : ∀ t, o = .arrived t → ∃ init f, WalkAt u s t init f none ∧ init.length = u.targetFrame
  raised : ∀ t, o = .raised t → ∃ n, t.frames = s.frames.take n

lemma walkAt_of_take (hn : n < s.frames.length)
    (ht : t.frames = s.frames.take (n + 1)) (h : unwindInFrame u n t = .ok (s', r)) :
    ∃ init f, init.length = n ∧ WalkAt u s s' init f r := by
  have hne : s.frames.take (n + 1) ≠ [] := by
    intro hnil
    have hlen := congrArg List.length hnil
    simp only [length_take, length_nil] at hlen
    omega
  obtain ⟨init, f, hspl⟩ := (eq_nil_or_concat' (s.frames.take (n + 1))).resolve_left hne
  have hlen : init.length = n := by
    have hlen := congrArg List.length hspl
    simp only [length_take, length_append, length_singleton] at hlen
    omega
  subst hlen
  obtain ⟨hr, rfl⟩ := unwindInFrame_concat (ht.trans hspl) h
  exact ⟨init, f, rfl, hspl, rfl, hr.symm⟩

/-- A popped frame leaves the frames below it. -/
lemma take_of_unwindFrame (hlen : init.length = n + 1)
    (hat : WalkAt u s t init f r) (h : unwindFrame t typeInit = .ok s') :
    s'.frames = s.frames.take (n + 1) := by
  obtain ⟨mode, finalizing, _, rfl⟩ := unwindFrame_concat hat.frames h
  have hcut := congrArg (List.take (n + 1)) hat.taken
  rw [take_take, min_eq_left (by omega), ← hlen, take_left] at hcut
  rw [← hlen]
  exact hcut.symm

lemma unwindWalk_shape (hcur : u.cursor.frameIndex + 1 = s.frames.length)
    (hle : u.targetFrame ≤ u.cursor.frameIndex) (h : unwindWalk u typeInit s = .ok o) :
    WalkShape u s o := by
  unfold unwindWalk at h
  rw [if_neg (by omega)] at h
  refine unwindFrames_induct (P := fun n t => n < s.frames.length ∧ u.targetFrame ≤ n ∧
    t.frames = s.frames.take (n + 1)) ?_ ?_ ?_ hle
    ⟨by omega, hle, by rw [hcur, take_length]⟩ h
  · rintro n t t' entry ⟨hn, htgt, ht⟩ hin
    obtain ⟨init, f, rfl, hat⟩ := walkAt_of_take hn ht hin
    refine ⟨fun w en heq => ?_, by simp, by simp⟩
    obtain ⟨rfl, rfl⟩ := UnwindOutcome.entered.inj heq
    exact ⟨init, f, hat, htgt⟩
  · rintro n t t' ⟨hn, _, ht⟩ hin htgt
    obtain ⟨init, f, rfl, hat⟩ := walkAt_of_take hn ht hin
    refine ⟨by simp, fun w heq => ?_, by simp⟩
    obtain rfl := UnwindOutcome.arrived.inj heq
    exact ⟨init, f, hat, htgt⟩
  · rintro n t t' t'' ⟨hn, _, ht⟩ hin hlt hpop
    obtain ⟨init, f, hlen, hat⟩ := walkAt_of_take hn ht hin
    have htake := take_of_unwindFrame hlen hat hpop
    refine ⟨fun x p _ => ⟨by simp, by simp, fun w heq => ?_⟩, fun _ => ⟨by omega, by omega, htake⟩⟩
    obtain rfl := UnwindOutcome.raised.inj heq
    exact ⟨_, htake⟩

/-- The outcome of a walk that looks at the current frame `f` only. -/
structure WalkStays (u : UnwindState) (s : ThreadContext Ty) (init : List (StackFrame Ty))
    (f : StackFrame Ty) (o : UnwindOutcome Ty) : Prop where
  context : o.context = { s with
    frames := init ++ [{ f with exceptionStack := (walkFrame u init.length f).1 }] }
  entered : ∀ t entry, o = .entered t entry → (walkFrame u init.length f).2 = some entry
  arrived : ∀ t, o = .arrived t → (walkFrame u init.length f).2 = none
  not_raised : ∀ t, o ≠ .raised t

lemma unwindWalk_stays (hs : s.frames = init ++ [f])
    (hcur : u.cursor.frameIndex = init.length) (ht : u.targetFrame = u.cursor.frameIndex)
    (h : unwindWalk u typeInit s = .ok o) : WalkStays u s init f o := by
  unfold unwindWalk at h
  rw [if_neg (by omega), hcur] at h
  refine unwindFrames_induct (P := fun n t => n = init.length ∧ t = s) ?_ ?_ ?_ (by omega)
    ⟨rfl, rfl⟩ h
  · rintro n t t' entry ⟨rfl, rfl⟩ hin
    obtain ⟨hr, rfl⟩ := unwindInFrame_concat hs hin
    refine ⟨rfl, fun w en heq => ?_, by simp, by simp⟩
    obtain ⟨_, rfl⟩ := UnwindOutcome.entered.inj heq
    exact hr.symm
  · rintro n t t' ⟨rfl, rfl⟩ hin _
    obtain ⟨hr, rfl⟩ := unwindInFrame_concat hs hin
    exact ⟨rfl, by simp, fun _ _ => hr.symm, by simp⟩
  · rintro n t t' t'' ⟨hn, rfl⟩ _ hlt _
    omega

lemma unwindWalk_here (hcur : u.cursor.frameIndex + 1 = s.frames.length)
    (ht : u.targetFrame = u.cursor.frameIndex) (h : unwindWalk u typeInit s = .ok o) :
    ∃ init f, s.frames = init ++ [f] ∧ u.cursor.frameIndex = init.length ∧
      WalkStays u s init f o := by
  rcases eq_nil_or_concat' s.frames with hs | ⟨init, f, hs⟩
  · simp [hs] at hcur
  · have hcur' : u.cursor.frameIndex = init.length := by simpa [hs] using hcur
    exact ⟨init, f, hs, hcur', unwindWalk_stays hs hcur' ht h⟩

lemma unwindWalk_above (hlt : ¬u.targetFrame ≤ u.cursor.frameIndex)
    (h : unwindWalk u typeInit s = .ok o) : o = .arrived s := by
  unfold unwindWalk at h
  rw [if_pos (by omega)] at h
  exact (Except.ok.inj h).symm

/-- A handler above the current frame cannot be entered. -/
lemma target_le_of_enterHandler (hcur : u.cursor.frameIndex + 1 = s.frames.length)
    (hw : unwindWalk u typeInit s = .ok (.arrived t)) (htf : u.targetFrame = addr.frameIndex)
    (h : enterHandler t x addr = .ok (sig, s')) : u.targetFrame ≤ u.cursor.frameIndex := by
  by_contra hle
  obtain rfl := UnwindOutcome.arrived.inj (unwindWalk_above hle hw)
  have hno : t.frames[addr.frameIndex]? = none := getElem?_eq_none (by omega)
  simp [enterHandler, hno] at h

lemma enterCleanup_frames (hs : t.frames = init ++ [f])
    (haddr : entry.addr.frameIndex = init.length) : (enterCleanup u t entry).frames =
      init ++ [{ f with ip := entry.handler.instructions.start, stackHeight := 0 }] := by
  simp only [enterCleanup, modifyFrame, setMode, hs, haddr, modify_split]

/-- The ways an unwind that is nested in no filter goes on. -/
inductive UnwindStep (u : UnwindState) (typeInit : Option ObjectRef) (s s' : ThreadContext Ty) :
    Signal → Prop
  | cleanup (t : ThreadContext Ty) (entry : CleanupEntry Ty)
      (hw : unwindWalk u typeInit s = .ok (.entered t entry)) (h : s' = enterCleanup u t entry) :
      UnwindStep u typeInit s s' .exception
  | raised (hw : unwindWalk u typeInit s = .ok (.raised s')) : UnwindStep u typeInit s s' .exception
  | handler (t : ThreadContext Ty) (addr : HandlerAddress)
      (hw : unwindWalk u typeInit s = .ok (.arrived t)) (ht : u.target = .handler addr)
      (sig : Signal) (h : enterHandler t u.exception addr = .ok (sig, s')) :
      UnwindStep u typeInit s s' sig
  | leave (t : ThreadContext Ty) (ip : Nat) (hw : unwindWalk u typeInit s = .ok (.arrived t))
      (ht : u.target = .instruction ip) (hip : ip ≠ usizeMax)
      (sig : Signal) (h : arriveAt t u.targetFrame ip = .ok (sig, s')) :
      UnwindStep u typeInit s s' sig
  | returnFrame (t : ThreadContext Ty) (hw : unwindWalk u typeInit s = .ok (.arrived t))
      (ht : u.target = .instruction usizeMax) (h : s' = t.setMode .none) :
      UnwindStep u typeInit s s' .returnFrame

lemma unwind_cases (hn : u.nestedFilter = none) (h : unwind s u typeInit = .ok (sig, s')) :
    UnwindStep u typeInit s s' sig := by
  unfold unwind at h
  split at h
  · cases h
  · next t entry hw =>
    obtain ⟨rfl, rfl⟩ := h
    exact .cleanup t entry hw rfl
  · next t hw =>
    obtain ⟨rfl, rfl⟩ := h
    exact .raised hw
  · next t hw =>
    split at h
    · next addr ht => exact .handler t addr hw ht sig h
    · next ip ht =>
      split at h
      · next hmax =>
        simp only [hn] at h
        obtain ⟨rfl, rfl⟩ := h
        exact .returnFrame t hw (hmax ▸ ht) rfl
      · next hip => exact .leave t ip hw ht hip sig h

def caughtFrame (f : StackFrame Ty) (handler : Handler Ty) (x : ObjectRef) : StackFrame Ty :=
  { f with
    ip := handler.instructions.start
    stackHeight := 1
    exceptionStack := x :: f.exceptionStack }

lemma enterHandler_concat (hs : s.frames = init ++ [f]) (hlen : init.length = addr.frameIndex)
    (h : enterHandler s x addr = .ok (sig, s')) :
    sig = .exception ∧ ∃ p handler y, f.info.exceptions[addr.sectionIndex]? = some p ∧
      p.handlers[addr.handlerIndex]? = some handler ∧ x = some y ∧
      s' = { s with
        exceptionMode := .none
        stack := s.stack.take f.base.stack ++ [.objectRef y]
        frames := init ++ [caughtFrame f handler y] } := by
  have hget : s.frames[addr.frameIndex]? = some f := by rw [hs, ← hlen]; simp
  simp only [enterHandler, hget] at h
  split at h
  · cases h
  · next p hp =>
    split at h
    · next handler y hh =>
      simp only [Except.ok.injEq, Prod.mk.injEq] at h
      refine ⟨h.1.symm, p, handler, y, hp, hh, rfl, ?_⟩
      rw [← h.2]
      simp [ThreadContext.push, ThreadContext.truncate, modifyFrame,
        setMode, hs, ← hlen, modify_split, caughtFrame]
    · cases h

lemma enterHandler_quiet (h : enterHandler s x addr = .ok (sig, s')) :
    sig = .exception ∧ s'.exceptionMode = .none ∧ s'.continuation = s.continuation := by
  unfold enterHandler at h
  split at h
  · cases h
  · split at h
    · cases h
    · split at h
      · simp only [Except.ok.injEq, Prod.mk.injEq] at h
        rw [← h.2]
        exact ⟨h.1.symm, rfl, rfl⟩
      · cases h

/-- The mode a completed `leave` continues in. -/
def resumedMode (us : List UnwindState) : ExceptionState :=
  match us with
  | [] => .none
  | u :: _ => .executingHandler u

lemma arriveAt_eq {frameIndex : Nat} (h : arriveAt s frameIndex ip = .ok (sig, s')) :
    sig = .exception ∧ frameIndex < s.frames.length ∧ s' = { s with
        exceptionMode := resumedMode s.continuation.unwinds
        continuation := s.continuation.popHandlerUnwind.2
        frames := s.frames.modify frameIndex fun f => { f with ip := ip, stackHeight := 0 } } := by
  unfold arriveAt at h
  split at h
  · next hlt =>
    simp only [Except.ok.injEq, Prod.mk.injEq] at h
    refine ⟨h.1.symm, hlt, ?_⟩
    rw [← h.2, popHandlerUnwind_fst]
    cases s.continuation.unwinds with
    | nil => rfl
    | cons u us => rfl
  · cases h

def filteredFrame (state : FilterState) (f : StackFrame Ty) : StackFrame Ty :=
  { f with
    ip := state.originalIp
    stackHeight := state.originalStackHeight - f.base.stack
    exceptionStack := f.exceptionStack.tail }

lemma endFilter_eq {result : Int} (h : endFilter s result = .ok s') :
    ∃ state restored, s.exceptionMode = .filtering state ∧
      state.handler.frameIndex < s.frames.length ∧
      restored = (s.modifyFrame state.handler.frameIndex (filteredFrame state)).restoreSuspended ∧
      s' = restored.setMode (afterFilter restored state result) := by
  unfold endFilter at h
  split at h
  · next state hm =>
    split at h
    · next hlt => exact ⟨state, _, hm, hlt, rfl, (Except.ok.inj h).symm⟩
    · cases h
  · cases h

end DotnetVm
