import DotnetVm.Exceptions.Resumption
import DotnetVm.Exceptions.Sections
import DotnetVm.Stack.Balance

/-!
# The second pass through its cleanup handlers

An unwind runs one finally or fault handler at a time: it enters the handler, the
`endfinally` of the body puts the unwind back, and the walk goes on behind the
handler. A pass is followed here over all its bodies, from the plan that the frames
had when it began, for an unwind to a handler and for a `leave`.
-/

namespace DotnetVm

open List Option ThreadContext

variable {Ty : Type} {host : Host Ty} {s₀ s t w : ThreadContext Ty} {u₀ u : UnwindState}
  {low m n : Nat} {rem rest : List (CleanupEntry Ty)} {e : CleanupEntry Ty}
  {typeInit : Option ObjectRef} {target : UnwindTarget} {exception : Option ObjectRef}

/-- The lists of the frames under `n`, down to `low`. -/
def framesUnder {α : Type} (low : Nat) (g : Nat → List α) : Nat → List α
  | 0 => []
  | n + 1 => if low ≤ n then g n ++ framesUnder low g n else []

/-- The lists of the frames from `n` down to `low`. -/
def framesDown {α : Type} (low : Nat) (g : Nat → List α) (n : Nat) : List α :=
  g n ++ framesUnder low g n

section Frames

variable {α β : Type} {g : Nat → List α} {a : α}

lemma mem_framesUnder : a ∈ framesUnder low g n ↔ ∃ m, low ≤ m ∧ m < n ∧ a ∈ g m := by
  induction n with
  | zero => simp [framesUnder]
  | succ n ih =>
    simp only [framesUnder]
    split
    next hle =>
      rw [mem_append, ih]
      constructor
      · rintro (ha | ⟨m, hm, hlt, ha⟩)
        · exact ⟨n, hle, Nat.lt_succ_self n, ha⟩
        · exact ⟨m, hm, by omega, ha⟩
      · rintro ⟨m, hm, hlt, ha⟩
        by_cases hmn : m = n
        · exact .inl (hmn ▸ ha)
        · exact .inr ⟨m, hm, by omega, ha⟩
    next hle =>
      constructor
      · intro ha
        cases ha
      · rintro ⟨m, hm, hlt, _⟩
        omega

lemma framesDown_eq (g : Nat → List α) (hle : low ≤ n) :
    framesDown low g n = framesUnder low g (n + 1) := (if_pos hle).symm

lemma mem_framesDown (hle : low ≤ n) : a ∈ framesDown low g n ↔ ∃ m, low ≤ m ∧ m ≤ n ∧ a ∈ g m := by
  rw [framesDown_eq g hle, mem_framesUnder]
  simp

lemma pairwise_framesUnder {R : α → α → Prop} (hown : ∀ m, (g m).Pairwise R)
    (hdown : ∀ i j a b, j < i → a ∈ g i → b ∈ g j → R a b) (low n : Nat) :
    (framesUnder low g n).Pairwise R := by
  induction n with
  | zero => exact Pairwise.nil
  | succ n ih =>
    simp only [framesUnder]
    split
    · refine pairwise_append.mpr ⟨hown n, ih, fun a ha b hb => ?_⟩
      obtain ⟨m, _, hlt, hb⟩ := mem_framesUnder.mp hb
      exact hdown n m a b hlt ha hb
    · exact Pairwise.nil

lemma pairwise_framesDown {R : α → α → Prop} (hown : ∀ m, (g m).Pairwise R)
    (hdown : ∀ i j a b, j < i → a ∈ g i → b ∈ g j → R a b) (low n : Nat) :
    (framesDown low g n).Pairwise R := by
  refine pairwise_append.mpr ⟨hown n, pairwise_framesUnder hown hdown low n, ?_⟩
  intro a ha b hb
  obtain ⟨m, _, hlt, hb⟩ := mem_framesUnder.mp hb
  exact hdown n m a b hlt ha hb

variable {f : α → β} {g' : Nat → List β}

variable (hsub : ∀ m, ((g m).map f).Sublist (g' m))
include hsub

lemma framesUnder_sublist (low n : Nat) :
    ((framesUnder low g n).map f).Sublist (framesUnder low g' n) := by
  induction n with
  | zero => exact Sublist.slnil
  | succ n ih =>
    simp only [framesUnder]
    split
    · rw [map_append]
      exact (hsub n).append ih
    · exact Sublist.slnil

lemma framesUnder_eq_iff :
    (framesUnder low g n).map f = framesUnder low g' n ↔
      ∀ m, low ≤ m → m < n → (g m).map f = g' m := by
  induction n with
  | zero => simp [framesUnder]
  | succ n ih =>
    simp only [framesUnder]
    split
    next hle =>
      rw [map_append, append_eq_of_sublist (hsub n) (framesUnder_sublist hsub low n), ih]
      constructor
      · rintro ⟨hn, hall⟩ m hm hlt
        by_cases hmn : m = n
        · exact hmn ▸ hn
        · exact hall m hm (by omega)
      · intro hall
        exact ⟨hall n hle (Nat.lt_succ_self n), fun m hm hlt => hall m hm (by omega)⟩
    next hle =>
      simp only [map_nil, true_iff]
      intro m hm hlt
      omega

lemma framesDown_eq_iff (hle : low ≤ n) :
    (framesDown low g n).map f = framesDown low g' n ↔
      ∀ m, low ≤ m → m ≤ n → (g m).map f = g' m := by
  rw [framesDown_eq g hle, framesDown_eq g' hle, framesUnder_eq_iff hsub]
  simp

end Frames

section

variable (target : UnwindTarget) (exception : Option ObjectRef) (frames : List (StackFrame Ty))

/-- What the walk runs in frame `n`. -/
def plannedFrame (n : Nat) : List (CleanupEntry Ty) :=
  (frames[n]?.map fun f => plannedSections target exception n f.ip 0 f.info.exceptions).getD []

/-- What has to be run in frame `n`. -/
def askedFrame (n : Nat) : List HandlerAddress :=
  (frames[n]?.map fun f => askedSections target exception n f.ip 0 f.info.exceptions).getD []

lemma plannedFrame_sublist (n : Nat) :
    ((plannedFrame target exception frames n).map CleanupEntry.addr).Sublist
      (askedFrame target exception frames n) := by
  unfold plannedFrame askedFrame
  cases frames[n]? with
  | none => exact Sublist.slnil
  | some f => exact plannedSections_sublist target exception n f.ip 0 f.info.exceptions

end

variable {frames : List (StackFrame Ty)}

lemma plannedFrame_eq_asked : (plannedFrame target exception frames n).map CleanupEntry.addr =
      askedFrame target exception frames n ↔
    ∀ f j p, frames[n]? = some f → f.info.exceptions[j]? = some p →
      leavesSection target n j f.ip p = true → RunsAll target exception p.handlers := by
  unfold plannedFrame askedFrame
  cases frames[n]? with
  | none => simp
  | some f =>
    simp only [map_some, getD_some, plannedSections_eq_asked, zero_add,
      some.injEq]
    constructor
    · rintro hall _ j p rfl
      exact hall j p
    · intro hall j p
      exact hall f j p rfl

lemma mem_askedFrame {a : HandlerAddress} :
    a ∈ askedFrame target exception frames n ↔ a.frameIndex = n ∧ ∃ f p h, frames[n]? = some f ∧
      f.info.exceptions[a.sectionIndex]? = some p ∧
      leavesSection target n a.sectionIndex f.ip p = true ∧
      p.handlers[a.handlerIndex]? = some h ∧ h.kind.shouldRun exception = true := by
  unfold askedFrame
  cases hf : frames[n]? with
  | none => simp
  | some f => simp [mem_askedSections]

lemma pairwise_askedFrames (target : UnwindTarget) (exception : Option ObjectRef)
    (frames : List (StackFrame Ty)) (low n : Nat) :
    (framesDown low (askedFrame target exception frames) n).Pairwise HandlerAddress.Precedes := by
  refine pairwise_framesDown ?_ ?_ low n
  · intro m
    unfold askedFrame
    cases frames[m]? with
    | none => exact Pairwise.nil
    | some f => exact pairwise_askedSections target exception m f.ip 0 f.info.exceptions
  · intro i j a b hlt ha hb
    obtain ⟨hi, _⟩ := mem_askedFrame.mp ha
    obtain ⟨hj, _⟩ := mem_askedFrame.mp hb
    left
    omega

structure Unwindable (target : UnwindTarget) (low : Nat)
    (frames : List (StackFrame Ty)) : Prop where
  nested : ∀ n f, low ≤ n → frames[n]? = some f → ProperlyNested f.info.exceptions
  outside : ∀ n f, low ≤ n → frames[n]? = some f → OutsideHandlers target f.info.exceptions f.ip
  bases : ∀ n f g, low ≤ n → frames[n]? = some f → frames[n + 1]? = some g →
    f.base.stack ≤ g.base.arguments ∧ g.base.arguments ≤ g.base.stack

def Wraps (exception : Option ObjectRef) (made : Bool) (f : StackFrame Ty) : Prop :=
  f.info.isCctor = true ∧ exception.isSome = true ∧ made = true

structure DownTo (s₀ : ThreadContext Ty) (u : UnwindState) (low n : Nat) (s : ThreadContext Ty)
    (g g₀ : StackFrame Ty) : Prop where
  mode : s.exceptionMode = .unwinding u
  low_le : low ≤ n
  frames : s.frames = s₀.frames.take n ++ [g]
  frame : s₀.frames[n]? = some g₀
  info : g.info = g₀.info
  base : g.base = g₀.base
  slots : g.base.stack ≤ s.stack.length

/-- The unwind stands in frame `n` with `rem` left of its plan. -/
structure PassPosition (s₀ : ThreadContext Ty) (u : UnwindState) (low n : Nat)
    (s : ThreadContext Ty) (rem : List (CleanupEntry Ty)) : Prop where
  targetFrame : u.targetFrame = low
  cursor : n ≤ u.cursor.frameIndex
  exists_frame : ∃ g g₀ top, DownTo s₀ u low n s g g₀ ∧
    WalkPosition u.target u.exception n g₀.ip g₀.info.exceptions g.ip u.cursor top ∧
    rem = top ++ framesUnder low (plannedFrame u.target u.exception s₀.frames) n

def Entering (s₀ : ThreadContext Ty) (u : UnwindState) (low n : Nat) (s : ThreadContext Ty)
    (e : CleanupEntry Ty) (rest : List (CleanupEntry Ty)) : Prop :=
  ∃ g g₀ p, DownTo s₀ u low n s g g₀ ∧
    PlannedEntry u.target u.exception n g₀.ip g₀.info.exceptions p e ∧
    rest = afterEntry u.target u.exception n g₀.ip g₀.info.exceptions p e ++
      framesUnder low (plannedFrame u.target u.exception s₀.frames) n

lemma unwindInFrame_position {g g₀ : StackFrame Ty} {top : List (CleanupEntry Ty)}
    (hu : Unwindable u.target low s₀.frames) (hd : DownTo s₀ u low n s g g₀)
    (hw : WalkPosition u.target u.exception n g₀.ip g₀.info.exceptions g.ip u.cursor top) :
    unwindInFrame u n s = .ok (s, top.head?) := by
  have hlt := (List.getElem?_eq_some_iff.mp hd.frame).1
  have hn : (s₀.frames.take n).length = n := by rw [List.length_take]; omega
  have hget : s.frames[n]? = some g := by
    rw [hd.frames, getElem?_append_right (by omega), hn, Nat.sub_self]
    rfl
  have hwalk := hw.walk g.exceptionStack (hu.nested n g₀ hd.low_le hd.frame)
    (hu.outside n g₀ hd.low_le hd.frame)
  simp only [unwindInFrame, hget, hd.info, hwalk]
  have hfs : s.frames.modify n (fun f => { f with exceptionStack := g.exceptionStack }) =
      s.frames := by
    rw [hd.frames]
    have hspl := modify_split (s₀.frames.take n) g [] fun f =>
      { f with exceptionStack := g.exceptionStack }
    rwa [hn] at hspl
  simp only [modifyFrame, hfs]

variable (typeInit) in
lemma unwindFrame_unwinding {init : List (StackFrame Ty)} {f : StackFrame Ty}
    (hs : s.frames = init ++ [f]) (hm : s.exceptionMode = .unwinding u) :
    ∃ s', unwindFrame s typeInit = .ok s' ∧ s'.frames = init ∧
      s'.stack = s.stack.take f.base.arguments ∧
      ((Wraps u.exception typeInit.isSome f ∧ ∃ x, s'.exceptionMode = .throwing x false) ∨
        (¬ Wraps u.exception typeInit.isSome f ∧ s'.exceptionMode = .unwinding u)) := by
  simp only [unwindFrame, hs, getLast?_concat, dropLast_concat]
  refine ⟨_, rfl, rfl, rfl, ?_⟩
  simp only [ThreadContext.truncate, hm, ExceptionState.currentException, Wraps]
  cases f.info.isCctor <;> cases u.exception <;> cases typeInit <;> simp

lemma DownTo.pop {g g₀ : StackFrame Ty} {s' : ThreadContext Ty}
    (hu : Unwindable u.target low s₀.frames) (hd : DownTo s₀ u low (n + 1) s g g₀) (hlow : low ≤ n)
    (hfs : s'.frames = s₀.frames.take (n + 1))
    (hstk : s'.stack = s.stack.take g.base.arguments) (hmd : s'.exceptionMode = .unwinding u) :
    ∃ f, DownTo s₀ u low n s' f f := by
  have hlt := (List.getElem?_eq_some_iff.mp hd.frame).1
  obtain ⟨f, hf⟩ : ∃ f, s₀.frames[n]? = some f := ⟨_, List.getElem?_eq_getElem (by omega)⟩
  refine ⟨f, hmd, hlow, ?_, hf, rfl, rfl, ?_⟩
  · rw [hfs, take_add_one, hf]
    rfl
  · have hbases := hu.bases n f g₀ hlow hf hd.frame
    have hsl := hd.slots
    rw [hd.base] at hsl
    rw [hstk, length_take, hd.base]
    omega

lemma DownTo.wraps_iff {g g₀ : StackFrame Ty} {made : Bool} (hd : DownTo s₀ u low n s g g₀) :
    Wraps u.exception made g ↔ Wraps u.exception made g₀ := by
  unfold Wraps
  rw [hd.info]

variable (typeInit) in
/-- The first entry of what is left is entered where the unwind stands. -/
lemma unwindFrames_head {g g₀ : StackFrame Ty} {e : CleanupEntry Ty}
    {rest : List (CleanupEntry Ty)} (hu : Unwindable u.target low s₀.frames)
    (hd : DownTo s₀ u low n s g g₀)
    (hw : WalkPosition u.target u.exception n g₀.ip g₀.info.exceptions g.ip u.cursor (e :: rest)) :
    unwindFrames u typeInit n s = .ok (.entered s e) ∧ Entering s₀ u low n s e
      (rest ++ framesUnder low (plannedFrame u.target u.exception s₀.frames) n) := by
  have hin := unwindInFrame_position hu hd hw
  obtain ⟨p, he, hrest⟩ := hw.head rfl
  refine ⟨?_, g, g₀, p, hd, he, by rw [hrest]⟩
  cases n <;> simp [unwindFrames, hin]

/-- With nothing left to run in it a frame is popped, and the unwind stands in the one below. -/
lemma PassPosition.popped {g g₀ : StackFrame Ty} {s' : ThreadContext Ty}
    {rem : List (CleanupEntry Ty)} (hu : Unwindable u.target low s₀.frames)
    (hpos : PassPosition s₀ u low (n + 1) s rem) (hd : DownTo s₀ u low (n + 1) s g g₀)
    (hlow : low ≤ n) (hfs : s'.frames = s₀.frames.take (n + 1))
    (hstk : s'.stack = s.stack.take g.base.arguments) (hmd : s'.exceptionMode = .unwinding u) :
    PassPosition s₀ u low n s'
      (framesUnder low (plannedFrame u.target u.exception s₀.frames) (n + 1)) := by
  obtain ⟨f, hd'⟩ := hd.pop hu hlow hfs hstk hmd
  have hplan : plannedFrame u.target u.exception s₀.frames n =
      plannedSections u.target u.exception n f.ip 0 f.info.exceptions := by
    simp [plannedFrame, hd'.frame]
  have hcur := hpos.cursor
  refine ⟨hpos.targetFrame, by omega, f, f, _, hd', .fresh rfl (by omega), ?_⟩
  simp only [framesUnder, if_pos hlow, hplan]

lemma not_wraps_succ {g : StackFrame Ty} {exception : Option ObjectRef} {made : Bool} {m : Nat}
    (hg : s₀.frames[n + 1]? = some g) (hcalm : ¬ Wraps exception made g)
    (hno : ∀ i f, m < i → i ≤ n → s₀.frames[i]? = some f → ¬ Wraps exception made f) :
    ∀ i f, m < i → i ≤ n + 1 → s₀.frames[i]? = some f → ¬ Wraps exception made f := by
  intro i f hlt hi hf
  by_cases htop : i = n + 1
  · subst htop
    obtain rfl : g = f := some.inj (hg.symm.trans hf)
    exact hcalm
  · exact hno i f hlt (by omega) hf

variable (typeInit) in
lemma unwindFrames_meets (hu : Unwindable u.target low s₀.frames)
    (hpos : PassPosition s₀ u low n s rem) :
    (∃ m s' e rest, unwindFrames u typeInit n s = .ok (.entered s' e) ∧ rem = e :: rest ∧ m ≤ n ∧
        Entering s₀ u low m s' e rest ∧ (m = n → s' = s) ∧
        ∀ i f, m < i → i ≤ n → s₀.frames[i]? = some f → ¬ Wraps u.exception typeInit.isSome f) ∨
    (∃ s' x p, unwindFrames u typeInit n s = .ok (.raised s') ∧ s'.exceptionMode = .throwing x p ∧
      ∃ i f, low < i ∧ i ≤ n ∧ s₀.frames[i]? = some f ∧ Wraps u.exception typeInit.isSome f) ∨
    (∃ s' g g₀, unwindFrames u typeInit n s = .ok (.arrived s') ∧ rem = [] ∧
      DownTo s₀ u low low s' g g₀ ∧ (low = n → s' = s) ∧
      ∀ i f, low < i → i ≤ n → s₀.frames[i]? = some f → ¬ Wraps u.exception typeInit.isSome f) := by
  induction n generalizing s rem with
  | zero =>
    obtain ⟨g, g₀, top, hd, hw, rfl⟩ := hpos.exists_frame
    obtain rfl : low = 0 := Nat.le_zero.mp hd.low_le
    cases top with
    | nil =>
      right; right
      refine ⟨s, g, g₀, ?_, rfl, hd, fun _ => rfl, fun i f hlt hle => by omega⟩
      simp [unwindFrames, unwindInFrame_position hu hd hw]
    | cons e rest =>
      left
      obtain ⟨hwalk, hent⟩ := unwindFrames_head typeInit hu hd hw
      exact ⟨0, s, e, _, hwalk, rfl, le_rfl, hent, fun _ => rfl, fun i f hlt hle => by omega⟩
  | succ n ih =>
    obtain ⟨g, g₀, top, hd, hw, rfl⟩ := hpos.exists_frame
    have hin := unwindInFrame_position hu hd hw
    cases top with
    | cons e rest =>
      left
      obtain ⟨hwalk, hent⟩ := unwindFrames_head typeInit hu hd hw
      exact ⟨n + 1, s, e, _, hwalk, rfl, le_rfl, hent, fun _ => rfl, fun i f hlt hle => by omega⟩
    | nil =>
      rw [nil_append]
      by_cases hlow : low ≤ n
      · -- the frame is popped
        obtain ⟨s', hpop, hfs, hstk, hcs⟩ :=
          unwindFrame_unwinding typeInit hd.frames hd.mode
        have hlt : u.targetFrame < n + 1 := by rw [hpos.targetFrame]; omega
        rcases hcs with ⟨hwrap, x, hmd⟩ | ⟨hcalm, hmd⟩
        · right; left
          refine ⟨s', x, false, ?_, hmd, n + 1, g₀, by omega, le_refl _, hd.frame,
            hd.wraps_iff.mp hwrap⟩
          simp only [unwindFrames, hin, head?_nil, if_pos hlt, hpop, hmd]
        · have hnext := hpos.popped hu hd hlow hfs hstk hmd
          rw [hd.wraps_iff] at hcalm
          have hwalk' : unwindFrames u typeInit (n + 1) s = unwindFrames u typeInit n s' := by
            simp only [unwindFrames, hin, head?_nil, if_pos hlt, hpop, hmd]
          rw [hwalk']
          rcases ih hnext with ⟨m, t, e, rest, hwalk, hrem, hle, hent, _, hno⟩ |
              ⟨t, x, p, hwalk, hm, i, f, hi, hle, hf, hwrap⟩ |
                ⟨t, g', g₀', hwalk, hrem, hd'', _, hno⟩
          · left
            exact ⟨m, t, e, rest, hwalk, hrem, by omega, hent, fun hmn => by omega,
              not_wraps_succ hd.frame hcalm hno⟩
          · right; left
            exact ⟨t, x, p, hwalk, hm, i, f, hi, by omega, hf, hwrap⟩
          · right; right
            exact ⟨t, g', g₀', hwalk, hrem, hd'', fun hmn => by omega,
              not_wraps_succ hd.frame hcalm hno⟩
      · -- the target frame
        right; right
        have hle := hd.low_le
        obtain rfl : low = n + 1 := by omega
        refine ⟨s, g, g₀, ?_, ?_, hd, fun _ => rfl, fun i f hlt hle => by omega⟩
        · simp [unwindFrames, hin, hpos.targetFrame]
        · simp [framesUnder]

/-- The body entered for `e` runs in disciplined steps to the `endfinally` at its end: the entered
frame is on top again, and the body that was innermost when it was entered is innermost again. It
leaves `left` operands behind. Of the mode at its end nothing is assumed. -/
structure CompletesBody (host : Host Ty) (e : CleanupEntry Ty)
    (p q : ThreadContext Ty × Activations Ty) (left : Nat) : Prop where
  run : Runs.Run (trackedNext host) Disciplined p q
  executing : q.1.exceptionMode.isNormal = true
  innermost : (bodies q.2.live).head? = (bodies p.2.live).head?
  slots : q.1.stack.length = p.1.stack.length + left
  exists_frame : ∃ init g g', p.1.frames = init ++ [g] ∧ q.1.frames = init ++ [g'] ∧
    g'.info = g.info ∧ g'.base = g.base ∧ Executes g' .endFinally ∧
    e.handler.instructions.contains g'.ip = true

/-- A pass that began in `p₀` and has run the bodies `ran`, each with the operands it left behind.
Every body is entered by a step of the unwind and ended by its `endfinally`. -/
inductive SecondPass (host : Host Ty) (offers : Option ObjectRef → Prop)
    (p₀ : ThreadContext Ty × Activations Ty) (u₀ : UnwindState) :
    List (HandlerAddress × Nat) → ThreadContext Ty × Activations Ty → UnwindState → Prop
  | start : SecondPass host offers p₀ u₀ [] p₀ u₀
  | body {ran p u x s' e q r left y p₁} (hpass : SecondPass host offers p₀ u₀ ran p u)
      (hoffer : offers x.typeInitialization)
      (hwalk : unwindWalk u x.typeInitialization p.1 = .ok (.entered s' e))
      (henter : trackedNext host p (.dispatch x) = some q)
      (hbody : CompletesBody host e q r left)
      (hend : trackedNext host r (.dispatch y) = some p₁) :
      SecondPass host offers p₀ u₀ (ran ++ [(e.addr, left)]) p₁ { u with cursor := e.next }

section Pass

variable {offers : Option ObjectRef → Prop} {top : Nat} {ran : List (HandlerAddress × Nat)}

/-- The handlers a pass from frame `top` down to `low` runs. -/
def planned (s₀ : ThreadContext Ty) (u₀ : UnwindState) (low top : Nat) : List HandlerAddress :=
  (framesDown low (plannedFrame u₀.target u₀.exception s₀.frames) top).map CleanupEntry.addr

/-- What is known of a pass between two bodies. -/
structure PassInvariant (offers : Option ObjectRef → Prop) (s₀ : ThreadContext Ty)
    (u₀ : UnwindState) (low top : Nat) (ran : List (HandlerAddress × Nat))
    (s : ThreadContext Ty) (u : UnwindState) : Prop where
  target : u.target = u₀.target
  exception : u.exception = u₀.exception
  le_top : u.cursor.frameIndex ≤ top
  exists_rem : ∃ rem, PassPosition s₀ u low u.cursor.frameIndex s rem ∧
    planned s₀ u₀ low top = ran.map Prod.fst ++ rem.map CleanupEntry.addr
  calm : ∀ i f, u.cursor.frameIndex < i → i ≤ top → s₀.frames[i]? = some f →
    ∃ typeInit, offers typeInit ∧ ¬ Wraps u₀.exception typeInit.isSome f
  slots : low = top → s.stack.length = s₀.stack.length + (ran.map Prod.snd).sum

lemma PassPosition.mode (hpos : PassPosition s₀ u low n s rem) :
    s.exceptionMode = .unwinding u := by
  obtain ⟨_, _, _, hd, _⟩ := hpos.exists_frame
  exact hd.mode

lemma PassPosition.walk (hpos : PassPosition s₀ u low u.cursor.frameIndex s rem) :
    unwindWalk u typeInit s = unwindFrames u typeInit u.cursor.frameIndex s := by
  obtain ⟨_, _, _, hd, _⟩ := hpos.exists_frame
  have hle := hd.low_le
  unfold unwindWalk
  rw [hpos.targetFrame, if_neg (by omega)]

variable {a : Effects Ty}

section

variable (hm : s.exceptionMode = .unwinding u)
include hm

lemma step_unwinding {r : Signal × ThreadContext Ty} (h : unwind s u a.typeInitialization = .ok r) :
    step host s (.dispatch a) = followSignal a.returned r := by
  simp [step, hm, handleException, h]

lemma step_entered (hwalk : unwindWalk u a.typeInitialization s = .ok (.entered t e)) :
    step host s (.dispatch a) = .ok (enterCleanup u t e) := by
  have h : unwind s u a.typeInitialization = .ok (.exception, enterCleanup u t e) := by
    simp only [unwind, hwalk]
  exact step_unwinding hm h

lemma step_raised (hwalk : unwindWalk u a.typeInitialization s = .ok (.raised t)) :
    step host s (.dispatch a) = .ok t := by
  have h : unwind s u a.typeInitialization = .ok (.exception, t) := by simp only [unwind, hwalk]
  exact step_unwinding hm h

end

lemma targetFrame_resumed {next : HandlerAddress} (hle : next.frameIndex ≤ u.cursor.frameIndex)
    (hlow : u.targetFrame ≤ next.frameIndex) :
    { u with cursor := next }.targetFrame = u.targetFrame := by
  unfold UnwindState.targetFrame at *
  cases htgt : u.target with
  | handler h => simp
  | instruction ip =>
    cases hnest : u.nestedFilter with
    | some nested => simp
    | none =>
      simp only [htgt, hnest] at hlow ⊢
      omega

variable {b : Effects Ty} {left : Nat} {live : List (Activation Ty)} {as : Activations Ty}
  {p q p₀ r p₁ : ThreadContext Ty × Activations Ty}

lemma coherent_trackedRun (h : Runs.Run (trackedNext host) Disciplined p q)
    (hc : Coherent p.1 p.2) : Coherent q.1 q.2 := by
  refine h.invariant (I := fun p => Coherent p.1 p.2) (fun p ev q hp hd hq => ?_) hc
  obtain ⟨hst, hq⟩ := trackedNext_eq_some.mp hq
  rw [hq]
  exact coherent_step hp hd hst

section Body

variable (hc : Coherent (enterCleanup u t e) as)
  (hbody : CompletesBody host e (enterCleanup u t e, as) r left)
include hc hbody

/-- The mode at the end of a body is its own: that of the innermost body, which is the entered
one. -/
lemma CompletesBody.mode : Coherent r.1 r.2 ∧
    r.1.exceptionMode = .executingHandler { u with cursor := e.next } ∧
    ∃ c, (bodies r.2.live).head? = some c ∧ c.isCleanup = true ∧
      c.frameIndex = e.next.frameIndex := by
  have hr := coherent_trackedRun hbody.run hc
  obtain ⟨c, rest, hbodies, hk, hidx, _⟩ : ModeCoherent (enterCleanup u t e).frames.length
    (.executingHandler { u with cursor := e.next }) (bodies as.live) := hc.mode
  have hhead : (bodies r.2.live).head? = some c := by
    rw [hbody.innermost, hbodies]
    rfl
  have hmode := hr.mode_of_head hbody.executing hhead
  rw [Activation.mode?, hk] at hmode
  exact ⟨hr, (some.inj hmode).symm, c, hhead, by simp [Activation.isCleanup, hk], hidx⟩

lemma CompletesBody.ends (hlen : (enterCleanup u t e).frames.length = e.next.frameIndex + 1)
    (hend : trackedNext host r (.dispatch b) = some p₁) :
    Coherent p₁.1 p₁.2 ∧ p₁.1.exceptionMode = .unwinding { u with cursor := e.next } ∧
      p₁.1.frames = r.1.frames ∧ p₁.1.stack = r.1.stack := by
  obtain ⟨hr, hmode, c, hhead, hclean, hidx⟩ := hbody.mode hc
  obtain ⟨init, g, g', ht, hw, _, _, hexec, _⟩ := hbody.exists_frame
  obtain ⟨hst, hp₁⟩ := trackedNext_eq_some.mp hend
  have hdisc : Disciplined r (.dispatch b) := by
    have hin : InBody Activation.isCleanup r.1 r.2 := by
      refine ⟨c, hhead, hclean, ?_⟩
      rw [hidx, ← hlen, ht, hw]
      simp
    simpa [Disciplined, hmode, hw, DisciplinedInstruction, hexec.1, hexec.2] using hin
  have hco : Coherent p₁.1 p₁.2 := hp₁ ▸ coherent_step hr hdisc hst
  obtain hfin := Except.ok.inj ((step_endFinally hw hexec hmode b).symm.trans hst)
  rw [← hfin]
  exact ⟨hfin ▸ hco, rfl, rfl, rfl⟩

lemma Entering.resumed (htgt : u.targetFrame = low) (hm : m ≤ u.cursor.frameIndex)
    (hent : Entering s₀ u low m t e rest) (hend : trackedNext host r (.dispatch b) = some p₁) :
    e.next.frameIndex = m ∧ Coherent p₁.1 p₁.2 ∧
      PassPosition s₀ { u with cursor := e.next } low m p₁.1 rest ∧
      p₁.1.stack.length = t.stack.length + left := by
  obtain ⟨g, g₀, pos, hd, he, hrest⟩ := hent
  have hnext : e.next.frameIndex = m := by rw [he.next, resumeAfter_frameIndex, he.frameIndex]
  have hlt := (List.getElem?_eq_some_iff.mp hd.frame).1
  have hlen : (s₀.frames.take m).length = m := by rw [length_take]; omega
  have hentered := enterCleanup_frames (u := u) hd.frames (he.frameIndex.trans hlen.symm)
  obtain ⟨hco, hmd, hfs, hstk⟩ := hbody.ends hc (by simp [hentered, hlen, hnext]) hend
  obtain ⟨init, g₁, g', ht, hw, hinfo, hbase, _, hin⟩ := hbody.exists_frame
  obtain ⟨rfl, rfl⟩ := append_singleton_inj.mp (hentered.symm.trans ht)
  have hsl : p₁.1.stack.length = t.stack.length + left := by
    rw [hstk, hbody.slots]
    rfl
  refine ⟨hnext, hco, ⟨?_, hnext.ge, g', g₀, _, ?_, .behind pos e he hin rfl, hrest⟩, hsl⟩
  · rw [← htgt]
    exact targetFrame_resumed (by omega) (by rw [htgt, hnext]; exact hd.low_le)
  · have hbase' : g'.base = g.base := hbase
    refine ⟨hmd, hd.low_le, hfs.trans hw, hd.frame, hinfo.trans hd.info,
      hbase'.trans hd.base, ?_⟩
    have hle := hd.slots
    rw [hbase']
    omega

end Body

lemma PassInvariant.body {s' : ThreadContext Ty} (hu : Unwindable u₀.target low s₀.frames)
    (hi : PassInvariant offers s₀ u₀ low top ran p.1 u) (hc : Coherent p.1 p.2)
    (hof : offers a.typeInitialization)
    (hwalk : unwindWalk u a.typeInitialization p.1 = .ok (.entered s' e))
    (henter : trackedNext host p (.dispatch a) = some q) (hbody : CompletesBody host e q r left)
    (hend : trackedNext host r (.dispatch b) = some p₁) :
    PassInvariant offers s₀ u₀ low top (ran ++ [(e.addr, left)]) p₁.1 { u with cursor := e.next } ∧
      Coherent p₁.1 p₁.2 := by
  obtain ⟨rem, hpos, hplan⟩ := hi.exists_rem
  obtain ⟨t, as⟩ := q
  obtain ⟨hst, has⟩ := trackedNext_eq_some.mp henter
  obtain rfl := Except.ok.inj ((step_entered hpos.mode hwalk).symm.trans hst)
  have hct : Coherent (enterCleanup u s' e) as := by
    obtain rfl : as = track p.2 p.1 (.dispatch a) (enterCleanup u s' e) := has
    simp only [track, hpos.mode, trackUnwind, hwalk]
    exact hc.cleanup hpos.mode hwalk
  rw [hpos.walk] at hwalk
  rcases unwindFrames_meets a.typeInitialization (by rwa [hi.target]) hpos with
    ⟨m, s'', e', rest, hmeets, rfl, hle, hent, hsm, hcalm⟩ | ⟨_, _, _, hmeets, _⟩ |
      ⟨_, _, _, hmeets, _⟩
  · obtain ⟨rfl, rfl⟩ := UnwindOutcome.entered.inj (Except.ok.inj (hwalk.symm.trans hmeets))
    obtain ⟨hnext, hco, hpos', hsl⟩ := hent.resumed hct hbody hpos.targetFrame hle hend
    have htop := hi.le_top
    refine ⟨⟨hi.target, hi.exception, ?_, ⟨rest, ?_, ?_⟩, ?_, ?_⟩, hco⟩
    · dsimp only
      omega
    · rwa [hnext]
    · rw [hplan]
      simp
    · intro i f hlt hit hf
      dsimp only at hlt
      by_cases hold : u.cursor.frameIndex < i
      · exact hi.calm i f hold hit hf
      · have hqt := hcalm i f (by omega) (by omega) hf
        rw [hi.exception] at hqt
        exact ⟨_, hof, hqt⟩
    · intro hlow
      obtain ⟨g, g₀, _, hd, _⟩ := hent
      have hlowm := hd.low_le
      have hsm' := hsm (by omega)
      rw [hsl, hsm', hi.slots hlow]
      simp
      omega
  · cases hwalk.symm.trans hmeets
  · cases hwalk.symm.trans hmeets

/-- Every pass has run a first part of its plan. -/
lemma SecondPass.invariant (hpass : SecondPass host offers p₀ u₀ ran p u)
    (hu : Unwindable u₀.target low p₀.1.frames) (hc : Coherent p₀.1 p₀.2)
    (hbeg : PassInvariant offers p₀.1 u₀ low top [] p₀.1 u₀) :
    PassInvariant offers p₀.1 u₀ low top ran p.1 u := by
  suffices h : PassInvariant offers p₀.1 u₀ low top ran p.1 u ∧ Coherent p.1 p.2 from h.1
  induction hpass with
  | start => exact ⟨hbeg, hc⟩
  | body _ hof hwalk henter hbody hend ih => exact ih.1.body hu ih.2 hof hwalk henter hbody hend

/-- An unwind that begins at the top frame. -/
lemma PassInvariant.start {f : StackFrame Ty} (htop : s₀.frames.length = top + 1)
    (hm : s₀.exceptionMode = .unwinding u₀) (hcur : u₀.cursor = .startOf top)
    (htgt : u₀.targetFrame = low) (hlow : low ≤ top) (hf : s₀.frames[top]? = some f)
    (hsl : f.base.stack ≤ s₀.stack.length) : PassInvariant offers s₀ u₀ low top [] s₀ u₀ := by
  have hidx : u₀.cursor.frameIndex = top := by rw [hcur]; rfl
  have hfs : s₀.frames = s₀.frames.take top ++ [f] := by
    have hsucc := take_add_one (l := s₀.frames) (i := top)
    rw [hf, ← htop, take_length] at hsucc
    exact hsucc
  refine ⟨rfl, rfl, hidx.le, ⟨_, ?_, rfl⟩, fun i _ hlt hle => by omega, by simp⟩
  refine ⟨htgt, le_refl _, f, f, _, ⟨hm, by omega, ?_, ?_, rfl, rfl, hsl⟩,
    .fresh rfl fun _ => ?_, ?_⟩
  · rw [hidx]
    exact hfs
  · rw [hidx]
    exact hf
  · rw [hidx]
    exact hcur
  · rw [hidx]
    simp [framesDown, plannedFrame, hf]

lemma PassInvariant.goes_on (typeInit : Option ObjectRef)
    (hu : Unwindable u₀.target low s₀.frames) (hi : PassInvariant offers s₀ u₀ low top ran s u)
    (hof : offers typeInit) :
    (∃ s' e, unwindWalk u typeInit s = .ok (.entered s' e) ∧
      (ran.map Prod.fst ++ [e.addr]).IsPrefix (planned s₀ u₀ low top)) ∨
    (∃ s' x p, unwindWalk u typeInit s = .ok (.raised s') ∧ s'.exceptionMode = .throwing x p ∧
      ∃ i f, low < i ∧ i ≤ top ∧ s₀.frames[i]? = some f ∧ Wraps u₀.exception typeInit.isSome f) ∨
    (∃ s' g g₀, unwindWalk u typeInit s = .ok (.arrived s') ∧
      ran.map Prod.fst = planned s₀ u₀ low top ∧ DownTo s₀ u low low s' g g₀ ∧
      (low = top → s' = s) ∧
      ∀ i f, low < i → i ≤ top → s₀.frames[i]? = some f →
        ∃ typeInit, offers typeInit ∧ ¬ Wraps u₀.exception typeInit.isSome f) := by
  obtain ⟨rem, hpos, hplan⟩ := hi.exists_rem
  have htop := hi.le_top
  rw [hpos.walk, hplan]
  rcases unwindFrames_meets typeInit (by rwa [hi.target]) hpos with
    ⟨m, s', e, rest, hmeets, rfl, _⟩ | ⟨s', x, p, hmeets, hmd, i, f, hlt, hle, hf, hwrap⟩ |
      ⟨s', g, g₀, hmeets, rfl, hd, hsm, hcalm⟩
  · left
    exact ⟨s', e, hmeets, rest.map CleanupEntry.addr, by simp⟩
  · right; left
    rw [hi.exception] at hwrap
    exact ⟨s', x, p, hmeets, hmd, i, f, hlt, by omega, hf, hwrap⟩
  · right; right
    refine ⟨s', g, g₀, hmeets, by simp, hd, fun hlow => hsm ?_, fun i f hlt hle hf => ?_⟩
    · obtain ⟨_, _, _, hd', _⟩ := hpos.exists_frame
      have hle := hd'.low_le
      omega
    · by_cases hold : u.cursor.frameIndex < i
      · exact hi.calm i f hold hle hf
      · have hqt := hcalm i f hlt (by omega) hf
        rw [hi.exception] at hqt
        exact ⟨_, hof, hqt⟩

end Pass

section ToHandler

variable {x : ObjectRef} {addr : HandlerAddress} {f : StackFrame Ty} {q : ProtectedSection Ty}
  {h : Handler Ty}

/-- The section with its handlers lies in the try block of another one. -/
def ProtectedSection.LiesIn (p q : ProtectedSection Ty) : Prop :=
  ∀ ip, p.Covers ip → q.instructions.contains ip = true

variable {p : ProtectedSection Ty}

lemma liesIn_iff_lt {ps : List (ProtectedSection Ty)} {i j ip : Nat}
    (hnest : ProperlyNested ps) (hp : ps[i]? = some p) (hq : ps[j]? = some q)
    (hip : p.instructions.contains ip = true) (hiq : q.instructions.contains ip = true)
    (hh : h ∈ q.handlers) (hbody : h.instructions.contains h.instructions.start = true) :
    p.LiesIn q ↔ i < j := by
  have hwp := hnest.sections p (mem_of_getElem? hp)
  have hwq := hnest.sections q (mem_of_getElem? hq)
  have hpairwise := List.pairwise_iff_getElem.mp hnest.order
  obtain ⟨hi, hpi⟩ := List.getElem?_eq_some_iff.mp hp
  obtain ⟨hj, hqj⟩ := List.getElem?_eq_some_iff.mp hq
  -- the body of `h` is not in the try block of its own section
  have hout : q.instructions.contains h.instructions.start = false := by
    by_contra htry
    rw [hwq.tryApart _ (by simpa using htry) h hh] at hbody
    cases hbody
  have hcov : q.Covers h.instructions.start := Or.inr ⟨h, hh, hbody⟩
  constructor
  · intro hlies
    by_contra hge
    rcases Nat.lt_or_eq_of_le (Nat.le_of_not_lt hge) with hlt | rfl
    · have hqp := hpairwise j i hj hi hlt
      rw [hpi, hqj] at hqp
      obtain hin | ⟨g, hg, hin⟩ | hap := hqp
      · have hback := hlies _ (Or.inl (hin _ hcov))
        rw [hout] at hback
        cases hback
      · have hgip := hin ip (Or.inl hiq)
        rw [hwp.tryApart ip hip g hg] at hgip
        cases hgip
      · exact hap ip (Or.inl hiq) (Or.inl hip)
    · obtain rfl : p = q := some.inj (hp.symm.trans hq)
      have hback := hlies _ hcov
      rw [hout] at hback
      cases hback
  · intro hlt
    have hpq := hpairwise i j hi hj hlt
    rw [hpi, hqj] at hpq
    obtain hin | ⟨g, hg, hin⟩ | hap := hpq
    · exact hin
    · have hgip := hin ip (Or.inl hip)
      rw [hwq.tryApart ip hiq g hg] at hgip
      cases hgip
    · exact absurd (Or.inl hiq) (hap ip (Or.inl hip))

structure CatchesAt (frames : List (StackFrame Ty)) (addr : HandlerAddress) (f : StackFrame Ty)
    (q : ProtectedSection Ty) (h : Handler Ty) : Prop where
  frame : frames[addr.frameIndex]? = some f
  inSection : f.info.exceptions[addr.sectionIndex]? = some q
  protects : q.instructions.contains f.ip = true
  handler : q.handlers[addr.handlerIndex]? = some h
  body : h.instructions.contains h.instructions.start = true

section

variable (frames : List (StackFrame Ty))

def LeftFor (addr : HandlerAddress) (q : ProtectedSection Ty)
    (n : Nat) (p : ProtectedSection Ty) : Prop :=
  ∃ (f : StackFrame Ty) (i : Nat), frames[n]? = some f ∧ f.info.exceptions[i]? = some p ∧
    p.instructions.contains f.ip = true ∧
    (addr.frameIndex < n ∨ n = addr.frameIndex ∧ p.LiesIn q)

lemma leavesSection_handler {frames : List (StackFrame Ty)} {g : StackFrame Ty} {i : Nat}
    (hc : CatchesAt frames addr f q h) (hnest : ProperlyNested f.info.exceptions)
    (hg : frames[n]? = some g)
    (hp : g.info.exceptions[i]? = some p) (hle : addr.frameIndex ≤ n) :
    leavesSection (.handler addr) n i g.ip p = true ↔ p.instructions.contains g.ip = true ∧
      (addr.frameIndex < n ∨ n = addr.frameIndex ∧ p.LiesIn q) := by
  simp only [leavesSection, stopsBefore, UnwindTarget.outside, Bool.and_true, Bool.and_eq_true,
    Bool.not_eq_true', Bool.and_eq_false_iff, beq_eq_false_iff_ne, decide_eq_false_iff_not,
    not_le]
  rw [and_comm]
  refine and_congr_right fun hip => ?_
  rcases Nat.lt_or_eq_of_le hle with hlt | rfl
  · constructor
    · exact fun _ => Or.inl hlt
    · exact fun _ => Or.inl (by omega)
  · obtain rfl : f = g := some.inj (hc.frame.symm.trans hg)
    have hiff := liesIn_iff_lt hnest hp hc.inSection hip hc.protects
      (mem_of_getElem? hc.handler) hc.body
    simp only [ne_eq, not_true_eq_false, false_or, lt_irrefl, true_and]
    exact hiff.symm

def HandedOver (x : ObjectRef) (addr : HandlerAddress)
    (f : StackFrame Ty) (h : Handler Ty) (t : ThreadContext Ty) : Prop :=
  t.exceptionMode = .none ∧ ∃ g, t.frames = frames.take addr.frameIndex ++ [g] ∧ g.info = f.info ∧
    g.base = f.base ∧ g.ip = h.instructions.start ∧ g.stackHeight = 1 ∧
    t.stack.drop g.base.stack = [.objectRef x]

lemma enterHandler_handedOver {g g₀ : StackFrame Ty} (hc : CatchesAt s₀.frames addr f q h)
    (hd : DownTo s₀ u low addr.frameIndex s g g₀) :
    ∃ t, enterHandler s (some x) addr = .ok (.exception, t) ∧
      HandedOver s₀.frames x addr f h t := by
  obtain rfl : f = g₀ := some.inj (hc.frame.symm.trans hd.frame)
  have hlt := (List.getElem?_eq_some_iff.mp hc.frame).1
  have hlen : (s₀.frames.take addr.frameIndex).length = addr.frameIndex := by
    rw [length_take]; omega
  have hget : s.frames[addr.frameIndex]? = some g := by
    rw [hd.frames, getElem?_append_right (by omega), hlen, Nat.sub_self]
    rfl
  simp only [enterHandler, hget, hd.info, hc.inSection, hc.handler]
  refine ⟨_, rfl, rfl, { g with
    ip := h.instructions.start
    stackHeight := 1
    exceptionStack := x :: g.exceptionStack }, ?_, hd.info, hd.base, rfl, rfl, ?_⟩
  · have hspl := modify_split (s₀.frames.take addr.frameIndex) g [] fun f =>
      { f with
        ip := h.instructions.start
        stackHeight := 0
        exceptionStack := x :: f.exceptionStack }
    rw [hlen] at hspl
    simp [ThreadContext.push, ThreadContext.truncate, modifyFrame,
      setMode, hd.frames, hspl]
  · have hsl := hd.slots
    simp only [ThreadContext.push, ThreadContext.truncate, modifyFrame,
      setMode]
    rw [drop_append_of_le_length (by rw [length_take]; omega),
      drop_eq_nil_of_le (by rw [length_take]; omega), nil_append]

def OneCleanupEach (addr : HandlerAddress) (q : ProtectedSection Ty) (made : Bool) : Prop :=
  (∀ n p, LeftFor frames addr q n p →
    p.handlers.Pairwise fun h h' => h.kind.isCatchOrFilter = true ∨
      h'.kind.isCatchOrFilter = true) ∧
  (made = true → ∀ n f, addr.frameIndex < n → frames[n]? = some f → f.info.isCctor = false)

end

lemma shouldRun_some (x : ObjectRef) (k : HandlerKind Ty) :
    k.shouldRun (some x) = !k.isCatchOrFilter := by
  cases k <;> rfl

lemma runsAll_handler {hs : List (Handler Ty)} : RunsAll (.handler addr) (some x) hs ↔
    hs.Pairwise fun h h' => h.kind.isCatchOrFilter = true ∨ h'.kind.isCatchOrFilter = true := by
  refine List.Pairwise.iff fun h h' => ?_
  simp only [shouldRun_some, resumesSection]
  cases h.kind.isCatchOrFilter <;> simp

/-- What the unwind to the handler at `addr` starts from: the frames down to that of the handler
have properly nested sections, and the slots of each frame lie above those of its caller. -/
structure UnwindsTo (s₀ : ThreadContext Ty) (x : ObjectRef) (addr : HandlerAddress)
    (f : StackFrame Ty)
    (q : ProtectedSection Ty) (h : Handler Ty) : Prop where
  mode : s₀.exceptionMode = .unwinding (unwindToHandler s₀ x addr)
  catches : CatchesAt s₀.frames addr f q h
  nested : ∀ n g, addr.frameIndex ≤ n → s₀.frames[n]? = some g → ProperlyNested g.info.exceptions
  bases : ∀ n f g, s₀.frames[n]? = some f → s₀.frames[n + 1]? = some g →
    f.base.stack ≤ g.base.arguments ∧ g.base.arguments ≤ g.base.stack
  slots : ∀ g ∈ s₀.frames.getLast?, g.base.stack ≤ s₀.stack.length

section

variable (hu : UnwindsTo s₀ x addr f q h) (htop : s₀.frames.length = top + 1)
include hu

lemma UnwindsTo.unwindable :
    Unwindable (unwindToHandler s₀ x addr).target addr.frameIndex s₀.frames :=
  ⟨hu.nested, fun _ _ _ _ _ ht => (by cases ht), fun n f g _ hf hg => hu.bases n f g hf hg⟩

lemma UnwindsTo.leavesSection {g : StackFrame Ty} {i : Nat} (hg : s₀.frames[n]? = some g)
    (hp : g.info.exceptions[i]? = some p) (hle : addr.frameIndex ≤ n) :
    leavesSection (.handler addr) n i g.ip p = true ↔ p.instructions.contains g.ip = true ∧
      (addr.frameIndex < n ∨ n = addr.frameIndex ∧ p.LiesIn q) :=
  leavesSection_handler hu.catches (hu.nested _ f le_rfl hu.catches.frame) hg hp hle

include htop

lemma UnwindsTo.le_top : addr.frameIndex ≤ top := by
  have hlt := (List.getElem?_eq_some_iff.mp hu.catches.frame).1
  omega

lemma UnwindsTo.start (offers : Option ObjectRef → Prop) :
    PassInvariant offers s₀ (unwindToHandler s₀ x addr) addr.frameIndex top [] s₀
      (unwindToHandler s₀ x addr) := by
  obtain ⟨g, hg⟩ : ∃ g, s₀.frames[top]? = some g := ⟨_, getElem?_eq_getElem (by omega)⟩
  refine PassInvariant.start htop hu.mode ?_ rfl (hu.le_top htop) hg (hu.slots g ?_)
  · simp [unwindToHandler, htop]
  · rw [getLast?_eq_getElem?, htop]
    exact hg

/-- The plan asks for every cleanup handler exactly if no section is cut short. -/
lemma UnwindsTo.planned_eq_asked : planned s₀ (unwindToHandler s₀ x addr) addr.frameIndex top =
      framesDown addr.frameIndex (askedFrame (.handler addr) (some x) s₀.frames) top ↔
    ∀ n p, LeftFor s₀.frames addr q n p → p.handlers.Pairwise fun h h' =>
      h.kind.isCatchOrFilter = true ∨ h'.kind.isCatchOrFilter = true := by
  refine (framesDown_eq_iff (plannedFrame_sublist (.handler addr) (some x) s₀.frames)
    (hu.le_top htop)).trans ?_
  constructor
  · rintro hall n p ⟨g, i, hg, hp, hip, hleft⟩
    have hle : addr.frameIndex ≤ n := by omega
    have hn := (List.getElem?_eq_some_iff.mp hg).1
    have hfr := plannedFrame_eq_asked.mp (hall n hle (by omega)) g i p hg hp
    exact runsAll_handler.mp (hfr ((hu.leavesSection hg hp hle).mpr ⟨hip, hleft⟩))
  · intro hall n hle _
    refine plannedFrame_eq_asked.mpr fun g i p hg hp hl => runsAll_handler.mpr ?_
    obtain ⟨hip, hleft⟩ := (hu.leavesSection hg hp hle).mp hl
    exact hall n p ⟨g, i, hg, hp, hip, hleft⟩

lemma UnwindsTo.mem_asked {a : HandlerAddress} :
    a ∈ framesDown addr.frameIndex (askedFrame (.handler addr) (some x) s₀.frames) top ↔
      ∃ g p k, s₀.frames[a.frameIndex]? = some g ∧
        g.info.exceptions[a.sectionIndex]? = some p ∧ p.handlers[a.handlerIndex]? = some k ∧
        k.kind.isCatchOrFilter = false ∧ p.instructions.contains g.ip = true ∧
        (addr.frameIndex < a.frameIndex ∨ a.frameIndex = addr.frameIndex ∧ p.LiesIn q) := by
  rw [mem_framesDown (hu.le_top htop)]
  constructor
  · rintro ⟨m, hle, _, ha⟩
    obtain ⟨rfl, g, p, k, hg, hp, hl, hk, hrun⟩ := mem_askedFrame.mp ha
    obtain ⟨hip, hleft⟩ := (hu.leavesSection hg hp hle).mp hl
    exact ⟨g, p, k, hg, hp, hk, by simpa [shouldRun_some] using hrun, hip, hleft⟩
  · rintro ⟨g, p, k, hg, hp, hk, hkind, hip, hleft⟩
    have hle : addr.frameIndex ≤ a.frameIndex := by omega
    have hn := (List.getElem?_eq_some_iff.mp hg).1
    refine ⟨a.frameIndex, hle, by omega, mem_askedFrame.mpr ⟨rfl, g, p, k, hg, hp, ?_, hk, ?_⟩⟩
    · exact (hu.leavesSection hg hp hle).mpr ⟨hip, hleft⟩
    · simp [shouldRun_some, hkind]

end

/-- The second pass of an exception that is unwound to the handler at `addr`, in a disciplined run.
The finally and fault handlers of the sections it leaves, frames from the top, inner sections first,
are the list `asked`. When it is over, it has run exactly these and handed the exception to its
handler if and only if none of these sections has two cleanup handlers and no static constructor was
unwound. -/
theorem second_pass_runs_cleanup (host : Host Ty) (s₀ : ThreadContext Ty) (a₀ : Activations Ty)
    (x : ObjectRef) (addr : HandlerAddress) (f : StackFrame Ty) (q : ProtectedSection Ty)
    (h : Handler Ty) (made : Bool) (hrun : TrackedRun host Disciplined s₀ a₀)
    (hu : UnwindsTo s₀ x addr f q h) :
    ∃ asked : List HandlerAddress, asked.Pairwise HandlerAddress.Precedes ∧
      (∀ a, a ∈ asked ↔ ∃ g p k, s₀.frames[a.frameIndex]? = some g ∧
        g.info.exceptions[a.sectionIndex]? = some p ∧ p.handlers[a.handlerIndex]? = some k ∧
        k.kind.isCatchOrFilter = false ∧ p.instructions.contains g.ip = true ∧
        (addr.frameIndex < a.frameIndex ∨ a.frameIndex = addr.frameIndex ∧ p.LiesIn q)) ∧
      ∀ ran p u a, SecondPass host (fun typeInit => typeInit.isSome = made) (s₀, a₀)
          (unwindToHandler s₀ x addr) ran p u → a.typeInitialization.isSome = made →
        (∃ s' e, unwindWalk u a.typeInitialization p.1 = .ok (.entered s' e) ∧
          (OneCleanupEach s₀.frames addr q made → (ran.map Prod.fst ++ [e.addr]).IsPrefix asked)) ∨
        ((ran.map Prod.fst = asked ∧ ∃ t, step host p.1 (.dispatch a) = .ok t ∧
          HandedOver s₀.frames x addr f h t) ↔ OneCleanupEach s₀.frames addr q made) := by
  obtain ⟨top, htop⟩ : ∃ top, s₀.frames.length = top + 1 := by
    have hlt := (List.getElem?_eq_some_iff.mp hu.catches.frame).1
    exact ⟨s₀.frames.length - 1, by omega⟩
  have hplan := hu.planned_eq_asked htop
  refine ⟨framesDown addr.frameIndex (askedFrame (.handler addr) (some x) s₀.frames) top,
    pairwise_askedFrames _ _ _ _ _, fun a => hu.mem_asked htop, ?_⟩
  rintro ran ⟨s, as⟩ u a hpass hmade
  have hi := hpass.invariant hu.unwindable (Coherent.run hrun) (hu.start htop _)
  have hmd : s.exceptionMode = .unwinding u := by
    obtain ⟨_, hpos, _⟩ := hi.exists_rem
    exact hpos.mode
  rcases hi.goes_on _ hu.unwindable hmade with ⟨s', e, hwalk, hprefix⟩ |
      ⟨s', y, p, hwalk, hthrow, n, g, hn, hle, hg, hwrap⟩ | ⟨s', g, g₀, hwalk, hran, hd, _, hcalm⟩
  · left
    refine ⟨s', e, hwalk, fun hone => ?_⟩
    rwa [hplan.mpr hone.1] at hprefix
  · -- a static constructor's failure is wrapped and thrown anew
    right
    constructor
    · rintro ⟨_, t, hst, hdone, _⟩
      obtain rfl := Except.ok.inj ((step_raised hmd hwalk).symm.trans hst)
      rw [hthrow] at hdone
      cases hdone
    · intro hone
      obtain ⟨hcc, _, hsome⟩ := hwrap
      rw [hone.2 (hmade.symm.trans hsome) n g hn hg] at hcc
      cases hcc
  · right
    have hexc : u.exception = some x := hi.exception
    have htgt : u.target = .handler addr := hi.target
    obtain ⟨t, henter, hdone⟩ := enterHandler_handedOver (x := x) hu.catches hd
    have hst : step host s (.dispatch a) = .ok t := by
      have hunw : unwind s u a.typeInitialization = .ok (.exception, t) := by
        simp only [unwind, hwalk, htgt, hexc, henter]
      exact step_unwinding hmd hunw
    constructor
    · rintro ⟨hasked, _⟩
      refine ⟨hplan.mp (hran.symm.trans hasked), fun hmade' n g hn hg => ?_⟩
      have hlt := (List.getElem?_eq_some_iff.mp hg).1
      obtain ⟨typeInit, hof, hqt⟩ := hcalm n g hn (by omega) hg
      by_contra hcc
      exact hqt ⟨by simpa using hcc, rfl, hof.trans hmade'⟩
    · intro hone
      exact ⟨hran.trans (hplan.mpr hone.1), t, hst, hdone⟩

def finallyInCatch : MethodInfo Unit where
  instructions := [.op, .endFinally, .leave (.short 3), .ret]
  exceptions := [⟨⟨0, 1⟩, [⟨⟨1, 2⟩, .finallyClause⟩]⟩, ⟨⟨0, 2⟩, [⟨⟨2, 3⟩, .catchClause ()⟩]⟩]

lemma properlyNested_finallyInCatch : ProperlyNested finallyInCatch.exceptions := by
  constructor
  · simp only [finallyInCatch, mem_cons, not_mem_nil, or_false, forall_eq_or_imp, forall_eq]
    refine ⟨⟨fun ip hip => ?_, by simp⟩, ⟨fun ip hip => ?_, by simp⟩⟩
    all_goals
      simp [Range.contains] at hip ⊢
      omega
  · simp only [finallyInCatch, pairwise_cons, mem_cons, not_mem_nil, or_false,
      forall_eq]
    simp only [false_implies, implies_true, Pairwise.nil, and_true]
    left
    rintro ip (hip | ⟨h, hh, hip⟩)
    · simp [Range.contains] at hip ⊢
      omega
    · obtain rfl : h = ⟨⟨1, 2⟩, .finallyClause⟩ := by simpa using hh
      simp [Range.contains] at hip ⊢
      omega

def finallyInCatchUnwinding : ThreadContext Unit :=
  { entrypoint finallyInCatch [] with
    exceptionMode := .unwinding ⟨some (some 1), .handler ⟨0, 1, 0⟩, ⟨0, 0, 0⟩, none⟩ }

/-- The unwind, and the handler it comes to. -/
def finallyInCatchUnwind : UnwindState := ⟨some (some 1), .handler ⟨0, 1, 0⟩, ⟨0, 0, 0⟩, none⟩

def finallyInCatchEntry : CleanupEntry Unit :=
  ⟨⟨0, 0, 0⟩, ⟨⟨1, 2⟩, .finallyClause⟩, ⟨0, 1, 0⟩⟩

/-- Its finally handler is entered. -/
def finallyInCatchEntered : ThreadContext Unit :=
  enterCleanup finallyInCatchUnwind finallyInCatchUnwinding finallyInCatchEntry

def finallyInCatchBody : Activation Unit :=
  ⟨⟨0, 0, 0⟩, ⟨1, 2⟩,
    .cleanup { finallyInCatchUnwind with cursor := finallyInCatchEntry.next } false⟩

/-- Its finally handler has run. -/
def finallyInCatchResumed : ThreadContext Unit :=
  { finallyInCatchUnwinding with
    frames := [{ StackFrame.new ⟨0, 0, 0⟩ finallyInCatch with ip := 1 }]
    originalIp := 1
    exceptionMode := .unwinding { finallyInCatchUnwind with cursor := finallyInCatchEntry.next } }

lemma finallyInCatch_unwinds : TrackedRun unitHost Disciplined finallyInCatchUnwinding ⟨[], []⟩ :=
  TrackedRun.of_guarded finallyInCatch [] [.dispatch { result := .raise (some 1) }, .dispatch {},
    .dispatch {}] (by decide) rfl

lemma finallyInCatch_pass : SecondPass unitHost (fun typeInit => typeInit.isSome = false)
    (finallyInCatchUnwinding, ⟨[], []⟩) finallyInCatchUnwind [(⟨0, 0, 0⟩, 0)]
    (finallyInCatchResumed, ⟨[], []⟩)
    { finallyInCatchUnwind with cursor := finallyInCatchEntry.next } := by
  have hwalk : unwindWalk finallyInCatchUnwind ({} : Effects Unit).typeInitialization
      finallyInCatchUnwinding = .ok (.entered finallyInCatchUnwinding finallyInCatchEntry) := rfl
  have henter : trackedNext unitHost (finallyInCatchUnwinding, ⟨[], []⟩) (.dispatch {}) =
      some (finallyInCatchEntered, ⟨[finallyInCatchBody], []⟩) := rfl
  have hbody : CompletesBody unitHost finallyInCatchEntry
      (finallyInCatchEntered, ⟨[finallyInCatchBody], []⟩)
      (finallyInCatchEntered, ⟨[finallyInCatchBody], []⟩) 0 :=
    ⟨Runs.Run.refl, rfl, rfl, rfl, [], _, _, rfl, rfl, rfl, rfl, ⟨rfl, rfl⟩, rfl⟩
  have hend : trackedNext unitHost (finallyInCatchEntered, ⟨[finallyInCatchBody], []⟩)
      (.dispatch {}) = some (finallyInCatchResumed, ⟨[], []⟩) := rfl
  refine SecondPass.body .start ?_ hwalk henter hbody hend
  rfl

/-- The finally handler runs, and the exception goes to its catch handler. -/
theorem finallyInCatch_handedOver :
    ∃ t, step unitHost finallyInCatchResumed (.dispatch {}) = .ok t ∧
    HandedOver finallyInCatchUnwinding.frames (some 1) ⟨0, 1, 0⟩
      (StackFrame.new ⟨0, 0, 0⟩ finallyInCatch) ⟨⟨2, 3⟩, .catchClause ()⟩ t := by
  have hfr : ∀ (n : Nat) (g : StackFrame Unit), finallyInCatchUnwinding.frames[n]? = some g →
      g = StackFrame.new ⟨0, 0, 0⟩ finallyInCatch := by
    intro n g hg
    cases n with
    | zero => exact (some.inj hg).symm
    | succ n => cases hg
  have hu : UnwindsTo finallyInCatchUnwinding (some 1) ⟨0, 1, 0⟩
      (StackFrame.new ⟨0, 0, 0⟩ finallyInCatch) ⟨⟨0, 2⟩, [⟨⟨2, 3⟩, .catchClause ()⟩]⟩
      ⟨⟨2, 3⟩, .catchClause ()⟩ := by
    refine ⟨rfl, ⟨rfl, rfl, rfl, rfl, rfl⟩, fun n g _ hg => ?_, fun n f g _ hg => ?_, by decide⟩
    · rw [hfr n g hg]
      exact properlyNested_finallyInCatch
    · cases n <;> cases hg
  obtain ⟨asked, _, _, hall⟩ := second_pass_runs_cleanup unitHost finallyInCatchUnwinding ⟨[], []⟩
    (some 1) ⟨0, 1, 0⟩ _ _ _ false finallyInCatch_unwinds hu
  have hone : OneCleanupEach finallyInCatchUnwinding.frames ⟨0, 1, 0⟩
      ⟨⟨0, 2⟩, [⟨⟨2, 3⟩, .catchClause ()⟩]⟩ false := by
    refine ⟨?_, by simp⟩
    rintro n p ⟨f, i, hf, hp, _⟩
    rw [hfr n f hf] at hp
    match i with
    | 0 | 1 => obtain rfl := some.inj hp; simp
    | i + 2 => cases hp
  rcases hall _ _ _ {} finallyInCatch_pass rfl with ⟨s', e, hwalk, _⟩ | hiff
  · cases hwalk
  · exact (hiff.mpr hone).2

def twoFinallyInCatch : MethodInfo Unit where
  instructions := [.op, .endFinally, .endFinally, .leave (.short 4), .ret]
  exceptions := [⟨⟨0, 1⟩, [⟨⟨1, 2⟩, .finallyClause⟩, ⟨⟨2, 3⟩, .finallyClause⟩]⟩,
    ⟨⟨0, 3⟩, [⟨⟨3, 4⟩, .catchClause ()⟩]⟩]

/-- The `endfinally` of the first finally handler of the inner section goes to the catch handler.
The second one, strictly inside the section of the catch handler, never runs. -/
theorem second_finally_skipped : ∃ s₀ t, Runs.exec (next unitHost) (entrypoint twoFinallyInCatch [])
      [.dispatch { result := .raise (some 1) }, .dispatch {}, .dispatch {}] = some s₀ ∧
    s₀.exceptionMode = .unwinding (unwindToHandler s₀ (some 1) ⟨0, 1, 0⟩) ∧
    Runs.exec (next unitHost) s₀ [.dispatch {}, .dispatch {}, .dispatch {}] = some t ∧
    (∃ s e, unwindWalk (unwindToHandler s₀ (some 1) ⟨0, 1, 0⟩) none s₀ = .ok (.entered s e) ∧
      e.addr = ⟨0, 0, 0⟩) ∧
    HandedOver s₀.frames (some 1) ⟨0, 1, 0⟩ (StackFrame.new ⟨0, 0, 0⟩ twoFinallyInCatch)
      ⟨⟨3, 4⟩, .catchClause ()⟩ t ∧
    ∃ p : ProtectedSection Unit, LeftFor s₀.frames ⟨0, 1, 0⟩
        ⟨⟨0, 3⟩, [⟨⟨3, 4⟩, .catchClause ()⟩]⟩ 0 p ∧
      p.handlers[1]? = some ⟨⟨2, 3⟩, .finallyClause⟩ := by
  refine ⟨_, _, rfl, rfl, rfl, ⟨_, _, rfl, rfl⟩, ⟨rfl, _, rfl, rfl, rfl, rfl, rfl, rfl⟩, _,
    ⟨_, 0, rfl, rfl, rfl, Or.inr ⟨rfl, ?_⟩⟩, rfl⟩
  rintro ip (hip | ⟨h, hh, hip⟩)
  · simp [Range.contains] at hip ⊢
    omega
  · have hcs : h = ⟨⟨1, 2⟩, .finallyClause⟩ ∨ h = ⟨⟨2, 3⟩, .finallyClause⟩ := by
      simpa using hh
    rcases hcs with rfl | rfl <;> simp [Range.contains] at hip ⊢ <;> omega

end ToHandler

section Leaving

variable {init : List (StackFrame Ty)} {f : StackFrame Ty} {dest : JumpTarget}

/-- The unwind a `leave` in frame `n` starts. -/
def leaveUnwind (n : Nat) (dest : JumpTarget) : UnwindState where
  exception := none
  target := .instruction dest
  cursor := .startOf n
  nestedFilter := none

def ContinuesAt (init : List (StackFrame Ty)) (f : StackFrame Ty) (ip : Nat)
    (t : ThreadContext Ty) : Prop :=
  t.exceptionMode.isNormal = true ∧ ∃ g, t.frames = init ++ [g] ∧ g.info = f.info ∧
    g.base = f.base ∧ g.ip = ip ∧ g.stackHeight = 0 ∧ t.stack.length = g.base.stack

lemma arriveAt_concat {g : StackFrame Ty} (ip : Nat) (hs : s.frames = init ++ [g]) :
    ∃ t, arriveAt s init.length ip = .ok (.exception, t) ∧ t.exceptionMode.isNormal = true ∧
      t.frames = init ++ [{ g with ip := ip, stackHeight := 0 }] ∧ t.stack = s.stack := by
  have hlt : init.length < s.frames.length := by simp [hs]
  simp only [arriveAt, if_pos hlt]
  refine ⟨_, rfl, ?_, ?_, rfl⟩
  · split <;> rfl
  · simp only [hs]
    exact modify_split init g [] _

lemma shouldRun_none {k : HandlerKind Ty} : k.shouldRun none = true ↔ k = .finallyClause := by
  cases k <;> simp [HandlerKind.shouldRun]

lemma runsAll_instruction {hs : List (Handler Ty)} {ip : Nat} :
    RunsAll (.instruction ip) none hs ↔ hs.Pairwise fun h h' => h.kind = .finallyClause →
      h'.kind = .finallyClause → h.instructions.contains ip = false := by
  refine List.Pairwise.iff fun h h' => ?_
  simp [shouldRun_none, resumesSection]

/-- Neither the frame nor a body has left operands, and no section that is left has its target in a
finally body that another one follows. -/
def LeavesNothing (f : StackFrame Ty) (ip : Nat) (ran : List (HandlerAddress × Nat)) : Prop :=
  f.stackHeight = 0 ∧ (∀ r ∈ ran, r.2 = 0) ∧
    ∀ p ∈ f.info.exceptions, p.instructions.contains f.ip = true →
      p.instructions.contains ip = false → p.handlers.Pairwise fun h h' =>
        h.kind = .finallyClause → h'.kind = .finallyClause → h.instructions.contains ip = false

/-- A frame that is about to execute a `leave` to `dest`, in an instruction that lies in no handler
of its properly nested sections. -/
structure ExecutesLeave (s₀ : ThreadContext Ty) (init : List (StackFrame Ty)) (f : StackFrame Ty)
    (dest : JumpTarget) : Prop where
  frames : s₀.frames = init ++ [f]
  executes : Executes f (.leave dest)
  normal : s₀.exceptionMode.isNormal = true
  nested : ProperlyNested f.info.exceptions
  free : ∀ p ∈ f.info.exceptions, ∀ h ∈ p.handlers, h.instructions.contains f.ip = false
  height : s₀.stack.length = f.base.stack + f.stackHeight

section

variable {s₁ : ThreadContext Ty}

lemma ExecutesLeave.left (hl : ExecutesLeave s₀ init f dest) {x : Effects Ty}
    (hstep : step host s₀ (.dispatch x) = .ok s₁) : s₁.frames = init ++ [f] ∧
      s₁.stack = s₀.stack ∧ s₁.exceptionMode = .unwinding (leaveUnwind init.length dest) := by
  have hleave : s₁ = leave (snapshot s₀ f) dest := by
    rcases step_dispatch_cases hstep with ⟨_, init', f', hs', h⟩ | ⟨hm, _⟩
    · obtain ⟨_, rfl⟩ := append_singleton_inj.mp (hl.frames.symm.trans hs')
      exact h.leavesHandler hl.executes
    · rw [hl.normal] at hm
      cases hm
  rw [hleave]
  exact ⟨hl.frames, rfl, by simp [leave, leaveUnwind, hl.frames]⟩

variable (hfs : s₁.frames = init ++ [f])
include hfs

lemma frame_of_le_init {g : StackFrame Ty} (hle : init.length ≤ n) (hg : s₁.frames[n]? = some g) :
    n = init.length ∧ g = f := by
  have hlt := (List.getElem?_eq_some_iff.mp hg).1
  rw [hfs, length_append, length_singleton] at hlt
  obtain rfl : n = init.length := by omega
  rw [hfs, getElem?_append_right le_rfl, Nat.sub_self] at hg
  exact ⟨rfl, (some.inj hg).symm⟩

lemma ExecutesLeave.unwindable (hl : ExecutesLeave s₀ init f dest) :
    Unwindable (leaveUnwind init.length dest).target init.length s₁.frames := by
  refine ⟨fun n g hle hg => ?_, fun n g hle hg t _ => ?_, fun n g g' hle _ hg' => ?_⟩
  · obtain ⟨_, rfl⟩ := frame_of_le_init hfs hle hg
    exact hl.nested
  · obtain ⟨_, rfl⟩ := frame_of_le_init hfs hle hg
    exact hl.free
  · obtain ⟨h, _⟩ := frame_of_le_init hfs (by omega) hg'
    omega

omit hfs in
lemma leavesSection_instruction {i ip : Nat} {p : ProtectedSection Ty} :
    leavesSection (.instruction ip) n i f.ip p = true ↔
      p.instructions.contains f.ip = true ∧ p.instructions.contains ip = false := by
  simp [leavesSection, stopsBefore, UnwindTarget.outside]

variable (dest) in
lemma planned_leave_eq_asked : planned s₁ (leaveUnwind init.length dest) init.length init.length =
      framesDown init.length (askedFrame (.instruction dest) none s₁.frames) init.length ↔
    ∀ p ∈ f.info.exceptions, p.instructions.contains f.ip = true →
      p.instructions.contains dest = false → p.handlers.Pairwise fun h h' =>
        h.kind = .finallyClause → h'.kind = .finallyClause →
          h.instructions.contains dest = false := by
  have hget : s₁.frames[init.length]? = some f := by rw [hfs]; simp
  refine (framesDown_eq_iff (plannedFrame_sublist (.instruction dest) none s₁.frames)
    le_rfl).trans ?_
  constructor
  · intro hall p hp hip hdest
    obtain ⟨i, hi⟩ := mem_iff_getElem?.mp hp
    have hfr := plannedFrame_eq_asked.mp (hall _ le_rfl le_rfl) f i p hget hi
    exact runsAll_instruction.mp (hfr (leavesSection_instruction.mpr ⟨hip, hdest⟩))
  · intro hall n hle _
    refine plannedFrame_eq_asked.mpr fun g i p hg hp hl => runsAll_instruction.mpr ?_
    obtain ⟨rfl, rfl⟩ := frame_of_le_init hfs hle hg
    obtain ⟨hip, hdest⟩ := leavesSection_instruction.mp hl
    exact hall p (mem_of_getElem? hp) hip hdest

lemma mem_asked_leave {a : HandlerAddress} :
    a ∈ framesDown init.length (askedFrame (.instruction dest) none s₁.frames) init.length ↔
      a.frameIndex = init.length ∧ ∃ p h,
        f.info.exceptions[a.sectionIndex]? = some p ∧ p.handlers[a.handlerIndex]? = some h ∧
        h.kind = .finallyClause ∧ p.instructions.contains f.ip = true ∧
        p.instructions.contains dest = false := by
  have hget : s₁.frames[init.length]? = some f := by rw [hfs]; simp
  rw [mem_framesDown le_rfl]
  constructor
  · rintro ⟨m, hle, _, ha⟩
    obtain ⟨hm, g, p, h, hg, hp, hl, hh, hrun⟩ := mem_askedFrame.mp ha
    obtain ⟨rfl, rfl⟩ := frame_of_le_init hfs hle hg
    obtain ⟨hip, hdest⟩ := leavesSection_instruction.mp hl
    exact ⟨hm, p, h, hp, hh, shouldRun_none.mp hrun, hip, hdest⟩
  · rintro ⟨hm, p, h, hp, hh, hkind, hip, hdest⟩
    refine ⟨init.length, le_rfl, le_rfl, mem_askedFrame.mpr ⟨hm, f, p, h, hget, hp, ?_, hh, ?_⟩⟩
    · exact leavesSection_instruction.mpr ⟨hip, hdest⟩
    · exact shouldRun_none.mpr hkind

variable (host) in
/-- The arrival at the destination keeps the operands of the frame and those the bodies left. -/
lemma PassInvariant.arrives {g g₀ : StackFrame Ty} {ran : List (HandlerAddress × Nat)}
    {offers : Option ObjectRef → Prop} {x : Effects Ty}
    (hi : PassInvariant offers s₁ (leaveUnwind init.length dest) init.length init.length ran s u)
    (hwalk : unwindWalk u x.typeInitialization s = .ok (.arrived s))
    (hd : DownTo s₁ u init.length init.length s g g₀) :
    ∃ t, step host s (.dispatch x) = .ok t ∧ t.exceptionMode.isNormal = true ∧
      t.frames = init ++ [{ g with ip := dest, stackHeight := 0 }] ∧ g.info = f.info ∧
      g.base = f.base ∧ t.stack.length = s₁.stack.length + (ran.map Prod.snd).sum := by
  have hget : s₁.frames[init.length]? = some f := by rw [hfs]; simp
  obtain rfl : f = g₀ := some.inj (hget.symm.trans hd.frame)
  have hs : s.frames = init ++ [g] := by rw [hd.frames, hfs, take_left]
  obtain ⟨t, harr, hnormal, hfs', hstk⟩ := arriveAt_concat dest hs
  have htgt : u.target = .instruction dest := hi.target
  have hlow : u.targetFrame = init.length := by
    obtain ⟨_, hpos, _⟩ := hi.exists_rem
    exact hpos.targetFrame
  have hunw : unwind s u x.typeInitialization = .ok (.exception, t) := by
    simp only [unwind, hwalk, htgt, hlow, if_neg (ne_of_lt dest.2), harr]
  exact ⟨t, step_unwinding hd.mode hunw, hnormal, hfs', hd.info, hd.base,
    by rw [hstk, hi.slots rfl]⟩

end

/-- A `leave` to `dest` out of an instruction in no handler, in a disciplined run. The finally
handlers of the sections that protect the instruction and not `dest`, inner sections first, are the
list `asked`. When the leave is over, exactly these have run and execution continues at `dest` with
no operands if and only if neither the frame nor a body had operands left and `dest` lies in no
finally body that is run before another one of its section. -/
theorem leave_runs_finally (host : Host Ty) (s₀ : ThreadContext Ty) (a₀ : Activations Ty)
    (p₁ : ThreadContext Ty × Activations Ty) (init : List (StackFrame Ty)) (f : StackFrame Ty)
    (dest : JumpTarget) (e : Effects Ty) (hrun : TrackedRun host Disciplined s₀ a₀)
    (hl : ExecutesLeave s₀ init f dest) (hdisc : Disciplined (s₀, a₀) (.dispatch e))
    (hstep : trackedNext host (s₀, a₀) (.dispatch e) = some p₁) :
    ∃ asked : List HandlerAddress, asked.Pairwise HandlerAddress.Precedes ∧
      (∀ a, a ∈ asked ↔ a.frameIndex = init.length ∧ ∃ p h,
        f.info.exceptions[a.sectionIndex]? = some p ∧ p.handlers[a.handlerIndex]? = some h ∧
        h.kind = .finallyClause ∧ p.instructions.contains f.ip = true ∧
        p.instructions.contains dest = false) ∧
      ∀ ran p u a, SecondPass host (fun _ => True) p₁ (leaveUnwind init.length dest) ran p u →
        (∃ s' e, unwindWalk u a.typeInitialization p.1 = .ok (.entered s' e) ∧
          (LeavesNothing f dest ran → (ran.map Prod.fst ++ [e.addr]).IsPrefix asked)) ∨
        ((ran.map Prod.fst = asked ∧ ∃ t, step host p.1 (.dispatch a) = .ok t ∧
          ContinuesAt init f dest t) ↔ LeavesNothing f dest ran) := by
  obtain ⟨hst, hp₁⟩ := trackedNext_eq_some.mp hstep
  obtain ⟨hfs, hstk, hmd⟩ := hl.left hst
  have hu := hl.unwindable hfs
  have hplan := planned_leave_eq_asked dest hfs
  have hheight := hl.height
  have hco : Coherent p₁.1 p₁.2 := hp₁ ▸ coherent_step (Coherent.run hrun) hdisc hst
  have hbeg : PassInvariant (fun _ => True) p₁.1 (leaveUnwind init.length dest) init.length
      init.length [] p₁.1 (leaveUnwind init.length dest) := by
    refine PassInvariant.start (f := f) (by simp [hfs]) hmd rfl rfl le_rfl (by simp [hfs]) ?_
    rw [hstk]
    omega
  refine ⟨framesDown init.length (askedFrame (.instruction dest) none p₁.1.frames) init.length,
    pairwise_askedFrames _ _ _ _ _, fun a => mem_asked_leave hfs, ?_⟩
  rintro ran ⟨s, as⟩ u a hpass
  have hi := hpass.invariant hu hco hbeg
  rcases hi.goes_on a.typeInitialization hu trivial with ⟨s', e, hwalk, hprefix⟩ |
      ⟨_, _, _, _, _, _, _, _, _, _, hwrap⟩ | ⟨s', g, g₀, hwalk, hran, hd, hsm, _⟩
  · left
    refine ⟨s', e, hwalk, fun hnil => ?_⟩
    rwa [hplan.mpr hnil.2.2] at hprefix
  · obtain ⟨_, hno, _⟩ := hwrap
    cases hno
  · right
    obtain rfl : s' = s := hsm rfl
    obtain ⟨t, hstep', hnormal, hfs', hinfo, hbase, hlen⟩ := hi.arrives host hfs hwalk hd
    rw [hstk] at hlen
    constructor
    · rintro ⟨hasked, t', ht', _, g', _, _, hbase', _, _, hemp⟩
      obtain rfl := Except.ok.inj (hstep'.symm.trans ht')
      rw [hbase'] at hemp
      refine ⟨by omega, fun r hr => ?_, hplan.mp (hran.symm.trans hasked)⟩
      have hle := single_le_sum (by simp) r.2 (mem_map_of_mem hr)
      omega
    · rintro ⟨hz, hbod, hsecs⟩
      have hsum : (ran.map Prod.snd).sum = 0 := by
        refine sum_eq_zero fun k hk => ?_
        obtain ⟨r, hr, rfl⟩ := mem_map.mp hk
        exact hbod r hr
      refine ⟨hran.trans (hplan.mpr hsecs), t, hstep', hnormal, _, hfs', hinfo, hbase, rfl, rfl, ?_⟩
      have hbase' : ({ g with ip := dest, stackHeight := 0 } : StackFrame Ty).base = f.base := hbase
      rw [hbase']
      omega

/-- `try { op; leave L } finally { } L: ret`. -/
def leaveFinally : MethodInfo Unit where
  instructions := [.op, .leave (.short 3), .endFinally, .ret]
  exceptions := [⟨⟨0, 2⟩, [⟨⟨2, 3⟩, .finallyClause⟩]⟩]

def leaveFinallyFrame : StackFrame Unit := { StackFrame.new ⟨0, 0, 0⟩ leaveFinally with ip := 1 }

/-- The `leave` is about to be executed. -/
def leaveFinallyReady : ThreadContext Unit :=
  { entrypoint leaveFinally [] with frames := [leaveFinallyFrame] }

/-- The `leave` has been executed. -/
def leaveFinallyUnwinding : ThreadContext Unit :=
  leave (snapshot leaveFinallyReady leaveFinallyFrame) (.short 3)

def leaveFinallyEntry : CleanupEntry Unit :=
  ⟨⟨0, 0, 0⟩, ⟨⟨2, 3⟩, .finallyClause⟩, ⟨0, 1, 0⟩⟩

def leaveFinallyEntered : ThreadContext Unit :=
  enterCleanup (leaveUnwind 0 (.short 3)) leaveFinallyUnwinding leaveFinallyEntry

/-- The finally handler has run. -/
def leaveFinallyResumed : ThreadContext Unit :=
  { leaveFinallyUnwinding with
    frames := [{ leaveFinallyFrame with ip := 2 }]
    originalIp := 2
    exceptionMode := .unwinding { leaveUnwind 0 (.short 3) with cursor := leaveFinallyEntry.next } }

def leaveFinallyBody : Activation Unit :=
  ⟨⟨0, 0, 0⟩, ⟨2, 3⟩,
    .cleanup { leaveUnwind 0 (.short 3) with cursor := leaveFinallyEntry.next } false⟩

lemma leaveFinally_pass : SecondPass unitHost (fun _ => True) (leaveFinallyUnwinding, ⟨[], []⟩)
    (leaveUnwind 0 (.short 3)) [(⟨0, 0, 0⟩, 0)] (leaveFinallyResumed, ⟨[], []⟩)
    { leaveUnwind 0 (.short 3) with cursor := leaveFinallyEntry.next } := by
  have hwalk : unwindWalk (leaveUnwind 0 (.short 3)) ({} : Effects Unit).typeInitialization
      leaveFinallyUnwinding = .ok (.entered leaveFinallyUnwinding leaveFinallyEntry) := rfl
  have henter : trackedNext unitHost (leaveFinallyUnwinding, ⟨[], []⟩) (.dispatch {}) =
      some (leaveFinallyEntered, ⟨[leaveFinallyBody], []⟩) := rfl
  have hbody : CompletesBody unitHost leaveFinallyEntry
      (leaveFinallyEntered, ⟨[leaveFinallyBody], []⟩)
      (leaveFinallyEntered, ⟨[leaveFinallyBody], []⟩) 0 :=
    ⟨Runs.Run.refl, rfl, rfl, rfl, [], _, _, rfl, rfl, rfl, rfl, ⟨rfl, rfl⟩, rfl⟩
  have hend : trackedNext unitHost (leaveFinallyEntered, ⟨[leaveFinallyBody], []⟩)
      (.dispatch {}) = some (leaveFinallyResumed, ⟨[], []⟩) := rfl
  exact SecondPass.body .start trivial hwalk henter hbody hend

lemma properlyNested_leaveFinally : ProperlyNested leaveFinally.exceptions := by
  constructor
  · simp only [leaveFinally, mem_cons, not_mem_nil, or_false, forall_eq]
    refine ⟨fun ip hip => ?_, by simp⟩
    simp [Range.contains] at hip ⊢
    omega
  · simp [leaveFinally]

/-- The finally handler runs, and execution continues behind the `leave`. -/
theorem leaveFinally_continues : ∃ t, step unitHost leaveFinallyResumed (.dispatch {}) = .ok t ∧
    ContinuesAt [] leaveFinallyFrame 3 t := by
  have hrun : TrackedRun unitHost Disciplined leaveFinallyReady ⟨[], []⟩ :=
    TrackedRun.of_guarded leaveFinally [] [.dispatch {}] (by decide) rfl
  have hl : ExecutesLeave leaveFinallyReady [] leaveFinallyFrame (.short 3) :=
    ⟨rfl, ⟨rfl, rfl⟩, rfl, properlyNested_leaveFinally, by decide, rfl⟩
  obtain ⟨asked, _, _, hall⟩ := leave_runs_finally unitHost leaveFinallyReady ⟨[], []⟩
    (leaveFinallyUnwinding, ⟨[], []⟩) [] leaveFinallyFrame (.short 3) {} hrun hl (by decide) rfl
  have hnil : LeavesNothing leaveFinallyFrame (JumpTarget.short 3) [(⟨0, 0, 0⟩, 0)] :=
    ⟨rfl, by simp, by simp [leaveFinallyFrame, StackFrame.new, leaveFinally]⟩
  rcases hall _ _ _ {} leaveFinally_pass with ⟨s', e, hwalk, _⟩ | hiff
  · cases hwalk
  · exact (hiff.mpr hnil).2

/-- The same `leave` with an operand on the evaluation stack: the operand is still there at the
destination though the frame counts none. -/
theorem leave_keeps_operand : ∃ s₀ t g, Runs.exec (next unitHost) (entrypoint leaveFinally [])
      [.dispatch { ops := [.push (.int32 7)] }] = some s₀ ∧
    Runs.exec (next unitHost) s₀ [.dispatch {}, .dispatch {}, .dispatch {}, .dispatch {}] = some t ∧
    (∃ f, s₀.frames = [f] ∧ Executes f (.leave (.short 3)) ∧ f.stackHeight = 1) ∧
    t.exceptionMode = .none ∧ t.frames = [g] ∧ g.ip = 3 ∧ g.stackHeight = 0 ∧ g.base.stack = 0 ∧
    t.stack = [.int32 7] :=
  ⟨_, _, _, rfl, rfl, ⟨_, rfl, ⟨rfl, rfl⟩, rfl⟩, rfl, rfl, rfl, rfl, rfl, rfl⟩

end Leaving

end DotnetVm
