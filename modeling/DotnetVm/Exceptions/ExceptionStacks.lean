import DotnetVm.Exceptions.Nesting
import DotnetVm.Exceptions.Resumption

/-!
# Exception stacks and the handlers they stand for

A frame's exception stack should list the exceptions of the catch and filter
handlers of the frame that have been entered and not left, innermost first. The
engine pops it only while it passes handlers a `leave` or `ret` exits. So an
exception that leaves a catch handler in a frame that goes on, or a `leave` into
the handler's own try block, keeps a stale entry; without these the stacks
agree with the handlers in every state.
-/

namespace DotnetVm

open Activation List ThreadContext

variable {Ty : Type} {host : Host Ty} {s s' t : ThreadContext Ty} {a : Activations Ty}
  {f : StackFrame Ty} {init : List (StackFrame Ty)} {e : Effects Ty} {u : UnwindState}
  {as : List (Activation Ty)} {b : Activation Ty} {fs gs : List (StackFrame Ty)} {i j count : Nat}

def enteredIn (i : Nat) (as : List (Activation Ty)) : List Entered :=
  (as.filter fun b => decide (b.frameIndex = i)).map fun b => (b.range, b.exception?)

def exceptionsOf (i : Nat) (as : List (Activation Ty)) : List ObjectRef :=
  exceptions (enteredIn i as)

lemma enteredIn_cons_same (h : b.frameIndex = i) :
    enteredIn i (b :: as) = (b.range, b.exception?) :: enteredIn i as := by
  simp [enteredIn, h]

lemma enteredIn_cons_other (h : b.frameIndex ≠ i) : enteredIn i (b :: as) = enteredIn i as := by
  simp [enteredIn, h]

lemma enteredIn_append (i : Nat) (as bs : List (Activation Ty)) :
    enteredIn i (as ++ bs) = enteredIn i as ++ enteredIn i bs := by simp [enteredIn]

lemma enteredIn_eq_nil (h : ∀ b ∈ as, b.frameIndex ≠ i) : enteredIn i as = [] := by
  simpa [enteredIn] using h

variable {p : Activation Ty → Bool}

lemma enteredIn_filter (h : ∀ b, b.frameIndex = i → p b = true) :
    enteredIn i (as.filter p) = enteredIn i as := by
  unfold enteredIn
  rw [filter_filter]
  congr 2
  funext b
  by_cases hb : b.frameIndex = i
  · simp [h b hb]
  · simp [hb]

lemma enteredIn_popTo (h : i < count) : enteredIn i (popTo count as) = enteredIn i as :=
  enteredIn_filter fun b hb => by simpa [hb] using h

lemma enteredIn_popTo_ge (h : count ≤ i) : enteredIn i (popTo count as) = [] := by
  apply enteredIn_eq_nil
  intro b hb
  have hlt := (mem_popTo.mp hb).2
  omega

lemma enteredIn_modifyFirst (p : Activation Ty → Bool) (interrupted : Bool) (i : Nat)
    (as : List (Activation Ty)) :
    enteredIn i (modifyFirst p (setInterrupted interrupted) as) = enteredIn i as := by
  have hsm : ∀ b : Activation Ty, (b.setInterrupted interrupted).range = b.range ∧
      (b.setInterrupted interrupted).exception? = b.exception? ∧
      (b.setInterrupted interrupted).frameIndex = b.frameIndex := by
    intro b
    unfold setInterrupted
    split
    · next u j hk => simp [Activation.exception?, frameIndex, hk]
    · exact ⟨rfl, rfl, rfl⟩
  induction as with
  | nil => rfl
  | cons b as ih =>
    unfold modifyFirst
    split
    · obtain ⟨hrng, hexc, hidx⟩ := hsm b
      by_cases hb : b.frameIndex = i
      · rw [enteredIn_cons_same (hidx.trans hb), enteredIn_cons_same hb, hrng, hexc]
      · rw [enteredIn_cons_other (by rw [hidx]; exact hb), enteredIn_cons_other hb]
    · by_cases hb : b.frameIndex = i
      · rw [enteredIn_cons_same hb, enteredIn_cons_same hb, ih]
      · rw [enteredIn_cons_other hb, enteredIn_cons_other hb, ih]

/-- Handlers of higher frames are entered later. -/
def Innermost (as : List (Activation Ty)) : Prop :=
  as.Pairwise fun b c => c.frameIndex ≤ b.frameIndex

lemma enteredIn_leaveTo (hs : Innermost as) (ip : Nat) :
    enteredIn i (leaveTo i ip as) = keptAt ip (enteredIn i as) ∧
      ∀ j < i, enteredIn j (leaveTo i ip as) = enteredIn j as := by
  induction as with
  | nil => exact ⟨rfl, fun _ _ => rfl⟩
  | cons b as ih =>
    obtain ⟨hb, hrest⟩ := pairwise_cons.mp hs
    obtain ⟨ih₁, ih₂⟩ := ih hrest
    rcases lt_trichotomy b.frameIndex i with hlt | heq | hgt
    · -- every handler of the list belongs to a lower frame
      have hstay : leaveTo i ip (b :: as) = b :: as := by
        have hpop : popTo (i + 1) (b :: as) = b :: as := by
          refine popTo_eq_self fun c hc => ?_
          rcases mem_cons.mp hc with rfl | hc
          · omega
          · have hle := hb c hc
            omega
        simp [leaveTo, hpop, show b.frameIndex ≠ i by omega]
      have hnil : enteredIn i (b :: as) = [] := by
        apply enteredIn_eq_nil
        intro c hc
        rcases mem_cons.mp hc with rfl | hc
        · omega
        · have hle := hb c hc
          omega
      rw [hstay, hnil]
      exact ⟨rfl, fun _ _ => rfl⟩
    · have hpop : popTo (i + 1) (b :: as) = b :: popTo (i + 1) as := by
        simp [popTo, heq]
      cases hip : b.range.contains ip with
      | true =>
        have hstay : leaveTo i ip (b :: as) = b :: popTo (i + 1) as := by
          simp only [leaveTo, hpop, dropWhile_cons, hip]
          simp
        rw [hstay]
        constructor
        · rw [enteredIn_cons_same heq, enteredIn_cons_same heq, enteredIn_popTo (by omega),
            keptAt_cons_of_contains hip]
        · intro j hj
          rw [enteredIn_cons_other (by omega), enteredIn_cons_other (by omega),
            enteredIn_popTo (by omega)]
      | false =>
        have hdrop : leaveTo i ip (b :: as) = leaveTo i ip as := by
          simp only [leaveTo, hpop, dropWhile_cons, hip, heq]
          simp
        rw [hdrop]
        refine ⟨?_, fun j hj => ?_⟩
        · rw [ih₁, enteredIn_cons_same heq, keptAt_cons_of_not_contains hip]
        · rw [ih₂ j hj, enteredIn_cons_other (by omega)]
    · have hdrop : leaveTo i ip (b :: as) = leaveTo i ip as := by
        simp only [leaveTo, popTo]
        rw [filter_cons_of_neg (by rw [decide_eq_true_eq]; omega)]
      rw [hdrop]
      refine ⟨?_, fun j hj => ?_⟩
      · rw [ih₁, enteredIn_cons_other (by omega)]
      · rw [ih₂ j hj, enteredIn_cons_other (by omega)]

/-- The handlers in which an unwind to the handler at `addr` can go on in the frame at index `i`:
the target itself, and the finally or fault handler the walk runs next. -/
def continuesIn (u : UnwindState) (addr : HandlerAddress) (i : Nat) (f : StackFrame Ty) :
    List (Handler Ty) :=
  (if i = addr.frameIndex then
    (f.info.exceptions[addr.sectionIndex]?.bind fun p => p.handlers[addr.handlerIndex]?).toList
  else []) ++ ((walkFrame u i f).2.map CleanupEntry.handler).toList

def handlersAhead (u : UnwindState) (f : StackFrame Ty) : List (Position Ty) :=
  positionsFrom u.cursor u.cursor.frameIndex u.cursor.sectionIndex
    (f.info.exceptions.drop u.cursor.sectionIndex)

section

variable (s : ThreadContext Ty) (as : List (Activation Ty))

def LeavesNoHandler (u : UnwindState) (addr : HandlerAddress) : Prop :=
  ∀ b ∈ as, b.exception?.isSome = true → addr.frameIndex ≤ b.frameIndex →
    ∀ f ∈ s.frames[b.frameIndex]?, ∀ h ∈ continuesIn u addr b.frameIndex f,
      b.range.contains h.instructions.start = true

def LeavesEntered (u : UnwindState) (target : Nat) : Prop :=
  ∀ f ∈ s.frames.getLast?, WellNested f.info.exceptions ∧
    Around f.ip (enteredIn u.cursor.frameIndex as) (handlersAhead u f) ∧
    ∀ q ∈ handlersAhead u f, q.2.instructions.contains f.ip = true →
      q.1.instructions.contains target = false

/-- An unwind goes on in the current frame. -/
def StructuredUnwind (u : UnwindState) : Prop :=
  u.cursor.frameIndex + 1 = s.frames.length ∧
    match u.target with
    | .handler addr => (∀ f ∈ s.frames, ∀ p ∈ f.info.exceptions, p.Formed) ∧
        LeavesNoHandler s as u addr
    | .instruction target => LeavesEntered s as u target

/-- A filter ends in its own frame, not from inside another handler. -/
def EndsOwnFilter : Prop :=
  match s.exceptionMode with
  | .filtering state => state.handler.frameIndex + 1 = s.frames.length ∧
      ∃ b ∈ as.head?, b.isClause = true ∧ b.frameIndex = state.handler.frameIndex
  | _ => True

def StructuredInstruction (f : StackFrame Ty) : Prop :=
  match f.multicastState, f.info.instructions[f.ip]? with
  | none, some .endFinally => ∃ b ∈ as.head?, b.isCleanup = true
  | none, some .endFilter => EndsOwnFilter s as
  | none, some .rethrow => ∀ c ∈ enteredIn (s.frames.length - 1) as, c.2.isSome = true →
      c.1.contains f.ip = true
  | _, _ => True

end

/-- The steps that keep the exception stacks in agreement with the handlers. -/
def Structured (p : ThreadContext Ty × Activations Ty) : Event Ty → Prop
  | .dispatch _ =>
    match p.1.exceptionMode with
    | .unwinding u => StructuredUnwind p.1 p.2.live u
    | .throwing _ _ | .searching _ => True
    | .none | .filtering _ | .executingHandler _ =>
      ∀ f ∈ p.1.frames.getLast?, StructuredInstruction p.1 p.2.live f
  | .finalizer _ _ | .resume => True

instance (s : ThreadContext Ty) (as : List (Activation Ty)) (u : UnwindState)
    (addr : HandlerAddress) : Decidable (LeavesNoHandler s as u addr) := by
  unfold LeavesNoHandler
  infer_instance

instance (s : ThreadContext Ty) (as : List (Activation Ty)) (u : UnwindState) (target : Nat) :
    Decidable (LeavesEntered s as u target) := by
  unfold LeavesEntered
  infer_instance

instance (s : ThreadContext Ty) (as : List (Activation Ty)) (u : UnwindState) :
    Decidable (StructuredUnwind s as u) := by
  unfold StructuredUnwind
  generalize u.target = target
  exact match target with
    | .handler _ | .instruction _ => by
      dsimp only
      infer_instance

instance (s : ThreadContext Ty) (as : List (Activation Ty)) : Decidable (EndsOwnFilter s as) := by
  unfold EndsOwnFilter
  generalize s.exceptionMode = mode
  exact match mode with
    | .none | .throwing _ _ | .searching _ | .filtering _ | .executingHandler _ | .unwinding _ => by
      dsimp only
      infer_instance

instance (s : ThreadContext Ty) (as : List (Activation Ty)) (f : StackFrame Ty) :
    Decidable (StructuredInstruction s as f) := by
  unfold StructuredInstruction
  generalize f.multicastState = multicast, f.info.instructions[f.ip]? = instruction
  exact match multicast, instruction with
    | none, none | none, some .op | none, some .throw | none, some .rethrow | none, some (.leave _)
    | none, some .endFinally | none, some .endFilter | none, some .ret
    | some _, none | some _, some .op | some _, some .throw | some _, some .rethrow
    | some _, some (.leave _) | some _, some .endFinally | some _, some .endFilter
    | some _, some .ret => by
      dsimp only
      infer_instance

instance (p : ThreadContext Ty × Activations Ty) (ev : Event Ty) : Decidable (Structured p ev) := by
  unfold Structured
  generalize p.1.exceptionMode = mode
  exact match ev, mode with
    | .dispatch _, .none | .dispatch _, .throwing _ _ | .dispatch _, .searching _
    | .dispatch _, .filtering _ | .dispatch _, .executingHandler _ | .dispatch _, .unwinding _
    | .finalizer _ _, _ | .resume, _ => by
      dsimp only
      infer_instance

lemma Structured.instruction (h : Structured (s, a) (.dispatch e))
    (hm : s.exceptionMode.isNormal = true) (hs : s.frames = init ++ [f]) :
    StructuredInstruction s a.live f := by
  unfold Structured at h
  cases hmode : s.exceptionMode <;> simp_all

def StacksMatch (base : Nat) (fs : List (StackFrame Ty)) (as : List (Activation Ty)) : Prop :=
  ∀ i f, fs[i]? = some f → f.exceptionStack = exceptionsOf (base + i) as

/-- What a filter suspended agrees with the suspended handlers. -/
structure SuspendedMatch (state : FilterState) (s : ThreadContext Ty) (a : Activations Ty) :
    Prop where
  above : ∀ b ∈ a.suspended, state.handler.frameIndex < b.frameIndex
  within : Within (state.handler.frameIndex + 1 + s.suspendedFrames.length) a.suspended
  sorted : Innermost a.suspended
  entries : StacksMatch (state.handler.frameIndex + 1) s.suspendedFrames a.suspended

variable {state : FilterState}

lemma SuspendedMatch.congr (h : SuspendedMatch state s a)
    (hsf : s'.suspendedFrames = s.suspendedFrames) : SuspendedMatch state s' a :=
  ⟨h.above, by rw [hsf]; exact h.within, h.sorted, by rw [hsf]; exact h.entries⟩

/-- What the structured steps keep. -/
structure HandlersMatch (s : ThreadContext Ty) (a : Activations Ty) : Prop where
  nested : NestedFree s
  within : Within s.frames.length a.live
  sorted : Innermost a.live
  entries : StacksMatch 0 s.frames a.live
  suspended : ∀ state, s.exceptionMode = .filtering state → SuspendedMatch state s a

lemma handlersMatch_entrypoint (info : MethodInfo Ty) (args : List StackValue) :
    HandlersMatch (entrypoint info args) ⟨[], []⟩ where
  nested := nestedFree_entrypoint info args
  within := by simp [Within]
  sorted := Pairwise.nil
  entries := by
    intro i f hf
    obtain ⟨_, rfl⟩ := List.getElem?_eq_some_iff.mp hf
    simp [entrypoint, StackFrame.new, exceptionsOf, enteredIn, exceptions]
  suspended := by simp [entrypoint]

def Inherits (count : Nat) (fs gs : List (StackFrame Ty)) : Prop :=
  ∀ i g, gs[i]? = some g →
    (i < count ∧ ∃ f, fs[i]? = some f ∧ g.exceptionStack = f.exceptionStack) ∨
    (count ≤ i ∧ g.exceptionStack = [])

lemma StacksMatch.inherits (hm : StacksMatch 0 fs as) (hi : Inherits count fs gs) :
    StacksMatch 0 gs (popTo count as) := by
  intro i g hg
  rcases hi i g hg with ⟨hlt, f, hf, hes⟩ | ⟨hge, hes⟩
  · rw [hes, hm i f hf, exceptionsOf, exceptionsOf, enteredIn_popTo (by omega)]
  · rw [hes, exceptionsOf, enteredIn_popTo_ge (by omega)]
    rfl

lemma Innermost.popTo (h : Innermost as) (count : Nat) : Innermost (popTo count as) :=
  List.Pairwise.filter _ h

/-- A frame on top of those that stay is new. -/
lemma Inherits.concat {n : StackFrame Ty} (h : Inherits count fs gs) (hlen : gs.length = count)
    (hn : n.exceptionStack = []) : Inherits count fs (gs ++ [n]) := by
  intro i k hk
  rcases getElem?_concat_cases hk with ⟨_, hk⟩ | ⟨rfl, rfl⟩
  · exact h i k hk
  · exact .inr ⟨by omega, hn⟩

def Survive (fs gs : List (StackFrame Ty)) : Prop :=
  ∀ (i : Nat) (g : StackFrame Ty), gs[i]? = some g →
    ∃ f : StackFrame Ty, fs[i]? = some f ∧ g.exceptionStack = f.exceptionStack

lemma Survive.trans {hs : List (StackFrame Ty)} (h₁ : Survive fs gs) (h₂ : Survive gs hs) :
    Survive fs hs := by
  intro i k hk
  obtain ⟨g, hg, hes⟩ := h₂ i k hk
  obtain ⟨f, hf, hes'⟩ := h₁ i g hg
  exact ⟨f, hf, hes.trans hes'⟩

lemma Survive.inherits (h : Survive fs gs) : Inherits gs.length fs gs := by
  intro i g hg
  exact .inl ⟨(List.getElem?_eq_some_iff.mp hg).1, h i g hg⟩

variable {g : StackFrame Ty} {high : List (StackFrame Ty)}

lemma survive_of_same
    (h : g.exceptionStack = f.exceptionStack) : Survive (init ++ f :: high) (init ++ [g]) := by
  intro i k hk
  rcases getElem?_concat_cases hk with ⟨hi, hk⟩ | ⟨rfl, rfl⟩
  · rw [getElem?_append_left hi]
    exact ⟨k, hk, rfl⟩
  · exact ⟨f, by simp, h⟩

lemma handleReturn_survive {data : ReturnData} (h : handleReturn s data = .ok s') :
    Survive s.frames s'.frames ∧ s'.frames.length < s.frames.length := by
  refine handleReturn_induct (P := fun t => Survive s.frames t.frames ∧
    t.frames.length < s.frames.length) ?_ ?_ h
  · intro w t lower c f hw hs hret
    obtain ⟨_, c', hsm, hframes⟩ := returnFrame_local hs hret
    have hsurv : Survive w.frames t.frames := by
      rw [hs, hframes, append_assoc]
      exact survive_of_same hsm.exceptionStack
    have hlen : t.frames.length < w.frames.length := by simp [hs, hframes]
    rcases hw with rfl | ⟨hw, hlt⟩
    · exact ⟨hsurv, hlen⟩
    · exact ⟨hw.trans hsurv, lt_trans hlen hlt⟩
  · intro t ip ⟨hsurv, hlt⟩
    rcases eq_nil_or_concat' t.frames with ht | ⟨low, g, ht⟩
    · have hnil : (branch t ip).frames = [] := by simp [branch, ht]
      rw [hnil]
      exact ⟨by intro i k hk; simp at hk, Nat.lt_of_le_of_lt (Nat.zero_le _) hlt⟩
    · have hbranch : (branch t ip).frames = low ++ [{ g with ip := ip }] := by
        rw [branch_concat ht]
      refine ⟨?_, by rw [hbranch]; rw [ht] at hlt; simpa using hlt⟩
      rw [hbranch]
      rw [ht] at hsurv
      exact hsurv.trans (survive_of_same rfl)

lemma survive_append (fs gs : List (StackFrame Ty)) : Survive (fs ++ gs) fs := by
  intro i g hg
  have hlt := (List.getElem?_eq_some_iff.mp hg).1
  exact ⟨g, by rw [getElem?_append_left hlt]; exact hg, rfl⟩

/-- The number of frames whose handlers an ordinary instruction keeps. -/
def keptFrames (s s' : ThreadContext Ty) (result : OpResult Ty) : Nat :=
  if result.discardsFrame ∧ s'.frames.length = s.frames.length
    then s'.frames.length - 1 else s'.frames.length

variable {result : OpResult Ty}

lemma keptFrames_of_not_discards (h : result.discardsFrame = false) :
    keptFrames s s' result = s'.frames.length := by simp [keptFrames, h]

lemma StacksMatch.survive (hm : StacksMatch 0 s.frames as) (h : Survive s.frames s'.frames) :
    StacksMatch 0 s'.frames (popTo s'.frames.length as) := hm.inherits h.inherits

section

variable (hm : StacksMatch 0 s.frames as) (hw : Within s.frames.length as)
  (hs : s.frames = init ++ [f])
include hm hw hs

/-- A called frame is in no handler yet. -/
lemma StacksMatch.called {n : StackFrame Ty} (hes : g.exceptionStack = f.exceptionStack)
    (hn : n.exceptionStack = []) : StacksMatch 0 (init ++ [g] ++ [n]) as := by
  have hsurv : Survive s.frames (init ++ [g]) := by
    rw [hs]
    exact survive_of_same hes
  have hcnt : (init ++ [g]).length = s.frames.length := by simp [hs]
  have hstks := hm.inherits (hsurv.inherits.concat rfl hn)
  rw [hcnt, popTo_eq_self hw] at hstks
  exact hstks

lemma OpMove.entries (hes : g.exceptionStack = f.exceptionStack) (h : OpMove init f g result t s') :
    StacksMatch 0 s'.frames (popTo (keptFrames s s' result) as) := by
  cases h with
  | moved ip g' hip _ hsm hframes =>
    have hno : result.discardsFrame = false := by
      cases result <;> first | rfl | cases hip
    rw [keptFrames_of_not_discards hno]
    refine hm.survive ?_
    rw [hs, hframes]
    exact survive_of_same (hsm.exceptionStack.trans hes)
  | raised x w hr hl hset =>
    obtain ⟨_, g', hsm, hframes⟩ := hl
    have hno : result.discardsFrame = false := by rw [hr]; rfl
    rw [keptFrames_of_not_discards hno]
    refine hm.survive ?_
    have hframes' : s'.frames = init ++ [g'] := by rw [hset]; exact hframes
    rw [hs, hframes']
    exact survive_of_same (hsm.exceptionStack.trans hes)
  | called hc =>
    obtain ⟨_, g', n, hsm, hn, hframes⟩ := hc
    have hlen : s'.frames.length = s.frames.length + 1 := by simp [hframes, hs]
    have hkept : keptFrames s s' result = s.frames.length + 1 := by
      simp only [keptFrames, hlen]
      rw [if_neg (by omega)]
    rw [hkept, popTo_eq_self (hw.mono (Nat.le_succ _)), hframes]
    exact hm.called hw hs (hsm.exceptionStack.trans hes) hn.exceptionStack
  | replaced hr hrep =>
    obtain ⟨_, n, hn, hframes⟩ := hrep
    have hkept : keptFrames s s' result = init.length := by simp [keptFrames, hr, hframes, hs]
    rw [hkept, hframes]
    have hsurv : Survive s.frames init := by
      rw [hs]
      exact survive_append init [f]
    exact hm.inherits (hsurv.inherits.concat rfl hn.exceptionStack)

end

lemma exceptionsOf_cons_cleanup (h : b.isCleanup = true) :
    exceptionsOf i (b :: as) = exceptionsOf i as := by
  have hno : b.exception? = none := by
    unfold isCleanup at h
    unfold Activation.exception?
    cases hk : b.kind <;> simp_all
  unfold exceptionsOf
  by_cases hb : b.frameIndex = i
  · rw [enteredIn_cons_same hb, hno]
    rfl
  · rw [enteredIn_cons_other hb]

lemma dropThrough_head (h : p b = true) : dropThrough p (b :: as) = as := by simp [dropThrough, h]

lemma HandlersMatch.stacks_instruction (hm : HandlersMatch s a) (hs : s.frames = init ++ [f])
    (hst : StructuredInstruction s a.live f) (hend : ¬ Executes f .endFilter)
    (h : NormalStep f e s s') : StacksMatch 0 s'.frames (trackInstruction a s f e s').live := by
  have hsnaps : (snapshot s f).frames = init ++ [f] := hs
  have hsm : ∀ t : ThreadContext Ty, (∃ g, g.exceptionStack = f.exceptionStack ∧
      t.frames = init ++ [g]) → StacksMatch 0 t.frames (popTo t.frames.length a.live) := by
    rintro t ⟨g, hes, hframes⟩
    refine hm.entries.survive ?_
    rw [hs, hframes]
    exact survive_of_same hes
  cases h with
  | leave target hi h =>
    have hframes : s'.frames = s.frames := by
      rw [h]
      unfold leave
      split <;> rfl
    simp only [trackInstruction, hi.1, hi.2]
    intro i g hg
    rw [hframes] at hg
    rw [exceptionsOf, interrupt, enteredIn_modifyFirst]
    exact hm.entries i g hg
  | endFinally u hi _ h =>
    subst h
    simp only [StructuredInstruction, hi.1, hi.2] at hst
    obtain ⟨b, hb, hcleanup⟩ := hst
    obtain ⟨rest, hlive⟩ := head?_eq_some_iff.mp hb
    simp only [trackInstruction, hi.1, hi.2]
    intro i g hg
    rw [hm.entries i g hg, hlive, dropThrough_head hcleanup, exceptionsOf_cons_cleanup hcleanup]
  | endFilter result t hi _ _ => exact absurd hi hend
  | throw v t hi hpop h =>
    obtain ⟨_, g, hg, hframes⟩ := popSafe_local hsnaps hpop
    obtain ⟨y, rfl⟩ := throwValue_eq h
    simp only [trackInstruction, hi.1, hi.2]
    exact hsm _ ⟨g, hg.exceptionStack, hframes⟩
  | rethrow x rest hi _ h | retUnwind u hi _ h =>
    subst h
    simp only [trackInstruction, hi.1, hi.2]
    exact hsm _ ⟨f, rfl, hs⟩
  | retReturn hi _ _ h =>
    simp only [trackInstruction, hi.1, hi.2]
    exact hm.entries.survive (handleReturn_survive h).1
  | op hi h =>
    simp only [trackInstruction, hi.1, hi.2]
    exact (runOp_cases hsnaps rfl h).entries hm.entries hm.within hs rfl
  | multicast state target t hmc hd h =>
    obtain ⟨_, g, hg, hframes⟩ := discardResult_quiet hs hd
    have hinvoked := congrArg ThreadContext.frames (invokeNext_concat hframes state target)
    simp only [trackInstruction, hmc]
    have hmove := runOp_cases hinvoked hg.ip h
    refine OpMove.entries hm.entries hm.within hs ?_ hmove
    exact hg.exceptionStack
  | multicastReturn state hmc h =>
    obtain ⟨hsurv, hlt⟩ := handleReturn_survive h
    simp only [trackInstruction, hmc]
    rw [if_neg (by omega)]
    exact hm.entries.survive hsurv

lemma Innermost.of_map_addr {bs : List (Activation Ty)} (h : Innermost as)
    (heq : bs.map Activation.addr = as.map Activation.addr) : Innermost bs := by
  have hmap : ∀ cs : List (Activation Ty), Innermost cs ↔
      (cs.map Activation.addr).Pairwise fun x y => y.frameIndex ≤ x.frameIndex := by
    intro cs
    rw [pairwise_map]
    rfl
  rw [hmap, heq, ← hmap]
  exact h

lemma dropThrough_sublist (p : Activation Ty → Bool) (as : List (Activation Ty)) :
    (dropThrough p as).Sublist as := by
  induction as with
  | nil => exact Sublist.slnil
  | cons b as ih =>
    unfold dropThrough
    split
    · exact sublist_cons_self b as
    · exact ih.cons b

lemma trackInstruction_innermost (h : Innermost a.live) (hend : ¬ Executes f .endFilter) :
    Innermost (trackInstruction a s f e s').live := by
  unfold trackInstruction
  split
  · exact h.of_map_addr (map_addr_modifyFirst (addr_setInterrupted true) a.live)
  · exact h.sublist (dropThrough_sublist _ _)
  · next hmc hi => exact absurd ⟨hmc, hi⟩ hend
  all_goals exact h.popTo _

lemma trackInstruction_within (hw : Within s.frames.length a.live)
    (hend : ¬ Executes f .endFilter) (h : NormalStep f e s s') :
    Within s'.frames.length (trackInstruction a s f e s').live := by
  unfold trackInstruction
  split
  · next target hmc hi =>
    have hleave : s' = leave (snapshot s f) target := h.leavesHandler ⟨hmc, hi⟩
    have hframes : s'.frames = s.frames := by
      rw [hleave]
      unfold leave
      split <;> rfl
    rw [hframes]
    exact hw.interrupt
  · next hmc hi =>
    obtain ⟨u, _, rfl⟩ := h.leavesHandler ⟨hmc, hi⟩
    exact fun c hc => hw c (mem_dropThrough hc)
  · next hmc hi => exact absurd ⟨hmc, hi⟩ hend
  iterate 3 exact within_popTo _ _
  · refine (within_popTo _ _).mono ?_
    split <;> omega

lemma trackInstruction_suspended (hend : ¬ Executes f .endFilter) :
    (trackInstruction a s f e s').suspended = a.suspended := by
  unfold trackInstruction
  split
  case h_3 hmc hi => exact absurd ⟨hmc, hi⟩ hend
  all_goals rfl

lemma HandlersMatch.instruction (hm : HandlersMatch s a) (hs : s.frames = init ++ [f])
    (hst : StructuredInstruction s a.live f) (hend : ¬ Executes f .endFilter) (hn : NestedFree s')
    (h : NormalStep f e s s') : HandlersMatch s' (trackInstruction a s f e s') where
  nested := hn
  within := trackInstruction_within hm.within hend h
  sorted := trackInstruction_innermost hm.sorted hend
  entries := hm.stacks_instruction hs hst hend h
  suspended := by
    intro state hm'
    have hch := h.modeChange hs
    have hmode := hch.filtering hm'
    have hsm : s'.suspendedFrames = s.suspendedFrames := by
      cases hch with
      | quiet hq => exact hq.suspendedFrames
      | thrown t x p hq hset => subst hset; cases hm'
      | unwinds u hset _ => subst hset; cases hm'
      | left target hset => subst hset; cases hm'
      | filtered t result hq hset =>
        obtain ⟨st, restored, _, _, _, rfl⟩ := endFilter_eq hset
        exact absurd hm' (afterFilter_ne_filtering restored st result state)
    obtain ⟨habove, hwin, hsort, hstks⟩ := hm.suspended state hmode
    have hkeep : (trackInstruction a s f e s').suspended = a.suspended :=
      trackInstruction_suspended hend
    exact ⟨by rw [hkeep]; exact habove, by rw [hkeep, hsm]; exact hwin,
      by rw [hkeep]; exact hsort, by rw [hkeep, hsm]; exact hstks⟩

lemma exceptionsOf_cons_clause (h : b.isClause = true) (hi : b.frameIndex = i) :
    (exceptionsOf i (b :: as)).tail = exceptionsOf i as := by
  have hsome : ∃ x, b.exception? = some x := by
    unfold isClause at h
    unfold Activation.exception?
    cases hk : b.kind <;> simp_all
  obtain ⟨x, hx⟩ := hsome
  rw [exceptionsOf, enteredIn_cons_same hi, hx]
  rfl

section

variable (hm : HandlersMatch s a) (hs : s.frames = init ++ [f])
include hm hs

lemma StacksMatch.endFilter (hlive : a.live = b :: as) (hb : b.isClause = true)
    (hidx : b.frameIndex = init.length) (hsusp : SuspendedMatch state s a)
    (hst : state.handler.frameIndex = init.length) (hg : g.exceptionStack = f.exceptionStack.tail) :
    StacksMatch 0 (init ++ g :: s.suspendedFrames) (a.suspended ++ as) := by
  have hstks := hm.entries
  have hwin : Within (init.length + 1) as := by
    have hw := hm.within
    rw [hlive, hs] at hw
    exact fun c hc => by simpa using hw c (mem_cons_of_mem _ hc)
  rw [hs, hlive] at hstks
  intro i k hk
  rw [exceptionsOf, enteredIn_append]
  rcases lt_trichotomy i init.length with hlt | heq | hgt
  · rw [getElem?_append_left hlt] at hk
    have hbel := hstks i k (by rw [getElem?_append_left hlt]; exact hk)
    rw [exceptionsOf, enteredIn_cons_other (by omega)] at hbel
    have hnil : enteredIn (0 + i) a.suspended = [] := by
      refine enteredIn_eq_nil fun c hc => ?_
      have habove := hsusp.above c hc
      omega
    rw [hnil, nil_append, hbel]
  · subst heq
    simp only [getElem?_append_right (le_refl _), Nat.sub_self, getElem?_cons_zero,
      Option.some.injEq] at hk
    have hat := hstks init.length f (by simp)
    have hnil : enteredIn (0 + init.length) a.suspended = [] := by
      refine enteredIn_eq_nil fun c hc => ?_
      have habove := hsusp.above c hc
      omega
    rw [hnil, ← hk, hg, hat, exceptionsOf_cons_clause hb (by omega)]
    rfl
  · have hk' : s.suspendedFrames[i - (init.length + 1)]? = some k := by
      rw [getElem?_append_right (by omega),
        show i - init.length = (i - (init.length + 1)) + 1 by omega] at hk
      exact hk
    have habove := hsusp.entries _ k hk'
    rw [hst, show init.length + 1 + (i - (init.length + 1)) = 0 + i by omega] at habove
    have hnil : enteredIn (0 + i) as = [] := by
      refine enteredIn_eq_nil fun c hc => ?_
      have hlt := hwin c hc
      omega
    rw [hnil, append_nil, habove]
    rfl

lemma HandlersMatch.endFilter {result : Int} {v : StackValue} (hst : EndsOwnFilter s a.live)
    (hn : NestedFree s') (hpop : (snapshot s f).popSafe = .ok (v, t))
    (h : endFilter t result = .ok s') :
    HandlersMatch s' ⟨a.suspended ++ dropThrough isClause a.live, []⟩ := by
  obtain ⟨hq, g, hsm, ht⟩ := popSafe_local (s := snapshot s f) hs hpop
  obtain ⟨state, restored, hmt, _, hrest, rfl⟩ := endFilter_eq h
  have hmode : s.exceptionMode = .filtering state := by rw [← hmt, hq.mode]; rfl
  simp only [EndsOwnFilter, hmode] at hst
  obtain ⟨hlen, b, hb, hcl, hidx⟩ := hst
  obtain ⟨rest, hlive⟩ := head?_eq_some_iff.mp hb
  have hstate : state.handler.frameIndex = init.length := by simpa [hs] using hlen
  have hsusp := hm.suspended state hmode
  have hsf : t.suspendedFrames = s.suspendedFrames := hq.suspendedFrames
  have hframes : restored.frames = init ++ filteredFrame state g :: s.suspendedFrames := by
    rw [hrest]
    simp only [restoreSuspended, modifyFrame, ht, hstate, modify_split,
      hsf]
    simp
  rw [hlive, dropThrough_head hcl]
  have hbel : ∀ c ∈ rest, c.frameIndex ≤ init.length := by
    intro c hc
    have hsort := hm.sorted
    rw [hlive] at hsort
    have hle := (pairwise_cons.mp hsort).1 c hc
    omega
  constructor
  · exact hn
  · intro c hc
    simp only [setMode, hframes, length_append, length_cons]
    rcases mem_append.mp hc with hc | hc
    · have hlt := hsusp.within c hc
      omega
    · have hle := hbel c hc
      omega
  · refine pairwise_append.mpr ⟨hsusp.sorted, ?_, fun c hc d hd => ?_⟩
    · have hsort := hm.sorted
      rw [hlive] at hsort
      exact (pairwise_cons.mp hsort).2
    · have habove := hsusp.above c hc
      have hle := hbel d hd
      omega
  · simp only [setMode, hframes]
    refine StacksMatch.endFilter hm hs hlive hcl (by omega) hsusp hstate ?_
    simp only [filteredFrame, hsm.exceptionStack]
  · intro st hst
    exact absurd hst (afterFilter_ne_filtering restored state result st)

lemma HandlersMatch.normalStep (hst : StructuredInstruction s a.live f) (hn : NestedFree s')
    (h : NormalStep f e s s') : HandlersMatch s' (trackInstruction a s f e s') := by
  by_cases hend : Executes f .endFilter
  · obtain ⟨result, t, hpop, hrestore⟩ := h.leavesHandler hend
    simp only [StructuredInstruction, hend.1, hend.2] at hst
    simp only [trackInstruction, hend.1, hend.2]
    exact hm.endFilter hs hst hn hpop hrestore
  · exact hm.instruction hs hst hend hn h

end

lemma Innermost.cons (h : Innermost as)
    (hle : ∀ c ∈ as, c.frameIndex ≤ b.frameIndex) : Innermost (b :: as) :=
  pairwise_cons.mpr ⟨hle, h⟩

lemma exceptionsOf_cons_same (h : b.frameIndex = i) :
    exceptionsOf i (b :: as) = b.exception?.toList ++ exceptionsOf i as := by
  rw [exceptionsOf, exceptionsOf, enteredIn_cons_same h]
  cases hx : b.exception? <;> simp [exceptions]

lemma StacksMatch.concat {cs : List (Activation Ty)}
    (hm : StacksMatch 0 fs as) (htake : fs.take init.length = init)
    (hkeep : ∀ i < init.length, enteredIn i cs = enteredIn i as)
    (hg : g.exceptionStack = exceptionsOf init.length cs) : StacksMatch 0 (init ++ [g]) cs := by
  intro i k hk
  rcases getElem?_concat_cases hk with ⟨hi, hk⟩ | ⟨rfl, rfl⟩
  · rw [← htake, getElem?_take, if_pos hi] at hk
    rw [hm i k hk, exceptionsOf, exceptionsOf, hkeep (0 + i) (by omega)]
  · rw [hg, zero_add]

variable {x : ObjectRef} {addr : HandlerAddress}

lemma HandlersMatch.filterEntered {clauseOffset : Nat}
    {low : List (StackFrame Ty)} (hm : HandlersMatch s a) (hs : s.frames = low ++ f :: high)
    (hlow : low.length = addr.frameIndex)
    (hn : NestedFree (filterEntered s x addr clauseOffset low high f)) :
    HandlersMatch (filterEntered s x addr clauseOffset low high f)
      (trackSearch a s (filterEntered s x addr clauseOffset low high f)) := by
  have hf : f.exceptionStack = exceptionsOf low.length a.live := by
    rw [hm.entries low.length f (by simp [hs]), zero_add]
  constructor
  · exact hn
  · intro c hc
    simp only [trackSearch, DotnetVm.filterEntered, ← hlow, mem_cons, length_append,
      length_singleton] at hc ⊢
    rcases hc with rfl | hc
    · simp only [frameIndex]
      omega
    · exact (mem_popTo.mp hc).2
  · refine Innermost.cons (hm.sorted.popTo _) fun c hc => ?_
    have hlt := (mem_popTo.mp hc).2
    exact Nat.le_of_lt_succ hlt
  · have htake : s.frames.take low.length = low := by rw [hs, take_left]
    refine StacksMatch.concat hm.entries htake (fun i hi => ?_) ?_
    · simp only [trackSearch, DotnetVm.filterEntered]
      rw [enteredIn_cons_other (by simp only [frameIndex]; omega),
        enteredIn_popTo (by omega)]
    · simp only [trackSearch, DotnetVm.filterEntered]
      rw [exceptionsOf_cons_same (by exact hlow.symm),
        exceptionsOf, enteredIn_popTo (by omega), hf]
      rfl
  · intro state hst
    obtain rfl := ExceptionState.filtering.inj hst
    refine ⟨fun c hc => ?_, fun c hc => ?_, List.Pairwise.filter _ hm.sorted, ?_⟩
    · simpa [trackSearch] using (mem_filter.mp hc).2
    · have hlt := hm.within c (mem_filter.mp hc).1
      simp only [hs, length_append, length_cons] at hlt
      simp only [DotnetVm.filterEntered]
      omega
    · intro i k hk
      have hk' : s.frames[low.length + 1 + i]? = some k := by
        rw [hs, append_cons, getElem?_append_right (by simp)]
        have hhigh : high[i]? = some k := hk
        simpa using hhigh
      have hes := hm.entries _ k hk'
      rw [hes, zero_add, hlow, exceptionsOf, exceptionsOf]
      simp only [trackSearch, DotnetVm.filterEntered]
      rw [enteredIn_filter]
      intro b hb
      simp only [decide_eq_true_eq]
      omega

lemma Innermost.leaveTo (h : Innermost as) (i ip : Nat) : Innermost (leaveTo i ip as) :=
  (h.popTo (i + 1)).sublist (dropWhile_sublist _)

lemma enteredIn_leaveTo_same (hs : Innermost as) (i ip : Nat) :
    exceptionsOf i (leaveTo i ip as) = exceptions (keptAt ip (enteredIn i as)) := by
  rw [exceptionsOf, (enteredIn_leaveTo hs ip).1]

variable {ip : Nat}

section

variable (hm : HandlersMatch s a) (htake : s.frames.take init.length = init)
  (hframes : s'.frames = init ++ [g])
include hm htake hframes

lemma HandlersMatch.enter (hb : b.frameIndex = init.length) (hg : g.exceptionStack =
      b.exception?.toList ++ exceptions (keptAt ip (enteredIn init.length a.live)))
    (hn : NestedFree s') (hmode : ∀ state, s'.exceptionMode ≠ .filtering state) :
    HandlersMatch s' { a with live := b :: leaveTo init.length ip a.live } where
  nested := hn
  within := by
    intro c hc
    simp only [hframes, length_append, length_singleton]
    rcases mem_cons.mp hc with rfl | hc
    · omega
    · exact (mem_leaveTo hc).2
  sorted := by
    refine (hm.sorted.leaveTo _ _).cons fun c hc => ?_
    have hlt := (mem_leaveTo hc).2
    omega
  entries := by
    rw [hframes]
    refine StacksMatch.concat hm.entries htake (fun i hi => ?_) ?_
    · rw [enteredIn_cons_other (by omega), (enteredIn_leaveTo hm.sorted ip).2 i hi]
    · rw [exceptionsOf_cons_same hb, enteredIn_leaveTo_same hm.sorted, hg]
  suspended := fun state hst => absurd hst (hmode state)

/-- A `leave` arrives in the current frame. -/
lemma HandlersMatch.arrive
    (hg : g.exceptionStack = exceptions (keptAt ip (enteredIn init.length a.live)))
    (hn : NestedFree s') (hmode : ∀ state, s'.exceptionMode ≠ .filtering state) :
    HandlersMatch s' { a with live := resumeInterrupted (leaveTo init.length ip a.live) } where
  nested := hn
  within := by
    refine Within.resumeInterrupted fun c hc => ?_
    simp only [hframes, length_append]
    exact (mem_leaveTo hc).2
  sorted := (hm.sorted.leaveTo _ _).of_map_addr (map_addr_modifyFirst (addr_setInterrupted false) _)
  entries := by
    rw [hframes]
    refine StacksMatch.concat hm.entries htake (fun i hi => ?_) ?_
    · rw [resumeInterrupted, enteredIn_modifyFirst, (enteredIn_leaveTo hm.sorted ip).2 i hi]
    · rw [exceptionsOf, resumeInterrupted, enteredIn_modifyFirst,
        (enteredIn_leaveTo hm.sorted ip).1, hg]
  suspended := fun state hst => absurd hst (hmode state)

end

/-- Frames from the top are gone. -/
lemma HandlersMatch.cut (hm : HandlersMatch s a) (hsurv : Survive s.frames s'.frames)
    (hn : NestedFree s') (hmode : ∀ state, s'.exceptionMode ≠ .filtering state) :
    HandlersMatch s' { a with live := popTo s'.frames.length a.live } where
  nested := hn
  within := within_popTo _ _
  sorted := hm.sorted.popTo _
  entries := hm.entries.survive hsurv
  suspended := fun state hst => absurd hst (hmode state)

section

variable {x : Option ObjectRef} {ip k n : Nat} {addr : HandlerAddress} {es : List ObjectRef}

lemma unwindHandlers_keeps {hs : List (Handler Ty)}
    (h : ∀ c ∈ hs, c.instructions.contains ip = false) : (unwindHandlers x ip k hs es).1 = es := by
  induction hs generalizing k with
  | nil => rfl
  | cons c hs ih =>
    have hrest := fun k => ih (k := k) fun d hd => h d (mem_cons_of_mem _ hd)
    rw [unwindHandlers, if_neg (by rw [h c mem_cons_self]; simp)]
    split
    · rfl
    · exact hrest (k + 1)

/-- An unwind to a handler pops no exception. -/
lemma unwindSections_keeps {ps : List (ProtectedSection Ty)} (ht : u.target = .handler addr)
    (hf : ∀ p ∈ ps, p.Formed) : (unwindSections u n ip k ps es).1 = es := by
  induction ps generalizing k with
  | nil => rfl
  | cons p ps ih =>
    have hrest := fun k => ih (k := k) fun q hq => hf q (mem_cons_of_mem _ hq)
    simp only [unwindSections]
    split
    · rfl
    · split
      · next hexit =>
        have htry : p.instructions.contains ip = true := by rw [ht] at hexit; exact hexit
        have hout : ∀ c ∈ p.handlers.drop (handlerStart u.cursor n k),
            c.instructions.contains ip = false := by
          intro c hc
          have hdisj := ((hf p mem_cons_self).1 c (mem_of_mem_drop hc)).2
          exact Range.not_contains_of_disjoint hdisj htry
        have hkeep : (unwindHandlers u.exception ip (handlerStart u.cursor n k)
            (p.handlers.drop (handlerStart u.cursor n k)) es).1 = es := unwindHandlers_keeps hout
        split
        · next es' j c heq =>
          rw [heq] at hkeep
          exact hkeep
        · next es' heq =>
          rw [heq] at hkeep
          simp only at hkeep
          rw [hkeep]
          exact hrest (k + 1)
      · exact hrest (k + 1)

end

lemma exceptions_keptAt {cs : List Entered}
    (h : ∀ c ∈ cs, c.2.isSome = true → c.1.contains ip = true) :
    exceptions (keptAt ip cs) = exceptions cs := by
  induction cs with
  | nil => rfl
  | cons c cs ih =>
    cases hip : c.1.contains ip with
    | true => rw [keptAt_cons_of_contains hip]
    | false =>
      rw [keptAt_cons_of_not_contains hip, ih fun d hd => h d (mem_cons_of_mem _ hd)]
      obtain ⟨range, y⟩ := c
      have hno : y = none := by
        cases y with
        | none => rfl
        | some z => rw [h _ mem_cons_self rfl] at hip; cases hip
      simp [exceptions, hno]

section

variable {addr : HandlerAddress} {c : Handler Ty}

lemma LeavesNoHandler.kept (h : LeavesNoHandler s as u addr) (hge : addr.frameIndex ≤ i)
    (hf : s.frames[i]? = some f) (hc : c ∈ continuesIn u addr i f) :
    exceptions (keptAt c.instructions.start (enteredIn i as)) = exceptionsOf i as := by
  refine exceptions_keptAt fun d hd hsome => ?_
  obtain ⟨b, hb, rfl⟩ := mem_map.mp hd
  obtain ⟨hmem, hidx⟩ := mem_filter.mp hb
  obtain rfl : b.frameIndex = i := by simpa using hidx
  exact h b hmem hsome hge f hf c hc

end

lemma WalkAt.exceptionStack {r : Option (CleanupEntry Ty)}
    (hat : WalkAt u s t init f r) (ht : u.target = .handler addr)
    (hf : ∀ g ∈ s.frames, ∀ p ∈ g.info.exceptions, p.Formed) :
    s.frames.take init.length = init ∧ s.frames[init.length]? = some f ∧
      t.frames = init ++ [f] := by
  have hget : s.frames[init.length]? = some f := by
    have hget := congrArg (fun l => l[init.length]?) hat.taken
    simpa using hget
  have htake : s.frames.take init.length = init := by
    have htake := congrArg (List.take init.length) hat.taken
    simpa [take_take] using htake
  have hkeep : (walkFrame u init.length f).1 = f.exceptionStack := by
    refine unwindSections_keeps ht fun p hp => ?_
    exact hf f (mem_of_getElem? hget) p (mem_of_mem_drop hp)
  exact ⟨htake, hget, by rw [hat.frames, hkeep]⟩

lemma walkFrame_leave {target : Nat} (ht : u.target = .instruction target)
    (hcur : u.cursor.frameIndex = init.length) :
    leaveWalk u.exception f.ip (.instruction target) (handlersAhead u f) f.exceptionStack =
      ((walkFrame u init.length f).1, (walkFrame u init.length f).2.map CleanupEntry.handler) := by
  have hbeg : sectionStart u.cursor init.length = u.cursor.sectionIndex := by
    simp [sectionStart, hcur]
  have heq := unwindSections_eq init.length f.ip u.cursor.sectionIndex
    (f.info.exceptions.drop u.cursor.sectionIndex) f.exceptionStack ht
  simp only [walkFrame, hbeg, handlersAhead, hcur, ← ht] at heq ⊢
  exact heq.symm

lemma WellNested.drop {ps : List (ProtectedSection Ty)} (h : WellNested ps) (k : Nat) :
    WellNested (ps.drop k) :=
  ⟨fun p hp => h.1 p (mem_of_mem_drop hp), h.2.sublist (drop_sublist k ps)⟩

variable {typeInit : Option ObjectRef}

section

variable (hm : HandlersMatch s a)
include hm

lemma HandlersMatch.leaves {target : Nat} (hs : s.frames = init ++ [f])
    (hcur : u.cursor.frameIndex = init.length) (ht : u.target = .instruction target)
    (hst : LeavesEntered s a.live u target) :
    (∀ entry, (walkFrame u init.length f).2 = some entry → (walkFrame u init.length f).1 =
        exceptions (keptAt entry.handler.instructions.start (enteredIn init.length a.live))) ∧
      ((walkFrame u init.length f).2 = none → (walkFrame u init.length f).1 =
        exceptions (keptAt target (enteredIn init.length a.live))) := by
  obtain ⟨hnest, haround, hown⟩ := hst f (by simp [hs])
  have hes : f.exceptionStack = exceptions (enteredIn init.length a.live) := by
    rw [hm.entries init.length f (by simp [hs]), zero_add]
    rfl
  have hwalk := walkFrame_leave (f := f) ht hcur
  have hwalkable : Walkable (handlersAhead u f) := walkable_positionsFrom (hnest.drop _)
  rw [hcur] at haround
  rw [hes] at hwalk
  constructor
  · intro entry hent
    rw [hent] at hwalk
    exact leaveWalk_cleanup hwalkable haround hwalk
  · intro hno
    rw [hno] at hwalk
    exact leaveWalk_arrived hwalkable hown haround hwalk

lemma HandlersMatch.cleanup {entry : CleanupEntry Ty} (hmode : s.exceptionMode = .unwinding u)
    (hst : StructuredUnwind s a.live u) (hn : NestedFree (enterCleanup u t entry))
    (hw : unwindWalk u typeInit s = .ok (.entered t entry)) :
    HandlersMatch (enterCleanup u t entry)
      { a with live := ⟨entry.addr, entry.handler.instructions,
          .cleanup { u with cursor := entry.next } false⟩ ::
        leaveTo entry.addr.frameIndex entry.handler.instructions.start a.live } := by
  have hnest := hm.nested.mode
  rw [hmode] at hnest
  obtain ⟨hcur, hst⟩ := hst
  -- the frame the handler is in, with what the walk left of its exception stack
  obtain ⟨init, f, es, htake, hframes, haddr, hes⟩ : ∃ (init : List (StackFrame Ty))
      (f : StackFrame Ty) (es : List ObjectRef),
      s.frames.take init.length = init ∧ t.frames = init ++ [{ f with exceptionStack := es }] ∧
      entry.addr.frameIndex = init.length ∧
      es = exceptions (keptAt entry.handler.instructions.start (enteredIn init.length a.live)) := by
    cases htgt : u.target with
    | handler addr =>
      rw [htgt] at hst
      obtain ⟨hform, hleav⟩ := hst
      have hle : u.targetFrame ≤ u.cursor.frameIndex := by
        by_contra hlt
        cases unwindWalk_above hlt hw
      obtain ⟨init, f, hat, hge⟩ := (unwindWalk_shape hcur hle hw).entered t entry rfl
      obtain ⟨htake, hget, hframes⟩ := hat.exceptionStack htgt hform
      have hent : entry.handler ∈ continuesIn u addr init.length f := by
        simp [continuesIn, hat.found]
      have hge' : addr.frameIndex ≤ init.length := by
        simpa [UnwindState.targetFrame, htgt] using hge
      refine ⟨init, f, f.exceptionStack, htake, hframes, (unwindSections_entry hat.found).1, ?_⟩
      rw [hleav.kept hge' hget hent, hm.entries _ f hget, zero_add]
    | instruction target =>
      rw [htgt] at hst
      obtain ⟨init, f, hs, hcur', hstays⟩ :=
        unwindWalk_here hcur (targetFrame_of_instruction hnest htgt) hw
      have hent := hstays.entered t entry rfl
      have hctx : t = _ := hstays.context
      exact ⟨init, f, _, by rw [hs, take_left], by rw [hctx],
        (unwindSections_entry hent).1,
        (hm.leaves hs hcur' htgt hst).1 entry hent⟩
  rw [haddr]
  refine hm.enter htake (g := { f with
      exceptionStack := es, ip := entry.handler.instructions.start, stackHeight := 0 }) ?_ haddr hes
    hn ?_
  · exact enterCleanup_frames hframes haddr
  · simp [enterCleanup, modifyFrame, setMode]

lemma HandlersMatch.caught {sig : Signal} (hst : StructuredUnwind s a.live u)
    (hn : NestedFree s') (hw : unwindWalk u typeInit s = .ok (.arrived t))
    (ht : u.target = .handler addr) (h : enterHandler t u.exception addr = .ok (sig, s')) :
    HandlersMatch s' { a with live := trackUnwind a.live s u typeInit s' } := by
  obtain ⟨hcur, hst⟩ := hst
  rw [ht] at hst
  obtain ⟨hform, hleav⟩ := hst
  have htf : u.targetFrame = addr.frameIndex := by simp [UnwindState.targetFrame, ht]
  have hle := target_le_of_enterHandler hcur hw htf h
  obtain ⟨init, f, hat, hlen⟩ := (unwindWalk_shape hcur hle hw).arrived t rfl
  have hidx : init.length = addr.frameIndex := hlen.trans htf
  obtain ⟨htake, hget, hframes⟩ := hat.exceptionStack ht hform
  obtain ⟨_, p, handler, y, hp, hh, hy, hs'⟩ := enterHandler_concat hframes hidx h
  have hhandler : handlerAt t.frames addr = some handler := by
    simp [handlerAt, hframes, ← hidx, hp, hh]
  have hf : f.exceptionStack = exceptions (keptAt handler.instructions.start
      (enteredIn init.length a.live)) := by
    have htgt : handler ∈ continuesIn u addr addr.frameIndex f := by simp [continuesIn, hp, hh]
    rw [← hidx] at htgt
    rw [hleav.kept (by omega) hget htgt, hm.entries _ f hget, zero_add]
  simp only [trackUnwind, hw, ht, hhandler, hy]
  rw [← hidx]
  refine hm.enter htake (by rw [hs']) hidx.symm ?_ hn
    (by rw [hs']; simp)
  simp only [caughtFrame, hf]
  rfl

section

variable (hmode : s.exceptionMode = .unwinding u) (hst : StructuredUnwind s a.live u)
  (hn : NestedFree s')
include hmode hst hn

lemma HandlersMatch.unwindStep (h : UnwindStep u e.typeInitialization s s' .exception) :
    HandlersMatch s' { a with live := trackUnwind a.live s u e.typeInitialization s' } := by
  have hnest := hm.nested.mode
  rw [hmode] at hnest
  have hfilt := h.mode_ne.2
  cases h with
  | cleanup t entry hw h =>
    subst h
    simp only [trackUnwind, hw]
    exact hm.cleanup hmode hst hn hw
  | raised hw =>
    simp only [trackUnwind, hw]
    refine hm.cut ?_ hn hfilt
    by_cases hle : u.targetFrame ≤ u.cursor.frameIndex
    · obtain ⟨n, hcut⟩ := (unwindWalk_shape hst.1 hle hw).raised s' rfl
      rw [hcut]
      conv => arg 1; rw [← take_append_drop n s.frames]
      exact survive_append _ _
    · cases unwindWalk_above hle hw
  | handler t addr hw ht _ h => exact hm.caught hst hn hw ht h
  | leave t ip hw ht hip _ h =>
    obtain ⟨hcur, hst⟩ := hst
    rw [ht] at hst
    have htgt := targetFrame_of_instruction hnest ht
    obtain ⟨init, f, hs, hcur', hstays⟩ := unwindWalk_here hcur htgt hw
    have hctx : t = _ := hstays.context
    have hes := (hm.leaves hs hcur' ht hst).2 (hstays.arrived t rfl)
    obtain ⟨_, _, hs'⟩ := arriveAt_eq h
    simp only [trackUnwind, hw, ht, if_neg hip, htgt, hcur']
    refine hm.arrive (by rw [hs, take_left]) (g := { f with
        exceptionStack := (walkFrame u init.length f).1, ip := ip, stackHeight := 0 }) ?_ hes hn
      hfilt
    rw [hs', hctx]
    simp only [htgt, hcur', modify_split]

lemma HandlersMatch.returned (hw : unwindWalk u e.typeInitialization s = .ok (.arrived t))
    (ht : u.target = .instruction usizeMax)
    (h : handleReturn (t.setMode .none) e.returned = .ok s') :
    HandlersMatch s' { a with live := trackUnwind a.live s u e.typeInitialization s' } := by
  have hnest := hm.nested.mode
  rw [hmode] at hnest
  obtain ⟨hcur, _⟩ := hst
  obtain ⟨init, f, hs, hcur', hstays⟩ :=
    unwindWalk_here hcur (targetFrame_of_instruction hnest ht) hw
  have hctx : t = _ := hstays.context
  obtain ⟨hsurv, hlt⟩ := handleReturn_survive h
  have hlen : s'.frames.length ≤ init.length := by
    simp only [setMode, hctx, length_append, length_singleton] at hlt
    omega
  simp only [trackUnwind, hw, ht]
  refine hm.cut ?_ hn fun state hstate => ?_
  · intro i k hk
    have hi : i < init.length := by
      have hlt := (List.getElem?_eq_some_iff.mp hk).1
      omega
    obtain ⟨g, hg, hes⟩ := hsurv i k hk
    rw [hctx] at hg
    simp only [setMode, getElem?_append_left hi] at hg
    exact ⟨g, by rw [hs, getElem?_append_left hi]; exact hg, hes⟩
  · rw [(handleReturn_quiet h).mode] at hstate
    cases hstate

end

lemma handlersMatch_step {ev : Event Ty} (hst : Structured (s, a) ev)
    (hstep : step host s ev = .ok s') : HandlersMatch s' (track a s ev s') := by
  have hn := nestedFree_step hm.nested hstep
  have hcase := step_cases hm.nested.mode hstep
  cases hcase with
  | normal e init f hmode hs h =>
    rw [track_normal hmode hs]
    exact hm.normalStep hs (hst.instruction hmode hs) hn h
  | throwing _ _ _ hmode h | accepted _ _ _ hmode _ h =>
    subst h
    simp only [track, hmode]
    exact ⟨hn, hm.within, hm.sorted, hm.entries, by simp [setMode]⟩
  | filter e state addr clauseOffset low frame high hmode _ hs hlow _ h =>
    subst h
    simp only [track, hmode]
    exact hm.filterEntered hs hlow hn
  | unwound e u hmode h =>
    simp only [Structured, hmode] at hst
    simp only [track, hmode]
    exact hm.unwindStep hmode hst hn h
  | returned e u t hmode hw ht h =>
    simp only [Structured, hmode] at hst
    simp only [track, hmode]
    exact hm.returned hmode hst hn hw ht h
  | interposed info this init f hs _ h =>
    obtain ⟨hq, f', n, hsm, hfresh, hframes⟩ := h
    have hlen : s'.frames.length = s.frames.length + 1 := by simp [hframes, hs]
    refine ⟨hn, hm.within.mono (by omega), hm.sorted, ?_, fun state hmode => ?_⟩
    · rw [hframes]
      exact hm.entries.called hm.within hs hsm.exceptionStack hfresh.exceptionStack
    · rw [hq.mode] at hmode
      exact (hm.suspended state hmode).congr hq.suspendedFrames
  | deferred info this h =>
    subst h
    exact hm
  | resume k hk h =>
    subst h
    exact ⟨hn, hm.within, hm.sorted, hm.entries, fun state hmode =>
      (hm.suspended state hmode).congr rfl⟩

end

lemma HandlersMatch.run (h : TrackedRun host Structured s a) : HandlersMatch s a :=
  h.invariant handlersMatch_entrypoint
    fun _ _ _ _ hm hst hstep => handlersMatch_step hm hst hstep

lemma step_rethrow {rest : List ObjectRef} (host : Host Ty)
    (hs : s.frames = init ++ [f]) (hi : Executes f .rethrow)
    (hm : s.exceptionMode.isNormal = true) (hes : f.exceptionStack = x :: rest) (e : Effects Ty) :
    step host s (.dispatch e) = .ok ((snapshot s f).setMode (.throwing x true)) := by
  have hlast : s.frames.getLast? = some f := by rw [hs]; exact getLast?_concat
  simp only [step, hm, stepNormal, hlast, hi.1, hi.2, execute, rethrow, hes]
  rfl

lemma exceptions_of_find {cs : List Entered} {range : Range}
    (hin : ∀ c ∈ cs, c.2.isSome = true → c.1.contains ip = true)
    (h : cs.find? (fun c => c.2.isSome && c.1.contains ip) = some (range, some x)) :
    ∃ rest, exceptions cs = x :: rest := by
  induction cs with
  | nil => cases h
  | cons c cs ih =>
    obtain ⟨r, y⟩ := c
    cases y with
    | none =>
      obtain ⟨rest, hrest⟩ := ih (fun d hd => hin d (mem_cons_of_mem _ hd)) h
      exact ⟨rest, by simpa [exceptions] using hrest⟩
    | some z =>
      have hip := hin _ mem_cons_self rfl
      simp only [find?_cons, Option.isSome_some, Bool.true_and, hip, Option.some.injEq,
        Prod.mk.injEq] at h
      exact ⟨exceptions cs, by simp [exceptions, h.2]⟩

/-- Along structured runs the exception stack of every frame lists the exceptions of the catch
handlers, filter handlers and filter clauses of the frame that have been entered and not left,
innermost first; so `rethrow` throws the exception of the innermost one around it. -/
theorem exception_stacks_of_entered_handlers (h : TrackedRun host Structured s a) :
    (∀ (i : Nat) (f : StackFrame Ty), s.frames[i]? = some f →
      f.exceptionStack = exceptionsOf i a.live) ∧
    ∀ init f e range x, s.frames = init ++ [f] → s.exceptionMode.isNormal = true →
      Executes f .rethrow → Structured (s, a) (.dispatch e) →
      (enteredIn init.length a.live).find? (fun c => c.2.isSome && c.1.contains f.ip) =
        some (range, some x) →
      ∃ s', step host s (.dispatch e) = .ok s' ∧ s'.exceptionMode = .throwing x true := by
  have hm := HandlersMatch.run h
  refine ⟨fun i f hf => ?_, fun init f e range x hs hmode hi hst hfind => ?_⟩
  · rw [hm.entries i f hf, zero_add]
  · have hin := hst.instruction hmode hs
    simp only [StructuredInstruction, hi.1, hi.2, hs, length_append] at hin
    obtain ⟨rest, hrest⟩ := exceptions_of_find hin hfind
    have hes : f.exceptionStack = x :: rest := by
      rw [hm.entries init.length f (by simp [hs]), zero_add]
      exact hrest
    exact ⟨_, step_rethrow host hs hi hmode hes e, rfl⟩

def catchInCatch : MethodInfo Unit where
  instructions := [.op, .op, .leave (.short 3), .rethrow]
  exceptions := [⟨⟨1, 2⟩, [⟨⟨2, 3⟩, .catchClause ()⟩]⟩, ⟨⟨0, 1⟩, [⟨⟨1, 4⟩, .catchClause ()⟩]⟩]

/-- The outer handler, after the inner one has been left. -/
def catchInCatchEnd : ThreadContext Unit :=
  { entrypoint catchInCatch [] with
    stack := [.objectRef (some 2)]
    frames := [{ StackFrame.new ⟨0, 0, 0⟩ catchInCatch with
      ip := 3, exceptionStack := [some 1] }]
    originalIp := 2
    originalStackHeight := 1 }

theorem exception_stack_of_catchInCatch :
    ∃ s', step unitHost catchInCatchEnd (.dispatch {}) = .ok s' ∧
      s'.exceptionMode = .throwing (some 1) true := by
  have hrun : TrackedRun unitHost Structured catchInCatchEnd
      ⟨[⟨⟨0, 1, 0⟩, ⟨1, 4⟩, .caught (some 1)⟩], []⟩ :=
    TrackedRun.of_guarded catchInCatch [] [.dispatch { result := .raise (some 1) }, .dispatch {},
      .dispatch {}, .dispatch {}, .dispatch { result := .raise (some 2) }, .dispatch {},
      .dispatch {}, .dispatch {}, .dispatch {}, .dispatch {}] (by decide) rfl
  exact (exception_stacks_of_entered_handlers hrun).2 [] _ {} _ _ rfl rfl ⟨rfl, rfl⟩ (by decide) rfl

def throwInCatch : MethodInfo Unit where
  instructions := [.op, .op, .leave (.short 3), .rethrow]
  exceptions := [⟨⟨0, 1⟩, [⟨⟨1, 2⟩, .catchClause ()⟩]⟩, ⟨⟨0, 2⟩, [⟨⟨2, 3⟩, .catchClause ()⟩]⟩]

/-- `B` has left the handler of `A`, but `A` stays on the exception stack beside `B`, and after the
handler of `B` has been left too: a `rethrow` that is in no handler throws `A`. -/
theorem throw_in_catch_keeps_stale : ∃ s a f t b g w,
    TrackedRun unitHost Runs.anyStep s a ∧ s.frames = [f] ∧
      f.exceptionStack = [some 2, some 1] ∧ exceptionsOf 0 a.live = [some 2] ∧
      Runs.exec (trackedNext unitHost) (s, a) [.dispatch {}, .dispatch {}] = some (t, b) ∧
      t.frames = [g] ∧ g.exceptionStack = [some 1] ∧ b.live = [] ∧
      step unitHost t (.dispatch {}) = .ok w ∧ w.exceptionMode = .throwing (some 1) true :=
  ⟨_, _, _, _, _, _, _, TrackedRun.of_exec throwInCatch [] [
    .dispatch { result := .raise (some 1) }, .dispatch {}, .dispatch {}, .dispatch {},
    .dispatch { result := .raise (some 2) }, .dispatch {}, .dispatch {}, .dispatch {}] rfl,
    rfl, rfl, rfl, rfl, rfl, rfl, rfl, rfl, rfl⟩

end DotnetVm
