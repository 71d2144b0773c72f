import DotnetVm.Steps

/-!
# Handler activations

The interpreter keeps one mode, one stack of saved unwinds and one exception
stack for each frame. What these are supposed to describe is the stack of
handler bodies that have been entered and not yet left. That stack is a history
variable: `track` maintains it beside a step, from what the step did, and the
interpreter never reads it.
-/

namespace DotnetVm

open List

variable {Ty : Type}

/-- What entered a handler body. A filter clause remembers the context its evaluation has to give
back; a finally or fault body remembers the unwind it is part of and whether a `leave` executed
below it is under way. -/
inductive ActivationKind (Ty : Type) where
  | caught (exception : ObjectRef)
  | clause (state : FilterState) (entry : ThreadContext Ty)
  | cleanup (unwind : UnwindState) (interrupted : Bool)
  deriving DecidableEq

/-- A handler body that has been entered and not yet left. -/
structure Activation (Ty : Type) where
  addr : HandlerAddress
  range : Range
  kind : ActivationKind Ty
  deriving DecidableEq

structure Activations (Ty : Type) where
  live : List (Activation Ty)
  suspended : List (Activation Ty)
  deriving DecidableEq

namespace Activation

variable (a : Activation Ty)

def frameIndex : Nat := a.addr.frameIndex

def isCleanup : Bool := match a.kind with
  | .cleanup _ _ => true
  | _ => false

def isClause : Bool := match a.kind with
  | .clause _ _ => true
  | _ => false

def isBody : Bool := match a.kind with
  | .caught _ => false
  | _ => true

def exception? : Option ObjectRef := match a.kind with
  | .caught x => some x
  | .clause state _ => some state.exception
  | .cleanup _ _ => none

/-- The unwind of a body a `leave` has interrupted. -/
def interrupted? : Option UnwindState := match a.kind with
  | .cleanup u true => some u
  | _ => none

def setInterrupted (interrupted : Bool) (a : Activation Ty) : Activation Ty := match a.kind with
  | .cleanup u _ => { a with kind := .cleanup u interrupted }
  | _ => a

/-- The mode a body runs in. -/
def mode? : Option ExceptionState := match a.kind with
  | .caught _ => none
  | .clause state _ => some (.filtering state)
  | .cleanup u _ => some (.executingHandler u)

end Activation

def popTo (count : Nat) (as : List (Activation Ty)) : List (Activation Ty) :=
  as.filter fun a => decide (a.frameIndex < count)

def leaveTo (i ip : Nat) (as : List (Activation Ty)) : List (Activation Ty) :=
  (popTo (i + 1) as).dropWhile fun a => a.frameIndex == i && !a.range.contains ip

def dropThrough (p : Activation Ty → Bool) : List (Activation Ty) → List (Activation Ty)
  | [] => []
  | a :: as => if p a then as else dropThrough p as

/-- Change the first activation satisfying `p`. -/
def modifyFirst (p : Activation Ty → Bool) (g : Activation Ty → Activation Ty) :
    List (Activation Ty) → List (Activation Ty)
  | [] => []
  | a :: as => if p a then g a :: as else a :: modifyFirst p g as

/-- A `leave` interrupts the innermost finally or fault body. -/
def interrupt (as : List (Activation Ty)) : List (Activation Ty) :=
  modifyFirst Activation.isCleanup (Activation.setInterrupted true) as

/-- A completed `leave` gives control back to the innermost body that one interrupted. -/
def resumeInterrupted (as : List (Activation Ty)) : List (Activation Ty) :=
  modifyFirst (fun a => a.interrupted?.isSome) (Activation.setInterrupted false) as

section

variable (frames : List (StackFrame Ty)) (addr : HandlerAddress)

def handlerAt : Option (Handler Ty) :=
  frames[addr.frameIndex]?.bind fun f =>
    f.info.exceptions[addr.sectionIndex]?.bind fun p => p.handlers[addr.handlerIndex]?

/-- A filter clause ends where its handler begins. -/
def clauseRange : Range :=
  match handlerAt frames addr with
  | some ⟨instructions, .filterClause clauseOffset⟩ => ⟨clauseOffset, instructions.start⟩
  | _ => ⟨0, 0⟩

end

def trackSearch (a : Activations Ty) (s s' : ThreadContext Ty) : Activations Ty :=
  match s'.exceptionMode with
  | .filtering state =>
    { live := ⟨state.handler, clauseRange s.frames state.handler, .clause state s⟩ ::
        popTo (state.handler.frameIndex + 1) a.live
      suspended := a.live.filter fun b => decide (state.handler.frameIndex < b.frameIndex) }
  | _ => a

/-- What an unwind leaves, and the body it enters. -/
def trackUnwind (live : List (Activation Ty)) (s : ThreadContext Ty) (u : UnwindState)
    (typeInit : Option ObjectRef) (s' : ThreadContext Ty) : List (Activation Ty) :=
  match unwindWalk u typeInit s with
  | .ok (.entered _ entry) =>
    ⟨entry.addr, entry.handler.instructions, .cleanup { u with cursor := entry.next } false⟩ ::
      leaveTo entry.addr.frameIndex entry.handler.instructions.start live
  | .ok (.raised t) => popTo t.frames.length live
  | .ok (.arrived t) =>
    match u.target with
    | .handler addr =>
      match handlerAt t.frames addr, u.exception with
      | some h, some x =>
        ⟨addr, h.instructions, .caught x⟩ :: leaveTo addr.frameIndex h.instructions.start live
      | _, _ => live
    | .instruction ip =>
      if ip = usizeMax then popTo s'.frames.length live
      else resumeInterrupted (leaveTo u.targetFrame ip live)
  | .error _ => live

section

variable (a : Activations Ty) (s : ThreadContext Ty)

def trackInstruction (f : StackFrame Ty)
    (e : Effects Ty) (s' : ThreadContext Ty) : Activations Ty :=
  match f.multicastState, f.info.instructions[f.ip]? with
  | none, some (.leave _) => { a with live := interrupt a.live }
  | none, some .endFinally => { a with live := dropThrough Activation.isCleanup a.live }
  | none, some .endFilter =>
    { live := a.suspended ++ dropThrough Activation.isClause a.live, suspended := [] }
  | none, some .throw | none, some .rethrow | none, some .ret =>
    { a with live := popTo s'.frames.length a.live }
  | _, _ =>
    let kept := if e.result.discardsFrame ∧ s'.frames.length = s.frames.length
      then s'.frames.length - 1 else s'.frames.length
    { a with live := popTo kept a.live }

/-- The activations after a step from `s` to `s'`. -/
def track (ev : Event Ty) (s' : ThreadContext Ty) : Activations Ty :=
  match ev with
  | .dispatch e =>
    match s.exceptionMode with
    | .throwing _ _ => { a with suspended := [] }
    | .searching _ => trackSearch a s s'
    | .unwinding u => { a with live := trackUnwind a.live s u e.typeInitialization s' }
    | .none | .filtering _ | .executingHandler _ =>
      match s.frames.getLast? with
      | some f => trackInstruction a s f e s'
      | none => a
  | .finalizer _ _ | .resume => a

end

section

variable {as : List (Activation Ty)} {b : Activation Ty} {u : UnwindState}

section

variable (as : List (Activation Ty))

/-- The running finally, fault and filter bodies, innermost first. -/
def bodies : List (Activation Ty) := as.filter Activation.isBody

def interruptedUnwinds : List UnwindState :=
  as.filterMap Activation.interrupted?

lemma isBody_of_isCleanup (h : b.isCleanup = true) : b.isBody = true := by
  unfold Activation.isCleanup at h
  unfold Activation.isBody
  cases hk : b.kind <;> simp_all

lemma isBody_of_isClause (h : b.isClause = true) : b.isBody = true := by
  unfold Activation.isClause at h
  unfold Activation.isBody
  cases hk : b.kind <;> simp_all

lemma interrupted?_eq_some : b.interrupted? = some u ↔ b.kind = .cleanup u true := by
  unfold Activation.interrupted?
  split
  · next w hk => simp [hk]
  · next hk => simp only [reduceCtorEq, false_iff]; exact hk u

lemma interrupted?_of_not_isBody (h : b.isBody = false) : b.interrupted? = none := by
  unfold Activation.isBody at h
  unfold Activation.interrupted?
  cases hk : b.kind <;> simp_all

lemma interruptedUnwinds_bodies : interruptedUnwinds (bodies as) = interruptedUnwinds as := by
  induction as with
  | nil => rfl
  | cons b as ih =>
    unfold interruptedUnwinds bodies at ih ⊢
    cases hb : b.isBody with
    | true => simp [filterMap_cons, hb, ih]
    | false => simp [hb, interrupted?_of_not_isBody hb, ih]

end

lemma bodies_cons (h : b.isBody = true) : bodies (b :: as) = b :: bodies as :=
  filter_cons_of_pos h

lemma interruptedUnwinds_cons (h : b.interrupted? = none) :
    interruptedUnwinds (b :: as) = interruptedUnwinds as := filterMap_cons_none h

lemma interruptedUnwinds_eq_nil (h : ∀ b ∈ as, b.interrupted? = none) :
    interruptedUnwinds as = [] := filterMap_eq_nil_iff.mpr h

variable {count : Nat}

lemma mem_popTo : b ∈ popTo count as ↔ b ∈ as ∧ b.frameIndex < count := by
  simp [popTo]

lemma popTo_eq_self (h : ∀ b ∈ as, b.frameIndex < count) : popTo count as = as :=
  filter_eq_self.mpr fun b hb => by simpa using h b hb

lemma bodies_popTo (h : ∀ b ∈ bodies as, b.frameIndex < count) :
    bodies (popTo count as) = bodies as := by
  unfold bodies popTo at *
  rw [filter_comm, filter_eq_self]
  exact fun b hb => by simpa using h b hb

lemma mem_leaveTo {i ip : Nat} (h : b ∈ leaveTo i ip as) : b ∈ as ∧ b.frameIndex < i + 1 :=
  mem_popTo.mp ((dropWhile_sublist _).subset h)

lemma filter_dropWhile {α : Type} {p q : α → Bool} {l : List α}
    (h : ∀ x ∈ l, q x = true → p x = false) : (l.dropWhile q).filter p = l.filter p := by
  induction l with
  | nil => rfl
  | cons x l ih =>
    cases hq : q x with
    | true =>
      have hp := h x (by simp) hq
      simp only [dropWhile_cons, hq, filter_cons, hp]
      exact ih fun y hy => h y (by simp [hy])
    | false => simp [hq]

lemma bodies_leaveTo {i ip : Nat} (h : ∀ b ∈ bodies as, b.frameIndex < i) :
    bodies (leaveTo i ip as) = bodies as := by
  have hpop : bodies (popTo (i + 1) as) = bodies as :=
    bodies_popTo fun b hb => Nat.lt_succ_of_lt (h b hb)
  rw [← hpop]
  refine filter_dropWhile fun b hb hq => ?_
  cases hbody : b.isBody with
  | false => rfl
  | true =>
    have hlt := h b (mem_filter.mpr ⟨(mem_popTo.mp hb).1, hbody⟩)
    simp only [Bool.and_eq_true, beq_iff_eq] at hq
    omega

variable {p : Activation Ty → Bool} {rest : List (Activation Ty)}
    {g : Activation Ty → Activation Ty}

lemma mem_dropThrough (h : b ∈ dropThrough p as) : b ∈ as := by
  induction as with
  | nil => exact h
  | cons c as ih =>
    unfold dropThrough at h
    split at h
    · exact mem_cons_of_mem _ h
    · exact mem_cons_of_mem _ (ih h)

section

variable (hp : ∀ b, p b = true → b.isBody = true)
include hp

lemma bodies_dropThrough (hb : p b = true) (h : bodies as = b :: rest) :
    bodies (dropThrough p as) = rest := by
  induction as with
  | nil => simp [bodies] at h
  | cons c as ih =>
    unfold bodies at h ih ⊢
    by_cases hbody : c.isBody = true
    · rw [filter_cons_of_pos hbody] at h
      obtain ⟨rfl, hrest⟩ := cons.inj h
      simpa [dropThrough, hb] using hrest
    · rw [filter_cons_of_neg hbody] at h
      have hc : ¬ p c = true := fun hc => hbody (hp c hc)
      simpa [dropThrough, hc] using ih h

lemma modifyFirst_of_bodies_nil (h : bodies as = []) : modifyFirst p g as = as := by
  induction as with
  | nil => rfl
  | cons c as ih =>
    unfold bodies at h ih
    by_cases hbody : c.isBody = true
    · rw [filter_cons_of_pos hbody] at h
      cases h
    · rw [filter_cons_of_neg hbody] at h
      have hc : ¬ p c = true := fun hc => hbody (hp c hc)
      simp [modifyFirst, hc, ih h]

lemma bodies_modifyFirst (hg : ∀ b, (g b).isBody = b.isBody) (hb : p b = true)
    (h : bodies as = b :: rest) : bodies (modifyFirst p g as) = g b :: rest := by
  induction as with
  | nil => simp [bodies] at h
  | cons c as ih =>
    unfold bodies at h ih ⊢
    by_cases hbody : c.isBody = true
    · rw [filter_cons_of_pos hbody] at h
      obtain ⟨rfl, hrest⟩ := cons.inj h
      simp [modifyFirst, hb, hg, hbody, hrest]
    · rw [filter_cons_of_neg hbody] at h
      have hc : ¬ p c = true := fun hc => hbody (hp c hc)
      simp [modifyFirst, hc, hbody, ih h]

end

lemma map_addr_modifyFirst (hg : ∀ b, (g b).addr = b.addr) (as : List (Activation Ty)) :
    (modifyFirst p g as).map Activation.addr = as.map Activation.addr := by
  induction as with
  | nil => rfl
  | cons c as ih =>
    unfold modifyFirst
    split
    · simp [hg]
    · simp [ih]

lemma addr_setInterrupted (i : Bool) (b : Activation Ty) : (b.setInterrupted i).addr = b.addr := by
  unfold Activation.setInterrupted
  split <;> rfl

lemma setInterrupted_of_kind {i j : Bool} (hk : b.kind = .cleanup u j) :
    b.setInterrupted i = { b with kind := .cleanup u i } := by
  unfold Activation.setInterrupted
  rw [hk]

lemma isBody_setInterrupted (i : Bool) (b : Activation Ty) :
    (b.setInterrupted i).isBody = b.isBody := by
  unfold Activation.setInterrupted
  split
  · next u j hk => simp [Activation.isBody, hk]
  · rfl

lemma isBody_of_interrupted (h : b.interrupted?.isSome = true) : b.isBody = true := by
  obtain ⟨w, hw⟩ := Option.isSome_iff_exists.mp h
  simp [Activation.isBody, interrupted?_eq_some.mp hw]

lemma interrupt_of_bodies_nil (h : bodies as = []) : interrupt as = as :=
  modifyFirst_of_bodies_nil (fun _ => isBody_of_isCleanup) h

lemma resumeInterrupted_of_bodies_nil (h : bodies as = []) : resumeInterrupted as = as :=
  modifyFirst_of_bodies_nil (fun _ => isBody_of_interrupted) h

lemma bodies_interrupt {i : Bool} (h : bodies as = b :: rest) (hk : b.kind = .cleanup u i) :
    bodies (interrupt as) = { b with kind := .cleanup u true } :: rest := by
  rw [← setInterrupted_of_kind hk]
  exact bodies_modifyFirst (fun _ => isBody_of_isCleanup) (isBody_setInterrupted true)
    (by simp [Activation.isCleanup, hk]) h

lemma bodies_resumeInterrupted (h : bodies as = b :: rest) (hk : b.kind = .cleanup u true) :
    bodies (resumeInterrupted as) = { b with kind := .cleanup u false } :: rest := by
  rw [← setInterrupted_of_kind hk]
  exact bodies_modifyFirst (fun _ => isBody_of_interrupted) (isBody_setInterrupted false)
    (by simp [interrupted?_eq_some.mpr hk]) h

/-- All activations belong to the first `count` frames. -/
def Within (count : Nat) (as : List (Activation Ty)) : Prop := ∀ b ∈ as, b.frameIndex < count

lemma Within.of_map_addr {bs : List (Activation Ty)} (h : Within count as)
    (heq : bs.map Activation.addr = as.map Activation.addr) : Within count bs := by
  intro c hc
  have hmem : c.addr ∈ as.map Activation.addr := heq ▸ mem_map_of_mem hc
  obtain ⟨d, hd, haddr⟩ := mem_map.mp hmem
  have hlt := h d hd
  unfold Activation.frameIndex at hlt ⊢
  rwa [← haddr]

lemma Within.interrupt (h : Within count as) : Within count (interrupt as) :=
  h.of_map_addr (map_addr_modifyFirst (addr_setInterrupted true) as)

lemma Within.resumeInterrupted (h : Within count as) : Within count (resumeInterrupted as) :=
  h.of_map_addr (map_addr_modifyFirst (addr_setInterrupted false) as)

lemma within_popTo (count : Nat) (as : List (Activation Ty)) : Within count (popTo count as) :=
  fun _ hc => (mem_popTo.mp hc).2

lemma Within.mono {n : Nat} (h : Within count as) (hle : count ≤ n) : Within n as :=
  fun c hc => lt_of_lt_of_le (h c hc) hle

end

/-- The machine beside its history. -/
def trackedNext (host : Host Ty) (p : ThreadContext Ty × Activations Ty) (ev : Event Ty) :
    Option (ThreadContext Ty × Activations Ty) :=
  (next host p.1 ev).map fun s' => (s', track p.2 p.1 ev s')

/-- An entry point has entered no handler. -/
def start (info : MethodInfo Ty) (args : List StackValue) : ThreadContext Ty × Activations Ty :=
  (entrypoint info args, ⟨[], []⟩)

/-- Runs from an entry point all of whose steps meet a condition. -/
def TrackedRun (host : Host Ty) (ok : ThreadContext Ty × Activations Ty → Event Ty → Prop)
    (s : ThreadContext Ty) (a : Activations Ty) : Prop :=
  ∃ info args, Runs.Run (trackedNext host) ok (start info args) (s, a)

variable {host : Host Ty}

lemma trackedNext_eq_some {p q : ThreadContext Ty × Activations Ty} {ev : Event Ty} :
    trackedNext host p ev = some q ↔ step host p.1 ev = .ok q.1 ∧ q.2 = track p.2 p.1 ev q.1 := by
  obtain ⟨s', a'⟩ := q
  simp only [trackedNext, Option.map_eq_some_iff, Prod.mk.injEq, next_eq_some]
  constructor
  · rintro ⟨t, ht, rfl, rfl⟩
    exact ⟨ht, rfl⟩
  · rintro ⟨ht, rfl⟩
    exact ⟨s', ht, rfl, rfl⟩

variable {ok : ThreadContext Ty × Activations Ty → Event Ty → Prop} {s : ThreadContext Ty}
  {a : Activations Ty}

lemma TrackedRun.invariant {I : ThreadContext Ty → Activations Ty → Prop}
    (hbeg : ∀ info args, I (entrypoint info args) ⟨[], []⟩)
    (hst : ∀ s a ev s', I s a → ok (s, a) ev → step host s ev = .ok s' →
      I s' (track a s ev s')) (h : TrackedRun host ok s a) : I s a := by
  obtain ⟨info, args, hrun⟩ := h
  refine hrun.invariant (I := fun p => I p.1 p.2) ?_ (hbeg info args)
  intro p ev q hp hok hq
  obtain ⟨hs, ha⟩ := trackedNext_eq_some.mp hq
  rw [ha]
  exact hst p.1 p.2 ev q.1 hp hok hs

section

variable (info : MethodInfo Ty) (args : List StackValue) (es : List (Event Ty))

lemma TrackedRun.of_exec (h : Runs.exec (trackedNext host) (start info args) es = some (s, a)) :
    TrackedRun host Runs.anyStep s a :=
  ⟨info, args, Runs.Run.of_exec_any es h⟩

lemma TrackedRun.of_guarded (hok : Runs.Guarded (trackedNext host) ok (start info args) es)
    (h : Runs.exec (trackedNext host) (start info args) es = some (s, a)) :
    TrackedRun host ok s a :=
  ⟨info, args, Runs.Run.of_exec es hok h⟩

end

def unitHost : Host Unit where
  systemException := .ok ()
  getHeapDescription := fun _ => .ok ()
  isA := fun _ _ => .ok true

end DotnetVm
