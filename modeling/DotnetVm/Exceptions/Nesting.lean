import DotnetVm.Exceptions.Phases

/-!
# Nested sections and what a `leave` pops

A frame's exception stack is popped while an unwind passes the handlers its
instruction pointer is inside. For sections that are listed inner first and
whose parts do not overlap, a `leave` pops exactly the exceptions of the
handlers that do not contain the place it goes to: its target, or the finally or
fault handler it has to run first.
-/

namespace DotnetVm

open Bool List

variable {Ty : Type} {ip target : Nat} {x : Option ObjectRef}

namespace Range

variable {r q : Range}

def overlaps (r q : Range) : Bool := decide (r.start < q.stop) && decide (q.start < r.stop)

def within (r q : Range) : Bool := decide (q.start ≤ r.start) && decide (r.stop ≤ q.stop)

lemma overlaps_comm (r q : Range) : r.overlaps q = q.overlaps r := and_comm _ _

lemma overlaps_of_contains (hr : r.contains ip = true) (hq : q.contains ip = true) :
    r.overlaps q = true := by
  simp only [contains_iff] at hr hq
  simp only [overlaps, and_eq_true, decide_eq_true_eq]
  omega

lemma not_contains_of_disjoint (h : r.overlaps q = false) (hr : r.contains ip = true) :
    q.contains ip = false := by
  cases hq : q.contains ip with
  | false => rfl
  | true => rw [overlaps_of_contains hr hq] at h; cases h

lemma contains_of_within (h : r.within q = true) (hr : r.contains ip = true) :
    q.contains ip = true := by
  simp only [contains_iff] at hr ⊢
  simp only [within, and_eq_true, decide_eq_true_eq] at h
  omega

lemma contains_start (h : r.start < r.stop) : r.contains r.start = true := by
  simp [h]

end Range

/-- The try block of a section and its handlers. -/
def ProtectedSection.ranges (p : ProtectedSection Ty) : List Range :=
  p.instructions :: p.handlers.map Handler.instructions

def ProtectedSection.Formed (p : ProtectedSection Ty) : Prop :=
  (∀ h ∈ p.handlers, h.instructions.start < h.instructions.stop ∧
    p.instructions.overlaps h.instructions = false) ∧
    p.handlers.Pairwise fun h h' => h.kind.isCatchOrFilter = true ∧
      h.instructions.overlaps h'.instructions = false

/-- Where an inner section meets a part of an outer one, all of it lies in that part. -/
def ProtectedSection.Inside (p q : ProtectedSection Ty) : Prop :=
  ∀ r ∈ q.ranges, (∃ y ∈ p.ranges, y.overlaps r = true) → ∀ y ∈ p.ranges, y.within r = true

/-- The sections of a method, listed inner first. -/
def WellNested (ps : List (ProtectedSection Ty)) : Prop :=
  (∀ p ∈ ps, p.Formed) ∧ ps.Pairwise ProtectedSection.Inside

instance (p : ProtectedSection Ty) : Decidable p.Formed := inferInstanceAs (Decidable (_ ∧ _))

instance (p q : ProtectedSection Ty) : Decidable (p.Inside q) := by
  unfold ProtectedSection.Inside
  infer_instance

instance (ps : List (ProtectedSection Ty)) : Decidable (WellNested ps) :=
  inferInstanceAs (Decidable (_ ∧ _))

section

variable {p q : ProtectedSection Ty} {h h' : Handler Ty}

lemma mem_ranges_try (p : ProtectedSection Ty) : p.instructions ∈ p.ranges :=
  mem_cons_self

lemma mem_ranges_handler (hh : h ∈ p.handlers) : h.instructions ∈ p.ranges :=
  mem_cons_of_mem _ (mem_map_of_mem hh)

section

variable (hf : p.Formed) (hh : h ∈ p.handlers) (hh' : h' ∈ p.handlers)
include hf hh hh'

lemma ProtectedSection.Formed.disjoint (hne : h ≠ h') :
    h.instructions.overlaps h'.instructions = false := by
  have hdisj : p.handlers.Pairwise fun h h' =>
      h.instructions.overlaps h'.instructions = false := hf.2.imp fun hrel => hrel.2
  have hsym : Std.Symm fun h h' : Handler Ty =>
      h.instructions.overlaps h'.instructions = false := by
    constructor
    intro h h' hrel
    rw [Range.overlaps_comm]
    exact hrel
  exact hdisj.forall hh hh' hne

lemma ProtectedSection.Formed.unique (hip : h.instructions.contains ip = true)
    (hip' : h'.instructions.contains ip = true) : h = h' := by
  by_contra hne
  have hno := hf.disjoint hh hh' hne
  rw [Range.overlaps_of_contains hip hip'] at hno
  cases hno

end

lemma exiting_iff : isExitingSection p ip (.instruction target) = true ↔
    (∀ h ∈ p.handlers, h.instructions.contains ip = true → h.instructions.contains target = false) ∧
      (p.instructions.contains ip = true ∨ ∃ h ∈ p.handlers, h.instructions.contains ip = true) ∧
      p.instructions.contains target = false := by
  simp only [isExitingSection]
  by_cases hany : (p.handlers.any fun h =>
      h.instructions.contains ip && h.instructions.contains target) = true
  · rw [if_pos hany]
    obtain ⟨h, hh, hboth⟩ := any_eq_true.mp hany
    simp only [and_eq_true] at hboth
    simp only [false_eq_true, false_iff]
    rintro ⟨hno, _⟩
    rw [hno h hh hboth.1] at hboth
    cases hboth.2
  · rw [if_neg hany]
    have hno : ∀ h ∈ p.handlers, h.instructions.contains ip = true →
        h.instructions.contains target = false := by
      intro h hh hip
      by_contra htgt
      refine hany (any_eq_true.mpr ⟨h, hh, ?_⟩)
      rw [hip]
      simpa using htgt
    simp only [and_eq_true, or_eq_true, any_eq_true, not_eq_true']
    exact ⟨fun hrest => ⟨hno, hrest⟩, fun hrest => hrest.2⟩

lemma exiting_of_inside {r : Range} (hin : p.Inside q) (hr : r ∈ q.ranges)
    (hrip : r.contains ip = true) (hrt : r.contains target = false) (hh : h ∈ p.handlers)
    (hip : h.instructions.contains ip = true) :
    isExitingSection p ip (.instruction target) = true := by
  have hwin := hin r hr ⟨_, mem_ranges_handler hh, Range.overlaps_of_contains hip hrip⟩
  have hout : ∀ y ∈ p.ranges, y.contains target = false := by
    intro y hy
    by_contra hty
    rw [Range.contains_of_within (hwin y hy) (by simpa using hty)] at hrt
    cases hrt
  exact exiting_iff.mpr ⟨fun h' hh' _ => hout _ (mem_ranges_handler hh'), .inr ⟨h, hh, hip⟩,
    hout _ (mem_ranges_try p)⟩

end

/-- A handler and the section it belongs to. -/
abbrev Position (Ty : Type) := ProtectedSection Ty × Handler Ty

def positionsFrom (cursor : HandlerAddress) (frameIndex : Nat) :
    Nat → List (ProtectedSection Ty) → List (Position Ty)
  | _, [] => []
  | k, p :: ps => (p.handlers.drop (handlerStart cursor frameIndex k)).map (p, ·) ++
      positionsFrom cursor frameIndex (k + 1) ps

inductive Before : Position Ty → Position Ty → Prop
  | same (p : ProtectedSection Ty) (h h' : Handler Ty) (hk : h.kind.isCatchOrFilter = true)
      (hd : h.instructions.overlaps h'.instructions = false) : Before (p, h) (p, h')
  | inner (q r : Position Ty) (hi : q.1.Inside r.1) : Before q r

variable {cursor : HandlerAddress} {ps : List (ProtectedSection Ty)}

lemma mem_positionsFrom {n k : Nat}
    {q : Position Ty} (h : q ∈ positionsFrom cursor n k ps) : q.1 ∈ ps ∧ q.2 ∈ q.1.handlers := by
  induction ps generalizing k with
  | nil => simp [positionsFrom] at h
  | cons p ps ih =>
    rw [positionsFrom, mem_append, mem_map] at h
    rcases h with ⟨h, hmem, rfl⟩ | h
    · exact ⟨mem_cons_self, mem_of_mem_drop hmem⟩
    · exact ⟨mem_cons_of_mem _ (ih h).1, (ih h).2⟩

lemma positionsFrom_before {n k : Nat} (h : WellNested ps) :
    (positionsFrom cursor n k ps).Pairwise Before := by
  induction ps generalizing k with
  | nil => exact Pairwise.nil
  | cons p ps ih =>
    obtain ⟨hform, hinside⟩ := h
    obtain ⟨hp, hps⟩ := pairwise_cons.mp hinside
    rw [positionsFrom, pairwise_append]
    refine ⟨?_, ih ⟨fun q hq => hform q (mem_cons_of_mem _ hq), hps⟩, ?_⟩
    · rw [pairwise_map]
      refine ((hform p mem_cons_self).2.sublist (drop_sublist _ _)).imp ?_
      intro h h' hrel
      exact .same p h h' hrel.1 hrel.2
    · intro q hq r hr
      obtain ⟨h, _, rfl⟩ := mem_map.mp hq
      exact .inner _ _ (hp r.1 (mem_positionsFrom hr).1)

def leaveWalk (x : Option ObjectRef) (ip : Nat) (dest : UnwindTarget) :
    List (Position Ty) → List ObjectRef → List ObjectRef × Option (Handler Ty)
  | [], es => (es, none)
  | (p, h) :: qs, es =>
    if isExitingSection p ip dest = false then leaveWalk x ip dest qs es
    else if h.instructions.contains ip then
      leaveWalk x ip dest qs (if h.kind.isCatchOrFilter then es.tail else es)
    else if h.kind.shouldRun x then (es, some h)
    else leaveWalk x ip dest qs es

variable {dest : UnwindTarget} {p : ProtectedSection Ty} {hs : List (Handler Ty)}
  {qs : List (Position Ty)}

lemma leaveWalk_stays {es : List ObjectRef} (h : isExitingSection p ip dest = false) :
    leaveWalk x ip dest (hs.map (p, ·) ++ qs) es = leaveWalk x ip dest qs es := by
  induction hs with
  | nil => rfl
  | cons c hs ih => simpa [leaveWalk, h] using ih

lemma leaveWalk_handlers {es : List ObjectRef} {i : Nat} (h : isExitingSection p ip dest = true) :
    leaveWalk x ip dest (hs.map (p, ·) ++ qs) es =
      match unwindHandlers x ip i hs es with
      | (es', some (_, c)) => (es', some c)
      | (es', none) => leaveWalk x ip dest qs es' := by
  induction hs generalizing i es with
  | nil => rfl
  | cons c hs ih =>
    simp only [map_cons, cons_append, leaveWalk, h, true_eq_false, if_false,
      unwindHandlers]
    split
    · exact ih
    · split
      · rfl
      · exact ih

lemma unwindSections_eq {u : UnwindState} (n ip k : Nat) (ps : List (ProtectedSection Ty))
    (es : List ObjectRef) (ht : u.target = .instruction target) :
    (fun r : List ObjectRef × Option (CleanupEntry Ty) => (r.1, r.2.map CleanupEntry.handler))
        (unwindSections u n ip k ps es) =
      leaveWalk u.exception ip u.target (positionsFrom u.cursor n k ps) es := by
  induction ps generalizing k es with
  | nil => rfl
  | cons p ps ih =>
    have hstop : stopsBefore u.target n k = false := by rw [ht]; rfl
    simp only [unwindSections, hstop, false_eq_true, if_false, positionsFrom]
    split
    · next hexit =>
      rw [leaveWalk_handlers hexit]
      rcases unwindHandlers u.exception ip (handlerStart u.cursor n k)
        (p.handlers.drop (handlerStart u.cursor n k)) es with ⟨es', _ | ⟨j, c⟩⟩
      · exact ih _ _
      · rfl
    · next hexit =>
      rw [leaveWalk_stays (by simpa using hexit)]
      exact ih _ _

section

variable {q r : Position Ty}

lemma Before.exiting (hb : Before q r) (hq : q.2 ∈ q.1.handlers)
    (hqip : q.2.instructions.contains ip = true) (hr : r.2 ∈ r.1.handlers)
    (hrip : r.2.instructions.contains ip = true)
    (hexit : isExitingSection r.1 ip (.instruction target) = true) :
    isExitingSection q.1 ip (.instruction target) = true := by
  cases hb with
  | same p h h' _ _ => exact hexit
  | inner _ _ hi =>
    have hout := (exiting_iff.mp hexit).1 r.2 hr hrip
    exact exiting_of_inside hi (mem_ranges_handler hr) hrip hout hq hqip

lemma Before.cleanup (hb : Before q r) (hf : r.1.Formed) (hq : q.2 ∈ q.1.handlers)
    (hqip : q.2.instructions.contains ip = true) (hr : r.2 ∈ r.1.handlers)
    (hrip : r.2.instructions.contains ip = false)
    (hexit : isExitingSection r.1 ip (.instruction target) = true) :
    isExitingSection q.1 ip (.instruction target) = true ∧
      q.2.instructions.contains r.2.instructions.start = false := by
  have hbeg := Range.contains_start (hf.1 r.2 hr).1
  cases hb with
  | same p h h' _ hd =>
    refine ⟨hexit, Range.not_contains_of_disjoint ?_ hbeg⟩
    rw [Range.overlaps_comm]
    exact hd
  | inner _ _ hi =>
    obtain ⟨hno, hin, htry⟩ := exiting_iff.mp hexit
    -- the part of the outer section the instruction is in
    obtain ⟨y, hy, hyip, hyt, hdisj⟩ : ∃ y ∈ r.1.ranges, y.contains ip = true ∧
        y.contains target = false ∧ y.overlaps r.2.instructions = false := by
      rcases hin with hin | ⟨c, hc, hcip⟩
      · exact ⟨_, mem_ranges_try r.1, hin, htry, (hf.1 r.2 hr).2⟩
      · refine ⟨_, mem_ranges_handler hc, hcip, hno c hc hcip, ?_⟩
        refine hf.disjoint hc hr fun heq => ?_
        rw [heq, hrip] at hcip
        cases hcip
    have hexit' := exiting_of_inside hi hy hyip hyt hq hqip
    refine ⟨hexit', ?_⟩
    by_contra hcont
    have hwin := hi y hy ⟨_, mem_ranges_handler hq, Range.overlaps_of_contains hqip hyip⟩
    have hyes := Range.contains_of_within (hwin _ (mem_ranges_handler hq))
      (by simpa using hcont)
    rw [Range.not_contains_of_disjoint hdisj hyes] at hbeg
    cases hbeg

lemma Before.around (hb : Before q r) (hf : q.1.Formed) (hq : q.2 ∈ q.1.handlers)
    (hrun : q.2.kind.isCatchOrFilter = false)
    (hexit : isExitingSection q.1 ip (.instruction target) = true)
    (hr : r.2 ∈ r.1.handlers) (hrip : r.2.instructions.contains ip = true) :
    r.2.instructions.contains q.2.instructions.start = true := by
  cases hb with
  | same p h h' hk _ => rw [hk] at hrun; cases hrun
  | inner _ _ hi =>
    obtain ⟨_, hin, _⟩ := exiting_iff.mp hexit
    obtain ⟨y, hy, hyip⟩ : ∃ y ∈ q.1.ranges, y.contains ip = true := by
      rcases hin with hin | ⟨c, hc, hcip⟩
      · exact ⟨_, mem_ranges_try q.1, hin⟩
      · exact ⟨_, mem_ranges_handler hc, hcip⟩
    have hwin := hi _ (mem_ranges_handler hr) ⟨y, hy, Range.overlaps_of_contains hyip hrip⟩
    exact Range.contains_of_within (hwin _ (mem_ranges_handler hq))
      (Range.contains_start (hf.1 q.2 hq).1)

end

abbrev Entered := Range × Option ObjectRef

/-- The exceptions of entered handlers, innermost first. -/
def exceptions (as : List Entered) : List ObjectRef := as.filterMap Prod.snd

def keptAt (ip : Nat) (as : List Entered) : List Entered :=
  as.dropWhile fun a => !a.1.contains ip

/-- The entered handlers are the ones around the instruction. -/
def Around (ip : Nat) (as : List Entered) (qs : List (Position Ty)) : Prop :=
  as.map (fun a => (a.1, a.2.isSome)) =
    (qs.filter fun q => q.2.instructions.contains ip).map fun q =>
      (q.2.instructions, q.2.kind.isCatchOrFilter)

instance (ip : Nat) (as : List Entered) (qs : List (Position Ty)) : Decidable (Around ip as qs) :=
  inferInstanceAs (Decidable (_ = _))

variable {as : List Entered} {q : Position Ty} {qs : List (Position Ty)}

lemma around_outside (h : q.2.instructions.contains ip = false) :
    Around ip as (q :: qs) ↔ Around ip as qs := by
  unfold Around
  rw [filter_cons_of_neg (by simp [h])]

lemma Around.cons (h : q.2.instructions.contains ip = true) (ha : Around ip as (q :: qs)) :
    ∃ y as', as = (q.2.instructions, y) :: as' ∧ y.isSome = q.2.kind.isCatchOrFilter ∧
      Around ip as' qs := by
  unfold Around at ha
  rw [filter_cons_of_pos (by exact h)] at ha
  cases as with
  | nil => cases ha
  | cons a as' =>
    obtain ⟨range, y⟩ := a
    simp only [map_cons, cons.injEq, Prod.mk.injEq] at ha
    obtain ⟨⟨rfl, hy⟩, hrest⟩ := ha
    exact ⟨y, as', rfl, hy, hrest⟩

variable {kind : HandlerKind Ty}

lemma exceptions_cons {range : Range} {y : Option ObjectRef} (h : y.isSome = kind.isCatchOrFilter) :
    (if kind.isCatchOrFilter then (exceptions ((range, y) :: as)).tail
      else exceptions ((range, y) :: as)) = exceptions as := by
  rw [← h]
  cases y <;> simp [exceptions]

/-- The positions a walk looks at: nested, and handlers of their own sections. -/
structure Walkable (qs : List (Position Ty)) : Prop where
  before : qs.Pairwise Before
  formed : ∀ q ∈ qs, q.1.Formed ∧ q.2 ∈ q.1.handlers

lemma Walkable.tail (h : Walkable (q :: qs)) : Walkable qs :=
  ⟨(pairwise_cons.mp h.before).2, fun r hr => h.formed r (mem_cons_of_mem _ hr)⟩

lemma walkable_positionsFrom {n k : Nat} (h : WellNested ps) :
    Walkable (positionsFrom cursor n k ps) := by
  refine ⟨positionsFrom_before h, fun q hq => ?_⟩
  obtain ⟨hp, hh⟩ := mem_positionsFrom hq
  exact ⟨h.1 q.1 hp, hh⟩

variable {dest : UnwindTarget} {es : List ObjectRef}

lemma leaveWalk_found {c : Handler Ty} (h : (leaveWalk x ip dest qs es).2 = some c) :
    ∃ p, (p, c) ∈ qs ∧ isExitingSection p ip dest = true ∧ c.instructions.contains ip = false ∧
      c.kind.shouldRun x = true := by
  induction qs generalizing es with
  | nil => cases h
  | cons q qs ih =>
    have hrest : ∀ es, (leaveWalk x ip dest qs es).2 = some c → ∃ p, (p, c) ∈ q :: qs ∧
        isExitingSection p ip dest = true ∧ c.instructions.contains ip = false ∧
        c.kind.shouldRun x = true := by
      intro es h
      obtain ⟨p, hp, hfacts⟩ := ih h
      exact ⟨p, mem_cons_of_mem _ hp, hfacts⟩
    obtain ⟨p, d⟩ := q
    simp only [leaveWalk] at h
    split at h
    · exact hrest _ h
    · next hexit =>
      split at h
      · exact hrest _ h
      · next hout =>
        split at h
        · next hrun =>
          obtain rfl := Option.some.inj h
          exact ⟨p, mem_cons_self, by simpa using hexit, eq_false_of_ne_true hout, hrun⟩
        · exact hrest _ h

lemma isCatchOrFilter_of_shouldRun (h : kind.shouldRun x = true) :
    kind.isCatchOrFilter = false := by
  cases kind <;> simp_all [HandlerKind.shouldRun, HandlerKind.isCatchOrFilter]

lemma leaveWalk_keeps
    (h : ∀ q ∈ qs, q.2.instructions.contains ip = true → isExitingSection q.1 ip dest = false) :
    (leaveWalk x ip dest qs es).1 = es := by
  induction qs with
  | nil => rfl
  | cons q qs ih =>
    have hrest := ih fun r hr => h r (mem_cons_of_mem _ hr)
    simp only [leaveWalk]
    split
    · exact hrest
    · next hexit =>
      split
      · next hin => exact absurd (h _ mem_cons_self hin) hexit
      · split
        · rfl
        · exact hrest

lemma keptAt_cons_of_not_contains {a : Entered} (h : a.1.contains ip = false) :
    keptAt ip (a :: as) = keptAt ip as := by simp [keptAt, h]

lemma keptAt_cons_of_contains {a : Entered} (h : a.1.contains ip = true) :
    keptAt ip (a :: as) = a :: as := by simp [keptAt, h]

lemma Around.keptAt_eq {k : Nat} (ha : Around ip as qs)
    (h : ∀ q ∈ qs, q.2.instructions.contains ip = true → q.2.instructions.contains k = true) :
    keptAt k as = as := by
  cases as with
  | nil => rfl
  | cons a as =>
    apply keptAt_cons_of_contains
    have hmem : (a.1, a.2.isSome) ∈ (a :: as).map fun a => (a.1, a.2.isSome) := by simp
    rw [ha] at hmem
    obtain ⟨q, hq, heq⟩ := mem_map.mp hmem
    obtain ⟨hq, hin⟩ := mem_filter.mp hq
    rw [← (Prod.mk.inj heq).1]
    exact h q hq hin

lemma leaveWalk_cleanup {c : Handler Ty} (hw : Walkable qs)
    (ha : Around ip as qs)
    (h : leaveWalk x ip (.instruction target) qs (exceptions as) = (es, some c)) :
    es = exceptions (keptAt c.instructions.start as) := by
  induction qs generalizing as with
  | nil => cases h
  | cons q qs ih =>
    obtain ⟨hbef, _⟩ := pairwise_cons.mp hw.before
    obtain ⟨hform, hmem⟩ := hw.formed q mem_cons_self
    obtain ⟨p, d⟩ := q
    -- what a found handler says about this one
    have hleft : ∀ es', (leaveWalk x ip (.instruction target) qs es').2 = some c →
        d.instructions.contains ip = true →
        isExitingSection p ip (.instruction target) = true ∧
          d.instructions.contains c.instructions.start = false := by
      intro es' hfnd hin
      obtain ⟨p', hc, hexit, hout, _⟩ := leaveWalk_found hfnd
      obtain ⟨hform', hmem'⟩ := hw.formed _ (mem_cons_of_mem _ hc)
      exact (hbef _ hc).cleanup hform' hmem hin hmem' hout hexit
    simp only [leaveWalk] at h
    split at h
    · next hstay =>
      by_cases hin : d.instructions.contains ip = true
      · obtain ⟨hexit, _⟩ := hleft _ (congrArg Prod.snd h) hin
        rw [hexit] at hstay
        cases hstay
      · exact ih hw.tail ((around_outside (eq_false_of_ne_true hin)).mp ha) h
    · next hexit =>
      split at h
      · next hin =>
        obtain ⟨y, as', rfl, hy, ha'⟩ := ha.cons hin
        obtain ⟨_, hbeg⟩ := hleft _ (congrArg Prod.snd h) hin
        rw [exceptions_cons hy] at h
        rw [keptAt_cons_of_not_contains hbeg]
        exact ih hw.tail ha' h
      · next hout =>
        have ha' := (around_outside (eq_false_of_ne_true hout)).mp ha
        split at h
        · next hrun =>
          obtain ⟨rfl, hc⟩ := Prod.mk.inj h
          obtain rfl := Option.some.inj hc
          rw [ha'.keptAt_eq]
          intro r hr hrip
          exact (hbef r hr).around hform hmem (isCatchOrFilter_of_shouldRun hrun)
            (by simpa using hexit) (hw.formed r (mem_cons_of_mem _ hr)).2 hrip
        · exact ih hw.tail ha' h

lemma leaveWalk_arrived (hw : Walkable qs)
    (hown : ∀ q ∈ qs, q.2.instructions.contains ip = true →
      q.1.instructions.contains target = false)
    (ha : Around ip as qs)
    (h : leaveWalk x ip (.instruction target) qs (exceptions as) = (es, none)) :
    es = exceptions (keptAt target as) := by
  induction qs generalizing as with
  | nil =>
    obtain ⟨rfl, _⟩ := Prod.mk.inj h
    have hnil : as = [] := by simpa [Around] using ha
    rw [hnil]
    rfl
  | cons q qs ih =>
    obtain ⟨hbef, _⟩ := pairwise_cons.mp hw.before
    obtain ⟨hform, hmem⟩ := hw.formed q mem_cons_self
    have hrest : ∀ as', Around ip as' qs → leaveWalk x ip (.instruction target) qs
        (exceptions as') = (es, none) → es = exceptions (keptAt target as') := fun as' =>
      ih hw.tail fun r hr => hown r (mem_cons_of_mem _ hr)
    have hown' := hown q mem_cons_self
    obtain ⟨p, d⟩ := q
    simp only [leaveWalk] at h
    split at h
    · next hstay =>
      by_cases hin : d.instructions.contains ip = true
      · -- the target is inside this handler, hence inside all the later ones
        obtain ⟨y, as', rfl, hy, ha'⟩ := ha.cons hin
        have hkeep : d.instructions.contains target = true := by
          by_contra hout
          have hexit : isExitingSection p ip (.instruction target) = true := by
            refine exiting_iff.mpr ⟨fun c hc hcip => ?_, .inr ⟨d, hmem, hin⟩, hown' hin⟩
            rw [hform.unique hc hmem hcip hin]
            exact eq_false_of_ne_true hout
          rw [hexit] at hstay
          cases hstay
        rw [keptAt_cons_of_contains hkeep]
        have hno : ∀ r ∈ qs, r.2.instructions.contains ip = true →
            isExitingSection r.1 ip (.instruction target) = false := by
          intro r hr hrip
          by_contra hexit
          have hexit' := (hbef r hr).exiting hmem hin (hw.formed r (mem_cons_of_mem _ hr)).2
            hrip (by simpa using hexit)
          rw [hexit'] at hstay
          cases hstay
        have hsm : (leaveWalk x ip (.instruction target) qs
            (exceptions ((d.instructions, y) :: as'))).1 = _ := leaveWalk_keeps hno
        rw [h] at hsm
        exact hsm
      · exact hrest _ ((around_outside (eq_false_of_ne_true hin)).mp ha) h
    · next hexit =>
      split at h
      · next hin =>
        obtain ⟨y, as', rfl, hy, ha'⟩ := ha.cons hin
        have hout : d.instructions.contains target = false :=
          (exiting_iff.mp (by simpa using hexit)).1 d hmem hin
        rw [exceptions_cons hy] at h
        rw [keptAt_cons_of_not_contains hout]
        exact hrest _ ha' h
      · next hout =>
        split at h
        · cases h
        · exact hrest _ ((around_outside (eq_false_of_ne_true hout)).mp ha) h

end DotnetVm
