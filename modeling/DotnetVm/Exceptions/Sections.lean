import DotnetVm.Exceptions.Candidates

/-!
# Nested sections and the cleanup they ask for

The protected sections of a method are stored inner ones first. When they are
properly nested, a position inside a handler lies in the same outer try blocks as
the block the handler belongs to, and so the walk of an unwind, which looks at the
instruction of the handler it has run last, goes on with the sections that protected
the instruction it started from.

The finally and fault handlers that a walk runs in a frame are listed as one plan,
whose first entry that is left each stage of the walk meets.
-/

namespace DotnetVm

open List

variable {Ty : Type} {p q : ProtectedSection Ty} {ps : List (ProtectedSection Ty)} {h : Handler Ty}
  {target : UnwindTarget} {exception : Option ObjectRef} {n ip at' : Nat}

/-- The instruction lies in the try block or in a handler of the section. -/
def ProtectedSection.Covers (p : ProtectedSection Ty) (ip : Nat) : Prop :=
  p.instructions.contains ip = true ∨ ∃ h ∈ p.handlers, h.instructions.contains ip = true

/-- The try block and the handlers of the section do not overlap. -/
structure ProtectedSection.WellFormed (p : ProtectedSection Ty) : Prop where
  tryApart : ∀ ip, p.instructions.contains ip = true →
    ∀ h ∈ p.handlers, h.instructions.contains ip = false
  handlersApart : p.handlers.Pairwise fun h h' => ∀ ip, h.instructions.contains ip = true →
    h'.instructions.contains ip = false

/-- A section lies in the try block of another one, in one of its handlers, or apart from it. -/
def ProtectedSection.NestedIn (p q : ProtectedSection Ty) : Prop :=
  (∀ ip, p.Covers ip → q.instructions.contains ip = true) ∨
    (∃ h ∈ q.handlers, ∀ ip, p.Covers ip → h.instructions.contains ip = true) ∨
    ∀ ip, p.Covers ip → ¬ q.Covers ip

/-- Every section lies in, or apart from, each section stored after it. -/
structure ProperlyNested (ps : List (ProtectedSection Ty)) : Prop where
  sections : ∀ p ∈ ps, p.WellFormed
  order : ps.Pairwise ProtectedSection.NestedIn

section

variable (hpq : p.NestedIn q) (hq : q.WellFormed) (hh : h ∈ p.handlers)
include hpq hq hh

lemma contains_of_nested (hip : p.instructions.contains ip = true)
    (hat : h.instructions.contains at' = true) :
    q.instructions.contains at' = q.instructions.contains ip := by
  have hcov : p.Covers ip := Or.inl hip
  have hcov' : p.Covers at' := Or.inr ⟨h, hh, hat⟩
  obtain hin | ⟨g, hg, hin⟩ | hap := hpq
  · rw [hin ip hcov, hin at' hcov']
  · -- in a handler of `q` neither is in the try block of `q`
    have hout : ∀ j, g.instructions.contains j = true → q.instructions.contains j = false := by
      intro j hj
      by_contra htry
      rw [hq.tryApart j (by simpa using htry) g hg] at hj
      cases hj
    rw [hout ip (hin ip hcov), hout at' (hin at' hcov')]
  · have hout : ∀ j, p.Covers j → q.instructions.contains j = false := by
      intro j hj
      by_contra htry
      exact hap j hj (Or.inl (by simpa using htry))
    rw [hout ip hcov, hout at' hcov']

lemma handlers_of_nested (hip : p.instructions.contains ip = true)
    (hat : h.instructions.contains at' = true)
    (hout : ∀ g ∈ q.handlers, g.instructions.contains ip = false) :
    ∀ g ∈ q.handlers, g.instructions.contains at' = false := by
  have hcov : p.Covers ip := Or.inl hip
  have hcov' : p.Covers at' := Or.inr ⟨h, hh, hat⟩
  intro g hg
  obtain hin | ⟨k, hk, hin⟩ | hap := hpq
  · exact hq.tryApart at' (hin at' hcov') g hg
  · have hkip := hin ip hcov
    rw [hout k hk] at hkip
    cases hkip
  · by_contra hgat
    exact hap at' hcov' (Or.inr ⟨g, hg, by simpa using hgat⟩)

end

section

variable (target : UnwindTarget)

/-- The target lies outside the try block of the section. -/
def UnwindTarget.outside (p : ProtectedSection Ty) : Bool :=
  match target with
  | .handler _ => true
  | .instruction targetIp => !p.instructions.contains targetIp

/-- The section protects `ip` and is left by the unwind. -/
def leavesSection (n i ip : Nat) (p : ProtectedSection Ty) : Bool :=
  !stopsBefore target n i && p.instructions.contains ip && target.outside p

def resumesSection (h : Handler Ty) : Bool :=
  match target with
  | .handler _ => false
  | .instruction targetIp => !h.instructions.contains targetIp

end

def plannedHandlers (target : UnwindTarget) (exception : Option ObjectRef) (n i count : Nat) :
    Nat → List (Handler Ty) → List (CleanupEntry Ty)
  | _, [] => []
  | k, h :: hs =>
    if h.kind.shouldRun exception then
      ⟨⟨n, i, k⟩, h, resumeAfter ⟨n, i, k⟩ count⟩ ::
        if resumesSection target h then plannedHandlers target exception n i count (k + 1) hs
          else []
    else plannedHandlers target exception n i count (k + 1) hs

def plannedSections (target : UnwindTarget) (exception : Option ObjectRef) (n ip : Nat) :
    Nat → List (ProtectedSection Ty) → List (CleanupEntry Ty)
  | _, [] => []
  | i, p :: ps =>
    (if leavesSection target n i ip p then
        plannedHandlers target exception n i p.handlers.length 0 p.handlers
      else []) ++ plannedSections target exception n ip (i + 1) ps

variable {i : Nat}

lemma stopsBefore_mono {j : Nat} (hij : i ≤ j) (hs : stopsBefore target n i = true) :
    stopsBefore target n j = true := by
  cases target with
  | handler a =>
    simp only [stopsBefore, Bool.and_eq_true, decide_eq_true_eq] at hs ⊢
    exact ⟨hs.1, by omega⟩
  | instruction _ => exact hs

lemma plannedSections_stopped (hs : stopsBefore target n i = true)
    (ps : List (ProtectedSection Ty)) : plannedSections target exception n ip i ps = [] := by
  induction ps generalizing i with
  | nil => rfl
  | cons p ps ih =>
    have hnext := ih (stopsBefore_mono (Nat.le_succ i) hs)
    simp [plannedSections, leavesSection, hs, hnext]

lemma isExitingSection_eq
    (hfree : ∀ t, target = .instruction t → ∀ h ∈ p.handlers, h.instructions.contains ip = false) :
    isExitingSection p ip target = (p.instructions.contains ip && target.outside p) := by
  cases target with
  | handler a => simp [isExitingSection, UnwindTarget.outside]
  | instruction t =>
    have hno := hfree t rfl
    have hboth : (p.handlers.any fun h => h.instructions.contains ip && h.instructions.contains t) =
        false := any_eq_false.mpr fun h hh => by simp [hno h hh]
    have hin : (p.handlers.any fun h => h.instructions.contains ip) = false :=
      any_eq_false.mpr fun h hh => by simp [hno h hh]
    simp [isExitingSection, hboth, hin, UnwindTarget.outside]

lemma isExitingSection_resumed (hp : p.WellFormed) (hh : h ∈ p.handlers)
    (hat : h.instructions.contains at' = true) (hout : target.outside p = true) :
    isExitingSection p at' target = resumesSection target h := by
  cases target with
  | handler a =>
    by_contra hexit
    have htry : p.instructions.contains at' = true := by
      simpa [isExitingSection, resumesSection] using hexit
    rw [hp.tryApart at' htry h hh] at hat
    cases hat
  | instruction t =>
    have hsymm : Std.Symm fun g g' : Handler Ty => ∀ j, g.instructions.contains j = true →
        g'.instructions.contains j = false := by
      refine ⟨fun g g' hgg j hj => ?_⟩
      by_contra hj'
      rw [hgg j (by simpa using hj')] at hj
      cases hj
    have hboth : (p.handlers.any fun g => g.instructions.contains at' &&
        g.instructions.contains t) = h.instructions.contains t := by
      rw [Bool.eq_iff_iff, any_eq_true]
      constructor
      · rintro ⟨g, hg, hgt⟩
        simp only [Bool.and_eq_true] at hgt
        by_cases hgh : g = h
        · rw [← hgh]
          exact hgt.2
        · rw [hp.handlersApart.forall hh hg (Ne.symm hgh) at' hat] at hgt
          cases hgt.1
      · intro ht
        exact ⟨h, hh, by simp [hat, ht]⟩
    have hin : (p.handlers.any fun g => g.instructions.contains at') = true :=
      any_eq_true.mpr ⟨h, hh, hat⟩
    simp only [UnwindTarget.outside] at hout
    simp only [isExitingSection, hboth, hin, hout, resumesSection]
    cases h.instructions.contains t <;> simp

lemma unwindHandlers_planned (target : UnwindTarget) (exception : Option ObjectRef)
    (n i count k : Nat) (hs : List (Handler Ty)) (es : List ObjectRef)
    (hfree : ∀ h ∈ hs, h.instructions.contains ip = false) :
    unwindHandlers exception ip k hs es =
      (es, (plannedHandlers target exception n i count k hs).head?.map fun e =>
        (e.addr.handlerIndex, e.handler)) := by
  induction hs generalizing k with
  | nil => rfl
  | cons h hs ih =>
    have hh := hfree h mem_cons_self
    simp only [unwindHandlers, hh, Bool.false_eq_true, if_false, plannedHandlers]
    split
    · rfl
    · exact ih (k + 1) fun g hg => hfree g (mem_cons_of_mem _ hg)

variable {hs : List (Handler Ty)} {e : CleanupEntry Ty}

lemma plannedHandlers_head {count k : Nat}
    (he : e ∈ (plannedHandlers target exception n i count k hs).head?) :
    e = ⟨⟨n, i, e.addr.handlerIndex⟩, e.handler,
      resumeAfter ⟨n, i, e.addr.handlerIndex⟩ count⟩ := by
  induction hs generalizing k with
  | nil => cases he
  | cons h hs ih =>
    simp only [plannedHandlers] at he
    split at he
    · obtain rfl : _ = e := by simpa using he
      rfl
    · exact ih he

variable {u : UnwindState} {rest : List (CleanupEntry Ty)}

lemma unwindSections_section {k : Nat} {es : List ObjectRef} (at' : Nat)
    (hbeg : handlerStart u.cursor n i = k) (hdrop : p.handlers.drop k = hs)
    (hstop : stopsBefore u.target n i = false) (hexit : isExitingSection p at' u.target = true)
    (hfree : ∀ h ∈ hs, h.instructions.contains at' = false)
    (hrest : unwindSections u n at' (i + 1) ps es = (es, rest.head?)) :
    unwindSections u n at' i (p :: ps) es = (es,
      (plannedHandlers u.target u.exception n i p.handlers.length k hs ++ rest).head?) := by
  have hplan := unwindHandlers_planned u.target u.exception n i p.handlers.length k hs es hfree
  simp only [unwindSections, hstop, Bool.false_eq_true, if_false, hexit, if_true, hbeg,
    hdrop, hplan]
  cases hhead : (plannedHandlers u.target u.exception n i p.handlers.length k hs).head? with
  | none =>
    have hnil : plannedHandlers u.target u.exception n i p.handlers.length k hs = [] :=
      head?_eq_none_iff.mp hhead
    simp [hnil, hrest]
  | some e =>
    have he := plannedHandlers_head (by rw [hhead]; rfl)
    rw [head?_append, hhead]
    simp only [Option.map_some, Option.some_or]
    rw [← he]

lemma unwindSections_planned {es : List ObjectRef} (ip at' : Nat)
    (hcur : ∀ j, i ≤ j → handlerStart u.cursor n j = 0)
    (hexit : ∀ p ∈ ps, isExitingSection p at' u.target =
      (p.instructions.contains ip && u.target.outside p))
    (hfree : ∀ p ∈ ps, p.instructions.contains ip = true →
      ∀ h ∈ p.handlers, h.instructions.contains at' = false) :
    unwindSections u n at' i ps es =
      (es, (plannedSections u.target u.exception n ip i ps).head?) := by
  induction ps generalizing i with
  | nil => rfl
  | cons p ps ih =>
    cases hstop : stopsBefore u.target n i with
    | true =>
      rw [plannedSections_stopped hstop]
      simp [unwindSections, hstop]
    | false =>
      have hrest := ih (i := i + 1) (fun j hj => hcur j (by omega))
        (fun q hq => hexit q (mem_cons_of_mem _ hq))
        fun q hq => hfree q (mem_cons_of_mem _ hq)
      have hp := hexit p mem_cons_self
      cases hleav : p.instructions.contains ip && u.target.outside p with
      | true =>
        have hin : p.instructions.contains ip = true := (Bool.and_eq_true _ _ ▸ hleav).1
        have hl : leavesSection u.target n i ip p = true := by
          simp only [leavesSection, hstop]
          exact hleav
        rw [plannedSections, if_pos hl]
        exact unwindSections_section at' (hcur i (le_refl _)) rfl hstop (hp.trans hleav)
          (hfree p mem_cons_self hin) hrest
      | false =>
        have hl : leavesSection u.target n i ip p = false := by
          simp only [leavesSection, hstop]
          exact hleav
        rw [plannedSections, hl]
        simp only [unwindSections, hstop, hp.trans hleav]
        exact hrest

/-- An entry of the plan of a frame, and the section it belongs to. -/
structure PlannedEntry (target : UnwindTarget) (exception : Option ObjectRef) (n ip : Nat)
    (ps : List (ProtectedSection Ty)) (p : ProtectedSection Ty) (e : CleanupEntry Ty) : Prop where
  frameIndex : e.addr.frameIndex = n
  inSection : ps[e.addr.sectionIndex]? = some p
  leaves : leavesSection target n e.addr.sectionIndex ip p = true
  handler : p.handlers[e.addr.handlerIndex]? = some e.handler
  runs : e.handler.kind.shouldRun exception = true
  next : e.next = resumeAfter e.addr p.handlers.length

def afterEntry (target : UnwindTarget) (exception : Option ObjectRef) (n ip : Nat)
    (ps : List (ProtectedSection Ty)) (p : ProtectedSection Ty) (e : CleanupEntry Ty) :
    List (CleanupEntry Ty) :=
  (if resumesSection target e.handler then
      plannedHandlers target exception n e.addr.sectionIndex p.handlers.length
        (e.addr.handlerIndex + 1) (p.handlers.drop (e.addr.handlerIndex + 1))
    else []) ++
    plannedSections target exception n ip (e.addr.sectionIndex + 1)
      (ps.drop (e.addr.sectionIndex + 1))

section Plan

variable {e : CleanupEntry Ty} {rest : List (CleanupEntry Ty)}

lemma plannedHandlers_cons {count k : Nat}
    (hplan : plannedHandlers target exception n i count k hs = e :: rest) :
    ∃ j h, hs[j]? = some h ∧ h.kind.shouldRun exception = true ∧
      e = ⟨⟨n, i, k + j⟩, h, resumeAfter ⟨n, i, k + j⟩ count⟩ ∧
      rest = if resumesSection target h then
        plannedHandlers target exception n i count (k + j + 1) (hs.drop (j + 1)) else [] := by
  induction hs generalizing k with
  | nil => cases hplan
  | cons h hs ih =>
    simp only [plannedHandlers] at hplan
    split at hplan
    next hrun =>
      obtain ⟨rfl, rfl⟩ := cons.inj hplan
      exact ⟨0, h, rfl, hrun, rfl, rfl⟩
    · obtain ⟨j, g, hg, hrun, he, hrest⟩ := ih hplan
      have hadd : k + 1 + j = k + (j + 1) := by omega
      rw [hadd] at he hrest
      exact ⟨j + 1, g, by simpa using hg, hrun, he, by simpa using hrest⟩

lemma plannedSections_cons (hplan : plannedSections target exception n ip i ps = e :: rest) :
    ∃ j p rest', ps[j]? = some p ∧ leavesSection target n (i + j) ip p = true ∧
      plannedHandlers target exception n (i + j) p.handlers.length 0 p.handlers = e :: rest' ∧
      rest = rest' ++ plannedSections target exception n ip (i + j + 1) (ps.drop (j + 1)) := by
  induction ps generalizing i with
  | nil => cases hplan
  | cons p ps ih =>
    have hskip : plannedSections target exception n ip (i + 1) ps = e :: rest →
        ∃ j q rest', (p :: ps)[j]? = some q ∧ leavesSection target n (i + j) ip q = true ∧
          plannedHandlers target exception n (i + j) q.handlers.length 0 q.handlers = e :: rest' ∧
          rest = rest' ++ plannedSections target exception n ip (i + j + 1)
            ((p :: ps).drop (j + 1)) := by
      intro hplan
      obtain ⟨j, q, rest', hq, hl, hhs, hrest⟩ := ih hplan
      have hadd : i + 1 + j = i + (j + 1) := by omega
      rw [hadd] at hl hhs hrest
      exact ⟨j + 1, q, rest', by simpa using hq, hl, hhs, by simpa using hrest⟩
    simp only [plannedSections] at hplan
    split at hplan
    next hl =>
      cases hhs : plannedHandlers target exception n i p.handlers.length 0 p.handlers with
      | nil =>
        rw [hhs] at hplan
        exact hskip hplan
      | cons e' rest' =>
        rw [hhs] at hplan
        obtain ⟨rfl, rfl⟩ := cons.inj hplan
        exact ⟨0, p, rest', rfl, hl, hhs, rfl⟩
    · exact hskip hplan

lemma plannedEntry_of_handlers {k : Nat} {rest' : List (CleanupEntry Ty)} (hp : ps[i]? = some p)
    (hl : leavesSection target n i ip p = true)
    (hplan : plannedHandlers target exception n i p.handlers.length k (p.handlers.drop k) =
      e :: rest')
    (hrest : rest = rest' ++ plannedSections target exception n ip (i + 1) (ps.drop (i + 1))) :
    PlannedEntry target exception n ip ps p e ∧ rest = afterEntry target exception n ip ps p e := by
  obtain ⟨j, h, hh, hrun, rfl, rfl⟩ := plannedHandlers_cons hplan
  refine ⟨⟨rfl, hp, hl, ?_, hrun, rfl⟩, ?_⟩
  · simpa using hh
  · rw [hrest]
    simp only [afterEntry, drop_drop]
    have hadd : k + (j + 1) = k + j + 1 := by omega
    rw [hadd]

lemma plannedSections_head (hplan : plannedSections target exception n ip 0 ps = e :: rest) :
    ∃ p, PlannedEntry target exception n ip ps p e ∧
      rest = afterEntry target exception n ip ps p e := by
  obtain ⟨j, p, rest', hp, hl, hhs, hrest⟩ := plannedSections_cons hplan
  rw [zero_add] at hl hhs hrest
  exact ⟨p, plannedEntry_of_handlers hp hl hhs hrest⟩

lemma afterEntry_head {e' : CleanupEntry Ty} (he : PlannedEntry target exception n ip ps p e)
    (hplan : afterEntry target exception n ip ps p e = e' :: rest) :
    ∃ q, PlannedEntry target exception n ip ps q e' ∧
      rest = afterEntry target exception n ip ps q e' := by
  have hskip : plannedSections target exception n ip (e.addr.sectionIndex + 1)
      (ps.drop (e.addr.sectionIndex + 1)) = e' :: rest →
      ∃ q, PlannedEntry target exception n ip ps q e' ∧
        rest = afterEntry target exception n ip ps q e' := by
    intro hplan
    obtain ⟨j, q, rest', hq, hl, hhs, hrest⟩ := plannedSections_cons hplan
    have hq' : ps[e.addr.sectionIndex + 1 + j]? = some q := by simpa using hq
    rw [drop_drop] at hrest
    exact ⟨q, plannedEntry_of_handlers hq' hl hhs hrest⟩
  unfold afterEntry at hplan
  split at hplan
  · cases hhs : plannedHandlers target exception n e.addr.sectionIndex p.handlers.length
        (e.addr.handlerIndex + 1) (p.handlers.drop (e.addr.handlerIndex + 1)) with
    | nil =>
      rw [hhs] at hplan
      exact hskip hplan
    | cons e'' rest' =>
      rw [hhs] at hplan
      obtain ⟨rfl, rfl⟩ := cons.inj hplan
      exact ⟨p, plannedEntry_of_handlers he.inSection he.leaves hhs rfl⟩
  · exact hskip hplan

end Plan

inductive WalkPosition (target : UnwindTarget) (exception : Option ObjectRef) (n ip : Nat)
    (ps : List (ProtectedSection Ty)) (at' : Nat) (cursor : HandlerAddress) :
    List (CleanupEntry Ty) → Prop
  | fresh (hat : at' = ip) (hcursor : cursor.frameIndex = n → cursor = .startOf n) :
      WalkPosition target exception n ip ps at' cursor (plannedSections target exception n ip 0 ps)
  | behind (p : ProtectedSection Ty) (e : CleanupEntry Ty)
      (he : PlannedEntry target exception n ip ps p e)
      (hat : e.handler.instructions.contains at' = true) (hcursor : cursor = e.next) :
      WalkPosition target exception n ip ps at' cursor (afterEntry target exception n ip ps p e)

variable {rem : List (CleanupEntry Ty)}

lemma WalkPosition.head {cursor : HandlerAddress}
    (hw : WalkPosition target exception n ip ps at' cursor rem) (hrem : rem = e :: rest) :
    ∃ p, PlannedEntry target exception n ip ps p e ∧
      rest = afterEntry target exception n ip ps p e := by
  cases hw with
  | fresh _ _ => exact plannedSections_head hrem
  | behind p e' he _ _ => exact afterEntry_head he hrem

/-- Nothing but the try blocks counts at an instruction outside all handlers. -/
def OutsideHandlers (target : UnwindTarget) (ps : List (ProtectedSection Ty)) (ip : Nat) : Prop :=
  ∀ t, target = .instruction t → ∀ p ∈ ps, ∀ h ∈ p.handlers, h.instructions.contains ip = false

lemma rel_of_mem_drop {α : Type} {R : α → α → Prop} {l : List α} {i : Nat} {a b : α}
    (h : l.Pairwise R) (ha : l[i]? = some a) (hb : b ∈ l.drop (i + 1)) : R a b := by
  obtain ⟨low, high, rfl, hlow⟩ := exists_split ha
  rw [← hlow, append_cons, drop_left' (by simp)] at hb
  exact (pairwise_cons.mp (pairwise_append.mp h).2.1).1 b hb

lemma later_sections (hnest : ProperlyNested ps) (he : PlannedEntry target exception n ip ps p e)
    (hat : e.handler.instructions.contains at' = true) (hout : OutsideHandlers target ps ip) :
    ∀ q ∈ ps.drop (e.addr.sectionIndex + 1),
      isExitingSection q at' target = (q.instructions.contains ip && target.outside q) ∧
      (q.instructions.contains ip = true →
        ∀ h ∈ q.handlers, h.instructions.contains at' = false) := by
  intro q hq
  have hmem : q ∈ ps := mem_of_mem_drop hq
  have hh : e.handler ∈ p.handlers := mem_of_getElem? he.handler
  have hip : p.instructions.contains ip = true := by
    have hl := he.leaves
    simp only [leavesSection, Bool.and_eq_true] at hl
    exact hl.1.2
  have hpq : p.NestedIn q := rel_of_mem_drop hnest.order he.inSection hq
  have hsm := contains_of_nested hpq (hnest.sections q hmem) hh hip hat
  constructor
  · rw [← hsm]
    refine isExitingSection_eq fun t ht => ?_
    exact handlers_of_nested hpq (hnest.sections q hmem) hh hip hat (hout t ht q hmem)
  · intro hin
    exact (hnest.sections q hmem).tryApart at' (hsm.trans hin)

/-- The walk of a frame meets the first entry that is left of its plan. -/
lemma WalkPosition.walk (es : List ObjectRef)
    (hnest : ProperlyNested ps) (hout : OutsideHandlers u.target ps ip)
    (hw : WalkPosition u.target u.exception n ip ps at' u.cursor rem) :
    unwindSections u n at' (sectionStart u.cursor n) (ps.drop (sectionStart u.cursor n)) es =
      (es, rem.head?) := by
  cases hw with
  | fresh hat hcur =>
    subst hat
    have hbeg : sectionStart u.cursor n = 0 := by
      unfold sectionStart
      split
      next heq => rw [hcur heq.symm]; rfl
      · rfl
    rw [hbeg]
    refine unwindSections_planned at' at' ?_ ?_ ?_
    · intro j _
      unfold handlerStart
      split
      next heq => rw [hcur heq.1.symm]; rfl
      · rfl
    · exact fun p hp => isExitingSection_eq fun t ht => hout t ht p hp
    · exact fun p hp hin => (hnest.sections p hp).tryApart at' hin
  | behind p e he hat hcur =>
    have hlater := later_sections hnest he hat hout
    have hp : p.WellFormed := hnest.sections p (mem_of_getElem? he.inSection)
    have hh : e.handler ∈ p.handlers := mem_of_getElem? he.handler
    have hfr : u.cursor.frameIndex = n := by
      rw [hcur, he.next, resumeAfter, ← he.frameIndex]
      split <;> rfl
    -- the sections after `p`, from a cursor in or behind `p`
    have hrest : ∀ k, u.cursor.sectionIndex ≤ e.addr.sectionIndex ∨
        (u.cursor.sectionIndex = e.addr.sectionIndex + 1 ∧ u.cursor.handlerIndex = 0) →
        k = e.addr.sectionIndex + 1 →
        unwindSections u n at' k (ps.drop k) es =
          (es, (plannedSections u.target u.exception n ip k (ps.drop k)).head?) := by
      rintro k hcs rfl
      refine unwindSections_planned ip at' ?_ (fun q hq => (hlater q hq).1) fun q hq =>
        (hlater q hq).2
      intro j hj
      unfold handlerStart
      split <;> omega
    by_cases hlast : e.addr.handlerIndex + 1 < p.handlers.length
    · -- more handlers follow in the section
      have hnext : u.cursor = e.addr.nextHandler := by
        rw [hcur, he.next, resumeAfter, if_pos hlast]
      have hsec : u.cursor.sectionIndex = e.addr.sectionIndex := by rw [hnext]; rfl
      have hhandler : u.cursor.handlerIndex = e.addr.handlerIndex + 1 := by rw [hnext]; rfl
      have hbeg : sectionStart u.cursor n = e.addr.sectionIndex := by
        simp [sectionStart, hfr, hsec]
      have hdrop : ps.drop e.addr.sectionIndex = p :: ps.drop (e.addr.sectionIndex + 1) := by
        obtain ⟨hi, hget⟩ := List.getElem?_eq_some_iff.mp he.inSection
        rw [← hget, List.getElem_cons_drop]
      have hl := he.leaves
      simp only [leavesSection, Bool.and_eq_true, Bool.not_eq_true'] at hl
      have hexit := isExitingSection_resumed hp hh hat hl.2
      have hafter := hrest (e.addr.sectionIndex + 1) (Or.inl (by omega)) rfl
      rw [hbeg, hdrop]
      unfold afterEntry
      cases hres : resumesSection u.target e.handler with
      | true =>
        refine unwindSections_section at' ?_ rfl hl.1.1 (hexit.trans hres) ?_ hafter
        · simp [handlerStart, hfr, hsec, hhandler]
        · exact fun g hg => rel_of_mem_drop hp.handlersApart he.handler hg at' hat
      | false =>
        simp only [unwindSections, hl.1.1, hexit.trans hres]
        exact hafter
    · have hnext : u.cursor = ⟨e.addr.frameIndex, e.addr.sectionIndex + 1, 0⟩ := by
        rw [hcur, he.next, resumeAfter, if_neg hlast]
      have hsec : u.cursor.sectionIndex = e.addr.sectionIndex + 1 := by rw [hnext]
      have hbeg : sectionStart u.cursor n = e.addr.sectionIndex + 1 := by
        simp [sectionStart, hfr, hsec]
      have hno : p.handlers.drop (e.addr.handlerIndex + 1) = [] :=
        drop_eq_nil_of_le (by omega)
      have hafter := hrest (e.addr.sectionIndex + 1) (Or.inr ⟨hsec, by rw [hnext]⟩) rfl
      rw [hbeg, hafter]
      simp [afterEntry, hno, plannedHandlers]

def askedHandlers (exception : Option ObjectRef) (n i k : Nat) (hs : List (Handler Ty)) :
    List HandlerAddress :=
  ((placedHandlers n i k hs).filter fun c => c.2.kind.shouldRun exception).map Prod.fst

/-- The handlers that have to be run in a frame that stands at `ip`. -/
def askedSections (target : UnwindTarget) (exception : Option ObjectRef) (n ip : Nat) :
    Nat → List (ProtectedSection Ty) → List HandlerAddress
  | _, [] => []
  | i, p :: ps =>
    (if leavesSection target n i ip p then askedHandlers exception n i 0 p.handlers else []) ++
      askedSections target exception n ip (i + 1) ps

lemma askedHandlers_cons (exception : Option ObjectRef) (n i k : Nat) (h : Handler Ty)
    (hs : List (Handler Ty)) : askedHandlers exception n i k (h :: hs) =
      if h.kind.shouldRun exception then ⟨n, i, k⟩ :: askedHandlers exception n i (k + 1) hs
      else askedHandlers exception n i (k + 1) hs := by
  simp only [askedHandlers, placedHandlers, filter_cons]
  split <;> rfl

lemma mem_askedHandlers {k : Nat} {a : HandlerAddress} :
    a ∈ askedHandlers exception n i k hs ↔ a.frameIndex = n ∧ a.sectionIndex = i ∧
      k ≤ a.handlerIndex ∧ ∃ h, hs[a.handlerIndex - k]? = some h ∧
        h.kind.shouldRun exception = true := by
  simp only [askedHandlers, mem_map, mem_filter, mem_placedHandlers]
  constructor
  · rintro ⟨⟨b, h⟩, ⟨⟨hn, hi, hk, hh⟩, hrun⟩, rfl⟩
    exact ⟨hn, hi, hk, h, hh, hrun⟩
  · rintro ⟨hn, hi, hk, h, hh, hrun⟩
    exact ⟨(a, h), ⟨⟨hn, hi, hk, hh⟩, hrun⟩, rfl⟩

lemma mem_askedSections {a : HandlerAddress} :
    a ∈ askedSections target exception n ip i ps ↔ a.frameIndex = n ∧ i ≤ a.sectionIndex ∧
      ∃ p h, ps[a.sectionIndex - i]? = some p ∧ leavesSection target n a.sectionIndex ip p = true ∧
        p.handlers[a.handlerIndex]? = some h ∧ h.kind.shouldRun exception = true := by
  induction ps generalizing i with
  | nil => simp [askedSections]
  | cons q ps ih =>
    simp only [askedSections, mem_append, ih]
    constructor
    · rintro (ha | ⟨hn, hle, p, h, hget, hp⟩)
      · split at ha
        next hq =>
          obtain ⟨hn, rfl, _, h, hh, hrun⟩ := mem_askedHandlers.mp ha
          exact ⟨hn, le_refl _, q, h, by simp, hq, by simpa using hh, hrun⟩
        · cases ha
      · have hsub : a.sectionIndex - i = (a.sectionIndex - (i + 1)) + 1 := by omega
        exact ⟨hn, by omega, p, h, by rw [hsub]; exact hget, hp⟩
    · rintro ⟨hn, hle, p, h, hget, hp, hh, hrun⟩
      by_cases hi : a.sectionIndex = i
      · left
        obtain rfl : q = p := by simpa [hi] using hget
        rw [hi] at hp
        rw [if_pos hp]
        exact mem_askedHandlers.mpr ⟨hn, hi, Nat.zero_le _, h, by simpa using hh, hrun⟩
      · right
        have hsub : a.sectionIndex - i = (a.sectionIndex - (i + 1)) + 1 := by omega
        rw [hsub] at hget
        exact ⟨hn, by omega, p, h, hget, hp, hh, hrun⟩

section

variable (target : UnwindTarget) (exception : Option ObjectRef)

lemma pairwise_askedSections (n ip i : Nat) (ps : List (ProtectedSection Ty)) :
    (askedSections target exception n ip i ps).Pairwise HandlerAddress.Precedes := by
  induction ps generalizing i with
  | nil => exact Pairwise.nil
  | cons p ps ih =>
    refine pairwise_append.mpr ⟨?_, ih (i + 1), ?_⟩
    · split
      · exact pairwise_map.mpr ((pairwise_placedHandlers n i 0 p.handlers).filter _)
      · exact Pairwise.nil
    · intro a ha b hb
      split at ha
      · obtain ⟨hn, hi, _⟩ := mem_askedHandlers.mp ha
        obtain ⟨hn', hle, _⟩ := mem_askedSections.mp hb
        right
        exact ⟨hn.trans hn'.symm, Or.inl (by omega)⟩
      · cases ha

def RunsAll (hs : List (Handler Ty)) : Prop :=
  hs.Pairwise fun h h' => h.kind.shouldRun exception = true →
    h'.kind.shouldRun exception = true → resumesSection target h = true

lemma plannedHandlers_sublist (n i count k : Nat) (hs : List (Handler Ty)) :
    ((plannedHandlers target exception n i count k hs).map CleanupEntry.addr).Sublist
      (askedHandlers exception n i k hs) := by
  induction hs generalizing k with
  | nil => exact Sublist.slnil
  | cons h hs ih =>
    rw [askedHandlers_cons]
    simp only [plannedHandlers]
    split
    · refine List.Sublist.cons_cons _ ?_
      split
      · exact ih (k + 1)
      · exact nil_sublist _
    · exact ih (k + 1)

end

lemma plannedHandlers_eq_asked {count k : Nat} :
    (plannedHandlers target exception n i count k hs).map CleanupEntry.addr =
      askedHandlers exception n i k hs ↔ RunsAll target exception hs := by
  induction hs generalizing k with
  | nil => simp [plannedHandlers, askedHandlers, placedHandlers, RunsAll]
  | cons h hs ih =>
    rw [askedHandlers_cons]
    simp only [plannedHandlers, RunsAll, pairwise_cons]
    by_cases hrun : h.kind.shouldRun exception = true
    · rw [if_pos hrun, if_pos hrun, map_cons, cons_inj_right]
      by_cases hres : resumesSection target h = true
      · rw [if_pos hres, ih]
        simp only [hres, implies_true, true_and]
        rfl
      · simp only [hrun, hres, true_implies, Bool.false_eq_true]
        constructor
        · intro hnil
          -- nothing else has to be run
          have hno : ∀ g ∈ hs, ¬ g.kind.shouldRun exception = true := by
            intro g hg hgrun
            obtain ⟨j, hj⟩ := mem_iff_getElem?.mp hg
            have hmem : (⟨n, i, k + 1 + j⟩ : HandlerAddress) ∈
                askedHandlers exception n i (k + 1) hs :=
              mem_askedHandlers.mpr ⟨rfl, rfl, Nat.le_add_right _ _, g, by simpa using hj, hgrun⟩
            rw [← hnil] at hmem
            cases hmem
          refine ⟨hno, ?_⟩
          refine List.Pairwise.imp_of_mem (fun {a b} ha _ _ hrun' => absurd hrun' (hno a ha))
            (pairwise_of_forall fun _ _ => trivial)
        · rintro ⟨hno, _⟩
          refine (eq_nil_iff_forall_not_mem.mpr fun a ha => ?_).symm
          obtain ⟨_, _, _, g, hg, hgrun⟩ := mem_askedHandlers.mp ha
          exact hno g (mem_of_getElem? hg) hgrun
    · rw [if_neg hrun, if_neg hrun, ih]
      simp only [hrun, false_implies, implies_true, true_and, Bool.false_eq_true]
      rfl

lemma append_eq_of_sublist {α : Type} {l₁ l₂ m₁ m₂ : List α} (h₁ : l₁.Sublist m₁)
    (h₂ : l₂.Sublist m₂) : l₁ ++ l₂ = m₁ ++ m₂ ↔ l₁ = m₁ ∧ l₂ = m₂ := by
  constructor
  · intro happ
    have hlen := congrArg List.length happ
    simp only [length_append] at hlen
    have hle₁ := h₁.length_le
    have hle₂ := h₂.length_le
    exact ⟨h₁.eq_of_length (by omega), h₂.eq_of_length (by omega)⟩
  · rintro ⟨rfl, rfl⟩
    rfl

lemma plannedSections_sublist (target : UnwindTarget) (exception : Option ObjectRef) (n ip i : Nat)
    (ps : List (ProtectedSection Ty)) :
    ((plannedSections target exception n ip i ps).map CleanupEntry.addr).Sublist
      (askedSections target exception n ip i ps) := by
  induction ps generalizing i with
  | nil => exact Sublist.slnil
  | cons p ps ih =>
    simp only [plannedSections, map_append]
    refine List.Sublist.append ?_ (ih (i + 1))
    split
    · exact plannedHandlers_sublist target exception n i p.handlers.length 0 p.handlers
    · exact Sublist.slnil

lemma plannedSections_eq_asked :
    (plannedSections target exception n ip i ps).map CleanupEntry.addr =
      askedSections target exception n ip i ps ↔
    ∀ j p, ps[j]? = some p → leavesSection target n (i + j) ip p = true →
      RunsAll target exception p.handlers := by
  induction ps generalizing i with
  | nil => simp [plannedSections, askedSections]
  | cons q ps ih =>
    simp only [plannedSections, askedSections, map_append]
    rw [append_eq_of_sublist ?_ (plannedSections_sublist target exception n ip (i + 1) ps), ih]
    · constructor
      · rintro ⟨hhead, htail⟩ j p hp hl
        cases j with
        | zero =>
          obtain rfl : q = p := by simpa using hp
          rw [add_zero] at hl
          rw [if_pos hl, if_pos hl] at hhead
          exact plannedHandlers_eq_asked.mp hhead
        | succ j =>
          refine htail j p (by simpa using hp) ?_
          rwa [add_assoc, add_comm 1 j]
      · intro hall
        refine ⟨?_, fun j p hp hl => ?_⟩
        · split
          next hl => exact plannedHandlers_eq_asked.mpr (hall 0 q rfl hl)
          · rfl
        · refine hall (j + 1) p (by simpa using hp) ?_
          rwa [add_assoc, add_comm 1 j] at hl
    · split
      · exact plannedHandlers_sublist target exception n i q.handlers.length 0 q.handlers
      · exact Sublist.slnil

end DotnetVm
