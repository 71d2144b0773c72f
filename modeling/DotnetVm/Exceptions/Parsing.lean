import DotnetVm.Exceptions.Data
import DotnetVm.Lib.Grouping

/-!
# Reading the exception clauses of a method

`parse` groups the clauses of a method by their try range in a hash map, takes the
entries in whatever order the map gives them, and sorts the sections so that inner
blocks come before outer ones. No two sections have the same range, so the sort
leaves nothing to the order of the map.
-/

namespace DotnetVm

open Grouping

inductive ExceptionKind (Src : Type) where
  | typedException (t : Src)
  | filter (offset : Nat)
  | finallyKind
  | faultKind

structure ExceptionClause (Src : Type) where
  kind : ExceptionKind Src
  tryOffset : Nat
  tryLength : Nat
  handlerOffset : Nat
  handlerLength : Nat
  tryEnds : tryOffset + tryLength ≤ usizeMax
  handlerEnds : handlerOffset + handlerLength ≤ usizeMax

namespace ExceptionClause

variable {Src : Type} (exc : ExceptionClause Src)

def tryRange : Range := ⟨exc.tryOffset, exc.tryOffset + exc.tryLength⟩

def handlerRange : Range := ⟨exc.handlerOffset, exc.handlerOffset + exc.handlerLength⟩

end ExceptionClause

lemma Range.ext_iff {r r' : Range} : r = r' ↔ r.start = r'.start ∧ r.stop = r'.stop := by
  cases r
  cases r'
  simp

/-- A range that lies within another and is not the whole of it. -/
def Range.StrictlyInside (inner outer : Range) : Prop :=
  outer.start ≤ inner.start ∧ inner.stop ≤ outer.stop ∧ inner ≠ outer

/-- The entries of a hash map come in an order of the map's own. -/
structure IterationOrder (α : Type) where
  arrange : List α → List α
  perm : ∀ as, (arrange as).Perm as

/-- The map from try ranges to handlers. -/
abbrev SectionMap (Ty : Type) := AList fun _ : Range => List (Handler Ty)

abbrev SectionMap.Entry (Ty : Type) := Sigma fun _ : Range => List (Handler Ty)

namespace Parsing

variable {Src Ty Err : Type}

section Code

variable (makeConcrete : Src → Except Err Ty)

def handlerKind : ExceptionKind Src → Except Err (HandlerKind Ty)
  | .typedException t => (makeConcrete t).map .catchClause
  | .filter offset => .ok (.filterClause offset)
  | .finallyKind => .ok .finallyClause
  | .faultKind => .ok .faultClause

def pushHandler (sections : SectionMap Ty) (r : Range) (h : Handler Ty) : SectionMap Ty :=
  sections.insert r ((sections.lookup r).getD [] ++ [h])

/-- The loop of `parse` over the clauses. -/
def collect (sections : SectionMap Ty) : List (ExceptionClause Src) → Except Err (SectionMap Ty)
  | [] => .ok sections
  | exc :: source =>
    match handlerKind makeConcrete exc.kind with
    | .error e => .error e
    | .ok kind => collect (pushHandler sections exc.tryRange ⟨exc.handlerRange, kind⟩) source

def toSection (entry : SectionMap.Entry Ty) : ProtectedSection Ty := ⟨entry.1, entry.2⟩

/-- The sort key `(Reverse(start), end)`, compared. -/
def keyLe (s t : ProtectedSection Ty) : Bool :=
  decide (t.instructions.start < s.instructions.start) ||
    (decide (s.instructions.start = t.instructions.start) &&
      decide (s.instructions.stop ≤ t.instructions.stop))

def parse (order : IterationOrder (SectionMap.Entry Ty)) (source : List (ExceptionClause Src)) :
    Except Err (List (ProtectedSection Ty)) :=
  (collect makeConcrete ∅ source).map fun sections =>
    ((order.arrange sections.entries).map toSection).mergeSort keyLe

/-- The try range and the handler of each clause. -/
def clauses : List (ExceptionClause Src) → Except Err (List (Range × Handler Ty))
  | [] => .ok []
  | exc :: source =>
    match handlerKind makeConcrete exc.kind with
    | .error e => .error e
    | .ok kind => (clauses source).map ((exc.tryRange, ⟨exc.handlerRange, kind⟩) :: ·)

/-- The catch type of the clause, if it has one, can be made concrete. -/
def Concrete (exc : ExceptionClause Src) : Prop :=
  ∀ t, exc.kind = .typedException t → ∃ ty, makeConcrete t = .ok ty

/-- What a clause of the metadata says: offsets, lengths and kind. -/
structure ClauseSays (exc : ExceptionClause Src) (c : Range × Handler Ty) : Prop where
  try_start : c.1.start = exc.tryOffset
  try_stop : c.1.stop = exc.tryOffset + exc.tryLength
  handler_start : c.2.instructions.start = exc.handlerOffset
  handler_stop : c.2.instructions.stop = exc.handlerOffset + exc.handlerLength
  kind : match exc.kind with
    | .typedException t => ∃ ty, makeConcrete t = .ok ty ∧ c.2.kind = .catchClause ty
    | .filter offset => c.2.kind = .filterClause offset
    | .finallyKind => c.2.kind = .finallyClause
    | .faultKind => c.2.kind = .faultClause

lemma clauses_ok {source : List (ExceptionClause Src)}
    (h : ∀ exc ∈ source, Concrete makeConcrete exc) :
    ∃ cs, clauses makeConcrete source = .ok cs ∧
      List.Forall₂ (ClauseSays makeConcrete) source cs := by
  induction source with
  | nil => exact ⟨[], rfl, .nil⟩
  | cons exc source ih =>
    obtain ⟨hexc, hsource⟩ := List.forall_mem_cons.mp h
    obtain ⟨cs, hcs, hsays⟩ := ih hsource
    have hhead : ∃ kind, handlerKind makeConcrete exc.kind = .ok kind ∧
        ClauseSays makeConcrete exc (exc.tryRange, ⟨exc.handlerRange, kind⟩) := by
      cases hkind : exc.kind with
      | typedException t =>
        obtain ⟨ty, hty⟩ := hexc t hkind
        refine ⟨.catchClause ty, by rw [handlerKind, hty]; rfl, rfl, rfl, rfl, rfl, ?_⟩
        rw [hkind]
        exact ⟨ty, hty, rfl⟩
      | filter offset => exact ⟨_, rfl, rfl, rfl, rfl, rfl, by rw [hkind]⟩
      | finallyKind => exact ⟨_, rfl, rfl, rfl, rfl, rfl, by rw [hkind]⟩
      | faultKind => exact ⟨_, rfl, rfl, rfl, rfl, rfl, by rw [hkind]⟩
    obtain ⟨kind, hkind, hsays'⟩ := hhead
    refine ⟨(exc.tryRange, ⟨exc.handlerRange, kind⟩) :: cs, ?_, .cons hsays' hsays⟩
    rw [clauses, hkind, hcs]
    rfl

lemma clauses_error {before after : List (ExceptionClause Src)}
    {exc : ExceptionClause Src} {t : Src}
    {e : Err} (hbefore : ∀ c ∈ before, Concrete makeConcrete c)
    (hkind : exc.kind = .typedException t) (ht : makeConcrete t = .error e) :
    clauses makeConcrete (before ++ exc :: after) = .error e := by
  induction before with
  | nil =>
    rw [List.nil_append, clauses, hkind, handlerKind, ht]
    rfl
  | cons c before ih =>
    obtain ⟨hc, hbefore⟩ := List.forall_mem_cons.mp hbefore
    obtain ⟨kind, hkind⟩ : ∃ kind, handlerKind makeConcrete c.kind = .ok kind := by
      cases hk : c.kind with
      | typedException t =>
        obtain ⟨ty, hty⟩ := hc t hk
        exact ⟨_, by rw [handlerKind, hty]; rfl⟩
      | _ => exact ⟨_, rfl⟩
    rw [List.cons_append, clauses, hkind, ih hbefore]
    rfl

end Code

def handlersFor (cs : List (Range × Handler Ty)) (r : Range) : List (Handler Ty) :=
  (group Prod.fst cs r).map Prod.snd

def Holds (sections : SectionMap Ty) (cs : List (Range × Handler Ty)) : Prop :=
  ∀ r, sections.lookup r = if handlersFor cs r = [] then none else some (handlersFor cs r)

variable {sections : SectionMap Ty} {cs : List (Range × Handler Ty)}

lemma holds_empty : Holds (∅ : SectionMap Ty) [] := fun r => by
  simp [handlersFor, group]

lemma handlersFor_concat (r r' : Range) (h : Handler Ty) :
    handlersFor (cs ++ [(r, h)]) r' = handlersFor cs r' ++ if r = r' then [h] else [] := by
  by_cases hr : r = r' <;> simp [handlersFor, group, hr]

lemma Holds.push (hm : Holds sections cs) (r : Range) (h : Handler Ty) :
    Holds (pushHandler sections r h) (cs ++ [(r, h)]) := by
  intro r'
  rw [handlersFor_concat]
  by_cases hr : r = r'
  · subst hr
    have hold : (sections.lookup r).getD [] = handlersFor cs r := by
      rw [hm r]
      split
      next hnil => exact hnil.symm
      next => rfl
    simp [pushHandler, hold]
  · rw [pushHandler, AList.lookup_insert_ne (Ne.symm hr), hm r']
    simp [hr]

lemma Holds.collect (makeConcrete : Src → Except Err Ty) (source : List (ExceptionClause Src))
    (hm : Holds sections cs) :
    match clauses makeConcrete source with
    | .error e => collect makeConcrete sections source = .error e
    | .ok ds => ∃ sections', collect makeConcrete sections source = .ok sections' ∧
        Holds sections' (cs ++ ds) := by
  induction source generalizing sections cs with
  | nil => exact ⟨sections, rfl, by rwa [List.append_nil]⟩
  | cons exc source ih =>
    rw [clauses, Parsing.collect]
    cases handlerKind makeConcrete exc.kind with
    | error e => rfl
    | ok kind =>
      have hst := ih (hm.push exc.tryRange ⟨exc.handlerRange, kind⟩)
      cases hds : clauses makeConcrete source with
      | error e =>
        rw [hds] at hst
        exact hst
      | ok ds =>
        rw [hds] at hst
        simp only [List.append_assoc] at hst
        exact hst

lemma Holds.mem_entries (hm : Holds sections cs) {e : SectionMap.Entry Ty} :
    e ∈ sections.entries ↔ e.2 = handlersFor cs e.1 ∧ handlersFor cs e.1 ≠ [] := by
  obtain ⟨r, hs⟩ := e
  rw [← AList.mem_lookup_iff, hm r]
  split
  next hnil => simp [hnil]
  next hne => simp [hne, eq_comm]

lemma Holds.entries_perm (hm : Holds sections cs) :
    (sections.entries.flatMap fun e => e.2.map fun h => (e.1, h)).Perm cs := by
  have hgroups : (sections.entries.flatMap fun e => e.2.map fun h => (e.1, h)) =
      flatten Prod.fst cs (sections.entries.map Sigma.fst) := by
    rw [flatten, List.flatMap_map]
    refine List.flatMap_congr fun e he => ?_
    rw [(hm.mem_entries.mp he).1, handlersFor, List.map_map]
    refine (List.map_congr_left fun c hc => ?_).trans (List.map_id _)
    have hkey : c.1 = e.1 := of_decide_eq_true (List.mem_filter.mp hc).2
    simp [← hkey]
  rw [hgroups]
  refine flatten_perm (fun c hc => ?_) sections.nodupKeys
  refine List.mem_map.mpr ⟨⟨c.1, handlersFor cs c.1⟩, hm.mem_entries.mpr ⟨rfl, ?_⟩, rfl⟩
  exact List.ne_nil_of_mem (List.mem_map_of_mem (List.mem_filter.mpr ⟨hc, decide_eq_true rfl⟩))

variable {s t : ProtectedSection Ty}

lemma keyLe_iff : keyLe s t = true ↔ t.instructions.start < s.instructions.start ∨
      s.instructions.start = t.instructions.start ∧ s.instructions.stop ≤ t.instructions.stop := by
  simp [keyLe]

lemma keyLe_antisymm (hst : keyLe s t = true)
    (hts : keyLe t s = true) : s.instructions = t.instructions := by
  rw [keyLe_iff] at hst hts
  exact Range.ext_iff.mpr ⟨by omega, by omega⟩

lemma sorted (l : List (ProtectedSection Ty)) :
    (l.mergeSort keyLe).Pairwise fun s t => keyLe s t = true := by
  refine List.pairwise_mergeSort (fun a b c hab hbc => ?_) (fun a b => ?_) l
  · rw [keyLe_iff] at hab hbc ⊢
    omega
  · rw [Bool.or_eq_true, keyLe_iff, keyLe_iff]
    omega

lemma not_strictlyInside (h : keyLe s t = true) :
    ¬t.instructions.StrictlyInside s.instructions := by
  rintro ⟨hbeg, hstop, hne⟩
  rw [keyLe_iff] at h
  exact hne (Range.ext_iff.mpr ⟨by omega, by omega⟩)

lemma mergeSort_eq {l l' : List (ProtectedSection Ty)} (hperm : l.Perm l')
    (hnd : (l.map (·.instructions)).Nodup) : l.mergeSort keyLe = l'.mergeSort keyLe := by
  refine List.Perm.eq_of_pairwise (fun s t hs ht hst hts => ?_) (sorted l) (sorted l')
    ((List.mergeSort_perm l keyLe).trans (hperm.trans (List.mergeSort_perm l' keyLe).symm))
  have hs' := (List.mergeSort_perm l keyLe).mem_iff.mp hs
  have ht' := hperm.mem_iff.mpr ((List.mergeSort_perm l' keyLe).mem_iff.mp ht)
  exact List.inj_on_of_nodup_map hnd hs' ht' (keyLe_antisymm hst hts)

/-- `parse` fails with the first catch type that cannot be made concrete. Otherwise its sections do
not depend on the order of the map: together they contain every clause once, with the offsets,
lengths and kind of the metadata, those of one try range in one section and in metadata order, and
no section comes before one inside it. -/
theorem parse_sections (makeConcrete : Src → Except Err Ty) (source : List (ExceptionClause Src)) :
    (∀ before exc after t e, source = before ++ exc :: after →
      (∀ c ∈ before, Concrete makeConcrete c) → exc.kind = .typedException t →
      makeConcrete t = .error e → ∀ order, parse makeConcrete order source = .error e) ∧
    ((∀ exc ∈ source, Concrete makeConcrete exc) →
      ∃ cs v, List.Forall₂ (ClauseSays makeConcrete) source cs ∧
        (∀ order, parse makeConcrete order source = .ok v) ∧
        (v.flatMap fun s => s.handlers.map fun h => (s.instructions, h)).Perm cs ∧
        (v.map (·.instructions)).Nodup ∧
        (∀ s ∈ v, s.handlers = (cs.filter fun c => c.1 = s.instructions).map Prod.snd) ∧
        v.Pairwise fun s t => ¬t.instructions.StrictlyInside s.instructions) := by
  have hcoll := holds_empty.collect makeConcrete source
  constructor
  · rintro before exc after t e rfl hbefore hkind ht order
    rw [clauses_error makeConcrete hbefore hkind ht] at hcoll
    rw [parse, hcoll]
    rfl
  · intro hconcrete
    obtain ⟨cs, hcs, hsays⟩ := clauses_ok makeConcrete hconcrete
    rw [hcs] at hcoll
    obtain ⟨sections, hsecs, hm⟩ := hcoll
    have hranges : ((sections.entries.map toSection).map (·.instructions)).Nodup := by
      rw [List.map_map]
      exact sections.nodupKeys
    have hperm := List.mergeSort_perm (sections.entries.map toSection) keyLe
    refine ⟨cs, (sections.entries.map toSection).mergeSort keyLe, hsays,
      fun order => ?_, ?_, ?_, ?_,
      ?_⟩
    · have harranged := (order.perm sections.entries).map toSection
      rw [parse, hsecs]
      exact congrArg Except.ok (mergeSort_eq harranged.symm hranges).symm
    · refine (hperm.flatMap_right _).trans ?_
      rw [List.flatMap_map]
      exact hm.entries_perm
    · exact (hperm.map _).nodup_iff.mpr hranges
    · intro s hs
      obtain ⟨e, he, rfl⟩ := List.mem_map.mp (hperm.mem_iff.mp hs)
      exact (hm.mem_entries.mp he).1
    · exact (sorted _).imp not_strictlyInside

/-- A `finally` block around a `try` with a typed and a filtered clause. -/
def nestedClauses : List (ExceptionClause Nat) :=
  [⟨.finallyKind, 0, 10, 10, 2, by decide, by decide⟩,
    ⟨.typedException 7, 2, 3, 5, 1, by decide, by decide⟩,
    ⟨.filter 6, 2, 3, 8, 2, by decide, by decide⟩]

def nestedSections : List (ProtectedSection Nat) :=
  [⟨⟨2, 5⟩, [⟨⟨5, 6⟩, .catchClause 7⟩, ⟨⟨8, 10⟩, .filterClause 6⟩]⟩,
    ⟨⟨0, 10⟩, [⟨⟨10, 12⟩, .finallyClause⟩]⟩]

theorem nestedClauses_parsed :
    (∀ order, (parse .ok order nestedClauses : Except Unit _) = .ok nestedSections) ∧
      nestedSections.Pairwise fun s t => ¬t.instructions.StrictlyInside s.instructions := by
  have hconcrete : ∀ exc ∈ nestedClauses, Concrete (.ok : Nat → Except Unit Nat) exc :=
    fun _ _ t _ => ⟨t, rfl⟩
  obtain ⟨cs, v, -, hparse, -, -, -, hinner⟩ := (parse_sections _ _).2 hconcrete
  have hid : (parse .ok ⟨id, fun as => .refl as⟩ nestedClauses : Except Unit _) =
      .ok nestedSections := by
    simp [parse, nestedClauses, collect, handlerKind, pushHandler, Except.map, nestedSections,
      toSection, ExceptionClause.tryRange, ExceptionClause.handlerRange, keyLe, List.mergeSort]
    rfl
  obtain rfl : nestedSections = v := Except.ok.inj (hid.symm.trans (hparse _))
  exact ⟨hparse, hinner⟩

end Parsing

end DotnetVm
