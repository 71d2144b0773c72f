import DotnetVm.Layout.Levels

/-!
# Overlapping fields and elements of arrays

An explicit layout may let fields overlap, but a reference only shares its bytes
with a reference of the same kind. The elements of an array follow each other
without padding: the placement loop rounds the size of an element up, but declared
offsets and a declared class size are taken as they are, so the elements are aligned
exactly if these respect the alignments of the fields.
-/

namespace DotnetVm

open List

variable {typeName : TypeDescription → String} {fields : List FieldInput} {baseSize : Nat}

/-- A scalar of this kind is somewhere in the layout. -/
inductive Holds (s : Scalar) : LayoutManager → Prop
  | here : Holds s (.scalar s)
  | element {e : LayoutManager} {n : Nat} (h : Holds s e) : Holds s (.array e n)
  | field {m : FieldLayoutManager} {f : Placed LayoutManager} (hf : f ∈ m.fields)
      (h : Holds s f.layout) : Holds s (.field m)

def Scalar.isReference (s : Scalar) : Prop := s = .objectRef ∨ s = .managedPtr

lemma isOrContainsRefs_of_holds {s : Scalar} {l : LayoutManager} (hs : s.isReference)
    (h : Holds s l) : l.isOrContainsRefs = true := by
  induction h with
  | here => rcases hs with rfl | rfl <;> rfl
  | element h ih => exact ih
  | field hf h ih =>
    rw [LayoutManager.isOrContainsRefs_field]
    exact any_eq_true.mpr ⟨_, hf, ih⟩

lemma isGcPtr_iff {l : LayoutManager} :
    l.isGcPtr = true ↔ ∃ s : Scalar, s.isReference ∧ l = .scalar s := by
  constructor
  · intro h
    cases l with
    | scalar s => cases s <;> first | exact ⟨_, .inl rfl, rfl⟩ | exact ⟨_, .inr rfl, rfl⟩ | cases h
    | array e n => cases h
    | field m => cases h
  · rintro ⟨s, rfl | rfl, rfl⟩ <;> rfl

/-- The owner whose overlaps are accepted. -/
def isExempt (name : String) : Bool :=
  containsText name "System.Runtime.CompilerServices.MethodTable"

/-- The bytes `start..stop` of one field and those of the other are disjoint or hold no reference,
or each of the fields is a reference of one kind at one offset. -/
def Harmless (start stop : Nat) (l : LayoutManager) (start' stop' : Nat) (l' : LayoutManager) :
    Prop :=
  start < stop' ∧ start' < stop → (∀ s : Scalar, s.isReference → ¬Holds s l ∧ ¬Holds s l') ∨
    ∃ s : Scalar, s.isReference ∧ l = .scalar s ∧ l' = .scalar s ∧ start = start'

lemma harmless_of_checkOverlaps {name : String} {f : FieldInput} {start : Nat}
    {ranges : List PlacedRange} (hname : isExempt name = false)
    (h : checkOverlaps name f start (start + f.layout.size) ranges = .ok ()) {p : PlacedRange}
    (hp : p ∈ ranges) (hsize : p.2.1 = p.1 + p.2.2.size) :
    Harmless p.1 p.2.1 p.2.2 start (start + f.layout.size) f.layout := by
  induction ranges with
  | nil => cases hp
  | cons q ranges ih =>
    obtain ⟨prevStart, prevEnd, prev⟩ := q
    simp only [checkOverlaps, show containsText name _ = false from hname] at h
    rcases mem_cons.mp hp with rfl | hp
    · rintro ⟨hlt, hlt'⟩
      simp only [hlt, hlt', decide_true, Bool.true_and] at h
      split at h
      · split at h
        next hsm =>
          simp only [Bool.and_eq_true, decide_eq_true_eq, isGcPtr_iff] at hsm
          obtain ⟨⟨rfl, hend⟩, ⟨s, hs, hl⟩, ⟨s', hs', hl'⟩⟩ := hsm
          rw [hl] at hend
          simp only [hl'] at hsize
          -- references of different kinds differ in size
          have hss : s' = s := by
            rcases hs with rfl | rfl <;> rcases hs' with rfl | rfl <;>
              simp [LayoutManager.size, Scalar.size, managedPtrSize] at * <;> omega
          exact .inr ⟨s, hs, by rw [hl', hss], hl, rfl⟩
        · cases h
      next hno =>
        simp only [Bool.or_eq_true, not_or] at hno
        exact .inl fun s hs => ⟨fun hh => hno.2 (isOrContainsRefs_of_holds hs hh),
          fun hh => hno.1 (isOrContainsRefs_of_holds hs hh)⟩
    · refine ih ?_ hp
      split at h
      · split at h
        · exact h
        · simp at h
      · exact h

def FieldInput.Harmless (typeName : TypeDescription → String) (baseSize : Nat) (f g : FieldInput) :
    Prop :=
  ∃ o o', f.offset = some o ∧ g.offset = some o' ∧ (isExempt (typeName g.owner) = false →
    DotnetVm.Harmless (baseSize + o) (baseSize + o + f.layout.size) f.layout
      (baseSize + o') (baseSize + o' + g.layout.size) g.layout)

/-- The loop over the fields keeps the ranges of those it has placed, `l`. -/
lemma pairwise_harmless {l : List FieldInput} {s : Placing × List PlacedRange} {s' : Placing}
    (hbef : ∀ f ∈ l, ∃ o, f.offset = some o ∧
      (baseSize + o, baseSize + o + f.layout.size, f.layout) ∈ s.2)
    (h : placeFieldsExplicitly typeName baseSize s fields = .ok s') :
    (∀ f ∈ l, ∀ g ∈ fields, f.Harmless typeName baseSize g) ∧
      fields.Pairwise (FieldInput.Harmless typeName baseSize) := by
  induction fields generalizing s l with
  | nil => exact ⟨nofun, .nil⟩
  | cons g fields ih =>
    rw [placeFieldsExplicitly, placeExplicitly] at h
    cases ho : g.offset with
    | none => simp [ho] at h
    | some o' =>
      simp only [ho] at h
      cases hcheck : checkOverlaps (typeName g.owner) g (baseSize + o')
          (baseSize + o' + g.layout.size) s.2 with
      | error e => simp [hcheck] at h
      | ok _ =>
        simp only [hcheck] at h
        have hrest := ih (l := g :: l) (fun f hf => ?_) h
        · refine ⟨fun f hf g' hg' => ?_, pairwise_cons.mpr
            ⟨fun g' hg' => hrest.1 g mem_cons_self g' hg', hrest.2⟩⟩
          rcases mem_cons.mp hg' with rfl | hg'
          · obtain ⟨o, hf, hrng⟩ := hbef f hf
            exact ⟨o, o', hf, ho, fun hname => harmless_of_checkOverlaps hname hcheck hrng rfl⟩
          · exact hrest.1 f (mem_cons_of_mem g hf) g' hg'
        · rcases mem_cons.mp hf with rfl | hf
          · exact ⟨o', ho, mem_append_right _ (mem_singleton_self _)⟩
          · obtain ⟨o, hof, hrng⟩ := hbef f hf
            exact ⟨o, hof, mem_append_left _ hrng⟩

/-- A byte of a field that holds a reference belongs to no other field, unless both fields are
references of one kind at one offset. -/
def ReferencesUnaliased (typeName : TypeDescription → String) (m : FieldLayoutManager) : Prop :=
  ∀ f ∈ m.fields, ∀ g ∈ m.fields, f ≠ g → isExempt (typeName f.key.owner) = false →
    isExempt (typeName g.key.owner) = false → ∀ s : Scalar, s.isReference → Holds s f.layout →
    ∀ byte, f.position ≤ byte → byte < f.stop → g.position ≤ byte → byte < g.stop →
      f.layout = .scalar s ∧ g.layout = .scalar s ∧ f.position = g.position

/-- Both are exempt or they overlap without harm, whichever of them has been placed first. -/
def Placed.Harmless (typeName : TypeDescription → String) (f g : Placed LayoutManager) : Prop :=
  isExempt (typeName f.key.owner) = false → isExempt (typeName g.key.owner) = false →
    DotnetVm.Harmless f.position f.stop f.layout g.position g.stop g.layout

lemma Harmless.symm {start stop start' stop' : Nat} {l l' : LayoutManager}
    (h : Harmless start stop l start' stop' l') : Harmless start' stop' l' start stop l := by
  rintro ⟨hlt, hlt'⟩
  rcases h ⟨hlt', hlt⟩ with hno | ⟨s, hs, hl, hl', heq⟩
  · exact .inl fun s hs => (hno s hs).symm
  · exact .inr ⟨s, hs, hl', hl, heq.symm⟩

lemma referencesUnaliased_of_harmless {m : FieldLayoutManager}
    (hfields : m.fields = (explicitPlaces baseSize fields).foldl insertField [])
    (h : fields.Pairwise (FieldInput.Harmless typeName baseSize)) :
    ReferencesUnaliased typeName m := by
  have hplaces : (explicitPlaces baseSize fields).Pairwise (Placed.Harmless typeName) := by
    refine h.map _ fun f g hfg _ hname => ?_
    obtain ⟨o, o', ho, ho', hfg⟩ := hfg
    simp only [Placed.stop, ho, ho', Option.getD_some]
    exact hfg hname
  have hsymm : Std.Symm (Placed.Harmless typeName) := ⟨fun _ _ hfg hg hf => (hfg hf hg).symm⟩
  have hmem {f : Placed LayoutManager} (hf : f ∈ m.fields) :
      f ∈ explicitPlaces baseSize fields := by
    rw [hfields] at hf
    exact (mem_foldl_insertField hf).resolve_right not_mem_nil
  intro f hf g hg hne hfname hgname s hs hholds byte hfle hflt hgle hglt
  rcases hplaces.forall (hmem hf) (hmem hg) hne hfname hgname ⟨by omega, by omega⟩ with
    hno | ⟨s', -, hl, hl', heq⟩
  · exact absurd hholds (hno s hs).1
  · rw [hl] at hholds
    cases hholds
    exact ⟨hl, hl', heq⟩

def fieldAt (name : String) (offset : Option Nat) (s : Scalar) : FieldInput :=
  ⟨⟨⟨some 0⟩, 0⟩, name, offset, .scalar s⟩

/-- Two integers overlap behind a reference that shares its bytes with another one. -/
def overlaidFields : List FieldInput :=
  [fieldAt "bits" (some 8) .int64, fieldAt "low" (some 8) .int32,
    fieldAt "next" (some 0) .objectRef, fieldAt "previous" (some 0) .objectRef]

def LayoutManager.elementOffsets : LayoutManager → List Nat
  | .array element length => (List.range length).map (element.size * ·)
  | _ => []

section Elements

variable {layout : Layout} {baseAlignment : Alignment}

/-- The largest of the alignments, each clamped by the packing. -/
def Layout.maxAlignment (layout : Layout) (fields : List FieldInput) (start : Nat) : Nat :=
  fields.foldl (fun align f => max align (layout.fieldAlignment f.layout)) start

/-- The size of an element: where its fields end, rounded up unless the offsets are declared, or the
declared class size. -/
def Layout.elementSize (layout : Layout) (fields : List FieldInput) (baseSize : Nat)
    (baseAlignment : Alignment) : Nat :=
  let stop := placesEnd (layout.places baseSize fields) baseSize
  match layout with
  | .explicit _ => max stop (baseSize + layout.classSize)
  | _ => max (alignUp stop (layout.maxAlignment fields baseAlignment.bytes))
      (baseSize + layout.classSize)

lemma maxAlignment_foldl {packingSize : Nat} (hpacking : 0 < packingSize)
    (hpack : ∀ l : LayoutManager, layout.fieldAlignment l = min l.alignment.bytes packingSize)
    (fields : List FieldInput) (s : Placing) :
    (fields.foldl (placeField packingSize hpacking) s).maxAlignment.bytes =
      layout.maxAlignment fields s.maxAlignment.bytes := by
  induction fields generalizing s with
  | nil => rfl
  | cons f fields ih =>
    rw [foldl_cons, ih, Layout.maxAlignment, Layout.maxAlignment, foldl_cons, hpack]
    rfl

lemma placeFieldsSequentially_totalSize {packingSize : Nat} {hpacking : 0 < packingSize}
    (hpack : ∀ l : LayoutManager, layout.fieldAlignment l = min l.alignment.bytes packingSize) :
    (placeFieldsSequentially fields baseSize baseAlignment packingSize hpacking).totalSize =
      alignUp (placesEnd (sequentialPlaces packingSize hpacking baseSize fields) baseSize)
        (layout.maxAlignment fields baseAlignment.bytes) := by
  have hloop := enters_sequentialPlaces packingSize hpacking fields
    (Placing.start baseSize baseAlignment)
  simp only [placeFieldsSequentially, hloop.offset, maxAlignment_foldl hpacking hpack]
  rfl

lemma totalSize_of_ok {m : FieldLayoutManager}
    (h : createFieldLayout typeName fields layout baseSize baseAlignment = .ok m) :
    m.totalSize = layout.elementSize fields baseSize baseAlignment := by
  cases layout with
  | automatic =>
    simp only [createFieldLayout] at h
    split at h <;> cases h
    rw [placeFieldsSequentially_totalSize fieldAlignment_automatic]
    refine (max_eq_left ((le_placesEnd ..).1.trans (le_alignUp _ ?_))).symm
    have hmax := maxAlignment_foldl usizeMax_pos fieldAlignment_automatic fields
      (Placing.start baseSize baseAlignment)
    exact hmax ▸ Alignment.pos _
  | sequential s =>
    have hcls : (Layout.sequential s).classSize = (s.map SequentialLayout.classSize).getD 0 := by
      cases s <;> rfl
    simp only [createFieldLayout] at h
    split at h <;> cases h
    simp only [placeFieldsSequentially_totalSize (fieldAlignment_sequential s), ← hcls]
    rfl
  | explicit classSize =>
    simp only [createFieldLayout] at h
    cases hplaced : placeFieldsExplicitly typeName baseSize
        (Placing.start baseSize baseAlignment, []) fields with
    | error e => simp [hplaced] at h
    | ok s =>
      have hoffset : s.offset = placesEnd (explicitPlaces baseSize fields) baseSize :=
        (enters_explicitPlaces hplaced).offset
      cases classSize with
      | none =>
        simp only [hplaced] at h
        split at h <;> cases h
        exact hoffset.trans (max_eq_left (le_placesEnd ..).1).symm
      | some size =>
        simp only [hplaced] at h
        split at h <;> cases h
        exact (max_comm ..).trans (congrArg (max · (baseSize + size)) hoffset)

/-- The declared offsets are aligned where there is an element, and the alignments divide the size
of an element where there is a second one. -/
structure ElementsTile (fields : List FieldInput) (layout : Layout) (baseSize : Nat)
    (baseAlignment : Alignment) (length : Nat) : Prop where
  offsets : 0 < length → ∀ classSize, layout = .explicit classSize →
    ∀ g ∈ (explicitPlaces baseSize fields).foldl insertField [],
      layout.fieldAlignment g.layout ∣ g.position
  size : 1 < length → ∀ g ∈ (layout.places baseSize fields).foldl insertField [],
    layout.fieldAlignment g.layout ∣ layout.elementSize fields baseSize baseAlignment

/-- The fields of all elements are aligned exactly if declared offsets are, and the alignments
divide the size of an element that others follow. -/
theorem elements_aligned_iff {m : FieldLayoutManager} (length : Nat)
    (h : createFieldLayout typeName fields layout baseSize baseAlignment = .ok m) :
    (∀ o ∈ (LayoutManager.array (.field m) length).elementOffsets, ∀ g ∈ m.fields,
      layout.fieldAlignment g.layout ∣ o + g.position) ↔
    ElementsTile fields layout baseSize baseAlignment length := by
  have hfields := (createFieldLayout_declares h).fields
  have hoffset {i : Nat} (hi : i < length) :
      m.totalSize * i ∈ (LayoutManager.array (.field m) length).elementOffsets :=
    mem_map.mpr ⟨i, mem_range.mpr hi, rfl⟩
  constructor
  · intro hall
    have hfirst (hpos : 0 < length) (g) (hg : g ∈ m.fields) :
        layout.fieldAlignment g.layout ∣ g.position := by
      simpa using hall _ (hoffset hpos) g hg
    refine ⟨?_, fun hlen g hg => ?_⟩
    · rintro hpos classSize rfl g hg
      exact hfirst hpos g (hfields ▸ hg)
    · rw [← hfields] at hg
      rw [← totalSize_of_ok h]
      have hsecond := hall _ (hoffset hlen) g hg
      rw [mul_one] at hsecond
      exact (Nat.dvd_add_left (hfirst (by omega) g hg)).mp hsecond
  · intro htile o ho g hg
    obtain ⟨i, hi, rfl⟩ := mem_map.mp ho
    have hi := mem_range.mp hi
    have hposition : layout.fieldAlignment g.layout ∣ g.position := by
      by_cases hlayout : ∃ classSize, layout = .explicit classSize
      · obtain ⟨classSize, rfl⟩ := hlayout
        exact htile.offsets (by omega) classSize rfl g (hfields ▸ hg)
      · exact (wellPlaced_of_ok (not_exists.mp hlayout) h).aligned g hg
    rcases i with - | i
    · simpa using hposition
    · have hsize := htile.size (by omega) g (hfields ▸ hg)
      rw [← totalSize_of_ok h] at hsize
      exact Nat.dvd_add (hsize.mul_right _) hposition

end Elements

def pairFields : List FieldInput := [fieldAt "n" none .int32, fieldAt "b" none .uInt8]

theorem padded_elements_aligned :
    ∃ m, createFieldLayout (fun _ => "Pair") pairFields (.sequential (some ⟨0, 12⟩)) 0 .one =
      .ok m ∧
    ∀ o ∈ (LayoutManager.array (.field m) 3).elementOffsets, ∀ g ∈ m.fields,
      (Layout.sequential (some ⟨0, 12⟩)).fieldAlignment g.layout ∣ o + g.position := by
  have h : createFieldLayout (fun _ => "Pair") pairFields (.sequential (some ⟨0, 12⟩)) 0 .one =
    .ok _ := rfl
  exact ⟨_, h, (elements_aligned_iff 3 h).mpr ⟨fun _ _ => nofun, fun _ => by decide⟩⟩

/-- An integer in a class of five bytes: the second element of an array is not aligned. -/
theorem sized_element_misaligned :
    ∃ m, createFieldLayout (fun _ => "Sized") [fieldAt "n" none .int32]
      (.sequential (some ⟨0, 5⟩)) 0 .one = .ok m ∧
    ∃ o ∈ (LayoutManager.array (.field m) 2).elementOffsets, ∃ g ∈ m.fields,
      ¬(Layout.sequential (some ⟨0, 5⟩)).fieldAlignment g.layout ∣ o + g.position :=
  ⟨_, rfl, 5, by decide, _, mem_singleton_self _, by decide⟩

end DotnetVm
