import DotnetVm.Layout.Levels

/-!
# What a descriptor marks

A descriptor is right when it marks exactly the offsets at which a walk through
the layout finds an object reference: the walk goes through all fields, the
inherited ones included, through nested value types, and through every element of
an inline array. One level of the factory keeps descriptors right unless it is an
inline array of references that has other references as well, or describes the
static fields of one, or unless a field with references was replaced in the map by
another of the same name.
-/

namespace DotnetVm

open ClassLevel List

namespace LayoutManager

section walk

variable (isSlot : Scalar → Bool)
  (repetitions : List (Placed LayoutManager) → Placed LayoutManager → Nat)

mutual
def walk : LayoutManager → List Nat
  | .scalar s => if isSlot s then [0] else []
  | .array element length =>
    (List.range length).flatMap fun i => (walk element).map (element.size * i + ·)
  | .field ⟨fields, _, _, _, _⟩ => walkFields (repetitions fields) fields

def walkFields (count : Placed LayoutManager → Nat) : List (Placed LayoutManager) → List Nat
  | [] => []
  | ⟨key, position, layout⟩ :: fields =>
    ((List.range (count ⟨key, position, layout⟩)).flatMap fun i =>
      (walk layout).map (position + layout.size * i + ·)) ++ walkFields count fields
end

variable {isSlot repetitions}

lemma mem_walkFields {count : Placed LayoutManager → Nat} {fields : List (Placed LayoutManager)}
    {o : Nat} :
    o ∈ walkFields isSlot repetitions count fields ↔
      ∃ f ∈ fields, ∃ i < count f, ∃ s ∈ walk isSlot repetitions f.layout,
        o = f.position + f.layout.size * i + s := by
  induction fields with
  | nil => simp [walkFields]
  | cons f fields ih =>
    simp [walkFields, ih, eq_comm]

lemma walk_field (m : FieldLayoutManager) : walk isSlot repetitions (.field m) =
      walkFields isSlot repetitions (repetitions m.fields) m.fields := by
  rw [walk]

lemma mem_walk_array {element : LayoutManager} {length o : Nat} :
    o ∈ walk isSlot repetitions (.array element length) ↔
      ∃ i < length, ∃ s ∈ walk isSlot repetitions element, o = element.size * i + s := by
  simp [walk, eq_comm]

lemma walk_eq_nil_of_no_refs {l : LayoutManager}
    (hslot : ∀ s, isSlot s = true → s = .objectRef ∨ s = .managedPtr)
    (h : l.isOrContainsRefs = false) : walk isSlot repetitions l = [] := by
  induction l with
  | scalar s =>
    rw [walk, if_neg]
    intro hs
    rcases hslot s hs with rfl | rfl <;> nomatch h
  | array element length ih =>
    have helt := ih h
    simp [walk, helt]
  | field m ih =>
    rw [isOrContainsRefs_field, any_eq_false] at h
    rw [eq_nil_iff_forall_not_mem]
    intro o ho
    obtain ⟨f, hf, i, -, s, hs, -⟩ := mem_walkFields.mp ho
    rw [ih f hf (eq_false_of_ne_true (h f hf))] at hs
    exact absurd hs not_mem_nil

end walk

def isObjectRef (s : Scalar) : Bool := decide (s = .objectRef)

/-- The offsets the descriptor of a layout marks. -/
def marks : LayoutManager → List Nat
  | .scalar s => if isObjectRef s then [0] else []
  | .array element length =>
    if element.isOrContainsRefs then
      (List.range length).flatMap fun i => (marks element).map (element.size * i + ·)
    else []
  | .field m => m.gcDesc.offsets

end LayoutManager

open LayoutManager

lemma mem_offsets_foldl {α : Type} {f : GcDesc → α → GcDesc} {A : α → Nat → Prop}
    (h : ∀ d x o, o ∈ (f d x).offsets ↔ o ∈ d.offsets ∨ A x o) (xs : List α)
    (d : GcDesc) (o : Nat) :
    o ∈ (xs.foldl f d).offsets ↔ o ∈ d.offsets ∨ ∃ x ∈ xs, A x o := by
  induction xs generalizing d with
  | nil => simp
  | cons x xs ih => rw [foldl_cons, ih, h, exists_mem_cons_iff, or_assoc]

lemma mem_offsets_foldl_setOffset {α : Type} (g : α → Nat) (xs : List α) (d : GcDesc) (o : Nat) :
    o ∈ (xs.foldl (fun d x => d.setOffset (g x)) d).offsets ↔ o ∈ d.offsets ∨ ∃ x ∈ xs, o = g x :=
  mem_offsets_foldl (A := fun x o => o = g x) (fun _ _ _ => GcDesc.mem_offsets_setOffset) xs d o

lemma mem_offsets_populateGcDesc (l : LayoutManager) (base : Nat) (d : GcDesc) (o : Nat) :
    o ∈ (populateGcDesc l base d).offsets ↔ o ∈ d.offsets ∨ ∃ s ∈ l.marks, o = base + s := by
  induction l generalizing base d o with
  | scalar s =>
    cases s <;> simp [populateGcDesc, marks, isObjectRef]
  | array element length ih =>
    rw [populateGcDesc, marks]
    split
    · rw [mem_offsets_foldl fun d i o => ih (base + element.size * i) d o]
      refine or_congr_right ?_
      simp only [mem_flatMap, mem_map]
      constructor
      · rintro ⟨i, hi, s, hs, rfl⟩
        exact ⟨_, ⟨i, hi, s, hs, rfl⟩, add_assoc ..⟩
      · rintro ⟨_, ⟨i, hi, s, hs, rfl⟩, rfl⟩
        exact ⟨i, hi, s, hs, (add_assoc ..).symm⟩
    · simp
  | field m =>
    rw [populateGcDesc, mem_offsets_foldl_setOffset, mem_offsets_foldl_setOffset, or_assoc]
    refine or_congr_right ?_
    simp [marks, GcDesc.offsets, or_and_right, exists_or]

namespace GcDesc

/-- `S` are the byte offsets given to the operations that built the descriptor; those of a
descriptor merged at an offset are moved by it. -/
inductive Records : GcDesc → Set Nat → Prop where
  | empty : Records .empty ∅
  | set {d S} (i : Nat) : Records d S → Records (d.set i) (insert (i * objectRefSize) S)
  | setOffset {d S} (o : Nat) : Records d S → Records (d.setOffset o) (insert o S)
  | merge {d e S T} : Records d S → Records e T → Records (d.merge e) (S ∪ T)
  | mergeAt {d S T} (m : FieldLayouts LayoutManager) (base : Nat) : Records d S →
    Records m.gcDesc T → Records (populateGcDesc (.field m) base d) (S ∪ (base + ·) '' T)

variable {d : GcDesc} {S : Set Nat}

lemma set_eq_setOffset (d : GcDesc) (i : Nat) : d.set i = d.setOffset (i * objectRefSize) := by
  rw [setOffset, if_pos (Nat.mul_mod_left ..), Nat.mul_div_cancel _ (by decide)]

def OnlyUnaligned (d : GcDesc) : Prop := ∀ o ∈ d.unalignedOffsets, o % objectRefSize ≠ 0

lemma OnlyUnaligned.setOffset (h : d.OnlyUnaligned) (b : Nat) : (d.setOffset b).OnlyUnaligned := by
  unfold GcDesc.setOffset
  split
  · exact h
  · rename_i hb
    intro o ho
    rcases mem_addUnaligned.mp ((mem_insertionSort _).mp ho) with ho | rfl
    · exact h o ho
    · exact hb

lemma Records.onlyUnaligned (h : Records d S) : d.OnlyUnaligned := by
  induction h with
  | empty => exact nofun
  | set i _ ih => exact ih
  | setOffset o _ ih => exact ih.setOffset o
  | merge _ _ ih ih' =>
    intro o ho
    rcases mem_foldl_addUnaligned.mp ((mem_insertionSort _).mp ho) with ho | ho
    · exact ih o ho
    · exact ih' o ho
  | mergeAt m base _ _ ih _ =>
    rw [populateGcDesc]
    refine foldlRecOn _ _ (foldlRecOn _ _ ih ?_) ?_
    · exact fun _ h _ _ => h.setOffset _
    · exact fun _ h _ _ => h.setOffset _

lemma Records.mem_offsets (h : Records d S) (o : Nat) : o ∈ d.offsets ↔ o ∈ S := by
  induction h generalizing o with
  | empty => simp
  | set i _ ih => rw [set_eq_setOffset, mem_offsets_setOffset, ih, Set.mem_insert_iff, or_comm]
  | setOffset b _ ih => rw [mem_offsets_setOffset, ih, Set.mem_insert_iff, or_comm]
  | merge _ _ ih ih' => rw [mem_offsets_merge, ih, ih', Set.mem_union]
  | mergeAt m base _ _ ih ih' =>
    rw [mem_offsets_populateGcDesc, ih]
    simp [marks, ih', eq_comm]

/-- The words of a descriptor ascend, so none comes twice, and are those of the aligned offsets
given to the operations that built it. -/
theorem words_recorded (h : Records d S) :
    d.wordIndices.Pairwise (· < ·) ∧ ∀ i, i ∈ d.wordIndices ↔ i * objectRefSize ∈ S := by
  refine ⟨pairwise_wordIndices d, fun i => ?_⟩
  rw [← h.mem_offsets, offsets, mem_append, mem_map]
  constructor
  · exact fun hi => .inl ⟨i, hi, rfl⟩
  · rintro (⟨j, hj, heq⟩ | ho)
    · rwa [← Nat.eq_of_mul_eq_mul_right (by decide) heq]
    · exact absurd (Nat.mul_mod_left ..) (h.onlyUnaligned _ ho)

/-- A reference in word 1 of a value that lies at byte 504: its word is in the second bitmap
word. -/
theorem shifted_words_recorded :
    let m : FieldLayouts LayoutManager := ⟨[], 16, .one, GcDesc.empty.set 1, true⟩
    let d := populateGcDesc (.field m) 504 (GcDesc.empty.set 3)
    d.wordIndices = [3, 64] ∧ ∀ i, i ∈ d.wordIndices ↔
      i * objectRefSize ∈ insert 24 ∅ ∪ (504 + ·) '' (insert 8 ∅ : Set Nat) :=
  ⟨by decide, (words_recorded (.mergeAt _ 504 (.set 3 .empty) (.set 1 .empty))).2⟩

end GcDesc

def SlotAt (slots : LayoutManager → List Nat) (parts : List (Nat × LayoutManager))
    (o : Nat) : Prop :=
  ∃ p ∈ parts, ∃ s ∈ slots p.2, o = p.1 + s

variable {ps : List (Nat × LayoutManager)}

lemma slotAt_append {slots : LayoutManager → List Nat} {qs : List (Nat × LayoutManager)}
    {o : Nat} : SlotAt slots (ps ++ qs) o ↔ SlotAt slots ps o ∨ SlotAt slots qs o := by
  simp [SlotAt, or_and_right, exists_or]

lemma slotAt_congr {slots slots' : LayoutManager → List Nat}
    (h : ∀ p ∈ ps, ∀ s, s ∈ slots p.2 ↔ s ∈ slots' p.2) (o : Nat) :
    SlotAt slots ps o ↔ SlotAt slots' ps o := by
  constructor
  · rintro ⟨p, hp, s, hs, ho⟩
    exact ⟨p, hp, s, (h p hp s).mp hs, ho⟩
  · rintro ⟨p, hp, s, hs, ho⟩
    exact ⟨p, hp, s, (h p hp s).mpr hs, ho⟩

/-- The places of fields as offsets of layouts. -/
def placedParts (fields : List (Placed LayoutManager)) : List (Nat × LayoutManager) :=
  fields.map fun p => (p.position, p.layout)

lemma mem_offsets_describe (places : List (Placed LayoutManager)) (d : GcDesc) (o : Nat) :
    o ∈ (describe places d).offsets ↔ o ∈ d.offsets ∨ SlotAt marks (placedParts places) o := by
  rw [describe, mem_offsets_foldl fun d p o => mem_offsets_populateGcDesc p.layout p.position d o]
  refine or_congr_right ?_
  simp [SlotAt, placedParts]

namespace LayoutLoader

variable {M : LayoutLoader} {level : ClassLevel} {m : FieldLayoutManager}

lemma mem_offsets_finish (hlevel : level.Wellformed) (h : M.finish level = some (.ok m)) (o : Nat) :
    o ∈ m.gcDesc.offsets ↔ SlotAt marks (M.described level) o := by
  obtain ⟨result, hdecl, hcs⟩ := finish_cases hlevel h
  have hmerg : o ∈ (mergeBase result level.base).gcDesc.offsets ↔ SlotAt marks level.parts o := by
    have hres : o ∈ result.gcDesc.offsets ↔ SlotAt marks (placedParts level.places) o := by
      rw [hdecl.gcDesc, mem_offsets_describe]
      simp
    rw [ClassLevel.parts, slotAt_append]
    cases level.base with
    | none => exact hres.trans (or_iff_left fun ⟨_, hp, _⟩ => absurd hp not_mem_nil).symm
    | some base =>
      simp only [mergeBase, GcDesc.mem_offsets_merge]
      exact or_congr hres (by simp [SlotAt, marks])
  unfold described
  cases helt : M.element level with
  | none =>
    rw [helt] at hcs
    rw [hcs]
    exact hmerg
  | some p =>
    obtain ⟨f, length⟩ := p
    rw [helt] at hcs
    obtain ⟨hrep, hfst⟩ := hcs
    simp only [repeatFirstField, hfst] at hrep
    dsimp only
    split at hrep
    · rename_i hrefs
      rw [if_pos hrefs]
      split at hrep
      · cases hrep
        rw [mem_offsets_foldl fun d i o =>
          mem_offsets_populateGcDesc f.layout (f.position + f.layout.size * i) d o]
        simp [SlotAt, elements]
      · cases hrep
    · rename_i hrefs
      rw [if_neg hrefs]
      cases hrep
      exact hmerg

lemma mem_parts_of_mem_described {p : Nat × LayoutManager} (h : p ∈ M.described level) :
    ∃ q ∈ level.parts, q.2 = p.2 := by
  unfold described at h
  cases helt : M.element level with
  | none =>
    rw [helt] at h
    exact ⟨p, h, rfl⟩
  | some e =>
    obtain ⟨f, length⟩ := e
    rw [helt] at h
    dsimp only at h
    split at h
    · obtain ⟨i, -, rfl⟩ := mem_map.mp h
      have hf := mem_places_of_mem_declared (mem_declared_of_element helt).1
      exact ⟨(f.position, f.layout), mem_append_left _ (mem_map.mpr ⟨f, hf, rfl⟩), rfl⟩
    · exact ⟨p, h, rfl⟩

lemma mem_offsets_finish_of_parts {slots : LayoutManager → List Nat} (hlevel : level.Wellformed)
    (hparts : ∀ p ∈ level.parts, ∀ s, s ∈ p.2.marks ↔ s ∈ slots p.2)
    (h : M.finish level = some (.ok m)) (o : Nat) :
    o ∈ m.gcDesc.offsets ↔ SlotAt slots (M.described level) o := by
  rw [mem_offsets_finish hlevel h]
  apply slotAt_congr
  intro p hp s
  obtain ⟨q, hq, hsm⟩ := mem_parts_of_mem_described hp
  rw [← hsm]
  exact hparts q hq s

variable (M)

def repetitions (fields : List (Placed LayoutManager)) (f : Placed LayoutManager) : Nat :=
  match M.inlineArrayLength f.key.owner with
  | none => 1
  | some inlineLen =>
    if 1 < inlineLen ∧
      (firstField f.key.owner fields none).map Placed.key = some f.key then inlineLen
    else 1

/-- The object references of a value of a layout. -/
def slots : LayoutManager → List Nat := walk isObjectRef M.repetitions

def fieldSlots (isStatic : Bool) (fields : List (Placed LayoutManager)) : List Nat :=
  walkFields isObjectRef M.repetitions
    (if isStatic then fun _ => 1 else M.repetitions fields) fields

variable {M}

variable {f : Placed LayoutManager}

lemma repetitions_declared (hlevel : level.Wellformed) (hf : f ∈ level.declared) :
    M.repetitions level.allFields f =
      match M.element level with
      | none => 1
      | some (g, length) => if g.key = f.key then length else 1 := by
  have hfst : firstField level.td level.allFields none =
      firstField level.td level.declared none := by
    rw [allFields, firstField_append]
    exact firstField_of_owner_ne hlevel.owner_ne _
  unfold repetitions element
  rw [owner_of_mem_declared hf, hfst]
  cases M.inlineArrayLength level.td with
  | none => rfl
  | some length =>
    dsimp only
    by_cases hlong : 1 < length
    · cases firstField level.td level.declared none with
      | none => simp
      | some g => simp [hlong]
    · rw [if_neg hlong, if_neg fun h => hlong h.1]

lemma repetitions_inherited (hlevel : level.Wellformed) (hf : f ∈ level.inherited) :
    M.repetitions level.allFields f = M.repetitions level.inherited f := by
  have hfst : firstField f.key.owner level.allFields none =
      firstField f.key.owner level.inherited none := by
    have hdecl : firstField f.key.owner level.declared none = none := by
      apply firstField_of_owner_ne
      intro g hg hown
      exact hlevel.owner_ne f hf (hown ▸ owner_of_mem_declared hg)
    rw [allFields, firstField_append, hdecl]
  unfold repetitions
  rw [hfst]

lemma slots_field (m : FieldLayoutManager) : M.slots (.field m) = M.fieldSlots false m.fields :=
  walk_field m

variable {fields : List (Placed LayoutManager)} {o : Nat}

lemma mem_fieldSlots {isStatic : Bool} : o ∈ M.fieldSlots isStatic fields ↔
      ∃ f ∈ fields, ∃ i < (if isStatic then 1 else M.repetitions fields f), ∃ s ∈ M.slots f.layout,
        o = f.position + f.layout.size * i + s := by
  rw [fieldSlots, mem_walkFields]
  cases isStatic <;> rfl

variable {length : Nat}

lemma slotAt_elements {slots : LayoutManager → List Nat} : SlotAt slots (elements f length) o ↔
      ∃ i < length, ∃ s ∈ slots f.layout, o = f.position + f.layout.size * i + s := by
  simp [SlotAt, elements]

lemma slotAt_placedParts {slots : LayoutManager → List Nat} : SlotAt slots (placedParts fields) o ↔
      ∃ f ∈ fields, ∃ s ∈ slots f.layout, o = f.position + s := by
  simp [SlotAt, placedParts]

lemma slotAt_parts : SlotAt M.slots level.parts o ↔
      SlotAt M.slots (placedParts level.places) o ∨ o ∈ M.fieldSlots false level.inherited := by
  rw [ClassLevel.parts, slotAt_append]
  apply or_congr Iff.rfl
  unfold ClassLevel.inherited
  cases level.base with
  | none => simp [SlotAt, mem_fieldSlots]
  | some base => simp [SlotAt, slots_field]

/-- How many elements a declared field stands for. -/
def declaredCount (M : LayoutLoader) (level : ClassLevel) (f : Placed LayoutManager) : Nat :=
  if level.isStatic then 1
  else
    match M.element level with
    | none => 1
    | some (g, length) => if g.key = f.key then length else 1

lemma mem_fieldSlots_allFields (hlevel : level.Wellformed) :
    o ∈ M.fieldSlots level.isStatic level.allFields ↔
      (∃ f ∈ level.declared, ∃ i < M.declaredCount level f, ∃ s ∈ M.slots f.layout,
        o = f.position + f.layout.size * i + s) ∨ o ∈ M.fieldSlots false level.inherited := by
  rw [mem_fieldSlots]
  have hcnt : ∀ f ∈ level.declared, (if level.isStatic then 1 else
      M.repetitions level.allFields f) = M.declaredCount level f := by
    intro f hf
    rw [declaredCount, repetitions_declared hlevel hf]
  have hinh : ∀ f ∈ level.inherited, (if level.isStatic then 1 else
      M.repetitions level.allFields f) = M.repetitions level.inherited f := by
    intro f hf
    cases hstat : level.isStatic with
    | true =>
      rw [ClassLevel.inherited, hlevel.static hstat] at hf
      exact absurd hf not_mem_nil
    | false => exact repetitions_inherited hlevel hf
  constructor
  · rintro ⟨f, hf, i, hi, s, hs, rfl⟩
    rcases mem_append.mp hf with hf | hf
    · exact .inl ⟨f, hf, i, hcnt f hf ▸ hi, s, hs, rfl⟩
    · exact .inr (mem_fieldSlots.mpr ⟨f, hf, i, hinh f hf ▸ hi, s, hs, rfl⟩)
  · rintro (⟨f, hf, i, hi, s, hs, rfl⟩ | ho)
    · exact ⟨f, mem_append_left _ hf, i, (hcnt f hf).symm ▸ hi, s, hs, rfl⟩
    · obtain ⟨f, hf, i, hi, s, hs, rfl⟩ := mem_fieldSlots.mp ho
      exact ⟨f, mem_append_right _ hf, i, (hinh f hf).symm ▸ hi, s, hs, rfl⟩

lemma declaredCount_pos (f : Placed LayoutManager) : 0 < M.declaredCount level f := by
  unfold declaredCount
  split
  · exact Nat.one_pos
  · cases helt : M.element level with
    | none => exact Nat.one_pos
    | some e =>
      have hlong := (mem_declared_of_element helt).2
      dsimp only
      split <;> omega

lemma eq_of_key_eq {g : Placed LayoutManager} (hf : f ∈ level.declared) (hg : g ∈ level.declared)
    (hkey : f.key = g.key) : f = g :=
  inj_on_of_nodup_map nodup_declared hf hg hkey

variable (M) (level)

/-- A field that was replaced in the map has no references of its own. -/
def ReplacedCovered : Prop :=
  ∀ p ∈ level.places, p ∉ level.declared → ∀ s ∈ M.slots p.layout,
    p.position + s ∈ M.fieldSlots level.isStatic level.allFields

structure ElementsCover (f : Placed LayoutManager) (length : Nat) : Prop where
  declared : ∀ g ∈ level.declared, g.key ≠ f.key → ∀ s ∈ M.slots g.layout,
    SlotAt M.slots (elements f length) (g.position + s)
  inherited : ∀ o ∈ M.fieldSlots false level.inherited, SlotAt M.slots (elements f length) o
  static : level.isStatic = true → ∀ o, SlotAt M.slots (elements f length) o →
    o ∈ M.fieldSlots true level.declared

/-- When the descriptor of a level comes out right. -/
def Describes : Prop :=
  match M.element level with
  | none => M.ReplacedCovered level
  | some (f, length) =>
    if f.layout.isOrContainsRefs then M.ElementsCover level f length else M.ReplacedCovered level

variable {M level}

lemma isObjectRef_ref {s : Scalar} (h : isObjectRef s = true) :
    s = .objectRef ∨ s = .managedPtr := .inl (of_decide_eq_true h)

section

variable (hlevel : level.Wellformed)
include hlevel

lemma parts_exact_iff
    (hcnt : ∀ f ∈ level.declared, M.slots f.layout ≠ [] → M.declaredCount level f = 1) :
    (∀ o, SlotAt M.slots level.parts o ↔ o ∈ M.fieldSlots level.isStatic level.allFields) ↔
      M.ReplacedCovered level := by
  constructor
  · intro h p hp _ s hs
    exact (h _).mp (slotAt_parts.mpr (.inl (slotAt_placedParts.mpr ⟨p, hp, s, hs, rfl⟩)))
  · intro hrep o
    rw [slotAt_parts, mem_fieldSlots_allFields hlevel, slotAt_placedParts]
    constructor
    · rintro (⟨p, hp, s, hs, rfl⟩ | ho)
      · by_cases hdecl : p ∈ level.declared
        · exact .inl ⟨p, hdecl, 0, declaredCount_pos p, s, hs, by simp⟩
        · exact (mem_fieldSlots_allFields hlevel).mp (hrep p hp hdecl s hs)
      · exact .inr ho
    · rintro (⟨f, hf, i, hi, s, hs, rfl⟩ | ho)
      · rw [hcnt f hf (ne_nil_of_mem hs), Nat.lt_one_iff] at hi
        exact .inl ⟨f, mem_places_of_mem_declared hf, s, hs, by simp [hi]⟩
      · exact .inr ho

lemma elements_exact_iff (helt : M.element level = some (f, length)) :
    (∀ o, SlotAt M.slots (elements f length) o ↔ o ∈ M.fieldSlots level.isStatic level.allFields) ↔
      M.ElementsCover level f length := by
  obtain ⟨hf, hlong⟩ := mem_declared_of_element helt
  constructor
  · intro h
    refine ⟨fun g hg _ s hs => ?_, fun o ho => ?_, fun hstat o ho => ?_⟩
    · exact (h _).mpr ((mem_fieldSlots_allFields hlevel).mpr
        (.inl ⟨g, hg, 0, declaredCount_pos g, s, hs, by simp⟩))
    · exact (h o).mpr ((mem_fieldSlots_allFields hlevel).mpr (.inr ho))
    · have hinh : level.inherited = [] := by
        rw [ClassLevel.inherited, hlevel.static hstat]
        rfl
      have hwalk := (h o).mp ho
      rwa [allFields, hinh, append_nil, hstat] at hwalk
  · intro hcover o
    rw [mem_fieldSlots_allFields hlevel]
    constructor
    · intro ho
      cases hstat : level.isStatic with
      | true =>
        have hwalk := hcover.static hstat o ho
        obtain ⟨g, hg, i, hi, s, hs, rfl⟩ := mem_fieldSlots.mp hwalk
        exact .inl ⟨g, hg, i, by simpa [declaredCount, hstat] using hi, s, hs, rfl⟩
      | false =>
        obtain ⟨i, hi, s, hs, rfl⟩ := slotAt_elements.mp ho
        exact .inl ⟨f, hf, i, by simpa [declaredCount, hstat, helt] using hi, s, hs, rfl⟩
    · rintro (⟨g, hg, i, hi, s, hs, rfl⟩ | ho)
      · by_cases hkey : g.key = f.key
        · obtain rfl := eq_of_key_eq hg hf hkey
          refine slotAt_elements.mpr ⟨i, lt_of_lt_of_le hi ?_, s, hs, rfl⟩
          unfold declaredCount
          rw [helt]
          split
          · exact le_of_lt hlong
          · simp
        · have hone : M.declaredCount level g = 1 := by
            unfold declaredCount
            rw [helt]
            simp [Ne.symm hkey]
          rw [hone, Nat.lt_one_iff] at hi
          simpa [hi] using hcover.declared g hg hkey s hs
      · exact hcover.inherited o ho

lemma finish_exact_iff (hparts : ∀ p ∈ level.parts, ∀ s, s ∈ p.2.marks ↔ s ∈ M.slots p.2)
    (h : M.finish level = some (.ok m)) :
    (∀ o, o ∈ m.gcDesc.offsets ↔ o ∈ M.fieldSlots level.isStatic m.fields) ↔ M.Describes level := by
  simp only [mem_offsets_finish_of_parts hlevel hparts h, finish_fields hlevel h]
  unfold described Describes
  cases helt : M.element level with
  | none =>
    apply parts_exact_iff hlevel
    intro f _ _
    unfold declaredCount
    rw [helt]
    simp
  | some e =>
    obtain ⟨f, length⟩ := e
    dsimp only
    by_cases hrefs : f.layout.isOrContainsRefs = true
    · rw [if_pos hrefs, if_pos hrefs]
      exact elements_exact_iff hlevel helt
    · rw [if_neg hrefs, if_neg hrefs]
      apply parts_exact_iff hlevel
      intro g hg hsl
      unfold declaredCount
      rw [helt]
      have hne : f.key ≠ g.key := by
        intro hkey
        obtain rfl := eq_of_key_eq (mem_declared_of_element helt).1 hg hkey
        exact hsl (walk_eq_nil_of_no_refs (fun _ => isObjectRef_ref) (eq_false_of_ne_true hrefs))
      simp [hne]

end

variable (M)

def slotsOf (isStatic : Bool) : LayoutManager → List Nat
  | .field m => M.fieldSlots isStatic m.fields
  | l => M.slots l

def Exact (isStatic : Bool) (l : LayoutManager) : Prop :=
  ∀ o, o ∈ l.marks ↔ o ∈ M.slotsOf isStatic l

variable {M}

lemma slotsOf_false (l : LayoutManager) : M.slotsOf false l = M.slots l := by
  cases l with
  | field m => exact (slots_field m).symm
  | scalar s => rfl
  | array element length => rfl

lemma exact_array {element : LayoutManager} (h : M.Exact false element) :
    M.Exact false (.array element length) := by
  intro o
  rw [slotsOf_false, slots, mem_walk_array, marks]
  split
  · simp only [mem_flatMap, mem_range, mem_map, h _, slotsOf_false, eq_comm]
    rfl
  · rename_i hrefs
    have hnil : walk isObjectRef M.repetitions element = [] :=
      walk_eq_nil_of_no_refs (fun _ => isObjectRef_ref) (eq_false_of_ne_true hrefs)
    simp [hnil]

lemma exact_parts (hflds : ∀ f ∈ level.fields, M.Exact false f.2.2)
    (hbase : ∀ base, level.base = some base → M.Exact false (.field base)) :
    ∀ p ∈ level.parts, ∀ s, s ∈ p.2.marks ↔ s ∈ M.slots p.2 := by
  intro p hp s
  rw [← slotsOf_false]
  rcases mem_append.mp hp with hp | hp
  · obtain ⟨q, hq, rfl⟩ := mem_map.mp hp
    obtain ⟨f, hf, hlay, -⟩ := layout_of_mem_places hq
    rw [hlay]
    exact hflds f hf s
  · obtain ⟨base, hb, rfl⟩ := mem_map.mp hp
    exact hbase base (Option.mem_toList.mp hb) s

lemma Made.exact {isStatic : Bool} {l : LayoutManager} (h : M.Made M.Describes isStatic l) :
    M.Exact isStatic l := by
  induction h with
  | scalar s => exact fun o => Iff.rfl
  | array length _ ih => exact exact_array ih
  | field hlevel hP _ _ hfin ihfields ihbase =>
    exact (finish_exact_iff hlevel (exact_parts ihfields ihbase) hfin).mpr hP

/-- Every layout the factory answers with is put together from levels at each of which, its parts
being exact, the descriptor is exact if and only if the level loses and adds no references; so a
layout all of whose levels do so is exact. -/
theorem answer_exact_iff {c c' : LayoutCaches} (hc : M.ReachableLayouts c) {fuel : Nat}
    {r : LayoutRequest} {l : LayoutManager} (h : M.answer fuel r c = some (.ok l, c')) :
    M.Made (fun level => (∀ f ∈ level.fields, M.Exact false f.2.2) →
        (∀ base, level.base = some base → M.Exact false (.field base)) →
        ∀ m, M.finish level = some (.ok m) →
          (M.Exact level.isStatic (.field m) ↔ M.Describes level)) r.isStatic l ∧
      (M.Made M.Describes r.isStatic l → M.Exact r.isStatic l) := by
  refine ⟨?_, Made.exact⟩
  apply Made.mono _ (made_of_request hc h)
  intro level hlevel _ hflds hbase m hm
  exact finish_exact_iff hlevel (exact_parts hflds hbase) hm

def objectType : MemberType := .node (.primitive .object) []

def longType : MemberType := .node (.primitive .int64) []

/-- An inline array of references with a static reference and a static number. -/
def bufferLoader : LayoutLoader where
  definition _ := ⟨⟨none, "Buffer"⟩, [], [], none⟩
  locateType res _ := .ok ⟨res, 0⟩
  corlibWkt _ := .ok ⟨⟨none⟩, 0⟩
  canonicalTypeName name := name
  userTypeName _ _ := ""
  constraintsHold _ := .ok ()
  height _ := 0
  acyclic := nofun
  fields _ := [⟨"element", objectType, false, false, false, none⟩,
    ⟨"cache", objectType, false, true, false, none⟩,
    ⟨"count", longType, false, true, false, none⟩]
  layout _ := .automatic
  attributes _ := [⟨some "System.Runtime.CompilerServices.InlineArrayAttribute", some 2⟩]
  supportSlotIdForField _ _ := none

def bufferType : TypeDescription := ⟨⟨some 0⟩, 0⟩

/-- Its instance fields: one reference, repeated. -/
def bufferLevel : ClassLevel :=
  ⟨bufferType, false, [("element", none, .scalar .objectRef)], .automatic, none⟩

lemma describes_bufferLevel : bufferLoader.Describes bufferLevel := by
  have hcover : bufferLoader.ElementsCover bufferLevel
      ⟨⟨bufferType, "element"⟩, 0, .scalar .objectRef⟩ 2 := by
    refine ⟨fun g hg hne => ?_, nofun, nofun⟩
    obtain rfl := mem_singleton.mp (show g ∈ [_] from hg)
    exact absurd rfl hne
  exact hcover

/-- The descriptor of its instances is exact. -/
theorem buffer_instances_exact :
    ∃ l c', bufferLoader.answer 3 (.instanceFields bufferType default) .empty = some (.ok l, c') ∧
      l.marks = [0, 8] ∧ bufferLoader.Made bufferLoader.Describes false l ∧
      bufferLoader.Exact false l := by
  obtain ⟨m, hmarks, hfin, c', h⟩ : ∃ m, marks (.field m) = [0, 8] ∧
      bufferLoader.finish bufferLevel = some (.ok m) ∧
      ∃ c', bufferLoader.answer 3 (.instanceFields bufferType default) .empty =
        some (.ok (.field m), c') := ⟨_, rfl, rfl, _, rfl⟩
  have hlevel : bufferLevel.Wellformed := ⟨nodup_nil, nofun, nofun⟩
  have hfields : ∀ f ∈ bufferLevel.fields,
      bufferLoader.Made bufferLoader.Describes false f.2.2 := by
    intro f hf
    obtain rfl := mem_singleton.mp hf
    exact .scalar .objectRef
  have hmade : bufferLoader.Made bufferLoader.Describes false (.field m) :=
    Made.field hlevel describes_bufferLevel hfields nofun hfin
  exact ⟨_, _, h, hmarks, hmade, (answer_exact_iff Runs.Run.refl h).2 hmade⟩

/-- The first static field is repeated as well, and the static number is taken for a reference. -/
theorem buffer_static_count_marked :
    ∃ l c', bufferLoader.answer 3 (.staticFields bufferType default) .empty = some (.ok l, c') ∧
      8 ∈ l.marks ∧ 8 ∉ bufferLoader.slotsOf true l := by
  have h : bufferLoader.answer 3 (.staticFields bufferType default) .empty = some (.ok _, _) := rfl
  exact ⟨_, _, h, by decide, by decide⟩

end LayoutLoader

end DotnetVm
