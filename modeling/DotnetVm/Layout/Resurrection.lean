import DotnetVm.Layout.Descriptor

/-!
# Tracing and resurrection

The collector visits the references of a value in two ways. Tracing reads the
descriptor of a field layout and looks for managed pointers only where the layout
says there are some; resurrection follows the field map. The two reach the same
references when the field map holds every reference the descriptor marks. An inline
array does not satisfy this: its map has one field, its descriptor has all
elements.
-/

namespace DotnetVm

open ClassLevel LayoutManager List

/-- The rest of a buffer from some byte on. -/
structure Slice where
  start : Nat
  bytes : List UInt8

/-- A reference that a walk hands to the collector: what it is, where it is, and its bytes. -/
structure Reached where
  scalar : Scalar
  offset : Nat
  encoding : List UInt8
  deriving DecidableEq

namespace Slice

def dropTo (s : Slice) (n : Nat) : Option Slice :=
  if n ≤ s.bytes.length then some ⟨s.start + n, s.bytes.drop n⟩ else none

/-- The reference at an offset of a slice. -/
def reached (s : Slice) (scalar : Scalar) (o : Nat) : Reached :=
  ⟨scalar, s.start + o, (s.bytes.drop o).take scalar.size⟩

/-- Read a reference at the start of a slice. -/
def read (s : Slice) (scalar : Scalar) : Option (List Reached) :=
  if scalar.size ≤ s.bytes.length then some [s.reached scalar 0] else none

end Slice

/-- One walk after the other; a panic ends both. -/
def andThen {β : Type} : Option (List β) → Option (List β) → Option (List β)
  | some bs, some rest => some (bs ++ rest)
  | _, _ => none

/-- The results of several walks together. -/
def gather {α β : Type} (f : α → Option (List β)) : List α → Option (List β)
  | [] => some []
  | a :: as => andThen (f a) (gather f as)

namespace LayoutManager

mutual
/-- `visit_managed_ptrs`: the offsets visited. -/
def visitManagedPtrs : LayoutManager → Nat → List Nat
  | .scalar s, offset => if s = .managedPtr then [offset] else []
  | .array element length, offset =>
    (List.range length).flatMap fun i => visitManagedPtrs element (offset + element.size * i)
  | .field ⟨fields, _, _, _, _⟩, offset => visitManagedPtrsOf fields offset

def visitManagedPtrsOf : List (Placed LayoutManager) → Nat → List Nat
  | [], _ => []
  | ⟨_, position, layout⟩ :: fields, offset =>
    visitManagedPtrs layout (offset + position) ++ visitManagedPtrsOf fields offset
end

end LayoutManager

def GcDesc.trace (d : GcDesc) (s : Slice) : List Reached :=
  (d.offsets.filter fun o => decide (o + objectRefSize ≤ s.bytes.length)).map (s.reached .objectRef)

def FieldLayouts.trace (m : FieldLayoutManager) (s : Slice) : List Reached :=
  m.gcDesc.trace s ++
    if m.hasRefFields then
      ((visitManagedPtrs (.field m) 0).filter
        fun o => decide (o + managedPtrSize ≤ s.bytes.length)).map (s.reached .managedPtr)
    else []

namespace LayoutManager

def trace : LayoutManager → Slice → Option (List Reached)
  | .scalar .objectRef, s => s.read .objectRef
  | .scalar .managedPtr, s => s.read .managedPtr
  | .scalar _, _ => some []
  | .field m, s => some (m.trace s)
  | .array element length, s =>
    gather (fun i => (s.dropTo (element.size * i)).bind (trace element)) (List.range length)

mutual
def resurrect : LayoutManager → Slice → Option (List Reached)
  | .scalar .objectRef, s => s.read .objectRef
  | .scalar .managedPtr, s => s.read .managedPtr
  | .scalar _, _ => some []
  | .field ⟨fields, _, _, _, _⟩, s => resurrectFields fields s
  | .array element length, s =>
    gather (fun i => (s.dropTo (element.size * i)).bind (resurrect element)) (List.range length)

def resurrectFields : List (Placed LayoutManager) → Slice → Option (List Reached)
  | [], _ => some []
  | ⟨_, position, layout⟩ :: fields, s =>
    andThen ((s.dropTo position).bind (resurrect layout)) (resurrectFields fields s)
end

def isManagedPtr (s : Scalar) : Bool := decide (s = .managedPtr)

def offsetsOf (isSlot : Scalar → Bool) : LayoutManager → List Nat := walk isSlot fun _ _ => 1

/-- Is there room for every reference the field map leads to? -/
inductive Fits : LayoutManager → Nat → Prop
  | reference {s : Scalar} {room : Nat} (h : s.size ≤ room) : Fits (.scalar s) room
  | other {s : Scalar} {room : Nat} (h : s ≠ .objectRef) (h' : s ≠ .managedPtr) :
      Fits (.scalar s) room
  | array {element : LayoutManager} {length room : Nat}
      (hstart : ∀ i < length, element.size * i ≤ room)
      (h : ∀ i < length, Fits element (room - element.size * i)) : Fits (.array element length) room
  | field {m : FieldLayoutManager} {room : Nat} (hstart : ∀ f ∈ m.fields, f.position ≤ room)
      (h : ∀ f ∈ m.fields, Fits f.layout (room - f.position)) : Fits (.field m) room

variable {isSlot : Scalar → Bool}

lemma mem_offsetsOf_field {m : FieldLayoutManager} {o : Nat} : o ∈ offsetsOf isSlot (.field m) ↔
      ∃ f ∈ m.fields, ∃ s ∈ offsetsOf isSlot f.layout, o = f.position + s := by
  rw [offsetsOf, walk_field, mem_walkFields]
  simp

lemma mem_offsetsOf_array {element : LayoutManager} {length o : Nat} :
    o ∈ offsetsOf isSlot (.array element length) ↔
      ∃ i < length, ∃ s ∈ offsetsOf isSlot element, o = element.size * i + s := mem_walk_array

lemma Fits.mono {l : LayoutManager} {room room' : Nat} (h : l.Fits room) (hle : room ≤ room') :
    l.Fits room' := by
  induction l generalizing room room' with
  | scalar s =>
    cases h with
    | reference h => exact .reference (le_trans h hle)
    | other h h' => exact .other h h'
  | array element length ih =>
    cases h with
    | array hbeg h =>
      exact .array (fun i hi => le_trans (hbeg i hi) hle)
        fun i hi => ih (h i hi) (Nat.sub_le_sub_right hle _)
  | field m ih =>
    cases h with
    | field hbeg h =>
      exact .field (fun f hf => le_trans (hbeg f hf) hle)
        fun f hf => ih f hf (h f hf) (Nat.sub_le_sub_right hle _)

lemma Fits.le {l : LayoutManager} {room : Nat} (h : l.Fits room) {s : Scalar}
    (hs : s = .objectRef ∨ s = .managedPtr) {o : Nat}
    (ho : o ∈ offsetsOf (fun x => decide (x = s)) l) : o + s.size ≤ room := by
  induction l generalizing room o with
  | scalar x =>
    by_cases hx : x = s
    · subst hx
      have hz : o = 0 := by simpa [offsetsOf, walk] using ho
      cases h with
      | reference h => omega
      | other h h' => rcases hs with rfl | rfl <;> contradiction
    · simp [offsetsOf, walk, hx] at ho
  | array element length ih =>
    cases h with
    | array hbeg h =>
      obtain ⟨i, hi, x, hx, rfl⟩ := mem_offsetsOf_array.mp ho
      have hle := ih (h i hi) hx
      have hroom := hbeg i hi
      omega
  | field m ih =>
    cases h with
    | field hbeg h =>
      obtain ⟨f, hf, x, hx, rfl⟩ := mem_offsetsOf_field.mp ho
      have hle := ih f hf (h f hf) hx
      have hroom := hbeg f hf
      omega

end LayoutManager

section gather

variable {α β : Type} {f : α → Option (List β)} {as : List α}

lemma gather_eq_some {bs : List β} (h : gather f as = some bs) : ∀ a ∈ as, ∃ b, f a = some b := by
  induction as generalizing bs with
  | nil => exact fun a ha => absurd ha not_mem_nil
  | cons a as ih =>
    rw [gather] at h
    cases hfst : f a with
    | none => simp [hfst, andThen] at h
    | some b =>
      cases hrest : gather f as with
      | none => simp [hrest, andThen] at h
      | some rest =>
        intro a' ha'
        rcases mem_cons.mp ha' with rfl | ha'
        · exact ⟨b, hfst⟩
        · exact ih hrest a' ha'

lemma gather_of_forall {r : β → α → Prop} (h : ∀ a ∈ as, ∃ b, f a = some b ∧ ∀ x, x ∈ b ↔ r x a) :
    ∃ bs, gather f as = some bs ∧ ∀ x, x ∈ bs ↔ ∃ a ∈ as, r x a := by
  induction as with
  | nil => exact ⟨[], rfl, by simp⟩
  | cons a as ih =>
    obtain ⟨b, hb, hx⟩ := h a mem_cons_self
    obtain ⟨bs, hbs, hxs⟩ := ih fun a' ha' => h a' (mem_cons_of_mem a ha')
    refine ⟨b ++ bs, by rw [gather, hb, hbs, andThen], fun x => ?_⟩
    rw [mem_append, hx, hxs, exists_mem_cons_iff]

end gather

namespace Slice

variable {s : Slice}

lemma dropTo_eq_some {t : Slice} {n : Nat} (h : s.dropTo n = some t) :
    n ≤ s.bytes.length ∧ t.bytes.length = s.bytes.length - n ∧
      ∀ scalar o, t.reached scalar o = s.reached scalar (n + o) := by
  unfold dropTo at h
  split at h
  · cases h
    refine ⟨by assumption, by simp, fun scalar o => ?_⟩
    simp [reached, add_assoc]
  · nomatch h

lemma dropTo_of_le {n : Nat} (h : n ≤ s.bytes.length) : ∃ t, s.dropTo n = some t :=
  ⟨_, if_pos h⟩

/-- What a walk along the field map reaches. -/
def Reaches (s : Slice) (l : LayoutManager) (x : Reached) : Prop :=
  (∃ o ∈ offsetsOf isObjectRef l, x = s.reached .objectRef o) ∨
    ∃ o ∈ offsetsOf isManagedPtr l, x = s.reached .managedPtr o

/-- What the walks through `l` reach from the offset `n` on. -/
def ReachesFrom (s : Slice) (n : Nat) (l : LayoutManager) (x : Reached) : Prop :=
  (∃ o ∈ offsetsOf isObjectRef l, x = s.reached .objectRef (n + o)) ∨
    ∃ o ∈ offsetsOf isManagedPtr l, x = s.reached .managedPtr (n + o)

variable {x : Reached}

lemma reaches_parts {α : Type} {l : LayoutManager} {parts : List α} {start : α → Nat}
    {part : α → LayoutManager} (h : ∀ isSlot o, o ∈ offsetsOf isSlot l ↔
      ∃ a ∈ parts, ∃ r ∈ offsetsOf isSlot (part a), o = start a + r) :
    s.Reaches l x ↔ ∃ a ∈ parts, s.ReachesFrom (start a) (part a) x := by
  simp only [Reaches, h]
  constructor
  · rintro (⟨_, ⟨a, ha, o, ho, rfl⟩, rfl⟩ | ⟨_, ⟨a, ha, o, ho, rfl⟩, rfl⟩)
    · exact ⟨a, ha, .inl ⟨o, ho, rfl⟩⟩
    · exact ⟨a, ha, .inr ⟨o, ho, rfl⟩⟩
  · rintro ⟨a, ha, ⟨o, ho, rfl⟩ | ⟨o, ho, rfl⟩⟩
    · exact .inl ⟨_, ⟨a, ha, o, ho, rfl⟩, rfl⟩
    · exact .inr ⟨_, ⟨a, ha, o, ho, rfl⟩, rfl⟩

lemma reaches_field {m : FieldLayoutManager} :
    s.Reaches (.field m) x ↔ ∃ f ∈ m.fields, s.ReachesFrom f.position f.layout x :=
  reaches_parts fun _ _ => mem_offsetsOf_field

lemma reaches_array {element : LayoutManager} {length : Nat} :
    s.Reaches (.array element length) x ↔
      ∃ i ∈ List.range length, s.ReachesFrom (element.size * i) element x :=
  reaches_parts fun _ _ => by simp [mem_offsetsOf_array]

end Slice

namespace LayoutManager

lemma resurrectFields_eq (fields : List (Placed LayoutManager)) (s : Slice) :
    resurrectFields fields s =
      gather (fun f => (s.dropTo f.position).bind (resurrect f.layout)) fields := by
  induction fields with
  | nil => rfl
  | cons f fields ih => rw [resurrectFields, gather, ih]

lemma resurrect_field (m : FieldLayoutManager) (s : Slice) : resurrect (.field m) s =
      gather (fun f => (s.dropTo f.position).bind (resurrect f.layout)) m.fields := by
  rw [resurrect, resurrectFields_eq]

variable {l : LayoutManager} {s : Slice}

lemma resurrect_dropTo {n : Nat} (hbeg : n ≤ s.bytes.length)
    (h : l.Fits (s.bytes.length - n)) (ih : ∀ {t : Slice}, l.Fits t.bytes.length →
      ∃ b, l.resurrect t = some b ∧ ∀ x, x ∈ b ↔ t.Reaches l x) :
    ∃ b, (s.dropTo n).bind l.resurrect = some b ∧ ∀ x, x ∈ b ↔ s.ReachesFrom n l x := by
  obtain ⟨t, ht⟩ := s.dropTo_of_le hbeg
  obtain ⟨-, hlen, hrch⟩ := Slice.dropTo_eq_some ht
  obtain ⟨b, hb, hx⟩ := ih (hlen ▸ h)
  refine ⟨b, by rw [ht, Option.bind_some, hb], fun x => ?_⟩
  simp only [hx, Slice.Reaches, Slice.ReachesFrom, hrch]

lemma resurrect_of_fits (h : l.Fits s.bytes.length) :
    ∃ b, l.resurrect s = some b ∧ ∀ x, x ∈ b ↔ s.Reaches l x := by
  induction l generalizing s with
  | scalar c =>
    have hread (c : Scalar) (hc : c.size ≤ s.bytes.length) :
        s.read c = some [s.reached c 0] := if_pos hc
    cases h with
    | reference h =>
      cases c <;> simp [resurrect, Slice.Reaches, offsetsOf, walk, isObjectRef,
        isManagedPtr, hread _ h]
    | other h h' =>
      cases c <;> simp [resurrect, Slice.Reaches, offsetsOf, walk, isObjectRef,
        isManagedPtr] at h h' ⊢
  | array element length ih =>
    cases h with
    | array hbeg h =>
      simp only [Slice.reaches_array]
      refine gather_of_forall fun i hi => ?_
      rw [mem_range] at hi
      exact resurrect_dropTo (hbeg i hi) (h i hi) ih
  | field m ih =>
    cases h with
    | field hbeg h =>
      rw [resurrect_field]
      simp only [Slice.reaches_field]
      exact gather_of_forall fun f hf => resurrect_dropTo (hbeg f hf) (h f hf) (ih f hf)

lemma fits_dropTo {n : Nat}
    (ih : ∀ {t : Slice} {b : List Reached}, l.resurrect t = some b → l.Fits t.bytes.length)
    (h : ∃ b, (s.dropTo n).bind l.resurrect = some b) :
    n ≤ s.bytes.length ∧ l.Fits (s.bytes.length - n) := by
  obtain ⟨b, hb⟩ := h
  obtain ⟨t, ht, hb⟩ := Option.bind_eq_some_iff.mp hb
  obtain ⟨hle, hlen, -⟩ := Slice.dropTo_eq_some ht
  exact ⟨hle, hlen ▸ ih hb⟩

/-- Resurrection panics if there is no room. -/
lemma fits_of_resurrect {b : List Reached}
    (h : l.resurrect s = some b) : l.Fits s.bytes.length := by
  induction l generalizing s b with
  | scalar c =>
    have hread (c : Scalar) (hc : s.read c = some b) : c.size ≤ s.bytes.length := by
      unfold Slice.read at hc
      split at hc
      · assumption
      · nomatch hc
    cases c with
    | objectRef => exact .reference (hread .objectRef h)
    | managedPtr => exact .reference (hread .managedPtr h)
    | int8 | uInt8 | int16 | uInt16 | int32 | int64 | nativeInt | float32 | float64 =>
      exact .other nofun nofun
  | array element length ih =>
    have hall (i : Nat) (hi : i < length) :=
      fits_dropTo ih (gather_eq_some h i (mem_range.mpr hi))
    exact .array (fun i hi => (hall i hi).1) fun i hi => (hall i hi).2
  | field m ih =>
    rw [resurrect_field] at h
    have hall f (hf : f ∈ m.fields) := fits_dropTo (ih f hf) (gather_eq_some h f hf)
    exact .field (fun f hf => (hall f hf).1) fun f hf => (hall f hf).2

end LayoutManager

lemma mem_visitManagedPtrs {l : LayoutManager} {offset o : Nat} :
    o ∈ visitManagedPtrs l offset ↔ ∃ x ∈ offsetsOf isManagedPtr l, o = offset + x := by
  induction l generalizing offset o with
  | scalar s => by_cases hs : s = .managedPtr <;> simp
    [visitManagedPtrs, offsetsOf, walk, isManagedPtr]
  | array element length ih =>
    simp only [visitManagedPtrs, mem_flatMap, mem_range, ih, mem_offsetsOf_array]
    constructor
    · rintro ⟨i, hi, x, hx, rfl⟩
      exact ⟨_, ⟨i, hi, x, hx, rfl⟩, add_assoc ..⟩
    · rintro ⟨_, ⟨i, hi, x, hx, rfl⟩, rfl⟩
      exact ⟨i, hi, x, hx, (add_assoc ..).symm⟩
  | field m ih =>
    have hflds (fields : List (Placed LayoutManager)) (h : ∀ f ∈ fields, f ∈ m.fields) :
        o ∈ visitManagedPtrsOf fields offset ↔
          ∃ f ∈ fields, ∃ x ∈ offsetsOf isManagedPtr f.layout, o = offset + f.position + x := by
      induction fields with
      | nil => simp [visitManagedPtrsOf]
      | cons f fields ihfields =>
        rw [visitManagedPtrsOf, mem_append, ih f (h f mem_cons_self),
          ihfields fun g hg => h g (mem_cons_of_mem f hg), exists_mem_cons_iff]
    have hm : visitManagedPtrs (.field m) offset = visitManagedPtrsOf m.fields offset := by
      rw [visitManagedPtrs]
    rw [hm, hflds m.fields fun f hf => hf]
    simp only [mem_offsetsOf_field]
    constructor
    · rintro ⟨f, hf, x, hx, rfl⟩
      exact ⟨_, ⟨f, hf, x, hx, rfl⟩, add_assoc ..⟩
    · rintro ⟨_, ⟨f, hf, x, hx, rfl⟩, rfl⟩
      exact ⟨f, hf, x, hx, (add_assoc ..).symm⟩

variable {m : FieldLayoutManager}

lemma mem_trace {s : Slice} {x : Reached} : x ∈ m.trace s ↔
      (∃ o ∈ m.gcDesc.offsets, o + objectRefSize ≤ s.bytes.length ∧ x = s.reached .objectRef o) ∨
        m.hasRefFields = true ∧ ∃ o ∈ offsetsOf isManagedPtr (.field m),
          o + managedPtrSize ≤ s.bytes.length ∧ x = s.reached .managedPtr o := by
  rw [FieldLayouts.trace, mem_append, GcDesc.trace]
  apply or_congr
  · simp [and_assoc, eq_comm]
  · cases m.hasRefFields with
    | false => simp
    | true =>
      simp [mem_visitManagedPtrs, and_assoc, eq_comm]

/-- Tracing and resurrection reach the same references of every value that lies in a buffer. -/
def Agree (l : LayoutManager) : Prop :=
  ∀ s : Slice, l.size ≤ s.bytes.length →
    ∃ a b, l.trace s = some a ∧ l.resurrect s = some b ∧ ∀ x, x ∈ a ↔ x ∈ b

/-- A layout that knows of its managed pointers. -/
def KnowsManagedPtrs (l : LayoutManager) : Prop :=
  offsetsOf isManagedPtr l ≠ [] → l.hasManagedPtrs = true

lemma Slice.reached_inj {s : Slice} {c c' : Scalar} {o o' : Nat}
    (h : s.reached c o = s.reached c' o') : c = c' ∧ o = o' :=
  ⟨congrArg Reached.scalar h, Nat.add_left_cancel (congrArg Reached.offset h)⟩

lemma agree_field_iff (hkn : KnowsManagedPtrs (.field m)) :
    Agree (.field m) ↔ Fits (.field m) m.totalSize ∧
      ∀ o, o ∈ m.gcDesc.offsets ↔ o ∈ offsetsOf isObjectRef (.field m) := by
  constructor
  · intro hagree
    have hbuffer (n : Nat) (hn : m.totalSize ≤ n) : ∃ b,
        resurrect (.field m) ⟨0, List.replicate n 0⟩ = some b ∧
          ∀ x, x ∈ m.trace ⟨0, List.replicate n 0⟩ ↔ x ∈ b := by
      obtain ⟨a, b, ha, hb, hab⟩ := hagree ⟨0, List.replicate n 0⟩ (by simpa [size] using hn)
      cases ha
      exact ⟨b, hb, hab⟩
    have hfits : Fits (.field m) m.totalSize := by
      obtain ⟨b, hb, -⟩ := hbuffer m.totalSize (le_refl _)
      simpa using fits_of_resurrect hb
    refine ⟨hfits, fun o => ?_⟩
    -- a buffer in which the reference at `o` has room
    have hroom := hfits.mono (Nat.le_add_right m.totalSize (o + objectRefSize))
    obtain ⟨b, hb, hab⟩ := hbuffer (m.totalSize + (o + objectRefSize)) (Nat.le_add_right ..)
    obtain ⟨b', hb', hx⟩ := resurrect_of_fits (s := ⟨0, List.replicate _ 0⟩) (by simpa using hroom)
    rw [hb] at hb'
    cases hb'
    constructor
    · intro ho
      have hrch := (hx _).mp ((hab _).mp (mem_trace.mpr (.inl ⟨o, ho, by simp, rfl⟩)))
      rcases hrch with ⟨o', ho', heq⟩ | ⟨o', -, heq⟩
      · rw [(Slice.reached_inj heq).2]
        exact ho'
      · nomatch (Slice.reached_inj heq).1
    · intro ho
      have hrch := (hab _).mpr ((hx _).mpr (.inl ⟨o, ho, rfl⟩))
      rcases mem_trace.mp hrch with ⟨o', ho', -, heq⟩ | ⟨-, o', -, -, heq⟩
      · rw [(Slice.reached_inj heq).2]
        exact ho'
      · nomatch (Slice.reached_inj heq).1
  · rintro ⟨hfits, hmarks⟩ s hs
    have hroom := hfits.mono hs
    obtain ⟨b, hb, hx⟩ := resurrect_of_fits hroom
    refine ⟨m.trace s, b, rfl, hb, fun x => ?_⟩
    rw [hx, mem_trace]
    apply or_congr
    · constructor
      · rintro ⟨o, ho, -, rfl⟩
        exact ⟨o, (hmarks o).mp ho, rfl⟩
      · rintro ⟨o, ho, rfl⟩
        exact ⟨o, (hmarks o).mpr ho, hroom.le (.inl rfl) ho, rfl⟩
    · constructor
      · rintro ⟨-, o, ho, -, rfl⟩
        exact ⟨o, ho, rfl⟩
      · rintro ⟨o, ho, rfl⟩
        exact ⟨hkn (ne_nil_of_mem ho), o, ho, hroom.le (.inr rfl) ho, rfl⟩

/-- The object references in the field map. -/
abbrev mapSlots : LayoutManager → List Nat := offsetsOf isObjectRef

lemma mem_mapSlots_field {o : Nat} :
    o ∈ mapSlots (.field m) ↔ SlotAt mapSlots (placedParts m.fields) o :=
  mem_offsetsOf_field.trans LayoutLoader.slotAt_placedParts.symm

/-- A layout whose descriptor marks what its field map holds, and whose references have room. -/
structure Faithful (l : LayoutManager) : Prop where
  marks : ∀ o, o ∈ l.marks ↔ o ∈ mapSlots l
  fits : l.Fits l.size

namespace LayoutLoader

variable {M : LayoutLoader} {level : ClassLevel} {m : FieldLayoutManager}

lemma slotAt_mapSlots_parts {o : Nat} : SlotAt mapSlots level.parts o ↔
      SlotAt mapSlots (placedParts level.places) o ∨
        SlotAt mapSlots (placedParts level.inherited) o := by
  rw [ClassLevel.parts, slotAt_append]
  apply or_congr Iff.rfl
  unfold ClassLevel.inherited
  cases level.base with
  | none => exact Iff.rfl
  | some base =>
    refine Iff.trans ?_ mem_mapSlots_field
    simp [SlotAt]

lemma slotAt_allFields {slots : LayoutManager → List Nat} {o : Nat} :
    SlotAt slots (placedParts level.allFields) o ↔
      SlotAt slots (placedParts level.declared) o ∨
        SlotAt slots (placedParts level.inherited) o := by
  rw [allFields, placedParts, map_append, slotAt_append]
  rfl

lemma hasRefFields_finish (hlevel : level.Wellformed) (h : M.finish level = some (.ok m))
    (hsome : (∃ p ∈ level.places, p.layout.hasManagedPtrs = true) ∨
      ∃ base, level.base = some base ∧ base.hasRefFields = true) : m.hasRefFields = true := by
  obtain ⟨result, hdecl, hcs⟩ := finish_cases hlevel h
  have hmerg : (mergeBase result level.base).hasRefFields = true := by
    rcases hsome with ⟨p, hp, hman⟩ | ⟨base, hbase, hrefs⟩
    · have hres : result.hasRefFields = true := by
        rw [hdecl.hasRefFields]
        exact any_eq_true.mpr ⟨p, hp, hman⟩
      cases level.base <;> simp [mergeBase, hres]
    · simp [hbase, mergeBase, hrefs]
  cases helt : M.element level with
  | none =>
    rw [helt] at hcs
    rw [hcs]
    exact hmerg
  | some e =>
    rw [helt] at hcs
    obtain ⟨hrep, hfst⟩ := hcs
    simp only [repeatFirstField, hfst] at hrep
    split at hrep
    · split at hrep
      · cases hrep
        rfl
      · cases hrep
    · cases hrep
      exact hmerg

variable {isStatic : Bool} {l : LayoutManager}

lemma Made.knows {P : ClassLevel → Prop} (h : M.Made P isStatic l) : KnowsManagedPtrs l := by
  induction h with
  | scalar s =>
    intro hne
    by_cases hs : s = .managedPtr
    · simp [hasManagedPtrs, hs]
    · simp [offsetsOf, walk, isManagedPtr, hs] at hne
  | array length _ ih =>
    intro hne
    apply ih
    intro hnil
    apply hne
    rw [eq_nil_iff_forall_not_mem]
    intro o ho
    obtain ⟨i, -, s, hs, -⟩ := mem_offsetsOf_array.mp ho
    rw [hnil] at hs
    exact absurd hs not_mem_nil
  | @field level _ hlevel _ _ _ hfin ihfields ihbase =>
    intro hne
    obtain ⟨o, ho⟩ := exists_mem_of_ne_nil _ hne
    obtain ⟨f, hf, s, hs, -⟩ := mem_offsetsOf_field.mp ho
    rw [finish_fields hlevel hfin] at hf
    apply hasRefFields_finish hlevel hfin
    rcases mem_append.mp hf with hf | hf
    · left
      have hp := mem_places_of_mem_declared hf
      obtain ⟨g, hg, hlay, -⟩ := layout_of_mem_places hp
      refine ⟨f, hp, ?_⟩
      rw [hlay] at hs ⊢
      exact ihfields g hg (ne_nil_of_mem hs)
    · right
      unfold ClassLevel.inherited at hf
      cases hbase : level.base with
      | none =>
        rw [hbase] at hf
        exact absurd hf not_mem_nil
      | some base =>
        rw [hbase] at hf
        exact ⟨base, rfl, ihbase base hbase
          (ne_nil_of_mem (mem_offsetsOf_field.mpr ⟨f, hf, s, hs, rfl⟩))⟩

variable (M level)

def ReplacedInMap : Prop :=
  ∀ p ∈ level.places, p ∉ level.declared → ∀ s ∈ mapSlots p.layout,
    SlotAt mapSlots (placedParts level.allFields) (p.position + s)

def MapComplete : Prop :=
  match M.element level with
  | none => ReplacedInMap level
  | some (f, length) =>
    (∀ m, M.finish level = some (.ok m) → Fits (.field m) m.totalSize) ∧
      if f.layout.isOrContainsRefs then
        ∀ o, SlotAt mapSlots (elements f length) o ↔ SlotAt mapSlots (placedParts level.allFields) o
      else ReplacedInMap level

variable {M level}

lemma parts_in_map_iff :
    (∀ o, SlotAt mapSlots level.parts o ↔ SlotAt mapSlots (placedParts level.allFields) o) ↔
      ReplacedInMap level := by
  constructor
  · intro h p hp _ s hs
    exact (h _).mp (slotAt_mapSlots_parts.mpr (.inl (slotAt_placedParts.mpr ⟨p, hp, s, hs, rfl⟩)))
  · intro hrep o
    rw [slotAt_mapSlots_parts, slotAt_allFields]
    constructor
    · rintro (ho | ho)
      · obtain ⟨p, hp, s, hs, rfl⟩ := slotAt_placedParts.mp ho
        by_cases hdecl : p ∈ level.declared
        · exact .inl (slotAt_placedParts.mpr ⟨p, hdecl, s, hs, rfl⟩)
        · exact slotAt_allFields.mp (hrep p hp hdecl s hs)
      · exact .inr ho
    · rintro (ho | ho)
      · obtain ⟨p, hp, s, hs, rfl⟩ := slotAt_placedParts.mp ho
        exact .inl (slotAt_placedParts.mpr
          ⟨p, mem_places_of_mem_declared hp, s, hs, rfl⟩)
      · exact .inr ho

section

variable (hlevel : level.Wellformed) (hparts : ∀ p ∈ level.parts, Faithful p.2)
include hlevel hparts

lemma fits_finish (helt : M.element level = none) (h : M.finish level = some (.ok m)) :
    Fits (.field m) m.totalSize := by
  obtain ⟨result, hdecl, hcs⟩ := finish_cases hlevel h
  rw [helt] at hcs
  have hflds := finish_fields hlevel h
  have htotal : m.totalSize = result.totalSize := by
    rw [hcs]
    cases level.base <;> rfl
  have hall : ∀ f ∈ m.fields, f.position ≤ m.totalSize ∧
      Fits f.layout (m.totalSize - f.position) := by
    intro f hf
    rw [hflds] at hf
    rcases mem_append.mp hf with hf | hf
    · have hp := mem_places_of_mem_declared hf
      have hstop : f.position + f.layout.size ≤ result.totalSize := hdecl.stop_le f hp
      have hpart := hparts (f.position, f.layout)
        (mem_append_left _ (mem_map.mpr ⟨f, hp, rfl⟩))
      exact ⟨by omega, hpart.fits.mono (by dsimp only; omega)⟩
    · unfold ClassLevel.inherited at hf
      cases hbase : level.base with
      | none =>
        rw [hbase] at hf
        exact absurd hf not_mem_nil
      | some base =>
        rw [hbase] at hf
        have hpart := hparts (0, .field base) (mem_append_right _ (by simp [hbase]))
        have hle : base.totalSize ≤ result.totalSize := by
          have hbaseSize := hdecl.base_le
          rwa [baseSize, hbase] at hbaseSize
        cases hpart.fits with
        | field hbeg hfits =>
          have hpos : f.position ≤ base.totalSize := hbeg f hf
          exact ⟨by omega, (hfits f hf).mono (by simp only [LayoutManager.size]; omega)⟩
  exact .field (fun f hf => (hall f hf).1) fun f hf => (hall f hf).2

lemma finish_agree_iff (hkn : KnowsManagedPtrs (.field m)) (h : M.finish level = some (.ok m)) :
    Agree (.field m) ↔ M.MapComplete level := by
  have hflds := finish_fields hlevel h
  rw [agree_field_iff hkn]
  simp only [mem_offsets_finish_of_parts hlevel (fun p hp => (hparts p hp).marks) h,
    mem_mapSlots_field, hflds]
  unfold described MapComplete
  cases helt : M.element level with
  | none =>
    rw [← parts_in_map_iff]
    exact and_iff_right (fits_finish hlevel hparts helt h)
  | some e =>
    obtain ⟨f, length⟩ := e
    dsimp only
    apply and_congr
    · constructor
      · intro hfits m' hm'
        rw [h] at hm'
        cases hm'
        exact hfits
      · intro hall
        exact hall m h
    · by_cases hrefs : f.layout.isOrContainsRefs = true
      · rw [if_pos hrefs, if_pos hrefs]
      · rw [if_neg hrefs, if_neg hrefs]
        exact parts_in_map_iff

end

lemma faithful_parts (hflds : ∀ f ∈ level.fields, Faithful f.2.2)
    (hbase : ∀ base, level.base = some base → Faithful (.field base)) :
    ∀ p ∈ level.parts, Faithful p.2 := by
  intro p hp
  rcases mem_append.mp hp with hp | hp
  · obtain ⟨q, hq, rfl⟩ := mem_map.mp hp
    obtain ⟨f, hf, hlay, -⟩ := layout_of_mem_places hq
    rw [hlay]
    exact hflds f hf
  · obtain ⟨base, hb, rfl⟩ := mem_map.mp hp
    exact hbase base (Option.mem_toList.mp hb)

variable {element : LayoutManager}

lemma faithful_array (length : Nat) (h : Faithful element) : Faithful (.array element length) := by
  constructor
  · intro o
    rw [mem_offsetsOf_array, marks]
    split
    · simp [h.marks, eq_comm]
    · rename_i hrefs
      have hnil : offsetsOf isObjectRef element = [] :=
        walk_eq_nil_of_no_refs (fun _ => isObjectRef_ref) (eq_false_of_ne_true hrefs)
      simp [hnil]
  · have hroom (i : Nat) (hi : i < length) :
        element.size * i + element.size ≤ element.size * length :=
      Nat.mul_succ element.size i ▸ Nat.mul_le_mul_left element.size hi
    refine .array (fun i hi => ?_) fun i hi => h.fits.mono ?_
    · exact le_trans (Nat.le_add_right ..) (hroom i hi)
    · have hle := hroom i hi
      simp only [LayoutManager.size]
      omega

lemma Made.faithful (h : M.Made M.MapComplete isStatic l) : Faithful l := by
  induction h with
  | scalar s =>
    refine ⟨fun o => Iff.rfl, ?_⟩
    by_cases hs : s = .objectRef ∨ s = .managedPtr
    · exact .reference (le_refl _)
    · exact .other (fun h => hs (.inl h)) fun h => hs (.inr h)
  | array length _ ih => exact faithful_array length ih
  | field hlevel hP hflds hbase hfin ihfields ihbase =>
    have hkn := (Made.field hlevel hP hflds hbase hfin).knows
    obtain ⟨hfits, hmarks⟩ := (agree_field_iff hkn).mp
      ((finish_agree_iff hlevel (faithful_parts ihfields ihbase) hkn hfin).mpr hP)
    exact ⟨hmarks, hfits⟩

lemma agree_array {length : Nat} (h : Agree element) : Agree (.array element length) := by
  intro s hs
  have helt (i : Nat) (hi : i ∈ List.range length) : ∃ t a b,
      s.dropTo (element.size * i) = some t ∧ element.trace t = some a ∧
        element.resurrect t = some b ∧ ∀ x, x ∈ a ↔ x ∈ b := by
    have hroom : element.size * i + element.size ≤ element.size * length :=
      Nat.mul_succ element.size i ▸ Nat.mul_le_mul_left element.size (mem_range.mp hi)
    have hs : element.size * length ≤ s.bytes.length := hs
    obtain ⟨t, ht⟩ := s.dropTo_of_le (n := element.size * i) (by omega)
    have hlen := (Slice.dropTo_eq_some ht).2.1
    obtain ⟨a, b, ha, hb, hab⟩ := h t (by omega)
    exact ⟨t, a, b, ht, ha, hb, hab⟩
  let r : Reached → Nat → Prop := fun x i => ∃ t b, s.dropTo (element.size * i) = some t ∧
    element.resurrect t = some b ∧ x ∈ b
  have htrace : ∃ a, trace (.array element length) s = some a ∧
      ∀ x, x ∈ a ↔ ∃ i ∈ List.range length, r x i := by
    apply gather_of_forall
    intro i hi
    obtain ⟨t, a, b, ht, ha, hb, hab⟩ := helt i hi
    refine ⟨a, by rw [ht, Option.bind_some, ha], fun x => (hab x).trans ?_⟩
    simp [r, ht, hb]
  have hres : ∃ b, resurrect (.array element length) s = some b ∧
      ∀ x, x ∈ b ↔ ∃ i ∈ List.range length, r x i := by
    apply gather_of_forall
    intro i hi
    obtain ⟨t, a, b, ht, ha, hb, hab⟩ := helt i hi
    refine ⟨b, by rw [ht, Option.bind_some, hb], fun x => ?_⟩
    simp [r, ht, hb]
  obtain ⟨a, ha, hxa⟩ := htrace
  obtain ⟨b, hb, hxb⟩ := hres
  exact ⟨a, b, ha, hb, fun x => (hxa x).trans (hxb x).symm⟩

lemma Made.agree (h : M.Made M.MapComplete isStatic l) : Agree l := by
  induction h with
  | scalar c =>
    intro s hs
    have hfits : Fits (.scalar c) s.bytes.length :=
      ((Made.scalar (M := M) c).faithful.fits).mono hs
    obtain ⟨b, hb, -⟩ := resurrect_of_fits hfits
    exact ⟨b, b, by cases c <;> exact hb, hb, fun x => Iff.rfl⟩
  | array length _ ih => exact agree_array ih
  | field hlevel hP hflds hbase hfin _ _ =>
    have hkn := (Made.field hlevel hP hflds hbase hfin).knows
    exact (finish_agree_iff hlevel (faithful_parts (fun f hf => (hflds f hf).faithful)
      fun base hb => (hbase base hb).faithful) hkn hfin).mpr hP

/-- Every layout the factory answers with is put together from levels at each of which, its parts
coming from levels with complete maps, tracing and resurrection agree if and only if its map is
complete; on a layout all of whose levels have complete maps they agree. -/
theorem answer_agree_iff {c c' : LayoutCaches} (hc : M.ReachableLayouts c) {fuel : Nat}
    {r : LayoutRequest} {l : LayoutManager} (h : M.answer fuel r c = some (.ok l, c')) :
    M.Made (fun level => (∀ f ∈ level.fields, M.Made M.MapComplete false f.2.2) →
        (∀ base, level.base = some base → M.Made M.MapComplete false (.field base)) →
        ∀ m, M.finish level = some (.ok m) → (Agree (.field m) ↔ M.MapComplete level))
          r.isStatic l ∧
      (M.Made M.MapComplete r.isStatic l → Agree l) := by
  refine ⟨?_, Made.agree⟩
  apply Made.mono _ (made_of_request hc h)
  intro level hlevel _ hflds hbase m hm
  have hparts := faithful_parts (fun f hf => (hflds f hf).faithful)
    fun base hb => (hbase base hb).faithful
  have hmade : M.Made (fun _ => True) level.isStatic (.field m) :=
    .field hlevel trivial (fun f hf => (hflds f hf).mono fun _ _ _ => trivial)
      (fun base hb => (hbase base hb).mono fun _ _ _ => trivial) hm
  exact finish_agree_iff hlevel hparts hmade.knows hm

/-- The same type without the attribute. -/
def recordLoader : LayoutLoader := { bufferLoader with attributes := fun _ => [] }

/-- Its static fields, a reference and a number. -/
def recordLevel : ClassLevel :=
  ⟨bufferType, true, [("cache", none, .scalar .objectRef), ("count", none, .scalar .int64)],
    .automatic, none⟩

lemma mapComplete_recordLevel : recordLoader.MapComplete recordLevel := by
  have hkept : ReplacedInMap recordLevel := fun p hp hno => absurd hp hno
  exact hkept

/-- Both walks reach the reference. -/
theorem record_walks_agree :
    ∃ l c', recordLoader.answer 3 (.staticFields bufferType default) .empty = some (.ok l, c') ∧
      (l.trace ⟨0, List.replicate 16 0⟩).map (List.map Reached.offset) = some [0] ∧
      recordLoader.Made recordLoader.MapComplete true l ∧ Agree l := by
  obtain ⟨m, htrace, hfin, c', h⟩ : ∃ m : FieldLayoutManager,
      (trace (.field m) ⟨0, List.replicate 16 0⟩).map (List.map Reached.offset) = some [0] ∧
      recordLoader.finish recordLevel = some (.ok m) ∧
      ∃ c', recordLoader.answer 3 (.staticFields bufferType default) .empty =
        some (.ok (.field m), c') := ⟨_, rfl, rfl, _, rfl⟩
  have hlevel : recordLevel.Wellformed := ⟨nodup_nil, nofun, fun _ => rfl⟩
  have hfields : ∀ f ∈ recordLevel.fields,
      recordLoader.Made recordLoader.MapComplete false f.2.2 := by
    intro f hf
    simp only [recordLevel, mem_cons, not_mem_nil, or_false] at hf
    rcases hf with rfl | rfl
    · exact .scalar .objectRef
    · exact .scalar .int64
  have hmade : recordLoader.Made recordLoader.MapComplete true (.field m) :=
    Made.field hlevel mapComplete_recordLevel hfields nofun hfin
  exact ⟨_, _, h, htrace, hmade, (answer_agree_iff Runs.Run.refl h).2 hmade⟩

/-- All elements are traced, but only the first is resurrected. -/
theorem buffer_elements_not_resurrected :
    ∃ l c', bufferLoader.answer 3 (.instanceFields bufferType default) .empty = some (.ok l, c') ∧
      (l.trace ⟨0, List.replicate 16 0⟩).map (List.map Reached.offset) = some [0, 8] ∧
      (l.resurrect ⟨0, List.replicate 16 0⟩).map (List.map Reached.offset) = some [0] ∧
      ¬ Agree l := by
  have h : bufferLoader.answer 3 (.instanceFields bufferType default) .empty =
      some (.ok _, _) := rfl
  refine ⟨_, _, h, by decide, by decide, fun hagree => ?_⟩
  obtain ⟨a, b, ha, hb, hab⟩ := hagree ⟨0, List.replicate 16 0⟩ (by decide)
  have hsecond : 8 ∈ a.map Reached.offset := by
    rw [← Option.some.inj ha]
    decide
  obtain ⟨x, hx, hoff⟩ := mem_map.mp hsecond
  have hres : 8 ∈ b.map Reached.offset := mem_map.mpr ⟨x, (hab x).mp hx, hoff⟩
  rw [← Option.some.inj hb] at hres
  exact absurd hres (by decide)

end LayoutLoader

end DotnetVm
