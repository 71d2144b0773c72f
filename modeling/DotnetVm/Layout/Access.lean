import DotnetVm.Layout.Resurrection

/-!
# Access checks on the references of heap objects

Reads and writes of heap objects go by a layout of the value and the layout of
the object. A read is checked for the references of the value: each has to be
one of the object's, at an aligned offset. A write is checked for the references
of the object: each that is touched has to be overwritten as a whole, with a
reference of the value.

Both checks walk the field maps, in the order in which these yield their fields,
while the collector goes by the descriptors. The order is open: what is said here of
a layout holds with its fields in any order.
-/

namespace DotnetVm

open LayoutManager List Option

inductive MemoryAccessError where
  | typeMismatch (message : String)
  | unalignedAccess (offset : Nat)
  deriving DecidableEq

/-- `Scalar::ObjectRef | Scalar::ManagedPtr`. -/
def isReference (s : Scalar) : Bool := isObjectRef s || isManagedPtr s

namespace LayoutManager

mutual
/-- Whether a reference begins at the offset. Of the fields of a map, the first one that covers the
offset decides. -/
def hasRefAt : LayoutManager → Nat → Bool
  | .scalar s, offset => isReference s && decide (offset = 0)
  | .array element length, offset =>
    if element.size = 0 then false
    else if length ≤ offset / element.size then false
    else hasRefAt element (offset % element.size)
  | .field ⟨fields, _, _, _, _⟩, offset => hasRefAtFields fields offset

def hasRefAtFields : List (Placed LayoutManager) → Nat → Bool
  | [], _ => false
  | ⟨_, position, layout⟩ :: fields, offset =>
    if position ≤ offset ∧ offset < position + layout.size then hasRefAt layout (offset - position)
    else hasRefAtFields fields offset
end

mutual
def checkRefsInLayout : LayoutManager → Nat → List Nat
  | .scalar s, base => if isReference s then [base] else []
  | .array element length, base =>
    if element.isOrContainsRefs then
      (List.range length).flatMap fun i => checkRefsInLayout element (base + element.size * i)
    else []
  | .field ⟨fields, _, _, _, _⟩, base => checkRefsInFields fields base

def checkRefsInFields : List (Placed LayoutManager) → Nat → List Nat
  | [], _ => []
  | ⟨_, position, layout⟩ :: fields, base =>
    checkRefsInLayout layout (base + position) ++ checkRefsInFields fields base
end

/-- The callback of `check_read_safety`. -/
def checkReadAt (src : LayoutManager) (offset : Nat) : Except MemoryAccessError Unit :=
  if hasRefAt src offset = false then
    .error (.typeMismatch
      s!"Heap Corruption: Reading ObjectRef from non-ref memory at offset {offset}")
  else if offset % 8 ≠ 0 then .error (.unalignedAccess offset)
  else .ok ()

def checkReadSafety (result : LayoutManager) (src : Option LayoutManager) (srcPtrOffset : Nat) :
    Except MemoryAccessError Unit :=
  (checkRefsInLayout result 0).forM fun refOffset =>
    match src with
    | some src => checkReadAt src (srcPtrOffset + refOffset)
    | none => .ok ()

def validateRefAt (refStart rangeStart rangeEnd : Nat) (src : LayoutManager) :
    Except MemoryAccessError Unit :=
  if refStart < rangeEnd ∧ rangeStart < refStart + 8 then
    if refStart < rangeStart then
      .error (.typeMismatch
        s!"Heap Corruption: Write starts in the middle of an ObjectRef at {refStart}")
    else if rangeEnd < refStart + 8 then
      .error (.typeMismatch
        s!"Heap Corruption: Write ends in the middle of an ObjectRef at {refStart}")
    else if hasRefAt src (refStart - rangeStart) = false then
      .error (.typeMismatch
        s!"Heap Corruption: Writing non-ref data over ObjectRef at offset {refStart}")
    else if refStart % 8 ≠ 0 then .error (.unalignedAccess refStart)
    else .ok ()
  else .ok ()

mutual
def validateRefIntegrity : LayoutManager → Nat → Nat → Nat → LayoutManager →
    Except MemoryAccessError Unit
  | .scalar s, base, rangeStart, rangeEnd, src =>
    if isReference s then validateRefAt base rangeStart rangeEnd src else .ok ()
  | .field ⟨fields, _, _, _, _⟩, base, rangeStart, rangeEnd, src =>
    validateFields fields base rangeStart rangeEnd src
  | .array element length, base, rangeStart, rangeEnd, src =>
    if element.isOrContainsRefs then
      if element.size = 0 then .ok ()
      else
        let startIdx := (rangeStart - base) / element.size
        let endIdx := min ((rangeEnd - base + element.size - 1) / element.size) length
        (List.range' startIdx (endIdx - startIdx)).forM fun i =>
          validateRefIntegrity element (base + element.size * i) rangeStart rangeEnd src
    else .ok ()

def validateFields : List (Placed LayoutManager) → Nat → Nat → Nat → LayoutManager →
    Except MemoryAccessError Unit
  | [], _, _, _, _ => .ok ()
  | ⟨_, position, layout⟩ :: fields, base, rangeStart, rangeEnd, src => do
    if base + position < rangeEnd ∧ rangeStart < base + position + layout.size then
      validateRefIntegrity layout (base + position) rangeStart rangeEnd src
    validateFields fields base rangeStart rangeEnd src
end

lemma forM_eq_ok {α ε : Type} {f : α → Except ε Unit} {l : List α} :
    l.forM f = .ok () ↔ ∀ x ∈ l, f x = .ok () := by
  induction l with
  | nil => exact iff_of_true rfl fun x hx => absurd hx not_mem_nil
  | cons a l ih =>
    change (f a >>= fun _ => l.forM f) = .ok () ↔ _
    rw [forall_mem_cons, ← ih]
    cases f a with
    | error e => exact iff_of_false nofun fun h => nomatch h.1
    | ok u => exact (and_iff_right rfl).symm

lemma isReference_iff {s : Scalar} : isReference s = true ↔ s = .objectRef ∨ s = .managedPtr := by
  simp [isReference, isObjectRef, isManagedPtr]

/-- The offsets of the references in the field map. -/
abbrev refOffsets : LayoutManager → List Nat := offsetsOf isReference

variable {l : LayoutManager} {o : Nat}

lemma mem_refOffsets :
    o ∈ refOffsets l ↔ o ∈ offsetsOf isObjectRef l ∨ o ∈ offsetsOf isManagedPtr l := by
  induction l generalizing o with
  | scalar s => cases s <;> simp [offsetsOf, walk, isReference, isObjectRef]
  | array element length ih =>
    simp only [mem_offsetsOf_array, ih]
    constructor
    · rintro ⟨i, hi, r, hr | hr, rfl⟩
      · exact .inl ⟨i, hi, r, hr, rfl⟩
      · exact .inr ⟨i, hi, r, hr, rfl⟩
    · rintro (⟨i, hi, r, hr, rfl⟩ | ⟨i, hi, r, hr, rfl⟩)
      · exact ⟨i, hi, r, Or.inl hr, rfl⟩
      · exact ⟨i, hi, r, Or.inr hr, rfl⟩
  | field m ih =>
    simp only [mem_offsetsOf_field]
    constructor
    · rintro ⟨f, hf, r, hr, rfl⟩
      cases (ih f hf).mp hr with
      | inl hr => exact .inl ⟨f, hf, r, hr, rfl⟩
      | inr hr => exact .inr ⟨f, hf, r, hr, rfl⟩
    · rintro (⟨f, hf, r, hr, rfl⟩ | ⟨f, hf, r, hr, rfl⟩)
      · exact ⟨f, hf, r, (ih f hf).mpr (Or.inl hr), rfl⟩
      · exact ⟨f, hf, r, (ih f hf).mpr (Or.inr hr), rfl⟩

lemma refOffset_le {room : Nat} (h : l.Fits room) (ho : o ∈ refOffsets l) : o + 8 ≤ room := by
  cases mem_refOffsets.mp ho with
  | inl ho => exact h.le (Or.inl rfl) ho
  | inr ho =>
    have hle : o + managedPtrSize ≤ room := h.le (Or.inr rfl) ho
    simp only [managedPtrSize, objectRefSize] at hle
    omega

lemma checkRefsInFields_eq (fields : List (Placed LayoutManager)) (base : Nat) :
    checkRefsInFields fields base =
      fields.flatMap fun f => checkRefsInLayout f.layout (base + f.position) := by
  induction fields with
  | nil => rfl
  | cons f fields ih =>
    rw [checkRefsInFields, ih]
    rfl

variable {base : Nat}

lemma mem_checkRefsInLayout : o ∈ checkRefsInLayout l base ↔ ∃ r ∈ refOffsets l, o = base + r := by
  induction l generalizing base o with
  | scalar s =>
    simp only [checkRefsInLayout, offsetsOf, walk]
    split <;> simp
  | array element length ih =>
    rw [checkRefsInLayout]
    split
    · simp only [mem_flatMap, mem_range, ih, mem_offsetsOf_array]
      constructor
      · rintro ⟨i, hi, r, hr, rfl⟩
        exact ⟨_, ⟨i, hi, r, hr, rfl⟩, by omega⟩
      · rintro ⟨_, ⟨i, hi, r, hr, rfl⟩, rfl⟩
        exact ⟨i, hi, r, hr, by omega⟩
    · rename_i hrefs
      have hnil : refOffsets (.array element length) = [] :=
        walk_eq_nil_of_no_refs (fun s => isReference_iff.mp)
          (by simpa [isOrContainsRefs] using hrefs)
      simp [hnil]
  | field m ih =>
    rw [checkRefsInLayout, checkRefsInFields_eq]
    simp only [mem_flatMap, mem_offsetsOf_field]
    constructor
    · rintro ⟨f, hf, ho⟩
      obtain ⟨r, hr, rfl⟩ := (ih f hf).mp ho
      exact ⟨_, ⟨f, hf, r, hr, rfl⟩, by omega⟩
    · rintro ⟨_, ⟨f, hf, r, hr, rfl⟩, rfl⟩
      exact ⟨f, hf, (ih f hf).mpr ⟨r, hr, by omega⟩⟩

/-- The offset lies in the field. -/
def Covers (offset : Nat) (f : Placed LayoutManager) : Bool :=
  decide (f.position ≤ offset ∧ offset < f.position + f.layout.size)

lemma hasRefAtFields_eq (fields : List (Placed LayoutManager)) (offset : Nat) :
    hasRefAtFields fields offset =
      ((fields.find? (Covers offset)).map fun f => hasRefAt f.layout (offset - f.position)).getD
        false := by
  induction fields with
  | nil => rfl
  | cons f fields ih =>
    rw [hasRefAtFields]
    by_cases hcov : f.position ≤ offset ∧ offset < f.position + f.layout.size
    · simp [Covers, hcov]
    · rw [ih]
      simp [Covers, hcov]

lemma hasRefAt_field (m : FieldLayoutManager) (offset : Nat) : hasRefAt (.field m) offset =
      ((m.fields.find? (Covers offset)).map fun f => hasRefAt f.layout (offset - f.position)).getD
        false := by
  obtain ⟨fields, totalSize, alignment, gcDesc, hasRefFields⟩ := m
  exact hasRefAtFields_eq fields offset

lemma mem_refOffsets_of_hasRefAt (h : hasRefAt l o = true) : o ∈ refOffsets l := by
  induction l generalizing o with
  | scalar s =>
    simp only [hasRefAt, Bool.and_eq_true, decide_eq_true_eq] at h
    simp [offsetsOf, walk, h]
  | array element length ih =>
    simp only [hasRefAt] at h
    split at h
    · cases h
    · split at h
      · cases h
      · rename_i _ hlen
        exact mem_offsetsOf_array.mpr ⟨o / element.size, Nat.lt_of_not_le hlen,
          o % element.size, ih h, (Nat.div_add_mod o element.size).symm⟩
  | field m ih =>
    rw [hasRefAt_field] at h
    cases hfind : m.fields.find? (Covers o) with
    | none => simp [hfind] at h
    | some f =>
      have hf := mem_of_find?_eq_some hfind
      have hcov : f.position ≤ o ∧ o < f.position + f.layout.size := by
        simpa [Covers] using find?_some hfind
      simp only [hfind] at h
      exact mem_offsetsOf_field.mpr ⟨f, hf, _, ih f hf h, by omega⟩

def Unhidden (fields : List (Placed LayoutManager)) : Prop :=
  ∀ f ∈ fields, ∀ r ∈ refOffsets f.layout, ∀ g, fields.find? (Covers (f.position + r)) = some g →
    f.position + r - g.position ∈ refOffsets g.layout

/-- In no part of the layout a field is hidden by one it overlaps. -/
inductive Clear : LayoutManager → Prop
  | scalar (s : Scalar) : Clear (.scalar s)
  | array {element : LayoutManager} (length : Nat) (h : Clear element) :
      Clear (.array element length)
  | field {m : FieldLayoutManager} (h : ∀ f ∈ m.fields, Clear f.layout)
      (hunhidden : Unhidden m.fields) : Clear (.field m)

/-- In every part of the layout the references have room. -/
inductive Roomy : LayoutManager → Prop
  | scalar (s : Scalar) : Roomy (.scalar s)
  | array {element : LayoutManager} (length : Nat) (h : Roomy element)
      (hfits : element.Fits element.size) : Roomy (.array element length)
  | field {m : FieldLayoutManager} (h : ∀ f ∈ m.fields, Roomy f.layout)
      (hfits : ∀ f ∈ m.fields, f.layout.Fits f.layout.size) : Roomy (.field m)

lemma hasRefAt_of_mem_refOffsets (hclear : Clear l) (hroomy : Roomy l) (ho : o ∈ refOffsets l) :
    hasRefAt l o = true := by
  induction l generalizing o with
  | scalar s =>
    simp only [offsetsOf, walk] at ho
    split at ho
    · rename_i hs
      simp [hasRefAt, hs, mem_singleton.mp ho]
    · cases ho
  | array element length ih =>
    obtain ⟨i, hi, r, hr, rfl⟩ := mem_offsetsOf_array.mp ho
    cases hclear with
    | array _ hclear =>
      cases hroomy with
      | array _ hroomy hfits =>
        have hlt := refOffset_le hfits hr
        have hpos : 0 < element.size := by omega
        have hdiv : (element.size * i + r) / element.size = i := by
          rw [Nat.mul_add_div hpos, Nat.div_eq_of_lt (by omega), add_zero]
        have hmod : (element.size * i + r) % element.size = r := by
          rw [Nat.mul_add_mod, Nat.mod_eq_of_lt (by omega)]
        rw [hasRefAt, if_neg (by omega), if_neg (by omega), hmod]
        exact ih hclear hroomy hr
  | field m ih =>
    obtain ⟨f, hf, r, hr, rfl⟩ := mem_offsetsOf_field.mp ho
    cases hclear with
    | field hclear hunhidden =>
      cases hroomy with
      | field hroomy hfits =>
        have hlt := refOffset_le (hfits f hf) hr
        have hcov : Covers (f.position + r) f = true := by
          simp only [Covers, decide_eq_true_eq]
          omega
        rw [hasRefAt_field]
        cases hfind : m.fields.find? (Covers (f.position + r)) with
        | none =>
          have hno := find?_eq_none.mp hfind f hf
          exact absurd hcov hno
        | some g =>
          have hg := mem_of_find?_eq_some hfind
          exact ih g hg (hclear g hg) (hroomy g hg) (hunhidden f hf r hr g hfind)

variable {src : LayoutManager}

lemma checkReadSafety_eq_ok {result : LayoutManager} {offset : Nat} :
    checkReadSafety result (some src) offset = .ok () ↔
      ∀ r ∈ refOffsets result, hasRefAt src (offset + r) = true ∧ (offset + r) % 8 = 0 := by
  have hat : ∀ o, checkReadAt src o = .ok () ↔ hasRefAt src o = true ∧ o % 8 = 0 := by
    intro o
    simp only [checkReadAt]
    cases hasRefAt src o with
    | false => simp
    | true => by_cases h8 : o % 8 = 0 <;> simp [h8]
  rw [checkReadSafety, forM_eq_ok]
  constructor
  · intro h r hr
    exact (hat _).mp (h r (mem_checkRefsInLayout.mpr ⟨r, hr, (zero_add r).symm⟩))
  · intro h o ho
    obtain ⟨r, hr, rfl⟩ := mem_checkRefsInLayout.mp ho
    simpa using (hat _).mpr (h r hr)

/-- A reference of the destination that the written range touches is overwritten as a whole. -/
structure Overwritten (src : LayoutManager) (rangeStart rangeEnd refStart : Nat) : Prop where
  start : rangeStart ≤ refStart
  stop : refStart + 8 ≤ rangeEnd
  ref : hasRefAt src (refStart - rangeStart) = true

variable {rangeStart rangeEnd : Nat}

lemma overwritten_of_validateRefAt {refStart : Nat}
    (h : validateRefAt refStart rangeStart rangeEnd src = .ok ()) (hend : refStart < rangeEnd)
    (hbeg : rangeStart < refStart + 8) : Overwritten src rangeStart rangeEnd refStart := by
  rw [validateRefAt, if_pos ⟨hend, hbeg⟩] at h
  split at h
  · cases h
  · split at h
    · cases h
    · split at h
      · cases h
      · rename_i hbef hafter href
        exact ⟨by omega, by omega, by simpa using href⟩

lemma validateFields_eq_ok {fields : List (Placed LayoutManager)}
    (h : validateFields fields base rangeStart rangeEnd src = .ok ()) :
    ∀ f ∈ fields, base + f.position < rangeEnd → rangeStart < base + f.position + f.layout.size →
      validateRefIntegrity f.layout (base + f.position) rangeStart rangeEnd src = .ok () := by
  induction fields with
  | nil => exact fun f hf => absurd hf not_mem_nil
  | cons g fields ih =>
    obtain ⟨key, position, layout⟩ := g
    rw [validateFields] at h
    intro f hf hend hbeg
    by_cases htouched : base + position < rangeEnd ∧ rangeStart < base + position + layout.size
    · rw [if_pos htouched] at h
      cases hg : validateRefIntegrity layout (base + position) rangeStart rangeEnd src with
      | error e =>
        rw [hg] at h
        cases h
      | ok u =>
        rw [hg] at h
        cases mem_cons.mp hf with
        | inl heq =>
          subst heq
          exact hg
        | inr hf => exact ih h f hf hend hbeg
    · rw [if_neg htouched] at h
      cases mem_cons.mp hf with
      | inl heq =>
        subst heq
        exact absurd ⟨hend, hbeg⟩ htouched
      | inr hf => exact ih h f hf hend hbeg

/-- A write that passes the check overwrites as a whole each reference of the field map that it
touches. -/
lemma overwritten_of_validate (hroomy : Roomy l)
    (h : validateRefIntegrity l base rangeStart rangeEnd src = .ok ()) {r : Nat}
    (hr : r ∈ refOffsets l) (hend : base + r < rangeEnd) (hbeg : rangeStart < base + r + 8) :
    Overwritten src rangeStart rangeEnd (base + r) := by
  induction l generalizing base r with
  | scalar s =>
    simp only [offsetsOf, walk] at hr
    split at hr
    · rename_i hs
      obtain rfl : r = 0 := mem_singleton.mp hr
      rw [validateRefIntegrity, if_pos hs] at h
      exact overwritten_of_validateRefAt h hend hbeg
    · cases hr
  | array element length ih =>
    obtain ⟨i, hi, q, hq, rfl⟩ := mem_offsetsOf_array.mp hr
    cases hroomy with
    | array _ hroomy hfits =>
      have hlt := refOffset_le hfits hq
      have hpos : 0 < element.size := by omega
      rw [validateRefIntegrity] at h
      split at h
      · rw [if_neg (by omega)] at h
        -- the element lies among those the loop goes over
        have hlow : (rangeStart - base) / element.size ≤ i := by
          rw [← Nat.lt_succ_iff, Nat.div_lt_iff_lt_mul hpos, Nat.succ_mul, mul_comm]
          omega
        have hupper : i < (rangeEnd - base + element.size - 1) / element.size := by
          rw [Nat.lt_iff_add_one_le, Nat.le_div_iff_mul_le hpos, add_mul, mul_comm]
          omega
        have hmem : i ∈ List.range' ((rangeStart - base) / element.size)
            (min ((rangeEnd - base + element.size - 1) / element.size) length -
              (rangeStart - base) / element.size) := by
          rw [mem_range'_1]
          omega
        have hchk := forM_eq_ok.mp h i hmem
        have hrest := ih hroomy hchk hq (by omega) (by omega)
        rwa [add_assoc] at hrest
      · rename_i hrefs
        have hnil : offsetsOf isReference element = [] :=
          walk_eq_nil_of_no_refs (fun s => isReference_iff.mp) (by simpa using hrefs)
        rw [hnil] at hq
        cases hq
  | field m ih =>
    obtain ⟨f, hf, q, hq, rfl⟩ := mem_offsetsOf_field.mp hr
    cases hroomy with
    | field hroomy hfits =>
      have hlt := refOffset_le (hfits f hf) hq
      have hchk := validateFields_eq_ok h f hf (by omega) (by omega)
      have hrest := ih f hf (hroomy f hf) hchk hq (by omega) (by omega)
      rwa [add_assoc] at hrest

def TracedAt (l : LayoutManager) (kind : Scalar) (o : Nat) : Prop :=
  ∃ found, l.trace ⟨0, List.replicate l.size 0⟩ = some found ∧
    ∃ x ∈ found, x.scalar = kind ∧ x.offset = o

section

variable (owner value : LayoutManager) (offset : Nat)

def ReadExact : Prop :=
  checkReadSafety value (some owner) offset = .ok () ↔ ∀ kind r, TracedAt value kind r →
      (∃ kind', TracedAt owner kind' (offset + r)) ∧ (offset + r) % 8 = 0

def WriteSafe : Prop :=
  validateRefIntegrity owner 0 offset (offset + value.size) value = .ok () →
    ∀ kind t, TracedAt owner kind t → t < offset + value.size → offset < t + kind.size →
      offset ≤ t ∧ t + kind.size ≤ offset + value.size ∧ ∃ kind', TracedAt value kind' (t - offset)

/-- The checks see what the collector sees where the access goes: the map of the value lists its
traced slots, the references of the object under those of the value are found in its map if and only
if they are traced, and a traced slot that is touched stands in the map, and is not touched in part
if it is a managed pointer. -/
structure Agreed : Prop where
  listed : ∀ r, (∃ kind, TracedAt value kind r) ↔ r ∈ refOffsets value
  found : ∀ r ∈ refOffsets value, (offset + r) % 8 = 0 →
    ((∃ kind, TracedAt owner kind (offset + r)) ↔ hasRefAt owner (offset + r) = true)
  touched : ∀ kind t, TracedAt owner kind t → t < offset + value.size → offset < t + kind.size →
    t ∈ refOffsets owner ∧
      (kind = .managedPtr → offset ≤ t ∧ t + kind.size ≤ offset + value.size)

end

lemma kind_of_gather {f : Nat → Option (List Reached)} {is : List Nat} {found : List Reached}
    (h : gather f is = some found)
    (hkind : ∀ i bs, f i = some bs → ∀ x ∈ bs, x.scalar = .objectRef ∨ x.scalar = .managedPtr) :
    ∀ x ∈ found, x.scalar = .objectRef ∨ x.scalar = .managedPtr := by
  induction is generalizing found with
  | nil =>
    cases h
    exact fun x hx => absurd hx not_mem_nil
  | cons i is ih =>
    rw [gather] at h
    cases hfst : f i with
    | none => simp [hfst, andThen] at h
    | some bs =>
      cases hrest : gather f is with
      | none => simp [hrest, andThen] at h
      | some rest =>
        rw [hfst, hrest] at h
        cases h
        intro x hx
        exact (mem_append.mp hx).elim (hkind i bs hfst x) (ih hrest x)

/-- Tracing hands over references and managed pointers only. -/
lemma kind_of_trace {s : Slice} {found : List Reached} (h : l.trace s = some found) :
    ∀ x ∈ found, x.scalar = .objectRef ∨ x.scalar = .managedPtr := by
  induction l generalizing s found with
  | scalar c =>
    have hread : ∀ c, s.read c = some found → ∀ x ∈ found, x.scalar = c := by
      intro c hc x hx
      unfold Slice.read at hc
      split at hc
      · cases hc
        rw [mem_singleton.mp hx]
        rfl
      · cases hc
    cases c with
    | objectRef => exact fun x hx => .inl (hread _ h x hx)
    | managedPtr => exact fun x hx => .inr (hread _ h x hx)
    | int8 | uInt8 | int16 | uInt16 | int32 | int64 | nativeInt | float32 | float64 =>
      cases h
      exact fun x hx => absurd hx not_mem_nil
  | array element length ih =>
    refine kind_of_gather h fun i bs hbs => ?_
    obtain ⟨t, -, ht⟩ := Option.bind_eq_some_iff.mp hbs
    exact ih ht
  | field m ih =>
    cases h
    intro x hx
    rcases mem_trace.mp hx with ⟨o, -, -, rfl⟩ | ⟨-, o, -, -, rfl⟩
    · exact .inl rfl
    · exact .inr rfl

lemma TracedAt.kind {kind : Scalar} (h : TracedAt l kind o) :
    kind = .objectRef ∨ kind = .managedPtr := by
  obtain ⟨found, hfound, x, hx, rfl, -⟩ := h
  exact kind_of_trace hfound x hx

section

variable {owner value : LayoutManager} {offset : Nat} (h : Agreed owner value offset)
include h

lemma Agreed.readExact : ReadExact owner value offset := by
  rw [ReadExact, checkReadSafety_eq_ok]
  constructor
  · intro hok kind r hr
    have hmem := (h.listed r).mp ⟨kind, hr⟩
    obtain ⟨href, halign⟩ := hok r hmem
    exact ⟨(h.found r hmem halign).mpr href, halign⟩
  · intro htraced r hr
    obtain ⟨kind, hkind⟩ := (h.listed r).mpr hr
    obtain ⟨hslot, halign⟩ := htraced kind r hkind
    exact ⟨(h.found r hr halign).mp hslot, halign⟩

lemma Agreed.writeSafe (hroomy : Roomy owner) : WriteSafe owner value offset := by
  intro hok kind t ht hend hbeg
  obtain ⟨hmap, hpointer⟩ := h.touched kind t ht hend hbeg
  have hfirst : offset < t + 8 := by
    rcases ht.kind with rfl | rfl
    · exact hbeg
    · exact lt_add_of_le_of_pos (hpointer rfl).1 (by decide)
  have hwhole := overwritten_of_validate hroomy hok hmap (by rwa [zero_add])
    (by rwa [zero_add])
  rw [zero_add] at hwhole
  refine ⟨hwhole.start, ?_, (h.listed _).mpr (mem_refOffsets_of_hasRefAt hwhole.ref)⟩
  rcases ht.kind with rfl | rfl
  · exact hwhole.stop
  · exact (hpointer rfl).2

end

lemma tracedAt_scalar {s : Scalar} (hs : isReference s = true) {kind : Scalar} :
    TracedAt (.scalar s) kind o ↔ kind = s ∧ o = 0 := by
  rcases isReference_iff.mp hs with rfl | rfl
  all_goals
    constructor
    · rintro ⟨found, hfound, x, hx, rfl, rfl⟩
      cases hfound
      rw [mem_singleton.mp hx]
      exact ⟨rfl, rfl⟩
    · rintro ⟨rfl, rfl⟩
      exact ⟨_, rfl, _, mem_cons_self, rfl, rfl⟩

end LayoutManager

namespace LayoutLoader

variable {M : LayoutLoader} {isStatic : Bool} {l : LayoutManager}

section

variable (h : M.Made M.MapComplete isStatic l)
include h

lemma Made.roomy : Roomy l := by
  induction h with
  | scalar s => exact .scalar s
  | array length helt ih => exact .array length ih helt.faithful.fits
  | field hlvl hP hflds hbase hfin ihfields ihbase =>
    rename_i level m
    have hparts : ∀ f ∈ m.fields, Roomy f.layout ∧ f.layout.Fits f.layout.size := by
      rw [finish_fields hlvl hfin]
      intro f hf
      cases mem_append.mp hf with
      | inl hdecl =>
        obtain ⟨g, hg, hlay, -⟩ :=
          ClassLevel.layout_of_mem_places (ClassLevel.mem_places_of_mem_declared hdecl)
        rw [hlay]
        exact ⟨ihfields g hg, (hflds g hg).faithful.fits⟩
      | inr hinh =>
        simp only [ClassLevel.inherited] at hinh
        cases hb : level.base with
        | none => simp [hb] at hinh
        | some base =>
          simp only [hb] at hinh
          cases ihbase base hb with
          | field hroomy hfits => exact ⟨hroomy f hinh, hfits f hinh⟩
    exact .field (fun f hf => (hparts f hf).1) fun f hf => (hparts f hf).2

lemma Made.tracedAt_iff {kind : Scalar} {o : Nat} :
    TracedAt l kind o ↔ (kind = .objectRef ∧ o ∈ offsetsOf isObjectRef l) ∨
      (kind = .managedPtr ∧ o ∈ offsetsOf isManagedPtr l) := by
  obtain ⟨found, b, htrace, hres, hsm⟩ := h.agree ⟨0, List.replicate l.size 0⟩ (by simp)
  obtain ⟨b', hb', hreaches⟩ := resurrect_of_fits (s := ⟨0, List.replicate l.size 0⟩)
    (by simpa using h.faithful.fits)
  rw [hres] at hb'
  cases hb'
  constructor
  · rintro ⟨found', htrace', x, hx, rfl, rfl⟩
    rw [htrace] at htrace'
    cases htrace'
    cases (hreaches x).mp ((hsm x).mp hx) with
    | inl hobj =>
      obtain ⟨o, ho, rfl⟩ := hobj
      exact .inl ⟨rfl, by simpa [Slice.reached] using ho⟩
    | inr hman =>
      obtain ⟨o, ho, rfl⟩ := hman
      exact .inr ⟨rfl, by simpa [Slice.reached] using ho⟩
  · rintro (⟨rfl, ho⟩ | ⟨rfl, ho⟩)
    · refine ⟨found, htrace, _, (hsm _).mpr ((hreaches _).mpr (Or.inl ⟨o, ho, rfl⟩)), rfl, ?_⟩
      simp [Slice.reached]
    · refine ⟨found, htrace, _, (hsm _).mpr ((hreaches _).mpr (Or.inr ⟨o, ho, rfl⟩)), rfl, ?_⟩
      simp [Slice.reached]

lemma Made.exists_tracedAt_iff {o : Nat} : (∃ kind, TracedAt l kind o) ↔ o ∈ refOffsets l := by
  rw [mem_refOffsets]
  constructor
  · rintro ⟨kind, hkind⟩
    exact (h.tracedAt_iff.mp hkind).imp And.right And.right
  · rintro (ho | ho)
    · exact ⟨_, h.tracedAt_iff.mpr (Or.inl ⟨rfl, ho⟩)⟩
    · exact ⟨_, h.tracedAt_iff.mpr (Or.inr ⟨rfl, ho⟩)⟩

end

/-- Between layouts with complete maps the checks and the collector agree everywhere, when no field
of the object hides a reference it overlaps and the object holds no managed pointers. -/
lemma Made.agreed {isStatic' : Bool} {owner value : LayoutManager}
    (howner : M.Made M.MapComplete isStatic owner) (hclear : Clear owner)
    (hmanaged : offsetsOf isManagedPtr owner = [])
    (hvalue : M.Made M.MapComplete isStatic' value) (offset : Nat) :
    Agreed owner value offset where
  listed _ := hvalue.exists_tracedAt_iff
  found _ _ _ := howner.exists_tracedAt_iff.trans
    ⟨hasRefAt_of_mem_refOffsets hclear howner.roomy, mem_refOffsets_of_hasRefAt⟩
  touched kind t ht _ _ := by
    refine ⟨howner.exists_tracedAt_iff.mp ⟨kind, ht⟩, fun hkind => ?_⟩
    subst hkind
    rcases howner.tracedAt_iff.mp ht with ⟨hobj, -⟩ | ⟨-, hmem⟩
    · cases hobj
    · rw [hmanaged] at hmem
      exact absurd hmem not_mem_nil

/-- The instances of the inline array. -/
def bufferLayout : LayoutManager :=
  match bufferLoader.answer 3 (.instanceFields bufferType default) .empty with
  | some (.ok l, _) => l
  | _ => .array (.scalar .objectRef) 0

end LayoutLoader

end DotnetVm
