import DotnetVm.Lib.Caching
import DotnetVm.Layout.Data
import DotnetVm.Types.Ancestors
import DotnetVm.Data

/-!
# The layout factory

How the layout of a type is computed: the fields a class declares are placed after
those it inherits, one after the other or where the metadata says, and the
references they hold are entered in the descriptor. An inline array repeats its
first field. Layouts found before are cached. Arithmetic is that of a build with
overflow checks: a sum that does not fit stops the thread, so no result depends on
it.
-/

namespace DotnetVm

open Trees Caching

def alignUp (value align : Nat) : Nat :=
  let misalignment := value % align
  if misalignment = 0 then value else value + align - misalignment

def populateGcDesc : LayoutManager → Nat → GcDesc → GcDesc
  | .scalar .objectRef, baseOffset, desc => desc.setOffset baseOffset
  | .scalar _, _, desc => desc
  | .field m, baseOffset, desc =>
    let desc := m.gcDesc.wordIndices.foldl
      (fun desc wordIndex => desc.setOffset (baseOffset + wordIndex * objectRefSize)) desc
    m.gcDesc.unalignedOffsets.foldl (fun desc offset => desc.setOffset (baseOffset + offset)) desc
  | .array element length, baseOffset, desc =>
    if element.isOrContainsRefs then
      (List.range length).foldl
        (fun desc i => populateGcDesc element (baseOffset + element.size * i) desc) desc
    else desc

structure FieldInput where
  owner : TypeDescription
  name : String
  offset : Option Nat
  layout : LayoutManager

def FieldInput.key (f : FieldInput) : FieldKey := ⟨f.owner, f.name⟩

structure SequentialLayout where
  packingSize : Nat
  classSize : Nat
  deriving DecidableEq

/-- The layout the metadata asks for; `explicit` carries the class size. -/
inductive Layout where
  | automatic
  | sequential (s : Option SequentialLayout)
  | explicit (classSize : Option Nat)
  deriving DecidableEq

/-- `HashMap::insert`: a field of the same key is replaced. -/
def insertField {α : Type} (fields : List (Placed α)) (f : Placed α) : List (Placed α) :=
  match fields with
  | [] => [f]
  | g :: rest => if g.key = f.key then f :: rest else g :: insertField rest f

/-- What the placement loops carry from field to field. -/
structure Placing where
  mapping : List (Placed LayoutManager)
  gcDesc : GcDesc
  hasRefFields : Bool
  maxAlignment : Alignment
  offset : Nat

def Placing.start (baseSize : Nat) (baseAlignment : Alignment) : Placing :=
  ⟨[], .empty, false, baseAlignment, baseSize⟩

section

variable (packingSize : Nat)

/-- One round of the loop of `place_fields_sequentially`. -/
def placeField (hpacking : 0 < packingSize) (s : Placing) (f : FieldInput) : Placing :=
  let fieldAlign := f.layout.alignment.clamp packingSize hpacking
  let alignedOffset := alignUp s.offset fieldAlign.bytes
  { mapping := insertField s.mapping ⟨f.key, alignedOffset, f.layout⟩
    gcDesc := populateGcDesc f.layout alignedOffset s.gcDesc
    hasRefFields := s.hasRefFields || f.layout.hasManagedPtrs
    maxAlignment := s.maxAlignment.max fieldAlign
    offset := alignedOffset + f.layout.size }

def placeFieldsSequentially (fields : List FieldInput) (baseSize : Nat) (baseAlignment : Alignment)
    (packingSize : Nat) (hpacking : 0 < packingSize) : FieldLayoutManager :=
  let s := fields.foldl (placeField packingSize hpacking) (Placing.start baseSize baseAlignment)
  ⟨s.mapping, alignUp s.offset s.maxAlignment.bytes, s.maxAlignment, s.gcDesc, s.hasRefFields⟩

/-- `packing_size`, where 0 stands for the default. -/
def effectivePacking : Nat := if packingSize = 0 then 8 else packingSize

end

def containsText (text part : String) : Bool := decide (part.toList <:+: text.toList)

abbrev PlacedRange := Nat × Nat × LayoutManager

def checkOverlaps (typeName : String) (f : FieldInput) (actualOffset actualEnd : Nat) :
    List PlacedRange → Except TypeResolutionError Unit
  | [] => .ok ()
  | (prevStart, prevEnd, prevLayout) :: rest =>
    let overlap := decide (actualOffset < prevEnd) && decide (prevStart < actualEnd)
    if overlap && (f.layout.isOrContainsRefs || prevLayout.isOrContainsRefs) then
      let sameRange := decide (actualOffset = prevStart) && decide (actualEnd = prevEnd)
      let bothGcPtrs := f.layout.isGcPtr && prevLayout.isGcPtr
      if sameRange && bothGcPtrs then checkOverlaps typeName f actualOffset actualEnd rest
      else if containsText typeName "System.Runtime.CompilerServices.MethodTable" then
        checkOverlaps typeName f actualOffset actualEnd rest
      else
        .error (.invalidLayout ("explicit field layout overlaps reference type fields in type '" ++
          typeName ++ "'. Field '" ++ f.name ++ "' (offset " ++ toString actualOffset ++
          ") overlaps with previous field (range " ++ toString prevStart ++ "-" ++
          toString prevEnd ++ ")."))
    else checkOverlaps typeName f actualOffset actualEnd rest

section explicit

variable (typeName : TypeDescription → String) (baseSize : Nat)

/-- One round of the loop for explicit layouts. -/
def placeExplicitly (s : Placing × List PlacedRange) (f : FieldInput) :
    Except TypeResolutionError (Placing × List PlacedRange) :=
  match f.offset with
  | none =>
    .error (.invalidLayout "explicit field layout requires all fields to have defined offsets")
  | some o =>
    let actualOffset := baseSize + o
    let actualEnd := actualOffset + f.layout.size
    match checkOverlaps (typeName f.owner) f actualOffset actualEnd s.2 with
    | .error e => .error e
    | .ok () =>
      .ok ({ mapping := insertField s.1.mapping ⟨f.key, actualOffset, f.layout⟩
             gcDesc := populateGcDesc f.layout actualOffset s.1.gcDesc
             hasRefFields := s.1.hasRefFields || f.layout.hasManagedPtrs
             maxAlignment := s.1.maxAlignment.max f.layout.alignment
             offset := max s.1.offset actualEnd },
          s.2 ++ [(actualOffset, actualEnd, f.layout)])

def placeFieldsExplicitly : Placing × List PlacedRange → List FieldInput →
    Except TypeResolutionError Placing
  | s, [] => .ok s.1
  | s, f :: fields =>
    match placeExplicitly typeName baseSize s f with
    | .error e => .error e
    | .ok s' => placeFieldsExplicitly s' fields

end explicit

lemma sequentialPacking_pos (s : Option SequentialLayout) :
    0 < effectivePacking ((s.map SequentialLayout.packingSize).getD 0) := by
  unfold effectivePacking
  split <;> omega

def createFieldLayout (typeName : TypeDescription → String) (fields : List FieldInput)
    (layout : Layout) (baseSize : Nat) (baseAlignment : Alignment) :
    Except TypeResolutionError FieldLayoutManager :=
  let placed : Except TypeResolutionError FieldLayoutManager :=
    match layout with
    | .automatic =>
      .ok (placeFieldsSequentially fields baseSize baseAlignment usizeMax usizeMax_pos)
    | .sequential s =>
      let packingSize := effectivePacking ((s.map SequentialLayout.packingSize).getD 0)
      let classSize := (s.map SequentialLayout.classSize).getD 0
      let m := placeFieldsSequentially fields baseSize baseAlignment packingSize
        (sequentialPacking_pos s)
      .ok { m with totalSize := max m.totalSize (baseSize + classSize) }
    | .explicit classSize =>
      match placeFieldsExplicitly typeName baseSize (Placing.start baseSize baseAlignment, [])
          fields with
      | .error e => .error e
      | .ok s =>
        let totalSize :=
          match classSize with
          | some size => max (baseSize + size) s.offset
          | none => s.offset
        .ok ⟨s.mapping, totalSize, s.maxAlignment, s.gcDesc, s.hasRefFields⟩
  match placed with
  | .error e => .error e
  | .ok m =>
    if m.totalSize > 0x10000000 then
      .error (.massiveAllocation
        ("massive field layout detected: " ++ toString m.totalSize ++ " bytes"))
    else .ok m

def mergeBase (result : FieldLayoutManager) : Option FieldLayoutManager → FieldLayoutManager
  | none => result
  | some base =>
    { result with
      fields := base.fields.foldl insertField result.fields
      gcDesc := result.gcDesc.merge base.gcDesc
      hasRefFields := result.hasRefFields || base.hasRefFields }

/-- The field that is at the smaller position, the current one if they are at the same. -/
def earlier (first : Option (Placed LayoutManager)) (f : Placed LayoutManager) :
    Placed LayoutManager :=
  match first with
  | none => f
  | some current => if f.position < current.position then f else current

/-- The field of a class at the smallest position. -/
def firstField (td : TypeDescription) : List (Placed LayoutManager) →
    Option (Placed LayoutManager) → Option (Placed LayoutManager)
  | [], first => first
  | f :: fields, first =>
    firstField td fields (if f.key.owner = td then some (earlier first f) else first)

def repeatFirstField (td : TypeDescription) (inlineLen : Nat) (result : FieldLayoutManager) :
    Option FieldLayoutManager :=
  match firstField td result.fields none with
  | none => some result
  | some f =>
    let elemSize := f.layout.size
    let inlineTotal := saturatingAdd f.position (saturatingMul elemSize inlineLen)
    let resized := { result with totalSize := alignUp inlineTotal result.alignment.bytes }
    if f.layout.isOrContainsRefs then
      if f.position + elemSize * inlineLen ≤ usizeMax then
        some { resized with
          gcDesc := (List.range inlineLen).foldl
            (fun desc i => populateGcDesc f.layout (f.position + elemSize * i) desc) .empty
          hasRefFields := true }
      else none
    else some resized

end DotnetVm
