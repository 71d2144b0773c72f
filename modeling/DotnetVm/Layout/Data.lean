import DotnetVm.Lib.Bits
import DotnetVm.Types.Data

/-!
# Layouts

The description of how the values of a type lie in memory: scalars, arrays of one
element layout, and sets of named fields at byte positions. A field layout also
carries a descriptor of its object references: a bitmap with one bit for each
pointer-sized word, and the offsets of those references that are not aligned.
Sizes are those of a 64-bit target.
-/

namespace DotnetVm

open List

/-- `ObjectRef::SIZE`. -/
def objectRefSize : Nat := 8

/-- `ManagedPtr::SIZE`. -/
def managedPtrSize : Nat := objectRefSize * 3

inductive Scalar where
  | objectRef | managedPtr | int8 | uInt8 | int16 | uInt16 | int32 | int64 | nativeInt
  | float32 | float64
  deriving DecidableEq, Repr

namespace Scalar

def size : Scalar → Nat
  | .int8 => 1
  | .uInt8 => 1
  | .int16 => 2
  | .uInt16 => 2
  | .int32 => 4
  | .int64 => 8
  | .objectRef => objectRefSize
  | .nativeInt => objectRefSize
  | .managedPtr => managedPtrSize
  | .float32 => 4
  | .float64 => 8

end Scalar

/-- An alignment: no type asks for more than that of a pointer. -/
structure Alignment where
  bytes : Nat
  pos : 0 < bytes
  le : bytes ≤ objectRefSize
  deriving DecidableEq

namespace Alignment

def one : Alignment := ⟨1, by decide, by decide⟩

/-- The larger of two alignments. -/
def max (a b : Alignment) : Alignment :=
  ⟨Nat.max a.bytes b.bytes, lt_of_lt_of_le a.pos (le_max_left ..), Nat.max_le.mpr ⟨a.le, b.le⟩⟩

/-- The alignment, but not more than the packing size. -/
def clamp (a : Alignment) (packing : Nat) (h : 0 < packing) : Alignment :=
  ⟨min a.bytes packing, Nat.lt_min.mpr ⟨a.pos, h⟩, le_trans (min_le_left ..) a.le⟩

end Alignment

def Scalar.alignment : Scalar → Alignment
  | .managedPtr => ⟨objectRefSize, by decide, by decide⟩
  | .int8 => ⟨1, by decide, by decide⟩
  | .uInt8 => ⟨1, by decide, by decide⟩
  | .int16 => ⟨2, by decide, by decide⟩
  | .uInt16 => ⟨2, by decide, by decide⟩
  | .int32 => ⟨4, by decide, by decide⟩
  | .float32 => ⟨4, by decide, by decide⟩
  | .objectRef => ⟨objectRefSize, by decide, by decide⟩
  | .nativeInt => ⟨objectRefSize, by decide, by decide⟩
  | .int64 => ⟨8, by decide, by decide⟩
  | .float64 => ⟨8, by decide, by decide⟩

/-- Bit `i` of word `n` of the bitmap stands for the pointer-sized word `64 * n + i`. -/
structure GcDesc where
  bitmap : List (BitVec 64)
  unalignedOffsets : List Nat
  deriving DecidableEq

namespace GcDesc

def empty : GcDesc := ⟨[], []⟩

/-- `for_each_word_index`: the words visited, in order. -/
def wordIndices (d : GcDesc) : List Nat :=
  d.bitmap.zipIdx.flatMap fun (word, n) => (Bits.indices word).map (n * 64 + ·)

def set (d : GcDesc) (wordIndex : Nat) : GcDesc :=
  let n := wordIndex / 64
  let resized := d.bitmap ++ List.replicate (n + 1 - d.bitmap.length) 0
  { d with bitmap := resized.modify n (· ||| 1#64 <<< (wordIndex % 64)) }

def orWords : List (BitVec 64) → List (BitVec 64) → List (BitVec 64)
  | [], bs => bs
  | as, [] => as
  | a :: as, b :: bs => (a ||| b) :: orWords as bs

def addUnaligned (offsets : List Nat) (o : Nat) : List Nat :=
  if o ∈ offsets then offsets else offsets ++ [o]

def setOffset (d : GcDesc) (byteOffset : Nat) : GcDesc :=
  if byteOffset % objectRefSize = 0 then d.set (byteOffset / objectRefSize)
  else
    { d with
      unalignedOffsets := (addUnaligned d.unalignedOffsets byteOffset).insertionSort (· ≤ ·) }

def merge (d other : GcDesc) : GcDesc where
  bitmap := orWords d.bitmap other.bitmap
  unalignedOffsets :=
    (other.unalignedOffsets.foldl addUnaligned d.unalignedOffsets).insertionSort (· ≤ ·)

/-- The byte offsets a descriptor marks. -/
def offsets (d : GcDesc) : List Nat :=
  d.wordIndices.map (· * objectRefSize) ++ d.unalignedOffsets

/-- Is the bit of a word set? -/
def bit (bitmap : List (BitVec 64)) (i : Nat) : Bool :=
  (bitmap[i / 64]?.getD 0).getLsbD (i % 64)

variable {d : GcDesc}

lemma mem_wordIndices {i : Nat} : i ∈ d.wordIndices ↔ bit d.bitmap i = true := by
  rw [wordIndices, mem_flatMap, bit]
  constructor
  · rintro ⟨⟨word, n⟩, hword, hi⟩
    obtain ⟨j, hj, rfl⟩ := mem_map.mp hi
    have hbit : word.getLsbD j = true := Bits.mem_indices.mp hj
    have hlt : j < 64 := BitVec.lt_of_getLsbD hbit
    have hget : d.bitmap[n]? = some word := mem_zipIdx_iff_getElem?.mp hword
    rw [show (n * 64 + j) / 64 = n by omega, show (n * 64 + j) % 64 = j by omega, hget]
    exact hbit
  · intro hbit
    cases hget : d.bitmap[i / 64]? with
    | none => simp [hget] at hbit
    | some word =>
      rw [hget] at hbit
      refine ⟨(word, i / 64), mem_zipIdx_iff_getElem?.mpr hget, mem_map.mpr ⟨i % 64, ?_, ?_⟩⟩
      · exact Bits.mem_indices.mpr hbit
      · omega

lemma pairwise_wordIndices (d : GcDesc) : d.wordIndices.Pairwise (· < ·) := by
  have hwords : d.bitmap.zipIdx.Pairwise fun a b => a.2 < b.2 := by
    rw [← pairwise_map (f := Prod.snd) (R := (· < ·)), zipIdx_map_snd]
    exact pairwise_lt_range'
  refine pairwise_flatMap.mpr ⟨fun (word, n) _ => ?_, hwords.imp fun {a b} hlt i hi j hj => ?_⟩
  · rw [pairwise_map]
    exact (Bits.pairwise_indicesWithin le_rfl).imp fun h => Nat.add_lt_add_left h _
  · obtain ⟨k, hk, rfl⟩ := mem_map.mp hi
    obtain ⟨l, _, rfl⟩ := mem_map.mp hj
    have hbit : k < 64 := BitVec.lt_of_getLsbD (Bits.mem_indices.mp hk)
    omega

lemma getD_append_replicate (words : List (BitVec 64)) (n k : Nat) :
    (words ++ List.replicate n 0)[k]?.getD 0 = words[k]?.getD 0 := by
  rw [getElem?_append, getElem?_replicate]
  by_cases hk : k < words.length
  · rw [if_pos hk]
  · rw [if_neg hk, getElem?_eq_none (Nat.le_of_not_lt hk)]
    split <;> rfl

lemma getLsbD_one_shiftLeft {b : Nat} (hb : b < 64) (c : Nat) :
    (1#64 <<< b).getLsbD c = decide (c = b) := by
  by_cases hcb : c = b
  · simp [hcb, hb]
  · by_cases hlt : c < b
    · simp [hcb, hlt]
    · simp [hcb, show c - b ≠ 0 by omega]

lemma bit_set (d : GcDesc) (i j : Nat) :
    bit (d.set i).bitmap j = (bit d.bitmap j || decide (j = i)) := by
  unfold bit set
  rw [getElem?_modify]
  by_cases hword : i / 64 = j / 64
  · -- the word of the new bit exists after the resize
    have hlen : j / 64 <
        (d.bitmap ++ List.replicate (i / 64 + 1 - d.bitmap.length) 0).length := by
      rw [length_append, length_replicate]
      omega
    have hsm := getD_append_replicate d.bitmap (i / 64 + 1 - d.bitmap.length) (j / 64)
    rw [getElem?_eq_getElem hlen] at hsm ⊢
    have hbit : decide (j % 64 = i % 64) = decide (j = i) := decide_eq_decide.mpr (by omega)
    rw [← hsm]
    simp only [if_pos hword, Option.map_eq_map, Option.map_some, Option.getD_some,
      BitVec.getLsbD_or]
    rw [getLsbD_one_shiftLeft (Nat.mod_lt _ (by decide)), hbit]
  · have hne : j ≠ i := by
      rintro rfl
      exact hword rfl
    simp only [if_neg hword, id_map', getD_append_replicate, decide_eq_false hne, Bool.or_false]

lemma bit_orWords (as bs : List (BitVec 64)) (i : Nat) :
    bit (orWords as bs) i = (bit as i || bit bs i) := by
  unfold bit
  rw [← BitVec.getLsbD_or]
  generalize i / 64 = n
  induction as generalizing bs n with
  | nil => simp [orWords]
  | cons a as ih =>
    cases bs with
    | nil => simp [orWords]
    | cons b bs =>
      cases n with
      | zero => rfl
      | succ n => simpa [orWords] using ih bs n

variable {offsets : List Nat}

lemma mem_addUnaligned {o x : Nat} : x ∈ addUnaligned offsets o ↔ x ∈ offsets ∨ x = o := by
  unfold addUnaligned
  by_cases ho : o ∈ offsets
  · rw [if_pos ho]
    constructor
    · exact Or.inl
    · rintro (h | rfl)
      · exact h
      · exact ho
  · rw [if_neg ho, mem_append, mem_singleton]

lemma mem_foldl_addUnaligned {os : List Nat} {x : Nat} :
    x ∈ os.foldl addUnaligned offsets ↔ x ∈ offsets ∨ x ∈ os := by
  induction os generalizing offsets with
  | nil => simp
  | cons o os ih => rw [foldl_cons, ih, mem_addUnaligned, mem_cons, or_assoc]

lemma mem_offsets {o : Nat} : o ∈ d.offsets ↔
      (∃ i, bit d.bitmap i = true ∧ i * objectRefSize = o) ∨ o ∈ d.unalignedOffsets := by
  rw [offsets, mem_append, mem_map]
  simp only [mem_wordIndices]

@[simp] lemma offsets_empty : empty.offsets = [] := rfl

/-- Setting an offset marks it and nothing else. -/
@[simp] lemma mem_offsets_setOffset {b o : Nat} :
    o ∈ (d.setOffset b).offsets ↔ o ∈ d.offsets ∨ o = b := by
  unfold setOffset
  by_cases halign : b % objectRefSize = 0
  · have hb : b / objectRefSize * objectRefSize = b := by
      simp only [objectRefSize] at halign ⊢
      omega
    rw [if_pos halign, mem_offsets, mem_offsets]
    simp only [bit_set, Bool.or_eq_true, decide_eq_true_eq]
    constructor
    · rintro (⟨i, hi | rfl, rfl⟩ | ho)
      · exact .inl (.inl ⟨i, hi, rfl⟩)
      · exact .inr hb
      · exact .inl (.inr ho)
    · rintro ((⟨i, hi, rfl⟩ | ho) | rfl)
      · exact .inl ⟨i, .inl hi, rfl⟩
      · exact .inr ho
      · exact .inl ⟨_, .inr rfl, hb⟩
  · rw [if_neg halign, mem_offsets, mem_offsets]
    simp [mem_addUnaligned, or_assoc]

@[simp] lemma mem_offsets_merge {other : GcDesc} {o : Nat} :
    o ∈ (d.merge other).offsets ↔ o ∈ d.offsets ∨ o ∈ other.offsets := by
  rw [mem_offsets, mem_offsets, mem_offsets]
  simp only [merge, bit_orWords, Bool.or_eq_true, mem_insertionSort, mem_foldl_addUnaligned]
  constructor
  · rintro (⟨i, hi | hi, rfl⟩ | ho | ho)
    · exact .inl (.inl ⟨i, hi, rfl⟩)
    · exact .inr (.inl ⟨i, hi, rfl⟩)
    · exact .inl (.inr ho)
    · exact .inr (.inr ho)
  · rintro ((⟨i, hi, rfl⟩ | ho) | ⟨i, hi, rfl⟩ | ho)
    · exact .inl ⟨i, .inl hi, rfl⟩
    · exact .inr (.inl ho)
    · exact .inl ⟨i, .inr hi, rfl⟩
    · exact .inr (.inr ho)

end GcDesc

/-- A field is known by the type that declares it and its name. -/
structure FieldKey where
  owner : TypeDescription
  name : String
  deriving DecidableEq

/-- An entry of the field map: `FieldLayout` with its key. -/
structure Placed (α : Type) where
  key : FieldKey
  position : Nat
  layout : α

/-- The field map with what is known of the whole; see `FieldLayoutManager`. -/
structure FieldLayouts (α : Type) where
  fields : List (Placed α)
  totalSize : Nat
  alignment : Alignment
  gcDesc : GcDesc
  hasRefFields : Bool

inductive LayoutManager where
  | scalar (s : Scalar)
  | array (element : LayoutManager) (length : Nat)
  | field (m : FieldLayouts LayoutManager)

abbrev FieldLayoutManager := FieldLayouts LayoutManager

namespace LayoutManager

@[elab_as_elim, induction_eliminator]
lemma induction {motive : LayoutManager → Prop} (scalar : ∀ s, motive (.scalar s))
    (array : ∀ element length, motive element → motive (.array element length))
    (field : ∀ m : FieldLayoutManager, (∀ f ∈ m.fields, motive f.layout) → motive (.field m))
    (l : LayoutManager) : motive l :=
  @LayoutManager.rec motive (fun m => ∀ f ∈ m.fields, motive f.layout)
    (fun fs => ∀ f ∈ fs, motive f.layout) (fun f => motive f.layout)
    scalar array field (fun _ _ _ _ _ h => h) nofun
    (fun _ _ h hs f hf => (mem_cons.mp hf).elim (fun e => e ▸ h) (hs f)) (fun _ _ _ h => h) l

def size : LayoutManager → Nat
  | .scalar s => s.size
  | .array element length => element.size * length
  | .field m => m.totalSize

def alignment : LayoutManager → Alignment
  | .scalar s => s.alignment
  | .array element _ => element.alignment
  | .field m => m.alignment

def isGcPtr : LayoutManager → Bool
  | .scalar .objectRef => true
  | .scalar .managedPtr => true
  | _ => false

mutual
def isOrContainsRefs : LayoutManager → Bool
  | .scalar s => decide (s = .objectRef) || decide (s = .managedPtr)
  | .array element _ => isOrContainsRefs element
  | .field ⟨fields, _, _, _, _⟩ => anyContainsRefs fields

def anyContainsRefs : List (Placed LayoutManager) → Bool
  | [] => false
  | ⟨_, _, layout⟩ :: fields => isOrContainsRefs layout || anyContainsRefs fields
end

def hasManagedPtrs : LayoutManager → Bool
  | .scalar s => decide (s = .managedPtr)
  | .array element _ => hasManagedPtrs element
  | .field m => m.hasRefFields

lemma isOrContainsRefs_field (m : FieldLayoutManager) :
    isOrContainsRefs (.field m) = m.fields.any fun f => f.layout.isOrContainsRefs := by
  obtain ⟨fields, _, _, _, _⟩ := m
  rw [isOrContainsRefs]
  induction fields with
  | nil => rfl
  | cons f fields ih => rw [anyContainsRefs, ih, any_cons]

end LayoutManager

end DotnetVm
