import DotnetVm.Lib.Floats
import DotnetVm.Memory.Values
import DotnetVm.Pointers.Offsets

/-!
# Comparing evaluation-stack values

The branch instructions and the compare instructions pop two values and compare
them. They agree on ordered operands; on two floating-point numbers that are
unordered every ordering comparison fails, and an enum value is taken as its
underlying integer by all of them but `ceq`, which compares the objects. Pointers
and native integers are compared by address, except that two managed pointers are
equal by what they point into.
-/

namespace DotnetVm.RawMemory.Comparison

open Option

inductive NumberSign where
  | signed
  | unsigned
  deriving DecidableEq, Repr

/-- What `Object::eq` compares beside the description and the bytes. Layouts are equal only as one
allocation. -/
structure ObjectInfo where
  generics : GenericLookup
  layout : Nat
  hasFinalizer : Bool
  finalizerSuppressed : Bool

def ObjectInfo.same (l r : ObjectInfo) : Bool :=
  l.generics == r.generics && decide (l.layout = r.layout) &&
    decide (l.hasFinalizer = r.hasFinalizer) &&
    decide (l.finalizerSuppressed = r.finalizerSuppressed)

/-- What a comparison reads of its surroundings; `left` and `right` are of the objects behind the
operands, where these are value types. -/
structure Operands (κ : Type) where
  host : Host
  pointer : RawMemory.ManagedPtr → DotnetVm.ManagedPtr κ
  storage : LiveStorage κ
  left : ObjectInfo
  right : ObjectInfo

section Values

variable {κ : Type} [DecidableEq κ] (O : Operands κ)

/-- `managed_ptr_to_raw`, as an address. -/
def managedAddress (p : RawMemory.ManagedPtr) : BitVec 64 :=
  ((O.pointer p).observeAddress O.storage).getD 0

def pointerAddress : StackValue → Option (BitVec 64)
  | .nativeInt i => some i
  | .unmanagedPtr address => some address
  | .managedPtr p => some (managedAddress O p)
  | _ => none

/-- `PartialEq` of managed pointers. -/
def samePlace (p q : RawMemory.ManagedPtr) : Bool :=
  decide ((O.pointer p).origin = (O.pointer q).origin) &&
    decide ((O.pointer p).byteOffset = (O.pointer q).byteOffset)

/-- `PartialEq` of stack values. -/
def eq : StackValue → StackValue → Bool
  | .int32 l, .int32 r => decide (l = r)
  | .int32 l, .nativeInt r => decide (l.signExtend 64 = r)
  | .int64 l, .int64 r => decide (l = r)
  | .nativeInt l, .int32 r => decide (l = r.signExtend 64)
  | .nativeInt l, .nativeInt r => decide (l = r)
  | .nativeFloat l, .nativeFloat r => Floats.equal l r
  | .managedPtr l, .managedPtr r => samePlace O l r
  | l@(.managedPtr _), r@(.nativeInt _) | l@(.managedPtr _), r@(.unmanagedPtr _)
  | l@(.unmanagedPtr _), r@(.managedPtr _) | l@(.unmanagedPtr _), r@(.unmanagedPtr _)
  | l@(.unmanagedPtr _), r@(.nativeInt _)
  | l@(.nativeInt _), r@(.managedPtr _) | l@(.nativeInt _), r@(.unmanagedPtr _) =>
    decide (pointerAddress O l = pointerAddress O r)
  | .objectRef l, .objectRef r => decide (l = r)
  | .valueType d l, .valueType d' r => decide (d = d' ∧ l = r) && O.left.same O.right
  | _, _ => false

def cmpSigned {w : Nat} (l r : BitVec w) : Option Ordering := some (compare l.toInt r.toInt)

def cmpUnsigned {w : Nat} (l r : BitVec w) : Option Ordering := some (compare l.toNat r.toNat)

def partialCmp : StackValue → StackValue → Option Ordering
  | .int32 l, .int32 r => cmpSigned l r
  | .int32 l, .nativeInt r => cmpSigned (l.signExtend 64) r
  | .int64 l, .int64 r => cmpSigned l r
  | .nativeInt l, .int32 r => cmpSigned l (r.signExtend 64)
  | .nativeInt l, .nativeInt r => cmpSigned l r
  | .nativeFloat l, .nativeFloat r => Floats.partialCmp l r
  | .managedPtr l, .managedPtr r => cmpUnsigned (managedAddress O l) (managedAddress O r)
  | .managedPtr l, .unmanagedPtr r => cmpUnsigned (managedAddress O l) r
  | .unmanagedPtr l, .managedPtr r => cmpUnsigned l (managedAddress O r)
  | .unmanagedPtr l, .unmanagedPtr r => cmpUnsigned l r
  | .managedPtr l, .nativeInt r => cmpSigned (managedAddress O l) r
  | .unmanagedPtr l, .nativeInt r => cmpSigned l r
  | .nativeInt l, .managedPtr r => cmpSigned l (managedAddress O r)
  | .nativeInt l, .unmanagedPtr r => cmpSigned l r
  | .objectRef l, .objectRef r => cmpUnsigned l r
  | _, _ => none

def compareValues (l r : StackValue) (sgn : NumberSign) : Option Ordering :=
  match l, r, sgn with
  | .int32 l, .int32 r, .unsigned => cmpUnsigned l r
  | .int32 l, .nativeInt r, .unsigned => cmpUnsigned (l.setWidth 64) r
  | .nativeInt l, .int32 r, .unsigned => cmpUnsigned l (r.setWidth 64)
  | .nativeInt l, .nativeInt r, .unsigned => cmpUnsigned l r
  | .int64 l, .int64 r, .unsigned => cmpUnsigned l r
  | .managedPtr l, .nativeInt r, .unsigned => cmpUnsigned (managedAddress O l) r
  | .unmanagedPtr l, .nativeInt r, .unsigned => cmpUnsigned l r
  | .nativeInt l, .managedPtr r, .unsigned => cmpUnsigned l (managedAddress O r)
  | .nativeInt l, .unmanagedPtr r, .unsigned => cmpUnsigned l r
  | l, r, _ => partialCmp O l r

end Values

inductive Branch where
  | beq
  | bne
  | bge (sgn : NumberSign)
  | bgt (sgn : NumberSign)
  | ble (sgn : NumberSign)
  | blt (sgn : NumberSign)

inductive Compare where
  | ceq
  | cgt (sgn : NumberSign)
  | clt (sgn : NumberSign)

/-- How a step ends for the dispatch loop. -/
inductive StepResult where
  | jump (target : Nat) (stack : List StackValue)
  | next (stack : List StackValue)
  | stackUnderflow
  deriving DecidableEq

section Instructions

variable {κ : Type} [DecidableEq κ] (O : Operands κ)

/-- An operand as the instructions take it. -/
def operand (v : StackValue) : StackValue := coerceEnumToUnderlying O.host v

/-- The condition of a branch on coerced operands. -/
def Branch.cond (v1 v2 : StackValue) : Branch → Bool
  | .beq => eq O v1 v2
  | .bne => !eq O v1 v2
  | .bge sgn => compareValues O v1 v2 sgn == some .gt || compareValues O v1 v2 sgn == some .eq
  | .bgt sgn => compareValues O v1 v2 sgn == some .gt
  | .ble sgn => compareValues O v1 v2 sgn == some .lt || compareValues O v1 v2 sgn == some .eq
  | .blt sgn => compareValues O v1 v2 sgn == some .lt

def Branch.step (b : Branch) (target : Nat) : List StackValue → StepResult
  | v2 :: v1 :: stack =>
    if b.cond O (operand O v1) (operand O v2) then
      .jump target stack
    else .next stack
  | _ => .stackUnderflow

/-- The value a compare instruction finds true. -/
def Compare.val (v1 v2 : StackValue) : Compare → Bool
  | .ceq => eq O v1 v2
  | .cgt sgn => compareValues O (operand O v1) (operand O v2) sgn == some .gt
  | .clt sgn => compareValues O (operand O v1) (operand O v2) sgn == some .lt

def Compare.step (c : Compare) : List StackValue → StepResult
  | v2 :: v1 :: stack => .next (.int32 (if c.val O v1 v2 then 1 else 0) :: stack)
  | _ => .stackUnderflow

def Jumps (b : Branch) (v1 v2 : StackValue) : Prop :=
  ∀ target stack, b.step O target (v2 :: v1 :: stack) = .jump target stack

def Pushes (c : Compare) (n : BitVec 32) (v1 v2 : StackValue) : Prop :=
  ∀ stack, c.step O (v2 :: v1 :: stack) = .next (.int32 n :: stack)

variable {O} {v1 v2 : StackValue}

lemma jumps_iff (b : Branch) : Jumps O b v1 v2 ↔
    b.cond O (operand O v1) (operand O v2) = true := by
  cases hcond : b.cond O (operand O v1) (operand O v2) <;>
    simp [Jumps, Branch.step, hcond]

lemma pushes_one_iff (c : Compare) : Pushes O c 1 v1 v2 ↔ c.val O v1 v2 = true := by
  cases hval : c.val O v1 v2 <;> simp [Pushes, Compare.step, hval]

lemma pushes_zero_iff (c : Compare) : Pushes O c 0 v1 v2 ↔ c.val O v1 v2 = false := by
  cases hval : c.val O v1 v2 <;> simp [Pushes, Compare.step, hval]

end Instructions

section Agreement

variable {κ : Type} [DecidableEq κ] (O : Operands κ)

def comparable : StackValue → StackValue → Bool
  | .int32 _, .int32 _ | .int32 _, .nativeInt _ | .nativeInt _, .int32 _ => true
  | .int64 _, .int64 _ | .nativeFloat _, .nativeFloat _ | .objectRef _, .objectRef _ => true
  | .nativeInt _, .nativeInt _ | .nativeInt _, .managedPtr _ | .nativeInt _, .unmanagedPtr _ => true
  | .managedPtr _, .nativeInt _ | .managedPtr _, .managedPtr _ => true
  | .managedPtr _, .unmanagedPtr _ | .unmanagedPtr _, .nativeInt _ => true
  | .unmanagedPtr _, .managedPtr _ | .unmanagedPtr _, .unmanagedPtr _ => true
  | _, _ => false

/-- Two floating-point numbers of which one is a NaN. -/
def Unordered : StackValue → StackValue → Prop
  | .nativeFloat l, .nativeFloat r => Floats.partialCmp l r = none
  | _, _ => False

def oppositeMode : StackValue → StackValue → NumberSign → NumberSign
  | .nativeFloat _, .nativeFloat _, .signed => .unsigned
  | .nativeFloat _, .nativeFloat _, .unsigned => .signed
  | _, _, sgn => sgn

/-- The branch and compare instructions agree on two operands. -/
structure Agree (v1 v2 : StackValue) : Prop where
  beq : Jumps O .beq v1 v2 ↔ Pushes O .ceq 1 v1 v2
  bne : Jumps O .bne v1 v2 ↔ Pushes O .ceq 0 v1 v2
  blt : ∀ sgn, Jumps O (.blt sgn) v1 v2 ↔ Pushes O (.clt sgn) 1 v1 v2
  bgt : ∀ sgn, Jumps O (.bgt sgn) v1 v2 ↔ Pushes O (.cgt sgn) 1 v1 v2
  bge : ∀ sgn, Jumps O (.bge sgn) v1 v2 ↔
    Pushes O (.clt (oppositeMode (operand O v1) (operand O v2) sgn)) 0 v1 v2
  ble : ∀ sgn, Jumps O (.ble sgn) v1 v2 ↔
    Pushes O (.cgt (oppositeMode (operand O v1) (operand O v2) sgn)) 0 v1 v2
  unordered : Unordered (operand O v1) (operand O v2) → ∀ b ∈ [Branch.bge, .bgt, .ble, .blt],
    Jumps O (b .unsigned) v1 v2 ∧ ¬Jumps O (b .signed) v1 v2

/-- An enum equals another value by its integer only if the two are one value of one instantiation,
described by one layout. -/
def EnumsFaithful (v1 v2 : StackValue) : Prop :=
  operand O v1 ≠ v1 ∨ operand O v2 ≠ v2 → eq O (operand O v1) (operand O v2) = true →
    v1 = v2 ∧ O.left.same O.right = true

variable {O} {v1 v2 : StackValue}

def isIntegral : StackValue → Bool
  | .int32 _ | .int64 _ | .nativeInt _ => true
  | _ => false

omit [DecidableEq κ] in
lemma operand_cases (v : StackValue) : operand O v = v ∨
    (∃ d data, v = .valueType d data) ∧ isIntegral (operand O v) = true ∧ operand O v ≠ v := by
  cases v with
  | valueType d data =>
    cases hw : (O.host.isEnum d).bind fun p =>
        widenRaw (BitVec.ofNat 64 (Bytes.decode (data.take p.scalar.size))) p with
    | none => simp [operand, coerceEnumToUnderlying, hw]
    | some w =>
      obtain ⟨p, -, hp⟩ := bind_eq_some_iff.mp hw
      refine .inr ⟨⟨d, data, rfl⟩, ?_⟩
      simp only [operand, coerceEnumToUnderlying, hw, getD_some]
      cases p <;> cases hp <;> simp [isIntegral]
  | _ => exact .inl rfl

section

variable (d : TypeDescription) (data : List (BitVec 8))

lemma eq_valueType_left : eq O (.valueType d data) v2 = true ↔
    .valueType d data = v2 ∧ O.left.same O.right = true := by
  cases v2 <;> simp [eq]

lemma eq_valueType_right : eq O v1 (.valueType d data) = true ↔
    v1 = .valueType d data ∧ O.left.same O.right = true := by
  cases v1 <;> simp [eq]

end

lemma eq_self_of_integral {v : StackValue} (h : isIntegral v = true) : eq O v v = true := by
  cases v with
  | int32 v => simp [eq]
  | int64 v => simp [eq]
  | nativeInt v => simp [eq]
  | _ => cases h

lemma eq_operand_iff : eq O (operand O v1) (operand O v2) = eq O v1 v2 ↔ EnumsFaithful O v1 v2 := by
  -- with an enum among the operands, equality as they are is identity
  have hiff (hraw : eq O v1 v2 = true ↔ v1 = v2 ∧ O.left.same O.right = true)
      (hint : v1 = v2 → isIntegral (operand O v1) = true) :
      eq O (operand O v1) (operand O v2) = eq O v1 v2 ↔
        (eq O (operand O v1) (operand O v2) = true → v1 = v2 ∧ O.left.same O.right = true) := by
    rw [Bool.eq_iff_iff, hraw]
    refine ⟨Iff.mp, fun h => ⟨h, ?_⟩⟩
    rintro ⟨rfl, -⟩
    exact eq_self_of_integral (hint rfl)
  unfold EnumsFaithful
  rcases operand_cases (O := O) v1 with h1 | ⟨⟨d, data, hd⟩, hint, hne⟩
  · rcases operand_cases (O := O) v2 with h2 | ⟨⟨d, data, hd⟩, hint, hne⟩
    · simp [h1, h2]
    · simp only [hne, ne_eq, not_false_iff, or_true, forall_const]
      exact hiff (by rw [hd]; exact eq_valueType_right d data) fun h => h ▸ hint
  · simp only [hne, ne_eq, not_false_iff, true_or, forall_const]
    exact hiff (by rw [hd]; exact eq_valueType_left d data) fun _ => hint

omit [DecidableEq κ] in
lemma compareValues_eq_none (h : comparable v1 v2 = true) (sgn : NumberSign) :
    compareValues O v1 v2 sgn = none ↔ Unordered v1 v2 := by
  cases v1 <;> cases v2 <;> first
    | (simp [comparable] at h; done)
    | cases sgn <;> simp [compareValues, partialCmp, cmpSigned, cmpUnsigned, Unordered]

omit [DecidableEq κ] in
lemma compareValues_oppositeMode (sgn : NumberSign) :
    compareValues O v1 v2 (oppositeMode v1 v2 sgn) = compareValues O v1 v2 sgn := by
  cases v1 <;> cases v2 <;> cases sgn <;> rfl

/-- On operands of comparable kinds the branch and the compare instructions agree exactly if no two
floating-point numbers are unordered and no enum value equals another value by its integer. -/
theorem compare_agree_iff (h : comparable (operand O v1) (operand O v2) = true) :
    Agree O v1 v2 ↔ ¬Unordered (operand O v1) (operand O v2) ∧ EnumsFaithful O v1 v2 := by
  have hno := compareValues_eq_none (O := O) h
  rw [← eq_operand_iff]
  constructor
  · intro hagree
    refine ⟨fun hu => ?_, ?_⟩
    · have hbge := hagree.bge .signed
      rw [jumps_iff, pushes_zero_iff, Branch.cond, Compare.val, compareValues_oppositeMode,
        (hno .signed).mpr hu] at hbge
      simp at hbge
    · have hbeq := hagree.beq
      rw [jumps_iff, pushes_one_iff] at hbeq
      exact Bool.eq_iff_iff.mpr hbeq
  · rintro ⟨hord, heq⟩
    have hsome : ∀ sgn, ∃ o, compareValues O (operand O v1) (operand O v2) sgn = some o :=
      fun sgn => ne_none_iff_exists'.mp (mt (hno sgn).mp hord)
    refine ⟨?_, ?_, fun sgn => ?_, fun sgn => ?_, fun sgn => ?_, fun sgn => ?_,
      fun hu => absurd hu hord⟩ <;>
      simp only [jumps_iff, pushes_one_iff, pushes_zero_iff, Branch.cond, Compare.val,
        compareValues_oppositeMode, heq]
    · simp
    · obtain ⟨o, ho⟩ := hsome sgn
      cases o <;> simp [ho]
    · obtain ⟨o, ho⟩ := hsome sgn
      cases o <;> simp [ho]

end Agreement

lemma sampleHandle_nonnull : (4096#64) ≠ 0#64 := by decide

def sampleOperands : Operands Unit where
  host := ⟨fun _ => some .int32, Floats.narrow, Floats.widen, fun _ => 0, fun _ => none⟩
  pointer p :=
    if p.encoding = 0 then
      ⟨none, .heap (some ⟨4096#64, sampleHandle_nonnull, by decide⟩), 8, false, none_ne_zero⟩
    else ⟨nonNull 4104#64, .unmanaged, 0, false, nonNull_ne_zero _⟩
  storage := ⟨fun _ => none, fun _ => false, fun _ => 4096#64, fun _ => none, fun _ => none,
    fun _ => sampleHandle_nonnull⟩
  left := ⟨default, 0, false, false⟩
  right := ⟨default, 0, false, false⟩

theorem integers_agree : Agree sampleOperands (.int32 (-1)) (.nativeInt 1) :=
  (compare_agree_iff rfl).mpr ⟨id, fun h => absurd h (by decide)⟩

def nanValue : StackValue := .nativeFloat 0x7FF8000000000000

def enumOne : StackValue := .valueType ⟨⟨none⟩, 0⟩ [1, 0, 0, 0]

def laidOutTwice : Operands Unit := { sampleOperands with right := ⟨default, 1, false, false⟩ }

/-- On a NaN `bge` does not jump although `clt.un` pushes zero, and `blt.un` does not jump. An enum
value and its integer make `beq` jump, and `ceq` push zero; and so do equal enum values with layouts
of their own. -/
theorem nan_and_enum_disagree :
    (Branch.bge .signed).step sampleOperands 7 [nanValue, nanValue] = .next [] ∧
      (Compare.clt .unsigned).step sampleOperands [nanValue, nanValue] = .next [.int32 0] ∧
      (Branch.blt .unsigned).step sampleOperands 7 [nanValue, nanValue] = .next [] ∧
      Branch.beq.step sampleOperands 7 [.int32 1, enumOne] = .jump 7 [] ∧
      Compare.ceq.step sampleOperands [.int32 1, enumOne] = .next [.int32 0] ∧
      Branch.beq.step laidOutTwice 7 [enumOne, enumOne] = .jump 7 [] ∧
      Compare.ceq.step laidOutTwice [enumOne, enumOne] = .next [.int32 0] := by
  decide

section Addresses

variable {κ : Type} [DecidableEq κ] (O : Operands κ)

/-- A pointer or a native integer. -/
def NamesAddress (v : StackValue) : Prop := (pointerAddress O v).isSome = true

/-- Two managed pointers are equal exactly if they have one address. -/
def PlacesFaithful (v w : StackValue) : Prop :=
  ∀ p q, v = .managedPtr p → w = .managedPtr q →
    (samePlace O p q = true ↔ managedAddress O p = managedAddress O q)

/-- Exactly one of less, equal and greater. -/
def Trichotomous (v w : StackValue) : Prop :=
  ∀ sgn, ∃ o, compareValues O v w sgn = some o ∧ (o = .eq ↔ eq O v w = true)

/-- Equality is an equivalence on the values and agrees with both orders. -/
structure Lawful (vs : List StackValue) : Prop where
  refl : ∀ v ∈ vs, eq O v v = true
  symm : ∀ v ∈ vs, ∀ w ∈ vs, eq O v w = true → eq O w v = true
  trans : ∀ u ∈ vs, ∀ v ∈ vs, ∀ w ∈ vs, eq O u v = true → eq O v w = true → eq O u w = true
  trichotomy : ∀ v ∈ vs, ∀ w ∈ vs, Trichotomous O v w

variable {O} {v w : StackValue}

lemma cmp_eq_iff {n : Nat} (l r : BitVec n) :
    (compare l.toInt r.toInt = .eq ↔ l = r) ∧ (compare l.toNat r.toNat = .eq ↔ l = r) := by
  rw [compare_eq_iff_eq, compare_eq_iff_eq, BitVec.toInt_inj, BitVec.toNat_inj]
  exact ⟨Iff.rfl, Iff.rfl⟩

omit [DecidableEq κ] in
/-- Both orders are those of the addresses. -/
lemma compareValues_address (hv : NamesAddress O v) (hw : NamesAddress O w) (sgn : NumberSign) :
    ∃ o, compareValues O v w sgn = some o ∧
      (o = .eq ↔ pointerAddress O v = pointerAddress O w) := by
  cases v <;> cases w <;> first
    | (simp [NamesAddress, pointerAddress] at hv hw; done)
    | cases sgn <;>
        exact ⟨_, rfl, by simp only [pointerAddress, some.injEq, cmp_eq_iff]⟩

lemma eq_address_iff (hv : NamesAddress O v) (hw : NamesAddress O w) :
    (eq O v w = true ↔ pointerAddress O v = pointerAddress O w) ↔ PlacesFaithful O v w := by
  cases v <;> cases w <;> first
    | (simp [NamesAddress, pointerAddress] at hv hw; done)
    | simp [eq, pointerAddress, PlacesFaithful]

/-- On values that name addresses, equality is an equivalence that agrees with the orders exactly if
every two managed pointers among them are equal when their addresses are. -/
theorem address_laws_iff {vs : List StackValue} (hvs : ∀ v ∈ vs, NamesAddress O v) :
    Lawful O vs ↔ ∀ v ∈ vs, ∀ w ∈ vs, PlacesFaithful O v w := by
  constructor
  · intro hlaws v hv w hw
    obtain ⟨o, ho, heq⟩ := hlaws.trichotomy v hv w hw .signed
    obtain ⟨o', ho', haddr⟩ := compareValues_address (hvs v hv) (hvs w hw) .signed
    rw [ho] at ho'
    obtain rfl := some.inj ho'
    exact (eq_address_iff (hvs v hv) (hvs w hw)).mp (heq.symm.trans haddr)
  · intro hfaith
    have heq : ∀ v ∈ vs, ∀ w ∈ vs, eq O v w = true ↔ pointerAddress O v = pointerAddress O w :=
      fun v hv w hw => (eq_address_iff (hvs v hv) (hvs w hw)).mpr (hfaith v hv w hw)
    constructor
    · exact fun v hv => (heq v hv v hv).mpr rfl
    · exact fun v hv w hw h => (heq w hw v hv).mpr ((heq v hv w hw).mp h).symm
    · exact fun u hu v hv w hw huv hvw =>
        (heq u hu w hw).mpr (((heq u hu v hv).mp huv).trans ((heq v hv w hw).mp hvw))
    · intro v hv w hw sgn
      obtain ⟨o, ho, haddr⟩ := compareValues_address (hvs v hv) (hvs w hw) sgn
      exact ⟨o, ho, haddr.trans (heq v hv w hw).symm⟩

end Addresses

def ownedPlace : StackValue := .managedPtr ⟨0, false⟩

def cachedPlace : StackValue := .managedPtr ⟨1, false⟩

theorem one_place_lawful :
    Lawful sampleOperands [ownedPlace, .unmanagedPtr 4104, .nativeInt 4104] := by
  refine (address_laws_iff ?_).mpr ?_
  · simp [NamesAddress, pointerAddress, ownedPlace]
  · simp [PlacesFaithful, ownedPlace, samePlace]

/-- Two managed pointers to one address, one of them known by its object: both equal the native
integer of that address, but not each other, and neither is less than the other. -/
theorem one_address_two_places : eq sampleOperands ownedPlace (.nativeInt 4104) = true ∧
      eq sampleOperands (.nativeInt 4104) cachedPlace = true ∧
      eq sampleOperands ownedPlace cachedPlace = false ∧
      compareValues sampleOperands ownedPlace cachedPlace .signed = some .eq := by
  decide

end DotnetVm.RawMemory.Comparison
