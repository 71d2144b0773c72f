import DotnetVm.Pointers.Codec

/-!
# Moving a managed pointer

A managed pointer moves by a number of bytes. With a managed origin the offset must
stay in 32 bits, and moving twice is moving by the sum. An unmanaged pointer moves
by its address; the offset stays beside it while it is compact, and becomes the
address once it is not. Where the two differ, the way matters.
-/

namespace DotnetVm

lemma none_ne_zero : (none : Option (BitVec 64)) ≠ some 0#64 := Option.some_ne_none _ |>.symm

inductive ManagedPtrOffsetError where
  | negativeResult
  | arithmeticOverflow
  | compactRangeExceeded
  | nullCachedAddress
  deriving DecidableEq, Repr

namespace ManagedPtr

variable {κ : Type} {p q r r' : ManagedPtr κ} {a b : BitVec 64}

section

variable (p : ManagedPtr κ)

/-- An unmanaged pointer is null when it has no address, one into the heap when it has no owner. -/
def isNull : Bool :=
  match p.origin with
  | .unmanaged => p.value.isNone
  | .heap owner => owner.isNone
  | _ => false

lemma join_ne_zero {address : Option (BitVec 64)} {bytes : BitVec 64} :
    (address.bind fun v => nonNull (v + bytes)) ≠ some 0#64 := by
  cases address with
  | none => simp
  | some v => exact nonNull_ne_zero _

/-- `pack_offset` of an unmanaged pointer. -/
def packUnmanaged (x : BitVec 64) : BitVec 32 :=
  if x.toNat < 2 ^ 32 then x.setWidth 32 else 0#32

/-- The displacement of an unmanaged pointer. -/
def offsetUnmanaged (bytes : BitVec 64) : ManagedPtr κ :=
  let newOffset := p.byteOffset + bytes
  let packed := packUnmanaged newOffset
  let inlined := packed.setWidth 64 == newOffset
  match p.value with
  | none =>
    if p.byteOffset = 0#64 then
      if newOffset = 0#64 then p
      else ⟨nonNull newOffset, p.origin, packed, inlined, nonNull_ne_zero _⟩
    else ⟨none, p.origin, packed, inlined, none_ne_zero⟩
  | some v =>
    if v + bytes = 0#64 then ⟨none, p.origin, 0#32, true, none_ne_zero⟩
    else ⟨nonNull (v + bytes), p.origin, packed, inlined, nonNull_ne_zero _⟩

/-- `checked_offset`; a number of bytes is signed. -/
def checkedOffset (bytes : BitVec 64) : Except ManagedPtrOffsetError (ManagedPtr κ) :=
  match p.origin with
  | .unmanaged => .ok (p.offsetUnmanaged bytes)
  | _ =>
    let result := (p.byteOffset.toNat : Int) + bytes.toInt
    if 2 ^ 63 ≤ result then .error .arithmeticOverflow
    else if result < 0 then .error .negativeResult
    else if 2 ^ 32 ≤ result then .error .compactRangeExceeded
    else if p.value.map (· + bytes) = some 0#64 then .error .nullCachedAddress
    else .ok ⟨p.value.bind fun v => nonNull (v + bytes), p.origin, BitVec.ofInt 32 result, false,
      join_ne_zero⟩

end

/-- The address and the offset of an unmanaged pointer that moves. -/
def moved : Option (BitVec 64) → BitVec 64 → BitVec 64 → Option (BitVec 64) × BitVec 64
  | none, x, a =>
    if x = 0#64 then (nonNull a, a) else (none, if (x + a).toNat < 2 ^ 32 then x + a else 0#64)
  | some v, x, a =>
    if v + a = 0#64 then (none, 0#64)
    else (some (v + a), if (x + a).toNat < 2 ^ 32 then x + a else v + a)

lemma nonNull_of_ne {addr : BitVec 64} (h : addr ≠ 0#64) : nonNull addr = some addr := if_neg h

section

variable (value : Option (BitVec 64))

lemma byteOffset_packed (x : BitVec 64) (h : value ≠ some 0#64) :
    (⟨value, .unmanaged, packUnmanaged x, (packUnmanaged x).setWidth 64 == x, h⟩ :
        ManagedPtr κ).byteOffset = if x.toNat < 2 ^ 32 then x else value.getD 0#64 := by
  unfold byteOffset packUnmanaged
  by_cases hx : x.toNat < 2 ^ 32
  · have hsm : (x.setWidth 32).setWidth 64 = x := by
      apply BitVec.eq_of_toNat_eq
      rw [BitVec.toNat_setWidth, BitVec.toNat_setWidth]
      omega
    rw [if_pos hx, if_pos hx, hsm]
    exact if_pos (beq_self_eq_true x)
  · have hne : (BitVec.setWidth 64 0#32 == x) = false := by
      rw [beq_eq_false_iff_ne]
      rintro rfl
      exact hx (by decide)
    rw [if_neg hx, if_neg hx, hne]
    rfl

lemma offsetUnmanaged_moved (h : p.origin = .unmanaged) (a : BitVec 64) :
    (p.offsetUnmanaged a).value = (moved p.value p.byteOffset a).1 ∧
      (p.offsetUnmanaged a).byteOffset = (moved p.value p.byteOffset a).2 ∧
      (p.offsetUnmanaged a).origin = .unmanaged := by
  unfold offsetUnmanaged moved
  rw [h]
  cases hv : p.value with
  | none =>
    by_cases hx : p.byteOffset = 0#64
    · rw [hx, BitVec.zero_add]
      by_cases ha : a = 0#64
      · simp [ha, hv, hx, h, nonNull]
      · simp [ha, byteOffset_packed, nonNull_of_ne ha]
    · simp [hx, byteOffset_packed]
  | some v =>
    by_cases hva : v + a = 0#64
    · simp [hva, byteOffset]
    · simp [hva, byteOffset_packed, nonNull_of_ne hva]

/-- The unmanaged pointers and displacements for which the way does not matter. -/
def SameWay (x a b : BitVec 64) : Prop :=
  match value with
  | none => x = 0#64 ∨ b = 0#64 ∨ (x + a ≠ 0#64 ∧ (x + a).toNat < 2 ^ 32)
  | some v => x = v ∨ v + a + b = 0#64 ∨ 2 ^ 32 ≤ (x + a + b).toNat ∨
      (v + a ≠ 0#64 ∧ (x + a).toNat < 2 ^ 32)

lemma moved_nonNull (a b : BitVec 64) : moved (nonNull a) a b = (nonNull (a + b), a + b) := by
  unfold nonNull
  by_cases ha : a = 0#64
  · rw [ha, BitVec.zero_add]
    rfl
  · rw [if_neg ha, moved, ite_self]
    by_cases hab : a + b = 0#64
    · rw [if_pos hab, if_pos hab, hab]
    · rw [if_neg hab, if_neg hab]

lemma moved_null (b : BitVec 64) : moved none 0#64 b = (nonNull b, b) := by
  rw [moved, if_pos rfl]

lemma moved_moved_iff (x a b : BitVec 64) :
    moved (moved value x a).1 (moved value x a).2 b = moved value x (a + b) ↔
      SameWay value x a b := by
  cases value with
  | none =>
    by_cases hx : x = 0#64
    · refine iff_of_true ?_ (Or.inl hx)
      simp only [hx]
      exact moved_nonNull a b
    · have hsum : moved none x (a + b) =
          (none, if (x + a + b).toNat < 2 ^ 32 then x + a + b else 0#64) := by
        rw [moved, if_neg hx, BitVec.add_assoc]
      -- the offset was lost on the way, or came to zero: the pointer has become null
      have hnull (h : x + a ≠ 0#64 → ¬(x + a).toNat < 2 ^ 32) :
          moved none 0#64 b = moved none x (a + b) ↔ b = 0#64 := by
        rw [hsum, moved_null]
        by_cases hb : b = 0#64
        · refine iff_of_true ?_ hb
          rw [hb, BitVec.add_zero]
          by_cases hy : x + a = 0#64
          · rw [hy]
            rfl
          · rw [if_neg (h hy)]
            rfl
        · rw [nonNull_of_ne hb]
          exact iff_of_false (by simp) hb
      rw [SameWay, or_iff_right hx]
      by_cases hy : x + a ≠ 0#64 ∧ (x + a).toNat < 2 ^ 32
      · refine iff_of_true ?_ (Or.inr hy)
        simp only [moved, hx, hy.1, hy.2, if_true, if_false, BitVec.add_assoc]
      · rw [or_iff_left hy, ← hnull fun h0 hlt => hy ⟨h0, hlt⟩]
        have hfst : moved none x a = (none, 0#64) := by
          rw [moved, if_neg hx]
          split
          next hlt =>
            by_contra hne
            exact hy ⟨fun h0 => hne (by rw [h0]), hlt⟩
          · rfl
        rw [hfst]
  | some v =>
    have hsum : moved (some v) x (a + b) = if v + a + b = 0#64 then (none, 0#64)
        else (some (v + a + b), if (x + a + b).toNat < 2 ^ 32 then x + a + b else v + a + b) := by
      rw [moved, BitVec.add_assoc, BitVec.add_assoc]
    have hcancel : x + a + b = v + a + b ↔ x = v := by
      rw [BitVec.add_assoc, BitVec.add_assoc, BitVec.add_left_inj]
    -- after the way the offset is the address
    have habsolute : (nonNull (v + a + b), v + a + b) = moved (some v) x (a + b) ↔
        x = v ∨ v + a + b = 0#64 ∨ 2 ^ 32 ≤ (x + a + b).toNat := by
      rw [hsum]
      by_cases h0 : v + a + b = 0#64
      · rw [h0]
        exact iff_of_true rfl (Or.inr (Or.inl rfl))
      · rw [if_neg h0, nonNull_of_ne h0]
        by_cases hlt : (x + a + b).toNat < 2 ^ 32
        · rw [if_pos hlt, Prod.mk.injEq, ← hcancel]
          constructor
          · exact fun h => Or.inl h.2.symm
          · rintro (h | h | h)
            · exact ⟨rfl, h.symm⟩
            · exact absurd h h0
            · omega
        · rw [if_neg hlt]
          exact iff_of_true rfl (Or.inr (Or.inr (by omega)))
    rw [SameWay, ← or_assoc, ← or_assoc, or_assoc (a := x = v)]
    by_cases hkept : v + a ≠ 0#64 ∧ (x + a).toNat < 2 ^ 32
    · refine iff_of_true ?_ (Or.inr hkept)
      rw [hsum]
      simp only [moved, hkept.1, hkept.2, if_true, if_false]
    · rw [or_iff_left hkept, ← habsolute]
      by_cases hva : v + a = 0#64
      · have hfst : moved (some v) x a = (none, 0#64) := by rw [moved, if_pos hva]
        rw [hfst, moved_null, hva, BitVec.zero_add]
      · have hfst : moved (some v) x a = (nonNull (v + a), v + a) := by
          rw [moved, if_neg hva, if_neg fun hlt => hkept ⟨hva, hlt⟩, nonNull_of_ne hva]
        rw [hfst, moved_nonNull]

end

section

variable (h : p.origin ≠ .unmanaged) (hq : p.checkedOffset a = .ok q)
include h hq

lemma checkedOffset_managed :
    q.origin = p.origin ∧ q.value = p.value.map (· + a) ∧
      (q.byteOffset.toNat : Int) = p.byteOffset.toNat + a.toInt ∧ q.byteOffset.toNat < 2 ^ 32 := by
  have hform : ∃ result : Int, result = p.byteOffset.toNat + a.toInt ∧ 0 ≤ result ∧
      result < 2 ^ 32 ∧ p.value.map (· + a) ≠ some 0#64 ∧
      q = ⟨p.value.bind fun v => nonNull (v + a), p.origin, BitVec.ofInt 32 result, false,
        join_ne_zero⟩ := by
    unfold checkedOffset at hq
    split at hq
    next horig => exact absurd horig h
    · dsimp only at hq
      split_ifs at hq with hover hneg hlarge hnull
      refine ⟨_, rfl, by omega, by omega, hnull, ?_⟩
      exact (Except.ok.inj hq).symm
  obtain ⟨result, hres, hlow, hhigh, hnull, rfl⟩ := hform
  have hoff : ((BitVec.ofInt 32 result).setWidth 64).toNat = result.toNat := by
    rw [BitVec.toNat_setWidth, BitVec.toNat_ofInt]
    omega
  have hbytes (w : Option (BitVec 64)) (hw : w ≠ some 0#64) :
      (⟨w, p.origin, BitVec.ofInt 32 result, false, hw⟩ : ManagedPtr κ).byteOffset =
        (BitVec.ofInt 32 result).setWidth 64 := by
    unfold byteOffset
    split
    next horig => exact absurd horig h
    · rfl
  refine ⟨rfl, ?_, ?_, ?_⟩
  · cases hv : p.value with
    | none => rfl
    | some v =>
      rw [hv] at hnull
      exact nonNull_of_ne fun hz => hnull (congrArg some hz)
  · rw [hbytes]
    omega
  · rw [hbytes]
    omega

lemma checkedOffset_add (hr : q.checkedOffset b = .ok r) (hsum : p.checkedOffset (a + b) = .ok r') :
    r.origin = r'.origin ∧ r.byteOffset = r'.byteOffset ∧ r.value = r'.value := by
  obtain ⟨horig, hval, hoff, hlt⟩ := checkedOffset_managed h hq
  have hq' : q.origin ≠ .unmanaged := by rw [horig]; exact h
  obtain ⟨horig₂, hval₂, hoff₂, hlt₂⟩ := checkedOffset_managed hq' hr
  obtain ⟨horig₃, hval₃, hoff₃, hlt₃⟩ := checkedOffset_managed h hsum
  refine ⟨by rw [horig₂, horig, horig₃], ?_, ?_⟩
  · -- the two offsets agree modulo `2 ^ 64`, and both are compact
    have hadd : (a + b).toInt % 2 ^ 64 = (a.toInt + b.toInt) % 2 ^ 64 := by
      rw [BitVec.toInt_add]
      exact Int.bmod_emod
    apply BitVec.eq_of_toNat_eq
    omega
  · rw [hval₂, hval, hval₃]
    cases p.value with
    | none => rfl
    | some v => exact congrArg some (BitVec.add_assoc v a b)

end

/-- Moving a pointer twice gives the pointer moved by the sum exactly if its origin is managed or
the way does not matter. -/
theorem offsets_additive_iff (p q r r' : ManagedPtr κ) (a b : BitVec 64)
    (hq : p.checkedOffset a = .ok q) (hr : q.checkedOffset b = .ok r)
    (hsum : p.checkedOffset (a + b) = .ok r') :
    (r.origin = r'.origin ∧ r.byteOffset = r'.byteOffset ∧ r.value = r'.value ∧
        r.isNull = r'.isNull) ↔
      (p.origin = .unmanaged → SameWay p.value p.byteOffset a b) := by
  have hnull (horig : r.origin = r'.origin) (hval : r.value = r'.value) :
      r.isNull = r'.isNull := by rw [isNull, isNull, horig, hval]
  by_cases h : p.origin = .unmanaged
  · have hst {p q : ManagedPtr κ} {a : BitVec 64} (h : p.origin = .unmanaged)
        (hq : p.checkedOffset a = .ok q) : q = p.offsetUnmanaged a := by
      unfold checkedOffset at hq
      rw [h] at hq
      exact (Except.ok.inj hq).symm
    obtain ⟨hval, hoff, horig⟩ := offsetUnmanaged_moved h a
    obtain rfl := hst h hq
    obtain ⟨hval₂, hoff₂, horig₂⟩ := offsetUnmanaged_moved horig b
    obtain rfl := hst horig hr
    obtain ⟨hval₃, hoff₃, horig₃⟩ := offsetUnmanaged_moved h (a + b)
    obtain rfl := hst h hsum
    rw [← moved_moved_iff, Prod.ext_iff]
    simp only [hval₂, hoff₂, hval₃, hoff₃, hval, hoff, h, true_implies]
    constructor
    · exact fun hsm => ⟨hsm.2.2.1, hsm.2.1⟩
    · intro hsm
      have horigins := horig₂.trans horig₃.symm
      refine ⟨horigins, hsm.2, hsm.1, hnull horigins ?_⟩
      rw [hval₂, hval₃, hval, hoff]
      exact hsm.1
  · obtain ⟨horig, hoff, hval⟩ := checkedOffset_add h hq hr hsum
    exact iff_of_true ⟨horig, hoff, hval, hnull horig hval⟩ fun h' => absurd h' h

end ManagedPtr

def besideAddress : ManagedPtr Unit :=
  ⟨nonNull 4096#64, .unmanaged, 8#32, true, nonNull_ne_zero _⟩

theorem besideAddress_forward :
    let p := besideAddress
    let q := p.offsetUnmanaged 8
    (q.offsetUnmanaged 8).byteOffset = (p.offsetUnmanaged 16).byteOffset :=
  ((ManagedPtr.offsets_additive_iff besideAddress _ _ _ 8 8 rfl rfl rfl).mpr
    fun _ => .inr (.inr (.inr ⟨by decide, by decide⟩))).2.1

/-- Nine bytes back and nine forward change the offset into the address. -/
theorem besideAddress_back_and_forth : besideAddress.byteOffset = 8 ∧
      ((besideAddress.checkedOffset (-9)).bind fun q => q.checkedOffset 9).map
        ManagedPtr.byteOffset = .ok 4096 ∧
      (besideAddress.checkedOffset (-9 + 9)).map ManagedPtr.byteOffset = .ok 8 := by
  exact ⟨rfl, rfl, rfl⟩

end DotnetVm
