import Mathlib

/-!
# Comparing and hashing strings without regard to case

`String.Equals` with a comparison that ignores case compares the characters of the
code units in ASCII upper case; `GetHashCodeOrdinalIgnoreCase` hashes the decoded
string in upper case. No surrogate is a character, so the comparison takes any two
of them for equal: its answer is wrong exactly for strings of one length that hold
different surrogates at one place and are equal up to ASCII case everywhere else.
-/

namespace DotnetVm.Strings

open List

inductive Operand where
  | null
  | str (units : List Nat)
  | otherObject
  deriving DecidableEq

def isSurrogate (unit : Nat) : Bool := decide (0xD800 ≤ unit ∧ unit < 0xE000)

/-- `char::from_u32`. -/
def fromU32 (unit : Nat) : Option Nat := if isSurrogate unit then none else some unit

def toAsciiUppercase (c : Nat) : Nat := if 0x61 ≤ c ∧ c ≤ 0x7A then c - 0x20 else c

def stringComparisonIgnoreCase (comparison : Int) : Bool := decide (comparison ∈ [1, 3, 5])

def stringSlicesEqualWithComparison (a b : List Nat) (ignoreCase : Bool) : Bool :=
  if ignoreCase then
    (a.zip b).all fun (x, y) =>
      (fromU32 x).map toAsciiUppercase == (fromU32 y).map toAsciiUppercase
  else a == b

def stringEqualsComparison (comparison : Int) : Operand → Operand → Bool
  | .null, .null => true
  | .str a, .str b => a.length == b.length &&
    stringSlicesEqualWithComparison a b (stringComparisonIgnoreCase comparison)
  | _, _ => false

/-- `String::from_utf16_lossy`: a surrogate that is not the first or second of a pair becomes the
replacement character. -/
def fromUtf16Lossy : List Nat → List Nat
  | [] => []
  | [u] => [if isSurrogate u then 0xFFFD else u]
  | u :: v :: rest =>
    if isSurrogate u = false then u :: fromUtf16Lossy (v :: rest)
    else if u < 0xDC00 ∧ 0xDC00 ≤ v ∧ v < 0xE000 then
      (0x10000 + u % 0x400 * 0x400 + v % 0x400) :: fromUtf16Lossy rest
    else 0xFFFD :: fromUtf16Lossy (v :: rest)

/-- The upper case of a character, which is one character for ASCII, and the hash of a string. -/
structure Host where
  toUppercase : Nat → List Nat
  toUppercase_ascii : ∀ c < 128, toUppercase c = [toAsciiUppercase c]
  hash : List Nat → BitVec 64

/-- The string is copied in pieces of 1024 units; without a stop request between them the copy is
the string. -/
def stringGetHashCodeOrdinalIgnoreCase (host : Host) : Operand → Option (BitVec 32)
  | .null => some ((host.hash []).setWidth 32)
  | .str units => some ((host.hash ((fromUtf16Lossy units).flatMap host.toUppercase)).setWidth 32)
  | .otherObject => none

lemma fromU32_eq_iff {u v : Nat} :
    (fromU32 u).map toAsciiUppercase = (fromU32 v).map toAsciiUppercase ↔
      (isSurrogate u = true ∧ isSurrogate v = true) ∨ toAsciiUppercase u = toAsciiUppercase v := by
  unfold fromU32
  cases hu : isSurrogate u <;> cases hv : isSurrogate v
  · simp
  -- the upper case of a character is no surrogate
  · simp [isSurrogate, toAsciiUppercase] at hu hv ⊢
    split_ifs <;> omega
  · simp [isSurrogate, toAsciiUppercase] at hu hv ⊢
    split_ifs <;> omega
  · simp

lemma isSurrogate_upper (u : Nat) : isSurrogate (toAsciiUppercase u) = isSurrogate u := by
  unfold isSurrogate toAsciiUppercase
  refine decide_eq_decide.mpr ?_
  split_ifs <;> omega

lemma upper_of_lt {c : Nat} (h : 0x7A < c) : toAsciiUppercase c = c := if_neg (by omega)

lemma upper_of_isSurrogate {u : Nat} (h : ¬ isSurrogate u = false) : toAsciiUppercase u = u := by
  simp only [isSurrogate, decide_eq_false_iff_not, not_not] at h
  exact upper_of_lt (by omega)

lemma fromUtf16Lossy_upper (units : List Nat) :
    fromUtf16Lossy (units.map toAsciiUppercase) = (fromUtf16Lossy units).map toAsciiUppercase := by
  fun_induction fromUtf16Lossy units with
  | case1 => rfl
  | case2 u =>
    rw [map_singleton, fromUtf16Lossy, isSurrogate_upper]
    cases isSurrogate u <;> rfl
  | case3 u v rest hu ih =>
    rw [map_cons, map_cons, fromUtf16Lossy, isSurrogate_upper, if_pos hu, ← map_cons, ih, map_cons]
  | case4 u v rest hu hpair ih =>
    have hv : toAsciiUppercase v = v := upper_of_lt (by omega)
    rw [map_cons, map_cons, fromUtf16Lossy, upper_of_isSurrogate hu, hv, if_neg hu,
      if_pos hpair, ih,
      map_cons, upper_of_lt (by omega)]
  | case5 u v rest hu hpair ih =>
    have hpair' : ¬ (u < 0xDC00 ∧ 0xDC00 ≤ toAsciiUppercase v ∧ toAsciiUppercase v < 0xE000) := by
      unfold toAsciiUppercase
      split_ifs <;> omega
    rw [map_cons, map_cons, fromUtf16Lossy, upper_of_isSurrogate hu, if_neg hu, if_neg hpair',
      ← map_cons, ih, map_cons, upper_of_lt (by decide)]

lemma toUppercase_upper (host : Host) (c : Nat) :
    host.toUppercase (toAsciiUppercase c) = host.toUppercase c := by
  by_cases hc : 0x61 ≤ c ∧ c ≤ 0x7A
  · have hupper : toAsciiUppercase c = c - 0x20 := if_pos hc
    have hkept : toAsciiUppercase (c - 0x20) = c - 0x20 := if_neg (by omega)
    rw [host.toUppercase_ascii c (by omega), hupper, host.toUppercase_ascii _ (by omega), hkept]
  · rw [toAsciiUppercase, if_neg hc]

lemma map_upper_eq_iff {a b : List Nat} :
    a.map toAsciiUppercase = b.map toAsciiUppercase ↔ a.length = b.length ∧
      ∀ p ∈ a.zip b, toAsciiUppercase p.1 = toAsciiUppercase p.2 := by
  rw [← forall₂_eq_eq_eq, forall₂_map_left_iff, forall₂_map_right_iff, forall₂_iff_zip]
  exact and_congr_right fun _ => ⟨fun h p hp => h hp, fun h _ _ hp => h _ hp⟩

lemma stringEqualsComparison_iff {comparison : Int} {a b : List Nat}
    (hcase : stringComparisonIgnoreCase comparison = true) :
    stringEqualsComparison comparison (.str a) (.str b) = true ↔ a.length = b.length ∧
      ∀ p ∈ a.zip b, (isSurrogate p.1 = true ∧ isSurrogate p.2 = true) ∨
        toAsciiUppercase p.1 = toAsciiUppercase p.2 := by
  simp only [stringEqualsComparison, hcase, stringSlicesEqualWithComparison, if_true,
    Bool.and_eq_true, beq_iff_eq, all_eq_true, fromU32_eq_iff]

lemma hash_eq_of_upper_eq (host : Host) {a b : List Nat}
    (h : a.map toAsciiUppercase = b.map toAsciiUppercase) :
    stringGetHashCodeOrdinalIgnoreCase host (.str a) =
      stringGetHashCodeOrdinalIgnoreCase host (.str b) := by
  have hdecoded := congrArg fromUtf16Lossy h
  rw [fromUtf16Lossy_upper, fromUtf16Lossy_upper] at hdecoded
  have hupper : ∀ l : List Nat,
      (l.map toAsciiUppercase).flatMap host.toUppercase = l.flatMap host.toUppercase := by
    simp [flatMap_map, toUppercase_upper]
  rw [stringGetHashCodeOrdinalIgnoreCase, stringGetHashCodeOrdinalIgnoreCase, ← hupper, hdecoded,
    hupper]

/-- Surrogates at one place are the same, or the strings differ in length or at a place where not
both hold surrogates. -/
def SurrogatesSettled (a b : List Nat) : Prop :=
  (∀ p ∈ a.zip b, isSurrogate p.1 = true → isSurrogate p.2 = true → p.1 = p.2) ∨
    a.length ≠ b.length ∨ ∃ p ∈ a.zip b, ¬(isSurrogate p.1 = true ∧ isSurrogate p.2 = true) ∧
      toAsciiUppercase p.1 ≠ toAsciiUppercase p.2

/-- Equality without regard to case is equality of the units in ASCII upper case, and implies
equality of the hash codes, exactly if the surrogates are settled. -/
theorem ignore_case_coherent_iff (host : Host) (comparison : Int) (a b : List Nat)
    (hcase : stringComparisonIgnoreCase comparison = true) :
    ((stringEqualsComparison comparison (.str a) (.str b) = true ↔
        a.map toAsciiUppercase = b.map toAsciiUppercase) ∧
      (stringEqualsComparison comparison (.str a) (.str b) = true →
        stringGetHashCodeOrdinalIgnoreCase host (.str a) =
          stringGetHashCodeOrdinalIgnoreCase host (.str b))) ↔ SurrogatesSettled a b := by
  constructor
  · rintro ⟨hequal, -⟩
    rw [stringEqualsComparison_iff hcase, map_upper_eq_iff] at hequal
    by_contra hno
    simp only [SurrogatesSettled, not_or, not_exists, not_and, not_not] at hno
    obtain ⟨hdiffer, hlen, helsewhere⟩ := hno
    refine hdiffer fun p hp hsur hsur' => ?_
    have hall := hequal.mp ⟨hlen, fun q hq => or_iff_not_imp_left.mpr fun hq' =>
      helsewhere q hq (not_and.mp hq')⟩
    have hup := hall.2 p hp
    rwa [upper_of_isSurrogate (by simp [hsur]), upper_of_isSurrogate (by simp [hsur'])] at hup
  · intro hsettled
    have hequal : stringEqualsComparison comparison (.str a) (.str b) = true ↔
        a.map toAsciiUppercase = b.map toAsciiUppercase := by
      rw [stringEqualsComparison_iff hcase, map_upper_eq_iff]
      refine ⟨fun ⟨hlen, hall⟩ => ⟨hlen, fun p hp => ?_⟩,
        fun ⟨hlen, hall⟩ => ⟨hlen, fun p hp => .inr (hall p hp)⟩⟩
      rcases hsettled with hsame | hlen' | ⟨q, hq, hnot, hup⟩
      · rcases hall p hp with ⟨hsur, hsur'⟩ | hup
        · rw [hsame p hp hsur hsur']
        · exact hup
      · exact absurd hlen hlen'
      · exact absurd ((hall q hq).resolve_left hnot) hup
    exact ⟨hequal, fun h => hash_eq_of_upper_eq host (hequal.mp h)⟩

def asciiHost : Host := ⟨fun c => [toAsciiUppercase c], fun _ _ => rfl, fun l => l.sum⟩

theorem letters_coherent :
    stringEqualsComparison 5 (.str [0x61, 0xDF]) (.str [0x41, 0xDF]) = true ∧
      stringGetHashCodeOrdinalIgnoreCase asciiHost (.str [0x61, 0xDF]) =
        stringGetHashCodeOrdinalIgnoreCase asciiHost (.str [0x41, 0xDF]) :=
  ⟨by decide, ((ignore_case_coherent_iff asciiHost 5 _ _ (by decide)).mpr (.inl (by decide))).2
    (by decide)⟩

/-- All surrogates are equal to the comparison; a pair is hashed as a character, two first halves
as two replacement characters. -/
theorem surrogates_taken_for_equal :
    stringEqualsComparison 5 (.str [0xD800, 0xDC00]) (.str [0xD800, 0xD800]) = true ∧
      [0xD800, 0xDC00].map toAsciiUppercase ≠ [0xD800, 0xD800].map toAsciiUppercase ∧
      fromUtf16Lossy [0xD800, 0xDC00] = [0x10000] ∧
      fromUtf16Lossy [0xD800, 0xD800] = [0xFFFD, 0xFFFD] := by
  decide

end DotnetVm.Strings
