import Mathlib

/-!
# Numbers as bytes, and bytes in a block

The little-endian bytes of a number, and a block of bytes that is read and written
in windows: a window gives back what was written to it, and a write elsewhere does
not change it.
-/

namespace Bytes

open List

/-- The `n` lowest bytes of a number, the lowest one first. -/
def encode : Nat → Nat → List (BitVec 8)
  | 0, _ => []
  | n + 1, v => BitVec.ofNat 8 v :: encode n (v / 256)

def decode : List (BitVec 8) → Nat
  | [] => 0
  | b :: bs => b.toNat + 256 * decode bs

@[simp] lemma length_encode (n v : Nat) : (encode n v).length = n := by
  induction n generalizing v with
  | zero => rfl
  | succ n ih => simp [encode, ih]

lemma decode_encode (n v : Nat) : decode (encode n v) = v % 256 ^ n := by
  induction n generalizing v with
  | zero => simp [encode, decode, Nat.mod_one]
  | succ n ih =>
    simp only [encode, decode, ih]
    calc v % 2 ^ 8 + 256 * (v / 256 % 256 ^ n)
      _ = v % (256 * 256 ^ n) := (Nat.mod_mul ..).symm
      _ = v % 256 ^ (n + 1) := by rw [Nat.pow_succ']

/-- A word survives the way through its bytes. -/
lemma ofNat_decode_encode {w n : Nat} (hw : 2 ^ w = 256 ^ n) (v : BitVec w) :
    BitVec.ofNat w (decode (encode n v.toNat)) = v := by
  rw [decode_encode, ← hw, Nat.mod_eq_of_lt v.isLt]
  exact BitVec.ofNat_toNat w v |>.trans (BitVec.setWidth_eq v)

lemma decode_lt (bs : List (BitVec 8)) : decode bs < 256 ^ bs.length := by
  induction bs with
  | nil => exact Nat.one_pos
  | cons b bs ih =>
    rw [decode, length_cons]
    omega

section Block

variable {mem bs : List (BitVec 8)} {offset o n : Nat}

section

variable (mem : List (BitVec 8))

/-- The window of `size` bytes at `offset`. -/
def load (offset size : Nat) : List (BitVec 8) := (mem.drop offset).take size

/-- The block with `bs` written at `offset`. -/
def store (offset : Nat) (bs : List (BitVec 8)) : List (BitVec 8) :=
  mem.take offset ++ bs ++ mem.drop (offset + bs.length)

lemma getElem?_load (offset size i : Nat) :
    (load mem offset size)[i]? = if i < size then mem[offset + i]? else none := by
  rw [load, getElem?_take, getElem?_drop]

end

section

variable (h : offset + bs.length ≤ mem.length)
include h

lemma length_store : (store mem offset bs).length = mem.length := by
  simp only [store, length_append, length_take, length_drop]
  omega

lemma getElem?_store (i : Nat) : (store mem offset bs)[i]? =
      if offset ≤ i ∧ i < offset + bs.length then bs[i - offset]? else mem[i]? := by
  have htake : (mem.take offset).length = offset := by rw [length_take]; omega
  unfold store
  by_cases hlow : i < offset
  · rw [if_neg (by omega), append_assoc, getElem?_append_left (by omega),
      getElem?_take_of_lt hlow]
  · by_cases hin : i < offset + bs.length
    · rw [if_pos ⟨by omega, hin⟩, getElem?_append_left (by rw [length_append]; omega),
        getElem?_append_right (by omega), htake]
    · rw [if_neg (by omega), getElem?_append_right (by rw [length_append]; omega),
        getElem?_drop, length_append]
      congr 1
      omega

lemma load_store_same : load (store mem offset bs) offset bs.length = bs := by
  refine ext_getElem? fun i => ?_
  rw [getElem?_load, getElem?_store h]
  by_cases hi : i < bs.length
  · rw [if_pos hi, if_pos ⟨by omega, by omega⟩, Nat.add_sub_cancel_left]
  · rw [if_neg hi, getElem?_eq_none (by omega)]

lemma load_store_apart (hap : o + n ≤ offset ∨ offset + bs.length ≤ o) :
    load (store mem offset bs) o n = load mem o n := by
  refine ext_getElem? fun i => ?_
  rw [getElem?_load, getElem?_load, getElem?_store h]
  by_cases hi : i < n
  · rw [if_pos hi, if_pos hi, if_neg (by omega)]
  · rw [if_neg hi, if_neg hi]

end

lemma load_replicate (v : BitVec 8) (h : offset + n ≤ size) :
    load (List.replicate size v) offset n = List.replicate n v := by
  simp only [load, drop_replicate, take_replicate]
  congr 1
  omega

end Block

end Bytes
