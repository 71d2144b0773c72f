import Mathlib

/-!
# Tilings

A list of tiles laid end to end: each tile has to fit at the boundary the
previous one left, and leaves a boundary of its own. Boundaries and tiles are
arbitrary; a tiling is decomposed at an append and rebuilt with another tile in
the place of one that leaves the same boundary.
-/

namespace Tiling

variable {α β : Type} {fits : β → α → Prop} {after : α → β} {p : β} {as bs : List α} {a : α}

/-- Each tile fits at the boundary its predecessor left; the first one at `p`. -/
def Tiles (fits : β → α → Prop) (after : α → β) : β → List α → Prop
  | _, [] => True
  | p, a :: as => fits p a ∧ Tiles fits after (after a) as

def endOf (after : α → β) : β → List α → β
  | p, [] => p
  | _, a :: as => endOf after (after a) as

@[simp] lemma tiles_nil : Tiles fits after p [] := True.intro

@[simp] lemma tiles_cons :
    Tiles fits after p (a :: as) ↔ fits p a ∧ Tiles fits after (after a) as := Iff.rfl

@[simp] lemma endOf_nil : endOf after p [] = p := rfl

@[simp] lemma endOf_cons : endOf after p (a :: as) = endOf after (after a) as := rfl

@[simp] lemma endOf_append : endOf after p (as ++ bs) = endOf after (endOf after p as) bs := by
  induction as generalizing p with
  | nil => rfl
  | cons a as ih => exact ih

@[simp] lemma tiles_append : Tiles fits after p (as ++ bs) ↔
    Tiles fits after p as ∧ Tiles fits after (endOf after p as) bs := by
  induction as generalizing p with
  | nil => simp
  | cons a as ih => simp [ih, and_assoc]

lemma Tiles.adjacent {i : Nat} {b : α} (h : Tiles fits after p as) (ha : as[i]? = some a)
    (hb : as[i + 1]? = some b) : fits (after a) b := by
  induction as generalizing p i with
  | nil => simp at ha
  | cons c as ih =>
    cases i with
    | zero =>
      obtain rfl : c = a := by simpa using ha
      cases as with
      | nil => simp at hb
      | cons d as =>
        obtain rfl : d = b := by simpa using hb
        exact h.2.1
    | succ i => exact ih h.2 (by simpa using ha) (by simpa using hb)

end Tiling
