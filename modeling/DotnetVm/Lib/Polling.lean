import Mathlib

/-!
# Work that polls for a pause between its pieces

A list of pieces of work is done one after the other; between two pieces a poll
may ask for a pause. The answers to the polls are a function of their number.
-/

namespace Polling

/-- How far the work got. -/
inductive Progress (ε : Type) where
  | finished
  | failed (e : ε)
  | paused
  deriving DecidableEq, Repr

variable {σ ε : Type}

def work (stops : Nat → Bool) : Nat → List (σ → Except ε σ) → σ → Progress ε × σ × Nat
  | p, [], s => (.finished, s, p)
  | p, [piece], s =>
    match piece s with
    | .error e => (.failed e, s, p)
    | .ok s => (.finished, s, p)
  | p, piece :: next :: rest, s =>
    match piece s with
    | .error e => (.failed e, s, p)
    | .ok s => if stops p then (.paused, s, p + 1) else work stops (p + 1) (next :: rest) s

/-- No poll that the work makes is answered with a pause. -/
def Unstopped (stops : Nat → Bool) : Nat → List (σ → Except ε σ) → σ → Prop
  | p, piece :: next :: rest, s =>
    match piece s with
    | .error _ => True
    | .ok s => stops p = false ∧ Unstopped stops (p + 1) (next :: rest) s
  | _, _, _ => True

variable {stops : Nat → Bool} {pieces : List (σ → Except ε σ)}

lemma work_paused_iff {p : Nat} {s : σ} :
    (work stops p pieces s).1 = .paused ↔ ¬ Unstopped stops p pieces s := by
  induction pieces generalizing p s with
  | nil => simp [work, Unstopped]
  | cons piece rest ih =>
    cases rest with
    | nil =>
      simp only [work, Unstopped]
      cases piece s <;> simp
    | cons next rest =>
      simp only [work, Unstopped]
      cases piece s with
      | error e => simp
      | ok s =>
        cases hstop : stops p with
        | true => simp
        | false => simpa using ih

lemma work_unstopped {p q : Nat} {s : σ} (h : Unstopped stops p pieces s) :
    (work stops p pieces s).1 = (work (fun _ => false) q pieces s).1 ∧
      (work stops p pieces s).2.1 = (work (fun _ => false) q pieces s).2.1 := by
  induction pieces generalizing p q s with
  | nil => exact ⟨rfl, rfl⟩
  | cons piece rest ih =>
    cases rest with
    | nil =>
      simp only [work]
      cases piece s <;> exact ⟨rfl, rfl⟩
    | cons next rest =>
      simp only [work, Unstopped] at h ⊢
      cases hpiece : piece s with
      | error e => exact ⟨rfl, rfl⟩
      | ok s =>
        simp only [hpiece] at h
        simpa [h.1] using ih h.2

lemma unstopped_never (p : Nat) (pieces : List (σ → Except ε σ)) (s : σ) :
    Unstopped (fun _ => false) p pieces s := by
  induction pieces generalizing p s with
  | nil => trivial
  | cons piece rest ih =>
    cases rest with
    | nil => trivial
    | cons next rest =>
      simp only [Unstopped]
      cases piece s with
      | error e => trivial
      | ok s => exact ⟨trivial, ih _ _⟩

lemma work_never_cons {piece : σ → Except ε σ} (rest : List (σ → Except ε σ)) {s t : σ} (p : Nat)
    (h : piece s = .ok t) :
    ∃ q, work (fun _ => false) p (piece :: rest) s = work (fun _ => false) q rest t := by
  cases rest with
  | nil => exact ⟨p, by simp only [work, h]⟩
  | cons next rest => exact ⟨p + 1, by simp [work, h]⟩

end Polling
