import Mathlib

/-!
# Runs of an event-driven machine

A machine is a partial transition function reading one event at a time. A run
is guarded by a condition on the state and the event of each step, so that "in
every run whose steps all meet the condition" is one relation, and the
unguarded runs are those guarded by `True`. Invariants are lifted from steps to
runs once, here. The rule for a loop run with fuel asks for an invariant, a measure
that each further round lowers and a postcondition at the break.
-/

namespace Runs

variable {σ ε : Type} {step : σ → ε → Option σ} {ok ok' : σ → ε → Prop} {a b c : σ}

section

variable (step : σ → ε → Option σ) (ok : σ → ε → Prop)

/-- One step of the machine taken under the guard. -/
def Step (a b : σ) : Prop :=
  ∃ e, ok a e ∧ step a e = some b

/-- Finitely many guarded steps. -/
def Run : σ → σ → Prop :=
  Relation.ReflTransGen (Step step ok)

end

/-- The guard of an unrestricted run. -/
def anyStep : σ → ε → Prop := fun _ _ => True

lemma Run.refl : Run step ok a a := Relation.ReflTransGen.refl

lemma Run.trans (h : Run step ok a b) (h' : Run step ok b c) : Run step ok a c :=
  Relation.ReflTransGen.trans h h'

lemma Run.tail {e : ε} (h : Run step ok a b) (hok : ok b e) (hs : step b e = some c) :
    Run step ok a c :=
  Relation.ReflTransGen.tail h ⟨e, hok, hs⟩

lemma Run.invariant {I : σ → Prop} (hst : ∀ s e s', I s → ok s e → step s e = some s' → I s')
    (h : Run step ok a b) (ha : I a) : I b := by
  induction h with
  | refl => exact ha
  | tail _ hlast ih =>
    obtain ⟨e, hok, hs⟩ := hlast
    exact hst _ e _ ih hok hs

/-- Feed a list of events to the machine. -/
def exec (step : σ → ε → Option σ) : σ → List ε → Option σ
  | s, [] => some s
  | s, e :: es => (step s e).bind fun s' => exec step s' es

/-- The guard holds at each step of feeding a list of events. -/
def Guarded (step : σ → ε → Option σ) (ok : σ → ε → Prop) : σ → List ε → Prop
  | _, [] => True
  | s, e :: es => ok s e ∧ ∀ s', step s e = some s' → Guarded step ok s' es

lemma Run.of_exec (es : List ε) (hok : Guarded step ok a es) (h : exec step a es = some b) :
    Run step ok a b := by
  induction es generalizing a with
  | nil =>
    obtain rfl : a = b := by simpa [exec] using h
    exact Run.refl
  | cons e es ih =>
    obtain ⟨s', hs, hrest⟩ := Option.bind_eq_some_iff.mp h
    exact Relation.ReflTransGen.head ⟨e, hok.1, hs⟩ (ih (hok.2 s' hs) hrest)

instance decidableGuarded [∀ s e, Decidable (ok s e)] :
    (s : σ) → (es : List ε) → Decidable (Guarded step ok s es)
  | _, [] => isTrue True.intro
  | s, e :: es =>
    have : Decidable (∀ s', step s e = some s' → Guarded step ok s' es) :=
      match h : step s e with
      | none => isTrue fun _ hs => by cases hs
      | some t =>
        match decidableGuarded t es with
        | isTrue ht => isTrue fun _ hs => Option.some.inj hs ▸ ht
        | isFalse ht => isFalse fun hall => ht (hall t rfl)
    inferInstanceAs (Decidable (_ ∧ _))

lemma guarded_anyStep (s : σ) (es : List ε) : Guarded step anyStep s es := by
  induction es generalizing s with
  | nil => exact True.intro
  | cons e es ih => exact ⟨True.intro, fun s' _ => ih s'⟩

lemma Run.of_exec_any (es : List ε) (h : exec step a es = some b) : Run step anyStep a b :=
  Run.of_exec es (guarded_anyStep a es) h

end Runs

namespace Loops

variable {σ ρ : Type}

def loop (body : σ → σ ⊕ ρ) : Nat → σ → Option ρ
  | 0, _ => none
  | n + 1, s =>
    match body s with
    | .inl s' => loop body n s'
    | .inr r => some r

lemma loop_total {body : σ → σ ⊕ ρ} {I : σ → Prop} {Q : ρ → Prop} (μ : σ → Nat)
    (hnext : ∀ s s', I s → body s = .inl s' → I s' ∧ μ s' < μ s)
    (hbreak : ∀ s r, I s → body s = .inr r → Q r) {s : σ} (hs : I s) :
    ∃ r, Q r ∧ ∀ n, μ s < n → loop body n s = some r := by
  induction hμ : μ s using Nat.strongRecOn generalizing s with
  | ind m ih =>
    cases hbody : body s with
    | inr r =>
      refine ⟨r, hbreak s r hs hbody, fun n hn => ?_⟩
      cases n with
      | zero => omega
      | succ n =>
        simp only [loop, hbody]
    | inl s' =>
      obtain ⟨hs', hlt⟩ := hnext s s' hs hbody
      obtain ⟨r, hr, hrun⟩ := ih (μ s') (by omega) hs' rfl
      refine ⟨r, hr, fun n hn => ?_⟩
      cases n with
      | zero => omega
      | succ n =>
        simp only [loop, hbody]
        exact hrun n (by omega)

end Loops
