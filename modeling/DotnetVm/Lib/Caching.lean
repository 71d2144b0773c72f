import Mathlib

/-!
# Computations on shared caches

A computation reads and writes caches of type `σ`, may fail with an error of `ε`,
and may not end. `Keeps I P x` says that `x` keeps the invariant `I` of the caches
and that its results satisfy `P`; the rules follow the way computations are put
together.
-/

namespace Caching

open Option

/-- A computation on caches `σ`; `none` is one that does not return. -/
def Cached (σ ε α : Type) := σ → Option (Except ε α × σ)

namespace Cached

variable {σ ε α β : Type}

def pure (a : α) : Cached σ ε α := fun s => some (.ok a, s)

def ofExcept (r : Except ε α) : Cached σ ε α := fun s => some (r, s)

/-- A computation that does not touch the caches. -/
def ofOption (r : Option (Except ε α)) : Cached σ ε α := fun s => r.map fun r => (r, s)

def bind (x : Cached σ ε α) (f : α → Cached σ ε β) : Cached σ ε β := fun s =>
  match x s with
  | none => none
  | some (.error e, s') => some (.error e, s')
  | some (.ok a, s') => f a s'

instance : Monad (Cached σ ε) where
  pure := pure
  bind := bind

def get : Cached σ ε σ := fun s => some (.ok s, s)

def modify (f : σ → σ) : Cached σ ε Unit := fun s => some (.ok (), f s)

/-- A computation that never returns. -/
def diverge : Cached σ ε α := fun _ => none

/-- The results of a computation on each element of a list; the first error ends it. -/
def forEach (f : α → Cached σ ε β) : List α → Cached σ ε (List β)
  | [] => pure []
  | a :: as => do
    let b ← f a
    let bs ← forEach f as
    return b :: bs

def Keeps (I : σ → Prop) (P : α → Prop) (x : Cached σ ε α) : Prop :=
  ∀ s r s', I s → x s = some (r, s') → I s' ∧ ∀ a, r = .ok a → P a

variable {I : σ → Prop} {P : α → Prop} {Q : β → Prop} {x : Cached σ ε α}

lemma keeps_pure {a : α} (h : P a) : Keeps I P (Pure.pure a : Cached σ ε α) := by
  intro s r s' hs hx
  obtain ⟨rfl, rfl⟩ : Except.ok a = r ∧ s = s' := by simpa using some.inj hx
  refine ⟨hs, fun b hb => ?_⟩
  cases hb
  exact h

lemma keeps_ofExcept {e : Except ε α} (h : ∀ a, e = .ok a → P a) :
    Keeps I P (ofExcept e : Cached σ ε α) := by
  intro s r s' hs hx
  obtain ⟨rfl, rfl⟩ : e = r ∧ s = s' := by simpa using some.inj hx
  exact ⟨hs, h⟩

lemma keeps_ofOption {o : Option (Except ε α)} (h : ∀ a, o = some (.ok a) → P a) :
    Keeps I P (ofOption o : Cached σ ε α) := by
  intro s r s' hs hx
  obtain ⟨r', ho, hr⟩ := map_eq_some_iff.mp hx
  obtain ⟨rfl, rfl⟩ : r' = r ∧ s = s' := by simpa using hr
  exact ⟨hs, fun a ha => h a (ha ▸ ho)⟩

lemma Keeps.bind {f : α → Cached σ ε β} (hx : Keeps I P x) (hf : ∀ a, P a → Keeps I Q (f a)) :
    Keeps I Q (x >>= f) := by
  intro s r s'' hs h
  have h : Cached.bind x f s = some (r, s'') := h
  rw [Cached.bind] at h
  cases hrun : x s with
  | none =>
    rw [hrun] at h
    nomatch h
  | some p =>
    obtain ⟨result, s'⟩ := p
    rw [hrun] at h
    obtain ⟨hs', hP⟩ := hx s result s' hs hrun
    cases result with
    | error e =>
      cases h
      exact ⟨hs', fun b hb => nomatch hb⟩
    | ok a => exact hf a (hP a rfl) s' r s'' hs' h

lemma keeps_get : Keeps I I (get : Cached σ ε σ) := by
  intro s r s' hs h
  obtain ⟨rfl, rfl⟩ : Except.ok s = r ∧ s = s' := by simpa using some.inj h
  refine ⟨hs, fun b hb => ?_⟩
  cases hb
  exact hs

lemma keeps_modify {f : σ → σ} (h : ∀ s, I s → I (f s)) :
    Keeps I (fun _ => True) (modify f : Cached σ ε Unit) := by
  intro s r s' hs hx
  obtain ⟨rfl, rfl⟩ : Except.ok () = r ∧ f s = s' := by simpa using some.inj hx
  exact ⟨h s hs, fun _ _ => trivial⟩

lemma keeps_diverge : Keeps I P (diverge : Cached σ ε α) := fun _ _ _ _ h => nomatch h

lemma Keeps.mono {P' : α → Prop} (hx : Keeps I P x) (h : ∀ a, P a → P' a) : Keeps I P' x := by
  intro s r s' hs hrun
  obtain ⟨hs', hP⟩ := hx s r s' hs hrun
  exact ⟨hs', fun a ha => h a (hP a ha)⟩

lemma keeps_forEach {f : α → Cached σ ε β} {as : List α} (h : ∀ a ∈ as, Keeps I Q (f a)) :
    Keeps I (fun bs => ∀ b ∈ bs, Q b) (forEach f as) := by
  induction as with
  | nil => exact keeps_pure fun b hb => absurd hb List.not_mem_nil
  | cons a as ih =>
    apply Keeps.bind (h a List.mem_cons_self)
    intro b hb
    apply Keeps.bind (ih fun a' ha' => h a' (List.mem_cons_of_mem a ha'))
    intro bs hbs
    apply keeps_pure
    intro b' hb'
    rcases List.mem_cons.mp hb' with rfl | hb'
    · exact hb
    · exact hbs b' hb'

end Cached

end Caching
