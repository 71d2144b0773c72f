import DotnetVm.Threads.Draining

/-!
# The registry over a sequence of registrations and removals

What is done under the write lock, one operation after the other. The two indexes
list the same registrations, and the bits of the fast path are those of the live ids.
-/

namespace DotnetVm.Leases

open Function Option

variable {r r' : ArenaRegistry} {id : ArenaId} {s : State}

/-- Every live registration is found by its token, and has its bit in `VALID_ARENAS_FAST`. -/
structure ArenaRegistry.Indexed (r : ArenaRegistry) (fast : ArenaId → Bool) : Prop where
  consistent : r.Consistent
  tokens : ∀ id h st, r.byId id = some h → r.states[h]? = some st → r.byToken st.token = some id
  fast : ∀ id < 64, fast id = (r.byId id).isSome

namespace ArenaRegistry

variable {fast : ArenaId → Bool}

lemma Indexed.fast_update (hr : r.Indexed fast) (id) (entry : Option Handle) {id' : ArenaId}
    (hlt : id' < 64) : (if id < 64 then update fast id entry.isSome else fast) id' =
      (update r.byId id entry id').isSome := by
  by_cases hne : id' = id
  · subst hne
    simp [hlt]
  · rw [update_of_ne hne, ← hr.fast id' hlt]
    split
    · exact update_of_ne hne ..
    · rfl

lemma Indexed.register (hr : r.Indexed fast) (hreg : r.register id = .ok r') :
    r'.Indexed (if id < 64 then update fast id true else fast) := by
  have hcons := (register_spec hr.consistent hreg).1
  unfold ArenaRegistry.register at hreg
  split at hreg
  · cases hreg
  split at hreg
  · cases hreg
  split at hreg
  · cases hreg
  cases hreg
  refine ⟨hcons, fun id' h st hid hst => ?_, fun id' hlt => ?_⟩
  · by_cases hne : id' = id
    · subst hne
      simp only [update_self, some.injEq] at hid
      subst hid
      simp only [List.getElem?_concat_length, some.injEq] at hst
      subst hst
      exact update_self ..
    · simp only [update_of_ne hne] at hid
      obtain ⟨st', hst', -⟩ := hr.consistent.byId id' h hid
      rw [List.getElem?_append_left (List.getElem?_eq_some_iff.mp hst').1] at hst
      have hiss := (hr.consistent.issued st (List.mem_of_getElem? hst)).2
      exact (update_of_ne hiss.ne ..).trans (hr.tokens id' h st hid hst)
  · exact hr.fast_update id (some _) hlt

variable {expected : Option ArenaIdentity} {h : Handle}

lemma Indexed.remove (hr : r.Indexed fast) (hrem : r.remove id expected = some (h, r')) :
    r'.Indexed (if id < 64 then update fast id false else fast) := by
  have hcons := (remove_spec hr.consistent hrem).1
  obtain ⟨st, hid, hst, -, rfl⟩ := remove_eq_some hrem
  refine ⟨hcons, fun id' h' st' hid' hst' => ?_, fun id' hlt => ?_⟩
  · by_cases hne : id' = id
    · simp [hne] at hid'
    · simp only [update_of_ne hne] at hid'
      have htoken : st'.token ≠ st.token := fun heq => by
        obtain rfl := hr.consistent.unique hst' hst (.inr heq)
        obtain ⟨st₁, hst₁, rfl⟩ := hr.consistent.byId id' h' hid'
        obtain ⟨st₂, hst₂, rfl⟩ := hr.consistent.byId id h' hid
        cases hst₁.symm.trans hst₂
        exact hne rfl
      exact (update_of_ne htoken ..).trans (hr.tokens id' h' st' hid' hst')
  · exact hr.fast_update id none hlt

lemma Indexed.removeAll (ids : List ArenaId) (hr : r.Indexed fast) :
    (∃ fast', (r.removeAll ids).2.Indexed fast') ∧
      ∀ id, (r.removeAll ids).2.byId id = if id ∈ ids then none else r.byId id := by
  induction ids generalizing r fast with
  | nil => exact ⟨⟨fast, hr⟩, fun id => by simp [ArenaRegistry.removeAll]⟩
  | cons id ids ih =>
    unfold ArenaRegistry.removeAll
    cases hrem : r.remove id none with
    | none =>
      obtain ⟨hindexed, hbyId⟩ := ih hr
      have hno : r.byId id = none := by
        by_contra hsome
        obtain ⟨h, hid⟩ := ne_none_iff_exists'.mp hsome
        obtain ⟨st, hst, -⟩ := hr.consistent.byId id h hid
        simp [ArenaRegistry.remove, hid, hst] at hrem
      refine ⟨hindexed, fun id' => (hbyId id').trans ?_⟩
      by_cases hne : id' = id <;> simp [hne, hno]
    | some out =>
      have hremoved := hr.remove (hrem : _ = some (out.1, out.2))
      obtain ⟨st, -, -, -, heq⟩ := remove_eq_some (hrem : _ = some (out.1, out.2))
      obtain ⟨hindexed, hbyId⟩ := ih hremoved
      refine ⟨hindexed, fun id' => (hbyId id').trans ?_⟩
      rw [heq]
      by_cases hne : id' = id <;> simp [hne]

lemma Indexed.removeAll_keys (hr : r.Indexed fast) (id : ArenaId) :
    (r.removeAll r.keys).2.byId id = none := by
  rw [(hr.removeAll r.keys).2 id]
  split
  · rfl
  next hnot =>
    by_contra hsome
    obtain ⟨h, hid⟩ := ne_none_iff_exists'.mp hsome
    obtain ⟨st, hst, rfl⟩ := hr.consistent.byId id h hid
    exact hnot (by simp [keys, hid]; exact ⟨st, List.mem_of_getElem? hst, rfl⟩)

end ArenaRegistry

lemma indexed_removeRegistration (hs : s.registry.Indexed s.fast) (id : ArenaId)
    (expected : Option ArenaIdentity) : (s.removeRegistration id expected).2.registry.Indexed
      (s.removeRegistration id expected).2.fast := by
  unfold State.removeRegistration
  cases hrem : s.registry.remove id expected with
  | none => exact hs
  | some out => exact hs.remove (hrem : _ = some (out.1, out.2))

lemma indexed_write (hs : s.registry.Indexed s.fast) (op : WriteOp) :
    (s.write op).2.registry.Indexed (s.write op).2.fast := by
  cases op with
  | register id =>
    simp only [State.write]
    cases hreg : s.registry.register id with
    | error e => exact hs
    | ok r => exact hs.register hreg
  | removeOwn h =>
    simp only [State.write]
    cases s.registry.states[h]? with
    | none => exact hs
    | some st => exact indexed_removeRegistration hs _ _
  | removeAndDrain id expected =>
    have hremoved := indexed_removeRegistration hs id expected
    simp only [State.write]
    rcases hrem : s.removeRegistration id expected with ⟨_ | h, s'⟩ <;> rw [hrem] at hremoved <;>
      exact hremoved
  | reset =>
    obtain ⟨fast, hindexed⟩ := (hs.removeAll s.registry.keys).1
    exact ⟨hindexed.consistent, hindexed.tokens, fun id _ => by
      simp [State.write, hs.removeAll_keys]⟩

section

variable (ops : List WriteOp)

def performed : State := ops.foldl (fun s op => (s.write op).2) init

lemma indexed_performed : (performed ops).registry.Indexed (performed ops).fast := by
  have hrun : ∀ s : State, s.registry.Indexed s.fast →
      (ops.foldl (fun s op => (s.write op).2) s).registry.Indexed
        (ops.foldl (fun s op => (s.write op).2) s).fast := by
    induction ops with
    | nil => exact fun _ hs => hs
    | cons op ops ih => exact fun s hs => ih _ (indexed_write hs op)
  exact hrun init ⟨ArenaRegistry.consistent_new, nofun, fun _ _ => rfl⟩

/-- After any registrations, removals and resets: live ids and tokens correspond to each other, the
fast bits are those of the live ids, no generation or token was issued twice, and an identity
removes or resolves to nothing but its own registration. -/
theorem registry_indexes_agree :
    (∀ k id, (performed ops).registry.byToken k = some id ↔ ∃ h st,
      (performed ops).registry.byId id = some h ∧
        (performed ops).registry.states[h]? = some st ∧ st.token = k) ∧
    (∀ id h, (performed ops).registry.byId id = some h →
      ∃ st, (performed ops).registry.states[h]? = some st ∧ st.arenaId = id) ∧
    (∀ id < 64, (performed ops).fast id = ((performed ops).registry.byId id).isSome) ∧
    (performed ops).registry.states.Pairwise
      (fun a b => a.generation < b.generation ∧ a.token < b.token) ∧
    ∀ h st, (performed ops).registry.states[h]? = some st →
      (∀ h' r, (performed ops).registry.remove st.arenaId (some st.identity) = some (h', r) →
        h' = h) ∧
      ∀ id h', (performed ops).registry.lookup (.identity st.identity) = some (id, h') →
        h' = h := by
  have hs := indexed_performed ops
  have hr := hs.consistent
  refine ⟨fun k id => ⟨hr.byToken k id, ?_⟩, hr.byId, hs.fast, hr.increasing,
    fun h st hst => ⟨fun h' r hrem => ?_, fun id h' hlook => ?_⟩⟩
  · rintro ⟨h, st, hid, hst, rfl⟩
    exact hs.tokens id h st hid hst
  · obtain ⟨st', -, hst', hgeneration, -⟩ := ArenaRegistry.remove_eq_some hrem
    exact hr.unique hst' hst (.inl (hgeneration _ rfl).symm)
  · obtain ⟨hid, hpins⟩ := lookup_spec hr hlook
    obtain ⟨st', hst', -⟩ := hr.byId id h' hid
    obtain ⟨st₁, hst₁, -, -, hidentity⟩ := hpins st' hst'
    exact hr.unique hst₁ hst (.inl (congrArg ArenaIdentity.generation hidentity))

end

end DotnetVm.Leases
