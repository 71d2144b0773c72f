import DotnetVm.Threads.Leases

/-!
# A drained registration is never leased again

Three facts are carried along every run. The registry is consistent: its two
indexes agree and no generation or token is issued twice. The lock admits
readers or one writer, so an entry found under the read lock is still there when
its lease is counted. And the count of a state is the number of leases on it,
those being taken and those being dropped included.
-/

namespace DotnetVm.Leases

open Function List Option Pc Processes Runs State

namespace ArenaRegistry

structure Consistent (r : ArenaRegistry) : Prop where
  byId : ∀ id h, r.byId id = some h → ∃ st, r.states[h]? = some st ∧ st.arenaId = id
  byToken : ∀ k id, r.byToken k = some id →
    ∃ h st, r.byId id = some h ∧ r.states[h]? = some st ∧ st.token = k
  issued : ∀ st ∈ r.states, st.generation < r.nextGeneration ∧ st.token < r.nextToken
  increasing : r.states.Pairwise fun a b => a.generation < b.generation ∧ a.token < b.token

/-- The state was registered, and no id leads to it any more. -/
def Removed (r : ArenaRegistry) (h : Handle) : Prop :=
  h < r.states.length ∧ ∀ id, r.byId id ≠ some h

/-- States keep what registration fixed, and a removed state stays removed. -/
structure Extends (r r' : ArenaRegistry) : Prop where
  states : ∀ (h : Handle) (st : ArenaState), r.states[h]? = some st → r'.states[h]? = some st
  removed : ∀ h, r.Removed h → r'.Removed h

lemma Extends.refl (r : ArenaRegistry) : r.Extends r := ⟨fun _ _ h => h, fun _ h => h⟩

lemma Extends.trans {r₁ r₂ r₃ : ArenaRegistry} (h : r₁.Extends r₂) (h' : r₂.Extends r₃) :
    r₁.Extends r₃ :=
  ⟨fun k st hst => h'.states k st (h.states k st hst), fun k hk => h'.removed k (h.removed k hk)⟩

lemma consistent_new : new.Consistent :=
  ⟨fun _ _ h => (by cases h), fun _ _ h => (by cases h), fun _ h => (by cases h),
    Pairwise.nil⟩

variable {r r' : ArenaRegistry} {id : ArenaId} {h : Handle} {st : ArenaState}

lemma Consistent.unique (hr : r.Consistent) {h' : Handle} {st' : ArenaState}
    (hst : r.states[h]? = some st) (hst' : r.states[h']? = some st')
    (heq : st.generation = st'.generation ∨ st.token = st'.token) : h = h' := by
  obtain ⟨hlt, rfl⟩ := List.getElem?_eq_some_iff.mp hst
  obtain ⟨hlt', rfl⟩ := List.getElem?_eq_some_iff.mp hst'
  rcases lt_trichotomy h h' with hcmp | hcmp | hcmp
  · have hinc := pairwise_iff_getElem.mp hr.increasing h h' hlt hlt' hcmp
    omega
  · exact hcmp
  · have hinc := pairwise_iff_getElem.mp hr.increasing h' h hlt' hlt hcmp
    omega

lemma register_spec (hr : r.Consistent) (hreg : r.register id = .ok r') :
    r'.Consistent ∧ r.Extends r' := by
  unfold register at hreg
  split at hreg
  · cases hreg
  rename_i hno
  split at hreg
  · cases hreg
  split at hreg
  · cases hreg
  cases hreg
  have habsent : r.byId id = none := by simpa using hno
  have hkeep : ∀ (h : Handle) (st : ArenaState), r.states[h]? = some st →
      (r.states ++ [⟨id, r.nextGeneration, r.nextToken⟩])[h]? = some st := fun h st hst => by
    rw [List.getElem?_append_left (List.getElem?_eq_some_iff.mp hst).1]
    exact hst
  refine ⟨⟨fun id' h' hid => ?_, fun k id' hk => ?_, fun st hst => ?_, ?_⟩, hkeep, fun h' hh => ?_⟩
  · by_cases hne : id' = id
    · subst hne
      simp only [update_self, some.injEq] at hid
      subst hid
      exact ⟨⟨id', r.nextGeneration, r.nextToken⟩, by simp, rfl⟩
    · simp only [update_of_ne hne] at hid
      obtain ⟨st, hst, hsid⟩ := hr.byId id' h' hid
      exact ⟨st, hkeep h' st hst, hsid⟩
  · by_cases hne : k = r.nextToken
    · subst hne
      simp only [update_self, some.injEq] at hk
      subst hk
      exact ⟨r.states.length, ⟨id, r.nextGeneration, r.nextToken⟩, by simp, by simp, rfl⟩
    · simp only [update_of_ne hne] at hk
      obtain ⟨h', st, hid, hst, htok⟩ := hr.byToken k id' hk
      have hne' : id' ≠ id := fun heq => by rw [heq, habsent] at hid; cases hid
      exact ⟨h', st, by simp only [update_of_ne hne', hid], hkeep h' st hst, htok⟩
  · rcases mem_append.mp hst with hold | hnew
    · have hlt := hr.issued st hold
      exact ⟨Nat.lt_succ_of_lt hlt.1, Nat.lt_succ_of_lt hlt.2⟩
    · cases mem_singleton.mp hnew
      exact ⟨Nat.lt_succ_self _, Nat.lt_succ_self _⟩
  · refine pairwise_append.mpr ⟨hr.increasing, pairwise_singleton _ _, ?_⟩
    intro a ha b hb
    cases mem_singleton.mp hb
    exact hr.issued a ha
  · refine ⟨by simpa using Nat.lt_succ_of_lt hh.1, fun id' hid => ?_⟩
    by_cases hne : id' = id
    · subst hne
      simp only [update_self, some.injEq] at hid
      exact absurd hh.1 (by rw [hid]; exact lt_irrefl h')
    · exact hh.2 id' (by simpa only [update_of_ne hne] using hid)

variable {expected : Option ArenaIdentity}

lemma remove_eq_some (hrem : r.remove id expected = some (h, r')) :
    ∃ st, r.byId id = some h ∧ r.states[h]? = some st ∧
      (∀ identity, expected = some identity → identity.generation = st.generation) ∧
      r' = { r with
        byId := update r.byId id none
        byToken := update r.byToken st.token none } := by
  unfold remove at hrem
  split at hrem
  · cases hrem
  rename_i h' hid
  split at hrem
  · cases hrem
  rename_i st hst
  split at hrem
  · cases hrem
  rename_i hexp
  cases hrem
  refine ⟨st, hid, hst, fun identity heq => ?_, rfl⟩
  subst heq
  simp only [any_some, Bool.or_eq_true, bne_iff_ne, not_or, not_not] at hexp
  exact hexp.2

lemma remove_spec (hr : r.Consistent) (hrem : r.remove id expected = some (h, r')) :
    r'.Consistent ∧ r.Extends r' ∧ r'.Removed h := by
  obtain ⟨st, hid, hst, -, rfl⟩ := remove_eq_some hrem
  have hoth : ∀ id', update r.byId id none id' = some h → False := fun id' heq => by
    by_cases hne : id' = id
    · subst hne
      simp at heq
    · rw [update_of_ne hne] at heq
      obtain ⟨st', hst', hsid'⟩ := hr.byId id' h heq
      obtain ⟨st'', hst'', hsid''⟩ := hr.byId id h hid
      cases hst'.symm.trans hst''
      exact hne (hsid'.symm.trans hsid'')
  refine ⟨⟨fun id' h' heq => ?_, fun k id' hk => ?_, hr.issued, hr.increasing⟩,
    ⟨fun _ _ hkeep => hkeep, fun h' hh => ⟨hh.1, fun id' heq => ?_⟩⟩,
    (List.getElem?_eq_some_iff.mp hst).1, hoth⟩
  · by_cases hne : id' = id
    · subst hne
      simp at heq
    · exact hr.byId id' h' (by simpa only [update_of_ne hne] using heq)
  · by_cases hne : k = st.token
    · subst hne
      simp at hk
    · simp only [update_of_ne hne] at hk
      obtain ⟨h', st', hid', hst', htok⟩ := hr.byToken k id' hk
      have hne' : id' ≠ id := fun heq => by
        subst heq
        cases hid.symm.trans hid'
        cases hst.symm.trans hst'
        exact hne htok.symm
      exact ⟨h', st', by simp only [update_of_ne hne', hid'], hst', htok⟩
  · by_cases hne : id' = id
    · subst hne
      simp at heq
    · exact hh.2 id' (by simpa only [update_of_ne hne] using heq)

lemma removed_of_remove_own (hr : r.Consistent) (hst : r.states[h]? = some st) :
    (r.remove st.arenaId (some st.identity) = none → r.Removed h) ∧
    ∀ h' r', r.remove st.arenaId (some st.identity) = some (h', r') → r'.Removed h := by
  have hlt := (List.getElem?_eq_some_iff.mp hst).1
  refine ⟨fun hno => ⟨hlt, fun id hid => ?_⟩, fun h' r' hrem => ?_⟩
  · obtain ⟨st', hst', rfl⟩ := hr.byId id h hid
    cases hst.symm.trans hst'
    simp [remove, hid, hst, ArenaState.identity] at hno
  · obtain ⟨st', -, hst', hgen, -⟩ := remove_eq_some hrem
    obtain rfl : h = h' := hr.unique hst hst' (Or.inl (hgen _ rfl))
    exact (remove_spec hr hrem).2.2

lemma removeAll_spec (ids : List ArenaId) (hr : r.Consistent) :
    (r.removeAll ids).2.Consistent ∧ r.Extends (r.removeAll ids).2 ∧
      ∀ h ∈ (r.removeAll ids).1, (r.removeAll ids).2.Removed h := by
  induction ids generalizing r with
  | nil => exact ⟨hr, .refl r, nofun⟩
  | cons id ids ih =>
    unfold removeAll
    cases hrem : r.remove id none with
    | none => exact ih hr
    | some out =>
      obtain ⟨hr', hext, hgone⟩ := remove_spec hr (hrem : r.remove id none = some (out.1, out.2))
      obtain ⟨hr'', hext', hgone'⟩ := ih hr'
      refine ⟨hr'', hext.trans hext', fun h hh => ?_⟩
      rcases mem_cons.mp hh with rfl | hmem
      · exact hext'.removed _ hgone
      · exact hgone' h hmem

end ArenaRegistry

namespace Pc

/-- Holding the read lock. -/
def reads : Pc → Bool
  | .looking _ | .found _ _ _ | .counted _ _ => true
  | _ => false

/-- Holding the write lock. -/
def writes : Pc → Bool
  | .writing _ => true
  | _ => false

/-- The lease that is about to be returned. -/
def upcoming : Pc → Option (Request × ArenaLease)
  | .counted request lease | .tracking request lease => some (request, lease)
  | _ => none

def inTransit : Pc → List ArenaLease
  | .counted _ lease | .tracking _ lease | .dropping lease => [lease]
  | _ => []

/-- The states the thread has seen removed. -/
def retired : Pc → List Handle
  | .removedOwn h | .drainingOwn h | .drainedOwn h => [h]
  | .draining hs => hs
  | _ => []

/-- The state of an owner that has read the count zero. -/
def emptied : Pc → Option Handle
  | .drainedOwn h => some h
  | _ => none

/-- Outside the lock and with no lease in transit. -/
def isQuiet (p : Pc) : Bool := !p.reads && !p.writes && p.inTransit.isEmpty

end Pc

variable {s s' : State} {t : ThreadId}

/-- What is done under the write lock: entries come and go, states do not. -/
structure Wrote (s : State) (p : Pc) (s' : State) : Prop where
  rest : s' = { s with registry := s'.registry, fast := s'.fast }
  consistent : s'.registry.Consistent
  mono : s.registry.Extends s'.registry
  quiet : p.isQuiet = true
  emptied : p.emptied = none
  retired : ∀ h ∈ p.retired, s'.registry.Removed h

lemma removeRegistration_spec (hr : s.registry.Consistent) (id : ArenaId)
    (expected : Option ArenaIdentity) :
    Wrote s (match (s.removeRegistration id expected).1 with
        | none => .idle
        | some h => .draining [h])
      (s.removeRegistration id expected).2 := by
  unfold removeRegistration
  cases hrem : s.registry.remove id expected with
  | none => exact ⟨rfl, hr, .refl _, rfl, rfl, nofun⟩
  | some out =>
    obtain ⟨hcons, hext, hgone⟩ :=
      ArenaRegistry.remove_spec hr (hrem : _ = some (out.1, out.2))
    refine ⟨rfl, hcons, hext, rfl, rfl, fun h hh => ?_⟩
    cases mem_singleton.mp hh
    exact hgone

lemma write_spec (hr : s.registry.Consistent) (op : WriteOp) :
    Wrote s (s.write op).1 (s.write op).2 := by
  cases op with
  | register id =>
    simp only [State.write]
    cases hreg : s.registry.register id with
    | error _ => exact ⟨rfl, hr, .refl _, rfl, rfl, nofun⟩
    | ok r' =>
      obtain ⟨hcons, hext⟩ := ArenaRegistry.register_spec hr hreg
      exact ⟨rfl, hcons, hext, rfl, rfl, nofun⟩
  | removeOwn h =>
    simp only [State.write]
    cases hst : s.registry.states[h]? with
    | none => exact ⟨rfl, hr, .refl _, rfl, rfl, nofun⟩
    | some st =>
      have hspec := removeRegistration_spec hr st.arenaId (some st.identity)
      refine ⟨hspec.rest, hspec.consistent, hspec.mono, rfl, rfl, fun k hk => ?_⟩
      cases mem_singleton.mp hk
      have hown := ArenaRegistry.removed_of_remove_own hr hst
      dsimp only [removeRegistration]
      cases hrem : s.registry.remove st.arenaId (some st.identity) with
      | none => exact hown.1 hrem
      | some out => exact hown.2 out.1 out.2 hrem
  | removeAndDrain id expected =>
    have hspec := removeRegistration_spec hr id expected
    simp only [State.write]
    cases hrem : s.removeRegistration id expected with
    | mk found s' =>
      rw [hrem] at hspec
      cases found with
      | none => exact hspec
      | some h => exact hspec
  | reset =>
    obtain ⟨hcons, hext, hgone⟩ := ArenaRegistry.removeAll_spec s.registry.keys hr
    exact ⟨rfl, hcons, hext, rfl, rfl, hgone⟩

/-- One step of thread `t`, by what it does to the shared state. -/
inductive Turn (s : State) (t : ThreadId) : State → Prop where
  | quiet (p : Pc) (hold : (s.pc t).isQuiet = true) (hnew : p.isQuiet = true)
      (hretired : ∀ h ∈ p.retired, h ∈ (s.pc t).retired)
      (hemptied : ∀ h, p.emptied = some h → s.activeLeases h = 0) : Turn s t (s.goto t p)
  | lockRead (request : Request) (hpc : s.pc t = .readWait request) (hfree : s.writer = none) :
      Turn s t { s with readers := t :: s.readers, pc := update s.pc t (.looking request) }
  | miss (request : Request) (hpc : s.pc t = .looking request) :
      Turn s t { s with readers := s.readers.erase t, pc := update s.pc t .idle }
  | find (request : Request) (targetId : ArenaId) (h : Handle) (hpc : s.pc t = .looking request)
      (hlookup : s.registry.lookup request = some (targetId, h)) :
      Turn s t (s.goto t (.found request targetId h))
  | count (request : Request) (targetId : ArenaId) (h : Handle) (st : ArenaState)
      (hpc : s.pc t = .found request targetId h) (hst : s.registry.states[h]? = some st) :
      Turn s t { s with
        activeLeases := update s.activeLeases h (s.activeLeases h + 1)
        pc := update s.pc t (.counted request ⟨h, st.generation, targetId⟩) }
  | unlockRead (request : Request) (lease : ArenaLease) (hpc : s.pc t = .counted request lease) :
      Turn s t { s with
        readers := s.readers.erase t
        pc := update s.pc t (.tracking request lease) }
  | grant (request : Request) (lease : ArenaLease) (hpc : s.pc t = .tracking request lease) :
      Turn s t { s with
        heldLeases := update s.heldLeases t (trackLease (s.heldLeases t) lease.arenaId)
        leases := update s.leases t (lease :: s.leases t)
        granted := (request, lease) :: s.granted
        pc := update s.pc t .idle }
  | beginDrop (index : Nat) (lease : ArenaLease) (hpc : s.pc t = .idle)
      (hlease : (s.leases t)[index]? = some lease) :
      Turn s t { s with
        leases := update s.leases t ((s.leases t).eraseIdx index)
        heldLeases := update s.heldLeases t (untrackLease (s.heldLeases t) lease.arenaId)
        pc := update s.pc t (.dropping lease) }
  | endDrop (lease : ArenaLease) (hpc : s.pc t = .dropping lease) : Turn s t { s with
        activeLeases := update s.activeLeases lease.state (s.activeLeases lease.state - 1)
        pc := update s.pc t .idle }
  | lockWrite (op : WriteOp) (hpc : s.pc t = .writeWait op) (hfree : s.writer = none)
      (hnone : s.readers = []) :
      Turn s t { s with writer := some t, pc := update s.pc t (.writing op) }
  | write (op : WriteOp) (p : Pc) (registry : ArenaRegistry) (fast : ArenaId → Bool)
      (hpc : s.pc t = .writing op) (hwrote : Wrote s p { s with registry, fast }) :
      Turn s t { s with registry, fast, writer := none, pc := update s.pc t p }
  | answer (h : Handle) (outcome : TeardownOutcome) (hold : (s.pc t).isQuiet = true)
      (hdrained : outcome = .drained → s.pc t = .drainedOwn h) :
      Turn s t { s with
        outcomes := (h, outcome) :: s.outcomes
        pc := update s.pc t .idle }

lemma turn_of_advance (hr : s.registry.Consistent)
    (hstep : s.advance t = some s') : Turn s t s' := by
  unfold State.advance at hstep
  have quietly : ∀ p : Pc, (s.pc t).isQuiet = true → p.isQuiet = true → p.retired = [] →
      p.emptied = none → Turn s t (s.goto t p) := fun p hold hnew hret hemp =>
    .quiet p hold hnew (by simp [hret]) (by simp [hemp])
  generalize hpc : s.pc t = pc at hstep quietly
  cases pc with
  | idle => cases hstep
  | fastPath request =>
    cases request with
    | id targetId =>
      dsimp only at hstep
      split at hstep <;> cases hstep <;> exact quietly _ rfl rfl rfl rfl
    | identity _ | token _ => cases hstep; exact quietly _ rfl rfl rfl rfl
  | readWait request =>
    dsimp only at hstep
    split at hstep
    · cases hstep; exact .lockRead request hpc (by assumption)
    · cases hstep
  | looking request =>
    dsimp only at hstep
    split at hstep
    · cases hstep; exact .miss request hpc
    · rename_i targetId h hlook
      cases hstep; exact .find request targetId h hpc hlook
  | found request targetId h =>
    dsimp only at hstep
    split at hstep
    · cases hstep
    · rename_i st hst
      cases hstep; exact .count request targetId h st hpc hst
  | counted request lease => cases hstep; exact .unlockRead request lease hpc
  | tracking request lease => cases hstep; exact .grant request lease hpc
  | dropping lease => cases hstep; exact .endDrop lease hpc
  | writeWait op =>
    dsimp only at hstep
    split at hstep
    · rename_i hfree
      cases hstep; exact .lockWrite op hpc hfree.1 hfree.2
    · cases hstep
  | writing op =>
    have hspec := write_spec hr op
    dsimp only at hstep
    rw [hspec.rest] at hstep
    cases hstep
    exact .write op _ _ _ hpc (hspec.rest ▸ hspec)
  | removedOwn h =>
    dsimp only at hstep
    split at hstep
    · cases hstep
    split at hstep
    · cases hstep
      exact .answer h .selfHeldLease (by rw [hpc]; rfl) nofun
    · cases hstep
      exact .quiet _ (by rw [hpc]; rfl) rfl (by rw [hpc]; exact fun _ hk => hk)
        nofun
  | drainingOwn h =>
    dsimp only at hstep
    split at hstep
    · rename_i hz
      cases hstep
      refine .quiet _ (by rw [hpc]; rfl) rfl (by rw [hpc]; exact fun _ hk => hk) fun k hk => ?_
      cases hk
      exact hz
    · cases hstep
  | drainedOwn h =>
    cases hstep
    exact .answer h .drained (by rw [hpc]; rfl) fun _ => hpc
  | draining hs =>
    cases hs with
    | nil => cases hstep; exact quietly _ rfl rfl rfl rfl
    | cons h hs =>
      dsimp only at hstep
      split at hstep
      · cases hstep
        exact .quiet _ (by rw [hpc]; rfl) rfl (by rw [hpc]; exact fun _ hk => .tail h hk)
          nofun
      · cases hstep

lemma turn_of_call {c : Call} (hidle : s.pc t = .idle) (hst : s.call t c = some s') :
    Turn s t s' := by
  have quietly : ∀ op, Turn s t (s.goto t (.writeWait op)) := fun op =>
    .quiet _ (by rw [hidle]; rfl) rfl nofun fun _ hk => by cases hk
  cases c with
  | tryAcquireLease request =>
    cases hst
    exact .quiet _ (by rw [hidle]; rfl) rfl nofun nofun
  | dropLease index =>
    simp only [State.call] at hst
    split at hst
    · cases hst
    · rename_i lease hlease
      cases hst
      exact .beginDrop index lease hidle hlease
  | unregisterAndDrain h =>
    simp only [State.call] at hst
    split at hst
    · cases hst; exact quietly _
    · cases hst
  | _ => cases hst; exact quietly _

lemma turn_of_step {e : Event} (hr : s.registry.Consistent) (hst : step s e = some s') :
    ∃ t, Turn s t s' := by
  cases e with
  | call t c =>
    simp only [step] at hst
    split at hst
    · exact ⟨t, turn_of_call (by assumption) hst⟩
    · cases hst
  | advance t => exact ⟨t, turn_of_advance hr hst⟩

/-- Readers or one writer. -/
structure Locked (s : State) : Prop where
  readers : Lists Pc.reads s.pc s.readers
  writer : Owns Pc.writes s.pc s.writer
  exclusive : s.writer = none ∨ s.readers = []

lemma only_update (region : Pc → Bool) (p : Pc) :
    Only region t s.pc (update s.pc t p) := fun j hj => by rw [update_of_ne hj]

lemma Locked.moved (hs : Locked s) (p : Pc) {readers : List ThreadId} {writer : Option ThreadId}
    (hpc : s'.pc = update s.pc t p) (hreaders : s'.readers = readers) (hwriter : s'.writer = writer)
    (hlist : ListMoves Pc.reads (s.pc t) p t s.readers readers)
    (hlock : LockMoves Pc.writes (s.pc t) p t s.writer writer)
    (hex : writer = none ∨ readers = []) : Locked s' := by
  refine ⟨?_, ?_, ?_⟩
  · rw [hpc, hreaders]
    exact hs.readers.step (only_update _ p) (by rwa [update_self])
  · rw [hpc, hwriter]
    exact hs.writer.step (only_update _ p) (by rwa [update_self])
  · rw [hreaders, hwriter]
    exact hex

lemma Pc.isQuiet_iff (p : Pc) :
    p.isQuiet = true ↔ p.reads = false ∧ p.writes = false ∧ p.inTransit = [] := by
  simp [isQuiet, and_assoc]

/-- A step between two places outside the lock. -/
lemma Locked.stays (hs : Locked s) (p : Pc) (hold : (s.pc t).isQuiet = true)
    (hnew : p.isQuiet = true) (hpc : s'.pc = update s.pc t p) (hreaders : s'.readers = s.readers)
    (hwriter : s'.writer = s.writer) : Locked s' := by
  obtain ⟨hr, hw, -⟩ := (isQuiet_iff _).mp hold
  obtain ⟨hr', hw', -⟩ := (isQuiet_iff _).mp hnew
  exact hs.moved p hpc hreaders hwriter (by simp [ListMoves, hr, hr'])
    (by simp [LockMoves, hw, hw']) hs.exclusive

lemma Locked.turn (hs : Locked s) (hturn : Turn s t s') : Locked s' := by
  cases hturn with
  | quiet p hold hnew _ _ => exact hs.stays p hold hnew rfl rfl rfl
  | lockRead request hpc hfree =>
    exact hs.moved _ rfl rfl rfl (by simp [ListMoves, hpc, Pc.reads])
      (by simp [LockMoves, hpc, Pc.writes]) (.inl hfree)
  | lockWrite op hpc hfree hno =>
    exact hs.moved _ rfl rfl rfl (by simp [ListMoves, hpc, Pc.reads])
      (by simp [LockMoves, hpc, Pc.writes, hfree]) (.inr hno)
  | write op p registry fast hpc hwrote =>
    obtain ⟨hreads, hwrites, -⟩ := (isQuiet_iff _).mp hwrote.quiet
    have hread : (s.pc t).reads = false := by rw [hpc]; rfl
    have hwrite : (s.pc t).writes = true := by rw [hpc]; rfl
    exact hs.moved p rfl rfl rfl (by simp [ListMoves, hread, hreads])
      (by simp [LockMoves, hwrite, hwrites]) (.inl rfl)
  | answer h outcome hold _ => exact hs.stays _ hold rfl rfl rfl rfl
  | _ =>
    exact hs.moved _ rfl rfl rfl (by simp [ListMoves, Pc.reads, State.goto, *])
      (by simp [LockMoves, Pc.writes, State.goto, *])
      (hs.exclusive.imp_right fun h => by simp [State.goto, h])

/-- The registration a lease pins is the one that was asked for. -/
def Pins (r : ArenaRegistry) (request : Request) (lease : ArenaLease) : Prop :=
  ∃ st, r.states[lease.state]? = some st ∧ lease.arenaId = st.arenaId ∧
    lease.generation = st.generation ∧
    match request with
    | .id targetId => st.arenaId = targetId
    | .identity identity => st.identity = identity
    | .token token => st.token = token

variable {request : Request}

lemma Pins.mono {r r' : ArenaRegistry} {lease : ArenaLease}
    (h : Pins r request lease) (hext : r.Extends r') : Pins r' request lease := by
  obtain ⟨st, hst, hrest⟩ := h
  exact ⟨st, hext.states _ _ hst, hrest⟩

variable {h : Handle}

lemma lookup_spec {r : ArenaRegistry} (hr : r.Consistent)
    {targetId : ArenaId} (hlook : r.lookup request = some (targetId, h)) :
    r.byId targetId = some h ∧ ∀ st, r.states[h]? = some st →
      Pins r request ⟨h, st.generation, targetId⟩ := by
  have hpins : ∀ st, r.byId targetId = some h → r.states[h]? = some st →
      targetId = st.arenaId := fun st hid hst => by
    obtain ⟨st', hst', hsid⟩ := hr.byId targetId h hid
    cases hst.symm.trans hst'
    exact hsid.symm
  cases request with
  | id targetId' =>
    obtain ⟨h', hid, heq⟩ := map_eq_some_iff.mp hlook
    cases heq
    exact ⟨hid, fun st hst => ⟨st, hst, hpins st hid hst, rfl, (hpins st hid hst).symm⟩⟩
  | identity identity =>
    simp only [ArenaRegistry.lookup] at hlook
    split at hlook
    · cases hlook
    rename_i h' hid
    split at hlook
    · cases hlook
    rename_i st' hst'
    split at hlook
    · rename_i hgen
      cases hlook
      refine ⟨hid, fun st hst => ?_⟩
      obtain rfl : st' = st := some.inj (hst'.symm.trans hst)
      refine ⟨st', hst, hpins st' hid hst, rfl, ?_⟩
      simp only [ArenaState.identity, ← hpins st' hid hst, hgen]
    · cases hlook
  | token token =>
    simp only [ArenaRegistry.lookup] at hlook
    split at hlook
    · cases hlook
    rename_i targetId' htok
    obtain ⟨h', hid, heq⟩ := map_eq_some_iff.mp hlook
    cases heq
    obtain ⟨h'', st'', hid'', hst'', htoken⟩ := hr.byToken token targetId htok
    cases hid.symm.trans hid''
    refine ⟨hid, fun st hst => ?_⟩
    obtain rfl : st'' = st := some.inj (hst''.symm.trans hst)
    exact ⟨st'', hst, hpins st'' hid hst, rfl, htoken⟩

/-- What the threads know about the registry. -/
structure Informed (s : State) : Prop where
  consistent : s.registry.Consistent
  found : ∀ t request targetId h, s.pc t = .found request targetId h →
    s.registry.byId targetId = some h ∧ ∀ st, s.registry.states[h]? = some st →
        Pins s.registry request ⟨h, st.generation, targetId⟩
  upcoming : ∀ t request lease, (s.pc t).upcoming = some (request, lease) →
    Pins s.registry request lease
  granted : ∀ request lease, (request, lease) ∈ s.granted → Pins s.registry request lease
  retired : ∀ t h, h ∈ (s.pc t).retired → s.registry.Removed h

lemma Informed.of_pc (hs : Informed s) (p : Pc) (hpc : s'.pc = update s.pc t p)
    (hreg : s'.registry = s.registry) (hfnd : ∀ request targetId h, p = .found request targetId h →
      s.registry.byId targetId = some h ∧ ∀ st, s.registry.states[h]? = some st →
          Pins s.registry request ⟨h, st.generation, targetId⟩)
    (hupcoming : ∀ request lease, p.upcoming = some (request, lease) →
      Pins s.registry request lease) (hretd : ∀ h ∈ p.retired, s.registry.Removed h)
    (hgr : ∀ request lease, (request, lease) ∈ s'.granted →
      (request, lease) ∈ s.granted ∨ (s.pc t).upcoming = some (request, lease)) : Informed s' := by
  refine ⟨hreg ▸ hs.consistent, fun u request targetId h hu => ?_, fun u request lease hu => ?_,
    fun request lease hmem => ?_, fun u h hu => ?_⟩ <;> rw [hreg]
  · by_cases hut : u = t
    · subst hut
      rw [hpc, update_self] at hu
      exact hfnd request targetId h hu
    · rw [hpc, update_of_ne hut] at hu
      exact hs.found u request targetId h hu
  · by_cases hut : u = t
    · subst hut
      rw [hpc, update_self] at hu
      exact hupcoming request lease hu
    · rw [hpc, update_of_ne hut] at hu
      exact hs.upcoming u request lease hu
  · rcases hgr request lease hmem with hold | hnew
    · exact hs.granted request lease hold
    · exact hs.upcoming t request lease hnew
  · by_cases hut : u = t
    · subst hut
      rw [hpc, update_self] at hu
      exact hretd h hu
    · rw [hpc, update_of_ne hut] at hu
      exact hs.retired u h hu

lemma Pc.isQuiet_upcoming {p : Pc} (hp : p.isQuiet = true) : p.upcoming = none := by
  cases p <;> first | rfl | cases hp

lemma Pc.isQuiet_found {p : Pc} (hp : p.isQuiet = true) (request : Request)
    (targetId : ArenaId) (h : Handle) : p ≠ .found request targetId h := fun heq => by
  subst heq
  cases hp

lemma Informed.stays (hs : Informed s) (p : Pc) (hnew : p.isQuiet = true)
    (hretd : ∀ h ∈ p.retired, h ∈ (s.pc t).retired) (hpc : s'.pc = update s.pc t p)
    (hreg : s'.registry = s.registry) (hgr : ∀ request lease, (request, lease) ∈ s'.granted →
      (request, lease) ∈ s.granted ∨ (s.pc t).upcoming = some (request, lease)) : Informed s' :=
  hs.of_pc p hpc hreg (fun request targetId h heq => absurd heq (isQuiet_found hnew _ _ _))
    (fun _ _ hup => by rw [isQuiet_upcoming hnew] at hup; cases hup)
    (fun h hh => hs.retired t h (hretd h hh)) hgr

/-- Nobody is between finding an entry and counting its lease while the registry is written. -/
lemma Locked.no_reader (hl : Locked s) {op : WriteOp} (hpc : s.pc t = .writing op)
    (u : ThreadId) : (s.pc u).reads = false := by
  have hwriter : s.writer = some t := (hl.writer t).mp (by rw [hpc]; rfl)
  have hno : s.readers = [] := hl.exclusive.resolve_left (by rw [hwriter]; exact some_ne_none t)
  cases hu : (s.pc u).reads with
  | false => rfl
  | true =>
    have hmem := (hl.readers.mem_iff u).mpr hu
    rw [hno] at hmem
    cases hmem

lemma Informed.turn (hl : Locked s) (hs : Informed s) (hturn : Turn s t s') : Informed s' := by
  cases hturn with
  | quiet p hold hnew hretd _ => exact hs.stays p hnew hretd rfl rfl fun _ _ h => .inl h
  | find request targetId h hpc hlook =>
    refine hs.of_pc _ rfl rfl (fun request' targetId' h' heq => ?_) nofun
      nofun fun _ _ h => .inl h
    cases heq
    exact lookup_spec hs.consistent hlook
  | count request targetId h st hpc hst =>
    refine hs.of_pc _ rfl rfl nofun (fun request' lease' heq => ?_)
      nofun fun _ _ h => .inl h
    cases heq
    exact (hs.found t _ _ _ hpc).2 st hst
  | unlockRead request lease hpc =>
    refine hs.of_pc _ rfl rfl nofun (fun request' lease' heq => ?_)
      nofun fun _ _ h => .inl h
    exact hs.upcoming t _ _ (by rw [hpc]; exact heq)
  | grant request lease hpc =>
    refine hs.stays .idle rfl nofun rfl rfl fun request' lease' hmem => ?_
    rw [hpc]
    exact (mem_cons.mp hmem).symm.imp_right fun heq => congrArg some heq.symm
  | write op p registry fast hpc hwrote =>
    have hqt := hwrote.quiet
    have hmono : s.registry.Extends registry := hwrote.mono
    refine ⟨hwrote.consistent, fun u request targetId h hu => ?_, fun u request lease hu => ?_,
      fun request lease hmem => (hs.granted request lease hmem).mono hmono, fun u h hu => ?_⟩
    · by_cases hut : u = t
      · subst hut
        dsimp only at hu
        rw [update_self] at hu
        exact absurd hu (isQuiet_found hqt _ _ _)
      · dsimp only at hu
        rw [update_of_ne hut] at hu
        have hread := hl.no_reader hpc u
        rw [hu] at hread
        cases hread
    · by_cases hut : u = t
      · subst hut
        dsimp only at hu
        rw [update_self, isQuiet_upcoming hqt] at hu
        cases hu
      · dsimp only at hu
        rw [update_of_ne hut] at hu
        exact (hs.upcoming u request lease hu).mono hmono
    · by_cases hut : u = t
      · subst hut
        dsimp only at hu
        rw [update_self] at hu
        exact hwrote.retired h hu
      · dsimp only at hu
        rw [update_of_ne hut] at hu
        exact hmono.removed h (hs.retired u h hu)
  | _ =>
    exact hs.of_pc _ rfl rfl nofun nofun
      nofun fun _ _ h => .inl h

def State.leasesOn (s : State) (h : Handle) (t : ThreadId) : Nat :=
  (s.leases t ++ (s.pc t).inTransit).countP fun lease => lease.state == h

lemma countP_eraseIdx {α : Type} (p : α → Bool) {l : List α} {i : Nat} {a : α}
    (h : l[i]? = some a) : (l.eraseIdx i).countP p + (if p a then 1 else 0) = l.countP p := by
  obtain ⟨hlt, rfl⟩ := List.getElem?_eq_some_iff.mp h
  have hperm := List.getElem_cons_eraseIdx_perm hlt
  rw [← hperm.countP_eq p, countP_cons]

/-- The count of each state is the number of leases on it. -/
def Counted (s : State) : Prop := ∀ h, Sums (s.leasesOn h) (s.activeLeases h)

lemma Counted.turn (hs : Counted s) (hturn : Turn s t s') : Counted s' := by
  have move : ∀ (s' : State), (∀ u, u ≠ t → s'.pc u = s.pc u ∧ s'.leases u = s.leases u) →
      (∀ h, s'.activeLeases h + s.leasesOn h t = s.activeLeases h + s'.leasesOn h t) →
      Counted s' := fun s' hoth hmove h =>
    (hs h).step (fun u hu => by simp only [leasesOn, hoth u hu]) (hmove h)
  cases hturn with
  | quiet p hold hnew _ _ =>
    obtain ⟨-, -, hold⟩ := (isQuiet_iff _).mp hold
    obtain ⟨-, -, hnew⟩ := (isQuiet_iff _).mp hnew
    refine move _ (fun u hu => ⟨update_of_ne hu _ _, rfl⟩) fun h => ?_
    simp [leasesOn, State.goto, hold, hnew]
  | count request targetId k st hpc _ =>
    refine move _ (fun u hu => ⟨update_of_ne hu _ _, rfl⟩) fun h => ?_
    by_cases hk : h = k
    · subst hk
      simp [leasesOn, hpc, inTransit]
      omega
    · simp [leasesOn, hpc, inTransit, update_of_ne hk, Ne.symm hk]
  | grant request lease hpc =>
    refine move _ (fun u hu => ⟨update_of_ne hu _ _, update_of_ne hu _ _⟩) fun h => ?_
    simp [leasesOn, hpc, inTransit, countP_cons]
  | beginDrop index lease hpc hlease =>
    refine move _ (fun u hu => ⟨update_of_ne hu _ _, update_of_ne hu _ _⟩) fun h => ?_
    have hcnt := countP_eraseIdx (fun lease : ArenaLease => lease.state == h) hlease
    simp only [leasesOn, hpc, inTransit, update_self, countP_append,
      countP_nil, countP_singleton]
    omega
  | endDrop lease hpc =>
    refine move _ (fun u hu => ⟨update_of_ne hu _ _, rfl⟩) fun h => ?_
    by_cases hk : h = lease.state
    · subst hk
      have hpos := Sums.le (hs lease.state) t
      simp only [leasesOn, hpc, inTransit, update_self, countP_append,
        countP_nil, countP_singleton, beq_self_eq_true, if_true] at hpos ⊢
      omega
    · simp [leasesOn, hpc, inTransit, update_of_ne hk, Ne.symm hk]
  | write op p registry fast hpc hwrote =>
    obtain ⟨-, -, hnew⟩ := (isQuiet_iff _).mp hwrote.quiet
    refine move _ (fun u hu => ⟨update_of_ne hu _ _, rfl⟩) fun h => ?_
    have hold : (s.pc t).inTransit = [] := by rw [hpc]; rfl
    simp [leasesOn, hold, hnew]
  | answer k outcome hold _ =>
    obtain ⟨-, -, hno⟩ := (isQuiet_iff _).mp hold
    have hidle : Pc.idle.inTransit = [] := rfl
    refine move _ (fun u hu => ⟨update_of_ne hu _ _, rfl⟩) fun h => ?_
    simp [leasesOn, hno, hidle]
  | _ =>
    refine move _ (fun u hu => ⟨update_of_ne hu _ _, rfl⟩) fun h => ?_
    simp [leasesOn, State.goto, inTransit, *]

/-- Owners that are about to answer `Drained`, and those that have, saw the count zero. -/
structure Emptied (s : State) : Prop where
  reading : ∀ t h, (s.pc t).emptied = some h → s.activeLeases h = 0
  answered : ∀ h, (h, TeardownOutcome.drained) ∈ s.outcomes →
    s.registry.Removed h ∧ s.activeLeases h = 0

lemma Turn.activeLeases_le (hs : Informed s) (hturn : Turn s t s') (h : Handle)
    (hgone : s.registry.Removed h) : s'.activeLeases h ≤ s.activeLeases h := by
  cases hturn with
  | count request targetId k st hpc _ =>
    have hne : h ≠ k := fun heq => hgone.2 targetId (heq ▸ (hs.found t _ _ _ hpc).1)
    simp [update_of_ne hne]
  | endDrop lease hpc =>
    by_cases hk : h = lease.state
    · subst hk
      simp
    · simp [update_of_ne hk]
  | _ => exact le_refl _

lemma Turn.removed_mono (hturn : Turn s t s') (h : Handle) (hgone : s.registry.Removed h) :
    s'.registry.Removed h := by
  cases hturn with
  | write op p registry fast hpc hwrote => exact hwrote.mono.removed h hgone
  | _ => exact hgone

lemma Pc.retired_of_emptied {p : Pc} (hp : p.emptied = some h) : h ∈ p.retired := by
  cases p with
  | drainedOwn k => cases hp; exact mem_singleton_self h
  | _ => cases hp

/-- Whoever is about to answer `Drained` after the step was there before or has just read zero. -/
lemma Turn.emptied (hturn : Turn s t s') {u : ThreadId}
    (hu : (s'.pc u).emptied = some h) : (s.pc u).emptied = some h ∨ s'.activeLeases h = 0 := by
  have moved : ∀ p : Pc, p.emptied = none → (update s.pc t p u).emptied = some h →
      (s.pc u).emptied = some h := fun p hp hup => by
    by_cases hut : u = t
    · rw [hut, update_self, hp] at hup
      cases hup
    · rwa [update_of_ne hut] at hup
  cases hturn with
  | quiet p _ _ _ hemptied =>
    by_cases hut : u = t
    · subst hut
      simp only [State.goto, update_self] at hu
      exact .inr (hemptied h hu)
    · simp only [State.goto, update_of_ne hut] at hu
      exact .inl hu
  | write op p registry fast hpc hwrote => exact .inl (moved p hwrote.emptied hu)
  | _ => exact .inl (moved _ rfl hu)

lemma Turn.answered (hturn : Turn s t s') (hmem : (h, TeardownOutcome.drained) ∈ s'.outcomes) :
    (h, TeardownOutcome.drained) ∈ s.outcomes ∨ (s.pc t).emptied = some h := by
  cases hturn with
  | answer k outcome hold hdrained =>
    rcases mem_cons.mp hmem with heq | hmem
    · cases heq
      rw [hdrained rfl]
      exact .inr rfl
    · exact .inl hmem
  | _ => exact .inl hmem

lemma Emptied.turn (hi : Informed s) (hs : Emptied s) (hturn : Turn s t s') : Emptied s' := by
  have hz : ∀ h, s.registry.Removed h → s.activeLeases h = 0 → s'.activeLeases h = 0 :=
    fun h hgone h0 => Nat.eq_zero_of_le_zero (h0 ▸ hturn.activeLeases_le hi h hgone)
  have hread : ∀ u h, (s.pc u).emptied = some h →
      s.registry.Removed h ∧ s.activeLeases h = 0 := fun u h hu =>
    ⟨hi.retired u h (retired_of_emptied hu), hs.reading u h hu⟩
  refine ⟨fun u h hu => ?_, fun h hmem => ?_⟩
  · rcases hturn.emptied hu with hold | hnow
    · exact hz h (hread u h hold).1 (hread u h hold).2
    · exact hnow
  · have hgone : s.registry.Removed h ∧ s.activeLeases h = 0 :=
      (hturn.answered hmem).elim (hs.answered h) (hread t h)
    exact ⟨hturn.removed_mono h hgone.1, hz h hgone.1 hgone.2⟩

/-- What holds in every state that is reached. -/
structure Sound (s : State) : Prop where
  locked : Locked s
  informed : Informed s
  counted : Counted s
  emptied : Emptied s

lemma sound_init : Sound init where
  locked := ⟨⟨nodup_nil, fun _ => by simp [init, Pc.reads]⟩,
    fun _ => by simp [init, Pc.writes], .inl rfl⟩
  informed := ⟨ArenaRegistry.consistent_new, fun _ _ _ _ h => (by cases h),
    fun _ _ _ h => (by cases h), fun _ _ h => (by cases h), fun _ _ h => (by cases h)⟩
  counted := fun _ => ⟨∅, fun _ _ => rfl, rfl⟩
  emptied := ⟨fun _ _ h => (by cases h), fun _ h => (by cases h)⟩

lemma Sound.step {e : Event} (hs : Sound s) (hst : step s e = some s') : Sound s' := by
  obtain ⟨t, hturn⟩ := turn_of_step hs.informed.consistent hst
  exact ⟨hs.locked.turn hturn, hs.informed.turn hs.locked hturn, hs.counted.turn hturn,
    hs.emptied.turn hs.informed hturn⟩

lemma sound_of_run (hrun : Run step anyStep init s) : Sound s :=
  hrun.invariant (fun _ _ _ hs _ hst => hs.step hst) sound_init

lemma outcomes_mono (hs : Sound s) (hrun : Run step anyStep s s') {out : Handle × TeardownOutcome}
    (hmem : out ∈ s.outcomes) : out ∈ s'.outcomes := by
  have hboth : Sound s' ∧ out ∈ s'.outcomes := by
    refine hrun.invariant (I := fun u => Sound u ∧ out ∈ u.outcomes) ?_ ⟨hs, hmem⟩
    rintro u e u' ⟨hu, hout⟩ - hst
    refine ⟨hu.step hst, ?_⟩
    obtain ⟨t, hturn⟩ := turn_of_step hu.informed.consistent hst
    cases hturn with
    | answer h outcome _ _ => exact mem_cons_of_mem _ hout
    | _ => exact hout
  exact hboth.2

/-- Once `unregister_and_drain` has answered `Drained` for a registration, no thread has a
lease on it, then or in any later state of any run. Every lease ever returned pins the
registration its request named, and a generation or a token names one registration. -/
theorem drained_never_leased (hrun : Run step anyStep init s) :
    (∀ h, (h, TeardownOutcome.drained) ∈ s.outcomes →
      ∀ s', Run step anyStep s s' → ∀ t, s'.leasesOn h t = 0) ∧
    (∀ request lease, (request, lease) ∈ s.granted → Pins s.registry request lease) ∧
    (∀ (h h' : Handle) (st st' : ArenaState), s.registry.states[h]? = some st →
      s.registry.states[h']? = some st' →
      st.generation = st'.generation ∨ st.token = st'.token → h = h') := by
  have hs := sound_of_run hrun
  refine ⟨fun h hmem s' hlater t => ?_, hs.informed.granted, fun h h' st st' hst hst' heq =>
    hs.informed.consistent.unique hst hst' heq⟩
  have hs' := sound_of_run (hrun.trans hlater)
  have hz := (hs'.emptied.answered h (outcomes_mono hs hlater hmem)).2
  have hle := Sums.le (hs'.counted h) t
  omega

def reregistration : List Event :=
  [.call 1 (.tryRegisterArena 5), .advance 1, .advance 1,
    .call 2 (.tryAcquireLease (.token 1)), .advance 2, .advance 2, .advance 2, .advance 2,
    .call 1 (.unregisterAndDrain 0), .advance 2, .advance 2, .advance 1, .advance 1, .advance 1,
    .call 2 (.dropLease 0), .advance 2, .advance 1, .advance 1,
    .call 1 (.tryRegisterArena 5), .advance 1, .advance 1,
    .call 2 (.tryAcquireLease (.token 1)), .advance 2, .advance 2, .advance 2,
    .call 2 (.tryAcquireLease (.identity ⟨5, 1⟩)), .advance 2, .advance 2, .advance 2,
    .advance 2, .advance 2, .advance 2]

theorem reregistration_drained : ∃ s, Run step anyStep init s ∧ s.outcomes = [(0, .drained)] ∧
      s.granted = [(.identity ⟨5, 1⟩, ⟨1, 1, 5⟩), (.token 1, ⟨0, 0, 5⟩)] ∧
      s.leasesOn 1 2 = 1 ∧ s.leasesOn 0 2 = 0 := by
  have h : exec step init reregistration = some _ := rfl
  have hrun : Run step anyStep init _ := Run.of_exec_any reregistration h
  exact ⟨_, hrun, rfl, rfl, rfl, (drained_never_leased hrun).1 0 (by decide) _ .refl 2⟩

/-- In every run the counter of an arena is the number of its leases, held or in transit. -/
theorem activeLeases_exact (hrun : Run step anyStep init s) (h : Handle) :
    Sums (s.leasesOn h) (s.activeLeases h) :=
  (sound_of_run hrun).counted h

theorem reregistration_exact : ∃ s, exec step init reregistration = some s ∧
    Sums (s.leasesOn 1) (s.activeLeases 1) :=
  ⟨_, rfl, activeLeases_exact (Run.of_exec_any reregistration rfl) 1⟩

end DotnetVm.Leases
