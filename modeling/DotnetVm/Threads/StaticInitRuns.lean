import DotnetVm.Threads.StaticInit

/-!
# Answers of static initialization over whole runs

A storage never becomes uninitialized again, and the step from uninitialized to
initializing is made under its mutex. So `Execute` is answered once, and a type with
a static constructor is initialized only by `mark_initialized`.

A thread leaves the wait graph after its wait is over, not when the type it waits
for is done. A cycle found through an edge that is out of date sends a thread on
into a type another thread is still initializing.
-/

namespace DotnetVm.StaticInit

open Function List Option Runs State

/-- The storage whose mutex a thread holds at this place. -/
def Pc.holds : Pc → Option Key
  | .locked k | .claimed k | .loadTarget k | .checkCycle k _ | .relocked k => some k
  | .storing k _ | .clearing k => some k
  | _ => none

/-- The type a thread waits for at this place. -/
def Pc.waitsFor : Pc → Option Key
  | .waiting k | .waitTarget k | .waitUpdate k _ | .polling k | .relocking k | .relocked k => some k
  | _ => none

namespace State

/-- How often `Execute` was answered. -/
def executes (s : State) (k : Key) : Nat :=
  s.results.countP fun r => r.2.1 == k && r.2.2 == .execute

/-- Thread `w` waits for a type that thread `u` is initializing. -/
def Waits (s : State) (w u : ThreadId) : Prop :=
  ∃ k ∈ (s.pc w).waitsFor, s.initState k = .initializing ∧ s.initializingThread k = u

def Closes (s : State) (t : ThreadId) (k : Key) : Prop :=
  s.initState k = .initializing ∧ Relation.TransGen s.Waits (s.initializingThread k) t

end State

section

variable (hasCctor : Key → Bool)

/-- What a thread knows at its place. -/
def Knows (s : State) : Pc → Prop
  | .claimed k => s.executes k = 0 ∧ s.initState k = .initializing
  | .loadTarget k => s.initState k = .initializing
  | .checkCycle k target => s.initState k = .initializing ∧ s.initializingThread k = target
  | .exchanging k => hasCctor k = false
  | .marking k outcome | .storing k outcome =>
    outcome ≠ .uninitialized ∧ (outcome = .initialized → k ∈ s.marked)
  | _ => True

/-- What holds in every state that is reached. -/
structure Sound (s : State) : Prop where
  held : ∀ t k, (s.pc t).holds = some k ↔ s.mutex k = some t
  once : ∀ k, s.executes k ≤ 1
  fresh : ∀ k, s.initState k = .uninitialized → s.executes k = 0
  published : ∀ k, s.initState k = .initialized → hasCctor k = true → k ∈ s.marked
  answered : ∀ t k, (t, k, StaticInitResult.initialized) ∈ s.results → hasCctor k = true →
    k ∈ s.marked
  knows : ∀ t, Knows hasCctor s (s.pc t)

/-- The mutexes after the thread has moved to `p`. -/
def rehold (s : State) (t : ThreadId) (p : Pc) : Key → Option ThreadId := fun k =>
  if p.holds = some k then some t else if (s.pc t).holds = some k then none else s.mutex k

/-- A step of thread `t` to `p` that touches the storage `k` only. -/
structure Effect (s s' : State) (t : ThreadId) (k : Key) (p : Pc) : Prop where
  pc : s'.pc = update s.pc t p
  mutex : s'.mutex = rehold s t p
  free : ∀ k', p.holds = some k' → (s.pc t).holds = some k' ∨ s.mutex k' = none
  others : ∀ k', k' ≠ k →
    s'.initState k' = s.initState k' ∧ s'.initializingThread k' = s.initializingThread k'
  /-- The storage is left alone, or its mutex is held, or nobody has looked at it yet. -/
  mine : (s'.initState k = s.initState k ∧ s'.initializingThread k = s.initializingThread k) ∨
    (s.pc t).holds = some k ∨ s.initState k = .uninitialized
  forward : s'.initState k = .uninitialized → s.initState k = .uninitialized
  counts : (∀ k', s'.executes k' = s.executes k') ∨
    s.pc t = .claimed k ∧ ∀ k', s'.executes k' = s.executes k' + if k' = k then 1 else 0
  published : s'.initState k = .initialized → hasCctor k = true → k ∈ s'.marked
  marked : ∀ k' ∈ s.marked, k' ∈ s'.marked
  answered : ∀ u k', (u, k', StaticInitResult.initialized) ∈ s'.results →
    (u, k', StaticInitResult.initialized) ∈ s.results ∨ (hasCctor k' = true → k' ∈ s'.marked)
  knows : Knows hasCctor s' p

end

variable {hasCctor : Key → Bool} {s s' : State} {t u : ThreadId} {k : Key} {p : Pc}

lemma sound_start : Sound hasCctor start where
  held := fun _ _ => ⟨fun h => (by cases h), fun h => (by cases h)⟩
  once := fun _ => Nat.zero_le 1
  fresh := fun _ _ => rfl
  published := fun _ h => (by cases h)
  answered := fun _ _ h => (by cases h)
  knows := fun _ => True.intro

/-- Two threads do not hold one mutex. -/
lemma Sound.apart (hs : Sound hasCctor s) (ht : (s.pc t).holds = some k)
    (hu : (s.pc u).holds = some k) : t = u :=
  some.inj (((hs.held t k).mp ht).symm.trans ((hs.held u k).mp hu))

section

variable (hs : Sound hasCctor s) (he : Effect hasCctor s s' t k p)
include hs he

lemma Effect.held (u : ThreadId) (k' : Key) : (s'.pc u).holds = some k' ↔ s'.mutex k' = some u := by
  have htk := hs.held t k'
  have huk := hs.held u k'
  rw [he.mutex, he.pc]
  unfold rehold
  by_cases hut : u = t
  · subst hut
    rw [update_self]
    by_cases hp : p.holds = some k'
    · simp [hp]
    · by_cases hold : (s.pc u).holds = some k'
      · simp [hold]
      · simp only [hp, hold, false_iff]
        exact fun hm => hold (htk.mpr hm)
  · rw [update_of_ne hut]
    by_cases hp : p.holds = some k'
    · simp only [hp, if_true, some.injEq]
      constructor
      · intro hu
        rcases he.free k' hp with hold | hno
        · exact hs.apart hold hu
        · rw [huk.mp hu] at hno
          cases hno
      · intro heq
        exact absurd heq.symm hut
    · by_cases hold : (s.pc t).holds = some k'
      · simp only [hp, hold, if_false, if_true, reduceCtorEq, iff_false]
        exact fun hu => hut (hs.apart hold hu).symm
      · simp only [hp, hold]
        exact huk

lemma Effect.untouched (hut : u ≠ t) {k' : Key} (hu : (s.pc u).holds = some k')
    (hst : s.initState k' = .initializing) :
    s'.initState k' = .initializing ∧ s'.initializingThread k' = s.initializingThread k' := by
  by_cases hk : k' = k
  · subst hk
    rcases he.mine with hsm | hheld | hfresh
    · exact ⟨hsm.1.trans hst, hsm.2⟩
    · exact absurd (hs.apart hu hheld) hut
    · rw [hfresh] at hst
      cases hst
  · exact ⟨(he.others k' hk).1.trans hst, (he.others k' hk).2⟩

lemma Effect.knows_other (hut : u ≠ t) : Knows hasCctor s' (s.pc u) := by
  have hkn := hs.knows u
  have hunt : ∀ k', (s.pc u).holds = some k' → _ → _ := fun k' =>
    he.untouched hs hut
  cases hpc : s.pc u with
  | claimed k' =>
    rw [hpc] at hkn hunt
    refine ⟨?_, (hunt k' rfl hkn.2).1⟩
    rcases he.counts with hsm | ⟨hclaim, hplus⟩
    · rw [hsm, hkn.1]
    · have hne : k' ≠ k := fun heq => hut (hs.apart (by rw [hpc, heq]; rfl)
        (by rw [hclaim]; rfl))
      rw [hplus, if_neg hne, hkn.1]
  | loadTarget k' =>
    rw [hpc] at hkn hunt
    exact (hunt k' rfl hkn).1
  | checkCycle k' target =>
    rw [hpc] at hkn hunt
    have hkept := hunt k' rfl hkn.1
    exact ⟨hkept.1, hkept.2.trans hkn.2⟩
  | exchanging k' => rw [hpc] at hkn; exact hkn
  | marking k' outcome | storing k' outcome =>
    rw [hpc] at hkn
    exact ⟨hkn.1, fun ho => he.marked k' (hkn.2 ho)⟩
  | _ => exact True.intro

lemma Sound.effect : Sound hasCctor s' := by
  have hfwd : ∀ k', s'.initState k' = .uninitialized → s.initState k' = .uninitialized :=
    fun k' hk' => by
      by_cases hk : k' = k
      · subst hk
        exact he.forward hk'
      · exact (he.others k' hk).1.symm.trans hk'
  refine ⟨he.held hs, fun k' => ?_, fun k' hk' => ?_, fun k' hk' hc => ?_, fun u k' hmem hc => ?_,
    fun u => ?_⟩
  · rcases he.counts with hsm | ⟨hclaim, hplus⟩
    · rw [hsm]
      exact hs.once k'
    · have hkn := hs.knows t
      rw [hclaim] at hkn
      rw [hplus]
      by_cases hk : k' = k
      · subst hk
        rw [hkn.1, if_pos rfl]
      · rw [if_neg hk]
        exact hs.once k'
  · have hz := hs.fresh k' (hfwd k' hk')
    rcases he.counts with hsm | ⟨hclaim, hplus⟩
    · rw [hsm, hz]
    · have hkn := hs.knows t
      rw [hclaim] at hkn
      have hne : k' ≠ k := fun heq => by
        have huninit := hfwd k' hk'
        rw [heq, hkn.2] at huninit
        cases huninit
      rw [hplus, hz, if_neg hne]
  · by_cases hk : k' = k
    · subst hk
      exact he.published hk' hc
    · exact he.marked k' (hs.published k' ((he.others k' hk).1.symm.trans hk') hc)
  · rcases he.answered u k' hmem with hold | hnew
    · exact he.marked k' (hs.answered u k' hold hc)
    · exact hnew hc
  · rw [he.pc]
    by_cases hut : u = t
    · rw [hut, update_self]
      exact he.knows
    · rw [update_of_ne hut]
      exact he.knows_other hs hut

end

lemma rehold_same (hs : Sound hasCctor s) (h : p.holds = (s.pc t).holds) :
    rehold s t p = s.mutex := by
  funext k
  unfold rehold
  by_cases hp : p.holds = some k
  · rw [if_pos hp]
    exact ((hs.held t k).mp (h ▸ hp)).symm
  · rw [if_neg hp, if_neg (h ▸ hp)]

lemma rehold_unlock (hold : (s.pc t).holds = some k) (hnew : p.holds = none) :
    rehold s t p = update s.mutex k none := by
  funext k'
  unfold rehold
  by_cases hk : k' = k
  · simp [hk, hold, hnew]
  · simp [hk, hold, hnew, Ne.symm hk]

lemma rehold_lock (hold : (s.pc t).holds = none) (hnew : p.holds = some k) :
    rehold s t p = update s.mutex k (some t) := by
  funext k'
  unfold rehold
  by_cases hk : k' = k
  · simp [hk, hnew]
  · simp [hk, hold, hnew, Ne.symm hk]

lemma Sound.pass (hs : Sound hasCctor s) (hstorages : s'.storages = s.storages)
    (hpc : s'.pc = update s.pc t p) (hmutex : s'.mutex = rehold s t p)
    (hfree : ∀ k', p.holds = some k' → (s.pc t).holds = some k' ∨ s.mutex k' = none)
    (hmark : s'.marked = s.marked) (hcnt : ∀ k', s'.executes k' = s.executes k')
    (hanswered : ∀ u k', (u, k', StaticInitResult.initialized) ∈ s'.results →
      (u, k', StaticInitResult.initialized) ∈ s.results ∨ (hasCctor k' = true → k' ∈ s.marked))
    (hkn : Knows hasCctor s' p) : Sound hasCctor s' := by
  have hst : ∀ k', s'.initState k' = s.initState k' := fun k' => by
    unfold initState
    rw [hstorages]
  have hth : ∀ k', s'.initializingThread k' = s.initializingThread k' := fun k' => by
    unfold initializingThread
    rw [hstorages]
  refine hs.effect ⟨hpc, hmutex, hfree, fun k' _ => ⟨hst k', hth k'⟩,
    .inl ⟨hst 0, hth 0⟩, fun h => (hst 0).symm.trans h, .inl hcnt, fun h hc => ?_,
    fun k' hk' => ?_, fun u k' hmem => ?_, hkn⟩
  · rw [hmark]
    exact hs.published 0 ((hst 0).symm.trans h) hc
  · rw [hmark]
    exact hk'
  · rw [hmark]
    exact hanswered u k' hmem

lemma Sound.goto (hs : Sound hasCctor s) (hholds : p.holds = (s.pc t).holds)
    (hkn : Knows hasCctor s p) : Sound hasCctor (s.goto t p) := by
  refine hs.pass rfl rfl (rehold_same hs hholds).symm (fun k' hk' => .inl (hholds ▸ hk')) rfl
    (fun _ => rfl) (fun _ _ h => .inl h) ?_
  cases p <;> exact hkn

lemma Sound.lock (hs : Sound hasCctor s) (hold : (s.pc t).holds = none)
    (hnew : p.holds = some k) (hkn : Knows hasCctor s p) (hlock : s.lock t k p = some s') :
    Sound hasCctor s' := by
  unfold State.lock at hlock
  split at hlock
  · rename_i hfree
    cases hlock
    refine hs.pass rfl rfl (rehold_lock hold hnew).symm (fun k' hk' => ?_) rfl (fun _ => rfl)
      (fun _ _ h => .inl h) ?_
    · cases hnew.symm.trans hk'
      exact .inr hfree
    · cases p <;> exact hkn
  · cases hlock

lemma executes_answer (s : State) (t : ThreadId) (k : Key) {r : StaticInitResult}
    (hr : r ≠ .execute) (p : Pc) (k' : Key) : (s.answer t k r p).executes k' = s.executes k' := by
  simp [State.executes, State.answer, hr]

variable {graph : List (ThreadId × ThreadId)}

lemma Sound.answer (hs : Sound hasCctor s) {r : StaticInitResult} (hr : r ≠ .execute)
    (hinit : r = .initialized → s.initState k = .initialized ∨ hasCctor k = false)
    {mutex : Key → Option ThreadId}
    (hmutex : mutex = rehold s t p) (hno : p.holds = none) (hkn : ∀ s', Knows hasCctor s' p) :
    Sound hasCctor ({ s with waitGraph := graph, mutex := mutex }.answer t k r p) := by
  refine hs.pass rfl rfl hmutex (fun k' hk' => by rw [hno] at hk'; cases hk') rfl
    (fun k' => executes_answer _ t k hr p k') (fun u k' hmem => ?_) (hkn _)
  rcases mem_cons.mp hmem with heq | hold
  · right
    intro hc
    cases heq
    rcases hinit rfl with hread | hfalse
    · exact hs.published k hread hc
    · rw [hfalse] at hc
      cases hc
  · exact .inl hold

lemma initState_setStorage (st : StaticStorage) (k' : Key) :
    (s.setStorage k st).initState k' = if k' = k then st.initState else s.initState k' := by
  by_cases hk : k' = k
  · simp [initState, setStorage, hk]
  · simp [initState, setStorage, hk]

lemma initializingThread_setStorage (st : StaticStorage) (k' : Key) :
    (s.setStorage k st).initializingThread k' =
      if k' = k then st.initializingThread else s.initializingThread k' := by
  by_cases hk : k' = k
  · simp [initializingThread, setStorage, hk]
  · simp [initializingThread, setStorage, hk]

/-- A step that writes one storage. -/
lemma Sound.write (hs : Sound hasCctor s) (st : StaticStorage)
    (hstorages : s'.storages = (s.setStorage k st).storages)
    (hpc : s'.pc = update s.pc t p) (hmutex : s'.mutex = rehold s t p)
    (hfree : ∀ k', p.holds = some k' → (s.pc t).holds = some k' ∨ s.mutex k' = none)
    (hmark : s'.marked = s.marked)
    (hmine : (st.initState = s.initState k ∧ st.initializingThread = s.initializingThread k) ∨
      (s.pc t).holds = some k ∨ s.initState k = .uninitialized)
    (hfwd : st.initState = .uninitialized → s.initState k = .uninitialized)
    (hcounts : (∀ k', s'.executes k' = s.executes k') ∨
      s.pc t = .claimed k ∧ ∀ k', s'.executes k' = s.executes k' + if k' = k then 1 else 0)
    (hpublished : st.initState = .initialized → hasCctor k = true → k ∈ s.marked)
    (hanswered : ∀ u k', (u, k', StaticInitResult.initialized) ∈ s'.results →
      (u, k', StaticInitResult.initialized) ∈ s.results ∨ (hasCctor k' = true → k' ∈ s.marked))
    (hkn : Knows hasCctor s' p) : Sound hasCctor s' := by
  have hst : ∀ k', s'.initState k' = if k' = k then st.initState else s.initState k' :=
    fun k' => by
      rw [← initState_setStorage]
      unfold initState
      rw [hstorages]
  have hth : ∀ k', s'.initializingThread k' =
      if k' = k then st.initializingThread else s.initializingThread k' := fun k' => by
    rw [← initializingThread_setStorage]
    unfold initializingThread
    rw [hstorages]
  have hstate_k : s'.initState k = st.initState := (hst k).trans (if_pos rfl)
  have hthread_k : s'.initializingThread k = st.initializingThread := (hth k).trans (if_pos rfl)
  refine hs.effect ⟨hpc, hmutex, hfree, fun k' hk => ?_, ?_, ?_, hcounts, ?_, ?_, ?_, hkn⟩
  · exact ⟨(hst k').trans (if_neg hk), (hth k').trans (if_neg hk)⟩
  · rw [hstate_k, hthread_k]
    exact hmine
  · rw [hstate_k]
    exact hfwd
  · rw [hstate_k, hmark]
    exact hpublished
  · rw [hmark]
    exact fun _ h => h
  · rw [hmark]
    exact hanswered

lemma knows_afterLoad (s : State) (k : Key) : Knows hasCctor s (afterLoad hasCctor k) := by
  unfold afterLoad
  cases hc : hasCctor k with
  | true => exact True.intro
  | false => exact hc

lemma holds_afterLoad (k : Key) : (afterLoad hasCctor k).holds = none := by
  unfold afterLoad
  cases hasCctor k <;> rfl

variable {rounds : Nat}

/-- Leaving the critical section of `k` with an answer. -/
lemma Sound.unlockAnswer (hs : Sound hasCctor s) (r : StaticInitResult) (p : Pc)
    (hold : (s.pc t).holds = some k) (hr : r ≠ .execute)
    (hread : r = .initialized → s.initState k = .initialized) (hno : p.holds = none)
    (hp : ∀ s', Knows hasCctor s' p) (graph : List (ThreadId × ThreadId)) :
    Sound hasCctor ({ s with waitGraph := graph, mutex := update s.mutex k none }.answer t k r p) :=
  hs.answer hr (fun heq => .inl (hread heq)) (rehold_unlock hold hno).symm hno hp

section

variable {flag : Bool} (hs : Sound hasCctor s) (hst : s.advance hasCctor t flag rounds = some s')
include hs hst

lemma Sound.advance_inserting (hpc : s.pc t = .inserting k) : Sound hasCctor s' := by
  simp only [State.advance, hpc] at hst
  cases hst
  have hsm : ((s.storages k).getD .new).initState = s.initState k ∧
      ((s.storages k).getD .new).initializingThread = s.initializingThread k := by
    unfold initState initializingThread
    cases s.storages k <;> exact ⟨rfl, rfl⟩
  exact hs.write ((s.storages k).getD .new) rfl rfl
    (rehold_same hs (by rw [hpc]; rfl)).symm nofun rfl (.inl hsm)
    (fun h => hsm.1.symm.trans h) (.inl fun _ => rfl)
    (fun h hc => hs.published k (hsm.1.symm.trans h) hc) (fun _ _ h => .inl h) True.intro

/-- The reads of `init` without the lock. -/
lemma Sound.advance_load (hpc : s.pc t = .loadState k ∨ s.pc t = .loadThread k) :
    Sound hasCctor s' := by
  have hno : (s.pc t).holds = none := by rcases hpc with hpc | hpc <;> rw [hpc] <;> rfl
  have hsm : s.mutex = rehold s t .idle := (rehold_same (p := .idle) hs hno.symm).symm
  rcases hpc with hpc | hpc
  all_goals
    simp only [State.advance, hpc] at hst
    split at hst
  · rename_i hread
    cases hst
    exact hs.answer (by decide) (fun _ => .inl hread) hsm rfl fun _ => True.intro
  · cases hst
    exact hs.answer (by decide) (fun h => by cases h) hsm rfl fun _ => True.intro
  · cases hst
    exact hs.goto hno.symm True.intro
  · cases hst
    exact hs.goto ((holds_afterLoad k).trans hno.symm) (knows_afterLoad s k)
  · cases hst
    exact hs.answer (by decide) (fun h => by cases h) hsm rfl fun _ => True.intro
  · cases hst
    exact hs.goto ((holds_afterLoad k).trans hno.symm) (knows_afterLoad s k)

/-- A type without a static constructor is initialized without the lock. -/
lemma Sound.advance_exchanging (hpc : s.pc t = .exchanging k) : Sound hasCctor s' := by
  have hno : hasCctor k = false := by
    have hkn := hs.knows t
    rwa [hpc] at hkn
  have hsm : s.mutex = rehold s t .idle := (rehold_same hs (by rw [hpc]; rfl)).symm
  have hans : ∀ u k', (u, k', StaticInitResult.initialized) ∈
      (t, k, StaticInitResult.initialized) :: s.results →
      (u, k', StaticInitResult.initialized) ∈ s.results ∨ (hasCctor k' = true → k' ∈ s.marked) := by
    intro u k' hmem
    rcases mem_cons.mp hmem with heq | hold
    · cases heq
      exact .inr fun hc => by rw [hno] at hc; cases hc
    · exact .inl hold
  simp only [State.advance, hpc] at hst
  split at hst
  · rename_i hread
    cases hst
    exact hs.write ⟨.initialized, s.initializingThread k⟩ rfl rfl hsm nofun rfl
      (.inr (.inr hread)) nofun (.inl fun k' => executes_answer _ t k (by decide) _ k')
      (fun _ hc => by rw [hno] at hc; cases hc) hans True.intro
  · cases hst
    exact hs.answer (by decide) (fun _ => .inr hno) hsm rfl fun _ => True.intro

/-- The second look at the state, under the lock. -/
lemma Sound.advance_locked (hpc : s.pc t = .locked k) : Sound hasCctor s' := by
  have hold : (s.pc t).holds = some k := by rw [hpc]; rfl
  simp only [State.advance, hpc] at hst
  split at hst
  · rename_i hread
    cases hst
    refine hs.write ⟨.initializing, s.initializingThread k⟩ rfl rfl
      (rehold_same (p := .claimed k) hs hold.symm).symm (fun k' h => .inl (hold.trans h)) rfl
      (.inr (.inr hread)) nofun (.inl fun _ => rfl) nofun
      (fun _ _ h => .inl h) ⟨hs.fresh k hread, ?_⟩
    exact (initState_setStorage _ k).trans (if_pos rfl)
  · rename_i hread
    cases hst
    exact hs.unlockAnswer .initialized .idle hold (by decide) (fun _ => hread) rfl
      (fun _ => True.intro) _
  · cases hst
    exact hs.unlockAnswer .failed .idle hold (by decide) nofun rfl (fun _ => True.intro) _
  · rename_i hread
    cases hst
    exact hs.goto hold.symm hread

/-- `Execute` is answered once: the state was uninitialized when the thread claimed the type. -/
lemma Sound.advance_claimed (hpc : s.pc t = .claimed k) : Sound hasCctor s' := by
  simp only [State.advance, hpc] at hst
  cases hst
  refine hs.write ⟨s.initState k, t⟩ rfl rfl (rehold_unlock (s := s) (by rw [hpc]; rfl) rfl).symm
    nofun rfl (.inr (.inl (by rw [hpc]; rfl))) (fun h => h)
    (.inr ⟨hpc, fun k' => ?_⟩) (fun h hc => hs.published k h hc) (fun u k' hmem => ?_) True.intro
  · simp only [State.executes, State.answer, State.unlock, setStorage]
    by_cases hk : k' = k
    · simp [hk]
    · simp [hk, Ne.symm hk]
  · rcases mem_cons.mp hmem with heq | hold
    · cases heq
    · exact .inl hold

lemma Sound.advance_relocked (hpc : s.pc t = .relocked k) : Sound hasCctor s' := by
  have hunlock : ∀ p : Pc, p.holds = none → (∀ s', Knows hasCctor s' p) →
      Sound hasCctor ((s.unlock k).goto t p) := fun p hp hpk =>
    hs.pass rfl rfl (rehold_unlock (by rw [hpc]; rfl) hp).symm
      (fun _ h => by rw [hp] at h; cases h) rfl (fun _ => rfl) (fun _ _ h => .inl h) (hpk _)
  simp only [State.advance, hpc] at hst
  cases hst
  split
  · exact hunlock _ rfl fun _ => True.intro
  · exact hunlock _ rfl fun _ => True.intro

/-- The stores of `mark_initialized` and `mark_failed`. -/
lemma Sound.advance_store (hpc : (∃ outcome, s.pc t = .storing k outcome) ∨ s.pc t = .clearing k) :
    Sound hasCctor s' := by
  have hkn := hs.knows t
  rcases hpc with ⟨outcome, hpc⟩ | hpc
  all_goals
    simp only [State.advance, hpc] at hst
    rw [hpc] at hkn
    cases hst
  · exact hs.write ⟨outcome, s.initializingThread k⟩ rfl rfl
      (rehold_same hs (by rw [hpc]; rfl)).symm (fun k' h => .inl (by rw [hpc]; exact h)) rfl
      (.inr (.inl (by rw [hpc]; rfl))) (fun h => absurd h hkn.1) (.inl fun _ => rfl)
      (fun h _ => hkn.2 h) (fun _ _ h => .inl h) True.intro
  · exact hs.write ⟨s.initState k, 0⟩ rfl rfl (rehold_unlock (s := s) (by rw [hpc]; rfl) rfl).symm
      nofun rfl (.inr (.inl (by rw [hpc]; rfl))) (fun h => h) (.inl fun _ => rfl)
      (fun h hc => hs.published k h hc) (fun _ _ h => .inl h) True.intro

lemma Sound.advance : Sound hasCctor s' := by
  have hadv := hst
  have hkn := hs.knows t
  unfold State.advance at hst
  cases hpc : s.pc t with
  | inserting k => exact hs.advance_inserting hadv hpc
  | loadState k => exact hs.advance_load hadv (.inl hpc)
  | loadThread k => exact hs.advance_load hadv (.inr hpc)
  | exchanging k => exact hs.advance_exchanging hadv hpc
  | locked k => exact hs.advance_locked hadv hpc
  | claimed k => exact hs.advance_claimed hadv hpc
  | relocked k => exact hs.advance_relocked hadv hpc
  | storing k outcome => exact hs.advance_store hadv (.inl ⟨outcome, hpc⟩)
  | clearing k => exact hs.advance_store hadv (.inr hpc)
  | idle =>
    rw [hpc] at hst
    cases hst
  | locking k =>
    rw [hpc] at hst
    exact hs.lock (p := .locked k) (by rw [hpc]; rfl) rfl True.intro hst
  | relocking k =>
    rw [hpc] at hst
    exact hs.lock (p := .relocked k) (by rw [hpc]; rfl) rfl True.intro hst
  | loadTarget k =>
    rw [hpc] at hst hkn
    dsimp only at hst
    split at hst
    · cases hst
      exact hs.goto (by rw [hpc]; rfl) ⟨hkn, rfl⟩
    · cases hst
      exact hs.unlockAnswer .waiting (.waiting k) (by rw [hpc]; rfl) (by decide) nofun rfl
        (fun _ => True.intro) _
  | checkCycle k target =>
    rw [hpc] at hst
    dsimp only at hst
    split at hst
    · cases hst
    · cases hst
      exact hs.unlockAnswer .recursive .idle (by rw [hpc]; rfl) (by decide) nofun rfl
        (fun _ => True.intro) _
    · cases hst
      exact hs.unlockAnswer .waiting (.waiting k) (by rw [hpc]; rfl) (by decide) nofun rfl
        (fun _ => True.intro) _
  | marking k outcome =>
    rw [hpc] at hst hkn
    dsimp only at hst
    split at hst
    · exact hs.lock (p := .storing k outcome) (by rw [hpc]; rfl) rfl hkn hst
    · cases hst
      exact hs.goto (by rw [hpc]; rfl) True.intro
  | ensuring k =>
    rw [hpc] at hst
    dsimp only at hst
    split at hst
    · cases hst
      exact hs.goto (by rw [hpc]; rfl) True.intro
    · cases hst
      cases flag <;> exact hs.goto (by rw [hpc]; rfl) True.intro
  | waiting k =>
    rw [hpc] at hst
    cases hst
    split <;> exact hs.goto (by rw [hpc]; rfl) True.intro
  | polling k =>
    rw [hpc] at hst
    cases hst
    cases flag <;> exact hs.goto (by rw [hpc]; rfl) True.intro
  | waitTarget k =>
    rw [hpc] at hst
    cases hst
    exact hs.goto (by rw [hpc]; rfl) True.intro
  | waitUpdate _ _ | leaving =>
    rw [hpc] at hst
    cases hst
    exact hs.pass rfl rfl (rehold_same hs (by rw [hpc]; rfl)).symm nofun rfl
      (fun _ => rfl) (fun _ _ h => .inl h) True.intro

end

lemma Sound.step (hs : Sound hasCctor s) {e : Event} (hst : step hasCctor s e = some s') :
    Sound hasCctor s' := by
  cases e with
  | init t k =>
    obtain ⟨hidle, heq⟩ := ite_none_right_eq_some.mp hst
    cases heq
    exact hs.goto (by rw [hidle.2]; rfl) True.intro
  | markInitialized t k =>
    obtain ⟨hidle, heq⟩ := ite_none_right_eq_some.mp hst
    cases heq
    refine hs.effect
      ⟨rfl, (rehold_same hs (by rw [hidle.2]; rfl)).symm, fun _ h => (by cases h),
        fun _ _ => ⟨rfl, rfl⟩, .inl ⟨rfl, rfl⟩, fun h => h, .inl fun _ => rfl,
        fun _ _ => mem_cons_self, fun _ h => mem_cons_of_mem _ h,
        fun _ _ h => .inl h, ⟨by decide, fun _ => mem_cons_self⟩⟩
  | markFailed t k =>
    obtain ⟨hidle, heq⟩ := ite_none_right_eq_some.mp hst
    cases heq
    exact hs.goto (by rw [hidle.2]; rfl) ⟨by decide, nofun⟩
  | advance t flag rounds => exact hs.advance hst

lemma causesCycle_chain {waiter : ThreadId}
    {current : ThreadId} (h : causesCycle graph waiter rounds current = some true) :
    Relation.TransGen (fun w u => (w, u) ∈ graph) current waiter := by
  induction rounds generalizing current with
  | zero => cases h
  | succ rounds ih =>
    simp only [causesCycle] at h
    split at h
    · cases h
    · rename_i next hnext
      have hedge : (current, next) ∈ graph := by
        obtain ⟨l₁, l₂, rfl, -⟩ := lookup_eq_some_iff.mp hnext
        exact mem_append_right _ mem_cons_self
      split at h
      · rename_i heq
        exact .single (heq ▸ hedge)
      · exact .head hedge (ih h)

def Pc.checks : Pc → Bool
  | .checkCycle _ _ => true
  | _ => false

def UpToDate (s : State) : Event → Prop
  | .advance t _ _ => (s.pc t).checks = true → ∀ edge ∈ s.waitGraph, s.Waits edge.1 edge.2
  | .init _ _ | .markInitialized _ _ | .markFailed _ _ => True

lemma results_ne_cons (r : ThreadId × Key × StaticInitResult) :
    s.results ≠ r :: s.results := fun h => by
  have hlen := congrArg List.length h
  simp at hlen

/-- The places at which `init` may answer `Recursive`. -/
inductive TurnsBack (s : State) (t : ThreadId) (rounds : Nat) : Key → Prop where
  | own (k : Key) (hown : s.initializingThread k = t) : TurnsBack s t rounds k
  | cycle (k : Key) (target : ThreadId) (hpc : s.pc t = .checkCycle k target)
      (hcycle : causesCycle s.waitGraph t rounds target = some true) : TurnsBack s t rounds k

lemma turnsBack_of_advance {flag : Bool} (hst : s.advance hasCctor u flag rounds = some s')
    (hnew : s'.results = (t, k, StaticInitResult.recursive) :: s.results) :
    t = u ∧ TurnsBack s u rounds k := by
  have silent : s'.results = s.results → t = u ∧ TurnsBack s u rounds k := fun heq =>
    absurd (heq.symm.trans hnew) (results_ne_cons _)
  have other : ∀ {k' : Key} {r : StaticInitResult}, s'.results = (u, k', r) :: s.results →
      r ≠ .recursive → t = u ∧ TurnsBack s u rounds k := fun heq hne => by
    cases heq.symm.trans hnew
    exact absurd rfl hne
  unfold State.advance at hst
  cases hpc : s.pc u with
  | idle => simp [hpc] at hst
  | loadState _ | exchanging _ | locked _ | loadTarget _ | ensuring _ =>
    rw [hpc] at hst
    dsimp only at hst
    split at hst <;> cases hst <;> first | exact silent rfl | exact other rfl (by decide)
  | loadThread k' =>
    rw [hpc] at hst
    dsimp only at hst
    split at hst <;> cases hst
    · rename_i hown
      cases hnew
      exact ⟨rfl, .own _ hown⟩
    · exact silent rfl
  | claimed k' => rw [hpc] at hst; cases hst; exact other rfl (by decide)
  | checkCycle k' target =>
    rw [hpc] at hst
    dsimp only at hst
    split at hst <;> cases hst
    · rename_i hcycle
      cases hnew
      exact ⟨rfl, .cycle _ target hpc hcycle⟩
    · exact other rfl (by decide)
  | locking _ | relocking _ =>
    rw [hpc] at hst
    simp only [State.lock] at hst
    split at hst <;> cases hst
    exact silent rfl
  | marking k' outcome =>
    rw [hpc] at hst
    simp only [State.lock] at hst
    split at hst
    · split at hst <;> cases hst
      exact silent rfl
    · cases hst
      exact silent rfl
  | _ => rw [hpc] at hst; cases hst; exact silent rfl

lemma recursive_answer {e : Event} (hok : UpToDate s e) (hs : Sound hasCctor s)
    (hst : step hasCctor s e = some s')
    (hnew : s'.results = (t, k, StaticInitResult.recursive) :: s.results) :
    s.initializingThread k = t ∨ s.Closes t k := by
  have silent : s'.results ≠ s.results := fun heq =>
    results_ne_cons _ (heq.symm.trans hnew)
  cases e with
  | init _ _ | markInitialized _ _ | markFailed _ _ =>
    simp only [StaticInit.step] at hst
    split at hst <;> cases hst
    exact absurd rfl silent
  | advance u flag rounds =>
    obtain ⟨rfl, hback⟩ := turnsBack_of_advance hst hnew
    cases hback with
    | own hown => exact .inl hown
    | cycle target hpc hcycle =>
      have hkn := hs.knows t
      rw [hpc] at hkn
      have hedges : ∀ edge ∈ s.waitGraph, s.Waits edge.1 edge.2 := hok (by rw [hpc]; rfl)
      refine .inr ⟨hkn.1, ?_⟩
      rw [hkn.2]
      exact Relation.TransGen.mono (fun w u hedge => hedges (w, u) hedge) _ _
        (causesCycle_chain hcycle)

/-- In every run in which the wait graph is up to date when it is consulted: `Execute` is
answered at most once for each instantiation, `Initialized` only after `mark_initialized` when
there is a static constructor, and `Recursive` only to the initializing thread or to one whose
wait would close a cycle. -/
theorem answers_of_upToDate (hasCctor : Key → Bool) (s : State)
    (hrun : Run (step hasCctor) UpToDate start s) :
    (∀ k, s.executes k ≤ 1) ∧
    (∀ t k, (t, k, StaticInitResult.initialized) ∈ s.results → hasCctor k = true → k ∈ s.marked) ∧
    (∀ e s' t k, UpToDate s e → step hasCctor s e = some s' →
      s'.results = (t, k, StaticInitResult.recursive) :: s.results →
      s.initializingThread k = t ∨ s.Closes t k) := by
  have hs : Sound hasCctor s := hrun.invariant (fun _ _ _ hs _ hst => hs.step hst) sound_start
  exact ⟨hs.once, hs.answered, fun e s' t k hok hst hnew => recursive_answer hok hs hst hnew⟩

def initBy (t : ThreadId) (k : Key) (n : Nat) : List Event :=
  .init t k :: List.replicate n (.advance t false 2)

/-- Thread 1 initializes type 0, thread 2 initializes type 1 and waits for type 0. -/
def crossing : List Event := initBy 1 0 6 ++ initBy 2 1 6 ++ initBy 2 0 7

/-- Type 0 is done, but thread 2 has not noticed when thread 1 comes to type 1. -/
def overdue : List Event :=
  crossing ++ .markInitialized 1 0 :: List.replicate 3 (.advance 1 false 0) ++ initBy 1 1 6

/-- Thread 1 is told to go on into a type that thread 2 initializes, though nobody waits for
anybody. -/
theorem overdue_turns_back : ∃ s s', Run (step fun _ => true) anyStep start s ∧
      step (fun _ => true) s (.advance 1 false 2) = some s' ∧
      s'.results = (1, 1, StaticInitResult.recursive) :: s.results ∧
      s.initializingThread 1 ≠ 1 ∧ ¬ s.Closes 1 1 := by
  have h : exec (step fun _ => true) start overdue = some _ := rfl
  refine ⟨_, _, Run.of_exec_any overdue h, rfl, rfl, by decide, fun hclosed => ?_⟩
  obtain ⟨u, hwaits, -⟩ := Relation.TransGen.head'_iff.mp hclosed.2
  obtain ⟨k, hk, hst, -⟩ := hwaits
  cases hk
  cases hst

instance decidableUpToDate (s : State) : (e : Event) → Decidable (UpToDate s e)
  | .init _ _ => inferInstanceAs (Decidable True)
  | .markInitialized _ _ => inferInstanceAs (Decidable True)
  | .markFailed _ _ => inferInstanceAs (Decidable True)
  | .advance t _ _ =>
    inferInstanceAs (Decidable ((s.pc t).checks = true → ∀ edge ∈ s.waitGraph,
      ∃ k ∈ (s.pc edge.1).waitsFor,
        s.initState k = .initializing ∧ s.initializingThread k = edge.2))

lemma results_unlock_answer (s : State) (t : ThreadId) (k : Key) (r : StaticInitResult) (p : Pc) :
    ((s.unlock k).answer t k r p).results = (t, k, r) :: s.results := rfl

/-- Thread 1 comes to type 1 while thread 2 still waits for type 0. -/
def crossed : State :=
  (exec (step fun _ => true) start (crossing ++ initBy 1 1 6)).getD start

/-- With an edge that is up to date the wait would close a cycle. -/
theorem crossed_turns_back :
    Run (step fun _ => true) UpToDate start crossed ∧ crossed.Closes 1 1 := by
  have h : exec (step fun _ => true) start (crossing ++ initBy 1 1 6) = some crossed := rfl
  have hrun : Run (step fun _ => true) UpToDate start crossed :=
    Run.of_exec (crossing ++ initBy 1 1 6) (by decide) h
  have hst : step (fun _ => true) crossed (.advance 1 false 2) = some _ := rfl
  have hans := (answers_of_upToDate _ _ hrun).2.2 (.advance 1 false 2) _ 1 1 (by decide) hst
    (results_unlock_answer crossed 1 1 .recursive .idle)
  exact ⟨hrun, hans.resolve_left (by decide)⟩

/-- Even where the wait graph is stale, `Execute` is answered at most once for a type. -/
theorem executes_le_one (hrun : Run (step hasCctor) anyStep start s) (k : Key) :
    s.executes k ≤ 1 :=
  (hrun.invariant (fun _ _ _ hs _ hst => hs.step hst) sound_start).once k

theorem overdue_executes :
    ∃ s, exec (step fun _ => true) start overdue = some s ∧ s.executes 0 ≤ 1 :=
  have h : exec _ _ overdue = _ := rfl
  ⟨_, h, executes_le_one (Run.of_exec_any overdue h) 0⟩

end DotnetVm.StaticInit
