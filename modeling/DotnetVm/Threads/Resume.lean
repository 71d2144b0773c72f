import DotnetVm.Threads.Parking

/-!
# Who will issue the resume

While the stop request is up, some thread between its store and the drop of the
guard has to be awake to clear it. That fails for a collection requested while the
previous one is still inside the drop of its guard: the new initiator finds
`gc_coordination` taken, parks itself at the safe point, and the notification it
waits for is the one of its own guard. A second window is between the load of the
request and the wait, where the notification is lost.
-/

namespace DotnetVm.StopTheWorld

open Function Pc Processes Runs

namespace Pc

/-- Between the store of the stop request and its clearing, and not at a safe point. -/
def clears : Pc → Bool
  | .collecting .admitted | .collecting .resumed | .collecting .notified => false
  | .collecting _ => true
  | _ => false

/-- An initiator at a safe point. -/
def initiatorStopped : Pc → Bool
  | .safePoint _ .initiator => true
  | _ => false

lemma awaitsStop_of_clears {p : Pc} (h : p.clears = true) :
    p.awaitsStop = true ∧ p.isAsleep = false := by
  cases p with
  | collecting place => cases place <;> simp_all [clears, awaitsStop, isAsleep]
  | _ => cases h

lemma hasArena_of_clears {p : Pc} (h : p.clears = true) : p.hasArena = true := by
  cases p <;> simp_all [hasArena, clears]

lemma hasArena_of_isAsleep {p : Pc} (h : p.isAsleep = true) : p.hasArena = true := by
  cases p <;> simp_all [hasArena, isAsleep]

end Pc

lemma wake_not_isAsleep (p : Pc) : (State.wake p).isAsleep = false := by
  unfold State.wake
  split
  · rfl
  · rename_i hne
    cases p with
    | safePoint place c => cases place <;> first | rfl | exact absurd rfl (hne c)
    | _ => rfl

/-- How an operation of thread `t` hands on the duty to clear the stop request. -/
structure Handover (s s' : State) (t : ArenaId) : Prop where
  clears : (s.pc t).clears = true → (s'.pc t).clears = true ∨ s'.gcStopRequested = false ∨
    (s.pc t = .collecting .requested ∧ s.gcCoordination ≠ none)
  requests : s.pc t = .collecting .admitted → (s'.pc t).clears = true
  requested : s'.pc t = .collecting .requested →
    (s.pc t = .collecting .admitted ∧ s'.gcCoordination = s.gcCoordination) ∨
      (s.pc t = .collecting .requested ∧ s.gcCoordination ≠ none) ∨
      (s.pc t).initiatorStopped = true
  stopped : (s'.pc t).initiatorStopped = true → (s.pc t).initiatorStopped = true ∨
    (s.pc t = .collecting .requested ∧ s.gcCoordination ≠ none)
  enters : (s'.pc t).coordinates = true → (s.pc t).coordinates = true ∨ (s.pc t).inSession = true
  asleep : (s'.pc t).isAsleep = true → ∃ c, s.pc t = .safePoint .deciding c
  notifies : s.pc t = .collecting .resumed → ∀ u ∈ s.arenas, (s'.pc u).isAsleep = false

variable {s s' : State}

lemma advanceSafePoint_handover {t : ArenaId} {c : Caller} {place : SafePoint}
    (hpc : s.pc t = .safePoint place c) (h : s.advanceSafePoint t c place = some s') :
    Handover s s' t := by
  cases place <;> cases c <;> simp only [State.advanceSafePoint] at h <;>
    (repeat' split at h) <;> cases h <;> constructor <;>
    simp_all [Pc.clears, initiatorStopped, Pc.coordinates, isAsleep,
      Caller.resume]

lemma advanceCollecting_handover {t : ArenaId} {place : Collecting}
    (hpc : s.pc t = .collecting place) (h : s.advanceCollecting t place = some s') :
    Handover s s' t := by
  cases place with
  | resumed =>
    cases h
    constructor
    case notifies =>
      intro _ u hu
      dsimp only
      by_cases hut : u = t
      · rw [hut, update_self]
        rfl
      · rw [update_of_ne hut, if_pos hu]
        exact wake_not_isAsleep _
    all_goals simp [hpc, Pc.clears, initiatorStopped, Pc.coordinates, isAsleep]
  | _ =>
    simp only [State.advanceCollecting] at h
    (repeat' split at h) <;> cases h <;> constructor <;>
      simp_all [Pc.clears, initiatorStopped, Pc.coordinates, inSession, isAsleep,
        State.move]

lemma step_handover {e : Event} (hfresh : Fresh s) (h : step s e = some s') :
    Handover s s' (actor s e) := by
  cases e with
  | registerThread =>
    simp only [step, State.registerThread] at h
    have hpc : s.pc s.nextThreadId = .absent := hfresh _ le_rfl
    split at h <;> cases h
    constructor <;> simp [actor, hpc, Pc.clears, initiatorStopped, Pc.coordinates,
      isAsleep]
  | advance t =>
    simp only [step, State.advance] at h
    split at h
    case h_5 hpc => exact advanceSafePoint_handover hpc h
    case h_6 hpc => exact advanceCollecting_handover hpc h
    all_goals
      cases h
      try constructor <;> simp_all [actor, Pc.clears, initiatorStopped,
        Pc.coordinates, isAsleep]
  | dispatch t u command =>
    simp only [step, State.enqueueCommandForArena] at h
    split at h
    case isTrue hcan =>
      have hstay := s.move_pc_other u (State.wake (s.pc u)) (Ne.symm hcan.2.2.1)
      split at h <;> cases h
      constructor <;> simp_all [actor,
        isAsleep]
    case isFalse => cases h
  | poll t | performFullGc t | exit t | borrowMut t | releaseMut t | finishCollection t =>
    simp only [step, State.beginCollection, State.finishCollection] at h
    (repeat' split at h) <;> cases h <;> constructor <;>
      simp_all [actor, State.beginExit, Pc.clears, initiatorStopped,
        Pc.coordinates, isAsleep]

/-- No stop is requested while another collection still holds `gc_coordination`, and no thread
goes to sleep after the request it has loaded was cleared. -/
def Unhindered (s : State) : Event → Prop
  | .advance t => (s.pc t = .collecting .admitted → s.gcCoordination = none) ∧
      (s.pc t = .safePoint .deciding .mutator ∨ s.pc t = .safePoint .deciding .initiator →
        s.gcStopRequested = true)
  | _ => True

instance (s : State) : (e : Event) → Decidable (Unhindered s e)
  | .advance _ => inferInstanceAs (Decidable (_ ∧ _))
  | .registerThread | .poll _ | .performFullGc _ | .exit _ | .borrowMut _ | .releaseMut _
  | .dispatch _ _ _ | .finishCollection _ => isTrue True.intro

structure Answered (s : State) : Prop where
  consistent : Consistent s
  free : ∀ t, s.pc t = .collecting .requested → s.gcCoordination = none
  notStopped : ∀ t, (s.pc t).initiatorStopped = false
  clears : s.gcStopRequested = true → ∃ t, (s.pc t).clears = true
  asleep : ∀ t, (s.pc t).isAsleep = true →
    s.gcStopRequested = true ∨ ∃ u, s.pc u = .collecting .resumed

lemma answered_init : Answered .init where
  consistent := consistent_init
  free := fun _ h => by cases h
  notStopped := fun _ => rfl
  clears := fun h => by cases h
  asleep := nofun

namespace Answered

variable {s s' : State} {e : Event}

variable (h : Answered s)
include h

lemma step_free (hok : Unhindered s e) (hst : step s e = some s') (t : ArenaId)
    (ht : s'.pc t = .collecting .requested) : s'.gcCoordination = none := by
  have hfresh := h.consistent.fresh
  have hhand := step_handover hfresh hst
  have hmv := step_moves hfresh hst
  by_cases hact : t = actor s e
  · subst hact
    rcases hhand.requested ht with ⟨hadm, hsm⟩ | ⟨hreq, hheld⟩ | hstop
    · have he := eq_advance_of_admitted hst hadm hfresh
      rw [he] at hok
      exact hsm.trans (hok.1 hadm)
    · exact absurd (h.free _ hreq) hheld
    · rw [h.notStopped] at hstop
      cases hstop
  · have hs : s.pc t = .collecting .requested := by
      cases hmv.others t hact with
      | inl heq => exact heq ▸ ht
      | inr heq => exact wake_eq_collecting (heq ▸ ht)
    have hfree := h.free t hs
    -- taking the lock now would need a second thread inside the session
    have hout : (s'.pc (actor s e)).coordinates = false := by
      cases hq : (s'.pc (actor s e)).coordinates with
      | false => rfl
      | true =>
        cases hhand.enters hq with
        | inl hc =>
          have hnobody : Owns Pc.coordinates s.pc none := hfree ▸ h.consistent.coordination
          rw [hnobody.none] at hc
          cases hc
        | inr hsess =>
          exact absurd (h.consistent.session.unique (by rw [hs]; rfl) hsess) hact
    have hlock := hmv.coordination
    simp only [LockMoves] at hlock
    split at hlock <;> simp_all

lemma step_notStopped (hst : step s e = some s') (t : ArenaId) :
    (s'.pc t).initiatorStopped = false := by
  have hfresh := h.consistent.fresh
  by_cases hact : t = actor s e
  · subst hact
    cases hq : (s'.pc (actor s e)).initiatorStopped with
    | false => rfl
    | true =>
      cases (step_handover hfresh hst).stopped hq with
      | inl hs =>
        rw [h.notStopped] at hs
        cases hs
      | inr hs => exact absurd (h.free _ hs.1) hs.2
  · rw [(step_moves hfresh hst).only
      (blind_of initiatorStopped fun c => by cases c <;> rfl) t hact]
    exact h.notStopped t

lemma step_clears (hst : step s e = some s') (hflag : s'.gcStopRequested = true) :
    ∃ t, (s'.pc t).clears = true := by
  have hfresh := h.consistent.fresh
  have hhand := step_handover hfresh hst
  rcases (step_turn hfresh hst).flag with hsm | ⟨hadm, -⟩ | ⟨-, -, hclr⟩
  · obtain ⟨t, ht⟩ := h.clears (hsm.symm.trans hflag)
    refine ⟨t, ?_⟩
    by_cases hact : t = actor s e
    · subst hact
      rcases hhand.clears ht with hq | hclr | ⟨hreq, hheld⟩
      · exact hq
      · rw [hflag] at hclr
        cases hclr
      · exact absurd (h.free _ hreq) hheld
    · rw [(step_moves hfresh hst).only (blind_of Pc.clears fun _ => rfl) t hact]
      exact ht
  · exact ⟨_, hhand.requests hadm⟩
  · rw [hflag] at hclr
    cases hclr

lemma step_asleep (hok : Unhindered s e) (hst : step s e = some s') (t : ArenaId)
    (ht : (s'.pc t).isAsleep = true) :
    s'.gcStopRequested = true ∨ ∃ u, s'.pc u = .collecting .resumed := by
  have hfresh := h.consistent.fresh
  have hhand := step_handover hfresh hst
  have hmv := step_moves hfresh hst
  have hflag := (step_turn hfresh hst).flag
  have hup : s.gcStopRequested = true →
      s'.gcStopRequested = true ∨ ∃ u, s'.pc u = .collecting .resumed := fun hs => by
    rcases hflag with hsm | ⟨-, hset⟩ | ⟨-, hres, -⟩
    · exact .inl (hsm.trans hs)
    · exact .inl hset
    · exact .inr ⟨_, hres⟩
  by_cases hact : t = actor s e
  · subst hact
    obtain ⟨c, hc⟩ := hhand.asleep ht
    apply hup
    cases e with
    | advance t => exact hok.2 (by cases c <;> simp_all [actor])
    | registerThread =>
      rw [actor, hfresh _ le_rfl] at hc
      cases hc
    | _ =>
      rw [actor] at hc
      simp [step, hc] at hst
  · have hs : s'.pc t = s.pc t := by
      cases hmv.others t hact with
      | inl heq => exact heq
      | inr heq =>
        rw [heq, wake_not_isAsleep] at ht
        cases ht
    have hasleep : (s.pc t).isAsleep = true := hs ▸ ht
    cases h.asleep t hasleep with
    | inl hs => exact hup hs
    | inr hres =>
      obtain ⟨u, hu⟩ := hres
      by_cases hu' : u = actor s e
      · subst hu'
        have harena := (h.consistent.arenas.mem_iff t).mpr (hasArena_of_isAsleep hasleep)
        rw [hhand.notifies hu t harena] at ht
        cases ht
      · refine .inr ⟨u, ?_⟩
        cases hmv.others u hu' with
        | inl heq => rw [heq, hu]
        | inr heq => rw [heq, hu]; rfl

lemma step (hok : Unhindered s e) (hst : StopTheWorld.step s e = some s') : Answered s' where
  consistent := h.consistent.step hst
  free := h.step_free hok hst
  notStopped := h.step_notStopped hst
  clears := h.step_clears hst
  asleep := h.step_asleep hok hst

end Answered

/-- Somebody can go on: a thread that awaits the requested stop, and in any case a registered
one. -/
structure Progresses (s : State) : Prop where
  responsible : s.gcStopRequested = true →
    ∃ t ∈ s.threads, (s.pc t).awaitsStop = true ∧ (s.pc t).isAsleep = false
  awake : s.threads ≠ [] → ∃ t ∈ s.threads, (s.pc t).isAsleep = false

/-- In every run of unhindered steps some registered thread is awake, and while a stop is requested
so is a thread that waits for the world to stop. -/
theorem progresses_of_unhindered {s : State} (hrun : Run step Unhindered .init s) :
    Progresses s := by
  have h := hrun.invariant (fun _ _ _ hs hok hst => hs.step hok hst) answered_init
  have hresp : s.gcStopRequested = true →
      ∃ t ∈ s.threads, (s.pc t).awaitsStop = true ∧ (s.pc t).isAsleep = false := fun hflag => by
    obtain ⟨t, ht⟩ := h.clears hflag
    exact ⟨t, (h.consistent.threads.mem_iff t).mpr
      (registered_of_hasArena (hasArena_of_clears ht)), awaitsStop_of_clears ht⟩
  refine ⟨hresp, fun hne => ?_⟩
  obtain ⟨t, ht⟩ := List.exists_mem_of_ne_nil _ hne
  cases hasleep : (s.pc t).isAsleep with
  | false => exact ⟨t, ht, hasleep⟩
  | true =>
    cases h.asleep t hasleep with
    | inl hflag =>
      obtain ⟨u, hu, -, hawake⟩ := hresp hflag
      exact ⟨u, hu, hawake⟩
    | inr hres =>
      obtain ⟨u, hu⟩ := hres
      have hreg : (s.pc u).registered = true := by rw [hu]; rfl
      exact ⟨u, (h.consistent.threads.mem_iff u).mpr hreg, by rw [hu]; rfl⟩

/-- The second thread is released, collects in its turn and parks itself before the first has
left the drop of its guard; then the first one polls. -/
def overlap : List Event :=
  stopTwo ++ obey (.mark .all) ++ obey (.sweep .finalize) ++ obey (.sweep .sweep) ++
    [.finishCollection 1, .advance 1, .advance 1, .advance 2, .advance 2,
      .performFullGc 2, .advance 2, .advance 2, .advance 2, .advance 2, .advance 2, .advance 2,
      .advance 1, .poll 1, .advance 1, .advance 1, .advance 1, .advance 1]

/-- The stop request is up and every registered thread, the one that made it included, sleeps
until somebody clears it. -/
theorem overlap_all_asleep :
    ∃ s, Run step anyStep .init s ∧ s.gcStopRequested = true ∧ s.threads = [2, 1] ∧
      (s.pc 2).awaitsStop = true ∧ ∀ t ∈ s.threads, (s.pc t).isAsleep = true := by
  have h : exec step .init overlap = some _ := rfl
  exact ⟨_, Run.of_exec_any overlap h, by decide, by decide, by decide, by decide⟩

theorem stopTwo_progresses :
    ∃ s, Run step Unhindered .init s ∧ s.gcStopRequested = true ∧ Progresses s := by
  have h : exec step .init stopTwo = some _ := rfl
  have hrun : Run step Unhindered .init _ := Run.of_exec stopTwo (by decide) h
  exact ⟨_, hrun, rfl, progresses_of_unhindered hrun⟩

end DotnetVm.StopTheWorld
