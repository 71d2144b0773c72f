import DotnetVm.Threads.Bookkeeping

/-!
# Who is parked while the world is stopped

A thread is parked between raising `threads_at_safepoint` and being released,
but it is counted until it lowers the counter again, and the registry may grow
after the initiator read its size. When no stop is requested while a released
thread is still counted, and no thread registers between the reading and the
drop of the guard, every other registered thread is parked for as long as the
guard is held. Without either condition a thread runs beside the collector.
-/

namespace DotnetVm.StopTheWorld

open Bool Function Pc Processes Runs

namespace Pc

/-- Inside `safe_point`, counted and not released: the thread waits or executes a command. -/
def parked (p : Pc) : Bool := p.isCounted && !p.isLeaving

/-- Between the store of the stop request and its clearing, where the request must be up. -/
def awaitsStop : Pc → Bool
  | .safePoint _ .initiator => true
  | .collecting .admitted | .collecting .resumed | .collecting .notified => false
  | .collecting _ => true
  | _ => false

/-- Between the reading of the number of threads and the drop of the guard. -/
def reliesOnRegistry : Pc → Bool
  | .collecting (.measured _) => true
  | p => p.holdsGuard

end Pc

variable {place : Collecting}

lemma wake_eq_collecting {p : Pc} (h : State.wake p = .collecting place) :
    p = .collecting place := by
  unfold State.wake at h
  split at h
  · cases h
  · exact h

/-- What an operation of thread `t` does to the stop request and to where `t` is. -/
structure Turn (s s' : State) (t : ArenaId) : Prop where
  leaving : (s'.pc t).isLeaving = true → (s.pc t).isLeaving = true ∨
      ((s.pc t).isCounted = true ∧ (s.gcStopRequested = false ∨ t ∉ s.arenas))
  counted : (s.pc t).parked = true → (s'.pc t).isCounted = true
  session : (s'.pc t).inSession = true → (s.pc t).inSession = true ∨ s.pc t = .running
  awaits : (s'.pc t).awaitsStop = true → (s.pc t).awaitsStop = true ∨ s'.gcStopRequested = true
  measured : ∀ n, s'.pc t = .collecting (.measured n) → s.pc t = .collecting (.measured n) ∨
      (s.threads.length ≤ n + 1 ∧ s'.threads = s.threads)
  guard : (s'.pc t).holdsGuard = true → (s.pc t).holdsGuard = true ∨
    ∃ n, s.pc t = .collecting (.measured n) ∧ n ≤ s.threadsAtSafepoint
  flag : s'.gcStopRequested = s.gcStopRequested ∨
    (s.pc t = .collecting .admitted ∧ s'.gcStopRequested = true) ∨
    (s.pc t = .collecting .finished ∧ s'.pc t = .collecting .resumed ∧ s'.gcStopRequested = false)

variable {s s' : State} {t : ArenaId}

lemma Turn.stay (hpc : s'.pc t = s.pc t)
    (hflag : s'.gcStopRequested = s.gcStopRequested) : Turn s s' t where
  leaving := fun h => Or.inl (hpc ▸ h)
  counted := fun h => by
    rw [hpc]
    exact (and_eq_true_iff.mp h).1
  session := fun h => Or.inl (hpc ▸ h)
  awaits := fun h => Or.inl (hpc ▸ h)
  measured := fun n h => Or.inl (hpc ▸ h)
  guard := fun h => Or.inl (hpc ▸ h)
  flag := Or.inl hflag

lemma advanceSafePoint_turn {c : Caller} {place : SafePoint}
    (hpc : s.pc t = .safePoint place c) (h : s.advanceSafePoint t c place = some s') :
    Turn s s' t := by
  cases place <;> cases c <;> simp only [State.advanceSafePoint] at h <;>
    (repeat' split at h) <;> cases h <;> constructor <;>
    simp_all [isLeaving, Pc.parked, isCounted, inSession, awaitsStop, holdsGuard,
      Caller.resume, State.move]

lemma advanceCollecting_turn
    (hpc : s.pc t = .collecting place) (h : s.advanceCollecting t place = some s') :
    Turn s s' t := by
  cases place <;> simp only [State.advanceCollecting] at h <;>
    (repeat' split at h) <;> cases h <;> constructor <;>
    simp_all [isLeaving, Pc.parked, isCounted, inSession, awaitsStop, holdsGuard,
      State.move]
  all_goals omega

lemma step_turn {e : Event} (hfresh : Fresh s) (h : step s e = some s') :
    Turn s s' (actor s e) := by
  cases e with
  | registerThread =>
    simp only [step, State.registerThread] at h
    have hpc : s.pc s.nextThreadId = .absent := hfresh _ le_rfl
    split at h <;> cases h
    constructor <;> simp [actor, hpc, State.move, isLeaving, Pc.parked, isCounted,
      inSession, awaitsStop, holdsGuard]
  | advance t =>
    simp only [step, State.advance] at h
    split at h
    case h_5 hpc => exact advanceSafePoint_turn hpc h
    case h_6 hpc => exact advanceCollecting_turn hpc h
    all_goals
      cases h
      try constructor <;> simp_all [actor, State.move, isLeaving, Pc.parked, isCounted,
        inSession, awaitsStop, holdsGuard]
  | dispatch t u command =>
    simp only [step, State.enqueueCommandForArena] at h
    split at h
    case isTrue hcan =>
      split at h <;> cases h
      exact Turn.stay (s.move_pc_other u _ (Ne.symm hcan.2.2.1)) rfl
    case isFalse => cases h
  | poll t | performFullGc t | exit t | borrowMut t | releaseMut t | finishCollection t =>
    simp only [step, State.beginCollection, State.finishCollection] at h
    (repeat' split at h) <;> cases h <;> constructor <;>
      simp_all [actor, State.move, State.beginExit, isLeaving, Pc.parked, isCounted,
        inSession, awaitsStop, holdsGuard]

def Orderly (s : State) : Event → Prop
  | .registerThread => ∀ u ∈ s.threads, (s.pc u).reliesOnRegistry = false
  | .advance t => s.pc t = .collecting .admitted → ∀ u ∈ s.threads, (s.pc u).isLeaving = false
  | _ => True

instance (s : State) : (e : Event) → Decidable (Orderly s e)
  | .registerThread => inferInstanceAs (Decidable (∀ u ∈ s.threads, _))
  | .advance t => inferInstanceAs (Decidable (s.pc t = .collecting .admitted → _))
  | .poll _ | .performFullGc _ | .exit _ | .borrowMut _ | .releaseMut _ | .dispatch _ _ _
  | .finishCollection _ => isTrue True.intro

structure Parking (s : State) : Prop where
  consistent : Consistent s
  awaits : ∀ t, (s.pc t).awaitsStop = true → s.gcStopRequested = true
  leaving : s.gcStopRequested = true → ∀ t, (s.pc t).isLeaving = false
  measured : ∀ t n, s.pc t = .collecting (.measured n) → s.threads.length ≤ n + 1
  parked : ∀ g, (s.pc g).holdsGuard = true → ∀ t ∈ s.threads, t ≠ g →
    (s.pc t).parked = true ∧ (s.pc t).inSession = false

lemma parking_init : Parking .init where
  consistent := consistent_init
  awaits := fun _ h => by cases h
  leaving := fun h => by cases h
  measured := fun _ _ h => by cases h
  parked := nofun

lemma eq_advance_of_admitted {e : Event} (hstep : step s e = some s')
    (hpc : s.pc (actor s e) = .collecting .admitted) (hfresh : Fresh s) :
    e = .advance (actor s e) := by
  cases e with
  | advance t => rfl
  | registerThread =>
    rw [actor, hfresh _ le_rfl] at hpc
    cases hpc
  | _ =>
    rw [actor] at hpc
    simp [step, hpc] at hstep

namespace Parking

variable {s s' : State} {e : Event}

lemma mem_threads (h : Parking s) (ht : (s.pc t).hasArena = true) : t ∈ s.threads :=
  (h.consistent.threads.mem_iff t).mpr (registered_of_hasArena ht)

lemma awaitsStop_of_holdsGuard {p : Pc} (h : p.holdsGuard = true) : p.awaitsStop = true := by
  cases p with
  | collecting place => cases place <;> simp_all [holdsGuard, awaitsStop]
  | _ => cases h

lemma threads_sublist (hok : Orderly s e) (hstep : step s e = some s')
    {g : ArenaId} (hg : (s.pc g).reliesOnRegistry = true) (hmem : g ∈ s.threads) :
    s'.threads.Sublist s.threads := by
  cases step_registry hstep with
  | inl hsub => exact hsub.1
  | inr hreg =>
    rw [hreg.1] at hok
    have := hok g hmem
    rw [hg] at this
    cases this

lemma parked_actor (h : Parking s) (hstep : step s e = some s')
    (hflag : s.gcStopRequested = true) (hp : (s.pc (actor s e)).parked = true) :
    (s'.pc (actor s e)).parked = true := by
  have hturn := step_turn h.consistent.fresh hstep
  have hcnt := (and_eq_true_iff.mp hp).1
  have hstays := (and_eq_true_iff.mp hp).2
  have harena := (h.consistent.arenas.mem_iff _).mpr (hasArena_of_isCounted hcnt)
  have hnot : (s'.pc (actor s e)).isLeaving = false := by
    cases hleav : (s'.pc (actor s e)).isLeaving with
    | false => rfl
    | true =>
      have := hturn.leaving hleav
      simp_all
  simp [Pc.parked, hturn.counted hp, hnot]

lemma parked_of_granted (h : Parking s) {g : ArenaId} {n : Nat}
    (hg : s.pc g = .collecting (.measured n)) (hn : n ≤ s.threadsAtSafepoint)
    (ht : t ∈ s.threads) (htg : t ≠ g) : (s.pc t).parked = true ∧ (s.pc t).inSession = false := by
  have hgmem : g ∈ s.threads := h.mem_threads (by rw [hg]; rfl)
  have hlen : s.threads.length ≤ s.threadsAtSafepoint + 1 := by
    have := h.measured g n hg
    omega
  have hcnt := h.consistent.safepoint.all_but_one h.consistent.threads
    (fun _ hj => registered_of_hasArena (hasArena_of_isCounted hj))
    (by rw [hg]; rfl) hgmem hlen ht htg
  have hflag := h.awaits g (by rw [hg]; rfl)
  refine ⟨by simp [Pc.parked, hcnt, h.leaving hflag t], ?_⟩
  cases hsess : (s.pc t).inSession with
  | false => rfl
  | true => exact absurd (h.consistent.session.unique hsess (by rw [hg]; rfl)) htg

lemma step_awaits (h : Parking s) (hstep : step s e = some s') (t : ArenaId)
    (ht : (s'.pc t).awaitsStop = true) : s'.gcStopRequested = true := by
  have hturn := step_turn h.consistent.fresh hstep
  have honly := (step_moves h.consistent.fresh hstep).only
    (blind_of awaitsStop fun c => by cases c <;> rfl)
  by_cases hact : t = actor s e
  · subst hact
    cases hturn.awaits ht with
    | inr hflag => exact hflag
    | inl hs =>
      rcases hturn.flag with hflag | ⟨-, hflag⟩ | ⟨-, hres, -⟩
      · exact hflag.trans (h.awaits _ hs)
      · exact hflag
      · rw [hres] at ht
        cases ht
  · have hs : (s.pc t).awaitsStop = true := honly t hact ▸ ht
    rcases hturn.flag with hflag | ⟨-, hflag⟩ | ⟨hfinished, -⟩
    · exact hflag.trans (h.awaits t hs)
    · exact hflag
    · -- the guard that is being dropped keeps every other thread parked outside a session
      have harena : (s.pc t).hasArena = true := by
        cases hpc : s.pc t <;> simp_all [hasArena, awaitsStop]
      have hp := h.parked _ (by rw [hfinished]; rfl) t (h.mem_threads harena) hact
      cases hpc : s.pc t with
      | safePoint place c =>
        cases c with
        | mutator => rw [hpc] at hs; cases hs
        | initiator => rw [hpc] at hp; cases hp.2
      | _ => rw [hpc] at hp; cases hp.1

section

variable (h : Parking s) (hok : Orderly s e) (hstep : step s e = some s')
include h hok hstep

lemma step_leaving (hflag : s'.gcStopRequested = true) (t : ArenaId) :
    (s'.pc t).isLeaving = false := by
  have hfresh := h.consistent.fresh
  have hturn := step_turn hfresh hstep
  have honly := (step_moves hfresh hstep).only (blind_of isLeaving fun _ => rfl)
  have hbef : s.gcStopRequested = true ∨ s.pc (actor s e) = .collecting .admitted := by
    rcases hturn.flag with hsm | ⟨hadm, -⟩ | ⟨hfinished, -⟩
    · exact .inl (hsm.symm.trans hflag)
    · exact .inr hadm
    · exact .inl (h.awaits _ (by rw [hfinished]; rfl))
  have hno : ∀ u, (s.pc u).isLeaving = false := by
    cases hbef with
    | inl hs => exact h.leaving hs
    | inr hadm =>
      rw [eq_advance_of_admitted hstep hadm hfresh] at hok
      intro u
      cases hu : (s.pc u).isLeaving with
      | false => rfl
      | true =>
        have harena : (s.pc u).hasArena = true := by
          cases hpc : s.pc u <;> simp_all [hasArena, isLeaving]
        rw [hok hadm u (h.mem_threads harena)] at hu
        cases hu
  cases hleav : (s'.pc t).isLeaving with
  | false => rfl
  | true =>
    by_cases hact : t = actor s e
    · subst hact
      rcases hturn.leaving hleav with hs | ⟨hcnt, hs | hs⟩
      · rw [hno] at hs
        cases hs
      · cases hbef with
        | inl hs' => rw [hs] at hs'; cases hs'
        | inr hadm => rw [hadm] at hcnt; cases hcnt
      · exact absurd ((h.consistent.arenas.mem_iff _).mpr (hasArena_of_isCounted hcnt)) hs
    · rw [honly t hact, hno] at hleav
      cases hleav

lemma step_measured (t : ArenaId) (n : Nat) (ht : s'.pc t = .collecting (.measured n)) :
    s'.threads.length ≤ n + 1 := by
  have hfresh := h.consistent.fresh
  have hkept : s.pc t = .collecting (.measured n) → s'.threads.length ≤ n + 1 := fun hs =>
    (threads_sublist hok hstep (by rw [hs]; rfl)
      (h.mem_threads (by rw [hs]; rfl))).length_le.trans (h.measured t n hs)
  by_cases hact : t = actor s e
  · subst hact
    cases (step_turn hfresh hstep).measured n ht with
    | inl hs => exact hkept hs
    | inr hs => exact hs.2 ▸ hs.1
  · cases (step_moves hfresh hstep).others t hact with
    | inl heq => exact hkept (heq ▸ ht)
    | inr heq => exact hkept (wake_eq_collecting (heq ▸ ht))

lemma step_parked (g : ArenaId) (hg : (s'.pc g).holdsGuard = true) (t : ArenaId)
    (ht : t ∈ s'.threads) (htg : t ≠ g) :
    (s'.pc t).parked = true ∧ (s'.pc t).inSession = false := by
  have hfresh := h.consistent.fresh
  have hturn := step_turn hfresh hstep
  have hmv := step_moves hfresh hstep
  have hoth : t ≠ actor s e → (s.pc t).parked = true ∧ (s.pc t).inSession = false →
      (s'.pc t).parked = true ∧ (s'.pc t).inSession = false := fun hact hs => by
    rw [hmv.only (blind_of Pc.parked fun _ => rfl) t hact, hmv.only blind_inSession t hact]
    exact hs
  have hheld : (s.pc g).holdsGuard = true →
      (s'.pc t).parked = true ∧ (s'.pc t).inSession = false := fun hs => by
    have hgmem := h.mem_threads (hasArena_of_coordinates (coordinates_of_holdsGuard hs))
    have hrelies : (s.pc g).reliesOnRegistry = true := by
      cases hpc : s.pc g with
      | collecting place => cases place <;> simp_all [reliesOnRegistry]
      | _ => rw [hpc] at hs; cases hs
    have htmem := (threads_sublist hok hstep hrelies hgmem).subset ht
    have hp := h.parked g hs t htmem htg
    by_cases hact : t = actor s e
    · subst hact
      refine ⟨h.parked_actor hstep (h.awaits g (awaitsStop_of_holdsGuard hs)) hp.1, ?_⟩
      cases hsess : (s'.pc (actor s e)).inSession with
      | false => rfl
      | true =>
        cases hturn.session hsess with
        | inl hin => rw [hp.2] at hin; cases hin
        | inr hrunn => rw [hrunn] at hp; cases hp.1
    · exact hoth hact hp
  by_cases hact : g = actor s e
  · subst hact
    cases hturn.guard hg with
    | inl hs => exact hheld hs
    | inr hgr =>
      obtain ⟨n, hn, hle⟩ := hgr
      have hsub := threads_sublist hok hstep (by rw [hn]; rfl)
        (h.mem_threads (by rw [hn]; rfl))
      exact hoth htg (h.parked_of_granted hn hle (hsub.subset ht) htg)
  · exact hheld (hmv.only (blind_of holdsGuard fun _ => rfl) g hact ▸ hg)

end

lemma step (h : Parking s) (hok : Orderly s e) (hstep : StopTheWorld.step s e = some s') :
    Parking s' where
  consistent := h.consistent.step hstep
  awaits := h.step_awaits hstep
  leaving := h.step_leaving hok hstep
  measured := h.step_measured hok hstep
  parked := h.step_parked hok hstep

end Parking

/-- In an orderly run, whoever holds the guard is the only registered thread not parked inside
`safe_point`, and a parked thread is still parked after whatever operation comes next. -/
theorem others_parked_while_guard_held {s : State} (hrun : Run step Orderly .init s) {g : ArenaId}
    (hg : (s.pc g).holdsGuard = true) {t : ArenaId} (ht : t ∈ s.threads) (htg : t ≠ g) :
    (s.pc t).parked = true ∧ ∀ e s', step s e = some s' → (s'.pc t).parked = true := by
  have hparking := hrun.invariant (fun _ _ _ hs hok hstep => hs.step hok hstep) parking_init
  have hp := (hparking.parked g hg t ht htg).1
  have hflag := hparking.awaits g (Parking.awaitsStop_of_holdsGuard hg)
  refine ⟨hp, fun e s' hstep => ?_⟩
  by_cases hact : t = actor s e
  · subst hact
    exact hparking.parked_actor hstep hflag hp
  · rw [(step_moves hparking.consistent.fresh hstep).only (blind_of Pc.parked fun _ => rfl) t hact]
    exact hp

def stopTwo : List Event :=
  [.registerThread, .advance 1, .registerThread, .advance 2, .performFullGc 1, .advance 1,
    .poll 2, .advance 2, .advance 2, .advance 2, .advance 2, .advance 1, .advance 1, .advance 1]

theorem stopTwo_parks_second :
    ∃ s, Run step Orderly .init s ∧ (s.pc 1).holdsGuard = true ∧ (s.pc 2).parked = true := by
  have h : exec step .init stopTwo = some _ := rfl
  have hrun : Run step Orderly .init _ := Run.of_exec stopTwo (by decide) h
  exact ⟨_, hrun, rfl, (others_parked_while_guard_held hrun (g := 1) rfl (by decide) (by decide)).1⟩

def obey (command : GCCommand) : List Event :=
  [.dispatch 1 2 command, .advance 2, .advance 2, .advance 2, .advance 2, .advance 2]

/-- A whole collection, after which the second thread sees the request cleared and the first one
collects again before the second has lowered the counter. -/
def collectTwice : List Event :=
  stopTwo ++ obey (.mark .all) ++ obey (.sweep .finalize) ++ obey (.sweep .sweep) ++
    [.finishCollection 1, .advance 1, .advance 1, .advance 2, .advance 1,
      .performFullGc 1, .advance 1, .advance 1, .advance 1, .advance 1, .advance 2]

/-- A thread registers while the only other one collects. -/
def registerLate : List Event :=
  [.registerThread, .advance 1, .performFullGc 1, .advance 1, .advance 1, .advance 1, .advance 1,
    .registerThread, .advance 2]

/-- Both a thread released by the previous collection and a thread that has just registered run
managed code while the guard is held. -/
theorem thread_runs_beside_guard :
    (∃ s, exec step .init collectTwice = some s ∧ (s.pc 1).holdsGuard = true ∧ 2 ∈ s.threads ∧
      s.pc 2 = .running) ∧
    (∃ s, exec step .init registerLate = some s ∧ (s.pc 1).holdsGuard = true ∧ 2 ∈ s.threads ∧
      s.pc 2 = .running) := by
  have htwice : exec step .init collectTwice = some _ := rfl
  have hlate : exec step .init registerLate = some _ := rfl
  exact ⟨⟨_, htwice, by decide, by decide, by decide⟩, ⟨_, hlate, by decide, by decide, by decide⟩⟩

end DotnetVm.StopTheWorld
