import DotnetVm.Lib.Processes
import DotnetVm.Threads.Manager

/-!
# What the shared variables keep track of

In every run, whatever the interleaving, the registry lists the threads between
registration and exit, the coordinator lists those that have an arena, the two
locks name the one thread inside their critical sections, and
`threads_at_safepoint` is the number of threads between its two updates in
`safe_point`.
-/

namespace DotnetVm.StopTheWorld

open Function Processes Runs State

namespace Pc

def registered : Pc → Bool
  | .absent => false
  | _ => true

def hasArena : Pc → Bool
  | .absent | .registering | .exiting => false
  | _ => true

/-- Between `begin_collection` and the clean-up of the session. -/
def inSession : Pc → Bool
  | .safePoint _ .initiator => true
  | .collecting .finished | .collecting .resumed | .collecting .notified => false
  | .collecting _ => true
  | _ => false

/-- Holding `gc_coordination`. -/
def coordinates : Pc → Bool
  | .collecting .admitted | .collecting .requested | .collecting .waiting => false
  | .collecting _ => true
  | _ => false

/-- Between the two updates of `threads_at_safepoint`. -/
def isCounted : Pc → Bool
  | .safePoint .polled _ => false
  | .safePoint _ _ => true
  | _ => false

/-- Holding the `StopTheWorldGuard`. -/
def holdsGuard : Pc → Bool
  | .collecting .holding | .collecting .finished => true
  | _ => false

def isLeaving : Pc → Bool
  | .safePoint .leaving _ => true
  | _ => false

def isAsleep : Pc → Bool
  | .safePoint .asleep _ => true
  | _ => false

lemma registered_of_hasArena {p : Pc} (h : p.hasArena = true) : p.registered = true := by
  cases p <;> simp_all [hasArena, registered]

lemma hasArena_of_isCounted {p : Pc} (h : p.isCounted = true) : p.hasArena = true := by
  cases p <;> simp_all [hasArena, isCounted]

lemma hasArena_of_coordinates {p : Pc} (h : p.coordinates = true) : p.hasArena = true := by
  cases p <;> simp_all [hasArena, coordinates]

lemma coordinates_of_holdsGuard {p : Pc} (h : p.holdsGuard = true) : p.coordinates = true := by
  cases p with
  | collecting place => cases place <;> simp_all [holdsGuard, coordinates]
  | _ => cases h

end Pc

namespace State

@[simp] lemma move_pc_self (s : State) (t : ArenaId) (q : Pc) : (s.move t q).pc t = q :=
  update_self ..

@[simp] lemma move_pc_other (s : State) (t : ArenaId) (q : Pc) {u : ArenaId} (h : u ≠ t) :
    (s.move t q).pc u = s.pc u :=
  update_of_ne h ..

end State

/-- A region of the code that `wake` neither enters nor leaves. -/
def Blind (region : Pc → Bool) : Prop := ∀ p, region (State.wake p) = region p

lemma blind_of (region : Pc → Bool)
    (h : ∀ c, region (.safePoint .checking c) = region (.safePoint .asleep c)) : Blind region := by
  intro p
  unfold State.wake
  split
  · exact h _
  · rfl

lemma blind_inSession : Blind Pc.inSession := blind_of _ fun c => by cases c <;> rfl

/-- The thread whose operation an event is. -/
def actor (s : State) : Event → ArenaId
  | .registerThread => s.nextThreadId
  | .advance t | .poll t | .performFullGc t | .exit t | .borrowMut t | .releaseMut t
  | .dispatch t _ _ | .finishCollection t => t

/-- What one operation of thread `t` does to the shared variables, by where `t` was and is. -/
structure Moves (s s' : State) (t : ArenaId) : Prop where
  others : ∀ u, u ≠ t → s'.pc u = s.pc u ∨ s'.pc u = State.wake (s.pc u)
  threads : ListMoves Pc.registered (s.pc t) (s'.pc t) t s.threads s'.threads
  arenas : ListMoves Pc.hasArena (s.pc t) (s'.pc t) t s.arenas s'.arenas
  session : LockMoves Pc.inSession (s.pc t) (s'.pc t) t s.collectionLock s'.collectionLock
  coordination : LockMoves Pc.coordinates (s.pc t) (s'.pc t) t s.gcCoordination s'.gcCoordination
  safepoint : CountMoves Pc.isCounted (s.pc t) (s'.pc t) s.threadsAtSafepoint s'.threadsAtSafepoint

variable {s s' : State} {t : ArenaId}

lemma Moves.only (h : Moves s s' t) {region : Pc → Bool}
    (hblind : Blind region) : Only region t s.pc s'.pc := by
  intro u hu
  cases h.others u hu with
  | inl heq => rw [heq]
  | inr heq => rw [heq, hblind]

lemma Moves.stay (ht : s'.pc t = s.pc t)
    (hothers : ∀ u, u ≠ t → s'.pc u = s.pc u ∨ s'.pc u = State.wake (s.pc u))
    (hts : s'.threads = s.threads) (harenas : s'.arenas = s.arenas)
    (hsess : s'.collectionLock = s.collectionLock) (hcoord : s'.gcCoordination = s.gcCoordination)
    (hcnt : s'.threadsAtSafepoint = s.threadsAtSafepoint) : Moves s s' t where
  others := hothers
  threads := by unfold ListMoves; split <;> simp_all
  arenas := by unfold ListMoves; split <;> simp_all
  session := by unfold LockMoves; split <;> simp_all
  coordination := by unfold LockMoves; split <;> simp_all
  safepoint := by unfold CountMoves; split <;> simp_all

lemma Moves.refl (s : State) (t : ArenaId) : Moves s s t :=
  Moves.stay rfl (fun _ _ => Or.inl rfl) rfl rfl rfl rfl rfl

lemma Moves.to {q : Pc} (hpc : s'.pc = update s.pc t q)
    (hts : ListMoves Pc.registered (s.pc t) q t s.threads s'.threads)
    (harenas : ListMoves Pc.hasArena (s.pc t) q t s.arenas s'.arenas)
    (hsess : LockMoves Pc.inSession (s.pc t) q t s.collectionLock s'.collectionLock)
    (hcoord : LockMoves Pc.coordinates (s.pc t) q t s.gcCoordination s'.gcCoordination)
    (hcnt : CountMoves Pc.isCounted (s.pc t) q s.threadsAtSafepoint s'.threadsAtSafepoint) :
    Moves s s' t := by
  have hq : s'.pc t = q := by rw [hpc, update_self]
  exact ⟨fun u hu => Or.inl (by rw [hpc, update_of_ne hu]), by rwa [hq], by rwa [hq], by rwa [hq],
    by rwa [hq], by rwa [hq]⟩

lemma advanceSafePoint_moves {c : Caller} {place : SafePoint}
    (hpc : s.pc t = .safePoint place c) (h : s.advanceSafePoint t c place = some s') :
    Moves s s' t := by
  cases place <;> cases c <;> simp only [advanceSafePoint] at h <;>
    (repeat' split at h) <;> cases h <;> apply Moves.to rfl <;> rw [hpc] <;> rfl

variable {place : Collecting}

lemma advanceCollecting_moves
    (hpc : s.pc t = .collecting place) (h : s.advanceCollecting t place = some s') :
    Moves s s' t := by
  cases place with
  | admitted =>
    simp only [advanceCollecting] at h
    split at h
    · cases h
    · cases h
      apply Moves.to rfl <;> rw [hpc] <;> rfl
  | requested =>
    simp only [advanceCollecting] at h
    split at h
    case h_1 hfree =>
      cases h
      apply Moves.to rfl <;> rw [hpc] <;> first | rfl | exact ⟨hfree, rfl⟩
    case h_2 =>
      split at h
      · cases h
        apply Moves.to rfl <;> rw [hpc] <;> rfl
      · cases h
        exact Moves.refl s t
  | measured n =>
    simp only [advanceCollecting] at h
    split at h <;> cases h <;> apply Moves.to rfl <;> rw [hpc] <;> rfl
  | waiting =>
    simp only [advanceCollecting] at h
    split at h
    case h_1 hfree =>
      cases h
      apply Moves.to rfl <;> rw [hpc] <;> first | rfl | exact ⟨hfree, rfl⟩
    case h_2 => cases h
  | holding => cases h
  | resumed =>
    cases h
    have hself : ∀ f : ArenaId → Pc, update f t (.collecting .notified) t = _ := fun f =>
      update_self ..
    constructor
    · intro u hu
      simp only [update_of_ne hu]
      split
      · exact .inr rfl
      · exact .inl rfl
    all_goals
      dsimp only
      rw [hself, hpc]
      rfl
  | counting | finished | notified =>
    cases h
    apply Moves.to rfl <;> rw [hpc] <;> rfl

lemma advance_moves (h : s.advance t = some s') : Moves s s' t := by
  unfold State.advance at h
  split at h
  case h_1 => cases h
  case h_2 hpc =>
    cases h
    apply Moves.to rfl <;> rw [hpc] <;> rfl
  case h_3 => cases h
  case h_4 hpc =>
    cases h
    apply Moves.to rfl <;> rw [hpc] <;> rfl
  case h_5 hpc => exact advanceSafePoint_moves hpc h
  case h_6 hpc => exact advanceCollecting_moves hpc h

lemma enqueueCommandForArena_moves {u : ArenaId} {command : GCCommand}
    (hut : u ≠ t) (h : s.enqueueCommandForArena u command = some s') : Moves s s' t := by
  unfold enqueueCommandForArena at h
  split at h
  · cases h
  · cases h
    apply Moves.stay <;> try rfl
    · exact s.move_pc_other u _ (Ne.symm hut)
    · intro v _
      by_cases hv : v = u
      · subst hv
        exact .inr (s.move_pc_self v _)
      · exact .inl (s.move_pc_other u _ hv)

def Fresh (s : State) : Prop := ∀ t, s.nextThreadId ≤ t → s.pc t = .absent

lemma step_moves {e : Event} (hfresh : Fresh s) (h : step s e = some s') :
    Moves s s' (actor s e) := by
  cases e with
  | registerThread =>
    simp only [step, registerThread] at h
    split at h
    · cases h
      have hpc : s.pc s.nextThreadId = .absent := hfresh _ le_rfl
      apply Moves.to rfl <;> rw [actor, hpc] <;> rfl
    · cases h
  | advance t => exact advance_moves h
  | poll t =>
    simp only [step] at h
    split at h
    case isTrue hpc =>
      split at h <;> cases h
      · apply Moves.to rfl <;> rw [actor, hpc] <;> rfl
      · exact Moves.refl s t
    case isFalse => cases h
  | performFullGc t =>
    simp only [step] at h
    split at h
    case isTrue hpc =>
      unfold beginCollection at h
      split at h
      case h_1 =>
        cases h
        exact Moves.refl s t
      case h_2 hfree =>
        split at h
        · cases h
        · cases h
          apply Moves.to rfl <;> rw [actor, hpc] <;> first | rfl | exact ⟨hfree, rfl⟩
    case isFalse => cases h
  | exit t =>
    simp only [step] at h
    split at h
    case isTrue hpc =>
      cases h
      apply Moves.to rfl <;> rw [actor, hpc] <;> rfl
    case isFalse => cases h
  | borrowMut t | releaseMut t =>
    simp only [step] at h
    split at h
    · cases h
      exact Moves.stay rfl (fun _ _ => Or.inl rfl) rfl rfl rfl rfl rfl
    · cases h
  | dispatch t u command =>
    simp only [step] at h
    split at h
    case isTrue hcan => exact enqueueCommandForArena_moves hcan.2.2.1 h
    case isFalse => cases h
  | finishCollection t =>
    simp only [step] at h
    split at h
    case isTrue hpc =>
      unfold finishCollection at h
      split at h
      · cases h
        apply Moves.to rfl <;> rw [actor, hpc] <;> rfl
      · cases h
    case isFalse => cases h

lemma advanceSafePoint_registry {c : Caller} {place : SafePoint}
    (h : s.advanceSafePoint t c place = some s') :
    s'.threads = s.threads ∧ s'.nextThreadId = s.nextThreadId := by
  cases place <;> simp only [advanceSafePoint] at h <;>
    (repeat' split at h) <;> cases h <;> exact ⟨rfl, rfl⟩

lemma advanceCollecting_registry (h : s.advanceCollecting t place = some s') :
    s'.threads = s.threads ∧ s'.nextThreadId = s.nextThreadId := by
  cases place <;> simp only [advanceCollecting] at h <;>
    (repeat' split at h) <;> cases h <;> exact ⟨rfl, rfl⟩

/-- Only a registration adds to the registry. -/
lemma step_registry {e : Event} (h : step s e = some s') :
    (s'.threads.Sublist s.threads ∧ s'.nextThreadId = s.nextThreadId) ∨
      (e = .registerThread ∧ s'.threads = s.nextThreadId :: s.threads ∧
        s'.nextThreadId = s.nextThreadId + 1) := by
  have hsm : s'.threads = s.threads ∧ s'.nextThreadId = s.nextThreadId →
      s'.threads.Sublist s.threads ∧ s'.nextThreadId = s.nextThreadId := fun heq =>
    ⟨heq.1 ▸ List.Sublist.refl _, heq.2⟩
  cases e with
  | registerThread =>
    simp only [step, registerThread] at h
    split at h <;> cases h
    exact .inr ⟨rfl, rfl, rfl⟩
  | advance t =>
    apply Or.inl
    simp only [step, State.advance] at h
    split at h
    case h_4 =>
      cases h
      exact ⟨List.erase_sublist, rfl⟩
    case h_5 => exact hsm (advanceSafePoint_registry h)
    case h_6 => exact hsm (advanceCollecting_registry h)
    all_goals
      cases h
      try exact hsm ⟨rfl, rfl⟩
  | dispatch t u command =>
    apply Or.inl
    simp only [step, enqueueCommandForArena] at h
    (repeat' split at h) <;> cases h
    exact hsm ⟨rfl, rfl⟩
  | poll t | performFullGc t | exit t | borrowMut t | releaseMut t | finishCollection t =>
    apply Or.inl
    simp only [step, beginCollection, finishCollection] at h
    (repeat' split at h) <;> cases h <;> exact hsm ⟨rfl, rfl⟩

/-- The shared variables say where the threads are. -/
structure Consistent (s : State) : Prop where
  issued : ∀ t ∈ s.threads, t < s.nextThreadId
  threads : Lists Pc.registered s.pc s.threads
  arenas : Lists Pc.hasArena s.pc s.arenas
  session : Owns Pc.inSession s.pc s.collectionLock
  coordination : Owns Pc.coordinates s.pc s.gcCoordination
  safepoint : Counts Pc.isCounted s.pc s.threadsAtSafepoint

lemma Consistent.fresh (h : Consistent s) : Fresh s := by
  intro t ht
  have hout : t ∉ s.threads := fun hmem => not_lt.mpr ht (h.issued t hmem)
  cases hpc : s.pc t with
  | absent => rfl
  | _ => exact absurd ((h.threads.mem_iff t).mpr (by rw [hpc]; rfl)) hout

lemma consistent_init : Consistent .init where
  issued := nofun
  threads := ⟨List.nodup_nil, fun _ => by simp [State.init, Pc.registered]⟩
  arenas := ⟨List.nodup_nil, fun _ => by simp [State.init, Pc.hasArena]⟩
  session := fun _ => by simp [State.init, Pc.inSession]
  coordination := fun _ => by simp [State.init, Pc.coordinates]
  safepoint := ⟨[], ⟨List.nodup_nil, fun _ => by simp [State.init, Pc.isCounted]⟩, rfl⟩

lemma Consistent.step {e : Event} (h : Consistent s)
    (hst : step s e = some s') : Consistent s' := by
  have hmv := step_moves h.fresh hst
  refine ⟨?_, h.threads.step (hmv.only (blind_of _ fun _ => rfl)) hmv.threads,
    h.arenas.step (hmv.only (blind_of _ fun _ => rfl)) hmv.arenas,
    h.session.step (hmv.only blind_inSession) hmv.session,
    h.coordination.step (hmv.only (blind_of _ fun _ => rfl)) hmv.coordination,
    h.safepoint.step (hmv.only (blind_of _ fun _ => rfl)) hmv.safepoint⟩
  intro t ht
  cases step_registry hst with
  | inl hsub =>
    rw [hsub.2]
    exact h.issued t (hsub.1.subset ht)
  | inr hreg =>
    obtain ⟨-, hts, hnext⟩ := hreg
    rw [hts] at ht
    rw [hnext]
    cases List.mem_cons.mp ht with
    | inl heq => exact heq ▸ Nat.lt_succ_self _
    | inr hmem => exact Nat.lt_succ_of_lt (h.issued t hmem)

end DotnetVm.StopTheWorld
