import DotnetVm.Threads.Monitors

/-!
# One sync block

The ways into a block and out of it, with every section under its mutex as one
step: the first attempt, each round of a waiting loop, and the exit. Threads that
wait have released the mutex.
-/

namespace DotnetVm.Monitors.Block

open Function Option Runs

inductive Path where
  | tryEnter
  | enter
  | enterWithTimeout
  | enterSafe
  | enterWithTimeoutSafe
  deriving DecidableEq, Repr

inductive Pc where
  | idle
  | entering (path : Path)
  | waiting (path : Path)
  | exiting
  /-- `recursion_count += 1` has overflowed. -/
  | panicked
  deriving DecidableEq, Repr

structure State where
  block : SyncBlockState
  pc : ThreadId → Pc
  /-- The successful enters and exits of each thread since it last acquired the block. -/
  enters : ThreadId → Nat
  exits : ThreadId → Nat

def init : State := ⟨.new, fun _ => .idle, fun _ => 0, fun _ => 0⟩

namespace State

section

variable (s : State) (t : ThreadId)

def goto (p : Pc) : State := { s with pc := update s.pc t p }

def acquire : State where
  block := .markEntered t
  pc := update s.pc t .idle
  enters := update s.enters t 1
  exits := update s.exits t 0

/-- The next section of a call. `patient` is false when the deadline has passed or a collection is
requested. -/
def advance (patient : Bool) : Option State :=
  match s.pc t with
  | .idle | .panicked => none
  | .entering path =>
    match s.block.ownerThreadId with
    | none => some (s.acquire t)
    | some owner =>
      if owner = t then
        if s.block.recursionCount + 1 < 2 ^ 64 then some { s with
          block := ⟨some t, s.block.recursionCount + 1⟩
          enters := update s.enters t (s.enters t + 1)
          pc := update s.pc t .idle }
        else some (s.goto t .panicked)
      else
        match path with
        | .tryEnter => some (s.goto t .idle)
        | .enter | .enterSafe => some (s.goto t (.waiting path))
        | .enterWithTimeout | .enterWithTimeoutSafe =>
          some (s.goto t (if patient then .waiting path else .idle))
  | .waiting path =>
    if s.block.ownerThreadId = none then some (s.acquire t)
    else
      match path with
      | .tryEnter => none
      | .enter => some s
      | .enterWithTimeout => some (s.goto t (if patient then .waiting path else .idle))
      | .enterSafe | .enterWithTimeoutSafe =>
        some (s.goto t (if patient then .entering path else .idle))
  | .exiting =>
    match s.block.exit t with
    | none => some (s.goto t .idle)
    | some b => some { s with
        block := b
        exits := update s.exits t (s.exits t + 1)
        pc := update s.pc t .idle }

end

end State

inductive Event where
  | enter (t : ThreadId) (path : Path)
  | exit (t : ThreadId)
  | advance (t : ThreadId) (patient : Bool)
  deriving DecidableEq, Repr

def step (s : State) : Event → Option State
  | .enter t path => if s.pc t = .idle then some (s.goto t (.entering path)) else none
  | .exit t => if s.pc t = .idle then some (s.goto t .exiting) else none
  | .advance t patient => s.advance t patient

/-- The recursion count is the number of entries the owner has not left. -/
structure Balanced (s : State) : Prop where
  owned : s.block.ownerThreadId.isSome ↔ 0 < s.block.recursionCount
  count : ∀ t, s.block.ownerThreadId = some t → s.block.recursionCount + s.exits t = s.enters t

/-- What one step does to the block and the counts. -/
inductive Change (s s' : State) (t : ThreadId) : Prop where
  | none (hblock : s'.block = s.block) (henters : s'.enters = s.enters)
    (hexits : s'.exits = s.exits)
  | acquired (hfree : s.block.ownerThreadId = none) (h : s' = s.acquire t)
  | again (hown : s.block.ownerThreadId = some t)
      (hblock : s'.block = ⟨some t, s.block.recursionCount + 1⟩)
      (henters : s'.enters = update s.enters t (s.enters t + 1)) (hexits : s'.exits = s.exits)
  | left (hexit : s.block.exit t = some s'.block) (henters : s'.enters = s.enters)
      (hexits : s'.exits = update s.exits t (s.exits t + 1))

variable {s s' : State} {t : ThreadId}

lemma change_of_step {e : Event} (h : step s e = some s') : ∃ t, Change s s' t := by
  cases e with
  | enter t path | exit t =>
    obtain ⟨-, h⟩ := ite_none_right_eq_some.mp h
    cases h
    exact ⟨t, .none rfl rfl rfl⟩
  | advance t patient =>
    refine ⟨t, ?_⟩
    simp only [step, State.advance] at h
    generalize s.pc t = pc at h
    cases pc with
    | idle | panicked => cases h
    | entering path =>
      dsimp only at h
      split at h
      next hfree => cases h; exact .acquired hfree rfl
      next owner howner =>
        split at h
        next hown =>
          subst hown
          split at h <;> cases h
          · exact .again howner rfl rfl rfl
          · exact .none rfl rfl rfl
        · cases path <;> cases h <;> exact .none rfl rfl rfl
    | waiting path =>
      dsimp only at h
      split at h
      next hfree => cases h; exact .acquired hfree rfl
      · cases path <;> cases h <;> exact .none rfl rfl rfl
    | exiting =>
      dsimp only at h
      split at h <;> cases h
      · exact .none rfl rfl rfl
      next b hexit => exact .left hexit rfl rfl

lemma exit_eq_some {b b' : SyncBlockState} (h : b.exit t = some b') :
    b.ownerThreadId = some t ∧ b'.recursionCount + 1 = b.recursionCount ∧
      b'.ownerThreadId = if b'.recursionCount = 0 then none else some t := by
  unfold SyncBlockState.exit at h
  split at h
  · cases h
  next hown =>
    have hown : b.ownerThreadId = some t := not_not.mp hown
    split at h
    · cases h
    split at h <;> cases h
    · exact ⟨hown, by dsimp only; omega, rfl⟩
    next hlast => exact ⟨hown, by dsimp only; omega, by rw [if_neg hlast]; exact hown⟩

lemma Balanced.step {e : Event} (hs : Balanced s) (h : step s e = some s') : Balanced s' := by
  obtain ⟨t, hch⟩ := change_of_step h
  cases hch with
  | none hblk hent hexits =>
    exact ⟨by rw [hblk]; exact hs.owned, by rw [hblk, hent, hexits]; exact hs.count⟩
  | acquired _ h =>
    subst h
    exact ⟨by simp [State.acquire, SyncBlockState.markEntered], fun u hu => by
      cases hu; simp [State.acquire, SyncBlockState.markEntered]⟩
  | again hown hblk hent hexits =>
    refine ⟨by simp [hblk], fun u hu => ?_⟩
    rw [hblk] at hu ⊢
    cases hu
    rw [hent, hexits, update_self, ← hs.count t hown]
    exact Nat.add_right_comm _ _ _
  | left hexit hent hexits =>
    obtain ⟨howner, hcnt, hleft⟩ := exit_eq_some hexit
    refine ⟨?_, fun u hu => ?_⟩ <;> rw [hleft] at *
    · split <;> simp <;> omega
    · split at hu <;> cases hu
      rw [hent, hexits, update_self, ← hs.count t howner]
      omega

lemma Balanced.exit_iff (hs : Balanced s) (t : ThreadId) :
    (s.block.exit t).isSome ↔ s.block.ownerThreadId = some t := by
  refine ⟨fun h => (exit_eq_some (some_get h).symm).1, fun hown => ?_⟩
  have hpos := hs.owned.mp (by rw [hown]; rfl)
  unfold SyncBlockState.exit
  rw [if_neg (not_not.mpr hown), if_neg hpos.ne']
  split <;> rfl

/-- In every interleaving the block has an owner while its count is positive, the count is what the
owner has entered and not yet left since it acquired the block, only the owner can exit, and a
thread becomes the owner only when the count is zero. -/
theorem sync_block_accounts (hrun : Run step anyStep init s) :
    (s.block.ownerThreadId.isSome ↔ 0 < s.block.recursionCount) ∧
    (∀ t, s.block.ownerThreadId = some t → s.block.recursionCount + s.exits t = s.enters t) ∧
    (∀ t, (s.block.exit t).isSome ↔ s.block.ownerThreadId = some t) ∧
    ∀ e s' t, step s e = some s' → s'.block.ownerThreadId = some t →
      s.block.ownerThreadId ≠ some t → s.block.recursionCount = 0 := by
  have hs : Balanced s := hrun.invariant (fun _ _ _ hs _ hst => hs.step hst)
    ⟨by simp [init, SyncBlockState.new], nofun⟩
  refine ⟨hs.owned, hs.count, hs.exit_iff, fun e s' u hst hu hne => ?_⟩
  obtain ⟨t, hch⟩ := change_of_step hst
  cases hch with
  | none hblk => exact absurd (hblk ▸ hu) hne
  | acquired hfree =>
    refine Nat.eq_zero_of_not_pos fun hpos => ?_
    simpa [hfree] using hs.owned.mpr hpos
  | again hown hblk =>
    rw [hblk] at hu
    exact absurd (hown.trans hu) hne
  | left hexit =>
    obtain ⟨howner, -, hleft⟩ := exit_eq_some hexit
    rw [hleft] at hu
    split at hu <;> cases hu
    exact absurd howner hne

/-- Thread 1 enters twice and leaves once while thread 2 waits. -/
def nested : List Event :=
  [.enter 1 .enter, .advance 1 true, .enter 2 .enterSafe, .advance 2 true, .enter 1 .tryEnter,
    .advance 1 true, .exit 1, .advance 1 true, .advance 2 true]

theorem nested_accounts : ∃ s, Run step anyStep init s ∧ s.pc 2 = .entering .enterSafe ∧
    s.block.recursionCount + s.exits 1 = s.enters 1 := by
  have h : exec step init nested = some _ := rfl
  have hrun := Run.of_exec_any nested h
  exact ⟨_, hrun, rfl, (sync_block_accounts hrun).2.1 1 rfl⟩

end DotnetVm.Monitors.Block
