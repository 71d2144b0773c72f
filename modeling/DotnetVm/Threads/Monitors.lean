import DotnetVm.Lib.Runs

/-!
# Monitors

`Monitor.Enter` on an object reads the sync-block index stored in the object, gets
the block with that index or creates one, stores a new index back into the object
and then enters the block. Each of these is a step of its own, and the threads
interleave between them.

A block alone excludes: it has one owner. An object is excluded only when all
threads use one block for it, which is the case as long as no thread stores an
index into an object that has got one in the meantime.
-/

namespace DotnetVm.Monitors

open Function Option Runs

abbrev ThreadId := Nat

abbrev Obj := Nat

/-- `owner_thread_id` is `none` for `ArenaId::INVALID`. -/
structure SyncBlockState where
  ownerThreadId : Option ThreadId
  recursionCount : Nat
  deriving DecidableEq, Repr

namespace SyncBlockState

def new : SyncBlockState := ⟨none, 0⟩

def markEntered (t : ThreadId) : SyncBlockState := ⟨some t, 1⟩

/-- `lock_and_try_enter` and `try_enter`: `none` when another thread is the owner. -/
def tryEnter (b : SyncBlockState) (t : ThreadId) : Option SyncBlockState :=
  match b.ownerThreadId with
  | none => some (markEntered t)
  | some owner => if owner = t then some { b with recursionCount := b.recursionCount + 1 } else none

/-- `none` when the thread is not the owner. -/
def exit (b : SyncBlockState) (t : ThreadId) : Option SyncBlockState :=
  if b.ownerThreadId ≠ some t then none
  else if b.recursionCount = 0 then none
  else if b.recursionCount - 1 = 0 then some ⟨none, 0⟩
  else some { b with recursionCount := b.recursionCount - 1 }

end SyncBlockState

/-- Which of the entry points is executing. -/
inductive Mode where
  /-- `enter_safe` -/
  | enter
  /-- `try_enter` -/
  | tryEnter
  /-- `enter_with_timeout_safe` -/
  | tryEnterTimeout
  deriving DecidableEq, Repr

/-- Where a thread is in a monitor call on an object. -/
inductive Pc where
  | idle
  | readIndex (o : Obj) (mode : Mode) (currentIndex : Option Nat)
  | gotBlock (o : Obj) (mode : Mode) (currentIndex : Option Nat) (newIndex : Nat)
  /-- The block of the index that was read has gone: look for it once more. -/
  | recheck (o : Obj) (mode : Mode) (existingIndex newIndex : Nat)
  | storing (o : Obj) (mode : Mode) (newIndex : Nat)
  | entering (o : Obj) (mode : Mode) (block : Nat)
  | waiting (o : Obj) (mode : Mode) (block : Nat)
  | exiting (o : Obj) (index : Nat)
  deriving DecidableEq, Repr

structure State where
  syncBlockIndex : Obj → Option Nat
  blocks : Nat → Option SyncBlockState
  nextIndex : Nat
  pc : ThreadId → Pc
  /-- How often the thread has entered the object without leaving it. -/
  entered : ThreadId → Obj → Nat

def init : State where
  syncBlockIndex := fun _ => none
  blocks := fun _ => none
  nextIndex := 1
  pc := fun _ => .idle
  entered := fun _ _ => 0

namespace State

section

variable (s : State) (t : ThreadId)

def goto (p : Pc) : State := { s with pc := update s.pc t p }

def getOrCreateSyncBlock (s : State) (current : Option Nat) : Option (Nat × State) :=
  match current.filter fun i => (s.blocks i).isSome with
  | some i => some (i, s)
  | none =>
    if s.nextIndex + 1 < 2 ^ 64 ∧ s.nextIndex ≠ 0 then
      some (s.nextIndex, { s with
        blocks := update s.blocks s.nextIndex (some .new)
        nextIndex := s.nextIndex + 1 })
    else none

/-- The thread has entered the object through the block. -/
def enter (o : Obj) (block : Nat) (b : SyncBlockState) : State :=
  { s with
    blocks := update s.blocks block (some b)
    entered := update s.entered t (update (s.entered t) o (s.entered t o + 1))
    pc := update s.pc t .idle }

/-- One step inside a call. `hint` answers what the thread cannot decide itself: whether the
deadline has passed, and whether a collection is requested. -/
def advance (hint : Bool) : Option State :=
  match s.pc t with
  | .idle => none
  | .readIndex o mode current =>
    (s.getOrCreateSyncBlock current).map fun (i, s') => s'.goto t (.gotBlock o mode current i)
  | .gotBlock o mode current i =>
    match current with
    | some existing =>
      if existing = i then some (s.goto t (.entering o mode i))
      else some (s.goto t (.recheck o mode existing i))
    | none => some { s with
        syncBlockIndex := update s.syncBlockIndex o (some i)
        pc := update s.pc t (.entering o mode i) }
  | .recheck o mode existing i =>
    if (s.blocks existing).isSome then some (s.goto t (.entering o mode existing))
    else some (s.goto t (.storing o mode i))
  | .storing o mode i => some { s with
      syncBlockIndex := update s.syncBlockIndex o (some i)
      pc := update s.pc t (.entering o mode i) }
  | .entering o mode block =>
    match s.blocks block with
    | none => none
    | some b =>
      match b.tryEnter t with
      | some b' => some (s.enter t o block b')
      | none =>
        match mode with
        | .enter => some (s.goto t (.waiting o mode block))
        | .tryEnter => some (s.goto t .idle)
        | .tryEnterTimeout =>
          some (s.goto t (if hint then .idle else .waiting o mode block))
  -- woken by a notification or by the time-out of the wait
  | .waiting o mode block =>
    match s.blocks block with
    | none => none
    | some b =>
      if b.ownerThreadId = none then some (s.enter t o block (.markEntered t))
      -- a yielding thread executes the whole call again
      else some (s.goto t (if hint then .idle else .entering o mode block))
  | .exiting o index =>
    match s.blocks index with
    | none => some (s.goto t .idle)
    | some b =>
      match b.exit t with
      | none => some (s.goto t .idle)
      | some b' => some { s with
          blocks := update s.blocks index (some b')
          entered := update s.entered t (update (s.entered t) o (s.entered t o - 1))
          pc := update s.pc t .idle }

end

end State

inductive Event where
  | enter (t : ThreadId) (o : Obj) (mode : Mode)
  | exit (t : ThreadId) (o : Obj)
  | advance (t : ThreadId) (hint : Bool)
  deriving DecidableEq, Repr

def step (s : State) : Event → Option State
  | .enter t o mode =>
    if s.pc t = .idle then some (s.goto t (.readIndex o mode (s.syncBlockIndex o))) else none
  | .exit t o =>
    if s.pc t = .idle then
      match s.syncBlockIndex o with
      | none => some s
      | some i => some (s.goto t (.exiting o i))
    else none
  | .advance t hint => s.advance t hint

/-- Two threads enter an object without a sync block. -/
def firstUse : List Event :=
  [.enter 1 0 .enter, .enter 2 0 .enter, .advance 1 false, .advance 2 false, .advance 1 false,
    .advance 1 false, .advance 2 false, .advance 2 false]

/-- Two threads create the block of one object at the same time, and both enter. -/
theorem both_enter : ∃ s, Run step anyStep init s ∧ s.entered 1 0 = 1 ∧ s.entered 2 0 = 1 := by
  have h : exec step init firstUse = some _ := rfl
  exact ⟨_, Run.of_exec_any firstUse h, rfl, rfl⟩

def Pc.storesInto : Pc → Option Obj
  | .gotBlock o _ none _ | .storing o _ _ => some o
  | _ => none

/-- A thread stores a sync-block index only into an object that has none yet. -/
def StoresOnce (s : State) : Event → Prop
  | .advance t _ => ∀ o ∈ (s.pc t).storesInto, s.syncBlockIndex o = none
  | .enter _ _ _ | .exit _ _ => True

instance decidableStoresOnce (s : State) : (e : Event) → Decidable (StoresOnce s e)
  | .enter _ _ _ => inferInstanceAs (Decidable True)
  | .exit _ _ => inferInstanceAs (Decidable True)
  | .advance t _ =>
    inferInstanceAs (Decidable (∀ o ∈ (s.pc t).storesInto, s.syncBlockIndex o = none))

/-- A block no object and no thread knows but the one that created it. -/
def Unclaimed (s : State) (i : Nat) : Prop :=
  s.blocks i = some .new ∧ ∀ o, s.syncBlockIndex o ≠ some i

/-- What a thread knows at its place. -/
def Knows (s : State) : Pc → Prop
  | .idle => True
  | .readIndex o _ current => ∀ i, current = some i → s.syncBlockIndex o = some i
  | .gotBlock o _ (some existing) i => existing = i ∧ s.syncBlockIndex o = some i
  | .gotBlock _ _ none i => Unclaimed s i
  | .recheck _ _ _ _ | .storing _ _ _ => False
  | .entering o _ block | .waiting o _ block => s.syncBlockIndex o = some block
  | .exiting o index => s.syncBlockIndex o = some index

def Pc.created : Pc → Option Nat
  | .gotBlock _ _ none i => some i
  | _ => none

/-- The block of the object knows who has entered it and how often. -/
def Tracks (s : State) (o : Obj) : Prop :=
  match s.syncBlockIndex o with
  | none => ∀ t, s.entered t o = 0
  | some i => ∃ b, s.blocks i = some b ∧
      ∀ t, s.entered t o = if b.ownerThreadId = some t then b.recursionCount else 0

/-- What holds in every state that is reached. -/
structure Sound (s : State) : Prop where
  tracks : ∀ o, Tracks s o
  separate : ∀ o o' i, s.syncBlockIndex o = some i → s.syncBlockIndex o' = some i → o = o'
  unissued : ∀ i, s.nextIndex ≤ i → s.blocks i = none
  knows : ∀ t, Knows s (s.pc t)
  apart : ∀ t u i, (s.pc t).created = some i → (s.pc u).created = some i → t = u

lemma sound_init : Sound init :=
  ⟨fun _ _ => rfl, fun _ _ _ h => (by cases h), fun _ _ => rfl, fun _ => True.intro,
    fun _ _ _ h => (by cases h)⟩

variable {s s' : State} {t : ThreadId} {o : Obj}

variable {i : Nat}

lemma Tracks.block (h : Tracks s o) (hi : s.syncBlockIndex o = some i) :
    ∃ b, s.blocks i = some b ∧
      ∀ t, s.entered t o = if b.ownerThreadId = some t then b.recursionCount else 0 := by
  unfold Tracks at h
  rw [hi] at h
  exact h

variable {b : SyncBlockState}

lemma tracks_of_block (hi : s.syncBlockIndex o = some i) (hb : s.blocks i = some b)
    (h : ∀ t, s.entered t o = if b.ownerThreadId = some t then b.recursionCount else 0) :
    Tracks s o := by
  unfold Tracks
  rw [hi]
  exact ⟨b, hb, h⟩

variable {b' : SyncBlockState}

section

variable (hs : Sound s)
include hs

lemma Sound.apart_update {p : Pc} (hcre : p.created = none) (u v : ThreadId) (i : Nat)
    (hu : (update s.pc t p u).created = some i) (hv : (update s.pc t p v).created = some i) :
    u = v := by
  have hkeep : ∀ w, (update s.pc t p w).created = some i → (s.pc w).created = some i := by
    intro w hw
    by_cases hwt : w = t
    · rw [hwt, update_self, hcre] at hw
      cases hw
    · rwa [update_of_ne hwt] at hw
  exact hs.apart u v i (hkeep u hu) (hkeep v hv)

lemma Sound.goto {p : Pc} (hkn : Knows s p) (hcre : p.created = none) : Sound (s.goto t p) :=
  ⟨hs.tracks, hs.separate, hs.unissued,
    (forall_update_iff s.pc fun _ p => Knows s p).mpr ⟨hkn, fun u _ => hs.knows u⟩,
    hs.apart_update hcre⟩

lemma Sound.create (o : Obj) (mode : Mode) : Sound { s with
      blocks := update s.blocks s.nextIndex (some .new)
      nextIndex := s.nextIndex + 1
      pc := update s.pc t (.gotBlock o mode none s.nextIndex) } := by
  have hno : s.blocks s.nextIndex = none := hs.unissued _ (le_refl _)
  have hfree : ∀ o, s.syncBlockIndex o ≠ some s.nextIndex := fun o hi => by
    obtain ⟨b, hb, -⟩ := (hs.tracks o).block hi
    cases hno.symm.trans hb
  have hkeep : ∀ i b, s.blocks i = some b →
      update s.blocks s.nextIndex (some .new) i = some b := fun i b hb => by
    rw [update_of_ne fun heq => ?_]
    · exact hb
    · subst heq
      cases hno.symm.trans hb
  have hcre : ∀ u, (s.pc u).created ≠ some s.nextIndex := fun u hu => by
    have hkn := hs.knows u
    cases hpc : s.pc u with
    | gotBlock o' mode' current i =>
      cases current with
      | none =>
        rw [hpc] at hkn hu
        cases hu
        cases hno.symm.trans hkn.1
      | some existing => rw [hpc] at hu; cases hu
    | _ => rw [hpc] at hu; cases hu
  refine ⟨fun o' => ?_, hs.separate, fun i hle => ?_,
    (forall_update_iff s.pc fun _ p => Knows _ p).mpr ⟨⟨update_self _ _ _, hfree⟩, fun u hut => ?_⟩,
    fun u v i hu hv => ?_⟩
  · cases hi : s.syncBlockIndex o' with
    | none =>
      have htrk := hs.tracks o'
      unfold Tracks at htrk ⊢
      rw [hi] at htrk
      rw [hi]
      exact htrk
    | some i =>
      obtain ⟨b, hb, hent⟩ := (hs.tracks o').block hi
      exact tracks_of_block hi (hkeep i b hb) hent
  · have hle : s.nextIndex + 1 ≤ i := hle
    dsimp only
    rw [update_of_ne (by omega)]
    exact hs.unissued i (by omega)
  · have hkn := hs.knows u
    cases hpc : s.pc u with
    | gotBlock o' mode' current i =>
      rw [hpc] at hkn
      cases current with
      | none => exact ⟨hkeep i _ hkn.1, hkn.2⟩
      | some existing => exact hkn
    | _ => rw [hpc] at hkn; exact hkn
  · dsimp only at hu hv
    by_cases hut : u = t <;> by_cases hvt : v = t
    · rw [hut, hvt]
    · rw [hut, update_self] at hu
      rw [update_of_ne hvt] at hv
      cases hu
      exact absurd hv (hcre v)
    · rw [hvt, update_self] at hv
      rw [update_of_ne hut] at hu
      cases hv
      exact absurd hu (hcre u)
    · rw [update_of_ne hut] at hu
      rw [update_of_ne hvt] at hv
      exact hs.apart u v i hu hv

lemma Sound.publish {mode : Mode} (hpc : s.pc t = .gotBlock o mode none i)
    (hno : s.syncBlockIndex o = none) :
    Sound { s with
      syncBlockIndex := update s.syncBlockIndex o (some i)
      pc := update s.pc t (.entering o mode i) } := by
  obtain ⟨hblk, hfree⟩ : Unclaimed s i := by
    have hkn := hs.knows t
    rw [hpc] at hkn
    exact hkn
  have hkeep : ∀ o' j, s.syncBlockIndex o' = some j →
      update s.syncBlockIndex o (some i) o' = some j := fun o' j hj => by
    rw [update_of_ne fun heq => ?_]
    · exact hj
    · subst heq
      cases hno.symm.trans hj
  have hunclaimed : ∀ u j, u ≠ t → (s.pc u).created = some j → Unclaimed s j →
      ∀ o', update s.syncBlockIndex o (some i) o' ≠ some j := fun u j hut hu hj o' heq => by
    by_cases ho : o' = o
    · subst ho
      rw [update_self] at heq
      cases heq
      exact hut (hs.apart u t i hu (by rw [hpc]; rfl))
    · rw [update_of_ne ho] at heq
      exact hj.2 o' heq
  refine ⟨fun o' => ?_, fun o₁ o₂ j h₁ h₂ => ?_, hs.unissued,
    (forall_update_iff s.pc fun _ p => Knows _ p).mpr ⟨update_self _ _ _, fun u hut => ?_⟩,
    hs.apart_update rfl⟩
  · by_cases ho : o' = o
    · subst ho
      have htrk := hs.tracks o'
      unfold Tracks at htrk
      rw [hno] at htrk
      exact tracks_of_block (update_self _ _ _) hblk fun u => htrk u
    · have htrk := hs.tracks o'
      unfold Tracks at htrk ⊢
      dsimp only
      rw [update_of_ne ho]
      exact htrk
  · dsimp only at h₁ h₂
    by_cases ho₁ : o₁ = o <;> by_cases ho₂ : o₂ = o
    · rw [ho₁, ho₂]
    · rw [ho₁, update_self] at h₁
      rw [update_of_ne ho₂] at h₂
      cases h₁
      exact absurd h₂ (hfree o₂)
    · rw [ho₂, update_self] at h₂
      rw [update_of_ne ho₁] at h₁
      cases h₂
      exact absurd h₁ (hfree o₁)
    · rw [update_of_ne ho₁] at h₁
      rw [update_of_ne ho₂] at h₂
      exact hs.separate o₁ o₂ j h₁ h₂
  · have hkn := hs.knows u
    cases hu : s.pc u with
    | idle => trivial
    | readIndex o' mode' current =>
      rw [hu] at hkn
      exact fun j hj => hkeep o' j (hkn j hj)
    | gotBlock o' mode' current j =>
      rw [hu] at hkn
      cases current with
      | none => exact ⟨hkn.1, hunclaimed u j hut (by rw [hu]; rfl) hkn⟩
      | some existing => exact ⟨hkn.1, hkeep o' j hkn.2⟩
    | recheck _ _ _ _ | storing _ _ _ => rw [hu] at hkn; exact hkn
    | entering o' _ j | waiting o' _ j | exiting o' j =>
      rw [hu] at hkn; exact hkeep o' j hkn

section

variable (hi : s.syncBlockIndex o = some i)
include hi

lemma Sound.transfer {n : Nat} (hent : ∀ u, (if u = t then n else s.entered u o) =
      if b'.ownerThreadId = some u then b'.recursionCount else 0) :
    Sound { s with
      blocks := update s.blocks i (some b')
      entered := update s.entered t (update (s.entered t) o n)
      pc := update s.pc t .idle } := by
  have hnew : ∀ u o', update s.entered t (update (s.entered t) o n) u o' =
      if u = t ∧ o' = o then n else s.entered u o' := fun u o' => by
    by_cases hut : u = t <;> by_cases ho : o' = o <;>
      simp [hut, ho]
  refine ⟨fun o' => ?_, hs.separate, fun j hle => ?_,
    (forall_update_iff s.pc fun _ p => Knows _ p).mpr ⟨True.intro, fun u _ => ?_⟩,
    hs.apart_update rfl⟩
  · by_cases ho : o' = o
    · subst ho
      refine tracks_of_block hi (update_self _ _ _) fun u => ?_
      rw [← hent u]
      exact (hnew u o').trans (by simp)
    · have hsm : ∀ u, update s.entered t (update (s.entered t) o n) u o' = s.entered u o' :=
        fun u => (hnew u o').trans (by simp [ho])
      cases hj : s.syncBlockIndex o' with
      | none =>
        have htrk := hs.tracks o'
        unfold Tracks at htrk ⊢
        rw [hj] at htrk
        rw [hj]
        exact fun u => (hsm u).trans (htrk u)
      | some j =>
        obtain ⟨b, hb, hcnt⟩ := (hs.tracks o').block hj
        have hne : j ≠ i := fun heq => ho (hs.separate o' o i (heq ▸ hj) hi)
        exact tracks_of_block hj ((update_of_ne hne _ _).trans hb) fun u =>
          (hsm u).trans (hcnt u)
  · obtain ⟨b, hb, -⟩ := (hs.tracks o).block hi
    have hne : j ≠ i := fun heq => by
      subst heq
      cases (hs.unissued j hle).symm.trans hb
    exact (update_of_ne hne _ _).trans (hs.unissued j hle)
  · have hkn := hs.knows u
    cases hu : s.pc u with
    | gotBlock o' mode' current j =>
      rw [hu] at hkn
      cases current with
      | none =>
        have hne : j ≠ i := fun heq => hkn.2 o (heq ▸ hi)
        exact ⟨(update_of_ne hne _ _).trans hkn.1, hkn.2⟩
      | some existing => exact hkn
    | _ => rw [hu] at hkn; exact hkn

lemma Sound.enter (hb : s.blocks i = some b) (henter : b.tryEnter t = some b') :
    Sound (s.enter t o i b') := by
  obtain ⟨c, hc, hcnt⟩ := (hs.tracks o).block hi
  cases hb.symm.trans hc
  refine hs.transfer hi fun u => ?_
  rw [hcnt u, hcnt t]
  unfold SyncBlockState.tryEnter at henter
  split at henter
  · rename_i hfree
    cases henter
    by_cases hut : u = t
    · simp [SyncBlockState.markEntered, hfree, hut]
    · simp [SyncBlockState.markEntered, hfree, hut, Ne.symm hut]
  · rename_i owner hown
    split at henter
    · rename_i heq
      cases henter
      subst heq
      by_cases hut : u = owner
      · simp [hown, hut]
      · simp [hown, hut, Ne.symm hut]
    · cases henter

lemma Sound.exit (hb : s.blocks i = some b) (hexit : b.exit t = some b') :
    Sound { s with
      blocks := update s.blocks i (some b')
      entered := update s.entered t (update (s.entered t) o (s.entered t o - 1))
      pc := update s.pc t .idle } := by
  obtain ⟨c, hc, hcnt⟩ := (hs.tracks o).block hi
  cases hb.symm.trans hc
  refine hs.transfer hi fun u => ?_
  rw [hcnt u, hcnt t]
  unfold SyncBlockState.exit at hexit
  split at hexit
  · cases hexit
  rename_i hown
  have hown : b.ownerThreadId = some t := not_not.mp hown
  split at hexit
  · cases hexit
  split at hexit
  · rename_i hlast
    cases hexit
    by_cases hut : u = t
    · simp [hown, hut, hlast]
    · simp [hown, hut, Ne.symm hut]
  · cases hexit
    by_cases hut : u = t
    · simp [hown, hut]
    · simp [hown, hut, Ne.symm hut]

end

lemma Sound.getOrCreate {mode : Mode} {current : Option Nat}
    (hkn : ∀ i, current = some i → s.syncBlockIndex o = some i)
    (hget : s.getOrCreateSyncBlock current = some (i, s')) :
    Sound (s'.goto t (.gotBlock o mode current i)) := by
  unfold State.getOrCreateSyncBlock at hget
  cases current with
  | none =>
    simp only [filter_none] at hget
    split at hget
    · cases hget
      exact hs.create o mode
    · cases hget
  | some existing =>
    have hi := hkn existing rfl
    obtain ⟨b, hb, -⟩ := (hs.tracks o).block hi
    have hfnd : (some existing).filter (fun i => (s.blocks i).isSome) = some existing := by
      simp [hb]
    rw [hfnd] at hget
    cases hget
    exact hs.goto ⟨rfl, hi⟩ rfl

lemma Sound.advance {hint : Bool} (hok : StoresOnce s (.advance t hint))
    (hst : s.advance t hint = some s') : Sound s' := by
  have hkn := hs.knows t
  unfold State.advance at hst
  generalize hpc : s.pc t = pc at hst hkn
  cases pc with
  | idle => cases hst
  | readIndex o mode current =>
    obtain ⟨⟨i, s₁⟩, hget, rfl⟩ := map_eq_some_iff.mp hst
    exact hs.getOrCreate hkn hget
  | gotBlock o mode current i =>
    cases current with
    | none =>
      have hno : s.syncBlockIndex o = none := hok o (by rw [hpc]; rfl)
      cases hst
      exact hs.publish hpc hno
    | some existing =>
      obtain ⟨rfl, hi⟩ := hkn
      simp only [if_true] at hst
      cases hst
      exact hs.goto hi rfl
  | recheck _ _ _ _ | storing _ _ _ => exact hkn.elim
  | entering o mode block =>
    dsimp only at hst
    split at hst
    · cases hst
    rename_i b hb
    split at hst
    · rename_i b' henter
      cases hst
      exact hs.enter hkn hb henter
    · cases mode with
      | enter => cases hst; exact hs.goto hkn rfl
      | tryEnter => cases hst; exact hs.goto trivial rfl
      | tryEnterTimeout =>
        cases hst
        cases hint with
        | true => exact hs.goto trivial rfl
        | false => exact hs.goto hkn rfl
  | waiting o mode block =>
    dsimp only at hst
    split at hst
    · cases hst
    rename_i b hb
    split at hst
    · rename_i hfree
      cases hst
      exact hs.enter hkn hb (by simp [SyncBlockState.tryEnter, hfree])
    · cases hst
      cases hint with
      | true => exact hs.goto trivial rfl
      | false => exact hs.goto hkn rfl
  | exiting o index =>
    dsimp only at hst
    split at hst
    · cases hst
      exact hs.goto trivial rfl
    rename_i b hb
    split at hst
    · cases hst
      exact hs.goto trivial rfl
    · rename_i b' hexit
      cases hst
      exact hs.exit hkn hb hexit

lemma Sound.step {e : Event} (hok : StoresOnce s e) (hst : step s e = some s') : Sound s' := by
  cases e with
  | enter t o mode =>
    simp only [Monitors.step] at hst
    split at hst
    · cases hst
      exact hs.goto (fun _ hi => hi) rfl
    · cases hst
  | exit t o =>
    simp only [Monitors.step] at hst
    split at hst
    · split at hst
      · cases hst
        exact hs
      · rename_i i hi
        cases hst
        exact hs.goto hi rfl
    · cases hst
  | advance t hint => exact hs.advance hok hst

end

/-- While every index is stored into an object that has none, at most one thread at a time is
between entering an object and leaving it. -/
theorem excludes_of_storesOnce (s : State) (hrun : Run step StoresOnce init s) (o : Obj)
    (t u : ThreadId) (ht : 0 < s.entered t o) (hu : 0 < s.entered u o) : t = u := by
  have hs : Sound s := hrun.invariant (fun _ _ _ hs hok hst => hs.step hok hst) sound_init
  cases hi : s.syncBlockIndex o with
  | none =>
    have htrk := hs.tracks o
    unfold Tracks at htrk
    rw [hi] at htrk
    exact absurd (htrk t) (by omega)
  | some i =>
    obtain ⟨b, -, hcnt⟩ := (hs.tracks o).block hi
    have hown : ∀ v, 0 < s.entered v o → b.ownerThreadId = some v := fun v hv => by
      by_contra hne
      rw [hcnt v, if_neg hne] at hv
      exact lt_irrefl 0 hv
    exact some.inj ((hown t ht).symm.trans (hown u hu))

/-- Thread 2 waits for thread 1, which created the block, and takes over. -/
def handOver : List Event :=
  [.enter 1 0 .enter, .advance 1 false, .advance 1 false, .enter 2 0 .enter, .advance 1 false,
    .advance 2 false, .advance 2 false, .advance 2 false, .exit 1 0, .advance 1 false,
    .advance 2 false]

theorem handOver_excludes :
    ∃ s, Run step StoresOnce init s ∧ s.entered 2 0 = 1 ∧ ∀ t, 0 < s.entered t 0 → t = 2 := by
  have h : exec step init handOver = some _ := rfl
  have hrun : Run step StoresOnce init _ := Run.of_exec handOver (by decide) h
  exact ⟨_, hrun, rfl, fun t ht => excludes_of_storesOnce _ hrun 0 t 2 ht (by decide)⟩

end DotnetVm.Monitors
