import DotnetVm.Lib.Runs

/-!
# The reflection registry

Methods and fields get an index the first time a function pointer or a reflection
object for them is asked for. `shared_reflection_index_get_or_insert` holds the
lock of the key's shard while it takes the next index, stores the pair under the
index and then the index under the pair; requests for keys of other shards go on
meanwhile.

The registry itself resolves every index back. The index handed out is cut to
sixteen bits, so this is true of function pointers and reflection objects only
while at most 65536 pairs are registered.
-/

namespace DotnetVm.Reflection

open Function List Option Runs

abbrev ThreadId := Nat

/-- Where a thread is in `shared_reflection_index_get_or_insert`. -/
inductive Pc (K : Type) where
  | idle
  | vacant (key : K)
  | allocated (key : K) (index : Nat)
  | reversed (key : K) (index : Nat)
  deriving DecidableEq, Repr

variable {K : Type}

/-- The key whose entry the thread holds. -/
def Pc.holding : Pc K → Option K
  | .idle => none
  | .vacant key | .allocated key _ | .reversed key _ => some key

/-- The index taken and not yet stored under its key. -/
def Pc.index : Pc K → Option Nat
  | .idle | .vacant _ => none
  | .allocated _ index | .reversed _ index => some index

/-- `get_runtime_method_index` and `get_runtime_field_index` cast the index to `u16`. -/
def asU16 (index : Nat) : Nat := index % 2 ^ 16

/-- What `ldftn` and `ldvirtftn` push, and what a reflection object stores. -/
def functionPointer (index : Nat) : Int := asU16 index

/-- The `usize` that a function pointer is read back as. -/
def pointerIndex (pointer : Int) : Nat := (pointer % 2 ^ 64).toNat

/-- One registry, of methods or of fields; a key is a member with its generic lookup. The counter
is a `usize`, and each of its values is stored in the table. -/
structure State (K : Type) where
  map : K → Option Nat
  rev : Nat → Option K
  nextIndex : Nat
  locked : Nat → Bool
  pc : ThreadId → Pc K
  issued : List (K × Int)

def init : State K where
  map := fun _ => none
  rev := fun _ => none
  nextIndex := 0
  locked := fun _ => false
  pc := fun _ => .idle
  issued := []

/-- `shared_reflection_by_index`; `none` is its panic. -/
def State.byIndex (s : State K) (index : Nat) : Option K := s.rev index

def State.resolve (s : State K) (pointer : Int) : Option K := s.byIndex (pointerIndex pointer)

inductive Event (K : Type) where
  | request (t : ThreadId) (key : K)
  | advance (t : ThreadId)
  deriving DecidableEq, Repr

section Steps

variable [DecidableEq K] (shard : K → Nat)

section

variable (s : State K) (t : ThreadId) (key : K)

/-- The entry of the key: an occupied one is read and released in one step. -/
def request : State K :=
  match s.map key with
  | some index => { s with issued := (key, functionPointer index) :: s.issued }
  | none =>
    { s with
      locked := update s.locked (shard key) true
      pc := update s.pc t (.vacant key) }

def allocate : State K :=
  { s with
    nextIndex := s.nextIndex + 1
    pc := update s.pc t (.allocated key s.nextIndex) }

def storeReverse (index : Nat) : State K :=
  { s with
    rev := update s.rev index (some key)
    pc := update s.pc t (.reversed key index) }

def storeEntry (index : Nat) : State K :=
  { s with
    map := update s.map key (some index)
    locked := update s.locked (shard key) false
    pc := update s.pc t .idle
    issued := (key, functionPointer index) :: s.issued }

end

def step (s : State K) : Event K → Option (State K)
  | .request t key =>
    if s.pc t = .idle ∧ s.locked (shard key) = false then some (request shard s t key) else none
  | .advance t =>
    match s.pc t with
    | .idle => none
    | .vacant key => some (allocate s t key)
    | .allocated key index => some (storeReverse s t key index)
    | .reversed key index => some (storeEntry shard s t key index)

end Steps

/-- What the place of a thread says about the table of pairs. -/
def Pc.Placed (rev : Nat → Option K) : Pc K → Prop
  | .allocated _ index => rev index = none
  | .reversed key index => rev index = some key
  | _ => True

/-- Every index below the counter is in the map, or one thread is about to put it there. -/
structure Consistent (shard : K → Nat) (s : State K) : Prop where
  locked : ∀ t k, (s.pc t).holding = some k → s.locked (shard k) = true
  holdersApart : ∀ t u k l, (s.pc t).holding = some k → (s.pc u).holding = some l →
    shard k = shard l → t = u
  fresh : ∀ t k, (s.pc t).holding = some k → s.map k = none
  placed : ∀ t, (s.pc t).Placed s.rev
  indexBelow : ∀ t i, (s.pc t).index = some i → i < s.nextIndex
  indicesApart : ∀ t u i, (s.pc t).index = some i → (s.pc u).index = some i → t = u
  revBelow : ∀ i k, s.rev i = some k → i < s.nextIndex
  mapRev : ∀ k i, s.map k = some i → s.rev i = some k
  issued : ∀ p ∈ s.issued, ∃ i, s.map p.1 = some i ∧ p.2 = functionPointer i
  complete : ∀ i < s.nextIndex, (∃ t, (s.pc t).index = some i) ∨
    ∃ k, s.map k = some i ∧ (k, functionPointer i) ∈ s.issued

lemma consistent_init (shard : K → Nat) : Consistent shard (init : State K) where
  locked := by simp [init, Pc.holding]
  holdersApart := by simp [init, Pc.holding]
  fresh := by simp [init]
  placed := fun _ => True.intro
  indexBelow := by simp [init, Pc.index]
  indicesApart := by simp [init, Pc.index]
  revBelow := by simp [init]
  mapRev := by simp [init]
  issued := by simp [init]
  complete := by simp [init]

section Preservation

variable {shard : K → Nat} {s s' : State K} {t : ThreadId} {key : K} {index : Nat}

lemma update_same {β : Type} {f : Pc K → β} {p : Pc K} (hp : f p = f (s.pc t)) (u : ThreadId) :
    f (update s.pc t p u) = f (s.pc u) := by
  by_cases hu : u = t
  · subst hu; simpa using hp
  · simp [hu]

variable (h : Consistent shard s)
include h

lemma Consistent.request (hidle : s.pc t = .idle) (hfree : s.locked (shard key) = false) :
    Consistent shard (request shard s t key) := by
  unfold Reflection.request
  cases hmap : s.map key with
  | some index =>
    exact { h with
      issued := forall_mem_cons.mpr ⟨⟨index, hmap, rfl⟩, h.issued⟩
      complete := fun i hi => (h.complete i hi).imp_right fun ⟨k, hk, hmem⟩ =>
        ⟨k, hk, mem_cons_of_mem _ hmem⟩ }
  | none =>
    -- a thread that holds an entry holds the lock of a shard other than this one
    have hoth : ∀ u l, (s.pc u).holding = some l → shard l ≠ shard key := by
      intro u l hl heq
      have := h.locked u l hl
      rw [heq, hfree] at this
      cases this
    have hidx : ∀ u, (update s.pc t (.vacant key) u).index = (s.pc u).index :=
      update_same (by rw [hidle]; rfl)
    refine { h with locked := ?_, holdersApart := ?_, fresh := ?_, placed := ?_, indexBelow := ?_,
                    indicesApart := ?_, complete := ?_ }
    · intro u l hl
      by_cases hu : u = t
      · subst hu
        obtain rfl : key = l := by simpa [Pc.holding] using hl
        simp
      · have hl' : (s.pc u).holding = some l := by simpa [hu] using hl
        simp [hoth u l hl', h.locked u l hl']
    · intro u v k l hk hl heq
      by_cases hu : u = t <;> by_cases hv : v = t
      · rw [hu, hv]
      · subst hu
        obtain rfl : key = k := by simpa [Pc.holding] using hk
        exact absurd heq.symm (hoth v l (by simpa [hv] using hl))
      · subst hv
        obtain rfl : key = l := by simpa [Pc.holding] using hl
        exact absurd heq (hoth u k (by simpa [hu] using hk))
      · exact h.holdersApart u v k l (by simpa [hu] using hk) (by simpa [hv] using hl) heq
    · intro u l hl
      by_cases hu : u = t
      · subst hu
        obtain rfl : key = l := by simpa [Pc.holding] using hl
        exact hmap
      · exact h.fresh u l (by simpa [hu] using hl)
    · exact (forall_update_iff _ fun _ (p : Pc K) => p.Placed s.rev).mpr
        ⟨True.intro, fun u _ => h.placed u⟩
    · intro u i hi
      exact h.indexBelow u i (by rwa [hidx] at hi)
    · intro u v i hi hj
      exact h.indicesApart u v i (by rwa [hidx] at hi) (by rwa [hidx] at hj)
    · intro i hi
      exact (h.complete i hi).imp_left fun ⟨u, hu⟩ => ⟨u, by rwa [hidx]⟩

lemma Consistent.allocate (hpc : s.pc t = .vacant key) : Consistent shard (allocate s t key) := by
  have hhold : ∀ u, (update s.pc t (.allocated key s.nextIndex) u).holding = (s.pc u).holding :=
    update_same (by rw [hpc]; rfl)
  have hfresh : s.rev s.nextIndex = none := by
    cases hrev : s.rev s.nextIndex with
    | none => rfl
    | some k => exact absurd (h.revBelow _ k hrev) (lt_irrefl _)
  have hidx : ∀ u i, (update s.pc t (.allocated key s.nextIndex) u).index = some i →
      (u = t ∧ i = s.nextIndex) ∨ (u ≠ t ∧ (s.pc u).index = some i ∧ i < s.nextIndex) := by
    intro u i hi
    by_cases hu : u = t
    · subst hu
      exact .inl ⟨rfl, by simpa [Pc.index, eq_comm] using hi⟩
    · have hi' : (s.pc u).index = some i := by simpa [hu] using hi
      exact .inr ⟨hu, hi', h.indexBelow u i hi'⟩
  refine { locked := ?_, holdersApart := ?_, fresh := ?_, placed := ?_, indexBelow := ?_,
           indicesApart := ?_, revBelow := ?_, mapRev := h.mapRev, issued := h.issued,
           complete := ?_ }
  · exact fun u k hk => h.locked u k (by rwa [← hhold u])
  · exact fun u v k l hk hl => h.holdersApart u v k l (by rwa [← hhold u]) (by rwa [← hhold v])
  · exact fun u k hk => h.fresh u k (by rwa [← hhold u])
  · exact (forall_update_iff _ fun _ (p : Pc K) => p.Placed s.rev).mpr
      ⟨hfresh, fun u _ => h.placed u⟩
  · intro u i hi
    show i < s.nextIndex + 1
    obtain ⟨-, rfl⟩ | ⟨-, -, hlt⟩ := hidx u i hi <;> omega
  · intro u v i hi hj
    obtain ⟨rfl, rfl⟩ | ⟨-, hi', hlt⟩ := hidx u i hi
    · obtain ⟨rfl, -⟩ | ⟨-, -, hlt⟩ := hidx v _ hj
      · rfl
      · exact absurd hlt (lt_irrefl _)
    · obtain ⟨-, rfl⟩ | ⟨-, hj', -⟩ := hidx v i hj
      · exact absurd hlt (lt_irrefl _)
      · exact h.indicesApart u v i hi' hj'
  · intro i k hk
    exact Nat.lt_succ_of_lt (h.revBelow i k hk)
  · intro i hi
    by_cases hlast : i = s.nextIndex
    · exact .inl ⟨t, by simp [Reflection.allocate, Pc.index, hlast]⟩
    · have hi' : i < s.nextIndex := by
        have : i < s.nextIndex + 1 := hi
        omega
      refine (h.complete i hi').imp_left ?_
      rintro ⟨u, hu⟩
      refine ⟨u, ?_⟩
      have hut : u ≠ t := by
        rintro rfl
        rw [hpc] at hu
        cases hu
      simpa [Reflection.allocate, hut] using hu

lemma Consistent.storeReverse (hpc : s.pc t = .allocated key index) :
    Consistent shard (storeReverse s t key index) := by
  have hhold : ∀ u, (update s.pc t (.reversed key index) u).holding = (s.pc u).holding :=
    update_same (by rw [hpc]; rfl)
  have hidx : ∀ u, (update s.pc t (.reversed key index) u).index = (s.pc u).index :=
    update_same (by rw [hpc]; rfl)
  have hown : (s.pc t).index = some index := by simp [hpc, Pc.index]
  have hno : s.rev index = none := by
    have := h.placed t
    rwa [hpc] at this
  -- no other thread has this index, so their places do not read the new row
  have hplaced : ∀ u, u ≠ t → (s.pc u).Placed (update s.rev index (some key)) := by
    intro u hu
    have hplace := h.placed u
    have hne : ∀ i, (s.pc u).index = some i → i ≠ index := by
      rintro i hi rfl
      exact hu (h.indicesApart u t i hi hown)
    cases hp : s.pc u with
    | idle | vacant => exact True.intro
    | allocated l i | reversed l i =>
      have hi := hne i (by simp [hp, Pc.index])
      rw [hp] at hplace
      simpa [Pc.Placed, hi] using hplace
  refine { locked := ?_, holdersApart := ?_, fresh := ?_, placed := ?_, indexBelow := ?_,
           indicesApart := ?_, revBelow := ?_, mapRev := ?_, issued := h.issued, complete := ?_ }
  · exact fun u k hk => h.locked u k (by rwa [← hhold u])
  · exact fun u v k l hk hl => h.holdersApart u v k l (by rwa [← hhold u]) (by rwa [← hhold v])
  · exact fun u k hk => h.fresh u k (by rwa [← hhold u])
  · exact (forall_update_iff _ fun _ (p : Pc K) => p.Placed _).mpr
      ⟨by simp [Reflection.storeReverse, Pc.Placed], hplaced⟩
  · exact fun u i hi => h.indexBelow u i (by rwa [← hidx u])
  · exact fun u v i hi hj => h.indicesApart u v i (by rwa [← hidx u]) (by rwa [← hidx v])
  · intro i k hk
    by_cases hi : i = index
    · subst hi
      exact h.indexBelow t i hown
    · exact h.revBelow i k (by simpa [Reflection.storeReverse, hi] using hk)
  · intro k i hk
    have hrev := h.mapRev k i hk
    have hi : i ≠ index := by
      rintro rfl
      rw [hno] at hrev
      cases hrev
    simpa [Reflection.storeReverse, hi] using hrev
  · intro i hi
    exact (h.complete i hi).imp_left fun ⟨u, hu⟩ => ⟨u, (hidx u).trans hu⟩

variable [DecidableEq K]

lemma Consistent.storeEntry (hpc : s.pc t = .reversed key index) :
    Consistent shard (storeEntry shard s t key index) := by
  have hown : (s.pc t).holding = some key := by simp [hpc, Pc.holding]
  have hrev : s.rev index = some key := by
    have := h.placed t
    rwa [hpc] at this
  have hnew : s.map key = none := h.fresh t key hown
  have hhold : ∀ u k, (update s.pc t Pc.idle u).holding = some k →
      u ≠ t ∧ (s.pc u).holding = some k := by
    intro u k hk
    by_cases hu : u = t
    · subst hu; simp [Pc.holding] at hk
    · exact ⟨hu, by simpa [hu] using hk⟩
  have hidx : ∀ u i, (update s.pc t Pc.idle u).index = some i →
      u ≠ t ∧ (s.pc u).index = some i := by
    intro u i hi
    by_cases hu : u = t
    · subst hu; simp [Pc.index] at hi
    · exact ⟨hu, by simpa [hu] using hi⟩
  have hshard : ∀ u k, u ≠ t → (s.pc u).holding = some k → shard k ≠ shard key :=
    fun u k hu hk heq => hu (h.holdersApart u t k key hk hown heq)
  have hmap : ∀ k i, s.map k = some i → update s.map key (some index) k = some i := by
    intro k i hk
    have hne : k ≠ key := by
      rintro rfl
      rw [hnew] at hk
      cases hk
    simpa [hne] using hk
  refine { locked := ?_, holdersApart := ?_, fresh := ?_, placed := ?_, indexBelow := ?_,
           indicesApart := ?_, revBelow := h.revBelow, mapRev := ?_, issued := ?_,
           complete := ?_ }
  · intro u k hk
    obtain ⟨hu, hk'⟩ := hhold u k hk
    simpa [Reflection.storeEntry, hshard u k hu hk'] using h.locked u k hk'
  · intro u v k l hk hl
    exact h.holdersApart u v k l (hhold u k hk).2 (hhold v l hl).2
  · intro u k hk
    obtain ⟨hu, hk'⟩ := hhold u k hk
    have hne : k ≠ key := fun heq => hshard u k hu hk' (congrArg shard heq)
    simpa [Reflection.storeEntry, hne] using h.fresh u k hk'
  · exact (forall_update_iff _ fun _ (p : Pc K) => p.Placed s.rev).mpr
      ⟨True.intro, fun u _ => h.placed u⟩
  · exact fun u i hi => h.indexBelow u i (hidx u i hi).2
  · exact fun u v i hi hj => h.indicesApart u v i (hidx u i hi).2 (hidx v i hj).2
  · intro k i hk
    by_cases hne : k = key
    · subst hne
      obtain rfl : index = i := by simpa [Reflection.storeEntry] using hk
      exact hrev
    · exact h.mapRev k i (by simpa [Reflection.storeEntry, hne] using hk)
  · refine forall_mem_cons.mpr ⟨⟨index, by simp [Reflection.storeEntry], rfl⟩, ?_⟩
    intro p hp
    obtain ⟨i, hi, hptr⟩ := h.issued p hp
    exact ⟨i, hmap p.1 i hi, hptr⟩
  · intro i hi
    obtain ⟨u, hu⟩ | ⟨k, hk, hmem⟩ := h.complete i hi
    · by_cases hut : u = t
      · subst hut
        obtain rfl : index = i := by simpa [hpc, Pc.index] using hu
        exact .inr ⟨key, by simp [Reflection.storeEntry], mem_cons_self⟩
      · exact .inl ⟨u, by simpa [Reflection.storeEntry, hut] using hu⟩
    · exact .inr ⟨k, hmap k i hk, mem_cons_of_mem _ hmem⟩

lemma Consistent.step {e : Event K} (hs : step shard s e = some s') : Consistent shard s' := by
  cases e with
  | request t key =>
    simp only [Reflection.step] at hs
    split at hs
    next hcond =>
      obtain rfl := some.inj hs
      exact h.request hcond.1 hcond.2
    · cases hs
  | advance t =>
    simp only [Reflection.step] at hs
    generalize hpc : s.pc t = pc at hs
    cases pc with
    | idle => cases hs
    | vacant key =>
      cases hs
      exact h.allocate hpc
    | allocated key index =>
      cases hs
      exact h.storeReverse hpc
    | reversed key index =>
      cases hs
      exact h.storeEntry hpc

lemma Consistent.run (hrun : Run (Reflection.step shard) anyStep s s') : Consistent shard s' :=
  Run.invariant (fun _ _ _ hi _ hs => hi.step hs) hrun h

end Preservation

lemma pointerIndex_functionPointer (index : Nat) :
    pointerIndex (functionPointer index) = index % 2 ^ 16 := by
  unfold pointerIndex functionPointer asU16
  omega

lemma functionPointer_inj {i j : Nat} (hi : i < 2 ^ 16) (hj : j < 2 ^ 16)
    (h : functionPointer i = functionPointer j) : i = j := by
  unfold functionPointer asU16 at h
  omega

/-- Every pointer handed out resolves to the pair it was made for, and no two pairs share one. -/
structure Faithful (s : State K) : Prop where
  resolves : ∀ p ∈ s.issued, s.resolve p.2 = some p.1
  distinct : ∀ p ∈ s.issued, ∀ q ∈ s.issued, p.2 = q.2 → p.1 = q.1

variable {shard : K → Nat} {s : State K}

section

variable (h : Consistent shard s)
include h

lemma Consistent.index_below {k : K} {i : Nat} (hk : s.map k = some i) : i < s.nextIndex :=
  h.revBelow i k (h.mapRev k i hk)

lemma Consistent.map_injective {k l : K} {i : Nat} (hk : s.map k = some i)
    (hl : s.map l = some i) : k = l := by
  have hrev := h.mapRev k i hk
  rw [h.mapRev l i hl] at hrev
  exact (some.inj hrev).symm

lemma Consistent.faithful (hfew : s.nextIndex ≤ 2 ^ 16) : Faithful s where
  resolves := by
    intro p hp
    obtain ⟨i, hi, hptr⟩ := h.issued p hp
    have hlt := h.index_below hi
    have hmod : i % 2 ^ 16 = i := Nat.mod_eq_of_lt (by omega)
    rw [State.resolve, hptr, pointerIndex_functionPointer, hmod]
    exact h.mapRev p.1 i hi
  distinct := by
    intro p hp q hq heq
    obtain ⟨i, hi, hp'⟩ := h.issued p hp
    obtain ⟨j, hj, hq'⟩ := h.issued q hq
    have hi' := h.index_below hi
    have hj' := h.index_below hj
    obtain rfl : i = j := functionPointer_inj (by omega) (by omega) (by rw [← hp', ← hq', heq])
    exact h.map_injective hi hj

/-- With one pair more than there are indices, the first and the last of them collide. -/
lemma Consistent.not_faithful (hidle : ∀ t, s.pc t = .idle) (hmany : 2 ^ 16 < s.nextIndex) :
    ¬ Faithful s := by
  intro hfaith
  have hiss : ∀ i < s.nextIndex, ∃ k, s.map k = some i ∧ (k, functionPointer i) ∈ s.issued := by
    intro i hi
    obtain ⟨t, ht⟩ | hk := h.complete i hi
    · rw [hidle t] at ht
      cases ht
    · exact hk
  obtain ⟨k, hk, hkmem⟩ := hiss 0 (by omega)
  obtain ⟨l, hl, hlmem⟩ := hiss (2 ^ 16) hmany
  have hsm : functionPointer 0 = functionPointer (2 ^ 16) := by decide
  obtain rfl : k = l := hfaith.distinct _ hkmem _ hlmem hsm
  rw [hk] at hl
  exact absurd (some.inj hl) (by decide)

end

/-- In every reachable state of the registry, with any interleaving of the requests: while at most
65536 pairs have got an index, all pointers resolve back and are distinct; once no request is
under way, this is so exactly then. -/
theorem function_pointers_faithful [DecidableEq K] (shard : K → Nat) (s : State K)
    (hrun : Run (step shard) anyStep init s) :
    (s.nextIndex ≤ 65536 → Faithful s) ∧
      ((∀ t, s.pc t = .idle) → (Faithful s ↔ s.nextIndex ≤ 65536)) := by
  have h := (consistent_init shard).run hrun
  refine ⟨h.faithful, fun hidle => ⟨fun hfaith => ?_, h.faithful⟩⟩
  by_contra hmany
  exact h.not_faithful hidle (by omega) hfaith

/-- One thread has registered the keys below `n` in order. -/
def filled (n : Nat) : State Nat where
  map := fun k => if k < n then some k else none
  rev := fun i => if i < n then some i else none
  nextIndex := n
  locked := fun _ => false
  pc := fun _ => .idle
  issued := (List.range n).reverse.map fun k => (k, functionPointer k)

lemma run_filled (n : Nat) : Run (step id) anyStep init (filled n) := by
  induction n with
  | zero => exact Run.refl
  | succ n ih =>
    refine ih.trans (Run.of_exec_any [.request 0 n, .advance 0, .advance 0, .advance 0] ?_)
    have hmap : update (filled n).map n (some n) = (filled (n + 1)).map := by
      funext k
      by_cases hk : k = n
      · subst hk; simp [filled]
      · have hlt : k < n ↔ k ≤ n := by omega
        simp [filled, hk, hlt]
    have hiss : (n, functionPointer n) :: (filled n).issued = (filled (n + 1)).issued := by
      simp [filled, range_succ]
    have hno : (filled n).map n = none := by simp [filled]
    have hidle : (filled n).pc 0 = .idle := rfl
    have hfree : (filled n).locked (id n) = false := rfl
    simp only [exec, step, hidle, hfree, and_self, if_true, request, hno, bind_some,
      update_self, allocate, storeReverse, storeEntry, update_idem]
    have hpc : update (filled n).pc 0 .idle = (filled (n + 1)).pc := by
      funext u
      by_cases hu : u = 0 <;> simp [filled]
    have hlocked : update (filled n).locked (id n) false = (filled (n + 1)).locked := by
      funext u
      by_cases hu : u = n <;> simp [filled]
    have hnext : (filled n).nextIndex = n := rfl
    rw [hnext, hmap, hiss, hpc, hlocked]
    have hrev : update (filled n).rev n (some n) = (filled (n + 1)).rev := hmap
    rw [hrev]
    rfl

lemma mem_issued_filled {n k : Nat} (h : k < n) : (k, functionPointer k) ∈ (filled n).issued :=
  mem_map_of_mem (mem_reverse.mpr (mem_range.mpr h))

theorem two_pointers_faithful : Run (step id) anyStep init (filled 2) ∧ Faithful (filled 2) :=
  ⟨run_filled 2, ((function_pointers_faithful id (filled 2) (run_filled 2)).2 fun _ => rfl).mpr
    (by decide)⟩

/-- After 65537 registrations the last pair's pointer resolves to the first pair. -/
theorem pointer_of_another_pair : Run (step id) anyStep init (filled 65537) ∧
      (65536, functionPointer 65536) ∈ (filled 65537).issued ∧
      (filled 65537).resolve (functionPointer 65536) = some 0 := by
  refine ⟨run_filled 65537, ?_, ?_⟩
  · exact mem_issued_filled (by omega)
  · have hz : 65536 % 2 ^ 16 = 0 := by norm_num
    rw [State.resolve, pointerIndex_functionPointer]
    simp [State.byIndex, filled]

end DotnetVm.Reflection
