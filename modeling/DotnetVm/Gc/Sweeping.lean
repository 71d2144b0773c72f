import DotnetVm.Gc.FinalizeCheck
import DotnetVm.Gc.FixedPoint

/-!
# Finalizing and sweeping in a coordinated collection

When the marking phase has reached its fixed point every arena runs its
finalization check, and when all have, every arena sweeps. Between the two
nothing is handed from one arena to another any more. An arena's sweep keeps the
objects its own phases have marked or resurrected.

What a finalizable object of one arena refers to in another is therefore kept
only if the other arena comes across it by itself.
-/

namespace DotnetVm.Finalization

open Function Relation

structure FinalizableGraph extends ObjectGraph where
  contents : Contents
  heaps : ArenaId → HeapManager
  refs_iff : ∀ p q, q ∈ refs p ↔ contents.Refers p q
  queue_subset : ∀ a ∈ arenas, ∀ p ∈ (heaps a).finalizationQueue, p ∈ objects

variable (G : FinalizableGraph)

def isDead (s : Marking) (p : Nat) : Bool := decide (p ∉ (s.heap (G.ownerId p)).marked)

/-- `SweepPhaseCommand::Sweep` on the thread of arena `a`: the objects it is left with. -/
def sweep (isDead : Nat → Bool) (c : Finalized) (a : ArenaId) : Finset Nat :=
  G.objects.filter fun p => G.ownerId p = a ∧ c.keeps G.ownerId isDead p = true

def collectAllArenas (F : FinishMarking G.toObjectGraph) (order : Nat → List ArenaId)
    (finalizeOrder : List ArenaId) (initiatingThreadId : ArenaId) (fuel : Nat) (s : Marking) :
    Option (ArenaId → Finset Nat) := do
  let marking ← Marking.markPhase F order initiatingThreadId fuel s
  let finalized ← finalizeAll G.contents (isDead G marking) finalizeOrder G.heaps
  some (sweep G (isDead G marking) finalized)

def Finalizable (a : ArenaId) (p : Nat) : Prop :=
  p ∈ (G.heaps a).finalizationQueue ∧ G.contents.finalizerSuppressed p = false ∧ ¬G.Reachable p

def KeptByOwner (q : Nat) : Prop :=
  G.Reachable q ∨ ∃ d, Finalizable G (G.ownerId q) d ∧ ReflTransGen G.contents.Follows d q

variable {G}

lemma Finalizable.mem_objects {a : ArenaId} (ha : a ∈ G.arenas) {d : Nat}
    (hd : Finalizable G a d) {q : Nat} (h : ReflTransGen G.contents.Refers d q) :
    q ∈ G.objects := by
  induction h with
  | refl => exact G.queue_subset a ha d hd.1
  | tail _ href _ => exact G.refs_subset _ ((G.refs_iff _ _).mpr href)

lemma markPhase_outcome (F : FinishMarking G.toObjectGraph) {order : Nat → List ArenaId}
    (hord : ∀ n, (order n).Perm G.arenas) {initiatingThreadId : ArenaId}
    (hinit : initiatingThreadId ∈ G.arenas) {s : Marking}
    (hwhite : ∀ a, (s.heap a).marked = ∅) {n : Nat} (hn : G.objects.card < n) :
    ∃ s', Marking.markPhase F order initiatingThreadId n s = some s' ∧
      ∀ p, G.ownerId p ∈ G.arenas → (isDead G s' p = true ↔ ¬G.Reachable p) := by
  obtain ⟨s', hmark, hrun⟩ := Marking.fixedPoint_total
    (r := ⟨1, Marking.executeAll F (fun _ => some .all) (order 0) { s with crossArenaRefs := [] },
      []⟩) hord (Marking.distributed_of_markAll (hord 0) rfl hwhite)
  refine ⟨s', ?_, fun p hp => ?_⟩
  · simp only [Marking.markPhase, if_pos hinit]
    exact hrun n (lt_of_le_of_lt (Marking.remaining_le _) hn)
  · simp [isDead, hmark _ hp]

lemma mem_sweep {s : Marking} (hdead : ∀ p, G.ownerId p ∈ G.arenas →
      (isDead G s p = true ↔ ¬G.Reachable p))
    {finalizeOrder : List ArenaId} (hfin : finalizeOrder.Perm G.arenas) {c : Finalized}
    (hrun : finalizeAll G.contents (isDead G s) finalizeOrder G.heaps = some c) {q : Nat}
    (hq : q ∈ G.objects) : q ∈ sweep G (isDead G s) c (G.ownerId q) ↔ KeptByOwner G q := by
  have hnd := hfin.nodup_iff.mpr G.arenas_nodup
  have hown := G.ownerId_mem q hq
  have hchk := checked_of_finalizeAll hnd hrun (hfin.mem_iff.mpr hown)
  have hdue : ∀ d, Due G.contents (isDead G s) (G.heaps (G.ownerId q)).finalizationQueue d ↔
      Finalizable G (G.ownerId q) d := by
    intro d
    refine and_congr_right fun hmem => and_congr_right fun _ => hdead d ?_
    exact G.ownerId_mem d (G.queue_subset _ hown d hmem)
  have hlive : isDead G s q = false ↔ G.Reachable q := by
    rw [← Bool.not_eq_true, hdead q hown, not_not]
  simp [sweep, hq, Finalized.keeps, hchk.resurrected_iff, hdue, hlive, KeptByOwner]

def firstGeneration (a : ArenaId) : ArenaIdentity := ⟨a, 0⟩

lemma firstGeneration_arenaId (a : ArenaId) : (firstGeneration a).arenaId = a := rfl

lemma acrossArenas_nodup : ([1, 2] : List ArenaId).Nodup := by decide

def acrossArenas (queued : Bool) : FinalizableGraph where
  arenas := [1, 2]
  identity := firstGeneration
  objects := {10, 20, 21}
  ownerId p := if p < 20 then 1 else 2
  roots _ := ∅
  refs p := if p = 10 then {20, 21} else ∅
  arenas_nodup := acrossArenas_nodup
  identity_arenaId := firstGeneration_arenaId
  roots_subset := by decide
  refs_subset p := by split <;> decide
  ownerId_mem := by decide
  contents :=
    { slots := fun p => if p = 10 then [.object (some 20), .object none, .crossArenaObjectRef 21]
        else []
      finalizerSuppressed := fun _ => false }
  heaps a := ⟨if a = 1 then [10] else if queued then [20, 21] else [], [], [], [], [], []⟩
  refs_iff p q := by
    by_cases hp : p = 10
    · simp [hp, Contents.Refers, Reference.target, eq_comm]
    · simp [hp, Contents.Refers]
  queue_subset a _ p hp := by
    split at hp
    · simp_all
    · split at hp <;> simp_all

lemma acrossArenas_unreachable (queued : Bool) (p : Nat) : ¬(acrossArenas queued).Reachable p := by
  intro h
  induction h with
  | root _ hp => exact Finset.notMem_empty _ hp
  | ref _ _ ih => exact ih

def noMarks : Marking := ⟨fun _ => ⟨∅, ∅⟩, []⟩

noncomputable def collectBoth (queued : Bool) : Option (ArenaId → Finset Nat) :=
  collectAllArenas (acrossArenas queued) (Marking.idealMarking _) (fun _ => [1, 2]) [1, 2] 1 4
    noMarks

lemma collectBoth_left (queued : Bool) :
    ∃ left, collectBoth queued = some left ∧ left 2 = if queued then {20, 21} else ∅ := by
  have hord : ∀ n : Nat, ((fun _ => [1, 2]) n : List ArenaId).Perm (acrossArenas queued).arenas :=
    fun _ => List.Perm.refl _
  have hinit : (1 : ArenaId) ∈ (acrossArenas queued).arenas := List.mem_cons_self
  have hcard : (acrossArenas queued).objects.card < 4 := by simp [acrossArenas]
  obtain ⟨s', hmark, hdead⟩ := markPhase_outcome (Marking.idealMarking _) hord hinit
    (s := noMarks) (fun _ => rfl) hcard
  have hall : isDead (acrossArenas queued) s' = fun _ => true := funext fun p =>
    (hdead p (by simp only [acrossArenas]; split <;> simp)).mpr (acrossArenas_unreachable queued p)
  simp only [collectBoth, collectAllArenas, hmark, Option.bind_eq_bind, Option.bind_some, hall]
  cases queued with
  | false => exact ⟨_, rfl, by decide⟩
  | true => exact ⟨_, rfl, by decide⟩

end DotnetVm.Finalization
