import DotnetVm.Lib.Runs

/-!
# Interlocked additions

A call adds to the cell in one step and then computes what it returns by itself, so
that other additions may come between the two.
-/

namespace DotnetVm.Interlocked

open Function Runs

/-- The two intrinsics: one returns the sum, the other the value before it. -/
inductive Kind where
  | add
  | exchangeAdd
  deriving DecidableEq, Repr

structure Call (w : Nat) where
  kind : Kind
  value : BitVec w
  deriving DecidableEq, Repr

/-- An addition that has been made and not returned from yet. -/
structure Made (w : Nat) where
  call : Call w
  prev : BitVec w
  /-- The cell right before the addition and right after it. -/
  before : BitVec w
  after : BitVec w
  deriving DecidableEq, Repr

structure State (w : Nat) where
  cell : BitVec w
  made : Nat → Option (Made w)
  calls : List (Call w)
  /-- What has been pushed, `none` for a panic. -/
  returned : List (Made w × Option (BitVec w))

inductive Event (w : Nat) where
  | exchangeAddAtomic (t : Nat) (call : Call w)
  | push (t : Nat)
  deriving DecidableEq, Repr

variable {w : Nat}

def init (cell : BitVec w) : State w := ⟨cell, fun _ => none, [], []⟩

/-- The value travels as a `u64` and is cut to the width of the cell, and so does the old
content. -/
def exchangeAdd (cell : BitVec w) (value : BitVec 64) : BitVec w × BitVec 64 :=
  (cell + value.setWidth w, cell.setWidth 64)

/-- Overflow is checked in `prev + value`. -/
def Made.result (m : Made w) : Option (BitVec w) :=
  match m.call.kind with
  | .exchangeAdd => some m.prev
  | .add => if m.prev.saddOverflow m.call.value then none else some (m.prev + m.call.value)

def step (s : State w) : Event w → Option (State w)
  | .exchangeAddAtomic t call =>
    if s.made t = none then
      let r := exchangeAdd s.cell (call.value.signExtend 64)
      some { s with
        cell := r.1
        made := update s.made t (some ⟨call, r.2.setWidth w, s.cell, r.1⟩)
        calls := call :: s.calls }
    else none
  | .push t => (s.made t).map fun m => { s with
      made := update s.made t none
      returned := (m, m.result) :: s.returned }

/-- The signed sum of an `Add` fits the width. -/
def Fits (s : State w) : Event w → Prop
  | .exchangeAddAtomic _ call => call.kind = .add → s.cell.saddOverflow call.value = false
  | .push _ => True

lemma exchangeAdd_eq (hw : w ≤ 64) (cell value : BitVec w) :
    (exchangeAdd cell (value.signExtend 64)).1 = cell + value ∧
      (exchangeAdd cell (value.signExtend 64)).2.setWidth w = cell := by
  constructor
  · simp only [exchangeAdd]
    congr 1
    ext i hi
    simp [BitVec.getElem_signExtend, hi, show i < 64 by omega]
  · ext i hi
    simp [exchangeAdd, hi, show i < 64 by omega]

def Made.Returns (m : Made w) : Prop :=
  m.after = m.before + m.call.value ∧
    m.result = some (match m.call.kind with | .add => m.after | .exchangeAdd => m.before)

structure Exact (cell : BitVec w) (s : State w) : Prop where
  sum : s.cell = cell + (s.calls.map Call.value).sum
  made : ∀ t m, s.made t = some m → m.Returns
  returned : ∀ r ∈ s.returned, r.2 = r.1.result ∧ r.1.Returns

lemma Exact.step {cell : BitVec w} {s s' : State w} {e : Event w} (hw : w ≤ 64)
    (hs : Exact cell s) (hok : Fits s e) (hst : step s e = some s') : Exact cell s' := by
  cases e with
  | exchangeAddAtomic t call =>
    obtain ⟨-, hst⟩ := Option.ite_none_right_eq_some.mp hst
    obtain ⟨hadd, hprev⟩ := exchangeAdd_eq hw s.cell call.value
    cases hst
    refine ⟨?_, fun u m hm => ?_, hs.returned⟩
    · simp only [hadd, List.map_cons, List.sum_cons]
      rw [hs.sum]
      ring
    · by_cases hu : u = t
      · subst hu
        obtain rfl := Option.some.inj (hm.symm.trans (update_self ..))
        refine ⟨hadd, ?_⟩
        simp only [Made.result, hadd, hprev]
        cases hk : call.kind with
        | exchangeAdd => rfl
        | add => simp [hok hk]
      · exact hs.made u m ((update_of_ne hu ..).symm.trans hm)
  | push t =>
    obtain ⟨m, hm, rfl⟩ := Option.map_eq_some_iff.mp hst
    refine ⟨hs.sum, fun u m' hm' => ?_, fun r hr => ?_⟩
    · by_cases hu : u = t
      · simp [hu] at hm'
      · exact hs.made u m' ((update_of_ne hu ..).symm.trans hm')
    · rcases List.mem_cons.mp hr with rfl | hr
      · exact ⟨rfl, hs.made t m hm⟩
      · exact hs.returned r hr

/-- In every interleaving the cell is the sum of what has been added, and if no signed sum of an
`Add` overflows every call returns and gives the cell after or before its own addition. -/
theorem interlocked_additions {cell : BitVec w} {s : State w} (hw : w = 32 ∨ w = 64)
    (hrun : Run step Fits (init cell) s) :
    s.cell = cell + (s.calls.map Call.value).sum ∧
    ∀ r ∈ s.returned, r.1.after = r.1.before + r.1.call.value ∧
      r.2 = some (match r.1.call.kind with | .add => r.1.after | .exchangeAdd => r.1.before) := by
  have hs : Exact cell s := hrun.invariant (fun _ _ _ hs hok hst => hs.step (by omega) hok hst)
    ⟨by simp [init], nofun, nofun⟩
  refine ⟨hs.sum, fun r hr => ?_⟩
  obtain ⟨hresult, hafter, hreturns⟩ := hs.returned r hr
  exact ⟨hafter, hresult.trans hreturns⟩

theorem one_addition : ∃ s : State 32, Run step Fits (init 5) s ∧
    s.returned.map Prod.snd = [some 8] ∧ s.cell = 5 + (3 + 0) := by
  have hadd : Run step Fits (init 5) _ :=
    Run.refl.tail (e := .exchangeAddAtomic 1 ⟨.add, 3#32⟩) (fun _ => rfl) rfl
  have hrun := hadd.tail (e := Event.push 1) True.intro rfl
  exact ⟨_, hrun, by decide, (interlocked_additions (.inl rfl) hrun).1⟩

/-- The cell holds the greatest `Int32`. -/
theorem addition_panics : ∃ s : State 32, Run step anyStep (init 0x7fffffff#32) s ∧
    s.returned.map Prod.snd = [none] :=
  ⟨_, Run.of_exec_any [.exchangeAddAtomic 1 ⟨.add, 1⟩, .push 1] rfl, by decide⟩

end DotnetVm.Interlocked
