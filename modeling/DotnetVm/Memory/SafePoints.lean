import DotnetVm.Lib.Polling

/-!
# Instructions that yield at a safe point

Instructions and intrinsics over large blocks pop their operands, do their work
in chunks and look for a stop request between the chunks. On a request they
return `Yield`, and the dispatch loop leaves the instruction pointer where it
is, so that the instruction is executed again once the collection is over.
Requests seen by the dispatch loop itself, between two instructions, change
nothing and are left out.
-/

namespace DotnetVm.SafePoints

/-- The kinds of stack values, with what the block instructions read of each. -/
inductive Operand where
  | int32 (v : Int)
  | int64 (v : Int)
  | nativeInt (v : Int)
  | nativeFloat (bits : Nat)
  | objectRef (ref : Option Nat)
  | unmanagedPtr (addr : Nat)
  | managedPtr (addr : Nat)
  | valueType (payload : Nat)
  | typedRef (addr : Nat)
  | uninitializedTypedRef
  deriving DecidableEq, Repr

/-- An instruction refuses its operands with an exception or stops the thread with an error. -/
inductive Refusal where
  | threw (exception message : String)
  | failed (message : String)
  deriving DecidableEq, Repr

/-- The ways in which an instruction does not complete. -/
inductive Fault where
  | refused (r : Refusal)
  | stackUnderflow
  deriving DecidableEq, Repr

/-- How an instruction ends. -/
inductive Outcome where
  | completed
  | faulted (f : Fault)
  | yielded
  deriving DecidableEq, Repr

/-- What the instructions work on besides the stack: bytes by address, and the lengths of the
vectors allocated so far. -/
structure Storage where
  memory : Nat → BitVec 8
  vectors : List Nat

/-- The current frame, the storage and everything else, such as the frames below. The top of the
stack comes first. -/
structure State (R : Type) where
  ip : Nat
  operands : List Operand
  storage : Storage
  others : R

/-- A computation that takes operands from the stack. -/
def Pops (α : Type) : Type := List Operand → Except Fault α × List Operand

namespace Pops

variable {α β : Type}

instance : Monad Pops where
  pure a := fun ops => (.ok a, ops)
  bind x f := fun ops =>
    match x ops with
    | (.ok a, rest) => f a rest
    | (.error e, rest) => (.error e, rest)

/-- End the instruction. -/
def stop (r : Refusal) : Pops α := fun ops => (.error (.refused r), ops)

def popSafe : Pops Operand
  | [] => (.error .stackUnderflow, [])
  | v :: rest => (.ok v, rest)

/-- A check that may refuse, and takes nothing. -/
def lift : Except Refusal α → Pops α
  | .ok a => pure a
  | .error r => stop r

lemma bind_ok {x : Pops α} {f : α → Pops β} {ops rest : List Operand} {a : α}
    (h : x ops = (.ok a, rest)) : (x >>= f) ops = f a rest := by
  simp only [Bind.bind, h]

lemma lift_ok {x : Except Refusal α} {ops : List Operand} {a : α} (h : x = .ok a) :
    lift x ops = (.ok a, ops) := by
  rw [h]
  rfl

def Takes (n : Nat) (x : Pops α) : Prop :=
  ∀ ops, (∀ a rest, x ops = (.ok a, rest) → rest.length + n = ops.length) ∧
    (x ops).2.length ≤ ops.length

lemma takes_pure (a : α) : Takes 0 (pure a : Pops α) := fun _ =>
  ⟨fun _ _ h => by rw [← (Prod.mk.inj h).2]; rfl, le_refl _⟩

lemma takes_stop (n : Nat) (r : Refusal) : Takes n (stop r : Pops α) := fun _ =>
  ⟨fun _ _ h => (nomatch (Prod.mk.inj h).1), le_refl _⟩

lemma takes_lift (x : Except Refusal α) : Takes 0 (lift x) := by
  cases x with
  | ok a => exact takes_pure a
  | error r => exact takes_stop 0 r

lemma takes_popSafe : Takes 1 popSafe := fun ops => by
  cases ops with
  | nil => exact ⟨fun _ _ h => (nomatch (Prod.mk.inj h).1), le_refl _⟩
  | cons v ops => exact ⟨fun _ _ h => by rw [← (Prod.mk.inj h).2]; rfl, Nat.le_succ _⟩

lemma Takes.bind {m n : Nat} {x : Pops α} {f : α → Pops β} (hx : Takes m x)
    (hf : ∀ a, Takes n (f a)) : Takes (m + n) (x >>= f) := fun ops => by
  have hbind : (x >>= f) ops = match x ops with
      | (.ok a, rest) => f a rest
      | (.error e, rest) => (.error e, rest) := rfl
  rw [hbind]
  obtain ⟨hok, hle⟩ := hx ops
  rcases hxops : x ops with ⟨e | a, rest⟩
  · rw [hxops] at hle
    exact ⟨fun _ _ h => (nomatch (Prod.mk.inj h).1), hle⟩
  · rw [hxops] at hle
    obtain ⟨hok', hle'⟩ := hf a rest
    refine ⟨fun b rest' h => ?_, le_trans hle' hle⟩
    have := hok' b rest' h
    have := hok a rest hxops
    omega

lemma Takes.ite {n : Nat} {c : Prop} [Decidable c] {x y : Pops α} (hx : Takes n x)
    (hy : Takes n y) : Takes n (if c then x else y) := by
  split
  · exact hx
  · exact hy

end Pops

abbrev Plan : Type := List (Storage → Except Refusal Storage)

structure Handler where
  act : Operand → Pops Plan
  more : Nat
  takes : ∀ v, Pops.Takes more (act v)
  result : Option (Storage → Operand)

namespace Handler

variable {R : Type}

/-- Pop the operands and lay out the work. -/
def plan (h : Handler) : Pops Plan := Pops.popSafe >>= h.act

/-- Dispatch the instruction once, with poll number `p` next. Whatever it has popped or written
when it yields stays popped and written. -/
def dispatch (h : Handler) (stops : Nat → Bool) (p : Nat) (s : State R) : Outcome × State R × Nat :=
  match h.plan s.operands with
  | (.error e, rest) => (.faulted e, { s with operands := rest }, p)
  | (.ok pieces, rest) =>
    match Polling.work stops p pieces s.storage with
    | (.finished, storage, p) => (.completed,
        { s with
          ip := s.ip + 1
          operands := (h.result.map (· storage)).toList ++ rest
          storage := storage }, p)
    | (.failed r, storage, p) =>
      (.faulted (.refused r), { s with operands := rest, storage := storage }, p)
    | (.paused, storage, p) => (.yielded, { s with operands := rest, storage := storage }, p)

def retry (h : Handler) (stops : Nat → Bool) : Nat → Nat → State R → Outcome × State R
  | 0, _, s => (.yielded, s)
  | fuel + 1, p, s =>
    match h.dispatch stops p s with
    | (.yielded, s, p) => retry h stops fuel p s
    | (o, s, _) => (o, s)

def execute (h : Handler) (stops : Nat → Bool) (s : State R) : Outcome × State R :=
  h.retry stops (s.operands.length + 1) 0 s

/-- No poll of the instruction in this state is answered with a stop request. -/
def Unstopped (h : Handler) (stops : Nat → Bool) (s : State R) : Prop :=
  match h.plan s.operands with
  | (.error _, _) => True
  | (.ok pieces, _) => Polling.Unstopped stops 0 pieces s.storage

end Handler

/-- No stop request at all. -/
def noStops : Nat → Bool := fun _ => false

/-- An intrinsic that only looks at its operands until its work is done: how often a dispatch polls
if it is not stopped, and what it then does. -/
structure Peeker (R : Type) where
  polls : State R → Nat
  finish : State R → Outcome × State R

namespace Peeker

variable {R : Type}

def firstStop (stops : Nat → Bool) (p : Nat) : Nat → Option Nat
  | 0 => none
  | n + 1 => if stops p then some p else firstStop stops (p + 1) n

def retry (k : Peeker R) (stops : Nat → Bool) : Nat → Nat → State R → Outcome × State R
  | 0, _, s => (.yielded, s)
  | fuel + 1, p, s =>
    match firstStop stops p (k.polls s) with
    | none => k.finish s
    | some q => retry k stops fuel (q + 1) s

end Peeker

/-- The instructions of a program: those that pop and poll, those that look and poll, and those that
do not poll. -/
inductive Instruction (R : Type) where
  | handler (h : Handler)
  | peeker (k : Peeker R)
  | other (f : State R → Outcome × State R)

variable {R : Type}

def answers (requests : List Bool) : Nat → Bool := fun p => requests.getD p false

/-- Execute one instruction with its retries. -/
def Instruction.execute (requests : List Bool) (s : State R) : Instruction R → Outcome × State R
  | .handler h => h.execute (answers requests) s
  | .peeker k => k.retry (answers requests) (requests.length + 1) 0 s
  | .other f => f s

structure Program (R : Type) where
  fetch : State R → Option (Instruction R)
  recover : Fault → State R → Option (State R)

def run (prog : Program R) (requests : Nat → List Bool) : Nat → Nat → State R → State R
  | 0, _, s => s
  | n + 1, k, s =>
    match prog.fetch s with
    | none => s
    | some i =>
      match i.execute (requests k) s with
      | (.completed, t) => run prog requests n (k + 1) t
      | (.faulted e, t) =>
        match prog.recover e t with
        | none => t
        | some t => run prog requests n (k + 1) t
      | (.yielded, t) => t

end DotnetVm.SafePoints
