import Mathlib

/-!
# Words, arenas and collector commands

What several parts of the runtime share. Numbers are those of a 64-bit target. Every
managed thread owns one arena, and both carry one id. A reference into another arena
is retained as the registration it was captured under together with an inert pointer,
and the collector reaches the other threads only through the commands it leaves for
their arenas.
-/

namespace DotnetVm

/-- `usize::MAX`. -/
def usizeMax : Nat := 2 ^ 64 - 1

lemma usizeMax_pos : 0 < usizeMax := by decide

def saturatingAdd (a b : Nat) : Nat := min (a + b) usizeMax

def saturatingMul (a b : Nat) : Nat := min (a * b) usizeMax

abbrev ArenaId := Nat

structure ArenaIdentity where
  arenaId : ArenaId
  generation : Nat
  deriving DecidableEq, Repr

/-- A reference into another arena, as recorded while marking. -/
structure CrossArenaRef where
  identity : ArenaIdentity
  ptr : Nat
  deriving DecidableEq, Repr

inductive MarkPhaseCommand where
  | all
  | objects (ptrs : List CrossArenaRef)
  deriving DecidableEq, Repr

inductive SweepPhaseCommand where
  | finalize
  | sweep
  deriving DecidableEq, Repr

inductive GCCommand where
  | mark (command : MarkPhaseCommand)
  | sweep (command : SweepPhaseCommand)
  deriving DecidableEq, Repr

end DotnetVm
