import Mathlib

/-!
# Stacks with a suspended part

A stack of frames, top first, whose upper part can be put aside and put back. The
frames put aside before are lost when others are put aside.
-/

namespace FrameStacks

structure Frames (α : Type) where
  frames : List α
  suspendedFrames : List α
  deriving DecidableEq, Repr

namespace Frames

variable {α : Type} {s s' : Frames α}

def empty : Frames α := ⟨[], []⟩

section

variable (s : Frames α)

/-- The frames on the stack and those put aside. -/
def all : List α := s.frames ++ s.suspendedFrames

def suspendAbove (index : Nat) : Option (Frames α) :=
  if index + 1 ≤ s.frames.length then
    some ⟨s.frames.drop (s.frames.length - (index + 1)),
      s.frames.take (s.frames.length - (index + 1))⟩
  else none

def restoreSuspended : Frames α := ⟨s.suspendedFrames ++ s.frames, []⟩

def clearSuspended : Frames α := { s with suspendedFrames := [] }

end

/-- The two parts are the old stack. -/
lemma append_of_suspendAbove {index : Nat} (h : s.suspendAbove index = some s') :
    s'.suspendedFrames ++ s'.frames = s.frames := by
  unfold suspendAbove at h
  split at h
  · cases h
    exact List.take_append_drop _ _
  · cases h

lemma all_perm_of_suspendAbove {index : Nat} (h : s.suspendAbove index = some s') :
    s'.all.Perm s.frames := by
  rw [← append_of_suspendAbove h]
  exact List.perm_append_comm

lemma all_restoreSuspended_perm (s : Frames α) : s.restoreSuspended.all.Perm s.all := by
  unfold restoreSuspended all
  rw [List.append_nil]
  exact List.perm_append_comm

end Frames

end FrameStacks
