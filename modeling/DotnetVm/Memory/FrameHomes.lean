import DotnetVm.Lib.FrameStacks
import DotnetVm.Lib.Runs

/-!
# Home blocks of frames

A local or argument whose address is taken lives in a home block of its frame.
A byref to it names the block by its serial and is turned into an address only by
`frame_home_window`, which looks for the serial among the live and the suspended
frames. Frames are pooled, reset, suspended and restored, and a constructor adds
temporary blocks to a frame that is already running.

Stacks of frames are lists with the top frame first.
-/

namespace DotnetVm.Homes

open FrameStacks List Option Runs

/-- An allocation lies in the address space, away from null and from its end. -/
structure RawBlock where
  base : Nat
  payloadLen : Nat
  base_ne_zero : base ≠ 0
  fits : base + payloadLen < 2 ^ 64
  deriving DecidableEq, Repr

structure HomeBlock where
  block : RawBlock
  serial : Nat
  deriving DecidableEq, Repr

structure FrameHomes where
  homes : Option HomeBlock
  temporaries : List HomeBlock
  deriving DecidableEq, Repr

namespace FrameHomes

def empty : FrameHomes := ⟨none, []⟩

def release (_ : FrameHomes) : FrameHomes := ⟨none, []⟩

def blocks (h : FrameHomes) : List HomeBlock := h.homes.toList ++ h.temporaries

/-- The base and the length of the block with the serial. -/
def blockFor (h : FrameHomes) (serial : Nat) : Option (Nat × Nat) :=
  (h.blocks.find? fun b => b.serial == serial).map fun b => (b.block.base, b.block.payloadLen)

def allocate (block : RawBlock) (serial : Nat) : FrameHomes := ⟨some ⟨block, serial⟩, []⟩

def allocateTemporary (h : FrameHomes) (block : RawBlock) (serial : Nat) : Option FrameHomes :=
  if (h.blockFor serial).isSome then none
  else some { h with temporaries := h.temporaries ++ [⟨block, serial⟩] }

end FrameHomes

/-- Of a frame only its homes matter here. -/
structure StackFrame where
  homes : FrameHomes
  deriving DecidableEq, Repr

def StackFrame.resetForCall (f : StackFrame) : StackFrame := { f with homes := f.homes.release }

def StackFrame.prepareForPool (f : StackFrame) : StackFrame := { f with homes := f.homes.release }

def stackframePoolLimit : Nat := 64

structure FrameStack extends Frames StackFrame where
  pooledFrames : List StackFrame
  lastHomeSerial : Nat
  deriving DecidableEq, Repr

namespace FrameStack

def new : FrameStack := ⟨.empty, [], 0⟩

section

variable (s : FrameStack)

/-- A pooled frame is reset before it is used again. -/
def pushFrame : FrameStack :=
  match s.pooledFrames with
  | frame :: pooled =>
    { s with pooledFrames := pooled, frames := frame.resetForCall :: s.frames }
  | [] => { s with frames := ⟨.empty⟩ :: s.frames }

/-- `none` when the serials are exhausted. -/
def issueHomeSerial : Option (Nat × FrameStack) :=
  if s.lastHomeSerial + 1 < 2 ^ 64 then
    some (s.lastHomeSerial + 1, { s with lastHomeSerial := s.lastHomeSerial + 1 })
  else none

def homeBlock (serial : Nat) : Option (Nat × Nat) :=
  s.all.findSome? fun frame => frame.homes.blockFor serial

def recycleFrame (frame : StackFrame) : FrameStack :=
  if s.pooledFrames.length < stackframePoolLimit then
    { s with pooledFrames := frame.prepareForPool :: s.pooledFrames }
  else s

def clear : FrameStack := ⟨.empty, [], s.lastHomeSerial⟩

/-- `install_frame_homes` in the frame just pushed. -/
def installFrameHomes (homes : FrameHomes) : FrameStack :=
  match s.frames with
  | [] => s
  | frame :: rest => { s with frames := { frame with homes } :: rest }

end

end FrameStack

inductive MemoryAccessError where
  | invalidOrigin
  | boundsCheck (offset size len : Nat)
  deriving DecidableEq, Repr

def frameHomeWindow (s : FrameStack) (serial offset size : Nat) : Except MemoryAccessError Nat :=
  match s.homeBlock serial with
  | none => .error .invalidOrigin
  | some (base, len) =>
    -- `checked_add`, then the comparison with the length
    if 2 ^ 64 ≤ offset + size ∨ len < offset + size then .error (.boundsCheck offset size len)
    else .ok ((base + offset) % 2 ^ 64)

inductive Event where
  /-- `call_frame` or `entrypoint_frame`, for a method with homes of this size or without any. -/
  | call (homes : Option Nat) (answer : Option RawBlock)
  /-- `prepare_constructor_receiver` in the current frame. -/
  | prepareConstructorReceiver (size : Nat) (answer : Option RawBlock)
  /-- The current frame returns, is unwound or is replaced: it is taken off the stack and kept
  aside while its return value is passed on. -/
  | pop
  | recycle
  | suspendAbove (index : Nat)
  | restoreSuspended
  | clearSuspended
  | clear
  deriving DecidableEq, Repr

structure Thread where
  stack : FrameStack
  popped : List StackFrame
  deriving DecidableEq, Repr

def Thread.new : Thread := ⟨.new, []⟩

def allocateFrameHomes (s : FrameStack) (homes : Option Nat) (answer : Option RawBlock) :
    Option (Option FrameHomes × FrameStack) :=
  match homes with
  | none => some (some .empty, s)
  | some size =>
    match s.issueHomeSerial with
    | none => none
    | some (serial, s') =>
      match answer with
      | none => some (none, s')
      | some block =>
        if block.payloadLen = size then some (some (.allocate block serial), s') else none

def prepareConstructorReceiver (s : FrameStack) (size : Nat) (answer : Option RawBlock) :
    Option FrameStack :=
  match s.issueHomeSerial with
  | none => none
  | some (serial, s') =>
    match answer, s'.frames with
    | none, _ => some s'
    | some _, [] => none
    | some block, frame :: rest =>
      if block.payloadLen = size then
        (frame.homes.allocateTemporary block serial).map fun homes =>
          { s' with frames := { frame with homes } :: rest }
      else none

def step (t : Thread) : Event → Option Thread
  | .call homes answer =>
    match allocateFrameHomes t.stack homes answer with
    | none => none
    | some (none, s) => some { t with stack := s }
    | some (some homes, s) => some { t with stack := s.pushFrame.installFrameHomes homes }
  | .prepareConstructorReceiver size answer =>
    (prepareConstructorReceiver t.stack size answer).map fun s => { t with stack := s }
  | .pop =>
    match t.stack.frames with
    | [] => none
    | frame :: rest => some
        { stack := { t.stack with frames := rest }, popped := frame :: t.popped }
  | .recycle =>
    match t.popped with
    | [] => none
    | frame :: rest => some ⟨t.stack.recycleFrame frame, rest⟩
  | .suspendAbove index => (t.stack.suspendAbove index).map fun fs =>
      { t with stack := { t.stack with toFrames := fs } }
  | .restoreSuspended => some
      { t with stack := { t.stack with toFrames := t.stack.restoreSuspended } }
  | .clearSuspended => some
      { t with stack := { t.stack with toFrames := t.stack.clearSuspended } }
  | .clear => some { t with stack := t.stack.clear }

/-- The blocks of the live and the suspended frames. -/
def FrameStack.liveBlocks (s : FrameStack) : List HomeBlock :=
  s.all.flatMap fun frame => frame.homes.blocks

lemma homeBlock_eq_find (s : FrameStack) (serial : Nat) : s.homeBlock serial =
      (s.liveBlocks.find? fun b => b.serial == serial).map
        fun b => (b.block.base, b.block.payloadLen) := by
  unfold FrameStack.homeBlock FrameStack.liveBlocks
  induction s.all with
  | nil => rfl
  | cons frame frames ih =>
    rw [findSome?_cons, flatMap_cons, find?_append, ih]
    unfold FrameHomes.blockFor
    cases frame.homes.blocks.find? fun b => b.serial == serial with
    | none => rfl
    | some b => rfl

inductive Evolves (s s' : FrameStack) : Prop where
  | shrink (hsub : s'.liveBlocks.Subperm s.liveBlocks)
      (hserial : s.lastHomeSerial ≤ s'.lastHomeSerial)
  | grow (b : HomeBlock) (hperm : s'.liveBlocks.Perm (b :: s.liveBlocks))
      (hnew : b.serial = s.lastHomeSerial + 1) (hserial : s'.lastHomeSerial = b.serial)

variable {s s' : FrameStack} {serial : Nat}

lemma issueHomeSerial_spec (h : s.issueHomeSerial = some (serial, s')) :
    serial = s.lastHomeSerial + 1 ∧ s' = { s with lastHomeSerial := serial } := by
  unfold FrameStack.issueHomeSerial at h
  split at h
  · cases h
    exact ⟨rfl, rfl⟩
  · cases h

lemma liveBlocks_pushFrame_install (s : FrameStack) (homes : FrameHomes) :
    (s.pushFrame.installFrameHomes homes).liveBlocks = homes.blocks ++ s.liveBlocks ∧
      (s.pushFrame.installFrameHomes homes).lastHomeSerial = s.lastHomeSerial := by
  unfold FrameStack.pushFrame
  cases s.pooledFrames with
  | nil => exact ⟨rfl, rfl⟩
  | cons frame pooled => exact ⟨rfl, rfl⟩

variable {answer : Option RawBlock}

lemma evolves_call {homes : Option Nat} {installed : Option FrameHomes}
    (h : allocateFrameHomes s homes answer = some (installed, s')) :
    Evolves s (match installed with
      | none => s'
      | some homes => s'.pushFrame.installFrameHomes homes) := by
  unfold allocateFrameHomes at h
  cases homes with
  | none =>
    cases h
    obtain ⟨hlive, hser⟩ := liveBlocks_pushFrame_install s .empty
    exact .shrink (by rw [hlive]; exact List.Subperm.refl _) (by rw [hser])
  | some size =>
    dsimp only at h
    split at h
    · cases h
    rename_i serial s₁ hissue
    obtain ⟨hser, hs₁⟩ := issueHomeSerial_spec hissue
    have hlive : s₁.liveBlocks = s.liveBlocks := by rw [hs₁]; rfl
    have hlast : s₁.lastHomeSerial = serial := by rw [hs₁]
    cases answer with
    | none =>
      cases h
      exact .shrink (by rw [hlive]) (by rw [hlast, hser]; exact Nat.le_succ _)
    | some block =>
      dsimp only at h
      split at h
      · cases h
        obtain ⟨hinst, hkept⟩ := liveBlocks_pushFrame_install s' (.allocate block serial)
        refine .grow ⟨block, serial⟩ ?_ hser (hkept.trans hlast)
        rw [hinst, hlive]
        exact List.Perm.refl _
      · cases h

lemma blocks_allocateTemporary {h h' : FrameHomes} {block : RawBlock}
    (halloc : h.allocateTemporary block serial = some h') :
    h'.blocks = h.blocks ++ [⟨block, serial⟩] := by
  unfold FrameHomes.allocateTemporary at halloc
  split at halloc
  · cases halloc
  · cases halloc
    exact (append_assoc _ _ _).symm

lemma evolves_receiver {size : Nat}
    (h : prepareConstructorReceiver s size answer = some s') : Evolves s s' := by
  unfold prepareConstructorReceiver at h
  split at h
  · cases h
  rename_i serial s₁ hissue
  obtain ⟨hser, rfl⟩ := issueHomeSerial_spec hissue
  split at h
  · cases h
    exact .shrink (List.Subperm.refl _) (by rw [hser]; exact Nat.le_succ _)
  · cases h
  · rename_i block frame rest hfs
    split at h
    · obtain ⟨homes, halloc, rfl⟩ := map_eq_some_iff.mp h
      refine .grow ⟨block, serial⟩ ?_ hser rfl
      have hfs' : s.frames = frame :: rest := hfs
      simp only [FrameStack.liveBlocks, Frames.all, hfs', cons_append, flatMap_cons,
        blocks_allocateTemporary halloc, append_assoc]
      exact perm_middle
    · cases h

lemma liveBlocks_subperm (h : s'.all.Subperm s.all) : s'.liveBlocks.Subperm s.liveBlocks := by
  obtain ⟨l, hperm, hsub⟩ := h
  exact ⟨l.flatMap fun frame => frame.homes.blocks, hperm.flatMap_right _, hsub.flatMap _⟩

variable {t t' : Thread}

lemma evolves_step {e : Event} (h : step t e = some t') : Evolves t.stack t'.stack := by
  cases e with
  | call homes answer =>
    simp only [step] at h
    split at h
    · cases h
    · rename_i s halloc
      cases h
      exact evolves_call halloc
    · rename_i homes s halloc
      cases h
      exact evolves_call halloc
  | prepareConstructorReceiver size answer =>
    obtain ⟨s, hs, rfl⟩ := map_eq_some_iff.mp h
    exact evolves_receiver hs
  | pop =>
    simp only [step] at h
    split at h
    · cases h
    · rename_i frame rest hframes
      cases h
      refine .shrink (liveBlocks_subperm ?_) (le_refl _)
      simp only [Frames.all, hframes]
      exact (sublist_cons_self _ _).subperm
  | recycle =>
    simp only [step] at h
    split at h
    · cases h
    · cases h
      unfold FrameStack.recycleFrame
      split
      · exact .shrink (List.Subperm.refl _) (le_refl _)
      · exact .shrink (List.Subperm.refl _) (le_refl _)
  | suspendAbove index =>
    obtain ⟨fs, hfs, rfl⟩ := map_eq_some_iff.mp h
    refine .shrink (liveBlocks_subperm ?_) (le_refl _)
    exact (Frames.all_perm_of_suspendAbove hfs).subperm.trans (sublist_append_left _ _).subperm
  | restoreSuspended =>
    cases h
    exact .shrink (liveBlocks_subperm (Frames.all_restoreSuspended_perm _).subperm) (le_refl _)
  | clearSuspended =>
    cases h
    refine .shrink (liveBlocks_subperm ?_) (le_refl _)
    simp only [Frames.all, Frames.clearSuspended, append_nil]
    exact (sublist_append_left _ _).subperm
  | clear =>
    cases h
    exact .shrink (liveBlocks_subperm nil_subperm) (le_refl _)

/-- No two live blocks share a serial, and none has a serial that is still to be issued. -/
structure Distinct (s : FrameStack) : Prop where
  nodup : (s.liveBlocks.map HomeBlock.serial).Nodup
  issued : ∀ b ∈ s.liveBlocks, b.serial ≤ s.lastHomeSerial

lemma distinct_new : Distinct .new := ⟨nodup_nil, nofun⟩

lemma Distinct.evolves (hs : Distinct s) (h : Evolves s s') : Distinct s' := by
  cases h with
  | shrink hsub hser =>
    obtain ⟨l, hperm, hsub⟩ := hsub
    refine ⟨(hperm.map _).nodup_iff.mp (hs.nodup.sublist (hsub.map _)), fun b hb => ?_⟩
    exact le_trans (hs.issued b (hsub.subset (hperm.mem_iff.mpr hb))) hser
  | grow b hperm hnew hser =>
    refine ⟨(hperm.map _).nodup_iff.mpr ?_, fun c hc => ?_⟩
    · refine nodup_cons.mpr ⟨fun hmem => ?_, hs.nodup⟩
      obtain ⟨c, hc, heq⟩ := mem_map.mp hmem
      have hle := hs.issued c hc
      omega
    · rcases mem_cons.mp (hperm.mem_iff.mp hc) with rfl | hold
      · exact le_of_eq hser.symm
      · have hle := hs.issued c hold
        omega

lemma distinct_of_run (hrun : Run step anyStep .new t) : Distinct t.stack :=
  hrun.invariant (I := fun t => Distinct t.stack)
    (fun _ _ _ hs _ hst => hs.evolves (evolves_step hst)) distinct_new

def Gone (s : FrameStack) (serial : Nat) : Prop :=
  serial ≤ s.lastHomeSerial ∧ ∀ b ∈ s.liveBlocks, b.serial ≠ serial

lemma Gone.evolves (hs : Gone s serial) (h : Evolves s s') : Gone s' serial := by
  cases h with
  | shrink hsub hser =>
    exact ⟨le_trans hs.1 hser, fun b hb => hs.2 b (hsub.subset hb)⟩
  | grow b hperm hnew hser =>
    have hle := hs.1
    refine ⟨by omega, fun c hc => ?_⟩
    rcases mem_cons.mp (hperm.mem_iff.mp hc) with rfl | hold
    · omega
    · exact hs.2 c hold

lemma gone_of_run (hgone : Gone t.stack serial)
    (hrun : Run step anyStep t t') : Gone t'.stack serial :=
  hrun.invariant (I := fun t => Gone t.stack serial)
    (fun _ _ _ hs _ hst => hs.evolves (evolves_step hst)) hgone

/-- Popped frames own nothing that a byref can still reach. -/
def Left (t : Thread) : Prop :=
  ∀ frame ∈ t.popped, ∀ b ∈ frame.homes.blocks, Gone t.stack b.serial

lemma Left.step {e : Event} (hs : Distinct t.stack) (hleft : Left t)
    (h : step t e = some t') : Left t' := by
  have hkept : ∀ frame ∈ t.popped, ∀ b ∈ frame.homes.blocks, Gone t'.stack b.serial :=
    fun frame hfr b hb => (hleft frame hfr b hb).evolves (evolves_step h)
  cases e with
  | pop =>
    simp only [Homes.step] at h
    split at h
    · cases h
    rename_i frame rest hfs
    cases h
    intro f hf b hb
    rcases mem_cons.mp hf with rfl | hold
    · have hlive : t.stack.liveBlocks = f.homes.blocks ++
          FrameStack.liveBlocks { t.stack with frames := rest } := by
        simp [FrameStack.liveBlocks, Frames.all, hfs]
      have hmem : b ∈ t.stack.liveBlocks := by rw [hlive]; exact mem_append_left _ hb
      have hnd := hs.nodup
      rw [hlive, map_append] at hnd
      refine ⟨hs.issued b hmem, fun c hc heq => ?_⟩
      exact (disjoint_of_nodup_append hnd) (mem_map_of_mem hb)
        (heq ▸ mem_map_of_mem hc)
    · exact hkept f hold b hb
  | recycle =>
    simp only [Homes.step] at h
    split at h
    · cases h
    rename_i frame rest hpop
    cases h
    intro f hf b hb
    exact hkept f (by rw [hpop]; exact mem_cons_of_mem _ hf) b hb
  | call homes answer =>
    simp only [Homes.step] at h
    split at h
    · cases h
    · cases h; exact hkept
    · cases h; exact hkept
  | prepareConstructorReceiver _ _ | suspendAbove _ =>
    obtain ⟨s, hs, rfl⟩ := map_eq_some_iff.mp h
    exact hkept
  | restoreSuspended | clearSuspended | clear => cases h; exact hkept

lemma left_of_run (hrun : Run step anyStep .new t) : Left t := by
  have hboth : Distinct t.stack ∧ Left t := by
    refine hrun.invariant (I := fun t => Distinct t.stack ∧ Left t) ?_
      ⟨distinct_new, nofun⟩
    rintro u e u' ⟨hs, hleft⟩ - hst
    exact ⟨hs.evolves (evolves_step hst), hleft.step hs hst⟩
  exact hboth.2

lemma Distinct.homeBlock_eq_some_iff (hs : Distinct s) {base len : Nat} :
    s.homeBlock serial = some (base, len) ↔
      ∃ b ∈ s.liveBlocks, b.serial = serial ∧ b.block.base = base ∧ b.block.payloadLen = len := by
  rw [homeBlock_eq_find, map_eq_some_iff]
  constructor
  · rintro ⟨b, hfind, heq⟩
    cases heq
    exact ⟨b, mem_of_find?_eq_some hfind, by simpa using find?_some hfind, rfl, rfl⟩
  · rintro ⟨b, hb, hser, rfl, rfl⟩
    have hsome : (s.liveBlocks.find? fun c => c.serial == serial).isSome :=
      find?_isSome.mpr ⟨b, hb, by simp [hser]⟩
    obtain ⟨c, hc⟩ := isSome_iff_exists.mp hsome
    have hcs : c.serial = serial := by simpa using find?_some hc
    obtain rfl : c = b := inj_on_of_nodup_map hs.nodup (mem_of_find?_eq_some hc) hb
      (hcs.trans hser.symm)
    exact ⟨c, hc, rfl⟩

lemma frameHomeWindow_eq_ok_iff (hs : Distinct s) (serial offset size address : Nat) :
    frameHomeWindow s serial offset size = .ok address ↔
      ∃ b ∈ s.liveBlocks, b.serial = serial ∧ offset + size ≤ b.block.payloadLen ∧
        address = b.block.base + offset := by
  have hfnd : ∀ base len, s.homeBlock serial = some (base, len) ↔ _ := fun base len =>
    hs.homeBlock_eq_some_iff
  unfold frameHomeWindow
  constructor
  · intro h
    split at h
    · cases h
    · rename_i base len hblk
      obtain ⟨b, hb, hser, rfl, rfl⟩ := (hfnd base len).mp hblk
      have hfits := b.block.fits
      split at h
      · cases h
      · cases h
        refine ⟨b, hb, hser, by omega, Nat.mod_eq_of_lt (by omega)⟩
  · rintro ⟨b, hb, hser, hle, rfl⟩
    have hfits := b.block.fits
    rw [(hfnd _ _).mpr ⟨b, hb, hser, rfl, rfl⟩]
    dsimp only
    rw [if_neg (by omega), Nat.mod_eq_of_lt (by omega)]

lemma Gone.window_eq_error (h : Gone s serial)
    (offset size : Nat) : frameHomeWindow s serial offset size = .error .invalidOrigin := by
  unfold frameHomeWindow
  rw [homeBlock_eq_find, find?_eq_none.mpr fun b hb => by simpa using h.2 b hb]
  rfl

/-- In every run, a frame-home byref resolves exactly when a live or suspended frame owns a block
with its serial that contains the window, and to that block. A byref with any other serial that was
issued never resolves again. -/
theorem window_resolves_iff_owned (t : Thread) (hrun : Run step anyStep .new t) :
    (∀ serial offset size address, frameHomeWindow t.stack serial offset size = .ok address ↔
        ∃ frame ∈ t.stack.all, ∃ b ∈ frame.homes.blocks,
          b.serial = serial ∧ offset + size ≤ b.block.payloadLen ∧
            address = b.block.base + offset) ∧
    (∀ frame ∈ t.popped, ∀ b ∈ frame.homes.blocks, ∀ t', Run step anyStep t t' →
      ∀ offset size, frameHomeWindow t'.stack b.serial offset size = .error .invalidOrigin) ∧
    (∀ serial, serial ≤ t.stack.lastHomeSerial → (∀ frame ∈ t.stack.all, ∀ b ∈ frame.homes.blocks,
        b.serial ≠ serial) →
      ∀ t', Run step anyStep t t' → ∀ offset size,
        frameHomeWindow t'.stack serial offset size = .error .invalidOrigin) := by
  refine ⟨fun serial offset size address => ?_, fun frame hfr b hb t' hlater offset size => ?_,
    fun serial hiss hno t' hlater offset size => ?_⟩
  · rw [frameHomeWindow_eq_ok_iff (distinct_of_run hrun)]
    simp only [FrameStack.liveBlocks, mem_flatMap]
    constructor
    · rintro ⟨b, ⟨frame, hfr, hb⟩, hrest⟩
      exact ⟨frame, hfr, b, hb, hrest⟩
    · rintro ⟨frame, hfr, b, hb, hrest⟩
      exact ⟨b, ⟨frame, hfr, hb⟩, hrest⟩
  · exact (gone_of_run (left_of_run hrun frame hfr b hb) hlater).window_eq_error offset size
  · have hgone : Gone t.stack serial := ⟨hiss, fun b hb => by
      obtain ⟨frame, hfr, hmem⟩ := mem_flatMap.mp hb
      exact hno frame hfr b hmem⟩
    exact (gone_of_run hgone hlater).window_eq_error offset size

def lowBlock : RawBlock := ⟨4096, 16, by decide, by decide⟩

def reusedFrame : List Event :=
  [.call none none, .call (some 16) (some lowBlock), .pop, .recycle,
    .call (some 16) (some lowBlock)]

theorem reusedFrame_resolves : ∃ t, Run step anyStep .new t ∧ t.stack.frames.length = 2 ∧
      frameHomeWindow t.stack 2 8 8 = .ok 4104 ∧
      frameHomeWindow t.stack 1 8 8 = .error .invalidOrigin := by
  have h : exec step .new reusedFrame = some _ := rfl
  have hrun : Run step anyStep .new _ := Run.of_exec_any reusedFrame h
  have hall := window_resolves_iff_owned _ hrun
  exact ⟨_, hrun, rfl, rfl, hall.2.2 1 (by decide) (by decide) _ .refl 8 8⟩

end DotnetVm.Homes
