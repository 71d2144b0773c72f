import DotnetVm.Memory.SafePoints

/-!
# The instructions and intrinsics over blocks

Allocation of an array, and copying, filling and clearing of memory. Address
checks, element layouts and typed writes are parameters.
-/

namespace DotnetVm.SafePoints

open Pops

/-- `stack_value_kind`. -/
def Operand.kind : Operand → String
  | .int32 _ => "Int32"
  | .int64 _ => "Int64"
  | .nativeInt _ => "NativeInt"
  | .nativeFloat _ => "NativeFloat"
  | .objectRef _ => "ObjectRef"
  | .unmanagedPtr _ => "UnmanagedPtr"
  | .managedPtr _ => "ManagedPtr"
  | .valueType _ => "ValueType"
  | .typedRef _ => "TypedRef"
  | .uninitializedTypedRef => "UninitializedTypedRef"

def typeMismatch (expected : String) (v : Operand) : Refusal :=
  .failed ("Type mismatch: expected " ++ expected ++ ", got " ++ v.kind)

def nullReference : Refusal :=
  .threw "System.NullReferenceException" "Object reference not set to an instance of an object."

def overflow : Refusal :=
  .threw "System.OverflowException" "Arithmetic operation resulted in an overflow."

def invalidProgram : Refusal :=
  .threw "System.InvalidProgramException" "Common Language Runtime detected an invalid program."

namespace Operand

/-- `try_as_isize`. The panicking `as_isize` of the intrinsics accepts the same kinds. -/
def tryAsIsize : Operand → Except Refusal Int
  | .nativeInt v => .ok v
  | .int32 v => .ok v
  | v => .error (typeMismatch "NativeInt" v)

def asUsize (v : Int) : Nat := (v % 2 ^ 64).toNat

/-- The address a pointer-like operand shows, `RetainedPtr::try_from_stack_value`. -/
def retain : Operand → Except Refusal Nat
  | .nativeInt v => .ok (asUsize v)
  | .unmanagedPtr a => .ok a
  | .managedPtr a => .ok a
  | .typedRef a => .ok a
  | v => .error (typeMismatch "pointer" v)

/-- `is_null`: an unmanaged pointer never is. -/
def isNull : Operand → Bool
  | .objectRef r => r.isNone
  | .managedPtr a => a == 0
  | .unmanagedPtr _ => false
  | .int32 v => v == 0
  | .int64 v => v == 0
  | .nativeInt v => v == 0
  | .nativeFloat _ => false
  | .valueType _ => false
  | .typedRef _ => false
  | .uninitializedTypedRef => false

/-- `stack_value_to_byte`. -/
def toByte : Operand → Option (BitVec 8)
  | .int32 v => some (BitVec.ofInt 8 v)
  | .int64 v => some (BitVec.ofInt 8 v)
  | .nativeInt v => some (BitVec.ofInt 8 v)
  | _ => none

/-- `retained_fill_destination`. -/
def fillDestination : Operand → Option Nat
  | .nativeInt v => if asUsize v = 0 then none else some (asUsize v)
  | .unmanagedPtr a => if a = 0 then none else some a
  | .managedPtr a => if a = 0 then none else some a
  | _ => none

/-- The kinds for which `ptr_info` finds an origin. -/
def hasOrigin : Operand → Bool
  | .objectRef _ | .managedPtr _ | .unmanagedPtr _ | .nativeInt _ | .valueType _ => true
  | _ => false

end Operand

/-- What the block instructions ask the rest of the machine. -/
structure Host where
  /-- `retained_range` of an operand with the given address, for so many bytes. -/
  retainedRange : Operand → Nat → Nat → Except Refusal Nat
  /-- `new_vector`, with the resolution of the element type. -/
  newVector : Nat → Except Refusal Unit
  /-- `write_unaligned` at a destination and offset. -/
  writeUnaligned : Operand → Nat → Operand → Storage → Except String Storage

/-- The layout of the type argument, its size and whether it is a byte scalar. -/
structure Element where
  size : Nat
  byteScalar : Bool

/-- `MEM_OP_CHUNK_SIZE`, and `CHUNK_SIZE` of the instructions. -/
def memOpChunkSize : ℕ+ := 1024 * 1024

/-- The chunks of so many bytes, from the offset on. -/
def chunksFrom (chunk : ℕ+) (size : Nat) : Nat → List (Nat × Nat)
  | offset =>
    if _h : offset < size then
      (offset, min (size - offset) chunk) ::
        chunksFrom chunk size (offset + min (size - offset) chunk)
    else []
  termination_by offset => size - offset
  decreasing_by have := chunk.pos; omega

def chunksBack (chunk : ℕ+) : Nat → List (Nat × Nat)
  | remaining =>
    if _h : 0 < remaining then
      (remaining - min remaining chunk, min remaining chunk) ::
        chunksBack chunk (remaining - min remaining chunk)
    else []
  termination_by remaining => remaining
  decreasing_by have := chunk.pos; omega

/-- `ptr::copy` of one chunk: all bytes are read before one is written. -/
def copyChunk (src dest : Nat) (chunk : Nat × Nat) (st : Storage) : Except Refusal Storage :=
  .ok { st with memory := fun a =>
    if dest + chunk.1 ≤ a ∧ a < dest + chunk.1 + chunk.2 then st.memory (src + (a - dest))
    else st.memory a }

/-- `ptr::write_bytes` of one chunk. -/
def fillChunk (dest : Nat) (value : BitVec 8) (chunk : Nat × Nat) (st : Storage) :
    Except Refusal Storage :=
  .ok { st with memory := fun a =>
    if dest + chunk.1 ≤ a ∧ a < dest + chunk.1 + chunk.2 then value else st.memory a }

def rangesOverlap (src dest len : Nat) : Bool :=
  src < min (dest + len) (2 ^ 64 - 1) && dest < min (src + len) (2 ^ 64 - 1)

/-- `chunked_copy_with_safe_point`. -/
def chunkedCopy (chunk : ℕ+) (src dest total : Nat) : Plan :=
  if total = 0 ∨ src = dest then []
  else if rangesOverlap src dest total ∧ src < dest then
    (chunksBack chunk total).map (copyChunk src dest)
  else (chunksFrom chunk total 0).map (copyChunk src dest)

/-- `chunked_fill_with_safe_point`. -/
def chunkedFill (dest total : Nat) (value : BitVec 8) : Plan :=
  (chunksFrom memOpChunkSize total 0).map (fillChunk dest value)

/-- `chunked_clear_with_safe_point`. -/
def chunkedClear (dest total : Nat) : Plan := chunkedFill dest total 0

def allocate (length : Nat) (st : Storage) : Except Refusal Storage :=
  .ok { st with vectors := st.vectors ++ [length] }

def largeArrayThreshold : Nat := 1024

variable (host : Host)

/-- The length operand of `newarr`. -/
def arrayLength : Operand → Except Refusal Nat
  | .int32 v => if v < 0 then .error overflow else .ok v.toNat
  | .nativeInt v => if v < 0 then .error overflow else .ok v.toNat
  | _ => .error invalidProgram

def newarrPlan (length : Nat) : Plan :=
  let allocation : Storage → Except Refusal Storage := fun st =>
    match host.newVector length with
    | .error r => .error r
    | .ok () => allocate length st
  if largeArrayThreshold < length then [.ok, allocation] else [allocation]

def newarr : Handler where
  act v := Pops.lift (arrayLength v) >>= fun length => pure (newarrPlan host length)
  more := 0
  takes _ := (takes_lift _).bind fun _ => takes_pure _
  result := some fun st => .objectRef (some (st.vectors.length - 1))

def cpblk : Handler where
  act v := do
    let size := Operand.asUsize (← Pops.lift v.tryAsIsize)
    let srcOwner ← popSafe
    let src ← Pops.lift srcOwner.retain
    let src ← Pops.lift (host.retainedRange srcOwner src size)
    let destOwner ← popSafe
    let dest ← Pops.lift destOwner.retain
    let dest ← Pops.lift (host.retainedRange destOwner dest size)
    if src = 0 ∨ dest = 0 then Pops.stop nullReference
    else pure ((chunksFrom memOpChunkSize size 0).map (copyChunk src dest))
  more := 2
  takes _ := (takes_lift _).bind fun _ => takes_popSafe.bind fun _ =>
    (takes_lift _).bind fun _ => (takes_lift _).bind fun _ =>
    takes_popSafe.bind fun _ => (takes_lift _).bind fun _ =>
    (takes_lift _).bind fun _ => .ite (takes_stop 0 _) (takes_pure _)
  result := none

def initblk : Handler where
  act v := do
    let size := Operand.asUsize (← Pops.lift v.tryAsIsize)
    let val ← popSafe
    let val ← Pops.lift val.tryAsIsize
    let addrOwner ← popSafe
    let addr ← Pops.lift addrOwner.retain
    let addr ← Pops.lift (host.retainedRange addrOwner addr size)
    if addr = 0 then Pops.stop nullReference
    else pure (chunkedFill addr size (BitVec.ofInt 8 val))
  more := 2
  takes _ := (takes_lift _).bind fun _ => takes_popSafe.bind fun _ =>
    (takes_lift _).bind fun _ => takes_popSafe.bind fun _ =>
    (takes_lift _).bind fun _ => (takes_lift _).bind fun _ =>
    .ite (takes_stop 0 _) (takes_pure _)
  result := none

section

variable (element : Option (Except Refusal Element))

def memmoveCount (len : Int) : Except Refusal Nat :=
  match element with
  | none => .ok (Operand.asUsize len)
  | some (.error r) => .error r
  | some (.ok e) =>
    if e.size * Operand.asUsize len < 2 ^ 64 then .ok (e.size * Operand.asUsize len)
    else .error overflow

def bufferMemmove : Handler where
  act v := do
    let len ← Pops.lift v.tryAsIsize
    let srcOwner ← popSafe
    let src ← Pops.lift srcOwner.retain
    let destOwner ← popSafe
    let dest ← Pops.lift destOwner.retain
    let total ← Pops.lift (memmoveCount element len)
    let src ← Pops.lift (host.retainedRange srcOwner src total)
    let dest ← Pops.lift (host.retainedRange destOwner dest total)
    pure (chunkedCopy memOpChunkSize src dest total)
  more := 2
  takes _ := (takes_lift _).bind fun _ => takes_popSafe.bind fun _ =>
    (takes_lift _).bind fun _ => takes_popSafe.bind fun _ =>
    (takes_lift _).bind fun _ => (takes_lift _).bind fun _ =>
    (takes_lift _).bind fun _ => (takes_lift _).bind fun _ => takes_pure _
  result := none

end

/-- `SpanHelpers.ClearWithoutReferences`. -/
def spanHelpersClear : Handler where
  act v := do
    let len ← Pops.lift v.tryAsIsize
    let destOwner ← popSafe
    let dest ← Pops.lift destOwner.retain
    let dest ← Pops.lift (host.retainedRange destOwner dest len.toNat)
    pure (chunkedClear dest len.toNat)
  more := 1
  takes _ := (takes_lift _).bind fun _ => takes_popSafe.bind fun _ =>
    (takes_lift _).bind fun _ => (takes_lift _).bind fun _ => takes_pure _
  result := none

/-- One element of the slow path of `Fill`. -/
def fillElement (dest : Operand) (elemSize : Nat) (value : Operand) (i : Nat) (st : Storage) :
    Except Refusal Storage :=
  match host.writeUnaligned dest (i * elemSize) value st with
  | .ok st => .ok st
  | .error e => .error (.failed ("SpanHelpers.Fill failed: " ++ e))

def fillPlan (e : Element) (dest value : Operand) (len : Nat) : Except Refusal Plan :=
  match e.size == 1 && e.byteScalar, value.toByte, dest.fillDestination with
  | true, some byte, some addr =>
    match host.retainedRange dest addr len with
    | .ok addr => .ok (chunkedFill addr len byte)
    | .error r => .error r
  | _, _, _ => .ok ((List.range len).map (fillElement host dest e.size value))

def spanHelpersFill (element : Except Refusal Element) : Handler where
  act value := do
    let len ← popSafe
    let len ← Pops.lift len.tryAsIsize
    let dest ← popSafe
    if dest.isNull then Pops.stop nullReference
    else if ¬ dest.hasOrigin then Pops.stop invalidProgram
    else
      let e ← Pops.lift element
      Pops.lift (fillPlan host e dest value len.toNat)
  more := 2
  takes _ := takes_popSafe.bind fun _ => (takes_lift _).bind fun _ =>
    takes_popSafe.bind fun _ => .ite (takes_stop 0 _) <|
    .ite (takes_stop 0 _) <| (takes_lift _).bind fun _ => takes_lift _
  result := none

end DotnetVm.SafePoints
