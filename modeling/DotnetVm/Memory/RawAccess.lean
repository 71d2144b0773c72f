import DotnetVm.Layout.Access
import DotnetVm.Memory.Variables

/-!
# Raw memory operations

Every operation on raw memory takes a pointer origin and a byte offset, and has a
branch of its own for each origin. Heap objects are checked by address, the homes
of a frame and the storages of static and transient values by offset; some
branches add offset and size without a check and some make no check at all.
-/

namespace DotnetVm.RawMemory

open Bytes Variables

def checkedAdd (a b : Nat) : Option Nat := if a + b ≤ usizeMax then some (a + b) else none

def wrappingAdd (a b : Nat) : Nat := (a + b) % (usizeMax + 1)

def wrappingSub (a b : Nat) : Nat := (a + (usizeMax + 1 - b)) % (usizeMax + 1)

/-- The test `is_none_or(|end| end > len)` of a checked sum. -/
def passes (len : Nat) (sum : Option Nat) : Bool := sum.all fun stop => decide (len < stop)

/-- Bytes that are somewhere in the address space. -/
structure Storage where
  base : Nat
  data : List (BitVec 8)
  nonnull : 0 < base
  fits : base + data.length ≤ usizeMax

section

variable (s : Storage)

def Storage.len : Nat := s.data.length

def Storage.address (offset : Nat) : Nat := wrappingAdd s.base offset

inductive HeapStorage where
  | vec (element : LayoutManager) (length : Nat)
  | str
  | obj (layout : FieldLayoutManager)
  | boxed (layout : FieldLayoutManager)

/-- `get_layout_from_owner`. -/
def HeapStorage.layout : HeapStorage → Option LayoutManager
  | .vec element length => some (.array element length)
  | .str => none
  | .obj layout | .boxed layout => some (.field layout)

/-- `PointerOrigin` without the unmanaged one, which has no owner. -/
inductive Origin where
  | heap (storage : HeapStorage)
  | crossArenaObjectRef (storage : HeapStorage)
  | static
  | transient
  | frameHome (homes : List VariableHome)

/-- A live owner. The homes of a frame lie in the home block. -/
structure Owner where
  origin : Origin
  memory : Storage
  homed : ∀ homes, origin = .frameHome homes →
    ∀ home ∈ homes, home.offset + home.layout.size ≤ memory.len

/-- Atomic operations on a slot that holds an object reference. -/
inductive PointerAtomicOp where
  | load
  | store (value : BitVec 64)
  | exchange (value : BitVec 64)
  | compareExchange (expected value : BitVec 64)
  deriving DecidableEq, Repr

inductive AtomicOp where
  | load
  | store (value : BitVec 64)
  | exchange (value : BitVec 64)
  | exchangeAdd (value : BitVec 64)
  | compareExchange (expected new : BitVec 64)
  deriving DecidableEq, Repr

inductive Operation where
  | readUnaligned (layout : LayoutManager) (description : Option TypeDescription)
  | writeUnaligned (value : StackValue) (layout : LayoutManager)
  | readBytes (size : Nat)
  | writeBytes (bytes : List (BitVec 8))
  | objectAtomic (op : PointerAtomicOp)
  | atomic (op : AtomicOp) (size : Nat)

def Operation.size : Operation → Nat
  | .readUnaligned layout _ | .writeUnaligned _ layout => layout.size
  | .readBytes size | .atomic _ size => size
  | .writeBytes bytes => bytes.length
  | .objectAtomic _ => 8

inductive Outcome where
  | done
  | value (v : StackValue)
  | bytes (bs : List (BitVec 8))
  | word (w : BitVec 64)
  | mismatch (found : BitVec 64)
  | error (e : MemoryAccessError)
  | panicked
  | escaped
  deriving DecidableEq, Repr

/-- The outcome, and the bytes of the storage afterwards. -/
structure Reply where
  outcome : Outcome
  data : List (BitVec 8)
  deriving DecidableEq, Repr

/-- The operator `?` on a check: an error is returned with the bytes as they are. -/
def after (check : Except MemoryAccessError Unit) (s : Storage) (rest : Reply) : Reply :=
  match check with
  | .error e => ⟨.error e, s.data⟩
  | .ok () => rest

def checkBounds (ptr base len size : Nat) : Except MemoryAccessError Unit :=
  if base ≠ 0 then
    if ptr < base ∨ passes len (checkedAdd (ptr - base) size) then
      .error (.boundsCheck (wrappingSub ptr base) size len)
    else .ok ()
  else .ok ()

def checkHeap (offset size : Nat) : Except MemoryAccessError Unit :=
  checkBounds (s.address offset) s.base s.len size

/-- The check by offset: of `frame_home_window` for a live frame, of the inline storages of static
and transient values, and of their object slots. -/
def checkRange (offset size : Nat) : Except MemoryAccessError Unit :=
  if passes s.len (checkedAdd offset size) then .error (.boundsCheck offset size s.len) else .ok ()

end

/-- `with_data_mut` of the owner of an object. A string of another arena cannot be modified; a local
one hands out its characters. -/
def withDataMut (origin : Origin) (s : Storage) (rest : Reply) : Reply :=
  match origin with
  | .crossArenaObjectRef .str => ⟨.panicked, s.data⟩
  | _ => rest

def liftError : DotnetVm.MemoryAccessError → MemoryAccessError
  | .typeMismatch message => .typeMismatch message
  | .unalignedAccess offset => .unalignedAccess offset

section

variable (storage : HeapStorage) (offset : Nat) (layout : LayoutManager)

/-- `check_integrity_internal_with_layout`. -/
def checkIntegrity : Except MemoryAccessError Unit :=
  match storage.layout with
  | some dest =>
    (dest.validateRefIntegrity 0 offset (offset + layout.size) layout).mapError liftError
  | none => .ok ()

/-- The read safety check of `read_unaligned`. -/
def checkSafety : Except MemoryAccessError Unit :=
  if offset ≠ 0 ∨ storage.layout.isSome then
    (layout.checkReadSafety storage.layout offset).mapError liftError
  else .ok ()

end

section Access

variable (host : Host)

section

variable (s : Storage) (offset : Nat)

/-- `write_value_internal` at an offset. -/
def putValue (v : StackValue) (layout : LayoutManager) : Reply :=
  match writeValueInternal host layout v with
  | .error e => ⟨.error e, s.data⟩
  | .ok bs => ⟨.done, store s.data offset bs⟩

/-- `read_value_internal` at an offset. -/
def takeValue (layout : LayoutManager) (description : Option TypeDescription) : Reply :=
  match readValueInternal host layout description (load s.data offset layout.size) with
  | .error e => ⟨.error e, s.data⟩
  | .ok v => ⟨.value v, s.data⟩

def isByref : LayoutManager → Bool
  | .scalar .managedPtr => true
  | _ => false

def isByrefHome (homes : List VariableHome) (offset : Nat) : Bool :=
  homes.any fun home => decide (home.offset = offset) && isByref home.layout

def homeLayout (homes : List VariableHome) (offset : Nat) (layout : LayoutManager) :
    LayoutManager :=
  match layout with
  | .scalar .nativeInt =>
    if isByrefHome homes offset then .scalar .managedPtr else .scalar .nativeInt
  | layout => layout

def writeUnaligned (o : Owner) (offset : Nat) (v : StackValue) (layout : LayoutManager) : Reply :=
  match o.origin with
  | .frameHome homes =>
    let layout := homeLayout homes offset layout
    after (checkRange o.memory offset layout.size) o.memory (putValue host o.memory offset v layout)
  | .static | .transient =>
    after (checkRange o.memory offset layout.size) o.memory (putValue host o.memory offset v layout)
  | .heap storage | .crossArenaObjectRef storage =>
    withDataMut o.origin o.memory <| after (checkHeap o.memory offset layout.size) o.memory <|
        after (checkIntegrity storage offset layout)
          o.memory (putValue host o.memory offset v layout)

def readUnaligned (o : Owner) (offset : Nat) (layout : LayoutManager)
    (description : Option TypeDescription) : Reply :=
  match o.origin with
  | .frameHome homes =>
    let layout := homeLayout homes offset layout
    after (checkRange o.memory offset layout.size) o.memory
      (takeValue host o.memory offset layout description)
  | .static | .transient =>
    after (checkRange o.memory offset layout.size) o.memory
      (takeValue host o.memory offset layout description)
  | .heap storage | .crossArenaObjectRef storage =>
    after (checkHeap o.memory offset layout.size) o.memory <|
      after (checkSafety storage offset layout) o.memory
        (takeValue host o.memory offset layout description)

def sliced (s : Storage) (offset size : Nat) (rest : Reply) : Reply :=
  match checkedAdd offset size with
  | none => ⟨.panicked, s.data⟩
  | some stop =>
    if s.len < stop then ⟨.error (.boundsCheck offset size s.len), s.data⟩ else rest

def boundsCheckedSliceCopy (src : List (BitVec 8)) : Reply :=
  sliced s offset src.length ⟨.done, store s.data offset src⟩

/-- `bounds_checked_slice_read`, which is also what `read_bytes` does with the data of a heap
object. -/
def boundsCheckedSliceRead (s : Storage) (offset size : Nat) : Reply :=
  sliced s offset size ⟨.bytes (load s.data offset size), s.data⟩

def writeBytes (o : Owner) (offset : Nat) (bytes : List (BitVec 8)) : Reply :=
  match o.origin with
  | .frameHome _ =>
    after (checkRange o.memory offset bytes.length)
      o.memory ⟨.done, store o.memory.data offset bytes⟩
  | .static | .transient => boundsCheckedSliceCopy o.memory offset bytes
  | .heap _ | .crossArenaObjectRef _ =>
    withDataMut o.origin o.memory <| after (checkHeap o.memory offset bytes.length) o.memory
        ⟨.done, store o.memory.data offset bytes⟩

def readBytes (o : Owner) (offset size : Nat) : Reply :=
  match o.origin with
  | .frameHome _ =>
    after (checkRange o.memory offset size) o.memory
      ⟨.bytes (load o.memory.data offset size), o.memory.data⟩
  | .static | .transient | .heap _ | .crossArenaObjectRef _ =>
    boundsCheckedSliceRead o.memory offset size

def isPtrAlignedToField (address size : Nat) : Bool := decide (address % size = 0)

/-- The word in a window. -/
def wordAt (s : Storage) (offset size : Nat) : BitVec 64 :=
  BitVec.ofNat 64 (decode (load s.data offset size))

def PointerAtomicOp.execute (op : PointerAtomicOp) (aligned : Bool) (old : BitVec 64) :
    Option (BitVec 64 × Option (BitVec 64)) :=
  match op with
  | .load => some (old, none)
  | .store value => some (0, some value)
  | .exchange value => if aligned then some (old, some value) else none
  | .compareExchange expected value =>
    if aligned then some (old, if old = expected then some value else none) else none

def objectAtomicPtr (op : PointerAtomicOp) : Reply :=
  match op.execute (isPtrAlignedToField (s.address offset) 8) (wordAt s offset 8) with
  | none => ⟨.error (.unalignedAccess (s.address offset)), s.data⟩
  | some (previous, none) => ⟨.word previous, s.data⟩
  | some (previous, some value) => ⟨.word previous, store s.data offset (encode 8 value.toNat)⟩

def objectAtomic (o : Owner) (offset : Nat) (op : PointerAtomicOp) : Reply :=
  match o.origin with
  | .frameHome _ | .static | .transient =>
    after (checkRange o.memory offset 8) o.memory (objectAtomicPtr o.memory offset op)
  | .heap _ | .crossArenaObjectRef _ =>
    withDataMut o.origin o.memory <|
      after (checkHeap o.memory offset 8) o.memory (objectAtomicPtr o.memory offset op)

def AtomicOp.execute (op : AtomicOp) (size : Nat)
    (old : BitVec 64) : Outcome × Option (BitVec 64) :=
  match op with
  | .load => (.word old, none)
  | .store value => (.done, some value)
  | .exchange value => (.word old, some value)
  | .exchangeAdd value => (.word old, some (old + value))
  | .compareExchange expected new =>
    if old.toNat = expected.toNat % 256 ^ size then (.word old, some new) else (.mismatch old, none)

def AtomicOp.hasFallback : AtomicOp → Bool
  | .load | .store _ => true
  | _ => false

def executeAt (op : AtomicOp) (size : Nat) : Reply :=
  if s.len < offset + size then ⟨.escaped, s.data⟩
  else
    match op.execute size (wordAt s offset size) with
    | (outcome, none) => ⟨outcome, s.data⟩
    | (outcome, some new) => ⟨outcome, store s.data offset (encode size new.toNat)⟩

/-- The sizes atomic operations support. -/
def isAtomicWidth (size : Nat) : Bool := size == 1 || size == 2 || size == 4 || size == 8

def dispatchAtomicWidth (op : AtomicOp) (size : Nat) : Reply :=
  if isAtomicWidth size then executeAt s offset op size else ⟨.panicked, s.data⟩

/-- The functions that go through a pointer, such as `exchange_atomic_ptr`. -/
def atomicPtr (op : AtomicOp) (size : Nat) : Reply :=
  if op.hasFallback || isPtrAlignedToField (s.address offset) size then
    dispatchAtomicWidth s offset op size
  else ⟨.error (.unalignedAccess (s.address offset)), s.data⟩

end

/-- `load_atomic`, `store_atomic`, `exchange_atomic`, `exchange_add_atomic` and
`compare_exchange_atomic`. The storages of static and transient values are not checked; their
address is only tested for null. -/
def atomic (o : Owner) (offset : Nat) (op : AtomicOp) (size : Nat) : Reply :=
  match o.origin with
  | .frameHome _ =>
    after (checkRange o.memory offset size) o.memory (atomicPtr o.memory offset op size)
  | .static | .transient =>
    if o.memory.address offset = 0 then ⟨.panicked, o.memory.data⟩
    else atomicPtr o.memory offset op size
  | .heap _ | .crossArenaObjectRef _ =>
    let access :=
      after (checkHeap o.memory offset size) o.memory (atomicPtr o.memory offset op size)
    match op with
    | .load => access
    | _ => withDataMut o.origin o.memory access

/-- An operation on raw memory. -/
def access (o : Owner) (offset : Nat) : Operation → Reply
  | .readUnaligned layout description => readUnaligned host o offset layout description
  | .writeUnaligned v layout => writeUnaligned host o offset v layout
  | .readBytes size => readBytes o offset size
  | .writeBytes bytes => writeBytes o offset bytes
  | .objectAtomic op => objectAtomic o offset op
  | .atomic op size => atomic o offset op size

end Access

section Checks

variable {s : Storage} {offset size : Nat}

lemma Storage.len_le (s : Storage) : s.len ≤ usizeMax := by
  have hfits := s.fits
  unfold Storage.len
  omega

lemma passes_checkedAdd {len a b : Nat} (hlen : len ≤ usizeMax) :
    passes len (checkedAdd a b) = decide (len < a + b) := by
  unfold passes checkedAdd
  split
  · rfl
  next hsum =>
    have hout : len < a + b := by omega
    simp [hout]

lemma checkRange_eq (s : Storage) (offset size : Nat) : checkRange s offset size =
    if s.len < offset + size then .error (.boundsCheck offset size s.len) else .ok () := by
  simp [checkRange, passes_checkedAdd s.len_le]

lemma checkHeap_eq_checkRange (hoff : offset ≤ usizeMax) :
    checkHeap s offset size = checkRange s offset size := by
  have hnull : s.base ≠ 0 := ne_of_gt s.nonnull
  have hfits : s.base + s.len ≤ usizeMax := s.fits
  have hback : wrappingSub (s.address offset) s.base = offset := by
    simp only [wrappingSub, Storage.address, wrappingAdd, usizeMax] at *
    omega
  rw [checkRange_eq]
  simp only [checkHeap, checkBounds, if_pos hnull, hback, passes_checkedAdd s.len_le,
    decide_eq_true_eq]
  refine if_congr ?_ rfl rfl
  simp only [Storage.address, wrappingAdd, usizeMax] at *
  omega

end Checks

def Outcome.isBoundsError : Outcome → Bool
  | .error (.boundsCheck _ _ _) => true
  | _ => false

structure Answers (s : Storage) (stop : Nat) (r : Reply) : Prop where
  bounds : r.outcome.isBoundsError = true ↔ s.len < stop
  unchanged : r.outcome.isBoundsError = true → r.data = s.data
  runs : r.outcome ≠ .panicked

/-- Neither a bounds error nor a panic. -/
def Outcome.Quiet (outcome : Outcome) : Prop := outcome.isBoundsError = false ∧ outcome ≠ .panicked

section Answers

variable {s : Storage} {offset size stop : Nat} {rest r : Reply}

lemma not_answers_panicked {data : List (BitVec 8)} : ¬Answers s stop ⟨.panicked, data⟩ :=
  fun h => h.runs rfl

lemma answers_iff_quiet (hin : stop ≤ s.len) : Answers s stop r ↔ r.outcome.Quiet := by
  constructor
  · intro h
    exact ⟨Bool.eq_false_iff.mpr fun hb => absurd (h.bounds.mp hb) (by omega), h.runs⟩
  · rintro ⟨hbds, hruns⟩
    refine ⟨⟨fun hb => ?_, fun hout => absurd hout (by omega)⟩, fun hb => ?_, hruns⟩
    · rw [hbds] at hb
      cases hb
    · rw [hbds] at hb
      cases hb

lemma not_answers_of_quiet (hout : s.len < stop) (hqt : r.outcome.isBoundsError = false) :
    ¬Answers s stop r := by
  intro h
  have hbds := h.bounds.mpr hout
  rw [hqt] at hbds
  cases hbds

lemma answers_boundsCheck (hout : s.len < stop) (offset size len : Nat) :
    Answers s stop ⟨.error (.boundsCheck offset size len), s.data⟩ :=
  ⟨⟨fun _ => hout, fun _ => rfl⟩, fun _ => rfl, nofun⟩

lemma answers_after_checkRange :
    Answers s (offset + size) (after (checkRange s offset size) s rest) ↔
      (offset + size ≤ s.len → rest.outcome.Quiet) := by
  rw [checkRange_eq]
  by_cases hout : s.len < offset + size
  · simp only [if_pos hout]
    exact ⟨fun _ hin => absurd hin (by omega), fun _ => answers_boundsCheck hout ..⟩
  · simp only [if_neg hout]
    rw [answers_iff_quiet (by omega)]
    exact ⟨fun h _ => h, fun h => h (by omega)⟩

lemma answers_after_checkHeap (hoff : offset ≤ usizeMax) :
    Answers s (offset + size) (after (checkHeap s offset size) s rest) ↔
      (offset + size ≤ s.len → rest.outcome.Quiet) := by
  rw [checkHeap_eq_checkRange hoff, answers_after_checkRange]

lemma answers_sliced (hqt : rest.outcome.Quiet) :
    Answers s (offset + size) (sliced s offset size rest) ↔ offset + size ≤ usizeMax := by
  unfold sliced checkedAdd
  by_cases hsum : offset + size ≤ usizeMax
  · rw [if_pos hsum]
    refine iff_of_true ?_ hsum
    by_cases hout : s.len < offset + size
    · simp only [if_pos hout]
      exact answers_boundsCheck hout ..
    · simp only [if_neg hout]
      exact (answers_iff_quiet (by omega)).mpr hqt
  · rw [if_neg hsum]
    exact iff_of_false not_answers_panicked hsum

end Answers

section Quiet

variable {host : Host} {s : Storage} {offset : Nat}

/-- Errors of other kinds than the bounds check. -/
def MemoryAccessError.Inner : MemoryAccessError → Prop
  | .boundsCheck _ _ _ => False
  | _ => True

variable {e : MemoryAccessError}

lemma quiet_error (h : e.Inner) : (Outcome.error e).Quiet := by
  cases e with
  | boundsCheck => exact h.elim
  | _ => exact ⟨rfl, nofun⟩

lemma inner_of_map {α β : Type} {f : α → β} {x : Except MemoryAccessError α}
    (hx : ∀ e, x = .error e → e.Inner) (h : x.map f = .error e) : e.Inner := by
  cases x with
  | error e' =>
    obtain rfl := Except.error.inj h
    exact hx e' rfl
  | ok a => cases h

variable {v : StackValue}

lemma extract_inner (h : extractInt host v = .error e ∨ extractLong host v = .error e ∨
    extractNativeInt host v = .error e ∨ extractFloat v = .error e) : e.Inner := by
  rcases h with h | h | h | h
  all_goals
    simp only [extractInt, extractLong, extractNativeInt, extractFloat] at h
    split at h <;> cases h
    trivial

lemma writeScalar_inner {k : Scalar} (h : writeScalar host k v = .error e) : e.Inner := by
  cases k with
  | int8 | uInt8 | int16 | uInt16 | int32 =>
    exact inner_of_map (fun _ h => extract_inner (.inl h)) h
  | int64 => exact inner_of_map (fun _ h => extract_inner (.inr (.inl h))) h
  | nativeInt => exact inner_of_map (fun _ h => extract_inner (.inr (.inr (.inl h)))) h
  | float32 | float64 => exact inner_of_map (fun _ h =>
      @extract_inner host _ _ (.inr (.inr (.inr h)))) h
  | managedPtr =>
    cases v with
    | managedPtr p =>
      simp only [writeScalar] at h
      split at h
      · obtain rfl := Except.error.inj h
        trivial
      · cases h
    | _ =>
      obtain rfl := Except.error.inj h
      trivial
  | objectRef =>
    cases v with
    | objectRef word => cases h
    | _ =>
      obtain rfl := Except.error.inj h
      trivial

variable {layout : LayoutManager}

lemma writeValueInternal_inner (h : writeValueInternal host layout v = .error e) : e.Inner := by
  cases layout with
  | scalar k => exact writeScalar_inner h
  | field m =>
    cases v with
    | valueType description data => cases h
    | _ =>
      obtain rfl := Except.error.inj h
      trivial
  | array element length =>
    obtain rfl := Except.error.inj h
    trivial

lemma readValueInternal_inner {description : Option TypeDescription} {bs : List (BitVec 8)}
    (h : readValueInternal host layout description bs = .error e) : e.Inner := by
  cases layout with
  | scalar k =>
    cases k with
    | managedPtr =>
      simp only [readValueInternal, readScalar] at h
      split at h <;> cases h
      trivial
    | _ => cases h
  | field m =>
    cases description with
    | some description => cases h
    | none =>
      obtain rfl := Except.error.inj h
      trivial
  | array element length =>
    obtain rfl := Except.error.inj h
    trivial

lemma putValue_quiet (s : Storage) (offset : Nat) (v : StackValue) (layout : LayoutManager) :
    (putValue host s offset v layout).outcome.Quiet := by
  unfold putValue
  split
  next e he => exact quiet_error (writeValueInternal_inner he)
  · exact ⟨rfl, nofun⟩

lemma takeValue_quiet (s : Storage) (offset : Nat) (layout : LayoutManager)
    (description : Option TypeDescription) :
    (takeValue host s offset layout description).outcome.Quiet := by
  unfold takeValue
  split
  next e he => exact quiet_error (readValueInternal_inner he)
  · exact ⟨rfl, nofun⟩

variable {rest : Reply}

lemma after_mapError_quiet {check : Except DotnetVm.MemoryAccessError Unit}
    (h : rest.outcome.Quiet) : (after (check.mapError liftError) s rest).outcome.Quiet := by
  cases check with
  | ok u => exact h
  | error e =>
    cases e with
    | typeMismatch message => exact ⟨rfl, nofun⟩
    | unalignedAccess offset => exact ⟨rfl, nofun⟩

variable {storage : HeapStorage}

lemma after_checkIntegrity_quiet
    (h : rest.outcome.Quiet) :
    (after (checkIntegrity storage offset layout) s rest).outcome.Quiet := by
  unfold checkIntegrity
  split
  · exact after_mapError_quiet h
  · exact h

lemma after_checkSafety_quiet
    (h : rest.outcome.Quiet) :
    (after (checkSafety storage offset layout) s rest).outcome.Quiet := by
  unfold checkSafety
  split
  · exact after_mapError_quiet h
  · exact h

lemma objectAtomicPtr_quiet (s : Storage) (offset : Nat) (op : PointerAtomicOp) :
    (objectAtomicPtr s offset op).outcome.Quiet := by
  unfold objectAtomicPtr
  split
  · exact ⟨rfl, nofun⟩
  · exact ⟨rfl, nofun⟩
  · exact ⟨rfl, nofun⟩

lemma AtomicOp.execute_quiet (op : AtomicOp) (size : Nat) (old : BitVec 64) :
    (op.execute size old).1.Quiet := by
  cases op with
  | compareExchange expected new =>
    simp only [AtomicOp.execute]
    split
    · exact ⟨rfl, nofun⟩
    · exact ⟨rfl, nofun⟩
  | _ => exact ⟨rfl, nofun⟩

lemma executeAt_quiet (s : Storage) (offset : Nat) (op : AtomicOp) (size : Nat) :
    (executeAt s offset op size).outcome.Quiet := by
  have hqt := op.execute_quiet size (wordAt s offset size)
  unfold executeAt
  split
  · exact ⟨rfl, nofun⟩
  · split
    next heq => rwa [heq] at hqt
    next heq => rwa [heq] at hqt

lemma atomicPtr_quiet_iff {op : AtomicOp} {size : Nat} :
    (atomicPtr s offset op size).outcome.Quiet ↔
    isAtomicWidth size = true ∨ (op.hasFallback = false ∧ s.address offset % size ≠ 0) := by
  unfold atomicPtr dispatchAtomicWidth
  by_cases hreach : (op.hasFallback || isPtrAlignedToField (s.address offset) size) = true
  · rw [if_pos hreach]
    have hfalse : ¬(op.hasFallback = false ∧ s.address offset % size ≠ 0) := by
      simpa [isPtrAlignedToField, or_iff_not_imp_left] using hreach
    by_cases hwd : isAtomicWidth size = true
    · rw [if_pos hwd]
      exact iff_of_true (executeAt_quiet ..) (Or.inl hwd)
    · rw [if_neg hwd]
      exact iff_of_false (fun h => h.2 rfl) (not_or.mpr ⟨hwd, hfalse⟩)
  · rw [if_neg hreach]
    have htrue : op.hasFallback = false ∧ s.address offset % size ≠ 0 := by
      simpa [isPtrAlignedToField] using hreach
    exact iff_of_true ⟨rfl, nofun⟩ (Or.inr htrue)

lemma atomicPtr_not_bounds (s : Storage) (offset : Nat) (op : AtomicOp) (size : Nat) :
    (atomicPtr s offset op size).outcome.isBoundsError = false := by
  unfold atomicPtr dispatchAtomicWidth
  split
  · split
    · exact (executeAt_quiet ..).1
    · rfl
  · rfl

end Quiet

def Origin.isCrossArenaString : Origin → Bool
  | .crossArenaObjectRef .str => true
  | _ => false

def Origin.isInline : Origin → Bool
  | .static | .transient => true
  | _ => false

def Origin.isFrameHome : Origin → Bool
  | .frameHome _ => true
  | _ => false

def Answerable (o : Owner) (offset : Nat) : Operation → Prop
  | .readUnaligned _ _ => True
  | .writeUnaligned _ _ | .objectAtomic _ => o.origin.isCrossArenaString = false
  | .readBytes size => o.origin.isFrameHome = true ∨ offset + size ≤ usizeMax
  | .writeBytes bytes =>
    o.origin.isCrossArenaString = false ∧
      (o.origin.isInline = true → offset + bytes.length ≤ usizeMax)
  | .atomic op size =>
    (op = .load ∨ o.origin.isCrossArenaString = false) ∧
    (o.origin.isInline = true → offset + size ≤ o.memory.len) ∧
    (offset + size ≤ o.memory.len →
      isAtomicWidth size = true ∨ (op.hasFallback = false ∧ o.memory.address offset % size ≠ 0))

section Matrix

variable {host : Host} {o : Owner} {offset : Nat}

lemma answers_withDataMut {origin : Origin} {s : Storage} {stop : Nat} {r : Reply} :
    Answers s stop (withDataMut origin s r) ↔
      origin.isCrossArenaString = false ∧ Answers s stop r := by
  unfold withDataMut Origin.isCrossArenaString
  split
  · exact iff_of_false not_answers_panicked (by simp)
  · simp

variable {layout : LayoutManager}

lemma size_of_isByref (h : isByref layout = true) : layout.size = 24 := by
  revert h
  unfold isByref
  split
  · exact fun _ => rfl
  · exact nofun

variable {s : Storage}

lemma homeLayout_fits {homes : List VariableHome}
    (hhomes : ∀ home ∈ homes, home.offset + home.layout.size ≤ s.len) :
    s.len < offset + (homeLayout homes offset layout).size ↔ s.len < offset + layout.size := by
  unfold homeLayout
  split
  · split
    next hbr =>
      obtain ⟨home, hmem, hhome⟩ := List.any_eq_true.mp hbr
      simp only [Bool.and_eq_true, decide_eq_true_eq] at hhome
      obtain ⟨hat, hptr⟩ := hhome
      have hfits := hhomes home hmem
      have hsize := size_of_isByref hptr
      have hman : (LayoutManager.scalar .managedPtr).size = 24 := rfl
      have hnative : (LayoutManager.scalar .nativeInt).size = 8 := rfl
      omega
    · exact Iff.rfl
  · exact Iff.rfl

lemma answers_congr {stop stop' : Nat} {r : Reply}
    (h : s.len < stop ↔ s.len < stop') : Answers s stop r ↔ Answers s stop' r :=
  ⟨fun a => ⟨a.bounds.trans h, a.unchanged, a.runs⟩,
    fun a => ⟨a.bounds.trans h.symm, a.unchanged, a.runs⟩⟩

lemma answers_readUnaligned (hoff : offset ≤ usizeMax) (layout : LayoutManager)
    (description : Option TypeDescription) :
    Answers o.memory (offset + layout.size) (readUnaligned host o offset layout description) := by
  unfold readUnaligned
  split
  next homes horig =>
    rw [answers_congr (homeLayout_fits (o.homed homes horig)).symm, answers_after_checkRange]
    exact fun _ => takeValue_quiet ..
  all_goals first
    | exact answers_after_checkRange.mpr fun _ => takeValue_quiet ..
    | exact (answers_after_checkHeap hoff).mpr fun _ =>
        after_checkSafety_quiet (takeValue_quiet ..)

lemma answers_writeUnaligned (hoff : offset ≤ usizeMax) (v : StackValue) (layout : LayoutManager) :
    Answers o.memory (offset + layout.size) (writeUnaligned host o offset v layout) ↔
      o.origin.isCrossArenaString = false := by
  unfold writeUnaligned
  split
  next homes horig =>
    rw [answers_congr (homeLayout_fits (o.homed homes horig)).symm, answers_after_checkRange,
      horig]
    exact iff_of_true (fun _ => putValue_quiet ..) rfl
  next horig =>
    rw [answers_after_checkRange, horig]
    exact iff_of_true (fun _ => putValue_quiet ..) rfl
  next horig =>
    rw [answers_after_checkRange, horig]
    exact iff_of_true (fun _ => putValue_quiet ..) rfl
  all_goals
    rw [answers_withDataMut, answers_after_checkHeap hoff]
    exact and_iff_left fun _ => after_checkIntegrity_quiet (putValue_quiet ..)

lemma answers_readBytes (size : Nat) : Answers o.memory (offset + size) (readBytes o offset size) ↔
    o.origin.isFrameHome = true ∨ offset + size ≤ usizeMax := by
  have hslice : Answers o.memory (offset + size) (boundsCheckedSliceRead o.memory offset size) ↔
      offset + size ≤ usizeMax := answers_sliced ⟨rfl, nofun⟩
  unfold readBytes
  cases horig : o.origin with
  | frameHome homes =>
    rw [answers_after_checkRange]
    exact iff_of_true (fun _ => ⟨rfl, nofun⟩) (Or.inl rfl)
  | _ => simpa [Origin.isFrameHome] using hslice

lemma answers_writeBytes (hoff : offset ≤ usizeMax) (bytes : List (BitVec 8)) :
    Answers o.memory (offset + bytes.length) (writeBytes o offset bytes) ↔
      o.origin.isCrossArenaString = false ∧
        (o.origin.isInline = true → offset + bytes.length ≤ usizeMax) := by
  have hslice : Answers o.memory (offset + bytes.length)
      (boundsCheckedSliceCopy o.memory offset bytes) ↔ offset + bytes.length ≤ usizeMax :=
    answers_sliced ⟨rfl, nofun⟩
  unfold writeBytes
  cases horig : o.origin with
  | frameHome homes =>
    rw [answers_after_checkRange]
    exact iff_of_true (fun _ => ⟨rfl, nofun⟩) ⟨rfl, nofun⟩
  | static | transient =>
    simpa [Origin.isCrossArenaString, Origin.isInline] using hslice
  | heap storage | crossArenaObjectRef storage =>
    rw [answers_withDataMut, answers_after_checkHeap hoff]
    exact and_congr_right fun _ => iff_of_true (fun _ => ⟨rfl, nofun⟩) nofun

lemma answers_objectAtomic (hoff : offset ≤ usizeMax) (op : PointerAtomicOp) :
    Answers o.memory (offset + 8) (objectAtomic o offset op) ↔
      o.origin.isCrossArenaString = false := by
  unfold objectAtomic
  cases horig : o.origin with
  | frameHome _ | static | transient =>
    rw [answers_after_checkRange]
    exact iff_of_true (fun _ => objectAtomicPtr_quiet ..) rfl
  | heap storage | crossArenaObjectRef storage =>
    rw [answers_withDataMut, answers_after_checkHeap hoff]
    exact and_iff_left fun _ => objectAtomicPtr_quiet ..

lemma answers_unchecked {op : AtomicOp} {size : Nat} : Answers s (offset + size)
        (if s.address offset = 0 then ⟨.panicked, s.data⟩ else atomicPtr s offset op size) ↔
      offset + size ≤ s.len ∧
        (offset + size ≤ s.len → (atomicPtr s offset op size).outcome.Quiet) := by
  have hfits : s.base + s.len ≤ usizeMax := s.fits
  have hpos := s.nonnull
  by_cases hin : offset + size ≤ s.len
  · have hnull : s.address offset ≠ 0 := by
      simp only [Storage.address, wrappingAdd, usizeMax] at *
      omega
    rw [if_neg hnull, answers_iff_quiet hin]
    exact ⟨fun h => ⟨hin, fun _ => h⟩, fun h => h.2 hin⟩
  · refine iff_of_false ?_ fun h => hin h.1
    split
    · exact not_answers_panicked
    · exact not_answers_of_quiet (by omega) (atomicPtr_not_bounds ..)

lemma answers_atomic (hoff : offset ≤ usizeMax) (op : AtomicOp) (size : Nat) :
    Answers o.memory (offset + size) (atomic o offset op size) ↔
      (op = .load ∨ o.origin.isCrossArenaString = false) ∧
      (o.origin.isInline = true → offset + size ≤ o.memory.len) ∧
      (offset + size ≤ o.memory.len → (atomicPtr o.memory offset op size).outcome.Quiet) := by
  have hheap : Answers o.memory (offset + size)
      (after (checkHeap o.memory offset size) o.memory (atomicPtr o.memory offset op size)) ↔
        (offset + size ≤ o.memory.len → (atomicPtr o.memory offset op size).outcome.Quiet) :=
    answers_after_checkHeap hoff
  unfold atomic
  cases horig : o.origin with
  | frameHome homes =>
    rw [answers_after_checkRange]
    simp [Origin.isCrossArenaString, Origin.isInline]
  | static | transient =>
    simp only [answers_unchecked]
    simp [Origin.isCrossArenaString, Origin.isInline]
  | heap storage | crossArenaObjectRef storage =>
    cases op with
    | load => simpa [Origin.isInline] using hheap
    | _ =>
      simp [answers_withDataMut, hheap, Origin.isInline]

end Matrix

def sampleStorage : Storage := ⟨4096, List.replicate 8 0#8, by decide, by decide⟩

def staticOwner : Owner := ⟨.static, sampleStorage, nofun⟩

end DotnetVm.RawMemory
