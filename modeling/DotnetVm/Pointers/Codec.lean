import DotnetVm.Data

/-!
# Managed pointers and their three words

A managed pointer in memory is three words: an origin handle, an offset word
and their exclusive or. The low three bits of the first word are a tag. Zero is
the untagged form, a heap object or, with a null word, an unmanaged address;
five is an object of another arena; seven carries a sub-tag above it, for
static storage, for a frame-owned block and for a transient value, which is
written but never read back.

Addresses are 64-bit words; compact offsets, static ids and registration tokens
have 32 bits.
-/

namespace DotnetVm

structure ObjectHandle where
  addr : BitVec 64
  nonnull : addr ≠ 0#64
  aligned : addr &&& 7#64 = 0#64
  deriving DecidableEq

/-- Non-reused registration token. Zero is invalid. -/
structure RegistrationToken where
  raw : BitVec 32
  nonzero : raw ≠ 0#32
  deriving DecidableEq

/-- An object of another arena, with the registration it was captured under. -/
structure CrossArenaOrigin where
  ptr : ObjectHandle
  identity : ArenaIdentity
  token : RegistrationToken
  deriving DecidableEq

/-- What a managed pointer points into; `κ` identifies the static storage of a type. -/
inductive PointerOrigin (κ : Type) where
  | heap (owner : Option ObjectHandle)
  | static (metadata : κ)
  | unmanaged
  | frameHome (serial : BitVec 64)
  | crossArenaObjectRef (origin : CrossArenaOrigin)
  | transient (obj : Nat)
  deriving DecidableEq

namespace PointerOrigin

variable {κ : Type}

def discriminant : PointerOrigin κ → Nat
  | .heap _ => 0
  | .static _ => 2
  | .unmanaged => 3
  | .crossArenaObjectRef _ => 4
  | .transient _ => 5
  | .frameHome _ => 6

/-- A null heap origin is the unmanaged one. -/
def normalize : PointerOrigin κ → PointerOrigin κ
  | .heap none => .unmanaged
  | origin => origin

def isNull : PointerOrigin κ → Bool
  | .unmanaged | .heap none => true
  | _ => false

end PointerOrigin

/-- `NonNull::new`. -/
def nonNull (addr : BitVec 64) : Option (BitVec 64) := if addr = 0#64 then none else some addr

lemma nonNull_ne_zero (addr : BitVec 64) : nonNull addr ≠ some 0#64 := by
  unfold nonNull
  split
  · simp
  next h => simpa using h

structure ManagedPtr (κ : Type) where
  value : Option (BitVec 64)
  origin : PointerOrigin κ
  offset : BitVec 32
  hasUnmanagedInlineOffset : Bool
  value_nonnull : value ≠ some 0#64
  deriving DecidableEq

/-- A managed pointer as read from memory. -/
structure ManagedPtrInfo (κ : Type) where
  address : Option (BitVec 64)
  origin : PointerOrigin κ
  offset : BitVec 64
  deriving DecidableEq

namespace ManagedPtr

variable {κ : Type}

def valueAddr (p : ManagedPtr κ) : BitVec 64 := p.value.getD 0#64

/-- `unpack_offset`. -/
def byteOffset (p : ManagedPtr κ) : BitVec 64 :=
  match p.origin with
  | .unmanaged => if p.hasUnmanagedInlineOffset then p.offset.setWidth 64 else p.valueAddr
  | _ => p.offset.setWidth 64

def packOffset (origin : PointerOrigin κ) (offset : BitVec 64) : Option (BitVec 32) :=
  match origin with
  | .unmanaged => if offset.toNat < 2 ^ 32 then some (offset.setWidth 32) else some 0#32
  | _ => if offset.toNat < 2 ^ 32 then some (offset.setWidth 32) else none

def fromInfoFull (info : ManagedPtrInfo κ) (hnonnull : info.address ≠ some 0#64) :
    Option (ManagedPtr κ) :=
  let origin :=
    if info.origin.normalize.isNull && info.offset == 0#64 && info.address.isNone then .unmanaged
    else info.origin.normalize
  (packOffset origin info.offset).map fun packed =>
    { value := info.address
      origin := origin
      offset := packed
      hasUnmanagedInlineOffset := match origin with
        | .unmanaged => packed.setWidth 64 == info.offset
        | _ => false
      value_nonnull := hnonnull }

end ManagedPtr

/-- The process-wide tables that give static storage its serialized ids. -/
structure StaticRegistry (κ : Type) where
  dedupMap : κ → Option (BitVec 32)
  registry : BitVec 32 → Option κ
  nextStaticId : BitVec 32

namespace StaticRegistry

variable {κ : Type}

def empty : StaticRegistry κ := ⟨fun _ => none, fun _ => none, 1#32⟩

/-- The id of a static origin, issued on first use. -/
def idFor [DecidableEq κ] (R : StaticRegistry κ) (metadata : κ) : BitVec 32 × StaticRegistry κ :=
  match R.dedupMap metadata with
  | some id => (id, R)
  | none =>
    (R.nextStaticId,
      { dedupMap := fun m => if m = metadata then some R.nextStaticId else R.dedupMap m
        registry := fun id => if id = R.nextStaticId then some metadata else R.registry id
        nextStaticId := R.nextStaticId + 1#32 })

end StaticRegistry

structure SerializedManagedPtrWords where
  word0 : BitVec 64
  word1 : BitVec 64
  word2 : BitVec 64
  deriving DecidableEq, Repr

def low32Bits : BitVec 64 := 0xFFFFFFFF#64
def offsetMirrorMask : BitVec 64 := 0x03FFFFFF#64

def frameHomeManagedPtrWords (serial offset : BitVec 64) : BitVec 64 × BitVec 64 :=
  (7#64 ||| (3#64 <<< 3) ||| ((serial &&& low32Bits) <<< 6) |||
    ((offset &&& offsetMirrorMask) <<< 38),
    offset ||| ((serial >>> 32) <<< 32))

namespace ManagedPtr

variable {κ : Type} [DecidableEq κ]

section

variable (p : ManagedPtr κ) (R : StaticRegistry κ)

/-- The origin handle and the offset word of a pointer. -/
def originWords : (BitVec 64 × BitVec 64) × StaticRegistry κ :=
  match p.origin with
  | .heap owner => (((owner.map ObjectHandle.addr).getD 0#64, p.byteOffset), R)
  | .static metadata =>
    let (id, R) := R.idFor metadata
    ((7#64 ||| (1#64 <<< 3) ||| ((id.setWidth 64 &&& low32Bits) <<< 6) ||| (p.byteOffset <<< 38),
      p.byteOffset), R)
  | .unmanaged => ((0#64, p.valueAddr), R)
  | .crossArenaObjectRef origin =>
    ((origin.ptr.addr ||| 5#64,
      (p.byteOffset &&& low32Bits) ||| (origin.token.raw.setWidth 64 <<< 32)), R)
  | .frameHome serial => (frameHomeManagedPtrWords serial p.byteOffset, R)
  | .transient _ => ((7#64 ||| (2#64 <<< 3) ||| (p.byteOffset <<< 6), p.byteOffset), R)

def write : SerializedManagedPtrWords × StaticRegistry κ :=
  let ((word0, word1), R) := p.originWords R
  (⟨word0, word1, word0 ^^^ word1⟩, R)

end

end ManagedPtr

inductive PointerDeserializationError where
  | unknownTag (tag : BitVec 64)
  | unknownSubtag (subtag : BitVec 64)
  | invalidStaticId (id : BitVec 32)
  | checksumMismatch
  | offsetMismatch
  | unresolvedStaticStorage
  | unresolvedCrossArenaToken (token : BitVec 32)
  | unresolvedFrameHome (serial : BitVec 64)
  deriving DecidableEq, Repr

structure HomeBlock where
  base : BitVec 64
  len : Nat
  nonnull : base ≠ 0#64
  fits : base.toNat + len < 2 ^ 64
  deriving DecidableEq

/-- What is live when a pointer is read. -/
structure LiveStorage (κ : Type) where
  /-- `try_acquire_lease_for_token`: the registration that has the token. -/
  leaseForToken : RegistrationToken → Option ArenaIdentity
  leaseForIdentity : ArenaIdentity → Bool
  rawDataPtr : ObjectHandle → BitVec 64
  staticStorageBase : κ → Option (BitVec 64)
  frameHomeBlock : BitVec 64 → Option HomeBlock
  rawDataPtr_nonnull : ∀ handle, rawDataPtr handle ≠ 0#64

def parseFrameHomeManagedPtr (word0 word1 : BitVec 64) :
    Except PointerDeserializationError (BitVec 64 × BitVec 64) :=
  let offset := word1 &&& low32Bits
  if word0 >>> 38 ≠ offset &&& offsetMirrorMask then .error .offsetMismatch
  else .ok (((word0 >>> 6) &&& low32Bits) ||| ((word1 >>> 32) <<< 32), offset)

lemma untag_aligned (word : BitVec 64) : (word &&& ~~~7#64) &&& 7#64 = 0#64 := by
  rw [BitVec.and_assoc]
  exact BitVec.and_zero

namespace ManagedPtrInfo

variable {κ : Type}

def readUntagged (word0 word1 : BitVec 64) (htag : word0 &&& 7#64 = 0#64) : ManagedPtrInfo κ :=
  if hnull : word0 = 0#64 then ⟨none, .unmanaged, word1⟩
  else ⟨none, .heap (some ⟨word0, hnull, htag⟩), word1⟩

def readCrossArena (L : LiveStorage κ) (word0 word1 : BitVec 64) :
    Except PointerDeserializationError (ManagedPtrInfo κ) :=
  let rawToken := (word1 >>> 32).setWidth 32
  if hzero : rawToken = 0#32 then .error (.unresolvedCrossArenaToken rawToken)
  else
    match L.leaseForToken ⟨rawToken, hzero⟩ with
    | none => .error (.unresolvedCrossArenaToken rawToken)
    | some identity =>
      if hnull : word0 &&& ~~~7#64 = 0#64 then .error (.unresolvedCrossArenaToken rawToken)
      else .ok ⟨none, .crossArenaObjectRef
        ⟨⟨word0 &&& ~~~7#64, hnull, untag_aligned word0⟩, identity, ⟨rawToken, hzero⟩⟩,
        word1 &&& low32Bits⟩

def readStatic (R : StaticRegistry κ) (word0 word1 : BitVec 64) :
    Except PointerDeserializationError (ManagedPtrInfo κ) :=
  let id := ((word0 >>> 6) &&& low32Bits).setWidth 32
  if word1 > low32Bits ∨ word0 >>> 38 ≠ word1 &&& offsetMirrorMask then .error .offsetMismatch
  else
    match R.registry id with
    | none => .error (.invalidStaticId id)
    | some metadata => .ok ⟨none, .static metadata, word1⟩

def readFrameHome (word0 word1 : BitVec 64) :
    Except PointerDeserializationError (ManagedPtrInfo κ) := do
  let (serial, offset) ← parseFrameHomeManagedPtr word0 word1
  .ok ⟨none, .frameHome serial, offset⟩

section

variable (R : StaticRegistry κ) (L : LiveStorage κ) (words : SerializedManagedPtrWords)

/-- `read_metadata_unchecked`: origin and offset, without an address. -/
def readMetadata : Except PointerDeserializationError (ManagedPtrInfo κ) :=
  let ⟨word0, word1, word2⟩ := words
  if word2 ≠ word0 ^^^ word1 then .error .checksumMismatch
  else if word0 &&& 7#64 = 1#64 then .error (.unknownSubtag 1#64)
  else if word0 &&& 7#64 = 5#64 then readCrossArena L word0 word1
  else if word0 &&& 7#64 = 7#64 then
    let subtag := (word0 >>> 3) &&& 7#64
    if subtag = 1#64 then readStatic R word0 word1
    else if subtag = 2#64 then .error (.unknownSubtag 2#64)
    else if subtag = 3#64 then readFrameHome word0 word1
    else .error (.unknownSubtag subtag)
  else if htag : word0 &&& 7#64 = 0#64 then .ok (readUntagged word0 word1 htag)
  else .error (.unknownTag (word0 &&& 7#64))

/-- `frame_home_window` for an access of no bytes. -/
def frameHomeWindow (block : HomeBlock) (offset : BitVec 64) : Option (BitVec 64) :=
  if offset.toNat > block.len then none else some (block.base + offset)

/-- The executable address of decoded metadata. -/
def resolveMetadata (L : LiveStorage κ) (info : ManagedPtrInfo κ) :
    Except PointerDeserializationError (ManagedPtrInfo κ) :=
  match info.origin with
  | .static metadata =>
    match (L.staticStorageBase metadata).bind fun base => nonNull (base + info.offset) with
    | some address => .ok { info with address := some address }
    | none => .error .unresolvedStaticStorage
  | .frameHome serial =>
    match (L.frameHomeBlock serial).bind fun block => frameHomeWindow block info.offset with
    | some address => .ok { info with address := some address }
    | none => .error (.unresolvedFrameHome serial)
  | .heap owner =>
    .ok { info with
      address := owner.bind fun handle => nonNull (L.rawDataPtr handle + info.offset) }
  | .unmanaged => .ok { info with address := nonNull info.offset }
  | .crossArenaObjectRef origin =>
    if L.leaseForIdentity origin.identity then
      .ok { info with address := nonNull (L.rawDataPtr origin.ptr + info.offset) }
    else .error (.unknownTag 5#64)
  -- no metadata read has this origin
  | .transient _ => .error (.unknownSubtag 2#64)

/-- `read_resolved_unchecked`. -/
def readResolved :
    Except PointerDeserializationError (ManagedPtrInfo κ) := do
  let info ← readMetadata R L words
  resolveMetadata L info

end

end ManagedPtrInfo

def ManagedPtr.observeAddress {κ : Type} (L : LiveStorage κ) (p : ManagedPtr κ) :
    Option (BitVec 64) :=
  match p.origin with
  | .heap owner => owner.bind fun handle => nonNull (L.rawDataPtr handle + p.byteOffset)
  | .crossArenaObjectRef origin =>
    if L.leaseForIdentity origin.identity then nonNull (L.rawDataPtr origin.ptr + p.byteOffset)
    else none
  | _ => p.value

end DotnetVm
