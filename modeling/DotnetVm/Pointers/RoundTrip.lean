import DotnetVm.Lib.Bits
import DotnetVm.Lib.Runs
import DotnetVm.Pointers.Codec

/-!
# Reading a managed pointer back

The words written for a pointer carry its origin and offset in disjoint bit
ranges, and the tags keep the kinds of origin apart. An unmanaged pointer has
no origin to be relative to: its offset word is the absolute address, whatever
offset it had. A byref into a frame-owned block resolves only inside the block.
-/

namespace DotnetVm

open BitFields ManagedPtr Runs

lemma toNat_and_7 (x : BitVec 64) : (x &&& 7#64).toNat = x.toNat % 8 :=
  toNat_and_mask (n := 3) (by decide)

lemma toNat_and_low32Bits (x : BitVec 64) : (x &&& low32Bits).toNat = x.toNat % 2 ^ 32 :=
  toNat_and_mask (n := 32) (by decide)

lemma toNat_and_offsetMirrorMask (x : BitVec 64) :
    (x &&& offsetMirrorMask).toNat = x.toNat % 2 ^ 26 :=
  toNat_and_mask (n := 26) (by decide)

lemma toNat_setWidth_offset (offset : BitVec 32) : (offset.setWidth 64).toNat = offset.toNat := by
  rw [BitVec.toNat_setWidth]
  omega

/-- The first word of static and frame-home pointers: tag and sub-tag, a 32-bit field, and above
it as much of the offset as fits. -/
def taggedWord (subtag field mirror : BitVec 64) : BitVec 64 :=
  7#64 ||| (subtag <<< 3) ||| (field <<< 6) ||| (mirror <<< 38)

section Tagged

variable {subtag field mirror : BitVec 64}

variable (hsubtag : subtag.toNat < 8) (hfield : field.toNat < 2 ^ 32)
include hsubtag hfield

lemma taggedWord_toNat :
    (taggedWord subtag field mirror).toNat =
      7 + subtag.toNat * 8 + field.toNat * 64 + (mirror.toNat % 2 ^ 26) * 2 ^ 38 := by
  have htag : (7#64 ||| (subtag <<< 3)).toNat = 7 + subtag.toNat * 8 := by
    rw [toNat_or_shiftLeft (by decide) (by decide), show (7#64).toNat = 7 from rfl]
    omega
  have hlow : (7#64 ||| (subtag <<< 3) ||| (field <<< 6)).toNat =
      7 + subtag.toNat * 8 + field.toNat * 64 := by
    rw [toNat_or_shiftLeft (by decide) (by omega)]
    omega
  rw [taggedWord, toNat_or_shiftLeft (by decide) (by omega), hlow]

lemma taggedWord_tag : taggedWord subtag field mirror &&& 7#64 = 7#64 := by
  apply BitVec.eq_of_toNat_eq
  rw [toNat_and_7, taggedWord_toNat hsubtag hfield, show (7#64).toNat = 7 from rfl]
  omega

lemma taggedWord_subtag : (taggedWord subtag field mirror >>> 3) &&& 7#64 = subtag := by
  apply BitVec.eq_of_toNat_eq
  rw [toNat_and_7, toNat_shiftRight, taggedWord_toNat hsubtag hfield]
  omega

lemma taggedWord_field : (taggedWord subtag field mirror >>> 6) &&& low32Bits = field := by
  apply BitVec.eq_of_toNat_eq
  rw [toNat_and_low32Bits, toNat_shiftRight, taggedWord_toNat hsubtag hfield]
  omega

lemma taggedWord_mirror : taggedWord subtag field mirror >>> 38 = mirror &&& offsetMirrorMask := by
  apply BitVec.eq_of_toNat_eq
  rw [toNat_and_offsetMirrorMask, toNat_shiftRight, taggedWord_toNat hsubtag hfield]
  omega

end Tagged

lemma taggedWord_masked (subtag field mirror : BitVec 64) (hsubtag : subtag.toNat < 8)
    (hfield : field.toNat < 2 ^ 32) :
    taggedWord subtag field (mirror &&& offsetMirrorMask) = taggedWord subtag field mirror := by
  apply BitVec.eq_of_toNat_eq
  rw [taggedWord_toNat hsubtag hfield, taggedWord_toNat hsubtag hfield, toNat_and_offsetMirrorMask]
  omega

lemma transientWord_tags (offset : BitVec 64) :
    (7#64 ||| (2#64 <<< 3) ||| (offset <<< 6)) &&& 7#64 = 7#64 ∧
      ((7#64 ||| (2#64 <<< 3) ||| (offset <<< 6)) >>> 3) &&& 7#64 = 2#64 := by
  have hword : (7#64 ||| (2#64 <<< 3) ||| (offset <<< 6)).toNat =
      23 + (offset.toNat % 2 ^ 58) * 64 := by
    rw [toNat_or_shiftLeft (by decide) (by decide)]
    rfl
  constructor <;> apply BitVec.eq_of_toNat_eq
  · rw [toNat_and_7, show (7#64).toNat = 7 from rfl]
    omega
  · rw [toNat_and_7, toNat_shiftRight, show (2#64).toNat = 2 from rfl]
    omega

variable {offset high : BitVec 64}

section

variable (hoffset : offset.toNat < 2 ^ 32) (hhigh : high.toNat < 2 ^ 32)
include hoffset hhigh

lemma stackedWord_toNat :
    (offset ||| (high <<< 32)).toNat = offset.toNat + high.toNat * 2 ^ 32 := by
  rw [toNat_or_shiftLeft (by decide) hoffset, Nat.mod_eq_of_lt hhigh]

lemma stackedWord_low : (offset ||| (high <<< 32)) &&& low32Bits = offset := by
  apply BitVec.eq_of_toNat_eq
  rw [toNat_and_low32Bits, stackedWord_toNat hoffset hhigh]
  omega

lemma stackedWord_high : (offset ||| (high <<< 32)) >>> 32 = high := by
  apply BitVec.eq_of_toNat_eq
  rw [toNat_shiftRight, stackedWord_toNat hoffset hhigh]
  omega

end

lemma halves_or (x : BitVec 64) : (x &&& low32Bits) ||| ((x >>> 32) <<< 32) = x := by
  apply BitVec.eq_of_toNat_eq
  have hlow : (x &&& low32Bits).toNat < 2 ^ 32 := by
    rw [toNat_and_low32Bits]
    omega
  have hhigh : (x >>> 32).toNat < 2 ^ 32 := by
    rw [toNat_shiftRight]
    omega
  rw [stackedWord_toNat hlow hhigh, toNat_and_low32Bits, toNat_shiftRight]
  omega

lemma handle_tag (handle : ObjectHandle) : (handle.addr ||| 5#64) &&& 7#64 = 5#64 := by
  rw [BitVec.and_or_distrib_right, handle.aligned]
  rfl

lemma handle_untag (handle : ObjectHandle) : (handle.addr ||| 5#64) &&& ~~~7#64 = handle.addr := by
  have hspl : handle.addr &&& ~~~7#64 = handle.addr := by
    have hall : handle.addr &&& (7#64 ||| ~~~7#64) = handle.addr := by
      rw [show 7#64 ||| ~~~7#64 = BitVec.allOnes 64 from by decide, BitVec.and_allOnes]
    rw [BitVec.and_or_distrib_left, handle.aligned] at hall
    exact BitVec.zero_or.symm.trans hall
  rw [BitVec.and_or_distrib_right, hspl, show 5#64 &&& ~~~7#64 = 0#64 from by decide,
    BitVec.or_zero]

namespace StaticRegistry

variable {κ : Type} [DecidableEq κ]

/-- One more id can be issued without wrapping around. -/
def HasRoom (R : StaticRegistry κ) : Prop := R.nextStaticId.toNat + 1 < 2 ^ 32

/-- Every id handed out names what it was handed out for. -/
structure Sound (R : StaticRegistry κ) : Prop where
  names : ∀ m id, R.dedupMap m = some id → R.registry id = some m
  issued : ∀ id m, R.registry id = some m → id.toNat < R.nextStaticId.toNat

omit [DecidableEq κ] in
lemma sound_empty : Sound (empty : StaticRegistry κ) where
  names := fun _ _ h => by cases h
  issued := nofun

def Extends (R R' : StaticRegistry κ) : Prop :=
  ∀ id m, R.registry id = some m → R'.registry id = some m

variable {R : StaticRegistry κ}

lemma idFor_registered (h : Sound R) (m : κ) : (R.idFor m).2.registry (R.idFor m).1 = some m := by
  unfold idFor
  split
  · rename_i id hid
    exact h.names m id hid
  · simp

lemma Sound.idFor_extends (h : Sound R) (m : κ) : Extends R (R.idFor m).2 := by
  intro id m' hid
  unfold idFor
  split
  · exact hid
  · have hne : id ≠ R.nextStaticId := by
      rintro rfl
      exact absurd (h.issued _ _ hid) (lt_irrefl _)
    simpa [hne] using hid

lemma Sound.idFor (h : Sound R) (hroom : R.HasRoom) (m : κ) : Sound (R.idFor m).2 := by
  have hext := h.idFor_extends m
  unfold StaticRegistry.idFor at hext ⊢
  split at hext
  · exact h
  · have hnext : (R.nextStaticId + 1#32).toNat = R.nextStaticId.toNat + 1 := by
      exact Nat.mod_eq_of_lt hroom
    constructor
    · intro m' id hid
      dsimp only at hid ⊢
      split at hid
      · rename_i heq
        cases hid
        simp [heq]
      · exact hext id m' (h.names m' id hid)
    · intro id m' hid
      dsimp only at hid ⊢
      split at hid
      · rename_i heq
        rw [heq]
        omega
      · have := h.issued id m' hid
        omega

end StaticRegistry

/-- The registry after a pointer was written. -/
def registryStep {κ : Type} [DecidableEq κ] (R : StaticRegistry κ) (p : ManagedPtr κ) :
    Option (StaticRegistry κ) :=
  some (p.write R).2

section Registry

variable {κ : Type} [DecidableEq κ] {R R' : StaticRegistry κ}

lemma write_registry (p : ManagedPtr κ) (R : StaticRegistry κ) :
    (p.write R).2 = R ∨ ∃ m, (p.write R).2 = (R.idFor m).2 := by
  obtain ⟨value, origin, offset, inline, hval⟩ := p
  cases origin with
  | static m => exact .inr ⟨m, rfl⟩
  | _ => exact .inl rfl

/-- Writing pointers keeps the registry sound and forgets no id. -/
lemma registry_of_run (hR : R.Sound)
    (h : Run registryStep (fun R (_ : ManagedPtr κ) => R.HasRoom) R R') :
    R'.Sound ∧ R.Extends R' := by
  refine h.invariant (I := fun R' => R'.Sound ∧ R.Extends R') ?_ ⟨hR, fun _ _ h => h⟩
  rintro S p S' ⟨hS, hext⟩ hroom hst
  cases hst
  rcases write_registry p S with heq | ⟨m, heq⟩ <;> rw [heq]
  · exact ⟨hS, hext⟩
  · exact ⟨hS.idFor hroom m, fun id m' hid => hS.idFor_extends m id m' (hext id m' hid)⟩

end Registry

section Reading

variable {κ : Type} [DecidableEq κ] {R : StaticRegistry κ} {L : LiveStorage κ}
  {word0 word1 : BitVec 64}

open ManagedPtrInfo

omit [DecidableEq κ] in
lemma readMetadata_untagged (htag : word0 &&& 7#64 = 0#64) :
    readMetadata R L ⟨word0, word1, word0 ^^^ word1⟩ = .ok (readUntagged word0 word1 htag) := by
  simp [readMetadata, htag]

omit [DecidableEq κ] in
lemma readMetadata_crossArena (htag : word0 &&& 7#64 = 5#64) :
    readMetadata R L ⟨word0, word1, word0 ^^^ word1⟩ = readCrossArena L word0 word1 := by
  simp [readMetadata, htag]

omit [DecidableEq κ] in
lemma readMetadata_reserved (htag : word0 &&& 7#64 = 7#64) :
    readMetadata R L ⟨word0, word1, word0 ^^^ word1⟩ =
      if (word0 >>> 3) &&& 7#64 = 1#64 then readStatic R word0 word1
      else if (word0 >>> 3) &&& 7#64 = 3#64 then readFrameHome word0 word1
      else .error (.unknownSubtag ((word0 >>> 3) &&& 7#64)) := by
  by_cases hsub : (word0 >>> 3) &&& 7#64 = 2#64 <;> simp [readMetadata, htag, hsub]

end Reading

section RoundTrip

variable {κ : Type} [DecidableEq κ] {R R' : StaticRegistry κ} {L : LiveStorage κ}
  {p : ManagedPtr κ}

open ManagedPtrInfo

def ManagedPtr.restoredOffset (p : ManagedPtr κ) : BitVec 64 :=
  match p.origin with
  | .unmanaged => p.valueAddr
  | _ => p.byteOffset

omit [DecidableEq κ] in
lemma byteOffset_toNat_lt (hman : p.origin ≠ .unmanaged) : p.byteOffset.toNat < 2 ^ 32 := by
  unfold byteOffset
  split
  · contradiction
  · rw [toNat_setWidth_offset]
    exact p.offset.isLt

lemma readMetadata_write_heap {owner : Option ObjectHandle} (hp : p.origin = .heap owner) :
    readMetadata R' L (p.write R).1 =
      .ok ⟨none, (PointerOrigin.heap owner).normalize, p.byteOffset⟩ := by
  have hws : (p.write R).1 = ⟨(owner.map ObjectHandle.addr).getD 0#64, p.byteOffset,
      (owner.map ObjectHandle.addr).getD 0#64 ^^^ p.byteOffset⟩ := by
    simp only [ManagedPtr.write, originWords, hp]
  rw [hws]
  cases owner with
  | none =>
    rw [readMetadata_untagged (by rfl)]
    rfl
  | some handle =>
    simp only [Option.map_some, Option.getD_some]
    rw [readMetadata_untagged handle.aligned, readUntagged, dif_neg handle.nonnull]
    rfl

lemma readMetadata_write_unmanaged (hp : p.origin = .unmanaged) :
    readMetadata R' L (p.write R).1 = .ok ⟨none, .unmanaged, p.valueAddr⟩ := by
  have hws : (p.write R).1 = ⟨0#64, p.valueAddr, 0#64 ^^^ p.valueAddr⟩ := by
    simp only [ManagedPtr.write, originWords, hp]
  rw [hws, readMetadata_untagged (by rfl)]
  rfl

lemma readMetadata_write_static {m : κ} (hp : p.origin = .static m) :
    readMetadata R' L (p.write R).1 =
      match R'.registry (R.idFor m).1 with
      | none => .error (.invalidStaticId (R.idFor m).1)
      | some metadata => .ok ⟨none, .static metadata, p.byteOffset⟩ := by
  have hoffset := byteOffset_toNat_lt (p := p) (by simp [hp])
  have hsub : (1#64).toNat < 8 := by decide
  have hfield : ((R.idFor m).1.setWidth 64 &&& low32Bits).toNat < 2 ^ 32 := by
    rw [toNat_and_low32Bits]
    omega
  have hws : (p.write R).1 = ⟨taggedWord 1#64 ((R.idFor m).1.setWidth 64 &&& low32Bits)
      p.byteOffset, p.byteOffset, taggedWord 1#64 ((R.idFor m).1.setWidth 64 &&& low32Bits)
      p.byteOffset ^^^ p.byteOffset⟩ := by
    simp only [ManagedPtr.write, originWords, hp]
    rfl
  have hid : ((R.idFor m).1.setWidth 64 &&& low32Bits).setWidth 32 = (R.idFor m).1 := by
    apply BitVec.eq_of_toNat_eq
    rw [BitVec.toNat_setWidth, toNat_and_low32Bits, toNat_setWidth_offset]
    omega
  have hsmall : ¬ p.byteOffset > low32Bits := by
    rw [gt_iff_lt, BitVec.lt_def, show low32Bits.toNat = 2 ^ 32 - 1 from rfl]
    omega
  rw [hws, readMetadata_reserved (taggedWord_tag hsub hfield), taggedWord_subtag hsub hfield]
  simp only [readStatic, taggedWord_field hsub hfield, taggedWord_mirror hsub hfield, hid, hsmall,
    ne_eq]
  rfl

lemma readMetadata_write_frameHome {serial : BitVec 64} (hp : p.origin = .frameHome serial) :
    readMetadata R' L (p.write R).1 = .ok ⟨none, .frameHome serial, p.byteOffset⟩ := by
  have hoffset := byteOffset_toNat_lt (p := p) (by simp [hp])
  have hsub : (3#64).toNat < 8 := by decide
  have hfield : (serial &&& low32Bits).toNat < 2 ^ 32 := by
    rw [toNat_and_low32Bits]
    omega
  have hhigh : (serial >>> 32).toNat < 2 ^ 32 := by
    rw [toNat_shiftRight]
    omega
  have hws : (p.write R).1 = ⟨taggedWord 3#64 (serial &&& low32Bits) p.byteOffset,
      p.byteOffset ||| ((serial >>> 32) <<< 32), taggedWord 3#64 (serial &&& low32Bits)
        p.byteOffset ^^^ (p.byteOffset ||| ((serial >>> 32) <<< 32))⟩ := by
    rw [← taggedWord_masked 3#64 _ p.byteOffset hsub hfield]
    simp only [ManagedPtr.write, originWords, hp]
    rfl
  rw [hws, readMetadata_reserved (taggedWord_tag hsub hfield), taggedWord_subtag hsub hfield]
  simp only [readFrameHome, parseFrameHomeManagedPtr, stackedWord_low hoffset hhigh,
    stackedWord_high hoffset hhigh, taggedWord_field hsub hfield, taggedWord_mirror hsub hfield,
    halves_or, ne_eq]
  rfl

lemma readMetadata_write_crossArena {origin : CrossArenaOrigin}
    (hp : p.origin = .crossArenaObjectRef origin) :
    readMetadata R' L (p.write R).1 =
      match L.leaseForToken origin.token with
      | none => .error (.unresolvedCrossArenaToken origin.token.raw)
      | some identity =>
        .ok ⟨none, .crossArenaObjectRef { origin with identity := identity }, p.byteOffset⟩ := by
  have hoffset := byteOffset_toNat_lt (p := p) (by simp [hp])
  have hmask : p.byteOffset &&& low32Bits = p.byteOffset := by
    apply BitVec.eq_of_toNat_eq
    rw [toNat_and_low32Bits, Nat.mod_eq_of_lt hoffset]
  have hhigh : (origin.token.raw.setWidth 64).toNat < 2 ^ 32 := by
    exact origin.token.raw.isLt
  have hws : (p.write R).1 = ⟨origin.ptr.addr ||| 5#64,
      p.byteOffset ||| (origin.token.raw.setWidth 64 <<< 32),
      (origin.ptr.addr ||| 5#64) ^^^ (p.byteOffset ||| (origin.token.raw.setWidth 64 <<< 32))⟩ := by
    simp only [ManagedPtr.write, originWords, hp, hmask]
  have htoken : (origin.token.raw.setWidth 64).setWidth 32 = origin.token.raw := by
    apply BitVec.eq_of_toNat_eq
    rw [BitVec.toNat_setWidth, toNat_setWidth_offset]
    omega
  rw [hws, readMetadata_crossArena (handle_tag origin.ptr)]
  simp only [readCrossArena, stackedWord_high hoffset hhigh, stackedWord_low hoffset hhigh, htoken,
    handle_untag]
  rw [dif_neg origin.token.nonzero]
  split
  · rename_i hlease
    rw [hlease]
  · rename_i identity hlease
    rw [hlease, dif_neg origin.ptr.nonnull]

lemma readMetadata_write_transient {obj : Nat} (hp : p.origin = .transient obj) :
    readMetadata R' L (p.write R).1 = .error (.unknownSubtag 2#64) := by
  have hws : (p.write R).1 = ⟨7#64 ||| (2#64 <<< 3) ||| (p.byteOffset <<< 6), p.byteOffset,
      (7#64 ||| (2#64 <<< 3) ||| (p.byteOffset <<< 6)) ^^^ p.byteOffset⟩ := by
    simp only [ManagedPtr.write, originWords, hp]
  obtain ⟨htag, hsubtag⟩ := transientWord_tags p.byteOffset
  rw [hws, readMetadata_reserved htag, hsubtag, if_neg (by decide), if_neg (by decide)]

section

variable (L : LiveStorage κ) (p : ManagedPtr κ)

def ManagedPtr.Live : Prop :=
  match p.origin with
  | .heap none => p.offset = 0#32
  | .heap (some _) | .unmanaged => True
  | .static m => ∃ base, L.staticStorageBase m = some base ∧ p.value = some (base + p.byteOffset)
  | .frameHome serial =>
    ∃ block, L.frameHomeBlock serial = some block ∧ p.value = some (block.base + p.byteOffset)
  | .crossArenaObjectRef origin =>
    L.leaseForToken origin.token = some origin.identity ∧ L.leaseForIdentity origin.identity = true
  | .transient _ => False

/-- A byref into a frame-owned block does not point beyond the end of the block. -/
def ManagedPtr.InBlock : Prop :=
  ∀ serial block, p.origin = .frameHome serial → L.frameHomeBlock serial = some block →
    p.byteOffset.toNat ≤ block.len

end

omit [DecidableEq κ] in
lemma nonNull_of_ne {addr : BitVec 64} (h : addr ≠ 0#64) : nonNull addr = some addr :=
  if_neg h

omit [DecidableEq κ] in
lemma nonNull_valueAddr (p : ManagedPtr κ) : nonNull p.valueAddr = p.value := by
  cases hval : p.value with
  | none => simp [valueAddr, hval, nonNull]
  | some addr =>
    have hne : addr ≠ 0#64 := fun h => p.value_nonnull (h ▸ hval)
    simp [valueAddr, hval, nonNull, hne]

lemma readResolved_write (hsound : R.Sound) (hlater : (p.write R).2.Extends R')
    (hlive : p.Live L) (hblk : p.InBlock L) :
    readResolved R' L (p.write R).1 =
      .ok ⟨p.observeAddress L, p.origin.normalize, p.restoredOffset⟩ := by
  cases hp : p.origin with
  | heap owner =>
    have hread : readMetadata R' L (p.write R).1 = _ := readMetadata_write_heap hp
    simp only [readResolved, hread, observeAddress, restoredOffset, hp]
    cases owner with
    | some handle => rfl
    | none =>
      have hz : p.byteOffset = 0#64 := by
        simp only [ManagedPtr.Live, hp] at hlive
        simp [byteOffset, hp, hlive]
      rw [hz]
      rfl
  | static m =>
    obtain ⟨base, hbase, hval⟩ : ∃ base, L.staticStorageBase m = some base ∧
        p.value = some (base + p.byteOffset) := by simpa only [ManagedPtr.Live, hp] using hlive
    have hreg : R'.registry (R.idFor m).1 = some m := by
      refine hlater _ _ ?_
      have hwrite : (p.write R).2 = (R.idFor m).2 := by
        simp only [ManagedPtr.write, originWords, hp]
      rw [hwrite]
      exact StaticRegistry.idFor_registered hsound m
    have hne : base + p.byteOffset ≠ 0#64 := fun h => p.value_nonnull (h ▸ hval)
    have hread : readMetadata R' L (p.write R).1 = _ := readMetadata_write_static hp
    rw [hreg] at hread
    simp only [readResolved, hread, observeAddress, restoredOffset, hp]
    simp only [bind, Except.bind, resolveMetadata, hbase, Option.bind_some, nonNull_of_ne hne, hval]
    rfl
  | unmanaged =>
    have hread : readMetadata R' L (p.write R).1 = _ := readMetadata_write_unmanaged hp
    simp only [readResolved, hread, observeAddress, restoredOffset, hp]
    simp only [bind, Except.bind, resolveMetadata, nonNull_valueAddr]
    rfl
  | frameHome serial =>
    obtain ⟨block, hhome, hval⟩ : ∃ block, L.frameHomeBlock serial = some block ∧
        p.value = some (block.base + p.byteOffset) := by
      simpa only [ManagedPtr.Live, hp] using hlive
    have hin : ¬ p.byteOffset.toNat > block.len := not_lt.mpr (hblk serial block hp hhome)
    have hread : readMetadata R' L (p.write R).1 = _ := readMetadata_write_frameHome hp
    simp only [readResolved, hread, observeAddress, restoredOffset, hp]
    simp only [bind, Except.bind, resolveMetadata, hhome, Option.bind_some, frameHomeWindow,
      if_neg hin, hval]
    rfl
  | crossArenaObjectRef origin =>
    obtain ⟨htoken, hidentity⟩ : L.leaseForToken origin.token = some origin.identity ∧
        L.leaseForIdentity origin.identity = true := by
      simpa only [ManagedPtr.Live, hp] using hlive
    have hread : readMetadata R' L (p.write R).1 = _ := readMetadata_write_crossArena hp
    rw [htoken] at hread
    simp only [readResolved, hread, observeAddress, restoredOffset, hp]
    simp only [bind, Except.bind, resolveMetadata, hidentity]
    rfl
  | transient obj =>
    simp only [ManagedPtr.Live, hp] at hlive

lemma readMetadata_write_kind {info : ManagedPtrInfo κ}
    (hread : readMetadata R' L (p.write R).1 = .ok info) :
    info.origin.discriminant = p.origin.normalize.discriminant := by
  cases hp : p.origin with
  | heap owner =>
    rw [readMetadata_write_heap hp] at hread
    cases hread
    rfl
  | static m =>
    rw [readMetadata_write_static hp] at hread
    split at hread <;> cases hread
    rfl
  | unmanaged =>
    rw [readMetadata_write_unmanaged hp] at hread
    cases hread
    rfl
  | frameHome serial =>
    rw [readMetadata_write_frameHome hp] at hread
    cases hread
    rfl
  | crossArenaObjectRef origin =>
    rw [readMetadata_write_crossArena hp] at hread
    split at hread <;> cases hread
    rfl
  | transient obj =>
    rw [readMetadata_write_transient hp] at hread
    cases hread

omit [DecidableEq κ] in
lemma normalize_normalize (origin : PointerOrigin κ) :
    origin.normalize.normalize = origin.normalize := by
  cases origin with
  | heap owner => cases owner <;> rfl
  | _ => rfl

omit [DecidableEq κ] in
lemma isNull_normalize (origin : PointerOrigin κ) :
    origin.normalize.isNull = true ↔ origin.normalize = .unmanaged := by
  cases origin with
  | heap owner => cases owner <;> simp [PointerOrigin.normalize, PointerOrigin.isNull]
  | _ => simp [PointerOrigin.normalize, PointerOrigin.isNull]

lemma setWidth_compact (h : offset.toNat < 2 ^ 32) : (offset.setWidth 32).setWidth 64 = offset := by
  apply BitVec.eq_of_toNat_eq
  rw [toNat_setWidth_offset, BitVec.toNat_setWidth, Nat.mod_eq_of_lt h]

omit [DecidableEq κ] in
lemma fromInfoFull_restores (info : ManagedPtrInfo κ) (hnn : info.address ≠ some 0#64)
    (hcompact : info.origin.normalize ≠ .unmanaged → info.offset.toNat < 2 ^ 32)
    (haddress : info.origin.normalize = .unmanaged → info.address = nonNull info.offset) :
    ∃ q, fromInfoFull info hnn = some q ∧ q.origin = info.origin.normalize ∧
      q.byteOffset = info.offset ∧ q.value = info.address := by
  have horig : (if info.origin.normalize.isNull && info.offset == 0#64 && info.address.isNone
      then PointerOrigin.unmanaged else info.origin.normalize) = info.origin.normalize := by
    split
    · rename_i h
      simp only [Bool.and_eq_true] at h
      exact ((isNull_normalize info.origin).mp h.1.1).symm
    · rfl
  simp only [fromInfoFull, horig]
  by_cases hunm : info.origin.normalize = .unmanaged
  · simp only [hunm, packOffset]
    by_cases hsmall : info.offset.toNat < 2 ^ 32
    · simp only [if_pos hsmall, Option.map_some]
      exact ⟨_, rfl, rfl, by simp [byteOffset, setWidth_compact hsmall], rfl⟩
    · have hz : info.offset ≠ 0#64 := by
        rintro heq
        rw [heq] at hsmall
        exact hsmall (by decide)
      have hval : info.address.getD 0#64 = info.offset := by
        rw [haddress hunm, nonNull_of_ne hz]
        rfl
      simp only [if_neg hsmall, Option.map_some]
      exact ⟨_, rfl, rfl, by simp [byteOffset, valueAddr, hval], rfl⟩
  · have hsmall := hcompact hunm
    have hpack : packOffset info.origin.normalize info.offset =
        some (info.offset.setWidth 32) := by
      unfold packOffset
      split
      · contradiction
      · rw [if_pos hsmall]
    rw [hpack]
    refine ⟨_, rfl, rfl, ?_, rfl⟩
    unfold byteOffset
    split
    · contradiction
    · exact setWidth_compact hsmall

abbrev Written (R R' : StaticRegistry κ) : Prop :=
  Run registryStep (fun R (_ : ManagedPtr κ) => R.HasRoom) R R'

/-- Whenever the words of a pointer are read back while its origin is live, the pointer made from
them has the same origin and the same address; the offset too, except that an unmanaged pointer gets
its absolute address, and a frame-home byref comes back only from inside its block. Words of one
kind are never read as another, and those of a transient origin never at all. -/
theorem written_pointer_reads_back (p : ManagedPtr κ) (hR : Written .empty R) (hroom : R.HasRoom) :
    (∀ L R', Written (p.write R).2 R' → p.Live L → p.InBlock L →
      ∃ info q, readResolved R' L (p.write R).1 = .ok info ∧
        (∃ hnonnull, fromInfoFull info hnonnull = some q) ∧
        q.origin = p.origin.normalize ∧ q.byteOffset = p.restoredOffset ∧
        q.value = p.observeAddress L) ∧
    (∀ (R' : StaticRegistry κ) L info, readMetadata R' L (p.write R).1 = .ok info →
      info.origin.discriminant = p.origin.normalize.discriminant) ∧
    (∀ obj, p.origin = .transient obj → ∀ (R' : StaticRegistry κ) L,
      readMetadata R' L (p.write R).1 = .error (.unknownSubtag 2#64)) := by
  have hsound := (registry_of_run StaticRegistry.sound_empty hR).1
  refine ⟨fun L R' hlater hlive hblk => ?_, fun R' L info => readMetadata_write_kind,
    fun obj hp R' L => readMetadata_write_transient hp⟩
  have hwrite : (p.write R).2.Sound :=
    (registry_of_run hsound (Run.refl.tail hroom rfl)).1
  have hread := readResolved_write hsound (registry_of_run hwrite hlater).2 hlive hblk
  have hnonnull : p.observeAddress L ≠ some 0#64 := by
    unfold observeAddress
    split
    · rename_i owner _
      cases owner with
      | none => exact nofun
      | some handle => exact nonNull_ne_zero _
    · split
      · exact nonNull_ne_zero _
      · exact nofun
    · exact p.value_nonnull
  obtain ⟨q, hq, horig, hoffset, hval⟩ := fromInfoFull_restores
    ⟨p.observeAddress L, p.origin.normalize, p.restoredOffset⟩ hnonnull
    (fun hne => by
      have hman : p.origin ≠ .unmanaged := by
        intro heq
        rw [heq] at hne
        exact hne rfl
      have : p.restoredOffset = p.byteOffset := by
        unfold restoredOffset
        split
        · contradiction
        · rfl
      rw [this]
      exact byteOffset_toNat_lt hman)
    (fun heq => by
      cases hp : p.origin with
      | unmanaged =>
        simp only [observeAddress, restoredOffset, hp, nonNull_valueAddr]
      | heap owner =>
        cases owner with
        | none =>
          simp only [ManagedPtr.Live, hp] at hlive
          simp [observeAddress, restoredOffset, byteOffset, hp,
            hlive, nonNull]
        | some handle =>
          rw [hp] at heq
          cases heq
      | _ =>
        rw [hp] at heq
        cases heq)
  exact ⟨_, q, hread, ⟨hnonnull, hq⟩, horig.trans (normalize_normalize _), hoffset, hval⟩

end RoundTrip

/-- One live frame whose home block has eight bytes. -/
def oneFrame : LiveStorage Unit where
  leaseForToken _ := none
  leaseForIdentity _ := false
  rawDataPtr _ := 0x2000#64
  staticStorageBase _ := some 0x3000#64
  frameHomeBlock serial :=
    if serial = 1#64 then some ⟨0x1000#64, 8, by decide, by decide⟩ else none
  rawDataPtr_nonnull _ := by decide

def frameByref (offset : BitVec 32) (h : 0x1000#64 + offset.setWidth 64 ≠ 0#64) : ManagedPtr Unit :=
  ⟨some (0x1000#64 + offset.setWidth 64), .frameHome 1#64, offset, false,
    fun heq => h (Option.some.inj heq)⟩

theorem frameByref_reads_back : ∃ info q, ManagedPtrInfo.readResolved .empty oneFrame
        ((frameByref 4#32 (by decide)).write .empty).1 = .ok info ∧
      (∃ hnonnull, fromInfoFull info hnonnull = some q) ∧
      q.origin = .frameHome 1#64 ∧ q.byteOffset = 4#64 ∧ q.value = some 0x1004#64 := by
  have hback := (written_pointer_reads_back (frameByref 4#32 (by decide)) Run.refl
    (show (1#32).toNat + 1 < 2 ^ 32 by decide)).1 oneFrame .empty Run.refl
    ⟨⟨0x1000#64, 8, by decide, by decide⟩, rfl, rfl⟩
  refine hback fun serial block hser hhome => ?_
  cases hser
  cases hhome
  decide

/-- An unmanaged pointer with an offset of its own comes back with the address in its place, and a
byref beyond the end of its frame's block does not come back. -/
theorem offset_or_byref_not_restored : (∃ p : ManagedPtr Unit, p.Live oneFrame ∧ ∃ info,
      ManagedPtrInfo.readResolved .empty oneFrame (p.write .empty).1 = .ok info ∧
        info.offset ≠ p.byteOffset) ∧
    (∃ p : ManagedPtr Unit, p.Live oneFrame ∧
      ManagedPtrInfo.readResolved .empty oneFrame (p.write .empty).1 =
        .error (.unresolvedFrameHome 1#64)) := by
  constructor
  · exact ⟨⟨some 0x1000#64, .unmanaged, 8#32, true, by decide⟩, True.intro, _, rfl, by decide⟩
  · exact ⟨frameByref 16#32 (by decide), ⟨⟨0x1000#64, 8, by decide, by decide⟩, rfl, rfl⟩, rfl⟩

end DotnetVm
