import DotnetVm.Memory.Retries

/-!
# Copying blocks that overlap

Blocks are copied in chunks. The bytes of a chunk are all read before one is
written, but an earlier chunk may write over what a later one still has to read.
`chunked_copy_with_safe_point` starts at the end when the destination lies behind
the source and overlaps it; `cpblk` always starts at the front.
-/

namespace DotnetVm.SafePoints

variable {src dest lo hi : Nat}

/-- The bytes from `lo` to `hi` of the destination are those of the source. -/
def moved (src dest lo hi : Nat) (memory : Nat → BitVec 8) : Nat → BitVec 8 := fun a =>
  if dest + lo ≤ a ∧ a < dest + hi then memory (src + (a - dest)) else memory a

variable {memory : Nat → BitVec 8}

lemma moved_of_not_lt (h : ¬ lo < hi) : moved src dest lo hi memory = memory := by
  funext a
  exact if_neg fun ha => h (by omega)

lemma moved_self : moved src src lo hi memory = memory := by
  funext a
  unfold moved
  split
  next ha => rw [Nat.add_sub_cancel' (by omega)]
  · rfl

/-- A chunk next to those moved before it, which have left its source alone. -/
lemma moved_moved {start stop start' stop' : Nat}
    (hjoin : (stop' = start ∧ lo = start' ∧ hi = stop) ∨ (stop = start' ∧ lo = start ∧ hi = stop'))
    (hle : start ≤ stop ∧ start' ≤ stop')
    (hunread : ∀ j, start ≤ j → j < stop → ¬(dest + start' ≤ src + j ∧ src + j < dest + stop')) :
    moved src dest start stop (moved src dest start' stop' memory) =
      moved src dest lo hi memory := by
  funext a
  simp only [moved]
  by_cases ha : dest + start ≤ a ∧ a < dest + stop
  · rw [if_pos ha, if_neg (hunread (a - dest) (by omega) (by omega)), if_pos (by omega)]
  · rw [if_neg ha]
    split <;> split <;> first | rfl | omega

lemma copyChunk_eq (src dest : Nat) (st : Storage) (offset length : Nat) :
    copyChunk src dest (offset, length) st =
      .ok { st with memory := moved src dest offset (offset + length) st.memory } := by
  simp only [copyChunk, Nat.add_assoc]
  rfl

variable {total : Nat} (memory) (chunk : ℕ+) (st : Storage) (p : Nat)

/-- From the front, no chunk may meet the source of a later one. -/
lemma work_chunksFrom {offset : Nat} (hle : offset ≤ total)
    (hsafe : dest ≤ src ∨ src + total ≤ dest ∨ offset = 0 ∧ total ≤ chunk ∨ offset = total) :
    ∃ q, Polling.work noStops p ((chunksFrom chunk total offset).map (copyChunk src dest))
        { st with memory := moved src dest 0 offset memory } =
      (.finished, { st with memory := moved src dest 0 total memory }, q) := by
  induction offset using chunksFrom.induct chunk total generalizing p with
  | case1 offset _ hlt ih =>
    have hpiece := copyChunk_eq src dest { st with memory := moved src dest 0 offset memory } offset
      (min (total - offset) chunk)
    rw [moved_moved (.inl ⟨rfl, rfl, rfl⟩) (by omega) (fun j _ _ => by omega)] at hpiece
    obtain ⟨q, hq⟩ := Polling.work_never_cons _ p hpiece
    obtain ⟨q', hq'⟩ := ih q (by omega) (by omega)
    rw [chunksFrom, dif_pos hlt]
    exact ⟨q', hq.trans hq'⟩
  | case2 offset _ hlast =>
    obtain rfl : offset = total := by omega
    rw [chunksFrom, dif_neg hlast]
    exact ⟨p, rfl⟩

lemma work_chunksBack {remaining : Nat} (hle : remaining ≤ total) (hbehind : src < dest) :
    ∃ q, Polling.work noStops p ((chunksBack chunk remaining).map (copyChunk src dest))
        { st with memory := moved src dest remaining total memory } =
      (.finished, { st with memory := moved src dest 0 total memory }, q) := by
  induction remaining using chunksBack.induct chunk generalizing p with
  | case1 remaining _ hlt ih =>
    have hpiece := copyChunk_eq src dest { st with memory := moved src dest remaining total memory }
      (remaining - min remaining chunk)
      (min remaining chunk)
    rw [moved_moved (.inr ⟨by omega, rfl, rfl⟩) (by omega) (fun j _ _ => by omega)] at hpiece
    obtain ⟨q, hq⟩ := Polling.work_never_cons _ p hpiece
    obtain ⟨q', hq'⟩ := ih q (by omega)
    rw [chunksBack, dif_pos hlt]
    exact ⟨q', hq.trans hq'⟩
  | case2 remaining _ hdone =>
    obtain rfl : remaining = 0 := by omega
    rw [chunksBack]
    exact ⟨p, rfl⟩

/-- The copy behind `Buffer.Memmove` moves any block within the address space, for every size of the
chunks. -/
theorem chunkedCopy_moves (chunk : ℕ+) (src dest total : Nat) (hrng : dest + total ≤ 2 ^ 64)
    (st : Storage) : ∃ q, Polling.work noStops 0 (chunkedCopy chunk src dest total) st =
      (.finished, { st with memory := moved src dest 0 total st.memory }, q) := by
  have hfront : ({ st with memory := moved src dest 0 0 st.memory } : Storage) = st := by
    rw [moved_of_not_lt (lt_irrefl 0)]
  unfold chunkedCopy
  split
  next hnil =>
    have hsm : moved src dest 0 total st.memory = st.memory := by
      rcases hnil with rfl | rfl
      · exact moved_of_not_lt (lt_irrefl 0)
      · exact moved_self
    exact ⟨0, by rw [hsm]; rfl⟩
  next hsome =>
    split
    next hback =>
      have hwork := work_chunksBack st.memory chunk st 0 (le_refl total) hback.2
      rwa [moved_of_not_lt (lt_irrefl total)] at hwork
    next hfwd =>
      have hsafe : dest ≤ src ∨ src + total ≤ dest := by
        simp only [rangesOverlap, Bool.and_eq_true, decide_eq_true_eq] at hfwd
        omega
      have hwork := work_chunksFrom st.memory chunk st 0 (Nat.zero_le total)
        (hsafe.imp_right .inl)
      rwa [hfront] at hwork

theorem three_bytes_move : ∃ q, Polling.work noStops 0 (chunkedCopy 2 8 9 3)
      ⟨fun a => BitVec.ofNat 8 a, []⟩ =
    (.finished, ⟨moved 8 9 0 3 fun a => BitVec.ofNat 8 a, []⟩, q) :=
  chunkedCopy_moves 2 8 9 3 (by decide) _

/-- The operands of `cpblk` denote two blocks of one size. -/
structure Blocks (host : Host) (v srcOwner destOwner : Operand) (size src dest : Nat) : Prop where
  sized : ∃ n, v.tryAsIsize = .ok n ∧ Operand.asUsize n = size
  source : ∃ a, srcOwner.retain = .ok a ∧ host.retainedRange srcOwner a size = .ok src
  destination : ∃ a, destOwner.retain = .ok a ∧ host.retainedRange destOwner a size = .ok dest
  nonnull : ¬(src = 0 ∨ dest = 0)

variable {R : Type} {s : State R} {host : Host} {v srcOwner destOwner : Operand}
  {rest : List Operand} {size : Nat}

lemma Blocks.plan (h : Blocks host v srcOwner destOwner size src dest) :
    (cpblk host).plan (v :: srcOwner :: destOwner :: rest) =
      (.ok ((chunksFrom memOpChunkSize size 0).map (copyChunk src dest)), rest) := by
  obtain ⟨n, hv, rfl⟩ := h.sized
  obtain ⟨a, ha, hsrc⟩ := h.source
  obtain ⟨b, hb, hdest⟩ := h.destination
  refine (Pops.bind_ok rfl).trans ((Pops.bind_ok (Pops.lift_ok hv)).trans ?_)
  refine (Pops.bind_ok rfl).trans ((Pops.bind_ok (Pops.lift_ok ha)).trans ?_)
  refine (Pops.bind_ok (Pops.lift_ok hsrc)).trans ((Pops.bind_ok rfl).trans ?_)
  refine (Pops.bind_ok (Pops.lift_ok hb)).trans ((Pops.bind_ok (Pops.lift_ok hdest)).trans ?_)
  exact congrFun (if_neg h.nonnull) rest

lemma execute_cpblk (h : Blocks host v srcOwner destOwner size src dest)
    (hops : s.operands = v :: srcOwner :: destOwner :: rest) {storage : Storage} {q : Nat}
    (hwork : Polling.work noStops 0 ((chunksFrom memOpChunkSize size 0).map (copyChunk src dest))
      s.storage = (.finished, storage, q)) :
    (cpblk host).execute noStops s =
      (.completed, { s with ip := s.ip + 1, operands := rest, storage }) := by
  simp only [Handler.execute, Handler.retry, Handler.dispatch, hops, h.plan, hwork]
  rfl

/-- From the front, a byte whose source lies before the chunks that are left is copied from what the
earlier chunks have written there. -/
lemma work_chunksFrom_behind {offset : Nat} (hle : offset ≤ total) :
    ∃ st' q, Polling.work noStops p ((chunksFrom chunk total offset).map (copyChunk src dest)) st =
        (.finished, st', q) ∧
      (∀ a < dest + offset, st'.memory a = st.memory a) ∧
      ∀ j, offset ≤ j → j < total → src + j < dest + offset →
        st'.memory (dest + j) = st.memory (src + j) := by
  induction offset using chunksFrom.induct chunk total generalizing p st with
  | case1 offset _ hlt ih =>
    obtain ⟨q, hq⟩ := Polling.work_never_cons _ p
      (copyChunk_eq src dest st offset (min (total - offset) chunk))
    obtain ⟨st', q', hwork, hkept, hcopied⟩ := ih _ q (by omega)
    rw [chunksFrom, dif_pos hlt]
    refine ⟨st', q', hq.trans hwork, fun a ha => ?_, fun j hj hjt hsrc => ?_⟩
    · rw [hkept a (by omega)]
      exact if_neg (by omega)
    · by_cases hnow : j < offset + min (total - offset) chunk
      · rw [hkept _ (by omega)]
        exact (if_pos (by omega)).trans (by rw [Nat.add_sub_cancel_left])
      · rw [hcopied j (by omega) hjt (by omega)]
        exact if_neg (by omega)
  | case2 offset _ hlast =>
    rw [chunksFrom, dif_neg hlast]
    exact ⟨st, p, rfl, fun _ _ => rfl, fun j hj hjt _ => absurd hjt (by omega)⟩

/-- In a longer block that begins within its source, the byte at `max (dest - src) chunk` is copied
from what the first chunk has written. -/
lemma work_chunksFrom_overwritten (hbehind : src < dest) (hwithin : dest < src + total)
    (hlong : chunk < total) :
    ∃ st' q, Polling.work noStops p ((chunksFrom chunk total 0).map (copyChunk src dest)) st =
        (.finished, st', q) ∧ st'.memory (dest + max (dest - src) chunk) =
          st.memory (src + (src + max (dest - src) chunk - dest)) := by
  have hpos := chunk.pos
  obtain ⟨q, hq⟩ := Polling.work_never_cons
    ((chunksFrom chunk total chunk).map (copyChunk src dest)) p (copyChunk_eq src dest st 0 chunk)
  obtain ⟨st', q', hwork, -, hcopied⟩ := @work_chunksFrom_behind src dest total chunk
    { st with memory := moved src dest 0 (0 + chunk) st.memory } q chunk hlong.le
  refine ⟨st', q', ?_, ?_⟩
  · rw [chunksFrom, dif_pos (by omega), Nat.sub_zero, min_eq_right hlong.le, Nat.zero_add]
    exact hq.trans hwork
  · rw [hcopied _ (le_max_right ..) (by omega) (by omega)]
    exact if_pos (by omega)

/-- `cpblk` moves its block in every memory, exactly if the destination does not begin within a
source of more than one chunk. -/
theorem cpblk_moves_iff (h : Blocks host v srcOwner destOwner size src dest)
    (hops : s.operands = v :: srcOwner :: destOwner :: rest) :
    (∀ memory, (cpblk host).execute noStops { s with storage := { s.storage with memory } } =
      (.completed,
        { s with
          ip := s.ip + 1
          operands := rest
          storage := { s.storage with memory := moved src dest 0 size memory } })) ↔
    (dest ≤ src ∨ src + size ≤ dest ∨ size ≤ memOpChunkSize) := by
  constructor
  · intro hmoves
    by_contra hno
    obtain ⟨hbehind, hwithin, hlong⟩ : src < dest ∧ dest < src + size ∧ memOpChunkSize < size := by
      omega
    -- one byte of the source differs from all others, and is overwritten before it is read
    let j := max (dest - src) memOpChunkSize
    let memory : Nat → BitVec 8 := fun a => if a = src + j then 1 else 0
    obtain ⟨st', q, hwork, hread⟩ := work_chunksFrom_overwritten memOpChunkSize
      { s.storage with memory } 0 hbehind hwithin hlong
    have hresult := (execute_cpblk (s := { s with storage := { s.storage with memory } }) h hops
      hwork).symm.trans (hmoves memory)
    have hbyte : st'.memory (dest + j) = moved src dest 0 size memory (dest + j) :=
      congrArg (fun r => r.2.storage.memory (dest + j)) hresult
    have hmoved : moved src dest 0 size memory (dest + j) = memory (src + j) :=
      (if_pos (by omega)).trans (by rw [Nat.add_sub_cancel_left])
    have hzero : memory (src + (src + j - dest)) = 0 := if_neg (by omega)
    have hone : memory (src + j) = 1 := if_pos rfl
    have hsame : (0 : BitVec 8) = 1 :=
      hzero.symm.trans (hread.symm.trans (hbyte.trans (hmoved.trans hone)))
    exact absurd hsame (by decide)
  · intro hsafe memory
    obtain ⟨q, hwork⟩ := work_chunksFrom memory memOpChunkSize s.storage 0
      (Nat.zero_le size) (hsafe.imp_right (Or.imp_right fun hone => .inl ⟨rfl, hone⟩))
    rw [moved_of_not_lt (lt_irrefl 0)] at hwork
    exact execute_cpblk (s := { s with storage := { s.storage with memory } }) h hops hwork

def copyState (size src dest : Nat) : State Unit where
  ip := 0
  operands := [.nativeInt size, .unmanagedPtr src, .unmanagedPtr dest]
  storage := ⟨fun a => BitVec.ofNat 8 a, []⟩
  others := ()

theorem two_bytes_moved :
    ((cpblk openHost).execute noStops (copyState 2 8 9)).2.storage.memory 10 = 9 := by
  have h : Blocks openHost (.nativeInt 2) (.unmanagedPtr 8) (.unmanagedPtr 9) 2 8 9 :=
    ⟨⟨2, rfl, rfl⟩, ⟨8, rfl, rfl⟩, ⟨9, rfl, rfl⟩, by decide⟩
  have hmoves := (cpblk_moves_iff (s := copyState 2 8 9) h rfl).mpr (by decide)
  exact congrArg (fun r => r.2.storage.memory 10) (hmoves fun a => BitVec.ofNat 8 a)

/-- One byte more than a chunk, moved by one: the first chunk overwrites the last byte of the
source. -/
theorem cpblk_overwrites_source :
    Blocks openHost (.nativeInt 1048577) (.unmanagedPtr 1) (.unmanagedPtr 2) 1048577 1 2 ∧
    ((cpblk openHost).execute noStops (copyState 1048577 1 2)).2.storage.memory (2 + 1048576) ≠
      (copyState 1048577 1 2).storage.memory (1 + 1048576) := by
  have h : Blocks openHost (.nativeInt 1048577) (.unmanagedPtr 1) (.unmanagedPtr 2) 1048577 1 2 :=
    ⟨⟨1048577, rfl, rfl⟩, ⟨1, rfl, rfl⟩, ⟨2, rfl, rfl⟩, by decide⟩
  have hchunks : chunksFrom memOpChunkSize 1048577 0 = [(0, 1048576), (1048576, 1)] := by
    simp [chunksFrom, memOpChunkSize]
  refine ⟨h, ?_⟩
  rw [execute_cpblk h rfl (by rw [hchunks]; rfl)]
  simp [copyState]

end DotnetVm.SafePoints
