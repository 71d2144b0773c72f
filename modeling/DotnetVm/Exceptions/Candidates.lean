import DotnetVm.Exceptions.TypeInitializers

/-!
# The handlers of the first pass in their order

The handlers a search may look at form one list: frames from the top down, in each
frame the sections that protect its instruction in stored order, in each section
the handlers in metadata order. A search from a cursor looks at the rest of this
list.
-/

namespace DotnetVm

open HandlerAddress List

variable {Ty : Type} {host : Host Ty} {frames : List (StackFrame Ty)} {x : ObjectRef}
  {cursor : HandlerAddress}

/-- A handler and where it stands. -/
abbrev PlacedHandler (Ty : Type) := HandlerAddress × Handler Ty

/-- The handlers of a section, numbered from `i`. -/
def placedHandlers (frameIndex sectionIndex : Nat) : Nat → List (Handler Ty) →
    List (PlacedHandler Ty)
  | _, [] => []
  | i, h :: hs =>
    (⟨frameIndex, sectionIndex, i⟩, h) :: placedHandlers frameIndex sectionIndex (i + 1) hs

/-- The handlers of the sections that protect `ip`, the sections numbered from `j`. -/
def placedSections (frameIndex ip : Nat) : Nat → List (ProtectedSection Ty) →
    List (PlacedHandler Ty)
  | _, [] => []
  | j, p :: ps =>
    (if p.instructions.contains ip then placedHandlers frameIndex j 0 p.handlers else []) ++
      placedSections frameIndex ip (j + 1) ps

def placedInFrame (frames : List (StackFrame Ty)) (frameIndex : Nat) : List (PlacedHandler Ty) :=
  (frames[frameIndex]?.map fun f => placedSections frameIndex f.ip 0 f.info.exceptions).getD []

/-- The candidates in the frames below frame `k`, from the top down. -/
def placedBelow (frames : List (StackFrame Ty)) : Nat → List (PlacedHandler Ty)
  | 0 => []
  | k + 1 => placedInFrame frames k ++ placedBelow frames k

/-- Every handler the first pass may look at, in its order. -/
def candidates (frames : List (StackFrame Ty)) : List (PlacedHandler Ty) :=
  placedBelow frames frames.length

/-- Frames from the top down, then sections, then handlers. -/
def HandlerAddress.Precedes (a b : HandlerAddress) : Prop :=
  b.frameIndex < a.frameIndex ∨ a.frameIndex = b.frameIndex ∧ (a.sectionIndex < b.sectionIndex ∨
      a.sectionIndex = b.sectionIndex ∧ a.handlerIndex < b.handlerIndex)

instance (a b : HandlerAddress) : Decidable (a.Precedes b) :=
  inferInstanceAs (Decidable (_ ∨ _ ∧ (_ ∨ _ ∧ _)))

/-- Whether a search that starts at the cursor comes to the address. -/
def HandlerAddress.reaches (cursor a : HandlerAddress) : Bool := decide ¬ a.Precedes cursor

@[simp] lemma HandlerAddress.reaches_iff {a : HandlerAddress} :
    cursor.reaches a = true ↔ ¬ a.Precedes cursor := by simp [HandlerAddress.reaches]

variable {n : Nat} {c : PlacedHandler Ty}

lemma mem_placedHandlers {j i : Nat} {hs : List (Handler Ty)} : c ∈ placedHandlers n j i hs ↔
      c.1.frameIndex = n ∧ c.1.sectionIndex = j ∧ i ≤ c.1.handlerIndex ∧
        hs[c.1.handlerIndex - i]? = some c.2 := by
  obtain ⟨⟨a, b, d⟩, h⟩ := c
  induction hs generalizing i with
  | nil => simp [placedHandlers]
  | cons g hs ih =>
    simp only [placedHandlers, mem_cons, ih]
    constructor
    · rintro (⟨⟨rfl, rfl, rfl⟩, rfl⟩ | ⟨rfl, rfl, hle, hget⟩)
      · simp
      · have hsub : d - i = (d - (i + 1)) + 1 := by omega
        exact ⟨rfl, rfl, by omega, by rw [hsub]; exact hget⟩
    · rintro ⟨rfl, rfl, hle, hget⟩
      by_cases hd : d = i
      · subst hd
        simpa [eq_comm] using hget
      · right
        have hsub : d - i = (d - (i + 1)) + 1 := by omega
        rw [hsub] at hget
        exact ⟨rfl, rfl, by omega, hget⟩

lemma mem_placedSections {ip j : Nat} {ps : List (ProtectedSection Ty)} :
    c ∈ placedSections n ip j ps ↔
      c.1.frameIndex = n ∧ j ≤ c.1.sectionIndex ∧ ∃ p, ps[c.1.sectionIndex - j]? = some p ∧
        p.instructions.contains ip = true ∧ p.handlers[c.1.handlerIndex]? = some c.2 := by
  induction ps generalizing j with
  | nil => simp [placedSections]
  | cons q ps ih =>
    simp only [placedSections, mem_append, ih]
    constructor
    · rintro (hc | ⟨hn, hle, p, hget, hp, hh⟩)
      · split at hc
        next hq =>
          obtain ⟨hn, rfl, _, hh⟩ := mem_placedHandlers.mp hc
          exact ⟨hn, le_refl _, q, by simp, hq, by simpa using hh⟩
        · cases hc
      · have hsub : c.1.sectionIndex - j = (c.1.sectionIndex - (j + 1)) + 1 := by omega
        exact ⟨hn, by omega, p, by rw [hsub]; exact hget, hp, hh⟩
    · rintro ⟨hn, hle, p, hget, hp, hh⟩
      by_cases hj : c.1.sectionIndex = j
      · left
        obtain rfl : q = p := by simpa [hj] using hget
        rw [if_pos hp]
        exact mem_placedHandlers.mpr ⟨hn, hj, Nat.zero_le _, by simpa using hh⟩
      · right
        have hsub : c.1.sectionIndex - j = (c.1.sectionIndex - (j + 1)) + 1 := by omega
        rw [hsub] at hget
        exact ⟨hn, by omega, p, hget, hp, hh⟩

lemma mem_placedInFrame :
    c ∈ placedInFrame frames n ↔ c.1.frameIndex = n ∧ ∃ f p, frames[n]? = some f ∧
      f.info.exceptions[c.1.sectionIndex]? = some p ∧ p.instructions.contains f.ip = true ∧
        p.handlers[c.1.handlerIndex]? = some c.2 := by
  unfold placedInFrame
  cases hf : frames[n]? with
  | none => simp
  | some f => simp [mem_placedSections]

lemma mem_placedBelow {k : Nat} :
    c ∈ placedBelow frames k ↔ c.1.frameIndex < k ∧ c ∈ placedInFrame frames c.1.frameIndex := by
  induction k with
  | zero => simp [placedBelow]
  | succ k ih =>
    simp only [placedBelow, mem_append, ih]
    constructor
    · rintro (hc | ⟨hlt, hc⟩)
      · obtain ⟨hn, _⟩ := mem_placedInFrame.mp hc
        exact ⟨by omega, by rwa [hn]⟩
      · exact ⟨by omega, hc⟩
    · rintro ⟨hlt, hc⟩
      by_cases hk : c.1.frameIndex = k
      · left; rwa [hk] at hc
      · right; exact ⟨by omega, hc⟩

/-- The candidates are the handlers of the sections that protect a frame's instruction. -/
lemma mem_candidates : c ∈ candidates frames ↔ ∃ f p, frames[c.1.frameIndex]? = some f ∧
      f.info.exceptions[c.1.sectionIndex]? = some p ∧ p.instructions.contains f.ip = true ∧
        p.handlers[c.1.handlerIndex]? = some c.2 := by
  unfold candidates
  rw [mem_placedBelow, mem_placedInFrame]
  constructor
  · rintro ⟨_, _, h⟩
    exact h
  · rintro ⟨f, p, hf, h⟩
    exact ⟨(List.getElem?_eq_some_iff.mp hf).1, rfl, f, p, hf, h⟩

lemma pairwise_placedHandlers (n j i : Nat) (hs : List (Handler Ty)) :
    (placedHandlers n j i hs).Pairwise fun a b => a.1.Precedes b.1 := by
  induction hs generalizing i with
  | nil => exact Pairwise.nil
  | cons h hs ih =>
    refine List.Pairwise.cons ?_ (ih (i + 1))
    intro c hc
    obtain ⟨hn, hj, hle, _⟩ := mem_placedHandlers.mp hc
    right
    exact ⟨hn.symm, Or.inr ⟨hj.symm, hle⟩⟩

lemma pairwise_placedSections (n ip j : Nat) (ps : List (ProtectedSection Ty)) :
    (placedSections n ip j ps).Pairwise fun a b => a.1.Precedes b.1 := by
  induction ps generalizing j with
  | nil => exact Pairwise.nil
  | cons p ps ih =>
    refine pairwise_append.mpr ⟨?_, ih (j + 1), ?_⟩
    · split
      · exact pairwise_placedHandlers n j 0 p.handlers
      · exact Pairwise.nil
    · intro a ha b hb
      split at ha
      · obtain ⟨hn, hj, _⟩ := mem_placedHandlers.mp ha
        obtain ⟨hn', hle, _⟩ := mem_placedSections.mp hb
        right
        exact ⟨hn.trans hn'.symm, Or.inl (by omega)⟩
      · cases ha

section

variable (frames : List (StackFrame Ty))

lemma pairwise_placedInFrame (n : Nat) :
    (placedInFrame frames n).Pairwise fun a b => a.1.Precedes b.1 := by
  unfold placedInFrame
  cases frames[n]? with
  | none => exact Pairwise.nil
  | some f => exact pairwise_placedSections n f.ip 0 f.info.exceptions

lemma pairwise_candidates : (candidates frames).Pairwise fun a b => a.1.Precedes b.1 := by
  unfold candidates
  generalize frames.length = k
  induction k with
  | zero => exact Pairwise.nil
  | succ k ih =>
    refine pairwise_append.mpr ⟨pairwise_placedInFrame frames k, ih, ?_⟩
    intro a ha b hb
    obtain ⟨hn, _⟩ := mem_placedInFrame.mp ha
    obtain ⟨hlt, _⟩ := mem_placedBelow.mp hb
    left
    omega

lemma nodup_candidates : ((candidates frames).map Prod.fst).Nodup := by
  refine pairwise_map.mpr ((pairwise_candidates frames).imp ?_)
  rintro a b hab heq
  rw [heq] at hab
  unfold HandlerAddress.Precedes at hab
  omega

end

/-- What a resumed search still comes to is the rest of the list. -/
lemma filter_reaches_next {before after : List (PlacedHandler Ty)}
    (hspl : (candidates frames).filter (fun d => cursor.reaches d.1) = before ++ c :: after) :
    (candidates frames).filter (fun d => c.1.nextHandler.reaches d.1) = after := by
  have hpair := (pairwise_candidates frames).filter fun d => cursor.reaches d.1
  rw [hspl] at hpair
  obtain ⟨_, hrest, hbef⟩ := pairwise_append.mp hpair
  obtain ⟨hafter, _⟩ := pairwise_cons.mp hrest
  have hc : ¬ c.1.Precedes cursor := by
    have hmem : c ∈ (candidates frames).filter fun d => cursor.reaches d.1 := by simp [hspl]
    simpa using (mem_filter.mp hmem).2
  -- the address behind `c` is behind the cursor, so the first filter changes nothing
  have hmono : (candidates frames).filter (fun d => c.1.nextHandler.reaches d.1) =
      ((candidates frames).filter fun d => cursor.reaches d.1).filter
        fun d => c.1.nextHandler.reaches d.1 := by
    rw [filter_filter]
    refine filter_congr fun d _ => ?_
    have himp : c.1.nextHandler.reaches d.1 = true → cursor.reaches d.1 = true := by
      simp only [reaches_iff]
      unfold HandlerAddress.Precedes nextHandler at *
      dsimp only
      omega
    cases hd : c.1.nextHandler.reaches d.1 with
    | false => rfl
    | true => simp [himp hd]
  have hdrop : ∀ d ∈ before ++ [c], ¬ c.1.nextHandler.reaches d.1 = true := by
    intro d hd
    have hle : d = c ∨ d.1.Precedes c.1 := by
      cases mem_append.mp hd with
      | inl hd => exact .inr (hbef d hd c mem_cons_self)
      | inr hd => exact .inl (mem_singleton.mp hd)
    rw [reaches_iff]
    unfold HandlerAddress.Precedes nextHandler at *
    rcases hle with rfl | hle <;> dsimp only <;> omega
  have hkeep : ∀ d ∈ after, c.1.nextHandler.reaches d.1 = true := by
    intro d hd
    have hlt := hafter d hd
    rw [reaches_iff]
    unfold HandlerAddress.Precedes nextHandler at *
    dsimp only
    omega
  have happend : before ++ c :: after = (before ++ [c]) ++ after := by simp
  rw [hmono, hspl, happend, filter_append, filter_eq_nil_iff.mpr hdrop,
    filter_eq_self.mpr hkeep, nil_append]

/-- Look at the handlers of a list one after the other. -/
def searchPlaced (host : Host Ty) (x : ObjectRef) : List (PlacedHandler Ty) → Except Stop
    (Option Candidate)
  | [] => .ok none
  | c :: cs =>
    match searchHandler host x c.1 c.2 with
    | .ok none => searchPlaced host x cs
    | r => r

section

variable (host : Host Ty) (x : ObjectRef)

lemma searchPlaced_append (cs ds : List (PlacedHandler Ty)) :
    searchPlaced host x (cs ++ ds) =
      match searchPlaced host x cs with
      | .ok none => searchPlaced host x ds
      | r => r := by
  induction cs with
  | nil => rfl
  | cons c cs ih =>
    simp only [cons_append, searchPlaced]
    rcases searchHandler host x c.1 c.2 with e | _ | _ <;> simp [ih]

lemma searchHandlers_eq (n j i : Nat) (hs : List (Handler Ty)) :
    searchHandlers host x n j i hs = searchPlaced host x (placedHandlers n j i hs) := by
  induction hs generalizing i with
  | nil => rfl
  | cons h hs ih =>
    simp only [searchHandlers, placedHandlers, searchPlaced]
    rcases searchHandler host x ⟨n, j, i⟩ h with e | _ | _
    · rfl
    · exact ih (i + 1)
    · rfl

lemma placedHandlers_drop (n j i k : Nat) (hs : List (Handler Ty)) :
    placedHandlers n j (i + k) (hs.drop k) =
      (placedHandlers n j i hs).filter fun c => decide (i + k ≤ c.1.handlerIndex) := by
  induction k generalizing i hs with
  | zero =>
    symm
    refine filter_eq_self.mpr fun c hc => ?_
    simpa using (mem_placedHandlers.mp hc).2.2.1
  | succ k ih =>
    cases hs with
    | nil => rfl
    | cons h hs =>
      have hadd : i + (k + 1) = (i + 1) + k := by omega
      have hlt : ¬ (i + 1) + k ≤ i := by omega
      simp [placedHandlers, hadd, ih, hlt]

/-- The handlers of a section from the cursor on. -/
lemma placedHandlers_start {j : Nat} (hs : List (Handler Ty)) (hn : n ≤ cursor.frameIndex)
    (hj : n = cursor.frameIndex → cursor.sectionIndex ≤ j) :
    placedHandlers n j (handlerStart cursor n j) (hs.drop (handlerStart cursor n j)) =
      (placedHandlers n j 0 hs).filter fun c => cursor.reaches c.1 := by
  have hdrop := placedHandlers_drop n j 0 (handlerStart cursor n j) hs
  rw [zero_add] at hdrop
  rw [hdrop]
  refine filter_congr fun c hc => ?_
  obtain ⟨hcn, hcj, _⟩ := mem_placedHandlers.mp hc
  rw [Bool.eq_iff_iff, reaches_iff, decide_eq_true_eq]
  unfold HandlerAddress.Precedes handlerStart
  split <;> omega

lemma searchSections_eq {j : Nat} (ip : Nat)
    (ps : List (ProtectedSection Ty)) (hn : n ≤ cursor.frameIndex)
    (hj : n = cursor.frameIndex → cursor.sectionIndex ≤ j) :
    searchSections host x cursor n ip j ps =
      searchPlaced host x ((placedSections n ip j ps).filter fun c => cursor.reaches c.1) := by
  induction ps generalizing j with
  | nil => rfl
  | cons p ps ih =>
    have hrest := ih fun h => Nat.le_succ_of_le (hj h)
    simp only [searchSections, placedSections, filter_append]
    split
    · rw [searchHandlers_eq, placedHandlers_start p.handlers hn hj, searchPlaced_append]
      rcases searchPlaced host x ((placedHandlers n j 0 p.handlers).filter
        fun c => cursor.reaches c.1) with e | _ | _
      · rfl
      · exact hrest
      · rfl
    · simpa using hrest

end

/-- Sections before the cursor's are not looked at again. -/
lemma placedSections_drop (hn : n = cursor.frameIndex) (ip j k : Nat)
    (ps : List (ProtectedSection Ty)) (hk : j + k ≤ cursor.sectionIndex) :
    (placedSections n ip (j + k) (ps.drop k)).filter (fun c => cursor.reaches c.1) =
      (placedSections n ip j ps).filter fun c => cursor.reaches c.1 := by
  induction k generalizing j ps with
  | zero => rfl
  | succ k ih =>
    cases ps with
    | nil => rfl
    | cons p ps =>
      have hadd : j + (k + 1) = (j + 1) + k := by omega
      have hskip : (if p.instructions.contains ip then placedHandlers n j 0 p.handlers
          else []).filter (fun c => cursor.reaches c.1) = [] := by
        refine filter_eq_nil_iff.mpr fun c hc => ?_
        split at hc
        · obtain ⟨hcn, hcj, _⟩ := mem_placedHandlers.mp hc
          rw [reaches_iff]
          unfold HandlerAddress.Precedes
          omega
        · cases hc
      rw [drop_succ_cons, hadd, ih (j + 1) ps (by omega), placedSections,
        filter_append, hskip, nil_append]

variable (host x)

section

variable (hn : n ≤ cursor.frameIndex) (hlt : n < frames.length)
include hn hlt

lemma searchFrame_eq :
    searchFrame host frames x cursor n =
      searchPlaced host x ((placedInFrame frames n).filter fun c => cursor.reaches c.1) := by
  obtain ⟨f, hf⟩ : ∃ f, frames[n]? = some f := ⟨_, getElem?_eq_getElem hlt⟩
  have hin : placedInFrame frames n = placedSections n f.ip 0 f.info.exceptions := by
    simp [placedInFrame, hf]
  simp only [searchFrame, hf, hin]
  by_cases hcur : n = cursor.frameIndex
  · have hbeg : sectionStart cursor n = cursor.sectionIndex := by simp [sectionStart, hcur]
    have hdrop := placedSections_drop hcur f.ip 0 cursor.sectionIndex f.info.exceptions (by omega)
    rw [zero_add] at hdrop
    rw [hbeg, searchSections_eq host x f.ip _ hn fun _ => le_refl _, hdrop]
  · have hbeg : sectionStart cursor n = 0 := by simp [sectionStart, hcur]
    rw [hbeg, drop_zero, searchSections_eq host x f.ip _ hn fun h => absurd h hcur]

lemma searchFrames_eq :
    searchFrames host frames x cursor 0 n =
      searchPlaced host x ((placedBelow frames (n + 1)).filter fun c => cursor.reaches c.1) := by
  induction n with
  | zero =>
    simp only [placedBelow, append_nil]
    exact searchFrame_eq host x hn hlt
  | succ n ih =>
    have hrest := ih (by omega) (by omega)
    rw [placedBelow, filter_append, searchPlaced_append, ← searchFrame_eq host x hn hlt,
      ← hrest]
    rfl

end

/-- A search from a cursor looks at what the cursor reaches of the candidates. -/
lemma searchFrames_candidates (hlt : cursor.frameIndex < frames.length) :
    searchFrames host frames x cursor 0 cursor.frameIndex =
      searchPlaced host x ((candidates frames).filter fun c => cursor.reaches c.1) := by
  rw [searchFrames_eq host x (le_refl _) hlt]
  -- frames above the cursor's are not reached
  unfold candidates
  obtain ⟨k, hk⟩ : ∃ k, frames.length = cursor.frameIndex + 1 + k :=
    ⟨frames.length - (cursor.frameIndex + 1), by omega⟩
  rw [hk]
  clear hk hlt
  induction k with
  | zero => rfl
  | succ k ih =>
    have hskip : (placedInFrame frames (cursor.frameIndex + 1 + k)).filter
        (fun c => cursor.reaches c.1) = [] := by
      refine filter_eq_nil_iff.mpr fun c hc => ?_
      obtain ⟨hcn, _⟩ := mem_placedInFrame.mp hc
      rw [reaches_iff]
      unfold HandlerAddress.Precedes
      omega
    have hlast : placedBelow frames (cursor.frameIndex + 1 + (k + 1)) =
        placedInFrame frames (cursor.frameIndex + 1 + k) ++
          placedBelow frames (cursor.frameIndex + 1 + k) := rfl
    rw [hlast, filter_append, hskip]
    exact ih

lemma searchHandler_of_verdict (c : PlacedHandler Ty) :
    match c.2.kind.verdict host x with
    | .passes => searchHandler host x c.1 c.2 = .ok none
    | .catches => searchHandler host x c.1 c.2 = .ok (some (.accepted c.1))
    | .filters => ∃ offset, searchHandler host x c.1 c.2 = .ok (some (.filter c.1 offset))
    | .fails => ∃ e, searchHandler host x c.1 c.2 = .error (.error e) := by
  unfold searchHandler HandlerKind.verdict
  cases c.2.kind with
  | catchClause caught =>
    cases x with
    | none => exact ⟨_, rfl⟩
    | some o =>
      rcases hdesc : host.getHeapDescription o with e | excType
      · simp [hdesc]
      · rcases hisA : host.isA excType caught with e | _ | _ <;> simp [hdesc, hisA]
  | filterClause offset => exact ⟨offset, rfl⟩
  | finallyClause => rfl
  | faultClause => rfl

/-- A search stops at the first candidate whose clause does not let the exception pass. -/
lemma searchPlaced_cases (cs : List (PlacedHandler Ty)) :
    (searchPlaced host x cs = .ok none ∧ ∀ c ∈ cs, c.2.kind.verdict host x = .passes) ∨
      ∃ before c after, cs = before ++ c :: after ∧
        (∀ d ∈ before, d.2.kind.verdict host x = .passes) ∧ c.2.kind.verdict host x ≠ .passes ∧
        searchPlaced host x cs = searchHandler host x c.1 c.2 := by
  induction cs with
  | nil => exact .inl ⟨rfl, by simp⟩
  | cons c cs ih =>
    have hc := searchHandler_of_verdict host x c
    by_cases hpass : c.2.kind.verdict host x = .passes
    · rw [hpass] at hc
      have hnext : searchPlaced host x (c :: cs) = searchPlaced host x cs := by
        simp only [searchPlaced, hc]
      rw [hnext]
      obtain ⟨hno, hall⟩ | ⟨before, d, after, rfl, hbef, hd, heq⟩ := ih
      · exact .inl ⟨hno, forall_mem_cons.mpr ⟨hpass, hall⟩⟩
      · exact .inr ⟨c :: before, d, after, rfl, forall_mem_cons.mpr ⟨hpass, hbef⟩, hd, heq⟩
    · refine .inr ⟨[], c, cs, rfl, by simp, hpass, ?_⟩
      unfold searchPlaced
      split
      next hno =>
        revert hc
        cases hv : c.2.kind.verdict host x <;> simp [hno, hv] at hpass ⊢
      · rfl

lemma searchFrames_cases (hlt : cursor.frameIndex < frames.length) :
    (searchFrames host frames x cursor 0 cursor.frameIndex = .ok none ∧
      ∀ c ∈ (candidates frames).filter (fun c => cursor.reaches c.1),
        c.2.kind.verdict host x = .passes) ∨
    ∃ before c after, (candidates frames).filter (fun c => cursor.reaches c.1) =
        before ++ c :: after ∧ (∀ d ∈ before, d.2.kind.verdict host x = .passes) ∧
      ((c.2.kind.verdict host x = .catches ∧
          searchFrames host frames x cursor 0 cursor.frameIndex = .ok (some (.accepted c.1))) ∨
        (c.2.kind.verdict host x = .filters ∧ ∃ offset,
          searchFrames host frames x cursor 0 cursor.frameIndex = .ok (some (.filter c.1 offset))) ∨
        (c.2.kind.verdict host x = .fails ∧ ∃ e,
          searchFrames host frames x cursor 0 cursor.frameIndex = .error (.error e))) := by
  rw [searchFrames_candidates host x hlt]
  obtain ⟨hno, hall⟩ | ⟨before, c, after, hspl, hbef, hc, hplaced⟩ :=
    searchPlaced_cases host x ((candidates frames).filter fun c => cursor.reaches c.1)
  · exact .inl ⟨hno, hall⟩
  · refine .inr ⟨before, c, after, hspl, hbef, ?_⟩
    rw [hplaced]
    have hverd := searchHandler_of_verdict host x c
    cases hv : c.2.kind.verdict host x with
    | passes => exact absurd hv hc
    | catches =>
      rw [hv] at hverd
      exact .inl ⟨rfl, hverd⟩
    | filters =>
      rw [hv] at hverd
      exact .inr (Or.inl ⟨rfl, hverd⟩)
    | fails =>
      rw [hv] at hverd
      exact .inr (Or.inr ⟨rfl, hverd⟩)

end DotnetVm
