import DotnetVm.Exceptions.Phases

/-!
# Exceptions that leave a static constructor

The first pass walks past the frame of a static constructor with the exception
that was thrown inside it. Only when the second pass pops that frame does the
engine put a `TypeInitializationException` in its place and search again from
the frames below. What those frames get to see therefore depends on what the
first pass makes of the original exception there.
-/

namespace DotnetVm

open List Option

variable {Ty : Type} {host : Host Ty} {s s' t : ThreadContext Ty} {f : StackFrame Ty}
  {frames : List (StackFrame Ty)} {x : ObjectRef} {cursor : HandlerAddress} {stop k n : Nat}

/-- What a handler clause says to an exception in the first pass. -/
inductive Verdict where
  | passes
  | catches
  | filters
  | fails
  deriving DecidableEq, Repr

def HandlerKind.verdict (host : Host Ty) (exception : ObjectRef) : HandlerKind Ty → Verdict
  | .catchClause caught =>
    match exception.map host.getHeapDescription with
    | some (.ok excType) =>
      match host.isA excType caught with
      | .ok true => .catches
      | .ok false => .passes
      | .error _ => .fails
    | _ => .fails
  | .filterClause _ => .filters
  | .finallyClause | .faultClause => .passes

def decision (host : Host Ty) (exception : ObjectRef) : List (HandlerKind Ty) → Verdict
  | [] => .passes
  | clause :: clauses =>
    if clause.verdict host exception = .passes then decision host exception clauses
    else clause.verdict host exception

def StackFrame.clauses (f : StackFrame Ty) : List (HandlerKind Ty) :=
  (f.info.exceptions.filter (·.instructions.contains f.ip)).flatMap (·.handlers.map (·.kind))

def clausesBelow (frames : List (StackFrame Ty)) (stop : Nat) : Nat → List (HandlerKind Ty)
  | 0 => []
  | k + 1 =>
    if k < stop then []
    else (frames[k]?.map StackFrame.clauses).getD [] ++ clausesBelow frames stop k

section

variable (host : Host Ty) (x : ObjectRef)

lemma decision_append (cs ds : List (HandlerKind Ty)) :
    decision host x (cs ++ ds) =
      if decision host x cs = .passes then decision host x ds else decision host x cs := by
  induction cs with
  | nil => simp [decision]
  | cons c cs ih =>
    simp only [cons_append, decision]
    by_cases hc : c.verdict host x = .passes
    · simp only [if_pos hc, ih]
    · simp only [if_neg hc]

/-- The verdict that the outcome of a search amounts to. -/
def verdictOf : Except Stop (Option Candidate) → Verdict
  | .ok none => .passes
  | .ok (some (.accepted _)) => .catches
  | .ok (some (.filter _ _)) => .filters
  | .error _ => .fails

lemma verdictOf_searchHandler (addr : HandlerAddress) (h : Handler Ty) :
    verdictOf (searchHandler host x addr h) = h.kind.verdict host x := by
  unfold searchHandler HandlerKind.verdict
  cases h.kind with
  | catchClause caught =>
    cases x with
    | none => rfl
    | some o =>
      rcases hdesc : host.getHeapDescription o with e | excType
      · simp [hdesc, verdictOf]
      · rcases hisA : host.isA excType caught with e | _ | _ <;> simp [hdesc, hisA, verdictOf]
  | filterClause _ => rfl
  | finallyClause => rfl
  | faultClause => rfl

lemma verdictOf_searchHandlers (frameIndex sectionIndex i : Nat) (hs : List (Handler Ty)) :
    verdictOf (searchHandlers host x frameIndex sectionIndex i hs) =
      decision host x (hs.map (·.kind)) := by
  induction hs generalizing i with
  | nil => rfl
  | cons h hs ih =>
    have hfst := verdictOf_searchHandler host x ⟨frameIndex, sectionIndex, i⟩ h
    simp only [searchHandlers, map_cons, decision, ← hfst, ← ih (i + 1)]
    rcases searchHandler host x ⟨frameIndex, sectionIndex, i⟩ h with e | _ | _ | _ <;>
      simp [verdictOf]

end

lemma verdictOf_searchSections (hn : n ≠ cursor.frameIndex) (ip i : Nat)
    (ps : List (ProtectedSection Ty)) :
    verdictOf (searchSections host x cursor n ip i ps) = decision host x
        ((ps.filter (·.instructions.contains ip)).flatMap (·.handlers.map (·.kind))) := by
  induction ps generalizing i with
  | nil => rfl
  | cons p ps ih =>
    have hbeg : handlerStart cursor n i = 0 := by simp [handlerStart, hn]
    simp only [searchSections, hbeg, drop_zero]
    by_cases hp : p.instructions.contains ip
    · have hfst := verdictOf_searchHandlers host x n i 0 p.handlers
      simp only [if_pos hp, filter_cons, flatMap_cons, decision_append, ← hfst,
        ← ih (i + 1)]
      rcases searchHandlers host x n i 0 p.handlers with e | _ | _ | _ <;> simp [verdictOf]
    · simp only [if_neg hp, filter_cons, ih]

lemma verdictOf_searchFrame (hn : n ≠ cursor.frameIndex) (hf : frames[n]? = some f) :
    verdictOf (searchFrame host frames x cursor n) = decision host x f.clauses := by
  have hbeg : sectionStart cursor n = 0 := by simp [sectionStart, hn]
  simp only [searchFrame, hf, hbeg]
  exact verdictOf_searchSections hn _ _ _

lemma searchFrames_of_lt (h : n < stop) : searchFrames host frames x cursor stop n = .ok none := by
  cases n with
  | zero => exact if_pos h
  | succ n => exact if_pos h

lemma searchFrames_succ (h : stop ≤ n + 1) :
    verdictOf (searchFrames host frames x cursor stop (n + 1)) =
      if verdictOf (searchFrame host frames x cursor (n + 1)) = .passes then
        verdictOf (searchFrames host frames x cursor stop n)
      else verdictOf (searchFrame host frames x cursor (n + 1)) := by
  simp only [searchFrames, if_neg (show ¬ n + 1 < stop by omega)]
  rcases searchFrame host frames x cursor (n + 1) with e | _ | _ | _ <;> simp [verdictOf]

lemma verdictOf_searchFrames (hn : n < cursor.frameIndex) (hlen : n < frames.length) :
    verdictOf (searchFrames host frames x cursor stop n) =
      decision host x (clausesBelow frames stop (n + 1)) := by
  induction n with
  | zero =>
    by_cases hstop : 0 < stop
    · simp [searchFrames_of_lt hstop, clausesBelow, hstop, decision, verdictOf]
    · obtain ⟨f, hf⟩ : ∃ f, frames[0]? = some f := ⟨_, getElem?_eq_getElem hlen⟩
      simp only [searchFrames, clausesBelow, if_neg hstop, hf,
        append_nil]
      exact verdictOf_searchFrame (by omega) hf
  | succ n ih =>
    by_cases hstop : n + 1 < stop
    · simp [searchFrames_of_lt hstop, clausesBelow, hstop, decision, verdictOf]
    · obtain ⟨f, hf⟩ : ∃ f, frames[n + 1]? = some f := ⟨_, getElem?_eq_getElem hlen⟩
      have hclauses : clausesBelow frames stop (n + 1 + 1) =
          f.clauses ++ clausesBelow frames stop (n + 1) := by
        rw [clausesBelow, if_neg hstop, hf, map_some, getD_some]
      rw [searchFrames_succ (by omega), verdictOf_searchFrame (by omega) hf,
        ih (by omega) (by omega), hclauses, decision_append]

lemma searchFrames_escape (hstop : stop ≤ k) (hk : k < n)
    (h : searchFrames host frames x cursor (k + 1) n = .ok none) :
    searchFrames host frames x cursor stop n = searchFrames host frames x cursor stop k := by
  induction n with
  | zero => omega
  | succ n ih =>
    simp only [searchFrames, if_neg (show ¬ n + 1 < k + 1 by omega)] at h
    simp only [searchFrames, if_neg (show ¬ n + 1 < stop by omega)]
    split at h
    · next hfr =>
      by_cases hkn : k < n
      · simpa only [hfr] using ih hkn h
      · simp only [show k = n by omega]
    · next hfr => exact absurd h (hfr ·)

variable {addr : HandlerAddress}

lemma accepted_of_searchHandlers {i m : Nat} {hs : List (Handler Ty)}
    (h : searchHandlers host x n m i hs = .ok (some (.accepted addr))) : addr.frameIndex = n := by
  induction hs generalizing i with
  | nil => cases h
  | cons g hs ih =>
    simp only [searchHandlers] at h
    split at h
    · exact ih h
    · simp only [searchHandler] at h
      split at h
      · repeat' split at h
        all_goals cases h
        rfl
      · cases h
      · cases h
      · cases h

lemma accepted_of_searchSections {ip i : Nat} {ps : List (ProtectedSection Ty)}
    (h : searchSections host x cursor n ip i ps = .ok (some (.accepted addr))) :
    addr.frameIndex = n := by
  induction ps generalizing i with
  | nil => cases h
  | cons p ps ih =>
    simp only [searchSections] at h
    split at h
    · split at h
      · exact ih h
      · exact accepted_of_searchHandlers h
    · exact ih h

lemma accepted_of_searchFrames
    (h : searchFrames host frames x cursor stop n = .ok (some (.accepted addr))) :
    addr.frameIndex ≤ n := by
  have hfr : ∀ m, searchFrame host frames x cursor m = .ok (some (.accepted addr)) →
      addr.frameIndex = m := by
    intro m hm
    unfold searchFrame at hm
    split at hm
    · cases hm
    · exact accepted_of_searchSections hm
  induction n with
  | zero =>
    simp only [searchFrames] at h
    split at h
    · cases h
    · exact le_of_eq (hfr 0 h)
  | succ n ih =>
    simp only [searchFrames] at h
    split at h
    · cases h
    · split at h
      · exact Nat.le_succ_of_le (ih h)
      · exact le_of_eq (hfr (n + 1) h)

section

variable {u : UnwindState} {w : ObjectRef} {typeInit : Option ObjectRef} {c : Nat}

lemma unwindFrames_total (hlen : s.frames.length = n + 1) :
    ∃ o, unwindFrames u typeInit n s = .ok o := by
  induction n generalizing s with
  | zero =>
    obtain ⟨f, hf⟩ : ∃ f, s.frames[0]? = some f :=
      ⟨_, getElem?_eq_getElem (by omega)⟩
    simp only [unwindFrames, unwindInFrame, hf]
    split
    · next h => cases h
    · exact ⟨_, rfl⟩
    · exact ⟨_, rfl⟩
  | succ n ih =>
    obtain ⟨f, hf⟩ : ∃ f, s.frames[n + 1]? = some f :=
      ⟨_, getElem?_eq_getElem (by omega)⟩
    cases hin : unwindInFrame u (n + 1) s with
    | error e => simp [unwindInFrame, hf] at hin
    | ok r =>
      obtain ⟨t, entry⟩ := r
      have hlen' := (unwindInFrame_frames hin).1
      simp only [unwindFrames, hin]
      cases entry with
      | some entry => exact ⟨_, rfl⟩
      | none =>
        dsimp only
        split
        · cases hpop : unwindFrame t typeInit with
          | error e =>
            have hne : t.frames ≠ [] := fun hnil => by simp [hnil, hlen] at hlen'
            simp [unwindFrame, getLast?_eq_some_getLast hne] at hpop
          | ok t' =>
            have hpopped := unwindFrame_length hpop
            dsimp only
            split
            · exact ⟨_, rfl⟩
            · exact ih (by omega)
        · exact ⟨_, rfl⟩

lemma unwindFrame_cctor {init : List (StackFrame Ty)} (hs : s.frames = init ++ [f])
    (hcc : f.info.isCctor = true) (hx : s.exceptionMode.currentException = some x)
    (h : unwindFrame s (some w) = .ok s') : s'.exceptionMode = .throwing w false := by
  simp only [unwindFrame, hs, getLast?_concat, hcc, hx, Except.ok.injEq] at h
  rw [← h]
  rfl

lemma unwindWalk_cctor {o : UnwindOutcome Ty} (hcur : u.cursor.frameIndex + 1 = s.frames.length)
    (htgt : u.targetFrame < c) (hle : c ≤ u.cursor.frameIndex)
    (hmd : s.exceptionMode = .unwinding u) (hx : u.exception = some x)
    (hcc : ∀ i g, s.frames[i]? = some g → c ≤ i → (g.info.isCctor = true ↔ i = c))
    (h : unwindWalk u (some w) s = .ok o) :
    (∃ t entry, o = .entered t entry ∧ c < t.frames.length) ∨
      ∃ t, o = .raised t ∧ t.exceptionMode = .throwing w false ∧ t.frames = s.frames.take c := by
  unfold unwindWalk at h
  rw [if_neg (by omega)] at h
  refine unwindFrames_induct (P := fun n t => n < s.frames.length ∧ c ≤ n ∧
    t.frames = s.frames.take (n + 1) ∧ t.exceptionMode = .unwinding u)
    (Q := fun o => (∃ t entry, o = .entered t entry ∧ c < t.frames.length) ∨
      ∃ t, o = .raised t ∧ t.exceptionMode = .throwing w false ∧ t.frames = s.frames.take c)
    ?_ ?_ ?_ (by omega)
    ⟨by omega, hle, by rw [hcur, take_length], hmd⟩ h
  · rintro n t t' entry ⟨hn, hcn, ht, -⟩ hin
    refine .inl ⟨t', entry, rfl, ?_⟩
    rw [(unwindInFrame_frames hin).1, ht, length_take]
    omega
  · rintro n t t' ⟨_, hcn, _⟩ _ hn
    omega
  · rintro n t t' t'' ⟨hn, hcn, ht, hmd⟩ hin hlt hpop
    obtain ⟨init, f, hlen, hat⟩ := walkAt_of_take hn ht hin
    have htake := take_of_unwindFrame hlen hat hpop
    obtain ⟨gs, hgs, -⟩ := unwindInFrame_eq hin
    have hmd' : t'.exceptionMode = .unwinding u := by rw [hgs]; exact hmd
    have hf : s.frames[n + 1]? = some f := by
      have hget : (s.frames.take (init.length + 1))[init.length]? = some f := by
        rw [hat.taken, getElem?_concat_length]
      rwa [getElem?_take_of_lt (by omega), hlen] at hget
    by_cases hc : n + 1 = c
    · have hthr : t''.exceptionMode = .throwing w false :=
        unwindFrame_cctor hat.frames ((hcc _ _ hf hcn).mpr hc) (by rw [hmd']; exact hx) hpop
      refine ⟨fun y p _ => .inr ⟨t'', rfl, hthr, by rw [← hc]; exact htake⟩, fun hnot => ?_⟩
      exact absurd hthr (hnot w false)
    · have hpl : f.info.isCctor ≠ true := fun h => hc ((hcc _ _ hf hcn).mp h)
      obtain ⟨mode, finalizing, hsm | ⟨y, _, hy, _⟩, rfl⟩ := unwindFrame_concat hat.frames hpop
      · have hkept : mode = .unwinding u := hsm.trans hmd'
        refine ⟨fun y p hy => ?_, fun _ => ⟨by omega, by omega, htake, hkept⟩⟩
        rw [show mode = .throwing y p from hy] at hkept
        cases hkept
      · exact absurd hy hpl

def EndsInThrow (host : Host Ty) (u : UnwindState) (frames : List (StackFrame Ty)) (c : Nat)
    (wrapped : ObjectRef) : Prop :=
  ∀ (r : ThreadContext Ty) (cursor : HandlerAddress), MethodsOf frames r.frames →
    cursor.frameIndex + 1 = r.frames.length → c ≤ cursor.frameIndex →
    r.exceptionMode = .unwinding { u with cursor := cursor } →
    ∃ r', handleException host r (some wrapped) = .ok (.exception, r') ∧
      ((∃ v, r'.exceptionMode = .executingHandler v ∧ c < r'.frames.length) ∨
        r'.exceptionMode = .throwing wrapped false ∧ r'.frames = r.frames.take c)

lemma endsInThrow (htgt : ∀ cursor, { u with cursor := cursor }.targetFrame < c)
    (hx : u.exception = some x)
    (hcc : ∀ i g, frames[i]? = some g → c ≤ i → (g.info.isCctor = true ↔ i = c)) :
    EndsInThrow host u frames c w := by
  intro r cursor hms hcur hle hmd
  obtain ⟨o, ho⟩ : ∃ o, unwindWalk { u with cursor := cursor } (some w) r = .ok o := by
    unfold unwindWalk
    rw [if_neg (not_lt.mpr (le_trans (le_of_lt (htgt cursor)) hle))]
    exact unwindFrames_total hcur.symm
  have hcc' : ∀ i g, r.frames[i]? = some g → c ≤ i → (g.info.isCctor = true ↔ i = c) := by
    intro i g hg hi
    obtain ⟨f, hf, hinfo⟩ := hms i g hg
    rw [hinfo]
    exact hcc i f hf hi
  simp only [handleException, hmd, unwind, ho]
  rcases unwindWalk_cctor hcur (htgt cursor) hle hmd hx hcc' ho with
    ⟨t, entry, rfl, hlen⟩ | ⟨t, rfl, hthr, htake⟩
  · exact ⟨_, rfl, .inl ⟨_, rfl, by
      simpa [enterCleanup, ThreadContext.modifyFrame, ThreadContext.setMode] using hlen⟩⟩
  · exact ⟨_, rfl, .inr ⟨hthr, htake⟩⟩

def HandsDown (host : Host Ty) (s : ThreadContext Ty) (c : Nat) (wrapped : ObjectRef) : Prop :=
  ∃ u, handleException host s (some wrapped) = .ok (.exception, s.setMode (.unwinding u)) ∧
    EndsInThrow host u s.frames c wrapped

structure LeavesConstructor (host : Host Ty) (s : ThreadContext Ty) (state : SearchState)
    (stop c : Nat) : Prop where
  mode : s.exceptionMode = .searching state
  stopFrame_eq : stopFrame state = .ok stop
  stop_lt : stop < c
  le_cursor : c ≤ state.cursor.frameIndex
  lt_length : c < s.frames.length
  isCctor_iff : ∀ i g, s.frames[i]? = some g → c ≤ i → (g.info.isCctor = true ↔ i = c)
  unhandled : searchFrames host s.frames state.exception state.cursor c
    state.cursor.frameIndex = .ok none

def CaughtBelow (host : Host Ty) (s : ThreadContext Ty) (state : SearchState) (stop c : Nat) :
    Prop :=
  decision host state.exception (clausesBelow s.frames stop c) = .catches ∨
    decision host state.exception (clausesBelow s.frames stop c) = .passes ∧
      state.nestedFilter.isSome = true

lemma LeavesConstructor.search {state : SearchState} (h : LeavesConstructor host s state stop c) :
    ∃ r, searchFrames host s.frames state.exception state.cursor stop state.cursor.frameIndex =
        r ∧ r = searchFrames host s.frames state.exception state.cursor stop (c - 1) ∧
      verdictOf r = decision host state.exception (clausesBelow s.frames stop c) := by
  have hstop := h.stop_lt
  have hle := h.le_cursor
  have hlen := h.lt_length
  obtain ⟨k, rfl⟩ : ∃ k, c = k + 1 := ⟨c - 1, by omega⟩
  refine ⟨_, rfl, searchFrames_escape (by omega) hle h.unhandled, ?_⟩
  rw [searchFrames_escape (by omega) hle h.unhandled]
  exact verdictOf_searchFrames (by omega) (by omega)

/-- An exception that leaves a static constructor reaches the frames below wrapped if and only if
the first pass would have caught it there unwrapped. -/
theorem handsDown_iff_caughtBelow {state : SearchState}
    (h : LeavesConstructor host s state stop c) (wrapped : ObjectRef) :
    HandsDown host s c wrapped ↔ CaughtBelow host s state stop c := by
  obtain ⟨r, hsrch, hlow, hverd⟩ := h.search
  have hst : ∀ w, handleException host s w = searchForHandler host s state := fun w => by
    simp only [handleException, h.mode]
  constructor
  · rintro ⟨u, hu, -⟩
    rw [hst] at hu
    simp only [searchForHandler, h.stopFrame_eq, hsrch] at hu
    rcases r with e | _ | addr | ⟨addr, clauseOffset⟩
    · cases hu
    · cases hn : state.nestedFilter with
      | none => simp [hn] at hu
      | some nested => exact .inr ⟨hverd.symm, by rw [hn]; rfl⟩
    · exact .inl hverd.symm
    · obtain ⟨-, low, frame, high, -, -, -, heq⟩ := enterFilter_eq hu
      cases congrArg ThreadContext.exceptionMode heq
  · intro hcaught
    rcases r with e | _ | addr | ⟨addr, clauseOffset⟩ <;>
      simp only [CaughtBelow, ← hverd, verdictOf] at hcaught
    · simp at hcaught
    · cases hn : state.nestedFilter with
      | none => simp [hn] at hcaught
      | some nested =>
        have hnest : nested.handler.frameIndex = stop := by
          have hstop := h.stopFrame_eq
          simp only [stopFrame, hn] at hstop
          split at hstop
          · cases hstop
          · exact Except.ok.inj hstop
        refine ⟨_, by rw [hst]; simp only [searchForHandler, h.stopFrame_eq, hsrch, hn]; rfl,
          endsInThrow (fun _ => ?_) rfl h.isCctor_iff⟩
        show nested.handler.frameIndex < c
        rw [hnest]
        exact h.stop_lt
    · refine ⟨_, by rw [hst]; simp only [searchForHandler, h.stopFrame_eq, hsrch]; rfl,
        endsInThrow (fun _ => ?_) rfl h.isCctor_iff⟩
      have hle := accepted_of_searchFrames hlow.symm
      have hstop := h.stop_lt
      show addr.frameIndex < c
      omega
    · simp at hcaught

end

inductive LibraryType where
  | object
  | invalidOperation
  | typeInitialization
  deriving DecidableEq, Repr

def libraryHost : Host LibraryType where
  systemException := .ok .object
  getHeapDescription := fun o => .ok (if o = 2 then .typeInitialization else .invalidOperation)
  isA := fun t caught => .ok (t == caught || caught == .object)

section

variable (caught : LibraryType)

/-- `try { use T; } catch (caught) { }`. -/
def userOf : MethodInfo LibraryType where
  instructions := [.op, .leave (.short 3), .leave (.short 3), .ret]
  exceptions := [⟨⟨0, 2⟩, [⟨⟨2, 3⟩, .catchClause caught⟩]⟩]

def failingInitializer : MethodInfo LibraryType where
  instructions := [.throw]
  isCctor := true

/-- The static constructor of `T` has thrown inside the `try` of its user, and the search for a
handler is about to begin. -/
def initializerFailed : ThreadContext LibraryType :=
  { entrypoint (userOf caught) [] with
    frames := [.new ⟨0, 0, 0⟩ (userOf caught), .new ⟨0, 0, 0⟩ failingInitializer]
    exceptionMode := .searching ⟨some 1, .startOf 1, none⟩ }

lemma initializerFailed_leaves :
    LeavesConstructor libraryHost (initializerFailed caught) ⟨some 1, .startOf 1, none⟩ 0 1 where
  mode := rfl
  stopFrame_eq := rfl
  stop_lt := by decide
  le_cursor := by decide
  lt_length := Nat.lt_succ_self 1
  isCctor_iff := by
    intro i g hg hi
    match i with
    | 1 =>
      obtain rfl := some.inj hg
      exact ⟨fun _ => rfl, fun _ => rfl⟩
    | i + 2 => cases hg
  unhandled := rfl

end

theorem initializerFailed_wrapped : HandsDown libraryHost (initializerFailed .object) 1 (some 2) :=
  (handsDown_iff_caughtBelow (initializerFailed_leaves .object) (some 2)).mpr (.inl (by decide))

/-- The user catches a `TypeInitializationException`, yet the exception thrown in the constructor
ends the thread. -/
theorem type_initialization_catch_passed_over :
    LeavesConstructor libraryHost (initializerFailed .typeInitialization)
        ⟨some 1, .startOf 1, none⟩ 0 1 ∧
      decision libraryHost (some 2)
        (clausesBelow (initializerFailed .typeInitialization).frames 0 1) = .catches ∧
      handleException libraryHost (initializerFailed .typeInitialization) (some (some 2)) =
        .error (.methodThrew (some 1)) ∧
      ¬ HandsDown libraryHost (initializerFailed .typeInitialization) 1 (some 2) := by
  refine ⟨initializerFailed_leaves _, by decide, rfl, ?_⟩
  rintro ⟨u, hu, -⟩
  cases hu

end DotnetVm
