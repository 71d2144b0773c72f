import DotnetVm.Exceptions.Candidates
import DotnetVm.Exceptions.FilterExit

/-!
# The first pass through its filters

A filter interrupts the search for a handler, and its `endfilter` resumes the
search behind the filter. As long as no filter throws or starts an unwind of its
own, the pass selects what one scan of the candidates with the filters' answers
selects. A `leave` in a method that a filter calls makes the engine forget the
search.
-/

namespace DotnetVm

open Bool List

variable {Ty : Type} {host : Host Ty} {s t w : ThreadContext Ty} {frames : List (StackFrame Ty)}
  {x : ObjectRef} {cursor : HandlerAddress}

section

variable (host : Host Ty) (x : ObjectRef) (answers : HandlerAddress → Int)

/-- What a candidate says to the exception, a filter by the value its clause returns. -/
def judge (c : PlacedHandler Ty) : Verdict :=
  match c.2.kind.verdict host x with
  | .filters => if answers c.1 = 1 then .catches else .passes
  | v => v

def firstDecisive (cs : List (PlacedHandler Ty)) : Option (PlacedHandler Ty) :=
  cs.find? fun c => decide (judge host x answers c ≠ .passes)

def Settles (cs : List (PlacedHandler Ty)) (r : Except Stop (ThreadContext Ty)) : Prop :=
  match firstDecisive host x answers cs with
  | none => r = .error (.methodThrew x)
  | some c =>
    if judge host x answers c = .catches then
      ∃ t u, r = .ok t ∧ t.exceptionMode = .unwinding u ∧ u.exception = some x ∧
        u.target = .handler c.1
    else ∃ e, r = .error (.error e)

end

/-- What the engine reads of a frame. -/
def StackFrame.view (f : StackFrame Ty) : Nat × MethodInfo Ty × BasePointer :=
  (f.ip, f.info, f.base)

lemma candidates_congr {frames' : List (StackFrame Ty)}
    (h : frames'.map StackFrame.view = frames.map StackFrame.view) :
    candidates frames' = candidates frames := by
  have hfr : ∀ n, placedInFrame frames' n = placedInFrame frames n := by
    intro n
    have hview : ∀ fs : List (StackFrame Ty), placedInFrame fs n =
        ((fs.map StackFrame.view)[n]?.map fun v =>
          placedSections n v.1 0 v.2.1.exceptions).getD [] := by
      intro fs
      simp only [getElem?_map, Option.map_map]
      rfl
    rw [hview, hview, h]
  have hbel : ∀ k, placedBelow frames' k = placedBelow frames k := by
    intro k
    induction k with
    | zero => rfl
    | succ k ih => rw [placedBelow, placedBelow, hfr, ih]
  have hlen : frames'.length = frames.length := by simpa using congrArg List.length h
  rw [candidates, candidates, hlen, hbel]

def OpResult.isRaise : OpResult Ty → Bool
  | .raise _ => true
  | _ => false

def carriesOn (f : StackFrame Ty) (e : Effects Ty) : Bool :=
  !e.result.isRaise && (f.multicastState.isSome ||
    match f.info.instructions[f.ip]? with
    | some (.leave _) | some .throw | some .rethrow | some .endFilter => false
    | some .ret => !hasFinallyBlocks f.info f.ip
    | _ => true)

/-- The steps of a filter clause, and of the methods it calls, up to its `endfilter`. -/
def Evaluating (s : ThreadContext Ty) (ev : Event Ty) : Prop :=
  Balanced s ev ∧ match ev with
    | .dispatch e => ∀ f ∈ s.frames.getLast?, carriesOn f e = true
    | .finalizer _ _ | .resume => True

instance [DecidableEq Ty] (s : ThreadContext Ty) (ev : Event Ty) : Decidable (Evaluating s ev) :=
  match ev with
  | .dispatch _ => inferInstanceAs (Decidable (_ ∧ ∀ _ ∈ _, _))
  | .finalizer _ _ | .resume => inferInstanceAs (Decidable (_ ∧ True))

variable {init : List (StackFrame Ty)} {f : StackFrame Ty}

lemma OpMove.quiet_of_not_raise {g : StackFrame Ty}
    {result : OpResult Ty} (hr : result.isRaise = false) (h : OpMove init f g result s t) :
    Quiet s t := by
  cases h with
  | moved ip g' _ hq _ _ => exact hq
  | raised x w hx _ _ => rw [hx] at hr; cases hr
  | called hc => exact hc.1
  | replaced _ hrep => exact hrep.1

variable {state : FilterState}

lemma NormalStep.mode_of_carriesOn {e : Effects Ty} (hs : s.frames = init ++ [f])
    (hc : carriesOn f e = true) (hm : s.exceptionMode = .filtering state)
    (h : NormalStep f e s t) : t.exceptionMode = .filtering state := by
  have hraise : e.result.isRaise = false := by
    simp only [carriesOn, and_eq_true, not_eq_true'] at hc
    exact hc.1
  have hsnaps : (snapshot s f).frames = init ++ [f] := hs
  cases h with
  | endFinally u _ hu _ => rw [hm] at hu; cases hu
  | leave _ hi _ | endFilter _ _ hi _ _ | throw _ _ hi _ _ | rethrow _ _ hi _ _ =>
    simp [carriesOn, hi.1, hi.2] at hc
  | retUnwind u hi hu _ =>
    have hblocks : hasFinallyBlocks f.info f.ip = false := by
      simpa [carriesOn, hi.1, hi.2, hraise] using hc
    cases hu with
    | handler state' hst _ => rw [hm] at hst; cases hst
    | tryBlock hb _ => rw [hblocks] at hb; cases hb
  | retReturn _ _ _ h => exact ((snapshot_quiet s f).trans (handleReturn_quiet h)).mode.trans hm
  | op _ h =>
    have hmove := runOp_cases hsnaps rfl h
    exact ((snapshot_quiet s f).trans (hmove.quiet_of_not_raise hraise)).mode.trans hm
  | multicast st target w _ hd h =>
    obtain ⟨g, hqt, hmove⟩ := multicast_moves hs hd h
    exact (hqt.trans (hmove.quiet_of_not_raise hraise)).mode.trans hm
  | multicastReturn st _ h => exact (handleReturn_quiet h).mode.trans hm

/-- A filter entered from `entry` is running. -/
structure InFilter (state : FilterState) (entry s : ThreadContext Ty) : Prop where
  tiling : TilingInvariant s
  mode : s.exceptionMode = .filtering state
  intact : Intact state entry s

variable {entry : ThreadContext Ty}

lemma InFilter.step {ev : Event Ty}
    (hi : InFilter state entry s) (hok : Evaluating s ev) (hst : step host s ev = .ok t) :
    InFilter state entry t := by
  have htiling := tilingInvariant_step hi.tiling hok.1 hst
  obtain ⟨g, hg, _⟩ := hi.tiling.suspended state hi.mode
  have hlt := (List.getElem?_eq_some_iff.mp hg).1
  have hcase := step_cases hi.tiling.nested.mode hst
  cases hcase with
  | normal e init f hm hs h =>
    have hc : carriesOn f e = true := hok.2 f (by simp [hs])
    have hmd := h.mode_of_carriesOn hs hc hi.mode
    have hend : ¬ Executes f .endFilter := by
      intro hexec
      simp [carriesOn, hexec.1, hexec.2] at hc
    have hle := le_of_lt_concat hs hlt
    obtain ⟨hq, hsurv⟩ := (h.keeps hi.tiling.tiled hs (hok.1.instruction hm hs) hend).filter state
      hi.mode hle (by rw [hmd]; rfl)
    exact ⟨htiling, hmd, hi.intact.survives hq hsurv⟩
  | throwing _ _ _ hm _ | accepted _ _ _ hm _ _ | filter _ _ _ _ _ _ _ hm _ _ _ _ _
  | unwound _ _ hm _ | returned _ _ _ hm _ _ _ => rw [hi.mode] at hm; cases hm
  | interposed info this init f hs hst h =>
    obtain ⟨_, hbel⟩ := interposeFinalizer_tiled hi.tiling.tiled hs hst
    have hsurv := h.survives hi.tiling.tiled hs hbel (le_of_lt_concat hs hlt)
    exact ⟨htiling, h.1.mode.trans hi.mode, hi.intact.survives h.1 hsurv⟩
  | deferred info this h =>
    subst h
    exact hi
  | resume k hk h =>
    subst h
    refine ⟨htiling, hi.mode, hi.intact.survives ⟨rfl, hk, rfl, rfl⟩ ?_⟩
    exact ⟨rfl, fun g hg => ⟨g, g.ip, hg, SameFrame.refl g⟩, fun _ _ => rfl⟩

lemma InFilter.run (hi : InFilter state entry s)
    (hrun : Runs.Run (next host) Evaluating s t) : InFilter state entry t :=
  Runs.Run.invariant
    (fun _ _ _ hi hok hs => hi.step hok (next_eq_some.mp hs)) hrun hi

lemma Intact.views_eq (hi : Intact state entry w) (hs : w.frames = init ++ [f])
    (hidx : state.handler.frameIndex = init.length) :
    (init ++ filteredFrame state { f with stackHeight := 0 } :: w.suspendedFrames).map
        StackFrame.view = entry.frames.map StackFrame.view := by
  obtain ⟨g₀, g, ip, hg₀, hg, hsm, hip, _⟩ := hi.exists_frame
  obtain rfl : f = g := by
    rw [hs, hidx] at hg
    simpa using hg
  obtain ⟨low, high, hent, hlow⟩ := exists_split hg₀
  have hlower : init = low := by
    have htake := hi.lower
    rw [hs, hent, hidx, take_left] at htake
    rw [← hidx, ← hlow, take_left] at htake
    exact htake
  have hupper : w.suspendedFrames = high := by
    rw [hi.suspendedFrames, hent, ← hlow, append_cons]
    exact drop_left' (by simp)
  have hinfo : f.info = g₀.info := hsm.info
  have hbase : f.base = g₀.base := hsm.base
  rw [hlower, hupper, hent]
  simp [StackFrame.view, filteredFrame, hinfo, hbase, hip]

/-- The filter that runs in `w` ends there and returns `result`. -/
structure EndsWith (host : Host Ty) (w : ThreadContext Ty) (result : Int)
    (s' : ThreadContext Ty) : Prop where
  exists_end : ∃ e init f, w.frames = init ++ [f] ∧ Executes f .endFilter ∧
    Balanced w (.dispatch e) ∧ w.stack.getLast? = some (.int32 result) ∧
    step host w (.dispatch e) = .ok s'

lemma InFilter.ends {result : Int} (hi : InFilter state entry w) (hend : EndsWith host w result t) :
    TilingInvariant t ∧ t.frames.map StackFrame.view = entry.frames.map StackFrame.view ∧
      t.exceptionMode =
        if result = 1 then .unwinding (unwindToHandler t state.exception state.handler)
        else .searching ⟨state.exception, state.handler.nextHandler, none⟩ := by
  obtain ⟨e, init, f, hs, hexec, hbal, htop, hst⟩ := hend.exists_end
  have hnorm : w.exceptionMode.isNormal = true := by rw [hi.mode]; rfl
  have hends : state.handler.frameIndex + 1 = w.frames.length ∧ f.stackHeight = 1 := by
    have hb := hbal.instruction hnorm hs
    simpa only [BalancedInstruction, hexec.1, hexec.2, EndsFilter, hi.mode] using hb
  have hidx : state.handler.frameIndex = init.length := by simpa [hs] using hends.1
  obtain ⟨t', hst', hfs, _, hmd⟩ :=
    step_endFilter_eq host hs hexec hi.mode hidx hends.2 htop e
  obtain rfl : t' = t := Except.ok.inj (hst'.symm.trans hst)
  refine ⟨tilingInvariant_step hi.tiling hbal hst, ?_, hmd⟩
  rw [hfs]
  exact hi.intact.views_eq hs hidx
section Decisive

variable (answers : HandlerAddress → Int) {before : List (PlacedHandler Ty)} {c : PlacedHandler Ty}

lemma firstDecisive_of_passes {cs : List (PlacedHandler Ty)}
    (h : ∀ c ∈ cs, c.2.kind.verdict host x = .passes) : firstDecisive host x answers cs = none := by
  refine find?_eq_none.mpr fun c hc => ?_
  simp [judge, h c hc]

lemma firstDecisive_skip (c : PlacedHandler Ty) (after : List (PlacedHandler Ty))
    (h : ∀ d ∈ before, d.2.kind.verdict host x = .passes) :
    firstDecisive host x answers (before ++ c :: after) =
      if judge host x answers c = .passes then firstDecisive host x answers after else some c := by
  have hbef := firstDecisive_of_passes answers h
  unfold firstDecisive at hbef ⊢
  rw [find?_append, hbef]
  by_cases hc : judge host x answers c = .passes <;> simp [hc]

end Decisive

inductive FirstPass (host : Host Ty) : ThreadContext Ty → SearchState →
    List (HandlerAddress × Int) → Except Stop (ThreadContext Ty) → Prop
  | stopped {s state e} (h : searchForHandler host s state = .error e) :
      FirstPass host s state [] (.error e)
  | caught {s state sig t u} (h : searchForHandler host s state = .ok (sig, t))
      (hu : t.exceptionMode = .unwinding u) : FirstPass host s state [] (.ok t)
  | accepted {s state sig t f w result s' u} (h : searchForHandler host s state = .ok (sig, t))
      (hf : t.exceptionMode = .filtering f) (hrun : Runs.Run (next host) Evaluating t w)
      (hend : EndsWith host w result s') (hu : s'.exceptionMode = .unwinding u) :
      FirstPass host s state [(f.handler, result)] (.ok s')
  | rejected {s state sig t f w result s' state' evaluated r}
      (h : searchForHandler host s state = .ok (sig, t))
      (hf : t.exceptionMode = .filtering f) (hrun : Runs.Run (next host) Evaluating t w)
      (hend : EndsWith host w result s') (hs' : s'.exceptionMode = .searching state')
      (hrest : FirstPass host s' state' evaluated r) :
      FirstPass host s state ((f.handler, result) :: evaluated) r

/-- Where a search stands: in a well-formed stack, at a frame, outside any nested filter. -/
structure Searches (s : ThreadContext Ty) (state : SearchState) : Prop where
  tiling : TilingInvariant s
  mode : s.exceptionMode = .searching state
  cursor : state.cursor.frameIndex < s.frames.length
  nested : state.nestedFilter = none

lemma Tiled.base_le_length {i : Nat} (ht : Tiled s)
    (hf : s.frames[i]? = some f) : f.base.stack ≤ s.stack.length := by
  obtain ⟨low, high, hs, _⟩ := exists_split hf
  have hfs := ht.frames
  have hlen := ht.length
  simp only [hs, Tiling.tiles_append] at hfs
  have hle := boundary_le hfs.2.2
  simp only [hs, frameEnd, Tiling.endOf_append, Tiling.endOf_cons] at hle hlen
  simp only [StackFrame.boundary, StackFrame.top] at hle hlen
  omega

lemma Searches.enters {state : SearchState} {sig : Signal} {f : FilterState}
    (hs : Searches s state) (h : searchForHandler host s state = .ok (sig, t))
    (hf : t.exceptionMode = .filtering f) :
    InFilter f s t ∧ f.exception = state.exception ∧ f.handler.frameIndex < s.frames.length ∧
      ∃ clauseOffset, searchFrames host s.frames state.exception state.cursor 0
        state.cursor.frameIndex = .ok (some (.filter f.handler clauseOffset)) := by
  have hst : step host s (.dispatch {}) = .ok t := by
    obtain ⟨rfl, _⟩ := searchForHandler_cases hs.nested h
    simp [step, hs.mode, handleException, h,
      followSignal]
  have htiling := tilingInvariant_step hs.tiling (by simp [Balanced, hs.mode]) hst
  obtain ⟨_, ⟨addr, _, rfl⟩ | ⟨addr, offset, hfnd, low, frame, high, hspl, hlow, hbase, rfl⟩⟩ :=
    searchForHandler_cases hs.nested h
  · cases hf
  · have hintact := filterEntered_intact hs.tiling.tiled hspl hlow hbase hf
    have hmd := hf
    obtain rfl := ExceptionState.filtering.inj hf
    refine ⟨⟨htiling, hmd, hintact⟩, rfl, ?_, offset, hfnd⟩
    simp [hspl, ← hlow]

lemma Searches.filter_split {state : SearchState} {addr : HandlerAddress} {clauseOffset : Nat}
    (hs : Searches s state)
    (h : searchFrames host s.frames state.exception state.cursor 0 state.cursor.frameIndex =
      .ok (some (.filter addr clauseOffset))) :
    ∃ before c after, (candidates s.frames).filter (fun c => state.cursor.reaches c.1) =
        before ++ c :: after ∧ c.1 = addr ∧
      (∀ d ∈ before, d.2.kind.verdict host state.exception = .passes) ∧
      c.2.kind.verdict host state.exception = .filters := by
  obtain ⟨hno, _⟩ | ⟨before, c, after, hspl, hbef, hcase⟩ :=
    searchFrames_cases host state.exception hs.cursor
  · rw [hno] at h
    cases h
  · rw [h] at hcase
    obtain ⟨_, hcatch⟩ | ⟨hv, offset, hfilt⟩ | ⟨_, e, hfail⟩ := hcase
    · cases hcatch
    · cases hfilt
      exact ⟨before, c, after, hspl, rfl, hbef, hv⟩
    · cases hfail

section Settling

variable {answers : HandlerAddress → Int} {state : SearchState}

lemma Searches.settles_of_error {e : Stop} (hs : Searches s state)
    (h : searchForHandler host s state = .error e) :
    Settles host state.exception answers
      ((candidates s.frames).filter fun c => state.cursor.reaches c.1) (.error e) := by
  simp only [searchForHandler, stopFrame, hs.nested] at h
  obtain ⟨hno, hall⟩ | ⟨before, c, after, hspl, hbef, hcase⟩ :=
    searchFrames_cases host state.exception hs.cursor
  · simp only [hno] at h
    simp only [Settles, firstDecisive_of_passes answers hall]
    exact congrArg Except.error (Except.error.inj h).symm
  · have hdec := firstDecisive_skip answers c after hbef
    obtain ⟨_, hcatch⟩ | ⟨_, offset, hfilt⟩ | ⟨hv, e', hfail⟩ := hcase
    · simp only [hcatch] at h
      cases h
    · -- a filter is entered, its frame being one of a well-formed stack
      simp only [hfilt] at h
      have hmem : c ∈ candidates s.frames := by
        have hc : c ∈ (candidates s.frames).filter fun d => state.cursor.reaches d.1 := by
          simp [hspl]
        exact (mem_filter.mp hc).1
      obtain ⟨frame, _, hfr, _⟩ := mem_candidates.mp hmem
      have hbase := hs.tiling.tiled.base_le_length hfr
      simp only [enterFilter, hfr, if_neg (not_lt.mpr hbase)] at h
      cases h
    · simp only [hfail] at h
      have hjudge : judge host state.exception answers c = .fails := by simp [judge, hv]
      rw [hspl]
      simp only [Settles, hdec, hjudge, reduceCtorEq, if_false]
      exact ⟨e', congrArg Except.error (Except.error.inj h).symm⟩

lemma Searches.settles_of_caught {sig : Signal} {u : UnwindState} (hs : Searches s state)
    (h : searchForHandler host s state = .ok (sig, t)) (hu : t.exceptionMode = .unwinding u) :
    Settles host state.exception answers
      ((candidates s.frames).filter fun c => state.cursor.reaches c.1) (.ok t) := by
  obtain ⟨_, ⟨addr, hfnd, rfl⟩ | ⟨addr, offset, _, low, frame, high, _, _, _, rfl⟩⟩ :=
    searchForHandler_cases hs.nested h
  · obtain ⟨hno, _⟩ | ⟨before, c, after, hspl, hbef, hcase⟩ :=
      searchFrames_cases host state.exception hs.cursor
    · rw [hno] at hfnd
      cases hfnd
    · rw [hfnd] at hcase
      obtain ⟨hv, hcatch⟩ | ⟨_, offset, hfilt⟩ | ⟨_, e, hfail⟩ := hcase
      · cases hcatch
        have hjudge : judge host state.exception answers c = .catches := by simp [judge, hv]
        have hdec := firstDecisive_skip answers c after hbef
        rw [hspl]
        simp only [Settles, hdec, hjudge, reduceCtorEq, if_false]
        exact ⟨_, _, rfl, rfl, rfl, rfl⟩
      · cases hfilt
      · cases hfail
  · cases hu

lemma FirstPass.settles {evaluated : List (HandlerAddress × Int)}
    {r : Except Stop (ThreadContext Ty)} (hpass : FirstPass host s state evaluated r)
    (hs : Searches s state) (hans : ∀ p ∈ evaluated, answers p.1 = p.2) :
    Settles host state.exception answers
      ((candidates s.frames).filter fun c => state.cursor.reaches c.1) r := by
  induction hpass with
  | stopped h => exact hs.settles_of_error h
  | caught h hu => exact hs.settles_of_caught h hu
  | @accepted s state sig t f w result s' u h hf hrun hend hu =>
    obtain ⟨hin, hx, _, offset, hfnd⟩ := hs.enters h hf
    obtain ⟨before, c, after, hspl, haddr, hbef, hv⟩ := hs.filter_split hfnd
    obtain ⟨_, _, hmd⟩ := (hin.run hrun).ends hend
    have hone : answers c.1 = 1 := by
      rw [haddr, hans _ (mem_singleton_self _)]
      by_contra hne
      rw [if_neg hne, hu] at hmd
      cases hmd
    have hjudge : judge host state.exception answers c = .catches := by simp [judge, hv, hone]
    have hdec := firstDecisive_skip answers c after hbef
    rw [hspl]
    simp only [Settles, hdec, hjudge, reduceCtorEq, if_false]
    have hres := hans _ (mem_singleton_self _)
    rw [← haddr, hone] at hres
    rw [if_pos hres.symm] at hmd
    exact ⟨_, _, rfl, hmd, by rw [hx]; rfl, by rw [haddr]; rfl⟩
  | @rejected s state sig t f w result s' state' evaluated r h hf hrun hend hs' _ ih =>
    obtain ⟨hin, hx, hlt, offset, hfnd⟩ := hs.enters h hf
    obtain ⟨before, c, after, hspl, haddr, hbef, hv⟩ := hs.filter_split hfnd
    obtain ⟨htiling, hview, hmd⟩ := (hin.run hrun).ends hend
    have hres := hans _ mem_cons_self
    have hne : answers c.1 ≠ 1 := by
      intro hone
      rw [haddr, hres] at hone
      rw [if_pos hone, hs'] at hmd
      cases hmd
    rw [haddr, hres] at hne
    rw [if_neg hne, hs'] at hmd
    obtain rfl := ExceptionState.searching.inj hmd
    have hlen := congrArg List.length hview
    simp only [length_map] at hlen
    have hnext : Searches _ _ := ⟨htiling, hs', by
      rw [hlen]
      exact hlt, rfl⟩
    have hrest := ih hnext fun p hp => hans p (mem_cons_of_mem _ hp)
    have hjudge : judge host state.exception answers c = .passes := by
      simp only [judge, hv]
      rw [haddr, hres, if_neg hne]
    have hdec := firstDecisive_skip answers c after hbef
    rw [if_pos hjudge] at hdec
    rw [candidates_congr hview, ← haddr, filter_reaches_next hspl, hx] at hrest
    rw [hspl]
    simpa only [Settles, hdec] using hrest

end Settling

lemma beginThrowing_searches {p : Bool} (ht : TilingInvariant s)
    (hm : s.exceptionMode = .throwing x p) (hfs : s.frames ≠ [])
    (hst : step host s (.dispatch {}) = .ok t) :
    ∃ state, Searches t state ∧ state.exception = x ∧ t.frames = s.frames ∧
      (candidates t.frames).filter (fun c => state.cursor.reaches c.1) = candidates s.frames := by
  have htiling := tilingInvariant_step ht (by simp [Balanced, hm]) hst
  have hcase := step_cases ht.nested.mode hst
  have hpos : 0 < s.frames.length := length_pos_iff.mpr hfs
  have hreach : (candidates s.frames).filter
      (fun c => (HandlerAddress.startOf (s.frames.length - 1)).reaches c.1) =
      candidates s.frames := by
    refine filter_eq_self.mpr fun c hc => ?_
    obtain ⟨f, _, hf, _⟩ := mem_candidates.mp hc
    have hlt := (List.getElem?_eq_some_iff.mp hf).1
    rw [HandlerAddress.reaches_iff]
    unfold HandlerAddress.Precedes HandlerAddress.startOf
    dsimp only
    omega
  cases hcase with
  | throwing e y q hy h =>
    rw [hm] at hy
    cases hy
    subst h
    have hcur : s.frames.length - 1 < s.frames.length := by omega
    exact ⟨_, ⟨htiling, rfl, hcur, rfl⟩, rfl, rfl, hreach⟩
  | normal _ _ _ hoth _ _ | accepted _ _ _ hoth _ _ | filter _ _ _ _ _ _ _ hoth _ _ _ _ _
  | unwound _ _ hoth _ | returned _ _ _ hoth _ _ _ => rw [hm] at hoth; cases hoth

/-- The first pass over the exception that was thrown in `s`. It looks at the handlers of the
sections that protect a frame's instruction, frames from the top. If no filter throws or starts an
unwind, it ends with the first of these handlers that accepts the exception: a catch by its type, a
filter by its value 1. -/
theorem first_pass_selects_first (host : Host Ty) (s t : ThreadContext Ty)
    (x : ObjectRef) (p : Bool)
    (ht : TilingInvariant s) (hm : s.exceptionMode = .throwing x p) (hframes : s.frames ≠ [])
    (hstep : step host s (.dispatch {}) = .ok t) :
    (∀ c, c ∈ candidates s.frames ↔ ∃ f q, s.frames[c.1.frameIndex]? = some f ∧
      f.info.exceptions[c.1.sectionIndex]? = some q ∧ q.instructions.contains f.ip = true ∧
        q.handlers[c.1.handlerIndex]? = some c.2) ∧
    ((candidates s.frames).Pairwise fun a b => a.1.Precedes b.1) ∧
    ((candidates s.frames).map Prod.fst).Nodup ∧
    ∃ state, t.exceptionMode = .searching state ∧
      ∀ evaluated r answers, FirstPass host t state evaluated r →
        (∀ q ∈ evaluated, answers q.1 = q.2) → Settles host x answers (candidates s.frames) r := by
  obtain ⟨state, hs, rfl, _, hall⟩ := beginThrowing_searches ht hm hframes hstep
  refine ⟨fun c => mem_candidates, pairwise_candidates s.frames, nodup_candidates s.frames, state,
    hs.mode, ?_⟩
  intro evaluated r answers hpass hans
  rw [← hall]
  exact hpass.settles hs hans

def filterThenCatch : MethodInfo Unit where
  instructions := [.op, .op, .op, .endFilter, .leave (.short 6), .leave (.short 6), .ret]
  exceptions := [⟨⟨0, 1⟩, [⟨⟨4, 5⟩, .filterClause 1⟩, ⟨⟨5, 6⟩, .catchClause ()⟩]⟩]

/-- The exception has been thrown. -/
def filterThenCatchThrown : ThreadContext Unit :=
  { entrypoint filterThenCatch [] with
    exceptionMode := .throwing (some 1) false }

lemma tilingInvariant_filterThenCatchThrown : TilingInvariant filterThenCatchThrown := by
  have hrun : Runs.Run (next unitHost) Balanced (entrypoint filterThenCatch [])
      filterThenCatchThrown :=
    Runs.Run.of_exec [.dispatch { result := .raise (some 1) }] (by decide) rfl
  exact TilingInvariant.run hrun

/-- The search for its handler begins. -/
def filterThenCatchSearching : ThreadContext Unit :=
  { filterThenCatchThrown with
    exceptionMode := .searching ⟨some 1, ⟨0, 0, 0⟩, none⟩ }

/-- Its filter is entered. -/
def filterThenCatchFiltering : ThreadContext Unit :=
  { filterThenCatchThrown with
    stack := [.objectRef (some 1)]
    frames := [{ StackFrame.new ⟨0, 0, 0⟩ filterThenCatch with
      ip := 1, stackHeight := 1, exceptionStack := [some 1] }]
    exceptionMode := .filtering ⟨some 1, ⟨0, 0, 0⟩, 0, 0⟩ }

/-- The filter is about to return 0. -/
def filterThenCatchEnding : ThreadContext Unit :=
  { filterThenCatchFiltering with
    stack := [.int32 0]
    frames := [{ StackFrame.new ⟨0, 0, 0⟩ filterThenCatch with
      ip := 3, stackHeight := 1, exceptionStack := [some 1] }]
    originalIp := 2
    originalStackHeight := 1 }

lemma filterThenCatch_evaluated :
    Runs.Run (next unitHost) Evaluating filterThenCatchFiltering filterThenCatchEnding :=
  Runs.Run.of_exec [.dispatch {}, .dispatch { ops := [.pop, .push (.int32 0)] }] (by decide) rfl

lemma filterThenCatch_ends :
    EndsWith unitHost filterThenCatchEnding 0 { filterThenCatchThrown with
      exceptionMode := .searching ⟨some 1, ⟨0, 0, 1⟩, none⟩
      originalIp := 3
      originalStackHeight := 1 } :=
  ⟨{}, [], _, rfl, ⟨rfl, rfl⟩, by decide, rfl, rfl⟩

/-- The filter returns 0, and the catch behind it is selected. -/
theorem filterThenCatch_selects : ∃ s', FirstPass unitHost filterThenCatchSearching
      ⟨some 1, ⟨0, 0, 0⟩, none⟩ [(⟨0, 0, 0⟩, 0)] (.ok s') ∧
    Settles unitHost (some 1) (fun _ => 0) (candidates filterThenCatchThrown.frames) (.ok s') := by
  have hpass : FirstPass unitHost filterThenCatchSearching ⟨some 1, ⟨0, 0, 0⟩, none⟩
      [(⟨0, 0, 0⟩, 0)] _ :=
    FirstPass.rejected rfl rfl
      filterThenCatch_evaluated filterThenCatch_ends rfl (FirstPass.caught rfl rfl)
  obtain ⟨_, _, _, state, hst, hsettles⟩ := first_pass_selects_first unitHost filterThenCatchThrown
    filterThenCatchSearching (some 1) false tilingInvariant_filterThenCatchThrown rfl
      (by decide) rfl
  obtain rfl := ExceptionState.searching.inj hst
  exact ⟨_, hpass, hsettles _ _ (fun _ => 0) hpass (by simp)⟩

def disposingCallee : MethodInfo Unit where
  instructions := [.leave (.short 2), .endFinally, .ret]
  exceptions := [⟨⟨0, 1⟩, [⟨⟨1, 2⟩, .finallyClause⟩]⟩]

/-- The method the filter calls leaves a try block. The mode of the filter is lost by then: its
`endfilter` is rejected, and the catch that one scan selects is never looked at. -/
theorem leave_in_filter_ends_search : ∃ w f,
    step unitHost filterThenCatchThrown (.dispatch {}) = .ok filterThenCatchSearching ∧
      Runs.exec (next unitHost) filterThenCatchSearching [.dispatch {},
        .dispatch { result := .call disposingCallee none }, .dispatch {}, .dispatch {},
          .dispatch {},
        .dispatch {}, .dispatch {}, .dispatch { ops := [.pop, .push (.int32 0)] }] = some w ∧
      w.frames = [f] ∧ Executes f .endFilter ∧ w.stack.getLast? = some (.int32 0) ∧
      step unitHost w (.dispatch {}) =
        .error (.error (.invalidCil "EndFilter called but not in Filtering mode")) ∧
      firstDecisive unitHost (some 1) (fun _ => 0) (candidates filterThenCatchSearching.frames) =
        some (⟨0, 0, 1⟩, ⟨⟨5, 6⟩, .catchClause ()⟩) :=
  ⟨_, _, rfl, rfl, rfl, ⟨rfl, rfl⟩, rfl, rfl, rfl⟩

end DotnetVm
