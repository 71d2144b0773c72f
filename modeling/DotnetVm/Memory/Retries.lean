import DotnetVm.Memory.Blocks

/-!
# Retried instructions

An instruction that is never asked to stop does the same as without any
polling. One that is asked to stop loses the operands it has popped: its retry
takes those below them, or finds none. Intrinsics that only look at their
operands until the end can be retried any number of times.
-/

namespace DotnetVm.SafePoints

variable {R : Type} {h : Handler} {stops : Nat → Bool} {p : Nat} {s : State R}

namespace Handler

lemma length_result (storage : Storage) :
    (h.result.map (· storage)).toList.length = h.result.toList.length := by
  cases h.result <;> rfl

variable {rest : List Operand}

lemma plan_error {ops : List Operand} {e : Fault} (hplan : h.plan ops = (.error e, rest)) :
    (ops = [] ∧ e = .stackUnderflow) ∨ rest.length < ops.length := by
  cases ops with
  | nil =>
    left
    exact ⟨rfl, (Except.error.inj (Prod.mk.inj hplan).1).symm⟩
  | cons v ops =>
    right
    have hle := (h.takes v ops).2
    have hact : h.act v ops = (.error e, rest) := hplan
    rw [hact] at hle
    exact Nat.lt_succ_of_le hle

lemma plan_ok {ops : List Operand} {pieces : Plan} (hplan : h.plan ops = (.ok pieces, rest)) :
    rest.length + (1 + h.more) = ops.length :=
  (Pops.takes_popSafe.bind h.takes ops).1 _ _ hplan

lemma dispatch_height (hne : (h.dispatch stops p s).1 ≠ .yielded) :
    (h.dispatch stops p s).1 = .faulted .stackUnderflow ∨
      (h.dispatch stops p s).2.1.operands.length +
        (if (h.dispatch stops p s).1 = .completed then 0 else h.result.toList.length) <
      s.operands.length + h.result.toList.length := by
  rcases hplan : h.plan s.operands with ⟨e | pieces, rest⟩
  · simp only [dispatch, hplan]
    rcases plan_error hplan with ⟨_, rfl⟩ | hlt
    · exact .inl rfl
    · right
      simpa using hlt
  · have hlen := plan_ok hplan
    simp only [dispatch, hplan] at hne ⊢
    rcases hwork : Polling.work stops p pieces s.storage with ⟨_ | e | _, storage, q⟩
    · simp only [List.length_append, length_result, if_true]
      omega
    · simp
      omega
    · rw [hwork] at hne
      exact absurd rfl hne

lemma dispatch_yielded_lt (hy : (h.dispatch stops p s).1 = .yielded) :
    (h.dispatch stops p s).2.1.operands.length < s.operands.length := by
  rcases hplan : h.plan s.operands with ⟨e | pieces, rest⟩
  · simp [dispatch, hplan] at hy
  · have hlen := plan_ok hplan
    simp only [dispatch, hplan] at hy ⊢
    rcases hwork : Polling.work stops p pieces s.storage with ⟨_ | e | _, storage, q⟩
    · simp [hwork] at hy
    · simp [hwork] at hy
    · simp only
      omega

lemma dispatch_yielded_iff : (h.dispatch stops 0 s).1 = .yielded ↔ ¬ h.Unstopped stops s := by
  simp only [Unstopped]
  rcases hplan : h.plan s.operands with ⟨e | pieces, rest⟩
  · simp [dispatch, hplan]
  · simp only [dispatch, hplan]
    rw [← Polling.work_paused_iff]
    rcases Polling.work stops 0 pieces s.storage with ⟨_ | e | _, storage, q⟩ <;> simp

variable {fuel : Nat}

lemma retry_of_not_yielded (hne : (h.dispatch stops p s).1 ≠ .yielded) :
    h.retry stops (fuel + 1) p s = ((h.dispatch stops p s).1, (h.dispatch stops p s).2.1) := by
  rw [retry]
  rcases hd : h.dispatch stops p s with ⟨o, t, q⟩
  rw [hd] at hne
  cases o with
  | completed => rfl
  | faulted f => rfl
  | yielded => exact absurd rfl hne

lemma retry_of_yielded {q : Nat} {t : State R} (hd : h.dispatch stops p s = (.yielded, t, q)) :
    h.retry stops (fuel + 1) p s = h.retry stops fuel q t := by
  rw [retry, hd]

lemma retry_ends (stops : Nat → Bool) (p : Nat) (hfuel : s.operands.length < fuel) :
    (h.retry stops fuel p s).1 ≠ .yielded ∧ ((h.retry stops fuel p s).1 = .faulted .stackUnderflow ∨
        (h.retry stops fuel p s).2.operands.length +
          (if (h.retry stops fuel p s).1 = .completed then 0 else h.result.toList.length) <
        s.operands.length + h.result.toList.length) := by
  induction fuel generalizing p s with
  | zero => omega
  | succ fuel ih =>
    by_cases hy : (h.dispatch stops p s).1 = .yielded
    · have hlt := dispatch_yielded_lt hy
      rcases hd : h.dispatch stops p s with ⟨o, t, q⟩
      rw [hd] at hy hlt
      obtain rfl : o = .yielded := hy
      rw [retry_of_yielded hd]
      simp only at hlt
      obtain ⟨hne, hend⟩ := ih q (s := t) (by omega)
      refine ⟨hne, hend.imp_right fun hless => ?_⟩
      omega
    · rw [retry_of_not_yielded hy]
      exact ⟨hy, dispatch_height hy⟩

lemma execute_unstopped (hu : h.Unstopped stops s) : h.execute stops s = h.execute noStops s := by
  have hnever : h.Unstopped noStops s := by
    simp only [Unstopped]
    rcases h.plan s.operands with ⟨e | pieces, rest⟩
    · trivial
    · exact Polling.unstopped_never 0 pieces s.storage
  have hne : (h.dispatch stops 0 s).1 ≠ .yielded := fun hy => dispatch_yielded_iff.mp hy hu
  have hne' : (h.dispatch noStops 0 s).1 ≠ .yielded := fun hy => dispatch_yielded_iff.mp hy hnever
  rw [execute, execute, retry_of_not_yielded hne, retry_of_not_yielded hne']
  simp only [Unstopped] at hu
  rcases hplan : h.plan s.operands with ⟨e | pieces, rest⟩
  · simp only [dispatch, hplan]
  · simp only [hplan] at hu
    obtain ⟨hprog, hstor⟩ := Polling.work_unstopped hu
    simp only [dispatch, hplan]
    rcases hw : Polling.work stops 0 pieces s.storage with ⟨o, st, q⟩
    rcases hw' : Polling.work noStops 0 pieces s.storage with ⟨o', st', q'⟩
    have hw'' : Polling.work (fun _ => false) 0 pieces s.storage = (o', st', q') := hw'
    rw [hw, hw''] at hprog hstor
    subst hprog hstor
    cases o <;> rfl

lemma execute_noStops_height {pieces : Plan} (hplan : h.plan s.operands = (.ok pieces, rest)) :
    (h.execute noStops s).1 ≠ .faulted .stackUnderflow ∧ (h.execute noStops s).2.operands.length +
        (if (h.execute noStops s).1 = .completed then 0 else h.result.toList.length) =
      rest.length + h.result.toList.length := by
  have hne : (h.dispatch noStops 0 s).1 ≠ .yielded := fun hy =>
    dispatch_yielded_iff.mp hy (by
      simp only [Unstopped, hplan]
      exact Polling.unstopped_never 0 pieces s.storage)
  rw [execute, retry_of_not_yielded hne]
  simp only [dispatch, hplan] at hne ⊢
  rcases hwork : Polling.work noStops 0 pieces s.storage with ⟨_ | e | _, storage, q⟩
  · exact ⟨nofun, by simp only [List.length_append, length_result, if_true]; omega⟩
  · exact ⟨nofun, by simp⟩
  · rw [hwork] at hne
    exact absurd rfl hne

lemma execute_eq_noStops_iff : h.execute stops s = h.execute noStops s ↔ h.Unstopped stops s := by
  refine ⟨fun heq => ?_, execute_unstopped⟩
  by_contra hstop
  have hy := dispatch_yielded_iff.mpr hstop
  rcases hplan : h.plan s.operands with ⟨e | pieces, rest⟩
  · simp [dispatch, hplan] at hy
  obtain ⟨hnot, hht⟩ := execute_noStops_height hplan
  rcases hd : h.dispatch stops 0 s with ⟨o, t, q⟩
  rw [hd] at hy
  obtain rfl : o = .yielded := hy
  have hrest : t.operands = rest := by
    simp only [dispatch, hplan] at hd
    rcases hwork : Polling.work stops 0 pieces s.storage with ⟨_ | r | _, storage, q'⟩
    · simp [hwork] at hd
    · simp [hwork] at hd
    · rw [hwork] at hd
      rw [← (Prod.mk.inj (Prod.mk.inj hd).2).1]
  have hlen := plan_ok hplan
  have hretry : h.execute stops s = h.retry stops s.operands.length q t := retry_of_yielded hd
  have hfuel : t.operands.length < s.operands.length := by
    rw [hrest]
    omega
  have hends := (retry_ends (h := h) stops q hfuel).2
  rw [← hretry, heq, hrest] at hends
  rcases hends with hunder | hless
  · exact hnot hunder
  · omega

end Handler

variable {rest : List Operand}

namespace Peeker

lemma answers_of_le {requests : List Bool} {q : Nat} (h : requests.length ≤ q) :
    answers requests q = false := by
  simp [answers, List.getElem?_eq_none h]

lemma firstStop_none {n : Nat} (h : ∀ q, p ≤ q → stops q = false) : firstStop stops p n = none := by
  induction n generalizing p with
  | zero => rfl
  | succ n ih =>
    rw [firstStop, h p (le_refl p)]
    exact ih fun q hq => h q (by omega)

lemma le_of_firstStop {n q : Nat} (h : firstStop stops p n = some q) : p ≤ q := by
  induction n generalizing p with
  | zero => simp [firstStop] at h
  | succ n ih =>
    rw [firstStop] at h
    split at h
    · exact le_of_eq (Option.some.inj h)
    · have := ih h
      omega

lemma retry_eq_finish (k : Peeker R) (requests : List Bool) {fuel : Nat}
    (hfuel : requests.length < fuel + p) (hpos : 0 < fuel) :
    k.retry (answers requests) fuel p s = k.finish s := by
  induction fuel generalizing p with
  | zero => omega
  | succ fuel ih =>
    rw [retry]
    cases hstop : firstStop (answers requests) p (k.polls s) with
    | none => rfl
    | some q =>
      have hle := le_of_firstStop hstop
      by_cases hfuel' : 0 < fuel
      · exact ih (by omega) hfuel'
      · -- the last dispatch is past all requests, so that it cannot have been stopped
        have hno : firstStop (answers requests) p (k.polls s) = none :=
          firstStop_none fun q hq => answers_of_le (by omega)
        rw [hno] at hstop
        cases hstop

end Peeker

/-- No request meets an instruction that pops before it polls. -/
def Instruction.Unstopped (requests : List Bool) (s : State R) : Instruction R → Prop
  | .handler h => h.Unstopped (answers requests) s
  | .peeker _ => True
  | .other _ => True

lemma Instruction.execute_unstopped {requests : List Bool} {i : Instruction R}
    (hu : i.Unstopped requests s) : i.execute requests s = i.execute [] s := by
  cases i with
  | handler h => exact Handler.execute_unstopped hu
  | peeker k =>
    exact (k.retry_eq_finish requests (by omega) (Nat.succ_pos _)).trans
      (k.retry_eq_finish [] (by simp) (Nat.succ_pos _)).symm
  | other f => rfl

/-- No request meets an instruction that pops before it polls, at any state of the run. -/
def RunUnstopped (prog : Program R) (requests : Nat → List Bool) : Nat → Nat → State R → Prop
  | 0, _, _ => True
  | n + 1, k, s =>
    match prog.fetch s with
    | none => True
    | some i =>
      i.Unstopped (requests k) s ∧
        match i.execute (requests k) s with
        | (.completed, t) => RunUnstopped prog requests n (k + 1) t
        | (.faulted e, t) =>
          match prog.recover e t with
          | none => True
          | some t => RunUnstopped prog requests n (k + 1) t
        | (.yielded, _) => True

lemma run_unstopped {prog : Program R} {requests : Nat → List Bool} {n k : Nat}
    (hu : RunUnstopped prog requests n k s) :
    run prog requests n k s = run prog (fun _ => []) n k s := by
  induction n generalizing k s with
  | zero => rfl
  | succ n ih =>
    simp only [run, RunUnstopped] at hu ⊢
    cases hfetch : prog.fetch s with
    | none => rfl
    | some i =>
      simp only [hfetch] at hu
      obtain ⟨hi, hrest⟩ := hu
      simp only [← Instruction.execute_unstopped hi]
      rcases hex : i.execute (requests k) s with ⟨_ | e | _, t⟩
      · simp only [hex] at hrest
        exact ih hrest
      · simp only [hex] at hrest
        cases hrec : prog.recover e t with
        | none => simp only [hrec]
        | some u =>
          simp only [hrec] at hrest ⊢
          exact ih hrest
      · rfl

/-- An instruction that pops and then polls ends as without requests if and only if none meets it,
whatever the number of its retries; and a run in which none meets such an instruction ends as the
run without any requests. -/
theorem retries_invisible_iff_unstopped : (∀ (h : Handler) (stops : Nat → Bool) (s : State R),
      h.execute stops s = h.execute noStops s ↔ h.Unstopped stops s) ∧
    ∀ (prog : Program R) (requests : Nat → List Bool) (n k : Nat) (s : State R),
      RunUnstopped prog requests n k s → run prog requests n k s = run prog (fun _ => []) n k s :=
  ⟨fun _ _ _ => Handler.execute_eq_noStops_iff, fun _ _ _ _ _ => run_unstopped⟩

/-- The instructions and intrinsics over blocks. -/
def blockHandlers (host : Host) (moved : Option (Except Refusal Element))
    (filled : Except Refusal Element) : List Handler :=
  [newarr host, cpblk host, initblk host, bufferMemmove host moved, spanHelpersClear host,
    spanHelpersFill host filled]

/-- Each of them pops its operands before it polls, and so survives no request to stop. -/
theorem blockHandlers_retry_iff (host : Host) (moved : Option (Except Refusal Element))
    (filled : Except Refusal Element) : ∀ h ∈ blockHandlers host moved filled,
      ∀ (stops : Nat → Bool) (s : State R),
        h.execute stops s = h.execute noStops s ↔ h.Unstopped stops s :=
  fun _ _ _ _ => Handler.execute_eq_noStops_iff

def openHost : Host where
  retainedRange _ addr _ := .ok addr
  newVector _ := .ok ()
  writeUnaligned _ _ _ st := .ok st

def allocatingProgram : Program Unit where
  fetch s := if s.ip = 0 then some (.handler (newarr openHost)) else none
  recover _ _ := none

def allocatingState (operands : List Operand) : State Unit :=
  { ip := 0, operands := operands,
    storage := { memory := fun _ => 0, vectors := [] }, others := () }

/-- The allocation of 2000 elements polls once; without a request there, it ends as without
polls. -/
theorem large_array_unstopped :
    Polling.work (answers [true]) 0 (newarrPlan openHost 2000)
        (allocatingState [.int32 2000]).storage =
      (.paused, (allocatingState [.int32 2000]).storage, 1) ∧
    run allocatingProgram (fun _ => [false]) 1 0 (allocatingState [.int32 2000]) =
      run allocatingProgram (fun _ => []) 1 0 (allocatingState [.int32 2000]) := by
  have hu : RunUnstopped allocatingProgram (fun _ => [false]) 1 0 (allocatingState [.int32 2000]) :=
    ⟨⟨by decide, trivial⟩, trivial⟩
  exact ⟨rfl, retries_invisible_iff_unstopped.2 _ _ _ _ _ hu⟩

/-- A request during the allocation of 2000 elements. Alone on the stack, the length is gone at the
retry; above another number, the retry allocates an array of that length. -/
theorem newarr_retry_loses_length :
    (run allocatingProgram (fun _ => []) 1 0 (allocatingState [.int32 2000])).operands =
        [.objectRef (some 0)] ∧
      (run allocatingProgram (fun _ => [true]) 1 0 (allocatingState [.int32 2000])).operands = [] ∧
      ((newarr openHost).execute (answers [true]) (allocatingState [.int32 2000])).1 =
        .faulted .stackUnderflow ∧
      (run allocatingProgram (fun _ => []) 1 0
        (allocatingState [.int32 2000, .int32 7])).storage.vectors = [2000] ∧
      (run allocatingProgram (fun _ => [true]) 1 0
        (allocatingState [.int32 2000, .int32 7])).storage.vectors = [7] := by
  decide

end DotnetVm.SafePoints
