import DotnetVm.Stack.Dispatch
import DotnetVm.Stack.TailFrames

/-!
# Calls with the `tail.` prefix

A tail call should do what the call followed by `ret` does. Its dispatch is a
copy of the ordinary one that neither initializes the declaring type nor
redirects `Compile()`; apart from that, and from what depends on the caller's
frame still being there, the two start the same thing with the same arguments.
-/

namespace DotnetVm

open Bool List Vm

section

variable {M T L H Ty σ : Type} {D : Metadata M T L H Ty}
  {N : Natives M T L H Ty σ} {vm vm₁ vm₂ vm₃ : Vm M T L H Ty σ} {m : M} {lookup : L}

/-- The entry concerns the initialization of a type. -/
def Started.OfInit : Started M T L H → Prop
  | .initializer _ _ | .awaited _ _ => True
  | _ => False

/-- The entry is the start of method `m`. -/
def Started.Of (m : M) : Started M T L H → Prop
  | .initializer _ _ | .awaited _ _ => False
  | .intrinsic _ m' _ | .external m' | .provided m' _ | .body m' _ _ => m' = m

variable {e : Started M T L H}

lemma Started.Of.not_ofInit (h : e.Of m) : ¬ e.OfInit := by
  cases e <;> first | exact id | exact absurd h id

lemma Started.Of.unique {m' : M} (h : e.Of m) (h' : e.Of m') : m' = m := by
  cases e <;> first | exact h'.symm.trans h | exact absurd h id

/-- The record only grows, and while nothing is on record no frame has been pushed. The first new
entry has property `P`. -/
def LogGrows (P : Started M T L H → Prop) (vm vm' : Vm M T L H Ty σ) : Prop :=
  ∃ l, vm'.started = vm.started ++ l ∧ (l = [] → vm'.activations = vm.activations) ∧
    ∀ e ∈ l.head?, P e

variable {P : Started M T L H → Prop}

lemma LogGrows.of_eq (hs : vm₂.started = vm₁.started)
    (ha : vm₂.activations = vm₁.activations) : LogGrows P vm₁ vm₂ :=
  ⟨[], by simpa using hs, fun _ => ha, by simp⟩

lemma LogGrows.of_entry (hs : vm₂.started = vm₁.started ++ [e]) (he : P e) : LogGrows P vm₁ vm₂ :=
  ⟨[e], hs, by simp, by simpa using he⟩

lemma LogGrows.mono {Q : Started M T L H → Prop} (h : LogGrows P vm₁ vm₂)
    (hPQ : ∀ e, P e → Q e) : LogGrows Q vm₁ vm₂ :=
  let ⟨l, hs, ha, hl⟩ := h
  ⟨l, hs, ha, fun e he => hPQ e (hl e he)⟩

lemma LogGrows.trans (h₁ : LogGrows P vm₁ vm₂) (h₂ : LogGrows P vm₂ vm₃) : LogGrows P vm₁ vm₃ := by
  obtain ⟨l₁, hs₁, ha₁, hl₁⟩ := h₁
  obtain ⟨l₂, hs₂, ha₂, hl₂⟩ := h₂
  refine ⟨l₁ ++ l₂, by rw [hs₂, hs₁, append_assoc], fun hnil => ?_, fun e he => ?_⟩
  · obtain ⟨h1, h2⟩ := append_eq_nil_iff.mp hnil
    exact (ha₂ h2).trans (ha₁ h1)
  · cases l₁ with
    | nil => exact hl₂ e he
    | cons e' l₁ => exact hl₁ e he

lemma LogGrows.of_first (h : LogGrows P (vm₁.log e) vm₂) :
    ∃ l, vm₂.started = vm₁.started ++ e :: l := by
  obtain ⟨l, hs, -, -⟩ := h
  exact ⟨l, by rw [hs, Vm.log, append_assoc]; rfl⟩

lemma enterBody_logs (info : MethodInfo Ty) :
    LogGrows (Started.Of m) vm (vm.enterBody D m lookup info).2 := by
  unfold Vm.enterBody Vm.callFrame
  split
  · exact .of_eq rfl rfl
  · split
    · exact .of_eq rfl rfl
    · exact .of_entry rfl rfl

lemma dispatchResolvedMethod_logs :
    LogGrows (Started.Of m) vm (vm.dispatchResolvedMethod D N m lookup).2 := by
  unfold dispatchResolvedMethod
  split
  · exact .of_entry rfl rfl
  · split
    · exact .of_entry rfl rfl
    · split
      · split
        · exact .of_eq rfl rfl
        · exact enterBody_logs _
      · exact .of_entry rfl rfl

section

variable (D : Metadata M T L H Ty) (N : Natives M T L H Ty σ) (vm : Vm M T L H Ty σ)

/-- The type needs no initializer run and none to be waited for. -/
def Settled (type : T) (generics : L) : Prop :=
  match vm.statics type generics with
  | .initialized => True
  | .failed => False
  | .initializing thread => thread = D.threadId ∨ D.staticInitializer type = none ∨
      N.causesCycle D.threadId thread vm.shared = true
  | .uninitialized => D.staticInitializer type = none

/-- The call triggers no initialization, or only that of a settled type. -/
def InitDone (m : M) (lookup : L) : Prop :=
  D.triggersInit m = .ok false ∨ D.triggersInit m = .ok true ∧
    Settled D N vm (D.parent m) (D.trimToArity (D.parent m) lookup)

/-- What `initialize_static_storage` amounts to: nothing for a settled type; otherwise the start of
an initializer or of waiting for one, or an exception. -/
def InitOutcome (type : T) (lookup : L) (r : StepResult × Vm M T L H Ty σ) : Prop :=
  (Settled D N vm type (D.trimToArity type lookup) ∧ r = (.continued, vm)) ∨
    ¬ Settled D N vm type (D.trimToArity type lookup) ∧
      ((∃ e l, e.OfInit ∧ r.2.started = vm.started ++ e :: l) ∨
        r.1 = .exception ∧ r.2.started = vm.started ∧ r.2.activations = vm.activations)

end

lemma InitOutcome.logs {type : T} {r : StepResult × Vm M T L H Ty σ}
    (h : InitOutcome D N vm type lookup r) : LogGrows Started.OfInit vm r.2 := by
  rcases h with ⟨-, h⟩ | ⟨-, ⟨e, l, he, h⟩ | ⟨-, hs, ha⟩⟩
  · rw [h]
    exact .of_eq rfl rfl
  · exact ⟨e :: l, h, by simp, by simpa using he⟩
  · exact .of_eq hs ha

/-- The home blocks that pointers can be followed into. -/
def Vm.liveHomes (vm : Vm M T L H Ty σ) : List Nat := vm.activations.filterMap (·.home)

structure Vm.Sound (vm : Vm M T L H Ty σ) : Prop where
  tiled : Tiled vm.thread
  activations : vm.activations.length = vm.thread.frames.length
  homes_nodup : vm.liveHomes.Nodup
  homes_le : ∀ serial ∈ vm.liveHomes, serial ≤ vm.lastHomeSerial

/-- `should_honor_tail_call` accepts the call of `m` from the current frame. -/
structure Accepted (D : Metadata M T L H Ty) (vm : Vm M T L H Ty σ) (low : List (StackFrame Ty))
    (frame : StackFrame Ty) (m : M) (lookup : L) : Prop where
  frames : vm.thread.frames = low ++ [frame]
  honored : shouldHonorTailCall frame (D.argumentCount m) = true
  prepared : D.hasBody m = true → ∃ info, D.methodInfo m lookup = .ok info

structure EnteredAlike (D : Metadata M T L H Ty) (low : List (StackFrame Ty))
    (caller : StackFrame Ty)
    (vm₁ vm₂ : Vm M T L H Ty σ) : Prop where
  started : vm₁.started = vm₂.started
  statics : vm₁.statics = vm₂.statics
  shared : vm₁.shared = vm₂.shared
  lastHomeSerial : vm₁.lastHomeSerial = vm₂.lastHomeSerial
  activations : ∃ acts a callee, vm₁.activations = acts ++ [a] ++ [callee] ∧
    vm₂.activations = acts ++ [callee]
  beside : ∃ callee lower own top, Beside low caller callee lower own top vm₁.thread vm₂.thread ∧
    ∀ v ∈ top, ∀ serial ∈ D.homesIn v, serial ∈ vm₁.liveHomes ↔ serial ∈ vm₂.liveHomes

def CallsAgree (D : Metadata M T L H Ty) (low : List (StackFrame Ty)) (caller : StackFrame Ty)
    (r₁ r₂ : StepResult × Vm M T L H Ty σ) : Prop :=
  r₁ = r₂ ∨ r₁.1 = .framePushed ∧ r₂.1 = .framePushed ∧ EnteredAlike D low caller r₁.2 r₂.2

/-- The frame of the caller can go: one more frame would have fitted on top of it, and the callee is
handed no pointer into its variables. -/
structure FrameDispensable (D : Metadata M T L H Ty) (vm : Vm M T L H Ty σ) (frame : StackFrame Ty)
    (info : MethodInfo Ty) : Prop where
  depth : ∀ limit ∈ D.managedFrameLimit, vm.thread.frames.length < limit
  arguments : ∃ args, canonicalArguments info (vm.thread.stack.drop frame.base.stack) = .ok args ∧
    ∀ v ∈ args ++ info.locals, ∀ serial ∈ D.homesIn v,
      vm.activations.getLast?.bind (·.home) ≠ some serial

/-- The cases in which a tail call is as good as the call followed by `ret`. -/
def TailSafe (D : Metadata M T L H Ty) (N : Natives M T L H Ty σ) (vm : Vm M T L H Ty σ)
    (frame : StackFrame Ty) (m : M) (lookup : L) : Prop :=
  (D.classifyIntrinsic m = none ∧ D.isPinvoke m = false ∧ D.hasBody m = false) ∨
    InitDone D N vm m lookup ∧ D.tryRedirectExpressionCompileToInterpreter m = none ∧
      (D.classifyIntrinsic m = none → D.isPinvoke m = false →
        ∀ info, D.methodInfo m lookup = .ok info → FrameDispensable D vm frame info)

section

variable {low : List (StackFrame Ty)} {frame : StackFrame Ty} {info : MethodInfo Ty} {depth : Nat}

lemma Accepted.argumentCount (hinfo : D.methodInfo m lookup = .ok info) :
    info.argumentCount = D.argumentCount m :=
  D.argumentCount_of_methodInfo m lookup info hinfo

section

variable (h : Accepted D vm low frame m lookup) (hsound : vm.Sound)
  (hinfo : D.methodInfo m lookup = .ok info)
include h hsound hinfo

lemma Accepted.stack_length :
    frame.stackHeight = info.argumentCount ∧
      vm.thread.stack.length = frame.base.stack + info.argumentCount := by
  obtain ⟨-, -, htop⟩ := (tiled_concat h.frames).mp hsound.tiled
  have hht := (callerReturns_of_honored h.honored).2
  rw [← Accepted.argumentCount hinfo] at hht
  exact ⟨hht, by rw [← htop, StackFrame.top, hht]⟩

lemma popForTailCall_eq :
    vm.popForTailCall frame info.argumentCount = { vm with
      thread := pushAll ({ vm.thread with frames := low }.truncate frame.base.arguments)
        (vm.thread.stack.drop frame.base.stack)
      activations := vm.activations.dropLast } := by
  have hlen := (h.stack_length hsound hinfo).2
  have htake : (vm.thread.stack.drop frame.base.stack).take info.argumentCount =
      vm.thread.stack.drop frame.base.stack :=
    take_of_length_le (by rw [length_drop]; omega)
  rw [popForTailCall, htake, h.frames, dropLast_concat]

end

lemma enterBody_cases (m : M) (lookup : L) (info : MethodInfo Ty) (vm : Vm M T L H Ty σ) :
    (∃ e, e.Of m ∧ (vm.enterBody D m lookup info).2.started = vm.started ++ [e]) ∨
      ∃ why, vm.enterBody D m lookup info = (.stopped why, vm) := by
  unfold Vm.enterBody Vm.callFrame
  split
  · exact .inr ⟨_, rfl⟩
  · split
    · exact .inr ⟨_, rfl⟩
    · exact .inl ⟨.body m lookup _, rfl, rfl⟩

lemma Accepted.dropLast_ne (h : Accepted D vm low frame m lookup) (hsound : vm.Sound) :
    vm.activations ≠ vm.activations.dropLast := by
  intro heq
  have hlen := congrArg List.length heq
  rw [length_dropLast, hsound.activations, h.frames, length_append,
    length_singleton] at hlen
  omega

lemma not_agree_of_stopped (hsound : vm.Sound) (h : Accepted D vm low frame m lookup)
    {caller : StackFrame Ty} {why : Stop} (hs : vm.enterBody D m lookup info = (.stopped why, vm)) :
    ¬ CallsAgree D low caller (vm.enterBody D m lookup info)
      ((vm.popForTailCall frame info.argumentCount).enterBody D m lookup info) := by
  rw [hs]
  rintro (heq | ⟨hpush, -⟩)
  · rcases enterBody_cases m lookup info (vm.popForTailCall frame info.argumentCount) with
      ⟨e, -, hstd⟩ | ⟨why', hstop⟩
    · rw [← heq] at hstd
      exact absurd (self_eq_append_right.mp hstd) (by simp)
    · rw [hstop] at heq
      exact h.dropLast_ne hsound (congrArg (fun r => r.2.activations) heq)
  · cases hpush

section

variable (D : Metadata M T L H Ty) (m : M) (lookup : L)

/-- The activation a call pushes. -/
def Vm.newActivation (vm : Vm M T L H Ty σ) : FrameOwner M L :=
  ⟨m, lookup, if D.hasHomes m then some (vm.lastHomeSerial + 1) else none⟩

/-- The state after a call whose arguments are `args`. -/
def Vm.called (args : List StackValue)
    (thread : ThreadContext Ty) (vm : Vm M T L H Ty σ) : Vm M T L H Ty σ :=
  { vm with
    thread := thread
    activations := vm.activations ++ [vm.newActivation D m lookup]
    lastHomeSerial := (vm.newActivation D m lookup).home.getD vm.lastHomeSerial
    started := vm.started ++ [.body m lookup args] }

end

lemma managedFrameAbortError_none {s : ThreadContext Ty}
    (hdep : ∀ limit ∈ D.managedFrameLimit, s.frames.length < limit) :
    D.managedFrameAbortError s = none := by
  unfold Metadata.managedFrameAbortError
  cases hlimit : D.managedFrameLimit with
  | none => rfl
  | some limit => exact if_pos (hdep limit hlimit)

lemma enterBody_called (m : M) (lookup : L) {thread : ThreadContext Ty} {args : List StackValue}
    (hdep : ∀ limit ∈ D.managedFrameLimit, vm.thread.frames.length < limit)
    (hargs : vm.thread.stack.drop (vm.thread.stack.length - info.argumentCount) = args)
    (hcall : callFrame vm.thread info = .ok thread) :
    vm.enterBody D m lookup info = (.framePushed, vm.called D m lookup args thread) := by
  simp only [Vm.enterBody, managedFrameAbortError_none hdep, Vm.callFrame, hcall, hargs]
  rfl

lemma enterBody_failed {why : Stop}
    (hdep : ∀ limit ∈ D.managedFrameLimit, vm.thread.frames.length < limit)
    (hcall : callFrame vm.thread info = .error why) :
    vm.enterBody D m lookup info = (.stopped why, vm) := by
  simp only [Vm.enterBody, managedFrameAbortError_none hdep, Vm.callFrame, hcall]

lemma enterBody_aborted (m : M) (lookup : L) (info : MethodInfo Ty) {limit : Nat}
    (hlimit : D.managedFrameLimit = some limit) (hexc : ¬ vm.thread.frames.length < limit) :
    ∃ why, vm.enterBody D m lookup info = (.stopped why, vm) := by
  have hexc : ¬ vm.thread.frames.length + 1 ≤ limit := hexc
  simp only [enterBody, Metadata.managedFrameAbortError, hlimit, if_neg hexc]
  exact ⟨_, rfl⟩

lemma home_mem_iff (hsound : vm.Sound) {acts : List (FrameOwner M L)} {a : FrameOwner M L}
    (hacts : vm.activations = acts ++ [a]) {serial : Nat} :
    (serial ∈ (acts ++ [a] ++ [vm.newActivation D m lookup]).filterMap (·.home) ↔
        serial ∈ (acts ++ [vm.newActivation D m lookup]).filterMap (·.home)) ↔
      a.home ≠ some serial := by
  have hlive : vm.liveHomes = acts.filterMap (·.home) ++ a.home.toList := by
    simp [liveHomes, hacts, filterMap_cons]
    cases a.home <;> rfl
  constructor
  · intro hiff ha
    have hmem : serial ∈ vm.liveHomes := by simp [hlive, ha]
    have hle := hsound.homes_le serial hmem
    have hfst : serial ∈ (acts ++ [a] ++ [vm.newActivation D m lookup]).filterMap (·.home) :=
      mem_filterMap.mpr ⟨a, by simp, ha⟩
    obtain ⟨b, hb, hbhome⟩ := mem_filterMap.mp (hiff.mp hfst)
    rcases mem_append.mp hb with hb | hb
    · have hdisj := (nodup_append.mp (hlive ▸ hsound.homes_nodup)).2.2
      exact hdisj serial (mem_filterMap.mpr ⟨b, hb, hbhome⟩) serial (by simp [ha]) rfl
    · rw [mem_singleton.mp hb, newActivation] at hbhome
      split at hbhome
      · have := Option.some.inj hbhome
        omega
      · cases hbhome
  · intro ha
    simp only [filterMap_append, mem_append, mem_filterMap, mem_singleton,
      exists_eq_left]
    constructor
    · rintro ((h | h) | h)
      · exact .inl h
      · exact absurd h ha
      · exact .inr h
    · rintro (h | h)
      · exact .inl (.inl h)
      · exact .inr h

lemma agree_body_iff (hsound : vm.Sound) (h : Accepted D vm low frame m lookup)
    (hinfo : D.methodInfo m lookup = .ok info) :
    CallsAgree D low { frame with stackHeight := 0 } (vm.enterBody D m lookup info)
        ((vm.popForTailCall frame info.argumentCount).enterBody D m lookup info) ↔
      FrameDispensable D vm frame info := by
  obtain ⟨hht, hlen⟩ := h.stack_length hsound hinfo
  have hcalls := beside_of_call hsound.tiled h.frames hht
  have hlow : vm.thread.frames.length = low.length + 1 := by rw [h.frames]; simp
  obtain ⟨acts, a, hacts⟩ : ∃ acts a, vm.activations = acts ++ [a] := by
    rcases eq_nil_or_concat' vm.activations with hnil | hconcat
    · have hlength := hsound.activations
      rw [hnil, hlow] at hlength
      cases hlength
    · exact hconcat
  have hlast : vm.activations.getLast?.bind (·.home) = a.home := by simp [hacts]
  by_cases hdep : ∀ limit ∈ D.managedFrameLimit, vm.thread.frames.length < limit
  · cases hcan : canonicalArguments info (vm.thread.stack.drop frame.base.stack) with
    | error e =>
      rw [hcan] at hcalls
      refine iff_of_false (not_agree_of_stopped hsound h (enterBody_failed hdep hcalls.1))
        fun hd => ?_
      obtain ⟨args, hargs, -⟩ := hd.arguments
      rw [hcan] at hargs
      cases hargs
    | ok args =>
      rw [hcan] at hcalls
      obtain ⟨s₁, s₂, hcall₁, hcall₂, hbeside⟩ := hcalls
      have hord := enterBody_called m lookup hdep (by rw [hlen, Nat.add_sub_cancel]) hcall₁
      have htail : (vm.popForTailCall frame info.argumentCount).enterBody D m lookup info =
          (.framePushed, (vm.popForTailCall frame info.argumentCount).called D m lookup
            (vm.thread.stack.drop frame.base.stack) s₂) := by
        rw [popForTailCall_eq h hsound hinfo]
        refine enterBody_called m lookup (fun limit hlimit => ?_) ?_ hcall₂
        · have := hdep limit hlimit
          rw [length_pushAll_frames]
          simp only [ThreadContext.truncate]
          omega
        · have hdrop : (vm.thread.stack.drop frame.base.stack).length = info.argumentCount := by
            rw [length_drop]
            omega
          rw [pushAll_stack, length_append, hdrop, Nat.add_sub_cancel, drop_left]
      have hhomes : ∀ serial, (serial ∈ (vm.called D m lookup
            (vm.thread.stack.drop frame.base.stack) s₁).liveHomes ↔
          serial ∈ ((vm.popForTailCall frame info.argumentCount).called D m lookup
            (vm.thread.stack.drop frame.base.stack) s₂).liveHomes) ↔ a.home ≠ some serial := by
        intro serial
        simp only [Vm.called, popForTailCall, hacts, dropLast_concat]
        exact home_mem_iff hsound hacts
      rw [hord, htail]
      constructor
      · rintro (heq | ⟨-, -, hent⟩)
        · have hact := congrArg (fun r => r.2.activations) heq
          exact absurd (append_cancel_right hact) (h.dropLast_ne hsound)
        · obtain ⟨callee, lower, own, top, hbeside', htop⟩ := hent.beside
          refine ⟨hdep, args, hcan, fun v hv serial hser => ?_⟩
          rw [hlast]
          rw [hbeside.top_eq hbeside'] at htop
          exact (hhomes serial).mp (htop v hv serial hser)
      · intro hd
        refine .inr ⟨rfl, rfl, rfl, rfl, rfl, rfl, ?_, _, _, _, _, hbeside, ?_⟩
        · refine ⟨acts, a, vm.newActivation D m lookup, ?_, ?_⟩
          · simp only [Vm.called, hacts]
          · simp only [popForTailCall, hacts, dropLast_concat]
            rfl
        · intro v hv serial hser
          obtain ⟨args', hargs', hfree⟩ := hd.arguments
          obtain rfl : args = args' := Except.ok.inj (hcan.symm.trans hargs')
          refine (hhomes serial).mpr ?_
          rw [← hlast]
          exact hfree v hv serial hser
  · refine iff_of_false ?_ fun hd => hdep hd.depth
    obtain ⟨limit, hlimit, hexc⟩ : ∃ limit, D.managedFrameLimit = some limit ∧
        ¬ vm.thread.frames.length < limit := by simpa using hdep
    obtain ⟨why, hstop⟩ := enterBody_aborted m lookup info hlimit hexc
    exact not_agree_of_stopped hsound h hstop

end

variable [DecidableEq T] [DecidableEq L]

lemma initializeStaticStorage_outcome
    {dispatch : M → L → Vm M T L H Ty σ → StepResult × Vm M T L H Ty σ}
    (hdisp : ∀ m lookup vm, LogGrows P vm (dispatch m lookup vm).2) (type : T) (lookup : L) :
    InitOutcome D N vm type lookup (vm.initializeStaticStorage D N dispatch type lookup) := by
  unfold InitOutcome
  unfold initializeStaticStorage initStatics Settled
  cases hst : vm.statics type (D.trimToArity type lookup) with
  | initialized =>
    simp only [hst]
    exact .inl ⟨trivial, trivial⟩
  | failed =>
    simp only [hst]
    exact .inr ⟨id, .inr ⟨rfl, rfl, rfl⟩⟩
  | uninitialized =>
    simp only [hst]
    cases hcc : D.staticInitializer type with
    | none => exact .inl ⟨rfl, rfl⟩
    | some cctor =>
      refine .inr ⟨nofun, .inl ⟨.initializer type (D.trimToArity type lookup), ?_⟩⟩
      obtain ⟨l, hl⟩ := LogGrows.of_first (hdisp cctor (D.trimToArity type lookup)
        (Vm.log { vm with
          statics := fun t g => if t = type ∧ g = D.trimToArity type lookup then
            .initializing D.threadId else vm.statics t g }
          (.initializer type (D.trimToArity type lookup))))
      exact ⟨l, trivial, hl⟩
  | initializing thread =>
    simp only [hst]
    by_cases hown : thread = D.threadId
    · rw [if_pos hown]
      exact .inl ⟨.inl hown, rfl⟩
    · rw [if_neg hown]
      cases hcc : D.staticInitializer type with
      | none => exact .inl ⟨.inr (.inl rfl), rfl⟩
      | some cctor =>
        by_cases hcycle : N.causesCycle D.threadId thread vm.shared = true
        · rw [if_pos hcycle]
          exact .inl ⟨.inr (.inr hcycle), rfl⟩
        · rw [if_neg hcycle]
          refine .inr ⟨by simp [hown, hcycle], .inl ⟨.awaited type (D.trimToArity type lookup), [],
            trivial, ?_⟩⟩
          dsimp only [Vm.log]
          rcases N.waitForInit type (D.trimToArity type lookup) vm.shared with ⟨_ | _ | _, shared⟩
          · rfl
          · rfl
          · rfl

/-- The dispatch of `m` once its type is initialized. -/
def Vm.dispatchInitialized (D : Metadata M T L H Ty) (N : Natives M T L H Ty σ)
    (depth : Nat) (m : M)
    (lookup : L) (vm : Vm M T L H Ty σ) : StepResult × Vm M T L H Ty σ :=
  match D.tryRedirectExpressionCompileToInterpreter m with
  | some overload => dispatchMethod D N depth overload lookup
      { vm with thread := vm.thread.push (.int32 1) }
  | none => vm.dispatchResolvedMethod D N m lookup

variable {depth : Nat}

/-- `dispatch_method` for a call that triggers the initialization of the declaring type. -/
lemma dispatchMethod_triggering (h : D.triggersInit m = .ok true) :
    dispatchMethod D N (depth + 1) m lookup vm =
      if (vm.initializeStaticStorage D N (dispatchMethod D N depth) (D.parent m) lookup).1 =
          .continued then
        dispatchInitialized D N depth m lookup
          (vm.initializeStaticStorage D N (dispatchMethod D N depth) (D.parent m) lookup).2
      else vm.initializeStaticStorage D N (dispatchMethod D N depth) (D.parent m) lookup := by
  simp only [dispatchMethod, h]
  rcases vm.initializeStaticStorage D N (dispatchMethod D N depth) (D.parent m) lookup with
    ⟨r, vm'⟩
  cases r <;> rfl

lemma dispatchMethod_plain (h : D.triggersInit m = .ok false) :
    dispatchMethod D N (depth + 1) m lookup vm =
      dispatchInitialized D N depth m lookup vm := by
  simp only [dispatchMethod, h]
  rfl

abbrev DispatchLog (D : Metadata M T L H Ty) (m : M) : Started M T L H → Prop := fun e =>
  D.tryRedirectExpressionCompileToInterpreter m = none → e.OfInit ∨ e.Of m

lemma dispatchInitialized_logs
    (h : ∀ m lookup vm, LogGrows (DispatchLog D m) vm (dispatchMethod D N depth m lookup vm).2)
    (m : M) (lookup : L) (vm : Vm M T L H Ty σ) :
    LogGrows (DispatchLog D m) vm (dispatchInitialized D N depth m lookup vm).2 := by
  unfold dispatchInitialized
  cases hred : D.tryRedirectExpressionCompileToInterpreter m with
  | none => exact dispatchResolvedMethod_logs.mono fun e he _ => .inr he
  | some overload =>
    have hpush : LogGrows (DispatchLog D m) vm { vm with thread := vm.thread.push (.int32 1) } :=
      .of_eq rfl rfl
    refine hpush.trans ((h overload lookup _).mono fun e _ hno => ?_)
    rw [hred] at hno
    cases hno

lemma dispatchMethod_logs (depth : Nat) (m : M) (lookup : L) (vm : Vm M T L H Ty σ) :
    LogGrows (DispatchLog D m) vm (dispatchMethod D N depth m lookup vm).2 := by
  induction depth generalizing m lookup vm with
  | zero => exact .of_eq rfl rfl
  | succ depth ih =>
    cases htrig : D.triggersInit m with
    | error e =>
      simp only [dispatchMethod, htrig]
      exact .of_eq rfl rfl
    | ok triggers =>
      cases triggers with
      | false =>
        rw [dispatchMethod_plain htrig]
        exact dispatchInitialized_logs ih m lookup vm
      | true =>
        have hinit : LogGrows (DispatchLog D m) vm (vm.initializeStaticStorage D N
            (dispatchMethod D N depth) (D.parent m) lookup).2 :=
          (initializeStaticStorage_outcome
            (fun m lookup vm => (ih m lookup vm).mono fun _ _ => trivial) _ _).logs.mono
            fun e he _ => .inl he
        rw [dispatchMethod_triggering htrig]
        split
        · exact hinit.trans (dispatchInitialized_logs ih m lookup _)
        · exact hinit

/-- What `initialize_static_storage` amounts to inside a dispatch. -/
lemma initialize_outcome (vm : Vm M T L H Ty σ) (depth : Nat) (type : T) (lookup : L) :
    InitOutcome D N vm type lookup
      (vm.initializeStaticStorage D N (dispatchMethod D N depth) type lookup) :=
  initializeStaticStorage_outcome
    (fun m lookup vm => (dispatchMethod_logs depth m lookup vm).mono fun _ _ => trivial) type lookup

lemma dispatchMethod_settled (h : InitDone D N vm m lookup) :
    dispatchMethod D N (depth + 1) m lookup vm =
      dispatchInitialized D N depth m lookup vm := by
  rcases h with h | ⟨h, hsettled⟩
  · exact dispatchMethod_plain h
  · rcases initialize_outcome vm depth (D.parent m) lookup with
      ⟨-, heq⟩ | ⟨hnot, -⟩
    · rw [dispatchMethod_triggering h, heq, if_pos rfl]
    · exact absurd hsettled hnot

lemma dispatchMethod_unsettled (depth : Nat) (h : ¬ InitDone D N vm m lookup) :
    (∃ e l, e.OfInit ∧ (dispatchMethod D N (depth + 1) m lookup vm).2.started =
        vm.started ++ e :: l) ∨
      ((dispatchMethod D N (depth + 1) m lookup vm).1 ≠ .framePushed ∧
        (dispatchMethod D N (depth + 1) m lookup vm).2.started = vm.started ∧
        (dispatchMethod D N (depth + 1) m lookup vm).2.activations = vm.activations) := by
  cases htrig : D.triggersInit m with
  | error e =>
    refine .inr ?_
    simp only [dispatchMethod, htrig]
    exact ⟨nofun, trivial, trivial⟩
  | ok triggers =>
    cases triggers with
    | false => exact absurd (.inl htrig) h
    | true =>
      rw [dispatchMethod_triggering htrig]
      rcases initialize_outcome vm depth (D.parent m) lookup with
        ⟨hsettled, -⟩ | ⟨-, ⟨e, l, he, hstd⟩ | ⟨hthr, hs, ha⟩⟩
      · exact absurd (.inr ⟨htrig, hsettled⟩) h
      · refine .inl ⟨e, ?_⟩
        split
        · obtain ⟨l', hl', -⟩ := dispatchInitialized_logs (dispatchMethod_logs depth) m lookup
            (vm.initializeStaticStorage D N (dispatchMethod D N depth) (D.parent m) lookup).2
          exact ⟨l ++ l', he, by rw [hl', hstd, append_assoc]; rfl⟩
        · exact ⟨l, he, hstd⟩
      · rw [if_neg (by rw [hthr]; nofun)]
        exact .inr ⟨by rw [hthr]; nofun, hs, ha⟩

section

variable {low : List (StackFrame Ty)} {frame : StackFrame Ty} {info : MethodInfo Ty} {depth : Nat}

lemma dispatchMethodTail_body (h : Accepted D vm low frame m lookup) (hsound : vm.Sound)
    (hintr : D.classifyIntrinsic m = none) (hpinv : D.isPinvoke m = false)
    (hbody : D.hasBody m = true) (hinfo : D.methodInfo m lookup = .ok info) :
    vm.dispatchMethodTail D N depth m lookup =
      (vm.popForTailCall frame info.argumentCount).enterBody D m lookup info := by
  have hlen := (h.stack_length hsound hinfo).2
  have hhonored := h.honored
  rw [← Accepted.argumentCount hinfo] at hhonored
  simp only [dispatchMethodTail, hintr, hpinv, hbody, hinfo, h.frames,
    getLast?_concat, hhonored, Bool.false_eq_true, Bool.not_true, if_false, if_true]
  rw [if_neg (by omega)]

lemma dispatchMethodTail_logs (depth : Nat) (hsound : vm.Sound)
    (h : Accepted D vm low frame m lookup)
    (hprov : ¬ (D.classifyIntrinsic m = none ∧ D.isPinvoke m = false ∧ D.hasBody m = false)) :
    (∃ e, e.Of m ∧ (vm.dispatchMethodTail D N depth m lookup).2.started = vm.started ++ [e]) ∨
      ((vm.dispatchMethodTail D N depth m lookup).1 ≠ .framePushed ∧
        (vm.dispatchMethodTail D N depth m lookup).2.started = vm.started ∧
        (vm.dispatchMethodTail D N depth m lookup).2.activations = vm.activations.dropLast) := by
  cases hintr : D.classifyIntrinsic m with
  | some handler =>
    refine .inl ⟨.intrinsic handler m lookup, rfl, ?_⟩
    simp only [dispatchMethodTail, hintr, startNative]
  | none =>
    cases hpinv : D.isPinvoke m with
    | true =>
      refine .inl ⟨.external m, rfl, ?_⟩
      simp [dispatchMethodTail, hintr, hpinv, startNative]
    | false =>
      have hbody : D.hasBody m = true := by
        rw [← not_eq_false]
        exact fun hbody => hprov ⟨hintr, hpinv, hbody⟩
      obtain ⟨info, hinfo⟩ := h.prepared hbody
      rw [dispatchMethodTail_body h hsound hintr hpinv hbody hinfo]
      rcases enterBody_cases m lookup info
        (vm.popForTailCall frame info.argumentCount) with ⟨e, he, hstd⟩ | ⟨why, hstop⟩
      · exact .inl ⟨e, he, hstd⟩
      · rw [hstop]
        exact .inr ⟨nofun, rfl, rfl⟩

lemma not_agree_of_log (hsound : vm.Sound) (h : Accepted D vm low frame m lookup)
    (hprov : ¬ (D.classifyIntrinsic m = none ∧ D.isPinvoke m = false ∧ D.hasBody m = false))
    {caller : StackFrame Ty} {r : StepResult × Vm M T L H Ty σ}
    (hr : LogGrows (fun e => ¬ e.Of m) vm r.2) :
    ¬ CallsAgree D low caller r (vm.dispatchMethodTail D N depth m lookup) := by
  intro hagree
  obtain ⟨l, hl, hnil, hhead⟩ := hr
  have hstd : r.2.started = (vm.dispatchMethodTail D N depth m lookup).2.started := by
    rcases hagree with heq | ⟨-, -, hent⟩
    · rw [heq]
    · exact hent.started
  rcases dispatchMethodTail_logs depth hsound h hprov with
    ⟨e, he, htail⟩ | ⟨hpush, htail, hactivations⟩
  · rw [hl, htail] at hstd
    rw [append_cancel_left hstd] at hhead
    exact hhead e rfl he
  · rcases hagree with heq | ⟨-, hpush', -⟩
    · rw [hl, htail] at hstd
      have hemp := hnil (append_right_eq_self.mp hstd)
      exact h.dropLast_ne hsound (hemp.symm.trans (by rw [heq, hactivations]))
    · exact hpush hpush'

omit [DecidableEq T] [DecidableEq L] in
lemma redirect_overload {overload : M}
    (h : D.tryRedirectExpressionCompileToInterpreter m = some overload) :
    D.tryRedirectExpressionCompileToInterpreter overload = none ∧ overload ≠ m := by
  unfold Metadata.tryRedirectExpressionCompileToInterpreter at h
  split at h
  · cases h
  · split at h
    · cases h
    · split at h
      · cases h
      · next hpars =>
        have hfnd := find?_some h
        simp only [and_eq_true, beq_iff_eq] at hfnd
        refine ⟨?_, fun heq => ?_⟩
        · unfold Metadata.tryRedirectExpressionCompileToInterpreter
          split
          · rfl
          · split
            · rfl
            · rw [if_pos (by rw [hfnd.2]; nofun)]
        · rw [heq] at hfnd
          exact hpars (by rw [hfnd.2]; nofun)

lemma dispatchMethod_starts_other (h : ¬ (InitDone D N vm m lookup ∧
    D.tryRedirectExpressionCompileToInterpreter m = none)) :
    LogGrows (fun e => ¬ e.Of m) vm (dispatchMethod D N (depth + 1) m lookup vm).2 := by
  by_cases hinit : InitDone D N vm m lookup
  · obtain ⟨overload, hred⟩ := Option.ne_none_iff_exists'.mp fun hno => h ⟨hinit, hno⟩
    obtain ⟨hno, hne⟩ := redirect_overload hred
    rw [dispatchMethod_settled hinit, dispatchInitialized, hred]
    have hpush : LogGrows (fun e => ¬ e.Of m) vm
        { vm with thread := vm.thread.push (.int32 1) } := .of_eq rfl rfl
    refine hpush.trans ((dispatchMethod_logs depth overload lookup _).mono fun e he hof => ?_)
    cases he hno with
    | inl hinit => exact hof.not_ofInit hinit
    | inr hoverload => exact hne (hof.unique hoverload)
  · rcases dispatchMethod_unsettled depth hinit with ⟨e, l, he, hl⟩ | ⟨-, hs, ha⟩
    · exact ⟨e :: l, hl, by simp, by simpa using fun hof : e.Of m => hof.not_ofInit he⟩
    · exact .of_eq hs ha

/-- An accepted tail call starts what the ordinary call starts exactly if the declaring type is
settled, the method is not redirected and, for a method with a body, the caller's frame can go;
methods that the runtime provides always agree. The frames below then get the result they would have
got through the caller's `ret`, if both agree on whether there is one and no cleanup handler is
pending. -/
theorem tail_call_agrees_iff (hsound : vm.Sound) (h : Accepted D vm low frame m lookup)
    (depth : Nat) :
    (CallsAgree D low { frame with stackHeight := 0 } (dispatchMethod D N (depth + 1) m lookup vm)
        (vm.dispatchMethodTail D N (depth + 1) m lookup) ↔ TailSafe D N vm frame m lookup) ∧
      ∀ (callee : StackFrame Ty) (lower own top : List StackValue) (s₁ s₂ : ThreadContext Ty),
        ReturnsAlike frame callee.info →
        Beside low { frame with stackHeight := 0 } callee lower own top s₁ s₂ →
        AtReturn low callee s₂ → ∀ data callerData, ∃ ip height,
          returnThroughCaller s₁ data callerData =
            handleReturn { s₂ with originalIp := ip, originalStackHeight := height }
              callerData := by
  refine ⟨?_, ?_⟩
  · by_cases hprov : D.classifyIntrinsic m = none ∧ D.isPinvoke m = false ∧ D.hasBody m = false
    · have htail : vm.dispatchMethodTail D N (depth + 1) m lookup =
          dispatchMethod D N (depth + 1) m lookup vm := by
        obtain ⟨hintr, hpinv, hbody⟩ := hprov
        simp [dispatchMethodTail, hintr, hpinv, hbody]
      exact iff_of_true (.inl htail.symm) (.inl hprov)
    · by_cases hdir : InitDone D N vm m lookup ∧
          D.tryRedirectExpressionCompileToInterpreter m = none
      · have hord : dispatchMethod D N (depth + 1) m lookup vm =
            vm.dispatchResolvedMethod D N m lookup := by
          rw [dispatchMethod_settled hdir.1, dispatchInitialized, hdir.2]
        rw [hord]
        cases hintr : D.classifyIntrinsic m with
        | some handler =>
          refine iff_of_true (.inl ?_) (.inr ⟨hdir.1, hdir.2, fun hno => ?_⟩)
          · simp only [dispatchResolvedMethod, dispatchMethodTail, hintr]
          · rw [hintr] at hno
            cases hno
        | none =>
          cases hpinv : D.isPinvoke m with
          | true =>
            refine iff_of_true (.inl ?_) (.inr ⟨hdir.1, hdir.2, fun _ hfalse => ?_⟩)
            · simp [dispatchResolvedMethod, dispatchMethodTail, hpinv]
            · rw [hpinv] at hfalse
              cases hfalse
          | false =>
            have hbody : D.hasBody m = true := by
              rw [← not_eq_false]
              exact fun hbody => hprov ⟨hintr, hpinv, hbody⟩
            obtain ⟨info, hinfo⟩ := h.prepared hbody
            have hresd : vm.dispatchResolvedMethod D N m lookup =
                vm.enterBody D m lookup info := by
              simp [dispatchResolvedMethod, hintr, hpinv, hbody, hinfo]
            rw [hresd, dispatchMethodTail_body h hsound hintr hpinv hbody hinfo,
              agree_body_iff hsound h hinfo]
            constructor
            · intro hd
              refine .inr ⟨hdir.1, hdir.2, fun _ _ info' hinfo' => ?_⟩
              rwa [← Except.ok.inj (hinfo.symm.trans hinfo')]
            · rintro (hp | ⟨-, -, hd⟩)
              · exact absurd hp hprov
              · exact hd hintr hpinv info hinfo
      · refine iff_of_false
          (not_agree_of_log hsound h hprov (dispatchMethod_starts_other hdir)) ?_
        rintro (hp | ⟨hinit, hred, -⟩)
        · exact hprov hp
        · exact hdir ⟨hinit, hred⟩
  · intro callee lower own top s₁ s₂ halike hbeside hr data callerData
    obtain ⟨hrets, -⟩ := callerReturns_of_honored h.honored
    exact return_beside hbeside
      ⟨hrets.isCctor, hrets.isFinalizer, hrets.multicastState, hrets.frameContinuation,
        hrets.constructorResult, hrets.ret⟩ rfl
      ⟨halike.returnType, halike.isCctor, halike.noFinally⟩ hr data callerData

end

end

inductive SampleMethod where
  | user
  | helper
  | cctor
  deriving DecidableEq

def sample (isInstance : Bool) : Metadata SampleMethod Unit Unit Empty Unit where
  parent := fun _ => ()
  typeName := fun _ => "Sample"
  beforeFieldInit := fun _ => false
  isValueType := fun _ => .ok false
  staticInitializer := fun _ => some .cctor
  trimToArity := fun _ lookup => lookup
  name := fun
    | .user => "User"
    | .helper => "Helper"
    | .cctor => ".cctor"
  isInstance := fun m => m = .helper && isInstance
  parameterIsBoolean := fun _ => []
  declaredBeside := fun _ => [.user, .helper, .cctor]
  classifyIntrinsic := fun _ => none
  isPinvoke := fun _ => false
  hasBody := fun _ => true
  hasHomes := fun _ => false
  methodInfo := fun m _ => .ok
    { instructions := [.ret]
      isInstance := m = .helper && isInstance
      isCctor := m = .cctor }
  managedFrameLimit := some 65536
  threadId := 1
  homesIn := fun _ => []
  argumentCount_of_methodInfo := by
    rintro m lookup info hinfo
    obtain rfl := Except.ok.inj hinfo
    rfl

def sampleNatives : Natives SampleMethod Unit Unit Empty Unit Unit where
  dispatchMethodIntrinsic := fun handler => nomatch handler
  externalCall := fun _ vm => (.continued, vm)
  dispatchWithoutBody := fun _ _ vm => (.continued, vm)
  typeInitializationException := fun _ _ => (some 0, ())
  causesCycle := fun _ _ _ => false
  waitForInit := fun _ _ _ => (some true, ())

/-- `tail. call Helper; ret`. -/
def tailUser : MethodInfo Unit where
  instructions := [.op, .ret]

def beforeTailCall (args : List StackValue) : Vm SampleMethod Unit Unit Empty Unit Unit where
  thread := pushAll (entrypoint tailUser []) args
  activations := [⟨.user, (), none⟩]
  lastHomeSerial := 0
  statics := fun _ _ => .uninitialized
  started := []
  shared := ()

def tailUserFrame (height : Nat) : StackFrame Unit :=
  { StackFrame.new ⟨0, 0, 0⟩ tailUser with stackHeight := height }

lemma beforeTailCall_sound (args : List StackValue) : (beforeTailCall args).Sound := by
  have hfs : (beforeTailCall args).thread.frames = [] ++ [tailUserFrame args.length] := by
    have hent : (entrypoint tailUser []).frames = [] ++ [tailUserFrame 0] := rfl
    simp only [beforeTailCall, pushAll_concat hent]
    simp [tailUserFrame]
  refine ⟨(tiled_concat hfs).mpr ⟨by simp, ⟨rfl, le_refl _, le_refl _, nofun⟩, ?_⟩, ?_,
    by simp [liveHomes, beforeTailCall], by simp [liveHomes, beforeTailCall]⟩
  · simp only [beforeTailCall, pushAll_stack]
    simp [StackFrame.top, tailUserFrame, StackFrame.new, entrypoint, tailUser]
  · rw [hfs]
    rfl

theorem instance_tail_call_agrees : CallsAgree (sample true) [] (tailUserFrame 0)
        (dispatchMethod (sample true) sampleNatives 3 .helper ()
          (beforeTailCall [.objectRef (some 7)]))
        ((beforeTailCall [.objectRef (some 7)]).dispatchMethodTail (sample true) sampleNatives 3
          .helper ()) ∧
      ∃ ip height, returnThroughCaller (dispatchMethod (sample true) sampleNatives 3 .helper ()
          (beforeTailCall [.objectRef (some 7)])).2.thread {} {} =
        handleReturn { ((beforeTailCall [.objectRef (some 7)]).dispatchMethodTail (sample true)
          sampleNatives 3 .helper ()).2.thread with
            originalIp := ip, originalStackHeight := height } {} := by
  have haccepted : Accepted (sample true) (beforeTailCall [.objectRef (some 7)]) []
      (tailUserFrame 1) .helper () := ⟨rfl, rfl, fun _ => ⟨_, rfl⟩⟩
  have h := tail_call_agrees_iff (N := sampleNatives)
    (beforeTailCall_sound [.objectRef (some 7)]) haccepted 2
  refine ⟨h.1.mpr (.inr ⟨.inl rfl, rfl, fun _ _ info hinfo => ?_⟩), ?_⟩
  · obtain rfl := Except.ok.inj hinfo
    exact ⟨fun limit hlimit => by cases hlimit; decide, [.objectRef (some 7)], rfl, by
      simp [sample]⟩
  · have hbeside : Beside [] (tailUserFrame 0)
        (frameAt { instructions := [.ret], isInstance := true } 0) [] [] [.objectRef (some 7)]
        (dispatchMethod (sample true) sampleNatives 3 .helper ()
          (beforeTailCall [.objectRef (some 7)])).2.thread
        ((beforeTailCall [.objectRef (some 7)]).dispatchMethodTail (sample true) sampleNatives 3
          .helper ()).2.thread := ⟨rfl, rfl, by decide, rfl, rfl, rfl⟩
    have halike : ReturnsAlike (tailUserFrame 1)
        (frameAt { instructions := [.ret], isInstance := true } 0).info := ⟨rfl, rfl, rfl⟩
    refine h.2 _ _ _ _ _ _ halike hbeside
      ⟨rfl, rfl, by decide, fun hne => absurd rfl hne, fun u hu => ?_⟩ {} {}
    cases hu

/-- The ordinary call of a static method runs the static constructor of the declaring type first;
the tail call runs the method at once. -/
theorem tail_call_skips_initializer :
    shouldHonorTailCall (tailUserFrame 0) ((sample false).argumentCount .helper) = true ∧
      (dispatchMethod (sample false) sampleNatives 3 .helper () (beforeTailCall [])).2.started =
        [.initializer () (), .body .cctor () []] ∧
      ((beforeTailCall []).dispatchMethodTail (sample false) sampleNatives 3 .helper
        ()).2.started = [.body .helper () []] ∧
      ¬ CallsAgree (sample false) [] (tailUserFrame 0)
        (dispatchMethod (sample false) sampleNatives 3 .helper () (beforeTailCall []))
        ((beforeTailCall []).dispatchMethodTail (sample false) sampleNatives 3 .helper ()) := by
  have hord : (dispatchMethod (sample false) sampleNatives 3 .helper ()
    (beforeTailCall [])).2.started = [.initializer () (), .body .cctor () []] := rfl
  have htail : ((beforeTailCall []).dispatchMethodTail (sample false) sampleNatives 3 .helper
    ()).2.started = [.body .helper () []] := rfl
  refine ⟨rfl, hord, htail, ?_⟩
  rintro (heq | ⟨-, -, hent⟩)
  · rw [heq] at hord
    cases hord
  · have hstd := hent.started
    cases hstd

end DotnetVm
