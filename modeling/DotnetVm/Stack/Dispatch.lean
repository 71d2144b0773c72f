import DotnetVm.Stack.Tiling

/-!
# Dispatching a resolved method

`dispatch_method` initializes the declaring type if the call triggers it, sends
`Compile()` of an expression to its interpreting overload and then runs an
intrinsic, an external function, a method the runtime provides, or a body in a
new frame. `dispatch_method_tail` is the variant for calls with the `tail.`
prefix. Both keep a record of what they start. What the metadata says about a
method, and what runs outside managed code, are parameters.
-/

namespace DotnetVm

/-- How a step ends for the dispatch loop. -/
inductive StepResult where
  | continued
  | jump (target : Nat)
  | framePushed
  | returned
  | methodThrew (exception : ObjectRef)
  | exception
  | yielded
  | stopped (why : Stop)
  deriving DecidableEq

/-- The initialization state of one instantiation of a type. -/
inductive InitState where
  | uninitialized
  | initializing (thread : Nat)
  | initialized
  | failed
  deriving DecidableEq, Repr

inductive StaticInitResult (M : Type) where
  | execute (cctor : M)
  | initialized
  | recursive
  | waiting
  | failed

/-- What a dispatch started or waited for. -/
inductive Started (M T L H : Type) where
  | initializer (type : T) (generics : L)
  | awaited (type : T) (generics : L)
  | intrinsic (handler : H) (method : M) (lookup : L)
  | external (method : M)
  | provided (method : M) (lookup : L)
  | body (method : M) (lookup : L) (args : List StackValue)

/-- What a frame belongs to: its method, its instantiation, and the serial of its home block if the
method takes the address of a variable. -/
structure FrameOwner (M L : Type) where
  source : M
  genericInst : L
  home : Option Nat
  deriving DecidableEq

structure Vm (M T L H Ty σ : Type) where
  thread : ThreadContext Ty
  activations : List (FrameOwner M L)
  lastHomeSerial : Nat
  statics : T → L → InitState
  started : List (Started M T L H)
  shared : σ

structure Metadata (M T L H Ty : Type) where
  parent : M → T
  typeName : T → String
  beforeFieldInit : T → Bool
  isValueType : T → Except VmError Bool
  staticInitializer : T → Option M
  trimToArity : T → L → L
  name : M → String
  isInstance : M → Bool
  parameterIsBoolean : M → List Bool
  declaredBeside : M → List M
  classifyIntrinsic : M → Option H
  isPinvoke : M → Bool
  hasBody : M → Bool
  hasHomes : M → Bool
  methodInfo : M → L → Except VmError (MethodInfo Ty)
  managedFrameLimit : Option Nat
  threadId : Nat
  homesIn : StackValue → List Nat
  argumentCount_of_methodInfo : ∀ m lookup info, methodInfo m lookup = .ok info →
    info.argumentCount = (isInstance m).toNat + (parameterIsBoolean m).length

/-- What runs outside managed code. -/
structure Natives (M T L H Ty σ : Type) where
  dispatchMethodIntrinsic : H → M → L → Vm M T L H Ty σ → StepResult × Vm M T L H Ty σ
  externalCall : M → Vm M T L H Ty σ → StepResult × Vm M T L H Ty σ
  dispatchWithoutBody : M → L → Vm M T L H Ty σ → StepResult × Vm M T L H Ty σ
  typeInitializationException : T → σ → ObjectRef × σ
  causesCycle : Nat → Nat → σ → Bool
  waitForInit : T → L → σ → Option Bool × σ

variable {M T L H Ty σ : Type}

namespace Metadata

variable (D : Metadata M T L H Ty)

def argumentCount (m : M) : Nat := (D.isInstance m).toNat + (D.parameterIsBoolean m).length

def triggersInit (m : M) : Except VmError Bool :=
  if D.beforeFieldInit (D.parent m) then .ok false
  else
    match D.isValueType (D.parent m) with
    | .error e => .error e
    | .ok isValueType => .ok (!D.isInstance m || isValueType || D.name m == ".ctor")

def tryRedirectExpressionCompileToInterpreter (m : M) : Option M :=
  if D.typeName (D.parent m) ≠ "System.Linq.Expressions.LambdaExpression" ∧
      D.typeName (D.parent m) ≠ "System.Linq.Expressions.Expression`1" then none
  else if D.name m ≠ "Compile" then none
  else if D.parameterIsBoolean m ≠ [] then none
  else (D.declaredBeside m).find? fun candidate =>
    D.name candidate == "Compile" && D.parameterIsBoolean candidate == [true]

def managedFrameAbortError (s : ThreadContext Ty) : Option VmError :=
  match D.managedFrameLimit with
  | none => none
  | some limit =>
    if s.frames.length + 1 ≤ limit then none
    else some (.aborted ("managed frame depth budget exceeded: depth_before=" ++
      toString s.frames.length))

end Metadata

namespace Vm

variable (D : Metadata M T L H Ty) (N : Natives M T L H Ty σ) (vm : Vm M T L H Ty σ)

def log (entry : Started M T L H) : Vm M T L H Ty σ := { vm with started := vm.started ++ [entry] }

def startNative (entry : Started M T L H)
    (run : Vm M T L H Ty σ → StepResult × Vm M T L H Ty σ) : StepResult × Vm M T L H Ty σ :=
  ((run vm).1, { (run vm).2 with started := vm.started ++ [entry] })

/-- `call_frame` for a method with a body. -/
def callFrame (m : M) (lookup : L) (info : MethodInfo Ty) : StepResult × Vm M T L H Ty σ :=
  match DotnetVm.callFrame vm.thread info with
  | .error e => (.stopped e, vm)
  | .ok thread =>
    let args := vm.thread.stack.drop (vm.thread.stack.length - info.argumentCount)
    let home := if D.hasHomes m then some (vm.lastHomeSerial + 1) else none
    (.framePushed, { vm with
      thread := thread
      activations := vm.activations ++ [⟨m, lookup, home⟩]
      lastHomeSerial := home.getD vm.lastHomeSerial
      started := vm.started ++ [.body m lookup args] })

/-- Check the depth of the stack, then call the method. -/
def enterBody (m : M) (lookup : L) (info : MethodInfo Ty) : StepResult × Vm M T L H Ty σ :=
  match D.managedFrameAbortError vm.thread with
  | some e => (.stopped (.error e), vm)
  | none => vm.callFrame D m lookup info

def dispatchResolvedMethod (m : M) (lookup : L) : StepResult × Vm M T L H Ty σ :=
  match D.classifyIntrinsic m with
  | some handler =>
    vm.startNative (.intrinsic handler m lookup) (N.dispatchMethodIntrinsic handler m lookup)
  | none =>
    if D.isPinvoke m then vm.startNative (.external m) (N.externalCall m)
    else if D.hasBody m then
      match D.methodInfo m lookup with
      | .error e => (.stopped (.error e), vm)
      | .ok info => vm.enterBody D m lookup info
    else vm.startNative (.provided m lookup) (N.dispatchWithoutBody m lookup)

def popForTailCall (frame : StackFrame Ty) (count : Nat) : Vm M T L H Ty σ :=
  { vm with
    thread := pushAll ({ vm.thread with frames := vm.thread.frames.dropLast }.truncate
      frame.base.arguments) ((vm.thread.stack.drop frame.base.stack).take count)
    activations := vm.activations.dropLast }

variable [DecidableEq T] [DecidableEq L]

/-- `StaticStorageManager::init`. Marking a type that has no initializer is left out, since both
states of such a type count as initialized. -/
def initStatics (type : T) (generics : L) : StaticInitResult M × Vm M T L H Ty σ :=
  match vm.statics type generics with
  | .initialized => (.initialized, vm)
  | .failed => (.failed, vm)
  | .initializing thread =>
    if thread = D.threadId then (.recursive, vm)
    else
      match D.staticInitializer type with
      | none => (.initialized, vm)
      | some _ => if N.causesCycle D.threadId thread vm.shared then (.recursive, vm)
        else (.waiting, vm)
  | .uninitialized =>
    match D.staticInitializer type with
    | none => (.initialized, vm)
    | some cctor => (.execute cctor, { vm with
        statics := fun t g => if t = type ∧ g = generics then .initializing D.threadId
          else vm.statics t g })

/-- Throw a `TypeInitializationException` for the type. -/
def throwTypeInitialization (type : T) : StepResult × Vm M T L H Ty σ :=
  let (exception, shared) := N.typeInitializationException type vm.shared
  (.exception, { vm with
    thread := vm.thread.setMode (.throwing exception false)
    shared := shared })

def initializeStaticStorage
    (dispatch : M → L → Vm M T L H Ty σ → StepResult × Vm M T L H Ty σ) (type : T) (lookup : L) :
    StepResult × Vm M T L H Ty σ :=
  let generics := D.trimToArity type lookup
  match vm.initStatics D N type generics with
  | (.execute cctor, vm) => dispatch cctor generics (vm.log (.initializer type generics))
  | (.initialized, vm) | (.recursive, vm) => (.continued, vm)
  | (.waiting, vm) =>
    let vm := vm.log (.awaited type generics)
    match N.waitForInit type generics vm.shared with
    | (none, shared) => (.yielded, { vm with
        thread := yieldAndRetry vm.thread
        shared := shared })
    | (some true, shared) => (.continued, { vm with shared := shared })
    | (some false, shared) => { vm with shared := shared }.throwTypeInitialization N type
  | (.failed, vm) => vm.throwTypeInitialization N type

def dispatchMethod : Nat → M → L → Vm M T L H Ty σ → StepResult × Vm M T L H Ty σ
  | 0, _, _, vm => (.stopped .panicked, vm)
  | depth + 1, m, lookup, vm =>
    match D.triggersInit m with
    | .error e => (.stopped (.error e), vm)
    | .ok triggers =>
      let initialized := if triggers then
          vm.initializeStaticStorage D N (dispatchMethod depth) (D.parent m) lookup
        else (.continued, vm)
      match initialized with
      | (.continued, vm) =>
        match D.tryRedirectExpressionCompileToInterpreter m with
        | some overload =>
          dispatchMethod depth overload lookup { vm with thread := vm.thread.push (.int32 1) }
        | none => vm.dispatchResolvedMethod D N m lookup
      | stopped => stopped

def dispatchMethodTail (depth : Nat) (m : M) (lookup : L) : StepResult × Vm M T L H Ty σ :=
  match D.classifyIntrinsic m with
  | some handler =>
    vm.startNative (.intrinsic handler m lookup) (N.dispatchMethodIntrinsic handler m lookup)
  | none =>
    if D.isPinvoke m then vm.startNative (.external m) (N.externalCall m)
    else if !D.hasBody m then dispatchMethod D N depth m lookup vm
    else
      match D.methodInfo m lookup with
      | .error e => (.stopped (.error e), vm)
      | .ok info =>
        match vm.thread.frames.getLast? with
        | none => (.stopped .panicked, vm)
        | some frame =>
          if shouldHonorTailCall frame info.argumentCount then
            if vm.thread.stack.length < frame.base.stack + info.argumentCount then
              (.stopped .panicked, vm)
            else (vm.popForTailCall frame info.argumentCount).enterBody D m lookup info
          else vm.enterBody D m lookup info

end Vm

end DotnetVm
