import DotnetVm.Lib.Runs

/-!
# The assembly loader

`get_assembly` looks its name up in the table `external` under a read lock, loads
the file of the name when the table has no resolution for it, and then registers
the new resolution under a write lock. The locks are not held in between, so the
calls of several threads interleave there, and every load makes a resolution
object of its own.

The table is the loader's memory of what it has handed out. It is one as long as
no registration replaces a resolution by another one.
-/

namespace DotnetVm.Assemblies

open Function Option Runs

abbrev ThreadId := Nat

abbrev Path := String

structure Version where
  major : Nat
  minor : Nat
  build : Nat
  revision : Nat
  deriving DecidableEq, Repr

def versionGe (v₁ v₂ : Version) : Bool :=
  if v₁.major > v₂.major then true
  else if v₁.major < v₂.major then false
  else if v₁.minor > v₂.minor then true
  else if v₁.minor < v₂.minor then false
  else if v₁.build > v₂.build then true
  else if v₁.build < v₂.build then false
  else decide (v₁.revision ≥ v₂.revision)

structure BindingRedirect where
  fromVersionStart : Version
  fromVersionEnd : Version
  toVersion : Version
  deriving DecidableEq, Repr

def BindingRedirect.matches (r : BindingRedirect) (v : Version) : Bool :=
  versionGe v r.fromVersionStart && versionGe r.fromVersionEnd v

/-- The assembly row of a module's metadata. -/
structure Assembly where
  name : String
  version : Version
  deriving DecidableEq, Repr

/-- A resolution is a pointer into the metadata arena: `object` is the pointer. -/
structure Resolution where
  object : Nat
  assembly : Option Assembly
  deriving DecidableEq, Repr

inductive AssemblyLoadError where
  | fileNotFound (name : String) (probed : Bool)
  | invalidFile (path : Path)
  | noAssembly
  | versionMismatch (name : String) (actual requested : Version)
  | versionTooOld (name : String) (actual requested : Version)
  deriving DecidableEq, Repr

/-- What the loader reads and never changes. -/
structure Host where
  assemblyRoot : String
  fileExists : Path → Bool
  /-- `none` when the file cannot be read as a module. -/
  parse : Path → Option (Option Assembly)
  redirects : String → List BindingRedirect
  strictVersioning : Bool
  /-- The assembly row of the embedded support library. -/
  supportLibrary : Option Assembly

def supportAssembly : String := "__dotnetrs_support"

/-- Where a thread is in a call of `get_assembly_with_version`. -/
inductive Pc where
  | idle
  | lookup (name : String) (requested : Option Version)
  | loading (name : String) (requested : Option Version) (checkExists : Bool)
  | registering (name : String) (requested : Option Version) (r : Resolution)
  | checking (name : String) (requested : Option Version) (r : Resolution)
  deriving DecidableEq, Repr

structure State where
  external : String → Option (Option Resolution)
  probingPaths : String → Option Path
  nextObject : Nat
  pc : ThreadId → Pc
  returned : List (String × Resolution)
  failed : List (String × AssemblyLoadError)

/-- A new loader knows the files it scanned and holds the support library, the first object. -/
def init (host : Host) (scanned : List String) : State where
  external := fun n =>
    if n = supportAssembly then some (some ⟨0, host.supportLibrary⟩)
    else if n ∈ scanned then some none else none
  probingPaths := fun _ => none
  nextObject := 1
  pc := fun _ => .idle
  returned := []
  failed := []

namespace State

def goto (s : State) (t : ThreadId) (p : Pc) : State := { s with pc := update s.pc t p }

def fail (s : State) (t : ThreadId) (name : String) (e : AssemblyLoadError) : State :=
  { s with pc := update s.pc t .idle, failed := (name, e) :: s.failed }

def insert (s : State) (name : String) (r : Resolution) : State :=
  { s with external := update s.external name (some (some r)) }

end State

def Host.redirect (host : Host) (name : String) (requested : Option Version) : Option Version :=
  requested.map fun v =>
    (((host.redirects name).find? fun r => r.matches v).map (·.toVersion)).getD v

/-- `external` at the time of the read lock decides how the call goes on. -/
def lookup (s : State) (t : ThreadId) (name : String) (requested : Option Version) : State :=
  match s.external name with
  | none => s.goto t (.loading name requested true)
  | some none => s.goto t (.loading name requested false)
  | some (some r) => s.goto t (.checking name requested r)

section

variable (host : Host) (s : State)

def assemblyFile (name : String) : Path :=
  (s.probingPaths name).getD (host.assemblyRoot ++ "/" ++ name ++ ".dll")

/-- The first half of `load_and_register`: find the file and parse it into a new object. -/
def load (t : ThreadId) (name : String) (requested : Option Version) (checkExists : Bool) : State :=
  if checkExists && !host.fileExists (assemblyFile host s name) then
    s.fail t name (.fileNotFound name (s.probingPaths name).isSome)
  else
    match host.parse (assemblyFile host s name) with
    | none => s.fail t name (.invalidFile (assemblyFile host s name))
    | some none => { s.fail t name .noAssembly with nextObject := s.nextObject + 1 }
    | some (some a) =>
      { s.goto t (.registering name requested ⟨s.nextObject, some a⟩) with
        nextObject := s.nextObject + 1 }

def registeredNames (name : String) (r : Resolution) : List String :=
  match r.assembly with
  | none => []
  | some a => if a.name ≠ name then [a.name, name] else [a.name]

/-- The second half of `load_and_register`. -/
def register (s : State) (name : String) (r : Resolution) : State :=
  (registeredNames name r).foldl (fun s n => s.insert n r) s

def versionError (name : String) (requested : Option Version) (r : Resolution) :
    Option AssemblyLoadError :=
  match requested, r.assembly with
  | some v, some a =>
    if a.version.major ≠ v.major ∨ a.version.minor ≠ v.minor then
      some (.versionMismatch name a.version v)
    else if !versionGe a.version v then some (.versionTooOld name a.version v)
    else none
  | _, _ => none

/-- The end of a call; a mismatch is only a warning unless versioning is strict. -/
def finish (t : ThreadId) (name : String) (requested : Option Version) (r : Resolution) : State :=
  match (versionError name requested r).filter fun _ => host.strictVersioning with
  | some e => s.fail t name e
  | none => { s.goto t .idle with returned := (name, r) :: s.returned }

def registerAssembly (s : State) (r : Resolution) : State :=
  match r.assembly with
  | none => s
  | some a => s.insert a.name r

def registerProbingPath (s : State) (name : String) (path : Path) : State :=
  match s.external name with
  | some _ => s
  | none =>
    { s with
      probingPaths := update s.probingPaths name (some path)
      external := update s.external name (some none) }

inductive Event where
  | call (t : ThreadId) (name : String) (requested : Option Version)
  | advance (t : ThreadId)
  | registerAssembly (r : Resolution)
  | registerProbingPath (name : String) (path : Path)
  deriving DecidableEq, Repr

/-- One step of the thread inside its call. -/
def advance (t : ThreadId) : Option State :=
  match s.pc t with
  | .idle => none
  | .lookup name requested => some (lookup s t name requested)
  | .loading name requested checkExists => some (load host s t name requested checkExists)
  | .registering name requested r =>
    some ((register s name r).goto t (.checking name requested r))
  | .checking name requested r => some (finish host s t name requested r)

def step : Event → Option State
  | .call t name requested =>
    if s.pc t = .idle then some (s.goto t (.lookup name (host.redirect name requested))) else none
  | .advance t => advance host s t
  | .registerAssembly r => some (registerAssembly s r)
  | .registerProbingPath name path => some (registerProbingPath s name path)

end

/-- `get_assembly` asks for no version. -/
def getAssembly (t : ThreadId) (name : String) : Event := .call t name none

/-- Registering `r` under these names replaces no other resolution. -/
def Vacant (s : State) (names : List String) (r : Resolution) : Prop :=
  ∀ n ∈ names, s.external n = none ∨ s.external n = some none ∨ s.external n = some (some r)

instance (s : State) (names : List String) (r : Resolution) : Decidable (Vacant s names r) :=
  inferInstanceAs (Decidable (∀ n ∈ names, _ ∨ _ ∨ _))

/-- The names and the resolution the step registers. -/
def registration (s : State) : Event → List String × Resolution
  | .advance t =>
    match s.pc t with
    | .registering name _ r => (registeredNames name r, r)
    | _ => ([], ⟨0, none⟩)
  | .registerAssembly r => ((r.assembly.map (·.name)).toList, r)
  | _ => ([], ⟨0, none⟩)

/-- The step replaces no resolution of the table by another one. -/
def NoReplacement (s : State) (e : Event) : Prop :=
  Vacant s (registration s e).1 (registration s e).2

instance (s : State) (e : Event) : Decidable (NoReplacement s e) :=
  inferInstanceAs (Decidable (Vacant _ _ _))

/-- Every resolution of the first table is in the second. -/
def Keeps (s s' : State) : Prop :=
  ∀ n r, s.external n = some (some r) → s'.external n = some (some r)

lemma Keeps.refl (s : State) : Keeps s s := fun _ _ h => h

lemma Keeps.trans {s₁ s₂ s₃ : State} (h : Keeps s₁ s₂) (h' : Keeps s₂ s₃) : Keeps s₁ s₃ :=
  fun n r hn => h' n r (h n r hn)

@[simp] lemma external_insert_self (s : State) (name : String) (r : Resolution) :
    (s.insert name r).external name = some (some r) := by
  simp [State.insert]

variable {name : String}

lemma external_insert_ne (s : State) {n : String} (r : Resolution) (h : n ≠ name) :
    (s.insert name r).external n = s.external n := by
  simp [State.insert, h]

variable {s : State} {r : Resolution}

lemma Vacant.keeps_insert (h : Vacant s [name] r) : Keeps s (s.insert name r) := by
  intro n r' hn
  by_cases hname : n = name
  · subst hname
    have := h n (by simp)
    simp_all
  · rw [external_insert_ne s r hname]
    exact hn

variable {names : List String}

lemma Vacant.insert (h : Vacant s names r) : Vacant (s.insert name r) names r := by
  intro n hn
  by_cases hname : n = name
  · subst hname
    exact .inr (Or.inr (external_insert_self s n r))
  · rw [external_insert_ne s r hname]
    exact h n hn

lemma foldl_insert (h : Vacant s names r) : Keeps s (names.foldl (fun s n => s.insert n r) s) ∧
      ∀ n ∈ names, (names.foldl (fun s n => s.insert n r) s).external n = some (some r) := by
  induction names generalizing s with
  | nil => exact ⟨Keeps.refl s, by simp⟩
  | cons name names ih =>
    have hfst : Vacant s [name] r := fun n hn => h n (by simp_all)
    have hrest : Vacant s names r := fun n hn => h n (List.mem_cons_of_mem _ hn)
    have hnext : Vacant (s.insert name r) names r := hrest.insert
    obtain ⟨hkp, hmem⟩ := ih hnext
    refine ⟨hfst.keeps_insert.trans hkp, ?_⟩
    intro n hn
    cases List.mem_cons.mp hn with
    | inl hhead => subst hhead; exact hkp n r (external_insert_self s n r)
    | inr htail => exact hmem n htail

section

variable (names : List String) (s : State) (r : Resolution)

@[simp] lemma foldl_insert_pc : (names.foldl (fun s n => s.insert n r) s).pc = s.pc := by
  induction names generalizing s with
  | nil => rfl
  | cons name names ih => exact ih _

@[simp] lemma foldl_insert_returned :
    (names.foldl (fun s n => s.insert n r) s).returned = s.returned := by
  induction names generalizing s with
  | nil => rfl
  | cons name names ih => exact ih _

end

/-- A loaded resolution comes from a file with an assembly. -/
def Pc.Loaded : Pc → Prop
  | .registering _ _ r => r.assembly.isSome
  | _ => True

/-- What a call is about to return is in the table. -/
def Pc.Entered (external : String → Option (Option Resolution)) : Pc → Prop
  | .checking name _ r => external name = some (some r)
  | _ => True

structure Remembered (s : State) : Prop where
  loaded : ∀ t, (s.pc t).Loaded
  checking : ∀ t, (s.pc t).Entered s.external
  returned : ∀ p ∈ s.returned, s.external p.1 = some (some p.2)

variable {s' : State}

lemma Pc.Entered.keeps {p : Pc} (hkp : Keeps s s')
    (h : p.Entered s.external) : p.Entered s'.external := by
  cases p with
  | checking name requested r => exact hkp name r h
  | _ => exact True.intro

variable {t : ThreadId}

variable {requested : Option Version}

variable {host : Host}

section

variable (h : Remembered s)
include h

lemma Remembered.goto {p : Pc} (hkp : Keeps s s') (hpc : s'.pc = update s.pc t p)
    (hret : s'.returned = s.returned) (hload : p.Loaded) (hent : p.Entered s'.external) :
    Remembered s' where
  loaded := by
    rw [hpc]
    exact (forall_update_iff _ fun _ (q : Pc) => q.Loaded).mpr ⟨hload, fun u _ => h.loaded u⟩
  checking := by
    rw [hpc]
    exact (forall_update_iff _ fun _ (q : Pc) => q.Entered s'.external).mpr
      ⟨hent, fun u _ => (h.checking u).keeps hkp⟩
  returned := by
    rw [hret]
    exact fun q hq => hkp _ _ (h.returned q hq)

lemma Remembered.of_keeps (hkp : Keeps s s') (hpc : s'.pc = s.pc)
    (hret : s'.returned = s.returned) : Remembered s' where
  loaded := by rw [hpc]; exact h.loaded
  checking := by rw [hpc]; exact fun t => (h.checking t).keeps hkp
  returned := by rw [hret]; exact fun q hq => hkp _ _ (h.returned q hq)

lemma Remembered.fail {e : AssemblyLoadError} : Remembered (s.fail t name e) :=
  h.goto (Keeps.refl s) rfl rfl True.intro True.intro

lemma Remembered.lookup : Remembered (lookup s t name requested) := by
  unfold Assemblies.lookup
  split
  · exact h.goto (Keeps.refl s) rfl rfl True.intro True.intro
  · exact h.goto (Keeps.refl s) rfl rfl True.intro True.intro
  next r hr => exact h.goto (Keeps.refl s) rfl rfl True.intro hr

lemma Remembered.load {checkExists : Bool} :
    Remembered (load host s t name requested checkExists) := by
  unfold Assemblies.load
  split
  · exact h.fail
  · split
    · exact h.fail
    · exact h.goto (Keeps.refl s) rfl rfl True.intro True.intro
    · exact h.goto (Keeps.refl s) rfl rfl rfl True.intro

omit h in
lemma mem_registeredNames (h : r.assembly.isSome) : name ∈ registeredNames name r := by
  obtain ⟨a, ha⟩ := isSome_iff_exists.mp h
  simp only [registeredNames, ha]
  split
  · simp
  next heq => simp_all

lemma Remembered.register (hsome : r.assembly.isSome)
    (hvacant : Vacant s (registeredNames name r) r) :
    Remembered ((register s name r).goto t (.checking name requested r)) := by
  obtain ⟨hkp, hmem⟩ := foldl_insert hvacant
  have hpc : ((Assemblies.register s name r).goto t (.checking name requested r)).pc =
      update s.pc t (.checking name requested r) := by
    simp [State.goto, Assemblies.register]
  have hret : ((Assemblies.register s name r).goto t (.checking name requested r)).returned =
      s.returned := by
    simp [State.goto, Assemblies.register]
  exact h.goto hkp hpc hret True.intro (hmem name (mem_registeredNames hsome))

lemma Remembered.finish (hr : s.external name = some (some r)) :
    Remembered (finish host s t name requested r) := by
  unfold Assemblies.finish
  split
  · exact h.fail
  · have hidle : Remembered (s.goto t .idle) :=
      h.goto (Keeps.refl s) rfl rfl True.intro True.intro
    exact ⟨hidle.loaded, hidle.checking, List.forall_mem_cons.mpr ⟨hr, hidle.returned⟩⟩

lemma Remembered.advance (hok : NoReplacement s (.advance t)) (hs : advance host s t = some s') :
    Remembered s' := by
  have hload := h.loaded t
  have hent := h.checking t
  unfold NoReplacement registration at hok
  unfold Assemblies.advance at hs
  cases hpc : s.pc t with
  | idle => simp [hpc] at hs
  | lookup name requested =>
    obtain rfl : _ = s' := by simpa [hpc] using hs
    exact h.lookup
  | loading name requested checkExists =>
    obtain rfl : _ = s' := by simpa [hpc] using hs
    exact h.load
  | registering name requested r =>
    obtain rfl : _ = s' := by simpa [hpc] using hs
    rw [hpc] at hload
    simp only [hpc] at hok
    exact h.register hload hok
  | checking name requested r =>
    obtain rfl : _ = s' := by simpa [hpc] using hs
    rw [hpc] at hent
    exact h.finish hent

lemma Remembered.registerAssembly (hok : NoReplacement s (.registerAssembly r)) :
    Remembered (registerAssembly s r) := by
  unfold Assemblies.registerAssembly
  split
  · exact h
  next a ha =>
    have hvacant : Vacant s [a.name] r := by simpa [NoReplacement, registration, ha] using hok
    exact h.of_keeps hvacant.keeps_insert rfl rfl

lemma Remembered.registerProbingPath {path : Path} :
    Remembered (registerProbingPath s name path) := by
  unfold Assemblies.registerProbingPath
  split
  · exact h
  next hno =>
    refine h.of_keeps ?_ rfl rfl
    intro n r hn
    by_cases hname : n = name
    · subst hname
      rw [hno] at hn
      cases hn
    · simpa [hname] using hn

lemma Remembered.step {e : Event} (hok : NoReplacement s e) (hs : step host s e = some s') :
    Remembered s' := by
  cases e with
  | call t name requested =>
    simp only [Assemblies.step] at hs
    split at hs
    · obtain rfl := some.inj hs
      exact h.goto (Keeps.refl s) rfl rfl True.intro True.intro
    · cases hs
  | advance t => exact h.advance hok hs
  | registerAssembly r =>
    obtain rfl := some.inj hs
    exact h.registerAssembly hok
  | registerProbingPath name path =>
    obtain rfl := some.inj hs
    exact h.registerProbingPath

omit h in
lemma remembered_init (host : Host) (scanned : List String) : Remembered (init host scanned) where
  loaded := fun _ => True.intro
  checking := fun _ => True.intro
  returned := by simp [init]

lemma Remembered.run (hrun : Run (Assemblies.step host) NoReplacement s s') : Remembered s' :=
  Run.invariant (fun _ _ _ hi hok hs => hi.step hok hs) hrun h

end

lemma getAssembly_of_external (hidle : s.pc t = .idle) (hr : s.external name = some (some r)) :
    ∃ s', exec (step host) s [getAssembly t name, .advance t, .advance t] = some s' ∧
      s'.returned = (name, r) :: s.returned := by
  have hcall : step host s (getAssembly t name) = some (s.goto t (.lookup name none)) := by
    simp [getAssembly, step, hidle, Host.redirect]
  have hlook : step host (s.goto t (.lookup name none)) (.advance t) =
      some ((s.goto t (.lookup name none)).goto t (.checking name none r)) := by
    simp [step, advance, lookup, State.goto, hr]
  refine ⟨{ ((s.goto t (.lookup name none)).goto t (.checking name none r)).goto t .idle with
    returned := (name, r) :: s.returned }, ?_, rfl⟩
  simp [exec, hcall, hlook]
  simp [step, advance, finish, versionError, State.goto]

/-- In every run in which no registration replaces a resolution, all answers for a name are one
object, and a further call for the name returns that object too. -/
theorem get_assembly_same_resolution (host : Host) (scanned : List String) (s : State)
    (hrun : Run (step host) NoReplacement (init host scanned) s) :
    (∀ n r r', (n, r) ∈ s.returned → (n, r') ∈ s.returned → r = r') ∧
      ∀ n r t, (n, r) ∈ s.returned → s.pc t = .idle →
        ∃ s', exec (step host) s [getAssembly t n, .advance t, .advance t] = some s' ∧
          s'.returned = (n, r) :: s.returned := by
  have hinv := (remembered_init host scanned).run hrun
  constructor
  · intro n r r' hr hr'
    have h := hinv.returned _ hr
    have h' := hinv.returned _ hr'
    rw [h] at h'
    exact some.inj (some.inj h')
  · intro n r t hr hidle
    exact getAssembly_of_external hidle (hinv.returned _ hr)

def twoFiles : Host where
  assemblyRoot := "lib"
  fileExists := fun _ => true
  parse := fun p =>
    if p = "lib/A.dll" ∨ p = "lib/B.dll" then some (some ⟨"A", 1, 0, 0, 0⟩) else none
  redirects := fun _ => []
  strictVersioning := false
  supportLibrary := some ⟨"support", 0, 0, 0, 0⟩

/-- One thread asks for `A`, then another one does. -/
def twoCalls : List Event :=
  [getAssembly 1 "A", .advance 1, .advance 1, .advance 1, .advance 1,
    getAssembly 2 "A", .advance 2, .advance 2]

theorem two_calls_same_resolution :
    ∃ s, Run (step twoFiles) NoReplacement (init twoFiles ["A", "B"]) s ∧
      s.returned = [("A", ⟨1, some ⟨"A", 1, 0, 0, 0⟩⟩), ("A", ⟨1, some ⟨"A", 1, 0, 0, 0⟩⟩)] ∧
      ∀ n r r', (n, r) ∈ s.returned → (n, r') ∈ s.returned → r = r' := by
  have hrun : Run (step twoFiles) NoReplacement (init twoFiles ["A", "B"])
      ((exec (step twoFiles) (init twoFiles ["A", "B"]) twoCalls).getD (init twoFiles [])) :=
    Run.of_exec twoCalls (by decide) rfl
  exact ⟨_, hrun, by decide, (get_assembly_same_resolution twoFiles ["A", "B"] _ hrun).1⟩

/-- Both threads look `A` up before either of them has registered it. -/
def race : List Event :=
  [getAssembly 1 "A", getAssembly 2 "A", .advance 1, .advance 2, .advance 1, .advance 2,
    .advance 1, .advance 1, .advance 2, .advance 2]

/-- One thread asks for `A`, for `B`, and for `A` again. -/
def shadowed : List Event :=
  [getAssembly 1 "A", .advance 1, .advance 1, .advance 1, .advance 1,
    getAssembly 1 "B", .advance 1, .advance 1, .advance 1, .advance 1,
    getAssembly 1 "A", .advance 1, .advance 1]

/-- Two calls that race get an object each. A file that declares the name of another one takes
its place: the same thread then gets a different object for the same name. -/
theorem get_assembly_two_resolutions :
    ((exec (step twoFiles) (init twoFiles ["A", "B"]) race).map fun s => s.returned.map fun p =>
        (p.1, p.2.object)) = some [("A", 2), ("A", 1)] ∧
      ((exec (step twoFiles) (init twoFiles ["A", "B"]) shadowed).map fun s =>
        s.returned.map fun p =>
        (p.1, p.2.object)) = some [("A", 2), ("B", 2), ("A", 1)] := by
  decide

end DotnetVm.Assemblies
