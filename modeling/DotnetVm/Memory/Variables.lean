import DotnetVm.Layout.Placement
import DotnetVm.Memory.Values

/-!
# Locals and arguments in homes and in slots

A local or argument whose address the method takes lives in the home block of its
frame, where a store narrows the value to the declared type and a load widens it.
Every other variable lives in a slot of the evaluation stack, which keeps the value
as it was stored. The homes of a frame do not overlap, so a homed variable changes
only by stores to it and through its own address.
-/

namespace DotnetVm.RawMemory.Variables

open Bytes List Option

inductive Var where
  | local (index : Nat)
  | argument (index : Nat)
  deriving DecidableEq, Repr

def Var.name : Var → String
  | .local index => "V_" ++ toString index
  | .argument index => "A_" ++ toString index

/-- How a variable of another than a primitive type is laid out, and what a load makes of it. -/
structure HomeType where
  layout : LayoutManager
  valueType : Option TypeDescription

/-- The declared type of a variable. A typed reference has no home. -/
inductive VarType where
  | primitive (p : Primitive)
  | other (home : Option HomeType) (initial : StackValue)

/-- `variable_home` but for the position. -/
def VarType.home : VarType → Option HomeType
  | .primitive p => some ⟨.scalar p.scalar, none⟩
  | .other home _ => home

inductive Instruction where
  | loadLocalAddress (index : Nat)
  | loadArgumentAddress (index : Nat)
  | other
  deriving DecidableEq, Repr

/-- A method with the declared types of its variables and its body. -/
structure Method where
  parent : TypeDescription
  locals : List VarType
  arguments : List VarType
  instructions : List Instruction

/-- The instruction that takes the address of a variable. -/
def Var.addressInstruction : Var → Instruction
  | .local index => .loadLocalAddress index
  | .argument index => .loadArgumentAddress index

def Method.typeOf (m : Method) : Var → Option VarType
  | .local index => m.locals[index]?
  | .argument index => m.arguments[index]?

def Method.variables (m : Method) : List Var :=
  (List.range m.locals.length).map .local ++ (List.range m.arguments.length).map .argument

/-- The home type of a variable whose address is taken. -/
def Method.homeType (m : Method) (x : Var) : Option HomeType :=
  if x.addressInstruction ∈ m.instructions then (m.typeOf x).bind VarType.home else none

/-- Where a homed variable lives in the home block and how it is decoded. -/
structure VariableHome where
  offset : Nat
  layout : LayoutManager
  valueType : Option TypeDescription

structure FrameHomeLayout where
  block : FieldLayoutManager
  home : Var → Option VariableHome

def Method.homeFields (m : Method) : List FieldInput :=
  m.variables.filterMap fun x => (m.homeType x).map fun h => ⟨m.parent, x.name, none, h.layout⟩

/-- The position of the field of a variable in the block. -/
def position (block : FieldLayoutManager) (x : Var) : Option Nat :=
  (block.fields.find? fun f => decide (f.key.name = x.name)).map Placed.position

def buildFrameHomes (typeName : TypeDescription → String) (m : Method) :
    Except TypeResolutionError (Option FrameHomeLayout) :=
  if m.homeFields.isEmpty then .ok none
  else
    match createFieldLayout typeName m.homeFields .automatic 0 .one with
    | .error e => .error e
    | .ok block => .ok (some
        { block := block
          home := fun x => (m.homeType x).bind fun h =>
            (position block x).map fun offset => ⟨offset, h.layout, h.valueType⟩ })

variable (host : Host)

/-- The implicit conversions of a store to a home. -/
def homeValue (layout : LayoutManager) (v : StackValue) :
    Except RawMemory.MemoryAccessError StackValue :=
  match layout, v with
  | .scalar .nativeInt, .int32 v => .ok (.nativeInt (v.signExtend 64))
  | .scalar .nativeInt, .managedPtr p =>
    if p.transient then .error .invalidOrigin else .ok (.nativeInt (host.address p.encoding))
  | .scalar .int8, .nativeInt v => .ok (.int32 (v.setWidth 32))
  | .scalar .uInt8, .nativeInt v => .ok (.int32 (v.setWidth 32))
  | .scalar .int16, .nativeInt v => .ok (.int32 (v.setWidth 32))
  | .scalar .uInt16, .nativeInt v => .ok (.int32 (v.setWidth 32))
  | .scalar .int32, .nativeInt v => .ok (.int32 (v.setWidth 32))
  | .field m, .valueType description data =>
    if data.length = m.totalSize then .ok (.valueType description data)
    else .error (.typeMismatch "stored value type does not match the local's layout")
  | _, v => .ok v

section

variable (block : List (BitVec 8)) (home : VariableHome)

/-- `store_home`: the block with the value in the home. -/
def storeHome (v : StackValue) : Except RawMemory.MemoryAccessError (List (BitVec 8)) :=
  match homeValue host home.layout v with
  | .error e => .error e
  | .ok v =>
    match writeValueInternal host home.layout v with
    | .error e => .error e
    | .ok bs => .ok (store block home.offset bs)

def loadHome : Option StackValue :=
  match home.valueType with
  | some description => some (.valueType description (load block home.offset home.layout.size))
  | none =>
    (readValueInternal host home.layout none (load block home.offset home.layout.size)).toOption

end

/-- A running frame: its homes, the bytes of the home block, and the slots of its variables. -/
structure Frame where
  homes : Option FrameHomeLayout
  block : List (BitVec 8)
  slots : Var → StackValue

def Frame.home (f : Frame) (x : Var) : Option VariableHome := f.homes.bind fun h => h.home x

/-- `get_local` and `get_argument`. -/
def getVariable (f : Frame) (x : Var) : Option StackValue :=
  match f.home x with
  | some home => loadHome host f.block home
  | none => some (f.slots x)

/-- `set_local` and `set_argument`. -/
def setVariable (f : Frame) (x : Var) (v : StackValue) : Except RawMemory.MemoryAccessError Frame :=
  match f.home x with
  | some home =>
    match storeHome host f.block home v with
    | .error e => .error e
    | .ok block => .ok { f with block := block }
  | none => .ok { f with slots := Function.update f.slots x v }

/-- The value `init_locals` gives to a local of a primitive type. -/
def defaultValue : Primitive → StackValue
  | .boolean | .char | .int8 | .uInt8 | .int16 | .uInt16 | .int32 | .uInt32 => .int32 0
  | .int64 | .uInt64 => .int64 0
  | .float32 | .float64 => .nativeFloat 0
  | .intPtr | .uIntPtr => .nativeInt 0
  | .object | .string => .objectRef 0

def VarType.initial : VarType → StackValue
  | .primitive p => defaultValue p
  | .other _ initial => initial

def Method.startValue (m : Method) (passed : Nat → StackValue) : Var → StackValue
  | .local index => ((m.locals[index]?).map VarType.initial).getD (.objectRef 0)
  | .argument index => passed index

def installFrameHomes (f : Frame) : List Nat → Except RawMemory.MemoryAccessError Frame
  | [] => .ok f
  | index :: rest =>
    match f.home (.argument index) with
    | none => installFrameHomes f rest
    | some home =>
      match storeHome host f.block home (f.slots (.argument index)) with
      | .error e => .error e
      | .ok block => installFrameHomes { f with block := block } rest

def blockSize (homes : Option FrameHomeLayout) : Nat :=
  (homes.map fun h => h.block.totalSize).getD 0

section

variable (m : Method) (homes : Option FrameHomeLayout) (passed : Nat → StackValue)

def newFrame : Frame where
  homes := homes
  block := List.replicate (blockSize homes) 0
  slots := m.startValue passed

/-- The frame of a call; its homed arguments are in the home block. -/
def enter : Except RawMemory.MemoryAccessError Frame :=
  installFrameHomes host (newFrame m homes passed) (List.range m.arguments.length)

end

inductive Event where
  | store (x : Var) (v : StackValue)
  | write (x : Var) (offset : Nat) (bs : List (BitVec 8))

def step (f : Frame) : Event → Except RawMemory.MemoryAccessError Frame
  | .store x v => setVariable host f x v
  | .write x offset bs =>
    match f.home x with
    | none => .error .invalidOrigin
    | some home =>
      if offset + bs.length ≤ home.layout.size then
        .ok { f with block := store f.block (home.offset + offset) bs }
      else .error (.boundsCheck offset bs.length home.layout.size)

def run (f : Frame) : List Event → Except RawMemory.MemoryAccessError Frame
  | [] => .ok f
  | e :: es =>
    match step host f e with
    | .error err => .error err
    | .ok f => run f es

/-- The value a variable was last given. -/
def lastStored (x : Var) (v : StackValue) : List Event → StackValue
  | [] => v
  | .store y w :: es => lastStored x (if y = x then w else v) es
  | .write _ _ _ :: es => lastStored x v es

/-- No write goes through the address of the variable. -/
def Unwritten (x : Var) (es : List Event) : Prop := ∀ e ∈ es, ∀ offset bs, e ≠ .write x offset bs

lemma Var.name_injective {x y : Var} (h : x.name = y.name) : x = y := by
  have hchars := congrArg String.toList h
  cases x with
  | «local» i =>
    cases y with
    | «local» j =>
      simp only [Var.name, String.toList_append] at hchars
      have htail := append_cancel_left hchars
      rw [Nat.repr_inj.mp (String.toList_injective htail)]
    | argument j => simp [Var.name] at hchars
  | argument i =>
    cases y with
    | «local» j => simp [Var.name] at hchars
    | argument j =>
      simp only [Var.name, String.toList_append] at hchars
      have htail := append_cancel_left hchars
      rw [Nat.repr_inj.mp (String.toList_injective htail)]

lemma mem_variables {m : Method} {x : Var} : x ∈ m.variables ↔ ∃ t, m.typeOf x = some t := by
  cases x <;> simp [Method.variables, Method.typeOf, getElem?_eq_some_iff]

structure WellHomed (m : Method) (homes : Option FrameHomeLayout) : Prop where
  homed : ∀ x t, m.homeType x = some t → ∃ h, (homes.bind fun l => l.home x) = some h
  typed : ∀ x h, (homes.bind fun l => l.home x) = some h →
    m.homeType x = some ⟨h.layout, h.valueType⟩
  within : ∀ x h, (homes.bind fun l => l.home x) = some h →
    h.offset + h.layout.size ≤ blockSize homes
  apart : ∀ x y h k, x ≠ y → (homes.bind fun l => l.home x) = some h →
    (homes.bind fun l => l.home y) = some k →
    h.offset + h.layout.size ≤ k.offset ∨ k.offset + k.layout.size ≤ h.offset

lemma mem_homeFields {m : Method} {f : FieldInput} : f ∈ m.homeFields ↔
    ∃ x t, m.homeType x = some t ∧ f = ⟨m.parent, x.name, none, t.layout⟩ := by
  simp only [Method.homeFields, mem_filterMap, map_eq_some_iff]
  constructor
  · rintro ⟨x, _, t, ht, rfl⟩
    exact ⟨x, t, ht, rfl⟩
  · rintro ⟨x, t, ht, rfl⟩
    refine ⟨x, mem_variables.mpr ?_, t, ht, rfl⟩
    unfold Method.homeType at ht
    split at ht
    · obtain ⟨t', ht', _⟩ := bind_eq_some_iff.mp ht
      exact ⟨t', ht'⟩
    · cases ht

section Build

variable {typeName : TypeDescription → String} {m : Method} {block : FieldLayoutManager}
  (hblock : createFieldLayout typeName m.homeFields .automatic 0 .one = .ok block)
include hblock

lemma exists_field_of_position {x : Var} {t : HomeType} {offset : Nat}
    (ht : m.homeType x = some t) (hoff : position block x = some offset) :
    ∃ g ∈ block.fields, g.key = ⟨m.parent, x.name⟩ ∧ g.position = offset ∧ g.layout = t.layout := by
  obtain ⟨g, hfind, hpos⟩ := map_eq_some_iff.mp hoff
  have hname : g.key.name = x.name := by simpa using find?_some hfind
  have hmem := mem_of_find?_eq_some hfind
  obtain ⟨f, hf, hkey, hlay⟩ := (wellPlaced_of_ok (fun _ => by simp) hblock).input g hmem
  obtain ⟨y, t', ht', rfl⟩ := mem_homeFields.mp hf
  obtain rfl : y = x := by
    refine Var.name_injective ?_
    rw [← hname, hkey]
    rfl
  rw [ht] at ht'
  cases ht'
  exact ⟨g, hmem, hkey, hpos, hlay⟩

lemma exists_position {x : Var} {t : HomeType} (ht : m.homeType x = some t) :
    ∃ offset, position block x = some offset := by
  obtain ⟨g, hg, hkey⟩ := (wellPlaced_of_ok (fun _ => by simp) hblock).exists_key
    (mem_homeFields.mpr ⟨x, t, ht, rfl⟩)
  unfold position
  cases hfind : block.fields.find? fun f => decide (f.key.name = x.name) with
  | some g' => exact ⟨g'.position, rfl⟩
  | none =>
    have hno := find?_eq_none.mp hfind g hg
    rw [hkey] at hno
    simp [FieldInput.key] at hno

end Build

lemma wellHomed_of_build {typeName : TypeDescription → String} {m : Method}
    {homes : Option FrameHomeLayout} (h : buildFrameHomes typeName m = .ok homes) :
    WellHomed m homes := by
  unfold buildFrameHomes at h
  split at h
  next hemp =>
    obtain rfl := Except.ok.inj h
    refine ⟨fun x t ht => ?_, by simp, by simp, by simp⟩
    have hmem : _ ∈ m.homeFields := mem_homeFields.mpr ⟨x, t, ht, rfl⟩
    rw [isEmpty_iff.mp hemp] at hmem
    cases hmem
  · split at h
    · cases h
    next block hblock =>
      obtain rfl := Except.ok.inj h
      have hplaced := wellPlaced_of_ok (fun _ => by simp) hblock
      -- a home and its field in the block
      have hfld : ∀ x h, ((m.homeType x).bind fun t => (position block x).map fun offset =>
          (⟨offset, t.layout, t.valueType⟩ : VariableHome)) = some h →
          m.homeType x = some ⟨h.layout, h.valueType⟩ ∧ ∃ g ∈ block.fields,
            g.key = ⟨m.parent, x.name⟩ ∧ g.position = h.offset ∧ g.layout = h.layout := by
        intro x h hx
        obtain ⟨t, ht, hx⟩ := bind_eq_some_iff.mp hx
        obtain ⟨offset, hoff, rfl⟩ := map_eq_some_iff.mp hx
        exact ⟨ht, exists_field_of_position hblock ht hoff⟩
      refine ⟨fun x t ht => ?_, fun x h hx => (hfld x h hx).1, fun x h hx => ?_, ?_⟩
      · obtain ⟨offset, hoff⟩ := exists_position hblock ht
        exact ⟨⟨offset, t.layout, t.valueType⟩, by simp [ht, hoff]⟩
      · obtain ⟨_, g, hg, _, hpos, hlay⟩ := hfld x h hx
        have hcovered := hplaced.covered g hg
        rw [Placed.stop, hpos, hlay] at hcovered
        exact hcovered
      · intro x y h k hxy hx hy
        obtain ⟨_, g, hg, hgkey, hgpos, hglayout⟩ := hfld x h hx
        obtain ⟨_, g', hg', hgkey', hgpos', hglayout'⟩ := hfld y k hy
        have hne : g ≠ g' := by
          rintro rfl
          rw [hgkey] at hgkey'
          exact hxy (Var.name_injective (congrArg FieldKey.name hgkey'))
        have hsymm : Std.Symm Apart := ⟨fun _ _ => Or.symm⟩
        have hap := hplaced.apart.forall hg hg' hne
        rw [Apart, Placed.stop, Placed.stop, hgpos, hglayout, hgpos', hglayout'] at hap
        exact hap

variable {host}

variable {v : StackValue} {bs : List (BitVec 8)}

lemma length_writeValueInternal {layout : LayoutManager}
    (h : writeValueInternal host layout v = .ok bs) : bs.length ≤ layout.size := by
  cases layout with
  | scalar s => exact (readScalar_writeScalar h).1.le
  | field m =>
    cases v with
    | valueType description data =>
      obtain rfl := Except.ok.inj h
      exact length_take_le _ _
    | _ => cases h
  | array _ _ => cases h

variable {block block' : List (BitVec 8)} {home : VariableHome}

lemma storeHome_elsewhere (hfits : home.offset + home.layout.size ≤ block.length)
    (h : storeHome host block home v = .ok block') :
    block'.length = block.length ∧ ∀ o n,
      o + n ≤ home.offset ∨ home.offset + home.layout.size ≤ o →
        load block' o n = load block o n := by
  unfold storeHome at h
  split at h
  · cases h
  · split at h
    · cases h
    next bs hbs =>
      obtain rfl := Except.ok.inj h
      have hlen := length_writeValueInternal hbs
      refine ⟨length_store (by omega), fun o n hap => load_store_apart (by omega) ?_⟩
      omega

def isInteger : Primitive → Bool
  | .float32 | .float64 | .object | .string => false
  | _ => true

/-- A value narrowed to an integer type and widened back, after the conversions a store allows. -/
def convert (host : Host) (p : Primitive) (v : StackValue) : Option StackValue :=
  (homeValue host (.scalar p.scalar) v).toOption.bind (settle host p.scalar)

lemma loadHome_storeHome
    {p : Primitive} (hlay : home.layout = .scalar p.scalar) (hpl : home.valueType = none)
    (hfits : home.offset + home.layout.size ≤ block.length)
    (h : storeHome host block home v = .ok block') :
    loadHome host block' home = convert host p v := by
  unfold storeHome at h
  split at h
  · cases h
  next w hw =>
    split at h
    · cases h
    next bs hbs =>
      obtain rfl := Except.ok.inj h
      rw [hlay] at hbs hw
      obtain ⟨hlen, hsettle⟩ := readScalar_writeScalar (show writeScalar host p.scalar w = .ok bs
        from hbs)
      have hsize : home.layout.size = bs.length := by rw [hlay, hlen]; rfl
      have hload : load (store block home.offset bs) home.offset home.layout.size = bs := by
        rw [hsize]
        exact load_store_same (by omega)
      unfold loadHome
      rw [hpl]
      rw [hload, hlay]
      simp [readValueInternal, convert, hw, Except.toOption, hsettle]

variable {m : Method} {homes : Option FrameHomeLayout} {f f' : Frame} {x y : Var} {v : StackValue}
  {p : Primitive}

/-- A frame of a method with these homes. -/
structure FrameOf (homes : Option FrameHomeLayout) (f : Frame) : Prop where
  same : f.homes = homes
  length : f.block.length = blockSize homes

def Keeps (host : Host) (f : Frame) (x : Var) (p : Primitive) (v : StackValue) : Prop :=
  getVariable host f x = if (f.home x).isSome then convert host p v else some v

lemma FrameOf.home_eq (hf : FrameOf homes f) (x : Var) :
    f.home x = homes.bind fun l => l.home x := by rw [Frame.home, hf.same]

variable {h : VariableHome}

lemma WellHomed.scalar (hw : WellHomed m homes)
    (hx : m.typeOf x = some (.primitive p)) (hh : (homes.bind fun l => l.home x) = some h) :
    h.layout = .scalar p.scalar ∧ h.valueType = none := by
  have ht := hw.typed x h hh
  unfold Method.homeType at ht
  split at ht
  · rw [hx] at ht
    obtain ⟨hlay, hval⟩ := HomeType.mk.inj (some.inj ht)
    exact ⟨hlay.symm, hval.symm⟩
  · cases ht

lemma getVariable_congr (hhomes : f'.homes = f.homes)
    (hslot : f.home x = none → f'.slots x = f.slots x) (hbytes : ∀ h, f.home x = some h →
      load f'.block h.offset h.layout.size = load f.block h.offset h.layout.size) :
    getVariable host f' x = getVariable host f x := by
  have hhome : f'.home x = f.home x := by rw [Frame.home, Frame.home, hhomes]
  unfold getVariable
  rw [hhome]
  cases hx : f.home x with
  | none => exact congrArg some (hslot hx)
  | some h => simp only [loadHome, hbytes h hx]

section

variable (hw : WellHomed m homes) (hf : FrameOf homes f)
include hw hf

lemma WellHomed.elsewhere {k : VariableHome} (hxy : x ≠ y) (hh : f.home y = some h)
    (hk : f.home x = some k) :
    k.offset + k.layout.size ≤ h.offset ∨ h.offset + h.layout.size ≤ k.offset := by
  rw [hf.home_eq] at hh hk
  exact hw.apart x y k h hxy hk hh

lemma WellHomed.fits (hh : f.home y = some h) : h.offset + h.layout.size ≤ f.block.length := by
  rw [hf.home_eq] at hh
  rw [hf.length]
  exact hw.within y h hh

lemma setVariable_spec (hs : setVariable host f y v = .ok f') :
    FrameOf homes f' ∧ (∀ x, x ≠ y → getVariable host f' x = getVariable host f x) ∧
      ∀ p, m.typeOf y = some (.primitive p) → Keeps host f' y p v := by
  unfold setVariable at hs
  split at hs
  next h hh =>
    split at hs
    · cases hs
    next block hblock =>
      obtain rfl := Except.ok.inj hs
      obtain ⟨hlen, helse⟩ := storeHome_elsewhere (hw.fits hf hh) hblock
      refine ⟨⟨hf.same, hlen.trans hf.length⟩, fun x hxy => ?_, fun p hp => ?_⟩
      · refine getVariable_congr rfl (fun _ => rfl) fun k hk => ?_
        exact helse _ _ (hw.elsewhere hf hxy hh hk)
      · have hh' : (homes.bind fun l => l.home y) = some h := by rw [← hf.home_eq, hh]
        obtain ⟨hlay, hpl⟩ := hw.scalar hp hh'
        have hload := loadHome_storeHome hlay hpl (hw.fits hf hh) hblock
        have hhome : ({ f with block := block } : Frame).home y = some h := hh
        simp [Keeps, getVariable, hhome, hload]
  next hh =>
    obtain rfl := Except.ok.inj hs
    refine ⟨⟨hf.same, hf.length⟩, fun x hxy => ?_, fun p _ => ?_⟩
    · refine getVariable_congr rfl (fun _ => ?_) fun _ _ => rfl
      exact Function.update_of_ne hxy _ _
    · have hhome : ({ f with slots := Function.update f.slots y v } : Frame).home y = none := hh
      simp [Keeps, getVariable, hhome]

lemma step_write_spec {offset : Nat} (hs : step host f (.write y offset bs) = .ok f') :
    FrameOf homes f' ∧ ∀ x, x ≠ y → getVariable host f' x = getVariable host f x := by
  simp only [step] at hs
  split at hs
  · cases hs
  next h hh =>
    split at hs
    next hle =>
      obtain rfl := Except.ok.inj hs
      have hfits := hw.fits hf hh
      refine ⟨⟨hf.same, (length_store (by omega)).trans hf.length⟩, fun x hxy => ?_⟩
      refine getVariable_congr rfl (fun _ => rfl) fun k hk => load_store_apart (by omega) ?_
      have hap := hw.elsewhere hf hxy hh hk
      omega
    · cases hs

omit hw in
lemma Keeps.congr (hf' : FrameOf homes f') (hx : getVariable host f' x = getVariable host f x)
    (hk : Keeps host f x p v) : Keeps host f' x p v := by
  unfold Keeps at hk ⊢
  rw [hx, hk, hf.home_eq, hf'.home_eq]

lemma keeps_of_run (hx : m.typeOf x = some (.primitive p)) (hk : Keeps host f x p v)
    {es : List Event} (hfree : Unwritten x es) (hrun : run host f es = .ok f') :
    FrameOf homes f' ∧ Keeps host f' x p (lastStored x v es) := by
  induction es generalizing f v with
  | nil =>
    obtain rfl := Except.ok.inj hrun
    exact ⟨hf, hk⟩
  | cons e es ih =>
    have hfree' : Unwritten x es := fun e he => hfree e (mem_cons_of_mem _ he)
    simp only [run] at hrun
    split at hrun
    · cases hrun
    next g hg =>
      cases e with
      | store y w =>
        obtain ⟨hf', helse, hown⟩ := setVariable_spec hw hf hg
        by_cases hyx : y = x
        · subst hyx
          simpa only [lastStored, if_true] using ih hf' (hown p hx) hfree' hrun
        · have hkp := hk.congr hf hf' (helse x fun h => hyx h.symm)
          simpa only [lastStored, if_neg hyx] using ih hf' hkp hfree' hrun
      | write y offset bs =>
        have hne : x ≠ y := by
          rintro rfl
          exact hfree _ mem_cons_self offset bs rfl
        obtain ⟨hf', helse⟩ := step_write_spec hw hf hg
        exact ih hf' (hk.congr hf hf' (helse x hne)) hfree' hrun

lemma installFrameHomes_spec {l : List Nat} (h : installFrameHomes host f l = .ok f') :
    FrameOf homes f' ∧ f'.slots = f.slots ∧
      (∀ x, (∀ i ∈ l, x ≠ .argument i) → getVariable host f' x = getVariable host f x) ∧
      ∀ i ∈ l, ∀ p, m.typeOf (.argument i) = some (.primitive p) →
        Keeps host f' (.argument i) p (f.slots (.argument i)) := by
  induction l generalizing f with
  | nil =>
    obtain rfl := Except.ok.inj h
    exact ⟨hf, rfl, fun _ _ => rfl, by simp⟩
  | cons i l ih =>
    simp only [installFrameHomes] at h
    split at h
    next hno =>
      obtain ⟨hf', hsl, helse, hown⟩ := ih hf h
      refine ⟨hf', hsl, fun x hx => helse x fun j hj => hx j (mem_cons_of_mem _ hj), ?_⟩
      intro j hj p hp
      by_cases hjl : j ∈ l
      · exact hown j hjl p hp
      · obtain rfl : j = i := by simpa [hjl] using hj
        have hkp : Keeps host f (.argument j) p (f.slots (.argument j)) := by
          simp [Keeps, getVariable, hno]
        refine hkp.congr hf hf' (helse _ fun k hk heq => ?_)
        obtain rfl := Var.argument.inj heq
        exact hjl hk
    next home hhome =>
      split at h
      · cases h
      next block hblock =>
        have hset : setVariable host f (.argument i) (f.slots (.argument i)) =
            .ok { f with block := block } := by
          simp only [setVariable, hhome, hblock]
        obtain ⟨hfb, helseb, hownb⟩ := setVariable_spec hw hf hset
        obtain ⟨hf', hsl, helse, hown⟩ := ih hfb h
        refine ⟨hf', hsl, fun x hx => ?_, ?_⟩
        · rw [helse x fun j hj => hx j (mem_cons_of_mem _ hj),
            helseb x (hx i mem_cons_self)]
        · intro j hj p hp
          by_cases hjl : j ∈ l
          · exact hown j hjl p hp
          · obtain rfl : j = i := by simpa [hjl] using hj
            refine (hownb p hp).congr hfb hf' (helse _ fun k hk heq => ?_)
            obtain rfl := Var.argument.inj heq
            exact hjl hk

end

variable (host) in
lemma default_kept (hp : isInteger p = true) :
    convert host p (defaultValue p) = some (defaultValue p) ∧
      readScalar host (List.replicate p.scalar.size 0#8) p.scalar = .ok (defaultValue p) := by
  constructor
  · cases p <;> first | rfl | cases hp
  · cases p <;> first | rfl | cases hp

lemma enter_spec (hw : WellHomed m homes) {passed : Nat → StackValue}
    (hx : m.typeOf x = some (.primitive p)) (hp : isInteger p = true)
    (h : enter host m homes passed = .ok f) :
    FrameOf homes f ∧ Keeps host f x p (m.startValue passed x) := by
  have hbeg : FrameOf homes (newFrame m homes passed) := ⟨rfl, length_replicate⟩
  obtain ⟨hf, _, helse, hown⟩ := installFrameHomes_spec hw hbeg h
  refine ⟨hf, ?_⟩
  cases x with
  | argument i =>
    have hi : i < m.arguments.length := (List.getElem?_eq_some_iff.mp hx).1
    exact hown i (mem_range.mpr hi) p hx
  | «local» i =>
    have hval : m.startValue passed (.local i) = defaultValue p := by
      have hi : m.locals[i]? = some (.primitive p) := hx
      simp [Method.startValue, hi, VarType.initial]
    have hkp : Keeps host (newFrame m homes passed) (.local i) p (defaultValue p) := by
      unfold Keeps getVariable
      cases hh : (newFrame m homes passed).home (.local i) with
      | none => simpa [newFrame] using hval
      | some k =>
        have hk : (homes.bind fun l => l.home (.local i)) = some k := hh
        obtain ⟨hlay, hpl⟩ := hw.scalar hx hk
        have hwin := hw.within _ k hk
        obtain ⟨hconvert, hread⟩ := default_kept host hp
        have hload : load (newFrame m homes passed).block k.offset k.layout.size =
            List.replicate k.layout.size 0#8 := load_replicate 0#8 hwin
        have hsize : k.layout.size = p.scalar.size := by rw [hlay]; rfl
        simp only [isSome_some, if_true, hconvert, loadHome, hpl]
        rw [hload, hsize, hlay]
        simp only [readValueInternal, hread, Except.toOption]
    rw [hval]
    exact hkp.congr hbeg hf (helse _ fun j _ => by simp)

/-- Every load of an integer variable, in a run in which nothing is written through its address,
gives the value it was last given narrowed to its declared type and widened back, exactly if the
variable has a home or that value already is one of the declared type. The loads of two bodies of
which one takes the address of the variable agree exactly then. -/
theorem loads_narrowed_iff (host : Host) (typeName : TypeDescription → String) (m m' : Method)
    (homes homes' : Option FrameHomeLayout) (passed : Nat → StackValue) (x : Var) (p : Primitive)
    (es : List Event) (f₀ f f₀' f' : Frame)
      (hsame : m.locals = m'.locals ∧ m.arguments = m'.arguments)
    (hbuild : buildFrameHomes typeName m = .ok homes)
    (hbuild' : buildFrameHomes typeName m' = .ok homes')
    (hx : m.typeOf x = some (.primitive p)) (hp : isInteger p = true) (hfree : Unwritten x es)
    (henter : enter host m homes passed = .ok f₀) (hrun : run host f₀ es = .ok f)
    (henter' : enter host m' homes' passed = .ok f₀') (hrun' : run host f₀' es = .ok f') :
    let v := lastStored x (m.startValue passed x) es
    (getVariable host f x = convert host p v ↔
      x.addressInstruction ∈ m.instructions ∨ convert host p v = some v) ∧
    (x.addressInstruction ∈ m.instructions → x.addressInstruction ∉ m'.instructions →
      (getVariable host f x = getVariable host f' x ↔ convert host p v = some v)) := by
  have hx' : m'.typeOf x = some (.primitive p) := by
    rw [← hx]
    cases x <;> simp [Method.typeOf, hsame]
  have hbeg : m'.startValue passed x = m.startValue passed x := by
    cases x <;> simp [Method.startValue, hsame]
  -- a variable has a home exactly if its address is taken
  have hhomed : ∀ {n : Method} {hs : Option FrameHomeLayout} {g : Frame},
      n.typeOf x = some (.primitive p) → buildFrameHomes typeName n = .ok hs → FrameOf hs g →
      ((g.home x).isSome = true ↔ x.addressInstruction ∈ n.instructions) := by
    intro n hs g hn hb hg
    have hw := wellHomed_of_build hb
    rw [hg.home_eq]
    constructor
    · intro hsome
      obtain ⟨h, hh⟩ := isSome_iff_exists.mp hsome
      have ht := hw.typed x h hh
      unfold Method.homeType at ht
      split at ht
      next hmem => exact hmem
      · cases ht
    · intro hmem
      obtain ⟨h, hh⟩ := hw.homed x ⟨.scalar p.scalar, none⟩
        (by simp [Method.homeType, hmem, hn, VarType.home])
      rw [hh]
      rfl
  obtain ⟨hf₀, hk₀⟩ := enter_spec (wellHomed_of_build hbuild) hx hp henter
  obtain ⟨hf, hk⟩ := keeps_of_run (wellHomed_of_build hbuild) hf₀ hx hk₀ hfree hrun
  obtain ⟨hf₀', hk₀'⟩ := enter_spec (wellHomed_of_build hbuild') hx' hp henter'
  obtain ⟨hf', hk'⟩ := keeps_of_run (wellHomed_of_build hbuild') hf₀' hx' hk₀' hfree hrun'
  rw [hbeg] at hk'
  have hhome := hhomed hx hbuild hf
  have hhome' := hhomed hx' hbuild' hf'
  constructor
  · rw [hk]
    by_cases hmem : x.addressInstruction ∈ m.instructions
    · simp [hhome.mpr hmem, hmem]
    · have hno : (f.home x).isSome = false :=
        Bool.eq_false_iff.mpr fun hsome => hmem (hhome.mp hsome)
      simp [hno, hmem, eq_comm]
  · intro hmem hmem'
    have hno : (f'.home x).isSome = false :=
      Bool.eq_false_iff.mpr fun hsome => hmem' (hhome'.mp hsome)
    rw [hk, hk', if_pos (hhome.mpr hmem), if_neg (by simp [hno])]

/-- A runtime without enums. -/
def plainHost : Host := ⟨fun _ => none, fun _ => 0, fun _ => 0, fun _ => 0, fun _ => none⟩

/-- A method with one local of type `int8`. -/
def byteMethod (instructions : List Instruction) : Method :=
  ⟨⟨⟨some 0⟩, 0⟩, [.primitive .int8], [], instructions⟩

def byteHomes : Option FrameHomeLayout :=
  (buildFrameHomes (fun _ => "") (byteMethod [.loadLocalAddress 0])).toOption.bind id

/-- A value of the type of the local is loaded as it was stored, with and without a home. -/
theorem byte_local_keeps_five : ∃ f f', getVariable plainHost f (.local 0) = some (.int32 5) ∧
    getVariable plainHost f' (.local 0) = some (.int32 5) ∧
    (getVariable plainHost f (.local 0) = getVariable plainHost f' (.local 0) ↔
      convert plainHost .int8 (.int32 5) = some (.int32 5)) := by
  have hloads := loads_narrowed_iff plainHost (fun _ => "") (byteMethod [.loadLocalAddress 0])
    (byteMethod []) byteHomes none (fun _ => .int32 0) (.local 0) .int8
    [.store (.local 0) (.int32 5)] _ _ _ _ ⟨rfl, rfl⟩ rfl rfl rfl rfl
    (by simp [Unwritten]) rfl rfl rfl rfl
  exact ⟨_, _, rfl, rfl, hloads.2 (by decide) (by decide)⟩

/-- `stloc` 300 to a local of type `int8`: without a home the load gives 300, with one it gives 44,
which is 300 narrowed to the type. -/
theorem byte_local_keeps_300 : ∃ f₀ f f₀' f',
    buildFrameHomes (fun _ => "") (byteMethod []) = .ok none ∧
    enter plainHost (byteMethod []) none (fun _ => .int32 0) = .ok f₀ ∧
    run plainHost f₀ [.store (.local 0) (.int32 300)] = .ok f ∧
    getVariable plainHost f (.local 0) = some (.int32 300) ∧
    convert plainHost .int8 (.int32 300) = some (.int32 44) ∧
    enter plainHost (byteMethod [.loadLocalAddress 0]) byteHomes (fun _ => .int32 0) = .ok f₀' ∧
    run plainHost f₀' [.store (.local 0) (.int32 300)] = .ok f' ∧
    getVariable plainHost f' (.local 0) = some (.int32 44) :=
  ⟨_, _, _, _, rfl, rfl, rfl, rfl, rfl, rfl, rfl, rfl⟩

end DotnetVm.RawMemory.Variables
