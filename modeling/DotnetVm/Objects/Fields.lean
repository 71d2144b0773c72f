import DotnetVm.Memory.RawAccess

/-!
# Instance fields

`ldfld`, `stfld` and `ldflda` find a field in the layout of the class that declares
it and go to the bytes at its position in the receiver, whatever class the receiver
is of: a derived class has the fields of its base class where the base class has
them. A store takes the value as the evaluation stack has it, without the
conversions that a store to a variable makes.
-/

namespace DotnetVm

open Option

namespace LayoutLoader

variable {M : LayoutLoader} {level : ClassLevel} {B D m : FieldLayoutManager}

def getField (m : FieldLayoutManager) (key : FieldKey) : Option (Placed LayoutManager) :=
  m.fields.find? fun f => decide (f.key = key)

inductive Inherits (M : LayoutLoader) (B : FieldLayoutManager) : FieldLayoutManager → Prop
  | self {level : ClassLevel} (hlevel : level.Wellformed) (h : M.finish level = some (.ok B)) :
      Inherits M B B
  | derived {level : ClassLevel} {base m : FieldLayoutManager} (hbase : Inherits M B base)
      (hlevel : level.Wellformed) (hlink : level.base = some base)
      (h : M.finish level = some (.ok m)) : Inherits M B m

lemma Inherits.nodup (h : Inherits M B D) : (D.fields.map Placed.key).Nodup := by
  cases h with
  | self hlvl hfin | derived _ hlvl _ hfin =>
    rw [finish_fields hlvl hfin]
    exact ClassLevel.nodup_allFields hlvl

variable {g : Placed LayoutManager}

lemma Inherits.mem (h : Inherits M B D) (hg : g ∈ B.fields) : g ∈ D.fields := by
  induction h with
  | self _ _ => exact hg
  | derived _ hlvl hlink hfin ih =>
    rw [finish_fields hlvl hfin, ClassLevel.allFields, ClassLevel.inherited, hlink]
    exact List.mem_append_right _ ih

lemma getField_of_mem (hnd : (m.fields.map Placed.key).Nodup)
    (hg : g ∈ m.fields) : getField m g.key = some g := by
  have hfnd : (getField m g.key).isSome = true := by
    rw [getField, List.find?_isSome]
    exact ⟨g, hg, by simp⟩
  obtain ⟨g', hg'⟩ := isSome_iff_exists.mp hfnd
  have hkey : g'.key = g.key := by simpa using List.find?_some hg'
  rw [hg', List.inj_on_of_nodup_map hnd (List.mem_of_find?_eq_some hg') hg hkey]

lemma mem_sequentialPlaces {packingSize : Nat} {hpack : 0 < packingSize} {f : FieldInput}
    {fields : List FieldInput} (offset : Nat) (hf : f ∈ fields) :
    ∃ g ∈ sequentialPlaces packingSize hpack offset fields, g.key = f.key ∧
      g.layout = f.layout := by
  induction fields generalizing offset with
  | nil => cases hf
  | cons f' fields ih =>
    rcases List.mem_cons.mp hf with rfl | hf
    · exact ⟨_, List.mem_cons_self, rfl, rfl⟩
    · obtain ⟨g, hg, hkey⟩ := ih _ hf
      exact ⟨g, List.mem_cons_of_mem _ hg, hkey⟩

lemma map_key_sequentialPlaces (packingSize : Nat) (hpack : 0 < packingSize) (offset : Nat)
    (fields : List FieldInput) : (sequentialPlaces packingSize hpack offset fields).map Placed.key =
      fields.map FieldInput.key := by
  induction fields generalizing offset with
  | nil => rfl
  | cons f fields ih => simp [sequentialPlaces, ih]

lemma map_key_places (level : ClassLevel) :
    level.places.map Placed.key = level.fields.map fun f => ⟨level.td, f.1⟩ := by
  have hinputs : level.inputs.map FieldInput.key = level.fields.map fun f => ⟨level.td, f.1⟩ := by
    simp [ClassLevel.inputs, FieldInput.key]
  rw [← hinputs]
  unfold ClassLevel.places
  cases level.layout with
  | automatic | sequential s => exact map_key_sequentialPlaces ..
  | explicit classSize => simp [Layout.places, explicitPlaces]

variable {f : String × Option Nat × LayoutManager}

lemma exists_place (hf : f ∈ level.fields) :
    ∃ g ∈ level.places, g.key = ⟨level.td, f.1⟩ ∧ g.layout = f.2.2 := by
  have hinput : (⟨level.td, f.1, f.2.1, f.2.2⟩ : FieldInput) ∈ level.inputs :=
    List.mem_map.mpr ⟨f, hf, rfl⟩
  unfold ClassLevel.places
  cases level.layout with
  | automatic | sequential s => exact mem_sequentialPlaces _ hinput
  | explicit classSize => exact ⟨_, List.mem_map.mpr ⟨_, hinput, rfl⟩, rfl, rfl⟩

lemma Inherits.getField_eq (h : Inherits M B D) (hlvl : level.Wellformed)
    (hfin : M.finish level = some (.ok B)) (hdist : (level.fields.map Prod.fst).Nodup)
    (hf : f ∈ level.fields) :
    ∃ g, getField B ⟨level.td, f.1⟩ = some g ∧ getField D ⟨level.td, f.1⟩ = some g ∧
      g.layout = f.2.2 := by
  obtain ⟨g, hg, hkey, hlay⟩ := exists_place hf
  have hkeys : (level.places.map Placed.key).Nodup := by
    rw [map_key_places]
    have hinj : Function.Injective fun name : String => (⟨level.td, name⟩ : FieldKey) :=
      fun a b hab => (FieldKey.mk.inj hab).2
    simpa [Function.comp_def] using hdist.map hinj
  have hdecl : level.declared = level.places := by
    rw [ClassLevel.declared, foldl_insertField_fresh hkeys (by simp), List.nil_append]
  have hB : g ∈ B.fields := by
    rw [finish_fields hlvl hfin, ClassLevel.allFields, hdecl]
    exact List.mem_append_left _ hg
  refine ⟨g, ?_, ?_, hlay⟩
  · rw [← hkey]
    exact getField_of_mem (Inherits.self hlvl hfin).nodup hB
  · rw [← hkey]
    exact getField_of_mem h.nodup (h.mem hB)

end LayoutLoader

namespace RawMemory.Fields

open Bytes Variables LayoutLoader

/-- A field as `locate_field` resolves it: the class that declares it with the layout of its
instances, its name, and the type of its values. -/
structure FieldRef where
  parentName : String
  key : FieldKey
  layout : FieldLayoutManager
  description : TypeDescription

/-- What `get_ptr_info` makes of the value an instruction finds on the stack: a storage, and the
offset in it. -/
structure Receiver where
  owner : Owner
  isObjectRef : Bool
  base : Nat

/-- How an instruction goes on. -/
inductive Step where
  | loaded (v : StackValue)
  | stored (data : List (BitVec 8))
  | throw (exception : String)
  | failed (e : RawMemory.MemoryAccessError)
  | panicked
  deriving DecidableEq, Repr

def stringName : String := "System.String"

def rawDataName : String := "System.Runtime.CompilerServices.RawData"

def rawArrayDataName : String := "System.Runtime.CompilerServices.RawArrayData"

section

variable (r : Receiver)

def intercepted (f : FieldRef) : Option StackValue :=
  if r.isObjectRef then
    match r.owner.origin with
    | .heap .str =>
      if f.parentName = stringName then
        if f.key.name = "_stringLength" then
          some (.int32 (BitVec.ofNat 32 (r.owner.memory.len / 2)))
        else if f.key.name = "_firstChar" then
          some (.int32 (BitVec.ofNat 32 (decode (load r.owner.memory.data 0 2))))
        else none
      else none
    | .heap (.vec _ length) =>
      if f.parentName = rawArrayDataName then
        if f.key.name = "Length" then some (.int32 (BitVec.ofNat 32 length))
        else if f.key.name = "Data" then
          some (.int32 (BitVec.ofNat 32 (decode (load r.owner.memory.data 0 1))))
        else none
      else none
    | _ => none
  else none

def raise (offset : Nat) (e : RawMemory.MemoryAccessError) : Step :=
  match r.owner.origin, e with
  | .frameHome _, .invalidOrigin => .failed e
  | _, _ =>
    .throw (if offset = 0 then "System.NullReferenceException"
      else "System.AccessViolationException")

/-- The step for a reply of the memory. -/
def stepOf (offset : Nat) (reply : Reply) : Step :=
  match reply.outcome with
  | .value v => .loaded v
  | .done => .stored reply.data
  | .error e => raise r offset e
  | _ => .panicked

def fieldOffset (f : FieldRef) (g : Placed LayoutManager) : Option Nat :=
  if f.parentName = stringName ∧ f.key.name = "_firstChar" then some r.base
  else checkedAdd r.base g.position

inductive Address where
  | at (offset : Nat)
  | stored (encoding : BitVec 192)
  | header
  | none

def interceptedAddress (f : FieldRef) : Option Address :=
  if r.isObjectRef then
    match r.owner.origin with
    | .heap (.obj _) | .heap (.boxed _) => if f.parentName = rawDataName then some (.at 0) else none
    | .heap (.vec _ _) =>
      if f.parentName = rawDataName then some (.at 0)
      else if f.parentName = rawArrayDataName then
        if f.key.name = "Data" then some (.at 0)
        else if f.key.name = "Length" then some .header
        else none
      else none
    | _ => none
  else none

end

/-- `resolve_address` succeeds: only the home of a frame is checked. -/
def resolves (o : Owner) (offset : Nat) : Bool :=
  match o.origin with
  | .frameHome _ => !passes o.memory.len (checkedAdd offset 0)
  | _ => true

section Instructions

variable (host : Host)

section

variable (r : Receiver) (f : FieldRef)

/-- A load of the type of a field at an offset. -/
def loadAt (layout : LayoutManager) (offset : Nat) : Step :=
  stepOf r offset (readUnaligned host r.owner offset layout (some f.description))

def ldfld : Step :=
  match intercepted r f with
  | some v => .loaded v
  | none =>
    match getField f.layout f.key with
    | none => .panicked
    | some g =>
      match checkedAdd r.base g.position with
      | none => .panicked
      | some offset => loadAt host r f g.layout offset

def stfld (v : StackValue) : Step :=
  match getField f.layout f.key with
  | none => .panicked
  | some g =>
    match fieldOffset r f g with
    | none => .panicked
    | some offset => stepOf r offset (writeUnaligned host r.owner offset v g.layout)

def fieldAddress (r : Receiver) (g : Placed LayoutManager) (offset : Nat) : Address :=
  if isByref g.layout then
    match (readBytes r.owner offset 24).outcome with
    | .bytes bs => .stored (BitVec.ofNat 192 (decode bs))
    | _ => .none
  else if resolves r.owner offset then .at offset
  else .none

def ldflda : Address :=
  match interceptedAddress r f with
  | some address => address
  | none =>
    match getField f.layout f.key with
    | none => .none
    | some g =>
      match fieldOffset r f g with
      | none => .none
      | some offset => fieldAddress r g offset

end

def loadThrough (deref : BitVec 192 → Step) (r : Receiver) (f : FieldRef) (layout : LayoutManager) :
    Step :=
  match ldflda r f with
  | .at offset => loadAt host r f layout offset
  | .stored encoding => deref encoding
  | .header | .none => .panicked

end Instructions

variable {data : List (BitVec 8)}

/-- The storage with other bytes. -/
def replaceData (s : Storage) (data : List (BitVec 8)) (h : data.length = s.len) : Storage :=
  ⟨s.base, data, s.nonnull, h ▸ s.fits⟩

lemma replaced_homed (o : Owner) (h : data.length = o.memory.len)
    (homes : List VariableHome) (horig : o.origin = .frameHome homes) :
    ∀ home ∈ homes, home.offset + home.layout.size ≤ (replaceData o.memory data h).len := by
  have hlen : (replaceData o.memory data h).len = o.memory.len := h
  rw [hlen]
  exact o.homed homes horig

/-- The receiver after its storage has been written. -/
def Receiver.after (r : Receiver) (data : List (BitVec 8)) (h : data.length = r.owner.memory.len) :
    Receiver :=
  ⟨⟨r.owner.origin, replaceData r.owner.memory data h, replaced_homed r.owner h⟩,
    r.isObjectRef, r.base⟩

variable (host : Host) (deref : BitVec 192 → Step)

def narrowed (layout : LayoutManager) (description : TypeDescription) (v : StackValue) :
    Option StackValue :=
  (homeValue host layout v).toOption.bind fun v =>
    match layout, v with
    | .scalar s, v => settle host s v
    | .field _, .valueType _ data => some (.valueType description data)
    | _, _ => none

structure FieldRef.Plain (f : FieldRef) : Prop where
  string : f.parentName ≠ stringName
  rawData : f.parentName ≠ rawDataName
  rawArrayData : f.parentName ≠ rawArrayDataName

def Receiver.Locates (r : Receiver) (D : FieldLayoutManager) : Prop :=
  ∀ homes, r.owner.origin = .frameHome homes → ∀ g ∈ D.fields,
    homeLayout homes (r.base + g.position) g.layout = g.layout

def FieldLaw (D : FieldLayoutManager) (r : Receiver) (f : FieldRef) (g : Placed LayoutManager)
    (v w : StackValue) : Prop :=
  ∃ (data : List (BitVec 8))
    (h : data.length = r.owner.memory.len), stfld host r f v = .stored data ∧
    ldfld host (r.after data h) f = .loaded w ∧
    loadThrough host deref (r.after data h) f g.layout = .loaded w ∧
    ∀ f' g', f'.Plain → getField f'.layout f'.key = some g' → g' ∈ D.fields → Apart g g' →
      ldfld host (r.after data h) f' = ldfld host r f'

def RefsPass (o : Owner) (offset : Nat) (layout : LayoutManager) : Prop :=
  ∀ storage, o.origin = .heap storage ∨ o.origin = .crossArenaObjectRef storage →
    checkIntegrity storage offset layout = .ok () ∧ checkSafety storage offset layout = .ok ()

/-- When the law holds for a field, a receiver and a value. -/
structure Storable (r : Receiver) (g : Placed LayoutManager) (v w : StackValue) : Prop where
  notString : r.owner.origin.isCrossArenaString = false
  within : r.base + g.stop ≤ r.owner.memory.len
  refs : RefsPass r.owner (r.base + g.position) g.layout
  kind : ∃ bs, writeValueInternal host g.layout v = .ok bs
  refField : isByref g.layout = true → ∀ p, v = .managedPtr p → deref p.encoding = .loaded w

section Replies

variable {host : Host} {deref : BitVec 192 → Step} {r : Receiver} {o : Owner} {st : Storage}
  {f : FieldRef} {g : Placed LayoutManager} {layout : LayoutManager} {offset : Nat}
    {v w : StackValue}
  {data : List (BitVec 8)} {description : Option TypeDescription}

variable {reply : Reply}

lemma stepOf_eq_stored : stepOf r offset reply = .stored data ↔ reply = ⟨.done, data⟩ := by
  obtain ⟨outcome, bytes⟩ := reply
  cases outcome with
  | error e =>
    simp only [stepOf, raise]
    split <;> simp
  | _ => simp [stepOf]

lemma stepOf_eq_loaded : stepOf r offset reply = .loaded w ↔ reply.outcome = .value w := by
  obtain ⟨outcome, bytes⟩ := reply
  cases outcome with
  | error e =>
    simp only [stepOf, raise]
    split <;> simp
  | _ => simp [stepOf]

variable {check : Except RawMemory.MemoryAccessError Unit} {rest : Reply}

lemma after_eq_done :
    after check st rest = ⟨.done, data⟩ ↔ check = .ok () ∧ rest = ⟨.done, data⟩ := by
  cases check with
  | error e => simp [after]
  | ok u => simp [after]

lemma after_eq_value :
    (after check st rest).outcome = .value w ↔ check = .ok () ∧ rest.outcome = .value w := by
  cases check with
  | error e => simp [after]
  | ok u => simp [after]

lemma checkRange_eq_ok {size : Nat} :
    checkRange st offset size = .ok () ↔ offset + size ≤ st.len := by
  rw [checkRange_eq]
  by_cases hout : st.len < offset + size
  · simp only [if_pos hout, reduceCtorEq, false_iff]
    omega
  · simp only [if_neg hout, true_iff]
    omega

lemma putValue_eq_done : putValue host st offset v layout = ⟨.done, data⟩ ↔
    ∃ bs, writeValueInternal host layout v = .ok bs ∧ data = store st.data offset bs := by
  unfold putValue
  cases writeValueInternal host layout v with
  | error e => simp
  | ok bs => simp [eq_comm]

lemma takeValue_eq_value : (takeValue host st offset layout description).outcome = .value w ↔
    readValueInternal host layout description (load st.data offset layout.size) = .ok w := by
  unfold takeValue
  cases readValueInternal host layout description (load st.data offset layout.size) with
  | error e => simp
  | ok v => simp

section

variable (hoffset : offset ≤ usizeMax)
  (hhome : ∀ homes, o.origin = .frameHome homes → homeLayout homes offset layout = layout)
include hoffset hhome

/-- When a write goes through. -/
lemma writeUnaligned_eq_done :
    writeUnaligned host o offset v layout = ⟨.done, data⟩ ↔
      o.origin.isCrossArenaString = false ∧ offset + layout.size ≤ o.memory.len ∧
      (∀ storage, o.origin = .heap storage ∨ o.origin = .crossArenaObjectRef storage →
        checkIntegrity storage offset layout = .ok ()) ∧
      ∃ bs, writeValueInternal host layout v = .ok bs ∧ data = store o.memory.data offset bs := by
  unfold writeUnaligned
  cases horig : o.origin with
  | frameHome homes =>
    simp only [hhome homes horig, after_eq_done, checkRange_eq_ok, putValue_eq_done]
    simp [Origin.isCrossArenaString]
  | static | transient =>
    simp only [after_eq_done, checkRange_eq_ok, putValue_eq_done]
    simp [Origin.isCrossArenaString]
  | heap storage =>
    simp only [withDataMut, after_eq_done, checkHeap_eq_checkRange hoffset, checkRange_eq_ok,
      putValue_eq_done]
    simp [Origin.isCrossArenaString]
  | crossArenaObjectRef storage =>
    cases storage with
    | str => simp [withDataMut, Origin.isCrossArenaString]
    | _ =>
      simp only [withDataMut, after_eq_done, checkHeap_eq_checkRange hoffset, checkRange_eq_ok,
        putValue_eq_done]
      simp [Origin.isCrossArenaString]

/-- When a read goes through. -/
lemma readUnaligned_eq_value :
    (readUnaligned host o offset layout description).outcome = .value w ↔
      offset + layout.size ≤ o.memory.len ∧
      (∀ storage, o.origin = .heap storage ∨ o.origin = .crossArenaObjectRef storage →
        checkSafety storage offset layout = .ok ()) ∧
      readValueInternal host layout description
        (load o.memory.data offset layout.size) = .ok w := by
  unfold readUnaligned
  cases horig : o.origin with
  | frameHome homes =>
    simp only [hhome homes horig, after_eq_value, checkRange_eq_ok, takeValue_eq_value]
    simp
  | static | transient =>
    simp only [after_eq_value, checkRange_eq_ok, takeValue_eq_value]
    simp
  | heap _ | crossArenaObjectRef _ =>
    simp only [after_eq_value, checkHeap_eq_checkRange hoffset, checkRange_eq_ok,
      takeValue_eq_value]
    simp

end

variable {bs : List (BitVec 8)}

lemma homeValue_of_writeScalar {k : Scalar}
    (h : writeScalar host k v = .ok bs) : homeValue host (.scalar k) v = .ok v := by
  cases k <;> cases v <;> first | rfl | cases h

/-- What was written is read back narrowed. -/
lemma read_write {description : TypeDescription} (hw : narrowed host layout description v = some w)
    (hbs : writeValueInternal host layout v = .ok bs) :
    bs.length = layout.size ∧ readValueInternal host layout (some description) bs = .ok w := by
  cases layout with
  | scalar k =>
    obtain ⟨hlen, hsettle⟩ := readScalar_writeScalar hbs
    have hsm : homeValue host (.scalar k) v = .ok v := homeValue_of_writeScalar hbs
    have hread : settle host k v = some w := by
      simpa [narrowed, hsm, Except.toOption] using hw
    rw [hsettle] at hread
    refine ⟨hlen, ?_⟩
    simp only [readValueInternal]
    cases hscalar : readScalar host bs k with
    | error e => simp [hscalar, Except.toOption] at hread
    | ok u => simpa [hscalar, Except.toOption] using hread
  | field m =>
    cases v with
    | valueType description' data =>
      obtain rfl : data.take m.totalSize = bs := Except.ok.inj hbs
      simp only [narrowed, homeValue] at hw
      split at hw
      next hlen =>
        have hval : StackValue.valueType description data = w := by
          simpa [Except.toOption] using hw
        have htake : data.take m.totalSize = data := by rw [← hlen, List.take_length]
        rw [htake]
        refine ⟨hlen, ?_⟩
        simp only [readValueInternal, htake, hval]
      next => simp [Except.toOption] at hw
    | _ => cases hbs
  | array element length => cases hbs

lemma intercepted_plain (hf : f.Plain) (r : Receiver) : intercepted r f = none := by
  unfold intercepted
  split
  · split
    · rw [if_neg hf.string]
    · rw [if_neg hf.rawArrayData]
    · rfl
  · rfl

lemma interceptedAddress_plain (hf : f.Plain) (r : Receiver) : interceptedAddress r f = none := by
  unfold interceptedAddress
  split
  · split
    · rw [if_neg hf.rawData]
    · rw [if_neg hf.rawData]
    · rw [if_neg hf.rawData, if_neg hf.rawArrayData]
    · rfl
  · rfl

lemma fieldOffset_plain (hf : f.Plain) (r : Receiver) (g : Placed LayoutManager) :
    fieldOffset r f g = checkedAdd r.base g.position := if_neg fun h => hf.string h.1

lemma after_outcome_congr {check' : Except RawMemory.MemoryAccessError Unit}
    {st' : Storage} {rest' : Reply} (hcheck : check = check')
    (hrest : rest.outcome = rest'.outcome) :
    (after check st rest).outcome = (after check' st' rest').outcome := by
  subst hcheck
  cases check with
  | error e => rfl
  | ok u => exact hrest

lemma takeValue_outcome_congr {st' : Storage}
    (hload : load st.data offset layout.size = load st'.data offset layout.size) :
    (takeValue host st offset layout description).outcome =
      (takeValue host st' offset layout description).outcome := by
  unfold takeValue
  rw [hload]
  cases readValueInternal host layout description (load st'.data offset layout.size) <;> rfl

lemma stepOf_congr {r' : Receiver} {reply' : Reply} (hdone : reply.outcome ≠ .done)
    (hreply : reply.outcome = reply'.outcome) (horig : r.owner.origin = r'.owner.origin) :
    stepOf r offset reply = stepOf r' offset reply' := by
  unfold stepOf
  rw [← hreply]
  cases houtcome : reply.outcome with
  | done => exact absurd houtcome hdone
  | error e => simp only [raise, horig]
  | _ => rfl

lemma takeValue_ne_done : (takeValue host st offset layout description).outcome ≠ .done := by
  unfold takeValue
  split <;> exact nofun

lemma after_ne_done (hrest : rest.outcome ≠ .done) : (after check st rest).outcome ≠ .done := by
  cases check with
  | error e => exact nofun
  | ok u => exact hrest

lemma readUnaligned_ne_done (host : Host) (o : Owner) (offset : Nat) (layout : LayoutManager)
    (description : Option TypeDescription) :
    (readUnaligned host o offset layout description).outcome ≠ .done := by
  unfold readUnaligned
  split
  · exact after_ne_done takeValue_ne_done
  · exact after_ne_done takeValue_ne_done
  · exact after_ne_done takeValue_ne_done
  · exact after_ne_done (after_ne_done takeValue_ne_done)
  · exact after_ne_done (after_ne_done takeValue_ne_done)

lemma loadAt_after (h : data.length = r.owner.memory.len)
    (hhome : ∀ homes, r.owner.origin = .frameHome homes → homeLayout homes offset layout = layout)
    (hload : load data offset layout.size = load r.owner.memory.data offset layout.size) :
    loadAt host (r.after data h) f layout offset = loadAt host r f layout offset := by
  have hlen : (r.after data h).owner.memory.len = r.owner.memory.len := h
  have horig : (r.after data h).owner.origin = r.owner.origin := rfl
  have hrng (size : Nat) : checkRange (r.after data h).owner.memory offset size =
      checkRange r.owner.memory offset size := by
    rw [checkRange_eq, checkRange_eq, hlen]
  have hheap (size : Nat) : checkHeap (r.after data h).owner.memory offset size =
      checkHeap r.owner.memory offset size := by
    rw [checkHeap, hlen]
    rfl
  have htake : (takeValue host (r.after data h).owner.memory offset layout
      (some f.description)).outcome =
        (takeValue host r.owner.memory offset layout (some f.description)).outcome :=
    takeValue_outcome_congr hload
  refine stepOf_congr (readUnaligned_ne_done _ _ _ _ _) ?_ horig
  unfold readUnaligned
  rw [horig]
  cases hcase : r.owner.origin with
  | frameHome homes =>
    simp only [hhome homes hcase]
    exact after_outcome_congr (hrng _) htake
  | static | transient => exact after_outcome_congr (hrng _) htake
  | heap storage | crossArenaObjectRef storage =>
    exact after_outcome_congr (hheap _) (after_outcome_congr rfl htake)

lemma checkedAdd_eq_some {a b c : Nat} : checkedAdd a b = some c ↔ c = a + b ∧
    a + b ≤ usizeMax := by
  unfold checkedAdd
  split
  next hsum => simp [hsum, eq_comm]
  next hsum => simp [hsum]

end Replies

section Law

variable {host : Host} {deref : BitVec 192 → Step} {D : FieldLayoutManager} {r : Receiver}
  {f : FieldRef} {g : Placed LayoutManager} {v w : StackValue} {data : List (BitVec 8)}

section

variable (hf : f.Plain) (hget : getField f.layout f.key = some g)
include hf hget

/-- A store that goes through. -/
lemma stfld_eq_stored (hhome : ∀ homes, r.owner.origin = .frameHome homes →
      homeLayout homes (r.base + g.position) g.layout = g.layout) :
    stfld host r f v = .stored data ↔
      r.owner.origin.isCrossArenaString = false ∧ r.base + g.stop ≤ r.owner.memory.len ∧
      (∀ storage, r.owner.origin = .heap storage ∨ r.owner.origin = .crossArenaObjectRef storage →
        checkIntegrity storage (r.base + g.position) g.layout = .ok ()) ∧
      ∃ bs, writeValueInternal host g.layout v = .ok bs ∧
        data = store r.owner.memory.data (r.base + g.position) bs := by
  have hlen := r.owner.memory.len_le
  unfold stfld
  simp only [hget, fieldOffset_plain hf]
  cases hsum : checkedAdd r.base g.position with
  | none =>
    have hover : ¬r.base + g.position ≤ usizeMax := by
      intro hle
      rw [checkedAdd, if_pos hle] at hsum
      cases hsum
    refine iff_of_false nofun ?_
    rintro ⟨_, hwithin, _⟩
    unfold Placed.stop at hwithin
    omega
  | some offset =>
    obtain ⟨rfl, hoffset⟩ := checkedAdd_eq_some.mp hsum
    simp only [stepOf_eq_stored, writeUnaligned_eq_done hoffset hhome, Placed.stop, add_assoc]

/-- A load that goes through. -/
lemma ldfld_eq_loaded (hhome : ∀ homes, r.owner.origin = .frameHome homes →
      homeLayout homes (r.base + g.position) g.layout = g.layout)
    (hwithin : r.base + g.stop ≤ r.owner.memory.len) :
    ldfld host r f = .loaded w ↔
      (∀ storage, r.owner.origin = .heap storage ∨ r.owner.origin = .crossArenaObjectRef storage →
        checkSafety storage (r.base + g.position) g.layout = .ok ()) ∧
      readValueInternal host g.layout (some f.description)
        (load r.owner.memory.data (r.base + g.position) g.layout.size) = .ok w := by
  have hlen := r.owner.memory.len_le
  unfold Placed.stop at hwithin
  have hoffset : r.base + g.position ≤ usizeMax := by omega
  have hsum : checkedAdd r.base g.position = some (r.base + g.position) := if_pos hoffset
  have hrng : r.base + g.position + g.layout.size ≤ r.owner.memory.len := by omega
  simp [ldfld, intercepted_plain hf, hget, hsum, loadAt, stepOf_eq_loaded,
    readUnaligned_eq_value hoffset hhome, hrng]

end

lemma readBytes_within {o : Owner} {offset size : Nat} (h : offset + size ≤ o.memory.len) :
    (readBytes o offset size).outcome = .bytes (load o.memory.data offset size) := by
  have hlen := o.memory.len_le
  have hin : ¬o.memory.len < offset + size := by omega
  have hsum : checkedAdd offset size = some (offset + size) := if_pos (by omega)
  unfold readBytes
  cases o.origin with
  | frameHome homes => simp only [checkRange_eq, if_neg hin, after]
  | _ => simp only [boundsCheckedSliceRead, sliced, hsum, if_neg hin]

lemma ldflda_within (hf : f.Plain) (hget : getField f.layout f.key = some g)
    (hwithin : r.base + g.stop ≤ r.owner.memory.len) :
    ldflda r f =
      if isByref g.layout then
        .stored (BitVec.ofNat 192 (decode (load r.owner.memory.data (r.base + g.position) 24)))
      else .at (r.base + g.position) := by
  have hlen := r.owner.memory.len_le
  unfold Placed.stop at hwithin
  have hsum : checkedAdd r.base g.position = some (r.base + g.position) := if_pos (by omega)
  simp only [ldflda, interceptedAddress_plain hf, hget, fieldOffset_plain hf, hsum, fieldAddress]
  by_cases hbr : isByref g.layout = true
  · have hsize := size_of_isByref hbr
    have hrng : r.base + g.position + 24 ≤ r.owner.memory.len := by omega
    simp only [if_pos hbr, readBytes_within hrng]
  · have hresolves : resolves r.owner (r.base + g.position) = true := by
      unfold resolves
      split
      · rw [passes_checkedAdd hlen]
        simp only [Bool.not_eq_true', decide_eq_false_iff_not]
        omega
      · rfl
    simp only [if_neg hbr, if_pos hresolves]

lemma write_byref {layout : LayoutManager} {bs : List (BitVec 8)} (hbr : isByref layout = true)
    (hbs : writeValueInternal host layout v = .ok bs) :
    ∃ p : RawMemory.ManagedPtr, v = .managedPtr p ∧ bs = encode 24 p.encoding.toNat := by
  revert hbr
  unfold isByref
  split
  · intro _
    cases v with
    | managedPtr p =>
      simp only [writeValueInternal, writeScalar] at hbs
      split at hbs
      · cases hbs
      · exact ⟨p, rfl, (Except.ok.inj hbs).symm⟩
    | _ => cases hbs
  · intro h
    cases h

section AfterStore

variable {bs : List (BitVec 8)} (hf : f.Plain) (hget : getField f.layout f.key = some g)
  (hhome : ∀ homes, r.owner.origin = .frameHome homes →
    homeLayout homes (r.base + g.position) g.layout = g.layout)
  (hwithin : r.base + g.stop ≤ r.owner.memory.len)
  (hw : narrowed host g.layout f.description v = some w)
  (hbs : writeValueInternal host g.layout v = .ok bs)
include hwithin hw hbs

lemma store_fits : r.base + g.position + bs.length ≤ r.owner.memory.data.length := by
  obtain ⟨hlen, _⟩ := read_write hw hbs
  rw [hlen, add_assoc]
  exact hwithin

lemma load_stored : load (store r.owner.memory.data (r.base + g.position) bs)
    (r.base + g.position) g.layout.size = bs := by
  obtain ⟨hlen, _⟩ := read_write hw hbs
  rw [← hlen]
  exact load_store_same (store_fits hwithin hw hbs)

lemma load_apart {g' : Placed LayoutManager} (hap : Apart g g') :
    load (store r.owner.memory.data (r.base + g.position) bs)
      (r.base + g'.position) g'.layout.size =
      load r.owner.memory.data (r.base + g'.position) g'.layout.size := by
  obtain ⟨hlen, _⟩ := read_write hw hbs
  refine load_store_apart (store_fits hwithin hw hbs) ?_
  unfold Apart Placed.stop at hap
  omega

variable (h : (store r.owner.memory.data (r.base + g.position) bs).length = r.owner.memory.len)

include hf hget hhome in
lemma ldfld_after_store : ldfld host (r.after _ h) f = .loaded w ↔
    ∀ storage, r.owner.origin = .heap storage ∨ r.owner.origin = .crossArenaObjectRef storage →
      checkSafety storage (r.base + g.position) g.layout = .ok () := by
  have hlen : (r.after _ h).owner.memory.len = r.owner.memory.len := h
  have hhome' : ∀ homes, (r.after _ h).owner.origin = .frameHome homes →
      homeLayout homes ((r.after _ h).base + g.position) g.layout = g.layout := hhome
  have hread : readValueInternal host g.layout (some f.description)
      (load (r.after _ h).owner.memory.data ((r.after _ h).base + g.position) g.layout.size) =
        .ok w := by
    refine Eq.trans ?_ (read_write hw hbs).2
    exact congrArg _ (load_stored hwithin hw hbs)
  have hwithin' : (r.after _ h).base + g.stop ≤ (r.after _ h).owner.memory.len := by
    rw [hlen]
    exact hwithin
  rw [ldfld_eq_loaded hf hget hhome' hwithin']
  exact and_iff_left hread

include hf hget in
lemma loadThrough_after_store (encoding : BitVec 192)
    (hencoding : isByref g.layout = true → bs = encode 24 encoding.toNat) :
    loadThrough host deref (r.after _ h) f g.layout =
      if isByref g.layout then deref encoding else ldfld host (r.after _ h) f := by
  have hlen : (r.after _ h).owner.memory.len = r.owner.memory.len := h
  have hwithin' : (r.after _ h).base + g.stop ≤ (r.after _ h).owner.memory.len := by
    rw [hlen]
    exact hwithin
  rw [loadThrough, ldflda_within hf hget hwithin']
  by_cases hbr : isByref g.layout = true
  · have hload : load (r.after _ h).owner.memory.data ((r.after _ h).base + g.position) 24 =
        encode 24 encoding.toNat := by
      rw [← hencoding hbr, ← size_of_isByref hbr]
      exact load_stored hwithin hw hbs
    have hword := ofNat_decode_encode (w := 192) (n := 24) (by decide) encoding
    simp only [if_pos hbr, hload, hword]
  · have hmax := r.owner.memory.len_le
    have hbase : (r.after _ h).base = r.base := rfl
    have hsum : checkedAdd r.base g.position = some (r.base + g.position) := by
      unfold Placed.stop at hwithin
      exact if_pos (by omega)
    simp only [if_neg hbr, ldfld, intercepted_plain hf, hget, hbase, hsum]

end AfterStore

lemma fieldLaw_iff (hf : f.Plain) (hget : getField f.layout f.key = some g) (hD : g ∈ D.fields)
    (hr : r.Locates D) (hw : narrowed host g.layout f.description v = some w) :
    FieldLaw host deref D r f g v w ↔ Storable host deref r g v w := by
  have hhome : ∀ homes, r.owner.origin = .frameHome homes →
      homeLayout homes (r.base + g.position) g.layout = g.layout :=
    fun homes horig => hr homes horig g hD
  constructor
  · rintro ⟨data, h, hstored, hload, hthrough, _⟩
    obtain ⟨hnot, hwithin, hwrite, bs, hbs, rfl⟩ := (stfld_eq_stored hf hget hhome).mp hstored
    have hread := (ldfld_after_store hf hget hhome hwithin hw hbs h).mp hload
    refine ⟨hnot, hwithin, fun storage hstor => ⟨hwrite storage hstor, hread storage hstor⟩,
      ⟨bs, hbs⟩, fun hbr p hp => ?_⟩
    obtain ⟨p', hp', hencode⟩ := write_byref hbr hbs
    obtain rfl : p = p' := StackValue.managedPtr.inj (hp.symm.trans hp')
    rw [loadThrough_after_store hf hget hwithin hw hbs h p.encoding fun _ => hencode,
      if_pos hbr] at hthrough
    exact hthrough
  · intro hs
    obtain ⟨bs, hbs⟩ := hs.kind
    have h := length_store (store_fits hs.within hw hbs)
    have hload : ldfld host (r.after _ h) f = .loaded w :=
      (ldfld_after_store hf hget hhome hs.within hw hbs h).mpr
        fun storage hstor => (hs.refs storage hstor).2
    refine ⟨_, h, (stfld_eq_stored hf hget hhome).mpr
      ⟨hs.notString, hs.within, fun storage hstor => (hs.refs storage hstor).1, bs, hbs, rfl⟩,
      hload, ?_, fun f' g' hf' hget' hD' hap => ?_⟩
    · by_cases hbr : isByref g.layout = true
      · obtain ⟨p, hp, hencode⟩ := write_byref hbr hbs
        rw [loadThrough_after_store hf hget hs.within hw hbs h p.encoding fun _ => hencode,
          if_pos hbr]
        exact hs.refField hbr p hp
      · rw [loadThrough_after_store hf hget hs.within hw hbs h 0
          fun hbr' => absurd hbr' hbr, if_neg hbr]
        exact hload
    · simp only [ldfld, intercepted_plain hf', hget']
      have hbase : (r.after _ h).base = r.base := rfl
      rw [hbase]
      cases hsum : checkedAdd r.base g'.position with
      | none => rfl
      | some offset =>
        obtain ⟨rfl, _⟩ := checkedAdd_eq_some.mp hsum
        exact loadAt_after h (fun homes horig => hr homes horig g' hD')
          (load_apart hs.within hw hbs hap)

end Law

/-- The first character of a string of the own arena is no plain field: it is stored at the start of
the characters, where `ldfld` finds it. -/
theorem firstChar_stored (host : Host) {r : Receiver} {f : FieldRef} {g : Placed LayoutManager}
    (hstring : r.owner.origin = .heap .str) (hobject : r.isObjectRef = true) (hbase : r.base = 0)
    (hparent : f.parentName = stringName) (hname : f.key.name = "_firstChar")
    (hget : getField f.layout f.key = some g) (hlayout : g.layout = .scalar .uInt16)
    (hlen : 2 ≤ r.owner.memory.len) (n : BitVec 32) :
    ∃ data, ∃ h : data.length = r.owner.memory.len, stfld host r f (.int32 n) = .stored data ∧
      ldfld host (r.after data h) f = .loaded (.int32 ((n.setWidth 16).setWidth 32)) := by
  have hfits : 0 + (encode 2 (n.setWidth 16).toNat).length ≤ r.owner.memory.data.length := by
    rw [length_encode]
    exact hlen
  refine ⟨store r.owner.memory.data 0 (encode 2 (n.setWidth 16).toNat), length_store hfits, ?_, ?_⟩
  · have hok : checkRange r.owner.memory 0 2 = .ok () := checkRange_eq_ok.mpr (by omega)
    have hheap : checkHeap r.owner.memory 0 2 = .ok () :=
      (checkHeap_eq_checkRange (Nat.zero_le _)).trans hok
    simp [stfld, hget, fieldOffset, hparent, hname, hbase, writeUnaligned, hstring, hlayout,
      withDataMut, LayoutManager.size, Scalar.size, hheap, after, checkIntegrity,
      HeapStorage.layout, putValue, writeValueInternal, writeScalar, extractInt,
      coerceEnumToUnderlying, Except.map, stepOf]
  · have hload := load_store_same hfits
    rw [length_encode] at hload
    have hchar : decode (encode 2 (n.setWidth 16).toNat) = (n.setWidth 16).toNat := by
      rw [decode_encode]
      exact Nat.mod_eq_of_lt (n.setWidth 16).isLt
    simp only [ldfld, intercepted, Receiver.after, replaceData, hstring, hobject, hparent,
      hname, hload,
      hchar, if_true]
    simp only [String.reduceEq, if_false, Step.loaded.injEq, StackValue.int32.injEq]
    exact BitVec.eq_of_toNat_eq (by simp)

def counterLevel : ClassLevel where
  td := ⟨⟨some 0⟩, 0⟩
  isStatic := false
  fields := [("count", none, .scalar .int32)]
  layout := .automatic
  base := none

def levelLayout (level : ClassLevel) : FieldLayoutManager :=
  match recordLoader.finish level with
  | some (.ok m) => m
  | _ => ⟨[], 0, .one, .empty, false⟩

def linkedLevel : ClassLevel where
  td := ⟨⟨some 0⟩, 1⟩
  isStatic := false
  fields := [("next", none, .scalar .objectRef)]
  layout := .automatic
  base := some (levelLayout counterLevel)

lemma counterLevel_wellformed : counterLevel.Wellformed :=
  ⟨List.nodup_nil, nofun, fun _ => rfl⟩

lemma linkedLevel_wellformed : linkedLevel.Wellformed := by
  refine ⟨by decide, fun f hf => ?_, fun h => ?_⟩
  · obtain rfl := List.mem_singleton.mp hf
    decide
  · cases h

lemma linked_inherits :
    recordLoader.Inherits (levelLayout counterLevel) (levelLayout linkedLevel) :=
  .derived (.self counterLevel_wellformed rfl) linkedLevel_wellformed rfl rfl

lemma linked_nonnull : 0 < 4096 := by decide

lemma linked_fits : 4096 + (List.replicate 16 0#8).length ≤ usizeMax := by decide

lemma linked_homed (homes : List VariableHome)
    (h : Origin.heap (.obj (levelLayout linkedLevel)) = .frameHome homes) :
    ∀ home ∈ homes, home.offset + home.layout.size ≤ 16 := by
  cases h

/-- An object of the derived class. -/
def linkedObject : Receiver where
  owner := ⟨.heap (.obj (levelLayout linkedLevel)),
    ⟨4096, List.replicate 16 0#8, linked_nonnull, linked_fits⟩, linked_homed⟩
  isObjectRef := true
  base := 0

def countField : FieldRef :=
  ⟨"Counter", ⟨⟨⟨some 0⟩, 0⟩, "count"⟩, levelLayout counterLevel, ⟨⟨some 0⟩, 2⟩⟩

lemma linked_locates : linkedObject.Locates (levelLayout linkedLevel) := nofun

end RawMemory.Fields

end DotnetVm
