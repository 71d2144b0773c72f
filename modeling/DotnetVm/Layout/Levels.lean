import DotnetVm.Layout.Placement
import DotnetVm.Layout.Types

/-!
# Layouts are made level by level

What one level of the factory does to the fields, the descriptor and the size of a
layout: the fields declared by the class are placed (`Layout.places`), those of
the base class are added behind them, and an inline array repeats its first field.
`Made P l` says that the layout `l` has been put together from levels that satisfy
`P`; whatever the factory answers, from whatever caches, is made in this way.
-/

namespace DotnetVm

open Caching List Option

/-- The places of fields laid out one after the other from an offset. -/
def sequentialPlaces (packingSize : Nat) (hpacking : 0 < packingSize) :
    Nat → List FieldInput → List (Placed LayoutManager)
  | _, [] => []
  | offset, f :: fields =>
    let position := alignUp offset (f.layout.alignment.clamp packingSize hpacking).bytes
    ⟨f.key, position, f.layout⟩ ::
      sequentialPlaces packingSize hpacking (position + f.layout.size) fields

section

variable (baseSize : Nat) (fields : List FieldInput)

def explicitPlaces : List (Placed LayoutManager) :=
  fields.map fun f => ⟨f.key, baseSize + f.offset.getD 0, f.layout⟩

/-- The places a layout gives to the fields of a class. -/
def Layout.places : Layout → List (Placed LayoutManager)
  | .automatic => sequentialPlaces usizeMax usizeMax_pos baseSize fields
  | .sequential s =>
    sequentialPlaces (effectivePacking ((s.map SequentialLayout.packingSize).getD 0))
      (sequentialPacking_pos s) baseSize fields
  | .explicit _ => explicitPlaces baseSize fields

end

/-- The descriptor of fields at given places. -/
def describe (places : List (Placed LayoutManager)) (desc : GcDesc) : GcDesc :=
  places.foldl (fun desc p => populateGcDesc p.layout p.position desc) desc

/-- The end of the last of the places, or `start`. -/
def placesEnd (places : List (Placed LayoutManager)) (start : Nat) : Nat :=
  places.foldl (fun stop p => max stop p.stop) start

lemma le_placesEnd (places : List (Placed LayoutManager)) (start : Nat) :
    start ≤ placesEnd places start ∧ ∀ p ∈ places, p.stop ≤ placesEnd places start := by
  induction places generalizing start with
  | nil => exact ⟨le_refl _, nofun⟩
  | cons p places ih =>
    obtain ⟨hle, hall⟩ := ih (max start p.stop)
    refine ⟨(le_max_left ..).trans hle, forall_mem_cons.mpr ⟨?_, hall⟩⟩
    exact (le_max_right ..).trans hle

/-- What placing the fields at `places` does to the state of the loop. -/
structure Placing.Enters (places : List (Placed LayoutManager)) (s s' : Placing) : Prop where
  mapping : s'.mapping = places.foldl insertField s.mapping
  gcDesc : s'.gcDesc = describe places s.gcDesc
  hasRefFields : s'.hasRefFields = (s.hasRefFields || places.any fun p => p.layout.hasManagedPtrs)
  offset : s'.offset = placesEnd places s.offset

lemma Placing.Enters.nil (s : Placing) : s.Enters [] s where
  mapping := rfl
  gcDesc := rfl
  hasRefFields := by simp
  offset := rfl

lemma Placing.Enters.cons {p : Placed LayoutManager} {places : List (Placed LayoutManager)}
    {s s' s'' : Placing} (h : s.Enters [p] s') (h' : s'.Enters places s'') :
    s.Enters (p :: places) s'' where
  mapping := by rw [h'.mapping, h.mapping]; rfl
  gcDesc := by rw [h'.gcDesc, h.gcDesc]; rfl
  hasRefFields := by
    rw [h'.hasRefFields, h.hasRefFields]
    simp [Bool.or_assoc]
  offset := by rw [h'.offset, h.offset]; rfl

lemma enters_sequentialPlaces (packingSize : Nat) (hpack : 0 < packingSize)
    (fields : List FieldInput) (s : Placing) :
    s.Enters (sequentialPlaces packingSize hpack s.offset fields)
      (fields.foldl (placeField packingSize hpack) s) := by
  induction fields generalizing s with
  | nil => exact .nil s
  | cons f fields ih =>
    have hround : s.Enters
        [⟨f.key, alignUp s.offset (f.layout.alignment.clamp packingSize hpack).bytes, f.layout⟩]
        (placeField packingSize hpack s f) := by
      refine ⟨rfl, rfl, by simp [placeField], (Nat.max_eq_right ?_).symm⟩
      exact le_trans (le_alignUp s.offset (Alignment.pos _)) (Nat.le_add_right ..)
    exact hround.cons (ih (placeField packingSize hpack s f))

variable {typeName : TypeDescription → String} {baseSize : Nat}

lemma enters_explicitPlaces
    {fields : List FieldInput} {s : Placing × List PlacedRange} {s' : Placing}
    (h : placeFieldsExplicitly typeName baseSize s fields = .ok s') :
    s.1.Enters (explicitPlaces baseSize fields) s' := by
  induction fields generalizing s with
  | nil =>
    cases h
    exact .nil s.1
  | cons f fields ih =>
    rw [placeFieldsExplicitly] at h
    cases hplace : placeExplicitly typeName baseSize s f with
    | error e =>
      rw [hplace] at h
      nomatch h
    | ok t =>
      rw [hplace] at h
      refine Placing.Enters.cons ?_ (ih h)
      unfold placeExplicitly at hplace
      cases hoff : f.offset with
      | none =>
        rw [hoff] at hplace
        nomatch hplace
      | some o =>
        rw [hoff] at hplace
        dsimp only at hplace
        split at hplace
        · nomatch hplace
        · cases hplace
          simp only [hoff]
          exact ⟨rfl, rfl, by simp, rfl⟩

/-- What is known of the layout of the declared fields. -/
structure Declares (places : List (Placed LayoutManager)) (baseSize : Nat)
    (m : FieldLayoutManager) :
    Prop where
  fields : m.fields = places.foldl insertField []
  gcDesc : m.gcDesc = describe places .empty
  hasRefFields : m.hasRefFields = places.any fun p => p.layout.hasManagedPtrs
  base_le : baseSize ≤ m.totalSize
  stop_le : ∀ p ∈ places, p.stop ≤ m.totalSize

variable {baseAlignment : Alignment}

lemma Placing.Enters.declares {places : List (Placed LayoutManager)} {totalSize : Nat}
    {alignment : Alignment} {s : Placing}
    (h : (Placing.start baseSize baseAlignment).Enters places s) (hsize : s.offset ≤ totalSize) :
    Declares places baseSize ⟨s.mapping, totalSize, alignment, s.gcDesc, s.hasRefFields⟩ where
  fields := h.mapping
  gcDesc := h.gcDesc
  hasRefFields := h.hasRefFields
  base_le := le_trans (h.offset ▸ (le_placesEnd ..).1) hsize
  stop_le := fun p hp => le_trans (h.offset ▸ (le_placesEnd ..).2 p hp) hsize

lemma createFieldLayout_declares {fields : List FieldInput}
    {layout : Layout} {m : FieldLayoutManager}
    (h : createFieldLayout typeName fields layout baseSize baseAlignment = .ok m) :
    Declares (layout.places baseSize fields) baseSize m := by
  cases layout with
  | automatic =>
    simp only [createFieldLayout] at h
    split at h
    · cases h
    · cases h
      exact (enters_sequentialPlaces usizeMax usizeMax_pos fields _).declares
        (le_alignUp _ (Alignment.pos _))
  | sequential s =>
    simp only [createFieldLayout] at h
    split at h
    · cases h
    · cases h
      exact (enters_sequentialPlaces _ _ fields _).declares
        (le_trans (le_alignUp _ (Alignment.pos _)) (le_max_left ..))
  | explicit classSize =>
    simp only [createFieldLayout] at h
    cases hplaces : placeFieldsExplicitly typeName baseSize
      (Placing.start baseSize baseAlignment, [])
        fields with
    | error e => simp [hplaces] at h
    | ok s =>
      have hent := enters_explicitPlaces hplaces
      cases classSize with
      | none =>
        simp only [hplaces] at h
        split at h
        · cases h
        · cases h
          exact hent.declares (le_refl _)
      | some size =>
        simp only [hplaces] at h
        split at h
        · cases h
        · cases h
          exact hent.declares (le_max_right ..)

section map

variable {α : Type}

variable {fields : List (Placed α)}

lemma mem_foldl_insertField {places : List (Placed α)} {g : Placed α}
    (h : g ∈ places.foldl insertField fields) : g ∈ places ∨ g ∈ fields := by
  induction places generalizing fields with
  | nil => exact .inr h
  | cons p places ih =>
    rcases ih h with hg | hg
    · exact .inl (mem_cons_of_mem p hg)
    · rcases mem_insertField hg with rfl | hg
      · exact .inl mem_cons_self
      · exact .inr hg

lemma nodup_insertField (h : (fields.map Placed.key).Nodup)
    (f : Placed α) : ((insertField fields f).map Placed.key).Nodup := by
  induction fields with
  | nil => exact nodup_singleton f.key
  | cons g fields ih =>
    obtain ⟨hg, hflds⟩ := nodup_cons.mp h
    rw [insertField]
    split
    · rename_i hkey
      rw [map_cons, ← hkey]
      exact nodup_cons.mpr ⟨hg, hflds⟩
    · rename_i hkey
      refine nodup_cons.mpr ⟨fun hmem => ?_, ih hflds⟩
      obtain ⟨g', hg', hsm⟩ := mem_map.mp hmem
      rcases mem_insertField hg' with rfl | hg'
      · exact hkey hsm.symm
      · exact hg (mem_map.mpr ⟨g', hg', hsm⟩)

lemma nodup_foldl_insertField (places : List (Placed α)) (h : (fields.map Placed.key).Nodup) :
    ((places.foldl insertField fields).map Placed.key).Nodup := by
  induction places generalizing fields with
  | nil => exact h
  | cons p places ih => exact ih (nodup_insertField h p)

lemma insertField_fresh {f : Placed α}
    (h : ∀ g ∈ fields, g.key ≠ f.key) : insertField fields f = fields ++ [f] := by
  induction fields with
  | nil => rfl
  | cons g fields ih =>
    rw [insertField, if_neg (h g mem_cons_self),
      ih fun g' hg' => h g' (mem_cons_of_mem g hg'), cons_append]

/-- Fields of new and different keys are added at the end. -/
lemma foldl_insertField_fresh {gs : List (Placed α)} (hgs : (gs.map Placed.key).Nodup)
    (h : ∀ g ∈ gs, ∀ f ∈ fields, f.key ≠ g.key) : gs.foldl insertField fields = fields ++ gs := by
  induction gs generalizing fields with
  | nil => exact (append_nil fields).symm
  | cons g gs ih =>
    obtain ⟨hg, hrest⟩ := nodup_cons.mp hgs
    rw [foldl_cons, insertField_fresh (h g mem_cons_self), ih hrest, append_assoc]
    · rfl
    · intro g' hg' f hf
      rcases mem_append.mp hf with hf | hf
      · exact h g' (mem_cons_of_mem g hg') f hf
      · obtain rfl := mem_singleton.mp hf
        exact fun hsm => hg (mem_map.mpr ⟨g', hg', hsm.symm⟩)

end map

namespace ClassLevel

variable (level : ClassLevel)

/-- The places of the fields the class declares. -/
def places : List (Placed LayoutManager) := level.layout.places level.baseSize level.inputs

/-- The declared fields in the map; of two with the same name the last one stays. -/
def declared : List (Placed LayoutManager) := level.places.foldl insertField []

def inherited : List (Placed LayoutManager) := (level.base.map FieldLayouts.fields).getD []

/-- The fields of the finished layout. -/
def allFields : List (Placed LayoutManager) := level.declared ++ level.inherited

/-- A base class that has been laid out, and whose fields the class itself does not declare; static
fields are not inherited. -/
structure Wellformed : Prop where
  nodup : (level.inherited.map Placed.key).Nodup
  owner_ne : ∀ f ∈ level.inherited, f.key.owner ≠ level.td
  static : level.isStatic = true → level.base = none

/-- The layouts put together at this level, with their offsets. -/
def parts : List (Nat × LayoutManager) :=
  level.places.map (fun p => (p.position, p.layout)) ++
    level.base.toList.map (fun base => (0, .field base))

variable {level}

lemma layout_of_mem_places {p : Placed LayoutManager} (h : p ∈ level.places) :
    ∃ f ∈ level.fields, p.layout = f.2.2 ∧ p.key = ⟨level.td, f.1⟩ := by
  have hinput : ∃ f ∈ level.inputs, p.layout = f.layout ∧ p.key = f.key := by
    have hseq (packingSize : Nat) (hpack : 0 < packingSize) (fields : List FieldInput)
        (offset : Nat) (hp : p ∈ sequentialPlaces packingSize hpack offset fields) :
        ∃ f ∈ fields, p.layout = f.layout ∧ p.key = f.key := by
      induction fields generalizing offset with
      | nil => exact absurd hp not_mem_nil
      | cons f fields ih =>
        rcases mem_cons.mp hp with rfl | hp
        · exact ⟨f, mem_cons_self, rfl, rfl⟩
        · obtain ⟨g, hg, hp⟩ := ih _ hp
          exact ⟨g, mem_cons_of_mem f hg, hp⟩
    unfold places Layout.places at h
    split at h
    · exact hseq _ _ _ _ h
    · exact hseq _ _ _ _ h
    · obtain ⟨f, hf, rfl⟩ := mem_map.mp h
      exact ⟨f, hf, rfl, rfl⟩
  obtain ⟨f, hf, hp⟩ := hinput
  obtain ⟨g, hg, rfl⟩ := mem_map.mp hf
  exact ⟨g, hg, hp⟩

variable {f : Placed LayoutManager}

lemma mem_places_of_mem_declared (h : f ∈ level.declared) : f ∈ level.places := by
  rcases mem_foldl_insertField h with h | h
  · exact h
  · exact absurd h not_mem_nil

lemma owner_of_mem_declared (h : f ∈ level.declared) : f.key.owner = level.td := by
  obtain ⟨g, -, -, hkey⟩ := layout_of_mem_places (mem_places_of_mem_declared h)
  rw [hkey]

lemma nodup_declared : (level.declared.map Placed.key).Nodup :=
  nodup_foldl_insertField level.places nodup_nil

lemma nodup_allFields (hlevel : level.Wellformed) : (level.allFields.map Placed.key).Nodup := by
  rw [allFields, map_append]
  refine nodup_append.mpr ⟨nodup_declared, hlevel.nodup, ?_⟩
  intro k hk k' hk' hsm
  obtain ⟨f, hf, rfl⟩ := mem_map.mp hk
  obtain ⟨g, hg, rfl⟩ := mem_map.mp hk'
  exact hlevel.owner_ne g hg (hsm ▸ owner_of_mem_declared hf)

lemma fields_mergeBase {result : FieldLayoutManager} (hlevel : level.Wellformed)
    (h : Declares level.places level.baseSize result) :
    (mergeBase result level.base).fields = level.allFields := by
  have hflds : result.fields = level.declared := h.fields
  obtain ⟨hnd, hown, -⟩ := hlevel
  unfold allFields inherited at *
  cases hbase : level.base with
  | none => simpa [mergeBase] using hflds
  | some base =>
    rw [hbase] at hnd hown
    simp only [mergeBase, hflds]
    apply foldl_insertField_fresh hnd
    intro g hg f hf hsm
    exact hown g hg (hsm ▸ owner_of_mem_declared hf)

end ClassLevel

lemma firstField_append (td : TypeDescription) (as bs : List (Placed LayoutManager))
    (first : Option (Placed LayoutManager)) :
    firstField td (as ++ bs) first = firstField td bs (firstField td as first) := by
  induction as generalizing first with
  | nil => rfl
  | cons f as ih =>
    exact ih _

variable {fields : List (Placed LayoutManager)} {td : TypeDescription}

lemma firstField_of_owner_ne
    (h : ∀ f ∈ fields, f.key.owner ≠ td) (first : Option (Placed LayoutManager)) :
    firstField td fields first = first := by
  induction fields with
  | nil => rfl
  | cons f fields ih =>
    rw [firstField, if_neg (h f mem_cons_self)]
    exact ih fun g hg => h g (mem_cons_of_mem f hg)

lemma mem_of_firstField {first : Option (Placed LayoutManager)} {f : Placed LayoutManager}
    (h : firstField td fields first = some f) : f ∈ fields ∨ first = some f := by
  induction fields generalizing first with
  | nil => exact .inr h
  | cons g fields ih =>
    rcases ih h with h | h
    · exact .inl (mem_cons_of_mem g h)
    · split at h
      · unfold earlier at h
        split at h
        · exact .inl (some.inj h ▸ mem_cons_self)
        · split at h
          · exact .inl (some.inj h ▸ mem_cons_self)
          · exact .inr h
      · exact .inr h

namespace LayoutLoader

variable (M : LayoutLoader)

/-- The field an inline array repeats, and how often. -/
def element (level : ClassLevel) : Option (Placed LayoutManager × Nat) :=
  match M.inlineArrayLength level.td with
  | none => none
  | some inlineLen =>
    if 1 < inlineLen then (firstField level.td level.declared none).map fun f => (f, inlineLen)
    else none

/-- The elements of an inline array, with their offsets. -/
def elements (f : Placed LayoutManager) (length : Nat) : List (Nat × LayoutManager) :=
  (List.range length).map fun i => (f.position + f.layout.size * i, f.layout)

/-- The layouts that the descriptor of a level is filled from, with their offsets. -/
def described (level : ClassLevel) : List (Nat × LayoutManager) :=
  match M.element level with
  | some (f, length) => if f.layout.isOrContainsRefs then elements f length else level.parts
  | none => level.parts

variable {M}

variable {level : ClassLevel}

lemma mem_declared_of_element {f : Placed LayoutManager} {length : Nat}
    (h : M.element level = some (f, length)) : f ∈ level.declared ∧ 1 < length := by
  unfold element at h
  split at h
  · nomatch h
  · split at h
    · obtain ⟨g, hg, hsm⟩ := map_eq_some_iff.mp h
      cases hsm
      rcases mem_of_firstField hg with hg | hg
      · exact ⟨hg, by assumption⟩
      · nomatch hg
    · nomatch h

variable {m : FieldLayoutManager}

section

variable (hlevel : level.Wellformed) (h : M.finish level = some (.ok m))
include hlevel h

lemma finish_cases :
    ∃ result, Declares level.places level.baseSize result ∧
      match M.element level with
      | none => m = mergeBase result level.base
      | some (f, length) =>
        repeatFirstField level.td length (mergeBase result level.base) = some m ∧
          firstField level.td (mergeBase result level.base).fields none = some f := by
  unfold finish at h
  cases hcreate : createFieldLayout M.typeName level.inputs level.layout level.baseSize
      level.baseAlignment with
  | error e => simp [hcreate] at h
  | ok result =>
    have hdecl : Declares level.places level.baseSize result :=
      createFieldLayout_declares hcreate
    have hfst : firstField level.td (mergeBase result level.base).fields none =
        firstField level.td level.declared none := by
      rw [ClassLevel.fields_mergeBase hlevel hdecl, ClassLevel.allFields, firstField_append]
      exact firstField_of_owner_ne hlevel.owner_ne _
    refine ⟨result, hdecl, ?_⟩
    rw [hcreate] at h
    unfold element
    cases hlen : M.inlineArrayLength level.td with
    | none =>
      rw [hlen] at h
      simp only [some.injEq, Except.ok.injEq] at h
      exact h.symm
    | some length =>
      rw [hlen] at h
      dsimp only at h ⊢
      by_cases hlong : 1 < length
      · rw [if_pos hlong] at h ⊢
        obtain ⟨m', hrep, hm⟩ := map_eq_some_iff.mp h
        cases hm
        cases hf : firstField level.td level.declared none with
        | none =>
          simp only [repeatFirstField, hfst, hf, some.injEq] at hrep
          exact hrep.symm
        | some f => exact ⟨hrep, hfst.trans hf⟩
      · rw [if_neg hlong] at h ⊢
        simp only [some.injEq, Except.ok.injEq] at h
        exact h.symm

lemma finish_fields : m.fields = level.allFields := by
  obtain ⟨result, hdecl, hcs⟩ := finish_cases hlevel h
  rw [← ClassLevel.fields_mergeBase hlevel hdecl]
  cases helt : M.element level with
  | none =>
    rw [helt] at hcs
    rw [hcs]
  | some p =>
    rw [helt] at hcs
    obtain ⟨hrep, hfst⟩ := hcs
    simp only [repeatFirstField, hfst] at hrep
    split at hrep
    · split at hrep
      · cases hrep
        rfl
      · nomatch hrep
    · cases hrep
      rfl

end

variable (M)

/-- The layout, of static fields or of a value, has been put together from levels that satisfy
`P`. -/
inductive Made (P : ClassLevel → Prop) : Bool → LayoutManager → Prop
  | scalar (s : Scalar) : Made P false (.scalar s)
  | array {element : LayoutManager} (length : Nat) (h : Made P false element) :
      Made P false (.array element length)
  | field {level : ClassLevel} {m : FieldLayoutManager} (hlevel : level.Wellformed) (hP : P level)
      (hfields : ∀ f ∈ level.fields, Made P false f.2.2)
      (hbase : ∀ base, level.base = some base → Made P false (.field base))
      (h : M.finish level = some (.ok m)) : Made P level.isStatic (.field m)

variable {M} {P Q : ClassLevel → Prop} {isStatic : Bool}

lemma Made.mono (h : ∀ level : ClassLevel, level.Wellformed → P level → Q level)
    {l : LayoutManager} (hl : M.Made P isStatic l) : M.Made Q isStatic l := by
  induction hl with
  | scalar s => exact .scalar s
  | array length _ ih => exact .array length ih
  | field hlevel hP _ _ hfin ihfields ihbase =>
    exact .field hlevel (h _ hlevel hP) ihfields ihbase hfin

lemma Made.nodup (h : M.Made P isStatic (.field m)) : (m.fields.map Placed.key).Nodup := by
  cases h with
  | field hlevel _ _ _ hfin =>
    rw [finish_fields hlevel hfin]
    exact ClassLevel.nodup_allFields hlevel

/-- The caches hold only layouts made from levels. -/
structure CachesMade (M : LayoutLoader) (c : LayoutCaches) : Prop where
  types : ∀ e ∈ c.types, M.Made (fun _ => True) false e.2
  instanceFields : ∀ e ∈ c.instanceFields, M.Made (fun _ => True) false (.field e.2)

/-- A computation whose results are made from levels. -/
abbrev Makes (M : LayoutLoader) : LayoutM LayoutManager → Prop :=
  Cached.Keeps M.CachesMade (M.Made (fun _ => True) false)

lemma height_lt_of_isChain {L : AssemblyLoader} {a b : Ancestor} {rest : List Ancestor}
    (h : L.IsChain (a :: b :: rest)) : L.height b.1 < L.height a.1 := by
  obtain ⟨t, arguments⟩ := a
  have h : L.ancestors t = .ok ((t, arguments) :: b :: rest) := h
  rw [L.ancestors_eq] at h
  cases hp : L.parentOf t with
  | none =>
    rw [hp] at h
    simp only [Except.ok.injEq, cons.injEq] at h
    nomatch h.2
  | some r =>
    cases r with
    | error e =>
      rw [hp] at h
      nomatch h
    | ok parent =>
      rw [hp] at h
      dsimp only at h
      cases hrest : L.ancestors parent with
      | error e =>
        rw [hrest] at h
        nomatch h
      | ok as =>
        rw [hrest] at h
        simp only [Except.ok.injEq, cons.injEq] at h
        obtain ⟨-, rest', has⟩ := AssemblyLoader.isChain_ancestors hrest
        rw [has] at h
        rw [(cons.inj h.2).1.symm]
        exact L.acyclic hp

section factory

variable {layoutOf : ConcreteType → LayoutM LayoutManager} (hlayoutOf : ∀ t, M.Makes (layoutOf t))

include hlayoutOf

lemma makes_fieldLayout (td : TypeDescription) (resolution : ResolutionS)
    (generics : GenericLookup) (f : FieldDefinition) :
    M.Makes (M.fieldLayout layoutOf td resolution generics f) := by
  unfold fieldLayout
  split
  · exact Cached.keeps_pure (.scalar _)
  · exact Cached.keeps_pure (.scalar _)
  · exact Cached.keeps_pure (.scalar _)
  · split
    · split
      · exact Cached.keeps_pure (.scalar _)
      · exact Cached.keeps_ofExcept fun a ha => nomatch ha
    · apply Cached.Keeps.bind (Cached.keeps_ofExcept fun _ _ => trivial)
      intro t _
      exact hlayoutOf t

/-- The fields of a layout belong to the class and its ancestors, which are lower. -/
abbrev MadeFor (M : LayoutLoader) (isStatic : Bool) (td : TypeDescription)
    (m : FieldLayoutManager) : Prop :=
  M.Made (fun _ => True) isStatic (.field m) ∧ ∀ f ∈ m.fields, M.height f.key.owner ≤ M.height td

lemma keeps_declaredFields (isStatic : Bool) (td : TypeDescription)
    (resolution : ResolutionS) (generics : GenericLookup) {base : Option FieldLayoutManager}
    (hstat : isStatic = true → base = none)
    (hbase : ∀ b, base = some b → M.Made (fun _ => True) false (.field b) ∧
      ∀ f ∈ b.fields, M.height f.key.owner < M.height td) :
    Cached.Keeps M.CachesMade (M.MadeFor isStatic td)
      (M.declaredFields layoutOf isStatic td resolution generics base) := by
  apply Cached.Keeps.bind (P := fun fields => ∀ f ∈ fields, M.Made (fun _ => True) false f.2.2)
  · apply Cached.keeps_forEach
    intro f _
    apply Cached.Keeps.bind (makes_fieldLayout hlayoutOf td resolution generics f)
    intro layout hlay
    exact Cached.keeps_pure hlay
  · intro fields hflds
    apply Cached.keeps_ofOption
    intro m hm
    have hlevel : ClassLevel.Wellformed ⟨td, isStatic, fields, M.layout td, base⟩ := by
      cases base with
      | none => exact ⟨nodup_nil, fun f hf => absurd hf not_mem_nil, hstat⟩
      | some b =>
        obtain ⟨hmade, hht⟩ := hbase b rfl
        refine ⟨hmade.nodup, fun f hf hown => ?_, hstat⟩
        have hlt := hht f hf
        rw [hown] at hlt
        exact lt_irrefl _ hlt
    refine ⟨.field hlevel trivial hflds (fun b hb => (hbase b hb).1) hm, fun f hf => ?_⟩
    rw [finish_fields hlevel hm] at hf
    rcases mem_append.mp hf with hf | hf
    · rw [ClassLevel.owner_of_mem_declared hf]
    · cases base with
      | none => exact absurd hf not_mem_nil
      | some b => exact le_of_lt ((hbase b rfl).2 f hf)

variable {includeBase : Bool}

lemma keeps_collectFields (hbase : (isStatic && includeBase) = false)
    {first : Ancestor} {rest : List Ancestor} (hchn : M.IsChain (first :: rest))
    (resolution : ResolutionS) (generics : GenericLookup) :
    Cached.Keeps M.CachesMade (M.MadeFor isStatic first.1)
      (M.collectFields layoutOf isStatic includeBase first rest resolution generics) := by
  induction rest generalizing first resolution generics with
  | nil =>
    exact keeps_declaredFields hlayoutOf isStatic first.1 resolution generics (fun _ => rfl) nofun
  | cons base rest ih =>
    obtain ⟨td, extendsGenerics⟩ := first
    rw [collectFields]
    split
    · rename_i hinclude
      obtain rfl : isStatic = false := by simpa [hinclude] using hbase
      apply Cached.Keeps.bind
      · apply Cached.Keeps.mono
        · exact Cached.keeps_forEach fun t _ => Cached.keeps_ofExcept fun _ _ => trivial
        · exact fun _ _ => trivial
      · intro arguments _
        apply Cached.Keeps.bind (ih hchn.tail base.1.resolution ⟨arguments, []⟩)
        rintro layout ⟨hmade, hht⟩
        apply keeps_declaredFields hlayoutOf false td resolution generics nofun
        intro b hb
        cases hb
        exact ⟨hmade, fun f hf => lt_of_le_of_lt (hht f hf) (height_lt_of_isChain hchn)⟩
    · exact keeps_declaredFields hlayoutOf isStatic td resolution generics (fun _ => rfl) nofun

section

variable (td : TypeDescription) (generics : GenericLookup)

lemma keeps_fieldsOf (hbase : (isStatic && includeBase) = false) :
    Cached.Keeps M.CachesMade (M.MadeFor isStatic td)
      (M.fieldsOf layoutOf td generics isStatic includeBase) := by
  apply Cached.Keeps.bind
  · exact Cached.keeps_ofExcept fun _ h => h
  · intro as has
    obtain ⟨hchn, rest, rfl⟩ := AssemblyLoader.isChain_ancestors has
    exact keeps_collectFields hlayoutOf hbase hchn td.resolution generics

lemma keeps_instanceFieldsWithLookup :
    Cached.Keeps M.CachesMade (M.MadeFor false td)
      (M.instanceFieldsWithLookup layoutOf td generics) := by
  apply Cached.Keeps.bind (Cached.keeps_ofExcept fun _ _ => trivial)
  intro isValueType _
  exact keeps_fieldsOf hlayoutOf td generics rfl

end

lemma makes_valueTypeLayout (t : ConcreteType) (handle : UserType) :
    M.Makes (M.valueTypeLayout layoutOf t handle) := by
  apply Cached.Keeps.bind (Cached.keeps_ofExcept fun _ _ => trivial)
  intro td _
  dsimp only
  split
  · exact Cached.keeps_ofExcept fun a ha => nomatch ha
  · split
    · exact Cached.keeps_pure (.scalar _)
    · split
      · apply Cached.Keeps.bind (Cached.keeps_ofExcept fun _ _ => trivial)
        intro stored _
        exact hlayoutOf stored
      · apply Cached.Keeps.bind (keeps_instanceFieldsWithLookup hlayoutOf td t.makeLookup)
        intro m hm
        exact Cached.keeps_pure hm.1

lemma makes_typeLayoutInternal (t : ConcreteType) : M.Makes (M.typeLayoutInternal layoutOf t) := by
  unfold typeLayoutInternal
  split
  · exact Cached.keeps_pure (.scalar _)
  · exact Cached.keeps_pure (.scalar _)
  · exact Cached.keeps_pure (.scalar _)
  · exact makes_valueTypeLayout hlayoutOf t _
  · exact makes_valueTypeLayout hlayoutOf t _
  · exact Cached.keeps_pure (.scalar _)

end factory

lemma makes_typeLayoutCached (fuel : Nat) (t : ConcreteType) :
    M.Makes (M.typeLayoutCached fuel t) := by
  induction fuel generalizing t with
  | zero => exact Cached.keeps_diverge
  | succ fuel ih =>
    apply Cached.Keeps.bind (Cached.keeps_ofExcept fun _ _ => trivial)
    intro t _
    apply Cached.Keeps.bind Cached.keeps_get
    intro caches hcaches
    split
    · rename_i cached hcach
      obtain ⟨e, he, rfl⟩ := map_eq_some_iff.mp hcach
      exact Cached.keeps_pure (hcaches.types e (mem_of_find?_eq_some he))
    · apply Cached.Keeps.bind (makes_typeLayoutInternal ih t)
      intro result hres
      apply Cached.Keeps.bind
      · apply Cached.keeps_modify
        intro c hc
        exact ⟨forall_mem_cons.mpr ⟨hres, hc.types⟩, hc.instanceFields⟩
      · intro _ _
        exact Cached.keeps_pure hres

lemma keeps_instanceFieldLayoutCached (fuel : Nat) (td : TypeDescription)
    (generics : GenericLookup) :
    Cached.Keeps M.CachesMade (fun m => M.Made (fun _ => True) false (.field m))
      (M.instanceFieldLayoutCached fuel td generics) := by
  apply Cached.Keeps.bind Cached.keeps_get
  intro caches hcaches
  split
  · rename_i cached hcach
    obtain ⟨e, he, rfl⟩ := map_eq_some_iff.mp hcach
    exact Cached.keeps_pure (hcaches.instanceFields e (mem_of_find?_eq_some he))
  · apply Cached.Keeps.bind
      (keeps_instanceFieldsWithLookup (makes_typeLayoutCached fuel) td generics)
    rintro result ⟨hres, -⟩
    apply Cached.Keeps.bind
    · apply Cached.keeps_modify
      intro c hc
      exact ⟨hc.types, forall_mem_cons.mpr ⟨hres, hc.instanceFields⟩⟩
    · intro _ _
      exact Cached.keeps_pure hres

lemma makes_answer (fuel : Nat) (r : LayoutRequest) :
    Cached.Keeps M.CachesMade (M.Made (fun _ => True) r.isStatic) (M.answer fuel r) := by
  cases r with
  | type t => exact makes_typeLayoutCached fuel t
  | instanceFields td generics =>
    apply Cached.Keeps.bind (keeps_instanceFieldLayoutCached fuel td generics)
    intro m hm
    exact Cached.keeps_pure hm
  | staticFields td generics =>
    apply Cached.Keeps.bind (keeps_fieldsOf (makes_typeLayoutCached fuel) td generics rfl)
    intro m hm
    exact Cached.keeps_pure hm.1
  | array element length =>
    apply Cached.Keeps.bind (makes_typeLayoutCached fuel element)
    intro elementLayout helt
    split
    · exact Cached.keeps_ofExcept fun a ha => nomatch ha
    · exact Cached.keeps_pure (.array length helt)

variable {c : LayoutCaches}

lemma cachesMade_step {c' : LayoutCaches} {e : LayoutEvent} (hc : M.CachesMade c)
    (h : M.layoutStep c e = some c') : M.CachesMade c' := by
  cases e with
  | request fuel r =>
    obtain ⟨⟨result, c''⟩, hrun, rfl⟩ := map_eq_some_iff.mp h
    exact (makes_answer fuel r c result c'' hc hrun).1
  | evict keepTypes keepInstanceFields =>
    cases h
    exact ⟨fun e he => hc.types e (mem_filter.mp he).1,
      fun e he => hc.instanceFields e (mem_filter.mp he).1⟩

lemma ReachableLayouts.made (h : M.ReachableLayouts c) : M.CachesMade c :=
  Runs.Run.invariant (fun _ _ _ hc _ hst => cachesMade_step hc hst) h
    ⟨nofun, nofun⟩

/-- Whatever was asked before, an answer of the factory has been made from levels. -/
lemma made_of_request {c' : LayoutCaches} (hc : M.ReachableLayouts c) {fuel : Nat}
    {r : LayoutRequest} {l : LayoutManager} (h : M.answer fuel r c = some (.ok l, c')) :
    M.Made (fun _ => True) r.isStatic l :=
  (makes_answer fuel r c (.ok l) c' hc.made h).2 l rfl

end LayoutLoader

end DotnetVm
