import DotnetVm.Layout.Factory

/-!
# Where fields are placed

Automatic and sequential layouts put the fields of a class one after the other
behind those of its base class. The loop keeps the fields placed so far apart from
each other, aligned, and below the running offset; the size of the class covers
that offset and the size the metadata asks for.
-/

namespace DotnetVm

open List

lemma le_alignUp (value : Nat) {align : Nat} (h : 0 < align) : value ≤ alignUp value align := by
  have hlt := Nat.mod_lt value h
  unfold alignUp
  dsimp only
  split <;> omega

lemma dvd_alignUp (value align : Nat) : align ∣ alignUp value align := by
  unfold alignUp
  dsimp only
  split
  · exact Nat.dvd_of_mod_eq_zero (by assumption)
  · have hsum : value + align - value % align = align * (value / align) + align := by
      have hdiv := Nat.div_add_mod value align
      omega
    rw [hsum]
    exact Nat.dvd_add (Nat.dvd_mul_right ..) (Nat.dvd_refl align)

section map

variable {α : Type} {fields : List (Placed α)} {f : Placed α}

lemma mem_insertField {g : Placed α} (h : g ∈ insertField fields f) : g = f ∨ g ∈ fields := by
  induction fields with
  | nil => exact .inl (mem_singleton.mp h)
  | cons a fields ih =>
    rw [insertField] at h
    split at h
    · rcases mem_cons.mp h with rfl | h
      · exact .inl rfl
      · exact .inr (mem_cons_of_mem a h)
    · rcases mem_cons.mp h with rfl | h
      · exact .inr mem_cons_self
      · exact (ih h).imp_right (mem_cons_of_mem a)

lemma self_mem_insertField : f ∈ insertField fields f := by
  induction fields with
  | nil => exact mem_singleton_self f
  | cons a fields ih =>
    rw [insertField]
    split
    · exact mem_cons_self
    · exact mem_cons_of_mem a ih

/-- The fields of another key stay. -/
lemma mem_insertField_of_ne {g : Placed α} (h : g ∈ fields) (hne : g.key ≠ f.key) :
    g ∈ insertField fields f := by
  induction fields with
  | nil => exact absurd h not_mem_nil
  | cons a fields ih =>
    rw [insertField]
    split
    · rename_i hkey
      rcases mem_cons.mp h with rfl | h
      · exact absurd hkey hne
      · exact mem_cons_of_mem f h
    · rcases mem_cons.mp h with rfl | h
      · exact mem_cons_self
      · exact mem_cons_of_mem a (ih h)

lemma pairwise_insertField {r : Placed α → Placed α → Prop} (h : fields.Pairwise r)
    (hnew : ∀ g ∈ fields, r g f ∧ r f g) : (insertField fields f).Pairwise r := by
  induction fields with
  | nil => exact pairwise_singleton r f
  | cons a fields ih =>
    obtain ⟨ha, hflds⟩ := pairwise_cons.mp h
    rw [insertField]
    split
    · exact pairwise_cons.mpr ⟨fun g hg => (hnew g (mem_cons_of_mem a hg)).2, hflds⟩
    · refine pairwise_cons.mpr
        ⟨fun g hg => ?_, ih hflds fun g hg => hnew g (mem_cons_of_mem a hg)⟩
      rcases mem_insertField hg with rfl | hg
      · exact (hnew a mem_cons_self).1
      · exact ha g hg

end map

/-- The byte after the last one of a field. -/
def Placed.stop (f : Placed LayoutManager) : Nat := f.position + f.layout.size

/-- Two fields that have no byte in common. -/
def Apart (f g : Placed LayoutManager) : Prop := f.stop ≤ g.position ∨ g.stop ≤ f.position

/-- A field between two offsets, aligned as far as the packing size allows. -/
structure PlacedWithin (lower upper packingSize : Nat) (f : Placed LayoutManager) : Prop where
  lower_le : lower ≤ f.position
  le_upper : f.stop ≤ upper
  aligned : min f.layout.alignment.bytes packingSize ∣ f.position

lemma PlacedWithin.mono {lower upper upper' packingSize : Nat} {f : Placed LayoutManager}
    (h : PlacedWithin lower upper packingSize f) (hle : upper ≤ upper') :
    PlacedWithin lower upper' packingSize f :=
  ⟨h.lower_le, le_trans h.le_upper hle, h.aligned⟩

/-- What holds of the fields placed so far. -/
structure Placing.Ordered (baseSize packingSize : Nat) (s : Placing) : Prop where
  base_le : baseSize ≤ s.offset
  apart : s.mapping.Pairwise Apart
  within : ∀ f ∈ s.mapping, PlacedWithin baseSize s.offset packingSize f

section loop

variable {baseSize packingSize : Nat} {hpacking : 0 < packingSize}

lemma ordered_start (baseSize packingSize : Nat) (baseAlignment : Alignment) :
    (Placing.start baseSize baseAlignment).Ordered baseSize packingSize where
  base_le := le_refl _
  apart := .nil
  within := nofun

lemma Placing.Ordered.placeField {s : Placing} (h : s.Ordered baseSize packingSize)
    (f : FieldInput) :
    (DotnetVm.placeField packingSize hpacking s f).Ordered baseSize packingSize := by
  have hle : s.offset ≤ alignUp s.offset (f.layout.alignment.clamp packingSize hpacking).bytes :=
    le_alignUp s.offset (Alignment.pos _)
  have hnext : s.offset ≤ (DotnetVm.placeField packingSize hpacking s f).offset :=
    le_trans hle (Nat.le_add_right ..)
  refine ⟨le_trans h.base_le hnext, pairwise_insertField h.apart ?_, ?_⟩
  · intro g hg
    have hbef := le_trans (h.within g hg).le_upper hle
    exact ⟨.inl hbef, .inr hbef⟩
  · intro g hg
    rcases mem_insertField hg with rfl | hg
    · exact ⟨le_trans h.base_le hle, le_refl _, dvd_alignUp ..⟩
    · exact (h.within g hg).mono hnext

lemma Placing.Ordered.foldl (hpacking : 0 < packingSize) {s : Placing}
    (h : s.Ordered baseSize packingSize) (fields : List FieldInput) :
    (fields.foldl (DotnetVm.placeField packingSize hpacking) s).Ordered baseSize packingSize := by
  induction fields generalizing s with
  | nil => exact h
  | cons f fields ih => exact ih (h.placeField f)

lemma mem_foldl_placeField {fields : List FieldInput} {s : Placing} {g : Placed LayoutManager}
    (hg : g ∈ s.mapping) (hfresh : ∀ f ∈ fields, f.key ≠ g.key) :
    g ∈ (fields.foldl (placeField packingSize hpacking) s).mapping := by
  induction fields generalizing s with
  | nil => exact hg
  | cons f fields ih =>
    obtain ⟨hne, hfresh⟩ := forall_mem_cons.mp hfresh
    exact ih (mem_insertField_of_ne hg hne.symm) hfresh

lemma input_of_mem_foldl {fields : List FieldInput} {s : Placing} {g : Placed LayoutManager}
    (h : g ∈ (fields.foldl (placeField packingSize hpacking) s).mapping) :
    g ∈ s.mapping ∨ ∃ f ∈ fields, g.key = f.key ∧ g.layout = f.layout := by
  induction fields generalizing s with
  | nil => exact .inl h
  | cons f fields ih =>
    rcases ih h with hg | ⟨f', hf', hkey⟩
    · rcases mem_insertField hg with rfl | hg
      · exact .inr ⟨f, mem_cons_self, rfl, rfl⟩
      · exact .inl hg
    · exact .inr ⟨f', mem_cons_of_mem _ hf', hkey⟩

end loop

def Layout.packingSize : Layout → Nat
  | .sequential (some s) => s.packingSize
  | _ => 0

/-- The class size the metadata asks for. -/
def Layout.classSize : Layout → Nat
  | .sequential (some s) => s.classSize
  | .explicit (some size) => size
  | _ => 0

section

variable (layout : Layout) (field : LayoutManager)

/-- The alignment a field must have. -/
def Layout.fieldAlignment : Nat :=
  if layout.packingSize = 0 then field.alignment.bytes
  else min field.alignment.bytes layout.packingSize

lemma fieldAlignment_eq : layout.fieldAlignment field =
      min field.alignment.bytes (effectivePacking layout.packingSize) := by
  have hle : field.alignment.bytes ≤ 8 := field.alignment.le
  unfold Layout.fieldAlignment effectivePacking
  split <;> omega

end

lemma fieldAlignment_automatic (field : LayoutManager) :
    Layout.automatic.fieldAlignment field = min field.alignment.bytes usizeMax := by
  have hle : field.alignment.bytes ≤ 8 := field.alignment.le
  have hmax : 8 ≤ usizeMax := by decide
  simp only [Layout.fieldAlignment, Layout.packingSize, if_true]
  omega

lemma fieldAlignment_sequential (s : Option SequentialLayout) (field : LayoutManager) :
    (Layout.sequential s).fieldAlignment field = min field.alignment.bytes
      (effectivePacking ((s.map SequentialLayout.packingSize).getD 0)) := by
  rw [fieldAlignment_eq]
  cases s <;> rfl

/-- What a layout makes of the fields it is given: the last field of each key is recorded with
its own layout, nothing else is, and the ranges are apart, behind the base class, covered and
aligned. -/
structure WellPlaced (fields : List FieldInput) (layout : Layout) (baseSize : Nat)
    (m : FieldLayoutManager) : Prop where
  placed : ∀ before f after, fields = before ++ f :: after → (∀ f' ∈ after, f'.key ≠ f.key) →
    ∃ g ∈ m.fields, g.key = f.key ∧ g.layout = f.layout
  input : ∀ g ∈ m.fields, ∃ f ∈ fields, g.key = f.key ∧ g.layout = f.layout
  apart : m.fields.Pairwise Apart
  after_base : ∀ f ∈ m.fields, baseSize ≤ f.position
  covered : ∀ f ∈ m.fields, f.stop ≤ m.totalSize
  aligned : ∀ f ∈ m.fields, layout.fieldAlignment f.layout ∣ f.position
  class_size : layout.classSize ≤ m.totalSize

lemma wellPlaced_of_loop (fields : List FieldInput) {layout : Layout} (baseAlignment : Alignment)
    {baseSize packingSize totalSize : Nat} {hpacking : 0 < packingSize}
    (hpack : ∀ l : LayoutManager, layout.fieldAlignment l = min l.alignment.bytes packingSize)
    (hsize : (placeFieldsSequentially fields baseSize baseAlignment packingSize
      hpacking).totalSize ≤
      totalSize) (hcls : layout.classSize ≤ totalSize) :
    WellPlaced fields layout baseSize
      { placeFieldsSequentially fields baseSize baseAlignment packingSize hpacking with
        totalSize } := by
  have hord := (ordered_start baseSize packingSize baseAlignment).foldl hpacking fields
  refine ⟨?_, fun g hg => (input_of_mem_foldl hg).resolve_left not_mem_nil, hord.apart,
    fun f hf => (hord.within f hf).lower_le, fun f hf => ?_, fun f hf => ?_, hcls⟩
  · rintro before f after rfl hlast
    simp only [placeFieldsSequentially, foldl_append, foldl_cons]
    exact ⟨_, mem_foldl_placeField self_mem_insertField hlast, rfl, rfl⟩
  · calc f.stop
      _ ≤ _ := (hord.within f hf).le_upper
      _ ≤ _ := le_alignUp _ (Alignment.pos _)
      _ ≤ totalSize := hsize
  · rw [hpack]
    exact (hord.within f hf).aligned

section

variable {typeName : TypeDescription → String} {fields : List FieldInput} {layout : Layout}
  {baseSize : Nat} {baseAlignment : Alignment} {m : FieldLayoutManager}

lemma wellPlaced_of_ok (hlayout : ∀ classSize, layout ≠ .explicit classSize)
    (h : createFieldLayout typeName fields layout baseSize baseAlignment = .ok m) :
    WellPlaced fields layout baseSize m := by
  cases layout with
  | explicit classSize => exact absurd rfl (hlayout classSize)
  | automatic =>
    simp only [createFieldLayout] at h
    split at h
    · nomatch h
    · cases h
      exact wellPlaced_of_loop fields baseAlignment fieldAlignment_automatic (le_refl _)
        (Nat.zero_le _)
  | sequential s =>
    simp only [createFieldLayout] at h
    split at h
    · nomatch h
    · cases h
      refine wellPlaced_of_loop fields baseAlignment (fieldAlignment_sequential s)
        (le_max_left ..) (le_trans ?_ (le_max_right ..))
      cases s <;> exact Nat.le_add_left ..

/-- Automatic and sequential layouts place the fields apart from each other, behind the base class,
aligned, and within the size of the class; fields with keys of their own are all recorded. -/
theorem createFieldLayout_wellPlaced (hlayout : ∀ classSize, layout ≠ .explicit classSize)
    (h : createFieldLayout typeName fields layout baseSize baseAlignment = .ok m) :
    WellPlaced fields layout baseSize m ∧ ((fields.map FieldInput.key).Nodup →
      ∀ f ∈ fields, ∃ g ∈ m.fields, g.key = f.key ∧ g.layout = f.layout) := by
  have hplaced := wellPlaced_of_ok hlayout h
  refine ⟨hplaced, fun hnodup f hf => ?_⟩
  obtain ⟨before, after, rfl⟩ := append_of_mem hf
  refine hplaced.placed before f after rfl fun f' hf' hkey => ?_
  rw [map_append, map_cons] at hnodup
  exact (nodup_cons.mp (nodup_append.mp hnodup).2.1).1 (hkey ▸ mem_map_of_mem hf')

lemma exists_last_of_key {k : FieldKey} (h : ∃ f ∈ fields, f.key = k) :
    ∃ before g after, fields = before ++ g :: after ∧ g.key = k ∧ ∀ f ∈ after, f.key ≠ k := by
  induction fields with
  | nil =>
    obtain ⟨f, hf, -⟩ := h
    exact absurd hf not_mem_nil
  | cons a fields ih =>
    by_cases hlater : ∃ f ∈ fields, f.key = k
    · obtain ⟨before, g, after, rfl, hg⟩ := ih hlater
      exact ⟨a :: before, g, after, rfl, hg⟩
    · obtain ⟨f, hf, hkey⟩ := h
      rcases mem_cons.mp hf with rfl | hf
      · exact ⟨[], f, fields, rfl, hkey, fun f' hf' hkey' => hlater ⟨f', hf', hkey'⟩⟩
      · exact absurd ⟨f, hf, hkey⟩ hlater

lemma WellPlaced.exists_key (h : WellPlaced fields layout baseSize m) {f : FieldInput}
    (hf : f ∈ fields) : ∃ g ∈ m.fields, g.key = f.key := by
  obtain ⟨before, g, after, heq, hkey, hlast⟩ := exists_last_of_key ⟨f, hf, rfl⟩
  obtain ⟨p, hp, hpkey, -⟩ := h.placed before g after heq (hkey ▸ hlast)
  exact ⟨p, hp, hpkey.trans hkey⟩

end

/-- A byte and a reference packed to four bytes behind a base class of ten bytes. -/
def packedFields : List FieldInput :=
  [⟨⟨⟨some 0⟩, 0⟩, "flag", none, .scalar .uInt8⟩, ⟨⟨⟨some 0⟩, 0⟩, "next", none, .scalar .objectRef⟩]

theorem packedFields_wellPlaced :
    ∃ m, createFieldLayout (fun _ => "") packedFields (.sequential (some ⟨4, 40⟩)) 10 .one = .ok m ∧
      m.fields.map (·.position) = [10, 12] ∧ m.totalSize = 50 ∧
      WellPlaced packedFields (.sequential (some ⟨4, 40⟩)) 10 m ∧
      ∀ f ∈ packedFields, ∃ g ∈ m.fields, g.key = f.key ∧ g.layout = f.layout := by
  have h : createFieldLayout (fun _ => "") packedFields (.sequential (some ⟨4, 40⟩)) 10 .one =
      .ok _ := rfl
  obtain ⟨hplaced, hall⟩ := createFieldLayout_wellPlaced (fun _ => by simp) h
  exact ⟨_, h, by decide, by decide, hplaced, hall (by decide)⟩

end DotnetVm
