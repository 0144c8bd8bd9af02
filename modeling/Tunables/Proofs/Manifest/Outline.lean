import Tunables.Proofs.Manifest.Schema

/-!
# Documents of the right shape

A document of the right shape has a table about the target, and it may have tables about parameters.
Each of these tables is written as a table of fields, or as an array of them in their order.
Nothing is asked of names, types and values here.

* `Record.Lists`: the fields of a value, whichever way it is written.
* `IsGenerator`, `IsParameter`, `IsOutline`: what the fields of a document must hold, and what they
  say.
* `isOutline_iff`: what a document is read as.
-/

namespace Tunables
namespace Manifest

open Toml (Key Spanned Entries AreDistinct IsTree)

section Records

/-- The fields of a value under their names: those of a table, or those of an array, which may lack
fields at the end.  What stands behind the last field of an array is ignored. -/
inductive Record.Lists (record : Record) : Toml.Value → Entries → Prop
  | table (origin : Toml.Origin) (entries : Entries) : Lists record (.table origin entries) entries
  | array (ofHeaders : Bool) (items : List (Spanned Toml.Value)) :
      (∀ field ∈ record.fields.drop items.length, field.mayEnd = true) →
      Lists record (.array ofHeaders items)
        (List.zipWith (fun field item => (⟨field.name, item.span⟩, item)) record.fields items)

variable {record : Record} {value : Spanned Toml.Value} {entries : Entries}

theorem Record.lacks?_eq_none_iff {length : Nat} :
    record.lacks? length = none ↔ ∀ field ∈ record.fields.drop length, field.mayEnd = true := by
  rw [lacks?, Option.map_eq_none_iff, List.find?_eq_none]
  have hfields : (record.fields.zipIdx.drop length).map Prod.fst = record.fields.drop length := by
    rw [List.map_drop, List.zipIdx_map_fst]
  rw [← hfields, List.forall_mem_map]
  simp

theorem Record.checkLength_eq_ok_iff {span : Toml.Span} {ofHeaders : Bool}
    {items : List (Spanned Toml.Value)} :
    record.checkLength ⟨span, .array ofHeaders items⟩ = .ok () ↔
      ∀ field ∈ record.fields.drop items.length, field.mayEnd = true := by
  rw [← lacks?_eq_none_iff, checkLength]
  cases hlacks : record.lacks? items.length with
  | none => simp [hlacks]
  | some position => simp [hlacks]

theorem Record.names_zipWith (fields : List RecordField) (items : List (Spanned Toml.Value)) :
    (List.zipWith (fun field item => ((⟨field.name, item.span⟩ : Key), item)) fields items).map
      (fun entry => entry.1.text) = (fields.take items.length).map RecordField.name := by
  induction fields generalizing items with
  | nil => simp
  | cons field fields ih =>
      cases items with
      | nil => simp
      | cons item items => simp [ih]

theorem Record.mem_of_find?_zipWith {fields : List RecordField} {items : List (Spanned Toml.Value)}
    {key : String}
    (h : Entries.find?
      (List.zipWith (fun field item => (⟨field.name, item.span⟩, item)) fields items) key =
      some value) :
    value ∈ items := by
  obtain ⟨k, _, hmem⟩ := Toml.Entries.find?_eq_some h
  rw [← List.map_uncurry_zip_eq_zipWith, List.mem_map] at hmem
  obtain ⟨⟨field, item⟩, hpair, ⟨⟩⟩ := hmem
  exact (List.of_mem_zip hpair).2

/-- The fields of a value have different names. -/
theorem Record.Lists.areDistinct (h : record.Lists value.value entries)
    (hnames : record.names.Nodup) (hvalue : IsTree value.value) : AreDistinct entries := by
  generalize value.value = content at h hvalue
  cases h with
  | table origin entries => exact Toml.isTree_table_iff.mp hvalue
  | array ofHeaders items _ =>
      constructor
      · rw [Record.names_zipWith]
        exact ((List.take_sublist _ _).map _).nodup hnames
      · intro entry hmem
        obtain ⟨field, item, hpair, rfl⟩ : ∃ field item, (field, item) ∈ record.fields.zip items ∧
            entry = ((⟨field.name, item.span⟩ : Key), item) := by
          rw [← List.map_uncurry_zip_eq_zipWith, List.mem_map] at hmem
          obtain ⟨⟨field, item⟩, hpair, rfl⟩ := hmem
          exact ⟨field, item, hpair, rfl⟩
        exact Toml.isTree_array_iff.mp hvalue item (List.of_mem_zip hpair).2

variable {δ : Type} {put : δ → Key → Spanned Toml.Value → Shaped δ} {empty draft : δ}
  {IsDraft : Entries → δ → Prop}

/-- A record is collected from its fields if they determine it. -/
theorem Record.collect_iff (hnames : record.names.Nodup)
    (hfold : ∀ {entries listed : Entries}, AreDistinct entries → listed.Perm entries →
      (listed.foldlM (fun draft entry => put draft entry.1 entry.2) empty = .ok draft ↔
        IsDraft entries draft))
    (hvalue : IsTree value.value) :
    record.collect put empty value = .ok draft ↔
      ∃ entries, record.Lists value.value entries ∧ IsDraft entries draft := by
  have hdistinct :=
    fun entries (h : record.Lists value.value entries) => h.areDistinct hnames hvalue
  obtain ⟨span, content⟩ := value
  have hother : (∀ entries, record.entries ⟨span, content⟩ ≠ .ok entries) →
      (∀ entries, ¬ record.Lists content entries) →
      (record.collect put empty ⟨span, content⟩ = .ok draft ↔
        ∃ entries, record.Lists content entries ∧ IsDraft entries draft) := by
    intro hentries hlists
    rw [collect, except_bind_eq_ok_iff]
    exact iff_of_false (fun ⟨entries, h, _⟩ => hentries entries h) fun ⟨entries, h, _⟩ =>
      hlists entries h
  cases content with
  | table origin entries =>
      rw [collect_table, hfold (hdistinct entries (.table origin entries)) (sorted_perm entries)]
      constructor
      · exact fun h => ⟨entries, .table origin entries, h⟩
      · rintro ⟨_, ⟨⟩, h⟩
        exact h
  | array ofHeaders items =>
      rw [collect, except_bind_eq_ok_iff]
      constructor
      · rintro ⟨_, ⟨⟩, h⟩
        obtain ⟨_, hdraft, h⟩ := except_bind_eq_ok_iff.mp h
        obtain ⟨_, hchecked, ⟨⟩⟩ := except_bind_eq_ok_iff.mp h
        have hlists := Lists.array ofHeaders items (checkLength_eq_ok_iff.mp hchecked)
        exact ⟨_, hlists, (hfold (hdistinct _ hlists) (.refl _)).mp hdraft⟩
      · rintro ⟨_, hlists, hdraft⟩
        have hentries := hdistinct _ hlists
        obtain ⟨⟩ | ⟨_, _, hlacks⟩ := hlists
        refine ⟨_, rfl, except_bind_eq_ok_iff.mpr
          ⟨draft, (hfold hentries (.refl _)).mpr hdraft, ?_⟩⟩
        exact except_bind_eq_ok_iff.mpr ⟨(), checkLength_eq_ok_iff.mpr hlacks, rfl⟩
  | text _ | integer _ | double _ | voidNumber | bool _ | datetime =>
      exact hother (by rintro _ ⟨⟩) (by rintro _ ⟨⟩)

end Records

section Outlines

/-- The fields about the target. -/
structure IsGenerator (entries : Entries) (generator : Generator) : Prop where
  known : ∀ entry ∈ entries, entry.1.text ∈ ["package", "node", "name", "templates"]
  package : HasText entries "package" generator.package
  node : HasText entries "node" generator.node
  name : HasText entries "name" generator.name
  templates : HasText? entries "templates" generator.templates

/-- The fields about a parameter.  Its values may be anything. -/
structure IsParameter (entries : Entries) (outline : ParameterOutline) : Prop where
  known : ∀ entry ∈ entries,
    entry.1.text ∈ ["name", "type", "level", "description", "default", "min", "max", "edit_method"]
  name : entries.find? "name" = some ⟨outline.name.span, .text outline.name.value⟩
  type : entries.find? "type" = some ⟨outline.type.span, .text outline.type.value⟩
  level : HasLevel entries outline.level
  description : ∃ description, HasText? entries "description" description ∧
    outline.description = description.getD ""
  default : entries.find? "default" = outline.default
  min : entries.find? "min" = outline.min
  max : entries.find? "max" = outline.max
  editMethod : ∃ method, HasText? entries "edit_method" method ∧ outline.editMethod = method.getD ""

/-- The records about the parameters in their order, or none. -/
def HasParameters (document : Entries) (outlines : List ParameterOutline) : Prop :=
  (∃ span ofHeaders items, document.find? "param" = some ⟨span, .array ofHeaders items⟩ ∧
    List.Forall₂ (fun item outline => ∃ entries, ParameterOutline.record.Lists item.value entries ∧
      IsParameter entries outline) items outlines) ∨
  document.find? "param" = none ∧ outlines = []

/-- A document of the right shape, and what it says. -/
structure IsOutline (document : Entries) (outline : Outline) : Prop where
  known : ∀ entry ∈ document, entry.1.text ∈ ["generator", "param"]
  generator : ∃ value entries, document.find? "generator" = some value ∧
    Generator.record.Lists value.value entries ∧ IsGenerator entries outline.generator
  parameters : HasParameters document outline.parameters

variable {value : Spanned Toml.Value} {entries document : Entries}

theorem isGenerator_iff {generator : Generator} :
    IsGenerator entries generator ↔ Generator.IsDraft entries
      ⟨some generator.package, some generator.node, some generator.name, generator.templates⟩ :=
  ⟨fun h => ⟨h.known, mapM_asText_iff.mpr h.package, mapM_asText_iff.mpr h.node,
      mapM_asText_iff.mpr h.name, mapM_asPath_iff.mpr h.templates⟩,
    fun h => ⟨h.known, mapM_asText_iff.mp h.package, mapM_asText_iff.mp h.node,
      mapM_asText_iff.mp h.name, mapM_asPath_iff.mp h.templates⟩⟩

/-- The record about the target is read from its fields. -/
theorem generator_iff (h : IsTree value.value) (generator : Generator) :
    Generator.ofValue value = .ok generator ↔
      ∃ entries, Generator.record.Lists value.value entries ∧ IsGenerator entries generator := by
  have hnames : Generator.record.names.Nodup := by decide
  have hcollect :=
    fun draft : Generator.Draft => Record.collect_iff hnames (@Generator.foldlM_iff draft) h
  simp only [Generator.ofValue, except_bind_eq_ok_iff, hcollect, require_eq_ok_iff, isGenerator_iff]
  constructor
  · rintro ⟨draft, ⟨entries, hlists, hdraft⟩, package, hpackage, node, hnode, name, hname, ⟨⟩⟩
    refine ⟨entries, hlists, ?_⟩
    rwa [← hpackage, ← hnode, ← hname]
  · rintro ⟨entries, hlists, hdraft⟩
    exact ⟨_, ⟨entries, hlists, hdraft⟩, _, rfl, _, rfl, _, rfl, rfl⟩

theorem isParameter_iff {outline : ParameterOutline} :
    IsParameter entries outline ↔ ∃ level description method,
      ParameterOutline.IsDraft entries
        ⟨some outline.name, some outline.type, level, description, outline.default,
        outline.min, outline.max, method⟩ ∧
      outline.level = level.getD 0 ∧ outline.description = description.getD "" ∧
      outline.editMethod = method.getD "" := by
  constructor
  · rintro ⟨hknown, hname, htype, hlevel, ⟨description, hdescription, hdescribed⟩, hdefault, hmin,
      hmax, method, hmethod, hedited⟩
    obtain ⟨level, hlevel, hleveled⟩ := mapM_asLevel_iff.mpr hlevel
    exact ⟨level, description, method, ⟨hknown, mapM_asPlacedText_some_iff.mpr hname,
      mapM_asPlacedText_some_iff.mpr htype, hlevel, mapM_asText_iff.mpr hdescription, hdefault,
      hmin, hmax,
      mapM_asText_iff.mpr hmethod⟩, hleveled, hdescribed, hedited⟩
  · rintro ⟨level, description, method,
      ⟨hknown, hname, htype, hlevel, hdescription, hdefault, hmin, hmax, hmethod⟩, hleveled,
      hdescribed, hedited⟩
    exact ⟨hknown, mapM_asPlacedText_some_iff.mp hname, mapM_asPlacedText_some_iff.mp htype,
      mapM_asLevel_iff.mp ⟨level, hlevel, hleveled⟩,
      ⟨description, mapM_asText_iff.mp hdescription, hdescribed⟩,
      hdefault, hmin, hmax, method, mapM_asText_iff.mp hmethod, hedited⟩

/-- The record about a parameter is read from its fields. -/
theorem parameter_iff (h : IsTree value.value) (outline : ParameterOutline) :
    ParameterOutline.ofValue value = .ok outline ↔
      ∃ entries, ParameterOutline.record.Lists value.value entries ∧
        IsParameter entries outline := by
  have hnames : ParameterOutline.record.names.Nodup := by decide
  have hcollect := fun draft : ParameterOutline.Draft =>
    Record.collect_iff hnames (@ParameterOutline.foldlM_iff draft) h
  simp only [ParameterOutline.ofValue, except_bind_eq_ok_iff, hcollect, require_eq_ok_iff,
    isParameter_iff]
  constructor
  · rintro ⟨draft, ⟨entries, hlists, hdraft⟩, name, hname, type, htype, ⟨⟩⟩
    refine ⟨entries, hlists, draft.level, draft.description, draft.editMethod, ?_, rfl, rfl, rfl⟩
    rwa [← hname, ← htype]
  · rintro ⟨entries, hlists, level, description, method, hdraft, hlevel, hdescription, hmethod⟩
    refine ⟨_, ⟨entries, hlists, hdraft⟩, _, rfl, _, rfl, ?_⟩
    rw [← hlevel, ← hdescription, ← hmethod]
    rfl

theorem hasParameters_iff (h : AreDistinct document) (outlines : List ParameterOutline) :
    HasParameters document outlines ↔
      ∃ parameters, (document.find? "param").mapM Outline.readParameters = .ok parameters ∧
        outlines = parameters.getD [] := by
  have hitems : ∀ {span ofHeaders items},
      document.find? "param" = some ⟨span, .array ofHeaders items⟩ →
      (List.Forall₂ (fun item outline =>
        ∃ entries, ParameterOutline.record.Lists item.value entries ∧
          IsParameter entries outline) items outlines ↔
            items.mapM ParameterOutline.ofValue = .ok outlines) := by
    intro span ofHeaders items hfind
    have htrees := Toml.isTree_array_iff.mp (h.isTree_of_find? hfind)
    rw [except_mapM_eq_ok_iff]
    exact forall₂_congr_of_mem fun item hitem outline =>
      (parameter_iff (htrees item hitem) outline).symm
  constructor
  · rintro (⟨span, ofHeaders, items, hfind, houtlines⟩ | ⟨hfind, rfl⟩)
    · refine ⟨some outlines, except_option_mapM_eq_ok_some_iff.mpr ⟨_, hfind, ?_⟩, rfl⟩
      exact except_bind_eq_ok_iff.mpr ⟨items, rfl, (hitems hfind).mp houtlines⟩
    · exact ⟨none, except_option_mapM_eq_ok_none_iff.mpr hfind, rfl⟩
  · rintro ⟨parameters, hparameters, rfl⟩
    cases parameters with
    | none =>
        exact Or.inr ⟨except_option_mapM_eq_ok_none_iff.mp hparameters, rfl⟩
    | some outlines =>
        obtain ⟨⟨span, value⟩, hfind, hread⟩ := except_option_mapM_eq_ok_some_iff.mp hparameters
        obtain ⟨items, hlist, houtlines⟩ := except_bind_eq_ok_iff.mp hread
        obtain ⟨ofHeaders, rfl⟩ : ∃ ofHeaders, value = .array ofHeaders items :=
          asList_eq_ok_iff.mp hlist
        exact Or.inl ⟨span, ofHeaders, items, hfind, (hitems hfind).mpr houtlines⟩

/-- A document is read as what it says exactly if it is of the right shape. -/
theorem isOutline_iff (h : AreDistinct document) (outline : Outline) :
    IsOutline document outline ↔ Outline.ofDocument document = .ok outline := by
  rw [Outline.ofDocument_eq_ok_iff h]
  constructor
  · rintro ⟨hknown, ⟨value, entries, hfind, hlists, hgenerator⟩, hparameters⟩
    obtain ⟨parameters, hparameters, houtlines⟩ := (hasParameters_iff h _).mp hparameters
    have hread := (generator_iff (h.isTree_of_find? hfind) _).mpr ⟨entries, hlists, hgenerator⟩
    exact ⟨parameters,
      ⟨hknown, except_option_mapM_eq_ok_some_iff.mpr ⟨value, hfind, hread⟩, hparameters⟩, houtlines⟩
  · rintro ⟨parameters, ⟨hknown, hgenerator, hparameters⟩, houtlines⟩
    obtain ⟨value, hfind, hread⟩ := except_option_mapM_eq_ok_some_iff.mp hgenerator
    obtain ⟨entries, hlists, hgenerator⟩ := (generator_iff (h.isTree_of_find? hfind) _).mp hread
    exact ⟨hknown, ⟨value, entries, hfind, hlists, hgenerator⟩,
      (hasParameters_iff h _).mpr ⟨parameters, hparameters, houtlines⟩⟩

end Outlines

end Manifest
end Tunables
