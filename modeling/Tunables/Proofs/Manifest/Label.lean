import Tunables.Proofs.Manifest.Phases

/-!
# What a fault points at

A fault of a document of the right shape is about one of its values: the name of the configuration,
or the name, the type or one of the values of a parameter.  Every such fault but the first marks the
bytes that this value was read from.

* `Fault.Concerns`: the value of a document that a fault is about.
* `label_of_readBy`, `label_of_read`: what is marked when a text is refused.
-/

namespace Tunables
namespace Manifest

open Toml (Spanned Entries)

section Culprits

/-- The fields about the target of a document. -/
def TargetFields (document fields : Entries) : Prop :=
  ∃ value, document.find? "generator" = some value ∧ Generator.record.Lists value.value fields

/-- The fields about one of the parameters of a document. -/
def ParameterFields (document fields : Entries) : Prop :=
  ∃ span ofHeaders items, document.find? "param" = some ⟨span, .array ofHeaders items⟩ ∧
    ∃ item ∈ items, ParameterOutline.record.Lists item.value fields

/-- The value of a document that a fault is about, and the name of its field. -/
inductive Fault.Concerns (document : Entries) : Fault → String → Spanned Toml.Value → Prop
  | generatorName {fields : Entries} {span : Toml.Span} {name : String} {rule : IdentifierFault} :
      TargetFields document fields →
      fields.find? "name" = some ⟨span, .text name⟩ →
      Concerns document (.generatorName name rule) "name" ⟨span, .text name⟩
  | parameterName {fields : Entries} {name : Spanned String} {rule : IdentifierFault} :
      ParameterFields document fields →
      fields.find? "name" = some ⟨name.span, .text name.value⟩ →
      Concerns document (.parameterName name rule) "name" ⟨name.span, .text name.value⟩
  | keyword {fields : Entries} {name : Spanned String} :
      ParameterFields document fields →
      fields.find? "name" = some ⟨name.span, .text name.value⟩ →
      Concerns document (.keyword name) "name" ⟨name.span, .text name.value⟩
  | kind {fields : Entries} {parameter : String} {tag : Spanned String} :
      ParameterFields document fields →
      HasText fields "name" parameter →
      fields.find? "type" = some ⟨tag.span, .text tag.value⟩ →
      Concerns document (.kind parameter tag) "type" ⟨tag.span, .text tag.value⟩
  | value {fields : Entries} {parameter : String} {field : Field} {value : Spanned Toml.Value}
      {found : String} :
      ParameterFields document fields →
      HasText fields "name" parameter →
      fields.find? field.word = some value →
      unsupported? value.value = some found →
      Concerns document (.value parameter field found value.span) field.word value

variable {text : List Char} {document fields : Entries} {outline : Outline}
  {parameter : ParameterOutline} {fault : Fault}

theorem IsParameter.find?_word (h : IsParameter fields parameter) (field : Field) :
    fields.find? field.word = parameter.value? field := by
  cases field with
  | default => exact h.default
  | min => exact h.min
  | max => exact h.max

theorem HasParameters.exists_fields {parameters : List ParameterOutline}
    (h : HasParameters document parameters) (hmem : parameter ∈ parameters) :
    ∃ fields, ParameterFields document fields ∧ IsParameter fields parameter := by
  rcases h with ⟨span, ofHeaders, items, hfind, hitems⟩ | ⟨_, rfl⟩
  · obtain ⟨i, hi, rfl⟩ := List.getElem_of_mem hmem
    have hlength : i < items.length := by rw [hitems.length_eq]; exact hi
    obtain ⟨fields, hlists, hparameter⟩ := hitems.get hlength hi
    exact ⟨fields, ⟨span, ofHeaders, items, hfind, items[i], List.getElem_mem hlength, hlists⟩,
      hparameter⟩
  · cases hmem

/-- A fault that is reported of a document is about one of its values. -/
theorem Outline.Blames.exists_concerns (houtline : IsOutline document outline)
    (h : outline.Blames fault) :
    ∃ key culprit, fault.Concerns document key culprit := by
  cases h with
  | generator rule _ =>
      obtain ⟨value, fields, hfind, hlists, hgenerator⟩ := houtline.generator
      obtain ⟨span, hname⟩ := hgenerator.name
      exact ⟨_, _, .generatorName ⟨value, hfind, hlists⟩ hname⟩
  | entry before bad after _ hparameters _ hbad =>
      have hmem : bad ∈ outline.parameters := by simp [hparameters]
      obtain ⟨fields, hfields, hparameter⟩ := houtline.parameters.exists_fields hmem
      have hname : HasText fields "name" bad.name.value := ⟨bad.name.span, hparameter.name⟩
      rcases ParameterOutline.mem_faults (List.mem_of_head? hbad) with
        rfl | ⟨rule, rfl⟩ | rfl | ⟨field, value, found, hvalue, hfound, rfl⟩
      · exact ⟨_, _, .keyword hfields hparameter.name⟩
      · exact ⟨_, _, .parameterName hfields hparameter.name⟩
      · exact ⟨_, _, .kind hfields hname hparameter.type⟩
      · exact ⟨_, _, .value hfields hname ((hparameter.find?_word field).trans hvalue) hfound⟩

end Culprits

section Places

variable {text : List Char} {document fields : Entries} {fault : Fault} {key name : String}
  {value culprit : Spanned Toml.Value}

/-- The fields of a value that stands in a text stand there too.  The tables of an array of headers
stand under another key. -/
theorem Record.Lists.written {record : Record} (h : record.Lists value.value fields)
    (hvalue : Toml.IsPlaced text name value) (hfind : fields.find? key = some culprit)
    (hitems : ∀ items, value.value = .array true items → culprit.value.IsComplete) :
    Toml.Written text key culprit := by
  obtain ⟨span, content⟩ := value
  cases h with
  | table origin entries =>
      exact ((Toml.isPlaced_table_iff.mp hvalue).2.isPlaced_of_find? hfind).written
  | array ofHeaders items _ =>
      obtain ⟨hplaced, hculprit⟩ :=
        (Toml.isPlaced_array_iff.mp hvalue).2 culprit (Record.mem_of_find?_zipWith hfind)
      cases ofHeaders with
      | true => exact hplaced.written.of_isComplete (hitems items rfl) key
      | false => exact hplaced.written.of_isComplete hculprit key

theorem TargetFields.written (h : TargetFields document fields)
    (hdocument : Toml.ArePlaced text document) (hfind : fields.find? key = some culprit)
    (hcomplete : culprit.value.IsComplete) : Toml.Written text key culprit := by
  obtain ⟨value, hvalue, hlists⟩ := h
  exact hlists.written (hdocument.isPlaced_of_find? hvalue) hfind fun _ _ => hcomplete

theorem ParameterFields.written (h : ParameterFields document fields)
    (hdocument : Toml.ArePlaced text document) (hfind : fields.find? key = some culprit) :
    Toml.Written text key culprit := by
  obtain ⟨span, ofHeaders, items, hvalue, item, hmem, hlists⟩ := h
  obtain ⟨hitem, hkind⟩ :=
    (Toml.isPlaced_array_iff.mp (hdocument.isPlaced_of_find? hvalue)).2 item hmem
  refine hlists.written hitem hfind fun inner hinner => ?_
  -- an item is a table that a header opened or is written out, so it is no array of headers
  rw [hinner] at hkind
  cases ofHeaders with
  | true =>
      obtain ⟨_, ⟨⟩⟩ := hkind
  | false => cases hkind

/-- What a fault is about stands in the text. -/
theorem Fault.Concerns.written (h : fault.Concerns document key culprit)
    (hdocument : Toml.ArePlaced text document) :
    Toml.Written text key culprit := by
  cases h with
  | generatorName hfields hfind => exact hfields.written hdocument hfind trivial
  | parameterName hfields hfind | keyword hfields hfind => exact hfields.written hdocument hfind
  | kind hfields _ hfind => exact hfields.written hdocument hfind
  | value hfields _ hfind _ => exact hfields.written hdocument hfind

theorem Fault.Concerns.label_eq_none_iff (h : fault.Concerns document key culprit) :
    fault.label = none ↔ ∃ name rule, fault = .generatorName name rule := by
  cases h with
  | generatorName => exact iff_of_true rfl ⟨_, _, rfl⟩
  | parameterName | keyword | kind | value =>
      exact iff_of_false (by rintro ⟨⟩) (by rintro ⟨_, _, ⟨⟩⟩)

theorem Fault.Concerns.span_eq (h : fault.Concerns document key culprit) {label : Spanned String}
    (hlabel : fault.label = some label) : label.span = culprit.span := by
  cases h with
  | generatorName => cases hlabel
  | parameterName | keyword | kind | value =>
      cases hlabel
      rfl

/-- Apart from the faults of the first two phases, a fault of a document is one of its outline. -/
theorem exists_blames_of_ofDocument {file : String}
    (h : ofDocument text file document = .error fault) (hparse : ¬ fault.IsParse) :
    ∃ outline, Outline.ofDocument document = .ok outline ∧ outline.Blames fault := by
  unfold ofDocument at h
  split at h
  · cases h
    split at hparse <;> exact absurd trivial hparse
  · next outline houtline =>
    split at h
    · exact ⟨outline, houtline, ofOutline_eq_error_iff.mp h⟩
    · cases h
      exact absurd trivial hparse

/-- With a reader that can be relied on, every fault but one of the name of the configuration marks
the value that it is about, where it stands in the text. -/
theorem label_of_readBy {reader : List Char → Option Entries} (hreader : Toml.IsFaithful reader)
    {file : String} (h : readBy reader text file = .error fault) (hparse : ¬ fault.IsParse) :
    ∃ document key culprit, reader text = some document ∧ fault.Concerns document key culprit ∧
      Toml.Written text key culprit ∧
      (fault.label = none ↔ ∃ name rule, fault = .generatorName name rule) ∧
      ∀ label, fault.label = some label → label.span = culprit.span := by
  unfold readBy at h
  split at h
  · cases h
    exact absurd trivial hparse
  · next document hread =>
    obtain ⟨outline, houtline, hblames⟩ := exists_blames_of_ofDocument h hparse
    have hshape := (isOutline_iff (hreader.distinct hread) outline).mpr houtline
    obtain ⟨key, culprit, hculprit⟩ := hblames.exists_concerns hshape
    have hwritten := hculprit.written (hreader.placed hread)
    exact ⟨document, key, culprit, hread, hculprit, hwritten, hculprit.label_eq_none_iff,
      fun _ => hculprit.span_eq⟩

/-- Every fault but one of the name of the configuration marks the value that it is about, where it
stands in the text. -/
theorem label_of_read {file : String} (h : read text file = .error fault)
    (hparse : ¬ fault.IsParse) :
    ∃ document key culprit, Toml.read text = some document ∧ fault.Concerns document key culprit ∧
      Toml.Written text key culprit ∧
      (fault.label = none ↔ ∃ name rule, fault = .generatorName name rule) ∧
      ∀ label, fault.label = some label → label.span = culprit.span := by
  rw [read_eq_readBy] at h
  exact label_of_readBy Toml.isFaithful_read h hparse

/-- A name with a blank is refused, and nothing is marked. -/
theorem label_of_read_blank :
    ∃ fault culprit,
      read "[generator]\npackage = \"p\"\nnode = \"n\"\nname = \"my config\"\n".toList
        "params.toml" = .error fault ∧
      fault.message = "invalid generator name 'my config'" ∧ fault.label = none ∧
      Toml.Written "[generator]\npackage = \"p\"\nnode = \"n\"\nname = \"my config\"\n".toList
        "name" culprit ∧
      culprit.value = .text "my config" := by
  have hread : read "[generator]\npackage = \"p\"\nnode = \"n\"\nname = \"my config\"\n".toList
      "params.toml" =
      .error (.generatorName "my config" .character) := by
    cbv
  obtain ⟨document, key, culprit, _, hculprit, hwritten, hlabel, _⟩ := label_of_read hread id
  have hnone := hlabel.mpr ⟨_, _, rfl⟩
  cases hculprit
  exact ⟨_, _, hread, by decide, hnone, hwritten, rfl⟩

end Places

end Manifest
end Tunables
