import Tunables.Proofs.Manifest.Outline

/-!
# The first fault of a manifest

Of the faults of a text, the first one of the first phase is reported: first the shape of the
document, then the name of the configuration, then the entries in the order of the document, and in
each entry the name, the type and the values.  The parameters of a manifest that was read are
accepted in the order of its entries, or the first one that is refused is reported.

* `ParameterOutline.faults`: what is wrong with an entry, in the order in which it is looked at.
* `Outline.Blames`: the fault of a document of the right shape.
* `read_blames`: what is reported of a text.
-/

namespace Tunables
namespace Manifest

open Toml (Spanned)

section Faults

/-- A fault of the first two phases: there is no document, or it has the wrong shape. -/
def Fault.IsParse : Fault → Prop
  | .grammar => True
  | .shape _ => True
  | _ => False

/-- What is wrong with the name of a parameter. -/
def nameFaults (name : Spanned String) : List Fault :=
  (if isCppKeyword name.value then [.keyword name] else []) ++
    ((IdentifierFault.of? name.value.toList).map (Fault.parameterName name)).toList

/-- What is wrong with the type of a parameter. -/
def kindFaults (parameter : String) (tag : Spanned String) : List Fault :=
  if tag.value ∈ Kind.all.map Kind.tag then [] else [.kind parameter tag]

/-- What a message calls a value that is no default and no bound. -/
def unsupported? : Toml.Value → Option String
  | .array .. => some "array"
  | .table _ entries =>
      some (if (Toml.Entries.dateText? entries).isSome then "datetime" else "table")
  | .datetime => some "datetime"
  | .voidNumber => some "number"
  | _ => none

/-- What is wrong with a value of a parameter. -/
def valueFaults (parameter : String) (field : Field) (value : Option (Spanned Toml.Value)) :
    List Fault :=
  (value.bind fun value => (unsupported? value.value).map fun found =>
    Fault.value parameter field found value.span).toList

/-- What is wrong with an entry, in the order in which it is looked at. -/
def ParameterOutline.faults (outline : ParameterOutline) : List Fault :=
  nameFaults outline.name ++ kindFaults outline.name.value outline.type ++
    valueFaults outline.name.value .default outline.default ++
    valueFaults outline.name.value .min outline.min ++
    valueFaults outline.name.value .max outline.max

/-- The fault that is reported of a document of the right shape: that of the name of the
configuration, or else the first one of the first entry that has any. -/
inductive Outline.Blames (outline : Outline) : Fault → Prop
  | generator (rule : IdentifierFault) :
      IdentifierFault.of? outline.generator.name.toList = some rule →
      Blames outline (.generatorName outline.generator.name rule)
  | entry (before : List ParameterOutline) (bad : ParameterOutline) (after : List ParameterOutline)
      {fault : Fault} :
      IsIdentifier outline.generator.name.toList →
      outline.parameters = before ++ bad :: after →
      (∀ earlier ∈ before, earlier.faults = []) →
      bad.faults.head? = some fault →
      Blames outline fault

/-- A text holds a document of the right shape, whose values can be read. -/
def HasOutline (text : List Char) (outline : Outline) : Prop :=
  ∃ document, Toml.read text = some document ∧ IsOutline document outline ∧
    ∀ parameter ∈ outline.parameters, parameter.isReadable = true

/-- A declaration is the first one of a manifest that is refused. -/
def Refuses (manifest : Manifest) (fault : DeclarationFault) : Prop :=
  ∃ before bad after, manifest.entries = before ++ bad :: after ∧
    (∀ earlier ∈ before, ∃ parameter,
      Parameter.accept earlier.declaration ⟨manifest.file, earlier.line⟩ = .ok parameter) ∧
    Parameter.accept bad.declaration ⟨manifest.file, bad.line⟩ = .error fault

end Faults

section Entries

theorem reports_checkName (name : Spanned String) : Reports (checkName name) (nameFaults name) := by
  unfold checkName nameFaults
  split
  · intro fault
    simp
  · next hkeyword =>
    cases IdentifierFault.of? name.value.toList with
    | none => exact reports_ok _
    | some rule => exact reports_error _

theorem reports_checkKind (parameter : String) (tag : Spanned String) :
    Reports (checkKind parameter tag) (kindFaults parameter tag) := by
  unfold kindFaults
  split
  · next hknown =>
    obtain ⟨kind, _, hkind⟩ := List.mem_map.mp hknown
    rw [checkKind_eq_ok_iff.mpr hkind.symm]
    exact reports_ok kind
  · next hunknown =>
    cases hcheck : checkKind parameter tag with
    | ok kind =>
        refine absurd (List.mem_map.mpr ⟨kind, ?_, (checkKind_eq_ok_iff.mp hcheck).symm⟩) hunknown
        cases kind <;> decide
    | error fault =>
        obtain rfl : Fault.kind parameter tag = fault := by
          unfold checkKind at hcheck
          split at hcheck
          · cases hcheck
          · exact Except.error.inj hcheck
        exact reports_error _

theorem reports_checkValue (parameter : String) (field : Field)
    (value : Option (Spanned Toml.Value)) :
    Reports (value.mapM (checkValue parameter field)) (valueFaults parameter field value) := by
  cases value with
  | none =>
      exact reports_ok none
  | some value =>
      obtain ⟨span, content⟩ := value
      cases content with
      | text _ | integer _ | double _ | bool _ => exact reports_ok _
      | voidNumber | datetime | array _ _ | table _ _ => exact reports_error _

/-- The value of a field. -/
def ParameterOutline.value? (outline : ParameterOutline) : Field → Option (Spanned Toml.Value)
  | .default => outline.default
  | .min => outline.min
  | .max => outline.max

/-- What may be wrong with an entry. -/
theorem ParameterOutline.mem_faults {outline : ParameterOutline} {fault : Fault}
    (h : fault ∈ outline.faults) :
    fault = .keyword outline.name ∨ (∃ rule, fault = .parameterName outline.name rule) ∨
      fault = .kind outline.name.value outline.type ∨
      ∃ field value found, outline.value? field = some value ∧
        unsupported? value.value = some found ∧
        fault = .value outline.name.value field found value.span := by
  have hvalue : ∀ field, fault ∈ valueFaults outline.name.value field (outline.value? field) →
      ∃ field value found, outline.value? field = some value ∧
        unsupported? value.value = some found ∧
        fault = .value outline.name.value field found value.span := by
    intro field hmem
    obtain ⟨value, hfield, hblamed⟩ := Option.bind_eq_some_iff.mp (Option.mem_toList.mp hmem)
    obtain ⟨found, hfound, rfl⟩ := Option.map_eq_some_iff.mp hblamed
    exact ⟨field, value, found, hfield, hfound, rfl⟩
  simp only [faults, nameFaults, kindFaults, List.mem_append, Option.mem_toList,
    Option.map_eq_some_iff, List.mem_ite_nil_right, List.mem_ite_nil_left, List.mem_singleton] at h
  rcases h with ((((⟨_, rfl⟩ | ⟨rule, _, rfl⟩) | ⟨_, rfl⟩) | hdefault) | hmin) | hmax
  · exact .inl rfl
  · exact .inr (.inl ⟨rule, rfl⟩)
  · exact .inr (.inr (.inl rfl))
  · exact .inr (.inr (.inr (hvalue .default hdefault)))
  · exact .inr (.inr (.inr (hvalue .min hmin)))
  · exact .inr (.inr (.inr (hvalue .max hmax)))

/-- An entry is refused for the first thing that is wrong with it. -/
theorem reports_ofOutline (text : List Char) (outline : ParameterOutline) :
    Reports (Entry.ofOutline text outline) outline.faults := by
  unfold Entry.ofOutline ParameterOutline.faults
  simp only [List.append_assoc]
  refine (reports_checkName outline.name).bind fun name hname => ?_
  obtain ⟨rfl, _⟩ := checkName_eq_ok_iff.mp hname
  refine (reports_checkKind _ outline.type).bind fun kind _ => ?_
  refine (reports_checkValue _ .default outline.default).bind fun default _ => ?_
  refine (reports_checkValue _ .min outline.min).bind fun min _ => ?_
  rw [← List.append_nil (valueFaults _ .max outline.max)]
  exact (reports_checkValue _ .max outline.max).bind fun max _ => reports_ok _

end Entries

section Phases

variable {text : List Char} {file : String} {outline : Outline} {fault : Fault}

theorem ofOutline_of_some {rule : IdentifierFault}
    (h : IdentifierFault.of? outline.generator.name.toList = some rule) :
    ofOutline text file outline = .error (.generatorName outline.generator.name rule) := by
  simp only [ofOutline, h]

theorem ofOutline_of_none (h : IdentifierFault.of? outline.generator.name.toList = none) :
    ofOutline text file outline =
      outline.parameters.mapM (Entry.ofOutline text) >>= fun entries => pure {
      target := ⟨outline.generator.package, outline.generator.node, outline.generator.name⟩
      templates := outline.generator.templates
      entries := entries
      file := file } := by
  simp only [ofOutline, h]

theorem ofOutline_eq_error_iff : ofOutline text file outline = .error fault ↔
    outline.Blames fault := by
  cases hrule : IdentifierFault.of? outline.generator.name.toList with
  | some rule =>
      rw [ofOutline_of_some hrule]
      constructor
      · rintro ⟨⟩
        exact .generator rule hrule
      · rintro (⟨other, hother⟩ | ⟨_, _, _, hidentifier, _⟩)
        · rw [Option.some.inj (hrule.symm.trans hother)]
        · rw [(IdentifierFault.of?_eq_none_iff _).mpr hidentifier] at hrule
          cases hrule
  | none =>
      rw [ofOutline_of_none hrule, except_bind_eq_error_iff, or_iff_left (by rintro ⟨_, _, ⟨⟩⟩),
        except_mapM_eq_error_iff]
      simp only [(reports_ofOutline text _).exists_ok_iff, reports_ofOutline text _ fault]
      constructor
      · rintro ⟨before, bad, after, hparameters, hbefore, hbad⟩
        exact .entry before bad after ((IdentifierFault.of?_eq_none_iff _).mp hrule) hparameters
          hbefore hbad
      · rintro (⟨rule, hsome⟩ | ⟨before, bad, after, _, hparameters, hbefore, hbad⟩)
        · cases hrule.symm.trans hsome
        · exact ⟨before, bad, after, hparameters, hbefore, hbad⟩

theorem exists_ofOutline_eq_ok_iff : (∃ manifest, ofOutline text file outline = .ok manifest) ↔
    IsIdentifier outline.generator.name.toList ∧
      ∀ parameter ∈ outline.parameters, parameter.faults = [] := by
  simp only [← IdentifierFault.of?_eq_none_iff, ← (reports_ofOutline text _).exists_ok_iff,
    ← except_exists_mapM_iff]
  cases hrule : IdentifierFault.of? outline.generator.name.toList with
  | some rule =>
      rw [ofOutline_of_some hrule]
      exact iff_of_false (by rintro ⟨_, ⟨⟩⟩) (by rintro ⟨⟨⟩, _⟩)
  | none =>
      simp only [ofOutline_of_none hrule, except_bind_eq_ok_iff, true_and]
      constructor
      · rintro ⟨_, entries, hentries, _⟩
        exact ⟨entries, hentries⟩
      · rintro ⟨entries, hentries⟩
        exact ⟨_, entries, hentries, rfl⟩

/-- A document of the right shape is read as its outline says. -/
theorem read_of_hasOutline (h : HasOutline text outline) :
    read text file = ofOutline text file outline := by
  obtain ⟨document, hread, houtline, hreadable⟩ := h
  have hdocument := (isOutline_iff (Toml.areDistinct_of_read hread) outline).mp houtline
  have hall : outline.parameters.all ParameterOutline.isReadable = true :=
    List.all_eq_true.mpr hreadable
  simp only [read, hread, ofDocument, hdocument, hall, if_true]

theorem Outline.Blames.not_isParse (h : outline.Blames fault) : ¬ fault.IsParse := by
  cases h with
  | generator rule _ => exact id
  | entry _ bad _ _ _ _ hbad =>
      rcases ParameterOutline.mem_faults (List.mem_of_head? hbad) with rfl | ⟨_, rfl⟩ | rfl |
        ⟨_, _, _, _, _, rfl⟩ <;> exact id

/-- Without a document of the right shape nothing else is looked at. -/
theorem exists_isParse_iff :
    (∃ fault, read text file = .error fault ∧ fault.IsParse) ↔
      ¬ ∃ outline, HasOutline text outline := by
  constructor
  · rintro ⟨fault, hread, hparse⟩ ⟨outline, houtline⟩
    rw [read_of_hasOutline houtline] at hread
    exact (ofOutline_eq_error_iff.mp hread).not_isParse hparse
  · intro hnone
    cases hread : Toml.read text with
    | none => exact ⟨.grammar, by simp only [read, hread], trivial⟩
    | some document =>
        cases hdocument : Outline.ofDocument document with
        | error fault =>
            simp only [read, hread, ofDocument, hdocument]
            split
            · exact ⟨_, rfl, trivial⟩
            · exact ⟨_, rfl, trivial⟩
        | ok outline =>
            have houtline := (isOutline_iff (Toml.areDistinct_of_read hread) outline).mpr hdocument
            simp only [read, hread, ofDocument, hdocument]
            split
            · next hreadable =>
              exact absurd ⟨outline, document, hread, houtline, List.all_eq_true.mp hreadable⟩ hnone
            · exact ⟨_, rfl, trivial⟩

/-- What is reported of a text, and of the parameters of its manifest. -/
theorem read_blames (text : List Char) (file : String) :
    ((∃ fault, read text file = .error fault ∧ fault.IsParse) ↔
      ¬ ∃ outline, HasOutline text outline) ∧
      (∀ outline, HasOutline text outline →
        (∀ fault, read text file = .error fault ↔ outline.Blames fault) ∧
        ((∃ manifest, read text file = .ok manifest) ↔
          IsIdentifier outline.generator.name.toList ∧
            ∀ parameter ∈ outline.parameters, parameter.faults = [])) ∧
      ∀ manifest, read text file = .ok manifest →
        manifest.file = file ∧
        ((∃ parameters, manifest.parameters = .ok parameters) ↔ ∀ entry ∈ manifest.entries,
          ∃ parameter, Parameter.accept entry.declaration ⟨file, entry.line⟩ = .ok parameter) ∧
        (∀ fault, manifest.parameters = .error fault ↔ manifest.Refuses fault) ∧
        ∀ parameters, manifest.parameters = .ok parameters ↔
          List.Forall₂ (fun entry parameter =>
            Parameter.accept entry.declaration ⟨file, entry.line⟩ = .ok parameter)
            manifest.entries parameters := by
  refine ⟨exists_isParse_iff, fun outline houtline => ?_, fun manifest hread => ?_⟩
  · rw [read_of_hasOutline houtline]
    exact ⟨fun fault => ofOutline_eq_error_iff, exists_ofOutline_eq_ok_iff⟩
  · have hfile : manifest.file = file := by
      unfold read at hread
      split at hread
      · cases hread
      · obtain ⟨outline, _, houtline⟩ := ofDocument_eq_ok_iff.mp hread
        exact (ofOutline_eq_ok_iff.mp houtline).2.2.2
    rw [← hfile]
    exact ⟨rfl, except_exists_mapM_iff, fun fault => except_mapM_eq_error_iff,
      fun parameters => except_mapM_eq_ok_iff⟩

/-- The second of three entries is reported, and of its two faults the one of its type. -/
theorem read_blames_second :
    read
      ("[generator]\npackage = \"robot\"\nnode = \"drive\"\nname = \"Gain\"\n".toList ++
        "[[param]]\nname = \"rate\"\ntype = \"double\"\n[[param]]\nname = \"mode\"\n".toList ++
        "type = \"float\"\ndefault = []\n[[param]]\nname = \"int\"\ntype = \"int\"\n".toList)
      "a.toml" = .error (.kind "mode" ⟨⟨130, 137⟩, "float"⟩) := by
  have hread : Toml.read
      ("[generator]\npackage = \"robot\"\nnode = \"drive\"\nname = \"Gain\"\n".toList ++
        "[[param]]\nname = \"rate\"\ntype = \"double\"\n[[param]]\nname = \"mode\"\n".toList ++
        "type = \"float\"\ndefault = []\n[[param]]\nname = \"int\"\ntype = \"int\"\n".toList) =
      some [
      (⟨"generator", ⟨1, 10⟩⟩, ⟨⟨0, 11⟩, .table .header [
        (⟨"package", ⟨12, 19⟩⟩, ⟨⟨22, 29⟩, .text "robot"⟩),
        (⟨"node", ⟨30, 34⟩⟩, ⟨⟨37, 44⟩, .text "drive"⟩),
        (⟨"name", ⟨45, 49⟩⟩, ⟨⟨52, 58⟩, .text "Gain"⟩)]⟩),
      (⟨"param", ⟨61, 66⟩⟩, ⟨⟨59, 68⟩, .array true [
        ⟨⟨59, 68⟩, .table .header [
          (⟨"name", ⟨69, 73⟩⟩, ⟨⟨76, 82⟩, .text "rate"⟩),
          (⟨"type", ⟨83, 87⟩⟩, ⟨⟨90, 98⟩, .text "double"⟩)]⟩,
        ⟨⟨99, 108⟩, .table .header [
          (⟨"name", ⟨109, 113⟩⟩, ⟨⟨116, 122⟩, .text "mode"⟩),
          (⟨"type", ⟨123, 127⟩⟩, ⟨⟨130, 137⟩, .text "float"⟩),
          (⟨"default", ⟨138, 145⟩⟩, ⟨⟨148, 150⟩, .array false []⟩)]⟩,
        ⟨⟨151, 160⟩, .table .header [
          (⟨"name", ⟨161, 165⟩⟩, ⟨⟨168, 173⟩, .text "int"⟩),
          (⟨"type", ⟨174, 178⟩⟩, ⟨⟨181, 186⟩, .text "int"⟩)]⟩]⟩)] := by
    cbv
  refine (((read_blames _ "a.toml").2.1 ⟨⟨"robot", "drive", "Gain", none⟩, [
    ⟨⟨⟨76, 82⟩, "rate"⟩, ⟨⟨90, 98⟩, "double"⟩, 0, "", none, none, none, ""⟩,
    ⟨⟨⟨116, 122⟩, "mode"⟩, ⟨⟨130, 137⟩, "float"⟩, 0, "", some ⟨⟨148, 150⟩, .array false []⟩, none,
      none, ""⟩,
    ⟨⟨⟨168, 173⟩, "int"⟩, ⟨⟨181, 186⟩, "int"⟩, 0, "", none, none, none, ""⟩]⟩
      ⟨_, hread, ⟨by decide, ?_, ?_⟩, ?_⟩).1 _).mpr ?_
  · exact ⟨_, _, rfl, .table _ _, ⟨by decide, ⟨_, rfl⟩, ⟨_, rfl⟩, ⟨_, rfl⟩, rfl⟩⟩
  · refine Or.inl ⟨_, _, _, rfl,
      .cons ⟨_, .table _ _, ?_⟩ (.cons ⟨_, .table _ _, ?_⟩ (.cons ⟨_, .table _ _, ?_⟩ .nil))⟩ <;>
    exact ⟨by decide, rfl, rfl, Or.inr ⟨rfl, rfl⟩, ⟨none, rfl, rfl⟩, rfl, rfl, rfl, none, rfl, rfl⟩
  · simp [ParameterOutline.isReadable, Toml.Value.isReadable, Toml.itemsReadable]
  · refine .entry [_] _ [_] ((IdentifierFault.of?_eq_none_iff _).mp (by decide)) rfl ?_ rfl
    intro earlier hmem
    rw [List.mem_singleton.mp hmem]
    rfl

end Phases

end Manifest
end Tunables
