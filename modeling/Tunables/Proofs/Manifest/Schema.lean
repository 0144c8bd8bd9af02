import Mathlib
import Tunables.Manifest.Basic
import Tunables.Proofs.Manifest.Record
import Tunables.Proofs.Toml.Order

/-!
# The schema of manifests

Which documents are manifests, and what they say.  Records are written as tables here; that they may
also be written as arrays of their fields is left aside.

* `IsTarget`, `IsEntry`, `IsManifest`: what the tables of a document must hold, and what is taken
  from them.
* `readBy`: manifests by way of any reader of documents.
* `readBy_eq_ok_iff`, `read_eq_ok_iff`: a text is read as a manifest exactly if that
  holds of its document.
-/

namespace Tunables
namespace Manifest

open Toml (Spanned Entries AreDistinct)

section Schema

/-- The value under a key is the text. -/
def HasText (entries : Entries) (key text : String) : Prop :=
  ∃ span, entries.find? key = some ⟨span, .text text⟩

/-- The value under a key is the text, or there is neither. -/
def HasText? (entries : Entries) (key : String) : Option String → Prop
  | some text => HasText entries key text
  | none => entries.find? key = none

/-- A level is given, and then it has 32 bits, or else it is zero. -/
def HasLevel (entries : Entries) (level : Nat) : Prop :=
  (∃ span, entries.find? "level" = some ⟨span, .integer level⟩) ∧ level ≤ 4294967295 ∨
    entries.find? "level" = none ∧ level = 0

/-- A value of a document that a default or a bound may have, and the value that it gives. -/
inductive Gives : Toml.Value → Value → Prop
  | text (content : String) : Gives (.text content) (.text content)
  | integer (n : Int) : Gives (.integer n) (.int n)
  | double (x : Binary64) : Gives (.double x) (.double x)
  | bool (b : Bool) : Gives (.bool b) (.bool b)

/-- The value under a key gives the value, or there is neither. -/
def HasValue? (entries : Entries) (key : String) : Option Value → Prop
  | some value => ∃ found, entries.find? key = some found ∧ Gives found.value value
  | none => entries.find? key = none

/-- The table about the target. -/
structure IsTarget (entries : Entries) (target : Target) (templates : Option String) : Prop where
  known : ∀ entry ∈ entries, entry.1.text ∈ ["package", "node", "name", "templates"]
  package : HasText entries "package" target.package
  node : HasText entries "node" target.node
  name : HasText entries "name" target.name
  templates : HasText? entries "templates" templates
  identifier : IsIdentifier target.name.toList

/-- The table about a parameter. -/
structure IsEntry (text : List Char) (entries : Entries) (entry : Entry) : Prop where
  known : ∀ item ∈ entries,
    item.1.text ∈ ["name", "type", "level", "description", "default", "min", "max", "edit_method"]
  name : ∃ span, entries.find? "name" = some ⟨span, .text entry.declaration.name⟩ ∧
    entry.line = Text.lineAt text span.start
  identifier : IsIdentifier entry.declaration.name.toList
  keyword : isCppKeyword entry.declaration.name = false
  type : HasText entries "type" entry.declaration.kind.tag
  level : HasLevel entries entry.declaration.level
  description : ∃ description, HasText? entries "description" description ∧
    entry.declaration.description = description.getD ""
  default : HasValue? entries "default" entry.declaration.default
  min : HasValue? entries "min" entry.declaration.min
  max : HasValue? entries "max" entry.declaration.max
  editMethod : ∃ method, HasText? entries "edit_method" method ∧
    entry.declaration.editMethod = method.getD ""

/-- The tables about the parameters in their order, or none. -/
def HasEntries (text : List Char) (document : Entries) (entries : List Entry) : Prop :=
  (∃ span ofHeaders items, document.find? "param" = some ⟨span, .array ofHeaders items⟩ ∧
    List.Forall₂ (fun item entry =>
      ∃ origin table, item.value = .table origin table ∧ IsEntry text table entry) items entries) ∨
  document.find? "param" = none ∧ entries = []

/-- The document of a manifest. -/
structure IsManifest (text : List Char) (file : String) (document : Entries) (manifest : Manifest) :
    Prop where
  known : ∀ entry ∈ document, entry.1.text ∈ ["generator", "param"]
  target : ∃ span origin entries, document.find? "generator" = some ⟨span, .table origin entries⟩ ∧
    IsTarget entries manifest.target manifest.templates
  entries : HasEntries text document manifest.entries
  file : manifest.file = file

/-- A value that is written as a table. -/
def IsTable (value : Toml.Value) : Prop :=
  ∃ origin entries, value = .table origin entries

/-- The target and the parameters are written as tables. -/
structure HasTables (document : Entries) : Prop where
  generator : ∀ value, document.find? "generator" = some value → IsTable value.value
  parameters : ∀ span ofHeaders items,
    document.find? "param" = some ⟨span, .array ofHeaders items⟩ →
    ∀ item ∈ items, IsTable item.value

end Schema

section Fields

variable {value : Spanned Toml.Value}

theorem asText_eq_ok_iff {text : String} : asText value = .ok text ↔ value.value = .text text := by
  unfold asText
  split <;> simp_all [mismatch]

theorem asPath_eq_ok_iff {text : String} : asPath value = .ok text ↔ value.value = .text text := by
  unfold asPath
  split <;> simp_all [mismatch]

theorem asPlacedText_eq_ok_iff {text : Spanned String} :
    asPlacedText value = .ok text ↔ value = ⟨text.span, .text text.value⟩ := by
  rw [asPlacedText, except_bind_eq_ok_iff]
  constructor
  · rintro ⟨content, hcontent, ⟨⟩⟩
    rw [← asText_eq_ok_iff.mp hcontent]
  · rintro rfl
    exact ⟨text.value, rfl, rfl⟩

theorem asLevel_eq_ok_iff {level : Nat} :
    asLevel value = .ok level ↔ value.value = .integer level ∧ level ≤ 4294967295 := by
  unfold asLevel
  split
  · next n hn =>
    rw [hn]
    split
    · next hlevel =>
      obtain ⟨hpos, hle⟩ := hlevel
      simp only [maxLevel] at hle
      simp only [Except.ok.injEq, Toml.Value.integer.injEq]
      omega
    · next hlevel =>
      simp only [maxLevel] at hlevel
      simp only [reduceCtorEq, Toml.Value.integer.injEq, false_iff]
      omega
  · next hother =>
    simp only [mismatch, reduceCtorEq, false_iff]
    exact fun h => hother level h.1

theorem asList_eq_ok_iff {items : List (Spanned Toml.Value)} :
    asList value = .ok items ↔ ∃ ofHeaders, value.value = .array ofHeaders items := by
  unfold asList
  split <;> simp_all [mismatch]

variable {entries : Entries} {key : String}

theorem mapM_iff_hasText? {as : Spanned Toml.Value → Shaped String}
    (has : ∀ value text, as value = .ok text ↔ value.value = .text text) {found : Option String} :
    (entries.find? key).mapM as = .ok found ↔ HasText? entries key found := by
  cases found with
  | none =>
      exact except_option_mapM_eq_ok_none_iff
  | some text =>
      rw [except_option_mapM_eq_ok_some_iff]
      constructor
      · rintro ⟨⟨span, value⟩, hfind, hread⟩
        obtain rfl : value = .text text := (has _ _).mp hread
        exact ⟨span, hfind⟩
      · rintro ⟨span, hfind⟩
        exact ⟨_, hfind, (has _ _).mpr rfl⟩

theorem mapM_asText_iff {found : Option String} :
    (entries.find? key).mapM asText = .ok found ↔ HasText? entries key found :=
  mapM_iff_hasText? fun _ _ => asText_eq_ok_iff

theorem mapM_asPath_iff {found : Option String} :
    (entries.find? key).mapM asPath = .ok found ↔ HasText? entries key found :=
  mapM_iff_hasText? fun _ _ => asPath_eq_ok_iff

theorem mapM_asPlacedText_some_iff {text : Spanned String} :
    (entries.find? key).mapM asPlacedText = .ok (some text) ↔
      entries.find? key = some ⟨text.span, .text text.value⟩ := by
  simp [except_option_mapM_eq_ok_some_iff, asPlacedText_eq_ok_iff]

theorem mapM_asLevel_iff {level : Nat} :
    (∃ found, (entries.find? "level").mapM asLevel = .ok found ∧ level = found.getD 0) ↔
      HasLevel entries level := by
  constructor
  · rintro ⟨found, hfound, rfl⟩
    cases found with
    | none =>
        exact Or.inr ⟨except_option_mapM_eq_ok_none_iff.mp hfound, rfl⟩
    | some level =>
        obtain ⟨⟨span, value⟩, hfind, hlevel⟩ := except_option_mapM_eq_ok_some_iff.mp hfound
        obtain ⟨rfl, hle⟩ := asLevel_eq_ok_iff.mp hlevel
        exact Or.inl ⟨⟨span, hfind⟩, hle⟩
  · rintro (⟨⟨span, hfind⟩, hle⟩ | ⟨hfind, rfl⟩)
    · exact ⟨some level,
        except_option_mapM_eq_ok_some_iff.mpr ⟨_, hfind, asLevel_eq_ok_iff.mpr ⟨rfl, hle⟩⟩, rfl⟩
    · exact ⟨none, except_option_mapM_eq_ok_none_iff.mpr hfind, rfl⟩

end Fields

section Checks

theorem checkName_eq_ok_iff {name : Spanned String} {found : String} :
    checkName name = .ok found ↔
      found = name.value ∧ isCppKeyword name.value = false ∧ IsIdentifier name.value.toList := by
  unfold checkName
  split
  · next hkeyword => simp [hkeyword]
  · next hkeyword =>
    rw [← IdentifierFault.of?_eq_none_iff]
    split
    · next rule hrule => simp [hrule]
    · next hrule => simp [hkeyword, hrule, eq_comm]

theorem checkKind_eq_ok_iff {parameter : String} {tag : Spanned String} {kind : Kind} :
    checkKind parameter tag = .ok kind ↔ tag.value = kind.tag := by
  unfold checkKind
  constructor
  · intro h
    split at h
    · next found hfound =>
      cases h
      have htag := List.find?_some hfound
      exact (beq_iff_eq.mp htag).symm
    · cases h
  · intro h
    rw [h, Kind.ofTag?_tag]

theorem checkValue_eq_ok_iff {parameter : String} {field : Field} {value : Spanned Toml.Value}
    {found : Value} :
    checkValue parameter field value = .ok found ↔ Gives value.value found := by
  obtain ⟨span, content⟩ := value
  cases content with
  | text content => exact ⟨by rintro ⟨⟩; exact .text content, by rintro ⟨⟩; rfl⟩
  | integer n => exact ⟨by rintro ⟨⟩; exact .integer n, by rintro ⟨⟩; rfl⟩
  | double x => exact ⟨by rintro ⟨⟩; exact .double x, by rintro ⟨⟩; rfl⟩
  | bool b => exact ⟨by rintro ⟨⟩; exact .bool b, by rintro ⟨⟩; rfl⟩
  | voidNumber | datetime | array _ _ | table _ _ => exact ⟨by rintro ⟨⟩, by rintro ⟨⟩⟩

theorem mapM_checkValue_iff {parameter : String} {field : Field} {entries : Entries} {key : String}
    {found : Option Value} :
    (entries.find? key).mapM (checkValue parameter field) = .ok found ↔
      HasValue? entries key found := by
  cases found with
  | none => exact except_option_mapM_eq_ok_none_iff
  | some value => simp only [except_option_mapM_eq_ok_some_iff, checkValue_eq_ok_iff, HasValue?]

theorem Gives.isReadable {value : Toml.Value} {found : Value} (h : Gives value found) :
    value.isReadable = true := by
  cases h <;> rfl

end Checks

section Tables

variable {entries : Entries} {span : Toml.Span} {origin : Toml.Origin}

/-- The table about the target is read, and its name accepted, exactly if it is one. -/
theorem isTarget_iff (h : AreDistinct entries) (target : Target) (templates : Option String) :
    IsTarget entries target templates ↔
      Generator.ofValue ⟨span, .table origin entries⟩ =
        .ok ⟨target.package, target.node, target.name, templates⟩ ∧
        IdentifierFault.of? target.name.toList = none := by
  rw [Generator.ofValue_table_iff h, IdentifierFault.of?_eq_none_iff]
  constructor
  · rintro ⟨hknown, hpackage, hnode, hname, htemplates, hidentifier⟩
    exact ⟨⟨hknown, mapM_asText_iff.mpr hpackage, mapM_asText_iff.mpr hnode,
      mapM_asText_iff.mpr hname, mapM_asPath_iff.mpr htemplates⟩, hidentifier⟩
  · rintro ⟨⟨hknown, hpackage, hnode, hname, htemplates⟩, hidentifier⟩
    exact ⟨hknown, mapM_asText_iff.mp hpackage, mapM_asText_iff.mp hnode, mapM_asText_iff.mp hname,
      mapM_asPath_iff.mp htemplates, hidentifier⟩

/-- The table about a parameter is read and accepted exactly if it is the one of the entry. -/
theorem isEntry_iff (h : AreDistinct entries) (text : List Char) (entry : Entry) :
    IsEntry text entries entry ↔
      ∃ outline, ParameterOutline.ofValue ⟨span, .table origin entries⟩ = .ok outline ∧
        Entry.ofOutline text outline = .ok entry := by
  simp only [ParameterOutline.ofValue_table_iff h, Entry.ofOutline, except_bind_eq_ok_iff]
  constructor
  · rintro ⟨hknown, ⟨place, hname, hline⟩, hidentifier, hkeyword, ⟨tagPlace, htype⟩, hlevel,
      ⟨description, hdescription,
      hdescribed⟩, hdefault, hmin, hmax, method, hmethod, hedited⟩
    obtain ⟨level, hlevel, hleveled⟩ := mapM_asLevel_iff.mpr hlevel
    refine ⟨⟨⟨place, entry.declaration.name⟩, ⟨tagPlace, entry.declaration.kind.tag⟩,
      entry.declaration.level, entry.declaration.description, entries.find? "default",
      entries.find? "min", entries.find? "max",
      entry.declaration.editMethod⟩,
        ⟨level, description, method, ?_, hleveled, hdescribed, hedited⟩, ?_⟩
    · exact {
        known := hknown
        name := mapM_asPlacedText_some_iff.mpr hname
        type := mapM_asPlacedText_some_iff.mpr htype
        level := hlevel
        description := mapM_asText_iff.mpr hdescription
        default := rfl
        min := rfl
        max := rfl
        editMethod := mapM_asText_iff.mpr hmethod }
    · refine ⟨_, checkName_eq_ok_iff.mpr ⟨rfl, hkeyword, hidentifier⟩, _,
        checkKind_eq_ok_iff.mpr rfl, _, mapM_checkValue_iff.mpr hdefault, _,
        mapM_checkValue_iff.mpr hmin, _, mapM_checkValue_iff.mpr hmax, ?_⟩
      rw [← hline]
      rfl
  · rintro ⟨outline, ⟨level, description, method, hdraft, hlevel, hdescription, hmethod⟩, name,
      hname, kind, hkind, default, hdefault, min, hmin, max, hmax, ⟨⟩⟩
    obtain ⟨rfl, hkeyword, hidentifier⟩ := checkName_eq_ok_iff.mp hname
    have hdefault := (congrArg (Option.mapM _) hdraft.default).trans hdefault
    have hmin := (congrArg (Option.mapM _) hdraft.min).trans hmin
    have hmax := (congrArg (Option.mapM _) hdraft.max).trans hmax
    have htype := mapM_asPlacedText_some_iff.mp hdraft.type
    rw [checkKind_eq_ok_iff.mp hkind] at htype
    exact {
      known := hdraft.known
      name := ⟨outline.name.span, mapM_asPlacedText_some_iff.mp hdraft.name, rfl⟩
      identifier := hidentifier
      keyword := hkeyword
      type := ⟨outline.type.span, htype⟩
      level := mapM_asLevel_iff.mp ⟨level, hdraft.level, hlevel⟩
      description := ⟨description, mapM_asText_iff.mp hdraft.description, hdescription⟩
      default := mapM_checkValue_iff.mp hdefault
      min := mapM_checkValue_iff.mp hmin
      max := mapM_checkValue_iff.mp hmax
      editMethod := ⟨method, mapM_asText_iff.mp hdraft.editMethod, hmethod⟩ }

/-- What an entry is made of can be read. -/
theorem isReadable_of_ofOutline {text : List Char} {outline : ParameterOutline} {entry : Entry}
    (h : Entry.ofOutline text outline = .ok entry) : outline.isReadable = true := by
  simp only [Entry.ofOutline, except_bind_eq_ok_iff] at h
  obtain ⟨name, _, kind, _, default, hdefault, min, hmin, max, hmax, _⟩ := h
  have hvalue : ∀ (field : Field) (value : Option (Spanned Toml.Value)) (found : Option Value),
      value.mapM (checkValue name field) = .ok found →
      (value.all fun value => value.value.isReadable) = true := by
    intro field value found hfound
    cases value with
    | none => rfl
    | some value =>
        cases found with
        | none => cases except_option_mapM_eq_ok_none_iff.mp hfound
        | some found =>
            obtain ⟨_, ⟨⟩, hcheck⟩ := except_option_mapM_eq_ok_some_iff.mp hfound
            exact (checkValue_eq_ok_iff.mp hcheck).isReadable
  simp [ParameterOutline.isReadable, hvalue _ _ _ hdefault, hvalue _ _ _ hmin, hvalue _ _ _ hmax]

end Tables

section Documents

variable {text : List Char} {file : String} {document : Entries} {manifest : Manifest}

/-- An outline gives a manifest if its name and its entries are accepted. -/
theorem ofOutline_eq_ok_iff {outline : Outline} :
    ofOutline text file outline = .ok manifest ↔
      outline.generator =
        ⟨manifest.target.package, manifest.target.node, manifest.target.name, manifest.templates⟩ ∧
        IdentifierFault.of? manifest.target.name.toList = none ∧
        List.Forall₂ (fun parameter entry => Entry.ofOutline text parameter = .ok entry)
          outline.parameters
          manifest.entries ∧
        manifest.file = file := by
  unfold ofOutline
  constructor
  · intro h
    simp only at h
    split at h
    · cases h
    · next hname =>
      obtain ⟨entries, hentries, ⟨⟩⟩ := except_bind_eq_ok_iff.mp h
      exact ⟨rfl, hname, except_mapM_eq_ok_iff.mp hentries, rfl⟩
  · rintro ⟨hgenerator, hname, hentries, rfl⟩
    simp only [hgenerator, hname]
    exact except_bind_eq_ok_iff.mpr ⟨_, except_mapM_eq_ok_iff.mpr hentries, rfl⟩

theorem ofDocument_eq_ok_iff :
    ofDocument text file document = .ok manifest ↔
      ∃ outline, Outline.ofDocument document = .ok outline ∧
        ofOutline text file outline = .ok manifest := by
  unfold ofDocument
  cases Outline.ofDocument document with
  | error fault =>
      refine iff_of_false (by rintro ⟨⟩) ?_
      rintro ⟨outline, ⟨⟩, _⟩
  | ok outline =>
      constructor
      · intro h
        simp only at h
        split at h
        · exact ⟨outline, rfl, h⟩
        · cases h
      · rintro ⟨_, ⟨⟩, h⟩
        -- An outline that gives a manifest has nothing in it that could not be read.
        have hreadable : outline.parameters.all ParameterOutline.isReadable = true := by
          obtain ⟨_, _, hentries, _⟩ := ofOutline_eq_ok_iff.mp h
          have hboth :=
            hentries.imp fun _ _ hentry => And.intro (isReadable_of_ofOutline hentry) hentry
          exact List.all_eq_true.mpr ((List.forall₂_and_left _ _).mp hboth).1
        simp only [hreadable, if_true, h]

/-- The manifest that a text holds, with any reader of documents. -/
def readBy (reader : List Char → Option Entries) (text : List Char) (file : String) :
    Except Fault Manifest :=
  match reader text with
  | none => .error .grammar
  | some document => ofDocument text file document

/-- Manifests are read with the reader of the library. -/
theorem read_eq_readBy : read = readBy Toml.read :=
  rfl

variable {reader : List Char → Option Entries}

/-- A manifest that was read comes from the outline of the document of its text. -/
theorem exists_outline_of_readBy (h : readBy reader text file = .ok manifest) :
    ∃ document outline, reader text = some document ∧ Outline.ofDocument document = .ok outline ∧
      ofOutline text file outline = .ok manifest := by
  unfold readBy at h
  split at h
  · cases h
  · next document hread =>
    obtain ⟨outline, hdocument, houtline⟩ := ofDocument_eq_ok_iff.mp h
    exact ⟨document, outline, hread, hdocument, houtline⟩

theorem checked_of_ofOutline {outline : ParameterOutline} {entry : Entry}
    (h : Entry.ofOutline text outline = .ok entry) :
    isCppKeyword entry.declaration.name = false ∧ IsIdentifier entry.declaration.name.toList := by
  simp only [Entry.ofOutline, except_bind_eq_ok_iff] at h
  obtain ⟨name, hname, _, _, _, _, _, _, _, _, ⟨⟩⟩ := h
  obtain ⟨rfl, hchecked⟩ := checkName_eq_ok_iff.mp hname
  exact hchecked

/-- The name of every entry was checked: it is an identifier, and no keyword. -/
theorem checked_of_read (h : read text file = .ok manifest) :
    ∀ entry ∈ manifest.entries,
      isCppKeyword entry.declaration.name = false ∧ IsIdentifier entry.declaration.name.toList := by
  rw [read_eq_readBy] at h
  obtain ⟨_, _, _, _, houtline⟩ := exists_outline_of_readBy h
  obtain ⟨_, _, hentries, _⟩ := ofOutline_eq_ok_iff.mp houtline
  have hboth := hentries.flip.imp fun _ _ hentry => And.intro (checked_of_ofOutline hentry) hentry
  exact ((List.forall₂_and_left _ _).mp hboth).1

/-- The tables about the parameters are read and accepted one by one. -/
theorem forall₂_isEntry_iff {items : List (Spanned Toml.Value)}
    (h : ∀ item ∈ items, Toml.IsTree item.value) (htables : ∀ item ∈ items, IsTable item.value)
    (entries : List Entry) :
    List.Forall₂ (fun item entry =>
      ∃ origin table, item.value = .table origin table ∧ IsEntry text table entry) items entries ↔
      ∃ outlines, items.mapM ParameterOutline.ofValue = .ok outlines ∧
        outlines.mapM (Entry.ofOutline text) = .ok entries := by
  have hentry : ∀ item ∈ items, ∀ entry,
      (∃ origin table, item.value = .table origin table ∧ IsEntry text table entry) ↔
        ∃ outline, ParameterOutline.ofValue item = .ok outline ∧
          Entry.ofOutline text outline = .ok entry := by
    rintro ⟨span, value⟩ hmem entry
    obtain ⟨origin, table, rfl⟩ := htables _ hmem
    rw [← isEntry_iff (Toml.isTree_table_iff.mp (h _ hmem))]
    simp
  rw [except_mapM_mapM_eq_ok_iff]
  exact forall₂_congr_of_mem hentry

theorem hasEntries_iff (h : AreDistinct document) (htables : HasTables document)
    (entries : List Entry) :
    HasEntries text document entries ↔
      ∃ parameters, (document.find? "param").mapM Outline.readParameters = .ok parameters ∧
        (parameters.getD []).mapM (Entry.ofOutline text) = .ok entries := by
  have hitems : ∀ {span ofHeaders items},
      document.find? "param" = some ⟨span, .array ofHeaders items⟩ →
      (List.Forall₂ (fun item entry =>
        ∃ origin table, item.value = .table origin table ∧ IsEntry text table entry) items entries ↔
          ∃ outlines, items.mapM ParameterOutline.ofValue = .ok outlines ∧
            outlines.mapM (Entry.ofOutline text) = .ok entries) := fun hfind =>
    forall₂_isEntry_iff (Toml.isTree_array_iff.mp (h.isTree_of_find? hfind))
      (htables.parameters _ _ _ hfind) entries
  constructor
  · rintro (⟨span, ofHeaders, items, hfind, hentries⟩ | ⟨hfind, rfl⟩)
    · obtain ⟨outlines, houtlines, hentries⟩ := (hitems hfind).mp hentries
      refine ⟨some outlines, except_option_mapM_eq_ok_some_iff.mpr ⟨_, hfind, ?_⟩, hentries⟩
      exact except_bind_eq_ok_iff.mpr ⟨items, rfl, houtlines⟩
    · exact ⟨none, except_option_mapM_eq_ok_none_iff.mpr hfind, rfl⟩
  · rintro ⟨parameters, hparameters, hentries⟩
    cases parameters with
    | none =>
        exact Or.inr ⟨except_option_mapM_eq_ok_none_iff.mp hparameters,
          (Except.ok.inj hentries).symm⟩
    | some outlines =>
        obtain ⟨⟨span, value⟩, hfind, hread⟩ := except_option_mapM_eq_ok_some_iff.mp hparameters
        obtain ⟨items, hlist, houtlines⟩ := except_bind_eq_ok_iff.mp hread
        obtain ⟨ofHeaders, rfl⟩ : ∃ ofHeaders, value = .array ofHeaders items :=
          asList_eq_ok_iff.mp hlist
        exact Or.inl ⟨span, ofHeaders, items, hfind,
          (hitems hfind).mpr ⟨outlines, houtlines, hentries⟩⟩

/-- A document is read as a manifest exactly if it is the one of the manifest. -/
theorem isManifest_iff (h : AreDistinct document) (htables : HasTables document) :
    IsManifest text file document manifest ↔ ofDocument text file document = .ok manifest := by
  simp only [ofDocument_eq_ok_iff, Outline.ofDocument_eq_ok_iff h, ofOutline_eq_ok_iff,
    ← except_mapM_eq_ok_iff]
  constructor
  · rintro ⟨hknown, ⟨span, origin, table, hfind, htarget⟩, hentries, hfile⟩
    have htable := Toml.isTree_table_iff.mp (h.isTree_of_find? hfind)
    obtain ⟨hgenerator, hname⟩ := (isTarget_iff htable _ _).mp htarget
    obtain ⟨parameters, hparameters, hentries⟩ := (hasEntries_iff h htables _).mp hentries
    refine ⟨⟨_, parameters.getD []⟩, ⟨parameters, ⟨hknown, ?_, hparameters⟩, rfl⟩, rfl, hname,
      hentries, hfile⟩
    exact except_option_mapM_eq_ok_some_iff.mpr ⟨_, hfind, hgenerator⟩
  · rintro ⟨⟨generator, outlines⟩, ⟨parameters, ⟨hknown, hgenerator, hparameters⟩, rfl⟩, rfl, hname,
      hentries, hfile⟩
    obtain ⟨⟨span, value⟩, hfind, hread⟩ := except_option_mapM_eq_ok_some_iff.mp hgenerator
    obtain ⟨origin, table, rfl⟩ := htables.generator _ hfind
    have htable := Toml.isTree_table_iff.mp (h.isTree_of_find? hfind)
    exact ⟨hknown, ⟨span, origin, table, hfind, (isTarget_iff htable _ _).mpr ⟨hread, hname⟩⟩,
      (hasEntries_iff h htables _).mpr ⟨parameters, hparameters, hentries⟩, hfile⟩

/-- With a reader that can be relied on a text is read as a manifest exactly if its document is the
one of the manifest. -/
theorem readBy_eq_ok_iff (hreader : Toml.IsFaithful reader) (hread : reader text = some document)
    (htables : HasTables document) :
    readBy reader text file = .ok manifest ↔ IsManifest text file document manifest := by
  rw [isManifest_iff (hreader.distinct hread) htables, readBy, hread]

/-- A text is read as a manifest exactly if its document is the one of the manifest. -/
theorem read_eq_ok_iff (hread : Toml.read text = some document) (htables : HasTables document) :
    read text file = .ok manifest ↔ IsManifest text file document manifest := by
  rw [read_eq_readBy]
  exact readBy_eq_ok_iff Toml.isFaithful_read hread htables

/-- A manifest with one parameter, which gives no more than its name and its type. -/
theorem read_eq_ok_single :
    read ("[generator]\npackage = \"robot\"\nnode = \"drive\"\nname = \"Gain\"\n".toList ++
        "[[param]]\nname = \"rate\"\ntype = \"double\"\n".toList) "a.toml" =
      .ok ⟨⟨"robot", "drive", "Gain"⟩, none, [⟨⟨"rate", .double, 0, "", none, none, none, ""⟩, 6⟩],
        "a.toml"⟩ := by
  have hread :
      Toml.read ("[generator]\npackage = \"robot\"\nnode = \"drive\"\nname = \"Gain\"\n".toList ++
      "[[param]]\nname = \"rate\"\ntype = \"double\"\n".toList) = some [
        (⟨"generator", ⟨1, 10⟩⟩, ⟨⟨0, 11⟩, .table .header [
          (⟨"package", ⟨12, 19⟩⟩, ⟨⟨22, 29⟩, .text "robot"⟩),
          (⟨"node", ⟨30, 34⟩⟩, ⟨⟨37, 44⟩, .text "drive"⟩),
          (⟨"name", ⟨45, 49⟩⟩, ⟨⟨52, 58⟩, .text "Gain"⟩)]⟩),
        (⟨"param", ⟨61, 66⟩⟩, ⟨⟨59, 68⟩, .array true [⟨⟨59, 68⟩, .table .header [
          (⟨"name", ⟨69, 73⟩⟩, ⟨⟨76, 82⟩, .text "rate"⟩),
          (⟨"type", ⟨83, 87⟩⟩, ⟨⟨90, 98⟩, .text "double"⟩)]⟩]⟩)] := by
    cbv
  have hline : (6 : UInt32) = Text.lineAt
      ("[generator]\npackage = \"robot\"\nnode = \"drive\"\nname = \"Gain\"\n".toList ++
      "[[param]]\nname = \"rate\"\ntype = \"double\"\n".toList) 76 := by
    decide +kernel
  refine (read_eq_ok_iff hread ⟨?_, ?_⟩).mpr ⟨by decide, ?_, Or.inl ?_, rfl⟩
  · rintro _ ⟨⟩
    exact ⟨_, _, rfl⟩
  · rintro _ _ _ ⟨⟩ item hmem
    rw [List.mem_singleton.mp hmem]
    exact ⟨_, _, rfl⟩
  · exact ⟨_, _, _, rfl, by decide, ⟨_, rfl⟩, ⟨_, rfl⟩, ⟨_, rfl⟩, rfl,
      (IdentifierFault.of?_eq_none_iff _).mp (by decide)⟩
  · refine ⟨_, _, _, rfl, .cons ⟨_, _, rfl, ?_⟩ .nil⟩
    exact ⟨by decide, ⟨_, rfl, hline⟩, (IdentifierFault.of?_eq_none_iff _).mp (by decide),
      by decide, ⟨_, rfl⟩, Or.inr ⟨rfl, rfl⟩, ⟨none, rfl, rfl⟩, rfl, rfl, rfl, none, rfl, rfl⟩

end Documents

end Manifest
end Tunables
