import Tunables.Manifest.Outline
import Tunables.Parameter.Basic
import Tunables.Text.Identifier
import Tunables.Toml.Document

/-!
# Manifests

A manifest names a target and declares its parameters.  `Manifest.read` looks at a text in phases,
and the first fault of the first phase that finds one is reported: the grammar of the document, its
shape, the name of the configuration, and then the entries in the order of the document, each by its
name, its type and its values.

A declaration keeps the line on which its name stands.
-/

namespace Tunables

/-- The line of an entry is handed on as a number. -/
instance coeLine : Coe UInt32 Nat :=
  ⟨UInt32.toNat⟩

/-- A declaration and the line of its name. -/
structure Manifest.Entry where
  declaration : Declaration
  line : UInt32
deriving DecidableEq

/-- A target, the directory of its templates, and the declarations of its parameters.  The file is
the one that messages and generated files refer to. -/
structure Manifest where
  target : Target
  templates : Option String
  entries : List Manifest.Entry
  file : String
deriving DecidableEq

namespace Manifest

open Toml (Span Spanned)

/-- The name of a manifest. -/
def defaultFile : String :=
  "params.toml"

/-- Why a text is not a manifest. -/
inductive Fault where
  | grammar
  | shape (fault : Spanned ShapeFault)
  | generatorName (name : String) (rule : IdentifierFault)
  | parameterName (name : Spanned String) (rule : IdentifierFault)
  | keyword (name : Spanned String)
  | kind (parameter : String) (tag : Spanned String)
  | value (parameter : String) (field : Field) (found : String) (span : Span)

namespace Fault

/-- A fault in words. -/
def message : Fault → String
  | .grammar | .shape _ => "failed to parse parameter manifest"
  | .generatorName name _ => "invalid generator name '" ++ name ++ "'"
  | .parameterName name _ => "invalid parameter name '" ++ name.value ++ "'"
  | .keyword name => "'" ++ name.value ++ "' is a C++ reserved keyword"
  | .kind parameter tag => "invalid type '" ++ tag.value ++ "' for parameter '" ++ parameter ++ "'"
  | .value parameter field found _ =>
      field.word ++ " of parameter '" ++ parameter ++
        "' must be a string, integer, float or boolean, found " ++ found

/-- The code of a fault. -/
def code : Fault → Option String
  | .grammar | .shape _ => some "dynparam::parse_error"
  | .kind .. => some "dynparam::invalid_type"
  | .value .. => some "dynparam::validation_error"
  | .generatorName .. | .parameterName .. | .keyword _ => none

/-- The advice about a name that breaks a rule. -/
def nameAdvice (rule : IdentifierFault) : String :=
  rule.reason ++
    ". Use only letters, numbers, and underscores, starting with a letter or underscore."

/-- What to do about a fault. -/
def help : Fault → Option String
  | .grammar | .shape _ | .value .. => none
  | .generatorName _ rule | .parameterName _ rule => some (nameAdvice rule)
  | .keyword name =>
      some ("rename '" ++ name.value ++ "' to something else, e.g. '" ++ name.value ++ "_param'")
  | .kind .. => some "valid types are: str, bool, int, double"

/-- A remark on the bytes of the text that are at fault. -/
def label : Fault → Option (Spanned String)
  | .grammar | .generatorName .. => none
  | .shape fault => some ⟨fault.span, "parse error here"⟩
  | .parameterName name _ => some ⟨name.span, "invalid identifier"⟩
  | .keyword name => some ⟨name.span, "reserved keyword used here"⟩
  | .kind _ tag => some ⟨tag.span, "unknown type"⟩
  | .value parameter field found span => some ⟨span, message (.value parameter field found span)⟩

end Fault

/-- The name of a parameter, which becomes the name of a member. -/
def checkName (name : Spanned String) : Except Fault String :=
  if isCppKeyword name.value then .error (.keyword name)
  else
    match IdentifierFault.of? name.value.toList with
    | some rule => .error (.parameterName name rule)
    | none => .ok name.value

/-- The kind with a tag. -/
def checkKind (parameter : String) (tag : Spanned String) : Except Fault Kind :=
  match Kind.ofTag? tag.value with
  | some kind => .ok kind
  | none => .error (.kind parameter tag)

/-- The value of a field: a text, a number or a truth value. -/
def checkValue (parameter : String) (field : Field) (value : Spanned Toml.Value) :
    Except Fault Value :=
  match value.value with
  | .text text => .ok (.text text)
  | .integer n => .ok (.int n)
  | .double x => .ok (.double x)
  | .bool b => .ok (.bool b)
  | .voidNumber => .error (.value parameter field "number" value.span)
  | .datetime => .error (.value parameter field "datetime" value.span)
  | .array .. => .error (.value parameter field "array" value.span)
  | .table _ entries =>
      let found := if (Toml.Entries.dateText? entries).isSome then "datetime" else "table"
      .error (.value parameter field found value.span)

/-- The declaration of an entry in a text. -/
def Entry.ofOutline (text : List Char) (outline : ParameterOutline) : Except Fault Entry := do
  let name ← checkName outline.name
  let kind ← checkKind name outline.type
  let default ← outline.default.mapM (checkValue name .default)
  let min ← outline.min.mapM (checkValue name .min)
  let max ← outline.max.mapM (checkValue name .max)
  return {
    declaration := {
      name := name
      kind := kind
      level := outline.level
      description := outline.description
      default := default
      min := min
      max := max
      editMethod := outline.editMethod }
    line := Text.lineAt text outline.name.span.start }

/-- The manifest with an outline. -/
def ofOutline (text : List Char) (file : String) (outline : Outline) : Except Fault Manifest := do
  let generator := outline.generator
  match IdentifierFault.of? generator.name.toList with
  | some rule => .error (.generatorName generator.name rule)
  | none => do
      let entries ← outline.parameters.mapM (Entry.ofOutline text)
      return {
        target := ⟨generator.package, generator.node, generator.name⟩
        templates := generator.templates
        entries := entries
        file := file }

/-- The manifest in the document of a text.  What cannot be read counts as a fault of the grammar,
but where the shape is right it only matters in the values of parameters: nobody looks at the items
behind the last field of an array. -/
def ofDocument (text : List Char) (file : String) (document : Toml.Entries) :
    Except Fault Manifest :=
  match Outline.ofDocument document with
  | .error fault => .error (if Toml.entriesReadable document then .shape fault else .grammar)
  | .ok outline =>
      if outline.parameters.all ParameterOutline.isReadable then ofOutline text file outline
      else .error .grammar

/-- The manifest that a text holds. -/
def read (text : List Char) (file : String) : Except Fault Manifest :=
  match Toml.read text with
  | none => .error .grammar
  | some document => ofDocument text file document

/-- The parameters of a manifest, or the first fault of a declaration. -/
def parameters (manifest : Manifest) : Except DeclarationFault (List Parameter) :=
  manifest.entries.mapM fun entry => Parameter.accept entry.declaration ⟨manifest.file, entry.line⟩

end Manifest
end Tunables
