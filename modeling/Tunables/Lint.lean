import Tunables.Parameter.Basic
import Tunables.Text.Blank
import Tunables.Text.Identifier

/-!
# Lints

Checks of a list of parameters that never stop a run.  A finding says which lint made it, what it
found, and at which declaration.
-/

namespace Tunables

/-- A check of a list of parameters. -/
inductive Lint where
  | duplicateName
  | emptyDescription
  | invalidIdentifier
deriving DecidableEq, Repr

/-- What a lint found. -/
structure Finding where
  lint : Lint
  message : List Char
  location : Location
deriving DecidableEq, Repr

namespace Lint

/-- The name of a lint. -/
def name : Lint → String
  | .duplicateName => "duplicate-name"
  | .emptyDescription => "empty-description"
  | .invalidIdentifier => "invalid-identifier"

/-- The lints of every run, in order. -/
def builtin : List Lint :=
  [.duplicateName, .emptyDescription, .invalidIdentifier]

/-- The lint with a name. -/
def ofName? (name : String) : Option Lint :=
  builtin.find? fun lint => lint.name == name

/-- A name between single quotes. -/
def quoted (name : String) : List Char :=
  '\'' :: name.toList ++ ['\'']

/-- The parameters whose name an earlier one has, each with the first parameter of that name. -/
def duplicates : List Parameter → List Parameter → List (Parameter × Parameter)
  | _, [] => []
  | seen, parameter :: rest =>
      match seen.find? fun earlier => earlier.name == parameter.name with
      | some first => (parameter, first) :: duplicates seen rest
      | none => duplicates (seen ++ [parameter]) rest

/-- The message about a parameter whose name `first` has already. -/
def duplicateMessage (parameter first : Parameter) : List Char :=
  "duplicate parameter ".toList ++ quoted parameter.name ++ " (first declared at ".toList ++
    first.location.text ++ [')']

/-- Why a name cannot be that of a member. -/
def nameFault? (name : String) : Option String :=
  if isCppKeyword name then some "name is a C++ reserved keyword"
  else (IdentifierFault.of? name.toList).map IdentifierFault.reason

/-- What a lint finds in a list of parameters. -/
def check (lint : Lint) (parameters : List Parameter) : List Finding :=
  match lint with
  | .duplicateName =>
      (duplicates [] parameters).map fun (parameter, first) =>
        ⟨lint, duplicateMessage parameter first, parameter.location⟩
  | .emptyDescription =>
      (parameters.filter fun parameter => Text.isBlankText parameter.description.toList).map
        fun parameter =>
          ⟨lint, "parameter ".toList ++ quoted parameter.name ++ " has no description".toList,
            parameter.location⟩
  | .invalidIdentifier =>
      parameters.filterMap fun parameter =>
        (nameFault? parameter.name).map fun reason =>
          ⟨lint, "parameter ".toList ++ quoted parameter.name ++ ": ".toList ++ reason.toList,
            parameter.location⟩

/-- What a list of lints finds, lint by lint. -/
def run (lints : List Lint) (parameters : List Parameter) : List Finding :=
  lints.flatMap fun lint => lint.check parameters

end Lint

/-- A finding as it is printed. -/
def Finding.text (finding : Finding) : List Char :=
  finding.location.text ++ ": ".toList ++ finding.message ++ " [".toList ++
    finding.lint.name.toList ++ [']']

end Tunables
