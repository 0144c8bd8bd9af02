import Tunables.Text.Lines
import Tunables.Text.Blank
import Tunables.Text.Sequence
import Tunables.Text.Escape
import Tunables.Text.UpperCase
import Tunables.Text.Identifier
import Tunables.Binary64.Nearest
import Tunables.Binary64.Text
import Tunables.Parameter.Basic
import Tunables.Template.Builtin
import Tunables.Path
import Tunables.Artifact.Basic
import Tunables.Lint
import Tunables.Toml.Document
import Tunables.Manifest.Basic
import Tunables.Manifest.Load
import Tunables.Files.Basic
import Tunables.Files.Tree
import Tunables.Generation.Templates
import Tunables.Generation.Basic
import Tunables.Command.Basic
import Tunables.Command.Run
import Tunables.Main
import Tunables.Proofs.Template.Pieces
import Tunables.Proofs.Template.Positional
import Tunables.Proofs.Artifact.Header
import Tunables.Proofs.Template.Grammar
import Tunables.Proofs.Files.Action
import Tunables.Proofs.Path
import Tunables.Proofs.Files.Place
import Tunables.Proofs.Files.Plain
import Tunables.Proofs.Files.Change
import Tunables.Proofs.Files.Directory
import Tunables.Proofs.Generation.Delivery
import Tunables.Proofs.Generation.Removal
import Tunables.Proofs.Target
import Tunables.Proofs.Generation.Run
import Tunables.Proofs.Generation.Overlap
import Tunables.Proofs.Generation.Account
import Tunables.Proofs.Binary64.Text
import Tunables.Proofs.Python.Value
import Tunables.Proofs.Artifact.Scripting
import Tunables.Proofs.Artifact.Statements
import Tunables.Proofs.Manifest.Record
import Tunables.Proofs.Manifest.Schema
import Tunables.Proofs.Artifact.Builtin
import Tunables.Proofs.Files.Outcome
import Tunables.Proofs.Generation.Outcome
import Tunables.Proofs.Command.Check
import Tunables.Proofs.Generation.Confinement
import Tunables.Proofs.Files.Success
import Tunables.Proofs.Files.Links
import Tunables.Proofs.Generation.Readiness
import Tunables.Proofs.Generation.Effect
import Tunables.Proofs.Generation.Repetition
import Tunables.Proofs.Generation.Order
import Tunables.Proofs.Command.Clean
import Tunables.Proofs.Parameter.Acceptance
import Tunables.Proofs.Artifact.Documentation
import Tunables.Proofs.Generation.Interruption
import Tunables.Proofs.Binary64.Rounding
import Tunables.Proofs.Binary64.Shortest
import Tunables.Proofs.Binary64.Reading
import Tunables.Proofs.Artifact.Values
import Tunables.Proofs.Parameter.Exactness
import Tunables.Proofs.Manifest.Outline
import Tunables.Proofs.Manifest.Phases
import Tunables.Proofs.Toml.Reading
import Tunables.Proofs.Toml.Source
import Tunables.Proofs.Manifest.Label
import Tunables.Proofs.Cpp.Scope
import Tunables.Proofs.Lint
import Tunables.Proofs.Files.Making
import Tunables.Proofs.Files.Erasure
import Tunables.Proofs.Generation.Cleanup
import Tunables.Proofs.Generation.Absence
import Tunables.Proofs.Artifact.Members
import Tunables.Proofs.Generation.Package
import Tunables.Proofs.Python.Literal
import Tunables.Proofs.Cpp.Guard
import Tunables.Proofs.Artifact.Guard
import Tunables.Proofs.Text.Place
import Tunables.Proofs.Toml.Order
import Tunables.Proofs.Manifest.Lines
import Tunables.Proofs.Cpp.Literal
