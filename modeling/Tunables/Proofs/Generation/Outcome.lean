import Tunables.Generation.Basic
import Tunables.Proofs.Files.Outcome

/-!
# Outcomes of runs

Why a run can end early, whatever the files are: if the files it writes can be rendered, then only
because its package was not found or because a step on files was refused.
-/

namespace Tunables

open Files FileStore

variable {σ : Type} [FileStore (StateM σ)]

/-- A file was not written because of a step on files. -/
def WriteFault.IsOfFiles (fault : WriteFault) : Prop :=
  ∃ refused, fault = .files refused

/-- A run ended because of a step on files. -/
def GenerationCause.IsOfFiles (cause : GenerationCause) : Prop :=
  ∃ refused, cause = .files refused

/-- A run ended because of what was found outside of the program: there was no package, or a step on
files was refused. -/
def GenerationCause.IsExternal (cause : GenerationCause) : Prop :=
  (∃ missing, cause = .package missing) ∨ cause.IsOfFiles

theorem Files.isPresent_ends {ε : Type} {allowed : ε → Prop} (path : Path) :
    Ends (fun _ => True) allowed (isPresent path : ExceptT ε (StateM σ) Bool) :=
  (Ends.lift (kind? path)).bind fun _ _ => Ends.pure trivial

theorem Files.writeRendered_ends (path : Path) (text : List Char) :
    Ends (fun _ => True) WriteFault.IsOfFiles
      (writeRendered path (.ok text) : ExceptT WriteFault (StateM σ) Unit) :=
  (Ends.any (write path text)).adapt fun refused _ => ⟨refused, rfl⟩

theorem Files.place_ends (root relative : Path) (overwrite : Overwrite) (text : List Char) :
    Ends (fun _ => True) WriteFault.IsOfFiles
      (place root relative overwrite (.ok text) : ExceptT WriteFault (StateM σ) Outcome) := by
  have hdirectory : Ends (fun _ => True) WriteFault.IsOfFiles
      (ExceptT.adapt .files (ensureDirectoryOf root relative) : ExceptT WriteFault
        (StateM σ) Unit) :=
    (Ends.any _).adapt fun refused _ => ⟨refused, rfl⟩
  have hwrite : Ends (fun _ => True) WriteFault.IsOfFiles (do
      writeRendered (root.join relative) (.ok text)
      return Outcome.written : ExceptT WriteFault (StateM σ) Outcome) :=
    (writeRendered_ends _ text).bind fun _ _ => Ends.pure trivial
  refine hdirectory.bind fun _ _ => ?_
  cases overwrite with
  | always =>
      exact hwrite
  | ifMissing =>
      refine (isPresent_ends (root.join relative)).bind fun isThere _ => ?_
      cases isThere with
      | true => exact Ends.pure trivial
      | false => exact hwrite

namespace Generation

variable {target : Target} {parameters : List Parameter} {templates : Templates}

/-- What can be rendered is written unless a step on files is refused. -/
theorem writeAll_ends
    (hrender : ∀ artifact, ∃ text, Artifact.render target parameters templates artifact = .ok text)
    (root : Path) (artifacts : List Artifact) :
    Ends (fun _ => True) WriteFault.IsOfFiles
      (writeAll root target parameters templates artifacts : ExceptT WriteFault (StateM σ) _) := by
  induction artifacts with
  | nil =>
      exact Ends.pure trivial
  | cons artifact rest ih =>
      obtain ⟨text, htext⟩ := hrender artifact
      rw [writeAll, htext]
      exact (place_ends _ _ _ text).bind fun _ _ => ih.bind fun _ _ => Ends.pure trivial

theorem run_ends
    (hrender : ∀ artifact, ∃ text, Artifact.render target parameters templates artifact = .ok text)
    (root : Path) :
    Ends (fun _ => True) GenerationCause.IsOfFiles
      (run root target parameters templates : ExceptT GenerationCause (StateM σ) Generated) := by
  have hwrite : Ends (fun _ => True) GenerationCause.IsOfFiles
      (ExceptT.adapt .ofWrite (writeAll root target parameters templates Artifact.all) :
        ExceptT GenerationCause (StateM σ) _) := by
    refine (writeAll_ends hrender root Artifact.all).adapt ?_
    rintro _ ⟨refused, rfl⟩
    exact ⟨refused, rfl⟩
  have hremove : Ends (fun _ => True) GenerationCause.IsOfFiles
      (ExceptT.adapt .files (removeObsolete root target) : ExceptT GenerationCause (StateM σ) _) :=
    (Ends.any _).adapt fun refused _ => ⟨refused, rfl⟩
  exact hwrite.bind fun _ _ => hremove.bind fun _ _ => Ends.pure trivial

/-- A run whose files can be rendered ends early for external causes only, and its fault names
the configuration. -/
theorem generate_ends
    (hrender : ∀ artifact, ∃ text, Artifact.render target parameters templates artifact = .ok text)
    (locator : Locator) :
    Ends (fun _ => True) (fun fault => fault.name = target.name ∧ fault.cause.IsExternal)
      (generate locator target parameters templates : ExceptT GenerationFault
        (StateM σ) Generated) := by
  have hpackage : Ends (fun _ => True) GenerationCause.IsExternal
      (ExceptT.adapt .package (locator.resolve target.package) : ExceptT GenerationCause
        (StateM σ) Path) :=
    (Ends.any _).adapt fun missing _ => Or.inl ⟨missing, rfl⟩
  refine Ends.adapt (hpackage.bind fun root _ => ?_) fun cause hcause => ⟨rfl, hcause⟩
  exact (run_ends hrender root).mono fun _ h => Or.inr h

end Generation
end Tunables
