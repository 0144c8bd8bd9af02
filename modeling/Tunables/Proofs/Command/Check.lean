import Tunables.Command.Basic
import Tunables.Files.Tree
import Tunables.Proofs.Artifact.Builtin
import Tunables.Proofs.Generation.Outcome

/-!
# What a check says about a generation

With the templates of the library a check foresees how a generation ends.  A generation fails with
the error of the check if there is one; otherwise it gets as far as the files, and it finds there
what a check cannot know.

* `check_predicts_generate`: how a generation ends, said by the check.
-/

namespace Tunables
namespace Command

open Files

section Plans

variable {m : Type → Type} [Monad m] [LawfulMonad m] [FileStore m] {manifest : Manifest}
  {options : GenerateOptions}

omit [LawfulMonad m] in
theorem plan_of_error {fault : DeclarationFault} (h : manifest.parameters = .error fault) :
    (plan manifest options : ExceptT CommandFault m Plan) =
      throw (.parameter manifest.file fault) := by
  rw [plan, h]

/-- No file is looked at for the templates of the library. -/
theorem plan_of_ok {parameters : List Parameter} (hmanifest : manifest.templates = none)
    (hoptions : options.templates = none) (h : manifest.parameters = .ok parameters) :
    (plan manifest options : ExceptT CommandFault m Plan) =
      pure ⟨manifest.target, parameters, Templates.builtin⟩ := by
  have htemplates : (templates manifest options : ExceptT CommandFault m Templates) =
      pure Templates.builtin := by
    rw [templates, templateDirectory?, hmanifest, hoptions]
  rw [plan, h]
  simp only [htemplates, pure_bind]

end Plans

section Reports

variable {manifest : Manifest} (config : Path)

theorem check_of_ok {parameters : List Parameter} (h : manifest.parameters = .ok parameters) :
    (check manifest config).errors = [] ∧
      (check manifest config).warnings = warnings parameters := by
  rw [check, h]
  exact ⟨rfl, rfl⟩

theorem check_of_error {fault : DeclarationFault} (h : manifest.parameters = .error fault) :
    (check manifest config).errors = [fault.message.toList] := by
  rw [check, h]

end Reports

section Runs

variable {σ : Type} [FileStore (StateM σ)] {manifest : Manifest} {options : GenerateOptions}

/-- A declaration that is not accepted ends a generation before anything is done. -/
theorem generate_of_error {fault : DeclarationFault} (h : manifest.parameters = .error fault)
    (state : σ) :
    runFrom state (generate manifest options) =
      (.error (.parameter manifest.file fault), state) := by
  rw [generate, plan_of_error h]
  rfl

theorem generate_of_ok {parameters : List Parameter} (hmanifest : manifest.templates = none)
    (hoptions : options.templates = none) (h : manifest.parameters = .ok parameters) :
    (generate manifest options : ExceptT CommandFault (StateM σ) GenerateReport) =
      Plan.execute ⟨manifest.target, parameters, Templates.builtin⟩ options := by
  rw [generate, plan_of_ok hmanifest hoptions h, pure_bind]

/-- A dry run renders all files and looks at none. -/
theorem execute_of_isDryRun {plan : Plan} {files : List Artifact.Preview}
    (hdry : options.isDryRun = true)
    (hfiles : Artifact.previews plan.target plan.parameters plan.templates = .ok files) :
    (plan.execute options : ExceptT CommandFault (StateM σ) GenerateReport) =
      pure ⟨warnings plan.parameters, .previewed files⟩ := by
  rw [Plan.execute, if_pos hdry, hfiles]

/-- Where a package is looked for is always known. -/
theorem locator_ends {ε : Type} {allowed : ε → Prop} (packageDirectory : Option Path)
    (searchPath : Option String) :
    Ends (fun _ => True) allowed
      (locator packageDirectory searchPath : ExceptT ε (StateM σ) Locator) := by
  cases packageDirectory with
  | some path =>
      exact Ends.pure trivial
  | none =>
      rw [locator, Locator.ofSearchPath]
      split
      · exact (Ends.lift FileStore.workingDirectory).bind fun _ _ => Ends.pure trivial
      · exact Ends.pure trivial

/-- A fault of a generation that comes from outside of the program: the package was not found, or a
step on files was refused.  A dry run has no such faults. -/
def IsExternal (options : GenerateOptions) (name : String) (fault : CommandFault) : Prop :=
  options.isDryRun = false ∧ ∃ cause, fault = .generation ⟨name, cause⟩ ∧ cause.IsExternal

/-- A plan whose files can be rendered only fails at the files. -/
theorem execute_ends {plan : Plan}
    (hrender : ∀ artifact, ∃ text,
      Artifact.render plan.target plan.parameters plan.templates artifact = .ok text)
    (options : GenerateOptions) :
    Ends (fun report => report.warnings = warnings plan.parameters)
      (IsExternal options plan.target.name)
      (plan.execute options : ExceptT CommandFault (StateM σ) GenerateReport) := by
  by_cases hdry : options.isDryRun = true
  · obtain ⟨files, hfiles⟩ := Artifact.exists_previews hrender
    rw [execute_of_isDryRun hdry hfiles]
    exact Ends.pure rfl
  · have hgenerate : ∀ locator, Ends (fun _ => True) (IsExternal options plan.target.name)
        (ExceptT.adapt .generation
          (Generation.generate locator plan.target plan.parameters plan.templates) :
          ExceptT CommandFault (StateM σ) Generated) := by
      intro locator
      refine (Generation.generate_ends hrender locator).adapt ?_
      rintro ⟨name, cause⟩ ⟨rfl, hcause⟩
      exact ⟨Bool.eq_false_iff.mpr hdry, cause, rfl, hcause⟩
    rw [Plan.execute, if_neg hdry]
    exact (locator_ends _ _).bind fun locator _ => (hgenerate locator).bind fun _ _ => Ends.pure rfl

/-- With parameters that are accepted and the templates of the library, a generation only
fails at the files. -/
theorem generate_ends {parameters : List Parameter} (hmanifest : manifest.templates = none)
    (hoptions : options.templates = none) (h : manifest.parameters = .ok parameters) :
    Ends (fun report => report.warnings = warnings parameters)
      (IsExternal options manifest.target.name)
      (generate manifest options : ExceptT CommandFault (StateM σ) GenerateReport) := by
  rw [generate_of_ok hmanifest hoptions h]
  exact execute_ends (Artifact.exists_render_builtin manifest.target parameters) options

/-- **A check foresees a generation.**  It finds no error exactly if a dry run succeeds, and
its warnings are those of any generation that succeeds.  An error that it finds is the cause
for which every generation fails, before anything is done.  If it finds none, a generation
can only fail because the package is not found or a step on files is refused, and a dry run
cannot even do that. -/
theorem check_predicts_generate (manifest : Manifest) (config : Path) (options : GenerateOptions)
    (state : σ) (hmanifest : manifest.templates = none) (hoptions : options.templates = none) :
    (options.isDryRun = true →
      ((check manifest config).errors = [] ↔
        ∃ report, (runFrom state (generate manifest options)).1 = .ok report)) ∧
    (∀ report, (runFrom state (generate manifest options)).1 = .ok report →
      report.warnings = (check manifest config).warnings) ∧
    (∀ text ∈ (check manifest config).errors,
      ∃ fault, runFrom state (generate manifest options) = (.error fault, state) ∧
        fault.chain = [.words ("Invalid parameter in ".toList ++ manifest.file.toList),
          .words text]) ∧
    ((check manifest config).errors = [] →
      ∀ fault, (runFrom state (generate manifest options)).1 = .error fault →
        options.isDryRun = false ∧
          ((∃ missing, fault = .generation ⟨manifest.target.name, .package missing⟩) ∨
            ∃ refused, fault = .generation ⟨manifest.target.name, .files refused⟩)) := by
  cases hparameters : manifest.parameters with
  | error declined =>
      rw [check_of_error config hparameters, generate_of_error hparameters]
      refine ⟨fun _ => iff_of_false (List.cons_ne_nil _ _) ?_, ?_, ?_,
        fun h => absurd h (List.cons_ne_nil _ _)⟩
      · rintro ⟨_, ⟨⟩⟩
      · rintro _ ⟨⟩
      · intro text htext
        rw [List.mem_singleton.mp htext]
        exact ⟨_, rfl, rfl⟩
  | ok parameters =>
      obtain ⟨herrors, hwarnings⟩ := check_of_ok config hparameters
      have hends := @generate_ends σ _ manifest options _ hmanifest hoptions hparameters
      rw [herrors, hwarnings]
      refine ⟨fun hdry => iff_of_true rfl ?_, fun report => hends.good_of_eq_ok,
        fun _ h => absurd h List.not_mem_nil, fun _ fault hfault => ?_⟩
      · obtain ⟨files, hfiles⟩ :=
          Artifact.exists_previews (Artifact.exists_render_builtin manifest.target parameters)
        rw [generate_of_ok hmanifest hoptions hparameters, execute_of_isDryRun hdry hfiles]
        exact ⟨_, rfl⟩
      · obtain ⟨hdry, cause, rfl, ⟨missing, rfl⟩ | ⟨refused, rfl⟩⟩ :=
          hends.allowed_of_eq_error hfault
        · exact ⟨hdry, Or.inl ⟨missing, rfl⟩⟩
        · exact ⟨hdry, Or.inr ⟨refused, rfl⟩⟩

/-- A manifest with one parameter, which has dollar signs in its description and the given
default. -/
def priced (default : Value) : Manifest :=
  ⟨⟨"robot", "drive", "Gain"⟩, none,
    [⟨⟨"mode", .str, 0, "$5 for $\x7buname\x7d, $$ or $", some default, none, none, ""⟩, 6⟩],
    "a.toml"⟩

/-- The text of the description is not read as a template, and a default of another kind is found
by both commands. -/
theorem check_predicts_generate_priced :
    (∃ report,
      (runFrom (⟨[], []⟩ : Tree)
        (generate (priced (.text "$x")) ⟨⟨"a.toml".toList⟩, none, none, true, none⟩)).1 =
        .ok report) ∧
    ∃ fault,
      runFrom (⟨[], []⟩ : Tree)
        (generate (priced (.int 3)) ⟨⟨"a.toml".toList⟩, none, none, false, none⟩) =
        (.error fault, ⟨[], []⟩) ∧
      fault.chain = [.words ("Invalid parameter in ".toList ++ "a.toml".toList),
        .words (DeclarationFault.type "mode" .str .default (.int 3)).message.toList] := by
  have hvalid : (check (priced (.text "$x")) ⟨[]⟩).errors = [] :=
    (check_of_ok ⟨[]⟩ rfl).1
  have herror : (DeclarationFault.type "mode" .str .default (.int 3)).message.toList ∈
      (check (priced (.int 3)) ⟨[]⟩).errors := by
    rw [check_of_error ⟨[]⟩ rfl]
    exact List.mem_singleton_self _
  constructor
  · exact ((check_predicts_generate _ _ _ _ rfl rfl).1 rfl).mp hvalid
  · exact (check_predicts_generate _ _ _ _ rfl rfl).2.2.1 _ herror

end Runs

end Command
end Tunables
