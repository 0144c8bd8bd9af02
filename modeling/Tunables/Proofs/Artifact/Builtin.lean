import Tunables.Artifact.Basic
import Tunables.Proofs.Artifact.Header
import Tunables.Template.Builtin

/-!
# The templates that come with the library

A template can be filled, whatever the values are, if every dollar sign begins a placeholder and
every placeholder has a name for which there is a value.  For the header and for the module it is
known beforehand which names those are, and the templates of the library have no others.

* `Header.exists_render`, `Scripting.exists_render`: a template without other names can be filled
  for every target and all parameters.
* `Artifact.exists_render_builtin`: so all files can be rendered with the templates of the library.
-/

namespace Tunables

namespace Template

/-- A piece that stands for a text as soon as there are values for the given names. -/
def Piece.isCovered (names : List String) : Piece → Bool
  | .char _ | .dollar => true
  | .bare name | .braced name => names.any fun key => key.toList == name
  | .stray => false

section Covered

variable {template : String} {names : List String}

theorem Piece.exists_value {values : Values} {piece : Piece} {position : Position}
    (hvalues : ∀ name, (names.any fun key => key.toList == name) = true →
      (values name).isSome = true)
    (hpiece : piece.isCovered names = true) :
    ∃ text, piece.value template values position = .ok text := by
  cases piece with
  | char c =>
      exact ⟨[c], rfl⟩
  | dollar =>
      exact ⟨['$'], rfl⟩
  | stray =>
      cases hpiece
  | bare name | braced name =>
      obtain ⟨text, htext⟩ := Option.isSome_iff_exists.mp (hvalues name hpiece)
      exact ⟨text, by rw [value, htext]⟩

/-- Covered pieces can be filled. -/
theorem exists_fillPiecesAt {values : Nat → Values} {pieces : List Piece} {position : Position}
    (hvalues : ∀ line name, (names.any fun key => key.toList == name) = true →
      (values line name).isSome = true)
    (hpieces : ∀ piece ∈ pieces, piece.isCovered names = true) :
    ∃ text, fillPiecesAt template values position pieces = .ok text := by
  induction pieces generalizing position with
  | nil =>
      exact ⟨[], rfl⟩
  | cons piece rest ih =>
      rw [List.forall_mem_cons] at hpieces
      obtain ⟨text, htext⟩ := Piece.exists_value (hvalues position.line) hpieces.1
      obtain ⟨others, hothers⟩ := ih hpieces.2
      rw [fillPiecesAt]
      exact ⟨text ++ others, except_bind_eq_ok_iff.mpr
        ⟨text, htext, except_bind_eq_ok_iff.mpr ⟨others, hothers, rfl⟩⟩⟩

/-- A text is covered if all its lines are. -/
theorem forall_mem_pieces_ofLines {lines : List String}
    (h : ∀ line ∈ lines, ((pieces line.toList).all (Piece.isCovered names)) = true) :
    ∀ piece ∈ pieces (Templates.ofLines lines), piece.isCovered names = true := by
  induction lines with
  | nil =>
      intro piece hpiece
      rw [Templates.ofLines, List.flatMap_nil, pieces] at hpiece
      cases hpiece
  | cons line rest ih =>
      rw [List.forall_mem_cons, List.all_eq_true] at h
      rw [pieces_ofLines_cons, List.forall_mem_append, List.forall_mem_cons]
      exact ⟨h.1, rfl, ih h.2⟩

end Covered
end Template

namespace Header

/-- The names for which there are values in the template of the header. -/
def names : List String :=
  ["linenum", "filename", "uname", "configname", "pkgname", "members", "paramdescr", "doline"]

theorem isSome_lineValues_of_mem {path : String} {target : Target} {parameters : List Parameter}
    (line : Nat) (name : List Char) (h : (names.any fun key => key.toList == name) = true) :
    (lineValues path (sharedValues target parameters) line name).isSome = true := by
  unfold lineValues
  split
  · rfl
  · split
    · rfl
    · next hline hfile =>
      rw [names, List.any_cons, List.any_cons, beq_eq_false_iff_ne.mpr (Ne.symm hline),
        beq_eq_false_iff_ne.mpr (Ne.symm hfile), Bool.false_or, Bool.false_or] at h
      rwa [isSome_ofList, keys_sharedValues]

/-- A template without other names can be filled for every target and all parameters. -/
theorem exists_render {template : TemplateSource}
    (h : ∀ piece ∈ Template.pieces template.text, piece.isCovered names = true) (target : Target)
    (parameters : List Parameter) : ∃ text, render target parameters template = .ok text := by
  rw [render, fillLines_lines]
  exact Template.exists_fillPiecesAt isSome_lineValues_of_mem h

/-- The template of the library has no other names. -/
theorem isCovered_of_mem_builtin :
    ∀ piece ∈ Template.pieces Templates.builtin.header.text, piece.isCovered names = true := by
  apply Template.forall_mem_pieces_ofLines
  unfold Templates.headerLines
  set_option maxRecDepth 2000 in
  simp only [List.forall_mem_cons, List.not_mem_nil, false_implies, implies_true, and_true,
    String.toList_append]
  repeat' apply And.intro
  all_goals repeat rw [String.toList_ofList]
  all_goals decide +kernel

end Header

namespace Scripting

/-- The names for which there are values in the template of the module. -/
def names : List String :=
  ["name", "pkgname", "pycfgdata"]

theorem keys_values (target : Target) (parameters : List Parameter) :
    (values target parameters).map Prod.fst = names := by
  simp only [values, names, List.map_cons, List.map_nil]

/-- A template without other names can be filled for every target and all parameters. -/
theorem exists_render {template : TemplateSource}
    (h : ∀ piece ∈ Template.pieces template.text, piece.isCovered names = true) (target : Target)
    (parameters : List Parameter) : ∃ text, render target parameters template = .ok text := by
  rw [render, ← Template.fillAt_const]
  refine Template.exists_fillPiecesAt (fun _ name hname => ?_) h
  rwa [Header.isSome_ofList, keys_values]

/-- The template of the library has no other names. -/
theorem isCovered_of_mem_builtin :
    ∀ piece ∈ Template.pieces Templates.builtin.scripting.text, piece.isCovered names = true := by
  apply Template.forall_mem_pieces_ofLines
  unfold Templates.moduleLines
  simp only [List.forall_mem_cons, List.not_mem_nil, false_implies, implies_true, and_true]
  repeat' apply And.intro
  all_goals rw [String.toList_ofList]; decide +kernel

end Scripting

namespace Artifact

/-- Every file can be rendered with the templates of the library. -/
theorem exists_render_builtin (target : Target) (parameters : List Parameter)
    (artifact : Artifact) :
    ∃ text, artifact.render target parameters Templates.builtin = .ok text := by
  cases artifact with
  | header =>
      exact Header.exists_render Header.isCovered_of_mem_builtin target parameters
  | scripting =>
      exact Scripting.exists_render Scripting.isCovered_of_mem_builtin target parameters
  | reference =>
      exact ⟨Reference.render parameters, rfl⟩
  | usage =>
      exact ⟨Usage.render target parameters, rfl⟩
  | marker =>
      exact ⟨[], rfl⟩

/-- What can be rendered can be shown beforehand. -/
theorem exists_previews {target : Target} {parameters : List Parameter} {templates : Templates}
    (hrender : ∀ artifact, ∃ text,
      Artifact.render target parameters templates artifact = .ok text) :
    ∃ files, previews target parameters templates = .ok files := by
  choose text htext using hrender
  refine ⟨all.map fun artifact => ⟨artifact.path target, text artifact⟩, ?_⟩
  rw [previews, except_mapM_eq_ok_iff, List.forall₂_map_right_iff, List.forall₂_same]
  intro artifact _
  rw [preview, htext]
  rfl

end Artifact
end Tunables
