import Tunables.Artifact.Header
import Tunables.Proofs.Template.Positional
import Tunables.Proofs.Text.Lines

/-!
# The header as one text

The header is filled line by line.  That comes to the same as filling its template in one pass, in
which every placeholder takes the values of the line on which it stands: no piece of a template
reaches across a line feed, and a line of its own starts where the line before it ended.

Main statement: `render_eq_fillAt`.
-/

namespace Tunables
namespace Header

open Template (Position)

theorem isSome_ofList (entries : List (String × List Char)) (name : List Char) :
    (Template.Values.ofList entries name).isSome =
      (entries.map Prod.fst).any fun key => key.toList == name := by
  induction entries with
  | nil =>
      rfl
  | cons entry entries ih =>
      rw [Template.Values.ofList] at ih ⊢
      by_cases h : (entry.1.toList == name) = true
      · simp [h]
      · simpa [h] using ih

theorem keys_sharedValues (target : Target) (parameters : List Parameter) :
    (sharedValues target parameters).map Prod.fst =
      ["uname", "configname", "pkgname", "members", "paramdescr", "doline"] := by
  simp only [sharedValues, List.map_cons, List.map_nil]

/-- For which names there are values does not depend on the target and its parameters. -/
theorem isSome_lineValues (path : String) (target target' : Target)
    (parameters parameters' : List Parameter) (line : Nat) (name : List Char) :
    (lineValues path (sharedValues target parameters) line name).isSome =
      (lineValues path (sharedValues target' parameters') line name).isSome := by
  unfold lineValues
  split
  · rfl
  split
  · rfl
  rw [isSome_ofList, isSome_ofList, keys_sharedValues, keys_sharedValues]

/-- Filling the lines of a text comes to the same as filling the text. -/
theorem fillLines_lines (path : String) (shared : List (String × List Char)) (number : Nat)
    (text : List Char) :
    fillLines path shared number (Text.lines text) =
      Template.fillAt path number (lineValues path shared) text := by
  by_cases hfeed : '\n' ∈ text
  · obtain ⟨line, more, rfl, hline⟩ := List.eq_append_cons_of_mem hfeed
    have hpieces : Template.pieces (line ++ ['\n']) = Template.pieces line ++ [.char '\n'] := by
      rw [Template.pieces_append_lineFeed line [], Template.pieces]
    have hposition : ((⟨number, 1⟩ : Position).afterText line).afterText ['\n'] =
        ⟨number + 1, 1⟩ := by
      rw [Position.afterText_lineFeed, Position.line_afterText hline]
    have hsame : Template.fillPiecesAt path (lineValues path shared) ⟨number, 1⟩
        (Template.pieces line) =
          Template.fillPieces path (lineValues path shared number) ⟨number, 1⟩
            (Template.pieces line) :=
      Template.fillPiecesAt_eq_fillPieces _ _ (by rwa [Template.sources_pieces])
    have ih := fillLines_lines path shared (number + 1) more
    rw [Text.lines_append_lineFeed hline, fillLines, ih, Template.fill, hpieces,
      Template.fillPieces_append, Template.fillAt, Template.fillAt,
      Template.pieces_append_lineFeed, Template.fillPiecesAt_append, hsame,
      Template.sources_pieces]
    simp only [Template.fillPiecesAt, Template.fillPieces, Template.Piece.value,
      Template.Piece.source, hposition]
    cases Template.fillPieces path (lineValues path shared number) ⟨number, 1⟩
      (Template.pieces line) with
    | error fault => rfl
    | ok filled =>
        cases Template.fillPiecesAt path (lineValues path shared) ⟨number + 1, 1⟩
          (Template.pieces more) with
        | error fault => rfl
        | ok others => simp [bind, Except.bind, pure, Except.pure]
  · by_cases hnil : text = []
    · rw [hnil, Text.lines, fillLines, Template.fillAt, Template.pieces]
      rfl
    · rw [Text.lines_of_not_mem hnil hfeed, fillLines, fillLines, Template.fill, Template.fillAt,
        Template.fillPiecesAt_eq_fillPieces _ _ (by rwa [Template.sources_pieces])]
      cases Template.fillPieces path (lineValues path shared number) ⟨number, 1⟩
        (Template.pieces text) with
      | error fault => rfl
      | ok filled => simp [bind, Except.bind, pure, Except.pure]
termination_by text.length
decreasing_by
  subst_vars
  simp only [List.length_append, List.length_cons]
  omega

/-- **The header is its template filled in one pass.**  On each line `linenum` stands for the
number of the next line of the template and `filename` for the path of the template, and every
other name has the same value on all lines.  The faults are the same, too, and they do not depend
on the values that are put in. -/
theorem render_eq_fillAt (target : Target) (parameters : List Parameter)
    (template : TemplateSource) :
    render target parameters template =
      Template.fillAt template.path 1
        (fun line name =>
          if name = "linenum".toList then some (Text.numeral (line + 1))
          else if name = "filename".toList then some (Text.escapeLinePath template.path.toList)
          else Template.Values.ofList (sharedValues target parameters) name)
        template.text ∧
    ∀ (target' : Target) (parameters' : List Parameter) (fault : Template.Fault),
      render target parameters template = .error fault ↔
        render target' parameters' template = .error fault := by
  have hrender : ∀ (target : Target) (parameters : List Parameter),
      render target parameters template =
        Template.fillAt template.path 1 (lineValues template.path (sharedValues target parameters))
          template.text := fun target parameters =>
    fillLines_lines template.path (sharedValues target parameters) 1 template.text
  constructor
  · exact hrender target parameters
  · intro target' parameters' fault
    rw [hrender, hrender]
    constructor
    · exact Template.fillPiecesAt_eq_error_congr
        (isSome_lineValues template.path target target' parameters parameters')
    · exact Template.fillPiecesAt_eq_error_congr
        (isSome_lineValues template.path target' target parameters' parameters)

end Header
end Tunables
