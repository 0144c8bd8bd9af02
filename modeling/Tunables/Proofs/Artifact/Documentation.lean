import Mathlib
import Tunables.Artifact.Documentation
import Tunables.Proofs.Manifest
import Tunables.Proofs.Text.Lines
import Tunables.Proofs.Text.Markup

/-!
# The lines of the documentation

Both fragments are made of lines, and Doxygen reads them by lines.  Descriptions and defaults are
free texts: they may have line breaks, and they may look like lines of the fragment.

* `documentation_isOrdered`: the reference has one line for each parameter whatever these texts are,
  and in the example no text looks like the beginning of an element.
* `Usage.length_lines_render`: the example has one line more for each line feed in a default, since
  escaping keeps them.
* `Usage.isSnippet_iff`: so there is one line for each parameter just if no default has a line feed,
  and the block ends where it should just if no text has the command that ends it.
-/

namespace Tunables

theorem IsIdentifier.not_escapesMarkup {name : List Char} (h : IsIdentifier name) :
    ∀ c ∈ name, ¬ Text.escapesMarkup c := by
  rintro c hc (rfl | rfl | rfl | rfl) <;> exact h.not_mem (by decide) hc

/-- A tag has nothing that a name could not have. -/
theorem Kind.isIdentifier_tag (kind : Kind) : IsIdentifier kind.tag.toList := by
  refine (IdentifierFault.of?_eq_none_iff _).mp ?_
  cases kind <;> decide

/-- What is found in a list, but not in its beginning and its end, stands between them. -/
theorem between_of_getElem? {α : Type} {front middle back : List α} {k : Nat} {x : α}
    (h : (front ++ middle ++ back)[k]? = some x) (hfront : x ∉ front) (hback : x ∉ back) :
    front.length ≤ k ∧ k < front.length + middle.length := by
  constructor
  · refine Nat.le_of_not_lt fun hk => hfront ?_
    rw [List.append_assoc, List.getElem?_append_left hk] at h
    exact List.mem_of_getElem? h
  · refine Nat.lt_of_not_le fun hk => hback ?_
    rw [← List.length_append] at hk
    rw [List.getElem?_append_right hk] at h
    exact List.mem_of_getElem? h

namespace Script

/-- Each piece of a file is cut into lines for itself. -/
theorem lines_body (pieces : List (List Char)) :
    Text.lines (body pieces) = pieces.flatMap fun piece => Text.lines (piece ++ ['\n']) := by
  induction pieces with
  | nil =>
      rfl
  | cons piece pieces ih =>
      have hbody : body (piece :: pieces) = piece ++ '\n' :: body pieces := by
        simp [body]
      rw [hbody, Text.lines_append, ih, List.flatMap_cons]

theorem length_lines_body (pieces : List (List Char)) :
    (Text.lines (body pieces)).length = pieces.length + (pieces.map Text.lineFeeds).sum := by
  induction pieces with
  | nil =>
      rfl
  | cons piece pieces ih =>
      rw [lines_body] at ih ⊢
      rw [List.flatMap_cons, List.length_append, ih, Text.length_lines, List.length_cons,
        List.map_cons, List.sum_cons]
      omega

/-- Pieces without line feeds are the lines. -/
theorem lines_body_of_not_mem {pieces : List (List Char)} (h : ∀ piece ∈ pieces, '\n' ∉ piece) :
    Text.lines (body pieces) = pieces.map (· ++ ['\n']) := by
  induction pieces with
  | nil =>
      rfl
  | cons piece pieces ih =>
      obtain ⟨hpiece, hpieces⟩ := List.forall_mem_cons.mp h
      rw [lines_body] at ih ⊢
      rw [List.flatMap_cons, ih hpieces, Text.lines_append_lineFeed hpiece]
      rfl

end Script

namespace Reference

/-- How the line about a parameter begins. -/
def heading (parameter : Parameter) : List Char :=
  "- \\b \"~".toList ++ parameter.name.toList ++ "\" : \\b [".toList ++ parameter.kind.tag.toList ++
    "] ".toList

/-- The reference has one line for each parameter, in their order, and no other line looks
like one of them. -/
structure IsOrdered (parameters : List Parameter) : Prop where
  length : (Text.lines (render parameters)).length = parameters.length + 5
  record : ∀ k (h : k < parameters.length),
    (Text.lines (render parameters))[k + 4]? = some (record parameters[k] ++ ['\n']) ∧
      heading parameters[k] <+: record parameters[k]
  others : ∀ k line, (Text.lines (render parameters))[k]? = some line → "- ".toList <+: line →
    4 ≤ k ∧ k < parameters.length + 4
  unbroken : '\r' ∉ render parameters

theorem heading_prefix (parameter : Parameter) : heading parameter <+: record parameter := by
  unfold record heading
  simp only [List.append_assoc, List.prefix_append_right_inj, List.prefix_append]

theorem not_mem_record {parameter : Parameter} (h : IsIdentifier parameter.name.toList) {c : Char}
    (hc : isNamePart c = false) (htext : ∀ text, c ∉ Text.singleLine text)
    (hfixed : c ∉ "- \\b \"~:[]min,defaultx".toList) : c ∉ record parameter := by
  have hname := h.not_mem hc
  have htag := parameter.kind.isIdentifier_tag.not_mem hc
  unfold record
  simp at hfixed
  simp [hname, htag, htext, hfixed]

theorem not_isLineBreak_record {parameter : Parameter} (h : IsIdentifier parameter.name.toList) :
    '\n' ∉ record parameter ∧ '\r' ∉ record parameter := by
  constructor
  · exact not_mem_record h (by decide) (fun text => (Text.not_mem_singleLine text).1) (by decide)
  · exact not_mem_record h (by decide) (fun text => (Text.not_mem_singleLine text).2) (by decide)

section

variable {parameters : List Parameter}
  (hnames : ∀ parameter ∈ parameters, IsIdentifier parameter.name.toList)

include hnames

theorem lines_render : Text.lines (render parameters) = (lines parameters).map (· ++ ['\n']) := by
  apply Script.lines_body_of_not_mem
  simp only [lines, List.forall_mem_append, List.forall_mem_map]
  refine ⟨⟨by decide, ?_⟩, by decide⟩
  exact fun parameter hmem => (not_isLineBreak_record (hnames parameter hmem)).1

theorem isOrdered : IsOrdered parameters where
  length := by
    rw [lines_render hnames]
    simp [lines]
  record := by
    intro k hk
    rw [lines_render hnames]
    exact ⟨by simp [lines, List.getElem?_append_left, hk], heading_prefix _⟩
  others := by
    intro k line hline hbullet
    rw [lines_render hnames, List.getElem?_map, Option.map_eq_some_iff] at hline
    obtain ⟨piece, hpiece, rfl⟩ := hline
    have hfront : ∀ piece ∈ ["\\subsubsection parameters ROS parameters".toList, [],
        "Reads and maintains the following parameters on the ROS server".toList, []],
        ¬ "- ".toList <+: piece ++ ['\n'] := by
      decide
    have hback : ∀ piece ∈ [([] : List Char)], ¬ "- ".toList <+: piece ++ ['\n'] := by
      decide
    have hbetween := between_of_getElem? hpiece (fun hmem => hfront piece hmem hbullet)
      (fun hmem => hback piece hmem hbullet)
    simpa [Nat.add_comm] using hbetween
  unbroken := by
    intro hmem
    rw [render, Script.body, List.mem_flatMap] at hmem
    obtain ⟨piece, hpiece, hreturn⟩ := hmem
    have hpieces : ∀ piece ∈ lines parameters, '\r' ∉ piece := by
      simp only [lines, List.forall_mem_append, List.forall_mem_map]
      refine ⟨⟨by decide, ?_⟩, by decide⟩
      exact fun parameter hmem => (not_isLineBreak_record (hnames parameter hmem)).2
    simp [hpieces piece hpiece] at hreturn

end

end Reference

namespace Usage

section Elements

/-- How the element of a parameter begins. -/
def heading (parameter : Parameter) : List Char :=
  "  <param name=\"".toList ++ parameter.name.toList ++ "\" type=\"".toList ++
    parameter.kind.tag.toList ++ "\" ".toList

/-- Whether a line begins like an element. -/
def opensElement (line : List Char) : Bool :=
  "  <param name=\"".toList.isPrefixOf line

theorem element_eq {parameter : Parameter} (h : IsIdentifier parameter.name.toList) :
    element parameter =
      heading parameter ++
        ("value=\"".toList ++ Text.escapeXml parameter.default.doc ++ "\" />".toList) := by
  unfold element property heading
  rw [Text.escapeXml_plain h.not_escapesMarkup,
    Text.escapeXml_plain parameter.kind.isIdentifier_tag.not_escapesMarkup]
  simp

theorem not_mem_heading {parameter : Parameter} (h : IsIdentifier parameter.name.toList) :
    '\n' ∉ heading parameter := by
  have hname : '\n' ∉ parameter.name.toList := h.not_mem (by decide)
  have htag : '\n' ∉ parameter.kind.tag.toList :=
    parameter.kind.isIdentifier_tag.not_mem (by decide)
  unfold heading
  simp [hname, htag]

theorem filter_lines_of_not_mem {text : List Char} (h : '<' ∉ text) :
    (Text.lines text).filter opensElement = [] := by
  refine List.filter_eq_nil_iff.mpr fun line hline hopens => h ?_
  have hmem : '<' ∈ line :=
    (List.isPrefixOf_iff_prefix.mp hopens).subset (by decide)
  exact Text.mem_of_mem_lines hline hmem

/-- Where no tag can begin, only the first line can look like an element. -/
theorem filter_lines_append {front text : List Char} (hfront : '\n' ∉ front) (htext : '<' ∉ text) :
    ∃ line, front <+: line ∧
      (Text.lines (front ++ text ++ ['\n'])).filter opensElement = [line].filter opensElement := by
  obtain ⟨line, others, hlines⟩ :=
    List.exists_cons_of_ne_nil (Text.lines_ne_nil (List.concat_ne_nil '\n' text))
  have hothers : others.filter opensElement = [] := by
    have hnone : (Text.lines (text ++ ['\n'])).filter opensElement = [] :=
      filter_lines_of_not_mem (by simp [htext])
    rw [hlines] at hnone
    exact List.filter_eq_nil_iff.mpr fun other hother =>
      List.filter_eq_nil_iff.mp hnone other (List.mem_cons_of_mem _ hother)
  refine ⟨front ++ line, List.prefix_append _ _, ?_⟩
  rw [List.append_assoc, Text.lines_append_of_not_mem hfront hlines, ← List.singleton_append,
    List.filter_append, hothers, List.append_nil]

theorem filter_lines_opening (target : Target) :
    (Text.lines (opening target ++ ['\n'])).filter opensElement = [] := by
  have htext : '<' ∉ Text.escapeXml target.node.toList ++ "\" pkg=\"".toList ++
      Text.escapeXml target.package.toList ++ "\" type=\"".toList ++
        Text.escapeXml target.node.toList ++ "\">".toList := by
    simp [Text.not_mem_escapeXml]
  have hopening : opening target =
      "<node name=\"".toList ++ (Text.escapeXml target.node.toList ++ "\" pkg=\"".toList ++
      Text.escapeXml target.package.toList ++ "\" type=\"".toList ++
      Text.escapeXml target.node.toList ++
      "\">".toList) := by
    unfold opening property
    simp
  have hfront : '\n' ∉ "<node name=\"".toList := by
    decide
  obtain ⟨line, ⟨rest, rfl⟩, hfilter⟩ := filter_lines_append hfront htext
  rw [hopening, hfilter]
  rfl

theorem filter_lines_element {parameter : Parameter} (h : IsIdentifier parameter.name.toList) :
    ∃ line, heading parameter <+: line ∧
      (Text.lines (element parameter ++ ['\n'])).filter opensElement = [line] := by
  have htext : '<' ∉ "value=\"".toList ++ Text.escapeXml parameter.default.doc ++
      "\" />".toList := by
    simp [Text.not_mem_escapeXml]
  obtain ⟨line, hstart, hfilter⟩ := filter_lines_append (not_mem_heading h) htext
  have hopens : opensElement line = true := by
    refine List.isPrefixOf_iff_prefix.mpr (List.IsPrefix.trans ?_ hstart)
    unfold heading
    simp
  refine ⟨line, hstart, ?_⟩
  rw [element_eq h, hfilter]
  simp [hopens]

/-- The lines that look like elements are the elements. -/
theorem forall₂_heading (target : Target) {parameters : List Parameter}
    (hnames : ∀ parameter ∈ parameters, IsIdentifier parameter.name.toList) :
    List.Forall₂ (fun parameter line => heading parameter <+: line) parameters
      ((Text.lines (render target parameters)).filter opensElement) := by
  have hbefore :
      (Text.lines ("\\subsubsection usage Usage".toList ++ ['\n'])).filter opensElement = [] ∧
      (Text.lines ("\\verbatim".toList ++ ['\n'])).filter opensElement = [] := by
    decide
  have hbehind : (["</node>".toList, "\\endverbatim".toList, []].flatMap fun piece =>
      (Text.lines (piece ++ ['\n'])).filter opensElement) = [] := by
    decide
  have hlines : (Text.lines (render target parameters)).filter opensElement =
      parameters.flatMap fun parameter =>
        (Text.lines (element parameter ++ ['\n'])).filter opensElement := by
    rw [render, Script.lines_body, List.filter_flatMap, lines, List.flatMap_append,
      List.flatMap_append, hbehind, List.flatMap_map]
    simp only [List.flatMap_cons, List.flatMap_nil, hbefore, filter_lines_opening, List.nil_append,
      List.append_nil]
  rw [hlines]
  clear hlines
  induction parameters with
  | nil =>
      exact .nil
  | cons parameter parameters ih =>
      obtain ⟨hname, hothers⟩ := List.forall_mem_cons.mp hnames
      obtain ⟨line, hstart, hline⟩ := filter_lines_element hname
      rw [List.flatMap_cons, hline]
      exact .cons hstart (ih hothers)

end Elements

end Usage

/-- Whatever the descriptions and defaults are, the lines about the parameters are as many as the
parameters, and in their order. -/
theorem documentation_isOrdered (target : Target) {parameters : List Parameter}
    (hnames : ∀ parameter ∈ parameters, IsIdentifier parameter.name.toList) :
    Reference.IsOrdered parameters ∧
      List.Forall₂ (fun parameter line => Usage.heading parameter <+: line) parameters
        ((Text.lines (Usage.render target parameters)).filter Usage.opensElement) :=
  ⟨Reference.isOrdered hnames, Usage.forall₂_heading target hnames⟩

/-- A description and a default that imitate lines of the documentation. -/
theorem documentation_isOrdered_forged :
    Reference.IsOrdered [⟨"frame", .str "a\n  <param name=\"rate\"", 0, "id\n- \\b \"~rate\"", "",
      ⟨"a.toml", 1⟩⟩] ∧
      List.Forall₂ (fun parameter line => Usage.heading parameter <+: line)
        [⟨"frame", .str "a\n  <param name=\"rate\"", 0, "id\n- \\b \"~rate\"", "", ⟨"a.toml", 1⟩⟩]
        ((Text.lines (Usage.render ⟨"robot", "node", "Gain"⟩
          [⟨"frame", .str "a\n  <param name=\"rate\"", 0, "id\n- \\b \"~rate\"", "",
            ⟨"a.toml", 1⟩⟩])).filter
            Usage.opensElement) := by
  refine documentation_isOrdered ⟨"robot", "node", "Gain"⟩ ?_
  intro parameter hmem
  rw [List.mem_singleton.mp hmem]
  exact (IdentifierFault.of?_eq_none_iff _).mp (by decide)

namespace Usage

section Snippet

/-- The command that ends the block. -/
def closing : List Char :=
  '\\' :: "endverbatim".toList

/-- An element on one line that sets a parameter to its default. -/
def Sets (parameter : Parameter) (line : List Char) : Prop :=
  ∃ name kind value,
    line = "  <param name=\"".toList ++ name ++ "\" type=\"".toList ++ kind ++
      "\" value=\"".toList ++ value ++ "\" />\n".toList ∧
    Text.readAttribute name = some parameter.name.toList ∧
    Text.readAttribute kind = some parameter.kind.tag.toList ∧
    Text.readAttribute value = some parameter.default.doc

/-- Each parameter has one line of its own, and the block ends behind them. -/
structure IsSnippet (target : Target) (parameters : List Parameter) : Prop where
  length : (Text.lines (render target parameters)).length = parameters.length + 6
  records : ∀ k (h : k < parameters.length),
    ∃ line, (Text.lines (render target parameters))[k + 3]? = some line ∧ Sets parameters[k] line
  closes : (Text.lines (render target parameters))[parameters.length + 4]? =
    some (closing ++ ['\n'])
  others : ∀ k line, (Text.lines (render target parameters))[k]? = some line → closing <:+: line →
    k = parameters.length + 4

/-- No text breaks a line or ends the block. -/
structure IsTame (target : Target) (parameters : List Parameter) : Prop where
  unbroken : ∀ parameter ∈ parameters, '\n' ∉ parameter.default.doc
  defaults : ∀ parameter ∈ parameters, ¬ closing <:+: parameter.default.doc
  node : ¬ closing <:+: target.node.toList
  package : ¬ closing <:+: target.package.toList

theorem sets_element (parameter : Parameter) : Sets parameter (element parameter ++ ['\n']) := by
  refine ⟨Text.escapeXml parameter.name.toList, Text.escapeXml parameter.kind.tag.toList,
    Text.escapeXml parameter.default.doc, ?_, Text.readAttribute_escapeXml _,
    Text.readAttribute_escapeXml _,
    Text.readAttribute_escapeXml _⟩
  unfold element property
  simp

theorem lineFeeds_property {name : String} (h : '\n' ∉ name.toList) (value : List Char) :
    Text.lineFeeds (property name value) = Text.lineFeeds value := by
  have hname : Text.lineFeeds (' ' :: name.toList ++ "=\"".toList) = 0 :=
    Text.lineFeeds_eq_zero_iff.mpr (by simp [h])
  have hquote : Text.lineFeeds ['"'] = 0 := by
    decide
  unfold property
  rw [Text.lineFeeds_append, Text.lineFeeds_append, hname, hquote, Text.lineFeeds_escapeXml,
    Nat.zero_add, Nat.add_zero]

theorem lineFeeds_element {parameter : Parameter} (h : IsIdentifier parameter.name.toList) :
    Text.lineFeeds (element parameter) = Text.lineFeeds parameter.default.doc := by
  have hname : Text.lineFeeds parameter.name.toList = 0 :=
    Text.lineFeeds_eq_zero_iff.mpr (h.not_mem (by decide))
  have htag : Text.lineFeeds parameter.kind.tag.toList = 0 :=
    Text.lineFeeds_eq_zero_iff.mpr (parameter.kind.isIdentifier_tag.not_mem (by decide))
  have hfixed : Text.lineFeeds "  <param".toList = 0 ∧ Text.lineFeeds " />".toList = 0 := by
    decide
  unfold element
  simp only [Text.lineFeeds_append, lineFeeds_property (by decide : '\n' ∉ "name".toList),
    lineFeeds_property (by decide : '\n' ∉ "type".toList),
    lineFeeds_property (by decide : '\n' ∉ "value".toList), hname, htag,
    hfixed, Nat.zero_add, Nat.add_zero]

theorem lineFeeds_opening {target : Target} (hnode : '\n' ∉ target.node.toList)
    (hpackage : '\n' ∉ target.package.toList) : Text.lineFeeds (opening target) = 0 := by
  have hfixed : Text.lineFeeds "<node".toList = 0 ∧ Text.lineFeeds ['>'] = 0 := by
    decide
  unfold opening
  simp only [Text.lineFeeds_append, lineFeeds_property (by decide : '\n' ∉ "name".toList),
    lineFeeds_property (by decide : '\n' ∉ "pkg".toList),
    lineFeeds_property (by decide : '\n' ∉ "type".toList),
    Text.lineFeeds_eq_zero_iff.mpr hnode, Text.lineFeeds_eq_zero_iff.mpr hpackage, hfixed,
    Nat.add_zero]

theorem closing_infix_append_iff {front : List Char} (h : '\\' ∉ front) (text : List Char) :
    closing <:+: front ++ text ↔ closing <:+: text :=
  Text.infix_append_of_not_mem h text

/-- The command occurs in an attribute just if it occurs in its text. -/
theorem closing_infix_property_iff {name : String} (h : '\\' ∉ name.toList)
    (value more : List Char) :
    closing <:+: property name value ++ more ↔ closing <:+: value ∨ closing <:+: more := by
  have hproperty : property name value ++ more = (' ' :: name.toList ++ "=\"".toList) ++
      (Text.escapeXml value ++ '"' :: more) := by
    simp [property]
  have hfront : '\\' ∉ ' ' :: name.toList ++ "=\"".toList := by
    simp [h]
  have hname : ∀ c ∈ "endverbatim".toList, ¬ Text.escapesMarkup c := by
    simp [Text.escapesMarkup]
  have hvalue : closing <:+: Text.escapeXml value ↔ closing <:+: value :=
    Text.command_infix_escapeXml hname value
  rw [hproperty, closing_infix_append_iff hfront, Text.infix_separated_iff (by decide), hvalue]

theorem not_closing_infix {name : List Char} (h : IsIdentifier name) : ¬ closing <:+: name := by
  intro hoccurs
  have hbackslash : '\\' ∈ closing := by
    decide
  exact h.not_mem (by decide) (hoccurs.subset hbackslash)

theorem closing_infix_element_iff {parameter : Parameter} (h : IsIdentifier parameter.name.toList) :
    closing <:+: element parameter ++ ['\n'] ↔ closing <:+: parameter.default.doc := by
  have helement : element parameter ++ ['\n'] =
      "  <param".toList ++ (property "name" parameter.name.toList ++
      (property "type" parameter.kind.tag.toList ++
        (property "value" parameter.default.doc ++ " />\n".toList))) := by
    unfold element
    simp
  have hname := not_closing_infix h
  have htag := not_closing_infix parameter.kind.isIdentifier_tag
  have hend : ¬ closing <:+: " />\n".toList := by
    decide
  rw [helement, closing_infix_append_iff (by decide), closing_infix_property_iff (by decide),
    closing_infix_property_iff (by decide), closing_infix_property_iff (by decide)]
  simp only [hname, htag, hend, false_or, or_false]

theorem closing_infix_opening_iff (target : Target) :
    closing <:+: opening target ++ ['\n'] ↔
      closing <:+: target.node.toList ∨ closing <:+: target.package.toList := by
  have hopening : opening target ++ ['\n'] =
      "<node".toList ++ (property "name" target.node.toList ++
      (property "pkg" target.package.toList ++
        (property "type" target.node.toList ++ ">\n".toList))) := by
    unfold opening
    simp
  have hend : ¬ closing <:+: ">\n".toList := by
    decide
  rw [hopening, closing_infix_append_iff (by decide), closing_infix_property_iff (by decide),
    closing_infix_property_iff (by decide), closing_infix_property_iff (by decide)]
  simp only [hend, or_false]
  exact or_comm.trans (by rw [or_assoc, or_self, or_comm])

section

variable {target : Target} {parameters : List Parameter}
  (hnode : '\n' ∉ target.node.toList) (hpackage : '\n' ∉ target.package.toList)
  (hnames : ∀ parameter ∈ parameters, IsIdentifier parameter.name.toList)

include hnode hpackage hnames

theorem length_lines_render :
    (Text.lines (render target parameters)).length =
      parameters.length + 6 +
        (parameters.map fun parameter => Text.lineFeeds parameter.default.doc).sum := by
  have helements : parameters.map (fun parameter => Text.lineFeeds (element parameter)) =
      parameters.map fun parameter => Text.lineFeeds parameter.default.doc := by
    refine List.map_congr_left fun parameter hmem => ?_
    exact lineFeeds_element (hnames parameter hmem)
  have hfixed : Text.lineFeeds "\\subsubsection usage Usage".toList = 0 ∧
      Text.lineFeeds "\\verbatim".toList = 0 ∧
      ((["</node>".toList, "\\endverbatim".toList, []]).map Text.lineFeeds).sum = 0 := by
    decide
  rw [render, Script.length_lines_body, lines, List.map_append, List.map_append, List.sum_append,
    List.sum_append, hfixed.2.2, List.map_map]
  simp only [Function.comp_def, helements, hfixed, List.length_append, List.length_map,
    List.map_cons, List.map_nil, List.sum_cons, List.sum_nil, lineFeeds_opening hnode hpackage,
    List.length_cons, List.length_nil]
  omega

/-- Without line feeds in the defaults, the pieces are the lines. -/
theorem lines_render (hunbroken : ∀ parameter ∈ parameters, '\n' ∉ parameter.default.doc) :
    Text.lines (render target parameters) = (lines target parameters).map (· ++ ['\n']) := by
  apply Script.lines_body_of_not_mem
  simp only [lines, List.forall_mem_append, List.forall_mem_cons, List.forall_mem_map]
  refine ⟨⟨⟨by decide, by decide, ?_, by simp⟩, ?_⟩, by decide, by decide, by decide, by simp⟩
  · exact Text.lineFeeds_eq_zero_iff.mp (lineFeeds_opening hnode hpackage)
  · intro parameter hmem
    rw [← Text.lineFeeds_eq_zero_iff, lineFeeds_element (hnames parameter hmem),
      Text.lineFeeds_eq_zero_iff]
    exact hunbroken parameter hmem

theorem IsTame.isSnippet (h : IsTame target parameters) : IsSnippet target parameters where
  length := by
    rw [lines_render hnode hpackage hnames h.unbroken]
    simp [lines]
  records := by
    intro k hk
    rw [lines_render hnode hpackage hnames h.unbroken]
    exact ⟨_, by simp [lines, List.getElem?_append_left, hk], sets_element _⟩
  closes := by
    rw [lines_render hnode hpackage hnames h.unbroken]
    simp [lines, closing]
  others := by
    intro k line hline hoccurs
    rw [lines_render hnode hpackage hnames h.unbroken, List.getElem?_map, Option.map_eq_some_iff]
      at hline
    obtain ⟨piece, hpiece, rfl⟩ := hline
    have hsplit : lines target parameters =
        (["\\subsubsection usage Usage".toList, "\\verbatim".toList, opening target] ++
          parameters.map element ++ ["</node>".toList]) ++ [closing] ++ [[]] := by
      simp [lines, closing]
    rw [hsplit] at hpiece
    have hsection : ¬ closing <:+: "\\subsubsection usage Usage".toList ++ ['\n'] := by
      decide
    have hverbatim : ¬ closing <:+: "\\verbatim".toList ++ ['\n'] := by
      decide
    have hopening : ¬ closing <:+: opening target ++ ['\n'] := by
      rw [closing_infix_opening_iff, not_or]
      exact ⟨h.node, h.package⟩
    have helements : ∀ parameter ∈ parameters, ¬ closing <:+: element parameter ++ ['\n'] := by
      intro parameter hmem
      rw [closing_infix_element_iff (hnames parameter hmem)]
      exact h.defaults parameter hmem
    have hend : ¬ closing <:+: "</node>".toList ++ ['\n'] := by
      decide
    have hfront : ∀ piece ∈
        ["\\subsubsection usage Usage".toList, "\\verbatim".toList, opening target] ++
        parameters.map element ++ ["</node>".toList], ¬ closing <:+: piece ++ ['\n'] := by
      simp only [List.forall_mem_append, List.forall_mem_cons, List.forall_mem_map]
      exact ⟨⟨⟨hsection, hverbatim, hopening, by simp⟩, helements⟩, hend, by simp⟩
    have hback : ∀ piece ∈ [([] : List Char)], ¬ closing <:+: piece ++ ['\n'] := by
      decide
    have hbetween := between_of_getElem? hpiece (fun hmem => hfront piece hmem hoccurs)
      (fun hmem => hback piece hmem hoccurs)
    simp at hbetween
    omega

/-- The example is as it should be just if no default has a line feed and no text ends the block. -/
theorem isSnippet_iff :
    (Text.lines (render target parameters)).length =
        parameters.length + 6 +
          (parameters.map fun parameter => Text.lineFeeds parameter.default.doc).sum ∧
      (IsSnippet target parameters ↔ IsTame target parameters) := by
  refine ⟨length_lines_render hnode hpackage hnames, ?_, IsTame.isSnippet hnode hpackage hnames⟩
  intro hsnippet
  have hunbroken : ∀ parameter ∈ parameters, '\n' ∉ parameter.default.doc := by
    intro parameter hmem
    have hlength := length_lines_render hnode hpackage hnames
    rw [hsnippet.length] at hlength
    have hsum : (parameters.map fun parameter => Text.lineFeeds parameter.default.doc).sum = 0 := by
      omega
    rw [List.sum_eq_zero_iff_forall_eq_nat, List.forall_mem_map] at hsum
    exact Text.lineFeeds_eq_zero_iff.mp (hsum parameter hmem)
  have hclosing : ∀ k piece, (lines target parameters)[k]? = some piece →
      closing <:+: piece ++ ['\n'] → k = parameters.length + 4 := by
    intro k piece hpiece hoccurs
    refine hsnippet.others k (piece ++ ['\n']) ?_ hoccurs
    rw [lines_render hnode hpackage hnames hunbroken, List.getElem?_map, hpiece]
    rfl
  refine ⟨hunbroken, ?_, ?_, ?_⟩
  · intro parameter hmem hoccurs
    obtain ⟨k, hk, rfl⟩ := List.getElem_of_mem hmem
    have helement : (lines target parameters)[k + 3]? = some (element parameters[k]) := by
      simp [lines, List.getElem?_append_left, hk]
    have hplace := hclosing _ _ helement ((closing_infix_element_iff (hnames _ hmem)).mpr hoccurs)
    omega
  · intro hoccurs
    have hplace := hclosing 2 _ rfl ((closing_infix_opening_iff target).mpr (Or.inl hoccurs))
    omega
  · intro hoccurs
    have hplace := hclosing 2 _ rfl ((closing_infix_opening_iff target).mpr (Or.inr hoccurs))
    omega

end

/-- A default of two lines takes two lines of the example. -/
theorem isSnippet_iff_broken :
    (Text.lines (render ⟨"robot", "node", "Gain"⟩
      [⟨"frame", .str "a\nb", 0, "", "", ⟨"a.toml", 1⟩⟩])).length = 8 ∧
      ¬ IsSnippet ⟨"robot", "node", "Gain"⟩ [⟨"frame", .str "a\nb", 0, "", "", ⟨"a.toml", 1⟩⟩] := by
  have hnames : ∀ parameter ∈ [(⟨"frame", .str "a\nb", 0, "", "", ⟨"a.toml", 1⟩⟩ : Parameter)],
      IsIdentifier parameter.name.toList := by
    intro parameter hmem
    rw [List.mem_singleton.mp hmem]
    exact (IdentifierFault.of?_eq_none_iff _).mp (by decide)
  obtain ⟨hlength, hiff⟩ :=
    @isSnippet_iff ⟨"robot", "node", "Gain"⟩ _ (by decide) (by decide) hnames
  refine ⟨hlength.trans (by decide), fun hsnippet => ?_⟩
  exact (hiff.mp hsnippet).unbroken _ List.mem_cons_self (by decide)

end Snippet

end Usage
end Tunables
