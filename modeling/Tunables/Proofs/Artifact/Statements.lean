import Tunables.Artifact.Header
import Tunables.Proofs.Binary64.Text
import Tunables.Proofs.Cpp.Line
import Tunables.Proofs.Text.Cut

/-!
# The statements of the header

The compiler reads the members of the class and the statements that register the parameters line
by line: each parameter has its lines, in the order of the declarations, and in front of each
statement a directive that names the declaration.  No text of a parameter can break a line or
get out of its literal.

* `memberItems`, `assignmentItems`, `registrationItems`: what the statements about a parameter say.
* `readLine_statements`: the lines are read as that.
-/

namespace Tunables

open Cpp (Token write)

/-- The type of the member in tokens. -/
def Kind.tokens : Kind → List Token
  | .str => [.word "std".toList, .symbol "::".toList, .word "string".toList]
  | .bool => [.word "bool".toList]
  | .int => [.word "int".toList]
  | .double => [.word "double".toList]

namespace Literal

/-- A minus sign for a negative number. -/
def signTokens (isNegative : Bool) : List Token :=
  if isNegative then [.symbol "-".toList] else []

/-- An `int` of C++ in tokens. -/
def intTokens (n : MachineInt) : List Token :=
  if n.val = intMin then [.word "INT_MIN".toList]
  else if n.val = intMax then [.word "INT_MAX".toList]
  else signTokens (n.val < 0) ++ [.number (.whole n.val.natAbs)]

/-- A `double` of C++ in tokens. -/
def doubleTokens : Binary64 → List Token
  | .nan => [.word "NaN".toList]
  | .infinite negative =>
      signTokens negative ++ ([
        .word "std".toList, .symbol "::".toList, .word "numeric_limits".toList, .symbol "<".toList,
        .word "double".toList, .symbol ">".toList, .symbol "::".toList, .word "infinity".toList,
        .symbol "(".toList,
        .symbol ")".toList] : List Token)
  | .finite negative x => signTokens negative ++ [.number (.floating (x.text .literal))]

/-- A value of C++ in tokens. -/
def cppTokens : Literal → List Token
  | .text value => [.text value.toList]
  | .bool value => [.number (.whole (if value then 1 else 0))]
  | .int value => intTokens value
  | .double value => doubleTokens value

end Literal

namespace Header

/-- The declaration of a member in tokens and blanks. -/
def memberItems (parameter : Parameter) : List (Option Token) :=
  parameter.kind.tokens.map some ++
    [none, some (.word parameter.name.toList), some (.symbol ";".toList)]

/-- An assignment in tokens and blanks. -/
def assignmentItems (configuration : String) (parameter : Parameter) (value : Literal) :
    List (Option Token) :=
  ([some (.word configuration.toList), some (.symbol ".".toList),
    some (.word parameter.name.toList), none, some (.symbol "=".toList), none] :
      List (Option Token)) ++
  (value.cppTokens.map some ++ [some (.symbol ";".toList)])

/-- A registration in tokens and blanks. -/
def registrationItems (target : Target) (parameter : Parameter) : List (Option Token) :=
  ([some (.word "__param_descriptions__".toList), some (.symbol ".".toList),
    some (.word "push_back".toList), some (.symbol "(".toList),
    some (.word target.configName.toList), some (.symbol "::".toList),
    some (.word "AbstractParamDescriptionConstPtr".toList), some (.symbol "(".toList),
    some (.word "new".toList), none,
    some (.word target.configName.toList), some (.symbol "::".toList),
    some (.word "ParamDescription".toList),
    some (.symbol "<".toList)] : List (Option Token)) ++
  parameter.kind.tokens.map some ++
  ([some (.symbol ">".toList), some (.symbol "(".toList),
    some (.text parameter.name.toList), some (.symbol ",".toList), none,
    some (.text parameter.kind.tag.toList), some (.symbol ",".toList), none,
    some (.number (.whole parameter.level)), some (.symbol ",".toList), none,
    some (.text parameter.description.toList), some (.symbol ",".toList), none,
    some (.text parameter.editMethod.toList), some (.symbol ",".toList), none,
    some (.symbol "&".toList), some (.word target.configName.toList), some (.symbol "::".toList),
    some (.word parameter.name.toList), some (.symbol ")".toList), some (.symbol ")".toList),
    some (.symbol ")".toList),
    some (.symbol ";".toList)] : List (Option Token))

/-- The statements about one parameter in tokens and blanks. -/
def statementItems (target : Target) (parameter : Parameter) : List (List (Option Token)) := [
  assignmentItems "__min__" parameter parameter.min,
  assignmentItems "__max__" parameter parameter.max,
  assignmentItems "__default__" parameter parameter.default,
  registrationItems target parameter]

/-- What is on the lines of a statement that belongs to a declaration. -/
def attributedLines (location : Location) (items : List (Option Token)) : List Cpp.Line :=
  [.directive location.line location.file.toList, .statement items.reduceOption]

end Header

section Types

theorem Kind.cppType_eq_write (kind : Kind) :
    kind.cppType.toList = write (kind.tokens.map some) := by
  cases kind <;> rfl

theorem Kind.isProper_of_mem_tokens (kind : Kind) : ∀ token ∈ kind.tokens, token.IsProper := by
  cases kind <;> simp +decide [tokens, Token.IsProper]

end Types

section Values

namespace Literal

theorem signText_eq_write (isNegative : Bool) :
    Binary64.signText isNegative = write ((signTokens isNegative).map some) := by
  cases isNegative <;> rfl

theorem cppInt_eq_write (n : MachineInt) : cppInt n = write ((intTokens n).map some) := by
  unfold cppInt intTokens
  split
  · rfl
  split
  · rfl
  · have hsign : (if n.val < 0 then ['-'] else []) = write ((signTokens (n.val < 0)).map some) := by
      rw [← signText_eq_write]
      simp [Binary64.signText]
    rw [Text.signedNumeral_eq, hsign, List.map_append, Cpp.write_append]
    simp [Token.written]

theorem cppDouble_eq_write (x : Binary64) : cppDouble x = write ((doubleTokens x).map some) := by
  cases x with
  | nan => rfl
  | infinite negative => cases negative <;> rfl
  | finite negative x =>
      rw [cppDouble, Binary64.text, signText_eq_write, doubleTokens, List.map_append,
        Cpp.write_append]
      · simp [Token.written]
      · rintro negative ⟨⟩

/-- The text of a value is that of its tokens. -/
theorem cpp_eq_write (literal : Literal) : literal.cpp = write (literal.cppTokens.map some) := by
  cases literal with
  | text value => simp [cpp, cppTokens, Token.written]
  | bool value => cases value <;> rfl
  | int value => exact cppInt_eq_write value
  | double value => exact cppDouble_eq_write value

theorem isProper_of_mem_signTokens (isNegative : Bool) :
    ∀ token ∈ signTokens isNegative, token.IsProper := by
  cases isNegative <;> simp +decide [signTokens, Token.IsProper]

theorem isProper_of_mem_cppTokens (literal : Literal) :
    ∀ token ∈ literal.cppTokens, token.IsProper := by
  cases literal with
  | text value => simp [cppTokens, Token.IsProper]
  | bool value => simp [cppTokens, Token.IsProper]
  | int value =>
      unfold cppTokens intTokens
      simp only
      split
      · simp +decide [Token.IsProper]
      split
      · simp +decide [Token.IsProper]
      · exact List.forall_mem_append.mpr ⟨isProper_of_mem_signTokens _, by simp [Token.IsProper]⟩
  | double value =>
      cases value with
      | nan => simp +decide [cppTokens, doubleTokens, Token.IsProper]
      | infinite negative =>
          exact List.forall_mem_append.mpr
            ⟨isProper_of_mem_signTokens _, by simp +decide [Token.IsProper]⟩
      | finite negative x =>
          exact List.forall_mem_append.mpr
            ⟨isProper_of_mem_signTokens _,
              by simpa [Token.IsProper] using x.isFloatingText .literal⟩

/-- The tokens of a value do not run together, and neither do they with the semicolon behind
them. -/
theorem isSpaced_cppTokens (literal : Literal) :
    Cpp.isSpaced (literal.cppTokens.map some ++ [some (.symbol ";".toList)]) = true := by
  cases literal with
  | text value => rfl
  | bool value => rfl
  | int value =>
      unfold cppTokens intTokens
      simp only
      split
      · rfl
      split
      · rfl
      · cases decide (value.val < 0) <;> rfl
  | double value =>
      cases value with
      | nan => rfl
      | infinite negative | finite negative _ => cases negative <;> rfl

end Literal

end Values

/-- A text of letters, digits and underscores needs no escapes. -/
theorem Text.cLiteral_eq {cs : List Char} (h : ∀ c ∈ cs, isNamePart c = true) :
    cLiteral cs = '"' :: cs ++ ['"'] := by
  have hchar : ∀ c ∈ cs, escapeCChar c = [c] := by
    intro c hc
    have hne : ∀ d, isNamePart d = false → c ≠ d := fun _ => Text.ne_of_class (h c hc)
    simp [escapeCChar, hne '\\' (by decide), hne '"' (by decide), hne '\n' (by decide),
      hne '\r' (by decide), hne '\t' (by decide)]
  have hescape : escapeC cs = cs := by
    rw [escapeC, List.flatMap_congr hchar]
    simp
  rw [cLiteral, hescape]

theorem isWord_configName {target : Target} (h : IsIdentifier target.name.toList) :
    Cpp.IsWord target.configName.toList := by
  obtain ⟨c, hc, hstart⟩ := h.starts
  have hname : target.configName.toList = target.name.toList ++ "Config".toList := by
    simp [Target.configName]
  rw [hname]
  refine ⟨⟨c, by simp [Option.mem_def.mp hc], hstart⟩, ?_⟩
  have hconfig : "Config".toList.all isNamePart = true := by decide
  exact List.forall_mem_append.mpr ⟨h.parts, List.all_eq_true.mp hconfig⟩

namespace Header

variable {target : Target} {parameter : Parameter}

theorem member_eq_write (parameter : Parameter) :
    member parameter = write (memberItems parameter) := by
  simp [member, memberItems, Parameter.cppType, Kind.cppType_eq_write, Token.written]

theorem spells_member (hname : IsIdentifier parameter.name.toList) :
    Cpp.Spells (member parameter) (memberItems parameter).reduceOption := by
  have hword := Cpp.isWord_of_isIdentifier hname
  rw [member_eq_write]
  refine Cpp.spells_write ?_ ?_
  · rw [memberItems, List.reduceOption_append, Cpp.reduceOption_map_some]
    exact List.forall_mem_append.mpr
      ⟨parameter.kind.isProper_of_mem_tokens, by simp +decide [Token.IsProper, hword]⟩
  · unfold memberItems
    cases parameter.kind <;> rfl

theorem assignment_eq_write (configuration : String) (parameter : Parameter) (value : Literal) :
    assignment configuration parameter value =
      write (assignmentItems configuration parameter value) := by
  simp [assignment, assignmentItems, Literal.cpp_eq_write, Token.written]

theorem spells_assignment {configuration : String}
    (hconfiguration : Cpp.IsWord configuration.toList) (hname : IsIdentifier parameter.name.toList)
    (value : Literal) :
    Cpp.Spells (assignment configuration parameter value)
      (assignmentItems configuration parameter value).reduceOption := by
  have hword := Cpp.isWord_of_isIdentifier hname
  rw [assignment_eq_write]
  refine Cpp.spells_write ?_ ?_
  · rw [assignmentItems, List.reduceOption_append, List.reduceOption_append,
      Cpp.reduceOption_map_some]
    refine List.forall_mem_append.mpr
      ⟨?_, List.forall_mem_append.mpr ⟨value.isProper_of_mem_cppTokens, ?_⟩⟩
    · simp +decide [Token.IsProper, hconfiguration, hword]
    · simp +decide [Token.IsProper]
  · exact (Cpp.isSpaced_append_none [_, _, _, none, _] _).trans value.isSpaced_cppTokens

theorem registration_eq_write (target : Target) (hname : IsIdentifier parameter.name.toList) :
    registration target parameter = write (registrationItems target parameter) := by
  have hnameLiteral := Text.cLiteral_eq hname.parts
  have htagLiteral : Text.cLiteral parameter.kind.tag.toList =
      '"' :: parameter.kind.tag.toList ++ ['"'] := by
    cases parameter.kind <;> rfl
  have hpush : "__param_descriptions__.push_back(".toList =
      "__param_descriptions__".toList ++ ".".toList ++ "push_back".toList ++ "(".toList := by decide
  have hpointer : "::AbstractParamDescriptionConstPtr(new ".toList =
      "::".toList ++ "AbstractParamDescriptionConstPtr".toList ++ "(".toList ++ "new".toList ++
        [' '] := by decide
  have hdescription : "::ParamDescription<".toList =
      "::".toList ++ "ParamDescription".toList ++ "<".toList := by decide
  have hopen : ">(\"".toList = ">".toList ++ "(".toList ++ ['"'] := by decide
  have hmiddle : "\", \"".toList = '"' :: ",".toList ++ [' ', '"'] := by decide
  have hclose : "\", ".toList = '"' :: ",".toList ++ [' '] := by decide
  have hcomma : ", ".toList = ",".toList ++ [' '] := by decide
  have haddress : ", &".toList = ",".toList ++ ' ' :: "&".toList := by decide
  have hend : ")));".toList = ")".toList ++ ")".toList ++ ")".toList ++ ";".toList := by decide
  unfold registration
  simp only [hpush, hpointer, hdescription, hopen, hmiddle, hclose, hcomma, haddress, hend,
    Parameter.cppType, Kind.cppType_eq_write]
  simp only [registrationItems, Cpp.write_append, Cpp.write_some, Cpp.write_none, Cpp.write_nil,
    Token.written, hnameLiteral, htagLiteral, List.append_assoc, List.cons_append, List.nil_append,
    List.append_nil]

theorem spells_registration (htarget : IsIdentifier target.name.toList)
    (hname : IsIdentifier parameter.name.toList) :
    Cpp.Spells (registration target parameter)
      (registrationItems target parameter).reduceOption := by
  have hword := Cpp.isWord_of_isIdentifier hname
  have hconfig := isWord_configName htarget
  rw [registration_eq_write target hname]
  refine Cpp.spells_write ?_ ?_
  · rw [registrationItems, List.reduceOption_append, List.reduceOption_append,
      Cpp.reduceOption_map_some]
    refine List.forall_mem_append.mpr
      ⟨List.forall_mem_append.mpr ⟨?_, parameter.kind.isProper_of_mem_tokens⟩, ?_⟩
    · simp +decide [Token.IsProper, hconfig]
    · simp +decide [Token.IsProper, hconfig, hword]
  · unfold registrationItems
    cases parameter.kind <;>
      simp +decide only [Kind.tokens, List.map_cons, List.map_nil, List.cons_append,
        List.nil_append, Cpp.isSpaced, Token.mayMeet]

/-- The statements about one parameter spell what they are to say. -/
theorem forall₂_spells_statements (htarget : IsIdentifier target.name.toList)
    (hname : IsIdentifier parameter.name.toList) :
    List.Forall₂ (fun statement items => Cpp.Spells statement items.reduceOption)
      (statements target parameter) (statementItems target parameter) :=
  .cons (spells_assignment (by decide) hname parameter.min) <|
  .cons (spells_assignment (by decide) hname parameter.max) <|
  .cons (spells_assignment (by decide) hname parameter.default) <|
  .cons (spells_registration htarget hname) .nil

/-- A directive and a statement are read as such, each on its line. -/
theorem forall₂_shows_attributed {location : Location} {statement : List Char}
    {items : List (Option Token)} (hfile : ∀ c ∈ location.file.toList, Text.isLineBreak c = false)
    (h : Cpp.Spells statement items.reduceOption) :
    List.Forall₂ Cpp.Shows (Script.attributed location statement)
      (attributedLines location items) :=
  .cons ⟨Cpp.not_mem_directive hfile, Cpp.readLine_directive hfile⟩ <|
  .cons ⟨by simp [h.unbroken], Cpp.readLine_statement h.tokens_eq 5⟩ .nil

/-- The lines between the line feeds are read as the members, and as the statements that
register the parameters: each parameter has its directives and statements, in the order of
the declarations. -/
theorem readLine_statements {parameters : List Parameter} (hne : parameters ≠ [])
    (htarget : IsIdentifier target.name.toList)
    (hnames : ∀ parameter ∈ parameters, IsIdentifier parameter.name.toList)
    (hfiles : ∀ parameter ∈ parameters, ∀ c ∈ parameter.location.file.toList,
      Text.isLineBreak c = false) :
    (Text.cut '\n' (Script.fragment (members parameters))).map Cpp.readLine =
        (parameters.flatMap fun parameter =>
          attributedLines parameter.location (memberItems parameter)).map some ∧
      (Text.cut '\n' (Script.fragment (descriptions target parameters))).map Cpp.readLine =
        (parameters.flatMap fun parameter => (statementItems target parameter).flatMap
          (attributedLines parameter.location)).map some := by
  have hsame : List.Forall₂ (fun first second => first = second ∧ first ∈ parameters) parameters
      parameters :=
    List.forall₂_same.mpr fun parameter hmem => ⟨rfl, hmem⟩
  have hmembers : List.Forall₂ Cpp.Shows (members parameters)
      (parameters.flatMap fun parameter =>
        attributedLines parameter.location (memberItems parameter)) := by
    refine List.rel_flatMap hsame ?_
    rintro parameter _ ⟨rfl, hmem⟩
    exact forall₂_shows_attributed (hfiles parameter hmem) (spells_member (hnames parameter hmem))
  have hdescriptions : List.Forall₂ Cpp.Shows (descriptions target parameters)
      (parameters.flatMap fun parameter =>
        (statementItems target parameter).flatMap (attributedLines parameter.location)) := by
    refine List.rel_flatMap hsame ?_
    rintro parameter _ ⟨rfl, hmem⟩
    refine List.rel_flatMap (forall₂_spells_statements htarget (hnames parameter hmem)) ?_
    intro statement items hspells
    exact forall₂_shows_attributed (hfiles parameter hmem) hspells
  obtain ⟨parameter, others, rfl⟩ := List.exists_cons_of_ne_nil hne
  exact ⟨Cpp.readLine_cut hmembers (by simp [members, Script.attributed]),
    Cpp.readLine_cut hdescriptions (by simp [descriptions, statements, Script.attributed])⟩

/-- A line feed and a quote in a default and in a description stay in their literals, and a quote in
the name of a file stays in the directive. -/
theorem readLine_statements_quoted :
    (Text.cut '\n' (Script.fragment
      (members [⟨"label", .str "\");\n", 1, "a \"b\"\nc", "", ⟨"a\".toml", 3⟩⟩]))).map
        Cpp.readLine = [
        some (.directive 3 "a\".toml".toList),
        some (.statement [.word "std".toList, .symbol "::".toList, .word "string".toList,
          .word "label".toList, .symbol ";".toList])] ∧
    (Text.cut '\n' (Script.fragment (descriptions ⟨"robot", "node", "Gain"⟩
      [⟨"label", .str "\");\n", 1, "a \"b\"\nc", "", ⟨"a\".toml", 3⟩⟩]))).map Cpp.readLine = [
        some (.directive 3 "a\".toml".toList),
        some (.statement [.word "__min__".toList, .symbol ".".toList, .word "label".toList,
          .symbol "=".toList, .text [], .symbol ";".toList]),
        some (.directive 3 "a\".toml".toList),
        some (.statement [.word "__max__".toList, .symbol ".".toList, .word "label".toList,
          .symbol "=".toList, .text [], .symbol ";".toList]),
        some (.directive 3 "a\".toml".toList),
        some (.statement [.word "__default__".toList, .symbol ".".toList, .word "label".toList,
          .symbol "=".toList, .text "\");\n".toList, .symbol ";".toList]),
        some (.directive 3 "a\".toml".toList),
        some (.statement (registrationItems ⟨"robot", "node", "Gain"⟩
          ⟨"label", .str "\");\n", 1, "a \"b\"\nc", "", ⟨"a\".toml", 3⟩⟩).reduceOption)] := by
  refine readLine_statements (by simp) ?_ ?_ ?_
  · exact (IdentifierFault.of?_eq_none_iff _).mp (by decide)
  · intro parameter hmem
    rw [List.mem_singleton.mp hmem]
    exact (IdentifierFault.of?_eq_none_iff _).mp (by decide)
  · intro parameter hmem
    have hfile : "a\".toml".toList.all (fun c => Text.isLineBreak c == false) = true := by decide
    rw [List.mem_singleton.mp hmem]
    exact fun c hc => beq_iff_eq.mp (List.all_eq_true.mp hfile c hc)

end Header

end Tunables
