import Mathlib
import Tunables.Proofs.Artifact.Builtin
import Tunables.Proofs.Cpp.Guard
import Tunables.Proofs.Manifest
import Tunables.Proofs.Target
import Tunables.Proofs.Template.Grammar

/-!
# The guard of the header

The guard of a header is made of the package and of the name of the configuration, the latter in
upper case.  The paths and the classes keep the name as it is, and so two configurations can have
headers of their own and one guard: if their names differ in the case of letters only.  And the
package is put in as it stands: a character that no name has in C++ ends the name of the guard
before the name of the configuration is reached.

* `exists_render_opening`: how a header begins.
* `guard?_opening_of_parts`: its guard for a package that a name may hold.
* `guard?_opening_of_not_part`: for other packages it does not depend on the configuration.
* `guard?_ne_iff`: when two configurations of a package have different guards.
-/

namespace Tunables

namespace Template

section Opening

variable {template : String} {values : Nat → Values} {shared : Values}

/-- Values that are the same on all lines can be put in beforehand. -/
theorem fillPiecesAt_of_fillPieces {pieces : List Piece} {position : Position} {filled : List Char}
    (hvalues : ∀ line name value, shared name = some value → values line name = some value)
    (h : fillPieces template shared position pieces = .ok filled) :
    fillPiecesAt template values position pieces = .ok filled := by
  induction pieces generalizing position filled with
  | nil => exact h
  | cons piece rest ih =>
      rw [fillPieces, except_bind_eq_ok_iff] at h
      obtain ⟨text, htext, h⟩ := h
      obtain ⟨others, hothers, hfilled⟩ := except_bind_eq_ok_iff.mp h
      have hpiece : piece.value template (values position.line) position = .ok text := by
        cases piece with
        | char c => exact htext
        | dollar => exact htext
        | stray => exact htext
        | bare name | braced name =>
            cases hvalue : shared name with
            | some value => simpa only [Piece.value, hvalue, hvalues _ _ _ hvalue] using htext
            | none =>
                simp only [Piece.value, hvalue] at htext
                cases htext
      rw [fillPiecesAt, hpiece, ih hothers]
      exact hfilled

/-- The pieces of lines are apart from those of what follows. -/
theorem pieces_ofLines_append (lines : List String) (more : List Char) :
    pieces (Templates.ofLines lines ++ more) = pieces (Templates.ofLines lines) ++ pieces more := by
  induction lines with
  | nil =>
      rw [Templates.ofLines, List.flatMap_nil, pieces]
      rfl
  | cons line lines ih =>
      have hcons : Templates.ofLines (line :: lines) ++ more =
          line.toList ++ '\n' :: (Templates.ofLines lines ++ more) := by
        rw [Templates.ofLines, List.flatMap_cons, List.append_assoc, List.append_assoc]
        rfl
      rw [hcons, pieces_append_lineFeed, ih, pieces_ofLines_cons, List.append_assoc,
        List.cons_append]

theorem Yields.plain {text : List Char} (hne : text ≠ []) (htext : '$' ∉ text) :
    Yields shared text text := by
  have h : Yields shared (text ++ []) (text ++ []) := .cons (.run hne htext (by simp)) rfl .nil
  rwa [List.append_nil] at h

/-- A text without dollar signs and a placeholder behind it. -/
theorem Yields.plain_braced {text name rest value filled : List Char} (hne : text ≠ [])
    (htext : '$' ∉ text) (hname : IsName name) (hvalue : shared name = some value)
    (h : Yields shared rest filled) :
    Yields shared (text ++ '$' :: '\x7b' :: (name ++ '\x7d' :: rest)) (text ++ (value ++ filled)) :=
  .cons (.run hne htext (by simp)) rfl (.cons (.braced hname) hvalue h)

end Opening

end Template

section Names

theorem toNat_lt_of_isNamePart {c : Char} (h : isNamePart c = true) : c.toNat < 0x80 := by
  simp only [isNamePart, Char.isAlphanum, Char.isAlpha, Char.isUpper, Char.isLower, Char.isDigit,
    Bool.or_eq_true, Bool.and_eq_true, decide_eq_true_eq, beq_iff_eq, UInt32.le_iff_toNat_le] at h
  have hupper : 'Z'.val.toNat = 0x5a := rfl
  have hlower : 'z'.val.toNat = 0x7a := rfl
  have hdigit : '9'.val.toNat = 0x39 := rfl
  rcases h with h | rfl
  · change c.val.toNat < 0x80
    omega
  · decide

/-- The letters of names have other letters of names for their upper case. -/
theorem isNamePart_toUpper {c : Char} (h : isNamePart c = true) : isNamePart c.toUpper = true := by
  have hletters : ∀ n < 0x80, isNamePart (Char.ofNat n) = true →
      isNamePart (Char.ofNat n).toUpper = true := by
    decide +kernel
  have hc := hletters c.toNat (toNat_lt_of_isNamePart h)
  rw [Char.ofNat_toNat] at hc
  exact hc h

/-- The upper case of a name, letter by letter. -/
theorem Text.upperCase_eq {name : List Char} (h : ∀ c ∈ name, isNamePart c = true) :
    upperCase name = name.map Char.toUpper := by
  rw [upperCase, List.map_eq_flatMap]
  exact List.flatMap_congr fun c hc => if_pos (toNat_lt_of_isNamePart (h c hc))

end Names

namespace Header

/-- The comment on top of the header up to the package. -/
def noticeFront : List Char :=
  Templates.ofLines (Templates.headerLines.take 2) ++ "// File autogenerated for the ".toList

/-- The comment on top of the header up to the end of the line with the package. -/
def notice (target : Target) : List Char :=
  noticeFront ++ target.package.toList ++ " package".toList

/-- The lines between the one with the package and the guard, but for the last line feed. -/
def noticeBack : List Char :=
  Templates.ofLines ((Templates.headerLines.drop 3).take 3)

/-- The name of the guard, as far as it is a name. -/
def guardName (target : Target) : List Char :=
  "__".toList ++ (target.package.toList ++
    ("__".toList ++ (Text.upperCase target.name.toList ++ "CONFIG_H__".toList)))

/-- How the header begins, in front of all that depends on the parameters. -/
def opening (target : Target) : List Char :=
  notice target ++ '\n' :: (noticeBack ++ '\n' ::
    (Cpp.asks ++ (guardName target ++ '\n' :: (Cpp.defines ++ guardName target))))

section Opening

variable {target : Target} {parameters : List Parameter}

/-- The values that are the same on all lines are among those of a line. -/
theorem lineValues_of_shared (path : String) (line : Nat) (name value : List Char)
    (h : Template.Values.ofList (sharedValues target parameters) name = some value) :
    lineValues path (sharedValues target parameters) line name = some value := by
  have hkey := isSome_ofList (sharedValues target parameters) name
  rw [h, keys_sharedValues, Option.isSome_some] at hkey
  have hline : name ≠ "linenum".toList := by
    rintro rfl
    revert hkey
    decide
  have hfile : name ≠ "filename".toList := by
    rintro rfl
    revert hkey
    decide
  rwa [lineValues, if_neg hline, if_neg hfile]

theorem sharedValues_uname :
    Template.Values.ofList (sharedValues target parameters) "uname".toList =
      some (Text.upperCase target.name.toList) := by
  simp only [Template.Values.ofList, sharedValues, List.find?_cons, BEq.rfl, Option.map_some]

theorem sharedValues_pkgname :
    Template.Values.ofList (sharedValues target parameters) "pkgname".toList =
      some target.package.toList := by
  have huname : ("uname".toList == "pkgname".toList) = false := by decide
  have hconfigname : ("configname".toList == "pkgname".toList) = false := by decide
  simp only [Template.Values.ofList, sharedValues, List.find?_cons, huname, hconfigname, BEq.rfl,
    Option.map_some]

/-- The first lines of the template. -/
theorem yields_opening :
    Template.Yields (.ofList (sharedValues target parameters))
      (Templates.ofLines (Templates.headerLines.take 9)) (opening target ++ ['\n']) := by
  have hsource : Templates.ofLines (Templates.headerLines.take 9) =
      noticeFront ++ '$' :: '\x7b' :: ("pkgname".toList ++ '\x7d' ::
        ((" package\n".toList ++ noticeBack ++ '\n' :: Cpp.asks ++ "__".toList) ++
          '$' :: '\x7b' :: ("pkgname".toList ++ '\x7d' ::
          ("__".toList ++ '$' :: '\x7b' :: ("uname".toList ++ '\x7d' ::
            (("CONFIG_H__\n".toList ++ Cpp.defines ++ "__".toList) ++
              '$' :: '\x7b' :: ("pkgname".toList ++ '\x7d' ::
              ("__".toList ++ '$' :: '\x7b' ::
                ("uname".toList ++ '\x7d' :: "CONFIG_H__\n".toList))))))))) := by
    decide +kernel
  have hfilled : opening target ++ ['\n'] =
      noticeFront ++ (target.package.toList ++
        ((" package\n".toList ++ noticeBack ++ '\n' :: Cpp.asks ++ "__".toList) ++
          (target.package.toList ++
          ("__".toList ++ (Text.upperCase target.name.toList ++
            (("CONFIG_H__\n".toList ++ Cpp.defines ++ "__".toList) ++ (target.package.toList ++
              ("__".toList ++
                (Text.upperCase target.name.toList ++ "CONFIG_H__\n".toList))))))))) := by
    simp [opening, notice, guardName]
  rw [hsource, hfilled]
  have hpkgname : Template.IsName ('p' :: "kgname".toList) :=
    .intro (by decide) (List.all_eq_true.mp (by decide +kernel))
  have huname : Template.IsName ('u' :: "name".toList) :=
    .intro (by decide) (List.all_eq_true.mp (by decide +kernel))
  exact .plain_braced (by decide +kernel) (by decide +kernel) hpkgname sharedValues_pkgname <|
    .plain_braced (by decide +kernel) (by decide +kernel) hpkgname sharedValues_pkgname <|
    .plain_braced (by decide) (by decide) huname sharedValues_uname <|
    .plain_braced (by decide +kernel) (by decide +kernel) hpkgname sharedValues_pkgname <|
    .plain_braced (by decide) (by decide) huname sharedValues_uname <|
    .plain (by decide +kernel) (by decide +kernel)

/-- The header begins with the guard, whatever the parameters are. -/
theorem exists_render_opening (target : Target) (parameters : List Parameter) :
    ∃ more,
      render target parameters Templates.builtin.header = .ok (opening target ++ '\n' :: more) := by
  obtain ⟨text, htext⟩ := exists_render isCovered_of_mem_builtin target parameters
  have hlines : Templates.builtin.header.text =
      Templates.ofLines (Templates.headerLines.take 9) ++
        Templates.ofLines (Templates.headerLines.drop 9) := by
    unfold Templates.ofLines
    rw [← List.flatMap_append, List.take_append_drop]
    rfl
  rw [htext]
  rw [render, fillLines_lines, Template.fillAt, hlines, Template.pieces_ofLines_append,
    Template.fillPiecesAt_append,
    Template.fillPiecesAt_of_fillPieces (lineValues_of_shared _)
      (Template.fill_of_yields yields_opening)] at htext
  obtain ⟨first, hfirst, hothers⟩ := except_bind_eq_ok_iff.mp htext
  cases hfirst
  obtain ⟨others, _, hwhole⟩ := except_bind_eq_ok_iff.mp hothers
  cases hwhole
  exact ⟨others, by simp⟩

end Opening

section Guard

variable {part : Char → Bool} {target target' : Target}

/-- A character of the guard comes from the package, or every name can have it. -/
theorem of_mem_guardName (h : IsIdentifier target.name.toList) :
    ∀ c ∈ guardName target, c ∈ target.package.toList ∨ isNamePart c = true := by
  have hfixed : ("__".toList ++ "CONFIG_H__".toList).all isNamePart = true := by decide +kernel
  have hname : ∀ c ∈ Text.upperCase target.name.toList, isNamePart c = true := by
    rw [Text.upperCase_eq h.parts, List.forall_mem_map]
    exact fun c hc => isNamePart_toUpper (h.parts c hc)
  rw [List.all_eq_true] at hfixed
  intro c hc
  simp only [guardName, List.mem_append] at hc
  rcases hc with hc | hc | hc | hc | hc
  · exact Or.inr (hfixed c (List.mem_append_left _ hc))
  · exact Or.inl hc
  · exact Or.inr (hfixed c (List.mem_append_left _ hc))
  · exact Or.inr (hname c hc)
  · exact Or.inr (hfixed c (List.mem_append_right _ hc))

/-- The comment on top is passed over if the package stays on its line. -/
theorem isPassed_notice (hfeed : '\n' ∉ target.package.toList)
    (hback : '\\' ∉ target.package.toList) :
    ∀ line ∈ Text.lines (notice target ++ ['\n']), Cpp.isPassed line = true := by
  have hfront : noticeFront =
      Templates.ofLines (Templates.headerLines.take 1) ++ "//".toList ++
        '\n' :: "// File autogenerated for the ".toList := by
    decide +kernel
  have hnotice : notice target ++ ['\n'] =
      Templates.ofLines (Templates.headerLines.take 1) ++ "//".toList ++ '\n' ::
        ("// File autogenerated for the ".toList ++ target.package.toList ++ " package".toList ++
          ['\n']) := by
    simp only [notice, hfront, List.append_assoc, List.cons_append]
  have hline : '\n' ∉ "// File autogenerated for the ".toList ++ target.package.toList ++
      " package".toList := by
    simp [hfeed]
  have hpackage : Cpp.isPassed
      ("// File autogenerated for the ".toList ++ target.package.toList ++ " package".toList ++
        ['\n']) = true := by
    simp [Cpp.isPassed, hback]
  have htop :
      (Text.lines (Templates.ofLines (Templates.headerLines.take 1) ++ "//".toList ++ ['\n'])).all
      Cpp.isPassed = true := by
    decide +kernel
  rw [hnotice, Text.lines_append, Text.lines_append_lineFeed hline, List.forall_mem_append,
    List.forall_mem_cons]
  exact ⟨List.all_eq_true.mp htop, hpackage, List.forall_mem_nil _⟩

theorem opening_append (more : List Char) :
    opening target ++ '\n' :: more =
      notice target ++ '\n' :: (noticeBack ++ '\n' ::
        (Cpp.asks ++
          (guardName target ++ '\n' :: (Cpp.defines ++ (guardName target ++ '\n' :: more))))) := by
  simp only [opening, List.append_assoc, List.cons_append]

/-- The guard behind a comment that is passed over. -/
theorem guard?_opening_of_passed
    (h : ∀ line ∈ Text.lines (notice target ++ ['\n']), Cpp.isPassed line = true)
    (more : List Char) :
    Cpp.guard? part (opening target ++ '\n' :: more) =
      Cpp.guard? part (Cpp.asks ++
        (guardName target ++ '\n' :: (Cpp.defines ++ (guardName target ++ '\n' :: more)))) := by
  have hback : (Text.lines (noticeBack ++ ['\n'])).all Cpp.isPassed = true := by decide +kernel
  rw [opening_append, Cpp.guard?_of_passed h, Cpp.guard?_of_passed (List.all_eq_true.mp hback)]

/-- The guard of a header for a package on one line. -/
theorem guard?_opening (hpart : Cpp.IsAlphabet part) (hname : IsIdentifier target.name.toList)
    (hfeed : '\n' ∉ target.package.toList) (hback : '\\' ∉ target.package.toList)
    (more : List Char) :
    Cpp.guard? part (opening target ++ '\n' :: more) =
      some ((guardName target).takeWhile part) := by
  have hguard : ∀ {c : Char}, c ∉ target.package.toList → isNamePart c = false →
      c ∉ guardName target := by
    intro c hc hpart hmem
    rcases of_mem_guardName hname c hmem with hmem | hmem
    · exact hc hmem
    · rw [hpart] at hmem
      cases hmem
  rw [guard?_opening_of_passed (isPassed_notice hfeed hback)]
  exact Cpp.guard?_of_opening hpart (hguard hfeed (by decide)) (hguard hback (by decide)) rfl

/-- A package on several lines leaves a header without a guard, even where all its lines are passed
over.  The second of them begins like a comment, or it is empty, and so it defines nothing behind
the line that asks for a name. -/
theorem guard?_opening_eq_none (hfeed : '\n' ∈ target.package.toList)
    (h : ∀ line ∈ Text.lines (notice target ++ ['\n']), Cpp.isPassed line = true)
    (more : List Char) :
    Cpp.guard? part (opening target ++ '\n' :: more) = none := by
  obtain ⟨first, second, hlines, hfirst⟩ := List.eq_append_cons_of_mem hfeed
  have hsplit : notice target ++ ['\n'] =
      noticeFront ++ first ++ '\n' :: (second ++ " package".toList ++ ['\n']) := by
    simp only [notice, hlines, List.append_assoc, List.cons_append]
  have hhead : ∀ rest, (second ++ '_' :: rest).head? ≠ some '#' := by
    obtain ⟨line, others, hfollowing⟩ := List.exists_cons_of_ne_nil
      (Text.lines_ne_nil (List.concat_ne_nil '\n' (second ++ " package".toList)))
    have hline : Cpp.isPassed line = true := by
      rw [hsplit, Text.lines_append, hfollowing] at h
      exact h line (List.mem_append_right _ List.mem_cons_self)
    have hline := Cpp.head?_of_isPassed hline
    rw [Text.head?_of_lines hfollowing] at hline
    cases second with
    | nil =>
        have hblank : some ' ' = some '\n' ∨ some ' ' = some '/' := hline
        exact absurd hblank (by decide)
    | cons c second =>
        have hc : some c = some '\n' ∨ some c = some '/' := hline
        rintro rest ⟨⟩
        exact absurd hc (by decide)
  have hname : ∀ rest,
      guardName target ++ '\n' :: rest = "__".toList ++ first ++ '\n' :: (second ++ '_' :: ('_' ::
      (Text.upperCase target.name.toList ++ ("CONFIG_H__".toList ++ '\n' :: rest)))) := by
    intro rest
    rw [guardName, hlines]
    simp only [List.append_assoc, List.cons_append]
    rfl
  have hasked : '\n' ∉ "__".toList ++ first := by
    simp [hfirst]
  rw [guard?_opening_of_passed h, hname, Cpp.guard?_eq_none hasked (hhead _)]

/-- A package with a line feed or a backslash decides on the guard, whatever the
configuration is called. -/
theorem guard?_opening_congr (hpackage : target'.package = target.package)
    (hplain : ¬ ('\n' ∉ target.package.toList ∧ '\\' ∉ target.package.toList))
    (more more' : List Char) :
    Cpp.guard? part (opening target ++ '\n' :: more) =
      Cpp.guard? part (opening target' ++ '\n' :: more') := by
  have hnotice : notice target' = notice target := by
    rw [notice, hpackage, notice]
  by_cases hpassed : ∀ line ∈ Text.lines (notice target ++ ['\n']), Cpp.isPassed line = true
  · have hback : '\\' ∉ target.package.toList :=
      fun hmem => Cpp.not_mem_of_isPassed hpassed (by simp [notice, hmem])
    have hfeed : '\n' ∈ target.package.toList := by
      by_contra hfeed
      exact hplain ⟨hfeed, hback⟩
    rw [guard?_opening_eq_none hfeed hpassed,
      guard?_opening_eq_none (by rwa [hpackage]) (by rwa [hnotice])]
  · have hdecides : ∃ line ∈ Text.lines (notice target ++ ['\n']), Cpp.isPassed line = false := by
      simpa using hpassed
    have hhead : ∀ rest, (Text.lines (noticeBack ++ '\n' :: rest)).head? =
        (Text.lines (noticeBack ++ ['\n'])).head? := by
      intro rest
      rw [Text.lines_append,
        List.head?_append_of_ne_nil _ (Text.lines_ne_nil (List.concat_ne_nil '\n' noticeBack))]
    rw [opening_append, opening_append, hnotice]
    exact Cpp.guard?_congr ((hhead _).trans (hhead _).symm) hdecides

/-- The guard of a header for a package that a name may hold. -/
theorem guard?_opening_of_parts (hpart : Cpp.IsAlphabet part)
    (hname : IsIdentifier target.name.toList)
    (hpackage : ∀ c ∈ target.package.toList, part c = true) (more : List Char) :
    Cpp.guard? part (opening target ++ '\n' :: more) = some (guardName target) := by
  have hnot : ∀ {c : Char}, part c = false → c ∉ target.package.toList := by
    intro c hc hmem
    rw [hpackage c hmem] at hc
    cases hc
  have hwhole : (guardName target).takeWhile part = guardName target := by
    rw [List.takeWhile_eq_self_iff]
    intro c hc
    rcases of_mem_guardName hname c hc with hc | hc
    · exact hpackage c hc
    · exact hpart.names hc
  rw [guard?_opening hpart hname (hnot hpart.lineFeed) (hnot hpart.backslash), hwhole]

/-- A character that no name has ends the guard within the package, and all configurations of the
package share it. -/
theorem guard?_opening_of_not_part {c : Char} (hpart : Cpp.IsAlphabet part)
    (hname : IsIdentifier target.name.toList) (hname' : IsIdentifier target'.name.toList)
    (hpackage : target'.package = target.package) (hc : c ∈ target.package.toList)
    (hend : part c = false) (more more' : List Char) :
    Cpp.guard? part (opening target ++ '\n' :: more) =
      Cpp.guard? part (opening target' ++ '\n' :: more') := by
  by_cases hplain : '\n' ∉ target.package.toList ∧ '\\' ∉ target.package.toList
  · obtain ⟨front, back, hsplit⟩ := List.append_of_mem hc
    have hread : ∀ {any : Target}, any.package = target.package →
        (guardName any).takeWhile part = ("__".toList ++ front).takeWhile part := by
      intro any hany
      rw [guardName, hany, hsplit, List.append_assoc, List.cons_append, ← List.append_assoc,
        Template.takeWhile_append_of_neg hend]
    rw [guard?_opening hpart hname hplain.1 hplain.2, hread rfl,
      guard?_opening hpart hname' (by rw [hpackage]; exact hplain.1)
        (by rw [hpackage]; exact hplain.2), hread hpackage]
  · exact guard?_opening_congr hpackage hplain more more'

end Guard

section Manifests

variable {part : Char → Bool} {text text' : List Char} {file file' : String}
  {manifest manifest' : Manifest}

/-- The path of the header has the name of the configuration as it is. -/
theorem name_eq_of_headerPath_eq {target target' : Target} (hname : '/' ∉ target.name.toList)
    (hname' : '/' ∉ target'.name.toList) (hpackage : target'.package = target.package)
    (h : target.headerPath = target'.headerPath) : target.name = target'.name := by
  have htext : ∀ {target : Target}, '/' ∉ target.name.toList →
      target.headerPath.text = (Target.below ["cfg", "cpp", target.package]).text ++
        (Target.below ["cfg", "cpp", target.package]).separator ++
          (target.configName ++ ".h").toList := by
    intro target hname
    exact Path.text_join _ ((Target.Names.generated .header).isEntryName hname).isAbsolute
  have hsame := htext hname'
  rw [← h, htext hname, hpackage] at hsame
  exact String.toList_inj.mp (by simpa [Target.configName] using List.append_cancel_left hsame)

/-- **When configurations of a package have different guards.**  The headers of two manifests with
the same package lie at different places as soon as the names differ.  They have different guards
exactly if the compiler takes every character of the package in names and the names of the
configurations differ in more than the case of letters; the guards are then made of the whole
package and the whole name.  Otherwise they do not, whatever the parameters are, and where both have
a guard a compiler passes over the second header. -/
theorem guard?_ne_iff (hpart : Cpp.IsAlphabet part) (hread : Manifest.read text file = .ok manifest)
    (hread' : Manifest.read text' file' = .ok manifest')
    (hpackage : manifest'.target.package = manifest.target.package)
    (parameters parameters' : List Parameter) :
    (manifest.target.name ≠ manifest'.target.name →
      manifest.target.headerPath ≠ manifest'.target.headerPath) ∧
      ∃ header header',
        Artifact.header.render manifest.target parameters Templates.builtin = .ok header ∧
        Artifact.header.render manifest'.target parameters' Templates.builtin = .ok header' ∧
        ((∀ c ∈ manifest.target.package.toList, part c = true) →
          Cpp.guard? part header = some (guardName manifest.target) ∧
          Cpp.guard? part header' = some (guardName manifest'.target)) ∧
        ((∃ name name', Cpp.guard? part header = some name ∧ Cpp.guard? part header' = some name' ∧
          name ≠ name') ↔
          (∀ c ∈ manifest.target.package.toList, part c = true) ∧
            manifest.target.name.toList.map Char.toUpper ≠
              manifest'.target.name.toList.map Char.toUpper) := by
  have hname := Manifest.read_isIdentifier hread
  have hname' := Manifest.read_isIdentifier hread'
  obtain ⟨more, hheader⟩ := exists_render_opening manifest.target parameters
  obtain ⟨more', hheader'⟩ := exists_render_opening manifest'.target parameters'
  have hcase : guardName manifest.target = guardName manifest'.target ↔
      manifest.target.name.toList.map Char.toUpper =
        manifest'.target.name.toList.map Char.toUpper := by
    rw [guardName, guardName, hpackage, ← Text.upperCase_eq hname.parts,
      ← Text.upperCase_eq hname'.parts]
    simp
  have hguards : (∀ c ∈ manifest.target.package.toList, part c = true) →
      Cpp.guard? part (opening manifest.target ++ '\n' :: more) = some (guardName manifest.target) ∧
      Cpp.guard? part (opening manifest'.target ++ '\n' :: more') =
        some (guardName manifest'.target) := fun hall =>
    ⟨guard?_opening_of_parts hpart hname hall more,
      guard?_opening_of_parts hpart hname' (by rwa [hpackage]) more'⟩
  refine ⟨?_, _, _, hheader, hheader', hguards, ?_, ?_⟩
  · exact mt
      (name_eq_of_headerPath_eq (hname.not_mem (by decide)) (hname'.not_mem (by decide)) hpackage)
  · rintro ⟨name, name', hguard, hguard', hne⟩
    have hall : ∀ c ∈ manifest.target.package.toList, part c = true := by
      intro c hc
      by_contra hend
      rw [guard?_opening_of_not_part hpart hname hname' hpackage hc
        (by simpa using hend) more more', hguard'] at hguard
      exact hne (Option.some.inj hguard).symm
    rw [(hguards hall).1] at hguard
    rw [(hguards hall).2] at hguard'
    cases hguard
    cases hguard'
    exact ⟨hall, mt hcase.mpr hne⟩
  · rintro ⟨hall, hdiffer⟩
    exact ⟨_, _, (hguards hall).1, (hguards hall).2, mt hcase.mp hdiffer⟩

set_option maxRecDepth 4000 in
/-- Two configurations whose names differ in the case of a letter have one guard. -/
theorem guard?_ne_iff_letterCase :
    Manifest.read "generator=['p','n','N']".toList "m" = .ok ⟨⟨"p", "n", "N"⟩, none, [], "m"⟩ ∧
    Manifest.read "generator=['p','n','n']".toList "m" = .ok ⟨⟨"p", "n", "n"⟩, none, [], "m"⟩ ∧
    ∃ header header',
      Artifact.header.render ⟨"p", "n", "N"⟩ [] Templates.builtin = .ok header ∧
      Artifact.header.render ⟨"p", "n", "n"⟩ [] Templates.builtin = .ok header' ∧
      Cpp.guard? isNamePart header = some "__p__NCONFIG_H__".toList ∧
      Cpp.guard? isNamePart header' = some "__p__NCONFIG_H__".toList := by
  have hread : Manifest.read "generator=['p','n','N']".toList "m" =
      .ok ⟨⟨"p", "n", "N"⟩, none, [], "m"⟩ := by cbv
  have hread' : Manifest.read "generator=['p','n','n']".toList "m" =
      .ok ⟨⟨"p", "n", "n"⟩, none, [], "m"⟩ := by cbv
  obtain ⟨_, header, header', hheader, hheader', hguards, _⟩ :=
    guard?_ne_iff Cpp.isAlphabet_isNamePart hread hread' rfl [] []
  have hpackage : ∀ c ∈ "p".toList, isNamePart c = true := List.all_eq_true.mp (by decide +kernel)
  have hupper : guardName ⟨"p", "n", "N"⟩ = "__p__NCONFIG_H__".toList := by decide +kernel
  have hlower : guardName ⟨"p", "n", "n"⟩ = "__p__NCONFIG_H__".toList := by decide +kernel
  obtain ⟨hguard, hguard'⟩ := hguards hpackage
  exact ⟨hread, hread', header, header', hheader, hheader', hupper ▸ hguard, hlower ▸ hguard'⟩

end Manifests

end Header
end Tunables
