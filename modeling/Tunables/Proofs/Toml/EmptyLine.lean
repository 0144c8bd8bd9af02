import Tunables.Proofs.Toml.Reading

/-!
# Empty lines in front of a document

The lines in front of a section may be empty, and however many there are, the section is read as
without them, only that it stands further back in the text.

* `manyFrom_emptyLine`: a reader of empty lines goes over line feeds.
* `read_of_leading_feeds`: a document that starts with a section, behind empty lines.
-/

namespace Tunables
namespace Toml

open Reader

/-- The sections up to the end of a text. -/
def lastSections : Reader (List Section) := do
  let found ← many sections
  let _ ← many emptyLine
  atEnd
  return found

section EmptyLines

theorem emptyLine_behind (before rest : List Char) :
    emptyLine (.behind before ('\n' :: rest)) = some ((), .behind (before ++ ['\n']) rest) := by
  have hoffset : Text.byteLength (before ++ ['\n']) = Text.byteLength before + 1 :=
    Text.byteLength_append before ['\n']
  unfold Cursor.behind
  rw [hoffset]
  rfl

/-- Line feeds are empty lines, and what comes next is behind them. -/
theorem manyFrom_emptyLine (before : List Char) (n : Nat) (rest : List Char) :
    (manyFrom emptyLine (.behind before (List.replicate n '\n' ++ rest))).2 =
      (manyFrom emptyLine (.behind (before ++ List.replicate n '\n') rest)).2 := by
  induction n generalizing before with
  | zero => rw [List.replicate_zero, List.nil_append, List.append_nil]
  | succ n ih =>
      have hstep := emptyLine_behind before (List.replicate n '\n' ++ rest)
      have hlt : (Cursor.behind (before ++ ['\n']) (List.replicate n '\n' ++ rest)).left <
          (Cursor.behind before ('\n' :: (List.replicate n '\n' ++ rest))).left :=
        Nat.lt_succ_self _
      rw [List.replicate_succ, List.cons_append, manyFrom, hstep]
      simp only [hlt, if_true]
      rw [ih, List.append_assoc, List.singleton_append]

theorem valueLine_behind_feeds (before : List Char) (n : Nat) (rest : List Char) :
    valueLine (.behind before (List.replicate n '\n' ++ rest)) =
      valueLine (.behind (before ++ List.replicate n '\n') rest) := by
  have hskip : ∀ cursor, valueLine cursor = (do
      blanks
      let found ← assignment blanks (value maxDepth)
      lineEnd
      return found : Reader Assignment) (manyFrom emptyLine cursor).2 := fun _ => rfl
  rw [hskip, hskip, manyFrom_emptyLine]

theorem headerLine_behind_feeds (before : List Char) (n : Nat) (rest : List Char) :
    headerLine (.behind before (List.replicate n '\n' ++ rest)) =
      headerLine (.behind (before ++ List.replicate n '\n') rest) := by
  have hskip : ∀ cursor, headerLine cursor = (do
      blanks
      let found ← spanned headerText
      lineEnd
      return ⟨found.value.1, found.span, found.value.2.1, found.value.2.2⟩ : Reader Header)
        (manyFrom emptyLine cursor).2 := fun _ => rfl
  rw [hskip, hskip, manyFrom_emptyLine]

theorem sections_behind_feeds (before : List Char) (n : Nat) (rest : List Char) :
    sections (.behind before (List.replicate n '\n' ++ rest)) =
      sections (.behind (before ++ List.replicate n '\n') rest) := by
  have hfirst : ∀ cursor, sections cursor =
      (headerLine cursor).bind fun found =>
        (do return ⟨found.1, ← many valueLine⟩ : Reader Section) found.2 := fun _ => rfl
  rw [hfirst, hfirst, headerLine_behind_feeds]

/-- Two places where a reader finds the same something have the same behind them. -/
theorem manyFrom_congr {α : Type} {reader : Reader α} {cursor other : Cursor}
    (h : reader cursor = reader other) (hle : other.left ≤ cursor.left)
    (hfound : (manyFrom reader other).1 ≠ []) :
    manyFrom reader cursor = manyFrom reader other := by
  rw [manyFrom] at hfound
  rw [manyFrom, manyFrom, h]
  cases hother : reader other with
  | none => simp [hother] at hfound
  | some found =>
      obtain ⟨value, next⟩ := found
      by_cases hlt : next.left < other.left
      · simp only [hlt, Nat.lt_of_lt_of_le hlt hle, if_true]
      · simp [hother, hlt] at hfound

theorem lastSections_eq_some_iff {cursor : Cursor} {parts : List Section} :
    (lastSections cursor).map Prod.fst = some parts ↔
      (manyFrom sections cursor).1 = parts ∧
        (manyFrom emptyLine (manyFrom sections cursor).2).2.rest = [] := by
  have hread : lastSections cursor =
      (atEnd (manyFrom emptyLine (manyFrom sections cursor).2).2).map
        fun stop => ((manyFrom sections cursor).1, stop.2) := by
    rw [Option.map_eq_bind]
    rfl
  rw [hread, atEnd]
  cases (manyFrom emptyLine (manyFrom sections cursor).2).2.rest <;> simp

/-- A document that starts with a section, and has nothing but empty lines in front of it. -/
theorem read_of_leading_feeds {n : Nat} {rest : List Char} {parts : List Section}
    (hvalue : valueLine (.behind (List.replicate (n + 1) '\n') rest) = none)
    (hparts : (lastSections (.behind (List.replicate (n + 1) '\n') rest)).map Prod.fst = some parts)
    (hfound : parts ≠ []) :
    read (List.replicate (n + 1) '\n' ++ rest) = build [] parts := by
  obtain ⟨rfl, hend⟩ := lastSections_eq_some_iff.mp hparts
  have hline : valueLine (.behind [] (List.replicate (n + 1) '\n' ++ rest)) = none := by
    rw [valueLine_behind_feeds]
    exact hvalue
  have hvalues : manyFrom valueLine (.behind [] (List.replicate (n + 1) '\n' ++ rest)) =
      ([], .behind [] (List.replicate (n + 1) '\n' ++ rest)) := by
    rw [manyFrom, hline]
  have hsections : manyFrom sections (.behind [] (List.replicate (n + 1) '\n' ++ rest)) =
      manyFrom sections (.behind (List.replicate (n + 1) '\n') rest) := by
    refine manyFrom_congr (sections_behind_feeds [] (n + 1) rest) ?_ hfound
    exact (List.suffix_append _ rest).length_le
  have hbody : body (.behind [] (List.replicate (n + 1) '\n' ++ rest)) =
      let values := manyFrom valueLine (.behind [] (List.replicate (n + 1) '\n' ++ rest))
      let found := manyFrom sections values.2
      (atEnd (manyFrom emptyLine found.2).2).map fun stop => ((values.1, found.1), stop.2) := by
    rw [Option.map_eq_bind]
    rfl
  rw [hvalues] at hbody
  simp only [hsections, atEnd, hend] at hbody
  have hrun : body.run (List.replicate (n + 1) '\n' ++ rest) =
      (body (.behind [] (List.replicate (n + 1) '\n' ++ rest))).map Prod.fst := rfl
  rw [read, hrun, hbody]
  rfl

end EmptyLines

end Toml
end Tunables
