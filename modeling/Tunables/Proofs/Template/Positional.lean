import Tunables.Proofs.Except
import Tunables.Proofs.Template.Pieces

/-!
# Templates with values that depend on the line

A template can be filled in one pass although some of its values change from line to line: the value
of a name is looked up for the line on which its dollar sign stands.  Lines are counted in the
template, so line feeds in the values do not matter.

* `fillAt_const`: with values that are the same everywhere this is the ordinary `fill`.
* `fillPiecesAt_append`: a list of pieces is filled part by part.
* `fillPiecesAt_eq_fillPieces`: on one line of the template the values of that line are all that
  counts.
* `fillPiecesAt_eq_error_congr`: a fault only depends on which names have a value.
-/

namespace Tunables
namespace Template

/-- The text that pieces stand for when the values depend on the line. -/
def fillPiecesAt (template : String) (values : Nat → Values) :
    Position → List Piece → Except Fault (List Char)
  | _, [] => .ok []
  | position, piece :: rest => do
      let value ← piece.value template (values position.line) position
      let others ← fillPiecesAt template values (position.afterText piece.source) rest
      return value ++ others

/-- A template with its values put in, in one pass and with the values of each line. -/
def fillAt (template : String) (firstLine : Nat) (values : Nat → Values) (source : List Char) :
    Except Fault (List Char) :=
  fillPiecesAt template values ⟨firstLine, 1⟩ (pieces source)

theorem fillPiecesAt_const (template : String) (values : Values) (position : Position)
    (pieces : List Piece) :
    fillPiecesAt template (fun _ => values) position pieces =
      fillPieces template values position pieces := by
  induction pieces generalizing position with
  | nil =>
      rfl
  | cons piece rest ih =>
      simp only [fillPiecesAt, fillPieces, ih]

theorem fillAt_const (template : String) (firstLine : Nat) (values : Values) (source : List Char) :
    fillAt template firstLine (fun _ => values) source = fill template firstLine values source :=
  fillPiecesAt_const template values _ _

@[simp] theorem fill_nil (template : String) (firstLine : Nat) (values : Values) :
    fill template firstLine values [] = .ok [] := by
  simp [fill, pieces, fillPieces]

section Positions

theorem Position.afterText_append (position : Position) (cs ds : List Char) :
    position.afterText (cs ++ ds) = (position.afterText cs).afterText ds := by
  simp [Position.afterText, List.foldl_append]

theorem Position.line_afterText {cs : List Char} (h : '\n' ∉ cs) (position : Position) :
    (position.afterText cs).line = position.line := by
  induction cs generalizing position with
  | nil =>
      rfl
  | cons c cs ih =>
      obtain ⟨hc, hcs⟩ : '\n' ≠ c ∧ '\n' ∉ cs := by simpa using h
      have hstep : (position.after c).line = position.line := by
        simp [Position.after, Ne.symm hc]
      show ((position.after c).afterText cs).line = position.line
      rw [ih hcs, hstep]

theorem Position.afterText_lineFeed (position : Position) :
    position.afterText ['\n'] = ⟨position.line + 1, 1⟩ := by
  simp [Position.afterText, Position.after]

end Positions

section Parts

variable (template : String) (values : Nat → Values)

theorem fillPiecesAt_append (position : Position) (front back : List Piece) :
    fillPiecesAt template values position (front ++ back) = (do
      let filled ← fillPiecesAt template values position front
      let others ← fillPiecesAt template values
        (position.afterText (front.flatMap Piece.source)) back
      return filled ++ others) := by
  induction front generalizing position with
  | nil =>
      exact (id_map _).symm
  | cons piece front ih =>
      simp only [List.cons_append, fillPiecesAt, ih, List.flatMap_cons, Position.afterText_append,
        bind_assoc, pure_bind, List.append_assoc]

theorem fillPieces_append (values : Values) (position : Position) (front back : List Piece) :
    fillPieces template values position (front ++ back) = (do
      let filled ← fillPieces template values position front
      let others ← fillPieces template values
        (position.afterText (front.flatMap Piece.source)) back
      return filled ++ others) := by
  simpa only [fillPiecesAt_const] using
    fillPiecesAt_append template (fun _ => values) position front back

/-- On one line of the template, its values are all that counts. -/
theorem fillPiecesAt_eq_fillPieces {position : Position} {pieces : List Piece}
    (h : '\n' ∉ pieces.flatMap Piece.source) :
    fillPiecesAt template values position pieces =
      fillPieces template (values position.line) position pieces := by
  induction pieces generalizing position with
  | nil =>
      rfl
  | cons piece rest ih =>
      obtain ⟨hpiece, hrest⟩ : '\n' ∉ piece.source ∧ '\n' ∉ rest.flatMap Piece.source := by
        simpa only [List.flatMap_cons, List.mem_append, not_or] using h
      rw [fillPiecesAt, fillPieces, ih hrest, Position.line_afterText hpiece]

end Parts

section Faults

variable {template : String}

theorem Piece.value_eq_error_congr {values others : Values}
    (h : ∀ name, (values name).isSome = (others name).isSome) {position : Position} {piece : Piece}
    {fault : Fault} (hfault : piece.value template values position = .error fault) :
    piece.value template others position = .error fault := by
  have hname : ∀ name, values name = none → others name = none := by
    intro name hnone
    have := h name
    rw [hnone] at this
    simpa using this.symm
  cases piece with
  | char c =>
      cases hfault
  | dollar =>
      cases hfault
  | stray =>
      exact hfault
  | bare name | braced name =>
      cases hvalue : values name with
      | some value =>
          simp [Piece.value, hvalue] at hfault
      | none =>
          simpa [Piece.value, hvalue, hname name hvalue] using hfault

theorem Piece.value_ok_congr {values others : Values}
    (h : ∀ name, (values name).isSome = (others name).isSome) {position : Position} {piece : Piece}
    {text : List Char} (hvalue : piece.value template values position = .ok text) :
    ∃ text', piece.value template others position = .ok text' := by
  cases hother : piece.value template others position with
  | ok text' =>
      exact ⟨text', rfl⟩
  | error fault =>
      rw [Piece.value_eq_error_congr (fun name => (h name).symm) hother] at hvalue
      cases hvalue

/-- Whether there is a fault, and which, only depends on which names have a value on which line. -/
theorem fillPiecesAt_eq_error_congr {values others : Nat → Values}
    (h : ∀ line name, (values line name).isSome = (others line name).isSome)
    {position : Position} {pieces : List Piece} {fault : Fault}
    (hfault : fillPiecesAt template values position pieces = .error fault) :
    fillPiecesAt template others position pieces = .error fault := by
  induction pieces generalizing position with
  | nil =>
      cases hfault
  | cons piece rest ih =>
      rw [fillPiecesAt, except_bind_eq_error_iff] at hfault ⊢
      rcases hfault with hpiece | ⟨text, hpiece, hrest⟩
      · exact Or.inl (Piece.value_eq_error_congr (h position.line) hpiece)
      · obtain ⟨text', hpiece'⟩ := Piece.value_ok_congr (h position.line) hpiece
        rw [except_bind_eq_error_iff] at hrest
        rcases hrest with hrest | ⟨_, _, hpure⟩
        · exact Or.inr ⟨text', hpiece', except_bind_eq_error_iff.mpr (Or.inl (ih hrest))⟩
        · cases hpure

end Faults

end Template
end Tunables
