import Tunables.Proofs.Artifact.Scripting
import Tunables.Proofs.Artifact.Statements
import Tunables.Proofs.Binary64.Reading
import Tunables.Proofs.Parameter.Acceptance

/-!
# What the written values stand for

A value is written in three ways: as an expression of C++, as an expression of Python, and in the
notation of the documentation.  All three stand for the value itself.  A `double` is written in such
a way that it is never taken for an integer.

* `Cpp.evaluate`: the value of a constant expression of C++; `Cpp.Value.as`: what a variable of
  some type gets from it.
* `Python.Value.literal`: what a value of Python is for a parameter.
* `Documentation.read`: what a text of the documentation stands for.
* `IsDoubleText`: the texts of floating-point numbers.
* `Parameter.value_read`: the values of an accepted parameter are read back from all three.
-/

namespace Tunables

/-- A number with the other sign. -/
def Binary64.negate : Binary64 → Binary64
  | .nan => .nan
  | .infinite negative => .infinite (!negative)
  | .finite negative x => .finite (!negative) x

namespace Cpp

/-- The value of an expression. -/
inductive Value where
  | text (content : List Char)
  | int (n : MachineInt)
  | double (x : Binary64)

/-- The names and operators of the expression for infinity. -/
def infinityParts : List (List Char) :=
  ["std", "::", "numeric_limits", "<", "double", ">", "::", "infinity", "(", ")"].map String.toList

/-- The value of an expression without a sign.  A number without a point is an `int`, if it fits
there; numbers that do not fit are refused. -/
def primary : List Token → Option Value
  | [.text content] => some (.text content)
  | [.number (.whole n)] => if h : FitsInt n then some (.int ⟨n, h⟩) else none
  | [.number (.floating written)] => some (.double (.ofLiteral written))
  | [.word name] =>
      if name = "INT_MIN".toList then some (.int ⟨intMin, fitsInt_intMin⟩)
      else if name = "INT_MAX".toList then some (.int ⟨intMax, fitsInt_intMax⟩)
      else none
  | [.word space, .symbol inner, .word limits, .symbol less, .word type, .symbol greater,
      .symbol scope, .word infinity, .symbol start, .symbol finish] =>
      if [space, inner, limits, less, type, greater, scope, infinity, start, finish] =
        infinityParts then
          some (.double .infinity)
      else none
  | _ => none

/-- The negative of a value. -/
def Value.negate : Value → Option Value
  | .text _ => none
  | .int n => if h : FitsInt (-n) then some (.int ⟨-n, h⟩) else none
  | .double x => some (.double x.negate)

/-- The value of an expression, which may have a minus sign. -/
def evaluate : List Token → Option Value
  | .symbol ['-'] :: tokens => (primary tokens).bind Value.negate
  | tokens => primary tokens

/-- What a variable of the type of a kind gets from a value.  Truth values are given as an `int`. -/
def Value.as : Kind → Value → Option Literal
  | .str, .text content => some (.text (String.ofList content))
  | .bool, .int n => some (.bool (n.val != 0))
  | .int, .int n => some (.int n)
  | .double, .double x => some (.double x)
  | _, _ => none

/-- Reads an expression that is given for a variable of the type of a kind. -/
def readValue (kind : Kind) (cs : List Char) : Option Literal := do
  let value ← evaluate (← tokens cs)
  value.as kind

end Cpp

namespace Python

/-- The number that a floating-point number of Python is, a sign in front or not. -/
def ofFloat : List Char → Binary64
  | '-' :: written => (Binary64.ofLiteral written).negate
  | written => .ofLiteral written

/-- What a value is for a parameter. -/
def Value.literal : Value → Option Literal
  | .text content => some (.text (String.ofList content))
  | .truth b => some (.bool b)
  | .integer n => if h : FitsInt n then some (.int ⟨n, h⟩) else none
  | .float written => some (.double (ofFloat written))
  | .infinity isNegative => some (.double (.infinite isNegative))
  | .list _ => none
  | .dict _ => none

/-- Reads an expression for a parameter. -/
def readValue (cs : List Char) : Option Literal := do
  (← read cs).literal

end Python

namespace Documentation

/-- Reads a value of the given kind as the documentation writes it: strings as they are, truth
values as words, and numbers as C++ has them. -/
def read : Kind → List Char → Option Literal
  | .str, cs => some (.text (String.ofList cs))
  | .bool, cs =>
      if cs = "true".toList then some (.bool true)
      else if cs = "false".toList then some (.bool false)
      else none
  | kind, cs => Cpp.readValue kind cs

end Documentation

/-- The texts of floating-point numbers in a language in which the given expression is infinity:
this expression, or a literal with a point or an exponent, and a sign in front or not. -/
inductive IsDoubleText (infinity : List Char) : List Char → Prop
  | infinite (negative : Bool) : IsDoubleText infinity (Binary64.signText negative ++ infinity)
  | literal (negative : Bool) {written : List Char} :
      Text.IsFloatingText written →
      '.' ∈ written ∨ 'e' ∈ written →
      IsDoubleText infinity (Binary64.signText negative ++ written)

/-- A text that is taken for an integer: digits, and a sign in front or not. -/
def IsIntegerText (cs : List Char) : Prop :=
  ∃ negative digits, Text.IsDigits digits ∧ cs = Binary64.signText negative ++ digits

/-- The kind of a value. -/
def Literal.kind : Literal → Kind
  | .text _ => .str
  | .bool _ => .bool
  | .int _ => .int
  | .double _ => .double

section Doubles

variable {infinity cs : List Char}

/-- A text with a character that is no digit and no sign is not taken for an integer. -/
theorem not_isIntegerText {c : Char} (hmem : c ∈ cs) (hdigit : c.isDigit = false)
    (hsign : c ≠ '-') : ¬ IsIntegerText cs := by
  rintro ⟨negative, digits, hdigits, rfl⟩
  rcases List.mem_append.mp hmem with hc | hc
  · cases negative with
    | false => cases hc
    | true => exact hsign (List.mem_singleton.mp hc)
  · rw [hdigits.all c hc] at hdigit
    cases hdigit

theorem IsDoubleText.not_isIntegerText (h : IsDoubleText infinity cs) (hinfinity : 'n' ∈ infinity) :
    ¬ IsIntegerText cs := by
  cases h with
  | infinite negative =>
      exact Tunables.not_isIntegerText (List.mem_append_right _ hinfinity) (by decide) (by decide)
  | literal negative hwritten hmark =>
      rcases hmark with hmark | hmark
      · exact Tunables.not_isIntegerText (List.mem_append_right _ hmark) (by decide) (by decide)
      · exact Tunables.not_isIntegerText (List.mem_append_right _ hmark) (by decide) (by decide)

theorem Text.IsFloatingText.mem_mark (h : Text.IsFloatingText cs) : '.' ∈ cs ∨ 'e' ∈ cs := by
  cases h with
  | positional _ _ | pointed _ _ => exact Or.inl (by simp)
  | scientific _ => exact Or.inr (by simp)

/-- A finite number is written as a literal. -/
theorem isDoubleText_finite (negative : Bool) (x : Binary64.Magnitude) :
    IsDoubleText infinity (Binary64.text .literal (.finite negative x)) :=
  .literal negative (x.isFloatingText .literal) (x.isFloatingText .literal).mem_mark

theorem isDoubleText_cppDouble {x : Binary64} (h : x.isNaN = false) :
    IsDoubleText Literal.cppInfinity (Literal.cppDouble x) := by
  cases x with
  | nan => cases h
  | infinite negative => exact .infinite negative
  | finite negative x => exact isDoubleText_finite negative x

theorem isDoubleText_python {x : Binary64} (h : x.isNaN = false) :
    IsDoubleText "float('inf')".toList (Literal.python (.double x)) := by
  cases x with
  | nan => cases h
  | infinite negative => exact .infinite negative
  | finite negative x => exact isDoubleText_finite negative x

end Doubles

section Cpp

theorem Literal.tokens_cpp (literal : Literal) :
    Cpp.tokens literal.cpp = some literal.cppTokens := by
  have hproper : ∀ token ∈ (literal.cppTokens.map some).reduceOption, token.IsProper := by
    rw [Cpp.reduceOption_map_some]
    exact literal.isProper_of_mem_cppTokens
  have hread := Cpp.tokens_write hproper (Cpp.isSpaced_of_append literal.isSpaced_cppTokens)
  rwa [Cpp.reduceOption_map_some, ← cpp_eq_write] at hread

/-- An `int` is given by its name, or by its size and its sign. -/
theorem Cpp.evaluate_intTokens (n : MachineInt) :
    evaluate (Literal.intTokens n) = some (.int n) := by
  obtain ⟨n, hn⟩ := n
  unfold Literal.intTokens
  split
  · next hmin =>
    obtain rfl : n = intMin := hmin
    rfl
  split
  · next hmax =>
    obtain rfl : n = intMax := hmax
    rfl
  · next hmin hmax =>
    simp only at hmin hmax
    have hsize : FitsInt n.natAbs := by
      simp only [FitsInt, intMin, intMax] at hn hmin ⊢
      omega
    have hprimary : primary [.number (.whole n.natAbs)] = some (.int ⟨n.natAbs, hsize⟩) := by
      rw [primary, dif_pos hsize]
    by_cases hnegative : n < 0
    · have hvalue : -(n.natAbs : Int) = n := by omega
      have hnegate : (Value.int ⟨n.natAbs, hsize⟩).negate = some (.int ⟨n, hn⟩) := by
        simp only [Value.negate, hvalue]
        rw [dif_pos hn]
      simp only [hnegative, decide_true, Literal.signTokens, if_true]
      change (primary [.number (.whole n.natAbs)]).bind Value.negate = _
      rw [hprimary]
      exact hnegate
    · have hvalue : (n.natAbs : Int) = n := by omega
      simp only [hnegative, decide_false, Literal.signTokens, Bool.false_eq_true, if_false]
      change primary [.number (.whole n.natAbs)] = _
      rw [hprimary]
      simp only [hvalue]

theorem Cpp.evaluate_doubleTokens {x : Binary64} (h : x.isNaN = false) :
    evaluate (Literal.doubleTokens x) = some (.double x) := by
  cases x with
  | nan => cases h
  | infinite negative => cases negative <;> rfl
  | finite negative x =>
      have hprimary : primary [.number (.floating (x.text .literal))] =
          some (.double (.finite false x)) := by
        rw [primary, x.ofLiteral_text]
      cases negative with
      | false => exact hprimary
      | true =>
          change (primary [.number (.floating (x.text .literal))]).bind Value.negate = _
          rw [hprimary]
          rfl

/-- The expression for a value is read as the value. -/
theorem Literal.readValue_cpp {literal : Literal} (h : literal.isNaN = false) :
    Cpp.readValue literal.kind literal.cpp = some literal := by
  simp only [Cpp.readValue, literal.tokens_cpp, Option.bind_eq_bind, Option.bind_some]
  cases literal with
  | text value => simp [cppTokens, Cpp.evaluate, Cpp.primary, Cpp.Value.as, kind]
  | bool value => cases value <;> rfl
  | int value => rw [cppTokens, Cpp.evaluate_intTokens]; rfl
  | double value => rw [cppTokens, Cpp.evaluate_doubleTokens h]; rfl

end Cpp

section Python

theorem Literal.literal_pythonValue {literal : Literal} (h : literal.isNaN = false) :
    literal.pythonValue.literal = some literal := by
  cases literal with
  | text value => simp [pythonValue, Python.Value.literal]
  | bool value => rfl
  | int value => rw [pythonValue, Python.Value.literal, dif_pos value.property]
  | double value =>
      cases value with
      | nan => cases h
      | infinite negative => rfl
      | finite negative x =>
          have hvalue : Python.ofFloat (Binary64.text .literal (.finite negative x)) =
              .finite negative x := by
            cases negative with
            | true =>
                change (Binary64.ofLiteral (x.text .literal)).negate = _
                rw [x.ofLiteral_text]
                rfl
            | false =>
                obtain ⟨c, hc, hdigit⟩ := (x.isFloatingText .literal).head?_isDigit
                obtain ⟨cs, hcs⟩ := List.head?_eq_some_iff.mp hc
                change Python.ofFloat (x.text .literal) = _
                rw [hcs, Python.ofFloat, ← hcs, x.ofLiteral_text]
                rintro rest hrest
                exact Text.ne_of_class hdigit (show '-'.isDigit = false by decide)
                  (List.cons.inj hrest).1
          rw [pythonValue, Python.Value.literal, hvalue]
          rintro negative ⟨⟩

/-- The expression for a value is read as the value. -/
theorem Literal.readValue_python {literal : Literal} (h : literal.isNaN = false) :
    Python.readValue literal.python = some literal := by
  rw [Python.readValue, Python.read_of_writes (writes_python h Python.maxDepth)]
  exact literal_pythonValue h

end Python

/-- The text of a value in the documentation is read as the value. -/
theorem Literal.read_doc {literal : Literal} (h : literal.isNaN = false) :
    Documentation.read literal.kind literal.doc = some literal := by
  cases literal with
  | text value => simp [doc, Documentation.read, kind]
  | bool value => cases value <;> rfl
  | int value => exact @readValue_cpp (.int value) h
  | double value => exact @readValue_cpp (.double value) h

namespace Parameter

/-- The values of a parameter are of its kind. -/
theorem kind_value (parameter : Parameter) (field : Field) :
    (parameter.value field).kind = parameter.kind := by
  obtain ⟨_, payload, _, _, _, _⟩ := parameter
  cases payload <;> cases field <;> rfl

theorem IsAccepted.isNaN_value {parameter : Parameter} (h : parameter.IsAccepted) (field : Field) :
    (parameter.value field).isNaN = false := by
  obtain ⟨hdefault, hmin, hmax⟩ := h.isNaN_eq_false
  cases field with
  | default => exact hdefault
  | min => exact hmin
  | max => exact hmax

/-- The values of an accepted parameter are read back from C++, from Python and from the
documentation, and its floating-point numbers are nowhere taken for integers. -/
theorem value_read (parameter : Parameter) (h : parameter.IsAccepted) (field : Field) :
    Cpp.readValue parameter.kind (parameter.value field).cpp = some (parameter.value field) ∧
      Python.readValue (parameter.value field).python = some (parameter.value field) ∧
      Documentation.read parameter.kind (parameter.value field).doc = some (parameter.value field) ∧
      (parameter.kind = .double →
        (IsDoubleText Literal.cppInfinity (parameter.value field).cpp ∧
          ¬ IsIntegerText (parameter.value field).cpp) ∧
        (IsDoubleText "float('inf')".toList (parameter.value field).python ∧
          ¬ IsIntegerText (parameter.value field).python) ∧
        IsDoubleText Literal.cppInfinity (parameter.value field).doc ∧
        ¬ IsIntegerText (parameter.value field).doc) := by
  have hnumber := h.isNaN_value field
  rw [← parameter.kind_value field]
  refine ⟨Literal.readValue_cpp hnumber, Literal.readValue_python hnumber, Literal.read_doc hnumber,
    fun hkind => ?_⟩
  cases hvalue : parameter.value field with
  | text _ | bool _ | int _ =>
      rw [hvalue] at hkind
      cases hkind
  | double x =>
      rw [hvalue] at hnumber
      have hcpp := isDoubleText_cppDouble hnumber
      have hpython := isDoubleText_python hnumber
      exact ⟨⟨hcpp, hcpp.not_isIntegerText (by decide)⟩,
        ⟨hpython, hpython.not_isIntegerText (by decide)⟩, hcpp, hcpp.not_isIntegerText (by decide)⟩

/-- A parameter whose default is the number next to zero on the negative side, which is
subnormal. -/
def faintest : Parameter :=
  ⟨"gain", .double (.finite true ⟨1, -1074, by decide⟩) .negInfinity .infinity, 1, "", "",
    ⟨"a.toml", 3⟩⟩

/-- The subnormal default is written as `-5e-324` and read back. -/
theorem value_read_faintest :
    (faintest.value .default).cpp = "-5e-324".toList ∧
      Cpp.readValue .double "-5e-324".toList = some (faintest.value .default) ∧
      Python.readValue "-5e-324".toList = some (faintest.value .default) ∧
      Documentation.read .double "-5e-324".toList = some (faintest.value .default) ∧
      IsDoubleText Literal.cppInfinity "-5e-324".toList ∧ ¬ IsIntegerText "-5e-324".toList := by
  have haccepted : faintest.IsAccepted :=
    ⟨⟨"gain", .double, 1, "", some (.double (.finite true ⟨1, -1074, by decide⟩)), none, none, ""⟩,
      ⟨"a.toml", 3⟩, rfl⟩
  have hcpp : (faintest.value .default).cpp = "-5e-324".toList := by decide +kernel
  have hpython : (faintest.value .default).python = "-5e-324".toList := by decide +kernel
  have hdoc : (faintest.value .default).doc = "-5e-324".toList := by decide +kernel
  have hread := value_read faintest haccepted .default
  rw [hcpp, hpython, hdoc] at hread
  exact ⟨hcpp, hread.1, hread.2.1, hread.2.2.1, (hread.2.2.2 rfl).1⟩

end Parameter
end Tunables
