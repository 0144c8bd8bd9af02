/-!
# Names of members and classes

A name becomes the name of a C++ member, and so it has to be an identifier of ASCII letters, digits
and underscores. Names that start with two underscores are kept for the members that every
generated class has.

`IdentifierFault.of?` finds the first rule that a name breaks; `IsIdentifier` states the rules
together, and `of?_eq_none_iff` says that the two agree.
-/

namespace Tunables

/-- A letter or an underscore. -/
def isNameStart (c : Char) : Bool :=
  c.isAlpha || c == '_'

/-- A letter, a digit or an underscore. -/
def isNamePart (c : Char) : Bool :=
  c.isAlphanum || c == '_'

/-- The rule that a name breaks. -/
inductive IdentifierFault where
  | empty
  | start
  | character
  | reserved
deriving DecidableEq, Repr

namespace IdentifierFault

/-- The first rule that a name breaks, if any. -/
def of? : List Char → Option IdentifierFault
  | [] => some .empty
  | c :: cs =>
      if !isNameStart c then some .start
      else if !cs.all isNamePart then some .character
      else if ['_', '_'].isPrefixOf (c :: cs) then some .reserved
      else none

/-- The rule in words. -/
def reason : IdentifierFault → String
  | .empty => "name cannot be empty"
  | .start => "name must start with a letter or underscore"
  | .character => "name must contain only letters, numbers, and underscores"
  | .reserved => "names starting with '__' are reserved"

end IdentifierFault

/-- The rules for names. -/
structure IsIdentifier (name : List Char) : Prop where
  starts : ∃ c ∈ name.head?, isNameStart c = true
  parts : ∀ c ∈ name, isNamePart c = true
  unreserved : ¬ ['_', '_'] <+: name

theorem isNamePart_of_isNameStart {c : Char} (h : isNameStart c = true) : isNamePart c = true := by
  simp only [isNameStart, isNamePart, Char.isAlphanum, Bool.or_eq_true] at h ⊢
  rcases h with h | h
  · exact Or.inl (Or.inl h)
  · exact Or.inr h

theorem IdentifierFault.of?_eq_none_iff (name : List Char) :
    IdentifierFault.of? name = none ↔ IsIdentifier name := by
  cases name with
  | nil =>
    constructor
    · intro h
      simp [of?] at h
    · intro h
      obtain ⟨c, hc, _⟩ := h.starts
      simp at hc
  | cons c cs =>
    constructor
    · intro h
      simp only [of?] at h
      split at h
      · simp at h
      split at h
      · simp at h
      split at h
      · simp at h
      next hstart hparts hreserved =>
        have hstart : isNameStart c = true := by simpa using hstart
        have hparts : ∀ d ∈ cs, isNamePart d = true := by simpa using hparts
        refine ⟨⟨c, rfl, hstart⟩, ?_, ?_⟩
        · intro d hd
          rcases List.mem_cons.mp hd with rfl | hd
          · exact isNamePart_of_isNameStart hstart
          · exact hparts d hd
        · intro h
          exact hreserved (List.isPrefixOf_iff_prefix.mpr h)
    · rintro ⟨⟨d, hd, hstart⟩, hparts, hreserved⟩
      have hd : c = d := by simpa using hd
      subst hd
      have hcs : cs.all isNamePart = true :=
        List.all_eq_true.mpr fun e he => hparts e (List.mem_cons_of_mem _ he)
      have hpre : ['_', '_'].isPrefixOf (c :: cs) = false := by
        rw [Bool.eq_false_iff]
        exact fun h => hreserved (List.isPrefixOf_iff_prefix.mp h)
      simp [of?, hstart, hcs, hpre]

/-- The words that C++ keeps for itself. -/
def cppKeywords : List String := [
  "alignas", "alignof", "and", "and_eq", "asm", "auto", "bitand", "bitor", "bool", "break",
  "case", "catch", "char", "class", "compl", "const", "constexpr", "const_cast", "continue",
  "decltype", "default", "delete", "do", "double", "dynamic_cast", "else", "enum", "explicit",
  "export", "extern", "false", "float", "for", "friend", "goto", "if", "inline", "int", "long",
  "mutable", "namespace", "new", "noexcept", "not", "not_eq", "nullptr", "operator", "or",
  "or_eq", "private", "protected", "public", "register", "reinterpret_cast", "return", "short",
  "signed", "sizeof", "static", "static_assert", "static_cast", "struct", "switch", "template",
  "this", "thread_local", "throw", "true", "try", "typedef", "typeid", "typename", "union",
  "unsigned", "using", "virtual", "void", "volatile", "wchar_t", "while", "xor", "xor_eq"]

/-- A word that C++ keeps for itself. -/
def isCppKeyword (name : String) : Bool :=
  cppKeywords.contains name

end Tunables
