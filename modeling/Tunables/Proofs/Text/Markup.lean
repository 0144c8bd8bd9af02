import Mathlib.Data.List.Infix
import Tunables.Text.Escape
import Tunables.Text.Lines

/-!
# Reading attributes of markup

How XML reads the text between the quotes of an attribute: an entity, which is a name between an
ampersand and a semicolon, stands for a character, and all others stand for themselves.  The quote,
the less-than sign and an ampersand that begins no entity may not stand there as they are.

* `readAttribute_escapeXml`: a text that was escaped is read back, and no tag begins in it
  (`not_mem_escapeXml`).
* Only four characters are escaped.  Line feeds stay (`lineFeeds_escapeXml`), and so does a command
  that begins with a backslash (`command_infix_escapeXml`).
-/

namespace Tunables
namespace Text

section Reader

/-- The character that an entity stands for. -/
def entity? (name : List Char) : Option Char :=
  if name = "amp".toList then some '&'
  else if name = "lt".toList then some '<'
  else if name = "gt".toList then some '>'
  else if name = "quot".toList then some '"'
  else if name = "apos".toList then some '\''
  else none

/-- Reads the text of an attribute; inside an entity, `pending` is the part of its name in front. -/
def readAttributeFrom : (pending : Option (List Char)) → List Char → Option (List Char)
  | none, [] => some []
  | some _, [] => none
  | none, c :: cs =>
      if c = '&' then readAttributeFrom (some []) cs
      else if c = '<' ∨ c = '"' then none
      else (readAttributeFrom none cs).map (c :: ·)
  | some name, c :: cs =>
      if c = ';' then
        match entity? name with
        | some d => (readAttributeFrom none cs).map (d :: ·)
        | none => none
      else readAttributeFrom (some (name ++ [c])) cs

/-- Reads the text between the quotes of an attribute. -/
def readAttribute (text : List Char) : Option (List Char) :=
  readAttributeFrom none text

end Reader

section Escape

/-- The characters that are escaped inside an attribute. -/
def escapesMarkup (c : Char) : Prop :=
  c = '&' ∨ c = '<' ∨ c = '>' ∨ c = '"'

theorem escapeXmlChar_plain {c : Char} (h : ¬ escapesMarkup c) : escapeXmlChar c = [c] := by
  simp only [escapesMarkup, not_or] at h
  simp [escapeXmlChar, h]

@[simp] theorem escapeXml_nil : escapeXml [] = [] :=
  rfl

@[simp] theorem escapeXml_cons (c : Char) (cs : List Char) :
    escapeXml (c :: cs) = escapeXmlChar c ++ escapeXml cs := by
  simp [escapeXml]

theorem escapeXml_plain {text : List Char} (h : ∀ c ∈ text, ¬ escapesMarkup c) :
    escapeXml text = text := by
  induction text with
  | nil =>
      rfl
  | cons c cs ih =>
      obtain ⟨hc, hcs⟩ := List.forall_mem_cons.mp h
      rw [escapeXml_cons, escapeXmlChar_plain hc, ih hcs]
      rfl

/-- A character is escaped as an entity that is read as the character. -/
theorem readAttributeFrom_escapeXmlChar (c : Char) (more : List Char) :
    readAttributeFrom none (escapeXmlChar c ++ more) =
      (readAttributeFrom none more).map (c :: ·) := by
  by_cases h : escapesMarkup c
  · rcases h with rfl | rfl | rfl | rfl <;> simp [escapeXmlChar, readAttributeFrom, entity?]
  · rw [escapeXmlChar_plain h]
    simp only [escapesMarkup, not_or] at h
    simp [readAttributeFrom, h]

/-- A text that was escaped is read back. -/
theorem readAttribute_escapeXml (text : List Char) :
    readAttribute (escapeXml text) = some text := by
  rw [readAttribute]
  induction text with
  | nil =>
      rfl
  | cons c cs ih =>
      rw [escapeXml_cons, readAttributeFrom_escapeXmlChar, ih]
      rfl

/-- No tag can begin in an escaped text. -/
theorem not_mem_escapeXml (text : List Char) : '<' ∉ escapeXml text := by
  induction text with
  | nil =>
      simp
  | cons c cs ih =>
      have hblock : '<' ∉ escapeXmlChar c := by
        by_cases h : escapesMarkup c
        · rcases h with rfl | rfl | rfl | rfl <;> decide
        · rw [escapeXmlChar_plain h, List.mem_singleton]
          rintro rfl
          exact h (by simp [escapesMarkup])
      rw [escapeXml_cons, List.mem_append, not_or]
      exact ⟨hblock, ih⟩

theorem lineFeeds_escapeXml (text : List Char) : lineFeeds (escapeXml text) = lineFeeds text := by
  induction text with
  | nil =>
      rfl
  | cons c cs ih =>
      have hblock : lineFeeds (escapeXmlChar c) = lineFeeds [c] := by
        by_cases h : escapesMarkup c
        · rcases h with rfl | rfl | rfl | rfl <;> decide
        · rw [escapeXmlChar_plain h]
      simp only [lineFeeds, escapeXml_cons, List.count_append] at ih hblock ⊢
      rw [ih, hblock, ← List.count_append]
      rfl

end Escape

section Commands

/-- A text in which the first character of another does not occur can stand in front without
making that text occur. -/
theorem infix_append_of_not_mem {c : Char} {pattern front : List Char} (h : c ∉ front)
    (text : List Char) :
    c :: pattern <:+: front ++ text ↔ c :: pattern <:+: text := by
  induction front with
  | nil =>
      rfl
  | cons d ds ih =>
      obtain ⟨hd, hds⟩ : c ≠ d ∧ c ∉ ds := by simpa using h
      rw [List.cons_append, List.infix_cons_iff, ih hds, List.cons_prefix_cons]
      simp [hd]

theorem prefix_separated_iff {c : Char} {pattern : List Char} (h : c ∉ pattern)
    (front back : List Char) :
    pattern <+: front ++ c :: back ↔ pattern <+: front := by
  induction pattern generalizing front with
  | nil =>
      simp
  | cons p ps ih =>
      obtain ⟨hp, hps⟩ : c ≠ p ∧ c ∉ ps := by simpa using h
      cases front with
      | nil =>
          simp [List.cons_prefix_cons, hp.symm]
      | cons d ds =>
          rw [List.cons_append, List.cons_prefix_cons, List.cons_prefix_cons, ih hps]

/-- A text occurs on one side of a character that it does not have. -/
theorem infix_separated_iff {c : Char} {pattern : List Char} (h : c ∉ pattern)
    (front back : List Char) :
    pattern <:+: front ++ c :: back ↔ pattern <:+: front ∨ pattern <:+: back := by
  induction front with
  | nil =>
      rw [List.nil_append, List.infix_cons_iff, ← List.nil_append (c :: back),
        prefix_separated_iff h]
      simp
  | cons d ds ih =>
      rw [List.cons_append, List.infix_cons_iff, ih, ← List.cons_append, prefix_separated_iff h,
        List.infix_cons_iff, or_assoc]

theorem prefix_escapeXml_iff {pattern : List Char} (h : ∀ c ∈ pattern, ¬ escapesMarkup c)
    (text : List Char) :
    pattern <+: escapeXml text ↔ pattern <+: text := by
  induction pattern generalizing text with
  | nil =>
      simp
  | cons p ps ih =>
      obtain ⟨hp, hps⟩ := List.forall_mem_cons.mp h
      cases text with
      | nil =>
          simp
      | cons c cs =>
          by_cases hc : escapesMarkup c
          · have hne : p ≠ c := by
              rintro rfl
              exact hp hc
            have hamp : p ≠ '&' := by
              rintro rfl
              exact hp (Or.inl rfl)
            rw [List.cons_prefix_cons]
            rcases hc with rfl | rfl | rfl | rfl <;>
              simp [escapeXmlChar, List.cons_prefix_cons, hne, hamp]
          · rw [escapeXml_cons, escapeXmlChar_plain hc, List.singleton_append,
              List.cons_prefix_cons, List.cons_prefix_cons, ih hps]

/-- Escaping neither hides a command nor makes one. -/
theorem command_infix_escapeXml {name : List Char} (h : ∀ c ∈ name, ¬ escapesMarkup c)
    (text : List Char) :
    '\\' :: name <:+: escapeXml text ↔ '\\' :: name <:+: text := by
  have hcommand : ∀ c ∈ '\\' :: name, ¬ escapesMarkup c :=
    List.forall_mem_cons.mpr ⟨by simp [escapesMarkup], h⟩
  induction text with
  | nil =>
      exact Iff.rfl
  | cons c cs ih =>
      rw [List.infix_cons_iff]
      by_cases hc : escapesMarkup c
      · have hfront : ¬ '\\' :: name <+: c :: cs := by
          rw [List.cons_prefix_cons]
          rintro ⟨rfl, -⟩
          exact hcommand _ List.mem_cons_self hc
        have hblock : '\\' ∉ escapeXmlChar c := by
          rcases hc with rfl | rfl | rfl | rfl <;> decide
        rw [escapeXml_cons, infix_append_of_not_mem hblock]
        exact ih.trans (or_iff_right hfront).symm
      · rw [← prefix_escapeXml_iff hcommand, escapeXml_cons, escapeXmlChar_plain hc,
          List.singleton_append, List.infix_cons_iff]
        exact or_congr_right ih

end Commands

end Text
end Tunables
