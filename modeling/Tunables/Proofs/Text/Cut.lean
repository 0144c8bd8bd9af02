import Tunables.Text.Lines

/-!
# Cutting texts at a separator

How the parts of a text come about, and that parts without the separator are found again in the text
that they are joined to (`cut_join`).
-/

namespace Tunables
namespace Text

variable {sep : Char}

theorem cut_of_not_mem {cs : List Char} (h : sep ∉ cs) : cut sep cs = [cs] := by
  induction cs with
  | nil =>
      rfl
  | cons c cs ih =>
      obtain ⟨hc, hcs⟩ : sep ≠ c ∧ sep ∉ cs := by simpa using h
      simp [cut, Ne.symm hc, ih hcs]

theorem cut_append (sep : Char) (before after : List Char) :
    cut sep (before ++ sep :: after) = cut sep before ++ cut sep after := by
  induction before with
  | nil =>
      simp [cut]
  | cons c cs ih =>
      by_cases hc : c = sep
      · simp [cut, hc, ih]
      · cases hcut : cut sep cs with
        | nil =>
            exact absurd hcut (cut_ne_nil sep cs)
        | cons part parts =>
            simp [cut, hc, ih, hcut]

theorem cut_join {parts : List (List Char)} (hne : parts ≠ []) (h : ∀ part ∈ parts, sep ∉ part) :
    cut sep (join [sep] parts) = parts := by
  induction parts with
  | nil =>
      exact absurd rfl hne
  | cons part parts ih =>
      have hpart : sep ∉ part := h part (by simp)
      cases parts with
      | nil =>
          exact cut_of_not_mem hpart
      | cons next parts =>
          have hrest := ih (by simp) fun other hother => h other (List.mem_cons_of_mem _ hother)
          have hjoin : join [sep] (part :: next :: parts) =
              part ++ sep :: join [sep] (next :: parts) := by
            simp [join]
          rw [hjoin, cut_append, cut_of_not_mem hpart, hrest]
          rfl

theorem not_mem_of_mem_cut {cs part : List Char} (h : part ∈ cut sep cs) : sep ∉ part := by
  induction cs generalizing part with
  | nil =>
      have hpart : part = [] := by simpa [cut] using h
      simp [hpart]
  | cons c cs ih =>
      by_cases hc : c = sep
      · rw [cut, if_pos hc] at h
        rcases List.mem_cons.mp h with rfl | h
        · simp
        · exact ih h
      · cases hcut : cut sep cs with
        | nil =>
            exact absurd hcut (cut_ne_nil sep cs)
        | cons first rest =>
            rw [hcut] at ih
            simp only [cut, if_neg hc, hcut] at h
            rcases List.mem_cons.mp h with rfl | h
            · have hfirst : sep ∉ first := ih (by simp)
              simpa using ⟨Ne.symm hc, hfirst⟩
            · exact ih (List.mem_cons_of_mem _ h)

end Text
end Tunables
