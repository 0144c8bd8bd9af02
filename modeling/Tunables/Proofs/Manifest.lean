import Tunables.Manifest.Basic

/-!
# Names in manifests

A manifest that was read has an identifier for the name of its configuration.  Nothing is
asked of the package.
-/

namespace Tunables

theorem IsIdentifier.not_mem {name : List Char} (h : IsIdentifier name) {c : Char}
    (hc : isNamePart c = false) :
    c ∉ name := by
  intro hmem
  rw [h.parts c hmem] at hc
  cases hc

/-- A name stays an identifier with more characters of names behind it, unless an
underscore comes first. -/
theorem IsIdentifier.append {name suffix : List Char} (h : IsIdentifier name)
    (hparts : ∀ c ∈ suffix, isNamePart c = true) (hhead : suffix.head? ≠ some '_') :
    IsIdentifier (name ++ suffix) := by
  obtain ⟨c, hc, hstart⟩ := h.starts
  obtain ⟨rest, rfl⟩ := List.head?_eq_some_iff.mp hc
  refine ⟨⟨c, rfl, hstart⟩, ?_, ?_⟩
  · intro d hd
    exact (List.mem_append.mp hd).elim (h.parts d) (hparts d)
  · cases rest with
    | nil =>
        rintro ⟨more, hmore⟩
        obtain ⟨_, rfl⟩ := List.cons.inj hmore
        exact hhead rfl
    | cons d rest =>
        rintro ⟨more, hmore⟩
        obtain ⟨rfl, htail⟩ := List.cons.inj hmore
        obtain ⟨rfl, _⟩ := List.cons.inj htail
        exact h.unreserved ⟨rest, rfl⟩

namespace Manifest

theorem ofOutline_isIdentifier {text : List Char} {file : String} {outline : Outline}
    {manifest : Manifest} (h : ofOutline text file outline = .ok manifest) :
    IsIdentifier manifest.target.name.toList := by
  unfold ofOutline at h
  simp only at h
  split at h
  · cases h
  · next hrule =>
      cases hentries : outline.parameters.mapM (Entry.ofOutline text) with
      | error fault =>
          rw [hentries] at h
          cases h
      | ok entries =>
          rw [hentries] at h
          cases h
          exact (IdentifierFault.of?_eq_none_iff _).mp hrule

/-- The name of the configuration is an identifier. -/
theorem read_isIdentifier {text : List Char} {file : String} {manifest : Manifest}
    (h : read text file = .ok manifest) : IsIdentifier manifest.target.name.toList := by
  unfold read ofDocument at h
  split at h
  · cases h
  · split at h
    · cases h
    · split at h
      · exact ofOutline_isIdentifier h
      · cases h

end Manifest
end Tunables
