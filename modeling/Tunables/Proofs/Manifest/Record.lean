import Tunables.Manifest.Outline
import Tunables.Proofs.Except
import Tunables.Proofs.Toml.Distinct

/-!
# Reading records

A record is collected from the entries of a table one after the other, in alphabetical order of
their keys.  Each field of it holds what is read from the value under its key, wherever that stands
in the table, as long as no key is there twice; and all of it is collected if every key is known and
every value can be read.

* `Reads`: a field is read from the value under a key.
* `Generator.ofValue_table_iff`, `ParameterOutline.ofValue_table_iff`,
  `Outline.ofDocument_eq_ok_iff`: what a table is read as.
-/

namespace Tunables
namespace Manifest

open Toml (Key Spanned Entries AreDistinct)

section Folding

variable {δ α : Type} {put : δ → Key → Spanned Toml.Value → Shaped δ} {entries : Entries}

/-- A field is read from the value under a key, and no other value changes it. -/
def Reads (put : δ → Key → Spanned Toml.Value → Shaped δ) (key : String) (get : δ → Option α)
    (as : Spanned Toml.Value → Shaped α) : Prop :=
  ∀ draft k value draft', put draft k value = .ok draft' →
    if k.text = key then ∃ a, as value = .ok a ∧ get draft' = some a else get draft' = get draft

variable {key : String} {get : δ → Option α} {as : Spanned Toml.Value → Shaped α} {draft draft' : δ}

theorem Reads.unchanged (h : Reads put key get as)
    (hkey : key ∉ entries.map fun entry => entry.1.text)
    (hfold : entries.foldlM (fun draft entry => put draft entry.1 entry.2) draft = .ok draft') :
    get draft' = get draft := by
  induction entries generalizing draft with
  | nil =>
      cases hfold
      rfl
  | cons entry entries ih =>
      obtain ⟨hentry, hentries⟩ : key ≠ entry.1.text ∧ key ∉ entries.map fun entry =>
        entry.1.text := by
          simpa using hkey
      obtain ⟨middle, hmiddle, hrest⟩ := except_bind_eq_ok_iff.mp hfold
      have hget := h draft entry.1 entry.2 middle hmiddle
      rw [if_neg (Ne.symm hentry)] at hget
      rw [ih hentries hrest, hget]

/-- After all entries a field holds what is read from the value under its key, if there is one. -/
theorem Reads.find?_mapM (h : Reads put key get as)
    (hkeys : (entries.map fun entry => entry.1.text).Nodup) (hnone : get draft = none)
    (hfold : entries.foldlM (fun draft entry => put draft entry.1 entry.2) draft = .ok draft') :
    (entries.find? key).mapM as = .ok (get draft') := by
  induction entries generalizing draft with
  | nil =>
      cases hfold
      rw [hnone]
      rfl
  | cons entry entries ih =>
      obtain ⟨hnew, hothers⟩ := List.nodup_cons.mp hkeys
      obtain ⟨middle, hmiddle, hrest⟩ := except_bind_eq_ok_iff.mp hfold
      have hget := h draft entry.1 entry.2 middle hmiddle
      by_cases hkey : entry.1.text = key
      · rw [if_pos hkey] at hget
        obtain ⟨a, ha, hget⟩ := hget
        have hfind : Entries.find? (entry :: entries) key = some entry.2 := by
          simp [Entries.find?, hkey]
        rw [hfind, h.unchanged (hkey ▸ hnew) hrest, hget]
        simp [ha]
      · rw [if_neg hkey] at hget
        have hfind : Entries.find? (entry :: entries) key = Entries.find? entries key := by
          simp [Entries.find?, hkey]
        rw [hfind]
        exact ih hothers (hget.trans hnone) hrest

/-- Entries each of which is accepted are accepted together. -/
theorem exists_foldlM
    (h : ∀ entry ∈ entries, ∀ draft, ∃ draft', put draft entry.1 entry.2 = .ok draft') (draft : δ) :
    ∃ draft', entries.foldlM (fun draft entry => put draft entry.1 entry.2) draft = .ok draft' := by
  induction entries generalizing draft with
  | nil =>
      exact ⟨draft, rfl⟩
  | cons entry entries ih =>
      obtain ⟨middle, hmiddle⟩ := h entry List.mem_cons_self draft
      obtain ⟨draft', hdraft'⟩ :=
        ih (fun other hother => h other (List.mem_cons_of_mem _ hother)) middle
      exact ⟨draft', except_bind_eq_ok_iff.mpr ⟨middle, hmiddle, hdraft'⟩⟩

/-- Entries that are accepted together are accepted one by one. -/
theorem exists_put_of_foldlM
    (hfold : entries.foldlM (fun draft entry => put draft entry.1 entry.2) draft = .ok draft')
    {entry : Key × Spanned Toml.Value} (hmem : entry ∈ entries) :
    ∃ before after, put before entry.1 entry.2 = .ok after := by
  induction entries generalizing draft with
  | nil =>
      cases hmem
  | cons other entries ih =>
      obtain ⟨middle, hmiddle, hrest⟩ := except_bind_eq_ok_iff.mp hfold
      rcases List.mem_cons.mp hmem with rfl | hmem
      · exact ⟨draft, middle, hmiddle⟩
      · exact ih hrest hmem

/-- What is read from the value that was found can be read from it. -/
theorem exists_eq_ok_of_mapM {value : Spanned Toml.Value} {found : Option α}
    (hfind : entries.find? key = some value) (h : (entries.find? key).mapM as = .ok found) :
    ∃ a, as value = .ok a := by
  rw [hfind, Option.mapM_some] at h
  obtain ⟨a, ha, _⟩ := except_bind_eq_ok_iff.mp h
  exact ⟨a, ha⟩

end Folding

section Ordering

variable {entries listed : Entries}

theorem areDistinct_of_perm (h : AreDistinct entries) (hperm : listed.Perm entries) :
    AreDistinct listed :=
  ⟨(hperm.map _).nodup_iff.mpr h.keys, fun entry hmem => h.values entry (hperm.mem_iff.mp hmem)⟩

/-- The order of the entries does not matter to what is found under a key. -/
theorem find?_of_perm (h : AreDistinct entries) (hperm : listed.Perm entries) (key : String) :
    listed.find? key = entries.find? key := by
  cases hfind : entries.find? key with
  | none =>
      rw [Entries.find?_eq_none_iff] at hfind ⊢
      exact fun hmem => hfind ((hperm.map _).mem_iff.mp hmem)
  | some value =>
      obtain ⟨k, rfl, hk⟩ := Entries.find?_eq_some hfind
      exact (areDistinct_of_perm h hperm).find?_eq (hperm.mem_iff.mpr hk)

variable {δ α : Type} {put : δ → Key → Spanned Toml.Value → Shaped δ} {empty draft : δ}

theorem Reads.find?_mapM_of_perm {key : String} {get : δ → Option α}
    {as : Spanned Toml.Value → Shaped α} (h : Reads put key get as)
    (hdistinct : AreDistinct entries) (hperm : listed.Perm entries) (hnone : get empty = none)
    (hfold : listed.foldlM (fun draft entry => put draft entry.1 entry.2) empty =
      .ok draft) : (entries.find? key).mapM as = .ok (get draft) := by
  rw [← find?_of_perm hdistinct hperm key]
  exact h.find?_mapM (areDistinct_of_perm hdistinct hperm).keys hnone hfold

/-- A record is collected as what its entries determine, if they determine it. -/
theorem foldlM_perm_iff {IsDraft : δ → Prop} (hperm : listed.Perm entries)
    (hsound : ∀ draft, listed.foldlM (fun draft entry => put draft entry.1 entry.2) empty =
      .ok draft → IsDraft draft)
    (hunique : ∀ draft draft', IsDraft draft → IsDraft draft' → draft = draft')
    (haccepts : IsDraft draft →
      ∀ entry ∈ entries, ∀ before, ∃ after, put before entry.1 entry.2 = .ok after) :
    listed.foldlM (fun draft entry => put draft entry.1 entry.2) empty = .ok draft ↔
      IsDraft draft := by
  constructor
  · exact hsound draft
  · intro hdraft
    obtain ⟨draft', hfold⟩ :=
      exists_foldlM (fun entry hmem => haccepts hdraft entry (hperm.mem_iff.mp hmem)) empty
    rwa [hunique draft draft' hdraft (hsound draft' hfold)]

theorem Record.sorted_perm (entries : Entries) : (sorted entries).Perm entries :=
  List.mergeSort_perm entries _

end Ordering

/-- A table is collected from its entries in alphabetical order. -/
theorem Record.collect_table {α : Type} (record : Record)
    (put : α → Key → Spanned Toml.Value → Shaped α) (empty : α) (span : Toml.Span)
    (origin : Toml.Origin) (entries : Entries) :
    record.collect put empty ⟨span, .table origin entries⟩ =
      (Record.sorted entries).foldlM (fun draft entry => put draft entry.1 entry.2) empty := by
  change ((Record.sorted entries).foldlM (fun draft entry => put draft entry.1 entry.2)
    empty >>= pure) = _
  exact bind_pure _

theorem require_eq_ok_iff {α : Type} {span : Toml.Span} {field : String}
    {found : Option α} {a : α} :
    require span field found = .ok a ↔ found = some a := by
  cases found with
  | none => simp [require]
  | some b => simp [require]

section Generator

namespace Generator

variable {draft draft' : Draft} {key : Key} {value : Spanned Toml.Value}

theorem Draft.put_eq_ok (h : draft.put key value = .ok draft') :
    (key.text = "package" ∧ ∃ text, asText value = .ok text ∧
      draft' = { draft with package := some text }) ∨
    (key.text = "node" ∧ ∃ text, asText value = .ok text ∧
      draft' = { draft with node := some text }) ∨
    (key.text = "name" ∧ ∃ text, asText value = .ok text ∧
      draft' = { draft with name := some text }) ∨
    (key.text = "templates" ∧ ∃ text, asPath value = .ok text ∧
      draft' = { draft with templates := some text }) := by
  unfold Draft.put at h
  split at h
  · next hkey =>
    obtain ⟨text, htext, ⟨⟩⟩ := except_bind_eq_ok_iff.mp h
    simp [hkey, htext]
  · next hkey =>
    obtain ⟨text, htext, ⟨⟩⟩ := except_bind_eq_ok_iff.mp h
    simp [hkey, htext]
  · next hkey =>
    obtain ⟨text, htext, ⟨⟩⟩ := except_bind_eq_ok_iff.mp h
    simp [hkey, htext]
  · next hkey =>
    obtain ⟨text, htext, ⟨⟩⟩ := except_bind_eq_ok_iff.mp h
    simp [hkey, htext]
  · cases h

/-- Each field is read from the value under its key. -/
theorem reads :
    Reads Draft.put "package" Draft.package asText ∧ Reads Draft.put "node" Draft.node asText ∧
      Reads Draft.put "name" Draft.name asText ∧
      Reads Draft.put "templates" Draft.templates asPath := by
  refine ⟨?_, ?_, ?_, ?_⟩ <;>
  · intro draft key value draft' h
    rcases Draft.put_eq_ok h with ⟨hkey, text, htext, rfl⟩ | ⟨hkey, text, htext, rfl⟩ |
      ⟨hkey, text, htext, rfl⟩ |
      ⟨hkey, text, htext, rfl⟩ <;> simp [hkey, htext]

/-- What is read from a table about the target. -/
structure IsDraft (entries : Entries) (draft : Draft) : Prop where
  known : ∀ entry ∈ entries, entry.1.text ∈ record.names
  package : (entries.find? "package").mapM asText = .ok draft.package
  node : (entries.find? "node").mapM asText = .ok draft.node
  name : (entries.find? "name").mapM asText = .ok draft.name
  templates : (entries.find? "templates").mapM asPath = .ok draft.templates

variable {entries listed : Entries}

theorem isDraft_of_foldlM (h : AreDistinct entries) (hperm : listed.Perm entries)
    (hfold : listed.foldlM (fun draft entry => Draft.put draft entry.1 entry.2) {} = .ok draft) :
    IsDraft entries draft := by
  obtain ⟨hpackage, hnode, hname, htemplates⟩ := reads
  refine ⟨?_, hpackage.find?_mapM_of_perm h hperm rfl hfold,
    hnode.find?_mapM_of_perm h hperm rfl hfold, hname.find?_mapM_of_perm h hperm rfl hfold,
    htemplates.find?_mapM_of_perm h hperm rfl hfold⟩
  intro entry hmem
  obtain ⟨before, after, hput⟩ := exists_put_of_foldlM hfold (hperm.mem_iff.mpr hmem)
  rcases Draft.put_eq_ok hput with ⟨hkey, _⟩ | ⟨hkey, _⟩ | ⟨hkey, _⟩ | ⟨hkey, _⟩ <;> rw [hkey]
    <;> decide

theorem IsDraft.unique (h : IsDraft entries draft) (h' : IsDraft entries draft') :
    draft = draft' := by
  have hpackage := Except.ok.inj (h.package.symm.trans h'.package)
  have hnode := Except.ok.inj (h.node.symm.trans h'.node)
  have hname := Except.ok.inj (h.name.symm.trans h'.name)
  have htemplates := Except.ok.inj (h.templates.symm.trans h'.templates)
  cases draft
  cases draft'
  simp_all

theorem IsDraft.exists_put (hdistinct : AreDistinct entries) (h : IsDraft entries draft) :
    ∀ entry ∈ entries, ∀ draft : Draft, ∃ draft', draft.put entry.1 entry.2 = .ok draft' := by
  intro entry hmem before
  have hfind := hdistinct.find?_eq hmem
  have hknown : entry.1.text = "package" ∨ entry.1.text = "node" ∨ entry.1.text = "name" ∨
      entry.1.text = "templates" := by
    simpa [record, Record.names] using h.known entry hmem
  rcases hknown with hkey | hkey | hkey | hkey
  · obtain ⟨text, htext⟩ := exists_eq_ok_of_mapM (hkey ▸ hfind) h.package
    exact ⟨{ before with package := some text }, by simp [Draft.put, hkey, htext]⟩
  · obtain ⟨text, htext⟩ := exists_eq_ok_of_mapM (hkey ▸ hfind) h.node
    exact ⟨{ before with node := some text }, by simp [Draft.put, hkey, htext]⟩
  · obtain ⟨text, htext⟩ := exists_eq_ok_of_mapM (hkey ▸ hfind) h.name
    exact ⟨{ before with name := some text }, by simp [Draft.put, hkey, htext]⟩
  · obtain ⟨text, htext⟩ := exists_eq_ok_of_mapM (hkey ▸ hfind) h.templates
    exact ⟨{ before with templates := some text }, by simp [Draft.put, hkey, htext]⟩

/-- The entries about the target are collected field by field, in whatever order they come. -/
theorem foldlM_iff (h : AreDistinct entries) (hperm : listed.Perm entries) :
    listed.foldlM (fun draft entry => Draft.put draft entry.1 entry.2) {} = .ok draft ↔
      IsDraft entries draft :=
  foldlM_perm_iff hperm (fun _ => isDraft_of_foldlM h hperm) (fun _ _ => IsDraft.unique)
    fun hdraft => hdraft.exists_put h

/-- A table about the target is collected field by field. -/
theorem collect_table_iff (h : AreDistinct entries) (span : Toml.Span) (origin : Toml.Origin) :
    record.collect Draft.put {} ⟨span, .table origin entries⟩ = .ok draft ↔
      IsDraft entries draft := by
  rw [Record.collect_table]
  exact foldlM_iff h (Record.sorted_perm entries)

/-- A table about the target is read if its fields are, and the first three are there. -/
theorem ofValue_table_iff (h : AreDistinct entries) (span : Toml.Span) (origin : Toml.Origin)
    (generator : Generator) :
    ofValue ⟨span, .table origin entries⟩ = .ok generator ↔
      IsDraft entries ⟨some generator.package, some generator.node, some generator.name,
        generator.templates⟩ := by
  simp only [ofValue, except_bind_eq_ok_iff, collect_table_iff h, require_eq_ok_iff]
  constructor
  · rintro ⟨draft, hdraft, package, hpackage, node, hnode, name, hname, ⟨⟩⟩
    rwa [← hpackage, ← hnode, ← hname]
  · intro hdraft
    exact ⟨_, hdraft, _, rfl, _, rfl, _, rfl, rfl⟩

end Generator

end Generator

section Parameter

namespace ParameterOutline

variable {draft draft' : Draft} {key : Key} {value : Spanned Toml.Value}

theorem Draft.put_eq_ok (h : draft.put key value = .ok draft') :
    (key.text = "name" ∧ ∃ text, asPlacedText value = .ok text ∧
      draft' = { draft with name := some text }) ∨
    (key.text = "type" ∧ ∃ text, asPlacedText value = .ok text ∧
      draft' = { draft with type := some text }) ∨
    (key.text = "level" ∧ ∃ level, asLevel value = .ok level ∧
      draft' = { draft with level := some level }) ∨
    (key.text = "description" ∧ ∃ text, asText value = .ok text ∧
      draft' = { draft with description := some text }) ∨
    (key.text = "default" ∧ draft' = { draft with default := some value }) ∨
    (key.text = "min" ∧ draft' = { draft with min := some value }) ∨
    (key.text = "max" ∧ draft' = { draft with max := some value }) ∨
    (key.text = "edit_method" ∧ ∃ text, asText value = .ok text ∧
      draft' = { draft with editMethod := some text }) := by
  unfold Draft.put at h
  split at h
  · next hkey =>
    obtain ⟨text, htext, ⟨⟩⟩ := except_bind_eq_ok_iff.mp h
    simp [hkey, htext]
  · next hkey =>
    obtain ⟨text, htext, ⟨⟩⟩ := except_bind_eq_ok_iff.mp h
    simp [hkey, htext]
  · next hkey =>
    obtain ⟨level, hlevel, ⟨⟩⟩ := except_bind_eq_ok_iff.mp h
    simp [hkey, hlevel]
  · next hkey =>
    obtain ⟨text, htext, ⟨⟩⟩ := except_bind_eq_ok_iff.mp h
    simp [hkey, htext]
  · next hkey =>
    cases h
    simp [hkey]
  · next hkey =>
    cases h
    simp [hkey]
  · next hkey =>
    cases h
    simp [hkey]
  · next hkey =>
    obtain ⟨text, htext, ⟨⟩⟩ := except_bind_eq_ok_iff.mp h
    simp [hkey, htext]
  · cases h

/-- Each field is read from the value under its key. -/
theorem reads :
    Reads Draft.put "name" Draft.name asPlacedText ∧
      Reads Draft.put "type" Draft.type asPlacedText ∧ Reads Draft.put "level" Draft.level asLevel ∧
      Reads Draft.put "description" Draft.description asText ∧
      Reads Draft.put "default" Draft.default pure ∧ Reads Draft.put "min" Draft.min pure ∧
      Reads Draft.put "max" Draft.max pure ∧
      Reads Draft.put "edit_method" Draft.editMethod asText := by
  refine ⟨?_, ?_, ?_, ?_, ?_, ?_, ?_, ?_⟩ <;>
  · intro draft key value draft' h
    rcases Draft.put_eq_ok h with ⟨hkey, text, htext, rfl⟩ | ⟨hkey, text, htext, rfl⟩ |
      ⟨hkey, text, htext, rfl⟩ |
      ⟨hkey, text, htext, rfl⟩ | ⟨hkey, rfl⟩ | ⟨hkey, rfl⟩ | ⟨hkey, rfl⟩ |
        ⟨hkey, text, htext, rfl⟩ <;>
    simp [pure, Except.pure, *]

/-- What is read from a table about a parameter. -/
structure IsDraft (entries : Entries) (draft : Draft) : Prop where
  known : ∀ entry ∈ entries, entry.1.text ∈ record.names
  name : (entries.find? "name").mapM asPlacedText = .ok draft.name
  type : (entries.find? "type").mapM asPlacedText = .ok draft.type
  level : (entries.find? "level").mapM asLevel = .ok draft.level
  description : (entries.find? "description").mapM asText = .ok draft.description
  default : entries.find? "default" = draft.default
  min : entries.find? "min" = draft.min
  max : entries.find? "max" = draft.max
  editMethod : (entries.find? "edit_method").mapM asText = .ok draft.editMethod

variable {entries listed : Entries}

theorem isDraft_of_foldlM (h : AreDistinct entries) (hperm : listed.Perm entries)
    (hfold : listed.foldlM (fun draft entry => Draft.put draft entry.1 entry.2) {} = .ok draft) :
    IsDraft entries draft := by
  obtain ⟨hname, htype, hlevel, hdescription, hdefault, hmin, hmax, hmethod⟩ := reads
  have hkept : ∀ found other : Option (Spanned Toml.Value),
      found.mapM pure = (.ok other : Shaped _) → found = other := by
    intro found other hsame
    cases found with
    | none => exact Except.ok.inj hsame
    | some value => exact Except.ok.inj hsame
  refine ⟨?_, hname.find?_mapM_of_perm h hperm rfl hfold,
    htype.find?_mapM_of_perm h hperm rfl hfold, hlevel.find?_mapM_of_perm h hperm rfl hfold,
    hdescription.find?_mapM_of_perm h hperm rfl hfold,
    hkept _ _ (hdefault.find?_mapM_of_perm h hperm rfl hfold),
    hkept _ _ (hmin.find?_mapM_of_perm h hperm rfl hfold),
    hkept _ _ (hmax.find?_mapM_of_perm h hperm rfl hfold),
    hmethod.find?_mapM_of_perm h hperm rfl hfold⟩
  intro entry hmem
  obtain ⟨before, after, hput⟩ := exists_put_of_foldlM hfold (hperm.mem_iff.mpr hmem)
  rcases Draft.put_eq_ok hput with ⟨hkey, _⟩ | ⟨hkey, _⟩ | ⟨hkey, _⟩ | ⟨hkey, _⟩ | ⟨hkey, _⟩ |
    ⟨hkey, _⟩ | ⟨hkey, _⟩ |
    ⟨hkey, _⟩ <;> rw [hkey] <;> decide

theorem IsDraft.unique (h : IsDraft entries draft) (h' : IsDraft entries draft') :
    draft = draft' := by
  have hname := Except.ok.inj (h.name.symm.trans h'.name)
  have htype := Except.ok.inj (h.type.symm.trans h'.type)
  have hlevel := Except.ok.inj (h.level.symm.trans h'.level)
  have hdescription := Except.ok.inj (h.description.symm.trans h'.description)
  have hdefault := h.default.symm.trans h'.default
  have hmin := h.min.symm.trans h'.min
  have hmax := h.max.symm.trans h'.max
  have hmethod := Except.ok.inj (h.editMethod.symm.trans h'.editMethod)
  cases draft
  cases draft'
  simp_all

theorem IsDraft.exists_put (hdistinct : AreDistinct entries) (h : IsDraft entries draft) :
    ∀ entry ∈ entries, ∀ draft : Draft, ∃ draft', draft.put entry.1 entry.2 = .ok draft' := by
  intro entry hmem before
  have hfind := hdistinct.find?_eq hmem
  have hknown : entry.1.text = "name" ∨ entry.1.text = "type" ∨ entry.1.text = "level" ∨
      entry.1.text = "description" ∨ entry.1.text = "default" ∨ entry.1.text = "min" ∨
      entry.1.text = "max" ∨
      entry.1.text = "edit_method" := by
    simpa [record, Record.names] using h.known entry hmem
  rcases hknown with hkey | hkey | hkey | hkey | hkey | hkey | hkey | hkey
  · obtain ⟨text, htext⟩ := exists_eq_ok_of_mapM (hkey ▸ hfind) h.name
    exact ⟨{ before with name := some text }, by simp [Draft.put, hkey, htext]⟩
  · obtain ⟨text, htext⟩ := exists_eq_ok_of_mapM (hkey ▸ hfind) h.type
    exact ⟨{ before with type := some text }, by simp [Draft.put, hkey, htext]⟩
  · obtain ⟨level, hlevel⟩ := exists_eq_ok_of_mapM (hkey ▸ hfind) h.level
    exact ⟨{ before with level := some level }, by simp [Draft.put, hkey, hlevel]⟩
  · obtain ⟨text, htext⟩ := exists_eq_ok_of_mapM (hkey ▸ hfind) h.description
    exact ⟨{ before with description := some text }, by simp [Draft.put, hkey, htext]⟩
  · exact ⟨{ before with default := some entry.2 }, by simp [Draft.put, hkey]⟩
  · exact ⟨{ before with min := some entry.2 }, by simp [Draft.put, hkey]⟩
  · exact ⟨{ before with max := some entry.2 }, by simp [Draft.put, hkey]⟩
  · obtain ⟨text, htext⟩ := exists_eq_ok_of_mapM (hkey ▸ hfind) h.editMethod
    exact ⟨{ before with editMethod := some text }, by simp [Draft.put, hkey, htext]⟩

/-- The entries about a parameter are collected field by field, in whatever order they come. -/
theorem foldlM_iff (h : AreDistinct entries) (hperm : listed.Perm entries) :
    listed.foldlM (fun draft entry => Draft.put draft entry.1 entry.2) {} = .ok draft ↔
      IsDraft entries draft :=
  foldlM_perm_iff hperm (fun _ => isDraft_of_foldlM h hperm) (fun _ _ => IsDraft.unique)
    fun hdraft => hdraft.exists_put h

/-- A table about a parameter is collected field by field. -/
theorem collect_table_iff (h : AreDistinct entries) (span : Toml.Span) (origin : Toml.Origin) :
    record.collect Draft.put {} ⟨span, .table origin entries⟩ = .ok draft ↔
      IsDraft entries draft := by
  rw [Record.collect_table]
  exact foldlM_iff h (Record.sorted_perm entries)

/-- A table about a parameter is read if its fields are, and the first two are there. -/
theorem ofValue_table_iff (h : AreDistinct entries) (span : Toml.Span) (origin : Toml.Origin)
    (outline : ParameterOutline) :
    ofValue ⟨span, .table origin entries⟩ = .ok outline ↔
      ∃ level description method,
        IsDraft entries ⟨some outline.name, some outline.type, level, description, outline.default,
          outline.min, outline.max, method⟩ ∧
        outline.level = level.getD 0 ∧ outline.description = description.getD "" ∧
        outline.editMethod = method.getD "" := by
  simp only [ofValue, except_bind_eq_ok_iff, collect_table_iff h, require_eq_ok_iff]
  constructor
  · rintro ⟨draft, hdraft, name, hname, type, htype, ⟨⟩⟩
    refine ⟨draft.level, draft.description, draft.editMethod, ?_, rfl, rfl, rfl⟩
    rwa [← hname, ← htype]
  · rintro ⟨level, description, method, hdraft, hlevel, hdescription, hmethod⟩
    refine ⟨_, hdraft, _, rfl, _, rfl, ?_⟩
    rw [← hlevel, ← hdescription, ← hmethod]
    rfl

end ParameterOutline

end Parameter

section Document

namespace Outline

variable {draft draft' : Draft} {key : Key} {value : Spanned Toml.Value}

/-- Reads the tables about the parameters. -/
def readParameters (value : Spanned Toml.Value) : Shaped (List ParameterOutline) := do
  let items ← asList value
  items.mapM ParameterOutline.ofValue

theorem Draft.put_eq_ok (h : draft.put key value = .ok draft') :
    (key.text = "generator" ∧ ∃ generator, Generator.ofValue value = .ok generator ∧
      draft' = { draft with generator := some generator }) ∨
    (key.text = "param" ∧ ∃ parameters, readParameters value = .ok parameters ∧
      draft' = { draft with parameters := some parameters }) := by
  unfold Draft.put at h
  split at h
  · next hkey =>
    obtain ⟨generator, hgenerator, ⟨⟩⟩ := except_bind_eq_ok_iff.mp h
    simp [hkey, hgenerator]
  · next hkey =>
    obtain ⟨items, hitems, h⟩ := except_bind_eq_ok_iff.mp h
    obtain ⟨parameters, hparameters, ⟨⟩⟩ := except_bind_eq_ok_iff.mp h
    have hread : readParameters value = .ok parameters :=
      except_bind_eq_ok_iff.mpr ⟨items, hitems, hparameters⟩
    simp [hkey, hread]
  · cases h

theorem Draft.put_parameters {parameters : List ParameterOutline} (hkey : key.text = "param")
    (h : readParameters value = .ok parameters) :
    draft.put key value = .ok { draft with parameters := some parameters } := by
  obtain ⟨items, hitems, hparameters⟩ := except_bind_eq_ok_iff.mp h
  rw [Draft.put, hkey]
  exact except_bind_eq_ok_iff.mpr
    ⟨items, hitems, except_bind_eq_ok_iff.mpr ⟨parameters, hparameters, rfl⟩⟩

/-- Both fields are read from the values under their keys. -/
theorem reads :
    Reads Draft.put "generator" Draft.generator Generator.ofValue ∧
      Reads Draft.put "param" Draft.parameters readParameters := by
  refine ⟨?_, ?_⟩ <;>
  · intro draft key value draft' h
    rcases Draft.put_eq_ok h with ⟨hkey, found, hfound, rfl⟩ | ⟨hkey, found, hfound, rfl⟩ <;>
      simp [hkey, hfound]

/-- What is read from the table of a document. -/
structure IsDraft (document : Entries) (draft : Draft) : Prop where
  known : ∀ entry ∈ document, entry.1.text ∈ known
  generator : (document.find? "generator").mapM Generator.ofValue = .ok draft.generator
  parameters : (document.find? "param").mapM readParameters = .ok draft.parameters

variable {document listed : Entries}

theorem isDraft_of_foldlM (h : AreDistinct document) (hperm : listed.Perm document)
    (hfold : listed.foldlM (fun draft entry => Draft.put draft entry.1 entry.2) {} = .ok draft) :
    IsDraft document draft := by
  obtain ⟨hgenerator, hparameters⟩ := reads
  refine ⟨?_, hgenerator.find?_mapM_of_perm h hperm rfl hfold,
    hparameters.find?_mapM_of_perm h hperm rfl hfold⟩
  intro entry hmem
  obtain ⟨before, after, hput⟩ := exists_put_of_foldlM hfold (hperm.mem_iff.mpr hmem)
  rcases Draft.put_eq_ok hput with ⟨hkey, _⟩ | ⟨hkey, _⟩ <;> rw [hkey] <;> decide

theorem IsDraft.unique (h : IsDraft document draft) (h' : IsDraft document draft') :
    draft = draft' := by
  have hgenerator := Except.ok.inj (h.generator.symm.trans h'.generator)
  have hparameters := Except.ok.inj (h.parameters.symm.trans h'.parameters)
  cases draft
  cases draft'
  simp_all

theorem IsDraft.exists_put (hdistinct : AreDistinct document) (h : IsDraft document draft) :
    ∀ entry ∈ document, ∀ draft : Draft, ∃ draft', draft.put entry.1 entry.2 = .ok draft' := by
  intro entry hmem before
  have hfind := hdistinct.find?_eq hmem
  have hknown : entry.1.text = "generator" ∨ entry.1.text = "param" := by
    simpa [Outline.known] using h.known entry hmem
  rcases hknown with hkey | hkey
  · obtain ⟨generator, hgenerator⟩ := exists_eq_ok_of_mapM (hkey ▸ hfind) h.generator
    exact ⟨{ before with generator := some generator }, by simp [Draft.put, hkey, hgenerator]⟩
  · obtain ⟨parameters, hparameters⟩ := exists_eq_ok_of_mapM (hkey ▸ hfind) h.parameters
    exact ⟨_, Draft.put_parameters hkey hparameters⟩

/-- A document is read if its tables are, and the one about the target is there. -/
theorem ofDocument_eq_ok_iff (h : AreDistinct document) (outline : Outline) :
    ofDocument document = .ok outline ↔
      ∃ parameters, IsDraft document ⟨some outline.generator, parameters⟩ ∧
        outline.parameters = parameters.getD [] := by
  have hcollect : ∀ draft : Draft,
      (Record.sorted document).foldlM (fun draft entry => Draft.put draft entry.1 entry.2)
      ({} : Draft) = .ok draft ↔ IsDraft document draft := fun draft =>
    foldlM_perm_iff (Record.sorted_perm document)
      (fun _ => isDraft_of_foldlM h (Record.sorted_perm document)) (fun _ _ => IsDraft.unique)
      fun hdraft => hdraft.exists_put h
  simp only [ofDocument, except_bind_eq_ok_iff, hcollect, require_eq_ok_iff]
  constructor
  · rintro ⟨draft, hdraft, generator, hgenerator, ⟨⟩⟩
    refine ⟨draft.parameters, ?_, rfl⟩
    rwa [← hgenerator]
  · rintro ⟨parameters, hdraft, hparameters⟩
    refine ⟨_, hdraft, _, rfl, ?_⟩
    rw [← hparameters]
    rfl

end Outline

end Document

end Manifest
end Tunables
