import Tunables.Proofs.Toml.Distinct
import Tunables.Proofs.Toml.Reading

/-!
# Where the values of a document stand

Every value of a document that was read has the span of its source.  A value that is written out
keeps it.  The tables that are opened and filled from several places have the span of what made them
first: the header that opened them, or the part of a key that led through them.

* `Written`: the ways in which a value comes under a key of a document, and the characters that
  its span is that of.
* `ArePlaced`: entries whose values are written in a text, with all their parts, and among which no
  table has a key twice.
* `Keeps`: a change that leaves them so.
* `arePlaced_of_read`: what is read from a text; `areDistinct_of_read`: no table of it has a key
  twice.
-/

namespace Tunables
namespace Toml

open Reader

section Placement

/-- Nothing is added to a value. -/
def Value.IsComplete : Value → Prop
  | .array ofHeaders _ => ofHeaders = false
  | .table origin _ => origin = .braces
  | _ => True

/-- A key stands in a text. -/
def Key.IsWritten (text : List Char) (key : Key) : Prop :=
  IsReadAt text keyPart ⟨key.span, key⟩

/-- A value under a key stands in a text. -/
inductive Written (text : List Char) : String → Spanned Value → Prop
  /-- Written out as it is. -/
  | value {depth : Nat} {name : String} {found : Spanned Value} :
      IsReadAt text (Toml.value depth) found → found.value.IsComplete → Written text name found
  /-- Opened by a header that ends with the key. -/
  | table {span : Span} {isItem : Bool} {path : List Key} {key : Key} {entries : Entries} :
      IsReadAt text headerText ⟨span, isItem, path, key⟩ →
        Written text key.text ⟨span, .table .header entries⟩
  /-- Begun by a header with two brackets that ends with the key. -/
  | items {span : Span} {path : List Key} {key : Key} {items : List (Spanned Value)} :
      IsReadAt text headerText ⟨span, true, path, key⟩ →
        Written text key.text ⟨span, .array true items⟩
  /-- Passed through by the key. -/
  | key {key : Key} {origin : Origin} {entries : Entries} :
      key.IsWritten text → origin.isImplied = true →
        Written text key.text ⟨key.span, .table origin entries⟩

/-- The values inside a value that stands under a key, with the keys that they stand under. -/
def Value.parts (name : String) : Value → List (String × Spanned Value)
  | .array _ items => items.map fun item => (name, item)
  | .table _ entries => entries.map fun entry => (entry.1.text, entry.2)
  | _ => []

/-- A table that was opened by a header. -/
def Value.IsOpened (value : Value) : Prop :=
  ∃ entries, value = .table .header entries

/-- An array of headers with the tables that they opened, an array with items that are written out,
a table without a key twice, or any other value. -/
def Value.IsSound : Value → Prop
  | .array true items => ∀ item ∈ items, item.value.IsOpened
  | .array false items => ∀ item ∈ items, item.value.IsComplete
  | .table _ entries => (entries.map fun entry => entry.1.text).Nodup
  | _ => True

/-- A value stands in a text, and so do all its parts. -/
inductive IsPlaced (text : List Char) : String → Spanned Value → Prop
  | intro {name : String} {found : Spanned Value} :
      Written text name found →
      found.value.IsSound →
      (∀ part ∈ found.value.parts name, IsPlaced text part.1 part.2) →
      IsPlaced text name found

/-- Entries of a table whose values stand in a text, under different keys. -/
structure ArePlaced (text : List Char) (entries : Entries) : Prop where
  keys : (entries.map fun entry => entry.1.text).Nodup
  values : ∀ entry ∈ entries, IsPlaced text entry.1.text entry.2

variable {text : List Char} {name : String} {found : Spanned Value} {span : Span} {origin : Origin}
  {entries : Entries} {items : List (Spanned Value)}

theorem IsPlaced.written (h : IsPlaced text name found) : Written text name found := by
  obtain ⟨hwritten, _, _⟩ := h
  exact hwritten

theorem isPlaced_table_iff : IsPlaced text name ⟨span, .table origin entries⟩ ↔
    Written text name ⟨span, .table origin entries⟩ ∧ ArePlaced text entries := by
  constructor
  · rintro ⟨hwritten, hkeys, hparts⟩
    exact ⟨hwritten, hkeys, List.forall_mem_map.mp hparts⟩
  · rintro ⟨hwritten, hkeys, hvalues⟩
    exact ⟨hwritten, hkeys, List.forall_mem_map.mpr hvalues⟩

theorem isPlaced_array_iff {ofHeaders : Bool} : IsPlaced text name ⟨span, .array ofHeaders items⟩ ↔
    Written text name ⟨span, .array ofHeaders items⟩ ∧
      ∀ item ∈ items, IsPlaced text name item ∧ if ofHeaders then item.value.IsOpened
        else item.value.IsComplete := by
  have hsound : (Value.array ofHeaders items).IsSound ↔
      ∀ item ∈ items, if ofHeaders then item.value.IsOpened else item.value.IsComplete := by
    cases ofHeaders <;> rfl
  constructor
  · rintro ⟨hwritten, hitems, hparts⟩
    exact ⟨hwritten, fun item hmem =>
      ⟨List.forall_mem_map.mp hparts item hmem, hsound.mp hitems item hmem⟩⟩
  · rintro ⟨hwritten, hitems⟩
    refine ⟨hwritten, hsound.mpr fun item hmem => (hitems item hmem).2, ?_⟩
    exact List.forall_mem_map.mpr fun item hmem => (hitems item hmem).1

/-- A table that is not complete stays where it is whatever is done to its entries. -/
theorem Written.with_entries (h : Written text name ⟨span, .table origin entries⟩)
    (horigin : origin ≠ .braces) (changed : Entries) :
    Written text name ⟨span, .table origin changed⟩ := by
  cases h with
  | value _ hcomplete => exact absurd hcomplete horigin
  | table hheader => exact .table hheader
  | key hkey himplied => exact .key hkey himplied

theorem Written.with_items (h : Written text name ⟨span, .array true items⟩)
    (changed : List (Spanned Value)) :
    Written text name ⟨span, .array true changed⟩ := by
  cases h with
  | value _ hcomplete => cases hcomplete
  | items hheader => exact .items hheader

/-- A value to which nothing is added is written out, whatever key it stands under. -/
theorem Written.of_isComplete (h : Written text name found) (hcomplete : found.value.IsComplete)
    (other : String) :
    Written text other found := by
  cases h with
  | value hread _ => exact .value hread hcomplete
  | table _ | items _ => cases hcomplete
  | key _ himplied =>
      cases hcomplete
      cases himplied

/-- A text is a value that is written out. -/
theorem Written.exists_isReadAt {content : String} (h : Written text name ⟨span, .text content⟩) :
    ∃ depth, IsReadAt text (Toml.value depth) ⟨span, .text content⟩ := by
  cases h with
  | value hread _ => exact ⟨_, hread⟩

/-- In a value that stands in a text no table has a key twice. -/
theorem IsPlaced.isTree (h : IsPlaced text name found) : IsTree found.value := by
  induction h with
  | @intro name found _ hsound _ ih =>
      obtain ⟨span, value⟩ := found
      cases value with
      | text content => exact .text content
      | integer n => exact .integer n
      | double x => exact .double x
      | voidNumber => exact .voidNumber
      | bool b => exact .bool b
      | datetime => exact .datetime
      | array ofHeaders items =>
          exact .array fun item hmem => ih (name, item) (List.mem_map.mpr ⟨item, hmem, rfl⟩)
      | table origin entries =>
          exact .table hsound fun entry hmem =>
            ih (entry.1.text, entry.2) (List.mem_map.mpr ⟨entry, hmem, rfl⟩)

theorem ArePlaced.areDistinct (h : ArePlaced text entries) : AreDistinct entries :=
  ⟨h.keys, fun entry hmem => (h.values entry hmem).isTree⟩

end Placement

section Entries

variable {text : List Char} {entries : Entries} {value : Spanned Value}

theorem arePlaced_nil (text : List Char) : ArePlaced text [] :=
  ⟨List.nodup_nil, by simp⟩

theorem ArePlaced.isPlaced_of_find? (h : ArePlaced text entries) {key : String}
    (hfind : entries.find? key = some value) :
    IsPlaced text key value := by
  obtain ⟨k, rfl, hk⟩ := Entries.find?_eq_some hfind
  exact h.values _ hk

theorem ArePlaced.replace (h : ArePlaced text entries) {key : String}
    (hvalue : IsPlaced text key value) :
    ArePlaced text (entries.replace key value) := by
  have hkeys : (entries.replace key value).map (fun entry => entry.1.text) =
      entries.map fun entry => entry.1.text := by
    rw [Entries.replace, List.map_map]
    refine List.map_congr_left fun entry _ => ?_
    simp only [Function.comp_apply]
    split <;> rfl
  refine ⟨hkeys ▸ h.keys, ?_⟩
  intro entry hmem
  obtain ⟨other, hother, rfl⟩ := List.mem_map.mp hmem
  split
  · next hkey =>
    rw [beq_iff_eq] at hkey
    exact hkey ▸ hvalue
  · exact h.values other hother

theorem ArePlaced.push {key : Key} (h : ArePlaced text entries)
    (hvalue : IsPlaced text key.text value) (hnew : entries.find? key.text = none) :
    ArePlaced text (entries.push key value) := by
  refine ⟨?_, ?_⟩
  · rw [Entries.push, List.map_append, List.map_singleton, List.nodup_append_comm,
      List.singleton_append]
    exact List.nodup_cons.mpr ⟨Entries.find?_eq_none_iff.mp hnew, h.keys⟩
  · intro entry hmem
    rcases List.mem_append.mp hmem with hmem | hmem
    · exact h.values entry hmem
    · rw [List.mem_singleton.mp hmem]
      exact hvalue

theorem ArePlaced.erase (h : ArePlaced text entries) (key : String) :
    ArePlaced text (entries.erase key) :=
  ⟨h.keys.sublist (List.filter_sublist.map _),
    fun entry hmem => h.values entry (List.mem_of_mem_filter hmem)⟩

end Entries

/-- A change that leaves the values of a table in their places. -/
def Keeps (text : List Char) (change : Change) : Prop :=
  ∀ origin entries changed, ArePlaced text entries → change origin entries = some changed →
    ArePlaced text changed

/-- A value under its key stands in a text. -/
structure Assignment.IsPlaced (text : List Char) (assignment : Assignment) : Prop where
  path : ∀ key ∈ assignment.path, key.IsWritten text
  value : Toml.IsPlaced text assignment.key.text assignment.value

/-- A header stands in a text. -/
structure Header.IsPlaced (text : List Char) (header : Header) : Prop where
  written : IsReadAt text headerText ⟨header.span, header.isItem, header.path, header.key⟩
  path : ∀ key ∈ header.path, key.IsWritten text

/-- A section stands in a text. -/
structure Section.IsPlaced (text : List Char) (part : Section) : Prop where
  header : part.header.IsPlaced text
  assignments : ∀ a ∈ part.assignments, a.IsPlaced text

section Changes

variable {text : List Char} {change : Change}

theorem Keeps.changeLast (h : Keeps text change) {name : String}
    {items changed : List (Spanned Value)}
    (hitems : ∀ item ∈ items, IsPlaced text name item ∧ item.value.IsOpened)
    (hchange : changeLast change items = some changed) :
    ∀ item ∈ changed, IsPlaced text name item ∧ item.value.IsOpened := by
  unfold Toml.changeLast at hchange
  split at hchange
  · next span origin entries hlast =>
    obtain ⟨inside, hinside, ⟨⟩⟩ := Option.bind_eq_some_iff.mp hchange
    -- the last item was opened by a header, so it is no complete table and keeps its place
    obtain ⟨hplaced, _, ⟨⟩⟩ := hitems _ (List.mem_of_getLast? hlast)
    obtain ⟨hwritten, hentries⟩ := isPlaced_table_iff.mp hplaced
    intro item hmem
    rcases List.mem_append.mp hmem with hmem | hmem
    · exact hitems item ((List.dropLast_sublist items).subset hmem)
    · rw [List.mem_singleton.mp hmem]
      have hchanged := h .header entries inside hentries hinside
      exact ⟨isPlaced_table_iff.mpr ⟨hwritten.with_entries (by decide) inside, hchanged⟩,
        inside, rfl⟩
  · cases hchange

theorem Keeps.changeInside (h : Keeps text change) {dotted : Bool} {name : String} {span : Span}
    {value changed : Value} (hvalue : IsPlaced text name ⟨span, value⟩)
    (hchange : changeInside dotted change value = some changed) :
    IsPlaced text name ⟨span, changed⟩ := by
  unfold Toml.changeInside at hchange
  split at hchange
  · next origin entries =>
    split at hchange
    · cases hchange
    · next hopen =>
      obtain ⟨inside, hinside, ⟨⟩⟩ := Option.bind_eq_some_iff.mp hchange
      obtain ⟨hwritten, hentries⟩ := isPlaced_table_iff.mp hvalue
      have horigin : origin ≠ .braces := fun hbraces => hopen (.inl hbraces)
      exact isPlaced_table_iff.mpr
        ⟨hwritten.with_entries horigin inside, h origin entries inside hentries hinside⟩
  · next items =>
    obtain ⟨inside, hinside, ⟨⟩⟩ := Option.bind_eq_some_iff.mp hchange
    obtain ⟨hwritten, hitems⟩ := isPlaced_array_iff.mp hvalue
    exact isPlaced_array_iff.mpr ⟨hwritten.with_items inside, h.changeLast hitems hinside⟩
  · cases hchange

/-- A change below a path keeps what the change itself keeps. -/
theorem Keeps.within (h : Keeps text change) (dotted : Bool) {path : List Key}
    (hpath : ∀ key ∈ path, key.IsWritten text) :
    Keeps text (within dotted change path) := by
  induction path with
  | nil =>
      intro origin entries changed hentries hchange
      exact h origin entries changed hentries hchange
  | cons key path ih =>
      obtain ⟨hkey, hpath⟩ := List.forall_mem_cons.mp hpath
      intro origin entries changed hentries hchange
      unfold Toml.within at hchange
      split at hchange
      · next span value hfind =>
        obtain ⟨inside, hinside, ⟨⟩⟩ := Option.bind_eq_some_iff.mp hchange
        exact hentries.replace ((ih hpath).changeInside (hentries.isPlaced_of_find? hfind) hinside)
      · next hnone =>
        obtain ⟨below, hbelow, ⟨⟩⟩ := Option.bind_eq_some_iff.mp hchange
        have himplied : (if dotted then Origin.dottedKey else .headerPath).isImplied = true := by
          cases dotted <;> rfl
        have hchanged := ih hpath _ [] below (arePlaced_nil text) hbelow
        exact hentries.push (isPlaced_table_iff.mpr ⟨.key hkey himplied, hchanged⟩) hnone

theorem keeps_addValue (dotted : Bool) (key : Key) {value : Spanned Value}
    (hvalue : IsPlaced text key.text value) :
    Keeps text (addValue dotted key value) := by
  intro origin entries changed hentries hchange
  unfold addValue at hchange
  split at hchange
  · cases hchange
  · next hfree =>
    cases hchange
    have hnew : entries.find? key.text = none := by simpa using (not_or.mp hfree).2
    exact hentries.push hvalue hnew

theorem keeps_insertAll {assignments : List Assignment} (h : ∀ a ∈ assignments, a.IsPlaced text) :
    Keeps text (insertAll assignments) := by
  intro origin entries changed hentries hchange
  unfold insertAll at hchange
  induction assignments generalizing entries with
  | nil =>
      cases hchange
      exact hentries
  | cons a assignments ih =>
      obtain ⟨ha, hassignments⟩ := List.forall_mem_cons.mp h
      obtain ⟨next, hnext, hrest⟩ := Option.bind_eq_some_iff.mp hchange
      have hkeeps := (keeps_addValue (!a.path.isEmpty) a.key ha.value).within true ha.path
      exact ih hassignments next (hkeeps origin entries next hentries hnext) hrest

theorem keeps_openTable {header : Header} (hheader : header.IsPlaced text)
    {assignments : List Assignment} (h : ∀ a ∈ assignments, a.IsPlaced text) :
    Keeps text (openTable header.span header.key assignments) := by
  intro origin entries changed hentries hchange
  -- whatever was under the key, it gives way to a table at the place of the header
  have hopen : ∀ before, ArePlaced text before →
      (insertAll assignments .header before >>= fun inside =>
        some ((entries.erase header.key.text).push header.key
          ⟨header.span, .table .header inside⟩)) = some changed →
      ArePlaced text changed := by
    intro before hbefore h'
    obtain ⟨inside, hinside, ⟨⟩⟩ := Option.bind_eq_some_iff.mp h'
    have htable :=
      isPlaced_table_iff.mpr ⟨.table hheader.written,
        keeps_insertAll h .header before inside hbefore hinside⟩
    exact (hentries.erase header.key.text).push htable (Entries.find?_erase entries header.key.text)
  unfold openTable at hchange
  split at hchange
  · exact hopen [] (arePlaced_nil text) hchange
  · next hfind =>
    exact hopen _ (isPlaced_table_iff.mp (hentries.isPlaced_of_find? hfind)).2 hchange
  · cases hchange

theorem keeps_openItem {header : Header} (hheader : header.IsPlaced text)
    (hitem : header.isItem = true) {assignments : List Assignment}
    (h : ∀ a ∈ assignments, a.IsPlaced text) :
    Keeps text (openItem header.span header.key assignments) := by
  intro origin entries changed hentries hchange
  have hread : IsReadAt text headerText ⟨header.span, true, header.path, header.key⟩ :=
    hitem ▸ hheader.written
  unfold openItem at hchange
  obtain ⟨inside, hinside, hchange⟩ := Option.bind_eq_some_iff.mp hchange
  have htable : IsPlaced text header.key.text ⟨header.span, .table .header inside⟩ :=
    isPlaced_table_iff.mpr ⟨.table hread,
      keeps_insertAll h .header [] inside (arePlaced_nil text) hinside⟩
  have hopened : (Value.table .header inside).IsOpened := ⟨inside, rfl⟩
  split at hchange
  · next hnone =>
    cases hchange
    exact hentries.push
      (isPlaced_array_iff.mpr ⟨.items hread, by simpa using ⟨htable, hopened⟩⟩) hnone
  · next first items hfind =>
    cases hchange
    obtain ⟨hwritten, hitems⟩ := isPlaced_array_iff.mp (hentries.isPlaced_of_find? hfind)
    have hmore :=
      List.forall_mem_append.mpr ⟨hitems, List.forall_mem_singleton.mpr ⟨htable, hopened⟩⟩
    exact hentries.replace (isPlaced_array_iff.mpr ⟨hwritten.with_items _, hmore⟩)
  · cases hchange

theorem Section.keeps_add {part : Section} (h : part.IsPlaced text) : Keeps text part.add := by
  unfold Section.add
  split
  · next hitem => exact (keeps_openItem h.header hitem h.assignments).within false h.header.path
  · exact (keeps_openTable h.header h.assignments).within false h.header.path

/-- The values of a document stay where they were read. -/
theorem arePlaced_of_build {assignments : List Assignment} {parts : List Section}
    {document : Entries} (hassignments : ∀ a ∈ assignments, a.IsPlaced text)
    (hparts : ∀ part ∈ parts, part.IsPlaced text) (h : build assignments parts = some document) :
    ArePlaced text document := by
  obtain ⟨entries, hentries, hfold⟩ := Option.bind_eq_some_iff.mp h
  have hstart := keeps_insertAll hassignments .header [] entries (arePlaced_nil text) hentries
  clear hentries h
  -- the sections are added one after the other, and each keeps the values of those before
  induction parts generalizing entries with
  | nil =>
      cases hfold
      exact hstart
  | cons part parts ih =>
      obtain ⟨hpart, hparts⟩ := List.forall_mem_cons.mp hparts
      obtain ⟨next, hnext, hrest⟩ := Option.bind_eq_some_iff.mp hfold
      exact ih hparts next hrest (Section.keeps_add hpart .header entries next hstart hnext)

end Changes

section Keys

variable {text : List Char}

theorem finds_keyPart : Finds text keyPart (Key.IsWritten text) := by
  have hreader : Advances text (takeSome isBareKeyChar <|> lineString) :=
    (advances_takeSome _).orElse advances_lineString
  intro before rest key next htext hread
  obtain ⟨⟨part, last⟩, hpart, hkey⟩ := Option.bind_eq_some_iff.mp hread
  obtain ⟨source, after, rfl, rfl, hspan, _, _⟩ := hreader.exists_source htext hpart
  cases hkey
  exact ⟨⟨source, after, rfl, rfl⟩, before, source, after, by simp [htext], hspan, hread⟩

/-- The parts of a key stand in the text. -/
theorem finds_key : Finds text key fun found =>
    (∀ part ∈ found.1, part.IsWritten text) ∧ found.2.IsWritten text := by
  have hdotted : Finds text dottedPart (Key.IsWritten text) :=
    advances_blanks.bind fun _ _ => (advances_char _).bind fun _ _ =>
      advances_blanks.bind fun _ _ => finds_keyPart
  refine finds_keyPart.bind fun first hfirst => hdotted.many.bind fun parts hparts => ?_
  dsimp only
  split
  · exact (finds_failure (P := fun _ => False)).bind fun _ h => h.elim
  · cases hlast : parts.getLast? with
    | none => exact finds_pure ⟨by simp, hfirst⟩
    | some last =>
        refine finds_pure ⟨List.forall_mem_cons.mpr ⟨hfirst, fun part hpart => ?_⟩,
          hparts last (List.mem_of_getLast? hlast)⟩
        exact hparts part ((List.dropLast_sublist parts).subset hpart)

end Keys

section Values

variable {text : List Char} {α : Type} {item : Reader α} {P : α → Prop}

theorem finds_spaced (h : Finds text item P) : Finds text (spaced item) P :=
  advances_gap.bind fun _ _ => h.bind fun _ ha => advances_gap.bind fun _ _ => finds_pure ha

theorem finds_separated (h : Finds text item P) :
    Finds text (separated item) fun found => ∀ a ∈ found, P a := by
  have hcomma : Advances text (do char ','; gap) := (advances_char _).bind fun _ _ => advances_gap
  refine (finds_spaced h).optional.bind fun first hfirst => ?_
  cases first with
  | none =>
      exact advances_gap.bind fun _ _ => finds_pure (by simp)
  | some first =>
      have hothers := ((advances_char ',').bind fun _ _ => finds_spaced h).many
      refine hothers.bind fun others hmem => hcomma.optional.bind fun _ _ => finds_pure ?_
      exact List.forall_mem_cons.mpr ⟨hfirst first rfl, hmem⟩

/-- A value that is written out: nothing is added to it, and its parts stand in the text. -/
structure Value.IsWhole (text : List Char) (value : Value) : Prop where
  complete : value.IsComplete
  sound : value.IsSound
  parts : ∀ name, ∀ part ∈ value.parts name, IsPlaced text part.1 part.2

theorem isWhole_of_bareValue? {cs : List Char} {value : Value} (h : bareValue? cs = some value) :
    value.IsWhole text := by
  unfold bareValue? at h
  repeat' split at h
  all_goals cases h <;> exact ⟨trivial, trivial, by simp [Value.parts]⟩

theorem finds_scalar : Finds text scalar (Value.IsWhole text) := by
  refine Finds.orElse ?_ (Finds.orElse ?_ ?_)
  · exact advances_quoted.bind fun _ _ => finds_pure ⟨trivial, trivial, by simp [Value.parts]⟩
  · exact Datetime.advances_datetime.bind fun _ _ =>
      finds_pure ⟨trivial, trivial, by simp [Value.parts]⟩
  · refine (advances_takeSome _).bind fun cs _ => ?_
    split
    · next hvalue => exact finds_pure (isWhole_of_bareValue? hvalue)
    · exact finds_failure

variable {depth : Nat}

theorem finds_placed (h : Finds text (value depth) (Value.IsWhole text)) :
    Finds text (spanned (value depth)) fun found =>
      found.value.IsComplete ∧ ∀ name, IsPlaced text name found := by
  refine h.spanned.mono ?_
  rintro found ⟨hread, hwhole⟩
  exact ⟨hwhole.complete,
    fun name => ⟨.value hread hwhole.complete, hwhole.sound, hwhole.parts name⟩⟩

theorem finds_assignment {space : Reader Unit} (hspace : Advances text space)
    (h : Finds text (value depth) (Value.IsWhole text)) :
    Finds text (assignment space (value depth)) (Assignment.IsPlaced text) := by
  refine finds_key.bind fun _ hkey => hspace.bind fun _ _ => (advances_char _).bind fun _ _ =>
    hspace.bind fun _ _ => ?_
  exact (finds_placed h).bind fun _ hvalue => finds_pure ⟨hkey.1, hvalue.2 _⟩

theorem finds_array (h : Finds text (value depth) (Value.IsWhole text)) :
    Finds text (array (value depth)) (Value.IsWhole text) := by
  refine (advances_char _).bind fun _ _ =>
    (finds_separated (finds_placed h)).bind fun items hitems => ?_
  refine (advances_char _).bind fun _ _ =>
    finds_pure ⟨rfl, fun item hmem => (hitems item hmem).1, fun name => ?_⟩
  exact List.forall_mem_map.mpr fun item hmem => (hitems item hmem).2 name

theorem finds_braces (h : Finds text (value depth) (Value.IsWhole text)) :
    Finds text (braces (value depth)) (Value.IsWhole text) := by
  have hassignments := finds_separated (finds_assignment advances_gap h)
  refine (advances_char _).bind fun _ _ => hassignments.bind fun assignments hmem =>
    (advances_char _).bind fun _ _ => ?_
  split
  · next entries hentries =>
    have hplaced := keeps_insertAll hmem .braces [] entries (arePlaced_nil text) hentries
    exact finds_pure ⟨rfl, hplaced.keys, fun _ => List.forall_mem_map.mpr hplaced.values⟩
  · exact finds_failure

/-- The parts of a value that was read stand in the text. -/
theorem finds_value (depth : Nat) : Finds text (value depth) (Value.IsWhole text) := by
  induction depth with
  | zero => exact finds_scalar
  | succ depth ih => exact (finds_array ih).orElse ((finds_braces ih).orElse finds_scalar)

end Values

section Documents

variable {text : List Char}

theorem finds_valueLine : Finds text valueLine (Assignment.IsPlaced text) := by
  refine advances_lineEnd.many.bind fun _ _ => advances_blanks.bind fun _ _ => ?_
  exact (finds_assignment advances_blanks (finds_value maxDepth)).bind fun _ ha =>
    advances_lineEnd.bind fun _ _ => finds_pure ha

theorem finds_headerText :
    Finds text headerText fun found => ∀ key ∈ found.2.1, key.IsWritten text := by
  have hkey : Finds text headerKey fun found => ∀ key ∈ found.1, key.IsWritten text :=
    advances_blanks.bind fun _ _ => finds_key.bind fun _ hkey => advances_blanks.bind fun _ _ =>
      finds_pure hkey.1
  refine Finds.orElse ?_ ?_
  · exact (advances_word _).bind fun _ _ => hkey.bind fun _ h => (advances_word _).bind fun _ _ =>
      finds_pure h
  · exact (advances_char _).bind fun _ _ => hkey.bind fun _ h => (advances_char _).bind fun _ _ =>
      finds_pure h

theorem finds_headerLine : Finds text headerLine (Header.IsPlaced text) := by
  refine advances_lineEnd.many.bind fun _ _ => advances_blanks.bind fun _ _ => ?_
  exact finds_headerText.spanned.bind fun _ ⟨hread, hpath⟩ => advances_lineEnd.bind fun _ _ =>
    finds_pure ⟨hread, hpath⟩

theorem finds_sections : Finds text sections (Section.IsPlaced text) :=
  finds_headerLine.bind fun _ hheader => finds_valueLine.many.bind fun _ hmem =>
    finds_pure ⟨hheader, hmem⟩

theorem finds_body : Finds text body fun found =>
    (∀ a ∈ found.1, a.IsPlaced text) ∧ ∀ part ∈ found.2, part.IsPlaced text := by
  refine (advances_char _).optional.bind fun _ _ =>
    finds_valueLine.many.bind fun assignments hassignments => ?_
  refine finds_sections.many.bind fun parts hparts => advances_lineEnd.many.bind fun _ _ => ?_
  exact advances_atEnd.bind fun _ _ => finds_pure ⟨hassignments, hparts⟩

variable {document : Entries}

/-- The values of a document stand in the text that it was read from. -/
theorem arePlaced_of_read (h : read text = some document) : ArePlaced text document := by
  obtain ⟨⟨assignments, parts⟩, hbody, hbuild⟩ := Option.bind_eq_some_iff.mp h
  obtain ⟨⟨found, next⟩, hread, hfound⟩ := Option.map_eq_some_iff.mp hbody
  cases hfound
  obtain ⟨_, hassignments, hparts⟩ := finds_body [] text _ next rfl hread
  exact arePlaced_of_build hassignments hparts hbuild

/-- In a document that was read no table has a key twice. -/
theorem areDistinct_of_read (h : read text = some document) : AreDistinct document :=
  (arePlaced_of_read h).areDistinct

end Documents

end Toml
end Tunables
