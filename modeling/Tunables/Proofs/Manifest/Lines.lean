import Tunables.Proofs.Manifest.Label
import Tunables.Proofs.Text.Place
import Tunables.Proofs.Toml.EmptyLine
import Tunables.Proofs.Toml.Order

/-!
# The lines of the entries

A declaration keeps the line on which the value of its name begins.  The names stand in the text in
the order of the entries, so that the lines never go back.  All of this ends with the numbers of 32
bits: where a text has too many line feeds for them, a line may get the number of an earlier one.

* `StandsAt`: an entry is on the line of a name; `Outline.HasPlacedNames`: the names of the
  parameters stand in a text in order.
* `standsAt_of_ofOutline`, `pairwise_line`: the lines of entries whose names do, whoever read them.
* `hasPlacedNames_of_outline`: the names that a faithful reader finds in a text do.
* `KeepsLines`: how lines are counted in a text, and what the lines of its manifests are.
* `lines_of_readBy`, `lines_of_read`: a text keeps its lines as long as they can be numbered.
* `lines_of_read_wraps`: a longer text need not.
-/

namespace Tunables
namespace Manifest

open Text (byteLength countedLine? feedsBefore lineAt lineFeeds lines)
open Toml (Entries Span Spanned)

/-- An entry is on the line on which a name begins that was read from a text.  The number of the
line is found by counting line feeds.  It is that of one of the lines of the text, and not greater
than the number of its bytes. -/
structure StandsAt (text : List Char) (name : Spanned String) (entry : Entry) : Prop where
  same : entry.declaration.name = name.value
  line : ∃ before source after depth, text = before ++ source ++ after ∧
    name.span = ⟨byteLength before, byteLength (before ++ source)⟩ ∧
    Toml.value depth (.behind before (source ++ after)) =
      some (.text name.value, .behind (before ++ source) after) ∧
    entry.line.toNat = lineFeeds before + 1
  counted : countedLine? text name.span.start = some entry.line.toNat
  positive : 1 ≤ entry.line
  bounded : entry.line.toNat ≤ (lines text).length ∧ entry.line.toNat ≤ byteLength text

/-- A name that is a value stands in a text. -/
def IsPlacedName (text : List Char) (name : Spanned String) : Prop :=
  ∃ depth, Toml.IsReadAt text (Toml.value depth) ⟨name.span, .text name.value⟩

/-- The names of the parameters stand in a text, one behind the other. -/
structure Outline.HasPlacedNames (text : List Char) (outline : Outline) : Prop where
  places : ∀ parameter ∈ outline.parameters, IsPlacedName text parameter.name
  order : outline.parameters.Pairwise fun earlier later =>
    earlier.name.span.stop ≤ later.name.span.start

/-- How lines are counted in a text, and what the lines of its manifests are.  The line of a place
can be found by counting wherever no character is cut in two, and behind the end, where it is the
last one; it never goes back, and every line feed takes it one further. -/
structure KeepsLines (reader : List Char → Option Entries) (text : List Char) : Prop where
  entries : ∀ file manifest, readBy reader text file = .ok manifest → ∃ document outline,
    reader text = some document ∧ IsOutline document outline ∧
    List.Forall₂ (fun parameter entry => StandsAt text parameter.name entry)
      outline.parameters manifest.entries ∧
    (outline.parameters.Pairwise fun earlier later =>
      earlier.name.span.stop ≤ later.name.span.start) ∧
    manifest.entries.Pairwise fun earlier later => earlier.line ≤ later.line
  counted : ∀ offset line, countedLine? text offset = some line ↔
    line = (lineAt text offset).toNat ∧ (byteLength text ≤ offset ∨
      ∃ before after, text = before ++ after ∧ offset = byteLength before)
  number : ∀ before after, text = before ++ after →
    (lineAt text (byteLength before)).toNat = lineFeeds before + 1
  clamped : ∀ offset, byteLength text ≤ offset →
    lineAt text offset = lineAt text (byteLength text)
  ordered : ∀ offset offset', offset ≤ offset' → lineAt text offset ≤ lineAt text offset'
  feeds : ∀ before after, text = before ++ '\n' :: after →
    (lineAt text (byteLength before + 1)).toNat = (lineAt text (byteLength before)).toNat + 1

section Lines

variable {text : List Char} {name : Spanned String} {parameter : ParameterOutline} {entry : Entry}

/-- Nothing is read at the end of a text. -/
theorem value_of_nil (depth : Nat) (before : List Char) :
    Toml.value depth (.behind before []) = none := by
  cases depth <;> rfl

theorem IsPlacedName.start_le_stop (h : IsPlacedName text name) :
    name.span.start ≤ name.span.stop := by
  obtain ⟨depth, before, source, after, _, hspan, _⟩ := h
  have hspan : name.span = ⟨byteLength before, byteLength (before ++ source)⟩ := hspan
  rw [hspan, Text.byteLength_append]
  exact Nat.le_add_right _ _

theorem name_of_ofOutline (h : Entry.ofOutline text parameter = .ok entry) :
    entry.declaration.name = parameter.name.value ∧
      entry.line = lineAt text parameter.name.span.start := by
  simp only [Entry.ofOutline, except_bind_eq_ok_iff] at h
  obtain ⟨name, hname, _, _, _, _, _, _, _, _, ⟨⟩⟩ := h
  exact ⟨(checkName_eq_ok_iff.mp hname).1, rfl⟩

/-- An entry is on the line of the name that it was made of, if the name stands in the text. -/
theorem standsAt_of_ofOutline (hsize : lineFeeds text + 1 < UInt32.size)
    (h : Entry.ofOutline text parameter = .ok entry) (hplace : IsPlacedName text parameter.name) :
    StandsAt text parameter.name entry := by
  obtain ⟨hname, hline⟩ := name_of_ofOutline h
  obtain ⟨depth, before, source, after, htext, hspan, hread⟩ := hplace
  have hstart : parameter.name.span.start = byteLength before := congrArg Span.start hspan
  have hsplit : text = before ++ (source ++ after) := by
    rw [htext, List.append_assoc]
  have hbehind : source ++ after ≠ [] := by
    intro hnil
    rw [hnil, value_of_nil] at hread
    cases hread
  have hnumber : entry.line.toNat = lineFeeds before + 1 := by
    rw [hline, Text.toNat_lineAt hsize, hstart, hsplit, Text.feedsBefore_append]
  refine ⟨hname, ⟨before, source, after, depth, htext, hspan, hread, hnumber⟩, ?_, ?_, ?_⟩
  · rw [hstart, hnumber, hsplit]
    exact Text.countedLine?_append before (source ++ after)
  · rw [UInt32.le_iff_toNat_le, hnumber]
    exact Nat.le_add_left _ _
  · rw [hnumber, hsplit]
    refine ⟨Text.lineFeeds_lt_length_lines before hbehind, ?_⟩
    calc lineFeeds before + 1 ≤ before.length + (source ++ after).length :=
          Nat.add_le_add List.count_le_length (List.length_pos_iff.mpr hbehind)
      _ = (before ++ (source ++ after)).length := List.length_append.symm
      _ ≤ byteLength (before ++ (source ++ after)) := Text.length_le_byteLength _

theorem pairwise_of_forall₂ {α β : Type} {R : α → β → Prop} {S : α → α → Prop}
    {T : β → β → Prop} {as : List α} {bs : List β} (h : List.Forall₂ R as bs) (hS : as.Pairwise S)
    (hT : ∀ a a' b b', R a b → R a' b' → S a a' → T b b') : bs.Pairwise T := by
  have hlength := h.length_eq
  rw [List.pairwise_iff_getElem] at hS ⊢
  intro i j hi hj hij
  exact hT _ _ _ _ (h.get (by omega) hi) (h.get (by omega) hj) (hS i j (by omega) (by omega) hij)

variable {file : String} {outline : Outline} {manifest : Manifest}

/-- The entries of a manifest are on the lines of their names. -/
theorem forall₂_standsAt (hsize : lineFeeds text + 1 < UInt32.size)
    (h : ofOutline text file outline = .ok manifest) (hplaced : outline.HasPlacedNames text) :
    List.Forall₂ (fun parameter entry => StandsAt text parameter.name entry)
      outline.parameters manifest.entries := by
  obtain ⟨_, _, hentries, _⟩ := ofOutline_eq_ok_iff.mp h
  have hboth := (List.forall₂_and_left _ _).mpr ⟨hplaced.places, hentries⟩
  exact hboth.imp fun _ _ hentry => standsAt_of_ofOutline hsize hentry.2 hentry.1

/-- If the names stand one behind the other, no entry is on an earlier line than the entries before
it. -/
theorem pairwise_line (hsize : lineFeeds text + 1 < UInt32.size)
    (h : ofOutline text file outline = .ok manifest) (hplaced : outline.HasPlacedNames text) :
    manifest.entries.Pairwise fun earlier later => earlier.line ≤ later.line := by
  obtain ⟨_, _, hentries, _⟩ := ofOutline_eq_ok_iff.mp h
  have hplaces := (List.forall₂_and_left _ _).mpr ⟨hplaced.places, hentries⟩
  refine pairwise_of_forall₂ hplaces hplaced.order fun _ _ _ _ hfirst hsecond hle => ?_
  rw [(name_of_ofOutline hfirst.2).2, (name_of_ofOutline hsecond.2).2]
  exact Text.lineAt_mono hsize (hfirst.1.start_le_stop.trans hle)

end Lines

section Names

variable {reader : List Char → Option Entries} {text : List Char} {document fields : Entries}
  {outline : Outline}

/-- A text among the fields of a value stands right inside of it. -/
theorem Record.Lists.hasTextAt {record : Record} {value : Toml.Value}
    (h : record.Lists value fields) {key content : String} {span : Span}
    (hfind : fields.find? key = some ⟨span, .text content⟩) : value.HasTextAt span := by
  cases h with
  | table origin entries =>
      obtain ⟨k, _, hmem⟩ := Toml.Entries.find?_eq_some hfind
      exact ⟨_, hmem, content, rfl⟩
  | array ofHeaders items _ =>
      exact ⟨_, Record.mem_of_find?_zipWith hfind, content, rfl⟩

/-- The names that are read from a text stand in it, one behind the other. -/
theorem hasPlacedNames_of_outline (hreader : Toml.IsFaithful reader)
    (hread : reader text = some document) (h : IsOutline document outline) :
    outline.HasPlacedNames text := by
  constructor
  · intro parameter hmem
    obtain ⟨fields, hfields, hparameter⟩ := h.parameters.exists_fields hmem
    exact (hfields.written (hreader.placed hread) hparameter.name).exists_isReadAt
  · rcases h.parameters with ⟨span, ofHeaders, items, hfind, hitems⟩ | ⟨_, hnil⟩
    · have hitems := hitems.imp fun item parameter ⟨fields, hlists, hparameter⟩ =>
        hlists.hasTextAt hparameter.name
      refine pairwise_of_forall₂ hitems (hreader.ordered hread hfind) ?_
      exact fun _ _ _ _ hfirst hsecond hprecedes => hprecedes _ _ hfirst hsecond
    · rw [hnil]
      exact .nil

end Names

section Manifests

variable {reader : List Char → Option Entries} {text : List Char}

/-- With a reader that can be relied on, a text keeps its lines as long as they can be numbered. -/
theorem lines_of_readBy (hreader : Toml.IsFaithful reader)
    (hsize : lineFeeds text + 1 < UInt32.size) : KeepsLines reader text where
  entries file manifest h := by
    obtain ⟨document, outline, hread, hdocument, houtline⟩ := exists_outline_of_readBy h
    have hshape := (isOutline_iff (hreader.distinct hread) outline).mpr hdocument
    have hplaced := hasPlacedNames_of_outline hreader hread hshape
    exact ⟨document, outline, hread, hshape, forall₂_standsAt hsize houtline hplaced,
      hplaced.order, pairwise_line hsize houtline hplaced⟩
  counted offset line := by
    rw [Text.toNat_lineAt hsize]
    exact Text.countedLine?_eq_some_iff
  number before after h := by
    rw [Text.toNat_lineAt hsize, h, Text.feedsBefore_append]
  clamped _ := Text.lineAt_of_byteLength_le
  ordered _ _ := Text.lineAt_mono hsize
  feeds before after h := by
    rw [Text.toNat_lineAt hsize, Text.toNat_lineAt hsize, h]
    exact congrArg (· + 1) (Text.feedsBefore_append_cons before '\n' after)

/-- **Entries keep the lines of their names.**  For every manifest that was read from a text whose
lines can be numbered with 32 bits, each entry is on the line on which the value of its name begins,
the names stand in the text in the order of the entries, and so the lines never go back.  Manifests
are read with the reader of the library here (`read_eq_readBy`). -/
theorem lines_of_read (hsize : lineFeeds text + 1 < UInt32.size) : KeepsLines Toml.read text :=
  lines_of_readBy Toml.isFaithful_read hsize

/-- A text with a byte order mark, a line break of two characters and a description of three lines
with a letter of two bytes.  Its second name stands below the type. -/
def multibyteText : List Char :=
  "\ufeff[generator]\r\npackage = \"p\"\nnode = \"n\"\nname = \"Gain\"\n[[param]]\n".toList ++
    "name = \"a\"\ntype = \"str\"\ndescription = \"\"\"\u00e9\n\n\"\"\"\n".toList ++
    "[[param]]\ntype = \"int\"\nname = \"b\"\n".toList

/-- The lines are those of the names. -/
theorem lines_of_read_multibyte :
    ∃ manifest,
      read multibyteText "a.toml" = .ok manifest ∧
      manifest.entries.map Entry.line = [6, 13] ∧
      manifest.entries.Pairwise fun earlier later => earlier.line ≤ later.line := by
  have hdocument : Toml.read multibyteText = some [
      (⟨"generator", ⟨4, 13⟩⟩, ⟨⟨3, 14⟩, .table .header [
        (⟨"package", ⟨16, 23⟩⟩, ⟨⟨26, 29⟩, .text "p"⟩),
        (⟨"node", ⟨30, 34⟩⟩, ⟨⟨37, 40⟩, .text "n"⟩),
        (⟨"name", ⟨41, 45⟩⟩, ⟨⟨48, 54⟩, .text "Gain"⟩)]⟩),
      (⟨"param", ⟨57, 62⟩⟩, ⟨⟨55, 64⟩, .array true [
        ⟨⟨55, 64⟩, .table .header [
          (⟨"name", ⟨65, 69⟩⟩, ⟨⟨72, 75⟩, .text "a"⟩),
          (⟨"type", ⟨76, 80⟩⟩, ⟨⟨83, 88⟩, .text "str"⟩),
          (⟨"description", ⟨89, 100⟩⟩, ⟨⟨103, 113⟩, .text "\u00e9\n\n"⟩)]⟩,
        ⟨⟨114, 123⟩, .table .header [
          (⟨"type", ⟨124, 128⟩⟩, ⟨⟨131, 136⟩, .text "int"⟩),
          (⟨"name", ⟨137, 141⟩⟩, ⟨⟨144, 147⟩, .text "b"⟩)]⟩]⟩)] := by
    cbv
  have houtline : HasOutline multibyteText
      ⟨⟨"p", "n", "Gain", none⟩, [
        ⟨⟨⟨72, 75⟩, "a"⟩, ⟨⟨83, 88⟩, "str"⟩, 0, "\u00e9\n\n", none, none, none, ""⟩,
        ⟨⟨⟨144, 147⟩, "b"⟩, ⟨⟨131, 136⟩, "int"⟩, 0, "", none, none, none, ""⟩]⟩ := by
    refine ⟨_, hdocument, ⟨by decide, ?_, ?_⟩, by decide⟩
    · exact ⟨_, _, rfl, .table _ _, ⟨by decide, ⟨_, rfl⟩, ⟨_, rfl⟩, ⟨_, rfl⟩, rfl⟩⟩
    · refine Or.inl ⟨_, _, _, rfl, .cons ⟨_, .table _ _, ?_⟩ (.cons ⟨_, .table _ _, ?_⟩ .nil)⟩
      · exact ⟨by decide, rfl, rfl, Or.inr ⟨rfl, rfl⟩, ⟨some _, ⟨_, rfl⟩, rfl⟩, rfl, rfl, rfl,
          none, rfl, rfl⟩
      · exact ⟨by decide, rfl, rfl, Or.inr ⟨rfl, rfl⟩, ⟨none, rfl, rfl⟩, rfl, rfl, rfl,
          none, rfl, rfl⟩
  have hlines : [lineAt multibyteText 72, lineAt multibyteText 144] = [6, 13] := by decide +kernel
  have hread : read multibyteText "a.toml" = .ok ⟨⟨"p", "n", "Gain"⟩, none, [
      ⟨⟨"a", .str, 0, "\u00e9\n\n", none, none, none, ""⟩, lineAt multibyteText 72⟩,
      ⟨⟨"b", .int, 0, "", none, none, none, ""⟩, lineAt multibyteText 144⟩], "a.toml"⟩ := by
    rw [read_of_hasOutline houtline]
    refine ofOutline_eq_ok_iff.mpr ⟨rfl, by decide, .cons ?_ (.cons ?_ .nil), rfl⟩
    all_goals
      refine except_bind_eq_ok_iff.mpr ⟨_, checkName_eq_ok_iff.mpr ⟨rfl, by decide, ?_⟩, rfl⟩
      exact (IdentifierFault.of?_eq_none_iff _).mp (by decide)
  obtain ⟨_, _, _, _, _, _, hpairs⟩ := (lines_of_read (by decide +kernel)).entries _ _ hread
  exact ⟨_, hread, hlines, hpairs⟩

/-- A text with one parameter, whose name begins at byte 65, behind five line feeds. -/
def smallText : List Char :=
  "[generator]\npackage = \"p\"\nnode = \"n\"\nname = \"N\"\n".toList ++
    "[[param]]\nname = \"a\"\ntype = \"int\"\n".toList

theorem lineFeeds_smallText (n : Nat) :
    lineFeeds (List.replicate n '\n' ++ smallText.take 65) = n + 5 := by
  have hfeeds : lineFeeds (smallText.take 65) = 5 := by decide +kernel
  rw [Text.lineFeeds_append, hfeeds, lineFeeds, List.count_replicate_self]

theorem append_smallText (n : Nat) : List.replicate n '\n' ++ smallText =
    (List.replicate n '\n' ++ smallText.take 65) ++ smallText.drop 65 := by
  rw [List.append_assoc, List.take_append_drop]

/-- The number of the line of that name behind empty lines. -/
theorem lineAt_smallText (n : Nat) :
    lineAt (List.replicate n '\n' ++ smallText) (byteLength (List.replicate n '\n') + 65) =
      UInt32.ofNat (n + 5) + 1 := by
  have hlength : byteLength (smallText.take 65) = 65 := by decide +kernel
  have h := Text.lineAt_append (List.replicate n '\n' ++ smallText.take 65) (smallText.drop 65)
  rwa [← append_smallText, Text.byteLength_append, hlength, lineFeeds_smallText] at h

theorem valueLine_smallText (before : List Char) :
    Toml.valueLine (.behind before smallText) = none := by
  unfold Toml.Cursor.behind
  generalize byteLength before = off
  cbv

/-- The sections of that text, wherever it begins. -/
theorem lastSections_smallText {before : List Char} {off : Nat} (h : byteLength before = off) :
    (Toml.lastSections (.behind before smallText)).map Prod.fst = some [
      ⟨⟨false, ⟨off, off + 11⟩, [], ⟨"generator", ⟨off + 1, off + 10⟩⟩⟩, [
        ⟨[], ⟨"package", ⟨off + 12, off + 19⟩⟩, ⟨⟨off + 22, off + 25⟩, .text "p"⟩⟩,
        ⟨[], ⟨"node", ⟨off + 26, off + 30⟩⟩, ⟨⟨off + 33, off + 36⟩, .text "n"⟩⟩,
        ⟨[], ⟨"name", ⟨off + 37, off + 41⟩⟩, ⟨⟨off + 44, off + 47⟩, .text "N"⟩⟩]⟩,
      ⟨⟨true, ⟨off + 48, off + 57⟩, [], ⟨"param", ⟨off + 50, off + 55⟩⟩⟩, [
        ⟨[], ⟨"name", ⟨off + 58, off + 62⟩⟩, ⟨⟨off + 65, off + 68⟩, .text "a"⟩⟩,
        ⟨[], ⟨"type", ⟨off + 69, off + 73⟩⟩, ⟨⟨off + 76, off + 81⟩, .text "int"⟩⟩]⟩] := by
  unfold Toml.Cursor.behind
  rw [h]
  cbv

/-- The document of that text behind empty lines. -/
theorem read_smallText (n : Nat) {off : Nat}
    (h : byteLength (List.replicate (n + 1) '\n') = off) :
    Toml.read (List.replicate (n + 1) '\n' ++ smallText) = some [
      (⟨"generator", ⟨off + 1, off + 10⟩⟩, ⟨⟨off, off + 11⟩, .table .header [
        (⟨"package", ⟨off + 12, off + 19⟩⟩, ⟨⟨off + 22, off + 25⟩, .text "p"⟩),
        (⟨"node", ⟨off + 26, off + 30⟩⟩, ⟨⟨off + 33, off + 36⟩, .text "n"⟩),
        (⟨"name", ⟨off + 37, off + 41⟩⟩, ⟨⟨off + 44, off + 47⟩, .text "N"⟩)]⟩),
      (⟨"param", ⟨off + 50, off + 55⟩⟩, ⟨⟨off + 48, off + 57⟩, .array true [
        ⟨⟨off + 48, off + 57⟩, .table .header [
          (⟨"name", ⟨off + 58, off + 62⟩⟩, ⟨⟨off + 65, off + 68⟩, .text "a"⟩),
          (⟨"type", ⟨off + 69, off + 73⟩⟩, ⟨⟨off + 76, off + 81⟩, .text "int"⟩)]⟩]⟩)] := by
  rw [Toml.read_of_leading_feeds (valueLine_smallText _) (lastSections_smallText h)
    (List.cons_ne_nil _ _)]
  cbv

/-- Behind empty lines the entry of that text is on a line further down. -/
theorem exists_read_smallText (n : Nat) : ∃ manifest,
    read (List.replicate (n + 1) '\n' ++ smallText) "params.toml" = .ok manifest ∧
      manifest.entries.map Entry.line = [UInt32.ofNat (n + 6) + 1] := by
  obtain ⟨off, hoff⟩ : ∃ off, byteLength (List.replicate (n + 1) '\n') = off := ⟨_, rfl⟩
  have houtline : HasOutline (List.replicate (n + 1) '\n' ++ smallText) ⟨⟨"p", "n", "N", none⟩, [
      ⟨⟨⟨off + 65, off + 68⟩, "a"⟩, ⟨⟨off + 76, off + 81⟩, "int"⟩, 0, "", none, none, none,
        ""⟩]⟩ := by
    refine ⟨_, read_smallText n hoff, ⟨by simp, ?_, ?_⟩, ?_⟩
    · exact ⟨_, _, rfl, .table _ _, ⟨by simp, ⟨_, rfl⟩, ⟨_, rfl⟩, ⟨_, rfl⟩, rfl⟩⟩
    · refine Or.inl ⟨_, _, _, rfl, .cons ⟨_, .table _ _, ?_⟩ .nil⟩
      exact ⟨by simp, rfl, rfl, Or.inr ⟨rfl, rfl⟩, ⟨none, rfl, rfl⟩, rfl, rfl, rfl, none, rfl, rfl⟩
    · intro parameter hmem
      rw [List.mem_singleton.mp hmem]
      rfl
  refine ⟨⟨⟨"p", "n", "N"⟩, none, [⟨⟨"a", .int, 0, "", none, none, none, ""⟩, _⟩], "params.toml"⟩,
    ?_, congrArg (fun line => [line]) (lineAt_smallText (n + 1))⟩
  rw [read_of_hasOutline houtline]
  have hname : IdentifierFault.of? "N".toList = none := by decide
  refine ofOutline_eq_ok_iff.mpr ⟨rfl, hname, .cons ?_ .nil, rfl⟩
  have hkeyword : isCppKeyword "a" = false := by decide
  refine except_bind_eq_ok_iff.mpr ⟨_, checkName_eq_ok_iff.mpr ⟨rfl, hkeyword, ?_⟩, ?_⟩
  · exact (IdentifierFault.of?_eq_none_iff "a".toList).mp (by decide)
  · rw [← hoff]
    rfl

/-- A manifest behind too many line feeds is read, and its entry gets the number of the first
line. -/
theorem lines_of_read_wraps :
    (∃ manifest, read (List.replicate 4294967291 '\n' ++ smallText) "params.toml" = .ok manifest ∧
      manifest.entries.map Entry.line = [1]) ∧
    ¬ KeepsLines Toml.read (List.replicate 4294967291 '\n' ++ smallText) := by
  refine ⟨exists_read_smallText 4294967290, fun h => ?_⟩
  -- the line of the name would have to have a number that no word of 32 bits is
  have hline := h.number _ _ (append_smallText 4294967291)
  rw [lineFeeds_smallText] at hline
  have hlt := UInt32.toNat_lt (lineAt (List.replicate 4294967291 '\n' ++ smallText)
    (byteLength (List.replicate 4294967291 '\n' ++ smallText.take 65)))
  omega

end Manifests

end Manifest
end Tunables
