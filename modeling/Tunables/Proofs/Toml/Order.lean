import Tunables.Proofs.Toml.Source

/-!
# The order of a document

The items of an array stand in a text in their order.  Those between brackets do because they are
read one behind the other.  Those that headers open do because each is opened behind all that was
read before, and only the last one is added to.

Only texts are looked at, and only those right inside of the items, since a table that a dotted key
leads through has the place of the key and not that of its values.

* `Precedes`: the texts of one value stand in front of those of another.
* `AreArranged`: entries whose arrays have their items in order, in front of a place.
* `Grows`, `Arranges`: a change that only adds texts between two places, and one that
  leaves arrays in order.
* `pairwise_precedes_of_read`: in a document that was read every array under a key has its items in
  order.
* `IsFaithful`: what is relied on of a reader of documents; `isFaithful_read`: the reader of the
  library is such a one.
-/

namespace Tunables
namespace Toml

open Reader

section Order

/-- A text stands at a place, under one of the keys. -/
def Entries.HasTextAt (entries : Entries) (span : Span) : Prop :=
  ∃ entry ∈ entries, ∃ content, entry.2 = ⟨span, .text content⟩

/-- A text stands at a place, right inside of a value. -/
def Value.HasTextAt (value : Value) (span : Span) : Prop :=
  match value with
  | .array _ items => ∃ item ∈ items, ∃ content, item = ⟨span, .text content⟩
  | .table _ entries => Entries.HasTextAt entries span
  | _ => False

/-- The texts right inside of a value stand in front of those of another. -/
def Precedes (first second : Spanned Value) : Prop :=
  ∀ s t, first.value.HasTextAt s → second.value.HasTextAt t → s.stop ≤ t.start

/-- The items of an array stand in order and in front of a place. -/
def Value.IsArranged (limit : Nat) : Value → Prop
  | .array _ items =>
      items.Pairwise Precedes ∧ ∀ item ∈ items, ∀ span, item.value.HasTextAt span →
        span.stop ≤ limit
  | _ => True

/-- The arrays under the keys of a table have their items in order and in front of a place. -/
def AreArranged (limit : Nat) (entries : Entries) : Prop :=
  ∀ entry ∈ entries, entry.2.value.IsArranged limit

variable {entries : Entries} {key : String} {span : Span} {value : Spanned Value} {limit : Nat}

theorem Value.IsArranged.mono {value : Value} (h : value.IsArranged limit) {limit' : Nat}
    (hle : limit ≤ limit') :
    value.IsArranged limit' := by
  cases value with
  | array ofHeaders items =>
      exact ⟨h.1, fun item hmem span hspan => Nat.le_trans (h.2 item hmem span hspan) hle⟩
  | text _ | integer _ | double _ | voidNumber | bool _ | datetime | table _ _ => trivial

theorem isArranged_append_singleton_iff {ofHeaders : Bool} {items : List (Spanned Value)}
    {last : Spanned Value} : (Value.array ofHeaders (items ++ [last])).IsArranged limit ↔
      (Value.array ofHeaders items).IsArranged limit ∧ (∀ item ∈ items, Precedes item last) ∧
        ∀ span, last.value.HasTextAt span → span.stop ≤ limit := by
  simp only [Value.IsArranged, List.pairwise_append, List.forall_mem_append,
    List.forall_mem_singleton, List.pairwise_singleton]
  constructor
  · rintro ⟨⟨hpairs, _, hlast⟩, hlimit, hlastLimit⟩
    exact ⟨⟨hpairs, hlimit⟩, hlast, hlastLimit⟩
  · rintro ⟨⟨hpairs, hlimit⟩, hlast, hlastLimit⟩
    exact ⟨⟨hpairs, trivial, hlast⟩, hlimit, hlastLimit⟩

theorem AreArranged.mono (h : AreArranged limit entries) {limit' : Nat} (hle : limit ≤ limit') :
    AreArranged limit' entries :=
  fun entry hmem => (h entry hmem).mono hle

theorem AreArranged.push (h : AreArranged limit entries) (key : Key)
    (hvalue : value.value.IsArranged limit) :
    AreArranged limit (entries.push key value) :=
  List.forall_mem_append.mpr ⟨h, List.forall_mem_singleton.mpr hvalue⟩

theorem AreArranged.replace (h : AreArranged limit entries) (key : String)
    (hvalue : value.value.IsArranged limit) :
    AreArranged limit (entries.replace key value) := by
  refine List.forall_mem_map.mpr fun entry hmem => ?_
  split
  · exact hvalue
  · exact h entry hmem

theorem AreArranged.erase (h : AreArranged limit entries) (key : String) :
    AreArranged limit (entries.erase key) :=
  fun entry hmem => h entry (List.mem_of_mem_filter hmem)

theorem AreArranged.isArranged_of_find? (h : AreArranged limit entries)
    (hfind : entries.find? key = some value) :
    value.value.IsArranged limit := by
  obtain ⟨k, _, hk⟩ := Entries.find?_eq_some hfind
  exact h _ hk

theorem Entries.hasTextAt_of_push {key : Key} (h : (entries.push key value).HasTextAt span) :
    entries.HasTextAt span ∨ ∃ content, value = ⟨span, .text content⟩ := by
  obtain ⟨entry, hmem, hentry⟩ := h
  rcases List.mem_append.mp hmem with hmem | hmem
  · exact .inl ⟨entry, hmem, hentry⟩
  · rw [List.mem_singleton.mp hmem] at hentry
    exact .inr hentry

theorem Entries.hasTextAt_of_replace (h : (entries.replace key value).HasTextAt span) :
    entries.HasTextAt span ∨ ∃ content, value = ⟨span, .text content⟩ := by
  obtain ⟨entry, hmem, hentry⟩ := h
  obtain ⟨other, hother, rfl⟩ := List.mem_map.mp hmem
  split at hentry
  · exact .inr hentry
  · exact .inl ⟨other, hother, hentry⟩

theorem Entries.hasTextAt_of_erase (h : (entries.erase key).HasTextAt span) :
    entries.HasTextAt span := by
  obtain ⟨entry, hmem, hentry⟩ := h
  exact ⟨entry, List.mem_of_mem_filter hmem, hentry⟩

end Order

/-- A change that adds no texts to a table but between two places. -/
def Grows (start stop : Nat) (change : Change) : Prop :=
  ∀ origin entries changed span, change origin entries = some changed →
    Entries.HasTextAt changed span →
    Entries.HasTextAt entries span ∨ start ≤ span.start ∧ span.stop ≤ stop

/-- A change that leaves the arrays in order, where what it adds stands between two places. -/
def Arranges (start stop : Nat) (change : Change) : Prop :=
  ∀ origin entries changed, AreArranged start entries → change origin entries = some changed →
    AreArranged stop changed

/-- The texts right inside of a value stand between two places, and in order if it is an array. -/
structure Value.IsInside (start : Nat) (value : Value) (stop : Nat) : Prop where
  texts : ∀ span, value.HasTextAt span → start ≤ span.start ∧ span.stop ≤ stop
  arranged : value.IsArranged stop

/-- A value stands between two places, and the texts right inside of it stand where it does. -/
structure IsBetween (start : Nat) (found : Spanned Value) (stop : Nat) : Prop where
  lower : start ≤ found.span.start
  upper : found.span.stop ≤ stop
  inside : found.value.IsInside found.span.start found.span.stop

/-- The values of a section stand between two places. -/
def Section.IsBetween (start : Nat) (part : Section) (stop : Nat) : Prop :=
  ∀ a ∈ part.assignments, Toml.IsBetween start a.value stop

section Changes

variable {start middle stop : Nat} {change next : Change} {value : Spanned Value}

theorem Grows.within (h : Grows start stop change) (dotted : Bool) (path : List Key) :
    Grows start stop (within dotted change path) := by
  cases path with
  | nil => exact h
  | cons key path =>
      intro origin entries changed span hchange htext
      unfold Toml.within at hchange
      split at hchange
      · obtain ⟨inside, hinside, ⟨⟩⟩ := Option.bind_eq_some_iff.mp hchange
        rcases Entries.hasTextAt_of_replace htext with hbefore | ⟨content, hcontent⟩
        · exact .inl hbefore
        · -- what a path leads through is a table or an array
          cases hcontent
          unfold changeInside at hinside
          split at hinside
          · split at hinside
            · cases hinside
            · obtain ⟨_, _, ⟨⟩⟩ := Option.bind_eq_some_iff.mp hinside
          · obtain ⟨_, _, ⟨⟩⟩ := Option.bind_eq_some_iff.mp hinside
          · cases hinside
      · obtain ⟨below, _, ⟨⟩⟩ := Option.bind_eq_some_iff.mp hchange
        rcases Entries.hasTextAt_of_push htext with hbefore | ⟨content, ⟨⟩⟩
        exact .inl hbefore

/-- The last of the items that headers opened may grow: what is added stands behind the items before
it. -/
theorem Grows.isArranged_changeLast (h : Grows start stop change) (hle : start ≤ stop)
    {items changed : List (Spanned Value)} (hitems : (Value.array true items).IsArranged start)
    (hchange : changeLast change items = some changed) :
    (Value.array true changed).IsArranged stop := by
  unfold changeLast at hchange
  split at hchange
  · next span origin entries hlast =>
    obtain ⟨inside, hinside, ⟨⟩⟩ := Option.bind_eq_some_iff.mp hchange
    rw [← List.dropLast_append_getLast? _ hlast] at hitems
    obtain ⟨hearlier, hbefore, hlimit⟩ := isArranged_append_singleton_iff.mp hitems
    refine isArranged_append_singleton_iff.mpr
      ⟨hearlier.mono hle, fun item hitem s t hs ht => ?_, fun t ht => ?_⟩
    · rcases h origin entries inside t hinside ht with hold | ⟨hnew, _⟩
      · exact hbefore item hitem s t hs hold
      · exact Nat.le_trans (hearlier.2 item hitem s hs) hnew
    · rcases h origin entries inside t hinside ht with hold | ⟨_, hnew⟩
      · exact Nat.le_trans (hlimit t hold) hle
      · exact hnew
  · cases hchange

theorem Grows.isArranged_changeInside (h : Grows start stop change) (hle : start ≤ stop)
    {dotted : Bool} {value changed : Value} (hvalue : value.IsArranged start)
    (hchange : changeInside dotted change value = some changed) : changed.IsArranged stop := by
  unfold changeInside at hchange
  split at hchange
  · split at hchange
    · cases hchange
    · obtain ⟨_, _, ⟨⟩⟩ := Option.bind_eq_some_iff.mp hchange
      trivial
  · obtain ⟨inside, hinside, ⟨⟩⟩ := Option.bind_eq_some_iff.mp hchange
    exact h.isArranged_changeLast hle hvalue hinside
  · cases hchange

/-- A change below a path leaves the arrays in order if it does so at its end. -/
theorem Arranges.within (h : Arranges start stop change) (hgrows : Grows start stop change)
    (hle : start ≤ stop) (dotted : Bool) (path : List Key) :
    Arranges start stop (within dotted change path) := by
  cases path with
  | nil => exact h
  | cons key path =>
      intro origin entries changed hentries hchange
      unfold Toml.within at hchange
      split at hchange
      · next span value hfind =>
        obtain ⟨inside, hinside, ⟨⟩⟩ := Option.bind_eq_some_iff.mp hchange
        have hvalue := hentries.isArranged_of_find? hfind
        exact (hentries.mono hle).replace
          _ ((hgrows.within dotted path).isArranged_changeInside hle hvalue hinside)
      · obtain ⟨below, _, ⟨⟩⟩ := Option.bind_eq_some_iff.mp hchange
        exact (hentries.mono hle).push key trivial

theorem grows_addValue (dotted : Bool) (key : Key) (hvalue : IsBetween start value stop) :
    Grows start stop (addValue dotted key value) := by
  intro origin entries changed span hchange htext
  unfold addValue at hchange
  split at hchange
  · cases hchange
  · cases hchange
    rcases Entries.hasTextAt_of_push htext with hbefore | ⟨content, rfl⟩
    · exact .inl hbefore
    · exact .inr ⟨hvalue.lower, hvalue.upper⟩

theorem arranges_addValue (dotted : Bool) (key : Key) (hvalue : IsBetween start value stop)
    (hle : start ≤ stop) :
    Arranges start stop (addValue dotted key value) := by
  intro origin entries changed hentries hchange
  unfold addValue at hchange
  split at hchange
  · cases hchange
  · cases hchange
    exact (hentries.mono hle).push key (hvalue.inside.arranged.mono hvalue.upper)

theorem grows_insertAll {assignments : List Assignment}
    (h : ∀ a ∈ assignments, IsBetween start a.value stop) :
    Grows start stop (insertAll assignments) := by
  intro origin entries changed span hchange htext
  unfold insertAll at hchange
  induction assignments generalizing entries with
  | nil =>
      cases hchange
      exact .inl htext
  | cons a assignments ih =>
      obtain ⟨ha, hassignments⟩ := List.forall_mem_cons.mp h
      obtain ⟨next, hnext, hrest⟩ := Option.bind_eq_some_iff.mp hchange
      rcases ih hassignments next hrest with hbefore | hnew
      · exact (grows_addValue _ a.key ha).within true a.path origin entries next span hnext hbefore
      · exact .inr hnew

/-- Values that stand one behind the other are added to a document one after the other. -/
theorem arranges_insertAll {assignments : List Assignment}
    (h : Successive (fun start a stop => IsBetween start a.value stop) start assignments stop) :
    Arranges start stop (insertAll assignments) := by
  intro origin entries changed hentries hchange
  unfold insertAll at hchange
  induction h generalizing entries with
  | nil =>
      cases hchange
      exact hentries
  | @cons start middle stop a others hle ha _ ih =>
      obtain ⟨next, hnext, hrest⟩ := Option.bind_eq_some_iff.mp hchange
      have hinsert :=
        (arranges_addValue (!a.path.isEmpty) a.key ha hle).within
          (grows_addValue _ a.key ha) hle true a.path
      exact ih next (hinsert origin entries next hentries hnext) hrest

theorem exists_of_openTable {span : Span} {key : Key} {assignments : List Assignment}
    {origin : Origin} {entries changed : Entries}
    (h : openTable span key assignments origin entries = some changed) :
    ∃ inside, changed = (entries.erase key.text).push key ⟨span, .table .header inside⟩ := by
  unfold openTable at h
  split at h
  · obtain ⟨_, _, h⟩ := Option.bind_eq_some_iff.mp h
    obtain ⟨inside, _, ⟨⟩⟩ := Option.bind_eq_some_iff.mp h
    exact ⟨inside, rfl⟩
  · obtain ⟨_, _, h⟩ := Option.bind_eq_some_iff.mp h
    obtain ⟨inside, _, ⟨⟩⟩ := Option.bind_eq_some_iff.mp h
    exact ⟨inside, rfl⟩
  · cases h

theorem grows_openTable (span : Span) (key : Key) (assignments : List Assignment) :
    Grows start stop (openTable span key assignments) := by
  intro origin entries changed place hchange htext
  obtain ⟨inside, rfl⟩ := exists_of_openTable hchange
  rcases Entries.hasTextAt_of_push htext with hbefore | ⟨content, ⟨⟩⟩
  exact .inl (Entries.hasTextAt_of_erase hbefore)

theorem arranges_openTable (span : Span) (key : Key) (assignments : List Assignment)
    (hle : start ≤ stop) :
    Arranges start stop (openTable span key assignments) := by
  intro origin entries changed hentries hchange
  obtain ⟨inside, rfl⟩ := exists_of_openTable hchange
  exact ((hentries.erase key.text).mono hle).push key trivial

theorem grows_openItem (span : Span) (key : Key) (assignments : List Assignment) :
    Grows start stop (openItem span key assignments) := by
  intro origin entries changed place hchange htext
  unfold openItem at hchange
  obtain ⟨inside, _, hchange⟩ := Option.bind_eq_some_iff.mp hchange
  split at hchange
  · cases hchange
    rcases Entries.hasTextAt_of_push htext with hbefore | ⟨content, ⟨⟩⟩
    exact .inl hbefore
  · cases hchange
    rcases Entries.hasTextAt_of_replace htext with hbefore | ⟨content, ⟨⟩⟩
    exact .inl hbefore
  · cases hchange

/-- The item that a header opens stands behind those that were opened before. -/
theorem arranges_openItem (span : Span) (key : Key) {assignments : List Assignment}
    (hle : start ≤ stop) (h : ∀ a ∈ assignments, IsBetween start a.value stop) :
    Arranges start stop (openItem span key assignments) := by
  intro origin entries changed hentries hchange
  unfold openItem at hchange
  obtain ⟨inside, hinside, hchange⟩ := Option.bind_eq_some_iff.mp hchange
  have hitem : ∀ t, Entries.HasTextAt inside t → start ≤ t.start ∧ t.stop ≤ stop := by
    intro t ht
    rcases grows_insertAll h .header [] inside t hinside ht with ⟨_, ⟨⟩, _⟩ | hnew
    exact hnew
  split at hchange
  · cases hchange
    refine (hentries.mono hle).push key ⟨List.pairwise_singleton _ _, ?_⟩
    exact List.forall_mem_singleton.mpr fun t ht => (hitem t ht).2
  · next first items hfind =>
    cases hchange
    have hitems := hentries.isArranged_of_find? hfind
    refine (hentries.mono hle).replace
      _ (isArranged_append_singleton_iff.mpr ⟨hitems.mono hle, ?_, fun t ht => (hitem t ht).2⟩)
    exact fun item hmem s t hs ht => Nat.le_trans (hitems.2 item hmem s hs) (hitem t ht).1
  · cases hchange

theorem Section.arranges_add {part : Section} (h : part.IsBetween start stop) (hle : start ≤ stop) :
    Arranges start stop part.add := by
  unfold Section.add
  split
  · exact (arranges_openItem _ _ hle h).within (grows_openItem _ _ _) hle false part.header.path
  · exact (arranges_openTable _ _ _ hle).within (grows_openTable _ _ _) hle false part.header.path

/-- The arrays of a document are in order if its parts stand one behind the other. -/
theorem areArranged_of_build {assignments : List Assignment} {parts : List Section}
    {document : Entries}
    (hassignments : Successive (fun start a stop => IsBetween start a.value stop) start assignments
      middle) (hparts : Successive Section.IsBetween middle parts stop)
    (h : build assignments parts = some document) :
    AreArranged stop document := by
  obtain ⟨entries, hentries, hfold⟩ := Option.bind_eq_some_iff.mp h
  have hstart := arranges_insertAll hassignments .header [] entries (by simp [AreArranged]) hentries
  clear hentries h hassignments
  induction hparts generalizing entries with
  | nil =>
      cases hfold
      exact hstart
  | @cons middle place stop part others hle hpart _ ih =>
      obtain ⟨next, hnext, hrest⟩ := Option.bind_eq_some_iff.mp hfold
      exact ih next hrest (Section.arranges_add hpart hle .header entries next hstart hnext)

end Changes

/-- A value that has no other values inside of it. -/
def Value.IsScalar : Value → Prop
  | .array _ _ | .table _ _ => False
  | _ => True

section Readers

variable {text : List Char} {start : Nat} {α : Type} {item : Reader α} {P : Nat → α → Nat → Prop}

theorem widens_isBetween : Widens IsBetween :=
  fun _ _ _ _ _ hstart hstop h =>
    ⟨Nat.le_trans hstart h.lower, Nat.le_trans h.upper hstop, h.inside⟩

theorem Value.IsScalar.isInside {value : Value} (h : value.IsScalar) (start stop : Nat) :
    value.IsInside start stop := by
  cases value with
  | array _ _ | table _ _ => cases h
  | text _ | integer _ | double _ | voidNumber | bool _ | datetime =>
      exact ⟨fun _ => False.elim, trivial⟩

/-- The items of an array that stand one behind the other are in order. -/
theorem isInside_array {place stop : Nat} {items : List (Spanned Value)}
    (h : Successive IsBetween start items place) (hle : place ≤ stop) (ofHeaders : Bool) :
    (Value.array ofHeaders items).IsInside start stop := by
  have hall := h.forall_mem widens_isBetween
  refine ⟨?_, h.pairwise widens_isBetween fun _ a _ b _ ha hb s t hs ht => ?_,
    fun item hmem span hspan => ?_⟩
  · rintro span ⟨item, hmem, content, rfl⟩
    exact ⟨(hall _ hmem).lower, Nat.le_trans (hall _ hmem).upper hle⟩
  · calc s.stop ≤ a.span.stop := (ha.inside.texts s hs).2
      _ ≤ _ := ha.upper
      _ ≤ b.span.start := hb.lower
      _ ≤ t.start := (hb.inside.texts t ht).1
  · calc span.stop ≤ item.span.stop := ((hall item hmem).inside.texts span hspan).2
      _ ≤ place := (hall item hmem).upper
      _ ≤ stop := hle

theorem findsAt_spaced (hP : Widens P) (h : ∀ start, FindsAt text start item (P start))
    (start : Nat) :
    FindsAt text start (spaced item) (P start) := by
  refine (advances_gap.findsAt start).bind fun _ front hfront _ =>
    (h front).bind fun a behind _ ha => ?_
  exact (advances_gap.findsAt behind).bind fun _ stop hstop _ => findsAt_pure (hP hfront hstop ha)

/-- Items with commas between them stand one behind the other. -/
theorem findsAt_separated (hP : Widens P) (h : ∀ start, FindsAt text start item (P start))
    (start : Nat) :
    FindsAt text start (separated item) fun found stop =>
      ∃ place, Successive P start found place ∧ place ≤ stop := by
  have hcomma : Advances text (do char ','; gap) := (advances_char _).bind fun _ _ => advances_gap
  have hnext : ∀ start, FindsAt text start (do char ','; spaced item) (P start) := by
    refine fun start => ((advances_char ',').findsAt start).bind fun _ middle hle _ => ?_
    exact (findsAt_spaced hP h middle).mono fun _ stop => hP hle (Nat.le_refl stop)
  refine (findsAt_spaced hP h start).optional.bind fun first middle hle hfirst => ?_
  cases first with
  | none =>
      exact (advances_gap.findsAt middle).bind fun _ stop hstop _ =>
        findsAt_pure ⟨start, .nil start, Nat.le_trans hle hstop⟩
  | some first =>
      refine (FindsAt.many hnext middle).bind fun others place _ hothers => ?_
      exact (hcomma.optional.findsAt place).bind fun _ stop hstop _ =>
        findsAt_pure ⟨place, .cons hle (hfirst first rfl) hothers, hstop⟩

theorem isScalar_of_bareValue? {cs : List Char} {value : Value} (h : bareValue? cs = some value) :
    value.IsScalar := by
  unfold bareValue? at h
  repeat' split at h
  all_goals cases h <;> trivial

theorem isScalar_of_scalar : Finds text scalar Value.IsScalar := by
  refine Finds.orElse ?_ (Finds.orElse ?_ ?_)
  · exact advances_quoted.bind fun _ _ => finds_pure trivial
  · exact Datetime.advances_datetime.bind fun _ _ => finds_pure trivial
  · refine (advances_takeSome _).bind fun cs _ => ?_
    split
    · next hvalue => exact finds_pure (isScalar_of_bareValue? hvalue)
    · exact finds_failure

variable {depth : Nat}

theorem findsAt_spanned_value (h : ∀ start, FindsAt text start (value depth) (Value.IsInside start))
    (start : Nat) :
    FindsAt text start (spanned (value depth)) (IsBetween start) := by
  refine (h start).spanned.mono ?_
  rintro ⟨_, found⟩ stop ⟨rfl, hinside⟩
  exact ⟨Nat.le_refl start, Nat.le_refl stop, hinside⟩

theorem findsAt_assignment {space : Reader Unit} (hspace : Advances text space)
    (h : ∀ start, FindsAt text start (value depth) (Value.IsInside start)) (start : Nat) :
    FindsAt text start (assignment space (value depth)) fun a stop =>
      IsBetween start a.value stop := by
  refine (finds_key.findsAt start).bind fun _ afterKey hkey _ =>
    (hspace.findsAt afterKey).bind fun _ sign hsign _ => ?_
  refine ((advances_char _).findsAt sign).bind fun _ afterSign hafter _ =>
    (hspace.findsAt afterSign).bind fun _ front hfront _ => ?_
  have hle : start ≤ front := Nat.le_trans hkey (Nat.le_trans hsign (Nat.le_trans hafter hfront))
  exact (findsAt_spanned_value h front).bind fun found stop _ hfound =>
    findsAt_pure (widens_isBetween hle (Nat.le_refl stop) hfound)

theorem widens_assignment :
    Widens fun start (a : Assignment) stop => IsBetween start a.value stop :=
  fun _ _ _ _ _ hstart hstop h => widens_isBetween hstart hstop h

/-- A value that is read has its texts where it stands, and in order if it is an array. -/
theorem findsAt_value (depth : Nat) (start : Nat) :
    FindsAt text start (value depth) (Value.IsInside start) := by
  have hscalar : ∀ start, FindsAt text start scalar (Value.IsInside start) := fun start =>
    (isScalar_of_scalar.findsAt start).mono fun _ stop h => h.isInside start stop
  induction depth generalizing start with
  | zero => exact hscalar start
  | succ depth ih =>
      refine FindsAt.orElse ?_ (FindsAt.orElse ?_ (hscalar start))
      · refine ((advances_char _).findsAt start).bind fun _ front hfront _ => ?_
        refine (findsAt_separated widens_isBetween (findsAt_spanned_value ih) front).bind
          fun items behind _ hitems => ?_
        obtain ⟨place, hrow, hplace⟩ := hitems
        refine ((advances_char _).findsAt behind).bind fun _ stop hstop _ => findsAt_pure ?_
        obtain ⟨htexts, harranged⟩ := isInside_array hrow (Nat.le_trans hplace hstop) false
        exact ⟨fun span hspan => ⟨Nat.le_trans hfront (htexts span hspan).1, (htexts span hspan).2⟩,
          harranged⟩
      · refine ((advances_char _).findsAt start).bind fun _ front hfront _ => ?_
        have hassignments :=
          findsAt_separated widens_assignment (findsAt_assignment advances_gap ih) front
        refine hassignments.bind fun assignments behind _ hrow => ?_
        obtain ⟨place, hrow, hplace⟩ := hrow
        refine ((advances_char _).findsAt behind).bind fun _ stop hstop _ => ?_
        have hle : place ≤ stop := Nat.le_trans hplace hstop
        split
        · next entries hentries =>
          refine findsAt_pure ⟨fun span hspan => ?_, trivial⟩
          have hgrows := grows_insertAll fun a hmem =>
            widens_isBetween hfront hle (hrow.forall_mem widens_assignment a hmem)
          rcases hgrows .braces [] entries span hentries hspan with ⟨_, ⟨⟩, _⟩ | hnew
          exact hnew
        · exact findsAt_failure

theorem findsAt_valueLine (start : Nat) :
    FindsAt text start valueLine fun a stop => IsBetween start a.value stop := by
  refine (advances_lineEnd.many.findsAt start).bind fun _ line hline _ => ?_
  refine (advances_blanks.findsAt line).bind fun _ front hfront _ => ?_
  refine (findsAt_assignment advances_blanks (findsAt_value maxDepth) front).bind
    fun a behind _ ha => ?_
  exact (advances_lineEnd.findsAt behind).bind fun _ stop hstop _ =>
    findsAt_pure (widens_isBetween (Nat.le_trans hline hfront) hstop ha)

theorem findsAt_sections (start : Nat) : FindsAt text start sections (Section.IsBetween start) := by
  refine (finds_headerLine.findsAt start).bind fun header front hfront _ => ?_
  refine (FindsAt.many findsAt_valueLine front).bind fun assignments stop _ hrow =>
    findsAt_pure fun a hmem => ?_
  exact widens_isBetween hfront (Nat.le_refl stop) (hrow.forall_mem widens_assignment a hmem)

/-- The values in front of the first header and the sections stand one behind the other. -/
theorem findsAt_body (start : Nat) : FindsAt text start body fun found _ =>
    ∃ front middle stop,
      Successive (fun start a stop => IsBetween start a.value stop) front found.1 middle ∧
      Successive Section.IsBetween middle found.2 stop := by
  refine ((advances_char _).optional.findsAt start).bind fun _ front _ _ => ?_
  refine (FindsAt.many findsAt_valueLine front).bind fun assignments middle _ hassignments => ?_
  refine (FindsAt.many findsAt_sections middle).bind fun parts stop _ hparts => ?_
  refine (advances_lineEnd.many.findsAt stop).bind fun _ behind _ _ =>
    (advances_atEnd.findsAt behind).bind fun _ _ _ _ => ?_
  exact findsAt_pure ⟨front, middle, stop, hassignments, hparts⟩

variable {document : Entries}

/-- In a document that was read the items of an array under a key stand in order. -/
theorem pairwise_precedes_of_read (h : read text = some document) {key : String} {span : Span}
    {ofHeaders : Bool} {items : List (Spanned Value)}
    (hfind : document.find? key = some ⟨span, .array ofHeaders items⟩) :
    items.Pairwise Precedes := by
  obtain ⟨⟨assignments, parts⟩, hbody, hbuild⟩ := Option.bind_eq_some_iff.mp h
  obtain ⟨⟨found, next⟩, hread, hfound⟩ := Option.map_eq_some_iff.mp hbody
  cases hfound
  obtain ⟨_, front, middle, stop, hassignments, hparts⟩ :=
    findsAt_body 0 [] text _ next rfl rfl hread
  exact ((areArranged_of_build hassignments hparts hbuild).isArranged_of_find? hfind).1

end Readers

/-- What is relied on of a reader of documents: every value has the span of its source, no table has
a key twice, and the items of an array under a key stand in the text in their order. -/
structure IsFaithful (reader : List Char → Option Entries) : Prop where
  placed : ∀ {text document}, reader text = some document → ArePlaced text document
  ordered : ∀ {text document key span ofHeaders items}, reader text = some document →
    document.find? key = some ⟨span, .array ofHeaders items⟩ → items.Pairwise Precedes

theorem IsFaithful.distinct {reader : List Char → Option Entries} (h : IsFaithful reader)
    {text : List Char} {document : Entries} (hread : reader text = some document) :
    AreDistinct document :=
  (h.placed hread).areDistinct

/-- The reader of the library can be relied on. -/
theorem isFaithful_read : IsFaithful read :=
  ⟨arePlaced_of_read, fun hread hfind => pairwise_precedes_of_read hread hfind⟩

end Toml
end Tunables
