import Tunables.Proofs.Files.Success

/-!
# What making a directory comes to

Making a directory goes up to what is there and makes what is missing on the way back.  Seen from
outside it should be one step: all directories on the way of the path are there in the end and
nothing else has changed, or a file is on the way, and then it is named and nothing has changed at
all.  It is this step for every path that ends with a name.  Behind the last name there may be
slashes and dots, and then the way up leaves them out while the last step does not: a file is not
named if only they are behind it, and a directory cannot be made by a name with a dot behind it.

* `IsMadeOf`: an absolute path of names; `Path.ending` is what comes behind the last one.
* `IsMade`: the one step.
* `exists_createDirectory`: all directories above the last name are there before it is made.
* `ensureDirectory_of_fileless`, `ensureDirectory_of_file`: the step for a path that ends well.
* `ensureDirectory_of_dot`, `ensureDirectory_of_file_here`: what happens to the other paths.
* `ensureDirectory_isMade_iff`: when making a directory is that step.
-/

namespace Tunables

/-- Whoever goes from a path to its directory, and on to the directory of that, gets to an end. -/
theorem Path.wellFounded_parent? :
    WellFounded fun parent child : Path => child.parent? = some parent :=
  Subrelation.wf Path.parent?_length (measure fun path : Path => path.text.length).wf

namespace Tree

/-- An absolute path whose components are names.  Slashes may be doubled, and dots may stand between
the names and behind the last one. -/
structure IsMadeOf (path : Path) (names : List (List Char)) : Prop where
  isAbsolute : path.isAbsolute = true
  components : path.segments.filter Path.isComponent = names
  ordinary : ∀ name ∈ names, IsOrdinary name

/-- No file is on the way to a place, nor at the place. -/
def Fileless (tree : Tree) (place : Place) : Prop :=
  ∀ front content, front <+: place → tree.node? front ≠ some (.file content)

/-- Making a directory is one step.  If there is no file on the way, then all of the way is there
afterwards, nothing else has changed, and trying again changes nothing.  A file on the way is named
by a path that leads to it, and nothing happens. -/
structure IsMade (tree : Tree) (path : Path) (names : List (List Char)) : Prop where
  made : tree.Fileless names →
    ∃ after, tree.perform (Files.ensureDirectory path) = (.ok (), after) ∧
      after.working = tree.working ∧
      (∀ place, after.node? place =
        if place <+: names then some .directory else tree.node? place) ∧
      after.perform (Files.ensureDirectory path) = (.ok (), after)
  named : ∀ front content, front <+: names → tree.node? front = some (.file content) →
    ∃ named, IsMadeOf named front ∧ named.ending = [] ∧ named.text <+: path.text ∧
      tree.perform (Files.ensureDirectory path) = (.error (.notADirectory named), tree)

section Names

variable {names : List (List Char)}

theorem IsOrdinary.isComponent {name : List Char} (h : IsOrdinary name) :
    Path.isComponent name = true := by
  simp [Path.isComponent, h.ne_nil, h.ne_dot]

/-- Only the components lead anywhere. -/
theorem follow_filter_isComponent (start : Place) (names : List (List Char)) :
    follow start (names.filter Path.isComponent) = follow start names := by
  induction names generalizing start with
  | nil => rfl
  | cons name names ih =>
      cases hname : Path.isComponent name with
      | true => rw [List.filter_cons_of_pos hname, follow_cons, follow_cons, ih]
      | false =>
          rw [List.filter_cons_of_neg (by simp [hname]), follow_cons,
            advance_of_not_isComponent hname, ih]

/-- The components of the beginnings of a list are the beginnings of its components. -/
theorem exists_prefix_filter_iff {p : List Char → Bool} {front : List (List Char)} :
    (∃ part, part <+: names ∧ part.filter p = front) ↔ front <+: names.filter p := by
  constructor
  · rintro ⟨part, hpart, rfl⟩
    exact hpart.filter p
  · rintro ⟨back, hback⟩
    obtain ⟨part, rest, rfl, hpart, -⟩ := List.filter_eq_append_iff.mp hback.symm
    exact ⟨part, List.prefix_append part rest, hpart⟩

/-- Segments lead through the beginnings of their components, if these are names. -/
theorem onWay_iff_of_components (h : ∀ name ∈ names.filter Path.isComponent, IsOrdinary name)
    {place : Place} : OnWay [] names place ↔ place <+: names.filter Path.isComponent := by
  rw [← exists_prefix_filter_iff, OnWay]
  refine exists_congr fun part => and_congr_right fun hpart => ?_
  have hordinary : ∀ name ∈ part.filter Path.isComponent, IsOrdinary name := fun name hname =>
    h name ((hpart.filter Path.isComponent).subset hname)
  rw [← follow_filter_isComponent, follow_of_isOrdinary hordinary, List.nil_append]

theorem follow_of_components (h : ∀ name ∈ names.filter Path.isComponent, IsOrdinary name) :
    follow [] names = names.filter Path.isComponent := by
  rw [← follow_filter_isComponent, follow_of_isOrdinary h, List.nil_append]

theorem filter_eq_nil_of_idle {segments : List (List Char)}
    (h : ∀ segment ∈ segments, Path.isComponent segment = false) :
    segments.filter Path.isComponent = [] :=
  List.filter_eq_nil_iff.mpr fun segment hmem => by simp [h segment hmem]

/-- A segment that names nothing is empty or a dot. -/
theorem eq_of_not_isComponent {segment : List Char} (h : Path.isComponent segment = false) :
    segment = [] ∨ segment = ['.'] := by
  simpa [Path.isComponent, or_iff_not_imp_left] using h

theorem dropLast_ne_self (h : names ≠ []) : names.dropLast ≠ names := fun heq => by
  have hlength := congrArg List.length heq
  have hpos := List.length_pos_iff.mpr h
  rw [List.length_dropLast] at hlength
  omega

theorem not_prefix_dropLast (h : names ≠ []) : ¬ names <+: names.dropLast := fun hfront =>
  dropLast_ne_self h ((List.dropLast_prefix names).eq_of_length_le hfront.length_le)

/-- A beginning of a place is the place, or a beginning of the one above. -/
theorem prefix_dropLast_of_ne {front : List (List Char)} (h : front <+: names)
    (hne : front ≠ names) :
    front <+: names.dropLast := by
  rcases List.eq_nil_or_concat names with rfl | ⟨above, name, rfl⟩
  · exact absurd (List.prefix_nil.mp h) hne
  · rw [List.concat_eq_append] at h hne ⊢
    rw [List.dropLast_concat]
    exact (List.prefix_concat_iff.mp h).resolve_left hne

end Names

section Paths

variable {path : Path} {names : List (List Char)} {place : Place}

theorem IsMadeOf.origin_eq (h : IsMadeOf path names) (working : Place) :
    origin working path = [] := by
  rw [origin, h.isAbsolute, if_pos rfl]

theorem IsMadeOf.ordinary_components (h : IsMadeOf path names) :
    ∀ name ∈ path.segments.filter Path.isComponent, IsOrdinary name := by
  rw [h.components]
  exact h.ordinary

theorem IsMadeOf.placeFrom_eq (h : IsMadeOf path names) (working : Place) :
    placeFrom working path = names := by
  rw [placeFrom, h.origin_eq, follow_of_components h.ordinary_components, h.components]

/-- A path of names passes through the places that begin its own. -/
theorem IsMadeOf.passes_iff (h : IsMadeOf path names) {working : Place} :
    Passes working path place ↔ place <+: names := by
  rw [Passes, h.origin_eq, onWay_iff_of_components h.ordinary_components, h.components]

/-- The last name of a path, between what leads to it and what comes behind it. -/
theorem IsMadeOf.exists_segments (h : IsMadeOf path names) (hne : names ≠ []) :
    ∃ front last, path.segments = front ++ last :: path.ending ∧ IsOrdinary last ∧
      names = names.dropLast ++ [last] ∧ follow [] front = names.dropLast ∧
      ∀ place, OnWay [] front place ↔ place <+: names.dropLast := by
  obtain ⟨front, last, hsegments, hlast⟩ := Path.exists_segments_eq (h.components ▸ hne)
  have hnames : names = front.filter Path.isComponent ++ [last] := by
    rw [← h.components, hsegments, List.filter_append, List.filter_cons_of_pos hlast,
      filter_eq_nil_of_idle fun _ => Path.not_isComponent_of_mem_ending]
  have hdrop : front.filter Path.isComponent = names.dropLast := by
    rw [hnames, List.dropLast_concat]
  have hordinary : ∀ name ∈ front.filter Path.isComponent, IsOrdinary name := fun name hname =>
    h.ordinary name (hnames ▸ List.mem_append_left [last] hname)
  refine ⟨front, last, hsegments, h.ordinary last (by simp [hnames]), hdrop ▸ hnames, ?_, ?_⟩
  · rw [follow_of_components hordinary, hdrop]
  · intro place
    rw [onWay_iff_of_components hordinary, hdrop]

/-- The directory of a path of names is made of all names but the last one, and it ends with a name
if there is any. -/
theorem IsMadeOf.exists_parent? (h : IsMadeOf path names) (hne : names ≠ []) :
    ∃ parent, path.parent? = some parent ∧ parent.text ≠ [] ∧ parent.text <+: path.text ∧
      IsMadeOf parent names.dropLast ∧ (names.dropLast ≠ [] → parent.ending = []) := by
  obtain ⟨before, last, hsegments, hlast⟩ := Path.exists_segments_eq (h.components ▸ hne)
  have hidle : ∀ segment ∈ path.ending, Path.isComponent segment = false := fun _ =>
    Path.not_isComponent_of_mem_ending
  obtain ⟨parent, hparent, htext, hparts⟩ := Path.parent?_of_idle hsegments hlast hidle
  have habs : parent.isAbsolute = true := (Path.parent?_segments hparent).1.trans h.isAbsolute
  have hdrop : names.dropLast = before.filter Path.isComponent := by
    rw [← h.components, hsegments, List.filter_append, List.filter_cons_of_pos hlast,
      filter_eq_nil_of_idle hidle, List.dropLast_concat]
  have hnonempty : parent.text ≠ [] := by
    intro hnil
    simp [Path.isAbsolute, hnil] at habs
  have hordinary : ∀ name ∈ names.dropLast, IsOrdinary name := fun name hname =>
    h.ordinary name (List.dropLast_subset names hname)
  rcases hparts with ⟨hfront, hsegments'⟩ | ⟨between, name, dropped, hsegments', hname, rfl, hidle'⟩
  · rw [filter_eq_nil_of_idle hfront] at hdrop
    refine ⟨parent, hparent, hnonempty, htext, ⟨habs, ?_, hordinary⟩, absurd hdrop⟩
    rw [hdrop, filter_eq_nil_of_idle hsegments']
  · refine ⟨parent, hparent, hnonempty, htext, ⟨habs, ?_, hordinary⟩, fun _ =>
      Path.ending_of_concat hsegments' hname⟩
    rw [hdrop, hsegments', List.filter_append (between ++ [name]) dropped,
      filter_eq_nil_of_idle hidle', List.append_nil]

end Paths

section Lookups

variable {tree : Tree} {path : Path} {names front : List (List Char)} {content : Content}

theorem AreShort.of_parent? {path parent : Path} (h : AreShort path.segments)
    (hparent : path.parent? = some parent) : AreShort parent.segments := by
  obtain ⟨_, kept, hkept, hsegments | ⟨_, hempty⟩⟩ := Path.parent?_segments hparent
  · rw [hsegments]
    exact h.of_subset hkept.subset
  · intro segment hmem
    rw [hempty segment hmem]
    exact Nat.zero_le _

/-- Above what is there are directories. -/
theorem IsPlain.directory_above (h : tree.IsPlain) (hnode : tree.node? names ≠ none)
    (hfront : front <+: names) (hne : front ≠ names) : tree.node? front = some .directory := by
  obtain ⟨_ | ⟨name, back⟩, rfl⟩ := hfront
  · exact absurd (List.append_nil front).symm hne
  · have hbelow : tree.node? (front ++ [name] ++ back) ≠ none := by
      rwa [List.append_assoc, List.singleton_append]
    exact h.enclosed front name (h.exists_of_append hbelow)

theorem IsPlain.directory_of_prefix (h : tree.IsPlain) (hnode : tree.node? names = some .directory)
    (hfront : front <+: names) : tree.node? front = some .directory := by
  by_cases hne : front = names
  · rw [hne]
    exact hnode
  · exact h.directory_above (by rw [hnode]; exact Option.some_ne_none _) hfront hne

/-- A path of names leads to the directory at its place, whatever is behind the last name. -/
theorem IsMadeOf.kind?_of_directory (hpath : IsMadeOf path names) (h : tree.IsPlain)
    (hcheck : checkPath path = .ok ()) (hshort : AreShort path.segments)
    (hnode : tree.node? names = some .directory) : tree.kind? path = some .directory := by
  refine (kind?_eq_directory_iff h).mpr ⟨⟨hcheck, ?_⟩, ?_⟩
  · exact isPassable_of_directories hshort fun place hway =>
      h.directory_of_prefix hnode (hpath.passes_iff.mp hway)
  · rw [placeOf, hpath.placeFrom_eq]
    exact hnode

theorem IsMadeOf.kind?_of_missing (hpath : IsMadeOf path names) (h : tree.IsPlain)
    (hnode : tree.node? names = none) : tree.kind? path = none := by
  by_contra hkind
  obtain ⟨_, hthere⟩ := (isSome_kind?_iff h).mp (Option.isSome_iff_ne_none.mpr hkind)
  rw [placeOf, hpath.placeFrom_eq] at hthere
  exact hthere hnode

/-- A path that goes on behind a file leads nowhere. -/
theorem IsMadeOf.kind?_of_file_above (hpath : IsMadeOf path names) (h : tree.IsPlain)
    (hfile : tree.node? front = some (.file content)) (hfront : front <+: names)
    (hbelow : front ≠ names ∨ path.ending ≠ []) : tree.kind? path = none := by
  by_contra hkind
  obtain ⟨⟨_, hpassable⟩, _⟩ := (isSome_kind?_iff h).mp (Option.isSome_iff_ne_none.mpr hkind)
  obtain ⟨part, back, hsegments, hback, hplace⟩ : ∃ part back, path.segments = part ++ back ∧
      back ≠ [] ∧ follow (origin tree.working path) part = front := by
    by_cases hhere : front = names
    · have hne : names ≠ [] := by
        rintro rfl
        rw [hhere] at hfile
        cases hfile
      obtain ⟨before, last, hsegments, hlast, hnames, hfollow, _⟩ := hpath.exists_segments hne
      refine ⟨before ++ [last], path.ending, ?_, hbelow.resolve_left fun hne => hne hhere, ?_⟩
      · rw [List.append_assoc, List.singleton_append]
        exact hsegments
      · rw [hpath.origin_eq, follow_append, hfollow, follow_cons, advance_of_isOrdinary hlast,
          follow_nil, ← hnames, hhere]
    · obtain ⟨part, ⟨back, hsegments⟩, hplace⟩ : Passes tree.working path front :=
        hpath.passes_iff.mpr hfront
      refine ⟨part, back, hsegments.symm, ?_, hplace⟩
      rintro rfl
      rw [List.append_nil] at hsegments
      exact hhere (hplace.symm.trans (hsegments ▸ hpath.placeFrom_eq tree.working))
  rw [hsegments] at hpassable
  have hdirectory := hpassable.directory hback
  rw [hplace, hfile] at hdirectory
  cases hdirectory

/-- Where the directory above it is there, a path of names can be followed up to its last name. -/
theorem IsMadeOf.exists_front (hpath : IsMadeOf path names) (h : tree.IsPlain)
    (hshort : AreShort path.segments) (hne : names ≠ [])
    (habove : tree.node? names.dropLast = some .directory) :
    ∃ front last, path.segments = front ++ last :: path.ending ∧ IsOrdinary last ∧
      Text.byteLength last ≤ maxName ∧ names = names.dropLast ++ [last] ∧
      follow [] front = names.dropLast ∧ tree.IsPassable [] front := by
  obtain ⟨front, last, hsegments, hlast, hnames, hfollow, hway⟩ := hpath.exists_segments hne
  rw [hsegments, areShort_append] at hshort
  refine ⟨front, last, hsegments, hlast, hshort.2 last (by simp), hnames, hfollow, ?_⟩
  exact isPassable_of_directories hshort.1 fun place hplace =>
    h.directory_of_prefix habove ((hway place).mp hplace)

/-- A path that ends with a name leads to the file at its place. -/
theorem IsMadeOf.kind?_of_file (hpath : IsMadeOf path names) (h : tree.IsPlain)
    (hcheck : checkPath path = .ok ()) (hshort : AreShort path.segments)
    (hending : path.ending = []) (hfile : tree.node? names = some (.file content)) :
    tree.kind? path = some .file := by
  have hne : names ≠ [] := by
    rintro rfl
    cases hfile
  have habove : tree.node? names.dropLast = some .directory :=
    h.directory_above (by rw [hfile]; exact Option.some_ne_none _) (List.dropLast_prefix names)
      (dropLast_ne_self hne)
  obtain ⟨front, last, hsegments, _, hname, _, hfollow, hfront⟩ :=
    hpath.exists_front h hshort hne habove
  have hpassable : tree.IsPassable [] path.segments := by
    rw [hsegments, hending, isPassable_append, hfollow]
    exact ⟨hfront, habove, hname, trivial⟩
  have hfind : tree.find path = .ok (.file content) := by
    refine (find_eq_ok_iff h).mpr ⟨⟨hcheck, ?_⟩, ?_⟩
    · rwa [hpath.origin_eq]
    · rwa [placeOf, hpath.placeFrom_eq]
  rw [kind?, hfind]

end Lookups

section Steps

variable {tree : Tree} {path : Path} {names : List (List Char)}

/-- Slashes behind the last name do not make it another one. -/
theorem splitLast_of_empty {front trailing : List (List Char)} {last : List Char}
    (hlast : last ≠ []) (hempty : ∀ segment ∈ trailing, segment = []) :
    ∃ slashed, splitLast (front ++ last :: trailing) = (front, last, slashed) := by
  have hskip : ∀ segment ∈ trailing.reverse, segment.isEmpty = true := by
    intro segment hmem
    rw [hempty segment (List.mem_reverse.mp hmem)]
    rfl
  have hnames : ((front ++ last :: trailing).reverse.dropWhile List.isEmpty).reverse =
      front ++ [last] := by
    simp [List.dropWhile_append_of_pos hskip, hlast]
  refine ⟨(front ++ [last]).length < (front ++ last :: trailing).length, ?_⟩
  simp only [splitLast, hnames]
  simp

/-- Behind the last dot of an ending there are only slashes. -/
theorem exists_ending_eq (h : ['.'] ∈ path.ending) : ∃ middle trailing,
    path.ending = middle ++ ['.'] :: trailing ∧ ∀ segment ∈ trailing, segment = [] := by
  obtain ⟨back, middle, hending, hback⟩ := List.eq_append_cons_of_mem (List.mem_reverse.mpr h)
  have hsplit : path.ending = middle.reverse ++ ['.'] :: back.reverse := by
    rw [← List.reverse_reverse path.ending, hending]
    simp
  refine ⟨middle.reverse, back.reverse, hsplit, fun segment hmem => ?_⟩
  have hidle : Path.isComponent segment = false :=
    Path.not_isComponent_of_mem_ending (hsplit ▸ List.mem_append_right _ (.tail _ hmem))
  refine (eq_of_not_isComponent hidle).resolve_right ?_
  rintro rfl
  exact hback (List.mem_reverse.mp hmem)

/-- Without a dot behind its last name a directory is made if there is nothing at its place. -/
theorem IsMadeOf.makeDirectory_of_undotted (hpath : IsMadeOf path names) (h : tree.IsPlain)
    (hcheck : checkPath path = .ok ()) (hshort : AreShort path.segments) (hne : names ≠ [])
    (hdot : ['.'] ∉ path.ending) (habove : tree.node? names.dropLast = some .directory) :
    tree.makeDirectory path =
      match tree.node? names with
      | some _ => .error .alreadyExists
      | none => .ok (tree.put names .directory) := by
  obtain ⟨front, last, hsegments, hlast, hname, hnames, hfollow, hfront⟩ :=
    hpath.exists_front h hshort hne habove
  have hempty : ∀ segment ∈ path.ending, segment = [] := fun segment hmem =>
    (eq_of_not_isComponent (Path.not_isComponent_of_mem_ending hmem)).resolve_right
      fun heq => hdot (heq ▸ hmem)
  obtain ⟨slashed, hsplit⟩ := splitLast_of_empty hlast.ne_nil hempty
  have hpassable : tree.IsPassable [] (front ++ [[]]) := by
    rw [isPassable_append, hfollow]
    exact ⟨hfront, isPassable_of_not_isComponent habove (by decide)⟩
  have hwalk : tree.walk maxLinks [] (front ++ [[]]) =
      .ok ⟨follow [] (front ++ [[]]), maxLinks⟩ := (walk_eq_ok_iff h).mpr ⟨hpassable, rfl⟩
  have hhandle : tree.handle .alreadyExists path =
      .ok ⟨names.dropLast, last, slashed, maxLinks⟩ := by
    rw [Tree.handle, hcheck, hpath.origin_eq, handleFrom, hsegments, hsplit]
    simp only [hwalk, hlast.ne_nil, hlast.ne_dot, hlast.ne_dots, or_self, if_false]
    rw [follow_append, hfollow]
    rfl
  rw [makeDirectory, hhandle]
  simp only [bind, Except.bind, Handle.place, ← hnames, if_neg (Nat.not_lt.mpr hname)]
  rfl

/-- With a dot behind its last name a directory has to be there for the path to lead anywhere. -/
theorem IsMadeOf.makeDirectory_of_dotted (hpath : IsMadeOf path names) (h : tree.IsPlain)
    (hcheck : checkPath path = .ok ()) (hshort : AreShort path.segments) (hne : names ≠ [])
    (hdot : ['.'] ∈ path.ending) (habove : tree.node? names.dropLast = some .directory) :
    (tree.node? names = none → tree.makeDirectory path = .error .notFound) ∧
      ∀ content, tree.node? names = some (.file content) →
        tree.makeDirectory path = .error .notDirectory := by
  obtain ⟨front, last, hsegments, hlast, hname, hnames, hfollow, hfront⟩ :=
    hpath.exists_front h hshort hne habove
  obtain ⟨middle, trailing, hending, hempty⟩ := exists_ending_eq hdot
  obtain ⟨slashed, hsplit⟩ := @splitLast_of_empty (front ++ last :: middle) trailing ['.']
    (List.cons_ne_nil '.' []) hempty
  have hsegments' : path.segments = (front ++ last :: middle) ++ ['.'] :: trailing := by
    rw [hsegments, hending, List.append_assoc, List.cons_append]
  -- the dot is looked up in what is at the last name
  have hback : middle ++ [[]] ≠ [] := List.append_ne_nil_of_right_ne_nil _ (List.cons_ne_nil _ _)
  have hsame : front ++ last :: middle ++ [[]] = (front ++ [last]) ++ (middle ++ [[]]) := by simp
  have hrefused : ∀ cause,
      tree.walk maxLinks [] ((front ++ [last]) ++ (middle ++ [[]])) = .error cause →
        tree.makeDirectory path = .error cause := by
    intro cause hwalk
    rw [makeDirectory, Tree.handle, hcheck, hpath.origin_eq, handleFrom, hsegments', hsplit]
    simp only [hsame, hwalk]
    rfl
  have hplace : follow [] (front ++ [last]) = names := by
    rw [follow_append, hfollow, follow_cons, advance_of_isOrdinary hlast, follow_nil, ← hnames]
  have hpassable : tree.IsPassable [] (front ++ [last]) := by
    rw [isPassable_append, hfollow]
    exact ⟨hfront, habove, hname, trivial⟩
  constructor
  · intro hnone
    exact hrefused _ (walk_of_missing h hpassable (hplace ▸ hnone) hback maxLinks)
  · intro content hfile
    exact hrefused _ (walk_of_file h hpassable (hplace ▸ hfile) hback maxLinks)

end Steps

section Ways

variable {tree : Tree} {path : Path} {names : List (List Char)}

/-- If the directory above is there, then only the last one is left to be made. -/
theorem ensureDirectory_of_directory_above (hpath : IsMadeOf path names) (h : tree.IsPlain)
    (hcheck : checkPath path = .ok ()) (hshort : AreShort path.segments) (hne : names ≠ [])
    (hkind : tree.kind? path = none) (habove : tree.node? names.dropLast = some .directory) :
    tree.perform (Files.ensureDirectory path) = tree.perform (Files.createDirectory path) := by
  obtain ⟨parent, hparent, hnonempty, htext, hmade, _⟩ := hpath.exists_parent? hne
  have hthere := hmade.kind?_of_directory h (checkPath_of_front htext hnonempty hcheck)
    (hshort.of_parent? hparent) habove
  rw [perform_ensureDirectory, hkind, hparent]
  simp [hthere]

end Ways

/-- All directories above the last name of a path are made, and then it is left to make the last
one. -/
theorem exists_createDirectory {tree : Tree} {path : Path} {names : List (List Char)}
    (hpath : IsMadeOf path names) (h : tree.IsPlain) (hcheck : checkPath path = .ok ())
    (hshort : AreShort path.segments) (hne : names ≠ []) (hkind : tree.kind? path = none)
    (hfileless : tree.Fileless names.dropLast) :
    ∃ middle : Tree, tree.perform (Files.ensureDirectory path) =
        middle.perform (Files.createDirectory path) ∧
      middle.IsPlain ∧ middle.working = tree.working ∧
      ∀ place, middle.node? place =
        if place <+: names.dropLast then some .directory else tree.node? place := by
  obtain ⟨parent, hparent, hnonempty, htext, hmade, hending⟩ := hpath.exists_parent? hne
  rcases habove : tree.node? names.dropLast with _ | (_ | content | target)
  · have hmissing := hmade.kind?_of_missing h habove
    have hcheck' := checkPath_of_front htext hnonempty hcheck
    have hshort' := hshort.of_parent? hparent
    have hne' : names.dropLast ≠ [] := by
      intro hnil
      rw [hnil] at habove
      cases habove
    obtain ⟨middle, hrun, hplain, hworking, hnodes⟩ := exists_createDirectory hmade h hcheck'
      hshort' hne' hmissing fun front content hfront =>
        hfileless front content (hfront.trans (List.dropLast_prefix _))
    have hdot : ['.'] ∉ parent.ending := by
      rw [hending hne']
      exact List.not_mem_nil
    have hnone : middle.node? names.dropLast = none := by
      rw [hnodes, if_neg (not_prefix_dropLast hne'), habove]
    have hmake := hmade.makeDirectory_of_undotted hplain hcheck' hshort' hne' hdot
      (by rw [hnodes, if_pos List.prefix_rfl])
    rw [hnone] at hmake
    have hcreate : middle.perform (Files.createDirectory parent) =
        (.ok (), middle.put names.dropLast .directory) := by
      rw [perform_createDirectory, hmake]
    refine ⟨middle.put names.dropLast .directory, ?_, (makeDirectory_eq_ok hplain hmake).1.isPlain,
      hworking, fun place => ?_⟩
    · rw [perform_ensureDirectory, hkind, hparent]
      simp only
      rw [if_pos (by simp [hnonempty, hmissing]), perform_bind, hrun, hcreate]
    · by_cases hplace : place = names.dropLast
      · rw [hplace, node?_put_self middle _ hne', if_pos List.prefix_rfl]
      · rw [node?_put_of_ne middle _ hplace, hnodes]
        exact if_congr ⟨fun hfront => hfront.trans (List.dropLast_prefix _),
          fun hfront => prefix_dropLast_of_ne hfront hplace⟩ rfl rfl
  · refine ⟨tree, ensureDirectory_of_directory_above hpath h hcheck hshort hne hkind habove, h, rfl,
      fun place => ?_⟩
    split
    · next hfront => exact h.directory_of_prefix habove hfront
    · rfl
  · exact absurd habove (hfileless _ content List.prefix_rfl)
  · exact absurd habove (h.linkless _ target)
termination_by path.text.length
decreasing_by exact Path.parent?_length hparent

section Outcomes

variable {tree : Tree} {path : Path} {names front : List (List Char)} {content : Content}

/-- Directories appear at all places that begin the one of the path, and nowhere else. -/
theorem ensureDirectory_of_fileless (hpath : IsMadeOf path names) (h : tree.IsPlain)
    (hcheck : checkPath path = .ok ()) (hshort : AreShort path.segments)
    (hfileless : tree.Fileless names) (hending : tree.node? names ≠ none ∨ ['.'] ∉ path.ending) :
    ∃ after, tree.perform (Files.ensureDirectory path) = (.ok (), after) ∧
      after.working = tree.working ∧
      (∀ place, after.node? place =
        if place <+: names then some .directory else tree.node? place) ∧
      after.perform (Files.ensureDirectory path) = (.ok (), after) := by
  obtain ⟨after, hrun⟩ : ∃ after,
      tree.perform (Files.ensureDirectory path) = (.ok (), after) := by
    rcases hnode : tree.node? names with _ | (_ | content | target)
    · have hne : names ≠ [] := by
        rintro rfl
        cases hnode
      obtain ⟨middle, hrun, hplain, _, hnodes⟩ := exists_createDirectory hpath h hcheck hshort hne
        (hpath.kind?_of_missing h hnode) fun front content hfront =>
          hfileless front content (hfront.trans (List.dropLast_prefix names))
      have hmake := hpath.makeDirectory_of_undotted hplain hcheck hshort hne
        (hending.resolve_left (absurd hnode)) (by rw [hnodes, if_pos List.prefix_rfl])
      rw [hnodes, if_neg (not_prefix_dropLast hne), hnode] at hmake
      rw [hrun, perform_createDirectory, hmake]
      exact ⟨_, rfl⟩
    · refine ⟨tree, ?_⟩
      rw [perform_ensureDirectory, hpath.kind?_of_directory h hcheck hshort hnode]
    · exact absurd hnode (hfileless names content List.prefix_rfl)
    · exact absurd hnode (h.linkless names target)
  obtain ⟨hextends, hkind⟩ := ensureDirectory_eq_ok h hrun
  refine ⟨after, hrun, hextends.working, fun place => ?_, ?_⟩
  · split
    · next hfront =>
        exact directory_of_passes hextends.isPlain hkind (hpath.passes_iff.mpr hfront)
    · next hfront =>
        rcases hextends.each place with hsame | ⟨hfalse, _⟩ | ⟨hpass, _⟩
        · exact hsame
        · exact hfalse.elim
        · exact absurd (hpath.passes_iff.mp hpass) hfront
  · rw [perform_ensureDirectory, hkind]

/-- If nothing is where a path leads to and there is a dot behind its last name, then the
directories above are made and the last one is not. -/
theorem ensureDirectory_of_dot (hpath : IsMadeOf path names) (h : tree.IsPlain)
    (hcheck : checkPath path = .ok ()) (hshort : AreShort path.segments)
    (hfileless : tree.Fileless names) (hnone : tree.node? names = none)
    (hdot : ['.'] ∈ path.ending) :
    ∃ after, tree.perform (Files.ensureDirectory path) =
        (.error (.refused path .notFound), after) ∧
      after.working = tree.working ∧
      ∀ place, after.node? place =
        if place <+: names.dropLast then some .directory else tree.node? place := by
  have hne : names ≠ [] := by
    rintro rfl
    cases hnone
  obtain ⟨middle, hrun, hplain, hworking, hnodes⟩ := exists_createDirectory hpath h hcheck hshort
    hne (hpath.kind?_of_missing h hnone) fun front content hfront =>
      hfileless front content (hfront.trans (List.dropLast_prefix names))
  have hmissing : middle.node? names = none := by
    rw [hnodes, if_neg (not_prefix_dropLast hne), hnone]
  have hmake := (hpath.makeDirectory_of_dotted hplain hcheck hshort hne hdot
    (by rw [hnodes, if_pos List.prefix_rfl])).1 hmissing
  refine ⟨middle, ?_, hworking, hnodes⟩
  rw [hrun, perform_createDirectory, hmake, hpath.kind?_of_missing hplain hmissing]

/-- If a file is where a path leads to and there is something behind its last name, then the last
step is refused, and nothing is done. -/
theorem ensureDirectory_of_file_here (hpath : IsMadeOf path names) (h : tree.IsPlain)
    (hcheck : checkPath path = .ok ()) (hshort : AreShort path.segments)
    (hfile : tree.node? names = some (.file content)) (hending : path.ending ≠ []) :
    tree.perform (Files.ensureDirectory path) =
      (.error (.refused path (if ['.'] ∈ path.ending then .notDirectory else .alreadyExists)),
        tree) := by
  have hne : names ≠ [] := by
    rintro rfl
    cases hfile
  have habove : tree.node? names.dropLast = some .directory :=
    h.directory_above (by rw [hfile]; exact Option.some_ne_none _) (List.dropLast_prefix names)
      (dropLast_ne_self hne)
  have hkind := hpath.kind?_of_file_above h hfile List.prefix_rfl (Or.inr hending)
  have hmake : tree.makeDirectory path =
      .error (if ['.'] ∈ path.ending then .notDirectory else .alreadyExists) := by
    split
    · next hdot =>
        exact (hpath.makeDirectory_of_dotted h hcheck hshort hne hdot habove).2 content hfile
    · next hdot =>
        rw [hpath.makeDirectory_of_undotted h hcheck hshort hne hdot habove, hfile]
  rw [ensureDirectory_of_directory_above hpath h hcheck hshort hne hkind habove,
    perform_createDirectory, hmake, hkind]

end Outcomes

/-- A file on the way is named, wherever it is, and nothing is done. -/
theorem ensureDirectory_of_file {tree : Tree} {path : Path} {names front : List (List Char)}
    {content : Content} (hpath : IsMadeOf path names) (h : tree.IsPlain)
    (hcheck : checkPath path = .ok ()) (hshort : AreShort path.segments)
    (hfile : tree.node? front = some (.file content)) (hfront : front <+: names)
    (hending : front ≠ names ∨ path.ending = []) :
    ∃ named, IsMadeOf named front ∧ named.ending = [] ∧ named.text <+: path.text ∧
      tree.perform (Files.ensureDirectory path) = (.error (.notADirectory named), tree) := by
  by_cases hhere : front = names
  · subst hhere
    have hlast := hending.resolve_left (absurd rfl)
    refine ⟨path, hpath, hlast, List.prefix_rfl, ?_⟩
    rw [perform_ensureDirectory, hpath.kind?_of_file h hcheck hshort hlast hfile]
  · have hne : names ≠ [] := by
      rintro rfl
      exact hhere (List.prefix_nil.mp hfront)
    have hfront' : front <+: names.dropLast := prefix_dropLast_of_ne hfront hhere
    obtain ⟨parent, hparent, hnonempty, htext, hmade, hparentEnding⟩ := hpath.exists_parent? hne
    have hne' : names.dropLast ≠ [] := by
      intro hnil
      rw [hnil, List.prefix_nil] at hfront'
      rw [hfront'] at hfile
      cases hfile
    -- The directory above is none, since the way to it leads through the file as well.
    have hkind : tree.kind? parent ≠ some .directory := fun hkind => by
      have hdirectory := directory_of_passes h hkind (hmade.passes_iff.mpr hfront')
      rw [hfile] at hdirectory
      cases hdirectory
    obtain ⟨named, hnamed, hclosed, hbegins, habove⟩ := ensureDirectory_of_file hmade h
      (checkPath_of_front htext hnonempty hcheck) (hshort.of_parent? hparent) hfile hfront'
      (Or.inr (hparentEnding hne'))
    refine ⟨named, hnamed, hclosed, hbegins.trans htext, ?_⟩
    rw [perform_ensureDirectory, hpath.kind?_of_file_above h hfile hfront (Or.inl hhere), hparent]
    simp only
    rw [if_pos (by simp [hnonempty, hkind]), perform_bind, habove]
termination_by path.text.length
decreasing_by exact Path.parent?_length hparent

/-- **Making a directory.**  The path is one that the file system takes: it has no null character,
and neither the path nor a name in it is too long.  Making its directory is one step unless a file
with something behind its name is meant, or a directory that is missing and has a dot behind its
name.  In the first case the last step is refused and nothing is done; in the second one it is
refused as well, and the directories above have been made.  The directories that are looked at on
the way up come to an end for every path. -/
theorem ensureDirectory_isMade_iff {tree : Tree} {path : Path} {names : List (List Char)}
    (h : tree.IsPlain) (hpath : IsMadeOf path names) (hcheck : checkPath path = .ok ())
    (hshort : AreShort path.segments) :
    (IsMade tree path names ↔
      ¬ (path.ending ≠ [] ∧ ∃ content, tree.node? names = some (.file content)) ∧
      ¬ (['.'] ∈ path.ending ∧ tree.node? names = none ∧ tree.Fileless names)) ∧
    (∀ content, tree.node? names = some (.file content) → path.ending ≠ [] →
      tree.perform (Files.ensureDirectory path) =
        (.error (.refused path (if ['.'] ∈ path.ending then .notDirectory else .alreadyExists)),
          tree)) ∧
    (['.'] ∈ path.ending → tree.node? names = none → tree.Fileless names →
      ∃ after, tree.perform (Files.ensureDirectory path) =
          (.error (.refused path .notFound), after) ∧
        after.working = tree.working ∧
        ∀ place, after.node? place =
          if place <+: names.dropLast then some .directory else tree.node? place) ∧
    WellFounded fun parent child : Path => child.parent? = some parent := by
  have hhere := @ensureDirectory_of_file_here tree path names
  refine ⟨⟨fun hmade => ⟨?_, ?_⟩, fun ⟨hslash, hdot⟩ => ⟨?_, ?_⟩⟩, ?_, ?_,
    Path.wellFounded_parent?⟩
  · rintro ⟨hending, content, hfile⟩
    obtain ⟨named, _, _, _, hrun⟩ := hmade.named names content List.prefix_rfl hfile
    rw [hhere hpath h hcheck hshort hfile hending] at hrun
    cases hrun
  · rintro ⟨hdot, hnone, hfileless⟩
    obtain ⟨_, hrun, _⟩ := hmade.made hfileless
    obtain ⟨_, hrefused, _⟩ := ensureDirectory_of_dot hpath h hcheck hshort hfileless hnone hdot
    rw [hrefused] at hrun
    cases hrun
  · intro hfileless
    refine ensureDirectory_of_fileless hpath h hcheck hshort hfileless ?_
    exact or_iff_not_imp_left.mpr fun hnone hmem =>
      hdot ⟨hmem, not_not.mp hnone, hfileless⟩
  · intro front content hfront hfile
    refine ensureDirectory_of_file hpath h hcheck hshort hfile hfront ?_
    refine or_iff_not_imp_left.mpr fun heq => ?_
    by_contra hending
    exact hslash ⟨hending, content, not_not.mp heq ▸ hfile⟩
  · exact fun content hfile hending => hhere hpath h hcheck hshort hfile hending
  · exact fun hdot hnone hfileless =>
      ensureDirectory_of_dot hpath h hcheck hshort hfileless hnone hdot

/-- Below `/r` two directories are made and the file `/r/f` is named, but not with a slash behind
it, and no directory is made with a dot behind its name. -/
theorem ensureDirectory_isMade_iff_slashed :
    ∃ tree : Tree, tree.IsPlain ∧ tree.node? [['r'], ['f']] = some (.file (.text [])) ∧
      IsMade tree ⟨"/r/a/b".toList⟩ [['r'], ['a'], ['b']] ∧
      IsMade tree ⟨"/r/f/b".toList⟩ [['r'], ['f'], ['b']] ∧
      ¬ IsMade tree ⟨"/r/f/".toList⟩ [['r'], ['f']] ∧
      tree.perform (Files.ensureDirectory ⟨"/r/f/".toList⟩) =
        (.error (.refused ⟨"/r/f/".toList⟩ .alreadyExists), tree) ∧
      ¬ IsMade tree ⟨"/r/a/.".toList⟩ [['r'], ['a']] ∧
      ∃ after, tree.perform (Files.ensureDirectory ⟨"/r/a/.".toList⟩) =
        (.error (.refused ⟨"/r/a/.".toList⟩ .notFound), after) := by
  have hdirectory := @IsPlain.put _ [] ['r'] .directory (isPlain_of_empty []) rfl (by simp)
    fun _ => rfl
  have hplain : IsPlain ⟨[([['r'], ['f']], .file (.text [])), ([['r']], .directory)], []⟩ :=
    @IsPlain.put _ [['r']] ['f'] (.file (.text [])) hdirectory (by decide) (by simp) (by decide)
  have hmade : ∀ (path : Path) (names : List (List Char)), path.isAbsolute = true →
      path.segments.filter Path.isComponent = names →
      (∀ name ∈ names, name ≠ [] ∧ name ≠ ['.'] ∧ name ≠ ['.', '.']) → IsMadeOf path names :=
    fun path names habs hnames hordinary => ⟨habs, hnames, fun name hname =>
      ⟨(hordinary name hname).1, (hordinary name hname).2.1, (hordinary name hname).2.2⟩⟩
  have hfileless : Fileless ⟨[([['r'], ['f']], .file (.text [])), ([['r']], .directory)], []⟩
      [['r'], ['a']] := by
    intro front content hfront hfile
    simp only [List.prefix_cons_iff, List.prefix_nil] at hfront
    rcases hfront with rfl | ⟨_, rfl, rfl | ⟨_, rfl, rfl⟩⟩ <;> cases hfile
  have hnew := ensureDirectory_isMade_iff hplain
    (hmade ⟨"/r/a/b".toList⟩ _ rfl rfl (by decide)) (by decide) (by decide)
  have hbelow := ensureDirectory_isMade_iff hplain
    (hmade ⟨"/r/f/b".toList⟩ _ rfl rfl (by decide)) (by decide) (by decide)
  have hslash := ensureDirectory_isMade_iff hplain
    (hmade ⟨"/r/f/".toList⟩ _ rfl rfl (by decide)) (by decide) (by decide)
  have hdot := ensureDirectory_isMade_iff hplain
    (hmade ⟨"/r/a/.".toList⟩ _ rfl rfl (by decide)) (by decide) (by decide)
  obtain ⟨after, hrun, _⟩ := hdot.2.2.1 (by decide) rfl hfileless
  refine ⟨_, hplain, by decide, hnew.1.mpr ⟨?_, ?_⟩, hbelow.1.mpr ⟨?_, ?_⟩, ?_, ?_, ?_,
    after, hrun⟩
  · exact fun hending => hending.1 rfl
  · exact fun hending => absurd hending.1 (by decide)
  · exact fun hending => hending.1 rfl
  · exact fun hending => absurd hending.1 (by decide)
  · exact fun hstep => (hslash.1.mp hstep).1 ⟨by decide, _, rfl⟩
  · exact hslash.2.1 _ rfl (by decide)
  · exact fun hstep => (hdot.1.mp hstep).2 ⟨by decide, rfl, hfileless⟩

end Tree
end Tunables
