import Tunables.Proofs.Files.Directory

/-!
# When steps succeed

What a plain tree has to be like for a step not to be refused.  It never matters whether
directories are missing on the way to a directory that is made, or to a file that is removed: what
stands in the way is a file.

* `walk_of_fileless`: a walk that meets no file arrives or misses something.
* `IsPassable.walk_append`: a walk goes on from where it can get to; `walk_of_file`,
  `walk_of_missing`: not from a file, and not from where nothing is.
* `IsOpen`: a path on whose way there is no file; `ensureDirectory_of_isOpen`: its
  directory can be made.
* `writeContent_of_isPassable`: a file can be written.
* `removeFile_of_fileless`: a file can be removed, or is not there.
-/

namespace Tunables
namespace Tree

/-- No name is too long. -/
def AreShort (names : List (List Char)) : Prop :=
  ∀ name ∈ names, Text.byteLength name ≤ maxName

instance (names : List (List Char)) : Decidable (AreShort names) :=
  inferInstanceAs (Decidable (∀ name ∈ names, Text.byteLength name ≤ maxName))

/-- A path that is not refused, and no file on its way. -/
structure IsOpen (tree : Tree) (path : Path) : Prop where
  checked : checkPath path = .ok ()
  short : AreShort path.segments
  start : tree.node? (origin tree.working path) = some .directory
  fileless : ∀ place, Passes tree.working path place →
    ∀ content, tree.node? place ≠ some (.file content)

section Walks

variable {tree : Tree} {place : Place} {front back names : List (List Char)}

theorem AreShort.of_subset (h : AreShort names) (hfront : front ⊆ names) : AreShort front :=
  fun name hname => h name (hfront hname)

theorem areShort_append : AreShort (front ++ back) ↔ AreShort front ∧ AreShort back := by
  simp [AreShort, or_imp, forall_and]

theorem IsPassable.areShort (h : tree.IsPassable place names) : AreShort names := by
  induction names generalizing place with
  | nil =>
      exact fun _ hname => absurd hname List.not_mem_nil
  | cons name names ih =>
      obtain ⟨_, hname, hnames⟩ := h
      intro other hother
      rcases List.mem_cons.mp hother with rfl | hother
      · exact hname
      · exact ih hnames other hother

theorem isPassable_of_directories (hshort : AreShort names)
    (h : ∀ other, OnWay place names other → tree.node? other = some .directory) :
    tree.IsPassable place names := by
  induction names generalizing place with
  | nil =>
      trivial
  | cons name names ih =>
      refine ⟨h place ⟨[], List.nil_prefix, rfl⟩, hshort name (by simp), ?_⟩
      refine ih (hshort.of_subset (List.subset_cons_self _ _)) fun other hway => h other ?_
      obtain ⟨part, hpart, hother⟩ := hway
      exact ⟨name :: part, List.cons_prefix_cons.mpr ⟨rfl, hpart⟩, hother⟩

/-- What is there can be passed through from any place above it. -/
theorem isPassable_of_exists (h : tree.IsPlain) (hordinary : ∀ name ∈ names, IsOrdinary name)
    (hshort : AreShort names) (hnode : tree.node? (place ++ names) ≠ none) :
    tree.IsPassable place names := by
  induction names generalizing place with
  | nil =>
      trivial
  | cons name names ih =>
      have hbelow : tree.node? (place ++ [name] ++ names) ≠ none := by simpa using hnode
      refine ⟨h.enclosed place name (h.exists_of_append hbelow), hshort name (by simp), ?_⟩
      rw [advance_of_isOrdinary (hordinary name (by simp))]
      exact ih (fun other hother => hordinary other (List.mem_cons_of_mem _ hother))
        (hshort.of_subset (List.subset_cons_self _ _)) hbelow

/-- A walk that meets no file arrives, or something is missing. -/
theorem walk_of_fileless (h : tree.IsPlain) (hshort : AreShort names) (links : Nat)
    (hfileless : ∀ other, OnWay place names other →
      ∀ content, tree.node? other ≠ some (.file content)) :
    tree.IsPassable place names ∨ tree.walk links place names = .error .notFound := by
  induction names generalizing place with
  | nil =>
      exact Or.inl trivial
  | cons name names ih =>
      rw [walk_cons h, if_neg (Nat.not_lt.mpr (hshort name (by simp)))]
      rcases hnode : tree.node? place with _ | (_ | content | target)
      · exact Or.inr rfl
      · have hrest : tree.IsPassable (advance place name) names ∨
            tree.walk links (advance place name) names = .error .notFound :=
          ih (hshort.of_subset (List.subset_cons_self _ _)) fun other ⟨part, hpart, hother⟩ =>
            hfileless other ⟨name :: part, List.cons_prefix_cons.mpr ⟨rfl, hpart⟩, hother⟩
        exact hrest.imp_left fun hpassable => ⟨hnode, hshort name (by simp), hpassable⟩
      · exact absurd hnode (hfileless place ⟨[], List.nil_prefix, rfl⟩ content)
      · exact absurd hnode (h.linkless place target)

/-- A walk goes on from where it can get to. -/
theorem IsPassable.walk_append (hfront : tree.IsPassable place front) (h : tree.IsPlain)
    (links : Nat) :
    tree.walk links place (front ++ back) = tree.walk links (follow place front) back := by
  induction front generalizing place with
  | nil =>
      rfl
  | cons name front ih =>
      obtain ⟨hdirectory, hname, hfront⟩ := hfront
      rw [List.cons_append, walk_cons h, hdirectory]
      simp only
      rw [if_neg (Nat.not_lt.mpr hname)]
      exact ih hfront

/-- A walk does not go on from a file. -/
theorem walk_of_file (h : tree.IsPlain) (hfront : tree.IsPassable place front) {content : Content}
    (hfile : tree.node? (follow place front) = some (.file content)) (hback : back ≠ [])
    (links : Nat) :
    tree.walk links place (front ++ back) = .error .notDirectory := by
  obtain ⟨name, rest, rfl⟩ := List.exists_cons_of_ne_nil hback
  rw [hfront.walk_append h, walk_cons h, hfile]

/-- A walk does not go on from where nothing is. -/
theorem walk_of_missing (h : tree.IsPlain) (hfront : tree.IsPassable place front)
    (hnone : tree.node? (follow place front) = none) (hback : back ≠ []) (links : Nat) :
    tree.walk links place (front ++ back) = .error .notFound := by
  obtain ⟨name, rest, rfl⟩ := List.exists_cons_of_ne_nil hback
  rw [hfront.walk_append h, walk_cons h, hnone]

end Walks

section Handles

variable {tree : Tree} {path : Path} {handle : Handle}

theorem makeDirectory_of_handle (hhandle : tree.handle .alreadyExists path = .ok handle)
    (hname : Text.byteLength handle.name ≤ maxName) (hnone : tree.node? handle.place = none) :
    tree.makeDirectory path = .ok (tree.put handle.place .directory) := by
  refine except_bind_eq_ok_iff.mpr ⟨handle, hhandle, ?_⟩
  simp only [if_neg (Nat.not_lt.mpr hname), hnone]
  rfl

theorem filePlace_of_linkless (hlinkless : ∀ target, tree.node? handle.place ≠ some (.link target))
    (hslashed : handle.slashed = false) (hname : Text.byteLength handle.name ≤ maxName)
    (hnode : tree.node? handle.place ≠ some .directory) :
    tree.filePlace handle = .ok handle.place := by
  rw [filePlace, hslashed, if_neg (by simp), if_neg (Nat.not_lt.mpr hname)]
  split
  · next hdirectory => exact absurd hdirectory hnode
  · next target hlink => exact absurd hlink (hlinkless target)
  · rfl

theorem removeFile_of_handle (hhandle : tree.handle .isDirectory path = .ok handle)
    (hslashed : handle.slashed = false) (hname : Text.byteLength handle.name ≤ maxName) :
    tree.removeFile path =
      match tree.node? handle.place with
      | none => .error .notFound
      | some .directory => .error .isDirectory
      | some _ => .ok (tree.erase handle.place) := by
  rw [removeFile, hhandle]
  simp only [bind, Except.bind, if_neg (Nat.not_lt.mpr hname), hslashed]
  rcases tree.node? handle.place with _ | (_ | content | target) <;> rfl

end Handles

section Directories

theorem not_isComponent_concat {names : List (List Char)}
    (h : ∀ name ∈ names, Path.isComponent name = false) :
    ∀ name ∈ names ++ [[]], Path.isComponent name = false := by
  intro name hname
  rcases List.mem_append.mp hname with hname | hname
  · exact h name hname
  · rw [List.mem_singleton.mp hname]
    rfl

/-- What is above a directory is a directory. -/
theorem IsPlain.directory_dropLast {tree : Tree} (h : tree.IsPlain) {place : Place}
    (hdirectory : tree.node? place = some .directory) :
    tree.node? place.dropLast = some .directory := by
  rcases List.eq_nil_or_concat place with rfl | ⟨above, name, rfl⟩
  · exact hdirectory
  · rw [List.concat_eq_append] at hdirectory ⊢
    rw [List.dropLast_concat]
    exact h.enclosed above name (by simp [hdirectory])

variable {tree : Tree} {path : Path} {front : List (List Char)} {last : List Char}

/-- The directory in front of the last name of a path. -/
theorem handle_of_isPassable (h : tree.IsPlain) (hcheck : checkPath path = .ok ())
    (hsegments : path.segments = front ++ [last]) (hlast : IsOrdinary last)
    (hfront : tree.IsPassable (origin tree.working path) (front ++ [[]])) (special : Refusal) :
    tree.handle special path =
      .ok ⟨follow (origin tree.working path) front, last, false, maxLinks⟩ := by
  rw [handle_concat hsegments hlast, hcheck, (walk_eq_ok_iff h).mpr ⟨hfront, rfl⟩, follow_append]
  rfl

theorem placeOf_concat (hsegments : path.segments = front ++ [last]) (hlast : IsOrdinary last) :
    tree.placeOf path = follow (origin tree.working path) front ++ [last] := by
  rw [placeOf, placeFrom, hsegments, follow_append, follow_cons, advance_of_isOrdinary hlast,
    follow_nil]

/-- A path leads to a directory if it can be passed through and there is one at its end. -/
theorem IsOpen.kind?_eq_directory (h : tree.IsPlain) (hopen : tree.IsOpen path)
    (hpassable : tree.IsPassable (origin tree.working path) path.segments)
    (hnode : tree.node? (tree.placeOf path) = some .directory) :
    tree.kind? path = some .directory :=
  (kind?_eq_directory_iff h).mpr ⟨⟨hopen.checked, hpassable⟩, hnode⟩

/-- A path without any name leads to the directory from which it is seen. -/
theorem kind?_of_not_isComponent (h : tree.IsPlain) (hcheck : checkPath path = .ok ())
    (hstart : tree.node? (origin tree.working path) = some .directory)
    (hidle : ∀ segment ∈ path.segments, Path.isComponent segment = false) :
    tree.kind? path = some .directory := by
  refine (kind?_eq_directory_iff h).mpr ⟨⟨hcheck, isPassable_of_not_isComponent hstart hidle⟩, ?_⟩
  rw [placeOf, placeFrom, follow_of_not_isComponent hidle]
  exact hstart

/-- A directory can be made in a directory that is there. -/
theorem createDirectory_of_isOpen (h : tree.IsPlain) (hopen : tree.IsOpen path)
    (hsegments : path.segments = front ++ [last]) (hlast : Path.isComponent last = true)
    (hfront : tree.IsPassable (origin tree.working path) (front ++ [[]])) :
    ∃ after, tree.perform (Files.createDirectory path) = (.ok (), after) := by
  have hdirectory : tree.node? (follow (origin tree.working path) front) = some .directory :=
    hfront.directory (by simp)
  have hpassable : tree.IsPassable (origin tree.working path) path.segments := by
    rw [hsegments, isPassable_append]
    exact ⟨(isPassable_append.mp hfront).1, hdirectory,
      hopen.short last (by simp [hsegments]), trivial⟩
  have hkind : tree.node? (tree.placeOf path) = some .directory →
      ∃ after, tree.perform (Files.createDirectory path) = (.ok (), after) := by
    intro hnode
    rw [perform_createDirectory, hopen.kind?_eq_directory h hpassable hnode]
    cases tree.makeDirectory path with
    | ok after => exact ⟨after, rfl⟩
    | error cause => exact ⟨tree, rfl⟩
  rcases isOrdinary_or last with hordinary | hstay | rfl
  · have hplace := @placeOf_concat tree _ _ _ hsegments hordinary
    rcases hnode : tree.node? (tree.placeOf path) with _ | (_ | content | target)
    · rw [hplace] at hnode
      have hmake :=
        makeDirectory_of_handle (handle_of_isPassable h hopen.checked hsegments hordinary hfront _)
          (hopen.short last (by simp [hsegments])) hnode
      rw [perform_createDirectory, hmake]
      exact ⟨_, rfl⟩
    · exact hkind hnode
    · exact absurd hnode (hopen.fileless _ (passes_placeOf tree path) content)
    · exact absurd hnode (h.linkless _ target)
  · rcases hstay with rfl | rfl <;> cases hlast
  -- Two dots lead to a directory above one that is there.
  · refine hkind ?_
    rw [placeOf, placeFrom, hsegments, follow_append]
    exact h.directory_dropLast hdirectory

theorem IsOpen.extends {after : Tree} {ways : Place → Prop} (hopen : tree.IsOpen path)
    (hextends : Extends tree after (fun _ => False) ways) : after.IsOpen path := by
  refine ⟨hopen.checked, hopen.short, ?_, fun place hpass content hfile => ?_⟩
  · rw [hextends.working]
    exact hextends.directory _ hopen.start
  · rw [hextends.working] at hpass
    exact hopen.fileless place hpass content
      ((hextends.file_iff (fun hfalse => hfalse) content).mp hfile)

theorem IsOpen.of_parent? {parent : Path} (hopen : tree.IsOpen path)
    (hparent : path.parent? = some parent) (htext : parent.text <+: path.text)
    (hne : parent.text ≠ []) (hsubset : parent.segments ⊆ path.segments) :
    tree.IsOpen parent := by
  refine ⟨checkPath_of_front htext hne hopen.checked, hopen.short.of_subset hsubset, ?_,
    fun place hpass => ?_⟩
  · rw [origin_eq_of_isAbsolute_eq (Path.parent?_segments hparent).1]
    exact hopen.start
  · exact hopen.fileless place (hpass.of_parent? hparent)

/-- If the directory of a path is there, all of the path but its last name can be passed through. -/
theorem isPassable_of_parent? (h : tree.IsPlain) {parent : Path} {before dropped : List (List Char)}
    {name : List Char} (hparent : path.parent? = some parent)
    (hsegments : parent.segments = before ++ [name]) (hfront : front = before ++ [name] ++ dropped)
    (hdropped : ∀ segment ∈ dropped, Path.isComponent segment = false)
    (hkind : tree.kind? parent = some .directory) :
    tree.IsPassable (origin tree.working path) (front ++ [[]]) := by
  obtain ⟨⟨_, hpassable⟩, hdirectory⟩ := (kind?_eq_directory_iff h).mp hkind
  rw [placeOf, placeFrom, origin_eq_of_isAbsolute_eq (Path.parent?_segments hparent).1, hsegments]
    at hdirectory
  rw [origin_eq_of_isAbsolute_eq (Path.parent?_segments hparent).1, hsegments] at hpassable
  rw [hfront, List.append_assoc, isPassable_append]
  exact ⟨hpassable, isPassable_of_not_isComponent hdirectory (not_isComponent_concat hdropped)⟩

end Directories

/-- A directory can be made, with all that is missing above it, if its path ends with a name and no
file is on the way. -/
theorem ensureDirectory_of_isOpen {tree : Tree} {path : Path} {front : List (List Char)}
    {last : List Char} (h : tree.IsPlain) (hopen : tree.IsOpen path)
    (hsegments : path.segments = front ++ [last]) (hlast : Path.isComponent last = true) :
    ∃ after, tree.perform (Files.ensureDirectory path) = (.ok (), after) := by
  obtain ⟨parent, hparent, htext, hparts⟩ := Path.parent?_of_idle hsegments hlast (by simp)
  rw [perform_ensureDirectory]
  cases hkind : tree.kind? path with
  | some kind =>
      cases kind with
      | directory => exact ⟨tree, rfl⟩
      | file =>
          obtain ⟨content, hfile⟩ := exists_file_of_kind? h hkind
          exact absurd hfile (hopen.fileless _ (passes_placeOf tree path) content)
  | none =>
      simp only [hparent]
      rcases hparts with ⟨hfront, hidle⟩ |
        ⟨before, name, dropped, hsegments', hname, hfront, hdropped⟩
      -- The directory is the one from which the path is seen.
      · have hpassable : tree.IsPassable (origin tree.working path) (front ++ [[]]) :=
          isPassable_of_not_isComponent hopen.start (not_isComponent_concat hfront)
        have hthere : parent.text ≠ [] → tree.kind? parent = some .directory := fun hne =>
          kind?_of_not_isComponent h (checkPath_of_front htext hne hopen.checked)
            (origin_eq_of_isAbsolute_eq (Path.parent?_segments hparent).1 ▸ hopen.start) hidle
        rw [if_neg (by simpa using hthere)]
        exact createDirectory_of_isOpen h hopen hsegments hlast hpassable
      · have hne : parent.text ≠ [] := by
          intro hnil
          have hsegment : [] = name := by
            simpa [Path.segments, hnil, Text.cut] using congrArg List.getLast? hsegments'
          rw [← hsegment] at hname
          cases hname
        have hsubset : parent.segments ⊆ path.segments := by
          rw [hsegments', hsegments, hfront]
          exact fun segment hsegment => List.mem_append_left _ (List.mem_append_left _ hsegment)
        split
        · have hparent' := hopen.of_parent? hparent htext hne hsubset
          obtain ⟨middle, habove⟩ := ensureDirectory_of_isOpen h hparent' hsegments' hname
          obtain ⟨hextends, hkind'⟩ := ensureDirectory_eq_ok h habove
          obtain ⟨after, hself⟩ :=
            createDirectory_of_isOpen hextends.isPlain (hopen.extends hextends) hsegments hlast
              (isPassable_of_parent? hextends.isPlain hparent hsegments' hfront hdropped hkind')
          exact ⟨after, perform_bind_eq_ok_iff.mpr ⟨(), middle, habove, hself⟩⟩
        · next hthere =>
            refine createDirectory_of_isOpen h hopen hsegments hlast
              (isPassable_of_parent? h hparent hsegments' hfront hdropped ?_)
            simpa [hne] using hthere
termination_by path.text.length
decreasing_by exact Path.parent?_length hparent

section Directories

variable {tree after : Tree} {path : Path}

theorem IsPassable.start {place : Place} {names : List (List Char)}
    (h : tree.IsPassable place names) (hne : names ≠ []) :
    tree.node? place = some .directory := by
  obtain ⟨name, rest, rfl⟩ := List.exists_cons_of_ne_nil hne
  exact h.1

/-- A directory can only be made if the one from which it is seen is there. -/
theorem start_of_createDirectory (h : tree.IsPlain)
    (hrun : tree.perform (Files.createDirectory path) = (.ok (), after)) :
    tree.node? (origin tree.working path) = some .directory := by
  rw [perform_createDirectory] at hrun
  split at hrun
  · next made hmake =>
      obtain ⟨handle, hhandle, _⟩ := except_bind_eq_ok_iff.mp hmake
      obtain ⟨front, trailing, hhandled⟩ := handle_eq_ok h hhandle
      have hdirectory := hhandled.isDirectory
      rw [hhandled.directory_eq] at hdirectory
      have hlast : tree.IsPassable (follow (origin tree.working path) front) [[]] :=
        isPassable_of_not_isComponent hdirectory (by decide)
      exact IsPassable.start (isPassable_append.mpr ⟨hhandled.passable, hlast⟩) (by simp)
  · split at hrun
    · next hkind => exact directory_of_passes h hkind ⟨[], List.nil_prefix, rfl⟩
    · cases hrun
    · cases hrun

end Directories

theorem start_of_ensureDirectory {tree after : Tree} {path : Path} (h : tree.IsPlain)
    (hrun : tree.perform (Files.ensureDirectory path) = (.ok (), after)) :
    tree.node? (origin tree.working path) = some .directory := by
  rw [perform_ensureDirectory] at hrun
  split at hrun
  · next hkind => exact directory_of_passes h hkind ⟨[], List.nil_prefix, rfl⟩
  · cases hrun
  · split at hrun
    · exact start_of_createDirectory h hrun
    · next parent hparent =>
        split at hrun
        · obtain ⟨⟨⟩, middle, habove, _⟩ := perform_bind_eq_ok_iff.mp hrun
          rw [← origin_eq_of_isAbsolute_eq (Path.parent?_segments hparent).1]
          exact start_of_ensureDirectory h habove
        · exact start_of_createDirectory h hrun
termination_by path.text.length
decreasing_by exact Path.parent?_length ‹_›

section Steps

variable {tree after : Tree} {path : Path} {front back : List (List Char)} {last : List Char}

/-- A directory that was made had no file on its way. -/
theorem isOpen_of_ensureDirectory (h : tree.IsPlain)
    (hrun : tree.perform (Files.ensureDirectory path) = (.ok (), after)) : tree.IsOpen path := by
  obtain ⟨hextends, hkind⟩ := ensureDirectory_eq_ok h hrun
  obtain ⟨⟨hcheck, hpassable⟩, _⟩ := (kind?_eq_directory_iff hextends.isPlain).mp hkind
  refine ⟨hcheck, hpassable.areShort, start_of_ensureDirectory h hrun,
    fun place hpass content hfile => ?_⟩
  rw [← hextends.working] at hpass
  have hdirectory := directory_of_passes hextends.isPlain hkind hpass
  rw [(hextends.file_iff (fun hfalse => hfalse) content).mpr hfile] at hdirectory
  cases hdirectory

/-- A file can be written in a directory that is there, unless there is a directory at its place. -/
theorem writeContent_of_isPassable (h : tree.IsPlain) (hcheck : checkPath path = .ok ())
    (hsegments : path.segments = front ++ [last]) (hlast : IsOrdinary last)
    (hshort : AreShort path.segments)
    (hfront : tree.IsPassable (origin tree.working path) (front ++ [[]]))
    (hnode : tree.node? (tree.placeOf path) ≠ some .directory) (content : Content) :
    ∃ after, tree.writeContent path content = .ok after := by
  rw [placeOf_concat hsegments hlast] at hnode
  have hhandle := handle_of_isPassable h hcheck hsegments hlast hfront .isDirectory
  have hfile :
      tree.filePlace ⟨follow (origin tree.working path) front, last, false, maxLinks⟩ = .ok _ :=
    filePlace_of_linkless (h.linkless _) rfl (hshort last (by simp [hsegments])) hnode
  exact ⟨_, except_bind_eq_ok_iff.mpr ⟨_, hhandle, except_bind_eq_ok_iff.mpr ⟨_, hfile, rfl⟩⟩⟩

/-- A file can be removed, or is not there, unless there is a file on its way or a
directory at its place. -/
theorem removeFile_of_fileless (h : tree.IsPlain) (hcheck : checkPath path = .ok ())
    (hsegments : path.segments = front ++ [last]) (hlast : IsOrdinary last)
    (hshort : AreShort path.segments)
    (hfileless : ∀ place, OnWay (origin tree.working path) front place →
      ∀ content, tree.node? place ≠ some (.file content))
    (hnode : tree.node? (tree.placeOf path) ≠ some .directory) :
    (∃ after, tree.removeFile path = .ok after) ∨ tree.removeFile path = .error .notFound := by
  have hfront : AreShort (front ++ [[]]) := by
    intro name hname
    rcases List.mem_append.mp hname with hname | hname
    · exact hshort name (by simp [hsegments, hname])
    · rw [List.mem_singleton.mp hname]
      decide
  have hway : ∀ place, OnWay (origin tree.working path) (front ++ [[]]) place →
      ∀ content, tree.node? place ≠ some (.file content) := by
    intro place hway
    rcases onWay_append_iff.mp hway with hway | hway
    · exact hfileless place hway
    · rw [onWay_of_not_isComponent (by decide) hway]
      exact hfileless _ (onWay_follow _ front)
  rcases walk_of_fileless h hfront maxLinks hway with hpassable | hmissing
  · rw [removeFile_of_handle (handle_of_isPassable h hcheck hsegments hlast hpassable _) rfl
      (hshort last (by simp [hsegments])), Handle.place, ← placeOf_concat hsegments hlast]
    rcases htree : tree.node? (tree.placeOf path) with _ | (_ | content | target)
    · exact Or.inr rfl
    · exact absurd htree hnode
    · exact Or.inl ⟨_, rfl⟩
    · exact absurd htree (h.linkless _ target)
  · rw [removeFile, handle_concat hsegments hlast, hcheck, hmissing]
    exact Or.inr rfl

/-- Nothing can be removed below a file. -/
theorem removeFile_of_file (h : tree.IsPlain) (hcheck : checkPath path = .ok ())
    (hsegments : path.segments = front ++ back ++ [last]) (hlast : IsOrdinary last)
    (hfront : tree.IsPassable (origin tree.working path) front) {content : Content}
    (hfile : tree.node? (follow (origin tree.working path) front) = some (.file content)) :
    tree.removeFile path = .error .notDirectory := by
  have hwalk : tree.walk maxLinks (origin tree.working path) (front ++ (back ++ [[]])) =
      .error .notDirectory :=
    walk_of_file h hfront hfile (by simp) maxLinks
  rw [removeFile, handle_concat hsegments hlast, hcheck, List.append_assoc, hwalk]
  rfl

/-- A path that is there to be removed, or is not there, is not refused. -/
theorem checkPath_of_removeFile (htext : path.text ≠ [])
    (hremove : (∃ after, tree.removeFile path = .ok after) ∨
      tree.removeFile path = .error .notFound) :
    checkPath path = .ok () := by
  cases hcheck : checkPath path with
  | ok _ =>
      rfl
  | error cause =>
      have hrefused : tree.removeFile path = .error cause := by
        rw [removeFile, Tree.handle, hcheck]
        rfl
      rcases hremove with ⟨after, hremove⟩ | hremove
      · rw [hrefused] at hremove
        cases hremove
      · rw [hrefused] at hremove
        obtain rfl : cause = .notFound := Except.error.inj hremove
        exact absurd hcheck (checkPath_ne_notFound htext)

end Steps

end Tree
end Tunables
