import Tunables.Proofs.Generation.Cleanup

/-!
# Removing what is not there

A path is absent for one of two reasons.  Something is missing on its way, and then there is nothing
to remove.  Or a file stands where a directory should be, and then the removal is refused, although
there is no file to be removed either.

* `removeAll_of_absent`: a removal of absent paths stops at the first one that is refused,
  and changes nothing.
* `removeObsolete_of_absent`: the obsolete files of a target.
-/

namespace Tunables
namespace Tree

section Lookups

variable {tree : Tree} {path : Path} {front : List (List Char)} {name : List Char}

/-- The removal of something absent is refused as its lookup is, unless nothing was found. -/
theorem refusal?_of_absent (h : tree.IsPlain) (hsegments : path.segments = front ++ [name])
    (hname : IsOrdinary name) (hkind : tree.kind? path = none) :
    (tree.refusal? path = none ↔ tree.find path = .error .notFound) ∧
      ∀ cause, tree.refusal? path = some cause ↔
        tree.find path = .error cause ∧ cause ≠ .notFound := by
  obtain ⟨cause, hfind⟩ := exists_find_eq_error h hkind
  have hremove : tree.removeFile path = .error cause := by
    rw [removeFile_eq_find h hsegments hname, hfind]
  constructor
  · rw [refusal?, hremove, hfind]
    cases cause <;> simp
  · intro other
    rw [refusal?_eq_some_iff, hremove, hfind, Except.error.injEq, Except.error.injEq]

/-- If no file is on the way to an absent path, something is missing. -/
theorem find_of_fileless (h : tree.IsPlain) (hcheck : checkPath path = .ok ())
    (hsegments : path.segments = front ++ [name]) (hname : IsOrdinary name)
    (hshort : AreShort path.segments)
    (hfileless : ∀ place, OnWay (origin tree.working path) front place →
      ∀ content, tree.node? place ≠ some (.file content)) (hkind : tree.kind? path = none) :
    tree.find path = .error .notFound := by
  obtain ⟨cause, hfind⟩ := exists_find_eq_error h hkind
  rw [hsegments, areShort_append] at hshort
  have hlong : ¬ maxName < Text.byteLength name :=
    Nat.not_lt.mpr (hshort.2 name (List.mem_singleton_self name))
  rw [hfind]
  rw [find, resolve, hcheck, hsegments, walk_append] at hfind
  rcases walk_of_fileless h hshort.1 maxLinks hfileless with hpassable | hwalk
  · rw [(walk_eq_ok_iff h).mpr ⟨hpassable, rfl⟩] at hfind
    simp only [bind, Except.bind, walk_cons h, walk, if_neg hlong, advance_of_isOrdinary hname]
      at hfind
    rcases hnode : tree.node? (follow (origin tree.working path) front) with
      _ | (_ | content | target)
    · rw [hnode] at hfind
      exact hfind.symm
    · rw [hnode] at hfind
      simp only [pure, Except.pure] at hfind
      split at hfind
      · cases hfind
      · exact hfind.symm
    · exact absurd hnode (hfileless _ (onWay_follow _ front) content)
    · exact absurd hnode (h.linkless _ target)
  · rw [hwalk] at hfind
    exact hfind.symm

end Lookups

end Tree

namespace Generation

open Tunables.Tree

section Removals

variable {tree : Tree} {root : Path} {paths : List Path}

/-- A removal of absent paths changes nothing.  There is an answer, the empty one, exactly if every
lookup finds that something is missing, and otherwise the first path is named whose lookup is
refused for another cause. -/
theorem removeAll_of_absent (h : tree.IsPlain)
    (hnames : ∀ path ∈ paths, ∃ front name, (root.join path).segments = front ++ [name] ∧
      IsOrdinary name)
    (habsent : ∀ path ∈ paths, tree.kind? (root.join path) = none) :
    (tree.perform (removeAll root paths)).2 = tree ∧
      (∀ removed, (tree.perform (removeAll root paths)).1 = .ok removed ↔
        removed = [] ∧ ∀ path ∈ paths, tree.find (root.join path) = .error .notFound) ∧
      ∀ fault, (tree.perform (removeAll root paths)).1 = .error fault ↔
        ∃ front path back, paths = front ++ path :: back ∧
          (∀ earlier ∈ front, tree.find (root.join earlier) = .error .notFound) ∧
          ∃ cause, tree.find (root.join path) = .error cause ∧ cause ≠ .notFound ∧
            fault = .refused (root.join path) cause := by
  have hkind : ∀ path ∈ paths, tree.kind? (root.join path) ≠ some .file :=
    fun path hmem => by simp [habsent path hmem]
  have hapart : paths.Pairwise (IsApart tree root) :=
    List.pairwise_of_forall_mem_list fun first hfirst _ _ hfile => absurd hfile (hkind first hfirst)
  have hnothing : ∀ front, (∀ path ∈ front, path ∈ paths) → leadingToFiles tree root front = [] :=
    fun front hfront =>
      List.filter_eq_nil_iff.mpr fun path hmem hfile =>
        hkind path (hfront path hmem) (beq_iff_eq.mp hfile)
  have hrefusal : ∀ path ∈ paths, _ := fun path hmem =>
    have ⟨_, _, hsegments, hname⟩ := hnames path hmem
    refusal?_of_absent h hsegments hname (habsent path hmem)
  rcases removeAll_outcome h hnames hapart with
    ⟨hnone, hrun⟩ | ⟨front, path, back, cause, hpaths, hfront, hcause, hrun⟩
  · have hall : ∀ path ∈ paths, tree.find (root.join path) = .error .notFound := fun path hmem =>
      (hrefusal path hmem).1.mp (hnone path hmem)
    rw [hrun, filePlaces, hnothing paths fun _ => id, List.map_nil, without_nil]
    refine ⟨rfl, fun removed => ?_, fun fault => iff_of_false (fun heq => by cases heq) ?_⟩
    · rw [Except.ok.injEq, and_iff_left hall, eq_comm]
    · rintro ⟨front, path, back, hpaths, _, cause, hfind, hcause, _⟩
      rw [hall path (by simp [hpaths]), Except.error.injEq] at hfind
      exact hcause hfind.symm
  · have hmem : path ∈ paths := by simp [hpaths]
    have hearlier : ∀ earlier ∈ front, earlier ∈ paths :=
      fun earlier hearlier => hpaths ▸ List.mem_append_left _ hearlier
    obtain ⟨hfind, hne⟩ := ((hrefusal path hmem).2 cause).mp hcause
    have hmissing : ∀ earlier ∈ front, tree.find (root.join earlier) = .error .notFound :=
      fun earlier hmem => (hrefusal earlier (hearlier earlier hmem)).1.mp (hfront earlier hmem)
    rw [hrun, filePlaces, hnothing front hearlier, List.map_nil, without_nil]
    refine ⟨rfl, fun removed => iff_of_false (fun heq => by cases heq) ?_, fun fault => ⟨?_, ?_⟩⟩
    · rintro ⟨_, hall⟩
      rw [hall path hmem, Except.error.injEq] at hfind
      exact hne hfind.symm
    · rintro ⟨⟩
      exact ⟨front, path, back, hpaths, hmissing, cause, hfind, hne, rfl⟩
    · rintro ⟨front', path', back', rfl, hmissing', cause', hfind', hne', rfl⟩
      have hfront' : ∀ earlier ∈ front', tree.refusal? (root.join earlier) = none :=
        fun earlier hmem =>
          (hrefusal earlier (List.mem_append_left _ hmem)).1.mpr (hmissing' earlier hmem)
      have hcause' := ((hrefusal path' (by simp)).2 cause').mpr ⟨hfind', hne'⟩
      exact congrArg Prod.fst
        (hrun.symm.trans (removeAll_of_refused h hnames hapart hfront' hcause'))

/-- The outcome of such a removal only depends on the lookups. -/
theorem removeAll_congr_of_absent {other : Tree} (h : tree.IsPlain) (hother : other.IsPlain)
    (hnames : ∀ path ∈ paths, ∃ front name, (root.join path).segments = front ++ [name] ∧
      IsOrdinary name)
    (habsent : ∀ path ∈ paths, tree.kind? (root.join path) = none)
    (hfind : ∀ path ∈ paths, other.find (root.join path) = tree.find (root.join path)) :
    other.perform (removeAll root paths) = ((tree.perform (removeAll root paths)).1, other) := by
  have habsent' : ∀ path ∈ paths, other.kind? (root.join path) = none := by
    intro path hmem
    rw [kind?, hfind path hmem]
    exact habsent path hmem
  obtain ⟨_, hok, herror⟩ := removeAll_of_absent h hnames habsent
  obtain ⟨hother, hok', herror'⟩ := removeAll_of_absent hother hnames habsent'
  refine Prod.ext ?_ hother
  cases hrun : (tree.perform (removeAll root paths)).1 with
  | ok removed =>
      obtain ⟨hremoved, hmissing⟩ := (hok removed).mp hrun
      exact (hok' removed).mpr
        ⟨hremoved, fun path hmem => (hfind path hmem).trans (hmissing path hmem)⟩
  | error fault =>
      obtain ⟨front, path, back, rfl, hfront, cause, hpath, hcause⟩ := (herror fault).mp hrun
      refine (herror' fault).mpr ⟨front, path, back, rfl, fun earlier hmem => ?_, cause, ?_, hcause⟩
      · exact (hfind earlier (List.mem_append_left _ hmem)).trans (hfront earlier hmem)
      · exact (hfind path (by simp)).trans hpath

end Removals

section Obsolete

variable {tree middle : Tree} {root : Path} {target : Target} {file : List String × String}
  {parameters : List Parameter} {templates : Templates} {outcomes : List (Path × Outcome)}

/-- The ways to obsolete files and the ways to generated files part at once. -/
theorem head?_ne_of_obsolete (hfile : file ∈ target.obsoleteFiles) (artifact : Artifact) :
    file.1.head? ≠ (artifact.file target).1.head? := by
  simp only [Target.obsoleteFiles, Target.obsoleteHeader, List.mem_cons, List.not_mem_nil, or_false]
    at hfile
  rcases hfile with rfl | rfl | rfl | rfl | rfl | rfl <;> cases artifact <;> simp [Artifact.file]

/-- The lookup of an absent obsolete file misses something, or it comes to a file in the
place of a directory. -/
theorem find_obsolete_eq_notFound_iff (h : tree.IsPlain) (hpackage : IsEntryName target.package)
    (hname : '/' ∉ target.name.toList) (hroot : tree.kind? root = some .directory)
    (hfile : file ∈ target.obsoleteFiles)
    (habsent : tree.kind? (root.join (Target.filePath file)) = none)
    (hcheck : checkPath (root.join (Target.filePath file)) = .ok ())
    (hshort : AreShort (root.join (Target.filePath file)).segments) :
    tree.find (root.join (Target.filePath file)) = .error .notFound ↔
      ∀ names content, names <+: file.1.map String.toList →
        tree.node? (tree.placeOf root ++ names) ≠ some (.file content) := by
  have hfile := Target.Names.obsolete hfile
  obtain ⟨front, hfront, hdirectory, hsegments⟩ := segments_file hfile hpackage hname root
  have hordinary := (hfile.isEntryName hname).ordinary
  constructor
  · intro hfind names content hnames hnode
    have hremove := removeFile_below_file h hcheck hshort hpackage hname hfile
      (fun _ => directory_of_passes h hroot) hnames hnode
    rw [removeFile_eq_find h hsegments hordinary, hfind] at hremove
    cases hremove
  · intro hfileless
    refine find_of_fileless h hcheck hsegments hordinary hshort
      (fun place hway content hnode => ?_) habsent
    obtain ⟨hbelow, hwhole⟩ := origin_file hfile hpackage hname tree.working root
    have hpass : Passes tree.working (root.join (Target.below file.1)) place := by
      rwa [Passes, hdirectory, hbelow, ← hwhole]
    obtain ⟨hne, hnames⟩ := hfile.directory hpackage
    rcases (Target.passes_below_iff hne hnames _ _ _).mp hpass with hpass | ⟨names, hbegin, rfl⟩
    · rw [directory_of_passes h hroot hpass] at hnode
      cases hnode
    · exact hfileless names content hbegin hnode

theorem head?_eq_of_front {name : List Char} {rest : List (List Char)} {names : List String}
    (h : name :: rest <+: names.map String.toList) : names.head?.map String.toList = some name := by
  obtain ⟨back, hback⟩ := h
  rw [← List.head?_map, ← hback]
  rfl

/-- Writing the generated files does not change what is found at the paths of the obsolete ones. -/
theorem find_obsolete_of_writeAll (h : tree.IsPlain) (hpackage : IsEntryName target.package)
    (hname : '/' ∉ target.name.toList) (hroot : tree.kind? root = some .directory)
    (hfile : file ∈ target.obsoleteFiles)
    (hwrite : tree.perform (writeAll root target parameters templates Artifact.all) =
      (.ok outcomes, middle)) :
    middle.find (root.join (Target.filePath file)) =
      tree.find (root.join (Target.filePath file)) := by
  have hextends := writeAll_eq_ok h hwrite
  obtain ⟨hne, hdirectories⟩ := (Target.Names.obsolete hfile).directory hpackage
  have hstays : ∀ place, tree.node? place = some .directory →
      middle.node? place = tree.node? place := fun place hplace =>
        (hextends.directory place hplace).trans hplace.symm
  have hapart : ∀ {name rest} (artifact : Artifact),
      name :: rest <+: (file.1 ++ [file.2]).map String.toList →
      ¬ name :: rest <+:
        ((artifact.file target).1 ++ [(artifact.file target).2]).map String.toList := by
    intro name rest artifact hfront hfront'
    have hhead := (head?_eq_of_front hfront).trans (head?_eq_of_front hfront').symm
    rw [List.head?_append_of_ne_nil _ hne,
      List.head?_append_of_ne_nil _ (Target.Names.generated artifact).mem_directory.1] at hhead
    exact head?_ne_of_obsolete hfile artifact
      (Option.map_injective (fun _ _ => String.toList_injective) hhead)
  have hnames : ∀ name ∈ file.1 ++ [file.2], IsEntryName name := by
    intro name hmem
    rcases List.mem_append.mp hmem with hmem | hmem
    · exact hdirectories name hmem
    · rw [List.mem_singleton.mp hmem]
      exact (Target.Names.obsolete hfile).isEntryName hname
  refine find_congr h hextends.isPlain hextends.working fun place hpass => ?_
  rw [Target.filePath, ← Target.below_concat, Target.passes_below_iff (by simp) hnames] at hpass
  rcases hpass with hpass | ⟨_ | ⟨name, rest⟩, hfront, rfl⟩
  · exact hstays place (directory_of_passes h hroot hpass)
  · rw [List.append_nil]
    exact hstays _ (directory_of_passes h hroot (passes_placeOf tree root))
  · rcases hextends.each (placeFrom tree.working root ++ name :: rest) with
      hsame | ⟨⟨artifact, _, hplace⟩, _⟩ |
      ⟨⟨artifact, _, hway⟩, hnone, _⟩
    · exact hsame
    · rw [artifactPlace_eq, placeIn_eq_append (.generated artifact) hpackage hname,
        List.append_assoc] at hplace
      refine absurd ?_ (hapart artifact hfront)
      rw [List.append_cancel_left hplace, List.map_append, List.map_singleton]
    · rcases (leads_iff hpackage hname artifact).mp hway with hpass | ⟨names, hbegin, hplace⟩
      · rw [directory_of_passes h hroot hpass] at hnone
        cases hnone
      · rw [← List.append_cancel_left hplace] at hbegin
        refine absurd (hbegin.trans ?_) (hapart artifact hfront)
        rw [List.map_append]
        exact List.prefix_append _ _

/-- **Removing obsolete files of which there are none.**  Nothing changes.  There is an answer
exactly if every lookup finds that something is missing, and then it is the empty list; otherwise
the removal fails for the first path whose lookup is refused for another cause.  Where no path is
refused as such, that cause is a file in the place of a directory below the root.  A run that has
written its files comes to the same end. -/
theorem removeObsolete_of_absent (h : tree.IsPlain) (hpackage : IsEntryName target.package)
    (hname : IsEntryName target.name) (hroot : tree.kind? root = some .directory)
    (habsent : ∀ path ∈ target.obsoletePaths, tree.kind? (root.join path) = none) :
    (tree.perform (removeObsolete root target)).2 = tree ∧
      (∀ removed, (tree.perform (removeObsolete root target)).1 = .ok removed ↔
        removed = [] ∧ ∀ path ∈ target.obsoletePaths,
          tree.find (root.join path) = .error .notFound) ∧
      (∀ fault, (tree.perform (removeObsolete root target)).1 = .error fault ↔
        ∃ front path back, target.obsoletePaths = front ++ path :: back ∧
          (∀ earlier ∈ front, tree.find (root.join earlier) = .error .notFound) ∧
          ∃ cause, tree.find (root.join path) = .error cause ∧ cause ≠ .notFound ∧
            fault = .refused (root.join path) cause) ∧
      ((∀ path ∈ target.obsoletePaths, checkPath (root.join path) = .ok () ∧
        AreShort (root.join path).segments) →
        ((tree.perform (removeObsolete root target)).1 = .ok [] ↔
          ∀ file ∈ target.obsoleteFiles, ∀ names content, names <+: file.1.map String.toList →
            tree.node? (tree.placeOf root ++ names) ≠ some (.file content))) ∧
      ∀ parameters templates outcomes middle,
        tree.perform (writeAll root target parameters templates Artifact.all) =
          (.ok outcomes, middle) →
          middle.perform (removeObsolete root target) =
            ((tree.perform (removeObsolete root target)).1, middle) := by
  have hnames := segments_obsolete hpackage hname.slashless root
  obtain ⟨htree, hok, herror⟩ := removeAll_of_absent h hnames habsent
  refine ⟨htree, hok, herror, fun hfits => ?_,
    fun parameters templates outcomes middle hwrite => ?_⟩
  · rw [removeObsolete, hok, eq_self, true_and, Target.obsoletePaths_eq, List.forall_mem_map]
    refine forall₂_congr fun file hfile => ?_
    have hmem := Target.mem_obsoletePaths_iff.mpr ⟨file, hfile, rfl⟩
    exact find_obsolete_eq_notFound_iff h hpackage hname.slashless hroot hfile (habsent _ hmem)
      (hfits _ hmem).1 (hfits _ hmem).2
  · refine removeAll_congr_of_absent h (writeAll_eq_ok h hwrite).isPlain hnames habsent
      fun path hmem => ?_
    obtain ⟨file, hfile, rfl⟩ := Target.mem_obsoletePaths_iff.mp hmem
    exact find_obsolete_of_writeAll h hpackage hname.slashless hroot hfile hwrite

/-- A tree in which only the first directory of the obsolete files is there, or something in its
place. -/
def withMessages (node : Node) : Tree :=
  (⟨[], []⟩ : Tree).put ["msg".toList] node

/-- There is nothing to remove in an empty directory, and no answer if a file stands there
instead. -/
theorem removeObsolete_of_absent_two :
    (withMessages .directory).perform (removeObsolete ⟨['/']⟩ ⟨"p", "n", "N"⟩) =
      (.ok [], withMessages .directory) ∧
      (withMessages (.file (.text []))).perform (removeObsolete ⟨['/']⟩ ⟨"p", "n", "N"⟩) =
        (.error (.refused ⟨"/msg/NConfig.msg".toList⟩ .notDirectory),
          withMessages (.file (.text []))) := by
  have hnew : (⟨[], []⟩ : Tree).node? ([] ++ ["msg".toList]) ≠ some .directory := by decide
  have hplain : ∀ node, (∀ target, node ≠ .link target) → IsPlain (withMessages node) :=
    fun node hlink => (isPlain_of_empty []).put rfl hlink fun hnode => absurd hnode hnew
  have hpackage : IsEntryName "p" :=
    isEntryName_of_mem (c := 'p') (by decide) (by decide) (by decide)
  have hname : IsEntryName "N" := isEntryName_of_mem (c := 'N') (by decide) (by decide) (by decide)
  have hmissing : ∀ path ∈ Target.obsoletePaths ⟨"p", "n", "N"⟩,
      (withMessages .directory).find (Path.join ⟨['/']⟩ path) = .error .notFound := by
    simp only [Target.obsoletePaths, List.forall_mem_cons]
    exact ⟨by cbv, by cbv, by cbv, by cbv, by cbv, by cbv, List.forall_mem_nil _⟩
  have habsent : ∀ path ∈ Target.obsoletePaths ⟨"p", "n", "N"⟩,
      (withMessages (.file (.text []))).kind? (Path.join ⟨['/']⟩ path) = none := by
    simp only [Target.obsoletePaths, List.forall_mem_cons]
    exact ⟨by cbv, by cbv, by cbv, by cbv, by cbv, by cbv, List.forall_mem_nil _⟩
  have hfind : (withMessages (.file (.text []))).find
      (Path.join ⟨['/']⟩ (Target.below ["msg", "NConfig.msg"])) =
      .error .notDirectory := by cbv
  have hpath : (⟨"/msg/NConfig.msg".toList⟩ : Path) =
      Path.join ⟨['/']⟩ (Target.below ["msg", Target.configName ⟨"p", "n", "N"⟩ ++ ".msg"]) := by
    cbv
  have hdirectory :=
    @removeObsolete_of_absent _ ⟨['/']⟩ ⟨"p", "n", "N"⟩ (hplain .directory (by simp)) hpackage
      hname (by cbv) fun path hmem => by rw [kind?, hmissing path hmem]
  have hfile :=
    @removeObsolete_of_absent _ ⟨['/']⟩ ⟨"p", "n", "N"⟩ (hplain (.file (.text [])) (by simp))
      hpackage hname (by cbv) habsent
  refine ⟨Prod.ext ((hdirectory.2.1 []).mpr ⟨rfl, hmissing⟩) hdirectory.1,
    Prod.ext ((hfile.2.2.1 _).mpr ?_) hfile.1⟩
  exact ⟨[], _, _, rfl, List.forall_mem_nil _, _, hfind, by decide,
    congrArg (FileFault.refused · .notDirectory) hpath⟩

end Obsolete

end Generation
end Tunables
