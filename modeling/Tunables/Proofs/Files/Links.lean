import Tunables.Proofs.Files.Success

/-!
# Trees with links

What still holds of walks when there are links.

* `walk_append`: a walk can be made in two parts, the second one with the links that are left.
* `walk_budget`: with another number of links a walk arrives at the same place, or it runs out of
  links.
* `LeadsToFile`: at a place is a file, or a link that leads to one; `exists_handle_of_kind?`: a path
  that leads to a file ends at such a place.
* `Cleared`: such places were emptied; `Cleared.walk_eq`: no walk to a directory comes by there.
* `Cleared.removeFile_of_kind?`, `Cleared.removeFile_of_notFound`: what this means for further
  removals.
-/

namespace Tunables
namespace Tree

section Steps

variable {tree : Tree} {place : Place} {links : Nat} {name : List Char} {rest : List (List Char)}

theorem walk_none (hnode : tree.node? place = none) :
    tree.walk links place (name :: rest) = .error .notFound := by
  rw [walk, hnode]

theorem walk_file {content : Content} (hnode : tree.node? place = some (.file content)) :
    tree.walk links place (name :: rest) = .error .notDirectory := by
  rw [walk, hnode]

/-- A walk only goes on from a directory. -/
theorem directory_of_walk {reached : Reached}
    (h : tree.walk links place (name :: rest) = .ok reached) :
    tree.node? place = some .directory := by
  rcases hnode : tree.node? place with _ | (_ | content | target)
  · rw [walk_none hnode] at h
    cases h
  · rfl
  · rw [walk_file hnode] at h
    cases h
  · rw [walk, hnode] at h
    cases h

variable (hdirectory : tree.node? place = some .directory)

include hdirectory

theorem walk_stay (hstay : name = [] ∨ name = ['.']) :
    tree.walk links place (name :: rest) = tree.walk links place rest := by
  rw [walk, hdirectory]
  exact if_pos hstay

theorem walk_up :
    tree.walk links place (['.', '.'] :: rest) = tree.walk links place.dropLast rest := by
  rw [walk, hdirectory]
  rfl

variable (hordinary : IsOrdinary name)

include hordinary

theorem walk_long (hlong : maxName < Text.byteLength name) :
    tree.walk links place (name :: rest) = .error .invalidName := by
  rw [walk, hdirectory]
  simp only [hordinary.ne_nil, hordinary.ne_dot, hordinary.ne_dots, or_self, if_false, if_pos hlong]

variable (hshort : ¬ maxName < Text.byteLength name)

include hshort

theorem walk_link {target : Path} (hlink : tree.node? (place ++ [name]) = some (.link target)) :
    tree.walk links place (name :: rest) =
      match links with
      | 0 => .error .linkLoop
      | links + 1 => tree.walk links (origin place target) (target.segments ++ rest) := by
  rw [walk, hdirectory]
  cases links <;>
    simp only [hordinary.ne_nil, hordinary.ne_dot, hordinary.ne_dots, or_self, if_false,
      if_neg hshort, hlink]

theorem walk_down (hlinkless : ∀ target, tree.node? (place ++ [name]) ≠ some (.link target)) :
    tree.walk links place (name :: rest) = tree.walk links (place ++ [name]) rest := by
  rw [walk, hdirectory]
  simp only [hordinary.ne_nil, hordinary.ne_dot, hordinary.ne_dots, or_self, if_false,
    if_neg hshort]

end Steps

section Walks

variable {tree : Tree} {place : Place} {links : Nat} {names front back : List (List Char)}
  {reached : Reached}

theorem isOrdinary_of_not {name : List Char} (hstay : ¬ (name = [] ∨ name = ['.']))
    (hdots : ¬ name = ['.', '.']) :
    IsOrdinary name :=
  ⟨fun h => hstay (Or.inl h), fun h => hstay (Or.inr h), hdots⟩

/-- A walk can be made in two parts. -/
theorem walk_append (tree : Tree) (links : Nat) (place : Place) (front back : List (List Char)) :
    tree.walk links place (front ++ back) =
      tree.walk links place front >>= fun reached =>
        tree.walk reached.links reached.place back := by
  fun_induction walk tree links place front with
  | case1 => rfl
  | case2 _ _ _ _ hnode => rw [List.cons_append, walk_none hnode]; rfl
  | case3 _ _ _ _ _ hnode => rw [List.cons_append, walk_file hnode]; rfl
  | case4 _ _ _ _ _ hnode => rw [List.cons_append, walk, hnode]; rfl
  | case5 _ _ _ _ hnode hstay ih => rw [List.cons_append, walk_stay hnode hstay, ih]
  | case6 _ _ _ hnode _ ih => rw [List.cons_append, walk_up hnode, ih]
  | case7 _ _ _ _ hnode hstay hdots hlong =>
      rw [List.cons_append, walk_long hnode (isOrdinary_of_not hstay hdots) hlong]
      rfl
  | case8 _ _ _ hnode hstay hdots hshort _ hlink =>
      rw [List.cons_append, walk_link hnode (isOrdinary_of_not hstay hdots) hshort hlink]
      rfl
  | case9 _ _ _ hnode hstay hdots hshort _ hlink _ ih =>
      rw [List.cons_append, walk_link hnode (isOrdinary_of_not hstay hdots) hshort hlink, ← ih,
        List.append_assoc]
  | case10 _ _ _ _ hnode hstay hdots hshort hlinkless ih =>
      rw [List.cons_append, walk_down hnode (isOrdinary_of_not hstay hdots) hshort hlinkless, ih]

/-- With another number of links a walk arrives at the same place, or it runs out of links. -/
theorem walk_budget (h : tree.walk links place names = .ok reached) (other : Nat) :
    (∃ left, tree.walk other place names = .ok ⟨reached.place, left⟩) ∨
      tree.walk other place names = .error .linkLoop := by
  fun_induction walk tree links place names generalizing other with
  | case1 =>
      cases h
      exact Or.inl ⟨other, by rw [walk]⟩
  | case2 | case3 | case4 | case7 | case8 => cases h
  | case5 _ _ _ _ hnode hstay ih =>
      rw [walk_stay hnode hstay]
      exact ih h other
  | case6 _ _ _ hnode _ ih =>
      rw [walk_up hnode]
      exact ih h other
  | case9 _ _ _ hnode hstay hdots hshort _ hlink _ ih =>
      rw [walk_link hnode (isOrdinary_of_not hstay hdots) hshort hlink]
      cases other with
      | zero => exact Or.inr rfl
      | succ other => exact ih h other
  | case10 _ _ _ _ hnode hstay hdots hshort hlinkless ih =>
      rw [walk_down hnode (isOrdinary_of_not hstay hdots) hshort hlinkless]
      exact ih h other

end Walks

/-- At a place is a file, or a link that leads to one. -/
inductive LeadsToFile (tree : Tree) : Place → Prop
  | file {place : Place} {content : Content}
      (hfile : tree.node? place = some (.file content)) : LeadsToFile tree place
  | link {directory : Place} {name : List Char} {target : Path} {links : Nat} {reached : Reached}
      {content : Content} (hlink : tree.node? (directory ++ [name]) = some (.link target))
      (hwalk : tree.walk links (origin directory target) target.segments = .ok reached)
      (hfile : tree.node? reached.place = some (.file content)) : LeadsToFile tree
      (directory ++ [name])

/-- Some places with certain last names were emptied at which there were files or links to files. -/
structure Cleared (tree after : Tree) (names : List (List Char)) : Prop where
  working : after.working = tree.working
  each : ∀ place, after.node? place = tree.node? place ∨
    after.node? place = none ∧ LeadsToFile tree place ∧
      ∃ directory, ∃ name ∈ names, place = directory ++ [name]

section Clearing

variable {tree after : Tree} {place : Place} {links : Nat} {names front : List (List Char)}
  {name : List Char} {path : Path}

theorem LeadsToFile.ne_directory (h : tree.LeadsToFile place) :
    tree.node? place ≠ some .directory := by
  cases h with
  | file hfile => simp [hfile]
  | link hlink _ _ => simp [hlink]

theorem LeadsToFile.ne_none (h : tree.LeadsToFile place) : tree.node? place ≠ none := by
  cases h with
  | file hfile => simp [hfile]
  | link hlink _ _ => simp [hlink]

theorem Cleared.refl (tree : Tree) (names : List (List Char)) : Cleared tree tree names :=
  ⟨rfl, fun _ => Or.inl rfl⟩

theorem Cleared.mono {more : List (List Char)} (h : Cleared tree after names)
    (hmore : ∀ name ∈ names, name ∈ more) :
    Cleared tree after more := by
  refine ⟨h.working, fun place => (h.each place).imp_right ?_⟩
  rintro ⟨hnone, hleads, directory, name, hname, hplace⟩
  exact ⟨hnone, hleads, directory, name, hmore name hname, hplace⟩

theorem Cleared.directory (h : Cleared tree after names)
    (hnode : tree.node? place = some .directory) :
    after.node? place = some .directory := by
  rcases h.each place with hsame | ⟨_, hfile, _⟩
  · rw [hsame, hnode]
  · exact absurd hnode hfile.ne_directory

theorem Cleared.eq_none (h : Cleared tree after names) (hnode : tree.node? place = none) :
    after.node? place = none := by
  rcases h.each place with hsame | ⟨hnone, _⟩
  · rw [hsame, hnode]
  · exact hnone

/-- A walk does not go on from the target of a link that leads to a file. -/
theorem walk_of_leadsToFile {target : Path} (h : tree.LeadsToFile (place ++ [name]))
    (hlink : tree.node? (place ++ [name]) = some (.link target)) (hne : names ≠ []) (links : Nat) :
    tree.walk links (origin place target) (target.segments ++ names) = .error .notDirectory ∨
      tree.walk links (origin place target) (target.segments ++ names) = .error .linkLoop := by
  obtain ⟨next, rest, rfl⟩ := List.exists_cons_of_ne_nil hne
  generalize hplace : place ++ [name] = there at h
  cases h with
  | file hfile =>
      rw [hplace, hfile] at hlink
      cases hlink
  | link hlink' hwalk hfile =>
      obtain ⟨rfl, hname⟩ := List.append_inj' hplace rfl
      cases hname
      rw [hlink] at hlink'
      cases hlink'
      rw [walk_append]
      rcases walk_budget hwalk links with ⟨left, hreached⟩ | hloop
      · rw [hreached]
        exact Or.inl (walk_file hfile)
      · rw [hloop]
        exact Or.inr rfl

/-- A walk to a directory does not come by the places of files, and so it is the same without
them. -/
theorem Cleared.walk_eq {gone : List (List Char)} (h : Cleared tree after gone)
    (hlast : ∀ last ∈ names.getLast?, last = [])
    (hfile : tree.walk links place names ≠ .error .notDirectory)
    (hloop : tree.walk links place names ≠ .error .linkLoop) :
    after.walk links place names = tree.walk links place names := by
  -- Behind an ordinary name there is another one.
  have hnext : ∀ (name : List Char) (rest : List (List Char)),
      (∀ last ∈ (name :: rest).getLast?, last = []) →
      (∀ last ∈ rest.getLast?, last = []) ∧ (IsOrdinary name → rest ≠ []) := by
    intro name rest hall
    cases rest with
    | nil => exact ⟨by simp, fun hordinary => absurd (hall name rfl) hordinary.ne_nil⟩
    | cons next rest => exact ⟨by simpa using hall, fun _ => by simp⟩
  fun_induction walk tree links place names with
  | case1 => rw [walk]
  | case2 _ _ _ _ hnode => exact walk_none (h.eq_none hnode)
  | case3 | case4 => exact absurd rfl hfile
  | case5 _ _ _ _ hnode hstay ih =>
      rw [walk_stay (h.directory hnode) hstay]
      exact ih (hnext _ _ hlast).1 hfile hloop
  | case6 _ _ _ hnode _ ih =>
      rw [walk_up (h.directory hnode)]
      exact ih (hnext _ _ hlast).1 hfile hloop
  | case7 _ _ _ _ hnode hstay hdots hlong =>
      exact walk_long (h.directory hnode) (isOrdinary_of_not hstay hdots) hlong
  | case8 => exact absurd rfl hloop
  | case9 place name rest hnode hstay hdots hshort target hlink links ih =>
      have hordinary := isOrdinary_of_not hstay hdots
      obtain ⟨hrest, hne⟩ := hnext _ _ hlast
      rcases h.each (place ++ [name]) with hsame | ⟨_, hleads, _⟩
      · rw [walk_link (h.directory hnode) hordinary hshort (hsame.trans hlink)]
        refine ih ?_ hfile hloop
        rwa [List.getLast?_append_of_ne_nil _ (hne hordinary)]
      · rcases walk_of_leadsToFile hleads hlink (hne hordinary) links with hwalk | hwalk
        · exact absurd hwalk hfile
        · exact absurd hwalk hloop
  | case10 links place name rest hnode hstay hdots hshort hlinkless ih =>
      have hordinary := isOrdinary_of_not hstay hdots
      obtain ⟨hrest, hne⟩ := hnext _ _ hlast
      rcases h.each (place ++ [name]) with hsame | ⟨_, hleads, _⟩
      · rw [walk_down (h.directory hnode) hordinary hshort fun target hlink =>
          hlinkless target (hsame ▸ hlink)]
        exact ih hrest hfile hloop
      · obtain ⟨next, others, rfl⟩ := List.exists_cons_of_ne_nil (hne hordinary)
        cases hnode' : tree.node? (place ++ [name]) with
        | none => exact absurd hnode' hleads.ne_none
        | some node =>
            cases node with
            | directory => exact absurd hnode' hleads.ne_directory
            | file content => exact absurd (walk_file hnode') hfile
            | link target => exact absurd hnode' (hlinkless target)

/-- A path that leads to a file has a place in a directory at which there is the file, or a link
that leads there. -/
theorem exists_handle_of_kind? (hsegments : path.segments = front ++ [name])
    (hname : IsOrdinary name) (hkind : tree.kind? path = some .file) (special : Refusal) :
    ∃ directory left, tree.handle special path = .ok ⟨directory, name, false, left⟩ ∧
      Text.byteLength name ≤ maxName ∧ tree.LeadsToFile (directory ++ [name]) := by
  obtain ⟨content, hfind⟩ := exists_find_of_kind? hkind
  obtain ⟨hcheck, last, hwalk, hfile⟩ := find_eq_ok_iff_walk.mp hfind
  rw [hsegments, walk_append] at hwalk
  obtain ⟨reached, hfront, hlast⟩ := except_bind_eq_ok_iff.mp hwalk
  have hdirectory := directory_of_walk hlast
  have hshort : ¬ maxName < Text.byteLength name := by
    intro hlong
    rw [walk_long hdirectory hname hlong] at hlast
    cases hlast
  have hreached : tree.walk maxLinks (origin tree.working path) (front ++ [[]]) = .ok reached := by
    rw [walk_append, hfront]
    show tree.walk reached.links reached.place [[]] = .ok reached
    rw [walk_stay hdirectory (Or.inl rfl), walk]
  refine ⟨reached.place, reached.links, ?_, Nat.not_lt.mp hshort, ?_⟩
  · rw [handle_concat hsegments hname, hcheck, hreached]
    rfl
  · by_cases hlink : ∃ target, tree.node? (reached.place ++ [name]) = some (.link target)
    · obtain ⟨target, hlink⟩ := hlink
      rw [walk_link hdirectory hname hshort hlink] at hlast
      split at hlast
      · cases hlast
      · rw [List.append_nil] at hlast
        exact .link hlink hlast hfile
    · rw [walk_down hdirectory hname hshort fun target htarget => hlink ⟨target, htarget⟩, walk]
        at hlast
      cases hlast
      exact .file hfile

theorem name_of_handle (hsegments : path.segments = front ++ [name]) (hname : IsOrdinary name)
    {special : Refusal} {handle : Handle} (hhandle : tree.handle special path = .ok handle) :
    handle.name = name := by
  rw [handle_concat hsegments hname] at hhandle
  obtain ⟨_, _, hhandle⟩ := except_bind_eq_ok_iff.mp hhandle
  cases hwalk : tree.walk maxLinks (origin tree.working path) (front ++ [[]]) with
  | error cause =>
      rw [hwalk] at hhandle
      cases hhandle
  | ok reached =>
      rw [hwalk] at hhandle
      cases hhandle
      rfl

/-- The directory in front of the last name of a path is the same one after files were removed. -/
theorem Cleared.handle_eq {gone : List (List Char)} (h : Cleared tree after gone)
    (hsegments : path.segments = front ++ [name]) (hname : IsOrdinary name) {special : Refusal}
    (hfile : tree.handle special path ≠ .error .notDirectory)
    (hloop : tree.handle special path ≠ .error .linkLoop) :
    after.handle special path = tree.handle special path := by
  rw [handle_concat hsegments hname] at hfile hloop ⊢
  rw [handle_concat hsegments hname, h.working]
  cases hcheck : checkPath path with
  | error cause => rfl
  | ok _ =>
      rw [hcheck] at hfile hloop
      rw [h.walk_eq (by simp)]
      · exact fun hwalk => hfile (by rw [hwalk]; rfl)
      · exact fun hwalk => hloop (by rw [hwalk]; rfl)

/-- What leads to a file can be removed, also after others were removed that have other names. -/
theorem Cleared.removeFile_of_kind? {gone : List (List Char)} (h : Cleared tree after gone)
    (hsegments : path.segments = front ++ [name]) (hname : IsOrdinary name) (hnew : name ∉ gone)
    (hkind : tree.kind? path = some .file) :
    ∃ last, after.removeFile path = .ok last ∧ Cleared tree last (name :: gone) := by
  obtain ⟨directory, left, hbefore, hshort, hleads⟩ :=
    exists_handle_of_kind? hsegments hname hkind .isDirectory
  have hhandle : after.handle .isDirectory path = .ok ⟨directory, name, false, left⟩ := by
    rw [h.handle_eq hsegments hname (by simp [hbefore]) (by simp [hbefore]), hbefore]
  have hsame : after.node? (directory ++ [name]) = tree.node? (directory ++ [name]) := by
    refine (h.each _).resolve_right ?_
    rintro ⟨_, _, _, other, hother, hplace⟩
    exact hnew ((List.cons.inj (List.append_inj_right' hplace rfl)).1 ▸ hother)
  refine ⟨after.erase (directory ++ [name]), ?_, h.working, fun place => ?_⟩
  · rw [removeFile_of_handle hhandle rfl hshort, Handle.place, hsame]
    cases hnode : tree.node? (directory ++ [name]) with
    | none => exact absurd hnode hleads.ne_none
    | some node =>
        cases node with
        | directory => exact absurd hnode hleads.ne_directory
        | file content => rfl
        | link target => rfl
  · by_cases hplace : place = directory ++ [name]
    · subst hplace
      exact Or.inr ⟨node?_erase_self after (by simp), hleads, _, name, by simp, rfl⟩
    · rw [node?_erase_of_ne after hplace]
      refine (h.each place).imp_right ?_
      rintro ⟨hnone, hleads', above, other, hother, hplace'⟩
      exact ⟨hnone, hleads', above, other, List.mem_cons_of_mem _ hother, hplace'⟩

/-- What was not there to be removed is not there after others were removed. -/
theorem Cleared.removeFile_of_notFound {gone : List (List Char)} (h : Cleared tree after gone)
    (hsegments : path.segments = front ++ [name]) (hname : IsOrdinary name)
    (hmissing : tree.removeFile path = .error .notFound) :
    after.removeFile path = .error .notFound := by
  rw [removeFile_eq_notFound_iff] at hmissing ⊢
  rcases hmissing with hhandle | ⟨handle, hhandle, hshort, hnone⟩
  · exact Or.inl
      (by rw [h.handle_eq hsegments hname (by simp [hhandle]) (by simp [hhandle]), hhandle])
  · refine Or.inr ⟨handle, ?_, hshort, h.eq_none hnone⟩
    rw [h.handle_eq hsegments hname (by simp [hhandle]) (by simp [hhandle]), hhandle]

end Clearing

end Tree
end Tunables
