import Tunables.Proofs.Files.Plain

/-!
# Changes of plain trees

What the steps that change a tree come to when they are not refused.  Two relations say what may
have happened between two trees, one by one or many times over.

* `Extends`: files were written and directories appeared.
* `Loses`: files were removed.
* `Alike`: the same lies everywhere.
* `makeDirectory_eq_ok`, `writeContent_eq_ok`, `removeFile_eq_ok`: the steps.
* `missing_of_removeFile`: what it means that there was nothing to remove.
-/

namespace Tunables
namespace Tree

/-- Directories stay what they are. -/
structure Keeps (before after : Tree) : Prop where
  working : after.working = before.working
  directory : ∀ place, before.node? place = some .directory → after.node? place = some .directory

/-- Files are written at some places and directories appear at others, and everything else stays. -/
structure Extends (before after : Tree) (files ways : Place → Prop) :
    Prop extends Keeps before after where
  isPlain : after.IsPlain
  each : ∀ place, after.node? place = before.node? place ∨
    (files place ∧ ∃ content, after.node? place = some (.file content)) ∨
    (ways place ∧ before.node? place = none ∧ after.node? place = some .directory)

/-- Files are removed at some places, and everything else stays. -/
structure Loses (before after : Tree) (gone : Place → Prop) : Prop extends Keeps before after where
  isPlain : after.IsPlain
  each : ∀ place, after.node? place = before.node? place ∨
    (gone place ∧ (∃ content, before.node? place = some (.file content)) ∧ after.node? place = none)

/-- The same lies at every place.  It does not matter in which order the entries are kept. -/
structure Alike (first second : Tree) : Prop where
  working : second.working = first.working
  node? : ∀ place, second.node? place = first.node? place

section Keeping

variable {before middle after : Tree} {path : Path}

theorem Keeps.refl (tree : Tree) : Keeps tree tree :=
  ⟨rfl, fun _ h => h⟩

theorem Keeps.trans (h : Keeps before middle) (h' : Keeps middle after) : Keeps before after :=
  ⟨h'.working.trans h.working, fun place hplace => h'.directory place (h.directory place hplace)⟩

theorem Keeps.placeOf_eq (h : Keeps before after) (path : Path) :
    after.placeOf path = before.placeOf path := by
  rw [placeOf, placeOf, h.working]

theorem IsPassable.mono (h : Keeps before after) {place : Place} {names : List (List Char)}
    (hpassable : before.IsPassable place names) : after.IsPassable place names := by
  induction names generalizing place with
  | nil =>
      trivial
  | cons name names ih =>
      obtain ⟨hdirectory, hname, hnames⟩ := hpassable
      exact ⟨h.directory place hdirectory, hname, ih hnames⟩

theorem Reaches.mono (h : Keeps before after) (hreaches : before.Reaches path) :
    after.Reaches path := by
  refine ⟨hreaches.1, ?_⟩
  rw [h.working]
  exact hreaches.2.mono h

theorem Keeps.kind?_eq_directory (h : Keeps before after) (hbefore : before.IsPlain)
    (hafter : after.IsPlain) (hkind : before.kind? path = some .directory) :
    after.kind? path = some .directory := by
  obtain ⟨hreaches, hnode⟩ := (kind?_eq_directory_iff hbefore).mp hkind
  rw [kind?_eq_directory_iff hafter, h.placeOf_eq]
  exact ⟨hreaches.mono h, h.directory _ hnode⟩

end Keeping

section Extension

variable {before middle after : Tree} {files files' ways ways' : Place → Prop} {place : Place}

theorem Extends.refl (h : before.IsPlain) (files ways : Place → Prop) :
    Extends before before files ways :=
  ⟨Keeps.refl before, h, fun _ => Or.inl rfl⟩

theorem Extends.trans (h : Extends before middle files ways)
    (h' : Extends middle after files ways) :
    Extends before after files ways := by
  refine ⟨h.toKeeps.trans h'.toKeeps, h'.isPlain, fun place => ?_⟩
  rcases h'.each place with hsame | hfile | ⟨hways, hnone, hnew⟩
  · rcases h.each place with hsame' | ⟨hfiles, hfile⟩ | ⟨hways, hnone, hnew⟩
    · exact Or.inl (hsame.trans hsame')
    · exact Or.inr (Or.inl ⟨hfiles, hsame ▸ hfile⟩)
    · exact Or.inr (Or.inr ⟨hways, hnone, hsame ▸ hnew⟩)
  · exact Or.inr (Or.inl hfile)
  · rcases h.each place with hsame' | ⟨_, content, hfile⟩ | ⟨_, _, hdirectory⟩
    · exact Or.inr (Or.inr ⟨hways, hsame' ▸ hnone, hnew⟩)
    · simp [hnone] at hfile
    · simp [hnone] at hdirectory

theorem Extends.weaken (h : Extends before after files ways)
    (hfiles : ∀ place, files place → files' place) (hways : ∀ place, ways place → ways' place) :
    Extends before after files' ways' := by
  refine ⟨h.toKeeps, h.isPlain, fun place => ?_⟩
  rcases h.each place with hsame | ⟨hfile, hnode⟩ | ⟨hway, hnode⟩
  · exact Or.inl hsame
  · exact Or.inr (Or.inl ⟨hfiles place hfile, hnode⟩)
  · exact Or.inr (Or.inr ⟨hways place hway, hnode⟩)

/-- What is there stays unless a file is written. -/
theorem Extends.stays (h : Extends before after files ways) (hfiles : ¬ files place)
    (hnode : before.node? place ≠ none) : after.node? place = before.node? place := by
  rcases h.each place with hsame | ⟨hfile, _⟩ | ⟨_, hnone, _⟩
  · exact hsame
  · exact absurd hfile hfiles
  · exact absurd hnone hnode

/-- A file that was not written was there before. -/
theorem Extends.file_iff (h : Extends before after files ways) (hfiles : ¬ files place)
    (content : Content) :
    after.node? place = some (.file content) ↔ before.node? place = some (.file content) := by
  rcases h.each place with hsame | ⟨hfile, _⟩ | ⟨_, hnone, hnew⟩
  · rw [hsame]
  · exact absurd hfile hfiles
  · simp [hnone, hnew]

end Extension

section Loss

variable {before middle after : Tree} {gone gone' : Place → Prop} {place : Place}

theorem Loses.refl (h : before.IsPlain) (gone : Place → Prop) : Loses before before gone :=
  ⟨Keeps.refl before, h, fun _ => Or.inl rfl⟩

theorem Loses.trans (h : Loses before middle gone) (h' : Loses middle after gone) :
    Loses before after gone := by
  refine ⟨h.toKeeps.trans h'.toKeeps, h'.isPlain, fun place => ?_⟩
  rcases h.each place with hsame | ⟨hgone, hfile, hnone⟩
  · rcases h'.each place with hsame' | ⟨hgone, hfile, hnone⟩
    · exact Or.inl (hsame'.trans hsame)
    · exact Or.inr ⟨hgone, hsame ▸ hfile, hnone⟩
  · rcases h'.each place with hsame' | ⟨_, ⟨content, hfile'⟩, _⟩
    · exact Or.inr ⟨hgone, hfile, hsame'.trans hnone⟩
    · simp [hnone] at hfile'

theorem Loses.weaken (h : Loses before after gone) (hgone : ∀ place, gone place → gone' place) :
    Loses before after gone' := by
  refine ⟨h.toKeeps, h.isPlain, fun place => ?_⟩
  rcases h.each place with hsame | ⟨hplace, hnode⟩
  · exact Or.inl hsame
  · exact Or.inr ⟨hgone place hplace, hnode⟩

theorem Loses.stays (h : Loses before after gone) (hgone : ¬ gone place) :
    after.node? place = before.node? place := by
  rcases h.each place with hsame | ⟨hplace, _⟩
  · exact hsame
  · exact absurd hplace hgone

/-- No directory comes or goes. -/
theorem Loses.directory_iff (h : Loses before after gone) :
    after.node? place = some .directory ↔ before.node? place = some .directory := by
  rcases h.each place with hsame | ⟨_, ⟨content, hfile⟩, hnone⟩
  · rw [hsame]
  · simp [hfile, hnone]

/-- What is not there does not come. -/
theorem Loses.eq_none (h : Loses before after gone) (hnone : before.node? place = none) :
    after.node? place = none := by
  rcases h.each place with hsame | ⟨_, _, hnone'⟩
  · rw [hsame, hnone]
  · exact hnone'

end Loss

section Plainness

variable {tree : Tree} {directory place : Place} {name : List Char} {node : Node}
  {content : Content}

/-- A plain tree stays plain if something is put into a directory that is neither a link nor takes
the place of a directory. -/
theorem IsPlain.put (h : tree.IsPlain) (hdirectory : tree.node? directory = some .directory)
    (hlink : ∀ target, node ≠ .link target)
    (hstay : tree.node? (directory ++ [name]) = some .directory → node = .directory) :
    (tree.put (directory ++ [name]) node).IsPlain := by
  have hself :=
    node?_put_self tree node
      (List.append_ne_nil_of_right_ne_nil directory (List.cons_ne_nil name []))
  constructor
  · intro place target
    by_cases hplace : place = directory ++ [name]
    · rw [hplace, hself]
      simpa using hlink target
    · rw [node?_put_of_ne tree node hplace]
      exact h.linkless place target
  · intro place other hnode
    by_cases hplace : place = directory ++ [name]
    · have hne : place ++ [other] ≠ directory ++ [name] := by
        rw [hplace]
        simp
      rw [node?_put_of_ne tree node hne] at hnode
      have hthere := h.enclosed place other hnode
      rw [hplace] at hthere ⊢
      rw [hself, hstay hthere]
    · rw [node?_put_of_ne tree node hplace]
      by_cases hother : place ++ [other] = directory ++ [name]
      · rw [(List.append_inj' hother rfl).1]
        exact hdirectory
      · rw [node?_put_of_ne tree node hother] at hnode
        exact h.enclosed place other hnode

theorem IsPlain.erase (h : tree.IsPlain) (hfile : tree.node? place = some (.file content)) :
    (tree.erase place).IsPlain := by
  have hroot : place ≠ [] := by
    rintro rfl
    simp [node?_root] at hfile
  have hself := node?_erase_self tree hroot
  constructor
  · intro other target
    by_cases hother : other = place
    · rw [hother, hself]
      simp
    · rw [node?_erase_of_ne tree hother]
      exact h.linkless other target
  · intro other name hnode
    have hne : other ++ [name] ≠ place := by
      rintro rfl
      exact hnode hself
    rw [node?_erase_of_ne tree hne] at hnode
    have hdirectory := h.enclosed other name hnode
    have hother : other ≠ place := by
      rintro rfl
      simp [hfile] at hdirectory
    rw [node?_erase_of_ne tree hother, hdirectory]

theorem extends_put_directory (h : tree.IsPlain)
    (hdirectory : tree.node? directory = some .directory)
    (hnone : tree.node? (directory ++ [name]) = none) :
    Extends tree (tree.put (directory ++ [name]) .directory) (fun _ => False)
      (fun place => place = directory ++ [name]) := by
  have hself := node?_put_self tree Node.directory
    (List.append_ne_nil_of_right_ne_nil directory (List.cons_ne_nil name []))
  refine ⟨⟨rfl, fun place hplace => ?_⟩, h.put hdirectory (by simp) (fun _ => rfl), fun place => ?_⟩
  · have hne : place ≠ directory ++ [name] := by
      rintro rfl
      simp [hnone] at hplace
    rw [node?_put_of_ne tree _ hne, hplace]
  · by_cases hplace : place = directory ++ [name]
    · refine Or.inr (Or.inr ⟨hplace, ?_, ?_⟩)
      · rw [hplace, hnone]
      · rw [hplace, hself]
    · exact Or.inl (node?_put_of_ne tree _ hplace)

theorem extends_put_file (h : tree.IsPlain) (hdirectory : tree.node? directory = some .directory)
    (hnode : tree.node? (directory ++ [name]) ≠ some .directory) (content : Content) :
    Extends tree (tree.put (directory ++ [name]) (.file content))
      (fun place => place = directory ++ [name]) (fun _ => False) := by
  have hself := node?_put_self tree (Node.file content)
    (List.append_ne_nil_of_right_ne_nil directory (List.cons_ne_nil name []))
  refine ⟨⟨rfl, fun place hplace => ?_⟩, h.put hdirectory (by simp) (fun heq => absurd heq hnode),
    fun place => ?_⟩
  · have hne : place ≠ directory ++ [name] := by
      rintro rfl
      exact hnode hplace
    rw [node?_put_of_ne tree _ hne, hplace]
  · by_cases hplace : place = directory ++ [name]
    · exact Or.inr (Or.inl ⟨hplace, content, by rw [hplace, hself]⟩)
    · exact Or.inl (node?_put_of_ne tree _ hplace)

theorem loses_erase (h : tree.IsPlain) (hfile : tree.node? place = some (.file content)) :
    Loses tree (tree.erase place) (fun other => other = place) := by
  have hroot : place ≠ [] := by
    rintro rfl
    simp [node?_root] at hfile
  refine ⟨⟨rfl, fun other hother => ?_⟩, h.erase hfile, fun other => ?_⟩
  · have hne : other ≠ place := by
      rintro rfl
      simp [hfile] at hother
    rw [node?_erase_of_ne tree hne, hother]
  · by_cases hother : other = place
    · refine Or.inr ⟨hother, ⟨content, ?_⟩, ?_⟩
      · rw [hother, hfile]
      · rw [hother, node?_erase_self tree hroot]
    · exact Or.inl (node?_erase_of_ne tree hother)

end Plainness

section Steps

variable {tree after : Tree} {path : Path} {handle : Handle} {front trailing : List (List Char)}
  {content : Content}

/-- A path leads to its last name as soon as something lies there, and to what is behind a slash as
soon as it is a directory. -/
theorem Handled.reaches (h : Handled tree path handle front trailing) (hkeeps : Keeps tree after)
    (hname : Text.byteLength handle.name ≤ maxName)
    (hbehind : trailing = [] ∨ after.node? handle.place = some .directory) :
    after.Reaches path := by
  refine ⟨h.checked, ?_⟩
  rw [hkeeps.working, h.segments, isPassable_append, ← h.directory_eq]
  refine ⟨h.passable.mono hkeeps, hkeeps.directory _ h.isDirectory, hname, ?_⟩
  rw [advance_of_isOrdinary h.ordinary]
  rcases hbehind with rfl | hdirectory
  · trivial
  · exact isPassable_of_not_isComponent hdirectory fun segment hsegment =>
      h.empty segment hsegment ▸ rfl

theorem makeDirectory_eq_ok (h : tree.IsPlain) (hmake : tree.makeDirectory path = .ok after) :
    Extends tree after (fun _ => False) (fun place => place = tree.placeOf path) ∧
      after.kind? path = some .directory := by
  unfold makeDirectory at hmake
  obtain ⟨handle, hhandle, hmake⟩ := except_bind_eq_ok_iff.mp hmake
  obtain ⟨front, trailing, hhandled⟩ := handle_eq_ok h hhandle
  simp only at hmake
  split at hmake
  · cases hmake
  · next hname =>
      split at hmake
      · cases hmake
      · next hnone =>
          cases hmake
          have hplace := hhandled.placeOf_eq
          have hextends := extends_put_directory h hhandled.isDirectory hnone
          have hself := node?_put_self tree Node.directory
            (List.append_ne_nil_of_right_ne_nil handle.directory (List.cons_ne_nil handle.name []))
          refine ⟨hextends.weaken (fun _ hfalse => hfalse)
            fun place hway => by rw [hway, hplace, Handle.place], ?_⟩
          have hreaches := hhandled.reaches hextends.toKeeps (Nat.not_lt.mp hname) (Or.inr hself)
          refine (kind?_eq_directory_iff hextends.isPlain).mpr ⟨hreaches, ?_⟩
          rw [hextends.placeOf_eq, hplace]
          exact hself

theorem writeContent_eq_ok (h : tree.IsPlain)
    (hwrite : tree.writeContent path content = .ok after) :
    Extends tree after (fun place => place = tree.placeOf path) (fun _ => False) ∧
      after.Reaches path ∧ after.node? (tree.placeOf path) = some (.file content) := by
  unfold writeContent at hwrite
  obtain ⟨handle, hhandle, hwrite⟩ := except_bind_eq_ok_iff.mp hwrite
  obtain ⟨place, hfile, hwrite⟩ := except_bind_eq_ok_iff.mp hwrite
  obtain ⟨front, trailing, hhandled⟩ := handle_eq_ok h hhandle
  cases hwrite
  rw [filePlace] at hfile
  split at hfile
  · cases hfile
  · next hslashed =>
      split at hfile
      · cases hfile
      · next hname =>
          split at hfile
          · cases hfile
          · next target hlink =>
              exact absurd hlink (h.linkless _ target)
          · next hdirectory _ =>
              cases hfile
              have hplace := hhandled.placeOf_eq
              have hextends := extends_put_file h hhandled.isDirectory hdirectory content
              have htrailing : trailing = [] :=
                Decidable.byContradiction fun hne => hslashed (hhandled.slashed.mpr hne)
              rw [hplace]
              exact ⟨hextends,
                hhandled.reaches hextends.toKeeps (Nat.not_lt.mp hname) (Or.inl htrailing),
                node?_put_self tree _ (by simp [Handle.place])⟩

theorem removeFile_eq_ok (h : tree.IsPlain) (hremove : tree.removeFile path = .ok after) :
    Loses tree after (fun place => place = tree.placeOf path) ∧
      tree.Reaches path ∧ (∃ content, tree.node? (tree.placeOf path) = some (.file content)) ∧
      after.node? (tree.placeOf path) = none := by
  unfold removeFile at hremove
  obtain ⟨handle, hhandle, hremove⟩ := except_bind_eq_ok_iff.mp hremove
  obtain ⟨front, trailing, hhandled⟩ := handle_eq_ok h hhandle
  simp only at hremove
  split at hremove
  · cases hremove
  · next hname =>
      split at hremove
      · cases hremove
      · cases hremove
      · next node hdirectory hnode =>
          split at hremove
          · cases hremove
          · next hslashed =>
              cases hremove
              have htrailing : trailing = [] :=
                Decidable.byContradiction fun hne => hslashed (hhandled.slashed.mpr hne)
              have hreaches :=
                hhandled.reaches (Keeps.refl tree) (Nat.not_lt.mp hname) (Or.inl htrailing)
              cases node with
              | directory =>
                  exact absurd rfl hdirectory
              | link target =>
                  exact absurd hnode (h.linkless _ target)
              | file content =>
                  rw [hhandled.placeOf_eq]
                  exact ⟨loses_erase h hnode, hreaches, ⟨content, hnode⟩,
                    node?_erase_self tree (by simp [Handle.place])⟩

theorem splitLast_front (segments : List (List Char)) : (splitLast segments).1 <+: segments := by
  have hnames : (segments.reverse.dropWhile List.isEmpty).reverse <+: segments := by
    rw [← List.reverse_suffix, List.reverse_reverse]
    exact List.dropWhile_suffix _
  exact (List.dropLast_prefix _).trans hnames

/-- There is nothing to remove if the way leads nowhere, or if nothing lies at its end. -/
theorem removeFile_eq_notFound_iff :
    tree.removeFile path = .error .notFound ↔ tree.handle .isDirectory path = .error .notFound ∨
      ∃ handle, tree.handle .isDirectory path = .ok handle ∧ Text.byteLength handle.name ≤ maxName ∧
        tree.node? handle.place = none := by
  rw [removeFile, except_bind_eq_error_iff]
  refine or_congr_right (exists_congr fun handle => and_congr_right fun _ => ?_)
  simp only
  split
  · next hlong =>
      exact iff_of_false (fun hsame => by cases hsame) fun hmissing =>
        absurd hmissing.1 (Nat.not_le.mpr hlong)
  · next hshort =>
      rw [and_iff_right (Nat.not_lt.mp hshort)]
      rcases tree.node? handle.place with _ | (_ | content | target)
      · exact iff_of_true rfl rfl
      · exact iff_of_false (fun hsame => by cases hsame) (by simp)
      · exact iff_of_false (by cases handle.slashed <;> exact nofun) (by simp)
      · exact iff_of_false (by cases handle.slashed <;> exact nofun) (by simp)

/-- If there was nothing to remove, then something is missing on the way, be it at its end. -/
theorem missing_of_removeFile (h : tree.IsPlain) (htext : path.text ≠ [])
    (hremove : tree.removeFile path = .error .notFound) :
    ∃ place, Passes tree.working path place ∧ tree.node? place = none := by
  rcases removeFile_eq_notFound_iff.mp hremove with hhandle | ⟨handle, hhandle, _, hnone⟩
  · unfold Tree.handle handleFrom at hhandle
    rcases except_bind_eq_error_iff.mp hhandle with hcheck | ⟨_, _, hwalk⟩
    · exact absurd hcheck (checkPath_ne_notFound htext)
    · simp only at hwalk
      split at hwalk
      · next cause hwalk' =>
          cases hwalk
          obtain ⟨part, name, back, hnames, hmissing⟩ := exists_missing_of_walk h hwalk'
          have hpart : part <+: (splitLast path.segments).1 := by
            have hlength := congrArg List.length hnames
            simp only [List.length_append, List.length_cons, List.length_nil] at hlength
            exact List.prefix_of_prefix_length_le ⟨name :: back, hnames.symm⟩
              (List.prefix_append _ _) (by omega)
          exact ⟨_, ⟨part, hpart.trans (splitLast_front _), rfl⟩, hmissing⟩
      · split at hwalk
        · cases hwalk
        · cases hwalk
  · obtain ⟨front, trailing, hhandled⟩ := handle_eq_ok h hhandle
    refine ⟨_, passes_placeOf tree path, ?_⟩
    rw [hhandled.placeOf_eq, hnone]

end Steps

end Tree
end Tunables
