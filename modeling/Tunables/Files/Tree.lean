import Tunables.Files.Store

/-!
# Trees of files

A file system as a value: what lies at which location, and the directory from which relative paths
are seen.  A location is the list of names that leads to it from the root.

What lies where after a change is said by `node?_put_self`, `node?_erase_self` and their companions
for all other places.

`walk` follows a path name by name.  Whatever has a name below it must be a directory, a
link leads on to its target, and only the last name may be missing.  At most 40 links are
followed for one path, all in all, so whoever goes on from a place goes on with what is left
of them (`walk_links_le`).
-/

namespace Tunables

/-- What a file holds: a text, or bytes that are none. -/
inductive Content where
  | text (value : List Char)
  | bytes (value : List UInt8)
deriving DecidableEq, Repr

/-- The number of bytes in a file. -/
def Content.size : Content → Nat
  | .text value => Tunables.Text.byteLength value
  | .bytes value => value.length

/-- An entry of a tree. -/
inductive Node where
  | directory
  | file (content : Content)
  | link (target : Path)
deriving DecidableEq

/-- The entries of a file system but for the root, and the working directory. -/
structure Tree where
  entries : List (List (List Char) × Node)
  working : List (List Char)

namespace Tree

/-- Names from the root. -/
abbrev Place : Type :=
  List (List Char)

/-- What lies at a place. -/
def node? (tree : Tree) (place : Place) : Option Node :=
  if place.isEmpty then some .directory else tree.entries.lookup place

/-- The tree without what lies at a place. -/
def erase (tree : Tree) (place : Place) : Tree :=
  { tree with entries := tree.entries.filter fun entry => entry.1 != place }

/-- The tree with something at a place. -/
def put (tree : Tree) (place : Place) (node : Node) : Tree :=
  { tree with entries := (place, node) :: (tree.erase place).entries }

theorem node?_root (tree : Tree) : tree.node? [] = some .directory :=
  rfl

theorem node?_eq_lookup (tree : Tree) {place : Place} (h : place ≠ []) :
    tree.node? place = tree.entries.lookup place := by
  cases place with
  | nil => exact absurd rfl h
  | cons name names => rfl

theorem lookup_filter_ne_self (entries : List (Place × Node)) (place : Place) :
    (entries.filter fun entry => entry.1 != place).lookup place = none := by
  rw [List.lookup_eq_none_iff]
  intro entry hmem
  have hne : (entry.1 != place) = true := (List.mem_filter.mp hmem).2
  exact bne_iff_ne.mpr (Ne.symm (bne_iff_ne.mp hne))

theorem lookup_filter_ne {entries : List (Place × Node)} {place other : Place} (h : other ≠ place) :
    (entries.filter fun entry => entry.1 != place).lookup other = entries.lookup other := by
  induction entries with
  | nil => rfl
  | cons entry entries ih =>
    obtain ⟨key, node⟩ := entry
    by_cases hkey : key = place
    · have hother : (other == key) = false := by
        rw [hkey]
        exact beq_eq_false_iff_ne.mpr h
      rw [List.filter_cons_of_neg (by simp [hkey]), List.lookup_cons, hother]
      exact ih
    · rw [List.filter_cons_of_pos (by simp [hkey]), List.lookup_cons, List.lookup_cons, ih]

theorem node?_erase_self (tree : Tree) {place : Place} (h : place ≠ []) :
    (tree.erase place).node? place = none := by
  rw [node?_eq_lookup _ h]
  exact lookup_filter_ne_self tree.entries place

theorem node?_erase_of_ne (tree : Tree) {place other : Place} (h : other ≠ place) :
    (tree.erase place).node? other = tree.node? other := by
  by_cases hroot : other = []
  · rw [hroot]
    rfl
  · rw [node?_eq_lookup _ hroot, node?_eq_lookup _ hroot]
    exact lookup_filter_ne h

theorem node?_put_self (tree : Tree) {place : Place} (node : Node) (h : place ≠ []) :
    (tree.put place node).node? place = some node := by
  rw [node?_eq_lookup _ h]
  simp [put]

theorem node?_put_of_ne (tree : Tree) {place other : Place} (node : Node) (h : other ≠ place) :
    (tree.put place node).node? other = tree.node? other := by
  by_cases hroot : other = []
  · rw [hroot]
    rfl
  · have hbeq : (other == place) = false := beq_eq_false_iff_ne.mpr h
    rw [node?_eq_lookup _ hroot, node?_eq_lookup _ hroot]
    simp only [put, List.lookup_cons, hbeq]
    exact lookup_filter_ne h

/-- How many links a path may lead through. -/
def maxLinks : Nat :=
  40

/-- How many bytes a name may have. -/
def maxName : Nat :=
  255

/-- How many bytes a path may have. -/
def maxPath : Nat :=
  4095

/-- The place from which a path is seen that is met in a directory. -/
def origin (directory : Place) (path : Path) : Place :=
  if path.isAbsolute then [] else directory

/-- Where a path leads to, and how many more links may be followed from there. -/
structure Reached where
  place : Place
  links : Nat

/-- The place that names lead to from a place; the last one need not be there. -/
def walk (tree : Tree) (links : Nat) (place : Place) : List (List Char) → Except Refusal Reached
  | [] => .ok ⟨place, links⟩
  | name :: rest =>
      match tree.node? place with
      | none => .error .notFound
      | some (.file _) | some (.link _) => .error .notDirectory
      | some .directory =>
          if name = [] ∨ name = ['.'] then tree.walk links place rest
          else if name = ['.', '.'] then tree.walk links place.dropLast rest
          else if maxName < Text.byteLength name then .error .invalidName
          else
            match tree.node? (place ++ [name]) with
            | some (.link target) =>
                match links with
                | 0 => .error .linkLoop
                | links + 1 => tree.walk links (origin place target) (target.segments ++ rest)
            | _ => tree.walk links (place ++ [name]) rest
termination_by names => (links, names.length)

theorem walk_links_le {tree : Tree} {links : Nat} {place : Place} {names : List (List Char)}
    {reached : Reached} (h : tree.walk links place names = .ok reached) :
    reached.links ≤ links := by
  fun_induction walk tree links place names with
  | case1 => cases h; exact Nat.le_refl _
  | case2 => cases h
  | case3 => cases h
  | case4 => cases h
  | case5 _ _ _ _ _ _ ih => exact ih h
  | case6 _ _ _ _ _ ih => exact ih h
  | case7 => cases h
  | case8 => cases h
  | case9 _ _ _ _ _ _ _ _ _ _ ih => exact Nat.le_succ_of_le (ih h)
  | case10 _ _ _ _ _ _ _ _ _ ih => exact ih h

/-- Refuses the texts that are no path at all. -/
def checkPath (path : Path) : Except Refusal Unit :=
  if path.text.contains '\x00' then .error .invalidPath
  else if path.text.isEmpty then .error .notFound
  else if maxPath < Text.byteLength path.text then .error .invalidName
  else .ok ()

/-- The place that a path leads to. -/
def resolve (tree : Tree) (path : Path) : Except Refusal Place := do
  checkPath path
  let reached ← tree.walk maxLinks (origin tree.working path) path.segments
  return reached.place

/-- What a path leads to. -/
def find (tree : Tree) (path : Path) : Except Refusal Node := do
  let place ← tree.resolve path
  match tree.node? place with
  | some node => return node
  | none => .error .notFound

/-- A path to be changed at its last name. -/
structure Handle where
  /-- The directory that holds the name. -/
  directory : Place
  name : List Char
  /-- A slash stands behind the name. -/
  slashed : Bool
  /-- How many more links may be followed. -/
  links : Nat

/-- Takes the last name off a path; a path without one leads to a directory. -/
def splitLast (segments : List (List Char)) : List (List Char) × List Char × Bool :=
  let names := (segments.reverse.dropWhile List.isEmpty).reverse
  (names.dropLast, names.getLast?.getD [], names.length < segments.length)

/-- The directory and the last name of a path, given by its segments, that is met in a directory.
`special` is the answer to a path that ends in dots or is the root. -/
def handleFrom (tree : Tree) (special : Refusal) (links : Nat) (directory : Place)
    (segments : List (List Char)) :
    Except Refusal Handle :=
  let (front, name, slashed) := splitLast segments
  match tree.walk links directory (front ++ [[]]) with
  | .error cause => .error cause
  | .ok reached =>
      if name = [] ∨ name = ['.'] ∨ name = ['.', '.'] then .error special
      else .ok ⟨reached.place, name, slashed, reached.links⟩

theorem handleFrom_links_le {tree : Tree} {special : Refusal} {links : Nat} {directory : Place}
    {segments : List (List Char)} {handle : Handle}
    (h : tree.handleFrom special links directory segments = .ok handle) : handle.links ≤ links := by
  simp only [handleFrom] at h
  split at h
  · cases h
  · next reached hwalk =>
    split at h
    · cases h
    · cases h
      exact walk_links_le hwalk

/-- The directory and the last name of a path. -/
def handle (tree : Tree) (special : Refusal) (path : Path) : Except Refusal Handle := do
  checkPath path
  tree.handleFrom special maxLinks (origin tree.working path) path.segments

/-- The place of a handle. -/
def Handle.place (handle : Handle) : Place :=
  handle.directory ++ [handle.name]

/-- Makes a directory where nothing is, not even a link. -/
def makeDirectory (tree : Tree) (path : Path) : Except Refusal Tree := do
  let handle ← tree.handle .alreadyExists path
  if maxName < Text.byteLength handle.name then
    .error .invalidName
  match tree.node? handle.place with
  | some _ => .error .alreadyExists
  | none => return tree.put handle.place .directory

/-- The text of a file. -/
def readText (tree : Tree) (path : Path) : Except Refusal (List Char) := do
  match ← tree.find path with
  | .file (.text text) => return text
  | .file (.bytes _) => .error .notText
  | .directory | .link _ => .error .isDirectory

/-- Makes a link where nothing is. -/
def makeLink (tree : Tree) (path target : Path) : Except Refusal Tree := do
  let handle ← tree.handle .alreadyExists path
  match tree.node? handle.place with
  | some _ => .error .alreadyExists
  | none => return tree.put handle.place (.link target)

/-- The place of the file that is meant by a handle; a link leads on to another one.  A slash behind
the name would make it a directory. -/
def filePlace (tree : Tree) (handle : Handle) : Except Refusal Place :=
  if handle.slashed then .error .isDirectory
  else if maxName < Text.byteLength handle.name then .error .invalidName
  else
    match tree.node? handle.place with
    | some .directory => .error .isDirectory
    | some (.link target) =>
        match hlinks : handle.links with
        | 0 => .error .linkLoop
        | links + 1 =>
            match hnext : tree.handleFrom .isDirectory links
              (origin handle.directory target) target.segments with
            | .error cause => .error cause
            | .ok next =>
                have : next.links < handle.links := by
                  rw [hlinks]
                  exact Nat.lt_succ_of_le (handleFrom_links_le hnext)
                tree.filePlace next
    | _ => .ok handle.place
termination_by handle.links

/-- Gives a file its content; a link leads to the file that is meant. -/
def writeContent (tree : Tree) (path : Path) (content : Content) : Except Refusal Tree := do
  let handle ← tree.handle .isDirectory path
  let place ← tree.filePlace handle
  return tree.put place (.file content)

/-- Removes a file or a link. -/
def removeFile (tree : Tree) (path : Path) : Except Refusal Tree := do
  let handle ← tree.handle .isDirectory path
  if maxName < Text.byteLength handle.name then
    .error .invalidName
  match tree.node? handle.place with
  | none => .error .notFound
  | some .directory => .error .isDirectory
  | some _ => if handle.slashed then .error .notDirectory else return tree.erase handle.place

/-- What a path leads to, if anything. -/
def kind? (tree : Tree) (path : Path) : Option EntryKind :=
  match tree.find path with
  | .ok .directory => some .directory
  | .ok (.file _) => some .file
  | _ => none

/-- The path of a place. -/
def pathOf (place : Place) : Path :=
  ⟨'/' :: Text.join ['/'] place⟩

/-- A step that changes a tree unless it is refused. -/
def step (change : Tree → Except Refusal Tree) : StateM Tree (Except Refusal Unit) := do
  match change (← get) with
  | .ok tree => set tree; return .ok ()
  | .error cause => return .error cause

instance : FileStore (StateM Tree) where
  kind? path := do return (← get).kind? path
  makeDirectory path := step fun tree => tree.makeDirectory path
  readText path := do return (← get).readText path
  writeText path text := step fun tree => tree.writeContent path (.text text)
  removeFile path := step fun tree => tree.removeFile path
  workingDirectory := do return pathOf (← get).working

/-- The entries below a place, seen from there, with every directory right before what it holds and
names in alphabetical order. -/
def below (tree : Tree) (place : Place) : List (Place × Node) :=
  let found := tree.entries.filterMap fun entry =>
    if place.isPrefixOf entry.1 ∧ place.length < entry.1.length then
      some (entry.1.drop place.length, entry.2) else none
  found.mergeSort fun a b => !decide (b.1 < a.1)

end Tree
end Tunables
