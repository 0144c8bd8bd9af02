import Tunables.Files.Basic
import Tunables.Files.Tree

/-!
# Actions on trees

What an action on files comes to on a tree: its outcome, and the tree that it leaves behind.  The
equations of this file take an action apart into its steps; a step that is refused leaves the tree
as it was.  An action that `Reads` leaves every tree as it was.
-/

namespace Tunables
namespace Tree

open FileStore

variable {ε ε' α β : Type}

/-- The outcome of an action, and the tree that it leaves behind. -/
def perform (tree : Tree) (action : ExceptT ε (StateM Tree) α) : Except ε α × Tree :=
  action.run tree

section Plumbing

theorem perform_bind (tree : Tree) (first : ExceptT ε (StateM Tree) α)
    (next : α → ExceptT ε (StateM Tree) β) :
    tree.perform (first >>= next) =
      match tree.perform first with
      | (.ok a, middle) => middle.perform (next a)
      | (.error e, middle) => (.error e, middle) := by
  show ExceptT.bindCont next (tree.perform first).1 (tree.perform first).2 = _
  rcases tree.perform first with ⟨_ | _, _⟩ <;> rfl

theorem perform_bind_eq_ok_iff {tree after : Tree} {first : ExceptT ε (StateM Tree) α}
    {next : α → ExceptT ε (StateM Tree) β} {b : β} :
    tree.perform (first >>= next) = (.ok b, after) ↔
      ∃ a middle, tree.perform first = (.ok a, middle) ∧
        middle.perform (next a) = (.ok b, after) := by
  rw [perform_bind]
  rcases tree.perform first with ⟨_ | a, middle⟩
  · constructor
    · intro h
      cases h
    · rintro ⟨_, _, h, _⟩
      cases h
  · constructor
    · intro h
      exact ⟨a, middle, rfl, h⟩
    · rintro ⟨_, _, h, hnext⟩
      cases h
      exact hnext

/-- Two actions fail with the first, or with the second after the first. -/
theorem perform_bind_eq_error {tree after : Tree} {first : ExceptT ε (StateM Tree) α}
    {next : α → ExceptT ε (StateM Tree) β} {e : ε}
    (h : tree.perform (first >>= next) = (.error e, after)) :
    tree.perform first = (.error e, after) ∨
      ∃ a middle, tree.perform first = (.ok a, middle) ∧
        middle.perform (next a) = (.error e, after) := by
  rw [perform_bind] at h
  rcases hfirst : tree.perform first with ⟨_ | a, middle⟩
  · rw [hfirst] at h
    cases h
    exact Or.inl rfl
  · rw [hfirst] at h
    exact Or.inr ⟨a, middle, rfl, h⟩

/-- What the first action leaves behind, and the second one keeps, is left behind by both,
whichever of them fails. -/
theorem perform_bind_snd {P : Tree → Prop} {tree : Tree} {first : ExceptT ε (StateM Tree) α}
    {next : α → ExceptT ε (StateM Tree) β} (hfirst : P (tree.perform first).2)
    (hnext : ∀ a middle, tree.perform first = (.ok a, middle) → P middle →
      P (middle.perform (next a)).2) :
    P (tree.perform (first >>= next)).2 := by
  rw [perform_bind]
  rcases hrun : tree.perform first with ⟨_ | a, middle⟩
  · rw [hrun] at hfirst
    exact hfirst
  · rw [hrun] at hfirst
    exact hnext a middle hrun hfirst

theorem perform_map (tree : Tree) (f : α → β) (action : ExceptT ε (StateM Tree) α) :
    tree.perform (f <$> action) = ((tree.perform action).1.map f, (tree.perform action).2) := by
  rw [map_eq_pure_bind, perform_bind]
  rcases tree.perform action with ⟨_ | a, after⟩ <;> rfl

theorem perform_adapt (tree : Tree) (f : ε → ε') (action : ExceptT ε (StateM Tree) α) :
    tree.perform (ExceptT.adapt f action) =
      ((tree.perform action).1.mapError f, (tree.perform action).2) := by
  rfl

theorem perform_adapt_eq_ok_iff {tree after : Tree} {f : ε → ε'}
    {action : ExceptT ε (StateM Tree) α} {a : α} :
    tree.perform (ExceptT.adapt f action) = (.ok a, after) ↔
      tree.perform action = (.ok a, after) := by
  rw [perform_adapt]
  rcases tree.perform action with ⟨_ | b, middle⟩
  · constructor
    · intro h
      cases h
    · intro h
      cases h
  · constructor
    · intro h
      cases h
      rfl
    · intro h
      cases h
      rfl

theorem perform_adapt_eq_error {tree after : Tree} {f : ε → ε'}
    {action : ExceptT ε (StateM Tree) α} {e : ε'}
    (h : tree.perform (ExceptT.adapt f action) = (.error e, after)) :
    ∃ cause, tree.perform action = (.error cause, after) ∧ e = f cause := by
  rw [perform_adapt] at h
  rcases hrun : tree.perform action with ⟨cause | a, middle⟩
  · rw [hrun] at h
    cases h
    exact ⟨cause, rfl, rfl⟩
  · rw [hrun] at h
    cases h

theorem exists_perform_eq_ok {tree : Tree} {action : ExceptT ε (StateM Tree) α}
    (h : (tree.perform action).1.isOk = true) :
    ∃ a after, tree.perform action = (.ok a, after) := by
  rcases hrun : tree.perform action with ⟨_ | a, after⟩
  · rw [hrun] at h
    cases h
  · exact ⟨a, after, rfl⟩

end Plumbing

section Steps

theorem perform_kind? (tree : Tree) (path : Path) :
    tree.perform (FileStore.kind? path : ExceptT ε (StateM Tree) _) =
      (.ok (tree.kind? path), tree) :=
  rfl

theorem perform_isDirectory (tree : Tree) (path : Path) :
    tree.perform (isDirectory path : ExceptT ε (StateM Tree) _) =
      (.ok (tree.kind? path == some .directory), tree) :=
  rfl

theorem perform_isFile (tree : Tree) (path : Path) :
    tree.perform (isFile path : ExceptT ε (StateM Tree) _) =
      (.ok (tree.kind? path == some .file), tree) :=
  rfl

theorem perform_isPresent (tree : Tree) (path : Path) :
    tree.perform (isPresent path : ExceptT ε (StateM Tree) _) =
      (.ok (tree.kind? path).isSome, tree) :=
  rfl

/-- A step that changes the tree, unless it is refused. -/
theorem perform_lift_step (tree : Tree) (change : Tree → Except Refusal Tree) :
    tree.perform (ExceptT.lift (step change) : ExceptT ε (StateM Tree) _) =
      match change tree with
      | .ok after => (.ok (.ok ()), after)
      | .error cause => (.ok (.error cause), tree) := by
  have hstep : step change tree = match change tree with
      | .ok after => (.ok (), after)
      | .error cause => (.error cause, tree) := by
    show (match change tree with | .ok after => _ | .error cause => _ : StateM Tree _) tree = _
    cases change tree <;> rfl
  show (Except.ok (step change tree).1, (step change tree).2) = _
  rw [hstep]
  cases change tree <;> rfl

theorem perform_makeDirectory (tree : Tree) (path : Path) :
    tree.perform (FileStore.makeDirectory path : ExceptT ε (StateM Tree) _) =
      match tree.makeDirectory path with
      | .ok after => (.ok (.ok ()), after)
      | .error cause => (.ok (.error cause), tree) :=
  perform_lift_step tree fun tree => tree.makeDirectory path

theorem perform_writeText (tree : Tree) (path : Path) (text : List Char) :
    tree.perform (FileStore.writeText path text : ExceptT ε (StateM Tree) _) =
      match tree.writeContent path (.text text) with
      | .ok after => (.ok (.ok ()), after)
      | .error cause => (.ok (.error cause), tree) :=
  perform_lift_step tree fun tree => tree.writeContent path (.text text)

theorem perform_removeFile (tree : Tree) (path : Path) :
    tree.perform (FileStore.removeFile path : ExceptT ε (StateM Tree) _) =
      match tree.removeFile path with
      | .ok after => (.ok (.ok ()), after)
      | .error cause => (.ok (.error cause), tree) :=
  perform_lift_step tree fun tree => tree.removeFile path

end Steps

section Operations

theorem perform_createDirectory (tree : Tree) (path : Path) :
    tree.perform (Files.createDirectory path) =
      match tree.makeDirectory path with
      | .ok after => (.ok (), after)
      | .error cause =>
          match tree.kind? path with
          | some .directory => (.ok (), tree)
          | some .file => (.error (.notADirectory path), tree)
          | none => (.error (.refused path cause), tree) := by
  rw [Files.createDirectory, perform_bind, perform_makeDirectory]
  cases tree.makeDirectory path with
  | ok after => rfl
  | error cause =>
      simp only
      rw [perform_bind, perform_kind?]
      rcases tree.kind? path with _ | (_ | _) <;> rfl

theorem perform_write (tree : Tree) (path : Path) (text : List Char) :
    tree.perform (Files.write path text) =
      match tree.writeContent path (.text text) with
      | .ok after => (.ok (), after)
      | .error cause => (.error (.refused path cause), tree) := by
  rw [Files.write, perform_bind, perform_writeText]
  cases tree.writeContent path (.text text) <;> rfl

theorem perform_removeIfPresent (tree : Tree) (path : Path) :
    tree.perform (Files.removeIfPresent path) =
      match tree.removeFile path with
      | .ok after => (.ok true, after)
      | .error .notFound => (.ok false, tree)
      | .error cause => (.error (.refused path cause), tree) := by
  rw [Files.removeIfPresent, perform_bind, perform_removeFile]
  cases tree.removeFile path with
  | ok after => rfl
  | error cause => cases cause <;> rfl

/-- A directory is looked for, then above it, and made last. -/
theorem perform_ensureDirectory (tree : Tree) (path : Path) :
    tree.perform (Files.ensureDirectory path) =
      match tree.kind? path with
      | some .directory => (.ok (), tree)
      | some .file => (.error (.notADirectory path), tree)
      | none =>
          match path.parent? with
          | none => tree.perform (Files.createDirectory path)
          | some parent =>
              if !parent.text.isEmpty && !(tree.kind? parent == some .directory) then
                tree.perform (Files.ensureDirectory parent >>= fun _ => Files.createDirectory path)
              else tree.perform (Files.createDirectory path) := by
  rw [Files.ensureDirectory, perform_bind, perform_kind?]
  rcases tree.kind? path with _ | (_ | _)
  · simp only
    split
    · next h =>
        rw [h]
    · next parent h =>
        rw [h, perform_bind, perform_isDirectory]
        simp only
        split <;> rfl
  · rfl
  · rfl

end Operations

section Readings

/-- An action only looks at the tree. -/
def Reads (action : ExceptT ε (StateM Tree) α) : Prop :=
  ∀ tree, (perform tree action).2 = tree

variable {action : ExceptT ε (StateM Tree) α}

theorem reads_pure (a : α) : Reads (pure a : ExceptT ε (StateM Tree) α) :=
  fun _ => rfl

theorem reads_throw (e : ε) : Reads (throw e : ExceptT ε (StateM Tree) α) :=
  fun _ => rfl

theorem reads_isDirectory (path : Path) : Reads (isDirectory path : ExceptT ε (StateM Tree) Bool) :=
  fun _ => rfl

theorem reads_workingDirectory : Reads (workingDirectory : ExceptT ε (StateM Tree) Path) :=
  fun _ => rfl

theorem Reads.bind {next : α → ExceptT ε (StateM Tree) β} (h : Reads action)
    (hnext : ∀ a, Reads (next a)) :
    Reads (action >>= next) :=
  fun tree => perform_bind_snd (h tree) fun a middle _ hmiddle => (hnext a middle).trans hmiddle

theorem Reads.adapt (h : Reads action) (f : ε → ε') : Reads (ExceptT.adapt f action) :=
  h

/-- What an action that only looks comes to. -/
theorem Reads.perform_eq (h : Reads action) (tree : Tree) :
    tree.perform action = ((tree.perform action).1, tree) :=
  Prod.ext rfl (h tree)

theorem perform_filterAuxM {keeps : α → ExceptT ε (StateM Tree) Bool} {isKept : α → Bool}
    {tree : Tree} (h : ∀ a, tree.perform (keeps a) = (.ok (isKept a), tree)) (list kept : List α) :
    tree.perform (list.filterAuxM keeps kept) =
      (.ok ((list.filter isKept).reverse ++ kept), tree) := by
  induction list generalizing kept with
  | nil => rfl
  | cons a list ih =>
      rw [List.filterAuxM, perform_bind, h]
      simp only [ih]
      cases hkept : isKept a with
      | true => simp [List.filter_cons_of_pos hkept]
      | false => simp [List.filter_cons_of_neg (Bool.eq_false_iff.mp hkept)]

/-- A list is filtered by what the tree says of its entries. -/
theorem perform_filterM {keeps : α → ExceptT ε (StateM Tree) Bool} {isKept : α → Bool} {tree : Tree}
    (h : ∀ a, tree.perform (keeps a) = (.ok (isKept a), tree)) (list : List α) :
    tree.perform (list.filterM keeps) = (.ok (list.filter isKept), tree) := by
  rw [List.filterM, perform_bind, perform_filterAuxM h]
  show (Except.ok _, tree) = _
  rw [List.append_nil, List.reverse_reverse]

end Readings

end Tree
end Tunables
