import Mathlib.Data.List.Forall2

/-!
# Computations that may fail

What a computation in `Except` comes to that is made of two steps, or of one step for each item of a
list or of an option.

* `except_mapM_eq_ok_iff`, `except_mapM_eq_error_iff`: the steps for the items of a list.
* `Reports`: a computation that fails with the first of the faults that there are.
-/

namespace Tunables

variable {ε α β : Type}

theorem except_bind_eq_ok_iff {first : Except ε α} {next : α → Except ε β} {b : β} :
    first >>= next = .ok b ↔ ∃ a, first = .ok a ∧ next a = .ok b := by
  cases first with
  | error e =>
      constructor
      · intro h
        cases h
      · rintro ⟨a, ha, _⟩
        cases ha
  | ok a =>
      constructor
      · intro h
        exact ⟨a, rfl, h⟩
      · rintro ⟨a', ha', h⟩
        cases ha'
        exact h

theorem except_bind_eq_error_iff {first : Except ε α} {next : α → Except ε β} {e : ε} :
    first >>= next = .error e ↔ first = .error e ∨ ∃ a, first = .ok a ∧ next a = .error e := by
  cases first with
  | error e' =>
      constructor
      · intro h
        cases h
        exact Or.inl rfl
      · rintro (h | ⟨a, ha, _⟩)
        · cases h
          rfl
        · cases ha
  | ok a =>
      constructor
      · intro h
        exact Or.inr ⟨a, rfl, h⟩
      · rintro (h | ⟨a', ha', h⟩)
        · cases h
        · cases ha'
          exact h

section Traversal

variable {f : α → Except ε β} {found : Option α}

theorem except_option_mapM_eq_ok_none_iff : found.mapM f = .ok none ↔ found = none := by
  cases found with
  | none =>
      exact iff_of_true rfl rfl
  | some a =>
      rw [Option.mapM_some]
      cases f a with
      | error e => exact iff_of_false (by rintro ⟨⟩) (by rintro ⟨⟩)
      | ok b => exact iff_of_false (by rintro ⟨⟩) (by rintro ⟨⟩)

theorem except_option_mapM_eq_ok_some_iff {b : β} :
    found.mapM f = .ok (some b) ↔ ∃ a, found = some a ∧ f a = .ok b := by
  cases found with
  | none =>
      refine iff_of_false (by rintro ⟨⟩) ?_
      rintro ⟨a, ⟨⟩, _⟩
  | some a =>
      rw [Option.mapM_some]
      cases ha : f a with
      | error e => simp [ha]
      | ok b => simp [ha]

/-- Whether lists are related only depends on how the items of the first one are. -/
theorem forall₂_congr_of_mem {R S : α → β → Prop} {as : List α} {bs : List β}
    (h : ∀ a ∈ as, ∀ b, R a b ↔ S a b) :
    List.Forall₂ R as bs ↔ List.Forall₂ S as bs := by
  have hmem : ∀ {T : α → β → Prop}, List.Forall₂ T as bs →
      List.Forall₂ (fun a b => a ∈ as ∧ T a b) as bs := fun hT =>
        (List.forall₂_and_left _ _).mpr ⟨fun _ ha => ha, hT⟩
  constructor
  · exact fun hR => (hmem hR).imp fun a b hab => (h a hab.1 b).mp hab.2
  · exact fun hS => (hmem hS).imp fun a b hab => (h a hab.1 b).mpr hab.2

/-- A step for each item of a list succeeds exactly if all the steps do. -/
theorem except_mapM_eq_ok_iff {as : List α} {bs : List β} :
    as.mapM f = .ok bs ↔ List.Forall₂ (fun a b => f a = .ok b) as bs := by
  induction as generalizing bs with
  | nil =>
      rw [List.mapM_nil, List.forall₂_nil_left_iff]
      exact ⟨fun h => (Except.ok.inj h).symm, fun h => h ▸ rfl⟩
  | cons a as ih =>
      simp only [List.mapM_cons, except_bind_eq_ok_iff, ih, List.forall₂_cons_left_iff]
      constructor
      · rintro ⟨b, hb, others, hothers, ⟨⟩⟩
        exact ⟨b, others, hb, hothers, rfl⟩
      · rintro ⟨b, others, hb, hothers, rfl⟩
        exact ⟨b, hb, others, hothers, rfl⟩

/-- There are results for a list exactly if there is one for each item. -/
theorem except_exists_mapM_iff {as : List α} :
    (∃ bs, as.mapM f = .ok bs) ↔ ∀ a ∈ as, ∃ b, f a = .ok b := by
  induction as with
  | nil =>
      exact iff_of_true ⟨[], rfl⟩ (by simp)
  | cons a as ih =>
      rw [List.forall_mem_cons, ← ih]
      simp only [List.mapM_cons, except_bind_eq_ok_iff]
      constructor
      · rintro ⟨_, b, hb, bs, hbs, _⟩
        exact ⟨⟨b, hb⟩, bs, hbs⟩
      · rintro ⟨⟨b, hb⟩, bs, hbs⟩
        exact ⟨b :: bs, b, hb, bs, hbs, rfl⟩

/-- A step for each item of a list fails as it does on the first item on which it fails. -/
theorem except_mapM_eq_error_iff {as : List α} {e : ε} :
    as.mapM f = .error e ↔
      ∃ before bad after, as = before ++ bad :: after ∧ (∀ a ∈ before, ∃ b, f a = .ok b) ∧
        f bad = .error e := by
  induction as with
  | nil =>
      refine iff_of_false (by rintro ⟨⟩) ?_
      rintro ⟨before, bad, after, h, _⟩
      simp at h
  | cons a as ih =>
      have hreturn : ∀ b, ¬ (as.mapM f >>= fun others => pure (b :: others)) = .error e ↔
          ¬ as.mapM f = .error e := by
        intro b
        rw [except_bind_eq_error_iff, or_iff_left]
        rintro ⟨others, _, ⟨⟩⟩
      simp only [List.mapM_cons, except_bind_eq_error_iff, not_iff_not.mp (hreturn _), ih]
      constructor
      · rintro (ha | ⟨b, hb, before, bad, after, rfl, hbefore, hbad⟩)
        · exact ⟨[], a, as, rfl, by simp, ha⟩
        · exact ⟨a :: before, bad, after, rfl, List.forall_mem_cons.mpr ⟨⟨b, hb⟩, hbefore⟩, hbad⟩
      · rintro ⟨before, bad, after, h, hbefore, hbad⟩
        cases before with
        | nil =>
            obtain ⟨rfl, rfl⟩ := List.cons.inj h
            exact Or.inl hbad
        | cons first before =>
            obtain ⟨rfl, rfl⟩ := List.cons.inj h
            obtain ⟨⟨b, hb⟩, hbefore⟩ := List.forall_mem_cons.mp hbefore
            exact Or.inr ⟨b, hb, before, bad, after, rfl, hbefore, hbad⟩

/-- Two steps for each item may be made item by item. -/
theorem except_mapM_mapM_eq_ok_iff {δ γ : Type} {g : β → Except δ γ} {as : List α} {cs : List γ} :
    (∃ bs, as.mapM f = .ok bs ∧ bs.mapM g = .ok cs) ↔
      List.Forall₂ (fun a c => ∃ b, f a = .ok b ∧ g b = .ok c) as cs := by
  simp only [except_mapM_eq_ok_iff]
  constructor
  · rintro ⟨bs, hfirst, hsecond⟩
    induction hfirst generalizing cs with
    | nil =>
        cases hsecond
        exact .nil
    | cons hb _ ih =>
        cases hsecond with
        | cons hc hrest => exact .cons ⟨_, hb, hc⟩ (ih hrest)
  · intro h
    induction h with
    | nil =>
        exact ⟨[], .nil, .nil⟩
    | cons hstep _ ih =>
        obtain ⟨b, hb, hc⟩ := hstep
        obtain ⟨bs, hfirst, hsecond⟩ := ih
        exact ⟨b :: bs, .cons hb hfirst, .cons hc hsecond⟩

end Traversal

section Reporting

variable {first : Except ε α} {next : α → Except ε β} {faults others : List ε}

/-- Of several faults the first one is reported; without a fault there is a result. -/
def Reports (result : Except ε α) (faults : List ε) : Prop :=
  ∀ e, result = .error e ↔ faults.head? = some e

theorem reports_ok (a : α) : Reports (.ok a : Except ε α) [] := by
  intro e
  simp

theorem reports_error (e : ε) : Reports (.error e : Except ε α) [e] := by
  intro e'
  simp

theorem Reports.exists_ok_iff (h : Reports first faults) : (∃ a, first = .ok a) ↔ faults = [] := by
  cases first with
  | error e =>
      have hhead := (h e).mp rfl
      refine iff_of_false (by rintro ⟨a, ⟨⟩⟩) ?_
      rintro rfl
      cases hhead
  | ok a =>
      refine iff_of_true ⟨a, rfl⟩ ?_
      cases faults with
      | nil => rfl
      | cons e faults => cases (h e).mpr rfl

/-- The faults of a second step come behind those of the first. -/
theorem Reports.bind (hfirst : Reports first faults)
    (hnext : ∀ a, first = .ok a → Reports (next a) others) :
    Reports (first >>= next) (faults ++ others) := by
  cases first with
  | error e =>
      intro e'
      obtain ⟨rest, rfl⟩ := List.head?_eq_some_iff.mp ((hfirst e).mp rfl)
      exact ⟨by rintro ⟨⟩; rfl, by rintro ⟨⟩; rfl⟩
  | ok a =>
      obtain rfl : faults = [] := hfirst.exists_ok_iff.mp ⟨a, rfl⟩
      exact hnext a rfl

end Reporting

end Tunables
