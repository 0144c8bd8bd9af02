import Tunables.Files.Basic

/-!
# Outcomes of actions on files

How an action on files can end, whatever the files are.  A state of the files is a value of
any type, and it is left open what the steps of the store make of it, so what is said here
holds of every file system.

* `runFrom`: what an action comes to in a state.
* `Ends`: an action ends with values and with faults of given kinds only, in whichever state it
  begins.
-/

namespace Tunables
namespace Files

variable {σ ε ε' α β : Type}

/-- The outcome of an action that begins in a state, and the state that it leaves behind. -/
def runFrom (state : σ) (action : ExceptT ε (StateM σ) α) : Except ε α × σ :=
  action.run state

theorem runFrom_bind (state : σ) (first : ExceptT ε (StateM σ) α)
    (next : α → ExceptT ε (StateM σ) β) :
    runFrom state (first >>= next) =
      match runFrom state first with
      | (.ok a, middle) => runFrom middle (next a)
      | (.error e, middle) => (.error e, middle) := by
  show ExceptT.bindCont next (runFrom state first).1 (runFrom state first).2 = _
  rcases runFrom state first with ⟨_ | _, _⟩ <;> rfl

theorem runFrom_adapt (state : σ) (f : ε → ε') (action : ExceptT ε (StateM σ) α) :
    runFrom state (ExceptT.adapt f action) =
      ((runFrom state action).1.mapError f, (runFrom state action).2) :=
  rfl

/-- Whatever the state is in which an action begins, it ends with a good value or with a
fault that is allowed. -/
def Ends (good : α → Prop) (allowed : ε → Prop) (action : ExceptT ε (StateM σ) α) : Prop :=
  ∀ state,
    match (runFrom state action).1 with
    | .ok value => good value
    | .error fault => allowed fault

namespace Ends

variable {good : α → Prop} {better : β → Prop} {allowed : ε → Prop} {allowed' : ε' → Prop}
  {action : ExceptT ε (StateM σ) α} {next : α → ExceptT ε (StateM σ) β}

theorem good_of_eq_ok (h : Ends good allowed action) {state : σ} {value : α}
    (hvalue : (runFrom state action).1 = .ok value) : good value := by
  have hstate := h state
  rwa [hvalue] at hstate

theorem allowed_of_eq_error (h : Ends good allowed action) {state : σ} {fault : ε}
    (hfault : (runFrom state action).1 = .error fault) : allowed fault := by
  have hstate := h state
  rwa [hfault] at hstate

theorem any (action : ExceptT ε (StateM σ) α) : Ends (fun _ => True) (fun _ => True) action := by
  intro state
  cases (runFrom state action).1 <;> trivial

theorem pure {value : α} (h : good value) :
    Ends good allowed (Pure.pure value : ExceptT ε (StateM σ) α) :=
  fun _ => h

theorem lift (step : StateM σ α) : Ends (fun _ => True) allowed (ExceptT.lift step) :=
  fun _ => trivial

theorem bind (hfirst : Ends good allowed action)
    (hnext : ∀ value, good value → Ends better allowed (next value)) :
    Ends better allowed (action >>= next) := by
  intro state
  have hstate := hfirst state
  rw [runFrom_bind]
  rcases hrun : runFrom state action with ⟨fault | value, middle⟩
  · rw [hrun] at hstate
    exact hstate
  · rw [hrun] at hstate
    exact hnext value hstate middle

theorem mono {allowed' : ε → Prop} (h : Ends good allowed action)
    (hallowed : ∀ fault, allowed fault → allowed' fault) :
    Ends good allowed' action := by
  intro state
  have hstate := h state
  cases hrun : (runFrom state action).1 with
  | ok value =>
      rw [hrun] at hstate
      exact hstate
  | error fault =>
      rw [hrun] at hstate
      exact hallowed fault hstate

theorem adapt {f : ε → ε'} (h : Ends good allowed action)
    (hf : ∀ fault, allowed fault → allowed' (f fault)) :
    Ends good allowed' (ExceptT.adapt f action) := by
  intro state
  have hstate := h state
  rw [runFrom_adapt]
  rcases hrun : runFrom state action with ⟨fault | value, after⟩
  · rw [hrun] at hstate
    exact hf fault hstate
  · rw [hrun] at hstate
    exact hstate

end Ends
end Files
end Tunables
