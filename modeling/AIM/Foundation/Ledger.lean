import AIM.Foundation.Execution
import Mathlib.Data.List.Count

namespace AIM.Ledger

/-! # Resources that are acquired and released

A program's use of resources is recorded as the list of what it acquires and releases. -/

inductive Use (Resource : Type)
  | acquire (resource : Resource)
  | release (resource : Resource)
  deriving DecidableEq

variable {Resource : Type} [DecidableEq Resource]

/-- Every resource is released as often as it is acquired. -/
def Balanced (uses : List (Use Resource)) : Prop :=
  ∀ resource, uses.count (.acquire resource) = uses.count (.release resource)

theorem Balanced.nil : Balanced ([] : List (Use Resource)) :=
  fun _ => rfl

theorem Balanced.append {first second : List (Use Resource)} (left : Balanced first)
    (right : Balanced second) : Balanced (first ++ second) := by
  intro resource
  rw [List.count_append, List.count_append, left resource, right resource]

def outstanding (uses : List (Use Resource)) (resource : Resource) : Int :=
  uses.count (.acquire resource) - uses.count (.release resource)

theorem Balanced.outstanding_eq_zero {uses : List (Use Resource)} (balanced : Balanced uses)
    (resource : Resource) : outstanding uses resource = 0 := by
  rw [outstanding, balanced resource]
  exact Int.sub_self _

/-! ## Runs -/

section

variable (step : State → Label → Option State) (uses : State → Label → List (Use Resource))

def runUses : State → List Label → List (Use Resource)
  | _, [] => []
  | state, label :: rest =>
      uses state label ++
        match step state label with
        | none => []
        | some next => runUses next rest

end

variable {step : State → Label → Option State} {uses : State → Label → List (Use Resource)}

theorem balanced_runUses {good : State → Label → Prop}
    (balanced : ∀ state label, good state label → Balanced (uses state label))
    {state : State} {labels : List Label}
    (always : Execution.Always step good state labels) :
    Balanced (runUses step uses state labels) := by
  induction labels generalizing state with
  | nil => exact Balanced.nil
  | cons label rest induction =>
      rcases always with ⟨first, later⟩
      apply (balanced state label first).append
      cases taken : step state label with
      | none => exact Balanced.nil
      | some next =>
          rw [taken] at later
          exact induction later

end AIM.Ledger
