namespace AIM.Execution

/-! # Executions

A system is a partial step function over labels. A run has no further state when
a step has none. -/

variable (step : State → Label → Option State)

def run : State → List Label → Option State
  | state, [] => some state
  | state, label :: rest =>
      match step state label with
      | none => none
      | some next => run next rest

/-- A property of steps holds at every step of a run. -/
def Always (good : State → Label → Prop) : State → List Label → Prop
  | _, [] => True
  | state, label :: rest =>
      good state label ∧
        match step state label with
        | none => True
        | some next => Always good next rest

instance Always.decidable (good : State → Label → Prop)
    [∀ state label, Decidable (good state label)] :
    ∀ state labels, Decidable (Always step good state labels)
  | _, [] => isTrue trivial
  | state, label :: rest =>
      let later : Decidable (match step state label with
          | none => True
          | some next => Always step good next rest) :=
        match step state label with
        | none => isTrue trivial
        | some next => Always.decidable good next rest
      @instDecidableAnd _ _ _ later

variable {step}

theorem Always.cons {good : State → Label → Prop} {state next : State} {label : Label}
    {rest : List Label} (first : good state label) (taken : step state label = some next)
    (later : Always step good next rest) : Always step good state (label :: rest) := by
  refine ⟨first, ?_⟩
  rw [taken]
  exact later

theorem Always.and {first second : State → Label → Prop} {state : State}
    {labels : List Label} (left : Always step first state labels)
    (right : Always step second state labels) :
    Always step (fun current label => first current label ∧ second current label) state
      labels := by
  induction labels generalizing state with
  | nil => trivial
  | cons label rest induction =>
      refine ⟨⟨left.1, right.1⟩, ?_⟩
      cases taken : step state label with
      | none => trivial
      | some next =>
          have leftLater := left.2
          have rightLater := right.2
          rw [taken] at leftLater rightLater
          exact induction leftLater rightLater

theorem Always.unguarded (state : State) (labels : List Label) :
    Always step (fun _ _ => True) state labels := by
  induction labels generalizing state with
  | nil => trivial
  | cons label rest induction =>
      refine ⟨trivial, ?_⟩
      cases step state label with
      | none => trivial
      | some next => exact induction next

theorem Always.after {good : State → Label → Prop} {state middle : State}
    (first : List Label) {rest : List Label} (always : Always step good state (first ++ rest))
    (reached : run step state first = some middle) : Always step good middle rest := by
  induction first generalizing state with
  | nil =>
      cases reached
      exact always
  | cons label labels induction =>
      rcases always with ⟨_, later⟩
      rw [run] at reached
      cases taken : step state label with
      | none => simp [taken] at reached
      | some next =>
          rw [taken] at later reached
          exact induction later reached

section

variable (invariant : State → Prop) (allowed : Label → Prop)
  {guard good : State → Label → Prop}

/-- An invariant that guarded steps keep makes every step of a guarded run good
when it makes one guarded step good. -/
theorem Always.of_invariant
    (preserved : ∀ state label next, invariant state → allowed label →
      guard state label → step state label = some next → invariant next)
    (safe : ∀ state label, invariant state → allowed label → guard state label →
      good state label)
    {state : State} {labels : List Label} (start : invariant state)
    (permitted : ∀ label ∈ labels, allowed label)
    (guarded : Always step guard state labels) : Always step good state labels := by
  induction labels generalizing state with
  | nil => trivial
  | cons label rest induction =>
      rcases guarded with ⟨first, later⟩
      have permittedFirst := permitted label List.mem_cons_self
      refine ⟨safe state label start permittedFirst first, ?_⟩
      cases taken : step state label with
      | none => trivial
      | some next =>
          rw [taken] at later
          apply induction
          · exact preserved state label next start permittedFirst first taken
          · intro other member
            exact permitted other (List.mem_cons_of_mem label member)
          · exact later

theorem Always.run_invariant (invariant : State → Prop)
    (preserved : ∀ state label next, invariant state → guard state label →
      step state label = some next → invariant next)
    {state final : State} {labels : List Label} (start : invariant state)
    (guarded : Always step guard state labels)
    (reached : run step state labels = some final) : invariant final := by
  induction labels generalizing state with
  | nil =>
      cases reached
      exact start
  | cons label rest induction =>
      rcases guarded with ⟨first, later⟩
      rw [run] at reached
      cases taken : step state label with
      | none => simp [taken] at reached
      | some next =>
          rw [taken] at later reached
          exact induction (preserved state label next start first taken) later reached

/-- When a step leads to a good state exactly from a good state and if it is guarded, a run
does. -/
theorem Always.run_iff (invariant good : State → Prop)
    (preserved : ∀ state label next, invariant state → step state label = some next →
      invariant next)
    (exact : ∀ state label next, invariant state → step state label = some next →
      (good next ↔ good state ∧ guard state label))
    {state final : State} {labels : List Label} (start : invariant state)
    (reached : run step state labels = some final) :
    good final ↔ good state ∧ Always step guard state labels := by
  induction labels generalizing state with
  | nil =>
      cases reached
      exact (and_iff_left trivial).symm
  | cons label rest induction =>
      rw [run] at reached
      rw [Always]
      cases taken : step state label with
      | none => simp [taken] at reached
      | some next =>
          rw [taken] at reached
          rw [induction (preserved state label next start taken) reached,
            exact state label next start taken, and_assoc]

theorem Always.iff_of_invariant
    (preserved : ∀ state label next, invariant state → allowed label →
      guard state label → step state label = some next → invariant next)
    (exact : ∀ state label, invariant state → allowed label →
      (good state label ↔ guard state label))
    {state : State} {labels : List Label} (start : invariant state)
    (permitted : ∀ label ∈ labels, allowed label) :
    Always step good state labels ↔ Always step guard state labels := by
  constructor
  · apply Always.of_invariant invariant allowed
    · intro current label next holds isAllowed isGood
      exact preserved current label next holds isAllowed
        ((exact current label holds isAllowed).mp isGood)
    · intro current label holds isAllowed
      exact (exact current label holds isAllowed).mp
    · exact start
    · exact permitted
  · apply Always.of_invariant invariant allowed preserved
    · intro current label holds isAllowed
      exact (exact current label holds isAllowed).mpr
    · exact start
    · exact permitted

end

/-! ## Histories -/

theorem run_append (step : State → Label → Option State) (state : State)
    (first second : List Label) :
    run step state (first ++ second) = (run step state first).bind (run step · second) := by
  induction first generalizing state with
  | nil => rfl
  | cons label rest induction =>
      rw [List.cons_append, run, run]
      cases step state label with
      | none => rfl
      | some next => exact induction next

/-- What a state has to do with the steps that led to it, shown one step after the other. -/
theorem run_history (holds : List Label → State → Prop) (allowed : Label → Prop) {start : State}
    (preserved : ∀ past state label next, run step start past = some state →
      holds past state → allowed label → step state label = some next →
        holds (past ++ [label]) next)
    {past labels : List Label} {state final : State} (before : run step start past = some state)
    (held : holds past state) (permitted : ∀ label ∈ labels, allowed label)
    (reached : run step state labels = some final) : holds (past ++ labels) final := by
  induction labels generalizing past state with
  | nil =>
      cases reached
      rw [List.append_nil]
      exact held
  | cons label rest induction =>
      rcases List.forall_mem_cons.mp permitted with ⟨first, later⟩
      rw [run] at reached
      cases taken : step state label with
      | none => simp [taken] at reached
      | some next =>
          rw [taken] at reached
          have after : run step start (past ++ [label]) = some next := by
            rw [run_append, before, Option.bind_some, run, taken]
            rfl
          have heldNext := preserved past state label next before held first taken
          rw [← List.singleton_append, ← List.append_assoc]
          exact induction after heldNext later reached

/-- What allowed steps keep holds where a run of them ends. -/
theorem run_keeps (holds : State → Prop) (allowed : Label → Prop)
    (preserved : ∀ state label next, holds state → allowed label →
      step state label = some next → holds next)
    {state final : State} {labels : List Label} (held : holds state)
    (permitted : ∀ label ∈ labels, allowed label)
    (reached : run step state labels = some final) : holds final := by
  have first : run step state [] = some state := rfl
  refine run_history (fun _ => holds) allowed ?_ first held permitted reached
  intro past current label next _ holdsNow isAllowed taken
  exact preserved current label next holdsNow isAllowed taken

end AIM.Execution
