import AIM.Database.Operations

namespace AIM.Database

/-! # The cardinality counter -/

namespace LDMMap

section

variable (haversineDist : ℚ → ℚ → ℚ → ℚ → ℚ)

/-- After the operation the counter is the number of entries; it has not wrapped
around below zero, and a database with room for an entry was not taken for full. -/
def CountsExactly (map : LDMMap) (operation : MapOperation) : Prop :=
  ∃ next reply, map.perform haversineDist operation = some (next, reply) ∧
    next.card.toNat = next.ldmmap.card ∧
    (¬operation.IsInsert → next.card ≤ map.card) ∧
    (map.ldmmap.card < 2 ^ 64 - 1 → reply ≠ .retval .ldmmapMapFull)

variable {haversineDist}

theorem WellFormed.remove_card_le {map : LDMMap} (wellFormed : map.WellFormed)
    (stationID : UInt64) : (map.remove stationID).1.card ≤ map.card := by
  cases present : map.entry stationID with
  | none =>
      rw [remove_of_absent present]
      exact UInt64.le_refl _
  | some stored =>
      have counter := wellFormed.remove_card_of_present (Option.isSome_of_eq_some present)
      rw [UInt64.le_iff_toNat_le, wellFormed.counted]
      omega

theorem WellFormed.perform_card_le {map next : LDMMap} {reply : MapReply}
    {operation : MapOperation} (wellFormed : map.WellFormed)
    (noInsert : ¬operation.IsInsert)
    (performed : map.perform haversineDist operation = some (next, reply)) :
    next.card ≤ map.card := by
  cases operation with
  | insert => exact absurd trivial noInsert
  | remove stationID =>
      cases performed
      exact wellFormed.remove_card_le stationID
  | lookup =>
      cases performed
      exact UInt64.le_refl _
  | deleteOlderThan now timeMilliseconds =>
      rw [perform, deleteOlderThan_eq] at performed
      cases performed
      exact wellFormed.sweep_card_le now timeMilliseconds [] _
  | deleteOlderThanAndExecute now timeMilliseconds =>
      cases performed
      exact wellFormed.sweep_card_le now timeMilliseconds [] _
  | clear =>
      rcases wellFormed.clear with ⟨heap, cleared⟩
      rw [perform, cleared] at performed
      cases performed
      exact UInt64.zero_le

theorem remove_retval (map : LDMMap) (stationID : UInt64) :
    (map.remove stationID).2 =
      if map.entry stationID = none then .ldmmapItemNotFound else .ldmmapOk := by
  cases present : map.entry stationID with
  | none => rw [remove_of_absent present, if_pos rfl]
  | some stored =>
      rw [remove_of_present (Option.isSome_of_eq_some present), if_neg nofun]

theorem WellFormed.perform_ne_mapFull {map next : LDMMap} {reply : MapReply}
    {operation : MapOperation} (wellFormed : map.WellFormed)
    (performed : map.perform haversineDist operation = some (next, reply)) :
    reply ≠ .retval .ldmmapMapFull := by
  cases operation with
  | insert newVehicleData =>
      rcases wellFormed.insert_cases haversineDist newVehicleData with
        ⟨_, _, _, result, _, _, _, inserted, _⟩ | ⟨result, _, inserted, _⟩
      all_goals
        rw [perform, inserted] at performed
        cases performed
        intro equal
        cases equal
  | remove stationID =>
      cases performed
      rw [remove_retval]
      split <;> intro equal <;> cases equal
  | clear =>
      rcases wellFormed.clear with ⟨heap, cleared⟩
      rw [perform, cleared] at performed
      cases performed
      intro equal
      cases equal
  | lookup | deleteOlderThan | deleteOlderThanAndExecute =>
      cases performed
      intro equal
      cases equal

theorem WellFormed.countsExactly_iff {map : LDMMap} (wellFormed : map.WellFormed)
    {operation : MapOperation} (inRange : operation.InRange) :
    map.CountsExactly haversineDist operation ↔ map.Removable operation := by
  constructor
  · rintro ⟨next, reply, performed, counted, _⟩
    cases operation with
    | remove stationID =>
        cases performed
        exact (wellFormed.remove_counted_iff inRange).mp counted
    | insert | lookup | deleteOlderThan | deleteOlderThanAndExecute | clear => trivial
  · intro removable
    rcases wellFormed.perform_isSome haversineDist operation with ⟨next, reply, performed⟩
    have taken : map.step haversineDist operation = some next := by
      rw [LDMMap.step, performed]
      rfl
    exact ⟨next, reply, performed,
      (wellFormed.step haversineDist inRange removable taken).counted,
      fun noInsert => wellFormed.perform_card_le noInsert performed,
      fun _ => wellFormed.perform_ne_mapFull performed⟩

/-- The counter is exact throughout a run exactly when no removal in it is of a
present station from 65536 on. -/
theorem run_countsExactly_iff (haversineDist : ℚ → ℚ → ℚ → ℚ → ℚ)
    (memory : Nat → UninitializedPHpoints) (operations : List MapOperation)
    (inRange : ∀ operation ∈ operations, operation.InRange) :
    Execution.Always (step haversineDist) (CountsExactly haversineDist) (empty memory)
        operations ↔
      Execution.Always (step haversineDist) Removable (empty memory) operations := by
  apply Execution.Always.iff_of_invariant WellFormed MapOperation.InRange
  · intro map operation next wellFormed inRange removable taken
    exact wellFormed.step haversineDist inRange removable taken
  · intro map operation wellFormed inRange
    exact wellFormed.countsExactly_iff inRange
  · exact wellFormed_empty _
  · exact inRange

theorem run_countsExactly_small :
    Execution.Always (step noDist) (CountsExactly noDist) (empty default)
        [.insert (station 12), .remove 12] ↔
      Execution.Always (step noDist) Removable (empty default)
        [.insert (station 12), .remove 12] :=
  run_countsExactly_iff noDist default _ (by decide)

/-- Two removals of the station 70000 leave its entry in the database, make the
counter wrap around, and the next insertion finds the database full. -/
theorem not_countsExactly_of_large :
    let operations : List MapOperation :=
      [.insert (station 70000), .remove 70000, .remove 70000]
    (∀ operation ∈ operations, operation.InRange) ∧
    ¬Execution.Always (step noDist) (CountsExactly noDist) (empty default) operations ∧
    (Execution.run (step noDist) (empty default) operations).map
      (fun map => (map.card, map.ldmmap.card)) = some (uint64Max, 1) ∧
    ((Execution.run (step noDist) (empty default) operations).bind
      fun map => (map.insert noDist (station 12)).map Prod.snd) = some .ldmmapMapFull := by
  intro operations
  refine ⟨by decide, ?_, by decide +kernel, by decide +kernel⟩
  intro always
  have removal := always.after [MapOperation.insert (station 70000)]
    (Option.some_get (by decide +kernel)).symm
  rcases removal.1 with ⟨next, reply, performed, counted, _⟩
  cases performed
  exact absurd counted (by decide +kernel)

end

end LDMMap

end AIM.Database
