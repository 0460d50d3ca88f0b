import AIM.Database.WellFormed
import AIM.Foundation.Execution

namespace AIM.Database

/-! # Runs of database operations -/

/-- The calls that read or change the database; a sweep reads the clock first. -/
inductive MapOperation
  | insert (newVehicleData : VehicleData)
  | remove (stationID : UInt64)
  | lookup (stationID : UInt64)
  | deleteOlderThan (now : UInt64) (timeMilliseconds : ℚ)
  | deleteOlderThanAndExecute (now : UInt64) (timeMilliseconds : ℚ)
  | clear

/-- What a call returns or, for a sweep with a callback, the calls it makes. -/
inductive MapReply
  | retval (retval : LDMMapError)
  | found (retval : LDMMapError) (retVehicleData : Option ReturnedVehicleData)
  | called (stationIDs : List UInt64)
  | unit

def MapOperation.InRange : MapOperation → Prop
  | .insert newVehicleData => Database.InRange newVehicleData.stationID
  | .remove stationID => Database.InRange stationID
  | .lookup stationID => Database.InRange stationID
  | .deleteOlderThan _ _ => True
  | .deleteOlderThanAndExecute _ _ => True
  | .clear => True

instance (operation : MapOperation) : Decidable operation.InRange := by
  cases operation <;> unfold MapOperation.InRange <;> infer_instance

def MapOperation.IsInsert : MapOperation → Prop
  | .insert _ => True
  | _ => False

namespace LDMMap

section

variable (haversineDist : ℚ → ℚ → ℚ → ℚ → ℚ)

/-- There is no result where a path history is reached through a bad pointer. -/
def perform (map : LDMMap) : MapOperation → Option (LDMMap × MapReply)
  | .insert newVehicleData =>
      (map.insert haversineDist newVehicleData).map fun result =>
        (result.1, .retval result.2)
  | .remove stationID =>
      some ((map.remove stationID).1, .retval (map.remove stationID).2)
  | .lookup stationID =>
      some (map, .found (map.lookup stationID).1 (map.lookup stationID).2)
  | .deleteOlderThan now timeMilliseconds =>
      some (map.deleteOlderThan now timeMilliseconds, .unit)
  | .deleteOlderThanAndExecute now timeMilliseconds =>
      some ((map.deleteOlderThanAndExecute now timeMilliseconds).1,
        .called (map.deleteOlderThanAndExecute now timeMilliseconds).2)
  | .clear => map.clear.map fun cleared => (cleared, .unit)

def step (map : LDMMap) (operation : MapOperation) : Option LDMMap :=
  (map.perform haversineDist operation).map Prod.fst

theorem step_deleteOlderThan (map : LDMMap) (now : UInt64) (timeMilliseconds : ℚ) :
    map.step haversineDist (.deleteOlderThan now timeMilliseconds) =
      some (map.deleteOlderThanAndExecute now timeMilliseconds).1 := by
  rw [step, perform, deleteOlderThan_eq, Option.map_some]

end

/-- A removal is of a stationID that equals its lower key, or of an absent one. -/
def Removable (map : LDMMap) : MapOperation → Prop
  | .remove stationID => stationID.toNat < 65536 ∨ map.entry stationID = none
  | _ => True

instance (map : LDMMap) (operation : MapOperation) :
    Decidable (map.Removable operation) := by
  cases operation <;> unfold Removable <;> infer_instance

theorem WellFormed.step (haversineDist : ℚ → ℚ → ℚ → ℚ → ℚ) {map next : LDMMap}
    (wellFormed : map.WellFormed) {operation : MapOperation}
    (inRange : operation.InRange) (removable : map.Removable operation)
    (taken : map.step haversineDist operation = some next) : next.WellFormed := by
  cases operation with
  | insert newVehicleData =>
      cases inserted : map.insert haversineDist newVehicleData with
      | none => simp [LDMMap.step, perform, inserted] at taken
      | some result =>
          simp only [LDMMap.step, perform, inserted, Option.map_some,
            Option.some.injEq] at taken
          subst taken
          exact wellFormed.insert haversineDist inRange inserted
  | remove stationID =>
      cases taken
      exact wellFormed.remove inRange removable
  | lookup =>
      cases taken
      exact wellFormed
  | deleteOlderThan now timeMilliseconds =>
      rw [step_deleteOlderThan] at taken
      cases taken
      exact wellFormed.deleteOlderThanAndExecute now timeMilliseconds
  | deleteOlderThanAndExecute now timeMilliseconds =>
      cases taken
      exact wellFormed.deleteOlderThanAndExecute now timeMilliseconds
  | clear =>
      rcases wellFormed.clear with ⟨heap, cleared⟩
      simp only [LDMMap.step, perform, cleared, Option.map_some, Option.some.injEq] at taken
      subst taken
      exact wellFormed_empty heap

theorem Linked.perform_isSome (haversineDist : ℚ → ℚ → ℚ → ℚ → ℚ) {map : LDMMap}
    (linked : map.Linked) (operation : MapOperation) :
    ∃ next reply, map.perform haversineDist operation = some (next, reply) := by
  cases operation with
  | insert newVehicleData =>
      rcases linked.insert_isSome haversineDist newVehicleData with ⟨next, retval, inserted⟩
      rw [perform, inserted]
      exact ⟨_, _, rfl⟩
  | clear =>
      rcases linked.clear with ⟨heap, cleared, _⟩
      refine ⟨⟨∅, 0, heap⟩, .unit, ?_⟩
      rw [perform, cleared]
      rfl
  | remove => exact ⟨_, _, rfl⟩
  | lookup => exact ⟨_, _, rfl⟩
  | deleteOlderThan => exact ⟨_, _, rfl⟩
  | deleteOlderThanAndExecute => exact ⟨_, _, rfl⟩

theorem Linked.step_isSome (haversineDist : ℚ → ℚ → ℚ → ℚ → ℚ) {map : LDMMap}
    (linked : map.Linked) (operation : MapOperation) :
    ∃ next, map.step haversineDist operation = some next := by
  rcases linked.perform_isSome haversineDist operation with ⟨next, reply, performed⟩
  exact ⟨next, by rw [LDMMap.step, performed, Option.map_some]⟩

theorem WellFormed.perform_isSome (haversineDist : ℚ → ℚ → ℚ → ℚ → ℚ) {map : LDMMap}
    (wellFormed : map.WellFormed) (operation : MapOperation) :
    ∃ next reply, map.perform haversineDist operation = some (next, reply) :=
  wellFormed.linked.perform_isSome haversineDist operation

/-! ## Entries and operations -/

theorem Linked.step_cases (haversineDist : ℚ → ℚ → ℚ → ℚ → ℚ) {map next : LDMMap}
    (linked : map.Linked) {operation : MapOperation}
    (taken : map.step haversineDist operation = some next) :
    (∃ newVehicleData address history, operation = .insert newVehicleData ∧
      WellFormed.StoredAt map next newVehicleData address history) ∨
    (∀ {upper lower stored}, next.ldmmap.find upper lower = some stored →
      map.ldmmap.find upper lower = some stored) := by
  cases operation with
  | insert newVehicleData =>
      rcases linked.insert_cases haversineDist newVehicleData with ⟨_, inserted⟩ |
        ⟨_, address, _, result, _, _, _, inserted, _, _, storing⟩ |
        ⟨result, _, inserted, _, _, storing⟩
      all_goals
        simp only [LDMMap.step, perform, inserted, Option.map_some, Option.some.injEq] at taken
        subst taken
      · exact .inr id
      · exact .inl ⟨newVehicleData, _, _, rfl, storing⟩
      · exact .inl ⟨newVehicleData, _, _, rfl, storing⟩
  | remove stationID =>
      cases taken
      exact .inr remove_fewer
  | lookup =>
      cases taken
      exact .inr id
  | deleteOlderThan now timeMilliseconds =>
      rw [step_deleteOlderThan] at taken
      cases taken
      exact .inr (deleteOlderThanAndExecute_fewer now timeMilliseconds map)
  | deleteOlderThanAndExecute now timeMilliseconds =>
      cases taken
      exact .inr (deleteOlderThanAndExecute_fewer now timeMilliseconds map)
  | clear =>
      rcases linked.clear with ⟨heap, cleared, _⟩
      simp only [LDMMap.step, perform, cleared, Option.map_some, Option.some.injEq] at taken
      subst taken
      refine .inr ?_
      intro upper lower stored found
      cases found

theorem Keyed.step (haversineDist : ℚ → ℚ → ℚ → ℚ → ℚ) {map next : LDMMap}
    (isKeyed : map.Keyed) (linked : map.Linked) {operation : MapOperation}
    (inRange : operation.InRange)
    (taken : map.step haversineDist operation = some next) : next.Keyed := by
  rcases linked.step_cases haversineDist taken with
    ⟨newVehicleData, address, history, rfl, storing⟩ | fewer
  · exact isKeyed.storedAt storing inRange
  · exact isKeyed.of_fewer fewer

theorem Linked.sweep {map : LDMMap} (linked : map.Linked) (now : UInt64)
    (timeMilliseconds : ℚ) :
    (map.deleteOlderThanAndExecute now timeMilliseconds).1.Linked := by
  apply linked.of_fewer (deleteOlderThanAndExecute_heap now timeMilliseconds map)
  exact deleteOlderThanAndExecute_fewer now timeMilliseconds map

theorem Linked.step (haversineDist : ℚ → ℚ → ℚ → ℚ → ℚ) {map next : LDMMap}
    (linked : map.Linked) {operation : MapOperation}
    (taken : map.step haversineDist operation = some next) : next.Linked := by
  cases operation with
  | insert newVehicleData =>
      cases inserted : map.insert haversineDist newVehicleData with
      | none => simp [LDMMap.step, perform, inserted] at taken
      | some result =>
          simp only [LDMMap.step, perform, inserted, Option.map_some,
            Option.some.injEq] at taken
          subst taken
          exact linked.insert haversineDist inserted
  | remove stationID =>
      cases taken
      exact linked.of_fewer (WellFormed.remove_heap map stationID) remove_fewer
  | lookup =>
      cases taken
      exact linked
  | deleteOlderThan now timeMilliseconds =>
      rw [step_deleteOlderThan] at taken
      cases taken
      exact linked.sweep now timeMilliseconds
  | deleteOlderThanAndExecute now timeMilliseconds =>
      cases taken
      exact linked.sweep now timeMilliseconds
  | clear =>
      rcases linked.clear with ⟨heap, cleared, _⟩
      simp only [LDMMap.step, perform, cleared, Option.map_some, Option.some.injEq] at taken
      subst taken
      exact (wellFormed_empty heap).linked

/-! ## Path histories -/

def HistoriesSatisfy (map : LDMMap) (property : PHpoints → Prop) : Prop :=
  ∀ upper lower stored address object, map.ldmmap.find upper lower = some stored →
    stored.phData = some address → map.heap.objects address = some object → property object

section

variable {property : PHpoints → Prop} {map next : LDMMap}

theorem HistoriesSatisfy.of_fewer (satisfied : map.HistoriesSatisfy property)
    (heap : next.heap = map.heap)
    (fewer : ∀ {upper lower stored}, next.ldmmap.find upper lower = some stored →
      map.ldmmap.find upper lower = some stored) : next.HistoriesSatisfy property := by
  intro upper lower stored address object found pointer live
  rw [heap] at live
  exact satisfied _ _ _ _ _ (fewer found) pointer live

theorem HistoriesSatisfy.storedAt (satisfied : map.HistoriesSatisfy property)
    (linked : map.Linked) {newVehicleData : VehicleData} {address : Nat} {history : PHpoints}
    (storing : WellFormed.StoredAt map next newVehicleData address history)
    (holds : property history)
    (unshared : ∀ {upper lower stored}, map.ldmmap.find upper lower = some stored →
      stored.phData = some address →
        upper = keyUpper newVehicleData.stationID ∧
        lower = keyLower newVehicleData.stationID) : next.HistoriesSatisfy property := by
  intro upper lower stored other object found pointer live
  rw [storing.find] at found
  split at found
  · cases found
    cases pointer
    cases storing.history.symm.trans live
    exact holds
  · next different =>
      rcases linked.allocated found with ⟨_, _, otherPointer, below, _⟩
      cases pointer.symm.trans otherPointer
      have apart : other ≠ address := by
        intro same
        rw [same] at pointer
        exact different (unshared found pointer)
      rw [storing.others other below apart] at live
      exact satisfied _ _ _ _ _ found pointer live

theorem HistoriesSatisfy.insert (haversineDist : ℚ → ℚ → ℚ → ℚ → ℚ)
    (satisfied : map.HistoriesSatisfy property) (linked : map.Linked)
    (new : ∀ memory, property (PHpoints.new memory))
    (inserts : ∀ (object : PHpoints) newVehicleData, property object →
      property (object.insert haversineDist newVehicleData).1)
    {newVehicleData : VehicleData} {retval : LDMMapError}
    (inserted : map.insert haversineDist newVehicleData = some (next, retval)) :
    next.HistoriesSatisfy property := by
  rcases linked.insert_cases haversineDist newVehicleData with ⟨_, full⟩ |
    ⟨stored, address, object, result, present, pointer, live, updated, _, _, storing⟩ |
    ⟨result, _, created, _, _, storing⟩
  · cases full.symm.trans inserted
    exact satisfied
  · cases updated.symm.trans inserted
    apply satisfied.storedAt linked storing
    · exact inserts object newVehicleData (satisfied _ _ _ _ _ present pointer live)
    · intro upper lower other found same
      exact linked.separate found present (same.trans pointer.symm)
  · cases created.symm.trans inserted
    apply satisfied.storedAt linked storing
    · exact inserts _ newVehicleData (new _)
    · intro upper lower other found same
      rcases linked.allocated found with ⟨_, _, otherPointer, below, _⟩
      cases same.symm.trans otherPointer
      exact absurd below (Nat.lt_irrefl _)

theorem HistoriesSatisfy.step (haversineDist : ℚ → ℚ → ℚ → ℚ → ℚ)
    (satisfied : map.HistoriesSatisfy property) (linked : map.Linked)
    (new : ∀ memory, property (PHpoints.new memory))
    (inserts : ∀ (object : PHpoints) newVehicleData, property object →
      property (object.insert haversineDist newVehicleData).1)
    {operation : MapOperation} (taken : map.step haversineDist operation = some next) :
    next.HistoriesSatisfy property := by
  cases operation with
  | insert newVehicleData =>
      rcases linked.insert_isSome haversineDist newVehicleData with ⟨after, retval, inserted⟩
      simp only [LDMMap.step, perform, inserted, Option.map_some, Option.some.injEq] at taken
      subst taken
      exact satisfied.insert haversineDist linked new inserts inserted
  | remove stationID =>
      cases taken
      exact satisfied.of_fewer (WellFormed.remove_heap map stationID) remove_fewer
  | lookup =>
      cases taken
      exact satisfied
  | deleteOlderThan now timeMilliseconds =>
      rw [step_deleteOlderThan] at taken
      cases taken
      exact satisfied.of_fewer (deleteOlderThanAndExecute_heap now timeMilliseconds map)
        (deleteOlderThanAndExecute_fewer now timeMilliseconds map)
  | deleteOlderThanAndExecute now timeMilliseconds =>
      cases taken
      exact satisfied.of_fewer (deleteOlderThanAndExecute_heap now timeMilliseconds map)
        (deleteOlderThanAndExecute_fewer now timeMilliseconds map)
  | clear =>
      rcases linked.clear with ⟨heap, cleared, _⟩
      simp only [LDMMap.step, perform, cleared, Option.map_some, Option.some.injEq] at taken
      subst taken
      intro upper lower stored address object found
      cases found

theorem run_historiesSatisfy (haversineDist : ℚ → ℚ → ℚ → ℚ → ℚ)
    (memory : Nat → UninitializedPHpoints)
    (new : ∀ memory, property (PHpoints.new memory))
    (inserts : ∀ (object : PHpoints) newVehicleData, property object →
      property (object.insert haversineDist newVehicleData).1)
    {operations : List MapOperation}
    (reached : Execution.run (LDMMap.step haversineDist) (empty memory) operations =
      some map) : map.HistoriesSatisfy property := by
  have start : (empty memory).Linked ∧ (empty memory).HistoriesSatisfy property := by
    refine ⟨(wellFormed_empty _).linked, ?_⟩
    intro upper lower stored address object found
    cases found
  refine (Execution.Always.run_invariant
    (fun map : LDMMap => map.Linked ∧ map.HistoriesSatisfy property) ?_ start
    (.unguarded (empty memory) operations) reached).2
  rintro current operation next ⟨linked, satisfied⟩ _ taken
  exact ⟨linked.step haversineDist taken,
    satisfied.step haversineDist linked new inserts taken⟩

end

/-! A vehicle that is known by its stationID only, and a world without distances. -/

def station (stationID : UInt64) : VehicleData :=
  { (default : VehicleData) with stationID := stationID }

def noDist (_ _ _ _ : ℚ) : ℚ := 0

end LDMMap

end AIM.Database
