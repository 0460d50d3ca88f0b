import AIM.Database.RingWindow

namespace AIM.Database

/-! # Live points

The points that count towards the size of a history, newest first. They are read from
the slots before the next one, and are always the points that were stored last. -/

namespace PHpoints

def livePoints (ph : PHpoints) : List PHData :=
  Ring.contents ph.vectorReservedSize ph.pDataArray ph.nextIdx ph.phPointsSize

@[simp] theorem length_livePoints (ph : PHpoints) :
    ph.livePoints.length = ph.phPointsSize :=
  Ring.length_contents _ _ _ _

theorem livePoints_of_empty {ph : PHpoints} (empty : ph.phPointsSize = 0) :
    ph.livePoints = [] := by
  rw [← List.length_eq_zero_iff, length_livePoints, empty]

theorem RemovedFrom.livePoints {before after : PHpoints} (removal : RemovedFrom before after) :
    after.livePoints = before.livePoints.take after.phPointsSize := by
  rw [PHpoints.livePoints, PHpoints.livePoints, removal.nextIdx, removal.vectorReservedSize,
    removal.pDataArray, Ring.take_contents, Nat.min_eq_left removal.size_le]

theorem livePoints_store {ph : PHpoints} (inside : ph.nextIdx < ph.vectorReservedSize)
    (size_le : ph.phPointsSize ≤ ph.vectorReservedSize) (newVehicleData : VehicleData)
    (pointDist : ℚ) :
    (ph.store newVehicleData pointDist).livePoints =
      pointOf newVehicleData pointDist :: ph.livePoints.take (ph.vectorReservedSize - 1) := by
  have size : (ph.store newVehicleData pointDist).phPointsSize =
      min (ph.vectorReservedSize - 1) ph.phPointsSize + 1 := by
    rw [store_phPointsSize]
    split <;> omega
  rw [livePoints, size, livePoints, Ring.take_contents]
  exact Ring.contents_write inside (by omega) _ _

theorem EndsAtOldest.getLast? {ph : PHpoints} (ends : ph.EndsAtOldest)
    (nonempty : 1 ≤ ph.phPointsSize) :
    ph.livePoints[ph.phPointsSize - 1]? = some (ph.pDataArray ph.oldestIdx) := by
  rw [livePoints, Ring.getElem?_contents _ _ _ (by omega), Nat.sub_add_cancel nonempty,
    ends.oldest, slot]

end PHpoints

namespace TrackedPHpoints

variable (haversineDist : ℚ → ℚ → ℚ → ℚ → ℚ)

/-- An operation on an object that may have no slots. `insert` computes a remainder by the
number of slots, so without slots it has no result. -/
def perform (tracked : TrackedPHpoints) (operation : PHOperation) :
    Option TrackedPHpoints :=
  match operation with
  | .insert _ =>
      if tracked.object.vectorReservedSize = 0 then none
      else some (tracked.step haversineDist operation)
  | _ => some (tracked.step haversineDist operation)

/-- An object as one of the constructors leaves it. -/
def Fresh (tracked : TrackedPHpoints) (memory : UninitializedPHpoints) : Prop :=
  tracked.stored = [] ∧
    (tracked.object = PHpoints.new memory ∨
      ∃ distanceLimit minDistM maxDistM maxHeadingDiffDegs, tracked.object =
        PHpoints.ofLimits memory distanceLimit minDistM maxDistM maxHeadingDiffDegs)

structure Filled (tracked : TrackedPHpoints) : Prop where
  inside : 0 < tracked.object.vectorReservedSize →
    tracked.object.nextIdx < tracked.object.vectorReservedSize
  size_le : tracked.object.phPointsSize ≤ tracked.object.vectorReservedSize
  live : tracked.object.livePoints = tracked.stored.take tracked.object.phPointsSize

variable {haversineDist} {tracked : TrackedPHpoints}

theorem Fresh.object_eq {memory : UninitializedPHpoints} (fresh : tracked.Fresh memory) :
    ∃ distanceLimit minDistM maxDistM maxHeadingDiffDegs, tracked.object =
      PHpoints.ofLimits memory distanceLimit minDistM maxDistM maxHeadingDiffDegs := by
  rcases fresh.2 with equal | limits
  · exact ⟨300, 1, 20, 10, equal.trans (PHpoints.new_eq_ofLimits memory)⟩
  · exact limits

theorem Fresh.filled {memory : UninitializedPHpoints} (fresh : tracked.Fresh memory) :
    tracked.Filled := by
  rcases fresh.object_eq with ⟨_, _, _, _, equal⟩
  refine ⟨?_, ?_, ?_⟩
  · rw [equal]
    exact id
  · rw [equal]
    exact Nat.zero_le _
  · rw [equal, PHpoints.livePoints_of_empty rfl, fresh.1, List.take_nil]

theorem Filled.store (filled : tracked.Filled) {removed : PHpoints}
    (removal : PHpoints.RemovedFrom tracked.object removed)
    (slots : removed.vectorReservedSize ≠ 0) (newVehicleData : VehicleData)
    (pointDist : ℚ) :
    Filled {
      object := removed.store newVehicleData pointDist
      stored := (removed.store newVehicleData pointDist).pDataArray
        tracked.object.nextIdx :: tracked.stored } := by
  have positive : 0 < removed.vectorReservedSize := Nat.pos_of_ne_zero slots
  have fewer := removal.size_le
  have size_le : removed.phPointsSize ≤ removed.vectorReservedSize := by
    rw [removal.vectorReservedSize]
    exact fewer.trans filled.size_le
  have inside : removed.nextIdx < removed.vectorReservedSize := by
    rw [removal.nextIdx, removal.vectorReservedSize]
    apply filled.inside
    rwa [← removal.vectorReservedSize]
  have size : (removed.store newVehicleData pointDist).phPointsSize =
      min (removed.vectorReservedSize - 1) removed.phPointsSize + 1 := by
    rw [PHpoints.store_phPointsSize]
    split <;> omega
  have written := removed.store_pDataArray_nextIdx newVehicleData pointDist
  refine ⟨fun _ => Ring.next_lt positive _, ?_, ?_⟩
  · change (removed.store newVehicleData pointDist).phPointsSize ≤ removed.vectorReservedSize
    omega
  · rw [PHpoints.livePoints_store inside size_le, removal.livePoints, filled.live, size,
      ← removal.nextIdx, written, List.take_succ_cons, List.take_take, List.take_take]
    congr 2
    omega

theorem Filled.unchanged (filled : tracked.Filled) {object : PHpoints}
    (same : PHpoints.RemovedFrom tracked.object object)
    (size : object.phPointsSize = tracked.object.phPointsSize) :
    Filled ⟨object, tracked.stored⟩ := by
  refine ⟨?_, ?_, ?_⟩
  · rw [same.vectorReservedSize, same.nextIdx]
    exact filled.inside
  · rw [same.vectorReservedSize, size]
    exact filled.size_le
  · rw [same.livePoints, filled.live, size, List.take_take, Nat.min_self]

theorem Filled.perform (filled : tracked.Filled) {operation : PHOperation}
    {next : TrackedPHpoints} (performed : tracked.perform haversineDist operation = some next) :
    next.Filled := by
  cases operation with
  | insert newVehicleData =>
      by_cases none : tracked.object.vectorReservedSize = 0
      · rw [TrackedPHpoints.perform, if_pos none] at performed
        cases performed
      · rw [TrackedPHpoints.perform, if_neg none] at performed
        cases performed
        rcases tracked.object.insert_cases haversineDist newVehicleData with
          ⟨_, equal⟩ | ⟨_, _, equal⟩ | ⟨_, _, removed, removal, equal⟩
        · simp only [step_insert, equal, if_true]
          exact filled.store (.refl _) none newVehicleData 0
        · simp only [step_insert, equal]
          exact filled
        · simp only [step_insert, equal, if_true]
          rw [← removal.vectorReservedSize] at none
          exact filled.store removal none newVehicleData _
  | clear =>
      cases performed
      refine ⟨id, Nat.zero_le _, ?_⟩
      rw [step, PHpoints.livePoints_of_empty rfl, List.take_nil]
  | switchRemoveOnlyOne =>
      cases performed
      rw [step, PHpoints.switchRemoveOnlyOne_eq]
      exact filled.unchanged ⟨rfl, rfl, rfl, Nat.le_refl _⟩ rfl
  | setPHMaxDist | setPHMaxHeadingDiff | setIterateFull =>
      cases performed
      exact filled.unchanged ⟨rfl, rfl, rfl, Nat.le_refl _⟩ rfl

theorem Filled.run (filled : tracked.Filled) {operations : List PHOperation}
    {final : TrackedPHpoints}
    (reached : Execution.run (TrackedPHpoints.perform haversineDist) tracked operations =
      some final) : final.Filled := by
  refine Execution.Always.run_invariant Filled ?_ filled (.unguarded tracked operations)
    reached
  intro current operation next holds _ performed
  exact holds.perform performed

end TrackedPHpoints

end AIM.Database
