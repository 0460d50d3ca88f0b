import AIM.Database.PHpoints

namespace AIM.Database

/-! # The most recently stored point

`insert` is meant to compare a new point with the point stored last. The points
stored by a run are tracked beside the object, newest first, and compared with
the slot that `insert` really reads. -/

inductive PHOperation
  | insert (newVehicleData : VehicleData)
  | clear
  | switchRemoveOnlyOne
  | setPHMaxDist (maxDistanceMeters : ℚ)
  | setPHMaxHeadingDiff (maxHeadingDiffDegs : ℚ)
  | setIterateFull (iterateFull : Bool)

structure TrackedPHpoints where
  object : PHpoints
  stored : List PHData

namespace TrackedPHpoints

def Constructed (tracked : TrackedPHpoints) : Prop :=
  tracked.stored = [] ∧
    ((∃ memory, tracked.object = PHpoints.new memory) ∨
      ∃ memory distanceLimit minDistM maxDistM maxHeadingDiffDegs,
        0 < distanceLimit ∧ 0 < minDistM ∧ tracked.object =
          PHpoints.ofLimits memory distanceLimit minDistM maxDistM maxHeadingDiffDegs)

section

variable (haversineDist : ℚ → ℚ → ℚ → ℚ → ℚ)

/-- What is stored of the vehicle, with its distance from the point that `insert` reads. -/
def insertedPoint (ph : PHpoints) (newVehicleData : VehicleData) : PHData where
  lat := newVehicleData.lat
  lon := newVehicleData.lon
  elev := newVehicleData.elevation
  heading := newVehicleData.heading
  pointDistance :=
    if 1 ≤ ph.phPointsSize then
      haversineDist (ph.pDataArray ph.prevIdx).lat (ph.pDataArray ph.prevIdx).lon
        newVehicleData.lat newVehicleData.lon
    else 0

def step (tracked : TrackedPHpoints) : PHOperation → TrackedPHpoints
  | .insert newVehicleData =>
      let result := tracked.object.insert haversineDist newVehicleData
      { object := result.1
        stored :=
          if result.2 = .phpInserted then
            insertedPoint haversineDist tracked.object newVehicleData :: tracked.stored
          else tracked.stored }
  | .clear => { object := tracked.object.clear, stored := [] }
  | .switchRemoveOnlyOne => { tracked with object := tracked.object.switchRemoveOnlyOne }
  | .setPHMaxDist maxDistanceMeters =>
      { tracked with object := tracked.object.setPHMaxDist maxDistanceMeters }
  | .setPHMaxHeadingDiff maxHeadingDiffDegs =>
      { tracked with object := tracked.object.setPHMaxHeadingDiff maxHeadingDiffDegs }
  | .setIterateFull iterateFull =>
      { tracked with object := tracked.object.setIterateFull iterateFull }

def run (start : TrackedPHpoints) (operations : List PHOperation) : TrackedPHpoints :=
  operations.foldl (step haversineDist) start

end

theorem insert_pDataArray_nextIdx (haversineDist : ℚ → ℚ → ℚ → ℚ → ℚ) (ph : PHpoints)
    (newVehicleData : VehicleData)
    (inserted : (ph.insert haversineDist newVehicleData).2 = .phpInserted) :
    (ph.insert haversineDist newVehicleData).1.pDataArray ph.nextIdx =
      insertedPoint haversineDist ph newVehicleData := by
  rcases ph.insert_cases haversineDist newVehicleData with
    ⟨empty, equal⟩ | ⟨_, _, equal⟩ | ⟨nonempty, _, removed, removal, equal⟩
  · rw [equal, insertedPoint, if_neg (by omega)]
    exact ph.store_pDataArray_nextIdx newVehicleData 0
  · rw [equal] at inserted
    cases inserted
  · rw [equal, insertedPoint, if_pos nonempty, ← removal.nextIdx]
    exact removed.store_pDataArray_nextIdx newVehicleData _

theorem step_insert (haversineDist : ℚ → ℚ → ℚ → ℚ → ℚ) (tracked : TrackedPHpoints)
    (newVehicleData : VehicleData) :
    tracked.step haversineDist (.insert newVehicleData) = {
      object := (tracked.object.insert haversineDist newVehicleData).1
      stored :=
        if (tracked.object.insert haversineDist newVehicleData).2 = .phpInserted then
          (tracked.object.insert haversineDist newVehicleData).1.pDataArray
            tracked.object.nextIdx :: tracked.stored
        else tracked.stored } := by
  unfold step
  by_cases inserted : (tracked.object.insert haversineDist newVehicleData).2 = .phpInserted
  · simp only [inserted, if_true, insert_pDataArray_nextIdx haversineDist tracked.object
      newVehicleData inserted]
  · simp only [inserted, if_false]

/-- The ring holds the point stored last in the slot before the next one. -/
structure Latest (tracked : TrackedPHpoints) : Prop where
  positive : 0 < tracked.object.vectorReservedSize
  inside : tracked.object.nextIdx < tracked.object.vectorReservedSize
  latest : 1 ≤ tracked.object.phPointsSize → tracked.stored.head? =
    some (tracked.object.pDataArray
      (Ring.previous tracked.object.vectorReservedSize tracked.object.nextIdx))

theorem latest_of_constructed {tracked : TrackedPHpoints}
    (constructed : tracked.Constructed) : tracked.Latest := by
  rcases constructed with ⟨_, fresh⟩
  have fresh : ∃ memory distanceLimit minDistM maxDistM maxHeadingDiffDegs,
      0 < distanceLimit ∧ 0 < minDistM ∧ tracked.object =
        PHpoints.ofLimits memory distanceLimit minDistM maxDistM maxHeadingDiffDegs := by
    rcases fresh with ⟨memory, equal⟩ | fresh
    · exact ⟨memory, 300, 1, 20, 10, by decide, by decide,
        equal.trans (PHpoints.new_eq_ofLimits memory)⟩
    · exact fresh
  rcases fresh with ⟨memory, limit, spacing, _, _, limitPos, spacingPos, equal⟩
  have capacity : 0 < tracked.object.vectorReservedSize := by
    rw [equal]
    exact Nat.ceil_pos.mpr (div_pos limitPos spacingPos)
  refine ⟨capacity, ?_, fun nonempty => ?_⟩
  · simpa [equal, PHpoints.ofLimits] using capacity
  · simp [equal, PHpoints.ofLimits] at nonempty

theorem latest_store {tracked : TrackedPHpoints} (invariant : tracked.Latest)
    {removed : PHpoints} (removal : PHpoints.RemovedFrom tracked.object removed)
    (newVehicleData : VehicleData) (pointDist : ℚ) (stored : List PHData) :
    Latest {
      object := removed.store newVehicleData pointDist
      stored := (removed.store newVehicleData pointDist).pDataArray
        tracked.object.nextIdx :: stored } where
  positive := by
    simpa [PHpoints.store, removal.vectorReservedSize] using invariant.positive
  inside := by
    apply Ring.next_lt
    rw [removal.vectorReservedSize]
    exact invariant.positive
  latest := by
    intro _
    have inside := invariant.inside
    rw [← removal.nextIdx, ← removal.vectorReservedSize] at inside
    rw [List.head?_cons, ← removal.nextIdx]
    simp only [PHpoints.store, Ring.previous_next inside]

theorem latest_step (haversineDist : ℚ → ℚ → ℚ → ℚ → ℚ) {tracked : TrackedPHpoints}
    (invariant : tracked.Latest) (operation : PHOperation) :
    (tracked.step haversineDist operation).Latest := by
  cases operation with
  | insert newVehicleData =>
      rcases tracked.object.insert_cases haversineDist newVehicleData with
        ⟨_, equal⟩ | ⟨_, _, equal⟩ | ⟨_, _, removed, removal, equal⟩
      · simp only [step_insert, equal, if_true]
        exact latest_store invariant (.refl _) newVehicleData 0 tracked.stored
      · simpa [step_insert, equal] using invariant
      · simp only [step_insert, equal, if_true]
        exact latest_store invariant removal newVehicleData _ tracked.stored
  | clear =>
      exact ⟨invariant.positive, invariant.positive,
        fun nonempty => absurd nonempty (by simp [step, PHpoints.clear])⟩
  | switchRemoveOnlyOne =>
      rw [step, PHpoints.switchRemoveOnlyOne_eq]
      exact ⟨invariant.positive, invariant.inside, invariant.latest⟩
  | setPHMaxDist => exact ⟨invariant.positive, invariant.inside, invariant.latest⟩
  | setPHMaxHeadingDiff =>
      exact ⟨invariant.positive, invariant.inside, invariant.latest⟩
  | setIterateFull => exact ⟨invariant.positive, invariant.inside, invariant.latest⟩

theorem latest_run (haversineDist : ℚ → ℚ → ℚ → ℚ → ℚ) {start : TrackedPHpoints}
    (invariant : start.Latest) (operations : List PHOperation) :
    (start.run haversineDist operations).Latest := by
  induction operations generalizing start with
  | nil => exact invariant
  | cons operation rest induction =>
      exact induction (latest_step haversineDist invariant operation)

/-! ## The decision of `insert` -/

/-- The outcome of an insertion as a comparison with the point `latest`. -/
def DecidesAgainst (haversineDist : ℚ → ℚ → ℚ → ℚ → ℚ) (ph : PHpoints)
    (latest : PHData) (newVehicleData : VehicleData) : Prop :=
  let pointDist := haversineDist latest.lat latest.lon
    newVehicleData.lat newVehicleData.lon
  let result := ph.insert haversineDist newVehicleData
  (result = (ph, .phpSkipped) ↔ ph.Skips latest newVehicleData pointDist) ∧
  (¬ph.Skips latest newVehicleData pointDist →
    result.2 = .phpInserted ∧
    result.1.pDataArray ph.nextIdx = PHpoints.pointOf newVehicleData pointDist ∧
    result.1.nextIdx = Ring.next ph.vectorReservedSize ph.nextIdx)

/-- In a nonempty history the slot that `insert` reads is the one before the next
slot, except when the next slot is slot zero of a ring that is not full. -/
theorem prevIdx_eq_previous_iff (ph : PHpoints)
    (inside : ph.nextIdx < ph.vectorReservedSize) (nonempty : 1 ≤ ph.phPointsSize) :
    ph.prevIdx = Ring.previous ph.vectorReservedSize ph.nextIdx ↔
      ph.nextIdx ≠ 0 ∨ ph.phPointsSize = ph.vectorReservedSize := by
  by_cases wrapped : ph.nextIdx = 0
  · rw [PHpoints.prevIdx, if_pos wrapped, wrapped, Ring.previous_zero (by omega)]
    omega
  · rw [PHpoints.prevIdx, if_neg wrapped,
      Ring.previous_of_pos inside (Nat.pos_of_ne_zero wrapped)]
    exact iff_of_true rfl (.inl wrapped)

theorem decidesAgainst_previous (haversineDist : ℚ → ℚ → ℚ → ℚ → ℚ) (ph : PHpoints)
    (newVehicleData : VehicleData) (nonempty : 1 ≤ ph.phPointsSize) :
    DecidesAgainst haversineDist ph (ph.pDataArray ph.prevIdx) newVehicleData := by
  rcases ph.insert_cases haversineDist newVehicleData with
    ⟨empty, _⟩ | ⟨_, skips, equal⟩ | ⟨_, keeps, removed, removal, equal⟩
  · omega
  · exact ⟨iff_of_true equal skips, fun keeps => absurd skips keeps⟩
  · refine ⟨iff_of_false ?_ keeps, fun _ => ?_⟩
    · intro skipped
      have retvals : PHpointsRetval.phpInserted = .phpSkipped :=
        congrArg Prod.snd (equal.symm.trans skipped)
      cases retvals
    · rw [equal]
      refine ⟨rfl, ?_, ?_⟩
      · rw [← removal.nextIdx]
        exact removed.store_pDataArray_nextIdx newVehicleData _
      · rw [← removal.nextIdx, ← removal.vectorReservedSize]
        rfl

/-- In every reachable state an insertion into a nonempty history is decided
against the point stored last, unless the next slot has just wrapped around in a
ring that is not full. -/
theorem insert_decidesAgainst_latest (haversineDist : ℚ → ℚ → ℚ → ℚ → ℚ)
    {start : TrackedPHpoints} (constructed : start.Constructed)
    (operations : List PHOperation) (newVehicleData : VehicleData)
    (nonempty : 1 ≤ (start.run haversineDist operations).object.phPointsSize)
    (slot : (start.run haversineDist operations).object.nextIdx ≠ 0 ∨
      (start.run haversineDist operations).object.phPointsSize =
        (start.run haversineDist operations).object.vectorReservedSize) :
    ∃ latest, (start.run haversineDist operations).stored.head? = some latest ∧
      DecidesAgainst haversineDist (start.run haversineDist operations).object latest
        newVehicleData := by
  have invariant := latest_run haversineDist (latest_of_constructed constructed)
    operations
  have read := (prevIdx_eq_previous_iff _ invariant.inside nonempty).mpr slot
  refine ⟨_, invariant.latest nonempty, ?_⟩
  rw [← read]
  exact decidesAgainst_previous haversineDist _ newVehicleData nonempty

/-! Vehicles on a line of latitude, at distances equal to their differences. -/

def vehicleAt (lat : ℚ) : VehicleData := { (default : VehicleData) with lat := lat }

def lineDist (latA _ latB _ : ℚ) : ℚ := |latA - latB|

def shortHistory : TrackedPHpoints := ⟨PHpoints.ofLimits default 3 1 2 10, []⟩

theorem insert_decidesAgainst_latest_second :
    ∃ latest, (shortHistory.run lineDist [.insert (vehicleAt 0)]).stored.head? =
        some latest ∧
      DecidesAgainst lineDist
        (shortHistory.run lineDist [.insert (vehicleAt 0)]).object latest
        (vehicleAt 5) :=
  insert_decidesAgainst_latest lineDist
    ⟨rfl, .inr ⟨default, 3, 1, 2, 10, by decide, by decide, rfl⟩⟩
    [.insert (vehicleAt 0)] (vehicleAt 5) (by decide +kernel)
    (.inl (by decide +kernel))

/-- After three points and one removal the next slot is slot zero, and a vehicle
that has not moved is compared with the second point instead of the third. -/
theorem insert_not_decidesAgainst_latest :
    let tracked := shortHistory.run lineDist
      [.insert (vehicleAt 0), .insert (vehicleAt 5), .insert (vehicleAt 10)]
    let latest := PHpoints.pointOf (vehicleAt 10) 5
    tracked.stored.head? = some latest ∧ 1 ≤ tracked.object.phPointsSize ∧
      ¬DecidesAgainst lineDist tracked.object latest (vehicleAt 10) := by
  intro tracked latest
  refine ⟨by decide +kernel, by decide +kernel, fun decides => ?_⟩
  have skips : tracked.object.Skips latest (vehicleAt 10)
      (lineDist latest.lat latest.lon 10 0) := by decide +kernel
  have skipped := congrArg Prod.snd (decides.1.mpr skips)
  have inserted : (tracked.object.insert lineDist (vehicleAt 10)).2 = .phpInserted := by
    decide +kernel
  exact absurd (inserted.symm.trans skipped) (by decide)

end TrackedPHpoints

end AIM.Database
