import AIM.Database.LatestPoint
import AIM.Foundation.Execution

namespace AIM.Database

/-! # The window of stored points

The points stored last fill the slots before the next one, and the index of the
oldest point is where they end. -/

namespace PHpoints

def slot (ph : PHpoints) (count : Nat) : Nat :=
  Ring.back ph.vectorReservedSize ph.nextIdx count

/-- The index of the oldest point and the size agree, also in an empty history. -/
structure EndsAtOldest (ph : PHpoints) : Prop where
  inside : ph.nextIdx < ph.vectorReservedSize
  size_le : ph.phPointsSize ≤ ph.vectorReservedSize
  oldest : ph.oldestIdx = ph.slot ph.phPointsSize

theorem removeOldest_endsAtOldest {ph : PHpoints} (ends : ph.EndsAtOldest)
    (nonempty : 1 ≤ ph.phPointsSize) : ph.removeOldest.EndsAtOldest where
  inside := ends.inside
  size_le := (Nat.sub_le _ _).trans ends.size_le
  oldest := by
    have size : ph.phPointsSize - 1 + 1 = ph.phPointsSize := Nat.sub_add_cancel nonempty
    have turn := ends.size_le
    rw [← size] at turn
    change Ring.next ph.vectorReservedSize ph.oldestIdx =
      Ring.back ph.vectorReservedSize ph.nextIdx (ph.phPointsSize - 1)
    rw [← Ring.next_back ends.inside turn, size, ends.oldest]
    rfl

theorem removeWhile_endsAtOldest (fuel : Nat) {ph : PHpoints} (ends : ph.EndsAtOldest) :
    (removeWhile fuel ph).EndsAtOldest := by
  induction fuel generalizing ph with
  | zero => exact ends
  | succ fuel induction =>
      unfold removeWhile
      split
      · next condition =>
          apply induction
          exact removeOldest_endsAtOldest ends condition.2.le
      · exact ends

theorem removeOld_endsAtOldest {ph : PHpoints} (ends : ph.EndsAtOldest)
    (nonempty : 1 ≤ ph.phPointsSize) : ph.removeOld.EndsAtOldest := by
  unfold removeOld
  split
  · split
    · exact removeOldest_endsAtOldest ends nonempty
    · exact ends
  · exact removeWhile_endsAtOldest _ ends

/-! Both policies remove a point from a long history, and none from a short one. -/

theorem removeOld_of_short {ph : PHpoints} (short : ph.storedDistance < ph.distanceLimit) :
    ph.removeOld = ph := by
  have condition : ¬ph.distanceLimit ≤ ph.storedDistance := not_le.mpr short
  by_cases onlyOne : ph.removeOnlyOne = true
  · rw [removeOld, if_pos onlyOne, if_neg condition]
  · rw [removeOld, if_neg onlyOne]
    cases ph.phPointsSize with
    | zero => rfl
    | succ fuel => exact if_neg fun both => condition both.1

theorem removeOld_size_lt {ph : PHpoints} (long : ph.distanceLimit ≤ ph.storedDistance)
    (several : 2 ≤ ph.phPointsSize) : ph.removeOld.phPointsSize < ph.phPointsSize := by
  have shorter : ph.removeOldest.phPointsSize < ph.phPointsSize := by
    rw [removeOldest_phPointsSize]
    omega
  by_cases onlyOne : ph.removeOnlyOne = true
  · rw [removeOld, if_pos onlyOne, if_pos long]
    exact shorter
  · rw [removeOld, if_neg onlyOne]
    cases size : ph.phPointsSize with
    | zero => omega
    | succ fuel =>
        have removal := removeWhile_removedFrom fuel ph.removeOldest
        rw [removeWhile, if_pos ⟨long, several⟩, ← size]
        exact removal.size_le.trans_lt shorter

theorem insert_of_keeps (haversineDist : ℚ → ℚ → ℚ → ℚ → ℚ) {ph : PHpoints}
    {newVehicleData : VehicleData} (nonempty : 1 ≤ ph.phPointsSize)
    (keeps : ¬ph.Skips (ph.pDataArray ph.prevIdx) newVehicleData
      (haversineDist (ph.pDataArray ph.prevIdx).lat (ph.pDataArray ph.prevIdx).lon
        newVehicleData.lat newVehicleData.lon)) :
    ∃ pointDist, ph.insert haversineDist newVehicleData =
      ({ ph.removeOld with
        storedDistance := ph.removeOld.storedDistance + pointDist }.store newVehicleData
          pointDist, .phpInserted) := by
  exists haversineDist (ph.pDataArray ph.prevIdx).lat (ph.pDataArray ph.prevIdx).lon
    newVehicleData.lat newVehicleData.lon
  rw [insert, if_pos nonempty]
  exact if_neg keeps

theorem store_phPointsSize (ph : PHpoints) (newVehicleData : VehicleData) (pointDist : ℚ) :
    (ph.store newVehicleData pointDist).phPointsSize =
      if ph.phPointsSize < ph.vectorReservedSize then ph.phPointsSize + 1
      else ph.phPointsSize := rfl

theorem store_slot (ph : PHpoints) (newVehicleData : VehicleData) (pointDist : ℚ)
    (count : Nat) :
    (ph.store newVehicleData pointDist).slot count =
      Ring.back ph.vectorReservedSize (Ring.next ph.vectorReservedSize ph.nextIdx) count := rfl

end PHpoints

namespace TrackedPHpoints

/-- The size fits the ring, the slots before the next one hold the points stored
last, and the index of the oldest point is the last of these slots. -/
structure Represents (tracked : TrackedPHpoints) : Prop where
  size_le : tracked.object.phPointsSize ≤ tracked.object.vectorReservedSize
  slots : ∀ count, 1 ≤ count → count ≤ tracked.object.phPointsSize →
    tracked.stored[count - 1]? =
      some (tracked.object.pDataArray (tracked.object.slot count))
  oldest : 1 ≤ tracked.object.phPointsSize →
    tracked.object.oldestIdx = tracked.object.slot tracked.object.phPointsSize

section

variable (haversineDist : ℚ → ℚ → ℚ → ℚ → ℚ)

def KeepsWindow (tracked : TrackedPHpoints) (operation : PHOperation) : Prop :=
  (tracked.step haversineDist operation).Represents

/-- A point that is stored in a full ring of several slots finds a history that is
long enough for the oldest point to be removed. -/
def MakesRoom (tracked : TrackedPHpoints) : PHOperation → Prop
  | .insert newVehicleData =>
      let previous := tracked.object.pDataArray tracked.object.prevIdx
      let pointDist := haversineDist previous.lat previous.lon
        newVehicleData.lat newVehicleData.lon
      ¬tracked.object.Skips previous newVehicleData pointDist →
      tracked.object.phPointsSize = tracked.object.vectorReservedSize →
      2 ≤ tracked.object.vectorReservedSize →
        tracked.object.distanceLimit ≤ tracked.object.storedDistance
  | _ => True

end

/-- The invariant of runs in which every insertion makes room. -/
structure Window (tracked : TrackedPHpoints) : Prop where
  ends : tracked.object.EndsAtOldest
  slots : ∀ count, 1 ≤ count → count ≤ tracked.object.phPointsSize →
    tracked.stored[count - 1]? =
      some (tracked.object.pDataArray (tracked.object.slot count))

theorem Window.represents {tracked : TrackedPHpoints} (window : tracked.Window) :
    tracked.Represents where
  size_le := window.ends.size_le
  slots := window.slots
  oldest _ := window.ends.oldest

theorem window_ofLimits (memory : UninitializedPHpoints)
    (distanceLimit minDistM maxDistM maxHeadingDiffDegs : ℚ)
    (capacity : 1 ≤ ⌈distanceLimit / minDistM⌉₊) :
    Window ⟨PHpoints.ofLimits memory distanceLimit minDistM maxDistM maxHeadingDiffDegs,
      []⟩ where
  ends.inside := capacity
  ends.size_le := Nat.zero_le _
  ends.oldest := (Ring.back_zero capacity).symm
  slots _ positive few := absurd (positive.trans few) (Nat.not_succ_le_zero 0)

/-! ## Storing a point -/

theorem endsAtOldest_store {removed : PHpoints} (ends : removed.EndsAtOldest)
    (room : removed.phPointsSize < removed.vectorReservedSize ∨
      removed.vectorReservedSize = 1)
    (newVehicleData : VehicleData) (pointDist : ℚ) :
    (removed.store newVehicleData pointDist).EndsAtOldest := by
  have inside := ends.inside
  have size := ends.size_le
  refine ⟨Ring.next_lt (by omega) _, ?_, ?_⟩
  · rw [PHpoints.store_phPointsSize]
    change _ ≤ removed.vectorReservedSize
    split <;> omega
  · rw [PHpoints.store_slot, PHpoints.store_phPointsSize]
    change removed.oldestIdx = _
    split
    · next fits =>
        rw [Ring.back_next inside fits]
        exact ends.oldest
    · next full =>
        -- All positions of a ring with a single slot are the same.
        have single : removed.vectorReservedSize = 1 := room.resolve_left full
        have oldest := ends.oldest
        rw [PHpoints.slot, Ring.back, single, Nat.mod_one] at oldest
        rw [oldest, Ring.back, single, Nat.mod_one]

theorem Window.store {tracked : TrackedPHpoints} (window : tracked.Window)
    {removed : PHpoints} (removal : PHpoints.RemovedFrom tracked.object removed)
    (ends : removed.EndsAtOldest)
    (room : removed.phPointsSize < removed.vectorReservedSize ∨
      removed.vectorReservedSize = 1)
    (newVehicleData : VehicleData) (pointDist : ℚ) :
    Window {
      object := removed.store newVehicleData pointDist
      stored := (removed.store newVehicleData pointDist).pDataArray
        tracked.object.nextIdx :: tracked.stored } where
  ends := endsAtOldest_store ends room newVehicleData pointDist
  slots := by
    intro count positive few
    have inside := ends.inside
    have size := ends.size_le
    rw [PHpoints.store_phPointsSize] at few
    rw [PHpoints.store_slot]
    change _ = some (Function.update removed.pDataArray removed.nextIdx _ _)
    cases count with
    | zero => omega
    | succ earlier =>
        rcases Nat.eq_zero_or_pos earlier with rfl | before
        · rw [Ring.back_next_one inside, Function.update_self, ← removal.nextIdx]
          exact congrArg some (removed.store_pDataArray_nextIdx newVehicleData pointDist)
        · have within : earlier + 1 ≤ removed.vectorReservedSize := by
            split at few <;> omega
          have older : earlier ≤ removed.phPointsSize := by
            split at few <;> omega
          have kept := window.slots earlier before (older.trans removal.size_le)
          rw [PHpoints.slot, ← removal.nextIdx, ← removal.vectorReservedSize,
            ← removal.pDataArray] at kept
          rw [Ring.back_next inside within,
            Function.update_of_ne (Ring.back_ne inside before within), ← kept,
            Nat.add_sub_cancel]
          cases earlier with
          | zero => omega
          | succ => rfl

/-! ## Runs -/

variable {haversineDist : ℚ → ℚ → ℚ → ℚ → ℚ} {tracked : TrackedPHpoints}

theorem Window.insert (window : tracked.Window) {newVehicleData : VehicleData}
    (room : tracked.MakesRoom haversineDist (.insert newVehicleData)) :
    (tracked.step haversineDist (.insert newVehicleData)).Window := by
  rcases tracked.object.insert_cases haversineDist newVehicleData with
    ⟨empty, equal⟩ | ⟨_, _, equal⟩ | ⟨nonempty, keeps, _⟩
  · simp only [step_insert, equal, if_true]
    refine window.store (.refl _) window.ends (.inl ?_) newVehicleData 0
    have inside := window.ends.inside
    omega
  · simpa [step_insert, equal] using window
  · rcases PHpoints.insert_of_keeps haversineDist nonempty keeps with ⟨pointDist, equal⟩
    have removal := PHpoints.removeOld_removedFrom tracked.object
    have ends := PHpoints.removeOld_endsAtOldest window.ends nonempty
    simp only [step_insert, equal, if_true]
    apply window.store
    · exact ⟨removal.nextIdx, removal.vectorReservedSize, removal.pDataArray,
        removal.size_le⟩
    · exact ⟨ends.inside, ends.size_le, ends.oldest⟩
    · have fewer := removal.size_le
      have size := window.ends.size_le
      have capacity := removal.vectorReservedSize
      change tracked.object.removeOld.phPointsSize <
          tracked.object.removeOld.vectorReservedSize ∨
        tracked.object.removeOld.vectorReservedSize = 1
      by_cases full : tracked.object.phPointsSize = tracked.object.vectorReservedSize
      · by_cases several : 2 ≤ tracked.object.vectorReservedSize
        · have removed := PHpoints.removeOld_size_lt (room keeps full several) (by omega)
          omega
        · omega
      · omega

theorem Window.step (window : tracked.Window) {operation : PHOperation}
    (room : tracked.MakesRoom haversineDist operation) :
    (tracked.step haversineDist operation).Window := by
  cases operation with
  | insert newVehicleData => exact window.insert room
  | clear =>
      have positive : 0 < tracked.object.vectorReservedSize :=
        (Nat.zero_le _).trans_lt window.ends.inside
      exact ⟨⟨positive, Nat.zero_le _, (Ring.back_zero positive).symm⟩,
        fun _ positive few => absurd (positive.trans few) (Nat.not_succ_le_zero 0)⟩
  | switchRemoveOnlyOne =>
      rw [TrackedPHpoints.step, PHpoints.switchRemoveOnlyOne_eq]
      exact ⟨⟨window.ends.inside, window.ends.size_le, window.ends.oldest⟩, window.slots⟩
  | setPHMaxDist =>
      exact ⟨⟨window.ends.inside, window.ends.size_le, window.ends.oldest⟩, window.slots⟩
  | setPHMaxHeadingDiff =>
      exact ⟨⟨window.ends.inside, window.ends.size_le, window.ends.oldest⟩, window.slots⟩
  | setIterateFull =>
      exact ⟨⟨window.ends.inside, window.ends.size_le, window.ends.oldest⟩, window.slots⟩

/-- Without room the oldest point is written over, but its index stays. -/
theorem Window.not_keepsWindow (window : tracked.Window) {newVehicleData : VehicleData}
    (noRoom : ¬tracked.MakesRoom haversineDist (.insert newVehicleData)) :
    ¬tracked.KeepsWindow haversineDist (.insert newVehicleData) := by
  intro keepsWindow
  apply noRoom
  intro keeps full several
  by_contra short
  have nonempty : 1 ≤ tracked.object.phPointsSize := by omega
  rcases PHpoints.insert_of_keeps haversineDist nonempty keeps with ⟨pointDist, equal⟩
  rw [PHpoints.removeOld_of_short (not_le.mp short)] at equal
  have oldest := keepsWindow.oldest
  simp only [TrackedPHpoints.step, equal, PHpoints.store, PHpoints.slot, full,
    Nat.lt_irrefl, if_false] at oldest
  have before := window.ends.oldest
  rw [PHpoints.slot, full, Ring.back_capacity window.ends.inside] at before
  rw [before, Ring.back_capacity (Ring.next_lt (by omega) _),
    Ring.next_eq window.ends.inside] at oldest
  have nonempty := oldest (by omega)
  split at nonempty <;> omega

theorem Window.keepsWindow_iff (window : tracked.Window) (operation : PHOperation) :
    tracked.KeepsWindow haversineDist operation ↔
      tracked.MakesRoom haversineDist operation := by
  constructor
  · intro keepsWindow
    cases operation with
    | insert =>
        by_contra noRoom
        exact window.not_keepsWindow noRoom keepsWindow
    | clear | switchRemoveOnlyOne | setPHMaxDist | setPHMaxHeadingDiff | setIterateFull =>
        trivial
  · intro room
    exact (window.step room).represents

/-- The ring represents the points stored last throughout a run exactly when every
point stored in a full ring of several slots finds a history as long as the limit. -/
theorem run_keepsWindow_iff (haversineDist : ℚ → ℚ → ℚ → ℚ → ℚ)
    (memory : UninitializedPHpoints)
    (distanceLimit minDistM maxDistM maxHeadingDiffDegs : ℚ)
    (capacity : 1 ≤ ⌈distanceLimit / minDistM⌉₊) (operations : List PHOperation) :
    let start : TrackedPHpoints :=
      ⟨PHpoints.ofLimits memory distanceLimit minDistM maxDistM maxHeadingDiffDegs, []⟩
    Execution.Always (fun tracked operation => some (tracked.step haversineDist operation))
        (KeepsWindow haversineDist) start operations ↔
      Execution.Always
        (fun tracked operation => some (tracked.step haversineDist operation))
        (MakesRoom haversineDist) start operations := by
  apply Execution.Always.iff_of_invariant Window fun _ => True
  · intro tracked operation next window _ room taken
    cases taken
    exact window.step room
  · intro tracked operation window _
    exact window.keepsWindow_iff operation
  · exact window_ofLimits memory _ _ _ _ capacity
  · exact fun _ _ => trivial

theorem run_keepsWindow_iff_short :
    Execution.Always (fun tracked operation => some (step lineDist tracked operation))
        (KeepsWindow lineDist) shortHistory [.insert (vehicleAt 0)] ↔
      Execution.Always (fun tracked operation => some (step lineDist tracked operation))
        (MakesRoom lineDist) shortHistory [.insert (vehicleAt 0)] :=
  run_keepsWindow_iff lineDist default 3 1 2 10 (by decide +kernel) [.insert (vehicleAt 0)]

/-! A vehicle that turns left and right at every metre of a straight line. -/

def turnAt (metre : Nat) : PHOperation :=
  .insert { (default : VehicleData) with
    lat := metre
    heading := if metre % 2 = 0 then 0 else 90 }

def zigzag (metres : Nat) : List PHOperation := (List.range metres).map turnAt

theorem zigzag_succ (metres : Nat) : zigzag (metres + 1) = zigzag metres ++ [turnAt metres] := by
  simp [zigzag, List.range_succ]

/-- With the default limits 300 points at distances of one metre fill the ring with a
history of 299 metres, and the next point takes the slot of the oldest one. -/
theorem not_keepsWindow_of_full :
    ¬Execution.Always (fun tracked operation => some (step lineDist tracked operation))
      (KeepsWindow lineDist) ⟨PHpoints.new default, []⟩ (zigzag 301) := by
  intro always
  rw [zigzag_succ] at always
  have last := always.after (zigzag 300) (Option.some_get (by decide +kernel)).symm
  have oldest := last.1.oldest (by decide +kernel)
  exact absurd oldest (by decide +kernel)

end TrackedPHpoints

end AIM.Database
