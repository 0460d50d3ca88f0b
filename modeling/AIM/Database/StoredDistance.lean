import AIM.Database.LivePoints

namespace AIM.Database

/-! # The stored distance

`m_stored_distance` is a running sum of the distances of the live points. It is neither
initialised by the constructors nor reset by `clear`, and a point that is written over in
a full ring stays in it. -/

def distance (points : List PHData) : ℚ := (points.map PHData.pointDistance).sum

@[simp] theorem distance_nil : distance [] = 0 := rfl

@[simp] theorem distance_cons (point : PHData) (points : List PHData) :
    distance (point :: points) = point.pointDistance + distance points := by
  rw [distance, List.map_cons, List.sum_cons, distance]

theorem distance_take_succ {points : List PHData} {count : Nat} {point : PHData}
    (found : points[count]? = some point) :
    distance (points.take (count + 1)) =
      distance (points.take count) + point.pointDistance := by
  rw [List.take_add_one, found, Option.toList_some, distance, List.map_append,
    List.sum_append, distance]
  simp

namespace PHpoints

def Accounts (ph : PHpoints) : Prop := ph.storedDistance = distance ph.livePoints

instance (ph : PHpoints) : Decidable ph.Accounts := inferInstanceAs (Decidable (_ = _))

theorem removeOldest_accounts {ph : PHpoints} (accounts : ph.Accounts)
    (ends : ph.EndsAtOldest) (nonempty : 1 ≤ ph.phPointsSize) :
    ph.removeOldest.Accounts := by
  have last := distance_take_succ (ends.getLast? nonempty)
  rw [Nat.sub_add_cancel nonempty, List.take_of_length_le (by simp), ← accounts] at last
  rw [Accounts, (removeOldest_removedFrom ph).livePoints, removeOldest_phPointsSize]
  change ph.storedDistance - _ = _
  rw [last, add_sub_cancel_right]

theorem removeWhile_accounts (fuel : Nat) {ph : PHpoints} (accounts : ph.Accounts)
    (ends : ph.EndsAtOldest) : (removeWhile fuel ph).Accounts := by
  induction fuel generalizing ph with
  | zero => exact accounts
  | succ fuel induction =>
      rw [removeWhile]
      split
      · next condition =>
          have nonempty := condition.2.le
          exact induction (removeOldest_accounts accounts ends nonempty)
            (removeOldest_endsAtOldest ends nonempty)
      · exact accounts

theorem removeOld_accounts {ph : PHpoints} (accounts : ph.Accounts) (ends : ph.EndsAtOldest)
    (nonempty : 1 ≤ ph.phPointsSize) : ph.removeOld.Accounts := by
  rw [removeOld]
  split
  · split
    · exact removeOldest_accounts accounts ends nonempty
    · exact accounts
  · exact removeWhile_accounts _ accounts ends

/-- The policies differ in a history of one point. -/
def Removes (ph : PHpoints) : Prop :=
  ph.distanceLimit ≤ ph.storedDistance ∧ (ph.removeOnlyOne = true ∨ 2 ≤ ph.phPointsSize)

instance (ph : PHpoints) : Decidable ph.Removes := inferInstanceAs (Decidable (_ ∧ _))

theorem Removes.size_lt {ph : PHpoints} (removes : ph.Removes)
    (nonempty : 1 ≤ ph.phPointsSize) : ph.removeOld.phPointsSize < ph.phPointsSize := by
  rcases removes with ⟨long, onlyOne | several⟩
  · rw [removeOld, if_pos onlyOne, if_pos long, removeOldest_phPointsSize]
    omega
  · exact removeOld_size_lt long several

end PHpoints

namespace TrackedPHpoints

/-- The stored distance is the sum over the points stored last, as many as are live. -/
def StoresDistance (tracked : TrackedPHpoints) : Prop :=
  tracked.object.storedDistance =
    distance (tracked.stored.take tracked.object.phPointsSize)

instance (tracked : TrackedPHpoints) : Decidable tracked.StoresDistance :=
  inferInstanceAs (Decidable (_ = _))

section

variable (haversineDist : ℚ → ℚ → ℚ → ℚ → ℚ)

/-- What the sum relies on: a history is cleared at distance zero, and a point that is
stored in a full ring finds a history from which a point is removed. A ring of one slot
may also lose a point at distance zero. -/
def KeepsAccount (tracked : TrackedPHpoints) : PHOperation → Prop
  | .insert newVehicleData =>
      let previous := tracked.object.pDataArray tracked.object.prevIdx
      let pointDist := haversineDist previous.lat previous.lon
        newVehicleData.lat newVehicleData.lon
      ¬tracked.object.Skips previous newVehicleData pointDist →
      1 ≤ tracked.object.phPointsSize →
      tracked.object.phPointsSize = tracked.object.vectorReservedSize →
        tracked.object.Removes ∨
          (tracked.object.vectorReservedSize = 1 ∧
            (tracked.object.pDataArray tracked.object.nextIdx).pointDistance = 0)
  | .clear => tracked.object.storedDistance = 0
  | _ => True

instance (tracked : TrackedPHpoints) (operation : PHOperation) :
    Decidable (tracked.KeepsAccount haversineDist operation) :=
  match operation with
  | .insert _ => inferInstanceAs (Decidable (¬_ → _ → _ → _ ∨ _))
  | .clear => inferInstanceAs (Decidable (_ = _))
  | .switchRemoveOnlyOne | .setPHMaxDist _ | .setPHMaxHeadingDiff _ | .setIterateFull _ =>
      isTrue trivial

end

/-- The invariant of runs that keep the account. -/
structure Accounted (tracked : TrackedPHpoints) : Prop where
  ends : 0 < tracked.object.vectorReservedSize → tracked.object.EndsAtOldest
  size_le : tracked.object.phPointsSize ≤ tracked.object.vectorReservedSize
  accounts : tracked.object.Accounts

variable {haversineDist : ℚ → ℚ → ℚ → ℚ → ℚ} {tracked : TrackedPHpoints}

theorem Fresh.accounted {memory : UninitializedPHpoints} (fresh : tracked.Fresh memory)
    (initialised : memory.storedDistance = 0) : tracked.Accounted := by
  rcases fresh.object_eq with ⟨_, _, _, _, equal⟩
  refine ⟨?_, ?_, ?_⟩
  · rw [equal]
    intro positive
    exact ⟨positive, Nat.zero_le _, (Ring.back_zero positive).symm⟩
  · rw [equal]
    exact Nat.zero_le _
  · rw [equal, PHpoints.Accounts, PHpoints.livePoints_of_empty rfl]
    exact initialised

theorem accounted_store {removed : PHpoints} (accounts : removed.Accounts)
    (ends : removed.EndsAtOldest)
    (room : removed.phPointsSize < removed.vectorReservedSize ∨
      (removed.vectorReservedSize = 1 ∧ (removed.pDataArray removed.nextIdx).pointDistance = 0))
    (newVehicleData : VehicleData) (pointDist : ℚ) (stored : List PHData) :
    Accounted ⟨{ removed with
      storedDistance := removed.storedDistance + pointDist }.store newVehicleData pointDist,
      stored⟩ := by
  have lengthened : { removed with
      storedDistance := removed.storedDistance + pointDist }.EndsAtOldest :=
    ⟨ends.inside, ends.size_le, ends.oldest⟩
  have stays := endsAtOldest_store lengthened (room.imp id And.left) newVehicleData pointDist
  refine ⟨fun _ => stays, stays.size_le, ?_⟩
  have kept : distance (removed.livePoints.take (removed.vectorReservedSize - 1)) =
      removed.storedDistance := by
    rw [accounts]
    rcases room with room | ⟨single, weightless⟩
    · rw [List.take_of_length_le]
      rw [PHpoints.length_livePoints]
      omega
    · rw [single, Nat.sub_self, List.take_zero]
      -- The only position of the ring is also the next one.
      have position (steps : Nat) :
          Ring.back removed.vectorReservedSize removed.nextIdx steps = removed.nextIdx := by
        have inside := ends.inside
        rw [Ring.back, single, Nat.mod_one]
        omega
      rw [PHpoints.livePoints, Ring.contents]
      simp only [position, List.map_const', distance, List.map_replicate, weightless,
        List.sum_replicate, nsmul_zero, List.map_nil, List.sum_nil]
  rw [PHpoints.Accounts, PHpoints.livePoints_store lengthened.inside lengthened.size_le,
    distance_cons]
  change removed.storedDistance + pointDist =
    pointDist + distance (removed.livePoints.take (removed.vectorReservedSize - 1))
  rw [kept, add_comm]

theorem Accounted.unchanged (accounted : tracked.Accounted) {object : PHpoints}
    (same : PHpoints.RemovedFrom tracked.object object)
    (size : object.phPointsSize = tracked.object.phPointsSize)
    (oldest : object.oldestIdx = tracked.object.oldestIdx)
    (storedDistance : object.storedDistance = tracked.object.storedDistance) :
    Accounted ⟨object, tracked.stored⟩ := by
  refine ⟨?_, ?_, ?_⟩
  · rw [same.vectorReservedSize]
    intro positive
    have ends := accounted.ends positive
    refine ⟨?_, ?_, ?_⟩
    · rw [same.vectorReservedSize, same.nextIdx]
      exact ends.inside
    · rw [same.vectorReservedSize, size]
      exact ends.size_le
    · rw [oldest, size, PHpoints.slot, same.vectorReservedSize, same.nextIdx]
      exact ends.oldest
  · rw [same.vectorReservedSize, size]
    exact accounted.size_le
  · have accounts := accounted.accounts
    rw [PHpoints.Accounts, storedDistance, accounts, same.livePoints, List.take_of_length_le]
    rw [PHpoints.length_livePoints, size]

theorem Accounted.insert (accounted : tracked.Accounted) {newVehicleData : VehicleData}
    (slots : tracked.object.vectorReservedSize ≠ 0)
    (keepsAccount : tracked.KeepsAccount haversineDist (.insert newVehicleData)) :
    (tracked.step haversineDist (.insert newVehicleData)).Accounted := by
  have ends := accounted.ends (Nat.pos_of_ne_zero slots)
  rcases tracked.object.insert_cases haversineDist newVehicleData with
    ⟨empty, equal⟩ | ⟨_, _, equal⟩ | ⟨nonempty, keeps, _⟩
  · have stored := accounted_store accounted.accounts ends (.inl (by omega)) newVehicleData 0
    simp only [add_zero] at stored
    simp only [step_insert, equal]
    exact stored _
  · simp only [step_insert, equal]
    exact accounted
  · rcases PHpoints.insert_of_keeps haversineDist nonempty keeps with ⟨pointDist, equal⟩
    simp only [step_insert, equal]
    have removal := PHpoints.removeOld_removedFrom tracked.object
    apply accounted_store
    · exact PHpoints.removeOld_accounts accounted.accounts ends nonempty
    · exact PHpoints.removeOld_endsAtOldest ends nonempty
    · rw [removal.vectorReservedSize, removal.nextIdx, removal.pDataArray]
      have fewer := removal.size_le
      by_cases full : tracked.object.phPointsSize = tracked.object.vectorReservedSize
      · apply (keepsAccount keeps nonempty full).imp
        · intro removes
          exact (removes.size_lt nonempty).trans_le full.le
        · exact id
      · have size := accounted.size_le
        left
        omega

theorem Accounted.perform (accounted : tracked.Accounted) {operation : PHOperation}
    (keepsAccount : tracked.KeepsAccount haversineDist operation) {next : TrackedPHpoints}
    (performed : tracked.perform haversineDist operation = some next) : next.Accounted := by
  cases operation with
  | insert newVehicleData =>
      by_cases none : tracked.object.vectorReservedSize = 0
      · rw [TrackedPHpoints.perform, if_pos none] at performed
        cases performed
      · rw [TrackedPHpoints.perform, if_neg none] at performed
        cases performed
        exact accounted.insert none keepsAccount
  | clear =>
      cases performed
      refine ⟨?_, Nat.zero_le _, ?_⟩
      · intro positive
        exact ⟨positive, Nat.zero_le _, (Ring.back_zero positive).symm⟩
      · rw [PHpoints.Accounts, PHpoints.livePoints_of_empty rfl]
        exact keepsAccount
  | switchRemoveOnlyOne =>
      cases performed
      rw [step, PHpoints.switchRemoveOnlyOne_eq]
      exact accounted.unchanged ⟨rfl, rfl, rfl, Nat.le_refl _⟩ rfl rfl rfl
  | setPHMaxDist | setPHMaxHeadingDiff | setIterateFull =>
      cases performed
      exact accounted.unchanged ⟨rfl, rfl, rfl, Nat.le_refl _⟩ rfl rfl rfl

/-- From a constructed object whose distance happens to be zero, the stored distance is
the sum over the live points as long as every operation keeps the account. -/
theorem run_storesDistance (haversineDist : ℚ → ℚ → ℚ → ℚ → ℚ)
    (memory : UninitializedPHpoints) (start : TrackedPHpoints) (fresh : start.Fresh memory)
    (initialised : memory.storedDistance = 0) (operations : List PHOperation)
    (keepsAccount : Execution.Always (TrackedPHpoints.perform haversineDist)
      (KeepsAccount haversineDist) start operations)
    (final : TrackedPHpoints)
    (reached : Execution.run (TrackedPHpoints.perform haversineDist) start operations =
      some final) : final.StoresDistance := by
  have accounted : final.Accounted := by
    refine keepsAccount.run_invariant Accounted ?_ (fresh.accounted initialised) reached
    intro tracked operation next accounted guard performed
    exact accounted.perform guard performed
  rw [StoresDistance, ← (fresh.filled.run reached).live]
  exact accounted.accounts

/-- A vehicle that moves ten metres in a ring of three slots. -/
theorem run_storesDistance_short : ∃ final,
    Execution.run (TrackedPHpoints.perform lineDist) shortHistory
      [.insert (vehicleAt 0), .insert (vehicleAt 5), .insert (vehicleAt 10)] = some final ∧
    final.object.storedDistance = 10 ∧ final.StoresDistance := by
  have reached := (Option.some_get (show (Execution.run (TrackedPHpoints.perform lineDist)
    shortHistory [.insert (vehicleAt 0), .insert (vehicleAt 5), .insert (vehicleAt 10)]).isSome
    by decide +kernel)).symm
  exact ⟨_, reached, by decide +kernel, run_storesDistance lineDist default shortHistory
    ⟨rfl, .inr ⟨3, 1, 2, 10, rfl⟩⟩ rfl _ (by decide +kernel) _ reached⟩

/-- A new object keeps what its memory held, and a cleared one what it had stored. -/
theorem not_storesDistance_of_fresh_or_cleared :
    ¬StoresDistance ⟨PHpoints.new ⟨5, default⟩, []⟩ ∧
    ∃ final, Execution.run (TrackedPHpoints.perform lineDist) ⟨PHpoints.new default, []⟩
        [.insert (vehicleAt 0), .insert (vehicleAt 20), .clear] = some final ∧
      final.object.phPointsSize = 0 ∧ ¬final.StoresDistance :=
  ⟨by decide, _, (Option.some_get (by decide +kernel)).symm, by decide +kernel,
    by decide +kernel⟩

end TrackedPHpoints

end AIM.Database
