import AIM.Database.WellFormed

namespace AIM.Database.LDMMap

/-! # The stored stations

The stationIDs in the records of the database, and what the steps of an insertion and of a
deletion do to them when other threads run in between. -/

/-- The records of one lower map, as `executeOnAllContents` passes them to the callback. -/
def lowerContents (map : LDMMap) (upper : UInt32) : List VehicleData :=
  match map.ldmmap.lookup upper with
  | none => []
  | some lowerMap => lowerMap.entries.map fun entry => entry.2.vehData

def stationIDs (map : LDMMap) : Set UInt64 :=
  { id | ∃ upper lower stored, map.ldmmap.find upper lower = some stored ∧
    stored.vehData.stationID = id }

variable {map : LDMMap}

theorem mem_lowerContents_iff (upper : UInt32) (vehdata : VehicleData) :
    vehdata ∈ map.lowerContents upper ↔ ∃ lower stored,
      map.ldmmap.find upper lower = some stored ∧ stored.vehData = vehdata := by
  unfold lowerContents
  cases found : map.ldmmap.lookup upper with
  | none => simp [NestedMap.find, found]
  | some lowerMap =>
      simp only [List.mem_map, NestedMap.find_of_lookup found]
      constructor
      · rintro ⟨⟨lower, stored⟩, member, equal⟩
        exact ⟨lower, stored, AList.mem_lookup_iff.mpr member, equal⟩
      · rintro ⟨lower, stored, entry, equal⟩
        exact ⟨⟨lower, stored⟩, AList.mem_lookup_iff.mp entry, equal⟩

theorem mem_stationIDs_of_mem_lowerContents {upper : UInt32} {vehdata : VehicleData}
    (member : vehdata ∈ map.lowerContents upper) : vehdata.stationID ∈ map.stationIDs := by
  rcases (mem_lowerContents_iff upper vehdata).mp member with ⟨lower, stored, found, rfl⟩
  exact ⟨upper, lower, stored, found, rfl⟩

theorem exists_lowerContents {id : UInt64} (member : id ∈ map.stationIDs) :
    ∃ upper ∈ map.ldmmap.keys, ∃ vehdata ∈ map.lowerContents upper,
      vehdata.stationID = id := by
  rcases member with ⟨upper, lower, stored, found, rfl⟩
  refine ⟨upper, NestedMap.mem_keys_of_find found, stored.vehData, ?_, rfl⟩
  exact (mem_lowerContents_iff upper stored.vehData).mpr ⟨lower, stored, found, rfl⟩

theorem Keyed.insertWrite (isKeyed : map.Keyed) {newVehicleData : VehicleData}
    (inRange : InRange newVehicleData.stationID) {decision : InsertDecision}
    (ready : map.Ready newVehicleData decision) :
    (map.insertWrite newVehicleData decision).Keyed where
  keyed := by
    intro upper lower stored found
    rw [insertWrite_find ready] at found
    split at found
    · next same =>
        cases found
        rw [writtenEntry_vehData]
        exact ⟨inRange, same.1.symm, same.2.symm⟩
    · exact isKeyed.keyed found

theorem Keyed.stationIDs_insertWrite (isKeyed : map.Keyed) {newVehicleData : VehicleData}
    (inRange : InRange newVehicleData.stationID) {decision : InsertDecision}
    (ready : map.Ready newVehicleData decision) :
    map.stationIDs ⊆ (map.insertWrite newVehicleData decision).stationIDs := by
  rintro id ⟨upper, lower, stored, found, rfl⟩
  have find := insertWrite_find ready upper lower
  by_cases same : upper = keyUpper newVehicleData.stationID ∧
      lower = keyLower newVehicleData.stationID
  · refine ⟨upper, lower, _, find.trans (if_pos same), ?_⟩
    rw [same.1, same.2] at found
    rw [writtenEntry_vehData]
    exact (isKeyed.entry_stationID inRange found).symm
  · exact ⟨upper, lower, stored, find.trans ((if_neg same).trans found), rfl⟩

theorem Keyed.stationIDs_sweepLower (isKeyed : map.Keyed) (now : UInt64)
    (timeMilliseconds : ℚ) (upper : UInt32) :
    (sweepLower now timeMilliseconds (map, []) upper).1.stationIDs =
      map.stationIDs \ { id | id ∈ (sweepLower now timeMilliseconds (map, []) upper).2 } := by
  ext id
  constructor
  · rintro ⟨otherUpper, lower, stored, remains, rfl⟩
    rcases (sweepLower_find_eq_some_iff _ _ _ _ _ _ _).mp remains with ⟨found, young⟩
    refine ⟨⟨otherUpper, lower, stored, found, rfl⟩, ?_⟩
    intro called
    rcases (sweepLower_called _ _ _ _ _).mp called with
      inside | ⟨otherLower, other, otherFound, old, equal⟩
    · cases inside
    · rcases isKeyed.keyed found with ⟨_, rfl, rfl⟩
      rcases isKeyed.keyed otherFound with ⟨_, rfl, rfl⟩
      rw [equal] at otherFound
      cases found.symm.trans otherFound
      cases old.symm.trans (young (congrArg keyUpper equal).symm)
  · rintro ⟨⟨otherUpper, lower, stored, found, rfl⟩, notCalled⟩
    refine ⟨otherUpper, lower, stored, ?_, rfl⟩
    apply (sweepLower_find_eq_some_iff _ _ _ _ _ _ _).mpr
    refine ⟨found, fun same => ?_⟩
    subst same
    by_contra old
    exact notCalled ((sweepLower_called _ _ _ _ _).mpr
      (.inr ⟨lower, stored, found, Bool.not_eq_false _ ▸ old, rfl⟩))

end AIM.Database.LDMMap
