import AIM.Database.Operations

namespace AIM.Database

/-! # Enumeration and lookup

`rangeSelect` visits all entries and never looks at their keys, while `lookup` never
looks at the stored stationID. They agree because entries stay under the split key of
their stationID. -/

namespace LDMMap

section

variable (haversineDist : ℚ → ℚ → ℚ → ℚ → ℚ)

def rangeSelect (map : LDMMap) (rangeM lat lon : ℚ)
    (selectedVehicles : List ReturnedVehicleData) :
    LDMMapError × List ReturnedVehicleData :=
  (.ldmmapOk, map.ldmmap.entries.foldl (fun selected upper =>
    upper.2.entries.foldl (fun selected entry =>
      if haversineDist lat lon entry.2.vehData.lat entry.2.vehData.lon ≤ rangeM then
        selected ++ [entry.2]
      else selected) selected) selectedVehicles)

/-- The overload that takes the position of a station. -/
def rangeSelectAround (map : LDMMap) (rangeM : ℚ) (stationID : UInt64)
    (selectedVehicles : List ReturnedVehicleData) :
    LDMMapError × List ReturnedVehicleData :=
  let retData := map.lookup stationID
  if retData.1 ≠ .ldmmapOk then (.ldmmapItemNotFound, selectedVehicles)
  else
    map.rangeSelect haversineDist rangeM (retData.2.getD default).vehData.lat
      (retData.2.getD default).vehData.lon selectedVehicles

def Within (rangeM lat lon : ℚ) (stored : ReturnedVehicleData) : Prop :=
  haversineDist lat lon stored.vehData.lat stored.vehData.lon ≤ rangeM

instance (rangeM lat lon : ℚ) (stored : ReturnedVehicleData) :
    Decidable (Within haversineDist rangeM lat lon stored) :=
  inferInstanceAs (Decidable (_ ≤ _))

def selection (map : LDMMap) (rangeM lat lon : ℚ) : List ReturnedVehicleData :=
  ((NestedMap.toList map.ldmmap).map Prod.snd).filter fun stored =>
    Within haversineDist rangeM lat lon stored

/-- A list with exactly one element for each station that is found within the range,
the one that the lookup returns. -/
structure Selects (map : LDMMap) (rangeM lat lon : ℚ)
    (selected : List ReturnedVehicleData) : Prop where
  complete : ∀ {stationID stored}, InRange stationID →
    map.lookup stationID = (.ldmmapOk, some stored) →
    Within haversineDist rangeM lat lon stored →
      stored ∈ selected ∧ stored.vehData.stationID = stationID
  sound : ∀ stored ∈ selected, InRange stored.vehData.stationID ∧
    map.lookup stored.vehData.stationID = (.ldmmapOk, some stored) ∧
    Within haversineDist rangeM lat lon stored
  distinct : (selected.map fun stored => stored.vehData.stationID).Nodup

end

variable (haversineDist : ℚ → ℚ → ℚ → ℚ → ℚ) (map : LDMMap)

private theorem foldl_select {Key : Type} (rangeM lat lon : ℚ)
    (entries : List (Σ _ : Key, ReturnedVehicleData))
    (selectedVehicles : List ReturnedVehicleData) :
    entries.foldl (fun selected entry =>
        if haversineDist lat lon entry.2.vehData.lat entry.2.vehData.lon ≤ rangeM then
          selected ++ [entry.2]
        else selected) selectedVehicles =
      selectedVehicles ++ (entries.map Sigma.snd).filter fun stored =>
        Within haversineDist rangeM lat lon stored := by
  induction entries generalizing selectedVehicles with
  | nil => simp
  | cons entry rest induction =>
      rw [List.foldl_cons, induction, List.map_cons, List.filter_cons]
      by_cases within :
          haversineDist lat lon entry.2.vehData.lat entry.2.vehData.lon ≤ rangeM
      · simp [Within, within]
      · simp [Within, within]

theorem rangeSelect_eq (rangeM lat lon : ℚ) (selectedVehicles : List ReturnedVehicleData) :
    map.rangeSelect haversineDist rangeM lat lon selectedVehicles =
      (.ldmmapOk, selectedVehicles ++ map.selection haversineDist rangeM lat lon) := by
  rw [rangeSelect, selection, NestedMap.toList]
  congr 1
  generalize map.ldmmap.entries = entries
  induction entries generalizing selectedVehicles with
  | nil => simp
  | cons entry rest induction =>
      rw [List.foldl_cons, foldl_select, induction, List.flatMap_cons, List.map_append,
        List.filter_append, List.append_assoc]
      simp [Function.comp_def]

theorem mem_selection_iff (rangeM lat lon : ℚ) (stored : ReturnedVehicleData) :
    stored ∈ map.selection haversineDist rangeM lat lon ↔
      (∃ upper lower, map.ldmmap.find upper lower = some stored) ∧
        Within haversineDist rangeM lat lon stored := by
  rw [selection, List.mem_filter, decide_eq_true_iff, List.mem_map]
  apply and_congr_left
  intro _
  constructor
  · rintro ⟨⟨⟨upper, lower⟩, value⟩, member, rfl⟩
    exact ⟨upper, lower, (NestedMap.mem_toList_iff _ _ _ _).mp member⟩
  · rintro ⟨upper, lower, found⟩
    exact ⟨((upper, lower), stored), (NestedMap.mem_toList_iff _ _ _ _).mpr found, rfl⟩

variable {map}

theorem lookup_eq_ok_iff {stationID : UInt64} {stored : ReturnedVehicleData} :
    map.lookup stationID = (.ldmmapOk, some stored) ↔ map.entry stationID = some stored := by
  rw [lookup_eq]
  cases map.entry stationID with
  | none => simp
  | some found => simp

theorem Keyed.nodup_stationIDs (isKeyed : map.Keyed) :
    ((NestedMap.toList map.ldmmap).map fun item => item.2.vehData.stationID).Nodup := by
  have keys := NestedMap.nodup_toList_keys map.ldmmap
  rw [List.nodup_map_iff_inj_on keys.of_map]
  rintro ⟨⟨upper, lower⟩, stored⟩ member ⟨⟨otherUpper, otherLower⟩, other⟩ otherMember equal
  have found := (NestedMap.mem_toList_iff _ _ _ _).mp member
  have otherFound := (NestedMap.mem_toList_iff _ _ _ _).mp otherMember
  rcases isKeyed.keyed found with ⟨_, rfl, rfl⟩
  rcases isKeyed.keyed otherFound with ⟨_, rfl, rfl⟩
  dsimp only at equal
  rw [← equal] at otherFound ⊢
  cases found.symm.trans otherFound
  rfl

theorem Keyed.selects (isKeyed : map.Keyed) (rangeM lat lon : ℚ) :
    map.Selects haversineDist rangeM lat lon
      (map.selection haversineDist rangeM lat lon) where
  complete := by
    intro stationID stored inRange found within
    have present := lookup_eq_ok_iff.mp found
    refine ⟨?_, isKeyed.entry_stationID inRange present⟩
    exact (mem_selection_iff haversineDist map _ _ _ _).mpr ⟨⟨_, _, present⟩, within⟩
  sound := by
    intro stored member
    rcases (mem_selection_iff haversineDist map _ _ _ _).mp member with
      ⟨⟨upper, lower, found⟩, within⟩
    rcases isKeyed.keyed found with ⟨inRange, rfl, rfl⟩
    exact ⟨inRange, lookup_eq_ok_iff.mpr found, within⟩
  distinct := by
    have nodup : (((NestedMap.toList map.ldmmap).map Prod.snd).map
        fun stored => stored.vehData.stationID).Nodup := by
      rw [List.map_map]
      exact isKeyed.nodup_stationIDs
    exact nodup.sublist (List.filter_sublist.map _)

/-! ## Runs -/

/-- Enumeration and point lookup agree: entries are stored under the split key of their
stationID, and both ways of selecting a range append what the lookups return. -/
structure Agrees (map : LDMMap) : Prop where
  keyed : ∀ {upper lower stored}, map.ldmmap.find upper lower = some stored →
    keyUpper stored.vehData.stationID = upper ∧ keyLower stored.vehData.stationID = lower
  position : ∀ rangeM lat lon selectedVehicles, ∃ selected,
    map.rangeSelect haversineDist rangeM lat lon selectedVehicles =
      (.ldmmapOk, selectedVehicles ++ selected) ∧
    map.Selects haversineDist rangeM lat lon selected
  missing : ∀ rangeM stationID selectedVehicles,
    (map.lookup stationID).1 ≠ .ldmmapOk →
      map.rangeSelectAround haversineDist rangeM stationID selectedVehicles =
        (.ldmmapItemNotFound, selectedVehicles)
  around : ∀ {stationID stored}, map.lookup stationID = (.ldmmapOk, some stored) →
    ∀ rangeM selectedVehicles, ∃ selected,
      map.rangeSelectAround haversineDist rangeM stationID selectedVehicles =
        (.ldmmapOk, selectedVehicles ++ selected) ∧
      map.rangeSelect haversineDist rangeM stored.vehData.lat stored.vehData.lon
        selectedVehicles = (.ldmmapOk, selectedVehicles ++ selected) ∧
      map.Selects haversineDist rangeM stored.vehData.lat stored.vehData.lon selected ∧
      (0 ≤ rangeM → (∀ lat lon, haversineDist lat lon lat lon = 0) → stored ∈ selected)

variable {haversineDist}

theorem rangeSelectAround_of_found {stationID : UInt64} {stored : ReturnedVehicleData}
    (found : map.lookup stationID = (.ldmmapOk, some stored)) (rangeM : ℚ)
    (selectedVehicles : List ReturnedVehicleData) :
    map.rangeSelectAround haversineDist rangeM stationID selectedVehicles =
      map.rangeSelect haversineDist rangeM stored.vehData.lat stored.vehData.lon
        selectedVehicles := by
  simp only [rangeSelectAround, found, ne_eq, not_true_eq_false, if_false, Option.getD_some]

theorem Keyed.agrees (isKeyed : map.Keyed) : map.Agrees haversineDist where
  keyed found := (isKeyed.keyed found).2
  position rangeM lat lon selectedVehicles :=
    ⟨_, rangeSelect_eq haversineDist map rangeM lat lon selectedVehicles,
      isKeyed.selects haversineDist rangeM lat lon⟩
  missing rangeM stationID selectedVehicles missing := by
    rw [rangeSelectAround, if_pos missing]
  around := by
    intro stationID stored found rangeM selectedVehicles
    have here := rangeSelect_eq haversineDist map rangeM stored.vehData.lat
      stored.vehData.lon selectedVehicles
    refine ⟨_, ?_, here, isKeyed.selects haversineDist _ _ _, ?_⟩
    · rw [rangeSelectAround_of_found found]
      exact here
    · intro nonneg distSelf
      apply (mem_selection_iff haversineDist map _ _ _ _).mpr
      refine ⟨⟨_, _, lookup_eq_ok_iff.mp found⟩, ?_⟩
      rw [Within, distSelf]
      exact nonneg

/-- In every reachable state the enumerations agree with the lookups. -/
theorem run_agrees (haversineDist : ℚ → ℚ → ℚ → ℚ → ℚ)
    (memory : Nat → UninitializedPHpoints) (operations : List MapOperation)
    (inRange : ∀ operation ∈ operations, operation.InRange) :
    ∃ map, Execution.run (step haversineDist) (empty memory) operations = some map ∧
      map.Agrees haversineDist := by
  have start : (empty memory).Linked ∧ (empty memory).Keyed :=
    ⟨(wellFormed_empty _).linked, (wellFormed_empty _).isKeyed⟩
  generalize empty memory = map at start
  induction operations generalizing map with
  | nil => exact ⟨map, rfl, start.2.agrees⟩
  | cons operation rest induction =>
      rcases start with ⟨linked, isKeyed⟩
      rcases linked.step_isSome haversineDist operation with ⟨next, taken⟩
      rw [Execution.run, taken]
      apply induction
      · intro other member
        exact inRange other (List.mem_cons_of_mem operation member)
      · exact ⟨linked.step haversineDist taken,
          isKeyed.step haversineDist linked (inRange operation List.mem_cons_self) taken⟩

theorem run_agrees_large :
    ∃ map, Execution.run (step noDist) (empty default)
        [.insert (station 70000), .remove 70000, .insert (station 12)] = some map ∧
      map.Agrees noDist :=
  run_agrees noDist default _ (by decide)

end LDMMap

end AIM.Database
