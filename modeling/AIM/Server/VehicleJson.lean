import AIM.Database.Iteration
import AIM.Database.Operations
import AIM.Foundation.Decimal

namespace AIM.Server

open Database Decimal

/-! # The JSON object of a vehicle

`make_vehicle_standard`. The loop over the path history stops only when an iteration is
terminated, so it is given a number of calls that it may make. -/

inductive Json
  | number (value : ℚ)
  | string (value : Text)
  | array (values : List Json)

/-- The members of an object in the order of their assignments, each key once. -/
abbrev JsonObject := List (String × Json)

/-- `MAKE_INT`, which converts to a 32-bit integer. -/
def makeInt (value : Int) : Json := .number (value.bmod (2 ^ 32))

/-- `MAKE_STR(std::to_string(value))` -/
def makeDecimal (value : ℚ) : Json := .string (fixedText 6 value)

/-- The loop over the path history. -/
def phPointsLoop (pathHistory : PHpoints) :
    Nat → PHDataIter → List Json → List Json → Option (List Json × List Json)
  | 0, _, _, _ => none
  | calls + 1, phDataIter, phPointsLat, phPointsLon =>
      let result := pathHistory.iterate phDataIter none
      if result.1 ≠ .phpTerminateIteration then
        phPointsLoop pathHistory calls result.2.1
          (phPointsLat ++ [makeDecimal result.2.1.data.lat])
          (phPointsLon ++ [makeDecimal result.2.1.data.lon])
      else some (phPointsLat, phPointsLon)

/-- The parameters of `make_vehicle_standard`; the path history is behind a pointer. -/
structure StandardVehicle where
  stationID : UInt64
  lat : ℚ
  lon : ℚ
  turnindicator : Text
  camTstamp : UInt16
  gnTstamp : UInt64
  carLengthMm : Option Int
  carWidthMm : Option Int
  speedMs : ℚ
  pathHistory : Option PHpoints
  relativeDistM : ℚ
  stationType : Int
  diffRefTstamp : UInt64
  heading : ℚ

def makeOptional (value : Option Int) : Json :=
  value.elim (.string "unavailable".toList) makeInt

/-- There is no result if the loop over the path history makes more than `calls` calls. -/
def makeVehicleStandard (calls : Nat) (vehicle : StandardVehicle) : Option JsonObject :=
  let members : JsonObject := [
    ("stationID", .number vehicle.stationID.toNat),
    ("lat", .number vehicle.lat),
    ("lon", .number vehicle.lon),
    ("speed_ms", .number vehicle.speedMs),
    ("turnindicator", .string vehicle.turnindicator),
    ("CAM_tstamp", .number vehicle.camTstamp.toNat),
    ("GN_tstamp", .number vehicle.gnTstamp.toNat),
    ("relative_dist_to_reference_m", .number vehicle.relativeDistM),
    ("stationType", .number vehicle.stationType),
    ("heading", .number vehicle.heading),
    ("time_since_generation_tstamp", .number vehicle.diffRefTstamp.toNat),
    ("car_len_mm", makeOptional vehicle.carLengthMm),
    ("car_wid_mm", makeOptional vehicle.carWidthMm)]
  match vehicle.pathHistory with
  | none => some members
  | some pathHistory =>
      (phPointsLoop pathHistory calls .initializer [] []).map fun phPoints =>
        members ++ [("PH_points_lat", .array phPoints.1), ("PH_points_lon", .array phPoints.2)]

/-! ## The arrays of the path history -/

variable {pathHistory : PHpoints} {phDataIter : PHDataIter}

theorem phPointsLoop_positioned (fits : pathHistory.Fits) {count calls : Nat}
    (positioned : pathHistory.Positioned phDataIter count)
    (enough : pathHistory.phPointsSize - count < calls) (phPointsLat phPointsLon : List Json) :
    phPointsLoop pathHistory calls phDataIter phPointsLat phPointsLon =
      some (phPointsLat ++ (pathHistory.livePoints.drop count).map (makeDecimal ·.lat),
        phPointsLon ++ (pathHistory.livePoints.drop count).map (makeDecimal ·.lon)) := by
  induction calls generalizing phDataIter count phPointsLat phPointsLon with
  | zero => exact absurd enough (Nat.not_lt_zero _)
  | succ calls induction =>
      rw [phPointsLoop]
      rcases Nat.lt_or_ge count pathHistory.phPointsSize with more | behind
      · rcases PHpoints.iterate_continues fits positioned more none with
          ⟨continues, passed, point⟩
        have left : pathHistory.livePoints.drop count =
            (pathHistory.iterate phDataIter none).2.1.data ::
              pathHistory.livePoints.drop (count + 1) := by
          rcases List.getElem?_eq_some_iff.mp point with ⟨inside, equal⟩
          rw [List.drop_eq_getElem_cons inside, equal]
        have goesOn : (pathHistory.iterate phDataIter none).1 ≠ .phpTerminateIteration := by
          rw [continues]
          intro terminates
          cases terminates
        rw [if_pos goesOn, induction passed (by omega), left]
        simp
      · rw [PHpoints.iterate_terminates positioned behind none,
          if_neg (not_not.mpr rfl), List.drop_eq_nil_of_le]
        · simp
        · rw [PHpoints.length_livePoints]
          exact behind

theorem phPointsLoop_fresh (fits : pathHistory.Fits)
    (fresh : phDataIter.ptrDataArray = none) {calls : Nat}
    (enough : pathHistory.phPointsSize < calls) :
    phPointsLoop pathHistory calls phDataIter [] [] =
      some ((pathHistory.iterated pathHistory.livePoints).map (makeDecimal ·.lat),
        (pathHistory.iterated pathHistory.livePoints).map (makeDecimal ·.lon)) := by
  have begun : phPointsLoop pathHistory calls phDataIter [] [] =
      phPointsLoop pathHistory calls (pathHistory.beginIteration phDataIter) [] [] := by
    cases calls with
    | zero => rfl
    | succ calls => rw [phPointsLoop, phPointsLoop, PHpoints.iterate_beginIteration]
  have positioned := PHpoints.beginIteration_positioned fits fresh
  rw [begun, phPointsLoop_positioned fits positioned (by omega), PHpoints.iterated]
  split
  · rfl
  · rw [List.drop_one]
    rfl

/-! ## Runs -/

/-- The live history is enumerated: repeated calls return its points and then terminate,
and the arrays of the JSON object have one element for each of them. -/
structure EnumeratesHistory (tracked : TrackedPHpoints) : Prop where
  stored : tracked.object.phPointsSize ≤ tracked.stored.length
  calls : ∀ phDataIter : PHDataIter, phDataIter.ptrDataArray = none → ∀ calls,
    (tracked.object.iterateAll phDataIter calls).map PHpoints.yielded =
      (List.range calls.length).map fun call => PHpoints.yieldOf
        (tracked.object.iterated (tracked.stored.take tracked.object.phPointsSize))[call]?
  json : ∀ (vehicle : StandardVehicle) (calls : Nat), tracked.object.phPointsSize < calls →
    ∃ members, makeVehicleStandard calls { vehicle with pathHistory := some tracked.object } =
        some members ∧
      members.lookup "PH_points_lat" = some (.array ((tracked.object.iterated
        (tracked.stored.take tracked.object.phPointsSize)).map (makeDecimal ·.lat))) ∧
      members.lookup "PH_points_lon" = some (.array ((tracked.object.iterated
        (tracked.stored.take tracked.object.phPointsSize)).map (makeDecimal ·.lon)))
  length : (tracked.object.iterated
      (tracked.stored.take tracked.object.phPointsSize)).length =
    if tracked.object.iterateFull = true then tracked.object.phPointsSize
    else tracked.object.phPointsSize - 1

theorem enumeratesHistory_of_filled {tracked : TrackedPHpoints} (filled : tracked.Filled) :
    EnumeratesHistory tracked := by
  have fits := filled.fits
  have length := tracked.object.length_livePoints
  have live := filled.live
  refine ⟨?_, ?_, ?_, ?_⟩
  · rw [live, List.length_take] at length
    omega
  · intro phDataIter fresh calls
    rw [PHpoints.iterateAll_fresh fits fresh, live]
  · intro vehicle calls enough
    have arrays := @phPointsLoop_fresh _ .initializer fits rfl _ enough
    simp only [makeVehicleStandard, arrays, Option.map_some, ← live]
    exact ⟨_, rfl, rfl, rfl⟩
  · rw [← live, PHpoints.iterated]
    split
    · exact length
    · rw [List.length_tail, length]

/-- In every reachable state and with either iterate policy the live history is
enumerated. -/
theorem run_enumeratesHistory (haversineDist : ℚ → ℚ → ℚ → ℚ → ℚ)
    (memory : UninitializedPHpoints) (start : TrackedPHpoints) (fresh : start.Fresh memory)
    (operations : List PHOperation) (final : TrackedPHpoints)
    (reached : Execution.run (TrackedPHpoints.perform haversineDist) start operations =
      some final) : EnumeratesHistory final :=
  enumeratesHistory_of_filled (fresh.filled.run reached)

theorem run_enumeratesHistory_short : ∃ final,
    Execution.run (TrackedPHpoints.perform TrackedPHpoints.lineDist)
        TrackedPHpoints.shortHistory
        [.insert (TrackedPHpoints.vehicleAt 0), .setIterateFull true,
          .insert (TrackedPHpoints.vehicleAt 5)] = some final ∧
      final.object.phPointsSize = 2 ∧ EnumeratesHistory final := by
  have reached := (Option.some_get (show (Execution.run
    (TrackedPHpoints.perform TrackedPHpoints.lineDist) TrackedPHpoints.shortHistory
    [.insert (TrackedPHpoints.vehicleAt 0), .setIterateFull true,
      .insert (TrackedPHpoints.vehicleAt 5)]).isSome by decide +kernel)).symm
  exact ⟨_, reached, by decide +kernel,
    run_enumeratesHistory TrackedPHpoints.lineDist default TrackedPHpoints.shortHistory
      ⟨rfl, .inr ⟨3, 1, 2, 10, rfl⟩⟩ _ _ reached⟩

theorem run_vehicleArrays (haversineDist : ℚ → ℚ → ℚ → ℚ → ℚ)
    (memory : Nat → UninitializedPHpoints) {operations : List MapOperation} {map : LDMMap}
    (reached : Execution.run (LDMMap.step haversineDist) (.empty memory) operations = some map)
    {stationID : UInt64} {stored : ReturnedVehicleData} {address : Nat}
    {pathHistory : PHpoints} (found : map.entry stationID = some stored)
    (pointer : stored.phData = some address)
    (live : map.heap.objects address = some pathHistory) {calls : Nat}
    (enough : pathHistory.phPointsSize < calls) :
    phPointsLoop pathHistory calls .initializer [] [] =
      some (pathHistory.livePoints.tail.map (makeDecimal ·.lat),
        pathHistory.livePoints.tail.map (makeDecimal ·.lon)) := by
  have standard := LDMMap.run_historiesSatisfy haversineDist memory PHpoints.new_standard
    (fun _ newVehicleData standard => standard.insert haversineDist newVehicleData) reached
    _ _ _ _ _ found pointer live
  have arrays := @phPointsLoop_fresh _ .initializer standard.fits rfl _ enough
  rwa [PHpoints.iterated, standard.iterateFull, if_neg Bool.false_ne_true] at arrays

end AIM.Server
