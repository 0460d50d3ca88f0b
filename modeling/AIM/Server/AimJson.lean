import AIM.Database.Enumeration
import AIM.Server.VehicleJson

namespace AIM.Server

open Database Decimal

/-! # The answer to a JSON request

`make_AIM_json`: one object for every vehicle around a position, with the time since its
data was stored. `rangeSelect` never fails, so the branch for its failure is left out. -/

def bitnames : List Text :=
  ["lowBeamHeadlightsOn".toList, "highBeamHeadlightsOn".toList, "leftTurnSignalOn".toList,
    "rightTurnSignalOn".toList, "daytimeRunningLightsOn".toList, "reverseLightOn".toList,
    "fogLightOn".toList, "parkingLightsOn".toList]

/-- The names of the lights that are on, the highest bit first. -/
def exteriorLightsBitToString (extLights : UInt8) : Text :=
  let extLightsStr := (List.range 8).foldl (fun extLightsStr i =>
    if extLights &&& (1 <<< UInt8.ofNat (7 - i)) ≠ 0 then
      (if extLightsStr.length ≠ 0 then extLightsStr ++ [','] else extLightsStr) ++
        bitnames.getD i []
    else extLightsStr) []
  if extLightsStr = [] then "off".toList else extLightsStr

example : exteriorLightsBitToString 0x84 = "lowBeamHeadlightsOn,reverseLightOn".toList := by
  decide +kernel

/-- The parameters of `make_vehicle_enhanced`. -/
structure EnhancedVehicle where
  stationID : UInt64
  lat : ℚ
  lon : ℚ
  turnindicator : Text
  camTstamp : UInt16
  gnTstamp : UInt64
  carLengthMm : Option Int
  carWidthMm : Option Int
  speedMs : ℚ
  relativeDistM : ℚ
  stationType : Int
  diffRefTstamp : UInt64
  heading : ℚ
  rssi : ℚ
  auxRssi : ℚ
  cpuLoadPerc : ℚ
  ramLoadMB : ℚ
  gpuLoadPerc : ℚ
  extradevCpuLoadPerc : ℚ
  extradevRamLoadMB : ℚ
  extradevGpuLoadPerc : ℚ
  ipaddr : String
  publicipaddr : String

def makeVehicleEnhanced (vehicle : EnhancedVehicle) : JsonObject := [
  ("stationID", .number vehicle.stationID.toNat),
  ("lat", .number vehicle.lat),
  ("lon", .number vehicle.lon),
  ("speed_ms", .number vehicle.speedMs),
  ("turnindicator", .string vehicle.turnindicator),
  ("CAM_tstamp", .number vehicle.camTstamp.toNat),
  ("GN_tstamp", .number vehicle.gnTstamp.toNat),
  ("relative_dist_to_reference_m", .number vehicle.relativeDistM),
  ("stationType", .number vehicle.stationType),
  ("heading", .number vehicle.heading),
  ("time_since_generation_tstamp", .number vehicle.diffRefTstamp.toNat),
  ("car_len_mm", makeOptional vehicle.carLengthMm),
  ("car_wid_mm", makeOptional vehicle.carWidthMm),
  ("rssi_dBm", .number vehicle.rssi),
  ("auxilliary_rssi_dBm", .number vehicle.auxRssi),
  ("cpu_load_perc", .number vehicle.cpuLoadPerc),
  ("ram_load_MB", .number vehicle.ramLoadMB),
  ("gpu_load_perc", .number vehicle.gpuLoadPerc),
  ("extradev_cpu_load_perc", .number vehicle.extradevCpuLoadPerc),
  ("extradev_ram_load_MB", .number vehicle.extradevRamLoadMB),
  ("extradev_gpu_load_perc", .number vehicle.extradevGpuLoadPerc),
  ("ipaddr", .string vehicle.ipaddr.toList),
  ("publicipaddr", .string vehicle.publicipaddr.toList)]

/-- What `make_AIM_json` depends on besides the database: the distance of two positions, the
range of the server, the kind of CAMs, and the calls that a loop over a path history may make. -/
structure JsonServer where
  haversineDist : ℚ → ℚ → ℚ → ℚ → ℚ
  rangeM : ℚ
  enhancedCAMsEnabled : Bool
  calls : Nat

structure AimJson where
  generationTstamp : UInt64
  referenceLat : ℚ
  referenceLon : ℚ
  vehicles : List JsonObject

namespace JsonServer

variable (server : JsonServer)

/-- The object of one vehicle. There is no result if its path history is gone. -/
def makeVehicle (heap : PHpointsHeap) (lat lon : ℚ) (nowUs : UInt64)
    (vehdata : ReturnedVehicleData) : Option JsonObject :=
  let vehData := vehdata.vehData
  let refRelDist := server.haversineDist lat lon vehData.lat vehData.lon
  let turnindicator := vehData.exteriorLights.elim "unavailable".toList exteriorLightsBitToString
  if server.enhancedCAMsEnabled = false then
    let standard (pathHistory : Option PHpoints) : Option JsonObject :=
      makeVehicleStandard server.calls {
        stationID := vehData.stationID
        lat := vehData.lat
        lon := vehData.lon
        turnindicator := turnindicator
        camTstamp := .ofInt vehData.camTimestamp
        gnTstamp := vehData.gnTimestamp
        carLengthMm := vehData.vehicleLength
        carWidthMm := vehData.vehicleWidth
        speedMs := vehData.speedMs
        pathHistory := pathHistory
        relativeDistM := refRelDist
        stationType := vehData.stationType
        diffRefTstamp := nowUs - vehData.timestampUs
        heading := vehData.heading }
    match vehdata.phData with
    | none => standard none
    | some address =>
        match heap.objects address with
        | none => none
        | some pathHistory => standard (some pathHistory)
  else
    some (makeVehicleEnhanced {
      stationID := vehData.stationID
      lat := vehData.lat
      lon := vehData.lon
      turnindicator := turnindicator
      camTstamp := .ofInt vehData.camTimestamp
      gnTstamp := vehData.gnTimestamp
      carLengthMm := vehData.vehicleLength
      carWidthMm := vehData.vehicleWidth
      speedMs := vehData.speedMs
      relativeDistM := refRelDist
      stationType := vehData.stationType
      diffRefTstamp := nowUs - vehData.timestampUs
      heading := vehData.heading
      rssi := vehData.rssiDBm
      auxRssi := vehData.rssiAuxiliaryDBm
      cpuLoadPerc := vehData.cpuLoadPerc
      ramLoadMB := vehData.ramLoadMB
      gpuLoadPerc := vehData.gpuLoadPerc
      extradevCpuLoadPerc := vehData.extradevCpuLoadPerc
      extradevRamLoadMB := vehData.extradevRamLoadMB
      extradevGpuLoadPerc := vehData.extradevGpuLoadPerc
      ipaddr := vehData.ipaddr
      publicipaddr := vehData.publicipaddr })

def makeVehicles (heap : PHpointsHeap) (lat lon : ℚ) (nowUs : UInt64) :
    List ReturnedVehicleData → Option (List JsonObject)
  | [] => some []
  | vehdata :: returnedvehs =>
      match server.makeVehicle heap lat lon nowUs vehdata with
      | none => none
      | some vehicle =>
          (makeVehicles heap lat lon nowUs returnedvehs).map (vehicle :: ·)

/-- The part of `make_AIM_json` behind the selection. -/
def answer (heap : PHpointsHeap) (lat lon : ℚ) (nowUs : UInt64)
    (returnedvehs : List ReturnedVehicleData) : Option AimJson :=
  (server.makeVehicles heap lat lon nowUs returnedvehs).map (⟨nowUs, lat, lon, ·⟩)

def makeAimJson (map : LDMMap) (nowUs : UInt64) (lat lon : ℚ) : Option AimJson :=
  server.answer map.heap lat lon nowUs
    (map.rangeSelect server.haversineDist server.rangeM lat lon []).2

end JsonServer

/-! ## The age of a vehicle -/

def ageMember (vehicle : JsonObject) : Option Json :=
  vehicle.lookup "time_since_generation_tstamp"

def Json.number? : Json → Option ℚ
  | .number value => some value
  | _ => none

theorem ageMember_makeVehicleStandard {calls : Nat} {vehicle : StandardVehicle}
    {members : JsonObject} (made : makeVehicleStandard calls vehicle = some members) :
    ageMember members = some (.number vehicle.diffRefTstamp.toNat) := by
  dsimp only [makeVehicleStandard] at made
  split at made
  · cases made
    rfl
  · rcases Option.map_eq_some_iff.mp made with ⟨_, _, rfl⟩
    rfl

namespace JsonServer

variable {server : JsonServer} {heap : PHpointsHeap} {lat lon : ℚ} {nowUs : UInt64}

theorem ageMember_makeVehicle {vehdata : ReturnedVehicleData} {vehicle : JsonObject}
    (made : server.makeVehicle heap lat lon nowUs vehdata = some vehicle) :
    ageMember vehicle = some (.number (nowUs - vehdata.vehData.timestampUs).toNat) := by
  dsimp only [makeVehicle] at made
  split at made
  · split at made
    · exact ageMember_makeVehicleStandard made
    · split at made
      · cases made
      · exact ageMember_makeVehicleStandard made
  · cases made
    rfl

/-- No vehicle is newer than the answer, and every age is the difference of the two times. -/
def AgesCorrect (json : AimJson) (returnedvehs : List ReturnedVehicleData) : Prop :=
  List.Forall₂ (fun vehdata vehicle =>
    vehdata.vehData.timestampUs ≤ json.generationTstamp ∧
      ageMember vehicle = some (.number
        (json.generationTstamp.toNat - vehdata.vehData.timestampUs.toNat)))
    returnedvehs json.vehicles

theorem AgesCorrect.not_newer {json : AimJson} {returnedvehs : List ReturnedVehicleData}
    (correct : AgesCorrect json returnedvehs) :
    ∀ vehdata ∈ returnedvehs, vehdata.vehData.timestampUs ≤ json.generationTstamp := by
  unfold AgesCorrect at correct
  generalize json.vehicles = vehicles at correct
  induction correct with
  | nil => exact fun _ member => absurd member List.not_mem_nil
  | cons first _ induction => exact List.forall_mem_cons.mpr ⟨first.1, induction⟩

theorem agesCorrect_iff {returnedvehs : List ReturnedVehicleData} {json : AimJson}
    (answered : server.answer heap lat lon nowUs returnedvehs = some json) :
    AgesCorrect json returnedvehs ↔
      ∀ vehdata ∈ returnedvehs, vehdata.vehData.timestampUs ≤ nowUs := by
  rcases Option.map_eq_some_iff.mp answered with ⟨vehicles, made, rfl⟩
  unfold AgesCorrect
  dsimp only
  clear answered
  induction returnedvehs generalizing vehicles with
  | nil =>
      cases made
      exact iff_of_true .nil fun _ member => absurd member List.not_mem_nil
  | cons vehdata rest induction =>
      rw [makeVehicles] at made
      split at made
      · cases made
      · next vehicle madeFirst =>
          rcases Option.map_eq_some_iff.mp made with ⟨later, madeLater, rfl⟩
          rw [List.forall₂_cons, induction later madeLater, List.forall_mem_cons,
            ageMember_makeVehicle madeFirst]
          apply and_congr_left
          intro _
          constructor
          · exact fun correct => correct.1
          · intro earlier
            refine ⟨earlier, ?_⟩
            rw [UInt64.toNat_sub_of_le _ _ earlier,
              Nat.cast_sub (UInt64.le_iff_toNat_le.mp earlier)]

end JsonServer

end AIM.Server
