import Mathlib.Data.Rat.Defs

namespace AIM.Database

/-! # Vehicle data

`vehicleData_t`, the record stored for each station. Floating-point numbers are
modelled by exact rationals, and an `OptionalDataItem` by an `Option`. -/

/-! The values that stand for unavailable measurements. -/

def rssiUnavailable : ℚ := -80000
def cpuloadUnavailable : ℚ := 10001
def gpuloadUnavailable : ℚ := 10001
def ramloadUnavailable : ℚ := 512001

structure VehicleData where
  stationID : UInt64
  lat : ℚ
  lon : ℚ
  elevation : ℚ
  heading : ℚ
  speedMs : ℚ
  gnTimestamp : UInt64
  camTimestamp : Int
  timestampUs : UInt64
  vehicleWidth : Option Int
  vehicleLength : Option Int
  stationType : Int
  macaddr : Fin 6 → UInt8
  auxiliaryMacaddr : String
  rssiDBm : ℚ
  rssiAuxiliaryDBm : ℚ
  cpuLoadPerc : ℚ
  ramLoadMB : ℚ
  gpuLoadPerc : ℚ
  extradevCpuLoadPerc : ℚ
  extradevRamLoadMB : ℚ
  extradevGpuLoadPerc : ℚ
  ipaddr : String
  publicipaddr : String
  exteriorLights : Option UInt8

/-- A value-initialised record, as `operator[]` of a map creates it. -/
instance : Inhabited VehicleData where
  default := {
    stationID := 0, lat := 0, lon := 0, elevation := 0, heading := 0, speedMs := 0
    gnTimestamp := 0, camTimestamp := 0, timestampUs := 0
    vehicleWidth := none, vehicleLength := none, stationType := 0
    macaddr := fun _ => 0, auxiliaryMacaddr := "", rssiDBm := 0, rssiAuxiliaryDBm := 0
    cpuLoadPerc := 0, ramLoadMB := 0, gpuLoadPerc := 0
    extradevCpuLoadPerc := 0, extradevRamLoadMB := 0, extradevGpuLoadPerc := 0
    ipaddr := "", publicipaddr := "", exteriorLights := none }

end AIM.Database
