import AIM.Database.PHpoints
import AIM.Foundation.NestedMap

namespace AIM.Database

/-! # The vehicle database

`LDMMap`, a two-level hash map keyed by the two halves of the stationID. The
operations are the sequential ones; `insert` is composed of the steps between
which another thread may run. -/

inductive LDMMapError
  | ldmmapOk
  | ldmmapUpdated
  | ldmmapItemNotFound
  | ldmmapMapFull
  | ldmmapUnknownError
  deriving DecidableEq, Repr

/-- An entry: the vehicle data and the address of its path history, if the
pointer is not null. -/
structure ReturnedVehicleData where
  vehData : VehicleData
  phData : Option Nat

/-- A value-initialised entry, as `operator[]` creates it. -/
instance : Inhabited ReturnedVehicleData where
  default := ⟨default, none⟩

/-- The objects created with `new PHpoints()`. Addresses are not reused, and
`memory` is what uninitialised memory holds at each address. -/
structure PHpointsHeap where
  objects : Nat → Option PHpoints
  nextAddress : Nat
  memory : Nat → UninitializedPHpoints

namespace PHpointsHeap

def empty (memory : Nat → UninitializedPHpoints) : PHpointsHeap :=
  ⟨fun _ => none, 0, memory⟩

def allocate (heap : PHpointsHeap) : PHpointsHeap where
  objects := Function.update heap.objects heap.nextAddress
    (some (PHpoints.new (heap.memory heap.nextAddress)))
  nextAddress := heap.nextAddress + 1
  memory := heap.memory

def write (heap : PHpointsHeap) (address : Nat) (object : PHpoints) : PHpointsHeap :=
  { heap with objects := Function.update heap.objects address (some object) }

def delete (heap : PHpointsHeap) (address : Nat) : PHpointsHeap :=
  { heap with objects := Function.update heap.objects address none }

end PHpointsHeap

structure LDMMap where
  ldmmap : NestedMap UInt32 UInt32 ReturnedVehicleData
  card : UInt64
  heap : PHpointsHeap

/-! `DEFINE_KEYS` -/

def keyLower (stationID : UInt64) : UInt32 :=
  (stationID &&& 0x0000FFFF).toUInt32

def keyUpper (stationID : UInt64) : UInt32 :=
  ((stationID &&& 0xFFFF0000) >>> 16).toUInt32

def uint64Max : UInt64 := 0xFFFFFFFFFFFFFFFF

namespace LDMMap

def empty (memory : Nat → UninitializedPHpoints) : LDMMap :=
  ⟨∅, 0, .empty memory⟩

def entry (map : LDMMap) (stationID : UInt64) : Option ReturnedVehicleData :=
  map.ldmmap.find (keyUpper stationID) (keyLower stationID)

/-! ## Insertion -/

inductive InsertDecision
  | newUpper
  | newLower
  | update
  deriving DecidableEq, Repr

def InsertDecision.retval : InsertDecision → LDMMapError
  | .newUpper => .ldmmapOk
  | .newLower => .ldmmapOk
  | .update => .ldmmapUpdated

/-- The checks before any lock is taken; a full map gives no decision. The
cardinality of a new lower entry is counted here. -/
def insertChecks (map : LDMMap) (newVehicleData : VehicleData) :
    Option (LDMMap × InsertDecision) :=
  if map.card = uint64Max then none
  else
    match map.ldmmap.lookup (keyUpper newVehicleData.stationID) with
    | none => some (map, .newUpper)
    | some lowerMap =>
        if keyLower newVehicleData.stationID ∈ lowerMap then some (map, .update)
        else some ({ map with card := map.card + 1 }, .newLower)

/-- The write under the lock. In an update `operator[]` keeps the path history
of the entry, and a missing entry is value-initialised first. -/
def insertWrite (map : LDMMap) (newVehicleData : VehicleData) :
    InsertDecision → LDMMap
  | .newUpper => {
      ldmmap := map.ldmmap.insert (keyUpper newVehicleData.stationID)
        (AList.singleton (keyLower newVehicleData.stationID)
          ⟨newVehicleData, some map.heap.nextAddress⟩)
      card := map.card + 1
      heap := map.heap.allocate }
  | .newLower => { map with
      ldmmap := map.ldmmap.modifyLower (keyUpper newVehicleData.stationID)
        fun lowerMap => lowerMap.insert (keyLower newVehicleData.stationID)
          ⟨newVehicleData, some map.heap.nextAddress⟩
      heap := map.heap.allocate }
  | .update => { map with
      ldmmap := map.ldmmap.modifyLower (keyUpper newVehicleData.stationID)
        fun lowerMap => lowerMap.insert (keyLower newVehicleData.stationID)
          { (lowerMap.lookup (keyLower newVehicleData.stationID)).getD default with
            vehData := newVehicleData } }

section

variable (haversineDist : ℚ → ℚ → ℚ → ℚ → ℚ)

/-- The call `phData->insert` at the end; there is no result if the pointer is
null, or if it points to an object that is gone. `operator[]` creates a missing
entry with a null pointer. -/
def insertCall (map : LDMMap) (newVehicleData : VehicleData) : Option LDMMap :=
  match ((map.entry newVehicleData.stationID).getD default).phData with
  | none => none
  | some address =>
      match map.heap.objects address with
      | none => none
      | some object => some { map with
          heap := map.heap.write address (object.insert haversineDist newVehicleData).1 }

def insert (map : LDMMap) (newVehicleData : VehicleData) :
    Option (LDMMap × LDMMapError) :=
  match map.insertChecks newVehicleData with
  | none => some (map, .ldmmapMapFull)
  | some (checked, decision) =>
      match (checked.insertWrite newVehicleData decision).insertCall haversineDist
        newVehicleData with
      | none => none
      | some inserted => some (inserted, decision.retval)

end

/-! ## Removal and lookup -/

/-- The entry is looked up under its lower key and erased under the stationID,
converted to the key type of the lower map. -/
def remove (map : LDMMap) (stationID : UInt64) : LDMMap × LDMMapError :=
  match map.ldmmap.lookup (keyUpper stationID) with
  | none => (map, .ldmmapItemNotFound)
  | some lowerMap =>
      if keyLower stationID ∈ lowerMap then
        ({ map with
          ldmmap := map.ldmmap.insert (keyUpper stationID)
            (lowerMap.erase stationID.toUInt32)
          card := map.card - 1 }, .ldmmapOk)
      else (map, .ldmmapItemNotFound)

def lookup (map : LDMMap) (stationID : UInt64) :
    LDMMapError × Option ReturnedVehicleData :=
  match map.ldmmap.lookup (keyUpper stationID) with
  | none => (.ldmmapItemNotFound, none)
  | some lowerMap =>
      match lowerMap.lookup (keyLower stationID) with
      | none => (.ldmmapItemNotFound, none)
      | some found => (.ldmmapOk, some found)

/-! ## Deletion of old entries -/

/-- The age test; the difference of the timestamps is unsigned. -/
def expired (now : UInt64) (timeMilliseconds : ℚ) (vehData : VehicleData) : Bool :=
  timeMilliseconds < ((now - vehData.timestampUs).toNat : ℚ) / 1000

def olderThan (now : UInt64) (timeMilliseconds : ℚ) (stored : ReturnedVehicleData) :
    Bool :=
  expired now timeMilliseconds stored.vehData

/-- What the loop over one lower map changes: the map itself, the cardinality
and the stationIDs for which the callback was called. -/
structure SweepState where
  lowerMap : Assoc UInt32 ReturnedVehicleData
  card : UInt64
  called : List UInt64

def sweepEntry (now : UInt64) (timeMilliseconds : ℚ) (state : SweepState)
    (current : Σ _ : UInt32, ReturnedVehicleData) : SweepState :=
  if olderThan now timeMilliseconds current.2 then {
    lowerMap := state.lowerMap.erase current.1
    card := state.card - 1
    called := state.called ++ [current.2.vehData.stationID] }
  else state

def sweepLower (now : UInt64) (timeMilliseconds : ℚ) (state : LDMMap × List UInt64)
    (upper : UInt32) : LDMMap × List UInt64 :=
  match state.1.ldmmap.lookup upper with
  | none => state
  | some lowerMap =>
      let swept := lowerMap.entries.foldl (sweepEntry now timeMilliseconds)
        ⟨lowerMap, state.1.card, state.2⟩
      ({ state.1 with
        ldmmap := state.1.ldmmap.insert upper swept.lowerMap
        card := swept.card }, swept.called)

/-- The second component lists the calls of the callback. -/
def deleteOlderThanAndExecute (map : LDMMap) (now : UInt64) (timeMilliseconds : ℚ) :
    LDMMap × List UInt64 :=
  map.ldmmap.keys.foldl (sweepLower now timeMilliseconds) (map, [])

structure DeletionState where
  lowerMap : Assoc UInt32 ReturnedVehicleData
  card : UInt64

def deleteEntry (now : UInt64) (timeMilliseconds : ℚ) (state : DeletionState)
    (current : Σ _ : UInt32, ReturnedVehicleData) : DeletionState :=
  if olderThan now timeMilliseconds current.2 then {
    lowerMap := state.lowerMap.erase current.1
    card := state.card - 1 }
  else state

def deleteLower (now : UInt64) (timeMilliseconds : ℚ) (map : LDMMap) (upper : UInt32) :
    LDMMap :=
  match map.ldmmap.lookup upper with
  | none => map
  | some lowerMap =>
      let deleted := lowerMap.entries.foldl (deleteEntry now timeMilliseconds)
        ⟨lowerMap, map.card⟩
      { map with
        ldmmap := map.ldmmap.insert upper deleted.lowerMap
        card := deleted.card }

def deleteOlderThan (map : LDMMap) (now : UInt64) (timeMilliseconds : ℚ) : LDMMap :=
  map.ldmmap.keys.foldl (deleteLower now timeMilliseconds) map

/-! ## Clearing -/

def clearEntry (heap : PHpointsHeap) (stored : ReturnedVehicleData) :
    Option PHpointsHeap :=
  match stored.phData with
  | none => none
  | some address =>
      match heap.objects address with
      | none => none
      | some _ => some (heap.delete address)

def clear (map : LDMMap) : Option LDMMap :=
  match ((NestedMap.toList map.ldmmap).map Prod.snd).foldlM clearEntry map.heap with
  | none => none
  | some heap => some ⟨∅, 0, heap⟩

end LDMMap

end AIM.Database
