import AIM.Database.VehicleData
import AIM.Foundation.Ring
import Mathlib.Algebra.Order.Group.Unbundled.Abs
import Mathlib.Algebra.Order.Ring.Unbundled.Rat
import Mathlib.Data.Rat.Floor
import Mathlib.Logic.Function.Basic

namespace AIM.Database

/-! # Path history

`PHpoints`, the ring buffer of the recent points of one vehicle. The great-circle
distance is a parameter of everything that depends on it. -/

structure PHData where
  lat : ℚ
  lon : ℚ
  elev : ℚ
  heading : ℚ
  pointDistance : ℚ
  deriving DecidableEq, Repr, Inhabited

inductive PHpointsRetval
  | phpInserted
  | phpSkipped
  | phpContinueIteration
  | phpTerminateIteration
  | phpError
  deriving DecidableEq, Repr

def angDiff (ang1 ang2 : ℚ) : ℚ :=
  let angDiff := ang1 - ang2
  if 180 < angDiff then angDiff - 360
  else if angDiff < -180 then angDiff + 360
  else angDiff

/-- The reserved memory of `m_pDataArray` is written without ever growing the
vector, so it is modelled by its slots. -/
structure PHpoints where
  distanceLimit : ℚ
  minDistM : ℚ
  maxDistM : ℚ
  maxHeadingDiffDegs : ℚ
  nextIdx : Nat
  oldestIdx : Nat
  storedDistance : ℚ
  phPointsSize : Nat
  vectorReservedSize : Nat
  pDataArray : Nat → PHData
  removeOnlyOne : Bool
  iterateFull : Bool

/-- What the memory of a new object holds where the constructors write nothing. -/
structure UninitializedPHpoints where
  storedDistance : ℚ
  pDataArray : Nat → PHData
  deriving Inhabited

namespace PHpoints

/-- The constructor with parameters. -/
def ofLimits (memory : UninitializedPHpoints)
    (distanceLimit minDistM maxDistM maxHeadingDiffDegs : ℚ) : PHpoints where
  distanceLimit := distanceLimit
  minDistM := minDistM
  maxDistM := maxDistM
  maxHeadingDiffDegs := maxHeadingDiffDegs
  nextIdx := 0
  oldestIdx := 0
  storedDistance := memory.storedDistance
  phPointsSize := 0
  vectorReservedSize := ⌈distanceLimit / minDistM⌉₊
  pDataArray := memory.pDataArray
  removeOnlyOne := false
  iterateFull := false

/-- The default constructor. -/
def new (memory : UninitializedPHpoints) : PHpoints where
  distanceLimit := 300
  minDistM := 1
  maxDistM := 20
  maxHeadingDiffDegs := 10
  nextIdx := 0
  oldestIdx := 0
  storedDistance := memory.storedDistance
  phPointsSize := 0
  vectorReservedSize := 300
  pDataArray := memory.pDataArray
  removeOnlyOne := false
  iterateFull := false

/-- The comment of the default constructor: its reserved size is the one that
the other constructor computes from the default limits. -/
theorem new_eq_ofLimits (memory : UninitializedPHpoints) :
    new memory = ofLimits memory 300 1 20 10 := by
  have reserved : ⌈(300 / 1 : ℚ)⌉₊ = 300 := by decide +kernel
  simp only [new, ofLimits, reserved]

def switchRemoveOnlyOne (ph : PHpoints) : PHpoints :=
  if ph.removeOnlyOne = true then { ph with removeOnlyOne := false }
  else { ph with removeOnlyOne := true }

theorem switchRemoveOnlyOne_eq (ph : PHpoints) :
    ph.switchRemoveOnlyOne = { ph with removeOnlyOne := !ph.removeOnlyOne } := by
  unfold switchRemoveOnlyOne
  cases ph.removeOnlyOne <;> rfl

def setPHMaxDist (ph : PHpoints) (maxDistanceMeters : ℚ) : PHpoints :=
  { ph with maxDistM := maxDistanceMeters }

def setPHMaxHeadingDiff (ph : PHpoints) (maxHeadingDiffDegs : ℚ) : PHpoints :=
  { ph with maxHeadingDiffDegs := maxHeadingDiffDegs }

def setIterateFull (ph : PHpoints) (iterateFull : Bool) : PHpoints :=
  { ph with iterateFull := iterateFull }

/-- The stored distance keeps its value. -/
def clear (ph : PHpoints) : PHpoints :=
  { ph with phPointsSize := 0, nextIdx := 0, oldestIdx := 0 }

/-- The slot that `insert` takes for the previously saved point. -/
def prevIdx (ph : PHpoints) : Nat :=
  if ph.nextIdx = 0 then ph.phPointsSize - 1 else ph.nextIdx - 1

/-- The two tests that make `insert` skip a point. -/
def Skips (ph : PHpoints) (previous : PHData) (newVehicleData : VehicleData)
    (pointDist : ℚ) : Prop :=
  pointDist < ph.maxDistM ∧
    (pointDist < ph.minDistM ∨
      |angDiff previous.heading newVehicleData.heading| < ph.maxHeadingDiffDegs)

instance (ph : PHpoints) (previous : PHData) (newVehicleData : VehicleData)
    (pointDist : ℚ) : Decidable (ph.Skips previous newVehicleData pointDist) :=
  inferInstanceAs (Decidable (_ ∧ _))

def removeOldest (ph : PHpoints) : PHpoints :=
  { ph with
    storedDistance := ph.storedDistance - (ph.pDataArray ph.oldestIdx).pointDistance
    phPointsSize := ph.phPointsSize - 1
    oldestIdx := Ring.next ph.vectorReservedSize ph.oldestIdx }

/-- The removal loop; every iteration makes the history shorter, so its size
bounds the number of iterations. -/
def removeWhile : Nat → PHpoints → PHpoints
  | 0, ph => ph
  | fuel + 1, ph =>
      if ph.distanceLimit ≤ ph.storedDistance ∧ 1 < ph.phPointsSize then
        removeWhile fuel ph.removeOldest
      else ph

def removeOld (ph : PHpoints) : PHpoints :=
  if ph.removeOnlyOne = true then
    if ph.distanceLimit ≤ ph.storedDistance then ph.removeOldest else ph
  else
    removeWhile ph.phPointsSize ph

def pointOf (newVehicleData : VehicleData) (pointDist : ℚ) : PHData where
  lat := newVehicleData.lat
  lon := newVehicleData.lon
  elev := newVehicleData.elevation
  heading := newVehicleData.heading
  pointDistance := pointDist

def store (ph : PHpoints) (newVehicleData : VehicleData) (pointDist : ℚ) : PHpoints :=
  { ph with
    phPointsSize :=
      if ph.phPointsSize < ph.vectorReservedSize then ph.phPointsSize + 1
      else ph.phPointsSize
    pDataArray :=
      Function.update ph.pDataArray ph.nextIdx (pointOf newVehicleData pointDist)
    nextIdx := Ring.next ph.vectorReservedSize ph.nextIdx }

section

variable (haversineDist : ℚ → ℚ → ℚ → ℚ → ℚ)

def insert (ph : PHpoints) (newVehicleData : VehicleData) :
    PHpoints × PHpointsRetval :=
  if 1 ≤ ph.phPointsSize then
    let previous := ph.pDataArray ph.prevIdx
    let pointDist := haversineDist previous.lat previous.lon
      newVehicleData.lat newVehicleData.lon
    if ph.Skips previous newVehicleData pointDist then
      (ph, .phpSkipped)
    else
      let removed := ph.removeOld
      let lengthened := { removed with
        storedDistance := removed.storedDistance + pointDist }
      (lengthened.store newVehicleData pointDist, .phpInserted)
  else
    (ph.store newVehicleData 0, .phpInserted)

end

/-! ## What the parts of `insert` leave alone -/

@[simp] theorem removeOldest_phPointsSize (ph : PHpoints) :
    ph.removeOldest.phPointsSize = ph.phPointsSize - 1 := rfl

structure RemovedFrom (before after : PHpoints) : Prop where
  nextIdx : after.nextIdx = before.nextIdx
  vectorReservedSize : after.vectorReservedSize = before.vectorReservedSize
  pDataArray : after.pDataArray = before.pDataArray
  size_le : after.phPointsSize ≤ before.phPointsSize

theorem removeOldest_removedFrom (ph : PHpoints) : RemovedFrom ph ph.removeOldest where
  nextIdx := rfl
  vectorReservedSize := rfl
  pDataArray := rfl
  size_le := Nat.sub_le _ _

theorem RemovedFrom.refl (ph : PHpoints) : RemovedFrom ph ph :=
  ⟨rfl, rfl, rfl, Nat.le_refl _⟩

theorem RemovedFrom.trans {first second third : PHpoints}
    (left : RemovedFrom first second) (right : RemovedFrom second third) :
    RemovedFrom first third where
  nextIdx := right.nextIdx.trans left.nextIdx
  vectorReservedSize := right.vectorReservedSize.trans left.vectorReservedSize
  pDataArray := right.pDataArray.trans left.pDataArray
  size_le := Nat.le_trans right.size_le left.size_le

theorem removeWhile_removedFrom (fuel : Nat) (ph : PHpoints) :
    RemovedFrom ph (removeWhile fuel ph) := by
  induction fuel generalizing ph with
  | zero => exact .refl ph
  | succ fuel induction =>
      unfold removeWhile
      split
      · exact (removeOldest_removedFrom ph).trans (induction ph.removeOldest)
      · exact .refl ph

theorem removeOld_removedFrom (ph : PHpoints) : RemovedFrom ph ph.removeOld := by
  unfold removeOld
  split
  · split
    · exact removeOldest_removedFrom ph
    · exact .refl ph
  · exact removeWhile_removedFrom _ ph

theorem store_pDataArray_nextIdx (ph : PHpoints) (newVehicleData : VehicleData)
    (pointDist : ℚ) :
    (ph.store newVehicleData pointDist).pDataArray ph.nextIdx =
      pointOf newVehicleData pointDist :=
  Function.update_self _ _ _

theorem insert_cases (haversineDist : ℚ → ℚ → ℚ → ℚ → ℚ) (ph : PHpoints)
    (newVehicleData : VehicleData) :
    let previous := ph.pDataArray ph.prevIdx
    let pointDist := haversineDist previous.lat previous.lon
      newVehicleData.lat newVehicleData.lon
    (ph.phPointsSize = 0 ∧ ph.insert haversineDist newVehicleData =
      (ph.store newVehicleData 0, .phpInserted)) ∨
    (1 ≤ ph.phPointsSize ∧ ph.Skips previous newVehicleData pointDist ∧
      ph.insert haversineDist newVehicleData = (ph, .phpSkipped)) ∨
    (1 ≤ ph.phPointsSize ∧ ¬ph.Skips previous newVehicleData pointDist ∧
      ∃ removed, RemovedFrom ph removed ∧
        ph.insert haversineDist newVehicleData =
          (removed.store newVehicleData pointDist, .phpInserted)) := by
  intro previous pointDist
  by_cases empty : ph.phPointsSize = 0
  · exact .inl ⟨empty, if_neg (by omega)⟩
  · have nonempty : 1 ≤ ph.phPointsSize := by omega
    by_cases skips : ph.Skips previous newVehicleData pointDist
    · exact .inr (.inl ⟨nonempty, skips, by
        rw [insert, if_pos nonempty]
        exact if_pos skips⟩)
    · have removal := removeOld_removedFrom ph
      refine .inr (.inr ⟨nonempty, skips, { ph.removeOld with
        storedDistance := ph.removeOld.storedDistance + pointDist }, ?_, ?_⟩)
      · exact ⟨removal.nextIdx, removal.vectorReservedSize, removal.pDataArray,
          removal.size_le⟩
      · rw [insert, if_pos nonempty]
        exact if_neg skips

/-- The removal loop ends because its condition fails, never for want of fuel. -/
theorem removeWhile_finished (fuel : Nat) (ph : PHpoints)
    (enough : ph.phPointsSize ≤ fuel) :
    ¬((removeWhile fuel ph).distanceLimit ≤ (removeWhile fuel ph).storedDistance ∧
      1 < (removeWhile fuel ph).phPointsSize) := by
  induction fuel generalizing ph with
  | zero =>
      intro condition
      simp only [removeWhile] at condition
      omega
  | succ fuel induction =>
      unfold removeWhile
      split
      · apply induction
        simp only [removeOldest_phPointsSize]
        omega
      · assumption

end PHpoints

end AIM.Database
