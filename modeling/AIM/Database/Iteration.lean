import AIM.Database.LivePoints

namespace AIM.Database

/-! # Iteration

`iterate` walks backwards through the slots, with an index, a counter and a size of its
own. The first call sets them when the pointer of the iterator is null. -/

/-- `INVALID_PHDATA`, the largest value of a `double`. -/
def invalidPHData : ℚ := (2 ^ 53 - 1) * 2 ^ 971

def invalidPoint : PHData :=
  ⟨invalidPHData, invalidPHData, invalidPHData, invalidPHData, invalidPHData⟩

/-- The pointer stands for the array behind it, which does not change while an object is
iterated over. -/
structure PHDataIter where
  ptrDataArray : Option (Nat → PHData)
  data : PHData
  idx : Nat
  cyclicIdx : Nat
  pDataArraySize : Nat

/-- `PHDATAITER_INITIALIZER` -/
def PHDataIter.initializer : PHDataIter := ⟨none, default, 0, 0, 0⟩

namespace PHpoints

def slotBefore (ph : PHpoints) (index : Nat) : Nat :=
  if index = 0 then ph.vectorReservedSize - 1 else index - 1

def beginIteration (ph : PHpoints) (phDataIter : PHDataIter) : PHDataIter :=
  match phDataIter.ptrDataArray with
  | some _ => phDataIter
  | none => { phDataIter with
      cyclicIdx := if ph.iterateFull = true then ph.nextIdx else ph.slotBefore ph.nextIdx
      idx := if ph.iterateFull = true then 0 else 1
      ptrDataArray := some ph.pDataArray
      pDataArraySize := ph.phPointsSize }

def advance (ph : PHpoints) (phDataIter : PHDataIter) (array : Nat → PHData) : PHDataIter :=
  { phDataIter with
    cyclicIdx := ph.slotBefore phDataIter.cyclicIdx
    idx := phDataIter.idx + 1
    data := array (ph.slotBefore phDataIter.cyclicIdx) }

/-- The last argument is what `nextPHData` points to, unless it is null. -/
def iterate (ph : PHpoints) (phDataIter : PHDataIter) (nextPHData : Option PHData) :
    PHpointsRetval × PHDataIter × Option PHData :=
  let begun := ph.beginIteration phDataIter
  if begun.idx < begun.pDataArraySize then
    match begun.ptrDataArray with
    | none => (.phpError, begun, nextPHData)
    | some array =>
        let advanced := ph.advance begun array
        (.phpContinueIteration, advanced, nextPHData.map fun _ =>
          if advanced.idx < advanced.pDataArraySize - 1 then
            array (ph.slotBefore advanced.cyclicIdx)
          else invalidPoint)
  else (.phpTerminateIteration, begun, nextPHData)

def iterateAll (ph : PHpoints) (phDataIter : PHDataIter) :
    List (Option PHData) → List (PHpointsRetval × PHDataIter × Option PHData)
  | [] => []
  | nextPHData :: rest =>
      let result := ph.iterate phDataIter nextPHData
      result :: ph.iterateAll result.2.1 rest

theorem slotBefore_slot {ph : PHpoints} {count : Nat}
    (inside : ph.nextIdx < ph.vectorReservedSize) (turn : count + 1 ≤ ph.vectorReservedSize) :
    ph.slotBefore (ph.slot count) = ph.slot (count + 1) := by
  have slot_lt : ph.slot count < ph.vectorReservedSize := Nat.mod_lt _ (by omega)
  have previous : ph.slotBefore (ph.slot count) =
      Ring.previous ph.vectorReservedSize (ph.slot count) := by
    rw [slotBefore]
    split
    · next zero => rw [zero, Ring.previous_zero (by omega)]
    · rw [Ring.previous_of_pos slot_lt (by omega)]
  rw [previous]
  exact Ring.previous_back inside turn

/-! ## The points of an iteration -/

def iterated (ph : PHpoints) (points : List PHData) : List PHData :=
  if ph.iterateFull = true then points else points.tail

def yieldOf (point : Option PHData) : PHpointsRetval × Option PHData :=
  match point with
  | some point => (.phpContinueIteration, some point)
  | none => (.phpTerminateIteration, none)

def yielded (result : PHpointsRetval × PHDataIter × Option PHData) :
    PHpointsRetval × Option PHData :=
  (result.1, if result.1 = .phpContinueIteration then some result.2.1.data else none)

structure Positioned (ph : PHpoints) (phDataIter : PHDataIter) (count : Nat) : Prop where
  array : phDataIter.ptrDataArray = some ph.pDataArray
  size : phDataIter.pDataArraySize = ph.phPointsSize
  idx : phDataIter.idx = count
  cyclicIdx : 0 < ph.vectorReservedSize → phDataIter.cyclicIdx = ph.slot count

structure Fits (ph : PHpoints) : Prop where
  inside : 0 < ph.vectorReservedSize → ph.nextIdx < ph.vectorReservedSize
  size_le : ph.phPointsSize ≤ ph.vectorReservedSize

variable {ph : PHpoints} {phDataIter : PHDataIter}

theorem beginIteration_positioned (fits : ph.Fits) (fresh : phDataIter.ptrDataArray = none) :
    ph.Positioned (ph.beginIteration phDataIter) (if ph.iterateFull = true then 0 else 1) := by
  have first (positive : 0 < ph.vectorReservedSize) : ph.slot 0 = ph.nextIdx :=
    Ring.back_zero (fits.inside positive)
  cases full : ph.iterateFull with
  | true =>
      simp only [beginIteration, fresh, full, if_true]
      exact ⟨rfl, rfl, rfl, fun positive => (first positive).symm⟩
  | false =>
      simp only [beginIteration, fresh, full, Bool.false_eq_true, if_false]
      refine ⟨rfl, rfl, rfl, ?_⟩
      intro positive
      rw [← slotBefore_slot (fits.inside positive) positive, first positive]

theorem beginIteration_of_positioned {count : Nat}
    (positioned : ph.Positioned phDataIter count) :
    ph.beginIteration phDataIter = phDataIter := by
  rw [beginIteration, positioned.array]

theorem iterate_beginIteration (phDataIter : PHDataIter) (nextPHData : Option PHData) :
    ph.iterate (ph.beginIteration phDataIter) nextPHData =
      ph.iterate phDataIter nextPHData := by
  have again : ph.beginIteration (ph.beginIteration phDataIter) =
      ph.beginIteration phDataIter := by
    cases found : phDataIter.ptrDataArray with
    | none => simp [beginIteration, found]
    | some array => simp [beginIteration, found]
  simp only [iterate, again]

theorem iterate_continues (fits : ph.Fits) {count : Nat}
    (positioned : ph.Positioned phDataIter count) (more : count < ph.phPointsSize)
    (nextPHData : Option PHData) :
    (ph.iterate phDataIter nextPHData).1 = .phpContinueIteration ∧
      ph.Positioned (ph.iterate phDataIter nextPHData).2.1 (count + 1) ∧
      ph.livePoints[count]? = some (ph.iterate phDataIter nextPHData).2.1.data := by
  have size_le := fits.size_le
  have slots : 0 < ph.vectorReservedSize := by omega
  have next := slotBefore_slot (fits.inside slots) (more.trans_le size_le)
  rw [← positioned.cyclicIdx slots] at next
  have inside : phDataIter.idx < phDataIter.pDataArraySize := by
    rw [positioned.idx, positioned.size]
    exact more
  simp only [iterate, beginIteration_of_positioned positioned, inside, if_true,
    positioned.array, true_and]
  refine ⟨⟨positioned.array, positioned.size, congrArg (· + 1) positioned.idx, fun _ => next⟩, ?_⟩
  rw [livePoints, Ring.getElem?_contents _ _ _ more, advance, next, slot]

theorem iterate_terminates {count : Nat} (positioned : ph.Positioned phDataIter count)
    (none : ph.phPointsSize ≤ count) (nextPHData : Option PHData) :
    ph.iterate phDataIter nextPHData = (.phpTerminateIteration, phDataIter, nextPHData) := by
  have outside : ¬phDataIter.idx < phDataIter.pDataArraySize := by
    rw [positioned.idx, positioned.size]
    omega
  simp only [iterate, beginIteration_of_positioned positioned, outside, if_false]

theorem iterateAll_positioned (fits : ph.Fits) {count : Nat}
    (positioned : ph.Positioned phDataIter count) (calls : List (Option PHData)) :
    (ph.iterateAll phDataIter calls).map yielded =
      (List.range calls.length).map fun call => yieldOf ph.livePoints[count + call]? := by
  induction calls generalizing phDataIter count with
  | nil => rfl
  | cons nextPHData rest induction =>
      rw [iterateAll, List.map_cons, List.length_cons, List.range_succ_eq_map, List.map_cons,
        List.map_map]
      rcases Nat.lt_or_ge count ph.phPointsSize with more | none
      · rcases iterate_continues fits positioned more nextPHData with
          ⟨continues, passed, point⟩
        rw [induction passed]
        apply congrArg₂ List.cons
        · rw [yielded, continues, if_pos rfl, Nat.add_zero, point, yieldOf]
        apply List.map_congr_left
        intro call _
        rw [Function.comp_apply, Nat.add_right_comm]
        rfl
      · have behind (call : Nat) : ph.livePoints[count + call]? = Option.none := by
          rw [List.getElem?_eq_none]
          rw [length_livePoints]
          omega
        rw [iterate_terminates positioned none nextPHData, induction positioned]
        simp only [behind]
        rfl

theorem iterateAll_fresh (fits : ph.Fits) (fresh : phDataIter.ptrDataArray = none)
    (calls : List (Option PHData)) :
    (ph.iterateAll phDataIter calls).map yielded =
      (List.range calls.length).map fun call => yieldOf (ph.iterated ph.livePoints)[call]? := by
  have begun : (ph.iterateAll phDataIter calls).map yielded =
      (ph.iterateAll (ph.beginIteration phDataIter) calls).map yielded := by
    cases calls with
    | nil => rfl
    | cons nextPHData rest => rw [iterateAll, iterateAll, iterate_beginIteration]
  rw [begun, iterateAll_positioned fits (beginIteration_positioned fits fresh)]
  apply List.map_congr_left
  intro call _
  rw [iterated]
  split
  · rw [Nat.zero_add]
  · rw [List.getElem?_tail, Nat.add_comm]

/-! ## The point ahead -/

/-- A call that continues puts the point that the following call returns into
`nextPHData`, and an invalid one if the following call does not continue. -/
def LooksAhead (ph : PHpoints) (phDataIter : PHDataIter) : Prop :=
  ∀ nextPHData followingPHData,
    let call := ph.iterate phDataIter (some nextPHData)
    let following := ph.iterate call.2.1 followingPHData
    call.1 = .phpContinueIteration →
      call.2.2 = some (if following.1 = .phpContinueIteration then following.2.1.data
        else invalidPoint)

theorem iterate_of_pointer {array : Nat → PHData}
    (found : phDataIter.ptrDataArray = some array) (nextPHData : Option PHData) :
    ph.iterate phDataIter nextPHData =
      if phDataIter.idx < phDataIter.pDataArraySize then
        (.phpContinueIteration, ph.advance phDataIter array, nextPHData.map fun _ =>
          if phDataIter.idx + 1 < phDataIter.pDataArraySize - 1 then
            array (ph.slotBefore (ph.slotBefore phDataIter.cyclicIdx))
          else invalidPoint)
      else (.phpTerminateIteration, phDataIter, nextPHData) := by
  have begun : ph.beginIteration phDataIter = phDataIter := by rw [beginIteration, found]
  simp only [iterate, begun, found]
  rfl

theorem beginIteration_pointer (ph : PHpoints) (phDataIter : PHDataIter) :
    ∃ array, (ph.beginIteration phDataIter).ptrDataArray = some array := by
  cases pointer : phDataIter.ptrDataArray with
  | none => exact ⟨ph.pDataArray, by rw [beginIteration, pointer]⟩
  | some array => exact ⟨array, by rw [beginIteration, pointer, pointer]⟩

theorem iterate_advance {array : Nat → PHData}
    (found : phDataIter.ptrDataArray = some array) (followingPHData : Option PHData) :
    let following := ph.iterate (ph.advance phDataIter array) followingPHData
    (if following.1 = .phpContinueIteration then following.2.1.data else invalidPoint) =
      if phDataIter.idx + 1 < phDataIter.pDataArraySize then
        array (ph.slotBefore (ph.slotBefore phDataIter.cyclicIdx))
      else invalidPoint := by
  intro following
  have pointer : (ph.advance phDataIter array).ptrDataArray = some array := found
  have result := @iterate_of_pointer ph _ array pointer followingPHData
  change following = if phDataIter.idx + 1 < phDataIter.pDataArraySize then _ else _ at result
  rw [result]
  split
  · rw [if_pos rfl]
    rfl
  · apply if_neg
    intro continues
    cases continues

/-- The counter is advanced between its two comparisons with the size, so the point ahead
is missed exactly by the call that returns the last point but one. -/
theorem looksAhead_iff (ph : PHpoints) (phDataIter : PHDataIter) :
    ph.LooksAhead phDataIter ↔
      let begun := ph.beginIteration phDataIter
      begun.idx + 2 = begun.pDataArraySize → ∀ array ∈ begun.ptrDataArray,
        array (ph.slotBefore (ph.slotBefore begun.cyclicIdx)) = invalidPoint := by
  rcases ph.beginIteration_pointer phDataIter with ⟨array, found⟩
  simp only [LooksAhead, ← iterate_beginIteration phDataIter]
  generalize ph.beginIteration phDataIter = begun at found ⊢
  simp only [iterate_of_pointer found, Option.mem_def, found, Option.some.injEq, forall_eq',
    Option.map_some]
  rcases Nat.lt_or_ge begun.idx begun.pDataArraySize with inside | outside
  · simp only [inside, if_true, iterate_advance found, Option.some.injEq,
      forall_const]
    by_cases later : begun.idx + 2 < begun.pDataArraySize
    · rw [if_pos (by omega), if_pos (by omega)]
      exact iff_of_true rfl fun last => absurd last (by omega)
    · rw [if_neg (by omega)]
      by_cases last : begun.idx + 2 = begun.pDataArraySize
      · rw [if_pos (by omega), eq_comm]
        exact ⟨fun invalid _ => invalid, fun invalid => invalid last⟩
      · rw [if_neg (by omega)]
        exact iff_of_true rfl fun same => absurd same last
  · refine iff_of_true ?_ fun last => absurd last (by omega)
    intro _ _ continues
    rw [if_neg (by omega)] at continues
    cases continues

/-- Of three points the newest one is not returned, and the point ahead of the second one
is missed. -/
theorem not_looksAhead_of_three : ∃ final,
    Execution.run (TrackedPHpoints.perform TrackedPHpoints.lineDist)
        ⟨PHpoints.new default, []⟩
        [.insert (TrackedPHpoints.vehicleAt 0), .insert (TrackedPHpoints.vehicleAt 20),
          .insert (TrackedPHpoints.vehicleAt 40)] = some final ∧
      ¬final.object.LooksAhead .initializer := by
  refine ⟨_, (Option.some_get (by decide +kernel)).symm, fun looksAhead => ?_⟩
  have ahead := looksAhead default none (by decide +kernel)
  exact absurd ahead (by decide +kernel)

/-! ## Objects of a database -/

structure Standard (ph : PHpoints) : Prop where
  slots : 0 < ph.vectorReservedSize
  fits : ph.Fits
  iterateFull : ph.iterateFull = false

theorem new_standard (memory : UninitializedPHpoints) : (new memory).Standard :=
  ⟨Nat.zero_lt_succ 299, ⟨id, Nat.zero_le _⟩, rfl⟩

theorem removeWhile_iterateFull (calls : Nat) (ph : PHpoints) :
    (removeWhile calls ph).iterateFull = ph.iterateFull := by
  induction calls generalizing ph with
  | zero => rfl
  | succ calls induction =>
      rw [removeWhile]
      split
      · exact induction ph.removeOldest
      · rfl

theorem removeOld_iterateFull (ph : PHpoints) : ph.removeOld.iterateFull = ph.iterateFull := by
  rw [removeOld]
  split
  · split <;> rfl
  · exact removeWhile_iterateFull _ ph

theorem Standard.store {ph removed : PHpoints} (standard : ph.Standard)
    (removal : RemovedFrom ph removed) (policy : removed.iterateFull = ph.iterateFull)
    (newVehicleData : VehicleData) (pointDist : ℚ) :
    (removed.store newVehicleData pointDist).Standard := by
  have slots := standard.slots
  have fewer := removal.size_le.trans standard.fits.size_le
  rw [← removal.vectorReservedSize] at slots fewer
  refine ⟨slots, ⟨fun _ => Ring.next_lt slots _, ?_⟩, policy.trans standard.iterateFull⟩
  rw [store_phPointsSize]
  change _ ≤ removed.vectorReservedSize
  split <;> omega

theorem Standard.insert {ph : PHpoints} (standard : ph.Standard)
    (haversineDist : ℚ → ℚ → ℚ → ℚ → ℚ) (newVehicleData : VehicleData) :
    (ph.insert haversineDist newVehicleData).1.Standard := by
  rcases ph.insert_cases haversineDist newVehicleData with
    ⟨_, equal⟩ | ⟨_, _, equal⟩ | ⟨nonempty, keeps, _⟩
  · rw [equal]
    exact standard.store (.refl ph) rfl newVehicleData 0
  · rw [equal]
    exact standard
  · rcases insert_of_keeps haversineDist nonempty keeps with ⟨pointDist, equal⟩
    have removal := removeOld_removedFrom ph
    rw [equal]
    apply standard.store
    · exact ⟨removal.nextIdx, removal.vectorReservedSize, removal.pDataArray, removal.size_le⟩
    · exact ph.removeOld_iterateFull

end PHpoints

theorem TrackedPHpoints.Filled.fits {tracked : TrackedPHpoints} (filled : tracked.Filled) :
    tracked.object.Fits :=
  ⟨filled.inside, filled.size_le⟩

end AIM.Database
