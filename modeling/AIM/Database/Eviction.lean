import AIM.Database.StoredDistance
import Mathlib.Order.Bounds.Basic

namespace AIM.Database

/-! # Eviction

In the default policy `insert` removes the oldest points until the stored distance is
below the limit, and adds the new leg afterwards. The remaining points are compared with
the shortest history that still reaches the limit. -/

theorem monotone_distance_take {points : List PHData}
    (legs : ∀ point ∈ points, 0 ≤ point.pointDistance) :
    Monotone fun count => distance (points.take count) := by
  apply monotone_nat_of_le_succ
  intro count
  cases found : points[count]? with
  | none => rw [List.take_add_one, found, Option.toList_none, List.append_nil]
  | some point =>
      rw [distance_take_succ found]
      exact le_add_of_nonneg_right (legs point (List.mem_of_getElem? found))

theorem isLeast_distance_take_iff (point : PHData) (points : List PHData) (limit : ℚ)
    (count : Nat) :
    IsLeast {count | 1 ≤ count ∧ limit ≤ distance ((point :: points).take count)}
        (count + 1) ↔
      limit ≤ point.pointDistance + distance (points.take count) ∧
        ∀ fewer < count, point.pointDistance + distance (points.take fewer) < limit := by
  constructor
  · rintro ⟨⟨_, reaches⟩, least⟩
    rw [List.take_succ_cons, distance_cons] at reaches
    refine ⟨reaches, ?_⟩
    intro fewer earlier
    by_contra early
    have smaller : count + 1 ≤ fewer + 1 := by
      apply least
      rw [Set.mem_ofPred_eq, List.take_succ_cons, distance_cons]
      exact ⟨Nat.succ_pos fewer, not_lt.mp early⟩
    omega
  · rintro ⟨reaches, shorter⟩
    constructor
    · rw [Set.mem_ofPred_eq, List.take_succ_cons, distance_cons]
      exact ⟨Nat.succ_pos count, reaches⟩
    · rintro other ⟨positive, otherReaches⟩
      cases other with
      | zero => omega
      | succ fewer =>
          rw [List.take_succ_cons, distance_cons] at otherReaches
          by_contra earlier
          exact absurd otherReaches (not_le.mpr (shorter fewer (by omega)))

/-- The removal looks at the stored distance without the new leg: the points kept and the
one before them reach the limit. They are the shortest history with the new leg when the
new leg decides like the one of the point before. -/
theorem kept_shortest_iff {total : Nat → ℚ} (monotone : Monotone total)
    (start : total 0 = 0) {limit leg : ℚ} {kept size : Nat} (positive : 1 ≤ kept)
    (kept_le : kept ≤ size) (stopped : total kept < limit ∨ kept = 1)
    (removed : kept = size ∨ limit ≤ total (kept + 1)) (reaches : limit ≤ leg + total size) :
    (limit ≤ leg + total kept ∧ ∀ fewer < kept, leg + total fewer < limit) ↔
      leg < limit ∧ ∀ count < size, 1 ≤ count →
        (limit ≤ total (count + 1) ↔ limit ≤ leg + total count) := by
  constructor
  · rintro ⟨enough, shorter⟩
    constructor
    · simpa [start] using shorter 0 (by omega)
    · intro count inside several
      rcases Nat.lt_or_ge count kept with fewer | more
      · -- One more than `count` are kept, and neither sum reaches the limit.
        have below : total kept < limit := stopped.resolve_right (by omega)
        have next := (monotone (show count + 1 ≤ kept by omega)).trans_lt below
        exact iff_of_false (not_le.mpr next) (not_le.mpr (shorter count fewer))
      · have next := removed.resolve_left (by omega)
        apply iff_of_true
        · exact next.trans (monotone (by omega))
        · exact enough.trans (add_le_add_right (monotone more) leg)
  · rintro ⟨short, alike⟩
    constructor
    · rcases removed with all | next
      · rwa [all]
      · rcases Nat.lt_or_ge kept size with inside | all
        · exact (alike kept inside positive).mp next
        · rwa [Nat.le_antisymm kept_le all]
    · intro fewer earlier
      cases fewer with
      | zero => rwa [start, add_zero]
      | succ earliest =>
          have below : total kept < limit := stopped.resolve_right (by omega)
          have next := (monotone (show earliest + 1 + 1 ≤ kept by omega)).trans_lt below
          have undecided := (alike (earliest + 1) (by omega) (by omega)).not.mp
            (not_le.mpr next)
          exact not_le.mp undecided

namespace PHpoints

structure Consistent (ph : PHpoints) : Prop where
  ends : ph.EndsAtOldest
  accounts : ph.Accounts
  legs : ∀ point ∈ ph.livePoints, 0 ≤ point.pointDistance

theorem removeOld_of_default {ph : PHpoints} (policy : ph.removeOnlyOne = false) :
    ph.removeOld = removeWhile ph.phPointsSize ph := by
  rw [removeOld, policy, if_neg Bool.false_ne_true]

theorem removeWhile_distanceLimit (fuel : Nat) (ph : PHpoints) :
    (removeWhile fuel ph).distanceLimit = ph.distanceLimit := by
  induction fuel generalizing ph with
  | zero => rfl
  | succ fuel induction =>
      rw [removeWhile]
      split
      · exact induction ph.removeOldest
      · rfl

theorem removeWhile_nonempty (fuel : Nat) {ph : PHpoints} (nonempty : 1 ≤ ph.phPointsSize) :
    1 ≤ (removeWhile fuel ph).phPointsSize := by
  induction fuel generalizing ph with
  | zero => exact nonempty
  | succ fuel induction =>
      rw [removeWhile]
      split
      · next condition =>
          apply induction
          rw [removeOldest_phPointsSize]
          omega
      · exact nonempty

theorem removeWhile_removed (fuel : Nat) {ph : PHpoints} (accounts : ph.Accounts)
    (ends : ph.EndsAtOldest) :
    (removeWhile fuel ph).phPointsSize = ph.phPointsSize ∨
      ph.distanceLimit ≤
        distance (ph.livePoints.take ((removeWhile fuel ph).phPointsSize + 1)) := by
  induction fuel generalizing ph with
  | zero => exact .inl rfl
  | succ fuel induction =>
      rw [removeWhile]
      split
      · next condition =>
          right
          have nonempty := condition.2.le
          have fewer := (removeWhile_removedFrom fuel ph.removeOldest).size_le
          rw [removeOldest_phPointsSize] at fewer
          rcases Nat.eq_or_lt_of_le fewer with all | inside
          · rw [all, Nat.sub_add_cancel nonempty, List.take_of_length_le (by simp), ← accounts]
            exact condition.1
          · have reaches := (induction (removeOldest_accounts accounts ends nonempty)
              (removeOldest_endsAtOldest ends nonempty)).resolve_left inside.ne
            rw [(removeOldest_removedFrom ph).livePoints, List.take_take,
              removeOldest_phPointsSize, Nat.min_eq_left inside] at reaches
            exact reaches
      · exact .inl rfl

section

variable (haversineDist : ℚ → ℚ → ℚ → ℚ → ℚ) (ph : PHpoints) (newVehicleData : VehicleData)

/-- The distance with which `insert` stores a point. -/
def leg : ℚ :=
  if 1 ≤ ph.phPointsSize then
    haversineDist (ph.pDataArray ph.prevIdx).lat (ph.pDataArray ph.prevIdx).lon
      newVehicleData.lat newVehicleData.lon
  else 0

def candidates : List PHData :=
  pointOf newVehicleData (ph.leg haversineDist newVehicleData) :: ph.livePoints

/-- The shortest history that reaches the limit is kept, or all of it when none does. The
loop ends because its condition fails, and leaves the last stored point. -/
structure KeepsShortest : Prop where
  shortest : ph.distanceLimit ≤ distance (ph.candidates haversineDist newVehicleData) →
    (ph.insert haversineDist newVehicleData).1.livePoints =
        (ph.candidates haversineDist newVehicleData).take
          (ph.insert haversineDist newVehicleData).1.phPointsSize ∧
      IsLeast {count | 1 ≤ count ∧ ph.distanceLimit ≤
          distance ((ph.candidates haversineDist newVehicleData).take count)}
        (ph.insert haversineDist newVehicleData).1.phPointsSize
  whole : distance (ph.candidates haversineDist newVehicleData) < ph.distanceLimit →
    (ph.insert haversineDist newVehicleData).1.livePoints =
      ph.candidates haversineDist newVehicleData
  finished : ¬(ph.removeOld.distanceLimit ≤ ph.removeOld.storedDistance ∧
    1 < ph.removeOld.phPointsSize)
  lastStored : 1 ≤ ph.phPointsSize →
    1 ≤ ph.removeOld.phPointsSize ∧ ph.removeOld.livePoints.head? = ph.livePoints.head?

/-- The new leg alone is below the limit, and together with the last `count` legs it
reaches the limit exactly when one more of the stored legs does. -/
def LegsAgree : Prop :=
  1 ≤ ph.phPointsSize →
    ph.leg haversineDist newVehicleData < ph.distanceLimit ∧
    ∀ count < ph.phPointsSize, 1 ≤ count →
      (ph.distanceLimit ≤ distance (ph.livePoints.take (count + 1)) ↔
        ph.distanceLimit ≤
          ph.leg haversineDist newVehicleData + distance (ph.livePoints.take count))

instance : Decidable (ph.LegsAgree haversineDist newVehicleData) :=
  inferInstanceAs (Decidable (_ → _ ∧ ∀ count < _, _))

variable {haversineDist ph newVehicleData}

theorem insert_inserted (nonempty : 1 ≤ ph.phPointsSize)
    (inserted : (ph.insert haversineDist newVehicleData).2 = .phpInserted) :
    (ph.insert haversineDist newVehicleData).1.livePoints =
      (ph.removeOld.store newVehicleData
        (ph.leg haversineDist newVehicleData)).livePoints := by
  rcases ph.insert_cases haversineDist newVehicleData with
    ⟨empty, _⟩ | ⟨_, _, equal⟩ | ⟨_, keeps, _⟩
  · omega
  · rw [equal] at inserted
    cases inserted
  · rw [insert, if_pos nonempty, leg, if_pos nonempty]
    exact congrArg (fun result : PHpoints × PHpointsRetval => result.1.livePoints)
      (if_neg keeps)

theorem insert_livePoints (ends : ph.EndsAtOldest)
    (room : ph.phPointsSize < ph.vectorReservedSize)
    (inserted : (ph.insert haversineDist newVehicleData).2 = .phpInserted) :
    (ph.insert haversineDist newVehicleData).1.phPointsSize =
        ph.removeOld.phPointsSize + 1 ∧
      (ph.insert haversineDist newVehicleData).1.livePoints =
        (ph.candidates haversineDist newVehicleData).take
          (ph.removeOld.phPointsSize + 1) := by
  have removal := removeOld_removedFrom ph
  have fewer := removal.size_le
  have capacity := removal.vectorReservedSize
  have live : (ph.insert haversineDist newVehicleData).1.livePoints =
      pointOf newVehicleData (ph.leg haversineDist newVehicleData) ::
        ph.removeOld.livePoints := by
    by_cases nonempty : 1 ≤ ph.phPointsSize
    · have stored := removeOld_endsAtOldest ends nonempty
      rw [insert_inserted nonempty inserted, livePoints_store stored.inside stored.size_le,
        List.take_of_length_le]
      rw [length_livePoints]
      omega
    · rw [insert, if_neg nonempty, livePoints_store ends.inside ends.size_le, leg,
        if_neg nonempty, livePoints_of_empty (by omega : ph.phPointsSize = 0),
        livePoints_of_empty (by omega : ph.removeOld.phPointsSize = 0), List.take_nil]
  refine ⟨?_, ?_⟩
  · rw [← length_livePoints, live, List.length_cons, length_livePoints]
  · rw [live, candidates, List.take_succ_cons, removal.livePoints]

variable (nonneg : ∀ latA lonA latB lonB, 0 ≤ haversineDist latA lonA latB lonB)

include nonneg in
theorem leg_nonneg : 0 ≤ ph.leg haversineDist newVehicleData := by
  rw [leg]
  split
  · exact nonneg _ _ _ _
  · exact le_refl 0

theorem removeOld_kept (policy : ph.removeOnlyOne = false) (consistent : ph.Consistent)
    (nonempty : 1 ≤ ph.phPointsSize) :
    1 ≤ ph.removeOld.phPointsSize ∧
      (distance (ph.livePoints.take ph.removeOld.phPointsSize) < ph.distanceLimit ∨
        ph.removeOld.phPointsSize = 1) ∧
      (ph.removeOld.phPointsSize = ph.phPointsSize ∨
        ph.distanceLimit ≤ distance (ph.livePoints.take (ph.removeOld.phPointsSize + 1))) := by
  have accounts := removeOld_accounts consistent.accounts consistent.ends nonempty
  rw [Accounts, (removeOld_removedFrom ph).livePoints] at accounts
  have loop := removeOld_of_default policy
  have finished := removeWhile_finished ph.phPointsSize ph (Nat.le_refl _)
  rw [removeWhile_distanceLimit, ← loop, accounts] at finished
  have several : 1 ≤ ph.removeOld.phPointsSize := by
    rw [loop]
    exact removeWhile_nonempty _ nonempty
  refine ⟨several, ?_, ?_⟩
  · by_cases one : ph.removeOld.phPointsSize = 1
    · exact .inr one
    · left
      by_contra long
      exact finished ⟨not_lt.mp long, by omega⟩
  · rw [loop]
    exact removeWhile_removed _ consistent.accounts consistent.ends

theorem distance_candidates : distance (ph.candidates haversineDist newVehicleData) =
    ph.leg haversineDist newVehicleData + distance (ph.livePoints.take ph.phPointsSize) := by
  rw [List.take_of_length_le (by simp), candidates, distance_cons]
  rfl

theorem isLeast_iff_legsAgree (policy : ph.removeOnlyOne = false)
    (consistent : ph.Consistent) (nonempty : 1 ≤ ph.phPointsSize)
    (reaches : ph.distanceLimit ≤ distance (ph.candidates haversineDist newVehicleData)) :
    IsLeast {count | 1 ≤ count ∧ ph.distanceLimit ≤
        distance ((ph.candidates haversineDist newVehicleData).take count)}
        (ph.removeOld.phPointsSize + 1) ↔
      ph.LegsAgree haversineDist newVehicleData := by
  rcases removeOld_kept policy consistent nonempty with ⟨several, stopped, removed⟩
  rw [distance_candidates] at reaches
  rw [candidates, isLeast_distance_take_iff]
  apply (kept_shortest_iff (monotone_distance_take consistent.legs) rfl several
    (removeOld_removedFrom ph).size_le stopped removed reaches).trans
  exact ⟨fun agree _ => agree, fun agree => agree nonempty⟩

theorem legsAgree_of_below (consistent : ph.Consistent)
    (nonneg : 0 ≤ ph.leg haversineDist newVehicleData)
    (below : distance (ph.candidates haversineDist newVehicleData) < ph.distanceLimit) :
    ph.LegsAgree haversineDist newVehicleData := by
  have monotone := monotone_distance_take consistent.legs
  rw [distance_candidates] at below
  intro nonempty
  constructor
  · exact (le_add_of_nonneg_right (monotone (Nat.zero_le _))).trans_lt below
  · intro count inside _
    apply iff_of_false
    · apply not_le.mpr
      apply lt_of_le_of_lt (monotone inside)
      exact (le_add_of_nonneg_left nonneg).trans_lt below
    · apply not_le.mpr
      exact (add_le_add_right (monotone inside.le) _).trans_lt below

theorem insert_isLeast_iff (policy : ph.removeOnlyOne = false) (consistent : ph.Consistent)
    (size : (ph.insert haversineDist newVehicleData).1.phPointsSize =
      ph.removeOld.phPointsSize + 1)
    (reaches : ph.distanceLimit ≤ distance (ph.candidates haversineDist newVehicleData)) :
    IsLeast {count | 1 ≤ count ∧ ph.distanceLimit ≤
        distance ((ph.candidates haversineDist newVehicleData).take count)}
        (ph.insert haversineDist newVehicleData).1.phPointsSize ↔
      ph.LegsAgree haversineDist newVehicleData := by
  rw [size]
  by_cases nonempty : 1 ≤ ph.phPointsSize
  · exact isLeast_iff_legsAgree policy consistent nonempty reaches
  · -- The history of the new point alone is the only one.
    have fewer := (removeOld_removedFrom ph).size_le
    have empty : ph.removeOld.phPointsSize = 0 := by omega
    refine iff_of_true ?_ fun points => absurd points nonempty
    rw [empty, candidates, isLeast_distance_take_iff]
    refine ⟨?_, fun fewer none => absurd none (Nat.not_lt_zero fewer)⟩
    rwa [candidates, livePoints_of_empty (by omega), distance_cons] at reaches

/-- In the default policy the shortest history that reaches the limit is kept exactly when
the legs agree. -/
theorem keepsShortest_iff (haversineDist : ℚ → ℚ → ℚ → ℚ → ℚ)
    (nonneg : ∀ latA lonA latB lonB, 0 ≤ haversineDist latA lonA latB lonB) (ph : PHpoints)
    (policy : ph.removeOnlyOne = false) (consistent : ph.Consistent)
    (room : ph.phPointsSize < ph.vectorReservedSize) (newVehicleData : VehicleData)
    (inserted : (ph.insert haversineDist newVehicleData).2 = .phpInserted) :
    ph.KeepsShortest haversineDist newVehicleData ↔
      ph.LegsAgree haversineDist newVehicleData := by
  rcases insert_livePoints consistent.ends room inserted with ⟨size, live⟩
  constructor
  · intro keeps
    rcases le_or_gt ph.distanceLimit (distance (ph.candidates haversineDist newVehicleData))
      with reaches | below
    · exact (insert_isLeast_iff policy consistent size reaches).mp (keeps.shortest reaches).2
    · exact legsAgree_of_below consistent (leg_nonneg nonneg) below
  · intro agree
    refine ⟨?_, ?_, ?_, ?_⟩
    · intro reaches
      refine ⟨?_, (insert_isLeast_iff policy consistent size reaches).mpr agree⟩
      rw [live, size]
    · intro below
      have short : ph.storedDistance < ph.distanceLimit := by
        rw [consistent.accounts]
        rw [candidates, distance_cons] at below
        exact (le_add_of_nonneg_left (leg_nonneg nonneg)).trans_lt below
      rw [live, removeOld_of_short short, List.take_of_length_le]
      rw [candidates, List.length_cons, length_livePoints]
    · rw [removeOld_of_default policy]
      exact removeWhile_finished _ ph (Nat.le_refl _)
    · intro nonempty
      have several := (removeOld_kept policy consistent nonempty).1
      refine ⟨several, ?_⟩
      rw [(removeOld_removedFrom ph).livePoints, List.head?_take, if_neg (by omega)]

end

/-! Vehicles at some positions of a line, with the default limits. -/

def historyAt (positions : List ℚ) : PHpoints :=
  (TrackedPHpoints.run TrackedPHpoints.lineDist ⟨new default, []⟩
    (positions.map fun lat => .insert (TrackedPHpoints.vehicleAt lat))).object

theorem lineDist_nonneg (latA lonA latB lonB : ℚ) :
    0 ≤ TrackedPHpoints.lineDist latA lonA latB lonB := abs_nonneg _

theorem consistent_evenHistory : (historyAt [0, 100, 200, 300]).Consistent :=
  ⟨⟨by decide +kernel, by decide +kernel, by decide +kernel⟩, by decide +kernel,
    by decide +kernel⟩

theorem consistent_unevenHistory : (historyAt [0, 150, 301]).Consistent :=
  ⟨⟨by decide +kernel, by decide +kernel, by decide +kernel⟩, by decide +kernel,
    by decide +kernel⟩

/-- Evenly spaced points hide the difference. -/
theorem keepsShortest_iff_even :
    (historyAt [0, 100, 200, 300]).KeepsShortest TrackedPHpoints.lineDist
      (TrackedPHpoints.vehicleAt 400) :=
  (keepsShortest_iff TrackedPHpoints.lineDist lineDist_nonneg _ (by decide +kernel)
    consistent_evenHistory (by decide +kernel) (TrackedPHpoints.vehicleAt 400)
    (by decide +kernel)).mpr (by decide +kernel)

/-- After legs of 150 and 151 metres and a new one of 30 metres 331 metres would reach the
limit, but only 181 metres are kept. -/
theorem not_keepsShortest_of_uneven :
    (historyAt [0, 150, 301]).Consistent ∧
    (historyAt [0, 150, 301]).removeOnlyOne = false ∧
    (historyAt [0, 150, 301]).phPointsSize < (historyAt [0, 150, 301]).vectorReservedSize ∧
    ((historyAt [0, 150, 301]).insert TrackedPHpoints.lineDist
      (TrackedPHpoints.vehicleAt 331)).2 = .phpInserted ∧
    ¬(historyAt [0, 150, 301]).KeepsShortest TrackedPHpoints.lineDist
      (TrackedPHpoints.vehicleAt 331) := by
  refine ⟨consistent_unevenHistory, by decide +kernel, by decide +kernel,
    by decide +kernel, fun keeps => ?_⟩
  have shortest := (keeps.shortest (by decide +kernel)).2.1.2
  exact absurd shortest (by decide +kernel)

end PHpoints

end AIM.Database
