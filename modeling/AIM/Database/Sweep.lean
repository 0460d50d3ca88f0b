import AIM.Database.Operations

namespace AIM.Database

/-! # What a sweep removes and reports

`deleteOlderThanAndExecute` on a well-formed database: what it erases, which calls of the
callback it makes, and how it compares with `deleteOlderThan`. -/

namespace LDMMap

/-- The unsigned difference to the clock as an exact number of milliseconds. -/
def ageMilliseconds (now : UInt64) (stored : ReturnedVehicleData) : ℚ :=
  ((now - stored.vehData.timestampUs).toNat : ℚ) / 1000

/-- The entries with an age above the limit are erased and reported, in the order of the
iteration, and nothing else changes. -/
structure SweepsExactly (map : LDMMap) (now : UInt64) (timeMilliseconds : ℚ) : Prop where
  entries : ∀ upper lower stored,
    (map.deleteOlderThanAndExecute now timeMilliseconds).1.ldmmap.find upper lower =
        some stored ↔
      map.ldmmap.find upper lower = some stored ∧
        ¬timeMilliseconds < ageMilliseconds now stored
  heap : (map.deleteOlderThanAndExecute now timeMilliseconds).1.heap = map.heap
  called : (map.deleteOlderThanAndExecute now timeMilliseconds).2 =
    ((NestedMap.toList map.ldmmap).filter fun item =>
      timeMilliseconds < ageMilliseconds now item.2).map fun item => item.2.vehData.stationID
  once : (map.deleteOlderThanAndExecute now timeMilliseconds).2.Nodup
  counted : (map.deleteOlderThanAndExecute now timeMilliseconds).1.card.toNat +
    (map.deleteOlderThanAndExecute now timeMilliseconds).2.length = map.card.toNat
  same : map.deleteOlderThan now timeMilliseconds =
    (map.deleteOlderThanAndExecute now timeMilliseconds).1

variable (now : UInt64) (timeMilliseconds : ℚ)

theorem sweptEntries_sweepLower (state : LDMMap × List UInt64) {upper other : UInt32}
    (different : other ≠ upper) :
    sweptEntries now timeMilliseconds (sweepLower now timeMilliseconds state upper).1 other =
      sweptEntries now timeMilliseconds state.1 other := by
  rw [sweptEntries, sweptEntries, sweepLower_lookup, if_neg different]

theorem sweep_calls {uppers : List UInt32} (nodup : uppers.Nodup)
    (state : LDMMap × List UInt64) :
    (uppers.foldl (sweepLower now timeMilliseconds) state).2 =
      state.2 ++ uppers.flatMap fun upper =>
        (sweptEntries now timeMilliseconds state.1 upper).map
          fun entry => entry.2.vehData.stationID := by
  induction uppers generalizing state with
  | nil => simp
  | cons first rest induction =>
      rcases List.nodup_cons.mp nodup with ⟨fresh, later⟩
      have unchanged : ∀ upper ∈ rest,
          sweptEntries now timeMilliseconds (sweepLower now timeMilliseconds state first).1
              upper =
            sweptEntries now timeMilliseconds state.1 upper := by
        intro upper member
        apply sweptEntries_sweepLower
        rintro rfl
        exact fresh member
      have reported : (sweepLower now timeMilliseconds state first).2 =
          state.2 ++ (sweptEntries now timeMilliseconds state.1 first).map
            fun entry => entry.2.vehData.stationID :=
        congrArg Prod.snd (sweepLower_eq now timeMilliseconds state first)
      rw [List.foldl_cons, induction later, reported, List.flatMap_cons, List.append_assoc]
      congr 2
      exact List.flatMap_congr fun upper member => by rw [unchanged upper member]

theorem flatMap_sweptEntries (map : LDMMap) :
    (map.ldmmap.keys.flatMap fun upper =>
        (sweptEntries now timeMilliseconds map upper).map
          fun entry => entry.2.vehData.stationID) =
      ((NestedMap.toList map.ldmmap).filter fun item =>
        timeMilliseconds < ageMilliseconds now item.2).map
          fun item => item.2.vehData.stationID := by
  rw [AList.keys, List.keys, List.flatMap_map, NestedMap.toList, List.filter_flatMap,
    List.map_flatMap]
  apply List.flatMap_congr
  intro entry member
  have found : map.ldmmap.lookup entry.1 = some entry.2 := AList.mem_lookup_iff.mpr member
  simp only [sweptEntries, found, Assoc.erased]
  rw [List.filter_map, List.map_map]
  rfl

namespace WellFormed

variable {map : LDMMap} (wellFormed : map.WellFormed)

include wellFormed

theorem sweep_counted (called : List UInt64) (uppers : List UInt32) :
    (uppers.foldl (LDMMap.sweepLower now timeMilliseconds) (map, called)).1.card.toNat +
        (uppers.foldl (LDMMap.sweepLower now timeMilliseconds) (map, called)).2.length =
      map.card.toNat + called.length := by
  induction uppers generalizing map called with
  | nil => rfl
  | cons upper rest induction =>
      have counter := sweepLower_card now timeMilliseconds (map, called) upper
        (Nat.le_of_eq wellFormed.counted.symm)
      have calls : (LDMMap.sweepLower now timeMilliseconds (map, called) upper).2.length =
          called.length + (sweptEntries now timeMilliseconds map upper).length := by
        rw [sweepLower_eq, List.length_append, List.length_map]
      have later := induction (wellFormed.sweepLower now timeMilliseconds called upper)
        (LDMMap.sweepLower now timeMilliseconds (map, called) upper).2
      rw [Prod.mk.eta] at later
      dsimp only at counter
      rw [List.foldl_cons, later]
      omega

/-- A sweep of a well-formed database erases and reports the entries above the age
limit. -/
theorem sweepsExactly : map.SweepsExactly now timeMilliseconds where
  entries upper lower stored := by
    rw [deleteOlderThanAndExecute_find, Option.filter_eq_some_iff]
    simp [olderThan, expired, ageMilliseconds]
  heap := deleteOlderThanAndExecute_heap now timeMilliseconds map
  called := by
    rw [LDMMap.deleteOlderThanAndExecute,
      sweep_calls now timeMilliseconds map.ldmmap.keys_nodup, List.nil_append]
    exact flatMap_sweptEntries now timeMilliseconds map
  once := by
    apply wellFormed.sweep_called_nodup now timeMilliseconds List.nodup_nil
    intro upper lower stored _ member
    cases member
  counted := wellFormed.sweep_counted now timeMilliseconds [] map.ldmmap.keys
  same := deleteOlderThan_eq now timeMilliseconds map

end WellFormed

/-! Two old stations and a recent one, in two lower maps. -/

def agingStations : List MapOperation :=
  [.insert (station 12), .insert (station 70000),
    .insert { station 70001 with timestampUs := 4500000 }]

theorem sweepsExactly_agingStations : ∃ map,
    Execution.run (step noDist) (empty default) agingStations = some map ∧
      map.SweepsExactly 5000000 1000 ∧
      (map.deleteOlderThanAndExecute 5000000 1000).2.Perm [12, 70000] ∧
      ((map.deleteOlderThanAndExecute 5000000 1000).1.entry 70001).isSome := by
  have reached := (Option.some_get (show (Execution.run (step noDist) (empty default)
    agingStations).isSome by decide +kernel)).symm
  refine ⟨_, reached, WellFormed.sweepsExactly 5000000 1000 ?_, ?_, ?_⟩
  · refine Execution.run_keeps WellFormed
      (fun operation => operation.InRange ∧ ∀ map : LDMMap, map.Removable operation) ?_
      (wellFormed_empty (.empty default)) ?_ reached
    · intro map operation next wellFormed allowed taken
      exact wellFormed.step noDist allowed.1 (allowed.2 map) taken
    · rw [agingStations, List.forall_mem_cons, List.forall_mem_cons, List.forall_mem_singleton]
      exact ⟨⟨by decide, fun _ => trivial⟩, ⟨by decide, fun _ => trivial⟩, by decide,
        fun _ => trivial⟩
  · decide +kernel
  · decide +kernel

end LDMMap

end AIM.Database
