import AIM.Database.Cardinality

namespace AIM.Database

/-! # The database as a map of stations

What the database is for: a map from stationIDs to the data inserted last and the
history of all data inserted since the station was last absent. -/

structure StationRecord where
  last : VehicleData
  inserted : List VehicleData

abbrev StationMap := UInt64 → Option StationRecord

namespace StationMap

def empty : StationMap := fun _ => none

def insert (stations : StationMap) (newVehicleData : VehicleData) : StationMap :=
  Function.update stations newVehicleData.stationID (some {
    last := newVehicleData
    inserted := ((stations newVehicleData.stationID).elim [] (·.inserted)) ++
      [newVehicleData] })

def remove (stations : StationMap) (stationID : UInt64) : StationMap :=
  Function.update stations stationID none

def deleteOlderThan (stations : StationMap) (now : UInt64) (timeMilliseconds : ℚ) :
    StationMap :=
  fun stationID => (stations stationID).filter
    fun record => !LDMMap.expired now timeMilliseconds record.last

def step (stations : StationMap) : MapOperation → StationMap
  | .insert newVehicleData => stations.insert newVehicleData
  | .remove stationID => stations.remove stationID
  | .lookup _ => stations
  | .deleteOlderThan now timeMilliseconds => stations.deleteOlderThan now timeMilliseconds
  | .deleteOlderThanAndExecute now timeMilliseconds =>
      stations.deleteOlderThan now timeMilliseconds
  | .clear => empty

end StationMap

section

variable (haversineDist : ℚ → ℚ → ℚ → ℚ → ℚ)

/-- The path history after a list of insertions into a new object. -/
def pathHistory (memory : UninitializedPHpoints) (inserted : List VehicleData) :
    PHpoints :=
  inserted.foldl (fun ph newVehicleData => (ph.insert haversineDist newVehicleData).1)
    (.new memory)

theorem pathHistory_append (memory : UninitializedPHpoints) (inserted : List VehicleData)
    (newVehicleData : VehicleData) :
    pathHistory haversineDist memory (inserted ++ [newVehicleData]) =
      ((pathHistory haversineDist memory inserted).insert haversineDist
        newVehicleData).1 :=
  List.foldl_concat _ _ _ _

def Holds (heap : PHpointsHeap) (stored : ReturnedVehicleData) (record : StationRecord) :
    Prop :=
  stored.vehData = record.last ∧ ∃ address memory, stored.phData = some address ∧
    heap.objects address = some (pathHistory haversineDist memory record.inserted)

structure Represents (map : LDMMap) (stations : StationMap) : Prop where
  inRange : ∀ {stationID record}, stations stationID = some record → InRange stationID
  absent : ∀ {stationID}, InRange stationID → stations stationID = none →
    map.entry stationID = none
  present : ∀ {stationID record}, stations stationID = some record →
    ∃ stored, map.entry stationID = some stored ∧ Holds haversineDist map.heap stored record

def Conforms (stations : StationMap) (next : LDMMap) : MapOperation → MapReply → Prop
  | .insert newVehicleData, .retval retval =>
      retval = (stations newVehicleData.stationID).elim .ldmmapOk fun _ => .ldmmapUpdated
  | .remove stationID, .retval retval =>
      retval = (stations stationID).elim .ldmmapItemNotFound fun _ => .ldmmapOk
  | .lookup stationID, .found retval retVehicleData =>
      match stations stationID with
      | none => retval = .ldmmapItemNotFound
      | some record => retval = .ldmmapOk ∧ ∃ stored, retVehicleData = some stored ∧
          Holds haversineDist next.heap stored record
  | .deleteOlderThan _ _, .unit => True
  | .deleteOlderThanAndExecute now timeMilliseconds, .called stationIDs =>
      stationIDs.Nodup ∧ ∀ stationID, stationID ∈ stationIDs ↔
        ∃ record, stations stationID = some record ∧
          LDMMap.expired now timeMilliseconds record.last = true
  | .clear, .unit => True
  | _, _ => False

end

namespace Represents

variable {haversineDist : ℚ → ℚ → ℚ → ℚ → ℚ} {map : LDMMap} {stations : StationMap}

theorem of_empty (heap : PHpointsHeap) :
    Represents haversineDist ⟨∅, 0, heap⟩ .empty where
  inRange found := nomatch found
  absent _ _ := rfl
  present found := nomatch found

/-! ## Insertion -/

theorem storedAt (represents : Represents haversineDist map stations)
    (wellFormed : map.WellFormed) (memory : UninitializedPHpoints) {next : LDMMap}
    {newVehicleData : VehicleData} {address : Nat} {history : PHpoints}
    (storing : LDMMap.WellFormed.StoredAt map next newVehicleData address history)
    (extended : history = pathHistory haversineDist memory
      ((stations newVehicleData.stationID).elim [] (·.inserted) ++ [newVehicleData]))
    (inRange : InRange newVehicleData.stationID)
    (unshared : ∀ {upper lower stored}, map.ldmmap.find upper lower = some stored →
      stored.phData = some address →
        upper = keyUpper newVehicleData.stationID ∧
        lower = keyLower newVehicleData.stationID) :
    Represents haversineDist next (stations.insert newVehicleData) := by
  constructor
  · intro stationID record found
    by_cases same : stationID = newVehicleData.stationID
    · rw [same]
      exact inRange
    · rw [StationMap.insert, Function.update_of_ne same] at found
      exact represents.inRange found
  · intro stationID stationRange missing
    by_cases same : stationID = newVehicleData.stationID
    · rw [same, StationMap.insert, Function.update_self] at missing
      cases missing
    · rw [StationMap.insert, Function.update_of_ne same] at missing
      rw [storing.entry_of_ne inRange stationRange same]
      exact represents.absent stationRange missing
  · intro stationID record found
    by_cases same : stationID = newVehicleData.stationID
    · rw [same, StationMap.insert, Function.update_self] at found
      cases found
      rw [same]
      exact ⟨_, storing.entry_self, rfl, address, memory, rfl,
        storing.history.trans (congrArg some extended)⟩
    · rw [StationMap.insert, Function.update_of_ne same] at found
      have stationRange := represents.inRange found
      rcases represents.present found with ⟨stored, entry, data, other, memory', pointer, live⟩
      refine ⟨stored, (storing.entry_of_ne inRange stationRange same).trans entry, data,
        other, memory', pointer, ?_⟩
      rw [← live]
      apply storing.others
      · rcases wellFormed.allocated entry with ⟨address', _, pointer', below, _⟩
        cases pointer.symm.trans pointer'
        exact below
      · rintro rfl
        exact keys_ne inRange stationRange same (unshared entry pointer)

theorem insert (represents : Represents haversineDist map stations)
    (wellFormed : map.WellFormed) {newVehicleData : VehicleData}
    (inRange : InRange newVehicleData.stationID) :
    ∃ next, map.insert haversineDist newVehicleData = some (next,
        (stations newVehicleData.stationID).elim .ldmmapOk fun _ => .ldmmapUpdated) ∧
      Represents haversineDist next (stations.insert newVehicleData) := by
  rcases wellFormed.insert_cases haversineDist newVehicleData with
    ⟨stored, address, object, next, found, pointer, live, inserted, _, _, storing⟩ |
    ⟨next, missing, inserted, _, _, storing⟩
  · cases recorded : stations newVehicleData.stationID with
    | none =>
        rw [represents.absent inRange recorded] at found
        cases found
    | some record =>
        rcases represents.present recorded with ⟨_, entry, _, _, memory, pointer', live'⟩
        cases found.symm.trans entry
        cases pointer.symm.trans pointer'
        cases live.symm.trans live'
        refine ⟨next, inserted,
          represents.storedAt wellFormed memory storing ?_ inRange ?_⟩
        · rw [recorded, Option.elim_some, pathHistory_append]
        · intro upper lower other otherFound same
          exact wellFormed.separate otherFound found (same.trans pointer.symm)
  · cases recorded : stations newVehicleData.stationID with
    | none =>
        refine ⟨next, inserted, represents.storedAt wellFormed
          (map.heap.memory map.heap.nextAddress) storing ?_ inRange ?_⟩
        · rw [recorded]
          rfl
        · intro upper lower other otherFound same
          rcases wellFormed.allocated otherFound with ⟨address, _, pointer, below, _⟩
          cases same.symm.trans pointer
          exact absurd below (Nat.lt_irrefl _)
    | some record =>
        rcases represents.present recorded with ⟨stored, entry, _⟩
        rw [missing] at entry
        cases entry

/-! ## Removal and sweeps -/

theorem of_fewer (represents : Represents haversineDist map stations) {next : LDMMap}
    (heap : next.heap = map.heap) {left : StationMap}
    (kept : ∀ {stationID record}, left stationID = some record →
      stations stationID = some record ∧ next.entry stationID = map.entry stationID)
    (dropped : ∀ {stationID}, InRange stationID → left stationID = none →
      next.entry stationID = none) : Represents haversineDist next left where
  inRange found := represents.inRange (kept found).1
  absent := dropped
  present := by
    intro stationID record found
    rw [heap, (kept found).2]
    exact represents.present (kept found).1

theorem remove (represents : Represents haversineDist map stations) {stationID : UInt64}
    (inRange : InRange stationID)
    (removable : stationID.toNat < 65536 ∨ map.entry stationID = none) :
    Represents haversineDist (map.remove stationID).1 (stations.remove stationID) := by
  have find := LDMMap.WellFormed.remove_find removable
  apply represents.of_fewer (LDMMap.WellFormed.remove_heap map stationID)
  · intro other record found
    by_cases same : other = stationID
    · rw [same, StationMap.remove, Function.update_self] at found
      cases found
    · rw [StationMap.remove, Function.update_of_ne same] at found
      refine ⟨found, ?_⟩
      rw [LDMMap.entry, find, if_neg (keys_ne inRange (represents.inRange found) same)]
      rfl
  · intro other otherRange missing
    by_cases same : other = stationID
    · rw [same, LDMMap.entry, find, if_pos ⟨rfl, rfl⟩]
    · rw [StationMap.remove, Function.update_of_ne same] at missing
      rw [LDMMap.entry, find, if_neg (keys_ne inRange otherRange same)]
      exact represents.absent otherRange missing

theorem deleteOlderThan (represents : Represents haversineDist map stations)
    (now : UInt64) (timeMilliseconds : ℚ) :
    Represents haversineDist (map.deleteOlderThanAndExecute now timeMilliseconds).1
      (stations.deleteOlderThan now timeMilliseconds) := by
  have entry : ∀ stationID,
      (map.deleteOlderThanAndExecute now timeMilliseconds).1.entry stationID =
        (map.entry stationID).filter
          fun stored => !LDMMap.olderThan now timeMilliseconds stored :=
    fun stationID => LDMMap.deleteOlderThanAndExecute_find now timeMilliseconds map _ _
  apply represents.of_fewer (LDMMap.deleteOlderThanAndExecute_heap now timeMilliseconds map)
  · intro stationID record found
    rcases Option.filter_eq_some_iff.mp found with ⟨recorded, fresh⟩
    refine ⟨recorded, ?_⟩
    rcases represents.present recorded with ⟨stored, present, data, _⟩
    rw [entry, present, Option.filter_some, if_pos]
    rw [LDMMap.olderThan, data]
    exact fresh
  · intro stationID inRange missing
    rw [entry]
    cases recorded : stations stationID with
    | none => rw [represents.absent inRange recorded, Option.filter_none]
    | some record =>
        rcases represents.present recorded with ⟨stored, present, data, _⟩
        rw [StationMap.deleteOlderThan, recorded, Option.filter_some] at missing
        rw [present, Option.filter_some, LDMMap.olderThan, data]
        split at missing
        · cases missing
        · next old => rw [if_neg old]

end Represents

/-! ## Replies -/

section

variable {haversineDist : ℚ → ℚ → ℚ → ℚ → ℚ} {map : LDMMap} {stations : StationMap}

theorem conforms_lookup (represents : Represents haversineDist map stations)
    {stationID : UInt64} (inRange : InRange stationID) :
    Conforms haversineDist stations map (.lookup stationID)
      (.found (map.lookup stationID).1 (map.lookup stationID).2) := by
  rw [LDMMap.lookup_eq]
  dsimp only [Conforms]
  cases recorded : stations stationID with
  | none =>
      rw [represents.absent inRange recorded]
  | some record =>
      rcases represents.present recorded with ⟨stored, entry, holds⟩
      rw [entry]
      exact ⟨rfl, stored, rfl, holds⟩

theorem lookup_ok_iff_of_conforms {stationID : UInt64} {next : LDMMap}
    {retval : LDMMapError} {retVehicleData : Option ReturnedVehicleData}
    (conforms : Conforms haversineDist stations next (.lookup stationID)
      (.found retval retVehicleData)) :
    retval = .ldmmapOk ↔ (stations stationID).isSome := by
  dsimp only [Conforms] at conforms
  cases recorded : stations stationID with
  | none =>
      rw [recorded] at conforms
      exact iff_of_false (by rw [conforms]; exact nofun) nofun
  | some record =>
      rw [recorded] at conforms
      exact iff_of_true conforms.1 rfl

theorem conforms_remove (represents : Represents haversineDist map stations)
    {stationID : UInt64} (inRange : InRange stationID) (next : LDMMap) :
    Conforms haversineDist stations next (.remove stationID)
      (.retval (map.remove stationID).2) := by
  dsimp only [Conforms]
  rw [LDMMap.remove_retval]
  cases recorded : stations stationID with
  | none => rw [if_pos (represents.absent inRange recorded), Option.elim_none]
  | some record =>
      rcases represents.present recorded with ⟨stored, entry, _⟩
      rw [entry, if_neg nofun, Option.elim_some]

theorem conforms_deleteOlderThanAndExecute
    (represents : Represents haversineDist map stations) (wellFormed : map.WellFormed)
    (now : UInt64) (timeMilliseconds : ℚ) (next : LDMMap) :
    Conforms haversineDist stations next (.deleteOlderThanAndExecute now timeMilliseconds)
      (.called (map.deleteOlderThanAndExecute now timeMilliseconds).2) := by
  refine ⟨wellFormed.sweep_called_nodup now timeMilliseconds List.nodup_nil
    (fun _ => List.not_mem_nil) _, fun stationID => ?_⟩
  rw [LDMMap.deleteOlderThanAndExecute_called]
  constructor
  · rintro ⟨upper, lower, stored, found, old, rfl⟩
    rcases wellFormed.keyed found with ⟨inRange, rfl, rfl⟩
    have entry : map.entry stored.vehData.stationID = some stored := found
    cases recorded : stations stored.vehData.stationID with
    | none =>
        rw [represents.absent inRange recorded] at entry
        cases entry
    | some record =>
        rcases represents.present recorded with ⟨stored', entry', data, _⟩
        cases entry.symm.trans entry'
        rw [LDMMap.olderThan, data] at old
        exact ⟨record, rfl, old⟩
  · rintro ⟨record, recorded, old⟩
    rcases represents.present recorded with ⟨stored, entry, data, _⟩
    refine ⟨_, _, stored, entry, ?_,
      wellFormed.entry_stationID (represents.inRange recorded) entry⟩
    rw [LDMMap.olderThan, data]
    exact old

end

/-! ## Runs -/

/-- The database beside the map of stations that it should represent. -/
structure Simulation where
  map : LDMMap
  stations : StationMap

namespace Simulation

def start (memory : Nat → UninitializedPHpoints) : Simulation :=
  ⟨.empty memory, .empty⟩

section

variable (haversineDist : ℚ → ℚ → ℚ → ℚ → ℚ)

def step (state : Simulation) (operation : MapOperation) : Option Simulation :=
  (state.map.step haversineDist operation).map fun next =>
    ⟨next, state.stations.step operation⟩

/-- The operation has a result, replies as the map of stations does, and leaves a
database that represents the next map of stations. -/
def Simulates (state : Simulation) (operation : MapOperation) : Prop :=
  ∃ next reply, state.map.perform haversineDist operation = some (next, reply) ∧
    Conforms haversineDist state.stations next operation reply ∧
    Represents haversineDist next (state.stations.step operation)

def Removable (state : Simulation) (operation : MapOperation) : Prop :=
  state.map.Removable operation

structure Valid (state : Simulation) : Prop where
  wellFormed : state.map.WellFormed
  represents : Represents haversineDist state.map state.stations

end

variable {haversineDist : ℚ → ℚ → ℚ → ℚ → ℚ} {state : Simulation}

theorem Valid.simulates (valid : state.Valid haversineDist) {operation : MapOperation}
    (inRange : operation.InRange) (removable : state.Removable operation) :
    state.Simulates haversineDist operation := by
  rcases valid with ⟨wellFormed, represents⟩
  cases operation with
  | insert newVehicleData =>
      rcases represents.insert wellFormed inRange with ⟨next, inserted, inserts⟩
      refine ⟨next, .retval _, ?_, rfl, inserts⟩
      rw [LDMMap.perform, inserted]
      rfl
  | remove stationID =>
      exact ⟨_, _, rfl, conforms_remove represents inRange _,
        represents.remove inRange removable⟩
  | lookup stationID =>
      exact ⟨_, _, rfl, conforms_lookup represents inRange, represents⟩
  | deleteOlderThan now timeMilliseconds =>
      refine ⟨_, .unit, rfl, trivial, ?_⟩
      rw [LDMMap.deleteOlderThan_eq]
      exact represents.deleteOlderThan now timeMilliseconds
  | deleteOlderThanAndExecute now timeMilliseconds =>
      exact ⟨_, _, rfl,
        conforms_deleteOlderThanAndExecute represents wellFormed now timeMilliseconds _,
        represents.deleteOlderThan now timeMilliseconds⟩
  | clear =>
      rcases wellFormed.clear with ⟨heap, cleared⟩
      refine ⟨⟨∅, 0, heap⟩, .unit, ?_, trivial, .of_empty heap⟩
      rw [LDMMap.perform, cleared]
      rfl

theorem Simulates.removable {operation : MapOperation} (inRange : operation.InRange)
    (simulates : state.Simulates haversineDist operation) :
    state.Removable operation := by
  cases operation with
  | remove stationID =>
      rcases simulates with ⟨next, reply, performed, _, represents⟩
      cases performed
      rcases Nat.lt_or_ge stationID.toNat 65536 with small | large
      · exact .inl small
      · have removed : state.stations.step (.remove stationID) stationID = none :=
          Function.update_self _ _ _
        have gone := represents.absent inRange removed
        rw [LDMMap.WellFormed.remove_entry_of_large inRange large] at gone
        exact .inr gone
  | insert | lookup | deleteOlderThan | deleteOlderThanAndExecute | clear => trivial

theorem Valid.step {next : Simulation} (valid : state.Valid haversineDist)
    {operation : MapOperation} (inRange : operation.InRange)
    (removable : state.Removable operation)
    (taken : state.step haversineDist operation = some next) :
    next.Valid haversineDist := by
  rcases valid.simulates inRange removable with ⟨result, reply, performed, _, represents⟩
  have stepped : state.map.step haversineDist operation = some result := by
    rw [LDMMap.step, performed]
    rfl
  rw [Simulation.step, stepped] at taken
  cases taken
  exact ⟨valid.wellFormed.step haversineDist inRange removable stepped, represents⟩

theorem valid_start (memory : Nat → UninitializedPHpoints) :
    (start memory).Valid haversineDist :=
  ⟨LDMMap.wellFormed_empty _, .of_empty _⟩

/-- The database simulates the map of stations throughout a run exactly when no
removal in it is of a present station from 65536 on. -/
theorem run_simulates_iff (haversineDist : ℚ → ℚ → ℚ → ℚ → ℚ)
    (memory : Nat → UninitializedPHpoints) (operations : List MapOperation)
    (inRange : ∀ operation ∈ operations, operation.InRange) :
    Execution.Always (step haversineDist) (Simulates haversineDist) (start memory)
        operations ↔
      Execution.Always (step haversineDist) Removable (start memory) operations := by
  apply Execution.Always.iff_of_invariant (Valid haversineDist) MapOperation.InRange
  · intro state operation next valid inRange removable taken
    exact valid.step inRange removable taken
  · intro state operation valid inRange
    exact ⟨Simulates.removable inRange, valid.simulates inRange⟩
  · exact valid_start memory
  · exact inRange

theorem run_simulates_small :
    Execution.Always (step LDMMap.noDist) (Simulates LDMMap.noDist) (start default)
        [.insert (LDMMap.station 12), .remove 12] ↔
      Execution.Always (step LDMMap.noDist) Removable (start default)
        [.insert (LDMMap.station 12), .remove 12] :=
  run_simulates_iff LDMMap.noDist default _ (by decide)

/-- The station 70000 is still found after its removal. -/
theorem not_simulates_of_large :
    let operations : List MapOperation :=
      [.insert (LDMMap.station 70000), .remove 70000, .lookup 70000]
    (∀ operation ∈ operations, operation.InRange) ∧
      ¬Execution.Always (step LDMMap.noDist) (Simulates LDMMap.noDist) (start default)
        operations := by
  intro operations
  refine ⟨by decide, fun always => ?_⟩
  have later := always.after
    [MapOperation.insert (LDMMap.station 70000), MapOperation.remove 70000]
    (Option.some_get (by decide +kernel)).symm
  rcases later.1 with ⟨next, reply, performed, conforms, _⟩
  cases performed
  exact absurd (lookup_ok_iff_of_conforms conforms) (by decide +kernel)

end Simulation

end AIM.Database
