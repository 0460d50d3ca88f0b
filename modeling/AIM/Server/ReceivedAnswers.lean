import AIM.Client.AgeCheck
import AIM.Client.ObjectTypes
import AIM.Server.AnswerText

namespace AIM.Server

open Client Database Decoder

/-! # From the CAMs to the answers

What the clients of the server are sent goes back to the CAMs that were received: a station is
answered with the record of its newest CAM that was not discarded. -/

structure IsOfCam (vehdata : VehicleData) (reception : Reception) (cam : Cam) : Prop where
  stationID : vehdata.stationID = cam.stationID.toUInt64
  lat : vehdata.lat = cam.basicContainer.referencePosition.latitude / 10000000
  lon : vehdata.lon = cam.basicContainer.referencePosition.longitude / 10000000
  heading : vehdata.heading =
    cam.highFrequencyContainer.basicVehicleContainerHighFrequency.headingValue / 10
  speedMs : vehdata.speedMs =
    cam.highFrequencyContainer.basicVehicleContainerHighFrequency.speedValue / 100
  stationType : vehdata.stationType = cam.basicContainer.stationType
  timestampUs : vehdata.timestampUs = reception.timestampUs

section

variable (haversineDist : ℚ → ℚ → ℚ → ℚ → ℚ) (client : SocketClient) (start : LDMMap)

structure RecordedAfter (before : List DatabaseEvent) (reception : Reception) (locals : Locals)
    (vehdata : VehicleData) : Prop where
  reached : ∃ map, Execution.run (DatabaseEvent.step haversineDist client) start before =
      some map ∧ insertedRecord client map reception locals = some vehdata
  cam : ∃ decodedCam, castCam client.options.enableEnhancedCAMs
      (decode client reception locals).decodedData.decodedMsg = some decodedCam ∧
    IsOfCam vehdata reception decodedCam.base

/-- The record was made of a message, and no later one made a record of its station. -/
def NewestRecord (events : List DatabaseEvent) (vehdata : VehicleData) : Prop :=
  ∃ before reception locals after,
    events = before ++ .message reception locals :: after ∧
    RecordedAfter haversineDist client start before reception locals vehdata ∧
    ∀ between later laterLocals rest, after = between ++ .message later laterLocals :: rest →
      ∀ other, RecordedAfter haversineDist client start
          (before ++ .message reception locals :: between) later laterLocals other →
        other.stationID ≠ vehdata.stationID

end

variable {haversineDist : ℚ → ℚ → ℚ → ℚ → ℚ} {client : SocketClient} {start map next : LDMMap}
  {events : List DatabaseEvent}

theorem isOfCam_vehdataOf (map : LDMMap) (reception : Reception) (memory : VehicleData)
    (decodedData : EtsiDecodedData) (decodedCam : DecodedCam) :
    IsOfCam (vehdataOf map reception memory decodedData decodedCam) reception decodedCam.base := by
  rw [vehdataOf, withNodeStatus_frame]
  exact ⟨rfl, rfl, rfl, rfl, rfl, rfl, rfl⟩

theorem recordedAfter_of_inserted {before : List DatabaseEvent} {reception : Reception}
    {locals : Locals} {vehdata : VehicleData}
    (reached : Execution.run (DatabaseEvent.step haversineDist client) start before = some map)
    (record : insertedRecord client map reception locals = some vehdata) :
    RecordedAfter haversineDist client start before reception locals vehdata := by
  refine ⟨⟨map, reached, record⟩, ?_⟩
  rcases insertedRecord_eq_some_iff.mp record with ⟨_, _, decodedCam, cast, _, rfl⟩
  exact ⟨decodedCam, cast, isOfCam_vehdataOf _ _ _ _ _⟩

theorem newestRecord_inserted {reception : Reception} {locals : Locals} {vehdata : VehicleData}
    (reached : Execution.run (DatabaseEvent.step haversineDist client) start events = some map)
    (record : insertedRecord client map reception locals = some vehdata) :
    NewestRecord haversineDist client start (events ++ [.message reception locals]) vehdata := by
  refine ⟨events, reception, locals, [], rfl, recordedAfter_of_inserted reached record, ?_⟩
  intro between later laterLocals rest split
  exact absurd split.symm (List.append_ne_nil_of_right_ne_nil _ (List.cons_ne_nil _ _))

theorem NewestRecord.later {vehdata : VehicleData}
    (newest : NewestRecord haversineDist client start events vehdata) {event : DatabaseEvent}
    (other : ∀ reception locals record, event = .message reception locals →
      RecordedAfter haversineDist client start events reception locals record →
        record.stationID ≠ vehdata.stationID) :
    NewestRecord haversineDist client start (events ++ [event]) vehdata := by
  rcases newest with ⟨before, reception, locals, after, rfl, recorded, last⟩
  refine ⟨before, reception, locals, after ++ [event], ?_, recorded, ?_⟩
  · rw [List.append_assoc, List.cons_append]
  · intro between later laterLocals rest split record made
    rcases List.eq_nil_or_concat rest with rfl | ⟨rest, last', rfl⟩
    · rcases List.append_inj' split rfl with ⟨rfl, same⟩
      exact other later laterLocals record (List.cons.inj same).1 made
    · have cut : after ++ [event] = (between ++ .message later laterLocals :: rest) ++ [last'] := by
        rw [split]
        simp
      exact last between later laterLocals rest (List.append_inj' cut rfl).1 record made

/-! ## The steps -/

structure Received (haversineDist : ℚ → ℚ → ℚ → ℚ → ℚ) (client : SocketClient) (start : LDMMap)
    (events : List DatabaseEvent) (map : LDMMap) : Prop where
  wellFormed : map.WellFormed
  histories : map.HistoriesSatisfy OfDatabase
  newest : ∀ {stationID stored}, InRange stationID → map.entry stationID = some stored →
    NewestRecord haversineDist client start events stored.vehData

theorem histories_step (histories : map.HistoriesSatisfy OfDatabase) (linked : map.Linked)
    {operation : MapOperation} (taken : map.step haversineDist operation = some next) :
    next.HistoriesSatisfy OfDatabase :=
  histories.step haversineDist linked (fun memory => ⟨PHpoints.new_standard memory, rfl⟩)
    (fun _ newVehicleData ofDatabase => ofDatabase.insert haversineDist newVehicleData) taken

theorem step_message {reception : Reception} {locals : Locals} {vehdata : VehicleData}
    (record : insertedRecord client map reception locals = some vehdata)
    (stepped : DatabaseEvent.step haversineDist client map (.message reception locals) =
      some next) : map.step haversineDist (.insert vehdata) = some next := by
  rw [DatabaseEvent.step, manageMessage_of_some haversineDist record, Option.map_map] at stepped
  rw [LDMMap.step, LDMMap.perform, Option.map_map]
  exact stepped

theorem Received.message (received : Received haversineDist client start events map)
    (reached : Execution.run (DatabaseEvent.step haversineDist client) start events = some map)
    {reception : Reception} {locals : Locals}
    (stepped : DatabaseEvent.step haversineDist client map (.message reception locals) =
      some next) :
    Received haversineDist client start (events ++ [.message reception locals]) next := by
  rcases Option.map_eq_some_iff.mp stepped with ⟨⟨after, outcome⟩, managed, rfl⟩
  cases record : insertedRecord client map reception locals with
  | none =>
      rcases manageMessage_of_none record managed with ⟨rfl, _⟩
      refine ⟨received.wellFormed, received.histories, ?_⟩
      intro stationID stored inRange found
      refine (received.newest inRange found).later ?_
      intro other otherLocals made same recorded
      cases same
      rcases recorded.reached with ⟨other, otherReached, otherRecord⟩
      cases reached.symm.trans otherReached
      cases record.symm.trans otherRecord
  | some vehdata =>
      rcases manageMessage_stores haversineDist received.wellFormed record with
        ⟨stored, _, _, stores, _, replaces⟩
      cases managed.symm.trans stores
      have taken := step_message record stepped
      refine ⟨replaces.wellFormed,
        histories_step received.histories received.wellFormed.linked taken, ?_⟩
      intro stationID entry inRange found
      by_cases same : stationID = vehdata.stationID
      · rcases replaces.entry with ⟨address, written⟩
        rw [same, written] at found
        cases found
        exact newestRecord_inserted reached record
      · rw [replaces.others stationID inRange same] at found
        refine (received.newest inRange found).later ?_
        intro other otherLocals made equal recorded
        cases equal
        rcases recorded.reached with ⟨other, otherReached, otherRecord⟩
        cases reached.symm.trans otherReached
        cases record.symm.trans otherRecord
        rw [received.wellFormed.entry_stationID inRange found]
        exact Ne.symm same

theorem Received.perform (received : Received haversineDist client start events map)
    {operation : MapOperation} (cleanup : IsCleanup operation)
    (stepped : DatabaseEvent.step haversineDist client map (.perform operation) = some next) :
    Received haversineDist client start (events ++ [.perform operation]) next := by
  rcases cleanup.fewer received.wellFormed stepped with ⟨wellFormed, fewer⟩
  refine ⟨wellFormed, histories_step received.histories received.wellFormed.linked stepped, ?_⟩
  intro stationID stored inRange found
  refine (received.newest inRange (fewer found)).later ?_
  intro reception locals record same
  cases same

end AIM.Server
