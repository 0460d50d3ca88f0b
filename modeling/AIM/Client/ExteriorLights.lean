import AIM.Client.AgeCheck

namespace AIM.Client

open Decoder Database

/-! # Exterior lights

Only a low frequency container carries the exterior lights. Between two of them every CAM
is stored with what the database knows. The CAMs that were stored for a station since its
entry was created are tracked beside the database. -/

/-- The ASN.1 type has eight bits, so that a buffer that was allocated is not empty. -/
def Sized (exteriorLights : BitString) : Prop := exteriorLights.buf ≠ some []

instance (exteriorLights : BitString) : Decidable (Sized exteriorLights) :=
  inferInstanceAs (Decidable (_ ≠ _))

def carriedLights (container : LowFrequencyContainer) : Option UInt8 :=
  container.exteriorLights.buf.bind List.head?

/-- The lights of the last CAM with a container, the last CAM first. -/
def lastLights (cams : List Cam) : Option UInt8 :=
  (cams.findSome? (·.lowFrequencyContainer)).bind carriedLights

def receivedCam (client : SocketClient) (reception : Reception) (locals : Locals) : Option Cam :=
  (castCam client.options.enableEnhancedCAMs
    (decode client reception locals).decodedData.decodedMsg).map DecodedCam.base

/-- A message to one of the clients, or a cleanup of the database. -/
inductive LightsEvent
  | receive (client : SocketClient) (reception : Reception) (locals : Locals)
  | cleanup (operation : MapOperation)

namespace LightsEvent

def cam : LightsEvent → Option Cam
  | .receive client reception locals => receivedCam client reception locals
  | .cleanup _ => none

def Valid : LightsEvent → Prop
  | .receive client reception locals =>
      ∀ cam ∈ receivedCam client reception locals,
        ∀ container ∈ cam.lowFrequencyContainer, Sized container.exteriorLights
  | .cleanup operation => IsCleanup operation

instance : (event : LightsEvent) → Decidable event.Valid
  | .receive _ _ _ => Option.decidableForallMem _
  | .cleanup operation => inferInstanceAs (Decidable (IsCleanup operation))

end LightsEvent

structure LightsHistory where
  map : LDMMap
  cams : UInt64 → List Cam

namespace LightsHistory

def start (memory : Nat → UninitializedPHpoints) : LightsHistory :=
  ⟨.empty memory, fun _ => []⟩

def record (state : LightsHistory) (received : Option Cam) : LDMMap × Outcome → LightsHistory
  | (next, .stored vehdata dbRetval _) =>
      let earlier := if (state.map.entry vehdata.stationID).isSome then
        state.cams vehdata.stationID else []
      if dbRetval = .ldmmapMapFull then ⟨next, state.cams⟩
      else ⟨next, Function.update state.cams vehdata.stationID (received.toList ++ earlier)⟩
  | (next, _) => ⟨next, state.cams⟩

section

variable (haversineDist : ℚ → ℚ → ℚ → ℚ → ℚ)

def step (state : LightsHistory) : LightsEvent → Option LightsHistory
  | .receive client reception locals =>
      (manageMessage haversineDist client state.map reception locals).map
        (state.record (receivedCam client reception locals))
  | .cleanup operation =>
      (state.map.step haversineDist operation).map fun next => ⟨next, state.cams⟩

/-- Every station is stored with the lights of its last CAM that carried some. -/
def Remembers (state : LightsHistory) : Prop :=
  ∀ stationID stored, InRange stationID → state.map.entry stationID = some stored →
    stored.vehData.exteriorLights = lastLights (state.cams stationID)

/-- The lights are remembered after the step, and a CAM has left the other stations alone. -/
structure RemembersLights (state : LightsHistory) (event : LightsEvent) : Prop where
  remembers : ∀ next, state.step haversineDist event = some next → next.Remembers
  others : ∀ next cam, state.step haversineDist event = some next → event.cam = some cam →
    ∀ other, InRange other → other ≠ cam.stationID.toUInt64 →
      next.map.entry other = state.map.entry other

end

end LightsHistory

/-! ## The lights of a record -/

theorem carriedLights_eq {container : LowFrequencyContainer}
    (sized : Sized container.exteriorLights) :
    container.exteriorLights.buf.map (·.headD 0) = carriedLights container := by
  unfold carriedLights
  cases buffer : container.exteriorLights.buf with
  | none => rfl
  | some bytes =>
      cases bytes with
      | nil => exact absurd buffer sized
      | cons first rest => rfl

theorem vehdataOf_exteriorLights (map : LDMMap) (reception : Reception) (memory : VehicleData)
    (decodedData : EtsiDecodedData) (decodedCam : DecodedCam) :
    (vehdataOf map reception memory decodedData decodedCam).exteriorLights =
      manageLowfreqContainer map decodedCam.base decodedCam.base.stationID.toUInt64 := by
  rw [vehdataOf, withNodeStatus_frame]

theorem manageLowfreqContainer_eq {map : LDMMap} {cam : Cam}
    (sized : ∀ container ∈ cam.lowFrequencyContainer, Sized container.exteriorLights)
    (stationID : UInt64) :
    manageLowfreqContainer map cam stationID =
      match cam.lowFrequencyContainer with
      | some container => carriedLights container
      | none => (map.entry stationID).bind (·.vehData.exteriorLights) := by
  unfold manageLowfreqContainer
  cases carried : cam.lowFrequencyContainer with
  | some container => exact carriedLights_eq (sized container carried)
  | none =>
      dsimp only
      rw [LDMMap.lookup_eq]
      cases map.entry stationID with
      | none => rfl
      | some stored => rfl

theorem lastLights_cons (cam : Cam) (cams : List Cam) :
    lastLights (cam :: cams) =
      match cam.lowFrequencyContainer with
      | some container => carriedLights container
      | none => lastLights cams := by
  unfold lastLights
  rw [List.findSome?_cons]
  cases cam.lowFrequencyContainer with
  | some container => rfl
  | none => rfl

namespace LightsHistory

/-! ## Steps -/

variable {haversineDist : ℚ → ℚ → ℚ → ℚ → ℚ} {state next : LightsHistory}

structure Tracked (state : LightsHistory) : Prop where
  wellFormed : state.map.WellFormed
  remembers : state.Remembers

theorem tracked_start (memory : Nat → UninitializedPHpoints) : (start memory).Tracked where
  wellFormed := LDMMap.wellFormed_empty _
  remembers _ _ _ found := by cases found

structure Stored (state next : LightsHistory) (cam : Cam) : Prop where
  inRange : InRange cam.stationID.toUInt64
  wellFormed : next.map.WellFormed
  entry : ∃ stored, next.map.entry cam.stationID.toUInt64 = some stored ∧
    stored.vehData.exteriorLights =
      manageLowfreqContainer state.map cam cam.stationID.toUInt64
  others : ∀ other, InRange other → other ≠ cam.stationID.toUInt64 →
    next.map.entry other = state.map.entry other
  cams : next.cams = Function.update state.cams cam.stationID.toUInt64
    (cam :: if (state.map.entry cam.stationID.toUInt64).isSome then
      state.cams cam.stationID.toUInt64 else [])

theorem receive_cases (wellFormed : state.map.WellFormed) {client : SocketClient}
    {reception : Reception} {locals : Locals}
    (stepped : state.step haversineDist (.receive client reception locals) = some next) :
    next = state ∨
      ∃ cam, receivedCam client reception locals = some cam ∧ Stored state next cam := by
  rcases Option.map_eq_some_iff.mp stepped with ⟨⟨map, outcome⟩, managed, rfl⟩
  rcases manageMessage_keeps_or_stores wellFormed managed with
    ⟨rfl, noRecord⟩ | ⟨vehdata, dbRetval, freedAs, recorded, rfl, notFull, replaces⟩
  · left
    cases outcome with
    | stored vehdata dbRetval freedAs => exact absurd rfl (noRecord _ _ _)
    | undecodable | discarded | denm | ignored => rfl
  · right
    have inRange := inRange_of_insertedRecord recorded
    rcases replaces with ⟨nextWellFormed, ⟨address, entry⟩, others⟩
    rcases insertedRecord_eq_some_iff.mp recorded with ⟨_, _, decodedCam, cast, _, rfl⟩
    have received : receivedCam client reception locals = some decodedCam.base := by
      rw [receivedCam, cast]
      rfl
    simp only [record, if_neg notFull, received, Option.toList_some, vehdataOf_stationID]
    rw [vehdataOf_stationID] at inRange entry others
    refine ⟨decodedCam.base, rfl, ?_⟩
    exact {
      inRange := inRange
      wellFormed := nextWellFormed
      entry := ⟨_, entry, vehdataOf_exteriorLights _ _ _ _ _⟩
      others := others
      cams := rfl }

theorem Stored.remembers {cam : Cam} (stored : Stored state next cam)
    (sized : ∀ container ∈ cam.lowFrequencyContainer, Sized container.exteriorLights)
    (remembers : state.Remembers) : next.Remembers := by
  intro stationID found inRange entry
  rw [stored.cams]
  by_cases same : stationID = cam.stationID.toUInt64
  · subst same
    rcases stored.entry with ⟨written, writtenEntry, lights⟩
    cases writtenEntry.symm.trans entry
    rw [Function.update_self, lastLights_cons, lights, manageLowfreqContainer_eq sized]
    cases cam.lowFrequencyContainer with
    | some container => rfl
    | none =>
        cases before : state.map.entry cam.stationID.toUInt64 with
        | none => rfl
        | some known => exact remembers _ known inRange before
  · rw [stored.others stationID inRange same] at entry
    rw [Function.update_of_ne same]
    exact remembers stationID found inRange entry

theorem cleanup_tracked (tracked : state.Tracked) {operation : MapOperation}
    (cleanup : IsCleanup operation)
    (stepped : state.step haversineDist (.cleanup operation) = some next) : next.Tracked := by
  rcases Option.map_eq_some_iff.mp stepped with ⟨map, cleaned, rfl⟩
  rcases cleanup.fewer tracked.wellFormed cleaned with ⟨wellFormed, fewer⟩
  exact ⟨wellFormed, fun stationID stored inRange found =>
    tracked.remembers stationID stored inRange (fewer found)⟩

theorem Tracked.step (tracked : state.Tracked) {event : LightsEvent} (valid : event.Valid)
    (stepped : state.step haversineDist event = some next) : next.Tracked := by
  cases event with
  | receive client reception locals =>
      rcases receive_cases tracked.wellFormed stepped with rfl | ⟨cam, received, stored⟩
      · exact tracked
      · exact ⟨stored.wellFormed, stored.remembers (valid cam received) tracked.remembers⟩
  | cleanup operation => exact cleanup_tracked tracked valid stepped

theorem Tracked.others (tracked : state.Tracked) {event : LightsEvent}
    (stepped : state.step haversineDist event = some next) {cam : Cam}
    (received : event.cam = some cam) {other : UInt64} (inRange : InRange other)
    (different : other ≠ cam.stationID.toUInt64) :
    next.map.entry other = state.map.entry other := by
  cases event with
  | receive client reception locals =>
      rcases receive_cases tracked.wellFormed stepped with rfl | ⟨stored, isReceived, isStored⟩
      · rfl
      · cases received.symm.trans isReceived
        exact isStored.others other inRange different
  | cleanup operation => cases received

/-- In every run of messages and cleanups the lights of every station are those of its last
CAM with a low frequency container since its entry was created. -/
theorem run_remembersLights (haversineDist : ℚ → ℚ → ℚ → ℚ → ℚ)
    (memory : Nat → UninitializedPHpoints) {events : List LightsEvent}
    (valid : ∀ event ∈ events, event.Valid) :
    Execution.Always (step haversineDist) (RemembersLights haversineDist) (start memory)
      events := by
  apply Execution.Always.of_invariant Tracked LightsEvent.Valid
  · intro state event next tracked isValid _ stepped
    exact tracked.step isValid stepped
  · intro state event tracked isValid _
    constructor
    · intro next stepped
      exact (tracked.step isValid stepped).remembers
    · intro next cam stepped received other inRange different
      exact tracked.others stepped received inRange different
  · exact tracked_start memory
  · exact valid
  · exact Execution.Always.unguarded _ _

/-! ## Headlights that are remembered -/

def receptionWith (container : Option LowFrequencyContainer) : Reception :=
  { camReception 100 with
    oracle.outcome := fun _ call => (.rcOk,
      match call.descriptor with
      | .cam => some { standingCam with lowFrequencyContainer := container }
      | .camEnhanced => some ⟨{ standingCam with lowFrequencyContainer := container }, none⟩
      | .denm => none) }

def headlightsOn : LowFrequencyContainer :=
  ⟨.basicVehicleContainerLowFrequency, ⟨some [0x80]⟩⟩

/-- Both kinds of CAMs, with the container in the first one only. -/
def headlightEvents : List LightsEvent :=
  [.receive ⟨⟨false, false⟩, "", false⟩ (receptionWith (some headlightsOn)) default,
    .receive ⟨⟨true, false⟩, "", false⟩ (receptionWith none) default]

theorem run_remembersLights_headlights :
    ((Execution.run (step LDMMap.noDist) (start default) headlightEvents).bind
        (·.map.entry 12)).map (·.vehData.exteriorLights) = some (some 0x80) ∧
      Execution.Always (step LDMMap.noDist) (RemembersLights LDMMap.noDist) (start default)
        headlightEvents :=
  ⟨by decide +kernel, run_remembersLights LDMMap.noDist default (by decide +kernel)⟩

end LightsHistory

end AIM.Client
