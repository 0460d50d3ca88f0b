import AIM.Client.UninitializedMemory
import AIM.Foundation.Logged

namespace AIM.Client

open Decoder Database

/-! # Members of unions

The containers of a CAM are unions with a tag. `manageMessage` reads the members of the
vehicle alternatives without looking at the tags. -/

inductive HighFrequencyMember
  | heading
  | speed
  | vehicleWidth
  | vehicleLength
  deriving DecidableEq, Repr

/-- A read of `exteriorLights` in `basicVehicleContainerLowFrequency`, or of a member of
`basicVehicleContainerHighFrequency`. -/
inductive ChoiceRead
  | exteriorLights (container : LowFrequencyContainer)
  | highFrequency (container : HighFrequencyContainer) (member : HighFrequencyMember)

/-- The tag of the union selects the alternative that is read. -/
def ChoiceRead.Selected : ChoiceRead → Prop
  | .exteriorLights container => container.present = .basicVehicleContainerLowFrequency
  | .highFrequency container _ => container.present = .basicVehicleContainerHighFrequency

instance (read : ChoiceRead) : Decidable read.Selected := by
  cases read with
  | exteriorLights => exact inferInstanceAs (Decidable (_ = _))
  | highFrequency => exact inferInstanceAs (Decidable (_ = _))

/-! ## The reads in their order -/

def readExteriorLights (container : LowFrequencyContainer) : Logged ChoiceRead BitString :=
  ⟨container.exteriorLights, [.exteriorLights container]⟩

def HighFrequencyMember.valueIn (vehicle : BasicVehicleContainerHighFrequency) :
    HighFrequencyMember → Int
  | .heading => vehicle.headingValue
  | .speed => vehicle.speedValue
  | .vehicleWidth => vehicle.vehicleWidth
  | .vehicleLength => vehicle.vehicleLengthValue

def readHighFrequency (container : HighFrequencyContainer) (member : HighFrequencyMember) :
    Logged ChoiceRead Int :=
  ⟨member.valueIn container.basicVehicleContainerHighFrequency, [.highFrequency container member]⟩

/-- `manage_LowfreqContainer`: the pointer to the container is tested, its tag is not. The
lights are read for a test, and again if there are any. -/
def loggedLowfreqContainer (map : LDMMap) (decodedCam : Cam) (stationID : UInt64) :
    Logged ChoiceRead (Option UInt8) :=
  match decodedCam.lowFrequencyContainer with
  | some container => do
      let tested ← readExteriorLights container
      if tested.buf.isSome then
        let exteriorLights ← readExteriorLights container
        pure (exteriorLights.buf.map (·.headD 0))
      else pure none
  | none => pure (manageLowfreqContainer map decodedCam stationID)

/-- A member is read for a test, and again if it is available. -/
def loggedOptional (container : HighFrequencyContainer) (member : HighFrequencyMember)
    (unavailable : Int) : Logged ChoiceRead (Option Int) := do
  let tested ← readHighFrequency container member
  if tested ≠ unavailable then
    let value ← readHighFrequency container member
    pure (some (value * 100))
  else pure none

def withoutChoices (cam : Cam) : Cam :=
  { cam with
    highFrequencyContainer := ⟨.nothing, ⟨0, 0, 0, 0⟩⟩
    lowFrequencyContainer := none }

def DecodedCam.withoutChoices : DecodedCam → DecodedCam
  | .cam decodedCam => .cam (Client.withoutChoices decodedCam)
  | .camEnhanced decodedEncam =>
      .camEnhanced { decodedEncam with toCam := Client.withoutChoices decodedEncam.toCam }

/-- The record of a CAM, the same for both kinds of CAM. Everything that comes from a union is
read, and the log line of an update tests the vehicle width once more. -/
def loggedVehdata (client : SocketClient) (map : LDMMap) (reception : Reception)
    (memory : VehicleData) (decodedData : EtsiDecodedData) (decodedCam : DecodedCam)
    (exteriorLights : Option UInt8) : Logged ChoiceRead VehicleData := do
  let container := decodedCam.base.highFrequencyContainer
  let heading ← readHighFrequency container .heading
  let speed ← readHighFrequency container .speed
  let vehicleWidth ← loggedOptional container .vehicleWidth vehicleWidthUnavailable
  let vehicleLength ← loggedOptional container .vehicleLength vehicleLengthUnavailable
  if client.logfileName ≠ "" then
    let _logged ← readHighFrequency container .vehicleWidth
  pure { vehdataOf map reception memory decodedData decodedCam.withoutChoices with
    exteriorLights := exteriorLights
    heading := heading / 10
    speedMs := speed / 100
    vehicleWidth := vehicleWidth
    vehicleLength := vehicleLength }

/-- The exterior lights are read before the age check, everything else behind it. -/
def loggedCam (client : SocketClient) (map : LDMMap) (reception : Reception)
    (memory : VehicleData) (decodedData : EtsiDecodedData) (decodedCam : DecodedCam) :
    Logged ChoiceRead (Option VehicleData) := do
  let stationID := decodedCam.base.stationID.toUInt64
  let exteriorLights ← loggedLowfreqContainer map decodedCam.base stationID
  if outdated client.options map stationID (gnTimestamp decodedData) ∧
      client.logfileName ≠ "" then
    pure none
  else
    let vehdata ←
      loggedVehdata client map reception memory decodedData decodedCam exteriorLights
    pure (some vehdata)

/-- The record of a message, if any. Nothing of a union is read in a DENM. -/
def loggedRecord (client : SocketClient) (map : LDMMap) (reception : Reception)
    (locals : Locals) : Logged ChoiceRead (Option VehicleData) :=
  let result := decode client reception locals
  if result.retval ≠ etsiDecoderOk then pure none
  else if result.decodedData.type = .etsiDecodedCam ∨
      result.decodedData.type = .etsiDecodedCamNogn then
    match castCam client.options.enableEnhancedCAMs result.decodedData.decodedMsg with
    | none => pure none
    | some decodedCam =>
        loggedCam client map reception locals.vehdata result.decodedData decodedCam
  else pure none

def choiceReads (client : SocketClient) (map : LDMMap) (reception : Reception)
    (locals : Locals) : List ChoiceRead :=
  (loggedRecord client map reception locals).events

/-! ## The record that is read -/

variable {client : SocketClient} {map : LDMMap} {reception : Reception} {locals : Locals}

theorem loggedLowfreqContainer_value (map : LDMMap) (decodedCam : Cam) (stationID : UInt64) :
    (loggedLowfreqContainer map decodedCam stationID).value =
      manageLowfreqContainer map decodedCam stationID := by
  unfold loggedLowfreqContainer
  cases present : decodedCam.lowFrequencyContainer with
  | none => rfl
  | some container =>
      simp only [manageLowfreqContainer, present, Logged.value_bind, readExteriorLights]
      cases lights : container.exteriorLights.buf with
      | none => rfl
      | some buf => simp [lights]

theorem loggedOptional_value (container : HighFrequencyContainer) (member : HighFrequencyMember)
    (unavailable : Int) :
    (loggedOptional container member unavailable).value = optionalTimes100 unavailable
      (member.valueIn container.basicVehicleContainerHighFrequency) := by
  simp only [loggedOptional, optionalTimes100, Logged.value_bind, readHighFrequency]
  split
  · rfl
  · rfl

theorem vehdataOf_withoutChoices (memory : VehicleData) (decodedData : EtsiDecodedData)
    (decodedCam : DecodedCam) :
    { vehdataOf map reception memory decodedData decodedCam.withoutChoices with
      exteriorLights := manageLowfreqContainer map decodedCam.base
        decodedCam.base.stationID.toUInt64
      heading :=
        decodedCam.base.highFrequencyContainer.basicVehicleContainerHighFrequency.headingValue / 10
      speedMs :=
        decodedCam.base.highFrequencyContainer.basicVehicleContainerHighFrequency.speedValue / 100
      vehicleWidth := optionalTimes100 vehicleWidthUnavailable
        decodedCam.base.highFrequencyContainer.basicVehicleContainerHighFrequency.vehicleWidth
      vehicleLength := optionalTimes100 vehicleLengthUnavailable
        decodedCam.base.highFrequencyContainer.basicVehicleContainerHighFrequency.vehicleLengthValue
    } = vehdataOf map reception memory decodedData decodedCam := by
  cases decodedCam with
  | cam decodedCam => rfl
  | camEnhanced decodedEncam =>
      rcases decodedEncam with ⟨cam, container⟩
      cases container with
      | none => rfl
      | some container => rfl

theorem loggedVehdata_value (memory : VehicleData) (decodedData : EtsiDecodedData)
    (decodedCam : DecodedCam) :
    (loggedVehdata client map reception memory decodedData decodedCam
      (manageLowfreqContainer map decodedCam.base decodedCam.base.stationID.toUInt64)).value =
        vehdataOf map reception memory decodedData decodedCam := by
  rw [← vehdataOf_withoutChoices]
  simp only [loggedVehdata, Logged.value_bind, loggedOptional_value]
  split
  · rfl
  · rfl

/-- The record that is read for a message is the one that is inserted. -/
theorem loggedRecord_value (client : SocketClient) (map : LDMMap) (reception : Reception)
    (locals : Locals) :
    (loggedRecord client map reception locals).value =
      insertedRecord client map reception locals := by
  unfold loggedRecord insertedRecord camUpdate
  by_cases ok : (decode client reception locals).retval = etsiDecoderOk
  · by_cases type : (decode client reception locals).decodedData.type = .etsiDecodedCam ∨
        (decode client reception locals).decodedData.type = .etsiDecodedCamNogn
    · simp only [ok, ne_eq, not_true_eq_false, if_false, type, and_self, if_true]
      cases castCam client.options.enableEnhancedCAMs
          (decode client reception locals).decodedData.decodedMsg with
      | none => rfl
      | some decodedCam =>
          simp only [loggedCam, Logged.value_bind, loggedLowfreqContainer_value]
          split
          · rfl
          · exact congrArg some (loggedVehdata_value _ _ _)
    · simp only [ok, ne_eq, not_true_eq_false, if_false, if_neg type, true_and, Logged.value_pure]
  · simp only [ok, ne_eq, not_false_eq_true, if_true, false_and, if_false, Logged.value_pure]

/-! ## Which CAMs are read as they are -/

structure DecodesCam (client : SocketClient) (reception : Reception) (locals : Locals)
    (decodedCam : DecodedCam) : Prop where
  ok : (decode client reception locals).retval = etsiDecoderOk
  type : (decode client reception locals).decodedData.type = .etsiDecodedCam ∨
    (decode client reception locals).decodedData.type = .etsiDecodedCamNogn
  cast : castCam client.options.enableEnhancedCAMs
    (decode client reception locals).decodedData.decodedMsg = some decodedCam

theorem readHighFrequency_selected_iff (container : HighFrequencyContainer)
    (member : HighFrequencyMember) :
    (∀ read ∈ (readHighFrequency container member).events, read.Selected) ↔
      container.present = .basicVehicleContainerHighFrequency :=
  List.forall_mem_singleton

theorem loggedLowfreqContainer_selected_iff (decodedCam : Cam) (stationID : UInt64) :
    (∀ read ∈ (loggedLowfreqContainer map decodedCam stationID).events, read.Selected) ↔
      ∀ container ∈ decodedCam.lowFrequencyContainer,
        container.present = .basicVehicleContainerLowFrequency := by
  unfold loggedLowfreqContainer
  cases decodedCam.lowFrequencyContainer with
  | none => simp
  | some container =>
      simp only [Logged.forall_events_bind, Option.mem_some_iff, forall_eq']
      split <;> simp [readExteriorLights, ChoiceRead.Selected]

theorem loggedOptional_selected_iff (container : HighFrequencyContainer)
    (member : HighFrequencyMember) (unavailable : Int) :
    (∀ read ∈ (loggedOptional container member unavailable).events, read.Selected) ↔
      container.present = .basicVehicleContainerHighFrequency := by
  rw [loggedOptional, Logged.forall_events_bind, readHighFrequency_selected_iff]
  refine and_iff_left_of_imp fun present => ?_
  split
  · rw [Logged.forall_events_bind, readHighFrequency_selected_iff]
    exact ⟨present, List.forall_mem_nil _⟩
  · exact List.forall_mem_nil _

theorem loggedVehdata_selected_iff (memory : VehicleData) (decodedData : EtsiDecodedData)
    (decodedCam : DecodedCam) (exteriorLights : Option UInt8) :
    (∀ read ∈ (loggedVehdata client map reception memory decodedData decodedCam
        exteriorLights).events, read.Selected) ↔
      decodedCam.base.highFrequencyContainer.present = .basicVehicleContainerHighFrequency := by
  rw [loggedVehdata, Logged.forall_events_bind, readHighFrequency_selected_iff]
  refine and_iff_left_of_imp fun present => ?_
  simp only [Logged.forall_events_bind, readHighFrequency_selected_iff,
    loggedOptional_selected_iff, present, true_and]
  split <;> simp [readHighFrequency, ChoiceRead.Selected, present]

/-- The tags of a decoded CAM select the vehicle alternatives, as far as they are read. -/
structure HasVehicleMembers (client : SocketClient) (map : LDMMap)
    (decodedData : EtsiDecodedData) (decodedCam : DecodedCam) : Prop where
  lowFrequency : ∀ container ∈ decodedCam.base.lowFrequencyContainer,
    container.present = .basicVehicleContainerLowFrequency
  highFrequency :
    (outdated client.options map decodedCam.base.stationID.toUInt64
        (gnTimestamp decodedData) ∧ client.logfileName ≠ "") ∨
      decodedCam.base.highFrequencyContainer.present = .basicVehicleContainerHighFrequency

theorem loggedCam_selected_iff (memory : VehicleData) (decodedData : EtsiDecodedData)
    (decodedCam : DecodedCam) :
    (∀ read ∈ (loggedCam client map reception memory decodedData decodedCam).events,
      read.Selected) ↔ HasVehicleMembers client map decodedData decodedCam := by
  rw [loggedCam, Logged.forall_events_bind, loggedLowfreqContainer_selected_iff]
  split
  · next discarded =>
      exact ⟨fun reads => ⟨reads.1, .inl discarded⟩,
        fun members => ⟨members.lowFrequency, List.forall_mem_nil _⟩⟩
  · next kept =>
      rw [Logged.forall_events_bind, loggedVehdata_selected_iff]
      exact ⟨fun reads => ⟨reads.1, .inr reads.2.1⟩, fun members =>
        ⟨members.lowFrequency, members.highFrequency.resolve_left kept, List.forall_mem_nil _⟩⟩

theorem choiceReads_of_decodesCam {decodedCam : DecodedCam}
    (decodes : DecodesCam client reception locals decodedCam) :
    choiceReads client map reception locals = (loggedCam client map reception locals.vehdata
      (decode client reception locals).decodedData decodedCam).events := by
  simp only [choiceReads, loggedRecord, decodes.ok, ne_eq, not_true_eq_false, if_false,
    if_pos decodes.type, decodes.cast]

theorem choiceReads_of_none
    (none : ∀ decodedCam, ¬DecodesCam client reception locals decodedCam) :
    choiceReads client map reception locals = [] := by
  rw [choiceReads, loggedRecord]
  by_cases ok : (decode client reception locals).retval = etsiDecoderOk
  · by_cases type : (decode client reception locals).decodedData.type = .etsiDecodedCam ∨
        (decode client reception locals).decodedData.type = .etsiDecodedCamNogn
    · cases cast : castCam client.options.enableEnhancedCAMs
          (decode client reception locals).decodedData.decodedMsg with
      | none =>
          simp only [ok, ne_eq, not_true_eq_false, if_false, if_pos type, Logged.events_pure]
      | some decodedCam => exact absurd ⟨ok, type, cast⟩ (none decodedCam)
    · simp only [ok, ne_eq, not_true_eq_false, if_false, if_neg type, Logged.events_pure]
  · simp only [ne_eq, ok, not_false_eq_true, if_true, Logged.events_pure]

/-- Members of unions are read as the tags select them exactly for the CAMs of vehicles, and
as far as the high frequency container is concerned for those that are discarded. -/
theorem choiceReads_selected_iff (client : SocketClient) (map : LDMMap)
    (reception : Reception) (locals : Locals) :
    (∀ read ∈ choiceReads client map reception locals, read.Selected) ↔
      ∀ decodedCam, DecodesCam client reception locals decodedCam →
        HasVehicleMembers client map (decode client reception locals).decodedData
          decodedCam := by
  constructor
  · intro selected decodedCam decodes
    rw [choiceReads_of_decodesCam decodes] at selected
    exact (loggedCam_selected_iff _ _ decodedCam).mp selected
  · intro members
    by_cases isCam : ∃ decodedCam, DecodesCam client reception locals decodedCam
    · rcases isCam with ⟨decodedCam, decodes⟩
      rw [choiceReads_of_decodesCam decodes]
      exact (loggedCam_selected_iff _ _ decodedCam).mpr (members decodedCam decodes)
    · rw [choiceReads_of_none fun decodedCam decodes => isCam ⟨decodedCam, decodes⟩]
      exact List.forall_mem_nil _

/-! A CAM of a roadside unit. -/

/-- What is in the memory of the union is taken for a heading of 123.4 degrees. -/
def rsuCam : Cam :=
  { standingCam with
    basicContainer := ⟨15, ⟨0, 0, 0⟩⟩
    highFrequencyContainer := ⟨.rsuContainerHighFrequency,
      ⟨1234, 0, vehicleLengthUnavailable, vehicleWidthUnavailable⟩⟩ }

def rsuReception : Reception :=
  { camReception 0 with
    oracle := ⟨fun _ call => (.rcOk,
      match call.descriptor with
      | .cam => some rsuCam
      | .camEnhanced => some ⟨rsuCam, none⟩
      | .denm => none)⟩ }

theorem not_choiceReads_selected_of_rsu :
    (¬∀ read ∈ choiceReads ⟨⟨false, true⟩, "", false⟩ (.empty default) rsuReception default,
      read.Selected) ∧
    (insertedRecord ⟨⟨false, true⟩, "", false⟩ (.empty default) rsuReception default).map
      VehicleData.heading = some (617 / 5) :=
  ⟨by decide +kernel, by decide +kernel⟩

end AIM.Client
