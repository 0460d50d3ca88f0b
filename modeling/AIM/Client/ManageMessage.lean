import AIM.Database.WellFormed
import AIM.Decoder.Contract

namespace AIM.Client

open Decoder Database

/-! # Processing of received messages

`SocketClient::manageMessage`. Log lines and printed text are left out, except
where they change what happens next. -/

structure Options where
  enableEnhancedCAMs : Bool
  ageCheckEnabled : Bool
  deriving DecidableEq, Repr

structure SocketClient where
  options : Options
  logfileName : String
  denmDecodingEnabled : Bool
  deriving DecidableEq, Repr

structure Reception where
  packet : Nat → UInt8
  bufsize : Nat
  oracle : AsnOracle
  timestampUs : UInt64
  rssiFromIw : (Fin 6 → UInt8) → ℚ

/-- What the memory of the local variables holds before anything is written. -/
structure Locals where
  decodedData : EtsiDecodedData
  decoder : DecoderLocals
  vehdata : VehicleData
  deriving Inhabited

/-- The local `vehdata` after its construction: only strings and optional items
have constructors. -/
def constructed (memory : VehicleData) : VehicleData :=
  { memory with
    vehicleWidth := none
    vehicleLength := none
    auxiliaryMacaddr := ""
    ipaddr := ""
    publicipaddr := ""
    exteriorLights := none }

/-! ## The decoded CAM -/

inductive DecodedCam
  | cam (decodedCam : Cam)
  | camEnhanced (decodedEncam : CamEnhanced)

def DecodedCam.base : DecodedCam → Cam
  | .cam decodedCam => decodedCam
  | .camEnhanced decodedEncam => decodedEncam.toCam

/-- The pointer is cast according to the enhanced-CAM setting; there is no result
if it is null or the object was written as something else. -/
def castCam (enableEnhancedCAMs : Bool) : Option AsnObject → Option DecodedCam
  | some ⟨_, .cam, content⟩ => if enableEnhancedCAMs then none else some (.cam content)
  | some ⟨_, .camEnhanced, content⟩ =>
      if enableEnhancedCAMs then some (.camEnhanced content) else none
  | some ⟨_, .denm, _⟩ => none
  | none => none

/-- The low frequency container, or what the database knows from an earlier one.
The buffer of a bit string ends with a zero byte. -/
def manageLowfreqContainer (map : LDMMap) (decodedCam : Cam) (stationID : UInt64) :
    Option UInt8 :=
  match decodedCam.lowFrequencyContainer with
  | some container => container.exteriorLights.buf.map (·.headD 0)
  | none =>
      match map.lookup stationID with
      | (.ldmmapOk, some retveh) => retveh.vehData.exteriorLights
      | _ => none

/-! ## The age check -/

def gnTimestamp (decodedData : EtsiDecodedData) : UInt64 :=
  if decodedData.type = .etsiDecodedCam then decodedData.gnTimestamp.toUInt64
  else uint64Max

def tooOld (rx stored : UInt64) : Bool :=
  let gap := rx.toInt64.toInt - stored.toInt64.toInt
  (stored < rx && 300000 < gap) || (rx < stored && -300000 < gap)

def outdated (options : Options) (map : LDMMap) (stationID gnTimestamp : UInt64) :
    Bool :=
  options.ageCheckEnabled && gnTimestamp != uint64Max &&
    match map.lookup stationID with
    | (.ldmmapOk, some retveh) => tooOld gnTimestamp retveh.vehData.gnTimestamp
    | _ => false

theorem outdated_iff {options : Options} {map : LDMMap} {stationID gnTimestamp : UInt64} :
    outdated options map stationID gnTimestamp = true ↔
      options.ageCheckEnabled = true ∧ gnTimestamp ≠ uint64Max ∧
        ∃ stored, map.entry stationID = some stored ∧
          tooOld gnTimestamp stored.vehData.gnTimestamp = true := by
  rw [outdated, LDMMap.lookup_eq, Bool.and_eq_true, Bool.and_eq_true, bne_iff_ne,
    and_assoc]
  cases map.entry stationID <;> simp

/-! ## The record -/

def cpuLoadUnavailable : Int := 10001
def gpuLoadUnavailable : Int := 10001
def ramLoadUnavailable : Int := 512001
def vehicleWidthUnavailable : Int := 62
def vehicleLengthUnavailable : Int := 1023

def loadPerc (unavailable : ℚ) (noValue : Int) (load : Option Int) : ℚ :=
  match load with
  | none => unavailable
  | some value => if value = noValue then unavailable else value / 100

def loadMB (load : Option Int) : ℚ :=
  match load with
  | none => ramloadUnavailable
  | some value => if value = ramLoadUnavailable then ramloadUnavailable else value

def printIp (buf : List UInt8) : String :=
  ".".intercalate (buf.map fun byte => toString byte.toNat)

def hexDigit (digit : Nat) : Char :=
  "0123456789ABCDEF".toList.getD digit '0'

def printMac (buf : List UInt8) : String :=
  ":".intercalate (buf.map fun byte =>
    String.ofList [hexDigit (byte.toNat / 16), hexDigit (byte.toNat % 16)])

def printAddress (size : Nat) (print : List UInt8 → String) :
    Option (List UInt8) → String
  | some buf => if buf.length = size then print buf else "unavailable"
  | none => "unavailable"

def withChannelNodeStatus (vehdata : VehicleData)
    (container : ChannelNodeStatusContainer) : VehicleData :=
  { vehdata with
    cpuLoadPerc := loadPerc cpuloadUnavailable cpuLoadUnavailable container.cpuLoad
    ramLoadMB := loadMB container.ramLoad
    gpuLoadPerc := loadPerc gpuloadUnavailable gpuLoadUnavailable container.gpuLoad
    extradevCpuLoadPerc := loadPerc cpuloadUnavailable cpuLoadUnavailable
      container.extraComputationDeviceCpuLoad
    extradevRamLoadMB := loadMB container.extraComputationDeviceRamLoad
    extradevGpuLoadPerc := loadPerc gpuloadUnavailable gpuLoadUnavailable
      container.extraComputationDeciceGpuLoad
    rssiAuxiliaryDBm := container.auxilliaryLinkRSSI.elim rssiUnavailable (· / 100)
    ipaddr := printAddress 4 printIp container.ipAddress
    publicipaddr := printAddress 4 printIp container.publicIpAddress
    auxiliaryMacaddr := printAddress 6 printMac container.auxilliaryLinkMac }

def withNodeStatus (vehdata : VehicleData) : DecodedCam → VehicleData
  | .camEnhanced decodedEncam =>
      match decodedEncam.channelNodeStatusContainer with
      | some container => withChannelNodeStatus vehdata container
      | none => vehdata
  | .cam _ =>
      { vehdata with
        auxiliaryMacaddr := "unavailable"
        cpuLoadPerc := cpuloadUnavailable
        ramLoadMB := ramloadUnavailable
        rssiAuxiliaryDBm := rssiUnavailable }

def macOf (gnAddress : Fin 8 → UInt8) : Fin 6 → UInt8 :=
  fun index => gnAddress (index.natAdd 2)

def optionalTimes100 (unavailable value : Int) : Option Int :=
  if value ≠ unavailable then some (value * 100) else none

def vehdataOf (map : LDMMap) (reception : Reception) (memory : VehicleData)
    (decodedData : EtsiDecodedData) (decodedCam : DecodedCam) : VehicleData :=
  let cam := decodedCam.base
  let stationID := cam.stationID.toUInt64
  let position := cam.basicContainer.referencePosition
  let container := cam.highFrequencyContainer.basicVehicleContainerHighFrequency
  let macaddr := macOf decodedData.gnAddress
  let vehdata := { constructed memory with
    exteriorLights := manageLowfreqContainer map cam stationID
    lon := position.longitude / 10000000
    lat := position.latitude / 10000000
    timestampUs := reception.timestampUs
    elevation := position.altitudeValue / 100
    heading := container.headingValue / 10
    speedMs := container.speedValue / 100
    camTimestamp := cam.generationDeltaTime
    stationType := cam.basicContainer.stationType
    gnTimestamp := gnTimestamp decodedData
    stationID := stationID
    macaddr := macaddr }
  { withNodeStatus vehdata decodedCam with
    rssiDBm := reception.rssiFromIw macaddr
    vehicleWidth := optionalTimes100 vehicleWidthUnavailable container.vehicleWidth
    vehicleLength := optionalTimes100 vehicleLengthUnavailable
      container.vehicleLengthValue }

/-! ## The message -/

inductive CamUpdate
  | discard
  | insert (vehdata : VehicleData)

/-- A message that is too old is only discarded when this is logged: the return is
inside the test of the log file name. -/
def camUpdate (client : SocketClient) (map : LDMMap) (reception : Reception)
    (memory : VehicleData) (decodedData : EtsiDecodedData) : Option CamUpdate :=
  match castCam client.options.enableEnhancedCAMs decodedData.decodedMsg with
  | none => none
  | some decodedCam =>
      if outdated client.options map decodedCam.base.stationID.toUInt64
          (gnTimestamp decodedData) ∧ client.logfileName ≠ "" then
        some .discard
      else
        some (.insert (vehdataOf map reception memory decodedData decodedCam))

structure DenmReport where
  stationID : UInt32
  rssi : ℚ
  gnTs : UInt32
  referenceLatitude : ℚ
  referenceLongitude : ℚ
  senderMac : Fin 6 → UInt8

def denmReport (reception : Reception) (decodedData : EtsiDecodedData)
    (decodedDenm : Denm) : DenmReport where
  stationID := decodedDenm.stationID
  rssi := reception.rssiFromIw (macOf decodedData.gnAddress)
  gnTs := decodedData.gnTimestamp
  referenceLatitude := decodedDenm.eventLatitude / 10000000
  referenceLongitude := decodedDenm.eventLongitude / 10000000
  senderMac := macOf decodedData.gnAddress

/-- How the processing of a message ends. After an update the decoded object is
freed with the descriptor `freedAs`. -/
inductive Outcome
  | undecodable
  | discarded
  | stored (vehdata : VehicleData) (dbRetval : LDMMapError) (freedAs : AsnType)
  | denm (report : DenmReport)
  | ignored

/-- A null pointer is left alone. -/
def manageDenm (map : LDMMap) (reception : Reception) (decodedData : EtsiDecodedData) :
    Option (LDMMap × Outcome) :=
  match decodedData.decodedMsg with
  | none => some (map, .ignored)
  | some ⟨_, .denm, decodedDenm⟩ =>
      some (map, .denm (denmReport reception decodedData decodedDenm))
  | some _ => none

/-- The decoder as `startReception` sets it up. -/
def SocketClient.decodeFrontend (client : SocketClient) : DecoderFrontend :=
  ⟨client.options.enableEnhancedCAMs⟩

def decode (client : SocketClient) (reception : Reception) (locals : Locals) :
    EtsiDecoderResult :=
  (client.decodeFrontend.decodeEtsi reception.oracle locals.decoder reception.bufsize
    locals.decodedData .msgtypeAuto).value reception.packet

section

variable (haversineDist : ℚ → ℚ → ℚ → ℚ → ℚ)

/-- The two descriptors of the final `ASN_STRUCT_FREE` are in the source's order. -/
def manageCam (client : SocketClient) (map : LDMMap) (reception : Reception)
    (memory : VehicleData) (decodedData : EtsiDecodedData) : Option (LDMMap × Outcome) :=
  match camUpdate client map reception memory decodedData with
  | none => none
  | some .discard => some (map, .discarded)
  | some (.insert vehdata) =>
      (map.insert haversineDist vehdata).map fun result =>
        (result.1, .stored vehdata result.2
          (if client.options.enableEnhancedCAMs then .cam else .camEnhanced))

def manageMessage (client : SocketClient) (map : LDMMap) (reception : Reception)
    (locals : Locals) : Option (LDMMap × Outcome) :=
  let result := decode client reception locals
  if result.retval ≠ etsiDecoderOk then some (map, .undecodable)
  else if result.decodedData.type = .etsiDecodedCam ∨
      result.decodedData.type = .etsiDecodedCamNogn then
    manageCam haversineDist client map reception locals.vehdata result.decodedData
  else if client.denmDecodingEnabled ∧ (result.decodedData.type = .etsiDecodedDenm ∨
      result.decodedData.type = .etsiDecodedDenmNogn) then
    manageDenm map reception result.decodedData
  else some (map, .ignored)

end

def insertedRecord (client : SocketClient) (map : LDMMap) (reception : Reception)
    (locals : Locals) : Option VehicleData :=
  let result := decode client reception locals
  if result.retval = etsiDecoderOk ∧ (result.decodedData.type = .etsiDecodedCam ∨
      result.decodedData.type = .etsiDecodedCamNogn) then
    match camUpdate client map reception locals.vehdata result.decodedData with
    | some (.insert vehdata) => some vehdata
    | _ => none
  else none

/-! ## What a message does to the database -/

variable {haversineDist : ℚ → ℚ → ℚ → ℚ → ℚ} {client : SocketClient} {map : LDMMap}
  {reception : Reception} {locals : Locals}

theorem withNodeStatus_frame (vehdata : VehicleData) (decodedCam : DecodedCam) :
    withNodeStatus vehdata decodedCam =
      { vehdata with
        cpuLoadPerc := (withNodeStatus vehdata decodedCam).cpuLoadPerc
        ramLoadMB := (withNodeStatus vehdata decodedCam).ramLoadMB
        gpuLoadPerc := (withNodeStatus vehdata decodedCam).gpuLoadPerc
        extradevCpuLoadPerc := (withNodeStatus vehdata decodedCam).extradevCpuLoadPerc
        extradevRamLoadMB := (withNodeStatus vehdata decodedCam).extradevRamLoadMB
        extradevGpuLoadPerc := (withNodeStatus vehdata decodedCam).extradevGpuLoadPerc
        rssiAuxiliaryDBm := (withNodeStatus vehdata decodedCam).rssiAuxiliaryDBm
        ipaddr := (withNodeStatus vehdata decodedCam).ipaddr
        publicipaddr := (withNodeStatus vehdata decodedCam).publicipaddr
        auxiliaryMacaddr := (withNodeStatus vehdata decodedCam).auxiliaryMacaddr } := by
  cases decodedCam with
  | cam => rfl
  | camEnhanced decodedEncam =>
      cases container : decodedEncam.channelNodeStatusContainer with
      | none =>
          simp only [withNodeStatus, container]
      | some container =>
          simp only [withNodeStatus, container]
          rfl

@[simp] theorem vehdataOf_macaddr (memory : VehicleData) (decodedData : EtsiDecodedData)
    (decodedCam : DecodedCam) :
    (vehdataOf map reception memory decodedData decodedCam).macaddr =
      macOf decodedData.gnAddress := by
  rw [vehdataOf, withNodeStatus_frame]

theorem insertedRecord_eq_some_iff {vehdata : VehicleData} :
    insertedRecord client map reception locals = some vehdata ↔
      (decode client reception locals).retval = etsiDecoderOk ∧
      ((decode client reception locals).decodedData.type = .etsiDecodedCam ∨
        (decode client reception locals).decodedData.type = .etsiDecodedCamNogn) ∧
      ∃ decodedCam, castCam client.options.enableEnhancedCAMs
          (decode client reception locals).decodedData.decodedMsg = some decodedCam ∧
        ¬(outdated client.options map decodedCam.base.stationID.toUInt64
          (gnTimestamp (decode client reception locals).decodedData) ∧
          client.logfileName ≠ "") ∧
        vehdataOf map reception locals.vehdata
          (decode client reception locals).decodedData decodedCam = vehdata := by
  dsimp only [insertedRecord]
  by_cases isCam : (decode client reception locals).retval = etsiDecoderOk ∧
      ((decode client reception locals).decodedData.type = .etsiDecodedCam ∨
        (decode client reception locals).decodedData.type = .etsiDecodedCamNogn)
  · rw [if_pos isCam]
    simp only [isCam, true_and, camUpdate]
    cases castCam client.options.enableEnhancedCAMs
        (decode client reception locals).decodedData.decodedMsg with
    | none => simp
    | some decodedCam =>
        simp only [Option.some.injEq, exists_eq_left']
        by_cases discards : outdated client.options map
            decodedCam.base.stationID.toUInt64
            (gnTimestamp (decode client reception locals).decodedData) ∧
            client.logfileName ≠ ""
        · rw [if_pos discards]
          exact iff_of_false nofun fun record => record.1 discards
        · rw [if_neg discards]
          simp only [Option.some.injEq]
          exact (and_iff_right discards).symm
  · rw [if_neg isCam, ← and_assoc]
    simp only [isCam, false_and]
    exact iff_of_false nofun id

@[simp] theorem vehdataOf_stationID (memory : VehicleData) (decodedData : EtsiDecodedData)
    (decodedCam : DecodedCam) :
    (vehdataOf map reception memory decodedData decodedCam).stationID =
      decodedCam.base.stationID.toUInt64 := by
  rw [vehdataOf, withNodeStatus_frame]

@[simp] theorem vehdataOf_gnTimestamp (memory : VehicleData)
    (decodedData : EtsiDecodedData) (decodedCam : DecodedCam) :
    (vehdataOf map reception memory decodedData decodedCam).gnTimestamp =
      gnTimestamp decodedData := by
  rw [vehdataOf, withNodeStatus_frame]

theorem manageMessage_of_some (haversineDist : ℚ → ℚ → ℚ → ℚ → ℚ)
    {vehdata : VehicleData}
    (record : insertedRecord client map reception locals = some vehdata) :
    manageMessage haversineDist client map reception locals =
      (map.insert haversineDist vehdata).map fun result =>
        (result.1, .stored vehdata result.2
          (if client.options.enableEnhancedCAMs then .cam else .camEnhanced)) := by
  dsimp only [insertedRecord] at record
  split at record
  · next isCam =>
      rcases isCam with ⟨ok, type⟩
      split at record
      · next update =>
          cases record
          rw [manageMessage]
          simp only [ok, ne_eq, not_true_eq_false, if_false, if_pos type, manageCam, update]
      · cases record
  · cases record

theorem manageDenm_of_some {decodedData : EtsiDecodedData} {next : LDMMap}
    {outcome : Outcome}
    (managed : manageDenm map reception decodedData = some (next, outcome)) :
    next = map ∧ ∀ vehdata dbRetval freedAs, outcome ≠ .stored vehdata dbRetval freedAs := by
  unfold manageDenm at managed
  split at managed
  · cases managed
    exact ⟨rfl, fun _ _ _ equal => nomatch equal⟩
  · cases managed
    exact ⟨rfl, fun _ _ _ equal => nomatch equal⟩
  · cases managed

theorem manageMessage_of_none {next : LDMMap} {outcome : Outcome}
    (noRecord : insertedRecord client map reception locals = none)
    (managed : manageMessage haversineDist client map reception locals =
      some (next, outcome)) :
    next = map ∧ ∀ vehdata dbRetval freedAs, outcome ≠ .stored vehdata dbRetval freedAs := by
  dsimp only [manageMessage] at managed
  split at managed
  · cases managed
    exact ⟨rfl, fun _ _ _ equal => nomatch equal⟩
  · next ok =>
      split at managed
      · next type =>
          dsimp only [insertedRecord] at noRecord
          rw [if_pos ⟨not_not.mp ok, type⟩] at noRecord
          unfold manageCam at managed
          split at managed
          · cases managed
          · cases managed
            exact ⟨rfl, fun _ _ _ equal => nomatch equal⟩
          · next vehdata update =>
              rw [update] at noRecord
              cases noRecord
      · split at managed
        · exact manageDenm_of_some managed
        · cases managed
          exact ⟨rfl, fun _ _ _ equal => nomatch equal⟩

/-! ## Storing a record -/

theorem inRange_of_insertedRecord {vehdata : VehicleData}
    (record : insertedRecord client map reception locals = some vehdata) :
    InRange vehdata.stationID := by
  rcases insertedRecord_eq_some_iff.mp record with ⟨_, _, decodedCam, _, _, rfl⟩
  rw [vehdataOf_stationID]
  exact inRange_toUInt64 decodedCam.base.stationID

/-- The record has replaced the entry of its station, and nothing else has changed. -/
structure Replaces (map next : LDMMap) (vehdata : VehicleData) : Prop where
  wellFormed : next.WellFormed
  entry : ∃ address, next.entry vehdata.stationID = some ⟨vehdata, address⟩
  others : ∀ other, InRange other → other ≠ vehdata.stationID →
    next.entry other = map.entry other

theorem manageMessage_stores (haversineDist : ℚ → ℚ → ℚ → ℚ → ℚ)
    (wellFormed : map.WellFormed) {vehdata : VehicleData}
    (record : insertedRecord client map reception locals = some vehdata) :
    ∃ next dbRetval freedAs,
      manageMessage haversineDist client map reception locals =
        some (next, .stored vehdata dbRetval freedAs) ∧
      dbRetval ≠ .ldmmapMapFull ∧ Replaces map next vehdata := by
  have range := inRange_of_insertedRecord record
  have managed := manageMessage_of_some haversineDist record
  rcases wellFormed.linked.insert_isSome haversineDist vehdata with
    ⟨next, dbRetval, inserted⟩
  rcases wellFormed.insert_entry haversineDist range inserted with
    ⟨notFull, ⟨address, entry⟩, others⟩
  rw [inserted, Option.map_some] at managed
  exact ⟨next, dbRetval, _, managed, notFull,
    wellFormed.insert haversineDist range inserted, ⟨_, entry⟩, others⟩

theorem manageMessage_keeps_or_stores (wellFormed : map.WellFormed) {next : LDMMap}
    {outcome : Outcome}
    (managed : manageMessage haversineDist client map reception locals =
      some (next, outcome)) :
    (next = map ∧ ∀ vehdata dbRetval freedAs, outcome ≠ .stored vehdata dbRetval freedAs) ∨
    ∃ vehdata dbRetval freedAs,
      insertedRecord client map reception locals = some vehdata ∧
      outcome = .stored vehdata dbRetval freedAs ∧
      dbRetval ≠ .ldmmapMapFull ∧ Replaces map next vehdata := by
  cases recorded : insertedRecord client map reception locals with
  | none => exact .inl (manageMessage_of_none recorded managed)
  | some vehdata =>
      right
      rcases manageMessage_stores haversineDist wellFormed recorded with
        ⟨after, dbRetval, freedAs, stores, notFull, replaces⟩
      cases managed.symm.trans stores
      exact ⟨vehdata, dbRetval, freedAs, rfl, rfl, notFull, replaces⟩

/-! ## A received CAM

A standing vehicle, the packet with the last byte of its GeoNetworking timestamp, and
an ASN.1 decoder that finds the vehicle in it. -/

def standingCam : Cam where
  stationID := 12
  generationDeltaTime := 0
  basicContainer := ⟨5, ⟨0, 0, 0⟩⟩
  highFrequencyContainer := ⟨.basicVehicleContainerHighFrequency,
    ⟨0, 0, vehicleLengthUnavailable, vehicleWidthUnavailable⟩⟩
  lowFrequencyContainer := none

def camOracle : AsnOracle where
  outcome _ call := (.rcOk,
    match call.descriptor with
    | .cam => some standingCam
    | .camEnhanced => some ⟨standingCam, none⟩
    | .denm => none)

def camReception (timestamp : UInt8) : Reception where
  packet address :=
    if address = 23 then timestamp else DecoderFrontend.shbCamPacket 0 36 address
  bufsize := 76
  oracle := camOracle
  timestampUs := 0
  rssiFromIw _ := rssiUnavailable

end AIM.Client
