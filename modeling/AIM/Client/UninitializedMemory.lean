import AIM.Client.ManageMessage

namespace AIM.Client

open Decoder Database LoggedReader

/-! # Records and uninitialised memory

Whether the record that is inserted for a packet depends on what the local variables
`decodedData` and `vehdata` held before. -/

def DependsOnlyOnInputs (client : SocketClient) (map : LDMMap) (reception : Reception)
    (decoder : DecoderLocals) : Prop :=
  ∀ (decodedData decodedData' : EtsiDecodedData) (vehdata vehdata' : VehicleData),
    insertedRecord client map reception ⟨decodedData, decoder, vehdata⟩ =
      insertedRecord client map reception ⟨decodedData', decoder, vehdata'⟩

/-- The packet is taken for a full ITS message, and its headers are rejected. -/
def RejectsHeaders (reception : Reception) : Prop :=
  1 ≤ reception.bufsize ∧
    (DecoderFrontend.detectGeoNet reception.bufsize .msgtypeAuto).value reception.packet =
      true ∧
    ¬(GNAccepts reception.packet ∧ BTPAccepts reception.packet)

instance (reception : Reception) : Decidable (RejectsHeaders reception) :=
  inferInstanceAs (Decidable (_ ∧ _ ∧ _))

structure UsesCam (client : SocketClient) (map : LDMMap) (reception : Reception)
    (locals : Locals) (decodedCam : DecodedCam) : Prop where
  ok : (decode client reception locals).retval = etsiDecoderOk
  type : (decode client reception locals).decodedData.type = .etsiDecodedCam ∨
    (decode client reception locals).decodedData.type = .etsiDecodedCamNogn
  cast : castCam client.options.enableEnhancedCAMs
    (decode client reception locals).decodedData.decodedMsg = some decodedCam
  kept : ¬(outdated client.options map decodedCam.base.stationID.toUInt64
    (gnTimestamp (decode client reception locals).decodedData) ∧ client.logfileName ≠ "")

structure ReportsDenm (client : SocketClient) (reception : Reception) (locals : Locals) :
    Prop where
  ok : (decode client reception locals).retval = etsiDecoderOk
  enabled : client.denmDecodingEnabled = true
  type : (decode client reception locals).decodedData.type = .etsiDecodedDenm ∨
    (decode client reception locals).decodedData.type = .etsiDecodedDenmNogn
  cast : ∃ allocatedAs decodedDenm,
    (decode client reception locals).decodedData.decodedMsg =
      some ⟨allocatedAs, .denm, decodedDenm⟩

def DecodedCam.HasNodeStatus : DecodedCam → Prop
  | .cam _ => False
  | .camEnhanced decodedEncam => decodedEncam.channelNodeStatusContainer.isSome

/-- The headers are not rejected, and a CAM that is used has a GeoNetworking header
and a container with all loads. -/
structure Determined (client : SocketClient) (map : LDMMap) (reception : Reception)
    (decoder : DecoderLocals) : Prop where
  headers : ¬RejectsHeaders reception
  complete : ∀ decodedCam, UsesCam client map reception ⟨default, decoder, default⟩
    decodedCam →
      (decode client reception ⟨default, decoder, default⟩).decodedData.type =
        .etsiDecodedCam ∧ decodedCam.HasNodeStatus

variable {client : SocketClient} {map : LDMMap} {reception : Reception}

theorem insertedRecord_of_usesCam {locals : Locals} {decodedCam : DecodedCam}
    (uses : UsesCam client map reception locals decodedCam) :
    insertedRecord client map reception locals = some (vehdataOf map reception
      locals.vehdata (decode client reception locals).decodedData decodedCam) :=
  insertedRecord_eq_some_iff.mpr
    ⟨uses.ok, uses.type, decodedCam, uses.cast, uses.kept, rfl⟩

theorem usesCam_of_insertedRecord {locals : Locals} {vehdata : VehicleData}
    (record : insertedRecord client map reception locals = some vehdata) :
    ∃ decodedCam, UsesCam client map reception locals decodedCam ∧
      vehdataOf map reception locals.vehdata
        (decode client reception locals).decodedData decodedCam = vehdata := by
  rcases insertedRecord_eq_some_iff.mp record with
    ⟨ok, type, decodedCam, cast, kept, equal⟩
  exact ⟨decodedCam, ⟨ok, type, cast, kept⟩, equal⟩

theorem reportsDenm_of_denm {haversineDist : ℚ → ℚ → ℚ → ℚ → ℚ} {locals : Locals}
    {next : LDMMap} {report : DenmReport}
    (managed : manageMessage haversineDist client map reception locals =
      some (next, .denm report)) : ReportsDenm client reception locals := by
  dsimp only [manageMessage] at managed
  split at managed
  · cases managed
  · next ok =>
      split at managed
      · rw [manageCam] at managed
        split at managed
        · cases managed
        · cases managed
        · rcases Option.map_eq_some_iff.mp managed with ⟨_, _, equal⟩
          cases equal
      · split at managed
        · next isDenm =>
            rw [manageDenm] at managed
            split at managed
            · cases managed
            · next allocatedAs decodedDenm decodedMsg =>
                exact ⟨not_not.mp ok, isDenm.1, isDenm.2, allocatedAs, decodedDenm, decodedMsg⟩
            · cases managed
        · cases managed

/-! ## What decoding overwrites -/

/-- Two results that agree on what the caller uses after a success. The GeoNetworking
fields are only compared for messages with a header. -/
structure SameMessage (left right : EtsiDecoderResult) : Prop where
  retval : left.retval = right.retval
  type : left.retval = etsiDecoderOk → left.decodedData.type = right.decodedData.type
  decodedMsg : left.retval = etsiDecoderOk →
    left.decodedData.decodedMsg = right.decodedData.decodedMsg
  header : left.retval = etsiDecoderOk → left.decodedData.type = .etsiDecodedCam →
    left.decodedData.gnTimestamp = right.decodedData.gnTimestamp ∧
      left.decodedData.gnAddress = right.decodedData.gnAddress

theorem sameMessage_of_error {left right : EtsiDecoderResult}
    (leftError : left.retval = etsiDecoderError)
    (rightError : right.retval = etsiDecoderError) : SameMessage left right := by
  have failed : left.retval ≠ etsiDecoderOk := by
    rw [leftError]
    decide
  constructor
  · rw [leftError, rightError]
  · exact fun ok => absurd ok failed
  · exact fun ok => absurd ok failed
  · exact fun ok => absurd ok failed

theorem sameMessage_checkDecoded {left right : EtsiDecodedData}
    (type : left.type = right.type)
    (header : left.type = .etsiDecodedCam →
      left.gnTimestamp = right.gnTimestamp ∧ left.gnAddress = right.gnAddress)
    (events : List DecoderEvent) (code : AsnCode) (decoded : Option AsnObject) :
    SameMessage (DecoderFrontend.checkDecoded left events code decoded)
      (DecoderFrontend.checkDecoded right events code decoded) := by
  cases decoded with
  | none => exact sameMessage_of_error rfl rfl
  | some object =>
      by_cases success : code = .rcOk
      · simp only [DecoderFrontend.checkDecoded, if_pos success]
        exact ⟨rfl, fun _ => type, fun _ => rfl, fun _ => header⟩
      · simp only [DecoderFrontend.checkDecoded, if_neg success]
        exact sameMessage_of_error rfl rfl

theorem sameMessage_decodeOnce {left right : EtsiDecodedData}
    (type : left.type = right.type)
    (header : left.type = .etsiDecodedCam →
      left.gnTimestamp = right.gnTimestamp ∧ left.gnAddress = right.gnAddress)
    (oracle : AsnOracle) (call : AsnCall) :
    SameMessage (DecoderFrontend.decodeOnce oracle left call)
      (DecoderFrontend.decodeOnce oracle right call) :=
  sameMessage_checkDecoded type header _ _ _

theorem sameMessage_decodePayload (frontend : DecoderFrontend) (oracle : AsnOracle)
    (gndataIndication : GNDataIndication) (btpDataIndication : BTPDataIndication)
    (left right : EtsiDecodedData) :
    SameMessage
      (frontend.decodePayload oracle gndataIndication btpDataIndication left)
      (frontend.decodePayload oracle gndataIndication btpDataIndication right) := by
  unfold DecoderFrontend.decodePayload
  split
  · apply sameMessage_decodeOnce
    · rfl
    · exact fun _ => ⟨rfl, rfl⟩
  · split
    · apply sameMessage_decodeOnce
      · rfl
      · exact fun _ => ⟨rfl, rfl⟩
    · exact sameMessage_of_error rfl rfl

theorem sameMessage_decodeFacility (frontend : DecoderFrontend) (oracle : AsnOracle)
    (buflen : Nat) (packet : Nat → UInt8) (left right : EtsiDecodedData) :
    SameMessage ((frontend.decodeFacility oracle buflen left).value packet)
      ((frontend.decodeFacility oracle buflen right).value packet) := by
  simp only [DecoderFrontend.decodeFacility, value_bind, value_ite, value_pure]
  split
  · split
    · apply sameMessage_checkDecoded
      · rfl
      · intro isGn
        cases isGn
    · split
      · apply sameMessage_decodeOnce
        · rfl
        · intro isGn
          cases isGn
      · exact sameMessage_of_error rfl rfl
  · exact sameMessage_of_error rfl rfl

/-- Unless headers are rejected, a packet is empty, a bare facilities message, or a full ITS
message with headers that do not depend on the memory of the message. -/
theorem decode_paths (client : SocketClient) (accepted : ¬RejectsHeaders reception)
    (decoder : DecoderLocals) :
    (∀ decodedData vehdata, decode client reception ⟨decodedData, decoder, vehdata⟩ =
      ⟨etsiDecoderError, decodedData, []⟩) ∨
    (1 ≤ reception.bufsize ∧
      (DecoderFrontend.detectGeoNet reception.bufsize .msgtypeAuto).value reception.packet =
        false ∧
      ∀ decodedData vehdata, decode client reception ⟨decodedData, decoder, vehdata⟩ =
        (client.decodeFrontend.decodeFacility reception.oracle reception.bufsize
          decodedData).value reception.packet) ∨
    ∃ gndataIndication btpDataIndication, ∀ decodedData vehdata,
      decode client reception ⟨decodedData, decoder, vehdata⟩ =
        client.decodeFrontend.decodePayload reception.oracle gndataIndication
          btpDataIndication decodedData := by
  simp only [decode, DecoderFrontend.decodeEtsi]
  by_cases empty : reception.bufsize ≤ 0
  · left
    simp only [if_pos empty, value_pure, implies_true]
  · right
    simp only [if_neg empty, value_bind]
    cases path : (DecoderFrontend.detectGeoNet reception.bufsize .msgtypeAuto).value
        reception.packet with
    | false => exact .inl ⟨by omega, rfl, fun _ _ => rfl⟩
    | true =>
        have accepts : GNAccepts reception.packet ∧ BTPAccepts reception.packet := by
          by_contra rejected
          exact accepted ⟨by omega, path, rejected⟩
        have succeed := (DecoderFrontend.headerStagesSucceed_iff decoder _).mpr accepts
        simp only [if_true, DecoderFrontend.decodeGeoNet_of_accepted _ _ _ _ _ succeed]
        exact .inr ⟨_, _, fun _ _ => rfl⟩

theorem sameMessage_decode (client : SocketClient)
    (accepted : ¬RejectsHeaders reception) (decoder : DecoderLocals)
    (left right : EtsiDecodedData) (leftVehdata rightVehdata : VehicleData) :
    SameMessage (decode client reception ⟨left, decoder, leftVehdata⟩)
      (decode client reception ⟨right, decoder, rightVehdata⟩) := by
  rcases decode_paths client accepted decoder with
    empty | ⟨_, _, facility⟩ | ⟨gndataIndication, btpDataIndication, payload⟩
  · rw [empty, empty]
    exact sameMessage_of_error rfl rfl
  · rw [facility, facility]
    exact sameMessage_decodeFacility _ _ _ _ _ _
  · rw [payload, payload]
    exact sameMessage_decodePayload _ _ _ _ _ _

theorem vehdataOf_congr {left right : EtsiDecodedData}
    (timestamp : gnTimestamp left = gnTimestamp right)
    (address : left.gnAddress = right.gnAddress) {decodedCam : DecodedCam}
    (complete : decodedCam.HasNodeStatus) (leftMemory rightMemory : VehicleData) :
    vehdataOf map reception leftMemory left decodedCam =
      vehdataOf map reception rightMemory right decodedCam := by
  cases decodedCam with
  | cam => exact complete.elim
  | camEnhanced decodedEncam =>
      rcases Option.isSome_iff_exists.mp complete with ⟨container, found⟩
      simp only [vehdataOf, withNodeStatus, found, withChannelNodeStatus, timestamp, address]

theorem SameMessage.gnTimestamp_eq {left right : EtsiDecoderResult}
    (same : SameMessage left right) (ok : left.retval = etsiDecoderOk) :
    gnTimestamp left.decodedData = gnTimestamp right.decodedData := by
  unfold gnTimestamp
  rw [← same.type ok]
  split
  · next type => rw [(same.header ok type).1]
  · rfl

theorem UsesCam.of_sameMessage {locals other : Locals} {decodedCam : DecodedCam}
    (uses : UsesCam client map reception locals decodedCam)
    (same : SameMessage (decode client reception locals)
      (decode client reception other)) :
    UsesCam client map reception other decodedCam where
  ok := same.retval.symm.trans uses.ok
  type := by
    rw [← same.type uses.ok]
    exact uses.type
  cast := by
    rw [← same.decodedMsg uses.ok]
    exact uses.cast
  kept := by
    rw [← same.gnTimestamp_eq uses.ok]
    exact uses.kept

theorem dependsOnlyOnInputs_of_determined {decoder : DecoderLocals}
    (determined : Determined client map reception decoder) :
    DependsOnlyOnInputs client map reception decoder := by
  have transfer : ∀ (left right : EtsiDecodedData) (leftMemory rightMemory vehdata),
      insertedRecord client map reception ⟨left, decoder, leftMemory⟩ = some vehdata →
      insertedRecord client map reception ⟨right, decoder, rightMemory⟩ =
        some vehdata := by
    intro left right leftMemory rightMemory vehdata record
    rcases usesCam_of_insertedRecord record with ⟨decodedCam, uses, rfl⟩
    have same := sameMessage_decode client determined.headers decoder left right leftMemory
      rightMemory
    have toDefault := sameMessage_decode client determined.headers decoder left default
      leftMemory default
    rcases determined.complete decodedCam (uses.of_sameMessage toDefault) with
      ⟨isGn, complete⟩
    rw [← toDefault.type uses.ok] at isGn
    rw [insertedRecord_of_usesCam (uses.of_sameMessage same)]
    exact congrArg some (vehdataOf_congr (same.gnTimestamp_eq uses.ok).symm
      (same.header uses.ok isGn).2.symm complete _ _)
  intro left right leftMemory rightMemory
  apply Option.ext
  intro vehdata
  exact ⟨transfer left right leftMemory rightMemory vehdata,
    transfer right left rightMemory leftMemory vehdata⟩

/-! ## What is left of the memory -/

theorem decode_of_rejected (rejected : RejectsHeaders reception) (locals : Locals) :
    decode client reception locals =
      ⟨EtsiDecodedType.etsiDecodedError.toInt, locals.decodedData, []⟩ :=
  DecoderFrontend.decodeEtsi_of_rejected _ _ _ _ _ rejected.1 _ _ rejected.2.1 rejected.2.2

def staleCam (enableEnhancedCAMs : Bool) : AsnObject :=
  if enableEnhancedCAMs then ⟨.camEnhanced, .camEnhanced, standingCam, none⟩
  else ⟨.cam, .cam, standingCam⟩

theorem castCam_staleCam (enableEnhancedCAMs : Bool) :
    ∃ decodedCam,
      castCam enableEnhancedCAMs (some (staleCam enableEnhancedCAMs)) = some decodedCam := by
  cases enableEnhancedCAMs with
  | true => exact ⟨_, rfl⟩
  | false => exact ⟨_, rfl⟩

theorem usesCam_of_rejected (client : SocketClient) (map : LDMMap)
    (rejected : RejectsHeaders reception) (decoder : DecoderLocals) :
    ∃ decodedData decodedCam,
      UsesCam client map reception ⟨decodedData, decoder, default⟩ decodedCam := by
  rcases castCam_staleCam client.options.enableEnhancedCAMs with ⟨decodedCam, cast⟩
  refine ⟨{ (default : EtsiDecodedData) with
    type := .etsiDecodedCamNogn
    decodedMsg := some (staleCam client.options.enableEnhancedCAMs) }, decodedCam, ?_⟩
  constructor
  · rw [decode_of_rejected rejected]
    rfl
  · rw [decode_of_rejected rejected]
    exact .inr rfl
  · rw [decode_of_rejected rejected]
    exact cast
  · rintro ⟨old, _⟩
    rw [decode_of_rejected rejected] at old
    exact (outdated_iff.mp old).2.1 rfl

theorem not_rejectsHeaders_of_dependsOnlyOnInputs {decoder : DecoderLocals}
    (depends : DependsOnlyOnInputs client map reception decoder) :
    ¬RejectsHeaders reception := by
  intro rejected
  rcases usesCam_of_rejected client map rejected decoder with ⟨decodedData, decodedCam, stale⟩
  have record := insertedRecord_of_usesCam stale
  rw [depends _ default _ default] at record
  rcases usesCam_of_insertedRecord record with ⟨_, uses, _⟩
  have type := uses.type
  rw [decode_of_rejected rejected] at type
  rcases type with isGn | isNogn
  · cases isGn
  · cases isNogn

@[simp] theorem checkDecoded_gnAddress (decodedData : EtsiDecodedData)
    (events : List DecoderEvent) (code : AsnCode) (decoded : Option AsnObject) :
    (DecoderFrontend.checkDecoded decodedData events code decoded).decodedData.gnAddress =
      decodedData.gnAddress := by
  cases decoded with
  | none => rfl
  | some object => cases code <;> rfl

@[simp] theorem checkDecoded_type (decodedData : EtsiDecodedData)
    (events : List DecoderEvent) (code : AsnCode) (decoded : Option AsnObject) :
    (DecoderFrontend.checkDecoded decodedData events code decoded).decodedData.type =
      decodedData.type := by
  cases decoded with
  | none => rfl
  | some object => cases code <;> rfl

theorem decodePayload_type_ne (frontend : DecoderFrontend) (oracle : AsnOracle)
    (gndataIndication : GNDataIndication) (btpDataIndication : BTPDataIndication)
    (decodedData : EtsiDecodedData) :
    (frontend.decodePayload oracle gndataIndication btpDataIndication
      decodedData).decodedData.type ≠ .etsiDecodedCamNogn := by
  unfold DecoderFrontend.decodePayload
  split
  · simp [DecoderFrontend.decodeOnce]
  · split
    · simp [DecoderFrontend.decodeOnce]
    · simp

theorem decodeFacility_gnAddress (frontend : DecoderFrontend) (oracle : AsnOracle)
    (buflen : Nat) (decodedData : EtsiDecodedData) (packet : Nat → UInt8) :
    ((frontend.decodeFacility oracle buflen decodedData).value packet).decodedData.gnAddress =
      decodedData.gnAddress := by
  simp only [DecoderFrontend.decodeFacility, value_bind, value_ite, value_pure]
  split
  · split
    · simp [DecoderFrontend.decodeBareCam]
    · split
      · simp [DecoderFrontend.decodeOnce]
      · rfl
  · rfl

theorem decode_gnAddress (accepted : ¬RejectsHeaders reception) (locals : Locals)
    (isNogn : (decode client reception locals).decodedData.type = .etsiDecodedCamNogn) :
    (decode client reception locals).decodedData.gnAddress =
      locals.decodedData.gnAddress := by
  rcases locals with ⟨decodedData, decoder, vehdata⟩
  rcases decode_paths client accepted decoder with
    empty | ⟨_, _, facility⟩ | ⟨gndataIndication, btpDataIndication, payload⟩
  · rw [empty]
  · rw [facility]
    exact decodeFacility_gnAddress _ _ _ _ _
  · rw [payload] at isNogn
    exact absurd isNogn (decodePayload_type_ne _ _ _ _ _)

theorem determined_of_dependsOnlyOnInputs {decoder : DecoderLocals}
    (depends : DependsOnlyOnInputs client map reception decoder) :
    Determined client map reception decoder := by
  have accepted := not_rejectsHeaders_of_dependsOnlyOnInputs depends
  refine ⟨accepted, fun decodedCam uses => ⟨?_, ?_⟩⟩
  · rcases uses.type with isGn | isNogn
    · exact isGn
    · -- another address before the call is stored as another MAC address
      have same := sameMessage_decode client accepted decoder default
        { (default : EtsiDecodedData) with gnAddress := fun _ => 1 } default default
      have records := depends default
        { (default : EtsiDecodedData) with gnAddress := fun _ => 1 } default default
      rw [insertedRecord_of_usesCam uses,
        insertedRecord_of_usesCam (uses.of_sameMessage same)] at records
      have macs := congrArg (fun record => record.map fun vehdata => vehdata.macaddr 0) records
      simp only [Option.map_some, vehdataOf_macaddr, macOf, decode_gnAddress accepted _ isNogn,
        decode_gnAddress accepted _ ((same.type uses.ok).symm.trans isNogn)] at macs
      exact absurd macs (by decide)
  · -- another load before the call is stored as it is
    have other : UsesCam client map reception
        ⟨default, decoder, { (default : VehicleData) with cpuLoadPerc := 1, gpuLoadPerc := 1 }⟩
        decodedCam := ⟨uses.ok, uses.type, uses.cast, uses.kept⟩
    have records := depends default default default
      { (default : VehicleData) with cpuLoadPerc := 1, gpuLoadPerc := 1 }
    rw [insertedRecord_of_usesCam uses, insertedRecord_of_usesCam other] at records
    cases decodedCam with
    | cam decodedCam =>
        have loads : (0 : ℚ) = 1 :=
          congrArg VehicleData.gpuLoadPerc (Option.some.inj records)
        exact absurd loads (by decide)
    | camEnhanced decodedEncam =>
        cases container : decodedEncam.channelNodeStatusContainer with
        | some value => exact Option.isSome_of_eq_some container
        | none =>
            simp only [vehdataOf, withNodeStatus, container] at records
            have loads : (0 : ℚ) = 1 :=
              congrArg VehicleData.cpuLoadPerc (Option.some.inj records)
            exact absurd loads (by decide)

/-- A record depends on real inputs only, exactly when the headers are not rejected
and a CAM that is used has a GeoNetworking header and carries all loads. -/
theorem dependsOnlyOnInputs_iff_determined (client : SocketClient) (map : LDMMap)
    (reception : Reception) (decoder : DecoderLocals) :
    DependsOnlyOnInputs client map reception decoder ↔
      Determined client map reception decoder :=
  ⟨determined_of_dependsOnlyOnInputs, dependsOnlyOnInputs_of_determined⟩

/-- A plain CAM is stored with the GPU load that was in memory before. -/
theorem not_dependsOnlyOnInputs_of_plain :
    ¬DependsOnlyOnInputs ⟨⟨false, true⟩, "", false⟩ (.empty default) (camReception 100)
      default := by
  intro depends
  have loads := congrArg (Option.map fun vehdata => vehdata.gpuLoadPerc)
    (depends default default default { (default : VehicleData) with gpuLoadPerc := 1 })
  exact absurd loads (by decide +kernel)

end AIM.Client
