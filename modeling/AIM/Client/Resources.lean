import AIM.Client.ObjectTypes
import AIM.Foundation.Ledger

namespace AIM.Client

open Decoder Database LoggedReader Ledger

/-! # Objects and streams

What is acquired for a message, decoded objects and the stream of `get_rssi_from_iw`, and
what of it is given back. -/

inductive Resource
  | asnObject
  | iwStream
  deriving DecidableEq

/-! ## Uses of one message -/

/-- A call of `asn_decode` with a null target acquires the object that it leaves. `free`
gives back the structure alone, and nothing that its members point to: it does not release
an ASN.1 object. -/
def decoderEventUse : DecoderEvent → Option (Use Resource)
  | .asnDecode call _ decoded =>
      if call.target.isNone ∧ decoded.isSome then some (.acquire .asnObject) else none
  | .free _ => none

def decodingResources (result : EtsiDecoderResult) : List (Use Resource) :=
  result.events.filterMap decoderEventUse

/-- `get_rssi_from_iw` reads from the stream if `popen` has opened one. There is no
`pclose` on any of its paths. -/
def getRssiFromIwUses (popenSucceeds : Bool) : List (Use Resource) :=
  if popenSucceeds then [.acquire .iwStream] else []

/-- A CAM that is stored and a DENM that is reported ask for the signal level, and are freed
as ASN.1 structures. -/
def outcomeUses (popenSucceeds : Bool) : Outcome → List (Use Resource)
  | .stored _ _ _ | .denm _ => getRssiFromIwUses popenSucceeds ++ [.release .asnObject]
  | .undecodable | .discarded | .ignored => []

section

variable (haversineDist : ℚ → ℚ → ℚ → ℚ → ℚ)

def messageUses (client : SocketClient) (map : LDMMap) (reception : Reception)
    (locals : Locals) (popenSucceeds : Bool) : Option (List (Use Resource)) :=
  (manageMessage haversineDist client map reception locals).map fun result =>
    decodingResources (decode client reception locals) ++
      outcomeUses popenSucceeds result.2

/-- Everything acquired for the message is released as often, whatever the local variables
held before. -/
def ReleasesAll (client : SocketClient) (map : LDMMap) (reception : Reception)
    (decoder : DecoderLocals) (popenSucceeds : Bool) : Prop :=
  ∀ (decodedData : EtsiDecodedData) (vehdata : VehicleData),
    ∃ uses, messageUses haversineDist client map reception ⟨decodedData, decoder, vehdata⟩
      popenSucceeds = some uses ∧ Balanced uses

end

def Processes (client : SocketClient) (map : LDMMap) (reception : Reception)
    (locals : Locals) : Prop :=
  (∃ decodedCam, UsesCam client map reception locals decodedCam) ∨
    ReportsDenm client reception locals

/-- The headers are not rejected, and either no object is allocated, or the message is
processed to the end and `popen` fails. -/
structure Thrifty (client : SocketClient) (map : LDMMap) (reception : Reception)
    (decoder : DecoderLocals) (popenSucceeds : Bool) : Prop where
  headers : ¬RejectsHeaders reception
  released :
    decodingResources (decode client reception ⟨default, decoder, default⟩) = [] ∨
      Processes client map reception ⟨default, decoder, default⟩ ∧ popenSucceeds = false

/-! ## One object per packet -/

/-- At most one object is acquired, and exactly one if the decoder succeeds. -/
structure AcquiresOnce (result : EtsiDecoderResult) : Prop where
  atMost : decodingResources result = [] ∨ decodingResources result = [.acquire .asnObject]
  ok : result.retval = etsiDecoderOk → decodingResources result = [.acquire .asnObject]

theorem acquiresOnce_of_error (decodedData : EtsiDecodedData) :
    AcquiresOnce ⟨etsiDecoderError, decodedData, []⟩ where
  atMost := .inl rfl
  ok equal := absurd equal error_ne_ok

theorem decodingResources_checkDecoded (decodedData : EtsiDecodedData)
    (events : List DecoderEvent) (code : AsnCode) (decoded : Option AsnObject) :
    decodingResources (DecoderFrontend.checkDecoded decodedData events code decoded) =
      events.filterMap decoderEventUse := by
  cases decoded with
  | none => rfl
  | some object =>
      by_cases success : code = .rcOk
      · rw [DecoderFrontend.checkDecoded, if_pos success]
        rfl
      · rw [DecoderFrontend.checkDecoded, if_neg success, decodingResources,
          List.filterMap_append]
        exact List.append_nil _

theorem acquiresOnce_checkDecoded {decodedData : EtsiDecodedData} {events : List DecoderEvent}
    {code : AsnCode} {decoded : Option AsnObject}
    (acquired : events.filterMap decoderEventUse =
      if decoded.isSome then [.acquire .asnObject] else []) :
    AcquiresOnce (DecoderFrontend.checkDecoded decodedData events code decoded) := by
  cases decoded with
  | none =>
      constructor
      · exact .inl acquired
      · exact fun ok => absurd ok error_ne_ok
  | some object =>
      constructor
      · right
        rw [decodingResources_checkDecoded, acquired]
        rfl
      · intro _
        rw [decodingResources_checkDecoded, acquired]
        rfl

theorem acquiresOnce_single {call : AsnCall} (null : call.target = none)
    (decodedData : EtsiDecodedData) (code : AsnCode) (decoded : Option AsnObject) :
    AcquiresOnce (DecoderFrontend.checkDecoded decodedData [.asnDecode call code decoded] code
      decoded) := by
  apply acquiresOnce_checkDecoded
  cases decoded with
  | none => simp [decoderEventUse]
  | some object => simp [decoderEventUse, null]

theorem acquiresOnce_decodeOnce (oracle : AsnOracle) (decodedData : EtsiDecodedData)
    {call : AsnCall} (null : call.target = none) :
    AcquiresOnce (DecoderFrontend.decodeOnce oracle decodedData call) :=
  acquiresOnce_single null decodedData _ _

theorem decode_isSome (oracle : AsnOracle) (index : Nat) {call : AsnCall}
    (found : call.target.isSome) : (oracle.decode index call).2.isSome := by
  rcases Option.isSome_iff_exists.mp found with ⟨object, target⟩
  rw [AsnOracle.decode]
  cases written : (oracle.outcome index call).2 with
  | none => simpa only [written] using found
  | some content => simp only [written, target, Option.isSome_some]

theorem acquiresOnce_second (oracle : AsnOracle) (descriptor : AsnType) (buflen : Nat)
    (decodedData : EtsiDecodedData) (firstCode : AsnCode) (target : Option AsnObject) :
    let second : AsnCall := ⟨descriptor, target, 0, buflen⟩
    AcquiresOnce (DecoderFrontend.checkDecoded decodedData
      [.asnDecode ⟨.cam, none, 0, buflen⟩ firstCode target,
        .asnDecode second (oracle.decode 1 second).1 (oracle.decode 1 second).2]
      (oracle.decode 1 second).1 (oracle.decode 1 second).2) := by
  apply acquiresOnce_checkDecoded
  cases target with
  | none =>
      cases (oracle.decode 1 ⟨descriptor, none, 0, buflen⟩).2 with
      | none => rfl
      | some object => rfl
  | some object =>
      rw [if_pos (decode_isSome oracle 1 rfl)]
      rfl

theorem acquiresOnce_decodeBareCam (frontend : DecoderFrontend) (oracle : AsnOracle)
    (buflen : Nat) (decodedData : EtsiDecodedData) :
    AcquiresOnce (frontend.decodeBareCam oracle buflen decodedData) :=
  acquiresOnce_second oracle frontend.camDescriptor buflen _ _ _

variable {client : SocketClient} {map : LDMMap} {reception : Reception}

theorem acquiresOnce_decode (accepted : ¬RejectsHeaders reception) (locals : Locals) :
    AcquiresOnce (decode client reception locals) := by
  apply decode_rule accepted
  · exact acquiresOnce_of_error
  · intro decodedData call null _
    exact acquiresOnce_decodeOnce reception.oracle decodedData null
  · intro decodedData _ _ _
    exact acquiresOnce_decodeBareCam client.decodeFrontend reception.oracle reception.bufsize
      decodedData

/-! ## What decoding acquires is fixed by the packet -/

theorem decodingResources_congr (left right : EtsiDecodedData) (events : List DecoderEvent)
    (code : AsnCode) (decoded : Option AsnObject) :
    decodingResources (DecoderFrontend.checkDecoded left events code decoded) =
      decodingResources (DecoderFrontend.checkDecoded right events code decoded) := by
  rw [decodingResources_checkDecoded, decodingResources_checkDecoded]

theorem decodingResources_decodePayload (frontend : DecoderFrontend) (oracle : AsnOracle)
    (gndataIndication : GNDataIndication) (btpDataIndication : BTPDataIndication)
    (left right : EtsiDecodedData) :
    decodingResources
        (frontend.decodePayload oracle gndataIndication btpDataIndication left) =
      decodingResources
        (frontend.decodePayload oracle gndataIndication btpDataIndication right) := by
  rw [DecoderFrontend.decodePayload, DecoderFrontend.decodePayload]
  split
  · exact decodingResources_congr _ _ _ _ _
  · split
    · exact decodingResources_congr _ _ _ _ _
    · rfl

theorem decodingResources_decodeFacility (frontend : DecoderFrontend) (oracle : AsnOracle)
    (buflen : Nat) (packet : Nat → UInt8) (left right : EtsiDecodedData) :
    decodingResources ((frontend.decodeFacility oracle buflen left).value packet) =
      decodingResources ((frontend.decodeFacility oracle buflen right).value packet) := by
  simp only [DecoderFrontend.decodeFacility, value_bind, value_ite, value_pure]
  split
  · split
    · exact decodingResources_congr _ _ _ _ _
    · split
      · exact decodingResources_congr _ _ _ _ _
      · rfl
  · rfl

theorem decodingResources_decode (client : SocketClient)
    (accepted : ¬RejectsHeaders reception) (decoder : DecoderLocals)
    (left right : EtsiDecodedData) (leftVehdata rightVehdata : VehicleData) :
    decodingResources (decode client reception ⟨left, decoder, leftVehdata⟩) =
      decodingResources (decode client reception ⟨right, decoder, rightVehdata⟩) := by
  rcases decode_paths client accepted decoder with
    empty | ⟨_, _, facility⟩ | ⟨gndataIndication, btpDataIndication, payload⟩
  · rw [empty, empty]
    rfl
  · rw [facility, facility]
    exact decodingResources_decodeFacility _ _ _ _ _ _
  · rw [payload, payload]
    exact decodingResources_decodePayload _ _ _ _ _ _

/-! ## How a message ends -/

variable {haversineDist : ℚ → ℚ → ℚ → ℚ → ℚ} {decoder : DecoderLocals} {locals : Locals}

def Outcome.Processed : Outcome → Prop
  | .stored _ _ _ | .denm _ => True
  | .undecodable | .discarded | .ignored => False

theorem ReportsDenm.manageMessage_eq (haversineDist : ℚ → ℚ → ℚ → ℚ → ℚ)
    (reports : ReportsDenm client reception locals) :
    ∃ report, manageMessage haversineDist client map reception locals =
      some (map, .denm report) := by
  rcases reports with ⟨ok, enabled, type, allocatedAs, decodedDenm, decodedMsg⟩
  have notCam : ¬((decode client reception locals).decodedData.type = .etsiDecodedCam ∨
      (decode client reception locals).decodedData.type = .etsiDecodedCamNogn) := by
    rcases type with type | type
    · simp [type]
    · simp [type]
  refine ⟨denmReport reception (decode client reception locals).decodedData decodedDenm, ?_⟩
  simp only [manageMessage, ok, ne_eq, not_true_eq_false, if_false, if_neg notCam,
    if_pos (And.intro enabled type), manageDenm, decodedMsg]

theorem processes_of_processed {next : LDMMap} {outcome : Outcome}
    (managed : manageMessage haversineDist client map reception locals = some (next, outcome))
    (processed : outcome.Processed) : Processes client map reception locals := by
  cases outcome with
  | stored vehdata dbRetval freedAs =>
      rcases insertedRecord_isSome_of_stored managed with ⟨record, inserts⟩
      rcases usesCam_of_insertedRecord inserts with ⟨decodedCam, uses, _⟩
      exact .inl ⟨decodedCam, uses⟩
  | denm report => exact .inr (reportsDenm_of_denm managed)
  | undecodable | discarded | ignored => exact processed.elim

theorem processed_of_processes (haversineDist : ℚ → ℚ → ℚ → ℚ → ℚ) (linked : map.Linked)
    (processes : Processes client map reception locals) :
    ∃ next outcome, manageMessage haversineDist client map reception locals =
      some (next, outcome) ∧ outcome.Processed := by
  rcases processes with ⟨decodedCam, uses⟩ | reports
  · have managed := manageMessage_of_some haversineDist (insertedRecord_of_usesCam uses)
    rcases linked.insert_isSome haversineDist (vehdataOf map reception locals.vehdata
      (decode client reception locals).decodedData decodedCam) with ⟨next, dbRetval, inserted⟩
    rw [inserted, Option.map_some] at managed
    exact ⟨next, _, managed, trivial⟩
  · rcases reports.manageMessage_eq haversineDist with ⟨report, managed⟩
    exact ⟨map, .denm report, managed, trivial⟩

/-! ## The balance of a message -/

theorem outcomeUses_of_processed {outcome : Outcome} (popenSucceeds : Bool)
    (processed : outcome.Processed) :
    outcomeUses popenSucceeds outcome =
      getRssiFromIwUses popenSucceeds ++ [.release .asnObject] := by
  cases outcome with
  | stored | denm => rfl
  | undecodable | discarded | ignored => exact processed.elim

theorem outcomeUses_of_not_processed {outcome : Outcome} (popenSucceeds : Bool)
    (leaves : ¬outcome.Processed) : outcomeUses popenSucceeds outcome = [] := by
  cases outcome with
  | stored | denm => exact absurd trivial leaves
  | undecodable | discarded | ignored => rfl

theorem balanced_processed_iff {outcome : Outcome} {popenSucceeds : Bool}
    (processed : outcome.Processed) :
    Balanced ([.acquire .asnObject] ++ outcomeUses popenSucceeds outcome) ↔
      popenSucceeds = false := by
  rw [outcomeUses_of_processed popenSucceeds processed]
  constructor
  · intro balanced
    cases popenSucceeds with
    | false => rfl
    | true => exact absurd (balanced .iwStream) (by decide)
  · rintro rfl resource
    cases resource with
    | asnObject => rfl
    | iwStream => rfl

theorem not_balanced_of_processed {outcome : Outcome} (popenSucceeds : Bool)
    (processed : outcome.Processed) : ¬Balanced (outcomeUses popenSucceeds outcome) := by
  rw [outcomeUses_of_processed popenSucceeds processed]
  intro balanced
  cases popenSucceeds with
  | false => exact absurd (balanced .asnObject) (by decide)
  | true => exact absurd (balanced .asnObject) (by decide)

theorem not_balanced_of_object : ¬Balanced [Use.acquire Resource.asnObject] :=
  fun balanced => absurd (balanced .asnObject) (by decide)

theorem not_rejectsHeaders_of_releasesAll {popenSucceeds : Bool}
    (releases : ReleasesAll haversineDist client map reception decoder popenSucceeds) :
    ¬RejectsHeaders reception := by
  intro rejected
  rcases usesCam_of_rejected client map rejected decoder with ⟨decodedData, decodedCam, uses⟩
  rcases releases decodedData default with ⟨_, recorded, balanced⟩
  rcases Option.map_eq_some_iff.mp recorded with ⟨⟨next, outcome⟩, managed, rfl⟩
  have inserts := manageMessage_of_some haversineDist (insertedRecord_of_usesCam uses)
  rw [managed] at inserts
  rcases Option.map_eq_some_iff.mp inserts.symm with ⟨_, _, equal⟩
  have processed : outcome.Processed := by
    rw [← (Prod.mk.inj equal).2]
    trivial
  rw [decode_of_rejected rejected] at balanced
  exact not_balanced_of_processed popenSucceeds processed balanced

theorem thrifty_of_releasesAll {popenSucceeds : Bool}
    (releases : ReleasesAll haversineDist client map reception decoder popenSucceeds) :
    Thrifty client map reception decoder popenSucceeds := by
  have accepted := not_rejectsHeaders_of_releasesAll releases
  refine ⟨accepted, ?_⟩
  rcases releases default default with ⟨_, recorded, balanced⟩
  rcases Option.map_eq_some_iff.mp recorded with ⟨⟨next, outcome⟩, managed, rfl⟩
  rcases (acquiresOnce_decode accepted _).atMost with none | once
  · exact .inl none
  · right
    rw [once] at balanced
    have processed : outcome.Processed := by
      by_contra leaves
      rw [outcomeUses_of_not_processed popenSucceeds leaves] at balanced
      exact not_balanced_of_object balanced
    exact ⟨processes_of_processed managed processed,
      (balanced_processed_iff processed).mp balanced⟩

theorem Processes.ok (processes : Processes client map reception locals) :
    (decode client reception locals).retval = etsiDecoderOk := by
  rcases processes with ⟨_, uses⟩ | reports
  · exact uses.ok
  · exact reports.ok

theorem Processes.of_sameMessage {other : Locals}
    (processes : Processes client map reception locals)
    (same : SameMessage (decode client reception locals) (decode client reception other)) :
    Processes client map reception other := by
  rcases processes with ⟨decodedCam, uses⟩ | ⟨ok, enabled, type, cast⟩
  · exact .inl ⟨decodedCam, uses.of_sameMessage same⟩
  · right
    constructor
    · exact same.retval.symm.trans ok
    · exact enabled
    · rw [← same.type ok]
      exact type
    · rw [← same.decodedMsg ok]
      exact cast

theorem manageMessage_of_noObject (accepted : ¬RejectsHeaders reception)
    (none : decodingResources (decode client reception locals) = []) :
    manageMessage haversineDist client map reception locals = some (map, .undecodable) := by
  have failed : (decode client reception locals).retval ≠ etsiDecoderOk := by
    intro ok
    cases none.symm.trans ((acquiresOnce_decode accepted locals).ok ok)
  simp only [manageMessage, if_pos failed]

theorem releasesAll_of_thrifty {popenSucceeds : Bool} (linked : map.Linked)
    (thrifty : Thrifty client map reception decoder popenSucceeds) :
    ReleasesAll haversineDist client map reception decoder popenSucceeds := by
  intro decodedData vehdata
  rw [messageUses]
  rcases thrifty.released with none | ⟨processes, fails⟩
  · rw [decodingResources_decode client thrifty.headers decoder default decodedData default
      vehdata] at none
    rw [manageMessage_of_noObject thrifty.headers none, none]
    exact ⟨_, rfl, Balanced.nil⟩
  · have same := sameMessage_decode client thrifty.headers decoder default decodedData default
      vehdata
    have processes := processes.of_sameMessage same
    rcases processed_of_processes haversineDist linked processes with
      ⟨next, outcome, managed, processed⟩
    rw [managed, (acquiresOnce_decode thrifty.headers _).ok processes.ok]
    exact ⟨_, rfl, (balanced_processed_iff processed).mpr fails⟩

theorem releasesAll_iff_thrifty (haversineDist : ℚ → ℚ → ℚ → ℚ → ℚ) {popenSucceeds : Bool}
    (linked : map.Linked) :
    ReleasesAll haversineDist client map reception decoder popenSucceeds ↔
      Thrifty client map reception decoder popenSucceeds :=
  ⟨thrifty_of_releasesAll, releasesAll_of_thrifty linked⟩

/-! ## Runs -/

structure ResourceEvent where
  event : DatabaseEvent
  popenSucceeds : Bool

namespace ResourceEvent

section

variable (haversineDist : ℚ → ℚ → ℚ → ℚ → ℚ) (client : SocketClient)

def step (map : LDMMap) (label : ResourceEvent) : Option LDMMap :=
  label.event.step haversineDist client map

def uses (map : LDMMap) (label : ResourceEvent) : List (Use Resource) :=
  match label.event with
  | .message reception locals =>
      (messageUses haversineDist client map reception locals label.popenSucceeds).getD []
  | .perform _ => []

def ReleasesAll (map : LDMMap) (label : ResourceEvent) : Prop :=
  match label.event with
  | .message reception locals =>
      Client.ReleasesAll haversineDist client map reception locals.decoder label.popenSucceeds
  | .perform _ => True

def Thrifty (map : LDMMap) (label : ResourceEvent) : Prop :=
  match label.event with
  | .message reception locals =>
      Client.Thrifty client map reception locals.decoder label.popenSucceeds
  | .perform _ => True

end

theorem balanced_of_releasesAll {map : LDMMap} {label : ResourceEvent}
    (releases : ReleasesAll haversineDist client map label) :
    Balanced (uses haversineDist client map label) := by
  rcases label with ⟨event, popenSucceeds⟩
  cases event with
  | message reception locals =>
      rcases releases locals.decodedData locals.vehdata with ⟨list, recorded, balanced⟩
      simp only [uses, recorded, Option.getD_some]
      exact balanced
  | perform operation => exact Balanced.nil

theorem releasesAll_iff_thrifty (haversineDist : ℚ → ℚ → ℚ → ℚ → ℚ) {map : LDMMap}
    (linked : map.Linked) (label : ResourceEvent) :
    ReleasesAll haversineDist client map label ↔ Thrifty client map label := by
  rcases label with ⟨event, popenSucceeds⟩
  cases event with
  | message reception locals => exact Client.releasesAll_iff_thrifty haversineDist linked
  | perform operation => exact Iff.rfl

/-- In a run from an empty database everything is released exactly if every message is
accepted and leaves no object, or is processed to the end without a stream. Then as many
objects and streams are held after the run as before. -/
theorem run_releasesAll_iff (haversineDist : ℚ → ℚ → ℚ → ℚ → ℚ) (client : SocketClient)
    (memory : Nat → UninitializedPHpoints) (labels : List ResourceEvent) :
    (Execution.Always (step haversineDist client) (ReleasesAll haversineDist client)
        (.empty memory) labels ↔
      Execution.Always (step haversineDist client) (Thrifty client) (.empty memory) labels) ∧
    (Execution.Always (step haversineDist client) (Thrifty client) (.empty memory) labels →
      ∀ resource, outstanding (runUses (step haversineDist client)
        (uses haversineDist client) (.empty memory) labels) resource = 0) := by
  have linked := (LDMMap.wellFormed_empty (.empty memory)).linked
  have preserved : ∀ (map : LDMMap) (label : ResourceEvent) (next : LDMMap), map.Linked →
      step haversineDist client map label = some next → next.Linked :=
    fun _ _ _ linked stepped => DatabaseEvent.step_linked linked stepped
  have exactly : Execution.Always (step haversineDist client)
      (ReleasesAll haversineDist client) (.empty memory) labels ↔
      Execution.Always (step haversineDist client) (Thrifty client) (.empty memory) labels := by
    apply Execution.Always.iff_of_invariant LDMMap.Linked (fun _ => True)
    · exact fun map label next linked _ _ => preserved map label next linked
    · exact fun map label linked _ => releasesAll_iff_thrifty haversineDist linked label
    · exact linked
    · exact fun _ _ => trivial
  refine ⟨exactly, fun thrifty resource => ?_⟩
  apply Balanced.outstanding_eq_zero
  apply balanced_runUses (fun _ _ => balanced_of_releasesAll)
  exact exactly.mpr thrifty

end ResourceEvent

/-! ## Messages that leave something behind -/

def denmReception (code : AsnCode) : Reception where
  packet _ := messageDenm
  bufsize := 2
  oracle := ⟨fun _ call => (code,
    match call.descriptor with
    | .denm => some ⟨12, 0, 0⟩
    | .cam | .camEnhanced => none)⟩
  timestampUs := 0
  rssiFromIw _ := rssiUnavailable

/-- A CAM that is stored leaves a stream, a DENM that is not reported leaves its object, and
so does a packet whose decoding fails half way. -/
theorem ResourceEvent.not_releasesAll_of_cam_or_denm :
    ¬Execution.Always (step LDMMap.noDist ⟨⟨false, true⟩, "", false⟩)
      (ReleasesAll LDMMap.noDist ⟨⟨false, true⟩, "", false⟩) (.empty default)
      [⟨.message (camReception 100) default, true⟩] ∧
    ¬Execution.Always (step LDMMap.noDist ⟨⟨false, true⟩, "", false⟩)
      (ReleasesAll LDMMap.noDist ⟨⟨false, true⟩, "", false⟩) (.empty default)
      [⟨.message (denmReception .rcOk) default, false⟩] ∧
    ¬Execution.Always (step LDMMap.noDist ⟨⟨false, true⟩, "", true⟩)
      (ReleasesAll LDMMap.noDist ⟨⟨false, true⟩, "", true⟩) (.empty default)
      [⟨.message (denmReception .rcFail) default, false⟩] := by
  refine ⟨fun always => ?_, fun always => ?_, fun always => ?_⟩
  · rcases (thrifty_of_releasesAll always.1).released with none | ⟨_, fails⟩
    · exact absurd none (by decide +kernel)
    · cases fails
  · rcases (thrifty_of_releasesAll always.1).released with none | ⟨processes, _⟩
    · exact absurd none (by decide +kernel)
    · rcases processes with ⟨_, uses⟩ | reports
      · exact absurd uses.type (by decide +kernel)
      · cases reports.enabled
  · rcases (thrifty_of_releasesAll always.1).released with none | ⟨processes, _⟩
    · exact absurd none (by decide +kernel)
    · exact absurd processes.ok (by decide +kernel)

end AIM.Client
