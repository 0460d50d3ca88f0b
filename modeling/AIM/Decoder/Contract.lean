import AIM.Decoder.Frontend

namespace AIM.Decoder

open LoggedReader

/-! # What the caller of `decodeEtsi` may rely on

The result contract of the decoder front end and the bounds of the bytes that
it hands to the ASN.1 decoder. -/

namespace DecoderFrontend

/-! ## The two paths -/

def justDecoded (events : List DecoderEvent) : Option AsnObject :=
  match events.getLast? with
  | some (.asnDecode _ .rcOk decoded) => decoded
  | _ => none

def gnStage (locals : DecoderLocals) (packet : Nat → UInt8) :
    GnError × GNDataIndication :=
  (GeoNet.decodeGN 0 locals.gndataIndication).value packet

def btpStage (locals : DecoderLocals) (packet : Nat → UInt8) :
    BtpError × BTPDataIndication :=
  (decodeBTP (gnStage locals packet).2 locals.btpDataIndication).value packet

def HeaderStagesSucceed (locals : DecoderLocals) (packet : Nat → UInt8) : Prop :=
  (gnStage locals packet).1 = .gnOk ∧ (btpStage locals packet).1 = .btpOk

theorem headerStagesSucceed_iff (locals : DecoderLocals) (packet : Nat → UInt8) :
    HeaderStagesSucceed locals packet ↔ GNAccepts packet ∧ BTPAccepts packet := by
  rcases GeoNet.decodeGN_value packet locals.gndataIndication with ⟨gnOk, delivered⟩
  constructor
  · rintro ⟨gn, btp⟩
    rcases delivered gn with ⟨offset, _, protocol⟩
    exact ⟨gnOk.mp gn, (decodeBTP_value packet _ _ offset protocol).1.mp btp⟩
  · rintro ⟨gn, btp⟩
    rcases delivered (gnOk.mpr gn) with ⟨offset, _, protocol⟩
    exact ⟨gnOk.mpr gn, (decodeBTP_value packet _ _ offset protocol).1.mpr btp⟩

theorem btpStage_payload (locals : DecoderLocals) (packet : Nat → UInt8)
    (succeed : HeaderStagesSucceed locals packet) :
    (btpStage locals packet).2.data = btpOffset packet + 4 ∧
    (btpStage locals packet).2.lenght =
      (commonHeaderOf packet).payload.toUInt32 - 4 ∧
    (btpStage locals packet).2.destPort = (btpHeaderOf packet).destinationPort := by
  rcases GeoNet.decodeGN_value packet locals.gndataIndication with ⟨_, delivered⟩
  rcases delivered succeed.1 with ⟨offset, length, protocol⟩
  rcases decodeBTP_value packet _ locals.btpDataIndication offset protocol with
    ⟨_, payload⟩
  rcases payload succeed.2 with ⟨data, size, port⟩
  exact ⟨data, size.trans (by rw [length]), port⟩

/-- A rejected packet leaves the caller's structure alone and returns the value
of `ETSI_DECODED_ERROR`. -/
theorem decodeGeoNet_of_rejected (frontend : DecoderFrontend) (oracle : AsnOracle)
    (locals : DecoderLocals) (decodedData : EtsiDecodedData) (packet : Nat → UInt8)
    (rejected : ¬HeaderStagesSucceed locals packet) :
    (frontend.decodeGeoNet oracle locals decodedData).value packet =
      ⟨EtsiDecodedType.etsiDecodedError.toInt, decodedData, []⟩ := by
  simp only [decodeGeoNet, value_bind, value_ite, value_pure]
  split
  · rfl
  · next gn =>
      rw [if_pos]
      intro btp
      exact rejected ⟨not_not.mp gn, btp⟩

theorem decodeGeoNet_of_accepted (frontend : DecoderFrontend) (oracle : AsnOracle)
    (locals : DecoderLocals) (decodedData : EtsiDecodedData) (packet : Nat → UInt8)
    (accepted : HeaderStagesSucceed locals packet) :
    (frontend.decodeGeoNet oracle locals decodedData).value packet =
      frontend.decodePayload oracle (gnStage locals packet).2
        (btpStage locals packet).2 decodedData := by
  rcases accepted with ⟨gn, btp⟩
  simp only [decodeGeoNet, value_bind, value_ite, value_pure, ← gnStage.eq_def,
    ← btpStage.eq_def]
  simp [gn, btp]

/-! ## The result contract -/

/-- Every stage of the chosen path succeeds. The outcome of the ASN.1 stage is
that of its last call, the one whose result code the decoder tests. -/
def StagesSucceed (locals : DecoderLocals) (packet : Nat → UInt8) (isGeoNet : Bool)
    (events : List DecoderEvent) : Prop :=
  (isGeoNet = true → HeaderStagesSucceed locals packet) ∧
    (justDecoded events).isSome = true

/-- What a caller that looks only at the return value relies on. -/
structure ResultContract (locals : DecoderLocals) (packet : Nat → UInt8)
    (isGeoNet : Bool) (result : EtsiDecoderResult) : Prop where
  ok_iff : result.retval = etsiDecoderOk ↔
    StagesSucceed locals packet isGeoNet result.events
  ok_type : result.retval = etsiDecoderOk → result.decodedData.type ∈
    [.etsiDecodedCam, .etsiDecodedDenm, .etsiDecodedCamNogn, .etsiDecodedDenmNogn]
  ok_object : result.retval = etsiDecoderOk →
    ∃ object, justDecoded result.events = some object ∧
      result.decodedData.decodedMsg = some object
  otherwise_error : result.retval ≠ etsiDecoderOk → result.retval = etsiDecoderError

theorem checkDecoded_contract (locals : DecoderLocals) (packet : Nat → UInt8)
    (isGeoNet : Bool) (headers : isGeoNet = true → HeaderStagesSucceed locals packet)
    (decodedData : EtsiDecodedData)
    (type : decodedData.type ∈ [EtsiDecodedType.etsiDecodedCam, .etsiDecodedDenm,
      .etsiDecodedCamNogn, .etsiDecodedDenmNogn])
    (earlier : List DecoderEvent) (call : AsnCall) (code : AsnCode)
    (decoded : Option AsnObject) :
    ResultContract locals packet isGeoNet
      (checkDecoded decodedData (earlier ++ [.asnDecode call code decoded])
        code decoded) := by
  cases decoded with
  | none =>
      constructor <;>
        simp [checkDecoded, StagesSucceed, justDecoded, etsiDecoderOk, etsiDecoderError]
      cases code <;> simp
  | some object =>
      by_cases success : code = .rcOk
      · subst success
        constructor <;>
          simp [checkDecoded, StagesSucceed, justDecoded, etsiDecoderOk]
        · exact headers
        · simpa using type
      · constructor <;>
          simp [checkDecoded, success, StagesSucceed, justDecoded, etsiDecoderOk,
            etsiDecoderError]

theorem error_contract (locals : DecoderLocals) (packet : Nat → UInt8)
    (isGeoNet : Bool) (decodedData : EtsiDecodedData) :
    ResultContract locals packet isGeoNet ⟨etsiDecoderError, decodedData, []⟩ := by
  constructor <;>
    simp [StagesSucceed, justDecoded, etsiDecoderOk, etsiDecoderError]

theorem decodePayload_contract (frontend : DecoderFrontend) (oracle : AsnOracle)
    (locals : DecoderLocals) (packet : Nat → UInt8) (isGeoNet : Bool)
    (headers : isGeoNet = true → HeaderStagesSucceed locals packet)
    (gndataIndication : GNDataIndication) (btpDataIndication : BTPDataIndication)
    (decodedData : EtsiDecodedData) :
    ResultContract locals packet isGeoNet
      (frontend.decodePayload oracle gndataIndication btpDataIndication
        decodedData) := by
  unfold decodePayload
  split
  · exact checkDecoded_contract _ _ _ headers _ (by simp) [] _ _ _
  · split
    · exact checkDecoded_contract _ _ _ headers _ (by simp) [] _ _ _
    · exact error_contract _ _ _ _

theorem decodeFacility_contract (frontend : DecoderFrontend) (oracle : AsnOracle)
    (locals : DecoderLocals) (packet : Nat → UInt8) (buflen : Nat)
    (decodedData : EtsiDecodedData) :
    ResultContract locals packet false
      ((frontend.decodeFacility oracle buflen decodedData).value packet) := by
  have headers : false = true → HeaderStagesSucceed locals packet :=
    fun impossible => nomatch impossible
  simp only [decodeFacility, value_bind, value_ite, value_pure]
  split
  · split
    · exact checkDecoded_contract _ _ _ headers _ (by simp) [_] _ _ _
    · split
      · exact checkDecoded_contract _ _ _ headers _ (by simp) [] _ _ _
      · exact error_contract _ _ _ _
  · exact error_contract _ _ _ _

/-- With rejected headers the full ITS path breaks the contract: the value it
returns is the one that `ETSI_DECODER_OK` stands for. -/
theorem not_contract_of_rejected (locals : DecoderLocals) (packet : Nat → UInt8)
    (decodedData : EtsiDecodedData) :
    ¬ResultContract locals packet true
      ⟨EtsiDecodedType.etsiDecodedError.toInt, decodedData, []⟩ := by
  intro contract
  have succeed := (contract.ok_iff.mp rfl).2
  simp [justDecoded] at succeed

theorem decodeEtsi_of_rejected (frontend : DecoderFrontend) (oracle : AsnOracle)
    (locals : DecoderLocals) (packet : Nat → UInt8) (buflen : Nat)
    (nonempty : 1 ≤ buflen) (decodedData : EtsiDecodedData) (msgtype : MsgType)
    (path : (detectGeoNet buflen msgtype).value packet = true)
    (rejected : ¬(GNAccepts packet ∧ BTPAccepts packet)) :
    (frontend.decodeEtsi oracle locals buflen decodedData msgtype).value packet =
      ⟨EtsiDecodedType.etsiDecodedError.toInt, decodedData, []⟩ := by
  have notEmpty : ¬buflen ≤ 0 := by omega
  rw [← headerStagesSucceed_iff locals] at rejected
  simp only [decodeEtsi, if_neg notEmpty, value_bind, path, if_true]
  exact decodeGeoNet_of_rejected frontend oracle locals decodedData packet rejected

/-- The decoder meets its result contract unless it takes the full ITS path on
a packet whose header fields it rejects. -/
theorem decodeEtsi_contract_iff (frontend : DecoderFrontend) (oracle : AsnOracle)
    (locals : DecoderLocals) (packet : Nat → UInt8) (buflen : Nat)
    (nonempty : 1 ≤ buflen) (decodedData : EtsiDecodedData) (msgtype : MsgType) :
    ResultContract locals packet ((detectGeoNet buflen msgtype).value packet)
        ((frontend.decodeEtsi oracle locals buflen decodedData msgtype).value packet) ↔
      ((detectGeoNet buflen msgtype).value packet = true →
        GNAccepts packet ∧ BTPAccepts packet) := by
  have notEmpty : ¬buflen ≤ 0 := by omega
  cases path : (detectGeoNet buflen msgtype).value packet with
  | false =>
      simp only [decodeEtsi, if_neg notEmpty, value_bind, path, Bool.false_eq_true,
        if_false, false_implies, iff_true]
      exact decodeFacility_contract frontend oracle locals packet buflen decodedData
  | true =>
      simp only [true_implies]
      by_cases accepted : GNAccepts packet ∧ BTPAccepts packet
      · have succeed := (headerStagesSucceed_iff locals packet).mpr accepted
        simp only [decodeEtsi, if_neg notEmpty, value_bind, path, if_true]
        rw [decodeGeoNet_of_accepted _ _ _ _ _ succeed]
        exact iff_of_true (decodePayload_contract frontend oracle locals packet true
          (fun _ => succeed) _ _ decodedData) accepted
      · rw [decodeEtsi_of_rejected _ _ _ _ _ nonempty _ _ path accepted]
        exact iff_of_false (not_contract_of_rejected locals packet decodedData) accepted

/-- A packet with a single-hop broadcast header and a BTP-B header for CAMs,
and `high` and `low` as its payload-length field. -/
def shbCamPacket (high low : UInt8) (address : Nat) : UInt8 :=
  match address with
  | 0 => 0x10
  | 3 => 0x01
  | 4 => 0x20
  | 5 => 0x50
  | 8 => high
  | 9 => low
  | 10 => 0x01
  | 40 => 0x07
  | 41 => 0xD1
  | _ => 0

/-- The contract on an accepted packet whose ASN.1 decoding then fails. -/
theorem decodeEtsi_contract_shbCam :
    ResultContract default (shbCamPacket 0 36)
      ((detectGeoNet 76 .msgtypeAuto).value (shbCamPacket 0 36))
      ((decodeEtsi ⟨false⟩ ⟨fun _ _ => (.rcFail, none)⟩ default 76 default
        .msgtypeAuto).value (shbCamPacket 0 36)) :=
  (decodeEtsi_contract_iff ⟨false⟩ ⟨fun _ _ => (.rcFail, none)⟩ default
    (shbCamPacket 0 36) 76 (by decide) default .msgtypeAuto).mpr
    (fun _ => by decide)

/-- A packet of GeoNetworking version 2 is not decoded, and the caller is told
that it was. -/
theorem decodeEtsi_contract_fails_on_version_two :
    ((decodeEtsi ⟨false⟩ ⟨fun _ _ => (.rcFail, none)⟩ default 44 default
      .msgtypeAuto).value (fun _ => 0x20)).retval = etsiDecoderOk ∧
    ¬ResultContract default (fun _ => 0x20)
      ((detectGeoNet 44 .msgtypeAuto).value (fun _ => 0x20))
      ((decodeEtsi ⟨false⟩ ⟨fun _ _ => (.rcFail, none)⟩ default 44 default
        .msgtypeAuto).value (fun _ => 0x20)) := by
  have path : (detectGeoNet 44 .msgtypeAuto).value (fun _ => 0x20) = true := by decide
  have rejected : ¬(GNAccepts (fun _ => 0x20) ∧ BTPAccepts (fun _ => 0x20)) := by decide
  rw [decodeEtsi_of_rejected _ _ _ _ _ (by decide) _ _ path rejected, path]
  exact ⟨rfl, not_contract_of_rejected _ _ _⟩

end DecoderFrontend

end AIM.Decoder
