import AIM.Decoder.GeoNet
import AIM.Decoder.Facilities

namespace AIM.Decoder

open LoggedReader

/-! # The decoder front end

`decoderFrontend::decodeEtsi`: the choice between a full ITS message and a bare
facilities message, and the two decoding paths. -/

def etsiDecoderOk : Int := 0
def etsiDecoderError : Int := 1

/-- `etsi_message_t`, the message identifiers that are supported. -/
def messageDenm : UInt8 := 1
def messageCam : UInt8 := 2

/-- `is_enum_valid_etsi_message_t`, as generated by the named-enum macro. -/
def isEnumValidEtsiMessage (enumValue : UInt8) : Int :=
  if enumValue = messageDenm then 1
  else if enumValue = messageCam then 2
  else 0

inductive EtsiDecodedType
  | etsiDecodedError
  | etsiDecodedCam
  | etsiDecodedDenm
  | etsiDecodedIvim
  | etsiDecodedCpm
  | etsiDecodedCamNogn
  | etsiDecodedDenmNogn
  | etsiDecodedIvimNogn
  | etsiDecodedCpmNogn
  deriving DecidableEq, Repr, Inhabited

/-- The value of an enumerator where the source uses it as an `int`. -/
def EtsiDecodedType.toInt : EtsiDecodedType → Int
  | .etsiDecodedError => 0
  | .etsiDecodedCam => 1
  | .etsiDecodedDenm => 2
  | .etsiDecodedIvim => 3
  | .etsiDecodedCpm => 4
  | .etsiDecodedCamNogn => 5
  | .etsiDecodedDenmNogn => 6
  | .etsiDecodedIvimNogn => 7
  | .etsiDecodedCpmNogn => 8

/-- `etsiDecodedData_t`, a structure of the caller that the decoder fills in. -/
structure EtsiDecodedData where
  decodedMsg : Option AsnObject
  type : EtsiDecodedType
  gnTimestamp : UInt32
  gnAddress : Fin 8 → UInt8
  posLong : Int32
  posLat : Int32
  distA : UInt16
  distB : UInt16
  angle : UInt16
  deriving Inhabited

inductive MsgType
  | msgtypeIts
  | msgtypeFacilityonly
  | msgtypeAuto
  deriving DecidableEq, Repr

/-- The decoder object; printing of packets is not modelled. -/
structure DecoderFrontend where
  enhancedCAMs : Bool
  deriving DecidableEq, Repr

/-- The contents of the uninitialised local structures of `decodeEtsi`. -/
structure DecoderLocals where
  gndataIndication : GNDataIndication
  btpDataIndication : BTPDataIndication
  deriving Inhabited

structure EtsiDecoderResult where
  retval : Int
  decodedData : EtsiDecodedData
  events : List DecoderEvent

namespace DecoderFrontend

def detectGeoNet (buflen : Nat) : MsgType → Parser Bool
  | .msgtypeIts => return true
  | .msgtypeFacilityonly => return false
  | .msgtypeAuto =>
      if buflen < 44 then return false
      else do
        let messageID ← readCell 1
        return isEnumValidEtsiMessage messageID = 0

/-- The test after the last `asn_decode` of each branch, and the end of
`decodeEtsi`. -/
def checkDecoded (decodedData : EtsiDecodedData) (events : List DecoderEvent)
    (code : AsnCode) : Option AsnObject → EtsiDecoderResult
  | none => ⟨etsiDecoderError, decodedData, events⟩
  | some decoded =>
      if code = .rcOk then
        ⟨etsiDecoderOk, { decodedData with decodedMsg := some decoded }, events⟩
      else
        ⟨etsiDecoderError, decodedData, events ++ [.free decoded]⟩

def camDescriptor (frontend : DecoderFrontend) : AsnType :=
  if frontend.enhancedCAMs then .camEnhanced else .cam

def decodeOnce (oracle : AsnOracle) (decodedData : EtsiDecodedData)
    (call : AsnCall) : EtsiDecoderResult :=
  let (code, decoded) := oracle.decode 0 call
  checkDecoded decodedData [.asnDecode call code decoded] code decoded

def decodePayload (frontend : DecoderFrontend) (oracle : AsnOracle)
    (gndataIndication : GNDataIndication) (btpDataIndication : BTPDataIndication)
    (decodedData : EtsiDecodedData) : EtsiDecoderResult :=
  let decodedData := { decodedData with
    gnTimestamp := gndataIndication.sourcePV.tst
    gnAddress := gndataIndication.sourcePV.gnAddress }
  let data := btpDataIndication.data
  let size := btpDataIndication.lenght.toNat
  if btpDataIndication.destPort = caPort then
    decodeOnce oracle { decodedData with type := .etsiDecodedCam }
      ⟨frontend.camDescriptor, none, data, size⟩
  else if btpDataIndication.destPort = denPort then
    decodeOnce oracle
      { decodedData with
        posLat := gndataIndication.gnAddressDest.posLat
        posLong := gndataIndication.gnAddressDest.posLong
        distA := gndataIndication.gnAddressDest.distA
        distB := gndataIndication.gnAddressDest.distB
        angle := gndataIndication.gnAddressDest.angle
        type := .etsiDecodedDenm }
      ⟨.denm, none, data, size⟩
  else
    ⟨etsiDecoderError, { decodedData with type := .etsiDecodedError }, []⟩

/-- The full ITS branch. Both early returns give an enumerator of
`etsiDecodedType_e`, not the error code of the decoder. -/
def decodeGeoNet (frontend : DecoderFrontend) (oracle : AsnOracle)
    (locals : DecoderLocals) (decodedData : EtsiDecodedData) :
    Parser EtsiDecoderResult := do
  let (gnRetval, gndataIndication) ← GeoNet.decodeGN 0 locals.gndataIndication
  if gnRetval ≠ .gnOk then
    return ⟨EtsiDecodedType.etsiDecodedError.toInt, decodedData, []⟩
  else do
    let (btpRetval, btpDataIndication) ←
      decodeBTP gndataIndication locals.btpDataIndication
    if btpRetval ≠ .btpOk then
      return ⟨EtsiDecodedType.etsiDecodedError.toInt, decodedData, []⟩
    else
      return frontend.decodePayload oracle gndataIndication btpDataIndication decodedData

/-- The bare CAM branch. The buffer is decoded as a plain CAM first, whatever
the setting is, and then once more through the same pointer. -/
def decodeBareCam (frontend : DecoderFrontend) (oracle : AsnOracle) (buflen : Nat)
    (decodedData : EtsiDecodedData) : EtsiDecoderResult :=
  let decodedData := { decodedData with type := .etsiDecodedCamNogn }
  let first : AsnCall := ⟨.cam, none, 0, buflen⟩
  let (firstCode, firstDecoded) := oracle.decode 0 first
  let second : AsnCall := ⟨frontend.camDescriptor, firstDecoded, 0, buflen⟩
  let (code, decoded) := oracle.decode 1 second
  checkDecoded decodedData
    [.asnDecode first firstCode firstDecoded, .asnDecode second code decoded]
    code decoded

def decodeFacility (frontend : DecoderFrontend) (oracle : AsnOracle) (buflen : Nat)
    (decodedData : EtsiDecodedData) : Parser EtsiDecoderResult := do
  let messageID ← readCell 1
  if isEnumValidEtsiMessage messageID ≠ 0 then
    if messageID = messageCam then
      return frontend.decodeBareCam oracle buflen decodedData
    else if messageID = messageDenm then
      return decodeOnce oracle { decodedData with type := .etsiDecodedDenmNogn }
        ⟨.denm, none, 0, buflen⟩
    else
      return ⟨etsiDecoderError, { decodedData with type := .etsiDecodedError }, []⟩
  else
    return ⟨etsiDecoderError, { decodedData with type := .etsiDecodedError }, []⟩

def decodeEtsi (frontend : DecoderFrontend) (oracle : AsnOracle)
    (locals : DecoderLocals) (buflen : Nat) (decodedData : EtsiDecodedData)
    (msgtype : MsgType) : Parser EtsiDecoderResult :=
  if buflen ≤ 0 then
    return ⟨etsiDecoderError, decodedData, []⟩
  else do
    let isGeoNet ← detectGeoNet buflen msgtype
    if isGeoNet then
      frontend.decodeGeoNet oracle locals decodedData
    else
      frontend.decodeFacility oracle buflen decodedData

end DecoderFrontend

end AIM.Decoder
