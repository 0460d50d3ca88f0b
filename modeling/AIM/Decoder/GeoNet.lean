import AIM.Decoder.Headers

namespace AIM.Decoder

open LoggedReader

/-! # GeoNetworking and BTP decoding

`GeoNet::decodeGN` and `btp::decodeBTP`: the headers of a packet are read in
sequence and the first failing check decides the error code. -/

inductive GnError
  | gnOk
  | gnVersionError
  | gnSecuredError
  | gnLifetimeError
  | gnHopLimitError
  | gnTypeError
  deriving DecidableEq, Repr

inductive BtpError
  | btpOk
  | btpError
  deriving DecidableEq, Repr

/-! The values of `TransportType_t` and `BTPType_t` that the decoder compares
header fields with. -/

def gbc : UInt8 := 4
def tsb : UInt8 := 5
def btpA : UInt8 := 1
def btpB : UInt8 := 2

def caPort : UInt16 := 2001
def denPort : UInt16 := 2002

/-- `GNDataIndication_t`; `data` is the offset of the payload in the packet. -/
structure GNDataIndication where
  upperProtocol : UInt8
  sourcePV : LongPositionVector
  gnAddressDest : GeoArea
  gnTraClass : UInt8
  gnRemainingLife : ℚ
  gnRemainingHL : Int16
  gnType : UInt8
  lenght : UInt32
  data : Nat
  deriving Inhabited

/-- `BTPDataIndication_t`, without the fields no code writes or reads. -/
structure BTPDataIndication where
  btpType : UInt8
  destPort : UInt16
  sourcePort : UInt16
  destPInfo : UInt16
  gnAddress : GeoArea
  gnPositionV : LongPositionVector
  gnTraClass : UInt8
  gnRemPLife : ℚ
  lenght : UInt32
  data : Nat
  deriving Inhabited

namespace GeoNet

/-- `m_GnPtotocolVersion` -/
def gnProtocolVersion : UInt8 := 1

def decodeLT (lifeTime : UInt8) : Option ℚ :=
  let base := lifeTime &&& 0x03
  let multiplier := (lifeTime &&& 0xFC) >>> 2
  match base with
  | 0 => some (multiplier.toNat * (1 / 20))
  | 1 => some (multiplier.toNat * 1)
  | 2 => some (multiplier.toNat * 10)
  | 3 => some (multiplier.toNat * 100)
  | _ => none

def processSHB (dataIndication : GNDataIndication) : Parser GNDataIndication := do
  let shbH ← ShbHeader.removeHeader dataIndication.data
  return { dataIndication with
    data := dataIndication.data + 28
    sourcePV := shbH.sourcePV
    gnType := tsb }

def processGBC (dataIndication : GNDataIndication) (shape : UInt8) :
    Parser GNDataIndication := do
  let gbcH ← GbcHeader.removeHeader dataIndication.data
  return { dataIndication with
    data := dataIndication.data + 44
    sourcePV := gbcH.sourcePV
    gnAddressDest := gbcH.getGeoArea shape
    gnType := gbc }

def processHeaderType (commonH : CommonHeader) (dataIndication : GNDataIndication) :
    Parser (GnError × GNDataIndication) :=
  if dataIndication.gnType = gbc then do
    let dataIndication ← processGBC dataIndication commonH.headerSubType
    return (.gnOk, dataIndication)
  else if dataIndication.gnType = tsb then
    if commonH.headerSubType = 0 then do
      let dataIndication ← processSHB dataIndication
      return (.gnOk, dataIndication)
    else
      return (.gnTypeError, dataIndication)
  else
    return (.gnTypeError, dataIndication)

def processCommonHeader (basicH : BasicHeader) (dataIndication : GNDataIndication) :
    Parser (GnError × GNDataIndication) := do
  let commonH ← CommonHeader.removeHeader dataIndication.data
  let dataIndication := { dataIndication with
    data := dataIndication.data + 8
    upperProtocol := commonH.nextHeader
    gnTraClass := commonH.trafficClass }
  if commonH.maxHopLimit < basicH.remainingHopLimit then
    return (.gnHopLimitError, dataIndication)
  else
    processHeaderType commonH { dataIndication with
      gnType := commonH.headerType
      lenght := commonH.payload.toUInt32 }

/-- `dataIndication` is what the caller's structure holds before the call. -/
def decodeGN (packet : Nat) (dataIndication : GNDataIndication) :
    Parser (GnError × GNDataIndication) := do
  let basicH ← BasicHeader.removeHeader packet
  let dataIndication := { dataIndication with
    data := packet + 4
    gnRemainingLife := basicH.lifeTime.toNat
    gnRemainingHL := basicH.remainingHopLimit.toUInt16.toInt16 }
  if basicH.version ≠ gnProtocolVersion ∧ basicH.version ≠ 0 then
    return (.gnVersionError, dataIndication)
  else if basicH.nextHeader = 2 then
    return (.gnSecuredError, dataIndication)
  else
    match decodeLT basicH.lifeTime with
    | none => return (.gnLifetimeError, dataIndication)
    | some seconds =>
        processCommonHeader basicH { dataIndication with gnRemainingLife := seconds }

end GeoNet

/-- `btpDataIndication` is what the caller's structure holds before the call. -/
def decodeBTP (dataIndication : GNDataIndication)
    (btpDataIndication : BTPDataIndication) :
    Parser (BtpError × BTPDataIndication) := do
  let header ← BtpHeader.removeHeader dataIndication.data
  let btpDataIndication := { btpDataIndication with
    data := dataIndication.data + 4
    btpType := dataIndication.upperProtocol }
  if header.destinationPort ≠ caPort ∧ header.destinationPort ≠ denPort then
    return (.btpError, btpDataIndication)
  else
    let btpDataIndication := { btpDataIndication with
      destPort := header.destinationPort }
    let delivered := { btpDataIndication with
      gnAddress := dataIndication.gnAddressDest
      gnTraClass := dataIndication.gnTraClass
      gnRemPLife := dataIndication.gnRemainingLife
      gnPositionV := dataIndication.sourcePV
      data := dataIndication.data + 4
      lenght := dataIndication.lenght - 4 }
    if dataIndication.upperProtocol = btpA then
      return (.btpOk, { delivered with
        sourcePort := header.sourceDestInfo
        destPInfo := 0 })
    else if dataIndication.upperProtocol = btpB then
      return (.btpOk, { delivered with
        destPInfo := header.sourceDestInfo
        sourcePort := 0 })
    else
      return (.btpError, btpDataIndication)

/-! ## Accepted packets

Which packets pass the checks, as a property of their header fields alone. The
packet starts at address zero. -/

def basicHeaderOf (packet : Nat → UInt8) : BasicHeader :=
  (BasicHeader.removeHeader 0).value packet

def commonHeaderOf (packet : Nat → UInt8) : CommonHeader :=
  (CommonHeader.removeHeader 4).value packet

/-- Where the extended header ends and the BTP header starts. -/
def btpOffset (packet : Nat → UInt8) : Nat :=
  if (commonHeaderOf packet).headerType = gbc then 56 else 40

def btpHeaderOf (packet : Nat → UInt8) : BtpHeader :=
  (BtpHeader.removeHeader (btpOffset packet)).value packet

def GNAccepts (packet : Nat → UInt8) : Prop :=
  ((basicHeaderOf packet).version = GeoNet.gnProtocolVersion ∨
    (basicHeaderOf packet).version = 0) ∧
  (basicHeaderOf packet).nextHeader ≠ 2 ∧
  (basicHeaderOf packet).remainingHopLimit ≤ (commonHeaderOf packet).maxHopLimit ∧
  ((commonHeaderOf packet).headerType = gbc ∨
    ((commonHeaderOf packet).headerType = tsb ∧
      (commonHeaderOf packet).headerSubType = 0))

def BTPAccepts (packet : Nat → UInt8) : Prop :=
  ((btpHeaderOf packet).destinationPort = caPort ∨
    (btpHeaderOf packet).destinationPort = denPort) ∧
  ((commonHeaderOf packet).nextHeader = btpA ∨
    (commonHeaderOf packet).nextHeader = btpB)

instance (packet : Nat → UInt8) : Decidable (GNAccepts packet) :=
  inferInstanceAs (Decidable (_ ∧ _))

instance (packet : Nat → UInt8) : Decidable (BTPAccepts packet) :=
  inferInstanceAs (Decidable (_ ∧ _))

theorem GeoNet.decodeLT_isSome (lifeTime : UInt8) :
    ∃ seconds, decodeLT lifeTime = some seconds := by
  have low : (lifeTime &&& 0x03).toNat < 4 := by
    rw [UInt8.toNat_and]
    exact Nat.lt_of_le_of_lt Nat.and_le_right (by decide)
  have base : lifeTime &&& 0x03 = 0 ∨ lifeTime &&& 0x03 = 1 ∨
      lifeTime &&& 0x03 = 2 ∨ lifeTime &&& 0x03 = 3 := by
    simp only [← UInt8.toNat_inj]
    simp only [UInt8.toNat_ofNat]
    omega
  rcases base with base | base | base | base <;> simp [decodeLT, base]

namespace GeoNet

theorem processHeaderType_value (commonH : CommonHeader)
    (dataIndication : GNDataIndication) (packet : Nat → UInt8) :
    let result := (processHeaderType commonH dataIndication).value packet
    (result.1 = .gnOk ↔ dataIndication.gnType = gbc ∨
      (dataIndication.gnType = tsb ∧ commonH.headerSubType = 0)) ∧
    (result.1 = .gnOk → result.2.data = dataIndication.data +
      if dataIndication.gnType = gbc then 44 else 28) ∧
    result.2.lenght = dataIndication.lenght ∧
    result.2.upperProtocol = dataIndication.upperProtocol := by
  simp only [processHeaderType, value_ite, value_bind, value_pure, processGBC,
    processSHB]
  by_cases isGbc : dataIndication.gnType = gbc
  · simp [isGbc]
  · by_cases isTsb : dataIndication.gnType = tsb
    · have different : tsb ≠ gbc := by decide
      by_cases single : commonH.headerSubType = 0 <;> simp [isTsb, different, single]
    · simp [isGbc, isTsb]

theorem processCommonHeader_value (basicH : BasicHeader)
    (dataIndication : GNDataIndication) (packet : Nat → UInt8)
    (start : dataIndication.data = 4) :
    let commonH := commonHeaderOf packet
    let result := (processCommonHeader basicH dataIndication).value packet
    (result.1 = .gnOk ↔ basicH.remainingHopLimit ≤ commonH.maxHopLimit ∧
      (commonH.headerType = gbc ∨
        (commonH.headerType = tsb ∧ commonH.headerSubType = 0))) ∧
    (result.1 = .gnOk → result.2.data = btpOffset packet ∧
      result.2.lenght = commonH.payload.toUInt32 ∧
      result.2.upperProtocol = commonH.nextHeader) := by
  simp only [processCommonHeader, value_bind, value_ite, value_pure, start,
    ← commonHeaderOf.eq_def]
  by_cases exceeded : (commonHeaderOf packet).maxHopLimit < basicH.remainingHopLimit
  · simp [exceeded]
  · have header := processHeaderType_value (commonHeaderOf packet) { dataIndication with
      data := 12
      upperProtocol := (commonHeaderOf packet).nextHeader
      gnTraClass := (commonHeaderOf packet).trafficClass
      gnType := (commonHeaderOf packet).headerType
      lenght := (commonHeaderOf packet).payload.toUInt32 } packet
    rcases header with ⟨accepted, offset, length, protocol⟩
    simp only [if_neg exceeded]
    refine ⟨accepted.trans ?_, fun ok => ⟨(offset ok).trans ?_, length, protocol⟩⟩
    · simp [UInt8.not_lt.mp exceeded]
    · unfold btpOffset
      split <;> rfl

theorem decodeGN_value (packet : Nat → UInt8) (dataIndication : GNDataIndication) :
    let result := (decodeGN 0 dataIndication).value packet
    (result.1 = .gnOk ↔ GNAccepts packet) ∧
    (result.1 = .gnOk → result.2.data = btpOffset packet ∧
      result.2.lenght = (commonHeaderOf packet).payload.toUInt32 ∧
      result.2.upperProtocol = (commonHeaderOf packet).nextHeader) := by
  rcases decodeLT_isSome (basicHeaderOf packet).lifeTime with ⟨seconds, lifeTime⟩
  simp only [decodeGN, value_bind, value_ite, value_pure, ← basicHeaderOf.eq_def,
    lifeTime, GNAccepts]
  by_cases version : (basicHeaderOf packet).version ≠ gnProtocolVersion ∧
      (basicHeaderOf packet).version ≠ 0
  · simp [version]
  · by_cases secured : (basicHeaderOf packet).nextHeader = 2
    · simp [version, secured]
    · simp only [if_neg version, if_neg secured]
      have common := processCommonHeader_value (basicHeaderOf packet)
        { dataIndication with
          data := 0 + 4
          gnRemainingLife := seconds
          gnRemainingHL := (basicHeaderOf packet).remainingHopLimit.toUInt16.toInt16 }
        packet rfl
      refine ⟨common.1.trans ?_, common.2⟩
      have supported : (basicHeaderOf packet).version = gnProtocolVersion ∨
          (basicHeaderOf packet).version = 0 := by tauto
      simp [supported, secured]

end GeoNet

theorem decodeBTP_value (packet : Nat → UInt8) (dataIndication : GNDataIndication)
    (btpDataIndication : BTPDataIndication)
    (start : dataIndication.data = btpOffset packet)
    (protocol : dataIndication.upperProtocol = (commonHeaderOf packet).nextHeader) :
    let result := (decodeBTP dataIndication btpDataIndication).value packet
    (result.1 = .btpOk ↔ BTPAccepts packet) ∧
    (result.1 = .btpOk → result.2.data = btpOffset packet + 4 ∧
      result.2.lenght = dataIndication.lenght - 4 ∧
      result.2.destPort = (btpHeaderOf packet).destinationPort) := by
  simp only [decodeBTP, value_bind, value_ite, value_pure, start, protocol,
    ← btpHeaderOf.eq_def, BTPAccepts]
  by_cases port : (btpHeaderOf packet).destinationPort ≠ caPort ∧
      (btpHeaderOf packet).destinationPort ≠ denPort
  · simp [port]
  · have supported : (btpHeaderOf packet).destinationPort = caPort ∨
        (btpHeaderOf packet).destinationPort = denPort := by tauto
    by_cases isA : (commonHeaderOf packet).nextHeader = btpA
    · simp [if_neg port, isA, supported]
    · by_cases isB : (commonHeaderOf packet).nextHeader = btpB
      · simp [if_neg port, isB, supported, show btpB ≠ btpA by decide]
      · simp [if_neg port, isA, isB]

end AIM.Decoder
