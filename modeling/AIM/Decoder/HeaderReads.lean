import AIM.Decoder.Contract

namespace AIM.Decoder

open LoggedReader

/-! # The bytes that header parsing reads

The receive buffer is longer than a packet, so that parsing a short packet can read what
an earlier one has left behind it. -/

def BasicAccepts (packet : Nat → UInt8) : Prop :=
  ((basicHeaderOf packet).version = GeoNet.gnProtocolVersion ∨
    (basicHeaderOf packet).version = 0) ∧
  (basicHeaderOf packet).nextHeader ≠ 2

instance (packet : Nat → UInt8) : Decidable (BasicAccepts packet) :=
  inferInstanceAs (Decidable (_ ∧ _))

/-- The end of the last header that is read before a check fails. -/
def headersEnd (packet : Nat → UInt8) : Nat :=
  if BasicAccepts packet then
    if GNAccepts packet then btpOffset packet + 4 else 12
  else 4

/-! ## The headers -/

variable (packet : Nat → UInt8) (size : Nat)

theorem inside_basicHeader (buffer : Nat) :
    (BasicHeader.removeHeader buffer).Inside packet size ↔ buffer + 4 ≤ size := by
  simp only [BasicHeader.removeHeader, inside_bind, inside_readCell, inside_pure, and_true]
  omega

theorem inside_read16 (source : Nat) :
    (read16 source).Inside packet size ↔ source + 2 ≤ size := by
  simp [read16, memcpy16]

theorem inside_read32 (source : Nat) :
    (read32 source).Inside packet size ↔ source + 4 ≤ size := by
  simp [read32, memcpy32]

theorem inside_commonHeader (buffer : Nat) :
    (CommonHeader.removeHeader buffer).Inside packet size ↔ buffer + 8 ≤ size := by
  simp only [CommonHeader.removeHeader, inside_bind, inside_readCell, inside_read16,
    inside_pure, and_true]
  omega

theorem inside_longPositionVector (buffer : Nat) :
    (LongPositionVector.remove buffer).Inside packet size ↔ buffer + 24 ≤ size := by
  simp only [LongPositionVector.remove, inside_bind, inside_readBlock _ (Nat.zero_lt_succ 7),
    inside_read16, inside_read32, inside_pure, and_true]
  omega

theorem inside_shbHeader (buffer : Nat) :
    (ShbHeader.removeHeader buffer).Inside packet size ↔ buffer + 24 ≤ size := by
  simp only [ShbHeader.removeHeader, inside_bind, inside_longPositionVector, inside_pure,
    and_true]

theorem inside_gbcHeader (buffer : Nat) :
    (GbcHeader.removeHeader buffer).Inside packet size ↔ buffer + 44 ≤ size := by
  simp only [GbcHeader.removeHeader, memcpy16, inside_bind, inside_longPositionVector,
    inside_read16, inside_read32, inside_readBlock _ (Nat.zero_lt_succ 1), inside_pure, and_true]
  omega

theorem inside_btpHeader (buffer : Nat) :
    (BtpHeader.removeHeader buffer).Inside packet size ↔ buffer + 4 ≤ size := by
  simp only [BtpHeader.removeHeader, inside_bind, inside_read16, inside_pure, and_true]
  omega

/-! ## The layers -/

theorem inside_processHeaderType (commonH : CommonHeader) (dataIndication : GNDataIndication) :
    (GeoNet.processHeaderType commonH dataIndication).Inside packet size ↔
      if dataIndication.gnType = gbc then dataIndication.data + 44 ≤ size
      else dataIndication.gnType = tsb → commonH.headerSubType = 0 →
        dataIndication.data + 24 ≤ size := by
  simp only [GeoNet.processHeaderType, GeoNet.processGBC, GeoNet.processSHB, inside_ite,
    inside_bind, inside_gbcHeader, inside_shbHeader, inside_pure, and_true]
  split
  · rfl
  · split
    · next isTsb =>
        split
        · next single => simp [isTsb, single]
        · next other => simp [other]
    · next other => simp [other]

theorem inside_processCommonHeader (basicH : BasicHeader) (dataIndication : GNDataIndication)
    (start : dataIndication.data = 4) :
    (GeoNet.processCommonHeader basicH dataIndication).Inside packet size ↔
      12 ≤ size ∧ (basicH.remainingHopLimit ≤ (commonHeaderOf packet).maxHopLimit →
        if (commonHeaderOf packet).headerType = gbc then 56 ≤ size
        else (commonHeaderOf packet).headerType = tsb →
          (commonHeaderOf packet).headerSubType = 0 → 36 ≤ size) := by
  simp only [GeoNet.processCommonHeader, inside_bind, inside_ite, inside_pure,
    inside_commonHeader, inside_processHeaderType, start, ← commonHeaderOf.eq_def]
  by_cases exceeded : (commonHeaderOf packet).maxHopLimit < basicH.remainingHopLimit
  · simp [exceeded, UInt8.not_le.mpr exceeded]
  · simp [exceeded, UInt8.not_lt.mp exceeded]

theorem inside_decodeGN (dataIndication : GNDataIndication) :
    (GeoNet.decodeGN 0 dataIndication).Inside packet size ↔
      4 ≤ size ∧ (BasicAccepts packet → 12 ≤ size ∧ (GNAccepts packet →
        (if (commonHeaderOf packet).headerType = gbc then 56 else 36) ≤ size)) := by
  rcases GeoNet.decodeLT_isSome (basicHeaderOf packet).lifeTime with ⟨seconds, lifeTime⟩
  simp only [GeoNet.decodeGN, inside_bind, inside_ite, inside_pure, inside_basicHeader,
    ← basicHeaderOf.eq_def, lifeTime, inside_processCommonHeader, Nat.zero_add]
  apply and_congr_right
  intro _
  by_cases version : (basicHeaderOf packet).version ≠ GeoNet.gnProtocolVersion ∧
      (basicHeaderOf packet).version ≠ 0
  · have rejected : ¬BasicAccepts packet := fun accepted => by
      rcases accepted.1 with known | zero
      · exact version.1 known
      · exact version.2 zero
    simp [version, rejected]
  · by_cases secured : (basicHeaderOf packet).nextHeader = 2
    · have rejected : ¬BasicAccepts packet := fun accepted => accepted.2 secured
      simp [secured, rejected]
    · have accepted : BasicAccepts packet := ⟨by tauto, secured⟩
      simp only [if_neg version, if_neg secured, accepted, true_implies]
      apply and_congr_right
      intro _
      have accepts : GNAccepts packet ↔
          (basicHeaderOf packet).remainingHopLimit ≤ (commonHeaderOf packet).maxHopLimit ∧
          ((commonHeaderOf packet).headerType = gbc ∨
            ((commonHeaderOf packet).headerType = tsb ∧
              (commonHeaderOf packet).headerSubType = 0)) :=
        (and_iff_right accepted.1).trans (and_iff_right accepted.2)
      rw [accepts]
      by_cases isGbc : (commonHeaderOf packet).headerType = gbc <;> simp [isGbc]

theorem inside_decodeBTP (dataIndication : GNDataIndication)
    (btpDataIndication : BTPDataIndication) :
    (decodeBTP dataIndication btpDataIndication).Inside packet size ↔
      dataIndication.data + 4 ≤ size := by
  simp [decodeBTP, inside_btpHeader]

namespace DecoderFrontend

theorem inside_decodeGeoNet (frontend : DecoderFrontend) (oracle : AsnOracle)
    (locals : DecoderLocals) (decodedData : EtsiDecodedData) :
    (frontend.decodeGeoNet oracle locals decodedData).Inside packet size ↔
      headersEnd packet ≤ size := by
  rcases GeoNet.decodeGN_value packet locals.gndataIndication with ⟨accepted, delivered⟩
  simp only [decodeGeoNet, inside_bind, inside_ite, inside_pure, inside_decodeGN,
    inside_decodeBTP, ite_self, and_true]
  by_cases gn : GNAccepts packet
  · have basic : BasicAccepts packet := ⟨gn.1, gn.2.1⟩
    have ok := accepted.mpr gn
    rw [if_neg (not_not.mpr ok), (delivered ok).1, headersEnd, if_pos basic, if_pos gn,
      btpOffset]
    simp only [basic, gn, true_implies]
    split <;> omega
  · have failed := mt accepted.mp gn
    rw [if_pos failed, headersEnd, if_neg gn]
    by_cases basic : BasicAccepts packet
    · simp only [basic, gn, false_implies, true_implies, and_true, if_true]
      omega
    · simp only [basic, false_implies, and_true, if_false]

/-- How many bytes a message needs to have for its headers, or for its message type if it
is taken for a bare facilities message. -/
def neededBytes (buflen : Nat) (msgtype : MsgType) : Nat :=
  if (detectGeoNet buflen msgtype).value packet then headersEnd packet else 2

theorem inside_decodeFacility (frontend : DecoderFrontend) (oracle : AsnOracle)
    (buflen : Nat) (decodedData : EtsiDecodedData) :
    (frontend.decodeFacility oracle buflen decodedData).Inside packet size ↔ 2 ≤ size := by
  simp only [decodeFacility, inside_bind, inside_ite, inside_readCell, inside_pure, ite_self,
    and_true]
  omega

theorem inside_detectGeoNet (buflen : Nat) (msgtype : MsgType) :
    (detectGeoNet buflen msgtype).Inside packet buflen := by
  cases msgtype with
  | msgtypeIts | msgtypeFacilityonly => exact inside_pure _ _ _
  | msgtypeAuto =>
      simp only [detectGeoNet, inside_ite, inside_bind, inside_readCell, inside_pure, and_true]
      split
      · trivial
      · omega

/-- All bytes that are read before the ASN.1 decoder is called are received ones exactly
if the message has the bytes that its headers need. -/
theorem decodeEtsi_inside_iff (frontend : DecoderFrontend) (oracle : AsnOracle)
    (locals : DecoderLocals) (packet : Nat → UInt8) (buflen : Nat)
    (decodedData : EtsiDecodedData) (msgtype : MsgType) :
    (frontend.decodeEtsi oracle locals buflen decodedData msgtype).Inside packet buflen ↔
      (1 ≤ buflen → neededBytes packet buflen msgtype ≤ buflen) := by
  by_cases empty : buflen ≤ 0
  · have none : ¬1 ≤ buflen := by omega
    simp [decodeEtsi, empty, none]
  · have nonempty : 1 ≤ buflen := by omega
    simp only [decodeEtsi, if_neg empty, inside_bind, inside_ite, inside_decodeGeoNet,
      inside_decodeFacility, inside_detectGeoNet, nonempty, true_and, true_implies,
      neededBytes]
    split
    · rfl
    · rfl

def gbcCamPacket (address : Nat) : UInt8 :=
  match address with
  | 0 => 0x10
  | 3 => 0x01
  | 4 => 0x20
  | 5 => 0x40
  | 10 => 0x01
  | 56 => 0x07
  | 57 => 0xD1
  | _ => 0

/-- Of a GeoBroadcast packet of 44 bytes the area and the ports are read from behind it. -/
theorem decodeEtsi_not_inside_of_gbc :
    ¬(decodeEtsi ⟨false⟩ ⟨fun _ _ => (.rcFail, none)⟩ default 44 default .msgtypeAuto).Inside
      gbcCamPacket 44 := by
  intro inside
  have last := inside 59 (by decide +kernel)
  exact absurd last (by decide)

end DecoderFrontend

end AIM.Decoder
