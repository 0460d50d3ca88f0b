import AIM.Decoder.Encoding

namespace AIM.Decoder

open LoggedReader ByteOrder

/-! # Header round trip

Decoding the reference encoding of a packet. Each header class reads back what its
part of the encoding holds, except for the speed. -/

/-! ## Words -/

theorem memcpy16_toNat (low high : UInt8) :
    (low.toUInt16 ||| high.toUInt16 <<< 8).toNat = high.toNat * 2 ^ 8 + low.toNat := by
  have highBound := high.toNat_lt
  have shifted : (high.toUInt16 <<< 8).toNat = high.toNat <<< 8 := by
    rw [UInt16.toNat_shiftLeft, UInt8.toNat_toUInt16]
    change high.toNat <<< 8 % 2 ^ 16 = _
    rw [Nat.shiftLeft_eq]
    omega
  rw [UInt16.toNat_or, shifted, UInt8.toNat_toUInt16, or_shiftLeft_of_lt low.toNat_lt]

theorem swap16bit_toNat (us : UInt16) :
    (swap16bit us).toNat = us.toNat % 2 ^ 8 * 2 ^ 8 + us.toNat / 2 ^ 8 := by
  have bound := us.toNat_lt
  have high := and_byte us.toNat 8
  have low := and_byte us.toNat 0
  simp only [swap16bit, UInt16.toNat_or, UInt16.toNat_shiftLeft, UInt16.toNat_shiftRight,
    UInt16.toNat_and]
  change (us.toNat &&& 0xFF <<< 8) >>> 8 ||| (us.toNat &&& 0xFF <<< 0) <<< 8 % 2 ^ 16 = _
  have first : (us.toNat / 2 ^ 8 % 2 ^ 8 * 2 ^ 8) >>> 8 = us.toNat / 2 ^ 8 := by
    rw [Nat.shiftRight_eq_div_pow]
    omega
  have second : (us.toNat / 2 ^ 0 % 2 ^ 8 * 2 ^ 0) <<< 8 % 2 ^ 16 =
      (us.toNat % 2 ^ 8) <<< 8 := by
    rw [Nat.shiftLeft_eq, Nat.shiftLeft_eq]
    omega
  rw [high, low, first, second, or_shiftLeft_of_lt (by omega)]

theorem swap32bit_toNat (ul : UInt32) :
    (swap32bit ul).toNat = ul.toNat % 2 ^ 8 * 2 ^ 24 + ul.toNat / 2 ^ 8 % 2 ^ 8 * 2 ^ 16 +
      ul.toNat / 2 ^ 16 % 2 ^ 8 * 2 ^ 8 + ul.toNat / 2 ^ 24 := by
  have bound := ul.toNat_lt
  simp only [swap32bit, UInt32.toNat_or, UInt32.toNat_shiftLeft, UInt32.toNat_shiftRight,
    UInt32.toNat_and]
  change (ul.toNat &&& 0xFF <<< 24) >>> 24 ||| (ul.toNat &&& 0xFF <<< 16) >>> 8 |||
    (ul.toNat &&& 0xFF <<< 8) <<< 8 % 2 ^ 32 ||| (ul.toNat &&& 0xFF <<< 0) <<< 24 % 2 ^ 32 = _
  rw [and_byte, and_byte, and_byte, and_byte]
  generalize ul.toNat = value at *
  have first : (value / 2 ^ 24 % 2 ^ 8 * 2 ^ 24) >>> 24 = value / 2 ^ 24 := by
    rw [Nat.shiftRight_eq_div_pow]
    omega
  have second : (value / 2 ^ 16 % 2 ^ 8 * 2 ^ 16) >>> 8 = (value / 2 ^ 16 % 2 ^ 8) <<< 8 := by
    rw [Nat.shiftRight_eq_div_pow, Nat.shiftLeft_eq]
    omega
  have third : (value / 2 ^ 8 % 2 ^ 8 * 2 ^ 8) <<< 8 % 2 ^ 32 =
      (value / 2 ^ 8 % 2 ^ 8) <<< 16 := by
    rw [Nat.shiftLeft_eq, Nat.shiftLeft_eq]
    omega
  have fourth : (value / 2 ^ 0 % 2 ^ 8 * 2 ^ 0) <<< 24 % 2 ^ 32 = (value % 2 ^ 8) <<< 24 := by
    rw [Nat.shiftLeft_eq, Nat.shiftLeft_eq]
    omega
  rw [first, second, third, fourth, or_bytes (by omega) (by omega) (by omega)]

theorem memcpy32_toNat (first second third fourth : UInt8) :
    (first.toUInt32 ||| second.toUInt32 <<< 8 ||| third.toUInt32 <<< 16 |||
      fourth.toUInt32 <<< 24).toNat =
      fourth.toNat * 2 ^ 24 + third.toNat * 2 ^ 16 + second.toNat * 2 ^ 8 + first.toNat := by
  have secondBound := second.toNat_lt
  have thirdBound := third.toNat_lt
  have fourthBound := fourth.toNat_lt
  simp only [UInt32.toNat_or, UInt32.toNat_shiftLeft, UInt8.toNat_toUInt32]
  change first.toNat ||| second.toNat <<< 8 % 2 ^ 32 ||| third.toNat <<< 16 % 2 ^ 32 |||
    fourth.toNat <<< 24 % 2 ^ 32 = _
  have two : second.toNat <<< 8 % 2 ^ 32 = second.toNat <<< 8 := by
    rw [Nat.shiftLeft_eq]
    omega
  have three : third.toNat <<< 16 % 2 ^ 32 = third.toNat <<< 16 := by
    rw [Nat.shiftLeft_eq]
    omega
  have four : fourth.toNat <<< 24 % 2 ^ 32 = fourth.toNat <<< 24 := by
    rw [Nat.shiftLeft_eq]
    omega
  rw [two, three, four]
  exact or_bytes first.toNat_lt secondBound thirdBound _

/-! The bytes of a word in network order, copied and swapped, make up the word. -/

theorem swap16bit_encode16 {first second : UInt8} {word : UInt16}
    (bytes : [first, second] = encode16 word) :
    swap16bit (first.toUInt16 ||| second.toUInt16 <<< 8) = word := by
  have values := encode16_toNat word
  rw [← bytes] at values
  simp only [List.map_cons, List.map_nil, List.cons.injEq] at values
  apply UInt16.toNat_inj.mp
  rw [swap16bit_toNat, memcpy16_toNat]
  have bound := word.toNat_lt
  omega

theorem swap32bit_encode32 {first second third fourth : UInt8} {word : UInt32}
    (bytes : [first, second, third, fourth] = encode32 word) :
    swap32bit (first.toUInt32 ||| second.toUInt32 <<< 8 ||| third.toUInt32 <<< 16 |||
      fourth.toUInt32 <<< 24) = word := by
  have values := encode32_toNat word
  rw [← bytes] at values
  simp only [List.map_cons, List.map_nil, List.cons.injEq] at values
  apply UInt32.toNat_inj.mp
  rw [swap32bit_toNat, memcpy32_toNat]
  rcases digits_of_bytes first.toNat_lt second.toNat_lt third.toNat_lt rfl with
    ⟨lowest, lower, higher, highest⟩
  rw [lowest, lower, higher, highest, values.1, values.2.1, values.2.2.1, values.2.2.2.1]
  exact bytes_of_digits word.toNat

/-! ## Parts of bytes and words -/

theorem ofNibble_toNat (half : BitVec 4) : (ofNibble half).toNat = half.toNat := by
  change (half.setWidth 8).toNat = _
  rw [BitVec.toNat_setWidth]
  have bound := half.isLt
  omega

theorem nibbles_shiftRight (high low : BitVec 4) : nibbles high low >>> 4 = ofNibble high := by
  apply UInt8.toNat_inj.mp
  rw [UInt8.toNat_shiftRight, ofNibble_toNat]
  change (high ++ low).toNat >>> 4 = _
  have bound := low.isLt
  rw [append_toNat, Nat.shiftRight_eq_div_pow]
  omega

theorem nibbles_and (high low : BitVec 4) : nibbles high low &&& 0x0f = ofNibble low := by
  apply UInt8.toNat_inj.mp
  rw [UInt8.toNat_and, ofNibble_toNat]
  change (high ++ low).toNat &&& 2 ^ 4 - 1 = _
  have bound := low.isLt
  rw [append_toNat, Nat.and_two_pow_sub_one_eq_mod]
  omega

theorem lifetime_multiplier (lifetime : Lifetime) :
    ((lifetime.encode &&& 0xFC) >>> 2).toNat = lifetime.multiplier.toNat := by
  rw [UInt8.toNat_shiftRight, UInt8.toNat_and]
  change ((lifetime.multiplier ++ lifetime.base.code).toNat &&& 0xFC) >>> 2 = _
  rw [append_toNat, Nat.shiftRight_and_distrib, Nat.shiftRight_eq_div_pow]
  change _ &&& 2 ^ 6 - 1 = _
  have bound := lifetime.multiplier.isLt
  have low := lifetime.base.code.isLt
  rw [Nat.and_two_pow_sub_one_eq_mod]
  omega

theorem lifetime_base (lifetime : Lifetime) :
    lifetime.encode &&& 0x03 = ⟨lifetime.base.code.setWidth 8⟩ := by
  apply UInt8.toNat_inj.mp
  rw [UInt8.toNat_and]
  change (lifetime.multiplier ++ lifetime.base.code).toNat &&& 2 ^ 2 - 1 =
    (lifetime.base.code.setWidth 8).toNat
  have low := lifetime.base.code.isLt
  rw [append_toNat, Nat.and_two_pow_sub_one_eq_mod, BitVec.toNat_setWidth]
  omega

theorem decodeLT_encode (lifetime : Lifetime) :
    GeoNet.decodeLT lifetime.encode = some lifetime.seconds := by
  have base := lifetime_base lifetime
  have multiplier := lifetime_multiplier lifetime
  unfold GeoNet.decodeLT Lifetime.seconds
  rcases lifetime with ⟨_, code⟩
  cases code <;> simp [base, multiplier, LifetimeBase.code, LifetimeBase.seconds]

theorem paiSpeed_toNat (positionAccuracy : Bool) (speed : BitVec 15) :
    (paiSpeed positionAccuracy speed).toNat =
      positionAccuracy.toNat * 2 ^ 15 + speed.toNat := by
  change (BitVec.ofBool positionAccuracy ++ speed).toNat = _
  rw [append_toNat, BitVec.toNat_ofBool]

theorem paiSpeed_shiftRight (positionAccuracy : Bool) (speed : BitVec 15) :
    (paiSpeed positionAccuracy speed >>> 15 != 0) = positionAccuracy := by
  have value : (paiSpeed positionAccuracy speed >>> 15).toNat = positionAccuracy.toNat := by
    rw [UInt16.toNat_shiftRight, paiSpeed_toNat]
    change (positionAccuracy.toNat * 2 ^ 15 + speed.toNat) >>> 15 = _
    have bound := speed.isLt
    rw [Nat.shiftRight_eq_div_pow]
    omega
  cases positionAccuracy with
  | false =>
      have zero : paiSpeed false speed >>> 15 = 0 := UInt16.toNat_inj.mp value
      rw [zero]
      rfl
  | true =>
      apply bne_iff_ne.mpr
      intro zero
      rw [zero] at value
      cases value

/-- The mask of the decoder keeps seven bits of the speed. -/
theorem paiSpeed_and (positionAccuracy : Bool) (speed : BitVec 15) :
    (paiSpeed positionAccuracy speed &&& 0x7f).toBitVec.setWidth 15 = speed &&& 0x7f := by
  apply BitVec.eq_of_toNat_eq
  rw [BitVec.toNat_setWidth, BitVec.toNat_and]
  change (paiSpeed positionAccuracy speed &&& 0x7f).toNat % 2 ^ 15 = _
  rw [UInt16.toNat_and, paiSpeed_toNat]
  change (positionAccuracy.toNat * 2 ^ 15 + speed.toNat &&& 2 ^ 7 - 1) % 2 ^ 15 =
    speed.toNat &&& 2 ^ 7 - 1
  rw [Nat.and_two_pow_sub_one_eq_mod, Nat.and_two_pow_sub_one_eq_mod]
  omega

theorem speed_and_eq_iff (speed : BitVec 15) :
    speed &&& 0x7f = speed ↔ speed.toNat < 128 := by
  rw [BitVec.toNat_eq, BitVec.toNat_and]
  change speed.toNat &&& 2 ^ 7 - 1 = _ ↔ _
  rw [Nat.and_two_pow_sub_one_eq_mod]
  omega

/-! ## Headers in memory -/

variable {memory : Nat → UInt8} {address : Nat}

theorem read16_of_holds {word : UInt16} (holds : Holds memory address (encode16 word)) :
    (read16 address).value memory = word := by
  rcases holds with ⟨first, second, _⟩
  have bytes : [memory address, memory (address + 1)] = encode16 word := by
    rw [first, second, encode16]
  exact swap16bit_encode16 bytes

theorem read32_of_holds {word : UInt32} (holds : Holds memory address (encode32 word)) :
    (read32 address).value memory = word := by
  rcases holds with ⟨first, second, third, fourth, _⟩
  have bytes : [memory address, memory (address + 1), memory (address + 1 + 1),
      memory (address + 1 + 1 + 1)] = encode32 word := by
    rw [first, second, third, fourth, encode32]
  exact swap32bit_encode32 bytes

theorem basicHeader_of_holds {packet : GnPacket}
    (holds : Holds memory address packet.encodeBasic) :
    (BasicHeader.removeHeader address).value memory = {
      version := ofNibble packet.version
      nextHeader := ofNibble packet.nextHeader
      reserved := packet.reserved
      lifeTime := packet.lifetime.encode
      remainingHopLimit := packet.remainingHopLimit } := by
  simp only [GnPacket.encodeBasic, Holds, Nat.add_assoc, Nat.reduceAdd] at holds
  rcases holds with ⟨versionNH, reserved, lifeTime, hopLimit, _⟩
  simp only [BasicHeader.removeHeader, value_bind, value_readCell, value_pure, versionNH,
    reserved, lifeTime, hopLimit, nibbles_shiftRight, nibbles_and]

theorem commonHeader_value (buffer : Nat) (memory : Nat → UInt8) :
    (CommonHeader.removeHeader buffer).value memory = {
      nextHeader := memory buffer >>> 4
      headerType := memory (buffer + 1) >>> 4
      headerSubType := memory (buffer + 1) &&& 0x0f
      trafficClass := memory (buffer + 2)
      flag := memory (buffer + 3) >>> 7 != 0
      payload := (read16 (buffer + 4)).value memory
      maxHopLimit := memory (buffer + 6)
      reserved := memory (buffer + 7) } := rfl

theorem commonHeader_of_holds {packet : GnPacket}
    (holds : Holds memory address packet.encodeCommon) :
    (CommonHeader.removeHeader address).value memory = {
      nextHeader := ofNibble packet.transport.code
      headerType := ofNibble packet.extended.headerType
      headerSubType := ofNibble packet.extended.headerSubType
      trafficClass := packet.trafficClass
      flag := packet.flags >>> 7 != 0
      payload := .ofNat (packet.payload.length + 4)
      maxHopLimit := packet.maxHopLimit
      reserved := packet.commonReservedEnd } := by
  simp only [GnPacket.encodeCommon, holds_append, Holds, List.length_cons, List.length_nil,
    length_encode16, Nat.add_assoc, Nat.reduceAdd] at holds
  rcases holds with ⟨⟨chNH, headerType, trafficClass, flags, _⟩, length, maxHopLimit,
    reserved, _⟩
  have payload := read16_of_holds length
  rw [commonHeader_value, chNH, headerType, trafficClass, flags, payload, maxHopLimit,
    reserved, nibbles_shiftRight, nibbles_shiftRight, nibbles_and]

theorem longPositionVector_value (buffer : Nat) (memory : Nat → UInt8) :
    (LongPositionVector.remove buffer).value memory = {
      gnAddress := (readBlock buffer 8).value memory
      tst := (read32 (buffer + 8)).value memory
      latitude := ((read32 (buffer + 12)).value memory).toInt32
      longitude := ((read32 (buffer + 16)).value memory).toInt32
      positionAccuracy := (read16 (buffer + 20)).value memory >>> 15 != 0
      speed := ((read16 (buffer + 20)).value memory &&& 0x7f).toBitVec.setWidth 15
      heading := (read16 (buffer + 22)).value memory } := rfl

theorem longPositionVector_of_holds {vector : LongPositionVector}
    (holds : Holds memory address vector.encode) :
    (LongPositionVector.remove address).value memory =
      { vector with speed := vector.speed &&& 0x7f } := by
  simp only [LongPositionVector.encode, holds_append, List.length_ofFn, length_encode16,
    length_encode32, Nat.add_assoc, Nat.reduceAdd] at holds
  rcases holds with ⟨gnAddress, tst, latitude, longitude, speed, heading⟩
  have gnAddressRead := value_readBlock_of_holds gnAddress
  have tstRead := read32_of_holds tst
  have latitudeRead := read32_of_holds latitude
  have longitudeRead := read32_of_holds longitude
  have speedRead := read16_of_holds speed
  have headingRead := read16_of_holds heading
  rw [longPositionVector_value, gnAddressRead, tstRead, latitudeRead, longitudeRead,
    speedRead, headingRead, Int32.toInt32_toUInt32, Int32.toInt32_toUInt32,
    paiSpeed_shiftRight, paiSpeed_and]

def LongPositionVector.masked (vector : LongPositionVector) : LongPositionVector :=
  { vector with speed := vector.speed &&& 0x7f }

theorem masked_eq_iff (vector : LongPositionVector) :
    vector.masked = vector ↔ vector.speed.toNat < 128 := by
  rw [← speed_and_eq_iff]
  constructor
  · intro same
    exact congrArg LongPositionVector.speed same
  · intro same
    rw [LongPositionVector.masked, same]

def DestinationArea.toGeoArea (area : DestinationArea) : GeoArea where
  posLong := area.posLong
  posLat := area.posLat
  distA := area.distA
  distB := area.distB
  angle := area.angle
  shape := ofNibble area.shape

theorem gbcHeader_value (buffer : Nat) (shape : UInt8) (memory : Nat → UInt8) :
    ((GbcHeader.removeHeader buffer).value memory).sourcePV =
        (LongPositionVector.remove (buffer + 4)).value memory ∧
      ((GbcHeader.removeHeader buffer).value memory).getGeoArea shape = {
        posLong := ((read32 (buffer + 32)).value memory).toInt32
        posLat := ((read32 (buffer + 28)).value memory).toInt32
        distA := (read16 (buffer + 36)).value memory
        distB := (read16 (buffer + 38)).value memory
        angle := (read16 (buffer + 40)).value memory
        shape := shape } :=
  ⟨rfl, rfl⟩

theorem length_encode (vector : LongPositionVector) : vector.encode.length = 24 := by
  simp [LongPositionVector.encode]

theorem gbcHeader_of_holds {seqNumber reserved reservedEnd : UInt16}
    {sourcePV : LongPositionVector} {area : DestinationArea}
    (holds : Holds memory address
      (ExtendedHeader.gbc seqNumber reserved sourcePV area reservedEnd).encode) :
    ((GbcHeader.removeHeader address).value memory).sourcePV = sourcePV.masked ∧
      ((GbcHeader.removeHeader address).value memory).getGeoArea (ofNibble area.shape) =
        area.toGeoArea := by
  simp only [ExtendedHeader.encode, holds_append, length_encode, length_encode16,
    length_encode32, Nat.add_assoc, Nat.reduceAdd] at holds
  rcases holds with ⟨_, _, vector, posLat, posLong, distA, distB, angle, _⟩
  rcases gbcHeader_value address (ofNibble area.shape) memory with ⟨sourceRead, areaRead⟩
  constructor
  · rw [sourceRead]
    exact longPositionVector_of_holds vector
  · rw [areaRead, read32_of_holds posLat, read32_of_holds posLong, read16_of_holds distA,
      read16_of_holds distB, read16_of_holds angle, Int32.toInt32_toUInt32,
      Int32.toInt32_toUInt32]
    rfl

/-! ## Decoding -/

def ExtendedHeader.deliver (dataIndication : GNDataIndication) :
    ExtendedHeader → GNDataIndication
  | .shb sourcePV _ => { dataIndication with
      data := dataIndication.data + 28
      sourcePV := sourcePV.masked
      gnType := tsb }
  | .gbc _ _ sourcePV area _ => { dataIndication with
      data := dataIndication.data + 44
      sourcePV := sourcePV.masked
      gnAddressDest := area.toGeoArea
      gnType := Decoder.gbc }

theorem processHeaderType_of_holds {extended : ExtendedHeader} {commonH : CommonHeader}
    {dataIndication : GNDataIndication}
    (holds : Holds memory dataIndication.data extended.encode)
    (headerType : dataIndication.gnType = ofNibble extended.headerType)
    (headerSubType : commonH.headerSubType = ofNibble extended.headerSubType) :
    (GeoNet.processHeaderType commonH dataIndication).value memory =
      (.gnOk, extended.deliver dataIndication) := by
  cases extended with
  | shb sourcePV reserved =>
      rw [ExtendedHeader.encode, holds_append] at holds
      have vector := longPositionVector_of_holds holds.1
      have isTsb : dataIndication.gnType = tsb := headerType
      have single : commonH.headerSubType = 0 := headerSubType
      have different : ¬dataIndication.gnType = gbc := by
        rw [isTsb]
        decide
      rw [GeoNet.processHeaderType, if_neg different, if_pos isTsb, if_pos single]
      change (GnError.gnOk, _) = _
      rw [ExtendedHeader.deliver, LongPositionVector.masked, ← vector]
      rfl
  | gbc seqNumber reserved sourcePV area reservedEnd =>
      rcases gbcHeader_of_holds holds with ⟨vector, geoArea⟩
      have isGbc : dataIndication.gnType = gbc := headerType
      rw [GeoNet.processHeaderType, if_pos isGbc, headerSubType]
      change (GnError.gnOk, _) = _
      rw [ExtendedHeader.deliver, ← vector, ← geoArea]
      rfl

def GnPacket.gnDelivered (packet : GnPacket) (dataIndication : GNDataIndication) :
    GNDataIndication :=
  packet.extended.deliver { dataIndication with
    data := 12
    gnRemainingLife := packet.lifetime.seconds
    gnRemainingHL := packet.remainingHopLimit.toUInt16.toInt16
    upperProtocol := ofNibble packet.transport.code
    gnTraClass := packet.trafficClass
    gnType := ofNibble packet.extended.headerType
    lenght := (UInt16.ofNat (packet.payload.length + 4)).toUInt32 }

theorem processCommonHeader_of_holds {packet : GnPacket} {basicH : BasicHeader}
    {dataIndication : GNDataIndication}
    (common : Holds memory dataIndication.data packet.encodeCommon)
    (extended : Holds memory (dataIndication.data + 8) packet.extended.encode)
    (hopLimit : basicH.remainingHopLimit = packet.remainingHopLimit) :
    (GeoNet.processCommonHeader basicH dataIndication).value memory =
      (.gnOk, packet.extended.deliver { dataIndication with
        data := dataIndication.data + 8
        upperProtocol := ofNibble packet.transport.code
        gnTraClass := packet.trafficClass
        gnType := ofNibble packet.extended.headerType
        lenght := (UInt16.ofNat (packet.payload.length + 4)).toUInt32 }) := by
  have within : ¬packet.maxHopLimit < basicH.remainingHopLimit := by
    rw [hopLimit]
    exact UInt8.not_lt.mpr packet.hopLimits
  simp only [GeoNet.processCommonHeader, value_bind, commonHeader_of_holds common, if_neg within]
  apply processHeaderType_of_holds
  · exact extended
  · rfl
  · rfl

theorem decodeGN_of_holds {packet : GnPacket} (holds : Holds memory 0 packet.encode)
    (dataIndication : GNDataIndication) :
    (GeoNet.decodeGN 0 dataIndication).value memory =
      (.gnOk, packet.gnDelivered dataIndication) := by
  rw [GnPacket.encode, holds_append, holds_append, holds_append] at holds
  rcases holds with ⟨basic, common, extended, _⟩
  have version : ¬(ofNibble packet.version ≠ GeoNet.gnProtocolVersion ∧
      ofNibble packet.version ≠ 0) := by
    rcases packet.versionSupported with version | version <;> rw [version] <;> decide
  have unsecured : ¬ofNibble packet.nextHeader = 2 := by
    rcases packet.unsecured with nextHeader | nextHeader <;> rw [nextHeader] <;> decide
  simp only [GeoNet.decodeGN, value_bind, basicHeader_of_holds basic, if_neg version,
    if_neg unsecured, decodeLT_encode]
  exact processCommonHeader_of_holds common extended rfl

/-! ## BTP -/

def GnPacket.btpDelivered (packet : GnPacket) (dataIndication : GNDataIndication) :
    BTPDataIndication where
  btpType := dataIndication.upperProtocol
  destPort := packet.destinationPort
  sourcePort := match packet.transport with
    | .btpA sourcePort => sourcePort
    | .btpB _ => 0
  destPInfo := match packet.transport with
    | .btpA _ => 0
    | .btpB destPortInfo => destPortInfo
  gnAddress := dataIndication.gnAddressDest
  gnPositionV := dataIndication.sourcePV
  gnTraClass := dataIndication.gnTraClass
  gnRemPLife := dataIndication.gnRemainingLife
  lenght := dataIndication.lenght - 4
  data := dataIndication.data + 4

theorem decodeBTP_of_holds {packet : GnPacket} {dataIndication : GNDataIndication}
    (holds : Holds memory dataIndication.data packet.encodeBtp)
    (protocol : dataIndication.upperProtocol = ofNibble packet.transport.code)
    (btpDataIndication : BTPDataIndication) :
    (decodeBTP dataIndication btpDataIndication).value memory =
      (.btpOk, packet.btpDelivered dataIndication) := by
  simp only [GnPacket.encodeBtp, holds_append, length_encode16] at holds
  have header : (BtpHeader.removeHeader dataIndication.data).value memory =
      ⟨packet.destinationPort, packet.transport.sourceDestInfo⟩ := by
    change BtpHeader.mk ((read16 dataIndication.data).value memory)
      ((read16 (dataIndication.data + 2)).value memory) = _
    rw [read16_of_holds holds.1, read16_of_holds holds.2]
  have supported : ¬(packet.destinationPort ≠ caPort ∧ packet.destinationPort ≠ denPort) := by
    intro unsupported
    rcases packet.portSupported with port | port
    · exact unsupported.1 port
    · exact unsupported.2 port
  simp only [decodeBTP, value_bind, header, if_neg supported]
  unfold GnPacket.btpDelivered
  cases transport : packet.transport with
  | btpA sourcePort =>
      have isBtpA : dataIndication.upperProtocol = btpA := by
        rw [protocol, transport]
        rfl
      rw [if_pos isBtpA]
      rfl
  | btpB destPortInfo =>
      have isBtpB : dataIndication.upperProtocol = btpB := by
        rw [protocol, transport]
        rfl
      have different : ¬dataIndication.upperProtocol = btpA := by
        rw [isBtpB]
        decide
      rw [if_neg different, if_pos isBtpB]
      rfl

/-! ## Whole packets -/

/-- The memory of the receiver after a packet: its bytes, and whatever was there behind
them. -/
def GnPacket.received (packet : GnPacket) (behind : Nat → UInt8) : Nat → UInt8 :=
  memoryOf packet.encode behind

def decodeHeaders (packet : Nat → UInt8) (gnDataIndication : GNDataIndication)
    (btpDataIndication : BTPDataIndication) : GnError × BtpError × BTPDataIndication :=
  let gn := (GeoNet.decodeGN 0 gnDataIndication).value packet
  let btp := (decodeBTP gn.2 btpDataIndication).value packet
  (gn.1, btp)

/-- The data indication holds the fields of the packet and points to its payload. -/
structure GnPacket.Recovered (packet : GnPacket) (memory : Nat → UInt8)
    (indication : BTPDataIndication) : Prop where
  positionVector : indication.gnPositionV = packet.extended.sourcePV
  trafficClass : indication.gnTraClass = packet.trafficClass
  remainingLife : indication.gnRemPLife = packet.lifetime.seconds
  btpType : indication.btpType = ofNibble packet.transport.code
  destPort : indication.destPort = packet.destinationPort
  portInfo : match packet.transport with
    | .btpA sourcePort => indication.sourcePort = sourcePort
    | .btpB destPortInfo => indication.destPInfo = destPortInfo
  area : match packet.extended with
    | .shb _ _ => True
    | .gbc _ _ _ area _ => indication.gnAddress = area.toGeoArea
  length : indication.lenght.toNat = packet.payload.length
  payload : ∀ index (inside : index < packet.payload.length),
    memory (indication.data + index) = packet.payload[index]

def GnPacket.RoundTrips (packet : GnPacket) (behind : Nat → UInt8)
    (gnDataIndication : GNDataIndication) (btpDataIndication : BTPDataIndication) : Prop :=
  let memory := packet.received behind
  let decoded := decodeHeaders memory gnDataIndication btpDataIndication
  decoded.1 = .gnOk ∧ decoded.2.1 = .btpOk ∧ packet.Recovered memory decoded.2.2

variable (packet : GnPacket) (behind : Nat → UInt8) (gnDataIndication : GNDataIndication)
  (btpDataIndication : BTPDataIndication)

theorem gnDelivered_data :
    (packet.gnDelivered gnDataIndication).data = 12 + packet.extended.encode.length := by
  unfold GnPacket.gnDelivered
  cases packet.extended <;> simp [ExtendedHeader.deliver, ExtendedHeader.encode, length_encode]

theorem gnDelivered_upperProtocol :
    (packet.gnDelivered gnDataIndication).upperProtocol = ofNibble packet.transport.code := by
  unfold GnPacket.gnDelivered
  cases packet.extended <;> rfl

theorem gnDelivered_lenght :
    (packet.gnDelivered gnDataIndication).lenght =
      (UInt16.ofNat (packet.payload.length + 4)).toUInt32 := by
  unfold GnPacket.gnDelivered
  cases packet.extended <;> rfl

theorem gnDelivered_sourcePV :
    (packet.gnDelivered gnDataIndication).sourcePV = packet.extended.sourcePV.masked := by
  unfold GnPacket.gnDelivered
  cases packet.extended <;> rfl

theorem received_holds :
    Holds (packet.received behind) 0 packet.encode ∧
      Holds (packet.received behind) (12 + packet.extended.encode.length) packet.encodeBtp ∧
      Holds (packet.received behind) (12 + packet.extended.encode.length + 4)
        packet.payload := by
  have whole := holds_memoryOf packet.encode behind
  have parts := whole
  rw [GnPacket.encode, holds_append, holds_append, holds_append, holds_append] at parts
  rcases parts with ⟨_, _, _, btp, payload⟩
  have start : 0 + packet.encodeBasic.length + packet.encodeCommon.length = 12 := rfl
  have btpLength : packet.encodeBtp.length = 4 := rfl
  rw [start] at btp payload
  rw [btpLength] at payload
  exact ⟨whole, btp, payload⟩

theorem decodeHeaders_received :
    decodeHeaders (packet.received behind) gnDataIndication btpDataIndication =
      (.gnOk, .btpOk, packet.btpDelivered (packet.gnDelivered gnDataIndication)) := by
  rcases received_holds packet behind with ⟨whole, btp, _⟩
  have protocol := gnDelivered_upperProtocol packet gnDataIndication
  rw [← gnDelivered_data packet gnDataIndication] at btp
  rw [decodeHeaders, decodeGN_of_holds whole gnDataIndication,
    decodeBTP_of_holds btp protocol btpDataIndication]

theorem lenght_toNat :
    ((UInt16.ofNat (packet.payload.length + 4)).toUInt32 - 4).toNat =
      packet.payload.length := by
  have fits := packet.fits
  have word : (UInt16.ofNat (packet.payload.length + 4)).toUInt32.toNat =
      packet.payload.length + 4 := by
    rw [UInt16.toNat_toUInt32]
    exact UInt16.toNat_ofNat_of_lt fits
  have noBorrow : (4 : UInt32) ≤ (UInt16.ofNat (packet.payload.length + 4)).toUInt32 := by
    rw [UInt32.le_iff_toNat_le, word]
    exact Nat.le_add_left 4 _
  rw [UInt32.toNat_sub_of_le _ _ noBorrow, word]
  rfl

theorem recovered_iff_masked :
    packet.Recovered (packet.received behind)
        (packet.btpDelivered (packet.gnDelivered gnDataIndication)) ↔
      packet.extended.sourcePV.masked = packet.extended.sourcePV := by
  constructor
  · intro recovered
    rw [← gnDelivered_sourcePV packet gnDataIndication]
    exact recovered.positionVector
  · intro same
    rcases received_holds packet behind with ⟨_, _, payload⟩
    constructor
    case positionVector =>
      exact (gnDelivered_sourcePV packet gnDataIndication).trans same
    case trafficClass =>
      unfold GnPacket.btpDelivered GnPacket.gnDelivered
      cases packet.extended <;> rfl
    case remainingLife =>
      unfold GnPacket.btpDelivered GnPacket.gnDelivered
      cases packet.extended <;> rfl
    case btpType => exact gnDelivered_upperProtocol packet gnDataIndication
    case destPort => rfl
    case portInfo =>
      unfold GnPacket.btpDelivered
      cases packet.transport <;> rfl
    case area =>
      unfold GnPacket.btpDelivered GnPacket.gnDelivered
      cases packet.extended with
      | shb _ _ => trivial
      | gbc _ _ _ _ _ => rfl
    case length =>
      change ((packet.gnDelivered gnDataIndication).lenght - 4).toNat = _
      rw [gnDelivered_lenght, lenght_toNat]
    case payload =>
      intro index inside
      change packet.received behind ((packet.gnDelivered gnDataIndication).data + 4 + index) = _
      rw [gnDelivered_data]
      exact payload.get inside

/-- A packet survives encoding and decoding exactly when its speed fits the seven bits
that the decoder keeps. -/
theorem GnPacket.roundTrips_iff :
    packet.RoundTrips behind gnDataIndication btpDataIndication ↔
      packet.extended.sourcePV.speed.toNat < 128 := by
  have decoded := decodeHeaders_received packet behind gnDataIndication btpDataIndication
  have fields := recovered_iff_masked packet behind gnDataIndication
  rw [← masked_eq_iff, ← fields, GnPacket.RoundTrips, decoded]
  constructor
  · intro roundTrips
    exact roundTrips.2.2
  · intro recovered
    exact ⟨rfl, rfl, recovered⟩

/-- A vehicle at 20 m/s, with its CAM in a single-hop broadcast. -/
def fastPacket : GnPacket where
  version := 1
  versionSupported := .inr rfl
  nextHeader := 1
  unsecured := .inr rfl
  reserved := 0
  lifetime := ⟨1, .oneSecond⟩
  remainingHopLimit := 1
  transport := .btpB 0
  commonReserved := 0
  trafficClass := 2
  flags := 0x80
  maxHopLimit := 1
  hopLimits := UInt8.le_refl 1
  commonReservedEnd := 0
  extended := .shb {
    gnAddress := fun _ => 0x11
    tst := 1000
    latitude := 450000000
    longitude := 76000000
    positionAccuracy := true
    speed := 2000
    heading := 900 } 0
  destinationPort := 2001
  portSupported := .inl rfl
  payload := [0x02, 0x02]
  fits := by decide

/-- Its speed comes back as 0.8 m/s. -/
example : fastPacket.extended.sourcePV.masked.speed = 80 := by decide

theorem not_roundTrips_fastPacket :
    ¬∀ (packet : GnPacket) (behind : Nat → UInt8) (gnDataIndication : GNDataIndication)
      (btpDataIndication : BTPDataIndication),
      packet.RoundTrips behind gnDataIndication btpDataIndication := by
  intro always
  have decoded := (always fastPacket (fun _ => 0) default default).2.2.positionVector
  have speed := congrArg LongPositionVector.speed decoded
  exact absurd speed (by decide +kernel)

end AIM.Decoder
