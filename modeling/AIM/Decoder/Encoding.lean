import AIM.Decoder.GeoNet
import AIM.Foundation.ByteOrder

namespace AIM.Decoder

open ByteOrder

/-! # Reference encoding

Packets as records of field values, and the bytes that stand for them in network
order. Nothing here is taken from the decoder. -/

def nibbles (high low : BitVec 4) : UInt8 := ⟨high ++ low⟩

def ofNibble (half : BitVec 4) : UInt8 := ⟨half.setWidth 8⟩

/-! ## Fields -/

inductive LifetimeBase
  | fiftyMilliseconds
  | oneSecond
  | tenSeconds
  | hundredSeconds
  deriving DecidableEq, Repr

def LifetimeBase.code : LifetimeBase → BitVec 2
  | .fiftyMilliseconds => 0
  | .oneSecond => 1
  | .tenSeconds => 2
  | .hundredSeconds => 3

def LifetimeBase.seconds : LifetimeBase → ℚ
  | .fiftyMilliseconds => 1 / 20
  | .oneSecond => 1
  | .tenSeconds => 10
  | .hundredSeconds => 100

structure Lifetime where
  multiplier : BitVec 6
  base : LifetimeBase

def Lifetime.encode (lifetime : Lifetime) : UInt8 :=
  ⟨lifetime.multiplier ++ lifetime.base.code⟩

def Lifetime.seconds (lifetime : Lifetime) : ℚ :=
  lifetime.multiplier.toNat * lifetime.base.seconds

/-- The position accuracy bit and the speed share a word. -/
def paiSpeed (positionAccuracy : Bool) (speed : BitVec 15) : UInt16 :=
  ⟨BitVec.ofBool positionAccuracy ++ speed⟩

def LongPositionVector.encode (vector : LongPositionVector) : List UInt8 :=
  List.ofFn vector.gnAddress ++ (encode32 vector.tst ++
    (encode32 vector.latitude.toUInt32 ++ (encode32 vector.longitude.toUInt32 ++
      (encode16 (paiSpeed vector.positionAccuracy vector.speed) ++
        encode16 vector.heading))))

/-- The destination area of a GeoBroadcast; the shape is the header subtype. -/
structure DestinationArea where
  posLat : Int32
  posLong : Int32
  distA : UInt16
  distB : UInt16
  angle : UInt16
  shape : BitVec 4

inductive ExtendedHeader
  | shb (sourcePV : LongPositionVector) (reserved : UInt32)
  | gbc (seqNumber reserved : UInt16) (sourcePV : LongPositionVector)
      (area : DestinationArea) (reservedEnd : UInt16)

namespace ExtendedHeader

def sourcePV : ExtendedHeader → LongPositionVector
  | .shb sourcePV _ => sourcePV
  | .gbc _ _ sourcePV _ _ => sourcePV

def headerType : ExtendedHeader → BitVec 4
  | .shb _ _ => 5
  | .gbc _ _ _ _ _ => 4

def headerSubType : ExtendedHeader → BitVec 4
  | .shb _ _ => 0
  | .gbc _ _ _ area _ => area.shape

def encode : ExtendedHeader → List UInt8
  | .shb sourcePV reserved => sourcePV.encode ++ encode32 reserved
  | .gbc seqNumber reserved sourcePV area reservedEnd =>
      encode16 seqNumber ++ (encode16 reserved ++ (sourcePV.encode ++
        (encode32 area.posLat.toUInt32 ++ (encode32 area.posLong.toUInt32 ++
          (encode16 area.distA ++ (encode16 area.distB ++ (encode16 area.angle ++
            encode16 reservedEnd)))))))

end ExtendedHeader

/-- BTP-A carries the source port, BTP-B information about the destination port. -/
inductive Transport
  | btpA (sourcePort : UInt16)
  | btpB (destPortInfo : UInt16)

namespace Transport

def code : Transport → BitVec 4
  | .btpA _ => 1
  | .btpB _ => 2

def sourceDestInfo : Transport → UInt16
  | .btpA sourcePort => sourcePort
  | .btpB destPortInfo => destPortInfo

end Transport

/-! ## Packets -/

/-- A packet that the decoder is meant to accept. -/
structure GnPacket where
  version : BitVec 4
  versionSupported : version = 0 ∨ version = 1
  nextHeader : BitVec 4
  unsecured : nextHeader = 0 ∨ nextHeader = 1
  reserved : UInt8
  lifetime : Lifetime
  remainingHopLimit : UInt8
  transport : Transport
  commonReserved : BitVec 4
  trafficClass : UInt8
  flags : UInt8
  maxHopLimit : UInt8
  hopLimits : remainingHopLimit ≤ maxHopLimit
  commonReservedEnd : UInt8
  extended : ExtendedHeader
  destinationPort : UInt16
  portSupported : destinationPort = 2001 ∨ destinationPort = 2002
  payload : List UInt8
  fits : payload.length + 4 < 2 ^ 16

namespace GnPacket

variable (packet : GnPacket)

def encodeBasic : List UInt8 :=
  [nibbles packet.version packet.nextHeader, packet.reserved, packet.lifetime.encode,
    packet.remainingHopLimit]

def encodeCommon : List UInt8 :=
  [nibbles packet.transport.code packet.commonReserved,
    nibbles packet.extended.headerType packet.extended.headerSubType,
    packet.trafficClass, packet.flags] ++
  (encode16 (.ofNat (packet.payload.length + 4)) ++
    [packet.maxHopLimit, packet.commonReservedEnd])

def encodeBtp : List UInt8 :=
  encode16 packet.destinationPort ++ encode16 packet.transport.sourceDestInfo

def encode : List UInt8 :=
  packet.encodeBasic ++ (packet.encodeCommon ++ (packet.extended.encode ++
    (packet.encodeBtp ++ packet.payload)))

end GnPacket

end AIM.Decoder
