import AIM.Foundation.LoggedReader
import Mathlib.Data.Rat.Defs

namespace AIM.Decoder

open LoggedReader

/-! # GeoNetworking and BTP headers

The header classes of the decoder. A pointer into the received packet is the
offset from its first byte; the memory behind the packet is total, since the
parsing code reads a fixed receive buffer whatever the received length is. -/

/-! ## Byte order -/

abbrev Parser := LoggedReader UInt8

/-- `memcpy` of a 16-bit integer on the little-endian host. -/
def memcpy16 (source : Nat) : Parser UInt16 := do
  let bytes ← readBlock source 2
  return (bytes 0).toUInt16 ||| ((bytes 1).toUInt16 <<< 8)

/-- `memcpy` of a 32-bit integer on the little-endian host. -/
def memcpy32 (source : Nat) : Parser UInt32 := do
  let bytes ← readBlock source 4
  return (bytes 0).toUInt32 ||| ((bytes 1).toUInt32 <<< 8) |||
    ((bytes 2).toUInt32 <<< 16) ||| ((bytes 3).toUInt32 <<< 24)

def swap16bit (us : UInt16) : UInt16 :=
  ((us &&& 0xFF00) >>> 8) ||| ((us &&& 0x00FF) <<< 8)

def swap32bit (ul : UInt32) : UInt32 :=
  ((ul &&& 0xFF000000) >>> 24) ||| ((ul &&& 0x00FF0000) >>> 8) |||
    ((ul &&& 0x0000FF00) <<< 8) ||| ((ul &&& 0x000000FF) <<< 24)

/-- The recurring `memcpy` and `swap_16bit` pair. -/
def read16 (source : Nat) : Parser UInt16 := do
  let raw ← memcpy16 source
  return swap16bit raw

/-- The recurring `memcpy` and `swap_32bit` pair. -/
def read32 (source : Nat) : Parser UInt32 := do
  let raw ← memcpy32 source
  return swap32bit raw

example : (read16 0).value (fun address => if address = 0 then 0x12 else 0x34) =
    0x1234 := by decide

/-! ## Basic and common header -/

structure BasicHeader where
  version : UInt8
  nextHeader : UInt8
  reserved : UInt8
  lifeTime : UInt8
  remainingHopLimit : UInt8
  deriving DecidableEq, Repr

def BasicHeader.removeHeader (buffer : Nat) : Parser BasicHeader := do
  let versionNH ← readCell buffer
  let reserved ← readCell (buffer + 1)
  let lifeTime ← readCell (buffer + 2)
  let remainingHopLimit ← readCell (buffer + 3)
  return {
    version := versionNH >>> 4
    nextHeader := versionNH &&& 0x0f
    reserved
    lifeTime
    remainingHopLimit }

structure CommonHeader where
  nextHeader : UInt8
  headerType : UInt8
  headerSubType : UInt8
  trafficClass : UInt8
  flag : Bool
  payload : UInt16
  maxHopLimit : UInt8
  reserved : UInt8
  deriving DecidableEq, Repr

def CommonHeader.removeHeader (buffer : Nat) : Parser CommonHeader := do
  let chNH ← readCell buffer
  let headerType ← readCell (buffer + 1)
  let trafficClass ← readCell (buffer + 2)
  let chflag ← readCell (buffer + 3)
  let payload ← read16 (buffer + 4)
  let maxHopLimit ← readCell (buffer + 6)
  let reserved ← readCell (buffer + 7)
  return {
    nextHeader := chNH >>> 4
    headerType := headerType >>> 4
    headerSubType := headerType &&& 0x0f
    trafficClass
    flag := chflag >>> 7 != 0
    payload
    maxHopLimit
    reserved }

/-! ## Extended headers -/

/-- `GNlpv_t`, the long position vector of the sender. -/
structure LongPositionVector where
  gnAddress : Fin 8 → UInt8
  tst : UInt32
  latitude : Int32
  longitude : Int32
  positionAccuracy : Bool
  speed : BitVec 15
  heading : UInt16
  deriving Inhabited

def LongPositionVector.remove (buffer : Nat) : Parser LongPositionVector := do
  let gnAddress ← readBlock buffer 8
  let tst ← read32 (buffer + 8)
  let latitude ← read32 (buffer + 12)
  let longitude ← read32 (buffer + 16)
  let paiSpeed ← read16 (buffer + 20)
  let heading ← read16 (buffer + 22)
  return {
    gnAddress
    tst
    latitude := latitude.toInt32
    longitude := longitude.toInt32
    positionAccuracy := paiSpeed >>> 15 != 0
    speed := (paiSpeed &&& 0x7f).toBitVec.setWidth 15
    heading }

/-- `shbHeader`: the reserved word behind the vector is not read. -/
structure ShbHeader where
  sourcePV : LongPositionVector

def ShbHeader.removeHeader (buffer : Nat) : Parser ShbHeader := do
  let sourcePV ← LongPositionVector.remove buffer
  return { sourcePV }

structure GeoArea where
  posLong : Int32
  posLat : Int32
  distA : UInt16
  distB : UInt16
  angle : UInt16
  shape : UInt8
  deriving DecidableEq, Inhabited

structure GbcHeader where
  seqNumber : UInt16
  sourcePV : LongPositionVector
  posLat : Int32
  posLong : Int32
  distA : UInt16
  distB : UInt16
  angle : UInt16
  reserved : UInt16

def GbcHeader.removeHeader (buffer : Nat) : Parser GbcHeader := do
  let seqNumber ← read16 buffer
  -- The first reserved word is overwritten by the last one.
  let _ ← read16 (buffer + 2)
  let sourcePV ← LongPositionVector.remove (buffer + 4)
  let posLat ← read32 (buffer + 28)
  let posLong ← read32 (buffer + 32)
  let distA ← read16 (buffer + 36)
  let distB ← read16 (buffer + 38)
  let angle ← read16 (buffer + 40)
  let reserved ← memcpy16 (buffer + 42)
  return {
    seqNumber
    sourcePV
    posLat := posLat.toInt32
    posLong := posLong.toInt32
    distA
    distB
    angle
    reserved := (swap32bit reserved.toUInt32).toUInt16 }

/-- `GetGeoArea` leaves the shape to its caller. -/
def GbcHeader.getGeoArea (header : GbcHeader) (shape : UInt8) : GeoArea where
  posLong := header.posLong
  posLat := header.posLat
  distA := header.distA
  distB := header.distB
  angle := header.angle
  shape := shape

/-! ## BTP header -/

structure BtpHeader where
  destinationPort : UInt16
  sourceDestInfo : UInt16
  deriving DecidableEq, Repr

def BtpHeader.removeHeader (buffer : Nat) : Parser BtpHeader := do
  let destinationPort ← read16 buffer
  let sourceDestInfo ← read16 (buffer + 2)
  return { destinationPort, sourceDestInfo }

end AIM.Decoder
