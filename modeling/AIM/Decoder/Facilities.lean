import Mathlib.Data.Fin.Basic

namespace AIM.Decoder

/-! # Facilities messages and the ASN.1 decoder

The fields of decoded CAMs and DENMs that the program reads, and `asn_decode`
as an oracle. A C pointer to an optional member is an `Option`. -/

/-! ## Cooperative awareness messages -/

structure ReferencePosition where
  latitude : Int
  longitude : Int
  altitudeValue : Int
  deriving DecidableEq, Repr

structure BasicContainer where
  stationType : Int
  referencePosition : ReferencePosition
  deriving DecidableEq, Repr

structure BasicVehicleContainerHighFrequency where
  headingValue : Int
  speedValue : Int
  vehicleLengthValue : Int
  vehicleWidth : Int
  deriving DecidableEq, Repr

inductive HighFrequencyContainerPR
  | nothing
  | basicVehicleContainerHighFrequency
  | rsuContainerHighFrequency
  deriving DecidableEq, Repr

/-- A C union with its tag. The member is what reading the memory of the union
as that member gives, whether or not the tag selects it. -/
structure HighFrequencyContainer where
  present : HighFrequencyContainerPR
  basicVehicleContainerHighFrequency : BasicVehicleContainerHighFrequency
  deriving DecidableEq, Repr

/-- `BIT_STRING_t`: the buffer, if it was allocated. -/
structure BitString where
  buf : Option (List UInt8)
  deriving DecidableEq, Repr

inductive LowFrequencyContainerPR
  | nothing
  | basicVehicleContainerLowFrequency
  deriving DecidableEq, Repr

structure LowFrequencyContainer where
  present : LowFrequencyContainerPR
  exteriorLights : BitString
  deriving DecidableEq, Repr

structure ChannelNodeStatusContainer where
  auxilliaryLinkMac : Option (List UInt8)
  auxilliaryLinkRSSI : Option Int
  ipAddress : Option (List UInt8)
  publicIpAddress : Option (List UInt8)
  cpuLoad : Int
  ramLoad : Int
  gpuLoad : Int
  extraComputationDeviceCpuLoad : Option Int
  extraComputationDeviceRamLoad : Option Int
  extraComputationDeciceGpuLoad : Option Int
  deriving DecidableEq, Repr

/-- `CAM_t`. The constraint of the ASN.1 type keeps a decoded StationID within
32 bits, in a field that is wider in C. -/
structure Cam where
  stationID : UInt32
  generationDeltaTime : Int
  basicContainer : BasicContainer
  highFrequencyContainer : HighFrequencyContainer
  lowFrequencyContainer : Option LowFrequencyContainer
  deriving DecidableEq, Repr

/-- `CAMEnhanced_t`: the members of a CAM and one more optional container. -/
structure CamEnhanced extends Cam where
  channelNodeStatusContainer : Option ChannelNodeStatusContainer
  deriving DecidableEq, Repr

structure Denm where
  stationID : UInt32
  eventLatitude : Int
  eventLongitude : Int
  deriving DecidableEq, Repr

/-! ## The ASN.1 decoder -/

inductive AsnType
  | cam
  | camEnhanced
  | denm
  deriving DecidableEq, Repr

def AsnType.Content : AsnType → Type
  | .cam => Cam
  | .camEnhanced => CamEnhanced
  | .denm => Denm

/-- A decoded object in memory: the descriptor it was allocated with, and the
descriptor and fields it was last written with. -/
structure AsnObject where
  allocatedAs : AsnType
  writtenAs : AsnType
  content : writtenAs.Content

inductive AsnCode
  | rcOk
  | rcWmore
  | rcFail
  deriving DecidableEq, Repr

/-- The arguments of a call of `asn_decode`: the descriptor, the object that
the target pointer points to, and the bytes, as an offset into the packet and a
length. -/
structure AsnCall where
  descriptor : AsnType
  target : Option AsnObject
  data : Nat
  size : Nat

/-- What each call of `asn_decode` does, by its position among the calls for one
packet: a result code and, unless the object stays untouched, what is written. -/
structure AsnOracle where
  outcome : Nat → (call : AsnCall) → AsnCode × Option call.descriptor.Content

/-- The result code and the object behind the target pointer afterwards: a null
target is allocated with the descriptor, another one is written in place. -/
def AsnOracle.decode (oracle : AsnOracle) (index : Nat) (call : AsnCall) :
    AsnCode × Option AsnObject :=
  let (code, written) := oracle.outcome index call
  match written, call.target with
  | none, target => (code, target)
  | some content, none => (code, some ⟨call.descriptor, call.descriptor, content⟩)
  | some content, some object =>
      (code, some ⟨object.allocatedAs, call.descriptor, content⟩)

inductive DecoderEvent
  | asnDecode (call : AsnCall) (code : AsnCode) (decoded : Option AsnObject)
  | free (object : AsnObject)

end AIM.Decoder
