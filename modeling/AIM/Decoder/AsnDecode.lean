import AIM.Uper.Complete
import AIM.Decoder.CamContent
import AIM.Decoder.RoundTrip
import AIM.Decoder.Contract

namespace AIM.Decoder

open Uper

/-! # Decoding a CAM

`asn_decode` with the unaligned packed encoding rules, as it is called with a null pointer
for a CAM. -/

section

variable {packet : Nat → UInt8} {unselected : Nat → BasicVehicleContainerHighFrequency}
  {other : AsnOracle} {index data : Nat} {buffer : List UInt8}

end

namespace DecoderFrontend

variable {packet : GnPacket} {behind : Nat → UInt8} {locals : DecoderLocals}

end DecoderFrontend

end AIM.Decoder
