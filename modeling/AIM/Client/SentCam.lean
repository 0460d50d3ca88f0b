import AIM.Client.ManageMessage
import AIM.Decoder.AsnDecode

namespace AIM.Client

open Decoder Database Uper

/-! # What a sent CAM leaves in the database

From the structure that a station encodes and sends to the record that is stored for it. -/

section

variable {client : SocketClient} {map : LDMMap} {packet : GnPacket} {behind : Nat → UInt8}
  {unselected : Nat → BasicVehicleContainerHighFrequency} {other : AsnOracle}
  {timestampUs : UInt64} {rssiFromIw : (Fin 6 → UInt8) → ℚ} {locals : Locals} {sent : Value}

end

/-! ## A driving vehicle -/

def members (values : List (Option Value)) : Value := .sequence values []

end AIM.Client
