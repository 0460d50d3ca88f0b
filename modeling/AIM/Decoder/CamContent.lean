import AIM.Uper.Parts
import AIM.Decoder.CamTypes
import AIM.Decoder.Facilities

namespace AIM.Decoder

open Uper

/-! # The content of a CAM

What the program reads of a decoded value, by the ways to the members. -/

namespace CamPath

def stationID : List Nat := [0, 2]
def generationDeltaTime : List Nat := [1, 0]
def camParameters : List Nat := [1, 1]
def basicContainer : List Nat := camParameters ++ [0]
def stationType : List Nat := basicContainer ++ [0]
def referencePosition : List Nat := basicContainer ++ [1]
def latitude : List Nat := referencePosition ++ [0]
def longitude : List Nat := referencePosition ++ [1]
def altitudeValue : List Nat := referencePosition ++ [3, 0]
def highFrequencyContainer : List Nat := camParameters ++ [1]
def basicVehicleContainerHighFrequency : List Nat := highFrequencyContainer ++ [1]
def headingValue : List Nat := basicVehicleContainerHighFrequency ++ [0, 0]
def speedValue : List Nat := basicVehicleContainerHighFrequency ++ [1, 0]
def vehicleLengthValue : List Nat := basicVehicleContainerHighFrequency ++ [3, 0]
def vehicleWidth : List Nat := basicVehicleContainerHighFrequency ++ [4]
def lowFrequencyContainer : List Nat := camParameters ++ [2]
def exteriorLights : List Nat := lowFrequencyContainer ++ [1, 1]
def channelNodeStatusContainer : List Nat := camParameters ++ [4]

end CamPath

section

variable {value : Value}

end

/-! ## What comes back -/

section

variable {enhanced : Bool} {sent : Value} {puts : Puts}
  {unselected : BasicVehicleContainerHighFrequency}

end

end AIM.Decoder
