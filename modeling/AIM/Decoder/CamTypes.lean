import AIM.Uper.RoundTrip

namespace AIM.Decoder

open Uper

/-! # The types of a CAM

The tables of the generated code for `CAM` and `CAMEnhanced`, under the names of the types. -/

namespace AsnDef

/-- `{ APC_CONSTRAINED, bits, -1, lb, ub }` -/
def wideRange (bits : Nat) (lb ub : Int) : PerConstraint :=
  ⟨false, true, false, some bits, none, lb, ub⟩

def number (value : PerConstraint) (fieldUnsigned : Bool) : Descriptor :=
  .nativeInteger (some ⟨value, .unconstrained, none⟩) fieldUnsigned

def largeNumber (value : PerConstraint) (fieldUnsigned : Bool) : Descriptor :=
  .integer (some ⟨value, .unconstrained, none⟩) fieldUnsigned

/-- The values count from zero. -/
def enumeration (value : PerConstraint) (count extension : Nat) : Descriptor :=
  .nativeEnumerated (some ⟨value, .unconstrained, none⟩)
    ⟨(List.range count).map Int.ofNat, extension⟩

def mandatory (type : Descriptor) : Member × Descriptor := (⟨false, none, none⟩, type)

def optional (type : Descriptor) : Member × Descriptor := (⟨true, none, none⟩, type)

def constrainedTo (value : PerConstraint) (type : Descriptor) : Member × Descriptor :=
  (⟨false, some ⟨value, .unconstrained, none⟩, none⟩, type)

def elements : List (Member × Descriptor) → Elements
  | [] => .nil
  | (member, type) :: others => .cons member type (elements others)

/-- There are no additions in these types. -/
def sequence (extensible : Bool) (oms : List Nat) (members : List (Member × Descriptor)) :
    Descriptor :=
  .sequence ⟨extensible, oms⟩ (elements members) .nil

def choice (value : PerConstraint) (extStart : Option Nat)
    (members : List (Member × Descriptor)) : Descriptor :=
  .choice (some ⟨value, .unconstrained, none⟩) extStart (elements members)

def listOf (size : PerConstraint) (type : Descriptor) : Descriptor :=
  .sequenceOf (some ⟨.unconstrained, size, none⟩) ⟨false, none, none⟩ type

def nativeInteger : Descriptor := .nativeInteger none false
def stationID : Descriptor := number (wideRange 32 0 4294967295) true

def itsPduHeader : Descriptor :=
  sequence false [] [constrainedTo (.range 8 0 255) nativeInteger,
    constrainedTo (.range 8 0 255) nativeInteger, mandatory stationID]

def generationDeltaTime : Descriptor := number (.range 16 0 65535) false
def stationType : Descriptor := number (.range 8 0 255) false
def latitude : Descriptor := number (wideRange 31 (-900000000) 900000001) false
def longitude : Descriptor := number (wideRange 32 (-1800000000) 1800000001) false
def semiAxisLength : Descriptor := number (.range 12 0 4095) false
def headingValue : Descriptor := number (.range 12 0 3601) false

def posConfidenceEllipse : Descriptor :=
  sequence false [] [mandatory semiAxisLength, mandatory semiAxisLength,
    mandatory headingValue]

def altitudeValue : Descriptor := number (wideRange 20 (-100000) 800001) false
def altitudeConfidence : Descriptor := enumeration (.range 4 0 15) 16 0

def altitude : Descriptor :=
  sequence false [] [mandatory altitudeValue, mandatory altitudeConfidence]

def referencePosition : Descriptor :=
  sequence false [] [mandatory latitude, mandatory longitude, mandatory posConfidenceEllipse,
    mandatory altitude]

def basicContainer : Descriptor :=
  sequence true [] [mandatory stationType, mandatory referencePosition]

def headingConfidence : Descriptor := number (.range 7 1 127) false
def heading : Descriptor := sequence false [] [mandatory headingValue, mandatory headingConfidence]
def speedValue : Descriptor := number (.range 14 0 16383) false
def speedConfidence : Descriptor := number (.range 7 1 127) false
def speed : Descriptor := sequence false [] [mandatory speedValue, mandatory speedConfidence]
def driveDirection : Descriptor := enumeration (.range 2 0 2) 3 0
def vehicleLengthValue : Descriptor := number (.range 10 1 1023) false
def vehicleLengthConfidenceIndication : Descriptor := enumeration (.range 3 0 4) 5 0

def vehicleLength : Descriptor :=
  sequence false [] [mandatory vehicleLengthValue,
    mandatory vehicleLengthConfidenceIndication]

def vehicleWidth : Descriptor := number (.range 6 1 62) false
def longitudinalAccelerationValue : Descriptor := number (.range 9 (-160) 161) false
def accelerationConfidence : Descriptor := number (.range 7 0 102) false

def longitudinalAcceleration : Descriptor :=
  sequence false [] [mandatory longitudinalAccelerationValue,
    mandatory accelerationConfidence]

def curvatureValue : Descriptor := number (.range 11 (-1023) 1023) false
def curvatureConfidence : Descriptor := enumeration (.range 3 0 7) 8 0

def curvature : Descriptor :=
  sequence false [] [mandatory curvatureValue, mandatory curvatureConfidence]

def curvatureCalculationMode : Descriptor := enumeration (.extensibleRange 2 0 2) 3 4
def yawRateValue : Descriptor := number (.range 16 (-32766) 32767) false
def yawRateConfidence : Descriptor := enumeration (.range 4 0 8) 9 0
def yawRate : Descriptor := sequence false [] [mandatory yawRateValue, mandatory yawRateConfidence]
def accelerationControl : Descriptor := .bitString (some ⟨.unconstrained, .range 0 7 7, none⟩)
def lanePosition : Descriptor := number (.range 4 (-1) 14) false
def steeringWheelAngleValue : Descriptor := number (.range 10 (-511) 512) false
def steeringWheelAngleConfidence : Descriptor := number (.range 7 1 127) false

def steeringWheelAngle : Descriptor :=
  sequence false [] [mandatory steeringWheelAngleValue,
    mandatory steeringWheelAngleConfidence]

def lateralAccelerationValue : Descriptor := number (.range 9 (-160) 161) false

def lateralAcceleration : Descriptor :=
  sequence false [] [mandatory lateralAccelerationValue, mandatory accelerationConfidence]

def verticalAccelerationValue : Descriptor := number (.range 9 (-160) 161) false

def verticalAcceleration : Descriptor :=
  sequence false [] [mandatory verticalAccelerationValue, mandatory accelerationConfidence]

def performanceClass : Descriptor := number (.range 3 0 7) false
def cenDsrcTollingZoneID : Descriptor := number (wideRange 27 0 134217727) false

def cenDsrcTollingZone : Descriptor :=
  sequence true [2] [mandatory latitude, mandatory longitude, optional cenDsrcTollingZoneID]

def basicVehicleContainerHighFrequency : Descriptor :=
  sequence false [9, 10, 11, 12, 13, 14, 15] [mandatory heading, mandatory speed,
    mandatory driveDirection, mandatory vehicleLength, mandatory vehicleWidth,
    mandatory longitudinalAcceleration, mandatory curvature, mandatory curvatureCalculationMode,
    mandatory yawRate, optional accelerationControl, optional lanePosition,
    optional steeringWheelAngle, optional lateralAcceleration, optional verticalAcceleration,
    optional performanceClass, optional cenDsrcTollingZone]

def protectedZoneType : Descriptor := enumeration (.extensibleRange 0 0 0) 2 2
def timestampIts : Descriptor := largeNumber (wideRange 42 0 4398046511103) false
def protectedZoneRadius : Descriptor := number (.extensibleRange 8 1 255) false
def protectedZoneID : Descriptor := number (wideRange 27 0 134217727) false

def protectedCommunicationZone : Descriptor :=
  sequence true [1, 4, 5] [mandatory protectedZoneType, optional timestampIts,
    mandatory latitude, mandatory longitude, optional protectedZoneRadius,
    optional protectedZoneID]

def protectedCommunicationZonesRSU : Descriptor := listOf (.range 4 1 16) protectedCommunicationZone

def rsuContainerHighFrequency : Descriptor :=
  sequence true [0] [optional protectedCommunicationZonesRSU]

def highFrequencyContainer : Descriptor :=
  choice (.extensibleRange 1 0 1) (some 2) [mandatory basicVehicleContainerHighFrequency,
    mandatory rsuContainerHighFrequency]

def vehicleRole : Descriptor := enumeration (.range 4 0 15) 16 0
def exteriorLights : Descriptor := .bitString (some ⟨.unconstrained, .range 0 8 8, none⟩)
def deltaLatitude : Descriptor := number (wideRange 18 (-131071) 131072) false
def deltaLongitude : Descriptor := number (wideRange 18 (-131071) 131072) false
def deltaAltitude : Descriptor := number (.range 15 (-12700) 12800) false

def deltaReferencePosition : Descriptor :=
  sequence false [] [mandatory deltaLatitude, mandatory deltaLongitude,
    mandatory deltaAltitude]

def pathDeltaTime : Descriptor := number (.extensibleRange 16 1 65535) false

def pathPoint : Descriptor :=
  sequence false [1] [mandatory deltaReferencePosition, optional pathDeltaTime]

def pathHistory : Descriptor := listOf (.range 6 0 40) pathPoint

def basicVehicleContainerLowFrequency : Descriptor :=
  sequence false [] [mandatory vehicleRole, mandatory exteriorLights, mandatory pathHistory]

def lowFrequencyContainer : Descriptor :=
  choice (.extensibleRange 0 0 0) (some 1) [mandatory basicVehicleContainerLowFrequency]

def embarkationStatus : Descriptor := .boolean
def ptActivationType : Descriptor := number (.range 8 0 255) false
def ptActivationData : Descriptor := .octetString (some ⟨.unconstrained, .range 5 1 20, none⟩)

def ptActivation : Descriptor :=
  sequence false [] [mandatory ptActivationType, mandatory ptActivationData]

def publicTransportContainer : Descriptor :=
  sequence false [1] [mandatory embarkationStatus, optional ptActivation]

def specialTransportType : Descriptor := .bitString (some ⟨.unconstrained, .range 0 4 4, none⟩)
def lightBarSirenInUse : Descriptor := .bitString (some ⟨.unconstrained, .range 0 2 2, none⟩)

def specialTransportContainer : Descriptor :=
  sequence false [] [mandatory specialTransportType, mandatory lightBarSirenInUse]

def dangerousGoodsBasic : Descriptor := enumeration (.range 5 0 19) 20 0
def dangerousGoodsContainer : Descriptor := sequence false [] [mandatory dangerousGoodsBasic]
def roadworksSubCauseCode : Descriptor := number (.range 8 0 255) false
def hardShoulderStatus : Descriptor := enumeration (.range 2 0 2) 3 0
def drivingLaneStatus : Descriptor := .bitString (some ⟨.unconstrained, .range 4 1 13, none⟩)

def closedLanes : Descriptor :=
  sequence true [0, 1, 2] [optional hardShoulderStatus, optional hardShoulderStatus,
    optional drivingLaneStatus]

def roadWorksContainerBasic : Descriptor :=
  sequence false [0, 2] [optional roadworksSubCauseCode, mandatory lightBarSirenInUse,
    optional closedLanes]

def rescueContainer : Descriptor := sequence false [] [mandatory lightBarSirenInUse]
def causeCodeType : Descriptor := number (.range 8 0 255) false
def subCauseCodeType : Descriptor := number (.range 8 0 255) false
def causeCode : Descriptor := sequence true [] [mandatory causeCodeType, mandatory subCauseCodeType]
def emergencyPriority : Descriptor := .bitString (some ⟨.unconstrained, .range 0 2 2, none⟩)

def emergencyContainer : Descriptor :=
  sequence false [1, 2] [mandatory lightBarSirenInUse, optional causeCode,
    optional emergencyPriority]

def trafficRule : Descriptor := enumeration (.extensibleRange 2 0 3) 4 5
def speedLimit : Descriptor := number (.range 8 1 255) false

def safetyCarContainer : Descriptor :=
  sequence false [1, 2, 3] [mandatory lightBarSirenInUse, optional causeCode,
    optional trafficRule, optional speedLimit]

def specialVehicleContainer : Descriptor :=
  choice (.extensibleRange 3 0 6) (some 7) [mandatory publicTransportContainer,
    mandatory specialTransportContainer, mandatory dangerousGoodsContainer,
    mandatory roadWorksContainerBasic, mandatory rescueContainer, mandatory emergencyContainer,
    mandatory safetyCarContainer]

def camParameters : Descriptor :=
  sequence true [2, 3] [mandatory basicContainer, mandatory highFrequencyContainer,
    optional lowFrequencyContainer, optional specialVehicleContainer]

def coopAwareness : Descriptor :=
  sequence false [] [mandatory generationDeltaTime, mandatory camParameters]

def cam : Descriptor := sequence false [] [mandatory itsPduHeader, mandatory coopAwareness]
def auxilliaryLinkMac : Descriptor := .octetString none
def auxilliaryLinkRSSI : Descriptor := number (wideRange 23 (-8000000) 10000) false
def ipAddr : Descriptor := .octetString none
def cpuLoad : Descriptor := number (.range 14 0 10001) false
def ramLoad : Descriptor := number (wideRange 19 0 512001) false
def gpuLoad : Descriptor := number (.range 14 0 10001) false

def channelNodeStatusContainer : Descriptor :=
  sequence true [0, 1, 2, 3, 7, 8, 9] [optional auxilliaryLinkMac,
    optional auxilliaryLinkRSSI, optional ipAddr, optional ipAddr, mandatory cpuLoad,
    mandatory ramLoad, mandatory gpuLoad, optional cpuLoad, optional ramLoad, optional gpuLoad]

def camParametersEnhanced : Descriptor :=
  sequence true [2, 3, 4] [mandatory basicContainer, mandatory highFrequencyContainer,
    optional lowFrequencyContainer, optional specialVehicleContainer,
    optional channelNodeStatusContainer]

def coopAwarenessEnhanced : Descriptor :=
  sequence false [] [mandatory generationDeltaTime, mandatory camParametersEnhanced]

def camEnhanced : Descriptor :=
  sequence false [] [mandatory itsPduHeader, mandatory coopAwarenessEnhanced]

end AsnDef

end AIM.Decoder
