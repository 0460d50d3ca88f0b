import AIM.Decoder.PayloadSlice
import AIM.Decoder.Encoding
import AIM.Decoder.RoundTrip
import AIM.Decoder.HeaderReads
import AIM.Decoder.Acceptance
import AIM.Database.LatestPoint
import AIM.Database.RingWindow
import AIM.Database.Refinement
import AIM.Database.Enumeration
import AIM.Database.Ownership
import AIM.Database.Sweep
import AIM.Database.Eviction
import AIM.Client.AgeCheck
import AIM.Client.MixedHeaders
import AIM.Client.LoggingIndependence
import AIM.Client.UninitializedMemory
import AIM.Client.ObjectTypes
import AIM.Client.Resources
import AIM.Client.ChoiceMembers
import AIM.Client.ReceiveLoop
import AIM.Client.Rssi
import AIM.Client.ExteriorLights
import AIM.Server.JsonRequests
import AIM.Server.VehicleJson
import AIM.Visualizer.MapFirst
import AIM.Visualizer.MarkerUpdate
import AIM.Visualizer.TextRoundTrip
import AIM.Threads.ReceiverCleaner
import AIM.Threads.CleanerClock
import AIM.Threads.JsonClock
import AIM.Threads.VisualizerUpdater
import AIM.Threads.DisplayedRecords
import AIM.Threads.Freshness
import AIM.Threads.Startup
import AIM.Json11.Rejection
import AIM.Json11.Unicode
import AIM.Server.ReceivedAnswers
import AIM.Server.ClientLoop
import AIM.Foundation.BitReader
import AIM.Uper.BitData
import AIM.Uper.Support
import AIM.Uper.Lengths
import AIM.Uper.Integer
import AIM.Foundation.Binary64
import AIM.Uper.Complete
import AIM.Uper.Endings
import AIM.Uper.Parts
import AIM.Client.SentCam
