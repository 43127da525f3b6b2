import SdkNrf.Framework.Arena
import SdkNrf.Framework.BitSearch
import SdkNrf.Framework.Bytes
import SdkNrf.Framework.CString
import SdkNrf.Framework.Dict
import SdkNrf.Framework.Erased
import SdkNrf.Framework.ExceptRun
import SdkNrf.Framework.FloatQuotient
import SdkNrf.Framework.Fuel
import SdkNrf.Framework.ListOrder
import SdkNrf.Framework.Programmed
import SdkNrf.Framework.Reachable
import SdkNrf.Framework.Reading
import SdkNrf.Framework.Ring
import SdkNrf.Framework.Segment
import SdkNrf.Framework.SetOrder
import SdkNrf.Framework.Slip
import SdkNrf.Framework.Tiling
import SdkNrf.Framework.Words
import SdkNrf.Framework.WriteOnce
import SdkNrf.PartitionManager.Requirements
import SdkNrf.PartitionManager.Preprocess
import SdkNrf.PartitionManager.Resolve
import SdkNrf.PartitionManager.Layout
import SdkNrf.PartitionManager.Prepared
import SdkNrf.PartitionManager.ZeroSize
import SdkNrf.PartitionManager.Flattening
import SdkNrf.PartitionManager.Ordering
import SdkNrf.PartitionManager.LayoutSteps
import SdkNrf.PartitionManager.AddressChain
import SdkNrf.PartitionManager.AlignmentHonoured
import SdkNrf.PartitionManager.PlacementOrder
import SdkNrf.PartitionManager.ContainerCoverage
import SdkNrf.PartitionManager.SpanBackup
import SdkNrf.PartitionManager.FlatteningEnds
import SdkNrf.PartitionManager.SolverEnds
import SdkNrf.PartitionManager.SizeSharing
import SdkNrf.PartitionManager.DynamicSharing
import SdkNrf.Ndef.Record
import SdkNrf.Ndef.Message
import SdkNrf.Ndef.RoundTrip
import SdkNrf.Ndef.ParserBounds
import SdkNrf.Ndef.Handover
import SdkNrf.Ndef.HandoverParser
import SdkNrf.Ndef.Payloads
import SdkNrf.Ndef.TwoPass
import SdkNrf.Ndef.PayloadLengths
import SdkNrf.Ndef.PayloadsAgree
import SdkNrf.Ndef.LeOob
import SdkNrf.Ndef.LeOobRoundTrip
import SdkNrf.AtParser.Characters
import SdkNrf.AtParser.Parser
import SdkNrf.AtParser.Elements
import SdkNrf.AtParser.RoundTrip
import SdkNrf.AtParser.CommandLines
import SdkNrf.AtParser.ParamList
import SdkNrf.AtParser.Bounds
import SdkNrf.Mesh.SensorTypes
import SdkNrf.Mesh.PowTime
import SdkNrf.Mesh.TimeUtil
import SdkNrf.Mesh.Calendar
import SdkNrf.Mesh.TimeSrv
import SdkNrf.Mesh.TaiClock
import SdkNrf.Mesh.ScalarRoundTrip
import SdkNrf.Mesh.Sensor
import SdkNrf.Mesh.ScalarSending
import SdkNrf.Mesh.SensorStatus
import SdkNrf.Mesh.SensorValues
import SdkNrf.Mesh.Cadence
import SdkNrf.Mesh.CadenceStore
import SdkNrf.Mesh.CadenceRuns
import SdkNrf.Mesh.SensorSeries
import SdkNrf.Mesh.SensorPublication
import SdkNrf.Mesh.SensorList
import SdkNrf.Mesh.TransitionTime
import SdkNrf.Mesh.LevelServers
import SdkNrf.Mesh.LevelRestore
import SdkNrf.Mesh.LightConversions
import SdkNrf.Mesh.LevelDelta
import SdkNrf.Mesh.LightCtrl
import SdkNrf.Mesh.LightCtrlFade
import SdkNrf.Mesh.LightCtrlInvariant
import SdkNrf.Mesh.LightCtrlStorage
import SdkNrf.Mesh.FadeContinuity
import SdkNrf.Mesh.Regulator
import SdkNrf.Type4Tag.Apdu
import SdkNrf.Type2Tag.Parser
import SdkNrf.Type2Tag.DataArea
import SdkNrf.Type4Tag.CommandBytes
import SdkNrf.Type4Tag.CapabilityContainer
import SdkNrf.Type4Tag.CcGrammar
import SdkNrf.Type4Tag.HlProcedure
import SdkNrf.Type4Tag.NdefUpdate
import SdkNrf.Type4Tag.NdefReading
import SdkNrf.Isodep.Protocol
import SdkNrf.Isodep.Chunking
import SdkNrf.Isodep.Retransmission
import SdkNrf.Isodep.Reassembly
import SdkNrf.Isodep.Errors
import SdkNrf.Isodep.FrameBounds
import SdkNrf.Bootloader.Storage
import SdkNrf.Bootloader.CounterStorage
import SdkNrf.Bootloader.Boot
import SdkNrf.Bootloader.AntiRollback
import SdkNrf.Bootloader.Provisioning
import SdkNrf.Bootloader.KeyRevocation
import SdkNrf.Bootloader.ValidatedRegion
import SdkNrf.Bootloader.ExternalValidation
import SdkNrf.Bootloader.ExtApi
import SdkNrf.Download.Http
import SdkNrf.Download.Header
import SdkNrf.Download.Client
import SdkNrf.Download.Delivery
import SdkNrf.Download.DeliverySteps
import SdkNrf.Download.Runs
import SdkNrf.Download.Url
import SdkNrf.ICalendar.Parser
import SdkNrf.ICalendar.Lines
import SdkNrf.ICalendar.Streaming
import SdkNrf.Desktop.Dfu
import SdkNrf.Desktop.DfuImage
import SdkNrf.Desktop.DfuLock
import SdkNrf.Esb.Node
import SdkNrf.Esb.Fifos
import SdkNrf.Esb.Link
import SdkNrf.Esb.Accounting
import SdkNrf.Esb.LinkInvariant
import SdkNrf.Esb.Delivery
import SdkNrf.Esb.AckPayloads
import SdkNrf.Agps.Process
import SdkNrf.Agps.Bounds
import SdkNrf.Agps.Items
import SdkNrf.Agps.Decoding
import SdkNrf.Tnep.Tag
import SdkNrf.Tnep.TagInvariant
import SdkNrf.Tnep.Poller
import SdkNrf.Tnep.PollerInvariant
import SdkNrf.Framework.BinarySearch
import SdkNrf.Gatt.Discovery
import SdkNrf.Gatt.DiscoveryInvariant
import SdkNrf.Desktop.HidForward
import SdkNrf.Desktop.HidRelease
import SdkNrf.Framework.Waiting
import SdkNrf.Desktop.HidForwarding
import SdkNrf.Desktop.ConfigForward
import SdkNrf.Desktop.ConfigReaction
import SdkNrf.Desktop.ConfigAnswers
import SdkNrf.Framework.Gaps
import SdkNrf.PartitionManager.Regions
import SdkNrf.PartitionManager.StaticGap
import SdkNrf.PartitionManager.SimpleRegion
import SdkNrf.PartitionManager.UsableOutput
import SdkNrf.PartitionManager.OneOf
import SdkNrf.Framework.Accesses
import SdkNrf.Ndef.LeOobBounds
import SdkNrf.Desktop.BleBond
import SdkNrf.Desktop.BleBondInvariant
import SdkNrf.EthRtt.Driver
import SdkNrf.EthRtt.Framing
import SdkNrf.ICalendar.Unfolding
import SdkNrf.ICalendar.Isolation
import SdkNrf.Framework.SelectionSort
import SdkNrf.Desktop.HidItems
import SdkNrf.Desktop.MouseReports
import SdkNrf.Framework.NodeList
import SdkNrf.Desktop.HidEventq
import SdkNrf.Tnep.Search
import SdkNrf.Enocean.Adv
import SdkNrf.Enocean.AdvBounds
import SdkNrf.Enocean.Replay
import SdkNrf.Enocean.Storage
import SdkNrf.Enocean.StorageInvariant
import SdkNrf.Enocean.StorageRuns
import SdkNrf.Download.ModemTarget
import SdkNrf.Gatt.DiscoveryMemory
import SdkNrf.Framework.CyclicId
import SdkNrf.Desktop.ConfigTransport
import SdkNrf.Desktop.TransportFrames
import SdkNrf.Desktop.TransportAnswers
import SdkNrf.Framework.Contract
import SdkNrf.Desktop.HidReports
import SdkNrf.Desktop.HidQueues
import SdkNrf.Desktop.HidContent
import SdkNrf.Desktop.HidRouting
import SdkNrf.Desktop.HidFlow
import SdkNrf.Desktop.HidSubscribers
import SdkNrf.Desktop.HidSelection
import SdkNrf.Desktop.HidKeys
import SdkNrf.Desktop.HidSystem
import SdkNrf.EventManager.Processor
import SdkNrf.Framework.Strokes
import SdkNrf.Desktop.FnKeys
import SdkNrf.Desktop.Buttons
import SdkNrf.Desktop.Keyboard
