import EdgeLink.Reliability.GatedTracker
import EdgeLink.Server.Handlers
import EdgeLink.Server.ReplayProtection
import EdgeLink.Server.CapturedReplay
import EdgeLink.Reliability.RetransmitQueue
import EdgeLink.Link.Acknowledgement
import EdgeLink.Client.DeltaBatcher
import EdgeLink.Client.ProcessDelta
import EdgeLink.Client.Conservation
import EdgeLink.Codec.Packet
import EdgeLink.Codec.PacketRoundTrip
import EdgeLink.Codec.PacketAuth
import EdgeLink.Client.SubscriptionManager
import EdgeLink.Link.Handshake
import EdgeLink.Client.MetadataStreamer
import EdgeLink.Server.MetadataHandler
import EdgeLink.Link.MetadataOrder
import EdgeLink.App.ConnectionConfig
import EdgeLink.App.ConnectionManager
import EdgeLink.App.Supersession
import EdgeLink.App.Connection
import EdgeLink.App.SendGate
import EdgeLink.Client.Transmission
import EdgeLink.Codec.PathRules
import EdgeLink.Client.DeltaSender
import EdgeLink.Foundations.Gaps
import EdgeLink.Reliability.TrackerSteps
import EdgeLink.Reliability.TrackerRuns
import EdgeLink.Reliability.NakBudget
import EdgeLink.App.ConfigReload
import EdgeLink.Client.Bonding
import EdgeLink.Client.Flapping
import EdgeLink.Server.SessionTable
import EdgeLink.Server.ControlPackets
import EdgeLink.Server.SourceRegistry
import EdgeLink.Foundations.SharedClock
import EdgeLink.Server.SourceMerge
import EdgeLink.Codec.Baselines
import EdgeLink.Link.Sentinels
import EdgeLink.Codec.Restoration
import EdgeLink.Codec.ValuesSnapshot
import EdgeLink.Client.SnapshotReplay
import EdgeLink.Link.Resynchronisation
import EdgeLink.Reliability.ReplayReference
import EdgeLink.Client.AckOrder
import EdgeLink.Reliability.RetransmitBudget
import EdgeLink.Client.RetransmitAge
import EdgeLink.Client.RecoveryBurst
import EdgeLink.Server.EnvelopeWindow
import EdgeLink.Client.MetadataConvergence
import EdgeLink.Server.Refusal
import EdgeLink.Codec.Lossless
import EdgeLink.Client.Congestion
import EdgeLink.Client.SocketRecovery
import EdgeLink.Codec.CompactDelta
import EdgeLink.Codec.PathDictionary
import EdgeLink.Codec.Throttle
import EdgeLink.Client.DedupeKey
import EdgeLink.Codec.JsTree
import EdgeLink.Codec.SnapshotLeaves
import EdgeLink.Client.SharedPatches
import EdgeLink.Client.SourcePartition
import EdgeLink.Codec.SourceSnapshot
import EdgeLink.Codec.Crc16
import EdgeLink.Reliability.ReplayMemory
import EdgeLink.Client.UdpSend
import EdgeLink.App.InstanceIds
import EdgeLink.App.RedactedSecrets
import EdgeLink.Server.SourceEviction
import EdgeLink.Codec.LazySanitize
import EdgeLink.Server.LossAccounting
import EdgeLink.App.InstanceRoutes
import EdgeLink.App.ConfigFiles
import EdgeLink.Link.RestartEpoch
import EdgeLink.App.ManagementAccess
import EdgeLink.Server.PreAuthLimit
import EdgeLink.Codec.SourceDispatch
import EdgeLink.Server.Telemetry
import EdgeLink.Monitoring.PacketCapture
import EdgeLink.Monitoring.Histories
import EdgeLink.Monitoring.PathStatistics
import EdgeLink.Monitoring.Alerts
