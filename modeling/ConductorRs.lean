import ConductorRs.Metatheory.Control
import ConductorRs.Metatheory.StoreDurability
import ConductorRs.Core.StoreMachine
import ConductorRs.Metatheory.StartHeadRuns
import ConductorRs.Metatheory.HandOffRetryRuns
import ConductorRs.Metatheory.HandOffRuns
import ConductorRs.Metatheory.StoreDurabilityRuns
import ConductorRs.Collections.Consecutive
import ConductorRs.Metatheory.LogImage
import ConductorRs.Metatheory.LogImageRuns
import ConductorRs.Metatheory.SnapshotOrder
import ConductorRs.Metatheory.SnapshotOrderRuns
import ConductorRs.Collections.FirstMax
import ConductorRs.Concurrency.Sequential
import ConductorRs.Core.Cluster
import ConductorRs.Metatheory.CommittedStates
import ConductorRs.Metatheory.ReplicaSteps
import ConductorRs.Metatheory.Replicas
import ConductorRs.Core.RaftTransport
import ConductorRs.Metatheory.TransportReplies
import ConductorRs.Concurrency.CompareAndSwap
import ConductorRs.Core.MembershipMachine
import ConductorRs.Concurrency.SwapOutline
import ConductorRs.Metatheory.MembershipVersions
import ConductorRs.Metatheory.MembershipVersionsRuns
import ConductorRs.Metatheory.StartControl
import ConductorRs.Metatheory.FreshStart
import ConductorRs.Metatheory.FreshStartRuns
import ConductorRs.Concurrency.Marks
import ConductorRs.Metatheory.Quiescence
import ConductorRs.Metatheory.QuiescenceRuns
import ConductorRs.Core.MembershipHistory
import ConductorRs.Metatheory.VersionGuard
import ConductorRs.Core.PayloadEncoding
import ConductorRs.Metatheory.PayloadHops
import ConductorRs.Core.RpcRequest
import ConductorRs.Core.RpcServer
import ConductorRs.Metatheory.RpcFraming
import ConductorRs.Metatheory.RpcExecution
import ConductorRs.Concurrency.Channel
import ConductorRs.Concurrency.Loop
import ConductorRs.Core.Flashblocks
import ConductorRs.Core.HubMachine
import ConductorRs.Metatheory.HubStreams
import ConductorRs.Metatheory.HubStreamsRuns
import ConductorRs.Metatheory.Eviction
import ConductorRs.Core.UpstreamListener
import ConductorRs.Metatheory.LeaderPeriods
import ConductorRs.Core.Runtime
import ConductorRs.Metatheory.LeaderWatch
import ConductorRs.Metatheory.LeaderWatchRuns
import ConductorRs.Core.LeaderTransfer
import ConductorRs.Metatheory.TransferTarget
import ConductorRs.Concurrency.Answers
import ConductorRs.Metatheory.TransferOrder
import ConductorRs.Metatheory.HealthTolerance
import ConductorRs.Core.RollupConfig
import ConductorRs.Metatheory.HexText
import ConductorRs.Collections.Checks
import ConductorRs.Metatheory.RollupValidity
import ConductorRs.Metatheory.ParamsGrammar
import ConductorRs.Collections.Tally
import ConductorRs.Collections.Exposition
import ConductorRs.Collections.ExpositionText
import ConductorRs.Core.Metrics
import ConductorRs.Metatheory.MetricsSeries
import ConductorRs.Metatheory.MetricsRuns
import ConductorRs.Metatheory.MetricsDistinct
import ConductorRs.Core.PayloadStore
import ConductorRs.Metatheory.PayloadFile
import ConductorRs.Collections.Segment
import ConductorRs.Core.LogReader
import ConductorRs.Metatheory.StoreAlone
import ConductorRs.Metatheory.RaftLog
import ConductorRs.Metatheory.FailedApply
import ConductorRs.Concurrency.History
import ConductorRs.Metatheory.ControlRequests
import ConductorRs.Metatheory.ControlRequestsRuns
import ConductorRs.Metatheory.QuantityGrammar
import ConductorRs.Metatheory.ProxyParams
import ConductorRs.Core.RollupBoostHealth
import ConductorRs.Metatheory.LimitedBody
import ConductorRs.Metatheory.StoreMemory
import ConductorRs.Metatheory.SnapshotTrigger
import ConductorRs.Metatheory.ProcessProgress
import ConductorRs.Metatheory.FlashblocksFeedRuns
import ConductorRs.Metatheory.FlashblocksProgress
import ConductorRs.Metatheory.RpcWire
import ConductorRs.Metatheory.RpcRelay
import ConductorRs.Metatheory.NodeClients
import ConductorRs.Metatheory.FleetSettles
import ConductorRs.Metatheory.PayloadLinear
import ConductorRs.Metatheory.Failover
import ConductorRs.Metatheory.NodeLives
import ConductorRs.Metatheory.MetricsHistograms
import ConductorRs.Metatheory.WebsocketPosts
