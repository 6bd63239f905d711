import Empyralis.Gateway.BatchShell
import Empyralis.Gateway.ChannelMarkdown
import Empyralis.Gateway.CheckpointSeq
import Empyralis.Gateway.CheckpointUpdates
import Empyralis.Gateway.Checkpoints
import Empyralis.Gateway.Client
import Empyralis.Gateway.Codec
import Empyralis.Gateway.CommandPolicy
import Empyralis.Gateway.CredentialRedactor
import Empyralis.Gateway.Delivery
import Empyralis.Gateway.Journal
import Empyralis.Gateway.MarkdownElements
import Empyralis.Gateway.MarkdownParts
import Empyralis.Gateway.MarkdownRendering
import Empyralis.Gateway.MessageChunker
import Empyralis.Gateway.Outbox
import Empyralis.Gateway.OutboxConcurrency
import Empyralis.Gateway.OutboxLifecycle
import Empyralis.Gateway.PendingResponses
import Empyralis.Gateway.ProtectedPaths
import Empyralis.Gateway.ReplayFrames
import Empyralis.Gateway.Requests
import Empyralis.Gateway.SeqLane
import Empyralis.Gateway.SeqLaneOrder
import Empyralis.Gateway.VersionCompare
import Empyralis.Kernel.Authorization
import Empyralis.Kernel.GatewayFrame
import Empyralis.Kernel.GatewayState
import Empyralis.Kernel.HardBlock
import Empyralis.Kernel.Lease
import Empyralis.Kernel.LocalWorker
import Empyralis.Kernel.LocalWorkerStops
import Empyralis.Kernel.PathGuard
import Empyralis.Kernel.Policy
import Empyralis.Kernel.PolicyTightening
import Empyralis.Kernel.Protocol
import Empyralis.Kernel.Queue
import Empyralis.Kernel.QueueItem
import Empyralis.Kernel.QueueOwnership
import Empyralis.Kernel.QueueTerminality
import Empyralis.Kernel.Redaction
import Empyralis.Kernel.Risk
import Empyralis.Kernel.RunRecord
import Empyralis.Kernel.SchedulerCommand
import Empyralis.Kernel.SessionScheduler
import Empyralis.Kernel.StateStore
import Empyralis.Kernel.StateTransition
import Empyralis.Lib.Baton
import Empyralis.Lib.BoundedInt
import Empyralis.Lib.BoundedLog
import Empyralis.Lib.Chain
import Empyralis.Lib.FileTree
import Empyralis.Lib.FixedWindow
import Empyralis.Lib.Grouping
import Empyralis.Lib.Iterate
import Empyralis.Lib.Keeps
import Empyralis.Lib.Latest
import Empyralis.Lib.LeastFirst
import Empyralis.Lib.NextSlot
import Empyralis.Lib.NodePath
import Empyralis.Lib.Occurrence
import Empyralis.Lib.OwnLock
import Empyralis.Lib.PaddedLex
import Empyralis.Lib.ReadModifyWrite
import Empyralis.Lib.Recency
import Empyralis.Lib.Recurring
import Empyralis.Lib.Run
import Empyralis.Lib.Scan
import Empyralis.Lib.SerializedFile
import Empyralis.Lib.SnapshotCalls
import Empyralis.Lib.Sql
import Empyralis.Lib.SuffixCut
import Empyralis.Lib.Sweep
import Empyralis.Lib.Table
import Empyralis.Lib.Text
import Empyralis.Lib.Traced
import Empyralis.Lib.Words
import Empyralis.Server.ActorQueue
import Empyralis.Server.ApprovalObedience
import Empyralis.Server.Approvals
import Empyralis.Server.BillingPlans
import Empyralis.Server.ChannelLeases
import Empyralis.Server.ChildLineages
import Empyralis.Server.ChildRetries
import Empyralis.Server.ChildRuns
import Empyralis.Server.ClaimSelection
import Empyralis.Server.ClaimedRuns
import Empyralis.Server.Compaction
import Empyralis.Server.ComputerMetering
import Empyralis.Server.ControlStream
import Empyralis.Server.ControlStreamGaps
import Empyralis.Server.CostCap
import Empyralis.Server.CreditDebits
import Empyralis.Server.CreditOrderRuns
import Empyralis.Server.CreditOrders
import Empyralis.Server.CreditRuns
import Empyralis.Server.DagOrder
import Empyralis.Server.DelegationReadiness
import Empyralis.Server.DispatchOutcomes
import Empyralis.Server.DuePolicy
import Empyralis.Server.DurableClaims
import Empyralis.Server.EmailCodes
import Empyralis.Server.ExternalWrite
import Empyralis.Server.FrameAcceptance
import Empyralis.Server.GatewayFrames
import Empyralis.Server.GatewayPairing
import Empyralis.Server.GatewayRevocation
import Empyralis.Server.GatewaySessions
import Empyralis.Server.GatewayTrust
import Empyralis.Server.GoalBounds
import Empyralis.Server.GoalScans
import Empyralis.Server.HeartbeatRuns
import Empyralis.Server.HeartbeatTurns
import Empyralis.Server.InboundFrames
import Empyralis.Server.InvokeWrites
import Empyralis.Server.LaneQueue
import Empyralis.Server.LaneQueueRuns
import Empyralis.Server.LeaseGates
import Empyralis.Server.LeaseRuns
import Empyralis.Server.LiveConnections
import Empyralis.Server.LiveRunSnapshots
import Empyralis.Server.LocalFailures
import Empyralis.Server.LocalRuntimeState
import Empyralis.Server.MachineLeases
import Empyralis.Server.OAuthConsents
import Empyralis.Server.OAuthGrants
import Empyralis.Server.OAuthRevocation
import Empyralis.Server.OAuthRotation
import Empyralis.Server.OAuthSteps
import Empyralis.Server.OutboxDelivery
import Empyralis.Server.OutboxRows
import Empyralis.Server.PendingInvokes
import Empyralis.Server.PilotInvites
import Empyralis.Server.PlanHistories
import Empyralis.Server.QueueCleanup
import Empyralis.Server.QuotaWindows
import Empyralis.Server.RestartRecovery
import Empyralis.Server.RetryPlans
import Empyralis.Server.RunState
import Empyralis.Server.RunTransitions
import Empyralis.Server.SchedulerGates
import Empyralis.Server.SelfUpdate
import Empyralis.Server.SessionTurns
import Empyralis.Server.SettingsUpdates
import Empyralis.Server.StaleCleanup
import Empyralis.Server.StaleLeases
import Empyralis.Server.StaleRecovery
import Empyralis.Server.StrandedWakes
import Empyralis.Server.TerminalSnapshots
import Empyralis.Server.Tokens
import Empyralis.Server.TransitionEvents
import Empyralis.Server.TransitionLog
import Empyralis.Server.TurnErrands
import Empyralis.Server.UsageReservations
import Empyralis.Server.Values
import Empyralis.Server.WakeBundles
import Empyralis.Server.WakeCeilings
import Empyralis.Server.WakeDelivery
import Empyralis.Server.WakeProducers
import Empyralis.Server.WakeRequests
import Empyralis.Server.WakeRetries
import Empyralis.Server.WakeStatuses
import Empyralis.Server.WeeklyScheduler
import Empyralis.Server.WorkerCalls
import Empyralis.Server.WorkflowBranches
import Empyralis.Server.WorkflowExpressions
import Empyralis.Server.WorkflowGraph
import Empyralis.Server.WorkflowLimits
import Empyralis.Server.WorkflowParallel
import Empyralis.Server.Workspaces
