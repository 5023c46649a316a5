import MultAIplayer.Lib.InsertionMap
import MultAIplayer.Protocol.Records
import MultAIplayer.Lib.Json
import MultAIplayer.Lib.Text
import MultAIplayer.Lib.IsoDate
import MultAIplayer.Lib.RankedLog
import MultAIplayer.Protocol.RelayMessages
import MultAIplayer.Relay.Limits
import MultAIplayer.Relay.Store
import MultAIplayer.Relay.StoreMutations
import MultAIplayer.Relay.Sqlite
import MultAIplayer.Relay.Persistence
import MultAIplayer.Lib.Machine
import MultAIplayer.Relay.WriteThrough
import MultAIplayer.Relay.Domain
import MultAIplayer.Relay.Publish
import MultAIplayer.Relay.Transactions
import MultAIplayer.Relay.Http
import MultAIplayer.Relay.TeamRoutes
import MultAIplayer.Relay.RoomRoutes
import MultAIplayer.Relay.AccountRoutes
import MultAIplayer.Relay.KeyPackageRoutes
import MultAIplayer.Relay.InviteRoutes
import MultAIplayer.Relay.Requests
import MultAIplayer.Relay.Leaving
import MultAIplayer.Relay.Presence
import MultAIplayer.Relay.Reclaim
import MultAIplayer.Relay.Representable
import MultAIplayer.Relay.DurableLog
import MultAIplayer.Lib.Tally
import MultAIplayer.Relay.Capacity
import MultAIplayer.Relay.Accounting
import MultAIplayer.Relay.Keys
import MultAIplayer.Lib.WaitingLines
import MultAIplayer.Relay.AccountTurns
import MultAIplayer.Mls.Policy
import MultAIplayer.Mls.HostRules
import MultAIplayer.Mls.Group
import MultAIplayer.Mls.Storage
import MultAIplayer.Mls.Engine
import MultAIplayer.Mls.Operations
import MultAIplayer.Mls.HostAuthority
import MultAIplayer.Mls.Effects
import MultAIplayer.Mls.Runs
import MultAIplayer.Mls.PendingCommits
import MultAIplayer.Mls.FailedOperations
import MultAIplayer.Lib.JsonDecode
import MultAIplayer.Lib.Replicas
import MultAIplayer.Desktop.CodexRuntime
import MultAIplayer.Desktop.CodexQueue
import MultAIplayer.Desktop.CodexReplicas
import MultAIplayer.Desktop.ChatMessages
import MultAIplayer.Desktop.ChatReplicas
import MultAIplayer.Desktop.RelayInbox
import MultAIplayer.Desktop.HistoryWriteQueue
import MultAIplayer.Desktop.HistoryLines
import MultAIplayer.Desktop.HistoryQueueRuns
import MultAIplayer.Desktop.HistoryQueueContract
import MultAIplayer.Lib.Like
import MultAIplayer.Mls.KeyedStorage
import MultAIplayer.Mls.RoomIsolation
import MultAIplayer.Mls.RoomOperations
import MultAIplayer.Mls.RoomCollisions
import MultAIplayer.Native.Validation
import MultAIplayer.Native.CommandSafety
import MultAIplayer.Native.ShellAuthorization
import MultAIplayer.Lib.History
import MultAIplayer.Native.ShellRuns
import MultAIplayer.Native.Value
import MultAIplayer.Native.CodexAuthorization
import MultAIplayer.Native.CodexRequests
import MultAIplayer.Native.CodexAnswers
import MultAIplayer.Native.CodexAnswerRuns
import MultAIplayer.Native.CodexTurns
import MultAIplayer.Native.CodexShutdown
import MultAIplayer.Native.CodexActivity
import MultAIplayer.Native.CodexSession
import MultAIplayer.Native.CodexSessionRuns
import MultAIplayer.Protocol.HostHandoff
import MultAIplayer.Cli.Handoff
import MultAIplayer.Desktop.HostHandoffs
import MultAIplayer.Cli.HandoffAgreement
import MultAIplayer.Cli.RoomEvents
import MultAIplayer.Cli.RoomRuns
import MultAIplayer.Desktop.RoomArchive
import MultAIplayer.Desktop.RoomConfig
import MultAIplayer.Desktop.RoomConfigRuns
import MultAIplayer.Relay.RateLimit
import MultAIplayer.Relay.AccountQuotas
import MultAIplayer.Relay.ReceiptPools
import MultAIplayer.Relay.PublishRollback
import MultAIplayer.Relay.InviteRequestSaves
import MultAIplayer.Relay.Restrictions
import MultAIplayer.Relay.Attachments
import MultAIplayer.Relay.AckRetries
import MultAIplayer.Relay.SignIns
import MultAIplayer.Mls.DomainSeparation
import MultAIplayer.Desktop.HandoffSelection
import MultAIplayer.Desktop.ConsumedMessages
import MultAIplayer.Mls.RoomDeletion
import MultAIplayer.Mls.StagedWrites
import MultAIplayer.Desktop.OutboxDrain
import MultAIplayer.Desktop.InviteWaits
import MultAIplayer.Desktop.InviteWaitRuns
import MultAIplayer.Desktop.InviteRecovery
import MultAIplayer.Desktop.CodexTurnInput
import MultAIplayer.Desktop.CodexTurnBounds
import MultAIplayer.Desktop.CodexApprovals
import MultAIplayer.Desktop.CodexAttribution
import MultAIplayer.Native.TerminalRedaction
import MultAIplayer.Native.TerminalChunks
import MultAIplayer.Desktop.CodexThreads
import MultAIplayer.Desktop.CodexThreadGraphs
import MultAIplayer.Native.PermissionPaths
import MultAIplayer.Native.ActivityContract
import MultAIplayer.Lib.Retention
import MultAIplayer.Desktop.ThreadGraphNormal
import MultAIplayer.Desktop.HistoryRetention
import MultAIplayer.Lib.LinkTreeWrites
import MultAIplayer.Native.ProjectFiles
import MultAIplayer.Native.ProjectConfinement
import MultAIplayer.Native.PatchFidelity
import MultAIplayer.Desktop.MarkdownConfinement
