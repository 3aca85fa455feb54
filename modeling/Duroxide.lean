import Duroxide.Lib.Database
import Duroxide.Lib.DepthFirst
import Duroxide.Lib.Forest
import Duroxide.Lib.Integrity
import Duroxide.Lib.Json
import Duroxide.Lib.KeyedTable
import Duroxide.Lib.Overlay
import Duroxide.Lib.OverlayKeys
import Duroxide.Lib.Projection
import Duroxide.Lib.Rank
import Duroxide.Lib.Register
import Duroxide.Lib.Run
import Duroxide.Lib.Slots
import Duroxide.Lib.Sql
import Duroxide.Model.Admin
import Duroxide.Model.Client
import Duroxide.Model.Context
import Duroxide.Model.DispatchLoop
import Duroxide.Model.Dispatcher
import Duroxide.Model.Event
import Duroxide.Model.Execution
import Duroxide.Model.FetchQuery
import Duroxide.Model.Heartbeats
import Duroxide.Model.History
import Duroxide.Model.LockCalls
import Duroxide.Model.Orchestration
import Duroxide.Model.Persistence
import Duroxide.Model.Polls
import Duroxide.Model.Provider
import Duroxide.Model.Pruning
import Duroxide.Model.Registry
import Duroxide.Model.ReplayEngine
import Duroxide.Model.Retry
import Duroxide.Model.Runtimes
import Duroxide.Model.SessionTracker
import Duroxide.Model.Store
import Duroxide.Model.System
import Duroxide.Model.TursoPool
import Duroxide.Model.TypedCodec
import Duroxide.Model.WorkItem
import Duroxide.Model.WorkerQueue
import Duroxide.Proofs.ActionReadings
import Duroxide.Proofs.Awaited
import Duroxide.Proofs.Backoffs
import Duroxide.Proofs.Batches
import Duroxide.Proofs.Bindings
import Duroxide.Proofs.CapabilityFilter
import Duroxide.Proofs.CarryForward
import Duroxide.Proofs.CascadingDelete
import Duroxide.Proofs.ChildNames
import Duroxide.Proofs.ChildResults
import Duroxide.Proofs.Coherence
import Duroxide.Proofs.Completions
import Duroxide.Proofs.Conservation
import Duroxide.Proofs.ContextCalls
import Duroxide.Proofs.ContinuedChildren
import Duroxide.Proofs.CustomStatus
import Duroxide.Proofs.Deletion
import Duroxide.Proofs.Determinism
import Duroxide.Proofs.DropBreadcrumbs
import Duroxide.Proofs.DropRecords
import Duroxide.Proofs.DropRuns
import Duroxide.Proofs.DroppedFutures
import Duroxide.Proofs.DuplicateStarts
import Duroxide.Proofs.Evaluation
import Duroxide.Proofs.EventIdentity
import Duroxide.Proofs.ExecutedTurns
import Duroxide.Proofs.ExternalDelivery
import Duroxide.Proofs.ExternalSlots
import Duroxide.Proofs.FetchProgress
import Duroxide.Proofs.FetchQuery
import Duroxide.Proofs.GivenBack
import Duroxide.Proofs.HandedOver
import Duroxide.Proofs.Heartbeats
import Duroxide.Proofs.Histories
import Duroxide.Proofs.HistoryForm
import Duroxide.Proofs.KeyLimit
import Duroxide.Proofs.KeyPruning
import Duroxide.Proofs.KeyValueReplay
import Duroxide.Proofs.KeyValueTables
import Duroxide.Proofs.KeyValueViews
import Duroxide.Proofs.LeafFirst
import Duroxide.Proofs.Lifecycle
import Duroxide.Proofs.LiveStretches
import Duroxide.Proofs.Mailboxes
import Duroxide.Proofs.Matching
import Duroxide.Proofs.OrderlyInstances
import Duroxide.Proofs.OutcomeViews
import Duroxide.Proofs.OutstandingWaits
import Duroxide.Proofs.ParentLinks
import Duroxide.Proofs.PeekLock
import Duroxide.Proofs.Persistence
import Duroxide.Proofs.PollRecords
import Duroxide.Proofs.Provenance
import Duroxide.Proofs.ProviderCalls
import Duroxide.Proofs.Pruning
import Duroxide.Proofs.PruningRuns
import Duroxide.Proofs.QueueDelivery
import Duroxide.Proofs.QueueTables
import Duroxide.Proofs.QueuedActivities
import Duroxide.Proofs.Quiescence
import Duroxide.Proofs.RaisedEvents
import Duroxide.Proofs.Recording
import Duroxide.Proofs.Redelivery
import Duroxide.Proofs.RejectedTurns
import Duroxide.Proofs.ReplayCompletions
import Duroxide.Proofs.Requests
import Duroxide.Proofs.Retry
import Duroxide.Proofs.ScheduledWork
import Duroxide.Proofs.SessionAffinity
import Duroxide.Proofs.SessionCapacity
import Duroxide.Proofs.SettledLocks
import Duroxide.Proofs.StartedChildren
import Duroxide.Proofs.StatusReads
import Duroxide.Proofs.Steps
import Duroxide.Proofs.Succession
import Duroxide.Proofs.TerminalEvents
import Duroxide.Proofs.TerminalNotices
import Duroxide.Proofs.TimerDelays
import Duroxide.Proofs.TransientErrors
import Duroxide.Proofs.TurnActivities
import Duroxide.Proofs.Turnovers
import Duroxide.Proofs.Turns
import Duroxide.Proofs.TursoPool
import Duroxide.Proofs.TypedValues
import Duroxide.Proofs.UndecodableRows
import Duroxide.Proofs.VersionPinning
import Duroxide.Proofs.WorkerCalls
import Duroxide.Proofs.WorkerLocks
