import CppJam.App.Entries
import CppJam.App.FalseAlarms
import CppJam.App.Samples
import CppJam.App.Watchdog
import CppJam.AppState.Callbacks
import CppJam.AppState.ConcurrentShutdown
import CppJam.AppState.Ledger
import CppJam.AppState.LifeCycle
import CppJam.AppState.PrepareStage
import CppJam.AppState.ShutdownStage
import CppJam.AppState.StateManager
import CppJam.AppState.Steps
import CppJam.Asn1.CTypes
import CppJam.Asn1.DeclarationOrder
import CppJam.Asn1.GeneratedValues
import CppJam.Asn1.IntegerTypes
import CppJam.Asn1.ParseTypes
import CppJam.Asn1.Schema
import CppJam.Asn1.Values
import CppJam.Authorizations.Cores
import CppJam.Authorizations.IndexSafety
import CppJam.Authorizations.Isolation
import CppJam.Authorizations.PerCoreLaw
import CppJam.Authorizations.PoolInvariant
import CppJam.Authorizations.Pools
import CppJam.Authorizations.Transition
import CppJam.Bisection
import CppJam.Bytes
import CppJam.Cells
import CppJam.Channel.Endpoints
import CppJam.Channel.LinkedSessions
import CppJam.Channel.Links
import CppJam.Channel.Mailbox
import CppJam.Channel.Moves
import CppJam.Channel.Sessions
import CppJam.Checks
import CppJam.Codecs
import CppJam.Common
import CppJam.Configurator.CalculateConfig
import CppJam.Configurator.Options
import CppJam.Configurator.Precedence
import CppJam.Configurator.Reading
import CppJam.Configurator.Sections
import CppJam.Configurator.Stages
import CppJam.Configurator.Validation
import CppJam.Containers.Grouping
import CppJam.Containers.KeyedSet
import CppJam.Containers.Multimap
import CppJam.Containers.OrderedMap
import CppJam.Containers.OutsideIn
import CppJam.Containers.Selections
import CppJam.Containers.Smallest
import CppJam.Containers.StableQueue
import CppJam.Containers.Traversal
import CppJam.Containers.WeighedMap
import CppJam.Crypto.Keccak
import CppJam.Crypto.KeccakHash
import CppJam.Crypto.KeccakRounds
import CppJam.Crypto.Permutation
import CppJam.Dispatcher.Progress
import CppJam.Dispatcher.Quiescence
import CppJam.Dispatcher.Routing
import CppJam.Dispatcher.TaskCounter
import CppJam.Dispatcher.TemporaryHandlers
import CppJam.Dispatcher.Threads
import CppJam.Dispatcher.Upload
import CppJam.Disputes.Acceptance
import CppJam.Disputes.Backing
import CppJam.Disputes.Classification
import CppJam.Disputes.CoreClearing
import CppJam.Disputes.Counting
import CppJam.Disputes.CulpritSoundness
import CppJam.Disputes.Effects
import CppJam.Disputes.ErrorOrder
import CppJam.Disputes.Evidence
import CppJam.Disputes.FaultCompleteness
import CppJam.Disputes.FaultSoundness
import CppJam.Disputes.GroupIteration
import CppJam.Disputes.JudgedOnce
import CppJam.Disputes.MultimapGroups
import CppJam.Disputes.Offenders
import CppJam.Disputes.PastVerdicts
import CppJam.Disputes.Refinement
import CppJam.Disputes.Replay
import CppJam.Disputes.State
import CppJam.Disputes.Transition
import CppJam.Disputes.ValidatingLoops
import CppJam.Disputes.Votes
import CppJam.Graphs
import CppJam.Hex
import CppJam.Histories
import CppJam.History.Commitment
import CppJam.History.Peaks
import CppJam.History.Transition
import CppJam.History.Window
import CppJam.Metrics.Connections
import CppJam.Metrics.Exposer
import CppJam.Metrics.PrometheusHandler
import CppJam.Metrics.Session
import CppJam.Mixing
import CppJam.Modules.Exchange
import CppJam.Modules.Loading
import CppJam.Modules.Node
import CppJam.Modules.Posting
import CppJam.Modules.Search
import CppJam.Modules.Silence
import CppJam.Modules.Steps
import CppJam.Modules.Worker
import CppJam.MountainRange.Positions
import CppJam.MountainRange.Ranges
import CppJam.MountainRange.Trees
import CppJam.Parsers.Quantity
import CppJam.Parsers.QuantityLaw
import CppJam.Parsers.Reading
import CppJam.ProgramOptions
import CppJam.Runs
import CppJam.Safrole.Acceptance
import CppJam.Safrole.Accumulator
import CppJam.Safrole.Blocks
import CppJam.Safrole.EntropyHistory
import CppJam.Safrole.EpochMark
import CppJam.Safrole.RingConsistency
import CppJam.Safrole.SealingSeries
import CppJam.Safrole.Sequencing
import CppJam.Safrole.Shape
import CppJam.Safrole.State
import CppJam.Safrole.TicketOrder
import CppJam.Safrole.Transition
import CppJam.Safrole.ValidatorPipeline
import CppJam.Safrole.WinningTickets
import CppJam.Scale.ConfigVec
import CppJam.Scale.RoundTrip
import CppJam.Scanning
import CppJam.Scheduler.BusyFlag
import CppJam.Scheduler.Disposal
import CppJam.Scheduler.Ordering
import CppJam.Scheduler.Process
import CppJam.Scheduler.Progress
import CppJam.Scheduler.QueueInvariant
import CppJam.Scheduler.Untimed
import CppJam.Scheduler.WakeUps
import CppJam.Scheduler.Worker
import CppJam.Slots
import CppJam.Sponge
import CppJam.Storage.BatchRefinement
import CppJam.Storage.Cursor
import CppJam.Storage.InMemory
import CppJam.Storage.Interchange
import CppJam.Storage.Interface
import CppJam.Storage.RocksCalls
import CppJam.Storage.RocksDb
import CppJam.Storage.Sessions
import CppJam.Storage.SizeAccounting
import CppJam.Storage.Traversal
import CppJam.Storage.Walks
import CppJam.Storage.Writes
import CppJam.Stores
import CppJam.Subscriptions.Book
import CppJam.Subscriptions.Bookkeeping
import CppJam.Subscriptions.Consistency
import CppJam.Subscriptions.Engine
import CppJam.Subscriptions.EngineIdentity
import CppJam.Subscriptions.Murmur2
import CppJam.Subscriptions.Removal
import CppJam.Subscriptions.Steps
import CppJam.Types
import CppJam.Utils.FdLimit
import CppJam.Utils.PortSearch
import CppJam.Yaml
