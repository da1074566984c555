import RedisClone.Lib.Decimal
import RedisClone.Lib.ByteStream
import RedisClone.Lib.Execution
import RedisClone.Lib.CallStack
import RedisClone.Util.Text
import RedisClone.Store.Store
import RedisClone.Store.StreamIdUtils
import RedisClone.Store.StreamStore
import RedisClone.Store.StreamOrder
import RedisClone.Resp.RespValue
import RedisClone.Resp.RespParser
import RedisClone.Resp.RoundTrip
import RedisClone.Resp.ParsedValues
import RedisClone.State.BlockingManager
import RedisClone.State.WatchManager
import RedisClone.Command.Command
import RedisClone.Command.TransactionManager
import RedisClone.Command.DataCommands
import RedisClone.Command.ClockFree
import RedisClone.Command.Expiry
import RedisClone.Command.ErrorReplies
import RedisClone.Command.DataTransitions
import RedisClone.Net.Connection
import RedisClone.Net.Framing
import RedisClone.Replication.ReplicationSession
import RedisClone.Replication.ReplicaStream
import RedisClone.Replication.ReplicaRegistry
import RedisClone.Command.ReplicationCommands
import RedisClone.Command.InfoCommand
import RedisClone.Command.Replies
import RedisClone.Replication.Cluster
import RedisClone.Replication.Attachment
import RedisClone.Replication.LinkInvariant
import RedisClone.Replication.Offsets
import RedisClone.Server.State
import RedisClone.Server.StoreThread
import RedisClone.Server.Transitions
import RedisClone.Server.Provenance
import RedisClone.Server.Propagation
import RedisClone.Server.Discipline
import RedisClone.Server.AutoIds
import RedisClone.Server.Watching
import RedisClone.Server.WatchReasons
import RedisClone.Server.WatchConflicts
import RedisClone.Server.ReplyFormat
import RedisClone.Server.Blocked
import RedisClone.Lib.Deque
import RedisClone.Command.ListMovements
import RedisClone.State.Serving
import RedisClone.State.RegistryRuns
import RedisClone.State.ServingOrder
import RedisClone.Server.Callbacks
import RedisClone.Server.Completion
import RedisClone.Server.ListConservation
import RedisClone.Command.Exceptions
import RedisClone.Server.Continuations
import RedisClone.Server.Termination
import RedisClone.Server.Escape
import RedisClone.Lib.Frame
import RedisClone.Command.Footprint
import RedisClone.Command.KeyspaceTypes
import RedisClone.Command.ListExpiry
import RedisClone.Server.ReadOnly
import RedisClone.Server.Transactions
import RedisClone.Server.WatchMirror
import RedisClone.Net.Handshake
import RedisClone.Server.ReplicationHandlers
import RedisClone.Net.Teardown
import RedisClone.Server.Coherence
import RedisClone.Server.ExecSteps
import RedisClone.Server.ExecQueue
import RedisClone.Server.ExecIsolation
import RedisClone.Server.Convergence
import RedisClone.Store.StreamAutoIds
import RedisClone.Store.StreamQueries
import RedisClone.Resp.ParserLoop
import RedisClone.Resp.StrictEncoding
import RedisClone.Command.ArrayReplies
import RedisClone.Server.ServedWaiters
import RedisClone.Server.ManagerView
import RedisClone.Server.StreamWaiters
import RedisClone.Server.BlockingConvergence
import RedisClone.Resp.RecursiveDescent
import RedisClone.Command.Numbers
import RedisClone.Command.ListArguments
import RedisClone.Command.Counters
import RedisClone.Command.Deadlines
import RedisClone.Command.XreadArguments
import RedisClone.Replication.Joining
import RedisClone.Replication.JointHandshake
import RedisClone.Replication.Acknowledgements
import RedisClone.Server.OwnTransaction
import RedisClone.Server.AnsweredRequests
import RedisClone.Server.Startup
import RedisClone.Server.ReplyFraming
