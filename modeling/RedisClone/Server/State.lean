import RedisClone.Command.DataCommands
import RedisClone.Command.ReplicationCommands
import RedisClone.Command.TransactionManager
import RedisClone.Net.Connection
import RedisClone.State.BlockingManager

/-!
# The state of the store thread

Everything that runs on the store thread: the keyspace, the registries of
blocked clients and watched keys, one transaction manager for each command
handler, the replica registry, and the objects that suspended commands leave
behind, which are timers, contexts of {lit}`EXEC` and polling {lit}`WAIT`
commands.

A {lit}`std::function<void(std::string)>` that commands call back is one of four
closures of the source, so it is an inductive type here.  Objects that closures
share are named by their position in a list that only grows.

The trace is a history: which requests were handled, which commands were
executed, what was replied and what was handed to the replicas.
-/

namespace RedisClone

/-! ## Handlers and callbacks -/

/-- The {lit}`CommandHandler` objects: two for each connection, and the one of the
replication session. -/
inductive HandlerId where
  /-- {lit}`Connection::client_handler_`. -/
  | client (connection : Nat)
  /-- {lit}`Connection::replication_handler_`. -/
  | replication (connection : Nat)
  /-- {lit}`ReplicationSession::handler_`. -/
  | session
deriving DecidableEq, Repr

/-- The command registry of a handler. -/
def HandlerId.kind : HandlerId → RegistryKind
  | .client _ => .client
  | .replication _ => .replication
  | .session => .client

/-- The handlers of connections hold the replica registry; the handler of the
replication session is made without one. -/
def HandlerId.hasReplicaRegistry : HandlerId → Bool
  | .session => false
  | _ => true

/-- {lit}`CommandRegistry::find` in the registries that
{lit}`build_client_registry` and {lit}`build_replication_registry` make. -/
def findCommand : RegistryKind → CommandType → Bool
  | .replication, type => type = .ping ∨ type = .replconf ∨ type = .psync
  | .client, type => type ≠ .replconf ∧ type ≠ .psync ∧ type ≠ .unknown

/-- The callbacks that a command may be given. -/
inductive OnReply where
  /-- {lit}`write_response` of the connection that sent a request. -/
  | connection (request : Nat)
  /-- The empty callback of the replication session. -/
  | discard
  /-- {lit}`propagating_reply` of the dispatcher around {lit}`write_response`. -/
  | propagating (request : Nat) (raw : Bytes)
  /-- The callback that {lit}`run_next` of {lit}`EXEC` gives to a queued command. -/
  | exec (context : Nat) (type : CommandType) (request : RespValue)
deriving DecidableEq

/-- The callback that a handler is called with. -/
def HandlerId.onReply (h : HandlerId) (request : Nat) : OnReply :=
  if h = .session then .discard else .connection request

/-! ## Objects that closures share -/

/-- {lit}`Context` of {lit}`ExecCommand::execute`, with what {lit}`run_next`
captures besides. -/
structure ExecContext where
  handler : HandlerId
  onReply : OnReply
  index : Nat
  results : List Bytes
  commands : List RespValue
deriving DecidableEq

/-- The wait of a timer.  Cancelling has no effect once the handler is queued. -/
inductive TimerStatus where
  | armed
  /-- The expiry is {lit}`time_point::max()`. -/
  | never
  /-- The timer expired and its handler is queued. -/
  | queued
  /-- The handler ran, or the wait was cancelled. -/
  | done
deriving DecidableEq, Repr

/-- The registry that a blocked client waits in. -/
inductive BlockKind where
  | blpop
  | xread
deriving DecidableEq, Repr

/-- The timer of a blocked client, with what its handler captures. -/
structure Timer where
  kind : BlockKind
  registration : Nat
  onReply : OnReply
  status : TimerStatus
deriving DecidableEq

/-- {lit}`steady_timer::cancel`. -/
def Timer.cancel (t : Timer) : Timer :=
  match t.status with
  | .armed => { t with status := .done }
  | .never => { t with status := .done }
  | _ => t

/-- The callback that {lit}`BLPOP` registers. -/
structure BlpopCallback where
  onReply : OnReply
  timer : Nat
deriving DecidableEq

/-- The callback that {lit}`XREAD` registers. -/
structure XreadCallback where
  onReply : OnReply
  timer : Nat
  streams : List (Bytes × Bytes)
deriving DecidableEq

/-- A {lit}`WAIT` that polls. -/
structure WaitState where
  wait : PendingWait
  onReply : OnReply
  active : Bool
deriving DecidableEq

/-! ## The server -/

/-- What happened on the store thread. -/
inductive TraceEntry where
  /-- {lit}`CommandHandler::handle` was called for a request. -/
  | handled (number : Nat) (handler : HandlerId) (request : RespValue)
  /-- A command ran; an exception of the command itself leaves no entry. -/
  | executed (handler : HandlerId) (type : CommandType) (request : RespValue)
  /-- {lit}`write_response` was called for a request. -/
  | replied (number : Nat) (response : Bytes)
  /-- {lit}`ReplicaRegistry::propagate` handed bytes to these replicas. -/
  | propagated (raw : Bytes) (replicas : List Nat)
deriving DecidableEq

/-- The state that the store thread works on. -/
structure Server where
  data : Store
  blpop : BlockingRegistry BlpopCallback
  xread : BlockingRegistry XreadCallback
  watches : WatchManager HandlerId
  transactions : HandlerId → TransactionManager
  replicas : ReplicaRegistry
  contexts : List ExecContext
  timers : List Timer
  waits : List WaitState
  /-- Requests handled so far. -/
  requests : Nat
  /-- Clock readings taken so far. -/
  readings : Nat
  trace : List TraceEntry

namespace Server

/-- A server that was just started. -/
@[simps]
def initial : Server where
  data := .empty
  blpop := .empty
  xread := .empty
  watches := .empty
  transactions := fun _ => .fresh
  replicas := .empty
  contexts := []
  timers := []
  waits := []
  requests := 0
  readings := 0
  trace := []

/-- Add to the history. -/
@[simps]
def record (s : Server) (entry : TraceEntry) : Server :=
  { s with trace := s.trace ++ [entry] }

/-- {lit}`ReplicaRegistry::propagate`. -/
@[simps]
def propagate (s : Server) (raw : Bytes) : Server :=
  { s with
    replicas := s.replicas.propagate raw
    trace := s.trace ++ [.propagated raw (s.replicas.replicas.map Prod.fst)] }

/-- The data and the clock readings behind a command. -/
@[simps]
def withData (s : Server) (d : Store) : Server :=
  { s with data := d, readings := s.readings + 1 }

/-- The data behind a pop for a blocked client. -/
@[simps]
def setData (s : Server) (d : Store) : Server :=
  { s with data := d }

/-- A clock reading is taken. -/
@[simps]
def countReading (s : Server) : Server :=
  { s with readings := s.readings + 1 }

/-- A request is taken up. -/
@[simps]
def countRequest (s : Server) : Server :=
  { s with requests := s.requests + 1 }

/-- The replica registry as a network thread leaves it. -/
@[simps]
def setReplicas (s : Server) (registry : ReplicaRegistry) : Server :=
  { s with replicas := registry }

/-- Replace the transaction of a handler, and the watched keys. -/
@[simps]
def setTransaction (s : Server) (h : HandlerId)
    (change : TransactionManager × WatchManager HandlerId) : Server :=
  { s with transactions := Function.update s.transactions h change.1, watches := change.2 }

/-- {lit}`WatchManager::notify_write`: the callbacks mark transactions as dirty. -/
@[simps]
def notifyWrite (s : Server) (key : Bytes) : Server :=
  { s with
    transactions := fun h =>
      if h ∈ s.watches.notified key then (s.transactions h).markDirty else s.transactions h }

/-- A new context. -/
@[simps]
def addContext (s : Server) (c : ExecContext) : Server :=
  { s with contexts := s.contexts ++ [c] }

/-- Replace a context. -/
@[simps]
def setContext (s : Server) (context : Nat) (c : ExecContext) : Server :=
  { s with contexts := s.contexts.set context c }

/-- Replace a timer. -/
@[simps]
def setTimer (s : Server) (timer : Nat) (t : Timer) : Server :=
  { s with timers := s.timers.set timer t }

/-- A {lit}`WAIT` that starts to poll. -/
@[simps]
def addWait (s : Server) (w : WaitState) : Server :=
  { s with waits := s.waits ++ [w] }

/-- Replace a {lit}`WAIT`. -/
@[simps]
def setWait (s : Server) (wait : Nat) (w : WaitState) : Server :=
  { s with waits := s.waits.set wait w }

/-- {lit}`BlockingManager::unregister_blpop`. -/
@[simps]
def unregisterBlpop (s : Server) (id : Nat) : Server :=
  { s with blpop := s.blpop.unregister id }

/-- {lit}`BlockingManager::unregister_xread`. -/
@[simps]
def unregisterXread (s : Server) (id : Nat) : Server :=
  { s with xread := s.xread.unregister id }

/-- Cancel a timer. -/
@[simps]
def cancelTimer (s : Server) (timer : Nat) : Server :=
  { s with timers := s.timers.modify timer Timer.cancel }

/-- {lit}`expires_after` and {lit}`expires_at`, followed by {lit}`async_wait`. -/
def timerStatus (timeout : Double) : TimerStatus :=
  if timeout.positive then .armed else .never

/-- The blocking part of {lit}`BlpopCommand::execute`. -/
@[simps]
def blockBlpop (s : Server) (keys : List Bytes) (timeout : Double) (onReply : OnReply) : Server :=
  { s with
    blpop := (s.blpop.registerCallbacks keys ⟨onReply, s.timers.length⟩).1
    timers := s.timers ++
      [⟨.blpop, (s.blpop.registerCallbacks keys ⟨onReply, s.timers.length⟩).2, onReply,
        timerStatus timeout⟩] }

/-- {lit}`setup_xread_blocking`. -/
@[simps]
def blockXread (s : Server) (streams : List (Bytes × Bytes)) (timeout : Double)
    (onReply : OnReply) : Server :=
  { s with
    xread := (s.xread.registerCallbacks (streams.map Prod.fst)
      ⟨onReply, s.timers.length, streams⟩).1
    timers := s.timers ++
      [⟨.xread, (s.xread.registerCallbacks (streams.map Prod.fst)
        ⟨onReply, s.timers.length, streams⟩).2, onReply, timerStatus timeout⟩] }

/-- The registry that a handler holds. -/
def registryOf (s : Server) (h : HandlerId) : Option ReplicaRegistry :=
  if h.hasReplicaRegistry then some s.replicas else none

end Server

end RedisClone
