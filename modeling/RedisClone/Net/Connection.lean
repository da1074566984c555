import RedisClone.Command.Command
import RedisClone.Resp.RespParser

/-!
# The connection read loop

{lit}`Connection::do_read` waits until its buffer holds a line terminator, takes
the whole buffer, parses one value from it and acts on that value: it answers a
malformed request itself, tracks the replication handshake, records replica
acknowledgements, or posts the request to the store thread.

Main results:

- Theorem {lit}`handledRequests_onCommand`: a request is handed to a command
  handler once, unless the handshake refuses it or it is an acknowledgement.

Current gaps: a response is a value.  {lit}`write_response` hands {lit}`async_write` a view of a
string that lives no longer than the call, so what the socket sends is not what is said here if
the write does not complete at once.
-/

namespace RedisClone

/-- {lit}`Connection::ConnectionMode`. -/
inductive ConnectionMode where
  | unknown
  | client
  | replication
deriving DecidableEq, Repr

/-- {lit}`Connection::ReplicationHandshakeState`. -/
inductive HandshakeState where
  | none
  | pinged
  | replconf1
  | replconf2
deriving DecidableEq, Repr

/-- {lit}`CommandHandler::RegistryKind`. -/
inductive RegistryKind where
  | client
  | replication
deriving DecidableEq, Repr

/-- The state of a connection that its read loop uses. -/
structure Connection where
  mode : ConnectionMode
  replState : HandshakeState
  /-- {lit}`replconf_count_`, an {lit}`int` that would overflow behind 2^31 {lit}`REPLCONF`s. -/
  replconfCount : Nat
  registeredAsReplica : Bool
  buf : Bytes
deriving DecidableEq, Repr

/-- A connection that was just accepted. -/
def Connection.initial : Connection :=
  ⟨.unknown, .none, 0, false, []⟩

/-- What the read loop does with the bytes of one completed read. -/
inductive Action where
  /-- Synchronous write of the parse error. -/
  | parseError
  /-- {lit}`write_response` with a text of the connection itself. -/
  | respond (response : Bytes)
  /-- {lit}`ReplicaRegistry::add`. -/
  | register
  /-- {lit}`ReplicaRegistry::record_ack`. -/
  | recordAck (offset : Int)
  /-- {lit}`CommandHandler::handle`, posted to the store thread. -/
  | handle (kind : RegistryKind) (request : RespValue)
  /-- An exception leaves the completion handler. -/
  | throws
deriving DecidableEq

/-! ## Acting on one request -/

/-- The handshake refuses a request: a {lit}`REPLCONF` before any {lit}`PING`, or
a {lit}`PSYNC` before the second {lit}`REPLCONF`. -/
def handshakeError (c : Connection) (type : CommandType) : Option Bytes :=
  if c.mode = .unknown then
    if type = .replconf ∧ c.replState = .none then
      some (ascii "-ERR replication handshake not started\r\n")
    else if type = .psync ∧ c.replState ≠ .replconf2 then
      some (ascii "-ERR replication handshake not complete\r\n")
    else none
  else none

/-- The handshake state machine, for a request that it does not refuse. -/
def advanceHandshake (c : Connection) (type : CommandType) : Connection :=
  if c.mode = .unknown then
    match type with
    | .ping => { c with replState := .pinged }
    | .replconf =>
        { c with
          replconfCount := c.replconfCount + 1
          replState := if c.replconfCount + 1 ≥ 2 then .replconf2 else .replconf1 }
    | .psync => { c with mode := .replication, registeredAsReplica := true }
    | _ => { c with mode := .client }
  else c

/-- A {lit}`PSYNC` that completes the handshake registers the connection. -/
def registers (c : Connection) (type : CommandType) : Bool :=
  c.mode = .unknown && type = .psync && !c.registeredAsReplica

/-- A synced replica's {lit}`REPLCONF ACK`, which is never answered. -/
def isAck (c : Connection) (cmd : Command) : Bool :=
  c.mode = .replication && cmd.type = .replconf &&
    (cmd.args.head?.map lowercase = some (ascii "ack"))

/-- The acknowledged offset, if the message carries a readable one. -/
def ackActions (cmd : Command) : List Action :=
  match cmd.args with
  | _ :: offset :: _ =>
      match fromCharsLongLong offset with
      | some (n, _) => [.recordAck n]
      | none => []
  | _ => []

/-- The handler that a request is posted to. -/
def handlerKind (c : Connection) (type : CommandType) : RegistryKind :=
  if c.mode = .replication ∨ (c.mode = .unknown ∧ isReplicationCommand type) then .replication
  else .client

/-- The part of the completion handler behind {lit}`parse_command`. -/
def onCommand (c : Connection) (request : RespValue) (cmd : Command) :
    Connection × List Action :=
  match handshakeError c cmd.type with
  | some response => (c, [.respond response])
  | none =>
      let registration := if registers c cmd.type then [Action.register] else []
      let c := advanceHandshake c cmd.type
      if isAck c cmd then (c, registration ++ ackActions cmd)
      else (c, registration ++ [.handle (handlerKind c cmd.type) request])

/-- The part of the completion handler behind a successful parse. -/
def onRequest (c : Connection) (request : RespValue) : Connection × List Action :=
  if request.type ≠ .array ∨ request.elements = [] then
    (c, [.respond (ascii "-ERR invalid command format\r\n")])
  else
    match parseCommand request with
    | .error _ => (c, [.throws])
    | .ok cmd => onCommand c request cmd

/-- The completion handler of a read: one value is parsed from the whole buffer. -/
def onRead (c : Connection) (data : Bytes) : Connection × List Action :=
  match parse data with
  | .error _ => (c, [.throws])
  | .ok none => (c, [.parseError])
  | .ok (some (request, _)) => onRequest c request

/-! ## Reading chunks -/

/-- The buffer satisfies {lit}`async_read_until`. -/
def hasLine (buf : Bytes) : Bool :=
  (readLine buf).isSome

/-- A chunk arrives from the socket.  The pending {lit}`async_read_until`
completes as soon as the buffer holds a line terminator, and its handler drains
the buffer. -/
def Connection.receive (c : Connection) (chunk : Bytes) : Connection × List Action :=
  if hasLine (c.buf ++ chunk) then onRead { c with buf := [] } (c.buf ++ chunk)
  else ({ c with buf := c.buf ++ chunk }, [])

/-- The chunks of successive reads; an exception ends the process. -/
def Connection.run (c : Connection) : List Bytes → Connection × List Action
  | [] => (c, [])
  | chunk :: chunks =>
      let (c, actions) := c.receive chunk
      if .throws ∈ actions then (c, actions)
      else
        let (c, later) := c.run chunks
        (c, actions ++ later)

/-- The requests handed to a command handler, in order. -/
def handledRequests (actions : List Action) : List RespValue :=
  actions.filterMap fun
    | .handle _ request => some request
    | _ => none

/-! ## What one request can do -/

/-- The connection itself disposes of a request: the handshake refuses it, or it
is the acknowledgement of a synced replica. -/
def answersItself (c : Connection) (cmd : Command) : Bool :=
  (handshakeError c cmd.type).isSome || isAck (advanceHandshake c cmd.type) cmd

/-- A request that the connection does not dispose of itself is handed on, and
nothing else is. -/
theorem handledRequests_onCommand (c : Connection) (request : RespValue) (cmd : Command) :
    handledRequests (onCommand c request cmd).2 =
      if answersItself c cmd then [] else [request] := by
  unfold onCommand answersItself
  cases handshakeError c cmd.type with
  | some response => simp [handledRequests]
  | none =>
      simp only [Option.isSome_none, Bool.false_or]
      have hacks : handledRequests (ackActions cmd) = [] := by
        unfold ackActions
        split
        · split <;> rfl
        · rfl
      have hreg : ∀ b : Bool, handledRequests (if b then [Action.register] else []) = [] := by
        intro b
        cases b <;> rfl
      split
      · unfold handledRequests at hacks hreg ⊢
        simp [hacks, hreg]
      · unfold handledRequests at hreg ⊢
        simp [hreg]

end RedisClone
