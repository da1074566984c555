import RedisClone.Command.ReplicationCommands
import RedisClone.Lib.Execution
import RedisClone.Net.Connection

/-!
# A master and its replicas

The master's replica registry, one link for each replica that completed the
handshake, and the {lit}`WAIT` commands that are polling.  A link consists of
the master's connection, the bytes posted to its socket that the replica has not
received, the replica's session, and the acknowledgements on their way back.
Network threads register and remove replicas and record acknowledgements; the
store thread propagates frames, answers {lit}`PSYNC` and runs {lit}`WAIT`.  Any
order of these steps is a run.

Main results:

- Theorem {lit}`step_change`: what one step of the cluster can do.

Current gaps:

- Acknowledgements are read in whole messages, any number of them at once; how a
  connection splits its input is the subject of {lit}`Net.Framing`.
- Signed overflow of {lit}`master_offset_` is undefined, so a run ends there.
-/

namespace RedisClone

open RespValue

/-! ## State -/

/-- A master's configuration. -/
structure MasterConfig extends ServerConfig where
  role_eq : role = .master

/-- A request that the parser returned, and that reached the dispatcher. -/
structure ParsedRequest where
  value : RespValue
  parsed : ∃ input consumed, parse input = .ok (some (value, consumed))
  type_eq : value.type = .array
  nonempty : value.elements ≠ []

/-- What the parser returns can be parsed again. -/
theorem ParsedRequest.isRequest (request : ParsedRequest) : IsRequest request.value := by
  rcases request.parsed with ⟨input, consumed, hparse⟩
  exact ⟨request.type_eq, request.nonempty, parse_wellFormed hparse⟩

/-- A replica with its connection. -/
structure Link where
  /-- The connection at the master, behind the {lit}`PSYNC` request. -/
  conn : Connection
  /-- The {lit}`PSYNC` posted to the store thread, until it is executed. -/
  psync : Option Command
  /-- Bytes posted to the socket and not yet received by the replica. -/
  down : Bytes
  session : ReplicationSession
  /-- Acknowledgements sent and not yet read by the master. -/
  up : List Bytes
  /-- All bytes posted to the socket so far. -/
  sent : Bytes
  /-- The offset stated in the {lit}`FULLRESYNC` reply. -/
  stated : Option Int

/-- Bytes in flight to the replica or in its buffer. -/
def Link.unread (l : Link) : Bytes :=
  l.session.buf ++ l.down

/-- Post bytes to the socket. -/
def Link.post (l : Link) (data : Bytes) : Link :=
  { l with down := l.down ++ data, sent := l.sent ++ data }

/-- Answer the pending {lit}`PSYNC`. -/
def Link.answer (l : Link) (reply : Bytes) (offset : Int) : Link :=
  { l with down := l.down ++ reply, sent := l.sent ++ reply, psync := none, stated := some offset }

/-- A {lit}`WAIT` with the request it answers: the arguments, and the clock and the
master's offset when it was issued. -/
structure IssuedWait where
  args : List Bytes
  now : Int
  offset : Int
  wait : PendingWait
  answers : wait.Answers args now offset
deriving DecidableEq

/-- A master with its replicas. -/
structure Cluster where
  registry : ReplicaRegistry
  links : Nat → Option Link
  /-- The {lit}`WAIT` that the store thread is about to request acknowledgements
  for. -/
  asking : Option IssuedWait
  /-- The {lit}`WAIT`s that are polling. -/
  waits : List IssuedWait
  /-- All bytes propagated so far. -/
  log : Bytes

/-- A master that was just started. -/
def Cluster.initial : Cluster :=
  ⟨.empty, fun _ => none, none, [], []⟩

/-- A session that has sent its {lit}`PSYNC`. -/
def ReplicationSession.syncing : ReplicationSession :=
  ⟨⟨.psyncReply, 0⟩, [], false⟩

/-! ## Events -/

/-- The steps of a cluster. -/
inductive ClusterEvent where
  /-- The store thread propagates a write command that it executed. -/
  | write (request : ParsedRequest)
  /-- A network thread reads the {lit}`PSYNC` that completes a handshake. -/
  | attach (conn : Connection) (request : RespValue)
  /-- The store thread executes the {lit}`PSYNC` of a replica. -/
  | psync (id : Nat)
  /-- A network thread sees a replica's connection close. -/
  | detach (id : Nat)
  /-- A replica receives the next bytes of its channel in one chunk. -/
  | deliver (id n : Nat)
  /-- A replica's acknowledgement timer expires, or a write of it completes. -/
  | ackTimer (id : Nat)
  | ackWritten (id : Nat)
  /-- A network thread reads {lit}`extra + 1` acknowledgements at once. -/
  | ackRead (id extra : Nat)
  /-- The store thread executes {lit}`WAIT`, up to {lit}`request_getack`. -/
  | wait (args : List Bytes) (now : Int)
  /-- The store thread runs {lit}`request_getack` for this {lit}`WAIT`. -/
  | getack
  /-- The store thread polls a {lit}`WAIT`. -/
  | poll (i : Nat) (now : Int)

/-- A numeric reply of {lit}`WAIT`, with the request it answers. -/
structure WaitReply where
  issued : IssuedWait
  now : Int
  count : Int
deriving DecidableEq

/-- Data is counted and posted to every registered replica. -/
def Cluster.propagated (s : Cluster) (data : Bytes) : Cluster :=
  { s with
    registry := s.registry.propagate data
    links := fun id => (s.links id).map fun l =>
      if s.registry.registered id then l.post data else l
    log := s.log ++ data }

/-- {lit}`ReplicaRegistry::propagate` with the write callbacks. -/
def Cluster.propagate (s : Cluster) (data : Bytes) : Option Cluster :=
  if s.registry.masterOffset + data.length ≤ longLongMax then some (s.propagated data) else none

/-- The acknowledgements among a session's actions, as they are sent. -/
def ackMessages (actions : List SessionAction) : List Bytes :=
  actions.filterMap fun
    | .sendAck _ offset => some (encodeArray (ackParts offset))
    | _ => none

/-- A session takes a step. -/
def Link.act (l : Link) (result : ReplicationSession × List SessionAction) : Link :=
  { l with session := result.1, up := l.up ++ ackMessages result.2 }

/-- Replace one link. -/
def Cluster.setLink (s : Cluster) (id : Nat) (l : Link) : Cluster :=
  { s with links := Function.update s.links id (some l) }

@[simp]
theorem Cluster.setLink_registry (s : Cluster) (id : Nat) (l : Link) :
    (s.setLink id l).registry = s.registry :=
  rfl

@[simp]
theorem Cluster.setLink_log (s : Cluster) (id : Nat) (l : Link) : (s.setLink id l).log = s.log :=
  rfl

@[simp]
theorem Cluster.setLink_self (s : Cluster) (id : Nat) (l : Link) :
    (s.setLink id l).links id = some l := by
  simp [Cluster.setLink]

@[simp]
theorem Cluster.setLink_of_ne (s : Cluster) {id id' : Nat} (h : id' ≠ id) (l : Link) :
    (s.setLink id l).links id' = s.links id' := by
  simp [Cluster.setLink, Function.update_of_ne h]

/-- A network thread reads the {lit}`PSYNC` of a replica. -/
def Cluster.attach (s : Cluster) (conn : Connection) (request : RespValue) : Option Cluster :=
  match onRequest conn request, parseCommand request with
  | (conn', [.register, .handle .replication _]), .ok cmd =>
      if 2 ≤ cmd.args.length then
        some ({ s with registry := s.registry.add.1 }.setLink s.registry.add.2
          ⟨conn', some cmd, [], .syncing, [], [], none⟩)
      else none
  | _, _ => none

/-- The store thread executes a {lit}`PSYNC`. -/
def Cluster.psync (config : MasterConfig) (s : Cluster) (id : Nat) (l : Link) : Option Cluster :=
  match l.psync with
  | none => none
  | some cmd =>
      some (s.setLink id (l.answer
        (psyncExecute config.toServerConfig (some s.registry) cmd) s.registry.masterOffset))

/-- A replica receives bytes. -/
def Cluster.deliver (port : Nat) (s : Cluster) (id n : Nat) (l : Link) : Option Cluster :=
  if 0 < n ∧ n ≤ l.down.length then
    some (s.setLink id
      ({ l with down := l.down.drop n }.act (l.session.receive port (l.down.take n))))
  else none

/-- A network thread reads acknowledgements; only the first one in the buffer is
looked at. -/
def Cluster.ackRead (s : Cluster) (id extra : Nat) (l : Link) : Option Cluster :=
  if extra < l.up.length ∧ s.registry.registered id then
    match onRead l.conn (l.up.take (extra + 1)).flatten with
    | (conn', [.recordAck offset]) =>
        some ({ s with registry := s.registry.recordAck id offset }.setLink id
          { l with conn := conn', up := l.up.drop (extra + 1) })
    | _ => none
  else none

/-- The store thread executes {lit}`WAIT`.  Network threads can act between its
calls of the registry, so that requesting acknowledgements and polling are steps
of their own. -/
def Cluster.wait (s : Cluster) (args : List Bytes) (now : Int) : Cluster × List WaitReply :=
  match hwait : waitExecute (some s.registry) args now with
  | .answered _ => (s, [])
  | .acked target numreplicas count =>
      (s, [⟨⟨args, now, s.registry.masterOffset, ⟨target, numreplicas, none⟩,
        answers_of_acked hwait⟩, now, count⟩])
  | .pending wait =>
      ({ s with
        asking := some ⟨args, now, s.registry.masterOffset, wait, answers_of_pending hwait⟩ }, [])

/-- The store thread requests acknowledgements and starts to poll. -/
def Cluster.getack (s : Cluster) : Option Cluster :=
  match s.asking with
  | none => none
  | some wait =>
      (s.propagate (serialize ReplicaRegistry.getackRequest)).map fun s =>
        { s with asking := none, waits := s.waits ++ [wait] }

/-- The store thread polls a {lit}`WAIT`. -/
def Cluster.poll (s : Cluster) (i : Nat) (now : Int) : Option (Cluster × List WaitReply) :=
  match s.waits[i]? with
  | none => none
  | some issued =>
      match waitPoll s.registry issued.wait now with
      | some count => some ({ s with waits := s.waits.eraseIdx i }, [⟨issued, now, count⟩])
      | none => some (s, [])

/-- The store thread can start on a task: it is not in the middle of a
{lit}`WAIT`. -/
def Cluster.idle (s : Cluster) {α : Type} (result : Option α) : Option α :=
  if s.asking = none then result else none

/-- One step of the cluster, if it is possible. -/
def Cluster.step (config : MasterConfig) (port : Nat) (s : Cluster) :
    ClusterEvent → Option (Cluster × List WaitReply)
  | .write request => s.idle ((s.propagate (serialize request.value)).map (·, []))
  | .attach conn request => (s.attach conn request).map (·, [])
  | .psync id => s.idle (((s.links id).bind (s.psync config id)).map (·, []))
  | .detach id =>
      if s.registry.registered id then
        some ({ s with registry := s.registry.remove id }, [])
      else none
  | .deliver id n => ((s.links id).bind (s.deliver port id n)).map (·, [])
  | .ackTimer id =>
      (s.links id).map fun l => (s.setLink id (l.act (l.session.step port .ackTimer)), [])
  | .ackWritten id =>
      (s.links id).map fun l => (s.setLink id (l.act (l.session.step port .ackWritten)), [])
  | .ackRead id extra => ((s.links id).bind (s.ackRead id extra)).map (·, [])
  | .wait args now => s.idle (some (s.wait args now))
  | .getack => s.getack.map (·, [])
  | .poll i now => s.idle (s.poll i now)

/-- A run of the cluster. -/
def Cluster.run (config : MasterConfig) (port : Nat) (s : Cluster) (events : List ClusterEvent) :
    Option (Cluster × List WaitReply) :=
  Execution.run (Cluster.step config port) s events

/-! ## What one step can do -/

/-- The changes that an event can make. -/
inductive Cluster.Change (config : MasterConfig) (port : Nat) (s : Cluster) :
    ClusterEvent → Cluster → Prop where
  /-- {lit}`WAIT` replies, or starts or continues to poll. -/
  | quiet {e : ClusterEvent} (asking : Option IssuedWait) (waits : List IssuedWait) :
      Change config port s e { s with asking := asking, waits := waits }
  /-- A frame is propagated. -/
  | propagate {e : ClusterEvent} {request : RespValue} (asking : Option IssuedWait)
      (waits : List IssuedWait) (hrequest : IsRequest request)
      (hfits : s.registry.masterOffset + (serialize request).length ≤ longLongMax) :
      Change config port s e
        { s.propagated (serialize request) with asking := asking, waits := waits }
  | attach {conn conn' : Connection} {request posted : RespValue} {cmd : Command}
      (hrequest : onRequest conn request = (conn', [.register, .handle .replication posted]))
      (hcmd : parseCommand request = .ok cmd) (hargs : 2 ≤ cmd.args.length) :
      Change config port s (.attach conn request)
        ({ s with registry := s.registry.add.1 }.setLink s.registry.nextId
          ⟨conn', some cmd, [], .syncing, [], [], none⟩)
  | psync {id : Nat} {l : Link} {cmd : Command} (hlink : s.links id = some l)
      (hpsync : l.psync = some cmd) :
      Change config port s (.psync id)
        (s.setLink id (l.answer
          (psyncExecute config.toServerConfig (some s.registry) cmd) s.registry.masterOffset))
  | detach {id : Nat} (hregistered : s.registry.registered id = true) :
      Change config port s (.detach id) { s with registry := s.registry.remove id }
  | deliver {id n : Nat} {l : Link} (hlink : s.links id = some l) (hpos : 0 < n)
      (hn : n ≤ l.down.length) :
      Change config port s (.deliver id n)
        (s.setLink id
          ({ l with down := l.down.drop n }.act (l.session.receive port (l.down.take n))))
  | timer {e : ClusterEvent} {id : Nat} {l : Link} {event : SessionEvent}
      (hlink : s.links id = some l) (hevent : event = .ackTimer ∨ event = .ackWritten) :
      Change config port s e (s.setLink id (l.act (l.session.step port event)))
  | ackRead {id extra : Nat} {l : Link} {conn' : Connection} {offset : Int}
      (hlink : s.links id = some l) (hextra : extra < l.up.length)
      (hread : onRead l.conn (l.up.take (extra + 1)).flatten = (conn', [.recordAck offset])) :
      Change config port s (.ackRead id extra)
        ({ s with registry := s.registry.recordAck id offset }.setLink id
          { l with conn := conn', up := l.up.drop (extra + 1) })

/-- A request for acknowledgements is a request. -/
theorem getackRequest_isRequest : IsRequest ReplicaRegistry.getackRequest := by
  refine ⟨rfl, by simp [ReplicaRegistry.getackRequest, RespValue.array], .array (by decide) ?_⟩
  intro e he
  simp only [List.mem_cons, List.not_mem_nil, or_false] at he
  rcases he with rfl | rfl | rfl <;> exact .bulkString (by decide)

/-- An idle store thread is needed for a step of it. -/
theorem idle_eq_some {α : Type} {s : Cluster} {result : Option α} {a : α}
    (h : s.idle result = some a) : s.asking = none ∧ result = some a := by
  unfold Cluster.idle at h
  split at h
  · rename_i hasking
    exact ⟨hasking, h⟩
  · contradiction

/-- Propagation that does not overflow the offset. -/
theorem propagate_eq_some {s s' : Cluster} {data : Bytes} (h : s.propagate data = some s') :
    s.registry.masterOffset + data.length ≤ longLongMax ∧ s' = s.propagated data := by
  unfold Cluster.propagate at h
  split at h
  · rename_i hfits
    cases h
    exact ⟨hfits, rfl⟩
  · contradiction

/-- Every step makes one of the changes. -/
theorem step_change {config : MasterConfig} {port : Nat} {s s' : Cluster} {e : ClusterEvent}
    {out : List WaitReply} (h : s.step config port e = some (s', out)) :
    Cluster.Change config port s e s' := by
  cases e with
  | write request =>
      rcases Option.map_eq_some_iff.mp (idle_eq_some h).2 with ⟨t, hpropagate, heq⟩
      cases heq
      rcases propagate_eq_some hpropagate with ⟨hfits, rfl⟩
      exact .propagate s.asking s.waits request.isRequest hfits
  | attach conn request =>
      rcases Option.map_eq_some_iff.mp h with ⟨t, hattach, heq⟩
      cases heq
      unfold Cluster.attach at hattach
      split at hattach
      · rename_i conn' posted cmd hrequest hcmd
        split at hattach
        · rename_i hargs
          cases hattach
          exact .attach hrequest hcmd hargs
        · contradiction
      · contradiction
  | psync id =>
      rcases Option.map_eq_some_iff.mp (idle_eq_some h).2 with ⟨t, hbind, heq⟩
      cases heq
      rcases Option.bind_eq_some_iff.mp hbind with ⟨l, hlink, hpsync⟩
      unfold Cluster.psync at hpsync
      split at hpsync
      · contradiction
      · rename_i cmd hcmd
        cases hpsync
        exact .psync hlink hcmd
  | detach id =>
      simp only [Cluster.step] at h
      split at h
      · rename_i hregistered
        cases h
        exact .detach hregistered
      · contradiction
  | deliver id n =>
      rcases Option.map_eq_some_iff.mp h with ⟨t, hbind, heq⟩
      cases heq
      rcases Option.bind_eq_some_iff.mp hbind with ⟨l, hlink, hdeliver⟩
      unfold Cluster.deliver at hdeliver
      split at hdeliver
      · rename_i hn
        cases hdeliver
        exact .deliver hlink hn.1 hn.2
      · contradiction
  | ackTimer id =>
      rcases Option.map_eq_some_iff.mp h with ⟨l, hlink, heq⟩
      cases heq
      exact .timer hlink (.inl rfl)
  | ackWritten id =>
      rcases Option.map_eq_some_iff.mp h with ⟨l, hlink, heq⟩
      cases heq
      exact .timer hlink (.inr rfl)
  | ackRead id extra =>
      rcases Option.map_eq_some_iff.mp h with ⟨t, hbind, heq⟩
      cases heq
      rcases Option.bind_eq_some_iff.mp hbind with ⟨l, hlink, hack⟩
      unfold Cluster.ackRead at hack
      split at hack
      · rename_i hextra
        split at hack
        · rename_i conn' offset hread
          cases hack
          exact .ackRead hlink hextra.1 hread
        · contradiction
      · contradiction
  | wait args now =>
      have hwait := Option.some.inj (idle_eq_some h).2
      unfold Cluster.wait at hwait
      split at hwait <;> cases hwait
      · exact .quiet s.asking s.waits
      · exact .quiet s.asking s.waits
      · exact .quiet _ s.waits
  | getack =>
      rcases Option.map_eq_some_iff.mp h with ⟨t, hgetack, heq⟩
      cases heq
      unfold Cluster.getack at hgetack
      split at hgetack
      · contradiction
      · rcases Option.map_eq_some_iff.mp hgetack with ⟨t, hpropagate, heq⟩
        cases heq
        rcases propagate_eq_some hpropagate with ⟨hfits, rfl⟩
        exact .propagate none _ getackRequest_isRequest hfits
  | poll i now =>
      have hpoll := (idle_eq_some h).2
      unfold Cluster.poll at hpoll
      split at hpoll
      · contradiction
      · split at hpoll <;> cases hpoll
        · exact .quiet s.asking _
        · exact .quiet s.asking s.waits

end RedisClone
