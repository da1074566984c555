import RedisClone.Resp.ParserLoop
import RedisClone.Command.DataCommands
import RedisClone.Net.Handshake
import RedisClone.Replication.Attachment

/-!
# A replica joins its master

{lit}`ReplicationSession` sends {lit}`PING`, two {lit}`REPLCONF` and {lit}`PSYNC`, each behind the
reply to the one before it; the master's {lit}`Connection` follows them with a state machine of
its own and hands them to the store thread.  Both read from byte channels that may cut a message
anywhere, the connection drops what is behind the first value of a read, and the session stops
at a reply that it cannot parse.  Any order of reads, answers and propagated frames is a run.

Main results:

- Theorem {lit}`receive_message`: what the connection makes of a part of a message.
- Theorems {lit}`receive_reply`, {lit}`receive_error`: what the session makes of a reply.

Current gaps: read and write errors, which end the connection, are not modelled.
-/

namespace RedisClone

open RespValue

/-! ## The messages of the handshake -/

/-- The messages that {lit}`ReplicationSession` sends, in their order. -/
inductive HandshakeMessage where
  /-- {lit}`send_ping`. -/
  | ping
  /-- {lit}`send_replconf_listening_port`. -/
  | listeningPort
  /-- {lit}`send_replconf_capa`. -/
  | capa
  /-- {lit}`send_psync`. -/
  | psync
deriving DecidableEq, Repr

namespace HandshakeMessage

/-- The parts of a message. -/
def parts (port : Nat) : HandshakeMessage → List Bytes
  | .ping => [ascii "PING"]
  | .listeningPort => [ascii "REPLCONF", ascii "listening-port", Decimal.render port]
  | .capa => [ascii "REPLCONF", ascii "capa", ascii "psync2"]
  | .psync => [ascii "PSYNC", ascii "?", ascii "-1"]

/-- The request that a message encodes. -/
def request (port : Nat) (m : HandshakeMessage) : RespValue :=
  .array ((m.parts port).map .bulkString)

/-- The session has sent the message and waits for the reply. -/
def awaiting : HandshakeMessage → SessionPhase
  | .ping => .pingReply
  | .listeningPort => .replconfPortReply
  | .capa => .replconfCapaReply
  | .psync => .psyncReply

/-- The connection that a message arrives at. -/
def before : HandshakeMessage → Connection
  | .ping => .initial
  | .listeningPort => ⟨.unknown, .pinged, 0, false, []⟩
  | .capa => ⟨.unknown, .replconf1, 1, false, []⟩
  | .psync => .handshaken

/-- The message that the reply to a message releases. -/
def next : HandshakeMessage → Option HandshakeMessage
  | .ping => some .listeningPort
  | .listeningPort => some .capa
  | .capa => some .psync
  | .psync => none

/-- The text of the reply to a message in front of {lit}`PSYNC`. -/
def replyText : HandshakeMessage → Bytes
  | .ping => ascii "PONG"
  | _ => ascii "OK"

/-- The reply to a message in front of {lit}`PSYNC`. -/
def reply (m : HandshakeMessage) : Bytes :=
  43 :: (m.replyText ++ crlf)

end HandshakeMessage

/-! ## The two parties -/

/-- A master's connection and a replica's session, with the channels between them. -/
structure Joining where
  conn : Connection
  /-- Bytes that the session has sent and the connection has not received. -/
  up : Bytes
  /-- Requests that the store thread of the master has not answered. -/
  posted : List RespValue
  /-- Bytes that were posted to the socket and that the session has not received. -/
  down : Bytes
  session : ReplicationSession
deriving DecidableEq

/-- The steps of the two parties. -/
inductive JoiningEvent where
  /-- The connection receives the next bytes in one chunk. -/
  | masterRead (n : Nat)
  /-- The store thread answers a request.  The registry is the one it finds, and the reply to
  a command that is not part of the handshake is arbitrary. -/
  | answer (registry : ReplicaRegistry) (other : Bytes)
  /-- The registry propagates a frame. -/
  | propagate (data : Bytes)
  /-- The session receives the next bytes in one chunk. -/
  | replicaRead (n : Nat)
  /-- The acknowledgement timer of the session expires. -/
  | ackTimer
deriving DecidableEq

/-- What a session writes to its socket. -/
def sentBytes (actions : List SessionAction) : Bytes :=
  actions.flatMap fun
    | .send parts => encodeArray parts
    | .sendAck _ offset => encodeArray (ackParts offset)
    | .dispatch _ => []

/-- What a connection writes to its socket itself. -/
def responseBytes (actions : List Action) : Bytes :=
  actions.flatMap fun
    | .parseError => ascii "-ERR parse error\r\n"
    | .respond response => response
    | _ => []

/-- The reply of the master's command handlers.  {lit}`PING` is executed by the client's
registry, on any store. -/
def handlerReply (config : ServerConfig) (registry : ReplicaRegistry) (other : Bytes)
    (request : RespValue) : Bytes :=
  match parseCommand request with
  | .error _ => other
  | .ok cmd =>
      match cmd.type with
      | .ping =>
          match (pingExecute cmd ⟨0, 0⟩ .empty).2 with
          | .ok (.answer a) => a.response
          | _ => other
      | .replconf => replconfExecute
      | .psync => psyncExecute config (some registry) cmd
      | _ => other

namespace Joining

/-- {lit}`ReplicationSession::start` behind {lit}`Server::do_accept`. -/
def initial : Joining :=
  ⟨.initial, encodeArray [ascii "PING"], [], [], ⟨⟨.pingReply, 0⟩, [], false⟩⟩

/-- The connection receives bytes.  It reads only while none of its requests waits for an
answer, and an exception ends the process. -/
def masterRead (s : Joining) (n : Nat) : Option Joining :=
  let read := s.conn.receive (s.up.take n)
  if 0 < n ∧ n ≤ s.up.length ∧ s.posted = [] ∧ .throws ∉ read.2 then
    some { s with
      conn := read.1
      up := s.up.drop n
      posted := handledRequests read.2
      down := s.down ++ responseBytes read.2 }
  else none

/-- The session receives bytes. -/
def replicaRead (port : Nat) (s : Joining) (n : Nat) : Option Joining :=
  let read := s.session.receive port (s.down.take n)
  if 0 < n ∧ n ≤ s.down.length then
    some { s with
      session := read.1
      down := s.down.drop n
      up := s.up ++ sentBytes read.2 }
  else none

/-- One step, if it is possible. -/
def step (config : ServerConfig) (port : Nat) (s : Joining) : JoiningEvent → Option Joining
  | .masterRead n => s.masterRead n
  | .answer registry other =>
      match s.posted with
      | [] => none
      | request :: posted =>
          some { s with
            posted := posted
            down := s.down ++ handlerReply config registry other request }
  | .propagate data =>
      some { s with down := s.down ++ if s.conn.registeredAsReplica then data else [] }
  | .replicaRead n => s.replicaRead port n
  | .ackTimer =>
      let fired := s.session.step port .ackTimer
      some { s with session := fired.1, up := s.up ++ sentBytes fired.2 }

/-- A read that completes at all takes everything that is on its way: a message may be cut
inside its first line only. -/
def ReadsWhole (s : Joining) : JoiningEvent → Prop
  | .masterRead n => readLine (s.conn.buf ++ s.up.take n) ≠ none → s.up.length ≤ n
  | _ => True

instance (s : Joining) (event : JoiningEvent) : Decidable (s.ReadsWhole event) :=
  match event with
  | .masterRead n => inferInstanceAs (Decidable
      (readLine (s.conn.buf ++ s.up.take n) ≠ none → s.up.length ≤ n))
  | .answer _ _ | .propagate _ | .replicaRead _ | .ackTimer => .isTrue trivial

/-- A sequence of steps. -/
def run (config : ServerConfig) (port : Nat) (s : Joining) (events : List JoiningEvent) :
    Option Joining :=
  Execution.follow (step config port) s events

end Joining

/-! ## What a connection makes of a read -/

/-- An error reply: a line that starts with a dash. -/
def IsErrorLine (response : Bytes) : Prop :=
  ∃ text, NoCrlf (45 :: text) ∧ response = (45 :: text) ++ crlf

/-- An encoding is cut short: nothing can be parsed yet. -/
theorem parse_of_cut {v : RespValue} (hv : WellFormed v) {data rest : Bytes}
    (hcut : data ++ rest = serialize v) (hrest : rest ≠ []) : parse data = .ok none := by
  by_contra hne
  have hwhole := parse_append hne rest
  have hv' := parse_serialize hv []
  rw [List.append_nil] at hv'
  rw [hcut, hv'] at hwhole
  have hle := parse_consumed_le hwhole.symm
  have hlen := congrArg List.length hcut
  rw [List.length_append] at hlen
  have hpos := List.length_pos_iff.mpr hrest
  omega

/-- Only an asterisk opens an array. -/
theorem type_of_readItem {b : UInt8} (hb : b ≠ 42) {input rest : Bytes} {v : RespValue}
    (h : readItem b input = .value v rest) : v.type ≠ .array := by
  have hline : ∀ {type : RespType}, type ≠ .array → parseLine type input = .value v rest →
      v.type ≠ .array := by
    intro type htype h
    unfold parseLine at h
    split at h
    · contradiction
    · cases h
      exact htype
  unfold readItem at h
  rw [if_neg hb] at h
  split_ifs at h
  · exact hline (by decide) h
  · rcases parseBulkString_cases h with
      hfailed | ⟨line, tail, length, -, -, -, ⟨-, heq⟩ | ⟨payload, -, rest', -, -, -, heq⟩⟩
    · contradiction
    · cases heq
      simp [RespValue.null]
    · split_ifs at heq
      cases heq
      simp [RespValue.bulkString]
  · exact hline (by decide) h

/-- Without an asterisk there is no request. -/
theorem parse_of_ne_star {b : UInt8} (hb : b ≠ 42) {input : Bytes} {v : RespValue} {n : Nat}
    (h : parse (b :: input) = .ok (some (v, n))) : v.type ≠ .array := by
  rcases parse_eq_some h with ⟨rest, hloop, -⟩
  rw [parseLoop_cons] at hloop
  cases hitem : readItem b input with
  | value w tail =>
      rw [hitem] at hloop
      cases hloop
      exact type_of_readItem hb hitem
  | opened frame tail =>
      exact absurd (header_of_readItem hitem (by simp) (by simp) (by simp)).1 hb
  | failed => rw [hitem] at hloop; contradiction
  | throws => rw [hitem] at hloop; contradiction
  | overflowed w tail => rw [hitem] at hloop; contradiction

/-- A line that starts with a dash is not a reply that the parser knows. -/
theorem parse_dash (text : Bytes) : parse (45 :: text) = .ok none := by
  unfold parse
  rw [parseLoop_cons]
  rfl

/-- The connection answers a read itself with an error, and stays as it is. -/
structure Refuses (c : Connection) (read : Connection × List Action) : Prop where
  same : read.1 = c
  handled : handledRequests read.2 = []
  error : IsErrorLine (responseBytes read.2)

/-- A text that cannot be parsed is refused. -/
theorem refuses_of_none (c : Connection) {data : Bytes} (h : parse data = .ok none) :
    Refuses c (onRead c data) := by
  unfold onRead
  rw [h]
  exact ⟨rfl, rfl, ascii "ERR parse error", by decide, rfl⟩

/-- A text without an asterisk leaves the connection as it is, and nothing is handled. -/
theorem onRead_no_star (c : Connection) {data : Bytes} (h : 42 ∉ data) :
    (onRead c data).1 = c ∧ handledRequests (onRead c data).2 = [] := by
  unfold onRead
  split
  · exact ⟨rfl, rfl⟩
  · exact ⟨rfl, rfl⟩
  · rename_i v n hparse
    have htype : v.type ≠ .array := by
      cases data with
      | nil => simp [parse] at hparse
      | cons b input => exact parse_of_ne_star (fun hb => h (by simp [hb])) hparse
    simp only [onRequest, if_pos (Or.inl htype)]
    exact ⟨trivial, rfl⟩

/-- What the connection does with a chunk that brings no request: it keeps the bytes, or
drops them. -/
theorem receive_no_star (c : Connection) {chunk : Bytes} (h : 42 ∉ c.buf ++ chunk) :
    ∃ buf, (c.receive chunk).1 = { c with buf := buf } ∧ 42 ∉ buf ∧
      handledRequests (c.receive chunk).2 = [] := by
  unfold Connection.receive
  split
  · have hread := onRead_no_star { c with buf := [] } h
    exact ⟨[], hread.1, by simp, hread.2⟩
  · exact ⟨c.buf ++ chunk, rfl, h, rfl⟩

/-- A connection that has become a replica or a client changes its buffer only. -/
theorem receive_of_mode {c : Connection} (hmode : c.mode ≠ .unknown) (chunk : Bytes) :
    ∃ buf, (c.receive chunk).1 = { c with buf := buf } := by
  unfold Connection.receive
  split
  · refine ⟨[], ?_⟩
    unfold onRead
    split
    · rfl
    · rfl
    · exact @onRequest_of_mode { c with buf := [] } hmode _
  · exact ⟨c.buf ++ chunk, rfl⟩

namespace HandshakeMessage

variable {port : Nat}

/-- The messages of the handshake are well formed. -/
theorem wellFormed (hport : port < 65536) (m : HandshakeMessage) :
    WellFormed (m.request port) := by
  have hrender : ((Decimal.render port).length : Int) ≤ payloadMax := by
    have hlen : (Decimal.render port).length ≤ 5 :=
      Decimal.length_render_le (by omega) (by omega)
    unfold payloadMax intMax
    omega
  apply WellFormedWithin.array
  · cases m <;> simp [parts, intMax]
  · intro e he
    rcases List.mem_map.mp he with ⟨part, hpart, rfl⟩
    apply WellFormedWithin.bulkString
    cases m with
    | ping | capa | psync =>
        simp only [parts, List.mem_cons, List.not_mem_nil, or_false] at hpart
        rcases hpart with rfl | rfl | rfl <;> decide
    | listeningPort =>
        simp only [parts, List.mem_cons, List.not_mem_nil, or_false] at hpart
        rcases hpart with rfl | rfl | rfl
        · decide
        · decide
        · exact hrender

/-- A message has an asterisk at its front and nowhere else. -/
theorem serialize_request (m : HandshakeMessage) :
    ∃ tail, serialize (m.request port) = 42 :: tail ∧ 42 ∉ tail := by
  have hdigits : ∀ n, (42 : UInt8) ∉ Decimal.render n := by
    intro n hmem
    exact absurd (Decimal.isDigit_of_mem_render hmem) (by decide)
  refine ⟨_, by rw [request, RespValue.array, serialize], ?_⟩
  cases m <;>
    simp [parts, serializeAll, RespValue.bulkString, serialize, hdigits, crlf, ascii]

/-- A connection between two messages holds no bytes. -/
theorem before_buf (m : HandshakeMessage) :
    ({ m.before with buf := [] } : Connection) = m.before := by
  cases m <;> rfl

/-- A message in front of {lit}`PSYNC` is handed to the store thread, and the connection is
ready for the next one. -/
theorem onRead_next (hport : port < 65536) {m m' : HandshakeMessage} (hnext : m.next = some m') :
    ∃ kind, onRead m.before (serialize (m.request port)) =
      (m'.before, [.handle kind (m.request port)]) := by
  have hparse := parse_serialize (m.wellFormed hport) []
  rw [List.append_nil] at hparse
  unfold onRead
  rw [hparse]
  cases m with
  | ping =>
      cases hnext
      exact ⟨.client, rfl⟩
  | listeningPort =>
      cases hnext
      exact ⟨.replication, rfl⟩
  | capa =>
      cases hnext
      exact ⟨.replication, rfl⟩
  | psync => contradiction

/-- {lit}`PSYNC` registers the connection. -/
theorem onRead_psync :
    onRead HandshakeMessage.psync.before (serialize (HandshakeMessage.psync.request port)) =
      ({ Connection.handshaken with mode := .replication, registeredAsReplica := true },
        [.register, .handle .replication psyncRequest]) := by
  have hparse := parse_serialize (@wellFormed 0 (by decide) .psync) []
  rw [List.append_nil] at hparse
  -- the request does not depend on the port
  have hport : HandshakeMessage.psync.request port = HandshakeMessage.psync.request 0 := rfl
  unfold onRead
  rw [hport, hparse]
  rfl

/-- Part of a message arrives: it is kept, or answered with an error, or it completes the
message. -/
theorem receive_message (hport : port < 65536) (m : HandshakeMessage) {buf chunk rest : Bytes}
    (hcut : buf ++ chunk ++ rest = serialize (m.request port)) :
    (readLine (buf ++ chunk) = none ∧
      Connection.receive { m.before with buf := buf } chunk =
        ({ m.before with buf := buf ++ chunk }, [])) ∨
    (readLine (buf ++ chunk) ≠ none ∧ rest ≠ [] ∧ 42 ∉ rest ∧
      Refuses m.before (Connection.receive { m.before with buf := buf } chunk)) ∨
    (rest = [] ∧ Connection.receive { m.before with buf := buf } chunk =
      onRead m.before (serialize (m.request port))) := by
  unfold Connection.receive hasLine
  simp only [m.before_buf]
  cases hline : readLine (buf ++ chunk) with
  | none => exact .inl ⟨rfl, rfl⟩
  | some p =>
      simp only [Option.isSome_some, if_true]
      by_cases hrest : rest = []
      · rw [hrest, List.append_nil] at hcut
        rw [hcut]
        exact .inr (.inr ⟨hrest, rfl⟩)
      · refine .inr (.inl ⟨by simp, hrest, ?_,
          refuses_of_none _ (parse_of_cut (m.wellFormed hport) hcut hrest)⟩)
        -- the asterisk was in the part that arrived
        rcases @HandshakeMessage.serialize_request port m with ⟨tail, htail, hstar⟩
        cases hdata : buf ++ chunk with
        | nil =>
            rw [hdata] at hline
            contradiction
        | cons b data =>
            rw [hdata, htail, List.cons_append, List.cons.injEq] at hcut
            rw [← hcut.2] at hstar
            exact fun hmem => hstar (List.mem_append_right data hmem)

end HandshakeMessage

/-! ## What a session makes of a reply -/

namespace HandshakeMessage

variable {port : Nat}

/-- The reply texts are lines. -/
theorem noCrlf_replyText (m : HandshakeMessage) : NoCrlf m.replyText := by
  cases m <;> decide

/-- A session that waits for a reply reads what arrives. -/
theorem receive_awaiting (m : HandshakeMessage) (buf chunk : Bytes) :
    ReplicationSession.receive port ⟨⟨m.awaiting, 0⟩, buf, false⟩ chunk =
      ReplicationSession.read port ⟨⟨m.awaiting, 0⟩, buf, false⟩ chunk := by
  cases m <;> rfl

/-- The completion handler of a reply. -/
theorem sessionStep_awaiting (m : HandshakeMessage) (buf : Bytes) :
    sessionStep port ⟨m.awaiting, 0⟩ buf = readReply port ⟨m.awaiting, 0⟩ buf := by
  cases m <;> rfl

/-- An incomplete line is kept. -/
theorem receive_incomplete (m : HandshakeMessage) {buf chunk : Bytes}
    (h : readLine (buf ++ chunk) = none) :
    ReplicationSession.receive port ⟨⟨m.awaiting, 0⟩, buf, false⟩ chunk =
      (⟨⟨m.awaiting, 0⟩, buf ++ chunk, false⟩, []) := by
  have hnone : (sessionMachine port).step ⟨m.awaiting, 0⟩ (buf ++ chunk) = none := by
    rw [sessionMachine_step, sessionStep_awaiting, readReply, h]
  rw [receive_awaiting, ReplicationSession.read, (sessionMachine port).drain_of_none hnone]
  cases m <;> rfl

/-- A reply releases the next message. -/
theorem receive_reply {m m' : HandshakeMessage} (hnext : m.next = some m') {buf chunk : Bytes}
    (h : buf ++ chunk = m.reply) :
    ReplicationSession.receive port ⟨⟨m.awaiting, 0⟩, buf, false⟩ chunk =
      (⟨⟨m'.awaiting, 0⟩, [], false⟩, [.send (m'.parts port)]) := by
  have hline : readLine m.reply = some (43 :: m.replyText, []) := by
    have hread := @readLine_cons 43 m.replyText (by decide) m.noCrlf_replyText []
    rwa [List.append_nil] at hread
  have hparse := parse_serialize (WellFormedWithin.simpleString m.noCrlf_replyText) []
  simp only [serialize, List.append_nil] at hparse
  have hstep : (sessionMachine port).step ⟨m.awaiting, 0⟩ (buf ++ chunk) =
      some (⟨m'.awaiting, 0⟩, [], [.send (m'.parts port)]) := by
    rw [sessionMachine_step, sessionStep_awaiting, h, readReply, hline]
    simp only [List.cons_append, hparse]
    cases m <;> cases hnext <;> rfl
  have hnone : (sessionMachine port).step ⟨m'.awaiting, 0⟩ [] = none := by
    rw [sessionMachine_step, sessionStep_awaiting]
    rfl
  rw [receive_awaiting, ReplicationSession.read, (sessionMachine port).drain_of_some hstep,
    (sessionMachine port).drain_of_none hnone]
  cases m <;> cases hnext <;> rfl

/-- An error reply stops the session. -/
theorem receive_error (m : HandshakeMessage) {buf chunk text rest : Bytes}
    (h : readLine (buf ++ chunk) = some (45 :: text, rest)) :
    ReplicationSession.receive port ⟨⟨m.awaiting, 0⟩, buf, false⟩ chunk =
      (⟨⟨.stopped, 0⟩, rest, false⟩, []) := by
  have hstep : (sessionMachine port).step ⟨m.awaiting, 0⟩ (buf ++ chunk) =
      some (⟨.stopped, 0⟩, rest, []) := by
    rw [sessionMachine_step, sessionStep_awaiting, readReply, h]
    simp only [List.cons_append, parse_dash]
  have hnone : (sessionMachine port).step ⟨.stopped, 0⟩ rest = none := rfl
  rw [receive_awaiting, ReplicationSession.read, (sessionMachine port).drain_of_some hstep,
    (sessionMachine port).drain_of_none hnone]
  cases m <;> rfl

end HandshakeMessage

/-- A stopped session only collects bytes. -/
theorem receive_stopped {port : Nat} (buf chunk : Bytes) :
    ReplicationSession.receive port ⟨⟨.stopped, 0⟩, buf, false⟩ chunk =
      (⟨⟨.stopped, 0⟩, buf ++ chunk, false⟩, []) := by
  have hnone : (sessionMachine port).step ⟨.stopped, 0⟩ (buf ++ chunk) = none := rfl
  show ReplicationSession.read port _ chunk = _
  rw [ReplicationSession.read, (sessionMachine port).drain_of_none hnone]
  rfl

/-- The session has sent {lit}`PSYNC` and has not been stopped before that. -/
def SessionPhase.behindPsync : SessionPhase → Bool
  | .pingReply | .replconfPortReply | .replconfCapaReply => false
  | _ => true

/-- A session does not go back behind its {lit}`PSYNC`. -/
theorem behindPsync_step {port : Nat} {s s' : SessionState} {buf rest : Bytes}
    {out : List SessionAction} (h : sessionStep port s buf = some (s', rest, out))
    (hs : s.phase.behindPsync = true) : s'.phase.behindPsync = true := by
  rcases s with ⟨phase, offset⟩
  cases phase with
  | pingReply | replconfPortReply | replconfCapaReply => contradiction
  | psyncReply =>
      simp only [sessionStep, readReply] at h
      split at h
      · contradiction
      · split at h <;> cases h <;> rfl
  | rdbHeader =>
      simp only [sessionStep, receiveRdb] at h
      split at h
      · contradiction
      · split at h <;> cases h <;> rfl
      · cases h
        rfl
  | rdbBody size =>
      simp only [sessionStep, receiveRdbBody] at h
      split at h <;> cases h
      rfl
  | commands =>
      simp only [sessionStep, tryProcessOneBufferedCommand] at h
      split at h
      · contradiction
      · split at h <;> cases h <;> rfl
  | stopped | crashed => contradiction

/-- A session that has sent {lit}`PSYNC` has sent it whatever it receives. -/
theorem behindPsync_receive {port : Nat} {s : ReplicationSession}
    (hs : s.state.phase.behindPsync = true) (chunk : Bytes) :
    (s.receive port chunk).1.state.phase.behindPsync = true := by
  have hfeed := receive_eq_feed port s chunk
  rw [Prod.mk.injEq] at hfeed
  rw [hfeed.1]
  exact (sessionMachine port).drain_induction (fun s _ _ => s.phase.behindPsync = true)
    (fun hstep hs => behindPsync_step hstep hs) s.state (s.buf ++ chunk) [] hs

end RedisClone
