import RedisClone.Lib.ByteStream
import RedisClone.Resp.ParsedValues
import RedisClone.Resp.RoundTrip

/-!
# The replica side of a replication link

{lit}`ReplicationSession` reads four kinds of input through one buffer: reply
lines of the handshake, the header of the RDB transfer, its body, and the
command stream.  Each completion handler is one step of a stream machine; the
exact-size read of the RDB body leaves the bytes behind it in the socket.

Main results:

- Theorem {lit}`receive_eq_feed`: reading a chunk is feeding it to the stream
  machine, whichever read is pending.
- Theorem {lit}`run_eq_feedAll`: so is a whole run, whatever the acknowledgement
  timer does in between.

Current gaps:

- Read and write errors, which end the session, are not modelled.
-/

namespace RedisClone

open RespValue

/-! ## State and actions -/

/-- The asynchronous read that is pending. -/
inductive SessionPhase where
  | pingReply
  | replconfPortReply
  | replconfCapaReply
  | psyncReply
  | rdbHeader
  | rdbBody (size : Nat)
  | commands
  /-- A handler returned without starting another read. -/
  | stopped
  /-- An exception left a handler. -/
  | crashed
deriving DecidableEq, Repr

/-- What the completion handlers read and write, apart from the buffer. -/
structure SessionState where
  phase : SessionPhase
  replicaOffset : Nat
deriving DecidableEq, Repr

/-- What the session does. -/
inductive SessionAction where
  /-- A handshake message to the master. -/
  | send (parts : List Bytes)
  /-- {lit}`REPLCONF ACK` to the master, requested by it or sent by the timer. -/
  | sendAck (requested : Bool) (offset : Nat)
  /-- {lit}`handler_.handle`, posted to the store thread. -/
  | dispatch (command : RespValue)
deriving DecidableEq

/-- A session with its buffer and its acknowledgement timer. -/
structure ReplicationSession where
  state : SessionState
  buf : Bytes
  ackArmed : Bool
deriving DecidableEq

/-- {lit}`encode_array`. -/
def encodeArray (parts : List Bytes) : Bytes :=
  serialize (.array (parts.map .bulkString))

/-- The message of {lit}`send_ack`. -/
def ackParts (offset : Nat) : List Bytes :=
  [ascii "REPLCONF", ascii "ACK", Decimal.render offset]

/-! ## Completion handlers -/

/-- {lit}`is_getack`. -/
def isGetack (command : RespValue) : Bool :=
  command.type = .array &&
    match command.elements with
    | name :: sub :: _ =>
        lowercase name.str = ascii "replconf" && lowercase sub.str = ascii "getack"
    | _ => false

/-- {lit}`parse_fullresync_offset`: the number behind the last blank, if there is
one. -/
def parseFullresyncOffset (s : SessionState) (reply : Bytes) : SessionState :=
  if 32 ∈ reply then
    match fromCharsSizeT (reply.reverse.takeWhile (· ≠ 32)).reverse with
    | some (offset, _) => { s with replicaOffset := offset.toNat }
    | none => s
  else s

/-- The continuation of {lit}`read_reply` in each phase of the handshake. -/
def onReply (listeningPort : Nat) (s : SessionState) (reply : RespValue) :
    SessionState × List SessionAction :=
  match s.phase with
  | .pingReply =>
      ({ s with phase := .replconfPortReply },
        [.send [ascii "REPLCONF", ascii "listening-port", Decimal.render listeningPort]])
  | .replconfPortReply =>
      ({ s with phase := .replconfCapaReply },
        [.send [ascii "REPLCONF", ascii "capa", ascii "psync2"]])
  | .replconfCapaReply =>
      ({ s with phase := .psyncReply }, [.send [ascii "PSYNC", ascii "?", ascii "-1"]])
  | _ =>
      let s := if reply.type = .simpleString then parseFullresyncOffset s reply.str else s
      ({ s with phase := .rdbHeader }, [])

/-- {lit}`read_reply`: one line is consumed and parsed. -/
def readReply (listeningPort : Nat) (s : SessionState) (buf : Bytes) :
    Option (SessionState × Bytes × List SessionAction) :=
  match readLine buf with
  | none => none
  | some (line, rest) =>
      match parse (line ++ crlf) with
      | .error _ => some ({ s with phase := .crashed }, rest, [])
      | .ok none => some ({ s with phase := .stopped }, rest, [])
      | .ok (some (reply, _)) =>
          let (s, actions) := onReply listeningPort s reply
          some (s, rest, actions)

/-- {lit}`receive_rdb`: the header line states the size of the body. -/
def receiveRdb (s : SessionState) (buf : Bytes) :
    Option (SessionState × Bytes × List SessionAction) :=
  match readLine buf with
  | none => none
  | some (36 :: number, rest) =>
      match fromCharsSizeT number with
      | some (size, _) => some ({ s with phase := .rdbBody size.toNat }, rest, [])
      | none => some ({ s with phase := .stopped }, rest, [])
  | some (_, rest) => some ({ s with phase := .stopped }, rest, [])

/-- {lit}`receive_rdb_body`: the body is discarded once it is all there. -/
def receiveRdbBody (s : SessionState) (size : Nat) (buf : Bytes) :
    Option (SessionState × Bytes × List SessionAction) :=
  if size ≤ buf.length then some ({ s with phase := .commands }, buf.drop size, []) else none

/-- {lit}`try_process_one_buffered_command`. -/
def tryProcessOneBufferedCommand (s : SessionState) (buf : Bytes) :
    Option (SessionState × Bytes × List SessionAction) :=
  if buf = [] then none
  else
    match parse buf with
    | .error _ => some ({ s with phase := .crashed }, buf, [])
    | .ok none => none
    | .ok (some (command, consumed)) =>
        let s := { s with replicaOffset := (s.replicaOffset + consumed) % sizeTModulus }
        some (s, buf.drop consumed,
          [if isGetack command then .sendAck true s.replicaOffset else .dispatch command])

/-- The completion handler of the pending read, if the buffer completes it. -/
def sessionStep (listeningPort : Nat) (s : SessionState) (buf : Bytes) :
    Option (SessionState × Bytes × List SessionAction) :=
  match s.phase with
  | .pingReply | .replconfPortReply | .replconfCapaReply | .psyncReply =>
      readReply listeningPort s buf
  | .rdbHeader => receiveRdb s buf
  | .rdbBody size => receiveRdbBody s size buf
  | .commands => tryProcessOneBufferedCommand s buf
  | .stopped | .crashed => none

/-! ## The session as a stream machine -/

/-- A reply line is consumed whatever follows it. -/
theorem readReply_append (port : Nat) {s s' : SessionState} {buf rest : Bytes}
    {out : List SessionAction} (h : readReply port s buf = some (s', rest, out)) (more : Bytes) :
    readReply port s (buf ++ more) = some (s', rest ++ more, out) := by
  unfold readReply at h ⊢
  cases hline : readLine buf with
  | none => simp [hline] at h
  | some p =>
      rcases p with ⟨line, tail⟩
      simp only [hline] at h
      simp only [readLine_append hline more]
      split at h <;> simp_all

/-- A reply line takes its terminator from the buffer. -/
theorem readReply_length (port : Nat) {s s' : SessionState} {buf rest : Bytes}
    {out : List SessionAction} (h : readReply port s buf = some (s', rest, out)) :
    rest.length < buf.length := by
  unfold readReply at h
  cases hline : readLine buf with
  | none => simp [hline] at h
  | some p =>
      rcases p with ⟨line, tail⟩
      have hlen := readLine_length hline
      have hrest : tail = rest := by
        simp only [hline] at h
        split at h <;> simp_all
      subst hrest
      omega

/-- The header line is consumed whatever follows it. -/
theorem receiveRdb_append {s s' : SessionState} {buf rest : Bytes}
    {out : List SessionAction} (h : receiveRdb s buf = some (s', rest, out)) (more : Bytes) :
    receiveRdb s (buf ++ more) = some (s', rest ++ more, out) := by
  unfold receiveRdb at h ⊢
  cases hline : readLine buf with
  | none => simp [hline] at h
  | some p =>
      rcases p with ⟨line, tail⟩
      simp only [hline] at h
      simp only [readLine_append hline more]
      split at h
      · contradiction
      · rename_i number rest' heq
        cases heq
        simp only
        split at h <;> simp_all
      · rename_i line' rest' hne heq
        cases heq
        simp only [Option.some.injEq, Prod.mk.injEq] at h
        rcases h with ⟨rfl, rfl, rfl⟩
        split
        · contradiction
        · rename_i number rest'' heq'
          simp only [Option.some.injEq, Prod.mk.injEq] at heq'
          exact absurd heq'.1 (fun hcons => hne number hcons)
        · simp_all

/-- The header line takes its terminator from the buffer. -/
theorem receiveRdb_length {s s' : SessionState} {buf rest : Bytes}
    {out : List SessionAction} (h : receiveRdb s buf = some (s', rest, out)) :
    rest.length < buf.length := by
  unfold receiveRdb at h
  cases hline : readLine buf with
  | none => simp [hline] at h
  | some p =>
      rcases p with ⟨line, tail⟩
      have hlen := readLine_length hline
      have hrest : tail = rest := by
        simp only [hline] at h
        split at h
        · contradiction
        · rename_i heq
          cases heq
          split at h <;> simp_all
        · rename_i heq
          cases heq
          simp_all
      subst hrest
      omega

/-- A body that is there is discarded whatever follows it. -/
theorem receiveRdbBody_append {s s' : SessionState} {size : Nat} {buf rest : Bytes}
    {out : List SessionAction} (h : receiveRdbBody s size buf = some (s', rest, out))
    (more : Bytes) : receiveRdbBody s size (buf ++ more) = some (s', rest ++ more, out) := by
  unfold receiveRdbBody at h ⊢
  by_cases hsize : size ≤ buf.length
  · rw [if_pos hsize] at h
    rw [if_pos (by rw [List.length_append]; omega), List.drop_append_of_le_length hsize]
    simp_all
  · rw [if_neg hsize] at h
    contradiction

/-- A command in the buffer is processed whatever follows it. -/
theorem tryProcess_append {s s' : SessionState} {buf rest : Bytes}
    {out : List SessionAction} (h : tryProcessOneBufferedCommand s buf = some (s', rest, out))
    (more : Bytes) :
    tryProcessOneBufferedCommand s (buf ++ more) = some (s', rest ++ more, out) := by
  unfold tryProcessOneBufferedCommand at h ⊢
  by_cases hbuf : buf = []
  · rw [if_pos hbuf] at h
    contradiction
  · rw [if_neg hbuf] at h
    rw [if_neg (by simp [hbuf])]
    have hdecided : parse buf ≠ .ok none := by
      intro hparse
      simp [hparse] at h
    rw [parse_append hdecided more]
    cases hparse : parse buf with
    | error e => simp_all
    | ok result =>
        cases result with
        | none => exact absurd hparse hdecided
        | some p =>
            rcases p with ⟨command, consumed⟩
            simp only [hparse, Option.some.injEq, Prod.mk.injEq] at h
            rcases h with ⟨rfl, rfl, rfl⟩
            simp [List.drop_append_of_le_length (parse_consumed_le hparse)]

/-- Processing a command consumes bytes, or ends the process. -/
theorem tryProcess_decreases {s s' : SessionState} {buf rest : Bytes}
    {out : List SessionAction} (h : tryProcessOneBufferedCommand s buf = some (s', rest, out)) :
    rest.length < buf.length ∨ (rest.length = buf.length ∧ s'.phase = .crashed) := by
  unfold tryProcessOneBufferedCommand at h
  by_cases hbuf : buf = []
  · rw [if_pos hbuf] at h
    contradiction
  · rw [if_neg hbuf] at h
    cases hparse : parse buf with
    | error e =>
        simp only [hparse, Option.some.injEq, Prod.mk.injEq] at h
        rcases h with ⟨rfl, rfl, -⟩
        exact .inr ⟨rfl, rfl⟩
    | ok result =>
        cases result with
        | none => simp [hparse] at h
        | some p =>
            rcases p with ⟨command, consumed⟩
            simp only [hparse, Option.some.injEq, Prod.mk.injEq] at h
            rcases h with ⟨-, rfl, -⟩
            have hpos := parse_consumed_pos hparse
            have hle := parse_consumed_le hparse
            rw [List.length_drop]
            exact .inl (by omega)

/-- Bounds the steps that consume nothing: an empty body, and an exception. -/
def SessionPhase.rank : SessionPhase → Nat
  | .rdbBody _ => 2
  | .commands => 1
  | _ => 0

/-- The completion handlers of a session. -/
def sessionMachine (port : Nat) : StreamMachine SessionState UInt8 SessionAction where
  step := sessionStep port
  size s buf := 3 * buf.length + s.phase.rank
  step_append := by
    intro s s' buf rest out h more
    rcases s with ⟨phase, offset⟩
    cases phase with
    | pingReply | replconfPortReply | replconfCapaReply | psyncReply =>
        exact readReply_append port h more
    | rdbHeader => exact receiveRdb_append h more
    | rdbBody size => exact receiveRdbBody_append h more
    | commands => exact tryProcess_append h more
    | stopped | crashed => contradiction
  size_lt := by
    intro s s' buf rest out h
    have hbound : ∀ phase : SessionPhase, phase.rank ≤ 2 := by
      intro phase
      cases phase <;> simp [SessionPhase.rank]
    have hshorter : rest.length < buf.length →
        3 * rest.length + s'.phase.rank < 3 * buf.length + s.phase.rank := by
      intro hlt
      have hrank := hbound s'.phase
      omega
    rcases s with ⟨phase, offset⟩
    cases phase with
    | pingReply | replconfPortReply | replconfCapaReply | psyncReply =>
        exact hshorter (readReply_length port h)
    | rdbHeader => exact hshorter (receiveRdb_length h)
    | rdbBody size =>
        simp only [sessionStep, receiveRdbBody] at h
        split at h
        · simp only [Option.some.injEq, Prod.mk.injEq] at h
          rcases h with ⟨rfl, rfl, -⟩
          simp only [List.length_drop, SessionPhase.rank]
          omega
        · contradiction
    | commands =>
        rcases tryProcess_decreases h with hlt | ⟨heq, hphase⟩
        · exact hshorter hlt
        · simp only [hphase, heq, SessionPhase.rank]
          omega
    | stopped | crashed => contradiction

/-- The steps of the machine are the completion handlers. -/
theorem sessionMachine_step (port : Nat) : (sessionMachine port).step = sessionStep port :=
  rfl

/-! ## Reading from the socket -/

/-- The read that is pending takes these bytes; its handlers run. -/
def ReplicationSession.read (port : Nat) (s : ReplicationSession) (bytes : Bytes) :
    ReplicationSession × List SessionAction :=
  let (state, buf, actions) := (sessionMachine port).drain s.state (s.buf ++ bytes)
  -- `start_command_loop` arms the timer behind the first pass of the command loop
  let starts := s.state.phase ≠ .commands ∧ state.phase = .commands
  (⟨state, buf, s.ackArmed || starts⟩, actions)

/-- A chunk arrives.  The exact-size read of the RDB body takes only the missing
bytes; what is behind them is taken by the first read of the command loop. -/
def ReplicationSession.receive (port : Nat) (s : ReplicationSession) (chunk : Bytes) :
    ReplicationSession × List SessionAction :=
  match s.state.phase with
  | .rdbBody size =>
      let needMore := size - s.buf.length
      let (s, actions) := s.read port (chunk.take needMore)
      let (s, later) := s.read port (chunk.drop needMore)
      (s, actions ++ later)
  | _ => s.read port chunk

/-- What can happen to a session. -/
inductive SessionEvent where
  | receive (chunk : Bytes)
  /-- {lit}`ack_timer_` expires. -/
  | ackTimer
  /-- The write of a {lit}`REPLCONF ACK` completes. -/
  | ackWritten
deriving DecidableEq

/-- One event of a session. -/
def ReplicationSession.step (port : Nat) (s : ReplicationSession) :
    SessionEvent → ReplicationSession × List SessionAction
  | .receive chunk => s.receive port chunk
  | .ackTimer =>
      if s.ackArmed then ({ s with ackArmed := false }, [.sendAck false s.state.replicaOffset])
      else (s, [])
  | .ackWritten => ({ s with ackArmed := true }, [])

/-- The events of a session, one after the other. -/
def ReplicationSession.run (port : Nat) (s : ReplicationSession) :
    List SessionEvent → ReplicationSession × List SessionAction
  | [] => (s, [])
  | event :: events =>
      let (s, actions) := s.step port event
      let (s, later) := s.run port events
      (s, actions ++ later)

/-- The chunks that a run receives. -/
def receivedChunks (events : List SessionEvent) : List Bytes :=
  events.filterMap fun
    | .receive chunk => some chunk
    | _ => none

/-- What a session does because of its input, not because of its timer. -/
def drivenActions (actions : List SessionAction) : List SessionAction :=
  actions.filter fun
    | .sendAck false _ => false
    | _ => true

/-- Receiving is feeding the stream machine: the exact-size read is not
observable. -/
theorem receive_eq_feed (port : Nat) (s : ReplicationSession) (chunk : Bytes) :
    ((s.receive port chunk).1.state, (s.receive port chunk).1.buf, (s.receive port chunk).2) =
      (sessionMachine port).feed s.state s.buf chunk := by
  unfold ReplicationSession.receive
  split
  · rename_i size hphase
    simp only [ReplicationSession.read]
    rw [StreamMachine.feed]
    conv_rhs => rw [← List.take_append_drop (size - s.buf.length) chunk, ← List.append_assoc,
      StreamMachine.drain_append]
  · rfl

/-- A completion handler never acts for the timer. -/
theorem drivenActions_step {port : Nat} {s s' : SessionState} {buf rest : Bytes}
    {out : List SessionAction} (h : sessionStep port s buf = some (s', rest, out)) :
    drivenActions out = out := by
  have hreply : ∀ {s s' : SessionState}, readReply port s buf = some (s', rest, out) →
      drivenActions out = out := by
    intro s s' h
    unfold readReply at h
    split at h
    · contradiction
    · split at h
      · simp_all [drivenActions]
      · simp_all [drivenActions]
      · simp only [Option.some.injEq, Prod.mk.injEq] at h
        rcases h with ⟨-, -, rfl⟩
        unfold onReply
        split <;> rfl
  unfold sessionStep at h
  split at h
  · exact hreply h
  · exact hreply h
  · exact hreply h
  · exact hreply h
  · unfold receiveRdb at h
    split at h
    · contradiction
    · split at h <;> simp_all [drivenActions]
    · simp_all [drivenActions]
  · unfold receiveRdbBody at h
    split at h <;> simp_all [drivenActions]
  · unfold tryProcessOneBufferedCommand at h
    split at h
    · contradiction
    · split at h
      · simp_all [drivenActions]
      · contradiction
      · simp only [Option.some.injEq, Prod.mk.injEq] at h
        rcases h with ⟨-, -, rfl⟩
        split <;> rfl
  · contradiction
  · contradiction

/-- A drain never acts for the timer. -/
theorem drivenActions_drain (port : Nat) (s : SessionState) (buf : Bytes) :
    drivenActions ((sessionMachine port).drain s buf).2.2 =
      ((sessionMachine port).drain s buf).2.2 := by
  have hstep : ∀ {s s' : SessionState} {buf rest : Bytes} {out acc : List SessionAction},
      (sessionMachine port).step s buf = some (s', rest, out) →
      drivenActions acc = acc → drivenActions (acc ++ out) = acc ++ out := by
    intro s s' buf rest out acc hstep hacc
    unfold drivenActions at hacc ⊢
    rw [List.filter_append, hacc]
    exact congrArg (acc ++ ·) (drivenActions_step hstep)
  exact (sessionMachine port).drain_induction (fun _ _ acc => drivenActions acc = acc) hstep
    s buf [] rfl

/-- A run feeds the stream machine with the chunks it receives. -/
theorem run_eq_feedAll (port : Nat) (s : ReplicationSession) (events : List SessionEvent) :
    ((s.run port events).1.state, (s.run port events).1.buf,
        drivenActions (s.run port events).2) =
      (sessionMachine port).feedAll s.state s.buf (receivedChunks events) := by
  induction events generalizing s with
  | nil => rfl
  | cons event events ih =>
      have hsplit : ∀ xs ys, drivenActions (xs ++ ys) = drivenActions xs ++ drivenActions ys := by
        intro xs ys
        exact List.filter_append xs ys
      cases event with
      | receive chunk =>
          have hfeed := receive_eq_feed port s chunk
          have hdriven := drivenActions_drain port s.state (s.buf ++ chunk)
          simp only [Prod.ext_iff] at hfeed
          rcases hfeed with ⟨hstate, hbuf, hout⟩
          have hrest := ih (s.receive port chunk).1
          rw [hstate, hbuf] at hrest
          simp only [Prod.ext_iff] at hrest
          rcases hrest with ⟨hstate', hbuf', hout'⟩
          have hchunks : receivedChunks (.receive chunk :: events) =
              chunk :: receivedChunks events := rfl
          rw [hchunks, StreamMachine.feedAll]
          simp only [ReplicationSession.run, ReplicationSession.step, hsplit, hout]
          rw [hstate', hbuf', hout', StreamMachine.feed, hdriven]
      | ackTimer =>
          have hchunks : receivedChunks (.ackTimer :: events) = receivedChunks events := rfl
          rw [hchunks, ReplicationSession.run, ReplicationSession.step]
          cases s.ackArmed with
          | true =>
              simp only [if_true, hsplit]
              exact ih { s with ackArmed := false }
          | false => exact ih s
      | ackWritten => exact ih { s with ackArmed := true }

end RedisClone
