import RedisClone.Replication.Joining

/-!
# The handshake of a replica with its master

The connection of the master and the session of the replica each keep a state of the handshake.
The two states agree, whatever the chunks in which the messages arrive: a message that is cut is
answered with an error, and the session stops there.

Main results:

- Theorem {lit}`stage_step`: a step keeps the two parties at one stage.
- Theorem {lit}`handshake_agrees`: a session takes in a resynchronization only from a master that
  has registered it, and a master registers only a session that has sent {lit}`PSYNC`.
- Theorem {lit}`registration_attaches`: the registration is an {lit}`attach` step of the cluster.
- Theorem {lit}`handshake_completes`: a handshake whose messages arrive whole can always be
  completed, and the session is then at the master's offset.
-/

namespace RedisClone

open RespValue

/-! ## The stages of the handshake -/

/-- The connection has not registered the replica, and no request can arrive any more. -/
structure Unjoined (c : Connection) (up : Bytes) : Prop where
  mode : c.mode = .unknown
  unregistered : c.registeredAsReplica = false
  no_star : 42 ∉ c.buf ++ up

/-- Where the two parties are, if messages may have been {lit}`cut`. -/
inductive Joining.Stage (port : Nat) (cut : Prop) : Joining → Prop where
  /-- A message is on its way. -/
  | flight (m : HandshakeMessage) {buf up : Bytes} (hbuf : readLine buf = none)
      (hbytes : buf ++ up = serialize (m.request port)) :
      Stage port cut ⟨{ m.before with buf := buf }, up, [], [], ⟨⟨m.awaiting, 0⟩, [], false⟩⟩
  /-- The store thread has a message in front of {lit}`PSYNC`. -/
  | posted {m m' : HandshakeMessage} (hnext : m.next = some m') :
      Stage port cut ⟨m'.before, [], [m.request port], [], ⟨⟨m.awaiting, 0⟩, [], false⟩⟩
  /-- The reply to it is on its way. -/
  | replied {m m' : HandshakeMessage} (hnext : m.next = some m') {buf down : Bytes}
      (hbuf : readLine buf = none) (hbytes : buf ++ down = m.reply) :
      Stage port cut ⟨m'.before, [], [], down, ⟨⟨m.awaiting, 0⟩, buf, false⟩⟩
  /-- A message was cut, and the first bytes on their way to the session are an error. -/
  | refused (m : HandshakeMessage) {c : Connection} {up buf down error junk : Bytes}
      (hcut : cut) (hc : Unjoined c up) (hbuf : readLine buf = none) (herror : IsErrorLine error)
      (hbytes : buf ++ down = error ++ junk) :
      Stage port cut ⟨c, up, [], down, ⟨⟨m.awaiting, 0⟩, buf, false⟩⟩
  /-- The session has read the error. -/
  | stopped {c : Connection} {up buf down : Bytes} (hcut : cut) (hc : Unjoined c up) :
      Stage port cut ⟨c, up, [], down, ⟨⟨.stopped, 0⟩, buf, false⟩⟩
  /-- The master has registered the replica. -/
  | registered {s : Joining} (hmode : s.conn.mode = .replication)
      (hregistered : s.conn.registeredAsReplica = true)
      (hphase : s.session.state.phase.behindPsync = true) : Stage port cut s

section Stages

variable {config : ServerConfig} {port : Nat} {cut : Prop}

/-- The handshake starts with {lit}`PING` on its way. -/
theorem stage_initial : Joining.initial.Stage port cut :=
  .flight .ping rfl rfl

/-- A prefix of a line is the line or no line. -/
theorem eq_nil_of_readLine {text data rest : Bytes} (htext : NoCrlf text)
    (hcut : data ++ rest = text ++ crlf) (hline : readLine data ≠ none) : rest = [] := by
  rcases Option.ne_none_iff_exists'.mp hline with ⟨⟨line, tail⟩, hread⟩
  have hmore := readLine_append hread rest
  have hwhole := readLine_append_crlf htext []
  rw [List.append_nil] at hwhole
  rw [hcut, hwhole] at hmore
  simp only [Option.some.injEq, Prod.mk.injEq] at hmore
  exact (List.append_eq_nil_iff.mp hmore.2.symm).2

/-- A connection that no request can reach stays unregistered. -/
theorem Unjoined.masterRead {s s' : Joining} {n : Nat} (hc : Unjoined s.conn s.up)
    (h : s.masterRead n = some s') :
    Unjoined s'.conn s'.up ∧ s'.posted = [] ∧ s'.session = s.session ∧
      ∃ more, s'.down = s.down ++ more := by
  simp only [Joining.masterRead, Option.ite_none_right_eq_some, Option.some.injEq] at h
  rcases h with ⟨-, rfl⟩
  have hsplit : 42 ∉ s.conn.buf ++ s.up.take n ∧ 42 ∉ s.up.drop n := by
    have hstar := hc.no_star
    rw [← List.take_append_drop n s.up, ← List.append_assoc] at hstar
    exact ⟨fun hmem => hstar (List.mem_append_left _ hmem),
      fun hmem => hstar (List.mem_append_right _ hmem)⟩
  rcases receive_no_star s.conn hsplit.1 with ⟨buf, hconn, hbuf, hposted⟩
  refine ⟨⟨?_, ?_, ?_⟩, hposted, rfl, _, rfl⟩
  · rw [hconn]
    exact hc.mode
  · rw [hconn]
    exact hc.unregistered
  · rw [hconn]
    exact fun hmem => (List.mem_append.mp hmem).elim hbuf hsplit.2

/-- A read that is refused while the session waits for a reply. -/
theorem stage_of_refuses (hcut : cut) (m : HandshakeMessage) {up : Bytes}
    {read : Connection × List Action} (hrefuses : Refuses m.before read) (hup : 42 ∉ up) :
    Joining.Stage port cut ⟨read.1, up, handledRequests read.2, responseBytes read.2,
      ⟨⟨m.awaiting, 0⟩, [], false⟩⟩ := by
  rw [hrefuses.same, hrefuses.handled]
  refine .refused m hcut ⟨?_, ?_, ?_⟩ rfl hrefuses.error (List.append_nil _).symm
  · cases m <;> rfl
  · cases m <;> rfl
  · cases m <;> simpa [HandshakeMessage.before, Connection.initial, Connection.handshaken] using hup

/-- The connection reads. -/
theorem stage_masterRead (hport : port < 65536) {s s' : Joining} {n : Nat} (hs : s.Stage port cut)
    (hwhole : ¬ cut → s.ReadsWhole (.masterRead n)) (h : s.masterRead n = some s') :
    s'.Stage port cut := by
  cases hs with
  | @flight m buf up hbuf hbytes =>
      simp only [Joining.masterRead, Option.ite_none_right_eq_some, Option.some.injEq,
        List.nil_append] at h
      rcases h with ⟨-, rfl⟩
      have hcut : buf ++ up.take n ++ up.drop n = serialize (m.request port) := by
        rw [List.append_assoc, List.take_append_drop, hbytes]
      rcases m.receive_message hport hcut with
        ⟨hline, hread⟩ | ⟨hline, hrest, hstar, hrefuses⟩ | ⟨hrest, hread⟩
      · rw [hread]
        exact .flight m hline hcut
      · refine stage_of_refuses ?_ m hrefuses hstar
        by_contra hno
        exact hrest (List.drop_eq_nil_iff.mpr (hwhole hno hline))
      · rw [hread, hrest]
        cases hnext : m.next with
        | some m' =>
            rcases HandshakeMessage.onRead_next hport hnext with ⟨kind, hhandle⟩
            rw [hhandle]
            exact .posted hnext
        | none =>
            have hpsync : m = .psync := by
              cases m <;> first | rfl | contradiction
            subst hpsync
            rw [HandshakeMessage.onRead_psync]
            exact .registered rfl rfl rfl
  | posted hnext => simp [Joining.masterRead] at h
  | @replied m m' hnext buf down hbuf hbytes =>
      simp only [Joining.masterRead, Option.ite_none_right_eq_some] at h
      have hlen : n ≤ 0 := h.1.2.1
      omega
  | @refused m c up buf down error junk hmay hc hbuf herror hbytes =>
      rcases hc.masterRead h with ⟨hc', hposted, hsession, more, hdown⟩
      rcases s' with ⟨conn, up', posted, down', session⟩
      simp only at hposted hsession hdown
      subst hposted hsession hdown
      exact .refused m hmay hc' hbuf herror (by rw [← List.append_assoc, hbytes, List.append_assoc])
  | stopped hmay hc =>
      rcases hc.masterRead h with ⟨hc', hposted, hsession, more, hdown⟩
      rcases s' with ⟨conn, up', posted, down', session⟩
      simp only at hposted hsession hdown
      subst hposted hsession hdown
      exact .stopped hmay hc'
  | registered hmode hregistered hphase =>
      simp only [Joining.masterRead, Option.ite_none_right_eq_some, Option.some.injEq] at h
      rcases h with ⟨-, rfl⟩
      have hne : s.conn.mode ≠ .unknown := by simp [hmode]
      rcases receive_of_mode hne (s.up.take n) with ⟨buf, hconn⟩
      refine .registered ?_ ?_ hphase
      · simpa [hconn] using hmode
      · simpa [hconn] using hregistered

/-- The store thread answers. -/
theorem stage_answer {s s' : Joining} {registry : ReplicaRegistry} {other : Bytes}
    (hs : s.Stage port cut) (h : s.step config port (.answer registry other) = some s') :
    s'.Stage port cut := by
  cases hs with
  | flight m hbuf hbytes => contradiction
  | @posted m m' hnext =>
      cases h
      refine .replied hnext rfl ?_
      cases m with
      | ping | listeningPort | capa => rfl
      | psync => contradiction
  | replied hnext hbuf hbytes => contradiction
  | refused m hmay hc hbuf herror hbytes => contradiction
  | stopped hmay hc => contradiction
  | registered hmode hregistered hphase =>
      simp only [Joining.step] at h
      split at h
      · contradiction
      · cases h
        exact .registered hmode hregistered hphase

/-- The session reads. -/
theorem stage_replicaRead {s s' : Joining} {n : Nat} (hs : s.Stage port cut)
    (h : s.replicaRead port n = some s') : s'.Stage port cut := by
  simp only [Joining.replicaRead, Option.ite_none_right_eq_some, Option.some.injEq] at h
  cases hs with
  | flight m hbuf hbytes =>
      have hlen : n ≤ 0 := h.1.2
      omega
  | posted hnext =>
      have hlen : n ≤ 0 := h.1.2
      omega
  | @replied m m' hnext buf down hbuf hbytes =>
      rcases h with ⟨-, rfl⟩
      have hcut : buf ++ down.take n ++ down.drop n = m.reply := by
        rw [List.append_assoc, List.take_append_drop, hbytes]
      cases hline : readLine (buf ++ down.take n) with
      | none =>
          simp only [m.receive_incomplete hline]
          exact .replied hnext hline hcut
      | some p =>
          have hrest : down.drop n = [] := by
            refine @eq_nil_of_readLine (43 :: m.replyText) _ _ ?_ hcut (by simp [hline])
            cases m <;> decide
          rw [hrest, List.append_nil] at hcut
          simp only [HandshakeMessage.receive_reply hnext hcut, hrest]
          rw [← m'.before_buf]
          refine .flight m' rfl ?_
          simp [sentBytes, encodeArray, HandshakeMessage.request]
  | @refused m c up buf down error junk hmay hc hbuf herror hbytes =>
      rcases h with ⟨-, rfl⟩
      have hcut : buf ++ down.take n ++ down.drop n = error ++ junk := by
        rw [List.append_assoc, List.take_append_drop, hbytes]
      cases hline : readLine (buf ++ down.take n) with
      | none =>
          simp only [m.receive_incomplete hline, sentBytes, List.flatMap_nil, List.append_nil]
          exact .refused m hmay hc hline herror hcut
      | some p =>
          rcases herror with ⟨text, htext, rfl⟩
          have hread : readLine (buf ++ down.take n) = some (45 :: text, p.2) := by
            have hmore := readLine_append hline (down.drop n)
            rw [hcut, List.append_assoc, readLine_append_crlf htext] at hmore
            simp only [Option.some.injEq, Prod.mk.injEq] at hmore
            rw [hline, hmore.1]
          simp only [m.receive_error hread, sentBytes, List.flatMap_nil, List.append_nil]
          exact .stopped hmay hc
  | stopped hmay hc =>
      rcases h with ⟨-, rfl⟩
      simp only [receive_stopped, sentBytes, List.flatMap_nil, List.append_nil]
      exact .stopped hmay hc
  | registered hmode hregistered hphase =>
      rcases h with ⟨-, rfl⟩
      exact .registered hmode hregistered (behindPsync_receive hphase _)

/-- A step keeps the parties at one stage. -/
theorem stage_step (hport : port < 65536) {s s' : Joining} {e : JoiningEvent}
    (hs : s.Stage port cut) (hwhole : ¬ cut → s.ReadsWhole e)
    (h : s.step config port e = some s') : s'.Stage port cut := by
  cases e with
  | masterRead n => exact stage_masterRead hport hs hwhole h
  | answer registry other => exact stage_answer hs h
  | replicaRead n => exact stage_replicaRead hs h
  | propagate data =>
      cases h
      cases hregistered : s.conn.registeredAsReplica with
      | false => simpa using hs
      | true =>
          cases hs with
          | flight m hbuf hbytes => cases m <;> contradiction
          | @posted m m' hnext => cases m' <;> contradiction
          | @replied m m' hnext buf down hbuf hbytes => cases m' <;> contradiction
          | refused m hmay hc hbuf herror hbytes =>
              rw [hc.unregistered] at hregistered
              contradiction
          | stopped hmay hc =>
              rw [hc.unregistered] at hregistered
              contradiction
          | registered hmode hregistered hphase => exact .registered hmode hregistered hphase
  | ackTimer =>
      cases h
      cases harmed : s.session.ackArmed with
      | false => simpa [ReplicationSession.step, harmed, sentBytes] using hs
      | true =>
          cases hs with
          | flight m hbuf hbytes => contradiction
          | posted hnext => contradiction
          | replied hnext hbuf hbytes => contradiction
          | refused m hmay hc hbuf herror hbytes => contradiction
          | stopped hmay hc => contradiction
          | registered hmode hregistered hphase =>
              refine .registered hmode hregistered ?_
              simp only [ReplicationSession.step, harmed, if_true]
              exact hphase

/-- The parties are at one stage all through a handshake. -/
theorem stage_run (hport : port < 65536) {s : Joining} {events : List JoiningEvent}
    (hwhole : ¬ cut →
      Execution.Along (Joining.step config port) Joining.ReadsWhole .initial events)
    (h : Joining.initial.run config port events = some s) : s.Stage port cut := by
  by_cases hcut : cut
  · exact Execution.follow_invariant (P := fun _ _ => True)
      (fun hs _ hstep => stage_step hport hs (fun hno => absurd hcut hno) hstep)
      stage_initial (Execution.along_of_forall (fun _ _ => trivial) _) h
  · exact Execution.follow_invariant
      (fun hs hread hstep => stage_step hport hs (fun _ => hread) hstep)
      stage_initial (hwhole hcut) h

end Stages

/-! ## Agreement -/

/-- Whatever the chunks in which the two parties read and whatever is propagated meanwhile: a
session that takes in a resynchronization or executes commands has been registered by its
master, the master registers only a session that has sent its {lit}`PSYNC`, and it never takes
the connection for a client's. -/
theorem handshake_agrees {config : ServerConfig} {port : Nat} (hport : port < 65536)
    {events : List JoiningEvent} {s : Joining}
    (hrun : Joining.initial.run config port events = some s) :
    (s.session.state.phase ∈ [.pingReply, .replconfPortReply, .replconfCapaReply, .psyncReply,
        .stopped] ∨
      s.conn.mode = .replication ∧ s.conn.registeredAsReplica = true) ∧
    (s.conn.registeredAsReplica = true → s.session.state.phase.behindPsync = true) ∧
    s.conn.mode ≠ .client := by
  have hawaiting : ∀ m : HandshakeMessage, m.awaiting ∈ [SessionPhase.pingReply,
      .replconfPortReply, .replconfCapaReply, .psyncReply, .stopped] := by
    intro m
    cases m <;> decide
  have hbefore : ∀ m : HandshakeMessage,
      m.before.registeredAsReplica = false ∧ m.before.mode ≠ .client := by
    intro m
    cases m <;> decide
  cases @stage_run config port True hport _ _ (fun hno => absurd trivial hno) hrun with
  | flight m hbuf hbytes =>
      exact ⟨.inl (hawaiting m), fun h => absurd h (by simp [(hbefore m).1]), (hbefore m).2⟩
  | @posted m m' hnext =>
      exact ⟨.inl (hawaiting m), fun h => absurd h (by simp [(hbefore m').1]), (hbefore m').2⟩
  | @replied m m' hnext buf down hbuf hbytes =>
      exact ⟨.inl (hawaiting m), fun h => absurd h (by simp [(hbefore m').1]), (hbefore m').2⟩
  | refused m hmay hc hbuf herror hbytes =>
      exact ⟨.inl (hawaiting m), fun h => absurd h (by simp [hc.unregistered]), by simp [hc.mode]⟩
  | stopped hmay hc =>
      exact ⟨.inl (by simp), fun h => absurd h (by simp [hc.unregistered]), by simp [hc.mode]⟩
  | registered hmode hregistered hphase =>
      exact ⟨.inr ⟨hmode, hregistered⟩, fun _ => hphase, by simp [hmode]⟩

/-- The exchanges in front of {lit}`PSYNC`, in whole messages. -/
def wholeHandshake : List JoiningEvent :=
  [.masterRead 14, .answer .empty [], .replicaRead 7,
    .masterRead 49, .answer .empty [], .replicaRead 5,
    .masterRead 40, .answer .empty [], .replicaRead 5]

/-- The whole handshake registers the replica, whose session is behind its {lit}`PSYNC`; a
{lit}`PING` that is cut behind its first line stops the session. -/
theorem handshake_agrees_samples :
    (∃ s, Joining.initial.run sampleMaster.toServerConfig 6380 (wholeHandshake ++ [.masterRead 30]) =
        some s ∧ s.conn.registeredAsReplica = true ∧ s.session.state.phase.behindPsync = true ∧
      s.conn.mode ≠ .client) ∧
    ∃ s, Joining.initial.run sampleMaster.toServerConfig 6380
        [.masterRead 4, .replicaRead 18, .masterRead 10] = some s ∧
      s.session.state.phase = .stopped ∧ s.conn.mode ≠ .client := by
  have hregisters : (Joining.initial.run sampleMaster.toServerConfig 6380
      (wholeHandshake ++ [.masterRead 30])).map (fun s => s.conn.registeredAsReplica) =
      some true := by
    decide +kernel
  have hstops : (Joining.initial.run sampleMaster.toServerConfig 6380
      [.masterRead 4, .replicaRead 18, .masterRead 10]).map (fun s => s.session.state.phase) =
      some .stopped := by
    decide +kernel
  rcases Option.map_eq_some_iff.mp hregisters with ⟨s, hs, hregistered⟩
  rcases Option.map_eq_some_iff.mp hstops with ⟨s', hs', hphase⟩
  have hagrees := handshake_agrees (by decide) hs
  exact ⟨⟨s, hs, hregistered, hagrees.2.1 hregistered, hagrees.2.2⟩,
    s', hs', hphase, (handshake_agrees (by decide) hs').2.2⟩

/-- A read that registers the replica finds the session behind its {lit}`PSYNC`, with nothing
else on its way, and is the step that attaches a link to the cluster: the new link is made of
the connection and of the session as they are. -/
theorem registration_attaches {config : ServerConfig} {port : Nat} (hport : port < 65536)
    {events : List JoiningEvent} {s s' : Joining} {n : Nat}
    (hrun : Joining.initial.run config port events = some s)
    (hstep : s.step config port (.masterRead n) = some s')
    (hbefore : s.conn.registeredAsReplica = false)
    (hafter : s'.conn.registeredAsReplica = true) (cluster : Cluster) :
    s'.up = [] ∧ s'.down = [] ∧ s'.posted = [psyncRequest] ∧ s'.session = .syncing ∧
      ∃ cmd, parseCommand psyncRequest = .ok cmd ∧
        cluster.attach { s.conn with buf := [] } psyncRequest =
          some ({ cluster with registry := cluster.registry.add.1 }.setLink cluster.registry.add.2
            ⟨s'.conn, some cmd, s'.down, s'.session, [], [], none⟩) := by
  have hs := @stage_run config port True hport _ _ (fun hno => absurd trivial hno) hrun
  have hread := hstep
  simp only [Joining.step, Joining.masterRead, Option.ite_none_right_eq_some,
    Option.some.injEq] at hread
  cases hs with
  | @flight m buf up hbuf hbytes =>
      have hcut : buf ++ up.take n ++ up.drop n = serialize (m.request port) := by
        rw [List.append_assoc, List.take_append_drop, hbytes]
      have hfresh : m.before.registeredAsReplica = false := hbefore
      generalize hchunk : Connection.receive { m.before with buf := buf } (up.take n) = read
        at hread
      rcases hread with ⟨-, rfl⟩
      have hread := m.receive_message hport hcut
      rw [hchunk] at hread
      rcases hread with ⟨-, rfl⟩ | ⟨-, -, -, hrefuses⟩ | ⟨hrest, rfl⟩
      · exact absurd (hfresh.symm.trans hafter) (by decide)
      · simp only [hrefuses.same, hfresh] at hafter
        contradiction
      · cases hnext : m.next with
        | some m' =>
            rcases HandshakeMessage.onRead_next hport hnext with ⟨kind, hhandle⟩
            have hfresh' : m'.before.registeredAsReplica = false := by cases m' <;> rfl
            simp only [hhandle, hfresh'] at hafter
            contradiction
        | none =>
            have hpsync : m = .psync := by
              cases m <;> first | rfl | contradiction
            subst hpsync
            simp only [HandshakeMessage.onRead_psync, hrest]
            exact ⟨trivial, rfl, rfl, rfl, _, rfl, rfl⟩
  | posted hnext => simp at hread
  | replied hnext hbuf hbytes =>
      have hlen : n ≤ 0 := hread.1.2.1
      omega
  | refused m hmay hc hbuf herror hbytes =>
      rw [(hc.masterRead hstep).1.unregistered] at hafter
      contradiction
  | stopped hmay hc =>
      rw [(hc.masterRead hstep).1.unregistered] at hafter
      contradiction
  | registered hmode hregistered hphase =>
      rw [hregistered] at hbefore
      contradiction

/-- The handshake in whole messages registers the replica. -/
theorem registration_attaches_whole :
    ∃ s s', Joining.initial.run sampleMaster.toServerConfig 6380 wholeHandshake = some s ∧
      s.step sampleMaster.toServerConfig 6380 (.masterRead 30) = some s' ∧
      s'.posted = [psyncRequest] ∧ s'.session = .syncing := by
  have hflags : ((Joining.initial.run sampleMaster.toServerConfig 6380 wholeHandshake).bind
      fun s => (s.step sampleMaster.toServerConfig 6380 (.masterRead 30)).map
        fun s' => (s.conn.registeredAsReplica, s'.conn.registeredAsReplica)) =
      some (false, true) := by
    decide +kernel
  rcases Option.bind_eq_some_iff.mp hflags with ⟨s, hrun, hlast⟩
  rcases Option.map_eq_some_iff.mp hlast with ⟨s', hstep, heq⟩
  have hjoined := registration_attaches (by decide) hrun hstep (congrArg Prod.fst heq)
    (congrArg Prod.snd heq) .initial
  exact ⟨s, s', hrun, hstep, hjoined.2.2.1, hjoined.2.2.2.1⟩

/-! ## Completion -/

section Completion

variable {config : ServerConfig} {port : Nat}

/-- The state with a message on its way. -/
def HandshakeMessage.inFlight (m : HandshakeMessage) (buf up : Bytes) : Joining :=
  ⟨{ m.before with buf := buf }, up, [], [], ⟨⟨m.awaiting, 0⟩, [], false⟩⟩

/-- The session is in its command loop at an offset, and the master has registered it. -/
def Joining.Synced (s : Joining) (offset : Nat) : Prop :=
  s.session = ⟨⟨.commands, offset⟩, [], true⟩ ∧ s.conn.registeredAsReplica = true ∧
    s.up = [] ∧ s.posted = [] ∧ s.down = []

/-- The rest of a message is read in one chunk. -/
theorem masterRead_rest (m : HandshakeMessage) {buf up : Bytes}
    (hbuf : readLine buf = none) (hbytes : buf ++ up = serialize (m.request port))
    (hthrows : .throws ∉ (onRead m.before (serialize (m.request port))).2) :
    (m.inFlight buf up).masterRead up.length =
      some ⟨(onRead m.before (serialize (m.request port))).1, [],
        handledRequests (onRead m.before (serialize (m.request port))).2,
        responseBytes (onRead m.before (serialize (m.request port))).2,
        ⟨⟨m.awaiting, 0⟩, [], false⟩⟩ := by
  have hread : Connection.receive { m.before with buf := buf } up =
      onRead m.before (serialize (m.request port)) := by
    have hline : hasLine (serialize (m.request port)) = true := by
      unfold hasLine
      rw [HandshakeMessage.request, RespValue.array, serialize, List.append_assoc,
        readLine_cons (by decide) (noCrlf_render _)]
      rfl
    unfold Connection.receive
    simp only [hbytes, hline, if_true, m.before_buf]
  have hpos : 0 < up.length := by
    rw [List.length_pos_iff]
    rintro rfl
    rw [List.append_nil] at hbytes
    rw [hbytes, HandshakeMessage.request, RespValue.array, serialize, List.append_assoc,
      readLine_cons (by decide) (noCrlf_render _)] at hbuf
    contradiction
  simp only [Joining.masterRead, HandshakeMessage.inFlight, List.take_length, List.drop_length,
    hread, List.nil_append]
  rw [if_pos ⟨hpos, Nat.le_refl _, trivial, hthrows⟩]

/-- The whole of what is on its way to the session is read in one chunk. -/
theorem replicaRead_all {s : Joining} (hdown : s.down ≠ []) :
    s.replicaRead port s.down.length =
      some { s with
        session := (s.session.receive port s.down).1
        down := []
        up := s.up ++ sentBytes (s.session.receive port s.down).2 } := by
  have hpos := List.length_pos_iff.mpr hdown
  simp [Joining.replicaRead, hpos]

/-- One message, its answer and the reply. -/
theorem exchange_next (hport : port < 65536) {m m' : HandshakeMessage} (hnext : m.next = some m')
    {buf up : Bytes} (hbuf : readLine buf = none)
    (hbytes : buf ++ up = serialize (m.request port)) (registry : ReplicaRegistry) :
    (m.inFlight buf up).run config port
        [.masterRead up.length, .answer registry [], .replicaRead m.reply.length] =
      some (m'.inFlight [] (serialize (m'.request port))) := by
  rcases HandshakeMessage.onRead_next hport hnext with ⟨kind, hread⟩
  have hmaster := masterRead_rest m hbuf hbytes (by simp [hread])
  have hreply : handlerReply config registry [] (m.request port) = m.reply := by
    cases m with
    | ping | listeningPort | capa => rfl
    | psync => contradiction
  rw [hread] at hmaster
  have hreplica := @replicaRead_all port
    ⟨m'.before, [], [], m.reply, ⟨⟨m.awaiting, 0⟩, [], false⟩⟩ (by simp [HandshakeMessage.reply])
  have hsession := @HandshakeMessage.receive_reply port m m' hnext [] m.reply (List.nil_append _)
  simp only [Joining.run, Execution.follow, Joining.step, hmaster, Option.bind_some,
    handledRequests, responseBytes, List.filterMap_cons, List.filterMap_nil, List.flatMap_cons,
    List.flatMap_nil, List.append_nil, List.nil_append, hreply, hreplica, hsession]
  rw [HandshakeMessage.inFlight, m'.before_buf]
  simp [sentBytes, encodeArray, HandshakeMessage.request]

/-- {lit}`PSYNC`, its answer and the resynchronization. -/
theorem exchange_psync (hrole : config.role = .master) {buf up : Bytes}
    (hbuf : readLine buf = none)
    (hbytes : buf ++ up = serialize (HandshakeMessage.psync.request port))
    {registry : ReplicaRegistry} (hoffset : 0 ≤ registry.masterOffset)
    (hfits : registry.masterOffset ≤ longLongMax) :
    ∃ n s, (HandshakeMessage.psync.inFlight buf up).run config port
        [.masterRead up.length, .answer registry [], .replicaRead n] = some s ∧
      s.Synced registry.masterOffset.toNat := by
  have hmaster := masterRead_rest .psync hbuf hbytes
    (by simp [HandshakeMessage.onRead_psync])
  rw [HandshakeMessage.onRead_psync] at hmaster
  have hreply : handlerReply config registry [] psyncRequest =
      fullresyncMessage config.masterReplid (Decimal.render registry.masterOffset.toNat)
        rdbPayload := by
    rw [← renderInt_of_nonneg hoffset]
    exact @psyncExecute_master config hrole
      ⟨.psync, ascii "PSYNC", [ascii "?", ascii "-1"]⟩ (by decide) registry
  have hmod : registry.masterOffset.toNat < sizeTModulus := by
    unfold longLongMax at hfits
    unfold sizeTModulus
    omega
  have hdrain := @drain_resync port 0 registry.masterOffset.toNat config.masterReplid rdbPayload []
    config.noCrlf_replid hmod (by decide) (by simp)
  simp only [List.flatMap_nil, List.append_nil, List.length_nil, Nat.add_zero,
    Nat.mod_eq_of_lt hmod, streamActions] at hdrain
  have hne : fullresyncMessage config.masterReplid
      (Decimal.render registry.masterOffset.toNat) rdbPayload ≠ [] := by
    simp [fullresyncMessage]
  generalize fullresyncMessage config.masterReplid (Decimal.render registry.masterOffset.toNat)
    rdbPayload = message at hreply hdrain hne
  have hsession : ReplicationSession.receive port ⟨⟨.psyncReply, 0⟩, [], false⟩ message =
      (⟨⟨.commands, registry.masterOffset.toNat⟩, [], true⟩, []) := by
    show ReplicationSession.read port _ message = _
    simp [ReplicationSession.read, hdrain]
  have hreplica := @replicaRead_all port
    ⟨{ Connection.handshaken with mode := .replication, registeredAsReplica := true }, [], [],
      message, ⟨⟨.psyncReply, 0⟩, [], false⟩⟩ hne
  refine ⟨message.length, ⟨{ Connection.handshaken with
    mode := .replication, registeredAsReplica := true }, [], [], [],
    ⟨⟨.commands, registry.masterOffset.toNat⟩, [], true⟩⟩, ?_, rfl, rfl, rfl, rfl, rfl⟩
  simp only [Joining.run, Execution.follow, Joining.step, hmaster, Option.bind_some,
    handledRequests, responseBytes, List.filterMap_cons, List.filterMap_nil, List.flatMap_cons,
    List.flatMap_nil, List.append_nil, List.nil_append, hreply]
  rw [HandshakeMessage.awaiting, hreplica, hsession]
  simp [sentBytes]

/-- The handshake can be completed from here. -/
def Joining.Completes (config : ServerConfig) (port offset : Nat) (s : Joining) : Prop :=
  ∃ more s', s.run config port more = some s' ∧ s'.Synced offset

/-- Steps that lead to a state from which the handshake can be completed. -/
theorem Joining.Completes.of_run {s s' : Joining} {events : List JoiningEvent} {offset : Nat}
    (hrun : s.run config port events = some s') (h : s'.Completes config port offset) :
    s.Completes config port offset := by
  rcases h with ⟨more, t, hmore, ht⟩
  refine ⟨events ++ more, t, ?_, ht⟩
  rw [Joining.run, Execution.follow_append hrun]
  exact hmore

/-- A handshake with a message on its way can be completed. -/
theorem completes_inFlight (hport : port < 65536) (hrole : config.role = .master)
    {registry : ReplicaRegistry} (hoffset : 0 ≤ registry.masterOffset)
    (hfits : registry.masterOffset ≤ longLongMax) (m : HandshakeMessage) {buf up : Bytes}
    (hbuf : readLine buf = none) (hbytes : buf ++ up = serialize (m.request port)) :
    (m.inFlight buf up).Completes config port registry.masterOffset.toNat := by
  have hpsync : ∀ {buf up : Bytes}, readLine buf = none →
      buf ++ up = serialize (HandshakeMessage.psync.request port) →
      (HandshakeMessage.psync.inFlight buf up).Completes config port
        registry.masterOffset.toNat := by
    intro buf up hbuf hbytes
    rcases exchange_psync hrole hbuf hbytes hoffset hfits with ⟨n, s, hrun, hs⟩
    exact ⟨_, s, hrun, hs⟩
  have hcapa : ∀ {buf up : Bytes}, readLine buf = none →
      buf ++ up = serialize (HandshakeMessage.capa.request port) →
      (HandshakeMessage.capa.inFlight buf up).Completes config port
        registry.masterOffset.toNat :=
    fun hbuf hbytes => .of_run (exchange_next hport rfl hbuf hbytes registry) (hpsync rfl rfl)
  have hlisten : ∀ {buf up : Bytes}, readLine buf = none →
      buf ++ up = serialize (HandshakeMessage.listeningPort.request port) →
      (HandshakeMessage.listeningPort.inFlight buf up).Completes config port
        registry.masterOffset.toNat :=
    fun hbuf hbytes => .of_run (exchange_next hport rfl hbuf hbytes registry) (hcapa rfl rfl)
  cases m with
  | psync => exact hpsync hbuf hbytes
  | capa => exact hcapa hbuf hbytes
  | listeningPort => exact hlisten hbuf hbytes
  | ping => exact .of_run (exchange_next hport rfl hbuf hbytes registry) (hlisten rfl rfl)

/-- The reply to a message is read, and the next message is on its way. -/
theorem replied_run {m m' : HandshakeMessage} (hnext : m.next = some m') {buf down : Bytes}
    (hbuf : readLine buf = none) (hbytes : buf ++ down = m.reply) :
    Joining.run config port ⟨m'.before, [], [], down, ⟨⟨m.awaiting, 0⟩, buf, false⟩⟩
        [.replicaRead down.length] =
      some (m'.inFlight [] (serialize (m'.request port))) := by
  have hdown : down ≠ [] := by
    rintro rfl
    have hline := @readLine_cons 43 m.replyText (by decide) m.noCrlf_replyText []
    rw [List.append_nil] at hbytes hline
    rw [hbytes, HandshakeMessage.reply, hline] at hbuf
    contradiction
  have hreplica := @replicaRead_all port
    ⟨m'.before, [], [], down, ⟨⟨m.awaiting, 0⟩, buf, false⟩⟩ hdown
  simp only [Joining.run, Execution.follow, Joining.step, hreplica, Option.bind_some,
    HandshakeMessage.receive_reply hnext hbytes]
  rw [HandshakeMessage.inFlight, m'.before_buf]
  simp [sentBytes, encodeArray, HandshakeMessage.request]

end Completion

/-- No handshake with a master gets stuck as long as its messages arrive whole: from every state
in which the replica is not registered yet, the parties can go on until the session is in its
command loop, at the offset that the master states, with its acknowledgement timer armed. -/
theorem handshake_completes {config : ServerConfig} {port : Nat} (hport : port < 65536)
    (hrole : config.role = .master) {events : List JoiningEvent} {s : Joining}
    (hwhole : Execution.Along (Joining.step config port) Joining.ReadsWhole .initial events)
    (hrun : Joining.initial.run config port events = some s)
    (hopen : s.conn.registeredAsReplica = false) {registry : ReplicaRegistry}
    (hoffset : 0 ≤ registry.masterOffset) (hfits : registry.masterOffset ≤ longLongMax) :
    s.Completes config port registry.masterOffset.toNat := by
  have hflight := @completes_inFlight config port hport hrole registry hoffset hfits
  cases @stage_run config port False hport _ _ (fun _ => hwhole) hrun with
  | flight m hbuf hbytes => exact hflight m hbuf hbytes
  | @posted m m' hnext =>
      have hreply : handlerReply config registry [] (m.request port) = m.reply := by
        cases m with
        | ping | listeningPort | capa => rfl
        | psync => contradiction
      refine @Joining.Completes.of_run _ _ _ _ [.answer registry []] _ ?_
        (.of_run (replied_run hnext rfl (List.nil_append _)) (hflight m' rfl rfl))
      simp [Joining.run, Execution.follow, Joining.step, hreply]
  | @replied m m' hnext buf down hbuf hbytes =>
      exact .of_run (replied_run hnext hbuf hbytes) (hflight m' rfl rfl)
  | refused m hmay hc hbuf herror hbytes => exact hmay.elim
  | stopped hmay hc => exact hmay.elim
  | registered hmode hregistered hphase =>
      rw [hregistered] at hopen
      contradiction

/-- A handshake whose {lit}`PING` was cut inside its first line can be completed. -/
theorem handshake_completes_cut_line :
    ∃ s, Joining.initial.run sampleMaster.toServerConfig 6380
        [.masterRead 2, .masterRead 12, .answer .empty []] = some s ∧
      s.Completes sampleMaster.toServerConfig 6380 0 := by
  have hrun : (Joining.initial.run sampleMaster.toServerConfig 6380
      [.masterRead 2, .masterRead 12, .answer .empty []]).map
        (fun s => s.conn.registeredAsReplica) = some false := by
    decide +kernel
  rcases Option.map_eq_some_iff.mp hrun with ⟨s, hs, hopen⟩
  exact ⟨s, hs, @handshake_completes sampleMaster.toServerConfig 6380 (by decide) rfl _ s
    (by decide +kernel) hs hopen .empty (by decide) (by decide)⟩

end RedisClone
