import RedisClone.Replication.Attachment

/-!
# What a link can look like

Three stages of a link: the replica waits for its {lit}`PSYNC` to be executed;
a frame was posted ahead of the reply, and the session is stuck; or the reply
came first, and the session reads the reply, the RDB file and the frames behind
it.  In every stage the acknowledged offset is behind the replica's offset, and
that is behind the master's.

Main results:

- Theorem {lit}`synced_drain` and {lit}`blocked_drain`: what the session makes of
  the next bytes.
- Theorem {lit}`invariant_run`: every link of a run is in one of the stages.
-/

namespace RedisClone

open RespValue

/-! ## A session behind its reply -/

/-- A session that was sent the reply and then {lit}`posted`, by what it has not
read yet. -/
inductive Synced (replid : Bytes) (o : Nat) (posted : List RespValue) :
    SessionState → Bytes → Prop where
  | reply :
      Synced replid o posted ⟨.psyncReply, 0⟩
        (fullresyncMessage replid (Decimal.render o) rdbPayload ++ posted.flatMap serialize)
  | header :
      Synced replid o posted ⟨.rdbHeader, o⟩
        (36 :: (Decimal.render rdbPayload.length ++ (crlf ++
          (rdbPayload ++ posted.flatMap serialize))))
  | body :
      Synced replid o posted ⟨.rdbBody rdbPayload.length, o⟩
        (rdbPayload ++ posted.flatMap serialize)
  | commands {done todo : List RespValue} (hposted : posted = done ++ todo) :
      Synced replid o posted ⟨.commands, o + (done.flatMap serialize).length⟩
        (todo.flatMap serialize)

/-- Another frame is posted. -/
theorem Synced.append {replid : Bytes} {o : Nat} {posted : List RespValue} {s : SessionState}
    {unread : Bytes} (h : Synced replid o posted s unread) (request : RespValue) :
    Synced replid o (posted ++ [request]) s (unread ++ serialize request) := by
  have hbytes : posted.flatMap serialize ++ serialize request =
      (posted ++ [request]).flatMap serialize := by simp
  cases h with
  | reply =>
      rw [List.append_assoc, hbytes]
      exact .reply
  | header =>
      simp only [List.cons_append, List.append_assoc]
      rw [hbytes]
      exact .header
  | body =>
      rw [List.append_assoc, hbytes]
      exact .body
  | @commands done todo hposted =>
      have htodo : todo.flatMap serialize ++ serialize request =
          (todo ++ [request]).flatMap serialize := by simp
      rw [htodo]
      exact .commands (by rw [hposted, List.append_assoc])

/-- The offset of a replica never exceeds what was sent to it. -/
theorem Synced.offset_le {replid : Bytes} {o : Nat} {posted : List RespValue} {s : SessionState}
    {unread : Bytes} (h : Synced replid o posted s unread) :
    s.replicaOffset ≤ o + (posted.flatMap serialize).length := by
  cases h with
  | reply => exact Nat.zero_le _
  | header => exact Nat.le_add_right _ _
  | body => exact Nat.le_add_right _ _
  | @commands done todo hposted =>
      rw [hposted, List.flatMap_append, List.length_append]
      simp only
      omega

/-- The offset is set by the reply line. -/
theorem Synced.offset_eq_zero {replid : Bytes} {o : Nat} {posted : List RespValue}
    {s : SessionState} {unread : Bytes} (h : Synced replid o posted s unread)
    (hphase : s.phase = .psyncReply) : s.replicaOffset = 0 := by
  cases h with
  | reply => rfl
  | header | body | commands => contradiction

/-- One completion handler of a session behind its reply. -/
theorem synced_step {port : Nat} {replid : Bytes} {o : Nat} {posted : List RespValue}
    {s s' : SessionState} {buf down rest : Bytes} {out : List SessionAction}
    (hreplid : NoCrlf replid) (hposted : ∀ r ∈ posted, IsRequest r)
    (hfits : o + (posted.flatMap serialize).length < sizeTModulus)
    (h : Synced replid o posted s (buf ++ down))
    (hstep : (sessionMachine port).step s buf = some (s', rest, out)) :
    Synced replid o posted s' (rest ++ down) ∧ s.replicaOffset ≤ s'.replicaOffset ∧
      ∀ b n, .sendAck b n ∈ out → n = s'.replicaOffset := by
  have hfull := (sessionMachine port).step_append hstep down
  generalize hunread : buf ++ down = unread at h hfull
  cases h with
  | reply =>
      have hreply := @step_psyncReply port 0 o replid hreplid (by omega)
        (36 :: (Decimal.render rdbPayload.length ++ (crlf ++
          (rdbPayload ++ posted.flatMap serialize))))
      simp only [fullresyncMessage, List.cons_append, List.append_assoc] at hfull
      rw [hreply] at hfull
      simp only [Option.some.injEq, Prod.mk.injEq] at hfull
      rcases hfull with ⟨rfl, hrest, rfl⟩
      rw [← hrest]
      exact ⟨.header, Nat.zero_le _, by simp⟩
  | header =>
      have hsize : rdbPayload.length < sizeTModulus := by decide
      rw [@step_rdbHeader port o _ hsize] at hfull
      simp only [Option.some.injEq, Prod.mk.injEq] at hfull
      rcases hfull with ⟨rfl, hrest, rfl⟩
      rw [← hrest]
      exact ⟨.body, Nat.le_refl _, by simp⟩
  | body =>
      rw [@step_rdbBody port o rdbPayload] at hfull
      simp only [Option.some.injEq, Prod.mk.injEq] at hfull
      rcases hfull with ⟨rfl, hrest, rfl⟩
      rw [← hrest]
      exact ⟨@Synced.commands replid o posted [] posted rfl, Nat.le_refl _, by simp⟩
  | @commands done todo hsplit =>
      cases todo with
      | nil => simp [sessionMachine_step, sessionStep, tryProcessOneBufferedCommand] at hfull
      | cons command todo =>
          have hwf := (hposted command (by simp [hsplit])).wellFormed
          have hoffset : (o + (done.flatMap serialize).length + (serialize command).length) %
              sizeTModulus = o + ((done ++ [command]).flatMap serialize).length := by
            rw [hsplit] at hfits
            simp only [List.flatMap_append, List.flatMap_cons, List.length_append] at hfits
            rw [Nat.mod_eq_of_lt (by omega)]
            simp [Nat.add_assoc]
          rw [List.flatMap_cons, @step_command port _ command hwf, hoffset] at hfull
          simp only [Option.some.injEq, Prod.mk.injEq] at hfull
          rcases hfull with ⟨rfl, hrest, rfl⟩
          rw [← hrest]
          refine ⟨.commands (by simp [hsplit]), ?_, ?_⟩
          · simp
          · intro b n hmem
            rw [List.mem_singleton] at hmem
            split at hmem
            · cases hmem
              rfl
            · contradiction

/-- The completion handlers of a session behind its reply. -/
theorem synced_drain {port : Nat} {replid : Bytes} {o : Nat} {posted : List RespValue}
    {s : SessionState} {buf down : Bytes}
    (hreplid : NoCrlf replid) (hposted : ∀ r ∈ posted, IsRequest r)
    (hfits : o + (posted.flatMap serialize).length < sizeTModulus)
    (h : Synced replid o posted s (buf ++ down)) :
    Synced replid o posted ((sessionMachine port).drain s buf).1
        (((sessionMachine port).drain s buf).2.1 ++ down) ∧
      s.replicaOffset ≤ ((sessionMachine port).drain s buf).1.replicaOffset ∧
      ∀ b n, .sendAck b n ∈ ((sessionMachine port).drain s buf).2.2 →
        n ≤ ((sessionMachine port).drain s buf).1.replicaOffset := by
  apply (sessionMachine port).drain_induction
    (fun s' buf' acc => Synced replid o posted s' (buf' ++ down) ∧
      s.replicaOffset ≤ s'.replicaOffset ∧ ∀ b n, .sendAck b n ∈ acc → n ≤ s'.replicaOffset)
    _ s buf [] ⟨h, Nat.le_refl _, by simp⟩
  rintro s₁ s₂ buf₁ rest out acc hstep ⟨hsynced, hle, hacks⟩
  rcases synced_step hreplid hposted hfits hsynced hstep with ⟨hsynced', hle', hout⟩
  refine ⟨hsynced', hle.trans hle', ?_⟩
  intro b n hmem
  rcases List.mem_append.mp hmem with hmem | hmem
  · exact (hacks b n hmem).trans hle'
  · exact Nat.le_of_eq (hout b n hmem)

/-! ## A session ahead of its reply -/

/-- A session that was sent a frame ahead of the reply. -/
inductive Blocked : SessionState → Bytes → Prop where
  | frame {request : RespValue} (hrequest : IsRequest request) (more : Bytes) :
      Blocked ⟨.psyncReply, 0⟩ (serialize request ++ more)
  | stopped (unread : Bytes) : Blocked ⟨.stopped, 0⟩ unread

/-- More bytes do not help. -/
theorem Blocked.append {s : SessionState} {unread : Bytes} (h : Blocked s unread) (more : Bytes) :
    Blocked s (unread ++ more) := by
  cases h with
  | frame hrequest tail =>
      rw [List.append_assoc]
      exact .frame hrequest _
  | stopped unread => exact .stopped _

/-- The offset was never set. -/
theorem Blocked.offset_eq {s : SessionState} {unread : Bytes} (h : Blocked s unread) :
    s.replicaOffset = 0 := by
  cases h <;> rfl

/-- An array header alone is an incomplete value. -/
theorem parse_array_header {n : Nat} (hpos : 0 < n) (hn : (n : Int) ≤ intMax) :
    parse (42 :: (Decimal.render n ++ crlf)) = .ok none := by
  have hitem := readItem_array_header hpos hn []
  rw [List.append_nil] at hitem
  unfold parse
  rw [parseLoop_cons, hitem]
  simp [parseLoop_nil]

/-- The encoding of a request starts with an array header. -/
theorem IsRequest.serialize_eq {request : RespValue} (h : IsRequest request) :
    ∃ (n : Nat) (tail : Bytes), 0 < n ∧ (n : Int) ≤ intMax ∧
      serialize request = 42 :: (Decimal.render n ++ (crlf ++ tail)) := by
  rcases request with ⟨type, str, elements⟩
  have htype : type = .array := h.type_eq
  subst htype
  have hne : elements ≠ [] := h.nonempty
  cases h.wellFormed with
  | array hcount helements =>
      refine ⟨elements.length, elements.flatMap serialize, List.length_pos_iff.mpr hne, hcount, ?_⟩
      rw [serialize_array, List.append_assoc]

/-- The header line of a frame is not a reply. -/
theorem step_blocked {port : Nat} {request : RespValue} (hrequest : IsRequest request)
    (more : Bytes) :
    ∃ rest, (sessionMachine port).step ⟨.psyncReply, 0⟩ (serialize request ++ more) =
      some (⟨.stopped, 0⟩, rest, []) := by
  rcases hrequest.serialize_eq with ⟨n, tail, hpos, hn, heq⟩
  refine ⟨tail ++ more, ?_⟩
  rw [heq, sessionMachine_step]
  simp only [List.cons_append, List.append_assoc, sessionStep, readReply,
    @readLine_cons 42 _ (by decide) (noCrlf_render n), parse_array_header hpos hn]

/-- The completion handlers of a session that is stuck. -/
theorem blocked_drain {port : Nat} {s : SessionState} {buf down : Bytes}
    (h : Blocked s (buf ++ down)) :
    Blocked ((sessionMachine port).drain s buf).1
        (((sessionMachine port).drain s buf).2.1 ++ down) ∧
      ((sessionMachine port).drain s buf).2.2 = [] := by
  apply (sessionMachine port).drain_induction
    (fun s' buf' acc => Blocked s' (buf' ++ down) ∧ acc = []) _ s buf [] ⟨h, rfl⟩
  rintro s₁ s₂ buf₁ rest out acc hstep ⟨hblocked, rfl⟩
  have hfull := (sessionMachine port).step_append hstep down
  generalize hunread : buf₁ ++ down = unread at hblocked hfull
  cases hblocked with
  | frame hrequest more =>
      rcases @step_blocked port _ hrequest more with ⟨tail, hstop⟩
      rw [hstop] at hfull
      simp only [Option.some.injEq, Prod.mk.injEq] at hfull
      rcases hfull with ⟨rfl, -, rfl⟩
      exact ⟨.stopped _, rfl⟩
  | stopped unread => simp [sessionMachine_step, sessionStep] at hfull

/-! ## The stages of a link -/

/-- The stage of a link, given everything propagated so far and whether the
replica is registered. -/
inductive Stage (config : MasterConfig) (log : Bytes) (live : Bool) (l : Link) : Prop where
  /-- The {lit}`PSYNC` waits for the store thread. -/
  | waiting {cmd : Command} (hpsync : l.psync = some cmd) (hargs : 2 ≤ cmd.args.length)
      (hsent : l.sent = []) (hstate : l.session.state = ⟨.psyncReply, 0⟩) (hunread : l.unread = [])
  /-- A frame was sent ahead of the reply. -/
  | blocked (hsent : l.sent.head? = some 42) (hblocked : Blocked l.session.state l.unread)
  /-- The reply was sent first, and then what was propagated. -/
  | synced {o : Nat} {posted : List RespValue} (hposted : ∀ r ∈ posted, IsRequest r)
      (hpsync : l.psync = none) (hstated : l.stated = some o) (ho : o ≤ log.length)
      (hsent : l.sent = fullresyncMessage config.masterReplid (Decimal.render o) rdbPayload ++
        posted.flatMap serialize)
      (hlog : posted.flatMap serialize <+: log.drop o)
      (hlive : live = true → posted.flatMap serialize = log.drop o)
      (hsynced : Synced config.masterReplid o posted l.session.state l.unread)

/-- What a replica counted was propagated. -/
theorem Stage.offset_le {config : MasterConfig} {log : Bytes} {live : Bool} {l : Link}
    (h : Stage config log live l) : l.session.state.replicaOffset ≤ log.length := by
  cases h with
  | waiting hpsync hargs hsent hstate hunread =>
      rw [hstate]
      exact Nat.zero_le _
  | blocked hsent hblocked =>
      rw [hblocked.offset_eq]
      exact Nat.zero_le _
  | synced hposted hpsync hstated ho hsent hlog hlive hsynced =>
      have hle := hsynced.offset_le
      have hlen := hlog.length_le
      rw [List.length_drop] at hlen
      omega

/-- A link with what the registry knows about its replica. -/
structure LinkInv (config : MasterConfig) (log : Bytes) (acked : Option Int) (l : Link) :
    Prop where
  stage : Stage config log acked.isSome l
  mode : l.conn.mode = .replication
  up : ∀ message ∈ l.up, ∃ n, message = encodeArray (ackParts n) ∧
    n ≤ l.session.state.replicaOffset
  acked : ∀ a, acked = some a → 0 ≤ a ∧ a ≤ l.session.state.replicaOffset

/-- The invariant of a cluster. -/
structure Cluster.Invariant (config : MasterConfig) (s : Cluster) : Prop where
  consistent : s.Consistent
  fits : (s.log.length : Int) ≤ longLongMax
  linked : ∀ id, s.registry.registered id = true → s.links id ≠ none
  link : ∀ id l, s.links id = some l → LinkInv config s.log (s.registry.ackedOffset id) l

/-- A master that was just started satisfies the invariant. -/
theorem invariant_initial (config : MasterConfig) : Cluster.initial.Invariant config := by
  refine ⟨consistent_initial, by decide, ?_, ?_⟩
  · intro id hid
    contradiction
  · intro id l hl
    contradiction

/-! ## The steps of a link -/

/-- A frame is posted to a registered replica. -/
theorem LinkInv.post {config : MasterConfig} {log : Bytes} {acked : Option Int} {l : Link}
    (h : LinkInv config log acked l) (hacked : acked.isSome = true) {request : RespValue}
    (hrequest : IsRequest request) :
    LinkInv config (log ++ serialize request) acked (l.post (serialize request)) := by
  have hunread : (l.post (serialize request)).unread = l.unread ++ serialize request := by
    simp [Link.unread, Link.post]
  refine ⟨?_, h.mode, h.up, h.acked⟩
  cases h.stage with
  | waiting hpsync hargs hsent hstate hempty =>
      apply Stage.blocked
      · rcases hrequest.serialize_eq with ⟨n, tail, -, -, heq⟩
        simp [Link.post, hsent, heq]
      · rw [hunread, hempty, List.nil_append]
        have hframe := Blocked.frame hrequest []
        rw [List.append_nil] at hframe
        change Blocked l.session.state _
        rw [hstate]
        exact hframe
  | blocked hsent hblocked =>
      apply Stage.blocked
      · cases hl : l.sent with
        | nil => simp [hl] at hsent
        | cons b tail => simpa [Link.post, hl] using hsent
      · rw [hunread]
        exact hblocked.append _
  | @synced o posted hposted hpsync hstated ho hsent hlog hlive hsynced =>
      have hall := hlive hacked
      have hbytes : (posted ++ [request]).flatMap serialize =
          (log ++ serialize request).drop o := by
        rw [List.drop_append_of_le_length ho, ← hall]
        simp
      refine @Stage.synced config _ _ _ o (posted ++ [request]) ?_ hpsync hstated ?_ ?_ ?_ ?_ ?_
      · intro r hr
        rcases List.mem_append.mp hr with hr | hr
        · exact hposted r hr
        · rw [List.mem_singleton.mp hr]
          exact hrequest
      · rw [List.length_append]
        omega
      · simp [Link.post, hsent]
      · rw [hbytes]
      · exact fun _ => hbytes
      · rw [hunread]
        exact hsynced.append request

/-- A frame is not posted to a replica that was removed. -/
theorem LinkInv.skip {config : MasterConfig} {log : Bytes} {l : Link}
    (h : LinkInv config log none l) (data : Bytes) : LinkInv config (log ++ data) none l := by
  refine ⟨?_, h.mode, h.up, h.acked⟩
  cases h.stage with
  | waiting hpsync hargs hsent hstate hunread =>
      exact .waiting hpsync hargs hsent hstate hunread
  | blocked hsent hblocked => exact .blocked hsent hblocked
  | synced hposted hpsync hstated ho hsent hlog hlive hsynced =>
      refine .synced hposted hpsync hstated ?_ hsent ?_ (by simp) hsynced
      · rw [List.length_append]
        omega
      · rw [List.drop_append_of_le_length ho]
        exact hlog.trans (List.prefix_append _ _)

/-- A removed replica keeps its link. -/
theorem LinkInv.removed {config : MasterConfig} {log : Bytes} {acked : Option Int} {l : Link}
    (h : LinkInv config log acked l) : LinkInv config log none l := by
  refine ⟨?_, h.mode, h.up, by simp⟩
  cases h.stage with
  | waiting hpsync hargs hsent hstate hunread =>
      exact .waiting hpsync hargs hsent hstate hunread
  | blocked hsent hblocked => exact .blocked hsent hblocked
  | synced hposted hpsync hstated ho hsent hlog hlive hsynced =>
      exact .synced hposted hpsync hstated ho hsent hlog (by simp) hsynced

/-- The store thread answers {lit}`PSYNC`. -/
theorem LinkInv.answer {config : MasterConfig} {r : ReplicaRegistry} {log : Bytes}
    {acked : Option Int} {l : Link} {cmd : Command} (h : LinkInv config log acked l)
    (hcmd : l.psync = some cmd) (hoffset : r.masterOffset = log.length) :
    LinkInv config log acked
      (l.answer (psyncExecute config.toServerConfig (some r) cmd) r.masterOffset) := by
  refine ⟨?_, h.mode, h.up, h.acked⟩
  cases h.stage with
  | waiting hpsync hargs hsent hstate hempty =>
      rw [hcmd] at hpsync
      cases hpsync
      have hreply : psyncExecute config.toServerConfig (some r) cmd =
          fullresyncMessage config.masterReplid (Decimal.render log.length) rdbPayload := by
        rw [psyncExecute_master config.role_eq hargs, hoffset]
        rfl
      have hdrop : ([] : Bytes) = log.drop log.length := by simp
      rw [hreply]
      refine @Stage.synced config _ _ _ log.length [] (by simp) rfl ?_ (Nat.le_refl _) ?_ ?_ ?_ ?_
      · simp [Link.answer, hoffset]
      · simp [Link.answer, hsent]
      · simp
      · exact fun _ => hdrop
      · have hunread : (l.answer (fullresyncMessage config.masterReplid
            (Decimal.render log.length) rdbPayload) r.masterOffset).unread =
            fullresyncMessage config.masterReplid (Decimal.render log.length) rdbPayload ++
              ([] : List RespValue).flatMap serialize := by
          have hempty' : l.session.buf ++ l.down = [] := hempty
          simp only [Link.unread, Link.answer, ← List.append_assoc, hempty']
          simp
        rw [hunread]
        change Synced _ _ _ l.session.state _
        rw [hstate]
        exact .reply
  | blocked hsent hblocked =>
      apply Stage.blocked
      · cases hl : l.sent with
        | nil => simp [hl] at hsent
        | cons b tail => simpa [Link.answer, hl] using hsent
      · have hunread : (l.answer (psyncExecute config.toServerConfig (some r) cmd)
            r.masterOffset).unread =
            l.unread ++ psyncExecute config.toServerConfig (some r) cmd := by
          simp [Link.unread, Link.answer]
        rw [hunread]
        exact hblocked.append _
  | synced hposted hpsync hstated ho hsent hlog hlive hsynced =>
      rw [hcmd] at hpsync
      contradiction

/-- A session takes in bytes of its channel. -/
theorem LinkInv.deliver {config : MasterConfig} {port : Nat} {log : Bytes} {acked : Option Int}
    {l : Link} {n : Nat} (h : LinkInv config log acked l) (hfits : (log.length : Int) ≤ longLongMax)
    (hpos : 0 < n) (hn : n ≤ l.down.length) :
    LinkInv config log acked
      ({ l with down := l.down.drop n }.act (l.session.receive port (l.down.take n))) := by
  have hfeed := receive_eq_feed port l.session (l.down.take n)
  rw [StreamMachine.feed] at hfeed
  simp only [Prod.ext_iff] at hfeed
  rcases hfeed with ⟨hstate, hbuf, hout⟩
  have hchannel : l.unread = (l.session.buf ++ l.down.take n) ++ l.down.drop n := by
    simp [Link.unread]
  have hunread : ({ l with down := l.down.drop n }.act
      (l.session.receive port (l.down.take n))).unread =
      (l.session.receive port (l.down.take n)).1.buf ++ l.down.drop n := rfl
  have hup : ∀ {k : Nat}, l.session.state.replicaOffset ≤ k →
      (∀ b m, .sendAck b m ∈ (l.session.receive port (l.down.take n)).2 → m ≤ k) →
      ∀ message ∈ l.up ++ ackMessages (l.session.receive port (l.down.take n)).2,
        ∃ m, message = encodeArray (ackParts m) ∧ m ≤ k := by
    intro k hle hacks message hmem
    rcases List.mem_append.mp hmem with hmem | hmem
    · rcases h.up message hmem with ⟨m, hm, hmle⟩
      exact ⟨m, hm, hmle.trans hle⟩
    · rcases List.mem_filterMap.mp hmem with ⟨action, haction, heq⟩
      cases action with
      | send parts => contradiction
      | sendAck b m => exact ⟨m, (Option.some.inj heq).symm, hacks b m haction⟩
      | dispatch command => contradiction
  cases h.stage with
  | waiting hpsync hargs hsent hsession hempty =>
      have hdown : l.down = [] := (List.append_eq_nil_iff.mp hempty).2
      rw [hdown] at hn
      exact absurd hn (by simp; omega)
  | blocked hsent hblocked =>
      have hold := hblocked.offset_eq
      rw [hchannel] at hblocked
      rcases @blocked_drain port _ _ _ hblocked with ⟨hblocked', hnone⟩
      rw [← hout] at hnone
      refine ⟨.blocked hsent ?_, h.mode, ?_, ?_⟩
      · rw [hunread, hbuf]
        change Blocked (l.session.receive port (l.down.take n)).1.state _
        rw [hstate]
        exact hblocked'
      · apply hup
        · rw [hold]
          exact Nat.zero_le _
        · simp [hnone]
      · intro a ha
        rcases h.acked a ha with ⟨hnonneg, hle⟩
        refine ⟨hnonneg, hle.trans ?_⟩
        rw [hold]
        exact Int.natCast_nonneg _
  | synced hposted hpsync hstated ho hsent hlog hlive hsynced =>
      rename_i o posted
      have hsmall : o + (posted.flatMap serialize).length < sizeTModulus := by
        have hlen := hlog.length_le
        rw [List.length_drop] at hlen
        unfold longLongMax at hfits
        unfold sizeTModulus
        omega
      rw [hchannel] at hsynced
      rcases @synced_drain port _ _ _ _ _ _ config.noCrlf_replid hposted hsmall hsynced with
        ⟨hsynced', hle, hacks⟩
      rw [← hstate] at hsynced' hle hacks
      refine ⟨.synced hposted hpsync hstated ho hsent hlog hlive ?_, h.mode, ?_, ?_⟩
      · rw [hunread, hbuf]
        exact hsynced'
      · apply hup hle
        rw [hout]
        exact hacks
      · intro a ha
        rcases h.acked a ha with ⟨hnonneg, hale⟩
        exact ⟨hnonneg, hale.trans (Int.ofNat_le.mpr hle)⟩

/-- The acknowledgement timer of a session. -/
theorem LinkInv.timer {config : MasterConfig} {port : Nat} {log : Bytes} {acked : Option Int}
    {l : Link} {event : SessionEvent} (h : LinkInv config log acked l)
    (hevent : event = .ackTimer ∨ event = .ackWritten) :
    LinkInv config log acked (l.act (l.session.step port event)) := by
  have hsame : (l.session.step port event).1.state = l.session.state ∧
      (l.session.step port event).1.buf = l.session.buf ∧
      ∀ b n, .sendAck b n ∈ (l.session.step port event).2 →
        n = l.session.state.replicaOffset := by
    rcases hevent with rfl | rfl
    · simp only [ReplicationSession.step]
      split
      · refine ⟨rfl, rfl, ?_⟩
        intro b n hmem
        cases List.mem_singleton.mp hmem
        rfl
      · exact ⟨rfl, rfl, by simp⟩
    · exact ⟨rfl, rfl, by simp [ReplicationSession.step]⟩
  rcases hsame with ⟨hstate, hbuf, hacks⟩
  have hunread : (l.act (l.session.step port event)).unread = l.unread := by
    simp [Link.unread, Link.act, hbuf]
  have hsession : (l.act (l.session.step port event)).session.state = l.session.state := hstate
  refine ⟨?_, h.mode, ?_, ?_⟩
  · cases h.stage with
    | waiting hpsync hargs hsent hold hempty =>
        exact .waiting hpsync hargs hsent (hsession.trans hold) (hunread.trans hempty)
    | blocked hsent hblocked =>
        refine .blocked hsent ?_
        rw [hsession, hunread]
        exact hblocked
    | synced hposted hpsync hstated ho hsent hlog hlive hsynced =>
        refine .synced hposted hpsync hstated ho hsent hlog hlive ?_
        rw [hsession, hunread]
        exact hsynced
  · intro message hmem
    rw [hsession]
    rcases List.mem_append.mp hmem with hmem | hmem
    · exact h.up message hmem
    · rcases List.mem_filterMap.mp hmem with ⟨action, haction, heq⟩
      cases action with
      | send parts => contradiction
      | sendAck b n =>
          exact ⟨n, (Option.some.inj heq).symm, Nat.le_of_eq (hacks b n haction)⟩
      | dispatch command => contradiction
  · rw [hsession]
    exact h.acked

/-! ## Reading acknowledgements -/

/-- The value of an acknowledgement. -/
def ackValue (n : Nat) : RespValue :=
  .array ((ackParts n).map .bulkString)

/-- An acknowledgement that fits is parsed back. -/
theorem ackValue_wellFormed {n : Nat} (hn : (n : Int) ≤ longLongMax) :
    WellFormed (ackValue n) := by
  have hdigits : ((Decimal.render n).length : Int) ≤ payloadMax := by
    have hlen : (Decimal.render n).length ≤ 19 := by
      apply Decimal.length_render_le (by decide)
      unfold longLongMax at hn
      omega
    unfold payloadMax intMax
    omega
  apply WellFormedWithin.array (by simp [ackParts, intMax])
  intro e he
  simp only [ackParts, List.map_cons, List.map_nil, List.mem_cons, List.not_mem_nil,
    or_false] at he
  rcases he with rfl | rfl | rfl
  · exact .bulkString (by decide)
  · exact .bulkString (by decide)
  · exact .bulkString hdigits

/-- The first acknowledgement in a buffer is recorded, and the rest is dropped. -/
theorem onRead_ack {c : Connection} (hmode : c.mode = .replication) {n : Nat}
    (hn : (n : Int) ≤ longLongMax) (more : Bytes) :
    onRead c (encodeArray (ackParts n) ++ more) = (c, [.recordAck n]) := by
  have hparse := parse_serialize (ackValue_wellFormed hn) more
  have hcmd : parseCommand (ackValue n) =
      .ok ⟨.replconf, ascii "REPLCONF", [ascii "ACK", Decimal.render n]⟩ := by
    have htype : parseType (ascii "REPLCONF") = .replconf := by decide +kernel
    simp [ackValue, ackParts, RespValue.array, RespValue.bulkString, parseCommand, htype]
  have herror : handshakeError c .replconf = none := by
    simp [handshakeError, hmode]
  have hadvance : advanceHandshake c .replconf = c := by
    simp [advanceHandshake, hmode]
  have hregisters : registers c .replconf = false := by
    simp [registers]
  have hack : isAck c ⟨.replconf, ascii "REPLCONF", [ascii "ACK", Decimal.render n]⟩ = true := by
    have hlower : lowercase (ascii "ACK") = ascii "ack" := by decide
    simp [isAck, hmode, hlower]
  have hnumber : fromCharsLongLong (Decimal.render n) = some ((n : Int), []) := by
    have hread := @fromChars_render longLongMin longLongMax n []
      (by unfold longLongMin; omega) hn (by simp)
    rwa [List.append_nil] at hread
  have hformat : ¬ ((ackValue n).type ≠ .array ∨ (ackValue n).elements = []) := by
    simp [ackValue, ackParts, RespValue.array]
  have hvalue : encodeArray (ackParts n) = serialize (ackValue n) := rfl
  simp only [onRead, hvalue, hparse, onRequest, if_neg hformat, hcmd, onCommand, herror, hadvance,
    hregisters, hack, ackActions, hnumber]
  simp

/-- The master reads acknowledgements. -/
theorem LinkInv.ackRead {config : MasterConfig} {log : Bytes} {acked : Option Int} {l : Link}
    {extra : Nat} {conn' : Connection} {offset : Int} (h : LinkInv config log acked l)
    (hfits : (log.length : Int) ≤ longLongMax) (hextra : extra < l.up.length)
    (hread : onRead l.conn (l.up.take (extra + 1)).flatten = (conn', [.recordAck offset])) :
    LinkInv config log (acked.map fun _ => offset)
      { l with conn := conn', up := l.up.drop (extra + 1) } := by
  cases hup : l.up with
  | nil => simp [hup] at hextra
  | cons message messages =>
      rcases h.up message (by simp [hup]) with ⟨n, rfl, hn⟩
      have hle := h.stage.offset_le
      have hack := onRead_ack h.mode (by omega : (n : Int) ≤ longLongMax)
        (messages.take extra).flatten
      rw [hup, List.take_succ_cons, List.flatten_cons, hack] at hread
      simp only [Prod.mk.injEq, List.cons.injEq, Action.recordAck.injEq, and_true] at hread
      rcases hread with ⟨rfl, rfl⟩
      refine ⟨?_, h.mode, ?_, ?_⟩
      · rw [Option.isSome_map]
        cases h.stage with
        | waiting hpsync hargs hsent hstate hempty =>
            exact .waiting hpsync hargs hsent hstate hempty
        | blocked hsent hblocked => exact .blocked hsent hblocked
        | synced hposted hpsync hstated ho hsent hlog hlive hsynced =>
            exact .synced hposted hpsync hstated ho hsent hlog hlive hsynced
      · intro message hmem
        apply h.up message
        rw [hup]
        exact List.mem_of_mem_drop hmem
      · intro a ha
        rcases Option.map_eq_some_iff.mp ha with ⟨_, -, rfl⟩
        exact ⟨Int.natCast_nonneg n, Int.ofNat_le.mpr hn⟩

/-- A connection that registers is in replication mode behind it. -/
theorem mode_of_register {c c' : Connection} {request : RespValue} {actions : List Action}
    (h : onRequest c request = (c', .register :: actions)) : c'.mode = .replication := by
  unfold onRequest at h
  split at h
  · simp at h
  · split at h
    · simp at h
    · rename_i cmd hcmd
      unfold onCommand at h
      split at h
      · simp at h
      · simp only at h
        cases hreg : registers c cmd.type with
        | true =>
            unfold registers at hreg
            simp only [Bool.and_eq_true, decide_eq_true_eq] at hreg
            have hadvance : (advanceHandshake c cmd.type).mode = .replication := by
              simp [advanceHandshake, hreg.1.1, hreg.1.2]
            have hconn : advanceHandshake c cmd.type = c' := by
              split at h <;> exact (Prod.ext_iff.mp h).1
            rw [← hconn]
            exact hadvance
        | false =>
            rw [hreg] at h
            split at h
            · have hacks := (Prod.ext_iff.mp h).2
              simp only [Bool.false_eq_true, if_false, List.nil_append, ackActions] at hacks
              split at hacks
              · split at hacks <;> simp at hacks
              · simp at hacks
            · simp at h

/-! ## Whole runs -/

/-- One link changes, and the acknowledged offsets of the others stay. -/
theorem Cluster.Invariant.setLink {config : MasterConfig} {s : Cluster} {id : Nat} {l' : Link}
    {registry' : ReplicaRegistry} (hs : s.Invariant config)
    (hothers : ∀ i, i ≠ id → registry'.ackedOffset i = s.registry.ackedOffset i)
    (hlink : LinkInv config s.log (registry'.ackedOffset id) l')
    (hconsistent : ({ s with registry := registry' }.setLink id l').Consistent) :
    ({ s with registry := registry' }.setLink id l').Invariant config := by
  refine ⟨hconsistent, hs.fits, ?_, ?_⟩
  · intro i hi
    by_cases hid : i = id
    · simp [hid]
    · rw [Cluster.setLink_of_ne _ hid]
      apply hs.linked i
      change (registry'.ackedOffset i).isSome = true at hi
      rw [hothers i hid] at hi
      exact hi
  · intro i m hm
    change LinkInv config s.log (registry'.ackedOffset i) m
    by_cases hid : i = id
    · subst hid
      rw [Cluster.setLink_self] at hm
      cases hm
      exact hlink
    · rw [Cluster.setLink_of_ne _ hid] at hm
      rw [hothers i hid]
      exact hs.link i m hm

/-- A frame is propagated to the links of the registered replicas. -/
theorem Cluster.Invariant.propagated {config : MasterConfig} {s : Cluster} {request : RespValue}
    {asking : Option IssuedWait} {waits : List IssuedWait} (hs : s.Invariant config)
    (hrequest : IsRequest request)
    (hfits : s.registry.masterOffset + (serialize request).length ≤ longLongMax)
    (hconsistent :
      { s.propagated (serialize request) with asking := asking, waits := waits }.Consistent) :
    { s.propagated (serialize request) with asking := asking, waits := waits }.Invariant config := by
  refine ⟨hconsistent, ?_, ?_, ?_⟩
  · simp only [Cluster.propagated, List.length_append]
    rw [hs.consistent.offset_eq] at hfits
    omega
  · intro id hid
    have hlinked := hs.linked id hid
    simpa [Cluster.propagated] using hlinked
  · intro id l hl
    rcases Option.map_eq_some_iff.mp hl with ⟨l₀, hl₀, rfl⟩
    have hinv := hs.link id l₀ hl₀
    change LinkInv config (s.log ++ serialize request) (s.registry.ackedOffset id) _
    cases hreg : s.registry.registered id with
    | true =>
        rw [if_pos rfl]
        exact hinv.post hreg hrequest
    | false =>
        rw [if_neg (by simp)]
        unfold ReplicaRegistry.registered at hreg
        rw [Option.isSome_eq_false_iff, Option.isNone_iff_eq_none] at hreg
        rw [hreg] at hinv ⊢
        exact hinv.skip _

/-- A replica is removed from the registry. -/
theorem Cluster.Invariant.removed {config : MasterConfig} {s : Cluster} {id : Nat}
    (hs : s.Invariant config)
    (hconsistent : { s with registry := s.registry.remove id }.Consistent) :
    { s with registry := s.registry.remove id }.Invariant config := by
  refine ⟨hconsistent, hs.fits, ?_, ?_⟩
  · intro i hi
    apply hs.linked i
    unfold ReplicaRegistry.registered at hi ⊢
    rw [ReplicaRegistry.ackedOffset_remove hs.consistent.valid] at hi
    split at hi
    · contradiction
    · exact hi
  · intro i l hl
    change LinkInv config s.log ((s.registry.remove id).ackedOffset i) l
    rw [ReplicaRegistry.ackedOffset_remove hs.consistent.valid]
    split
    · exact (hs.link i l hl).removed
    · exact hs.link i l hl

/-- Every step keeps the invariant. -/
theorem invariant_step {config : MasterConfig} {port : Nat} {s s' : Cluster} {e : ClusterEvent}
    {out : List WaitReply} (hs : s.Invariant config) (h : s.step config port e = some (s', out)) :
    s'.Invariant config := by
  have hconsistent := consistent_step hs.consistent h
  cases step_change h with
  | quiet asking waits => exact ⟨hconsistent, hs.fits, hs.linked, hs.link⟩
  | propagate asking waits hrequest hfits => exact hs.propagated hrequest hfits hconsistent
  | attach hrequest hcmd hargs =>
      have hadded := ReplicaRegistry.ackedOffset_add hs.consistent.valid
      refine hs.setLink (fun i hi => by rw [hadded, if_neg hi]) ?_ hconsistent
      rw [hadded, if_pos rfl]
      refine ⟨.waiting rfl hargs rfl rfl rfl, mode_of_register hrequest, by simp, ?_⟩
      intro a ha
      cases ha
      exact ⟨Int.le_refl 0, Int.natCast_nonneg _⟩
  | psync hlink hpsync =>
      exact hs.setLink (fun _ _ => rfl)
        ((hs.link _ _ hlink).answer hpsync hs.consistent.offset_eq) hconsistent
  | detach hregistered => exact hs.removed hconsistent
  | deliver hlink hpos hn =>
      exact hs.setLink (fun _ _ => rfl) ((hs.link _ _ hlink).deliver hs.fits hpos hn) hconsistent
  | timer hlink hevent =>
      exact hs.setLink (fun _ _ => rfl) ((hs.link _ _ hlink).timer hevent) hconsistent
  | ackRead hlink hextra hread =>
      refine hs.setLink (fun i hi => ?_) ?_ hconsistent
      · rw [ReplicaRegistry.ackedOffset_recordAck, if_neg hi]
      · rw [ReplicaRegistry.ackedOffset_recordAck, if_pos rfl]
        exact (hs.link _ _ hlink).ackRead hs.fits hextra hread

/-- Every run keeps the invariant. -/
theorem invariant_run {config : MasterConfig} {port : Nat} {s t : Cluster}
    {events : List ClusterEvent} {out : List WaitReply} (hs : s.Invariant config)
    (h : s.run config port events = some (t, out)) : t.Invariant config :=
  Execution.run_invariant (P := fun _ => True) (fun hs _ hstep => invariant_step hs hstep) hs
    (fun _ _ => trivial) h

end RedisClone
