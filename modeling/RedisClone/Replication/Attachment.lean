import RedisClone.Replication.Cluster

/-!
# Attaching a replica

A network thread registers a replica when it reads the {lit}`PSYNC` request; the
store thread reads the offset and posts the reply when it executes it.  Frames
propagated between the two are posted to the replica ahead of the reply and are
covered by the offset that the reply states.

Main results:

- Theorem {lit}`consistent_run`: the offset is the number of bytes propagated, and
  identifiers are used once.
- Theorem {lit}`run_follows`: a registered replica is posted every frame.
- Theorem {lit}`attachment_atomic_iff`: attachment is atomic exactly when nothing
  is propagated between the two steps.
- Theorem {lit}`frame_before_fullresync`: a write between the two steps.
-/

namespace RedisClone

open RespValue

/-! ## Consistency -/

/-- The offset counts the propagated bytes, and no link has a fresh identifier. -/
structure Cluster.Consistent (s : Cluster) : Prop where
  valid : s.registry.Valid
  offset_eq : s.registry.masterOffset = s.log.length
  fresh : ∀ id, s.registry.nextId ≤ id → s.links id = none

/-- A master that was just started is consistent. -/
theorem consistent_initial : Cluster.initial.Consistent :=
  ⟨ReplicaRegistry.valid_empty, rfl, fun _ _ => rfl⟩

/-- Replacing a link keeps identifiers fresh. -/
theorem setLink_fresh {s : Cluster} {n id : Nat} {l : Link} (hid : id < n)
    (h : ∀ i, n ≤ i → s.links i = none) : ∀ i, n ≤ i → (s.setLink id l).links i = none := by
  intro i hi
  have hne : i ≠ id := by omega
  rw [Cluster.setLink_of_ne s hne, h i hi]

/-- The identifier of a link is not fresh. -/
theorem Cluster.Consistent.id_lt {s : Cluster} (hs : s.Consistent) {id : Nat} {l : Link}
    (hlink : s.links id = some l) : id < s.registry.nextId := by
  by_contra hge
  rw [hs.fresh id (by omega)] at hlink
  contradiction

/-- Every step keeps the cluster consistent. -/
theorem consistent_step {config : MasterConfig} {port : Nat} {s s' : Cluster} {e : ClusterEvent}
    {out : List WaitReply} (hs : s.Consistent) (h : s.step config port e = some (s', out)) :
    s'.Consistent := by
  cases step_change h with
  | quiet asking waits => exact ⟨hs.valid, hs.offset_eq, hs.fresh⟩
  | propagate asking waits hrequest hfits =>
      refine ⟨⟨hs.valid.nodup, hs.valid.lt_nextId⟩, ?_, ?_⟩
      · simp [Cluster.propagated, ReplicaRegistry.propagate, hs.offset_eq]
      · intro id hid
        have hnone : s.links id = none := hs.fresh id hid
        simp [Cluster.propagated, hnone]
  | attach hrequest hcmd hargs =>
      refine ⟨hs.valid.add, hs.offset_eq, ?_⟩
      apply setLink_fresh (Nat.lt_succ_self _)
      intro id hid
      exact hs.fresh id (Nat.le_of_succ_le hid)
  | psync hlink hpsync => exact ⟨hs.valid, hs.offset_eq, setLink_fresh (hs.id_lt hlink) hs.fresh⟩
  | detach hregistered => exact ⟨hs.valid.remove _, hs.offset_eq, hs.fresh⟩
  | deliver hlink hpos hn => exact ⟨hs.valid, hs.offset_eq, setLink_fresh (hs.id_lt hlink) hs.fresh⟩
  | timer hlink hevent => exact ⟨hs.valid, hs.offset_eq, setLink_fresh (hs.id_lt hlink) hs.fresh⟩
  | ackRead hlink hextra hread =>
      exact ⟨hs.valid.recordAck _ _, hs.offset_eq, setLink_fresh (hs.id_lt hlink) hs.fresh⟩

/-- Every run keeps the cluster consistent. -/
theorem consistent_run {config : MasterConfig} {port : Nat} {s t : Cluster}
    {events : List ClusterEvent} {out : List WaitReply} (hs : s.Consistent)
    (h : s.run config port events = some (t, out)) : t.Consistent :=
  Execution.run_invariant (P := fun _ => True) (fun hs _ hstep => consistent_step hs hstep) hs
    (fun _ _ => trivial) h

/-! ## Following one replica -/

/-- A registered replica before and after some steps: everything propagated
meanwhile was posted to it, unless its {lit}`PSYNC` was executed. -/
structure Follows (id : Nat) (s t : Cluster) (l l' : Link) (data : Bytes) : Prop where
  link : t.links id = some l'
  registered : t.registry.registered id = true
  log : t.log = s.log ++ data
  posted : (l'.psync = l.psync ∧ l'.stated = l.stated ∧ l'.sent = l.sent ++ data) ∨
    (l.psync ≠ none ∧ l'.psync = none)

/-- Registration does not depend on the acknowledged offset. -/
theorem registered_recordAck (r : ReplicaRegistry) (id id' : Nat) (offset : Int) :
    (r.recordAck id offset).registered id' = r.registered id' := by
  unfold ReplicaRegistry.registered
  rw [ReplicaRegistry.ackedOffset_recordAck]
  split <;> simp

/-- A change of a link that posts nothing. -/
theorem follows_setLink {s s' : Cluster} {id id' : Nat} {l m m' : Link}
    (hlinks : s'.links = s.links) (hlog : s'.log = s.log)
    (hregistered : s'.registry.registered id = true) (hlink : s.links id = some l)
    (hm : s.links id' = some m)
    (hm' : m'.psync = m.psync ∧ m'.stated = m.stated ∧ m'.sent = m.sent) :
    ∃ l', Follows id s (s'.setLink id' m') l l' [] := by
  by_cases hid : id = id'
  · subst hid
    rw [hlink] at hm
    cases hm
    refine ⟨m', by simp, hregistered, by simp [hlog], ?_⟩
    exact .inl ⟨hm'.1, hm'.2.1, by simp [hm'.2.2]⟩
  · refine ⟨l, ?_, hregistered, by simp [hlog], .inl ⟨rfl, rfl, by simp⟩⟩
    rw [Cluster.setLink_of_ne s' hid, hlinks, hlink]

/-- One step with a registered replica that stays connected. -/
theorem step_follows {config : MasterConfig} {port : Nat} {s s' : Cluster} {e : ClusterEvent}
    {out : List WaitReply} {id : Nat} {l : Link} (hs : s.Consistent)
    (hlink : s.links id = some l) (hregistered : s.registry.registered id = true)
    (hstay : e ≠ .detach id) (h : s.step config port e = some (s', out)) :
    ∃ l' data, Follows id s s' l l' data := by
  cases step_change h with
  | quiet asking waits =>
      exact ⟨l, [], hlink, hregistered, by simp, .inl ⟨rfl, rfl, by simp⟩⟩
  | @propagate _ request asking waits hrequest hfits =>
      refine ⟨l.post (serialize request), serialize request, ?_, hregistered, rfl, ?_⟩
      · simp [Cluster.propagated, hlink, hregistered]
      · exact .inl ⟨rfl, rfl, rfl⟩
  | attach hrequest hcmd hargs =>
      have hne : id ≠ s.registry.nextId := Nat.ne_of_lt (hs.id_lt hlink)
      refine ⟨l, [], ?_, ?_, by simp, .inl ⟨rfl, rfl, by simp⟩⟩
      · rw [Cluster.setLink_of_ne _ hne, hlink]
      · unfold ReplicaRegistry.registered at hregistered ⊢
        change (s.registry.add.1.ackedOffset id).isSome = true
        rw [ReplicaRegistry.ackedOffset_add hs.valid, if_neg hne]
        exact hregistered
  | @psync id' m cmd hm hpsync =>
      by_cases hid : id = id'
      · subst hid
        rw [hlink] at hm
        cases hm
        refine ⟨_, [], Cluster.setLink_self s id _, hregistered, by simp, ?_⟩
        exact .inr ⟨by simp [hpsync], rfl⟩
      · refine ⟨l, [], ?_, hregistered, by simp, .inl ⟨rfl, rfl, by simp⟩⟩
        rw [Cluster.setLink_of_ne s hid, hlink]
  | @detach id' hregistered' =>
      have hne : id ≠ id' := by
        rintro rfl
        exact hstay rfl
      refine ⟨l, [], hlink, ?_, by simp, .inl ⟨rfl, rfl, by simp⟩⟩
      unfold ReplicaRegistry.registered at hregistered ⊢
      rw [ReplicaRegistry.ackedOffset_remove hs.valid, if_neg hne]
      exact hregistered
  | deliver hm hpos hn =>
      apply exists_comm.mp
      exact ⟨[], follows_setLink rfl rfl hregistered hlink hm ⟨rfl, rfl, rfl⟩⟩
  | timer hm hevent =>
      apply exists_comm.mp
      exact ⟨[], follows_setLink rfl rfl hregistered hlink hm ⟨rfl, rfl, rfl⟩⟩
  | @ackRead id' extra m conn' offset hm hextra hread =>
      have hreg : (s.registry.recordAck id' offset).registered id = true := by
        rw [registered_recordAck]
        exact hregistered
      apply exists_comm.mp
      exact ⟨[], @follows_setLink s { s with registry := _ } id id' l m _ rfl rfl hreg hlink hm
        ⟨rfl, rfl, rfl⟩⟩

/-- A whole run with a registered replica that stays connected. -/
theorem run_follows {config : MasterConfig} {port : Nat} {s t : Cluster}
    {events : List ClusterEvent} {out : List WaitReply} {id : Nat} {l : Link}
    (hs : s.Consistent) (hlink : s.links id = some l)
    (hregistered : s.registry.registered id = true) (hstay : ∀ e ∈ events, e ≠ .detach id)
    (h : s.run config port events = some (t, out)) :
    ∃ l' data, Follows id s t l l' data := by
  induction events generalizing s l out with
  | nil =>
      cases h
      exact ⟨l, [], hlink, hregistered, by simp, .inl ⟨rfl, rfl, by simp⟩⟩
  | cons e events ih =>
      rcases Execution.run_cons h with ⟨m, out₁, out₂, hstep, hrest, -⟩
      rcases step_follows hs hlink hregistered (hstay e (by simp)) hstep with ⟨l₁, data₁, h₁⟩
      rcases ih (consistent_step hs hstep) h₁.link h₁.registered
        (fun e he => hstay e (by simp [he])) hrest with ⟨l₂, data₂, h₂⟩
      refine ⟨l₂, data₁ ++ data₂, h₂.link, h₂.registered, ?_, ?_⟩
      · rw [h₂.log, h₁.log, List.append_assoc]
      · rcases h₁.posted with ⟨hp₁, hst₁, hsent₁⟩ | ⟨hp₁, hnone₁⟩
        · rcases h₂.posted with ⟨hp₂, hst₂, hsent₂⟩ | ⟨hp₂, hnone₂⟩
          · exact .inl ⟨hp₂.trans hp₁, hst₂.trans hst₁, by rw [hsent₂, hsent₁, List.append_assoc]⟩
          · exact .inr ⟨by rwa [hp₁] at hp₂, hnone₂⟩
        · rcases h₂.posted with ⟨hp₂, -, -⟩ | ⟨hp₂, -⟩
          · exact .inr ⟨hp₁, hp₂.trans hnone₁⟩
          · exact absurd hnone₁ hp₂

/-! ## Atomic attachment -/

/-- The replica was sent the {lit}`FULLRESYNC` reply and, behind the RDB file,
exactly what was propagated after the offset that the reply states. -/
def AttachmentAtomic (config : MasterConfig) (s : Cluster) (id : Nat) : Prop :=
  ∃ l offset, s.links id = some l ∧ l.stated = some offset ∧
    l.sent = fullresyncMessage config.masterReplid (Decimal.renderInt offset) rdbPayload ++
      s.log.drop offset.toNat

/-- The link of a replica that was just attached. -/
theorem attach_link {config : MasterConfig} {port : Nat} {s s' : Cluster} {conn : Connection}
    {request : RespValue} {out : List WaitReply} (hs : s.Consistent)
    (h : s.step config port (.attach conn request) = some (s', out)) :
    ∃ l cmd, s'.links s.registry.nextId = some l ∧
      s'.registry.registered s.registry.nextId = true ∧ s'.log = s.log ∧ l.psync = some cmd ∧
      2 ≤ cmd.args.length ∧ l.sent = [] := by
  rcases Option.map_eq_some_iff.mp h with ⟨t, hattach, heq⟩
  cases heq
  unfold Cluster.attach at hattach
  split at hattach
  · rename_i conn' posted cmd hrequest hcmd
    split at hattach
    · rename_i hargs
      cases hattach
      refine ⟨⟨conn', some cmd, [], .syncing, [], [], none⟩, cmd, ?_, ?_, rfl, rfl, hargs, rfl⟩
      · exact Cluster.setLink_self _ _ _
      · change (s.registry.add.1.ackedOffset s.registry.nextId).isSome = true
        rw [ReplicaRegistry.ackedOffset_add hs.valid]
        simp
    · contradiction
  · contradiction

/-- The link of a replica whose {lit}`PSYNC` was just executed. -/
theorem psync_link {config : MasterConfig} {port : Nat} {s s' : Cluster} {id : Nat}
    {out : List WaitReply} (h : s.step config port (.psync id) = some (s', out)) :
    ∃ l l' cmd, s.links id = some l ∧ l.psync = some cmd ∧ s'.links id = some l' ∧
      s'.registry = s.registry ∧ s'.log = s.log ∧ l'.psync = none ∧
      l'.stated = some s.registry.masterOffset ∧
      l'.sent = l.sent ++ psyncExecute config.toServerConfig (some s.registry) cmd := by
  rcases Option.map_eq_some_iff.mp (idle_eq_some h).2 with ⟨t, hbind, heq⟩
  cases heq
  rcases Option.bind_eq_some_iff.mp hbind with ⟨l, hlink, hpsync⟩
  unfold Cluster.psync at hpsync
  split at hpsync
  · contradiction
  · rename_i cmd hcmd
    cases hpsync
    exact ⟨l, _, cmd, hlink, hcmd, Cluster.setLink_self s id _, rfl, rfl, rfl, rfl, rfl⟩

/-- Attachment is atomic exactly when nothing was propagated between the
registration of the replica and the execution of its {lit}`PSYNC`. -/
theorem attachment_atomic_iff {config : MasterConfig} {port : Nat}
    {before between after : List ClusterEvent} {conn : Connection} {request : RespValue}
    {s m t : Cluster} {out₁ out₂ out₃ : List WaitReply}
    (hbefore : Cluster.initial.run config port before = some (s, out₁))
    (hbetween : s.run config port (.attach conn request :: between) = some (m, out₂))
    (hafter : m.run config port (.psync s.registry.nextId :: after) = some (t, out₃))
    (hstay : ∀ e ∈ between ++ after, e ≠ .detach s.registry.nextId) :
    AttachmentAtomic config t s.registry.nextId ↔ m.log = s.log := by
  have hs := consistent_run consistent_initial hbefore
  -- registration
  rcases Execution.run_cons hbetween with ⟨s₁, _, _, hattach, hrun, -⟩
  rcases attach_link hs hattach with ⟨l₁, cmd, hlink₁, hreg₁, hlog₁, hpsync₁, hargs, hsent₁⟩
  have hs₁ := consistent_step hs hattach
  -- frames that are posted ahead of the reply
  rcases run_follows hs₁ hlink₁ hreg₁ (fun e he => hstay e (by simp [he])) hrun with
    ⟨l₂, early, hearly⟩
  have hm := consistent_run hs₁ hrun
  -- the reply
  rcases Execution.run_cons hafter with ⟨m', _, _, hexec, hrest, -⟩
  rcases psync_link hexec with
    ⟨l, l₃, cmd', hlink, hpsync, hlink₃, hreg₃, hlog₃, hpsync₃, hstated₃, hsent₃⟩
  rw [hearly.link] at hlink
  cases hlink
  have hearlySent : l₂.sent = early ∧ cmd' = cmd := by
    rcases hearly.posted with ⟨hp, -, hsent⟩ | ⟨-, hnone⟩
    · rw [hp, hpsync₁] at hpsync
      exact ⟨by rw [hsent, hsent₁, List.nil_append], (Option.some.inj hpsync).symm⟩
    · rw [hnone] at hpsync
      contradiction
  rcases hearlySent with ⟨hsent₂, rfl⟩
  rw [psyncExecute_master config.role_eq hargs, hsent₂] at hsent₃
  -- the frames behind it
  have hreg : m'.registry.registered s.registry.nextId = true := by
    rw [hreg₃]
    exact hearly.registered
  rcases run_follows (consistent_step hm hexec) hlink₃ hreg (fun e he => hstay e (by simp [he]))
    hrest with ⟨l₄, later, hlater⟩
  have hfinal : l₄.stated = some m.registry.masterOffset ∧ l₄.sent = l₃.sent ++ later := by
    rcases hlater.posted with ⟨-, hstated, hsent⟩ | ⟨hp, -⟩
    · exact ⟨hstated.trans hstated₃, hsent⟩
    · exact absurd hpsync₃ hp
  rcases hfinal with ⟨hstated₄, hsent₄⟩
  have hlogm : m.log = s.log ++ early := by rw [hearly.log, hlog₁]
  have hdrop : t.log.drop m.registry.masterOffset.toNat = later := by
    rw [hlater.log, hlog₃, hm.offset_eq, Int.toNat_natCast, List.drop_left]
  constructor
  · rintro ⟨l, offset, hl, hoffset, hsent⟩
    rw [hlater.link] at hl
    cases hl
    rw [hstated₄] at hoffset
    cases hoffset
    have hlength := congrArg List.length hsent
    rw [hdrop, hsent₄, hsent₃] at hlength
    simp only [List.length_append] at hlength
    have hnil : early = [] := List.length_eq_zero_iff.mp (by omega)
    rw [hlogm, hnil, List.append_nil]
  · intro hlog
    have hnil : early = [] := by
      rw [hlogm] at hlog
      exact List.append_right_eq_self.mp hlog
    refine ⟨l₄, m.registry.masterOffset, hlater.link, hstated₄, ?_⟩
    rw [hdrop, hsent₄, hsent₃, hnil, List.nil_append]

/-! ## Two runs -/

/-- A master with a fixed replication identifier. -/
def sampleMaster : MasterConfig where
  role := .master
  masterReplid := List.replicate 40 97
  masterReplOffset := 0
  replid_length := by simp
  replid_chars := by
    intro b hb
    rw [List.eq_of_mem_replicate hb]
    decide
  role_eq := rfl

/-- A connection on which {lit}`PING` and two {lit}`REPLCONF`s were answered. -/
def Connection.handshaken : Connection :=
  ⟨.unknown, .replconf2, 2, false, []⟩

/-- The request of {lit}`send_psync`. -/
def psyncRequest : RespValue :=
  .array [.bulkString (ascii "PSYNC"), .bulkString (ascii "?"), .bulkString (ascii "-1")]

/-- A request of bulk strings, as clients send it, is what the parser returns
for its encoding. -/
def ParsedRequest.ofTexts (name : Bytes) (args : List Bytes)
    (hcount : ((args.length + 1 : Nat) : Int) ≤ intMax)
    (htexts : ∀ text ∈ name :: args, (text.length : Int) ≤ payloadMax) : ParsedRequest where
  value := .array ((name :: args).map .bulkString)
  parsed := by
    have hwf : WellFormed (.array ((name :: args).map .bulkString)) := by
      apply WellFormedWithin.array
      · simpa using hcount
      · intro e he
        rcases List.mem_map.mp he with ⟨text, htext, rfl⟩
        exact .bulkString (htexts text htext)
    have hparse := parse_serialize hwf []
    exact ⟨_, _, hparse⟩
  type_eq := rfl
  nonempty := by simp [RespValue.array]

/-- {lit}`SET k v`. -/
def setRequest : ParsedRequest :=
  .ofTexts (ascii "SET") [ascii "k", ascii "v"] (by decide) (by decide)

/-- A replica attaches between two writes. -/
theorem attachment_atomic_iff_writes :
    ∃ s m t out₁ out₂ out₃,
      Cluster.initial.run sampleMaster 6380 [.write setRequest] = some (s, out₁) ∧
      s.run sampleMaster 6380 [.attach .handshaken psyncRequest] = some (m, out₂) ∧
      m.run sampleMaster 6380 [.psync 0, .write setRequest] = some (t, out₃) ∧
      AttachmentAtomic sampleMaster t 0 :=
  ⟨_, _, _, _, _, _, rfl, rfl, rfl,
    (@attachment_atomic_iff sampleMaster 6380 [.write setRequest] [] [.write setRequest]
      .handshaken psyncRequest _ _ _ _ _ _ rfl rfl rfl (by simp)).mpr rfl⟩

/-- A write is propagated between the registration and the execution of
{lit}`PSYNC`: its frame is sent ahead of the reply, and the reply covers it. -/
theorem frame_before_fullresync :
    ∃ t out,
      Cluster.initial.run sampleMaster 6380
        [.attach .handshaken psyncRequest, .write setRequest, .psync 0] = some (t, out) ∧
      t.registry.registered 0 = true ∧ ¬ AttachmentAtomic sampleMaster t 0 := by
  refine ⟨_, _, rfl, rfl, ?_⟩
  rintro ⟨l, offset, hlink, -, hsent⟩
  have hframe : l.sent.head? = some 42 := by
    cases hlink
    rfl
  rw [hsent] at hframe
  simp [fullresyncMessage] at hframe

end RedisClone
