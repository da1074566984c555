import RedisClone.Command.Numbers
import RedisClone.Replication.LinkInvariant

/-!
# Offsets, acknowledgements and {lit}`WAIT`

The master counts the bytes that it serializes, the replica the bytes that its
parser consumes.  Both counters agree up to what is on its way, and the offset
on record for a replica is never ahead of what it consumed.

Main results:

- Theorem {lit}`offsets_never_drift`: the two offsets differ by the stream bytes
  in flight or buffered, once the replica has read the line of the {lit}`FULLRESYNC`
  reply.
- Theorem {lit}`offsets_differ_unread_reply`: ahead of that line the replica has not
  learned the offset it starts from.
- Theorem {lit}`wait_counts_caught_up`: the replicas that a {lit}`WAIT` counts have
  consumed the stream from the offset they were attached at up to the offset of
  the {lit}`WAIT`.
- Theorem {lit}`wait_counts_late_replica`: a replica that attached behind the
  writes is counted without having consumed them.
-/

namespace RedisClone

open RespValue

/-! ## Offsets of the master and of a replica -/

/-- Bytes of the command stream, behind the RDB file, that are in flight or
buffered.  The channel delivers in order, so these are the last bytes sent. -/
def Link.streamUnread (config : MasterConfig) (l : Link) : Nat :=
  match l.stated with
  | none => 0
  | some offset =>
      min l.unread.length (l.sent.length -
        (fullresyncMessage config.masterReplid (Decimal.renderInt offset) rdbPayload).length)

/-- What was sent stays sent. -/
theorem step_sent_grows {config : MasterConfig} {port : Nat} {s s' : Cluster} {e : ClusterEvent}
    {out : List WaitReply} {id : Nat} {l : Link} (hs : s.Consistent) (hlink : s.links id = some l)
    (h : s.step config port e = some (s', out)) :
    ∃ l', s'.links id = some l' ∧ l.sent <+: l'.sent := by
  have hset : ∀ {r : Cluster} {i : Nat} {m m' : Link}, r.links = s.links → s.links i = some m →
      m.sent <+: m'.sent → ∃ l', (r.setLink i m').links id = some l' ∧ l.sent <+: l'.sent := by
    intro r i m m' hlinks hm hpre
    by_cases hid : id = i
    · subst hid
      rw [hlink] at hm
      cases hm
      exact ⟨m', Cluster.setLink_self r id m', hpre⟩
    · refine ⟨l, ?_, List.prefix_rfl⟩
      rw [Cluster.setLink_of_ne r hid, hlinks, hlink]
  cases step_change h with
  | quiet asking waits => exact ⟨l, hlink, List.prefix_rfl⟩
  | @propagate _ request asking waits hrequest hfits =>
      refine ⟨if s.registry.registered id then l.post (serialize request) else l, ?_, ?_⟩
      · simp [Cluster.propagated, hlink]
      · split
        · exact List.prefix_append _ _
        · exact List.prefix_rfl
  | attach hrequest hcmd hargs =>
      have hne : id ≠ s.registry.nextId := Nat.ne_of_lt (hs.id_lt hlink)
      refine ⟨l, ?_, List.prefix_rfl⟩
      rw [Cluster.setLink_of_ne _ hne, hlink]
  | psync hm hpsync => exact hset rfl hm (List.prefix_append _ _)
  | detach hregistered => exact ⟨l, hlink, List.prefix_rfl⟩
  | deliver hm hpos hn => exact hset rfl hm List.prefix_rfl
  | timer hm hevent => exact hset rfl hm List.prefix_rfl
  | @ackRead i extra m conn' offset hm hextra hread =>
      exact @hset { s with registry := s.registry.recordAck i offset } i m _ rfl hm
        List.prefix_rfl

/-- What was sent stays sent during a run. -/
theorem run_sent_grows {config : MasterConfig} {port : Nat} {s t : Cluster}
    {events : List ClusterEvent} {out : List WaitReply} {id : Nat} {l : Link}
    (hs : s.Consistent) (hlink : s.links id = some l)
    (h : s.run config port events = some (t, out)) :
    ∃ l', t.links id = some l' ∧ l.sent <+: l'.sent := by
  induction events generalizing s l out with
  | nil =>
      cases h
      exact ⟨l, hlink, List.prefix_rfl⟩
  | cons e events ih =>
      rcases Execution.run_cons h with ⟨m, _, _, hstep, hrest, -⟩
      rcases step_sent_grows hs hlink hstep with ⟨l₁, hl₁, hpre₁⟩
      rcases ih (consistent_step hs hstep) hl₁ hrest with ⟨l₂, hl₂, hpre₂⟩
      exact ⟨l₂, hl₂, hpre₁.trans hpre₂⟩

/-- In a synced link the offsets differ by the unread stream bytes. -/
theorem offset_add_streamUnread {config : MasterConfig} {log : Bytes} {l : Link} {o : Nat}
    {posted : List RespValue} (hstated : l.stated = some (o : Int)) (ho : o ≤ log.length)
    (hsent : l.sent = fullresyncMessage config.masterReplid (Decimal.render o) rdbPayload ++
      posted.flatMap serialize)
    (hlog : posted.flatMap serialize = log.drop o)
    (hsynced : Synced config.masterReplid o posted l.session.state l.unread)
    (hphase : l.session.state.phase ≠ .psyncReply) :
    l.session.state.replicaOffset + l.streamUnread config = log.length := by
  have hrender : Decimal.renderInt (o : Int) = Decimal.render o := rfl
  have hlength := congrArg List.length hlog
  rw [List.length_drop] at hlength
  have hstream : l.streamUnread config =
      min l.unread.length (posted.flatMap serialize).length := by
    simp [Link.streamUnread, hstated, hrender, hsent]
  rw [hstream]
  generalize l.session.state = state at hsynced hphase ⊢
  generalize l.unread = unread at hsynced ⊢
  cases hsynced with
  | reply => exact absurd rfl hphase
  | header =>
      simp only [List.length_cons, List.length_append]
      omega
  | body =>
      simp only [List.length_append]
      omega
  | @commands done todo hposted =>
      rw [hposted, List.flatMap_append, List.length_append] at hlength ⊢
      simp only
      omega

/-- From a state in which a replica was sent the {lit}`FULLRESYNC` reply with the
current offset and nothing else: whatever is propagated, delivered and
acknowledged, in whichever order, as long as the replica is registered its
acknowledged offset is at most its own, and that at most the master's; and once
the replica has taken in the reply line, the offsets differ by exactly the stream
bytes in flight or buffered. -/
theorem offsets_never_drift {config : MasterConfig} {port : Nat}
    {before events : List ClusterEvent} {s t : Cluster} {out₁ out₂ : List WaitReply} {id : Nat}
    {l₀ l : Link} {acked : Int}
    (hbefore : Cluster.initial.run config port before = some (s, out₁))
    (hlink₀ : s.links id = some l₀)
    (hsent₀ : l₀.sent = fullresyncMessage config.masterReplid
      (Decimal.renderInt s.registry.masterOffset) rdbPayload)
    (hrun : s.run config port events = some (t, out₂))
    (hlink : t.links id = some l) (hacked : t.registry.ackedOffset id = some acked) :
    acked ≤ l.session.state.replicaOffset ∧
      (l.session.state.replicaOffset : Int) ≤ t.registry.masterOffset ∧
      (l.session.state.phase = .psyncReply →
        acked = 0 ∧ l.session.state.replicaOffset = 0) ∧
      (l.session.state.phase ≠ .psyncReply →
        t.registry.masterOffset - l.session.state.replicaOffset = l.streamUnread config) := by
  have hs := invariant_run (invariant_initial config) hbefore
  have ht := invariant_run hs hrun
  have hinv := ht.link id l hlink
  rw [hacked] at hinv
  have hoffset := ht.consistent.offset_eq
  have hle := hinv.stage.offset_le
  rcases hinv.acked acked rfl with ⟨hnonneg, hackedLe⟩
  refine ⟨hackedLe, by omega, ?_, ?_⟩
  · intro hphase
    have hzero : l.session.state.replicaOffset = 0 := by
      cases hinv.stage with
      | waiting hpsync hargs hsent hstate hempty => rw [hstate]
      | blocked hsent hblocked => exact hblocked.offset_eq
      | synced hposted hpsync hstated ho hsent hlog hlive hsynced =>
          exact hsynced.offset_eq_zero hphase
    omega
  · intro hphase
    -- the reply stays the first thing that was sent, so the link is synced
    rcases run_sent_grows hs.consistent hlink₀ hrun with ⟨l', hl', hpre⟩
    rw [hlink] at hl'
    cases hl'
    rw [hsent₀] at hpre
    rcases hpre with ⟨tail, htail⟩
    cases hinv.stage with
    | waiting hpsync hargs hsent hstate hempty =>
        rw [hsent] at htail
        simp [fullresyncMessage] at htail
    | blocked hsent hblocked =>
        rw [← htail] at hsent
        simp [fullresyncMessage] at hsent
    | synced hposted hpsync hstated ho hsent hlog hlive hsynced =>
        have hsum := offset_add_streamUnread hstated ho hsent (hlive rfl) hsynced hphase
        omega

/-- Behind a write a replica attaches: its {lit}`FULLRESYNC` reply is sent and no byte of the
stream is on its way, but the replica, which has not read the reply, stands at zero. -/
theorem offsets_differ_unread_reply :
    ∃ s out l, Cluster.initial.run sampleMaster 6380
        [.write setRequest, .attach .handshaken psyncRequest, .psync 0] = some (s, out) ∧
      s.links 0 = some l ∧
      l.sent = fullresyncMessage sampleMaster.masterReplid
        (Decimal.renderInt s.registry.masterOffset) rdbPayload ∧
      s.registry.masterOffset - l.session.state.replicaOffset ≠ l.streamUnread sampleMaster := by
  have hfacts : (Cluster.initial.run sampleMaster 6380
      [.write setRequest, .attach .handshaken psyncRequest, .psync 0]).map (fun r =>
        (r.1.registry.masterOffset, (r.1.links 0).map fun l =>
          (l.sent, l.session.state.replicaOffset, l.streamUnread sampleMaster))) =
      some (27, some (fullresyncMessage sampleMaster.masterReplid (Decimal.renderInt 27) rdbPayload,
        0, 0)) := by
    decide +kernel
  rcases Option.map_eq_some_iff.mp hfacts with ⟨⟨s, out⟩, hrun, heq⟩
  rcases Prod.mk.inj heq with ⟨hoffset, hlink⟩
  rcases Option.map_eq_some_iff.mp hlink with ⟨l, hl, hdata⟩
  simp only [Prod.mk.injEq] at hdata
  refine ⟨s, out, l, hrun, hl, ?_, ?_⟩
  · rw [hoffset]
    exact hdata.1
  · rw [hoffset, hdata.2.1, hdata.2.2]
    decide

/-! ## {lit}`WAIT` -/

/-- The replica consumed every byte of the stream from the offset stated in its
{lit}`FULLRESYNC` reply up to {lit}`target`. -/
def CaughtUp (config : MasterConfig) (s : Cluster) (id : Nat) (target : Int) : Prop :=
  target ≤ 0 ∨ ∃ l, ∃ o : Nat, s.links id = some l ∧ l.stated = some (o : Int) ∧
    (target ≤ o ∨ ∃ k : Nat, target ≤ o + k ∧
      l.sent = fullresyncMessage config.masterReplid (Decimal.render o) rdbPayload ++
        (s.log.drop o).take k ++ l.unread)

/-- A replica whose acknowledged offset reaches the target has caught up. -/
theorem caughtUp_of_acked {config : MasterConfig} {s : Cluster} (hs : s.Invariant config)
    {id : Nat} {acked target : Int} (hacked : s.registry.ackedOffset id = some acked)
    (htarget : target ≤ acked) : CaughtUp config s id target := by
  have hregistered : s.registry.registered id = true := by
    simp [ReplicaRegistry.registered, hacked]
  cases hlink : s.links id with
  | none => exact absurd hlink (hs.linked id hregistered)
  | some l =>
      have hinv := hs.link id l hlink
      rw [hacked] at hinv
      have hle := (hinv.acked acked rfl).2
      cases hinv.stage with
      | waiting hpsync hargs hsent hstate hempty =>
          rw [hstate] at hle
          simp only at hle
          exact .inl (by omega)
      | blocked hsent hblocked =>
          rw [hblocked.offset_eq] at hle
          exact .inl (by omega)
      | @synced o posted hposted hpsync hstated ho hsent hlog hlive hsynced =>
          refine .inr ⟨l, o, hlink, hstated, ?_⟩
          have hall := hlive rfl
          generalize hstate : l.session.state = state at hsynced hle
          generalize hunread : l.unread = unread at hsynced ⊢
          cases hsynced with
          | reply =>
              simp only at hle
              exact .inl (by omega)
          | header => exact .inl (htarget.trans hle)
          | body => exact .inl (htarget.trans hle)
          | @commands done todo hsplit =>
              refine .inr ⟨(done.flatMap serialize).length, by simpa using htarget.trans hle, ?_⟩
              rw [hsent, ← hall, hsplit, List.flatMap_append, List.take_left, List.append_assoc]

/-- What a reply of {lit}`WAIT` is computed from. -/
theorem reply_count {config : MasterConfig} {port : Nat} {s s' : Cluster} {e : ClusterEvent}
    {out : List WaitReply} {reply : WaitReply} (h : s.step config port e = some (s', out))
    (hreply : reply ∈ out) :
    s'.registry = s.registry ∧ s'.links = s.links ∧ s'.log = s.log ∧
      reply.count = s.registry.countAckedAtLeast reply.issued.wait.targetOffset ∧
      ((∀ d ∈ reply.issued.wait.deadline, reply.now < d) →
        reply.issued.wait.numreplicas ≤ reply.count) := by
  have hnil : ∀ {o : Option Cluster}, o.map (·, ([] : List WaitReply)) = some (s', out) → False := by
    intro o ho
    rcases Option.map_eq_some_iff.mp ho with ⟨t, -, heq⟩
    cases heq
    simp at hreply
  cases e with
  | write request => exact (hnil (idle_eq_some h).2).elim
  | attach conn request => exact (hnil h).elim
  | psync id => exact (hnil (idle_eq_some h).2).elim
  | detach id =>
      simp only [Cluster.step] at h
      split at h
      · cases h
        simp at hreply
      · contradiction
  | deliver id n => exact (hnil h).elim
  | ackTimer id =>
      rcases Option.map_eq_some_iff.mp h with ⟨l, -, heq⟩
      cases heq
      simp at hreply
  | ackWritten id =>
      rcases Option.map_eq_some_iff.mp h with ⟨l, -, heq⟩
      cases heq
      simp at hreply
  | ackRead id extra => exact (hnil h).elim
  | wait args now =>
      have hwait := Option.some.inj (idle_eq_some h).2
      unfold Cluster.wait at hwait
      split at hwait
      · cases hwait
        simp at hreply
      · rename_i target numreplicas count hstart
        cases hwait
        rw [List.mem_singleton.mp hreply]
        rcases waitExecute_acked hstart with ⟨rfl, hcount, hle⟩
        exact ⟨rfl, rfl, rfl, hcount, fun _ => hle⟩
      · cases hwait
        simp at hreply
  | getack => exact (hnil h).elim
  | poll i now =>
      have hpoll := (idle_eq_some h).2
      unfold Cluster.poll at hpoll
      split at hpoll
      · contradiction
      · split at hpoll
        · rename_i wait hwait count hcount
          cases hpoll
          rw [List.mem_singleton.mp hreply]
          rcases waitPoll_eq_some hcount with ⟨heq, hearly⟩
          exact ⟨rfl, rfl, rfl, heq, hearly⟩
        · cases hpoll
          simp at hreply

/-- The arguments of a {lit}`WAIT` that replies with a number are decimal literals. -/
theorem decimalLine_of_parseNonnegative {text : Bytes} {n : Int}
    (h : parseNonnegative text = some n) : DecimalLine text n ∧ 0 ≤ n := by
  unfold parseNonnegative at h
  split at h
  · rename_i m hread
    split at h
    · rename_i hpos
      cases h
      exact ⟨((fromChars_eq_some_nil_iff (by decide)).mp hread).1, hpos⟩
    · contradiction
  · contradiction

/-- A deadline that fits in 64 bits is the reading of the clock plus the timeout. -/
theorem waitDeadline_eq {timeoutMs now d : Int} (hnow : 0 ≤ now)
    (hfits : now + timeoutMs * 1000000 ≤ longLongMax) (h : waitDeadline timeoutMs now = some d) :
    d = now + timeoutMs * 1000000 := by
  unfold waitDeadline at h
  split at h
  · rename_i hpos
    cases h
    have hmin : longLongMin ≤ 0 := by decide
    have hnanos : FitsLongLong (timeoutMs * 1000000) := ⟨by omega, by omega⟩
    rw [wrapLongLong_eq_self hnanos]
    exact wrapLongLong_eq_self ⟨by omega, hfits⟩
  · contradiction

/-- The reply is made ahead of the deadline of a {lit}`WAIT` with the timeout: there is none,
or the time of the request plus the timeout is yet to come. -/
def WaitReply.Early (reply : WaitReply) (timeoutMs : Int) : Prop :=
  timeoutMs = 0 ∨ 0 ≤ reply.issued.now ∧
    reply.issued.now + timeoutMs * 1000000 ≤ longLongMax ∧
    reply.now < reply.issued.now + timeoutMs * 1000000

/-- The deadline on record is that of the timeout. -/
theorem WaitReply.Early.lt_deadline {reply : WaitReply} {timeoutMs : Int}
    (h : reply.Early timeoutMs)
    (hdeadline : ∀ d ∈ reply.issued.wait.deadline,
      waitDeadline timeoutMs reply.issued.now = some d) :
    ∀ d ∈ reply.issued.wait.deadline, reply.now < d := by
  intro d hd
  have heq := hdeadline d hd
  rcases h with rfl | ⟨hnow, hfits, hlt⟩
  · cases heq
  · rwa [waitDeadline_eq hnow hfits heq]

/-- Whenever a {lit}`WAIT` replies with a number, that many distinct replicas are
registered that consumed the stream up to the offset at which the {lit}`WAIT` was issued,
each from the offset at which it was attached; and a reply ahead of the deadline
counts at least as many as its arguments ask for. -/
theorem wait_counts_caught_up {config : MasterConfig} {port : Nat} {events : List ClusterEvent}
    {e : ClusterEvent} {s s' : Cluster} {out₁ out₂ : List WaitReply} {reply : WaitReply}
    (hrun : Cluster.initial.run config port events = some (s, out₁))
    (hstep : s.step config port e = some (s', out₂)) (hreply : reply ∈ out₂) :
    (∃ ids : List Nat, ids.Nodup ∧ (ids.length : Int) = reply.count ∧
      ∀ id ∈ ids, s'.registry.registered id = true ∧
        CaughtUp config s' id reply.issued.offset) ∧
      ∃ num timeout numreplicas timeoutMs, reply.issued.args = [num, timeout] ∧
        DecimalLine num numreplicas ∧ DecimalLine timeout timeoutMs ∧
        (reply.Early timeoutMs → numreplicas ≤ reply.count) := by
  have hs' := invariant_step (invariant_run (invariant_initial config) hrun) hstep
  rcases reply_count hstep hreply with ⟨hregistry, -, -, hcount, hearly⟩
  have hanswers := reply.issued.answers
  rcases hanswers.exists_args with ⟨num, timeout, timeoutMs, hargs, hnum, htimeout, hdeadline⟩
  refine ⟨?_, num, timeout, _, timeoutMs, hargs, (decimalLine_of_parseNonnegative hnum).1,
    (decimalLine_of_parseNonnegative htimeout).1, fun h => hearly (h.lt_deadline hdeadline)⟩
  rw [hanswers.target_eq] at hcount
  rcases ReplicaRegistry.exists_counted hs'.consistent.valid reply.issued.offset with
    ⟨ids, hnodup, hlength, hids⟩
  refine ⟨ids, hnodup, ?_, ?_⟩
  · rw [hcount, hlength, hregistry]
  · intro id hid
    rcases hids id hid with ⟨acked, hacked, hle⟩
    exact ⟨by simp [ReplicaRegistry.registered, hacked], caughtUp_of_acked hs' hacked hle⟩

/-- A {lit}`WAIT` that is answered at once. -/
theorem step_wait_acked {config : MasterConfig} {port : Nat} {s : Cluster} {args : List Bytes}
    {now target numreplicas count : Int} (hidle : s.asking = none)
    (h : waitExecute (some s.registry) args now = .acked target numreplicas count) :
    ∃ reply : WaitReply, s.step config port (.wait args now) = some (s, [reply]) ∧
      reply.count = count ∧ reply.issued.args = args ∧ reply.issued.now = now ∧
      reply.issued.offset = s.registry.masterOffset := by
  simp only [Cluster.step, Cluster.idle, hidle, if_true]
  unfold Cluster.wait
  split
  · rename_i hwait
    rw [h] at hwait
    cases hwait
  · rename_i hwait
    rw [h] at hwait
    cases hwait
    exact ⟨_, rfl, rfl, rfl, rfl, rfl⟩
  · rename_i hwait
    rw [h] at hwait
    cases hwait

/-! ## A replica attached behind the writes -/

/-- The replica consumed the first {lit}`target` bytes of the stream, behind
whatever was sent ahead of it. -/
def ConsumedUpTo (s : Cluster) (id : Nat) (target : Int) : Prop :=
  ∃ l ahead, ∃ k : Nat, s.links id = some l ∧ l.sent = ahead ++ s.log.take k ++ l.unread ∧
    target ≤ k

/-- A write, then a replica that attaches and acknowledges its offset. -/
def lateReplica : List ClusterEvent :=
  [.write setRequest, .attach .handshaken psyncRequest, .psync 0, .deliver 0 80, .ackTimer 0,
    .ackRead 0 0]

/-- A {lit}`WAIT` for one replica counts the late replica, which consumed nothing
of the stream. -/
theorem wait_counts_late_replica :
    ∃ s s' out₁ out₂ reply, Cluster.initial.run sampleMaster 6380 lateReplica = some (s, out₁) ∧
      s.step sampleMaster 6380 (.wait [ascii "1", ascii "0"] 0) = some (s', out₂) ∧
      reply ∈ out₂ ∧ reply.count = 1 ∧ reply.issued.offset = s.registry.masterOffset ∧
      ¬ ∃ ids : List Nat, ids.Nodup ∧ (ids.length : Int) = reply.count ∧
        ∀ id ∈ ids, s'.registry.registered id = true ∧
          ConsumedUpTo s' id reply.issued.offset := by
  have hmaster : (Cluster.initial.run sampleMaster 6380 lateReplica).map
      (fun r => (r.1.registry, r.1.asking, r.1.log)) =
      some (⟨[(0, 27)], 1, 27⟩, none, serialize setRequest.value) := by
    decide +kernel
  have hreplica : (Cluster.initial.run sampleMaster 6380 lateReplica).map
      (fun r => (r.1.links 0).map fun l => (l.sent.getLast?, l.unread)) =
      some (some (some 0, [])) := by
    decide +kernel
  rcases Option.map_eq_some_iff.mp hmaster with ⟨⟨s, out₁⟩, hs, hproj⟩
  simp only [Prod.mk.injEq] at hproj
  rcases hproj with ⟨hregistry, hasking, hlog⟩
  rw [hs, Option.map_some, Option.some.injEq] at hreplica
  rcases Option.map_eq_some_iff.mp hreplica with ⟨l, hlink, hl⟩
  simp only [Prod.mk.injEq] at hl
  rcases hl with ⟨hlast, hunread⟩
  have hwait : waitExecute (some s.registry) [ascii "1", ascii "0"] 0 = .acked 27 1 1 := by
    rw [hregistry]
    decide +kernel
  rcases step_wait_acked hasking hwait with ⟨reply, hstep, hcount, -, -, hoffset⟩
  refine ⟨s, s, out₁, _, reply, hs, hstep, by simp, hcount, hoffset, ?_⟩
  rw [hcount, hoffset, hregistry]
  rintro ⟨ids, -, hlength, hids⟩
  have hone : ids.length = 1 := Int.ofNat.inj hlength
  rcases List.length_eq_one_iff.mp hone with ⟨id, rfl⟩
  rcases hids id (by simp) with ⟨hregistered, l', ahead, k, hlink', hsent, hk⟩
  have hid : id = 0 := by
    by_contra hne
    simp [ReplicaRegistry.registered, ReplicaRegistry.ackedOffset, Ne.symm hne] at hregistered
  -- the RDB file ends with a zero byte, the stream with a line feed
  subst hid
  rw [hlink] at hlink'
  cases hlink'
  have hlen : s.log.length ≤ k := by
    have hframe : (serialize setRequest.value).length = 27 := by decide +kernel
    rw [hlog, hframe]
    exact Int.ofNat_le.mp hk
  have hfeed : (serialize setRequest.value).getLast? = some 10 := by decide +kernel
  rw [hunread, List.append_nil, List.take_of_length_le hlen, hlog] at hsent
  rw [hsent, List.getLast?_append, hfeed] at hlast
  simp at hlast

/-- A {lit}`WAIT` behind the acknowledgement of a replica that is attached before
the write. -/
theorem wait_counts_caught_up_sample :
    ∃ s s' out₁ out₂ reply,
      Cluster.initial.run sampleMaster 6380
        [.attach .handshaken psyncRequest, .psync 0, .write setRequest, .deliver 0 106,
          .ackTimer 0, .ackRead 0 0] = some (s, out₁) ∧
      s.step sampleMaster 6380 (.wait [ascii "1", ascii "0"] 0) = some (s', out₂) ∧
      reply ∈ out₂ ∧ reply.count = 1 ∧ reply.issued.args = [ascii "1", ascii "0"] ∧
      ((∃ ids : List Nat, ids.Nodup ∧ (ids.length : Int) = reply.count ∧
        ∀ id ∈ ids, s'.registry.registered id = true ∧
          CaughtUp sampleMaster s' id reply.issued.offset) ∧
        ∃ num timeout numreplicas timeoutMs, reply.issued.args = [num, timeout] ∧
          DecimalLine num numreplicas ∧ DecimalLine timeout timeoutMs ∧
          (reply.Early timeoutMs → numreplicas ≤ reply.count)) := by
  have hrun : (Cluster.initial.run sampleMaster 6380
      [.attach .handshaken psyncRequest, .psync 0, .write setRequest, .deliver 0 106,
        .ackTimer 0, .ackRead 0 0]).map (fun r => (r.1.registry, r.1.asking)) =
      some (⟨[(0, 27)], 1, 27⟩, none) := by
    decide +kernel
  rcases Option.map_eq_some_iff.mp hrun with ⟨⟨s, out₁⟩, hs, hproj⟩
  simp only [Prod.mk.injEq] at hproj
  have hwait : waitExecute (some s.registry) [ascii "1", ascii "0"] 0 = .acked 27 1 1 := by
    rw [hproj.1]
    decide +kernel
  rcases step_wait_acked hproj.2 hwait with ⟨reply, hstep, hcount, hargs, -, -⟩
  exact ⟨s, s, out₁, _, reply, hs, hstep, by simp, hcount, hargs,
    wait_counts_caught_up hs hstep (by simp)⟩

/-- A replica attached to an idle master, a write, and bytes of it delivered and
acknowledged. -/
theorem offsets_never_drift_sample :
    ∃ s t l acked out₁ out₂,
      Cluster.initial.run sampleMaster 6380 [.attach .handshaken psyncRequest, .psync 0] =
        some (s, out₁) ∧
      s.run sampleMaster 6380 [.write setRequest, .deliver 0 90, .ackTimer 0, .ackRead 0 0] =
        some (t, out₂) ∧
      t.links 0 = some l ∧ t.registry.ackedOffset 0 = some acked ∧
      (acked ≤ l.session.state.replicaOffset ∧
        (l.session.state.replicaOffset : Int) ≤ t.registry.masterOffset ∧
        (l.session.state.phase = .psyncReply →
          acked = 0 ∧ l.session.state.replicaOffset = 0) ∧
        (l.session.state.phase ≠ .psyncReply →
          t.registry.masterOffset - l.session.state.replicaOffset =
            l.streamUnread sampleMaster)) := by
  have hbefore : (Cluster.initial.run sampleMaster 6380
      [.attach .handshaken psyncRequest, .psync 0]).map (fun r =>
        (r.1.registry.masterOffset, (r.1.links 0).map Link.sent,
          (r.1.run sampleMaster 6380 [.write setRequest, .deliver 0 90, .ackTimer 0,
            .ackRead 0 0]).map (fun r => (r.1.registry, (r.1.links 0).isSome)))) =
      some (0, some (fullresyncMessage sampleMaster.masterReplid (Decimal.renderInt 0) rdbPayload),
        some (⟨[(0, 0)], 1, 27⟩, true)) := by
    decide +kernel
  rcases Option.map_eq_some_iff.mp hbefore with ⟨⟨s, out₁⟩, hs, hproj⟩
  simp only [Prod.mk.injEq] at hproj
  rcases hproj with ⟨hoffset, hsent, hrun⟩
  rcases Option.map_eq_some_iff.mp hsent with ⟨l₀, hlink₀, hsent₀⟩
  rcases Option.map_eq_some_iff.mp hrun with ⟨⟨t, out₂⟩, ht, hproj⟩
  simp only [Prod.mk.injEq] at hproj
  rcases Option.isSome_iff_exists.mp hproj.2 with ⟨l, hl⟩
  have hacked : t.registry.ackedOffset 0 = some 0 := by
    rw [hproj.1]
    rfl
  rw [← hoffset] at hsent₀
  exact ⟨s, t, l, 0, out₁, out₂, hs, ht, hl, hacked,
    offsets_never_drift hs hlink₀ hsent₀ ht hl hacked⟩

end RedisClone
