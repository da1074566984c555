import RedisClone.Replication.Offsets

/-!
# Acknowledgements in order

{lit}`record_ack` overwrites the offset on record without comparing it.  It is the order of the
channel, and of the offsets that a session sends, that keeps the record from going back; so a
{lit}`WAIT` that polls every few milliseconds instead of being notified misses no moment at which
enough replicas have acknowledged.

Main results:

- Theorem {lit}`acksInOrder_step`: the offsets on their way are in order, and none is below the
  one on record.
- Theorem {lit}`acked_offsets_never_go_back`: the offset on record for a replica never decreases.
- Theorem {lit}`poll_misses_nothing`: a {lit}`WAIT` that could be answered once is answered by
  every later poll, as long as no replica is removed.
-/

namespace RedisClone

open RespValue

/-! ## The acknowledgements of a session -/

/-- The offsets that a session acknowledges. -/
def ackOffsets (actions : List SessionAction) : List Nat :=
  actions.filterMap fun
    | .sendAck _ offset => some offset
    | _ => none

/-- The acknowledgements are sent as messages. -/
theorem ackMessages_eq (actions : List SessionAction) :
    ackMessages actions = (ackOffsets actions).map fun n => encodeArray (ackParts n) := by
  induction actions with
  | nil => rfl
  | cons action actions ih =>
      unfold ackMessages ackOffsets at ih ⊢
      cases action <;> simp [ih]

/-- An offset that was acknowledged. -/
theorem mem_ackOffsets {actions : List SessionAction} {n : Nat} :
    n ∈ ackOffsets actions ↔ ∃ requested, .sendAck requested n ∈ actions := by
  unfold ackOffsets
  rw [List.mem_filterMap]
  constructor
  · rintro ⟨action, hmem, heq⟩
    cases action with
    | send parts => contradiction
    | sendAck requested m =>
        cases heq
        exact ⟨requested, hmem⟩
    | dispatch command => contradiction
  · rintro ⟨requested, hmem⟩
    exact ⟨_, hmem, rfl⟩

/-- The offsets are in order, and lie between the old offset of the session and the new one. -/
structure Ascends (old : Nat) (offsets : List Nat) (new : Nat) : Prop where
  grows : old ≤ new
  sorted : offsets.Pairwise (· ≤ ·)
  bounds : ∀ n ∈ offsets, old ≤ n ∧ n ≤ new

/-- Nothing is acknowledged. -/
theorem Ascends.nil {old new : Nat} (h : old ≤ new) : Ascends old [] new :=
  ⟨h, .nil, by simp⟩

/-- Acknowledgements behind others. -/
theorem Ascends.append {a b c : Nat} {first second : List Nat} (h : Ascends a first b)
    (h' : Ascends b second c) : Ascends a (first ++ second) c where
  grows := h.grows.trans h'.grows
  sorted := by
    refine List.pairwise_append.mpr ⟨h.sorted, h'.sorted, fun n hn m hm => ?_⟩
    exact (h.bounds n hn).2.trans (h'.bounds m hm).1
  bounds n hn := by
    rcases List.mem_append.mp hn with hn | hn
    · exact ⟨(h.bounds n hn).1, (h.bounds n hn).2.trans h'.grows⟩
    · exact ⟨h.grows.trans (h'.bounds n hn).1, (h'.bounds n hn).2⟩

/-- The acknowledgements of a session that reads its stream. -/
theorem ascends_drain {port : Nat} {replid : Bytes} {o : Nat} {posted : List RespValue}
    {s : SessionState} {buf down : Bytes}
    (hreplid : NoCrlf replid) (hposted : ∀ r ∈ posted, IsRequest r)
    (hfits : o + (posted.flatMap serialize).length < sizeTModulus)
    (h : Synced replid o posted s (buf ++ down)) :
    Ascends s.replicaOffset (ackOffsets ((sessionMachine port).drain s buf).2.2)
      ((sessionMachine port).drain s buf).1.replicaOffset := by
  refine ((sessionMachine port).drain_induction
    (fun s' buf' acc => Synced replid o posted s' (buf' ++ down) ∧
      Ascends s.replicaOffset (ackOffsets acc) s'.replicaOffset)
    ?_ s buf [] ⟨h, .nil (Nat.le_refl _)⟩).2
  rintro s₁ s₂ buf₁ rest out acc hstep ⟨hsynced, hacc⟩
  rcases synced_step hreplid hposted hfits hsynced hstep with ⟨hsynced', hle, hout⟩
  have heq : ∀ n ∈ ackOffsets out, n = s₂.replicaOffset := by
    intro n hn
    rcases mem_ackOffsets.mp hn with ⟨requested, hmem⟩
    exact hout requested n hmem
  refine ⟨hsynced', ?_⟩
  rw [ackOffsets, List.filterMap_append]
  refine hacc.append ⟨hle, List.pairwise_of_forall_mem_list fun n hn m hm => ?_, fun n hn => ?_⟩
  · rw [heq n hn, heq m hm]
  · rw [heq n hn]
    exact ⟨hle, Nat.le_refl _⟩

/-- The acknowledgements of a session that takes in bytes of its channel. -/
theorem LinkInv.ascends_receive {config : MasterConfig} {port : Nat} {log : Bytes}
    {acked : Option Int} {l : Link} {n : Nat} (h : LinkInv config log acked l)
    (hfits : (log.length : Int) ≤ longLongMax) (hpos : 0 < n) (hn : n ≤ l.down.length) :
    Ascends l.session.state.replicaOffset
      (ackOffsets (l.session.receive port (l.down.take n)).2)
      (l.session.receive port (l.down.take n)).1.state.replicaOffset := by
  have hfeed := receive_eq_feed port l.session (l.down.take n)
  rw [StreamMachine.feed] at hfeed
  simp only [Prod.ext_iff] at hfeed
  rcases hfeed with ⟨hstate, -, hout⟩
  have hchannel : l.unread = (l.session.buf ++ l.down.take n) ++ l.down.drop n := by
    simp [Link.unread]
  rw [hstate, hout]
  cases h.stage with
  | waiting hpsync hargs hsent hsession hempty =>
      have hdown : l.down = [] := (List.append_eq_nil_iff.mp hempty).2
      rw [hdown] at hn
      exact absurd hn (by simp; omega)
  | blocked hsent hblocked =>
      rw [hblocked.offset_eq]
      rw [hchannel] at hblocked
      rcases @blocked_drain port _ _ _ hblocked with ⟨-, hnone⟩
      rw [hnone]
      exact .nil (Nat.zero_le _)
  | @synced o posted hposted hpsync hstated ho hsent hlog hlive hsynced =>
      have hsmall : o + (posted.flatMap serialize).length < sizeTModulus := by
        have hlen := hlog.length_le
        rw [List.length_drop] at hlen
        unfold longLongMax at hfits
        unfold sizeTModulus
        omega
      rw [hchannel] at hsynced
      exact ascends_drain config.noCrlf_replid hposted hsmall hsynced

/-! ## The acknowledgements on their way -/

/-- The acknowledgements on their way to the master are in order, none is ahead of the session,
and none is below the offset on record. -/
structure AckOrder (acked : Option Int) (l : Link) (offsets : List Nat) : Prop where
  up : l.up = offsets.map fun n => encodeArray (ackParts n)
  sorted : offsets.Pairwise (· ≤ ·)
  le : ∀ n ∈ offsets, n ≤ l.session.state.replicaOffset
  acked : ∀ a, acked = some a → ∀ n ∈ offsets, a ≤ n

/-- All acknowledgements on their way are in order. -/
def Cluster.AcksInOrder (s : Cluster) : Prop :=
  ∀ id l, s.links id = some l → ∃ offsets, AckOrder (s.registry.ackedOffset id) l offsets

/-- Nothing is on its way at the start. -/
theorem acksInOrder_initial : Cluster.initial.AcksInOrder := by
  intro id l hlink
  contradiction

/-- A session acknowledges more. -/
theorem AckOrder.act {acked : Option Int} {l : Link} {offsets : List Nat}
    (h : AckOrder acked l offsets) {result : ReplicationSession × List SessionAction}
    (hresult : Ascends l.session.state.replicaOffset (ackOffsets result.2)
      result.1.state.replicaOffset)
    (hacked : ∀ a, acked = some a → a ≤ l.session.state.replicaOffset) :
    AckOrder acked (l.act result) (offsets ++ ackOffsets result.2) where
  up := by
    simp only [Link.act, h.up, ackMessages_eq, List.map_append]
  sorted := by
    refine List.pairwise_append.mpr ⟨h.sorted, hresult.sorted, fun n hn m hm => ?_⟩
    exact (h.le n hn).trans (hresult.bounds m hm).1
  le n hn := by
    rcases List.mem_append.mp hn with hn | hn
    · exact (h.le n hn).trans hresult.grows
    · exact (hresult.bounds n hn).2
  acked a ha n hn := by
    rcases List.mem_append.mp hn with hn | hn
    · exact h.acked a ha n hn
    · exact (hacked a ha).trans (Int.ofNat_le.mpr (hresult.bounds n hn).1)

/-- The acknowledgement timer acknowledges the offset of the session, or nothing. -/
theorem ascends_timer {port : Nat} (s : ReplicationSession) {event : SessionEvent}
    (hevent : event = .ackTimer ∨ event = .ackWritten) :
    Ascends s.state.replicaOffset (ackOffsets (s.step port event).2)
      (s.step port event).1.state.replicaOffset := by
  rcases hevent with rfl | rfl
  · simp only [ReplicationSession.step]
    split
    · exact ⟨Nat.le_refl _, List.pairwise_singleton _ _, by simp [ackOffsets]⟩
    · exact .nil (Nat.le_refl _)
  · exact .nil (Nat.le_refl _)

/-- The master reads acknowledgements: it records the first of them. -/
theorem AckOrder.ackRead {config : MasterConfig} {log : Bytes} {acked : Option Int} {l : Link}
    {offsets : List Nat} {extra : Nat} {conn' : Connection} {offset : Int}
    (hl : LinkInv config log acked l) (hfits : (log.length : Int) ≤ longLongMax)
    (h : AckOrder acked l offsets) (hextra : extra < l.up.length)
    (hread : onRead l.conn (l.up.take (extra + 1)).flatten = (conn', [.recordAck offset])) :
    (∀ a, acked = some a → a ≤ offset) ∧
      AckOrder (acked.map fun _ => offset) { l with conn := conn', up := l.up.drop (extra + 1) }
        (offsets.drop (extra + 1)) := by
  cases offsets with
  | nil => simp [h.up] at hextra
  | cons n offsets =>
      have hle := hl.stage.offset_le
      have hn := h.le n (by simp)
      have hack := onRead_ack hl.mode (by omega : (n : Int) ≤ longLongMax)
        ((offsets.map fun n => encodeArray (ackParts n)).take extra).flatten
      rw [h.up, List.map_cons, List.take_succ_cons, List.flatten_cons, hack] at hread
      simp only [Prod.mk.injEq, List.cons.injEq, Action.recordAck.injEq, and_true] at hread
      rcases hread with ⟨rfl, rfl⟩
      have hsorted := List.pairwise_cons.mp h.sorted
      refine ⟨fun a ha => h.acked a ha n (by simp), ?_, ?_, ?_, ?_⟩
      · simp [h.up, List.map_drop]
      · exact h.sorted.sublist (List.drop_sublist _ _)
      · exact fun m hm => h.le m (List.mem_of_mem_drop hm)
      · intro a ha m hm
        rcases Option.map_eq_some_iff.mp ha with ⟨_, -, rfl⟩
        exact Int.ofNat_le.mpr (hsorted.1 m (List.mem_of_mem_drop (by simpa using hm)))

/-- One link changes, and the acknowledged offsets of the others stay. -/
theorem Cluster.AcksInOrder.setLink {s : Cluster} {id : Nat} {l' : Link}
    {registry' : ReplicaRegistry} (hs : s.AcksInOrder)
    (hothers : ∀ i, i ≠ id → registry'.ackedOffset i = s.registry.ackedOffset i)
    (hlink : ∃ offsets, AckOrder (registry'.ackedOffset id) l' offsets) :
    ({ s with registry := registry' }.setLink id l').AcksInOrder := by
  intro i m hm
  change ∃ offsets, AckOrder (registry'.ackedOffset i) m offsets
  by_cases hid : i = id
  · subst hid
    rw [Cluster.setLink_self] at hm
    cases hm
    exact hlink
  · rw [Cluster.setLink_of_ne _ hid] at hm
    rw [hothers i hid]
    exact hs i m hm

/-- Every step keeps the acknowledgements in order. -/
theorem acksInOrder_step {config : MasterConfig} {port : Nat} {s s' : Cluster} {e : ClusterEvent}
    {out : List WaitReply} (hs : s.Invariant config) (hacks : s.AcksInOrder)
    (h : s.step config port e = some (s', out)) : s'.AcksInOrder := by
  have hle : ∀ {id : Nat} {l : Link}, s.links id = some l → ∀ a,
      s.registry.ackedOffset id = some a → a ≤ l.session.state.replicaOffset :=
    fun hlink a ha => ((hs.link _ _ hlink).acked a ha).2
  cases step_change h with
  | quiet asking waits => exact hacks
  | propagate asking waits hrequest hfits =>
      intro id l hl
      rcases Option.map_eq_some_iff.mp hl with ⟨l₀, hl₀, rfl⟩
      rcases hacks id l₀ hl₀ with ⟨offsets, horder⟩
      refine ⟨offsets, ?_⟩
      split <;> exact ⟨horder.up, horder.sorted, horder.le, horder.acked⟩
  | attach hrequest hcmd hargs =>
      have hadded := ReplicaRegistry.ackedOffset_add hs.consistent.valid
      exact hacks.setLink (fun i hi => by rw [hadded, if_neg hi])
        ⟨[], rfl, .nil, by simp, by simp⟩
  | psync hlink hpsync =>
      rcases hacks _ _ hlink with ⟨offsets, horder⟩
      exact hacks.setLink (fun _ _ => rfl)
        ⟨offsets, horder.up, horder.sorted, horder.le, horder.acked⟩
  | @detach id hregistered =>
      intro i l hl
      rcases hacks i l hl with ⟨offsets, horder⟩
      refine ⟨offsets, horder.up, horder.sorted, horder.le, fun a ha => ?_⟩
      rw [ReplicaRegistry.ackedOffset_remove hs.consistent.valid] at ha
      split at ha
      · contradiction
      · exact horder.acked a ha
  | @deliver id n l hlink hpos hn =>
      rcases hacks _ _ hlink with ⟨offsets, horder⟩
      have hsame : AckOrder (s.registry.ackedOffset id) { l with down := l.down.drop n } offsets :=
        ⟨horder.up, horder.sorted, horder.le, horder.acked⟩
      exact hacks.setLink (fun _ _ => rfl) ⟨_, hsame.act
        ((hs.link _ _ hlink).ascends_receive hs.fits hpos hn) fun a ha => hle hlink a ha⟩
  | timer hlink hevent =>
      rcases hacks _ _ hlink with ⟨offsets, horder⟩
      exact hacks.setLink (fun _ _ => rfl) ⟨_, horder.act (ascends_timer _ hevent) (hle hlink)⟩
  | @ackRead id extra l conn' offset hlink hextra hread =>
      rcases hacks _ _ hlink with ⟨offsets, horder⟩
      have hread' := (horder.ackRead (hs.link _ _ hlink) hs.fits hextra hread).2
      refine hacks.setLink (fun i hi => ?_) ⟨offsets.drop (extra + 1), ?_⟩
      · rw [ReplicaRegistry.ackedOffset_recordAck, if_neg hi]
      · rw [ReplicaRegistry.ackedOffset_recordAck, if_pos rfl]
        exact hread'

/-! ## The offsets on record -/

/-- A state behind another one: identifiers are not used again, and the offset on record for a
replica that is still registered has not decreased. -/
structure Cluster.Later (s t : Cluster) : Prop where
  nextId : s.registry.nextId ≤ t.registry.nextId
  acked : ∀ id < s.registry.nextId, ∀ b, t.registry.ackedOffset id = some b →
    ∃ a, s.registry.ackedOffset id = some a ∧ a ≤ b

/-- The registry is the same. -/
theorem Cluster.Later.of_eq {s t : Cluster} (hnext : t.registry.nextId = s.registry.nextId)
    (hacked : ∀ id, t.registry.ackedOffset id = s.registry.ackedOffset id) : s.Later t :=
  ⟨hnext.ge, fun id _ b hb => ⟨b, by rw [← hacked, hb], Int.le_refl b⟩⟩

/-- Behind a later state. -/
theorem Cluster.Later.trans {s t u : Cluster} (h : s.Later t) (h' : t.Later u) : s.Later u := by
  refine ⟨h.nextId.trans h'.nextId, fun id hid c hc => ?_⟩
  rcases h'.acked id (Nat.lt_of_lt_of_le hid h.nextId) c hc with ⟨b, hb, hbc⟩
  rcases h.acked id hid b hb with ⟨a, ha, hab⟩
  exact ⟨a, ha, hab.trans hbc⟩

/-- A step leads to a later state. -/
theorem later_step {config : MasterConfig} {port : Nat} {s s' : Cluster} {e : ClusterEvent}
    {out : List WaitReply} (hs : s.Invariant config) (hacks : s.AcksInOrder)
    (h : s.step config port e = some (s', out)) : s.Later s' := by
  cases step_change h with
  | quiet asking waits => exact .of_eq rfl fun _ => rfl
  | propagate asking waits hrequest hfits => exact .of_eq rfl fun _ => rfl
  | attach hrequest hcmd hargs =>
      refine ⟨Nat.le_succ _, fun id hid b hb => ⟨b, ?_, Int.le_refl b⟩⟩
      change s.registry.add.1.ackedOffset id = some b at hb
      rwa [ReplicaRegistry.ackedOffset_add hs.consistent.valid, if_neg (Nat.ne_of_lt hid)] at hb
  | psync hlink hpsync => exact .of_eq rfl fun _ => rfl
  | @detach id hregistered =>
      refine ⟨Nat.le_refl _, fun i _ b hb => ⟨b, ?_, Int.le_refl b⟩⟩
      change (s.registry.remove id).ackedOffset i = some b at hb
      rw [ReplicaRegistry.ackedOffset_remove hs.consistent.valid] at hb
      split at hb
      · contradiction
      · exact hb
  | deliver hlink hpos hn => exact .of_eq rfl fun _ => rfl
  | timer hlink hevent => exact .of_eq rfl fun _ => rfl
  | @ackRead id extra l conn' offset hlink hextra hread =>
      refine ⟨Nat.le_refl _, fun i _ b hb => ?_⟩
      change (s.registry.recordAck id offset).ackedOffset i = some b at hb
      rw [ReplicaRegistry.ackedOffset_recordAck] at hb
      split at hb
      · rename_i hid
        subst hid
        rcases Option.map_eq_some_iff.mp hb with ⟨a, ha, rfl⟩
        rcases hacks _ _ hlink with ⟨offsets, horder⟩
        exact ⟨a, ha, (horder.ackRead (hs.link _ _ hlink) hs.fits hextra hread).1 a ha⟩
      · exact ⟨b, hb, Int.le_refl b⟩

/-- The invariants of the acknowledgements hold in every state of a run. -/
theorem acksInOrder_run {config : MasterConfig} {port : Nat} {s t : Cluster}
    {events : List ClusterEvent} {out : List WaitReply} (hs : s.Invariant config ∧ s.AcksInOrder)
    (h : s.run config port events = some (t, out)) : t.Invariant config ∧ t.AcksInOrder :=
  @Execution.run_invariant _ _ _ (Cluster.step config port)
    (fun u => u.Invariant config ∧ u.AcksInOrder) (fun _ => True)
    (fun hu _ hstep => ⟨invariant_step hu.1 hstep, acksInOrder_step hu.1 hu.2 hstep⟩) _ _ _ _ hs
    (fun _ _ => trivial) h

/-- A run leads to a later state. -/
theorem later_run {config : MasterConfig} {port : Nat} {s t : Cluster}
    {events : List ClusterEvent} {out : List WaitReply} (hs : s.Invariant config)
    (hacks : s.AcksInOrder) (h : s.run config port events = some (t, out)) : s.Later t := by
  refine (@Execution.run_invariant _ _ _ (Cluster.step config port)
    (fun u => (u.Invariant config ∧ u.AcksInOrder) ∧ s.Later u) (fun _ => True) ?_ _ _ _ _
    ⟨⟨hs, hacks⟩, .of_eq rfl fun _ => rfl⟩ (fun _ _ => trivial) h).2
  rintro u u' e out ⟨⟨hu, hacks⟩, hlater⟩ - hstep
  exact ⟨⟨invariant_step hu hstep, acksInOrder_step hu hacks hstep⟩,
    hlater.trans (later_step hu hacks hstep)⟩

/-- The offset on record for a replica never goes back, in whatever order writes are propagated,
bytes delivered, acknowledgements sent, read and dropped, and replicas attached and removed. -/
theorem acked_offsets_never_go_back {config : MasterConfig} {port : Nat}
    {events more : List ClusterEvent} {s t : Cluster} {out out' : List WaitReply}
    (hrun : Cluster.initial.run config port events = some (s, out))
    (hmore : s.run config port more = some (t, out')) {id : Nat} {a b : Int}
    (hbefore : s.registry.ackedOffset id = some a) (hafter : t.registry.ackedOffset id = some b) :
    a ≤ b := by
  rcases acksInOrder_run ⟨invariant_initial config, acksInOrder_initial⟩ hrun with ⟨hs, hacks⟩
  have hid : id < s.registry.nextId :=
    hs.consistent.valid.lt_nextId _
      ((ReplicaRegistry.ackedOffset_eq_some hs.consistent.valid).mp hbefore)
  rcases (later_run hs hacks hmore).acked id hid b hafter with ⟨a', ha', hle⟩
  rw [hbefore] at ha'
  cases ha'
  exact hle

/-- A replica acknowledges the offset of its resynchronization, and then that of a write. -/
theorem acked_offsets_never_go_back_sample :
    ∃ s t out out' a b,
      Cluster.initial.run sampleMaster 6380
        [.attach .handshaken psyncRequest, .psync 0, .deliver 0 79, .ackTimer 0, .ackRead 0 0] =
        some (s, out) ∧
      s.run sampleMaster 6380
        [.ackWritten 0, .write setRequest, .deliver 0 27, .ackTimer 0, .ackRead 0 0] =
        some (t, out') ∧
      s.registry.ackedOffset 0 = some a ∧ t.registry.ackedOffset 0 = some b ∧ a < b ∧ a ≤ b := by
  have hacked : (Cluster.initial.run sampleMaster 6380
      [.attach .handshaken psyncRequest, .psync 0, .deliver 0 79, .ackTimer 0, .ackRead 0 0]).map
        (fun r => (r.1.registry.ackedOffset 0, (r.1.run sampleMaster 6380
          [.ackWritten 0, .write setRequest, .deliver 0 27, .ackTimer 0, .ackRead 0 0]).map
            fun r => r.1.registry.ackedOffset 0)) = some (some 0, some (some 27)) := by
    decide +kernel
  rcases Option.map_eq_some_iff.mp hacked with ⟨⟨s, out⟩, hs, hproj⟩
  simp only [Prod.mk.injEq] at hproj
  rcases hproj with ⟨hbefore, hmore⟩
  rcases Option.map_eq_some_iff.mp hmore with ⟨⟨t, out'⟩, ht, hafter⟩
  exact ⟨s, t, out, out', 0, 27, hs, ht, hbefore, hafter, by decide,
    acked_offsets_never_go_back hs ht hbefore hafter⟩

/-! ## Polling -/

/-- A replica acknowledges more than before: no replica is lost from a count. -/
theorem count_recordAck {r : ReplicaRegistry} (hr : r.Valid) {id : Nat} {offset : Int}
    (h : ∀ a, r.ackedOffset id = some a → a ≤ offset) (target : Int) :
    r.countAckedAtLeast target ≤ (r.recordAck id offset).countAckedAtLeast target := by
  unfold ReplicaRegistry.countAckedAtLeast ReplicaRegistry.recordAck
  simp only
  rw [List.countP_map]
  refine List.countP_mono_left fun entry hentry hge => ?_
  simp only [Function.comp_apply]
  split
  · rename_i hid
    have hacked := h entry.2 ((ReplicaRegistry.ackedOffset_eq_some hr).mpr (hid ▸ hentry))
    simp only [decide_eq_true_eq] at hge ⊢
    omega
  · exact hge

/-- A step that removes no replica takes none from a count. -/
theorem count_step {config : MasterConfig} {port : Nat} {s s' : Cluster} {e : ClusterEvent}
    {out : List WaitReply} (hs : s.Invariant config) (hacks : s.AcksInOrder)
    (hstay : ∀ id, e ≠ .detach id) (h : s.step config port e = some (s', out)) (target : Int) :
    s.registry.countAckedAtLeast target ≤ s'.registry.countAckedAtLeast target := by
  cases step_change h with
  | quiet asking waits => exact Nat.le_refl _
  | propagate asking waits hrequest hfits => exact Nat.le_refl _
  | attach hrequest hcmd hargs =>
      change _ ≤ s.registry.add.1.countAckedAtLeast target
      unfold ReplicaRegistry.countAckedAtLeast ReplicaRegistry.add
      simp only [List.countP_append]
      exact Nat.le_add_right _ _
  | psync hlink hpsync => exact Nat.le_refl _
  | detach hregistered => exact absurd rfl (hstay _)
  | deliver hlink hpos hn => exact Nat.le_refl _
  | timer hlink hevent => exact Nat.le_refl _
  | ackRead hlink hextra hread =>
      rcases hacks _ _ hlink with ⟨offsets, horder⟩
      exact count_recordAck hs.consistent.valid
        (horder.ackRead (hs.link _ _ hlink) hs.fits hextra hread).1 target

/-- A {lit}`WAIT` that a poll could answer once is answered by every later poll, with no smaller
number, as long as no replica is removed meanwhile: nothing is missed between two polls. -/
theorem poll_misses_nothing {config : MasterConfig} {port : Nat}
    {events more : List ClusterEvent} {s t : Cluster} {out out' : List WaitReply}
    (hrun : Cluster.initial.run config port events = some (s, out))
    (hmore : s.run config port more = some (t, out'))
    (hstay : ∀ e ∈ more, ∀ id, e ≠ .detach id) {wait : PendingWait} {now now' n : Int}
    (hnow : now ≤ now') (hpoll : waitPoll s.registry wait now = some n) :
    ∃ n', waitPoll t.registry wait now' = some n' ∧ n ≤ n' := by
  have hs := acksInOrder_run ⟨invariant_initial config, acksInOrder_initial⟩ hrun
  have hcount : s.registry.countAckedAtLeast wait.targetOffset ≤
      t.registry.countAckedAtLeast wait.targetOffset := by
    refine (@Execution.run_invariant _ _ _ (Cluster.step config port)
      (fun u => (u.Invariant config ∧ u.AcksInOrder) ∧
        s.registry.countAckedAtLeast wait.targetOffset ≤
          u.registry.countAckedAtLeast wait.targetOffset)
      (fun e => ∀ id, e ≠ .detach id) ?_ _ _ _ _ ⟨hs, Nat.le_refl _⟩ hstay hmore).2
    rintro u u' e out ⟨⟨hu, hacks⟩, hle⟩ he hstep
    exact ⟨⟨invariant_step hu hstep, acksInOrder_step hu hacks hstep⟩,
      hle.trans (count_step hu hacks he hstep _)⟩
  unfold waitPoll at hpoll ⊢
  simp only [Option.ite_none_right_eq_some, Option.some.injEq] at hpoll ⊢
  rcases hpoll with ⟨hready, rfl⟩
  refine ⟨_, ⟨?_, rfl⟩, Int.ofNat_le.mpr hcount⟩
  rcases hready with henough | hlate
  · exact .inl (henough.trans (Int.ofNat_le.mpr hcount))
  · rcases (Option.any_eq_true _ _).mp hlate with ⟨deadline, hdeadline, hle⟩
    refine .inr ((Option.any_eq_true _ _).mpr ⟨deadline, hdeadline, ?_⟩)
    simp only [decide_eq_true_eq] at hle ⊢
    omega

/-- A {lit}`WAIT` for one replica is answered behind its acknowledgement, and also behind a
further write. -/
theorem poll_misses_nothing_sample :
    ∃ s t out out' n',
      Cluster.initial.run sampleMaster 6380
        [.attach .handshaken psyncRequest, .psync 0, .write setRequest, .deliver 0 106,
          .ackTimer 0, .ackRead 0 0] = some (s, out) ∧
      s.run sampleMaster 6380 [.write setRequest, .attach .handshaken psyncRequest] =
        some (t, out') ∧
      waitPoll s.registry ⟨27, 1, none⟩ 0 = some 1 ∧
      waitPoll t.registry ⟨27, 1, none⟩ 20 = some n' ∧ 1 ≤ n' := by
  have hpolls : (Cluster.initial.run sampleMaster 6380
      [.attach .handshaken psyncRequest, .psync 0, .write setRequest, .deliver 0 106,
        .ackTimer 0, .ackRead 0 0]).map (fun r => (waitPoll r.1.registry ⟨27, 1, none⟩ 0,
          (r.1.run sampleMaster 6380
            [.write setRequest, .attach .handshaken psyncRequest]).isSome)) =
      some (some 1, true) := by
    decide +kernel
  rcases Option.map_eq_some_iff.mp hpolls with ⟨⟨s, out⟩, hs, hproj⟩
  simp only [Prod.mk.injEq] at hproj
  rcases hproj with ⟨hpoll, hmore⟩
  rcases Option.isSome_iff_exists.mp hmore with ⟨⟨t, out'⟩, ht⟩
  have hstay : ∀ e ∈ [ClusterEvent.write setRequest, .attach .handshaken psyncRequest],
      ∀ id, e ≠ .detach id := by
    intro e he id
    rcases List.mem_cons.mp he with rfl | he
    · simp
    · rw [List.mem_singleton.mp he]
      simp
  rcases poll_misses_nothing hs ht hstay (by decide : (0 : Int) ≤ 20) hpoll with ⟨n', hn', hle⟩
  exact ⟨s, t, out, out', n', hs, ht, hpoll, hn', hle⟩

end RedisClone
