import RedisClone.Lib.Execution
import RedisClone.Net.Handshake
import RedisClone.Replication.ReplicaRegistry

/-!
# The end of a connection

A connection is a chain of completion handlers: a read hands its request to the store
thread, the answer is written, and the next read is started when the write has completed.
The chain ends in one of three places, at the end of the stream, at a read error and at a
write error, and each of them calls {lit}`on_disconnect_`.

{lit}`Server::do_accept` starts a connection and counts it afterwards, while the threads of the
network context may already run the handlers of that connection; {lit}`INFO` reads the counter
on the store thread.  The counter is therefore behind the connections by at most the one that
is being accepted, and a connection that ends at once takes one from it before it was counted.

Main results:

- Theorem {lit}`sound_completion`: a connection has one handler in flight, and none behind its
  end.
- Theorem {lit}`teardown_complete`: connections end once and leave no replica behind, as
  long as no response to a replica fails and no request is answered twice; and the counter
  does not underflow if moreover no connection ends before it is counted.
- Theorem {lit}`connected_clients_never_wraps`: the counter is the number of connections that have
  not ended, or one less while a connection is being accepted, and it is not negative whenever a
  command such as {lit}`INFO` is being executed.

Current gaps: the answers of the store thread are events, and the synchronous write of a
parse error succeeds (an exception ends the process).
-/

namespace RedisClone

/-! ## The completion handlers -/

/-- A connection with what it has started and what it has handed to the store thread. -/
structure Session where
  connection : Connection
  /-- {lit}`replica_id_`, once {lit}`registered_as_replica_` is set. -/
  replicaId : Option Nat
  /-- Reads that were started and have not completed. -/
  reading : Nat
  /-- Responses whose write has not completed. -/
  writing : Nat
  /-- The number of requests that were handed to the store thread. -/
  handed : Nat
  /-- The requests that the store thread has answered. -/
  answered : List Nat
  /-- The calls of {lit}`on_disconnect_`. -/
  disconnects : Nat

/-- What the connections share.  The counter is kept without its wrap-around, so that an
underflow is a negative number. -/
structure Shared where
  registry : ReplicaRegistry
  connectedClients : Int

/-- The completion events of a connection. -/
inductive CompletionEvent where
  /-- A read has completed. -/
  | read (data : Bytes)
  /-- The other side has closed the connection. -/
  | eof
  /-- A read has failed. -/
  | readError
  /-- The store thread calls {lit}`write_response` for a request. -/
  | answer (request : Nat)
  /-- A response was written. -/
  | written
  /-- A response could not be written. -/
  | writeError
deriving DecidableEq

namespace Session

/-- A connection behind {lit}`start`. -/
def initial : Session :=
  ⟨.initial, none, 1, 0, 0, [], 0⟩

/-- {lit}`on_disconnect_`. -/
def onDisconnect (s : Session) (shared : Shared) : Session × Shared :=
  ({ s with disconnects := s.disconnects + 1 },
    { shared with connectedClients := shared.connectedClients - 1 })

/-- The end of a read, for both kinds of errors. -/
def closeRead (s : Session) (shared : Shared) : Session × Shared :=
  onDisconnect { s with reading := s.reading - 1 }
    (match s.replicaId with
      | some id => { shared with registry := shared.registry.remove id }
      | none => shared)

/-- The completion handler calls {lit}`do_read` itself. -/
def readsOn (actions : List Action) : Bool :=
  actions.all fun
    | .respond _ => false
    | .handle _ _ => false
    | _ => true

/-- One action of the completion handler of a read. -/
def perform (state : Session × Shared) : Action → Session × Shared
  | .respond _ => ({ state.1 with writing := state.1.writing + 1 }, state.2)
  | .handle _ _ => ({ state.1 with handed := state.1.handed + 1 }, state.2)
  | .register =>
      ({ state.1 with replicaId := some state.2.registry.add.2 },
        { state.2 with registry := state.2.registry.add.1 })
  | .recordAck offset =>
      (state.1, { state.2 with
        registry := state.2.registry.recordAck (state.1.replicaId.getD 0) offset })
  | .parseError => state
  | .throws => state

/-- The completion handler of a successful read. -/
def onReadCompleted (s : Session) (shared : Shared) (data : Bytes) : Session × Shared :=
  let read := onRead s.connection data
  read.2.foldl perform
    ({ s with
        connection := read.1
        reading := s.reading - 1 + if readsOn read.2 then 1 else 0 }, shared)

/-- One event of a connection; {lean}`none` if it is impossible, or if an exception ends
the process. -/
def step (s : Session) (shared : Shared) : CompletionEvent → Option (Session × Shared)
  | .read data =>
      if s.reading = 0 ∨ .throws ∈ (onRead s.connection data).2 then none
      else some (s.onReadCompleted shared data)
  | .eof => if s.reading = 0 then none else some (s.closeRead shared)
  | .readError => if s.reading = 0 then none else some (s.closeRead shared)
  | .answer request =>
      if request < s.handed then
        some ({ s with answered := s.answered ++ [request], writing := s.writing + 1 }, shared)
      else none
  | .written =>
      if s.writing = 0 then none
      else some ({ s with writing := s.writing - 1, reading := s.reading + 1 }, shared)
  | .writeError =>
      if s.writing = 0 then none
      else some (onDisconnect { s with writing := s.writing - 1 } shared)

end Session

/-- The event calls {lit}`on_disconnect_`. -/
def CompletionEvent.ends : CompletionEvent → Bool
  | .eof | .readError | .writeError => true
  | _ => false

/-- The connections of the server, and whether {lit}`do_accept` is between {lit}`start` and
{lit}`fetch_add`. -/
structure Network where
  sessions : List Session
  shared : Shared
  starting : Bool

/-- What happens to the connections. -/
inductive NetworkEvent where
  /-- {lit}`connection->start()`. -/
  | start
  /-- {lit}`connected_clients_.fetch_add(1)`, and the next {lit}`async_accept`. -/
  | count
  /-- A completion event of a connection. -/
  | session (connection : Nat) (event : CompletionEvent)
deriving DecidableEq

namespace Network

/-- A server without connections. -/
def initial : Network :=
  ⟨[], ⟨.empty, 0⟩, false⟩

/-- One event, if it is possible. -/
def step (n : Network) : NetworkEvent → Option Network
  | .start =>
      if n.starting then none else some ⟨n.sessions ++ [.initial], n.shared, true⟩
  | .count =>
      if n.starting then
        some ⟨n.sessions, { n.shared with
          connectedClients := n.shared.connectedClients + 1 }, false⟩
      else none
  | .session i event =>
      match n.sessions[i]? with
      | none => none
      | some s =>
          (s.step n.shared event).map fun next => ⟨n.sessions.set i next.1, next.2, n.starting⟩

/-- A sequence of events. -/
def run (n : Network) (events : List NetworkEvent) : Option Network :=
  Execution.follow step n events

/-- Every connection has ended at most once, and the ended ones are not registered as
replicas. -/
def TornDown (n : Network) : Prop :=
  ∀ s ∈ n.sessions, s.disconnects ≤ 1 ∧
    (s.disconnects ≠ 0 → ∀ id ∈ s.replicaId, n.shared.registry.registered id = false)

/-- The connections that have not ended. -/
def live (n : Network) : Nat :=
  n.sessions.countP fun s => s.disconnects = 0

/-- The store thread answers a request once. -/
def AnswersOnce (n : Network) : NetworkEvent → Prop
  | .session i (.answer request) => ∀ s ∈ n.sessions[i]?, request ∉ s.answered
  | _ => True

/-- No response to a registered replica fails. -/
def FailsUnregistered (n : Network) : NetworkEvent → Prop
  | .session i .writeError =>
      ∀ s ∈ n.sessions[i]?, ∀ id ∈ s.replicaId, n.shared.registry.registered id = false
  | _ => True

/-- The connection that is being accepted does not end before it is counted. -/
def EndsCounted (n : Network) : NetworkEvent → Prop
  | .session i event => event.ends = true → n.starting = true → i + 1 ≠ n.sessions.length
  | _ => True

instance (n : Network) (event : NetworkEvent) : Decidable (n.EndsCounted event) :=
  match event with
  | .start | .count => .isTrue trivial
  | .session i event => inferInstanceAs (Decidable
      (event.ends = true → n.starting = true → i + 1 ≠ n.sessions.length))

instance (n : Network) (event : NetworkEvent) : Decidable (n.AnswersOnce event) :=
  match event with
  | .start | .count => .isTrue trivial
  | .session i (.answer request) =>
      inferInstanceAs (Decidable (∀ s ∈ n.sessions[i]?, request ∉ s.answered))
  | .session _ (.read _) | .session _ .eof | .session _ .readError | .session _ .written
  | .session _ .writeError => .isTrue trivial

instance (n : Network) (event : NetworkEvent) : Decidable (n.FailsUnregistered event) :=
  match event with
  | .start | .count => .isTrue trivial
  | .session i .writeError => inferInstanceAs (Decidable
      (∀ s ∈ n.sessions[i]?, ∀ id ∈ s.replicaId, n.shared.registry.registered id = false))
  | .session _ (.read _) | .session _ .eof | .session _ .readError | .session _ .written
  | .session _ (.answer _) => .isTrue trivial

end Network

/-! ## The registry -/

/-- Replicas are added under new identifiers. -/
structure ReplicaRegistry.Grows (r r' : ReplicaRegistry) : Prop where
  nextId : r.nextId ≤ r'.nextId
  registered : ∀ {id}, r'.registered id = true → r.registered id = true ∨ r.nextId ≤ id

namespace ReplicaRegistry

theorem Grows.refl (r : ReplicaRegistry) : r.Grows r :=
  ⟨Nat.le_refl _, Or.inl⟩

theorem Grows.trans {r r' r'' : ReplicaRegistry} (h : r.Grows r') (h' : r'.Grows r'') :
    r.Grows r'' := by
  refine ⟨Nat.le_trans h.nextId h'.nextId, fun hid => ?_⟩
  rcases h'.registered hid with hold | hnew
  · exact h.registered hold
  · exact Or.inr (Nat.le_trans h.nextId hnew)

theorem grows_add (r : ReplicaRegistry) : r.Grows r.add.1 := by
  refine ⟨Nat.le_succ _, fun {id} hid => ?_⟩
  rw [registered_iff] at hid ⊢
  simp only [add, List.map_append, List.map_cons, List.map_nil, List.mem_append,
    List.mem_singleton] at hid
  rcases hid with hold | hnew
  · exact Or.inl hold
  · exact Or.inr (Nat.le_of_eq hnew.symm)

theorem grows_recordAck (r : ReplicaRegistry) (id : Nat) (offset : Int) :
    r.Grows (r.recordAck id offset) := by
  refine ⟨Nat.le_refl _, fun {id'} hid => Or.inl ?_⟩
  rw [registered_iff] at hid ⊢
  simp only [recordAck, List.map_map, List.mem_map, Function.comp_apply] at hid ⊢
  rcases hid with ⟨entry, hmem, heq⟩
  refine ⟨entry, hmem, ?_⟩
  split at heq <;> exact heq

theorem grows_remove (r : ReplicaRegistry) (id : Nat) : r.Grows (r.remove id) := by
  refine ⟨Nat.le_refl _, fun {id'} hid => Or.inl ?_⟩
  rw [registered_iff] at hid ⊢
  rcases List.mem_map.mp hid with ⟨entry, hmem, heq⟩
  exact List.mem_map.mpr ⟨entry, List.mem_of_mem_filter hmem, heq⟩

/-- A replica that was removed is not registered. -/
theorem registered_remove_self (r : ReplicaRegistry) (id : Nat) :
    (r.remove id).registered id = false := by
  rw [← Bool.not_eq_true, registered_iff]
  simp [remove]

/-- An identifier that was given out and is not registered stays so. -/
theorem Grows.registered_eq_false {r r' : ReplicaRegistry} (h : r.Grows r') {id : Nat}
    (hid : id < r.nextId) (hout : r.registered id = false) : r'.registered id = false := by
  rw [← Bool.not_eq_true]
  intro hin
  rcases h.registered hin with hold | hnew
  · rw [hout] at hold
    contradiction
  · omega

end ReplicaRegistry

/-! ## One connection -/

section Actions

/-- The action writes a response, or hands a request to the store thread. -/
def Action.leaves : Action → Bool
  | .respond _ => true
  | .handle _ _ => true
  | _ => false

/-- One response, one request for the store thread, or the next read. -/
def OneExit (actions : List Action) : Prop :=
  actions.countP Action.leaves + (if Session.readsOn actions then 1 else 0) = 1

/-- An acknowledgement is followed by the next read. -/
theorem ackActions_reads (cmd : Command) :
    (ackActions cmd).countP Action.leaves = 0 ∧ Session.readsOn (ackActions cmd) = true := by
  unfold ackActions
  split
  · split <;> exact ⟨rfl, rfl⟩
  · exact ⟨rfl, rfl⟩

/-- A completed read goes on in one way. -/
theorem oneExit_onRead (c : Connection) (data : Bytes) : OneExit (onRead c data).2 := by
  have hcommand : ∀ request cmd, OneExit (onCommand c request cmd).2 := by
    intro request cmd
    unfold onCommand
    cases handshakeError c cmd.type with
    | some response => rfl
    | none =>
        rcases ackActions_reads cmd with ⟨hcount, hreads⟩
        unfold Session.readsOn at hreads
        dsimp only
        split <;> cases registers c cmd.type <;>
          simp [OneExit, Action.leaves, Session.readsOn, hcount, hreads]
  unfold onRead
  split
  · rfl
  · rfl
  · unfold onRequest
    split
    · rfl
    · split
      · rfl
      · exact hcommand _ _

/-- What the actions of a read change, and what they leave alone. -/
theorem foldl_perform (actions : List Action) (state : Session × Shared) :
    let state' := actions.foldl Session.perform state
    state'.1.writing + state'.1.handed =
        state.1.writing + state.1.handed + actions.countP Action.leaves ∧
      state.1.handed ≤ state'.1.handed ∧
      state'.1.reading = state.1.reading ∧ state'.1.answered = state.1.answered ∧
      state'.1.disconnects = state.1.disconnects ∧
      state'.2.connectedClients = state.2.connectedClients ∧
      state.2.registry.Grows state'.2.registry ∧
      ((∀ id ∈ state.1.replicaId, id < state.2.registry.nextId) →
        ∀ id ∈ state'.1.replicaId, id < state'.2.registry.nextId) := by
  induction actions generalizing state with
  | nil => exact ⟨rfl, Nat.le_refl _, rfl, rfl, rfl, rfl, .refl _, id⟩
  | cons action actions ih =>
      rcases ih (Session.perform state action) with
        ⟨hsum, hhanded, hreading, hanswered, hdisconnects, hclients, hgrows, hknown⟩
      simp only [List.foldl_cons, List.countP_cons]
      cases action with
      | parseError =>
          exact ⟨hsum, hhanded, hreading, hanswered, hdisconnects, hclients, hgrows, hknown⟩
      | throws =>
          exact ⟨hsum, hhanded, hreading, hanswered, hdisconnects, hclients, hgrows, hknown⟩
      | respond response =>
          refine ⟨?_, hhanded, hreading, hanswered, hdisconnects, hclients, hgrows, hknown⟩
          rw [hsum]
          simp only [Session.perform, Action.leaves, if_true]
          omega
      | handle kind request =>
          refine ⟨?_, Nat.le_of_succ_le hhanded, hreading, hanswered, hdisconnects, hclients, hgrows,
            hknown⟩
          rw [hsum]
          simp only [Session.perform, Action.leaves, if_true]
          omega
      | register =>
          refine ⟨hsum, hhanded, hreading, hanswered, hdisconnects, hclients,
            (ReplicaRegistry.grows_add _).trans hgrows, fun _ => hknown ?_⟩
          intro id hid
          cases hid
          exact Nat.lt_succ_self _
      | recordAck offset =>
          exact ⟨hsum, hhanded, hreading, hanswered, hdisconnects, hclients,
            (ReplicaRegistry.grows_recordAck _ _ _).trans hgrows, hknown⟩

end Actions

/-- A connection has one handler in flight: a read, a write, or a request that the store
thread has not answered.  Behind its end it has none, and is not registered. -/
structure Session.Sound (s : Session) (registry : ReplicaRegistry) : Prop where
  flight : s.reading + s.writing + s.handed + s.disconnects ≤ 1 + s.answered.length
  nodup : s.answered.Nodup
  handed : ∀ request ∈ s.answered, request < s.handed
  known : ∀ id ∈ s.replicaId, id < registry.nextId
  removed : s.disconnects ≠ 0 → ∀ id ∈ s.replicaId, registry.registered id = false

section Steps

variable {s s' : Session} {shared shared' : Shared} {event : CompletionEvent}

/-- Answers to different requests are no more than the requests. -/
theorem length_le_of_nodup {requests : List Nat} {bound : Nat} (hnodup : requests.Nodup)
    (hbound : ∀ request ∈ requests, request < bound) : requests.length ≤ bound := by
  have hsub : requests.Subperm (List.range bound) :=
    hnodup.subperm fun request hmem => List.mem_range.mpr (hbound request hmem)
  simpa using hsub.length_le

/-- A connection ends once. -/
theorem Session.Sound.disconnects_le (h : s.Sound shared.registry) : s.disconnects ≤ 1 := by
  have hflight := h.flight
  have hlength := length_le_of_nodup h.nodup h.handed
  omega

/-- Other connections leave a connection sound. -/
theorem Session.Sound.grows {registry registry' : ReplicaRegistry} (h : s.Sound registry)
    (hgrows : registry.Grows registry') : s.Sound registry' where
  flight := h.flight
  nodup := h.nodup
  handed := h.handed
  known id hid := Nat.lt_of_lt_of_le (h.known id hid) hgrows.nextId
  removed hended id hid := hgrows.registered_eq_false (h.known id hid) (h.removed hended id hid)

/-- The registry behind a closed read. -/
theorem grows_closeRead (s : Session) (shared : Shared) :
    shared.registry.Grows (s.closeRead shared).2.registry := by
  unfold Session.closeRead Session.onDisconnect
  cases s.replicaId with
  | none => exact .refl _
  | some id => exact ReplicaRegistry.grows_remove _ id

/-- What a step does to the registry and to the counter. -/
theorem shared_step (hstep : s.step shared event = some (s', shared')) :
    shared.registry.Grows shared'.registry ∧
      shared'.connectedClients + s'.disconnects = shared.connectedClients + s.disconnects := by
  have hclose : ∀ {state}, s.closeRead shared = state → shared.registry.Grows state.2.registry ∧
      state.2.connectedClients + state.1.disconnects =
        shared.connectedClients + s.disconnects := by
    rintro state rfl
    refine ⟨grows_closeRead s shared, ?_⟩
    unfold Session.closeRead Session.onDisconnect
    cases s.replicaId <;> simp only <;> push_cast <;> omega
  cases event with
  | read data =>
      simp only [Session.step, Option.ite_none_left_eq_some, Option.some.injEq] at hstep
      rcases foldl_perform (onRead s.connection data).2 _ with
        ⟨-, -, -, -, hdisconnects, hclients, hgrows, -⟩
      rw [Session.onReadCompleted] at hstep
      rw [hstep.2] at hdisconnects hclients hgrows
      exact ⟨hgrows, by rw [hclients, hdisconnects]⟩
  | eof =>
      simp only [Session.step, Option.ite_none_left_eq_some, Option.some.injEq] at hstep
      exact hclose hstep.2
  | readError =>
      simp only [Session.step, Option.ite_none_left_eq_some, Option.some.injEq] at hstep
      exact hclose hstep.2
  | answer request =>
      simp only [Session.step, Option.ite_none_right_eq_some, Option.some.injEq] at hstep
      cases hstep.2
      exact ⟨.refl _, rfl⟩
  | written =>
      simp only [Session.step, Option.ite_none_left_eq_some, Option.some.injEq] at hstep
      cases hstep.2
      exact ⟨.refl _, rfl⟩
  | writeError =>
      simp only [Session.step, Option.ite_none_left_eq_some, Option.some.injEq] at hstep
      cases hstep.2
      refine ⟨.refl _, ?_⟩
      simp only
      push_cast
      omega

/-- Only three events end a connection. -/
theorem disconnects_step (hends : event.ends = false)
    (hstep : s.step shared event = some (s', shared')) : s'.disconnects = s.disconnects := by
  cases event with
  | read data =>
      simp only [Session.step, Option.ite_none_left_eq_some, Option.some.injEq] at hstep
      rcases foldl_perform (onRead s.connection data).2 _ with ⟨-, -, -, -, hdisconnects, -, -, -⟩
      rw [Session.onReadCompleted] at hstep
      rwa [hstep.2] at hdisconnects
  | answer request =>
      simp only [Session.step, Option.ite_none_right_eq_some, Option.some.injEq] at hstep
      cases hstep.2
      rfl
  | written =>
      simp only [Session.step, Option.ite_none_left_eq_some, Option.some.injEq] at hstep
      cases hstep.2
      rfl
  | eof | readError | writeError => cases hends

/-- A closed read ends a connection for good. -/
theorem Session.Sound.closeRead (h : s.Sound shared.registry) (hreading : s.reading ≠ 0) :
    (s.closeRead shared).1.Sound (s.closeRead shared).2.registry := by
  have hflight := h.flight
  refine ⟨?_, h.nodup, h.handed, fun id hid => ?_, fun _ id hid => ?_⟩
  · simp only [Session.closeRead, Session.onDisconnect]
    omega
  · exact Nat.lt_of_lt_of_le (h.known id hid) (grows_closeRead s shared).nextId
  · have hreplica : s.replicaId = some id := hid
    simp only [Session.closeRead, Session.onDisconnect, hreplica]
    exact ReplicaRegistry.registered_remove_self _ id

/-- A step keeps a connection sound, unless it answers a request again or fails to write
to a registered replica. -/
theorem sound_completion (h : s.Sound shared.registry)
    (honce : ∀ request, event = .answer request → request ∉ s.answered)
    (hfails : event = .writeError → ∀ id ∈ s.replicaId, shared.registry.registered id = false)
    (hstep : s.step shared event = some (s', shared')) : s'.Sound shared'.registry := by
  have hflight := h.flight
  have hlength := length_le_of_nodup h.nodup h.handed
  cases event with
  | read data =>
      simp only [Session.step, Option.ite_none_left_eq_some, Option.some.injEq, not_or] at hstep
      have hexit := oneExit_onRead s.connection data
      unfold OneExit at hexit
      rcases foldl_perform (onRead s.connection data).2 _ with
        ⟨hsum, hhanded, hreading, hanswered, hdisconnects, -, -, hknown⟩
      rw [Session.onReadCompleted] at hstep
      rw [hstep.2] at hsum hhanded hreading hanswered hdisconnects hknown
      simp only at hsum hhanded hreading hanswered hdisconnects hknown
      refine ⟨?_, ?_, fun request hmem => ?_, hknown h.known, fun hended => ?_⟩
      · rw [hreading, hanswered, hdisconnects]
        omega
      · rw [hanswered]
        exact h.nodup
      · rw [hanswered] at hmem
        exact Nat.lt_of_lt_of_le (h.handed request hmem) hhanded
      · rw [hdisconnects] at hended
        omega
  | eof =>
      simp only [Session.step, Option.ite_none_left_eq_some, Option.some.injEq] at hstep
      have hclosed := h.closeRead hstep.1
      rw [hstep.2] at hclosed
      exact hclosed
  | readError =>
      simp only [Session.step, Option.ite_none_left_eq_some, Option.some.injEq] at hstep
      have hclosed := h.closeRead hstep.1
      rw [hstep.2] at hclosed
      exact hclosed
  | answer request =>
      simp only [Session.step, Option.ite_none_right_eq_some, Option.some.injEq] at hstep
      rcases hstep with ⟨hlt, heq⟩
      cases heq
      refine ⟨?_, ?_, fun request' hmem => ?_, h.known, h.removed⟩
      · simp only [List.length_append, List.length_singleton]
        omega
      · rw [List.nodup_append]
        refine ⟨h.nodup, by simp, fun request' hmem request'' hmem' heq => ?_⟩
        rw [heq, List.mem_singleton.mp hmem'] at hmem
        exact honce request rfl hmem
      · rcases List.mem_append.mp hmem with hmem | hmem
        · exact h.handed request' hmem
        · rw [List.mem_singleton.mp hmem]
          exact hlt
  | written =>
      simp only [Session.step, Option.ite_none_left_eq_some, Option.some.injEq] at hstep
      rcases hstep with ⟨hwriting, heq⟩
      cases heq
      refine ⟨?_, h.nodup, h.handed, h.known, h.removed⟩
      simp only
      omega
  | writeError =>
      simp only [Session.step, Option.ite_none_left_eq_some, Option.some.injEq] at hstep
      rcases hstep with ⟨hwriting, heq⟩
      cases heq
      refine ⟨?_, h.nodup, h.handed, h.known, fun _ => hfails rfl⟩
      simp only
      omega

end Steps

/-! ## All connections -/

/-- Every connection is sound, and the counter counts those that have not ended, except for
the one that is being accepted. -/
structure Network.Sound (n : Network) : Prop where
  sessions : ∀ s ∈ n.sessions, s.Sound n.shared.registry
  clients : n.shared.connectedClients + (if n.starting then 1 else 0) +
    ((n.sessions.map Session.disconnects).sum : Nat) = n.sessions.length

/-- A sum in which one element is replaced. -/
theorem sum_map_set {α : Type} (f : α → Nat) {l : List α} {i : Nat} {a : α} (h : l[i]? = some a)
    (b : α) : ((l.set i b).map f).sum + f a = (l.map f).sum + f b := by
  induction l generalizing i with
  | nil => simp at h
  | cons head tail ih =>
      cases i with
      | zero =>
          cases h
          simp only [List.set_cons_zero, List.map_cons, List.sum_cons]
          omega
      | succ i =>
          have htail := ih h
          simp only [List.set_cons_succ, List.map_cons, List.sum_cons]
          omega

/-- Connections that end at most once: the ends are the connections that are not live. -/
theorem sum_disconnects {sessions : List Session} (h : ∀ s ∈ sessions, s.disconnects ≤ 1) :
    (sessions.map Session.disconnects).sum + sessions.countP (fun s => s.disconnects = 0) =
      sessions.length := by
  induction sessions with
  | nil => rfl
  | cons s sessions ih =>
      have hs := h s (by simp)
      have hrest := ih fun s hs => h s (by simp [hs])
      simp only [List.map_cons, List.sum_cons, List.countP_cons, List.length_cons,
        decide_eq_true_eq]
      split <;> omega

namespace Network

/-- Connections end at most once each. -/
theorem Sound.tornDown {n : Network} (h : n.Sound) : n.TornDown :=
  fun s hmem => ⟨(h.sessions s hmem).disconnects_le, (h.sessions s hmem).removed⟩

/-- The counter is behind the connections by the one that is being accepted. -/
theorem Sound.clients_eq {n : Network} (h : n.Sound) :
    n.shared.connectedClients = n.live - (if n.starting then 1 else 0) := by
  have hsum := sum_disconnects fun s hs => (h.sessions s hs).disconnects_le
  have hclients := h.clients
  unfold live
  omega

/-- The server starts without connections. -/
theorem sound_initial : initial.Sound :=
  ⟨by simp [initial], by simp [initial]⟩

/-- An event keeps the connections sound. -/
theorem Sound.step {n n' : Network} {event : NetworkEvent} (h : n.Sound)
    (hevent : n.AnswersOnce event ∧ n.FailsUnregistered event) (hstep : n.step event = some n') :
    n'.Sound := by
  cases event with
  | start =>
      simp only [Network.step, Option.ite_none_left_eq_some, Option.some.injEq] at hstep
      rcases hstep with ⟨hidle, rfl⟩
      refine ⟨fun s hmem => ?_, ?_⟩
      · rcases List.mem_append.mp hmem with hmem | hmem
        · exact h.sessions s hmem
        · rw [List.mem_singleton.mp hmem]
          exact ⟨by simp [Session.initial], by simp [Session.initial], by simp [Session.initial],
            by simp [Session.initial], by simp [Session.initial]⟩
      · have hclients := h.clients
        rw [if_neg hidle] at hclients
        simp only [List.map_append, List.sum_append, List.length_append, List.map_cons, List.map_nil,
          List.sum_cons, List.sum_nil, List.length_singleton, Session.initial, if_true]
        push_cast at hclients ⊢
        omega
  | count =>
      simp only [Network.step, Option.ite_none_right_eq_some, Option.some.injEq] at hstep
      rcases hstep with ⟨hstarting, rfl⟩
      refine ⟨h.sessions, ?_⟩
      have hclients := h.clients
      rw [if_pos hstarting] at hclients
      simp only [Bool.false_eq_true, if_false]
      omega
  | session i event =>
      simp only [Network.step] at hstep
      cases hsession : n.sessions[i]? with
      | none =>
          rw [hsession] at hstep
          contradiction
      | some s =>
          rw [hsession] at hstep
          rcases Option.map_eq_some_iff.mp hstep with ⟨⟨s', shared'⟩, hone, rfl⟩
          rcases hevent with ⟨honce, hfails⟩
          rcases shared_step hone with ⟨hgrows, hclients'⟩
          have hs := h.sessions s (List.mem_of_getElem? hsession)
          have hs' : s'.Sound shared'.registry := by
            refine sound_completion hs ?_ ?_ hone
            · rintro request rfl
              exact honce s hsession
            · rintro rfl
              exact hfails s hsession
          refine ⟨fun other hmem => ?_, ?_⟩
          · rcases List.mem_or_eq_of_mem_set hmem with hmem | rfl
            · exact (h.sessions other hmem).grows hgrows
            · exact hs'
          · have hclients := h.clients
            have hsum := sum_map_set Session.disconnects hsession s'
            simp only [List.length_set]
            omega

/-- The connection that is being accepted has not ended. -/
def StartedLive (n : Network) : Prop :=
  n.starting = true → ∃ s, n.sessions[n.sessions.length - 1]? = some s ∧ s.disconnects = 0

theorem startedLive_step {n n' : Network} {event : NetworkEvent} (h : n.StartedLive)
    (hends : n.EndsCounted event) (hstep : n.step event = some n') : n'.StartedLive := by
  cases event with
  | start =>
      simp only [Network.step, Option.ite_none_left_eq_some, Option.some.injEq] at hstep
      rcases hstep with ⟨-, rfl⟩
      exact fun _ => ⟨.initial, by simp, rfl⟩
  | count =>
      simp only [Network.step, Option.ite_none_right_eq_some, Option.some.injEq] at hstep
      rcases hstep with ⟨-, rfl⟩
      exact fun hstarting => absurd hstarting (by simp)
  | session i event =>
      simp only [Network.step] at hstep
      cases hsession : n.sessions[i]? with
      | none =>
          rw [hsession] at hstep
          contradiction
      | some s =>
          rw [hsession] at hstep
          rcases Option.map_eq_some_iff.mp hstep with ⟨⟨s', shared'⟩, hone, rfl⟩
          intro hstarting
          have hlt := (List.getElem?_eq_some_iff.mp hsession).1
          rcases h hstarting with ⟨last, hlast, hlive⟩
          simp only [List.length_set]
          by_cases hi : i = n.sessions.length - 1
          · have hends' : event.ends = false := by
              by_contra hne
              exact hends (by simpa using hne) hstarting (by omega)
            rw [← hi, hsession] at hlast
            cases hlast
            rw [← hi, List.getElem?_set_self hlt]
            exact ⟨s', rfl, (disconnects_step hends' hone).trans hlive⟩
          · rw [List.getElem?_set_ne hi]
            exact ⟨last, hlast, hlive⟩

/-- The counter has not underflowed if the connection that is being accepted is live. -/
theorem Sound.clients_nonneg {n : Network} (h : n.Sound) (hlive : n.StartedLive) :
    0 ≤ n.shared.connectedClients := by
  rw [h.clients_eq]
  split
  · rename_i hstarting
    rcases hlive hstarting with ⟨s, hs, hzero⟩
    have hpos : 0 < n.live :=
      List.countP_pos_iff.mpr ⟨s, List.mem_of_getElem? hs, by simpa using hzero⟩
    omega
  · omega

end Network

/-- Connections end once and are not registered as replicas behind their end, all through every
run in which no request is answered twice and no response to a registered replica fails; and
the number of connected clients does not underflow if moreover no connection ends before it is
counted.  The second condition is needed. -/
theorem teardown_complete (events : List NetworkEvent) :
    (Execution.Along Network.step Network.AnswersOnce .initial events →
      Execution.Along Network.step Network.FailsUnregistered .initial events →
      ∀ first second n, events = first ++ second → Network.initial.run first = some n →
        n.TornDown ∧
          (Execution.Along Network.step Network.EndsCounted .initial events →
            0 ≤ n.shared.connectedClients)) ∧
    (∀ n, Network.initial.run events = some n →
      (∀ first second m, events = first ++ second → Network.initial.run first = some m →
        m.TornDown) →
      Execution.Along Network.step Network.FailsUnregistered .initial events) := by
  constructor
  · rintro honce hfails first second n rfl hrun
    have hboth := (Execution.along_append hrun (honce.and hfails)).1
    have hsound := Execution.follow_invariant Network.Sound.step Network.sound_initial hboth hrun
    refine ⟨hsound.tornDown, fun hends => hsound.clients_nonneg ?_⟩
    exact Execution.follow_invariant Network.startedLive_step
      (show Network.initial.StartedLive from fun hstarting => absurd hstarting (by decide))
      (Execution.along_append hrun hends).1 hrun
  · intro n hrun hall
    refine Execution.along_of_prefixes fun first event second m hsplit hfirst => ?_
    cases event with
    | start | count => trivial
    | session i event =>
        cases event with
        | writeError =>
            intro s hsession id hid
            -- the event takes place, and the connection has ended behind it
            have hstep : ∃ m', m.step (.session i .writeError) = some m' := by
              rw [hsplit, Network.run, Execution.follow_append hfirst] at hrun
              rcases Execution.follow_cons hrun with ⟨m', hstep, -⟩
              exact ⟨m', hstep⟩
            rcases hstep with ⟨m', hstep⟩
            have hrun' : Network.initial.run (first ++ [.session i .writeError]) = some m' := by
              rw [Network.run, Execution.follow_append hfirst, Execution.follow, hstep]
              rfl
            have htorn := hall _ second m' (by rw [hsplit]; simp) hrun'
            simp only [Network.step] at hstep
            rw [hsession] at hstep
            rcases Option.map_eq_some_iff.mp hstep with ⟨⟨s', shared'⟩, hone, rfl⟩
            simp only [Session.step, Option.ite_none_left_eq_some, Option.some.injEq] at hone
            cases hone.2
            have hlt := (List.getElem?_eq_some_iff.mp hsession).1
            exact (htorn _ (List.mem_set hlt _)).2 (Nat.succ_ne_zero _) id hid
        | _ => trivial

/-- A request of the first connection, its answer, and the write of the answer. -/
def exchange (data : Bytes) (request : Nat) : List NetworkEvent :=
  [.session 0 (.read data), .session 0 (.answer request), .session 0 .written]

/-- A replica connects and sends its handshake; the last response is being written. -/
def replicaConnects : List NetworkEvent :=
  .start :: .count ::
    (exchange (ascii "*1\r\n$4\r\nPING\r\n") 0 ++
      exchange (ascii "*1\r\n$8\r\nREPLCONF\r\n") 1 ++
      exchange (ascii "*1\r\n$8\r\nREPLCONF\r\n") 2 ++
      [.session 0 (.read (ascii "*3\r\n$5\r\nPSYNC\r\n$1\r\n?\r\n$2\r\n-1\r\n")),
        .session 0 (.answer 3)])

/-- A replica that closes its connection behind the response is removed. -/
theorem teardown_complete_eof :
    ∃ n, Network.initial.run (replicaConnects ++ [.session 0 .written, .session 0 .eof]) = some n ∧
      n.TornDown ∧ 0 ≤ n.shared.connectedClients ∧ n.sessions.map Session.disconnects = [1] ∧
      n.sessions.map Session.replicaId = [some 0] := by
  have hrun : (Network.initial.run
      (replicaConnects ++ [.session 0 .written, .session 0 .eof])).map (fun n =>
        (n.sessions.map Session.disconnects, n.sessions.map Session.replicaId)) =
      some ([1], [some 0]) := by
    decide +kernel
  rcases Option.map_eq_some_iff.mp hrun with ⟨n, hn, heq⟩
  simp only [Prod.mk.injEq] at heq
  have htorn := (teardown_complete (replicaConnects ++
    [.session 0 .written, .session 0 .eof])).1 (by decide +kernel) (by decide +kernel) _ [] n
    (List.append_nil _).symm hn
  exact ⟨n, hn, htorn.1, htorn.2 (by decide +kernel), heq.1, heq.2⟩

/-- If the last response cannot be written, the replica stays registered behind the end of
its connection.  If the store thread answers a request twice, a connection ends twice, and
the counter underflows; so it does if a connection ends before it is counted. -/
theorem failed_response_keeps_replica :
    (Network.initial.run (replicaConnects ++ [.session 0 .writeError])).map (fun n =>
        (n.sessions.map Session.disconnects, n.sessions.map Session.replicaId,
          n.shared.registry.registered 0)) =
      some ([1], [some 0], true) ∧
    (Network.initial.run [.start, .count, .session 0 (.read (ascii "*1\r\n$4\r\nPING\r\n")),
        .session 0 (.answer 0), .session 0 (.answer 0), .session 0 .writeError,
        .session 0 .writeError]).map (fun n =>
        (n.sessions.map Session.disconnects, n.shared.connectedClients)) =
      some ([2], -1) ∧
    (Network.initial.run [.start, .session 0 .eof]).map (fun n => n.shared.connectedClients) =
      some (-1) := by
  decide +kernel

/-- The counter of connected clients, at every moment of every run in which no request is answered
twice and no response to a registered replica fails: it is the number of connections that have
not ended, less the one that is started and not yet counted; and as long as some request has not
been answered, as when {lit}`INFO` reads it, it has not wrapped around. -/
theorem connected_clients_never_wraps {events : List NetworkEvent} {n : Network}
    (honce : Execution.Along Network.step Network.AnswersOnce .initial events)
    (hfails : Execution.Along Network.step Network.FailsUnregistered .initial events)
    (hrun : Network.initial.run events = some n) :
    n.shared.connectedClients = n.live - (if n.starting then 1 else 0) ∧
      ∀ s ∈ n.sessions, s.answered.length < s.handed → 0 ≤ n.shared.connectedClients := by
  have hsound := Execution.follow_invariant Network.Sound.step Network.sound_initial
    (honce.and hfails) hrun
  refine ⟨hsound.clients_eq, fun s hs hpending => ?_⟩
  have hflight := (hsound.sessions s hs).flight
  have hpos : 0 < n.live := by
    refine List.countP_pos_iff.mpr ⟨s, hs, ?_⟩
    simp only [decide_eq_true_eq]
    omega
  rw [hsound.clients_eq]
  split <;> omega

/-- A connection ends before it is counted; the command of another one is being executed. -/
theorem connected_clients_never_wraps_early_end :
    ∃ n, Network.initial.run [.start, .count,
        .session 0 (.read (ascii "*1\r\n$4\r\nINFO\r\n")), .start, .session 1 .eof] = some n ∧
      n.shared.connectedClients = 0 ∧ n.live = 1 ∧
      n.shared.connectedClients = n.live - (if n.starting then 1 else 0) := by
  have hcounts : (Network.initial.run [.start, .count,
      .session 0 (.read (ascii "*1\r\n$4\r\nINFO\r\n")), .start, .session 1 .eof]).map
        (fun n => (n.shared.connectedClients, n.live)) = some (0, 1) := by
    decide +kernel
  rcases Option.map_eq_some_iff.mp hcounts with ⟨n, hn, heq⟩
  simp only [Prod.mk.injEq] at heq
  exact ⟨n, hn, heq.1, heq.2,
    (connected_clients_never_wraps (by decide +kernel) (by decide +kernel) hn).1⟩

end RedisClone
