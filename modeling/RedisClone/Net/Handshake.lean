import RedisClone.Net.Connection

/-!
# The replication handshake

A connection becomes a replica by {lit}`PING`, two {lit}`REPLCONF` and {lit}`PSYNC`;
any other command makes it a client.  The state of the handshake is split over the mode,
the handshake state and a counter that a further {lit}`PING` does not reset.

Main results:

- Theorem {lit}`mode_final`: a connection that has become a client or a replica stays
  one.
- Theorem {lit}`handshake_of_replication`: what a connection that becomes a replica was
  sent before.
- Theorem {lit}`count_register_le_one`: a connection is registered at most once.
-/

namespace RedisClone

/-! ## Requests of one connection -/

/-- The command of a request, if its format is right. -/
def commandOf (request : RespValue) : Option Command :=
  if request.type ≠ .array ∨ request.elements = [] then none
  else (parseCommand request).toOption

/-- The commands among the requests. -/
def commandTypes (requests : List RespValue) : List CommandType :=
  requests.filterMap fun request => (commandOf request).map Command.type

/-- The requests of a connection, one after the other. -/
def Connection.requests (c : Connection) : List RespValue → Connection × List Action
  | [] => (c, [])
  | request :: requests =>
      let first := onRequest c request
      let later := first.1.requests requests
      (later.1, first.2 ++ later.2)

/-- What a request does, by its command. -/
theorem onRequest_eq (c : Connection) (request : RespValue) :
    onRequest c request =
      match commandOf request with
      | none => (c, [.respond (ascii "-ERR invalid command format\r\n")])
      | some cmd => onCommand c request cmd := by
  unfold onRequest commandOf
  split
  · rfl
  · rename_i hformat
    rw [not_or] at hformat
    cases helements : request.elements with
    | nil => exact absurd helements hformat.2
    | cons name args => simp [parseCommand, helements, Except.toOption]

/-- One request after others. -/
theorem requests_append (c : Connection) (first second : List RespValue) :
    c.requests (first ++ second) =
      (((c.requests first).1.requests second).1,
        (c.requests first).2 ++ ((c.requests first).1.requests second).2) := by
  induction first generalizing c with
  | nil => rfl
  | cons request requests ih =>
      simp only [List.cons_append, Connection.requests, ih, List.append_assoc]

/-- The connection behind one more request. -/
theorem requests_concat (c : Connection) (requests : List RespValue) (request : RespValue) :
    (c.requests (requests ++ [request])).1 = (onRequest (c.requests requests).1 request).1 := by
  rw [requests_append]
  rfl

/-! ## One request -/

/-- The handshake does not concern the mode of a connection that has one. -/
theorem mode_onCommand {c : Connection} (hmode : c.mode ≠ .unknown) (request : RespValue)
    (cmd : Command) : (onCommand c request cmd).1 = c := by
  have herror : handshakeError c cmd.type = none := if_neg hmode
  have hsame : advanceHandshake c cmd.type = c := if_neg hmode
  unfold onCommand
  rw [herror]
  simp only [hsame]
  split <;> rfl

theorem onRequest_of_mode {c : Connection} (hmode : c.mode ≠ .unknown) (request : RespValue) :
    (onRequest c request).1 = c := by
  rw [onRequest_eq]
  split
  · rfl
  · exact mode_onCommand hmode request _

/-- A connection that has become a client or a replica stays one. -/
theorem mode_final {c : Connection} (hmode : c.mode ≠ .unknown) (requests : List RespValue) :
    (c.requests requests).1 = c := by
  induction requests with
  | nil => rfl
  | cons request requests ih =>
      simp only [Connection.requests, onRequest_of_mode hmode]
      exact ih

/-- A command that the handshake does not refuse, sent to a connection without a mode. -/
theorem fst_onCommand {c : Connection} {request : RespValue} {cmd : Command}
    (h : handshakeError c cmd.type = none) :
    (onCommand c request cmd).1 = advanceHandshake c cmd.type := by
  unfold onCommand
  rw [h]
  simp only
  split <;> rfl

/-- A command that the handshake refuses. -/
theorem onCommand_of_error {c : Connection} {request : RespValue} {cmd : Command} {response : Bytes}
    (h : handshakeError c cmd.type = some response) :
    onCommand c request cmd = (c, [.respond response]) := by
  unfold onCommand
  rw [h]

/-- A connection becomes a replica at a {lit}`PSYNC` behind the second {lit}`REPLCONF`. -/
theorem replication_of_onCommand {c : Connection} (hmode : c.mode ≠ .replication)
    {request : RespValue} {cmd : Command}
    (h : (onCommand c request cmd).1.mode = .replication) :
    c.mode = .unknown ∧ cmd.type = .psync ∧ c.replState = .replconf2 := by
  have hunknown : c.mode = .unknown := by
    by_contra hne
    rw [mode_onCommand hne] at h
    exact hmode h
  cases herror : handshakeError c cmd.type with
  | some response =>
      rw [onCommand_of_error herror] at h
      exact absurd h hmode
  | none =>
      rw [fst_onCommand herror] at h
      simp only [advanceHandshake, hunknown, if_true] at h
      have htype : cmd.type = .psync := by
        by_contra hne
        split at h <;> simp_all
      refine ⟨hunknown, htype, ?_⟩
      by_contra hstate
      simp [handshakeError, hunknown, htype, hstate] at herror

/-! ## What was sent before -/

/-- What a connection without a mode was sent: only commands of the handshake, and as
many of them as its state says. -/
structure Handshaking (c : Connection) (types : List CommandType) : Prop where
  only : ∀ type ∈ types, type = .ping ∨ type = .replconf ∨ type = .psync
  pinged : c.replState ≠ .none → [CommandType.ping].Sublist types
  once : 1 ≤ c.replconfCount → [CommandType.ping, .replconf].Sublist types
  twice : 2 ≤ c.replconfCount → [CommandType.ping, .replconf, .replconf].Sublist types
  complete : c.replState = .replconf2 → 2 ≤ c.replconfCount

/-- The handshake of a connection that has no mode yet. -/
theorem handshaking_step {c : Connection} {types : List CommandType} {request : RespValue}
    {cmd : Command} (hc : Handshaking c types) (hmode : c.mode = .unknown)
    (hlater : (onCommand c request cmd).1.mode = .unknown) :
    Handshaking (onCommand c request cmd).1 (types ++ [cmd.type]) := by
  have hgrow : ∀ {part : List CommandType}, part.Sublist types → part.Sublist (types ++ [cmd.type]) :=
    fun hpart => hpart.trans (List.sublist_append_left _ _)
  have hkept : cmd.type = .ping ∨ cmd.type = .replconf ∨ cmd.type = .psync →
      Handshaking c (types ++ [cmd.type]) := by
    intro htype
    refine ⟨fun type hmem => ?_, fun h => hgrow (hc.pinged h), fun h => hgrow (hc.once h),
      fun h => hgrow (hc.twice h), hc.complete⟩
    rcases List.mem_append.mp hmem with hmem | hmem
    · exact hc.only type hmem
    · rw [List.mem_singleton.mp hmem]
      exact htype
  cases herror : handshakeError c cmd.type with
  | some response =>
      rw [onCommand_of_error herror]
      refine hkept ?_
      simp only [handshakeError, hmode, if_true] at herror
      split at herror
      · rename_i h
        exact Or.inr (Or.inl h.1)
      · split at herror
        · rename_i h
          exact Or.inr (Or.inr h.1)
        · contradiction
  | none =>
      rw [fst_onCommand herror] at hlater ⊢
      simp only [advanceHandshake, hmode, if_true] at hlater ⊢
      split at hlater
      · rename_i htype
        have hbase := hkept (Or.inl htype)
        refine ⟨hbase.only, fun _ => ?_, hbase.once, hbase.twice, by simp⟩
        rw [htype]
        exact List.sublist_append_right _ _
      · rename_i htype
        have hbase := hkept (Or.inr (Or.inl htype))
        have hstate : c.replState ≠ .none := by
          intro hnone
          simp [handshakeError, hmode, htype, hnone] at herror
        refine ⟨hbase.only, fun _ => hbase.pinged hstate, fun _ => ?_, fun htwice => ?_, ?_⟩
        · rw [htype]
          exact (hc.pinged hstate).append (List.Sublist.refl [CommandType.replconf])
        · rw [htype]
          exact (hc.once (by simpa using htwice)).append (List.Sublist.refl [CommandType.replconf])
        · simp only
          split
          · intro _
            assumption
          · simp
      · simp at hlater
      · simp at hlater

/-- A connection without a mode was sent what its state says. -/
theorem handshaking_requests {requests : List RespValue}
    (hmode : (Connection.initial.requests requests).1.mode = .unknown) :
    Handshaking (Connection.initial.requests requests).1 (commandTypes requests) := by
  induction requests using List.reverseRecOn with
  | nil => exact ⟨by simp [commandTypes], by simp [Connection.requests, Connection.initial],
      by simp [Connection.requests, Connection.initial],
      by simp [Connection.requests, Connection.initial],
      by simp [Connection.requests, Connection.initial]⟩
  | append_singleton requests request ih =>
      rw [requests_concat] at hmode ⊢
      have hbefore : (Connection.initial.requests requests).1.mode = .unknown := by
        by_contra hne
        rw [onRequest_of_mode hne] at hmode
        exact hne hmode
      have hold := ih hbefore
      have htypes : commandTypes (requests ++ [request]) =
          commandTypes requests ++ ((commandOf request).map Command.type).toList := by
        unfold commandTypes
        rw [List.filterMap_append]
        cases hcommand : (commandOf request).map Command.type <;> simp [hcommand]
      rw [htypes]
      rw [onRequest_eq] at hmode ⊢
      cases hcommand : commandOf request with
      | none => simpa [hcommand] using hold
      | some cmd =>
          rw [hcommand] at hmode
          simp only [Option.map_some, Option.toList_some]
          exact handshaking_step hold hbefore hmode

/-- What a connection that becomes a replica was sent before. -/
theorem handshake_of_replication {requests : List RespValue} {request : RespValue}
    (hbefore : (Connection.initial.requests requests).1.mode ≠ .replication)
    (h : (Connection.initial.requests (requests ++ [request])).1.mode = .replication) :
    (commandOf request).map Command.type = some .psync ∧
      [CommandType.ping, .replconf, .replconf].Sublist (commandTypes requests) ∧
      (∀ type ∈ commandTypes requests, type = .ping ∨ type = .replconf ∨ type = .psync) ∧
      (Connection.initial.requests requests).1.mode = .unknown := by
  rw [requests_concat, onRequest_eq] at h
  cases hcommand : commandOf request with
  | none =>
      rw [hcommand] at h
      exact absurd h hbefore
  | some cmd =>
      rw [hcommand] at h
      rcases replication_of_onCommand hbefore h with ⟨hmode, htype, hstate⟩
      have hsent := handshaking_requests hmode
      exact ⟨by rw [Option.map_some, htype], hsent.twice (hsent.complete hstate), hsent.only, hmode⟩

/-! ## Registration -/

/-- An acknowledgement is recorded, and that is all. -/
theorem mem_ackActions {cmd : Command} {action : Action} (h : action ∈ ackActions cmd) :
    ∃ offset, action = .recordAck offset := by
  unfold ackActions at h
  split at h
  · split at h
    · exact ⟨_, List.mem_singleton.mp h⟩
    · contradiction
  · contradiction

/-- A command registers the connection if it is a {lit}`PSYNC` that the handshake does not
refuse, and once. -/
theorem count_register_onCommand (c : Connection) (request : RespValue) (cmd : Command) :
    (onCommand c request cmd).2.count .register =
      if handshakeError c cmd.type = none ∧ registers c cmd.type = true then 1 else 0 := by
  have hack : (ackActions cmd).count .register = 0 := by
    refine List.count_eq_zero.mpr fun hmem => ?_
    rcases mem_ackActions hmem with ⟨offset, heq⟩
    contradiction
  unfold onCommand
  cases herror : handshakeError c cmd.type with
  | some response => simp
  | none =>
      simp only
      split <;> by_cases hreg : registers c cmd.type = true <;> simp [hreg, hack]

/-- A connection that has a mode is not registered any more. -/
theorem count_register_of_mode {c : Connection} (hmode : c.mode ≠ .unknown) (request : RespValue) :
    (onRequest c request).2.count .register = 0 := by
  rw [onRequest_eq]
  cases commandOf request with
  | none => simp
  | some cmd =>
      simp only
      rw [count_register_onCommand, if_neg]
      rintro ⟨-, hreg⟩
      simp [registers, hmode] at hreg

/-- One request registers the connection at most once, and then it has a mode. -/
theorem count_register_onRequest (c : Connection) (request : RespValue) :
    (onRequest c request).2.count .register = 0 ∨
      ((onRequest c request).2.count .register = 1 ∧ (onRequest c request).1.mode = .replication) := by
  rw [onRequest_eq]
  cases commandOf request with
  | none => simp
  | some cmd =>
      simp only
      rw [count_register_onCommand]
      split
      · rename_i h
        refine Or.inr ⟨rfl, ?_⟩
        have hreg := h.2
        simp only [registers, Bool.and_eq_true, decide_eq_true_eq] at hreg
        rw [fst_onCommand h.1]
        simp [advanceHandshake, hreg.1.1, hreg.1.2]
      · exact Or.inl rfl

/-- A connection is registered at most once. -/
theorem count_register_le_one (c : Connection) (requests : List RespValue) :
    (c.requests requests).2.count .register ≤ 1 ∧
      (c.mode ≠ .unknown → (c.requests requests).2.count .register = 0) := by
  induction requests generalizing c with
  | nil => simp [Connection.requests]
  | cons request requests ih =>
      simp only [Connection.requests, List.count_append]
      rcases ih (onRequest c request).1 with ⟨hle, hnone⟩
      constructor
      · rcases count_register_onRequest c request with hzero | ⟨hone, hmode⟩
        · omega
        · have hlater := hnone (by rw [hmode]; simp)
          omega
      · intro hmode
        rw [count_register_of_mode hmode, hnone (by rwa [onRequest_of_mode hmode])]

/-- The requests of a replica are handed to the replication handler only. -/
theorem handler_of_replication {c : Connection} (hmode : c.mode = .replication) {request : RespValue}
    {kind : RegistryKind} {handled : RespValue} (h : .handle kind handled ∈ (onRequest c request).2) :
    kind = .replication := by
  have hne : c.mode ≠ .unknown := by
    rw [hmode]
    simp
  rw [onRequest_eq] at h
  cases hcommand : commandOf request with
  | none => simp [hcommand] at h
  | some cmd =>
      have herror : handshakeError c cmd.type = none := if_neg hne
      have hsame : advanceHandshake c cmd.type = c := if_neg hne
      have hreg : registers c cmd.type = false := by simp [registers, hne]
      simp only [hcommand, onCommand, herror, hsame, hreg, Bool.false_eq_true, if_false,
        List.nil_append] at h
      split at h
      · rcases mem_ackActions h with ⟨offset, heq⟩
        contradiction
      · simp only [List.mem_singleton, Action.handle.injEq] at h
        rw [h.1]
        exact if_pos (Or.inl hmode)

end RedisClone
