import RedisClone.Server.Discipline

/-!
# Automatic stream identifiers on a replica

{lit}`XADD` with a star takes the milliseconds of the identifier from the system
clock.  The dispatcher propagates the request as the client sent it, so a replica
takes them from its own clock when it handles the frame.

Main results:

- Theorem {lit}`auto_id_agrees`: the replica appends the identifier that the
  master returned exactly if both clocks show the same millisecond.
- Theorem {lit}`auto_id_diverges`: readings one millisecond apart.
-/

namespace RedisClone

open RespValue StreamUtils

/-! ## The identifier for a star -/

/-- The milliseconds are those of the clock. -/
theorem validatedId_star {lastId : Bytes} {now : Int} {pair : Int × Int}
    (h : validatedId (ascii "*") lastId now = .ok pair) : pair.1 = toMilliseconds now := by
  have hparts : parseStreamId (ascii "*") now = .ok ⟨toMilliseconds now, 0, true⟩ := rfl
  unfold validatedId at h
  cases hlast : parseLastId lastId with
  | error e => simp [hparts, hlast, bind, Except.bind] at h
  | ok lastIdParts =>
      simp only [hparts, hlast, bind, Except.bind] at h
      split at h
      · contradiction
      · cases h
        rfl

/-- Readings of the same millisecond give the same identifier. -/
theorem validatedId_star_congr {lastId : Bytes} {now now' : Int}
    (h : toMilliseconds now = toMilliseconds now') :
    validatedId (ascii "*") lastId now = validatedId (ascii "*") lastId now' := by
  have hparts : parseStreamId (ascii "*") now = parseStreamId (ascii "*") now' := by
    unfold parseStreamId
    rw [if_pos rfl, if_pos rfl, h]
  unfold validatedId
  rw [hparts]

/-- If the last identifier can be read, a star is accepted or rejected. -/
theorem generateStreamId_star_error {lastId : Bytes} {now : Int} {lastIdParts : LastIdParts}
    (hlast : parseLastId lastId = .ok lastIdParts) {e : Exception}
    (h : generateStreamId (ascii "*") lastId now = .error e) : ∃ what, e = .invalidArgument what := by
  have hparts : parseStreamId (ascii "*") now = .ok ⟨toMilliseconds now, 0, true⟩ := rfl
  unfold generateStreamId at h
  simp only [hparts, hlast, bind, Except.bind] at h
  split at h
  · rename_i hvalid
    cases h
    unfold validateId at hvalid
    split at hvalid
    · cases hvalid
      exact ⟨_, rfl⟩
    · split at hvalid <;> cases hvalid
      exact ⟨_, rfl⟩
  · contradiction

/-! ## Master and replica -/

/-- {lit}`XADD key *` succeeds on a table at a clock reading, with this identifier
for the new entry. -/
structure AddsAuto (cmd : Command) (now : Reading) (d : Store) (id : Bytes) : Prop where
  type_eq : cmd.type = .xadd
  enough : 4 ≤ cmd.args.length
  even : (cmd.args.length - 2) % 2 = 0
  star : cmd.arg 1 = ascii "*"
  accepted : (d.xadd (cmd.arg 0) (cmd.arg 1) (pairs (cmd.args.drop 2)) now.system).2 = .ok (.ok id)

namespace AddsAuto

variable {cmd : Command} {now : Reading} {d : Store} {id : Bytes}

/-- The client is told the identifier. -/
theorem reply (h : AddsAuto cmd now d id) :
    (xaddExecute cmd now d).2 =
      .ok (.answer ⟨some (cmd.arg 0), some (.xread (cmd.arg 0)), false, bulkReply id⟩) := by
  have haccepted := h.accepted
  unfold xaddExecute
  rw [if_neg (by have := h.enough; have := h.even; omega)]
  rcases hadd : d.xadd (cmd.arg 0) (cmd.arg 1) (pairs (cmd.args.drop 2)) now.system with ⟨d', result⟩
  rw [hadd] at haccepted
  simp only at haccepted
  rw [haccepted]

/-- The key holds a stream or nothing, and the identifier is a validated pair. -/
theorem validated (h : AddsAuto cmd now d id) :
    d.holdsOther (cmd.arg 0) = false ∧ ∃ pair,
      validatedId (ascii "*") (Store.lastId (d.entries (cmd.arg 0))) now.system = .ok pair ∧
        id = renderId pair.1 pair.2 := by
  have haccepted := h.accepted
  rw [h.star] at haccepted
  unfold Store.xadd at haccepted
  split at haccepted
  · cases haccepted
  · rename_i hother
    refine ⟨by simpa using hother, ?_⟩
    simp only [generateStreamId_eq] at haccepted
    have hentries : Store.streamSlot (d.slot (cmd.arg 0)) = d.entries (cmd.arg 0) := rfl
    rw [hentries] at haccepted
    cases hvalid : validatedId (ascii "*") (Store.lastId (d.entries (cmd.arg 0))) now.system with
    | ok pair =>
        simp only [hvalid, Except.map, Except.ok.injEq] at haccepted
        exact ⟨pair, rfl, haccepted.symm⟩
    | error e => cases e <;> simp [hvalid, Except.map] at haccepted

end AddsAuto

/-- A frame with {lit}`XADD key *` on a table where the last identifier can be read:
the command does not throw, and the entry is appended if its identifier is
accepted. -/
theorem xaddExecute_star {cmd : Command} (henough : 4 ≤ cmd.args.length)
    (heven : (cmd.args.length - 2) % 2 = 0) (hstar : cmd.arg 1 = ascii "*") {d : Store}
    (hkey : d.holdsOther (cmd.arg 0) = false) {lastIdParts : LastIdParts}
    (hlast : parseLastId (Store.lastId (d.entries (cmd.arg 0))) = .ok lastIdParts)
    (now : Reading) :
    ∃ d' outcome, xaddExecute cmd now d = (d', .ok outcome) ∧
      d'.entries (cmd.arg 0) = d.entries (cmd.arg 0) ++
        match validatedId (ascii "*") (Store.lastId (d.entries (cmd.arg 0))) now.system with
        | .ok pair => [⟨renderId pair.1 pair.2, pairs (cmd.args.drop 2)⟩]
        | .error _ => [] := by
  have hentries := (entries_xadd hkey (ascii "*") (pairs (cmd.args.drop 2)) now.system).2
  unfold xaddExecute
  rw [if_neg (by omega), hstar]
  rcases hadd : d.xadd (cmd.arg 0) (ascii "*") (pairs (cmd.args.drop 2)) now.system with ⟨d', result⟩
  rw [hadd] at hentries
  cases result with
  | ok result =>
      cases result with
      | ok id => exact ⟨d', _, rfl, hentries⟩
      | error error => exact ⟨d', _, rfl, hentries⟩
  | error e =>
      -- only an identifier that cannot be read makes the command throw
      exfalso
      unfold Store.xadd at hadd
      rw [if_neg (by simp [hkey])] at hadd
      simp only at hadd
      split at hadd
      · cases hadd
      · cases hadd
      · rename_i e' hinvalid herror
        rcases generateStreamId_star_error hlast herror with ⟨what, rfl⟩
        exact hinvalid what rfl

/-- What a replica that is idle does with a frame of a command on the keyspace. -/
theorem session_executes {env : Env} {t : StoreThread} (hidle : t.Idle)
    (hactive : (t.server.transactions .session).inTransaction = false) {request : Request}
    (hformat : request.value.type = .array) {cmd : Command}
    (hparse : parseCommand request.value = .ok cmd)
    {body : Command → Reading → Store → CommandResult} (hbody : dataCommand cmd.type = some body)
    {d : Store} {outcome : Outcome}
    (hresult : body cmd (env.reading t.server.readings) t.server.data = (d, .ok outcome)) :
    ∃ t', StoreThread.run env t [.request .session request, .tick, .tick] = some t' ∧
      t'.server.data = d := by
  have hnonempty : request.value.elements ≠ [] := by
    intro hnil
    unfold parseCommand at hparse
    rw [hnil] at hparse
    contradiction
  have htype : Server.isTransactionCommand cmd.type = false ∧ findCommand .client cmd.type = true := by
    cases hcmd : cmd.type <;> rw [hcmd] at hbody <;> simp [dataCommand] at hbody <;> decide
  have hhandle : (t.server.countRequest).act env (.handle .session request.value t.server.requests) =
      ((t.server.countRequest).record (.handled t.server.requests .session request.value),
        .ok [.execute .session request.value cmd .discard]) := by
    simp [Server.act, Server.handle, hformat, hnonempty, hparse, Server.dispatch, htype, hactive,
      HandlerId.kind, Server.directReply, HandlerId.hasReplicaRegistry, HandlerId.onReply]
  have hexecute := @act_execute_data env
    (t.server.countRequest.record (.handled t.server.requests .session request.value)) .session
    request.value cmd .discard body hbody d outcome hresult
  generalize hsettled : (((t.server.countRequest.record (.handled t.server.requests .session
    request.value)).withData d).record (.executed .session cmd.type request.value)).settle .discard
      outcome = settled at hexecute
  refine ⟨⟨settled.1, settled.2⟩, ?_, ?_⟩
  · simp only [StoreThread.run, Execution.follow, StoreThread.step, show t.stack = [] from hidle,
      if_true, Option.bind_some, storeMachine, CallStack.Machine.step, hhandle, List.append_nil,
      Option.map_some, hexecute]
  · rw [← hsettled, settle_data]
    rfl

/-- The replica appends the identifier that the master returned to its client
exactly if its clock shows the same millisecond: for every {lit}`XADD` with a star
that succeeds on the master, every replica that holds the same stream, and every
pair of clock readings. -/
theorem auto_id_agrees {env env' : Env} {s : Server} {t : StoreThread} {cmd : Command} {id : Bytes}
    (hmaster : AddsAuto cmd (env.reading s.readings) s.data id) {request : Request}
    (hformat : request.value.type = .array) (hparse : parseCommand request.value = .ok cmd)
    (hidle : t.Idle) (hactive : (t.server.transactions .session).inTransaction = false)
    (hstream : t.server.data (cmd.arg 0) = s.data (cmd.arg 0)) :
    parse (serialize request.value) = .ok (some (request.value, (serialize request.value).length)) ∧
      ∃ t', StoreThread.run env' t [.request .session request, .tick, .tick] = some t' ∧
        (t'.server.data.entries (cmd.arg 0) =
            t.server.data.entries (cmd.arg 0) ++ [⟨id, pairs (cmd.args.drop 2)⟩] ↔
          toMilliseconds (env'.reading t.server.readings).system =
            toMilliseconds (env.reading s.readings).system) := by
  have hframe := parse_serialize request.wellFormed []
  rw [List.append_nil] at hframe
  refine ⟨hframe, ?_⟩
  rcases hmaster.validated with ⟨hother, pair, hvalid, rfl⟩
  have hentries : t.server.data.entries (cmd.arg 0) = s.data.entries (cmd.arg 0) := by
    simp only [Store.entries, Store.slot, hstream]
  have hother' : t.server.data.holdsOther (cmd.arg 0) = false := by
    rw [← hother]
    simp only [Store.holdsOther, hstream]
  have hlast : ∃ lastIdParts,
      parseLastId (Store.lastId (t.server.data.entries (cmd.arg 0))) = .ok lastIdParts := by
    rw [hentries]
    unfold validatedId at hvalid
    cases hid : parseStreamId (ascii "*") (env.reading s.readings).system with
    | error e =>
        rw [hid] at hvalid
        contradiction
    | ok idParts =>
        cases hlast : parseLastId (Store.lastId (s.data.entries (cmd.arg 0))) with
        | error e => simp [hid, hlast, bind, Except.bind] at hvalid
        | ok lastIdParts => exact ⟨lastIdParts, rfl⟩
  rcases hlast with ⟨lastIdParts, hlast⟩
  rcases xaddExecute_star hmaster.enough hmaster.even hmaster.star hother' hlast
    (env'.reading t.server.readings) with ⟨d', outcome, hresult, happended⟩
  rcases session_executes hidle hactive hformat hparse
    (show dataCommand cmd.type = some xaddExecute by rw [hmaster.type_eq]; rfl) hresult with
    ⟨t', hrun, hdata⟩
  refine ⟨t', hrun, ?_⟩
  rw [hdata, happended, List.append_cancel_left_eq, hentries]
  constructor
  · intro hsame
    cases hreplica : validatedId (ascii "*") (Store.lastId (s.data.entries (cmd.arg 0)))
        (env'.reading t.server.readings).system with
    | error e => simp [hreplica] at hsame
    | ok pair' =>
        simp only [hreplica, List.cons.injEq, StreamEntry.mk.injEq, and_true] at hsame
        rw [← validatedId_star hreplica, ← validatedId_star hvalid]
        exact (Decimal.renderInt_append_sep_inj hsame).1
  · intro hclock
    rw [validatedId_star_congr hclock, hvalid]

/-- {lit}`XADD s * f v`. -/
def autoRequest : Request :=
  .short (ascii "XADD") [ascii "s", ascii "*", ascii "f", ascii "v"] (Eq.refl true)

/-- The command in it. -/
def autoCommand : Command :=
  ⟨.xadd, ascii "XADD", [ascii "s", ascii "*", ascii "f", ascii "v"]⟩

/-- The environment of a server whose system clock stands still at a reading. -/
def clockAt (system : Int) : Env :=
  { sampleEnv with reading := fun _ => ⟨0, system⟩ }

/-- Two readings in the same millisecond. -/
theorem auto_id_agrees_same :
    ∃ t', StoreThread.run (clockAt 5999999) (.withReplicas .empty)
        [.request .session autoRequest, .tick, .tick] = some t' ∧
      t'.server.data.entries (ascii "s") = [⟨ascii "5-0", [(ascii "f", ascii "v")]⟩] := by
  have hmaster : AddsAuto autoCommand ((clockAt 5000000).reading Server.initial.readings)
      Server.initial.data (ascii "5-0") :=
    ⟨by decide, by decide, by decide, by decide, by decide +kernel⟩
  rcases (@auto_id_agrees (clockAt 5000000) (clockAt 5999999) Server.initial (.withReplicas .empty)
    autoCommand (ascii "5-0") hmaster autoRequest (by decide) (by decide +kernel) rfl (by decide)
    rfl).2 with ⟨t', hrun, hsame⟩
  exact ⟨t', hrun, hsame.mpr (by decide +kernel)⟩

/-- A replica whose clock is one millisecond ahead stores another identifier. -/
theorem auto_id_diverges :
    AddsAuto autoCommand ((clockAt 5000000).reading 0) Store.empty (ascii "5-0") ∧
      (StoreThread.run (clockAt 6000000) (.withReplicas .empty)
        [.request .session autoRequest, .tick, .tick]).map
          (fun t' => t'.server.data.entries (ascii "s")) =
        some [⟨ascii "6-0", [(ascii "f", ascii "v")]⟩] :=
  ⟨⟨by decide, by decide, by decide, by decide, by decide +kernel⟩, by decide +kernel⟩

end RedisClone
