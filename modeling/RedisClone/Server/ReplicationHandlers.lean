import RedisClone.Net.Handshake
import RedisClone.Server.Callbacks

/-!
# The replication handlers

The replication handler of a connection knows {lit}`PING`, {lit}`REPLCONF` and
{lit}`PSYNC` only, so a replica's requests cannot reach the keyspace.  {lit}`PSYNC` is
checked there, behind the connection, which has registered the replica by then.

Main results:

- Theorem {lit}`storeless_run`: the handling of a request by a replication handler
  neither reads nor changes the keyspace.
- Theorem {lit}`handshake_not_bypassed`: how a connection becomes a replica, and what
  follows.
- Theorem {lit}`psync_registers_iff`: when a {lit}`PSYNC` that is not answered with
  {lit}`FULLRESYNC` leaves the connection alone.
-/

namespace RedisClone

open RespValue

variable {env : Env}

/-! ## The keyspace -/

/-- The task belongs to a request for a replication handler. -/
def Task.Storeless : Task → Prop
  | .handle h _ _ => h.kind = .replication
  | .execute h _ cmd onReply =>
      (cmd.type = .ping ∨ cmd.type = .replconf ∨ cmd.type = .psync) ∧
        ∃ number, onReply = h.onReply number
  | .reply onReply _ => ∃ h number, onReply = HandlerId.onReply h number
  | _ => False

/-- What a task does if the keyspace is another one: the same, and it leaves the keyspace
alone. -/
structure Oblivious (env : Env) (s : Server) (task : Task) : Prop where
  same : ∀ d, (s.setData d).act env task = ((s.act env task).1.setData d, (s.act env task).2)
  unchanged : (s.act env task).1.data = s.data
  calls : ∃ new, (s.act env task).2 = .ok new ∧ ∀ task' ∈ new, task'.Storeless

/-- The commands of the replication registry. -/
theorem type_of_findCommand {type : CommandType} (h : findCommand .replication type = true) :
    type = .ping ∨ type = .replconf ∨ type = .psync := by
  simpa [findCommand] using h

/-- The replication handler replies, or executes one of its commands. -/
theorem oblivious_handle {h : HandlerId} (hkind : h.kind = .replication) (s : Server)
    (request : RespValue) (number : Nat) : Oblivious env s (.handle h request number) := by
  refine ⟨fun d => ?_, ?_, ?_⟩
  · show (s.setData d).handle h request number =
      ((s.handle h request number).1.setData d, (s.handle h request number).2)
    unfold Server.handle
    split
    · rfl
    · cases parseCommand request with
      | error e => rfl
      | ok cmd =>
          simp only [Server.dispatch, Server.record_transactions, Server.setData_transactions]
          split_ifs <;> rfl
  · rcases hact : s.act env (.handle h request number) with ⟨s', r⟩
    cases acts_of_act hact <;> rfl
  · rcases hact : s.act env (.handle h request number) with ⟨s', r⟩
    cases acts_of_act hact with
    | rejected | queued =>
        refine ⟨_, rfl, fun task' hmem => ?_⟩
        rw [List.mem_singleton.mp hmem]
        exact ⟨h, number, rfl⟩
    | @controls _ _ cmd _ hformat hparse htype hfind =>
        rw [hkind] at hfind
        rcases type_of_findCommand hfind with heq | heq | heq <;> rw [heq] at htype <;> cases htype
    | @dispatched _ _ cmd _ hformat hparse htype hidle hfind =>
        rw [hkind] at hfind
        have hcases := type_of_findCommand hfind
        refine ⟨_, rfl, fun task' hmem => ?_⟩
        rw [List.mem_singleton.mp hmem]
        refine ⟨hcases, number, if_neg ?_⟩
        rintro ⟨-, hwrite⟩
        rcases hcases with heq | heq | heq <;> rw [heq] at hwrite <;> cases hwrite

/-- The commands of the replication registry do not look at the keyspace. -/
theorem oblivious_execute {h : HandlerId} {cmd : Command} {onReply : OnReply} (s : Server)
    (request : RespValue) (htask : (Task.execute h request cmd onReply).Storeless) :
    Oblivious env s (.execute h request cmd onReply) := by
  rcases htask with ⟨htype, number, rfl⟩
  have hreply : ∀ response, ∀ task' ∈ [Task.reply (h.onReply number) response], task'.Storeless := by
    intro response task' hmem
    rw [List.mem_singleton.mp hmem]
    exact ⟨h, number, rfl⟩
  rcases htype with htype | htype | htype
  · have hact : ∃ response, ∀ s : Server, s.act env (.execute h request cmd (h.onReply number)) =
        ((s.withData s.data).record (.executed h cmd.type request),
          .ok [.reply (h.onReply number) response]) := by
      simp only [Server.act, Server.execute, htype, dataCommand, Server.executeData, pingExecute]
      cases cmd.args with
      | nil => exact ⟨_, fun _ => rfl⟩
      | cons msg rest => exact ⟨_, fun _ => rfl⟩
    rcases hact with ⟨response, hact⟩
    refine ⟨fun d => ?_, by rw [hact]; rfl, _, by rw [hact], hreply response⟩
    rw [hact, hact]
    rfl
  · have hact : ∀ s : Server, s.act env (.execute h request cmd (h.onReply number)) =
        (s.record (.executed h cmd.type request), .ok [.reply (h.onReply number) replconfExecute]) := by
      intro s
      simp only [Server.act, Server.execute, htype, dataCommand, Server.executeOther]
    exact ⟨fun d => by rw [hact, hact]; rfl, by rw [hact]; rfl, _, by rw [hact], hreply _⟩
  · have hact : ∀ s : Server, s.act env (.execute h request cmd (h.onReply number)) =
        (s.record (.executed h cmd.type request), .ok [.reply (h.onReply number)
          (psyncExecute env.config ((s.record (.executed h cmd.type request)).registryOf h) cmd)]) := by
      intro s
      simp only [Server.act, Server.execute, htype, dataCommand, Server.executeOther]
    exact ⟨fun d => by rw [hact, hact]; rfl, by rw [hact]; rfl, _, by rw [hact], hreply _⟩

/-- What belongs to a request for a replication handler does not look at the keyspace. -/
theorem oblivious_of_storeless {task : Task} (htask : task.Storeless) (s : Server) :
    Oblivious env s task := by
  cases task with
  | handle h request number => exact oblivious_handle htask s request number
  | execute h request cmd onReply => exact oblivious_execute s request htask
  | reply onReply response =>
      rcases htask with ⟨h, number, rfl⟩
      unfold HandlerId.onReply
      split
      · exact ⟨fun d => rfl, rfl, [], rfl, by simp⟩
      · exact ⟨fun d => rfl, rfl, [], rfl, by simp⟩
  | _ => exact htask.elim

/-- The handling of a request by a replication handler neither reads nor changes the
keyspace: with another keyspace it goes the same way. -/
theorem storeless_run {stack : List Task} (hstack : ∀ task ∈ stack, task.Storeless) (s : Server)
    (d : Store) (n : Nat) :
    ∃ s' stack', StoreThread.run env ⟨s, stack⟩ (List.replicate n .tick) = some ⟨s', stack'⟩ ∧
      StoreThread.run env ⟨s.setData d, stack⟩ (List.replicate n .tick) =
        some ⟨s'.setData d, stack'⟩ ∧
      s'.data = s.data := by
  induction n generalizing s stack with
  | zero => exact ⟨s, stack, rfl, rfl, rfl⟩
  | succ n ih =>
      cases stack with
      | nil =>
          rcases ih hstack s with ⟨s', stack', hrun, hrun', hdata⟩
          exact ⟨s', stack', hrun, hrun', hdata⟩
      | cons task rest =>
          have hone : Oblivious env s task :=
            oblivious_of_storeless (hstack task List.mem_cons_self) s
          rcases hone.calls with ⟨new, hnew, hcalled⟩
          have hact : s.act env task = ((s.act env task).1, .ok new) := by
            rw [← hnew]
          have hact' : (s.setData d).act env task = ((s.act env task).1.setData d, .ok new) := by
            rw [hone.same d, hnew]
          have hnext : ∀ task' ∈ new ++ rest, task'.Storeless := by
            intro task' hmem
            rcases List.mem_append.mp hmem with hmem | hmem
            · exact hcalled task' hmem
            · exact hstack task' (List.mem_cons_of_mem _ hmem)
          rcases ih hnext (s.act env task).1 with ⟨s', stack', hrun, hrun', hdata⟩
          refine ⟨s', stack', ?_, ?_, hdata.trans hone.unchanged⟩
          · rw [List.replicate_succ, StoreThread.run, Execution.follow, step_tick hact]
            exact hrun
          · rw [List.replicate_succ, StoreThread.run, Execution.follow, step_tick hact']
            exact hrun'

/-! ## The handshake -/

/-- A {lit}`PSYNC` to a connection that has no mode yet, and does not get one, was
refused. -/
theorem refused_of_unknown {c : Connection} {request : RespValue} {cmd : Command}
    (hcommand : commandOf request = some cmd) (htype : cmd.type = .psync) (hmode : c.mode = .unknown)
    (hlater : (onRequest c request).1.mode = .unknown) :
    (onRequest c request).2 = [.respond (ascii "-ERR replication handshake not complete\r\n")] := by
  rw [onRequest_eq, hcommand] at hlater ⊢
  simp only at hlater ⊢
  by_cases hstate : c.replState = .replconf2
  · have herror : handshakeError c cmd.type = none := by
      simp [handshakeError, hmode, htype, hstate]
    rw [fst_onCommand herror] at hlater
    simp [advanceHandshake, hmode, htype] at hlater
  · have herror : handshakeError c cmd.type =
        some (ascii "-ERR replication handshake not complete\r\n") := by
      simp [handshakeError, hmode, htype, hstate]
    rw [onCommand_of_error herror]

/-- A connection whose requests leave it without a mode had none in between. -/
theorem unknown_of_append {first second : List RespValue}
    (h : (Connection.initial.requests (first ++ second)).1.mode = .unknown) :
    (Connection.initial.requests first).1.mode = .unknown := by
  by_contra hne
  rw [requests_append] at h
  simp only [mode_final hne] at h
  exact hne h

/-- Whatever a connection sends: it becomes a replica only at a {lit}`PSYNC` behind
{lit}`PING`, {lit}`REPLCONF` and {lit}`REPLCONF`, in this order and with nothing but such
commands and refused {lit}`PSYNC` in between; it never changes its mode again; it is
registered at most once; and once it is a replica, its requests neither read nor change
the keyspace. -/
theorem handshake_not_bypassed (requests : List RespValue) :
    (∀ request, (Connection.initial.requests requests).1.mode ≠ .replication →
      (Connection.initial.requests (requests ++ [request])).1.mode = .replication →
      (commandOf request).map Command.type = some .psync ∧
        [CommandType.ping, .replconf, .replconf].Sublist (commandTypes requests) ∧
        (∀ type ∈ commandTypes requests, type = .ping ∨ type = .replconf ∨ type = .psync) ∧
        ∀ before earlier after, requests = before ++ earlier :: after →
          (commandOf earlier).map Command.type = some .psync →
          (onRequest (Connection.initial.requests before).1 earlier).2 =
            [.respond (ascii "-ERR replication handshake not complete\r\n")]) ∧
    (∀ later, (Connection.initial.requests requests).1.mode ≠ .unknown →
      (Connection.initial.requests (requests ++ later)).1.mode =
        (Connection.initial.requests requests).1.mode) ∧
    (Connection.initial.requests requests).2.count .register ≤ 1 ∧
    ((Connection.initial.requests requests).1.mode = .replication →
      ∀ request kind handled,
        .handle kind handled ∈ (onRequest (Connection.initial.requests requests).1 request).2 →
        kind = .replication ∧
        ∀ (env : Env) connection number s d n, ∃ s' stack',
          StoreThread.run env ⟨s, [.handle (.replication connection) handled number]⟩
            (List.replicate n .tick) = some ⟨s', stack'⟩ ∧
          StoreThread.run env ⟨s.setData d, [.handle (.replication connection) handled number]⟩
            (List.replicate n .tick) = some ⟨s'.setData d, stack'⟩ ∧
          s'.data = s.data) := by
  refine ⟨fun request hbefore h => ?_, fun later hmode => ?_,
    (count_register_le_one _ requests).1, fun hmode request kind handled hhandle => ?_⟩
  · rcases handshake_of_replication hbefore h with ⟨htype, hsent, honly, hunknown⟩
    refine ⟨htype, hsent, honly, fun before earlier after hsplit hpsync => ?_⟩
    rcases Option.map_eq_some_iff.mp hpsync with ⟨cmd, hcommand, hcmd⟩
    rw [hsplit] at hunknown
    have hmode := unknown_of_append hunknown
    rw [← List.singleton_append, ← List.append_assoc] at hunknown
    have hlater := unknown_of_append hunknown
    rw [requests_concat] at hlater
    exact refused_of_unknown hcommand hcmd hmode hlater
  · rw [requests_append]
    simp only [mode_final hmode]
  · refine ⟨handler_of_replication hmode hhandle, fun env connection number s d n => ?_⟩
    refine storeless_run (fun task hmem => ?_) s d n
    rw [List.mem_singleton.mp hmem]
    rfl

/-- {lit}`PING`, {lit}`REPLCONF`, {lit}`PSYNC` (refused), {lit}`PING`, {lit}`REPLCONF`. -/
def interruptedHandshake : List RespValue :=
  [.array [.bulkString (ascii "PING")], .array [.bulkString (ascii "REPLCONF")],
    .array [.bulkString (ascii "PSYNC")], .array [.bulkString (ascii "PING")],
    .array [.bulkString (ascii "REPLCONF")]]

/-- The next {lit}`PSYNC` makes the connection a replica. -/
theorem handshake_not_bypassed_interrupted :
    (Connection.initial.requests interruptedHandshake).1.mode = .unknown ∧
      (Connection.initial.requests (interruptedHandshake ++ [psyncRequest])).1.mode = .replication ∧
      [CommandType.ping, .replconf, .replconf].Sublist (commandTypes interruptedHandshake) := by
  have hbefore : (Connection.initial.requests interruptedHandshake).1.mode = .unknown := by
    decide +kernel
  have hafter : (Connection.initial.requests
      (interruptedHandshake ++ [psyncRequest])).1.mode = .replication := by
    decide +kernel
  refine ⟨hbefore, hafter, ?_⟩
  exact ((handshake_not_bypassed interruptedHandshake).1 psyncRequest (by rw [hbefore]; simp)
    hafter).2.1

/-! ## {lit}`PSYNC` -/

/-- The answer to a {lit}`PSYNC`: the connection refuses it, the replication handler runs
it, or the client handler queues it or does not know it. -/
def psyncAnswer (config : ServerConfig) (registry : Option ReplicaRegistry) (inTransaction : Bool)
    (c : Connection) (cmd : Command) : Bytes :=
  match handshakeError c cmd.type with
  | some response => response
  | none =>
      match handlerKind (advanceHandshake c cmd.type) cmd.type with
      | .replication => psyncExecute config registry cmd
      | .client => if inTransaction then ascii "+QUEUED\r\n" else Server.unknownCommand cmd

/-- The handlers give this answer: the client handler at once, and the replication handler
from {lit}`PSYNC`. -/
theorem replied_psync {request : RespValue} {cmd : Command} (hcommand : commandOf request = some cmd)
    (htype : cmd.type = .psync) (s : Server) (h : HandlerId) (number : Nat)
    (hkind : h.kind = .replication → (s.transactions h).inTransaction = false) :
    (s.handle h request number).2 = .ok [match h.kind with
      | .replication => .execute h request cmd (h.onReply number)
      | .client => .reply (h.onReply number)
          (if (s.transactions h).inTransaction then ascii "+QUEUED\r\n"
            else Server.unknownCommand cmd)] ∧
      (s.execute env h request cmd (h.onReply number)).2 =
        .ok [.reply (h.onReply number) (psyncExecute env.config (s.registryOf h) cmd)] := by
  unfold commandOf at hcommand
  split at hcommand
  · contradiction
  · rename_i hformat
    cases hparse : parseCommand request with
    | error e =>
        rw [hparse] at hcommand
        contradiction
    | ok cmd' =>
        rw [hparse] at hcommand
        cases hcommand
        constructor
        · unfold Server.handle
          rw [if_neg hformat]
          simp only [hparse, Server.dispatch, Server.isTransactionCommand, htype]
          cases hhandler : h.kind with
          | client => cases hin : (s.transactions h).inTransaction <;> simp [hin, findCommand]
          | replication =>
              simp [hkind hhandler, findCommand, Server.directReply, isWriteCommand]
        · unfold Server.execute
          simp only [htype, dataCommand, Server.executeOther]
          rfl

/-- The answer starts a full resynchronisation. -/
def isFullresync (answer : Bytes) : Bool :=
  (ascii "+FULLRESYNC ").isPrefixOf answer

/-- The connection has completed its handshake and waits for {lit}`PSYNC`. -/
def Connection.AwaitsPsync (c : Connection) : Prop :=
  c.mode = .unknown ∧ c.replState = .replconf2

/-- The master accepts the {lit}`PSYNC`. -/
def AcceptsPsync (config : ServerConfig) (cmd : Command) : Prop :=
  2 ≤ cmd.args.length ∧ config.role = .master

/-- What {lit}`PSYNC` answers with. -/
theorem isFullresync_psyncExecute (config : ServerConfig) (registry : Option ReplicaRegistry)
    (cmd : Command) :
    isFullresync (psyncExecute config registry cmd) = true ↔ AcceptsPsync config cmd := by
  unfold psyncExecute AcceptsPsync checkArgs
  by_cases hargs : cmd.args.length < 2
  · simp only [if_pos hargs]
    constructor
    · intro h
      simp [isFullresync, ascii, List.isPrefixOf] at h
    · rintro ⟨h, -⟩
      omega
  · simp only [if_neg hargs]
    cases hrole : config.role with
    | slave =>
        simp only [if_true]
        constructor
        · intro h
          exact absurd h (by decide)
        · rintro ⟨-, h⟩
          contradiction
    | master =>
        simp only [reduceCtorEq, if_false]
        constructor
        · intro _
          exact ⟨by omega, trivial⟩
        · intro _
          simp [isFullresync, ascii, List.isPrefixOf, List.append_assoc]

/-- A connection that refuses the {lit}`PSYNC` does not answer with
{lit}`FULLRESYNC`. -/
theorem not_isFullresync_refusal {c : Connection} {type : CommandType} {response : Bytes}
    (h : handshakeError c type = some response) : isFullresync response = false := by
  unfold handshakeError at h
  split at h
  · split at h
    · cases h
      decide
    · split at h
      · cases h
        decide
      · contradiction
  · contradiction

section Psync

variable {config : ServerConfig} {registry : Option ReplicaRegistry} {inTransaction : Bool}
  {c : Connection} {request : RespValue} {cmd : Command}

/-- The handshake lets a {lit}`PSYNC` through that it waits for. -/
theorem handshakeError_psync (htype : cmd.type = .psync) (hmode : c.mode = .unknown) :
    handshakeError c cmd.type = none ↔ c.replState = .replconf2 := by
  by_cases hstate : c.replState = .replconf2 <;> simp [handshakeError, hmode, htype, hstate]

/-- The answer to the {lit}`PSYNC` that completes the handshake. -/
theorem psyncAnswer_of_awaits (hc : c.AwaitsPsync) (htype : cmd.type = .psync) :
    psyncAnswer config registry inTransaction c cmd = psyncExecute config registry cmd := by
  have herror := (handshakeError_psync htype hc.1).mpr hc.2
  have hkind : handlerKind (advanceHandshake c cmd.type) cmd.type = .replication := by
    simp [handlerKind, advanceHandshake, hc.1, htype]
  unfold psyncAnswer
  rw [herror]
  simp only [hkind]

/-- A connection without a mode answers with {lit}`FULLRESYNC` only if it waits for the
{lit}`PSYNC`. -/
theorem awaits_of_isFullresync (hmode : c.mode = .unknown) (htype : cmd.type = .psync)
    (h : isFullresync (psyncAnswer config registry inTransaction c cmd) = true) :
    c.AwaitsPsync ∧ AcceptsPsync config cmd := by
  cases herror : handshakeError c cmd.type with
  | some response =>
      unfold psyncAnswer at h
      rw [herror] at h
      simp only [not_isFullresync_refusal herror] at h
      contradiction
  | none =>
      have hc : c.AwaitsPsync := ⟨hmode, (handshakeError_psync htype hmode).mp herror⟩
      rw [psyncAnswer_of_awaits hc htype, isFullresync_psyncExecute] at h
      exact ⟨hc, h⟩

/-- The {lit}`PSYNC` that completes the handshake makes the connection a replica,
whatever the answer is. -/
theorem replication_of_awaits (hc : c.AwaitsPsync) (hcommand : commandOf request = some cmd)
    (htype : cmd.type = .psync) : (onRequest c request).1.mode = .replication := by
  rw [onRequest_eq, hcommand]
  simp only
  rw [fst_onCommand ((handshakeError_psync htype hc.1).mpr hc.2)]
  simp [advanceHandshake, hc.1, htype]

/-- Another {lit}`PSYNC` leaves the connection and the registry alone. -/
theorem onRequest_of_not_awaits (hc : ¬ c.AwaitsPsync) (hcommand : commandOf request = some cmd)
    (htype : cmd.type = .psync) :
    (onRequest c request).1 = c ∧ .register ∉ (onRequest c request).2 := by
  by_cases hmode : c.mode = .unknown
  · have herror : handshakeError c cmd.type ≠ none :=
      fun hnone => hc ⟨hmode, (handshakeError_psync htype hmode).mp hnone⟩
    rcases Option.ne_none_iff_exists'.mp herror with ⟨response, hresponse⟩
    rw [onRequest_eq, hcommand]
    simp only
    rw [onCommand_of_error hresponse]
    simp
  · refine ⟨onRequest_of_mode hmode request, ?_⟩
    exact List.count_eq_zero.mp (count_register_of_mode hmode request)

end Psync

/-- If the connection is a replica or was registered, one of its {lit}`PSYNC` was answered
with {lit}`FULLRESYNC`. -/
def SyncedReplica (config : ServerConfig) (requests : List RespValue) : Prop :=
  (Connection.initial.requests requests).1.mode = .replication ∨
      .register ∈ (Connection.initial.requests requests).2 →
    ∃ before request after cmd, requests = before ++ request :: after ∧
      commandOf request = some cmd ∧ cmd.type = .psync ∧
      ∀ registry inTransaction, isFullresync (psyncAnswer config registry inTransaction
        (Connection.initial.requests before).1 cmd) = true

/-- Every {lit}`PSYNC` that completes a handshake is one that the server accepts. -/
def PsyncsAccepted (config : ServerConfig) (requests : List RespValue) : Prop :=
  ∀ before request after cmd, requests = before ++ request :: after →
    commandOf request = some cmd → cmd.type = .psync →
    (Connection.initial.requests before).1.AwaitsPsync → AcceptsPsync config cmd

/-- A connection that was registered became a replica. -/
theorem replication_of_register {requests : List RespValue}
    (h : .register ∈ (Connection.initial.requests requests).2) :
    (Connection.initial.requests requests).1.mode = .replication := by
  induction requests using List.reverseRecOn with
  | nil => contradiction
  | append_singleton requests request ih =>
      rw [requests_append] at h ⊢
      simp only [Connection.requests, List.append_nil] at h ⊢
      rcases List.mem_append.mp h with h | h
      · have hmode := ih h
        rw [onRequest_of_mode (by rw [hmode]; simp)]
        exact hmode
      · rcases count_register_onRequest (Connection.initial.requests requests).1 request with
          hzero | ⟨-, hmode⟩
        · exact absurd h (List.count_eq_zero.mp hzero)
        · exact hmode

/-- A connection becomes a replica at a {lit}`PSYNC` that it waits for. -/
theorem exists_awaits {requests : List RespValue}
    (h : (Connection.initial.requests requests).1.mode = .replication) :
    ∃ before request after cmd, requests = before ++ request :: after ∧
      commandOf request = some cmd ∧ cmd.type = .psync ∧
      (Connection.initial.requests before).1.AwaitsPsync := by
  induction requests using List.reverseRecOn with
  | nil => contradiction
  | append_singleton requests request ih =>
      by_cases hbefore : (Connection.initial.requests requests).1.mode = .replication
      · rcases ih hbefore with ⟨before, earlier, after, cmd, hsplit, hrest⟩
        exact ⟨before, earlier, after ++ [request], cmd, by rw [hsplit]; simp, hrest⟩
      · rw [requests_concat, onRequest_eq] at h
        cases hcommand : commandOf request with
        | none =>
            rw [hcommand] at h
            exact absurd h hbefore
        | some cmd =>
            rw [hcommand] at h
            rcases replication_of_onCommand hbefore h with ⟨hmode, htype, hstate⟩
            exact ⟨requests, request, [], cmd, rfl, hcommand, htype, hmode, hstate⟩

/-- A {lit}`PSYNC` that is not answered with {lit}`FULLRESYNC` leaves the connection and the
registry alone exactly if it does not complete the handshake, or the server accepts it.
All through a sequence of requests the connection is a replica only behind a
{lit}`FULLRESYNC` exactly if the server accepts each {lit}`PSYNC` that completes its
handshake. -/
theorem psync_registers_iff (config : ServerConfig) :
    (∀ registry inTransaction c request cmd, commandOf request = some cmd → cmd.type = .psync →
      ((isFullresync (psyncAnswer config registry inTransaction c cmd) = false →
          (onRequest c request).1 = c ∧ .register ∉ (onRequest c request).2) ↔
        (c.AwaitsPsync → AcceptsPsync config cmd))) ∧
    ∀ requests, (∀ first second, requests = first ++ second → SyncedReplica config first) ↔
      PsyncsAccepted config requests := by
  refine ⟨fun registry inTransaction c request cmd hcommand htype => ⟨fun h hc => ?_, fun h => ?_⟩,
    fun requests => ⟨fun h => ?_, fun h => ?_⟩⟩
  · by_contra haccepts
    have hanswer : isFullresync (psyncAnswer config registry inTransaction c cmd) = false := by
      rw [psyncAnswer_of_awaits hc htype, ← Bool.not_eq_true, isFullresync_psyncExecute]
      exact haccepts
    have hmode := replication_of_awaits hc hcommand htype
    rw [(h hanswer).1, hc.1] at hmode
    contradiction
  · intro hanswer
    refine onRequest_of_not_awaits (fun hc => ?_) hcommand htype
    rw [psyncAnswer_of_awaits hc htype,
      (isFullresync_psyncExecute config registry cmd).mpr (h hc)] at hanswer
    contradiction
  · intro before request after cmd hsplit hcommand htype hc
    by_contra haccepts
    have hmode : (Connection.initial.requests (before ++ [request])).1.mode = .replication := by
      rw [requests_concat]
      exact replication_of_awaits hc hcommand htype
    rcases h (before ++ [request]) after (by rw [hsplit]; simp) (Or.inl hmode) with
      ⟨before', request', after', cmd', hsplit', hcommand', htype', hanswer⟩
    -- the full resynchronisation is this request, or one that made a replica before it
    rcases List.eq_nil_or_concat after' with rfl | ⟨rest, last, rfl⟩
    · have hparts := List.append_inj' hsplit' rfl
      cases hparts.1
      cases hparts.2
      rw [hcommand] at hcommand'
      cases hcommand'
      exact haccepts (awaits_of_isFullresync hc.1 htype (hanswer none false)).2
    · have hearlier : before = before' ++ request' :: rest := by
        have hparts : before ++ [request] = (before' ++ request' :: rest) ++ [last] := by
          rw [hsplit']
          simp
        exact (List.append_inj' hparts rfl).1
      have hunknown := hc.1
      rw [hearlier] at hunknown
      have hmode' := unknown_of_append hunknown
      have hawaits := (awaits_of_isFullresync hmode' htype' (hanswer none false)).1
      rw [← List.singleton_append, ← List.append_assoc] at hunknown
      have hlater := unknown_of_append hunknown
      rw [requests_concat, replication_of_awaits hawaits hcommand' htype'] at hlater
      contradiction
  · intro first second hsplit hreplica
    have hmode : (Connection.initial.requests first).1.mode = .replication := by
      rcases hreplica with hmode | hregister
      · exact hmode
      · exact replication_of_register hregister
    rcases exists_awaits hmode with ⟨before, request, after, cmd, hfirst, hcommand, htype, hc⟩
    refine ⟨before, request, after, cmd, hfirst, hcommand, htype, fun registry inTransaction => ?_⟩
    rw [psyncAnswer_of_awaits hc htype, isFullresync_psyncExecute]
    refine h before request (after ++ second) cmd ?_ hcommand htype hc
    rw [hsplit, hfirst]
    simp

/-- {lit}`PING`, {lit}`REPLCONF`, {lit}`REPLCONF` and a {lit}`PSYNC` without arguments. -/
def barePsync : List RespValue :=
  [.array [.bulkString (ascii "PING")], .array [.bulkString (ascii "REPLCONF")],
    .array [.bulkString (ascii "REPLCONF")], .array [.bulkString (ascii "PSYNC")]]

/-- The {lit}`PSYNC` is answered with an error, and the connection is registered as a
replica. -/
theorem refused_psync_registers :
    (Connection.initial.requests barePsync).1.mode = .replication ∧
      .register ∈ (Connection.initial.requests barePsync).2 ∧
      psyncAnswer sampleMaster.toServerConfig none false
          (Connection.initial.requests (barePsync.take 3)).1
          ⟨.psync, ascii "PSYNC", []⟩ =
        ascii "-ERR wrong number of arguments for 'PSYNC' command\r\n" := by
  decide +kernel

end RedisClone
