import RedisClone.Command.InfoCommand
import RedisClone.Lib.CallStack
import RedisClone.Lib.Execution
import RedisClone.Replication.Attachment
import RedisClone.Server.State

/-!
# The store thread

The handlers that run on the store thread call back into each other: a push
serves blocked clients before it replies, a served client may be a suspended
{lit}`EXEC` that goes on with its queue, and so on.  A running handler is a stack
of tasks, and one step of the thread runs the topmost task.  A new handler starts
only when the stack is empty.

{lit}`XRANGE` and {lit}`XREAD` reply inside a {lit}`try` block; the task
{lit}`tryEnd` marks its end and is the only exception handler.  An exception that
passes every {lit}`try` block leaves {lit}`store_ctx.run()` and ends the server.

Current gaps:

- Only the network threads' calls of the replica registry are events here; the
  connections themselves are the subject of {lit}`Net.Connection`.
- {lit}`master_offset_` is an unbounded integer, so results about it are for offsets below 2^63.
- A context that is not there stands for a dangling {lit}`shared_ptr`, which the source cannot
  have.
- {lit}`run_next` calls itself through the callbacks of commands that reply at once, so the source
  uses real stack space in proportion to a queue; here it has no limit.
-/

namespace RedisClone

open RespValue

/-! ## Tasks and events -/

/-- A call that is still to be made. -/
inductive Task where
  /-- {lit}`CommandHandler::handle`. -/
  | handle (handler : HandlerId) (request : RespValue) (number : Nat)
  /-- {lit}`ICommand::execute`; the request is kept for the history. -/
  | execute (handler : HandlerId) (request : RespValue) (cmd : Command) (onReply : OnReply)
  /-- {lit}`on_reply(response)`. -/
  | reply (onReply : OnReply) (response : Bytes)
  /-- The end of a {lit}`try` block whose {lit}`catch` clause replies. -/
  | tryEnd (onReply : OnReply)
  /-- A round of the loop of {lit}`serve_blpop_waiters`. -/
  | serveBlpop (key : Bytes)
  /-- {lit}`serve_xread_waiters`. -/
  | serveXread (key : Bytes)
  /-- A round of its loop. -/
  | wakeXread (registration : Nat × XreadCallback)
  /-- {lit}`run_next` of {lit}`EXEC`. -/
  | runNext (context : Nat)
  /-- {lit}`poll` of {lit}`WAIT`. -/
  | waitPoll (wait : Nat)
deriving DecidableEq

/-- What the server is given from outside: its configuration, and the values of
the clocks and the counters whenever they are read. -/
structure Env where
  config : ServerConfig
  version : Bytes
  reading : Nat → Reading
  connectedClients : Nat → Nat
  usedMemory : Nat → Nat

/-- A request as the parser returns it. -/
structure Request where
  value : RespValue
  wellFormed : WellFormed value

/-- The tasks behind a state change, or an exception. -/
abbrev Reaction := Server × Except Exception (List Task)

namespace Server

/-- An error reply for a command that is not registered. -/
def unknownCommand (cmd : Command) : Bytes :=
  ascii "-ERR unknown command '" ++ cmd.name ++ ascii "'\r\n"

/-! ## {lit}`TransactionDispatcher` -/

/-- The commands that are never queued. -/
def isTransactionCommand (type : CommandType) : Bool :=
  type = .multi ∨ type = .watch ∨ type = .unwatch ∨ type = .exec ∨ type = .discard

/-- The callback of a command that is executed directly: write commands are
propagated behind the reply. -/
def directReply (h : HandlerId) (request : RespValue) (type : CommandType) (number : Nat) :
    OnReply :=
  if h.hasReplicaRegistry ∧ isWriteCommand type then .propagating number (serialize request)
  else h.onReply number

/-- {lit}`TransactionDispatcher::dispatch`. -/
def dispatch (s : Server) (h : HandlerId) (request : RespValue) (cmd : Command) (number : Nat) :
    Reaction :=
  if isTransactionCommand cmd.type then
    if findCommand h.kind cmd.type then
      if cmd.type = .multi ∧ (s.transactions h).inTransaction then
        (s, .ok [.reply (h.onReply number) (ascii "-ERR MULTI calls can not be nested\r\n")])
      else (s, .ok [.execute h request cmd (h.onReply number)])
    else (s, .ok [.reply (h.onReply number) (unknownCommand cmd)])
  else if (s.transactions h).inTransaction then
    (s.setTransaction h ((s.transactions h).queueCommand request, s.watches),
      .ok [.reply (h.onReply number) (ascii "+QUEUED\r\n")])
  else if findCommand h.kind cmd.type then
    (s, .ok [.execute h request cmd (directReply h request cmd.type number)])
  else (s, .ok [.reply (h.onReply number) (unknownCommand cmd)])

/-- {lit}`CommandHandler::handle`. -/
def handle (s : Server) (h : HandlerId) (request : RespValue) (number : Nat) : Reaction :=
  if request.type ≠ .array ∨ request.elements = [] then
    (s.record (.handled number h request),
      .ok [.reply (h.onReply number) (ascii "-ERR invalid command format\r\n")])
  else
    match parseCommand request with
    | .error e => (s, .error e)
    | .ok cmd => (s.record (.handled number h request)).dispatch h request cmd number

/-! ## Transactions -/

/-- {lit}`MultiCommand::execute`. -/
def executeMulti (s : Server) (h : HandlerId) (onReply : OnReply) : Server × List Task :=
  (s.setTransaction h ((s.transactions h).begin, s.watches), [.reply onReply (ascii "+OK\r\n")])

/-- {lit}`ExecCommand::execute`: the transaction ends before the queue is run. -/
def executeExec (s : Server) (h : HandlerId) (onReply : OnReply) : Server × List Task :=
  if (s.transactions h).inTransaction = false then
    (s, [.reply onReply (ascii "-ERR EXEC without MULTI\r\n")])
  else if (s.transactions h).dirty then
    (s.setTransaction h ((s.transactions h).reset s.watches), [.reply onReply nullArray])
  else
    let popped := (s.transactions h).popQueuedCommands
    let s := s.setTransaction h (popped.1.reset s.watches)
    if popped.2 = [] then (s, [.reply onReply (ascii "*0\r\n")])
    else
      (s.addContext ⟨h, onReply, 0, List.replicate popped.2.length [], popped.2⟩,
        [.runNext s.contexts.length])

/-- {lit}`DiscardCommand::execute`. -/
def executeDiscard (s : Server) (h : HandlerId) (onReply : OnReply) : Server × List Task :=
  if (s.transactions h).inTransaction = false then
    (s, [.reply onReply (ascii "-ERR DISCARD without MULTI\r\n")])
  else
    (s.setTransaction h ((s.transactions h).reset s.watches),
      [.reply onReply (ascii "+OK\r\n")])

/-- The loop of {lit}`WatchCommand::execute`: a key that is watched already is
skipped. -/
def watchKeys (h : HandlerId) (state : TransactionManager × WatchManager HandlerId)
    (keys : List Bytes) : TransactionManager × WatchManager HandlerId :=
  keys.foldl (fun state key =>
    if (state.1.watchKey key).2 then
      ((state.1.watchKey key).1.associateWatchId key (state.2.watch key h).2,
        (state.2.watch key h).1)
    else state) state

/-- {lit}`WatchCommand::execute`. -/
def executeWatch (s : Server) (h : HandlerId) (cmd : Command) (onReply : OnReply) :
    Server × List Task :=
  if (s.transactions h).inTransaction then
    (s, [.reply onReply (ascii "-ERR WATCH inside MULTI is not allowed\r\n")])
  else
    match checkArgs cmd 1 with
    | some err => (s, [.reply onReply err])
    | none =>
        (s.setTransaction h (watchKeys h (s.transactions h, s.watches) cmd.args),
          [.reply onReply (ascii "+OK\r\n")])

/-- {lit}`UnwatchCommand::execute`. -/
def executeUnwatch (s : Server) (h : HandlerId) (cmd : Command) (onReply : OnReply) :
    Server × List Task :=
  if cmd.args ≠ [] then
    (s, [.reply onReply
      (ascii "-ERR wrong number of arguments for '" ++ cmd.name ++ ascii "' command\r\n")])
  else
    (s.setTransaction h ((s.transactions h).clearWatches s.watches),
      [.reply onReply (ascii "+OK\r\n")])

/-! ## Commands -/

/-- The tasks that serve waiters. -/
def wakeTasks : Option Wake → List Task
  | none => []
  | some (.blpop key) => [.serveBlpop key]
  | some (.xread key) => [.serveXread key]

/-- What follows once a command on the keyspace has changed the table. -/
def settle (s : Server) (onReply : OnReply) : Outcome → Server × List Task
  | .answer a =>
      ((match a.notify with
        | some key => s.notifyWrite key
        | none => s),
        wakeTasks a.wake ++ .reply onReply a.response ::
          if a.guarded then [.tryEnd onReply] else [])
  | .blockBlpop keys timeout => (s.blockBlpop keys timeout onReply, [])
  | .blockXread streams timeout => (s.blockXread streams timeout onReply, [])

/-- A command on the keyspace. -/
def executeData (env : Env) (s : Server) (h : HandlerId) (request : RespValue) (cmd : Command)
    (body : Command → Reading → Store → CommandResult) (onReply : OnReply) : Reaction :=
  let result := body cmd (env.reading s.readings) s.data
  match result.2 with
  | .error e => (s.withData result.1, .error e)
  | .ok outcome =>
      let settled :=
        ((s.withData result.1).record (.executed h cmd.type request)).settle onReply outcome
      (settled.1, .ok settled.2)

/-- {lit}`WaitCommand::execute`. -/
def executeWait (env : Env) (s : Server) (h : HandlerId) (cmd : Command) (onReply : OnReply) :
    Server × List Task :=
  match waitExecute (s.registryOf h) cmd.args (env.reading s.readings).steady with
  | .answered response => (s, [.reply onReply response])
  | .acked _ _ count => (s, [.reply onReply (countReply count)])
  | .pending wait =>
      (((s.propagate (serialize ReplicaRegistry.getackRequest)).countReading).addWait
        ⟨wait, onReply, true⟩,
        [.waitPoll s.waits.length])

/-- What {lit}`INFO` reads from the server. -/
def stats (env : Env) (s : Server) (h : HandlerId) : ServerStats :=
  if h.hasReplicaRegistry then
    ⟨env.version, env.connectedClients s.readings, env.usedMemory s.readings⟩
  else ⟨env.version, 0, 0⟩

/-- The commands that are not only about the keyspace. -/
def executeOther (env : Env) (s : Server) (h : HandlerId) (cmd : Command) (onReply : OnReply) :
    Server × List Task :=
  match cmd.type with
  | .multi => s.executeMulti h onReply
  | .exec => s.executeExec h onReply
  | .discard => s.executeDiscard h onReply
  | .watch => s.executeWatch h cmd onReply
  | .unwatch => s.executeUnwatch h cmd onReply
  | .wait => s.executeWait env h cmd onReply
  | .info => (s, [.reply onReply (infoExecute env.config (s.stats env h) (s.registryOf h) cmd)])
  | .replconf => (s, [.reply onReply replconfExecute])
  | .psync => (s, [.reply onReply (psyncExecute env.config (s.registryOf h) cmd)])
  | _ => (s, [.reply onReply (unknownCommand cmd)])

/-- {lit}`ICommand::execute`. -/
def execute (env : Env) (s : Server) (h : HandlerId) (request : RespValue) (cmd : Command)
    (onReply : OnReply) : Reaction :=
  match dataCommand cmd.type with
  | some body => s.executeData env h request cmd body onReply
  | none =>
      let done := (s.record (.executed h cmd.type request)).executeOther env h cmd onReply
      (done.1, .ok done.2)

/-! ## Callbacks -/

/-- Store the result of a queued command and go on, as the callback of
{lit}`run_next` does. -/
def execCallback (s : Server) (context : Nat) (type : CommandType) (request : RespValue)
    (response : Bytes) : Reaction :=
  match s.contexts[context]? with
  | none => (s, .error (.rangeCheck context s.contexts.length))
  | some c =>
      if c.index < c.results.length then
        let s := s.setContext context
          { c with index := c.index + 1, results := c.results.set c.index response }
        (if c.handler.hasReplicaRegistry ∧ isWriteCommand type then
            s.propagate (serialize request)
          else s,
          .ok [.runNext context])
      else (s, .error (.rangeCheck c.index c.results.length))

/-- {lit}`on_reply(response)`. -/
def reply (s : Server) (onReply : OnReply) (response : Bytes) : Reaction :=
  match onReply with
  | .connection number => (s.record (.replied number response), .ok [])
  | .discard => (s, .ok [])
  | .propagating number raw => ((s.record (.replied number response)).propagate raw, .ok [])
  | .exec context type request => s.execCallback context type request response

/-- The reply of {lit}`EXEC`. -/
def execReply (results : List Bytes) : Bytes :=
  arrayHeader results.length ++ results.flatten

/-- {lit}`run_next` of {lit}`EXEC`. -/
def runNext (s : Server) (context : Nat) : Reaction :=
  match s.contexts[context]? with
  | none => (s, .error (.rangeCheck context s.contexts.length))
  | some c =>
      if c.index = c.commands.length then (s, .ok [.reply c.onReply (execReply c.results)])
      else
        match c.commands[c.index]? with
        | none => (s, .error (.rangeCheck c.index c.commands.length))
        | some request =>
            match parseCommand request with
            | .error e => (s, .error e)
            | .ok cmd =>
                if findCommand c.handler.kind cmd.type then
                  (s, .ok [.execute c.handler request cmd (.exec context cmd.type request)])
                else
                  (s.setContext context
                    { c with
                      index := c.index + 1
                      results := c.results.set c.index (unknownCommand cmd) },
                    .ok [.runNext context])

/-- A round of the loop of {lit}`BlockingManager::serve_blpop_waiters`. -/
def serveBlpop (s : Server) (key : Bytes) : Server × List Task :=
  match s.blpop.waiters key with
  | [] => (s, [])
  | (id, callback) :: _ =>
      match s.data.lpop key 1 with
      | (d, .ok (value :: _)) =>
          (((s.setData d).unregisterBlpop id).cancelTimer callback.timer,
            [.reply callback.onReply (popReply key value), .serveBlpop key])
      | (d, .ok []) => (s.setData d, [])
      | (_, .error _) => (s, [])

/-- A round of the loop of {lit}`BlockingManager::serve_xread_waiters`. -/
def wakeXread (s : Server) (id : Nat) (callback : XreadCallback) : Reaction :=
  ((s.unregisterXread id).cancelTimer callback.timer,
    (s.data.xread callback.streams).map fun results =>
      [.reply callback.onReply (formatStreamEntries results)])

/-- {lit}`poll` of {lit}`WAIT`. -/
def pollWait (env : Env) (s : Server) (wait : Nat) : Server × List Task :=
  match s.waits[wait]? with
  | none => (s, [])
  | some w =>
      match waitPoll s.replicas w.wait (env.reading s.readings).steady with
      | some count =>
          (s.countReading.setWait wait { w with active := false },
            [.reply w.onReply (countReply count)])
      | none => (s.countReading, [])

/-- What a task does. -/
def act (env : Env) (s : Server) : Task → Reaction
  | .handle h request number => s.handle h request number
  | .execute h request cmd onReply => s.execute env h request cmd onReply
  | .reply onReply response => s.reply onReply response
  | .tryEnd _ => (s, .ok [])
  | .serveBlpop key => ((s.serveBlpop key).1, .ok (s.serveBlpop key).2)
  | .serveXread key => (s, .ok ((s.xread.waiters key).map .wakeXread))
  | .wakeXread registration => s.wakeXread registration.1 registration.2
  | .runNext context => s.runNext context
  | .waitPoll wait => ((s.pollWait env wait).1, .ok (s.pollWait env wait).2)

end Server

/-- The {lit}`catch` clauses: the exception is turned into a reply. -/
def Task.handler : Task → Exception → Option (List Task)
  | .tryEnd onReply, e => some [.reply onReply (exceptionReply e)]
  | _, _ => none

/-- The store thread as a stack machine. -/
def storeMachine (env : Env) : CallStack.Machine Server Task Exception where
  act := Server.act env
  handler := Task.handler

/-! ## Runs -/

/-- The store thread: its state and the calls that are still to be made. -/
structure StoreThread where
  server : Server
  stack : List Task

/-- What happens to the store thread. -/
inductive Event where
  /-- A posted request is taken up. -/
  | request (handler : HandlerId) (request : Request)
  /-- The topmost task runs. -/
  | tick
  /-- A timer expires and its handler is queued. -/
  | expire (timer : Nat)
  /-- The queued handler of a timer is taken up. -/
  | timeout (timer : Nat)
  /-- The poll timer of a {lit}`WAIT` fires. -/
  | poll (wait : Nat)
  /-- A network thread registers a replica. -/
  | attach
  /-- A network thread removes a replica. -/
  | detach (replica : Nat)
  /-- A network thread records an acknowledgement. -/
  | ack (replica : Nat) (offset : Int)

namespace StoreThread

/-- The handler of the timer of a blocked client. -/
def onTimeout (s : Server) (timer : Nat) (t : Timer) : StoreThread :=
  ⟨match t.kind with
    | .blpop => (s.setTimer timer { t with status := .done }).unregisterBlpop t.registration
    | .xread => (s.setTimer timer { t with status := .done }).unregisterXread t.registration,
    [.reply t.onReply nullArray]⟩

/-- One event; {lean}`none` if it is impossible, or if an exception ends the
server. -/
def step (env : Env) (t : StoreThread) : Event → Option StoreThread
  | .request h request =>
      if t.stack = [] then
        some ⟨t.server.countRequest, [.handle h request.value t.server.requests]⟩
      else none
  | .tick => ((storeMachine env).step t.server t.stack).map fun c => ⟨c.1, c.2⟩
  | .expire i =>
      match t.server.timers[i]? with
      | some timer =>
          if timer.status = .armed then
            some ⟨t.server.setTimer i { timer with status := .queued }, t.stack⟩
          else none
      | none => none
  | .timeout i =>
      match t.server.timers[i]? with
      | some timer =>
          if timer.status = .queued ∧ t.stack = [] then some (onTimeout t.server i timer)
          else none
      | none => none
  | .poll i =>
      match t.server.waits[i]? with
      | some w => if w.active ∧ t.stack = [] then some ⟨t.server, [.waitPoll i]⟩ else none
      | none => none
  | .attach => some ⟨t.server.setReplicas t.server.replicas.add.1, t.stack⟩
  | .detach id => some ⟨t.server.setReplicas (t.server.replicas.remove id), t.stack⟩
  | .ack id offset =>
      some ⟨t.server.setReplicas (t.server.replicas.recordAck id offset), t.stack⟩

/-- A sequence of events. -/
def run (env : Env) (t : StoreThread) (events : List Event) : Option StoreThread :=
  Execution.follow (step env) t events

/-- No handler is running. -/
def Idle (t : StoreThread) : Prop :=
  t.stack = []

/-- A thread that was just started, with replicas registered. -/
@[simps]
def withReplicas (registry : ReplicaRegistry) : StoreThread :=
  ⟨Server.initial.setReplicas registry, []⟩

end StoreThread

/-! ## Sample inputs -/

/-- A master whose clocks stand still. -/
def sampleEnv : Env where
  config := sampleMaster.toServerConfig
  version := ascii "1.0"
  reading := fun _ => ⟨0, 0⟩
  connectedClients := fun _ => 0
  usedMemory := fun _ => 0

/-- A request of bulk strings. -/
def Request.ofTexts (name : Bytes) (args : List Bytes)
    (hcount : ((args.length + 1 : Nat) : Int) ≤ intMax)
    (htexts : ∀ text ∈ name :: args, (text.length : Int) ≤ payloadMax) : Request :=
  ⟨(ParsedRequest.ofTexts name args hcount htexts).value,
    (ParsedRequest.ofTexts name args hcount htexts).isRequest.wellFormed⟩

/-- The texts are short enough for any request. -/
def Request.shortTexts (name : Bytes) (args : List Bytes) : Bool :=
  decide (args.length < 100) && (name :: args).all fun text => decide (text.length < 100)

section Short

variable {name : Bytes} {args : List Bytes}

theorem Request.count_of_shortTexts (h : Request.shortTexts name args = true) :
    ((args.length + 1 : Nat) : Int) ≤ intMax := by
  simp only [Request.shortTexts, Bool.and_eq_true, decide_eq_true_eq] at h
  have hcount := h.1
  unfold intMax
  omega

theorem Request.length_of_shortTexts (h : Request.shortTexts name args = true) :
    ∀ text ∈ name :: args, (text.length : Int) ≤ payloadMax := by
  simp only [Request.shortTexts, Bool.and_eq_true, List.all_eq_true, decide_eq_true_eq] at h
  intro text hmem
  have hlength := h.2 text hmem
  unfold payloadMax intMax
  omega

end Short

/-- A request of short bulk strings. -/
def Request.short (name : Bytes) (args : List Bytes) (h : Request.shortTexts name args = true) :
    Request :=
  .ofTexts name args (Request.count_of_shortTexts h) (Request.length_of_shortTexts h)

/-- A request of a client and a number of steps of the store thread. -/
def job (connection : Nat) (request : Request) (ticks : Nat) : List Event :=
  .request (.client connection) request :: List.replicate ticks .tick

end RedisClone
