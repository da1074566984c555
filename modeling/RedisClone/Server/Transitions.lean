import RedisClone.Server.StoreThread

/-!
# What a task can do

{lit}`Server.act` has many branches.  This module lists once what they can do to
the state and which tasks they call, and with that what an event can do to the
store thread; proofs about runs go by cases on these lists.

Main results:

- Theorem {lit}`acts_of_act`: the transitions of a task.
- Theorem {lit}`moves_of_step`: the transitions of the store thread.
-/

namespace RedisClone

open RespValue

/-! ## Transactions -/

/-- What a command that controls transactions does to the transaction of its handler
and to the watched keys, and what it replies. -/
inductive Transacts (h : HandlerId) (tm : TransactionManager) (watches : WatchManager HandlerId) :
    Command → TransactionManager × WatchManager HandlerId → Bytes → Prop
  /-- {lit}`MULTI`. -/
  | begins {cmd : Command} (htype : cmd.type = .multi) :
      Transacts h tm watches cmd (tm.begin, watches) (ascii "+OK\r\n")
  /-- {lit}`EXEC` of a transaction that is dirty. -/
  | aborts {cmd : Command} (htype : cmd.type = .exec) (hactive : tm.inTransaction = true)
      (hdirty : tm.dirty = true) : Transacts h tm watches cmd (tm.reset watches) nullArray
  /-- {lit}`EXEC` of an empty queue. -/
  | empties {cmd : Command} (htype : cmd.type = .exec) (hactive : tm.inTransaction = true)
      (hclean : tm.dirty = false) :
      Transacts h tm watches cmd (tm.popQueuedCommands.1.reset watches) (ascii "*0\r\n")
  /-- {lit}`DISCARD`. -/
  | discards {cmd : Command} (htype : cmd.type = .discard) (hactive : tm.inTransaction = true) :
      Transacts h tm watches cmd (tm.reset watches) (ascii "+OK\r\n")
  /-- {lit}`WATCH`. -/
  | watches {cmd : Command} (htype : cmd.type = .watch) (hidle : tm.inTransaction = false) :
      Transacts h tm watches cmd (Server.watchKeys h (tm, watches) cmd.args) (ascii "+OK\r\n")
  /-- {lit}`UNWATCH`. -/
  | unwatches {cmd : Command} (htype : cmd.type = .unwatch) (hargs : cmd.args = []) :
      Transacts h tm watches cmd (tm.clearWatches watches) (ascii "+OK\r\n")

/-- A command that controls transactions is refused; other commands do not touch
them. -/
def Refused (tm : TransactionManager) (cmd : Command) : Prop :=
  match cmd.type with
  | .multi => False
  | .exec => tm.inTransaction = false
  | .discard => tm.inTransaction = false
  | .watch => tm.inTransaction = true ∨ cmd.args = []
  | .unwatch => cmd.args ≠ []
  | _ => True

/-! ## Tasks -/

/-- The transitions of a task. -/
inductive Acts (env : Env) (s : Server) : Task → Server → Except Exception (List Task) → Prop
  /-- A malformed request, a nested {lit}`MULTI` or an unregistered command. -/
  | rejected (h : HandlerId) (request : RespValue) (number : Nat) {response : Bytes}
      (hhandle : s.handle h request number = (s.record (.handled number h request),
        .ok [.reply (h.onReply number) response])) :
      Acts env s (.handle h request number) (s.record (.handled number h request))
        (.ok [.reply (h.onReply number) response])
  /-- A command is queued. -/
  | queued {h : HandlerId} {request : RespValue} {cmd : Command} (number : Nat)
      (hformat : request.type = .array) (hparse : parseCommand request = .ok cmd)
      (htype : Server.isTransactionCommand cmd.type = false)
      (hactive : (s.transactions h).inTransaction = true) :
      Acts env s (.handle h request number)
        ((s.record (.handled number h request)).setTransaction h
          ((s.transactions h).queueCommand request, s.watches))
        (.ok [.reply (h.onReply number) (ascii "+QUEUED\r\n")])
  /-- A command that controls the transaction is executed. -/
  | controls {h : HandlerId} {request : RespValue} {cmd : Command} (number : Nat)
      (hformat : request.type = .array) (hparse : parseCommand request = .ok cmd)
      (htype : Server.isTransactionCommand cmd.type = true)
      (hfind : findCommand h.kind cmd.type = true) :
      Acts env s (.handle h request number) (s.record (.handled number h request))
        (.ok [.execute h request cmd (h.onReply number)])
  /-- A command is executed directly. -/
  | dispatched {h : HandlerId} {request : RespValue} {cmd : Command} (number : Nat)
      (hformat : request.type = .array) (hparse : parseCommand request = .ok cmd)
      (htype : Server.isTransactionCommand cmd.type = false)
      (hidle : (s.transactions h).inTransaction = false)
      (hfind : findCommand h.kind cmd.type = true) :
      Acts env s (.handle h request number) (s.record (.handled number h request))
        (.ok [.execute h request cmd (Server.directReply h request cmd.type number)])
  /-- A command on the keyspace throws. -/
  | threw {h : HandlerId} {request : RespValue} {cmd : Command} {onReply : OnReply}
      {body : Command → Reading → Store → CommandResult} {d : Store} {e : Exception}
      (hbody : dataCommand cmd.type = some body)
      (hresult : body cmd (env.reading s.readings) s.data = (d, .error e)) :
      Acts env s (.execute h request cmd onReply) (s.withData d) (.error e)
  /-- A command on the keyspace runs. -/
  | ran {h : HandlerId} {request : RespValue} {cmd : Command} {onReply : OnReply}
      {body : Command → Reading → Store → CommandResult} {d : Store} {outcome : Outcome}
      (hbody : dataCommand cmd.type = some body)
      (hresult : body cmd (env.reading s.readings) s.data = (d, .ok outcome)) :
      Acts env s (.execute h request cmd onReply)
        (((s.withData d).record (.executed h cmd.type request)).settle onReply outcome).1
        (.ok (((s.withData d).record (.executed h cmd.type request)).settle onReply outcome).2)
  /-- Another command only replies. -/
  | answered {h : HandlerId} {request : RespValue} {cmd : Command} {onReply : OnReply}
      (hbody : dataCommand cmd.type = none) (hrefused : Refused (s.transactions h) cmd)
      {response : Bytes}
      (hother : ((s.record (.executed h cmd.type request)).executeOther env h cmd onReply).2 =
        [.reply onReply response]) :
      Acts env s (.execute h request cmd onReply) (s.record (.executed h cmd.type request))
        (.ok [.reply onReply response])
  /-- A command changes the transaction or the watched keys, and replies. -/
  | transacted {h : HandlerId} {request : RespValue} {cmd : Command} {onReply : OnReply}
      {change : TransactionManager × WatchManager HandlerId} {response : Bytes}
      (hchange : Transacts h (s.transactions h) s.watches cmd change response) :
      Acts env s (.execute h request cmd onReply)
        ((s.record (.executed h cmd.type request)).setTransaction h change)
        (.ok [.reply onReply response])
  /-- {lit}`EXEC` starts to run its queue. -/
  | started {h : HandlerId} {request : RespValue} {cmd : Command} {onReply : OnReply}
      (htype : cmd.type = .exec)
      (hactive : (s.transactions h).inTransaction = true)
      (hclean : (s.transactions h).dirty = false)
      (hqueue : (s.transactions h).queuedCommands ≠ []) :
      Acts env s (.execute h request cmd onReply)
        (((s.record (.executed h cmd.type request)).setTransaction h
            ((s.transactions h).popQueuedCommands.1.reset s.watches)).addContext
          ⟨h, onReply, 0, List.replicate (s.transactions h).queuedCommands.length [],
            (s.transactions h).queuedCommands⟩)
        (.ok [.runNext s.contexts.length])
  /-- {lit}`WAIT` asks the replicas and starts to poll. -/
  | polls {h : HandlerId} {request : RespValue} {cmd : Command} {onReply : OnReply}
      (htype : cmd.type = .wait) (wait : PendingWait) :
      Acts env s (.execute h request cmd onReply)
        ((((s.record (.executed h cmd.type request)).propagate
          (serialize ReplicaRegistry.getackRequest)).countReading).addWait ⟨wait, onReply, true⟩)
        (.ok [.waitPoll s.waits.length])
  /-- A reply is written to a connection. -/
  | written (number : Nat) (response : Bytes) :
      Acts env s (.reply (.connection number) response) (s.record (.replied number response))
        (.ok [])
  /-- A reply to the replication session is dropped. -/
  | dropped (response : Bytes) : Acts env s (.reply .discard response) s (.ok [])
  /-- A reply is written to a connection, and the command is propagated. -/
  | propagated (number : Nat) (raw response : Bytes) :
      Acts env s (.reply (.propagating number raw) response)
        ((s.record (.replied number response)).propagate raw) (.ok [])
  /-- The result of a queued command is stored. -/
  | collected {context : Nat} {c : ExecContext} (hcontext : s.contexts[context]? = some c)
      (hindex : c.index < c.results.length) (type : CommandType) (request : RespValue)
      (response : Bytes) :
      Acts env s (.reply (.exec context type request) response)
        (if c.handler.hasReplicaRegistry ∧ isWriteCommand type then
          (s.setContext context { c with
            index := c.index + 1, results := c.results.set c.index response }).propagate
            (serialize request)
        else s.setContext context { c with
          index := c.index + 1, results := c.results.set c.index response })
        (.ok [.runNext context])
  /-- There is no place for the result of a queued command. -/
  | overrun {context : Nat} {index size : Nat}
      (hfull : ∀ c, s.contexts[context]? = some c → c.results.length ≤ c.index)
      (type : CommandType) (request : RespValue) (response : Bytes) :
      Acts env s (.reply (.exec context type request) response) s (.error (.rangeCheck index size))
  /-- A {lit}`try` block ends. -/
  | passed (onReply : OnReply) : Acts env s (.tryEnd onReply) s (.ok [])
  /-- A waiting {lit}`BLPOP` is served. -/
  | served {key value : Bytes} {id : Nat} {callback : BlpopCallback}
      {later : List (Nat × BlpopCallback)} {d : Store} {more : List Bytes}
      (hwaiters : s.blpop.waiters key = (id, callback) :: later)
      (hpop : s.data.lpop key 1 = (d, .ok (value :: more))) :
      Acts env s (.serveBlpop key)
        (((s.setData d).unregisterBlpop id).cancelTimer callback.timer)
        (.ok [.reply callback.onReply (popReply key value), .serveBlpop key])
  /-- Nobody waits for the key. -/
  | unawaited {key : Bytes} (hwaiters : s.blpop.waiters key = []) :
      Acts env s (.serveBlpop key) s (.ok [])
  /-- There is no element for the waiting {lit}`BLPOP`. -/
  | unserved {key : Bytes} {id : Nat} {callback : BlpopCallback}
      {later : List (Nat × BlpopCallback)} {d : Store}
      (hwaiters : s.blpop.waiters key = (id, callback) :: later)
      (hpop : s.data.lpop key 1 = (d, .ok []) ∨ ((s.data.lpop key 1).2.isOk = false ∧ d = s.data)) :
      Acts env s (.serveBlpop key) (s.setData d) (.ok [])
  /-- The waiters of a stream are copied. -/
  | copied (key : Bytes) :
      Acts env s (.serveXread key) s (.ok ((s.xread.waiters key).map .wakeXread))
  /-- A waiting {lit}`XREAD` reads and replies. -/
  | woke {id : Nat} {callback : XreadCallback} {results : List (Bytes × List StreamEntry)}
      (hread : s.data.xread callback.streams = .ok results) :
      Acts env s (.wakeXread (id, callback))
        ((s.unregisterXread id).cancelTimer callback.timer)
        (.ok [.reply callback.onReply (formatStreamEntries results)])
  /-- A waiting {lit}`XREAD` throws. -/
  | wokeThrew {id : Nat} {callback : XreadCallback} {e : Exception}
      (hread : s.data.xread callback.streams = .error e) :
      Acts env s (.wakeXread (id, callback))
        ((s.unregisterXread id).cancelTimer callback.timer)
        (.error e)
  /-- {lit}`EXEC` replies. -/
  | finished {context : Nat} {c : ExecContext} (hcontext : s.contexts[context]? = some c)
      (hindex : c.index = c.commands.length) :
      Acts env s (.runNext context) s (.ok [.reply c.onReply (Server.execReply c.results)])
  /-- {lit}`EXEC` runs the next command. -/
  | next {context : Nat} {c : ExecContext} {request : RespValue} {cmd : Command}
      (hcontext : s.contexts[context]? = some c)
      (hrequest : c.commands[c.index]? = some request)
      (hparse : parseCommand request = .ok cmd)
      (hfind : findCommand c.handler.kind cmd.type = true) :
      Acts env s (.runNext context) s
        (.ok [.execute c.handler request cmd (.exec context cmd.type request)])
  /-- {lit}`EXEC` comes to a command that is not registered. -/
  | skipped {context : Nat} {c : ExecContext} {request : RespValue} {cmd : Command}
      (hcontext : s.contexts[context]? = some c)
      (hrequest : c.commands[c.index]? = some request)
      (hparse : parseCommand request = .ok cmd)
      (hfind : findCommand c.handler.kind cmd.type = false) :
      Acts env s (.runNext context)
        (s.setContext context { c with
          index := c.index + 1, results := c.results.set c.index (Server.unknownCommand cmd) })
        (.ok [.runNext context])
  /-- {lit}`EXEC` has no command at its position. -/
  | stuck (context : Nat) {index size : Nat} :
      Acts env s (.runNext context) s (.error (.rangeCheck index size))
  /-- A {lit}`WAIT` replies. -/
  | counted {wait : Nat} {w : WaitState} (hwait : s.waits[wait]? = some w) {count : Int}
      (hpoll : waitPoll s.replicas w.wait (env.reading s.readings).steady = some count) :
      Acts env s (.waitPoll wait)
        (s.countReading.setWait wait { w with active := false })
        (.ok [.reply w.onReply (countReply count)])
  /-- A {lit}`WAIT` polls again later. -/
  | waits {wait : Nat} {w : WaitState} (hwait : s.waits[wait]? = some w) :
      Acts env s (.waitPoll wait) s.countReading (.ok [])
  /-- There is no such {lit}`WAIT`. -/
  | unknownWait {wait : Nat} (hwait : s.waits[wait]? = none) :
      Acts env s (.waitPoll wait) s (.ok [])

variable {env : Env} {s s' : Server} {r : Except Exception (List Task)}

/-- The transitions of {lit}`handle`. -/
theorem acts_handle {h : HandlerId} {request : RespValue} {number : Nat}
    (hact : s.handle h request number = (s', r)) :
    Acts env s (.handle h request number) s' r := by
  have hhandle := hact
  unfold Server.handle at hact
  split at hact
  · cases hact
    exact .rejected h request number hhandle
  · rename_i hformat
    rw [not_or, not_not] at hformat
    rcases exists_parseCommand hformat.2 with ⟨cmd, hparse⟩
    simp only [hparse] at hact
    unfold Server.dispatch at hact
    split at hact
    · rename_i htype
      split at hact
      · rename_i hfind
        split at hact
        · cases hact
          exact .rejected h request number hhandle
        · cases hact
          exact .controls number hformat.1 hparse htype hfind
      · cases hact
        exact .rejected h request number hhandle
    · rename_i htype
      have htype' : Server.isTransactionCommand cmd.type = false := by simpa using htype
      split at hact
      · rename_i hactive
        cases hact
        exact .queued number hformat.1 hparse htype' hactive
      · rename_i hactive
        split at hact
        · rename_i hfind
          cases hact
          exact .dispatched number hformat.1 hparse htype' (by simpa using hactive) hfind
        · cases hact
          exact .rejected h request number hhandle

/-- Watching keys does not touch the queue. -/
theorem queuedCommands_watchKeys (h : HandlerId)
    (state : TransactionManager × WatchManager HandlerId) (keys : List Bytes) :
    (Server.watchKeys h state keys).1.queuedCommands = state.1.queuedCommands := by
  unfold Server.watchKeys
  induction keys generalizing state with
  | nil => rfl
  | cons key keys ih =>
      rw [List.foldl_cons, ih]
      split
      · unfold TransactionManager.watchKey TransactionManager.associateWatchId
        split <;> rfl
      · rfl

/-- A command that controls transactions keeps the queue or empties it. -/
theorem Transacts.queuedCommands {h : HandlerId} {tm : TransactionManager}
    {watches : WatchManager HandlerId} {cmd : Command}
    {change : TransactionManager × WatchManager HandlerId} {response : Bytes}
    (hchange : Transacts h tm watches cmd change response) :
    change.1.queuedCommands = [] ∨ change.1.queuedCommands = tm.queuedCommands := by
  cases hchange with
  | begins htype => exact Or.inl rfl
  | aborts htype hactive hdirty => exact Or.inl rfl
  | empties htype hactive hclean => exact Or.inl rfl
  | discards htype hactive => exact Or.inl rfl
  | watches htype hidle => exact Or.inr (queuedCommands_watchKeys h (tm, watches) cmd.args)
  | unwatches htype hargs => exact Or.inr rfl

/-- The commands that change transactions. -/
theorem Transacts.isTransactionCommand {h : HandlerId} {tm : TransactionManager}
    {watches : WatchManager HandlerId} {cmd : Command}
    {change : TransactionManager × WatchManager HandlerId} {response : Bytes}
    (hchange : Transacts h tm watches cmd change response) :
    Server.isTransactionCommand cmd.type = true := by
  cases hchange with
  | begins htype | aborts htype | empties htype | discards htype | watches htype
  | unwatches htype => simp [Server.isTransactionCommand, htype]

/-- The transitions of {lit}`executeData`. -/
theorem acts_executeData {h : HandlerId} {request : RespValue} {cmd : Command} {onReply : OnReply}
    {body : Command → Reading → Store → CommandResult} (hbody : dataCommand cmd.type = some body)
    (hact : s.executeData env h request cmd body onReply = (s', r)) :
    Acts env s (.execute h request cmd onReply) s' r := by
  unfold Server.executeData at hact
  rcases hresult : body cmd (env.reading s.readings) s.data with ⟨d, result⟩
  cases result with
  | error e =>
      simp only [hresult] at hact
      cases hact
      exact .threw hbody hresult
  | ok outcome =>
      simp only [hresult] at hact
      cases hact
      exact .ran hbody hresult

/-- The transitions of {lit}`EXEC`. -/
theorem acts_executeExec {h : HandlerId} {request : RespValue} {cmd : Command} {onReply : OnReply}
    {new : List Task} (htype : cmd.type = .exec)
    (hact : (s.record (.executed h cmd.type request)).executeExec h onReply = (s', new)) :
    Acts env s (.execute h request cmd onReply) s' (.ok new) := by
  have hbody : dataCommand cmd.type = none := by rw [htype]; rfl
  have hother : ((s.record (.executed h cmd.type request)).executeOther env h cmd onReply).2 =
      new := by
    simp only [Server.executeOther, htype] at hact ⊢
    rw [hact]
  unfold Server.executeExec at hact
  simp only [Server.record_transactions, Server.record_watches] at hact
  split at hact
  · rename_i hidle
    cases hact
    exact .answered hbody (by simpa [Refused, htype] using hidle) hother
  · rename_i hactive
    have hactive' : (s.transactions h).inTransaction = true := by simpa using hactive
    split at hact
    · rename_i hdirty
      cases hact
      exact .transacted (.aborts htype hactive' hdirty)
    · rename_i hclean
      have hclean' : (s.transactions h).dirty = false := by simpa using hclean
      split at hact
      · cases hact
        exact .transacted (.empties htype hactive' hclean')
      · rename_i hqueue
        cases hact
        exact .started htype hactive' hclean' hqueue

/-- The transitions of {lit}`WATCH`. -/
theorem acts_executeWatch {h : HandlerId} {request : RespValue} {cmd : Command} {onReply : OnReply}
    {new : List Task} (htype : cmd.type = .watch)
    (hact : (s.record (.executed h cmd.type request)).executeWatch h cmd onReply = (s', new)) :
    Acts env s (.execute h request cmd onReply) s' (.ok new) := by
  have hbody : dataCommand cmd.type = none := by rw [htype]; rfl
  have hother : ((s.record (.executed h cmd.type request)).executeOther env h cmd onReply).2 =
      new := by
    simp only [Server.executeOther, htype] at hact ⊢
    rw [hact]
  unfold Server.executeWatch at hact
  split at hact
  · rename_i hactive
    cases hact
    exact .answered hbody (by simpa [Refused, htype] using Or.inl hactive) hother
  · rename_i hidle
    split at hact
    · rename_i hargs
      have hnone : cmd.args = [] := by
        unfold checkArgs at hargs
        split at hargs
        · rename_i hlength
          exact List.eq_nil_of_length_eq_zero (by omega)
        · contradiction
      cases hact
      exact .answered hbody (by simpa [Refused, htype] using Or.inr hnone) hother
    · cases hact
      exact .transacted (.watches htype (by simpa using hidle))

/-- The transitions of {lit}`execute`. -/
theorem acts_execute {h : HandlerId} {request : RespValue} {cmd : Command} {onReply : OnReply}
    (hact : s.execute env h request cmd onReply = (s', r)) :
    Acts env s (.execute h request cmd onReply) s' r := by
  unfold Server.execute at hact
  cases hbody : dataCommand cmd.type with
  | some body =>
      simp only [hbody] at hact
      exact acts_executeData hbody hact
  | none =>
      simp only [hbody] at hact
      have hother : .ok ((s.record (.executed h cmd.type request)).executeOther env h cmd onReply).2 =
          r := congrArg Prod.snd hact
      unfold Server.executeOther at hact
      split at hact
      case h_1 htype =>
        unfold Server.executeMulti at hact
        cases hact
        exact .transacted (.begins htype)
      case h_2 htype =>
        cases hact
        exact acts_executeExec htype rfl
      case h_3 htype =>
        unfold Server.executeDiscard at hact
        split at hact
        · rename_i hidle
          cases hact
          exact .answered hbody (by simpa [Refused, htype] using hidle) (Except.ok.inj hother)
        · rename_i hactive
          cases hact
          exact .transacted (.discards htype (by simpa using hactive))
      case h_4 htype =>
        cases hact
        exact acts_executeWatch htype rfl
      case h_5 htype =>
        unfold Server.executeUnwatch at hact
        split at hact
        · rename_i hargs
          cases hact
          exact .answered hbody (by simpa [Refused, htype] using hargs) (Except.ok.inj hother)
        · rename_i hargs
          cases hact
          exact .transacted (.unwatches htype (by simpa using hargs))
      case h_6 htype =>
        have hrefused : Refused (s.transactions h) cmd := by simp [Refused, htype]
        unfold Server.executeWait at hact
        split at hact
        · cases hact
          exact .answered hbody hrefused (Except.ok.inj hother)
        · cases hact
          exact .answered hbody hrefused (Except.ok.inj hother)
        · rename_i wait _
          cases hact
          exact .polls htype wait
      case h_7 htype =>
        cases hact
        exact .answered hbody (by simp [Refused, htype]) (Except.ok.inj hother)
      case h_8 htype =>
        cases hact
        exact .answered hbody (by simp [Refused, htype]) (Except.ok.inj hother)
      case h_9 htype =>
        cases hact
        exact .answered hbody (by simp [Refused, htype]) (Except.ok.inj hother)
      case h_10 hmulti hexec hdiscard hwatch hunwatch hwait hinfo hreplconf hpsync =>
        cases hact
        refine .answered hbody ?_ (Except.ok.inj hother)
        unfold Refused
        split
        · rename_i htype
          exact hmulti htype
        · rename_i htype
          exact absurd htype hexec
        · rename_i htype
          exact absurd htype hdiscard
        · rename_i htype
          exact absurd htype hwatch
        · rename_i htype
          exact absurd htype hunwatch
        · trivial

/-- The transitions of {lit}`reply`. -/
theorem acts_reply {onReply : OnReply} {response : Bytes}
    (hact : s.reply onReply response = (s', r)) :
    Acts env s (.reply onReply response) s' r := by
  unfold Server.reply at hact
  split at hact
  · cases hact
    exact .written _ response
  · cases hact
    exact .dropped response
  · cases hact
    exact .propagated _ _ response
  · unfold Server.execCallback at hact
    split at hact
    · rename_i hcontext
      cases hact
      exact .overrun (by simp [hcontext]) _ _ response
    · rename_i c hcontext
      split at hact
      · rename_i hindex
        cases hact
        exact .collected hcontext hindex _ _ response
      · rename_i hindex
        cases hact
        refine .overrun ?_ _ _ response
        intro c' hc'
        rw [hcontext] at hc'
        cases hc'
        exact Nat.le_of_not_lt hindex

/-- The transitions of {lit}`run_next`. -/
theorem acts_runNext {context : Nat} (hact : s.runNext context = (s', r)) :
    Acts env s (.runNext context) s' r := by
  unfold Server.runNext at hact
  split at hact
  · cases hact
    exact .stuck context
  · rename_i hcontext
    split at hact
    · rename_i hindex
      cases hact
      exact .finished hcontext hindex
    · split at hact
      · cases hact
        exact .stuck context
      · rename_i hrequest
        split at hact
        · rename_i e hparse
          have he : e = .rangeCheck 0 0 := by
            unfold parseCommand at hparse
            split at hparse
            · cases hparse
              rfl
            · cases hparse
          cases hact
          rw [he]
          exact .stuck context
        · rename_i hparse
          split at hact
          · rename_i hfind
            cases hact
            exact .next hcontext hrequest hparse hfind
          · rename_i hfind
            cases hact
            exact .skipped hcontext hrequest hparse (by simpa using hfind)

/-- The transitions of a round of {lit}`serve_blpop_waiters`. -/
theorem acts_serveBlpop (env : Env) (s : Server) (key : Bytes) :
    Acts env s (.serveBlpop key) (s.serveBlpop key).1 (.ok (s.serveBlpop key).2) := by
  unfold Server.serveBlpop
  split
  · rename_i hwaiters
    exact .unawaited hwaiters
  · rename_i hwaiters
    split
    · rename_i hpop
      exact .served hwaiters hpop
    · rename_i hpop
      exact .unserved hwaiters (Or.inl hpop)
    · rename_i hpop
      exact .unserved hwaiters (Or.inr ⟨by simp [hpop, Except.isOk, Except.toBool], rfl⟩)

/-- The transitions of {lit}`poll`. -/
theorem acts_pollWait (env : Env) (s : Server) (wait : Nat) :
    Acts env s (.waitPoll wait) (s.pollWait env wait).1 (.ok (s.pollWait env wait).2) := by
  unfold Server.pollWait
  split
  · rename_i hwait
    exact .unknownWait hwait
  · rename_i hwait
    split
    · rename_i hpoll
      exact .counted hwait hpoll
    · exact .waits hwait

/-- What a task can do. -/
theorem acts_of_act {task : Task} (hact : s.act env task = (s', r)) : Acts env s task s' r := by
  cases task with
  | handle h request number => exact acts_handle hact
  | execute h request cmd onReply => exact acts_execute hact
  | reply onReply response => exact acts_reply hact
  | tryEnd onReply =>
      cases hact
      exact .passed onReply
  | serveBlpop key =>
      cases hact
      exact acts_serveBlpop env s key
  | serveXread key =>
      cases hact
      exact .copied key
  | wakeXread registration =>
      rcases registration with ⟨id, callback⟩
      simp only [Server.act, Server.wakeXread] at hact
      cases hread : s.data.xread callback.streams with
      | ok results =>
          simp only [hread, Except.map] at hact
          cases hact
          exact .woke hread
      | error e =>
          simp only [hread, Except.map] at hact
          cases hact
          exact .wokeThrew hread
  | runNext context => exact acts_runNext hact
  | waitPoll wait =>
      cases hact
      exact acts_pollWait env s wait

/-- Commands that control the transaction are not on the keyspace. -/
theorem dataCommand_of_controls {type : CommandType}
    (h : Server.isTransactionCommand type = true) : dataCommand type = none := by
  cases type <;> first | rfl | cases h

/-- A command on the keyspace that does not throw. -/
theorem act_execute_data {h : HandlerId} {request : RespValue} {cmd : Command} {onReply : OnReply}
    {body : Command → Reading → Store → CommandResult} (hbody : dataCommand cmd.type = some body)
    {d : Store} {outcome : Outcome}
    (hresult : body cmd (env.reading s.readings) s.data = (d, .ok outcome)) :
    s.act env (.execute h request cmd onReply) =
      ((((s.withData d).record (.executed h cmd.type request)).settle onReply outcome).1,
        .ok (((s.withData d).record (.executed h cmd.type request)).settle onReply outcome).2) := by
  simp [Server.act, Server.execute, hbody, Server.executeData, hresult]

/-! ## The store thread -/

/-- The transitions of the store thread. -/
inductive Moves (env : Env) : StoreThread → Event → StoreThread → Prop
  /-- A request is taken up. -/
  | request (s : Server) (h : HandlerId) (request : Request) :
      Moves env ⟨s, []⟩ (.request h request)
        ⟨s.countRequest, [.handle h request.value s.requests]⟩
  /-- There is nothing to do. -/
  | idle (s : Server) : Moves env ⟨s, []⟩ .tick ⟨s, []⟩
  /-- The topmost task calls further tasks. -/
  | calls {s s' : Server} {task : Task} {new : List Task} (stack : List Task)
      (hact : s.act env task = (s', .ok new)) :
      Moves env ⟨s, task :: stack⟩ .tick ⟨s', new ++ stack⟩
  /-- The topmost task throws, and the innermost {lit}`catch` clause replies. -/
  | throws {s s' : Server} {task : Task} {e : Exception} (above : List Task) (onReply : OnReply)
      (below : List Task) (hact : s.act env task = (s', .error e)) :
      Moves env ⟨s, task :: (above ++ .tryEnd onReply :: below)⟩ .tick
        ⟨s', .reply onReply (exceptionReply e) :: below⟩
  /-- A timer expires. -/
  | expires {s : Server} {i : Nat} {timer : Timer} (stack : List Task)
      (htimer : s.timers[i]? = some timer) (harmed : timer.status = .armed) :
      Moves env ⟨s, stack⟩ (.expire i)
        ⟨s.setTimer i { timer with status := .queued }, stack⟩
  /-- The handler of an expired timer is taken up. -/
  | timeout {s : Server} {i : Nat} {timer : Timer} (htimer : s.timers[i]? = some timer)
      (hqueued : timer.status = .queued) :
      Moves env ⟨s, []⟩ (.timeout i) (StoreThread.onTimeout s i timer)
  /-- The poll timer of a {lit}`WAIT` fires. -/
  | poll {s : Server} {i : Nat} {w : WaitState} (hwait : s.waits[i]? = some w)
      (hactive : w.active = true) : Moves env ⟨s, []⟩ (.poll i) ⟨s, [.waitPoll i]⟩
  /-- A replica is registered. -/
  | attach (s : Server) (stack : List Task) :
      Moves env ⟨s, stack⟩ .attach ⟨s.setReplicas s.replicas.add.1, stack⟩
  /-- A replica is removed. -/
  | detach (s : Server) (stack : List Task) (id : Nat) :
      Moves env ⟨s, stack⟩ (.detach id) ⟨s.setReplicas (s.replicas.remove id), stack⟩
  /-- An acknowledgement is recorded. -/
  | ack (s : Server) (stack : List Task) (id : Nat) (offset : Int) :
      Moves env ⟨s, stack⟩ (.ack id offset)
        ⟨s.setReplicas (s.replicas.recordAck id offset), stack⟩

/-- Only the end of a {lit}`try` block handles exceptions. -/
theorem handler_eq_some {task : Task} {e : Exception} {new : List Task}
    (h : task.handler e = some new) :
    ∃ onReply, task = .tryEnd onReply ∧ new = [.reply onReply (exceptionReply e)] := by
  cases task with
  | tryEnd onReply =>
      cases h
      exact ⟨onReply, rfl, rfl⟩
  | _ => contradiction

/-- The topmost task calls further tasks. -/
theorem step_tick {s' : Server} {task : Task} {new : List Task}
    (hact : s.act env task = (s', .ok new)) (stack : List Task) :
    StoreThread.step env ⟨s, task :: stack⟩ .tick = some ⟨s', new ++ stack⟩ := by
  rw [StoreThread.step, CallStack.step_cons_ok hact]
  rfl

/-- The transitions of {lit}`tick`. -/
theorem moves_tick {t t' : StoreThread} (h : t.step env .tick = some t') :
    Moves env t .tick t' := by
  rcases t with ⟨s, stack⟩
  rw [StoreThread.step, Option.map_eq_some_iff] at h
  rcases h with ⟨⟨s', stack'⟩, hstep, rfl⟩
  cases stack with
  | nil =>
      cases hstep
      exact .idle s
  | cons task stack =>
      rcases CallStack.step_cons hstep with ⟨new, hact, rfl⟩ | ⟨e, hact, hunwind⟩
      · exact .calls stack hact
      · rcases CallStack.unwind_eq_some hunwind with
          ⟨above, handler, new, below, rfl, hhandler, rfl⟩
        rcases handler_eq_some hhandler with ⟨onReply, rfl, rfl⟩
        exact .throws above onReply below hact

/-- What an event can do. -/
theorem moves_of_step {t t' : StoreThread} {event : Event} (h : t.step env event = some t') :
    Moves env t event t' := by
  cases event with
  | tick => exact moves_tick h
  | request handler request =>
      rcases t with ⟨s, stack⟩
      simp only [StoreThread.step] at h
      split at h
      · rename_i hstack
        cases hstack
        cases h
        exact .request s handler request
      · contradiction
  | expire i =>
      rcases t with ⟨s, stack⟩
      simp only [StoreThread.step] at h
      split at h
      · rename_i htimer
        split at h
        · rename_i harmed
          cases h
          exact .expires stack htimer harmed
        · contradiction
      · contradiction
  | timeout i =>
      rcases t with ⟨s, stack⟩
      simp only [StoreThread.step] at h
      split at h
      · rename_i htimer
        split at h
        · rename_i hqueued
          rcases hqueued with ⟨hqueued, hstack⟩
          cases hstack
          cases h
          exact .timeout htimer hqueued
        · contradiction
      · contradiction
  | poll i =>
      rcases t with ⟨s, stack⟩
      simp only [StoreThread.step] at h
      split at h
      · rename_i hwait
        split at h
        · rename_i hactive
          rcases hactive with ⟨hactive, hstack⟩
          cases hstack
          cases h
          exact .poll hwait hactive
        · contradiction
      · contradiction
  | attach =>
      cases h
      exact .attach t.server t.stack
  | detach id =>
      cases h
      exact .detach t.server t.stack id
  | ack id offset =>
      cases h
      exact .ack t.server t.stack id offset

/-! ## What is left alone -/

/-- What a command on the keyspace calls. -/
theorem mem_settle {s : Server} {onReply : OnReply} {outcome : Outcome} {task : Task}
    (h : task ∈ (s.settle onReply outcome).2) :
    (∃ key, task = .serveBlpop key) ∨ (∃ key, task = .serveXread key) ∨
      (∃ response, task = .reply onReply response) ∨ task = .tryEnd onReply := by
  cases outcome with
  | answer a =>
      simp only [Server.settle, List.mem_append, List.mem_cons] at h
      rcases h with h | rfl | h
      · cases hwake : a.wake with
        | none => simp [hwake, Server.wakeTasks] at h
        | some wake =>
            cases wake with
            | blpop key =>
                simp only [hwake, Server.wakeTasks, List.mem_singleton] at h
                exact Or.inl ⟨key, h⟩
            | xread key =>
                simp only [hwake, Server.wakeTasks, List.mem_singleton] at h
                exact Or.inr (Or.inl ⟨key, h⟩)
      · exact Or.inr (Or.inr (Or.inl ⟨_, rfl⟩))
      · split at h
        · exact Or.inr (Or.inr (Or.inr (List.mem_singleton.mp h)))
        · contradiction
  | blockBlpop => contradiction
  | blockXread => contradiction

/-- What follows a command on the keyspace leaves the data alone. -/
@[simp]
theorem settle_data (s : Server) (onReply : OnReply) (outcome : Outcome) :
    (s.settle onReply outcome).1.data = s.data := by
  cases outcome with
  | answer a =>
      simp only [Server.settle]
      split <;> rfl
  | _ => rfl

/-- It adds nothing to the history. -/
@[simp]
theorem settle_trace (s : Server) (onReply : OnReply) (outcome : Outcome) :
    (s.settle onReply outcome).1.trace = s.trace := by
  cases outcome with
  | answer a =>
      simp only [Server.settle]
      split <;> rfl
  | _ => rfl

/-- It leaves the replicas alone. -/
@[simp]
theorem settle_replicas (s : Server) (onReply : OnReply) (outcome : Outcome) :
    (s.settle onReply outcome).1.replicas = s.replicas := by
  cases outcome with
  | answer a =>
      simp only [Server.settle]
      split <;> rfl
  | _ => rfl

/-- It leaves every running {lit}`EXEC` alone. -/
@[simp]
theorem settle_contexts (s : Server) (onReply : OnReply) (outcome : Outcome) :
    (s.settle onReply outcome).1.contexts = s.contexts := by
  cases outcome with
  | answer a =>
      simp only [Server.settle]
      split <;> rfl
  | _ => rfl

/-- It leaves the watched keys alone. -/
@[simp]
theorem settle_watches (s : Server) (onReply : OnReply) (outcome : Outcome) :
    (s.settle onReply outcome).1.watches = s.watches := by
  cases outcome with
  | answer a =>
      simp only [Server.settle]
      split <;> rfl
  | _ => rfl

@[simp]
theorem onTimeout_data (s : Server) (i : Nat) (timer : Timer) :
    (StoreThread.onTimeout s i timer).server.data = s.data := by
  unfold StoreThread.onTimeout
  split <;> rfl

@[simp]
theorem onTimeout_trace (s : Server) (i : Nat) (timer : Timer) :
    (StoreThread.onTimeout s i timer).server.trace = s.trace := by
  unfold StoreThread.onTimeout
  split <;> rfl

@[simp]
theorem onTimeout_replicas (s : Server) (i : Nat) (timer : Timer) :
    (StoreThread.onTimeout s i timer).server.replicas = s.replicas := by
  unfold StoreThread.onTimeout
  split <;> rfl

@[simp]
theorem onTimeout_contexts (s : Server) (i : Nat) (timer : Timer) :
    (StoreThread.onTimeout s i timer).server.contexts = s.contexts := by
  unfold StoreThread.onTimeout
  split <;> rfl

@[simp]
theorem onTimeout_transactions (s : Server) (i : Nat) (timer : Timer) :
    (StoreThread.onTimeout s i timer).server.transactions = s.transactions := by
  unfold StoreThread.onTimeout
  split <;> rfl

@[simp]
theorem onTimeout_watches (s : Server) (i : Nat) (timer : Timer) :
    (StoreThread.onTimeout s i timer).server.watches = s.watches := by
  unfold StoreThread.onTimeout
  split <;> rfl

/-- A task only adds to the history. -/
theorem trace_subset_acts {s s' : Server} {task : Task} {r : Except Exception (List Task)}
    (hacts : Acts env s task s' r) : s.trace ⊆ s'.trace := by
  cases hacts with
  | ran hbody hresult => simp
  | polls htype wait => simp
  | propagated number raw response => simp
  | collected hcontext hindex type request response => split <;> simp
  | rejected | queued | controls | dispatched | answered | transacted | started | written => simp
  | _ => exact List.Subset.refl _

end RedisClone
