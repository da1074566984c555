import RedisClone.Server.Coherence

/-!
# The transaction of a connection

Whether a connection is inside a transaction, and what it has queued, is kept in the transaction
manager of its handler.  Commands of other connections, served waiters, timeouts and the queues
of running {lit}`EXEC`s go through the same dispatcher and the same objects; they can mark the
transaction as dirty, and nothing else.

Main results:

- Theorem {lit}`pending_step`: an event changes the transaction of a handler only by a request of
  that handler.
- Theorem {lit}`transaction_of_own_requests`: in every run, the transaction of a handler is a
  function of the requests that the handler was sent.
-/

namespace RedisClone

variable {env : Env}

/-! ## The transaction as a function of the requests -/

/-- Whether a handler is inside a transaction, and what it has queued. -/
abbrev TransactionView := Bool × List RespValue

/-- What the commands that control transactions do. -/
def controlStep (view : TransactionView) : CommandType → TransactionView
  | .multi => (true, [])
  | .exec | .discard => if view.1 then (false, []) else view
  | _ => view

/-- What a request does to the transaction of its own handler. -/
def requestStep (kind : RegistryKind) (view : TransactionView) (request : RespValue) :
    TransactionView :=
  if request.type ≠ .array ∨ request.elements = [] then view
  else if Server.isTransactionCommand (requestType request) then
    if findCommand kind (requestType request) ∧ ¬ (requestType request = .multi ∧ view.1) then
      controlStep view (requestType request)
    else view
  else if view.1 then (true, view.2 ++ [request])
  else view

/-- The requests that a handler is sent. -/
def sentTo (h : HandlerId) (events : List Event) : List RespValue :=
  events.filterMap fun
    | .request handler request => if handler = h then some request.value else none
    | _ => none

/-- The transaction of a handler. -/
def Server.view (s : Server) (h : HandlerId) : TransactionView :=
  ((s.transactions h).inTransaction, (s.transactions h).queuedCommands)

/-- What a task that has not run yet is going to do to the transaction of a handler. -/
def Task.effect (h : HandlerId) (view : TransactionView) : Task → TransactionView
  | .handle handler request _ => if handler = h then requestStep h.kind view request else view
  | .execute handler _ cmd _ =>
      if handler = h ∧ Server.isTransactionCommand cmd.type then controlStep view cmd.type
      else view
  | _ => view

/-- The transaction of a handler once the tasks on the stack have run. -/
def StoreThread.pending (t : StoreThread) (h : HandlerId) : TransactionView :=
  t.stack.foldl (Task.effect h) (t.server.view h)

/-! ## One task -/

section Tasks

variable {s s' : Server} {task : Task} {new stack : List Task} {h : HandlerId}

/-- A task that may not change a transaction does not. -/
theorem Task.effect_of_mayControl (htask : task.mayControl h = false) (view : TransactionView) :
    task.effect h view = view := by
  cases task with
  | handle handler request number =>
      exact if_neg (by simpa [Task.mayControl] using htask)
  | execute handler request cmd onReply =>
      refine if_neg ?_
      simpa [Task.mayControl] using htask
  | _ => rfl

/-- A stack of such tasks does not change it either. -/
theorem foldl_effect_of_mayControl (hstack : ∀ task ∈ stack, task.mayControl h = false)
    (view : TransactionView) : stack.foldl (Task.effect h) view = view := by
  induction stack generalizing view with
  | nil => rfl
  | cons task stack ih =>
      rw [List.foldl_cons, Task.effect_of_mayControl (hstack task List.mem_cons_self)]
      exact ih (fun task' hmem => hstack task' (List.mem_cons_of_mem _ hmem)) view

/-- Behind a command on the keyspace: the transaction may have become dirty. -/
theorem view_settle (s : Server) (onReply : OnReply) (outcome : Outcome) (h : HandlerId) :
    (s.settle onReply outcome).1.view h = s.view h := by
  cases outcome with
  | answer a =>
      simp only [Server.settle]
      split
      · simp only [Server.view, Server.notifyWrite_transactions]
        split <;> rfl
      · rfl
  | blockBlpop keys timeout => rfl
  | blockXread streams timeout => rfl

/-- A change of another handler's transaction. -/
theorem view_setTransaction_of_ne {handler : HandlerId} (hne : h ≠ handler) (s : Server)
    (change : TransactionManager × WatchManager HandlerId) :
    (s.setTransaction handler change).view h = s.view h := by
  simp only [Server.view, Server.setTransaction_transactions, Function.update_of_ne hne]

/-- A change of the handler's own transaction. -/
theorem view_setTransaction_self (s : Server) (h : HandlerId)
    (change : TransactionManager × WatchManager HandlerId) :
    (s.setTransaction h change).view h = (change.1.inTransaction, change.1.queuedCommands) := by
  simp only [Server.view, Server.setTransaction_transactions, Function.update_self]

/-- A task that may not change the transaction of a handler leaves it alone. -/
theorem view_acts {r : Except Exception (List Task)} (htask : task.mayControl h = false)
    (hacts : Acts env s task s' r) : s'.view h = s.view h := by
  cases hacts with
  | @queued handler request cmd number hformat hparse htype hactive =>
      have hother : h ≠ handler := fun heq => by simp [Task.mayControl, heq] at htask
      exact view_setTransaction_of_ne hother _ _
  | ran hbody hresult => exact view_settle _ _ _ h
  | @transacted handler request cmd onReply change response hchange =>
      have hother : h ≠ handler := fun heq => by
        simp [Task.mayControl, heq, hchange.isTransactionCommand] at htask
      exact view_setTransaction_of_ne hother _ _
  | @started handler request cmd onReply htype hactive hclean hqueue =>
      have hother : h ≠ handler := fun heq => by
        simp [Task.mayControl, heq, htype, Server.isTransactionCommand] at htask
      exact view_setTransaction_of_ne hother _ _
  | collected hcontext hindex type request response => split <;> rfl
  | _ => rfl

/-- The loop of {lit}`WATCH` changes the watched keys only. -/
theorem view_watchKeys (h : HandlerId) (state : TransactionManager × WatchManager HandlerId)
    (keys : List Bytes) :
    (Server.watchKeys h state keys).1.inTransaction = state.1.inTransaction ∧
      (Server.watchKeys h state keys).1.queuedCommands = state.1.queuedCommands := by
  refine ⟨?_, queuedCommands_watchKeys h state keys⟩
  unfold Server.watchKeys
  induction keys generalizing state with
  | nil => rfl
  | cons key keys ih =>
      rw [List.foldl_cons, ih]
      split
      · simp only [TransactionManager.watchKey, TransactionManager.associateWatchId]
        split <;> rfl
      · rfl

/-- A command that controls the transaction of the handler does what it is for. -/
theorem view_execute {request : RespValue} {cmd : Command} {onReply : OnReply}
    (htype : Server.isTransactionCommand cmd.type = true)
    (hacts : Acts env s (.execute h request cmd onReply) s' (.ok new)) :
    s'.view h = controlStep (s.view h) cmd.type ∧ ∀ task ∈ new, task.mayControl h = false := by
  have hnodata : dataCommand cmd.type = none := dataCommand_of_controls htype
  cases hacts with
  | ran hbody hresult =>
      rw [hnodata] at hbody
      contradiction
  | answered hbody hrefused hother =>
      refine ⟨?_, fun task hmem => ?_⟩
      · unfold Refused at hrefused
        show s.view h = _
        simp only [Server.view]
        cases hcmd : cmd.type <;> rw [hcmd] at hrefused htype <;>
          simp_all [controlStep, Server.isTransactionCommand]
      · rw [List.mem_singleton.mp hmem]
        rfl
  | transacted hchange =>
      refine ⟨?_, fun task hmem => ?_⟩
      · rw [view_setTransaction_self]
        cases hchange with
        | begins hcmd =>
            rw [hcmd]
            rfl
        | aborts hcmd hactive hdirty =>
            rw [hcmd]
            simp [controlStep, Server.view, hactive, TransactionManager.reset,
              TransactionManager.finishTransaction]
        | empties hcmd hactive hclean =>
            rw [hcmd]
            simp [controlStep, Server.view, hactive, TransactionManager.reset,
              TransactionManager.finishTransaction]
        | discards hcmd hactive =>
            rw [hcmd]
            simp [controlStep, Server.view, hactive, TransactionManager.reset,
              TransactionManager.finishTransaction]
        | watches hcmd hidle =>
            rw [hcmd, (view_watchKeys h _ cmd.args).1, (view_watchKeys h _ cmd.args).2]
            rfl
        | unwatches hcmd hargs =>
            rw [hcmd]
            rfl
      · rw [List.mem_singleton.mp hmem]
        rfl
  | started hcmd hactive hclean hqueue =>
      refine ⟨?_, fun task hmem => ?_⟩
      · show ((s.record _).setTransaction h _).view h = _
        rw [view_setTransaction_self, hcmd]
        simp [controlStep, Server.view, hactive, TransactionManager.reset,
          TransactionManager.finishTransaction]
      · rw [List.mem_singleton.mp hmem]
        rfl
  | polls hcmd wait =>
      rw [hcmd] at htype
      contradiction

/-- The handling of a request by its handler. -/
theorem view_handle {request : RespValue} {number : Nat}
    (hact : s.handle h request number = (s', .ok new)) :
    new.foldl (Task.effect h) (s'.view h) = requestStep h.kind (s.view h) request := by
  unfold Server.handle at hact
  unfold requestStep
  split at hact
  · rename_i hformat
    cases hact
    rw [if_pos hformat]
    rfl
  · rename_i hformat
    rw [if_neg hformat]
    cases hparse : parseCommand request with
    | error e =>
        rw [hparse] at hact
        cases hact
    | ok cmd =>
        rw [hparse] at hact
        rw [requestType_of_parse hparse]
        have hview : (s.record (.handled number h request)).view h = s.view h := rfl
        have hactive : ((s.record (.handled number h request)).transactions h).inTransaction =
            (s.view h).1 := rfl
        simp only [Server.dispatch, hactive] at hact
        by_cases htype : Server.isTransactionCommand cmd.type = true
        · rw [if_pos htype] at hact ⊢
          by_cases hfind : findCommand h.kind cmd.type = true
          · rw [if_pos hfind] at hact
            by_cases hnested : cmd.type = .multi ∧ (s.view h).1 = true
            · rw [if_pos hnested] at hact
              cases hact
              rw [if_neg (fun hboth => hboth.2 hnested)]
              exact hview
            · rw [if_neg hnested] at hact
              cases hact
              rw [if_pos ⟨hfind, hnested⟩]
              simp [Task.effect, htype, hview]
          · rw [if_neg hfind] at hact
            cases hact
            rw [if_neg (fun hboth => hfind hboth.1)]
            exact hview
        · rw [if_neg htype] at hact ⊢
          by_cases hinside : (s.view h).1 = true
          · rw [if_pos hinside] at hact ⊢
            cases hact
            simp only [List.foldl_cons, List.foldl_nil, Task.effect, view_setTransaction_self]
            exact Prod.ext hinside rfl
          · rw [if_neg hinside] at hact ⊢
            split at hact
            · cases hact
              simp [Task.effect, htype, hview]
            · cases hact
              exact hview

end Tasks

/-! ## Runs -/

section Runs

variable {t t' : StoreThread} {event : Event} {h : HandlerId}

/-- A task on a stack of several tasks may not change a transaction. -/
theorem Alone.mayControl_eq_false (halone : Alone t) {task other : Task} {rest : List Task}
    (hstack : t.stack = task :: other :: rest) {task' : Task} (hmem : task' ∈ t.stack) :
    task'.mayControl h = false := by
  by_contra hcontrol
  have hsingle := halone h task' hmem (by simpa using hcontrol)
  rw [hstack] at hsingle
  simp at hsingle

/-- An event changes the transaction of a handler only if it is a request of that handler. -/
theorem pending_step (hcoherent : Coherent t) (hstep : t.step env event = some t') :
    t'.pending h = (sentTo h [event]).foldl (requestStep h.kind) (t.pending h) := by
  have halone := hcoherent.alone
  have hfrom := hcoherent.requests
  cases moves_of_step hstep with
  | request s handler request =>
      simp only [StoreThread.pending, List.foldl_cons, List.foldl_nil, Task.effect, sentTo,
        List.filterMap_cons, List.filterMap_nil]
      by_cases heq : handler = h
      · rw [if_pos heq, if_pos heq]
        rfl
      · rw [if_neg heq, if_neg heq]
        rfl
  | idle s => rfl
  | @calls s s' task new stack hact =>
      show (new ++ stack).foldl (Task.effect h) (s'.view h) =
        (task :: stack).foldl (Task.effect h) (s.view h)
      have hacts := acts_of_act hact
      by_cases hcontrol : task.mayControl h = true
      · have hsingle := halone h task List.mem_cons_self hcontrol
        simp only [List.cons.injEq, true_and] at hsingle
        subst hsingle
        rw [List.append_nil, List.foldl_cons, List.foldl_nil]
        cases task with
        | handle handler request number =>
            have heq : handler = h := by simpa [Task.mayControl] using hcontrol
            subst heq
            rw [view_handle hact, Task.effect, if_pos rfl]
        | execute handler request cmd onReply =>
            simp only [Task.mayControl, Bool.and_eq_true, decide_eq_true_eq] at hcontrol
            rcases hcontrol with ⟨heq, htype⟩
            subst heq
            rcases view_execute htype hacts with ⟨hview, hnew⟩
            rw [foldl_effect_of_mayControl hnew, hview, Task.effect, if_pos ⟨rfl, htype⟩]
        | _ => contradiction
      · have htask : task.mayControl h = false := by simpa using hcontrol
        have hrest : ∀ task' ∈ stack, task'.mayControl h = false := by
          intro task' hmem
          cases hstack : stack with
          | nil =>
              rw [hstack] at hmem
              contradiction
          | cons other rest =>
              exact halone.mayControl_eq_false (by rw [hstack]) (List.mem_cons_of_mem _ hmem)
        rw [foldl_effect_of_mayControl, foldl_effect_of_mayControl, view_acts htask hacts]
        · intro task' hmem
          rcases List.mem_cons.mp hmem with rfl | hmem
          · exact htask
          · exact hrest task' hmem
        · intro task' hmem
          rcases List.mem_append.mp hmem with hmem | hmem
          · exact Host.mayControl_acts hfrom.server htask hacts task' hmem
          · exact hrest task' hmem
  | @throws s s' task e above onReply below hact =>
      show (Task.reply onReply (exceptionReply e) :: below).foldl (Task.effect h) (s'.view h) =
        (task :: (above ++ .tryEnd onReply :: below)).foldl (Task.effect h) (s.view h)
      have hnone : ∀ task' ∈ task :: (above ++ .tryEnd onReply :: below),
          task'.mayControl h = false := by
        intro task' hmem
        cases habove : above ++ .tryEnd onReply :: below with
        | nil => simp at habove
        | cons other rest => exact halone.mayControl_eq_false (by rw [habove]) hmem
      rw [foldl_effect_of_mayControl hnone, List.foldl_cons, foldl_effect_of_mayControl,
        view_acts (hnone task List.mem_cons_self) (acts_of_act hact)]
      · rfl
      · exact fun task' hmem => hnone task' (by simp [hmem])
  | expires stack htimer harmed => rfl
  | @timeout s i timer htimer hqueued =>
      rcases timer with ⟨kind, registration, onReply, status⟩
      cases kind <;> rfl
  | poll hwait hactive => rfl
  | attach | detach | ack => rfl

/-- The transaction of a handler behind a sequence of events. -/
theorem pending_run {events : List Event} (hcoherent : Coherent t)
    (hrun : t.run env events = some t') :
    t'.pending h = (sentTo h events).foldl (requestStep h.kind) (t.pending h) := by
  induction events generalizing t with
  | nil =>
      cases hrun
      rfl
  | cons event events ih =>
      rcases Execution.follow_cons hrun with ⟨m, hone, hrest⟩
      have hsplit : sentTo h (event :: events) = sentTo h [event] ++ sentTo h events := by
        unfold sentTo
        rw [← List.filterMap_append]
        rfl
      rw [ih (coherent_step hcoherent hone) hrest, pending_step hcoherent hone, hsplit,
        List.foldl_append]

end Runs

/-- Whether a connection is inside a transaction, and what it has queued, is in every run and for
every interleaving of requests, timeouts, wake-ups and running {lit}`EXEC`s the same function of
the requests that its own handler was sent. -/
theorem transaction_of_own_requests {registry : ReplicaRegistry} {events : List Event}
    {t : StoreThread} (hrun : (StoreThread.withReplicas registry).run env events = some t)
    (hidle : t.Idle) (h : HandlerId) :
    ((t.server.transactions h).inTransaction, (t.server.transactions h).queuedCommands) =
      (sentTo h events).foldl (requestStep h.kind) (false, []) := by
  have hpending := @pending_run env _ t h events (coherent_initial registry) hrun
  have hstack : t.stack = [] := hidle
  rw [StoreThread.pending, hstack] at hpending
  exact hpending

/-- A client queues a command inside a transaction while another one changes the key that it
watches. -/
def interleavedClients : List Event :=
  job 0 (.short (ascii "WATCH") [ascii "k"] (Eq.refl true)) 3 ++
    job 0 (.short (ascii "MULTI") [] (Eq.refl true)) 3 ++
    job 1 (.short (ascii "SET") [ascii "k", ascii "v"] (Eq.refl true)) 3 ++
    job 0 (.short (ascii "GET") [ascii "k"] (Eq.refl true)) 3

/-- The transaction is the one of the client's own requests. -/
theorem transaction_of_own_requests_interleaved :
    ∃ t, (StoreThread.withReplicas .empty).run sampleEnv interleavedClients = some t ∧
      (t.server.transactions (.client 0)).dirty = true ∧
      ((t.server.transactions (.client 0)).inTransaction,
        (t.server.transactions (.client 0)).queuedCommands) =
        (true, [.array [.bulkString (ascii "GET"), .bulkString (ascii "k")]]) := by
  have hdone : ((StoreThread.withReplicas .empty).run sampleEnv interleavedClients).map
      (fun t => (t.stack, (t.server.transactions (.client 0)).dirty)) = some ([], true) := by
    decide +kernel
  rcases Option.map_eq_some_iff.mp hdone with ⟨t, ht, heq⟩
  simp only [Prod.mk.injEq] at heq
  refine ⟨t, ht, heq.2, ?_⟩
  rw [transaction_of_own_requests ht heq.1 (.client 0)]
  decide +kernel

end RedisClone
