import RedisClone.Server.Provenance

/-!
# Propagation of write commands

A write command is propagated when it calls back: by the dispatcher's wrapped
reply if it was executed directly, by the callback of {lit}`run_next` if an
{lit}`EXEC` executed it.  Between the execution and the callback a command may
wake blocked clients, and a woken {lit}`EXEC` goes on with its queue there.  As
long as no write command starts and no exception is thrown in between, the bytes
handed to a replica are the write commands in the order of their execution.

Main results:

- Theorem {lit}`accounted_step`: what was handed out and what the stack owes is
  what was executed.
- Theorem {lit}`propagation_exact`: propagation is exact in every run that is not
  disturbed in this way.
- Theorem {lit}`propagation_out_of_order`: a run in which a suspended
  {lit}`EXEC` is resumed inside {lit}`XADD`.
-/

namespace RedisClone

open RespValue

/-! ## Observations -/

/-- The bytes handed to a replica. -/
def handedTo (id : Nat) (trace : List TraceEntry) : Bytes :=
  trace.flatMap fun entry =>
    match entry with
    | .propagated raw replicas => if id ∈ replicas then raw else []
    | _ => []

/-- The write commands that were executed, in order. -/
def executedWrites (trace : List TraceEntry) : List RespValue :=
  trace.filterMap fun entry =>
    match entry with
    | .executed _ type request => if isWriteCommand type then some request else none
    | _ => none

/-- What a callback propagates. -/
def OnReply.owes : OnReply → Bytes
  | .propagating _ raw => raw
  | .exec _ type request => if isWriteCommand type then serialize request else []
  | _ => []

/-- What a task propagates itself. -/
def Task.owes : Task → Bytes
  | .reply onReply _ => onReply.owes
  | _ => []

/-- What the write commands that ran and have not called back will propagate. -/
def owed (stack : List Task) : Bytes :=
  stack.flatMap Task.owes

/-- The write command that a task executes. -/
def Task.starts : Task → List RespValue
  | .execute _ request cmd _ => if isWriteCommand cmd.type then [request] else []
  | _ => []

/-- While a write command that ran has still to call back, no write command
starts and no exception is thrown. -/
def Undisturbed (env : Env) (t : StoreThread) : Event → Prop
  | .tick =>
      match t.stack with
      | [] => True
      | task :: rest =>
          (owed rest ≠ [] → task.starts = []) ∧
            (owed (task :: rest) ≠ [] → (t.server.act env task).2.isOk = true)
  | _ => True

/-- A request of a connection that is neither {lit}`BLPOP` nor {lit}`WAIT`. -/
def Prompt (h : HandlerId) (request : RespValue) : Prop :=
  h ≠ .session ∧ requestType request ≠ .blpop ∧ requestType request ≠ .wait

/-- The replica is not removed. -/
def Event.Keeps (id : Nat) : Event → Prop
  | .detach replica => replica ≠ id
  | _ => True

@[simp]
theorem handedTo_append (id : Nat) (first second : List TraceEntry) :
    handedTo id (first ++ second) = handedTo id first ++ handedTo id second :=
  List.flatMap_append

@[simp]
theorem executedWrites_append (first second : List TraceEntry) :
    executedWrites (first ++ second) = executedWrites first ++ executedWrites second :=
  List.filterMap_append

@[simp]
theorem handedTo_nil (id : Nat) : handedTo id [] = [] :=
  rfl

@[simp]
theorem handedTo_cons (id : Nat) (entry : TraceEntry) (trace : List TraceEntry) :
    handedTo id (entry :: trace) =
      (match entry with
        | .propagated raw replicas => if id ∈ replicas then raw else []
        | _ => []) ++ handedTo id trace :=
  List.flatMap_cons

@[simp]
theorem executedWrites_nil : executedWrites [] = [] :=
  rfl

@[simp]
theorem executedWrites_cons (entry : TraceEntry) (trace : List TraceEntry) :
    executedWrites (entry :: trace) =
      (match entry with
        | .executed _ type request => if isWriteCommand type then [request] else []
        | _ => []) ++ executedWrites trace := by
  cases entry with
  | executed handler type request =>
      by_cases h : isWriteCommand type = true <;> simp [executedWrites, h]
  | _ => rfl

@[simp]
theorem owed_append (first second : List Task) : owed (first ++ second) = owed first ++ owed second :=
  List.flatMap_append

@[simp]
theorem owed_cons (task : Task) (stack : List Task) :
    owed (task :: stack) = task.owes ++ owed stack :=
  List.flatMap_cons

@[simp]
theorem owed_nil : owed [] = [] :=
  rfl

/-- Commands that control transactions are not write commands. -/
theorem not_write_of_transaction {type : CommandType}
    (h : Server.isTransactionCommand type = true) : isWriteCommand type = false := by
  revert h
  cases type <;> decide

/-- Write commands work on the keyspace. -/
theorem not_write_of_none {type : CommandType} (h : dataCommand type = none) :
    isWriteCommand type = false := by
  cases type with
  | set | incr | rpush | lpush | lpop | blpop | xadd => simp [dataCommand] at h
  | _ => rfl

/-! ## Callbacks -/

@[simp]
theorem owes_connection (number : Nat) : (OnReply.connection number).owes = [] :=
  rfl

@[simp]
theorem owes_discard : OnReply.discard.owes = [] :=
  rfl

@[simp]
theorem owes_propagating (number : Nat) (raw : Bytes) :
    (OnReply.propagating number raw).owes = raw :=
  rfl

@[simp]
theorem owes_exec (context : Nat) (type : CommandType) (request : RespValue) :
    (OnReply.exec context type request).owes =
      if isWriteCommand type then serialize request else [] :=
  rfl

/-- The callback of a handler propagates nothing. -/
@[simp]
theorem owes_onReply (h : HandlerId) (number : Nat) : (h.onReply number).owes = [] := by
  unfold HandlerId.onReply
  split <;> rfl

/-- A command that is executed directly by a connection is propagated if it is a
write command. -/
theorem owes_directReply {h : HandlerId} (hh : h ≠ .session) (request : RespValue)
    (type : CommandType) (number : Nat) :
    (Server.directReply h request type number).owes =
      if isWriteCommand type then serialize request else [] := by
  have hregistry : h.hasReplicaRegistry = true := by
    cases h with
    | session => exact absurd rfl hh
    | _ => rfl
  unfold Server.directReply
  by_cases hwrite : isWriteCommand type = true
  · simp [hregistry, hwrite]
  · simp [hwrite]

/-- The callback of a command matches the command. -/
def Task.Matched : Task → Prop
  | .execute _ request cmd onReply =>
      onReply.owes = if isWriteCommand cmd.type then serialize request else []
  | .tryEnd onReply => onReply.owes = []
  | .wakeXread registration => registration.2.onReply.owes = []
  | _ => True

/-- Suspended commands propagate nothing when they call back. -/
structure Server.Silent (s : Server) : Prop where
  blpop : ∀ key, s.blpop.waiters key = []
  xread : ∀ key, ∀ registration ∈ s.xread.waiters key, registration.2.onReply.owes = []
  timers : ∀ timer ∈ s.timers, timer.onReply.owes = []
  contexts : ∀ c ∈ s.contexts, c.onReply.owes = []
  waits : s.waits = []

namespace Server.Silent

variable {s s' : Server}

/-- Only the suspended commands matter. -/
theorem congr (h : s.Silent) (hblpop : s'.blpop = s.blpop) (hxread : s'.xread = s.xread)
    (htimers : s'.timers = s.timers) (hcontexts : s'.contexts = s.contexts)
    (hwaits : s'.waits = s.waits) : s'.Silent := by
  constructor
  · rw [hblpop]
    exact h.blpop
  · rw [hxread]
    exact h.xread
  · rw [htimers]
    exact h.timers
  · rw [hcontexts]
    exact h.contexts
  · rw [hwaits]
    exact h.waits

/-- A context moves on. -/
theorem setContext (h : s.Silent) {context : Nat} {c : ExecContext}
    (hcontext : s.contexts[context]? = some c) (index : Nat) (results : List Bytes) :
    (s.setContext context { c with index := index, results := results }).Silent := by
  refine ⟨h.blpop, h.xread, h.timers, ?_, h.waits⟩
  intro c' hmem
  rcases List.mem_or_eq_of_mem_set hmem with hmem | rfl
  · exact h.contexts c' hmem
  · exact h.contexts c (List.mem_of_getElem? hcontext)

/-- A timer changes its state. -/
theorem setTimer (h : s.Silent) {i : Nat} {timer : Timer} (htimer : s.timers[i]? = some timer)
    (status : TimerStatus) :
    (s.setTimer i { timer with status := status }).Silent := by
  refine ⟨h.blpop, h.xread, ?_, h.contexts, h.waits⟩
  intro timer' hmem
  rcases List.mem_or_eq_of_mem_set hmem with hmem | rfl
  · exact h.timers timer' hmem
  · exact h.timers timer (List.mem_of_getElem? htimer)

/-- A timer is cancelled. -/
theorem cancelTimer (h : s.Silent) (i : Nat) : (s.cancelTimer i).Silent := by
  refine ⟨h.blpop, h.xread, ?_, h.contexts, h.waits⟩
  intro timer hmem
  rcases List.mem_iff_getElem?.mp hmem with ⟨k, hk⟩
  rw [Server.cancelTimer_timers, List.getElem?_modify] at hk
  rcases Option.map_eq_some_iff.mp hk with ⟨old, hold, rfl⟩
  have howes := h.timers old (List.mem_of_getElem? hold)
  split
  · unfold Timer.cancel
    split <;> exact howes
  · exact howes

/-- A waiting {lit}`XREAD` is removed. -/
theorem unregisterXread (h : s.Silent) (id : Nat) :
    (s.unregisterXread id).Silent :=
  ⟨h.blpop, fun key registration hmem =>
    h.xread key registration (BlockingRegistry.mem_waiters_of_unregister hmem),
    h.timers, h.contexts, h.waits⟩

/-- A waiting {lit}`BLPOP` is removed. -/
theorem unregisterBlpop (h : s.Silent) (id : Nat) :
    (s.unregisterBlpop id).Silent := by
  refine ⟨?_, h.xread, h.timers, h.contexts, h.waits⟩
  intro key
  apply List.eq_nil_iff_forall_not_mem.mpr
  intro registration hmem
  have hold := BlockingRegistry.mem_waiters_of_unregister hmem
  rw [h.blpop key] at hold
  exact List.not_mem_nil hold

/-- The timer of a blocked client fires. -/
theorem onTimeout (h : s.Silent) {i : Nat} {timer : Timer} (htimer : s.timers[i]? = some timer) :
    (StoreThread.onTimeout s i timer).server.Silent := by
  unfold StoreThread.onTimeout
  split
  · exact (h.setTimer htimer .done).unregisterBlpop _
  · exact (h.setTimer htimer .done).unregisterXread _

/-- An {lit}`XREAD` blocks. -/
theorem blockXread (h : s.Silent) (streams : List (Bytes × Bytes)) (timeout : Double)
    {onReply : OnReply} (howes : onReply.owes = []) :
    (s.blockXread streams timeout onReply).Silent := by
  refine ⟨h.blpop, ?_, ?_, h.contexts, h.waits⟩
  · intro key registration hmem
    rcases BlockingRegistry.mem_waiters_of_register hmem with hmem | rfl
    · exact h.xread key registration hmem
    · exact howes
  · intro timer hmem
    rcases List.mem_append.mp hmem with hmem | hmem
    · exact h.timers timer hmem
    · rw [List.mem_singleton.mp hmem]
      exact howes

/-- Behind a command on the keyspace that is not {lit}`BLPOP`. -/
theorem settle (h : s.Silent) {type : CommandType} (htype : type ≠ .blpop) {onReply : OnReply}
    {request : RespValue}
    (howes : onReply.owes = if isWriteCommand type then serialize request else [])
    {outcome : Outcome} (hpossible : outcome.PossibleFor type) :
    (s.settle onReply outcome).1.Silent := by
  cases outcome with
  | answer a =>
      simp only [Server.settle]
      split
      · exact h.congr rfl rfl rfl rfl rfl
      · exact h
  | blockBlpop keys timeout => exact absurd hpossible htype
  | blockXread streams timeout =>
      apply h.blockXread
      have htype' : type = .xread := hpossible
      simpa [htype', isWriteCommand] using howes

end Server.Silent

/-! ## One task -/

/-- The type of a command that is executed for such a request. -/
theorem prompt_type {h : HandlerId} {request : RespValue} {cmd : Command} {onReply : OnReply}
    (hfrom : (Task.execute h request cmd onReply).From Prompt) :
    cmd.type ≠ .blpop ∧ cmd.type ≠ .wait := by
  rw [← requestType_of_parse hfrom.2.1]
  exact hfrom.1.1.2

section Acts

variable {env : Env} {s s' : Server} {task : Task}

/-- Suspended commands still propagate nothing behind a task. -/
theorem silent_acts {r : Except Exception (List Task)} (hs : s.Silent) (hfrom : task.From Prompt)
    (hmatched : task.Matched) (hacts : Acts env s task s' r) : s'.Silent := by
  cases hacts with
  | ran hbody hresult =>
      have htype := prompt_type hfrom
      have hpossible := possibleFor_of_dataCommand hbody (congrArg Prod.snd hresult)
      apply Server.Silent.settle _ htype.1 hmatched hpossible
      exact hs.congr rfl rfl rfl rfl rfl
  | started htype hactive hclean hqueue =>
      refine ⟨hs.blpop, hs.xread, hs.timers, ?_, hs.waits⟩
      intro c hmem
      rcases List.mem_append.mp hmem with hmem | hmem
      · exact hs.contexts c hmem
      · rw [List.mem_singleton.mp hmem]
        simpa [Task.Matched, htype, isWriteCommand] using hmatched
  | polls htype wait => exact absurd htype (prompt_type hfrom).2
  | collected hcontext hindex type request response =>
      split
      · exact (hs.setContext hcontext _ _).congr rfl rfl rfl rfl rfl
      · exact hs.setContext hcontext _ _
  | served hwaiters hpop => simp [hs.blpop] at hwaiters
  | woke hread => exact (hs.unregisterXread _).cancelTimer _
  | wokeThrew hread => exact (hs.unregisterXread _).cancelTimer _
  | skipped hcontext hrequest hparse hfind => exact hs.setContext hcontext _ _
  | counted hwait hpoll => simp [hs.waits] at hwait
  | _ => exact hs.congr rfl rfl rfl rfl rfl

/-- The tasks that follow a command on the keyspace: only its callback owes
something. -/
theorem settle_tasks {type : CommandType} {onReply : OnReply}
    {outcome : Outcome} (hpossible : outcome.PossibleFor type) (htype : type ≠ .blpop)
    {request : RespValue}
    (howes : onReply.owes = if isWriteCommand type then serialize request else []) :
    (∀ task ∈ (s.settle onReply outcome).2, task.Matched) ∧
      owed (s.settle onReply outcome).2 = onReply.owes := by
  cases outcome with
  | answer a =>
      have hwake : (∀ task ∈ Server.wakeTasks a.wake, task.Matched) ∧
          owed (Server.wakeTasks a.wake) = [] := by
        unfold Server.wakeTasks
        split <;> simp [Task.Matched, Task.owes]
      simp only [Server.settle, owed_append, owed_cons, hwake.2, List.nil_append]
      by_cases hguarded : a.guarded = true
      · have hnone : onReply.owes = [] := by
          rcases hpossible.2.2 hguarded with rfl | rfl <;> simpa [isWriteCommand] using howes
        simp only [hguarded, if_true]
        refine ⟨?_, by simp [Task.owes]⟩
        intro task hmem
        simp only [List.mem_append, List.mem_cons, List.not_mem_nil, or_false] at hmem
        rcases hmem with hmem | rfl | rfl
        · exact hwake.1 task hmem
        · trivial
        · exact hnone
      · simp only [hguarded]
        refine ⟨?_, by simp [Task.owes]⟩
        intro task hmem
        simp only [Bool.false_eq_true, if_false, List.mem_append, List.mem_cons,
          List.not_mem_nil, or_false] at hmem
        rcases hmem with hmem | rfl
        · exact hwake.1 task hmem
        · trivial
  | blockBlpop keys timeout => exact absurd hpossible htype
  | blockXread streams timeout =>
      have htype' : type = .xread := hpossible
      have hnone : onReply.owes = [] := by simpa [htype', isWriteCommand] using howes
      simp [Server.settle, hnone]

/-- The callbacks of the tasks that a task calls match their commands. -/
theorem matched_acts {new : List Task} (hs : s.Silent) (hfrom : task.From Prompt)
    (hmatched : task.Matched) (hacts : Acts env s task s' (.ok new)) :
    ∀ task' ∈ new, task'.Matched := by
  intro task' hmem
  cases hacts with
  | controls number hformat hparse htype hfind =>
      rw [List.mem_singleton.mp hmem]
      simp [Task.Matched, not_write_of_transaction htype]
  | dispatched number hformat hparse htype hidle hfind =>
      rw [List.mem_singleton.mp hmem]
      exact owes_directReply hfrom.1 _ _ _
  | ran hbody hresult =>
      have hpossible := possibleFor_of_dataCommand hbody (congrArg Prod.snd hresult)
      exact (settle_tasks hpossible (prompt_type hfrom).1 hmatched).1 task' hmem
  | served hwaiters hpop => simp [hs.blpop] at hwaiters
  | copied key =>
      rcases List.mem_map.mp hmem with ⟨registration, hwaits, rfl⟩
      exact hs.xread key registration hwaits
  | next hcontext hrequest hparse hfind =>
      rw [List.mem_singleton.mp hmem]
      rfl
  | written | dropped | propagated | passed | unawaited | unserved | waits | unknownWait =>
      simp at hmem
  | _ =>
      rw [List.mem_singleton.mp hmem]
      trivial

/-- What a task hands to the replicas, executes, and leaves to be propagated. -/
structure Balanced (id : Nat) (s : Server) (task : Task) (s' : Server) (new : List Task) : Prop where
  /-- A write command that starts is owed; what was owed is handed out. -/
  handed : handedTo id s'.trace ++ owed new =
    handedTo id s.trace ++ (task.owes ++ task.starts.flatMap serialize)
  executed : executedWrites s'.trace = executedWrites s.trace ++ task.starts
  offset : s'.replicas.masterOffset - (handedTo id s'.trace).length =
    s.replicas.masterOffset - (handedTo id s.trace).length

/-- The handler of an {lit}`EXEC` holds the replica registry. -/
theorem Server.From.hasReplicaRegistry (h : s.From Prompt) {c : ExecContext}
    (hmem : c ∈ s.contexts) : c.handler.hasReplicaRegistry = true := by
  rcases h.contexts c hmem with ⟨hne, hall⟩
  rcases List.exists_mem_of_ne_nil _ hne with ⟨request, hrequest⟩
  have hhandler := (hall request hrequest).1.1.1
  cases hc : c.handler with
  | session => exact absurd hc hhandler
  | _ => rfl

/-- Every task is balanced. -/
theorem balanced_acts {id : Nat} {new : List Task} (hs : s.Silent)
    (hid : id ∈ s.replicas.replicas.map Prod.fst) (hserver : s.From Prompt)
    (hfrom : task.From Prompt) (hmatched : task.Matched)
    (hacts : Acts env s task s' (.ok new)) : Balanced id s task s' new := by
  cases hacts with
  | ran hbody hresult =>
      have hpossible := possibleFor_of_dataCommand hbody (congrArg Prod.snd hresult)
      have howed := fun t => (@settle_tasks t _ _ _ hpossible (prompt_type hfrom).1 _ hmatched).2
      refine ⟨?_, by simp [Task.starts], by simp⟩
      have howes : _ = _ := hmatched
      rw [howed, howes]
      simp only [settle_trace, Server.record_trace, Server.withData_trace, handedTo_append,
        handedTo_cons, handedTo_nil, List.append_nil, Task.owes, Task.starts, List.nil_append]
      split <;> simp
  | started htype hactive hclean hqueue =>
      exact ⟨by simp [Task.owes, Task.starts, htype, isWriteCommand],
        by simp [Task.starts], by simp⟩
  | answered hbody hrefused response =>
      have hread := not_write_of_none hbody
      have howes : _ = _ := hmatched
      rw [hread] at howes
      exact ⟨by simp [Task.owes, Task.starts, hread, howes], by simp [Task.starts], by simp⟩
  | transacted hchange =>
      have hread := not_write_of_transaction hchange.isTransactionCommand
      have howes : _ = _ := hmatched
      rw [hread] at howes
      exact ⟨by simp [Task.owes, Task.starts, hread, howes], by simp [Task.starts], by simp⟩
  | polls htype wait => exact absurd htype (prompt_type hfrom).2
  | propagated number raw response =>
      refine ⟨by simp [Task.owes, Task.starts, hid], by simp [Task.starts], ?_⟩
      simp only [Server.propagate_replicas, Server.propagate_trace, Server.record_replicas,
        Server.record_trace, ReplicaRegistry.propagate, handedTo_append, handedTo_cons,
        handedTo_nil, hid, if_true, List.append_nil, List.length_append]
      omega
  | @collected context c hcontext hindex type request response =>
      have hregistry := hserver.hasReplicaRegistry (List.mem_of_getElem? hcontext)
      by_cases hwrite : isWriteCommand type = true
      · simp only [hregistry, hwrite, and_self, if_true]
        refine ⟨by simp [Task.owes, Task.starts, hid, hwrite], by simp [Task.starts], ?_⟩
        simp only [Server.propagate_replicas, Server.propagate_trace, Server.setContext_replicas,
          Server.setContext_trace, ReplicaRegistry.propagate, handedTo_append, handedTo_cons,
          handedTo_nil, hid, if_true, List.append_nil, List.length_append]
        omega
      · simp only [hwrite]
        exact ⟨by simp [Task.owes, Task.starts, hwrite], by simp [Task.starts], by simp⟩
  | served hwaiters hpop => simp [hs.blpop] at hwaiters
  | copied key =>
      have hnone : owed ((s.xread.waiters key).map .wakeXread) = [] := by
        apply List.flatMap_eq_nil_iff.mpr
        intro task hmem
        rcases List.mem_map.mp hmem with ⟨registration, -, rfl⟩
        rfl
      exact ⟨by simp [hnone, Task.owes, Task.starts], by simp [Task.starts], by simp⟩
  | woke hread =>
      have hnone : _ = _ := hmatched
      exact ⟨by simp [Task.owes, Task.starts, hnone], by simp [Task.starts], by simp⟩
  | finished hcontext hindex =>
      have hnone := hs.contexts _ (List.mem_of_getElem? hcontext)
      exact ⟨by simp [Task.owes, Task.starts, hnone], by simp [Task.starts], by simp⟩
  | counted hwait hpoll => simp [hs.waits] at hwait
  | _ => exact ⟨by simp [Task.owes, Task.starts], by simp [Task.starts], by simp⟩

/-- The registered replicas stay registered. -/
theorem replicas_acts {r : Except Exception (List Task)} (hacts : Acts env s task s' r) :
    s'.replicas.replicas = s.replicas.replicas := by
  cases hacts with
  | collected hcontext hindex type request response => split <;> rfl
  | ran hbody hresult => simp
  | _ => rfl

/-- A task that throws leaves the history and the replicas alone. -/
theorem error_acts {e : Exception} (hacts : Acts env s task s' (.error e)) :
    s'.trace = s.trace ∧ s'.replicas = s.replicas := by
  cases hacts <;> exact ⟨rfl, rfl⟩

end Acts

/-! ## Runs -/

/-- What was handed to the replica and what the stack owes is what was executed. -/
structure Accounted (id : Nat) (offset : Int) (t : StoreThread) : Prop where
  requests : t.From Prompt
  silent : t.server.Silent
  matched : ∀ task ∈ t.stack, task.Matched
  registered : id ∈ t.server.replicas.replicas.map Prod.fst
  exact : handedTo id t.server.trace ++ owed t.stack =
    (executedWrites t.server.trace).flatMap serialize
  offset_eq : t.server.replicas.masterOffset =
    offset + (handedTo id t.server.trace).length

section Runs

variable {env : Env} {id : Nat} {offset : Int}

/-- A task that calls further tasks keeps the account. -/
theorem accounted_calls {s s' : Server} {task : Task} {new stack : List Task}
    (h : Accounted id offset ⟨s, task :: stack⟩)
    (hquiet : owed stack ≠ [] → task.starts = []) (hacts : Acts env s task s' (.ok new))
    (hrequests : StoreThread.From Prompt ⟨s', new ++ stack⟩) :
    Accounted id offset ⟨s', new ++ stack⟩ := by
  have hfrom := h.requests.stack task List.mem_cons_self
  have hmatched := h.matched task List.mem_cons_self
  have hbalanced : Balanced id s task s' new :=
    balanced_acts h.silent h.registered h.requests.server hfrom hmatched hacts
  refine ⟨hrequests, silent_acts h.silent hfrom hmatched hacts, ?_, ?_, ?_, ?_⟩
  · intro task' hmem
    rcases List.mem_append.mp hmem with hmem | hmem
    · exact matched_acts h.silent hfrom hmatched hacts task' hmem
    · exact h.matched task' (List.mem_cons_of_mem _ hmem)
  · rw [replicas_acts hacts]
    exact h.registered
  · have hexact := h.exact
    have hstarts : task.owes ++ task.starts.flatMap serialize ++ owed stack =
        task.owes ++ owed stack ++ task.starts.flatMap serialize := by
      by_cases howed : owed stack = []
      · simp [howed]
      · simp [hquiet howed]
    simp only [owed_cons, owed_append] at hexact ⊢
    rw [← List.append_assoc, hbalanced.handed, hbalanced.executed, List.flatMap_append, ← hexact,
      List.append_assoc, hstarts]
    simp
  · have hbefore : s.replicas.masterOffset = offset + (handedTo id s.trace).length := h.offset_eq
    have hafter := hbalanced.offset
    simp only
    omega

/-- An exception that reaches a {lit}`try` block keeps the account. -/
theorem accounted_throws {s s' : Server} {task : Task} {above below : List Task}
    {onReply : OnReply} {e : Exception}
    (h : Accounted id offset ⟨s, task :: (above ++ .tryEnd onReply :: below)⟩)
    (hquiet : owed (task :: (above ++ .tryEnd onReply :: below)) = [])
    (hacts : Acts env s task s' (.error e))
    (hrequests : StoreThread.From Prompt ⟨s', .reply onReply (exceptionReply e) :: below⟩) :
    Accounted id offset ⟨s', .reply onReply (exceptionReply e) :: below⟩ := by
  have hfrom := h.requests.stack task List.mem_cons_self
  have hmatched := h.matched task List.mem_cons_self
  have hcatch : onReply.owes = [] := h.matched (.tryEnd onReply) (by simp)
  rcases error_acts hacts with ⟨htrace, hreplicas⟩
  simp only [owed_cons, owed_append, List.append_eq_nil_iff] at hquiet
  refine ⟨hrequests, silent_acts h.silent hfrom hmatched hacts, ?_, ?_, ?_, ?_⟩
  · intro task' hmem
    rcases List.mem_cons.mp hmem with rfl | hmem
    · trivial
    · exact h.matched task' (by simp [hmem])
  · rw [hreplicas]
    exact h.registered
  · have hexact := h.exact
    simp only [owed_cons, owed_append, hquiet, List.append_nil] at hexact
    simp [htrace, Task.owes, hcatch, hquiet, hexact]
  · simp only [htrace, hreplicas]
    exact h.offset_eq

/-- An event that does not disturb a write command keeps the account. -/
theorem accounted_step {t t' : StoreThread} {event : Event} (h : Accounted id offset t)
    (hevent : event.From Prompt ∧ event.Keeps id ∧ Undisturbed env t event)
    (hstep : t.step env event = some t') : Accounted id offset t' := by
  have hrequests := from_step h.requests hevent.1 hstep
  cases moves_of_step hstep with
  | request s handler request =>
      refine ⟨hrequests, h.silent.congr rfl rfl rfl rfl rfl, ?_, h.registered, h.exact,
        h.offset_eq⟩
      intro task hmem
      rw [List.mem_singleton.mp hmem]
      trivial
  | idle s => exact h
  | calls stack hact => exact accounted_calls h hevent.2.2.1 (acts_of_act hact) hrequests
  | throws above onReply below hact =>
      apply accounted_throws h _ (acts_of_act hact) hrequests
      by_contra howed
      have hok := hevent.2.2.2 howed
      simp [hact, Except.isOk, Except.toBool] at hok
  | expires stack htimer harmed =>
      exact ⟨hrequests, h.silent.setTimer htimer _, h.matched, h.registered, h.exact, h.offset_eq⟩
  | @timeout s i timer htimer hqueued =>
      have hnone : timer.onReply.owes = [] := h.silent.timers timer (List.mem_of_getElem? htimer)
      have hexact : handedTo id s.trace = (executedWrites s.trace).flatMap serialize := by
        simpa using h.exact
      refine ⟨hrequests, h.silent.onTimeout htimer, ?_, ?_, ?_, ?_⟩
      · intro task hmem
        rw [List.mem_singleton.mp hmem]
        trivial
      · rw [onTimeout_replicas]
        exact h.registered
      · rw [onTimeout_trace, hexact]
        simp [StoreThread.onTimeout, Task.owes, hnone]
      · rw [onTimeout_trace, onTimeout_replicas]
        exact h.offset_eq
  | @poll s i w hwait hactive =>
      have hnone : s.waits = [] := h.silent.waits
      simp [hnone] at hwait
  | attach s stack =>
      have hregistered : id ∈ s.replicas.replicas.map Prod.fst := h.registered
      refine ⟨hrequests, h.silent.congr rfl rfl rfl rfl rfl, h.matched, ?_, h.exact, h.offset_eq⟩
      simp [ReplicaRegistry.add, hregistered]
  | detach s stack replica =>
      have hregistered : id ∈ s.replicas.replicas.map Prod.fst := h.registered
      refine ⟨hrequests, h.silent.congr rfl rfl rfl rfl rfl, h.matched, ?_, h.exact, h.offset_eq⟩
      rcases List.mem_map.mp hregistered with ⟨entry, hentry, hid⟩
      have hne : entry.1 ≠ replica := by
        rw [hid]
        exact Ne.symm hevent.2.1
      exact List.mem_map.mpr ⟨entry, List.mem_filter.mpr ⟨hentry, by simpa using hne⟩, hid⟩
  | ack s stack replica acked =>
      have hregistered : id ∈ s.replicas.replicas.map Prod.fst := h.registered
      refine ⟨hrequests, h.silent.congr rfl rfl rfl rfl rfl, h.matched, ?_, h.exact, h.offset_eq⟩
      rcases List.mem_map.mp hregistered with ⟨entry, hentry, rfl⟩
      apply List.mem_map.mpr
      refine ⟨_, List.mem_map_of_mem hentry, ?_⟩
      by_cases heq : entry.1 = replica
      · rw [if_pos heq]
      · rw [if_neg heq]

/-- The account of a server that was just started. -/
theorem accounted_initial {registry : ReplicaRegistry}
    (hid : id ∈ registry.replicas.map Prod.fst) :
    Accounted id registry.masterOffset (.withReplicas registry) := by
  have hrequests : (Server.initial.setReplicas registry).From Prompt :=
    from_initial.congr (fun _ => rfl) rfl
  exact ⟨⟨hrequests, by simp⟩, ⟨by simp, by simp, by simp, by simp, by simp⟩, by simp, hid,
    by simp, by simp⟩

end Runs

/-! ## Exact propagation -/

instance (h : HandlerId) (request : RespValue) : Decidable (Prompt h request) := by
  unfold Prompt
  infer_instance

instance (id : Nat) : (event : Event) → Decidable (event.Keeps id)
  | .detach replica => inferInstanceAs (Decidable (replica ≠ id))
  | .request _ _ | .tick | .expire _ | .timeout _ | .poll _ | .attach | .ack _ _ => .isTrue trivial

instance (env : Env) (t : StoreThread) : (event : Event) → Decidable (Undisturbed env t event)
  | .tick =>
      match hstack : t.stack with
      | [] => .isTrue (by simp [Undisturbed, hstack])
      | task :: rest =>
          decidable_of_iff ((owed rest ≠ [] → task.starts = []) ∧
            (owed (task :: rest) ≠ [] → (t.server.act env task).2.isOk = true))
            (by simp [Undisturbed, hstack])
  | .request _ _ | .expire _ | .timeout _ | .poll _ | .attach | .detach _ | .ack _ _ =>
      .isTrue trivial

/-- Propagation is exact: in every run of requests of connections other than
{lit}`BLPOP` and {lit}`WAIT`, in any interleaving, in which no write command starts
and no exception is thrown while a write command that ran has still to call back,
the bytes handed to a replica that stays registered are the write commands that
were executed, in order, up to those that have still to call back; and the offset
grows by the number of these bytes, as long as it stays below 2^63.  An idle store thread owes
nothing. -/
theorem propagation_exact {env : Env} {registry : ReplicaRegistry} {id : Nat}
    {events : List Event} {t : StoreThread} (hid : registry.registered id = true)
    (hevents : ∀ event ∈ events, event.From Prompt ∧ event.Keeps id)
    (hsteps : Execution.Along (StoreThread.step env) (Undisturbed env)
      (.withReplicas registry) events)
    (hrun : StoreThread.run env (.withReplicas registry) events = some t) :
    handedTo id t.server.trace ++ owed t.stack =
        (executedWrites t.server.trace).flatMap serialize ∧
      (t.Idle →
        handedTo id t.server.trace = (executedWrites t.server.trace).flatMap serialize) ∧
      t.server.replicas.masterOffset =
        registry.masterOffset + (handedTo id t.server.trace).length := by
  have haccount : Accounted id registry.masterOffset t :=
    Execution.follow_invariant
      (fun hinv hevent hstep => accounted_step hinv ⟨hevent.1.1, hevent.1.2, hevent.2⟩ hstep)
      (accounted_initial (ReplicaRegistry.registered_iff.mp hid))
      ((Execution.along_of_forall hevents _).and hsteps) hrun
  refine ⟨haccount.exact, ?_, haccount.offset_eq⟩
  intro hidle
  have hexact := haccount.exact
  rwa [hidle, owed_nil, List.append_nil] at hexact

/-- {lit}`SET a 1` next to a transaction with {lit}`INCR a` and {lit}`GET a`, and
another one that is discarded. -/
def mixedRun : List Event :=
  job 1 (.short (ascii "MULTI") [] (Eq.refl true)) 3 ++
    job 1 (.short (ascii "INCR") [ascii "a"] (Eq.refl true)) 2 ++
    job 2 (.short (ascii "SET") [ascii "a", ascii "1"] (Eq.refl true)) 3 ++
    job 1 (.short (ascii "GET") [ascii "a"] (Eq.refl true)) 2 ++
    job 1 (.short (ascii "EXEC") [] (Eq.refl true)) 10 ++
    job 2 (.short (ascii "MULTI") [] (Eq.refl true)) 3 ++
    job 2 (.short (ascii "INCR") [ascii "a"] (Eq.refl true)) 2 ++
    job 2 (.short (ascii "DISCARD") [] (Eq.refl true)) 3

/-- The registry with one replica. -/
def oneReplica : ReplicaRegistry :=
  ReplicaRegistry.empty.add.1

/-- The first two writes are propagated, and nothing else. -/
theorem propagation_exact_mixed :
    ∃ t, StoreThread.run sampleEnv (.withReplicas oneReplica) mixedRun = some t ∧ t.Idle ∧
      (executedWrites t.server.trace).length = 2 ∧
      handedTo 0 t.server.trace = (executedWrites t.server.trace).flatMap serialize := by
  have hrun : (StoreThread.run sampleEnv (.withReplicas oneReplica) mixedRun).map
      (fun t => (t.stack, (executedWrites t.server.trace).length)) = some ([], 2) := by
    decide +kernel
  rcases Option.map_eq_some_iff.mp hrun with ⟨t, ht, hfacts⟩
  have hidle : t.Idle := congrArg Prod.fst hfacts
  have hexact := @propagation_exact _ _ 0 _ _ (by decide) (by decide +kernel) (by decide +kernel) ht
  exact ⟨t, ht, hidle, congrArg Prod.snd hfacts, hexact.2.1 hidle⟩

/-- One client's {lit}`EXEC` waits in {lit}`XREAD BLOCK`, with {lit}`SET a 1` left
in its queue; another client's {lit}`XADD` wakes it. -/
def resumedExec : List Event :=
  job 1 (.short (ascii "MULTI") [] (Eq.refl true)) 3 ++
    job 1 (.short (ascii "XREAD")
      [ascii "BLOCK", ascii "0", ascii "STREAMS", ascii "s", ascii "0-0"]
      (Eq.refl true)) 2 ++
    job 1 (.short (ascii "SET") [ascii "a", ascii "1"] (Eq.refl true)) 2 ++
    job 1 (.short (ascii "EXEC") [] (Eq.refl true)) 4 ++
    job 2 (.short (ascii "XADD") [ascii "s", ascii "1-1", ascii "f", ascii "v"]
      (Eq.refl true)) 11

/-- The {lit}`SET` that the woken {lit}`EXEC` executes is propagated before the
{lit}`XADD` that woke it. -/
theorem propagation_out_of_order :
    (∀ event ∈ resumedExec, event.From Prompt ∧ event.Keeps 0) ∧
      ∃ t, StoreThread.run sampleEnv (.withReplicas oneReplica) resumedExec = some t ∧ t.Idle ∧
        executedWrites t.server.trace =
          [.array [.bulkString (ascii "XADD"), .bulkString (ascii "s"), .bulkString (ascii "1-1"),
              .bulkString (ascii "f"), .bulkString (ascii "v")],
            .array [.bulkString (ascii "SET"), .bulkString (ascii "a"), .bulkString (ascii "1")]] ∧
        handedTo 0 t.server.trace ≠ (executedWrites t.server.trace).flatMap serialize := by
  refine ⟨by decide +kernel, ?_⟩
  have hrun : (StoreThread.run sampleEnv (.withReplicas oneReplica) resumedExec).map
      (fun t => (t.stack, executedWrites t.server.trace,
        decide (handedTo 0 t.server.trace = (executedWrites t.server.trace).flatMap serialize))) =
      some ([],
        [.array [.bulkString (ascii "XADD"), .bulkString (ascii "s"), .bulkString (ascii "1-1"),
            .bulkString (ascii "f"), .bulkString (ascii "v")],
          .array [.bulkString (ascii "SET"), .bulkString (ascii "a"), .bulkString (ascii "1")]],
        false) := by
    decide +kernel
  rcases Option.map_eq_some_iff.mp hrun with ⟨t, ht, hfacts⟩
  simp only [Prod.mk.injEq] at hfacts
  exact ⟨t, ht, hfacts.1, hfacts.2.1, of_decide_eq_false hfacts.2.2⟩

end RedisClone
