import RedisClone.Server.Transitions

/-!
# Where commands come from

Every command that the store thread executes was sent in a request, directly or
through the queue of a transaction.  So a property of all requests of a run is a
property of all queued commands, of all commands of a running {lit}`EXEC`, and of
all commands that are executed.

Main results:

- Theorem {lit}`from_step`: the property is kept by every event.
-/

namespace RedisClone

variable {P : HandlerId → RespValue → Prop} {env : Env}

/-- A request that has the property and passed the check of its format. -/
def Accepted (P : HandlerId → RespValue → Prop) (h : HandlerId) (request : RespValue) : Prop :=
  P h request ∧ request.type = .array

/-- A request that was queued: it is a command that does not control transactions. -/
def Queued (P : HandlerId → RespValue → Prop) (h : HandlerId) (request : RespValue) : Prop :=
  Accepted P h request ∧ ∃ cmd, parseCommand request = .ok cmd ∧
    Server.isTransactionCommand cmd.type = false

/-- The callback belongs to an {lit}`EXEC`. -/
def OnReply.isExec : OnReply → Bool
  | .exec _ _ _ => true
  | _ => false

/-- All queued requests have the property, and so have those of every
{lit}`EXEC`. -/
structure Server.From (P : HandlerId → RespValue → Prop) (s : Server) : Prop where
  queues : ∀ h, ∀ request ∈ (s.transactions h).queuedCommands, Queued P h request
  contexts : ∀ c ∈ s.contexts, c.commands ≠ [] ∧
    ∀ request ∈ c.commands, Queued P c.handler request

/-- The task is for a request that has the property; commands that control
transactions are called back by their handler. -/
def Task.From (P : HandlerId → RespValue → Prop) : Task → Prop
  | .handle h request _ => P h request
  | .execute h request cmd onReply =>
      Accepted P h request ∧ parseCommand request = .ok cmd ∧
        (Server.isTransactionCommand cmd.type = true → ∃ number, onReply = h.onReply number)
  | _ => True

/-- All requests in the store thread have the property. -/
structure StoreThread.From (P : HandlerId → RespValue → Prop) (t : StoreThread) : Prop where
  server : t.server.From P
  stack : ∀ task ∈ t.stack, task.From P

/-- A request that the store thread takes up has the property. -/
def Event.From (P : HandlerId → RespValue → Prop) : Event → Prop
  | .request h sent => P h sent.value
  | _ => True

instance [∀ h request, Decidable (P h request)] : (event : Event) → Decidable (event.From P)
  | .request h sent => inferInstanceAs (Decidable (P h sent.value))
  | .tick | .expire _ | .timeout _ | .poll _ | .attach | .detach _ | .ack _ _ => .isTrue trivial

/-- A handler's own callback does not belong to an {lit}`EXEC`. -/
@[simp]
theorem isExec_onReply (h : HandlerId) (number : Nat) : (h.onReply number).isExec = false := by
  unfold HandlerId.onReply
  split <;> rfl

namespace Server.From

/-- Only the queues and the contexts matter. -/
theorem congr {s s' : Server} (h : s.From P)
    (hqueues : ∀ h, (s'.transactions h).queuedCommands = (s.transactions h).queuedCommands)
    (hcontexts : s'.contexts = s.contexts) : s'.From P := by
  constructor
  · intro handler request hmem
    rw [hqueues] at hmem
    exact h.queues handler request hmem
  · rw [hcontexts]
    exact h.contexts

/-- The history does not matter. -/
theorem record {s : Server} (h : s.From P) (entry : TraceEntry) : (s.record entry).From P :=
  h.congr (fun _ => rfl) rfl

/-- The data do not matter. -/
theorem withData {s : Server} (h : s.From P) (d : Store) : (s.withData d).From P :=
  h.congr (fun _ => rfl) rfl

/-- One transaction changes. -/
theorem setTransaction {s : Server} (h : s.From P) {handler : HandlerId}
    {change : TransactionManager × WatchManager HandlerId}
    (hchange : ∀ request ∈ change.1.queuedCommands, Queued P handler request) :
    (s.setTransaction handler change).From P := by
  constructor
  · intro handler' request hmem
    rw [Server.setTransaction_transactions] at hmem
    by_cases heq : handler' = handler
    · subst heq
      rw [Function.update_self] at hmem
      exact hchange request hmem
    · rw [Function.update_of_ne heq] at hmem
      exact h.queues handler' request hmem
  · exact h.contexts

/-- A context moves on. -/
theorem setContext {s : Server} (h : s.From P) {context : Nat} {c : ExecContext}
    (hcontext : s.contexts[context]? = some c) (index : Nat) (results : List Bytes) :
    (s.setContext context { c with index := index, results := results }).From P := by
  constructor
  · exact h.queues
  · intro c' hmem
    rcases List.mem_or_eq_of_mem_set hmem with hmem | rfl
    · exact h.contexts c' hmem
    · exact h.contexts c (List.mem_of_getElem? hcontext)

/-- Behind a command on the keyspace. -/
theorem settle {s : Server} (h : s.From P) (onReply : OnReply) (outcome : Outcome) :
    (s.settle onReply outcome).1.From P := by
  cases outcome with
  | answer a =>
      simp only [Server.settle]
      split
      · refine h.congr ?_ rfl
        intro handler
        simp only [Server.notifyWrite_transactions]
        split <;> rfl
      · exact h
  | blockBlpop keys timeout => exact h.congr (fun _ => rfl) rfl
  | blockXread streams timeout => exact h.congr (fun _ => rfl) rfl

end Server.From

/-- The tasks that follow a command on the keyspace are not for requests. -/
theorem from_settle {s : Server} {onReply : OnReply} {outcome : Outcome} {task : Task}
    (h : task ∈ (s.settle onReply outcome).2) : task.From P := by
  rcases mem_settle h with ⟨key, rfl⟩ | ⟨key, rfl⟩ | ⟨response, rfl⟩ | rfl <;> trivial

/-- What a task does to the queues and the contexts. -/
theorem server_from_acts {s s' : Server} {task : Task} {r : Except Exception (List Task)}
    (hs : s.From P) (htask : task.From P) (hacts : Acts env s task s' r) : s'.From P := by
  cases hacts with
  | queued number hformat hparse htype hactive =>
      apply (hs.record _).setTransaction
      intro request hmem
      simp only [TransactionManager.queueCommand, List.mem_append, List.mem_singleton] at hmem
      rcases hmem with hmem | rfl
      · exact hs.queues _ request hmem
      · exact ⟨⟨htask, hformat⟩, _, hparse, htype⟩
  | ran hbody hresult => exact ((hs.withData _).record _).settle _ _
  | transacted hchange =>
      apply (hs.record _).setTransaction
      intro request hmem
      rcases hchange.queuedCommands with hqueue | hqueue
      · simp [hqueue] at hmem
      · rw [hqueue] at hmem
        exact hs.queues _ request hmem
  | started htype hactive hclean hqueue =>
      rename_i handler request' cmd onReply
      have hreset : (s.setTransaction handler
          ((s.transactions handler).popQueuedCommands.1.reset s.watches)).From P := by
        apply hs.setTransaction
        intro request hmem
        simp [TransactionManager.reset] at hmem
      constructor
      · exact hreset.queues
      · intro c hmem
        rcases List.mem_append.mp hmem with hmem | hmem
        · exact hs.contexts c hmem
        · rw [List.mem_singleton.mp hmem]
          exact ⟨hqueue, hs.queues handler⟩
  | collected hcontext hindex type request response =>
      have hmoved := hs.setContext hcontext
      split
      · exact (hmoved _ _).congr (fun _ => rfl) rfl
      · exact hmoved _ _
  | skipped hcontext hrequest hparse hfind => exact hs.setContext hcontext _ _
  | _ => exact hs.congr (fun _ => rfl) rfl

/-- The tasks that a task calls are for requests that have the property. -/
theorem tasks_from_acts {s s' : Server} {task : Task} {new : List Task}
    (hs : s.From P) (htask : task.From P) (hacts : Acts env s task s' (.ok new)) :
    ∀ task' ∈ new, task'.From P := by
  intro task' hmem
  cases hacts with
  | @controls h _ _ number hformat hparse htype hfind =>
      rw [List.mem_singleton.mp hmem]
      exact ⟨⟨htask, hformat⟩, hparse, fun _ => ⟨number, rfl⟩⟩
  | dispatched number hformat hparse htype hidle hfind =>
      rw [List.mem_singleton.mp hmem]
      exact ⟨⟨htask, hformat⟩, hparse, fun hcontrols => by simp [htype] at hcontrols⟩
  | ran hbody hresult => exact from_settle hmem
  | served hwaiters hpop =>
      simp only [List.mem_cons, List.not_mem_nil, or_false] at hmem
      rcases hmem with rfl | rfl <;> trivial
  | copied key =>
      rcases List.mem_map.mp hmem with ⟨registration, -, rfl⟩
      trivial
  | next hcontext hrequest hparse hfind =>
      have hqueued := (hs.contexts _ (List.mem_of_getElem? hcontext)).2 _
        (List.mem_of_getElem? hrequest)
      rw [List.mem_singleton.mp hmem]
      rcases hqueued with ⟨haccepted, cmd, hcmd, htype⟩
      rw [hcmd] at hparse
      cases hparse
      refine ⟨haccepted, hcmd, fun hcontrols => ?_⟩
      rw [htype] at hcontrols
      contradiction
  | written | dropped | propagated | passed | unawaited | unserved | waits | unknownWait =>
      simp at hmem
  | _ =>
      rw [List.mem_singleton.mp hmem]
      trivial

/-- Every event keeps the property. -/
theorem from_step {t t' : StoreThread} {event : Event} (ht : t.From P) (hevent : event.From P)
    (h : t.step env event = some t') : t'.From P := by
  rcases ht with ⟨hs, hstack⟩
  cases moves_of_step h with
  | request s handler request =>
      refine ⟨hs.congr (fun _ => rfl) rfl, ?_⟩
      intro task hmem
      rw [List.mem_singleton.mp hmem]
      exact hevent
  | idle s => exact ⟨hs, hstack⟩
  | calls stack hact =>
      have htask := hstack _ List.mem_cons_self
      refine ⟨server_from_acts hs htask (acts_of_act hact), ?_⟩
      intro task hmem
      rcases List.mem_append.mp hmem with hmem | hmem
      · exact tasks_from_acts hs htask (acts_of_act hact) task hmem
      · exact hstack task (by simp [hmem])
  | throws above onReply below hact =>
      refine ⟨server_from_acts hs (hstack _ List.mem_cons_self) (acts_of_act hact), ?_⟩
      intro task hmem
      rcases List.mem_cons.mp hmem with rfl | hmem
      · trivial
      · exact hstack task (by simp [hmem])
  | expires stack htimer harmed => exact ⟨hs.congr (fun _ => rfl) rfl, hstack⟩
  | timeout htimer hqueued =>
      constructor
      · unfold StoreThread.onTimeout
        split <;> exact hs.congr (fun _ => rfl) rfl
      · intro task hmem
        rw [List.mem_singleton.mp hmem]
        trivial
  | poll hwait hactive =>
      refine ⟨hs, ?_⟩
      intro task hmem
      rw [List.mem_singleton.mp hmem]
      trivial
  | attach | detach | ack => exact ⟨hs.congr (fun _ => rfl) rfl, hstack⟩

/-- A server that was just started holds no requests. -/
theorem from_initial : Server.initial.From P :=
  ⟨by simp [Server.initial, TransactionManager.fresh], by simp [Server.initial]⟩

end RedisClone
