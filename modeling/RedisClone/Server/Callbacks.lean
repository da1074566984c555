import RedisClone.Server.Provenance

/-!
# Callbacks

A callback is made when a request is handled or a queued command is run, and from
then on it is only handed on: to tasks, to registrations of blocked clients and
their timers, to {lit}`WAIT`s, and to the contexts of {lit}`EXEC`s.  So a property
of the callbacks that are made is a property of all callbacks in the store thread.

Main results:

- Theorem {lit}`callbacks_step`: the property is kept by every event.
- Theorem {lit}`noExec_step`: unless an {lit}`EXEC` starts to run its queue, no
  callback belongs to one.
-/

namespace RedisClone

variable {Q : OnReply → Prop} {env : Env}

/-- The callback that a task holds. -/
def Task.callback : Task → Option OnReply
  | .execute _ _ _ onReply => some onReply
  | .reply onReply _ => some onReply
  | .tryEnd onReply => some onReply
  | .wakeXread registration => some registration.2.onReply
  | _ => none

/-- The callbacks of a list of tasks have the property. -/
def CallbacksIn (Q : OnReply → Prop) (stack : List Task) : Prop :=
  ∀ task ∈ stack, ∀ onReply, task.callback = some onReply → Q onReply

/-- The callbacks that the server holds have the property. -/
structure Server.Callbacks (Q : OnReply → Prop) (s : Server) : Prop where
  blpop : ∀ key, ∀ waiter ∈ s.blpop.waiters key, Q waiter.2.onReply
  xread : ∀ key, ∀ waiter ∈ s.xread.waiters key, Q waiter.2.onReply
  timers : ∀ timer ∈ s.timers, Q timer.onReply
  waits : ∀ w ∈ s.waits, Q w.onReply
  contexts : ∀ c ∈ s.contexts, Q c.onReply

/-- All callbacks in the store thread have the property. -/
structure StoreThread.Callbacks (Q : OnReply → Prop) (t : StoreThread) : Prop where
  server : t.server.Callbacks Q
  stack : CallbacksIn Q t.stack

/-- The callback that {lit}`run_next` makes has the property. -/
def Task.MakesCallback (Q : OnReply → Prop) (s : Server) : Task → Prop
  | .runNext context => ∀ c request cmd, s.contexts[context]? = some c →
      c.commands[c.index]? = some request → parseCommand request = .ok cmd →
        Q (.exec context cmd.type request)
  | _ => True

namespace CallbacksIn

variable {task : Task} {stack stack' : List Task}

theorem nil : CallbacksIn Q [] := by
  intro task hmem
  simp at hmem

theorem cons (htask : ∀ onReply, task.callback = some onReply → Q onReply)
    (hstack : CallbacksIn Q stack) : CallbacksIn Q (task :: stack) := by
  intro task' hmem
  rcases List.mem_cons.mp hmem with rfl | hmem
  · exact htask
  · exact hstack task' hmem

theorem single (htask : ∀ onReply, task.callback = some onReply → Q onReply) :
    CallbacksIn Q [task] :=
  cons htask nil

theorem append (hstack : CallbacksIn Q stack) (hstack' : CallbacksIn Q stack') :
    CallbacksIn Q (stack ++ stack') := by
  intro task hmem
  rcases List.mem_append.mp hmem with hmem | hmem
  · exact hstack task hmem
  · exact hstack' task hmem

theorem mono (hstack : CallbacksIn Q stack) (hsub : stack' ⊆ stack) : CallbacksIn Q stack' :=
  fun task hmem => hstack task (hsub hmem)

/-- A reply. -/
theorem reply {onReply : OnReply} (h : Q onReply) (response : Bytes) :
    CallbacksIn Q [.reply onReply response] :=
  single (by rintro _ ⟨⟩; exact h)

end CallbacksIn

namespace Server.Callbacks

variable {s s' : Server}

/-- A server that was just started holds no callbacks. -/
theorem initial (registry : ReplicaRegistry) :
    (Server.initial.setReplicas registry).Callbacks Q := by
  constructor <;> simp

/-- Only the registries, the timers, the {lit}`WAIT`s and the contexts matter. -/
theorem congr (h : s.Callbacks Q) (hblpop : s'.blpop = s.blpop) (hxread : s'.xread = s.xread)
    (htimers : s'.timers = s.timers) (hwaits : s'.waits = s.waits)
    (hcontexts : s'.contexts = s.contexts) : s'.Callbacks Q := by
  constructor
  · rw [hblpop]
    exact h.blpop
  · rw [hxread]
    exact h.xread
  · rw [htimers]
    exact h.timers
  · rw [hwaits]
    exact h.waits
  · rw [hcontexts]
    exact h.contexts

/-- A command changed the data. -/
theorem withData (h : s.Callbacks Q) (d : Store) (entry : TraceEntry) :
    ((s.withData d).record entry).Callbacks Q :=
  h.congr rfl rfl rfl rfl rfl

/-- A registration is removed. -/
theorem unregisterBlpop (h : s.Callbacks Q) (id : Nat) : (s.unregisterBlpop id).Callbacks Q :=
  ⟨fun key waiter hmem => h.blpop key waiter (BlockingRegistry.mem_waiters_of_unregister hmem),
    h.xread, h.timers, h.waits, h.contexts⟩

theorem unregisterXread (h : s.Callbacks Q) (id : Nat) : (s.unregisterXread id).Callbacks Q :=
  ⟨h.blpop,
    fun key waiter hmem => h.xread key waiter (BlockingRegistry.mem_waiters_of_unregister hmem),
    h.timers, h.waits, h.contexts⟩

/-- The status of a timer changes. -/
theorem setTimer (h : s.Callbacks Q) {i : Nat} {timer : Timer} (htimer : s.timers[i]? = some timer)
    (status : TimerStatus) : (s.setTimer i { timer with status := status }).Callbacks Q := by
  refine ⟨h.blpop, h.xread, ?_, h.waits, h.contexts⟩
  intro timer' hmem
  rcases List.mem_or_eq_of_mem_set hmem with hmem | rfl
  · exact h.timers timer' hmem
  · exact h.timers timer (List.mem_of_getElem? htimer)

theorem onReply_cancel (timer : Timer) : timer.cancel.onReply = timer.onReply := by
  unfold Timer.cancel
  split <;> rfl

theorem cancelTimer (h : s.Callbacks Q) (i : Nat) : (s.cancelTimer i).Callbacks Q := by
  refine ⟨h.blpop, h.xread, ?_, h.waits, h.contexts⟩
  intro timer hmem
  rcases List.mem_iff_getElem?.mp hmem with ⟨j, hj⟩
  rw [Server.cancelTimer_timers, List.getElem?_modify] at hj
  rcases Option.map_eq_some_iff.mp hj with ⟨timer', htimer', heq⟩
  have hold := h.timers timer' (List.mem_of_getElem? htimer')
  split at heq
  · rw [← heq, onReply_cancel]
    exact hold
  · rw [← heq]
    exact hold

/-- A context moves on. -/
theorem setContext (h : s.Callbacks Q) {context : Nat} {c : ExecContext}
    (hcontext : s.contexts[context]? = some c) (index : Nat) (results : List Bytes) :
    (s.setContext context { c with index := index, results := results }).Callbacks Q := by
  refine ⟨h.blpop, h.xread, h.timers, h.waits, ?_⟩
  intro c' hmem
  rcases List.mem_or_eq_of_mem_set hmem with hmem | rfl
  · exact h.contexts c' hmem
  · exact h.contexts c (List.mem_of_getElem? hcontext)

/-- Behind a command on the keyspace. -/
theorem settle (h : s.Callbacks Q) {onReply : OnReply} (hreply : Q onReply) (outcome : Outcome) :
    (s.settle onReply outcome).1.Callbacks Q := by
  have htimers : ∀ kind id status,
      ∀ timer ∈ s.timers ++ [⟨kind, id, onReply, status⟩], Q timer.onReply := by
    intro kind id status timer hmem
    rcases List.mem_append.mp hmem with hmem | hmem
    · exact h.timers timer hmem
    · rw [List.mem_singleton.mp hmem]
      exact hreply
  cases outcome with
  | answer a =>
      simp only [Server.settle]
      split
      · exact h.congr rfl rfl rfl rfl rfl
      · exact h
  | blockBlpop keys timeout =>
      refine ⟨?_, h.xread, htimers _ _ _, h.waits, h.contexts⟩
      intro key waiter hmem
      rcases BlockingRegistry.mem_waiters_of_register hmem with hmem | rfl
      · exact h.blpop key waiter hmem
      · exact hreply
  | blockXread streams timeout =>
      refine ⟨h.blpop, ?_, htimers _ _ _, h.waits, h.contexts⟩
      intro key waiter hmem
      rcases BlockingRegistry.mem_waiters_of_register hmem with hmem | rfl
      · exact h.xread key waiter hmem
      · exact hreply

end Server.Callbacks

/-- The tasks behind a command on the keyspace call its callback. -/
theorem callbacks_settle {s : Server} {onReply : OnReply} (hreply : Q onReply)
    (outcome : Outcome) : CallbacksIn Q (s.settle onReply outcome).2 := by
  cases outcome with
  | answer a =>
      refine CallbacksIn.append ?_ (.cons (by rintro _ ⟨⟩; exact hreply) ?_)
      · unfold Server.wakeTasks
        split
        · exact .nil
        · exact .single (by rintro _ ⟨⟩)
        · exact .single (by rintro _ ⟨⟩)
      · split
        · exact .single (by rintro _ ⟨⟩; exact hreply)
        · exact .nil
  | blockBlpop keys timeout => exact .nil
  | blockXread streams timeout => exact .nil

section Steps

variable {s s' : Server} {task : Task} {r : Except Exception (List Task)}

/-- What a task does to the callbacks that the server holds. -/
theorem callbacks_server_acts (hs : s.Callbacks Q)
    (htask : ∀ onReply, task.callback = some onReply → Q onReply) (hacts : Acts env s task s' r) :
    s'.Callbacks Q := by
  cases hacts with
  | ran hbody hresult =>
      exact (Server.Callbacks.withData hs _ _).settle (htask _ rfl) _
  | started htype hactive hclean hqueue =>
      refine ⟨hs.blpop, hs.xread, hs.timers, hs.waits, ?_⟩
      intro c hmem
      rcases List.mem_append.mp hmem with hmem | hmem
      · exact hs.contexts c hmem
      · rw [List.mem_singleton.mp hmem]
        exact htask _ rfl
  | polls htype wait =>
      refine ⟨hs.blpop, hs.xread, hs.timers, ?_, hs.contexts⟩
      intro w hmem
      rcases List.mem_append.mp hmem with hmem | hmem
      · exact hs.waits w hmem
      · rw [List.mem_singleton.mp hmem]
        exact htask _ rfl
  | collected hcontext hindex type request response =>
      have hmoved := hs.setContext hcontext
      split
      · exact (hmoved _ _).congr rfl rfl rfl rfl rfl
      · exact hmoved _ _
  | served hwaiters hpop =>
      have hdata : ∀ d, (s.setData d).Callbacks Q := fun _ => hs.congr rfl rfl rfl rfl rfl
      exact ((hdata _).unregisterBlpop _).cancelTimer _
  | woke hread => exact (hs.unregisterXread _).cancelTimer _
  | wokeThrew hread => exact (hs.unregisterXread _).cancelTimer _
  | skipped hcontext hrequest hparse hfind => exact hs.setContext hcontext _ _
  | @counted wait w hwait count hpoll =>
      refine ⟨hs.blpop, hs.xread, hs.timers, ?_, hs.contexts⟩
      intro w' hmem
      rcases List.mem_or_eq_of_mem_set hmem with hmem | rfl
      · exact hs.waits w' hmem
      · exact hs.waits w (List.mem_of_getElem? hwait)
  | _ => exact hs.congr rfl rfl rfl rfl rfl

/-- A command that is executed directly does not call back an {lit}`EXEC`. -/
@[simp]
theorem isExec_directReply (h : HandlerId) (request : RespValue) (type : CommandType)
    (number : Nat) : (Server.directReply h request type number).isExec = false := by
  unfold Server.directReply
  split
  · rfl
  · exact isExec_onReply h number

/-- The tasks that a task calls hold callbacks with the property. -/
theorem callbacks_tasks_acts {new : List Task} (hown : ∀ onReply : OnReply,
      onReply.isExec = false → Q onReply) (hs : s.Callbacks Q)
    (htask : ∀ onReply, task.callback = some onReply → Q onReply)
    (hmade : task.MakesCallback Q s) (hacts : Acts env s task s' (.ok new)) :
    CallbacksIn Q new := by
  cases hacts with
  | rejected | queued => exact .reply (hown _ (isExec_onReply _ _)) _
  | controls => exact .single (by rintro _ ⟨⟩; exact hown _ (isExec_onReply _ _))
  | dispatched => exact .single (by rintro _ ⟨⟩; exact hown _ (isExec_directReply _ _ _ _))
  | ran => exact callbacks_settle (htask _ rfl) _
  | answered | transacted => exact .reply (htask _ rfl) _
  | @served key value id callback later d more hwaiters hpop =>
      refine .cons ?_ (.single (by rintro _ ⟨⟩))
      rintro _ ⟨⟩
      exact hs.blpop key (id, callback) (by simp [hwaiters])
  | copied key =>
      intro task hmem
      rcases List.mem_map.mp hmem with ⟨waiter, hwaiter, rfl⟩
      rintro _ ⟨⟩
      exact hs.xread key waiter hwaiter
  | woke => exact .reply (htask _ rfl) _
  | finished hcontext => exact .reply (hs.contexts _ (List.mem_of_getElem? hcontext)) _
  | next hcontext hrequest hparse hfind =>
      exact .single (by rintro _ ⟨⟩; exact hmade _ _ _ hcontext hrequest hparse)
  | counted hwait => exact .reply (hs.waits _ (List.mem_of_getElem? hwait)) _
  | started | polls | collected | skipped => exact .single (by rintro _ ⟨⟩)
  | _ => exact .nil

/-- Every event keeps the property, if the callback that {lit}`run_next` makes has
it. -/
theorem callbacks_step {t t' : StoreThread} {event : Event} (hown : ∀ onReply : OnReply,
      onReply.isExec = false → Q onReply) (ht : t.Callbacks Q)
    (hmade : ∀ task, t.stack.head? = some task → task.MakesCallback Q t.server)
    (h : t.step env event = some t') : t'.Callbacks Q := by
  rcases ht with ⟨hs, hstack⟩
  cases moves_of_step h with
  | request s handler request =>
      exact ⟨hs.congr rfl rfl rfl rfl rfl, .single (by rintro _ ⟨⟩)⟩
  | idle s => exact ⟨hs, hstack⟩
  | calls stack hact =>
      have htask := hstack _ List.mem_cons_self
      refine ⟨callbacks_server_acts hs htask (acts_of_act hact), ?_⟩
      refine CallbacksIn.append ?_ (hstack.mono (List.subset_cons_self _ _))
      exact callbacks_tasks_acts hown hs htask (hmade _ rfl) (acts_of_act hact)
  | throws above onReply below hact =>
      refine ⟨callbacks_server_acts hs (hstack _ List.mem_cons_self) (acts_of_act hact), ?_⟩
      refine .cons ?_ (hstack.mono fun task hmem => by simp [hmem])
      rintro _ ⟨⟩
      exact hstack (.tryEnd onReply) (by simp) onReply rfl
  | expires stack htimer harmed => exact ⟨hs.setTimer htimer _, hstack⟩
  | timeout htimer hqueued =>
      refine ⟨?_, .reply (hs.timers _ (List.mem_of_getElem? htimer)) _⟩
      unfold StoreThread.onTimeout
      split
      · exact (hs.setTimer htimer _).unregisterBlpop _
      · exact (hs.setTimer htimer _).unregisterXread _
  | poll hwait hactive => exact ⟨hs, .single (by rintro _ ⟨⟩)⟩
  | attach | detach | ack => exact ⟨hs.congr rfl rfl rfl rfl rfl, hstack⟩

end Steps

/-! ## Runs without {lit}`EXEC` -/

/-- The task is not an {lit}`EXEC`. -/
def Task.notExec : Task → Prop
  | .execute _ _ cmd _ => cmd.type ≠ .exec
  | _ => True

instance : (task : Task) → Decidable task.notExec
  | .execute _ _ cmd _ => inferInstanceAs (Decidable (cmd.type ≠ .exec))
  | .handle _ _ _ | .reply _ _ | .tryEnd _ | .serveBlpop _ | .serveXread _ | .wakeXread _
  | .runNext _ | .waitPoll _ => .isTrue trivial

/-- No {lit}`EXEC` ran its queue. -/
structure NoExec (t : StoreThread) : Prop where
  contexts : t.server.contexts = []
  callbacks : t.Callbacks fun onReply => onReply.isExec = false

theorem noExec_initial (registry : ReplicaRegistry) : NoExec (.withReplicas registry) :=
  ⟨rfl, .initial registry, .nil⟩

/-- Only {lit}`EXEC` makes a context. -/
theorem contexts_acts {s s' : Server} {task : Task} {r : Except Exception (List Task)}
    (hs : s.contexts = []) (htask : task.notExec) (hacts : Acts env s task s' r) :
    s'.contexts = [] := by
  cases hacts with
  | ran => simpa using hs
  | started htype => exact absurd htype htask
  | collected hcontext => simp [hs] at hcontext
  | skipped hcontext => simp [hs] at hcontext
  | _ => exact hs

/-- An event that is not a step of an {lit}`EXEC`. -/
theorem noExec_step {t t' : StoreThread} {event : Event} (ht : NoExec t)
    (htask : ∀ task, t.stack.head? = some task → task.notExec)
    (h : t.step env event = some t') : NoExec t' := by
  refine ⟨?_, callbacks_step (fun _ h => h) ht.callbacks ?_ h⟩
  · rcases ht with ⟨hcontexts, -⟩
    cases moves_of_step h with
    | calls stack hact => exact contexts_acts hcontexts (htask _ rfl) (acts_of_act hact)
    | throws above onReply below hact =>
        exact contexts_acts hcontexts (htask _ rfl) (acts_of_act hact)
    | timeout htimer hqueued => simpa using hcontexts
    | _ => exact hcontexts
  · intro task _
    cases task with
    | runNext context =>
        intro c request cmd hcontext
        simp [ht.contexts] at hcontext
    | _ => trivial

end RedisClone
