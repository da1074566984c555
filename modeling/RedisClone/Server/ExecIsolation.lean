import RedisClone.Server.ExecQueue

/-!
# Isolation of {lit}`EXEC`

The store thread takes up a request only when its stack is empty.  So nothing gets between
the commands of an {lit}`EXEC` as long as they reply at once.  A queued command that blocks
leaves the stack empty, and the rest of the queue runs later, out of the request of another
client.  The same way an {lit}`EXEC` that is suspended goes on between the commands of the
{lit}`EXEC` whose push wakes it.

Main results:

- Theorem {lit}`isolated_step`: an {lit}`EXEC` whose commands do not block stays on the
  stack, alone, until it replies.
- Theorem {lit}`alike_run`: it does what it does when the other threads do nothing.
- Theorem {lit}`exec_isolated`: until the reply no other command is executed, and the table
  and the replies are those of running alone.
-/

namespace RedisClone

variable {env : Env}

/-- The command may reply later. -/
def Command.mayBlock (cmd : Command) : Bool :=
  cmd.type = .blpop || cmd.type = .wait ||
    (cmd.type = .xread && (parseXreadArgs cmd).isBlocking)

/-- The command reads the replica registry, which the network threads change. -/
def Command.readsRegistry (cmd : Command) : Bool :=
  cmd.type = .info || cmd.type = .psync

/-- Something that other threads do: a timer expires, or the replicas change. -/
def Event.outside : Event → Bool
  | .expire _ | .attach | .detach _ | .ack _ _ => true
  | _ => false

/-- The task belongs to the {lit}`EXEC`, or serves a client that waits outside of every
{lit}`EXEC`. -/
def Task.Within (k : Nat) (h : HandlerId) (queue : List RespValue) : Task → Prop
  | .handle _ _ _ => False
  | .execute handler request cmd onReply =>
      onReply.context = some k ∧ parseCommand request = .ok cmd ∧ handler = h ∧ request ∈ queue
  | .reply onReply _ => ∀ c, onReply.context = some c → c = k
  | .tryEnd onReply => onReply.context = some k
  | .serveBlpop _ => True
  | .serveXread _ => True
  | .wakeXread registration => registration.2.onReply.context = none
  | .runNext context => context = k
  | .waitPoll _ => False

/-- No client waits inside an {lit}`EXEC`. -/
structure Server.WaitOutside (s : Server) : Prop where
  blpop : ∀ key, ∀ waiter ∈ s.blpop.waiters key, waiter.2.onReply.context = none
  xread : ∀ key, ∀ waiter ∈ s.xread.waiters key, waiter.2.onReply.context = none

/-- No command of a queue may block. -/
def NoneBlocks (queue : List RespValue) : Prop :=
  ∀ request ∈ queue, ∀ cmd, parseCommand request = .ok cmd → cmd.mayBlock = false

/-- No command of a queue reads the replica registry. -/
def NoneReads (queue : List RespValue) : Prop :=
  ∀ request ∈ queue, ∀ cmd, parseCommand request = .ok cmd → cmd.readsRegistry = false

/-- The {lit}`EXEC` of a handler runs this queue. -/
def Server.Queues (s : Server) (k : Nat) (h : HandlerId) (queue : List RespValue) : Prop :=
  ∀ c, s.contexts[k]? = some c → c.handler = h ∧ c.commands = queue

/-- The {lit}`EXEC` is on the stack, and no other command is. -/
structure Isolated (k : Nat) (h : HandlerId) (queue : List RespValue) (t : StoreThread) :
    Prop where
  goesOn : ∃ task ∈ t.stack, task.continues = some k
  within : ∀ task ∈ t.stack, task.Within k h queue
  waiters : t.server.WaitOutside
  queues : t.server.Queues k h queue

section Steps

variable {k : Nat} {h : HandlerId} {queue : List RespValue} {s s' : Server} {task : Task}
  {stack new : List Task} {t t' : StoreThread} {event : Event}

/-- Waiters are only removed. -/
theorem Server.WaitOutside.mono (h : s.WaitOutside)
    (hblpop : ∀ key, ∀ waiter ∈ s'.blpop.waiters key, waiter ∈ s.blpop.waiters key)
    (hxread : ∀ key, ∀ waiter ∈ s'.xread.waiters key, waiter ∈ s.xread.waiters key) :
    s'.WaitOutside :=
  ⟨fun key waiter hmem => h.blpop key waiter (hblpop key waiter hmem),
    fun key waiter hmem => h.xread key waiter (hxread key waiter hmem)⟩

/-- The context of an {lit}`EXEC` keeps its queue. -/
theorem Server.Queues.set {j : Nat} {c : ExecContext} (hs : s.Queues k h queue)
    (hcontext : s.contexts[j]? = some c) (index : Nat) (results : List Bytes)
    (hs' : s'.contexts = s.contexts.set j { c with index := index, results := results }) :
    s'.Queues k h queue := by
  intro context hget
  by_cases heq : j = k
  · subst heq
    rw [hs', List.getElem?_set_self (List.getElem?_eq_some_iff.mp hcontext).1] at hget
    cases hget
    exact hs c hcontext
  · rw [hs', List.getElem?_set_ne heq] at hget
    exact hs context hget

/-- Only {lit}`BLPOP` and {lit}`XREAD BLOCK` block. -/
theorem answer_of_not_mayBlock {cmd : Command} {now : Reading} {d d' : Store}
    {body : Command → Reading → Store → CommandResult} {outcome : Outcome}
    (hbody : dataCommand cmd.type = some body) (hblock : cmd.mayBlock = false)
    (h : body cmd now d = (d', .ok outcome)) : ∃ a, outcome = .answer a := by
  have hpossible : outcome.PossibleFor cmd.type := possibleFor_of_dataCommand hbody (by rw [h])
  cases outcome with
  | answer a => exact ⟨a, rfl⟩
  | blockBlpop keys timeout =>
      have htype : cmd.type = .blpop := hpossible
      simp [Command.mayBlock, htype] at hblock
  | blockXread streams timeout =>
      have htype : cmd.type = .xread := hpossible
      have hparsed : (parseXreadArgs cmd).isBlocking = false := by
        simpa [Command.mayBlock, htype] using hblock
      rw [htype] at hbody
      cases hbody
      unfold xreadExecute at h
      simp only [hparsed, if_true] at h
      repeat' split at h
      all_goals cases h

/-- The {lit}`EXEC` goes on behind a task that has nothing to do with it. -/
theorem Isolated.rest (hi : Isolated k h queue ⟨s, task :: stack⟩)
    (htask : task.continues ≠ some k) :
    ∃ task' ∈ stack, task'.continues = some k := by
  rcases hi.goesOn with ⟨task', hmem, hk⟩
  rcases List.mem_cons.mp hmem with rfl | hmem
  · exact absurd hk htask
  · exact ⟨task', hmem, hk⟩

/-- A task that calls others. -/
theorem Isolated.calls (hi : Isolated k h queue ⟨s, task :: stack⟩)
    (hgoes : task.continues = some k → ∃ task' ∈ new, task'.continues = some k)
    (hnew : ∀ task' ∈ new, task'.Within k h queue) (hwaiters : s'.WaitOutside)
    (hqueues : s'.Queues k h queue) : Isolated k h queue ⟨s', new ++ stack⟩ := by
  refine ⟨?_, fun task' hmem => ?_, hwaiters, hqueues⟩
  · by_cases htask : task.continues = some k
    · rcases hgoes htask with ⟨task', hmem, hk⟩
      exact ⟨task', List.mem_append_left _ hmem, hk⟩
    · rcases hi.rest htask with ⟨task', hmem, hk⟩
      exact ⟨task', List.mem_append_right _ hmem, hk⟩
  · rcases List.mem_append.mp hmem with hmem | hmem
    · exact hnew task' hmem
    · exact hi.within task' (List.mem_cons_of_mem _ hmem)

/-- A task of the {lit}`EXEC`, or of a client that it serves. -/
theorem isolated_calls (hprompt : NoneBlocks queue) (hi : Isolated k h queue ⟨s, task :: stack⟩)
    (hfrom : task.From fun _ _ => True) (hacts : Acts env s task s' (.ok new)) :
    Isolated k h queue ⟨s', new ++ stack⟩ ∨
      ∃ onReply response, execSteps k ⟨s, task :: stack⟩ .tick = [.replied onReply response] := by
  have htask := hi.within _ List.mem_cons_self
  have hwaiters : s.WaitOutside := hi.waiters
  have hqueues : s.Queues k h queue := hi.queues
  cases hacts with
  | rejected | queued | controls | dispatched => exact htask.elim
  | @ran handler request cmd onReply body d outcome hbody hresult =>
      have hblock := hprompt request htask.2.2.2 cmd htask.2.1
      rcases answer_of_not_mayBlock hbody hblock hresult with ⟨a, rfl⟩
      refine Or.inl (hi.calls (fun _ => ?_) (fun task' hmem => ?_) (hwaiters.mono ?_ ?_) ?_)
      · exact ⟨.reply onReply a.response, by simp [Server.settle], htask.1⟩
      · rcases mem_settle hmem with ⟨key, rfl⟩ | ⟨key, rfl⟩ | ⟨response, rfl⟩ | rfl
        · trivial
        · trivial
        · intro c hc
          rw [htask.1] at hc
          exact (Option.some.inj hc).symm
        · exact htask.1
      · intro key waiter hmem
        simp only [Server.settle] at hmem
        split at hmem <;> exact hmem
      · intro key waiter hmem
        simp only [Server.settle] at hmem
        split at hmem <;> exact hmem
      · unfold Server.Queues
        rw [settle_contexts]
        exact hqueues
  | answered | transacted =>
      refine Or.inl (hi.calls (fun hk => ⟨_, List.mem_cons_self, hk⟩) (fun task' hmem => ?_)
        (hwaiters.mono (fun _ _ hmem => hmem) (fun _ _ hmem => hmem)) hqueues)
      rw [List.mem_singleton.mp hmem]
      intro c hc
      rw [htask.1] at hc
      exact (Option.some.inj hc).symm
  | started htype hactive hclean hqueue =>
      rcases hfrom.2.2 (by rw [htype]; rfl) with ⟨number, rfl⟩
      have hcontext := htask.1
      rw [context_onReply] at hcontext
      contradiction
  | @polls handler request cmd onReply htype wait =>
      have hblock := hprompt request htask.2.2.2 cmd htask.2.1
      simp [Command.mayBlock, htype] at hblock
  | @collected context c hcontext hindex type request response =>
      have heq : context = k := htask context rfl
      subst heq
      refine Or.inl (hi.calls (fun _ => ⟨_, List.mem_cons_self, rfl⟩) (fun task' hmem => ?_) ?_ ?_)
      · rw [List.mem_singleton.mp hmem]
        rfl
      · split <;> exact hwaiters.mono (fun _ _ hmem => hmem) (fun _ _ hmem => hmem)
      · split <;> exact hqueues.set hcontext _ _ rfl
  | @served key value id callback later d more hwaiter hpop =>
      have hnone := hwaiters.blpop key (id, callback) (by simp [hwaiter])
      refine Or.inl (hi.calls (fun hk => by contradiction) (fun task' hmem => ?_)
        (hwaiters.mono (fun _ _ hmem => BlockingRegistry.mem_waiters_of_unregister hmem)
          (fun _ _ hmem => hmem)) hqueues)
      simp only [List.mem_cons, List.not_mem_nil, or_false] at hmem
      rcases hmem with rfl | rfl
      · intro c hc
        rw [hnone] at hc
        contradiction
      · trivial
  | @woke id callback results hread =>
      refine Or.inl (hi.calls (fun hk => by contradiction) (fun task' hmem => ?_)
        (hwaiters.mono (fun _ _ hmem => hmem)
          (fun _ _ hmem => BlockingRegistry.mem_waiters_of_unregister hmem)) hqueues)
      rw [List.mem_singleton.mp hmem]
      intro c hc
      rw [htask] at hc
      contradiction
  | copied key =>
      refine Or.inl (hi.calls (fun hk => by contradiction) (fun task' hmem => ?_) hwaiters hqueues)
      rcases List.mem_map.mp hmem with ⟨waiter, hwaiter, rfl⟩
      exact hwaiters.xread key waiter hwaiter
  | @finished context c hcontext hindex =>
      have heq : context = k := htask
      subst heq
      refine Or.inr ⟨c.onReply, Server.execReply c.results, ?_⟩
      simp [execSteps, Server.runNext, hcontext, hindex, Task.replyStep]
  | @next context c request cmd hcontext hrequest hparse hfind =>
      have heq : context = k := htask
      subst heq
      refine Or.inl (hi.calls (fun _ => ⟨_, List.mem_cons_self, rfl⟩) (fun task' hmem => ?_)
        hwaiters hqueues)
      rw [List.mem_singleton.mp hmem]
      rcases hqueues c hcontext with ⟨hhandler, hcommands⟩
      have hmember : request ∈ queue := hcommands ▸ List.mem_of_getElem? hrequest
      exact ⟨rfl, hparse, hhandler, hmember⟩
  | @skipped context c request cmd hcontext hrequest hparse hfind =>
      have heq : context = k := htask
      subst heq
      refine Or.inl (hi.calls (fun _ => ⟨_, List.mem_cons_self, rfl⟩) (fun task' hmem => ?_)
        (hwaiters.mono (fun _ _ hmem => hmem) (fun _ _ hmem => hmem))
        (hqueues.set hcontext _ _ rfl))
      rw [List.mem_singleton.mp hmem]
      rfl
  | counted | waits | unknownWait => exact htask.elim
  | written | dropped | propagated | passed | unawaited | unserved =>
      exact Or.inl (hi.calls (fun hk => by contradiction) (by simp)
        (hwaiters.mono (fun _ _ hmem => hmem) (fun _ _ hmem => hmem)) hqueues)

/-- A task of the {lit}`EXEC` that throws inside a {lit}`try` block. -/
theorem isolated_throws {e : Exception} {above below : List Task} {onReply : OnReply}
    (hi : Isolated k h queue ⟨s, task :: (above ++ .tryEnd onReply :: below)⟩)
    (hacts : Acts env s task s' (.error e)) :
    Isolated k h queue ⟨s', .reply onReply (exceptionReply e) :: below⟩ := by
  have hclause : onReply.context = some k := hi.within (.tryEnd onReply) (by simp)
  have hserver : s'.WaitOutside ∧ s'.Queues k h queue := by
    have hwaiters : s.WaitOutside := hi.waiters
    have hqueues : s.Queues k h queue := hi.queues
    cases hacts with
    | wokeThrew hread =>
        exact ⟨hwaiters.mono (fun _ _ hmem => hmem)
          (fun _ _ hmem => BlockingRegistry.mem_waiters_of_unregister hmem), hqueues⟩
    | threw | overrun | stuck =>
        exact ⟨hwaiters.mono (fun _ _ hmem => hmem) (fun _ _ hmem => hmem), hqueues⟩
  refine ⟨⟨_, List.mem_cons_self, hclause⟩, fun task' hmem => ?_, hserver.1, hserver.2⟩
  rcases List.mem_cons.mp hmem with rfl | hmem
  · intro c hc
    rw [hclause] at hc
    exact (Option.some.inj hc).symm
  · exact hi.within task' (by simp [hmem])

/-- Until the {lit}`EXEC` replies, nothing else is taken up. -/
theorem isolated_step (hprompt : NoneBlocks queue) (hi : Isolated k h queue t)
    (hfrom : t.From fun _ _ => True) (hstep : t.step env event = some t') :
    (event = .tick ∨ event.outside = true) ∧
      (Isolated k h queue t' ∨
        ∃ onReply response, execSteps k t event = [.replied onReply response]) := by
  rcases hi.goesOn with ⟨first, hfirst, -⟩
  cases moves_of_step hstep with
  | request | idle | timeout | poll => contradiction
  | calls stack hact =>
      exact ⟨Or.inl rfl,
        isolated_calls hprompt hi (hfrom.stack _ List.mem_cons_self) (acts_of_act hact)⟩
  | throws above onReply below hact =>
      exact ⟨Or.inl rfl, Or.inl (isolated_throws hi (acts_of_act hact))⟩
  | expires | attach | detach | ack =>
      exact ⟨Or.inr rfl, Or.inl ⟨hi.goesOn, hi.within,
        hi.waiters.mono (fun _ _ hmem => hmem) (fun _ _ hmem => hmem), hi.queues⟩⟩

/-- A run up to the reply of the {lit}`EXEC`. -/
theorem isolated_run {events : List Event} (hprompt : NoneBlocks queue)
    (hi : Isolated k h queue t) (hfrom : t.From fun _ _ => True) (hrun : t.run env events = some t')
    (hopen : ∀ onReply response, .replied onReply response ∉
      Execution.observe (StoreThread.step env) (execSteps k) t events) :
    Isolated k h queue t' ∧ t'.From fun _ _ => True := by
  induction events generalizing t with
  | nil =>
      cases hrun
      exact ⟨hi, hfrom⟩
  | cons event events ih =>
      rcases Execution.follow_cons hrun with ⟨m, hone, hrest⟩
      simp only [Execution.observe, hone, List.mem_append, not_or] at hopen
      have hfrom' := from_step hfrom (show event.From fun _ _ => True by cases event <;> trivial)
        hone
      rcases (isolated_step hprompt hi hfrom hone).2 with hm | ⟨onReply, response, hreplied⟩
      · exact ih hm hfrom' hrest fun onReply response => (hopen onReply response).2
      · have hnot := (hopen onReply response).1
        rw [hreplied] at hnot
        simp at hnot

end Steps

/-! ## Running alone -/

/-- The same server with other timers, another replica registry and another history. -/
def Server.beside (s : Server) (timers : List Timer) (replicas : ReplicaRegistry)
    (trace : List TraceEntry) : Server :=
  { s with timers := timers, replicas := replicas, trace := trace }

/-- The servers differ in their timers, their replica registries and their histories only. -/
def Server.Alike (s s' : Server) : Prop :=
  ∃ timers replicas trace, s' = s.beside timers replicas trace

/-- The same outcome, on servers that are alike. -/
def AlikeWith {β : Type} (r r' : Server × β) : Prop :=
  r.1.Alike r'.1 ∧ r.2 = r'.2

section Alike

variable {s s' : Server} {h : HandlerId} {request : RespValue} {cmd : Command} {onReply : OnReply}

theorem AlikeWith.ite {β : Type} {r₁ r₁' r₂ r₂' : Server × β} (c : Prop) [Decidable c]
    (h₁ : AlikeWith r₁ r₁') (h₂ : AlikeWith r₂ r₂') :
    AlikeWith (if c then r₁ else r₂) (if c then r₁' else r₂') := by
  split
  · exact h₁
  · exact h₂

theorem AlikeWith.ok {r r' : Server × List Task} (h : AlikeWith r r') :
    AlikeWith ((r.1, .ok r.2) : Reaction) (r'.1, .ok r'.2) :=
  ⟨h.1, congrArg Except.ok h.2⟩

theorem alike_executeOther (hs : s.Alike s') (hblock : cmd.mayBlock = false)
    (hreads : cmd.readsRegistry = false) :
    AlikeWith (s.executeOther env h cmd onReply) (s'.executeOther env h cmd onReply) := by
  rcases hs with ⟨timers, replicas, trace, rfl⟩
  unfold Server.executeOther
  cases htype : cmd.type with
  | multi => exact ⟨⟨timers, replicas, trace, rfl⟩, rfl⟩
  | exec =>
      refine .ite _ ⟨⟨timers, replicas, trace, rfl⟩, rfl⟩ ?_
      refine .ite _ ⟨⟨timers, replicas, trace, rfl⟩, rfl⟩ ?_
      exact .ite _ ⟨⟨timers, replicas, trace, rfl⟩, rfl⟩ ⟨⟨timers, replicas, trace, rfl⟩, rfl⟩
  | discard =>
      exact .ite _ ⟨⟨timers, replicas, trace, rfl⟩, rfl⟩ ⟨⟨timers, replicas, trace, rfl⟩, rfl⟩
  | watch =>
      refine .ite _ ⟨⟨timers, replicas, trace, rfl⟩, rfl⟩ ?_
      cases checkArgs cmd 1 with
      | none => exact ⟨⟨timers, replicas, trace, rfl⟩, rfl⟩
      | some err => exact ⟨⟨timers, replicas, trace, rfl⟩, rfl⟩
  | unwatch =>
      exact .ite _ ⟨⟨timers, replicas, trace, rfl⟩, rfl⟩ ⟨⟨timers, replicas, trace, rfl⟩, rfl⟩
  | wait => simp [Command.mayBlock, htype] at hblock
  | info | psync => simp [Command.readsRegistry, htype] at hreads
  | _ => exact ⟨⟨timers, replicas, trace, rfl⟩, rfl⟩

theorem alike_execute (hs : s.Alike s') (hblock : cmd.mayBlock = false)
    (hreads : cmd.readsRegistry = false) :
    AlikeWith (s.execute env h request cmd onReply) (s'.execute env h request cmd onReply) := by
  rcases hs with ⟨timers, replicas, trace, rfl⟩
  unfold Server.execute
  cases hbody : dataCommand cmd.type with
  | some body =>
      simp only [Server.executeData, Server.beside]
      rcases hresult : body cmd (env.reading s.readings) s.data with ⟨d, r⟩
      cases r with
      | error e => exact ⟨⟨timers, replicas, trace, rfl⟩, rfl⟩
      | ok outcome =>
          rcases answer_of_not_mayBlock hbody hblock hresult with ⟨a, rfl⟩
          simp only [Server.settle]
          cases a.notify with
          | none => exact ⟨⟨timers, replicas, _, rfl⟩, rfl⟩
          | some key => exact ⟨⟨timers, replicas, _, rfl⟩, rfl⟩
  | none => exact (alike_executeOther ⟨timers, replicas, _, rfl⟩ hblock hreads).ok

theorem alike_reply {response : Bytes} (hs : s.Alike s') :
    AlikeWith (s.reply onReply response) (s'.reply onReply response) := by
  rcases hs with ⟨timers, replicas, trace, rfl⟩
  cases onReply with
  | connection number => exact ⟨⟨timers, replicas, _, rfl⟩, rfl⟩
  | discard => exact ⟨⟨timers, replicas, trace, rfl⟩, rfl⟩
  | propagating number raw => exact ⟨⟨timers, _, _, rfl⟩, rfl⟩
  | exec context type request =>
      simp only [Server.reply, Server.execCallback, Server.beside]
      cases s.contexts[context]? with
      | none => exact ⟨⟨timers, replicas, trace, rfl⟩, rfl⟩
      | some c =>
          refine .ite _ ⟨?_, rfl⟩ ⟨⟨timers, replicas, trace, rfl⟩, rfl⟩
          by_cases hwrite : c.handler.hasReplicaRegistry ∧ isWriteCommand type
          · simp only [hwrite, and_self, if_true]
            exact ⟨timers, _, _, rfl⟩
          · simp only [hwrite, if_false]
            exact ⟨timers, replicas, trace, rfl⟩

theorem alike_runNext {context : Nat} (hs : s.Alike s') :
    AlikeWith (s.runNext context) (s'.runNext context) := by
  rcases hs with ⟨timers, replicas, trace, rfl⟩
  simp only [Server.runNext, Server.beside]
  cases s.contexts[context]? with
  | none => exact ⟨⟨timers, replicas, trace, rfl⟩, rfl⟩
  | some c =>
      refine .ite _ ⟨⟨timers, replicas, trace, rfl⟩, rfl⟩ ?_
      cases c.commands[c.index]? with
      | none => exact ⟨⟨timers, replicas, trace, rfl⟩, rfl⟩
      | some request =>
          cases hparse : parseCommand request with
          | error e => simpa only [hparse] using ⟨⟨timers, replicas, trace, rfl⟩, rfl⟩
          | ok cmd =>
              simp only [hparse]
              exact .ite _ ⟨⟨timers, replicas, trace, rfl⟩, rfl⟩
                ⟨⟨timers, replicas, trace, rfl⟩, rfl⟩

theorem alike_serveBlpop {key : Bytes} (hs : s.Alike s') :
    AlikeWith (s.serveBlpop key) (s'.serveBlpop key) := by
  rcases hs with ⟨timers, replicas, trace, rfl⟩
  simp only [Server.serveBlpop, Server.beside]
  rcases s.blpop.waiters key with _ | ⟨⟨id, callback⟩, later⟩
  · exact ⟨⟨timers, replicas, trace, rfl⟩, rfl⟩
  · rcases s.data.lpop key 1 with ⟨d, e | _ | ⟨value, values⟩⟩
    · exact ⟨⟨timers, replicas, trace, rfl⟩, rfl⟩
    · exact ⟨⟨timers, replicas, trace, rfl⟩, rfl⟩
    · exact ⟨⟨_, replicas, trace, rfl⟩, rfl⟩

/-- What a task of the {lit}`EXEC` does, it does on servers that are alike. -/
theorem alike_act {k : Nat} {queue : List RespValue} {task : Task}
    (hprompt : NoneBlocks queue) (hreads : NoneReads queue) (htask : task.Within k h queue)
    (hs : s.Alike s') : AlikeWith (s.act env task) (s'.act env task) := by
  cases task with
  | handle => exact htask.elim
  | execute handler request cmd onReply =>
      exact alike_execute hs (hprompt request htask.2.2.2 cmd htask.2.1)
        (hreads request htask.2.2.2 cmd htask.2.1)
  | reply onReply response => exact alike_reply hs
  | tryEnd onReply => exact ⟨hs, rfl⟩
  | serveBlpop key => exact (alike_serveBlpop hs).ok
  | serveXread key =>
      rcases hs with ⟨timers, replicas, trace, rfl⟩
      exact ⟨⟨timers, replicas, trace, rfl⟩, rfl⟩
  | wakeXread registration =>
      rcases hs with ⟨timers, replicas, trace, rfl⟩
      exact ⟨⟨_, replicas, trace, rfl⟩, rfl⟩
  | runNext context => exact alike_runNext hs
  | waitPoll wait => exact htask.elim

/-- Threads that differ in their timers, their replica registries and their histories. -/
def StoreThread.Alike (t u : StoreThread) : Prop :=
  t.server.Alike u.server ∧ u.stack = t.stack

theorem StoreThread.Alike.refl (t : StoreThread) : t.Alike t :=
  ⟨⟨_, _, _, rfl⟩, rfl⟩

theorem StoreThread.Alike.data {t u : StoreThread} (halike : t.Alike u) :
    u.server.data = t.server.data := by
  rcases halike.1 with ⟨timers, replicas, trace, hserver⟩
  rw [hserver]
  rfl

theorem StoreThread.Alike.contexts {t u : StoreThread} (halike : t.Alike u) :
    u.server.contexts = t.server.contexts := by
  rcases halike.1 with ⟨timers, replicas, trace, hserver⟩
  rw [hserver]
  rfl

/-- A step of the {lit}`EXEC` on threads that are alike. -/
theorem alike_tick {k : Nat} {queue : List RespValue} {t t' u : StoreThread}
    (hprompt : NoneBlocks queue) (hreads : NoneReads queue) (hi : Isolated k h queue t)
    (halike : t.Alike u) (hstep : t.step env .tick = some t') :
    ∃ u', u.step env .tick = some u' ∧ t'.Alike u' := by
  rcases t with ⟨s, stack⟩
  rcases u with ⟨s', stack'⟩
  rcases halike with ⟨hs, hstack⟩
  cases hstack
  cases stack with
  | nil =>
      rcases hi.goesOn with ⟨task, hmem, -⟩
      contradiction
  | cons task rest =>
      have hact : AlikeWith (s.act env task) (s'.act env task) :=
        alike_act hprompt hreads (hi.within _ List.mem_cons_self) hs
      simp only [StoreThread.step, CallStack.Machine.step, storeMachine] at hstep ⊢
      rcases hleft : s.act env task with ⟨s₁, r⟩
      rcases hright : s'.act env task with ⟨s₁', r'⟩
      rw [hleft, hright] at hact
      rcases hact with ⟨hs₁, hr⟩
      cases hr
      rw [hleft] at hstep
      cases r with
      | ok new =>
          cases hstep
          exact ⟨⟨s₁', new ++ rest⟩, rfl, hs₁, rfl⟩
      | error e =>
          simp only [Option.map_eq_some_iff] at hstep
          rcases hstep with ⟨p, ⟨stack', hunwind, rfl⟩, rfl⟩
          exact ⟨⟨s₁', stack'⟩, by simp [hunwind], hs₁, rfl⟩

/-- What the other threads do changes timers and replicas only. -/
theorem alike_outside {t t' u : StoreThread} {event : Event} (houtside : event.outside = true)
    (halike : t.Alike u) (hstep : t.step env event = some t') : t'.Alike u := by
  rcases halike with ⟨⟨timers, replicas, trace, hserver⟩, hstack⟩
  cases moves_of_step hstep with
  | request | idle | timeout | poll | calls | throws => contradiction
  | expires | attach | detach | ack => exact ⟨⟨timers, replicas, trace, hserver⟩, hstack⟩

/-- The thread has something to do. -/
def Event.isTick : Event → Bool
  | .tick => true
  | _ => false

/-- An event up to the reply of the {lit}`EXEC`. -/
theorem alike_event {k : Nat} {queue : List RespValue} {t t' u : StoreThread} {event : Event}
    (hprompt : NoneBlocks queue) (hreads : NoneReads queue) (hi : Isolated k h queue t)
    (halike : t.Alike u) (hevent : event = .tick ∨ event.outside = true)
    (hstep : t.step env event = some t') :
    ∃ u', u.run env ([event].filter Event.isTick) = some u' ∧ t'.Alike u' := by
  rcases hevent with rfl | houtside
  · rcases alike_tick hprompt hreads hi halike hstep with ⟨u', hu, halike'⟩
    refine ⟨u', ?_, halike'⟩
    rw [List.filter_cons_of_pos rfl, StoreThread.run, Execution.follow, hu]
    rfl
  · have htick : event.isTick = false := by
      cases event <;> first | rfl | contradiction
    refine ⟨u, ?_, alike_outside houtside halike hstep⟩
    rw [List.filter_cons_of_neg (by simp [htick])]
    rfl

/-- A run up to the reply of the {lit}`EXEC` does what the {lit}`EXEC` does alone. -/
theorem alike_run {k : Nat} {queue : List RespValue} {t t' u : StoreThread} {events : List Event}
    (hprompt : NoneBlocks queue) (hreads : NoneReads queue) (hi : Isolated k h queue t)
    (hfrom : t.From fun _ _ => True) (halike : t.Alike u) (hrun : t.run env events = some t')
    (hopen : ∀ onReply response, .replied onReply response ∉
      Execution.observe (StoreThread.step env) (execSteps k) t events) :
    ∃ u', u.run env (events.filter Event.isTick) = some u' ∧ t'.Alike u' := by
  induction events generalizing t u with
  | nil =>
      cases hrun
      exact ⟨u, rfl, halike⟩
  | cons event events ih =>
      rcases Execution.follow_cons hrun with ⟨m, hone, hrest⟩
      simp only [Execution.observe, hone, List.mem_append, not_or] at hopen
      have hfrom' := from_step hfrom (show event.From fun _ _ => True by cases event <;> trivial)
        hone
      rcases isolated_step hprompt hi hfrom hone with ⟨hevent, hnext⟩
      have hm : Isolated k h queue m := by
        rcases hnext with hm | ⟨onReply, response, hreplied⟩
        · exact hm
        · have hnot := (hopen onReply response).1
          rw [hreplied] at hnot
          simp at hnot
      rcases alike_event hprompt hreads hi halike hevent hone with ⟨u', hu, halike'⟩
      rcases ih hm hfrom' halike' hrest fun onReply response => (hopen onReply response).2 with
        ⟨u'', hrun', halike''⟩
      refine ⟨u'', ?_, halike''⟩
      rw [← List.singleton_append, List.filter_append]
      exact (Execution.follow_append hu).trans hrun'

end Alike

/-- {lit}`EXEC` leaves the waiters alone. -/
theorem waitOutside_of_exec {s : Server} {h : HandlerId} {request : RespValue} {cmd : Command}
    {onReply : OnReply} {stack : List Task} {t : StoreThread} (htype : cmd.type = .exec)
    (hs : s.WaitOutside)
    (hstep : StoreThread.step env ⟨s, .execute h request cmd onReply :: stack⟩ .tick = some t) :
    t.server.WaitOutside := by
  have hbody : dataCommand cmd.type = none := by
    rw [htype]
    rfl
  have hserver : ∀ {s' : Server} {r : Except Exception (List Task)},
      Acts env s (.execute h request cmd onReply) s' r → s'.WaitOutside := by
    intro s' r hacts
    cases hacts with
    | threw hdata | ran hdata =>
        rw [hbody] at hdata
        contradiction
    | _ => exact hs.mono (fun _ _ hmem => hmem) (fun _ _ hmem => hmem)
  cases moves_of_step hstep with
  | calls stack hact => exact hserver (acts_of_act hact)
  | throws above onReply below hact => exact hserver (acts_of_act hact)

/-- Without timers nobody waits. -/
theorem waitOutside_of_timers {s : Server} {stack : List Task} (hcoherent : Coherent ⟨s, stack⟩)
    (htimers : s.timers = []) : s.WaitOutside := by
  have hheld : s.held = [] := by
    rw [Server.held, htimers]
    rfl
  refine ⟨fun key waiter hmem => ?_, fun key waiter hmem => ?_⟩
  · have htied := hcoherent.tied.blpop key waiter hmem
    rw [hheld] at htied
    contradiction
  · have htied := hcoherent.tied.xread key waiter hmem
    rw [hheld] at htied
    contradiction

/-- Between the start of an {lit}`EXEC` and its reply the store thread takes up no request,
no timer and no poll, and every command that it executes belongs to the {lit}`EXEC`, if no
queued command may block and no client waits inside another {lit}`EXEC`.  So the table and
the replies are those of an {lit}`EXEC` that runs alone, unless a queued command reads the
replica registry, which is not of the store thread. -/
theorem exec_isolated {registry : ReplicaRegistry} {before events : List Event} {s : Server}
    {h : HandlerId} {request : RespValue} {cmd : Command} {onReply : OnReply} {stack : List Task}
    {t t' : StoreThread} {event : Event}
    (hbefore : (StoreThread.withReplicas registry).run env before =
      some ⟨s, .execute h request cmd onReply :: stack⟩)
    (htype : cmd.type = .exec) (hactive : (s.transactions h).inTransaction = true)
    (hclean : (s.transactions h).dirty = false)
    (hqueue : (s.transactions h).queuedCommands ≠ [])
    (hprompt : NoneBlocks (s.transactions h).queuedCommands) (hwaiters : s.WaitOutside)
    (hrun : StoreThread.run env ⟨s, .execute h request cmd onReply :: stack⟩ (.tick :: events) =
      some t)
    (hopen : ∀ onReply' response, .replied onReply' response ∉
      Execution.observe (StoreThread.step env) (execSteps s.contexts.length)
        ⟨s, .execute h request cmd onReply :: stack⟩ (.tick :: events))
    (hstep : t.step env event = some t') :
    (event = .tick ∨ event.outside = true) ∧
      (∀ handler sent executed callback rest,
        t.stack = .execute handler sent executed callback :: rest →
        callback.context = some s.contexts.length ∧ handler = h ∧
          sent ∈ (s.transactions h).queuedCommands) ∧
      (NoneReads (s.transactions h).queuedCommands →
        ∃ u, StoreThread.run env ⟨s, .execute h request cmd onReply :: stack⟩
            ((.tick :: events ++ [event]).filter Event.isTick) = some u ∧
          u.server.data = t'.server.data ∧ u.server.contexts = t'.server.contexts ∧
          u.stack = t'.stack) := by
  have hcoherent := coherent_run hbefore
  rcases Execution.follow_cons hrun with ⟨m, hone, hrest⟩
  rcases runs_start hcoherent htype hactive hclean hqueue hone with ⟨hstack, -, hstart⟩
  have hfrom : m.From fun _ _ => True := (coherent_step hcoherent hone).requests
  have hm : Isolated s.contexts.length h (s.transactions h).queuedCommands m := by
    refine ⟨⟨.runNext s.contexts.length, by rw [hstack]; exact List.mem_cons_self, rfl⟩,
      fun task hmem => ?_, ?_, fun c hcontext => ?_⟩
    · rw [hstack] at hmem
      rw [List.mem_singleton.mp hmem]
      rfl
    · exact waitOutside_of_exec htype hwaiters hone
    · rw [hstart.context] at hcontext
      cases hcontext
      exact ⟨rfl, rfl⟩
  simp only [Execution.observe, hone, List.mem_append, not_or] at hopen
  rcases isolated_run hprompt hm hfrom hrest fun onReply' response => (hopen onReply' response).2
    with ⟨ht, hfrom'⟩
  have hevent := (isolated_step hprompt ht hfrom' hstep).1
  refine ⟨hevent, ?_, fun hreads => ?_⟩
  · intro handler sent executed callback rest htop
    have hwithin := ht.within _ (by rw [htop]; exact List.mem_cons_self)
    exact ⟨hwithin.1, hwithin.2.2.1, hwithin.2.2.2⟩
  · -- the first step is the same in both runs
    rcases alike_run hprompt hreads hm hfrom (StoreThread.Alike.refl m) hrest
      fun onReply' response => (hopen onReply' response).2 with ⟨u, hu, halike⟩
    rcases alike_event hprompt hreads ht halike hevent hstep with ⟨u', hu', halike'⟩
    refine ⟨u', ?_, halike'.data, halike'.contexts, halike'.2⟩
    rw [List.cons_append, List.filter_cons_of_pos rfl, List.filter_append, StoreThread.run,
      Execution.follow, hone]
    exact (Execution.follow_append hu).trans hu'

/-! ## Sample runs -/

/-- The commands of a queue, read with {lit}`toOption`. -/
theorem forall_queued (queue : List RespValue) (p : Command → Prop) :
    (∀ request ∈ queue, ∀ cmd ∈ (parseCommand request).toOption, p cmd) ↔
      ∀ request ∈ queue, ∀ cmd, parseCommand request = .ok cmd → p cmd := by
  refine forall₂_congr fun request _ => forall_congr' fun cmd => ?_
  cases parseCommand request with
  | error e => simp [Except.toOption]
  | ok queued => simp [Except.toOption]

instance (queue : List RespValue) : Decidable (NoneBlocks queue) :=
  decidable_of_iff (∀ request ∈ queue, ∀ cmd ∈ (parseCommand request).toOption,
    cmd.mayBlock = false) (forall_queued _ _)

instance (queue : List RespValue) : Decidable (NoneReads queue) :=
  decidable_of_iff (∀ request ∈ queue, ∀ cmd ∈ (parseCommand request).toOption,
    cmd.readsRegistry = false) (forall_queued _ _)

/-- {lit}`on_reply` of the {lit}`EXEC` is called. -/
def ExecStep.isReplied : ExecStep → Bool
  | .replied _ _ => true
  | _ => false

/-- {lit}`MULTI`, {lit}`SET x 1`, {lit}`GET x`, and {lit}`EXEC` up to its execution. -/
def promptQueue : List Event :=
  job 0 (.short (ascii "MULTI") [] (Eq.refl true)) 3 ++
    job 0 (.short (ascii "SET") [ascii "x", ascii "1"] (Eq.refl true)) 2 ++
    job 0 (.short (ascii "GET") [ascii "x"] (Eq.refl true)) 2 ++
    job 0 (.short (ascii "EXEC") [] (Eq.refl true)) 1

/-- The queue is run, and a replica is registered meanwhile. -/
def attachedMeanwhile : List Event :=
  [.tick, .attach, .tick, .tick, .tick, .tick, .tick]

/-- The {lit}`EXEC` replies what it replies when nothing is registered. -/
theorem exec_isolated_attached :
    ∃ s request cmd onReply t t' u,
      (StoreThread.withReplicas .empty).run sampleEnv promptQueue =
        some ⟨s, [.execute (.client 0) request cmd onReply]⟩ ∧
      StoreThread.run sampleEnv ⟨s, [.execute (.client 0) request cmd onReply]⟩
        (.tick :: attachedMeanwhile) = some t ∧
      t.step sampleEnv .tick = some t' ∧
      StoreThread.run sampleEnv ⟨s, [.execute (.client 0) request cmd onReply]⟩
        (List.replicate 8 .tick) = some u ∧
      t'.server.replicas.replicas.length = 1 ∧ u.server.replicas.replicas.length = 0 ∧
      u.server.data = t'.server.data ∧ u.stack = t'.stack := by
  have hfacts : ((StoreThread.withReplicas .empty).run sampleEnv promptQueue).bind (fun m =>
      (m.run sampleEnv (.tick :: attachedMeanwhile)).bind fun t =>
        (t.step sampleEnv .tick).bind fun t' =>
          (m.run sampleEnv (List.replicate 8 .tick)).map fun u =>
            (m.stack.map Task.isFirstExec,
              [m.server.contexts.length, m.server.timers.length,
                t'.server.replicas.replicas.length, u.server.replicas.replicas.length],
              [(m.server.transactions (.client 0)).inTransaction,
                !(m.server.transactions (.client 0)).dirty,
                !(m.server.transactions (.client 0)).queuedCommands.isEmpty,
                decide (NoneBlocks (m.server.transactions (.client 0)).queuedCommands),
                decide (NoneReads (m.server.transactions (.client 0)).queuedCommands),
                (Execution.observe (StoreThread.step sampleEnv) (execSteps 0) m
                  (.tick :: attachedMeanwhile)).all fun step => !step.isReplied])) =
      some ([true], [0, 0, 1, 0], [true, true, true, true, true, true]) := by
    decide +kernel
  rcases Option.bind_eq_some_iff.mp hfacts with ⟨⟨s, stack⟩, hbefore, hlater⟩
  rcases Option.bind_eq_some_iff.mp hlater with ⟨t, hrun, hlast⟩
  rcases Option.bind_eq_some_iff.mp hlast with ⟨t', hstep, halone⟩
  rcases Option.map_eq_some_iff.mp halone with ⟨u, hticks, hvalues⟩
  simp only [Prod.mk.injEq, List.cons.injEq, and_true, decide_eq_true_eq, List.all_eq_true,
    Bool.not_eq_true', List.isEmpty_eq_false_iff] at hvalues
  rcases hvalues with ⟨hstack, ⟨hlength, htimers, hattached, hnone⟩, hactive, hclean, hqueue,
    hprompt, hreads, hopen⟩
  rcases eq_exec_of_isFirstExec hstack with ⟨request, cmd, onReply, rfl, htype⟩
  have hwaiters : s.WaitOutside :=
    waitOutside_of_timers (coherent_run hbefore) (List.length_eq_zero_iff.mp htimers)
  have hsilent : ∀ onReply' response, .replied onReply' response ∉
      Execution.observe (StoreThread.step sampleEnv) (execSteps s.contexts.length)
        ⟨s, [.execute (.client 0) request cmd onReply]⟩ (.tick :: attachedMeanwhile) := by
    intro onReply' response hmem
    rw [hlength] at hmem
    exact absurd (hopen _ hmem) (by simp [ExecStep.isReplied])
  rcases (exec_isolated hbefore htype hactive hclean hqueue hprompt hwaiters hrun hsilent
    hstep).2.2 hreads with ⟨u', hu', hdata, -, hsame⟩
  have hu : some u' = some u := hu'.symm.trans hticks
  cases hu
  exact ⟨s, request, cmd, onReply, t, t', u, hbefore, hrun, hstep, hticks, hattached, hnone,
    hdata, hsame⟩

/-- {lit}`MULTI`, {lit}`BLPOP k 0`, {lit}`GET x`, and {lit}`EXEC` up to its execution. -/
def suspendingQueue : List Event :=
  job 0 (.short (ascii "MULTI") [] (Eq.refl true)) 3 ++
    job 0 (.short (ascii "BLPOP") [ascii "k", ascii "0"] (Eq.refl true)) 2 ++
    job 0 (.short (ascii "GET") [ascii "x"] (Eq.refl true)) 2 ++
    job 0 (.short (ascii "EXEC") [] (Eq.refl true)) 1

/-- {lit}`EXEC` up to {lit}`BLPOP`, and {lit}`SET x 1` and {lit}`RPUSH k e` of another
client. -/
def setMeanwhile : List Event :=
  List.replicate 3 .tick ++
    job 1 (.short (ascii "SET") [ascii "x", ascii "1"] (Eq.refl true)) 4 ++
    job 1 (.short (ascii "RPUSH") [ascii "k", ascii "e"] (Eq.refl true)) 14

/-- The commands that were executed, and by whom. -/
def TraceEntry.execution : TraceEntry → Option (HandlerId × CommandType)
  | .executed handler type _ => some (handler, type)
  | _ => none

/-- {lit}`SET x 1` of another client is executed between two commands of one {lit}`EXEC`, and
the second one reads the new value. -/
theorem blocked_exec_interleaved :
    ((StoreThread.withReplicas .empty).run sampleEnv suspendingQueue).bind (fun m =>
        (m.run sampleEnv setMeanwhile).map fun t =>
          ((m.server.data (ascii "x")).isNone,
            t.server.trace.filterMap TraceEntry.execution,
            decide (.replied 3 (ascii "*2\r\n*2\r\n$1\r\nk\r\n$1\r\ne\r\n$1\r\n1\r\n") ∈
              t.server.trace), t.stack)) =
      some (true,
        [(.client 0, .multi), (.client 0, .exec), (.client 0, .blpop), (.client 1, .set),
          (.client 1, .rpush), (.client 0, .get)], true, []) := by
  decide +kernel

end RedisClone
