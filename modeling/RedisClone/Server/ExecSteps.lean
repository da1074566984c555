import RedisClone.Server.Coherence
import RedisClone.Server.ReadOnly

/-!
# The steps of {lit}`EXEC`

{lit}`run_next` runs the queue of an {lit}`EXEC` one command after the other.  It goes on
when the callback of the last command is called, which may be later, out of a timer or
out of the push of another client.  The callbacks of one {lit}`EXEC` share an index, so
what the queue does rests on each callback being called once.

Main results:

- Theorem {lit}`spends_acts`: a task outside the loop adds no call of a callback, unless
  it answers a blocked command.
- Theorem {lit}`runs_step`: an {lit}`EXEC` whose commands reply once goes on in at most
  one place, and its results are the replies so far.
- Theorem {lit}`runs_run`: so it is in every run.
-/

namespace RedisClone

variable {env : Env}

/-! ## The steps of an {lit}`EXEC` -/

/-- What an {lit}`EXEC` does. -/
inductive ExecStep where
  /-- A queued command is executed. -/
  | begun (request : RespValue)
  /-- The callback of the command is called. -/
  | returned (response : Bytes)
  /-- {lit}`on_reply` of the {lit}`EXEC` is called. -/
  | replied (onReply : OnReply) (response : Bytes)
deriving DecidableEq

/-- The call of {lit}`on_reply` that a task is. -/
def Task.replyStep : Task → Option ExecStep
  | .reply onReply response => some (.replied onReply response)
  | _ => none

/-- What an event is for the {lit}`EXEC` with a number: a queued command that runs, a callback
that is called, and the calls of {lit}`on_reply` that {lit}`run_next` makes. -/
def execSteps (k : Nat) (t : StoreThread) : Event → List ExecStep
  | .tick =>
      match t.stack with
      | .execute _ request _ onReply :: _ =>
          if onReply.context = some k then [.begun request] else []
      | .reply onReply response :: _ =>
          if onReply.context = some k then [.returned response] else []
      | .runNext context :: _ =>
          if context = k then
            match (t.server.runNext context).2 with
            | .ok calls => calls.filterMap Task.replyStep
            | .error _ => []
          else []
      | _ => []
  | _ => []

/-- The command of the request is registered. -/
def isRegistered (kind : RegistryKind) (request : RespValue) : Bool :=
  match parseCommand request with
  | .ok cmd => findCommand kind cmd.type
  | .error _ => false

/-- The sequential loop: the registered commands of a queue, one after the other, each
with its reply. -/
def sequential (kind : RegistryKind) : List RespValue → List Bytes → List ExecStep
  | request :: requests, response :: responses =>
      (if isRegistered kind request then [.begun request, .returned response] else []) ++
        sequential kind requests responses
  | _, _ => []

/-- The responses of the commands that are not registered. -/
def UnknownEntries (kind : RegistryKind) (requests : List RespValue) (responses : List Bytes) :
    Prop :=
  ∀ (i : Nat) request cmd, requests[i]? = some request → parseCommand request = .ok cmd →
    findCommand kind cmd.type = false →
    responses[i]? = some (ascii "-ERR unknown command '" ++ cmd.name ++ ascii "'\r\n")

/-- The blocked commands of the {lit}`EXEC` that an event answers, by their timers. -/
def answersOf (k : Nat) (t : StoreThread) (event : Event) : List Nat :=
  (answers t event).filter fun i => (t.server.held[i]?.bind OnReply.context) = some k

/-- The callback that a {lit}`catch` clause calls. -/
def Task.clause : Task → Option OnReply
  | .tryEnd onReply => some onReply
  | _ => none

/-- The callback that is called because an event throws. -/
def caught (env : Env) (t : StoreThread) : Event → Option OnReply
  | .tick =>
      match t.stack with
      | [] => none
      | task :: rest =>
          match (t.server.act env task).2 with
          | .error _ => rest.findSome? Task.clause
          | .ok _ => none
  | _ => none

/-- The commands of the {lit}`EXEC` reply at most once: no blocked one is answered twice,
and no {lit}`catch` clause replies for one that has replied before. -/
structure RepliesOnce (env : Env) (k : Nat) (t : StoreThread) (events : List Event) : Prop where
  answers : (Execution.observe (StoreThread.step env) (answersOf k) t events).Nodup
  caught : Execution.Along (StoreThread.step env)
    (fun t event => ∀ onReply ∈ caught env t event, onReply.context ≠ some k) t events

/-! ## Counting -/

/-- The calls of the {lit}`EXEC` that are on their way, with those of timers that were
answered already. -/
def inFlight (k : Nat) (s : Server) (tasks : List Task) : Nat :=
  tasks.countP (fun task => task.continues = some k) +
    s.held.countP (fun onReply => onReply.context = some k) +
    s.waits.countP (fun w => w.continues = some k)

theorem inFlight_append (k : Nat) (s : Server) (new stack : List Task) :
    inFlight k s (new ++ stack) =
      inFlight k s new + stack.countP fun task => task.continues = some k := by
  unfold inFlight
  rw [List.countP_append]
  omega

theorem inFlight_cons (k : Nat) (s : Server) (task : Task) (stack : List Task) :
    inFlight k s (task :: stack) =
      inFlight k s [task] + stack.countP fun task => task.continues = some k :=
  inFlight_append k s [task] stack

/-- Different positions at which a property holds are no more than the elements with the
property. -/
theorem length_le_countP {α : Type} {p : α → Bool} {l : List α} {positions : List Nat}
    (hnodup : positions.Nodup) (h : ∀ i ∈ positions, ∃ a, l[i]? = some a ∧ p a = true) :
    positions.length ≤ l.countP p := by
  induction l using List.reverseRecOn generalizing positions with
  | nil =>
      cases positions with
      | nil => exact Nat.le_refl _
      | cons i positions =>
          rcases h i List.mem_cons_self with ⟨a, ha, -⟩
          simp at ha
  | append_singleton l last ih =>
      have hold : ∀ i ∈ positions, i ≠ l.length → ∃ a, l[i]? = some a ∧ p a = true := by
        intro i hi hne
        rcases h i hi with ⟨a, ha, hp⟩
        have hlt := (List.getElem?_eq_some_iff.mp ha).1
        rw [List.length_append, List.length_singleton] at hlt
        rw [List.getElem?_append_left (by omega)] at ha
        exact ⟨a, ha, hp⟩
      rw [List.countP_append]
      by_cases hlast : l.length ∈ positions
      · have hrest := ih (hnodup.erase l.length) fun i hi => by
          rcases (List.Nodup.mem_erase_iff hnodup).mp hi with ⟨hne, hmem⟩
          exact hold i hmem hne
        rw [List.length_erase_of_mem hlast] at hrest
        rcases h l.length hlast with ⟨a, ha, hp⟩
        rw [List.getElem?_concat_length] at ha
        cases ha
        simp only [List.countP_cons, List.countP_nil, hp, if_true]
        omega
      · have hrest := ih hnodup fun i hi => hold i hi fun heq => hlast (heq ▸ hi)
        omega

section Spends

variable {k : Nat} {s s' : Server} {task : Task} {new stack : List Task} {answered : List Nat}

/-- A task that is not part of the loop of the {lit}`EXEC` adds no call, unless it answers
a blocked command. -/
structure Spends (k : Nat) (s : Server) (task : Task) (s' : Server) (new : List Task)
    (answered : List Nat) : Prop where
  context : s'.contexts[k]? = s.contexts[k]?
  flight : inFlight k s' new ≤ inFlight k s [task] + answered.length
  replies : ∀ task' ∈ new, task'.continues = some k →
    ∃ onReply response, task' = .reply onReply response

/-- The task has nothing to do with the {lit}`EXEC`. -/
theorem Spends.quiet (hcontext : s'.contexts[k]? = s.contexts[k]?) (hheld : s'.held = s.held)
    (hwaits : s'.waits = s.waits) (hnew : ∀ task' ∈ new, task'.continues ≠ some k) :
    Spends k s task s' new answered := by
  refine ⟨hcontext, ?_, fun task' hmem hk => absurd hk (hnew task' hmem)⟩
  have hzero : new.countP (fun task => task.continues = some k) = 0 := by
    rw [List.countP_eq_zero]
    intro task' hmem
    simpa using hnew task' hmem
  unfold inFlight
  rw [hzero, hheld, hwaits]
  omega

/-- The task replies with its own callback. -/
theorem Spends.hand {onReply : OnReply} {response : Bytes}
    (hcontext : s'.contexts[k]? = s.contexts[k]?) (hheld : s'.held = s.held)
    (hwaits : s'.waits = s.waits) (htask : task.continues = onReply.context) :
    Spends k s task s' [.reply onReply response] answered := by
  refine ⟨hcontext, ?_, fun task' hmem _ => ⟨_, _, List.mem_singleton.mp hmem⟩⟩
  have hcount : [Task.reply onReply response].countP (fun task => task.continues = some k) =
      [task].countP fun task => task.continues = some k := by
    by_cases hc : onReply.context = some k <;> simp [htask, hc]
  unfold inFlight
  rw [hcount, hheld, hwaits]
  omega

/-- A waiter is called, and its timer is cancelled. -/
theorem Spends.answer {onReply : OnReply} {response : Bytes} {more : List Task} {i : Nat}
    (hcontext : s'.contexts[k]? = s.contexts[k]?) (hheld : s'.held = s.held)
    (hwaits : s'.waits = s.waits) (hi : s.held[i]? = some onReply)
    (hmore : ∀ task' ∈ more, task'.continues = none) :
    Spends k s task s' (.reply onReply response :: more)
      ([i].filter fun i => (s.held[i]?.bind OnReply.context) = some k) := by
  refine ⟨hcontext, ?_, fun task' hmem hk => ?_⟩
  · have hzero : more.countP (fun task => task.continues = some k) = 0 := by
      rw [List.countP_eq_zero]
      intro task' hmem
      simp [hmore task' hmem]
    simp only [inFlight, hheld, hwaits, List.countP_cons, hzero, continues_reply]
    by_cases hk : onReply.context = some k
    · simp [hi, hk]
      omega
    · simp [hk]
      omega
  · rcases List.mem_cons.mp hmem with rfl | hmem
    · exact ⟨_, _, rfl⟩
    · rw [hmore task' hmem] at hk
      contradiction

/-- A command on the keyspace replies with its callback, or blocks with it. -/
theorem spends_settle (h : HandlerId) (request : RespValue) (cmd : Command) (onReply : OnReply)
    (outcome : Outcome) :
    Spends k s (.execute h request cmd onReply) (s.settle onReply outcome).1
      (s.settle onReply outcome).2 answered := by
  refine ⟨by rw [settle_contexts], ?_, fun task' hmem hk => ?_⟩
  · cases outcome with
    | answer a =>
        have hheld : (s.settle onReply (.answer a)).1.held = s.held := by
          simp only [Server.settle]
          split <;> rfl
        have hwake : (Server.wakeTasks a.wake).countP (fun task => task.continues = some k) = 0 := by
          rw [List.countP_eq_zero]
          intro task' hmem
          cases hw : a.wake with
          | none => simp [hw, Server.wakeTasks] at hmem
          | some wake =>
              cases wake <;> simp [hw, Server.wakeTasks] at hmem <;> simp [hmem, Task.continues]
        have hguard : (if a.guarded then [Task.tryEnd onReply] else []).countP
            (fun task => task.continues = some k) = 0 := by
          split <;> simp [Task.continues]
        have hcount : (s.settle onReply (.answer a)).2.countP (fun task => task.continues = some k) =
            [Task.execute h request cmd onReply].countP fun task => task.continues = some k := by
          simp only [Server.settle, List.countP_append, List.countP_cons, hwake, hguard]
          by_cases hc : onReply.context = some k <;> simp [hc]
        unfold inFlight
        rw [hcount, hheld, settle_waits]
        omega
    | blockBlpop keys timeout =>
        by_cases hc : onReply.context = some k
        · simp [inFlight, Server.settle, Server.held, hc]
          omega
        · simp [inFlight, Server.settle, Server.held, hc]
    | blockXread streams timeout =>
        by_cases hc : onReply.context = some k
        · simp [inFlight, Server.settle, Server.held, hc]
          omega
        · simp [inFlight, Server.settle, Server.held, hc]
  · rcases mem_settle hmem with ⟨key, rfl⟩ | ⟨key, rfl⟩ | ⟨response, rfl⟩ | rfl
    · contradiction
    · contradiction
    · exact ⟨_, _, rfl⟩
    · contradiction

/-- Every task outside the loop of the {lit}`EXEC`. -/
theorem spends_acts (hcoherent : Coherent ⟨s, task :: stack⟩) (hk : k < s.contexts.length)
    (hnext : task ≠ .runNext k)
    (hreply : ∀ onReply response, task = .reply onReply response → onReply.context ≠ some k)
    (hacts : Acts env s task s' (.ok new)) :
    Spends k s task s' new (answersOf k ⟨s, task :: stack⟩ .tick) := by
  have hset : ∀ {j : Nat} (c : ExecContext), j ≠ k → (s.contexts.set j c)[k]? = s.contexts[k]? :=
    fun c hne => List.getElem?_set_ne hne
  cases hacts with
  | rejected | queued => exact .quiet rfl rfl rfl (by simp)
  | controls | dispatched => exact .quiet rfl rfl rfl (by simp)
  | @ran h request cmd onReply body d outcome hbody hresult =>
      have hsettle := @spends_settle k ((s.withData d).record (.executed h cmd.type request))
        (answersOf k ⟨s, .execute h request cmd onReply :: stack⟩ .tick) h request cmd onReply outcome
      exact ⟨hsettle.context, hsettle.flight, hsettle.replies⟩
  | answered hbody hrefused hother => exact .hand rfl rfl rfl rfl
  | transacted hchange => exact .hand rfl rfl rfl rfl
  | started htype hactive hclean hqueue =>
      refine .quiet ?_ rfl rfl ?_
      · simp only [Server.addContext_contexts]
        exact List.getElem?_append_left hk
      · intro task' hmem heq
        rw [List.mem_singleton.mp hmem, continues_runNext, Option.some.injEq] at heq
        exact Nat.ne_of_lt hk heq.symm
  | @polls h request cmd onReply htype wait =>
      refine ⟨rfl, ?_, by simp [Task.continues]⟩
      simp only [inFlight, Server.held, Server.addWait_timers, Server.addWait_waits,
        List.countP_append, List.countP_cons, List.countP_nil, continues_execute]
      by_cases hc : onReply.context = some k
      · simp [hc, Task.continues, WaitState.continues]
        omega
      · simp [hc, Task.continues, WaitState.continues]
  | @collected context c hcontext hindex type request response =>
      have hne : context ≠ k := by
        rintro rfl
        exact hreply _ _ rfl rfl
      have hnew : ∀ task' ∈ [Task.runNext context], task'.continues ≠ some k := by
        intro task' hmem heq
        rw [List.mem_singleton.mp hmem, continues_runNext, Option.some.injEq] at heq
        exact hne heq
      split
      · exact .quiet (hset _ hne) rfl rfl hnew
      · exact .quiet (hset _ hne) rfl rfl hnew
  | @served key value id callback later d more hwaiters hpop =>
      have hi := hcoherent.tied.blpop key (id, callback) (by simp [hwaiters])
      unfold answersOf
      rw [answers_served stack hwaiters hpop]
      exact .answer rfl (held_cancelTimer _ _) rfl hi (by simp [Task.continues])
  | @woke id callback results hread =>
      have hi := hcoherent.tied.wakes (id, callback) List.mem_cons_self
      unfold answersOf
      rw [answers_woke stack hread]
      exact .answer rfl (held_cancelTimer _ _) rfl hi (by simp)
  | @finished context c hcontext hindex =>
      refine .quiet rfl rfl rfl fun task' hmem heq => ?_
      rw [List.mem_singleton.mp hmem, continues_reply,
        hcoherent.replies c (List.mem_of_getElem? hcontext)] at heq
      contradiction
  | @next context c request cmd hcontext hrequest hparse hfind =>
      refine .quiet rfl rfl rfl fun task' hmem heq => hnext ?_
      rw [List.mem_singleton.mp hmem, continues_execute] at heq
      cases heq
      rfl
  | @skipped context c request cmd hcontext hrequest hparse hfind =>
      have hne : context ≠ k := fun heq => hnext (by rw [heq])
      refine .quiet (hset _ hne) rfl rfl fun task' hmem heq => ?_
      rw [List.mem_singleton.mp hmem, continues_runNext, Option.some.injEq] at heq
      exact hne heq
  | @counted wait w hwait count hpoll =>
      rcases hcoherent.polling.top wait rfl with ⟨w', hw', hactive⟩
      rw [hwait] at hw'
      cases hw'
      refine ⟨rfl, ?_, fun task' hmem _ => ⟨_, _, List.mem_singleton.mp hmem⟩⟩
      have hcontinues : w.continues = w.onReply.context := by simp [WaitState.continues, hactive]
      have hcount := @countP_set_of_getElem? WaitState (fun w => w.continues = some k) s.waits wait w
        hwait ⟨w.wait, w.onReply, false⟩
      simp only [inFlight, Server.held, Server.setWait_timers, Server.countReading_timers,
        Server.setWait_waits, Server.countReading_waits, List.countP_cons, List.countP_nil,
        continues_reply, hcontinues] at hcount ⊢
      by_cases hc : w.onReply.context = some k <;>
        simp [hc, Task.continues, WaitState.continues] at hcount ⊢ <;> omega
  | copied key =>
      refine .quiet rfl rfl rfl fun task' hmem => ?_
      rcases List.mem_map.mp hmem with ⟨registration, -, rfl⟩
      simp [Task.continues]
  | _ => exact .quiet rfl rfl rfl (by simp)

/-- A task that throws adds no call. -/
theorem flight_throws {e : Exception} (hacts : Acts env s task s' (.error e)) :
    s'.contexts = s.contexts ∧ s'.held = s.held ∧ s'.waits = s.waits := by
  cases hacts with
  | wokeThrew hread => exact ⟨rfl, held_cancelTimer _ _, rfl⟩
  | threw | overrun | stuck => exact ⟨rfl, rfl, rfl⟩

end Spends

/-! ## Sequences of results -/

section Sequential

variable {kind : RegistryKind}

/-- One part of the queue after the other. -/
theorem sequential_append {requests requests' : List RespValue} {responses responses' : List Bytes}
    (h : requests.length = responses.length) :
    sequential kind (requests ++ requests') (responses ++ responses') =
      sequential kind requests responses ++ sequential kind requests' responses' := by
  induction requests generalizing responses with
  | nil =>
      cases responses with
      | nil => rfl
      | cons => contradiction
  | cons request requests ih =>
      cases responses with
      | nil => contradiction
      | cons response responses =>
          simp only [List.cons_append, sequential]
          rw [ih (Nat.succ.inj h), List.append_assoc]

/-- The results up to one that is stored. -/
theorem take_set_succ {α : Type} {l : List α} {i : Nat} (h : i < l.length) (a : α) :
    (l.set i a).take (i + 1) = l.take i ++ [a] := by
  rw [List.take_succ_eq_append_getElem (by simpa using h), List.getElem_set_self,
    List.take_set_of_le (Nat.le_refl _)]

/-- The queue up to its next command. -/
theorem take_succ_of_getElem? {α : Type} {l : List α} {i : Nat} {a : α} (h : l[i]? = some a) :
    l.take (i + 1) = l.take i ++ [a] := by
  rw [List.take_add_one, h]
  rfl

end Sequential

/-- What the {lit}`EXEC` has done up to its index. -/
def ExecContext.done (c : ExecContext) : List ExecStep :=
  sequential c.handler.kind (c.commands.take c.index) (c.results.take c.index)

/-- The context behind one more result. -/
def ExecContext.store (c : ExecContext) (response : Bytes) : ExecContext :=
  { c with index := c.index + 1, results := c.results.set c.index response }

/-- One more result. -/
theorem done_store {c : ExecContext} {request : RespValue}
    (hresults : c.results.length = c.commands.length)
    (hrequest : c.commands[c.index]? = some request) (response : Bytes) :
    (c.store response).done = c.done ++
      if isRegistered c.handler.kind request then [.begun request, .returned response] else [] := by
  have hlt := (List.getElem?_eq_some_iff.mp hrequest).1
  unfold ExecContext.done ExecContext.store
  simp only
  rw [take_set_succ (hresults ▸ hlt), take_succ_of_getElem? hrequest, sequential_append]
  · simp [sequential]
  · simp [hresults]

/-- Where the {lit}`EXEC` is, with what it has done. -/
inductive Phase (k : Nat) (c : ExecContext) (t : StoreThread) (seen : List Nat) :
    List ExecStep → Prop
  /-- {lit}`run_next` is called. -/
  | next {rest : List Task} (hstack : t.stack = .runNext k :: rest) : Phase k c t seen c.done
  /-- The next command is executed. -/
  | executes {request : RespValue} {cmd : Command} {rest : List Task}
      (hstack : t.stack = .execute c.handler request cmd (.exec k cmd.type request) :: rest)
      (hrequest : c.commands[c.index]? = some request) (hparse : parseCommand request = .ok cmd)
      (hfind : findCommand c.handler.kind cmd.type = true) : Phase k c t seen c.done
  /-- The command has not replied. -/
  | awaits {request : RespValue} (hrequest : c.commands[c.index]? = some request)
      (hregistered : isRegistered c.handler.kind request = true)
      (hreplies : ∀ task ∈ t.stack, task.continues = some k →
        ∃ onReply response, task = .reply onReply response) :
      Phase k c t seen (c.done ++ [.begun request])
  /-- The {lit}`EXEC` has replied. -/
  | finished (hindex : c.index = c.commands.length)
      (hflight : inFlight k t.server t.stack ≤ seen.length) :
      Phase k c t seen (c.done ++ [.replied c.onReply (Server.execReply c.results)])

/-- The {lit}`EXEC` goes on in at most one place, and its results are the replies so
far. -/
structure Runs (k : Nat) (c : ExecContext) (t : StoreThread) (seen : List Nat)
    (trace : List ExecStep) : Prop where
  context : t.server.contexts[k]? = some c
  results : c.results.length = c.commands.length
  index : c.index ≤ c.commands.length
  unknown : ∀ i < c.index, ∀ request cmd, c.commands[i]? = some request →
    parseCommand request = .ok cmd → findCommand c.handler.kind cmd.type = false →
    c.results[i]? = some (Server.unknownCommand cmd)
  held : ∀ i ∈ seen, ∃ onReply, t.server.held[i]? = some onReply ∧ onReply.context = some k
  flight : inFlight k t.server t.stack ≤ 1 + seen.length
  phase : Phase k c t seen trace

/-- Two contexts of one {lit}`EXEC`. -/
structure SameExec (c c' : ExecContext) : Prop where
  handler : c'.handler = c.handler
  onReply : c'.onReply = c.onReply
  commands : c'.commands = c.commands

section Runs

variable {k : Nat} {c : ExecContext} {s s' : Server} {t t' : StoreThread} {event : Event}
  {task : Task} {stack new : List Task} {seen answered : List Nat} {trace trace' : List ExecStep}

/-- The answered commands are among those that hold timers. -/
theorem Runs.seen_le (h : Runs k c t seen trace) (hnodup : seen.Nodup) :
    seen.length ≤ t.server.held.countP fun onReply => onReply.context = some k := by
  refine length_le_countP hnodup fun i hi => ?_
  rcases h.held i hi with ⟨onReply, hheld, hk⟩
  exact ⟨onReply, hheld, by simpa using hk⟩

/-- A task that goes on with the {lit}`EXEC` is the only one. -/
theorem Runs.alone (h : Runs k c ⟨s, task :: stack⟩ seen trace) (hnodup : seen.Nodup)
    (htask : task.continues = some k) :
    ∀ task' ∈ stack, task'.continues ≠ some k := by
  intro task' hmem hk
  have hflight := h.flight
  have hseen := h.seen_le hnodup
  have hpos : 1 ≤ stack.countP fun task => task.continues = some k :=
    List.one_le_countP_iff.mpr ⟨task', hmem, by simpa using hk⟩
  simp only [inFlight, List.countP_cons, htask, decide_true, if_true] at hflight hseen
  omega

/-- An {lit}`EXEC` that has replied goes on nowhere. -/
theorem not_continues_of_flight (h : Runs k c ⟨s, task :: stack⟩ seen trace) (hnodup : seen.Nodup)
    (hflight : inFlight k s (task :: stack) ≤ seen.length) : task.continues ≠ some k := by
  intro hk
  have hseen := h.seen_le hnodup
  simp only [inFlight, List.countP_cons, hk, decide_true, if_true] at hflight hseen
  omega

/-- A task outside the loop of the {lit}`EXEC`. -/
theorem Runs.spend (h : Runs k c ⟨s, task :: stack⟩ seen trace)
    (hspends : Spends k s task s' new answered) (hkept : HeldKept s s')
    (hanswered : ∀ i ∈ answered, ∃ onReply, s.held[i]? = some onReply ∧ onReply.context = some k)
    (hphase : Phase k c ⟨s', new ++ stack⟩ (seen ++ answered) trace') :
    Runs k c ⟨s', new ++ stack⟩ (seen ++ answered) trace' := by
  refine ⟨hspends.context.trans h.context, h.results, h.index, h.unknown, fun i hi => ?_, ?_, hphase⟩
  · have hold : ∃ onReply, s.held[i]? = some onReply ∧ onReply.context = some k := by
      rcases List.mem_append.mp hi with hi | hi
      · exact h.held i hi
      · exact hanswered i hi
    rcases hold with ⟨onReply, hheld, hk⟩
    exact ⟨onReply, hkept.getElem? hheld, hk⟩
  · have hflight := h.flight
    have hspent := hspends.flight
    simp only at hflight ⊢
    rw [inFlight_cons] at hflight
    rw [inFlight_append, List.length_append]
    omega

/-- One more result keeps those of the commands that are not registered. -/
theorem Runs.unknown_store (h : Runs k c t seen trace) {request : RespValue} {response : Bytes}
    (hrequest : c.commands[c.index]? = some request)
    (hresponse : ∀ cmd, parseCommand request = .ok cmd →
      findCommand c.handler.kind cmd.type = false → response = Server.unknownCommand cmd) :
    ∀ i < c.index + 1, ∀ request cmd, c.commands[i]? = some request →
      parseCommand request = .ok cmd → findCommand c.handler.kind cmd.type = false →
      (c.results.set c.index response)[i]? = some (Server.unknownCommand cmd) := by
  intro i hi request' cmd hrequest' hparse hfind
  by_cases heq : i = c.index
  · subst heq
    rw [hrequest] at hrequest'
    cases hrequest'
    have hlt := (List.getElem?_eq_some_iff.mp hrequest).1
    rw [List.getElem?_set_self (h.results ▸ hlt), hresponse cmd hparse hfind]
  · rw [List.getElem?_set_ne (Ne.symm heq)]
    exact h.unknown i (Nat.lt_of_le_of_ne (Nat.le_of_lt_succ hi) heq) request' cmd hrequest' hparse
      hfind

/-- The commands that an event answers hold timers. -/
theorem held_of_answersOf {i : Nat} (hi : i ∈ answersOf k t event) :
    ∃ onReply, t.server.held[i]? = some onReply ∧ onReply.context = some k := by
  have hfilter := (List.mem_filter.mp hi).2
  simp only [decide_eq_true_eq] at hfilter
  exact Option.bind_eq_some_iff.mp hfilter

/-- What a task is for an {lit}`EXEC` with which it does not go on. -/
theorem execSteps_of_ne (htask : task.continues ≠ some k) :
    execSteps k ⟨s, task :: stack⟩ .tick = [] := by
  cases task with
  | execute h request cmd onReply => exact if_neg htask
  | reply onReply response => exact if_neg htask
  | runNext context =>
      exact if_neg fun heq => htask (by rw [heq]; rfl)
  | _ => rfl

/-- {lit}`run_next` of the {lit}`EXEC`. -/
theorem runs_runNext (h : Runs k c ⟨s, .runNext k :: stack⟩ seen trace) (hnodup : seen.Nodup)
    (hcoherent : Coherent ⟨s, .runNext k :: stack⟩)
    (hstep : StoreThread.step env ⟨s, .runNext k :: stack⟩ .tick = some t') :
    ∃ c', SameExec c c' ∧
      Runs k c' t' seen (trace ++ execSteps k ⟨s, .runNext k :: stack⟩ .tick) := by
  have hcontext : s.contexts[k]? = some c := h.context
  have halone := h.alone hnodup rfl
  have htrace : trace = c.done := by
    cases h.phase with
    | next => rfl
    | executes hstack => cases hstack
    | awaits hrequest hregistered hreplies =>
        rcases hreplies _ List.mem_cons_self rfl with ⟨onReply, response, heq⟩
        contradiction
    | finished hindex hflight => exact absurd rfl (not_continues_of_flight h hnodup hflight)
  subst htrace
  by_cases hindex : c.index = c.commands.length
  · -- the end of the queue
    have hact : s.act env (.runNext k) =
        (s, .ok [.reply c.onReply (Server.execReply c.results)]) := by
      simp only [Server.act, Server.runNext, hcontext, if_pos hindex]
    rw [step_tick hact] at hstep
    cases hstep
    have hsteps : execSteps k ⟨s, .runNext k :: stack⟩ .tick =
        [.replied c.onReply (Server.execReply c.results)] := by
      simp [execSteps, Server.runNext, hcontext, hindex, Task.replyStep]
    rw [hsteps]
    have hreply := hcoherent.replies c (List.mem_of_getElem? hcontext)
    have hflight : inFlight k s (.reply c.onReply (Server.execReply c.results) :: stack) ≤
        seen.length := by
      have hold := h.flight
      simp only [inFlight, List.countP_cons, continues_reply, continues_runNext, hreply,
        decide_true, if_true, reduceCtorEq, decide_false, Bool.false_eq_true, if_false] at hold ⊢
      omega
    exact ⟨c, ⟨rfl, rfl, rfl⟩, hcontext, h.results, h.index, h.unknown, h.held,
      Nat.le_trans hflight (Nat.le_add_left _ _), .finished hindex hflight⟩
  · have hlt : c.index < c.commands.length := Nat.lt_of_le_of_ne h.index hindex
    rcases (hcoherent.requests.server.contexts c (List.mem_of_getElem? hcontext)).2 _
      (List.getElem_mem hlt) with ⟨-, cmd, hparse, -⟩
    have hrequest : c.commands[c.index]? = some c.commands[c.index] := List.getElem?_eq_getElem hlt
    have hsteps : execSteps k ⟨s, .runNext k :: stack⟩ .tick = [] := by
      simp only [execSteps, Server.runNext, hcontext, if_neg hindex, hrequest, hparse, if_true]
      by_cases hfind : findCommand c.handler.kind cmd.type = true <;> simp [hfind, Task.replyStep]
    rw [hsteps, List.append_nil]
    cases hfind : findCommand c.handler.kind cmd.type with
    | true =>
        have hact : s.act env (.runNext k) = (s, .ok [.execute c.handler c.commands[c.index] cmd
            (.exec k cmd.type c.commands[c.index])]) := by
          simp only [Server.act, Server.runNext, hcontext, if_neg hindex, hrequest, hparse, hfind,
            if_true]
        rw [step_tick hact] at hstep
        cases hstep
        refine ⟨c, ⟨rfl, rfl, rfl⟩, hcontext, h.results, h.index, h.unknown, h.held, ?_,
          .executes rfl hrequest hparse hfind⟩
        have hold := h.flight
        simp only [inFlight, List.cons_append, List.nil_append, List.countP_cons,
          continues_execute, continues_runNext, OnReply.context] at hold ⊢
        exact hold
    | false =>
        have hact : s.act env (.runNext k) =
            (s.setContext k (c.store (Server.unknownCommand cmd)), .ok [.runNext k]) := by
          simp only [Server.act, Server.runNext, hcontext, if_neg hindex, hrequest, hparse, hfind,
            Bool.false_eq_true, if_false]
          rfl
        rw [step_tick hact] at hstep
        cases hstep
        have hdone : (c.store (Server.unknownCommand cmd)).done = c.done := by
          rw [done_store h.results hrequest]
          simp [isRegistered, hparse, hfind]
        rw [← hdone]
        refine ⟨c.store (Server.unknownCommand cmd), ⟨rfl, rfl, rfl⟩, ?_, ?_, hlt, ?_, h.held,
          h.flight, .next rfl⟩
        · exact List.getElem?_set_self (List.getElem?_eq_some_iff.mp hcontext).1
        · simp [ExecContext.store, h.results]
        · refine h.unknown_store hrequest fun cmd' hparse' _ => ?_
          rw [hparse] at hparse'
          cases hparse'
          rfl

/-- The callback of a queued command. -/
theorem runs_reply {onReply : OnReply} {response : Bytes}
    (h : Runs k c ⟨s, .reply onReply response :: stack⟩ seen trace) (hnodup : seen.Nodup)
    (honReply : onReply.context = some k)
    (hstep : StoreThread.step env ⟨s, .reply onReply response :: stack⟩ .tick = some t') :
    ∃ c', SameExec c c' ∧
      Runs k c' t' seen (trace ++ execSteps k ⟨s, .reply onReply response :: stack⟩ .tick) := by
  have hcontext : s.contexts[k]? = some c := h.context
  have hsteps : execSteps k ⟨s, .reply onReply response :: stack⟩ .tick = [.returned response] :=
    if_pos honReply
  rw [hsteps]
  cases h.phase with
  | next hstack => cases hstack
  | executes hstack => cases hstack
  | finished hindex hflight =>
      exact absurd honReply (not_continues_of_flight h hnodup hflight)
  | @awaits request hrequest hregistered hreplies =>
      have hlt := (List.getElem?_eq_some_iff.mp hrequest).1
      have hdone : c.done ++ [.begun request] ++ [.returned response] = (c.store response).done := by
        rw [done_store h.results hrequest, if_pos hregistered]
        simp
      rw [hdone]
      cases onReply with
      | exec context type sent =>
          cases honReply
          -- with or without the propagation of a write command
          have hact : ∃ s', s.act env (.reply (.exec k type sent) response) =
              (s', .ok [.runNext k]) ∧ s'.contexts = s.contexts.set k (c.store response) ∧
              s'.held = s.held ∧ s'.waits = s.waits := by
            simp only [Server.act, Server.reply, Server.execCallback, hcontext,
              if_pos (h.results ▸ hlt : c.index < c.results.length)]
            refine ⟨_, rfl, ?_, ?_, ?_⟩ <;> (split <;> rfl)
          rcases hact with ⟨s', hact, hcontexts, hheld, hwaits⟩
          rw [step_tick hact] at hstep
          cases hstep
          refine ⟨c.store response, ⟨rfl, rfl, rfl⟩, ?_, ?_, hlt, ?_, ?_, ?_, .next rfl⟩
          · simp only [hcontexts]
            exact List.getElem?_set_self (List.getElem?_eq_some_iff.mp hcontext).1
          · simp [ExecContext.store, h.results]
          · refine h.unknown_store hrequest fun cmd hparse hfind => ?_
            simp only [isRegistered, hparse, hfind] at hregistered
            contradiction
          · simp only [hheld]
            exact h.held
          · have hold := h.flight
            simp only [inFlight, hheld, hwaits, List.cons_append, List.nil_append, List.countP_cons,
              continues_reply, continues_runNext, OnReply.context] at hold ⊢
            exact hold
      | _ => contradiction

/-- The clause that handles an exception. -/
theorem unwind_clause {e : Exception} {stack stack' : List Task}
    (h : (storeMachine env).unwind e stack = some stack') :
    ∃ onReply below, stack.findSome? Task.clause = some onReply ∧ below.Sublist stack ∧
      stack' = .reply onReply (exceptionReply e) :: below := by
  induction stack with
  | nil => contradiction
  | cons task rest ih =>
      cases task with
      | tryEnd onReply =>
          cases h
          exact ⟨onReply, rest, rfl, List.sublist_cons_self _ _, rfl⟩
      | _ =>
          rcases ih h with ⟨onReply, below, hfind, hbelow, heq⟩
          exact ⟨onReply, below, hfind, hbelow.cons _, heq⟩

/-- The topmost task calls others, or throws and a clause replies. -/
theorem tick_cases (hstep : StoreThread.step env ⟨s, task :: stack⟩ .tick = some t') :
    (∃ s' new, s.act env task = (s', .ok new) ∧ t' = ⟨s', new ++ stack⟩) ∨
      ∃ s' e onReply below, s.act env task = (s', .error e) ∧
        caught env ⟨s, task :: stack⟩ .tick = some onReply ∧ below.Sublist stack ∧
        t' = ⟨s', .reply onReply (exceptionReply e) :: below⟩ := by
  rcases Option.map_eq_some_iff.mp hstep with ⟨⟨s', stack'⟩, hmachine, rfl⟩
  rcases CallStack.step_cons hmachine with ⟨new, hact, rfl⟩ | ⟨e, hact, hunwind⟩
  · exact Or.inl ⟨s', new, hact, rfl⟩
  · have hact' : s.act env task = (s', .error e) := hact
    rcases unwind_clause hunwind with ⟨onReply, below, hfind, hbelow, rfl⟩
    refine Or.inr ⟨s', e, onReply, below, hact', ?_, hbelow, rfl⟩
    simp only [caught, hact']
    exact hfind

/-- A task that throws answers no blocked command. -/
theorem answersOf_throws {e : Exception} (hacts : Acts env s task s' (.error e)) :
    answersOf k ⟨s, task :: stack⟩ .tick = [] := by
  cases hacts with
  | wokeThrew hread => simp [answersOf, answers, hread]
  | threw | overrun | stuck => rfl

/-- The calls that are left behind an exception. -/
theorem inFlight_throws {e : Exception} {onReply : OnReply} {response : Bytes} {below : List Task}
    (hacts : Acts env s task s' (.error e)) (hbelow : below.Sublist stack)
    (honReply : onReply.context ≠ some k) :
    inFlight k s' (.reply onReply response :: below) +
      (if task.continues = some k then 1 else 0) ≤ inFlight k s (task :: stack) := by
  rcases flight_throws hacts with ⟨-, hheld, hwaits⟩
  have hcount := hbelow.countP_le (p := fun task => task.continues = some k)
  simp only [inFlight, hheld, hwaits, List.countP_cons, continues_reply, honReply, decide_false,
    Bool.false_eq_true, if_false, decide_eq_true_eq]
  omega

/-- The {lit}`EXEC` behind an exception. -/
theorem Runs.throws {e : Exception} {onReply : OnReply} {response : Bytes} {below : List Task}
    (h : Runs k c ⟨s, task :: stack⟩ seen trace) (hacts : Acts env s task s' (.error e))
    (hbelow : below.Sublist stack) (honReply : onReply.context ≠ some k)
    (hphase : Phase k c ⟨s', .reply onReply response :: below⟩ seen trace') :
    Runs k c ⟨s', .reply onReply response :: below⟩ seen trace' := by
  rcases flight_throws hacts with ⟨hcontexts, hheld, -⟩
  have hflight := @inFlight_throws env k s s' task stack e onReply response below hacts hbelow
    honReply
  have hold := h.flight
  simp only at hold
  refine ⟨?_, h.results, h.index, h.unknown, ?_, ?_, hphase⟩
  · simp only [hcontexts]
    exact h.context
  · simp only [hheld]
    exact h.held
  · simp only
    omega

/-- A queued command is executed. -/
theorem runs_execute {handler : HandlerId} {request : RespValue} {cmd : Command} {onReply : OnReply}
    (h : Runs k c ⟨s, .execute handler request cmd onReply :: stack⟩ seen trace)
    (hnodup : seen.Nodup) (hcoherent : Coherent ⟨s, .execute handler request cmd onReply :: stack⟩)
    (honReply : onReply.context = some k)
    (hcaught : ∀ onReply' ∈ caught env ⟨s, .execute handler request cmd onReply :: stack⟩ .tick,
      onReply'.context ≠ some k)
    (hstep : StoreThread.step env ⟨s, .execute handler request cmd onReply :: stack⟩ .tick =
      some t') :
    Runs k c t' seen
      (trace ++ execSteps k ⟨s, .execute handler request cmd onReply :: stack⟩ .tick) := by
  have halone := h.alone hnodup honReply
  have hsteps : execSteps k ⟨s, .execute handler request cmd onReply :: stack⟩ .tick =
      [.begun request] := if_pos honReply
  rw [hsteps]
  cases hphase : h.phase with
  | next hstack => cases hstack
  | awaits hrequest hregistered hreplies =>
      rcases hreplies _ List.mem_cons_self honReply with ⟨onReply', response, heq⟩
      contradiction
  | finished hindex hflight => exact absurd honReply (not_continues_of_flight h hnodup hflight)
  | executes hstack hrequest hparse hfind =>
      cases hstack
      have hregistered : isRegistered c.handler.kind request = true := by
        simp [isRegistered, hparse, hfind]
      have hk := (List.getElem?_eq_some_iff.mp h.context).1
      rcases tick_cases hstep with ⟨s', new, hact, rfl⟩ |
        ⟨s', e, onReply', below, hact, hclause, hbelow, rfl⟩
      · have hspends := spends_acts hcoherent hk (by simp) (by simp) (acts_of_act hact)
        have hnone : answersOf k ⟨s, .execute c.handler request cmd
            (.exec k cmd.type request) :: stack⟩ .tick = [] := rfl
        rw [hnone] at hspends
        have hruns := @Runs.spend k c s s' _ stack new seen [] _ (c.done ++ [.begun request]) h
          hspends (heldKept_acts (acts_of_act hact)) (by simp) (.awaits hrequest hregistered ?_)
        · rw [List.append_nil] at hruns
          exact hruns
        · intro task' hmem hcontinues
          rcases List.mem_append.mp hmem with hmem | hmem
          · exact hspends.replies task' hmem hcontinues
          · exact absurd hcontinues (halone task' hmem)
      · refine h.throws (acts_of_act hact) hbelow (hcaught _ hclause)
          (.awaits hrequest hregistered fun task' hmem hcontinues => ?_)
        rcases List.mem_cons.mp hmem with rfl | hmem
        · exact ⟨_, _, rfl⟩
        · exact absurd hcontinues (halone task' (hbelow.subset hmem))

/-- Another task. -/
theorem runs_other (h : Runs k c ⟨s, task :: stack⟩ seen trace)
    (hcoherent : Coherent ⟨s, task :: stack⟩) (htask : task.continues ≠ some k)
    (hcaught : ∀ onReply ∈ caught env ⟨s, task :: stack⟩ .tick, onReply.context ≠ some k)
    (hstep : StoreThread.step env ⟨s, task :: stack⟩ .tick = some t') :
    Runs k c t' (seen ++ answersOf k ⟨s, task :: stack⟩ .tick)
      (trace ++ execSteps k ⟨s, task :: stack⟩ .tick) := by
  rw [execSteps_of_ne htask, List.append_nil]
  have hk := (List.getElem?_eq_some_iff.mp h.context).1
  rcases tick_cases hstep with ⟨s', new, hact, rfl⟩ |
    ⟨s', e, onReply, below, hact, hclause, hbelow, rfl⟩
  · have hspends := spends_acts hcoherent hk (fun heq => htask (by rw [heq]; rfl))
      (fun onReply response heq => by rw [heq] at htask; exact htask) (acts_of_act hact)
    refine h.spend hspends (heldKept_acts (acts_of_act hact)) (fun i hi => held_of_answersOf hi) ?_
    cases h.phase with
    | next hstack =>
        cases hstack
        exact absurd rfl htask
    | executes hstack =>
        cases hstack
        exact absurd rfl htask
    | awaits hrequest hregistered hreplies =>
        refine .awaits hrequest hregistered fun task' hmem hcontinues => ?_
        rcases List.mem_append.mp hmem with hmem | hmem
        · exact hspends.replies task' hmem hcontinues
        · exact hreplies task' (List.mem_cons_of_mem _ hmem) hcontinues
    | finished hindex hflight =>
        refine .finished hindex ?_
        have hspent := hspends.flight
        simp only at hflight ⊢
        rw [inFlight_cons] at hflight
        rw [inFlight_append, List.length_append]
        omega
  · rw [answersOf_throws (acts_of_act hact), List.append_nil]
    refine h.throws (acts_of_act hact) hbelow (hcaught _ hclause) ?_
    cases h.phase with
    | next hstack =>
        cases hstack
        exact absurd rfl htask
    | executes hstack =>
        cases hstack
        exact absurd rfl htask
    | awaits hrequest hregistered hreplies =>
        refine .awaits hrequest hregistered fun task' hmem hcontinues => ?_
        rcases List.mem_cons.mp hmem with rfl | hmem
        · exact ⟨_, _, rfl⟩
        · exact hreplies task' (List.mem_cons_of_mem _ (hbelow.subset hmem)) hcontinues
    | finished hindex hflight =>
        refine .finished hindex ?_
        have hless := @inFlight_throws env k s s' task stack e onReply (exceptionReply e) below
          (acts_of_act hact) hbelow (hcaught _ hclause)
        simp only at hflight ⊢
        omega

/-- An idle thread takes something up. -/
theorem Runs.wake (h : Runs k c ⟨s, []⟩ seen trace) (hcontexts : s'.contexts = s.contexts)
    (hkept : HeldKept s s') (hflight : inFlight k s' new ≤ inFlight k s [] + answered.length)
    (hreplies : ∀ task ∈ new, task.continues = some k →
      ∃ onReply response, task = .reply onReply response)
    (hanswered : ∀ i ∈ answered, ∃ onReply, s.held[i]? = some onReply ∧
      onReply.context = some k) : Runs k c ⟨s', new⟩ (seen ++ answered) trace := by
  have hold := h.flight
  simp only at hold
  refine ⟨?_, h.results, h.index, h.unknown, fun i hi => ?_, ?_, ?_⟩
  · simp only [hcontexts]
    exact h.context
  · have hheld : ∃ onReply, s.held[i]? = some onReply ∧ onReply.context = some k := by
      rcases List.mem_append.mp hi with hi | hi
      · exact h.held i hi
      · exact hanswered i hi
    rcases hheld with ⟨onReply, hheld, hk⟩
    exact ⟨onReply, hkept.getElem? hheld, hk⟩
  · simp only [List.length_append]
    omega
  · cases h.phase with
    | next hstack => cases hstack
    | executes hstack => cases hstack
    | awaits hrequest hregistered _ => exact .awaits hrequest hregistered hreplies
    | finished hindex hdone =>
        refine .finished hindex ?_
        simp only [List.length_append] at hdone ⊢
        omega

/-- Something happens outside the store thread. -/
theorem Runs.frame (h : Runs k c ⟨s, stack⟩ seen trace) (hcontexts : s'.contexts = s.contexts)
    (hheld : s'.held = s.held) (hwaits : s'.waits = s.waits) :
    Runs k c ⟨s', stack⟩ seen trace := by
  have hsame : inFlight k s' stack = inFlight k s stack := by
    unfold inFlight
    rw [hheld, hwaits]
  refine ⟨?_, h.results, h.index, h.unknown, ?_, ?_, ?_⟩
  · simp only [hcontexts]
    exact h.context
  · simp only [hheld]
    exact h.held
  · simp only [hsame]
    exact h.flight
  · cases h.phase with
    | next hstack => exact .next hstack
    | executes hstack hrequest hparse hfind => exact .executes hstack hrequest hparse hfind
    | awaits hrequest hregistered hreplies => exact .awaits hrequest hregistered hreplies
    | finished hindex hflight => exact .finished hindex (by simp only [hsame]; exact hflight)

/-- The handler of a timer answers its own command. -/
theorem runs_timeout {i : Nat} {timer : Timer} (h : Runs k c ⟨s, []⟩ seen trace)
    (htimer : s.timers[i]? = some timer) :
    Runs k c (StoreThread.onTimeout s i timer) (seen ++ answersOf k ⟨s, []⟩ (.timeout i)) trace := by
  have hheld := held_onTimeout htimer
  have hi : s.held[i]? = some timer.onReply := by
    simp [Server.held, htimer]
  have hwaits : (StoreThread.onTimeout s i timer).server.waits = s.waits := by
    unfold StoreThread.onTimeout
    split <;> rfl
  refine h.wake (onTimeout_contexts s i timer) (.of_held hheld) ?_ ?_
    (fun j hj => held_of_answersOf hj)
  · have hcount : inFlight k (StoreThread.onTimeout s i timer).server
        [.reply timer.onReply nullArray] ≤
        inFlight k s [] + (answersOf k ⟨s, []⟩ (.timeout i)).length := by
      unfold inFlight
      rw [hheld, hwaits]
      by_cases hk : timer.onReply.context = some k
      · simp [answersOf, answers, hi, hk]
        omega
      · simp [hk]
    exact hcount
  · intro task hmem _
    exact ⟨_, _, List.mem_singleton.mp hmem⟩

/-- Every event in which no command of the {lit}`EXEC` replies a second time. -/
theorem runs_step (h : Runs k c t seen trace) (hcoherent : Coherent t)
    (hnodup : seen.Nodup)
    (hcaught : ∀ onReply ∈ caught env t event, onReply.context ≠ some k)
    (hstep : t.step env event = some t') :
    ∃ c', SameExec c c' ∧
      Runs k c' t' (seen ++ answersOf k t event) (trace ++ execSteps k t event) := by
  have hsame : SameExec c c := ⟨rfl, rfl, rfl⟩
  cases event with
  | tick =>
      rcases t with ⟨s, stack⟩
      cases stack with
      | nil =>
          cases hstep
          refine ⟨c, hsame, ?_⟩
          rw [show answersOf k ⟨s, []⟩ .tick = [] from rfl,
            show execSteps k ⟨s, []⟩ .tick = [] from rfl, List.append_nil, List.append_nil]
          exact h
      | cons task stack =>
          by_cases htask : task.continues = some k
          · cases task with
            | runNext context =>
                cases htask
                rw [show answersOf k ⟨s, .runNext k :: stack⟩ .tick = [] from rfl, List.append_nil]
                exact runs_runNext h hnodup hcoherent hstep
            | reply onReply response =>
                rw [show answersOf k ⟨s, .reply onReply response :: stack⟩ .tick = [] from rfl,
                  List.append_nil]
                exact runs_reply h hnodup htask hstep
            | execute handler request cmd onReply =>
                rw [show answersOf k ⟨s, .execute handler request cmd onReply :: stack⟩ .tick = []
                  from rfl, List.append_nil]
                exact ⟨c, hsame, runs_execute h hnodup hcoherent htask hcaught hstep⟩
            | _ => contradiction
          · exact ⟨c, hsame, runs_other h hcoherent htask hcaught hstep⟩
  | timeout i =>
      cases moves_of_step hstep with
      | timeout htimer hqueued =>
          rw [show execSteps k _ (.timeout i) = [] from rfl, List.append_nil]
          exact ⟨c, hsame, runs_timeout h htimer⟩
  | request handler request =>
      cases moves_of_step hstep with
      | request s =>
          rw [show execSteps k _ (.request handler request) = [] from rfl, List.append_nil]
          exact ⟨c, hsame, h.wake rfl (.of_held rfl) (Nat.le_refl _) (by simp [Task.continues])
            (fun j hj => held_of_answersOf hj)⟩
  | poll i =>
      cases moves_of_step hstep with
      | poll hwait hactive =>
          rw [show execSteps k _ (.poll i) = [] from rfl, List.append_nil]
          exact ⟨c, hsame, h.wake rfl (.of_held rfl) (Nat.le_refl _) (by simp [Task.continues])
            (fun j hj => held_of_answersOf hj)⟩
  | expire i =>
      rw [show answersOf k t (.expire i) = [] from rfl, show execSteps k t (.expire i) = [] from rfl,
        List.append_nil, List.append_nil]
      cases moves_of_step hstep with
      | expires stack htimer harmed =>
          exact ⟨c, hsame, h.frame rfl (held_setTimer _ htimer _) rfl⟩
  | attach | detach | ack =>
      cases moves_of_step hstep
      refine ⟨c, hsame, ?_⟩
      simp only [answersOf, answers, execSteps, List.filter_nil, List.append_nil]
      exact h.frame rfl rfl rfl

theorem SameExec.trans {c c' c'' : ExecContext} (h : SameExec c c') (h' : SameExec c' c'') :
    SameExec c c'' :=
  ⟨h'.handler.trans h.handler, h'.onReply.trans h.onReply, h'.commands.trans h.commands⟩

/-- A run in which no command of the {lit}`EXEC` replies a second time. -/
theorem runs_run {events : List Event} (h : Runs k c t seen trace) (hcoherent : Coherent t)
    (hnodup : (seen ++ Execution.observe (StoreThread.step env) (answersOf k) t events).Nodup)
    (hcaught : Execution.Along (StoreThread.step env)
      (fun t event => ∀ onReply ∈ caught env t event, onReply.context ≠ some k) t events)
    (hrun : t.run env events = some t') :
    ∃ c', SameExec c c' ∧
      Runs k c' t' (seen ++ Execution.observe (StoreThread.step env) (answersOf k) t events)
        (trace ++ Execution.observe (StoreThread.step env) (execSteps k) t events) := by
  induction events generalizing t c seen trace with
  | nil =>
      cases hrun
      simp only [Execution.observe, List.append_nil]
      exact ⟨c, ⟨rfl, rfl, rfl⟩, h⟩
  | cons event events ih =>
      rcases Execution.follow_cons hrun with ⟨m, hone, hrest⟩
      simp only [Execution.observe, hone, ← List.append_assoc] at hnodup ⊢
      have hseen : (seen ++ answersOf k t event).Nodup := hnodup.of_append_left
      rcases runs_step h hcoherent hseen.of_append_left hcaught.1 hone with ⟨c', hsame, hruns⟩
      rcases ih hruns (coherent_step hcoherent hone) hnodup (hcaught.2 m hone) hrest with
        ⟨c'', hsame', hruns'⟩
      exact ⟨c'', hsame.trans hsame', hruns'⟩

end Runs

end RedisClone
