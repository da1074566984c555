import RedisClone.Server.Propagation
import RedisClone.Server.Continuations
import RedisClone.Server.Coherence
import RedisClone.Command.ClockFree
import RedisClone.Replication.ReplicaStream

/-!
# Convergence of replicas

A replica executes the commands that the master propagates.  Commands that depend on no
clock and do not block leave the same table behind whoever executes them, so a table is
the replay of the write commands that were executed.  Such commands are executed one at
a time: while one runs, nothing but ends of {lit}`try` blocks is below it on the stack,
and all of them belong to the same {lit}`EXEC`.

Main results:

- Theorem {lit}`calm_step`: the table is the replay of the write commands so far.
- Theorem {lit}`undisturbed_of_calm`: a write command replies before the next one starts.
- Theorem {lit}`replica_converges`: a replica that handles the propagated stream on an
  empty table ends with the table of the master.
-/

namespace RedisClone

open RespValue

variable {env : Env}

/-! ## Replay -/

/-- The table behind the command of a request. -/
def Store.replayOne (d : Store) (request : RespValue) : Store :=
  match parseCommand request with
  | .ok cmd =>
      match dataCommand cmd.type with
      | some body => (body cmd ⟨0, 0⟩ d).1
      | none => d
  | .error _ => d

/-- The table behind the commands of some requests, on an empty table. -/
def replay (requests : List RespValue) : Store :=
  requests.foldl Store.replayOne Store.empty

/-- The command of each request runs, one after the other, without an exception. -/
def Replayable (d : Store) : List RespValue → Prop
  | [] => True
  | request :: requests =>
      (∃ cmd body outcome, parseCommand request = .ok cmd ∧ dataCommand cmd.type = some body ∧
        (body cmd ⟨0, 0⟩ d).2 = .ok outcome) ∧ Replayable (d.replayOne request) requests

/-- One more request is replayed. -/
theorem replay_concat (requests : List RespValue) (request : RespValue) :
    replay (requests ++ [request]) = (replay requests).replayOne request := by
  rw [replay, List.foldl_append]
  rfl

/-- One more request runs. -/
theorem Replayable.concat {d : Store} {requests : List RespValue} {request : RespValue}
    {cmd : Command} {body : Command → Reading → Store → CommandResult} {outcome : Outcome}
    (h : Replayable d requests) (hparse : parseCommand request = .ok cmd)
    (hbody : dataCommand cmd.type = some body)
    (hok : (body cmd ⟨0, 0⟩ (requests.foldl Store.replayOne d)).2 = .ok outcome) :
    Replayable d (requests ++ [request]) := by
  induction requests generalizing d with
  | nil => exact ⟨⟨cmd, body, outcome, hparse, hbody, hok⟩, trivial⟩
  | cons first requests ih => exact ⟨h.1, ih h.2 hok⟩

/-- A request whose command neither blocks nor depends on the clock. -/
def ClockFreeRequest (_ : HandlerId) (request : RespValue) : Prop :=
  ∀ cmd, parseCommand request = .ok cmd → ClockFree cmd

/-! ## One command at a time -/

/-- Ends of {lit}`try` blocks, all of them of the {lit}`EXEC` that goes on. -/
def Ends (context : Option Nat) (ends : List Task) : Prop :=
  ∀ task ∈ ends, ∃ onReply, task = .tryEnd onReply ∧
    ∀ k, context = some k → onReply.context = some k

/-- The task serves blocked clients. -/
def Task.serves : Task → Bool
  | .serveBlpop _ | .serveXread _ => true
  | _ => false

/-- One command at a time. -/
inductive Single (s : Server) : List Task → Prop
  /-- Only ends of {lit}`try` blocks are left. -/
  | ends {ends : List Task} (hends : Ends none ends) : Single s ends
  /-- A request is handled. -/
  | handles (h : HandlerId) (request : RespValue) (number : Nat) :
      Single s [.handle h request number]
  /-- A command is executed directly. -/
  | direct (h : HandlerId) (request : RespValue) (cmd : Command) {onReply : OnReply}
      (hdirect : onReply.context = none) : Single s [.execute h request cmd onReply]
  /-- A command of an {lit}`EXEC` is executed. -/
  | queued (h : HandlerId) (request : RespValue) (cmd : Command) {onReply : OnReply} {k : Nat}
      {ends : List Task} (hk : onReply.context = some k) (hawaits : s.Awaits k)
      (hends : Ends (some k) ends) : Single s (.execute h request cmd onReply :: ends)
  /-- A command has run and replies. -/
  | answers {wakes : List Task} {onReply : OnReply} (response : Bytes) {ends : List Task}
      (hwakes : ∀ task ∈ wakes, task.serves = true)
      (hawaits : ∀ k, onReply.context = some k → s.Awaits k)
      (hends : Ends onReply.context ends) : Single s (wakes ++ .reply onReply response :: ends)
  /-- An {lit}`EXEC` goes on. -/
  | next {k : Nat} {context : ExecContext} {ends : List Task}
      (hcontext : s.contexts[k]? = some context)
      (hindex : context.index ≤ context.commands.length) (hends : Ends (some k) ends) :
      Single s (.runNext k :: ends)

/-- Nobody is blocked, one command runs at a time, and the table is the replay of the write
commands that were executed. -/
structure Calm (t : StoreThread) : Prop where
  timers : t.server.timers = []
  waits : t.server.waits = []
  blpop : ∀ key, t.server.blpop.waiters key = []
  xread : ∀ key, t.server.xread.waiters key = []
  contexts : ∀ c ∈ t.server.contexts,
    c.results.length = c.commands.length ∧ c.onReply.context = none
  requests : t.From ClockFreeRequest
  single : Single t.server t.stack
  plain : t.server.data.Plain
  replayed : t.server.data = replay (executedWrites t.server.trace)
  replayable : Replayable Store.empty (executedWrites t.server.trace)

section Steps

variable {s s' : Server} {task : Task} {new stack : List Task} {t t' : StoreThread}
  {event : Event}

theorem Ends.weaken {context : Option Nat} {ends : List Task} (h : Ends context ends) :
    Ends none ends := by
  intro task hmem
  rcases h task hmem with ⟨onReply, rfl, -⟩
  exact ⟨onReply, rfl, by simp⟩

theorem Ends.tail {context : Option Nat} {above below : List Task} {task : Task}
    (h : Ends context (above ++ task :: below)) : Ends context below :=
  fun task' hmem => h task' (by simp [hmem])

theorem Ends.append {context : Option Nat} {ends guard : List Task} (hguard : Ends context guard)
    (h : Ends context ends) : Ends context (guard ++ ends) := by
  intro task hmem
  rcases List.mem_append.mp hmem with hmem | hmem
  · exact hguard task hmem
  · exact h task hmem

/-- Only the contexts matter. -/
theorem single_congr (h : Single s stack) (hcontexts : s'.contexts = s.contexts) :
    Single s' stack := by
  have hawaits : ∀ {k : Nat}, s.Awaits k → s'.Awaits k := by
    intro k hk
    unfold Server.Awaits
    rwa [hcontexts]
  cases h with
  | ends hends => exact .ends hends
  | handles h request number => exact .handles h request number
  | direct h request cmd hdirect => exact .direct h request cmd hdirect
  | queued h request cmd hk hwaits hends => exact .queued h request cmd hk (hawaits hwaits) hends
  | answers response hwakes hwaits hends =>
      exact .answers response hwakes (fun k hk => hawaits (hwaits k hk)) hends
  | next hcontext hindex hends => exact .next (by rwa [hcontexts]) hindex hends

/-- What throws leaves the contexts alone. -/
theorem contexts_of_error {e : Exception} (hacts : Acts env s task s' (.error e)) :
    s'.contexts = s.contexts := by
  cases hacts <;> rfl

/-- A command that has run replies behind the waiters that it serves. -/
theorem single_settle {onReply : OnReply} (a : Answer) {ends : List Task}
    (hawaits : ∀ k, onReply.context = some k → s.Awaits k) (hends : Ends onReply.context ends) :
    Single (s.settle onReply (.answer a)).1 ((s.settle onReply (.answer a)).2 ++ ends) := by
  have hwakes : ∀ task ∈ Server.wakeTasks a.wake, task.serves = true := by
    intro task hmem
    unfold Server.wakeTasks at hmem
    split at hmem <;> simp at hmem <;> subst hmem <;> rfl
  have hguard : Ends onReply.context (if a.guarded then [.tryEnd onReply] else []) := by
    intro task hmem
    split at hmem
    · exact ⟨onReply, List.mem_singleton.mp hmem, fun k hk => hk⟩
    · contradiction
  have hstack : (s.settle onReply (.answer a)).2 ++ ends = Server.wakeTasks a.wake ++
      .reply onReply a.response :: ((if a.guarded then [.tryEnd onReply] else []) ++ ends) := by
    simp [Server.settle]
  rw [hstack]
  refine .answers a.response hwakes (fun k hk => ?_) (hguard.append hends)
  unfold Server.Awaits
  rw [settle_contexts]
  exact hawaits k hk

/-- A command has run and serves nobody. -/
theorem Single.replies {onReply : OnReply} (response : Bytes) {ends : List Task}
    (hawaits : ∀ k, onReply.context = some k → s.Awaits k) (hends : Ends onReply.context ends) :
    Single s (.reply onReply response :: ends) :=
  @Single.answers s [] onReply response ends (by simp) hawaits hends

/-- The command of a task that is executed. -/
theorem clockFree_of_from {h : HandlerId} {request : RespValue} {cmd : Command}
    {onReply : OnReply} (hfrom : (Task.execute h request cmd onReply).From ClockFreeRequest) :
    ClockFree cmd :=
  hfrom.1.1 cmd hfrom.2.1

/-- The tasks that a command of an {lit}`EXEC`, or a direct one, calls. -/
theorem single_executes {h : HandlerId} {request : RespValue} {cmd : Command} {onReply : OnReply}
    {ends : List Task} (hcalm : Calm ⟨s, .execute h request cmd onReply :: ends⟩)
    (hends : Ends onReply.context ends) (hdirect : onReply.context = none → ends = [])
    (hawaits : ∀ k, onReply.context = some k → s.Awaits k)
    (hacts : Acts env s (.execute h request cmd onReply) s' (.ok new)) :
    Single s' (new ++ ends) := by
  have hfrom := hcalm.requests.stack _ List.mem_cons_self
  have hfree := clockFree_of_from hfrom
  cases hacts with
  | @ran h request cmd onReply body d outcome hbody hresult =>
      have hsteady := steady_of_dataCommand hbody hfree hcalm.plain
      rcases hsteady.answers (env.reading s.readings) outcome (by rw [hresult]) with ⟨a, rfl⟩
      exact single_settle a hawaits hends
  | answered | transacted => exact .replies _ hawaits hends
  | started htype hactive hclean hqueue =>
      rcases hfrom.2.2 (by rw [htype]; rfl) with ⟨number, rfl⟩
      rw [hdirect (context_onReply h number)]
      exact .next (by simp; rfl) (Nat.zero_le _) (by simp [Ends])
  | polls htype => simp [ClockFree, htype] at hfree

/-- What a task calls. -/
theorem single_calls (hcalm : Calm ⟨s, task :: stack⟩) (hacts : Acts env s task s' (.ok new)) :
    Single s' (new ++ stack) := by
  have hsingle : Single s (task :: stack) := hcalm.single
  generalize hstack : task :: stack = full at hsingle
  cases hsingle with
  | ends hends =>
      rcases hends task (by simp [← hstack]) with ⟨onReply, rfl, -⟩
      cases hacts
      subst hstack
      exact .ends fun task' hmem => hends task' (List.mem_cons_of_mem _ hmem)
  | handles h request number =>
      cases hstack
      cases hacts with
      | rejected | queued =>
          exact .replies _ (by simp [context_onReply]) (by simp [Ends])
      | controls => exact .direct _ _ _ (context_onReply h number)
      | dispatched => exact .direct _ _ _ (context_directReply h request _ number)
  | direct h request cmd hdirect =>
      cases hstack
      exact single_executes hcalm (by simp [Ends]) (fun _ => rfl) (by simp [hdirect]) hacts
  | queued h request cmd hk hawaits hends =>
      cases hstack
      refine single_executes hcalm (by rwa [hk]) (by simp [hk]) (fun k' hk' => ?_) hacts
      rw [hk] at hk'
      cases hk'
      exact hawaits
  | @answers wakes onReply response ends hwakes hawaits hends =>
      cases wakes with
      | nil =>
          cases hstack
          cases hacts with
          | written | dropped | propagated => exact .ends hends.weaken
          | @collected context c hcontext hindex type request response =>
              have hlength := (hcalm.contexts c (List.mem_of_getElem? hcontext)).1
              have hlt := (List.getElem?_eq_some_iff.mp hcontext).1
              split
              · exact .next (by simp [hlt]; rfl) (by simp; omega) hends
              · exact .next (by simp [hlt]; rfl) (by simp; omega) hends
      | cons wake wakes =>
          cases hstack
          have hserves := hwakes task List.mem_cons_self
          have hrest : Single s (wakes ++ .reply onReply response :: ends) :=
            .answers response (fun task' hmem => hwakes task' (List.mem_cons_of_mem _ hmem)) hawaits
              hends
          cases hacts with
          | served hwaiters | unserved hwaiters =>
              rw [hcalm.blpop] at hwaiters
              contradiction
          | unawaited => exact hrest
          | copied key =>
              rw [hcalm.xread]
              exact hrest
          | _ => contradiction
  | @next k context ends hcontext hindex hends =>
      cases hstack
      cases hacts with
      | @finished _ c hcontext' hfinished =>
          have hown := (hcalm.contexts c (List.mem_of_getElem? hcontext')).2
          exact .replies _ (by simp [hown]) (by rw [hown]; exact hends.weaken)
      | @next _ c request cmd hcontext' hrequest hparse hfind =>
          exact .queued _ _ _ rfl ⟨c, hcontext', (List.getElem?_eq_some_iff.mp hrequest).1⟩ hends
      | @skipped _ c request cmd hcontext' hrequest hparse hfind =>
          have hlt := (List.getElem?_eq_some_iff.mp hcontext').1
          have hroom := (List.getElem?_eq_some_iff.mp hrequest).1
          exact .next (by simp [hlt]; rfl) (by simp; omega) hends

/-- Only a command of an {lit}`EXEC` throws inside a {lit}`try` block. -/
theorem single_throws {e : Exception} {above below : List Task} {onReply : OnReply}
    (hcalm : Calm ⟨s, task :: (above ++ .tryEnd onReply :: below)⟩)
    (hact : s.act env task = (s', .error e)) (hcontexts : s'.contexts = s.contexts) :
    Single s' (.reply onReply (exceptionReply e) :: below) ∧ ∃ h request cmd callback k,
      task = .execute h request cmd callback ∧ s.Awaits k := by
  have hacts := acts_of_act hact
  have hsingle : Single s (task :: (above ++ .tryEnd onReply :: below)) := hcalm.single
  generalize hstack : task :: (above ++ .tryEnd onReply :: below) = full at hsingle
  cases hsingle with
  | ends hends =>
      rcases hends task (by simp [← hstack]) with ⟨onReply, rfl, -⟩
      cases hacts
  | handles | direct => simp at hstack
  | @queued h request cmd callback k ends hk hawaits hends =>
      cases hstack
      refine ⟨.replies _ (fun k' hk' => ?_) ?_, h, request, cmd, callback, k, rfl, hawaits⟩
      · rcases hends (.tryEnd onReply) (by simp) with ⟨onReply', heq, hcontext⟩
        cases heq
        rw [hcontext k rfl] at hk'
        cases hk'
        unfold Server.Awaits
        rw [hcontexts]
        exact hawaits
      · rcases hends (.tryEnd onReply) (by simp) with ⟨onReply', heq, hcontext⟩
        cases heq
        rw [hcontext k rfl]
        exact hends.tail
  | @answers wakes callback response ends hwakes hawaits hends =>
      exfalso
      cases wakes with
      | nil =>
          cases hstack
          cases hacts with
          | @overrun context index size hfull type request response =>
              rcases hawaits context rfl with ⟨c, hcontext, hindex⟩
              have hlength := (hcalm.contexts c (List.mem_of_getElem? hcontext)).1
              have hle := hfull c hcontext
              omega
      | cons wake wakes =>
          have htop : task = wake := (List.cons.inj hstack).1
          subst htop
          have hserves := hwakes task List.mem_cons_self
          cases hacts <;> contradiction
  | @next k context ends hcontext hindex hends =>
      exfalso
      cases hstack
      simp only [Server.act, Server.runNext, hcontext] at hact
      split at hact
      · cases hact
      · rename_i hne
        have hlt : context.index < context.commands.length := by omega
        have hget := List.getElem?_eq_getElem hlt
        rcases (hcalm.requests.server.contexts context (List.mem_of_getElem? hcontext)).2 _
          (List.getElem_mem hlt) with ⟨-, cmd, hparse, -⟩
        simp only [hget, hparse] at hact
        split at hact <;> simp at hact

/-- Nobody comes to be blocked. -/
theorem unblocked_acts {r : Except Exception (List Task)} (hcalm : Calm ⟨s, task :: stack⟩)
    (hacts : Acts env s task s' r) :
    s'.timers = [] ∧ s'.waits = [] ∧ (∀ key, s'.blpop.waiters key = []) ∧
      ∀ key, s'.xread.waiters key = [] := by
  have hfrom := hcalm.requests.stack _ List.mem_cons_self
  have hsame : s.timers = [] ∧ s.waits = [] ∧ (∀ key, s.blpop.waiters key = []) ∧
      ∀ key, s.xread.waiters key = [] := ⟨hcalm.timers, hcalm.waits, hcalm.blpop, hcalm.xread⟩
  cases hacts with
  | @ran h request cmd onReply body d outcome hbody hresult =>
      have hsteady := steady_of_dataCommand hbody (clockFree_of_from hfrom) hcalm.plain
      rcases hsteady.answers (env.reading s.readings) outcome (by rw [hresult]) with ⟨a, rfl⟩
      simp only [Server.settle]
      split <;> exact hsame
  | polls htype =>
      have hfree := clockFree_of_from hfrom
      simp [ClockFree, htype] at hfree
  | collected => split <;> exact hsame
  | served hwaiters | unserved hwaiters =>
      rw [hsame.2.2.1] at hwaiters
      contradiction
  | woke | wokeThrew =>
      refine ⟨by simp [hsame.1], hsame.2.1, hsame.2.2.1, fun key => ?_⟩
      rw [List.eq_nil_iff_forall_not_mem]
      intro waiter hmem
      have hold := BlockingRegistry.mem_waiters_of_unregister hmem
      rw [hsame.2.2.2] at hold
      contradiction
  | counted hwait | waits hwait =>
      rw [hsame.2.1] at hwait
      contradiction
  | _ => exact hsame

/-- Every context has a place for each result. -/
theorem placed_acts {r : Except Exception (List Task)} (hcalm : Calm ⟨s, task :: stack⟩)
    (hacts : Acts env s task s' r) :
    ∀ c ∈ s'.contexts, c.results.length = c.commands.length ∧ c.onReply.context = none := by
  have hold : ∀ c ∈ s.contexts, c.results.length = c.commands.length ∧
      c.onReply.context = none := hcalm.contexts
  have hset : ∀ {k : Nat} {c : ExecContext} (index i : Nat) (response : Bytes),
      s.contexts[k]? = some c → ∀ c' ∈ s.contexts.set k
        { c with index := index, results := c.results.set i response },
      c'.results.length = c'.commands.length ∧ c'.onReply.context = none := by
    intro k c index i response hcontext c' hmem
    rcases List.mem_or_eq_of_mem_set hmem with hmem | rfl
    · exact hold c' hmem
    · rcases hold c (List.mem_of_getElem? hcontext) with ⟨hlength, hown⟩
      exact ⟨by simpa using hlength, hown⟩
  cases hacts with
  | ran =>
      intro c hmem
      rw [settle_contexts] at hmem
      exact hold c hmem
  | @started h request cmd onReply htype =>
      intro c hmem
      rcases (hcalm.requests.stack _ List.mem_cons_self).2.2 (by rw [htype]; rfl) with
        ⟨number, rfl⟩
      rcases List.mem_append.mp hmem with hmem | hmem
      · exact hold c hmem
      · rw [List.mem_singleton.mp hmem]
        exact ⟨by simp, context_onReply h number⟩
  | collected hcontext => split <;> exact hset _ _ _ hcontext
  | skipped hcontext => exact hset _ _ _ hcontext
  | _ => exact hold

/-- Only commands on the keyspace are propagated. -/
theorem isWriteCommand_of_none {type : CommandType} (h : dataCommand type = none) :
    isWriteCommand type = false := by
  cases type <;> first | rfl | contradiction

/-- The table stays the replay of the write commands. -/
theorem replayed_acts {r : Except Exception (List Task)} (hcalm : Calm ⟨s, task :: stack⟩)
    (hacts : Acts env s task s' r) :
    s'.data.Plain ∧ s'.data = replay (executedWrites s'.trace) ∧
      Replayable Store.empty (executedWrites s'.trace) := by
  have hplain : s.data.Plain := hcalm.plain
  have hreplayed : s.data = replay (executedWrites s.trace) := hcalm.replayed
  have hreplayable : Replayable Store.empty (executedWrites s.trace) := hcalm.replayable
  have hfrom := hcalm.requests.stack _ List.mem_cons_self
  have hkeep : ∀ {u : Server}, u.data = s.data →
      executedWrites u.trace = executedWrites s.trace →
      u.data.Plain ∧ u.data = replay (executedWrites u.trace) ∧
        Replayable Store.empty (executedWrites u.trace) := by
    intro u hdata hwrites
    rw [hdata, hwrites]
    exact ⟨hplain, hreplayed, hreplayable⟩
  cases hacts with
  | @ran h request cmd onReply body d outcome hbody hresult =>
      have hparse : parseCommand request = .ok cmd := hfrom.2.1
      have hsteady := steady_of_dataCommand hbody (clockFree_of_from hfrom) hplain
      have hd : (body cmd (env.reading s.readings) s.data).1 = d := by rw [hresult]
      cases hwrite : isWriteCommand cmd.type with
      | false =>
          have hunchanged := hsteady.unchanged (env.reading s.readings) (Or.inl hwrite)
          refine hkeep ?_ (by simp [hwrite])
          rw [settle_data]
          exact hd.symm.trans hunchanged
      | true =>
          have hwrites : executedWrites (s.trace ++ [.executed h cmd.type request]) =
              executedWrites s.trace ++ [request] := by
            simp [hwrite]
          have hsame := hsteady.same (env.reading s.readings) ⟨0, 0⟩
          rw [settle_data, settle_trace]
          refine ⟨show d.Plain from hd ▸ hsteady.plain _, ?_, ?_⟩
          · show d = replay (executedWrites (s.trace ++ [.executed h cmd.type request]))
            rw [hwrites, replay_concat, ← hreplayed, ← hd]
            simp only [Store.replayOne, hparse, hbody]
            exact congrArg Prod.fst hsame
          · show Replayable Store.empty
              (executedWrites (s.trace ++ [.executed h cmd.type request]))
            rw [hwrites]
            have hok : (body cmd ⟨0, 0⟩ (replay (executedWrites s.trace))).2 = .ok outcome := by
              rw [← hreplayed, ← hsame, hresult]
            exact hreplayable.concat hparse hbody hok
  | @threw h request cmd onReply body d e hbody hresult =>
      have hsteady := steady_of_dataCommand hbody (clockFree_of_from hfrom) hplain
      have hunchanged := hsteady.unchanged (env.reading s.readings)
        (Or.inr (by simp only [hresult]; rfl))
      have hd : (body cmd (env.reading s.readings) s.data).1 = d := by rw [hresult]
      exact hkeep (hd.symm.trans hunchanged) rfl
  | answered hbody => exact hkeep rfl (by simp [isWriteCommand_of_none hbody])
  | transacted hchange =>
      have hbody := dataCommand_of_controls hchange.isTransactionCommand
      exact hkeep rfl (by simp [isWriteCommand_of_none hbody])
  | started htype => exact hkeep rfl (by simp [htype, isWriteCommand])
  | polls htype => exact hkeep rfl (by simp [htype, isWriteCommand])
  | collected => split <;> exact hkeep rfl (by simp)
  | served hwaiters | unserved hwaiters =>
      rw [hcalm.blpop] at hwaiters
      contradiction
  | _ => exact hkeep rfl (by simp)

/-- Every event keeps the thread calm. -/
theorem calm_step (hcalm : Calm t) (hevent : event.From ClockFreeRequest)
    (hstep : t.step env event = some t') : Calm t' := by
  have hrequests := from_step hcalm.requests hevent hstep
  cases moves_of_step hstep with
  | request s handler request =>
      exact ⟨hcalm.timers, hcalm.waits, hcalm.blpop, hcalm.xread, hcalm.contexts, hrequests,
        .handles _ _ _, hcalm.plain, hcalm.replayed, hcalm.replayable⟩
  | idle s => exact hcalm
  | calls stack hact =>
      have hacts := acts_of_act hact
      rcases unblocked_acts hcalm hacts with ⟨htimers, hwaits, hblpop, hxread⟩
      rcases replayed_acts hcalm hacts with ⟨hplain, hreplayed, hreplayable⟩
      exact ⟨htimers, hwaits, hblpop, hxread, placed_acts hcalm hacts, hrequests,
        single_calls hcalm hacts, hplain, hreplayed, hreplayable⟩
  | throws above onReply below hact =>
      have hacts := acts_of_act hact
      rcases unblocked_acts hcalm hacts with ⟨htimers, hwaits, hblpop, hxread⟩
      rcases replayed_acts hcalm hacts with ⟨hplain, hreplayed, hreplayable⟩
      exact ⟨htimers, hwaits, hblpop, hxread, placed_acts hcalm hacts, hrequests,
        (single_throws hcalm hact (contexts_of_error hacts)).1, hplain, hreplayed,
        hreplayable⟩
  | expires stack htimer | timeout htimer =>
      rw [hcalm.timers] at htimer
      contradiction
  | poll hwait =>
      rw [hcalm.waits] at hwait
      contradiction
  | attach | detach | ack =>
      exact ⟨hcalm.timers, hcalm.waits, hcalm.blpop, hcalm.xread, hcalm.contexts, hrequests,
        single_congr hcalm.single rfl, hcalm.plain, hcalm.replayed, hcalm.replayable⟩

/-- The ends of {lit}`try` blocks propagate nothing. -/
theorem owed_of_ends {context : Option Nat} {ends : List Task} (h : Ends context ends) :
    owed ends = [] := by
  rw [owed, List.flatMap_eq_nil_iff]
  intro task hmem
  rcases h task hmem with ⟨onReply, rfl, -⟩
  rfl

/-- A write command that ran replies before the next one starts. -/
theorem undisturbed_of_calm (hcalm : Calm t) (event : Event) : Undisturbed env t event := by
  rcases t with ⟨s, _ | ⟨task, rest⟩⟩
  · cases event <;> trivial
  cases event with
  | tick =>
      have hsingle : Single s (task :: rest) := hcalm.single
      show (owed rest ≠ [] → task.starts = []) ∧
        (owed (task :: rest) ≠ [] → (s.act env task).2.isOk = true)
      generalize hstack : task :: rest = full at hsingle
      cases hsingle with
      | ends hends =>
          have hnone := owed_of_ends hends
          subst hstack
          rw [owed_cons, List.append_eq_nil_iff] at hnone
          exact ⟨fun hne => absurd hnone.2 hne, fun hne => absurd (by simp [hnone]) hne⟩
      | handles | direct =>
          cases hstack
          exact ⟨fun hne => absurd rfl hne, fun hne => absurd rfl hne⟩
      | queued h request cmd hk hawaits hends | next hcontext hindex hends =>
          cases hstack
          have hnone := owed_of_ends hends
          exact ⟨fun hne => absurd hnone hne, fun hne => absurd (by simp [hnone, Task.owes]) hne⟩
      | @answers wakes onReply response ends hwakes hawaits hends =>
          cases wakes with
          | nil =>
              cases hstack
              refine ⟨fun _ => rfl, fun _ => ?_⟩
              cases onReply with
              | exec context type request =>
                  rcases hawaits context rfl with ⟨c, hcontext, hindex⟩
                  have hlength := (hcalm.contexts c (List.mem_of_getElem? hcontext)).1
                  have hroom : c.index < c.results.length := by omega
                  simp [Server.act, Server.reply, Server.execCallback, hcontext, hroom, Except.isOk,
                    Except.toBool]
              | _ => rfl
          | cons wake wakes =>
              have htop : task = wake := (List.cons.inj hstack).1
              subst htop
              have hserves := hwakes task List.mem_cons_self
              cases task with
              | serveBlpop | serveXread => exact ⟨fun _ => rfl, fun _ => rfl⟩
              | _ => contradiction
  | _ => trivial

/-- A thread that was just started is calm. -/
theorem calm_initial (registry : ReplicaRegistry) : Calm (.withReplicas registry) :=
  ⟨rfl, rfl, by simp, by simp, by simp, ⟨from_initial.congr (fun _ => rfl) rfl, by simp⟩,
    .ends (by simp [Ends]), Store.plain_empty, rfl, trivial⟩

/-! ## The replica -/

/-- A write command that neither blocks nor depends on the clock, of the session with the
master. -/
def Replicated (h : HandlerId) (request : RespValue) : Prop :=
  h = .session ∧ request.type = .array ∧ ∃ cmd, parseCommand request = .ok cmd ∧
    isWriteCommand cmd.type = true ∧ ClockFree cmd

/-- The request that a task is about to execute. -/
def Task.pending : Task → Option RespValue
  | .handle _ request _ => some request
  | .execute _ request _ _ => some request
  | _ => none

/-- The requests that were taken up were executed, but for those on the stack. -/
structure Tracks (taken : List RespValue) (t : StoreThread) : Prop where
  calm : Calm t
  requests : t.From Replicated
  contexts : t.server.contexts = []
  idle : (t.server.transactions .session).inTransaction = false
  taken_eq : taken = executedWrites t.server.trace ++ t.stack.filterMap Task.pending

/-- A request that a thread takes up. -/
def Event.taken : Event → Option (HandlerId × RespValue)
  | .request h sent => some (h, sent.value)
  | _ => none

/-- The session executes a write command at once. -/
theorem handle_replicated {h : HandlerId} {request : RespValue} (number : Nat)
    (hrequest : Replicated h request) (hidle : (s.transactions .session).inTransaction = false) :
    ∃ cmd, parseCommand request = .ok cmd ∧ isWriteCommand cmd.type = true ∧
      s.handle h request number = (s.record (.handled number h request),
        .ok [.execute h request cmd (Server.directReply h request cmd.type number)]) := by
  rcases hrequest with ⟨rfl, htype, cmd, hparse, hwrite, -⟩
  have helements : request.elements ≠ [] := by
    intro hnil
    simp [parseCommand, hnil] at hparse
  have hcontrols : Server.isTransactionCommand cmd.type = false := by
    cases h : cmd.type <;> simp [h, isWriteCommand] at hwrite <;> rfl
  have hfind : findCommand HandlerId.session.kind cmd.type = true := by
    cases h : cmd.type <;> simp [h, isWriteCommand] at hwrite <;> rfl
  refine ⟨cmd, hparse, hwrite, ?_⟩
  simp [Server.handle, Server.dispatch, htype, helements, hparse, hcontrols, hidle, hfind]

/-- A command on the keyspace neither starts nor ends a transaction. -/
theorem settle_inTransaction (s : Server) (onReply : OnReply) (outcome : Outcome)
    (h : HandlerId) : ((s.settle onReply outcome).1.transactions h).inTransaction =
      (s.transactions h).inTransaction := by
  cases outcome with
  | answer a =>
      simp only [Server.settle]
      split
      · rw [Server.notifyWrite_transactions]
        split <;> rfl
      · rfl
  | _ => rfl

/-- A task of the session. -/
theorem tracks_calls {taken : List RespValue} (h : Tracks taken ⟨s, task :: stack⟩)
    (hacts : Acts env s task s' (.ok new)) :
    s'.contexts = [] ∧ (s'.transactions .session).inTransaction = false ∧
      executedWrites s'.trace ++ new.filterMap Task.pending =
        executedWrites s.trace ++ [task].filterMap Task.pending := by
  have hcontexts : s.contexts = [] := h.contexts
  have hidle : (s.transactions .session).inTransaction = false := h.idle
  have htask := h.requests.stack _ List.mem_cons_self
  have hnone : ∀ {k : Nat} {c : ExecContext}, s.contexts[k]? = some c → False := by
    intro k c hcontext
    rw [hcontexts] at hcontext
    contradiction
  have hwrites : ∀ {handler request cmd onReply},
      (Task.execute handler request cmd onReply).From Replicated →
        isWriteCommand cmd.type = true := by
    rintro handler request cmd onReply ⟨⟨⟨-, -, cmd', hparse', hwrite, -⟩, -⟩, hparse, -⟩
    rw [hparse] at hparse'
    cases hparse'
    exact hwrite
  cases hacts with
  | @rejected handler request number response hhandle =>
      rcases handle_replicated number htask hidle with ⟨cmd, -, -, hhandle'⟩
      rw [hhandle] at hhandle'
      simp at hhandle'
  | @queued handler request cmd number hformat hparse htype hactive =>
      rcases htask with ⟨rfl, -⟩
      rw [hidle] at hactive
      contradiction
  | @controls handler request cmd number hformat hparse htype hfind =>
      rcases htask with ⟨-, -, cmd', hparse', hwrite, -⟩
      rw [hparse] at hparse'
      cases hparse'
      rw [isWriteCommand_of_none (dataCommand_of_controls htype)] at hwrite
      contradiction
  | dispatched => exact ⟨hcontexts, hidle, by simp [Task.pending]⟩
  | @ran handler request cmd onReply body d outcome hbody hresult =>
      have hpending : ((((s.withData d).record (.executed handler cmd.type request)).settle onReply
          outcome).2).filterMap Task.pending = [] := by
        rw [List.filterMap_eq_nil_iff]
        intro task hmem
        rcases mem_settle hmem with ⟨key, rfl⟩ | ⟨key, rfl⟩ | ⟨response, rfl⟩ | rfl <;> rfl
      refine ⟨by rw [settle_contexts]; exact hcontexts, ?_, ?_⟩
      · rw [settle_inTransaction]
        exact hidle
      · rw [hpending, settle_trace]
        simp [hwrites htask, Task.pending]
  | answered hbody =>
      have hwrite := hwrites htask
      rw [isWriteCommand_of_none hbody] at hwrite
      contradiction
  | transacted hchange =>
      have hwrite := hwrites htask
      rw [isWriteCommand_of_none (dataCommand_of_controls hchange.isTransactionCommand)] at hwrite
      contradiction
  | started htype | polls htype =>
      have hwrite := hwrites htask
      simp [htype, isWriteCommand] at hwrite
  | collected hcontext | finished hcontext | next hcontext | skipped hcontext =>
      exact (hnone hcontext).elim
  | copied key =>
      rw [h.calm.xread]
      exact ⟨hcontexts, hidle, rfl⟩
  | _ => exact ⟨hcontexts, hidle, by simp [List.filterMap_cons, Task.pending]⟩

/-- Every event of a replica without clients. -/
theorem tracks_step {taken : List RespValue} (h : Tracks taken t)
    (hevent : event.From Replicated) (hstep : t.step env event = some t') :
    Tracks (taken ++ (event.taken.map Prod.snd).toList) t' := by
  have hfree : event.From ClockFreeRequest := by
    cases event with
    | request handler sent =>
        rcases hevent with ⟨-, -, cmd, hparse, -, hfree⟩
        intro cmd' hparse'
        rw [hparse] at hparse'
        cases hparse'
        exact hfree
    | _ => trivial
  have hcalm := calm_step h.calm hfree hstep
  have hrequests := from_step h.requests hevent hstep
  have htaken := h.taken_eq
  cases moves_of_step hstep with
  | request s handler request =>
      exact ⟨hcalm, hrequests, h.contexts, h.idle,
        by simpa [Event.taken, Task.pending] using htaken⟩
  | idle s => exact ⟨hcalm, hrequests, h.contexts, h.idle, by simpa [Event.taken] using htaken⟩
  | @calls s s' task new stack hact =>
      rcases tracks_calls h (acts_of_act hact) with ⟨hcontexts, hidle, heq⟩
      refine ⟨hcalm, hrequests, hcontexts, hidle, ?_⟩
      rw [List.filterMap_append, ← List.append_assoc, heq, htaken]
      rw [← List.singleton_append, List.filterMap_append]
      simp [Event.taken]
  | throws above onReply below hact =>
      exfalso
      rcases (single_throws h.calm hact (contexts_of_error (acts_of_act hact))).2 with
        ⟨handler, request, cmd, callback, k, rfl, c, hcontext, -⟩
      have hnil := h.contexts
      simp only at hnil
      rw [hnil] at hcontext
      contradiction
  | timeout htimer =>
      rw [h.calm.timers] at htimer
      contradiction
  | poll hwait =>
      rw [h.calm.waits] at hwait
      contradiction
  | expires | attach | detach | ack =>
      exact ⟨hcalm, hrequests, h.contexts, h.idle, by simpa [Event.taken] using htaken⟩

/-- A run of a replica without clients. -/
theorem tracks_run {taken : List RespValue} {events : List Event} (h : Tracks taken t)
    (hevents : ∀ event ∈ events, event.From Replicated) (hrun : t.run env events = some t') :
    Tracks (taken ++ (events.filterMap Event.taken).map Prod.snd) t' := by
  induction events generalizing t taken with
  | nil =>
      cases hrun
      simpa using h
  | cons event events ih =>
      rcases Execution.follow_cons hrun with ⟨m, hone, hrest⟩
      have hm := tracks_step h (hevents event List.mem_cons_self) hone
      have hlast := ih hm (fun event' hmem => hevents event' (List.mem_cons_of_mem _ hmem)) hrest
      cases htaken : event.taken with
      | none => simpa [htaken] using hlast
      | some pair => simpa [htaken] using hlast

end Steps

/-- The tasks behind a write command of the session are done at once. -/
theorem exists_drained {s : Server} (hblpop : ∀ key, s.blpop.waiters key = [])
    (hxread : ∀ key, s.xread.waiters key = []) {stack : List Task}
    (hstack : ∀ task ∈ stack, task.serves = true ∨ (∃ response, task = .reply .discard response) ∨
      ∃ onReply, task = .tryEnd onReply) :
    StoreThread.run env ⟨s, stack⟩ (List.replicate stack.length .tick) = some ⟨s, []⟩ := by
  induction stack with
  | nil => rfl
  | cons task stack ih =>
      have hact : s.act env task = (s, .ok []) := by
        rcases hstack task List.mem_cons_self with hserves | ⟨response, rfl⟩ | ⟨onReply, rfl⟩
        · cases task with
          | serveBlpop key => simp [Server.act, Server.serveBlpop, hblpop]
          | serveXread key => simp [Server.act, hxread]
          | _ => contradiction
        · rfl
        · rfl
      rw [List.length_cons, List.replicate_succ, StoreThread.run, Execution.follow,
        step_tick hact stack]
      exact ih fun task' hmem => hstack task' (List.mem_cons_of_mem _ hmem)

/-- A replica that is idle handles one more write command. -/
theorem exists_handled {taken : List RespValue} {s : Server} (h : Tracks taken ⟨s, []⟩)
    {sent : Request} (hsent : Replicated .session sent.value)
    {requests : List RespValue} (hok : Replayable s.data (sent.value :: requests)) :
    ∃ n s', StoreThread.run env ⟨s, []⟩ (.request .session sent :: List.replicate n .tick) =
      some ⟨s', []⟩ := by
  rcases hok.1 with ⟨cmd, body, outcome, hparse, hbody, houtcome⟩
  rcases @handle_replicated s.countRequest .session sent.value s.requests hsent h.idle with
    ⟨cmd', hparse', hwrite, hhandle⟩
  rw [hparse] at hparse'
  cases hparse'
  have hfree : ClockFree cmd := by
    rcases hsent with ⟨-, -, cmd', hparse', -, hfree⟩
    rw [hparse] at hparse'
    cases hparse'
    exact hfree
  have hsteady := steady_of_dataCommand hbody hfree h.calm.plain
  rcases hsteady.answers ⟨0, 0⟩ outcome houtcome with ⟨a, rfl⟩
  have hresult : (body cmd (env.reading s.readings) s.data).2 = .ok (.answer a) :=
    (congrArg Prod.snd (hsteady.same (env.reading s.readings) ⟨0, 0⟩)).trans houtcome
  let s₂ := s.countRequest.record (.handled s.requests .session sent.value)
  let s₃ := (s₂.withData (body cmd (env.reading s.readings) s.data).1).record
    (.executed .session cmd.type sent.value)
  have hact : s₂.act env (.execute .session sent.value cmd .discard) =
      ((s₃.settle .discard (.answer a)).1, .ok (s₃.settle .discard (.answer a)).2) := by
    have hdata : s₂.data = s.data := rfl
    have hreadings : s₂.readings = s.readings := rfl
    simp only [Server.act, Server.execute, hbody, Server.executeData, hdata, hreadings, hresult]
    rfl
  have hwaiters : (∀ key, (s₃.settle .discard (.answer a)).1.blpop.waiters key = []) ∧
      ∀ key, (s₃.settle .discard (.answer a)).1.xread.waiters key = [] := by
    simp only [Server.settle]
    split <;> exact ⟨h.calm.blpop, h.calm.xread⟩
  have hdrained := @exists_drained env _ hwaiters.1 hwaiters.2
    ((s₃.settle .discard (.answer a)).2 ++ []) fun task hmem => by
      rw [List.append_nil] at hmem
      rcases mem_settle hmem with ⟨key, rfl⟩ | ⟨key, rfl⟩ | ⟨response, rfl⟩ | rfl
      · exact Or.inl rfl
      · exact Or.inl rfl
      · exact Or.inr (Or.inl ⟨response, rfl⟩)
      · exact Or.inr (Or.inr ⟨_, rfl⟩)
  refine ⟨((s₃.settle .discard (.answer a)).2 ++ []).length + 2,
    (s₃.settle .discard (.answer a)).1, ?_⟩
  have hhandles : s.countRequest.act env (.handle .session sent.value s.requests) =
      (s₂, .ok [.execute .session sent.value cmd .discard]) := hhandle
  have hfirst : StoreThread.step env ⟨s, []⟩ (.request .session sent) =
      some ⟨s.countRequest, [.handle .session sent.value s.requests]⟩ := rfl
  have hsecond : StoreThread.step env ⟨s.countRequest, [.handle .session sent.value s.requests]⟩
      .tick = some ⟨s₂, [.execute .session sent.value cmd .discard]⟩ := step_tick hhandles []
  rw [List.replicate_succ, List.replicate_succ]
  simp only [StoreThread.run, Execution.follow, hfirst, hsecond, step_tick hact [],
    Option.bind_some]
  exact hdrained

/-- A replica without clients can handle write commands that run one after the other. -/
theorem exists_replica_run {requests taken : List RespValue} {s : Server}
    (h : Tracks taken ⟨s, []⟩)
    (hrequests : ∀ request ∈ requests, WellFormed request ∧ Replicated .session request)
    (hok : Replayable s.data requests) :
    ∃ events t, events.filterMap Event.taken = requests.map (fun command => (.session, command)) ∧
      StoreThread.run env ⟨s, []⟩ events = some t ∧ t.Idle := by
  induction requests generalizing s taken with
  | nil => exact ⟨[], ⟨s, []⟩, rfl, rfl, rfl⟩
  | cons request requests ih =>
      rcases hrequests request List.mem_cons_self with ⟨hformed, hrequest⟩
      rcases @exists_handled env _ _ h ⟨request, hformed⟩ hrequest _ hok with ⟨n, s', hrun⟩
      have hticks : (Event.request .session ⟨request, hformed⟩ ::
          List.replicate n .tick).filterMap Event.taken = [(.session, request)] := by
        simp [Event.taken]
      have hnext := tracks_run h (fun event hmem => by
        rcases List.mem_cons.mp hmem with rfl | hmem
        · exact hrequest
        · rw [List.eq_of_mem_replicate hmem]
          trivial) hrun
      rw [hticks] at hnext
      have hdata : s'.data = s.data.replayOne request := by
        have hbefore := h.taken_eq
        have hafter := hnext.taken_eq
        simp only [List.filterMap_nil, List.append_nil] at hbefore hafter
        have hreplayed : s'.data = replay (executedWrites s'.trace) := hnext.calm.replayed
        have hold : s.data = replay (executedWrites s.trace) := h.calm.replayed
        rw [hreplayed, ← hafter, hbefore, hold]
        exact replay_concat _ request
      rcases ih hnext (fun r hmem => hrequests r (List.mem_cons_of_mem _ hmem))
        (by rw [hdata]; exact hok.2) with ⟨events, t, htaken, hrest, hidle⟩
      refine ⟨_ ++ events, t, ?_, (Execution.follow_append hrun).trans hrest, hidle⟩
      rw [List.filterMap_append, hticks, htaken]
      rfl

/-- The commands that a session hands to the store thread. -/
def dispatched (actions : List SessionAction) : List RespValue :=
  actions.filterMap fun action =>
    match action with
    | .dispatch command => some command
    | _ => none

/-- Commands that are not {lit}`REPLCONF GETACK` are dispatched. -/
theorem dispatched_streamActions {commands : List RespValue}
    (hcommands : ∀ c ∈ commands, isGetack c = false) (o : Nat) :
    dispatched (streamActions o commands) = commands := by
  induction commands generalizing o with
  | nil => rfl
  | cons command commands ih =>
      have hother : ¬ GetackMessage command := by
        rw [← isGetack_iff, hcommands command List.mem_cons_self]
        simp
      rw [streamActions, if_neg hother]
      have hrest := ih (fun c hmem => hcommands c (List.mem_cons_of_mem _ hmem))
        (o + (serialize command).length)
      simpa [dispatched] using hrest

/-- A session that follows the stream dispatches its commands. -/
theorem dispatched_run {port o : Nat} {commands : List RespValue} {session : ReplicationSession}
    {received : List SessionEvent}
    (hcommands : ∀ c ∈ commands, WellFormed c ∧ isGetack c = false)
    (hstate : session.state = ⟨.commands, o % sizeTModulus⟩) (hbuf : session.buf = [])
    (hbytes : (receivedChunks received).flatten = commands.flatMap serialize) :
    dispatched (session.run port received).2 = commands := by
  have hrun := run_eq_feedAll port session received
  have hwait : (sessionMachine port).step session.state session.buf = none := by
    rw [hstate, hbuf]
    rfl
  rw [(sessionMachine port).feedAll_eq_drain hwait, hbuf, List.nil_append, hbytes, hstate,
    drain_commands (fun c hmem => (hcommands c hmem).1)] at hrun
  simp only [Prod.mk.injEq] at hrun
  have hdriven : dispatched (drivenActions (session.run port received).2) =
      dispatched (session.run port received).2 := by
    simp only [dispatched, drivenActions, List.filterMap_filter]
    congr 1
    funext action
    cases action with
    | sendAck requested offset => cases requested <;> rfl
    | _ => rfl
  rw [← hdriven, hrun.2.2]
  exact dispatched_streamActions (fun c hmem => (hcommands c hmem).2) o

/-! ## The stream of the master -/

/-- A well-formed request of a client whose command neither blocks nor depends on the
clock. -/
def Streamed (_ : HandlerId) (request : RespValue) : Prop :=
  WellFormed request ∧ ∀ cmd, parseCommand request = .ok cmd → ClockFree cmd

/-- What is executed is added to the history. -/
theorem mem_executedWrites_acts {s s' : Server} {task : Task} {r : Except Exception (List Task)}
    (hacts : Acts env s task s' r) {request : RespValue}
    (hmem : request ∈ executedWrites s'.trace) :
    request ∈ executedWrites s.trace ∨ ∃ h cmd onReply,
      task = .execute h request cmd onReply ∧ isWriteCommand cmd.type = true := by
  have hexecuted : ∀ {h : HandlerId} {sent : RespValue} {cmd : Command} (onReply : OnReply),
      request ∈ executedWrites (s.trace ++ [.executed h cmd.type sent]) →
      request ∈ executedWrites s.trace ∨ ∃ h' cmd' onReply',
        Task.execute h sent cmd onReply = .execute h' request cmd' onReply' ∧
          isWriteCommand cmd'.type = true := by
    intro h sent cmd onReply hmem
    cases hwrite : isWriteCommand cmd.type with
    | false => exact Or.inl (by simpa [hwrite] using hmem)
    | true =>
        simp only [executedWrites_append, executedWrites_cons, hwrite, if_true, executedWrites_nil,
          List.append_nil, List.mem_append, List.mem_singleton] at hmem
        rcases hmem with hmem | rfl
        · exact Or.inl hmem
        · exact Or.inr ⟨h, cmd, onReply, rfl, hwrite⟩
  cases hacts with
  | ran =>
      rw [settle_trace] at hmem
      exact hexecuted _ hmem
  | answered | transacted | started => exact hexecuted _ hmem
  | polls => exact hexecuted _ (by simpa using hmem)
  | collected =>
      split at hmem <;> exact Or.inl (by simpa using hmem)
  | _ => exact Or.inl (by simpa using hmem)

/-- A write command is not {lit}`REPLCONF GETACK`. -/
theorem isGetack_of_write {request : RespValue} {cmd : Command}
    (hparse : parseCommand request = .ok cmd) (hwrite : isWriteCommand cmd.type = true) :
    isGetack request = false := by
  rcases request with ⟨type, str, _ | ⟨name, _ | ⟨sub, args⟩⟩⟩
  · simp [isGetack]
  · simp [isGetack]
  · cases hparse
    by_cases hname : lowercase name.str = ascii "replconf"
    · have htype : parseType name.str = .replconf := by
        rw [parseType, hname]
        decide
      rw [htype] at hwrite
      contradiction
    · simp [isGetack, hname]

/-- The thread of a master whose clients send such commands. -/
structure Streams (id : Nat) (offset : Int) (t : StoreThread) : Prop where
  calm : Calm t
  accounted : Accounted id offset t
  requests : t.From Streamed
  writes : ∀ request ∈ executedWrites t.server.trace,
    WellFormed request ∧ Replicated .session request

/-- Every event of such a master. -/
theorem streams_step {id : Nat} {offset : Int} {t t' : StoreThread} {event : Event}
    (h : Streams id offset t)
    (hevent : event.From Prompt ∧ event.From ClockFreeRequest ∧ event.Keeps id)
    (hstep : t.step env event = some t') : Streams id offset t' := by
  have hstreamed : event.From Streamed := by
    cases event with
    | request handler sent => exact ⟨sent.wellFormed, hevent.2.1⟩
    | _ => trivial
  have hwrites : ∀ {s s' : Server} {task : Task} {stack : List Task}
      {r : Except Exception (List Task)}, t = ⟨s, task :: stack⟩ → Acts env s task s' r →
      ∀ request ∈ executedWrites s'.trace, WellFormed request ∧ Replicated .session request := by
    rintro s s' task stack r rfl hacts request hmem
    rcases mem_executedWrites_acts hacts hmem with hmem | ⟨handler, cmd, onReply, rfl, hwrite⟩
    · exact h.writes request hmem
    · rcases h.requests.stack _ List.mem_cons_self with ⟨⟨⟨hformed, hfree⟩, htype⟩, hparse, -⟩
      exact ⟨hformed, rfl, htype, cmd, hparse, hwrite, hfree cmd hparse⟩
  refine ⟨calm_step h.calm hevent.2.1 hstep,
    accounted_step h.accounted ⟨hevent.1, hevent.2.2, undisturbed_of_calm h.calm event⟩ hstep,
    from_step h.requests hstreamed hstep, ?_⟩
  cases moves_of_step hstep with
  | calls stack hact => exact hwrites rfl (acts_of_act hact)
  | throws above onReply below hact => exact hwrites rfl (acts_of_act hact)
  | timeout htimer =>
      rw [h.calm.timers] at htimer
      contradiction
  | request | idle | expires | poll | attach | detach | ack => exact h.writes

/-- A replica that was just started and has no clients. -/
theorem tracks_initial (registry : ReplicaRegistry) : Tracks [] (.withReplicas registry) :=
  ⟨calm_initial registry, ⟨from_initial.congr (fun _ => rfl) rfl, by simp⟩, rfl, rfl, rfl⟩

/-- Replicas converge: a master that starts empty serves any interleaving of requests of
clients that neither block nor depend on the clock, and a replica stays registered.  The
session of the replica takes in the propagated bytes, cut in any way, and its store thread
handles what the session dispatches, in order, on an empty table and without other clients.
It can do so, and whenever it has done so, its table is that of the master. -/
theorem replica_converges {env' : Env} {registry registry' : ReplicaRegistry} {id port o : Nat}
    {events : List Event} {t : StoreThread} {session : ReplicationSession}
    {received : List SessionEvent} (hid : registry.registered id = true)
    (hevents : ∀ event ∈ events,
      event.From Prompt ∧ event.From ClockFreeRequest ∧ event.Keeps id)
    (hrun : StoreThread.run env (.withReplicas registry) events = some t) (hidle : t.Idle)
    (hstate : session.state = ⟨.commands, o % sizeTModulus⟩) (hbuf : session.buf = [])
    (hbytes : (receivedChunks received).flatten = handedTo id t.server.trace) :
    let frames := (dispatched (session.run port received).2).map fun command =>
      (HandlerId.session, command)
    (∃ events' t', events'.filterMap Event.taken = frames ∧
      StoreThread.run env' (.withReplicas registry') events' = some t' ∧ t'.Idle) ∧
    ∀ events' t', events'.filterMap Event.taken = frames →
      StoreThread.run env' (.withReplicas registry') events' = some t' → t'.Idle →
      t'.server.data = t.server.data := by
  have hstreams : Streams id registry.masterOffset t :=
    @Execution.follow_invariant _ _ _ (Streams id registry.masterOffset) _
      (fun h hevent hstep => streams_step h hevent hstep) _ _ _
      ⟨calm_initial registry, accounted_initial (ReplicaRegistry.registered_iff.mp hid),
        ⟨from_initial.congr (fun _ => rfl) rfl, by simp⟩, by simp⟩
      (Execution.along_of_forall hevents _) hrun
  have hexact := hstreams.accounted.exact
  rw [hidle, owed_nil, List.append_nil] at hexact
  rw [hexact] at hbytes
  have hdispatched : dispatched (session.run port received).2 = executedWrites t.server.trace := by
    refine dispatched_run (fun request hmem => ?_) hstate hbuf hbytes
    rcases hstreams.writes request hmem with ⟨hformed, -, -, cmd, hparse, hwrite, -⟩
    exact ⟨hformed, isGetack_of_write hparse hwrite⟩
  intro frames
  have hframes : frames = (executedWrites t.server.trace).map fun command =>
      (.session, command) := by
    rw [← hdispatched]
  refine ⟨?_, fun events' t' htaken hrun' hidle' => ?_⟩
  · rw [hframes]
    exact exists_replica_run (tracks_initial registry') hstreams.writes hstreams.calm.replayable
  · rw [hframes] at htaken
    have hevents' : ∀ event ∈ events', event.From Replicated := by
      intro event hmem
      cases event with
      | request handler sent =>
          have htake : (handler, sent.value) ∈ events'.filterMap Event.taken :=
            List.mem_filterMap.mpr ⟨_, hmem, rfl⟩
          rw [htaken] at htake
          rcases List.mem_map.mp htake with ⟨request, hrequest, heq⟩
          cases heq
          exact (hstreams.writes _ hrequest).2
      | _ => trivial
    have htracks := tracks_run (tracks_initial registry') hevents' hrun'
    have hwrites : executedWrites t.server.trace = executedWrites t'.server.trace := by
      have heq := htracks.taken_eq
      rw [htaken, hidle'] at heq
      simpa using heq
    rw [htracks.calm.replayed, hstreams.calm.replayed, hwrites]

instance (cmd : Command) : Decidable (ClockFree cmd) := by
  rcases cmd with ⟨type, name, args⟩
  unfold ClockFree
  cases type <;> infer_instance

instance (h : HandlerId) (request : RespValue) : Decidable (ClockFreeRequest h request) :=
  decidable_of_iff (∀ cmd ∈ (parseCommand request).toOption, ClockFree cmd) <| by
    refine forall_congr' fun cmd => ?_
    cases parseCommand request with
    | error e => simp [Except.toOption]
    | ok parsed => simp [Except.toOption]

/-- The stream of two writes, one of them of an {lit}`EXEC`, cut inside the first one. -/
theorem replica_converges_mixed :
    ∃ t received, StoreThread.run sampleEnv (.withReplicas oneReplica) mixedRun = some t ∧
      t.Idle ∧ (executedWrites t.server.trace).length = 2 ∧ (receivedChunks received).length = 2 ∧
      (receivedChunks received).flatten = handedTo 0 t.server.trace ∧
      ∃ events' t', events'.filterMap Event.taken =
          (dispatched (ReplicationSession.run 6380 ⟨⟨.commands, 0⟩, [], false⟩ received).2).map
            (fun command => (.session, command)) ∧
        StoreThread.run sampleEnv (.withReplicas .empty) events' = some t' ∧
        t'.server.data = t.server.data := by
  have hfacts : (StoreThread.run sampleEnv (.withReplicas oneReplica) mixedRun).map
      (fun t => (t.stack, (executedWrites t.server.trace).length)) = some ([], 2) := by
    decide +kernel
  rcases Option.map_eq_some_iff.mp hfacts with ⟨t, hrun, hvalues⟩
  have hidle : t.Idle := congrArg Prod.fst hvalues
  let received : List SessionEvent :=
    [.receive ((handedTo 0 t.server.trace).take 9), .ackTimer,
      .receive ((handedTo 0 t.server.trace).drop 9)]
  have hbytes : (receivedChunks received).flatten = handedTo 0 t.server.trace := by
    simp [received, receivedChunks]
  have hconverges := @replica_converges sampleEnv sampleEnv oneReplica .empty 0 6380 0 mixedRun t
    ⟨⟨.commands, 0⟩, [], false⟩ received (by decide) (by decide +kernel) hrun hidle rfl rfl hbytes
  rcases hconverges.1 with ⟨events', t', htaken, hrun', hidle'⟩
  exact ⟨t, received, hrun, hidle, congrArg Prod.snd hvalues, rfl, hbytes, events', t', htaken,
    hrun', hconverges.2 events' t' htaken hrun' hidle'⟩

end RedisClone
