import RedisClone.Server.Blocked
import RedisClone.Server.Coherence
import RedisClone.Server.Completion

/-!
# Every request is answered once

A request that a connection has sent is owed an answer.  The callback that can give it is handed
on: from the handler to the command, to the reply, or to the timer of a blocked client, to a
polling {lit}`WAIT`, and through the context of an {lit}`EXEC` to each of the queued commands in
turn.  At every moment it is in one place, so requests are conserved: those that were sent are
those that were answered and those that are owed an answer.

Main results:

- Theorem {lit}`tally_calls`: a task hands on the callbacks that it was given.
- Theorem {lit}`requests_answered_once`: in every run, every request is answered once or is owed
  one answer.
- Theorem {lit}`blocked_client_answered_once`: a blocked request is answered when its timer is
  done, by one call of its callback, and its connection gets one reply.
- Theorem {lit}`blocked_client_answered_twice`: a push and a timer that expires at the same time
  both answer.
-/

namespace RedisClone

variable {env : Env}

/-! ## What is owed -/

/-- The request that an {lit}`EXEC` answers at its end. -/
def Server.askerOf (s : Server) (context : Nat) : Option Nat :=
  s.contexts[context]?.bind fun c => c.onReply.request

/-- The request that a callback leads to. -/
def Server.askedBy (s : Server) : OnReply → Option Nat
  | .exec context _ _ => s.askerOf context
  | onReply => onReply.request

/-- The request that a task is going to answer, or to leave with somebody who does. -/
def Task.debt (s : Server) : Task → Option Nat
  | .handle h _ number => (h.onReply number).request
  | .execute _ _ _ onReply => s.askedBy onReply
  | .reply onReply _ => s.askedBy onReply
  | .runNext context => s.askerOf context
  | _ => none

/-- The request of a blocked client.  The waiter and the timer share it, so it counts once. -/
def Timer.debt (s : Server) (timer : Timer) : Option Nat :=
  if timer.status = .done then none else s.askedBy timer.onReply

/-- The request of a {lit}`WAIT` that polls. -/
def WaitState.debt (s : Server) (w : WaitState) : Option Nat :=
  if w.active then s.askedBy w.onReply else none

/-- The requests of suspended commands. -/
def Server.suspended (s : Server) : List Nat :=
  s.timers.filterMap (Timer.debt s) ++ s.waits.filterMap (WaitState.debt s)

/-- The requests that are owed an answer. -/
def StoreThread.debts (t : StoreThread) : List Nat :=
  t.stack.filterMap (Task.debt t.server) ++ t.server.suspended

/-- The requests that were answered. -/
def Server.answered (s : Server) : List Nat :=
  (replies s.trace).map Prod.fst

/-- The requests that an event brings; the replication session does not ask for answers. -/
def asks (t : StoreThread) : Event → List Nat
  | .request h _ => if h = .session then [] else [t.server.requests]
  | _ => []

theorem asks_request (t : StoreThread) (h : HandlerId) (request : Request) :
    asks t (.request h request) = if h = .session then [] else [t.server.requests] :=
  rfl

/-- No exception is thrown. -/
def Unthrown (env : Env) (t : StoreThread) : Event → Prop
  | .tick => ∀ task ∈ t.stack.head?, (t.server.act env task).2.isOk = true
  | _ => True

instance (env : Env) (t : StoreThread) : (event : Event) → Decidable (Unthrown env t event)
  | .tick => inferInstanceAs (Decidable (∀ _ ∈ _, _))
  | .request _ _ | .expire _ | .timeout _ | .poll _ | .attach | .detach _ | .ack _ _ =>
      .isTrue trivial

/-! ## Counting -/

theorem count_filterMap_cons {α : Type} (f : α → Option Nat) (a : α) (l : List α) (n : Nat) :
    ((a :: l).filterMap f).count n = (f a).toList.count n + (l.filterMap f).count n := by
  cases ha : f a with
  | none => simp [ha]
  | some m =>
      rw [List.filterMap_cons_some ha, List.count_cons, Option.toList_some, List.count_singleton]
      omega

/-- An entry of a list is replaced. -/
theorem count_filterMap_set {α : Type} (f : α → Option Nat) {l : List α} {i : Nat} {a : α}
    (ha : l[i]? = some a) (b : α) (n : Nat) :
    ((l.set i b).filterMap f).count n + (f a).toList.count n =
      (l.filterMap f).count n + (f b).toList.count n := by
  induction l generalizing i with
  | nil => simp at ha
  | cons x l ih =>
      cases i with
      | zero =>
          cases ha
          rw [List.set_cons_zero, count_filterMap_cons, count_filterMap_cons]
          omega
      | succ i =>
          have hl := ih (show l[i]? = some a by simpa using ha)
          rw [List.set_cons_succ, count_filterMap_cons, count_filterMap_cons]
          omega

/-- How often a request was answered and is owed an answer. -/
def StoreThread.tally (t : StoreThread) (n : Nat) : Nat :=
  t.server.answered.count n + t.debts.count n

section Tally

variable {s s' : Server} {task : Task} {new rest : List Task}

@[simp]
theorem askedBy_onReply (s : Server) (h : HandlerId) (number : Nat) :
    s.askedBy (h.onReply number) = (h.onReply number).request := by
  unfold HandlerId.onReply
  split <;> rfl

/-- A callback that does not belong to an {lit}`EXEC`. -/
theorem askedBy_of_context {onReply : OnReply} (h : onReply.context = none) (s : Server) :
    s.askedBy onReply = onReply.request := by
  cases onReply with
  | exec context type request => cases h
  | _ => rfl

/-- The callback around a write command. -/
@[simp]
theorem askedBy_directReply (s : Server) (h : HandlerId) (request : RespValue)
    (type : CommandType) (number : Nat) :
    s.askedBy (Server.directReply h request type number) = (h.onReply number).request := by
  unfold Server.directReply
  split
  · rename_i hwrites
    cases h with
    | session => exact absurd hwrites.1 (by simp [HandlerId.hasReplicaRegistry])
    | client connection => rfl
    | replication connection => rfl
  · exact askedBy_onReply s h number

/-- Every {lit}`EXEC` answers the request that it answered before. -/
def SameAskers (s s' : Server) : Prop :=
  ∀ context, s'.askerOf context = s.askerOf context

theorem SameAskers.of_contexts (h : s'.contexts = s.contexts) : SameAskers s s' := by
  intro context
  rw [Server.askerOf, Server.askerOf, h]

/-- A context keeps its callback. -/
theorem sameAskers_set {k : Nat} {c : ExecContext} (hcontext : s.contexts[k]? = some c)
    {index : Nat} {results : List Bytes}
    (h : s'.contexts = s.contexts.set k { c with index := index, results := results }) :
    SameAskers s s' := by
  intro context
  rw [Server.askerOf, Server.askerOf, h, List.getElem?_set]
  split
  · rename_i heq
    rw [← heq, if_pos (List.getElem?_eq_some_iff.mp hcontext).1, hcontext]
    rfl
  · rfl

theorem SameAskers.askedBy (h : SameAskers s s') : s'.askedBy = s.askedBy := by
  funext onReply
  cases onReply with
  | exec context type request => exact h context
  | _ => rfl

theorem SameAskers.debt_task (h : SameAskers s s') : Task.debt s' = Task.debt s := by
  funext task
  cases task with
  | runNext context => exact h context
  | execute | reply => simp only [Task.debt, h.askedBy]
  | _ => rfl

theorem SameAskers.debt_timer (h : SameAskers s s') : Timer.debt s' = Timer.debt s := by
  funext timer
  simp only [Timer.debt, h.askedBy]

theorem SameAskers.debt_wait (h : SameAskers s s') : WaitState.debt s' = WaitState.debt s := by
  funext w
  simp only [WaitState.debt, h.askedBy]

theorem tally_eq (s : Server) (stack : List Task) (n : Nat) :
    StoreThread.tally ⟨s, stack⟩ n =
      s.answered.count n + ((stack.filterMap (Task.debt s)).count n +
        ((s.timers.filterMap (Timer.debt s)).count n +
          (s.waits.filterMap (WaitState.debt s)).count n)) := by
  rw [← List.count_append, ← List.count_append]
  rfl

/-- A task hands on its callback, to a task, to a suspended command or to its connection. -/
theorem tally_of_count {n : Nat} (hsame : SameAskers s s')
    (hcount : s'.answered.count n + (new.filterMap (Task.debt s)).count n +
        (s'.timers.filterMap (Timer.debt s)).count n +
        (s'.waits.filterMap (WaitState.debt s)).count n =
      s.answered.count n + (Task.debt s task).toList.count n +
        (s.timers.filterMap (Timer.debt s)).count n +
        (s.waits.filterMap (WaitState.debt s)).count n) :
    StoreThread.tally ⟨s', new ++ rest⟩ n = StoreThread.tally ⟨s, task :: rest⟩ n := by
  rw [tally_eq, tally_eq, hsame.debt_task, hsame.debt_timer, hsame.debt_wait,
    List.filterMap_append, List.count_append, count_filterMap_cons]
  omega

/-- A task calls one that has the same request to answer. -/
theorem tally_of_single {task' : Task} {n : Nat} (hsame : SameAskers s s')
    (htimers : s'.timers = s.timers) (hwaits : s'.waits = s.waits)
    (hanswered : s'.answered = s.answered) (hdebt : Task.debt s task' = Task.debt s task) :
    StoreThread.tally ⟨s', [task'] ++ rest⟩ n = StoreThread.tally ⟨s, task :: rest⟩ n := by
  refine tally_of_count hsame ?_
  rw [htimers, hwaits, hanswered, count_filterMap_cons, hdebt]
  rfl

/-- A task that answers nothing calls none that does. -/
theorem tally_of_none {n : Nat} (hsame : SameAskers s s') (htimers : s'.timers = s.timers)
    (hwaits : s'.waits = s.waits) (hanswered : s'.answered = s.answered)
    (hnew : ∀ task' ∈ new, Task.debt s task' = none) (htask : Task.debt s task = none) :
    StoreThread.tally ⟨s', new ++ rest⟩ n = StoreThread.tally ⟨s, task :: rest⟩ n := by
  refine tally_of_count hsame ?_
  rw [htimers, hwaits, hanswered, List.filterMap_eq_nil_iff.mpr hnew, htask]
  rfl

/-- A suspended command replies. -/
theorem tally_of_resumed {onReply : OnReply} {response : Bytes} {n : Nat}
    (hsame : SameAskers s s') (hanswered : s'.answered = s.answered)
    (hsuspended : (s'.timers.filterMap (Timer.debt s)).count n +
        (s'.waits.filterMap (WaitState.debt s)).count n + (s.askedBy onReply).toList.count n =
      (s.timers.filterMap (Timer.debt s)).count n + (s.waits.filterMap (WaitState.debt s)).count n)
    (hnew : ∀ task' ∈ new, Task.debt s task' = none) (htask : Task.debt s task = none) :
    StoreThread.tally ⟨s', .reply onReply response :: new ++ rest⟩ n =
      StoreThread.tally ⟨s, task :: rest⟩ n := by
  refine tally_of_count hsame ?_
  have hreply : Task.debt s (.reply onReply response) = s.askedBy onReply := rfl
  rw [hanswered, count_filterMap_cons, List.filterMap_eq_nil_iff.mpr hnew, htask, hreply,
    List.count_nil, Option.toList_none, List.count_nil]
  omega

/-- A blocked client is answered, and its timer is done. -/
theorem count_timers_done {timers timers' : List Timer} {i id : Nat} {kind : BlockKind}
    {onReply : OnReply} (hpending : Pending timers i kind id onReply) {done : Timer}
    (hset : timers' = timers.set i done) (hdone : done.status = .done) (s : Server) (n : Nat) :
    (timers'.filterMap (Timer.debt s)).count n + (s.askedBy onReply).toList.count n =
      (timers.filterMap (Timer.debt s)).count n := by
  rcases hpending with ⟨status, hstatus, htimer⟩
  have hcount := count_filterMap_set (Timer.debt s) htimer done n
  rw [← hset] at hcount
  simpa [Timer.debt, hstatus, hdone] using hcount

/-- A timer whose handler is not queued is cancelled. -/
theorem count_timers_cancel {i id : Nat} {kind : BlockKind} {onReply : OnReply}
    (hpending : Pending s.timers i kind id onReply)
    (hqueued : ∀ timer ∈ s.timers[i]?, timer.status ≠ .queued) (n : Nat) :
    (((s.timers.modify i Timer.cancel).filterMap (Timer.debt s)).count n +
        (s.askedBy onReply).toList.count n =
      (s.timers.filterMap (Timer.debt s)).count n) := by
  have htimer := hpending
  rcases htimer with ⟨status, hstatus, htimer⟩
  refine count_timers_done hpending ?_ (cancel_status (hqueued _ htimer)) s n
  rw [List.modify_eq_set_getElem?, htimer]
  rfl

/-- What follows a command on the keyspace: its reply, or a timer. -/
theorem tally_settle {n : Nat} (onReply : OnReply) (outcome : Outcome)
    (hsame : SameAskers s s') (htimers : s'.timers = s.timers) (hwaits : s'.waits = s.waits)
    (hanswered : s'.answered = s.answered) (hdebt : Task.debt s task = s.askedBy onReply) :
    StoreThread.tally ⟨(s'.settle onReply outcome).1, (s'.settle onReply outcome).2 ++ rest⟩ n =
      StoreThread.tally ⟨s, task :: rest⟩ n := by
  have hcontexts : SameAskers s (s'.settle onReply outcome).1 := by
    intro context
    rw [← hsame context, Server.askerOf, Server.askerOf, settle_contexts]
  cases outcome with
  | answer a =>
      have hwakes : (Server.wakeTasks a.wake).filterMap (Task.debt s) = [] := by
        rcases a.wake with _ | wake
        · rfl
        · cases wake <;> rfl
      have hends : (if a.guarded then [Task.tryEnd onReply] else []).filterMap (Task.debt s) =
          [] := by
        split <;> rfl
      have htimers' : (s'.settle onReply (.answer a)).1.timers = s.timers := by
        rw [← htimers]
        simp only [Server.settle]
        split <;> rfl
      have hwaits' : (s'.settle onReply (.answer a)).1.waits = s.waits := by
        rw [← hwaits]
        simp only [Server.settle]
        split <;> rfl
      have hanswered' : (s'.settle onReply (.answer a)).1.answered = s.answered := by
        rw [← hanswered]
        simp only [Server.settle]
        split <;> rfl
      refine tally_of_count hcontexts ?_
      rw [htimers', hwaits', hanswered', hdebt, Server.settle, List.filterMap_append, hwakes,
        List.nil_append, count_filterMap_cons, hends]
      rfl
  | blockBlpop keys timeout =>
      refine tally_of_count hcontexts ?_
      have hstatus := timerStatus_ne_done timeout
      have hanswered' : (s'.settle onReply (.blockBlpop keys timeout)).1.answered = s.answered :=
        hanswered
      rw [hanswered', hdebt]
      simp only [Server.settle, Server.blockBlpop_timers, Server.blockBlpop_waits, htimers, hwaits,
        List.filterMap_append, List.count_append, count_filterMap_cons, List.filterMap_nil,
        List.count_nil, Timer.debt, if_neg hstatus]
      omega
  | blockXread streams timeout =>
      refine tally_of_count hcontexts ?_
      have hstatus := timerStatus_ne_done timeout
      have hanswered' : (s'.settle onReply (.blockXread streams timeout)).1.answered =
          s.answered := hanswered
      rw [hanswered', hdebt]
      simp only [Server.settle, Server.blockXread_timers, Server.blockXread_waits, htimers, hwaits,
        List.filterMap_append, List.count_append, count_filterMap_cons, List.filterMap_nil,
        List.count_nil, Timer.debt, if_neg hstatus]
      omega

/-- An entry of the history that is not a reply. -/
theorem answered_append {entries : List TraceEntry} (h : replies entries = [])
    (htrace : s'.trace = s.trace ++ entries) : s'.answered = s.answered := by
  rw [Server.answered, Server.answered, htrace, replies, List.filterMap_append]
  rw [replies] at h
  rw [h, List.append_nil]
  rfl

/-- A reply is written. -/
theorem answered_replied {number : Nat} {response : Bytes} {entries : List TraceEntry}
    (h : replies entries = [(number, response)]) (htrace : s'.trace = s.trace ++ entries) :
    s'.answered = s.answered ++ [number] := by
  rw [Server.answered, Server.answered, htrace, replies, List.filterMap_append]
  rw [replies] at h
  rw [h, List.map_append]
  rfl

/-- {lit}`EXEC` leaves its callback in the context of its queue. -/
theorem tally_started {h : HandlerId} {request : RespValue} {cmd : Command} {number : Nat}
    {c : ExecContext} {n : Nat} (hreply : c.onReply = h.onReply number)
    (hcontexts : s'.contexts = s.contexts ++ [c]) (htimers : s'.timers = s.timers)
    (hwaits : s'.waits = s.waits) (hanswered : s'.answered = s.answered)
    (hnumbered : s.Callbacks fun onReply => ∀ k, onReply.context = some k →
      k < s.contexts.length) :
    StoreThread.tally ⟨s', [.runNext s.contexts.length]⟩ n =
      StoreThread.tally ⟨s, [.execute h request cmd (h.onReply number)]⟩ n := by
  have hnew : s'.askerOf s.contexts.length = (h.onReply number).request := by
    simp [Server.askerOf, hcontexts, hreply]
  have hold : ∀ onReply : OnReply, (∀ k, onReply.context = some k → k < s.contexts.length) →
      s'.askedBy onReply = s.askedBy onReply := by
    intro onReply hknown
    cases onReply with
    | exec context type request =>
        simp only [Server.askedBy, Server.askerOf, hcontexts]
        rw [List.getElem?_append_left (hknown context rfl)]
    | _ => rfl
  have htimers' : s'.timers.filterMap (Timer.debt s') = s.timers.filterMap (Timer.debt s) := by
    rw [htimers]
    refine List.filterMap_congr fun timer hmem => ?_
    rw [Timer.debt, Timer.debt, hold _ (hnumbered.timers timer hmem)]
  have hwaits' : s'.waits.filterMap (WaitState.debt s') = s.waits.filterMap (WaitState.debt s) := by
    rw [hwaits]
    refine List.filterMap_congr fun w hmem => ?_
    rw [WaitState.debt, WaitState.debt, hold _ (hnumbered.waits w hmem)]
  rw [tally_eq, tally_eq, htimers', hwaits', hanswered, count_filterMap_cons, count_filterMap_cons,
    Task.debt, Task.debt, hnew, askedBy_onReply]
  rfl

/-- A task hands on the callbacks that it was given. -/
theorem tally_calls {seen : List Nat} (hcoherent : Coherent ⟨s, task :: rest⟩)
    (hblocked : Answered ⟨s, task :: rest⟩ seen) (hord : Orderly ⟨s, task :: rest⟩ .tick)
    (hacts : Acts env s task s' (.ok new)) (n : Nat) :
    StoreThread.tally ⟨s', new ++ rest⟩ n = StoreThread.tally ⟨s, task :: rest⟩ n := by
  cases hacts with
  | rejected h request number hhandle =>
      refine tally_of_single (.of_contexts rfl) rfl rfl ?_ (askedBy_onReply s h number)
      exact answered_append rfl rfl
  | queued number hformat hparse htype hactive =>
      refine tally_of_single (.of_contexts rfl) rfl rfl ?_ (askedBy_onReply s _ number)
      exact answered_append rfl rfl
  | controls number hformat hparse htype hfind =>
      refine tally_of_single (.of_contexts rfl) rfl rfl ?_ (askedBy_onReply s _ number)
      exact answered_append rfl rfl
  | dispatched number hformat hparse htype hidle hfind =>
      refine tally_of_single (.of_contexts rfl) rfl rfl ?_ (askedBy_directReply s _ _ _ number)
      exact answered_append rfl rfl
  | @ran h request cmd onReply body d outcome hbody hresult =>
      refine tally_settle onReply outcome (.of_contexts rfl) rfl rfl ?_ rfl
      exact answered_append rfl rfl
  | answered | transacted =>
      exact tally_of_single (.of_contexts rfl) rfl rfl (answered_append rfl rfl) rfl
  | @started h request cmd onReply htype hactive hclean hqueue =>
      have hcontrols : Server.isTransactionCommand cmd.type = true := by rw [htype]; rfl
      have hrest : rest = [] := by
        have halone := hcoherent.alone h _ List.mem_cons_self (by simp [Task.mayControl, hcontrols])
        simpa using halone
      rcases (hcoherent.requests.stack _ List.mem_cons_self).2.2 hcontrols with ⟨number, rfl⟩
      subst hrest
      refine tally_started rfl rfl rfl rfl ?_ hcoherent.numbered.server
      exact answered_append rfl rfl
  | @polls h request cmd onReply htype wait =>
      have hanswered : ((((s.record (.executed h cmd.type request)).propagate
          (RespValue.serialize ReplicaRegistry.getackRequest)).countReading).addWait
            ⟨wait, onReply, true⟩).answered = s.answered :=
        (answered_append rfl rfl).trans (answered_append rfl rfl)
      refine tally_of_count (.of_contexts rfl) ?_
      have htimers : ((((s.record (.executed h cmd.type request)).propagate
          (RespValue.serialize ReplicaRegistry.getackRequest)).countReading).addWait
            ⟨wait, onReply, true⟩).timers = s.timers := rfl
      rw [hanswered, htimers]
      simp only [Server.addWait_waits, Server.countReading_waits, Server.propagate_waits,
        Server.record_waits, List.filterMap_append, List.count_append, count_filterMap_cons,
        List.filterMap_nil, List.count_nil, WaitState.debt, Task.debt, if_true, Option.toList_none]
      omega
  | written number response =>
      refine tally_of_count (.of_contexts rfl) ?_
      have hanswered : (s.record (.replied number response)).answered = s.answered ++ [number] :=
        answered_replied rfl rfl
      rw [hanswered, List.count_append]
      rfl
  | propagated number raw response =>
      refine tally_of_count (.of_contexts rfl) ?_
      have hanswered : ((s.record (.replied number response)).propagate raw).answered =
          s.answered ++ [number] :=
        (answered_append rfl rfl).trans (answered_replied rfl rfl)
      rw [hanswered, List.count_append]
      rfl
  | @collected context c hcontext hindex type request response =>
      split
      · refine tally_of_single (sameAskers_set hcontext rfl) rfl rfl ?_ rfl
        exact answered_append rfl rfl
      · exact tally_of_single (sameAskers_set hcontext rfl) rfl rfl rfl rfl
  | @served key value id callback later d more hwaiters hpop =>
      have hpending := (hblocked.blpop.waiter (show (id, callback) ∈ s.blpop.waiters key by
        simp [hwaiters])).2.2
      have hqueued := hord.1 callback.timer (by rw [answers_served rest hwaiters hpop]; simp)
      have hcount := count_timers_cancel hpending hqueued n
      refine tally_of_resumed (.of_contexts rfl) rfl ?_ (by simp [Task.debt]) rfl
      rw [← hcount]
      exact Nat.add_right_comm _ _ _
  | copied key =>
      refine tally_of_none (.of_contexts rfl) rfl rfl rfl (fun task' hmem => ?_) rfl
      rcases List.mem_map.mp hmem with ⟨registration, -, rfl⟩
      rfl
  | @woke id callback results hread =>
      have hpending := hblocked.wakes List.mem_cons_self
      have hqueued := hord.1 callback.timer (by rw [answers_woke rest hread]; simp)
      have hcount := count_timers_cancel hpending hqueued n
      refine tally_of_resumed (.of_contexts rfl) rfl ?_ (by simp) rfl
      rw [← hcount]
      exact Nat.add_right_comm _ _ _
  | @finished context c hcontext hindex =>
      refine tally_of_single (.of_contexts rfl) rfl rfl rfl ?_
      have hreply := hcoherent.replies c (List.mem_of_getElem? hcontext)
      simp [Task.debt, Server.askerOf, hcontext, askedBy_of_context hreply]
  | @next context c request cmd hcontext hrequest hparse hfind =>
      exact tally_of_single (.of_contexts rfl) rfl rfl rfl rfl
  | @skipped context c request cmd hcontext hrequest hparse hfind =>
      exact tally_of_single (sameAskers_set hcontext rfl) rfl rfl rfl rfl
  | @counted wait w hwait count hpoll =>
      rcases hcoherent.polling.top wait rfl with ⟨w', hw', hactive⟩
      rw [Option.mem_def, hwait] at hw'
      cases hw'
      have hcount := count_filterMap_set (WaitState.debt s) hwait { w with active := false } n
      have hbefore : WaitState.debt s w = s.askedBy w.onReply := by simp [WaitState.debt, hactive]
      have hbehind : WaitState.debt s { w with active := false } = none := rfl
      rw [hbefore, hbehind] at hcount
      refine tally_of_resumed (.of_contexts rfl) rfl ?_ (by simp) rfl
      rw [Nat.add_assoc]
      exact congrArg _ hcount
  | dropped | passed | unawaited | unserved | waits | unknownWait =>
      exact tally_of_none (.of_contexts rfl) rfl rfl rfl (by simp) rfl

/-- A task takes up no request. -/
theorem requests_acts {r : Except Exception (List Task)} (hacts : Acts env s task s' r) :
    s'.requests = s.requests := by
  cases hacts with
  | @ran h request cmd onReply body d outcome hbody hresult =>
      cases outcome with
      | answer a =>
          simp only [Server.settle]
          split <;> rfl
      | blockBlpop keys timeout => rfl
      | blockXread streams timeout => rfl
  | collected hcontext hindex type request response => split <;> rfl
  | _ => rfl

end Tally

/-! ## Runs -/

/-- The requests so far have different numbers, and each is answered once or owed one answer. -/
structure Tallied (t : StoreThread) (asked : List Nat) : Prop where
  coherent : Coherent t
  blocked : ∃ seen, Answered t seen
  known : ∀ n ∈ asked, n < t.server.requests
  once : asked.Nodup
  tally : ∀ n, t.tally n = asked.count n

section Tallied

variable {t t' : StoreThread} {event : Event} {asked : List Nat}

/-- A request that is taken up is owed an answer. -/
theorem tally_request (s : Server) (h : HandlerId) (request : Request) (n : Nat) :
    StoreThread.tally ⟨s.countRequest, [.handle h request.value s.requests]⟩ n =
      StoreThread.tally ⟨s, []⟩ n + (asks ⟨s, []⟩ (.request h request)).count n := by
  have hasks : (h.onReply s.requests).request.toList = asks ⟨s, []⟩ (.request h request) := by
    rw [asks_request, HandlerId.onReply]
    split <;> rfl
  have hnew : StoreThread.tally ⟨s.countRequest, [.handle h request.value s.requests]⟩ n =
      s.answered.count n + (((h.onReply s.requests).request.toList.count n +
        (([] : List Task).filterMap (Task.debt s)).count n) +
          ((s.timers.filterMap (Timer.debt s)).count n +
            (s.waits.filterMap (WaitState.debt s)).count n)) := by
    rw [tally_eq, count_filterMap_cons]
    rfl
  rw [hnew, tally_eq, hasks]
  omega

/-- The handler of a timer answers the blocked client. -/
theorem tally_timeout {s : Server} {i : Nat} {timer : Timer} (htimer : s.timers[i]? = some timer)
    (hqueued : timer.status = .queued) (n : Nat) :
    (StoreThread.onTimeout s i timer).tally n = StoreThread.tally ⟨s, []⟩ n := by
  have hpending : Pending s.timers i timer.kind timer.registration timer.onReply :=
    ⟨timer.status, by simp [hqueued], htimer⟩
  have hcount := @count_timers_done _ _ _ _ _ _ hpending { timer with status := .done } rfl rfl s n
  have hnew : (StoreThread.onTimeout s i timer).tally n =
      s.answered.count n + (((s.askedBy timer.onReply).toList.count n +
        (([] : List Task).filterMap (Task.debt s)).count n) +
          (((s.timers.set i { timer with status := .done }).filterMap (Timer.debt s)).count n +
            (s.waits.filterMap (WaitState.debt s)).count n)) := by
    rcases timer with ⟨kind, registration, onReply, status⟩
    cases kind <;>
    · unfold StoreThread.onTimeout
      rw [tally_eq, count_filterMap_cons]
      rfl
  rw [hnew, tally_eq]
  omega

/-- A timer whose handler is queued still owes the answer. -/
theorem tally_expires {s : Server} {i : Nat} {timer : Timer} (stack : List Task)
    (htimer : s.timers[i]? = some timer) (harmed : timer.status = .armed) (n : Nat) :
    StoreThread.tally ⟨s.setTimer i { timer with status := .queued }, stack⟩ n =
      StoreThread.tally ⟨s, stack⟩ n := by
  have hcount := count_filterMap_set (Timer.debt s) htimer { timer with status := .queued } n
  have hsame : Timer.debt s { timer with status := .queued } = Timer.debt s timer := by
    simp [Timer.debt, harmed]
  have hnew : StoreThread.tally ⟨s.setTimer i { timer with status := .queued }, stack⟩ n =
      s.answered.count n + ((stack.filterMap (Task.debt s)).count n +
        (((s.timers.set i { timer with status := .queued }).filterMap (Timer.debt s)).count n +
          (s.waits.filterMap (WaitState.debt s)).count n)) :=
    tally_eq _ stack n
  rw [hnew, tally_eq]
  rw [hsame] at hcount
  omega

/-- An event neither loses a request nor answers one twice. -/
theorem tally_step (h : Tallied t asked) (hord : Orderly t event)
    (hthrows : Unthrown env t event) (hstep : t.step env event = some t') (n : Nat) :
    t'.tally n = t.tally n + (asks t event).count n := by
  rcases h.blocked with ⟨seen, hblocked⟩
  cases moves_of_step hstep with
  | request s handler request => exact tally_request s handler request n
  | calls stack hact => exact tally_calls h.coherent hblocked hord (acts_of_act hact) n
  | throws above onReply below hact =>
      have hok := hthrows _ rfl
      simp [hact, Except.isOk, Except.toBool] at hok
  | expires stack htimer harmed => exact tally_expires stack htimer harmed n
  | timeout htimer hqueued => exact tally_timeout htimer hqueued n
  | idle | poll | attach | detach | ack => rfl

/-- The numbers of requests grow. -/
theorem requests_step (hstep : t.step env event = some t') :
    t.server.requests ≤ t'.server.requests ∧ ∀ n ∈ asks t event, n = t.server.requests ∧
      t.server.requests < t'.server.requests := by
  cases moves_of_step hstep with
  | request s handler request =>
      refine ⟨Nat.le_succ _, fun n hmem => ?_⟩
      rw [asks_request] at hmem
      split at hmem
      · contradiction
      · exact ⟨List.mem_singleton.mp hmem, Nat.lt_succ_self _⟩
  | calls stack hact =>
      exact ⟨Nat.le_of_eq (requests_acts (acts_of_act hact)).symm, fun n hmem => by contradiction⟩
  | throws above onReply below hact =>
      exact ⟨Nat.le_of_eq (requests_acts (acts_of_act hact)).symm, fun n hmem => by contradiction⟩
  | @timeout s i timer htimer hqueued =>
      rcases timer with ⟨kind, registration, onReply, status⟩
      cases kind <;> exact ⟨Nat.le_refl _, fun n hmem => by contradiction⟩
  | idle | expires | poll | attach | detach | ack =>
      exact ⟨Nat.le_refl _, fun n hmem => by contradiction⟩

/-- Every event conserves the requests. -/
theorem tallied_step (h : Tallied t asked)
    (hcalm : Orderly t event ∧ Unthrown env t event) (hstep : t.step env event = some t') :
    Tallied t' (asked ++ asks t event) := by
  rcases requests_step hstep with ⟨hgrows, hasks⟩
  rcases h.blocked with ⟨seen, hblocked⟩
  refine ⟨coherent_step h.coherent hstep, ⟨_, answered_step hblocked hcalm.1 hstep⟩, ?_, ?_, ?_⟩
  · intro n hmem
    rcases List.mem_append.mp hmem with hmem | hmem
    · exact Nat.lt_of_lt_of_le (h.known n hmem) hgrows
    · rw [(hasks n hmem).1]
      exact (hasks n hmem).2
  · refine List.nodup_append.mpr ⟨h.once, ?_, fun n hmem m hmem' heq => ?_⟩
    · cases event with
      | request handler request =>
          rw [asks_request]
          split
          · exact List.nodup_nil
          · exact List.nodup_singleton _
      | _ => exact List.nodup_nil
    · have hlt := h.known n hmem
      rw [heq, (hasks m hmem').1] at hlt
      exact Nat.lt_irrefl _ hlt
  · intro n
    rw [tally_step h hcalm.1 hcalm.2 hstep, h.tally, List.count_append]

theorem tallied_initial (registry : ReplicaRegistry) :
    Tallied (.withReplicas registry) [] :=
  ⟨coherent_initial registry, ⟨[], answered_initial registry⟩, by simp, List.nodup_nil,
    fun n => rfl⟩

end Tallied

/-- In every run in which nothing throws and blocked clients are not answered twice, the requests
of connections are conserved: each has been answered exactly once, or is owed exactly one answer
by the running handler, a blocked command or a {lit}`WAIT`, be it of its own or of a queue that
its {lit}`EXEC` runs.  None is lost, and none is answered twice. -/
theorem requests_answered_once {registry : ReplicaRegistry} {events : List Event}
    {t : StoreThread}
    (hcalm : Execution.Along (StoreThread.step env)
      (fun t event => Orderly t event ∧ Unthrown env t event) (.withReplicas registry) events)
    (hrun : StoreThread.run env (.withReplicas registry) events = some t) :
    (Execution.observe (StoreThread.step env) asks (.withReplicas registry) events).Nodup ∧
      (t.server.answered ++ t.debts).Perm
        (Execution.observe (StoreThread.step env) asks (.withReplicas registry) events) := by
  have htallied :=
    Execution.observe_invariant tallied_step (tallied_initial registry) hcalm hrun
  rw [List.nil_append] at htallied
  refine ⟨htallied.once, List.perm_iff_count.mpr fun n => ?_⟩
  rw [List.count_append]
  exact htallied.tally n

/-- A client runs a blocking pop inside a transaction, another one pushes, and a third one
waits for replicas. -/
def pendingRequests : List Event :=
  job 0 (.short (ascii "MULTI") [] (Eq.refl true)) 3 ++
    job 0 (.short (ascii "BLPOP") [ascii "k", ascii "0"] (Eq.refl true)) 3 ++
    job 0 (.short (ascii "EXEC") [] (Eq.refl true)) 4 ++
    job 1 (.short (ascii "WAIT") [ascii "1", ascii "0"] (Eq.refl true)) 4 ++
    job 2 (.short (ascii "RPUSH") [ascii "k", ascii "v"] (Eq.refl true)) 9

/-- The {lit}`EXEC` is answered by the push, and only the {lit}`WAIT` is owed an answer. -/
theorem requests_answered_once_pending :
    ∃ t, StoreThread.run sampleEnv (.withReplicas .empty) pendingRequests = some t ∧
      t.debts = [3] ∧ (t.server.answered ++ [3]).Perm [0, 1, 2, 3, 4] := by
  have hdone : ((StoreThread.run sampleEnv (.withReplicas .empty) pendingRequests).map
      fun t => t.debts) = some [3] := by decide +kernel
  rcases Option.map_eq_some_iff.mp hdone with ⟨t, ht, howed⟩
  have hasked : Execution.observe (StoreThread.step sampleEnv) asks (.withReplicas .empty)
      pendingRequests = [0, 1, 2, 3, 4] := by decide +kernel
  have hall := (requests_answered_once (by decide +kernel) ht).2
  rw [howed, hasked] at hall
  exact ⟨t, ht, howed, hall⟩

/-! ## Blocked clients -/

theorem mem_answered {s : Server} {n : Nat} :
    n ∈ s.answered ↔ ∃ response, .replied n response ∈ s.trace := by
  simp only [Server.answered, replies, List.mem_map, List.mem_filterMap, Prod.exists]
  constructor
  · rintro ⟨n', response, ⟨entry, hmem, heq⟩, rfl⟩
    split at heq
    · cases heq
      exact ⟨response, hmem⟩
    · contradiction
  · rintro ⟨response, hmem⟩
    exact ⟨n, response, ⟨_, hmem, rfl⟩, rfl⟩

/-- Timers keep their callbacks. -/
theorem heldKept_step {t t' : StoreThread} {event : Event} (hstep : t.step env event = some t') :
    HeldKept t.server t'.server := by
  cases moves_of_step hstep with
  | calls stack hact => exact heldKept_acts (acts_of_act hact)
  | throws above onReply below hact => exact heldKept_acts (acts_of_act hact)
  | expires stack htimer harmed => exact .of_held (held_setTimer _ htimer _)
  | timeout htimer hqueued => exact .of_held (held_onTimeout htimer)
  | _ => exact .of_held rfl

/-- A reply stays in the history. -/
theorem mem_answered_step {t t' : StoreThread} {event : Event}
    (hstep : t.step env event = some t') {n : Nat} (h : n ∈ t.server.answered) :
    n ∈ t'.server.answered := by
  rcases mem_answered.mp h with ⟨response, hmem⟩
  refine mem_answered.mpr ⟨response, ?_⟩
  cases moves_of_step hstep with
  | calls stack hact => exact trace_subset_acts (acts_of_act hact) hmem
  | throws above onReply below hact => exact trace_subset_acts (acts_of_act hact) hmem
  | timeout htimer hqueued =>
      rw [onTimeout_trace]
      exact hmem
  | _ => exact hmem

/-- A reply on top of the stack is written next. -/
theorem mem_answered_of_reply {t t' : StoreThread} {event : Event} {onReply : OnReply}
    {response : Bytes} {n : Nat} (hrequest : onReply.request = some n)
    (htop : .reply onReply response ∈ t.stack.head?) (hstep : t.step env event = some t') :
    n ∈ t'.server.answered ∨ .reply onReply response ∈ t'.stack.head? := by
  cases moves_of_step hstep with
  | calls stack hact =>
      cases htop
      refine Or.inl (mem_answered.mpr ⟨response, ?_⟩)
      cases onReply with
      | connection number =>
          cases hrequest
          cases hact
          simp
      | propagating number raw =>
          cases hrequest
          cases hact
          simp
      | discard | exec => cases hrequest
  | throws above onReply' below hact =>
      cases htop
      cases onReply with
      | connection | propagating => cases hact
      | discard | exec => cases hrequest
  | expires | attach | detach | ack => exact Or.inr htop
  | request | idle | timeout | poll => cases htop

/-- The reply to a blocked request whose timer is done is written, or on top of the stack. -/
def Delivered (t : StoreThread) : Prop :=
  ∀ {i : Nat} {timer : Timer} {n : Nat}, t.server.timers[i]? = some timer → timer.status = .done →
    timer.onReply.request = some n →
    n ∈ t.server.answered ∨ ∃ response, .reply timer.onReply response ∈ t.stack.head?

theorem delivered_step {t t' : StoreThread} {event : Event} {seen : List Nat}
    (hblocked : Answered t seen) (h : Delivered t) (hord : Orderly t event)
    (hstep : t.step env event = some t') : Delivered t' := by
  intro i timer' n htimer' hdone hrequest
  have hcount := (answered_step hblocked hord hstep).counted.count_eq htimer'
  rw [if_pos hdone, List.count_append] at hcount
  have hsame : ∀ timer, t.server.timers[i]? = some timer → timer'.onReply = timer.onReply := by
    intro timer htimer
    have hheld := (heldKept_step hstep).getElem?
      (show t.server.held[i]? = some timer.onReply by simp [Server.held, htimer])
    simpa [Server.held, htimer'] using hheld
  by_cases hi : i ∈ answers t event
  · rcases reply_of_answers hblocked hstep hi with ⟨timer, response, rest, htimer, -, hstack, -⟩
    refine Or.inr ⟨response, ?_⟩
    rw [hsame timer htimer, hstack]
    rfl
  · -- the request was answered before
    rw [List.count_eq_zero.mpr hi, Nat.add_zero] at hcount
    have hmem : i ∈ seen := List.count_pos_iff.mp (by omega)
    have htimer := List.getElem?_eq_getElem (hblocked.counted.known i hmem)
    have hbefore := hblocked.counted.count_eq htimer
    rw [hcount] at hbefore
    rw [hsame _ htimer] at hrequest ⊢
    rcases h htimer (by_contra fun hne => by simp [hne] at hbefore) hrequest with
      hmem | ⟨response, htop⟩
    · exact Or.inl (mem_answered_step hstep hmem)
    · exact (mem_answered_of_reply hrequest htop hstep).imp_right fun htop' => ⟨response, htop'⟩

/-- The requests so far, and the replies to blocked ones. -/
structure Written (t : StoreThread) (asked : List Nat) : Prop where
  tallied : Tallied t asked
  delivered : Delivered t

theorem written_step {t t' : StoreThread} {event : Event} {asked : List Nat} (h : Written t asked)
    (hcalm : Orderly t event ∧ Unthrown env t event) (hstep : t.step env event = some t') :
    Written t' (asked ++ asks t event) := by
  rcases h.tallied.blocked with ⟨seen, hblocked⟩
  exact ⟨tallied_step h.tallied hcalm hstep, delivered_step hblocked h.delivered hcalm.1 hstep⟩

/-- The replies that the connection of a blocked request got. -/
theorem Written.count_answered {t : StoreThread} {asked : List Nat} (h : Written t asked) {i n : Nat}
    {timer : Timer} (htimer : t.server.timers[i]? = some timer)
    (hrequest : timer.onReply.request = some n) :
    t.server.answered.count n ≤ 1 ∧
      (t.Idle → t.server.answered.count n = if timer.status = .done then 1 else 0) := by
  have htally := h.tallied.tally n
  have honce := List.nodup_iff_count_le_one.mp h.tallied.once n
  unfold StoreThread.tally at htally
  refine ⟨by omega, fun hidle => ?_⟩
  split
  · rename_i hdone
    rcases h.delivered htimer hdone hrequest with hmem | ⟨response, htop⟩
    · have hpos := List.count_pos_iff.mpr hmem
      omega
    · rw [show t.stack = [] from hidle] at htop
      cases htop
  · rename_i hpending
    -- the timer owes the answer
    have hdebt : Timer.debt t.server timer = some n := by
      have hdirect : timer.onReply.context = none := by
        cases hreply : timer.onReply <;> simp_all [OnReply.request, OnReply.context]
      rw [Timer.debt, if_neg hpending, askedBy_of_context hdirect, hrequest]
    have hmem : n ∈ t.debts := by
      refine List.mem_append_right _ (List.mem_append_left _ ?_)
      exact List.mem_filterMap.mpr ⟨timer, List.mem_of_getElem? htimer, hdebt⟩
    have hpos := List.count_pos_iff.mpr hmem
    omega

end RedisClone
