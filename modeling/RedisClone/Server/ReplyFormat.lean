import RedisClone.Command.Replies
import RedisClone.Server.Provenance

/-!
# Replies of the server

Every string that is passed to {lit}`on_reply` by the commands of the client
registry, by the dispatcher and by {lit}`EXEC` is one complete reply, with two
exceptions: {lit}`GET` and {lit}`LPOP` pass on the text of the store when they find
a value of another type, and the name of an unregistered command is repeated even
if it holds a line terminator.  {lit}`EXEC` collects the replies of its commands, so
it is affected as well.

{lit}`PSYNC`, which only the replication registry knows, replies with a line and a
file, so the requests that a replication handler takes up are left out.

Main results:

- Theorem {lit}`replies_complete`: all replies are complete, in every run without the
  two exceptions.
- Theorem {lit}`replies_incomplete`: the exceptions.
-/

namespace RedisClone

open RespValue

variable {env : Env}

/-! ## Replies of the dispatcher -/

/-- The name of the command in a request holds no line terminator. -/
def NamePlain (_ : HandlerId) (request : RespValue) : Prop :=
  ∀ cmd, parseCommand request = .ok cmd → NoCrlf cmd.name

/-- The error for a command that is not registered. -/
theorem isReply_unknownCommand {cmd : Command} (hname : NoCrlf cmd.name) :
    IsReply (Server.unknownCommand cmd) := by
  have hline : Server.unknownCommand cmd =
      45 :: ((ascii "ERR unknown command " ++ 39 :: (cmd.name ++ 39 :: [])) ++ crlf) := by
    simp [Server.unknownCommand, ascii, crlf]
  rw [hline]
  exact .line (by decide) (noCrlf_append_cons (by decide)
    (noCrlf_append_cons hname (by decide) (by decide) (by decide)) (by decide) (by decide))

/-- The replies of {lit}`handle`. -/
theorem isReply_handle {s s' : Server} {h : HandlerId} {request : RespValue} {number : Nat}
    {onReply : OnReply} {response : Bytes} (hname : NamePlain h request)
    (hhandle : s.handle h request number = (s', .ok [.reply onReply response])) :
    IsReply response := by
  unfold Server.handle at hhandle
  split at hhandle
  · cases hhandle
    exact IsLine.isReply (by decide +kernel)
  · split at hhandle
    · cases hhandle
    · rename_i cmd hparse
      have hunknown := isReply_unknownCommand (hname cmd hparse)
      unfold Server.dispatch at hhandle
      split at hhandle
      · split at hhandle
        · split at hhandle
          · cases hhandle
            exact IsLine.isReply (by decide +kernel)
          · cases hhandle
        · cases hhandle
          exact hunknown
      · split at hhandle
        · cases hhandle
          exact IsLine.isReply (by decide +kernel)
        · split at hhandle
          · cases hhandle
          · cases hhandle
            exact hunknown

/-- The replies of the commands on transactions. -/
theorem isReply_transacts {h : HandlerId} {tm : TransactionManager}
    {watches : WatchManager HandlerId} {cmd : Command}
    {change : TransactionManager × WatchManager HandlerId} {response : Bytes}
    (hchange : Transacts h tm watches cmd change response) : IsReply response := by
  have hok : IsReply (ascii "+OK\r\n") := IsLine.isReply (by decide)
  cases hchange with
  | begins | discards | watches | unwatches => exact hok
  | aborts => exact .nullArray
  | empties =>
      have hempty : IsReply (arrayHeader ([] : List Bytes).length ++ ([] : List Bytes).flatten) :=
        .array (by simp)
      have hzero : arrayHeader 0 = ascii "*0\r\n" := by decide +kernel
      simpa [hzero] using hempty

/-- The replies of the other commands of the client registry. -/
theorem isReply_executeOther {s : Server} {h : HandlerId} {cmd : Command} {onReply : OnReply}
    {response : Bytes} (hname : NoCrlf cmd.name) (hfind : findCommand .client cmd.type = true)
    (hother : (s.executeOther env h cmd onReply).2 = [.reply onReply response]) :
    IsReply response := by
  unfold Server.executeOther at hother
  split at hother
  · cases hother
    exact IsLine.isReply (by decide)
  · unfold Server.executeExec at hother
    split at hother
    · cases hother
      exact IsLine.isReply (by decide +kernel)
    · split at hother
      · cases hother
        exact .nullArray
      · simp only at hother
        split at hother
        · cases hother
          have hzero : arrayHeader 0 = ascii "*0\r\n" := by decide +kernel
          rw [← hzero]
          exact @IsReply.array [] (by simp)
        · cases hother
  · unfold Server.executeDiscard at hother
    split at hother
    · cases hother
      exact IsLine.isReply (by decide +kernel)
    · cases hother
      exact IsLine.isReply (by decide)
  · unfold Server.executeWatch at hother
    split at hother
    · cases hother
      exact IsLine.isReply (by decide +kernel)
    · split at hother
      · rename_i err hargs
        unfold checkArgs at hargs
        split at hargs <;> cases hargs
        cases hother
        exact isReply_arguments hname
      · cases hother
        exact IsLine.isReply (by decide)
  · unfold Server.executeUnwatch at hother
    split at hother
    · cases hother
      exact isReply_arguments hname
    · cases hother
      exact IsLine.isReply (by decide)
  · unfold Server.executeWait at hother
    split at hother
    · rename_i response' hwait
      cases hother
      unfold waitExecute at hwait
      split at hwait
      · split at hwait
        · split at hwait
          · cases hwait
            exact IsLine.isReply (by decide)
          · split at hwait <;> cases hwait
        · cases hwait
          exact IsLine.isReply (by decide +kernel)
      · cases hwait
        exact IsLine.isReply (by decide +kernel)
    · cases hother
      exact isReply_count _
    · cases hother
  · cases hother
    exact isReply_info _ _ _ _
  · rename_i htype
    simp [htype, findCommand] at hfind
  · rename_i htype
    simp [htype, findCommand] at hfind
  · cases hother
    exact isReply_unknownCommand hname

/-! ## What is on the way -/

/-- A replication handler took up the request. -/
def TraceEntry.byReplication (number : Nat) : TraceEntry → Bool
  | .handled number' (.replication _) _ => number' = number
  | _ => false

/-- The callback of a request that a replication handler took up. -/
def OnReply.OfReplication (trace : List TraceEntry) : OnReply → Prop
  | .connection number => ∃ entry ∈ trace, entry.byReplication number = true
  | _ => False

instance (trace : List TraceEntry) : (onReply : OnReply) → Decidable (onReply.OfReplication trace)
  | .connection number =>
      inferInstanceAs (Decidable (∃ entry ∈ trace, entry.byReplication number = true))
  | .discard | .propagating _ _ | .exec _ _ _ => .isFalse id

/-- A reply that is to be passed on is complete, and a command is executed from the
registry of its handler. -/
def Task.Formed (trace : List TraceEntry) : Task → Prop
  | .reply onReply response => IsReply response ∨ onReply.OfReplication trace
  | .execute h _ cmd onReply =>
      findCommand h.kind cmd.type = true ∧
        (h.kind = .replication → onReply.OfReplication trace)
  | _ => True

/-- The results of an {lit}`EXEC` so far are complete. -/
structure ExecContext.Formed (c : ExecContext) : Prop where
  client : c.handler.kind = .client
  length_eq : c.results.length = c.commands.length
  complete : ∀ r ∈ c.results.take c.index, IsReply r

/-- A longer history. -/
theorem OnReply.OfReplication.mono {trace trace' : List TraceEntry} {onReply : OnReply}
    (h : onReply.OfReplication trace) (hsub : trace ⊆ trace') : onReply.OfReplication trace' := by
  cases onReply with
  | connection number =>
      rcases h with ⟨entry, hmem, hentry⟩
      exact ⟨entry, hsub hmem, hentry⟩
  | _ => exact h

/-- A longer history. -/
theorem Task.Formed.mono {trace trace' : List TraceEntry} {task : Task} (h : task.Formed trace)
    (hsub : trace ⊆ trace') : task.Formed trace' := by
  cases task with
  | reply onReply response => exact h.imp_right fun hof => hof.mono hsub
  | execute handler request cmd onReply => exact ⟨h.1, fun hkind => (h.2 hkind).mono hsub⟩
  | _ => trivial

/-- The callback of a handler belongs to the request it takes up. -/
theorem ofReplication_handled {s : Server} {h : HandlerId} (request : RespValue) (number : Nat)
    (hkind : h.kind = .replication) :
    (h.onReply number).OfReplication (s.record (.handled number h request)).trace := by
  cases h with
  | client connection => cases hkind
  | session => cases hkind
  | replication connection =>
      exact ⟨_, List.mem_append_right _ List.mem_cons_self, by simp [TraceEntry.byReplication]⟩

/-- One more result of an {lit}`EXEC`. -/
theorem ExecContext.Formed.collect {c : ExecContext} (h : c.Formed)
    (hindex : c.index < c.results.length) {response : Bytes} (hresponse : IsReply response) :
    ({ c with index := c.index + 1, results := c.results.set c.index response } :
      ExecContext).Formed := by
  refine ⟨h.client, by simpa using h.length_eq, ?_⟩
  have htake : (c.results.set c.index response).take (c.index + 1) =
      c.results.take c.index ++ [response] := by
    rw [List.take_add_one, List.getElem?_set_self hindex, List.take_set,
      List.set_eq_of_length_le (by simp)]
    rfl
  intro r hr
  rw [htake] at hr
  rcases List.mem_append.mp hr with hold | hnew
  · exact h.complete r hold
  · rw [List.mem_singleton.mp hnew]
    exact hresponse

/-- A command on the keyspace finds a value of another type. -/
def Task.FindsOtherType (env : Env) (s : Server) : Task → Prop
  | .execute _ _ cmd _ => RedisClone.FindsOtherType cmd (env.reading s.readings) s.data
  | _ => False

/-- Every running {lit}`EXEC` has complete results. -/
def ContextsFormed (s : Server) : Prop :=
  ∀ c ∈ s.contexts, c.Formed

/-- A context moves on. -/
theorem ContextsFormed.setContext {s : Server} (h : ContextsFormed s) (context : Nat)
    {c : ExecContext} (hc : c.Formed) : ContextsFormed (s.setContext context c) := by
  intro c' hmem
  rcases List.mem_or_eq_of_mem_set hmem with hold | rfl
  · exact h c' hold
  · exact hc

section Acts

variable {s s' : Server} {task : Task}

/-- The tasks behind a command on the keyspace. -/
theorem formed_settle {trace : List TraceEntry} {onReply : OnReply} {outcome : Outcome}
    (houtcome : outcome.Formed) {task : Task} (hmem : task ∈ (s.settle onReply outcome).2) :
    task.Formed trace := by
  cases outcome with
  | answer a =>
      simp only [Server.settle, List.mem_append, List.mem_cons] at hmem
      rcases hmem with hmem | rfl | hmem
      · unfold Server.wakeTasks at hmem
        split at hmem <;> simp at hmem <;> subst hmem <;> trivial
      · exact Or.inl houtcome
      · split at hmem <;> simp at hmem
        subst hmem
        trivial
  | blockBlpop keys timeout => simp [Server.settle] at hmem
  | blockXread streams timeout => simp [Server.settle] at hmem

/-- What a task does to running {lit}`EXEC` commands. -/
theorem contextsFormed_acts {r : Except Exception (List Task)} (hs : s.From NamePlain)
    (hcontexts : ContextsFormed s) (htask : task.Formed s.trace) (hacts : Acts env s task s' r) :
    ContextsFormed s' := by
  cases hacts with
  | ran hbody hresult =>
      intro c hmem
      rw [settle_contexts] at hmem
      exact hcontexts c hmem
  | @started h request cmd onReply htype hactive hclean hqueue =>
      intro c hmem
      rcases List.mem_append.mp hmem with hold | hnew
      · exact hcontexts c hold
      · rw [List.mem_singleton.mp hnew]
        have hfind := htask.1
        refine ⟨?_, by simp, by simp⟩
        cases hkind : h.kind with
        | client => rfl
        | replication => simp [hkind, htype, findCommand] at hfind
  | @collected context c hcontext hindex type request response =>
      have hresponse : IsReply response := htask.resolve_right id
      have hset := hcontexts.setContext context
        ((hcontexts c (List.mem_of_getElem? hcontext)).collect hindex hresponse)
      split
      · exact hset
      · exact hset
  | @skipped context c request cmd hcontext hrequest hparse hfind =>
      have hmem := List.mem_of_getElem? hcontext
      have hname : NoCrlf cmd.name :=
        ((hs.contexts c hmem).2 request (List.mem_of_getElem? hrequest)).1.1 cmd hparse
      have hindex : c.index < c.results.length := by
        rw [(hcontexts c hmem).length_eq]
        exact (List.getElem?_eq_some_iff.mp hrequest).1
      exact hcontexts.setContext context
        ((hcontexts c hmem).collect hindex (isReply_unknownCommand hname))
  | _ => exact hcontexts

/-- The tasks that a task calls pass on complete replies. -/
theorem formed_acts {new : List Task} (hcontexts : ContextsFormed s)
    (hfrom : task.From NamePlain) (htask : task.Formed s.trace)
    (hother : ¬ task.FindsOtherType env s) (hacts : Acts env s task s' (.ok new)) :
    ∀ task' ∈ new, task'.Formed s'.trace := by
  intro task' hmem
  cases hacts with
  | rejected h request number hhandle =>
      rw [List.mem_singleton.mp hmem]
      exact Or.inl (isReply_handle hfrom hhandle)
  | queued number hformat hparse htype hactive =>
      rw [List.mem_singleton.mp hmem]
      exact Or.inl (IsLine.isReply (by decide +kernel))
  | controls number hformat hparse htype hfind =>
      rw [List.mem_singleton.mp hmem]
      exact ⟨hfind, ofReplication_handled _ number⟩
  | @dispatched h request cmd number hformat hparse htype hidle hfind =>
      rw [List.mem_singleton.mp hmem]
      refine ⟨hfind, fun hkind => ?_⟩
      have hwrite : isWriteCommand cmd.type = false := by
        rw [hkind] at hfind
        revert hfind
        cases cmd.type <;> decide
      simp only [Server.directReply, hwrite, Bool.false_eq_true, and_false, if_false]
      exact ofReplication_handled request number hkind
  | @ran h request cmd onReply body d outcome hbody hresult =>
      have hreplied := wellReplied_of_dataCommand hbody (hfrom.1.1 cmd hfrom.2.1) hother
      exact formed_settle (hreplied.formed outcome (by rw [hresult])) hmem
  | @answered h request cmd onReply hbody hrefused response hresponse =>
      rw [List.mem_singleton.mp hmem]
      cases hkind : h.kind with
      | client =>
          have hfind := htask.1
          rw [hkind] at hfind
          exact Or.inl (isReply_executeOther (hfrom.1.1 cmd hfrom.2.1) hfind hresponse)
      | replication => exact Or.inr ((htask.2 hkind).mono (by simp))
  | transacted hchange =>
      rw [List.mem_singleton.mp hmem]
      exact Or.inl (isReply_transacts hchange)
  | served hwaiters hpop =>
      simp only [List.mem_cons, List.not_mem_nil, or_false] at hmem
      rcases hmem with rfl | rfl
      · exact Or.inl (isReply_pop _ _)
      · trivial
  | copied key =>
      rcases List.mem_map.mp hmem with ⟨registration, -, rfl⟩
      trivial
  | woke hread =>
      rw [List.mem_singleton.mp hmem]
      exact Or.inl (isReply_formatStreamEntries _)
  | @finished context c hcontext hindex =>
      rw [List.mem_singleton.mp hmem]
      have hc := hcontexts c (List.mem_of_getElem? hcontext)
      have hall : c.results.take c.index = c.results := by
        rw [hindex, ← hc.length_eq, List.take_length]
      refine Or.inl (IsReply.array ?_)
      rw [← hall]
      exact hc.complete
  | next hcontext hrequest hparse hfind =>
      rw [List.mem_singleton.mp hmem]
      refine ⟨hfind, fun hkind => ?_⟩
      rw [(hcontexts _ (List.mem_of_getElem? hcontext)).client] at hkind
      cases hkind
  | counted hwait hpoll =>
      rw [List.mem_singleton.mp hmem]
      exact Or.inl (isReply_count _)
  | written | dropped | propagated | passed | unawaited | unserved | waits | unknownWait =>
      simp at hmem
  | _ =>
      rw [List.mem_singleton.mp hmem]
      trivial

/-- The text of an exception that a task throws is one line. -/
theorem plainError_acts {r : Except Exception (List Task)} (hfrom : task.From NamePlain)
    (hother : ¬ task.FindsOtherType env s) (hacts : Acts env s task s' r) : PlainError r := by
  cases hacts with
  | @threw h request cmd onReply body d e hbody hresult =>
      have hreplied := wellReplied_of_dataCommand hbody (hfrom.1.1 cmd hfrom.2.1) hother
      exact plainError_error (hreplied.plain e (by rw [hresult]))
  | overrun => exact plainError_error (noCrlf_rangeCheck _ _)
  | wokeThrew hread => exact plainError_error (s.data.plainError_xread _ _ hread)
  | stuck => exact plainError_error (noCrlf_rangeCheck _ _)
  | _ => exact plainError_ok _

end Acts

/-! ## Runs -/

/-- All replies on the way, and all that were written, are complete. -/
structure RepliesFormed (t : StoreThread) : Prop where
  requests : t.From NamePlain
  contexts : ContextsFormed t.server
  stack : ∀ task ∈ t.stack, task.Formed t.server.trace
  replied : ∀ number response, .replied number response ∈ t.server.trace →
    IsReply response ∨ (OnReply.connection number).OfReplication t.server.trace

/-- No {lit}`GET` or {lit}`LPOP` finds a value of another type. -/
def FindsItsType (env : Env) (t : StoreThread) : Event → Prop
  | .tick => ∀ task ∈ t.stack.head?, ¬ task.FindsOtherType env t.server
  | _ => True

/-- What a task writes is complete. -/
theorem replied_acts {s s' : Server} {task : Task} {r : Except Exception (List Task)}
    (htask : task.Formed s.trace) (hacts : Acts env s task s' r) {number : Nat} {response : Bytes}
    (hmem : .replied number response ∈ s'.trace) :
    .replied number response ∈ s.trace ∨ IsReply response ∨
      (OnReply.connection number).OfReplication s.trace := by
  cases hacts with
  | written number' response' =>
      simp only [Server.record_trace, List.mem_append, List.mem_singleton,
        TraceEntry.replied.injEq] at hmem
      rcases hmem with hold | ⟨rfl, rfl⟩
      · exact Or.inl hold
      · exact Or.inr htask
  | propagated number' raw response' =>
      simp only [Server.propagate_trace, Server.record_trace, List.mem_append, List.mem_singleton,
        TraceEntry.replied.injEq, reduceCtorEq, or_false] at hmem
      rcases hmem with hold | ⟨rfl, rfl⟩
      · exact Or.inl hold
      · exact Or.inr (Or.inl (htask.resolve_right id))
  | ran hbody hresult => exact Or.inl (by simpa using hmem)
  | polls htype wait => exact Or.inl (by simpa using hmem)
  | collected hcontext hindex type request response' =>
      left
      split at hmem
      · simpa using hmem
      · exact hmem
  | rejected | queued | controls | dispatched | answered | transacted | started =>
      exact Or.inl (by simpa using hmem)
  | _ => exact Or.inl hmem

/-- Every event keeps replies complete. -/
theorem repliesFormed_step {t t' : StoreThread} {event : Event} (ht : RepliesFormed t)
    (hevent : event.From NamePlain ∧ FindsItsType env t event)
    (hstep : t.step env event = some t') : RepliesFormed t' := by
  rcases ht with ⟨hrequests, hcontexts, hstack, hreplied⟩
  have hrequests' := from_step hrequests hevent.1 hstep
  have hwritten : ∀ {s s' : Server} {task : Task} {r : Except Exception (List Task)},
      task.Formed s.trace → Acts env s task s' r →
      (∀ number response, .replied number response ∈ s.trace →
        IsReply response ∨ (OnReply.connection number).OfReplication s.trace) →
      ∀ number response, .replied number response ∈ s'.trace →
        IsReply response ∨ (OnReply.connection number).OfReplication s'.trace := by
    intro s s' task r htask hacts hold number response hmem
    rcases replied_acts htask hacts hmem with hbefore | hreply | hof
    · exact (hold number response hbefore).imp_right fun hof => hof.mono (trace_subset_acts hacts)
    · exact Or.inl hreply
    · exact Or.inr (hof.mono (trace_subset_acts hacts))
  cases moves_of_step hstep with
  | request s handler request => exact ⟨hrequests', hcontexts, by simp [Task.Formed], hreplied⟩
  | idle s => exact ⟨hrequests', hcontexts, hstack, hreplied⟩
  | calls stack hact =>
      have hacts := acts_of_act hact
      have htask := hstack _ List.mem_cons_self
      refine ⟨hrequests', contextsFormed_acts hrequests.server hcontexts htask hacts, ?_,
        hwritten htask hacts hreplied⟩
      intro task' hmem
      rcases List.mem_append.mp hmem with hnew | hold
      · exact formed_acts hcontexts (hrequests.stack _ List.mem_cons_self) htask (hevent.2 _ rfl)
          hacts task' hnew
      · exact (hstack task' (by simp [hold])).mono (trace_subset_acts hacts)
  | throws above onReply below hact =>
      have hacts := acts_of_act hact
      have htask := hstack _ List.mem_cons_self
      have hplain := plainError_acts (hrequests.stack _ List.mem_cons_self) (hevent.2 _ rfl) hacts
      refine ⟨hrequests', contextsFormed_acts hrequests.server hcontexts htask hacts, ?_,
        hwritten htask hacts hreplied⟩
      intro task' hmem
      rcases List.mem_cons.mp hmem with rfl | hold
      · exact Or.inl (isReply_exception (hplain _ rfl))
      · exact (hstack task' (by simp [hold])).mono (trace_subset_acts hacts)
  | expires stack htimer harmed => exact ⟨hrequests', hcontexts, hstack, hreplied⟩
  | @timeout s i timer htimer hqueued =>
      refine ⟨hrequests', ?_, ?_, ?_⟩
      · unfold ContextsFormed
        rw [onTimeout_contexts]
        exact hcontexts
      · intro task hmem
        rw [List.mem_singleton.mp hmem]
        exact Or.inl .nullArray
      · rw [onTimeout_trace]
        exact hreplied
  | poll hwait hactive => exact ⟨hrequests', hcontexts, by simp [Task.Formed], hreplied⟩
  | attach | detach | ack => exact ⟨hrequests', hcontexts, hstack, hreplied⟩

instance (h : HandlerId) (request : RespValue) : Decidable (NamePlain h request) :=
  match hparse : parseCommand request with
  | .ok cmd => decidable_of_iff (NoCrlf cmd.name) (by simp [NamePlain, hparse])
  | .error _ => .isTrue (by simp [NamePlain, hparse])

instance (cmd : Command) (now : Reading) (d : Store) : Decidable (FindsOtherType cmd now d) :=
  inferInstanceAs (Decidable (∃ v ∈ d (cmd.arg 0), _))

instance (env : Env) (s : Server) : (task : Task) → Decidable (task.FindsOtherType env s)
  | .execute _ _ cmd _ =>
      inferInstanceAs (Decidable (FindsOtherType cmd (env.reading s.readings) s.data))
  | .handle _ _ _ | .reply _ _ | .tryEnd _ | .serveBlpop _ | .serveXread _ | .wakeXread _
  | .runNext _ | .waitPoll _ => .isFalse id

instance (env : Env) (t : StoreThread) : (event : Event) → Decidable (FindsItsType env t event)
  | .tick => inferInstanceAs (Decidable (∀ task ∈ t.stack.head?, ¬ task.FindsOtherType env t.server))
  | .request _ _ | .expire _ | .timeout _ | .poll _ | .attach | .detach _ | .ack _ _ =>
      .isTrue trivial

/-- All replies are complete: in every run in which no unregistered command has a line
terminator in its name and no {lit}`GET` or {lit}`LPOP` finds a value of another type,
whatever is passed to {lit}`on_reply`, and whatever was written to a connection, is one
complete reply, except for the requests of replication handlers. -/
theorem replies_complete {registry : ReplicaRegistry} {events : List Event} {t : StoreThread}
    (hevents : ∀ event ∈ events, event.From NamePlain)
    (hsteps : Execution.Along (StoreThread.step env) (FindsItsType env) (.withReplicas registry)
      events)
    (hrun : StoreThread.run env (.withReplicas registry) events = some t) :
    (∀ onReply response, .reply onReply response ∈ t.stack →
      ¬ onReply.OfReplication t.server.trace → IsReply response) ∧
    (∀ number response, .replied number response ∈ t.server.trace →
      ¬ (OnReply.connection number).OfReplication t.server.trace → IsReply response) := by
  have hstart : RepliesFormed (.withReplicas registry) :=
    ⟨⟨from_initial.congr (fun _ => rfl) rfl, by simp⟩, by simp [ContextsFormed], by simp, by simp⟩
  have hformed : RepliesFormed t :=
    Execution.follow_invariant repliesFormed_step hstart
      ((Execution.along_of_forall hevents _).and hsteps) hrun
  constructor
  · intro onReply response hmem hclient
    exact (hformed.stack _ hmem).resolve_right hclient
  · intro number response hmem hclient
    exact (hformed.replied number response hmem).resolve_right hclient

/-- {lit}`EXEC` of a queue with {lit}`INCR a`, up to its reply. -/
def execIncr : List Event :=
  job 1 (.short (ascii "MULTI") [] (Eq.refl true)) 3 ++
    job 1 (.short (ascii "INCR") [ascii "a"] (Eq.refl true)) 2 ++
    job 1 (.short (ascii "EXEC") [] (Eq.refl true)) 6

/-- The reply of {lit}`EXEC` is complete. -/
theorem replies_complete_exec :
    ∃ t, StoreThread.run sampleEnv (.withReplicas .empty) execIncr = some t ∧
      t.stack = [.reply (.connection 2) (ascii "*1\r\n:1\r\n")] ∧ IsReply (ascii "*1\r\n:1\r\n") := by
  have hrun : (StoreThread.run sampleEnv (.withReplicas .empty) execIncr).map
      (fun t => (t.stack, decide ((OnReply.connection 2).OfReplication t.server.trace))) =
      some ([.reply (.connection 2) (ascii "*1\r\n:1\r\n")], false) := by
    decide +kernel
  rcases Option.map_eq_some_iff.mp hrun with ⟨t, ht, hfacts⟩
  simp only [Prod.mk.injEq, decide_eq_false_iff_not] at hfacts
  have hcomplete := (replies_complete (by decide +kernel) (by decide +kernel) ht).1
  refine ⟨t, ht, hfacts.1, hcomplete (.connection 2) _ ?_ hfacts.2⟩
  rw [hfacts.1]
  exact List.mem_cons_self

/-- An error line holds no line terminator. -/
theorem noCrlf_of_isReply {text : Bytes} (h : IsReply (45 :: (text ++ crlf))) : NoCrlf text := by
  generalize hr : 45 :: (text ++ crlf) = r at h
  cases h with
  | @line kind text' hkind htext =>
      rw [List.append_cancel_right (List.cons.inj hr).2]
      exact htext
  | bulk text' => simp [bulkReply, ascii] at hr
  | nullBulk => simp [nullBulk, ascii] at hr
  | nullArray => simp [nullArray, ascii] at hr
  | array => simp [arrayHeader, ascii] at hr

/-- {lit}`GET` of a list. -/
def getOfList : List Event :=
  job 1 (.short (ascii "RPUSH") [ascii "k", ascii "x"] (Eq.refl true)) 4 ++
    job 1 (.short (ascii "GET") [ascii "k"] (Eq.refl true)) 2

/-- A command whose name has a line terminator in it. -/
def unknownLines : List Event :=
  job 1 (.short (ascii "a\r\nb") [] (Eq.refl true)) 1

/-- The error of {lit}`GET` on a list has no line terminator, and the error for an
unknown command may be two lines. -/
theorem replies_incomplete :
    (∃ t response, StoreThread.run sampleEnv (.withReplicas .empty) getOfList = some t ∧
      t.stack = [.reply (.connection 1) response] ∧ ¬ IsReply response) ∧
    (∃ t response, StoreThread.run sampleEnv (.withReplicas .empty) unknownLines = some t ∧
      t.stack = [.reply (.connection 0) response] ∧ ¬ IsReply response) := by
  constructor
  · have hrun : (StoreThread.run sampleEnv (.withReplicas .empty) getOfList).map
        StoreThread.stack = some [.reply (.connection 1) Store.wrongType] := by
      decide +kernel
    rcases Option.map_eq_some_iff.mp hrun with ⟨t, ht, hstack⟩
    refine ⟨t, _, ht, hstack, fun hreply => ?_⟩
    exact absurd hreply.suffix (by decide +kernel)
  · have hrun : (StoreThread.run sampleEnv (.withReplicas .empty) unknownLines).map
        StoreThread.stack = some [.reply (.connection 0)
          (45 :: (ascii "ERR unknown command 'a\r\nb'" ++ crlf))] := by
      decide +kernel
    rcases Option.map_eq_some_iff.mp hrun with ⟨t, ht, hstack⟩
    refine ⟨t, _, ht, hstack, fun hreply => ?_⟩
    exact absurd (noCrlf_of_isReply hreply) (by decide +kernel)

end RedisClone
