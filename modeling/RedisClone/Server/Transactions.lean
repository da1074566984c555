import RedisClone.Server.Callbacks

/-!
# Transactions before {lit}`EXEC`

Between {lit}`MULTI` and {lit}`EXEC` the dispatcher queues commands and hands
{lit}`MULTI`, {lit}`WATCH`, {lit}`UNWATCH` and {lit}`DISCARD` to their
implementations.  None of this reaches the keyspace, the blocked clients or the
replicas.

Main results:

- Theorem {lit}`untouched_acts`: a task for a request inside a transaction leaves
  them alone.
- Theorem {lit}`transaction_inert_before_exec`: so does every sequence of requests,
  and {lit}`DISCARD` makes the transaction that of a new connection.
-/

namespace RedisClone

open RespValue

variable {env : Env} {h : HandlerId}

/-! ## Requests inside a transaction -/

/-- The keyspace, the blocked clients and the replicas are the same. -/
structure Untouched (s s' : Server) : Prop where
  data : s'.data = s.data
  blpop : s'.blpop = s.blpop
  xread : s'.xread = s.xread
  replicas : s'.replicas = s.replicas

theorem Untouched.refl (s : Server) : Untouched s s :=
  ⟨rfl, rfl, rfl, rfl⟩

theorem Untouched.trans {s s' s'' : Server} (hfirst : Untouched s s') (hsecond : Untouched s' s'') :
    Untouched s s'' :=
  ⟨hsecond.data.trans hfirst.data, hsecond.blpop.trans hfirst.blpop,
    hsecond.xread.trans hfirst.xread, hsecond.replicas.trans hfirst.replicas⟩

/-- A request other than {lit}`EXEC` that the handler is given inside a transaction, or
a step of the store thread. -/
def InsideTransaction (h : HandlerId) (t : StoreThread) : Event → Prop
  | .request handler request =>
      handler = h ∧ (t.server.transactions h).inTransaction = true ∧
        ∀ cmd, parseCommand request.value = .ok cmd → cmd.type ≠ .exec
  | .tick => True
  | _ => False

instance (h : HandlerId) (t : StoreThread) : (event : Event) → Decidable (InsideTransaction h t event)
  | .request handler request =>
      match hparse : parseCommand request.value with
      | .ok cmd => decidable_of_iff
          (handler = h ∧ (t.server.transactions h).inTransaction = true ∧ cmd.type ≠ .exec)
          (by simp [InsideTransaction, hparse])
      | .error e => decidable_of_iff
          (handler = h ∧ (t.server.transactions h).inTransaction = true)
          (by simp [InsideTransaction, hparse])
  | .tick => .isTrue trivial
  | .expire _ | .timeout _ | .poll _ | .attach | .detach _ | .ack _ _ => .isFalse id

/-- The task belongs to such a request. -/
def Task.Inert (h : HandlerId) (s : Server) : Task → Prop
  | .handle handler request _ =>
      handler = h ∧ (s.transactions h).inTransaction = true ∧
        ∀ cmd, parseCommand request = .ok cmd → cmd.type ≠ .exec
  | .execute handler _ cmd onReply =>
      handler = h ∧ Server.isTransactionCommand cmd.type = true ∧ cmd.type ≠ .exec ∧
        ∃ number, onReply = h.onReply number
  | .reply onReply _ => ∃ number, onReply = h.onReply number
  | _ => False

/-- The handler's own callback writes to the connection, or is empty. -/
theorem onReply_cases (h : HandlerId) (number : Nat) :
    h.onReply number = .connection number ∨ h.onReply number = .discard := by
  unfold HandlerId.onReply
  split
  · exact Or.inr rfl
  · exact Or.inl rfl

/-- A task for a request inside a transaction leaves the keyspace, the blocked clients
and the replicas alone, throws nothing, and calls at most one such task. -/
theorem untouched_acts {s s' : Server} {task : Task} {r : Except Exception (List Task)}
    (htask : task.Inert h s) (hacts : Acts env s task s' r) :
    Untouched s s' ∧ ∃ new, r = .ok new ∧ (new = [] ∨ ∃ task', new = [task'] ∧ task'.Inert h s') := by
  cases hacts with
  | @rejected handler request number response hhandle =>
      rcases htask with ⟨rfl, -⟩
      exact ⟨⟨rfl, rfl, rfl, rfl⟩, _, rfl, Or.inr ⟨_, rfl, number, rfl⟩⟩
  | @queued handler request cmd number hformat hparse htype hactive =>
      rcases htask with ⟨rfl, -⟩
      exact ⟨⟨rfl, rfl, rfl, rfl⟩, _, rfl, Or.inr ⟨_, rfl, number, rfl⟩⟩
  | controls number hformat hparse htype hfind =>
      rcases htask with ⟨rfl, -, hexec⟩
      exact ⟨⟨rfl, rfl, rfl, rfl⟩, _, rfl, Or.inr ⟨_, rfl, rfl, htype, hexec _ hparse, number, rfl⟩⟩
  | dispatched number hformat hparse htype hidle =>
      rcases htask with ⟨rfl, hactive, -⟩
      rw [hidle] at hactive
      contradiction
  | threw hbody | ran hbody =>
      rw [dataCommand_of_controls htask.2.1] at hbody
      contradiction
  | answered => exact ⟨⟨rfl, rfl, rfl, rfl⟩, _, rfl, Or.inr ⟨_, rfl, htask.2.2.2⟩⟩
  | transacted => exact ⟨⟨rfl, rfl, rfl, rfl⟩, _, rfl, Or.inr ⟨_, rfl, htask.2.2.2⟩⟩
  | started htype => exact absurd htype htask.2.2.1
  | polls htype wait =>
      have hcontrols := htask.2.1
      rw [htype] at hcontrols
      contradiction
  | written => exact ⟨⟨rfl, rfl, rfl, rfl⟩, _, rfl, Or.inl rfl⟩
  | dropped => exact ⟨⟨rfl, rfl, rfl, rfl⟩, _, rfl, Or.inl rfl⟩
  | propagated number raw =>
      rcases htask with ⟨number', heq⟩
      rcases onReply_cases h number' with hcase | hcase <;> rw [hcase] at heq <;> contradiction
  | collected | overrun =>
      rcases htask with ⟨number', heq⟩
      rcases onReply_cases h number' with hcase | hcase <;> rw [hcase] at heq <;> contradiction
  | passed | served | unawaited | unserved | copied | woke | wokeThrew | finished | next | skipped
  | stuck | counted | waits | unknownWait => exact htask.elim

/-- At most one task is left, and it is for a request inside the transaction. -/
def StoreThread.Inert (h : HandlerId) (t : StoreThread) : Prop :=
  t.stack = [] ∨ ∃ task, t.stack = [task] ∧ task.Inert h t.server

/-- One event. -/
theorem untouched_step {t t' : StoreThread} {event : Event} (ht : t.Inert h)
    (hevent : InsideTransaction h t event) (hstep : t.step env event = some t') :
    Untouched t.server t'.server ∧ t'.Inert h := by
  cases moves_of_step hstep with
  | request s handler request => exact ⟨⟨rfl, rfl, rfl, rfl⟩, Or.inr ⟨_, rfl, hevent⟩⟩
  | idle s => exact ⟨.refl _, Or.inl rfl⟩
  | calls stack hact =>
      rcases ht with hnil | ⟨task, hsingle, htask⟩
      · contradiction
      · cases hsingle
        rcases untouched_acts htask (acts_of_act hact) with ⟨hsame, new, hnew, hnext⟩
        cases hnew
        rw [List.append_nil] at hstep ⊢
        exact ⟨hsame, hnext⟩
  | throws above onReply below hact =>
      rcases ht with hnil | ⟨task, hsingle, htask⟩
      · contradiction
      · simp at hsingle
  | _ => exact hevent.elim

/-! ## {lit}`DISCARD` -/

/-- The handler is given {lit}`DISCARD` inside a transaction. -/
inductive Discarding (h : HandlerId) : StoreThread → Prop
  | asked {s : Server} {request : RespValue} {cmd : Command} (number : Nat)
      (hactive : (s.transactions h).inTransaction = true) (hformat : request.type = .array)
      (hparse : parseCommand request = .ok cmd) (htype : cmd.type = .discard) :
      Discarding h ⟨s, [.handle h request number]⟩
  | runs {s : Server} (request : RespValue) {cmd : Command} (number : Nat)
      (hactive : (s.transactions h).inTransaction = true) (htype : cmd.type = .discard) :
      Discarding h ⟨s, [.execute h request cmd (h.onReply number)]⟩
  | answers {s : Server} (number : Nat) (response : Bytes) (hfresh : s.transactions h = .fresh) :
      Discarding h ⟨s, [.reply (h.onReply number) response]⟩
  | done {s : Server} (hfresh : s.transactions h = .fresh) : Discarding h ⟨s, []⟩

/-- A step of {lit}`DISCARD`. -/
theorem discarding_tick {t t' : StoreThread} (hkind : h.kind = .client) (ht : Discarding h t)
    (hstep : t.step env .tick = some t') : Discarding h t' := by
  cases ht with
  | @asked s request cmd number hactive hformat hparse htype =>
      have helements : request.elements ≠ [] := by
        intro hnil
        simp [parseCommand, hnil] at hparse
      have hact : s.act env (.handle h request number) =
          (s.record (.handled number h request), .ok [.execute h request cmd (h.onReply number)]) := by
        simp [Server.act, Server.handle, hformat, helements, hparse, Server.dispatch, htype,
          Server.isTransactionCommand, findCommand, hkind]
      rw [step_tick hact] at hstep
      cases hstep
      exact .runs request number hactive htype
  | @runs s request cmd number hactive htype =>
      have hact : s.act env (.execute h request cmd (h.onReply number)) =
          ((s.record (.executed h cmd.type request)).setTransaction h
            ((s.transactions h).reset s.watches),
            .ok [.reply (h.onReply number) (ascii "+OK\r\n")]) := by
        simp [Server.act, Server.execute, htype, dataCommand, Server.executeOther,
          Server.executeDiscard, hactive]
      rw [step_tick hact] at hstep
      cases hstep
      exact .answers number _ (Function.update_self ..)
  | @answers s number response hfresh =>
      rcases onReply_cases h number with heq | heq <;> rw [heq] at hstep
      · cases hstep
        exact .done hfresh
      · cases hstep
        exact .done hfresh
  | done hfresh =>
      cases hstep
      exact .done hfresh

/-- The steps of {lit}`DISCARD`. -/
theorem discarding_ticks {t t' : StoreThread} {n : Nat} (hkind : h.kind = .client)
    (ht : Discarding h t) (hrun : t.run env (List.replicate n .tick) = some t') :
    Discarding h t' := by
  refine @Execution.follow_invariant _ _ _ (Discarding h) (fun _ event => event = .tick)
    (fun hu hevent hstep => ?_) _ _ _ ht (Execution.along_of_forall (fun event hmem => ?_) t) hrun
  · subst hevent
    exact discarding_tick hkind hu hstep
  · exact List.eq_of_mem_replicate hmem

/-- Whatever a connection sends inside a transaction ahead of {lit}`EXEC`, the keyspace,
the blocked clients and the replicas, with the offset of the master, stay what they
are; and {lit}`DISCARD` leaves the transaction of a new connection. -/
theorem transaction_inert_before_exec {t t' : StoreThread} {events : List Event}
    (hidle : t.Idle) (hevents : Execution.Along (StoreThread.step env) (InsideTransaction h) t events)
    (hrun : t.run env events = some t') :
    Untouched t.server t'.server ∧
      ∀ request cmd n t'', t'.Idle → (t'.server.transactions h).inTransaction = true →
        h.kind = .client → request.value.type = .array → parseCommand request.value = .ok cmd →
        cmd.type = .discard →
        t'.run env (.request h request :: List.replicate n .tick) = some t'' → t''.Idle →
        Untouched t.server t''.server ∧ t''.server.transactions h = .fresh := by
  have hinert : ∀ {u u' : StoreThread} {es : List Event}, u.Idle →
      Execution.Along (StoreThread.step env) (InsideTransaction h) u es → u.run env es = some u' →
      Untouched u.server u'.server := by
    intro u u' es hu hes hrun
    have hstart : Untouched u.server u.server ∧ u.Inert h := ⟨.refl _, Or.inl hu⟩
    have hinv := @Execution.follow_invariant _ _ _
      (fun v => Untouched u.server v.server ∧ v.Inert h) _
      (fun {v v' event} hv hevent hstep => ?_) _ _ _ hstart hes hrun
    · exact hinv.1
    · rcases untouched_step hv.2 hevent hstep with ⟨hsame, hnext⟩
      exact ⟨hv.1.trans hsame, hnext⟩
  refine ⟨hinert hidle hevents hrun, ?_⟩
  intro request cmd n t'' hidle' hactive hkind hformat hparse htype hdiscard hdone
  have hinside : Execution.Along (StoreThread.step env) (InsideTransaction h) t'
      (.request h request :: List.replicate n .tick) := by
    refine ⟨⟨rfl, hactive, fun cmd' hparse' => ?_⟩, fun u _ => ?_⟩
    · rw [hparse] at hparse'
      cases hparse'
      rw [htype]
      decide
    · have hticks : ∀ n u, Execution.Along (StoreThread.step env) (InsideTransaction h) u
          (List.replicate n .tick) := by
        intro n
        induction n with
        | zero => exact fun u => trivial
        | succ n ih => exact fun u => ⟨trivial, fun u' _ => ih u'⟩
      exact hticks n u
  refine ⟨(hinert hidle hevents hrun).trans (hinert hidle' hinside hdiscard), ?_⟩
  rcases Execution.follow_cons hdiscard with ⟨u, hstep, hticks⟩
  have hasked : Discarding h u := by
    cases moves_of_step hstep with
    | request s handler request => exact .asked _ hactive hformat hparse htype
  cases discarding_ticks hkind hasked hticks with
  | done hfresh => exact hfresh
  | asked | runs | answers => cases hdone

/-- {lit}`MULTI`. -/
def multiJob : List Event :=
  job 0 (.short (ascii "MULTI") [] (Eq.refl true)) 3

/-- {lit}`SET k v`, a nested {lit}`MULTI`, {lit}`BLPOP k 0` and {lit}`UNWATCH`. -/
def queuedJobs : List Event :=
  job 0 (.short (ascii "SET") [ascii "k", ascii "v"] (Eq.refl true)) 2 ++
    job 0 (.short (ascii "MULTI") [] (Eq.refl true)) 2 ++
    job 0 (.short (ascii "BLPOP") [ascii "k", ascii "0"] (Eq.refl true)) 2 ++
    job 0 (.short (ascii "UNWATCH") [] (Eq.refl true)) 3

/-- They are queued or answered, and {lit}`DISCARD` drops them. -/
theorem transaction_inert_before_exec_discard :
    ∃ t t' t'', (StoreThread.withReplicas .empty).run sampleEnv multiJob = some t ∧
      t.run sampleEnv queuedJobs = some t' ∧
      t'.run sampleEnv (job 0 (.ofTexts (ascii "DISCARD") [] (by decide) (by decide)) 3) = some t'' ∧
      (t'.server.transactions (.client 0)).queuedCommands.length = 2 ∧
      Untouched t.server t''.server ∧ t''.server.transactions (.client 0) = .fresh := by
  have hfacts : ((StoreThread.withReplicas .empty).run sampleEnv multiJob).bind (fun t =>
      (t.run sampleEnv queuedJobs).bind fun t' =>
        (t'.run sampleEnv (job 0 (.ofTexts (ascii "DISCARD") [] (by decide) (by decide)) 3)).map
          fun t'' => (t.stack, t'.stack, t''.stack,
            (t'.server.transactions (.client 0)).queuedCommands.length,
            (t'.server.transactions (.client 0)).inTransaction,
            decide (Execution.Along (StoreThread.step sampleEnv) (InsideTransaction (.client 0)) t
              queuedJobs))) = some ([], [], [], 2, true, true) := by
    decide +kernel
  rcases Option.bind_eq_some_iff.mp hfacts with ⟨t, ht, hlater⟩
  rcases Option.bind_eq_some_iff.mp hlater with ⟨t', ht', hlast⟩
  rcases Option.map_eq_some_iff.mp hlast with ⟨t'', ht'', hvalues⟩
  simp only [Prod.mk.injEq, decide_eq_true_eq] at hvalues
  rcases hvalues with ⟨hidle, hidle', hidle'', hlength, hactive, hinside⟩
  refine ⟨t, t', t'', ht, ht', ht'', hlength, ?_⟩
  exact (transaction_inert_before_exec hidle hinside ht').2 _ ⟨.discard, ascii "DISCARD", []⟩ 3 t''
    hidle' hactive rfl rfl rfl rfl ht'' hidle''

end RedisClone
