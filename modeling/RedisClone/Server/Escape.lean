import RedisClone.Command.Exceptions
import RedisClone.Server.Discipline
import RedisClone.Server.Termination

/-!
# Exceptions that end the server

{lit}`CommandHandler::handle` and the handlers of timers have no {lit}`try` block, so an
exception of a command, of a callback or of {lit}`run_next` leaves
{lit}`store_ctx.run()` and ends the server.  A number that cannot be converted throws
in {lit}`SET`, {lit}`LRANGE`, {lit}`LPOP` and {lit}`BLPOP`; a negative component of a
stored identifier throws in {lit}`XREAD` and when a blocked {lit}`XREAD` is woken; and
a callback of {lit}`EXEC` that is called twice throws behind the last command.

Main results:

- Theorem {lit}`handlers_complete`: every handler runs to its end, unless it comes to
  a step of this kind.
- Theorem {lit}`set_ends_server`: {lit}`SET` with an expiry that is not a number ends
  the server.
-/

namespace RedisClone

variable {env : Env}

/-! ## Careful steps -/

/-- The numbers of the command can be converted, and it adds no negative component. -/
def Task.careful (env : Env) (s : Server) : Task → Prop
  | .execute _ _ cmd _ => NumbersParse cmd ∧ AddsReadable cmd (env.reading s.readings) s.data
  | _ => True

/-- The command is careful, no request is answered whose timer handler is queued, an
{lit}`XREAD` names each key once, and the waiters of a stream are not copied
while copies wait to be called. -/
def Careful (env : Env) (t : StoreThread) : Event → Prop
  | .tick =>
      (∀ task ∈ t.stack.head?, task.careful env t.server ∧ task.namesOnce ∧
        (task.copies = true → t.stack.filterMap Task.wakes = [])) ∧
      ∀ i ∈ answers t .tick, ∀ timer ∈ t.server.timers[i]?, timer.status ≠ .queued
  | _ => True

/-! ## Stored identifiers and cursors -/

/-- The waiters of streams, and those that are about to be called, have a property. -/
structure StreamWaiters (Q : XreadCallback → Prop) (t : StoreThread) : Prop where
  waiters : ∀ key, ∀ waiter ∈ t.server.xread.waiters key, Q waiter.2
  wakes : ∀ registration, .wakeXread registration ∈ t.stack → Q registration.2

/-- The cursors of blocked {lit}`XREAD`s can be parsed. -/
abbrev CursorsKept : StoreThread → Prop :=
  StreamWaiters fun callback => CursorsParse callback.streams

section Cursors

variable {Q : XreadCallback → Prop} {s s' : Server} {stack new : List Task} {task : Task}

theorem StreamWaiters.mono {Q' : XreadCallback → Prop} {t : StoreThread} (h : StreamWaiters Q t)
    (hmono : ∀ callback, Q callback → Q' callback) : StreamWaiters Q' t :=
  ⟨fun key waiter hmem => hmono _ (h.waiters key waiter hmem),
    fun registration hmem => hmono _ (h.wakes registration hmem)⟩

/-- The registry stays as it is, and no waiter is called. -/
theorem StreamWaiters.calls (h : StreamWaiters Q ⟨s, task :: stack⟩)
    (hxread : ∀ key, ∀ waiter ∈ s'.xread.waiters key, waiter ∈ s.xread.waiters key)
    (hnew : ∀ registration, .wakeXread registration ∈ new → Q registration.2) :
    StreamWaiters Q ⟨s', new ++ stack⟩ := by
  constructor
  · intro key waiter hmem
    exact h.waiters key waiter (hxread key waiter hmem)
  · intro registration hmem
    rcases List.mem_append.mp hmem with hmem | hmem
    · exact hnew registration hmem
    · exact h.wakes registration (List.mem_cons_of_mem _ hmem)

/-- A command on the keyspace. -/
theorem streamWaiters_settle {onReply : OnReply} {outcome : Outcome}
    (h : StreamWaiters Q ⟨s, task :: stack⟩)
    (hblock : ∀ streams timeout timer, outcome = .blockXread streams timeout →
      Q ⟨onReply, timer, streams⟩) :
    StreamWaiters Q ⟨(s.settle onReply outcome).1, (s.settle onReply outcome).2 ++ stack⟩ := by
  cases outcome with
  | answer a =>
      refine h.calls ?_ ?_
      · intro key waiter hmem
        simp only [Server.settle] at hmem
        split at hmem <;> exact hmem
      · intro registration hmem
        rcases mem_settle hmem with ⟨key, heq⟩ | ⟨key, heq⟩ | ⟨response, heq⟩ | heq <;>
          contradiction
  | blockBlpop keys timeout => exact h.calls (fun _ _ hmem => hmem) (by simp [Server.settle])
  | blockXread streams timeout =>
      constructor
      · intro key waiter hmem
        rcases BlockingRegistry.mem_waiters_of_register hmem with hmem | rfl
        · exact h.waiters key waiter hmem
        · exact hblock streams timeout _ rfl
      · intro registration hmem
        exact h.wakes registration (List.mem_cons_of_mem _ hmem)

/-- The waiter that a command leaves behind has the property. -/
def Task.MakesWaiter (env : Env) (Q : XreadCallback → Prop) (s : Server) : Task → Prop
  | .execute _ _ cmd onReply => ∀ body d streams timeout timer, dataCommand cmd.type = some body →
      body cmd (env.reading s.readings) s.data = (d, .ok (.blockXread streams timeout)) →
      Q ⟨onReply, timer, streams⟩
  | _ => True

/-- A task that does not throw. -/
theorem streamWaiters_calls (h : StreamWaiters Q ⟨s, task :: stack⟩)
    (hmade : task.MakesWaiter env Q s) (hacts : Acts env s task s' (.ok new)) :
    StreamWaiters Q ⟨s', new ++ stack⟩ := by
  cases hacts with
  | @ran handler request cmd onReply body d outcome hbody hresult =>
      refine @streamWaiters_settle Q ((s.withData d).record (.executed handler cmd.type request))
        stack (.execute handler request cmd onReply) onReply outcome ⟨h.waiters, h.wakes⟩ ?_
      rintro streams timeout timer rfl
      exact hmade body d streams timeout timer hbody hresult
  | copied key =>
      refine h.calls (fun _ _ hmem => hmem) ?_
      intro registration hmem
      rcases List.mem_map.mp hmem with ⟨waiter, hwaiter, heq⟩
      cases heq
      exact h.waiters key registration hwaiter
  | woke hread =>
      exact h.calls (fun _ _ hmem => BlockingRegistry.mem_waiters_of_unregister hmem) (by simp)
  | collected =>
      refine h.calls ?_ (by simp)
      intro key waiter hmem
      split at hmem <;> exact hmem
  | _ => exact h.calls (fun _ _ hmem => hmem) (by simp)

/-- Every event keeps the property, if the waiter that a command leaves behind has it. -/
theorem streamWaiters_step {t t' : StoreThread} {event : Event} (h : StreamWaiters Q t)
    (hmade : event = .tick → ∀ task ∈ t.stack.head?, task.MakesWaiter env Q t.server)
    (hstep : t.step env event = some t') : StreamWaiters Q t' := by
  cases moves_of_step hstep with
  | request s handler request => exact ⟨h.waiters, by simp⟩
  | calls stack hact => exact streamWaiters_calls h (hmade rfl _ rfl) (acts_of_act hact)
  | throws above onReply below hact =>
      constructor
      · intro key waiter hmem
        cases acts_of_act hact with
        | wokeThrew hread =>
            exact h.waiters key waiter (BlockingRegistry.mem_waiters_of_unregister hmem)
        | _ => exact h.waiters key waiter hmem
      · intro registration hmem
        have hbelow : .wakeXread registration ∈ below := by simpa using hmem
        exact h.wakes registration (by simp [hbelow])
  | @timeout s i timer htimer hqueued =>
      refine ⟨?_, by simp [StoreThread.onTimeout]⟩
      intro key waiter hmem
      unfold StoreThread.onTimeout at hmem
      simp only at hmem
      split at hmem
      · exact h.waiters key waiter hmem
      · exact h.waiters key waiter (BlockingRegistry.mem_waiters_of_unregister hmem)
  | poll hwait hactive => exact ⟨h.waiters, by simp⟩
  | _ => exact ⟨h.waiters, h.wakes⟩

/-- A command that blocks has parsed its cursors. -/
theorem cursorsKept_step {t t' : StoreThread} {event : Event} (h : CursorsKept t)
    (hstep : t.step env event = some t') : CursorsKept t' := by
  refine streamWaiters_step h (fun _ task _ => ?_) hstep
  cases task with
  | execute handler request cmd onReply =>
      intro body d streams timeout timer hbody hresult
      have hdata := @dataActs_of_dataCommand cmd (env.reading t.server.readings) t.server.data body
        hbody
      rw [hresult] at hdata
      cases hdata with
      | waits htype hread => exact cursorsParse_of_xread hread
  | _ => trivial

end Cursors

/-! ## States of careful runs -/

/-- What holds in every state of a careful run. -/
structure Sound (t : StoreThread) : Prop where
  noEmptyList : t.server.data.NoEmptyList
  readable : t.server.data.Readable
  cursors : CursorsKept t
  from_ : t.From fun _ _ => True
  answered : ∃ seen, Answered t seen
  linear : Linear t

theorem sound_initial (registry : ReplicaRegistry) : Sound (.withReplicas registry) :=
  ⟨Store.NoEmptyList.empty, Store.readable_empty, ⟨by simp, by simp⟩,
    ⟨from_initial.congr (fun _ => rfl) rfl, by simp⟩,
    ⟨[], answered_initial registry⟩, linear_initial registry⟩

section Steps

variable {t t' : StoreThread} {event : Event}

/-- In a careful step nothing is thrown. -/
theorem act_ne_error (h : Sound t) (hcareful : Careful env t .tick) :
    ∀ task ∈ t.stack.head?, ∀ s' e, t.server.act env task ≠ (s', .error e) := by
  rcases t with ⟨s, _ | ⟨task, stack⟩⟩
  · rintro task ⟨⟩
  rintro task ⟨⟩ s' e hact
  have htask := (hcareful.1 task rfl).1
  have hposition := h.linear.stack task List.mem_cons_self
  cases acts_of_act hact with
  | @threw handler request cmd onReply body d e hbody hresult =>
      rcases @exists_outcome cmd (env.reading s.readings) s.data body hbody h.noEmptyList h.readable
        htask.1 with ⟨outcome, houtcome⟩
      rw [hresult] at houtcome
      cases houtcome
  | @overrun c index size hfull type request response =>
      rcases hposition c rfl with ⟨context, hcontext, hindex⟩
      have hlength := (h.linear.contexts context (List.mem_of_getElem? hcontext)).1
      have hle := hfull context hcontext
      omega
  | @wokeThrew id callback e hread =>
      rcases xread_of_cursors h.readable (h.cursors.wakes (id, callback) List.mem_cons_self) with
        ⟨found, hfound⟩
      rw [hread] at hfound
      cases hfound
  | stuck c =>
      rcases hposition with ⟨context, hcontext, hindex⟩
      simp only at hcontext
      simp only [Server.act, Server.runNext, hcontext] at hact
      split at hact
      · cases hact
      · rename_i hne
        have hlt : context.index < context.commands.length := by omega
        have hget := List.getElem?_eq_getElem hlt
        rcases (h.from_.server.contexts context (List.mem_of_getElem? hcontext)).2 _
          (List.getElem_mem hlt) with ⟨-, cmd, hparse, -⟩
        simp only [hget, hparse] at hact
        split at hact <;> simp at hact

/-- In a careful step blocked clients are answered once. -/
theorem orderly_of_careful (h : Sound t) (hcareful : Careful env t event) : Orderly t event := by
  cases event with
  | tick =>
      refine ⟨hcareful.2, ?_⟩
      intro task hhead
      refine ⟨(hcareful.1 task hhead).2.1, (hcareful.1 task hhead).2.2, ?_⟩
      intro hwakes
      rcases t with ⟨s, _ | ⟨task', stack⟩⟩
      · cases hhead
      cases hhead
      cases task with
      | wakeXread registration =>
          rcases registration with ⟨id, callback⟩
          rcases xread_of_cursors h.readable (h.cursors.wakes (id, callback) List.mem_cons_self)
            with ⟨found, hfound⟩
          have hread : s.data.xread callback.streams = .ok found := hfound
          simp [answers, hread]
      | _ => cases hwakes
  | _ => trivial

/-- What a careful task does to the data. -/
theorem readable_acts {s s' : Server} {task : Task} {r : Except Exception (List Task)}
    (hd : s.data.NoEmptyList) (hreadable : s.data.Readable) (htask : task.careful env s)
    (hacts : Acts env s task s' r) : s'.data.Readable := by
  rcases data_acts hd hacts with hsame | ⟨h, request, cmd, onReply, outcome, rfl, hdata, -⟩ |
    ⟨key, value, more, -, hpop, -⟩
  · rw [hsame]
    exact hreadable
  · exact readable_of_dataActs hreadable htask.2 hdata
  · have hpopped := hreadable.lpop key 1
    rw [hpop] at hpopped
    exact hpopped

/-- Careful steps keep the state sound. -/
theorem sound_step (h : Sound t) (hcareful : Careful env t event)
    (hstep : t.step env event = some t') : Sound t' := by
  have hord := orderly_of_careful h hcareful
  rcases h.answered with ⟨seen, hanswered⟩
  have hthrows : event = .tick →
      ∀ task ∈ t.stack.head?, ∀ s' e, t.server.act env task ≠ (s', .error e) := by
    rintro rfl
    exact act_ne_error h hcareful
  refine ⟨noEmptyList_step h.noEmptyList hstep, ?_, ?_, from_step h.from_ ?_ hstep,
    ⟨_, answered_step hanswered hord hstep⟩, ?_⟩
  · cases moves_of_step hstep with
    | calls stack hact =>
        exact readable_acts h.noEmptyList h.readable (hcareful.1 _ rfl).1 (acts_of_act hact)
    | throws above onReply below hact => exact absurd hact (hthrows rfl _ rfl _ _)
    | timeout htimer hqueued =>
        rw [onTimeout_data]
        exact h.readable
    | _ => exact h.readable
  · exact cursorsKept_step h.cursors hstep
  · cases event <;> trivial
  · exact linear_step h.linear h.from_ hanswered hord hthrows hstep

/-- A careful step of a handler is possible, and makes the measure smaller. -/
theorem exists_step (h : Sound t) (hcareful : Careful env t .tick) (hstack : t.stack ≠ []) :
    ∃ t', t.step env .tick = some t' ∧ Sound t' ∧ t'.measure < t.measure := by
  rcases t with ⟨s, _ | ⟨task, stack⟩⟩
  · exact absurd rfl hstack
  rcases hact : s.act env task with ⟨s', e | new⟩
  · exact absurd hact (act_ne_error h hcareful task rfl s' e)
  · have hstep := step_tick hact stack
    refine ⟨_, hstep, sound_step h hcareful hstep, ?_⟩
    exact measure_lt_of_acts h.linear h.from_.server (h.from_.stack task List.mem_cons_self)
      (acts_of_act hact)

end Steps

/-! ## Handlers -/

/-- An exception without a {lit}`try` block around it ends the server. -/
theorem unwind_eq_none {e : Exception} {stack : List Task} (h : ∀ onReply, .tryEnd onReply ∉ stack) :
    (storeMachine env).unwind e stack = none := by
  induction stack with
  | nil => rfl
  | cons task stack ih =>
      have hrest := ih fun onReply hmem => h onReply (List.mem_cons_of_mem _ hmem)
      cases task with
      | tryEnd onReply => exact absurd List.mem_cons_self (h onReply)
      | _ => exact hrest

/-- In every run whose steps are careful, the handler that is running comes to its end
without an exception, unless one of its steps is not careful; and a command whose
numbers cannot be converted ends the server unless a {lit}`try` block is open. -/
theorem handlers_complete {registry : ReplicaRegistry} {events : List Event} {t : StoreThread}
    (hcareful : Execution.Along (StoreThread.step env) (Careful env) (.withReplicas registry)
      events)
    (hrun : StoreThread.run env (.withReplicas registry) events = some t) :
    (∃ n t', t.run env (List.replicate n .tick) = some t' ∧
      (t'.stack = [] ∨ ¬ Careful env t' .tick)) ∧
    ∀ h request cmd onReply below, t.stack = .execute h request cmd onReply :: below →
      ¬ NumbersParse cmd → (∀ onReply, .tryEnd onReply ∉ below) → t.step env .tick = none := by
  have hsound : Sound t :=
    Execution.follow_invariant sound_step (sound_initial registry) hcareful hrun
  constructor
  · have hstep : ∀ t, Sound t → ¬ (t.stack = [] ∨ ¬ Careful env t .tick) →
        ∃ t', t.step env .tick = some t' ∧ Sound t' ∧ t'.measure < t.measure := by
      intro t ht hstop
      rw [not_or, not_not] at hstop
      exact exists_step ht hstop.2 hstop.1
    rcases Execution.exists_follow_replicate StoreThread.measure hstep t hsound with
      ⟨n, t', hticks, -, hstop⟩
    exact ⟨n, t', hticks, hstop⟩
  · intro h request cmd onReply below hstack hnumbers htry
    rcases t with ⟨s, stack⟩
    cases hstack
    rcases @throws_of_not_numbersParse cmd (env.reading s.readings) s.data hnumbers with
      ⟨body, e, hbody, hthrows⟩
    have hact : s.act env (.execute h request cmd onReply) = (s.withData s.data, .error e) := by
      simp [Server.act, Server.execute, hbody, Server.executeData, hthrows]
    rw [StoreThread.step, CallStack.step_cons_error hact, unwind_eq_none htry]
    rfl

/-! ## Sample runs -/

instance (env : Env) (s : Server) : (task : Task) → Decidable (task.careful env s)
  | .execute _ _ _ _ => inferInstanceAs (Decidable (_ ∧ _))
  | .handle _ _ _ | .reply _ _ | .tryEnd _ | .serveBlpop _ | .serveXread _ | .wakeXread _
  | .runNext _ | .waitPoll _ => .isTrue trivial

instance (env : Env) (t : StoreThread) : (event : Event) → Decidable (Careful env t event)
  | .tick => inferInstanceAs (Decidable (_ ∧ _))
  | .request _ _ | .expire _ | .timeout _ | .poll _ | .attach | .detach _ | .ack _ _ =>
      .isTrue trivial

/-- A client is blocked and a push serves it: the handler of the push completes. -/
theorem handlers_complete_push :
    ∃ t, StoreThread.run sampleEnv (.withReplicas .empty) (blockedPop ++
        [.request (.client 2) (.ofTexts (ascii "RPUSH") [ascii "k", ascii "x"] (by decide)
          (by decide))]) = some t ∧
      ∃ n t', t.run sampleEnv (List.replicate n .tick) = some t' ∧
        (t'.stack = [] ∨ ¬ Careful sampleEnv t' .tick) := by
  have hrun : (StoreThread.run sampleEnv (.withReplicas .empty) (blockedPop ++
      [.request (.client 2) (.ofTexts (ascii "RPUSH") [ascii "k", ascii "x"] (by decide)
        (by decide))])).map (fun t => t.stack.length) = some 1 := by decide +kernel
  rcases Option.map_eq_some_iff.mp hrun with ⟨t, ht, -⟩
  exact ⟨t, ht, (handlers_complete (by decide +kernel) ht).1⟩

/-- {lit}`SET k v EX abc`. -/
def setWithExpiry : Request :=
  .short (ascii "SET") [ascii "k", ascii "v", ascii "EX", ascii "abc"] (Eq.refl true)

/-- {lit}`SET` with an expiry that is not a number ends the server. -/
theorem set_ends_server :
    StoreThread.run sampleEnv (.withReplicas .empty)
      [.request (.client 1) setWithExpiry, .tick, .tick] = none ∧
    (StoreThread.run sampleEnv (.withReplicas .empty)
      [.request (.client 1) setWithExpiry, .tick]).isSome = true := by
  decide +kernel

end RedisClone
