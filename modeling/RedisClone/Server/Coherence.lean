import RedisClone.Server.Callbacks
import RedisClone.Server.Continuations
import RedisClone.Server.WatchMirror

/-!
# Coherent threads

What the store thread keeps in different places fits together in every run: the timer of a
waiter holds the callback of the waiter, callbacks belong to {lit}`EXEC`s that have
started, a {lit}`WAIT` polls while it is active, and a task that may change a transaction
is alone on the stack.

Main results:

- Theorem {lit}`coherent_step`: every event keeps the thread coherent.
- Theorem {lit}`coherent_run`: so does every run.
-/

namespace RedisClone

variable {env : Env}

/-! ## The callbacks of timers -/

/-- The callbacks that the timers of blocked clients hold. -/
def Server.held (s : Server) : List OnReply :=
  s.timers.map Timer.onReply

/-- Timers keep their callbacks, and new ones may be added. -/
def HeldKept (s s' : Server) : Prop :=
  ∃ more, s'.held = s.held ++ more

theorem HeldKept.of_held {s s' : Server} (h : s'.held = s.held) : HeldKept s s' :=
  ⟨[], by rw [h, List.append_nil]⟩

/-- A callback that is held stays so. -/
theorem HeldKept.getElem? {s s' : Server} (h : HeldKept s s') {i : Nat} {onReply : OnReply}
    (hheld : s.held[i]? = some onReply) : s'.held[i]? = some onReply := by
  rcases h with ⟨more, hmore⟩
  rw [hmore, List.getElem?_append_left (List.getElem?_eq_some_iff.mp hheld).1]
  exact hheld

/-- A timer that is cancelled keeps its callback. -/
theorem held_cancelTimer (s : Server) (i : Nat) : (s.cancelTimer i).held = s.held := by
  apply List.ext_getElem?
  intro j
  simp only [Server.held, Server.cancelTimer_timers, List.getElem?_map, List.getElem?_modify]
  cases s.timers[j]? with
  | none => simp
  | some timer => by_cases heq : i = j <;> simp [heq, Server.Callbacks.onReply_cancel]

/-- A timer that changes its status keeps its callback. -/
theorem held_setTimer (s : Server) {i : Nat} {timer : Timer} (htimer : s.timers[i]? = some timer)
    (status : TimerStatus) : (s.setTimer i { timer with status := status }).held = s.held := by
  apply List.ext_getElem?
  intro j
  simp only [Server.held, Server.setTimer_timers, List.getElem?_map, List.getElem?_set]
  by_cases heq : i = j
  · subst heq
    rw [if_pos rfl, if_pos (List.getElem?_eq_some_iff.mp htimer).1, htimer]
    rfl
  · rw [if_neg heq]

/-- The callbacks behind the handler of a timer. -/
theorem held_onTimeout {s : Server} {i : Nat} {timer : Timer} (htimer : s.timers[i]? = some timer) :
    (StoreThread.onTimeout s i timer).server.held = s.held := by
  unfold StoreThread.onTimeout
  split <;> exact held_setTimer s htimer .done

/-- The timers behind a command on the keyspace. -/
theorem heldKept_settle (s : Server) (onReply : OnReply) (outcome : Outcome) :
    HeldKept s (s.settle onReply outcome).1 := by
  cases outcome with
  | answer a =>
      refine .of_held ?_
      simp only [Server.settle]
      split <;> rfl
  | blockBlpop keys timeout => exact ⟨[onReply], by simp [Server.settle, Server.held]⟩
  | blockXread streams timeout => exact ⟨[onReply], by simp [Server.settle, Server.held]⟩

/-- Every task keeps the callbacks of the timers. -/
theorem heldKept_acts {s s' : Server} {task : Task} {r : Except Exception (List Task)}
    (hacts : Acts env s task s' r) : HeldKept s s' := by
  cases hacts with
  | @ran h request cmd onReply body d outcome hbody hresult =>
      exact heldKept_settle ((s.withData d).record (.executed h cmd.type request)) onReply outcome
  | served hwaiters hpop => exact .of_held (held_cancelTimer _ _)
  | woke hread => exact .of_held (held_cancelTimer _ _)
  | wokeThrew hread => exact .of_held (held_cancelTimer _ _)
  | collected hcontext hindex type request response =>
      refine .of_held ?_
      split <;> rfl
  | _ => exact .of_held rfl

/-! ## Waiters and their timers -/

/-- The timer of each waiter holds the callback of the waiter. -/
structure Tied (t : StoreThread) : Prop where
  blpop : ∀ key, ∀ waiter ∈ t.server.blpop.waiters key,
    t.server.held[waiter.2.timer]? = some waiter.2.onReply
  xread : ∀ key, ∀ waiter ∈ t.server.xread.waiters key,
    t.server.held[waiter.2.timer]? = some waiter.2.onReply
  wakes : ∀ registration, .wakeXread registration ∈ t.stack →
    t.server.held[registration.2.timer]? = some registration.2.onReply

section Tied

variable {s s' : Server} {stack stack' new : List Task} {task : Task}

/-- No waiter is added. -/
theorem Tied.frame (h : Tied ⟨s, stack⟩) (hkept : HeldKept s s')
    (hblpop : ∀ key, ∀ waiter ∈ s'.blpop.waiters key, waiter ∈ s.blpop.waiters key)
    (hxread : ∀ key, ∀ waiter ∈ s'.xread.waiters key, waiter ∈ s.xread.waiters key)
    (hwakes : ∀ registration, .wakeXread registration ∈ stack' →
      .wakeXread registration ∈ stack ∨ ∃ key, registration ∈ s.xread.waiters key) :
    Tied ⟨s', stack'⟩ := by
  refine ⟨fun key waiter hmem => ?_, fun key waiter hmem => ?_, fun registration hmem => ?_⟩
  · exact hkept.getElem? (h.blpop key waiter (hblpop key waiter hmem))
  · exact hkept.getElem? (h.xread key waiter (hxread key waiter hmem))
  · rcases hwakes registration hmem with hold | ⟨key, hwaiter⟩
    · exact hkept.getElem? (h.wakes registration hold)
    · exact hkept.getElem? (h.xread key registration hwaiter)

/-- A task that calls no waiters of streams. -/
theorem Tied.calls (h : Tied ⟨s, task :: stack⟩) (hkept : HeldKept s s')
    (hblpop : ∀ key, ∀ waiter ∈ s'.blpop.waiters key, waiter ∈ s.blpop.waiters key)
    (hxread : ∀ key, ∀ waiter ∈ s'.xread.waiters key, waiter ∈ s.xread.waiters key)
    (hnew : ∀ task' ∈ new, task'.wakes = none) : Tied ⟨s', new ++ stack⟩ := by
  refine h.frame hkept hblpop hxread fun registration hmem => Or.inl ?_
  rcases List.mem_append.mp hmem with hmem | hmem
  · have hnone := hnew _ hmem
    contradiction
  · exact List.mem_cons_of_mem _ hmem

/-- A command on the keyspace. -/
theorem tied_settle (h : Tied ⟨s, task :: stack⟩) (onReply : OnReply) (outcome : Outcome) :
    Tied ⟨(s.settle onReply outcome).1, (s.settle onReply outcome).2 ++ stack⟩ := by
  have hwakes : ∀ task' ∈ (s.settle onReply outcome).2, task'.wakes = none := by
    intro task' hmem
    rcases mem_settle hmem with ⟨key, rfl⟩ | ⟨key, rfl⟩ | ⟨response, rfl⟩ | rfl <;> rfl
  have hkept := heldKept_settle s onReply outcome
  cases outcome with
  | answer a =>
      refine h.calls hkept ?_ ?_ hwakes <;>
      · intro key waiter hmem
        simp only [Server.settle] at hmem
        split at hmem <;> exact hmem
  | blockBlpop keys timeout =>
      refine ⟨fun key waiter hmem => ?_, fun key waiter hmem => ?_, fun registration hmem => ?_⟩
      · rcases BlockingRegistry.mem_waiters_of_register hmem with hold | rfl
        · exact hkept.getElem? (h.blpop key waiter hold)
        · simp [Server.settle, Server.held]
      · exact hkept.getElem? (h.xread key waiter hmem)
      · exact hkept.getElem? (h.wakes registration (List.mem_cons_of_mem _ hmem))
  | blockXread streams timeout =>
      refine ⟨fun key waiter hmem => ?_, fun key waiter hmem => ?_, fun registration hmem => ?_⟩
      · exact hkept.getElem? (h.blpop key waiter hmem)
      · rcases BlockingRegistry.mem_waiters_of_register hmem with hold | rfl
        · exact hkept.getElem? (h.xread key waiter hold)
        · simp [Server.settle, Server.held]
      · exact hkept.getElem? (h.wakes registration (List.mem_cons_of_mem _ hmem))

/-- A task on the stack. -/
theorem tied_calls (h : Tied ⟨s, task :: stack⟩) (hacts : Acts env s task s' (.ok new)) :
    Tied ⟨s', new ++ stack⟩ := by
  have hkept := heldKept_acts hacts
  cases hacts with
  | @ran handler request cmd onReply body d outcome hbody hresult =>
      have hdata : Tied ⟨(s.withData d).record (.executed handler cmd.type request),
          .execute handler request cmd onReply :: stack⟩ :=
        ⟨h.blpop, h.xread, h.wakes⟩
      exact tied_settle hdata onReply outcome
  | served hwaiters hpop =>
      exact h.calls hkept (fun _ _ hmem => BlockingRegistry.mem_waiters_of_unregister hmem)
        (fun _ _ hmem => hmem) (by simp [Task.wakes])
  | woke hread =>
      exact h.calls hkept (fun _ _ hmem => hmem)
        (fun _ _ hmem => BlockingRegistry.mem_waiters_of_unregister hmem) (by simp [Task.wakes])
  | copied key =>
      refine h.frame hkept (fun _ _ hmem => hmem) (fun _ _ hmem => hmem) fun registration hmem => ?_
      rcases List.mem_append.mp hmem with hmem | hmem
      · rcases List.mem_map.mp hmem with ⟨waiter, hwaiter, heq⟩
        cases heq
        exact Or.inr ⟨key, hwaiter⟩
      · exact Or.inl (List.mem_cons_of_mem _ hmem)
  | collected hcontext hindex type request response =>
      refine h.calls hkept ?_ ?_ (by simp [Task.wakes]) <;>
      · intro key waiter hmem
        split at hmem <;> exact hmem
  | _ => exact h.calls hkept (fun _ _ hmem => hmem) (fun _ _ hmem => hmem) (by simp [Task.wakes])

/-- A task that throws. -/
theorem tied_throws {e : Exception} {below : List Task} (h : Tied ⟨s, task :: stack⟩)
    (hacts : Acts env s task s' (.error e)) (hbelow : ∀ task ∈ below, task ∈ stack)
    (onReply : OnReply) (response : Bytes) : Tied ⟨s', .reply onReply response :: below⟩ := by
  have hkept := heldKept_acts hacts
  have hwakes : ∀ registration, .wakeXread registration ∈ .reply onReply response :: below →
      .wakeXread registration ∈ task :: stack ∨ ∃ key, registration ∈ s.xread.waiters key := by
    intro registration hmem
    rcases List.mem_cons.mp hmem with heq | hmem
    · contradiction
    · exact Or.inl (List.mem_cons_of_mem _ (hbelow _ hmem))
  cases hacts with
  | wokeThrew hread =>
      exact h.frame hkept (fun _ _ hmem => hmem)
        (fun _ _ hmem => BlockingRegistry.mem_waiters_of_unregister hmem) hwakes
  | threw | overrun | stuck =>
      exact h.frame hkept (fun _ _ hmem => hmem) (fun _ _ hmem => hmem) hwakes

end Tied

/-! ## Threads in which everything fits together -/

/-- No callback belongs to an {lit}`EXEC` that has not started. -/
def Numbered (t : StoreThread) : Prop :=
  t.Callbacks fun onReply => ∀ c, onReply.context = some c → c < t.server.contexts.length

/-- A {lit}`WAIT` polls as soon as it is called, and only while it is active. -/
structure Polling (t : StoreThread) : Prop where
  top : ∀ i, t.stack.head? = some (.waitPoll i) → ∃ w ∈ t.server.waits[i]?, w.active = true
  below : ∀ i, .waitPoll i ∉ t.stack.tail

/-- A task that may change a transaction is alone on the stack. -/
def Alone (t : StoreThread) : Prop :=
  ∀ h, ∀ task ∈ t.stack, task.mayControl h = true → t.stack = [task]

/-- What holds in every run. -/
structure Coherent (t : StoreThread) : Prop where
  requests : t.From fun _ _ => True
  watching : Watching t.server.transactions t.server.watches
  tied : Tied t
  numbered : Numbered t
  polling : Polling t
  alone : Alone t
  replies : ∀ c ∈ t.server.contexts, c.onReply.context = none

section Coherent

variable {s s' : Server} {stack new : List Task} {task : Task} {t t' : StoreThread} {event : Event}

/-- An {lit}`EXEC` that has started is never forgotten. -/
theorem length_contexts_acts {r : Except Exception (List Task)} (hacts : Acts env s task s' r) :
    s.contexts.length ≤ s'.contexts.length := by
  cases hacts with
  | ran hbody hresult =>
      rw [settle_contexts]
      exact Nat.le_refl _
  | started htype hactive hclean hqueue => simp
  | collected hcontext hindex type request response => split <;> simp
  | skipped hcontext hrequest hparse hfind => simp
  | _ => exact Nat.le_refl _

theorem length_contexts_step (hstep : t.step env event = some t') :
    t.server.contexts.length ≤ t'.server.contexts.length := by
  cases moves_of_step hstep with
  | calls stack hact => exact length_contexts_acts (acts_of_act hact)
  | throws above onReply below hact => exact length_contexts_acts (acts_of_act hact)
  | timeout htimer hqueued => rw [onTimeout_contexts]
  | _ => exact Nat.le_refl _

/-- {lit}`run_next` makes callbacks of its own {lit}`EXEC` only. -/
theorem numbered_step (h : Numbered t) (hstep : t.step env event = some t') : Numbered t' := by
  have hlength := length_contexts_step hstep
  have hkept := callbacks_step (fun onReply hown c hc => ?_) h (fun task htask => ?_) hstep
  · refine ⟨⟨fun key waiter hmem c hc => ?_, fun key waiter hmem c hc => ?_,
      fun timer hmem c hc => ?_, fun w hmem c hc => ?_, fun context hmem c hc => ?_⟩,
      fun task hmem onReply hcallback c hc => ?_⟩
    · exact Nat.lt_of_lt_of_le (hkept.server.blpop key waiter hmem c hc) hlength
    · exact Nat.lt_of_lt_of_le (hkept.server.xread key waiter hmem c hc) hlength
    · exact Nat.lt_of_lt_of_le (hkept.server.timers timer hmem c hc) hlength
    · exact Nat.lt_of_lt_of_le (hkept.server.waits w hmem c hc) hlength
    · exact Nat.lt_of_lt_of_le (hkept.server.contexts context hmem c hc) hlength
    · exact Nat.lt_of_lt_of_le (hkept.stack task hmem onReply hcallback c hc) hlength
  · cases onReply <;> contradiction
  · cases task with
    | runNext context =>
        intro c request cmd hcontext hrequest hparse c' hc'
        cases hc'
        exact (List.getElem?_eq_some_iff.mp hcontext).1
    | _ => trivial

/-- Only {lit}`WAIT` calls {lit}`poll`. -/
theorem waitPoll_acts (hacts : Acts env s task s' (.ok new)) {i : Nat} (hmem : .waitPoll i ∈ new) :
    new = [.waitPoll i] ∧ ∃ w ∈ s'.waits[i]?, w.active = true := by
  cases hacts with
  | polls htype wait =>
      cases List.mem_singleton.mp hmem
      exact ⟨rfl, _, by simp; rfl, rfl⟩
  | ran hbody hresult =>
      rcases mem_settle hmem with ⟨key, heq⟩ | ⟨key, heq⟩ | ⟨response, heq⟩ | heq <;> contradiction
  | copied key =>
      rcases List.mem_map.mp hmem with ⟨registration, -, heq⟩
      contradiction
  | _ => simp at hmem

theorem polling_step (h : Polling t) (hstep : t.step env event = some t') : Polling t' := by
  cases moves_of_step hstep with
  | @calls s s' task new stack hact =>
      have hstack : ∀ i, .waitPoll i ∉ stack := h.below
      constructor
      · intro i hhead
        cases new with
        | nil => exact absurd (List.mem_of_head? hhead) (hstack i)
        | cons first new =>
            cases hhead
            exact (waitPoll_acts (acts_of_act hact) List.mem_cons_self).2
      · intro i hmem
        cases new with
        | nil => exact hstack i (List.mem_of_mem_tail hmem)
        | cons first new =>
            rcases List.mem_append.mp hmem with hmem | hmem
            · have hsingle := (waitPoll_acts (acts_of_act hact) (List.mem_cons_of_mem _ hmem)).1
              cases hsingle
              contradiction
            · exact hstack i hmem
  | throws above onReply below hact =>
      refine ⟨fun i hhead => by simp at hhead, fun i hmem => h.below i ?_⟩
      simp only [List.tail_cons] at hmem ⊢
      exact List.mem_append_right _ (List.mem_cons_of_mem _ hmem)
  | timeout htimer hqueued =>
      exact ⟨fun i hhead => by simp [StoreThread.onTimeout] at hhead, fun i hmem => by contradiction⟩
  | @poll s i w hwait hactive =>
      refine ⟨fun j hhead => ?_, fun j hmem => by contradiction⟩
      cases hhead
      exact ⟨w, hwait, hactive⟩
  | request => exact ⟨fun i hhead => by simp at hhead, fun i hmem => by contradiction⟩
  | idle | expires | attach | detach | ack => exact ⟨h.top, h.below⟩

/-- A task that may change a transaction is called by such a task, and alone. -/
theorem control_acts (hs : s.From fun _ _ => True) (hacts : Acts env s task s' (.ok new))
    {task' : Task} (hmem : task' ∈ new) {h : HandlerId} (hcontrol : task'.mayControl h = true) :
    task.mayControl h = true ∧ new = [task'] := by
  constructor
  · by_contra hnot
    have hfalse := Host.mayControl_acts hs (Bool.not_eq_true _ ▸ hnot) hacts task' hmem
    rw [hcontrol] at hfalse
    contradiction
  · cases hacts with
    | rejected | queued | controls | dispatched => rw [List.mem_singleton.mp hmem]
    | ran hbody hresult =>
        rw [Host.mayControl_settle hmem] at hcontrol
        contradiction
    | served hwaiters hpop =>
        simp only [List.mem_cons, List.not_mem_nil, or_false] at hmem
        rcases hmem with rfl | rfl <;> contradiction
    | copied key =>
        rcases List.mem_map.mp hmem with ⟨registration, -, rfl⟩
        contradiction
    | written | dropped | propagated | passed | unawaited | unserved | waits | unknownWait =>
        contradiction
    | next => rw [List.mem_singleton.mp hmem]
    | _ =>
        rw [List.mem_singleton.mp hmem] at hcontrol
        contradiction

theorem alone_step (h : Alone t) (hfrom : t.From fun _ _ => True)
    (hstep : t.step env event = some t') : Alone t' := by
  cases moves_of_step hstep with
  | @calls s s' task new stack hact =>
      intro handler task' hmem hcontrol
      rcases List.mem_append.mp hmem with hmem | hmem
      · rcases control_acts hfrom.server (acts_of_act hact) hmem hcontrol with ⟨htask, hsingle⟩
        have hstack := h handler task List.mem_cons_self htask
        simp only [List.cons.injEq, true_and] at hstack
        simp [hsingle, hstack]
      · have hstack := h handler task' (List.mem_cons_of_mem _ hmem) hcontrol
        simp only [List.cons.injEq] at hstack
        rw [hstack.2] at hmem
        contradiction
  | @throws s s' task e above onReply below hact =>
      intro handler task' hmem hcontrol
      rcases List.mem_cons.mp hmem with rfl | hmem
      · contradiction
      · have hstack := h handler task' (by simp [hmem]) hcontrol
        simp at hstack
  | timeout htimer hqueued =>
      intro handler task' hmem hcontrol
      rw [List.mem_singleton.mp hmem] at hcontrol
      contradiction
  | poll hwait hactive =>
      intro handler task' hmem hcontrol
      rw [List.mem_singleton.mp hmem] at hcontrol
      contradiction
  | request s handler request =>
      intro handler' task' hmem hcontrol
      rw [List.mem_singleton.mp hmem]
  | idle | expires | attach | detach | ack => exact h

/-- An {lit}`EXEC` is called back by its own handler. -/
theorem replies_acts {r : Except Exception (List Task)}
    (h : ∀ c ∈ s.contexts, c.onReply.context = none) (htask : task.From fun _ _ => True)
    (hacts : Acts env s task s' r) : ∀ c ∈ s'.contexts, c.onReply.context = none := by
  have hset : ∀ {k : Nat} {c : ExecContext}, s.contexts[k]? = some c → ∀ index results,
      ∀ c' ∈ s.contexts.set k { c with index := index, results := results },
        c'.onReply.context = none := by
    intro k c hcontext index results c' hmem
    rcases List.mem_or_eq_of_mem_set hmem with hmem | rfl
    · exact h c' hmem
    · exact h c (List.mem_of_getElem? hcontext)
  cases hacts with
  | ran hbody hresult =>
      rw [settle_contexts]
      exact h
  | started htype hactive hclean hqueue =>
      intro c hmem
      rcases List.mem_append.mp hmem with hmem | hmem
      · exact h c hmem
      · rw [List.mem_singleton.mp hmem]
        rcases htask.2.2 (by rw [htype]; rfl) with ⟨number, rfl⟩
        exact context_onReply _ number
  | collected hcontext hindex type request response =>
      split <;> exact hset hcontext _ _
  | skipped hcontext hrequest hparse hfind => exact hset hcontext _ _
  | _ => exact h

/-- Every event keeps the thread coherent. -/
theorem coherent_step (h : Coherent t) (hstep : t.step env event = some t') : Coherent t' := by
  have hfrom := from_step h.requests (show event.From fun _ _ => True by cases event <;> trivial)
    hstep
  refine ⟨hfrom, watching_step h.watching hstep, ?_, numbered_step h.numbered hstep,
    polling_step h.polling hstep, alone_step h.alone h.requests hstep, ?_⟩
  · have htied := h.tied
    cases moves_of_step hstep with
    | calls stack hact => exact tied_calls htied (acts_of_act hact)
    | throws above onReply below hact =>
        exact tied_throws htied (acts_of_act hact) (by simp_all) onReply _
    | expires stack htimer harmed =>
        exact htied.frame (.of_held (held_setTimer _ htimer _)) (fun _ _ hmem => hmem)
          (fun _ _ hmem => hmem) (fun _ hmem => Or.inl hmem)
    | @timeout s i timer htimer hqueued =>
        have hheld := held_onTimeout htimer
        refine htied.frame (.of_held hheld) ?_ ?_ (fun _ hmem => by simp at hmem)
        · intro key waiter hmem
          split at hmem
          · exact BlockingRegistry.mem_waiters_of_unregister hmem
          · exact hmem
        · intro key waiter hmem
          split at hmem
          · exact hmem
          · exact BlockingRegistry.mem_waiters_of_unregister hmem
    | request | poll =>
        exact htied.frame (.of_held rfl) (fun _ _ hmem => hmem) (fun _ _ hmem => hmem)
          (fun _ hmem => by simp at hmem)
    | idle | attach | detach | ack => exact ⟨htied.blpop, htied.xread, htied.wakes⟩
  · have hreplies := h.replies
    cases moves_of_step hstep with
    | calls stack hact =>
        exact replies_acts hreplies (h.requests.stack _ List.mem_cons_self) (acts_of_act hact)
    | throws above onReply below hact =>
        exact replies_acts hreplies (h.requests.stack _ List.mem_cons_self) (acts_of_act hact)
    | timeout htimer hqueued =>
        rw [onTimeout_contexts]
        exact hreplies
    | _ => exact hreplies

theorem coherent_initial (registry : ReplicaRegistry) : Coherent (.withReplicas registry) where
  requests := ⟨from_initial.congr (fun _ => rfl) rfl, by simp⟩
  watching := watching_initial
  tied := ⟨by simp, by simp, by simp⟩
  numbered := ⟨⟨by simp, by simp, by simp, by simp, by simp⟩, CallbacksIn.nil⟩
  polling := ⟨by simp, by simp⟩
  alone := by
    intro h task hmem
    contradiction
  replies := by simp

theorem coherent_run {registry : ReplicaRegistry} {events : List Event}
    (hrun : (StoreThread.withReplicas registry).run env events = some t) : Coherent t :=
  Execution.follow_invariant (fun h _ hstep => coherent_step h hstep) (coherent_initial registry)
    (Execution.along_of_forall (P := fun _ => True) (fun _ _ => trivial) _) hrun

end Coherent

end RedisClone
