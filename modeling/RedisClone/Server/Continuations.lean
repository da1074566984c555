import RedisClone.Server.Blocked
import RedisClone.Server.Provenance

/-!
# Continuations of {lit}`EXEC`

{lit}`run_next` hands a callback to each queued command, and goes on with the next
command when the callback is called.  A command may call it later, from a timer or from
a push.  If every callback is called once, an {lit}`EXEC` goes on in at most one place
at any time: in a task on the stack, in a blocked client, or in a {lit}`WAIT`.

Main results:

- Theorem {lit}`linear_step`: this is kept by every event in which blocked clients are
  answered once.
-/

namespace RedisClone

variable {env : Env}

/-! ## Where an {lit}`EXEC` goes on -/

/-- The {lit}`EXEC` that a callback belongs to. -/
def OnReply.context : OnReply → Option Nat
  | .exec context _ _ => some context
  | _ => none

/-- The {lit}`EXEC` that goes on behind a task. -/
def Task.continues : Task → Option Nat
  | .execute _ _ _ onReply => onReply.context
  | .reply onReply _ => onReply.context
  | .runNext context => some context
  | _ => none

@[simp]
theorem continues_execute (h : HandlerId) (request : RespValue) (cmd : Command)
    (onReply : OnReply) : (Task.execute h request cmd onReply).continues = onReply.context :=
  rfl

@[simp]
theorem continues_reply (onReply : OnReply) (response : Bytes) :
    (Task.reply onReply response).continues = onReply.context :=
  rfl

@[simp]
theorem continues_runNext (c : Nat) : (Task.runNext c).continues = some c :=
  rfl

/-- The {lit}`EXEC` that goes on when a blocked client is answered. -/
def Timer.continues (timer : Timer) : Option Nat :=
  if timer.status = .done then none else timer.onReply.context

/-- The {lit}`EXEC` that goes on when a {lit}`WAIT` replies. -/
def WaitState.continues (w : WaitState) : Option Nat :=
  if w.active then w.onReply.context else none

/-- In how many places an {lit}`EXEC` goes on. -/
def continuations (s : Server) (stack : List Task) (c : Nat) : Nat :=
  stack.countP (fun task => task.continues = some c) +
    s.timers.countP (fun timer => timer.continues = some c) +
    s.waits.countP (fun w => w.continues = some c)

/-- The {lit}`EXEC` waits for the result of a command. -/
def Server.Awaits (s : Server) (c : Nat) : Prop :=
  ∃ context, s.contexts[c]? = some context ∧ context.index < context.commands.length

/-- A task that goes on with an {lit}`EXEC` finds it at a command, and {lit}`run_next`
finds it at a command or at the end. -/
def Task.Positioned (s : Server) : Task → Prop
  | .runNext c => ∃ context, s.contexts[c]? = some context ∧
      context.index ≤ context.commands.length
  | task => ∀ c, task.continues = some c → s.Awaits c

/-- Every {lit}`EXEC` goes on in at most one place. -/
structure Linear (t : StoreThread) : Prop where
  once : ∀ c, continuations t.server t.stack c ≤ 1
  stack : ∀ task ∈ t.stack, task.Positioned t.server
  timers : ∀ timer ∈ t.server.timers, ∀ c, timer.continues = some c → t.server.Awaits c
  waits : ∀ w ∈ t.server.waits, ∀ c, w.continues = some c → t.server.Awaits c
  contexts : ∀ context ∈ t.server.contexts,
    context.results.length = context.commands.length ∧ context.onReply.context = none
  /-- A {lit}`WAIT` polls as soon as it is called, and only while it is active. -/
  top : ∀ i, t.stack.head? = some (.waitPoll i) → ∃ w ∈ t.server.waits[i]?, w.active = true
  below : ∀ i, .waitPoll i ∉ t.stack.tail

/-! ## Counting -/

/-- An element of a list is replaced. -/
theorem countP_set_of_getElem? {α : Type} {p : α → Bool} {l : List α} {i : Nat} {a : α}
    (h : l[i]? = some a) (b : α) :
    (l.set i b).countP p + (if p a then 1 else 0) = l.countP p + if p b then 1 else 0 := by
  rcases List.getElem?_eq_some_iff.mp h with ⟨hlt, hget⟩
  rw [List.countP_set hlt, hget]
  have hpos : p a = true → 1 ≤ l.countP p := fun ha =>
    List.one_le_countP_iff.mpr ⟨a, List.mem_of_getElem? h, ha⟩
  split
  · rename_i ha
    have := hpos ha
    omega
  · omega

/-- An element of a list is changed. -/
theorem modify_of_getElem? {α : Type} (f : α → α) {l : List α} {i : Nat} {a : α}
    (h : l[i]? = some a) : l.modify i f = l.set i (f a) := by
  rw [List.modify_eq_set_getElem?, h]
  rfl

section Count

variable {s s' : Server} {stack : List Task} {task : Task} {c : Nat}

theorem continuations_append (s : Server) (new stack : List Task) (c : Nat) :
    continuations s (new ++ stack) c =
      continuations s new c + stack.countP fun task => task.continues = some c := by
  unfold continuations
  rw [List.countP_append]
  omega

/-- A task that goes on with an {lit}`EXEC` is the only place in which it does. -/
theorem Linear.alone (h : Linear ⟨s, task :: stack⟩) (htask : task.continues = some c) :
    (∀ task' ∈ stack, task'.continues ≠ some c) ∧ (∀ timer ∈ s.timers, timer.continues ≠ some c) ∧
      ∀ w ∈ s.waits, w.continues ≠ some c := by
  have honce := h.once c
  simp only [continuations, List.countP_cons, htask, decide_true, if_true] at honce
  refine ⟨?_, ?_, ?_⟩
  · intro task' hmem heq
    have hpos : 1 ≤ stack.countP fun task => task.continues = some c :=
      List.one_le_countP_iff.mpr ⟨task', hmem, by simp [heq]⟩
    omega
  · intro timer hmem heq
    have hpos : 1 ≤ s.timers.countP fun timer => timer.continues = some c :=
      List.one_le_countP_iff.mpr ⟨timer, hmem, by simp [heq]⟩
    omega
  · intro w hmem heq
    have hpos : 1 ≤ s.waits.countP fun w => w.continues = some c :=
      List.one_le_countP_iff.mpr ⟨w, hmem, by simp [heq]⟩
    omega

end Count

/-! ## Frames -/

section Frames

variable {s s' : Server} {stack new : List Task} {task : Task}

/-- Only the contexts matter for the position of a task. -/
theorem Task.Positioned.congr (h : task.Positioned s) (hcontexts : s'.contexts = s.contexts) :
    task.Positioned s' := by
  cases task <;> simp only [Task.Positioned, Server.Awaits, hcontexts] at h ⊢ <;> exact h

/-- A task that goes on with an {lit}`EXEC`, other than {lit}`run_next`. -/
theorem Task.Positioned.awaits (h : task.Positioned s) (hnext : ∀ c, task ≠ .runNext c) {c : Nat}
    (hc : task.continues = some c) : s.Awaits c := by
  cases task with
  | runNext c' => exact absurd rfl (hnext c')
  | _ => exact h c hc

/-- A task with no {lit}`EXEC` behind it. -/
theorem positioned_of_none (h : task.continues = none) : task.Positioned s := by
  cases task with
  | runNext c => cases h
  | _ =>
      intro c hc
      rw [h] at hc
      cases hc

/-- A task calls others, and the contexts stay as they are. -/
theorem Linear.calls (h : Linear ⟨s, task :: stack⟩) (hcontexts : s'.contexts = s.contexts)
    (hcount : ∀ c, continuations s' new c ≤ continuations s [task] c)
    (htimers : ∀ timer ∈ s'.timers, ∀ c, timer.continues = some c → s.Awaits c)
    (hwaits : ∀ w ∈ s'.waits, ∀ c, w.continues = some c → s.Awaits c)
    (hnew : ∀ task' ∈ new, task'.Positioned s)
    (htop : ∀ i, new.head? = some (.waitPoll i) → ∃ w ∈ s'.waits[i]?, w.active = true)
    (hbelow : ∀ i, .waitPoll i ∉ new.tail) : Linear ⟨s', new ++ stack⟩ := by
  have hstack : ∀ i, .waitPoll i ∉ stack := fun i hmem => h.below i (by simpa using hmem)
  refine ⟨?_, ?_, ?_, ?_, ?_, ?_, ?_⟩
  · intro c
    have honce : continuations s ([task] ++ stack) c ≤ 1 := h.once c
    show continuations s' (new ++ stack) c ≤ 1
    rw [continuations_append] at honce ⊢
    have := hcount c
    omega
  · intro task' hmem
    refine Task.Positioned.congr ?_ hcontexts
    rcases List.mem_append.mp hmem with hmem | hmem
    · exact hnew task' hmem
    · exact h.stack task' (List.mem_cons_of_mem _ hmem)
  · intro timer hmem c hc
    rcases htimers timer hmem c hc with ⟨context, hcontext, hindex⟩
    exact ⟨context, by rw [hcontexts]; exact hcontext, hindex⟩
  · intro w hmem c hc
    rcases hwaits w hmem c hc with ⟨context, hcontext, hindex⟩
    exact ⟨context, by rw [hcontexts]; exact hcontext, hindex⟩
  · rw [hcontexts]
    exact h.contexts
  · intro i hhead
    cases new with
    | nil =>
        have hmem : Task.waitPoll i ∈ stack := List.mem_of_head? hhead
        exact absurd hmem (hstack i)
    | cons task' new => exact htop i hhead
  · intro i hmem
    cases new with
    | nil => exact hstack i (List.mem_of_mem_tail hmem)
    | cons task' new =>
        rcases List.mem_append.mp hmem with hmem | hmem
        · exact hbelow i hmem
        · exact hstack i hmem

/-- A task calls others, and nothing changes for blocked clients and {lit}`WAIT`s. -/
theorem Linear.pass (h : Linear ⟨s, task :: stack⟩) (hcontexts : s'.contexts = s.contexts)
    (htimers : s'.timers = s.timers) (hwaits : s'.waits = s.waits)
    (hcount : ∀ c, new.countP (fun task => task.continues = some c) ≤
      if task.continues = some c then 1 else 0)
    (hnew : ∀ task' ∈ new, task'.Positioned s) (hpoll : ∀ i, .waitPoll i ∉ new) :
    Linear ⟨s', new ++ stack⟩ := by
  refine h.calls hcontexts ?_ ?_ ?_ hnew ?_ ?_
  · intro c
    have := hcount c
    simp only [continuations, htimers, hwaits, List.countP_cons, List.countP_nil, decide_eq_true_eq]
    omega
  · rw [htimers]
    exact h.timers
  · rw [hwaits]
    exact h.waits
  · intro i hhead
    exact absurd (List.mem_of_head? hhead) (hpoll i)
  · intro i hmem
    exact hpoll i (List.mem_of_mem_tail hmem)

/-- A task calls others that do not go on with an {lit}`EXEC`. -/
theorem Linear.drop (h : Linear ⟨s, task :: stack⟩) (hcontexts : s'.contexts = s.contexts)
    (htimers : s'.timers = s.timers) (hwaits : s'.waits = s.waits)
    (hnew : ∀ task' ∈ new, task'.continues = none) (hpoll : ∀ i, .waitPoll i ∉ new) :
    Linear ⟨s', new ++ stack⟩ := by
  refine h.pass hcontexts htimers hwaits ?_ (fun task' hmem => positioned_of_none (hnew task' hmem))
    hpoll
  intro c
  have hzero : new.countP (fun task => task.continues = some c) = 0 := by
    rw [List.countP_eq_zero]
    intro task' hmem
    simp [hnew task' hmem]
  omega

/-- A task hands its callback on. -/
theorem Linear.hand (h : Linear ⟨s, task :: stack⟩) (hcontexts : s'.contexts = s.contexts)
    (htimers : s'.timers = s.timers) (hwaits : s'.waits = s.waits) {task' : Task}
    (hcontinues : task'.continues = task.continues) (hnext : ∀ c, task ≠ .runNext c)
    (hnext' : ∀ c, task' ≠ .runNext c) (hpoll : ∀ i, task' ≠ .waitPoll i) :
    Linear ⟨s', task' :: stack⟩ := by
  refine @Linear.pass s s' stack [task'] task h hcontexts htimers hwaits ?_ ?_ ?_
  · intro c
    simp [List.countP_cons, hcontinues]
  · intro task'' hmem
    rw [List.mem_singleton.mp hmem]
    cases task' with
    | runNext c => exact absurd rfl (hnext' c)
    | _ =>
        intro c hc
        rw [hcontinues] at hc
        exact (h.stack task List.mem_cons_self).awaits hnext hc
  · intro i hmem
    exact hpoll i (List.mem_singleton.mp hmem).symm

/-- The context of a task's {lit}`EXEC` moves on. -/
theorem Linear.advance (h : Linear ⟨s, task :: stack⟩) {c : Nat} {context context' : ExecContext}
    (htask : task.continues = some c) (hcontext : s.contexts[c]? = some context)
    (hs' : s'.contexts = s.contexts.set c context') (htimers : s'.timers = s.timers)
    (hwaits : s'.waits = s.waits) (hcommands : context'.commands = context.commands)
    (hresults : context'.results.length = context.results.length)
    (honReply : context'.onReply = context.onReply)
    (hindex : context'.index ≤ context'.commands.length) : Linear ⟨s', .runNext c :: stack⟩ := by
  have hlt : c < s.contexts.length := (List.getElem?_eq_some_iff.mp hcontext).1
  have hself : s'.contexts[c]? = some context' := by
    rw [hs', List.getElem?_set_self hlt]
  have hother : ∀ c', c' ≠ c → s'.contexts[c']? = s.contexts[c']? := by
    intro c' hne
    rw [hs', List.getElem?_set_ne (Ne.symm hne)]
  have hawaits : ∀ c', c' ≠ c → s.Awaits c' → s'.Awaits c' := by
    rintro c' hne ⟨context', hcontext', hindex'⟩
    exact ⟨context', by rw [hother c' hne]; exact hcontext', hindex'⟩
  rcases h.alone htask with ⟨hstack, htimer, hwait⟩
  refine ⟨?_, ?_, ?_, ?_, ?_, ?_, ?_⟩
  · intro c'
    have honce := h.once c'
    simp only [continuations, List.countP_cons, htask, continues_runNext, htimers, hwaits]
      at honce ⊢
    exact honce
  · intro task' hmem
    rcases List.mem_cons.mp hmem with rfl | hmem
    · exact ⟨context', hself, hindex⟩
    · have hold := h.stack task' (List.mem_cons_of_mem _ hmem)
      have hne := hstack task' hmem
      cases task' with
      | runNext c' =>
          rcases hold with ⟨context'', hcontext'', hindex''⟩
          have hne' : c' ≠ c := fun heq => hne (by rw [heq]; rfl)
          exact ⟨context'', by rw [hother c' hne']; exact hcontext'', hindex''⟩
      | _ =>
          intro c' hc'
          refine hawaits c' ?_ (hold c' hc')
          rintro rfl
          exact hne hc'
  · intro timer hmem c' hc'
    simp only [htimers] at hmem
    refine hawaits c' ?_ (h.timers timer hmem c' hc')
    rintro rfl
    exact htimer timer hmem hc'
  · intro w hmem c' hc'
    simp only [hwaits] at hmem
    refine hawaits c' ?_ (h.waits w hmem c' hc')
    rintro rfl
    exact hwait w hmem hc'
  · intro context'' hmem
    simp only [hs'] at hmem
    rcases List.mem_or_eq_of_mem_set hmem with hmem | rfl
    · exact h.contexts context'' hmem
    · have hold := h.contexts context (List.mem_of_getElem? hcontext)
      rw [hresults, hcommands, honReply]
      exact hold
  · rintro i ⟨⟩
  · intro i hmem
    exact h.below i hmem

/-- A new {lit}`EXEC` starts. -/
theorem Linear.start (h : Linear ⟨s, task :: stack⟩) {context : ExecContext}
    (htask : task.continues = none) (hs' : s'.contexts = s.contexts ++ [context])
    (htimers : s'.timers = s.timers) (hwaits : s'.waits = s.waits)
    (hresults : context.results.length = context.commands.length)
    (honReply : context.onReply.context = none) (hindex : context.index = 0) :
    Linear ⟨s', .runNext s.contexts.length :: stack⟩ := by
  have hold : ∀ (c : Nat) (context' : ExecContext), s.contexts[c]? = some context' →
      s'.contexts[c]? = some context' := by
    intro c context' hcontext'
    rw [hs', List.getElem?_append_left (List.getElem?_eq_some_iff.mp hcontext').1]
    exact hcontext'
  have hawaits : ∀ c, s.Awaits c → s'.Awaits c := by
    rintro c ⟨context', hcontext', hindex'⟩
    exact ⟨context', hold c context' hcontext', hindex'⟩
  have hfresh : ∀ {c}, s.Awaits c → c ≠ s.contexts.length := by
    rintro c ⟨context', hcontext', -⟩
    exact Nat.ne_of_lt (List.getElem?_eq_some_iff.mp hcontext').1
  refine ⟨?_, ?_, ?_, ?_, ?_, ?_, ?_⟩
  · intro c
    have honce := h.once c
    simp only [continuations, List.countP_cons, htask, continues_runNext, htimers, hwaits]
      at honce ⊢
    by_cases heq : c = s.contexts.length
    · -- nothing goes on with an EXEC that was not there before
      have hstack : stack.countP (fun task => task.continues = some c) = 0 := by
        rw [List.countP_eq_zero]
        intro task' hmem hc
        have hc' : task'.continues = some c := by simpa using hc
        have hpos := h.stack task' (List.mem_cons_of_mem _ hmem)
        cases task' with
        | runNext c' =>
            cases hc'
            rcases hpos with ⟨context', hcontext', -⟩
            exact Nat.ne_of_lt (List.getElem?_eq_some_iff.mp hcontext').1 heq
        | _ => exact hfresh (hpos c hc') heq
      have htimer : s.timers.countP (fun timer => timer.continues = some c) = 0 := by
        rw [List.countP_eq_zero]
        intro timer hmem hc
        exact hfresh (h.timers timer hmem c (by simpa using hc)) heq
      have hwait : s.waits.countP (fun w => w.continues = some c) = 0 := by
        rw [List.countP_eq_zero]
        intro w hmem hc
        exact hfresh (h.waits w hmem c (by simpa using hc)) heq
      rw [hstack, htimer, hwait]
      simp [heq]
    · have hne : ¬ some s.contexts.length = some c := by
        intro hsome
        exact heq (Option.some.inj hsome).symm
      simp only [hne, decide_false, Bool.false_eq_true, if_false, reduceCtorEq] at honce ⊢
      exact honce
  · intro task' hmem
    rcases List.mem_cons.mp hmem with rfl | hmem
    · refine ⟨context, ?_, by omega⟩
      rw [hs', List.getElem?_append_right (Nat.le_refl _)]
      simp
    · have hpos := h.stack task' (List.mem_cons_of_mem _ hmem)
      cases task' with
      | runNext c' =>
          rcases hpos with ⟨context', hcontext', hindex'⟩
          exact ⟨context', hold c' context' hcontext', hindex'⟩
      | _ => exact fun c hc => hawaits c (hpos c hc)
  · intro timer hmem c hc
    simp only [htimers] at hmem
    exact hawaits c (h.timers timer hmem c hc)
  · intro w hmem c hc
    simp only [hwaits] at hmem
    exact hawaits c (h.waits w hmem c hc)
  · intro context' hmem
    simp only [hs'] at hmem
    rcases List.mem_append.mp hmem with hmem | hmem
    · exact h.contexts context' hmem
    · rw [List.mem_singleton.mp hmem]
      exact ⟨hresults, honReply⟩
  · rintro i ⟨⟩
  · intro i hmem
    exact h.below i hmem

/-- The request of a timer is answered. -/
theorem Linear.answer (h : Linear ⟨s, task :: stack⟩) (hcontexts : s'.contexts = s.contexts)
    (hwaits : s'.waits = s.waits) {i : Nat} {timer timer' : Timer}
    (htimer : s.timers[i]? = some timer) (hpending : timer.status ≠ .done)
    (htimers : s'.timers = s.timers.set i timer') (hdone : timer'.status = .done)
    (htask : task.continues = none) {response : Bytes} {more : List Task}
    (hmore : ∀ task' ∈ more, task'.continues = none) (hpoll : ∀ i, .waitPoll i ∉ more) :
    Linear ⟨s', .reply timer.onReply response :: (more ++ stack)⟩ := by
  have hcontinues : timer.continues = timer.onReply.context := by
    simp [Timer.continues, hpending]
  have hcontinues' : timer'.continues = none := by simp [Timer.continues, hdone]
  refine @Linear.calls s s' stack (.reply timer.onReply response :: more) task h hcontexts ?_ ?_ ?_
    ?_ ?_ ?_
  · intro c
    have hset := @countP_set_of_getElem? Timer (fun timer => timer.continues = some c) s.timers i
      timer htimer timer'
    have hzero : more.countP (fun task => task.continues = some c) = 0 := by
      rw [List.countP_eq_zero]
      intro task' hmem
      simp [hmore task' hmem]
    simp only [continuations, htimers, hwaits, List.countP_cons, List.countP_nil, htask,
      continues_reply, hcontinues, hcontinues', hzero] at hset ⊢
    by_cases hc : timer.onReply.context = some c <;> simp [hc] at hset ⊢ <;> omega
  · intro timer'' hmem c hc
    rw [htimers] at hmem
    rcases List.mem_or_eq_of_mem_set hmem with hmem | rfl
    · exact h.timers timer'' hmem c hc
    · rw [hcontinues'] at hc
      cases hc
  · rw [hwaits]
    exact h.waits
  · intro task' hmem
    rcases List.mem_cons.mp hmem with rfl | hmem
    · intro c hc
      exact h.timers timer (List.mem_of_getElem? htimer) c (hcontinues.trans hc)
    · exact positioned_of_none (hmore task' hmem)
  · rintro i ⟨⟩
  · exact hpoll

end Frames

/-! ## Steps -/

section Steps

variable {P : HandlerId → RespValue → Prop} {s s' : Server} {stack new : List Task} {task : Task}
  {seen : List Nat}

/-- A handler's own callback belongs to no {lit}`EXEC`. -/
@[simp]
theorem context_onReply (h : HandlerId) (number : Nat) : (h.onReply number).context = none := by
  unfold HandlerId.onReply
  split <;> rfl

@[simp]
theorem context_directReply (h : HandlerId) (request : RespValue) (type : CommandType)
    (number : Nat) : (Server.directReply h request type number).context = none := by
  unfold Server.directReply
  split
  · rfl
  · exact context_onReply h number

/-- A command blocks: its callback is kept with a new timer. -/
theorem Linear.block (h : Linear ⟨s, task :: stack⟩) (hnext : ∀ c, task ≠ .runNext c)
    (hcontexts : s'.contexts = s.contexts) (hwaits : s'.waits = s.waits) {timer : Timer}
    (htimers : s'.timers = s.timers ++ [timer]) (hcontinues : timer.continues = task.continues) :
    Linear ⟨s', stack⟩ := by
  refine @Linear.calls s s' stack [] task h hcontexts ?_ ?_ ?_ (by simp) (by simp) (by simp)
  · intro c
    simp only [continuations, htimers, hwaits, List.countP_append, List.countP_cons,
      List.countP_nil, hcontinues]
    omega
  · intro timer' hmem c hc
    rw [htimers] at hmem
    rcases List.mem_append.mp hmem with hmem | hmem
    · exact h.timers timer' hmem c hc
    · rw [List.mem_singleton.mp hmem, hcontinues] at hc
      exact (h.stack task List.mem_cons_self).awaits hnext hc
  · rw [hwaits]
    exact h.waits

/-- A command on the keyspace hands its callback on. -/
theorem linear_settle {handler : HandlerId} {request : RespValue} {cmd : Command}
    {onReply : OnReply} (outcome : Outcome)
    (h : Linear ⟨s, .execute handler request cmd onReply :: stack⟩) :
    Linear ⟨(s.settle onReply outcome).1, (s.settle onReply outcome).2 ++ stack⟩ := by
  have hstatus : ∀ {kind id timeout}, (Timer.mk kind id onReply (Server.timerStatus timeout)).continues =
      onReply.context := by
    intro kind id timeout
    simp [Timer.continues, timerStatus_ne_done]
  cases outcome with
  | answer a =>
      have hwake : ∀ task ∈ Server.wakeTasks a.wake, task.continues = none ∧
          ∀ i, task ≠ .waitPoll i := by
        intro task hmem
        unfold Server.wakeTasks at hmem
        split at hmem <;> simp at hmem <;> subst hmem <;> simp [Task.continues]
      have hguard : ∀ task ∈ (if a.guarded then [Task.tryEnd onReply] else []),
          task.continues = none ∧ ∀ i, task ≠ .waitPoll i := by
        intro task hmem
        split at hmem <;> simp at hmem
        subst hmem
        simp [Task.continues]
      refine h.pass (settle_contexts _ _ _) ?_ ?_ ?_ ?_ ?_
      · simp only [Server.settle]
        split <;> rfl
      · simp only [Server.settle]
        split <;> rfl
      · intro c
        have hzero : ∀ {tasks : List Task}, (∀ task ∈ tasks, task.continues = none ∧
            ∀ i, task ≠ .waitPoll i) → tasks.countP (fun task => task.continues = some c) = 0 := by
          intro tasks htasks
          rw [List.countP_eq_zero]
          intro task hmem
          simp [(htasks task hmem).1]
        simp only [Server.settle, List.countP_append, List.countP_cons, hzero hwake, hzero hguard,
          continues_reply, continues_execute]
        by_cases hc : onReply.context = some c <;> simp [hc]
      · intro task hmem
        simp only [Server.settle, List.mem_append, List.mem_cons] at hmem
        rcases hmem with hmem | rfl | hmem
        · exact positioned_of_none (hwake task hmem).1
        · exact fun c hc => h.stack _ List.mem_cons_self c hc
        · exact positioned_of_none (hguard task hmem).1
      · intro i hmem
        simp only [Server.settle, List.mem_append, List.mem_cons, reduceCtorEq, false_or] at hmem
        rcases hmem with hmem | hmem
        · exact (hwake _ hmem).2 i rfl
        · exact (hguard _ hmem).2 i rfl
  | blockBlpop keys timeout => exact h.block (by simp) rfl rfl rfl hstatus
  | blockXread streams timeout => exact h.block (by simp) rfl rfl rfl hstatus

/-- {lit}`WAIT` keeps its callback with the poll that it starts. -/
theorem Linear.poll {handler : HandlerId} {request : RespValue} {cmd : Command}
    {onReply : OnReply} (h : Linear ⟨s, .execute handler request cmd onReply :: stack⟩)
    (hcontexts : s'.contexts = s.contexts) (htimers : s'.timers = s.timers) (wait : PendingWait)
    (hwaits : s'.waits = s.waits ++ [⟨wait, onReply, true⟩]) :
    Linear ⟨s', .waitPoll s.waits.length :: stack⟩ := by
  refine @Linear.calls s s' stack [.waitPoll s.waits.length] _ h hcontexts ?_ ?_ ?_ ?_ ?_ (by simp)
  · intro c
    simp only [continuations, List.countP_cons, List.countP_append, List.countP_nil,
      continues_execute, hwaits, htimers]
    by_cases hc : onReply.context = some c
    · simp [hc, Task.continues, WaitState.continues]
      omega
    · simp [hc, Task.continues, WaitState.continues]
  · rw [htimers]
    exact h.timers
  · intro w hmem c hc
    rw [hwaits] at hmem
    rcases List.mem_append.mp hmem with hmem | hmem
    · exact h.waits w hmem c hc
    · rw [List.mem_singleton.mp hmem] at hc
      exact h.stack _ List.mem_cons_self c (by simpa [WaitState.continues] using hc)
  · intro task hmem
    rw [List.mem_singleton.mp hmem]
    exact positioned_of_none rfl
  · rintro i ⟨⟩
    exact ⟨⟨wait, onReply, true⟩, by simp [hwaits], rfl⟩

/-- The last poll of a {lit}`WAIT` hands its callback on. -/
theorem Linear.count {wait : Nat} {w : WaitState} (h : Linear ⟨s, .waitPoll wait :: stack⟩)
    (hwait : s.waits[wait]? = some w) (hcontexts : s'.contexts = s.contexts)
    (htimers : s'.timers = s.timers)
    (hwaits : s'.waits = s.waits.set wait { w with active := false }) (response : Bytes) :
    Linear ⟨s', .reply w.onReply response :: stack⟩ := by
  rcases h.top wait rfl with ⟨w', hw', hactive⟩
  rw [hwait] at hw'
  cases hw'
  have hcontinues : w.continues = w.onReply.context := by simp [WaitState.continues, hactive]
  have hdone : (WaitState.mk w.wait w.onReply false).continues = none := rfl
  refine @Linear.calls s s' stack [.reply w.onReply response] _ h hcontexts ?_ ?_ ?_ ?_ (by simp)
    (by simp)
  · intro c
    have hset := @countP_set_of_getElem? WaitState (fun w => w.continues = some c) s.waits wait
      w hwait ⟨w.wait, w.onReply, false⟩
    simp only [continuations, List.countP_cons, List.countP_nil, continues_reply, hcontinues,
      hdone, hwaits, htimers] at hset ⊢
    by_cases hc : w.onReply.context = some c <;> simp [hc, Task.continues] at hset ⊢ <;> omega
  · rw [htimers]
    exact h.timers
  · intro w' hmem c hc
    rw [hwaits] at hmem
    rcases List.mem_or_eq_of_mem_set hmem with hmem | rfl
    · exact h.waits w' hmem c hc
    · cases hc
  · intro task hmem
    rw [List.mem_singleton.mp hmem]
    intro c hc
    exact h.waits w (List.mem_of_getElem? hwait) c (hcontinues.trans hc)

/-- A task on the stack. -/
theorem linear_calls (h : Linear ⟨s, task :: stack⟩) (htask : task.From P)
    (hanswered : Answered ⟨s, task :: stack⟩ seen) (hord : Orderly ⟨s, task :: stack⟩ .tick)
    (hacts : Acts env s task s' (.ok new)) : Linear ⟨s', new ++ stack⟩ := by
  cases hacts with
  | rejected | queued => exact h.drop rfl rfl rfl (by simp) (by simp)
  | controls | dispatched => exact h.drop rfl rfl rfl (by simp) (by simp)
  | @ran handler request cmd onReply body d outcome hbody hresult =>
      have hdata : Linear ⟨(s.withData d).record (.executed handler cmd.type request),
          .execute handler request cmd onReply :: stack⟩ :=
        h.hand (by rfl) (by rfl) (by rfl) (by rfl) (by simp) (by simp) (by simp)
      exact linear_settle outcome hdata
  | answered | transacted =>
      exact h.hand (by rfl) (by rfl) (by rfl) (by rfl) (by simp) (by simp) (by simp)
  | @started handler request cmd onReply htype hactive hclean hqueue =>
      rcases htask.2.2 (by rw [htype]; rfl) with ⟨number, rfl⟩
      exact h.start (by simp) rfl rfl rfl (by simp) (by simp) rfl
  | polls htype wait => exact h.poll rfl rfl wait rfl
  | @collected context c hcontext hindex type request response =>
      have hlength := (h.contexts c (List.mem_of_getElem? hcontext)).1
      split
      · exact h.advance rfl hcontext rfl rfl rfl rfl (by simp) rfl (by simp only; omega)
      · exact h.advance rfl hcontext rfl rfl rfl rfl (by simp) rfl (by simp only; omega)
  | @served key value id callback later d more hwaiters hpop =>
      have hqueued := hord.1
      rw [answers_served stack hwaiters hpop] at hqueued
      rcases (hanswered.blpop.waiter (show (id, callback) ∈ s.blpop.waiters key by
        simp [hwaiters])).2.2 with ⟨status, hstatus, htimer⟩
      refine @Linear.answer s _ stack _ h (by rfl) (by rfl) callback.timer _ _ htimer hstatus
        (modify_of_getElem? Timer.cancel htimer) ?_ rfl _ [.serveBlpop key]
        (by simp [Task.continues]) (by simp)
      exact cancel_status (hqueued _ List.mem_cons_self _ htimer)
  | @woke id callback results hread =>
      have hqueued := hord.1
      rw [answers_woke stack hread] at hqueued
      rcases hanswered.wakes List.mem_cons_self with ⟨status, hstatus, htimer⟩
      refine @Linear.answer s _ stack _ h (by rfl) (by rfl) callback.timer _ _ htimer hstatus
        (modify_of_getElem? Timer.cancel htimer) ?_ rfl _ [] (by simp) (by simp)
      exact cancel_status (hqueued _ List.mem_cons_self _ htimer)
  | @finished context c hcontext hindex =>
      refine h.drop rfl rfl rfl ?_ (by simp)
      intro task hmem
      rw [List.mem_singleton.mp hmem]
      exact (h.contexts c (List.mem_of_getElem? hcontext)).2
  | @next context c request cmd hcontext hrequest hparse hfind =>
      refine h.pass rfl rfl rfl ?_ ?_ (by simp)
      · intro c'
        simp [List.countP_cons, OnReply.context]
      · intro task hmem
        rw [List.mem_singleton.mp hmem]
        rintro c' ⟨⟩
        exact ⟨c, hcontext, (List.getElem?_eq_some_iff.mp hrequest).1⟩
  | @skipped context c request cmd hcontext hrequest hparse hfind =>
      have hlt := (List.getElem?_eq_some_iff.mp hrequest).1
      exact h.advance rfl hcontext rfl rfl rfl rfl (by simp) rfl (by simp only; omega)
  | counted hwait hpoll => exact h.count hwait (by rfl) (by rfl) (by rfl) _
  | copied key =>
      refine h.drop rfl rfl rfl ?_ ?_
      · intro task hmem
        rcases List.mem_map.mp hmem with ⟨registration, -, rfl⟩
        rfl
      · intro i hmem
        rcases List.mem_map.mp hmem with ⟨registration, -, heq⟩
        cases heq
  | _ => exact h.drop rfl rfl rfl (by simp) (by simp)

/-- The start of a run. -/
theorem linear_initial (registry : ReplicaRegistry) : Linear (.withReplicas registry) := by
  refine ⟨?_, ?_, ?_, ?_, ?_, ?_, ?_⟩ <;> simp [continuations]

/-- The stack of an idle thread. -/
theorem Linear.push (h : Linear ⟨s, []⟩) (hcontexts : s'.contexts = s.contexts)
    (htimers : s'.timers = s.timers) (hwaits : s'.waits = s.waits)
    (htask : task.continues = none)
    (htop : ∀ i, task = .waitPoll i → ∃ w ∈ s'.waits[i]?, w.active = true) :
    Linear ⟨s', [task]⟩ := by
  refine ⟨?_, ?_, ?_, ?_, ?_, ?_, by simp⟩
  · intro c
    have honce := h.once c
    simp only [continuations, List.countP_cons, List.countP_nil, htask, htimers, hwaits] at honce ⊢
    simpa using honce
  · intro task' hmem
    rw [List.mem_singleton.mp hmem]
    exact positioned_of_none htask
  · intro timer hmem c hc
    simp only [htimers] at hmem
    rcases h.timers timer hmem c hc with ⟨context, hcontext, hindex⟩
    exact ⟨context, by rw [hcontexts]; exact hcontext, hindex⟩
  · intro w hmem c hc
    simp only [hwaits] at hmem
    rcases h.waits w hmem c hc with ⟨context, hcontext, hindex⟩
    exact ⟨context, by rw [hcontexts]; exact hcontext, hindex⟩
  · rw [hcontexts]
    exact h.contexts
  · rintro i ⟨⟩
    exact htop i rfl

/-- Every event in which nothing is thrown and blocked clients are answered once. -/
theorem linear_step {t t' : StoreThread} {event : Event} (h : Linear t) (hfrom : t.From P)
    (hanswered : Answered t seen) (hord : Orderly t event)
    (hthrows : event = .tick →
      ∀ task ∈ t.stack.head?, ∀ s' e, t.server.act env task ≠ (s', .error e))
    (hstep : t.step env event = some t') : Linear t' := by
  cases moves_of_step hstep with
  | request s handler request => exact h.push rfl rfl rfl rfl (by simp)
  | idle s => exact h
  | calls stack hact =>
      exact linear_calls h (hfrom.stack _ List.mem_cons_self) hanswered hord (acts_of_act hact)
  | throws above onReply below hact => exact absurd hact (hthrows rfl _ rfl _ _)
  | @expires s i timer stack htimer harmed =>
      have hcontinues : (Timer.mk timer.kind timer.registration timer.onReply .queued).continues =
          timer.continues := by
        simp [Timer.continues, harmed]
      refine ⟨?_, h.stack, ?_, h.waits, h.contexts, h.top, h.below⟩
      · intro c
        have honce := h.once c
        have hset := @countP_set_of_getElem? Timer (fun timer => timer.continues = some c) s.timers i
          timer htimer ⟨timer.kind, timer.registration, timer.onReply, .queued⟩
        simp only [hcontinues] at hset
        have hsame := Nat.add_right_cancel hset
        simp only [continuations, Server.setTimer_timers, Server.setTimer_waits] at honce ⊢
        rw [hsame]
        exact honce
      · intro timer' hmem c hc
        rcases List.mem_or_eq_of_mem_set hmem with hmem | rfl
        · exact h.timers timer' hmem c hc
        · exact h.timers timer (List.mem_of_getElem? htimer) c (hcontinues ▸ hc)
  | @timeout s i timer htimer hqueued =>
      have hpending : timer.status ≠ .done := by simp [hqueued]
      have hidle : Linear ⟨s, [.tryEnd .discard]⟩ := h.push rfl rfl rfl rfl (by simp)
      unfold StoreThread.onTimeout
      refine @Linear.answer s _ [] _ hidle ?_ ?_ i timer { timer with status := .done } htimer
        hpending ?_ rfl rfl _ [] (by simp) (by simp) <;> (split <;> rfl)
  | @poll s i w hwait hactive =>
      refine h.push rfl rfl rfl rfl ?_
      rintro j ⟨⟩
      exact ⟨w, hwait, hactive⟩
  | attach | detach | ack => exact ⟨h.once, h.stack, h.timers, h.waits, h.contexts, h.top, h.below⟩

end Steps

end RedisClone
