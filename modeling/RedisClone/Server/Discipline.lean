import RedisClone.Command.DataTransitions
import RedisClone.Server.Provenance

/-!
# The discipline of the stack

A request is taken up only when nothing else runs, and what it calls is not
another request.  So a task that handles a request, or executes a command that
was sent directly, is alone on the stack; everything else on the stack belongs to
callbacks and to queued commands, which never control transactions.

Main results:

- Theorem {lit}`entryAlone_step`: such a task stays alone.
- Theorem {lit}`noEmptyList_step`: no list in the keyspace is ever empty.
-/

namespace RedisClone

variable {env : Env}

/-! ## Entry tasks -/

/-- The task handles a request, or executes a command that was sent directly. -/
def Task.isEntry : Task → Bool
  | .handle _ _ _ => true
  | .execute _ _ _ onReply => !onReply.isExec
  | _ => false

/-- An entry task is alone on the stack. -/
def EntryAlone (stack : List Task) : Prop :=
  ∀ task ∈ stack, task.isEntry = true → stack = [task]

/-- What follows a command on the keyspace is not an entry task. -/
theorem isEntry_settle {s : Server} {onReply : OnReply} {outcome : Outcome} {task : Task}
    (h : task ∈ (s.settle onReply outcome).2) : task.isEntry = false := by
  rcases mem_settle h with ⟨key, rfl⟩ | ⟨key, rfl⟩ | ⟨response, rfl⟩ | rfl <;> rfl

/-- Only an entry task calls an entry task, and then nothing else. -/
theorem isEntry_acts {s s' : Server} {task : Task} {new : List Task}
    (hacts : Acts env s task s' (.ok new)) {task' : Task} (hmem : task' ∈ new)
    (hentry : task'.isEntry = true) : task.isEntry = true ∧ new = [task'] := by
  cases hacts with
  | controls number hformat hparse htype hfind =>
      rw [List.mem_singleton.mp hmem]
      exact ⟨rfl, rfl⟩
  | dispatched number hformat hparse htype hidle hfind =>
      rw [List.mem_singleton.mp hmem]
      exact ⟨rfl, rfl⟩
  | ran hbody hresult => simp [isEntry_settle hmem] at hentry
  | served hwaiters hpop =>
      simp only [List.mem_cons, List.not_mem_nil, or_false] at hmem
      rcases hmem with rfl | rfl <;> contradiction
  | copied key =>
      rcases List.mem_map.mp hmem with ⟨registration, -, rfl⟩
      contradiction
  | written | dropped | propagated | passed | unawaited | unserved | waits | unknownWait =>
      simp at hmem
  | _ =>
      rw [List.mem_singleton.mp hmem] at hentry
      contradiction

/-- Behind an entry task there is nothing. -/
theorem EntryAlone.rest {task : Task} {rest : List Task} (h : EntryAlone (task :: rest))
    (hentry : task.isEntry = true) : rest = [] := by
  have halone := h task List.mem_cons_self hentry
  simpa using halone

/-- In a stack of several tasks there is no entry task. -/
theorem EntryAlone.not_entry {task : Task} {rest : List Task} (h : EntryAlone (task :: rest))
    (hrest : rest ≠ []) : task.isEntry = false := by
  by_contra hentry
  exact hrest (h.rest (by simpa using hentry))

/-- A part of a longer stack holds no entry task. -/
theorem EntryAlone.tail {task : Task} {rest : List Task} (h : EntryAlone (task :: rest))
    {task' : Task} (hmem : task' ∈ rest) : task'.isEntry = false := by
  by_contra hentry
  have halone := h task' (List.mem_cons_of_mem _ hmem) (by simpa using hentry)
  simp only [List.cons.injEq] at halone
  rw [halone.2] at hmem
  exact List.not_mem_nil hmem

/-- Every event keeps entry tasks alone. -/
theorem entryAlone_step {t t' : StoreThread} {event : Event} (h : EntryAlone t.stack)
    (hstep : t.step env event = some t') : EntryAlone t'.stack := by
  cases moves_of_step hstep with
  | request s handler request =>
      intro task hmem _
      rw [List.mem_singleton.mp hmem]
  | idle s => exact h
  | @calls s s' task new stack hact =>
      intro task' hmem hentry
      rcases List.mem_append.mp hmem with hnew | hold
      · rcases isEntry_acts (acts_of_act hact) hnew hentry with ⟨htask, hsingle⟩
        have hrest : stack = [] := EntryAlone.rest h htask
        simp only [hsingle, hrest, List.append_nil]
      · simp [EntryAlone.tail h hold] at hentry
  | throws above onReply below hact =>
      intro task' hmem hentry
      rcases List.mem_cons.mp hmem with rfl | hmem
      · contradiction
      · have hold : task'.isEntry = false := EntryAlone.tail h (by simp [hmem])
        simp [hold] at hentry
  | expires stack htimer harmed => exact h
  | timeout htimer hqueued =>
      intro task hmem hentry
      rw [List.mem_singleton.mp hmem] at hentry
      contradiction
  | poll hwait hactive =>
      intro task hmem hentry
      rw [List.mem_singleton.mp hmem] at hentry
      contradiction
  | attach | detach | ack => exact h

/-- A command of a queue does not control transactions. -/
theorem not_transaction_of_rest {P : HandlerId → RespValue → Prop} {h : HandlerId}
    {request : RespValue} {cmd : Command} {onReply : OnReply} {rest : List Task}
    (halone : EntryAlone (.execute h request cmd onReply :: rest)) (hrest : rest ≠ [])
    (hfrom : (Task.execute h request cmd onReply).From P) :
    Server.isTransactionCommand cmd.type = false := by
  have hentry := halone.not_entry hrest
  have hexec : onReply.isExec = true := by simpa [Task.isEntry] using hentry
  by_contra htype
  rcases hfrom.2.2 (by simpa using htype) with ⟨number, rfl⟩
  simp at hexec

/-! ## Data -/

/-- A command that throws leaves the data alone. -/
theorem error_of_dataActs {cmd : Command} {now : Reading} {d d' : Store} {e : Exception}
    (hd : d.NoEmptyList) (h : DataActs cmd now d (d', .error e)) : d' = d := by
  cases h with
  | poppedNone hpop => exact absurd hpop hd.lpop_one
  | threw => rfl

/-- What a task does to the data: a command on the keyspace runs, or a blocked client
is served. -/
theorem data_acts {s s' : Server} {task : Task} {r : Except Exception (List Task)}
    (hd : s.data.NoEmptyList) (hacts : Acts env s task s' r) :
    s'.data = s.data ∨
      (∃ h request cmd onReply outcome, task = .execute h request cmd onReply ∧
        DataActs cmd (env.reading s.readings) s.data (s'.data, .ok outcome) ∧
        s' = (((s.withData s'.data).record (.executed h cmd.type request)).settle onReply
          outcome).1) ∨
      (∃ key value more, task = .serveBlpop key ∧
        s.data.lpop key 1 = (s'.data, .ok (value :: more)) ∧ s'.transactions = s.transactions) := by
  cases hacts with
  | @ran h request cmd onReply body d outcome hbody hresult =>
      have hdata := @dataActs_of_dataCommand cmd (env.reading s.readings) s.data body hbody
      rw [hresult] at hdata
      have hsame : ((((s.withData d).record (.executed h cmd.type request)).settle onReply
          outcome).1).data = d := by
        rw [settle_data]
        rfl
      refine Or.inr (Or.inl ⟨h, request, cmd, onReply, outcome, rfl, ?_, ?_⟩)
      · rw [hsame]
        exact hdata
      · rw [hsame]
  | @threw h request cmd onReply body d e hbody hresult =>
      have hdata := @dataActs_of_dataCommand cmd (env.reading s.readings) s.data body hbody
      rw [hresult] at hdata
      exact Or.inl (error_of_dataActs hd hdata)
  | @served key value id callback later d more hwaiters hpop =>
      exact Or.inr (Or.inr ⟨key, value, more, rfl, hpop, rfl⟩)
  | unserved hwaiters hpop =>
      rcases hpop with hpop | ⟨-, rfl⟩
      · exact absurd hpop hd.lpop_one
      · exact Or.inl rfl
  | collected hcontext hindex type request response =>
      left
      split <;> rfl
  | _ => exact Or.inl rfl

/-- No task leaves an empty list behind. -/
theorem noEmptyList_acts {s s' : Server} {task : Task} {r : Except Exception (List Task)}
    (hd : s.data.NoEmptyList) (hacts : Acts env s task s' r) : s'.data.NoEmptyList := by
  rcases data_acts hd hacts with hsame | ⟨h, request, cmd, onReply, outcome, -, hdata, -⟩ |
    ⟨key, value, more, -, hpop, -⟩
  · rw [hsame]
    exact hd
  · exact noEmptyList_of_dataActs hd hdata
  · have hpopped := hd.lpop key 1
    rw [hpop] at hpopped
    exact hpopped

/-- No event leaves an empty list behind. -/
theorem noEmptyList_step {t t' : StoreThread} {event : Event} (hd : t.server.data.NoEmptyList)
    (hstep : t.step env event = some t') : t'.server.data.NoEmptyList := by
  cases moves_of_step hstep with
  | calls stack hact => exact noEmptyList_acts hd (acts_of_act hact)
  | throws above onReply below hact => exact noEmptyList_acts hd (acts_of_act hact)
  | timeout htimer hqueued =>
      rw [onTimeout_data]
      exact hd
  | _ => exact hd

end RedisClone
