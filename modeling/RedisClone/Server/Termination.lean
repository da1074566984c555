import RedisClone.Server.Completion
import RedisClone.Server.Continuations

/-!
# Termination

A handler on the store thread may serve blocked clients, resume suspended
{lit}`EXEC`s, and run commands of theirs that serve further clients.  It ends all the
same: a handler starts at most one {lit}`EXEC`, every callback of an {lit}`EXEC` moves
on in its queue, and the loops that serve clients take elements or waiters away.

Main results:

- Theorem {lit}`measure_lt_of_acts`: every task that does not throw makes the measure
  smaller.
-/

namespace RedisClone

variable {env : Env} {P : HandlerId → RespValue → Prop}

/-! ## The measure -/

/-- How many {lit}`EXEC`s a task may still start, counting the step to its command. -/
def Task.credits : Task → Nat
  | .handle _ _ _ => 2
  | .execute _ _ cmd _ => if cmd.type = .exec then 1 else 0
  | _ => 0

/-- The steps of a task up to the end of its command. -/
def Task.runs : Task → Nat
  | .execute _ _ _ _ => 1
  | .runNext _ => 2
  | _ => 0

/-- The steps of a task that only calls callbacks. -/
def Task.rounds (s : Server) : Task → Nat
  | .serveBlpop key => 2 * (s.data.listAt key).length + 1
  | .serveXread key => 2 * (s.xread.waiters key).length + 1
  | .wakeXread _ => 2
  | .waitPoll _ => 2
  | _ => 1

/-- The commands that {lit}`EXEC`s have still to run. -/
def Server.remaining (s : Server) : Nat :=
  (s.contexts.map fun c => c.commands.length - c.index).sum

/-- The measure of a state, compared lexicographically. -/
def StoreThread.measure (t : StoreThread) : ℕ ×ₗ ℕ ×ₗ ℕ ×ₗ ℕ :=
  toLex ((t.stack.map Task.credits).sum, toLex (t.server.remaining,
    toLex ((t.stack.map Task.runs).sum, (t.stack.map (Task.rounds t.server)).sum)))

/-! ## Comparing measures -/

section Compare

variable {s s' : Server} {stack new : List Task} {task : Task}

/-- The measure of the tasks that are called and of the task that calls them. -/
theorem measure_lt_of_starts (h : (new.map Task.credits).sum < task.credits) :
    (StoreThread.mk s' (new ++ stack)).measure < (StoreThread.mk s (task :: stack)).measure := by
  apply Prod.Lex.toLex_lt_toLex.mpr
  left
  simp only [List.map_append, List.map_cons, List.sum_append, List.sum_cons]
  omega

theorem measure_lt_of_remaining (hstarts : (new.map Task.credits).sum ≤ task.credits)
    (h : s'.remaining < s.remaining) :
    (StoreThread.mk s' (new ++ stack)).measure < (StoreThread.mk s (task :: stack)).measure := by
  rcases Nat.lt_or_eq_of_le hstarts with hlt | heq
  · exact measure_lt_of_starts hlt
  · refine Prod.Lex.toLex_lt_toLex.mpr (Or.inr ⟨?_, Prod.Lex.toLex_lt_toLex.mpr (Or.inl h)⟩)
    simp only [List.map_append, List.map_cons, List.sum_append, List.sum_cons, heq]

theorem measure_lt_of_runs (hstarts : (new.map Task.credits).sum ≤ task.credits)
    (hremaining : s'.remaining ≤ s.remaining) (h : (new.map Task.runs).sum < task.runs) :
    (StoreThread.mk s' (new ++ stack)).measure < (StoreThread.mk s (task :: stack)).measure := by
  rcases Nat.lt_or_eq_of_le hremaining with hlt | heq
  · exact measure_lt_of_remaining hstarts hlt
  · rcases Nat.lt_or_eq_of_le hstarts with hlt | heq'
    · exact measure_lt_of_starts hlt
    · refine Prod.Lex.toLex_lt_toLex.mpr (Or.inr ⟨?_, Prod.Lex.toLex_lt_toLex.mpr
        (Or.inr ⟨heq, Prod.Lex.toLex_lt_toLex.mpr (Or.inl ?_)⟩)⟩)
      · simp only [List.map_append, List.map_cons, List.sum_append, List.sum_cons, heq']
      · simp only [List.map_append, List.map_cons, List.sum_append, List.sum_cons]
        omega

/-- Lists and waiters only get fewer. -/
theorem rounds_le (hlists : ∀ key, (s'.data.listAt key).length ≤ (s.data.listAt key).length)
    (hwaiters : ∀ key, (s'.xread.waiters key).length ≤ (s.xread.waiters key).length)
    (task : Task) : task.rounds s' ≤ task.rounds s := by
  cases task with
  | serveBlpop key =>
      have := hlists key
      simp only [Task.rounds]
      omega
  | serveXread key =>
      have := hwaiters key
      simp only [Task.rounds]
      omega
  | _ => exact Nat.le_refl _

/-- The tasks that are called neither start nor run commands. -/
theorem measure_lt_of_rounds (hcontexts : s'.contexts = s.contexts)
    (hlists : ∀ key, (s'.data.listAt key).length ≤ (s.data.listAt key).length)
    (hwaiters : ∀ key, (s'.xread.waiters key).length ≤ (s.xread.waiters key).length)
    (hquiet : ∀ task' ∈ new, task'.credits = 0 ∧ task'.runs = 0)
    (h : (new.map (Task.rounds s')).sum < task.rounds s) :
    (StoreThread.mk s' (new ++ stack)).measure < (StoreThread.mk s (task :: stack)).measure := by
  have hstarts : (new.map Task.credits).sum = 0 :=
    List.sum_eq_zero fun n hn => by
      rcases List.mem_map.mp hn with ⟨task', hmem, rfl⟩
      exact (hquiet task' hmem).1
  have hruns : (new.map Task.runs).sum = 0 :=
    List.sum_eq_zero fun n hn => by
      rcases List.mem_map.mp hn with ⟨task', hmem, rfl⟩
      exact (hquiet task' hmem).2
  have hremaining : s'.remaining = s.remaining := by
    unfold Server.remaining
    rw [hcontexts]
  have hrest : (stack.map (Task.rounds s')).sum ≤ (stack.map (Task.rounds s)).sum :=
    List.sum_le_sum fun task _ => rounds_le hlists hwaiters task
  by_cases hpos : 0 < task.runs
  · exact measure_lt_of_runs (by omega) (by omega) (by omega)
  · by_cases hpos' : 0 < task.credits
    · exact measure_lt_of_starts (by omega)
    · refine Prod.Lex.toLex_lt_toLex.mpr (Or.inr ⟨?_, Prod.Lex.toLex_lt_toLex.mpr
        (Or.inr ⟨hremaining, Prod.Lex.toLex_lt_toLex.mpr (Or.inr ⟨?_, ?_⟩)⟩)⟩) <;>
        simp only [List.map_append, List.map_cons, List.sum_append, List.sum_cons] <;> omega

/-- A context moves on. -/
theorem remaining_set {c : Nat} {context context' : ExecContext}
    (hcontext : s.contexts[c]? = some context) (hs' : s'.contexts = s.contexts.set c context')
    (hcommands : context'.commands = context.commands) (hindex : context'.index = context.index + 1)
    (hlt : context.index < context.commands.length) : s'.remaining < s.remaining := by
  unfold Server.remaining
  rw [hs']
  generalize hcontexts : s.contexts = contexts at hcontext
  clear hcontexts hs'
  induction contexts generalizing c with
  | nil => simp at hcontext
  | cons first rest ih =>
      cases c with
      | zero =>
          cases hcontext
          simp only [List.set_cons_zero, List.map_cons, List.sum_cons, hcommands, hindex]
          omega
      | succ c =>
          have hlater := ih hcontext
          simp only [List.set_cons_succ, List.map_cons, List.sum_cons]
          omega

end Compare

/-! ## Tasks -/

section Tasks

variable {s s' : Server} {stack new : List Task} {task : Task}

/-- A pop takes elements away. -/
theorem length_listAt_lpop_le (d : Store) (key key' : Bytes) (count : Nat) :
    ((d.lpop key count).1.listAt key').length ≤ (d.listAt key').length := by
  by_cases heq : key' = key
  · subst heq
    have htake := congrArg List.length (Store.lpop_take d key' count)
    rw [List.length_append] at htake
    omega
  · rw [Store.listAt_congr (lpop_of_ne heq count)]

/-- The tasks behind a command on the keyspace run no commands. -/
theorem quiet_settle {onReply : OnReply} {outcome : Outcome} {task' : Task}
    (hmem : task' ∈ (s.settle onReply outcome).2) : task'.credits = 0 ∧ task'.runs = 0 := by
  rcases mem_settle hmem with ⟨key, rfl⟩ | ⟨key, rfl⟩ | ⟨response, rfl⟩ | rfl <;>
    exact ⟨rfl, rfl⟩

/-- A removed registration is nobody's waiter. -/
theorem length_waiters_unregister_le {κ : Type} (r : BlockingRegistry κ) (id : Nat) (key : Bytes) :
    ((r.unregister id).waiters key).length ≤ (r.waiters key).length := by
  rw [BlockingRegistry.waiters_unregister]
  split
  · exact List.length_filter_le _ _
  · exact Nat.le_refl _

/-- Every task that does not throw makes the measure smaller. -/
theorem measure_lt_of_acts (h : Linear ⟨s, task :: stack⟩) (hs : s.From P) (htask : task.From P)
    (hacts : Acts env s task s' (.ok new)) :
    (StoreThread.mk s' (new ++ stack)).measure < (StoreThread.mk s (task :: stack)).measure := by
  cases hacts with
  | rejected | queued => exact measure_lt_of_starts (by simp [Task.credits])
  | controls | dispatched =>
      refine measure_lt_of_starts ?_
      simp only [List.map_cons, List.map_nil, List.sum_cons, List.sum_nil, Task.credits]
      split <;> omega
  | @ran handler request cmd onReply body d outcome hbody hresult =>
      have hzero : ∀ f : Task → Nat, (∀ task' ∈ (((s.withData d).record
          (.executed handler cmd.type request)).settle onReply outcome).2, f task' = 0) →
          (((((s.withData d).record (.executed handler cmd.type request)).settle onReply
            outcome).2).map f).sum = 0 := by
        intro f hf
        refine List.sum_eq_zero fun n hn => ?_
        rcases List.mem_map.mp hn with ⟨task', hmem, rfl⟩
        exact hf task' hmem
      refine measure_lt_of_runs ?_ ?_ ?_
      · rw [hzero _ fun _ hmem => (quiet_settle hmem).1]
        exact Nat.zero_le _
      · unfold Server.remaining
        rw [settle_contexts]
        exact Nat.le_refl _
      · rw [hzero _ fun _ hmem => (quiet_settle hmem).2]
        exact Nat.one_pos
  | answered | transacted =>
      exact measure_lt_of_runs (by simp [Task.credits]) (Nat.le_refl _) (by simp [Task.runs])
  | started htype => exact measure_lt_of_starts (by simp [Task.credits, htype])
  | polls htype wait =>
      exact measure_lt_of_runs (by simp [Task.credits]) (Nat.le_refl _) (by simp [Task.runs])
  | @collected context c hcontext hindex type request response =>
      have hlength := (h.contexts c (List.mem_of_getElem? hcontext)).1
      refine measure_lt_of_remaining (by simp [Task.credits]) ?_
      split
      · exact remaining_set hcontext rfl rfl rfl (by omega)
      · exact remaining_set hcontext rfl rfl rfl (by omega)
  | @served key value id callback later d more hwaiters hpop =>
      refine measure_lt_of_rounds rfl ?_ (fun _ => Nat.le_refl _) (by simp [Task.credits, Task.runs])
        ?_
      · intro key'
        have hle := length_listAt_lpop_le s.data key key' 1
        rw [hpop] at hle
        exact hle
      · have hshorter := Store.length_listAt_lpop_one hpop
        have hdata : (((s.setData d).unregisterBlpop id).cancelTimer callback.timer).data = d := rfl
        simp only [List.map_cons, List.map_nil, List.sum_cons, List.sum_nil, Task.rounds, hdata]
        omega
  | @unserved key id callback later d hwaiters hpop =>
      refine measure_lt_of_rounds rfl ?_ (fun _ => Nat.le_refl _) (by simp) (by simp [Task.rounds])
      intro key'
      rcases hpop with hpop | ⟨-, rfl⟩
      · have hle := length_listAt_lpop_le s.data key key' 1
        rw [hpop] at hle
        exact hle
      · exact Nat.le_refl _
  | copied key =>
      refine measure_lt_of_rounds rfl (fun _ => Nat.le_refl _) (fun _ => Nat.le_refl _) ?_ ?_
      · intro task' hmem
        rcases List.mem_map.mp hmem with ⟨registration, -, rfl⟩
        exact ⟨rfl, rfl⟩
      · have hsum : ((s.xread.waiters key).map fun registration =>
            (Task.wakeXread registration).rounds s).sum = (s.xread.waiters key).length * 2 := by
          simp [Task.rounds]
        rw [List.map_map]
        refine Nat.lt_of_le_of_lt (Nat.le_of_eq hsum) ?_
        simp only [Task.rounds]
        omega
  | @woke id callback results hread =>
      refine measure_lt_of_rounds rfl (fun _ => Nat.le_refl _) ?_ (by simp [Task.credits, Task.runs])
        (by simp [Task.rounds])
      intro key
      exact length_waiters_unregister_le s.xread id key
  | finished hcontext hindex =>
      exact measure_lt_of_runs (by simp [Task.credits]) (Nat.le_refl _) (by simp [Task.runs])
  | @next context c request cmd hcontext hrequest hparse hfind =>
      rcases (hs.contexts c (List.mem_of_getElem? hcontext)).2 request
        (List.mem_of_getElem? hrequest) with ⟨-, cmd', hparse', htype⟩
      rw [hparse] at hparse'
      cases hparse'
      have hexec : cmd.type ≠ .exec := by
        intro hexec
        rw [hexec] at htype
        cases htype
      exact measure_lt_of_runs (by simp [Task.credits, hexec]) (Nat.le_refl _) (by simp [Task.runs])
  | @skipped context c request cmd hcontext hrequest hparse hfind =>
      exact measure_lt_of_remaining (by simp [Task.credits])
        (remaining_set hcontext rfl rfl rfl (List.getElem?_eq_some_iff.mp hrequest).1)
  | _ =>
      exact measure_lt_of_rounds rfl (fun _ => Nat.le_refl _) (fun _ => Nat.le_refl _)
        (by simp [Task.credits, Task.runs]) (by simp [Task.rounds])

end Tasks

end RedisClone
