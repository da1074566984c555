import RedisClone.Command.Expiry
import RedisClone.Server.Callbacks
import RedisClone.Server.Discipline

/-!
# Only write commands write

Replicas hear of write commands only, so nothing else may change what is stored.
{lit}`GET` and {lit}`TYPE` remove a key that has expired, which nobody can tell
from leaving it; everything else that is not a write command, and everything that is
left of it for later (the wake-up and the timeout of a blocked {lit}`XREAD`, the
polls of a {lit}`WAIT`), leaves the table alone.

Main results:

- Theorem {lit}`live_acts`: a task that belongs to no write command leaves the live
  entries alone.
- Theorem {lit}`only_writes_write`: the same for runs, and for the handling of one
  request.
-/

namespace RedisClone

open RespValue

/-! ## Live entries -/

/-- The live entries are the same at every time that does not lie before the clock
readings in between. -/
def LiveUnchanged (env : Env) (s s' : Server) : Prop :=
  ∀ now, (∀ i, s.readings ≤ i → i < s'.readings → (env.reading i).steady ≤ now) →
    s'.data.purge now = s.data.purge now

/-- The task belongs to a write command: it executes one, or it serves a blocked
{lit}`BLPOP`. -/
def Task.writes : Task → Bool
  | .execute _ _ cmd _ => isWriteCommand cmd.type
  | .serveBlpop _ => true
  | _ => false

/-- The event does not run a task of a write command. -/
def Reads (t : StoreThread) : Event → Prop
  | .tick => ∀ task ∈ t.stack.head?, task.writes = false
  | _ => True

variable {env : Env}

theorem LiveUnchanged.of_data {s s' : Server} (h : s'.data = s.data) : LiveUnchanged env s s' := by
  intro now _
  rw [h]

/-- One part of a run after the other. -/
theorem LiveUnchanged.trans {s s' s'' : Server} (hfirst : LiveUnchanged env s s')
    (hsecond : LiveUnchanged env s' s'') (hle : s.readings ≤ s'.readings)
    (hle' : s'.readings ≤ s''.readings) : LiveUnchanged env s s'' := by
  intro now hnow
  rw [hsecond now fun i hi hi' => hnow i (by omega) hi',
    hfirst now fun i hi hi' => hnow i hi (by omega)]

/-- What follows a command on the keyspace takes no clock reading. -/
@[simp]
theorem settle_readings (s : Server) (onReply : OnReply) (outcome : Outcome) :
    (s.settle onReply outcome).1.readings = s.readings := by
  cases outcome with
  | answer a =>
      simp only [Server.settle]
      split <;> rfl
  | _ => rfl

/-- What follows a command on the keyspace adds no {lit}`WAIT`. -/
@[simp]
theorem settle_waits (s : Server) (onReply : OnReply) (outcome : Outcome) :
    (s.settle onReply outcome).1.waits = s.waits := by
  cases outcome with
  | answer a =>
      simp only [Server.settle]
      split <;> rfl
  | _ => rfl

/-- No task takes a clock reading back. -/
theorem readings_acts {s s' : Server} {task : Task} {r : Except Exception (List Task)}
    (hacts : Acts env s task s' r) : s.readings ≤ s'.readings := by
  cases hacts with
  | ran hbody hresult =>
      rw [settle_readings]
      exact Nat.le_succ _
  | threw hbody hresult => exact Nat.le_succ _
  | collected hcontext hindex type request response => split <;> exact Nat.le_refl _
  | polls | counted | waits => exact Nat.le_succ _
  | _ => exact Nat.le_refl _

/-- A task that belongs to no write command leaves the live entries alone. -/
theorem live_acts {s s' : Server} {task : Task} {r : Except Exception (List Task)}
    (hd : s.data.NoEmptyList) (hacts : Acts env s task s' r) (htask : task.writes = false) :
    LiveUnchanged env s s' := by
  rcases data_acts hd hacts with hsame | ⟨h, request, cmd, onReply, outcome, rfl, hdata, hs'⟩ |
    ⟨key, value, more, rfl, -, -⟩
  · exact .of_data hsame
  · have hread : isWriteCommand cmd.type = false := htask
    have hreadings : s'.readings = s.readings + 1 := by
      rw [hs', settle_readings]
      rfl
    generalize hd' : s'.data = d' at hdata
    cases hdata with
    | replied | blocked | waits => exact .of_data hd'
    | @removed v htype hkey hexpired response =>
        -- the clock reading of the command is one of those in between
        intro now hnow
        have hle := hnow s.readings (Nat.le_refl _) (by omega)
        rw [hd', Store.purge_erase hkey (Store.expired_mono hle hexpired)]
    | written htype | pushed htype =>
        rcases htype with htype | htype <;> simp [htype, isWriteCommand] at hread
    | popped htype | blpopped htype | appended htype | created htype =>
        simp [htype, isWriteCommand] at hread
  · contradiction

/-- One event without a task of a write command. -/
theorem live_step {t t' : StoreThread} {event : Event} (hd : t.server.data.NoEmptyList)
    (hreads : Reads t event) (hstep : t.step env event = some t') :
    LiveUnchanged env t.server t'.server ∧ t.server.readings ≤ t'.server.readings := by
  cases moves_of_step hstep with
  | calls stack hact =>
      exact ⟨live_acts hd (acts_of_act hact) (hreads _ rfl), readings_acts (acts_of_act hact)⟩
  | throws above onReply below hact =>
      exact ⟨live_acts hd (acts_of_act hact) (hreads _ rfl), readings_acts (acts_of_act hact)⟩
  | @timeout s i timer htimer hqueued =>
      refine ⟨.of_data (onTimeout_data s i timer), ?_⟩
      unfold StoreThread.onTimeout
      split <;> exact Nat.le_refl _
  | _ => exact ⟨.of_data rfl, Nat.le_refl _⟩

/-- A run without a task of a write command. -/
theorem live_run {t t' : StoreThread} {events : List Event} (hd : t.server.data.NoEmptyList)
    (hreads : Execution.Along (StoreThread.step env) Reads t events)
    (hrun : t.run env events = some t') :
    LiveUnchanged env t.server t'.server := by
  have hstart : t.server.data.NoEmptyList ∧ LiveUnchanged env t.server t.server ∧
      t.server.readings ≤ t.server.readings :=
    ⟨hd, .of_data rfl, Nat.le_refl _⟩
  have hinv := @Execution.follow_invariant _ _ _
    (fun u => u.server.data.NoEmptyList ∧ LiveUnchanged env t.server u.server ∧
      t.server.readings ≤ u.server.readings) _
    (fun {u u' event} hu hevent hstep => ?_) _ _ _ hstart hreads hrun
  · exact hinv.2.1
  · rcases hu with ⟨hempty, hlive, hle⟩
    rcases live_step hempty hevent hstep with ⟨hlive', hle'⟩
    exact ⟨noEmptyList_step hempty hstep, hlive.trans hlive' hle hle', hle.trans hle'⟩

/-! ## Handling one request -/

/-- The task handles a request that is neither a write command nor {lit}`EXEC`. -/
def Task.Quiet (s : Server) : Task → Prop
  | .handle _ request _ =>
      ∀ cmd, parseCommand request = .ok cmd → isWriteCommand cmd.type = false ∧ cmd.type ≠ .exec
  | .execute _ _ cmd onReply =>
      isWriteCommand cmd.type = false ∧ cmd.type ≠ .exec ∧ onReply.isExec = false
  | .reply onReply _ => onReply.isExec = false
  | .tryEnd onReply => onReply.isExec = false
  | .waitPoll wait => ∀ w, s.waits[wait]? = some w → w.onReply.isExec = false
  | _ => False

/-- A quiet task belongs to no write command. -/
theorem Task.Quiet.reads {s : Server} {task : Task} (h : task.Quiet s) : task.writes = false := by
  cases task with
  | execute handler request cmd onReply => exact h.1
  | serveBlpop key => exact h.elim
  | _ => rfl

/-- What follows a command that is no write command. -/
theorem settle_quiet {s s' : Server} {type : CommandType} (hread : isWriteCommand type = false)
    {onReply : OnReply} (hexec : onReply.isExec = false) {outcome : Outcome}
    (hpossible : outcome.PossibleFor type) :
    ∀ task ∈ (s.settle onReply outcome).2, task.Quiet s' := by
  cases outcome with
  | answer a =>
      rcases hpossible with ⟨hblpop, hxread, -⟩
      have hwake : a.wake = none := by
        cases hwake : a.wake with
        | none => rfl
        | some wake =>
            exfalso
            cases wake with
            | blpop key =>
                rcases hblpop key hwake with htype | htype <;> simp [htype, isWriteCommand] at hread
            | xread key => simp [hxread key hwake, isWriteCommand] at hread
      intro task hmem
      simp only [Server.settle, hwake, Server.wakeTasks, List.nil_append, List.mem_cons] at hmem
      rcases hmem with rfl | hmem
      · exact hexec
      · split at hmem
        · rw [List.mem_singleton.mp hmem]
          exact hexec
        · contradiction
  | blockBlpop | blockXread =>
      intro task hmem
      contradiction

/-- A quiet task calls quiet tasks. -/
theorem quiet_acts {s s' : Server} {task : Task} {new : List Task}
    (htask : task.Quiet s) (hacts : Acts env s task s' (.ok new)) :
    ∀ task' ∈ new, task'.Quiet s' := by
  have hsingle : ∀ {task' : Task}, task'.Quiet s' → ∀ x ∈ [task'], x.Quiet s' := by
    intro task' hquiet x hx
    rw [List.mem_singleton.mp hx]
    exact hquiet
  cases hacts with
  | rejected | queued => exact hsingle (isExec_onReply _ _)
  | controls number hformat hparse =>
      exact hsingle ⟨(htask _ hparse).1, (htask _ hparse).2, isExec_onReply _ _⟩
  | dispatched number hformat hparse =>
      exact hsingle ⟨(htask _ hparse).1, (htask _ hparse).2, isExec_directReply _ _ _ _⟩
  | ran hbody hresult =>
      exact settle_quiet htask.1 htask.2.2
        (possibleFor_of_dataCommand hbody (congrArg Prod.snd hresult))
  | answered => exact hsingle htask.2.2
  | transacted => exact hsingle htask.2.2
  | started htype => exact absurd htype htask.2.1
  | polls htype wait =>
      refine hsingle fun w hw => ?_
      simp [Server.addWait] at hw
      rw [← hw]
      exact htask.2.2
  | counted hwait => exact hsingle (htask _ hwait)
  | collected => cases htask
  | written | dropped | propagated | passed | waits | unknownWait => simp
  | served | unawaited | unserved | copied | woke | finished | next | skipped => exact htask.elim

/-- A quiet task keeps the others quiet. -/
theorem quiet_rest {s s' : Server} {task task' : Task} {r : Except Exception (List Task)}
    (htask : task.Quiet s) (hacts : Acts env s task s' r) (hquiet : task'.Quiet s) :
    task'.Quiet s' := by
  -- only the polls depend on the state
  have hwaits : ∀ (i : Nat) (w' : WaitState), s'.waits[i]? = some w' → w'.onReply.isExec = false ∨
      ∃ w : WaitState, s.waits[i]? = some w ∧ w'.onReply = w.onReply := by
    intro i w' hw'
    cases hacts with
    | ran hbody hresult =>
        rw [settle_waits] at hw'
        exact Or.inr ⟨w', hw', rfl⟩
    | polls htype wait =>
        rcases List.getElem?_append.symm.trans hw' with hw'
        split at hw'
        · exact Or.inr ⟨w', hw', rfl⟩
        · rw [List.mem_singleton.mp (List.mem_of_getElem? hw')]
          exact Or.inl htask.2.2
    | @counted wait w hwait count hpoll =>
        rcases List.getElem?_set.symm.trans hw' with hw'
        split at hw'
        · split at hw' <;> cases hw'
          exact Or.inl (htask w hwait)
        · exact Or.inr ⟨w', hw', rfl⟩
    | collected => cases htask
    | _ => exact Or.inr ⟨w', hw', rfl⟩
  cases task' with
  | waitPoll wait =>
      intro w' hw'
      rcases hwaits wait w' hw' with hexec | ⟨w, hw, heq⟩
      · exact hexec
      · rw [heq]
        exact hquiet w hw
  | _ => exact hquiet

/-- All tasks are quiet. -/
def StoreThread.Quiet (t : StoreThread) : Prop :=
  ∀ task ∈ t.stack, task.Quiet t.server

/-- A step of a quiet thread. -/
theorem quiet_tick {t t' : StoreThread} (ht : t.Quiet) (hstep : t.step env .tick = some t') :
    t'.Quiet := by
  cases moves_of_step hstep with
  | idle s => exact ht
  | calls stack hact =>
      have htask := ht _ List.mem_cons_self
      intro task' hmem
      rcases List.mem_append.mp hmem with hnew | hold
      · exact quiet_acts htask (acts_of_act hact) task' hnew
      · exact quiet_rest htask (acts_of_act hact) (ht task' (List.mem_cons_of_mem _ hold))
  | throws above onReply below hact =>
      have htask := ht _ List.mem_cons_self
      intro task' hmem
      rcases List.mem_cons.mp hmem with rfl | hold
      · exact ht (.tryEnd onReply) (by simp)
      · exact quiet_rest htask (acts_of_act hact) (ht task' (by simp [hold]))

/-- A quiet thread reads. -/
theorem reads_ticks {t : StoreThread} (ht : t.Quiet) (n : Nat) :
    Execution.Along (StoreThread.step env) Reads t (List.replicate n .tick) := by
  induction n generalizing t with
  | zero => trivial
  | succ n ih =>
      refine ⟨fun task htask => (ht task (List.mem_of_head? htask)).reads, fun t' hstep => ?_⟩
      exact ih (quiet_tick ht hstep)

/-- In every reachable state, the tasks that belong to no write command leave the
live entries alone, however many of them run and whatever they are left from; and so
does the whole handling of a request that is neither a write command nor
{lit}`EXEC`. -/
theorem only_writes_write {registry : ReplicaRegistry} {events : List Event} {t : StoreThread}
    (hrun : (StoreThread.withReplicas registry).run env events = some t) :
    (∀ later t', Execution.Along (StoreThread.step env) Reads t later →
      t.run env later = some t' → LiveUnchanged env t.server t'.server) ∧
    ∀ handler request cmd n t', parseCommand request.value = .ok cmd →
      isWriteCommand cmd.type = false → cmd.type ≠ .exec →
      t.run env (.request handler request :: List.replicate n .tick) = some t' →
      LiveUnchanged env t.server t'.server := by
  have hd : t.server.data.NoEmptyList :=
    @Execution.follow_invariant _ _ _ (fun u => u.server.data.NoEmptyList) _
      (fun hu _ hstep => noEmptyList_step hu hstep) _ _ _ Store.NoEmptyList.empty
      (Execution.along_of_forall (P := fun _ => True) (fun _ _ => trivial) _) hrun
  refine ⟨fun later t' hreads hlater => live_run hd hreads hlater, ?_⟩
  intro handler request cmd n t' hparse hread hexec hlater
  have hreads : Execution.Along (StoreThread.step env) Reads t
      (.request handler request :: List.replicate n .tick) := by
    refine ⟨trivial, fun u hstep => reads_ticks ?_ n⟩
    cases moves_of_step hstep with
    | request s handler request =>
        intro task hmem
        rw [List.mem_singleton.mp hmem]
        intro cmd' hparse'
        rw [hparse] at hparse'
        cases hparse'
        exact ⟨hread, hexec⟩
  exact live_run hd hreads hlater

/-- A master on which two milliseconds pass between two clock readings. -/
def passingEnv : Env :=
  { sampleEnv with reading := fun i => ⟨2000000 * i, 0⟩ }

/-- {lit}`SET k v PX 1`. -/
def setsDeadline : List Event :=
  job 0 (.short (ascii "SET") [ascii "k", ascii "v", ascii "PX", ascii "1"]
    (Eq.refl true)) 3

/-- {lit}`GET k` removes the key behind its deadline, and the live entries are what
they were. -/
theorem only_writes_write_get :
    ∃ t t', (StoreThread.withReplicas .empty).run passingEnv setsDeadline = some t ∧
      t.run passingEnv (job 1 (.ofTexts (ascii "GET") [ascii "k"] (by decide) (by decide)) 3) =
        some t' ∧
      (t.server.data (ascii "k")).isSome = true ∧ t'.server.data (ascii "k") = none ∧
      LiveUnchanged passingEnv t.server t'.server := by
  have hfacts : ((StoreThread.withReplicas .empty).run passingEnv setsDeadline).bind (fun t =>
      (t.run passingEnv (job 1 (.ofTexts (ascii "GET") [ascii "k"] (by decide) (by decide)) 3)).map
        fun t' => ((t.server.data (ascii "k")).isSome, t'.server.data (ascii "k"))) =
      some (true, none) := by
    decide +kernel
  rcases Option.bind_eq_some_iff.mp hfacts with ⟨t, ht, hlater⟩
  rcases Option.map_eq_some_iff.mp hlater with ⟨t', ht', hvalues⟩
  rw [Prod.mk.injEq] at hvalues
  refine ⟨t, t', ht, ht', hvalues.1, hvalues.2, ?_⟩
  exact (only_writes_write ht).2 (.client 1) _ ⟨.get, ascii "GET", [ascii "k"]⟩ 3 t' rfl rfl
    (by decide) ht'

end RedisClone
