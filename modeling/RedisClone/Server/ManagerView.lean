import RedisClone.Server.Transitions
import RedisClone.State.Serving

/-!
# The manager on the store thread

The store thread keeps the two registries, and its stack holds the rounds of the serving
loops that are still to come.  Seen through these, every step of the store thread is a
sequence of operations of {lit}`BlockingManager`: the server refines the manager with
arbitrary callbacks, and what holds for every run of the manager holds for the server.

Main results:

- Theorem {lit}`views_step`: a step of the store thread is matched by the manager.
- Theorem {lit}`blpop_registrations_served_once`: on the server, no {lit}`BLPOP`
  registration is served twice.
- Theorem {lit}`xread_registrations_woken_once`: nor is an {lit}`XREAD` registration
  called twice, unless two copies of it wait on the stack.
-/

namespace RedisClone

open BlockingManager

variable {env : Env}

/-! ## The view -/

/-- The round of a serving loop that a task stands for. -/
def Task.frame : Task → Option (ServeFrame XreadCallback)
  | .serveBlpop key => some (.loop key)
  | .wakeXread registration => some (.wake registration)
  | _ => none

/-- The manager is the one of the store thread: it has the same registries, and its loops
are those on the stack. -/
structure Views (t : StoreThread) (m : BlockingManager BlpopCallback XreadCallback) : Prop where
  blpop : m.blpop = t.server.blpop
  xread : m.xread = t.server.xread
  frames : m.frames = t.stack.filterMap Task.frame

/-- The {lit}`BLPOP` registration that an event serves. -/
def servesBlpop (t : StoreThread) : Event → List Nat
  | .tick =>
      match t.stack with
      | .serveBlpop key :: _ =>
          match t.server.blpop.waiters key, (t.server.data.lpop key 1).2 with
          | (id, _) :: _, .ok (_ :: _) => [id]
          | _, _ => []
      | _ => []
  | _ => []

/-- The {lit}`XREAD` registration that an event calls. -/
def wakesXread (t : StoreThread) : Event → List Nat
  | .tick =>
      match t.stack with
      | .wakeXread (id, _) :: _ => [id]
      | _ => []
  | _ => []

/-- A copied waiter is called while no other copy of it waits. -/
def WokenAlone (t : StoreThread) : Event → Prop
  | .tick =>
      match t.stack with
      | .wakeXread (id, _) :: rest => id ∉ copies (rest.filterMap Task.frame)
      | _ => True
  | _ => True

/-- The manager moves on, and serves and calls these registrations. -/
structure Matches (m m' : BlockingManager BlpopCallback XreadCallback) (served woken : List Nat)
    (alone : Prop) : Prop where
  moves : ∃ events, Execution.follow BlockingManager.step m events = some m' ∧
    (alone → Execution.Along BlockingManager.step Undisturbed m events)
  served : m'.served.map WaiterCall.id = m.served.map WaiterCall.id ++ served
  woken : m'.woken.map WaiterCall.id = m.woken.map WaiterCall.id ++ woken

section Matching

variable {m m' m'' : BlockingManager BlpopCallback XreadCallback} {served woken : List Nat}
  {alone : Prop}

/-- The manager does nothing. -/
theorem Matches.nothing : Matches m m [] [] alone :=
  ⟨⟨[], rfl, fun _ => trivial⟩, by simp, by simp⟩

/-- The manager takes one step. -/
theorem Matches.one {event : ManagerEvent BlpopCallback XreadCallback}
    (hstep : m.step event = some m') (hundisturbed : alone → Undisturbed m event)
    (hserved : m'.served.map WaiterCall.id = m.served.map WaiterCall.id ++ served)
    (hwoken : m'.woken.map WaiterCall.id = m.woken.map WaiterCall.id ++ woken) :
    Matches m m' served woken alone :=
  ⟨⟨[event], by simp [Execution.follow, hstep],
    fun halone => ⟨hundisturbed halone, fun _ _ => trivial⟩⟩, hserved, hwoken⟩

/-- An exception ends loops behind what the manager did. -/
theorem Matches.unwind (h : Matches m m' served woken alone) (count : Nat) :
    Matches m { m' with frames := m'.frames.drop count } served woken alone := by
  rcases h with ⟨⟨events, hrun, halong⟩, hserved, hwoken⟩
  refine ⟨⟨events ++ [.unwind count], ?_, fun halone => ?_⟩, hserved, hwoken⟩
  · rw [Execution.follow_append hrun]
    rfl
  · exact (halong halone).append hrun ⟨trivial, fun _ _ => trivial⟩

end Matching

/-! ## Steps -/

section Steps

variable {s s' : Server} {stack new : List Task} {task : Task}
  {m : BlockingManager BlpopCallback XreadCallback}

/-- Tasks that are no rounds, and a task that was none. -/
theorem Views.quiet (h : Views ⟨s, task :: stack⟩ m) (hblpop : s'.blpop = s.blpop)
    (hxread : s'.xread = s.xread) (htask : task.frame = none)
    (hnew : ∀ task' ∈ new, task'.frame = none) : Views ⟨s', new ++ stack⟩ m := by
  refine ⟨h.blpop.trans hblpop.symm, h.xread.trans hxread.symm, ?_⟩
  rw [h.frames, List.filterMap_append, List.filterMap_eq_nil_iff.mpr hnew]
  simp [htask]

/-- The topmost task is the innermost round. -/
theorem Views.frames_cons (h : Views ⟨s, task :: stack⟩ m) {frame : ServeFrame XreadCallback}
    (htask : task.frame = some frame) : m.frames = frame :: stack.filterMap Task.frame := by
  rw [h.frames]
  simp [htask]

/-- A task that is no round is below the loops that are running. -/
theorem Views.frames_quiet (h : Views ⟨s, task :: stack⟩ m) (htask : task.frame = none) :
    m.frames = stack.filterMap Task.frame := by
  rw [h.frames]
  simp [htask]

/-- A command on the keyspace. -/
theorem views_settle {onReply : OnReply} {outcome : Outcome} (h : Views ⟨s, task :: stack⟩ m)
    (htask : task.frame = none) :
    ∃ m', Matches m m' [] [] True ∧
      Views ⟨(s.settle onReply outcome).1, (s.settle onReply outcome).2 ++ stack⟩ m' := by
  have hframes := h.frames_quiet htask
  cases outcome with
  | answer a =>
      have hblpop : (s.settle onReply (.answer a)).1.blpop = s.blpop := by
        simp only [Server.settle]
        split <;> rfl
      have hxread : (s.settle onReply (.answer a)).1.xread = s.xread := by
        simp only [Server.settle]
        split <;> rfl
      have hrest : (Task.reply onReply a.response ::
          (if a.guarded then [.tryEnd onReply] else [])).filterMap Task.frame = [] := by
        cases a.guarded <;> rfl
      have hnew : ((s.settle onReply (.answer a)).2 ++ stack).filterMap Task.frame =
          (Server.wakeTasks a.wake).filterMap Task.frame ++ stack.filterMap Task.frame := by
        simp only [Server.settle, List.filterMap_append, hrest, List.append_nil]
      rcases hwake : a.wake with _ | ⟨key | key⟩
      · refine ⟨m, .nothing, h.blpop.trans hblpop.symm, h.xread.trans hxread.symm, ?_⟩
        rw [hnew, hwake, hframes]
        rfl
      · refine ⟨{ m with frames := .loop key :: m.frames },
          @Matches.one m _ [] [] True (.serveBlpop key) rfl (fun _ => trivial) (by simp) (by simp),
          h.blpop.trans hblpop.symm, h.xread.trans hxread.symm, ?_⟩
        rw [hnew, hwake, hframes]
        rfl
      · refine ⟨m, .nothing, h.blpop.trans hblpop.symm, h.xread.trans hxread.symm, ?_⟩
        rw [hnew, hwake, hframes]
        rfl
  | blockBlpop keys timeout =>
      refine ⟨_, @Matches.one m _ [] [] True (.registerBlpop keys ⟨onReply, s.timers.length⟩) rfl
        (fun _ => trivial) (by simp) (by simp), ?_, h.xread, hframes⟩
      simp only [h.blpop]
      rfl
  | blockXread streams timeout =>
      refine ⟨_, @Matches.one m _ [] [] True
        (.registerXread (streams.map Prod.fst) ⟨onReply, s.timers.length, streams⟩) rfl
        (fun _ => trivial) (by simp) (by simp), h.blpop, ?_, hframes⟩
      simp only [h.xread]
      rfl

/-- A task that does not throw. -/
theorem views_calls (h : Views ⟨s, task :: stack⟩ m) (hacts : Acts env s task s' (.ok new)) :
    ∃ m', Matches m m' (servesBlpop ⟨s, task :: stack⟩ .tick) (wakesXread ⟨s, task :: stack⟩ .tick)
        (WokenAlone ⟨s, task :: stack⟩ .tick) ∧
      Views ⟨s', new ++ stack⟩ m' := by
  cases hacts with
  | @ran handler request cmd onReply body d outcome hbody hresult =>
      have hviews : Views ⟨(s.withData d).record (.executed handler cmd.type request),
          .execute handler request cmd onReply :: stack⟩ m := ⟨h.blpop, h.xread, h.frames⟩
      rcases @views_settle _ stack _ m onReply outcome hviews rfl with ⟨m', ⟨hmoves, hs, hw⟩, hview⟩
      rcases hmoves with ⟨events, hrun, halong⟩
      exact ⟨m', ⟨⟨events, hrun, fun _ => halong trivial⟩, hs, hw⟩, hview⟩
  | @served key value id callback later d more hwaiters hpop =>
      have hframes := h.frames_cons rfl
      have hwaiters' : m.blpop.waiters key = (id, callback) :: later := by rw [h.blpop, hwaiters]
      have hpop' : (s.data.lpop key 1).2 = .ok (value :: more) := by rw [hpop]
      refine ⟨{ m with
          blpop := m.blpop.unregister id
          served := m.served ++ [⟨id, decide (m.blpop.Registered id)⟩] },
        @Matches.one m _ _ _ _ (.round true) ?_ ?_ ?_ ?_, ?_, h.xread, ?_⟩
      · simp [BlockingManager.step, BlockingManager.round, hframes, hwaiters']
      · simp [Undisturbed, hframes]
      · simp [servesBlpop, hwaiters, hpop']
      · simp [wakesXread]
      · simp only [h.blpop]
        rfl
      · rw [hframes]
        rfl
  | @unawaited key hwaiters =>
      have hframes := h.frames_cons rfl
      have hwaiters' : m.blpop.waiters key = [] := by rw [h.blpop, hwaiters]
      refine ⟨{ m with frames := stack.filterMap Task.frame },
        @Matches.one m _ _ _ _ (.round false) ?_ ?_ ?_ ?_, h.blpop, h.xread, rfl⟩
      · simp [BlockingManager.step, BlockingManager.round, hframes, hwaiters']
      · simp [Undisturbed, hframes]
      · simp [servesBlpop, hwaiters]
      · simp [wakesXread]
  | @unserved key id callback later d hwaiters hpop =>
      have hframes := h.frames_cons rfl
      have hwaiters' : m.blpop.waiters key = (id, callback) :: later := by rw [h.blpop, hwaiters]
      refine ⟨{ m with frames := stack.filterMap Task.frame },
        @Matches.one m _ _ _ _ (.round false) ?_ ?_ ?_ ?_, h.blpop, h.xread, rfl⟩
      · simp [BlockingManager.step, BlockingManager.round, hframes, hwaiters']
      · simp [Undisturbed, hframes]
      · rcases hpop with hempty | ⟨hfails, -⟩
        · simp [servesBlpop, hwaiters, hempty]
        · cases hresult : (s.data.lpop key 1).2 with
          | ok values =>
              rw [hresult] at hfails
              contradiction
          | error e => simp [servesBlpop, hwaiters, hresult]
      · simp [wakesXread]
  | copied key =>
      have hframes := h.frames_quiet rfl
      refine ⟨{ m with frames := (m.xread.waiters key).map .wake ++ m.frames },
        @Matches.one m _ _ _ _ (.serveXread key) rfl (fun _ => trivial) ?_ ?_, h.blpop, h.xread, ?_⟩
      · simp [servesBlpop]
      · simp [wakesXread]
      · simp only [hframes, h.xread, List.filterMap_append, List.filterMap_map]
        congr 1
        simp [Function.comp_def, Task.frame]
  | @woke id callback results hread =>
      have hframes := h.frames_cons rfl
      refine ⟨{ m with
          xread := m.xread.unregister id
          frames := stack.filterMap Task.frame
          woken := m.woken ++ [⟨id, decide (m.xread.Registered id)⟩] },
        @Matches.one m _ _ _ _ (.round true) ?_ ?_ ?_ ?_, h.blpop, ?_, rfl⟩
      · simp [BlockingManager.step, BlockingManager.round, hframes]
      · intro halone
        simp only [Undisturbed, hframes]
        exact halone
      · simp [servesBlpop]
      · simp [wakesXread]
      · simp only [h.xread]
        rfl
  | collected =>
      refine ⟨m, .nothing, h.quiet ?_ ?_ rfl (by simp [Task.frame])⟩
      · split <;> rfl
      · split <;> rfl
  | _ => exact ⟨m, .nothing, h.quiet rfl rfl rfl (by simp [Task.frame])⟩

/-- A task throws, and the loops above the {lit}`try` block end. -/
theorem views_throws {e : Exception} (h : Views ⟨s, task :: stack⟩ m)
    (hacts : Acts env s task s' (.error e)) {above below : List Task} {onReply : OnReply}
    {response : Bytes} (hstack : stack = above ++ .tryEnd onReply :: below) :
    ∃ m', Matches m m' (servesBlpop ⟨s, task :: stack⟩ .tick) (wakesXread ⟨s, task :: stack⟩ .tick)
        (WokenAlone ⟨s, task :: stack⟩ .tick) ∧
      Views ⟨s', .reply onReply response :: below⟩ m' := by
  have hbelow : (stack.filterMap Task.frame).drop (above.filterMap Task.frame).length =
      below.filterMap Task.frame := by
    rw [hstack, List.filterMap_append, List.drop_left]
    rfl
  cases hacts with
  | @wokeThrew id callback _ hread =>
      have hframes := h.frames_cons rfl
      refine ⟨_, Matches.unwind (@Matches.one m { m with
          xread := m.xread.unregister id
          frames := stack.filterMap Task.frame
          woken := m.woken ++ [⟨id, decide (m.xread.Registered id)⟩] } _ _ _ (.round true)
        ?_ ?_ ?_ ?_) (above.filterMap Task.frame).length, h.blpop, ?_, hbelow⟩
      · simp [BlockingManager.step, BlockingManager.round, hframes]
      · intro halone
        simp only [Undisturbed, hframes]
        exact halone
      · simp [servesBlpop]
      · simp [wakesXread]
      · simp only [h.xread]
        rfl
  | _ =>
      rw [← h.frames_quiet rfl] at hbelow
      exact ⟨_, Matches.nothing.unwind (above.filterMap Task.frame).length, h.blpop, h.xread,
        hbelow⟩

/-- The handler of a timer removes a registration; nothing is on the stack then. -/
theorem views_timeout (h : Views ⟨s, []⟩ m) (i : Nat) (timer : Timer) (alone : Prop) :
    ∃ m', Matches m m' [] [] alone ∧ Views (StoreThread.onTimeout s i timer) m' := by
  have hframes : m.frames = [] := h.frames
  unfold StoreThread.onTimeout
  cases timer.kind with
  | blpop =>
      refine ⟨{ m with blpop := m.blpop.unregister timer.registration },
        @Matches.one m _ [] [] alone (.unregisterBlpop timer.registration) rfl (fun _ => trivial)
          (by simp) (by simp), ?_, h.xread, hframes⟩
      simp only [h.blpop]
      rfl
  | xread =>
      refine ⟨{ m with xread := m.xread.unregister timer.registration },
        @Matches.one m _ [] [] alone (.unregisterXread timer.registration) rfl
          (by simp [Undisturbed, hframes, copies]) (by simp) (by simp), h.blpop, ?_, hframes⟩
      simp only [h.xread]
      rfl

end Steps

/-- A step of the store thread is matched by the manager. -/
theorem views_step {t t' : StoreThread} {event : Event}
    {m : BlockingManager BlpopCallback XreadCallback} (h : Views t m)
    (hstep : t.step env event = some t') :
    ∃ m', Matches m m' (servesBlpop t event) (wakesXread t event) (WokenAlone t event) ∧
      Views t' m' := by
  cases moves_of_step hstep with
  | calls stack hact => exact views_calls h (acts_of_act hact)
  | throws above onReply below hact => exact views_throws h (acts_of_act hact) rfl
  | timeout htimer hqueued => exact views_timeout h _ _ _
  | _ => exact ⟨m, .nothing, h.blpop, h.xread, h.frames⟩

/-! ## Runs -/

/-- A server that was just started. -/
theorem views_initial (registry : ReplicaRegistry) : Views (.withReplicas registry) empty :=
  ⟨rfl, rfl, rfl⟩

/-- On the server no {lit}`BLPOP` registration is served twice, in any run. -/
theorem blpop_registrations_served_once {registry : ReplicaRegistry} {events : List Event}
    {t : StoreThread} (hrun : StoreThread.run env (.withReplicas registry) events = some t) :
    (Execution.observe (StoreThread.step env) servesBlpop (.withReplicas registry)
      events).Nodup := by
  have hinv := @Execution.observe_invariant _ _ _ (StoreThread.step env) servesBlpop
    (fun t seen => ∃ m, m.ServesOnce ∧ Views t m ∧ m.served.map WaiterCall.id = seen)
    (fun _ _ => True) ?_ (.withReplicas registry) t events []
    ⟨empty, wakesOnce_empty.serves, views_initial registry, rfl⟩
    (Execution.along_of_forall (fun _ _ => trivial) _) hrun
  · rcases hinv with ⟨m, hm, -, hseen⟩
    rw [List.nil_append] at hseen
    rw [← hseen]
    exact hm.served.nodup
  · rintro t t' event seen ⟨m, hm, hviews, rfl⟩ - hstep
    rcases views_step hviews hstep with ⟨m', ⟨⟨events, hmoves, -⟩, hserved, -⟩, hviews'⟩
    refine ⟨m', ?_, hviews', hserved⟩
    exact Execution.follow_invariant (fun h _ hstep => servesOnce_step h hstep) hm
      (Execution.along_of_forall (fun _ _ => trivial) _) hmoves

/-- On the server no {lit}`XREAD` registration is called twice, in every run in which a
copied waiter is called while no other copy of it waits. -/
theorem xread_registrations_woken_once {registry : ReplicaRegistry} {events : List Event}
    {t : StoreThread} (halone : Execution.Along (StoreThread.step env) WokenAlone
      (.withReplicas registry) events)
    (hrun : StoreThread.run env (.withReplicas registry) events = some t) :
    (Execution.observe (StoreThread.step env) wakesXread (.withReplicas registry)
      events).Nodup := by
  have hinv := @Execution.observe_invariant _ _ _ (StoreThread.step env) wakesXread
    (fun t seen => ∃ m, m.WakesOnce ∧ Views t m ∧ m.woken.map WaiterCall.id = seen)
    WokenAlone ?_ (.withReplicas registry) t events []
    ⟨empty, wakesOnce_empty, views_initial registry, rfl⟩ halone hrun
  · rcases hinv with ⟨m, hm, -, hseen⟩
    rw [List.nil_append] at hseen
    rw [← hseen]
    exact hm.woken.nodup
  · rintro t t' event seen ⟨m, hm, hviews, rfl⟩ hone hstep
    rcases views_step hviews hstep with ⟨m', ⟨⟨events, hmoves, halong⟩, -, hwoken⟩, hviews'⟩
    exact ⟨m', Execution.follow_invariant wakesOnce_step hm (halong hone) hmoves, hviews', hwoken⟩

end RedisClone
