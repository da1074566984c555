import RedisClone.Server.Watching

/-!
# Registrations and connections

Three tables hold what is watched: {lit}`watchers_` and {lit}`id_to_keys_` of the
watch manager, and {lit}`watched_keys_` of each connection.  They are changed one
after the other, also when a connection is destroyed, and agree behind every
handler.

A connection is destroyed when nothing refers to it any more: the closures of its
requests and callbacks hold it, so none of its requests is being handled then, and
none comes later.

Main results:

- Theorem {lit}`evolves_acts`: the store thread changes the watch manager by
  {lit}`watch` and {lit}`unwatch` only.
- Theorem {lit}`registrations_mirror`: the tables agree in every run, identifiers are
  never used again, and a connection that ends its transaction, gives up its keys or is
  destroyed leaves no registration behind.
-/

namespace RedisClone

open RespValue

/-! ## The watch manager -/

namespace WatchManager

variable {κ : Type}

/-- The second manager comes from the first one by {lit}`watch` and {lit}`unwatch`. -/
inductive Evolves (m : WatchManager κ) : WatchManager κ → Prop
  | refl : Evolves m m
  | watch {m' : WatchManager κ} (h : Evolves m m') (key : Bytes) (callback : κ) :
      Evolves m (m'.watch key callback).1
  | unwatch {m' : WatchManager κ} (h : Evolves m m') (id : Nat) : Evolves m (m'.unwatch id)

/-- One part after the other. -/
theorem Evolves.trans {m m' m'' : WatchManager κ} (hfirst : Evolves m m')
    (hsecond : Evolves m' m'') : Evolves m m'' := by
  induction hsecond with
  | refl => exact hfirst
  | watch h key callback ih => exact ih.watch key callback
  | unwatch h id ih => exact ih.unwatch id

/-- {lit}`id_to_keys_` names one key for each identifier in use, at which it is
registered, and no queue of {lit}`watchers_` is empty. -/
structure Tidy (m : WatchManager κ) : Prop where
  mapped : ∀ {id keys}, m.idToKeys id = some keys →
    ∃ key callback, keys = [key] ∧ (id, callback) ∈ m.registrations key
  nonempty : ∀ key, m.watchers key ≠ some []
  fresh : ∀ {id}, m.nextId ≤ id → m.idToKeys id = none

theorem tidy_empty : (empty : WatchManager κ).Tidy :=
  ⟨fun h => by simp [empty] at h, fun key => by simp [empty], fun _ => rfl⟩

theorem Tidy.watch {m : WatchManager κ} (hm : m.Tidy) (key : Bytes) (callback : κ) :
    (m.watch key callback).1.Tidy := by
  constructor
  · intro id keys hkeys
    by_cases heq : id = m.nextId
    · subst heq
      simp only [WatchManager.watch, Function.update_self, hm.fresh (le_refl _), Option.getD_none,
        List.nil_append, Option.some.injEq] at hkeys
      exact ⟨key, callback, hkeys.symm, mem_registrations_watch.mpr (.inr ⟨rfl, rfl, rfl⟩)⟩
    · simp only [WatchManager.watch, Function.update_of_ne heq] at hkeys
      rcases hm.mapped hkeys with ⟨key', callback', hsingle, hmem⟩
      exact ⟨key', callback', hsingle, mem_registrations_watch.mpr (.inl hmem)⟩
  · intro key'
    by_cases heq : key' = key
    · simp [WatchManager.watch, heq]
    · simp only [WatchManager.watch, Function.update_of_ne heq]
      exact hm.nonempty key'
  · intro id hid
    simp only [WatchManager.watch] at hid ⊢
    rw [Function.update_of_ne (by omega)]
    exact hm.fresh (by omega)

/-- The rounds of {lit}`unwatch` leave no empty queue. -/
theorem nonempty_unwatchKeys {id : Nat} (keys : List Bytes)
    {watchers : Bytes → Option (List (Nat × κ))} (h : ∀ key, watchers key ≠ some []) (key : Bytes) :
    keys.foldl (fun watchers key => unwatchKey watchers id key) watchers key ≠ some [] := by
  induction keys generalizing watchers with
  | nil => exact h key
  | cons key' keys ih =>
      rw [List.foldl_cons]
      refine ih fun key'' => ?_
      unfold unwatchKey
      cases watchers key' with
      | none => exact h key''
      | some registrations =>
          simp only
          by_cases heq : key'' = key'
          · rw [heq, Function.update_self]
            split
            · simp
            · rename_i hrest
              intro hnil
              exact hrest (Option.some.inj hnil)
          · rw [Function.update_of_ne heq]
            exact h key''

theorem Tidy.unwatch {m : WatchManager κ} (hm : m.Tidy) (id : Nat) : (m.unwatch id).Tidy := by
  cases hkeys : m.idToKeys id with
  | none =>
      have hsame : m.unwatch id = m := by
        simp only [WatchManager.unwatch, hkeys]
      rw [hsame]
      exact hm
  | some keys =>
      have hids : (m.unwatch id).idToKeys = Function.update m.idToKeys id none := by
        simp only [WatchManager.unwatch, hkeys]
      have hnext : (m.unwatch id).nextId = m.nextId := by
        simp only [WatchManager.unwatch, hkeys]
      constructor
      · intro id' keys' hkeys'
        rw [hids] at hkeys'
        by_cases heq : id' = id
        · rw [heq, Function.update_self] at hkeys'
          contradiction
        · rw [Function.update_of_ne heq] at hkeys'
          rcases hm.mapped hkeys' with ⟨key, callback, hsingle, hmem⟩
          exact ⟨key, callback, hsingle, mem_registrations_unwatch.mpr
            ⟨hmem, fun hid => absurd hid heq⟩⟩
      · intro key
        simp only [WatchManager.unwatch, hkeys]
        exact nonempty_unwatchKeys keys hm.nonempty key
      · intro id' hid'
        rw [hnext] at hid'
        rw [hids]
        by_cases heq : id' = id
        · rw [heq, Function.update_self]
        · rw [Function.update_of_ne heq]
          exact hm.fresh hid'

theorem Evolves.tidy {m m' : WatchManager κ} (h : Evolves m m') (hm : m.Tidy) : m'.Tidy := by
  induction h with
  | refl => exact hm
  | watch h key callback ih => exact ih.watch key callback
  | unwatch h id ih => exact ih.unwatch id

/-- {lit}`unwatch` hands out no identifier. -/
theorem nextId_unwatch (m : WatchManager κ) (id : Nat) : (m.unwatch id).nextId = m.nextId := by
  unfold unwatch
  split <;> rfl

/-- Identifiers are never used again: the registrations with an identifier that was
handed out before are those from before. -/
theorem Evolves.kept {m m' : WatchManager κ} (h : Evolves m m') :
    m.nextId ≤ m'.nextId ∧ ∀ key id callback, (id, callback) ∈ m'.registrations key →
      id < m.nextId → (id, callback) ∈ m.registrations key := by
  induction h with
  | refl => exact ⟨le_refl _, fun _ _ _ hmem _ => hmem⟩
  | @watch m' h key callback ih =>
      rcases ih with ⟨hle, hkept⟩
      refine ⟨hle.trans (Nat.le_succ _), fun key' id callback' hmem hlt => ?_⟩
      rcases mem_registrations_watch.mp hmem with hold | ⟨-, rfl, -⟩
      · exact hkept key' id callback' hold hlt
      · omega
  | @unwatch m' h id ih =>
      rcases ih with ⟨hle, hkept⟩
      refine ⟨by rwa [nextId_unwatch], fun key' id' callback' hmem hlt => ?_⟩
      exact hkept key' id' callback' (mem_registrations_unwatch.mp hmem).1 hlt

/-- A connection gives up all its keys. -/
theorem evolves_clear (tm : TransactionManager) (m : WatchManager κ) :
    Evolves m (tm.clearWatches m).2 := by
  have hfold : ∀ (watched : List (Bytes × Nat)) (m' : WatchManager κ), Evolves m m' →
      Evolves m (watched.foldl (fun m watched => m.unwatch watched.2) m') := by
    intro watched
    induction watched with
    | nil => exact fun m' h => h
    | cons entry watched ih => exact fun m' h => ih _ (h.unwatch entry.2)
  exact hfold tm.watchedKeys m .refl

end WatchManager

open WatchManager

variable {env : Env}

/-! ## The store thread -/

/-- {lit}`WATCH` registers its keys one by one. -/
theorem evolves_watchKeys (h : HandlerId) (tm : TransactionManager) (m : WatchManager HandlerId)
    (keys : List Bytes) : Evolves m (Server.watchKeys h (tm, m) keys).2 := by
  induction keys generalizing tm m with
  | nil => exact .refl
  | cons key keys ih =>
      rw [watchKeys_cons]
      split
      · exact (Evolves.refl.watch key h).trans (ih _ _)
      · exact ih tm m

theorem evolves_transacts {h : HandlerId} {tm : TransactionManager} {m : WatchManager HandlerId}
    {cmd : Command} {change : TransactionManager × WatchManager HandlerId} {response : Bytes}
    (hchange : Transacts h tm m cmd change response) : Evolves m change.2 := by
  cases hchange with
  | begins htype => exact .refl
  | aborts | discards | unwatches => exact evolves_clear tm m
  | empties => exact evolves_clear tm.popQueuedCommands.1 m
  | watches htype hidle => exact evolves_watchKeys h tm m cmd.args

/-- The store thread changes the watch manager by {lit}`watch` and {lit}`unwatch`
only. -/
theorem evolves_acts {s s' : Server} {task : Task} {r : Except Exception (List Task)}
    (hacts : Acts env s task s' r) : Evolves s.watches s'.watches := by
  cases hacts with
  | ran hbody hresult =>
      rw [settle_watches]
      exact .refl
  | transacted hchange => exact evolves_transacts hchange
  | @started h request cmd onReply htype hactive hclean hqueue =>
      exact evolves_clear (s.transactions h).popQueuedCommands.1 s.watches
  | collected hcontext hindex type request response => split <;> exact .refl
  | _ => exact .refl

theorem evolves_step {t t' : StoreThread} {event : Event} (hstep : t.step env event = some t') :
    Evolves t.server.watches t'.server.watches := by
  cases moves_of_step hstep with
  | calls stack hact => exact evolves_acts (acts_of_act hact)
  | throws above onReply below hact => exact evolves_acts (acts_of_act hact)
  | timeout htimer hqueued =>
      rw [onTimeout_watches]
      exact .refl
  | _ => exact .refl

/-- No connection remembers a key twice. -/
def KeysOnce (transactions : HandlerId → TransactionManager) : Prop :=
  ∀ h, ((transactions h).watchedKeys.map Prod.fst).Nodup

/-- {lit}`WATCH` skips the keys that are watched already. -/
theorem keysOnce_watchKeys (h : HandlerId) (m : WatchManager HandlerId) {tm : TransactionManager}
    (htm : (tm.watchedKeys.map Prod.fst).Nodup) (keys : List Bytes) :
    ((Server.watchKeys h (tm, m) keys).1.watchedKeys.map Prod.fst).Nodup := by
  induction keys generalizing tm m with
  | nil => exact htm
  | cons key keys ih =>
      rw [watchKeys_cons]
      by_cases hnew : (tm.watchKey key).2 = true
      · rw [if_pos hnew]
        refine ih _ ?_
        rw [watchedKeys_associate hnew, List.map_append, List.nodup_append]
        refine ⟨htm, by simp, ?_⟩
        intro key' hmem key'' hmem' heq
        unfold TransactionManager.watchKey at hnew
        split at hnew
        · contradiction
        · rename_i hnone
          rcases List.mem_map.mp hmem with ⟨watched, hwatched, rfl⟩
          refine hnone (List.any_eq_true.mpr ⟨watched, hwatched, ?_⟩)
          simp only [List.map_cons, List.map_nil, List.mem_singleton] at hmem'
          simp [heq, hmem']
      · rw [if_neg hnew]
        exact ih _ htm

/-- Which keys a task changes: none, or those of a handler that it executes a command
for which controls transactions. -/
theorem watchedKeys_acts {s s' : Server} {task : Task} {r : Except Exception (List Task)}
    (hacts : Acts env s task s' r) (h : HandlerId) :
    (s'.transactions h).watchedKeys = (s.transactions h).watchedKeys ∨
      ∃ request cmd onReply, task = .execute h request cmd onReply ∧
        Server.isTransactionCommand cmd.type = true ∧
        ((s'.transactions h).watchedKeys = [] ∨ ∃ m keys,
          (s'.transactions h).watchedKeys =
            (Server.watchKeys h (s.transactions h, m) keys).1.watchedKeys) := by
  cases hacts with
  | @queued handler request cmd number hformat hparse htype hactive =>
      left
      by_cases heq : h = handler
      · subst heq
        simp [TransactionManager.queueCommand]
      · simp [Function.update_of_ne heq]
  | @ran handler request cmd onReply body d outcome hbody hresult =>
      left
      cases outcome with
      | answer a =>
          simp only [Server.settle]
          split
          · simp only [Server.notifyWrite_transactions]
            split <;> rfl
          · rfl
      | blockBlpop keys timeout => rfl
      | blockXread streams timeout => rfl
  | @transacted handler request cmd onReply change response hchange =>
      by_cases heq : h = handler
      · subst heq
        have hcontrols := hchange.isTransactionCommand
        simp only [Server.setTransaction_transactions, Function.update_self]
        cases hchange with
        | begins htype => exact Or.inl rfl
        | aborts | empties | discards | unwatches =>
            exact Or.inr ⟨request, cmd, onReply, rfl, hcontrols, Or.inl rfl⟩
        | watches htype hidle =>
            exact Or.inr ⟨request, cmd, onReply, rfl, hcontrols, Or.inr ⟨s.watches, cmd.args, rfl⟩⟩
      · left
        simp [Function.update_of_ne heq]
  | @started handler request cmd onReply htype hactive hclean hqueue =>
      by_cases heq : h = handler
      · subst heq
        refine Or.inr ⟨request, cmd, onReply, rfl, by rw [htype]; rfl, Or.inl ?_⟩
        simp only [Server.addContext_transactions, Server.setTransaction_transactions,
          Function.update_self]
        rfl
      · left
        simp [Function.update_of_ne heq]
  | collected hcontext hindex type request response =>
      left
      split <;> rfl
  | _ => exact Or.inl rfl

/-! ## Connections -/

/-- The connection that a handler is part of. -/
def HandlerId.connection : HandlerId → Option Nat
  | .client connection => some connection
  | .replication connection => some connection
  | .session => none

/-- The handler whose request is being handled. -/
def Task.owner : Task → Option HandlerId
  | .handle handler _ _ => some handler
  | .execute handler _ _ _ => some handler
  | _ => none

/-- The task may change what the handler watches. -/
def Task.mayControl (h : HandlerId) : Task → Bool
  | .handle handler _ _ => handler = h
  | .execute handler _ cmd _ => handler = h && Server.isTransactionCommand cmd.type
  | _ => false

/-- The store thread, and the connections that were destroyed. -/
structure Host where
  thread : StoreThread
  destroyed : List Nat

/-- What happens: something on the store thread, or the end of a connection. -/
inductive HostEvent where
  | store (event : Event)
  | destroy (connection : Nat)

/-- {lit}`TransactionManager::~TransactionManager`. -/
def Server.destroyManager (s : Server) (h : HandlerId) : Server :=
  s.setTransaction h ((s.transactions h).clearWatches s.watches)

/-- {lit}`Connection::~Connection`: the members go in the reverse order of their
declaration. -/
def Server.destroyConnection (s : Server) (connection : Nat) : Server :=
  (s.destroyManager (.replication connection)).destroyManager (.client connection)

/-- The connection that an event needs. -/
def Event.connection : Event → Option Nat
  | .request handler _ => handler.connection
  | _ => none

namespace Host

/-- A server that was just started. -/
def initial (registry : ReplicaRegistry) : Host :=
  ⟨.withReplicas registry, []⟩

/-- The connection of the handler is still there. -/
def Live (host : Host) (h : HandlerId) : Prop :=
  ∀ connection, h.connection = some connection → connection ∉ host.destroyed

/-- One event: a destroyed connection sends no requests, and a connection is destroyed
once and not while one of its requests is being handled. -/
def step (env : Env) (host : Host) : HostEvent → Option Host
  | .store event =>
      if ∀ connection ∈ event.connection, connection ∉ host.destroyed then
        (host.thread.step env event).map fun t => ⟨t, host.destroyed⟩
      else none
  | .destroy connection =>
      if connection ∉ host.destroyed ∧ ∀ task ∈ host.thread.stack, ∀ h ∈ task.owner,
          h.connection ≠ some connection then
        some ⟨⟨host.thread.server.destroyConnection connection, host.thread.stack⟩,
          connection :: host.destroyed⟩
      else none

/-- A sequence of events. -/
def run (env : Env) (host : Host) (events : List HostEvent) : Option Host :=
  Execution.follow (step env) host events

/-- What the tables have in common. -/
structure Mirrored (host : Host) : Prop where
  watching : Watching host.thread.server.transactions host.thread.server.watches
  tidy : host.thread.server.watches.Tidy
  keysOnce : KeysOnce host.thread.server.transactions
  requests : host.thread.From fun _ _ => True
  /-- A handler that is gone watches nothing and controls no transaction. -/
  gone : ∀ h, ¬ host.Live h → (host.thread.server.transactions h).watchedKeys = [] ∧
    ∀ task ∈ host.thread.stack, task.mayControl h = false

theorem mirrored_initial (registry : ReplicaRegistry) : (initial registry).Mirrored where
  watching := watching_initial
  tidy := tidy_empty
  keysOnce h := by simp [initial, TransactionManager.fresh]
  requests := ⟨from_initial.congr (fun _ => rfl) rfl, by simp [initial]⟩
  gone h hgone := by
    refine absurd ?_ hgone
    intro connection _
    simp [initial]

/-- A manager that is destroyed takes its registrations along. -/
theorem watching_destroyManager {s : Server} (hw : Watching s.transactions s.watches)
    (h : HandlerId) : Watching (s.destroyManager h).transactions (s.destroyManager h).watches :=
  hw.clear rfl

/-- A manager that is destroyed remembers no key, and the others remember theirs. -/
theorem watchedKeys_destroyManager (s : Server) (h h' : HandlerId) :
    ((s.destroyManager h).transactions h').watchedKeys =
      if h' = h then [] else (s.transactions h').watchedKeys := by
  unfold Server.destroyManager
  by_cases heq : h' = h
  · subst heq
    simp [TransactionManager.clearWatches]
  · simp [heq]

/-- The keys behind the end of a connection. -/
theorem watchedKeys_destroyConnection (s : Server) (connection : Nat) (h : HandlerId) :
    ((s.destroyConnection connection).transactions h).watchedKeys =
      if h.connection = some connection then [] else (s.transactions h).watchedKeys := by
  unfold Server.destroyConnection
  rw [watchedKeys_destroyManager, watchedKeys_destroyManager]
  cases h with
  | client c => by_cases heq : c = connection <;> simp [HandlerId.connection, heq]
  | replication c => by_cases heq : c = connection <;> simp [HandlerId.connection, heq]
  | session => simp [HandlerId.connection]

/-- The queues behind the end of a connection. -/
theorem queuedCommands_destroyConnection (s : Server) (connection : Nat) (h : HandlerId) :
    ((s.destroyConnection connection).transactions h).queuedCommands =
      (s.transactions h).queuedCommands := by
  have hone : ∀ (s : Server) (h h' : HandlerId),
      ((s.destroyManager h).transactions h').queuedCommands = (s.transactions h').queuedCommands := by
    intro s h h'
    unfold Server.destroyManager
    by_cases heq : h' = h
    · subst heq
      simp [TransactionManager.clearWatches]
    · simp [heq]
  unfold Server.destroyConnection
  rw [hone, hone]

/-- The watch manager behind the end of a connection. -/
theorem evolves_destroyConnection (s : Server) (connection : Nat) :
    Evolves s.watches (s.destroyConnection connection).watches :=
  (evolves_clear _ _).trans (evolves_clear _ _)

/-- What follows a command on the keyspace changes no transaction. -/
theorem mayControl_settle {s : Server} {onReply : OnReply} {outcome : Outcome} {task : Task}
    {h : HandlerId} (hmem : task ∈ (s.settle onReply outcome).2) : task.mayControl h = false := by
  rcases mem_settle hmem with ⟨key, rfl⟩ | ⟨key, rfl⟩ | ⟨response, rfl⟩ | rfl <;> rfl

/-- A task that may change what a handler watches comes from such a task: the queue of
an {lit}`EXEC` holds no command that controls transactions. -/
theorem mayControl_acts {s s' : Server} {task : Task} {new : List Task} {h : HandlerId}
    (hs : s.From fun _ _ => True) (htask : task.mayControl h = false)
    (hacts : Acts env s task s' (.ok new)) : ∀ task' ∈ new, task'.mayControl h = false := by
  intro task' hmem
  cases hacts with
  | @controls handler request cmd number hformat hparse htype hfind =>
      rw [List.mem_singleton.mp hmem]
      have hother : ¬ handler = h := by simpa [Task.mayControl] using htask
      simp [Task.mayControl, hother]
  | dispatched number hformat hparse htype hidle hfind =>
      rw [List.mem_singleton.mp hmem]
      simp [Task.mayControl, htype]
  | @next context c request cmd hcontext hrequest hparse hfind =>
      rw [List.mem_singleton.mp hmem]
      rcases (hs.contexts _ (List.mem_of_getElem? hcontext)).2 _ (List.mem_of_getElem? hrequest) with
        ⟨-, cmd', hcmd', htype⟩
      rw [hparse] at hcmd'
      cases hcmd'
      simp [Task.mayControl, htype]
  | ran hbody hresult => exact mayControl_settle hmem
  | served hwaiters hpop =>
      simp only [List.mem_cons, List.not_mem_nil, or_false] at hmem
      rcases hmem with rfl | rfl <;> rfl
  | copied key =>
      rcases List.mem_map.mp hmem with ⟨registration, -, rfl⟩
      rfl
  | written | dropped | propagated | passed | unawaited | unserved | waits | unknownWait =>
      simp at hmem
  | _ =>
      rw [List.mem_singleton.mp hmem]
      rfl

/-- A handler whose tasks do not change what it watches goes on watching the same. -/
theorem watchedKeys_of_mayControl {s s' : Server} {task : Task} {r : Except Exception (List Task)}
    {h : HandlerId} (hacts : Acts env s task s' r) (htask : task.mayControl h = false) :
    (s'.transactions h).watchedKeys = (s.transactions h).watchedKeys := by
  rcases watchedKeys_acts hacts h with hsame | ⟨request, cmd, onReply, rfl, htype, -⟩
  · exact hsame
  · simp [Task.mayControl, htype] at htask

/-- A handler that is gone stays so. -/
theorem gone_step {t t' : StoreThread} {event : Event} {h : HandlerId}
    (hfrom : t.From fun _ _ => True)
    (hgone : (t.server.transactions h).watchedKeys = [] ∧ ∀ task ∈ t.stack, task.mayControl h = false)
    (hevent : ∀ handler request, event = .request handler request → handler ≠ h)
    (hstep : t.step env event = some t') :
    (t'.server.transactions h).watchedKeys = [] ∧
      ∀ task ∈ t'.stack, task.mayControl h = false := by
  rcases hgone with ⟨hkeys, htasks⟩
  cases moves_of_step hstep with
  | request s handler request =>
      refine ⟨hkeys, fun task hmem => ?_⟩
      rw [List.mem_singleton.mp hmem]
      simpa [Task.mayControl] using hevent handler request rfl
  | idle s => exact ⟨hkeys, htasks⟩
  | calls stack hact =>
      have htask := htasks _ List.mem_cons_self
      refine ⟨(watchedKeys_of_mayControl (acts_of_act hact) htask).trans hkeys, ?_⟩
      intro task' hmem
      rcases List.mem_append.mp hmem with hnew | hold
      · exact mayControl_acts hfrom.server htask (acts_of_act hact) task' hnew
      · exact htasks task' (List.mem_cons_of_mem _ hold)
  | throws above onReply below hact =>
      have htask := htasks _ List.mem_cons_self
      refine ⟨(watchedKeys_of_mayControl (acts_of_act hact) htask).trans hkeys, ?_⟩
      intro task' hmem
      rcases List.mem_cons.mp hmem with rfl | hold
      · rfl
      · exact htasks task' (by simp [hold])
  | timeout htimer hqueued =>
      rw [onTimeout_transactions]
      refine ⟨hkeys, fun task hmem => ?_⟩
      rw [List.mem_singleton.mp hmem]
      rfl
  | poll hwait hactive =>
      refine ⟨hkeys, fun task hmem => ?_⟩
      rw [List.mem_singleton.mp hmem]
      rfl
  | expires | attach | detach | ack => exact ⟨hkeys, htasks⟩

/-- No task makes a connection remember a key twice. -/
theorem keysOnce_acts {s s' : Server} {task : Task} {r : Except Exception (List Task)}
    (hs : KeysOnce s.transactions) (hacts : Acts env s task s' r) : KeysOnce s'.transactions := by
  intro h
  rcases watchedKeys_acts hacts h with hsame | ⟨request, cmd, onReply, -, -, hnil | ⟨m, keys, heq⟩⟩
  · rw [hsame]
    exact hs h
  · rw [hnil]
    exact List.nodup_nil
  · rw [heq]
    exact keysOnce_watchKeys h m (hs h) keys

theorem keysOnce_step {t t' : StoreThread} {event : Event} (ht : KeysOnce t.server.transactions)
    (hstep : t.step env event = some t') : KeysOnce t'.server.transactions := by
  cases moves_of_step hstep with
  | calls stack hact => exact keysOnce_acts ht (acts_of_act hact)
  | throws above onReply below hact => exact keysOnce_acts ht (acts_of_act hact)
  | timeout htimer hqueued =>
      rw [onTimeout_transactions]
      exact ht
  | _ => exact ht

/-- What an event does. -/
theorem step_cases {host host' : Host} {event : HostEvent} (hstep : host.step env event = some host') :
    (∃ e t, event = .store e ∧ (∀ connection ∈ e.connection, connection ∉ host.destroyed) ∧
      host.thread.step env e = some t ∧ host' = ⟨t, host.destroyed⟩) ∨
    ∃ connection, event = .destroy connection ∧ connection ∉ host.destroyed ∧
      (∀ task ∈ host.thread.stack, ∀ h ∈ task.owner, h.connection ≠ some connection) ∧
      host' = ⟨⟨host.thread.server.destroyConnection connection, host.thread.stack⟩,
        connection :: host.destroyed⟩ := by
  cases event with
  | store e =>
      simp only [step] at hstep
      split at hstep
      · rename_i hlive
        rcases Option.map_eq_some_iff.mp hstep with ⟨t, ht, rfl⟩
        exact Or.inl ⟨e, t, rfl, hlive, ht, rfl⟩
      · contradiction
  | destroy connection =>
      simp only [step] at hstep
      split at hstep
      · rename_i hfree
        cases hstep
        exact Or.inr ⟨connection, rfl, hfree.1, hfree.2, rfl⟩
      · contradiction

/-- Every event changes the watch manager by {lit}`watch` and {lit}`unwatch` only. -/
theorem evolves {host host' : Host} {event : HostEvent} (hstep : host.step env event = some host') :
    Evolves host.thread.server.watches host'.thread.server.watches := by
  rcases step_cases hstep with ⟨e, t, -, -, ht, rfl⟩ | ⟨connection, -, -, -, rfl⟩
  · exact evolves_step ht
  · exact evolves_destroyConnection _ _

/-- Every event keeps the tables in step. -/
theorem mirrored_step {host host' : Host} {event : HostEvent} (hm : host.Mirrored)
    (hstep : host.step env event = some host') : host'.Mirrored := by
  have htidy := (evolves hstep).tidy hm.tidy
  rcases step_cases hstep with ⟨e, t, -, hlive, ht, rfl⟩ | ⟨connection, -, hnew, hfree, rfl⟩
  · refine ⟨watching_step hm.watching ht, htidy, keysOnce_step hm.keysOnce ht,
      from_step hm.requests (by cases e <;> trivial) ht, fun h hgone => ?_⟩
    refine gone_step hm.requests (hm.gone h hgone) ?_ ht
    rintro handler request rfl rfl
    exact hgone hlive
  · refine ⟨?_, htidy, ?_, ⟨hm.requests.server.congr
      (queuedCommands_destroyConnection _ connection) rfl, hm.requests.stack⟩, fun h hgone => ?_⟩
    · exact watching_destroyManager (watching_destroyManager hm.watching _) _
    · intro h
      rw [watchedKeys_destroyConnection]
      split
      · exact List.nodup_nil
      · exact hm.keysOnce h
    · rw [watchedKeys_destroyConnection]
      by_cases heq : h.connection = some connection
      · -- none of its requests is being handled
        refine ⟨if_pos heq, fun task hmem => ?_⟩
        have howner := hfree task hmem
        cases task with
        | handle handler request number =>
            have hne : handler ≠ h := fun hsame => howner handler rfl (by rw [hsame, heq])
            simpa [Task.mayControl] using hne
        | execute handler request cmd onReply =>
            have hne : handler ≠ h := fun hsame => howner handler rfl (by rw [hsame, heq])
            simp [Task.mayControl, hne]
        | _ => rfl
      · rw [if_neg heq]
        refine hm.gone h fun hlive => hgone fun c hc => ?_
        rw [List.mem_cons, not_or]
        refine ⟨fun hsame => heq (by rw [hc, hsame]), hlive c hc⟩

/-- The tables are in step in every run. -/
theorem mirrored_run {registry : ReplicaRegistry} {events : List HostEvent} {host : Host}
    (hrun : (initial registry).run env events = some host) : host.Mirrored :=
  Execution.follow_invariant (fun hm _ hstep => mirrored_step hm hstep) (mirrored_initial registry)
    (Execution.along_of_forall (P := fun _ => True) (fun _ _ => trivial) _) hrun

/-- Every run changes the watch manager by {lit}`watch` and {lit}`unwatch` only. -/
theorem evolves_run {host host' : Host} {events : List HostEvent}
    (hrun : host.run env events = some host') :
    Evolves host.thread.server.watches host'.thread.server.watches :=
  @Execution.follow_invariant _ _ _
    (fun u : Host => Evolves host.thread.server.watches u.thread.server.watches) _
    (fun hu _ hstep => hu.trans (evolves hstep)) _ _ _ .refl
    (Execution.along_of_forall (P := fun _ => True) (fun _ _ => trivial) _) hrun

end Host

/-- The command ends the transaction or gives up the watched keys. -/
def EndsWatching (tm : TransactionManager) (cmd : Command) : Prop :=
  ((cmd.type = .exec ∨ cmd.type = .discard) ∧ tm.inTransaction = true) ∨
    (cmd.type = .unwatch ∧ cmd.args = [])

/-- A command that ends the transaction or gives up the watched keys leaves none. -/
theorem watchedKeys_endsWatching {s s' : Server} {h : HandlerId} {request : RespValue}
    {cmd : Command} {onReply : OnReply} {r : Except Exception (List Task)}
    (hends : EndsWatching (s.transactions h) cmd)
    (hacts : Acts env s (.execute h request cmd onReply) s' r) :
    (s'.transactions h).watchedKeys = [] := by
  have hcontrols : Server.isTransactionCommand cmd.type = true := by
    rcases hends with ⟨htype | htype, -⟩ | ⟨htype, -⟩ <;> rw [htype] <;> rfl
  cases hacts with
  | threw hbody | ran hbody =>
      rw [dataCommand_of_controls hcontrols] at hbody
      contradiction
  | answered hbody hrefused =>
      exfalso
      unfold Refused at hrefused
      rcases hends with ⟨htype | htype, hactive⟩ | ⟨htype, hargs⟩ <;> simp only [htype] at hrefused
      · rw [hactive] at hrefused
        contradiction
      · rw [hactive] at hrefused
        contradiction
      · exact hrefused hargs
  | transacted hchange =>
      simp only [Server.setTransaction_transactions, Function.update_self]
      cases hchange with
      | begins htype | watches htype =>
          exfalso
          rcases hends with ⟨htype' | htype', -⟩ | ⟨htype', -⟩ <;> rw [htype] at htype' <;> cases htype'
      | aborts | empties | discards | unwatches => rfl
  | started htype hactive hclean hqueue =>
      simp only [Server.addContext_transactions, Server.setTransaction_transactions,
        Function.update_self]
      rfl
  | polls htype wait =>
      rw [htype] at hcontrols
      contradiction

/-- The registrations of a handler are the keys that it remembers. -/
theorem not_registered {transactions : HandlerId → TransactionManager} {m : WatchManager HandlerId}
    (hw : Watching transactions m) {h : HandlerId} (hnil : (transactions h).watchedKeys = [])
    (key : Bytes) (id : Nat) : (id, h) ∉ m.registrations key := by
  intro hmem
  have howned := (hw.owned hmem).1
  rw [hnil] at howned
  contradiction

/-- In every run, an identifier is registered for a key exactly if {lit}`id_to_keys_`
names the key for it, and exactly if one handler that is still there, and no other one,
remembers the key with it.  No handler remembers a key twice, no queue is empty, and
identifiers that were handed out are never used again.  Behind {lit}`EXEC` or
{lit}`DISCARD` in a transaction, {lit}`UNWATCH`, and the end of a connection there is no
registration left. -/
theorem registrations_mirror {registry : ReplicaRegistry} {events : List HostEvent} {host : Host}
    (hrun : (Host.initial registry).run env events = some host) :
    (∀ key id,
      ((∃ h, (id, h) ∈ host.thread.server.watches.registrations key) ↔
        key ∈ (host.thread.server.watches.idToKeys id).getD []) ∧
      (key ∈ (host.thread.server.watches.idToKeys id).getD [] ↔
        ∃! h, host.Live h ∧ (key, id) ∈ (host.thread.server.transactions h).watchedKeys)) ∧
    KeysOnce host.thread.server.transactions ∧
    (∀ key, host.thread.server.watches.watchers key ≠ some []) ∧
    (∀ later host', host.run env later = some host' →
      ∀ key id h, (id, h) ∈ host'.thread.server.watches.registrations key →
        id < host.thread.server.watches.nextId →
        (id, h) ∈ host.thread.server.watches.registrations key) ∧
    (∀ h request cmd onReply rest host',
      host.thread.stack = .execute h request cmd onReply :: rest →
      EndsWatching (host.thread.server.transactions h) cmd →
      host.step env (.store .tick) = some host' →
      ∀ key id, (id, h) ∉ host'.thread.server.watches.registrations key) ∧
    ∀ connection host', host.step env (.destroy connection) = some host' →
      ∀ h, h.connection = some connection →
        ∀ key id, (id, h) ∉ host'.thread.server.watches.registrations key := by
  have hm := Host.mirrored_run hrun
  refine ⟨fun key id => ?_, hm.keysOnce, hm.tidy.nonempty, ?_, ?_, ?_⟩
  · have hmapped : (∃ h, (id, h) ∈ host.thread.server.watches.registrations key) ↔
        key ∈ (host.thread.server.watches.idToKeys id).getD [] := by
      constructor
      · rintro ⟨h, hmem⟩
        rw [(hm.watching.owned hmem).2]
        exact List.mem_singleton_self key
      · intro hmem
        cases hkeys : host.thread.server.watches.idToKeys id with
        | none => simp [hkeys] at hmem
        | some keys =>
            rcases hm.tidy.mapped hkeys with ⟨key', h, rfl, hregistered⟩
            rw [hkeys, Option.getD_some, List.mem_singleton] at hmem
            rw [hmem]
            exact ⟨h, hregistered⟩
    refine ⟨hmapped, ?_⟩
    rw [← hmapped]
    constructor
    · rintro ⟨h, hmem⟩
      have howned := (hm.watching.owned hmem).1
      refine ⟨h, ⟨?_, howned⟩, ?_⟩
      · -- a handler that is gone remembers nothing
        by_contra hgone
        rw [(hm.gone h hgone).1] at howned
        contradiction
      · rintro h' ⟨-, hmem'⟩
        exact hm.watching.unique (hm.watching.registered hmem') hmem
    · rintro ⟨h, ⟨-, hmem⟩, -⟩
      exact ⟨h, hm.watching.registered hmem⟩
  · intro later host' hlater
    exact (Host.evolves_run hlater).kept.2
  · intro h request cmd onReply rest host' hstack hends hstep
    have hm' := Host.mirrored_step hm hstep
    refine not_registered hm'.watching ?_
    rcases Host.step_cases hstep with ⟨e, t, he, -, ht, rfl⟩ | ⟨connection, he, -⟩ <;> cases he
    rcases host with ⟨⟨s, stack⟩, destroyed⟩
    simp only at hstack
    subst hstack
    cases moves_of_step ht with
    | calls stack hact => exact watchedKeys_endsWatching hends (acts_of_act hact)
    | throws above onReply below hact => exact watchedKeys_endsWatching hends (acts_of_act hact)
  · intro connection host' hstep h hconnection
    have hm' := Host.mirrored_step hm hstep
    refine not_registered hm'.watching ?_
    rcases Host.step_cases hstep with ⟨e, t, he, -⟩ | ⟨connection', he, -, -, rfl⟩ <;> cases he
    rw [Host.watchedKeys_destroyConnection, if_pos hconnection]

/-- Two connections watch the same key, and one of them ends. -/
def watchAndEnd : List HostEvent :=
  (job 0 (.short (ascii "WATCH") [ascii "k", ascii "l", ascii "k"] (Eq.refl true)) 3 ++
    job 1 (.short (ascii "WATCH") [ascii "k"] (Eq.refl true)) 3).map .store ++
    [.destroy 0]

/-- The registration of the other one is left. -/
theorem registrations_mirror_end :
    ∃ host, (Host.initial .empty).run sampleEnv watchAndEnd = some host ∧
      host.thread.server.watches.registrations (ascii "k") = [(3, .client 1)] ∧
      ascii "k" ∈ (host.thread.server.watches.idToKeys 3).getD [] ∧
      ∃! h, host.Live h ∧ (ascii "k", 3) ∈ (host.thread.server.transactions h).watchedKeys := by
  have hfacts : ((Host.initial .empty).run sampleEnv watchAndEnd).map (fun host =>
      host.thread.server.watches.registrations (ascii "k")) = some [(3, .client 1)] := by
    decide +kernel
  rcases Option.map_eq_some_iff.mp hfacts with ⟨host, hrun, hregistered⟩
  rcases (registrations_mirror hrun).1 (ascii "k") 3 with ⟨hmapped, hlive⟩
  have hkey := hmapped.mp ⟨.client 1, by rw [hregistered]; exact List.mem_singleton_self _⟩
  exact ⟨host, hrun, hregistered, hkey, hlive.mp hkey⟩

end RedisClone
