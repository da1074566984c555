import RedisClone.Server.Watching

/-!
# Conflicts on watched keys

A change of a watched key has to make the transaction dirty.  The commands report
the key that they write, and a push reports before it serves blocked clients, so
that the pops for those clients are covered as well.  Two changes are not reported:
the pop of a {lit}`BLPOP` that need not wait, and the empty stream that {lit}`XADD`
leaves behind when it rejects an identifier.

Main results:

- Theorem {lit}`watch_misses_no_conflict`: every other change of a watched key makes
  {lit}`EXEC` reply the null array and do nothing else.
- Theorem {lit}`watch_misses_blpop`: a {lit}`BLPOP` that is missed.
-/

namespace RedisClone

variable {env : Env}

/-! ## What a transaction keeps -/

/-- The handler watches the key. -/
def Watches (s : Server) (h : HandlerId) (key : Bytes) : Prop :=
  ∃ id, (key, id) ∈ (s.transactions h).watchedKeys

/-- The task is an {lit}`UNWATCH`, {lit}`DISCARD` or {lit}`EXEC` of the handler. -/
def Task.cancels (h : HandlerId) : Task → Bool
  | .execute h' _ cmd _ =>
      h' = h ∧ (cmd.type = .unwatch ∨ cmd.type = .discard ∨ cmd.type = .exec)
  | _ => false

/-- The command that a task executes. -/
def Task.executes : Task → Option CommandType
  | .execute _ _ cmd _ => some cmd.type
  | _ => none

/-- The watched keys and the dirty flag are still there. -/
structure Keeps (h : HandlerId) (s s' : Server) : Prop where
  watches : ∀ {key}, Watches s h key → Watches s' h key
  dirty : (s.transactions h).dirty = true → (s'.transactions h).dirty = true

namespace Keeps

variable {h : HandlerId} {s s' : Server}

/-- A transaction that did not change. -/
theorem of_eq (heq : s'.transactions h = s.transactions h) : Keeps h s s' := by
  constructor
  · intro key hkey
    unfold Watches
    rwa [heq]
  · rw [heq]
    exact id

/-- What follows a command on the keyspace. -/
theorem settle (onReply : OnReply) (outcome : Outcome) :
    Keeps h s (s.settle onReply outcome).1 := by
  cases outcome with
  | answer a =>
      cases hnotify : a.notify with
      | none =>
          simp only [Server.settle, hnotify]
          exact of_eq rfl
      | some key =>
          simp only [Server.settle, hnotify]
          constructor
          · rintro key' ⟨id, hmem⟩
            refine ⟨id, ?_⟩
            simp only [Server.notifyWrite_transactions]
            split <;> exact hmem
          · intro hdirty
            simp only [Server.notifyWrite_transactions]
            split
            · rfl
            · exact hdirty
  | blockBlpop keys timeout => exact of_eq rfl
  | blockXread streams timeout => exact of_eq rfl

end Keeps

/-- A task keeps the watched keys and the dirty flag, unless it cancels. -/
theorem keeps_acts {h : HandlerId} {s s' : Server} {task : Task}
    {r : Except Exception (List Task)} (hw : Watching s.transactions s.watches)
    (hkept : task.cancels h = false) (hacts : Acts env s task s' r) : Keeps h s s' := by
  cases hacts with
  | @queued h' request cmd number hformat hparse htype hactive =>
      by_cases heq : h' = h
      · subst heq
        constructor
        · rintro key ⟨id, hmem⟩
          exact ⟨id, by simpa [TransactionManager.queueCommand] using hmem⟩
        · intro hdirty
          simpa [TransactionManager.queueCommand] using hdirty
      · exact Keeps.of_eq (Function.update_of_ne (Ne.symm heq) _ _)
  | @ran h' request cmd onReply body d outcome hbody hresult =>
      have hsettle := @Keeps.settle h ((s.withData d).record (.executed h' cmd.type request)) onReply
        outcome
      exact ⟨hsettle.watches, hsettle.dirty⟩
  | @transacted h' request cmd onReply change response hchange =>
      by_cases heq : h' = h
      · subst heq
        cases hchange with
        | begins htype =>
            constructor
            · rintro key ⟨id, hmem⟩
              exact ⟨id, by simpa [TransactionManager.begin] using hmem⟩
            · intro hdirty
              simpa [TransactionManager.begin] using hdirty
        | aborts htype | empties htype | discards htype | unwatches htype =>
            simp [Task.cancels, htype] at hkept
        | watches htype hidle =>
            have hupdated : Watching (Function.update s.transactions h' (s.transactions h'))
                s.watches := by
              rw [Function.update_eq_self]
              exact hw
            rcases watchKeys_spec hupdated cmd.args with ⟨-, hkeys, hdirty, -⟩
            constructor
            · rintro key hold
              unfold Watches
              rw [Server.setTransaction_transactions, Function.update_self]
              exact (hkeys key).mp (Or.inr hold)
            · rw [Server.setTransaction_transactions, Function.update_self, hdirty]
              exact id
      · exact Keeps.of_eq (Function.update_of_ne (Ne.symm heq) _ _)
  | @started h' request cmd onReply htype hactive hclean hqueue =>
      by_cases heq : h' = h
      · simp [Task.cancels, heq, htype] at hkept
      · exact Keeps.of_eq (Function.update_of_ne (Ne.symm heq) _ _)
  | collected hcontext hindex type request response =>
      split <;> exact Keeps.of_eq rfl
  | _ => exact Keeps.of_eq rfl

/-- Only the commands on transactions make a handler watch a key. -/
theorem watches_of_acts {h : HandlerId} {key : Bytes} {s s' : Server} {task : Task}
    {r : Except Exception (List Task)}
    (htask : ∀ h' request cmd onReply, task = .execute h' request cmd onReply →
      Server.isTransactionCommand cmd.type = false)
    (hacts : Acts env s task s' r) (hkey : Watches s' h key) : Watches s h key := by
  cases hacts with
  | @queued h' request cmd number hformat hparse htype hactive =>
      rcases hkey with ⟨id, hmem⟩
      refine ⟨id, ?_⟩
      by_cases heq : h = h'
      · subst heq
        simpa [TransactionManager.queueCommand] using hmem
      · simpa [Function.update_of_ne heq] using hmem
  | @ran h' request cmd onReply body d outcome hbody hresult =>
      rcases hkey with ⟨id, hmem⟩
      refine ⟨id, ?_⟩
      cases outcome with
      | answer a =>
          simp only [Server.settle] at hmem
          split at hmem
          · simp only [Server.notifyWrite_transactions] at hmem
            split at hmem <;> exact hmem
          · exact hmem
      | blockBlpop keys timeout => exact hmem
      | blockXread streams timeout => exact hmem
  | transacted hchange =>
      have htype := htask _ _ _ _ rfl
      simp [hchange.isTransactionCommand] at htype
  | started htype hactive hclean hqueue =>
      have hno := htask _ _ _ _ rfl
      simp [htype, Server.isTransactionCommand] at hno
  | collected hcontext hindex type request response =>
      split at hkey <;> exact hkey
  | _ => exact hkey

/-! ## Reports -/

/-- What follows a command on the keyspace marks every watcher of the reported key. -/
theorem dirty_settle {s : Server} (hw : Watching s.transactions s.watches) {h : HandlerId}
    {key : Bytes} (hkey : Watches s h key) {a : Answer} (hnotify : a.notify = some key)
    (onReply : OnReply) :
    ((s.settle onReply (.answer a)).1.transactions h).dirty = true := by
  rcases hkey with ⟨id, hmem⟩
  have hnotified : h ∈ s.watches.notified key :=
    WatchManager.mem_notified.mpr ⟨id, hw.registered hmem⟩
  simp only [Server.settle, hnotify, Server.notifyWrite_transactions, if_pos hnotified]
  rfl

/-- Blocked clients are served only behind a report: whoever watches the key is
dirty. -/
def Attentive (t : StoreThread) : Prop :=
  ∀ key, .serveBlpop key ∈ t.stack → ∀ h, Watches t.server h key →
    (t.server.transactions h).dirty = true

/-- A command that wakes blocked clients reports the key. -/
theorem notify_of_wake {cmd : Command} {now : Reading} {d d' : Store} {a : Answer} {key : Bytes}
    (h : DataActs cmd now d (d', .ok (.answer a))) (hwake : a.wake = some (.blpop key)) :
    a.notify = some key := by
  cases h with
  | replied | removed | written | popped | blpopped | created => simp at hwake
  | pushed htype hargs =>
      cases hwake
      rfl
  | appended htype hargs hid => simp at hwake

/-- The clients that a task serves wait for a key whose watchers are dirty. -/
theorem dirty_of_serveBlpop {h : HandlerId} {key : Bytes} {s s' : Server} {task : Task}
    {new rest : List Task} (hw : Watching s.transactions s.watches)
    (hattentive : Attentive ⟨s, task :: rest⟩) (hacts : Acts env s task s' (.ok new))
    (hserve : .serveBlpop key ∈ new) (hkey : Watches s' h key) :
    (s'.transactions h).dirty = true := by
  cases hacts with
  | @ran h' request cmd onReply body d outcome hbody hresult =>
      have hdata := @dataActs_of_dataCommand cmd (env.reading s.readings) s.data body hbody
      rw [hresult] at hdata
      cases outcome with
      | answer a =>
          have hwake : a.wake = some (.blpop key) := by
            simp only [Server.settle, List.mem_append, List.mem_cons] at hserve
            rcases hserve with hserve | hserve | hserve
            · unfold Server.wakeTasks at hserve
              split at hserve <;> simp at hserve
              rename_i hwake
              rw [hwake, hserve]
            · cases hserve
            · split at hserve <;> simp at hserve
          have hnotify := notify_of_wake hdata hwake
          have hbefore : Watches ((s.withData d).record (.executed h' cmd.type request)) h key := by
            rcases hkey with ⟨id, hmem⟩
            simp only [Server.settle, hnotify, Server.notifyWrite_transactions] at hmem
            split at hmem <;> exact ⟨id, hmem⟩
          exact @dirty_settle ((s.withData d).record (.executed h' cmd.type request)) hw h key
            hbefore a hnotify onReply
      | blockBlpop keys timeout => simp [Server.settle] at hserve
      | blockXread streams timeout => simp [Server.settle] at hserve
  | served hwaiters hpop =>
      simp only [List.mem_cons, List.not_mem_nil, or_false, reduceCtorEq, false_or,
        Task.serveBlpop.injEq] at hserve
      subst hserve
      exact hattentive key List.mem_cons_self h hkey
  | copied key' =>
      rcases List.mem_map.mp hserve with ⟨registration, -, heq⟩
      cases heq
  | written | dropped | propagated | passed | unawaited | unserved | waits | unknownWait =>
      simp at hserve
  | _ => simp at hserve

/-- The state of the store thread, as far as watched keys are concerned. -/
structure Vigilant (t : StoreThread) : Prop where
  requests : t.From fun _ _ => True
  alone : EntryAlone t.stack
  watching : Watching t.server.transactions t.server.watches
  lists : t.server.data.NoEmptyList
  attentive : Attentive t

/-- Below another task, clients are served for keys whose watchers stay dirty. -/
theorem attentive_rest {s s' : Server} {task : Task} {rest : List Task}
    {r : Except Exception (List Task)} (hv : Vigilant ⟨s, task :: rest⟩)
    (hacts : Acts env s task s' r) {key : Bytes} (hserve : .serveBlpop key ∈ rest) {h : HandlerId}
    (hkey : Watches s' h key) : (s'.transactions h).dirty = true := by
  have htask : ∀ h' request cmd onReply, task = .execute h' request cmd onReply →
      Server.isTransactionCommand cmd.type = false := by
    rintro h' request cmd onReply rfl
    exact not_transaction_of_rest hv.alone (List.ne_nil_of_mem hserve)
      (hv.requests.stack _ List.mem_cons_self)
  have hkept : task.cancels h = false := by
    unfold Task.cancels
    split
    · rename_i h' request cmd onReply
      have htype := htask _ _ _ _ rfl
      simp only [Server.isTransactionCommand, decide_eq_false_iff_not, not_or] at htype
      simp [htype]
    · rfl
  have hold := hv.attentive key (List.mem_cons_of_mem _ hserve) h (watches_of_acts htask hacts hkey)
  exact (keeps_acts hv.watching hkept hacts).dirty hold

/-- Every event keeps the watchers of served keys dirty. -/
theorem vigilant_step {t t' : StoreThread} {event : Event} (hv : Vigilant t)
    (hstep : t.step env event = some t') : Vigilant t' := by
  have hrequests : t'.From fun _ _ => True := by
    refine from_step hv.requests ?_ hstep
    cases event <;> trivial
  refine ⟨hrequests, entryAlone_step hv.alone hstep, watching_step hv.watching hstep,
    noEmptyList_step hv.lists hstep, ?_⟩
  cases moves_of_step hstep with
  | request s handler request => simp [Attentive]
  | idle s => exact hv.attentive
  | calls stack hact =>
      intro key hserve h hkey
      rcases List.mem_append.mp hserve with hnew | hold
      · exact dirty_of_serveBlpop hv.watching hv.attentive (acts_of_act hact) hnew hkey
      · exact attentive_rest hv (acts_of_act hact) hold hkey
  | throws above onReply below hact =>
      intro key hserve h hkey
      have hold : .serveBlpop key ∈ above ++ .tryEnd onReply :: below := by
        simp only [List.mem_cons, reduceCtorEq, false_or] at hserve
        simp [hserve]
      exact attentive_rest hv (acts_of_act hact) hold hkey
  | expires stack htimer harmed => exact hv.attentive
  | timeout htimer hqueued => simp [Attentive, StoreThread.onTimeout]
  | poll hwait hactive => simp [Attentive]
  | attach | detach | ack => exact hv.attentive

/-- The start of a run. -/
theorem vigilant_initial (registry : ReplicaRegistry) : Vigilant (.withReplicas registry) := by
  refine ⟨⟨from_initial.congr (fun _ => rfl) rfl, by simp⟩, by simp [EntryAlone], watching_initial,
    Store.NoEmptyList.empty, by simp [Attentive]⟩

/-! ## Conflicts -/

/-- A task that changes a watched key makes the transaction dirty, if no value
expired, no {lit}`BLPOP` popped it and no empty stream was created. -/
theorem dirty_of_acts {s s' : Server} {task : Task} {rest : List Task}
    {r : Except Exception (List Task)} {h : HandlerId} {key : Bytes}
    (hv : Vigilant ⟨s, task :: rest⟩) (hkey : Watches s h key) (hacts : Acts env s task s' r)
    (hchange : s'.data key ≠ s.data key)
    (hlive : ∀ v, s.data key = some v → v.expired (env.reading s.readings).steady = false)
    (hblpop : task.executes ≠ some .blpop)
    (hstream : s'.data key ≠ some ⟨.stream [], none⟩) :
    (s'.transactions h).dirty = true := by
  rcases data_acts hv.lists hacts with hsame |
    ⟨h', request, cmd, onReply, outcome, rfl, hdata, hs'⟩ |
    ⟨key', value, more, rfl, hpop, htransactions⟩
  · exact absurd (congrFun hsame key) hchange
  · rcases changes_of_dataActs hv.lists hdata hchange with ⟨a, ha, hnotify⟩ |
      ⟨v, hvalue, hexpired⟩ | ⟨htype, -⟩ | ⟨-, -, hempty⟩
    · cases ha
      rw [hs']
      exact @dirty_settle ((s.withData s'.data).record (.executed h' cmd.type request))
        hv.watching h key hkey a hnotify onReply
    · rw [hlive v hvalue] at hexpired
      contradiction
    · exact absurd (congrArg some htype) hblpop
    · exact absurd hempty hstream
  · have heq : key = key' := by
      by_contra hne
      have hother := @lpop_of_ne s.data _ _ hne 1
      rw [hpop] at hother
      exact hchange hother
    subst heq
    rw [htransactions]
    exact hv.attentive key List.mem_cons_self h hkey

/-- The same for an event. -/
theorem dirty_of_change {t t' : StoreThread} {event : Event} {h : HandlerId} {key : Bytes}
    (hv : Vigilant t) (hkey : Watches t.server h key) (hstep : t.step env event = some t')
    (hchange : t'.server.data key ≠ t.server.data key)
    (hlive : ∀ v, t.server.data key = some v →
      v.expired (env.reading t.server.readings).steady = false)
    (hblpop : t.stack.head?.bind Task.executes ≠ some .blpop)
    (hstream : t'.server.data key ≠ some ⟨.stream [], none⟩) :
    (t'.server.transactions h).dirty = true := by
  cases moves_of_step hstep with
  | calls stack hact => exact dirty_of_acts hv hkey (acts_of_act hact) hchange hlive hblpop hstream
  | throws above onReply below hact =>
      exact dirty_of_acts hv hkey (acts_of_act hact) hchange hlive hblpop hstream
  | timeout htimer hqueued =>
      rw [onTimeout_data] at hchange
      exact absurd rfl hchange
  | _ => exact absurd rfl hchange

/-- No {lit}`UNWATCH`, {lit}`DISCARD` or {lit}`EXEC` of the handler is executed. -/
def CancelsNothing (h : HandlerId) (t : StoreThread) : Event → Prop
  | .tick => ∀ task ∈ t.stack.head?, task.cancels h = false
  | _ => True

instance (h : HandlerId) (t : StoreThread) : (event : Event) → Decidable (CancelsNothing h t event)
  | .tick => inferInstanceAs (Decidable (∀ task ∈ t.stack.head?, task.cancels h = false))
  | .request _ _ | .expire _ | .timeout _ | .poll _ | .attach | .detach _ | .ack _ _ =>
      .isTrue trivial

/-- Events that cancel nothing keep the watched keys and the dirty flag. -/
theorem keeps_step {t t' : StoreThread} {event : Event} {h : HandlerId} (hv : Vigilant t)
    (hkept : CancelsNothing h t event) (hstep : t.step env event = some t') :
    Keeps h t.server t'.server := by
  cases moves_of_step hstep with
  | calls stack hact => exact keeps_acts hv.watching (hkept _ rfl) (acts_of_act hact)
  | throws above onReply below hact =>
      exact keeps_acts hv.watching (hkept _ rfl) (acts_of_act hact)
  | @timeout s i timer htimer hqueued =>
      exact Keeps.of_eq (congrFun (onTimeout_transactions s i timer) h)
  | _ => exact Keeps.of_eq rfl

/-- Runs that cancel nothing keep them as well. -/
theorem keeps_run {t t' : StoreThread} {events : List Event} {h : HandlerId} (hv : Vigilant t)
    (hkept : Execution.Along (StoreThread.step env) (CancelsNothing h) t events)
    (hrun : t.run env events = some t') : Vigilant t' ∧ Keeps h t.server t'.server := by
  refine @Execution.follow_invariant _ _ _ (fun u => Vigilant u ∧ Keeps h t.server u.server) _ ?_ _ _ _
    ⟨hv, Keeps.of_eq rfl⟩ hkept hrun
  rintro u u' event ⟨hvigilant, hkeeps⟩ hcancels hstep
  have hone := keeps_step hvigilant hcancels hstep
  exact ⟨vigilant_step hvigilant hstep,
    ⟨fun hkey => hone.watches (hkeeps.watches hkey), fun hdirty => hone.dirty (hkeeps.dirty hdirty)⟩⟩

/-- Behind {lit}`WATCH`, its keys are watched. -/
theorem watches_of_watch {s s' : Server} {h : HandlerId} {request : RespValue} {cmd : Command}
    {onReply : OnReply} {r : Except Exception (List Task)} {key : Bytes}
    (hw : Watching s.transactions s.watches) (htype : cmd.type = .watch) (hkey : key ∈ cmd.args)
    (hidle : (s.transactions h).inTransaction = false)
    (hacts : Acts env s (.execute h request cmd onReply) s' r) : Watches s' h key := by
  cases hacts with
  | ran hbody _ | threw hbody _ => simp [htype, dataCommand] at hbody
  | answered hbody hrefused response =>
      have hnone : cmd.args = [] := by simpa [Refused, htype, hidle] using hrefused
      simp [hnone] at hkey
  | transacted hchange =>
      cases hchange with
      | watches _ _ =>
          have hupdated : Watching (Function.update s.transactions h (s.transactions h))
              s.watches := by
            rw [Function.update_eq_self]
            exact hw
          rcases watchKeys_spec hupdated cmd.args with ⟨-, hkeys, -⟩
          unfold Watches
          rw [Server.setTransaction_transactions, Function.update_self]
          exact (hkeys key).mp (Or.inl hkey)
      | begins hother | aborts hother | empties hother | discards hother | unwatches hother =>
          simp [htype] at hother
  | started hother | polls hother => simp [htype] at hother

/-- {lit}`EXEC` of a dirty transaction replies the null array and does nothing else. -/
theorem aborts_of_dirty {s : Server} {h : HandlerId} {request : RespValue} {cmd : Command}
    {onReply : OnReply} (htype : cmd.type = .exec)
    (hactive : (s.transactions h).inTransaction = true)
    (hdirty : (s.transactions h).dirty = true) (rest : List Task) :
    StoreThread.step env ⟨s, .execute h request cmd onReply :: rest⟩ .tick =
      some ⟨(s.record (.executed h .exec request)).setTransaction h
        ((s.transactions h).reset s.watches), .reply onReply nullArray :: rest⟩ := by
  have hact : s.act env (.execute h request cmd onReply) =
      ((s.record (.executed h .exec request)).setTransaction h
        ((s.transactions h).reset s.watches), .ok [.reply onReply nullArray]) := by
    simp [Server.act, Server.execute, htype, dataCommand, Server.executeOther, Server.executeExec,
      hactive, hdirty]
  exact step_tick hact rest

/-- A conflict, in any run: the handler executed a {lit}`WATCH` of the key, a later
event changed the value at the key while it was not expired, and now the handler is
about to execute the {lit}`EXEC` of an open {lit}`MULTI`; in between it executed no
{lit}`UNWATCH`, {lit}`DISCARD` or {lit}`EXEC`. -/
structure Conflict (env : Env) (registry : ReplicaRegistry) (h : HandlerId) (key : Bytes)
    (before : StoreThread) (event : Event) (behind now : StoreThread) : Prop where
  watched : ∃ events watching watch onReply rest t t' between,
    StoreThread.run env (.withReplicas registry) events = some t ∧
    t.stack = .execute h watching watch onReply :: rest ∧ watch.type = .watch ∧
    key ∈ watch.args ∧ (t.server.transactions h).inTransaction = false ∧
    t.step env .tick = some t' ∧ t'.run env between = some before ∧
    Execution.Along (StoreThread.step env) (CancelsNothing h) t' between
  changed : before.step env event = some behind ∧ CancelsNothing h before event ∧
    behind.server.data key ≠ before.server.data key
  live : ∀ v ∈ before.server.data key,
    v.expired (env.reading before.server.readings).steady = false
  later : ∃ later, behind.run env later = some now ∧
    Execution.Along (StoreThread.step env) (CancelsNothing h) behind later
  exec : ∃ request cmd onReply rest, now.stack = .execute h request cmd onReply :: rest ∧
    cmd.type = .exec ∧ (now.server.transactions h).inTransaction = true

/-- {lit}`EXEC` replies the null array to its connection, and neither runs a command nor
propagates one. -/
def Aborts (env : Env) (h : HandlerId) (t : StoreThread) : Prop :=
  ∃ number request t', t.step env .tick = some t' ∧
    t'.stack = [.reply (h.onReply number) nullArray] ∧
    t'.server.trace = t.server.trace ++ [.executed h .exec request] ∧
    t'.server.data = t.server.data ∧ t'.server.contexts = t.server.contexts ∧
    t'.server.replicas = t.server.replicas

/-- In a conflict, the handler watches the key. -/
theorem Conflict.watches {registry : ReplicaRegistry} {h : HandlerId} {key : Bytes}
    {before behind now : StoreThread} {event : Event}
    (hconflict : Conflict env registry h key before event behind now) :
    Vigilant before ∧ Watches before.server h key := by
  rcases hconflict.watched with ⟨events, watching, watch, onReply, rest, t, t', between, hrun, hstack,
    htype, hkey, hidle, hstep, hbetween, hkept⟩
  have hv : Vigilant t :=
    Execution.follow_invariant (fun hv _ hstep => vigilant_step hv hstep) (vigilant_initial registry)
      (Execution.along_of_forall (fun _ _ => trivial) _) hrun
  rcases keeps_run (vigilant_step hv hstep) hkept hbetween with ⟨hbefore, hkeeps⟩
  refine ⟨hbefore, hkeeps.watches ?_⟩
  rcases t with ⟨s, stack⟩
  subst hstack
  cases moves_of_step hstep with
  | calls stack hact => exact watches_of_watch hv.watching htype hkey hidle (acts_of_act hact)
  | throws above _ below hact =>
      exact watches_of_watch hv.watching htype hkey hidle (acts_of_act hact)

/-- Watched keys miss no conflict, in every run with any number of connections: if the
value at a watched key was not popped by a {lit}`BLPOP` that need not wait, and is not
the empty stream that a rejected {lit}`XADD` leaves, {lit}`EXEC` replies the null
array, runs no queued command and propagates nothing. -/
theorem watch_misses_no_conflict {registry : ReplicaRegistry} {h : HandlerId} {key : Bytes}
    {before behind now : StoreThread} {event : Event}
    (hconflict : Conflict env registry h key before event behind now)
    (hblpop : before.stack.head?.bind Task.executes ≠ some .blpop)
    (hstream : behind.server.data key ≠ some ⟨.stream [], none⟩) : Aborts env h now := by
  rcases hconflict.watches with ⟨hbefore, hkey⟩
  rcases hconflict.changed with ⟨hstep, -, hchange⟩
  rcases hconflict.later with ⟨later, hlater, hkept⟩
  rcases hconflict.exec with ⟨request, cmd, onReply, rest, hstack, htype, hactive⟩
  have hdirty := dirty_of_change hbefore hkey hstep hchange hconflict.live hblpop hstream
  rcases keeps_run (vigilant_step hbefore hstep) hkept hlater with ⟨hnow, hkeeps⟩
  have hdirty' := hkeeps.dirty hdirty
  rcases now with ⟨s, stack⟩
  subst hstack
  rcases (hnow.requests.stack _ List.mem_cons_self).2.2
    (by rw [htype]; rfl) with ⟨number, rfl⟩
  have hrest : rest = [] := hnow.alone.rest (by simp [Task.isEntry])
  subst hrest
  exact ⟨number, request, _, aborts_of_dirty htype hactive hdirty' [], rfl, rfl, rfl, rfl, rfl⟩

/-! ## Sample conflicts -/

/-- One client watches a key, another one changes it, and the first one sends
{lit}`MULTI`, {lit}`SET a 1` and {lit}`EXEC`. -/
structure SampleConflict where
  /-- Up to the step that executes {lit}`WATCH`. -/
  events : List Event
  /-- Up to the step that changes the key. -/
  between : List Event
  /-- Up to the step that executes {lit}`EXEC`. -/
  later : List Event

namespace SampleConflict

/-- The states of the sample before and behind the change, and now, with a check of
everything that makes a conflict. -/
def states (c : SampleConflict) (key : Bytes) : Option (StoreThread × StoreThread × StoreThread) :=
  (StoreThread.run sampleEnv (.withReplicas .empty) c.events).bind fun t =>
    (t.step sampleEnv .tick).bind fun t' =>
      (t'.run sampleEnv c.between).bind fun before =>
        (before.step sampleEnv .tick).bind fun behind =>
          (behind.run sampleEnv c.later).bind fun now =>
            match t.stack, now.stack with
            | .execute (.client 1) _ watch _ :: _, .execute (.client 1) _ exec _ :: _ =>
                if watch.type = .watch ∧ key ∈ watch.args ∧
                    (t.server.transactions (.client 1)).inTransaction = false ∧
                    Execution.Along (StoreThread.step sampleEnv) (CancelsNothing (.client 1)) t'
                      c.between ∧
                    CancelsNothing (.client 1) before .tick ∧
                    behind.server.data key ≠ before.server.data key ∧
                    (∀ v ∈ before.server.data key, v.expired 0 = false) ∧
                    Execution.Along (StoreThread.step sampleEnv) (CancelsNothing (.client 1)) behind
                      c.later ∧
                    exec.type = .exec ∧
                    (now.server.transactions (.client 1)).inTransaction = true then
                  some (before, behind, now)
                else none
            | _, _ => none

/-- The check is sound. -/
theorem conflict_of_states {c : SampleConflict} {key : Bytes} {before behind now : StoreThread}
    (h : c.states key = some (before, behind, now)) :
    Conflict sampleEnv .empty (.client 1) key before .tick behind now := by
  unfold states at h
  rcases Option.bind_eq_some_iff.mp h with ⟨t, hrun, h⟩
  rcases Option.bind_eq_some_iff.mp h with ⟨t', hstep, h⟩
  rcases Option.bind_eq_some_iff.mp h with ⟨before', hbetween, h⟩
  rcases Option.bind_eq_some_iff.mp h with ⟨behind', hchanged, h⟩
  rcases Option.bind_eq_some_iff.mp h with ⟨now', hlater, h⟩
  split at h
  · rename_i watching watch onWatch rest request exec onReply rest' hstack hexec
    split at h
    · rename_i hall
      rcases hall with ⟨htype, hkey, hidle, hkept₁, hkept₂, hchange, hlive, hkept₃, hexecType, hactive⟩
      cases h
      exact ⟨⟨c.events, watching, watch, onWatch, rest, t, t', c.between, hrun, hstack, htype, hkey,
          hidle, hstep, hbetween, hkept₁⟩,
        ⟨hchanged, hkept₂, hchange⟩, hlive, ⟨c.later, hlater, hkept₃⟩,
        ⟨request, exec, onReply, rest', hexec, hexecType, hactive⟩⟩
    · contradiction
  · contradiction

/-- {lit}`MULTI`, {lit}`SET a 1` and {lit}`EXEC`, up to the step that executes
{lit}`EXEC`. -/
def transaction : List Event :=
  job 1 (.short (ascii "MULTI") [] (Eq.refl true)) 3 ++
    job 1 (.short (ascii "SET") [ascii "a", ascii "1"] (Eq.refl true)) 2 ++
    job 1 (.short (ascii "EXEC") [] (Eq.refl true)) 1

/-- The other client sends {lit}`SET k 1`. -/
def set : SampleConflict where
  events := job 1 (.short (ascii "WATCH") [ascii "k"] (Eq.refl true)) 1
  between := .tick ::
    job 2 (.short (ascii "SET") [ascii "k", ascii "1"] (Eq.refl true)) 1
  later := .tick :: transaction

/-- The other client sends {lit}`BLPOP k 0`, and there is an element. -/
def blpop : SampleConflict where
  events := job 2 (.short (ascii "RPUSH") [ascii "k", ascii "x"] (Eq.refl true)) 4 ++
    job 1 (.short (ascii "WATCH") [ascii "k"] (Eq.refl true)) 1
  between := .tick ::
    job 2 (.short (ascii "BLPOP") [ascii "k", ascii "0"] (Eq.refl true)) 1
  later := .tick :: transaction

end SampleConflict

/-- A {lit}`SET` on the watched key. -/
theorem watch_misses_no_conflict_set :
    ∃ before behind now, Conflict sampleEnv .empty (.client 1) (ascii "k") before .tick behind now ∧
      Aborts sampleEnv (.client 1) now := by
  have hstates : (SampleConflict.set.states (ascii "k")).map
      (fun states => (states.1.stack.head?.bind Task.executes,
        states.2.1.server.data (ascii "k"))) =
      some (some .set, some ⟨.string (ascii "1"), none⟩) := by
    decide +kernel
  rcases Option.map_eq_some_iff.mp hstates with ⟨⟨before, behind, now⟩, hsome, hfacts⟩
  simp only [Prod.mk.injEq] at hfacts
  have hconflict := SampleConflict.conflict_of_states hsome
  refine ⟨before, behind, now, hconflict, watch_misses_no_conflict hconflict ?_ ?_⟩
  · rw [hfacts.1]
    decide
  · rw [hfacts.2]
    decide

/-- The pop of a {lit}`BLPOP` that need not wait is not reported: {lit}`EXEC` runs its
queue. -/
theorem watch_misses_blpop :
    ∃ before behind now, Conflict sampleEnv .empty (.client 1) (ascii "k") before .tick behind now ∧
      ¬ Aborts sampleEnv (.client 1) now := by
  have hstates : (SampleConflict.blpop.states (ascii "k")).map
      (fun states => (states.2.2.step sampleEnv .tick).map StoreThread.stack) =
      some (some [.runNext 0]) := by
    decide +kernel
  rcases Option.map_eq_some_iff.mp hstates with ⟨⟨before, behind, now⟩, hsome, hfacts⟩
  refine ⟨before, behind, now, SampleConflict.conflict_of_states hsome, ?_⟩
  rintro ⟨number, request, t', hstep, hstack, -⟩
  simp [hstep, hstack] at hfacts

end RedisClone
