import RedisClone.Server.Escape

/-!
# Blocked clients and available elements

A push calls {lit}`serve_blpop_waiters` behind the change of the list, and the loop
there goes on until nobody waits for the key or its list is used up, also if a served
callback pushes, pops or blocks on the same key.  So whenever a key has both a waiter
and a list, a round of the loop for that key is still to come, unless an exception
has taken it off the stack: a resumed {lit}`EXEC` that throws inside the loop, with a
{lit}`try` block of another {lit}`EXEC` around it, ends the loop and leaves waiter and
elements behind.

Main results:

- Theorem {lit}`attended_calls`: a task that does not throw keeps the loops in place.
- Theorem {lit}`blocked_pops_find_no_list`: in careful runs, no key that is awaited
  holds a list whenever the store thread is idle.
- Theorem {lit}`abandoned_waiter`: a run in which an exception passes the loop.
-/

namespace RedisClone

variable {env : Env}

/-! ## Keys that hold a list -/

/-- The key holds a list. -/
def Store.IsList (d : Store) (key : Bytes) : Prop :=
  ∃ elements expiresAt, d key = some ⟨.list elements, expiresAt⟩

section Lists

variable {d : Store} {key key' : Bytes}

/-- A list can be popped. -/
theorem Store.IsList.lpop_isOk (h : d.IsList key) : (d.lpop key 1).2.isOk = true := by
  rcases h with ⟨elements, expiresAt, hkey⟩
  simp [Store.lpop, hkey, Except.isOk, Except.toBool]

/-- A key that is written holds what was written. -/
theorem isList_put {v : StoreValue} (h : (d.put key v).IsList key') :
    (key' = key ∧ ∃ elements, v.value = .list elements) ∨ d.IsList key' := by
  rcases h with ⟨elements, expiresAt, hkey'⟩
  by_cases heq : key' = key
  · rw [heq, Store.put_same] at hkey'
    cases hkey'
    exact .inl ⟨heq, elements, rfl⟩
  · rw [Store.put_of_ne heq] at hkey'
    exact .inr ⟨elements, expiresAt, hkey'⟩

/-- A list behind an erased key was there before. -/
theorem isList_erase (h : (d.erase key).IsList key') : d.IsList key' := by
  rcases h with ⟨elements, expiresAt, hkey'⟩
  by_cases heq : key' = key
  · rw [heq, Store.erase_same] at hkey'
    cases hkey'
  · rw [Store.erase_of_ne heq] at hkey'
    exact ⟨elements, expiresAt, hkey'⟩

/-- A list behind a pop was there before. -/
theorem isList_lpop {count : Nat} (h : (d.lpop key count).1.IsList key') : d.IsList key' := by
  unfold Store.lpop at h
  split at h
  · exact h
  · rename_i elements expiresAt hkey
    simp only at h
    split at h
    · exact isList_erase h
    · rcases isList_put h with ⟨rfl, -⟩ | hbefore
      · exact ⟨elements, expiresAt, hkey⟩
      · exact hbefore
  · exact h

/-- A command makes a list appear only by a push, and a push serves its waiters. -/
theorem isList_of_dataActs {cmd : Command} {now : Reading} {d' : Store}
    {outcome : Outcome} (h : DataActs cmd now d (d', .ok outcome)) (hlist : d'.IsList key) :
    d.IsList key ∨ ∃ a, outcome = .answer a ∧ a.wake = some (.blpop key) := by
  cases h with
  | replied | blocked | waits => exact .inl hlist
  | removed htype hkey hexpired response => exact .inl (isList_erase hlist)
  | written htype hargs str expiresAt response =>
      rcases isList_put hlist with ⟨-, elements, heq⟩ | hbefore
      · contradiction
      · exact .inl hbefore
  | pushed htype hargs =>
      rcases isList_put hlist with ⟨rfl, -⟩ | hbefore
      · exact .inr ⟨_, rfl, rfl⟩
      · exact .inl hbefore
  | @popped count d' values response htype hargs hcount hpop hreply =>
      have hfst : (d.lpop (cmd.arg 0) count).1 = d' := by rw [hpop]
      rw [← hfst] at hlist
      exact .inl (isList_lpop hlist)
  | @blpopped popped value d' more htype hkey hpop =>
      have hfst : (d.lpop popped 1).1 = d' := by rw [hpop]
      rw [← hfst] at hlist
      exact .inl (isList_lpop hlist)
  | appended htype hargs hid =>
      rcases isList_put hlist with ⟨-, elements, heq⟩ | hbefore
      · contradiction
      · exact .inl hbefore
  | created htype hargs hkey response =>
      rcases isList_put hlist with ⟨-, elements, heq⟩ | hbefore
      · contradiction
      · exact .inl hbefore

end Lists

/-! ## Rounds still to come -/

/-- For every key with a waiter and a list, a round of the serving loop is on the
stack. -/
def Attended (t : StoreThread) : Prop :=
  ∀ key, t.server.blpop.waiters key ≠ [] → t.server.data.IsList key →
    .serveBlpop key ∈ t.stack

section Calls

variable {s s' : Server} {stack new : List Task} {task : Task}

/-- A task that neither adds waiters nor lists, and is not a round of the loop. -/
theorem Attended.kept (h : Attended ⟨s, task :: stack⟩)
    (hwaiters : ∀ key, s'.blpop.waiters key ≠ [] → s.blpop.waiters key ≠ [])
    (hlists : ∀ key, s'.data.IsList key → s.data.IsList key)
    (htask : ∀ key, task ≠ .serveBlpop key) : Attended ⟨s', new ++ stack⟩ := by
  intro key hwaits hlist
  have hmem := h key (hwaiters key hwaits) (hlists key hlist)
  rcases List.mem_cons.mp hmem with heq | hmem
  · exact absurd heq.symm (htask key)
  · exact List.mem_append_right _ hmem

/-- A command on the keyspace. -/
theorem attended_ran (h : Attended ⟨s, task :: stack⟩)
    (htask : ∀ key, task ≠ .serveBlpop key) {handler : HandlerId} {request : RespValue}
    {cmd : Command} {onReply : OnReply} {d : Store} {outcome : Outcome}
    (hdata : DataActs cmd (env.reading s.readings) s.data (d, .ok outcome)) :
    Attended ⟨(((s.withData d).record (.executed handler cmd.type request)).settle onReply
        outcome).1,
      (((s.withData d).record (.executed handler cmd.type request)).settle onReply outcome).2 ++
        stack⟩ := by
  intro key hwaits hlist
  rw [settle_data] at hlist
  rcases isList_of_dataActs hdata hlist with hbefore | ⟨a, rfl, hwake⟩
  · cases outcome with
    | answer a =>
        have hkept : s.blpop.waiters key ≠ [] := by
          simp only [Server.settle] at hwaits
          split at hwaits <;> exact hwaits
        rcases List.mem_cons.mp (h key hkept hbefore) with heq | hmem
        · exact absurd heq.symm (htask key)
        · exact List.mem_append_right _ hmem
    | blockBlpop keys timeout =>
        cases hdata with
        | blocked htype htimeout hnone =>
            -- the keys that the request blocks on hold no list
            have hnot : key ∉ cmd.args.dropLast := by
              intro hmem
              have hfails := hnone key hmem
              rw [hbefore.lpop_isOk] at hfails
              contradiction
            have hsame : ((s.withData s.data).record
                (.executed handler cmd.type request)).blpop.waiters key ≠ [] := by
              simp only [Server.settle, Server.blockBlpop_blpop,
                BlockingRegistry.waiters_registerCallbacks, List.count_eq_zero_of_not_mem hnot,
                List.replicate_zero, List.append_nil] at hwaits
              exact hwaits
            rcases List.mem_cons.mp (h key hsame hbefore) with heq | hmem
            · exact absurd heq.symm (htask key)
            · exact List.mem_append_right _ hmem
    | blockXread streams timeout =>
        rcases List.mem_cons.mp (h key hwaits hbefore) with heq | hmem
        · exact absurd heq.symm (htask key)
        · exact List.mem_append_right _ hmem
  · simp [Server.settle, hwake, Server.wakeTasks]

/-- A task that does not throw. -/
theorem attended_calls (hd : s.data.NoEmptyList) (h : Attended ⟨s, task :: stack⟩)
    (hacts : Acts env s task s' (.ok new)) : Attended ⟨s', new ++ stack⟩ := by
  cases hacts with
  | @ran handler request cmd onReply body d outcome hbody hresult =>
      have hdata := @dataActs_of_dataCommand cmd (env.reading s.readings) s.data body hbody
      rw [hresult] at hdata
      exact attended_ran h (by simp) hdata
  | @served key value id callback later d more hwaiters hpop =>
      -- another round follows for this key; the other keys are left alone
      have hfst : (s.data.lpop key 1).1 = d := by rw [hpop]
      intro key' hwaits hlist
      by_cases heq : key' = key
      · simp [heq]
      · have hwaits' : s.blpop.waiters key' ≠ [] := by
          rcases List.exists_mem_of_ne_nil _ hwaits with ⟨waiter, hmem⟩
          exact List.ne_nil_of_mem (BlockingRegistry.mem_waiters_of_unregister hmem)
        have hlist' : s.data.IsList key' := by
          change d.IsList key' at hlist
          rw [← hfst] at hlist
          exact isList_lpop hlist
        rcases List.mem_cons.mp (h key' hwaits' hlist') with hsame | hmem
        · cases hsame
          exact absurd rfl heq
        · exact List.mem_append_right _ hmem
  | @unawaited key hwaiters =>
      intro key' hwaits hlist
      rcases List.mem_cons.mp (h key' hwaits hlist) with hsame | hmem
      · cases hsame
        exact absurd hwaiters hwaits
      · exact hmem
  | @unserved key id callback later d hwaiters hpop =>
      rcases hpop with hempty | ⟨hnone, rfl⟩
      · exact absurd hempty hd.lpop_one
      · intro key' hwaits hlist
        rcases List.mem_cons.mp (h key' hwaits hlist) with hsame | hmem
        · cases hsame
          have hlist' : s.data.IsList key := hlist
          rw [hlist'.lpop_isOk] at hnone
          contradiction
        · exact hmem
  | collected =>
      refine h.kept ?_ ?_ (by simp)
      · intro key hwaits
        split at hwaits <;> exact hwaits
      · intro key hlist
        split at hlist <;> exact hlist
  | _ => exact h.kept (fun _ hwaits => hwaits) (fun _ hlist => hlist) (by simp)

end Calls

/-! ## Runs -/

/-- What holds in every state of a careful run. -/
structure Serving (t : StoreThread) : Prop where
  sound : Sound t
  attended : Attended t

/-- A server that was just started. -/
theorem serving_initial (registry : ReplicaRegistry) : Serving (.withReplicas registry) :=
  ⟨sound_initial registry, fun _ hwaits => absurd rfl hwaits⟩

/-- A careful step keeps the rounds on the stack. -/
theorem serving_step {t t' : StoreThread} {event : Event} (h : Serving t)
    (hcareful : Careful env t event) (hstep : t.step env event = some t') : Serving t' := by
  refine ⟨sound_step h.sound hcareful hstep, ?_⟩
  cases moves_of_step hstep with
  | request s handler request =>
      intro key hwaits hlist
      exact absurd (h.attended key hwaits hlist) (by simp)
  | calls stack hact => exact attended_calls h.sound.noEmptyList h.attended (acts_of_act hact)
  | throws above onReply below hact =>
      exact absurd hact (act_ne_error h.sound hcareful _ rfl _ _)
  | @timeout s i timer htimer hqueued =>
      intro key hwaits hlist
      rw [onTimeout_data] at hlist
      have hwaits' : s.blpop.waiters key ≠ [] := by
        rcases List.exists_mem_of_ne_nil _ hwaits with ⟨waiter, hmem⟩
        unfold StoreThread.onTimeout at hmem
        simp only at hmem
        split at hmem
        · exact List.ne_nil_of_mem (BlockingRegistry.mem_waiters_of_unregister hmem)
        · exact List.ne_nil_of_mem hmem
      exact absurd (h.attended key hwaits' hlist) (by simp)
  | poll hwait hactive =>
      intro key hwaits hlist
      exact absurd (h.attended key hwaits hlist) (by simp)
  | _ => exact h.attended

/-- Blocked clients and available elements do not coexist: in every run whose steps
are careful, whenever the store thread is idle, no key that a blocked {lit}`BLPOP`
waits for holds a list. -/
theorem blocked_pops_find_no_list {registry : ReplicaRegistry} {events : List Event}
    {t : StoreThread}
    (hcareful : Execution.Along (StoreThread.step env) (Careful env) (.withReplicas registry)
      events)
    (hrun : StoreThread.run env (.withReplicas registry) events = some t) (hidle : t.stack = [])
    (key : Bytes) (hwaits : t.server.blpop.waiters key ≠ []) : ¬ t.server.data.IsList key := by
  have hserving : Serving t :=
    Execution.follow_invariant serving_step (serving_initial registry) hcareful hrun
  intro hlist
  have hround := hserving.attended key hwaits hlist
  rw [hidle] at hround
  contradiction

/-! ## Sample runs -/

/-- Two clients are blocked on a key, and one element is pushed. -/
def oneElementForTwo : List Event :=
  job 1 (.short (ascii "BLPOP") [ascii "k", ascii "0"] (Eq.refl true)) 2 ++
    job 2 (.short (ascii "BLPOP") [ascii "k", ascii "0"] (Eq.refl true)) 2 ++
    job 3 (.short (ascii "RPUSH") [ascii "k", ascii "a"] (Eq.refl true)) 8

/-- One of the two clients still waits, and the key holds no list. -/
theorem blocked_pops_find_no_list_one_left :
    ∃ t, StoreThread.run sampleEnv (.withReplicas .empty) oneElementForTwo = some t ∧
      t.server.blpop.waiters (ascii "k") ≠ [] ∧ ¬ t.server.data.IsList (ascii "k") := by
  have hrun : (StoreThread.run sampleEnv (.withReplicas .empty) oneElementForTwo).map
      (fun t => (t.stack.length, (t.server.blpop.waiters (ascii "k")).length)) = some (0, 1) := by
    decide +kernel
  rcases Option.map_eq_some_iff.mp hrun with ⟨t, ht, hcounts⟩
  simp only [Prod.mk.injEq, List.length_eq_zero_iff] at hcounts
  have hwaits : t.server.blpop.waiters (ascii "k") ≠ [] := by
    intro hnil
    simp [hnil] at hcounts
  exact ⟨t, ht, hwaits,
    blocked_pops_find_no_list (by decide +kernel) ht hcounts.1 (ascii "k") hwaits⟩

/-- A transaction that is suspended in {lit}`BLPOP k 0` and throws behind it, a blocked
client, and a transaction that pushes two elements behind an {lit}`XRANGE`. -/
def abandonedLoop : List Event :=
  job 1 (.short (ascii "MULTI") [] (Eq.refl true)) 3 ++
    job 1 (.short (ascii "BLPOP") [ascii "k", ascii "0"] (Eq.refl true)) 2 ++
    job 1 (.short (ascii "LRANGE") [ascii "k", ascii "x", ascii "y"] (Eq.refl true)) 2 ++
    job 1 (.short (ascii "EXEC") [] (Eq.refl true)) 4 ++
    job 2 (.short (ascii "BLPOP") [ascii "k", ascii "0"] (Eq.refl true)) 2 ++
    job 3 (.short (ascii "MULTI") [] (Eq.refl true)) 3 ++
    job 3 (.short (ascii "XRANGE") [ascii "s", ascii "-", ascii "+"] (Eq.refl true)) 2 ++
    job 3 (.short (ascii "RPUSH") [ascii "k", ascii "a", ascii "b"] (Eq.refl true)) 2 ++
    job 3 (.short (ascii "EXEC") [] (Eq.refl true)) 14

/-- The store thread is idle, a client waits for the key, and the key holds a list. -/
theorem abandoned_waiter :
    (StoreThread.run sampleEnv (.withReplicas .empty) abandonedLoop).map (fun t =>
      (t.stack.length, (t.server.blpop.waiters (ascii "k")).length,
        t.server.data (ascii "k"))) = some (0, 1, some ⟨.list [ascii "b"], none⟩) := by
  decide +kernel

end RedisClone
