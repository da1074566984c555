import RedisClone.Server.Discipline

/-!
# Watched keys

{lit}`WATCH` registers a callback that marks the transaction of the connection as
dirty, and {lit}`EXEC` refuses to run a dirty transaction.  The registrations and
the keys that the transaction manager remembers always match.  The dirty flag
follows them in one direction only: {lit}`UNWATCH` removes the registrations and
leaves the flag, and some changes of the keyspace are not reported to the watch
manager at all.

Main results:

- Theorem {lit}`watching_step`: registrations and remembered keys match.
-/

namespace RedisClone

/-! ## Registrations -/

/-- The registrations of the watch manager are the keys that the transaction managers
remember. -/
structure Watching (transactions : HandlerId → TransactionManager)
    (m : WatchManager HandlerId) : Prop where
  registered : ∀ {h key id}, (key, id) ∈ (transactions h).watchedKeys →
    (id, h) ∈ m.registrations key
  owned : ∀ {h key id}, (id, h) ∈ m.registrations key →
    (key, id) ∈ (transactions h).watchedKeys ∧ m.idToKeys id = some [key]
  unique : ∀ {h h' key key' id}, (id, h) ∈ m.registrations key →
    (id, h') ∈ m.registrations key' → h = h'
  nodup : ∀ h, (transactions h).watchedKeys.Nodup
  fresh : ∀ {id}, m.nextId ≤ id → m.idToKeys id = none

namespace Watching

variable {transactions transactions' : HandlerId → TransactionManager}
  {m : WatchManager HandlerId}

/-- Only the remembered keys matter. -/
theorem congr (hw : Watching transactions m)
    (hkeys : ∀ h, (transactions' h).watchedKeys = (transactions h).watchedKeys) :
    Watching transactions' m := by
  constructor
  · intro h key id hmem
    rw [hkeys] at hmem
    exact hw.registered hmem
  · intro h key id hmem
    rw [hkeys]
    exact hw.owned hmem
  · exact hw.unique
  · intro h
    rw [hkeys]
    exact hw.nodup h
  · exact hw.fresh

/-- The identifiers of registrations are in use. -/
theorem lt_nextId (hw : Watching transactions m) {h : HandlerId} {key : Bytes} {id : Nat}
    (hmem : (id, h) ∈ m.registrations key) : id < m.nextId := by
  by_contra hge
  have hnone := hw.fresh (not_lt.mp hge)
  rw [(hw.owned hmem).2] at hnone
  contradiction

/-- The keys that a handler remembers, once one transaction manager has changed. -/
theorem mem_watchedKeys_update {h h' : HandlerId} {tm : TransactionManager} {entry : Bytes × Nat} :
    entry ∈ (Function.update transactions h tm h').watchedKeys ↔
      (h' = h ∧ entry ∈ tm.watchedKeys) ∨ (h' ≠ h ∧ entry ∈ (transactions h').watchedKeys) := by
  by_cases heq : h' = h
  · simp [heq]
  · simp [heq]

/-- No key is remembered twice, if the new transaction manager remembers none twice. -/
theorem nodup_update (hw : Watching transactions m) {h : HandlerId} {tm : TransactionManager}
    (htm : tm.watchedKeys.Nodup) (h' : HandlerId) :
    (Function.update transactions h tm h').watchedKeys.Nodup := by
  by_cases heq : h' = h
  · rw [heq, Function.update_self]
    exact htm
  · rw [Function.update_of_ne heq]
    exact hw.nodup h'

/-- A handler watches a new key. -/
theorem watch (hw : Watching transactions m) {h : HandlerId} {tm : TransactionManager} (key : Bytes)
    (htm : tm.watchedKeys = (transactions h).watchedKeys ++ [(key, m.nextId)]) :
    Watching (Function.update transactions h tm) (m.watch key h).1 := by
  have hnew : ∀ {h' key'}, (m.nextId, h') ∉ m.registrations key' := by
    intro h' key' hmem
    exact absurd (hw.lt_nextId hmem) (lt_irrefl _)
  constructor
  · intro h' key' id hmem
    rw [WatchManager.mem_registrations_watch]
    rw [mem_watchedKeys_update, htm, List.mem_append, List.mem_singleton, Prod.mk.injEq] at hmem
    rcases hmem with ⟨rfl, hold | ⟨rfl, rfl⟩⟩ | ⟨-, hold⟩
    · exact .inl (hw.registered hold)
    · exact .inr ⟨rfl, rfl, rfl⟩
    · exact .inl (hw.registered hold)
  · intro h' key' id hmem
    rw [mem_watchedKeys_update, htm, List.mem_append]
    rcases WatchManager.mem_registrations_watch.mp hmem with hold | ⟨rfl, rfl, rfl⟩
    · rcases hw.owned hold with ⟨hkeys, hid⟩
      refine ⟨?_, ?_⟩
      · by_cases heq : h' = h
        · subst heq
          exact .inl ⟨rfl, .inl hkeys⟩
        · exact .inr ⟨heq, hkeys⟩
      · have hne : id ≠ m.nextId := ne_of_lt (hw.lt_nextId hold)
        simp only [WatchManager.watch, Function.update_of_ne hne]
        exact hid
    · exact ⟨.inl ⟨rfl, .inr (by simp)⟩, by simp [WatchManager.watch, hw.fresh (le_refl _)]⟩
  · intro h₁ h₂ key₁ key₂ id hfirst hsecond
    rcases WatchManager.mem_registrations_watch.mp hfirst with hold₁ | ⟨-, rfl, rfl⟩
    · rcases WatchManager.mem_registrations_watch.mp hsecond with hold₂ | ⟨-, rfl, rfl⟩
      · exact hw.unique hold₁ hold₂
      · exact absurd hold₁ hnew
    · rcases WatchManager.mem_registrations_watch.mp hsecond with hold₂ | ⟨-, -, rfl⟩
      · exact absurd hold₂ hnew
      · rfl
  · refine hw.nodup_update ?_
    rw [htm]
    refine List.nodup_append.mpr ⟨hw.nodup h, by simp, ?_⟩
    intro entry hentry entry' hentry' hsame
    rw [List.mem_singleton] at hentry'
    rw [hsame, hentry'] at hentry
    exact hnew (hw.registered hentry)
  · intro id hid
    simp only [WatchManager.watch] at hid ⊢
    rw [Function.update_of_ne (by omega)]
    exact hw.fresh (by omega)

/-- An identifier belongs to one key. -/
theorem key_unique (hw : Watching transactions m) {h h' : HandlerId} {key key' : Bytes} {id : Nat}
    (hmem : (id, h) ∈ m.registrations key) (hmem' : (id, h') ∈ m.registrations key') :
    key' = key := by
  have hsame := (hw.owned hmem').2
  rw [(hw.owned hmem).2] at hsame
  simp only [Option.some.injEq, List.cons.injEq, and_true] at hsame
  exact hsame.symm

/-- {lit}`unwatch` removes the registration with the identifier. -/
theorem mem_registrations_unwatch (hw : Watching transactions m) {h h' : HandlerId}
    {key key' : Bytes} {id id' : Nat} (hmem : (id, h) ∈ m.registrations key) :
    (id', h') ∈ (m.unwatch id).registrations key' ↔
      (id', h') ∈ m.registrations key' ∧ id' ≠ id := by
  rw [WatchManager.mem_registrations_unwatch, (hw.owned hmem).2]
  constructor
  · rintro ⟨hmem', hnot⟩
    refine ⟨hmem', ?_⟩
    rintro rfl
    exact hnot rfl (by simp [hw.key_unique hmem hmem'])
  · rintro ⟨hmem', hne⟩
    exact ⟨hmem', fun hsame => absurd hsame hne⟩

/-- A handler gives up one of its keys. -/
theorem unwatch (hw : Watching transactions m) {h : HandlerId} {tm : TransactionManager}
    {key : Bytes} {id : Nat} {rest : List (Bytes × Nat)}
    (hkeys : (transactions h).watchedKeys = (key, id) :: rest) (htm : tm.watchedKeys = rest) :
    Watching (Function.update transactions h tm) (m.unwatch id) := by
  have hregistered : (id, h) ∈ m.registrations key := hw.registered (by rw [hkeys]; simp)
  have hid := (hw.owned hregistered).2
  have hnodup := hw.nodup h
  rw [hkeys, List.nodup_cons] at hnodup
  constructor
  · intro h' key' id' hmem
    rw [hw.mem_registrations_unwatch hregistered]
    rw [mem_watchedKeys_update, htm] at hmem
    rcases hmem with ⟨rfl, hmem⟩ | ⟨hne, hmem⟩
    · have hold := hw.registered (show (key', id') ∈ (transactions h').watchedKeys by
        rw [hkeys]; simp [hmem])
      refine ⟨hold, ?_⟩
      rintro rfl
      rw [hw.key_unique hregistered hold] at hmem
      exact hnodup.1 hmem
    · have hold := hw.registered hmem
      refine ⟨hold, ?_⟩
      rintro rfl
      exact hne (hw.unique hold hregistered)
  · intro h' key' id' hmem
    rw [hw.mem_registrations_unwatch hregistered] at hmem
    rcases hw.owned hmem.1 with ⟨hwatched, hids⟩
    rw [mem_watchedKeys_update, htm]
    refine ⟨?_, ?_⟩
    · by_cases heq : h' = h
      · subst heq
        rw [hkeys, List.mem_cons, Prod.mk.injEq] at hwatched
        exact .inl ⟨rfl, hwatched.resolve_left fun hsame => hmem.2 hsame.2⟩
      · exact .inr ⟨heq, hwatched⟩
    · simp only [WatchManager.unwatch, hid]
      rw [Function.update_of_ne hmem.2]
      exact hids
  · intro h₁ h₂ key₁ key₂ id' hfirst hsecond
    exact hw.unique ((hw.mem_registrations_unwatch hregistered).mp hfirst).1
      ((hw.mem_registrations_unwatch hregistered).mp hsecond).1
  · refine hw.nodup_update ?_
    rw [htm]
    exact hnodup.2
  · intro id' hge
    simp only [WatchManager.unwatch, hid] at hge ⊢
    by_cases heq : id' = id
    · rw [heq, Function.update_self]
    · rw [Function.update_of_ne heq]
      exact hw.fresh hge

/-- A handler gives up all its keys. -/
theorem clear (hw : Watching transactions m) {h : HandlerId} {tm : TransactionManager}
    (htm : tm.watchedKeys = []) :
    Watching (Function.update transactions h tm)
      ((transactions h).watchedKeys.foldl (fun m watched => m.unwatch watched.2) m) := by
  generalize hkeys : (transactions h).watchedKeys = keys
  induction keys generalizing transactions m with
  | nil =>
      refine hw.congr fun h' => ?_
      by_cases heq : h' = h
      · subst heq
        rw [Function.update_self, htm, hkeys]
      · rw [Function.update_of_ne heq]
  | cons watched keys ih =>
      rcases watched with ⟨key, id⟩
      have hstep := @Watching.unwatch transactions m hw h { tm with watchedKeys := keys } key id keys
        hkeys rfl
      have hrest := ih hstep (by rw [Function.update_self])
      rw [Function.update_idem] at hrest
      exact hrest

end Watching

/-! ## The commands on watched keys -/

/-- A key that is new to the transaction manager is remembered. -/
theorem watchedKeys_associate {tm : TransactionManager} {key : Bytes}
    (hnew : (tm.watchKey key).2 = true) (id : Nat) :
    ((tm.watchKey key).1.associateWatchId key id).watchedKeys = tm.watchedKeys ++ [(key, id)] := by
  unfold TransactionManager.watchKey at hnew ⊢
  split at hnew
  · contradiction
  · rename_i hnone
    rw [if_neg hnone]
    simp only [TransactionManager.associateWatchId, List.map_append, List.map_cons, List.map_nil,
      if_true]
    congr 1
    have hsame : ∀ watched ∈ tm.watchedKeys,
        (if watched.1 = key then (watched.1, id) else watched) = watched := by
      intro watched hmem
      rw [if_neg]
      intro heq
      exact hnone (List.any_eq_true.mpr ⟨watched, hmem, by simpa using heq⟩)
    exact (List.map_congr_left hsame).trans (List.map_id _)

/-- The loop of {lit}`WATCH` goes through its keys one by one. -/
theorem watchKeys_cons (h : HandlerId) (tm : TransactionManager) (m : WatchManager HandlerId)
    (key : Bytes) (keys : List Bytes) :
    Server.watchKeys h (tm, m) (key :: keys) =
      Server.watchKeys h
        (if (tm.watchKey key).2 then
          ((tm.watchKey key).1.associateWatchId key (m.watch key h).2, (m.watch key h).1)
        else (tm, m)) keys :=
  rfl

/-- {lit}`WATCH` keeps the registrations in step, remembers its keys and those
before, and does not touch the rest of the transaction. -/
theorem watchKeys_spec {transactions : HandlerId → TransactionManager}
    {m : WatchManager HandlerId} {h : HandlerId} {tm : TransactionManager}
    (hw : Watching (Function.update transactions h tm) m) (keys : List Bytes) :
    Watching (Function.update transactions h (Server.watchKeys h (tm, m) keys).1)
        (Server.watchKeys h (tm, m) keys).2 ∧
      (∀ key, (key ∈ keys ∨ ∃ id, (key, id) ∈ tm.watchedKeys) ↔
        ∃ id, (key, id) ∈ (Server.watchKeys h (tm, m) keys).1.watchedKeys) ∧
      (Server.watchKeys h (tm, m) keys).1.dirty = tm.dirty ∧
      (Server.watchKeys h (tm, m) keys).1.inTransaction = tm.inTransaction := by
  induction keys generalizing tm m with
  | nil => exact ⟨hw, by simp [Server.watchKeys], rfl, rfl⟩
  | cons key keys ih =>
      rw [watchKeys_cons]
      by_cases hnew : (tm.watchKey key).2 = true
      · have hkeys := watchedKeys_associate hnew (m.watch key h).2
        have hstep := @Watching.watch _ _ hw h
          ((tm.watchKey key).1.associateWatchId key (m.watch key h).2) key
          (by rw [hkeys, Function.update_self]; rfl)
        rw [Function.update_idem] at hstep
        rcases ih hstep with ⟨hwatch, hall, hdirty, hactive⟩
        rw [if_pos hnew]
        refine ⟨hwatch, ?_, ?_, ?_⟩
        · intro key'
          rw [← hall, hkeys]
          simp only [List.mem_cons, List.mem_append, List.not_mem_nil, or_false, Prod.mk.injEq]
          constructor
          · rintro ((rfl | hmem) | ⟨id, hmem⟩)
            · exact Or.inr ⟨_, Or.inr ⟨rfl, rfl⟩⟩
            · exact Or.inl hmem
            · exact Or.inr ⟨id, Or.inl hmem⟩
          · rintro (hmem | ⟨id, hmem | ⟨rfl, -⟩⟩)
            · exact Or.inl (Or.inr hmem)
            · exact Or.inr ⟨id, hmem⟩
            · exact Or.inl (Or.inl rfl)
        · rw [hdirty]
          unfold TransactionManager.watchKey TransactionManager.associateWatchId
          split <;> rfl
        · rw [hactive]
          unfold TransactionManager.watchKey TransactionManager.associateWatchId
          split <;> rfl
      · rcases ih hw with ⟨hwatch, hall, hdirty, hactive⟩
        rw [if_neg hnew]
        refine ⟨hwatch, ?_, hdirty, hactive⟩
        intro key'
        have hwatched : ∃ id, (key, id) ∈ tm.watchedKeys := by
          unfold TransactionManager.watchKey at hnew
          split at hnew
          · rename_i hany
            rcases List.any_eq_true.mp hany with ⟨⟨key₁, id⟩, hmem, heq⟩
            simp only [decide_eq_true_eq] at heq
            subst heq
            exact ⟨id, hmem⟩
          · contradiction
        rw [← hall]
        simp only [List.mem_cons]
        constructor
        · rintro ((rfl | hmem) | hmem)
          · exact Or.inr hwatched
          · exact Or.inl hmem
          · exact Or.inr hmem
        · rintro (hmem | hmem)
          · exact Or.inl (Or.inr hmem)
          · exact Or.inr hmem

/-! ## Whole states -/

variable {env : Env}

/-- A command that controls transactions keeps the registrations in step. -/
theorem watching_transacts {transactions : HandlerId → TransactionManager}
    {m : WatchManager HandlerId} (hw : Watching transactions m) {h : HandlerId} {cmd : Command}
    {change : TransactionManager × WatchManager HandlerId} {response : Bytes}
    (hchange : Transacts h (transactions h) m cmd change response) :
    Watching (Function.update transactions h change.1) change.2 := by
  cases hchange with
  | begins htype =>
      refine hw.congr fun h' => ?_
      by_cases heq : h' = h
      · subst heq
        rw [Function.update_self]
        rfl
      · rw [Function.update_of_ne heq]
  | aborts htype hactive hdirty => exact hw.clear rfl
  | empties htype hactive hclean => exact hw.clear rfl
  | discards htype hactive => exact hw.clear rfl
  | watches htype hidle =>
      refine (watchKeys_spec ?_ cmd.args).1
      rw [Function.update_eq_self]
      exact hw
  | unwatches htype hargs => exact hw.clear rfl

/-- Every task keeps the registrations in step. -/
theorem watching_acts {s s' : Server} {task : Task} {r : Except Exception (List Task)}
    (hw : Watching s.transactions s.watches) (hacts : Acts env s task s' r) :
    Watching s'.transactions s'.watches := by
  cases hacts with
  | @queued h request cmd number hformat hparse htype hactive =>
      refine hw.congr fun h' => ?_
      by_cases heq : h' = h
      · subst heq
        simp [TransactionManager.queueCommand]
      · simp [Function.update_of_ne heq]
  | @ran h request cmd onReply body d outcome hbody hresult =>
      cases outcome with
      | answer a =>
          simp only [Server.settle]
          split
          · refine hw.congr fun h' => ?_
            simp only [Server.notifyWrite_transactions]
            split <;> rfl
          · exact hw
      | blockBlpop keys timeout => exact hw
      | blockXread streams timeout => exact hw
  | transacted hchange => exact watching_transacts hw hchange
  | started htype hactive hclean hqueue => exact hw.clear rfl
  | collected hcontext hindex type request response =>
      split
      · exact hw
      · exact hw
  | _ => exact hw

/-- Every event keeps the registrations in step. -/
theorem watching_step {t t' : StoreThread} {event : Event}
    (hw : Watching t.server.transactions t.server.watches)
    (hstep : t.step env event = some t') :
    Watching t'.server.transactions t'.server.watches := by
  cases moves_of_step hstep with
  | calls stack hact => exact watching_acts hw (acts_of_act hact)
  | throws above onReply below hact => exact watching_acts hw (acts_of_act hact)
  | @timeout s i timer htimer hqueued =>
      rw [onTimeout_transactions, onTimeout_watches]
      exact hw
  | _ => exact hw

/-- Nothing is watched at the start. -/
theorem watching_initial : Watching Server.initial.transactions Server.initial.watches := by
  constructor
  · intro h key id hmem
    simp [TransactionManager.fresh] at hmem
  · intro h key id hmem
    simp at hmem
  · intro h h' key key' id hmem
    simp at hmem
  · intro h
    simp [TransactionManager.fresh]
  · intro id _
    rfl

end RedisClone
