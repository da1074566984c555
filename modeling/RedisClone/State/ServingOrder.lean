import RedisClone.State.RegistryRuns
import RedisClone.Command.ListMovements

/-!
# The order of serving

{lit}`serve_blpop_waiters` pops an element for the first waiter of a key, removes the waiter
from the queues of all its keys, and calls its callback, as long as there are waiters and
elements.  With callbacks that only write a reply, the whole call is a function of the
registry and the store.

Main results:

- Theorem {lit}`ServedInOrder.round`: a round in front of the others.
- Theorem {lit}`Consistent.servedInOrder`: the whole call.
- Theorem {lit}`serveBlpopWaiters_in_order`: first come, first served, in every registry.
-/

namespace RedisClone

/-! ## The loop -/

/-- The state behind {lit}`serve_blpop_waiters`, and the callbacks that were called, each with
its element. -/
structure Served (κ : Type) where
  registry : BlockingRegistry κ
  store : Store
  delivered : List ((Nat × κ) × Bytes)

/-- A pop of an element shortens the list. -/
theorem Store.length_listAt_lpop_one {d d' : Store} {key value : Bytes} {more : List Bytes}
    (hpop : d.lpop key 1 = (d', .ok (value :: more))) :
    (d'.listAt key).length < (d.listAt key).length := by
  have htake := congrArg List.length (Store.lpop_take d key 1)
  rw [hpop, List.length_append] at htake
  simp only [Store.taken, List.length_cons] at htake
  omega

variable {κ : Type}

/-- {lit}`BlockingManager::serve_blpop_waiters` with callbacks that do not call the manager. -/
def serveBlpopWaiters (key : Bytes) (r : BlockingRegistry κ) (d : Store) : Served κ :=
  match r.waiters key with
  | [] => ⟨r, d, []⟩
  | waiter :: _ =>
      match _hpop : d.lpop key 1 with
      | (d', .ok (value :: _)) =>
          let later := serveBlpopWaiters key (r.unregister waiter.1) d'
          ⟨later.registry, later.store, (waiter, value) :: later.delivered⟩
      | (d', .ok []) => ⟨r, d', []⟩
      | (_, .error _) => ⟨r, d, []⟩
termination_by (d.listAt key).length
decreasing_by exact Store.length_listAt_lpop_one _hpop

/-! ## Distinct waiters -/

namespace BlockingRegistry

/-- The waiters of a key, each one once, first come first. -/
def distinctWaiters (r : BlockingRegistry κ) (key : Bytes) : List (Nat × κ) :=
  (r.waiters key).eraseDupsBy fun waiter earlier => waiter.1 == earlier.1

theorem distinctWaiters_eq_nil {r : BlockingRegistry κ} {key : Bytes} (h : r.waiters key = []) :
    r.distinctWaiters key = [] := by
  unfold distinctWaiters
  rw [h]
  rfl

/-- The first waiter, and the others behind its removal. -/
theorem Consistent.distinctWaiters_eq_cons {r : BlockingRegistry κ} (h : r.Consistent)
    {key : Bytes} {waiter : Nat × κ} {more : List (Nat × κ)}
    (hwaiters : r.waiters key = waiter :: more) :
    r.distinctWaiters key = waiter :: (r.unregister waiter.1).distinctWaiters key := by
  unfold distinctWaiters
  rw [h.waiters_unregister, hwaiters, List.eraseDupsBy_cons]
  simp

end BlockingRegistry

/-! ## First come, first served -/

namespace Served

/-- The identifiers of the waiters that were served. -/
def ids (result : Served κ) : List Nat :=
  result.delivered.map fun delivery => delivery.1.1

end Served

/-- A call of {lit}`serve_blpop_waiters` that serves the waiters of the key in the order in which
they came. -/
structure ServedInOrder (key : Bytes) (r : BlockingRegistry κ) (d : Store) (result : Served κ) :
    Prop where
  /-- The first waiter gets the first element, and so on. -/
  delivered : result.delivered = (r.distinctWaiters key).zip (d.listAt key)
  /-- The other elements are left. -/
  elements : result.store.listAt key = (d.listAt key).drop (r.distinctWaiters key).length
  /-- A list of which the last element is delivered is removed. -/
  removed : result.delivered ≠ [] → result.store.listAt key = [] → result.store key = none
  /-- What is left of a list has the old deadline. -/
  kept : ∀ elements expiresAt, d key = some ⟨.list elements, expiresAt⟩ →
    result.store.listAt key ≠ [] →
    result.store key = some ⟨.list (result.store.listAt key), expiresAt⟩
  /-- No other value changes. -/
  noList : (∀ elements expiresAt, d key ≠ some ⟨.list elements, expiresAt⟩) → result.store = d
  elsewhere : ∀ key', key' ≠ key → result.store key' = d key'
  /-- Those who were served are removed from all queues; the others keep their place. -/
  queues : ∀ key', result.registry.waiters key' =
    (r.waiters key').filter fun waiter => waiter.1 ∉ result.ids
  known : ∀ id, result.registry.idToKeys id = if id ∈ result.ids then none else r.idToKeys id

section Rounds

variable {key : Bytes} {r : BlockingRegistry κ} {d : Store}

/-- No one waits, or there is no element. -/
theorem ServedInOrder.stop (h : r.waiters key = [] ∨ d.listAt key = []) :
    ServedInOrder key r d ⟨r, d, []⟩ where
  delivered := by
    rcases h with hnone | hempty
    · rw [BlockingRegistry.distinctWaiters_eq_nil hnone, List.zip_nil_left]
    · rw [hempty, List.zip_nil_right]
  elements := by
    rcases h with hnone | hempty
    · rw [BlockingRegistry.distinctWaiters_eq_nil hnone, List.length_nil, List.drop_zero]
    · rw [hempty, List.drop_nil]
  removed hdelivered := absurd rfl hdelivered
  kept elements expiresAt hlist _ := by simp [Store.listAt, hlist]
  noList _ := rfl
  elsewhere _ _ := rfl
  queues key' := by simp [Served.ids]
  known id := by simp [Served.ids]

/-- A stored list without elements is erased by the attempt to pop. -/
theorem ServedInOrder.empty_list {expiresAt : Option Int} (h : d key = some ⟨.list [], expiresAt⟩) :
    ServedInOrder key r d ⟨r, d.erase key, []⟩ where
  delivered := by simp [Store.listAt, h]
  elements := by simp [Store.listAt, h]
  removed hdelivered := absurd rfl hdelivered
  kept elements expiresAt hlist hne := by simp [Store.listAt] at hne
  noList hno := absurd h (hno _ _)
  elsewhere _ hne := Store.erase_of_ne hne d
  queues key' := by simp [Served.ids]
  known id := by simp [Served.ids]

/-- The list behind a pop of one element. -/
def Store.popFront (d : Store) (key : Bytes) (rest : List Bytes) (expiresAt : Option Int) : Store :=
  if rest = [] then d.erase key else d.put key ⟨.list rest, expiresAt⟩

theorem Store.listAt_popFront (d : Store) (key : Bytes) (rest : List Bytes)
    (expiresAt : Option Int) : (d.popFront key rest expiresAt).listAt key = rest := by
  unfold Store.popFront
  split
  · rename_i hrest
    simp [Store.listAt, hrest]
  · simp [Store.listAt]

/-- A pop that finds an element. -/
theorem Store.of_lpop_one {d' : Store} {value : Bytes} {more : List Bytes}
    (hpop : d.lpop key 1 = (d', .ok (value :: more))) :
    ∃ rest expiresAt, d key = some ⟨.list (value :: rest), expiresAt⟩ ∧
      d' = d.popFront key rest expiresAt := by
  unfold Store.lpop at hpop
  split at hpop
  · cases hpop
  · rename_i elements expiresAt hlist
    cases elements with
    | nil => simp at hpop
    | cons first rest =>
        simp only [List.length_cons, Nat.le_add_left, min_eq_left, List.drop_succ_cons,
          List.drop_zero, List.take_succ_cons, Prod.mk.injEq, Except.ok.injEq,
          List.cons.injEq] at hpop
        rcases hpop with ⟨hstore, rfl, -⟩
        exact ⟨rest, expiresAt, hlist, hstore.symm⟩
  · cases hpop

/-- A pop that finds a list without elements. -/
theorem Store.of_lpop_one_nil {d' : Store} (hpop : d.lpop key 1 = (d', .ok [])) :
    ∃ expiresAt, d key = some ⟨.list [], expiresAt⟩ ∧ d' = d.erase key := by
  unfold Store.lpop at hpop
  split at hpop
  · cases hpop
  · rename_i elements expiresAt hlist
    cases elements with
    | nil =>
        simp only [List.drop_nil, if_true, Prod.mk.injEq] at hpop
        exact ⟨expiresAt, hlist, hpop.1.symm⟩
    | cons first rest => simp at hpop
  · cases hpop

/-- A pop that finds no list. -/
theorem Store.of_lpop_one_error {d' : Store} {error : Bytes}
    (hpop : d.lpop key 1 = (d', .error error)) : d.listAt key = [] := by
  unfold Store.lpop at hpop
  unfold Store.listAt
  split at hpop
  · rename_i hnone
    rw [hnone]
  · cases hpop
  · rename_i hother hvalue
    split
    · rename_i hlist
      exact absurd (Option.some.inj (hvalue.symm.trans hlist)) (hother _ _)
    · rfl

/-- A round in front of the others. -/
theorem ServedInOrder.round (hr : r.Consistent) {waiter : Nat × κ} {more : List (Nat × κ)}
    (hwaiters : r.waiters key = waiter :: more) {value : Bytes} {rest : List Bytes}
    {expiresAt : Option Int} (hlist : d key = some ⟨.list (value :: rest), expiresAt⟩)
    {later : Served κ}
    (h : ServedInOrder key (r.unregister waiter.1) (d.popFront key rest expiresAt) later) :
    ServedInOrder key r d
      ⟨later.registry, later.store, (waiter, value) :: later.delivered⟩ := by
  have hdistinct := hr.distinctWaiters_eq_cons hwaiters
  have hbefore : d.listAt key = value :: rest := by simp [Store.listAt, hlist]
  have hafter := Store.listAt_popFront d key rest expiresAt
  have hids : Served.ids ⟨later.registry, later.store, (waiter, value) :: later.delivered⟩ =
      waiter.1 :: later.ids := rfl
  constructor
  case delivered => rw [h.delivered, hdistinct, hbefore, hafter, List.zip_cons_cons]
  case elements => rw [h.elements, hdistinct, hbefore, hafter, List.length_cons, List.drop_succ_cons]
  case removed =>
    intro _ hnil
    by_cases hlater : later.delivered = []
    · -- no one else was served, so the element of this round was the last one
      have hrest : rest = [] := by
        by_contra hne
        have hzip := h.delivered.symm.trans hlater
        rw [hafter, List.zip_eq_nil_iff] at hzip
        have hleft := h.elements.symm.trans hnil
        rw [hafter, hzip.resolve_right hne] at hleft
        exact hne hleft
      have hgone : d.popFront key rest expiresAt key = none := by simp [Store.popFront, hrest]
      rw [h.noList fun _ _ heq => absurd (hgone.symm.trans heq) (by simp), hgone]
    · exact h.removed hlater hnil
  case kept =>
    intro elements expiresAt' hlist' hleft
    rw [hlist] at hlist'
    cases hlist'
    have hrest : rest ≠ [] := by
      rintro rfl
      exact hleft (by simp [h.elements, hafter])
    exact h.kept rest expiresAt (by simp [Store.popFront, hrest]) hleft
  case noList => exact fun hno => absurd hlist (hno _ _)
  case elsewhere =>
    intro key' hne
    rw [h.elsewhere key' hne]
    unfold Store.popFront
    split
    · exact Store.erase_of_ne hne d
    · exact Store.put_of_ne hne d _
  case queues =>
    intro key'
    rw [h.queues, hr.waiters_unregister, List.filter_filter, hids]
    refine List.filter_congr fun other _ => ?_
    simp [Bool.and_comm]
  case known =>
    intro id
    rw [h.known, BlockingRegistry.idToKeys_unregister, hids]
    by_cases hid : id = waiter.1
    · simp [hid]
    · simp [hid]

/-- {lit}`serve_blpop_waiters` serves in order. -/
theorem BlockingRegistry.Consistent.servedInOrder (hr : r.Consistent) (key : Bytes) (d : Store) :
    ServedInOrder key r d (serveBlpopWaiters key r d) := by
  -- every round takes an element, so the induction is on the rounds
  fun_induction serveBlpopWaiters key r d with
  | case1 r d hnone => exact .stop (.inl hnone)
  | case2 r d waiter more hwaiters d' value _ hpop later ih =>
      rcases Store.of_lpop_one hpop with ⟨rest, expiresAt, hlist, rfl⟩
      exact .round hr hwaiters hlist (ih (hr.unregister waiter.1))
  | case3 r d waiter more hwaiters d' hpop =>
      rcases Store.of_lpop_one_nil hpop with ⟨expiresAt, hlist, rfl⟩
      exact .empty_list hlist
  | case4 r d waiter more hwaiters d' error hpop =>
      exact .stop (.inr (Store.of_lpop_one_error hpop))

end Rounds

/-- In every registry that is used through its member functions, {lit}`serve_blpop_waiters`
delivers the elements of the list to the distinct waiters of the key in the order in which
they came, leaves the other elements, removes those who were served from all queues and
keeps the place of the others. -/
theorem serveBlpopWaiters_in_order (history : List (RegistryCall κ)) (key : Bytes) (d : Store) :
    ServedInOrder key (.after history) d (serveBlpopWaiters key (.after history) d) :=
  (BlockingRegistry.coherent_after history).consistent.servedInOrder key d

end RedisClone
