import RedisClone.State.Serving

/-!
# Runs of a registry

A {lit}`BlockingRegistry` keeps two maps in step: the queue of each key, and the keys of each
registration.  The maps agree behind every sequence of {lit}`register_callbacks` and
{lit}`unregister`, also if keys are repeated and if identifiers are unknown or removed twice:
a registration stands in the queue of a key as often as the key was listed.

Main results:

- Theorem {lit}`Coherent.register` and {lit}`Coherent.unregister`: what one call preserves.
- Theorem {lit}`calls_returned`: the identifiers are handed out one after the other.
- Theorem {lit}`Consistent.waiters_unregister`: removal takes exactly the registrations with
  the identifier.
- Theorem {lit}`registry_coherent`: the state of a registry behind any calls.
-/

namespace RedisClone

/-- A call of a member function of {lit}`BlockingRegistry`. -/
inductive RegistryCall (κ : Type) where
  | registerCallbacks (keys : List Bytes) (callback : κ)
  | unregister (id : Nat)

namespace BlockingRegistry

variable {κ : Type}

/-- A call, with the identifier that it returns. -/
def call (r : BlockingRegistry κ) : RegistryCall κ → BlockingRegistry κ × Option Nat
  | .registerCallbacks keys callback =>
      ((r.registerCallbacks keys callback).1, some (r.registerCallbacks keys callback).2)
  | .unregister id => (r.unregister id, none)

/-- Calls one after the other, with the identifiers that they return. -/
def calls (r : BlockingRegistry κ) : List (RegistryCall κ) → BlockingRegistry κ × List Nat
  | [] => (r, [])
  | first :: later =>
      (((r.call first).1.calls later).1, (r.call first).2.toList ++ ((r.call first).1.calls later).2)

/-- A registry that was used through its member functions. -/
def after (history : List (RegistryCall κ)) : BlockingRegistry κ :=
  (empty.calls history).1

/-! ## The invariant -/

/-- No queue is kept without a registration. -/
def NoEmptyQueue (callbacks : Bytes → Option (List (Nat × κ))) : Prop :=
  ∀ key, callbacks key ≠ some []

/-- The parts of a registry agree. -/
structure Coherent (r : BlockingRegistry κ) : Prop where
  /-- A registration stands in the queue of a key as often as the key was listed. -/
  count : ∀ key id, (r.waiters key).countP (fun waiter => waiter.1 = id) =
    ((r.idToKeys id).getD []).count key
  /-- Queues are in the order of the identifiers. -/
  ordered : ∀ key, ((r.waiters key).map Prod.fst).Pairwise (· ≤ ·)
  stored : NoEmptyQueue r.callbacks
  /-- Identifiers are handed out in order. -/
  fresh : ∀ id, r.nextId ≤ id → r.idToKeys id = none

theorem coherent_empty : (empty : BlockingRegistry κ).Coherent where
  count _ _ := rfl
  ordered _ := .nil
  stored _ := by simp [empty]
  fresh _ _ := rfl

variable {r : BlockingRegistry κ}

/-- A registration is queued at a key exactly if it is known with that key. -/
theorem Coherent.queued_iff (h : r.Coherent) (key : Bytes) (id : Nat) :
    (∃ callback, (id, callback) ∈ r.waiters key) ↔
      ∃ keys, r.idToKeys id = some keys ∧ key ∈ keys := by
  have hqueued : (∃ callback, (id, callback) ∈ r.waiters key) ↔
      0 < (r.waiters key).countP (fun waiter => waiter.1 = id) := by
    rw [List.countP_pos_iff]
    constructor
    · rintro ⟨callback, hmem⟩
      exact ⟨(id, callback), hmem, by simp⟩
    · rintro ⟨⟨id', callback⟩, hmem, heq⟩
      have heq' : id' = id := by simpa using heq
      exact ⟨callback, heq' ▸ hmem⟩
  rw [hqueued, h.count, List.count_pos_iff]
  cases r.idToKeys id with
  | none => simp
  | some keys => simp

/-- Coherent registries are consistent. -/
theorem Coherent.consistent (h : r.Coherent) : r.Consistent :=
  ⟨fun key waiter hmem => (h.queued_iff key waiter.1).mp ⟨waiter.2, hmem⟩, h.fresh⟩

/-! ## Registration -/

/-- {lit}`push_back` leaves a registration in the queue. -/
theorem noEmptyQueue_enqueue {callbacks : Bytes → Option (List (Nat × κ))}
    (h : NoEmptyQueue callbacks) (registration : Nat × κ) (first : Bytes) :
    NoEmptyQueue (enqueue callbacks registration first) := by
  intro key
  unfold enqueue
  by_cases heq : key = first
  · simp [heq]
  · simpa [heq] using h key

/-- Registration keeps the parts in agreement. -/
theorem Coherent.register (h : r.Coherent) (keys : List Bytes) (callback : κ) :
    (r.registerCallbacks keys callback).1.Coherent where
  count key id := by
    rw [waiters_registerCallbacks, List.countP_append, h.count, List.countP_replicate]
    by_cases hid : id = r.nextId
    · subst hid
      simp [registerCallbacks, h.fresh r.nextId le_rfl]
    · simp [registerCallbacks, hid, Ne.symm hid]
  ordered key := by
    rw [waiters_registerCallbacks, List.map_append, List.map_replicate, List.pairwise_append]
    refine ⟨h.ordered key, List.pairwise_replicate.mpr (.inr le_rfl), ?_⟩
    intro earlier hearlier later hlater
    rcases List.mem_map.mp hearlier with ⟨waiter, hwaiter, rfl⟩
    rw [List.eq_of_mem_replicate hlater]
    exact (h.consistent.lt_nextId (h.consistent.registered hwaiter)).le
  stored :=
    List.foldlRecOn (motive := NoEmptyQueue) keys _ h.stored fun _ hcallbacks first _ =>
      noEmptyQueue_enqueue hcallbacks _ first
  fresh := (h.consistent.registerCallbacks keys callback).fresh

/-! ## Removal -/

/-- Removal takes the registrations with the identifier from every queue, and no other. -/
theorem Consistent.waiters_unregister (h : r.Consistent) (id : Nat) (key : Bytes) :
    (r.unregister id).waiters key = (r.waiters key).filter fun waiter => waiter.1 ≠ id := by
  rw [BlockingRegistry.waiters_unregister]
  split
  · rfl
  · rename_i hkey
    -- a queue of another key does not have the identifier
    refine (List.filter_eq_self.mpr fun waiter hmem => ?_).symm
    rcases h.queued key waiter hmem with ⟨keys, hkeys, hmemKeys⟩
    have hne : waiter.1 ≠ id := by
      rintro rfl
      exact hkey (by simpa [hkeys] using hmemKeys)
    simpa using hne

/-- {lit}`erase_if` erases a queue without registrations. -/
theorem noEmptyQueue_dequeue {callbacks : Bytes → Option (List (Nat × κ))}
    (h : NoEmptyQueue callbacks) (id : Nat) (first : Bytes) :
    NoEmptyQueue (dequeue callbacks id first) := by
  intro key
  unfold dequeue
  by_cases heq : key = first
  · subst heq
    simp only [Function.update_self]
    split
    · simp
    · rename_i hrest
      simpa using hrest
  · simpa [heq] using h key

/-- Removal keeps the parts in agreement. -/
theorem Coherent.unregister (h : r.Coherent) (removed : Nat) : (r.unregister removed).Coherent where
  count key id := by
    rw [h.consistent.waiters_unregister, idToKeys_unregister, List.countP_filter]
    by_cases hid : id = removed
    · subst hid
      simp
    · rw [if_neg hid, ← h.count]
      refine List.countP_congr fun waiter _ => ?_
      have himp : waiter.1 = id → waiter.1 ≠ removed := fun heq => heq ▸ hid
      simpa using himp
  ordered key := by
    rw [h.consistent.waiters_unregister]
    exact (h.ordered key).sublist (List.filter_sublist.map _)
  stored := by
    unfold BlockingRegistry.unregister
    split
    · exact h.stored
    · rename_i keys _
      exact List.foldlRecOn (motive := NoEmptyQueue) keys _ h.stored fun _ hcallbacks first _ =>
        noEmptyQueue_dequeue hcallbacks _ first
  fresh := (h.consistent.unregister removed).fresh

/-! ## Runs -/

/-- One call keeps the parts in agreement. -/
theorem Coherent.call (h : r.Coherent) (c : RegistryCall κ) : (r.call c).1.Coherent := by
  cases c with
  | registerCallbacks keys callback => exact h.register keys callback
  | unregister id => exact h.unregister id

/-- Any calls keep the parts in agreement. -/
theorem Coherent.calls (h : r.Coherent) (history : List (RegistryCall κ)) :
    (r.calls history).1.Coherent := by
  induction history generalizing r with
  | nil => exact h
  | cons first later ih => exact ih (h.call first)

theorem coherent_after (history : List (RegistryCall κ)) : (after history).Coherent :=
  coherent_empty.calls history

/-- The call is a registration. -/
def isRegistration : RegistryCall κ → Bool
  | .registerCallbacks _ _ => true
  | .unregister _ => false

/-- Registrations get one identifier after the other, whatever is removed in between. -/
theorem calls_returned (r : BlockingRegistry κ) (history : List (RegistryCall κ)) :
    (r.calls history).2 = List.range' r.nextId (history.countP isRegistration) := by
  induction history generalizing r with
  | nil => rfl
  | cons first later ih =>
      rw [BlockingRegistry.calls, ih]
      cases first with
      | registerCallbacks keys callback =>
          rw [List.countP_cons_of_pos rfl, List.range'_succ]
          rfl
      | unregister id =>
          rw [List.countP_cons_of_neg (by simp [isRegistration])]
          simp [BlockingRegistry.call]

/-- Behind any calls, a registration is queued at a key exactly if it is known with that key,
queues are in the order of the identifiers, no queue is kept empty, the identifiers that
were returned are different ones, and removal takes exactly the registrations with the
identifier. -/
theorem registry_coherent (history : List (RegistryCall κ)) :
    (∀ key id, (∃ callback, (id, callback) ∈ (after history).waiters key) ↔
      ∃ keys, (after history).idToKeys id = some keys ∧ key ∈ keys) ∧
    (∀ key, (((after history).waiters key).map Prod.fst).Pairwise (· ≤ ·)) ∧
    (∀ key, (after history).callbacks key ≠ some []) ∧
    ((empty : BlockingRegistry κ).calls history).2.Pairwise (· < ·) ∧
    ∀ id, (∀ key, ((after history).unregister id).waiters key =
        ((after history).waiters key).filter fun waiter => waiter.1 ≠ id) ∧
      ∀ id', ((after history).unregister id).idToKeys id' =
        if id' = id then none else (after history).idToKeys id' := by
  have hcoherent := coherent_after history
  refine ⟨hcoherent.queued_iff, hcoherent.ordered, hcoherent.stored, ?_, fun id => ⟨?_, ?_⟩⟩
  · rw [calls_returned]
    exact List.pairwise_lt_range'
  · exact hcoherent.consistent.waiters_unregister id
  · exact idToKeys_unregister _ id

end BlockingRegistry

end RedisClone
