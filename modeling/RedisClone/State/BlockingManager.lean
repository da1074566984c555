import RedisClone.Util.Text

/-!
# Registries of blocked clients

{lit}`BlockingRegistry` keeps, for each key, the queue of callbacks that wait for
it, and for each registration the keys it was made for.  The callback type is a
parameter, as in the source: {lit}`BLPOP` and {lit}`XREAD` have one registry
each.

Main results:

- Theorem {lit}`waiters_registerCallbacks`: a registration is queued last at each
  of its keys, once for each time the key is listed.
- Theorem {lit}`waiters_unregister`: a registration is removed from the queues of
  its keys.
-/

namespace RedisClone

/-- {lit}`BlockingRegistry<CallbackType>`. -/
structure BlockingRegistry (κ : Type) where
  /-- The queue of each key: registration identifiers and callbacks. -/
  callbacks : Bytes → Option (List (Nat × κ))
  idToKeys : Nat → Option (List Bytes)
  /-- {lit}`next_id_`, a {lit}`uint64_t` that would wrap around behind 2^64 registrations. -/
  nextId : Nat

namespace BlockingRegistry

variable {κ : Type}

/-- A registry without registrations; identifiers start at one. -/
def empty : BlockingRegistry κ :=
  ⟨fun _ => none, fun _ => none, 1⟩

/-- {lit}`callbacks_[key].push_back`. -/
def enqueue (callbacks : Bytes → Option (List (Nat × κ))) (registration : Nat × κ)
    (key : Bytes) : Bytes → Option (List (Nat × κ)) :=
  Function.update callbacks key (some ((callbacks key).getD [] ++ [registration]))

/-- {lit}`BlockingRegistry::register_callbacks`: a key that is listed twice gets
two registrations. -/
def registerCallbacks (r : BlockingRegistry κ) (keys : List Bytes) (callback : κ) :
    BlockingRegistry κ × Nat :=
  (⟨keys.foldl (fun callbacks key => enqueue callbacks (r.nextId, callback) key) r.callbacks,
    Function.update r.idToKeys r.nextId (some keys), r.nextId + 1⟩, r.nextId)

/-- {lit}`std::erase_if` on the queue of a key; an empty queue is erased. -/
def dequeue (callbacks : Bytes → Option (List (Nat × κ))) (id : Nat) (key : Bytes) :
    Bytes → Option (List (Nat × κ)) :=
  let rest := ((callbacks key).getD []).filter fun registration => registration.1 ≠ id
  Function.update callbacks key (if rest = [] then none else some rest)

/-- {lit}`BlockingRegistry::unregister`. -/
def unregister (r : BlockingRegistry κ) (id : Nat) : BlockingRegistry κ :=
  match r.idToKeys id with
  | none => r
  | some keys =>
      { r with
        callbacks := keys.foldl (fun callbacks key => dequeue callbacks id key) r.callbacks
        idToKeys := Function.update r.idToKeys id none }

/-- The registrations that wait for a key, first come first. -/
def waiters (r : BlockingRegistry κ) (key : Bytes) : List (Nat × κ) :=
  (r.callbacks key).getD []

/-! ## Queues behind registration and removal -/

@[simp]
theorem waiters_empty (key : Bytes) : (empty : BlockingRegistry κ).waiters key = [] :=
  rfl

/-- The queue of a key behind one {lit}`push_back`. -/
theorem enqueue_getD (callbacks : Bytes → Option (List (Nat × κ))) (registration : Nat × κ)
    (key key' : Bytes) :
    (enqueue callbacks registration key key').getD [] =
      (callbacks key').getD [] ++ if key' = key then [registration] else [] := by
  unfold enqueue
  by_cases h : key' = key
  · subst h
    simp
  · simp [h]

/-- A registration is queued last, once for each time the key is listed. -/
theorem waiters_registerCallbacks (r : BlockingRegistry κ) (keys : List Bytes) (callback : κ)
    (key : Bytes) :
    (r.registerCallbacks keys callback).1.waiters key =
      r.waiters key ++ List.replicate (keys.count key) (r.nextId, callback) := by
  unfold waiters registerCallbacks
  simp only
  induction keys generalizing r with
  | nil => simp
  | cons first keys ih =>
      have hlater := ih ⟨enqueue r.callbacks (r.nextId, callback) first, r.idToKeys, r.nextId⟩
      simp only at hlater
      rw [List.foldl_cons, hlater, enqueue_getD, List.append_assoc, List.count_cons]
      by_cases h : key = first
      · subst h
        simp [List.replicate_succ]
      · simp [h, Ne.symm h]

/-- The queue of a key behind one {lit}`erase_if`. -/
theorem dequeue_getD (callbacks : Bytes → Option (List (Nat × κ))) (id : Nat)
    (key key' : Bytes) :
    (dequeue callbacks id key key').getD [] =
      if key' = key then ((callbacks key').getD []).filter fun registration => registration.1 ≠ id
      else (callbacks key').getD [] := by
  unfold dequeue
  by_cases h : key' = key
  · subst h
    simp only [Function.update_self, if_true]
    split
    · rename_i hempty
      rw [hempty]
      rfl
    · rfl
  · simp [h]

/-- A registration is removed from the queues of its keys. -/
theorem waiters_unregister (r : BlockingRegistry κ) (id : Nat) (key : Bytes) :
    (r.unregister id).waiters key =
      if key ∈ (r.idToKeys id).getD [] then
        (r.waiters key).filter fun registration => registration.1 ≠ id
      else r.waiters key := by
  have hloop : ∀ (keys : List Bytes) (callbacks : Bytes → Option (List (Nat × κ))),
      (keys.foldl (fun callbacks key => dequeue callbacks id key) callbacks key).getD [] =
        if key ∈ keys then
          ((callbacks key).getD []).filter fun registration => registration.1 ≠ id
        else (callbacks key).getD [] := by
    intro keys
    induction keys with
    | nil => simp
    | cons first keys ih =>
        intro callbacks
        rw [List.foldl_cons, ih, dequeue_getD]
        by_cases hfirst : key = first
        · simp [hfirst]
        · simp [hfirst]
  unfold unregister waiters
  cases hkeys : r.idToKeys id with
  | none => simp
  | some keys => simpa using hloop keys r.callbacks

/-- Removal makes no new waiters. -/
theorem mem_waiters_of_unregister {r : BlockingRegistry κ} {id : Nat} {key : Bytes}
    {registration : Nat × κ} (h : registration ∈ (r.unregister id).waiters key) :
    registration ∈ r.waiters key := by
  rw [waiters_unregister] at h
  split at h
  · exact List.mem_of_mem_filter h
  · exact h

/-- A waiter behind a registration is an old one or the new one. -/
theorem mem_waiters_of_register {r : BlockingRegistry κ} {keys : List Bytes} {callback : κ}
    {key : Bytes} {registration : Nat × κ}
    (h : registration ∈ (r.registerCallbacks keys callback).1.waiters key) :
    registration ∈ r.waiters key ∨ registration = (r.nextId, callback) := by
  rw [waiters_registerCallbacks, List.mem_append] at h
  rcases h with h | h
  · exact Or.inl h
  · exact Or.inr (List.eq_of_mem_replicate h)

end BlockingRegistry

end RedisClone
