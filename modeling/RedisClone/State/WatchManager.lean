import RedisClone.Util.Text

/-!
# Watched keys

{lit}`WatchManager` keeps the {lit}`WATCH` registrations of all connections.  The
callback of a registration marks a transaction as dirty; the callback type is a
parameter here, since the manager only calls it.

Main results:

- Theorem {lit}`mem_registrations_watch` and {lit}`mem_registrations_unwatch`: the
  registrations behind each operation.
-/

namespace RedisClone

/-- {lit}`WatchManager`. -/
structure WatchManager (κ : Type) where
  watchers : Bytes → Option (List (Nat × κ))
  idToKeys : Nat → Option (List Bytes)
  /-- {lit}`next_id_`, a {lit}`uint64_t` that would wrap around behind 2^64 registrations. -/
  nextId : Nat

namespace WatchManager

variable {κ : Type}

/-- No key is watched; identifiers start at one. -/
def empty : WatchManager κ :=
  ⟨fun _ => none, fun _ => none, 1⟩

/-- {lit}`WatchManager::watch`. -/
def watch (m : WatchManager κ) (key : Bytes) (callback : κ) : WatchManager κ × Nat :=
  (⟨Function.update m.watchers key (some ((m.watchers key).getD [] ++ [(m.nextId, callback)])),
    Function.update m.idToKeys m.nextId (some ((m.idToKeys m.nextId).getD [] ++ [key])),
    m.nextId + 1⟩, m.nextId)

/-- One round of the loop of {lit}`unwatch`: a key without watchers is skipped. -/
def unwatchKey (watchers : Bytes → Option (List (Nat × κ))) (id : Nat) (key : Bytes) :
    Bytes → Option (List (Nat × κ)) :=
  match watchers key with
  | none => watchers
  | some registrations =>
      let rest := registrations.filter fun registration => registration.1 ≠ id
      Function.update watchers key (if rest = [] then none else some rest)

/-- {lit}`WatchManager::unwatch`. -/
def unwatch (m : WatchManager κ) (id : Nat) : WatchManager κ :=
  match m.idToKeys id with
  | none => m
  | some keys =>
      { m with
        watchers := keys.foldl (fun watchers key => unwatchKey watchers id key) m.watchers
        idToKeys := Function.update m.idToKeys id none }

/-- The callbacks that {lit}`WatchManager::notify_write` calls. -/
def notified (m : WatchManager κ) (key : Bytes) : List κ :=
  ((m.watchers key).getD []).map Prod.snd

/-! ## Registrations -/

/-- The registrations of a key. -/
def registrations (m : WatchManager κ) (key : Bytes) : List (Nat × κ) :=
  (m.watchers key).getD []

@[simp]
theorem registrations_empty (key : Bytes) : (empty : WatchManager κ).registrations key = [] :=
  rfl

/-- A callback is called for each of its registrations. -/
theorem mem_notified {m : WatchManager κ} {key : Bytes} {callback : κ} :
    callback ∈ m.notified key ↔ ∃ id, (id, callback) ∈ m.registrations key := by
  unfold notified registrations
  simp

/-- The registrations behind {lit}`watch`. -/
theorem registrations_watch (m : WatchManager κ) (key key' : Bytes) (callback : κ) :
    (m.watch key callback).1.registrations key' =
      if key' = key then m.registrations key ++ [(m.nextId, callback)]
      else m.registrations key' := by
  unfold watch registrations
  by_cases heq : key' = key
  · simp [heq]
  · simp [heq]

/-- {lit}`watch` adds one registration. -/
theorem mem_registrations_watch {m : WatchManager κ} {key key' : Bytes} {callback callback' : κ}
    {id : Nat} : (id, callback') ∈ (m.watch key callback).1.registrations key' ↔
      (id, callback') ∈ m.registrations key' ∨
        (key' = key ∧ id = m.nextId ∧ callback' = callback) := by
  rw [registrations_watch]
  by_cases heq : key' = key
  · simp [heq]
  · simp [heq]

/-- One round of {lit}`unwatch` removes the registration from one key. -/
theorem mem_unwatchKey {watchers : Bytes → Option (List (Nat × κ))} {id : Nat} {key key' : Bytes}
    {registration : Nat × κ} :
    registration ∈ (unwatchKey watchers id key key').getD [] ↔
      registration ∈ (watchers key').getD [] ∧ (registration.1 = id → key' ≠ key) := by
  unfold unwatchKey
  cases hkey : watchers key with
  | none =>
      refine ⟨fun h => ⟨h, ?_⟩, fun h => h.1⟩
      rintro - rfl
      simp [hkey] at h
  | some registrations =>
      by_cases heq : key' = key
      · subst heq
        simp only [Function.update_self, hkey, Option.getD_some, ne_eq, not_true, imp_false]
        split
        · rename_i hnone
          have hall := List.filter_eq_nil_iff.mp hnone
          simp only [Option.getD_none, List.not_mem_nil, false_iff, not_and, not_not]
          intro hmem
          simpa using hall registration hmem
        · simp
      · simp [heq]

/-- The rounds of {lit}`unwatch`. -/
theorem mem_unwatchKeys {id : Nat} (keys : List Bytes) {watchers : Bytes → Option (List (Nat × κ))}
    {key : Bytes} {registration : Nat × κ} :
    registration ∈ ((keys.foldl (fun watchers key => unwatchKey watchers id key) watchers) key).getD
        [] ↔
      registration ∈ (watchers key).getD [] ∧ (registration.1 = id → key ∉ keys) := by
  induction keys generalizing watchers with
  | nil => simp
  | cons key' keys ih =>
      rw [List.foldl_cons, ih, mem_unwatchKey, List.mem_cons, not_or]
      constructor
      · rintro ⟨⟨hmem, hfirst⟩, hrest⟩
        exact ⟨hmem, fun hid => ⟨hfirst hid, hrest hid⟩⟩
      · rintro ⟨hmem, hboth⟩
        exact ⟨⟨hmem, fun hid => (hboth hid).1⟩, fun hid => (hboth hid).2⟩

/-- The registrations behind {lit}`unwatch`. -/
theorem mem_registrations_unwatch {m : WatchManager κ} {id : Nat} {key : Bytes}
    {registration : Nat × κ} :
    registration ∈ (m.unwatch id).registrations key ↔
      registration ∈ m.registrations key ∧
        (registration.1 = id → key ∉ (m.idToKeys id).getD []) := by
  unfold unwatch
  cases hkeys : m.idToKeys id with
  | none => simp
  | some keys => exact mem_unwatchKeys keys

end WatchManager

end RedisClone
