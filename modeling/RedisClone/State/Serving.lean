import RedisClone.Lib.Execution
import RedisClone.State.BlockingManager

/-!
# Serving blocked clients

{lit}`BlockingManager` calls the callbacks of waiting clients, and a callback may call
the manager again: a resumed {lit}`EXEC` pushes, adds and blocks.  Here the callbacks
are arbitrary.  The manager keeps the loops that are running as a stack, and between
any two rounds of the innermost loop whoever runs may register and unregister
waiters and start further loops, or leave loops by an exception.

{lit}`serve_blpop_waiters` looks into the registry in every round, so a registration
is called at most once.  {lit}`serve_xread_waiters` works on a copy of the queue: a
registration that is removed while a copy of it waits, by a nested call for the same
stream or by its timeout, is called all the same.

Main results:

- Theorem {lit}`Consistent.unregister` and {lit}`Consistent.registerCallbacks`: queues
  and identifiers agree.
- Theorem {lit}`waiters_called_once`: {lit}`BLPOP` callbacks are called at most once,
  and {lit}`XREAD` callbacks are as long as no registration is removed while a copy
  of it waits.
- Theorem {lit}`xread_waiter_called_twice`: a callback that serves its own stream.
-/

namespace RedisClone

/-! ## Registries whose parts agree -/

namespace BlockingRegistry

variable {κ : Type}

/-- A registration in a queue is known with that key, and identifiers are handed out in
order. -/
structure Consistent (r : BlockingRegistry κ) : Prop where
  queued : ∀ key, ∀ waiter ∈ r.waiters key, ∃ keys, r.idToKeys waiter.1 = some keys ∧ key ∈ keys
  fresh : ∀ id, r.nextId ≤ id → r.idToKeys id = none

/-- The registration with this identifier has not been removed. -/
def Registered (r : BlockingRegistry κ) (id : Nat) : Prop :=
  (r.idToKeys id).isSome = true

instance (r : BlockingRegistry κ) (id : Nat) : Decidable (r.Registered id) :=
  inferInstanceAs (Decidable (_ = _))

theorem consistent_empty : (empty : BlockingRegistry κ).Consistent :=
  ⟨fun _ _ h => absurd h List.not_mem_nil, fun _ _ => rfl⟩

variable {r : BlockingRegistry κ} {id id' : Nat}

/-- Who waits is registered. -/
theorem Consistent.registered (h : r.Consistent) {key : Bytes} {waiter : Nat × κ}
    (hmem : waiter ∈ r.waiters key) : r.Registered waiter.1 := by
  rcases h.queued key waiter hmem with ⟨keys, hkeys, -⟩
  simp [Registered, hkeys]

/-- Identifiers in use were handed out. -/
theorem Consistent.lt_nextId (h : r.Consistent) (hid : r.Registered id) : id < r.nextId := by
  by_contra hge
  simp [Registered, h.fresh id (by omega)] at hid

@[simp]
theorem unregister_nextId (r : BlockingRegistry κ) (id : Nat) :
    (r.unregister id).nextId = r.nextId := by
  unfold unregister
  split <;> rfl

/-- Removal forgets the identifier and no other. -/
theorem idToKeys_unregister (r : BlockingRegistry κ) (id id' : Nat) :
    (r.unregister id).idToKeys id' = if id' = id then none else r.idToKeys id' := by
  unfold unregister
  split
  · rename_i hnone
    split
    · rename_i heq
      rw [heq, hnone]
    · rfl
  · by_cases heq : id' = id
    · simp [heq]
    · simp [heq]

theorem registered_unregister :
    (r.unregister id).Registered id' ↔ id' ≠ id ∧ r.Registered id' := by
  unfold Registered
  rw [idToKeys_unregister]
  by_cases heq : id' = id <;> simp [heq]

/-- Who is removed waits nowhere. -/
theorem Consistent.ne_of_mem_unregister (h : r.Consistent) {key : Bytes} {waiter : Nat × κ}
    (hmem : waiter ∈ (r.unregister id).waiters key) : waiter.1 ≠ id := by
  rintro rfl
  rcases h.queued key waiter (mem_waiters_of_unregister hmem) with ⟨keys, hkeys, hkey⟩
  rw [waiters_unregister, hkeys] at hmem
  simp [hkey] at hmem

/-- Removal keeps the parts in agreement. -/
theorem Consistent.unregister (h : r.Consistent) (id : Nat) : (r.unregister id).Consistent := by
  constructor
  · intro key waiter hmem
    rcases h.queued key waiter (mem_waiters_of_unregister hmem) with ⟨keys, hkeys, hkey⟩
    refine ⟨keys, ?_, hkey⟩
    rw [idToKeys_unregister, if_neg (h.ne_of_mem_unregister hmem)]
    exact hkeys
  · intro id' hge
    rw [unregister_nextId] at hge
    rw [idToKeys_unregister, h.fresh id' hge]
    simp

/-- A registration is known under a new identifier. -/
theorem registered_registerCallbacks {keys : List Bytes} {callback : κ} :
    (r.registerCallbacks keys callback).1.Registered id' ↔ id' = r.nextId ∨ r.Registered id' := by
  unfold Registered registerCallbacks
  by_cases heq : id' = r.nextId <;> simp [heq]

/-- Registration keeps the parts in agreement. -/
theorem Consistent.registerCallbacks (h : r.Consistent) (keys : List Bytes) (callback : κ) :
    (r.registerCallbacks keys callback).1.Consistent := by
  constructor
  · intro key waiter hmem
    rw [waiters_registerCallbacks, List.mem_append] at hmem
    rcases hmem with hmem | hmem
    · rcases h.queued key waiter hmem with ⟨keys', hkeys', hkey⟩
      have hne : waiter.1 ≠ r.nextId := (h.lt_nextId (h.registered hmem)).ne
      exact ⟨keys', by simp [BlockingRegistry.registerCallbacks, hne, hkeys'], hkey⟩
    · rcases List.mem_replicate.mp hmem with ⟨hcount, rfl⟩
      exact ⟨keys, by simp [BlockingRegistry.registerCallbacks],
        List.count_pos_iff.mp (Nat.pos_of_ne_zero hcount)⟩
  · intro id hge
    have hge' : r.nextId + 1 ≤ id := hge
    have hne : id ≠ r.nextId := by omega
    simp [BlockingRegistry.registerCallbacks, hne, h.fresh id (by omega)]

/-- A registration that is gone stays gone when another is made. -/
theorem gone_registerCallbacks (h : ¬ r.Registered id ∧ id < r.nextId) (keys : List Bytes)
    (callback : κ) :
    ¬ (r.registerCallbacks keys callback).1.Registered id ∧
      id < (r.registerCallbacks keys callback).1.nextId := by
  refine ⟨?_, Nat.lt_succ_of_lt h.2⟩
  rw [registered_registerCallbacks]
  rintro (heq | hback)
  · exact absurd h.2 (by omega)
  · exact h.1 hback

/-- A registration that is gone stays gone when another is removed. -/
theorem gone_unregister (h : ¬ r.Registered id ∧ id < r.nextId) (removed : Nat) :
    ¬ (r.unregister removed).Registered id ∧ id < (r.unregister removed).nextId := by
  rw [unregister_nextId]
  exact ⟨fun hback => h.1 (registered_unregister.mp hback).2, h.2⟩

/-- A registration is gone once it is removed. -/
theorem gone_of_unregister (hlt : id < r.nextId) :
    ¬ (r.unregister id).Registered id ∧ id < (r.unregister id).nextId := by
  rw [unregister_nextId]
  exact ⟨fun hback => (registered_unregister.mp hback).1 rfl, hlt⟩

end BlockingRegistry

/-! ## The manager -/

/-- A loop that is running: further rounds for a list, or a copied registration that is
still to be called. -/
inductive ServeFrame (ξ : Type) where
  | loop (key : Bytes)
  | wake (registration : Nat × ξ)
deriving DecidableEq

/-- A call of a callback, and whether the registration was still there when its turn
came. -/
structure WaiterCall where
  id : Nat
  registered : Bool
deriving DecidableEq

/-- {lit}`BlockingManager` with the loops that are running, innermost first, and the
callbacks that were called. -/
structure BlockingManager (β ξ : Type) where
  blpop : BlockingRegistry β
  xread : BlockingRegistry ξ
  frames : List (ServeFrame ξ)
  served : List WaiterCall
  woken : List WaiterCall

/-- What happens between the rounds, by whatever callback is running, and the rounds. -/
inductive ManagerEvent (β ξ : Type) where
  | registerBlpop (keys : List Bytes) (callback : β)
  | unregisterBlpop (id : Nat)
  | serveBlpop (key : Bytes)
  | registerXread (keys : List Bytes) (callback : ξ)
  | unregisterXread (id : Nat)
  | serveXread (key : Bytes)
  /-- The innermost loop makes a round; {lit}`lpop` finds an element or not. -/
  | round (element : Bool)
  /-- An exception ends the innermost loops. -/
  | unwind (count : Nat)

/-- The event is not an exception. -/
def ManagerEvent.completes {β ξ : Type} : ManagerEvent β ξ → Bool
  | .unwind _ => false
  | _ => true

namespace BlockingManager

variable {β ξ : Type}

/-- A manager that was just made. -/
def empty : BlockingManager β ξ :=
  ⟨.empty, .empty, [], [], []⟩

/-- A round of {lit}`serve_blpop_waiters`, or of {lit}`serve_xread_waiters`. -/
def round (m : BlockingManager β ξ) (element : Bool) : Option (BlockingManager β ξ) :=
  match m.frames with
  | [] => none
  | .loop key :: frames =>
      match m.blpop.waiters key with
      | [] => some { m with frames := frames }
      | (id, _) :: _ =>
          if element then
            some { m with
              blpop := m.blpop.unregister id
              served := m.served ++ [⟨id, decide (m.blpop.Registered id)⟩] }
          else some { m with frames := frames }
  | .wake (id, _) :: frames =>
      some { m with
        xread := m.xread.unregister id
        frames := frames
        woken := m.woken ++ [⟨id, decide (m.xread.Registered id)⟩] }

/-- One event. -/
def step (m : BlockingManager β ξ) : ManagerEvent β ξ → Option (BlockingManager β ξ)
  | .registerBlpop keys callback =>
      some { m with blpop := (m.blpop.registerCallbacks keys callback).1 }
  | .unregisterBlpop id => some { m with blpop := m.blpop.unregister id }
  | .serveBlpop key => some { m with frames := .loop key :: m.frames }
  | .registerXread keys callback =>
      some { m with xread := (m.xread.registerCallbacks keys callback).1 }
  | .unregisterXread id => some { m with xread := m.xread.unregister id }
  | .serveXread key =>
      some { m with frames := (m.xread.waiters key).map .wake ++ m.frames }
  | .round element => m.round element
  | .unwind count => some { m with frames := m.frames.drop count }

/-! ## Called once -/

/-- The identifiers of the copies that are still to be called. -/
def copies (frames : List (ServeFrame ξ)) : List Nat :=
  frames.filterMap fun
    | .loop _ => none
    | .wake registration => some registration.1

/-- A loop is not a copy. -/
theorem copies_loop (key : Bytes) (frames : List (ServeFrame ξ)) :
    copies (.loop key :: frames) = copies frames := by
  simp [copies]

/-- A copy that is next. -/
theorem copies_wake (registration : Nat × ξ) (frames : List (ServeFrame ξ)) :
    copies (.wake registration :: frames) = registration.1 :: copies frames := by
  simp [copies]

/-- Copies of the waiters of a stream. -/
theorem copies_append_wakes (waiters : List (Nat × ξ)) (frames : List (ServeFrame ξ)) :
    copies (waiters.map .wake ++ frames) = waiters.map Prod.fst ++ copies frames := by
  induction waiters with
  | nil => rfl
  | cons waiter waiters ih =>
      rw [List.map_cons, List.cons_append, copies_wake, ih]
      rfl

/-- The copies left behind an exception. -/
theorem mem_copies_of_drop {count id : Nat} {frames : List (ServeFrame ξ)}
    (h : id ∈ copies (frames.drop count)) : id ∈ copies frames :=
  ((List.drop_sublist count frames).filterMap _).subset h

/-- No registration is removed while a copy of it waits to be called: neither by
{lit}`unregister_xread` nor by a round that calls another copy of it. -/
def Undisturbed (m : BlockingManager β ξ) : ManagerEvent β ξ → Prop
  | .unregisterXread id => id ∉ copies m.frames
  | .round _ =>
      match m.frames with
      | .wake (id, _) :: frames => id ∉ copies frames
      | _ => True
  | _ => True

/-- Calls of a registry: each found its registration, which is gone since, and no
registration was called twice. -/
structure CalledOnce {κ : Type} (r : BlockingRegistry κ) (calls : List WaiterCall) : Prop where
  registered : ∀ call ∈ calls, call.registered = true
  gone : ∀ call ∈ calls, ¬ r.Registered call.id ∧ call.id < r.nextId
  nodup : (calls.map WaiterCall.id).Nodup

section Calls

variable {κ : Type} {r : BlockingRegistry κ} {calls : List WaiterCall}

/-- A new registration has a new identifier. -/
theorem CalledOnce.registerCallbacks (h : CalledOnce r calls) (keys : List Bytes) (callback : κ) :
    CalledOnce (r.registerCallbacks keys callback).1 calls :=
  ⟨h.registered, fun call hcall =>
    BlockingRegistry.gone_registerCallbacks (h.gone call hcall) keys callback, h.nodup⟩

/-- Removal brings nothing back. -/
theorem CalledOnce.unregister (h : CalledOnce r calls) (id : Nat) :
    CalledOnce (r.unregister id) calls :=
  ⟨h.registered, fun call hcall => BlockingRegistry.gone_unregister (h.gone call hcall) id,
    h.nodup⟩

/-- A registration that is there is removed and called. -/
theorem CalledOnce.call (h : CalledOnce r calls) (hr : r.Consistent) {id : Nat}
    (hid : r.Registered id) :
    CalledOnce (r.unregister id) (calls ++ [⟨id, decide (r.Registered id)⟩]) := by
  have hkept := h.unregister id
  refine ⟨?_, ?_, ?_⟩
  · intro call hcall
    rcases List.mem_append.mp hcall with hcall | hcall
    · exact h.registered call hcall
    · rw [List.mem_singleton.mp hcall]
      exact decide_eq_true hid
  · intro call hcall
    rcases List.mem_append.mp hcall with hcall | hcall
    · exact hkept.gone call hcall
    · rw [List.mem_singleton.mp hcall]
      exact BlockingRegistry.gone_of_unregister (hr.lt_nextId hid)
  · rw [List.map_append, List.map_singleton, List.nodup_append]
    refine ⟨h.nodup, List.nodup_singleton _, ?_⟩
    intro a ha b hb
    rcases List.mem_map.mp ha with ⟨call, hcall, rfl⟩
    rw [List.mem_singleton.mp hb]
    rintro rfl
    exact (h.gone call hcall).1 hid

end Calls

/-- What holds in every run: the registries agree with their queues, copies are of
registrations that were made, and {lit}`BLPOP` callbacks are called once. -/
structure ServesOnce (m : BlockingManager β ξ) : Prop where
  blpop : m.blpop.Consistent
  xread : m.xread.Consistent
  known : ∀ id ∈ copies m.frames, id < m.xread.nextId
  served : CalledOnce m.blpop m.served

/-- What holds besides in undisturbed runs: copies that wait are registered, and
{lit}`XREAD` callbacks are called once. -/
structure WakesOnce (m : BlockingManager β ξ) : Prop where
  serves : m.ServesOnce
  waiting : ∀ id ∈ copies m.frames, m.xread.Registered id
  woken : CalledOnce m.xread m.woken

variable {m m' : BlockingManager β ξ} {event : ManagerEvent β ξ}

/-- What a round does. -/
theorem round_cases {element : Bool} (h : m.round element = some m') :
    (∃ key frames, m.frames = .loop key :: frames ∧ m' = { m with frames := frames }) ∨
      (∃ key frames id callback later, m.frames = .loop key :: frames ∧
        m.blpop.waiters key = (id, callback) :: later ∧
        m' = { m with
          blpop := m.blpop.unregister id
          served := m.served ++ [⟨id, decide (m.blpop.Registered id)⟩] }) ∨
      ∃ id callback frames, m.frames = .wake (id, callback) :: frames ∧
        m' = { m with
          xread := m.xread.unregister id
          frames := frames
          woken := m.woken ++ [⟨id, decide (m.xread.Registered id)⟩] } := by
  unfold round at h
  split at h
  · contradiction
  · rename_i key frames hframes
    split at h
    · cases h
      exact .inl ⟨key, frames, hframes, rfl⟩
    · rename_i id callback later hwaiters
      split at h
      · cases h
        exact .inr (.inl ⟨key, frames, id, callback, later, hframes, hwaiters, rfl⟩)
      · cases h
        exact .inl ⟨key, frames, hframes, rfl⟩
  · rename_i id callback frames hframes
    cases h
    exact .inr (.inr ⟨id, callback, frames, hframes, rfl⟩)

/-- Every event keeps the {lit}`BLPOP` callbacks called once. -/
theorem servesOnce_step (h : m.ServesOnce) (hstep : m.step event = some m') : m'.ServesOnce := by
  cases event with
  | registerBlpop keys callback =>
      cases hstep
      exact ⟨h.blpop.registerCallbacks keys callback, h.xread, h.known,
        h.served.registerCallbacks keys callback⟩
  | unregisterBlpop id =>
      cases hstep
      exact ⟨h.blpop.unregister id, h.xread, h.known, h.served.unregister id⟩
  | serveBlpop key =>
      cases hstep
      refine ⟨h.blpop, h.xread, ?_, h.served⟩
      rw [copies_loop]
      exact h.known
  | registerXread keys callback =>
      cases hstep
      exact ⟨h.blpop, h.xread.registerCallbacks keys callback,
        fun id hid => Nat.lt_succ_of_lt (h.known id hid), h.served⟩
  | unregisterXread id =>
      cases hstep
      refine ⟨h.blpop, h.xread.unregister id, ?_, h.served⟩
      rw [BlockingRegistry.unregister_nextId]
      exact h.known
  | serveXread key =>
      cases hstep
      refine ⟨h.blpop, h.xread, fun id hid => ?_, h.served⟩
      rw [copies_append_wakes, List.mem_append] at hid
      rcases hid with hid | hid
      · rcases List.mem_map.mp hid with ⟨waiter, hwaiter, rfl⟩
        exact h.xread.lt_nextId (h.xread.registered hwaiter)
      · exact h.known id hid
  | round element =>
      rcases round_cases hstep with ⟨key, frames, hframes, rfl⟩ |
        ⟨key, frames, id, callback, later, -, hwaiters, rfl⟩ |
        ⟨id, callback, frames, hframes, rfl⟩
      · exact ⟨h.blpop, h.xread,
          fun id hid => h.known id (by rw [hframes, copies_loop]; exact hid), h.served⟩
      · have hid : m.blpop.Registered id :=
          h.blpop.registered (by rw [hwaiters]; exact List.mem_cons_self)
        exact ⟨h.blpop.unregister id, h.xread, h.known, h.served.call h.blpop hid⟩
      · refine ⟨h.blpop, h.xread.unregister id, fun id' hid => ?_, h.served⟩
        rw [BlockingRegistry.unregister_nextId]
        exact h.known id' (by rw [hframes, copies_wake]; exact List.mem_cons_of_mem _ hid)
  | unwind count =>
      cases hstep
      exact ⟨h.blpop, h.xread, fun id hid => h.known id (mem_copies_of_drop hid), h.served⟩

/-- In an undisturbed event the copies that wait stay registered. -/
theorem WakesOnce.waiting_step (h : m.WakesOnce) (hevent : m.Undisturbed event)
    (hstep : m.step event = some m') : ∀ id ∈ copies m'.frames, m'.xread.Registered id := by
  cases event with
  | registerXread keys callback =>
      cases hstep
      intro id hid
      exact BlockingRegistry.registered_registerCallbacks.mpr (.inr (h.waiting id hid))
  | unregisterXread removed =>
      cases hstep
      intro id hid
      have hne : id ≠ removed := fun heq => hevent (heq ▸ hid)
      exact BlockingRegistry.registered_unregister.mpr ⟨hne, h.waiting id hid⟩
  | serveBlpop key =>
      cases hstep
      intro id hid
      rw [copies_loop] at hid
      exact h.waiting id hid
  | serveXread key =>
      cases hstep
      intro id hid
      rw [copies_append_wakes, List.mem_append] at hid
      rcases hid with hid | hid
      · rcases List.mem_map.mp hid with ⟨waiter, hwaiter, rfl⟩
        exact h.serves.xread.registered hwaiter
      · exact h.waiting id hid
  | round element =>
      rcases round_cases hstep with ⟨key, frames, hframes, rfl⟩ |
        ⟨key, frames, id, callback, later, hframes, -, rfl⟩ |
        ⟨called, callback, frames, hframes, rfl⟩
      · intro id hid
        exact h.waiting id (by rw [hframes, copies_loop]; exact hid)
      · exact h.waiting
      · intro id hid
        simp only [Undisturbed, hframes] at hevent
        have hne : id ≠ called := fun heq => hevent (heq ▸ hid)
        refine BlockingRegistry.registered_unregister.mpr ⟨hne, h.waiting id ?_⟩
        rw [hframes, copies_wake]
        exact List.mem_cons_of_mem _ hid
  | unwind count =>
      cases hstep
      intro id hid
      exact h.waiting id (mem_copies_of_drop hid)
  | registerBlpop keys callback =>
      cases hstep
      exact h.waiting
  | unregisterBlpop id =>
      cases hstep
      exact h.waiting

/-- The callbacks of copies that are registered are called once. -/
theorem WakesOnce.woken_step (h : m.WakesOnce) (hstep : m.step event = some m') :
    CalledOnce m'.xread m'.woken := by
  cases event with
  | registerXread keys callback =>
      cases hstep
      exact h.woken.registerCallbacks keys callback
  | unregisterXread removed =>
      cases hstep
      exact h.woken.unregister removed
  | round element =>
      rcases round_cases hstep with ⟨key, frames, hframes, rfl⟩ |
        ⟨key, frames, id, callback, later, hframes, -, rfl⟩ |
        ⟨called, callback, frames, hframes, rfl⟩
      · exact h.woken
      · exact h.woken
      · refine h.woken.call h.serves.xread (h.waiting called ?_)
        rw [hframes, copies_wake]
        exact List.mem_cons_self
  | registerBlpop keys callback =>
      cases hstep
      exact h.woken
  | unregisterBlpop id =>
      cases hstep
      exact h.woken
  | serveBlpop key =>
      cases hstep
      exact h.woken
  | serveXread key =>
      cases hstep
      exact h.woken
  | unwind count =>
      cases hstep
      exact h.woken

/-- Every undisturbed event keeps the {lit}`XREAD` callbacks called once. -/
theorem wakesOnce_step (h : m.WakesOnce) (hevent : m.Undisturbed event)
    (hstep : m.step event = some m') : m'.WakesOnce :=
  ⟨servesOnce_step h.serves hstep, h.waiting_step hevent hstep, h.woken_step hstep⟩

/-- A manager that was just made has called nobody. -/
theorem wakesOnce_empty : (empty : BlockingManager β ξ).WakesOnce :=
  ⟨⟨BlockingRegistry.consistent_empty, BlockingRegistry.consistent_empty, by simp [empty, copies],
    ⟨by simp [empty], by simp [empty], List.nodup_nil⟩⟩, by simp [empty, copies],
    ⟨by simp [empty], by simp [empty], List.nodup_nil⟩⟩

/-! ## Called late -/

/-- A callback was called behind the removal of its registration, or will be. -/
structure Late (m : BlockingManager β ξ) : Prop where
  xread : m.xread.Consistent
  late : (∃ call ∈ m.woken, call.registered = false) ∨
    ∃ id ∈ copies m.frames, ¬ m.xread.Registered id ∧ id < m.xread.nextId

/-- A removal while a copy waits makes it late. -/
theorem late_of_disturbed (h : m.ServesOnce)
    (hevent : ¬ m.Undisturbed event) (hstep : m.step event = some m') : m'.Late := by
  refine ⟨(servesOnce_step h hstep).xread, .inr ?_⟩
  cases event with
  | unregisterXread id =>
      cases hstep
      simp only [Undisturbed, not_not] at hevent
      exact ⟨id, hevent, BlockingRegistry.gone_of_unregister (h.known id hevent)⟩
  | round element =>
      rcases round_cases hstep with ⟨key, frames, hframes, rfl⟩ |
        ⟨key, frames, id, callback, later, hframes, -, rfl⟩ |
        ⟨called, callback, frames, hframes, rfl⟩
      · simp [Undisturbed, hframes] at hevent
      · simp [Undisturbed, hframes] at hevent
      · simp only [Undisturbed, hframes, not_not] at hevent
        have hknown := h.known called
          (by rw [hframes, copies_wake]; exact List.mem_cons_of_mem _ hevent)
        exact ⟨called, hevent, BlockingRegistry.gone_of_unregister hknown⟩
  | _ => simp [Undisturbed] at hevent

/-- What is late stays late, unless an exception ends the loop. -/
theorem late_step (h : m.Late) (hevent : event.completes = true)
    (hstep : m.step event = some m') : m'.Late := by
  cases event with
  | registerXread keys callback =>
      cases hstep
      refine ⟨h.xread.registerCallbacks keys callback, h.late.imp_right ?_⟩
      rintro ⟨id, hid, hgone⟩
      exact ⟨id, hid, BlockingRegistry.gone_registerCallbacks hgone keys callback⟩
  | unregisterXread removed =>
      cases hstep
      refine ⟨h.xread.unregister removed, h.late.imp_right ?_⟩
      rintro ⟨id, hid, hgone⟩
      exact ⟨id, hid, BlockingRegistry.gone_unregister hgone removed⟩
  | serveBlpop key =>
      cases hstep
      refine ⟨h.xread, h.late.imp_right ?_⟩
      rw [copies_loop]
      exact id
  | serveXread key =>
      cases hstep
      refine ⟨h.xread, h.late.imp_right ?_⟩
      rintro ⟨id, hid, hgone⟩
      refine ⟨id, ?_, hgone⟩
      rw [copies_append_wakes]
      exact List.mem_append_right _ hid
  | round element =>
      rcases round_cases hstep with ⟨key, frames, hframes, rfl⟩ |
        ⟨key, frames, id, callback, later, hframes, -, rfl⟩ |
        ⟨called, callback, frames, hframes, rfl⟩
      · refine ⟨h.xread, h.late.imp_right ?_⟩
        rw [hframes, copies_loop]
        exact id
      · exact ⟨h.xread, h.late⟩
      · refine ⟨h.xread.unregister called, ?_⟩
        rcases h.late with ⟨call, hcall, hlate⟩ | ⟨id, hid, hgone⟩
        · exact .inl ⟨call, List.mem_append_left _ hcall, hlate⟩
        · rw [hframes, copies_wake] at hid
          rcases List.mem_cons.mp hid with heq | hid
          · -- its turn has come
            refine .inl ⟨_, List.mem_append_right _ (List.mem_singleton_self _), ?_⟩
            have hcalled : id = called := heq
            rw [hcalled] at hgone
            exact decide_eq_false hgone.1
          · exact .inr ⟨id, hid, BlockingRegistry.gone_unregister hgone called⟩
  | unwind count => contradiction
  | registerBlpop keys callback =>
      cases hstep
      exact ⟨h.xread, h.late⟩
  | unregisterBlpop id =>
      cases hstep
      exact ⟨h.xread, h.late⟩

/-! ## Runs -/

/-- Every call found its registration, and no registration was called twice. -/
def OnlyOnce (calls : List WaiterCall) : Prop :=
  (∀ call ∈ calls, call.registered = true) ∧ (calls.map WaiterCall.id).Nodup

/-- Every waiter is called at most once and not behind its removal: over every run of
the manager, with arbitrary callbacks, this holds of the {lit}`BLPOP` callbacks; it
holds of the {lit}`XREAD` callbacks if no registration is removed while a copy of it
waits to be called, and in every run in which the loops come to their ends only
then. -/
theorem waiters_called_once {events : List (ManagerEvent β ξ)} {m : BlockingManager β ξ}
    (hrun : Execution.follow step empty events = some m) :
    OnlyOnce m.served ∧
      (Execution.Along step Undisturbed empty events → OnlyOnce m.woken) ∧
      ((∀ event ∈ events, event.completes = true) → m.frames = [] → OnlyOnce m.woken →
        Execution.Along step Undisturbed empty events) := by
  have hserves : ∀ {first : List (ManagerEvent β ξ)} {m : BlockingManager β ξ},
      Execution.follow step empty first = some m → m.ServesOnce := fun {first} {m} hfirst =>
    Execution.follow_invariant (fun h _ hstep => servesOnce_step h hstep) wakesOnce_empty.serves
      (Execution.along_of_forall (fun _ _ => trivial) _) hfirst
  refine ⟨⟨(hserves hrun).served.registered, (hserves hrun).served.nodup⟩, ?_, ?_⟩
  · intro halong
    have hwakes : m.WakesOnce :=
      Execution.follow_invariant wakesOnce_step wakesOnce_empty halong hrun
    exact ⟨hwakes.woken.registered, hwakes.woken.nodup⟩
  · intro hcompletes hdone honce
    apply Execution.along_of_prefixes
    intro first event second m' hsplit hfirst
    by_contra hdisturbed
    -- the removed copy is called late, at the latest when the loops end
    subst hsplit
    rw [Execution.follow_append hfirst] at hrun
    rcases Execution.follow_cons hrun with ⟨after, hstep, hrest⟩
    have hlate : m.Late :=
      Execution.follow_invariant (fun h he hstep => late_step h he hstep)
        (late_of_disturbed (hserves hfirst) hdisturbed hstep)
        (Execution.along_of_forall (fun event' hmem => hcompletes event' (by simp [hmem])) _) hrest
    rcases hlate.late with ⟨call, hcall, hfalse⟩ | ⟨id, hid, -⟩
    · exact absurd (honce.1 call hcall) (by simp [hfalse])
    · rw [hdone] at hid
      exact absurd hid (by simp [copies])

/-- Two streams and a list with waiters; the callback of the second {lit}`XREAD` pushes
to the list. -/
def nestedServing : List (ManagerEvent Unit Unit) :=
  [.registerBlpop [ascii "l"] (), .registerXread [ascii "s"] (), .registerXread [ascii "s"] (),
    .serveXread (ascii "s"), .round false, .round false, .serveBlpop (ascii "l"), .round true,
    .round true]

instance (m : BlockingManager β ξ) : (event : ManagerEvent β ξ) → Decidable (m.Undisturbed event)
  | .unregisterXread _ => inferInstanceAs (Decidable (_ ∉ _))
  | .round _ =>
      match hframes : m.frames with
      | [] => .isTrue (by simp [Undisturbed, hframes])
      | .loop _ :: _ => .isTrue (by simp [Undisturbed, hframes])
      | .wake (id, _) :: frames =>
          decidable_of_iff (id ∉ copies frames) (by simp [Undisturbed, hframes])
  | .registerBlpop _ _ | .unregisterBlpop _ | .serveBlpop _ | .registerXread _ _ | .serveXread _
  | .unwind _ => .isTrue trivial

/-- All three waiters are called, once. -/
theorem waiters_called_once_nested :
    ∃ m, Execution.follow step empty nestedServing = some m ∧ m.served.length = 1 ∧
      m.woken.length = 2 ∧ OnlyOnce m.served ∧ OnlyOnce m.woken := by
  have hrun : (Execution.follow step empty nestedServing).map
      (fun m => (m.served.length, m.woken.length)) = some (1, 2) := by
    decide +kernel
  rcases Option.map_eq_some_iff.mp hrun with ⟨m, hm, hcounts⟩
  rcases Prod.mk.inj hcounts with ⟨hserved, hwoken⟩
  have honce := waiters_called_once hm
  exact ⟨m, hm, hserved, hwoken, honce.1, honce.2.1 (by decide +kernel)⟩

/-- The callback of the first of two waiters serves the stream again, as a resumed
{lit}`EXEC` does that adds to it: the second waiter is called twice, the second time
behind its removal. -/
theorem xread_waiter_called_twice :
    (Execution.follow step (empty : BlockingManager Unit Unit)
      [.registerXread [ascii "s"] (), .registerXread [ascii "s"] (), .serveXread (ascii "s"),
        .round false, .serveXread (ascii "s"), .round false, .round false]).map
      (fun m => m.woken) = some [⟨1, true⟩, ⟨2, true⟩, ⟨2, false⟩] := by
  decide +kernel

end BlockingManager

end RedisClone
