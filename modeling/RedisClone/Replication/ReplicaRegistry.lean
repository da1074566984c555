import RedisClone.Replication.ReplicationSession

/-!
# The replica registry

The master's table of connected replicas: the offset each of them acknowledged
last, and the number of bytes propagated so far.  The write callbacks are the
business of the caller: {lit}`propagate` reaches every registered replica.

Main results:

- Theorem {lit}`ackedOffset_recordAck`: an acknowledgement replaces the recorded
  offset of its replica and of no other.
- Theorem {lit}`exists_counted`: the replicas that {lit}`count_acked_at_least`
  counts.
-/

namespace RedisClone

open RespValue

/-- {lit}`ReplicaRegistry`, without the write callbacks. -/
structure ReplicaRegistry where
  /-- Replica identifiers and their {lit}`acked_offset`. -/
  replicas : List (Nat × Int)
  nextId : Nat
  masterOffset : Int
deriving DecidableEq, Repr

namespace ReplicaRegistry

/-- A registry without replicas. -/
def empty : ReplicaRegistry :=
  ⟨[], 0, 0⟩

/-- {lit}`ReplicaRegistry::add`. -/
def add (r : ReplicaRegistry) : ReplicaRegistry × Nat :=
  ({ r with replicas := r.replicas ++ [(r.nextId, 0)], nextId := r.nextId + 1 }, r.nextId)

/-- {lit}`ReplicaRegistry::remove`. -/
def remove (r : ReplicaRegistry) (id : Nat) : ReplicaRegistry :=
  { r with replicas := r.replicas.filter fun entry => entry.1 ≠ id }

/-- The offset part of {lit}`ReplicaRegistry::propagate`. -/
def propagate (r : ReplicaRegistry) (data : Bytes) : ReplicaRegistry :=
  { r with masterOffset := r.masterOffset + data.length }

/-- {lit}`ReplicaRegistry::record_ack`. -/
def recordAck (r : ReplicaRegistry) (id : Nat) (offset : Int) : ReplicaRegistry :=
  { r with
    replicas := r.replicas.map fun entry => if entry.1 = id then (entry.1, offset) else entry }

/-- {lit}`ReplicaRegistry::acked_offset`. -/
def ackedOffset (r : ReplicaRegistry) (id : Nat) : Option Int :=
  (r.replicas.find? fun entry => entry.1 = id).map Prod.snd

/-- The replica is registered. -/
def registered (r : ReplicaRegistry) (id : Nat) : Bool :=
  (r.ackedOffset id).isSome

/-- {lit}`ReplicaRegistry::count_acked_at_least`. -/
def countAckedAtLeast (r : ReplicaRegistry) (offset : Int) : Nat :=
  r.replicas.countP fun entry => entry.2 ≥ offset

/-- The command of {lit}`ReplicaRegistry::request_getack`. -/
def getackRequest : RespValue :=
  .array [.bulkString (ascii "REPLCONF"), .bulkString (ascii "GETACK"), .bulkString (ascii "*")]

/-! ## Well-formed registries -/

/-- Replica identifiers are used once. -/
structure Valid (r : ReplicaRegistry) : Prop where
  nodup : (r.replicas.map Prod.fst).Nodup
  lt_nextId : ∀ entry ∈ r.replicas, entry.1 < r.nextId

/-- The empty registry is well formed. -/
theorem valid_empty : empty.Valid :=
  ⟨by simp [empty], by simp [empty]⟩

/-- Registration uses a fresh identifier. -/
theorem Valid.add {r : ReplicaRegistry} (h : r.Valid) : r.add.1.Valid := by
  constructor
  · simp only [ReplicaRegistry.add, List.map_append, List.map_cons, List.map_nil]
    rw [List.nodup_append]
    refine ⟨h.nodup, by simp, ?_⟩
    intro id hid id' hid'
    rcases List.mem_map.mp hid with ⟨entry, hentry, rfl⟩
    rw [List.mem_singleton.mp hid']
    exact Nat.ne_of_lt (h.lt_nextId entry hentry)
  · intro entry hentry
    simp only [ReplicaRegistry.add, List.mem_append, List.mem_singleton] at hentry ⊢
    rcases hentry with hentry | rfl
    · exact Nat.lt_succ_of_lt (h.lt_nextId entry hentry)
    · exact Nat.lt_succ_self _

/-- Removal keeps a registry well formed. -/
theorem Valid.remove {r : ReplicaRegistry} (h : r.Valid) (id : Nat) : (r.remove id).Valid := by
  constructor
  · exact h.nodup.sublist (List.filter_sublist.map Prod.fst)
  · intro entry hentry
    exact h.lt_nextId entry (List.mem_of_mem_filter hentry)

/-- An acknowledgement keeps a registry well formed. -/
theorem Valid.recordAck {r : ReplicaRegistry} (h : r.Valid) (id : Nat) (offset : Int) :
    (r.recordAck id offset).Valid := by
  have hids : (r.recordAck id offset).replicas.map Prod.fst = r.replicas.map Prod.fst := by
    simp only [ReplicaRegistry.recordAck, List.map_map]
    apply List.map_congr_left
    intro entry _
    simp only [Function.comp_apply]
    split <;> rfl
  constructor
  · rw [hids]
    exact h.nodup
  · intro entry hentry
    have hmem : entry.1 ∈ r.replicas.map Prod.fst := by
      rw [← hids]
      exact List.mem_map_of_mem hentry
    rcases List.mem_map.mp hmem with ⟨entry', hentry', heq⟩
    rw [← heq]
    exact h.lt_nextId entry' hentry'

/-! ## Acknowledged offsets -/

/-- In a well-formed registry the entries are the acknowledged offsets. -/
theorem ackedOffset_eq_some {r : ReplicaRegistry} (h : r.Valid) {id : Nat} {offset : Int} :
    r.ackedOffset id = some offset ↔ (id, offset) ∈ r.replicas := by
  rcases r with ⟨replicas, nextId, masterOffset⟩
  have hnodup := h.nodup
  unfold ackedOffset
  simp only at hnodup ⊢
  clear h
  induction replicas with
  | nil => simp
  | cons entry replicas ih =>
      rcases entry with ⟨id', offset'⟩
      simp only [List.map_cons, List.nodup_cons, List.mem_map, not_exists, not_and] at hnodup
      by_cases hid : id' = id
      · subst hid
        have hout : (id', offset) ∉ replicas := fun hmem => hnodup.1 (id', offset) hmem rfl
        simp only [List.find?_cons_of_pos, decide_true, Option.map_some, Option.some.injEq,
          List.mem_cons, Prod.mk.injEq, true_and, hout, or_false]
        exact eq_comm
      · rw [List.find?_cons_of_neg (by simpa using hid)]
        apply (ih hnodup.2).trans
        simp [Ne.symm hid]

/-- The registered replicas are those with an entry. -/
theorem registered_iff {r : ReplicaRegistry} {id : Nat} :
    r.registered id = true ↔ id ∈ r.replicas.map Prod.fst := by
  unfold registered ackedOffset
  simp

/-- Registration adds one replica, with acknowledged offset zero. -/
theorem ackedOffset_add {r : ReplicaRegistry} (h : r.Valid) (id : Nat) :
    r.add.1.ackedOffset id = if id = r.nextId then some 0 else r.ackedOffset id := by
  have hfresh : r.ackedOffset r.nextId = none := by
    cases hacked : r.ackedOffset r.nextId with
    | none => rfl
    | some offset =>
        have hmem := (ackedOffset_eq_some h).mp hacked
        exact absurd (h.lt_nextId _ hmem) (Nat.lt_irrefl _)
  unfold ackedOffset at hfresh ⊢
  simp only [add, List.find?_append, List.find?_singleton]
  by_cases hid : id = r.nextId
  · subst hid
    have hnone := Option.map_eq_none_iff.mp hfresh
    simp [hnone]
  · simp [hid, Ne.symm hid]

/-- Removal forgets one replica. -/
theorem ackedOffset_remove {r : ReplicaRegistry} (h : r.Valid) (id id' : Nat) :
    (r.remove id).ackedOffset id' = if id' = id then none else r.ackedOffset id' := by
  apply Option.ext
  intro offset
  have hmem : (id', offset) ∈ (r.remove id).replicas ↔
      (id', offset) ∈ r.replicas ∧ id' ≠ id := by
    simp [remove]
  by_cases hid : id' = id
  · rw [ackedOffset_eq_some (h.remove id), hmem]
    simp [hid]
  · rw [ackedOffset_eq_some (h.remove id), hmem, if_neg hid, ackedOffset_eq_some h]
    simp [hid]

/-- An acknowledgement replaces the offset of a registered replica. -/
theorem ackedOffset_recordAck (r : ReplicaRegistry) (id : Nat) (offset : Int) (id' : Nat) :
    (r.recordAck id offset).ackedOffset id' =
      if id' = id then (r.ackedOffset id').map fun _ => offset else r.ackedOffset id' := by
  unfold ackedOffset recordAck
  simp only
  induction r.replicas with
  | nil => simp
  | cons entry replicas ih =>
      rcases entry with ⟨entryId, entryOffset⟩
      by_cases hentry : entryId = id'
      · subst hentry
        by_cases hid : entryId = id
        · simp [hid]
        · simp [hid]
      · have hkey : (if entryId = id then (entryId, offset) else (entryId, entryOffset)).1 ≠ id' := by
          split <;> exact hentry
        rw [List.map_cons, List.find?_cons_of_neg (by simpa using hkey),
          List.find?_cons_of_neg (by simpa using hentry), ih]

/-- The replicas that are counted: distinct, registered, and with an
acknowledged offset that is large enough. -/
theorem exists_counted {r : ReplicaRegistry} (h : r.Valid) (offset : Int) :
    ∃ ids : List Nat, ids.Nodup ∧ ids.length = r.countAckedAtLeast offset ∧
      ∀ id ∈ ids, ∃ acked, r.ackedOffset id = some acked ∧ offset ≤ acked := by
  refine ⟨(r.replicas.filter fun entry => entry.2 ≥ offset).map Prod.fst, ?_, ?_, ?_⟩
  · exact h.nodup.sublist (List.filter_sublist.map Prod.fst)
  · rw [List.length_map, countAckedAtLeast, List.countP_eq_length_filter]
  · intro id hid
    rcases List.mem_map.mp hid with ⟨entry, hentry, rfl⟩
    rcases List.mem_filter.mp hentry with ⟨hmem, hge⟩
    exact ⟨entry.2, (ackedOffset_eq_some h).mpr hmem, by simpa using hge⟩

end ReplicaRegistry

end RedisClone
