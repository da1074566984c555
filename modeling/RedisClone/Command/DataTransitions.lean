import RedisClone.Command.ClockFree
import RedisClone.Command.ErrorReplies
import RedisClone.Store.StreamOrder

/-!
# What a command on the keyspace can do

The commands on the keyspace have many branches.  This module lists once what
they can do to the table and how they end; proofs about runs go by cases on the
list.

Main results:

- Theorem {lit}`dataActs_of_dataCommand`: the transitions of every command.
- Theorem {lit}`noEmptyList_of_dataActs`: no command leaves an empty list behind.
- Theorem {lit}`notifies_of_dataActs`: only write commands notify watchers, and
  only of their first argument.
- Theorem {lit}`changes_of_dataActs`: which changes the watchers do not hear of.
-/

namespace RedisClone

/-! ## Transitions -/

/-- The elements behind a push. -/
def pushedElements (cmd : Command) (elements : List Bytes) : List Bytes :=
  if cmd.type = .rpush then elements ++ cmd.args.drop 1
  else (cmd.args.drop 1).reverse ++ elements

/-- The transitions of a command on the keyspace. -/
inductive DataActs (cmd : Command) (now : Reading) (d : Store) : CommandResult → Prop
  /-- A reply, without a change. -/
  | replied (guarded : Bool) (response : Bytes) :
      DataActs cmd now d (d, .ok (.answer ⟨none, none, guarded, response⟩))
  /-- {lit}`GET` and {lit}`TYPE` remove an expired key. -/
  | removed {v : StoreValue} (htype : cmd.type = .get ∨ cmd.type = .typeCmd)
      (hkey : d (cmd.arg 0) = some v) (hexpired : v.expired now.steady = true) (response : Bytes) :
      DataActs cmd now d (d.erase (cmd.arg 0), .ok (.reply response))
  /-- {lit}`SET` and {lit}`INCR` store a string. -/
  | written (htype : cmd.type = .set ∨ cmd.type = .incr) (hargs : cmd.args ≠ []) (str : Bytes)
      (expiresAt : Option Int) (response : Bytes) :
      DataActs cmd now d
        (d.put (cmd.arg 0) ⟨.string str, expiresAt⟩,
          .ok (.answer ⟨some (cmd.arg 0), none, false, response⟩))
  /-- {lit}`RPUSH` and {lit}`LPUSH`. -/
  | pushed (htype : cmd.type = .rpush ∨ cmd.type = .lpush) (hargs : 2 ≤ cmd.args.length) :
      DataActs cmd now d
        (d.put (cmd.arg 0) ⟨.list (pushedElements cmd (Store.listSlot (d.slot (cmd.arg 0)))),
            (d.slot (cmd.arg 0)).expiresAt⟩,
          .ok (.answer ⟨some (cmd.arg 0), some (.blpop (cmd.arg 0)), false,
            integerReply (pushedElements cmd (Store.listSlot (d.slot (cmd.arg 0)))).length⟩))
  /-- {lit}`LPOP`. -/
  | popped {count : Nat} {d' : Store} {values : List Bytes} {response : Bytes}
      (htype : cmd.type = .lpop) (hargs : cmd.args ≠ []) (hcount : lpopCount cmd = .ok count)
      (hpop : d.lpop (cmd.arg 0) count = (d', .ok values))
      (hreply : lpopReply cmd values = .ok response) :
      DataActs cmd now d (d', .ok (.answer ⟨some (cmd.arg 0), none, false, response⟩))
  /-- {lit}`LPOP` and {lit}`BLPOP` find an empty list. -/
  | poppedNone {key : Bytes} {d' : Store} (hpop : d.lpop key 1 = (d', .ok [])) (e : Exception) :
      DataActs cmd now d (d', .error e)
  /-- {lit}`BLPOP` finds an element. -/
  | blpopped {key value : Bytes} {d' : Store} {more : List Bytes} (htype : cmd.type = .blpop)
      (hkey : key ∈ cmd.args.dropLast) (hpop : d.lpop key 1 = (d', .ok (value :: more))) :
      DataActs cmd now d (d', .ok (.reply (popReply key value)))
  /-- {lit}`BLPOP` blocks. -/
  | blocked {timeout : Double} (htype : cmd.type = .blpop)
      (htimeout : stod (cmd.args.getLastD []) = .ok timeout)
      (hnone : ∀ key ∈ cmd.args.dropLast, (d.lpop key 1).2.isOk = false) :
      DataActs cmd now d (d, .ok (.blockBlpop cmd.args.dropLast timeout))
  /-- {lit}`XADD` appends an entry. -/
  | appended (htype : cmd.type = .xadd) (hargs : cmd.args ≠ []) {pair : Int × Int}
      (hid : StreamUtils.validatedId (cmd.arg 1) (Store.lastId (d.entries (cmd.arg 0))) now.system =
        .ok pair) :
      DataActs cmd now d
        (d.put (cmd.arg 0) ⟨.stream (d.entries (cmd.arg 0) ++
            [⟨StreamUtils.renderId pair.1 pair.2, pairs (cmd.args.drop 2)⟩]),
            (d.slot (cmd.arg 0)).expiresAt⟩,
          .ok (.answer ⟨some (cmd.arg 0), some (.xread (cmd.arg 0)), false,
            bulkReply (StreamUtils.renderId pair.1 pair.2)⟩))
  /-- {lit}`XADD` rejects an identifier for a key that is not set. -/
  | created (htype : cmd.type = .xadd) (hargs : cmd.args ≠ []) (hkey : d (cmd.arg 0) = none)
      (response : Bytes) :
      DataActs cmd now d (d.put (cmd.arg 0) ⟨.stream [], none⟩, .ok (.reply response))
  /-- {lit}`XREAD` blocks. -/
  | waits {streams : List (Bytes × Bytes)} {timeout : Double} (htype : cmd.type = .xread)
      (hread : d.xread streams = .ok []) :
      DataActs cmd now d (d, .ok (.blockXread streams timeout))
  /-- The command throws. -/
  | threw (e : Exception) : DataActs cmd now d (d, .error e)

section Commands

variable {cmd : Command} {now : Reading} {d : Store}

/-- Enough arguments. -/
theorem checked_of_le {n : Nat} {body : CommandResult} (h : n ≤ cmd.args.length) :
    checked cmd n d body = body := by
  unfold checked checkArgs
  rw [if_neg (Nat.not_lt.mpr h)]

/-- Missing arguments. -/
theorem fst_checked_of_lt {n : Nat} {body : CommandResult} (h : cmd.args.length < n) :
    (checked cmd n d body).1 = d := by
  unfold checked checkArgs
  rw [if_pos h]

/-- The first argument. -/
theorem head_of_args (hargs : cmd.args ≠ []) : cmd.args.head? = some (cmd.arg 0) := by
  unfold Command.arg
  cases hlist : cmd.args with
  | nil => exact absurd hlist hargs
  | cons arg args => rfl

/-- The check of the number of arguments. -/
theorem dataActs_checked {n : Nat} {body : CommandResult}
    (h : n ≤ cmd.args.length → DataActs cmd now d body) :
    DataActs cmd now d (checked cmd n d body) := by
  unfold checked checkArgs
  split
  · rename_i hargs
    split at hargs <;> cases hargs
    exact .replied false _
  · rename_i hargs
    split at hargs
    · contradiction
    · exact h (by omega)

theorem dataActs_get (htype : cmd.type = .get) : DataActs cmd now d (getExecute cmd now d) := by
  apply dataActs_checked
  intro _
  unfold Store.get
  cases hkey : d (cmd.arg 0) with
  | none => exact .replied false _
  | some v =>
      by_cases hv : v.expired now.steady = true
      · simp only [hv, if_true]
        exact .removed (Or.inl htype) hkey hv _
      · simp only [hv]
        cases v.value <;> exact .replied false _

theorem dataActs_type (htype : cmd.type = .typeCmd) : DataActs cmd now d (typeExecute cmd now d) := by
  apply dataActs_checked
  intro _
  unfold Store.type
  cases hkey : d (cmd.arg 0) with
  | none => exact .replied false _
  | some v =>
      by_cases hv : v.expired now.steady = true
      · simp only [hv, if_true]
        exact .removed (Or.inr htype) hkey hv _
      · simp only [hv]
        exact .replied false _

theorem dataActs_set (htype : cmd.type = .set) : DataActs cmd now d (setExecute cmd now d) := by
  apply dataActs_checked
  intro hargs
  have hne : cmd.args ≠ [] := List.ne_nil_of_length_pos (by omega)
  split
  · exact .threw _
  · exact .written (Or.inl htype) hne _ _ _
  · split
    · exact .replied false _
    · exact .written (Or.inl htype) hne _ _ _

/-- Storing at a key that was removed is storing at the key. -/
theorem put_erase (d : Store) (key : Bytes) (v : StoreValue) : (d.erase key).put key v = d.put key v :=
  Function.update_idem _ _ _

theorem dataActs_incr (htype : cmd.type = .incr) : DataActs cmd now d (incrExecute cmd now d) := by
  apply dataActs_checked
  intro hargs
  have hne : cmd.args ≠ [] := List.ne_nil_of_length_pos (by omega)
  unfold Store.incr
  split
  · rename_i hincr
    split at hincr
    · cases hincr
      exact .written (Or.inr htype) hne _ _ _
    · split at hincr
      · cases hincr
        rw [put_erase]
        exact .written (Or.inr htype) hne _ _ _
      · rename_i v _ _
        rcases Store.incrValue_cases d (cmd.arg 0) v with ⟨m, hvalue⟩ | hvalue
        · rw [hvalue] at hincr
          cases hincr
          exact .written (Or.inr htype) hne _ _ _
        · simp [hvalue] at hincr
  · rename_i hincr
    rw [show _ = d from incr_error hincr]
    exact .replied false _

/-- Both pushes. -/
theorem dataActs_push (htype : cmd.type = .rpush ∨ cmd.type = .lpush)
    {push : Store → Bytes → List Bytes → Store × Nat}
    (hpush : ∀ key, push d key (cmd.args.drop 1) = d.push key (pushedElements cmd)) :
    DataActs cmd now d (pushExecute push cmd d) := by
  unfold pushExecute
  apply dataActs_checked
  intro hargs
  rw [hpush]
  exact .pushed htype hargs

theorem dataActs_lpop (htype : cmd.type = .lpop) : DataActs cmd now d (lpopExecute cmd now d) := by
  apply dataActs_checked
  intro hargs
  have hne : cmd.args ≠ [] := List.ne_nil_of_length_pos (by omega)
  split
  · exact .threw _
  · rename_i count hcount
    rcases hpop : d.lpop (cmd.arg 0) count with ⟨d', result⟩
    cases result with
    | error error =>
        rw [lpop_error hpop]
        exact .replied false _
    | ok values =>
        cases hreply : lpopReply cmd values with
        | ok response =>
            simp only [hreply]
            exact .popped htype hne hcount hpop hreply
        | error e =>
            simp only [hreply]
            unfold lpopReply at hreply
            split at hreply
            · rename_i hshort
              split at hreply
              · contradiction
              · unfold lpopCount at hcount
                rw [if_neg (by omega)] at hcount
                cases hcount
                exact .poppedNone hpop e
            · contradiction

/-- What the loop of {lit}`BLPOP` over its keys finds. -/
theorem blpopKeys_cases (d : Store) (keys : List Bytes) :
    (∃ key ∈ keys, ∃ d' value more, d.lpop key 1 = (d', .ok (value :: more)) ∧
      blpopKeys d keys = (d', .ok (some (key, value)))) ∨
    (∃ key ∈ keys, ∃ d' e, d.lpop key 1 = (d', .ok []) ∧ blpopKeys d keys = (d', .error e)) ∨
    ((∀ key ∈ keys, (d.lpop key 1).2.isOk = false) ∧ blpopKeys d keys = (d, .ok none)) := by
  induction keys with
  | nil => exact Or.inr (Or.inr ⟨by simp, rfl⟩)
  | cons key keys ih =>
      unfold blpopKeys
      rcases hpop : d.lpop key 1 with ⟨d', result⟩
      cases result with
      | ok values =>
          cases values with
          | cons value more => exact Or.inl ⟨key, by simp, d', value, more, hpop, rfl⟩
          | nil => exact Or.inr (Or.inl ⟨key, by simp, d', _, hpop, rfl⟩)
      | error error =>
          rcases ih with ⟨key', hmem, hfound⟩ | ⟨key', hmem, hfound⟩ | ⟨hnone, hkeys⟩
          · exact Or.inl ⟨key', by simp [hmem], hfound⟩
          · exact Or.inr (Or.inl ⟨key', by simp [hmem], hfound⟩)
          · refine Or.inr (Or.inr ⟨?_, hkeys⟩)
            intro key' hmem
            rcases List.mem_cons.mp hmem with rfl | hmem
            · simp [hpop, Except.isOk, Except.toBool]
            · exact hnone key' hmem

theorem dataActs_blpop (htype : cmd.type = .blpop) :
    DataActs cmd now d (blpopExecute cmd now d) := by
  apply dataActs_checked
  intro _
  cases htimeout : stod (cmd.args.getLastD []) with
  | error e => exact .threw e
  | ok timeout =>
      rcases blpopKeys_cases d cmd.args.dropLast with
        ⟨key, hmem, d', value, more, hpop, hkeys⟩ | ⟨key, hmem, d', e, hpop, hkeys⟩ | ⟨hnone, hkeys⟩
      · simp only [hkeys]
        exact .blpopped htype hmem hpop
      · simp only [hkeys]
        exact .poppedNone hpop e
      · simp only [hkeys]
        exact .blocked htype htimeout hnone

theorem dataActs_xadd (htype : cmd.type = .xadd) : DataActs cmd now d (xaddExecute cmd now d) := by
  unfold xaddExecute
  split
  · exact .replied false _
  · rename_i hargs
    rw [not_or] at hargs
    have hne : cmd.args ≠ [] := List.ne_nil_of_length_pos (by omega)
    rcases hadd : d.xadd (cmd.arg 0) (cmd.arg 1) (pairs (cmd.args.drop 2)) now.system with
      ⟨d', result⟩
    cases result with
    | error e =>
        rw [show d' = d from xadd_error hadd]
        exact .threw e
    | ok result =>
        cases result with
        | error error =>
            rcases xadd_rejected hadd with ⟨hnew, hold⟩
            by_cases hkey : d (cmd.arg 0) = none
            · rw [hnew hkey]
              exact .created htype hne hkey _
            · rw [hold hkey]
              exact .replied false _
        | ok id =>
            unfold Store.xadd at hadd
            split at hadd
            · cases hadd
            · simp only [StreamUtils.generateStreamId_eq] at hadd
              have hentries : Store.streamSlot (d.slot (cmd.arg 0)) = d.entries (cmd.arg 0) := rfl
              rw [hentries] at hadd
              cases hid : StreamUtils.validatedId (cmd.arg 1)
                  (Store.lastId (d.entries (cmd.arg 0))) now.system with
              | ok pair =>
                  simp only [hid, Except.map] at hadd
                  cases hadd
                  exact .appended htype hne hid
              | error e => cases e <;> simp [hid, Except.map] at hadd

theorem dataActs_xread (htype : cmd.type = .xread) :
    DataActs cmd now d (xreadExecute cmd now d) := by
  unfold xreadExecute
  simp only
  split
  · exact .replied false _
  · split
    · exact .threw _
    · split
      · exact .replied false _
      · rename_i results hread
        split
        · exact .replied true _
        · rename_i hempty
          split
          · exact .replied true _
          · rw [not_not.mp hempty] at hread
            exact .waits htype hread

/-- What a command on the keyspace can do. -/
theorem dataActs_of_dataCommand {body : Command → Reading → Store → CommandResult}
    (hbody : dataCommand cmd.type = some body) : DataActs cmd now d (body cmd now d) := by
  cases htype : cmd.type <;> rw [htype] at hbody <;>
    simp only [dataCommand, Option.some.injEq, reduceCtorEq] at hbody <;> subst hbody
  case ping =>
    unfold pingExecute
    split <;> exact .replied false _
  case echo => exact dataActs_checked fun _ => .replied false _
  case set => exact dataActs_set htype
  case get => exact dataActs_get htype
  case typeCmd => exact dataActs_type htype
  case incr => exact dataActs_incr htype
  case rpush =>
    refine dataActs_push (Or.inl htype) fun key => ?_
    simp only [Store.rpush, Store.push, pushedElements, htype, if_true]
  case lpush =>
    refine dataActs_push (Or.inr htype) fun key => ?_
    simp only [Store.lpush, Store.push, pushedElements, htype, List.foldl_flip_cons_eq_append',
      reduceCtorEq, if_false]
  case lrange =>
    apply dataActs_checked
    intro _
    split
    · exact .replied false _
    · exact .threw _
    · exact .threw _
  case llen => exact dataActs_checked fun _ => .replied false _
  case lpop => exact dataActs_lpop htype
  case blpop => exact dataActs_blpop htype
  case xadd => exact dataActs_xadd htype
  case xrange =>
    unfold xrangeExecute
    split
    · exact .replied false _
    · split
      · exact .replied true _
      · exact .replied false _
  case xread => exact dataActs_xread htype

end Commands

/-! ## Empty lists -/

/-- No list in the table is empty. -/
def Store.NoEmptyList (d : Store) : Prop :=
  ∀ key v, d key = some v → v.value ≠ .list []

namespace Store.NoEmptyList

variable {d : Store}

theorem empty : Store.empty.NoEmptyList := by
  intro key v h
  contradiction

theorem put (hd : d.NoEmptyList) (key : Bytes) {v : StoreValue} (hv : v.value ≠ .list []) :
    (d.put key v).NoEmptyList := by
  intro key' v' h
  by_cases heq : key' = key
  · rw [heq, Store.put_same] at h
    cases h
    exact hv
  · rw [Store.put_of_ne heq] at h
    exact hd key' v' h

theorem erase (hd : d.NoEmptyList) (key : Bytes) : (d.erase key).NoEmptyList := by
  intro key' v h
  by_cases heq : key' = key
  · rw [heq, Store.erase_same] at h
    contradiction
  · rw [Store.erase_of_ne heq] at h
    exact hd key' v h

theorem lpop (hd : d.NoEmptyList) (key : Bytes) (count : Nat) : (d.lpop key count).1.NoEmptyList := by
  unfold Store.lpop
  split
  · exact hd
  · simp only
    split
    · exact hd.erase key
    · rename_i hrest
      exact hd.put key fun heq => hrest (Value.list.inj heq)
  · exact hd

/-- A list that is there has an element to pop. -/
theorem lpop_one (hd : d.NoEmptyList) {key : Bytes} {d' : Store} : d.lpop key 1 ≠ (d', .ok []) := by
  intro h
  unfold Store.lpop at h
  split at h
  · simp at h
  · rename_i elements expiresAt hkey
    simp only [Prod.mk.injEq, Except.ok.injEq] at h
    have hne : elements ≠ [] := fun heq => hd key _ hkey (by rw [heq])
    have hpos := List.length_pos_iff.mpr hne
    have hlength := congrArg List.length h.2
    simp only [List.length_take, List.length_nil] at hlength
    omega
  · simp at h

end Store.NoEmptyList

section Facts

variable {cmd : Command} {now : Reading} {d : Store}

/-- A push adds an element. -/
theorem pushedElements_ne_nil (hargs : 2 ≤ cmd.args.length) (elements : List Bytes) :
    pushedElements cmd elements ≠ [] := by
  intro hnil
  have hlength := congrArg List.length hnil
  unfold pushedElements at hlength
  split at hlength <;>
    simp only [List.length_append, List.length_drop, List.length_reverse, List.length_nil] at hlength
  · omega
  · omega

/-- No command leaves an empty list behind. -/
theorem noEmptyList_of_dataActs (hd : d.NoEmptyList) {result : CommandResult}
    (h : DataActs cmd now d result) : result.1.NoEmptyList := by
  cases h with
  | replied | blocked | waits | threw => exact hd
  | removed htype hkey hexpired response => exact hd.erase _
  | written htype hargs str expiresAt response => exact hd.put _ (by simp)
  | pushed htype hargs =>
      refine hd.put _ ?_
      intro hnil
      exact pushedElements_ne_nil hargs _ (Value.list.inj hnil)
  | @popped count d' values response htype hargs hcount hpop hreply =>
      have hpopped := hd.lpop (cmd.arg 0) count
      rw [hpop] at hpopped
      exact hpopped
  | poppedNone hpop e => exact absurd hpop hd.lpop_one
  | @blpopped key value d' more htype hkey hpop =>
      have hpopped := hd.lpop key 1
      rw [hpop] at hpopped
      exact hpopped
  | appended htype hargs hid => exact hd.put _ (by simp)
  | created htype hargs hkey response => exact hd.put _ (by simp)

/-- Only write commands notify watchers, and only of their first argument. -/
theorem notifies_of_dataActs {d' : Store} {a : Answer} {key : Bytes}
    (h : DataActs cmd now d (d', .ok (.answer a))) (hnotify : a.notify = some key) :
    isWriteCommand cmd.type = true ∧ cmd.args.head? = some key := by
  cases h with
  | replied | removed | blpopped | created => simp at hnotify
  | written htype hargs str expiresAt response =>
      cases hnotify
      rcases htype with htype | htype <;> exact ⟨by rw [htype]; rfl, head_of_args hargs⟩
  | pushed htype hargs =>
      cases hnotify
      have hne : cmd.args ≠ [] := List.ne_nil_of_length_pos (by omega)
      rcases htype with htype | htype <;> exact ⟨by rw [htype]; rfl, head_of_args hne⟩
  | popped htype hargs hcount hpop hreply =>
      cases hnotify
      exact ⟨by rw [htype]; rfl, head_of_args hargs⟩
  | appended htype hargs hid =>
      cases hnotify
      exact ⟨by rw [htype]; rfl, head_of_args hargs⟩

/-- A pop leaves the other keys alone. -/
theorem lpop_of_ne {key key' : Bytes} (hne : key' ≠ key) (count : Nat) :
    (d.lpop key count).1 key' = d key' := by
  unfold Store.lpop
  split
  · rfl
  · simp only
    split
    · exact Store.erase_of_ne hne d
    · exact Store.put_of_ne hne d _
  · rfl

/-- A value that a command changes, and that its watchers do not hear of: an expired
value is removed, {lit}`BLPOP` pops an element, or {lit}`XADD` rejects an identifier
for a new key. -/
theorem changes_of_dataActs (hd : d.NoEmptyList) {result : CommandResult}
    (h : DataActs cmd now d result) {key : Bytes} (hchange : result.1 key ≠ d key) :
    (∃ a, result.2 = .ok (.answer a) ∧ a.notify = some key) ∨
      (∃ v, d key = some v ∧ v.expired now.steady = true) ∨
      (cmd.type = .blpop ∧ ∃ value, result.2 = .ok (.reply (popReply key value))) ∨
      (cmd.type = .xadd ∧ d key = none ∧ result.1 key = some ⟨.stream [], none⟩) := by
  have hput : ∀ {v : StoreValue}, d.put (cmd.arg 0) v key ≠ d key → key = cmd.arg 0 := by
    intro v hne
    by_contra heq
    exact hne (Store.put_of_ne heq d v)
  cases h with
  | replied | blocked | waits | threw => exact absurd rfl hchange
  | @removed v htype hkey hexpired response =>
      have heq : key = cmd.arg 0 := by
        by_contra hne
        exact hchange (Store.erase_of_ne hne d)
      rw [heq]
      exact Or.inr (Or.inl ⟨v, hkey, hexpired⟩)
  | written htype hargs str expiresAt response =>
      rw [hput hchange]
      exact Or.inl ⟨_, rfl, rfl⟩
  | pushed htype hargs =>
      rw [hput hchange]
      exact Or.inl ⟨_, rfl, rfl⟩
  | @popped count d' values response htype hargs hcount hpop hreply =>
      have heq : key = cmd.arg 0 := by
        by_contra hne
        have hsame := @lpop_of_ne d _ _ hne count
        rw [hpop] at hsame
        exact hchange hsame
      rw [heq]
      exact Or.inl ⟨_, rfl, rfl⟩
  | poppedNone hpop e => exact absurd hpop hd.lpop_one
  | @blpopped key' value d' more htype hkey hpop =>
      have heq : key = key' := by
        by_contra hne
        have hsame := @lpop_of_ne d _ _ hne 1
        rw [hpop] at hsame
        exact hchange hsame
      rw [heq]
      exact Or.inr (Or.inr (Or.inl ⟨htype, value, rfl⟩))
  | appended htype hargs hid =>
      rw [hput hchange]
      exact Or.inl ⟨_, rfl, rfl⟩
  | created htype hargs hkey response =>
      have heq := hput hchange
      rw [heq]
      exact Or.inr (Or.inr (Or.inr ⟨htype, hkey, Store.put_same d _ _⟩))

end Facts

end RedisClone
