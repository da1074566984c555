import RedisClone.Command.DataCommands
import RedisClone.Lib.Frame

/-!
# The keys of a command

A command on the keyspace reads and writes only the keys that its arguments name:
every operation looks one key up in the shared table, and inserts, erases or
lazily deletes at that key only.

Main results:

- Theorem {lit}`local_of_dataCommand`: every command is local to its keys.
- Theorem {lit}`disjoint_commands_commute`: two commands that do not block, on
  disjoint keys, give the same replies and the same table in either order.
-/

namespace RedisClone

open Frame

/-- The keys that the arguments of a command name. -/
def Command.keys (cmd : Command) : List Bytes :=
  match cmd.type with
  | .set | .get | .typeCmd | .incr | .rpush | .lpush | .lrange | .llen | .lpop | .xadd | .xrange =>
      cmd.args.take 1
  | .blpop => cmd.args.dropLast
  | .xread => (parseXreadArgs cmd).keys
  | _ => []

/-- The keys of a command, as a set. -/
def Command.keySet (cmd : Command) : Set Bytes :=
  fun key => key ∈ cmd.keys

/-! ## Operations of the store -/

namespace Store

section Operations

variable {key : Bytes} {now : Int}

/-- An assignment that does not look at the table. -/
theorem local_put {R : Type} (key : Bytes) (v : StoreValue) (r : R) :
    Local {key} fun d : Store => (d.put key v, r) := by
  refine Local.of_key (fun d key' hne => put_of_ne hne d v) fun d d' _ => ⟨rfl, ?_⟩
  simp only [put_same]

theorem local_get : Local {key} fun d : Store => d.get key now := by
  refine Local.of_key (fun d key' hne => ?_) fun d d' h => ?_
  · unfold get
    split
    · rfl
    · split
      · exact erase_of_ne hne d
      · split <;> rfl
  · unfold get
    rw [h]
    split
    · exact ⟨rfl, h⟩
    · split
      · exact ⟨rfl, by simp only [erase_same]⟩
      · split <;> exact ⟨rfl, h⟩

theorem local_type : Local {key} fun d : Store => d.type key now := by
  refine Local.of_key (fun d key' hne => ?_) fun d d' h => ?_
  · unfold type
    split
    · rfl
    · split
      · exact erase_of_ne hne d
      · rfl
  · unfold type
    rw [h]
    split
    · exact ⟨rfl, h⟩
    · split
      · exact ⟨rfl, by simp only [erase_same]⟩
      · exact ⟨rfl, h⟩

theorem local_incr : Local {key} fun d : Store => d.incr key now := by
  refine Local.of_key (fun d key' hne => ?_) fun d d' h => ?_
  · unfold incr incrFresh
    split
    · exact put_of_ne hne d _
    · rename_i v _
      split
      · exact (put_of_ne hne _ _).trans (erase_of_ne hne d)
      · rcases incrValue_cases d key v with ⟨n, hvalue⟩ | hvalue <;> rw [hvalue]
        exact put_of_ne hne d _
  · unfold incr incrFresh incrValue
    rw [h]
    split
    · exact ⟨rfl, by simp only [put_same]⟩
    · split
      · exact ⟨rfl, by simp only [put_same]⟩
      · split
        · split
          · split
            · exact ⟨rfl, h⟩
            · exact ⟨rfl, by simp only [put_same]⟩
          · exact ⟨rfl, h⟩
        · exact ⟨rfl, h⟩

/-- What is found at the key decides what {lit}`operator[]` gives. -/
theorem slot_congr {d d' : Store} (h : d key = d' key) : d.slot key = d'.slot key := by
  unfold slot
  rw [h]

theorem local_push (change : List Bytes → List Bytes) : Local {key} fun d : Store => d.push key change := by
  refine Local.of_key (fun d key' hne => put_of_ne hne d _) fun d d' h => ?_
  unfold push
  rw [slot_congr h]
  exact ⟨rfl, by simp only [put_same]⟩

theorem local_lpop (count : Nat) : Local {key} fun d : Store => d.lpop key count := by
  refine Local.of_key (fun d key' hne => ?_) fun d d' h => ?_
  · unfold lpop
    split
    · rfl
    · simp only
      split
      · exact erase_of_ne hne d
      · exact put_of_ne hne d _
    · rfl
  · unfold lpop
    rw [h]
    split
    · exact ⟨rfl, h⟩
    · refine ⟨rfl, ?_⟩
      simp only
      split
      · simp only [erase_same]
      · simp only [put_same]
    · exact ⟨rfl, h⟩

theorem local_xadd (id : Bytes) (fields : List (Bytes × Bytes)) :
    Local {key} fun d : Store => d.xadd key id fields now := by
  refine Local.of_key (fun d key' hne => ?_) fun d d' h => ?_
  · unfold xadd
    split
    · rfl
    · simp only
      split <;> exact put_of_ne hne d _
  · have hother : holdsOther d key = holdsOther d' key := by
      unfold holdsOther
      rw [h]
    unfold xadd
    rw [slot_congr h, hother]
    split
    · exact ⟨rfl, h⟩
    · simp only
      split <;> exact ⟨rfl, by simp only [put_same]⟩

/-- The streams that are read decide. -/
theorem xread_congr {d d' : Store} {streams : List (Bytes × Bytes)}
    (h : ∀ stream ∈ streams, d stream.1 = d' stream.1) : d.xread streams = d'.xread streams := by
  induction streams with
  | nil => rfl
  | cons stream streams ih =>
      rcases stream with ⟨key, cursor⟩
      have hkey : d key = d' key := h (key, cursor) List.mem_cons_self
      have hrest := ih fun stream hmem => h stream (List.mem_cons_of_mem _ hmem)
      rw [xread, xread, hkey, hrest]

end Operations

end Store

/-- The streams of an {lit}`XREAD` decide what its identifiers stand for. -/
theorem resolveStreamIds_congr {d d' : Store} {streams : List (Bytes × Bytes)}
    (h : ∀ stream ∈ streams, d stream.1 = d' stream.1) :
    resolveStreamIds d streams = resolveStreamIds d' streams := by
  induction streams with
  | nil => rfl
  | cons stream streams ih =>
      rcases stream with ⟨key, id⟩
      have hkey : d.xrange key (ascii "-") (ascii "+") = d'.xrange key (ascii "-") (ascii "+") := by
        unfold Store.xrange
        rw [h (key, id) List.mem_cons_self]
      have hrest := ih fun stream hmem => h stream (List.mem_cons_of_mem _ hmem)
      rw [resolveStreamIds, resolveStreamIds, hkey, hrest]

/-- The keys of a blocked {lit}`XREAD`. -/
theorem map_fst_resolveStreamIds {d : Store} {streams resolved : List (Bytes × Bytes)}
    (h : resolveStreamIds d streams = .ok resolved) :
    resolved.map Prod.fst = streams.map Prod.fst := by
  induction streams generalizing resolved with
  | nil =>
      cases h
      rfl
  | cons stream streams ih =>
      rcases stream with ⟨key, id⟩
      rw [resolveStreamIds] at h
      have hlater : ∀ {id'}, (do
          let rest ← resolveStreamIds d streams
          pure ((key, id') :: rest)) = Except.ok resolved →
          resolved.map Prod.fst = ((key, id) :: streams).map Prod.fst := by
        intro id' hrest
        cases hstreams : resolveStreamIds d streams with
        | error e =>
            rw [hstreams] at hrest
            cases hrest
        | ok rest =>
            rw [hstreams] at hrest
            cases hrest
            rw [List.map_cons, List.map_cons, ih hstreams]
      split at h
      · cases hrange : d.xrange key (ascii "-") (ascii "+") with
        | error e =>
            rw [hrange] at h
            cases h
        | ok entries =>
            rw [hrange] at h
            exact hlater h
      · exact hlater h

/-! ## Commands -/

section Commands

variable {cmd : Command} {now : Reading}

/-- The check of the number of arguments. -/
theorem local_checked {keys : Set Bytes} {n : Nat} {body : Store → CommandResult}
    (h : n ≤ cmd.args.length → Local keys body) :
    Local keys fun d => RedisClone.checked cmd n d (body d) := by
  unfold RedisClone.checked
  cases hcheck : checkArgs cmd n with
  | some err => exact Local.const _ _
  | none =>
      unfold checkArgs at hcheck
      split at hcheck
      · contradiction
      · exact h (by omega)

/-- The first argument is a key. -/
theorem arg_mem_take (hargs : 1 ≤ cmd.args.length) : cmd.arg 0 ∈ cmd.args.take 1 := by
  unfold Command.arg
  cases hlist : cmd.args with
  | nil =>
      rw [hlist] at hargs
      contradiction
  | cons arg args => exact List.mem_cons_self

/-- An operation on the first argument. -/
theorem local_first {f : Store → CommandResult} (hf : Local {cmd.arg 0} f)
    (hargs : 1 ≤ cmd.args.length) : Local (fun key => key ∈ cmd.args.take 1) f := by
  refine hf.mono ?_
  intro key hmem
  rw [Set.mem_singleton_iff.mp hmem]
  exact arg_mem_take hargs

/-- The first argument decides. -/
theorem arg_of_agreeOn {d d' : Store} (hagree : AgreeOn (fun key => key ∈ cmd.args.take 1) d d')
    (hargs : 1 ≤ cmd.args.length) : d (cmd.arg 0) = d' (cmd.arg 0) :=
  hagree _ (arg_mem_take hargs)

/-- The loop of {lit}`BLPOP` over its keys. -/
theorem local_blpopKeys (keys : List Bytes) :
    Local (fun key => key ∈ keys) fun d : Store => blpopKeys d keys := by
  induction keys with
  | nil => exact Local.const _ _
  | cons key keys ih =>
      have htail : Local (fun key' => key' ∈ key :: keys) fun d : Store => blpopKeys d keys :=
        ih.mono fun key' hmem => List.mem_cons_of_mem _ hmem
      have hpop : Local (fun key' => key' ∈ key :: keys) fun d : Store => d.lpop key 1 := by
        refine (Store.local_lpop 1).mono ?_
        intro key' hmem
        rw [Set.mem_singleton_iff.mp hmem]
        exact List.mem_cons_self
      -- the result of the first pop decides how the loop goes on
      have hbind := Local.bind hpop.result
        (h := fun result d =>
          match result with
          | .ok (value :: _) => ((Store.lpop d key 1).1, Except.ok (some (key, value)))
          | .ok [] => ((Store.lpop d key 1).1, .error (Exception.rangeCheck 0 0))
          | .error _ => blpopKeys d keys) ?_
      · have heq : ∀ d : Store, blpopKeys d (key :: keys) =
            match (d.lpop key 1).2 with
            | .ok (value :: _) => ((d.lpop key 1).1, .ok (some (key, value)))
            | .ok [] => ((d.lpop key 1).1, .error (.rangeCheck 0 0))
            | .error _ => blpopKeys d keys := by
          intro d
          rw [blpopKeys]
          rcases d.lpop key 1 with ⟨d', _ | ⟨_ | ⟨value, more⟩⟩⟩ <;> rfl
        rw [funext heq]
        exact hbind
      · intro result
        cases result with
        | error error => exact htail
        | ok values =>
            cases values with
            | nil => exact hpop.map (g := fun _ => Except.error _) fun d => rfl
            | cons value more => exact hpop.map (g := fun _ => Except.ok (some (key, value))) fun d => rfl

theorem local_blpop : Local (fun key => key ∈ cmd.args.dropLast) (blpopExecute cmd now) := by
  refine local_checked fun _ => ?_
  cases stod (cmd.args.getLastD []) with
  | error e => exact Local.const _ _
  | ok timeout =>
      refine (local_blpopKeys cmd.args.dropLast).map
        (g := fun
          | .error e => .error e
          | .ok (some (key, value)) => .ok (.reply (popReply key value))
          | .ok none => .ok (.blockBlpop cmd.args.dropLast timeout)) fun d => ?_
      rcases blpopKeys d cmd.args.dropLast with ⟨d', _ | _ | ⟨key, value⟩⟩ <;> rfl

theorem local_xadd : Local (fun key => key ∈ cmd.args.take 1) (xaddExecute cmd now) := by
  unfold xaddExecute
  split
  · exact Local.const _ _
  · rename_i hargs
    refine local_first ?_ (by omega)
    refine (@Store.local_xadd (cmd.arg 0) now.system (cmd.arg 1) (pairs (cmd.args.drop 2))).map
      (g := fun
        | .error e => .error e
        | .ok (.ok id) =>
            .ok (.answer ⟨some (cmd.arg 0), some (.xread (cmd.arg 0)), false, bulkReply id⟩)
        | .ok (.error error) => .ok (.reply (error ++ crlf))) fun d => ?_
    rcases Store.xadd d (cmd.arg 0) (cmd.arg 1) (pairs (cmd.args.drop 2)) now.system with
      ⟨d', _ | _ | _⟩ <;> rfl

/-- {lit}`XRANGE` only reads. -/
theorem fst_xrangeExecute (cmd : Command) (now : Reading) (d : Store) :
    (xrangeExecute cmd now d).1 = d := by
  unfold xrangeExecute
  split
  · rfl
  · split <;> rfl

theorem local_xrange : Local (fun key => key ∈ cmd.args.take 1) (xrangeExecute cmd now) := by
  refine Local.of_reads (fst_xrangeExecute cmd now) fun d d' hagree => ?_
  unfold xrangeExecute
  split
  · rfl
  · rename_i hargs
    unfold Store.xrange
    rw [arg_of_agreeOn hagree (by omega)]
    split <;> rfl

/-- {lit}`XREAD` only reads. -/
theorem fst_xreadExecute (cmd : Command) (now : Reading) (d : Store) :
    (xreadExecute cmd now d).1 = d := by
  unfold xreadExecute
  simp only
  split
  · rfl
  · split
    · rfl
    · split
      · rfl
      · split
        · rfl
        · split <;> rfl

theorem local_xread : Local (fun key => key ∈ (parseXreadArgs cmd).keys) (xreadExecute cmd now) := by
  refine Local.of_reads (fst_xreadExecute cmd now) fun d d' hagree => ?_
  have hzip : ∀ stream ∈ (parseXreadArgs cmd).keys.zip (parseXreadArgs cmd).ids,
      d stream.1 = d' stream.1 :=
    fun stream hmem => hagree _ (List.of_mem_zip hmem).1
  unfold xreadExecute
  simp only
  rw [resolveStreamIds_congr hzip]
  split
  · rfl
  · split
    · rfl
    · rename_i streams hstreams
      -- the resolved streams have the same keys
      have hresolved : ∀ stream ∈ streams, d stream.1 = d' stream.1 := by
        intro stream hmem
        have hfst := List.mem_map_of_mem (f := Prod.fst) hmem
        rw [map_fst_resolveStreamIds hstreams] at hfst
        rcases List.mem_map.mp hfst with ⟨stream', hmem', heq⟩
        rw [← heq]
        exact hzip stream' hmem'
      rw [Store.xread_congr hresolved]
      split
      · rfl
      · split
        · rfl
        · split <;> rfl

/-- Both pushes. -/
theorem local_pushExecute {push : Store → Bytes → List Bytes → Store × Nat}
    (hpush : Local {cmd.arg 0} fun d : Store => push d (cmd.arg 0) (cmd.args.drop 1)) :
    Local (fun key => key ∈ cmd.args.take 1) (pushExecute push cmd) := by
  refine local_checked fun hargs => local_first ?_ (by omega)
  exact hpush.map (g := fun length => .ok (.answer ⟨some (cmd.arg 0),
    some (.blpop (cmd.arg 0)), false, integerReply length⟩)) fun _ => rfl

/-- What {lit}`GET` makes of a value. -/
def getOutcome : Except Bytes Bytes → Except Exception Outcome
  | .ok value => .ok (.reply (bulkReply value))
  | .error error => .ok (.reply (lookupError error))

/-- What {lit}`INCR` makes of a number. -/
def incrOutcome (cmd : Command) : Except Bytes Int → Except Exception Outcome
  | .ok n => .ok (.answer ⟨some (cmd.arg 0), none, false, integerReply n⟩)
  | .error error => .ok (.reply error)

/-- What {lit}`LPOP` makes of the elements. -/
def lpopOutcome (cmd : Command) : Except Bytes (List Bytes) → Except Exception Outcome
  | .error error => .ok (.reply (lookupError error))
  | .ok values => (lpopReply cmd values).map fun response =>
      .answer ⟨some (cmd.arg 0), none, false, response⟩

/-- Every command on the keyspace is local to its keys. -/
theorem local_of_dataCommand {body : Command → Reading → Store → CommandResult}
    (hbody : dataCommand cmd.type = some body) (now : Reading) :
    Local cmd.keySet (body cmd now) := by
  show Local (fun key => key ∈ cmd.keys) (body cmd now)
  cases htype : cmd.type <;> rw [htype] at hbody <;>
    simp only [dataCommand, Option.some.injEq, reduceCtorEq] at hbody <;> subst hbody <;>
    simp only [Command.keys, htype]
  case ping =>
    unfold pingExecute
    cases cmd.args <;> exact Local.const _ _
  case echo => exact local_checked fun _ => Local.const _ _
  case set =>
    refine local_checked fun hargs => local_first ?_ (by omega)
    split
    · exact Local.const _ _
    · exact Store.local_put _ _ _
    · split
      · exact Local.const _ _
      · exact Store.local_put _ _ _
  case get =>
    refine local_checked fun hargs => local_first ?_ hargs
    refine (@Store.local_get (cmd.arg 0) now.steady).map (g := getOutcome) fun d => ?_
    rcases Store.get d (cmd.arg 0) now.steady with ⟨d', _ | _⟩ <;> rfl
  case typeCmd =>
    refine local_checked fun hargs => local_first ?_ hargs
    exact (@Store.local_type (cmd.arg 0) now.steady).map
      (g := fun name => .ok (.reply (ascii "+" ++ name ++ crlf))) fun _ => rfl
  case incr =>
    refine local_checked fun hargs => local_first ?_ hargs
    refine (@Store.local_incr (cmd.arg 0) now.steady).map (g := incrOutcome cmd) fun d => ?_
    rcases Store.incr d (cmd.arg 0) now.steady with ⟨d', _ | _⟩ <;> rfl
  case rpush => exact local_pushExecute (Store.local_push _)
  case lpush => exact local_pushExecute (Store.local_push _)
  case lrange =>
    refine local_checked fun hargs => ?_
    split
    · refine Local.of_reads (fun _ => rfl) fun d d' hagree => ?_
      unfold Store.lrange
      rw [arg_of_agreeOn hagree (by omega)]
    · exact Local.const _ _
    · exact Local.const _ _
  case llen =>
    refine local_checked fun hargs => Local.of_reads (fun _ => rfl) fun d d' hagree => ?_
    unfold Store.llen
    rw [arg_of_agreeOn hagree hargs]
  case lpop =>
    refine local_checked fun hargs => local_first ?_ hargs
    split
    · exact Local.const _ _
    · rename_i count _
      refine (@Store.local_lpop (cmd.arg 0) count).map (g := lpopOutcome cmd) fun d => ?_
      rcases Store.lpop d (cmd.arg 0) count with ⟨d', _ | _⟩ <;> rfl
  case blpop => exact local_blpop
  case xadd => exact local_xadd
  case xrange => exact local_xrange
  case xread => exact local_xread

end Commands

/-- Two commands on disjoint keys give the same outcomes and the same table in
either order. -/
theorem disjoint_commands_commute {a b : Command}
    {bodyA bodyB : Command → Reading → Store → CommandResult}
    (ha : dataCommand a.type = some bodyA) (hb : dataCommand b.type = some bodyB)
    (hdisjoint : a.keys.Disjoint b.keys) (now : Reading) (d : Store) :
    (bodyA a now (bodyB b now d).1).2 = (bodyA a now d).2 ∧
      (bodyB b now (bodyA a now d).1).2 = (bodyB b now d).2 ∧
      (bodyB b now (bodyA a now d).1).1 = (bodyA a now (bodyB b now d).1).1 :=
  (local_of_dataCommand ha now).commute (local_of_dataCommand hb now)
    (Set.disjoint_left.mpr fun _ hmem hmem' => hdisjoint hmem hmem') d

/-- A push and a read of two streams. -/
theorem disjoint_commands_commute_push :
    let push : Command := ⟨.rpush, ascii "RPUSH", [ascii "list", ascii "a"]⟩
    let read : Command :=
      ⟨.xread, ascii "XREAD", [ascii "STREAMS", ascii "s", ascii "t", ascii "0-0", ascii "$"]⟩
    push.keys.Disjoint read.keys ∧ ∀ now d,
      (rpushExecute push now (xreadExecute read now d).1).2 = (rpushExecute push now d).2 ∧
        (xreadExecute read now (rpushExecute push now d).1).2 = (xreadExecute read now d).2 ∧
        (xreadExecute read now (rpushExecute push now d).1).1 =
          (rpushExecute push now (xreadExecute read now d).1).1 := by
  have hdisjoint : (Command.keys ⟨.rpush, ascii "RPUSH", [ascii "list", ascii "a"]⟩).Disjoint
      (Command.keys ⟨.xread, ascii "XREAD",
        [ascii "STREAMS", ascii "s", ascii "t", ascii "0-0", ascii "$"]⟩) := by
    unfold List.Disjoint
    decide +kernel
  exact ⟨hdisjoint, fun now d => disjoint_commands_commute rfl rfl hdisjoint now d⟩

end RedisClone
