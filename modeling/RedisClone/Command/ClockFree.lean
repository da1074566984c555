import RedisClone.Command.DataCommands

/-!
# Commands that do not depend on the clock

Some commands never block and never look at a clock: {lit}`SET` without a time to
live, {lit}`XADD` with the milliseconds of the identifier given, {lit}`XREAD`
without {lit}`BLOCK`, and every other command on the keyspace but {lit}`BLPOP`.
On a table without deadlines and without empty lists they are functions of the
table and their arguments, and a read or an exception changes nothing.

Main results:

- Theorem {lit}`steady_of_dataCommand`: all of this, for every such command.
-/

namespace RedisClone

/-! ## Tables without deadlines -/

namespace Store

/-- No key has a deadline, and no list is empty. -/
def Plain (d : Store) : Prop :=
  ∀ key v, d key = some v → v.expiresAt = none ∧ v.value ≠ .list []

theorem plain_empty : Store.empty.Plain := by
  intro key v h
  contradiction

theorem Plain.put {d : Store} (hd : d.Plain) (key : Bytes) {v : StoreValue}
    (hdeadline : v.expiresAt = none) (hvalue : v.value ≠ .list []) : (d.put key v).Plain := by
  intro key' v' h
  by_cases heq : key' = key
  · rw [heq, put_same] at h
    cases h
    exact ⟨hdeadline, hvalue⟩
  · rw [put_of_ne heq] at h
    exact hd key' v' h

theorem Plain.erase {d : Store} (hd : d.Plain) (key : Bytes) : (d.erase key).Plain := by
  intro key' v h
  by_cases heq : key' = key
  · rw [heq, erase_same] at h
    contradiction
  · rw [erase_of_ne heq] at h
    exact hd key' v h

/-- A value without a deadline does not expire. -/
theorem Plain.not_expired {d : Store} (hd : d.Plain) {key : Bytes} {v : StoreValue}
    (h : d key = some v) (now : Int) : v.expired now = false := by
  simp [StoreValue.expired, (hd key v h).1]

/-- A slot has no deadline. -/
theorem Plain.slot {d : Store} (hd : d.Plain) (key : Bytes) : (d.slot key).expiresAt = none := by
  unfold Store.slot
  cases h : d key with
  | none => rfl
  | some v => exact (hd key v h).1

end Store

/-! ## Steady commands -/

/-- The command does not depend on the clock and does not block; the table stays
plain, and it does not change if the command only reads or if it throws. -/
structure Steady (d : Store) (write : Bool) (run : Reading → CommandResult) : Prop where
  same : ∀ now now', run now = run now'
  plain : ∀ now, (run now).1.Plain
  unchanged : ∀ now, write = false ∨ (run now).2.isOk = false → (run now).1 = d
  answers : ∀ now outcome, (run now).2 = .ok outcome → ∃ a, outcome = .answer a

namespace Steady

variable {d d' : Store} {write : Bool} {run : Reading → CommandResult}

/-- The table is left alone. -/
theorem reads (hd : d.Plain) {result : Except Exception Outcome}
    (hresult : ∀ outcome, result = .ok outcome → ∃ a, outcome = .answer a)
    (hrun : ∀ now, run now = (d, result)) : Steady d write run := by
  constructor
  · intro now now'
    rw [hrun, hrun]
  · intro now
    rw [hrun]
    exact hd
  · intro now _
    rw [hrun]
  · intro now outcome h
    rw [hrun] at h
    exact hresult outcome h

/-- The command replies and leaves the table alone. -/
theorem replies (hd : d.Plain) {a : Answer} (hrun : ∀ now, run now = (d, .ok (.answer a))) :
    Steady d write run :=
  reads hd (by simp) hrun

/-- The command throws and leaves the table alone. -/
theorem throws (hd : d.Plain) {e : Exception} (hrun : ∀ now, run now = (d, .error e)) :
    Steady d write run :=
  reads hd (by simp) hrun

/-- A write command changes the table and answers. -/
theorem writes (hd : d'.Plain) {a : Answer} (hrun : ∀ now, run now = (d', .ok (.answer a))) :
    Steady d true run := by
  constructor
  · intro now now'
    rw [hrun, hrun]
  · intro now
    rw [hrun]
    exact hd
  · intro now h
    rw [hrun] at h
    simp [Except.isOk, Except.toBool] at h
  · intro now outcome h
    rw [hrun] at h
    cases h
    exact ⟨a, rfl⟩

/-- The check of the number of arguments. -/
theorem checked (hd : d.Plain) {cmd : Command} {n : Nat}
    (h : checkArgs cmd n = none → Steady d write run) :
    Steady d write fun now => RedisClone.checked cmd n d (run now) := by
  cases hcheck : checkArgs cmd n with
  | some err =>
      have hrun : (fun now => RedisClone.checked cmd n d (run now)) =
          fun _ => (d, .ok (.reply err)) := by
        funext now
        simp [RedisClone.checked, hcheck]
      rw [hrun]
      exact replies hd fun _ => rfl
  | none =>
      have hrun : (fun now => RedisClone.checked cmd n d (run now)) = run := by
        funext now
        simp [RedisClone.checked, hcheck]
      rw [hrun]
      exact h hcheck

end Steady

/-! ## Strings -/

section Strings

variable {d : Store} {cmd : Command}

theorem steady_set (hd : d.Plain) (hexpiry : parseExpiry (cmd.args.drop 2) = .ok none) :
    Steady d true fun now => setExecute cmd now d := by
  apply Steady.checked hd
  intro _
  simp only [hexpiry, Store.set]
  exact Steady.writes (hd.put _ rfl (by simp)) fun _ => rfl

theorem steady_get (hd : d.Plain) : Steady d false fun now => getExecute cmd now d := by
  apply Steady.checked hd
  intro _
  have hget : ∃ result, ∀ now : Reading, d.get (cmd.arg 0) now.steady = (d, result) := by
    unfold Store.get
    cases h : d (cmd.arg 0) with
    | none => exact ⟨_, fun _ => rfl⟩
    | some v =>
        simp only [hd.not_expired h, Bool.false_eq_true, if_false]
        cases v.value with
        | string str => exact ⟨_, fun _ => rfl⟩
        | list elements => exact ⟨_, fun _ => rfl⟩
        | stream entries => exact ⟨_, fun _ => rfl⟩
  rcases hget with ⟨result, hget⟩
  simp only [hget]
  cases result with
  | ok value => exact Steady.replies hd fun _ => rfl
  | error error => exact Steady.replies hd fun _ => rfl

theorem steady_type (hd : d.Plain) : Steady d false fun now => typeExecute cmd now d := by
  apply Steady.checked hd
  intro _
  have htype : ∃ name, ∀ now : Reading, d.type (cmd.arg 0) now.steady = (d, name) := by
    unfold Store.type
    cases h : d (cmd.arg 0) with
    | none => exact ⟨_, fun _ => rfl⟩
    | some v =>
        refine ⟨v.typeName, fun now => ?_⟩
        simp [hd.not_expired h]
  rcases htype with ⟨name, htype⟩
  simp only [htype]
  exact Steady.replies hd fun _ => rfl

theorem steady_incr (hd : d.Plain) : Steady d true fun now => incrExecute cmd now d := by
  apply Steady.checked hd
  intro _
  cases h : d (cmd.arg 0) with
  | none =>
      have hincr : ∀ now : Reading, d.incr (cmd.arg 0) now.steady = d.incrFresh (cmd.arg 0) := by
        intro now
        simp [Store.incr, h]
      simp only [hincr, Store.incrFresh]
      exact Steady.writes (hd.put _ rfl (by simp)) fun _ => rfl
  | some v =>
      have hincr : ∀ now : Reading, d.incr (cmd.arg 0) now.steady = d.incrValue (cmd.arg 0) v := by
        intro now
        simp [Store.incr, h, hd.not_expired h]
      simp only [hincr]
      rcases Store.incrValue_cases d (cmd.arg 0) v with ⟨n, hvalue⟩ | hvalue
      · simp only [hvalue]
        refine Steady.writes ?_ fun _ => rfl
        exact hd.put _ (hd _ v h).1 (by simp)
      · simp only [hvalue]
        exact Steady.replies hd fun _ => rfl

end Strings

/-! ## Lists -/

section Lists

variable {d : Store} {cmd : Command}

/-- Behind the check for two arguments there is a value to push. -/
theorem drop_one_ne_nil (h : checkArgs cmd 2 = none) : cmd.args.drop 1 ≠ [] := by
  intro hnil
  have hlength := congrArg List.length hnil
  simp only [List.length_drop, List.length_nil] at hlength
  unfold checkArgs at h
  split at h
  · contradiction
  · omega

/-- A push that adds an element. -/
theorem steady_push (hd : d.Plain) {push : Store → Bytes → List Bytes → Store × Nat}
    {change : List Bytes → List Bytes → List Bytes}
    (hpush : ∀ d key values, push d key values = d.push key (change values))
    (hchange : ∀ values elements, values ≠ [] → change values elements ≠ []) :
    Steady d true fun _ => pushExecute push cmd d := by
  unfold pushExecute
  apply Steady.checked hd
  intro hargs
  refine Steady.writes ?_ fun _ => rfl
  rw [hpush]
  refine hd.put _ (hd.slot _) ?_
  intro hnil
  exact hchange _ _ (drop_one_ne_nil hargs) (Value.list.inj hnil)

theorem steady_rpush (hd : d.Plain) : Steady d true fun now => rpushExecute cmd now d := by
  refine steady_push hd (fun _ _ _ => rfl) ?_
  intro values elements hne
  simp [hne]

theorem steady_lpush (hd : d.Plain) : Steady d true fun now => lpushExecute cmd now d := by
  refine steady_push hd (fun _ _ _ => rfl) ?_
  intro values elements hne
  rw [List.foldl_flip_cons_eq_append']
  simp [hne]

theorem steady_lrange (hd : d.Plain) : Steady d false fun now => lrangeExecute cmd now d := by
  apply Steady.checked hd
  intro _
  split
  · exact Steady.replies hd fun _ => rfl
  · exact Steady.throws hd fun _ => rfl
  · exact Steady.throws hd fun _ => rfl

/-- Popping keeps the table plain. -/
theorem Store.Plain.lpop (hd : d.Plain) (key : Bytes) (count : Nat) : (d.lpop key count).1.Plain := by
  unfold Store.lpop
  split
  · exact hd
  · rename_i elements expiresAt h
    simp only
    split
    · exact hd.erase key
    · rename_i hrest
      exact hd.put key (hd key _ h).1 (fun heq => hrest (Value.list.inj heq))
  · exact hd

/-- One element can be popped from a list that is not empty. -/
theorem lpop_one_ne_nil (hd : d.Plain) {key : Bytes} {d' : Store} {values : List Bytes}
    (h : d.lpop key 1 = (d', .ok values)) : values ≠ [] := by
  unfold Store.lpop at h
  split at h
  · simp at h
  · rename_i elements expiresAt hkey
    simp only [Prod.mk.injEq, Except.ok.injEq] at h
    have hne : elements ≠ [] := fun heq => (hd key _ hkey).2 (by rw [heq])
    have hpos := List.length_pos_iff.mpr hne
    rw [← h.2]
    intro hnil
    have hlength := congrArg List.length hnil
    simp only [List.length_take, List.length_nil] at hlength
    omega
  · simp at h

theorem steady_lpop (hd : d.Plain) : Steady d true fun now => lpopExecute cmd now d := by
  apply Steady.checked hd
  intro _
  cases hcount : lpopCount cmd with
  | error e => exact Steady.throws hd fun _ => rfl
  | ok count =>
      have hplain := hd.lpop (cmd.arg 0) count
      rcases hpop : d.lpop (cmd.arg 0) count with ⟨d', result⟩
      rw [hpop] at hplain
      cases result with
      | error error =>
          simp only [hpop]
          exact Steady.writes hplain fun _ => rfl
      | ok values =>
          -- without a count, the list that was popped from was not empty
          have hreply : ∃ response, lpopReply cmd values = .ok response := by
            unfold lpopReply
            split
            · rename_i hargs
              have hone : count = 1 := by
                unfold lpopCount at hcount
                rw [if_neg (by omega)] at hcount
                cases hcount
                rfl
              rw [hone] at hpop
              cases values with
              | nil => exact absurd rfl (lpop_one_ne_nil hd hpop)
              | cons value values => exact ⟨_, rfl⟩
            · exact ⟨_, rfl⟩
          rcases hreply with ⟨response, hreply⟩
          simp only [hpop, hreply, Except.map]
          exact Steady.writes hplain fun _ => rfl

end Lists

/-! ## Streams -/

section Streams

variable {d : Store} {cmd : Command}

/-- The clock is only read for a star. -/
theorem generateStreamId_congr {pattern : Bytes} (h : pattern ≠ ascii "*") (lastId : Bytes)
    (now now' : Int) :
    StreamUtils.generateStreamId pattern lastId now =
      StreamUtils.generateStreamId pattern lastId now' := by
  unfold StreamUtils.generateStreamId StreamUtils.parseStreamId
  rw [if_neg h, if_neg h]

/-- A component of a new identifier. -/
theorem newComponent_error {text : Bytes} {e : Exception}
    (h : StreamUtils.newComponent text = .error e) : e = StreamUtils.invalidStreamId := by
  unfold StreamUtils.newComponent at h
  split at h <;> cases h
  rfl

/-- A new identifier that cannot be parsed. -/
theorem parseStreamId_error {streamId : Bytes} {now : Int} {e : Exception}
    (h : StreamUtils.parseStreamId streamId now = .error e) : e = StreamUtils.invalidStreamId := by
  unfold StreamUtils.parseStreamId at h
  split at h
  · contradiction
  · split at h
    · cases h
      rfl
    · rename_i front back hsplit
      cases hms : StreamUtils.newComponent front with
      | error e' =>
          rw [hms] at h
          cases h
          exact newComponent_error hms
      | ok ms =>
          simp only [hms, bind, Except.bind] at h
          split at h
          · contradiction
          · cases hseq : StreamUtils.newComponent back with
            | error e' =>
                simp only [hseq] at h
                cases h
                exact newComponent_error hseq
            | ok seq => simp [hseq, pure, Except.pure] at h

/-- An identifier that is not above the last one. -/
theorem validateId_error {ms seq : Int} {lastIdParts : StreamUtils.LastIdParts} {e : Exception}
    (h : StreamUtils.validateId ms seq lastIdParts = .error e) :
    ∃ what, e = .invalidArgument what := by
  unfold StreamUtils.validateId at h
  split at h
  · cases h
    exact ⟨_, rfl⟩
  · split at h <;> cases h
    exact ⟨_, rfl⟩

/-- Only the identifier of the last entry can make {lit}`generate_stream_id` throw
anything else than {lit}`std::invalid_argument`. -/
theorem generateStreamId_error {pattern lastId : Bytes} {now : Int} {e : Exception}
    (hlast : ∃ parts, StreamUtils.parseLastId lastId = .ok parts)
    (h : StreamUtils.generateStreamId pattern lastId now = .error e) :
    ∃ what, e = .invalidArgument what := by
  rcases hlast with ⟨parts, hlast⟩
  unfold StreamUtils.generateStreamId at h
  cases hid : StreamUtils.parseStreamId pattern now with
  | error e' =>
      rw [hid] at h
      cases h
      exact ⟨_, parseStreamId_error hid⟩
  | ok idParts =>
      simp only [hid, hlast, bind, Except.bind] at h
      split at h
      · rename_i hvalid
        cases h
        exact validateId_error hvalid
      · contradiction

/-- {lit}`XADD` throws only for the last entry of a stream that exists. -/
theorem xadd_error {key streamId : Bytes} {fields : List (Bytes × Bytes)} {now : Int}
    {d' : Store} {e : Exception} (h : d.xadd key streamId fields now = (d', .error e)) :
    d' = d := by
  unfold Store.xadd at h
  split at h
  · simp at h
  · rename_i hother
    simp only at h
    split at h
    · simp at h
    · simp at h
    · rename_i e' hinvalid herror
      cases h
      cases hkey : d key with
      | none =>
          have hlast : Store.lastId (Store.streamSlot (d.slot key)) = [] := by
            simp [Store.slot, hkey, StoreValue.default, Store.streamSlot, Store.lastId]
          rw [hlast] at herror
          rcases generateStreamId_error ⟨_, rfl⟩ herror with ⟨what, rfl⟩
          exact absurd rfl (hinvalid what)
      | some v =>
          rcases v with ⟨value, expiresAt⟩
          cases value with
          | stream entries =>
              apply Store.put_self
              simp [Store.slot, hkey, Store.streamSlot]
          | string str => simp [Store.holdsOther, hkey] at hother
          | list elements => simp [Store.holdsOther, hkey] at hother

/-- {lit}`XADD` keeps the table plain. -/
theorem Store.Plain.xadd (hd : d.Plain) (key streamId : Bytes) (fields : List (Bytes × Bytes))
    (now : Int) : (d.xadd key streamId fields now).1.Plain := by
  unfold Store.xadd
  split
  · exact hd
  · simp only
    split <;> exact hd.put key (hd.slot key) (by simp)

theorem steady_xadd (hd : d.Plain) (hid : cmd.arg 1 ≠ ascii "*") :
    Steady d true fun now => xaddExecute cmd now d := by
  unfold xaddExecute
  by_cases hargs : cmd.args.length < 4 ∨ (cmd.args.length - 2) % 2 ≠ 0
  · simp only [hargs, if_true]
    exact Steady.replies hd fun _ => rfl
  · simp only [hargs, if_false]
    have hsame : ∀ now : Reading, d.xadd (cmd.arg 0) (cmd.arg 1) (pairs (cmd.args.drop 2))
        now.system = d.xadd (cmd.arg 0) (cmd.arg 1) (pairs (cmd.args.drop 2)) 0 := by
      intro now
      unfold Store.xadd
      simp only [generateStreamId_congr hid _ now.system 0]
    have hplain := hd.xadd (cmd.arg 0) (cmd.arg 1) (pairs (cmd.args.drop 2)) 0
    simp only [hsame]
    rcases hadd : d.xadd (cmd.arg 0) (cmd.arg 1) (pairs (cmd.args.drop 2)) 0 with ⟨d', result⟩
    rw [hadd] at hplain
    cases result with
    | error e =>
        rw [xadd_error hadd]
        exact Steady.throws hd fun _ => rfl
    | ok result =>
        cases result with
        | ok id => exact Steady.writes hplain fun _ => rfl
        | error error => exact Steady.writes hplain fun _ => rfl

theorem steady_xrange (hd : d.Plain) : Steady d false fun now => xrangeExecute cmd now d := by
  unfold xrangeExecute
  split
  · exact Steady.replies hd fun _ => rfl
  · split
    · exact Steady.replies hd fun _ => rfl
    · exact Steady.replies hd fun _ => rfl

theorem steady_xread (hd : d.Plain) (hblock : (parseXreadArgs cmd).isBlocking = false) :
    Steady d false fun now => xreadExecute cmd now d := by
  unfold xreadExecute
  simp only [hblock, if_true]
  split
  · exact Steady.replies hd fun _ => rfl
  · split
    · exact Steady.throws hd fun _ => rfl
    · split
      · exact Steady.replies hd fun _ => rfl
      · split
        · exact Steady.replies hd fun _ => rfl
        · exact Steady.replies hd fun _ => rfl

end Streams

/-! ## All commands -/

/-- The command neither blocks nor depends on the clock. -/
def ClockFree (cmd : Command) : Prop :=
  match cmd.type with
  | .set => parseExpiry (cmd.args.drop 2) = .ok none
  | .xadd => cmd.arg 1 ≠ ascii "*"
  | .xread => (parseXreadArgs cmd).isBlocking = false
  | .blpop => False
  | .wait => False
  | _ => True

/-- Such a command is a function of the table and its arguments. -/
theorem steady_of_dataCommand {cmd : Command} {body : Command → Reading → Store → CommandResult}
    (hbody : dataCommand cmd.type = some body) (hfree : ClockFree cmd) {d : Store}
    (hd : d.Plain) : Steady d (isWriteCommand cmd.type) fun now => body cmd now d := by
  unfold ClockFree at hfree
  cases htype : cmd.type <;> rw [htype] at hbody hfree <;>
    simp only [dataCommand, Option.some.injEq, reduceCtorEq] at hbody <;> subst hbody
  case ping =>
    unfold pingExecute
    split <;> exact Steady.replies hd fun _ => rfl
  case echo => exact Steady.checked hd fun _ => Steady.replies hd fun _ => rfl
  case set => exact steady_set hd hfree
  case get => exact steady_get hd
  case typeCmd => exact steady_type hd
  case incr => exact steady_incr hd
  case rpush => exact steady_rpush hd
  case lpush => exact steady_lpush hd
  case lrange => exact steady_lrange hd
  case llen => exact Steady.checked hd fun _ => Steady.replies hd fun _ => rfl
  case lpop => exact steady_lpop hd
  case blpop => exact hfree.elim
  case xadd => exact steady_xadd hd hfree
  case xrange => exact steady_xrange hd
  case xread => exact steady_xread hd hfree

end RedisClone
