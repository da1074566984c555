import RedisClone.Command.Expiry

/-!
# Error replies

A command that replies with an error should not have changed the keyspace.  All
commands keep to this but {lit}`XADD`, which creates the key before it looks at
the identifier.

Main results:

- Theorem {lit}`errorKeeps_of_dataCommand`: every command but {lit}`XADD` leaves
  the table alone when it replies with an error.
- Theorem {lit}`error_replies_change_nothing`: the live entries stay as they are
  unless {lit}`XADD` rejects an identifier for a key that is not set.
- Theorem {lit}`error_reply_creates_stream`: what happens then.
-/

namespace RedisClone

/-! ## Commands that keep the table -/

/-- The reply is a RESP error. -/
def IsErrorReply (response : Bytes) : Prop :=
  response.head? = some 45

instance (response : Bytes) : Decidable (IsErrorReply response) :=
  inferInstanceAs (Decidable (_ = _))

/-- If the command replies with an error, the table is what it was. -/
def ErrorKeeps (d : Store) (result : CommandResult) : Prop :=
  ∀ a, result.2 = .ok (.answer a) → IsErrorReply a.response → result.1 = d

namespace ErrorKeeps

variable {d d' : Store}

/-- The table is left alone. -/
theorem same (result : Except Exception Outcome) : ErrorKeeps d (d, result) :=
  fun _ _ _ => rfl

/-- The reply is not an error. -/
theorem of_head {a : Answer} (h : a.response.head? ≠ some 45) :
    ErrorKeeps d (d', .ok (.answer a)) := by
  intro a' ha herror
  cases ha
  exact absurd herror h

/-- The check of the number of arguments. -/
theorem checked {cmd : Command} {n : Nat} {body : CommandResult} (h : ErrorKeeps d body) :
    ErrorKeeps d (RedisClone.checked cmd n d body) := by
  unfold RedisClone.checked
  split
  · exact same _
  · exact h

end ErrorKeeps

section Commands

variable {d : Store} {cmd : Command} {now : Reading}

/-- {lit}`GET` replies with an error only for a value of another type. -/
theorem errorKeeps_get : ErrorKeeps d (getExecute cmd now d) := by
  apply ErrorKeeps.checked
  unfold Store.get
  cases d (cmd.arg 0) with
  | none => exact ErrorKeeps.same _
  | some v =>
      simp only
      by_cases hv : v.expired now.steady = true
      · simp only [hv, if_true]
        exact ErrorKeeps.of_head (by decide)
      · simp only [hv]
        cases v.value <;> exact ErrorKeeps.same _

/-- {lit}`INCR` fails without a change. -/
theorem incr_error {key : Bytes} {t : Int} {d' : Store} {error : Bytes}
    (h : d.incr key t = (d', .error error)) : d' = d := by
  unfold Store.incr at h
  split at h
  · simp [Store.incrFresh] at h
  · split at h
    · simp [Store.incrFresh] at h
    · rename_i v _ _
      rcases Store.incrValue_cases d key v with ⟨n, hvalue⟩ | hvalue
      · simp [hvalue] at h
      · rw [hvalue] at h
        cases h
        rfl

/-- {lit}`INCR` replies with a number or leaves the table alone. -/
theorem errorKeeps_incr : ErrorKeeps d (incrExecute cmd now d) := by
  apply ErrorKeeps.checked
  rcases hincr : d.incr (cmd.arg 0) now.steady with ⟨d', result⟩
  cases result with
  | ok n => exact ErrorKeeps.of_head (by simp [integerReply, ascii])
  | error error =>
      rw [incr_error hincr]
      exact ErrorKeeps.same _

/-- {lit}`LPOP` fails without a change. -/
theorem lpop_error {key : Bytes} {count : Nat} {d' : Store} {error : Bytes}
    (h : d.lpop key count = (d', .error error)) : d' = d := by
  unfold Store.lpop at h
  split at h
  · cases h
    rfl
  · simp at h
  · cases h
    rfl

/-- {lit}`LPOP` replies with what it popped or leaves the table alone. -/
theorem errorKeeps_lpop : ErrorKeeps d (lpopExecute cmd now d) := by
  apply ErrorKeeps.checked
  split
  · exact ErrorKeeps.same _
  · rename_i count _
    rcases hpop : d.lpop (cmd.arg 0) count with ⟨d', result⟩
    cases result with
    | error error =>
        rw [lpop_error hpop]
        exact ErrorKeeps.same _
    | ok values =>
        simp only
        intro a ha herror
        unfold lpopReply at ha
        split at ha
        · split at ha
          · cases ha
            simp [IsErrorReply, bulkReply, ascii] at herror
          · contradiction
        · cases ha
          simp [IsErrorReply, bulkArray, arrayHeader, ascii] at herror

/-- {lit}`BLPOP` replies with what it popped, blocks, or leaves the table alone. -/
theorem errorKeeps_blpop : ErrorKeeps d (blpopExecute cmd now d) := by
  apply ErrorKeeps.checked
  split
  · exact ErrorKeeps.same _
  · split
    · intro a ha
      contradiction
    · exact ErrorKeeps.of_head (by simp [popReply, ascii])
    · intro a ha
      cases ha

/-- {lit}`SET` replies with an error before it changes anything. -/
theorem errorKeeps_set : ErrorKeeps d (setExecute cmd now d) := by
  apply ErrorKeeps.checked
  split
  · exact ErrorKeeps.same _
  · exact ErrorKeeps.of_head (by simp [ascii])
  · split
    · exact ErrorKeeps.same _
    · exact ErrorKeeps.of_head (by simp [ascii])

/-- Every command but {lit}`XADD` leaves the table alone when it replies with an
error. -/
theorem errorKeeps_of_dataCommand {body : Command → Reading → Store → CommandResult}
    (hbody : dataCommand cmd.type = some body) (hxadd : cmd.type ≠ .xadd) :
    ErrorKeeps d (body cmd now d) := by
  cases htype : cmd.type <;> rw [htype] at hbody <;>
    simp only [dataCommand, Option.some.injEq, reduceCtorEq] at hbody <;> subst hbody
  case ping =>
    unfold pingExecute
    split <;> exact ErrorKeeps.same _
  case echo => exact ErrorKeeps.checked (ErrorKeeps.same _)
  case set => exact errorKeeps_set
  case get => exact errorKeeps_get
  case typeCmd => exact ErrorKeeps.checked (ErrorKeeps.of_head (by simp [ascii]))
  case incr => exact errorKeeps_incr
  case rpush =>
    exact ErrorKeeps.checked (ErrorKeeps.of_head (by simp [integerReply, ascii]))
  case lpush =>
    exact ErrorKeeps.checked (ErrorKeeps.of_head (by simp [integerReply, ascii]))
  case lrange =>
    apply ErrorKeeps.checked
    split <;> exact ErrorKeeps.same _
  case llen => exact ErrorKeeps.checked (ErrorKeeps.same _)
  case lpop => exact errorKeeps_lpop
  case blpop => exact errorKeeps_blpop
  case xadd => exact absurd htype hxadd
  case xrange =>
    unfold xrangeExecute
    split
    · exact ErrorKeeps.same _
    · split <;> exact ErrorKeeps.same _
  case xread =>
    unfold xreadExecute
    simp only
    repeat' split
    all_goals exact ErrorKeeps.same _

end Commands

/-! ## {lit}`XADD` -/

/-- {lit}`XADD` with a proper number of arguments, for a key that is not set. -/
def AddsToNewKey (cmd : Command) (d : Store) : Prop :=
  cmd.type = .xadd ∧ 4 ≤ cmd.args.length ∧ (cmd.args.length - 2) % 2 = 0 ∧ d (cmd.arg 0) = none

/-- What a rejected {lit}`XADD` leaves behind: an empty stream if the key was not
set, and otherwise the table as it was. -/
theorem xadd_rejected {d d' : Store} {key streamId : Bytes} {fields : List (Bytes × Bytes)}
    {t : Int} {error : Bytes} (h : d.xadd key streamId fields t = (d', .ok (.error error))) :
    (d key = none → d' = d.put key ⟨.stream [], none⟩) ∧ (d key ≠ none → d' = d) := by
  unfold Store.xadd at h
  cases hkey : d key with
  | none =>
      refine ⟨fun _ => ?_, fun hne => absurd rfl hne⟩
      rw [if_neg (by simp [Store.holdsOther, hkey])] at h
      simp only [Store.slot, hkey, Option.getD_none, StoreValue.default, Store.streamSlot] at h
      split at h <;> cases h
      rfl
  | some v =>
      refine ⟨fun hnone => by contradiction, fun _ => ?_⟩
      rcases v with ⟨value, expiresAt⟩
      cases value with
      | stream entries =>
          rw [if_neg (by simp [Store.holdsOther, hkey])] at h
          simp only [Store.slot, hkey, Option.getD_some, Store.streamSlot] at h
          split at h <;> cases h
          exact Store.put_self hkey
      | string str =>
          rw [if_pos (by simp [Store.holdsOther, hkey])] at h
          cases h
          rfl
      | list elements =>
          rw [if_pos (by simp [Store.holdsOther, hkey])] at h
          cases h
          rfl

/-- Error replies change nothing: if a command on the keyspace replies with an
error, the live entries are what they were, unless the command is an {lit}`XADD`
for a key that is not set. -/
theorem error_replies_change_nothing {cmd : Command}
    {body : Command → Reading → Store → CommandResult} (hbody : dataCommand cmd.type = some body)
    {now : Reading} {d d' : Store} {a : Answer} (hresult : body cmd now d = (d', .ok (.answer a)))
    (herror : IsErrorReply a.response) :
    d'.purge now.steady = d.purge now.steady ↔ ¬ AddsToNewKey cmd d := by
  by_cases hxadd : cmd.type = .xadd
  · rw [hxadd] at hbody
    cases hbody
    unfold xaddExecute at hresult
    split at hresult
    · -- the number of arguments is wrong
      rename_i hargs
      cases hresult
      refine iff_of_true rfl ?_
      rintro ⟨-, hfour, heven, -⟩
      rcases hargs with hargs | hargs
      · omega
      · exact hargs heven
    · rename_i hargs
      rw [not_or, not_not] at hargs
      split at hresult
      · cases hresult
      · cases hresult
        simp [IsErrorReply, bulkReply, ascii] at herror
      · rename_i d₁ error hadd
        cases hresult
        rcases xadd_rejected hadd with ⟨hnew, hold⟩
        by_cases hkey : d (cmd.arg 0) = none
        · rw [hnew hkey]
          refine iff_of_false ?_ (fun hnot => hnot ⟨hxadd, by omega, hargs.2, hkey⟩)
          intro hsame
          have hcreated := congrFun hsame (cmd.arg 0)
          rw [Store.purge_of_none hkey,
            Store.purge_of_live (Store.put_same d (cmd.arg 0) _) rfl] at hcreated
          contradiction
        · rw [hold hkey]
          exact iff_of_true rfl fun hadds => hkey hadds.2.2.2
  · have hkeeps := @errorKeeps_of_dataCommand d cmd now body hbody hxadd
    rw [hresult] at hkeeps
    have hsame : d' = d := hkeeps a rfl herror
    rw [hsame]
    exact iff_of_true rfl fun hadds => hxadd hadds.1

/-- {lit}`INCR` on a text that is not a number. -/
theorem error_replies_change_nothing_incr :
    incrExecute ⟨.incr, ascii "INCR", [ascii "a"]⟩ ⟨0, 0⟩ (Store.empty.set (ascii "a") (ascii "x")) =
        (Store.empty.set (ascii "a") (ascii "x"), .ok (.reply Store.notAnInteger)) ∧
      ((Store.empty.set (ascii "a") (ascii "x")).purge 0 =
          (Store.empty.set (ascii "a") (ascii "x")).purge 0 ↔
        ¬ AddsToNewKey ⟨.incr, ascii "INCR", [ascii "a"]⟩
          (Store.empty.set (ascii "a") (ascii "x"))) := by
  have hresult : incrExecute ⟨.incr, ascii "INCR", [ascii "a"]⟩ ⟨0, 0⟩
      (Store.empty.set (ascii "a") (ascii "x")) =
      (Store.empty.set (ascii "a") (ascii "x"), .ok (.reply Store.notAnInteger)) := by
    simp [incrExecute, checked, checkArgs, Command.arg, Store.incr, Store.set, StoreValue.expired,
      Store.incrValue, show fromCharsLongLong (ascii "x") = none by decide +kernel]
  exact ⟨hresult, @error_replies_change_nothing ⟨.incr, ascii "INCR", [ascii "a"]⟩ _ rfl ⟨0, 0⟩
    _ _ _ hresult (by decide)⟩

/-- {lit}`XADD s 0-0 f v` on an empty table replies with an error, and the key
exists behind it. -/
theorem error_reply_creates_stream :
    (xaddExecute ⟨.xadd, ascii "XADD", [ascii "s", ascii "0-0", ascii "f", ascii "v"]⟩ ⟨0, 0⟩
        Store.empty).2 =
      .ok (.reply (ascii "-ERR The ID specified in XADD must be greater than 0-0\r\n")) ∧
    (xaddExecute ⟨.xadd, ascii "XADD", [ascii "s", ascii "0-0", ascii "f", ascii "v"]⟩ ⟨0, 0⟩
        Store.empty).1 (ascii "s") = some ⟨.stream [], none⟩ := by
  decide +kernel

end RedisClone
