import RedisClone.Command.DataTransitions
import RedisClone.Command.Footprint

/-!
# Values of another type

Strings, lists and streams share one table, and every operation decides on its own
what to do with a value of another type.  {lit}`GET`, {lit}`LPOP` and {lit}`XADD`
reply an error, the reads find nothing, and the pushes put a list in its place.

Main results:

- Theorem {lit}`foreign_value_kept_iff`: a command leaves a live value of another
  type alone unless it pushes.
- Theorem {lit}`push_replaces_string`: a push on a string destroys it.
-/

namespace RedisClone

/-- {lit}`StoreType`. -/
inductive StoreType where
  | string
  | list
  | stream
deriving DecidableEq, Repr

/-- {lit}`StoreValue::type`. -/
def StoreValue.type (v : StoreValue) : StoreType :=
  match v.value with
  | .string _ => .string
  | .list _ => .list
  | .stream _ => .stream

/-- The type of value that a command works on; {lit}`TYPE` takes all of them. -/
def CommandType.worksOn : CommandType → Option StoreType
  | .set | .get | .incr => some .string
  | .rpush | .lpush | .lrange | .llen | .lpop | .blpop => some .list
  | .xadd | .xrange | .xread => some .stream
  | _ => none

/-- A push with enough arguments. -/
def Command.pushes (cmd : Command) : Prop :=
  (cmd.type = .rpush ∨ cmd.type = .lpush) ∧ 2 ≤ cmd.args.length

/-! ## Operations -/

namespace Store

variable {d : Store} {key : Bytes} {v : StoreValue} {now : Int}

/-- A live value is not removed by a lookup. -/
theorem get_of_live (hv : d key = some v) (hlive : v.expired now = false) :
    (d.get key now).1 = d := by
  simp only [get, hv, hlive]
  cases v.value <;> rfl

/-- A live value that is not a string is not incremented. -/
theorem incr_of_foreign (hv : d key = some v) (hlive : v.expired now = false)
    (hforeign : v.type ≠ .string) : d.incr key now = (d, .error notAnInteger) := by
  simp only [incr, hv, hlive, Bool.false_eq_true, if_false]
  rcases v with ⟨_ | _ | _, expiresAt⟩
  · exact absurd rfl hforeign
  · rfl
  · rfl

/-- A value that is not a list is not popped from. -/
theorem lpop_of_foreign (hv : d key = some v) (hforeign : v.type ≠ .list) (count : Nat) :
    d.lpop key count = (d, .error wrongType) := by
  simp only [lpop, hv]
  rcases v with ⟨_ | _ | _, expiresAt⟩
  · rfl
  · exact absurd rfl hforeign
  · rfl

/-- A value that is not a stream is not appended to. -/
theorem xadd_of_foreign (hv : d key = some v) (hforeign : v.type ≠ .stream) (id : Bytes)
    (fields : List (Bytes × Bytes)) : d.xadd key id fields now = (d, .ok (.error wrongType)) := by
  have hother : d.holdsOther key = true := by
    simp only [holdsOther, hv]
    rcases v with ⟨_ | _ | _, expiresAt⟩
    · rfl
    · rfl
    · exact absurd rfl hforeign
  unfold xadd
  rw [if_pos hother]

/-- The loop of {lit}`BLPOP` passes a value that is not a list. -/
theorem blpopKeys_of_foreign (hv : d key = some v) (hforeign : v.type ≠ .list)
    (keys : List Bytes) : (blpopKeys d keys).1 key = some v := by
  induction keys with
  | nil => exact hv
  | cons key' keys ih =>
      rw [blpopKeys]
      by_cases heq : key' = key
      · rw [heq, lpop_of_foreign hv hforeign]
        exact ih
      · have hpop := @lpop_of_ne d _ _ (Ne.symm heq) 1
        rcases hresult : d.lpop key' 1 with ⟨d', _ | _ | _⟩
        · exact ih
        · rw [hresult] at hpop
          exact hpop.trans hv
        · rw [hresult] at hpop
          exact hpop.trans hv

end Store

/-! ## Commands -/

section Commands

variable {cmd : Command} {now : Reading} {d : Store} {key : Bytes} {v : StoreValue}

/-- The key of a command with one key. -/
theorem eq_arg_of_mem_take (h : key ∈ cmd.args.take 1) : key = cmd.arg 0 := by
  unfold Command.arg
  cases hargs : cmd.args with
  | nil =>
      rw [hargs] at h
      contradiction
  | cons arg args =>
      rw [hargs] at h
      exact List.mem_singleton.mp h

/-- A check of the number of arguments in front of a command that changes nothing. -/
theorem fst_checked {n : Nat} {body : CommandResult} (h : n ≤ cmd.args.length → body.1 key = d key) :
    (checked cmd n d body).1 key = d key := by
  by_cases hargs : n ≤ cmd.args.length
  · rw [checked_of_le hargs]
    exact h hargs
  · rw [fst_checked_of_lt (by omega)]

/-- A command that does not push leaves a live value of another type alone. -/
theorem foreign_kept {body : Command → Reading → Store → CommandResult}
    (hbody : dataCommand cmd.type = some body) {type : StoreType}
    (hset : cmd.type ≠ .set) (htype : cmd.type.worksOn = some type) (hkey : key ∈ cmd.keys)
    (hv : d key = some v) (hlive : v.expired now.steady = false) (hforeign : v.type ≠ type)
    (hpush : ¬ cmd.pushes) : (body cmd now d).1 key = d key := by
  unfold Command.keys at hkey
  cases hcmd : cmd.type <;> rw [hcmd] at hbody htype <;>
    simp only [dataCommand, Option.some.injEq, reduceCtorEq] at hbody <;> subst hbody <;>
    simp only [CommandType.worksOn, Option.some.injEq, reduceCtorEq] at htype <;> subst htype <;>
    simp only [hcmd] at hkey
  case set => exact absurd hcmd hset
  case get =>
    rw [eq_arg_of_mem_take hkey] at hv ⊢
    refine fst_checked fun _ => ?_
    have hsame := Store.get_of_live hv hlive
    rcases hget : d.get (cmd.arg 0) now.steady with ⟨d', _ | _⟩ <;> rw [hget] at hsame <;>
      exact congrFun hsame _
  case incr =>
    rw [eq_arg_of_mem_take hkey] at hv ⊢
    refine fst_checked fun _ => ?_
    rw [Store.incr_of_foreign hv hlive hforeign]
  case rpush =>
    have hargs : cmd.args.length < 2 := by
      by_contra hargs
      exact hpush ⟨Or.inl hcmd, by omega⟩
    exact congrFun (fst_checked_of_lt hargs) key
  case lpush =>
    have hargs : cmd.args.length < 2 := by
      by_contra hargs
      exact hpush ⟨Or.inr hcmd, by omega⟩
    exact congrFun (fst_checked_of_lt hargs) key
  case lrange =>
    refine fst_checked fun _ => ?_
    split <;> rfl
  case llen => exact fst_checked fun _ => rfl
  case lpop =>
    rw [eq_arg_of_mem_take hkey] at hv ⊢
    refine fst_checked fun _ => ?_
    split
    · rfl
    · rw [Store.lpop_of_foreign hv hforeign]
  case blpop =>
    refine fst_checked fun _ => ?_
    have hkeys := Store.blpopKeys_of_foreign hv hforeign cmd.args.dropLast
    rw [hv]
    split
    · exact hv
    · rcases hpop : blpopKeys d cmd.args.dropLast with ⟨d', _ | _ | _⟩ <;> rw [hpop] at hkeys <;>
        exact hkeys
  case xadd =>
    rw [eq_arg_of_mem_take hkey] at hv ⊢
    unfold xaddExecute
    split
    · rfl
    · rw [Store.xadd_of_foreign hv hforeign]
  case xrange => rw [fst_xrangeExecute]
  case xread => rw [fst_xreadExecute]

/-- A push puts a list in place of a value of another type. -/
theorem foreign_replaced {body : Command → Reading → Store → CommandResult}
    (hbody : dataCommand cmd.type = some body) (hpush : cmd.pushes) (hkey : key ∈ cmd.keys) :
    ∃ v, (body cmd now d).1 key = some v ∧ v.type = .list := by
  rcases hpush with ⟨hcmd | hcmd, hargs⟩ <;> rw [hcmd] at hbody <;> cases hbody <;>
    simp only [Command.keys, hcmd] at hkey <;> rw [eq_arg_of_mem_take hkey]
  · unfold rpushExecute pushExecute
    rw [checked_of_le hargs]
    exact ⟨_, Store.put_same d (cmd.arg 0) _, rfl⟩
  · unfold lpushExecute pushExecute
    rw [checked_of_le hargs]
    exact ⟨_, Store.put_same d (cmd.arg 0) _, rfl⟩

/-- A command other than {lit}`SET` on a live key that holds a value of another type
leaves the value and its deadline alone, unless it is a push with enough
arguments. -/
theorem foreign_value_kept_iff {body : Command → Reading → Store → CommandResult}
    (hbody : dataCommand cmd.type = some body) (hset : cmd.type ≠ .set) {type : StoreType}
    (htype : cmd.type.worksOn = some type) (hkey : key ∈ cmd.keys) (hv : d key = some v)
    (hlive : v.expired now.steady = false) (hforeign : v.type ≠ type) :
    (body cmd now d).1 key = some v ↔ ¬ cmd.pushes := by
  constructor
  · intro hkept hpush
    have hreplaced : ∃ v', (body cmd now d).1 key = some v' ∧ v'.type = .list :=
      foreign_replaced hbody hpush hkey
    rcases hreplaced with ⟨v', hv', hlist⟩
    rw [hkept] at hv'
    cases hv'
    rcases hpush.1 with hcmd | hcmd <;> rw [hcmd] at htype <;> cases htype <;>
      exact hforeign hlist
  · intro hpush
    rw [foreign_kept hbody hset htype hkey hv hlive hforeign hpush]
    exact hv

end Commands

/-- {lit}`LPOP` on a string. -/
theorem foreign_value_kept_iff_lpop :
    let cmd : Command := ⟨.lpop, ascii "LPOP", [ascii "k"]⟩
    let d := Store.empty.set (ascii "k") (ascii "v")
    ((lpopExecute cmd ⟨0, 0⟩ d).1 (ascii "k") = some ⟨.string (ascii "v"), none⟩ ↔ ¬ cmd.pushes) ∧
      ¬ cmd.pushes := by
  refine ⟨?_, ?_⟩
  · exact foreign_value_kept_iff rfl (by decide) rfl (by decide) rfl (by decide) (by decide)
  · rintro ⟨h | h, -⟩ <;> cases h

/-- {lit}`SET k v`, then {lit}`RPUSH k a`: the string is gone. -/
theorem push_replaces_string :
    let d := Store.empty.set (ascii "k") (ascii "v")
    let push : Command := ⟨.rpush, ascii "RPUSH", [ascii "k", ascii "a"]⟩
    d (ascii "k") = some ⟨.string (ascii "v"), none⟩ ∧
      (rpushExecute push ⟨0, 0⟩ d).1 (ascii "k") = some ⟨.list [ascii "a"], none⟩ := by
  decide

end RedisClone
