import RedisClone.Command.DataCommands

/-!
# Lazy expiry

The store removes an expired entry only when {lit}`get`, {lit}`incr` or
{lit}`type` finds it.  The reference removes every expired entry ahead of each
command.  Up to expired entries the two tables stay the same, and no reply tells
them apart.

Main results:

- Theorem {lit}`agrees_execute`: one command gives the same reply on both tables
  and keeps them the same up to expired entries.
- Theorem {lit}`expired_keys_invisible`: the same for whole runs, and what
  {lit}`INCR` and {lit}`SET` make of a deadline.
-/

namespace RedisClone

/-! ## Live entries -/

namespace Store

/-- The entries whose deadline does not lie before the clock reading. -/
def purge (d : Store) (now : Int) : Store :=
  fun key => (d key).filter fun v => !v.expired now

variable {d d' : Store} {key : Bytes} {v : StoreValue} {now : Int}

theorem purge_of_none (h : d key = none) (now : Int) : d.purge now key = none := by
  simp [purge, h]

theorem purge_of_expired (h : d key = some v) (hv : v.expired now = true) :
    d.purge now key = none := by
  simp [purge, h, hv]

theorem purge_of_live (h : d key = some v) (hv : v.expired now = false) :
    d.purge now key = some v := by
  simp [purge, h, hv]

/-- What has expired stays expired. -/
theorem expired_mono {now' : Int} (hle : now ≤ now') (h : v.expired now = true) :
    v.expired now' = true := by
  unfold StoreValue.expired at h ⊢
  cases hdeadline : v.expiresAt with
  | none => simp [hdeadline] at h
  | some deadline =>
      simp only [hdeadline, Option.any_some, decide_eq_true_eq] at h ⊢
      omega

/-- Removing expired entries earlier makes no difference later. -/
theorem purge_purge {now' : Int} (hle : now ≤ now') (d : Store) :
    (d.purge now).purge now' = d.purge now' := by
  funext key
  cases hkey : d key with
  | none => rw [purge_of_none (purge_of_none hkey now), purge_of_none hkey]
  | some v =>
      by_cases hv : v.expired now = true
      · rw [purge_of_none (purge_of_expired hkey hv), purge_of_expired hkey (expired_mono hle hv)]
      · have hlive := purge_of_live hkey (by simpa using hv)
        unfold purge at hlive ⊢
        rw [hlive, hkey]

/-- Assignments keep two tables the same up to expired entries. -/
theorem purge_put_congr (h : d.purge now = d'.purge now) (key : Bytes) (v : StoreValue) :
    (d.put key v).purge now = (d'.put key v).purge now := by
  funext key'
  have hkey := congrFun h key'
  unfold purge at hkey ⊢
  by_cases heq : key' = key
  · rw [heq, put_same, put_same]
  · rw [put_of_ne heq, put_of_ne heq]
    exact hkey

/-- Removing an expired entry makes no difference. -/
theorem purge_erase (h : d key = some v) (hv : v.expired now = true) :
    (d.erase key).purge now = d.purge now := by
  funext key'
  by_cases heq : key' = key
  · rw [heq, purge_of_none (erase_same d key), purge_of_expired h hv]
  · unfold purge
    rw [erase_of_ne heq]

end Store

/-! ## One command -/

/-- The command gives the same reply on a table and on its live entries, and the
tables behind it have the same live entries. -/
def Agrees (now : Int) (d : Store) (run : Store → CommandResult) : Prop :=
  (run d).2 = (run (d.purge now)).2 ∧ (run d).1.purge now = (run (d.purge now)).1.purge now

namespace Agrees

variable {now : Int} {d : Store} {run : Store → CommandResult}

/-- The command does not look at the table and leaves it alone. -/
theorem unchanged {result : Except Exception Outcome} (h : ∀ d, run d = (d, result)) :
    Agrees now d run := by
  constructor
  · rw [h, h]
  · rw [h, h, Store.purge_purge (le_refl now)]

/-- The check of the number of arguments. -/
theorem checked {cmd : Command} {n : Nat} (h : Agrees now d run) :
    Agrees now d fun d => RedisClone.checked cmd n d (run d) := by
  cases hcheck : checkArgs cmd n with
  | some err =>
      apply unchanged
      intro d
      simp only [RedisClone.checked, hcheck]
      rfl
  | none =>
      have hrun : (fun d => RedisClone.checked cmd n d (run d)) = run := by
        funext d
        simp [RedisClone.checked, hcheck]
      rw [hrun]
      exact h

end Agrees

section Commands

variable {d : Store} {cmd : Command} {now : Reading}

/-- An assignment that does not depend on the table. -/
theorem agrees_put (t : Int) (key : Bytes) (v : StoreValue) (outcome : Outcome) :
    Agrees t d fun d => (d.put key v, .ok outcome) :=
  ⟨rfl, Store.purge_put_congr (Store.purge_purge (le_refl t) d).symm key v⟩

theorem agrees_set : Agrees now.steady d fun d => setExecute cmd now d := by
  apply Agrees.checked
  split
  · exact Agrees.unchanged fun _ => rfl
  · exact agrees_put _ _ _ _
  · split
    · exact Agrees.unchanged fun _ => rfl
    · exact agrees_put _ _ _ _

theorem agrees_get : Agrees now.steady d fun d => getExecute cmd now d := by
  apply Agrees.checked
  -- either both tables hold the same live entry, or the second one holds none
  cases hkey : d (cmd.arg 0) with
  | none =>
      have hnone := Store.purge_of_none hkey now.steady
      simp only [Agrees, Store.get, hkey, hnone]
      exact ⟨trivial, (Store.purge_purge (le_refl _) d).symm⟩
  | some v =>
      by_cases hv : v.expired now.steady = true
      · have hnone := Store.purge_of_expired hkey hv
        simp only [Agrees, Store.get, hkey, hnone, hv, if_true]
        exact ⟨trivial, by rw [Store.purge_erase hkey hv, Store.purge_purge (le_refl _)]⟩
      · have hlive := Store.purge_of_live hkey (by simpa using hv)
        simp only [Agrees, Store.get, hkey, hlive, hv]
        cases v.value <;> exact ⟨rfl, (Store.purge_purge (le_refl _) d).symm⟩

theorem agrees_type : Agrees now.steady d fun d => typeExecute cmd now d := by
  apply Agrees.checked
  cases hkey : d (cmd.arg 0) with
  | none =>
      have hnone := Store.purge_of_none hkey now.steady
      simp only [Agrees, Store.type, hkey, hnone]
      exact ⟨trivial, (Store.purge_purge (le_refl _) d).symm⟩
  | some v =>
      by_cases hv : v.expired now.steady = true
      · have hnone := Store.purge_of_expired hkey hv
        simp only [Agrees, Store.type, hkey, hnone, hv, if_true]
        exact ⟨trivial, by rw [Store.purge_erase hkey hv, Store.purge_purge (le_refl _)]⟩
      · have hlive := Store.purge_of_live hkey (by simpa using hv)
        simp only [Agrees, Store.type, hkey, hlive, hv, Bool.false_eq_true, if_false]
        exact ⟨trivial, (Store.purge_purge (le_refl _) d).symm⟩

/-- What {lit}`INCR` makes of a live entry. -/
theorem agrees_incrValue (t : Int) (key : Bytes) (v : StoreValue) :
    (d.incrValue key v).2 = ((d.purge t).incrValue key v).2 ∧
      (d.incrValue key v).1.purge t = ((d.purge t).incrValue key v).1.purge t := by
  have hsame := (Store.purge_purge (le_refl t) d).symm
  unfold Store.incrValue
  split
  · split
    · split
      · exact ⟨rfl, hsame⟩
      · exact ⟨rfl, Store.purge_put_congr hsame _ _⟩
    · exact ⟨rfl, hsame⟩
  · exact ⟨rfl, hsame⟩

/-- What {lit}`INCR` does. -/
theorem agrees_incr_store (key : Bytes) (t : Int) :
    (d.incr key t).2 = ((d.purge t).incr key t).2 ∧
      (d.incr key t).1.purge t = ((d.purge t).incr key t).1.purge t := by
  have hsame := (Store.purge_purge (le_refl t) d).symm
  cases hkey : d key with
  | none =>
      simp only [Store.incr, hkey, Store.purge_of_none hkey t, Store.incrFresh]
      exact ⟨trivial, Store.purge_put_congr hsame _ _⟩
  | some v =>
      by_cases hv : v.expired t = true
      · simp only [Store.incr, hkey, Store.purge_of_expired hkey hv, hv, if_true, Store.incrFresh]
        refine ⟨trivial, Store.purge_put_congr ?_ _ _⟩
        rw [Store.purge_erase hkey hv]
        exact hsame
      · have hlive := Store.purge_of_live hkey (by simpa using hv)
        simp only [Store.incr, hkey, hlive, hv]
        exact agrees_incrValue t key v

theorem agrees_incr : Agrees now.steady d fun d => incrExecute cmd now d := by
  apply Agrees.checked
  rcases agrees_incr_store (d := d) (cmd.arg 0) now.steady with ⟨hreply, hdata⟩
  unfold Agrees
  rcases hfirst : d.incr (cmd.arg 0) now.steady with ⟨d₁, result₁⟩
  rcases hsecond : (d.purge now.steady).incr (cmd.arg 0) now.steady with ⟨d₂, result₂⟩
  rw [hfirst, hsecond] at hreply hdata
  simp only at hreply hdata
  subst hreply
  simp only [hfirst, hsecond]
  cases result₁ <;> exact ⟨rfl, hdata⟩

end Commands

/-- {lit}`SET`, {lit}`GET`, {lit}`INCR` and {lit}`TYPE`. -/
def isStringCommand (type : CommandType) : Bool :=
  type = .set ∨ type = .get ∨ type = .incr ∨ type = .typeCmd

/-- A command on strings gives the same reply on a table and on its live entries,
and keeps the live entries the same. -/
theorem agrees_execute {cmd : Command} (hcmd : isStringCommand cmd.type = true)
    {body : Command → Reading → Store → CommandResult} (hbody : dataCommand cmd.type = some body)
    (now : Reading) (d : Store) : Agrees now.steady d (body cmd now) := by
  simp only [isStringCommand, decide_eq_true_eq] at hcmd
  rcases hcmd with htype | htype | htype | htype <;> rw [htype] at hbody <;> cases hbody
  · exact agrees_set
  · exact agrees_get
  · exact agrees_incr
  · exact agrees_type

/-! ## Runs -/

/-- The outcomes of a sequence of commands, each at its own clock reading; the
table is prepared ahead of each command. -/
def outcomes (prepare : Store → Int → Store) (d : Store) :
    List (Command × Reading) → List (Except Exception Outcome)
  | [] => []
  | (cmd, now) :: calls =>
      match dataCommand cmd.type with
      | none => outcomes prepare d calls
      | some body =>
          (body cmd now (prepare d now.steady)).2 ::
            outcomes prepare (body cmd now (prepare d now.steady)).1 calls

/-- The store: nothing happens ahead of a command. -/
def lazyOutcomes (d : Store) (calls : List (Command × Reading)) :
    List (Except Exception Outcome) :=
  outcomes (fun d _ => d) d calls

/-- The reference: every expired entry is removed ahead of a command. -/
def referenceOutcomes (d : Store) (calls : List (Command × Reading)) :
    List (Except Exception Outcome) :=
  outcomes Store.purge d calls

/-- Tables that agree up to expired entries give the same replies. -/
theorem outcomes_congr {d ref : Store} {t : Int} {calls : List (Command × Reading)}
    (hd : d.purge t = ref.purge t) (hcalls : ∀ call ∈ calls, isStringCommand call.1.type = true)
    (hlater : ∀ call ∈ calls, t ≤ call.2.steady)
    (hclock : calls.Pairwise fun first second => first.2.steady ≤ second.2.steady) :
    lazyOutcomes d calls = referenceOutcomes ref calls := by
  induction calls generalizing d ref t with
  | nil => rfl
  | cons call calls ih =>
      rcases call with ⟨cmd, now⟩
      rw [List.pairwise_cons] at hclock
      have hnow : t ≤ now.steady := hlater (cmd, now) (by simp)
      have hsame : d.purge now.steady = ref.purge now.steady := by
        rw [← Store.purge_purge hnow d, hd, Store.purge_purge hnow]
      have hstring := hcalls (cmd, now) (by simp)
      unfold lazyOutcomes referenceOutcomes outcomes
      cases hbody : dataCommand cmd.type with
      | none =>
          exact ih hsame (fun call hcall => hcalls call (by simp [hcall])) hclock.1 hclock.2
      | some body =>
          rcases agrees_execute hstring hbody now d with ⟨hreply, hdata⟩
          rw [hsame] at hreply hdata
          simp only [hreply]
          congr 1
          exact ih hdata (fun call hcall => hcalls call (by simp [hcall])) hclock.1 hclock.2

/-- Expired keys are invisible: in every run of {lit}`SET`, {lit}`GET`, {lit}`INCR`
and {lit}`TYPE` at clock readings that do not decrease, the store replies like the
reference.  {lit}`SET` without a time to live leaves no deadline, {lit}`INCR` on an
expired key starts afresh without one, and {lit}`INCR` on a live key keeps it. -/
theorem expired_keys_invisible {d : Store} {calls : List (Command × Reading)}
    (hcalls : ∀ call ∈ calls, isStringCommand call.1.type = true)
    (hclock : calls.Pairwise fun first second => first.2.steady ≤ second.2.steady) :
    lazyOutcomes d calls = referenceOutcomes d calls ∧
      (∀ (d : Store) (key value : Bytes), d.set key value key = some ⟨.string value, none⟩) ∧
      ∀ (d : Store) (key : Bytes) (v : StoreValue) (now : Int), d key = some v →
        (v.expired now = true →
          (d.incr key now).1 key = some ⟨.string (Decimal.renderInt 1), none⟩) ∧
        (v.expired now = false →
          ∃ value, (d.incr key now).1 key = some ⟨value, v.expiresAt⟩) := by
  refine ⟨?_, fun d key value => Store.put_same d key _, ?_⟩
  · cases calls with
    | nil => rfl
    | cons call calls =>
        refine @outcomes_congr d d call.2.steady _ rfl hcalls ?_ hclock
        intro later hlater
        rcases List.mem_cons.mp hlater with rfl | hlater
        · exact le_refl _
        · exact (List.pairwise_cons.mp hclock).1 later hlater
  · intro d key v now hkey
    constructor
    · intro hv
      simp [Store.incr, hkey, hv, Store.incrFresh]
    · intro hv
      simp only [Store.incr, hkey, hv, Bool.false_eq_true, if_false]
      rcases Store.incrValue_cases d key v with ⟨n, hvalue⟩ | hvalue
      · rw [hvalue]
        exact ⟨_, Store.put_same d key _⟩
      · rw [hvalue]
        exact ⟨v.value, hkey⟩

/-- {lit}`SET a 5 PX 1`, and {lit}`INCR a` once before and once behind the
deadline. -/
def expiringRun : List (Command × Reading) :=
  [(⟨.set, ascii "SET", [ascii "a", ascii "5", ascii "PX", ascii "1"]⟩, ⟨0, 0⟩),
    (⟨.incr, ascii "INCR", [ascii "a"]⟩, ⟨1000000, 0⟩),
    (⟨.incr, ascii "INCR", [ascii "a"]⟩, ⟨1000001, 0⟩)]

/-- The first {lit}`INCR` counts on, the second one starts afresh. -/
theorem expired_keys_invisible_incr :
    lazyOutcomes Store.empty expiringRun = referenceOutcomes Store.empty expiringRun ∧
      referenceOutcomes Store.empty expiringRun =
        [.ok (.answer ⟨some (ascii "a"), none, false, ascii "+OK\r\n"⟩),
          .ok (.answer ⟨some (ascii "a"), none, false, ascii ":6\r\n"⟩),
          .ok (.answer ⟨some (ascii "a"), none, false, ascii ":1\r\n"⟩)] :=
  ⟨(expired_keys_invisible (by decide) (by decide)).1, by decide +kernel⟩

end RedisClone
