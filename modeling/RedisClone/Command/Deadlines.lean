import RedisClone.Command.Numbers
import RedisClone.Command.KeyspaceTypes

/-!
# Deadlines

{lit}`SET` with {lit}`EX` or {lit}`PX` stores a deadline on the steady clock.  Seconds are
multiplied to milliseconds, milliseconds are converted to the nanoseconds of the clock,
and the reading of the clock is added, all in {lit}`long long`.  The only check looks at
the sign of the milliseconds.  A time to live that does not fit wraps around: it is
refused only if the milliseconds happen to wrap to a number that is not positive, and
otherwise the key gets a wrong deadline, in the worst case one that has passed.

Main results:

- Theorem {lit}`asksFor_literal` and {lit}`parseExpiry_option`: the first expiry option
  decides.
- Theorem {lit}`setExecute_expiry`: what {lit}`SET` makes of a time to live.
- Theorem {lit}`set_deadline_iff`: when the deadline is exact, or the command refused.
- Theorem {lit}`set_deadline_wraps`: a key that has expired when it is set.
-/

namespace RedisClone

/-! ## Options -/

/-- The milliseconds of an expiry option with its number. -/
def optionMillis (option : Bytes) (n : Int) : Option Int :=
  if lowercase option = ascii "ex" then some (n * 1000)
  else if lowercase option = ascii "px" then some n
  else none

/-- Options and their values, one after the other. -/
def optionTexts (options : List (Bytes × Bytes)) : List Bytes :=
  options.flatMap fun option => [option.1, option.2]

/-- {lit}`SET key value` with options of which the first expiry option has the given number:
the milliseconds that it asks for. -/
def AsksFor (cmd : Command) (ms : Int) : Prop :=
  ∃ key value option text n before rest,
    cmd.args = key :: value :: (optionTexts before ++ option :: text :: rest) ∧
    (∀ earlier ∈ before, optionMillis earlier.1 n = none) ∧
    stoll text = .ok n ∧ 0 < n ∧ optionMillis option n = some ms

/-- A positive literal behind an expiry option asks for its number. -/
theorem asksFor_literal {cmd : Command} {key value option text : Bytes} {n ms : Int}
    {before : List (Bytes × Bytes)} {rest : List Bytes}
    (hargs : cmd.args = key :: value :: (optionTexts before ++ option :: text :: rest))
    (hbefore : ∀ earlier ∈ before, optionMillis earlier.1 n = none) (htext : DecimalLine text n)
    (hn : FitsLongLong n) (hpos : 0 < n) (hoption : optionMillis option n = some ms) :
    AsksFor cmd ms :=
  ⟨key, value, option, text, n, before, rest, hargs, hbefore, htext.stoll_eq hn, hpos, hoption⟩

/-- The first expiry option decides; seconds are multiplied in {lit}`long long`. -/
theorem parseExpiry_option {before : List (Bytes × Bytes)} {option text : Bytes}
    {rest : List Bytes} {n ms : Int} (hbefore : ∀ earlier ∈ before, optionMillis earlier.1 n = none)
    (htext : stoll text = .ok n) (hn : FitsLongLong n) (hoption : optionMillis option n = some ms) :
    parseExpiry (optionTexts before ++ option :: text :: rest) = .ok (some (wrapLongLong ms)) := by
  induction before with
  | nil =>
      unfold optionMillis at hoption
      simp only [optionTexts, List.flatMap_nil, List.nil_append, parseExpiry, htext]
      split_ifs at hoption ⊢ with hseconds hmillis
      · cases hoption
        rfl
      · cases hoption
        rw [wrapLongLong_eq_self hn]
        rfl
  | cons earlier before ih =>
      have hnone := hbefore earlier List.mem_cons_self
      unfold optionMillis at hnone
      split_ifs at hnone with hseconds hmillis
      have hlater := ih fun other hmem => hbefore other (List.mem_cons_of_mem _ hmem)
      simp only [optionTexts, List.flatMap_cons, List.cons_append, List.nil_append] at hlater ⊢
      rw [parseExpiry, if_neg hseconds, if_neg hmillis]
      exact hlater

/-- What {lit}`std::stoll` returns is a {lit}`long long`. -/
theorem fitsLongLong_of_stoll {text : Bytes} {n : Int} (h : stoll text = .ok n) :
    FitsLongLong n := by
  unfold stoll at h
  split at h
  · contradiction
  · split at h
    · rename_i hbounds
      cases h
      exact hbounds
    · contradiction

/-! ## The deadline -/

section Set

variable {cmd : Command} {ms : Int} {now : Reading} {d : Store}

/-- The deadline that {lit}`SET` is to store: the reading of the clock and the time to live,
in nanoseconds. -/
def deadline (now ms : Int) : Int :=
  now + ms * 1000000

/-- The reply to a time to live that is not positive. -/
def invalidExpire : Bytes :=
  ascii "-ERR invalid expire time in 'SET' command\r\n"

/-- {lit}`SET` with a time to live. -/
theorem setExecute_expiry (h : AsksFor cmd ms) :
    setExecute cmd now d =
      if wrapLongLong ms ≤ 0 then (d, .ok (.reply invalidExpire))
      else
        (d.put (cmd.arg 0) ⟨.string (cmd.arg 1),
            some (wrapLongLong (now.steady + wrapLongLong (wrapLongLong ms * 1000000)))⟩,
          .ok (.answer ⟨some (cmd.arg 0), none, false, ascii "+OK\r\n"⟩)) := by
  rcases h with
    ⟨key, value, option, text, n, before, rest, hargs, hbefore, htext, -, hoption⟩
  have hexpiry : parseExpiry (cmd.args.drop 2) = .ok (some (wrapLongLong ms)) := by
    rw [hargs]
    exact parseExpiry_option hbefore htext (fitsLongLong_of_stoll htext) hoption
  unfold setExecute
  rw [checked_of_le (by rw [hargs]; simp), hexpiry]
  rfl

/-- What {lit}`SET` with a time to live is to do: if it answers {lit}`+OK`, the product, the
conversion and the sum did not overflow, the deadline is exact, and the key is readable up
to it; and a time to live that cannot be represented is refused, with the old value kept. -/
structure ExactExpiry (cmd : Command) (ms now : Int) (d : Store) (result : CommandResult) :
    Prop where
  exact : (∃ notify, result.2 = .ok (.answer ⟨notify, none, false, ascii "+OK\r\n"⟩)) →
    FitsLongLong ms ∧ FitsLongLong (ms * 1000000) ∧ FitsLongLong (deadline now ms) ∧
    result.1 (cmd.arg 0) = some ⟨.string (cmd.arg 1), some (deadline now ms)⟩ ∧
    ∀ later, later ≤ deadline now ms →
      (result.1.get (cmd.arg 0) later).2 = .ok (cmd.arg 1)
  refused : ¬ FitsLongLong (deadline now ms) →
    ∃ text, result = (d, .ok (.reply (ascii "-ERR" ++ text)))

/-- The milliseconds asked for are positive. -/
theorem AsksFor.pos (h : AsksFor cmd ms) : 0 < ms := by
  rcases h with ⟨_, _, option, _, n, _, _, -, -, -, hn, hoption⟩
  unfold optionMillis at hoption
  split_ifs at hoption <;> cases hoption <;> omega

/-- A deadline that fits leaves no overflow on the way to it. -/
theorem fitsLongLong_of_deadline {now : Int} (hnow : 0 ≤ now) (hms : 0 < ms)
    (hfits : FitsLongLong (deadline now ms)) :
    FitsLongLong ms ∧ FitsLongLong (ms * 1000000) := by
  unfold deadline at hfits
  unfold FitsLongLong longLongMin longLongMax at *
  constructor <;> constructor <;> omega

/-- {lit}`SET` with {lit}`EX` or {lit}`PX` does what it is to do exactly if the deadline fits into
the 64-bit nanoseconds of the clock, or the milliseconds wrap to a number that is not
positive. -/
theorem set_deadline_iff (h : AsksFor cmd ms) (hnow : 0 ≤ now.steady) :
    ExactExpiry cmd ms now.steady d (setExecute cmd now d) ↔
      deadline now.steady ms ≤ longLongMax ∨ wrapLongLong ms ≤ 0 := by
  have hpos := h.pos
  rw [setExecute_expiry h]
  by_cases hfits : FitsLongLong (deadline now.steady ms)
  · -- nothing overflows
    rcases fitsLongLong_of_deadline hnow hpos hfits with ⟨hms, hns⟩
    have hdeadline : wrapLongLong (now.steady + wrapLongLong (wrapLongLong ms * 1000000)) =
        deadline now.steady ms := by
      rw [wrapLongLong_eq_self hms, wrapLongLong_eq_self hns]
      exact wrapLongLong_eq_self hfits
    rw [wrapLongLong_eq_self hms, if_neg (by omega)]
    rw [wrapLongLong_eq_self hms] at hdeadline
    rw [hdeadline]
    refine ⟨fun _ => .inl hfits.2, fun _ => ⟨fun _ => ⟨hms, hns, hfits, Store.put_same _ _ _, ?_⟩,
      fun hnot => absurd hfits hnot⟩⟩
    intro later hlater
    have hlive : ¬ deadline now.steady ms < later := by omega
    simp [Store.get, StoreValue.expired, hlive]
  · have hlarge : ¬ deadline now.steady ms ≤ longLongMax := by
      intro hle
      refine hfits ⟨?_, hle⟩
      unfold deadline longLongMin
      omega
    by_cases hwraps : wrapLongLong ms ≤ 0
    · rw [if_pos hwraps]
      refine ⟨fun _ => .inr hwraps, fun _ => ⟨?_, fun _ => ?_⟩⟩
      · rintro ⟨notify, hreply⟩
        simp only [Outcome.reply, Except.ok.injEq, Outcome.answer.injEq, Answer.mk.injEq] at hreply
        exact absurd hreply.2.2.2 (by decide)
      · exact ⟨ascii " invalid expire time in 'SET' command\r\n", rfl⟩
    · rw [if_neg hwraps]
      refine ⟨fun hexact => ?_, fun hor => ?_⟩
      · exact absurd (hexact.exact ⟨_, rfl⟩).2.2.1 hfits
      · exact absurd hor (by simp [hlarge, hwraps])

end Set

/-- {lit}`SET k v EX 10`. -/
def setTenSeconds : Command :=
  ⟨.set, ascii "SET", [ascii "k", ascii "v", ascii "EX", ascii "10"]⟩

/-- Ten seconds. -/
theorem set_deadline_iff_seconds :
    ExactExpiry setTenSeconds 10000 5 .empty (setExecute setTenSeconds ⟨5, 0⟩ .empty) := by
  have hliteral : DecimalLine (ascii "10") 10 :=
    ⟨false, ascii "10", rfl, by decide, by decide +kernel, by decide +kernel⟩
  have hasks : AsksFor setTenSeconds 10000 :=
    @asksFor_literal setTenSeconds (ascii "k") (ascii "v") (ascii "EX") (ascii "10") 10 10000 [] []
      rfl (by simp) hliteral (by decide) (by decide) (by decide)
  exact (@set_deadline_iff setTenSeconds 10000 ⟨5, 0⟩ .empty hasks (by decide)).mpr (by decide)

/-- {lit}`SET k v PX 9223372036854775807`. -/
def setForever : Command :=
  ⟨.set, ascii "SET", [ascii "k", ascii "v", ascii "PX", ascii "9223372036854775807"]⟩

/-- The longest time to live is answered with {lit}`+OK`, and the key has expired at once. -/
theorem set_deadline_wraps :
    (setExecute setForever ⟨5, 0⟩ .empty).2 =
        .ok (.answer ⟨some (ascii "k"), none, false, ascii "+OK\r\n"⟩) ∧
      (setExecute setForever ⟨5, 0⟩ .empty).1 (ascii "k") =
        some ⟨.string (ascii "v"), some (-999995)⟩ ∧
      ((setExecute setForever ⟨5, 0⟩ .empty).1.get (ascii "k") 5).2 =
        .error Store.keyNotFound := by
  decide +kernel

end RedisClone
