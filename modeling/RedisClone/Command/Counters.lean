import RedisClone.Command.Numbers
import RedisClone.Command.KeyspaceTypes

/-!
# Counters

{lit}`INCR` reads a counter from the text of a string value and writes it back.  The
accepted texts are the decimal literals up to 2^63 - 2, the text written is the
canonical numeral of the next number, and both meet: a counter that was written is read
back, up to the last {lit}`long long`, at which it stops.

Main results:

- Theorem {lit}`incrExecute_literal` and {lit}`incrExecute_other`: one {lit}`INCR`.
- Theorem {lit}`incrAll_replies`: consecutive {lit}`INCR`s count up to 2^63 - 1 and fail
  from then on.
- Theorem {lit}`incr_exact`: {lit}`INCR` is exact 64-bit increment.
-/

namespace RedisClone

/-- The texts that {lit}`INCR` accepts, with the number they denote. -/
def CounterText (text : Bytes) (z : Int) : Prop :=
  DecimalLine text z ∧ longLongMin ≤ z ∧ z ≤ longLongMax - 1

/-- The answer of an {lit}`INCR` that succeeds. -/
def incremented (key : Bytes) (n : Int) : Outcome :=
  .answer ⟨some key, none, false, integerReply n⟩

/-- {lit}`INCR` commands one after the other, each at its own clock reading: the table
behind them and the outcomes. -/
def incrAll (cmd : Command) : List Reading → Store → Store × List (Except Exception Outcome)
  | [], d => (d, [])
  | now :: nows, d =>
      ((incrAll cmd nows (incrExecute cmd now d).1).1,
        (incrExecute cmd now d).2 :: (incrAll cmd nows (incrExecute cmd now d).1).2)

section Incr

variable {cmd : Command} {now : Reading} {d : Store} {str : Bytes} {expiresAt : Option Int} {z : Int}

/-- {lit}`INCR` on a live string. -/
theorem incrExecute_live (hargs : 1 ≤ cmd.args.length)
    (hv : d (cmd.arg 0) = some ⟨.string str, expiresAt⟩)
    (hlive : (StoreValue.mk (.string str) expiresAt).expired now.steady = false) :
    incrExecute cmd now d =
      match d.incrValue (cmd.arg 0) ⟨.string str, expiresAt⟩ with
      | (d', .ok n) => (d', .ok (incremented (cmd.arg 0) n))
      | (d', .error error) => (d', .ok (.reply error)) := by
  unfold incrExecute
  rw [checked_of_le hargs]
  simp only [Store.incr, hv, hlive, Bool.false_eq_true, if_false]
  rfl

/-- The text of a counter is replaced by the numeral of the next number. -/
theorem incrExecute_literal (hargs : 1 ≤ cmd.args.length)
    (hv : d (cmd.arg 0) = some ⟨.string str, expiresAt⟩)
    (hlive : (StoreValue.mk (.string str) expiresAt).expired now.steady = false)
    (hz : CounterText str z) :
    incrExecute cmd now d =
      (d.put (cmd.arg 0) ⟨.string (Decimal.renderInt (z + 1)), expiresAt⟩,
        .ok (incremented (cmd.arg 0) (z + 1))) := by
  have hread : fromCharsLongLong str = some (z, []) :=
    (fromChars_eq_some_nil_iff (by decide)).mpr ⟨hz.1, hz.2.1, by
      have hle := hz.2.2
      omega⟩
  have hmax : z ≠ longLongMax := by
    have hle := hz.2.2
    omega
  rw [incrExecute_live hargs hv hlive]
  simp [Store.incrValue, hread, hmax]

/-- Any other text is refused, and nothing changes. -/
theorem incrExecute_other (hargs : 1 ≤ cmd.args.length)
    (hv : d (cmd.arg 0) = some ⟨.string str, expiresAt⟩)
    (hlive : (StoreValue.mk (.string str) expiresAt).expired now.steady = false)
    (hother : ¬ ∃ z, CounterText str z) :
    incrExecute cmd now d = (d, .ok (.reply Store.notAnInteger)) := by
  rw [incrExecute_live hargs hv hlive]
  have hrefused : d.incrValue (cmd.arg 0) ⟨.string str, expiresAt⟩ =
      (d, .error Store.notAnInteger) := by
    unfold Store.incrValue
    simp only
    split
    · rename_i n hread
      split
      · rfl
      · rename_i hmax
        rcases (fromChars_eq_some_nil_iff (by decide)).mp hread with ⟨hliteral, hlo, hhi⟩
        exact absurd ⟨n, hliteral, hlo, by omega⟩ hother
    · rfl
  rw [hrefused]

/-- A literal beyond the last counter is no counter. -/
theorem not_counterText_of_large (hz : DecimalLine str z) (hlarge : longLongMax - 1 < z) :
    ¬ ∃ z', CounterText str z' := by
  rintro ⟨z', hliteral, hlo, hhi⟩
  -- read with bounds that admit both numbers, the text has one value
  have hbound : ∀ {k}, DecimalLine str k → longLongMin ≤ k → k ≤ max z z' →
      fromChars longLongMin (max z z') str = some (k, []) := fun hk hlo hhi =>
    (fromChars_eq_some_nil_iff (by decide)).mpr ⟨hk, hlo, hhi⟩
  have hread := hbound hz (by unfold longLongMax at hlarge; unfold longLongMin; omega)
    (le_max_left _ _)
  rw [hbound hliteral hlo (le_max_right _ _)] at hread
  simp only [Option.some.injEq, Prod.mk.injEq, and_true] at hread
  omega

/-- Consecutive {lit}`INCR`s on a live counter: the number of each is one more than that of
the one before, up to 2^63 - 1, and from then on all fail. -/
theorem incrAll_replies (hargs : 1 ≤ cmd.args.length) {nows : List Reading}
    (hv : d (cmd.arg 0) = some ⟨.string str, expiresAt⟩)
    (hlive : ∀ now ∈ nows, (StoreValue.mk (.string str) expiresAt).expired now.steady = false)
    (hz : DecimalLine str z) (hlo : longLongMin ≤ z) :
    (incrAll cmd nows d).2 = (List.range nows.length).map fun i =>
      .ok (if z + i ≤ longLongMax - 1 then incremented (cmd.arg 0) (z + i + 1)
        else .reply Store.notAnInteger) := by
  induction nows generalizing d str z with
  | nil => rfl
  | cons now nows ih =>
      have hfirst := hlive now List.mem_cons_self
      have hlater : ∀ now' ∈ nows, (StoreValue.mk (.string str) expiresAt).expired now'.steady =
          false := fun now' hmem => hlive now' (List.mem_cons_of_mem _ hmem)
      rw [List.length_cons, List.range_succ_eq_map, List.map_cons, List.map_map]
      by_cases hend : z ≤ longLongMax - 1
      · have hstep := @incrExecute_literal cmd now d str expiresAt z hargs hv hfirst ⟨hz, hlo, hend⟩
        have hrest := @ih (d.put (cmd.arg 0) ⟨.string (Decimal.renderInt (z + 1)), expiresAt⟩)
          (Decimal.renderInt (z + 1)) (z + 1) (Store.put_same _ _ _) hlater
          (decimalLine_renderInt (z + 1)) (by omega)
        simp only [incrAll, hstep, hrest, Function.comp_def]
        congr 1
        · simp [hend]
        · refine List.map_congr_left fun i _ => ?_
          have hadd : z + 1 + (i : Int) = z + (i.succ : Nat) := by
            push_cast
            omega
          rw [hadd]
      · have hstep := @incrExecute_other cmd now d str expiresAt hargs hv hfirst
          (not_counterText_of_large hz (by omega))
        have hrest := @ih d str z hv hlater hz hlo
        simp only [incrAll, hstep, hrest, Function.comp_def]
        congr 1
        · simp [hend]
        · refine List.map_congr_left fun i _ => ?_
          rw [if_neg (by omega), if_neg (by push_cast; omega)]

/-- {lit}`INCR` is exact 64-bit increment.  On a live string it succeeds exactly if the text
is a decimal literal from -2^63 to 2^63 - 2; it replies the next number and stores its
canonical numeral, which {lit}`GET` returns and which is the text of a counter again, and
the deadline stays.  On any other text it replies an error and changes nothing.
Consecutive {lit}`INCR`s reply one number after the other up to 2^63 - 1, and all later
ones fail. -/
theorem incr_exact (hargs : 1 ≤ cmd.args.length)
    (hv : d (cmd.arg 0) = some ⟨.string str, expiresAt⟩)
    (hlive : (StoreValue.mk (.string str) expiresAt).expired now.steady = false) :
    (∀ z, CounterText str z →
      incrExecute cmd now d =
        (d.put (cmd.arg 0) ⟨.string (Decimal.renderInt (z + 1)), expiresAt⟩,
          .ok (incremented (cmd.arg 0) (z + 1))) ∧
      DecimalLine (Decimal.renderInt (z + 1)) (z + 1) ∧
      ∀ later : Int, (StoreValue.mk (.string str) expiresAt).expired later = false →
        ((incrExecute cmd now d).1.get (cmd.arg 0) later).2 =
          .ok (Decimal.renderInt (z + 1))) ∧
    ((¬ ∃ z, CounterText str z) →
      incrExecute cmd now d = (d, .ok (.reply Store.notAnInteger))) ∧
    ∀ z nows, DecimalLine str z → longLongMin ≤ z →
      (∀ now ∈ nows, (StoreValue.mk (.string str) expiresAt).expired now.steady = false) →
      (incrAll cmd nows d).2 = (List.range nows.length).map fun i =>
        .ok (if z + i ≤ longLongMax - 1 then incremented (cmd.arg 0) (z + i + 1)
          else .reply Store.notAnInteger) := by
  refine ⟨fun z hz => ?_, incrExecute_other hargs hv hlive, fun z nows hz hlo hlives =>
    incrAll_replies hargs hv hlives hz hlo⟩
  have hstep := incrExecute_literal hargs hv hlive hz
  refine ⟨hstep, decimalLine_renderInt (z + 1), fun later hlater => ?_⟩
  have hlater' : (StoreValue.mk (.string (Decimal.renderInt (z + 1))) expiresAt).expired later =
      false := hlater
  rw [hstep]
  simp [Store.get, hlater']

end Incr

/-- A counter two steps before its end: it counts twice, and then fails twice. -/
theorem incr_exact_end :
    (incrAll ⟨.incr, ascii "INCR", [ascii "k"]⟩ (List.replicate 4 ⟨0, 0⟩)
      (Store.empty.put (ascii "k") ⟨.string (ascii "09223372036854775805"), some 7⟩)).2 =
      [.ok (incremented (ascii "k") 9223372036854775806),
        .ok (incremented (ascii "k") 9223372036854775807),
        .ok (.reply Store.notAnInteger), .ok (.reply Store.notAnInteger)] := by
  have hliteral : DecimalLine (ascii "09223372036854775805") 9223372036854775805 :=
    ⟨false, ascii "09223372036854775805", rfl, by decide, by decide +kernel, by decide +kernel⟩
  rw [(@incr_exact ⟨.incr, ascii "INCR", [ascii "k"]⟩ ⟨0, 0⟩
    (Store.empty.put (ascii "k") ⟨.string (ascii "09223372036854775805"), some 7⟩)
    (ascii "09223372036854775805") (some 7) (by decide) (Store.put_same _ _ _) (by decide)).2.2
    9223372036854775805 (List.replicate 4 ⟨0, 0⟩) hliteral (by decide)
    (fun now hmem => by rw [List.eq_of_mem_replicate hmem]; decide)]
  decide

end RedisClone
