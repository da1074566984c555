import RedisClone.Command.Numbers
import RedisClone.Command.ListMovements

/-!
# List commands with indices and counts

{lit}`LRANGE` takes two indices of the full {lit}`long long` range, and {lit}`LPOP` an
optional count.  The indices are normalised against the size of the list without any
sum leaving the range, and the iterators stay inside the list.  The count is read by
{lit}`std::stoull`, which wraps a negative number to a huge one: such a count takes the
whole list instead of being refused.

Main results:

- Theorem {lit}`elementsBetween_eq`: a slice of a list by its positions.
- Theorem {lit}`lrange_slices`: {lit}`LRANGE` is Redis slicing for all indices.
- Theorem {lit}`lpop_count_iff`: {lit}`LPOP` with a count does what it should exactly if
  the count is not negative.
- Theorem {lit}`lpop_negative_count`: a negative count takes the whole list.
-/

namespace RedisClone

/-! ## Slices -/

/-- The elements at the positions between two bounds, in order. -/
def elementsBetween (elements : List Bytes) (first last : Int) : List Bytes :=
  (elements.zipIdx.filter fun (_, i) => first ≤ i ∧ i ≤ last).map Prod.fst

/-- An index of Redis: a negative one counts from the end. -/
def fromEnd (size index : Int) : Int :=
  if index < 0 then index + size else index

/-- The elements at positions between two bounds, counted from an offset. -/
theorem map_filter_zipIdx (elements : List Bytes) (offset first next : Nat) :
    ((elements.zipIdx offset).filter fun (_, i) => first ≤ i ∧ i < next).map Prod.fst =
      (elements.take (next - offset)).drop (first - offset) := by
  induction elements generalizing offset with
  | nil => simp
  | cons element elements ih =>
      rw [List.zipIdx_cons, List.filter_cons]
      by_cases hin : first ≤ offset ∧ offset < next
      · have hfirst : first - offset = 0 := by omega
        have hfirst' : first - (offset + 1) = 0 := by omega
        have hnext : next - offset = next - (offset + 1) + 1 := by omega
        simp only [hin, and_self, decide_true, if_true, List.map_cons, ih, hfirst, hfirst', hnext,
          List.take_succ_cons, List.drop_zero]
      · simp only [hin, decide_false, Bool.false_eq_true, if_false, ih]
        by_cases hlow : first ≤ offset
        · have hnext : next - offset = 0 := by omega
          have hnext' : next - (offset + 1) = 0 := by omega
          simp [hnext, hnext']
        · have hfirst : first - offset = first - (offset + 1) + 1 := by omega
          cases hnext : next - offset with
          | zero =>
              have hnext' : next - (offset + 1) = 0 := by omega
              simp [hnext']
          | succ n =>
              have hnext' : next - (offset + 1) = n := by omega
              simp [hfirst, hnext']

/-- A slice between two positions of the list. -/
theorem elementsBetween_eq (elements : List Bytes) {first last : Int} (hfirst : 0 ≤ first)
    (hlast : 0 ≤ last) :
    elementsBetween elements first last =
      (elements.take (last + 1).toNat).drop first.toNat := by
  have hslice := map_filter_zipIdx elements 0 first.toNat (last + 1).toNat
  rw [Nat.sub_zero, Nat.sub_zero] at hslice
  rw [← hslice]
  unfold elementsBetween
  congr 2
  funext pair
  rcases pair with ⟨element, i⟩
  simp only [decide_eq_decide]
  omega

/-- Between bounds that no position of the list meets there is nothing. -/
theorem elementsBetween_eq_nil {elements : List Bytes} {first last : Int}
    (h : ∀ i : Nat, i < elements.length → ¬ (first ≤ i ∧ i ≤ last)) :
    elementsBetween elements first last = [] := by
  unfold elementsBetween
  rw [List.map_eq_nil_iff, List.filter_eq_nil_iff]
  rintro ⟨element, i⟩ hmem
  have hlt := List.snd_lt_of_mem_zipIdx hmem
  simpa using h i (by omega)

/-! ## {lit}`LRANGE` -/

/-- The indices that {lit}`resolve_list_indices` resolves, once no sum overflows: the
bounds of a slice inside the list. -/
theorem resolveListIndices_eq {start stop size : Int}
    (hstart : start < 0 → FitsLongLong (start + size))
    (hstop : stop < 0 → FitsLongLong (stop + size)) :
    Store.resolveListIndices start stop size =
      if max 0 (fromEnd size start) ≥ size ∨ max 0 (fromEnd size start) > fromEnd size stop then
        none
      else some (max 0 (fromEnd size start), min (fromEnd size stop) (size - 1)) := by
  have hfirst : (if start < 0 then max 0 (wrapLongLong (start + size)) else start) =
      max 0 (fromEnd size start) := by
    unfold fromEnd
    split
    · rename_i hneg
      rw [wrapLongLong_eq_self (hstart hneg)]
    · omega
  have hlast : (if stop < 0 then wrapLongLong (stop + size) else stop) = fromEnd size stop := by
    unfold fromEnd
    split
    · rename_i hneg
      rw [wrapLongLong_eq_self (hstop hneg)]
    · rfl
  unfold Store.resolveListIndices
  simp only [hfirst, hlast]

/-- A negative index and a size have a sum that is a {lit}`long long`. -/
theorem fitsLongLong_add_size {index size : Int} (hindex : FitsLongLong index) (hneg : index < 0)
    (hsize : 0 ≤ size ∧ size ≤ longLongMax) : FitsLongLong (index + size) := by
  unfold FitsLongLong longLongMin longLongMax at *
  omega

/-- {lit}`LRANGE` is Redis slicing: for a list of any size that a {lit}`std::deque` can have
and all {lit}`long long` indices, it returns in order the elements at the positions from the
start to the stop, where a negative index counts from the end, the start is clamped to 0
and the stop to the last position.  No sum leaves the range of {lit}`long long`, and the
iterators stay between the begin and the end of the list. -/
theorem lrange_slices {d : Store} {key : Bytes} {elements : List Bytes} {expiresAt : Option Int}
    (hv : d key = some ⟨.list elements, expiresAt⟩)
    (hsize : (elements.length : Int) ≤ longLongMax) {start stop : Int}
    (hstart : FitsLongLong start) (hstop : FitsLongLong stop) :
    d.lrange key start stop =
        elementsBetween elements (max 0 (fromEnd elements.length start))
          (min (fromEnd elements.length stop) (elements.length - 1)) ∧
      (start < 0 → FitsLongLong (start + elements.length)) ∧
      (stop < 0 → FitsLongLong (stop + elements.length)) ∧
      FitsLongLong (elements.length - 1) ∧
      (∀ first last, Store.resolveListIndices start stop elements.length = some (first, last) →
        0 ≤ first ∧ first ≤ last ∧ last + 1 ≤ elements.length) ∧
      d.lrange key 0 (-1) = elements := by
  have hbounds : (0 : Int) ≤ elements.length ∧ (elements.length : Int) ≤ longLongMax :=
    ⟨Int.natCast_nonneg _, hsize⟩
  have hslice : ∀ {start stop : Int}, FitsLongLong start → FitsLongLong stop →
      d.lrange key start stop = elementsBetween elements (max 0 (fromEnd elements.length start))
        (min (fromEnd elements.length stop) (elements.length - 1)) := by
    intro start stop hstart hstop
    have hresolve := @resolveListIndices_eq start stop elements.length
      (fun hneg => fitsLongLong_add_size hstart hneg hbounds)
      (fun hneg => fitsLongLong_add_size hstop hneg hbounds)
    simp only [Store.lrange, hv, hresolve]
    by_cases hempty : max 0 (fromEnd elements.length start) ≥ elements.length ∨
        max 0 (fromEnd elements.length start) > fromEnd elements.length stop
    · rw [if_pos hempty]
      exact (elementsBetween_eq_nil fun i hi => by omega).symm
    · rw [if_neg hempty]
      exact (elementsBetween_eq elements (by omega) (by omega)).symm
  refine ⟨hslice hstart hstop, fun hneg => fitsLongLong_add_size hstart hneg hbounds,
    fun hneg => fitsLongLong_add_size hstop hneg hbounds, ?_,
    fun first last hrange => Store.resolveListIndices_bounds hrange, ?_⟩
  · unfold FitsLongLong longLongMin longLongMax at *
    omega
  · rw [hslice (by decide) (by decide)]
    cases elements with
    | nil => rfl
    | cons element elements =>
        have hlast : fromEnd ((element :: elements).length : Int) (-1) = elements.length := by
          simp [fromEnd]
        have hfirst : max 0 (fromEnd ((element :: elements).length : Int) 0) = 0 := by
          simp [fromEnd]
        rw [hlast, hfirst, elementsBetween_eq _ (by omega) (by simp)]
        simp

/-- The last two of three elements, and an index far below the list. -/
theorem lrange_slices_sample :
    Store.lrange (Store.empty.put (ascii "k") ⟨.list [[1], [2], [3]], none⟩) (ascii "k") (-2)
        longLongMax = elementsBetween [[1], [2], [3]] 1 2 ∧
      Store.lrange (Store.empty.put (ascii "k") ⟨.list [[1], [2], [3]], none⟩) (ascii "k")
        longLongMin (-3) = elementsBetween [[1], [2], [3]] 0 0 := by
  have hv : (Store.empty.put (ascii "k") ⟨.list [[1], [2], [3]], none⟩) (ascii "k") =
      some ⟨.list [[1], [2], [3]], none⟩ := Store.put_same _ _ _
  exact ⟨(lrange_slices hv (by decide) (by decide) (by decide)).1,
    (lrange_slices hv (by decide) (by decide) (by decide)).1⟩

/-! ## {lit}`LPOP` with a count -/

/-- What {lit}`LPOP` with a count is to do with a list: a count that is not negative takes
that many elements from the front, or all there are, and erases a list of which nothing is
left; a negative count is an error, and the list stays. -/
structure PopsCount (key : Bytes) (n : Int) (elements : List Bytes) (d : Store)
    (result : CommandResult) : Prop where
  takes : 0 ≤ n → ∃ notify, result.2 = .ok (.answer
    ⟨notify, none, false, bulkArray (elements.take (min n.toNat elements.length))⟩)
  leaves : 0 ≤ n → result.1.listAt key = elements.drop n.toNat ∧
    (result.1 key = none ↔ elements.drop n.toNat = []) ∧
    ∀ key', key' ≠ key → result.1 key' = d key'
  refuses : n < 0 → (∃ notify text,
    result.2 = .ok (.answer ⟨notify, none, false, ascii "-" ++ text⟩)) ∧ result.1 = d

/-- An array reply is not an error. -/
theorem bulkArray_ne_error (values : List Bytes) (text : Bytes) :
    bulkArray values ≠ ascii "-" ++ text := by
  intro heq
  have hhead := congrArg List.head? heq
  simp [bulkArray, arrayHeader, ascii] at hhead

section Lpop

variable {cmd : Command} {now : Reading} {d : Store} {elements : List Bytes}
  {expiresAt : Option Int} {n : Int}

/-- {lit}`LPOP` with a count pops as many elements as {lit}`std::stoull` reads. -/
theorem lpopExecute_count (hargs : 2 ≤ cmd.args.length) (hcount : DecimalLine (cmd.arg 1) n)
    (hn : n.natAbs < sizeTModulus) (hv : d (cmd.arg 0) = some ⟨.list elements, expiresAt⟩) :
    lpopExecute cmd now d =
      ((d.lpop (cmd.arg 0) (n % sizeTModulus).toNat).1,
        .ok (.answer ⟨some (cmd.arg 0), none, false,
          bulkArray (elements.take (min (n % sizeTModulus).toNat elements.length))⟩)) := by
  have hread : lpopCount cmd = .ok (n % sizeTModulus).toNat := by
    unfold lpopCount
    rw [if_pos hargs, hcount.stoull_eq hn]
  have hreply : ∀ values, lpopReply cmd values = .ok (bulkArray values) := by
    intro values
    unfold lpopReply
    rw [if_neg (by omega)]
  unfold lpopExecute
  rw [checked_of_le (by omega)]
  simp only [hread, Store.lpop, hv, hreply]
  rfl

/-- {lit}`LPOP` with a count does what it is to do exactly if the count is not negative.
The count is any decimal literal of absolute value below 2^63. -/
theorem lpop_count_iff (hargs : 2 ≤ cmd.args.length) (hcount : DecimalLine (cmd.arg 1) n)
    (hn : n.natAbs < 9223372036854775808)
    (hv : d (cmd.arg 0) = some ⟨.list elements, expiresAt⟩) :
    PopsCount (cmd.arg 0) n elements d (lpopExecute cmd now d) ↔ 0 ≤ n := by
  have hmodulus : n.natAbs < sizeTModulus := hn.trans (by decide)
  rw [@lpopExecute_count cmd now d elements expiresAt n hargs hcount hmodulus hv]
  constructor
  · intro h
    by_contra hneg
    rcases h.refuses (by omega) with ⟨⟨notify, text, hreply⟩, -⟩
    -- the reply is an array and not an error
    simp only [Except.ok.injEq, Outcome.answer.injEq, Answer.mk.injEq] at hreply
    exact bulkArray_ne_error _ text hreply.2.2.2
  · intro hpos
    have hread : (n % sizeTModulus).toNat = n.toNat := by
      unfold sizeTModulus
      omega
    have hdrop : elements.drop (min n.toNat elements.length) = elements.drop n.toNat := by
      rcases Nat.le_total n.toNat elements.length with hle | hle
      · rw [Nat.min_eq_left hle]
      · rw [Nat.min_eq_right hle, List.drop_of_length_le hle, List.drop_length]
    rw [hread]
    refine ⟨fun _ => ⟨_, rfl⟩, fun _ => ?_, fun hneg => by omega⟩
    simp only [Store.lpop, hv, hdrop]
    by_cases hempty : elements.drop n.toNat = []
    · rw [if_pos hempty]
      refine ⟨?_, by simp [hempty], fun key' hkey' => Store.erase_of_ne hkey' d⟩
      simp [Store.listAt, hempty]
    · rw [if_neg hempty]
      refine ⟨?_, by simp [hempty], fun key' hkey' => Store.put_of_ne hkey' d _⟩
      simp [Store.listAt]

end Lpop

/-- {lit}`LPOP k 2`. -/
def popTwo : Command :=
  ⟨.lpop, ascii "LPOP", [ascii "k", ascii "2"]⟩

/-- Two of three elements. -/
theorem lpop_count_iff_two :
    PopsCount (ascii "k") 2 [[1], [2], [3]]
      (Store.empty.put (ascii "k") ⟨.list [[1], [2], [3]], none⟩)
      (lpopExecute popTwo ⟨0, 0⟩ (Store.empty.put (ascii "k") ⟨.list [[1], [2], [3]], none⟩)) := by
  have hcount : DecimalLine (popTwo.arg 1) 2 :=
    ⟨false, ascii "2", rfl, by decide, by decide +kernel, by decide +kernel⟩
  exact (@lpop_count_iff popTwo ⟨0, 0⟩ _ [[1], [2], [3]] none 2 (by decide) hcount (by decide)
    (Store.put_same _ _ _)).mpr (by decide)

/-- {lit}`LPOP k -1` takes the whole list and erases the key. -/
theorem lpop_negative_count :
    (lpopExecute ⟨.lpop, ascii "LPOP", [ascii "k", ascii "-1"]⟩ ⟨0, 0⟩
      (Store.empty.put (ascii "k") ⟨.list [[1], [2], [3]], none⟩)).2 =
        .ok (.answer ⟨some (ascii "k"), none, false, bulkArray [[1], [2], [3]]⟩) ∧
    (lpopExecute ⟨.lpop, ascii "LPOP", [ascii "k", ascii "-1"]⟩ ⟨0, 0⟩
      (Store.empty.put (ascii "k") ⟨.list [[1], [2], [3]], none⟩)).1 (ascii "k") = none := by
  decide +kernel

end RedisClone
