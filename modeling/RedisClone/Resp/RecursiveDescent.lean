import RedisClone.Resp.ParserLoop

/-!
# The parser as recursive descent

{lit}`RespParser::parse` keeps the arrays it is in on a stack of its own.  The reference
parser of this module has no stack: it reads one value by its type byte, and the
elements of an array by reading that many values, with positions that do not overflow.
Both read the same value and stop at the same place, as long as no array header asks for
a count below -1, at which the iterative parser throws, and no payload is so long that
its position overflows.

What was read is also all that matters: a parse does not depend on the bytes behind
the value, succeeds on the bytes of the value alone, and on fewer bytes waits for more.

Main results:

- Theorem {lit}`descend_cons` and {lit}`descendAll_succ`: the equations of recursive
  descent.
- Theorem {lit}`parseLoop_descend`: the loop continues behind the value that recursive
  descent reads.
- Theorem {lit}`parse_eq_descend_iff`: when the iterative parser is recursive descent.
- Theorem {lit}`parse_stable_iff`: a successful parse and its prefixes.
-/

namespace RedisClone

open RespValue

/-! ## The reference parser -/

/-- The value of an item that is complete by itself, and the text behind it, whether or
not its position overflows. -/
def Item.value? : Item → Option (RespValue × Bytes)
  | .value v rest => some (v, rest)
  | .overflowed v rest => some (v, rest)
  | _ => none

/-- One value that is not an array, by its type byte. -/
def readLeaf (type : UInt8) (text : Bytes) : Option (RespValue × Bytes) :=
  if type = 58 then (parseInteger text).value?
  else if type = 36 then (parseBulkString text).value?
  else if type = 43 then (parseSimpleString text).value?
  else none

/-- The count of an array header, and the text behind the header. -/
def readCount (text : Bytes) : Option (Int × Bytes) :=
  (readLine text).bind fun (line, rest) => (parseInt line).map fun count => (count, rest)

/-- A line leaves what follows it. -/
theorem length_le_of_parseLine {type : RespType} {text rest : Bytes} {v : RespValue}
    (h : (parseLine type text).value? = some (v, rest)) : rest.length ≤ text.length := by
  unfold parseLine at h
  split at h
  · contradiction
  · rename_i line tail hline
    have hlength := readLine_length hline
    cases h
    omega

/-- A bulk string leaves at most what follows its length line. -/
theorem length_le_of_parseBulkString {text rest : Bytes} {v : RespValue}
    (h : (parseBulkString text).value? = some (v, rest)) : rest.length ≤ text.length := by
  rcases parseBulkString_cases (rfl : parseBulkString text = _) with
    hfailed | ⟨line, tail, length, rfl, -, -, hcases⟩
  · rw [hfailed] at h
    contradiction
  · rcases hcases with ⟨-, heq⟩ | ⟨payload, terminator, rest', -, rfl, -, heq⟩
    · rw [heq] at h
      cases h
      simp only [List.length_append]
      omega
    · have hrest : rest' = rest := by
        rw [heq] at h
        split_ifs at h <;> cases h <;> rfl
      subst hrest
      simp only [List.length_append]
      omega

/-- A leaf never leaves more text than it was given. -/
theorem readLeaf_length_le {type : UInt8} {text rest : Bytes} {v : RespValue}
    (h : readLeaf type text = some (v, rest)) : rest.length ≤ text.length := by
  unfold readLeaf at h
  split_ifs at h
  · exact length_le_of_parseLine h
  · exact length_le_of_parseBulkString h
  · exact length_le_of_parseLine h

/-- A header never leaves more text than it was given. -/
theorem readCount_length_le {text rest : Bytes} {count : Int}
    (h : readCount text = some (count, rest)) : rest.length ≤ text.length := by
  rcases Option.bind_eq_some_iff.mp h with ⟨⟨line, tail⟩, hline, hcount⟩
  rcases Option.map_eq_some_iff.mp hcount with ⟨n, -, heq⟩
  cases heq
  have hlength := readLine_length hline
  omega

mutual

/-- Recursive descent: one value by its type byte, and for an array as many values as
its header says.  The result carries that the text behind the value is shorter, by which
the recursion ends. -/
def readValue (input : Bytes) :
    Option { result : RespValue × Bytes // result.2.length < input.length } :=
  match input with
  | [] => none
  | type :: text =>
      if type = 42 then
        match hcount : readCount text with
        | none => none
        | some (count, rest) =>
            if count < -1 then none
            else if count = -1 then
              some ⟨(.null, rest), Nat.lt_succ_of_le (readCount_length_le hcount)⟩
            else
              match readValues count.toNat rest with
              | none => none
              | some ⟨(elements, rest'), hrest'⟩ =>
                  some ⟨(.array elements, rest'),
                    Nat.lt_succ_of_le (hrest'.trans (readCount_length_le hcount))⟩
      else
        match hleaf : readLeaf type text with
        | none => none
        | some (v, rest) => some ⟨(v, rest), Nat.lt_succ_of_le (readLeaf_length_le hleaf)⟩
termination_by (input.length, 0)
decreasing_by
  exact Prod.Lex.left _ _ (Nat.lt_succ_of_le (readCount_length_le hcount))

/-- A number of values, one after the other. -/
def readValues (n : Nat) (input : Bytes) :
    Option { result : List RespValue × Bytes // result.2.length ≤ input.length } :=
  match n with
  | 0 => some ⟨([], input), Nat.le_refl _⟩
  | n + 1 =>
      match readValue input with
      | none => none
      | some ⟨(v, rest), hrest⟩ =>
          match readValues n rest with
          | none => none
          | some ⟨(vs, rest'), hrest'⟩ => some ⟨(v :: vs, rest'), hrest'.trans hrest.le⟩
termination_by (input.length, n + 1)
decreasing_by
  · exact Prod.Lex.right _ (Nat.succ_pos _)
  · exact Prod.Lex.left _ _ hrest

end

/-- The reference parser: a value and the text behind it. -/
def descend (input : Bytes) : Option (RespValue × Bytes) :=
  (readValue input).map Subtype.val

/-- The reference parser for a number of values. -/
def descendAll (n : Nat) (input : Bytes) : Option (List RespValue × Bytes) :=
  (readValues n input).map Subtype.val

/-- Without input there is no value. -/
@[simp]
theorem descend_nil : descend [] = none := by
  simp [descend, readValue]

/-- One value by its type byte. -/
theorem descend_cons (type : UInt8) (text : Bytes) :
    descend (type :: text) =
      if type = 42 then
        (readCount text).bind fun (count, rest) =>
          if count < -1 then none
          else if count = -1 then some (.null, rest)
          else (descendAll count.toNat rest).map fun (elements, rest') => (.array elements, rest')
      else readLeaf type text := by
  unfold descend descendAll
  rw [readValue]
  by_cases htype : type = 42
  · simp only [htype, if_true]
    split
    · rename_i hcount
      simp [hcount]
    · rename_i count rest hcount
      simp only [hcount, Option.bind_some]
      split_ifs
      · rfl
      · rfl
      · cases readValues count.toNat rest <;> rfl
  · simp only [htype, if_false]
    split
    · rename_i hleaf
      simp [hleaf]
    · rename_i v rest hleaf
      simp [hleaf]

/-- No values take no text. -/
@[simp]
theorem descendAll_zero (input : Bytes) : descendAll 0 input = some ([], input) := by
  simp [descendAll, readValues]

/-- The first of several values, and the others behind it. -/
theorem descendAll_succ (n : Nat) (input : Bytes) :
    descendAll (n + 1) input =
      (descend input).bind fun (v, rest) =>
        (descendAll n rest).map fun (vs, rest') => (v :: vs, rest') := by
  unfold descend descendAll
  rw [readValues]
  cases readValue input with
  | none => rfl
  | some result =>
      simp only [Option.map_some, Option.bind_some]
      cases readValues n result.1.2 <;> rfl

/-! ## The loop is recursive descent -/

/-- The loop goes on behind what was read, or fails with it. -/
def continueWith (stack : List ArrayFrame) : Option (RespValue × Bytes) → ParseResult
  | none => .nullopt
  | some (v, rest) => resume stack v rest

/-- The loop stops without a result: it throws, or its position overflows. -/
def ParseResult.Stops (result : ParseResult) : Prop :=
  result = .throws ∨ ∃ outermost rest, result = .overflowed outermost rest

/-- A leaf is read by the loop as by the reference, unless its position overflows. -/
theorem readItem_leaf {type : UInt8} (htype : type ≠ 42) (text : Bytes) :
    readItem type text = .failed ∧ readLeaf type text = none ∨
      (∃ v rest, readItem type text = .overflowed v rest) ∨
      ∃ v rest, readItem type text = .value v rest ∧ readLeaf type text = some (v, rest) := by
  have hitem : ∀ item : Item, (∀ frame rest, item ≠ .opened frame rest) → item ≠ .throws →
      item = .failed ∧ item.value? = none ∨ (∃ v rest, item = .overflowed v rest) ∨
        ∃ v rest, item = .value v rest ∧ item.value? = some (v, rest) := by
    intro item hopened hthrows
    cases item with
    | value v rest => exact .inr (.inr ⟨v, rest, rfl, rfl⟩)
    | opened frame rest => exact absurd rfl (hopened frame rest)
    | failed => exact .inl ⟨rfl, rfl⟩
    | throws => exact absurd rfl hthrows
    | overflowed v rest => exact .inr (.inl ⟨v, rest, rfl⟩)
  have hopened : ∀ frame rest, readItem type text ≠ .opened frame rest := fun frame rest h =>
    htype (header_of_readItem h (by simp) (by simp) (by simp)).1
  have hthrows : readItem type text ≠ .throws := fun h =>
    htype (header_of_readItem h (by simp) (by simp) (by simp)).1
  have hsame : readLeaf type text = (readItem type text).value? := by
    unfold readLeaf readItem
    rw [if_neg htype]
    split_ifs <;> rfl
  rw [hsame]
  exact hitem _ hopened hthrows

/-- What the loop makes of an array header. -/
theorem readItem_header (text : Bytes) :
    readItem 42 text = .failed ∧ readCount text = none ∨
      ∃ count rest, readCount text = some (count, rest) ∧
        ((count < -1 ∧ readItem 42 text = .throws) ∨
          (count = -1 ∧ readItem 42 text = .value .null rest) ∨
          (count = 0 ∧ readItem 42 text = .value (.array []) rest) ∨
          (0 < count ∧ readItem 42 text = .opened ⟨.array [], count⟩ rest)) := by
  simp only [readItem, if_true, handleArrayHeader, readCount]
  cases readLine text with
  | none => exact .inl ⟨rfl, rfl⟩
  | some pair =>
      rcases pair with ⟨line, rest⟩
      simp only [Option.bind_some]
      cases parseInt line with
      | none => exact .inl ⟨rfl, rfl⟩
      | some count =>
          refine .inr ⟨count, rest, rfl, ?_⟩
          simp only
          split_ifs with hnull hempty hneg
          · exact .inr (.inl ⟨hnull, rfl⟩)
          · exact .inr (.inr (.inl ⟨hempty, rfl⟩))
          · exact .inl ⟨by omega, rfl⟩
          · exact .inr (.inr (.inr ⟨by omega, rfl⟩))

/-- The loop fills an array by reading its elements, given that it reads single values
as the reference does. -/
theorem parseLoop_descendAll {bound : Nat}
    (hread : ∀ text : Bytes, text.length ≤ bound → ∀ stack,
      (parseLoop text stack).Stops ∨ parseLoop text stack = continueWith stack (descend text))
    (n : Nat) (done : List RespValue) (stack : List ArrayFrame) (text : Bytes)
    (hbound : text.length ≤ bound) :
    (parseLoop text (⟨.array done, (n + 1 : Nat)⟩ :: stack)).Stops ∨
      parseLoop text (⟨.array done, (n + 1 : Nat)⟩ :: stack) =
        continueWith stack ((descendAll (n + 1) text).map fun (vs, rest) =>
          (.array (done ++ vs), rest)) := by
  induction n generalizing done text with
  | zero =>
      refine (hread text hbound _).imp_right fun hvalue => ?_
      rw [hvalue, descendAll_succ]
      cases descend text with
      | none => rfl
      | some pair => exact resume_push.trans (by simp [continueWith])
  | succ n ih =>
      rcases hread text hbound (⟨.array done, (n + 1 + 1 : Nat)⟩ :: stack) with hthrows | hvalue
      · exact .inl hthrows
      · rw [hvalue, descendAll_succ]
        cases hdescend : descend text with
        | none => exact .inr rfl
        | some pair =>
            rcases pair with ⟨v, rest⟩
            have hrest : rest.length ≤ bound := by
              rcases Option.map_eq_some_iff.mp hdescend with ⟨⟨result, hlt⟩, -, heq⟩
              have hresult : result = (v, rest) := heq
              rw [hresult] at hlt
              exact hlt.le.trans hbound
            have hpush : continueWith (⟨.array done, (n + 1 + 1 : Nat)⟩ :: stack) (some (v, rest)) =
                parseLoop rest (⟨.array (done ++ [v]), (n + 1 : Nat)⟩ :: stack) :=
              resume_push.trans (if_neg (Nat.succ_ne_zero n))
            rw [hpush]
            refine (ih (done ++ [v]) rest hrest).imp_right fun hrun => ?_
            rw [hrun, Option.bind_some, Option.map_map]
            cases descendAll (n + 1) rest with
            | none => rfl
            | some pair => simp

/-- The loop continues behind the value that recursive descent reads, unless it stops. -/
theorem parseLoop_descend (input : Bytes) (stack : List ArrayFrame) :
    (parseLoop input stack).Stops ∨
      parseLoop input stack = continueWith stack (descend input) := by
  induction hlength : input.length using Nat.strong_induction_on generalizing input stack with
  | _ length ih =>
      cases input with
      | nil => exact .inr (by simp [continueWith])
      | cons type text =>
          rw [parseLoop_cons, descend_cons]
          by_cases htype : type = 42
          · subst htype
            rw [if_pos rfl]
            rcases readItem_header text with ⟨hitem, hcount⟩ | ⟨count, rest, hcount, hcases⟩
            · rw [hitem, hcount]
              exact .inr rfl
            · rw [hcount, Option.bind_some]
              rcases hcases with ⟨hneg, hitem⟩ | ⟨rfl, hitem⟩ | ⟨rfl, hitem⟩ | ⟨hpos, hitem⟩
              · exact .inl (.inl (by rw [hitem]))
              · exact .inr (by rw [hitem]; rfl)
              · exact .inr (by rw [hitem]; simp [continueWith])
              · -- the elements of the array are read into a new frame
                have hrest := readCount_length_le hcount
                obtain ⟨n, hn⟩ : ∃ n : Nat, count = (n + 1 : Nat) := ⟨(count - 1).toNat, by omega⟩
                subst hn
                have hfilled := @parseLoop_descendAll rest.length
                  (fun text' hle stack' => ih text'.length
                    (by simp only [List.length_cons] at hlength; omega) text' stack' rfl)
                  n [] stack rest (Nat.le_refl _)
                have hneg : ¬ ((n + 1 : Nat) : Int) < -1 := by omega
                have hnull : ¬ ((n + 1 : Nat) : Int) = -1 := by omega
                simp only [hitem, hneg, hnull, if_false, Int.toNat_natCast]
                exact hfilled
          · rw [if_neg htype]
            rcases readItem_leaf htype text with
              ⟨hitem, hleaf⟩ | ⟨v, rest, hitem⟩ | ⟨v, rest, hitem, hleaf⟩
            · rw [hitem, hleaf]
              exact .inr rfl
            · exact .inl (.inr ⟨_, rest, by rw [hitem]⟩)
            · rw [hitem, hleaf]
              exact .inr rfl

/-- The iterative parser is recursive descent: on every input that has no array header
with a count below -1 where a value is expected, it returns the value that the
reference parser reads, with the number of bytes that were read for it, and fails where
the reference parser fails, if and only if no bulk string of more than
{lit}`INT_MAX - 2` bytes stands where a value is expected. -/
theorem parse_eq_descend_iff {input : Bytes} (h : ¬ NegativeCount 1 input) :
    parse input = .ok ((descend input).map fun (v, rest) => (v, input.length - rest.length)) ↔
      ¬ Overlong 1 input := by
  have hthrows : parseLoop input [] ≠ .throws := fun hthrows =>
    h ((@parseLoop_throws_iff input [] (by simp)).mp hthrows)
  have hover : Overlong 1 input ↔ ∃ outermost rest, parseLoop input [] = .overflowed outermost rest :=
    (@parseLoop_overflowed_iff input [] (by simp)).symm
  rw [hover]
  constructor
  · rintro hparse ⟨outermost, rest, hloop⟩
    simp [parse, hloop] at hparse
  · intro hdefined
    have hstops : ¬ (parseLoop input []).Stops := by
      rintro (hstop | hstop)
      · exact hthrows hstop
      · exact hdefined hstop
    have hloop := (parseLoop_descend input []).resolve_left hstops
    unfold parse
    rw [hloop]
    cases descend input with
    | none => rfl
    | some pair => rfl

/-- The position overflows in the bytes of a value with a payload that is too long. -/
theorem overlong_serialize {v : RespValue} (hv : WellFormedWithin intMax v)
    (hlong : ¬ WellFormed v) : Overlong 1 (serialize v) := by
  rcases parseLoop_serialize_overflows hv hlong [] [] with ⟨outermost, rest, hloop⟩
  rw [List.append_nil] at hloop
  exact (@parseLoop_overflowed_iff _ [] (by simp)).mp ⟨outermost, rest, hloop⟩

/-- A bulk string is no array header. -/
theorem not_negativeCount_bulk (text : Bytes) : ¬ NegativeCount 1 (36 :: text) := by
  intro h
  have hloop := (@parseLoop_throws_iff (36 :: text) [] (by simp)).mpr h
  rw [parseLoop_cons] at hloop
  rcases parseBulkString_cases (rfl : parseBulkString text = _) with
    hitem | ⟨line, tail, length, -, -, -, ⟨-, hitem⟩ | ⟨payload, -, rest, -, -, -, hitem⟩⟩
  · simp [readItem, hitem] at hloop
  · simp [readItem, hitem, resume, processStack] at hloop
  · simp only [readItem] at hloop
    split_ifs at hitem <;> simp [hitem, resume, processStack] at hloop

/-- On the long payload the iterative parser is not recursive descent. -/
theorem parse_ne_descend_long_payload :
    ¬ NegativeCount 1 (serialize (.bulkString longPayload)) ∧
      parse (serialize (.bulkString longPayload)) ≠
        .ok ((descend (serialize (.bulkString longPayload))).map fun (v, rest) =>
          (v, (serialize (.bulkString longPayload)).length - rest.length)) := by
  have hcount : ∀ payload, ¬ NegativeCount 1 (serialize (.bulkString payload)) := by
    intro payload
    simp only [serialize, RespValue.bulkString]
    exact not_negativeCount_bulk _
  refine ⟨hcount longPayload, fun h => ?_⟩
  rw [parse_of_overlong (overlong_serialize longPayload_fits longPayload_not_wellFormed)] at h
  contradiction

/-- A null array, an empty one and one with an element, in an array with bytes behind
it. -/
theorem parse_eq_descend_iff_nested :
    ¬ NegativeCount 1 (ascii "*3\r\n*-1\r\n*0\r\n*1\r\n:7\r\n+x") ∧
      .ok ((descend (ascii "*3\r\n*-1\r\n*0\r\n*1\r\n:7\r\n+x")).map fun (v, rest) =>
          (v, (ascii "*3\r\n*-1\r\n*0\r\n*1\r\n:7\r\n+x").length - rest.length)) =
        (.ok (some (.array [.null, .array [], .array [⟨.integer, ascii "7", []⟩]], 21)) :
          Except Exception (Option (RespValue × Nat))) := by
  have hthrows : parseLoop (ascii "*3\r\n*-1\r\n*0\r\n*1\r\n:7\r\n+x") [] ≠ .throws := by
    decide +kernel
  have hcount : ¬ NegativeCount 1 (ascii "*3\r\n*-1\r\n*0\r\n*1\r\n:7\r\n+x") := fun h =>
    hthrows ((@parseLoop_throws_iff _ [] (by simp)).mpr h)
  have hdefined : ¬ Overlong 1 (ascii "*3\r\n*-1\r\n*0\r\n*1\r\n:7\r\n+x") := fun h =>
    absurd ((@parseLoop_overflowed_iff _ [] (by simp)).mpr h) (by
      have hloop : parseLoop (ascii "*3\r\n*-1\r\n*0\r\n*1\r\n:7\r\n+x") [] =
          .value (.array [.null, .array [], .array [⟨.integer, ascii "7", []⟩]]) (ascii "+x") := by
        decide +kernel
      simp [hloop])
  refine ⟨hcount, ((parse_eq_descend_iff hcount).mpr hdefined).symm.trans ?_⟩
  decide +kernel

/-! ## More data and less data -/

/-- A value that was read has a text of its own, whatever follows it. -/
theorem exists_valueText {type : UInt8} {text rest : Bytes} {v : RespValue}
    (h : readItem type text = .value v rest) :
    ∃ item, type :: text = item ++ rest ∧
      ∀ more stack, parseLoop (item ++ more) stack = resume stack v more := by
  rcases valueText_of_readItem h with ⟨item, hitem, htext⟩
  rcases hitem.parseLoop_eq with ⟨w, hw⟩
  have hsame : ParseResult.value v rest = .value w rest := by
    have hloop := hw rest []
    rw [← htext, parseLoop_cons, h] at hloop
    exact hloop
  cases hsame
  exact ⟨item, htext, hw⟩

/-- So has one behind which the position overflows. -/
theorem exists_longText {type : UInt8} {text rest : Bytes} {v : RespValue}
    (h : readItem type text = .overflowed v rest) :
    ∃ item, type :: text = item ++ rest ∧ ∀ more stack,
      parseLoop (item ++ more) stack = .overflowed (processStack stack v).2 more := by
  cases hlong : longBulk_of_readItem h with
  | @mk line payload terminator tail hno hlength hover htwo =>
      have hread := fun rest => readItem_payload hno hlength htwo rest
      have hsame : Item.overflowed (.bulkString payload) tail = .overflowed v rest := by
        rw [← h, hread, if_pos hover]
      cases hsame
      refine ⟨36 :: (line ++ (crlf ++ (payload ++ terminator))), by simp, fun more stack => ?_⟩
      have hitem := hread more
      rw [if_pos hover] at hitem
      simp only [List.cons_append, List.append_assoc, parseLoop_cons, hitem]

/-- The text behind what was read. -/
def ParseResult.rest? : ParseResult → Option Bytes
  | .value _ rest => some rest
  | .overflowed _ rest => some rest
  | .nullopt => none
  | .throws => none

/-- The loop reads a prefix of its input, and that prefix alone is enough. -/
theorem parseLoop_read {input rest : Bytes} {stack : List ArrayFrame}
    (h : (parseLoop input stack).rest? = some rest) :
    ∃ read, input = read ++ rest ∧ (parseLoop read stack).rest? = some [] := by
  induction input, stack using parseLoop.induct with
  | case1 stack => simp [ParseResult.rest?] at h
  | case2 stack type input hitem => simp [parseLoop_cons, hitem, ParseResult.rest?] at h
  | case3 stack type input hitem => simp [parseLoop_cons, hitem, ParseResult.rest?] at h
  | case4 stack type input frame tail hitem ih =>
      simp only [parseLoop_cons, hitem] at h
      rcases ih h with ⟨read, rfl, hread⟩
      rcases opened_of_readItem hitem with ⟨rfl, line, count, rfl, hno, hcount, hpos, rfl⟩
      refine ⟨42 :: (line ++ (crlf ++ read)), by simp, ?_⟩
      rw [parseLoop_header hno hcount hpos]
      exact hread
  | case5 stack type input w tail hitem stack' outermost hout =>
      rcases exists_valueText hitem with ⟨item, htext, hitem'⟩
      simp only [parseLoop_cons, hitem, resume, hout, ParseResult.rest?, Option.some.injEq] at h
      subst h
      refine ⟨item, htext, ?_⟩
      rw [← List.append_nil item, hitem', resume, hout]
      rfl
  | case6 stack type input w tail hitem stack' hout ih =>
      rcases exists_valueText hitem with ⟨item, htext, hitem'⟩
      simp only [parseLoop_cons, hitem, resume, hout] at h
      rcases ih h with ⟨read, rfl, hread⟩
      refine ⟨item ++ read, by rw [htext, List.append_assoc], ?_⟩
      rw [hitem', resume, hout]
      exact hread
  | case7 stack type input w tail hitem =>
      rcases exists_longText hitem with ⟨item, htext, hitem'⟩
      simp only [parseLoop_cons, hitem, ParseResult.rest?, Option.some.injEq] at h
      subst h
      refine ⟨item, htext, ?_⟩
      rw [← List.append_nil item, hitem']
      rfl

/-- What was read alone gives the same result. -/
theorem parseLoop_take {input rest : Bytes} (h : (parseLoop input []).rest? = some rest) :
    parseLoop input [] = (parseLoop (input.take (input.length - rest.length)) []).append rest ∧
      (parseLoop (input.take (input.length - rest.length)) []).rest? = some [] ∧
      rest.length ≤ input.length := by
  rcases parseLoop_read h with ⟨read, rfl, hread⟩
  have hlength : (read ++ rest).length - rest.length = read.length := by simp
  rw [hlength, List.take_left' rfl]
  refine ⟨parseLoop_append ?_ rest, hread, by simp⟩
  intro hnone
  rw [hnone] at hread
  contradiction

/-- A decided loop on the first bytes has read no more than these. -/
theorem consumed_le_of_take {input rest : Bytes} {n : Nat}
    (h : (parseLoop input []).rest? = some rest)
    (hdecided : parseLoop (input.take n) [] ≠ .nullopt) : input.length - rest.length ≤ n := by
  have hmore := parseLoop_append hdecided (input.drop n)
  rw [List.take_append_drop] at hmore
  rw [hmore] at h
  cases hresult : parseLoop (input.take n) [] with
  | nullopt => exact absurd hresult hdecided
  | throws =>
      rw [hresult] at h
      contradiction
  | value v tail =>
      simp only [hresult, ParseResult.append, ParseResult.rest?, Option.some.injEq] at h
      rw [← h, List.length_append, List.length_drop]
      omega
  | overflowed outermost tail =>
      simp only [hresult, ParseResult.append, ParseResult.rest?, Option.some.injEq] at h
      rw [← h, List.length_append, List.length_drop]
      omega

/-! ## Where the sum wraps -/

/-- The wrapped position is another one. -/
theorem wrapPosition_ne (n : Nat) : wrapPosition n ≠ n := by
  unfold wrapPosition sizeTModulus
  omega

/-- A parse without overflow is the compiled one. -/
theorem wrappedParse_of_parse {input : Bytes} {v : RespValue} {consumed : Nat}
    (h : parse input = .ok (some (v, consumed))) : wrappedParse input = some (v, consumed) := by
  rcases parse_eq_some h with ⟨rest, hloop, rfl⟩
  simp [wrappedParse, hloop]

/-- What the compiled parser returns comes from a loop that read a value. -/
theorem wrappedParse_cases {input : Bytes} {v : RespValue} {consumed : Nat}
    (h : wrappedParse input = some (v, consumed)) :
    (¬ Overlong 1 input ∧ parse input = .ok (some (v, consumed))) ∨
      ∃ rest, Overlong 1 input ∧ parseLoop input [] = .overflowed (some v) rest ∧
        consumed = wrapPosition (input.length - rest.length) := by
  have hover := @parseLoop_overflowed_iff input [] (by simp)
  unfold wrappedParse at h
  split at h
  · rename_i w rest hloop
    simp only [Option.some.injEq, Prod.mk.injEq] at h
    rcases h with ⟨rfl, rfl⟩
    refine .inl ⟨fun hlong => ?_, by simp [parse, hloop]⟩
    rcases hover.mpr hlong with ⟨outermost, rest', hstop⟩
    rw [hloop] at hstop
    contradiction
  · rename_i w rest hloop
    simp only [Option.some.injEq, Prod.mk.injEq] at h
    rcases h with ⟨rfl, rfl⟩
    exact .inr ⟨rest, hover.mp ⟨_, _, hloop⟩, hloop, rfl⟩
  · contradiction

/-- Behind an overflow the compiled parser returns a value for what was read alone. -/
theorem wrappedParse_take_ne_none {input rest : Bytes} {v : RespValue}
    (h : parseLoop input [] = .overflowed (some v) rest) :
    wrappedParse (input.take (input.length - rest.length)) ≠ none := by
  have hrest : (parseLoop input []).rest? = some rest := by
    rw [h]
    rfl
  rcases parseLoop_take hrest with ⟨happend, hread, -⟩
  rw [h] at happend
  unfold wrappedParse
  cases htake : parseLoop (input.take (input.length - rest.length)) [] with
  | overflowed outermost tail =>
      rw [htake] at happend
      simp only [ParseResult.append, ParseResult.overflowed.injEq] at happend
      rw [← happend.1]
      simp
  | value w tail => rw [htake] at happend; contradiction
  | nullopt => rw [htake] at hread; contradiction
  | throws => rw [htake] at hread; contradiction

/-- Parsing is stable under more data, without overflow. -/
theorem stable_of_parse {input : Bytes} {v : RespValue} {consumed : Nat}
    (h : parse input = .ok (some (v, consumed))) :
    consumed ≤ input.length ∧
      (∀ more, wrappedParse (input ++ more) = some (v, consumed)) ∧
      wrappedParse (input.take consumed) = some (v, consumed) ∧
      ∀ fewer < consumed, wrappedParse (input.take fewer) = none := by
  rcases parse_eq_some h with ⟨rest, hloop, rfl⟩
  have hrest : (parseLoop input []).rest? = some rest := by rw [hloop]; rfl
  rcases parseLoop_take hrest with ⟨happend, halone, hle⟩
  refine ⟨parse_consumed_le h, fun more => ?_, ?_, fun fewer hfewer => ?_⟩
  · exact wrappedParse_of_parse (by rw [parse_append (by rw [h]; simp), h])
  · apply wrappedParse_of_parse
    rw [hloop] at happend
    unfold parse
    cases hread : parseLoop (input.take (input.length - rest.length)) [] with
    | value w tail =>
        rw [hread] at happend halone
        cases halone
        cases happend
        simp
    | nullopt => rw [hread] at halone; contradiction
    | throws => rw [hread] at halone; contradiction
    | overflowed outermost tail => rw [hread] at happend; contradiction
  · -- a decision on fewer bytes would be the decision on all of them
    have hnone : parseLoop (input.take fewer) [] = .nullopt := by
      by_contra hdecided
      have := consumed_le_of_take hrest hdecided
      omega
    simp [wrappedParse, hnone]

/-- Parsing is stable under more data exactly up to the longest payload: if a parse
returns a value, then that its count is within the input, that it returns the same when
bytes are added and on the consumed bytes alone, and nothing on fewer bytes than these,
holds if and only if no bulk string of more than {lit}`INT_MAX - 2` bytes stands where a
value is expected. -/
theorem parse_stable_iff {input : Bytes} {v : RespValue} {consumed : Nat}
    (h : wrappedParse input = some (v, consumed)) :
    (consumed ≤ input.length ∧
      (∀ more, wrappedParse (input ++ more) = some (v, consumed)) ∧
      wrappedParse (input.take consumed) = some (v, consumed) ∧
      ∀ fewer < consumed, wrappedParse (input.take fewer) = none) ↔ ¬ Overlong 1 input := by
  rcases wrappedParse_cases h with ⟨hdefined, hparse⟩ | ⟨rest, hlong, hloop, hconsumed⟩
  · exact ⟨fun _ => hdefined, fun _ => stable_of_parse hparse⟩
  · refine ⟨?_, fun hdefined => absurd hlong hdefined⟩
    rintro ⟨hle, -, halone, hfewer⟩
    exfalso
    have hrest : (parseLoop input []).rest? = some rest := by rw [hloop]; rfl
    have hother : consumed ≠ input.length - rest.length := hconsumed ▸ wrapPosition_ne _
    rcases Nat.lt_or_gt_of_ne hother with hless | hmore
    · -- the consumed bytes are too few for the value
      have hdecided : parseLoop (input.take consumed) [] ≠ .nullopt := by
        intro hnone
        simp [wrappedParse, hnone] at halone
      have := consumed_le_of_take hrest hdecided
      omega
    · -- the value is there before that many bytes are
      exact wrappedParse_take_ne_none hloop (hfewer _ hmore)

/-- An array with an element, with the next command behind it. -/
theorem parse_stable_iff_pipelined :
    wrappedParse (ascii "*1\r\n$4\r\nPING\r\n*1\r\n") =
        some (.array [.bulkString (ascii "PING")], 14) ∧
      wrappedParse (ascii "*1\r\n$4\r\nPING\r\n") =
        some (.array [.bulkString (ascii "PING")], 14) ∧
      wrappedParse (ascii "*1\r\n$4\r\nPING\r") = none := by
  have hparse : parse (ascii "*1\r\n$4\r\nPING\r\n*1\r\n") =
      .ok (some (.array [.bulkString (ascii "PING")], 14)) := by
    decide +kernel
  have hwrapped := wrappedParse_of_parse hparse
  have hdefined : ¬ Overlong 1 (ascii "*1\r\n$4\r\nPING\r\n*1\r\n") := fun hlong => by
    rw [parse_of_overlong hlong] at hparse
    contradiction
  rcases (parse_stable_iff hwrapped).mpr hdefined with ⟨-, -, halone, hfewer⟩
  exact ⟨hwrapped, halone, hfewer 13 (by decide)⟩

/-- The compiled parser returns a payload that is too long with the wrapped position. -/
theorem wrappedParse_bulkString {payload : Bytes} (hfits : (payload.length : Int) ≤ intMax)
    (hlong : payloadMax < payload.length) :
    wrappedParse (serialize (.bulkString payload)) =
      some (.bulkString payload, wrapPosition (serialize (.bulkString payload)).length) := by
  have hitem := readItem_bulkString hfits []
  rw [if_pos hlong, List.append_nil] at hitem
  have hloop : parseLoop (serialize (.bulkString payload)) [] =
      .overflowed (some (.bulkString payload)) [] := by
    simp only [serialize, RespValue.bulkString, List.append_assoc, parseLoop_cons, hitem]
    rfl
  simp only [wrappedParse, hloop, List.length_nil, Nat.sub_zero]

/-- Length of the encoding of a bulk string. -/
theorem length_serialize_bulkString (payload : Bytes) :
    (serialize (.bulkString payload)).length =
      (Decimal.render payload.length).length + payload.length + 5 := by
  simp only [serialize, RespValue.bulkString, List.length_cons, List.length_append, crlf,
    List.length_nil]
  omega

/-- The compiled parser returns the long payload and says that it has consumed more bytes
than there are. -/
theorem parse_unstable_long_payload :
    ∃ consumed, wrappedParse (serialize (.bulkString longPayload)) =
        some (.bulkString longPayload, consumed) ∧
      ¬ consumed ≤ (serialize (.bulkString longPayload)).length := by
  refine ⟨_, wrappedParse_bulkString (by rw [length_longPayload]; decide)
    (by rw [length_longPayload]; decide), ?_⟩
  have hdigits : (Decimal.render 2147483646).length = 10 := by
    decide +kernel
  rw [length_serialize_bulkString, length_longPayload, hdigits]
  decide

end RedisClone
