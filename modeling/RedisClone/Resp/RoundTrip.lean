import RedisClone.Resp.RespParser

/-!
# Parsing serialized values

The wire format is self-delimiting: the parser reads a serialized value back
and stops behind it, whatever bytes follow.  It is also stable under more data:
a parse that succeeded, or threw, on some bytes does the same when more bytes
arrive behind them.

Main results:

- Theorem {lit}`parse_serialize`: a serialized well-formed value is parsed back,
  with exactly its own bytes consumed.
- Theorem {lit}`parse_append`: a decided parse does not depend on later bytes.
- Theorem {lit}`parse_serialize_iff`: a payload that is too long is not parsed back.
-/

namespace RedisClone

open RespValue

/-! ## Lines -/

/-- A line terminator is found at the end of a text that holds none. -/
theorem readLine_append_crlf {line : Bytes} (hline : NoCrlf line) (rest : Bytes) :
    readLine (line ++ (crlf ++ rest)) = some (line, rest) := by
  induction line with
  | nil => simp [crlf, readLine]
  | cons b line ih =>
      have htail : NoCrlf line := fun h => hline (h.trans (List.suffix_cons b line).isInfix)
      have hread := ih htail
      -- a terminator at the front would have its carriage return in the text
      cases line with
      | nil => simp [crlf, readLine] at hread ⊢
      | cons c line =>
          have hbc : ¬ (b = 13 ∧ c = 10) := by
            rintro ⟨rfl, rfl⟩
            exact hline (List.prefix_append [13, 10] line).isInfix
          simp only [List.cons_append] at hread ⊢
          rw [readLine, if_neg hbc, hread]
          rfl

/-- A line read from the input stands before its first terminator. -/
theorem readLine_eq_some {input line rest : Bytes} (h : readLine input = some (line, rest)) :
    input = line ++ (crlf ++ rest) ∧ NoCrlf line := by
  induction input using readLine.induct generalizing line with
  | case1 b c tail hbc =>
      simp only [readLine, hbc, and_self, if_true, Option.some.injEq, Prod.mk.injEq] at h
      rcases h with ⟨rfl, rfl⟩
      rcases hbc with ⟨rfl, rfl⟩
      exact ⟨rfl, by decide⟩
  | case2 b c tail hbc ih =>
      simp only [readLine, hbc, if_false, Option.map_eq_some_iff, Prod.exists, Prod.mk.injEq] at h
      rcases h with ⟨line', rest', hread, rfl, rfl⟩
      rcases ih hread with ⟨hsplit, hno⟩
      refine ⟨by rw [hsplit]; simp, ?_⟩
      intro hsub
      rcases List.infix_cons_iff.mp hsub with hprefix | htail
      · rcases hprefix with ⟨t, ht⟩
        simp only [crlf, List.cons_append, List.nil_append, List.cons.injEq] at ht
        have hhead : c = 10 := by
          have := congrArg List.head? hsplit
          rw [← ht.2] at this
          simpa using this
        exact hbc ⟨ht.1.symm, hhead⟩
      · exact hno htail
  | case3 t ht =>
      rw [readLine] at h
      · contradiction
      · exact ht

/-- More input behind a complete line does not change the line. -/
theorem readLine_append {input line rest : Bytes} (h : readLine input = some (line, rest))
    (more : Bytes) : readLine (input ++ more) = some (line, rest ++ more) := by
  rcases readLine_eq_some h with ⟨rfl, hno⟩
  rw [List.append_assoc, List.append_assoc]
  exact readLine_append_crlf hno (rest ++ more)

/-! ## Stability under more data -/

/-- The same item with more input behind it. -/
def Item.append : Item → Bytes → Item
  | .value v rest, more => .value v (rest ++ more)
  | .opened frame rest, more => .opened frame (rest ++ more)
  | .failed, _ => .failed
  | .throws, _ => .throws
  | .overflowed v rest, more => .overflowed v (rest ++ more)

/-- A header that was read does not depend on what follows it. -/
theorem handleArrayHeader_append {input : Bytes} (h : handleArrayHeader input ≠ .failed)
    (more : Bytes) :
    handleArrayHeader (input ++ more) = (handleArrayHeader input).append more := by
  unfold handleArrayHeader at h ⊢
  cases hline : readLine input with
  | none => simp [hline] at h
  | some p =>
      rcases p with ⟨line, rest⟩
      rw [readLine_append hline more]
      simp only
      cases parseInt line with
      | none => rfl
      | some count => simp only; split_ifs <;> rfl

/-- A line value that was read does not depend on what follows it. -/
theorem parseLine_append {type : RespType} {input : Bytes} (h : parseLine type input ≠ .failed)
    (more : Bytes) : parseLine type (input ++ more) = (parseLine type input).append more := by
  unfold parseLine at h ⊢
  cases hline : readLine input with
  | none => simp [hline] at h
  | some p =>
      rcases p with ⟨line, rest⟩
      rw [readLine_append hline more]
      rfl

/-- A bulk string that was read does not depend on what follows it. -/
theorem parseBulkString_append {input : Bytes} (h : parseBulkString input ≠ .failed)
    (more : Bytes) : parseBulkString (input ++ more) = (parseBulkString input).append more := by
  unfold parseBulkString at h ⊢
  cases hline : readLine input with
  | none => simp [hline] at h
  | some p =>
      rcases p with ⟨line, rest⟩
      rw [readLine_append hline more]
      simp only [hline] at h ⊢
      cases hcount : parseInt line with
      | none => rfl
      | some length =>
          simp only [hcount] at h ⊢
          by_cases hneg : length < 0
          · simp [hneg, Item.append]
          · simp only [hneg, if_false] at h ⊢
            by_cases hshort : rest.length < length.toNat + 2
            · simp [hshort] at h
            · have hlong : ¬ (rest ++ more).length < length.toNat + 2 := by
                simp only [List.length_append]
                omega
              simp only [hshort, hlong, if_false]
              rw [List.take_append_of_le_length (by omega), List.drop_append_of_le_length (by omega)]
              split_ifs <;> rfl

/-- An item that was read does not depend on what follows it. -/
theorem readItem_append {type : UInt8} {input : Bytes} (h : readItem type input ≠ .failed)
    (more : Bytes) : readItem type (input ++ more) = (readItem type input).append more := by
  unfold readItem at h ⊢
  split_ifs at h ⊢
  · exact handleArrayHeader_append h more
  · exact parseLine_append h more
  · exact parseBulkString_append h more
  · exact parseLine_append h more
  · exact absurd rfl h

/-- The same result with more input behind it. -/
def ParseResult.append : ParseResult → Bytes → ParseResult
  | .value v rest, more => .value v (rest ++ more)
  | .nullopt, _ => .nullopt
  | .throws, _ => .throws
  | .overflowed v rest, more => .overflowed v (rest ++ more)

/-- A decided run of the loop does not depend on later bytes. -/
theorem parseLoop_append {input : Bytes} {stack : List ArrayFrame}
    (h : parseLoop input stack ≠ .nullopt) (more : Bytes) :
    parseLoop (input ++ more) stack = (parseLoop input stack).append more := by
  induction input, stack using parseLoop.induct with
  | case1 stack => simp at h
  | case2 stack type input hitem => simp [parseLoop_cons, hitem] at h
  | case3 stack type input hitem =>
      have hmore := readItem_append (by rw [hitem]; simp) more
      rw [List.cons_append, parseLoop_cons, hmore, parseLoop_cons, hitem]
      rfl
  | case4 stack type input frame rest hitem ih =>
      have hmore := readItem_append (by rw [hitem]; simp) more
      rw [List.cons_append, parseLoop_cons, hmore, parseLoop_cons, hitem]
      simp only [parseLoop_cons, hitem] at h
      exact ih h
  | case5 stack type input v rest hitem stack' outermost hstack =>
      have hmore := readItem_append (by rw [hitem]; simp) more
      rw [List.cons_append, parseLoop_cons, hmore, parseLoop_cons, hitem]
      simp only [Item.append, resume, hstack, ParseResult.append]
  | case6 stack type input v rest hitem stack' hstack ih =>
      have hmore := readItem_append (by rw [hitem]; simp) more
      rw [List.cons_append, parseLoop_cons, hmore, parseLoop_cons, hitem]
      simp only [parseLoop_cons, hitem, resume, hstack] at h
      simp only [Item.append, resume, hstack]
      exact ih h
  | case7 stack type input v rest hitem =>
      have hmore := readItem_append (by rw [hitem]; simp) more
      rw [List.cons_append, parseLoop_cons, hmore, parseLoop_cons, hitem]
      rfl

/-- A decided parse does not depend on later bytes: a parsed value and its
length stay, and an exception stays. -/
theorem parse_append {input : Bytes} (h : parse input ≠ .ok none) (more : Bytes) :
    parse (input ++ more) = parse input := by
  have hloop : parseLoop input [] ≠ .nullopt := by
    intro hnone
    simp [parse, hnone] at h
  unfold parse
  rw [parseLoop_append hloop more]
  cases parseLoop input [] with
  | value v rest =>
      simp only [ParseResult.append, List.length_append, Nat.add_sub_add_right]
  | nullopt => rfl
  | throws => rfl
  | overflowed v rest => rfl

/-! ## Reading a serialized value back -/

/-- The count or length line of a serialized value is read back as its number. -/
theorem parseInt_render {n : Nat} (hn : (n : Int) ≤ intMax) :
    parseInt (Decimal.render n) = some (n : Int) := by
  have hread : fromCharsInt (Decimal.render n ++ []) = some ((n : Int), []) :=
    fromChars_render (by omega) hn (by simp)
  rw [List.append_nil] at hread
  simp [parseInt, hread]

/-- A decimal numeral holds no line terminator. -/
theorem noCrlf_render (n : Nat) : NoCrlf (Decimal.render n) := by
  apply noCrlf_of_not_mem
  intro hmem
  exact absurd (Decimal.isDigit_of_mem_render hmem) (by decide)

/-- The message of {lit}`vector::at` is one line. -/
theorem noCrlf_rangeCheck (index size : Nat) : NoCrlf (Exception.rangeCheck index size).what := by
  apply noCrlf_of_not_mem
  have hrender : ∀ n, (13 : UInt8) ∉ Decimal.render n := fun n hmem =>
    absurd (Decimal.isDigit_of_mem_render hmem) (by decide)
  simp only [Exception.what, Exception.rangeCheck, List.mem_append, hrender]
  decide

/-- A serialized array header opens a frame for its elements. -/
theorem readItem_array_header {n : Nat} (hpos : 0 < n) (hn : (n : Int) ≤ intMax) (rest : Bytes) :
    readItem 42 (Decimal.render n ++ (crlf ++ rest)) = .opened ⟨.array [], n⟩ rest := by
  have hnull : ¬ ((n : Int) = -1) := by omega
  have hempty : ¬ (n = 0) := by omega
  have hneg : ¬ ((n : Int) < 0) := by omega
  simp [readItem, handleArrayHeader, readLine_append_crlf (noCrlf_render n), parseInt_render hn,
    hnull, hempty, hneg]

/-- What a bulk string with its length line in front is read as. -/
theorem readItem_payload {line payload terminator : Bytes} (hline : NoCrlf line)
    (hlength : parseInt line = some (payload.length : Int)) (htwo : terminator.length = 2)
    (rest : Bytes) :
    readItem 36 (line ++ (crlf ++ (payload ++ (terminator ++ rest)))) =
      if payloadMax < payload.length then .overflowed (.bulkString payload) rest
      else .value (.bulkString payload) rest := by
  have hneg : ¬ ((payload.length : Int) < 0) := by omega
  have hshort : ¬ (payload ++ (terminator ++ rest)).length < payload.length + 2 := by
    simp only [List.length_append]
    omega
  have hrest : (payload ++ (terminator ++ rest)).drop (payload.length + 2) = rest := by
    rw [← List.append_assoc]
    exact List.drop_left' (by simp [htwo])
  have hbound : intMax < (payload.length : Int) + 2 ↔ payloadMax < payload.length := by
    unfold payloadMax
    omega
  simp only [readItem, parseBulkString, readLine_append_crlf hline, hlength, hneg, if_false,
    Int.toNat_natCast, hshort, hrest, hbound]
  simp

/-- A serialized bulk string is read back with its payload, unless it is too long. -/
theorem readItem_bulkString {str : Bytes} (hlen : (str.length : Int) ≤ intMax) (rest : Bytes) :
    readItem 36 (Decimal.render str.length ++ (crlf ++ (str ++ (crlf ++ rest)))) =
      if payloadMax < str.length then .overflowed (.bulkString str) rest
      else .value (.bulkString str) rest :=
  readItem_payload (noCrlf_render _) (parseInt_render hlen) rfl rest

/-- A completed element is pushed onto the innermost array. -/
theorem resume_push {done : List RespValue} {n : Nat} {stack : List ArrayFrame} {v : RespValue}
    {rest : Bytes} :
    resume (⟨.array done, (n + 1 : Nat)⟩ :: stack) v rest =
      if n = 0 then resume stack (.array (done ++ [v])) rest
      else parseLoop rest (⟨.array (done ++ [v]), n⟩ :: stack) := by
  have hremaining : (((n + 1 : Nat) : Int) - 1 = 0) ↔ n = 0 := by omega
  have hpred : ((n + 1 : Nat) : Int) - 1 = n := by omega
  unfold resume
  simp only [processStack, ArrayFrame.push, RespValue.array]
  by_cases hn : n = 0
  · simp [hn]
  · simp [hn]

/-- The elements of an array are read one after the other into its frame, given
that each of them is read back on its own. -/
theorem parseLoop_elements {elements : List RespValue}
    (hread : ∀ e ∈ elements, ∀ stack rest, parseLoop (serialize e ++ rest) stack = resume stack e rest)
    (hne : elements ≠ []) (done : List RespValue) (stack : List ArrayFrame) (rest : Bytes) :
    parseLoop (elements.flatMap serialize ++ rest) (⟨.array done, elements.length⟩ :: stack) =
      resume stack (.array (done ++ elements)) rest := by
  induction elements generalizing done with
  | nil => exact absurd rfl hne
  | cons e es ih =>
      rw [List.flatMap_cons, List.append_assoc, hread e (by simp), List.length_cons, resume_push]
      cases es with
      | nil => simp
      | cons e' es =>
          have htail := ih (fun x hx => hread x (List.mem_cons_of_mem e hx)) (by simp)
            (done ++ [e])
          simpa using htail

/-- The serialized null is read back. -/
theorem readItem_null (rest : Bytes) :
    readItem 36 (ascii "-1" ++ (crlf ++ rest)) = .value .null rest := by
  have hcount : parseInt (ascii "-1") = some (-1) := by decide
  simp [readItem, parseBulkString, @readLine_append_crlf (ascii "-1") (by decide), hcount]

/-- The serialized empty array is read back. -/
theorem readItem_empty_array (rest : Bytes) :
    readItem 42 (Decimal.render 0 ++ (crlf ++ rest)) = .value (.array []) rest := by
  have hcount : parseInt (Decimal.render 0) = some 0 := by decide
  simp [readItem, handleArrayHeader, readLine_append_crlf (noCrlf_render 0), hcount]

/-- The loop reads a serialized well-formed value back and continues behind it. -/
theorem parseLoop_serialize {v : RespValue} (hv : WellFormed v) (stack : List ArrayFrame)
    (rest : Bytes) : parseLoop (serialize v ++ rest) stack = resume stack v rest := by
  induction hv generalizing stack rest with
  | simpleString h =>
      simp only [serialize, List.cons_append, List.append_assoc, parseLoop_cons]
      simp [readItem, parseSimpleString, parseLine, readLine_append_crlf h]
  | integer h =>
      simp only [serialize, List.cons_append, List.append_assoc, parseLoop_cons]
      simp [readItem, parseInteger, parseLine, readLine_append_crlf h]
  | bulkString h =>
      have hshort : ¬ payloadMax < _ := not_lt.mpr h
      simp only [serialize, List.cons_append, List.append_assoc, parseLoop_cons,
        readItem_bulkString (h.trans (by decide)), hshort, if_false]
      rfl
  | null =>
      have hhead : serialize ⟨.null, [], []⟩ ++ rest = 36 :: (ascii "-1" ++ (crlf ++ rest)) := by
        simp [serialize, ascii, crlf]
      rw [hhead, parseLoop_cons, readItem_null]
      rfl
  | @array elements hcount helements ih =>
      simp only [serialize_array, List.cons_append, List.append_assoc, parseLoop_cons]
      cases elements with
      | nil =>
          simp only [List.length_nil, List.flatMap_nil, List.nil_append, readItem_empty_array]
          rfl
      | cons e es =>
          rw [readItem_array_header (by simp) hcount]
          exact parseLoop_elements ih (by simp) [] stack rest

/-- A serialized well-formed value is parsed back, whatever follows it, and
exactly its own bytes are consumed. -/
theorem parse_serialize {v : RespValue} (hv : WellFormed v) (rest : Bytes) :
    parse (serialize v ++ rest) = .ok (some (v, (serialize v).length)) := by
  unfold parse
  rw [parseLoop_serialize hv]
  simp [resume, processStack]

/-! ## Payloads that are too long -/

/-- The position overflows behind the first element that is too long, given that it does
behind each of them alone. -/
theorem parseLoop_elements_overflows {elements : List RespValue}
    (hread : ∀ e ∈ elements, ¬ WellFormed e → ∀ stack rest, ∃ outermost rest',
      parseLoop (serialize e ++ rest) stack = .overflowed outermost rest')
    (hlong : ∃ e ∈ elements, ¬ WellFormed e) (done : List RespValue) (stack : List ArrayFrame)
    (rest : Bytes) :
    ∃ outermost rest', parseLoop (elements.flatMap serialize ++ rest)
      (⟨.array done, elements.length⟩ :: stack) = .overflowed outermost rest' := by
  induction elements generalizing done with
  | nil => simp at hlong
  | cons e es ih =>
      rw [List.flatMap_cons, List.append_assoc]
      by_cases he : WellFormed e
      · have htail : ∃ e' ∈ es, ¬ WellFormed e' := by
          rcases hlong with ⟨e', hmem, hlong⟩
          rcases List.mem_cons.mp hmem with rfl | hmem
          · exact absurd he hlong
          · exact ⟨e', hmem, hlong⟩
        have hmore : es.length ≠ 0 := by
          rintro hnil
          rcases htail with ⟨e', hmem, -⟩
          rw [List.length_eq_zero_iff.mp hnil] at hmem
          simp at hmem
        rw [parseLoop_serialize he, List.length_cons, resume_push, if_neg hmore]
        exact ih (fun x hx => hread x (List.mem_cons_of_mem e hx)) htail (done ++ [e])
      · exact hread e (by simp) he _ _

/-- The position overflows inside a serialized value with a payload that is too long. -/
theorem parseLoop_serialize_overflows {v : RespValue} (hv : WellFormedWithin intMax v)
    (hlong : ¬ WellFormed v) (stack : List ArrayFrame) (rest : Bytes) :
    ∃ outermost rest', parseLoop (serialize v ++ rest) stack = .overflowed outermost rest' := by
  induction hv generalizing stack rest with
  | simpleString h => exact absurd (.simpleString h) hlong
  | integer h => exact absurd (.integer h) hlong
  | @bulkString str h =>
      have hover : payloadMax < str.length := not_le.mp fun hle => hlong (.bulkString hle)
      simp only [serialize, List.cons_append, List.append_assoc, parseLoop_cons,
        readItem_bulkString h, hover, if_true]
      exact ⟨_, _, rfl⟩
  | null => exact absurd .null hlong
  | @array elements hcount helements ih =>
      have hsome : ∃ e ∈ elements, ¬ WellFormed e := by
        by_contra hnone
        push Not at hnone
        exact hlong (.array hcount hnone)
      have hpos : 0 < elements.length := by
        rcases hsome with ⟨e, he, -⟩
        exact List.length_pos_of_mem he
      simp only [serialize_array, List.cons_append, List.append_assoc, parseLoop_cons]
      rw [readItem_array_header hpos hcount]
      exact parseLoop_elements_overflows ih hsome [] stack rest

/-- A serialized value is parsed back exactly if the parser can step over each of its
payloads; otherwise the position overflows. -/
theorem parse_serialize_iff {v : RespValue} (hv : WellFormedWithin intMax v) (rest : Bytes) :
    parse (serialize v ++ rest) = .ok (some (v, (serialize v).length)) ↔ WellFormed v := by
  constructor
  · intro h
    by_contra hlong
    rcases parseLoop_serialize_overflows hv hlong [] rest with ⟨outermost, rest', hloop⟩
    simp [parse, hloop] at h
  · intro h
    exact parse_serialize h rest

end RedisClone
