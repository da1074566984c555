import RedisClone.Resp.ParsedValues

/-!
# The parser on arbitrary bytes

The loop of {lit}`RespParser::parse` reads one item after the other: a complete value,
or the header of an array that is put on the stack.  Every turn takes a type byte, so
the loop ends; every frame on the stack waits for at least one more element; and it
stops without a result at two kinds of places only, where a value is expected: an array
header with a count below -1, for which {lit}`std::vector::reserve` throws, and a bulk
string that is too long for the {lit}`int` by which the position is moved.

Main results:

- Theorem {lit}`Reached.remaining_pos`: in every turn, every frame has elements left.
- Theorem {lit}`parseLoop_throws_iff` and {lit}`parseLoop_overflowed_iff`: the loop stops
  exactly there.
- Theorem {lit}`parse_total_iff`: what parsing untrusted bytes comes to.
- Theorem {lit}`parse_negative_count`: the shortest input that throws.
-/

namespace RedisClone

open RespValue

/-! ## Turns of the loop -/

/-- The loop comes to some unread text and a stack. -/
inductive Reached (input : Bytes) : Bytes → List ArrayFrame → Prop where
  | start : Reached input input []
  | opened {type : UInt8} {text rest : Bytes} {stack : List ArrayFrame} {frame : ArrayFrame} :
      Reached input (type :: text) stack → readItem type text = .opened frame rest →
      Reached input rest (frame :: stack)
  | value {type : UInt8} {text rest : Bytes} {stack stack' : List ArrayFrame} {v : RespValue} :
      Reached input (type :: text) stack → readItem type text = .value v rest →
      processStack stack v = (stack', none) → Reached input rest stack'

/-- Every frame the loop comes to is open. -/
theorem Reached.forall_open {input text : Bytes} {stack : List ArrayFrame}
    (h : Reached input text stack) : ∀ frame ∈ stack, frame.Open := by
  induction h with
  | start => simp
  | @opened type text rest stack frame _ hitem ih =>
      have hsound := readItem_sound type text
      rw [hitem] at hsound
      intro f hf
      rcases List.mem_cons.mp hf with rfl | hf
      · exact hsound.1
      · exact ih f hf
  | @value type text rest stack stack' v _ hitem hstack ih =>
      have hsound := readItem_sound type text
      rw [hitem] at hsound
      rcases processStack_spec ih hsound.1 with ⟨out, hout, -⟩ | ⟨left, hleft, hopen, -⟩
      · rw [hout] at hstack
        simp at hstack
      · rw [hleft] at hstack
        simp only [Prod.mk.injEq, and_true] at hstack
        rwa [hstack] at hopen

/-- In every turn of the loop, every frame on the stack has elements left. -/
theorem Reached.remaining_pos {input text : Bytes} {stack : List ArrayFrame}
    (h : Reached input text stack) : ∀ frame ∈ stack, 0 < frame.remaining :=
  fun frame hf => (h.forall_open frame hf).remaining_pos

/-! ## The number of values still missing -/

/-- The number of values that complete the outermost one: an array under construction
is itself one of the elements its outer array waits for. -/
def wanted (stack : List ArrayFrame) : Nat :=
  1 + (stack.map fun frame => frame.remaining.toNat - 1).sum

/-- Without an open array one value is missing. -/
@[simp]
theorem wanted_nil : wanted [] = 1 := by
  rfl

/-- An opened array asks for its elements instead of itself. -/
theorem wanted_cons (frame : ArrayFrame) (stack : List ArrayFrame) :
    wanted (frame :: stack) = frame.remaining.toNat - 1 + wanted stack := by
  simp only [wanted, List.map_cons, List.sum_cons]
  omega

/-- A complete value is one that was missing. -/
theorem wanted_processStack {stack : List ArrayFrame} (hstack : ∀ f ∈ stack, 0 < f.remaining)
    (v : RespValue) :
    (∃ outermost, processStack stack v = ([], some outermost) ∧ wanted stack = 1) ∨
      (∃ stack', processStack stack v = (stack', none) ∧ (∀ f ∈ stack', 0 < f.remaining) ∧
        wanted stack = wanted stack' + 1) := by
  induction stack generalizing v with
  | nil => exact .inl ⟨v, rfl, rfl⟩
  | cons frame stack ih =>
      have hpos := hstack frame (by simp)
      have htail : ∀ f ∈ stack, 0 < f.remaining := fun f hf => hstack f (by simp [hf])
      have hremaining : (frame.push v).remaining = frame.remaining - 1 := rfl
      by_cases hlast : (frame.push v).remaining = 0
      · have hsame : wanted (frame :: stack) = wanted stack := by
          rw [wanted_cons]
          omega
        simp only [processStack, hlast, if_true, hsame]
        exact ih htail _
      · right
        refine ⟨frame.push v :: stack, by simp [processStack, hlast], ?_, ?_⟩
        · intro f hf
          rcases List.mem_cons.mp hf with rfl | hf
          · omega
          · exact htail f hf
        · rw [wanted_cons, wanted_cons]
          omega

/-! ## Items as text -/

/-- The text of a value that is complete by itself, as the parser reads it: text
behind the digits of a number, and the two bytes behind a payload, are arbitrary. -/
inductive ValueText : Bytes → Prop where
  | line {type : UInt8} {line : Bytes} : type = 43 ∨ type = 58 → NoCrlf line →
      ValueText (type :: (line ++ crlf))
  | bulkString {line payload terminator : Bytes} : NoCrlf line →
      parseInt line = some (payload.length : Int) → ¬ payloadMax < payload.length →
      terminator.length = 2 →
      ValueText (36 :: (line ++ (crlf ++ (payload ++ terminator))))
  | null {line : Bytes} {length : Int} : NoCrlf line → parseInt line = some length →
      length < 0 → ValueText (36 :: (line ++ crlf))
  | shortArray {line : Bytes} {count : Int} : NoCrlf line → parseInt line = some count →
      count = -1 ∨ count = 0 → ValueText (42 :: (line ++ crlf))

/-- The text of a value is read as a value, whatever follows. -/
theorem ValueText.parseLoop_eq {item : Bytes} (h : ValueText item) :
    ∃ v, ∀ rest stack, parseLoop (item ++ rest) stack = resume stack v rest := by
  cases h with
  | @line type line htype hline =>
      refine ⟨⟨if type = 58 then .integer else .simpleString, line, []⟩, fun rest stack => ?_⟩
      rw [List.cons_append, List.append_assoc, parseLoop_cons]
      rcases htype with rfl | rfl <;>
        simp [readItem, parseSimpleString, parseInteger, parseLine, readLine_append_crlf hline]
  | @bulkString line payload terminator hline hlength hshort htwo =>
      refine ⟨.bulkString payload, fun rest stack => ?_⟩
      rw [List.cons_append, parseLoop_cons]
      simp only [List.append_assoc, readItem_payload hline hlength htwo, if_neg hshort]
  | @null line length hline hlength hneg =>
      refine ⟨.null, fun rest stack => ?_⟩
      rw [List.cons_append, List.append_assoc, parseLoop_cons]
      simp [readItem, parseBulkString, readLine_append_crlf hline, hlength, hneg]
  | @shortArray line count hline hcount hshort =>
      refine ⟨if count = -1 then .null else .array [], fun rest stack => ?_⟩
      rw [List.cons_append, List.append_assoc, parseLoop_cons]
      rcases hshort with rfl | rfl <;>
        simp [readItem, handleArrayHeader, readLine_append_crlf hline, hcount]

/-- A header with a positive count opens a frame. -/
theorem parseLoop_header {line : Bytes} {count : Int} (hline : NoCrlf line)
    (hcount : parseInt line = some count) (hpos : 0 < count) (rest : Bytes)
    (stack : List ArrayFrame) :
    parseLoop (42 :: (line ++ (crlf ++ rest))) stack =
      parseLoop rest (⟨.array [], count⟩ :: stack) := by
  have hnull : ¬ count = -1 := by omega
  have hempty : ¬ count = 0 := by omega
  have hneg : ¬ count < 0 := by omega
  rw [parseLoop_cons]
  simp [readItem, handleArrayHeader, readLine_append_crlf hline, hcount, hnull, hempty, hneg]

/-- A header with a count below -1 throws. -/
theorem parseLoop_negative {line : Bytes} {count : Int} (hline : NoCrlf line)
    (hcount : parseInt line = some count) (hneg : count < -1) (rest : Bytes)
    (stack : List ArrayFrame) : parseLoop (42 :: (line ++ (crlf ++ rest))) stack = .throws := by
  have hnull : ¬ count = -1 := by omega
  have hempty : ¬ count = 0 := by omega
  have hneg' : count < 0 := by omega
  rw [parseLoop_cons]
  simp [readItem, handleArrayHeader, readLine_append_crlf hline, hcount, hnull, hempty, hneg']

/-- What a header is read as. -/
theorem handleArrayHeader_cases {text : Bytes} {item : Item} (h : handleArrayHeader text = item) :
    item = .failed ∨ ∃ line rest count, text = line ++ (crlf ++ rest) ∧ NoCrlf line ∧
      parseInt line = some count ∧
      ((count < -1 ∧ item = .throws) ∨ (count = -1 ∧ item = .value .null rest) ∨
        (count = 0 ∧ item = .value (.array []) rest) ∨
        (0 < count ∧ item = .opened ⟨.array [], count⟩ rest)) := by
  unfold handleArrayHeader at h
  split at h
  · exact .inl h.symm
  · rename_i line rest hline
    rcases readLine_eq_some hline with ⟨htext, hno⟩
    split at h
    · exact .inl h.symm
    · rename_i count hcount
      refine .inr ⟨line, rest, count, htext, hno, hcount, ?_⟩
      split_ifs at h with hnull hempty hneg
      · exact .inr (.inl ⟨hnull, h.symm⟩)
      · exact .inr (.inr (.inl ⟨hempty, h.symm⟩))
      · exact .inl ⟨by omega, h.symm⟩
      · exact .inr (.inr (.inr ⟨by omega, h.symm⟩))

/-- A line value has the text of a value. -/
theorem valueText_of_parseLine {type : UInt8} (htype : type = 43 ∨ type = 58)
    {kind : RespType} {text rest : Bytes} {v : RespValue}
    (h : parseLine kind text = .value v rest) :
    ∃ item, ValueText item ∧ type :: text = item ++ rest := by
  unfold parseLine at h
  split at h
  · contradiction
  · rename_i line tail hline
    rcases readLine_eq_some hline with ⟨rfl, hno⟩
    cases h
    exact ⟨_, .line htype hno, by simp⟩

/-- What a bulk string is read as. -/
theorem parseBulkString_cases {text : Bytes} {item : Item} (h : parseBulkString text = item) :
    item = .failed ∨ ∃ line tail length, text = line ++ (crlf ++ tail) ∧ NoCrlf line ∧
      parseInt line = some length ∧
      ((length < 0 ∧ item = .value .null tail) ∨
        ∃ payload terminator rest, length = (payload.length : Int) ∧
          tail = payload ++ (terminator ++ rest) ∧ terminator.length = 2 ∧
          item = if payloadMax < payload.length then .overflowed (.bulkString payload) rest
            else .value (.bulkString payload) rest) := by
  unfold parseBulkString at h
  split at h
  · exact .inl h.symm
  · rename_i line tail hline
    rcases readLine_eq_some hline with ⟨htext, hno⟩
    split at h
    · exact .inl h.symm
    · rename_i length hlength
      by_cases hneg : length < 0
      · rw [if_pos hneg] at h
        exact .inr ⟨line, tail, length, htext, hno, hlength, .inl ⟨hneg, h.symm⟩⟩
      · by_cases hshort : tail.length < length.toNat + 2
        · rw [if_neg hneg, if_pos hshort] at h
          exact .inl h.symm
        · rw [if_neg hneg, if_neg hshort] at h
          have htake : (tail.take length.toNat).length = length.toNat := by
            rw [List.length_take]
            omega
          have hsplit : tail = tail.take length.toNat ++
              ((tail.drop length.toNat).take 2 ++ tail.drop (length.toNat + 2)) := by
            rw [← List.drop_drop, List.take_append_drop, List.take_append_drop]
          have hbound : intMax < length + 2 ↔ payloadMax < (tail.take length.toNat).length := by
            rw [htake, Int.toNat_of_nonneg (by omega)]
            unfold payloadMax
            omega
          refine .inr ⟨line, tail, length, htext, hno, hlength, .inr ⟨_, _, _, ?_, hsplit, ?_, ?_⟩⟩
          · rw [htake, Int.toNat_of_nonneg (by omega)]
          · rw [List.length_take, List.length_drop]
            omega
          · rw [← h]
            simp only [hbound]

/-- A bulk string has the text of a value. -/
theorem valueText_of_parseBulkString {text rest : Bytes} {v : RespValue}
    (h : parseBulkString text = .value v rest) :
    ∃ item, ValueText item ∧ 36 :: text = item ++ rest := by
  rcases parseBulkString_cases h with
    hfailed | ⟨line, tail, length, rfl, hno, hlength, hcases⟩
  · contradiction
  · rcases hcases with ⟨hneg, heq⟩ | ⟨payload, terminator, rest', rfl, rfl, htwo, heq⟩
    · cases heq
      exact ⟨_, .null hno hlength hneg, by simp⟩
    · split_ifs at heq with hover
      cases heq
      exact ⟨_, .bulkString hno hlength hover htwo, by simp⟩

/-- A value that was read has the text of a value. -/
theorem valueText_of_readItem {type : UInt8} {text rest : Bytes} {v : RespValue}
    (h : readItem type text = .value v rest) :
    ∃ item, ValueText item ∧ type :: text = item ++ rest := by
  unfold readItem at h
  split_ifs at h with harray hinteger hbulk hsimple
  · rcases handleArrayHeader_cases h with
      hfailed | ⟨line, rest', count, rfl, hno, hcount, hcases⟩
    · contradiction
    · have hshort : (count = -1 ∨ count = 0) ∧ rest' = rest := by
        rcases hcases with ⟨-, heq⟩ | ⟨hnull, heq⟩ | ⟨hempty, heq⟩ | ⟨-, heq⟩
        · contradiction
        · cases heq
          exact ⟨.inl hnull, rfl⟩
        · cases heq
          exact ⟨.inr hempty, rfl⟩
        · contradiction
      rcases hshort with ⟨hshort, rfl⟩
      exact ⟨_, .shortArray hno hcount hshort, by simp [harray]⟩
  · exact valueText_of_parseLine (.inr hinteger) h
  · rw [hbulk]
    exact valueText_of_parseBulkString h
  · exact valueText_of_parseLine (.inl hsimple) h

/-- What is not a value comes from a header. -/
theorem header_of_readItem {type : UInt8} {text : Bytes} {item : Item}
    (h : readItem type text = item) (hne : item ≠ .failed)
    (hvalue : ∀ v rest, item ≠ .value v rest) (hover : ∀ v rest, item ≠ .overflowed v rest) :
    type = 42 ∧ handleArrayHeader text = item := by
  unfold readItem at h
  split_ifs at h with harray hinteger hbulk hsimple
  · exact ⟨harray, h⟩
  · unfold parseInteger parseLine at h
    split at h
    · exact absurd h.symm hne
    · exact absurd h.symm (hvalue _ _)
  · rcases parseBulkString_cases h with
      hfailed | ⟨line, tail, length, -, -, -, ⟨-, heq⟩ | ⟨payload, -, rest, -, -, -, heq⟩⟩
    · exact absurd hfailed hne
    · exact absurd heq (hvalue _ _)
    · split_ifs at heq
      · exact absurd heq (hover _ _)
      · exact absurd heq (hvalue _ _)
  · unfold parseSimpleString parseLine at h
    split at h
    · exact absurd h.symm hne
    · exact absurd h.symm (hvalue _ _)
  · exact absurd h.symm hne

/-- Only an array header with a positive count opens an array. -/
theorem opened_of_readItem {type : UInt8} {text rest : Bytes} {frame : ArrayFrame}
    (h : readItem type text = .opened frame rest) :
    type = 42 ∧ ∃ line count, text = line ++ (crlf ++ rest) ∧ NoCrlf line ∧
      parseInt line = some count ∧ 0 < count ∧ frame = ⟨.array [], count⟩ := by
  rcases header_of_readItem h (by simp) (by simp) (by simp) with ⟨htype, hheader⟩
  rcases handleArrayHeader_cases hheader with
    hfailed | ⟨line, rest', count, htext, hno, hcount, hcases⟩
  · contradiction
  · rcases hcases with ⟨-, heq⟩ | ⟨-, heq⟩ | ⟨-, heq⟩ | ⟨hpos, heq⟩
    · contradiction
    · contradiction
    · contradiction
    · cases heq
      exact ⟨htype, line, count, htext, hno, hcount, hpos, rfl⟩

/-! ## Where the loop stops -/

/-- The text has a place of the given kind where one of the given number of values is
expected. -/
inductive Expects (place : Bytes → Prop) : Nat → Bytes → Prop where
  | here {n : Nat} {text : Bytes} : place text → Expects place (n + 1) text
  | header {n : Nat} {line rest : Bytes} {count : Int} : NoCrlf line →
      parseInt line = some count → 0 < count → Expects place (n + count.toNat) rest →
      Expects place (n + 1) (42 :: (line ++ (crlf ++ rest)))
  | value {n : Nat} {item rest : Bytes} : ValueText item → Expects place n rest →
      Expects place (n + 1) (item ++ rest)

/-- An array header with a count below -1. -/
inductive NegativeHeader : Bytes → Prop where
  | mk {line rest : Bytes} {count : Int} : NoCrlf line → parseInt line = some count →
      count < -1 → NegativeHeader (42 :: (line ++ (crlf ++ rest)))

/-- A bulk string with more than {lit}`INT_MAX - 2` bytes. -/
inductive LongBulk : Bytes → Prop where
  | mk {line payload terminator rest : Bytes} : NoCrlf line →
      parseInt line = some (payload.length : Int) → payloadMax < payload.length →
      terminator.length = 2 →
      LongBulk (36 :: (line ++ (crlf ++ (payload ++ (terminator ++ rest)))))

/-- The text has an array header with a count below -1 at a place where one of the
given number of values is expected. -/
abbrev NegativeCount : Nat → Bytes → Prop :=
  Expects NegativeHeader

/-- The text has a bulk string of more than {lit}`INT_MAX - 2` bytes at a place where one
of the given number of values is expected. -/
abbrev Overlong : Nat → Bytes → Prop :=
  Expects LongBulk

/-- Some value is always missing. -/
theorem exists_wanted_eq_succ (stack : List ArrayFrame) : ∃ n, wanted stack = n + 1 :=
  ⟨_, Nat.add_comm 1 _⟩

section Stops

variable {Stop : ParseResult → Prop} {place : Bytes → Prop}

/-- If the loop stops in some way, it has come to a place of the kind at which it does. -/
theorem expects_of_stop (hnullopt : ¬ Stop .nullopt) (hvalue : ∀ v rest, ¬ Stop (.value v rest))
    (hthrows : ∀ {type : UInt8} {text : Bytes}, readItem type text = .throws → Stop .throws →
      place (type :: text))
    (hoverflowed : ∀ {type : UInt8} {text rest : Bytes} {v : RespValue} {outermost},
      readItem type text = .overflowed v rest → Stop (.overflowed outermost rest) →
      place (type :: text))
    {input : Bytes} {stack : List ArrayFrame} (hstack : ∀ f ∈ stack, 0 < f.remaining)
    (h : Stop (parseLoop input stack)) : Expects place (wanted stack) input := by
  induction input, stack using parseLoop.induct with
  | case1 stack => exact absurd h (by rwa [parseLoop_nil])
  | case2 stack type input hitem =>
      simp only [parseLoop_cons, hitem] at h
      exact absurd h hnullopt
  | case3 stack type input hitem =>
      simp only [parseLoop_cons, hitem] at h
      rcases exists_wanted_eq_succ stack with ⟨n, hn⟩
      rw [hn]
      exact .here (hthrows hitem h)
  | case4 stack type input frame rest hitem ih =>
      rcases opened_of_readItem hitem with ⟨rfl, line, count, rfl, hno, hcount, hpos, rfl⟩
      rw [parseLoop_header hno hcount hpos] at h
      have hopen : ∀ f ∈ (⟨.array [], count⟩ : ArrayFrame) :: stack, 0 < f.remaining := by
        intro f hf
        rcases List.mem_cons.mp hf with rfl | hf
        · exact hpos
        · exact hstack f hf
      have hrest := ih hopen h
      rcases exists_wanted_eq_succ stack with ⟨n, hn⟩
      have hcounts : wanted (⟨.array [], count⟩ :: stack) = n + count.toNat := by
        rw [wanted_cons, hn]
        simp only
        omega
      rw [hcounts] at hrest
      rw [hn]
      exact .header hno hcount hpos hrest
  | case5 stack type input v rest hitem stack' outermost hout =>
      simp only [parseLoop_cons, hitem, resume, hout] at h
      exact absurd h (hvalue _ _)
  | case6 stack type input v rest hitem stack' hout ih =>
      simp only [parseLoop_cons, hitem, resume, hout] at h
      rcases valueText_of_readItem hitem with ⟨item, hvalue, htext⟩
      rcases wanted_processStack hstack v with ⟨out, heq, -⟩ | ⟨left, heq, hopen, hwanted⟩
      · rw [heq] at hout
        simp at hout
      · rw [heq] at hout
        simp only [Prod.mk.injEq, and_true] at hout
        subst hout
        rw [htext, hwanted]
        exact .value hvalue (ih hopen h)
  | case7 stack type input v rest hitem =>
      simp only [parseLoop_cons, hitem] at h
      rcases exists_wanted_eq_succ stack with ⟨n, hn⟩
      rw [hn]
      exact .here (hoverflowed hitem h)

/-- At a place of the kind the loop stops. -/
theorem stop_of_expects (hplace : ∀ {text : Bytes}, place text → ∀ stack, Stop (parseLoop text stack))
    {n : Nat} {input : Bytes} (h : Expects place n input)
    {stack : List ArrayFrame} (hstack : ∀ f ∈ stack, 0 < f.remaining) (hn : n = wanted stack) :
    Stop (parseLoop input stack) := by
  induction h generalizing stack with
  | here h => exact hplace h stack
  | @header n line rest count hno hcount hpos _ ih =>
      rw [parseLoop_header hno hcount hpos]
      apply ih
      · intro f hf
        rcases List.mem_cons.mp hf with rfl | hf
        · exact hpos
        · exact hstack f hf
      · rw [wanted_cons, ← hn]
        simp only
        omega
  | @value n item rest hvalue hrest ih =>
      rcases hvalue.parseLoop_eq with ⟨v, hv⟩
      rw [hv, resume]
      rcases wanted_processStack hstack v with ⟨out, -, hwanted⟩ | ⟨left, heq, hopen, hwanted⟩
      · -- the outermost value would be complete, but another value is expected
        have hzero : n = 0 := by omega
        subst hzero
        cases hrest
      · rw [heq]
        exact ih hopen (by omega)

end Stops

/-- Only an array header throws, at a count below -1. -/
theorem negativeHeader_of_readItem {type : UInt8} {text : Bytes}
    (h : readItem type text = .throws) : NegativeHeader (type :: text) := by
  rcases header_of_readItem h (by simp) (by simp) (by simp) with ⟨rfl, hheader⟩
  rcases handleArrayHeader_cases hheader with
    hfailed | ⟨line, rest, count, rfl, hno, hcount, hcases⟩
  · contradiction
  · rcases hcases with ⟨hneg, -⟩ | ⟨-, heq⟩ | ⟨-, heq⟩ | ⟨-, heq⟩
    · exact .mk hno hcount hneg
    · contradiction
    · contradiction
    · contradiction

/-- Only a bulk string makes the position overflow. -/
theorem longBulk_of_readItem {type : UInt8} {text rest : Bytes} {v : RespValue}
    (h : readItem type text = .overflowed v rest) : LongBulk (type :: text) := by
  unfold readItem at h
  split_ifs at h with harray hinteger hbulk hsimple
  · rcases handleArrayHeader_cases h with hfailed | ⟨line, rest', count, -, -, -, hcases⟩
    · contradiction
    · rcases hcases with ⟨-, heq⟩ | ⟨-, heq⟩ | ⟨-, heq⟩ | ⟨-, heq⟩ <;> contradiction
  · unfold parseInteger parseLine at h
    split at h <;> contradiction
  · rw [hbulk]
    rcases parseBulkString_cases h with
      hfailed | ⟨line, tail, length, rfl, hno, hlength, hcases⟩
    · contradiction
    · rcases hcases with ⟨-, heq⟩ | ⟨payload, terminator, rest', rfl, rfl, htwo, heq⟩
      · contradiction
      · split_ifs at heq with hover
        exact .mk hno hlength hover htwo
  · unfold parseSimpleString parseLine at h
    split at h <;> contradiction

/-- The loop throws exactly at a count below -1. -/
theorem parseLoop_throws_iff {input : Bytes} {stack : List ArrayFrame}
    (hstack : ∀ f ∈ stack, 0 < f.remaining) :
    parseLoop input stack = .throws ↔ NegativeCount (wanted stack) input := by
  constructor
  · intro h
    refine @expects_of_stop (· = .throws) NegativeHeader (by simp) (by simp) ?_ ?_ input stack
      hstack h
    · intro type text hitem _
      exact negativeHeader_of_readItem hitem
    · intro type text rest v outermost _ hstop
      contradiction
  · intro h
    refine @stop_of_expects (· = .throws) NegativeHeader ?_ _ input h stack hstack rfl
    rintro text ⟨hno, hcount, hneg⟩ stack
    exact parseLoop_negative hno hcount hneg _ _

/-- The position overflows exactly behind a payload that is too long. -/
theorem parseLoop_overflowed_iff {input : Bytes} {stack : List ArrayFrame}
    (hstack : ∀ f ∈ stack, 0 < f.remaining) :
    (∃ outermost rest, parseLoop input stack = .overflowed outermost rest) ↔
      Overlong (wanted stack) input := by
  constructor
  · intro h
    refine @expects_of_stop (fun result => ∃ outermost rest, result = .overflowed outermost rest)
      LongBulk (by simp) (by simp) ?_ ?_ input stack hstack h
    · intro type text _ hstop
      simp at hstop
    · intro type text rest v outermost hitem _
      exact longBulk_of_readItem hitem
  · intro h
    refine @stop_of_expects (fun result => ∃ outermost rest, result = .overflowed outermost rest)
      LongBulk ?_ _ input h stack hstack rfl
    rintro text ⟨hno, hlength, hover, htwo⟩ stack
    rw [parseLoop_cons, readItem_payload hno hlength htwo, if_pos hover]
    exact ⟨_, _, rfl⟩

/-- Where the position overflows, the parse has no result. -/
theorem parse_of_overlong {input : Bytes} (h : Overlong 1 input) :
    parse input = .error .signedOverflow := by
  rcases (@parseLoop_overflowed_iff input [] (by simp)).mpr h with ⟨outermost, rest, hloop⟩
  simp [parse, hloop]

/-- Parsing untrusted bytes: for every input, the parser returns a value or
{lit}`std::nullopt` exactly if, where a value is expected, there is no array header with
a count below -1 and no bulk string of more than {lit}`INT_MAX - 2` bytes; in every turn
of its loop every frame on the stack has elements left; and on success it has consumed
at least one byte and at most the input. -/
theorem parse_total_iff (input : Bytes) :
    ((∃ result, parse input = .ok result) ↔ ¬ NegativeCount 1 input ∧ ¬ Overlong 1 input) ∧
      (∀ text stack, Reached input text stack → ∀ frame ∈ stack, 0 < frame.remaining) ∧
      ∀ v consumed, parse input = .ok (some (v, consumed)) →
        0 < consumed ∧ consumed ≤ input.length := by
  refine ⟨?_, fun text stack h => h.remaining_pos, fun v consumed h => ?_⟩
  · have hthrows : NegativeCount 1 input ↔ parseLoop input [] = .throws :=
      (@parseLoop_throws_iff input [] (by simp)).symm
    have hoverflows : Overlong 1 input ↔ ∃ o rest, parseLoop input [] = .overflowed o rest :=
      (@parseLoop_overflowed_iff input [] (by simp)).symm
    rw [hthrows, hoverflows]
    unfold parse
    cases parseLoop input [] <;> simp
  · exact ⟨parse_consumed_pos h, parse_consumed_le h⟩

/-- The header {lit}`*-2` throws. -/
theorem parse_negative_count : parse (ascii "*-2\r\n") = .error .lengthError := by
  decide +kernel

end RedisClone
