import RedisClone.Resp.RoundTrip

/-!
# Values returned by the parser

Every value the parser returns is well formed, so it can be serialized and
parsed again without loss.  The canonical encoding of a parsed value is never
longer than the bytes it was parsed from: the parser tolerates padded numbers,
but nothing shorter than the canonical form.

Main results:

- Theorem {lit}`parse_wellFormed`: every parsed value is well formed.
- Theorem {lit}`length_serialize_le_of_parse`: re-encoding a parsed value takes
  at most the bytes that were consumed for it.
- Theorem {lit}`parse_consumed_pos` and {lit}`parse_consumed_le`: a successful
  parse consumes at least one byte and at most its input.
- Theorem {lit}`resp_round_trip_iff`: serialized values delimit themselves up to the
  longest payload, and what was parsed survives being written and parsed again.
-/

namespace RedisClone

open RespValue

/-! ## Frames with room left -/

/-- A frame of the parser stack: an array whose elements so far are well formed
and which waits for at least one more. -/
structure ArrayFrame.Open (frame : ArrayFrame) : Prop where
  type_eq : frame.value.type = .array
  str_eq : frame.value.str = []
  elements_wf : ∀ e ∈ frame.value.elements, WellFormed e
  remaining_pos : 0 < frame.remaining
  count_le : frame.value.elements.length + frame.remaining ≤ intMax

/-- Bytes that the canonical encoding of a frame takes so far: its header and
its elements. -/
def ArrayFrame.cost (frame : ArrayFrame) : Nat :=
  3 + (Decimal.render (frame.value.elements.length + frame.remaining.toNat)).length +
    (frame.value.elements.flatMap serialize).length

/-- Bytes that the canonical encoding of all open arrays takes so far. -/
def stackCost (stack : List ArrayFrame) : Nat :=
  (stack.map ArrayFrame.cost).sum

/-- Length of the encoding of an array. -/
theorem length_serialize_array (elements : List RespValue) :
    (serialize (.array elements)).length =
      3 + (Decimal.render elements.length).length + (elements.flatMap serialize).length := by
  simp only [RespValue.array, serialize_array, List.length_cons, List.length_append, crlf,
    List.length_nil]
  omega

/-- Pushing an element onto a frame pays for its encoding. -/
theorem ArrayFrame.cost_push {frame : ArrayFrame} (hopen : frame.Open) (v : RespValue) :
    (frame.push v).cost = frame.cost + (serialize v).length := by
  have hpos := hopen.remaining_pos
  have hcount : frame.value.elements.length + 1 + (frame.remaining - 1).toNat =
      frame.value.elements.length + frame.remaining.toNat := by omega
  simp only [ArrayFrame.push, ArrayFrame.cost, List.length_append, List.length_singleton, hcount,
    List.flatMap_append, List.flatMap_singleton]
  omega

/-- The array of a frame, once its last element has been pushed. -/
theorem ArrayFrame.push_complete {frame : ArrayFrame} (hopen : frame.Open) {v : RespValue}
    (hv : WellFormed v) (hlast : (frame.push v).remaining = 0) :
    WellFormed (frame.push v).value ∧
      (serialize (frame.push v).value).length = frame.cost + (serialize v).length := by
  have hcost := ArrayFrame.cost_push hopen v
  have hvalue : (frame.push v).value = .array (frame.value.elements ++ [v]) := by
    simp [ArrayFrame.push, RespValue.array, hopen.type_eq, hopen.str_eq]
  have hremaining : frame.remaining = 1 := by
    simp only [ArrayFrame.push] at hlast
    omega
  have hcount := hopen.count_le
  constructor
  · rw [hvalue]
    refine .array (by simp; omega) ?_
    intro e he
    rcases List.mem_append.mp he with he | he
    · exact hopen.elements_wf e he
    · rw [List.mem_singleton.mp he]
      exact hv
  · rw [← hcost, ArrayFrame.cost, hlast, hvalue, length_serialize_array]
    simp [RespValue.array]

/-- A frame that still waits for elements after a push stays open. -/
theorem ArrayFrame.push_open {frame : ArrayFrame} (hopen : frame.Open) {v : RespValue}
    (hv : WellFormed v) (hmore : (frame.push v).remaining ≠ 0) : (frame.push v).Open := by
  have hpos := hopen.remaining_pos
  have hcount := hopen.count_le
  refine ⟨hopen.type_eq, hopen.str_eq, ?_, ?_, ?_⟩
  · intro e he
    rcases List.mem_append.mp he with he | he
    · exact hopen.elements_wf e he
    · rw [List.mem_singleton.mp he]
      exact hv
  · simp only [ArrayFrame.push] at hmore ⊢
    omega
  · simp only [ArrayFrame.push, List.length_append, List.length_singleton]
    push_cast
    omega

/-! ## One turn of the loop -/

/-- What {lit}`process_stack` keeps: either all arrays are complete and the
outermost is returned, or every frame left is open. -/
theorem processStack_spec {stack : List ArrayFrame} (hstack : ∀ f ∈ stack, f.Open)
    {v : RespValue} (hv : WellFormed v) :
    (∃ outermost, processStack stack v = ([], some outermost) ∧ WellFormed outermost ∧
        (serialize outermost).length = stackCost stack + (serialize v).length) ∨
      (∃ stack', processStack stack v = (stack', none) ∧ (∀ f ∈ stack', f.Open) ∧
        stackCost stack' = stackCost stack + (serialize v).length) := by
  induction stack generalizing v with
  | nil => exact .inl ⟨v, rfl, hv, by simp [stackCost]⟩
  | cons frame stack ih =>
      have hopen := hstack frame (by simp)
      have htail : ∀ f ∈ stack, f.Open := fun f hf => hstack f (by simp [hf])
      by_cases hlast : (frame.push v).remaining = 0
      · rcases ArrayFrame.push_complete hopen hv hlast with ⟨hwf, hlen⟩
        have hstep : processStack (frame :: stack) v = processStack stack (frame.push v).value := by
          simp [processStack, hlast]
        rw [hstep]
        have hsum : stackCost (frame :: stack) + (serialize v).length =
            stackCost stack + (serialize (frame.push v).value).length := by
          simp only [stackCost, List.map_cons, List.sum_cons, hlen]
          omega
        rw [hsum]
        exact ih htail hwf
      · refine .inr ⟨frame.push v :: stack, by simp [processStack, hlast], ?_, ?_⟩
        · intro f hf
          rcases List.mem_cons.mp hf with rfl | hf
          · exact ArrayFrame.push_open hopen hv hlast
          · exact htail f hf
        · simp only [stackCost, List.map_cons, List.sum_cons, ArrayFrame.cost_push hopen]
          omega

/-- What an item guarantees: a value is well formed, an opened array waits for
its elements, and neither is cheaper to encode than it was to read. -/
def Item.Sound (input : Bytes) : Item → Prop
  | .value v rest => WellFormed v ∧ (serialize v).length + rest.length ≤ input.length + 1
  | .opened frame rest => frame.Open ∧ frame.cost + rest.length ≤ input.length + 1
  | .failed => True
  | .throws => True
  | .overflowed _ _ => True

/-- A number read from a line is no longer than the line. -/
theorem length_render_le_of_parseInt {line : Bytes} {n : Int} (h : parseInt line = some n) :
    (Decimal.renderInt n).length ≤ line.length ∧ n ≤ intMax := by
  simp only [parseInt, fromCharsInt, Option.map_eq_some_iff, Prod.exists] at h
  rcases h with ⟨m, rest, hread, rfl⟩
  rcases length_render_le_of_fromChars hread with ⟨hlen, -, hhi⟩
  exact ⟨by omega, hhi⟩

/-- A negative number takes a dash and a digit. -/
theorem two_le_length_renderInt {n : Int} (hn : n < 0) : 2 ≤ (Decimal.renderInt n).length := by
  rcases Decimal.exists_cons_render n.natAbs with ⟨b, bs, hb, -⟩
  simp [Decimal.renderInt, hn, hb]

/-- The numeral of a nonnegative number has no dash. -/
theorem renderInt_of_nonneg {n : Int} (hn : 0 ≤ n) :
    Decimal.renderInt n = Decimal.render n.toNat := by
  have hneg : ¬ n < 0 := by omega
  have habs : n.natAbs = n.toNat := by omega
  simp [Decimal.renderInt, hneg, habs]

/-- The encoding of null takes five bytes. -/
theorem length_serialize_null : (serialize .null).length = 5 := by
  decide

/-- Array headers are sound. -/
theorem handleArrayHeader_sound (input : Bytes) : (handleArrayHeader input).Sound input := by
  unfold handleArrayHeader
  split
  · trivial
  · rename_i line rest hline
    have hlen := readLine_length hline
    split
    · trivial
    · rename_i count hcount
      rcases length_render_le_of_parseInt hcount with ⟨hnum, hmax⟩
      split_ifs with hnull hempty hneg
      · have := @two_le_length_renderInt count (by omega)
        exact ⟨.null, by rw [length_serialize_null]; omega⟩
      · refine ⟨.array (by simp; decide) (by simp), ?_⟩
        rw [length_serialize_array]
        rw [hempty] at hnum
        have hzero : (Decimal.render 0).length = 1 := by decide
        have hzeroInt : (Decimal.renderInt 0).length = 1 := by decide
        simp only [List.length_nil, List.flatMap_nil, hzero]
        omega
      · trivial
      · have hpos : 0 < count := by omega
        rw [renderInt_of_nonneg (by omega)] at hnum
        refine ⟨⟨rfl, rfl, by simp [RespValue.array], hpos, by simpa [RespValue.array] using hmax⟩, ?_⟩
        simp only [ArrayFrame.cost, RespValue.array, List.length_nil, List.flatMap_nil, Nat.zero_add]
        omega

/-- Line values are sound, for the two types that are lines. -/
theorem parseLine_sound {type : RespType} (htype : type = .simpleString ∨ type = .integer)
    (input : Bytes) : (parseLine type input).Sound input := by
  unfold parseLine
  split
  · trivial
  · rename_i line rest hline
    have hlen := readLine_length hline
    have hno := (readLine_eq_some hline).2
    rcases htype with rfl | rfl
    · refine ⟨.simpleString hno, ?_⟩
      simp only [serialize, List.length_cons, List.length_append, crlf, List.length_nil]
      omega
    · refine ⟨.integer hno, ?_⟩
      simp only [serialize, List.length_cons, List.length_append, crlf, List.length_nil]
      omega

/-- Bulk strings are sound. -/
theorem parseBulkString_sound (input : Bytes) : (parseBulkString input).Sound input := by
  unfold parseBulkString
  split
  · trivial
  · rename_i line rest hline
    have hlen := readLine_length hline
    split
    · trivial
    · rename_i length hcount
      rcases length_render_le_of_parseInt hcount with ⟨hnum, hmax⟩
      split_ifs with hneg hshort hover
      · have := two_le_length_renderInt hneg
        exact ⟨.null, by rw [length_serialize_null]; omega⟩
      · trivial
      · trivial
      · rw [renderInt_of_nonneg (by omega)] at hnum
        have htake : (rest.take length.toNat).length = length.toNat := by
          rw [List.length_take]
          omega
        refine ⟨.bulkString (by rw [htake]; unfold payloadMax; omega), ?_⟩
        simp only [RespValue.bulkString, serialize, List.length_cons, List.length_append, crlf,
          List.length_nil, htake, List.length_drop]
        omega

/-- Every item of the loop is sound. -/
theorem readItem_sound (type : UInt8) (input : Bytes) : (readItem type input).Sound input := by
  unfold readItem
  split_ifs
  · exact handleArrayHeader_sound input
  · exact parseLine_sound (.inr rfl) input
  · exact parseBulkString_sound input
  · exact parseLine_sound (.inl rfl) input
  · trivial

/-! ## The whole loop -/

/-- The loop returns well-formed values, and never one whose encoding is longer
than what was read for it. -/
theorem parseLoop_sound {input : Bytes} {stack : List ArrayFrame} (hstack : ∀ f ∈ stack, f.Open)
    {v : RespValue} {rest : Bytes} (h : parseLoop input stack = .value v rest) :
    WellFormed v ∧ (serialize v).length + rest.length ≤ input.length + stackCost stack ∧
      rest.length < input.length := by
  induction input, stack using parseLoop.induct with
  | case1 stack => simp at h
  | case2 stack type input hitem => simp [parseLoop_cons, hitem] at h
  | case3 stack type input hitem => simp [parseLoop_cons, hitem] at h
  | case4 stack type input frame rest' hitem ih =>
      have hsound := readItem_sound type input
      have hle := readItem_length_le (by rw [hitem]; rfl : (readItem type input).rest? = some rest')
      rw [hitem] at hsound
      simp only [parseLoop_cons, hitem] at h
      have hopen : ∀ f ∈ frame :: stack, f.Open := by
        intro f hf
        rcases List.mem_cons.mp hf with rfl | hf
        · exact hsound.1
        · exact hstack f hf
      rcases ih hopen h with ⟨hwf, hlen, hlt⟩
      refine ⟨hwf, ?_, ?_⟩
      · have hcost := hsound.2
        simp only [stackCost, List.map_cons, List.sum_cons, List.length_cons] at hlen ⊢
        omega
      · simp only [List.length_cons]
        omega
  | case5 stack type input w rest' hitem stack' outermost hout =>
      have hsound := readItem_sound type input
      have hle := readItem_length_le (by rw [hitem]; rfl : (readItem type input).rest? = some rest')
      rw [hitem] at hsound
      simp only [parseLoop_cons, hitem, resume, hout, ParseResult.value.injEq] at h
      rcases h with ⟨rfl, rfl⟩
      rcases processStack_spec hstack hsound.1 with ⟨o, ho, hwf, hlen⟩ | ⟨s, hs, -⟩
      · rw [ho] at hout
        simp only [Prod.mk.injEq, Option.some.injEq] at hout
        rcases hout with ⟨-, rfl⟩
        have hcost := hsound.2
        refine ⟨hwf, ?_, ?_⟩ <;> simp only [List.length_cons] <;> omega
      · rw [hs] at hout
        simp at hout
  | case6 stack type input w rest' hitem stack' hout ih =>
      have hsound := readItem_sound type input
      have hle := readItem_length_le (by rw [hitem]; rfl : (readItem type input).rest? = some rest')
      rw [hitem] at hsound
      simp only [parseLoop_cons, hitem, resume, hout] at h
      rcases processStack_spec hstack hsound.1 with ⟨o, ho, -⟩ | ⟨s, hs, hopen, hcost⟩
      · rw [ho] at hout
        simp at hout
      · rw [hs] at hout
        simp only [Prod.mk.injEq, and_true] at hout
        subst hout
        rcases ih hopen h with ⟨hwf, hlen, hlt⟩
        have hitemCost := hsound.2
        refine ⟨hwf, ?_, ?_⟩ <;> simp only [List.length_cons] <;> omega
  | case7 stack type input w rest' hitem => simp [parseLoop_cons, hitem] at h

/-- What a successful parse says about the loop. -/
theorem parse_eq_some {input : Bytes} {v : RespValue} {consumed : Nat}
    (h : parse input = .ok (some (v, consumed))) :
    ∃ rest, parseLoop input [] = .value v rest ∧ consumed = input.length - rest.length := by
  unfold parse at h
  split at h
  · rename_i w rest hloop
    simp only [Except.ok.injEq, Option.some.injEq, Prod.mk.injEq] at h
    rcases h with ⟨rfl, rfl⟩
    exact ⟨rest, hloop, rfl⟩
  · simp at h
  · contradiction
  · contradiction

/-- Every parsed value is well formed. -/
theorem parse_wellFormed {input : Bytes} {v : RespValue} {consumed : Nat}
    (h : parse input = .ok (some (v, consumed))) : WellFormed v := by
  rcases parse_eq_some h with ⟨rest, hloop, -⟩
  exact (parseLoop_sound (by simp) hloop).1

/-- Re-encoding a parsed value takes at most the bytes consumed for it. -/
theorem length_serialize_le_of_parse {input : Bytes} {v : RespValue} {consumed : Nat}
    (h : parse input = .ok (some (v, consumed))) : (serialize v).length ≤ consumed := by
  rcases parse_eq_some h with ⟨rest, hloop, rfl⟩
  rcases parseLoop_sound (by simp) hloop with ⟨-, hlen, -⟩
  simp only [stackCost, List.map_nil, List.sum_nil] at hlen
  omega

/-- A successful parse consumes at most its input. -/
theorem parse_consumed_le {input : Bytes} {v : RespValue} {consumed : Nat}
    (h : parse input = .ok (some (v, consumed))) : consumed ≤ input.length := by
  rcases parse_eq_some h with ⟨rest, -, rfl⟩
  omega

/-- A successful parse consumes at least one byte. -/
theorem parse_consumed_pos {input : Bytes} {v : RespValue} {consumed : Nat}
    (h : parse input = .ok (some (v, consumed))) : 0 < consumed := by
  rcases parse_eq_some h with ⟨rest, hloop, rfl⟩
  have hlt := (parseLoop_sound (by simp) hloop).2.2
  omega

/-! ## The round trip -/

/-- A value of any depth whose lengths and counts fit in an {lit}`int` is parsed back
from its encoding, whatever follows it, with exactly its own bytes consumed, if and only
if no payload is longer than {lit}`INT_MAX - 2`; and every parsed value is of this kind,
so writing and parsing it again gives it back. -/
theorem resp_round_trip_iff (v : RespValue) :
    (WellFormedWithin intMax v → ∀ rest : Bytes,
      parse (serialize v ++ rest) = .ok (some (v, (serialize v).length)) ↔
        WellFormedWithin (intMax - 2) v) ∧
    ∀ (input : Bytes) (consumed : Nat),
      parse input = .ok (some (v, consumed)) →
        WellFormedWithin (intMax - 2) v ∧ ∀ rest : Bytes,
          parse (serialize v ++ rest) = .ok (some (v, (serialize v).length)) := by
  constructor
  · intro hv rest
    exact parse_serialize_iff hv rest
  · intro input consumed h
    have hv := parse_wellFormed h
    exact ⟨hv, parse_serialize hv⟩

/-- An array in an array whose texts hold line terminators and type bytes, with a
padded count, and bytes behind it. -/
theorem resp_round_trip_iff_nested :
    parse (ascii "*02\r\n$4\r\n\r\n*1\r\n*1\r\n+a\r\r\n:5") =
        .ok (some (.array [.bulkString (ascii "\r\n*1"), .array [⟨.simpleString, ascii "a\r", []⟩]],
          24)) ∧
      ∀ rest : Bytes,
        parse (serialize (.array [.bulkString (ascii "\r\n*1"),
          .array [⟨.simpleString, ascii "a\r", []⟩]]) ++ rest) =
        .ok (some (.array [.bulkString (ascii "\r\n*1"), .array [⟨.simpleString, ascii "a\r", []⟩]],
          (serialize (.array [.bulkString (ascii "\r\n*1"),
            .array [⟨.simpleString, ascii "a\r", []⟩]])).length)) := by
  have hparse : parse (ascii "*02\r\n$4\r\n\r\n*1\r\n*1\r\n+a\r\r\n:5") =
      .ok (some (.array [.bulkString (ascii "\r\n*1"),
        .array [⟨.simpleString, ascii "a\r", []⟩]], 24)) := by
    decide +kernel
  exact ⟨hparse, ((resp_round_trip_iff _).2 _ _ hparse).2⟩

/-- A payload of 2147483646 bytes, the shortest one that is too long. -/
@[irreducible]
def longPayload : Bytes :=
  List.replicate 2147483646 97

/-- Its length. -/
theorem length_longPayload : longPayload.length = 2147483646 := by
  unfold longPayload
  exact List.length_replicate

/-- The long payload is well formed as far as its length fits in an {lit}`int`. -/
theorem longPayload_fits : WellFormedWithin intMax (.bulkString longPayload) :=
  .bulkString (by rw [length_longPayload]; decide)

/-- The parser cannot step over the long payload. -/
theorem longPayload_not_wellFormed : ¬ WellFormed (.bulkString longPayload) := by
  intro h
  cases h with
  | bulkString h =>
      rw [length_longPayload] at h
      exact absurd h (by decide)

/-- The long payload, alone in a value, is not parsed back. -/
theorem resp_round_trip_long_payload :
    WellFormedWithin intMax (.bulkString longPayload) ∧
      parse (serialize (.bulkString longPayload) ++ []) ≠
        .ok (some (.bulkString longPayload, (serialize (.bulkString longPayload)).length)) :=
  ⟨longPayload_fits, fun h =>
    longPayload_not_wellFormed ((parse_serialize_iff longPayload_fits []).mp h)⟩

end RedisClone
