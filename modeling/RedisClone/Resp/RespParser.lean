import RedisClone.Resp.RespValue

/-!
# The RESP2 parser

The iterative parser of the server.  Its input position is the unread rest of
the input, its stack holds the arrays that still wait for elements, innermost
first, and the loop reads one value or one array header at a time.  A negative
count other than {lit}`-1` makes {lit}`vector::reserve` throw; the sum
{lit}`length + 2` of a payload's length and its terminator is an {lit}`int` and
overflows for the two largest lengths; every other malformed or incomplete input
gives {lit}`std::nullopt`.

Main results:

- Theorem {lit}`readItem_length_le`: every item read consumes its type byte, so
  that the loop terminates.
- Theorem {lit}`parseLoop_cons`: one round of the loop.

Current gaps:

- The overflow is undefined behaviour, at which {lit}`parse` ends.  What the compiled
  parser returns where the sum wraps is {lit}`wrappedParse`; an input of 4 GiB and more
  that the wrapped position leads back into is not followed there.
-/

namespace RedisClone

/-! ## Lines and counts -/

/-- {lit}`read_line`: the text before the first line terminator, and what
follows the terminator. -/
def readLine : Bytes → Option (Bytes × Bytes)
  | b :: c :: rest =>
      if b = 13 ∧ c = 10 then some ([], rest)
      else (readLine (c :: rest)).map fun (line, tail) => (b :: line, tail)
  | _ => none

/-- {lit}`parse_int`: the text behind the digits is not looked at. -/
def parseInt (line : Bytes) : Option Int :=
  (fromCharsInt line).map Prod.fst

/-! ## Reading one item -/

/-- An array under construction, with the number of elements still missing. -/
structure ArrayFrame where
  value : RespValue
  remaining : Int
deriving DecidableEq

/-- One turn of the parser at a type byte: a complete value, an opened array, a
failure, an exception, or a complete value behind which the position overflows. -/
inductive Item where
  | value (v : RespValue) (rest : Bytes)
  | opened (frame : ArrayFrame) (rest : Bytes)
  | failed
  | throws
  | overflowed (v : RespValue) (rest : Bytes)
deriving DecidableEq

/-- {lit}`handle_array_header`. -/
def handleArrayHeader (input : Bytes) : Item :=
  match readLine input with
  | none => .failed
  | some (line, rest) =>
      match parseInt line with
      | none => .failed
      | some count =>
          if count = -1 then .value .null rest
          else if count = 0 then .value (.array []) rest
          -- reserve of a negative count asks for more than max_size()
          else if count < 0 then .throws
          else .opened ⟨.array [], count⟩ rest

/-- {lit}`parse_simple_string` and {lit}`parse_integer`, which differ in the type
of the value only. -/
def parseLine (type : RespType) (input : Bytes) : Item :=
  match readLine input with
  | none => .failed
  | some (line, rest) => .value ⟨type, line, []⟩ rest

/-- {lit}`RespParser::parse_simple_string`. -/
def parseSimpleString (input : Bytes) : Item :=
  parseLine .simpleString input

/-- {lit}`RespParser::parse_integer`. -/
def parseInteger (input : Bytes) : Item :=
  parseLine .integer input

/-- {lit}`RespParser::parse_bulk_string`.  The two bytes behind the payload are
skipped without being compared. -/
def parseBulkString (input : Bytes) : Item :=
  match readLine input with
  | none => .failed
  | some (line, rest) =>
      match parseInt line with
      | none => .failed
      | some length =>
          if length < 0 then .value .null rest
          -- the bound is computed as a `size_t`, the new position with the `int` `length + 2`
          else if rest.length < length.toNat + 2 then .failed
          else if intMax < length + 2 then
            .overflowed (.bulkString (rest.take length.toNat)) (rest.drop (length.toNat + 2))
          else .value (.bulkString (rest.take length.toNat)) (rest.drop (length.toNat + 2))

/-- The body of the parser loop up to the point where a value is complete. -/
def readItem (type : UInt8) (input : Bytes) : Item :=
  if type = 42 then handleArrayHeader input
  else if type = 58 then parseInteger input
  else if type = 36 then parseBulkString input
  else if type = 43 then parseSimpleString input
  else .failed

/-! ## The stack of open arrays -/

/-- Append an element to the array under construction. -/
def ArrayFrame.push (frame : ArrayFrame) (v : RespValue) : ArrayFrame :=
  ⟨{ frame.value with elements := frame.value.elements ++ [v] }, frame.remaining - 1⟩

/-- {lit}`process_stack`: hand a complete value to the innermost array; an array
that is complete by it is handed on outwards.  The value returned is the
outermost one, once no array is open. -/
def processStack : List ArrayFrame → RespValue → List ArrayFrame × Option RespValue
  | [], v => ([], some v)
  | frame :: stack, v =>
      if (frame.push v).remaining = 0 then processStack stack (frame.push v).value
      else (frame.push v :: stack, none)

/-! ## The loop -/

/-- Reading a line leaves at most the input behind its terminator. -/
theorem readLine_length {input line rest : Bytes} (h : readLine input = some (line, rest)) :
    line.length + 2 + rest.length = input.length := by
  induction input using readLine.induct generalizing line with
  | case1 b c tail hbc =>
      simp only [readLine, hbc, and_self, if_true, Option.some.injEq, Prod.mk.injEq] at h
      rcases h with ⟨rfl, rfl⟩
      simp; omega
  | case2 b c tail hbc ih =>
      simp only [readLine, hbc, if_false, Option.map_eq_some_iff, Prod.exists, Prod.mk.injEq] at h
      rcases h with ⟨line', rest', hread, rfl, rfl⟩
      have := ih hread
      simp only [List.length_cons] at this ⊢
      omega
  | case3 t ht =>
      rw [readLine] at h
      · contradiction
      · exact ht

/-- What an item leaves unread. -/
@[simp]
def Item.rest? : Item → Option Bytes
  | .value _ rest => some rest
  | .opened _ rest => some rest
  | .failed => none
  | .throws => none
  | .overflowed _ _ => none

/-- A header leaves at most what follows its line. -/
theorem handleArrayHeader_length_le {input rest : Bytes}
    (h : (handleArrayHeader input).rest? = some rest) : rest.length ≤ input.length := by
  unfold handleArrayHeader at h
  split at h
  · contradiction
  · rename_i line tail hline
    have hlen := readLine_length hline
    have htail : tail = rest := by
      split at h
      · contradiction
      · split_ifs at h <;> simp_all [Item.rest?]
    subst htail
    omega

/-- A line leaves at most what follows it. -/
theorem parseLine_length_le {type : RespType} {input rest : Bytes}
    (h : (parseLine type input).rest? = some rest) : rest.length ≤ input.length := by
  unfold parseLine at h
  split at h
  · contradiction
  · rename_i line tail hline
    have hlen := readLine_length hline
    have htail : tail = rest := by simpa [Item.rest?] using h
    subst htail
    omega

/-- A bulk string leaves at most what follows its length line. -/
theorem parseBulkString_length_le {input rest : Bytes}
    (h : (parseBulkString input).rest? = some rest) : rest.length ≤ input.length := by
  unfold parseBulkString at h
  split at h
  · contradiction
  · rename_i line tail hline
    have hlen := readLine_length hline
    have htail : rest.length ≤ tail.length := by
      split at h
      · contradiction
      · split_ifs at h
        · simp only [Item.rest?, Option.some.injEq] at h
          rw [h]
        · contradiction
        · contradiction
        · simp only [Item.rest?, Option.some.injEq] at h
          rw [← h, List.length_drop]
          omega
    omega

/-- An item never leaves more input than it was given. -/
theorem readItem_length_le {type : UInt8} {input rest : Bytes}
    (h : (readItem type input).rest? = some rest) : rest.length ≤ input.length := by
  unfold readItem at h
  split_ifs at h
  · exact handleArrayHeader_length_le h
  · exact parseLine_length_le h
  · exact parseBulkString_length_le h
  · exact parseLine_length_le h
  · contradiction

/-- Result of the parser loop: a value with the unread rest, {lit}`std::nullopt`, an
exception, or an overflow of the position, with the outermost value if it is complete
and the text that stands behind the payload. -/
inductive ParseResult where
  | value (v : RespValue) (rest : Bytes)
  | nullopt
  | throws
  | overflowed (outermost : Option RespValue) (rest : Bytes)
deriving DecidableEq

/-- The loop of {lit}`RespParser::parse`, entered with no current value.  When the
outermost array is complete, the loop condition and the loop body both return
it. -/
def parseLoop (input : Bytes) (stack : List ArrayFrame) : ParseResult :=
  match input with
  | [] => .nullopt
  | type :: input =>
      match _hitem : readItem type input with
      | .failed => .nullopt
      | .throws => .throws
      | .opened frame rest => parseLoop rest (frame :: stack)
      | .value v rest =>
          match processStack stack v with
          | (_, some outermost) => .value outermost rest
          | (stack, none) => parseLoop rest stack
      | .overflowed v rest => .overflowed (processStack stack v).2 rest
termination_by input.length
decreasing_by
  all_goals
    have hle := @readItem_length_le type input rest (by rw [_hitem]; rfl)
    simp only [List.length_cons]
    omega

/-- Continuation of the loop once a value is complete. -/
def resume (stack : List ArrayFrame) (v : RespValue) (rest : Bytes) : ParseResult :=
  match processStack stack v with
  | (_, some outermost) => .value outermost rest
  | (stack, none) => parseLoop rest stack

/-- One turn of the loop at a type byte. -/
theorem parseLoop_cons (type : UInt8) (input : Bytes) (stack : List ArrayFrame) :
    parseLoop (type :: input) stack =
      match readItem type input with
      | .failed => .nullopt
      | .throws => .throws
      | .opened frame rest => parseLoop rest (frame :: stack)
      | .value v rest => resume stack v rest
      | .overflowed v rest => .overflowed (processStack stack v).2 rest := by
  rw [parseLoop]
  cases readItem type input <;> rfl

/-- Without input no value is complete. -/
@[simp]
theorem parseLoop_nil (stack : List ArrayFrame) : parseLoop [] stack = .nullopt := by
  rw [parseLoop]

/-- {lit}`RespParser::parse`: the value and the number of bytes consumed. -/
def parse (input : Bytes) : Except Exception (Option (RespValue × Nat)) :=
  match parseLoop input [] with
  | .value v rest => .ok (some (v, input.length - rest.length))
  | .nullopt => .ok none
  | .throws => .error .lengthError
  | .overflowed _ _ => .error .signedOverflow

/-- Where {lit}`length + 2` wraps, {lit}`pos` is moved by 2^32 less than the payload
takes, as a {lit}`size_t`. -/
def wrapPosition (pos : Nat) : Nat :=
  (pos + (sizeTModulus - 2 ^ 32)) % sizeTModulus

/-- What the compiled parser returns where the sum wraps: an outermost value that is
complete at the overflow is returned with the wrapped position. -/
def wrappedParse (input : Bytes) : Option (RespValue × Nat) :=
  match parseLoop input [] with
  | .value v rest => some (v, input.length - rest.length)
  | .overflowed (some v) rest => some (v, wrapPosition (input.length - rest.length))
  | _ => none

example : parse (ascii "*2\r\n*1\r\n:1\r\n$2\r\nab\r\n+x") =
    .ok (some (.array [.array [⟨.integer, ascii "1", []⟩], .bulkString (ascii "ab")], 20)) := by
  decide +kernel

end RedisClone
