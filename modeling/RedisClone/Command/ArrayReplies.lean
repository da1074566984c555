import RedisClone.Command.DataTransitions
import RedisClone.Resp.ParsedValues

/-!
# The data in array replies

{lit}`LRANGE`, {lit}`LPOP` with a count, {lit}`XRANGE` and {lit}`XREAD` put their
replies together by hand, with counts computed in nested loops.  Each reply is the
canonical encoding of one nested array of bulk strings, so the parser reads the
elements, keys, identifiers and fields back as they were, whatever bytes they hold.

Main results:

- Theorem {lit}`arrayReply_eq`: a header with the encodings of the elements behind it
  encodes the array.
- Theorem {lit}`formatStreamEntries_eq`: the reply for several streams.
- Theorem {lit}`array_replies_mirror_iff`: what the parser makes of the four replies.
-/

namespace RedisClone

open RespValue

/-! ## Encodings put together by hand -/

/-- The parser reads the whole response as the value. -/
def ParsesAs (response : Bytes) (v : RespValue) : Prop :=
  parse response = .ok (some (v, response.length))

/-- An encoding is parsed back exactly if no payload is too long. -/
theorem parsesAs_serialize_iff {v : RespValue} (h : WellFormedWithin intMax v) :
    ParsesAs (serialize v) v ↔ WellFormedWithin (intMax - 2) v := by
  have hparse := parse_serialize_iff h []
  rwa [List.append_nil] at hparse

/-- A bulk string. -/
theorem bulkReply_eq (text : Bytes) : bulkReply text = serialize (.bulkString text) := by
  simp [bulkReply, serialize, RespValue.bulkString, ascii]

/-- A header with the encodings of the elements behind it. -/
theorem arrayReply_eq {α : Type} {items : List α} {write : α → Bytes} {value : α → RespValue}
    (hitems : ∀ item ∈ items, write item = serialize (value item)) :
    arrayHeader items.length ++ items.flatMap write = serialize (.array (items.map value)) := by
  have hwrite : items.flatMap write = (items.map value).flatMap serialize := by
    rw [List.flatMap_map]
    exact List.flatMap_congr hitems
  rw [RespValue.array, serialize_array, hwrite]
  simp [arrayHeader, ascii]

/-- A header for two with two encodings behind it. -/
theorem pairReply_eq (v w : RespValue) :
    ascii "*2\r\n" ++ serialize v ++ serialize w = serialize (.array [v, w]) := by
  have htwo : Decimal.render 2 = ascii "2" := by decide
  rw [RespValue.array, serialize_array]
  simp [htwo, ascii, crlf]

/-! ## The values that mirror the data -/

/-- Elements of a list as an array of bulk strings. -/
def listValue (elements : List Bytes) : RespValue :=
  .array (elements.map .bulkString)

/-- The fields of an entry, each followed by its value. -/
def fieldTexts (entry : StreamEntry) : List Bytes :=
  entry.fields.flatMap fun field => [field.1, field.2]

/-- An entry as its identifier and its fields. -/
def entryValue (entry : StreamEntry) : RespValue :=
  .array [.bulkString entry.id, listValue (fieldTexts entry)]

/-- The entries of a stream. -/
def entriesValue (entries : List StreamEntry) : RespValue :=
  .array (entries.map entryValue)

/-- A stream as its key and its entries. -/
def streamValue (stream : Bytes × List StreamEntry) : RespValue :=
  .array [.bulkString stream.1, entriesValue stream.2]

/-- The result of {lit}`XREAD`: null if no stream has entries. -/
def streamsValue (results : List (Bytes × List StreamEntry)) : RespValue :=
  if results = [] then .null else .array (results.map streamValue)

/-- The number of elements fits in an {lit}`int`, and their lengths in the limit. -/
def ListFits (limit : Int) (elements : List Bytes) : Prop :=
  (elements.length : Int) ≤ intMax ∧ ∀ element ∈ elements, (element.length : Int) ≤ limit

/-- The identifier and the fields of an entry fit. -/
def EntryFits (limit : Int) (entry : StreamEntry) : Prop :=
  (entry.id.length : Int) ≤ limit ∧ ListFits limit (fieldTexts entry)

/-- The entries and their number fit. -/
def EntriesFit (limit : Int) (entries : List StreamEntry) : Prop :=
  (entries.length : Int) ≤ intMax ∧ ∀ entry ∈ entries, EntryFits limit entry

/-- The streams and their number fit. -/
def StreamsFit (limit : Int) (results : List (Bytes × List StreamEntry)) : Prop :=
  (results.length : Int) ≤ intMax ∧
    ∀ stream ∈ results, (stream.1.length : Int) ≤ limit ∧ EntriesFit limit stream.2

instance (limit : Int) (elements : List Bytes) : Decidable (ListFits limit elements) :=
  inferInstanceAs (Decidable (_ ∧ _))

instance (limit : Int) (entry : StreamEntry) : Decidable (EntryFits limit entry) :=
  inferInstanceAs (Decidable (_ ∧ _))

instance (limit : Int) (entries : List StreamEntry) : Decidable (EntriesFit limit entries) :=
  inferInstanceAs (Decidable (_ ∧ _))

instance (limit : Int) (results : List (Bytes × List StreamEntry)) :
    Decidable (StreamsFit limit results) :=
  inferInstanceAs (Decidable (_ ∧ _))

section Limits

variable {limit : Int}

/-- A bulk string is well formed up to its length. -/
theorem wellFormedWithin_bulkString {text : Bytes} :
    WellFormedWithin limit (.bulkString text) ↔ (text.length : Int) ≤ limit := by
  constructor
  · rintro ⟨h⟩
    assumption
  · exact .bulkString

/-- An array is well formed if its elements are. -/
theorem wellFormedWithin_array {elements : List RespValue} :
    WellFormedWithin limit (.array elements) ↔
      (elements.length : Int) ≤ intMax ∧ ∀ e ∈ elements, WellFormedWithin limit e := by
  constructor
  · intro h
    cases h with
    | array hcount helements => exact ⟨hcount, helements⟩
  · exact fun h => .array h.1 h.2

/-- A pair is well formed if both parts are. -/
theorem wellFormedWithin_pair {v w : RespValue} :
    WellFormedWithin limit (.array [v, w]) ↔
      WellFormedWithin limit v ∧ WellFormedWithin limit w := by
  rw [wellFormedWithin_array]
  simp [intMax]

/-- The value of a list. -/
theorem wellFormedWithin_listValue {elements : List Bytes} :
    WellFormedWithin limit (listValue elements) ↔ ListFits limit elements := by
  rw [listValue, wellFormedWithin_array]
  simp [ListFits, wellFormedWithin_bulkString]

/-- The value of the entries of a stream. -/
theorem wellFormedWithin_entriesValue {entries : List StreamEntry} :
    WellFormedWithin limit (entriesValue entries) ↔ EntriesFit limit entries := by
  rw [entriesValue, wellFormedWithin_array]
  simp [EntriesFit, EntryFits, entryValue, wellFormedWithin_pair, wellFormedWithin_bulkString,
    wellFormedWithin_listValue]

/-- The value of several streams. -/
theorem wellFormedWithin_streamsValue {results : List (Bytes × List StreamEntry)}
    (hne : results ≠ []) :
    WellFormedWithin limit (streamsValue results) ↔ StreamsFit limit results := by
  rw [streamsValue, if_neg hne, wellFormedWithin_array]
  simp only [StreamsFit, List.length_map, List.forall_mem_map, streamValue, wellFormedWithin_pair,
    wellFormedWithin_bulkString, wellFormedWithin_entriesValue]

end Limits

/-- An array of bulk strings. -/
theorem bulkArray_eq (elements : List Bytes) : bulkArray elements = serialize (listValue elements) :=
  arrayReply_eq fun element _ => bulkReply_eq element

/-- The fields of an entry take two elements each. -/
theorem length_fieldTexts (entry : StreamEntry) :
    (fieldTexts entry).length = entry.fields.length * 2 := by
  unfold fieldTexts
  induction entry.fields with
  | nil => rfl
  | cons field fields ih =>
      simp only [List.flatMap_cons, List.length_append, List.length_cons, List.length_nil, ih]
      omega

/-- An entry. -/
theorem entryReply_eq (entry : StreamEntry) : entryReply entry = serialize (entryValue entry) := by
  have hfields : arrayHeader (entry.fields.length * 2) ++
      entry.fields.flatMap (fun field => bulkReply field.1 ++ bulkReply field.2) =
        bulkArray (fieldTexts entry) := by
    unfold bulkArray
    rw [length_fieldTexts, fieldTexts, List.flatMap_assoc]
    simp
  have hreply : entryReply entry =
      ascii "*2\r\n" ++ bulkReply entry.id ++ bulkArray (fieldTexts entry) := by
    rw [← hfields]
    simp [entryReply]
  rw [hreply, bulkReply_eq, bulkArray_eq]
  exact pairReply_eq _ _

/-- The entries of a stream. -/
theorem entriesReply_eq (entries : List StreamEntry) :
    arrayHeader entries.length ++ entries.flatMap entryReply = serialize (entriesValue entries) :=
  arrayReply_eq fun entry _ => entryReply_eq entry

/-- Several streams. -/
theorem formatStreamEntries_eq {results : List (Bytes × List StreamEntry)} (hne : results ≠ []) :
    formatStreamEntries results = serialize (streamsValue results) := by
  unfold formatStreamEntries streamsValue
  rw [if_neg hne, if_neg hne]
  refine arrayReply_eq fun stream _ => ?_
  have hpair := pairReply_eq (.bulkString stream.1) (entriesValue stream.2)
  rw [← bulkReply_eq, ← entriesReply_eq, ← List.append_assoc] at hpair
  exact hpair

/-- The null array is parsed as null, although the canonical encoding of null is the
null bulk string. -/
theorem parsesAs_nullArray : ParsesAs nullArray .null := by
  unfold ParsesAs
  decide +kernel

/-- The reply for a list. -/
theorem parsesAs_bulkArray_iff {elements : List Bytes} (h : ListFits intMax elements) :
    ParsesAs (bulkArray elements) (listValue elements) ↔ ListFits (intMax - 2) elements := by
  rw [bulkArray_eq, parsesAs_serialize_iff (wellFormedWithin_listValue.mpr h)]
  exact wellFormedWithin_listValue

/-- The reply for any number of streams. -/
theorem parsesAs_formatStreamEntries_iff {results : List (Bytes × List StreamEntry)}
    (h : StreamsFit intMax results) :
    ParsesAs (formatStreamEntries results) (streamsValue results) ↔
      StreamsFit (intMax - 2) results := by
  by_cases hnil : results = []
  · subst hnil
    exact ⟨fun _ => by decide, fun _ => parsesAs_nullArray⟩
  · rw [formatStreamEntries_eq hnil,
      parsesAs_serialize_iff ((wellFormedWithin_streamsValue hnil).mpr h)]
    exact wellFormedWithin_streamsValue hnil

/-! ## The commands -/

/-- Array replies carry the data unchanged up to the longest payload: where lengths and
counts fit in an {lit}`int`, the parser reads the whole reply of {lit}`LRANGE`, of
{lit}`LPOP` with a count, of {lit}`XRANGE` and of {lit}`XREAD`, at once or when a blocked
request is served, as the nested array of bulk strings that mirrors what the store
returned, if and only if no element, key, identifier or field is longer than
{lit}`INT_MAX - 2`. -/
theorem array_replies_mirror_iff (cmd : Command) (now : Reading) (d : Store) :
    (∀ start stop, 3 ≤ cmd.args.length → stoll (cmd.arg 1) = .ok start →
      stoll (cmd.arg 2) = .ok stop → ListFits intMax (d.lrange (cmd.arg 0) start stop) →
      ∃ response, lrangeExecute cmd now d = (d, .ok (.reply response)) ∧
        (ParsesAs response (listValue (d.lrange (cmd.arg 0) start stop)) ↔
          ListFits (intMax - 2) (d.lrange (cmd.arg 0) start stop))) ∧
    (∀ count d' values, 2 ≤ cmd.args.length → stoull (cmd.arg 1) = .ok count →
      d.lpop (cmd.arg 0) count = (d', .ok values) → ListFits intMax values →
      ∃ response, lpopExecute cmd now d =
          (d', .ok (.answer ⟨some (cmd.arg 0), none, false, response⟩)) ∧
        (ParsesAs response (listValue values) ↔ ListFits (intMax - 2) values)) ∧
    (∀ entries, cmd.args.length = 3 → d.xrange (cmd.arg 0) (cmd.arg 1) (cmd.arg 2) = .ok entries →
      EntriesFit intMax entries →
      ∃ response, xrangeExecute cmd now d = (d, .ok (.guardedReply response)) ∧
        (ParsesAs response (entriesValue entries) ↔ EntriesFit (intMax - 2) entries)) ∧
    (∀ streams results, (parseXreadArgs cmd).valid = true →
      resolveStreamIds d ((parseXreadArgs cmd).keys.zip (parseXreadArgs cmd).ids) = .ok streams →
      d.xread streams = .ok results → StreamsFit intMax results →
      (xreadExecute cmd now d = (d, .ok (.guardedReply (formatStreamEntries results))) ∨
        results = [] ∧ xreadExecute cmd now d =
          (d, .ok (.blockXread streams (parseXreadArgs cmd).timeout))) ∧
        (ParsesAs (formatStreamEntries results) (streamsValue results) ↔
          StreamsFit (intMax - 2) results)) := by
  refine ⟨?_, ?_, ?_, ?_⟩
  · intro start stop hargs hstart hstop hfits
    refine ⟨_, ?_, parsesAs_bulkArray_iff hfits⟩
    unfold lrangeExecute
    rw [checked_of_le hargs, hstart, hstop]
  · intro count d' values hargs hcount hpop hfits
    refine ⟨_, ?_, parsesAs_bulkArray_iff hfits⟩
    unfold lpopExecute lpopCount lpopReply
    rw [checked_of_le (by omega), if_pos hargs, hcount]
    simp only [hpop]
    rw [if_neg (by omega)]
    rfl
  · intro entries hargs hrange hfits
    refine ⟨serialize (entriesValue entries), ?_, ?_⟩
    · unfold xrangeExecute
      rw [if_neg (by omega), hrange]
      simp only [entriesReply_eq]
    · rw [parsesAs_serialize_iff (wellFormedWithin_entriesValue.mpr hfits)]
      exact wellFormedWithin_entriesValue
  · intro streams results hvalid hresolve hread hfits
    refine ⟨?_, parsesAs_formatStreamEntries_iff hfits⟩
    unfold xreadExecute
    simp only [hvalid, hresolve, hread]
    by_cases hnil : results = []
    · subst hnil
      cases (parseXreadArgs cmd).isBlocking with
      | true => exact .inr ⟨rfl, by simp⟩
      | false => exact .inl (by simp [formatStreamEntries])
    · exact .inl (by simp [hnil])

/-- A table with a list and a stream; one element holds a line terminator. -/
def mixedTable : Store :=
  (Store.empty.put (ascii "l") ⟨.list [ascii "a", crlf], none⟩).put (ascii "s")
    ⟨.stream [⟨ascii "1-1", [(ascii "f", ascii "v")]⟩], none⟩

/-- The four replies on a table. -/
theorem array_replies_mirror_iff_sample :
    (∃ response, lrangeExecute ⟨.lrange, ascii "LRANGE", [ascii "l", ascii "0", ascii "-1"]⟩ ⟨0, 0⟩
        mixedTable = (mixedTable, .ok (.reply response)) ∧
      ParsesAs response (listValue [ascii "a", crlf])) ∧
    (∃ response, lpopExecute ⟨.lpop, ascii "LPOP", [ascii "l", ascii "2"]⟩ ⟨0, 0⟩ mixedTable =
        (mixedTable.erase (ascii "l"),
          .ok (.answer ⟨some (ascii "l"), none, false, response⟩)) ∧
      ParsesAs response (listValue [ascii "a", crlf])) ∧
    (∃ response, xrangeExecute ⟨.xrange, ascii "XRANGE", [ascii "s", ascii "-", ascii "+"]⟩ ⟨0, 0⟩
        mixedTable = (mixedTable, .ok (.guardedReply response)) ∧
      ParsesAs response (entriesValue [⟨ascii "1-1", [(ascii "f", ascii "v")]⟩])) ∧
    ParsesAs (formatStreamEntries [(ascii "s", [⟨ascii "1-1", [(ascii "f", ascii "v")]⟩])])
      (streamsValue [(ascii "s", [⟨ascii "1-1", [(ascii "f", ascii "v")]⟩])]) := by
  refine ⟨?_, ?_, ?_, ?_⟩
  · rcases (array_replies_mirror_iff ⟨.lrange, ascii "LRANGE", [ascii "l", ascii "0", ascii "-1"]⟩
      ⟨0, 0⟩ mixedTable).1 0 (-1) (by decide) (by decide +kernel) (by decide +kernel)
        (by decide +kernel) with ⟨response, hreply, hparse⟩
    exact ⟨response, hreply, hparse.mpr (by decide +kernel)⟩
  · rcases (array_replies_mirror_iff ⟨.lpop, ascii "LPOP", [ascii "l", ascii "2"]⟩ ⟨0, 0⟩
      mixedTable).2.1 2 _ [ascii "a", crlf] (by decide) (by decide +kernel) (by rfl)
        (by decide +kernel) with ⟨response, hreply, hparse⟩
    exact ⟨response, hreply, hparse.mpr (by decide +kernel)⟩
  · rcases (array_replies_mirror_iff ⟨.xrange, ascii "XRANGE", [ascii "s", ascii "-", ascii "+"]⟩
      ⟨0, 0⟩ mixedTable).2.2.1 [⟨ascii "1-1", [(ascii "f", ascii "v")]⟩] rfl (by decide +kernel)
        (by decide +kernel) with ⟨response, hreply, hparse⟩
    exact ⟨response, hreply, hparse.mpr (by decide +kernel)⟩
  · exact ((array_replies_mirror_iff ⟨.xread, ascii "XREAD",
      [ascii "STREAMS", ascii "s", ascii "0"]⟩ ⟨0, 0⟩ mixedTable).2.2.2 [(ascii "s", ascii "0")]
        [(ascii "s", [⟨ascii "1-1", [(ascii "f", ascii "v")]⟩])] (by decide +kernel)
        (by decide +kernel) (by decide +kernel) (by decide +kernel)).2.mpr (by decide +kernel)

/-- A list with one element of the given bytes. -/
def oneElement (element : Bytes) : Store :=
  Store.empty.put (ascii "l") ⟨.list [element], none⟩

/-- The reply to {lit}`LRANGE` on a list with an element of 2147483646 bytes is not parsed
back. -/
theorem array_reply_long_element :
    ListFits intMax [longPayload] ∧
      lrangeExecute ⟨.lrange, ascii "LRANGE", [ascii "l", ascii "0", ascii "-1"]⟩ ⟨0, 0⟩
        (oneElement longPayload) =
          (oneElement longPayload, .ok (.reply (bulkArray [longPayload]))) ∧
      ¬ ParsesAs (bulkArray [longPayload]) (listValue [longPayload]) := by
  have hfits : ListFits intMax [longPayload] := by
    refine ⟨by decide, fun element helement => ?_⟩
    rw [List.mem_singleton.mp helement, length_longPayload]
    decide
  have hreply : ∀ element, lrangeExecute
      ⟨.lrange, ascii "LRANGE", [ascii "l", ascii "0", ascii "-1"]⟩ ⟨0, 0⟩ (oneElement element) =
        (oneElement element, .ok (.reply (bulkArray [element]))) :=
    fun element => rfl
  refine ⟨hfits, hreply longPayload, fun hparse => ?_⟩
  have hshort := ((parsesAs_bulkArray_iff hfits).mp hparse).2 longPayload (by simp)
  rw [length_longPayload] at hshort
  exact absurd hshort (by decide)

end RedisClone
