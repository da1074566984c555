import RedisClone.Resp.RecursiveDescent

/-!
# What the parser accepts

RESP2 as a grammar of texts and values: a number line is a decimal integer and nothing
else, a simple string has no carriage return and no line feed, a payload is followed by
the line terminator, and an array by as many values as its header says.  The parser
accepts more.  It ignores the text behind the digits of a length or count, it takes any
negative length for null, it does not look at the two bytes behind a payload nor at the
text of an integer or a simple string, and behind a payload that is too long it returns
a count that is not that of the bytes it read.

Main results:

- Theorem {lit}`strict_of_encodes`: an encoding reads strictly, item by item.
- Theorem {lit}`encodes_of_strict`: what the parser returns for a text that reads
  strictly is what the text encodes.
- Theorem {lit}`parse_accepts_resp2_iff`: an accepted text is an encoding of the value
  exactly if it reads strictly.
- Theorem {lit}`parse_unterminated_payload`: accepted texts that are no encodings.
-/

namespace RedisClone

open RespValue

/-! ## The grammar -/

/-- The line is a decimal integer and nothing else. -/
structure DecimalLine (line : Bytes) (n : Int) : Prop where
  exists_digits : ∃ negative digits, line = (if negative then 45 :: digits else digits) ∧
    digits ≠ [] ∧ (∀ b ∈ digits, Decimal.isDigit b = true) ∧
    n = signed negative (Decimal.value digits)

/-- The line is a signed 64-bit integer with an optional sign. -/
structure IntegerLine (line : Bytes) : Prop where
  exists_digits : ∃ (sign : Option Bool) (digits : Bytes),
    line = (sign.elim [] fun negative => [if negative then 45 else 43]) ++ digits ∧
    digits ≠ [] ∧ (∀ b ∈ digits, Decimal.isDigit b = true) ∧
    longLongMin ≤ signed (sign.getD false) (Decimal.value digits) ∧
    signed (sign.getD false) (Decimal.value digits) ≤ longLongMax

/-- RESP2 encodings of the values without elements. -/
inductive LeafText : Bytes → RespValue → Prop where
  | simpleString {line : Bytes} : 13 ∉ line → 10 ∉ line →
      LeafText (43 :: (line ++ crlf)) ⟨.simpleString, line, []⟩
  | integer {line : Bytes} : IntegerLine line →
      LeafText (58 :: (line ++ crlf)) ⟨.integer, line, []⟩
  | bulkString {line payload : Bytes} : DecimalLine line payload.length →
      LeafText (36 :: (line ++ (crlf ++ (payload ++ crlf)))) (.bulkString payload)
  | nullBulk {line : Bytes} : DecimalLine line (-1) → LeafText (36 :: (line ++ crlf)) .null
  | nullArray {line : Bytes} : DecimalLine line (-1) → LeafText (42 :: (line ++ crlf)) .null

/-- RESP2 encodings: an array is its count followed by the encodings of its elements. -/
inductive Encodes : Bytes → RespValue → Prop where
  | leaf {text : Bytes} {v : RespValue} : LeafText text v → Encodes text v
  | array {line : Bytes} {elements : List (Bytes × RespValue)} :
      DecimalLine line elements.length → (∀ e ∈ elements, Encodes e.1 e.2) →
      Encodes (42 :: (line ++ (crlf ++ elements.flatMap Prod.fst)))
        (.array (elements.map Prod.snd))

/-- The text reads strictly as the given number of values, item by item; what follows
them is arbitrary. -/
inductive Strict : Nat → Bytes → Prop where
  | done {rest : Bytes} : Strict 0 rest
  | leaf {n : Nat} {text rest : Bytes} {v : RespValue} : LeafText text v → Strict n rest →
      Strict (n + 1) (text ++ rest)
  | header {n count : Nat} {line rest : Bytes} : DecimalLine line count →
      Strict (n + count) rest → Strict (n + 1) (42 :: (line ++ (crlf ++ rest)))

/-! ## Number lines -/

/-- A number line holds no line terminator. -/
theorem DecimalLine.noCrlf {line : Bytes} {n : Int} (h : DecimalLine line n) : NoCrlf line := by
  rcases h.exists_digits with ⟨negative, digits, rfl, -, hdigits, -⟩
  apply noCrlf_of_not_mem
  intro hmem
  have hdigit : (13 : UInt8) ∉ digits := fun h13 => absurd (hdigits 13 h13) (by decide)
  cases negative with
  | false => exact hdigit hmem
  | true =>
      rcases List.mem_cons.mp hmem with heq | hmem
      · exact absurd heq (by decide)
      · exact hdigit hmem

/-- An integer holds no line terminator. -/
theorem IntegerLine.noCrlf {line : Bytes} (h : IntegerLine line) : NoCrlf line := by
  rcases h.exists_digits with ⟨sign, digits, rfl, -, hdigits, -⟩
  apply noCrlf_of_not_mem
  intro hmem
  rcases List.mem_append.mp hmem with hmem | hmem
  · rcases sign with _ | _ | _ <;> simp at hmem
  · exact absurd (hdigits 13 hmem) (by decide)

/-- The digit reader takes a whole run of digits, or rejects it as too large. -/
theorem fromDigits_digits {lo hi : Int} {negative : Bool} {digits : Bytes}
    (hdigits : ∀ b ∈ digits, Decimal.isDigit b = true) {n : Int} {rest : Bytes}
    (h : fromDigits lo hi negative digits = some (n, rest)) :
    n = signed negative (Decimal.value digits) := by
  rcases fromDigits_eq_some.mp h with ⟨-, -, -, hn, -⟩
  rwa [List.takeWhile_eq_self_iff.mpr hdigits] at hn

/-- {lit}`parse_int` reads a number line as its number, or rejects it as too large. -/
theorem DecimalLine.eq_of_parseInt {line : Bytes} {n m : Int} (h : DecimalLine line n)
    (hparse : parseInt line = some m) : m = n := by
  rcases h.exists_digits with ⟨negative, digits, rfl, hne, hdigits, rfl⟩
  simp only [parseInt, fromCharsInt, Option.map_eq_some_iff, Prod.exists] at hparse
  rcases hparse with ⟨m', rest, hread, rfl⟩
  cases negative with
  | true =>
      simp only [if_true] at hread
      unfold fromChars at hread
      simp only at hread
      rw [if_pos (by decide)] at hread
      exact fromDigits_digits hdigits hread
  | false =>
      rw [if_neg (by decide)] at hread
      unfold fromChars at hread
      split at hread
      · exact absurd (hdigits 45 (by simp)) (by decide)
      · exact fromDigits_digits hdigits hread

/-! ## Encodings read strictly -/

/-- The encodings of a list of values, one after the other. -/
theorem strict_elements {elements : List (Bytes × RespValue)}
    (hread : ∀ e ∈ elements, ∀ n rest, Strict n rest → Strict (n + 1) (e.1 ++ rest))
    {n : Nat} {rest : Bytes} (hrest : Strict n rest) :
    Strict (n + elements.length) (elements.flatMap Prod.fst ++ rest) := by
  induction elements with
  | nil => exact hrest
  | cons e elements ih =>
      have htail := ih fun e' he' => hread e' (List.mem_cons_of_mem _ he')
      rw [List.flatMap_cons, List.append_assoc]
      exact hread e List.mem_cons_self _ _ htail

/-- An encoding reads strictly, as one value more than what follows it. -/
theorem strict_of_encodes {text : Bytes} {v : RespValue} (h : Encodes text v) {n : Nat}
    {rest : Bytes} (hrest : Strict n rest) : Strict (n + 1) (text ++ rest) := by
  induction h generalizing n rest with
  | leaf hleaf => exact .leaf hleaf hrest
  | @array line elements hline _ ih =>
      have helements := strict_elements (fun e he n rest h => ih e he h) hrest
      rw [List.cons_append, List.append_assoc, List.append_assoc]
      exact .header hline helements

/-! ## What the parser makes of a strict text -/

/-- The parser returns the value of a leaf, or rejects its length as too large, or its
position overflows behind the leaf. -/
theorem LeafText.parseLoop_eq {text : Bytes} {v : RespValue} (h : LeafText text v) (rest : Bytes)
    (stack : List ArrayFrame) :
    parseLoop (text ++ rest) stack = .nullopt ∨
      parseLoop (text ++ rest) stack = .overflowed (RedisClone.processStack stack v).2 rest ∨
      parseLoop (text ++ rest) stack = resume stack v rest := by
  cases h with
  | simpleString hcr _ =>
      refine .inr (.inr ?_)
      rw [List.cons_append, List.append_assoc, parseLoop_cons]
      simp [readItem, parseSimpleString, parseLine, readLine_append_crlf (noCrlf_of_not_mem hcr)]
  | integer hline =>
      refine .inr (.inr ?_)
      rw [List.cons_append, List.append_assoc, parseLoop_cons]
      simp [readItem, parseInteger, parseLine, readLine_append_crlf hline.noCrlf]
  | @bulkString line payload hline =>
      rw [List.cons_append, parseLoop_cons]
      simp only [List.append_assoc]
      cases hlength : parseInt line with
      | none =>
          exact .inl (by simp [readItem, parseBulkString, readLine_append_crlf hline.noCrlf, hlength])
      | some length =>
          have heq := hline.eq_of_parseInt hlength
          subst heq
          rw [readItem_payload hline.noCrlf hlength rfl]
          right
          split_ifs
          · exact .inl rfl
          · exact .inr rfl
  | @nullBulk line hline =>
      rw [List.cons_append, List.append_assoc, parseLoop_cons]
      simp only [readItem, parseBulkString, readLine_append_crlf hline.noCrlf]
      cases hlength : parseInt line with
      | none => exact .inl (by simp)
      | some length =>
          rw [hline.eq_of_parseInt hlength]
          exact .inr (.inr (by simp))
  | @nullArray line hline =>
      rw [List.cons_append, List.append_assoc, parseLoop_cons]
      simp only [readItem, handleArrayHeader, readLine_append_crlf hline.noCrlf]
      cases hcount : parseInt line with
      | none => exact .inl (by simp)
      | some count =>
          rw [hline.eq_of_parseInt hcount]
          exact .inr (.inr (by simp))

/-- What the loop can make of the encoding of a value: it rejects it, its position
overflows inside or behind it, or it continues behind it. -/
def ReadsAs (stack : List ArrayFrame) (v : RespValue) (rest : Bytes) (result : ParseResult) :
    Prop :=
  result = .nullopt ∨ (∃ rest', result = .overflowed none rest') ∨
    result = .overflowed (processStack stack v).2 rest ∨ result = resume stack v rest

/-- The encodings of the elements of an array, one after the other. -/
theorem readsAs_elements {elements : List (Bytes × RespValue)}
    (hread : ∀ e ∈ elements, ∀ stack rest, ReadsAs stack e.2 rest (parseLoop (e.1 ++ rest) stack))
    (hne : elements ≠ []) (done : List RespValue) (stack : List ArrayFrame) (rest : Bytes) :
    ReadsAs stack (.array (done ++ elements.map Prod.snd)) rest
      (parseLoop (elements.flatMap Prod.fst ++ rest) (⟨.array done, elements.length⟩ :: stack)) := by
  induction elements generalizing done with
  | nil => exact absurd rfl hne
  | cons e es ih =>
      have hpush : ArrayFrame.push ⟨.array done, (es.length + 1 : Nat)⟩ e.2 =
          ⟨.array (done ++ [e.2]), es.length⟩ := by
        simp [ArrayFrame.push, RespValue.array]
      rw [List.flatMap_cons, List.append_assoc, List.length_cons]
      rcases hread e (by simp) (⟨.array done, (es.length + 1 : Nat)⟩ :: stack)
        (es.flatMap Prod.fst ++ rest) with hnone | hinside | hbehind | hvalue
      · exact .inl hnone
      · exact .inr (.inl hinside)
      · rw [hbehind]
        cases es with
        | nil =>
            refine .inr (.inr (.inl ?_))
            simp only [processStack, hpush]
            simp
        | cons e' es =>
            refine .inr (.inl ⟨(e' :: es).flatMap Prod.fst ++ rest, ?_⟩)
            simp only [processStack, hpush]
            rw [if_neg (by simp; omega)]
      · rw [hvalue, resume_push]
        cases es with
        | nil => exact .inr (.inr (.inr (by simp)))
        | cons e' es =>
            have htail := ih (fun x hx => hread x (List.mem_cons_of_mem e hx)) (by simp)
              (done ++ [e.2])
            simpa using htail

/-- The encoding of a value, whatever follows it. -/
theorem Encodes.readsAs {text : Bytes} {v : RespValue} (h : Encodes text v)
    (stack : List ArrayFrame) (rest : Bytes) :
    ReadsAs stack v rest (parseLoop (text ++ rest) stack) := by
  induction h generalizing stack rest with
  | leaf hleaf => exact (hleaf.parseLoop_eq rest stack).imp_right .inr
  | @array line elements hline _ ih =>
      rw [List.cons_append, List.append_assoc, List.append_assoc]
      cases hcount : parseInt line with
      | none =>
          exact .inl (by simp [parseLoop_cons, readItem, handleArrayHeader,
            readLine_append_crlf hline.noCrlf, hcount])
      | some count =>
          have heq := hline.eq_of_parseInt hcount
          subst heq
          cases elements with
          | nil =>
              refine .inr (.inr (.inr ?_))
              simp [parseLoop_cons, readItem, handleArrayHeader, readLine_append_crlf hline.noCrlf,
                hcount]
          | cons e es =>
              rw [parseLoop_header hline.noCrlf hcount (by simp)]
              exact readsAs_elements ih (by simp) [] stack rest

/-- The compiled parser never returns the text of an encoding as consumed behind an
overflow. -/
theorem not_encodes_of_overflowed {input rest : Bytes} {v : RespValue} {consumed : Nat}
    (hloop : parseLoop input [] = .overflowed (some v) rest)
    (hconsumed : consumed = wrapPosition (input.length - rest.length))
    (hle : consumed ≤ input.length) : ¬ Encodes (input.take consumed) v := by
  intro hencodes
  have hread := hencodes.readsAs [] (input.drop consumed)
  rw [List.take_append_drop, hloop] at hread
  rcases hread with hnone | ⟨rest', hinside⟩ | hbehind | hvalue
  · simp at hnone
  · simp at hinside
  · simp only [ParseResult.overflowed.injEq] at hbehind
    have hlength : input.length - rest.length = consumed := by
      rw [hbehind.2, List.length_drop]
      omega
    rw [hlength] at hconsumed
    exact wrapPosition_ne consumed hconsumed.symm
  · simp [resume, processStack] at hvalue

/-- The text read so far for the open arrays: the header of each with the encodings of
the elements it has. -/
inductive OpenText : List ArrayFrame → Bytes → Prop where
  | nil : OpenText [] []
  | cons {stack : List ArrayFrame} {text line : Bytes} {elements : List (Bytes × RespValue)}
      {remaining : Nat} : OpenText stack text →
      DecimalLine line (elements.length + (remaining + 1) : Nat) →
      (∀ e ∈ elements, Encodes e.1 e.2) →
      OpenText (⟨.array (elements.map Prod.snd), (remaining + 1 : Nat)⟩ :: stack)
        (text ++ 42 :: (line ++ (crlf ++ elements.flatMap Prod.fst)))

/-- Open arrays wait for elements. -/
theorem OpenText.remaining_pos {stack : List ArrayFrame} {text : Bytes} (h : OpenText stack text) :
    ∀ f ∈ stack, 0 < f.remaining := by
  induction h with
  | nil => simp
  | @cons stack text line elements remaining _ _ _ ih =>
      intro f hf
      rcases List.mem_cons.mp hf with rfl | hf
      · simp only
        omega
      · exact ih f hf

/-- A complete value with its encoding extends the text of the open arrays, or
completes the outermost one. -/
theorem OpenText.processStack {stack : List ArrayFrame} {text : Bytes} (h : OpenText stack text)
    {added : Bytes} {v : RespValue} (hv : Encodes added v) :
    (∃ outermost, RedisClone.processStack stack v = ([], some outermost) ∧
        Encodes (text ++ added) outermost) ∨
      ∃ stack', RedisClone.processStack stack v = (stack', none) ∧
        OpenText stack' (text ++ added) := by
  induction h generalizing added v with
  | nil => exact .inl ⟨v, rfl, hv⟩
  | @cons stack text line elements remaining hopen hline helements ih =>
      have hpushed : ∀ e ∈ elements ++ [(added, v)], Encodes e.1 e.2 := by
        intro e he
        rcases List.mem_append.mp he with he | he
        · exact helements e he
        · rw [List.mem_singleton.mp he]
          exact hv
      have hvalue : (ArrayFrame.push ⟨.array (elements.map Prod.snd), (remaining + 1 : Nat)⟩ v) =
          ⟨.array ((elements ++ [(added, v)]).map Prod.snd), remaining⟩ := by
        simp [ArrayFrame.push, RespValue.array]
      have htext : text ++ 42 :: (line ++ (crlf ++ elements.flatMap Prod.fst)) ++ added =
          text ++ 42 :: (line ++ (crlf ++ (elements ++ [(added, v)]).flatMap Prod.fst)) := by
        simp
      simp only [RedisClone.processStack, hvalue]
      rw [htext]
      cases remaining with
      | zero =>
          -- the array is complete and is handed on outwards
          have hcount : DecimalLine line (elements ++ [(added, v)]).length := by
            simpa using hline
          simpa using ih (.array hcount hpushed)
      | succ remaining =>
          right
          have hcount : DecimalLine line
              ((elements ++ [(added, v)]).length + (remaining + 1) : Nat) := by
            have hlength : (elements ++ [(added, v)]).length + (remaining + 1) =
                elements.length + (remaining + 1 + 1) := by
              simp only [List.length_append, List.length_singleton]
              omega
            rwa [hlength]
          rw [if_neg (by omega)]
          exact ⟨_, rfl, .cons hopen hcount hpushed⟩

/-- The loop on a strict text, behind the text of the open arrays: the value it returns
is what the text encodes. -/
theorem encodes_of_strict {n : Nat} {input : Bytes} (h : Strict n input)
    {stack : List ArrayFrame} {text : Bytes} (htext : OpenText stack text) (hn : n = wanted stack)
    {v : RespValue} {rest : Bytes} (hloop : parseLoop input stack = .value v rest) :
    ∃ added, input = added ++ rest ∧ Encodes (text ++ added) v := by
  -- a complete value, and what the loop makes of the text behind it
  have hresume : ∀ {m : Nat} {tail item : Bytes} {w : RespValue}
      {stack : List ArrayFrame} {text : Bytes}, OpenText stack text → m + 1 = wanted stack →
      Encodes item w → resume stack w tail = .value v rest →
      (∀ {stack : List ArrayFrame} {text : Bytes}, OpenText stack text → m = wanted stack →
        parseLoop tail stack = .value v rest →
        ∃ added, tail = added ++ rest ∧ Encodes (text ++ added) v) →
      ∃ added, item ++ tail = added ++ rest ∧ Encodes (text ++ added) v := by
    intro m tail item w stack text htext hm hw hresume ih
    unfold resume at hresume
    rcases htext.processStack hw with ⟨out, hout, hencodes⟩ | ⟨stack', hstack', htext'⟩
    · rw [hout] at hresume
      cases hresume
      exact ⟨item, rfl, hencodes⟩
    · rw [hstack'] at hresume
      have hwanted : wanted stack = wanted stack' + 1 := by
        rcases wanted_processStack htext.remaining_pos w with ⟨out, hout, -⟩ | ⟨left, hleft, -, heq⟩
        · rw [hstack'] at hout
          simp at hout
        · rw [hstack'] at hleft
          simp only [Prod.mk.injEq, and_true] at hleft
          rw [hleft]
          exact heq
      rcases ih htext' (by omega) hresume with ⟨added, rfl, hencodes⟩
      exact ⟨item ++ added, by simp, by simpa using hencodes⟩
  induction h generalizing stack text with
  | done =>
      rcases exists_wanted_eq_succ stack with ⟨m, hm⟩
      omega
  | @leaf n item tail w hleaf _ ih =>
      rcases hleaf.parseLoop_eq tail stack with hnone | hover | hvalue
      · rw [hnone] at hloop
        contradiction
      · rw [hover] at hloop
        contradiction
      · rw [hvalue] at hloop
        exact hresume htext hn (.leaf hleaf) hloop ih
  | @header n count line tail hline _ ih =>
      cases hcount : parseInt line with
      | none =>
          simp [parseLoop_cons, readItem, handleArrayHeader, readLine_append_crlf hline.noCrlf,
            hcount] at hloop
      | some m =>
          have heq := hline.eq_of_parseInt hcount
          subst heq
          cases count with
          | zero =>
              have hempty : Encodes (42 :: (line ++ crlf)) (.array []) := by
                simpa using @Encodes.array line [] (by simpa using hline) (by simp)
              simp only [parseLoop_cons, readItem, handleArrayHeader,
                readLine_append_crlf hline.noCrlf, hcount] at hloop
              have hsplit : 42 :: (line ++ (crlf ++ tail)) = 42 :: (line ++ crlf) ++ tail := by simp
              rw [hsplit]
              exact hresume htext hn hempty (by simpa using hloop) ih
          | succ count =>
              rw [parseLoop_header hline.noCrlf hcount (by omega)] at hloop
              have hopened := @OpenText.cons stack text line [] count htext (by simpa using hline)
                (by simp)
              have hwanted : n + (count + 1) =
                  wanted (⟨.array [], (count + 1 : Nat)⟩ :: stack) := by
                rw [wanted_cons, ← hn]
                simp only
                omega
              rcases ih hopened hwanted hloop with ⟨added, rfl, hencodes⟩
              exact ⟨42 :: (line ++ (crlf ++ added)), by simp, by simpa using hencodes⟩

/-- The parser accepts more than RESP2: whatever it accepts, the consumed text is a
RESP2 encoding of the returned value exactly if the input reads strictly up to the end
of its first value (every number line in it is a decimal integer, lengths and counts are
-1 or not negative, simple strings hold no carriage return and no line feed, and every
payload is followed by the line terminator) and no payload in it is longer than
{lit}`INT_MAX - 2`. -/
theorem parse_accepts_resp2_iff {input : Bytes} {v : RespValue} {consumed : Nat}
    (h : wrappedParse input = some (v, consumed)) :
    (consumed ≤ input.length ∧ Encodes (input.take consumed) v) ↔
      Strict 1 input ∧ ¬ Overlong 1 input := by
  rcases wrappedParse_cases h with ⟨hdefined, hparse⟩ | ⟨rest, hlong, hloop, hconsumed⟩
  · constructor
    · rintro ⟨-, hencodes⟩
      rw [← List.take_append_drop consumed input]
      refine ⟨strict_of_encodes hencodes .done, ?_⟩
      rwa [List.take_append_drop]
    · rintro ⟨hstrict, -⟩
      refine ⟨parse_consumed_le hparse, ?_⟩
      rcases parse_eq_some hparse with ⟨rest, hloop, rfl⟩
      rcases encodes_of_strict hstrict .nil rfl hloop with ⟨added, rfl, hencodes⟩
      simpa using hencodes
  · constructor
    · rintro ⟨hle, hencodes⟩
      exact absurd hencodes (not_encodes_of_overflowed hloop hconsumed hle)
    · rintro ⟨-, hdefined⟩
      exact absurd hlong hdefined

/-- The text of a nested array. -/
theorem strict_sample : Strict 1 (ascii "*2\r\n$2\r\nab\r\n*0\r\n") := by
  have hzero : DecimalLine (ascii "0") (0 : Nat) :=
    ⟨false, ascii "0", by decide, by decide, by decide +kernel, by decide⟩
  have htwo : DecimalLine (ascii "2") (2 : Nat) :=
    ⟨false, ascii "2", by decide, by decide, by decide +kernel, by decide⟩
  have hpayload : LeafText (ascii "$2\r\nab\r\n") (.bulkString (ascii "ab")) :=
    @LeafText.bulkString (ascii "2") (ascii "ab") htwo
  exact @Strict.header 0 2 (ascii "2") (ascii "$2\r\nab\r\n*0\r\n") htwo
    (@Strict.leaf 1 (ascii "$2\r\nab\r\n") (ascii "*0\r\n") _ hpayload
      (@Strict.header 0 0 (ascii "0") [] hzero .done))

/-- A nested array is accepted as what it encodes. -/
theorem parse_accepts_resp2_iff_nested :
    Encodes ((ascii "*2\r\n$2\r\nab\r\n*0\r\n").take 16)
      (.array [.bulkString (ascii "ab"), .array []]) := by
  have hparse : parse (ascii "*2\r\n$2\r\nab\r\n*0\r\n") =
      .ok (some (.array [.bulkString (ascii "ab"), .array []], 16)) := by
    decide +kernel
  have hdefined : ¬ Overlong 1 (ascii "*2\r\n$2\r\nab\r\n*0\r\n") := fun hlong => by
    rw [parse_of_overlong hlong] at hparse
    contradiction
  exact ((parse_accepts_resp2_iff (wrappedParse_of_parse hparse)).mpr
    ⟨strict_sample, hdefined⟩).2

/-! ## Texts that are accepted without being encodings -/

/-- Every encoding ends in a line terminator. -/
theorem Encodes.crlf_suffix {text : Bytes} {v : RespValue} (h : Encodes text v) :
    crlf <:+ text := by
  induction h with
  | leaf hleaf =>
      cases hleaf with
      | simpleString _ _ => exact (List.suffix_append _ crlf).trans (List.suffix_cons _ _)
      | integer _ => exact (List.suffix_append _ crlf).trans (List.suffix_cons _ _)
      | @bulkString line payload _ =>
          refine List.IsSuffix.trans ?_ (List.suffix_cons _ _)
          rw [← List.append_assoc, ← List.append_assoc]
          exact List.suffix_append _ crlf
      | nullBulk _ => exact (List.suffix_append _ crlf).trans (List.suffix_cons _ _)
      | nullArray _ => exact (List.suffix_append _ crlf).trans (List.suffix_cons _ _)
  | @array line elements _ _ ih =>
      refine List.IsSuffix.trans ?_ (List.suffix_cons _ _)
      rcases List.eq_nil_or_concat elements with rfl | ⟨init, last, rfl⟩
      · simp
      · have hlast := ih last (by simp)
        rw [List.concat_eq_append, List.flatMap_append, List.flatMap_singleton]
        exact hlast.trans (((List.suffix_append _ _).trans (List.suffix_append _ _)).trans
          (List.suffix_append _ _))

/-- A bulk string with other bytes in the place of its terminator is accepted. -/
theorem parse_unterminated_payload :
    parse (ascii "$3\r\nabcXY") = .ok (some (.bulkString (ascii "abc"), 9)) ∧
      ¬ Encodes ((ascii "$3\r\nabcXY").take 9) (.bulkString (ascii "abc")) := by
  refine ⟨by decide +kernel, fun h => ?_⟩
  exact absurd h.crlf_suffix (by decide)

end RedisClone
