import RedisClone.Util.Text

/-!
# RESP2 values and their wire format

The value type of the protocol, its serializer, and the well-formedness
condition under which the wire format determines the value.

Main results:

- Theorem {lit}`RespValue.induction`: induction over values of any nesting
  depth, with the elements of an array as induction hypotheses.
- Theorem {lit}`serialize_array`: an array is its header followed by its
  serialized elements.
- Theorem {lit}`serialize_ne_nil`: no value has an empty encoding.
-/

namespace RedisClone

/-- {lit}`RespValue::Type`. -/
inductive RespType where
  | simpleString
  | integer
  | bulkString
  | array
  | null
deriving DecidableEq, Repr

/-- A RESP2 message.  {lit}`str` is used by simple strings, bulk strings and
integers, {lit}`elements` by arrays. -/
structure RespValue where
  type : RespType
  str : Bytes
  elements : List RespValue
deriving Repr

namespace RespValue

/-- A bulk string value. -/
def bulkString (str : Bytes) : RespValue :=
  ⟨.bulkString, str, []⟩

/-- An array value. -/
def array (elements : List RespValue) : RespValue :=
  ⟨.array, [], elements⟩

/-- The null value. -/
def null : RespValue :=
  ⟨.null, [], []⟩

/-- Induction over values: a property holds of every value as soon as it holds
of each value whose elements all have it. -/
theorem induction {motive : RespValue → Prop}
    (mk : ∀ type str elements, (∀ e ∈ elements, motive e) → motive ⟨type, str, elements⟩)
    (v : RespValue) : motive v := by
  refine @RespValue.rec motive (fun es => ∀ e ∈ es, motive e)
    (fun type str elements ih => mk type str elements ih) ?_ ?_ v
  · intro e he
    cases he
  · intro e es he hes x hx
    rcases List.mem_cons.mp hx with rfl | hx
    · exact he
    · exact hes x hx

mutual

/-- Structural equality of values is decidable. -/
def decEq : (a b : RespValue) → Decidable (a = b)
  | ⟨t, s, es⟩, ⟨t', s', es'⟩ =>
      match decEqAll es es' with
      | .isTrue h => decidable_of_iff (t = t' ∧ s = s') (by simp [h])
      | .isFalse h => .isFalse (by simp [h])

/-- Elementwise equality of lists of values is decidable. -/
def decEqAll : (as bs : List RespValue) → Decidable (as = bs)
  | [], [] => .isTrue rfl
  | [], _ :: _ => .isFalse (by simp)
  | _ :: _, [] => .isFalse (by simp)
  | a :: as, b :: bs =>
      match decEq a b, decEqAll as bs with
      | .isTrue h, .isTrue h' => .isTrue (by rw [h, h'])
      | .isFalse h, _ => .isFalse (by simp [h])
      | _, .isFalse h => .isFalse (by simp [h])

end

instance : DecidableEq RespValue := decEq

/-! ## Serialization -/

mutual

/-- {lit}`RespParser::serialize`. -/
def serialize : RespValue → Bytes
  | ⟨.simpleString, str, _⟩ => 43 :: (str ++ crlf)
  | ⟨.integer, str, _⟩ => 58 :: (str ++ crlf)
  | ⟨.bulkString, str, _⟩ => 36 :: (Decimal.render str.length ++ crlf ++ str ++ crlf)
  | ⟨.null, _, _⟩ => ascii "$-1" ++ crlf
  | ⟨.array, _, elements⟩ =>
      42 :: (Decimal.render elements.length ++ crlf ++ serializeAll elements)

/-- The loop of {lit}`serialize` over the elements of an array. -/
def serializeAll : List RespValue → Bytes
  | [] => []
  | v :: vs => serialize v ++ serializeAll vs

end

/-- The elements of an array are written one after the other. -/
theorem serializeAll_eq_flatMap (vs : List RespValue) :
    serializeAll vs = vs.flatMap serialize := by
  induction vs with
  | nil => rfl
  | cons v vs ih => simp [serializeAll, ih]

/-- An array is written as its header and its elements. -/
theorem serialize_array (str : Bytes) (elements : List RespValue) :
    serialize ⟨.array, str, elements⟩ =
      42 :: (Decimal.render elements.length ++ crlf ++ elements.flatMap serialize) := by
  rw [serialize, serializeAll_eq_flatMap]

/-- No value has an empty encoding. -/
theorem serialize_ne_nil (v : RespValue) : serialize v ≠ [] := by
  rcases v with ⟨type, str, elements⟩
  cases type <;> simp [serialize, ascii, crlf]

/-! ## Well-formed values -/

/-- The text contains no carriage return directly followed by a line feed. -/
def NoCrlf (s : Bytes) : Prop :=
  ¬ crlf <:+: s

instance (s : Bytes) : Decidable (NoCrlf s) :=
  inferInstanceAs (Decidable (¬ _))

/-- Texts joined by a byte that is neither a carriage return nor a line feed hold no
line terminator if neither part does. -/
theorem noCrlf_append_cons {a b : Bytes} {c : UInt8} (ha : NoCrlf a) (hb : NoCrlf b) (hcr : c ≠ 13)
    (hlf : c ≠ 10) : NoCrlf (a ++ c :: b) := by
  unfold NoCrlf at ha hb ⊢
  induction a with
  | nil =>
      rw [List.nil_append, List.infix_cons_iff]
      rintro (hpre | hsub)
      · exact hcr (by simpa [crlf] using (List.cons_prefix_cons.mp hpre).1.symm)
      · exact hb hsub
  | cons x a ih =>
      rw [List.infix_cons_iff, not_or] at ha
      rw [List.cons_append, List.infix_cons_iff]
      rintro (hpre | hsub)
      · apply ha.1
        cases a with
        | nil =>
            simp only [crlf, List.nil_append, List.cons_prefix_cons] at hpre
            exact absurd hpre.2.1.symm hlf
        | cons y a => simpa [crlf] using hpre
      · exact ih ha.2 hsub

/-- A text without carriage returns holds no line terminator. -/
theorem noCrlf_of_not_mem {s : Bytes} (h : (13 : UInt8) ∉ s) : NoCrlf s := by
  intro hsub
  exact h (hsub.subset (by simp [crlf]))

/-- Line texts hold no line terminator, the fields a type does not use are empty,
counts fit in an {lit}`int`, and payloads have at most {lit}`limit` bytes. -/
inductive WellFormedWithin (limit : Int) : RespValue → Prop where
  | simpleString {str : Bytes} (h : NoCrlf str) : WellFormedWithin limit ⟨.simpleString, str, []⟩
  | integer {str : Bytes} (h : NoCrlf str) : WellFormedWithin limit ⟨.integer, str, []⟩
  | bulkString {str : Bytes} (h : (str.length : Int) ≤ limit) :
      WellFormedWithin limit ⟨.bulkString, str, []⟩
  | null : WellFormedWithin limit ⟨.null, [], []⟩
  | array {elements : List RespValue} (hcount : (elements.length : Int) ≤ intMax)
      (helements : ∀ e ∈ elements, WellFormedWithin limit e) :
      WellFormedWithin limit ⟨.array, [], elements⟩

/-- The longest payload that the parser can step over: its length and the two bytes
behind it are added as an {lit}`int`. -/
def payloadMax : Int := intMax - 2

/-- Values that the wire format determines. -/
abbrev WellFormed : RespValue → Prop :=
  WellFormedWithin payloadMax

end RespValue

end RedisClone
