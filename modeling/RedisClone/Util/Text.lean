import RedisClone.Lib.Decimal

/-!
# Byte strings and numeric conversions

Strings of the server are byte strings.  This module fixes the byte type, the
helpers of {lit}`string_utils`, and the conversions of the standard library the
server calls: {lit}`std::from_chars`, {lit}`std::stoll`, {lit}`std::stoull`,
{lit}`std::stod` and {lit}`std::to_string`.

Main results:

- Theorem {lit}`fromChars_render`: {lit}`from_chars` reads a canonical numeral
  back, whatever nondigit follows it.
- Theorem {lit}`length_render_le_of_fromChars`: text that {lit}`from_chars`
  accepts is at least as long as the canonical numeral of its value.
-/

namespace RedisClone

/-- A {lit}`std::string`: arbitrary bytes. -/
abbrev Bytes := List UInt8

instance lawfulBEqBytes : LawfulBEq Bytes :=
  inferInstance

/-- Bytes of an ASCII literal of the source. -/
def ascii (s : String) : Bytes :=
  s.toList.map fun c => UInt8.ofNat c.toNat

/-- The line terminator of the protocol. -/
def crlf : Bytes := [13, 10]

/-- The exceptions thrown by the library calls of the server. -/
inductive Exception where
  | lengthError
  | invalidArgument (what : Bytes)
  | outOfRange (what : Bytes)
  /-- No exception of the source: a sum left the range of {lit}`int`, which is undefined. -/
  | signedOverflow
deriving DecidableEq, Repr

/-- The exception of {lit}`vector::at`, in the words of libstdc++. -/
def Exception.rangeCheck (index size : Nat) : Exception :=
  .outOfRange (ascii "vector::_M_range_check: __n (which is " ++ Decimal.render index ++
    ascii ") >= this->size() (which is " ++ Decimal.render size ++ ascii ")")

/-- Message returned by {lit}`what()`. -/
def Exception.what : Exception → Bytes
  | .lengthError => ascii "vector::reserve"
  | .invalidArgument what => what
  | .outOfRange what => what
  | .signedOverflow => []

/-! ## Letter case -/

/-- {lit}`string_utils::to_lower`. -/
def toLower (character : UInt8) : UInt8 :=
  if 65 ≤ character ∧ character ≤ 90 then character + 32 else character

/-- {lit}`string_utils::lowercase`. -/
def lowercase (str : Bytes) : Bytes :=
  str.map toLower

/-- {lit}`toupper` in the C locale. -/
def toUpper (character : UInt8) : UInt8 :=
  if 97 ≤ character ∧ character ≤ 122 then character - 32 else character

/-- A string with every letter in upper case. -/
def uppercase (str : Bytes) : Bytes :=
  str.map toUpper

/-! ## Fixed-width integers -/

/-- Largest {lit}`int`. -/
def intMax : Int := 2147483647

/-- Largest {lit}`long long`. -/
def longLongMax : Int := 9223372036854775807

/-- Smallest {lit}`long long`. -/
def longLongMin : Int := -9223372036854775808

/-- Number of values of {lit}`std::size_t` and {lit}`uint64_t`. -/
def sizeTModulus : Nat := 18446744073709551616

/-- {lit}`static_cast<long long>` of an unsigned 64-bit value. -/
def toLongLong (n : Nat) : Int :=
  if n < 9223372036854775808 then n else (n : Int) - 18446744073709551616

/-- Two's-complement reduction of an integer to {lit}`long long`. -/
def wrapLongLong (n : Int) : Int :=
  toLongLong (n % 18446744073709551616).toNat

/-! ## `std::from_chars` -/

/-- A magnitude with its sign. -/
def signed (negative : Bool) (n : Nat) : Int :=
  if negative then -(n : Int) else n

/-- Digits read by {lit}`from_chars`: the value of the leading digit run, bounds
checked against the target type, and the text behind it. -/
def fromDigits (lo hi : Int) (negative : Bool) (s : Bytes) : Option (Int × Bytes) :=
  if (s.takeWhile Decimal.isDigit).isEmpty then none
  else if lo ≤ signed negative (Decimal.value (s.takeWhile Decimal.isDigit)) ∧
      signed negative (Decimal.value (s.takeWhile Decimal.isDigit)) ≤ hi then
    some (signed negative (Decimal.value (s.takeWhile Decimal.isDigit)),
      s.dropWhile Decimal.isDigit)
  else none

/-- {lit}`std::from_chars` in base ten for a type with bounds {lit}`lo` and
{lit}`hi`; {lean}`none` is any error code.  Only signed types accept a dash. -/
def fromChars (lo hi : Int) : Bytes → Option (Int × Bytes)
  | 45 :: s => if lo < 0 then fromDigits lo hi true s else none
  | s => fromDigits lo hi false s

/-- {lit}`from_chars` into an {lit}`int`. -/
def fromCharsInt (s : Bytes) : Option (Int × Bytes) :=
  fromChars (-2147483648) intMax s

/-- {lit}`from_chars` into a {lit}`long long`. -/
def fromCharsLongLong (s : Bytes) : Option (Int × Bytes) :=
  fromChars longLongMin longLongMax s

/-- {lit}`from_chars` into a {lit}`std::size_t`. -/
def fromCharsSizeT (s : Bytes) : Option (Int × Bytes) :=
  fromChars 0 (sizeTModulus - 1) s

/-! ## `std::stoll`, `std::stoull` and `std::stod` -/

/-- {lit}`isspace` in the C locale. -/
def isSpace (b : UInt8) : Bool :=
  b = 32 || (9 ≤ b && b ≤ 13)

/-- Optional sign of a number: whether it is negative, and the text behind it. -/
def scanSign : Bytes → Bool × Bytes
  | 45 :: s => (true, s)
  | 43 :: s => (false, s)
  | s => (false, s)

/-- The integer at the front of a text as {lit}`strtoll` scans it: blanks, an
optional sign and a nonempty digit run; the rest of the text is ignored. -/
def scanInteger (s : Bytes) : Option (Bool × Nat) :=
  let (negative, body) := scanSign (s.dropWhile isSpace)
  let digits := body.takeWhile Decimal.isDigit
  if digits.isEmpty then none else some (negative, Decimal.value digits)

/-- {lit}`std::stoll`. -/
def stoll (s : Bytes) : Except Exception Int :=
  match scanInteger s with
  | none => .error (.invalidArgument (ascii "stoll"))
  | some (negative, n) =>
      if longLongMin ≤ signed negative n ∧ signed negative n ≤ longLongMax then
        .ok (signed negative n)
      else .error (.outOfRange (ascii "stoll"))

/-- {lit}`std::stoull`; a negative text wraps around, as {lit}`strtoull` does. -/
def stoull (s : Bytes) : Except Exception Nat :=
  match scanInteger s with
  | none => .error (.invalidArgument (ascii "stoull"))
  | some (negative, n) =>
      if sizeTModulus ≤ n then .error (.outOfRange (ascii "stoull"))
      else .ok (if negative then (sizeTModulus - n) % sizeTModulus else n)

/-- A {lit}`double` as far as the server distinguishes its values. -/
inductive Double where
  | finite (q : ℚ)
  | infinity (negative : Bool)
  | nan
deriving DecidableEq

/-- Comparison of a {lit}`double` with zero. -/
def Double.positive : Double → Bool
  | .finite q => 0 < q
  | .infinity negative => !negative
  | .nan => false

/-- Value of a hexadecimal digit. -/
def hexValue (b : UInt8) : Option Nat :=
  if Decimal.isDigit b then some (b.toNat - 48)
  else if 97 ≤ toLower b ∧ toLower b ≤ 102 then some ((toLower b).toNat - 87)
  else none

/-- Digits around an optional radix point, in the given base; {lean}`none` if
there is no digit at all. -/
def scanFraction (base : Nat) (digitValue : UInt8 → Option Nat) (s : Bytes) :
    Option (ℚ × Bytes) :=
  let isDigit := fun b => (digitValue b).isSome
  let toNat := fun ds : Bytes => ds.foldl (fun acc b => base * acc + (digitValue b).getD 0) 0
  let whole := s.takeWhile isDigit
  let (fraction, rest) :=
    match s.dropWhile isDigit with
    | 46 :: t => (t.takeWhile isDigit, t.dropWhile isDigit)
    | t => ([], t)
  if whole.isEmpty && fraction.isEmpty then none
  else some ((toNat whole : ℚ) + toNat fraction / (base : ℚ) ^ fraction.length, rest)

/-- Optional exponent introduced by a letter; without a digit behind the letter
there is no exponent. -/
def scanExponent (letter : UInt8) : Bytes → Int
  | b :: s =>
      if toLower b = letter then
        let (negative, body) := scanSign s
        signed negative (Decimal.value (body.takeWhile Decimal.isDigit))
      else 0
  | [] => 0

/-- The number at the front of a text as {lit}`strtod` scans it. -/
def scanDouble (s : Bytes) : Option Double :=
  let (negative, body) := scanSign (s.dropWhile isSpace)
  let finite := fun q : ℚ => Double.finite (if negative then -q else q)
  if (ascii "inf").isPrefixOf (lowercase body) then some (.infinity negative)
  else if (ascii "nan").isPrefixOf (lowercase body) then some .nan
  else
    let hexadecimal :=
      if (ascii "0x").isPrefixOf (lowercase body) then scanFraction 16 hexValue (body.drop 2)
      else none
    match hexadecimal with
    | some (q, rest) => some (finite (q * 2 ^ scanExponent 112 rest))
    | none =>
        (scanFraction 10 (fun b => if Decimal.isDigit b then some (b.toNat - 48) else none)
          body).map fun (q, rest) => finite (q * 10 ^ scanExponent 101 rest)

/-- The exponent of the leading bit of a nonzero number. -/
def leadingBit (q : ℚ) : Int :=
  let e : Int := (q.num.natAbs.log2 : Int) - (q.den.log2 : Int)
  -- numerator and denominator are known up to a factor of two
  if |q| < 2 ^ e then e - 1 else e

/-- The nearest multiple of 2^e; of two nearest ones the even multiple. -/
def roundEven (e : Int) (q : ℚ) : ℚ :=
  let low := (q / 2 ^ e).floor
  let part := q / 2 ^ e - low
  (if part < 1 / 2 ∨ (part = 1 / 2 ∧ low % 2 = 0) then low else low + 1 : Int) * 2 ^ e

/-- The nearest {lit}`double`, without a largest exponent: 53 bits, and no bit below
2^-1074. -/
def roundDouble (q : ℚ) : ℚ :=
  roundEven (max (leadingBit q - 52) (-1074)) q

/-- {lit}`strtod` reports {lit}`ERANGE`: the rounded number is too large, or it is not
exact and, with 53 bits, below the smallest normal one. -/
def isRangeError (q : ℚ) : Bool :=
  2 ^ 1024 ≤ |roundDouble q| ||
    (roundDouble q ≠ q && |roundEven (leadingBit q - 52) q| < 1 / 2 ^ 1022)

/-- {lit}`std::stod`. -/
def stod (s : Bytes) : Except Exception Double :=
  match scanDouble s with
  | none => .error (.invalidArgument (ascii "stod"))
  | some (.finite q) =>
      if isRangeError q then .error (.outOfRange (ascii "stod")) else .ok (.finite (roundDouble q))
  | some d => .ok d

example : stod (ascii "1.7976931348623159e308") = .error (.outOfRange (ascii "stod")) := by
  decide +kernel

example : stod (ascii "0x1p-1074") = .ok (.finite (1 / 2 ^ 1074)) := by decide +kernel

example : stoull (ascii " +12ab") = .ok 12 := by decide +kernel

example : stoull (ascii "-1") = .ok 18446744073709551615 := by decide +kernel

/-! ## Numerals read back -/

/-- What a successful digit read returns. -/
theorem fromDigits_eq_some {lo hi n : Int} {negative : Bool} {s rest : Bytes} :
    fromDigits lo hi negative s = some (n, rest) ↔
      s.takeWhile Decimal.isDigit ≠ [] ∧ lo ≤ n ∧ n ≤ hi ∧
        n = signed negative (Decimal.value (s.takeWhile Decimal.isDigit)) ∧
        rest = s.dropWhile Decimal.isDigit := by
  unfold fromDigits
  split
  · rename_i hempty
    simp [List.isEmpty_iff.mp hempty]
  · rename_i hne
    have hne' : s.takeWhile Decimal.isDigit ≠ [] := by simpa using hne
    split
    · rename_i hbounds
      simp only [Option.some.injEq, Prod.mk.injEq]
      constructor
      · rintro ⟨rfl, rfl⟩
        exact ⟨hne', hbounds.1, hbounds.2, rfl, rfl⟩
      · rintro ⟨-, -, -, rfl, rfl⟩
        exact ⟨rfl, rfl⟩
    · rename_i hbounds
      constructor
      · intro h
        contradiction
      · rintro ⟨-, hlo, hhi, rfl, -⟩
        exact absurd ⟨hlo, hhi⟩ hbounds

/-- A canonical numeral within bounds is read back by {lit}`from_chars`. -/
theorem fromChars_render {lo hi : Int} {n : Nat} {rest : Bytes}
    (hlo : lo ≤ n) (hhi : n ≤ hi) (hrest : ∀ b ∈ rest.head?, Decimal.isDigit b = false) :
    fromChars lo hi (Decimal.render n ++ rest) = some ((n : Int), rest) := by
  have hdigits : fromDigits lo hi false (Decimal.render n ++ rest) = some ((n : Int), rest) := by
    rw [fromDigits_eq_some, Decimal.takeWhile_render_append n hrest,
      Decimal.dropWhile_render_append n hrest, Decimal.value_render]
    exact ⟨Decimal.render_ne_nil n, hlo, hhi, rfl, rfl⟩
  unfold fromChars
  split
  · rename_i s heq
    exact absurd heq (Decimal.render_append_ne_dash n rest s)
  · exact hdigits

/-- Text accepted by the digit reader is no shorter than the canonical digits of
the value followed by the unread rest. -/
theorem length_render_le_of_fromDigits {lo hi n : Int} {negative : Bool} {s rest : Bytes}
    (h : fromDigits lo hi negative s = some (n, rest)) :
    (Decimal.render n.natAbs).length + rest.length ≤ s.length := by
  rcases fromDigits_eq_some.mp h with ⟨hne, -, -, hn, rfl⟩
  have habs : n.natAbs = Decimal.value (s.takeWhile Decimal.isDigit) := by
    rw [hn]
    cases negative <;> simp [signed]
  have hshort := Decimal.length_render_value_le hne fun b hb => List.mem_takeWhile_imp hb
  have hsplit : (s.takeWhile Decimal.isDigit).length + (s.dropWhile Decimal.isDigit).length =
      s.length := by
    rw [← List.length_append, List.takeWhile_append_dropWhile]
  rw [habs]
  omega

/-- Text accepted by {lit}`from_chars` is no shorter than the canonical numeral
of the value followed by the unread rest, and the value is within bounds. -/
theorem length_render_le_of_fromChars {lo hi n : Int} {s rest : Bytes}
    (h : fromChars lo hi s = some (n, rest)) :
    (Decimal.renderInt n).length + rest.length ≤ s.length ∧ lo ≤ n ∧ n ≤ hi := by
  unfold fromChars at h
  split at h
  · rename_i s
    split at h
    · have hlen := length_render_le_of_fromDigits h
      rcases fromDigits_eq_some.mp h with ⟨-, hlo, hhi, -, -⟩
      refine ⟨?_, hlo, hhi⟩
      unfold Decimal.renderInt
      split <;> simp only [List.length_cons] <;> omega
    · contradiction
  · have hlen := length_render_le_of_fromDigits h
    rcases fromDigits_eq_some.mp h with ⟨-, hlo, hhi, hn, -⟩
    have hnonneg : ¬ n < 0 := by
      rw [hn]
      simp [signed]
    simp only [Decimal.renderInt, hnonneg, if_false]
    exact ⟨hlen, hlo, hhi⟩

end RedisClone
