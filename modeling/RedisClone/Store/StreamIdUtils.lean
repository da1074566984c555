import RedisClone.Util.Text

/-!
# Stream identifiers

The textual identifiers {lit}`ms-seq` of stream entries: how {lit}`XADD` parses
and completes them, and how ranges and cursors read them back.  Components are
read with {lit}`std::stoull` and kept as {lit}`long long`, so a component of
2^63 or more turns negative.
-/

namespace RedisClone

namespace StreamUtils

/-- The text in front of the first dash and the text behind it. -/
def splitDash (text : Bytes) : Option (Bytes × Bytes) :=
  match text.dropWhile (· ≠ 45) with
  | [] => none
  | _ :: rest => some (text.takeWhile (· ≠ 45), rest)

/-- {lit}`StreamIdParts`. -/
structure StreamIdParts where
  ms : Int
  seq : Int
  autoSeq : Bool
deriving DecidableEq, Repr

/-- {lit}`LastIdParts`. -/
structure LastIdParts where
  ms : Int
  seq : Int
  valid : Bool
deriving DecidableEq, Repr

/-- {lit}`StreamBoundParts`. -/
structure StreamBoundParts where
  ms : Int
  seq : Nat
deriving DecidableEq, Repr

/-- The exception for an identifier that cannot be parsed. -/
def invalidStreamId : Exception :=
  .invalidArgument (ascii "Invalid stream ID specified")

/-- {lit}`static_cast<long long>(std::stoull(text))`. -/
def component (text : Bytes) : Except Exception Int :=
  (stoull text).map toLongLong

/-- A component of a new identifier; every exception is replaced. -/
def newComponent (text : Bytes) : Except Exception Int :=
  match component text with
  | .ok n => .ok n
  | .error _ => .error invalidStreamId

/-- {lit}`duration_cast<milliseconds>` of a reading of the system clock. -/
def toMilliseconds (nanoseconds : Int) : Int :=
  nanoseconds.tdiv 1000000

/-- {lit}`parse_stream_id`, with the reading of the system clock in nanoseconds. -/
def parseStreamId (streamId : Bytes) (now : Int) : Except Exception StreamIdParts :=
  if streamId = ascii "*" then .ok ⟨toMilliseconds now, 0, true⟩
  else
    match splitDash streamId with
    | none => .error invalidStreamId
    | some (front, back) => do
        let ms ← newComponent front
        if back = ascii "*" then return ⟨ms, 0, true⟩
        else return ⟨ms, ← newComponent back, false⟩

/-- {lit}`parse_last_id`. -/
def parseLastId (lastId : Bytes) : Except Exception LastIdParts :=
  match splitDash lastId with
  | none => .ok ⟨0, 0, false⟩
  | some (front, back) => do
      let ms ← component front
      let seq ← component back
      return ⟨ms, seq, true⟩

/-- {lit}`resolve_seq`. -/
def resolveSeq (idParts : StreamIdParts) (lastIdParts : LastIdParts) : Int :=
  if idParts.autoSeq = false then idParts.seq
  else if lastIdParts.valid ∧ idParts.ms = lastIdParts.ms then wrapLongLong (lastIdParts.seq + 1)
  else if idParts.ms = 0 then 1
  else 0

/-- {lit}`validate_id`. -/
def validateId (ms seq : Int) (lastIdParts : LastIdParts) : Except Exception Unit :=
  if ms = 0 ∧ seq = 0 then
    .error (.invalidArgument (ascii "The ID specified in XADD must be greater than 0-0"))
  else if lastIdParts.valid ∧
      (ms < lastIdParts.ms ∨ (ms = lastIdParts.ms ∧ seq ≤ lastIdParts.seq)) then
    .error (.invalidArgument
      (ascii "The ID specified in XADD is equal or smaller than the target stream top item"))
  else .ok ()

/-- The text {lit}`ms-seq`. -/
def renderId (ms seq : Int) : Bytes :=
  Decimal.renderInt ms ++ 45 :: Decimal.renderInt seq

/-- {lit}`generate_stream_id`. -/
def generateStreamId (pattern lastId : Bytes) (now : Int) : Except Exception Bytes := do
  let idParts ← parseStreamId pattern now
  let lastIdParts ← parseLastId lastId
  let seq := resolveSeq idParts lastIdParts
  validateId idParts.ms seq lastIdParts
  return renderId idParts.ms seq

/-- {lit}`parse_stream_bound`. -/
def parseStreamBound (streamId : Bytes) (isStart : Bool) : Except Exception StreamBoundParts :=
  if streamId = ascii "-" then .ok ⟨0, 0⟩
  else if streamId = ascii "+" then .ok ⟨longLongMax, sizeTModulus - 1⟩
  else
    match splitDash streamId with
    | none => do return ⟨← component streamId, if isStart then 0 else sizeTModulus - 1⟩
    | some (front, back) => do return ⟨← component front, ← stoull back⟩

end StreamUtils

end RedisClone
