import RedisClone.Command.Command
import RedisClone.Store.StreamStore

/-!
# The commands on the keyspace

What {lit}`execute` of each command does before it calls back: the table behind
it, and then an exception, a blocked request, or an answer.  An answer consists
of the key that is reported to the watch manager, the waiters that are served,
and the reply, in this order.

{lit}`XRANGE` and {lit}`XREAD` call {lit}`on_reply` inside a {lit}`try` block, so
an exception thrown behind that call comes back to them; such an answer is marked
as guarded.

Main results:

- Theorem {lit}`possibleFor_of_dataCommand`: which commands wake waiters, block,
  or reply inside a {lit}`try` block.
-/

namespace RedisClone

/-! ## Replies -/

/-- A bulk string reply. -/
def bulkReply (text : Bytes) : Bytes :=
  ascii "$" ++ Decimal.render text.length ++ crlf ++ text ++ crlf

/-- The header of an array reply. -/
def arrayHeader (count : Nat) : Bytes :=
  ascii "*" ++ Decimal.render count ++ crlf

/-- An integer reply. -/
def integerReply (n : Int) : Bytes :=
  ascii ":" ++ Decimal.renderInt n ++ crlf

/-- The null bulk string. -/
def nullBulk : Bytes :=
  ascii "$-1\r\n"

/-- The null array. -/
def nullArray : Bytes :=
  ascii "*-1\r\n"

/-- An array of bulk strings. -/
def bulkArray (texts : List Bytes) : Bytes :=
  arrayHeader texts.length ++ texts.flatMap bulkReply

/-- The reply to {lit}`BLPOP`. -/
def popReply (key value : Bytes) : Bytes :=
  ascii "*2\r\n" ++ bulkReply key ++ bulkReply value

/-! ## Outcomes -/

/-- A reading of the steady and of the system clock, in nanoseconds. -/
structure Reading where
  steady : Int
  system : Int
deriving DecidableEq, Repr

/-- The waiters that a command serves. -/
inductive Wake where
  /-- {lit}`serve_blpop_waiters`. -/
  | blpop (key : Bytes)
  /-- {lit}`serve_xread_waiters`. -/
  | xread (key : Bytes)
deriving DecidableEq, Repr

/-- What a command does once it has changed the table. -/
structure Answer where
  /-- The key passed to {lit}`notify_write`. -/
  notify : Option Bytes
  wake : Option Wake
  /-- {lit}`on_reply` is called inside a {lit}`try` block. -/
  guarded : Bool
  response : Bytes
deriving DecidableEq, Repr

/-- How {lit}`execute` ends, unless it throws. -/
inductive Outcome where
  | answer (a : Answer)
  | blockBlpop (keys : List Bytes) (timeout : Double)
  | blockXread (streams : List (Bytes × Bytes)) (timeout : Double)
deriving DecidableEq

/-- An answer that only replies. -/
def Outcome.reply (response : Bytes) : Outcome :=
  .answer ⟨none, none, false, response⟩

/-- A reply inside a {lit}`try` block. -/
def Outcome.guardedReply (response : Bytes) : Outcome :=
  .answer ⟨none, none, true, response⟩

/-- The result of a command: the table behind it and the outcome. -/
abbrev CommandResult := Store × Except Exception Outcome

/-- {lit}`cmd.args.at(i)` behind a check of the number of arguments. -/
def Command.arg (cmd : Command) (i : Nat) : Bytes :=
  cmd.args.getD i []

/-- The check of the number of arguments in front of a command. -/
def checked (cmd : Command) (minArgs : Nat) (d : Store) (body : CommandResult) : CommandResult :=
  match checkArgs cmd minArgs with
  | some err => (d, .ok (.reply err))
  | none => body

/-! ## Basic commands -/

/-- {lit}`PingCommand::execute`. -/
def pingExecute (cmd : Command) (_ : Reading) (d : Store) : CommandResult :=
  match cmd.args with
  | msg :: _ => (d, .ok (.reply (bulkReply msg)))
  | [] => (d, .ok (.reply (ascii "+PONG\r\n")))

/-- {lit}`EchoCommand::execute`. -/
def echoExecute (cmd : Command) (_ : Reading) (d : Store) : CommandResult :=
  checked cmd 1 d (d, .ok (.reply (bulkReply (cmd.arg 0))))

/-- {lit}`command_utils::parse_expiry` on the arguments behind the value: the time
to live in milliseconds. -/
def parseExpiry : List Bytes → Except Exception (Option Int)
  | option :: value :: rest =>
      if lowercase option = ascii "ex" then
        (stoll value).map fun seconds => some (wrapLongLong (seconds * 1000))
      else if lowercase option = ascii "px" then (stoll value).map some
      else parseExpiry rest
  | _ => .ok none

/-- {lit}`SetCommand::execute`. -/
def setExecute (cmd : Command) (now : Reading) (d : Store) : CommandResult :=
  checked cmd 2 d <|
    match parseExpiry (cmd.args.drop 2) with
    | .error e => (d, .error e)
    | .ok none =>
        (d.set (cmd.arg 0) (cmd.arg 1),
          .ok (.answer ⟨some (cmd.arg 0), none, false, ascii "+OK\r\n"⟩))
    | .ok (some ttl) =>
        if ttl ≤ 0 then (d, .ok (.reply (ascii "-ERR invalid expire time in 'SET' command\r\n")))
        else
          (d.setTtl (cmd.arg 0) (cmd.arg 1) ttl now.steady,
            .ok (.answer ⟨some (cmd.arg 0), none, false, ascii "+OK\r\n"⟩))

/-- The reply to an error of a lookup. -/
def lookupError (error : Bytes) : Bytes :=
  if ascii "-WRONGTYPE" <:+: error then error else nullBulk

/-- {lit}`GetCommand::execute`. -/
def getExecute (cmd : Command) (now : Reading) (d : Store) : CommandResult :=
  checked cmd 1 d <|
    match d.get (cmd.arg 0) now.steady with
    | (d', .ok value) => (d', .ok (.reply (bulkReply value)))
    | (d', .error error) => (d', .ok (.reply (lookupError error)))

/-- {lit}`TypeCommand::execute`. -/
def typeExecute (cmd : Command) (now : Reading) (d : Store) : CommandResult :=
  checked cmd 1 d <|
    ((d.type (cmd.arg 0) now.steady).1,
      .ok (.reply (ascii "+" ++ (d.type (cmd.arg 0) now.steady).2 ++ crlf)))

/-- {lit}`IncrCommand::execute`. -/
def incrExecute (cmd : Command) (now : Reading) (d : Store) : CommandResult :=
  checked cmd 1 d <|
    match d.incr (cmd.arg 0) now.steady with
    | (d', .ok n) => (d', .ok (.answer ⟨some (cmd.arg 0), none, false, integerReply n⟩))
    | (d', .error error) => (d', .ok (.reply error))

/-! ## List commands -/

/-- A push: the watchers of the key hear of it, its waiters are served, and the
length it had before they were is replied. -/
def pushExecute (push : Store → Bytes → List Bytes → Store × Nat) (cmd : Command) (d : Store) :
    CommandResult :=
  checked cmd 2 d <|
    ((push d (cmd.arg 0) (cmd.args.drop 1)).1,
      .ok (.answer ⟨some (cmd.arg 0), some (.blpop (cmd.arg 0)), false,
        integerReply (push d (cmd.arg 0) (cmd.args.drop 1)).2⟩))

/-- {lit}`RPushCommand::execute`. -/
def rpushExecute (cmd : Command) (_ : Reading) (d : Store) : CommandResult :=
  pushExecute Store.rpush cmd d

/-- {lit}`LPushCommand::execute`. -/
def lpushExecute (cmd : Command) (_ : Reading) (d : Store) : CommandResult :=
  pushExecute Store.lpush cmd d

/-- {lit}`LRangeCommand::execute`. -/
def lrangeExecute (cmd : Command) (_ : Reading) (d : Store) : CommandResult :=
  checked cmd 3 d <|
    match stoll (cmd.arg 1), stoll (cmd.arg 2) with
    | .ok start, .ok stop => (d, .ok (.reply (bulkArray (d.lrange (cmd.arg 0) start stop))))
    | .error e, _ => (d, .error e)
    | .ok _, .error e => (d, .error e)

/-- {lit}`LLenCommand::execute`. -/
def llenExecute (cmd : Command) (_ : Reading) (d : Store) : CommandResult :=
  checked cmd 1 d (d, .ok (.reply (integerReply (d.llen (cmd.arg 0)))))

/-- The optional count of {lit}`LPOP`. -/
def lpopCount (cmd : Command) : Except Exception Nat :=
  if 2 ≤ cmd.args.length then stoull (cmd.arg 1) else .ok 1

/-- The reply to a successful {lit}`LPOP`; {lit}`front()` of an empty vector is
undefined and counts as an exception here. -/
def lpopReply (cmd : Command) (values : List Bytes) : Except Exception Bytes :=
  if cmd.args.length < 2 then
    match values with
    | value :: _ => .ok (bulkReply value)
    | [] => .error (.outOfRange (ascii "vector::front"))
  else .ok (bulkArray values)

/-- {lit}`LPopCommand::execute`. -/
def lpopExecute (cmd : Command) (_ : Reading) (d : Store) : CommandResult :=
  checked cmd 1 d <|
    match lpopCount cmd with
    | .error e => (d, .error e)
    | .ok count =>
        match d.lpop (cmd.arg 0) count with
        | (d', .error error) => (d', .ok (.reply (lookupError error)))
        | (d', .ok values) =>
            (d', (lpopReply cmd values).map fun response =>
              .answer ⟨some (cmd.arg 0), none, false, response⟩)

/-- The loop of {lit}`BLPOP` over its keys: the first list with an element is
popped. -/
def blpopKeys (d : Store) : List Bytes → Store × Except Exception (Option (Bytes × Bytes))
  | [] => (d, .ok none)
  | key :: keys =>
      match d.lpop key 1 with
      | (d', .ok (value :: _)) => (d', .ok (some (key, value)))
      | (d', .ok []) => (d', .error (.rangeCheck 0 0))
      | (_, .error _) => blpopKeys d keys

/-- {lit}`BlpopCommand::execute`; a pop of {lit}`BLPOP` is not reported to the
watch manager. -/
def blpopExecute (cmd : Command) (_ : Reading) (d : Store) : CommandResult :=
  checked cmd 2 d <|
    match stod (cmd.args.getLastD []) with
    | .error e => (d, .error e)
    | .ok timeout =>
        match blpopKeys d cmd.args.dropLast with
        | (d', .error e) => (d', .error e)
        | (d', .ok (some (key, value))) => (d', .ok (.reply (popReply key value)))
        | (d', .ok none) => (d', .ok (.blockBlpop cmd.args.dropLast timeout))

/-! ## Stream commands -/

/-- The fields of {lit}`XADD`. -/
def pairs : List Bytes → List (Bytes × Bytes)
  | field :: value :: rest => (field, value) :: pairs rest
  | _ => []

/-- {lit}`XAddCommand::execute`. -/
def xaddExecute (cmd : Command) (now : Reading) (d : Store) : CommandResult :=
  if cmd.args.length < 4 ∨ (cmd.args.length - 2) % 2 ≠ 0 then
    (d, .ok (.reply (ascii "-ERR wrong number of arguments for XADD\r\n")))
  else
    match d.xadd (cmd.arg 0) (cmd.arg 1) (pairs (cmd.args.drop 2)) now.system with
    | (d', .error e) => (d', .error e)
    | (d', .ok (.ok id)) =>
        (d', .ok (.answer ⟨some (cmd.arg 0), some (.xread (cmd.arg 0)), false, bulkReply id⟩))
    | (d', .ok (.error error)) => (d', .ok (.reply (error ++ crlf)))

/-- The reply for one stream entry. -/
def entryReply (entry : StreamEntry) : Bytes :=
  ascii "*2\r\n" ++ bulkReply entry.id ++ arrayHeader (entry.fields.length * 2) ++
    entry.fields.flatMap fun field => bulkReply field.1 ++ bulkReply field.2

/-- {lit}`format_stream_entries`. -/
def formatStreamEntries (results : List (Bytes × List StreamEntry)) : Bytes :=
  if results = [] then nullArray
  else
    arrayHeader results.length ++ results.flatMap fun stream =>
      ascii "*2\r\n" ++ bulkReply stream.1 ++ arrayHeader stream.2.length ++
        stream.2.flatMap entryReply

/-- The reply of a {lit}`catch` block. -/
def exceptionReply (e : Exception) : Bytes :=
  ascii "-ERR " ++ e.what ++ crlf

/-- {lit}`XRangeCommand::execute`. -/
def xrangeExecute (cmd : Command) (_ : Reading) (d : Store) : CommandResult :=
  if cmd.args.length ≠ 3 then
    (d, .ok (.reply (ascii "-ERR wrong number of arguments for XRANGE\r\n")))
  else
    match d.xrange (cmd.arg 0) (cmd.arg 1) (cmd.arg 2) with
    | .ok entries =>
        (d, .ok (.guardedReply (arrayHeader entries.length ++ entries.flatMap entryReply)))
    | .error e => (d, .ok (.reply (exceptionReply e)))

/-- {lit}`XReadArgs`. -/
structure XReadArgs where
  valid : Bool
  isBlocking : Bool
  timeout : Double
  keys : List Bytes
  ids : List Bytes
deriving DecidableEq

/-- The arguments from the first one that spells the word, in any case. -/
def fromWord (word : String) (args : List Bytes) : List Bytes :=
  args.dropWhile fun arg => uppercase arg ≠ ascii word

/-- The part of {lit}`parse_xread_args` behind {lit}`BLOCK`. -/
def parseStreams (args : List Bytes) (isBlocking : Bool) (timeout : Double) : XReadArgs :=
  match fromWord "STREAMS" args with
  | [] => ⟨false, isBlocking, timeout, [], []⟩
  | _ :: rest =>
      if rest.length = 0 ∨ rest.length % 2 ≠ 0 then ⟨false, isBlocking, timeout, [], []⟩
      else ⟨true, isBlocking, timeout, rest.take (rest.length / 2), rest.drop (rest.length / 2)⟩

/-- {lit}`parse_xread_args`. -/
def parseXreadArgs (cmd : Command) : XReadArgs :=
  match fromWord "BLOCK" cmd.args with
  | _ :: text :: _ =>
      match stod text with
      | .ok timeout => parseStreams cmd.args true timeout
      | .error _ => ⟨false, true, .finite 0, [], []⟩
  | _ => parseStreams cmd.args false (.finite 0)

/-- {lit}`resolve_stream_ids`: a dollar sign stands for the last entry. -/
def resolveStreamIds (d : Store) :
    List (Bytes × Bytes) → Except Exception (List (Bytes × Bytes))
  | [] => .ok []
  | (key, id) :: streams => do
      let resolved ←
        if id = ascii "$" then do
          let entries ← d.xrange key (ascii "-") (ascii "+")
          pure (match entries.getLast? with
            | some entry => entry.id
            | none => ascii "0-0")
        else pure id
      let rest ← resolveStreamIds d streams
      return (key, resolved) :: rest

/-- {lit}`XReadCommand::execute`. -/
def xreadExecute (cmd : Command) (_ : Reading) (d : Store) : CommandResult :=
  let parsed := parseXreadArgs cmd
  if parsed.valid = false then (d, .ok (.reply (ascii "-ERR syntax error\r\n")))
  else
    match resolveStreamIds d (parsed.keys.zip parsed.ids) with
    | .error e => (d, .error e)
    | .ok streams =>
        match d.xread streams with
        | .error e => (d, .ok (.reply (exceptionReply e)))
        | .ok results =>
            if results ≠ [] then (d, .ok (.guardedReply (formatStreamEntries results)))
            else if parsed.isBlocking = false then (d, .ok (.guardedReply nullArray))
            else (d, .ok (.blockXread streams parsed.timeout))

/-! ## The command table -/

/-- The commands that only work on the keyspace. -/
def dataCommand : CommandType → Option (Command → Reading → Store → CommandResult)
  | .ping => some pingExecute
  | .echo => some echoExecute
  | .set => some setExecute
  | .get => some getExecute
  | .typeCmd => some typeExecute
  | .incr => some incrExecute
  | .rpush => some rpushExecute
  | .lpush => some lpushExecute
  | .lrange => some lrangeExecute
  | .llen => some llenExecute
  | .lpop => some lpopExecute
  | .blpop => some blpopExecute
  | .xadd => some xaddExecute
  | .xrange => some xrangeExecute
  | .xread => some xreadExecute
  | _ => none

/-! ## Possible outcomes -/

/-- Only pushes and {lit}`XADD` serve waiters, only {lit}`BLPOP` and {lit}`XREAD`
block, and only {lit}`XRANGE` and {lit}`XREAD` reply inside a {lit}`try` block. -/
def Outcome.PossibleFor (type : CommandType) : Outcome → Prop
  | .answer a =>
      (∀ key, a.wake = some (.blpop key) → type = .rpush ∨ type = .lpush) ∧
        (∀ key, a.wake = some (.xread key) → type = .xadd) ∧
        (a.guarded = true → type = .xrange ∨ type = .xread)
  | .blockBlpop _ _ => type = .blpop
  | .blockXread _ _ => type = .xread

/-- Every command may just reply. -/
theorem possibleFor_reply (type : CommandType) (response : Bytes) :
    (Outcome.reply response).PossibleFor type :=
  ⟨by simp, by simp, by simp⟩

/-- Every command may notify watchers and reply. -/
theorem possibleFor_notify (type : CommandType) (key response : Bytes) :
    (Outcome.answer ⟨some key, none, false, response⟩).PossibleFor type :=
  ⟨by simp, by simp, by simp⟩

/-- {lit}`XRANGE` and {lit}`XREAD` may reply inside a {lit}`try` block. -/
theorem possibleFor_guardedReply {type : CommandType} (htype : type = .xrange ∨ type = .xread)
    (response : Bytes) : (Outcome.guardedReply response).PossibleFor type :=
  ⟨by simp, by simp, fun _ => htype⟩

/-- A command with checked arguments replies an error or goes on. -/
theorem possibleFor_checked {type : CommandType} {cmd : Command} {n : Nat} {d : Store}
    {body : CommandResult} (hbody : ∀ outcome, body.2 = .ok outcome → outcome.PossibleFor type)
    (outcome : Outcome) (h : (checked cmd n d body).2 = .ok outcome) :
    outcome.PossibleFor type := by
  unfold checked at h
  split at h
  · cases h
    exact possibleFor_reply type _
  · exact hbody outcome h

/-- The outcomes of a push. -/
theorem possibleFor_push {type : CommandType} (htype : type = .rpush ∨ type = .lpush)
    {push : Store → Bytes → List Bytes → Store × Nat} {cmd : Command} {d : Store}
    (outcome : Outcome) (h : (pushExecute push cmd d).2 = .ok outcome) :
    outcome.PossibleFor type := by
  apply possibleFor_checked _ outcome h
  intro outcome hout
  cases hout
  exact ⟨fun _ _ => htype, by simp, by simp⟩

/-- What a command on the keyspace can lead to. -/
theorem possibleFor_of_dataCommand {type : CommandType}
    {body : Command → Reading → Store → CommandResult} (hbody : dataCommand type = some body)
    {cmd : Command} {now : Reading} {d : Store} {outcome : Outcome}
    (h : (body cmd now d).2 = .ok outcome) : outcome.PossibleFor type := by
  cases type <;> simp only [dataCommand, Option.some.injEq, reduceCtorEq] at hbody
  case ping =>
    subst hbody
    unfold pingExecute at h
    split at h <;> cases h <;> exact possibleFor_reply _ _
  case echo =>
    subst hbody
    apply possibleFor_checked _ outcome h
    intro outcome hout
    cases hout
    exact possibleFor_reply _ _
  case set =>
    subst hbody
    apply possibleFor_checked _ outcome h
    intro outcome hout
    split at hout
    · cases hout
    · cases hout
      exact possibleFor_notify _ _ _
    · split at hout <;> cases hout
      · exact possibleFor_reply _ _
      · exact possibleFor_notify _ _ _
  case get =>
    subst hbody
    apply possibleFor_checked _ outcome h
    intro outcome hout
    split at hout <;> cases hout <;> exact possibleFor_reply _ _
  case typeCmd =>
    subst hbody
    apply possibleFor_checked _ outcome h
    intro outcome hout
    cases hout
    exact possibleFor_reply _ _
  case incr =>
    subst hbody
    apply possibleFor_checked _ outcome h
    intro outcome hout
    split at hout <;> cases hout
    · exact possibleFor_notify _ _ _
    · exact possibleFor_reply _ _
  case rpush =>
    subst hbody
    exact possibleFor_push (Or.inl rfl) outcome h
  case lpush =>
    subst hbody
    exact possibleFor_push (Or.inr rfl) outcome h
  case lrange =>
    subst hbody
    apply possibleFor_checked _ outcome h
    intro outcome hout
    split at hout <;> cases hout
    exact possibleFor_reply _ _
  case llen =>
    subst hbody
    apply possibleFor_checked _ outcome h
    intro outcome hout
    cases hout
    exact possibleFor_reply _ _
  case lpop =>
    subst hbody
    apply possibleFor_checked _ outcome h
    intro outcome hout
    split at hout
    · cases hout
    · split at hout
      · cases hout
        exact possibleFor_reply _ _
      · rename_i values _
        simp only at hout
        cases hreply : lpopReply cmd values with
        | error e => simp [hreply, Except.map] at hout
        | ok response =>
            simp only [hreply, Except.map, Except.ok.injEq] at hout
            subst hout
            exact possibleFor_notify _ _ _
  case blpop =>
    subst hbody
    apply possibleFor_checked _ outcome h
    intro outcome hout
    split at hout
    · cases hout
    · split at hout <;> cases hout
      · exact possibleFor_reply _ _
      · rfl
  case xadd =>
    subst hbody
    unfold xaddExecute at h
    split at h
    · cases h
      exact possibleFor_reply _ _
    · split at h <;> cases h
      · exact ⟨by simp, by simp, by simp⟩
      · exact possibleFor_reply _ _
  case xrange =>
    subst hbody
    unfold xrangeExecute at h
    split at h
    · cases h
      exact possibleFor_reply _ _
    · split at h <;> cases h
      · exact possibleFor_guardedReply (Or.inl rfl) _
      · exact possibleFor_reply _ _
  case xread =>
    subst hbody
    unfold xreadExecute at h
    simp only at h
    split at h
    · cases h
      exact possibleFor_reply _ _
    · split at h
      · cases h
      · split at h
        · cases h
          exact possibleFor_reply _ _
        · split at h
          · cases h
            exact possibleFor_guardedReply (Or.inr rfl) _
          · split at h <;> cases h
            · exact possibleFor_guardedReply (Or.inr rfl) _
            · rfl

end RedisClone
