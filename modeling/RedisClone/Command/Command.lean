import RedisClone.Resp.RespValue

/-!
# Commands

The command types, the lookup of a type from the first element of a request,
and the classification of commands that the dispatcher and the connection use.

Main results:

- Theorem {lit}`parseCommand_array`: a nonempty request array is a command with
  the texts of its elements as arguments.
- Theorem {lit}`exists_parseCommand`: every nonempty request is a command.
-/

namespace RedisClone

/-- {lit}`Command::Type`. -/
inductive CommandType where
  | ping
  | info
  | echo
  | set
  | get
  | typeCmd
  | rpush
  | lpush
  | lrange
  | llen
  | lpop
  | blpop
  | xadd
  | xrange
  | xread
  | incr
  | multi
  | watch
  | unwatch
  | exec
  | discard
  | replconf
  | psync
  | wait
  | unknown
deriving DecidableEq, Repr

/-- A parsed command: its type, the name as it was sent, and its arguments. -/
structure Command where
  type : CommandType
  name : Bytes
  args : List Bytes
deriving DecidableEq, Repr

/-- The names of the commands, in the order in which they are compared. -/
def commandNames : List (String × CommandType) :=
  [("ping", .ping), ("info", .info), ("echo", .echo), ("set", .set), ("get", .get),
   ("type", .typeCmd), ("rpush", .rpush), ("lpush", .lpush), ("lrange", .lrange),
   ("llen", .llen), ("lpop", .lpop), ("blpop", .blpop), ("xadd", .xadd), ("xrange", .xrange),
   ("xread", .xread), ("incr", .incr), ("multi", .multi), ("watch", .watch),
   ("unwatch", .unwatch), ("exec", .exec), ("discard", .discard), ("replconf", .replconf),
   ("psync", .psync), ("wait", .wait)]

/-- {lit}`Command::parse_type`: the name is compared without regard to case. -/
def parseType (name : Bytes) : CommandType :=
  match commandNames.find? fun entry => lowercase name = ascii entry.1 with
  | some entry => entry.2
  | none => .unknown

/-- {lit}`Command::is_replication_command`. -/
def isReplicationCommand : CommandType → Bool
  | .replconf => true
  | .psync => true
  | _ => false

/-- {lit}`Command::is_write_command`. -/
def isWriteCommand : CommandType → Bool
  | .set => true
  | .incr => true
  | .rpush => true
  | .lpush => true
  | .lpop => true
  | .blpop => true
  | .xadd => true
  | _ => false

/-- {lit}`CommandHandler::parse_command`; {lit}`at(0)` throws on an empty array. -/
def parseCommand (request : RespValue) : Except Exception Command :=
  match request.elements with
  | [] => .error (.rangeCheck 0 0)
  | name :: args => .ok ⟨parseType name.str, name.str, args.map RespValue.str⟩

/-- The type of the command in a request. -/
def requestType (request : RespValue) : CommandType :=
  match parseCommand request with
  | .ok cmd => cmd.type
  | .error _ => .unknown

/-- The arguments of the command in a request. -/
def requestArgs (request : RespValue) : List Bytes :=
  match parseCommand request with
  | .ok cmd => cmd.args
  | .error _ => []

/-- A request as clients send it: a nonempty array of well-formed elements. -/
structure IsRequest (request : RespValue) : Prop where
  type_eq : request.type = .array
  nonempty : request.elements ≠ []
  wellFormed : RespValue.WellFormed request

/-- {lit}`command_utils::check_args`: an error if arguments are missing. -/
def checkArgs (cmd : Command) (minArgs : Nat) : Option Bytes :=
  if cmd.args.length < minArgs then
    some (ascii "-ERR wrong number of arguments for '" ++ cmd.name ++ ascii "' command\r\n")
  else none

example : parseType (ascii "RPush") = .rpush := by decide +kernel

/-- A nonempty request array is a command with the texts of its elements. -/
theorem parseCommand_array {type : RespType} {str : Bytes} {name : RespValue}
    {args : List RespValue} :
    parseCommand ⟨type, str, name :: args⟩ =
      .ok ⟨parseType name.str, name.str, args.map RespValue.str⟩ :=
  rfl

/-- The type of a request is the type of its command. -/
theorem requestType_of_parse {request : RespValue} {cmd : Command}
    (h : parseCommand request = .ok cmd) : requestType request = cmd.type := by
  unfold requestType
  rw [h]

/-- The arguments of a request are those of its command. -/
theorem requestArgs_of_parse {request : RespValue} {cmd : Command}
    (h : parseCommand request = .ok cmd) : requestArgs request = cmd.args := by
  unfold requestArgs
  rw [h]

/-- A request is parsed unless it is empty. -/
theorem exists_parseCommand {request : RespValue} (h : request.elements ≠ []) :
    ∃ cmd, parseCommand request = .ok cmd := by
  rcases request with ⟨type, str, elements⟩
  cases elements with
  | nil => exact absurd rfl h
  | cons name args => exact ⟨_, parseCommand_array⟩

end RedisClone
