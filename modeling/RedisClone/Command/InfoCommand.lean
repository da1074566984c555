import RedisClone.Command.DataCommands
import RedisClone.Command.ReplicationCommands

/-!
# {lit}`INFO`

The sections of {lit}`INFO` and their selection by the optional argument.  The
number of connected clients and the memory estimate are the values that the
callbacks of the server return, and zero without a callback.

Current gaps: the offsets of the replicas are listed in the order of registration.  The source
iterates over an {lit}`unordered_map`, whose order is not specified.
-/

namespace RedisClone

/-- What the callbacks of {lit}`InfoCommand` return, and the version text. -/
structure ServerStats where
  version : Bytes
  connectedClients : Nat
  usedMemory : Nat
deriving DecidableEq, Repr

/-- {lit}`build_server_section`. -/
def buildServerSection (stats : ServerStats) : Bytes :=
  ascii "# Server\r\nredis_version:" ++ stats.version ++ ascii "\r\nredis_mode:standalone\r\n"

/-- {lit}`build_clients_section`. -/
def buildClientsSection (stats : ServerStats) : Bytes :=
  ascii "# Clients\r\nconnected_clients:" ++ Decimal.render stats.connectedClients ++ crlf

/-- {lit}`build_memory_section`. -/
def buildMemorySection (stats : ServerStats) : Bytes :=
  ascii "# Memory\r\nused_memory:" ++ Decimal.render stats.usedMemory ++ crlf

/-- {lit}`ServerConfig::role_str`. -/
def Role.roleStr : Role → Bytes
  | .master => ascii "master"
  | .slave => ascii "slave"

/-- The lines {lit}`slaveN:offset=…`. -/
def slaveLines (index : Nat) : List Int → Bytes
  | [] => []
  | offset :: offsets =>
      ascii "slave" ++ Decimal.render index ++ ascii ":offset=" ++ Decimal.renderInt offset ++
        crlf ++ slaveLines (index + 1) offsets

/-- {lit}`build_replication_section`. -/
def buildReplicationSection (config : ServerConfig) (registry : Option ReplicaRegistry) : Bytes :=
  let offsets := (registry.map fun r => r.replicas.map Prod.snd).getD []
  let slaves :=
    if config.role = .slave then []
    else ascii "connected_slaves:" ++ Decimal.render offsets.length ++ crlf ++ slaveLines 0 offsets
  let offset :=
    match config.role, registry with
    | .master, some r => r.masterOffset
    | _, _ => config.masterReplOffset
  ascii "# Replication\r\nrole:" ++ config.role.roleStr ++ crlf ++ slaves ++
    ascii "master_replid:" ++ config.masterReplid ++ crlf ++
    ascii "master_repl_offset:" ++ Decimal.renderInt offset ++ crlf ++
    ascii "second_repl_offset:-1\r\nrepl_backlog_active:0\r\nrepl_backlog_size:1048576\r\n" ++
    ascii "repl_backlog_first_byte_offset:0\r\nrepl_backlog_histlen:\r\n"

/-- {lit}`build_info_payload`. -/
def buildInfoPayload (requested : Bytes) (config : ServerConfig) (stats : ServerStats)
    (registry : Option ReplicaRegistry) : Bytes :=
  let normalized := lowercase requested
  if normalized = [] ∨ normalized = ascii "all" then
    buildServerSection stats ++ crlf ++ buildClientsSection stats ++ crlf ++
      buildMemorySection stats ++ crlf ++ buildReplicationSection config registry
  else if normalized = ascii "server" then buildServerSection stats
  else if normalized = ascii "clients" then buildClientsSection stats
  else if normalized = ascii "memory" then buildMemorySection stats
  else if normalized = ascii "replication" then buildReplicationSection config registry
  else []

/-- {lit}`InfoCommand::execute`. -/
def infoExecute (config : ServerConfig) (stats : ServerStats) (registry : Option ReplicaRegistry)
    (cmd : Command) : Bytes :=
  if 1 < cmd.args.length then ascii "-ERR wrong number of arguments for 'INFO' command\r\n"
  else bulkReply (buildInfoPayload (cmd.arg 0) config stats registry)

end RedisClone
