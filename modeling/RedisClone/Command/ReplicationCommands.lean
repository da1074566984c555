import RedisClone.Command.Command
import RedisClone.Replication.ReplicaRegistry
import RedisClone.Replication.ReplicaStream

/-!
# {lit}`REPLCONF`, {lit}`PSYNC` and {lit}`WAIT`

The commands of the replication protocol on the master.  {lit}`PSYNC` answers
with the current offset and a placeholder RDB file; {lit}`WAIT` counts the
replicas that acknowledged the offset at which it was issued, at once or by
polling.

Main results:

- Theorem {lit}`psyncExecute_master`: what a master answers to a complete
  {lit}`PSYNC`.
- Theorem {lit}`waitPoll_eq_some`: when a poll of {lit}`WAIT` replies, and what.
-/

namespace RedisClone

/-! ## Server configuration -/

/-- {lit}`ServerConfig::Role`. -/
inductive Role where
  | master
  | slave
deriving DecidableEq, Repr

/-- A character of {lit}`ServerConfig::generate_replid`. -/
def isReplidChar (b : UInt8) : Bool :=
  (48 ≤ b && b ≤ 57) || (97 ≤ b && b ≤ 122) || (65 ≤ b && b ≤ 90)

/-- {lit}`ServerConfig`, as far as the commands read it. -/
structure ServerConfig where
  role : Role
  masterReplid : Bytes
  masterReplOffset : Int
  replid_length : masterReplid.length = 40
  replid_chars : ∀ b ∈ masterReplid, isReplidChar b = true

/-- A replication identifier is part of one line. -/
theorem ServerConfig.noCrlf_replid (config : ServerConfig) :
    RespValue.NoCrlf config.masterReplid := by
  apply RespValue.noCrlf_of_not_mem
  intro hmem
  exact absurd (config.replid_chars 13 hmem) (by decide)

/-! ## {lit}`REPLCONF` and {lit}`PSYNC` -/

/-- {lit}`ReplconfCommand::execute`. -/
def replconfExecute : Bytes :=
  ascii "+OK\r\n"

/-- The placeholder RDB file: a header, the end-of-file opcode and a zero
checksum. -/
def rdbPayload : Bytes :=
  ascii "REDIS0009" ++ [255] ++ List.replicate 8 0

/-- {lit}`PsyncCommand::execute`. -/
def psyncExecute (config : ServerConfig) (registry : Option ReplicaRegistry) (cmd : Command) :
    Bytes :=
  match checkArgs cmd 2 with
  | some err => err
  | none =>
      if config.role = .slave then ascii "-ERR not a master\r\n"
      else
        let offset :=
          match registry with
          | some r => r.masterOffset
          | none => config.masterReplOffset
        ascii "+FULLRESYNC " ++ config.masterReplid ++ ascii " " ++ Decimal.renderInt offset ++
          ascii "\r\n$" ++ Decimal.render rdbPayload.length ++ ascii "\r\n" ++ rdbPayload

/-- A master answers with its offset and the placeholder RDB file. -/
theorem psyncExecute_master {config : ServerConfig} (hrole : config.role = .master)
    {cmd : Command} (hargs : 2 ≤ cmd.args.length) (r : ReplicaRegistry) :
    psyncExecute config (some r) cmd =
      fullresyncMessage config.masterReplid (Decimal.renderInt r.masterOffset) rdbPayload := by
  have hcheck : checkArgs cmd 2 = none := if_neg (by omega)
  have hslave : ¬ Role.master = Role.slave := by simp
  unfold psyncExecute fullresyncMessage fullresyncText
  simp only [hcheck, hrole, hslave, if_false]
  simp [ascii, crlf]

/-! ## {lit}`WAIT` -/

/-- {lit}`parse_nonnegative`: the whole text is a number that is not negative. -/
def parseNonnegative (value : Bytes) : Option Int :=
  match fromCharsLongLong value with
  | some (n, []) => if n ≥ 0 then some n else none
  | _ => none

/-- What the polling closure of {lit}`WAIT` captures. -/
structure PendingWait where
  targetOffset : Int
  numreplicas : Int
  deadline : Option Int
deriving DecidableEq, Repr

/-- What {lit}`WaitCommand::execute` does. -/
inductive WaitStart where
  /-- An error, or the answer without a registry. -/
  | answered (response : Bytes)
  /-- Enough replicas acknowledged the offset already. -/
  | acked (targetOffset numreplicas count : Int)
  /-- {lit}`request_getack`, then the first poll. -/
  | pending (wait : PendingWait)
deriving DecidableEq, Repr

/-- The deadline in nanoseconds of the steady clock, computed in 64 bits. -/
def waitDeadline (timeoutMs now : Int) : Option Int :=
  if timeoutMs > 0 then some (wrapLongLong (now + wrapLongLong (timeoutMs * 1000000))) else none

/-- {lit}`WaitCommand::execute`, up to the first poll. -/
def waitExecute (registry : Option ReplicaRegistry) (args : List Bytes) (now : Int) : WaitStart :=
  match args with
  | [num, timeout] =>
      match parseNonnegative num, parseNonnegative timeout with
      | some numreplicas, some timeoutMs =>
          match registry with
          | none => .answered (ascii ":0\r\n")
          | some r =>
              if numreplicas ≤ r.countAckedAtLeast r.masterOffset then
                .acked r.masterOffset numreplicas (r.countAckedAtLeast r.masterOffset)
              else .pending ⟨r.masterOffset, numreplicas, waitDeadline timeoutMs now⟩
      | _, _ => .answered (ascii "-ERR value is not an integer or out of range\r\n")
  | _ => .answered (ascii "-ERR wrong number of arguments for 'WAIT' command\r\n")

/-- An immediate reply counts the replicas at the current offset, and they are
enough. -/
theorem waitExecute_acked {r : ReplicaRegistry} {args : List Bytes} {now target num count : Int}
    (h : waitExecute (some r) args now = .acked target num count) :
    target = r.masterOffset ∧ count = r.countAckedAtLeast target ∧ num ≤ count := by
  unfold waitExecute at h
  split at h
  · split at h
    · simp only at h
      split at h
      · rename_i hle
        cases h
        exact ⟨rfl, rfl, hle⟩
      · contradiction
    · contradiction
  · contradiction

/-- What is polled for is what the request asks for: the offset at which it was issued,
the number of replicas in its first argument, and the deadline of its second. -/
structure PendingWait.Answers (wait : PendingWait) (args : List Bytes) (now offset : Int) :
    Prop where
  target_eq : wait.targetOffset = offset
  exists_args : ∃ num timeout timeoutMs, args = [num, timeout] ∧
    parseNonnegative num = some wait.numreplicas ∧ parseNonnegative timeout = some timeoutMs ∧
    ∀ d ∈ wait.deadline, waitDeadline timeoutMs now = some d

/-- A {lit}`WAIT` that is answered at once. -/
theorem answers_of_acked {r : ReplicaRegistry} {args : List Bytes} {now target num count : Int}
    (h : waitExecute (some r) args now = .acked target num count) :
    PendingWait.Answers ⟨target, num, none⟩ args now r.masterOffset := by
  unfold waitExecute at h
  split at h
  · rename_i num timeout
    split at h
    · rename_i numreplicas timeoutMs hnum htimeout
      simp only at h
      split at h
      · cases h
        exact ⟨rfl, num, timeout, timeoutMs, rfl, hnum, htimeout, by simp⟩
      · contradiction
    · contradiction
  · contradiction

/-- A {lit}`WAIT` that is going to poll. -/
theorem answers_of_pending {r : ReplicaRegistry} {args : List Bytes} {now : Int}
    {wait : PendingWait} (h : waitExecute (some r) args now = .pending wait) :
    wait.Answers args now r.masterOffset := by
  unfold waitExecute at h
  split at h
  · rename_i num timeout
    split at h
    · rename_i numreplicas timeoutMs hnum htimeout
      simp only at h
      split at h
      · contradiction
      · cases h
        exact ⟨rfl, num, timeout, timeoutMs, rfl, hnum, htimeout, fun d hd => hd⟩
    · contradiction
  · contradiction

/-- The reply of {lit}`WAIT`. -/
def countReply (count : Int) : Bytes :=
  ascii ":" ++ Decimal.renderInt count ++ ascii "\r\n"

/-- One poll of {lit}`WAIT`: the count, if it replies. -/
def waitPoll (r : ReplicaRegistry) (wait : PendingWait) (now : Int) : Option Int :=
  let count : Int := r.countAckedAtLeast wait.targetOffset
  let timedOut := wait.deadline.any (· ≤ now)
  if wait.numreplicas ≤ count ∨ timedOut then some count else none

/-- A poll replies with the current count, and before the deadline only if that
is large enough. -/
theorem waitPoll_eq_some {r : ReplicaRegistry} {wait : PendingWait} {now n : Int}
    (h : waitPoll r wait now = some n) :
    n = r.countAckedAtLeast wait.targetOffset ∧
      ((∀ d ∈ wait.deadline, now < d) → wait.numreplicas ≤ n) := by
  unfold waitPoll at h
  simp only at h
  split at h
  · rename_i hreply
    cases h
    refine ⟨rfl, ?_⟩
    intro hearly
    rcases hreply with hcount | htimeout
    · exact hcount
    · rcases (Option.any_eq_true _ _).mp htimeout with ⟨d, hd, hle⟩
      have hlt := hearly d hd
      have hle' : d ≤ now := by simpa using hle
      omega
  · contradiction

end RedisClone
