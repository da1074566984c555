import RedisClone.Util.Text

/-!
# Starting a server

{lit}`main` reads the port from the environment and from the command line, and the address of the
master from the command line; {lit}`ReplicationManager::start` takes the address apart again.  The
loop over the arguments has no grammar of its own: an option takes the arguments behind it, whatever
they are, and an argument that is no option is skipped.  The port is read as an {lit}`int` and
passed on as an {lit}`unsigned short`; with zero the system chooses one, which is not modelled.

Main results:

- Theorem {lit}`parseArgs_render`: a command line is read as the options that it was written from.
- Theorem {lit}`replica_connects_to_last_master`: a replica connects to the master that was named
  last, and a server connects to nobody if none was named.
-/

namespace RedisClone

/-! ## The command line -/

/-- What {lit}`main` has read: the port, {lit}`config.replicaof`, and the complaints that it wrote
to {lit}`std::cerr`. -/
structure Launch where
  port : Int
  replicaof : Option Bytes
  complaints : List Bytes
deriving DecidableEq

/-- Before anything is read. -/
def Launch.default : Launch :=
  ⟨6379, none, []⟩

/-- A line on {lit}`std::cerr`. -/
def Launch.complain (l : Launch) (text : Bytes) : Launch :=
  { l with complaints := l.complaints ++ [text] }

/-- The name of the variable, with the equals sign. -/
def portVariable : Bytes :=
  ascii "REDIS_PORT="

/-- The loop over the environment: the first entry of the name counts, and a value that cannot be
converted leaves the port alone. -/
def readEnvironment (port : Int) : List Bytes → Int
  | [] => port
  | entry :: entries =>
      if portVariable <+: entry then
        match fromCharsInt (entry.drop portVariable.length) with
        | some (n, _) => n
        | none => port
      else readEnvironment port entries

/-- {lit}`--port`. -/
def Launch.setPort (l : Launch) (text : Bytes) : Launch :=
  match fromCharsInt text with
  | some (n, _) => { l with port := n }
  | none => l.complain (ascii "Invalid port argument: '" ++ text ++ ascii "'\n")

/-- {lit}`--replicaof`. -/
def Launch.setReplicaof (l : Launch) (host port : Bytes) : Launch :=
  { l with replicaof := some (host ++ ascii " " ++ port) }

/-- The loop over the arguments behind the name of the program. -/
def parseArgs (l : Launch) : List Bytes → Launch
  | arg :: second :: third :: rest =>
      if arg = ascii "--port" then parseArgs (l.setPort second) (third :: rest)
      else if arg = ascii "--replicaof" then parseArgs (l.setReplicaof second third) rest
      else parseArgs l (second :: third :: rest)
  | [arg, second] =>
      if arg = ascii "--port" then l.setPort second
      else if arg = ascii "--replicaof" then
        l.complain (ascii "Invalid --replicaof argument: expected 'host port'\n")
      else l
  | [_] => l
  | [] => l

/-- What {lit}`main` reads. -/
def launch (environment args : List Bytes) : Launch :=
  parseArgs { Launch.default with port := readEnvironment Launch.default.port environment } args

/-- The port that {lit}`Server` listens on and that a replica announces: the constructors take an
{lit}`unsigned short`. -/
def Launch.listeningPort (l : Launch) : Nat :=
  (l.port % 65536).toNat

/-! ## The address of the master -/

/-- {lit}`istringstream >> word`: blanks are skipped, and the word ends at the next one. -/
def extractWord (text : Bytes) : Option (Bytes × Bytes) :=
  let rest := text.dropWhile isSpace
  if rest = [] then none
  else some (rest.takeWhile fun b => !isSpace b, rest.dropWhile fun b => !isSpace b)

/-- {lit}`ReplicationManager::start`: what {lit}`connect_to_master` is called with. -/
def startReplication (replicaof : Option Bytes) : Option (Bytes × Bytes) := do
  let text ← replicaof
  let (host, rest) ← extractWord text
  let (port, _) ← extractWord rest
  pure (host, port)

/-- A text that is one word. -/
def IsWord (text : Bytes) : Prop :=
  text ≠ [] ∧ ∀ b ∈ text, isSpace b = false

theorem extractWord_word {word : Bytes} (h : IsWord word) (rest : Bytes)
    (hrest : rest = [] ∨ ∃ b more, rest = b :: more ∧ isSpace b = true) :
    extractWord (word ++ rest) = some (word, rest) := by
  have hskip : (word ++ rest).dropWhile isSpace = word ++ rest := by
    cases word with
    | nil => exact absurd rfl h.1
    | cons b word => simp [h.2 b List.mem_cons_self]
  have hword : ∀ b ∈ word, (!isSpace b) = true := fun b hb => by simp [h.2 b hb]
  have htake : rest.takeWhile (fun b => !isSpace b) = [] := by
    rcases hrest with rfl | ⟨b, more, rfl, hb⟩
    · rfl
    · simp [hb]
  have hdrop : rest.dropWhile (fun b => !isSpace b) = rest := by
    rcases hrest with rfl | ⟨b, more, rfl, hb⟩
    · rfl
    · simp [hb]
  unfold extractWord
  simp only [hskip]
  rw [if_neg (by simp [h.1]), List.takeWhile_append_of_pos hword,
    List.dropWhile_append_of_pos hword, htake, hdrop, List.append_nil]

theorem extractWord_blank (b : UInt8) (hb : isSpace b = true) (text : Bytes) :
    extractWord (b :: text) = extractWord text := by
  simp [extractWord, hb]

/-- The address that {lit}`main` puts together is taken apart again. -/
theorem startReplication_words {host port : Bytes} (hhost : IsWord host) (hport : IsWord port) :
    startReplication (some (host ++ ascii " " ++ port)) = some (host, port) := by
  have hblank : ascii " " = [32] := rfl
  have hfirst : extractWord (host ++ 32 :: port) = some (host, 32 :: port) :=
    extractWord_word hhost _ (Or.inr ⟨32, port, rfl, rfl⟩)
  have hsecond : extractWord (32 :: port) = some (port, []) := by
    rw [extractWord_blank 32 rfl]
    simpa using extractWord_word hport [] (Or.inl rfl)
  rw [hblank, List.append_assoc]
  simp only [startReplication, List.singleton_append, Option.bind_eq_bind, Option.bind_some, hfirst,
    hsecond]
  rfl

/-! ## Options -/

/-- An option as a user means it. -/
inductive CommandOption where
  | port (text : Bytes)
  | replicaof (host service : Bytes)
  /-- Anything else. -/
  | other (arg : Bytes)

/-- How it is written. -/
def CommandOption.render : CommandOption → List Bytes
  | .port text => [ascii "--port", text]
  | .replicaof host service => [ascii "--replicaof", host, service]
  | .other arg => [arg]

/-- What it does. -/
def CommandOption.apply (l : Launch) : CommandOption → Launch
  | .port text => l.setPort text
  | .replicaof host service => l.setReplicaof host service
  | .other _ => l

/-- Other arguments do not look like options, and addresses are made of words. -/
def CommandOption.Proper : CommandOption → Prop
  | .port _ => True
  | .replicaof host service => IsWord host ∧ IsWord service
  | .other arg => arg ≠ ascii "--port" ∧ arg ≠ ascii "--replicaof"

/-- The master that it names. -/
def CommandOption.master : CommandOption → Option (Bytes × Bytes)
  | .replicaof host service => some (host, service)
  | _ => none

/-- The port that it sets. -/
def CommandOption.portNumber : CommandOption → Option Int
  | .port text => (fromCharsInt text).map Prod.fst
  | _ => none

theorem parseArgs_port (l : Launch) (text : Bytes) (rest : List Bytes) :
    parseArgs l (ascii "--port" :: text :: rest) = parseArgs (l.setPort text) rest := by
  cases rest with
  | nil => simp [parseArgs]
  | cons third rest => rw [parseArgs, if_pos rfl]

theorem parseArgs_replicaof (l : Launch) (host port : Bytes) (rest : List Bytes) :
    parseArgs l (ascii "--replicaof" :: host :: port :: rest) =
      parseArgs (l.setReplicaof host port) rest := by
  have hne : ascii "--replicaof" ≠ ascii "--port" := by decide
  rw [parseArgs, if_neg hne, if_pos rfl]

theorem parseArgs_other {arg : Bytes} (hport : arg ≠ ascii "--port")
    (hreplicaof : arg ≠ ascii "--replicaof") (l : Launch) (rest : List Bytes) :
    parseArgs l (arg :: rest) = parseArgs l rest := by
  rcases rest with _ | ⟨second, _ | ⟨third, rest⟩⟩
  · rfl
  · simp [parseArgs, hport, hreplicaof]
  · rw [parseArgs, if_neg hport, if_neg hreplicaof]

/-- A command line is read as the options that it was written from. -/
theorem parseArgs_render {options : List CommandOption} (h : ∀ o ∈ options, o.Proper)
    (l : Launch) :
    parseArgs l (options.flatMap CommandOption.render) = options.foldl CommandOption.apply l := by
  induction options generalizing l with
  | nil => rfl
  | cons o options ih =>
      have hrest := ih fun o hmem => h o (List.mem_cons_of_mem _ hmem)
      rw [List.flatMap_cons, List.foldl_cons, ← hrest]
      cases o with
      | port text => exact parseArgs_port l text _
      | replicaof host port => exact parseArgs_replicaof l host port _
      | other arg =>
          have hproper := h (.other arg) List.mem_cons_self
          exact parseArgs_other hproper.1 hproper.2 l _

/-- What the options leave behind: the master and the port that were named last. -/
theorem foldl_apply (options : List CommandOption) (l : Launch) :
    (options.foldl CommandOption.apply l).replicaof =
        ((options.filterMap CommandOption.master).getLast?.map fun address =>
          address.1 ++ ascii " " ++ address.2).or l.replicaof ∧
      (options.foldl CommandOption.apply l).port =
        (options.filterMap CommandOption.portNumber).getLast?.getD l.port := by
  induction options using List.reverseRecOn with
  | nil => exact ⟨rfl, rfl⟩
  | append_singleton options o ih =>
      rw [List.foldl_append, List.foldl_cons, List.foldl_nil, List.filterMap_append,
        List.filterMap_append]
      cases o with
      | port text =>
          refine ⟨?_, ?_⟩
          · have hkeeps : ∀ l : Launch, (l.setPort text).replicaof = l.replicaof := by
              intro l
              unfold Launch.setPort
              split <;> rfl
            simpa [CommandOption.apply, CommandOption.master, hkeeps] using ih.1
          · cases hread : fromCharsInt text with
            | none =>
                simpa [CommandOption.apply, CommandOption.portNumber, Launch.setPort, hread,
                  Launch.complain] using ih.2
            | some read =>
                simp [CommandOption.apply, CommandOption.portNumber, Launch.setPort, hread]
      | replicaof host service =>
          refine ⟨by simp [CommandOption.apply, CommandOption.master, Launch.setReplicaof], ?_⟩
          simpa [CommandOption.apply, CommandOption.portNumber, Launch.setReplicaof] using ih.2
      | other arg =>
          simpa [CommandOption.apply, CommandOption.master, CommandOption.portNumber] using ih

/-- A server that is started with options, in any order and number, connects to the master that was
named last, and to nobody if none was named; it listens on the port that was named last and could be
converted, and otherwise on the one of the environment, reduced modulo 2^16. -/
theorem replica_connects_to_last_master (environment : List Bytes) {options : List CommandOption}
    (hproper : ∀ o ∈ options, o.Proper) :
    startReplication (launch environment (options.flatMap CommandOption.render)).replicaof =
        (options.filterMap CommandOption.master).getLast? ∧
      (launch environment (options.flatMap CommandOption.render)).listeningPort =
        ((options.filterMap CommandOption.portNumber).getLast?.getD
          (readEnvironment 6379 environment) % 65536).toNat := by
  rw [launch, parseArgs_render hproper]
  rcases foldl_apply options
    { Launch.default with port := readEnvironment Launch.default.port environment } with
    ⟨hreplicaof, hport⟩
  refine ⟨?_, by rw [Launch.listeningPort, hport]; rfl⟩
  rw [hreplicaof]
  cases hlast : (options.filterMap CommandOption.master).getLast? with
  | none => rfl
  | some address =>
      rcases List.mem_filterMap.mp (List.mem_of_getLast? hlast) with ⟨o, hmem, hmaster⟩
      cases o with
      | replicaof host service =>
          cases hmaster
          rcases hproper _ hmem with ⟨hhost, hservice⟩
          exact startReplication_words hhost hservice
      | _ => contradiction

/-- Two masters and an invalid port. -/
def twoMasters : List CommandOption :=
  [.replicaof (ascii "a") (ascii "1"), .port (ascii "x"), .other (ascii "-v"),
    .replicaof (ascii "b") (ascii "2")]

/-- The second master counts, and the port of the environment, which does not fit. -/
theorem replica_connects_to_last_master_twice :
    startReplication (launch [ascii "REDIS_PORT=70000"]
        (twoMasters.flatMap CommandOption.render)).replicaof = some (ascii "b", ascii "2") ∧
      (launch [ascii "REDIS_PORT=70000"]
        (twoMasters.flatMap CommandOption.render)).listeningPort = 4464 := by
  have hproper : ∀ o ∈ twoMasters, o.Proper := by
    simp only [twoMasters, List.mem_cons, List.not_mem_nil, or_false, forall_eq_or_imp, forall_eq,
      CommandOption.Proper, IsWord]
    decide +kernel
  have hport : ((twoMasters.filterMap CommandOption.portNumber).getLast?.getD
      (readEnvironment 6379 [ascii "REDIS_PORT=70000"]) % 65536).toNat = 4464 := by
    decide +kernel
  have hall := replica_connects_to_last_master [ascii "REDIS_PORT=70000"] hproper
  rw [hport] at hall
  exact hall

end RedisClone
