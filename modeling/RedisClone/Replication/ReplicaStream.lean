import RedisClone.Replication.ReplicationSession

/-!
# The replication stream at the replica

What a replica makes of a full resynchronization: the reply line sets its
offset, the RDB payload is discarded whatever bytes it holds, and every command
behind it is counted, and dispatched or acknowledged, exactly once.

Main results:

- Theorem {lit}`drain_resync`: the session takes in a full resynchronization and
  the commands behind it.
- Theorem {lit}`replica_stream_exact_iff`: the same for every splitting into chunks,
  with the acknowledgement timer firing at any time, exactly up to the longest payload.
-/

namespace RedisClone

open RespValue

/-! ## The full resynchronization message -/

/-- The text of the {lit}`FULLRESYNC` reply. -/
def fullresyncText (replid offset : Bytes) : Bytes :=
  ascii "FULLRESYNC" ++ 32 :: (replid ++ 32 :: offset)

/-- The reply line, the RDB header and the RDB payload. -/
def fullresyncMessage (replid offset payload : Bytes) : Bytes :=
  43 :: (fullresyncText replid offset ++ (crlf ++
    (36 :: (Decimal.render payload.length ++ (crlf ++ payload)))))

/-- The reply text is one line. -/
theorem noCrlf_fullresyncText {replid : Bytes} (hreplid : NoCrlf replid) (o : Nat) :
    NoCrlf (fullresyncText replid (Decimal.render o)) :=
  noCrlf_append_cons (by decide)
    (noCrlf_append_cons hreplid (noCrlf_render o) (by decide) (by decide)) (by decide) (by decide)

/-- The offset is the text behind the last blank. -/
theorem parseFullresyncOffset_fullresyncText {o : Nat} (ho : o < sizeTModulus) (s : SessionState)
    (replid : Bytes) :
    parseFullresyncOffset s (fullresyncText replid (Decimal.render o)) =
      { s with replicaOffset := o } := by
  have hblank : ∀ b ∈ (Decimal.render o).reverse, decide (b ≠ 32) = true := by
    intro b hb
    have hdigit := Decimal.isDigit_of_mem_render (List.mem_reverse.mp hb)
    apply decide_eq_true
    rintro rfl
    exact absurd hdigit (by decide)
  have hlast : ((fullresyncText replid (Decimal.render o)).reverse.takeWhile (· ≠ 32)).reverse =
      Decimal.render o := by
    simp only [fullresyncText, List.reverse_append, List.reverse_cons, List.append_assoc]
    rw [List.takeWhile_append_of_pos hblank]
    simp
  have hnumber : fromCharsSizeT (Decimal.render o) = some ((o : Int), []) := by
    have hread := @fromChars_render 0 (sizeTModulus - 1) o [] (by omega) (by omega) (by simp)
    rwa [List.append_nil] at hread
  unfold parseFullresyncOffset
  rw [if_pos (by simp [fullresyncText]), hlast, hnumber]
  simp

/-! ## The steps of a full resynchronization -/

/-- A line behind its type byte. -/
theorem readLine_cons {b : UInt8} {text : Bytes} (hb : b ≠ 13) (htext : NoCrlf text)
    (rest : Bytes) : readLine (b :: (text ++ (crlf ++ rest))) = some (b :: text, rest) := by
  have hline : NoCrlf (b :: text) := by
    unfold NoCrlf at htext ⊢
    rw [List.infix_cons_iff, not_or]
    exact ⟨by simp [crlf, hb.symm], htext⟩
  exact readLine_append_crlf hline rest

/-- The reply line sets the offset. -/
theorem step_psyncReply {port n o : Nat} {replid : Bytes} (hreplid : NoCrlf replid)
    (ho : o < sizeTModulus) (rest : Bytes) :
    (sessionMachine port).step ⟨.psyncReply, n⟩
        (43 :: (fullresyncText replid (Decimal.render o) ++ (crlf ++ rest))) =
      some (⟨.rdbHeader, o⟩, rest, []) := by
  have htext := noCrlf_fullresyncText hreplid o
  have hparse := parse_serialize (.simpleString htext) []
  simp only [serialize, List.append_nil] at hparse
  rw [sessionMachine_step]
  simp only [sessionStep, readReply, @readLine_cons 43 _ (by decide) htext, List.cons_append,
    hparse, onReply, if_true, parseFullresyncOffset_fullresyncText ho]

/-- The header line states the size of the payload. -/
theorem step_rdbHeader {port n size : Nat} (hsize : size < sizeTModulus) (rest : Bytes) :
    (sessionMachine port).step ⟨.rdbHeader, n⟩
        (36 :: (Decimal.render size ++ (crlf ++ rest))) =
      some (⟨.rdbBody size, n⟩, rest, []) := by
  have hnumber : fromCharsSizeT (Decimal.render size) = some ((size : Int), []) := by
    have hread := @fromChars_render 0 (sizeTModulus - 1) size [] (by omega) (by omega) (by simp)
    rwa [List.append_nil] at hread
  rw [sessionMachine_step]
  simp [sessionStep, receiveRdb, @readLine_cons 36 _ (by decide) (noCrlf_render size), hnumber]

/-- The payload is discarded whatever it holds. -/
theorem step_rdbBody {port n : Nat} (payload rest : Bytes) :
    (sessionMachine port).step ⟨.rdbBody payload.length, n⟩ (payload ++ rest) =
      some (⟨.commands, n⟩, rest, []) := by
  rw [sessionMachine_step]
  simp [sessionStep, receiveRdbBody]

/-- A command is counted, and acknowledged or dispatched. -/
theorem step_command {port n : Nat} {command : RespValue} (hcommand : WellFormed command)
    (rest : Bytes) :
    (sessionMachine port).step ⟨.commands, n⟩ (serialize command ++ rest) =
      some (⟨.commands, (n + (serialize command).length) % sizeTModulus⟩, rest,
        [if isGetack command then
            .sendAck true ((n + (serialize command).length) % sizeTModulus)
          else .dispatch command]) := by
  rw [sessionMachine_step]
  simp only [sessionStep, tryProcessOneBufferedCommand]
  rw [if_neg (by simp [serialize_ne_nil]), parse_serialize hcommand]
  simp

/-! ## {lit}`REPLCONF GETACK` -/

/-- The text has these capital letters, each in either case. -/
def AnyCase (letters text : Bytes) : Prop :=
  List.Forall₂ (fun letter b => b = letter ∨ b = letter + 32) letters text

/-- A {lit}`REPLCONF GETACK` message: an array with these two words in front, in any
case. -/
def GetackMessage (command : RespValue) : Prop :=
  command.type = .array ∧ ∃ name sub rest, command.elements = name :: sub :: rest ∧
    AnyCase (ascii "REPLCONF") name.str ∧ AnyCase (ascii "GETACK") sub.str

/-- A capital letter in either case. -/
theorem toLower_eq_iff {letter b : UInt8} (hletter : 65 ≤ letter ∧ letter ≤ 90) :
    toLower b = letter + 32 ↔ b = letter ∨ b = letter + 32 := by
  unfold toLower
  split_ifs with hb
  · constructor
    · intro h
      exact .inl (UInt8.add_left_inj 32 |>.mp h)
    · rintro (rfl | rfl)
      · rfl
      · simp only [UInt8.le_iff_toNat_le, UInt8.toNat_add] at hb hletter
        simp at hb hletter
        omega
  · constructor
    · exact .inr
    · rintro (rfl | rfl)
      · exact absurd hletter hb
      · rfl

/-- Lower-case letters read in either case. -/
theorem lowercase_eq_iff {letters text : Bytes} (hletters : ∀ c ∈ letters, 65 ≤ c ∧ c ≤ 90) :
    lowercase text = letters.map (· + 32) ↔ AnyCase letters text := by
  unfold lowercase AnyCase
  induction letters generalizing text with
  | nil => cases text <;> simp
  | cons letter letters ih =>
      cases text with
      | nil => simp
      | cons b text =>
          have hfirst := @toLower_eq_iff letter b (hletters letter (by simp))
          have hrest := @ih text fun c hc => hletters c (by simp [hc])
          rw [List.map_cons, List.map_cons, List.cons.injEq, List.forall₂_cons, hfirst, hrest]

/-- {lit}`is_getack` recognizes these messages. -/
theorem isGetack_iff (command : RespValue) : isGetack command = true ↔ GetackMessage command := by
  have hname : ∀ text, lowercase text = ascii "replconf" ↔ AnyCase (ascii "REPLCONF") text :=
    fun text => @lowercase_eq_iff (ascii "REPLCONF") text (by decide +kernel)
  have hsub : ∀ text, lowercase text = ascii "getack" ↔ AnyCase (ascii "GETACK") text :=
    fun text => @lowercase_eq_iff (ascii "GETACK") text (by decide +kernel)
  unfold isGetack GetackMessage
  rcases command with ⟨type, str, elements⟩
  rcases elements with _ | ⟨name, _ | ⟨sub, rest⟩⟩
  · simp
  · simp
  · simp [hname, hsub]

instance (command : RespValue) : Decidable (GetackMessage command) :=
  decidable_of_iff _ (isGetack_iff command)

/-! ## Whole streams -/

/-- What a replica at stream position {lit}`o` does for a sequence of commands:
each {lit}`REPLCONF GETACK` is acknowledged with the position behind it, every
other command is dispatched. -/
def streamActions (o : Nat) : List RespValue → List SessionAction
  | [] => []
  | command :: commands =>
      (if GetackMessage command then .sendAck true ((o + (serialize command).length) % sizeTModulus)
        else .dispatch command) :: streamActions (o + (serialize command).length) commands

/-- The command loop takes in a sequence of commands. -/
theorem drain_commands {port : Nat} {commands : List RespValue}
    (hcommands : ∀ c ∈ commands, WellFormed c) (o : Nat) :
    (sessionMachine port).drain ⟨.commands, o % sizeTModulus⟩ (commands.flatMap serialize) =
      (⟨.commands, (o + (commands.flatMap serialize).length) % sizeTModulus⟩, [],
        streamActions o commands) := by
  induction commands generalizing o with
  | nil =>
      apply (sessionMachine port).drain_of_none
      rfl
  | cons command commands ih =>
      have hstep := @step_command port (o % sizeTModulus) command (hcommands command (by simp))
        (commands.flatMap serialize)
      rw [Nat.mod_add_mod] at hstep
      have hlater := ih (fun c hc => hcommands c (by simp [hc])) (o + (serialize command).length)
      rw [List.flatMap_cons, (sessionMachine port).drain_of_some hstep, hlater]
      simp [streamActions, isGetack_iff, Nat.add_assoc]

/-- The command loop ends at a command with a payload that is too long. -/
theorem drain_commands_crashed {port : Nat} {commands : List RespValue}
    (hcommands : ∀ c ∈ commands, WellFormedWithin intMax c)
    (hlong : ∃ c ∈ commands, ¬ WellFormed c) (o : Nat) :
    ((sessionMachine port).drain ⟨.commands, o % sizeTModulus⟩
      (commands.flatMap serialize)).1.phase = .crashed := by
  induction commands generalizing o with
  | nil => simp at hlong
  | cons command commands ih =>
      rw [List.flatMap_cons]
      by_cases hcommand : WellFormed command
      · have hlater : ∃ c ∈ commands, ¬ WellFormed c := by
          rcases hlong with ⟨c, hc, hlong⟩
          rcases List.mem_cons.mp hc with rfl | hc
          · exact absurd hcommand hlong
          · exact ⟨c, hc, hlong⟩
        have hstep := @step_command port (o % sizeTModulus) command hcommand
          (commands.flatMap serialize)
        rw [Nat.mod_add_mod] at hstep
        rw [(sessionMachine port).drain_of_some hstep]
        exact ih (fun c hc => hcommands c (by simp [hc])) hlater _
      · rcases parseLoop_serialize_overflows (hcommands command (by simp)) hcommand []
          (commands.flatMap serialize) with ⟨outermost, rest, hloop⟩
        have hstep : (sessionMachine port).step ⟨.commands, o % sizeTModulus⟩
            (serialize command ++ commands.flatMap serialize) =
            some (⟨.crashed, o % sizeTModulus⟩,
              serialize command ++ commands.flatMap serialize, []) := by
          rw [sessionMachine_step]
          simp only [sessionStep, tryProcessOneBufferedCommand]
          rw [if_neg (by simp [serialize_ne_nil])]
          simp [parse, hloop]
        rw [(sessionMachine port).drain_of_some hstep, (sessionMachine port).drain_of_none rfl]

/-- A full resynchronization leads to the command loop, at the stated offset. -/
theorem drain_fullresync {port n o : Nat} {replid payload : Bytes}
    (hreplid : NoCrlf replid) (ho : o < sizeTModulus) (hpayload : payload.length < sizeTModulus)
    (rest : Bytes) :
    (sessionMachine port).drain ⟨.psyncReply, n⟩
        (fullresyncMessage replid (Decimal.render o) payload ++ rest) =
      (sessionMachine port).drain ⟨.commands, o % sizeTModulus⟩ rest := by
  rw [Nat.mod_eq_of_lt ho]
  simp only [fullresyncMessage, List.cons_append, List.append_assoc]
  rw [(sessionMachine port).drain_of_some (step_psyncReply hreplid ho _),
    (sessionMachine port).drain_of_some (step_rdbHeader hpayload _),
    (sessionMachine port).drain_of_some (step_rdbBody payload _)]
  simp

/-- A full resynchronization and the commands behind it, in one buffer. -/
theorem drain_resync {port n o : Nat} {replid payload : Bytes} {commands : List RespValue}
    (hreplid : NoCrlf replid) (ho : o < sizeTModulus) (hpayload : payload.length < sizeTModulus)
    (hcommands : ∀ c ∈ commands, WellFormed c) :
    (sessionMachine port).drain ⟨.psyncReply, n⟩
        (fullresyncMessage replid (Decimal.render o) payload ++ commands.flatMap serialize) =
      (⟨.commands, (o + (commands.flatMap serialize).length) % sizeTModulus⟩, [],
        streamActions o commands) :=
  (drain_fullresync hreplid ho hpayload _).trans (drain_commands hcommands o)

/-- A run takes in what it receives as if it had come in one piece. -/
theorem run_eq_drain {port : Nat} {s : ReplicationSession} {events : List SessionEvent}
    (hphase : s.state.phase = .psyncReply) (hbuf : s.buf = []) :
    ((s.run port events).1.state, (s.run port events).1.buf,
        drivenActions (s.run port events).2) =
      (sessionMachine port).drain ⟨.psyncReply, s.state.replicaOffset⟩
        (receivedChunks events).flatten := by
  have hstate : s.state = ⟨.psyncReply, s.state.replicaOffset⟩ := by rw [← hphase]
  have hwait : (sessionMachine port).step s.state s.buf = none := by
    rw [hstate, hbuf]
    rfl
  rw [run_eq_feedAll, (sessionMachine port).feedAll_eq_drain hwait, hbuf, List.nil_append]
  rw [← hstate]

/-- Segmentation is not observable at the replica: however the full
resynchronization and the commands behind it are cut into chunks, and whatever
the acknowledgement timer does meanwhile, the session dispatches each command
that is not a {lit}`REPLCONF GETACK` once and in order, answers each
{lit}`REPLCONF GETACK` with the offset behind it, and ends with an empty buffer
at the end of the stream, if and only if no payload is longer than {lit}`INT_MAX - 2`. -/
theorem replica_stream_exact_iff {port o : Nat} {replid payload : Bytes} {commands : List RespValue}
    {s : ReplicationSession} {events : List SessionEvent}
    (hreplid : NoCrlf replid) (ho : o < sizeTModulus) (hpayload : payload.length < sizeTModulus)
    (hcommands : ∀ c ∈ commands, WellFormedWithin intMax c)
    (hphase : s.state.phase = .psyncReply) (hbuf : s.buf = [])
    (hbytes : (receivedChunks events).flatten =
      fullresyncMessage replid (Decimal.render o) payload ++ commands.flatMap serialize) :
    ((s.run port events).1.state =
        ⟨.commands, (o + (commands.map fun c => (serialize c).length).sum) % sizeTModulus⟩ ∧
      (s.run port events).1.buf = [] ∧
      drivenActions (s.run port events).2 = streamActions o commands) ↔
        ∀ c ∈ commands, WellFormedWithin (intMax - 2) c := by
  have hrun := @run_eq_drain port s events hphase hbuf
  rw [hbytes] at hrun
  constructor
  · rintro ⟨hstate, -⟩
    by_contra hlong
    push Not at hlong
    rw [drain_fullresync hreplid ho hpayload] at hrun
    have hcrashed := @drain_commands_crashed port commands hcommands hlong o
    rw [← hrun, hstate] at hcrashed
    contradiction
  · intro hshort
    rw [drain_resync hreplid ho hpayload hshort] at hrun
    simp only [Prod.mk.injEq, List.length_flatMap] at hrun
    exact hrun

/-- A stream with a command and a request for an acknowledgement, cut inside the reply
line, inside an RDB payload that holds a line terminator, and inside both commands. -/
def splitStream : List SessionEvent :=
  [.receive (ascii "+FULLRESYNC id "), .receive (ascii "7\r\n$4\r\na\r\n"),
    .receive (ascii "+*1\r\n$4\r\nPI"), .ackTimer,
    .receive (ascii "NG\r\n*3\r\n$8\r\nREPLCONF\r\n$6\r\ngetack\r\n"),
    .receive (ascii "$1\r\n*\r\n")]

/-- The commands of the split stream. -/
def splitCommands : List RespValue :=
  [.array [.bulkString (ascii "PING")],
    .array [.bulkString (ascii "REPLCONF"), .bulkString (ascii "getack"), .bulkString (ascii "*")]]

/-- The split stream is taken in like an unsplit one: the command is dispatched, and the
acknowledgement carries the offset behind the request. -/
theorem replica_stream_exact_iff_split :
    (ReplicationSession.run 6380 ⟨⟨.psyncReply, 0⟩, [], false⟩ splitStream).1.state =
        ⟨.commands, (7 + (splitCommands.map fun c => (serialize c).length).sum) % sizeTModulus⟩ ∧
      (ReplicationSession.run 6380 ⟨⟨.psyncReply, 0⟩, [], false⟩ splitStream).1.buf = [] ∧
      drivenActions
        (ReplicationSession.run 6380 ⟨⟨.psyncReply, 0⟩, [], false⟩ splitStream).2 =
        [.dispatch (.array [.bulkString (ascii "PING")]), .sendAck true 58] := by
  have hwf : ∀ limit : Int, 8 ≤ limit → ∀ c ∈ splitCommands, WellFormedWithin limit c := by
    intro limit hlimit c hc
    have hcommand : ∀ words : List Bytes, words.length ≤ 3 → (∀ w ∈ words, w.length ≤ 8) →
        WellFormedWithin limit (.array (words.map .bulkString)) := by
      intro words hcount hwords
      refine .array (by rw [List.length_map]; unfold intMax; omega) ?_
      intro e he
      rcases List.mem_map.mp he with ⟨w, hw, rfl⟩
      exact .bulkString ((Int.ofNat_le.mpr (hwords w hw)).trans hlimit)
    rcases List.mem_pair.mp hc with rfl | rfl
    · exact hcommand [ascii "PING"] (by decide) (by decide)
    · exact hcommand [ascii "REPLCONF", ascii "getack", ascii "*"] (by decide) (by decide)
  have hactions : streamActions 7 splitCommands =
      [.dispatch (.array [.bulkString (ascii "PING")]), .sendAck true 58] := by
    decide +kernel
  rw [← hactions]
  refine (@replica_stream_exact_iff 6380 7 (ascii "id") (ascii "a\r\n+") splitCommands _ _
    ?_ ?_ ?_ ?_ ?_ ?_ ?_).mpr (hwf _ (by decide))
  · decide
  · decide
  · decide
  · exact hwf _ (by decide)
  · rfl
  · rfl
  · decide +kernel

/-- A command with a payload of 2147483646 bytes ends the session. -/
theorem replica_stream_long_payload :
    (∀ c ∈ [RespValue.array [.bulkString longPayload]], WellFormedWithin intMax c) ∧
      (ReplicationSession.run 6380 ⟨⟨.psyncReply, 0⟩, [], false⟩
        [.receive (fullresyncMessage (ascii "id") (Decimal.render 0) [] ++
          [RespValue.array [.bulkString longPayload]].flatMap serialize)]).1.state ≠
        ⟨.commands, (0 + ([RespValue.array [.bulkString longPayload]].map
          fun c => (serialize c).length).sum) % sizeTModulus⟩ := by
  have hfits : WellFormedWithin intMax (.array [.bulkString longPayload]) := by
    refine .array (by decide) ?_
    intro e he
    rw [List.mem_singleton.mp he]
    exact longPayload_fits
  have hlong : ¬ WellFormed (.array [.bulkString longPayload]) := by
    intro h
    cases h with
    | array _ helements => exact longPayload_not_wellFormed (helements _ (by simp))
  have hrun := @run_eq_drain 6380 ⟨⟨.psyncReply, 0⟩, [], false⟩
    [.receive (fullresyncMessage (ascii "id") (Decimal.render 0) [] ++
      [RespValue.array [.bulkString longPayload]].flatMap serialize)] rfl rfl
  have hcrashed := @drain_commands_crashed 6380 [.array [.bulkString longPayload]]
    (by simpa using hfits) ⟨_, by simp, hlong⟩ 0
  refine ⟨by simpa using hfits, fun hstate => ?_⟩
  simp only [receivedChunks, List.filterMap_cons, List.filterMap_nil, List.flatten_cons,
    List.flatten_nil, List.append_nil] at hrun
  rw [drain_fullresync (by decide) (by decide) (by decide)] at hrun
  rw [← hrun, hstate] at hcrashed
  contradiction

end RedisClone
