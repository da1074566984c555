import RedisClone.Net.Connection
import RedisClone.Resp.ParsedValues

/-!
# Request framing of a connection

The read loop drains its buffer, parses one value and keeps no remainder.  It
therefore frames requests correctly only when every completed read holds exactly
one request: a pipelined request is dropped with the rest of the buffer, and a
request that is split behind a line terminator is answered with a parse error.

Main results:

- Theorem {lit}`framing_iff_aligned`: the requests of a connection all reach the
  command handler, in order and without a parse error, exactly when they are well-formed,
  each read completes with one whole request and none is one the connection disposes of
  itself.
- Theorem {lit}`pipelined_request_dropped`: two requests in one segment.
-/

namespace RedisClone

open RespValue

/-! ## Completed reads -/

/-- The buffers with which the successive reads complete, as
{lit}`async_read_until` delimits them. -/
def completedReads (buf : Bytes) : List Bytes → List Bytes
  | [] => []
  | chunk :: chunks =>
      if hasLine (buf ++ chunk) then (buf ++ chunk) :: completedReads [] chunks
      else completedReads (buf ++ chunk) chunks

/-- The completion handlers of successive reads. -/
def runReads (c : Connection) : List Bytes → List Action
  | [] => []
  | data :: datas =>
      if .throws ∈ (onRead c data).2 then (onRead c data).2
      else (onRead c data).2 ++ runReads (onRead c data).1 datas

/-- The completed reads hold a prefix of the bytes that arrived. -/
theorem completedReads_flatten (buf : Bytes) (chunks : List Bytes) :
    ∃ tail, (completedReads buf chunks).flatten ++ tail = buf ++ chunks.flatten := by
  induction chunks generalizing buf with
  | nil => exact ⟨buf, by simp [completedReads]⟩
  | cons chunk chunks ih =>
      unfold completedReads
      split
      · rcases ih [] with ⟨tail, htail⟩
        refine ⟨tail, ?_⟩
        simp only [List.flatten_cons, List.append_assoc, htail]
        simp
      · rcases ih (buf ++ chunk) with ⟨tail, htail⟩
        exact ⟨tail, by simpa using htail⟩

/-- A completed read is never empty. -/
theorem ne_nil_of_mem_completedReads {buf data : Bytes} {chunks : List Bytes}
    (h : data ∈ completedReads buf chunks) : data ≠ [] := by
  induction chunks generalizing buf with
  | nil => simp [completedReads] at h
  | cons chunk chunks ih =>
      unfold completedReads at h
      split at h
      · rename_i hline
        rcases List.mem_cons.mp h with rfl | h
        · intro hnil
          rw [hnil] at hline
          simp [hasLine, readLine] at hline
        · exact ih h
      · exact ih h

/-- Handling a request leaves the buffer alone. -/
theorem onRead_buf (c : Connection) (data : Bytes) : (onRead c data).1.buf = c.buf := by
  have hadvance : ∀ type, (advanceHandshake c type).buf = c.buf := by
    intro type
    unfold advanceHandshake
    split
    · split <;> rfl
    · rfl
  unfold onRead
  split
  · rfl
  · rfl
  · rename_i request consumed
    unfold onRequest
    split
    · rfl
    · split
      · rfl
      · unfold onCommand
        split
        · rfl
        · simp only
          split <;> exact hadvance _

/-- One chunk of a run. -/
theorem run_cons (c : Connection) (chunk : Bytes) (chunks : List Bytes) :
    (c.run (chunk :: chunks)).2 =
      if .throws ∈ (c.receive chunk).2 then (c.receive chunk).2
      else (c.receive chunk).2 ++ ((c.receive chunk).1.run chunks).2 := by
  rw [Connection.run]
  simp only
  split <;> rfl

/-- The actions of a connection are those of its completed reads. -/
theorem run_actions (c : Connection) (chunks : List Bytes) :
    (c.run chunks).2 = runReads { c with buf := [] } (completedReads c.buf chunks) := by
  induction chunks generalizing c with
  | nil => rfl
  | cons chunk chunks ih =>
      rw [run_cons, completedReads]
      cases hline : hasLine (c.buf ++ chunk) with
      | true =>
          have hreceive : c.receive chunk = onRead { c with buf := [] } (c.buf ++ chunk) := by
            simp [Connection.receive, hline]
          have hbuf : ∀ d : Connection, d.buf = [] → { d with buf := [] } = d := by
            rintro ⟨⟩ rfl
            rfl
          have hnil : (onRead { c with buf := [] } (c.buf ++ chunk)).1.buf = [] :=
            onRead_buf _ _
          rw [hreceive, if_pos rfl, runReads, ih, hbuf _ hnil, hnil]
      | false =>
          have hreceive : c.receive chunk = ({ c with buf := c.buf ++ chunk }, []) := by
            simp [Connection.receive, hline]
          rw [hreceive]
          simp only [List.not_mem_nil, if_false, List.nil_append, ih, Bool.false_eq_true]

/-! ## One read -/

/-- A read hands on at most one request, which is well-formed and whose encoding fits in the read. -/
theorem handledRequests_onRead (c : Connection) (data : Bytes) :
    handledRequests (onRead c data).2 = [] ∨
      ∃ request, handledRequests (onRead c data).2 = [request] ∧
        (serialize request).length ≤ data.length ∧ WellFormed request := by
  unfold onRead
  cases hparse : parse data with
  | error e => exact .inl rfl
  | ok result =>
      cases result with
      | none => exact .inl rfl
      | some p =>
          rcases p with ⟨request, consumed⟩
          have hlen := (length_serialize_le_of_parse hparse).trans (parse_consumed_le hparse)
          simp only [onRequest]
          split
          · exact .inl rfl
          · split
            · exact .inl rfl
            · rw [handledRequests_onCommand]
              split
              · exact .inl rfl
              · exact .inr ⟨request, rfl, hlen, parse_wellFormed hparse⟩

/-- What is handed on over successive reads. -/
theorem handledRequests_runReads_cons (c : Connection) (data : Bytes) (datas : List Bytes) :
    handledRequests (runReads c (data :: datas)) = handledRequests (onRead c data).2 ∨
      handledRequests (runReads c (data :: datas)) =
        handledRequests (onRead c data).2 ++
          handledRequests (runReads (onRead c data).1 datas) := by
  rw [runReads]
  split
  · exact .inl rfl
  · exact .inr (by simp [handledRequests])

/-- The encodings of the requests handed on fit in the bytes read. -/
theorem length_handled_le (c : Connection) (datas : List Bytes) :
    ((handledRequests (runReads c datas)).flatMap serialize).length ≤ datas.flatten.length := by
  induction datas generalizing c with
  | nil => simp [runReads, handledRequests]
  | cons data datas ih =>
      have hhead : ((handledRequests (onRead c data).2).flatMap serialize).length ≤ data.length := by
        rcases handledRequests_onRead c data with hnone | ⟨request, hone, hlen, -⟩
        · simp [hnone]
        · simpa [hone] using hlen
      have htail := ih (onRead c data).1
      rcases handledRequests_runReads_cons c data datas with heq | heq
      · rw [heq, List.flatten_cons, List.length_append]
        omega
      · rw [heq, List.flatMap_append, List.length_append, List.flatten_cons, List.length_append]
        omega

/-- Requests that are handed on are well-formed. -/
theorem wellFormed_of_handled (c : Connection) (datas : List Bytes) :
    ∀ r ∈ handledRequests (runReads c datas), WellFormed r := by
  induction datas generalizing c with
  | nil => simp [runReads, handledRequests]
  | cons data datas ih =>
      have hhead : ∀ r ∈ handledRequests (onRead c data).2, WellFormed r := by
        rcases handledRequests_onRead c data with hnone | ⟨request, hone, -, hformed⟩
        · simp [hnone]
        · simpa [hone] using hformed
      rcases handledRequests_runReads_cons c data datas with heq | heq <;> rw [heq]
      · exact hhead
      · exact fun r hr => (List.mem_append.mp hr).elim (hhead r) (ih _ r)

/-! ## Aligned reads -/

/-- If everything that arrived is handed on, then each read held exactly one
request: there is no room for anything else in the bytes. -/
theorem aligned_of_handled {c : Connection} {datas : List Bytes} {requests : List RespValue}
    {tail : Bytes} (hne : ∀ data ∈ datas, data ≠ [])
    (hhandled : handledRequests (runReads c datas) = requests)
    (hbytes : datas.flatten ++ tail = requests.flatMap serialize) :
    datas = requests.map serialize := by
  induction datas generalizing c requests tail with
  | nil =>
      simp only [runReads, handledRequests, List.filterMap_nil] at hhandled
      simp [← hhandled]
  | cons data datas ih =>
      have hdata : 0 < data.length := List.length_pos_iff.mpr (hne data (by simp))
      have hrest := length_handled_le (onRead c data).1 datas
      have hlength := congrArg List.length hbytes
      simp only [List.flatten_cons, List.length_append] at hlength
      -- the remaining reads cannot make up for bytes lost in this one
      rcases handledRequests_onRead c data with hnone | ⟨request, hone, hlen, -⟩
      · rcases handledRequests_runReads_cons c data datas with heq | heq
        · rw [heq, hnone] at hhandled
          rw [← hhandled] at hlength
          simp only [List.flatMap_nil, List.length_nil] at hlength
          omega
        · rw [heq, hnone, List.nil_append] at hhandled
          rw [hhandled] at hrest
          omega
      · rcases handledRequests_runReads_cons c data datas with heq | heq
        · rw [heq, hone] at hhandled
          subst hhandled
          simp only [List.flatMap_cons, List.flatMap_nil, List.append_nil] at hlength hbytes
          have hflat : datas.flatten = [] := List.length_eq_zero_iff.mp (by omega)
          have hnil : datas = [] := by
            cases datas with
            | nil => rfl
            | cons d ds =>
                have hd := hne d (by simp)
                simp only [List.flatten_cons, List.append_eq_nil_iff] at hflat
                exact absurd hflat.1 hd
          have htail : tail = [] := List.length_eq_zero_iff.mp (by omega)
          subst hnil
          subst htail
          simpa using hbytes
        · rw [heq, hone] at hhandled
          rw [← hhandled] at hlength hbytes
          simp only [List.singleton_append, List.flatMap_cons, List.length_append] at hlength
          simp only [List.flatten_cons, List.singleton_append, List.flatMap_cons,
            List.append_assoc] at hbytes
          have hsplit := List.append_inj hbytes (by omega)
          have htail := ih (fun d hd => hne d (by simp [hd])) rfl hsplit.2
          rw [← hhandled, List.singleton_append, List.map_cons, ← htail, hsplit.1]

/-- A sequence of requests none of which the connection disposes of itself. -/
def PassesToHandler (c : Connection) : List RespValue → Prop
  | [] => True
  | request :: requests =>
      ∃ cmd, parseCommand request = .ok cmd ∧ answersItself c cmd = false ∧
        PassesToHandler (advanceHandshake c cmd.type) requests

/-- A read that holds one request hands it on unless the connection disposes of
it. -/
theorem onRead_serialize {c : Connection} {request : RespValue} (hr : IsRequest request) :
    onRead c (serialize request) = onRequest c request := by
  have hparse := parse_serialize hr.wellFormed []
  rw [List.append_nil] at hparse
  simp only [onRead, hparse]

/-- Acting on a command raises no exception and reports no parse error. -/
theorem onCommand_quiet (c : Connection) (request : RespValue) (cmd : Command) :
    .throws ∉ (onCommand c request cmd).2 ∧ .parseError ∉ (onCommand c request cmd).2 := by
  have hacks : .throws ∉ ackActions cmd ∧ Action.parseError ∉ ackActions cmd := by
    unfold ackActions
    split
    · split <;> simp
    · simp
  unfold onCommand
  split
  · simp
  · simp only
    split
    · split <;> simp [hacks]
    · split <;> simp

/-- The state behind a request that is handed on. -/
theorem onCommand_fst {c : Connection} {request : RespValue} {cmd : Command}
    (h : answersItself c cmd = false) :
    (onCommand c request cmd).1 = advanceHandshake c cmd.type := by
  unfold answersItself at h
  simp only [Bool.or_eq_false_iff, Option.isSome_eq_false_iff, Option.isNone_iff_eq_none] at h
  unfold onCommand
  simp [h.1, h.2]

/-- Aligned reads of requests that pass to the handler are all handed on. -/
theorem runReads_aligned {c : Connection} {requests : List RespValue}
    (hrequests : ∀ r ∈ requests, IsRequest r) (hpass : PassesToHandler c requests) :
    handledRequests (runReads c (requests.map serialize)) = requests ∧
      .parseError ∉ runReads c (requests.map serialize) := by
  induction requests generalizing c with
  | nil => simp [runReads, handledRequests]
  | cons request requests ih =>
      have hr := hrequests request (by simp)
      rcases hpass with ⟨cmd, hcmd, hself, hpass⟩
      have hformat : ¬ (request.type ≠ .array ∨ request.elements = []) := by
        simp [hr.type_eq, hr.nonempty]
      have hread : onRead c (serialize request) = onCommand c request cmd := by
        rw [onRead_serialize hr, onRequest, if_neg hformat, hcmd]
      rcases onCommand_quiet c request cmd with ⟨hthrow, hparse⟩
      rcases ih (fun r h => hrequests r (by simp [h])) hpass with ⟨hlater, hquiet⟩
      have hone : handledRequests (onCommand c request cmd).2 = [request] := by
        rw [handledRequests_onCommand, hself]
        simp
      rw [List.map_cons, runReads, hread, if_neg hthrow, onCommand_fst hself]
      constructor
      · have hsplit : handledRequests ((onCommand c request cmd).2 ++
            runReads (advanceHandshake c cmd.type) (requests.map serialize)) =
            handledRequests (onCommand c request cmd).2 ++
              handledRequests (runReads (advanceHandshake c cmd.type) (requests.map serialize)) := by
          simp [handledRequests]
        rw [hsplit, hone, hlater]
        rfl
      · simp [hparse, hquiet]

/-- If aligned reads are all handed on, no request was disposed of. -/
theorem passes_of_handled {c : Connection} {requests : List RespValue}
    (hrequests : ∀ r ∈ requests, IsRequest r)
    (hhandled : (handledRequests (runReads c (requests.map serialize))).length = requests.length) :
    PassesToHandler c requests := by
  have hcount : ∀ (c : Connection) (datas : List Bytes),
      (handledRequests (runReads c datas)).length ≤ datas.length := by
    intro c datas
    induction datas generalizing c with
    | nil => simp [runReads, handledRequests]
    | cons data datas ih =>
        have hone : (handledRequests (onRead c data).2).length ≤ 1 := by
          rcases handledRequests_onRead c data with h | ⟨r, h, -⟩ <;> simp [h]
        have htail := ih (onRead c data).1
        rcases handledRequests_runReads_cons c data datas with h | h <;> rw [h]
        · simp only [List.length_cons]
          omega
        · simp only [List.length_append, List.length_cons]
          omega
  induction requests generalizing c with
  | nil => trivial
  | cons request requests ih =>
      have hr := hrequests request (by simp)
      rcases exists_parseCommand hr.nonempty with ⟨cmd, hcmd⟩
      have hformat : ¬ (request.type ≠ .array ∨ request.elements = []) := by
        simp [hr.type_eq, hr.nonempty]
      have hread : onRead c (serialize request) = onCommand c request cmd := by
        rw [onRead_serialize hr, onRequest, if_neg hformat, hcmd]
      have hthrow := (onCommand_quiet c request cmd).1
      have hrun : handledRequests (runReads c ((request :: requests).map serialize)) =
          handledRequests (onCommand c request cmd).2 ++
            handledRequests (runReads (onCommand c request cmd).1 (requests.map serialize)) := by
        rw [List.map_cons, runReads, hread, if_neg hthrow]
        simp [handledRequests]
      have hrest := hcount (onCommand c request cmd).1 (requests.map serialize)
      rw [hrun, List.length_append, handledRequests_onCommand, List.length_cons] at hhandled
      rw [List.length_map] at hrest
      cases hself : answersItself c cmd with
      | true =>
          rw [hself, if_pos rfl, List.length_nil] at hhandled
          omega
      | false =>
          refine ⟨cmd, hcmd, hself, ?_⟩
          simp only [hself, Bool.false_eq_true, if_false, List.length_singleton] at hhandled
          rw [← @onCommand_fst c request cmd hself]
          exact ih (fun r h => hrequests r (by simp [h])) (by omega)

/-! ## Framing of a fresh connection -/

/-- The connection frames its requests: it hands exactly these requests to the
command handler, each once and in order, and never answers a parse error. -/
def FramesRequests (requests : List RespValue) (chunks : List Bytes) : Prop :=
  handledRequests (Connection.initial.run chunks).2 = requests ∧
    .parseError ∉ (Connection.initial.run chunks).2

instance (requests : List RespValue) (chunks : List Bytes) :
    Decidable (FramesRequests requests chunks) :=
  inferInstanceAs (Decidable (_ ∧ _))

/-- A connection frames a sequence of requests, cut into chunks in any way,
exactly when they are well-formed, every read completes with one whole request and the
connection disposes of none of them itself. -/
theorem framing_iff_aligned {requests : List RespValue} {chunks : List Bytes}
    (hrequests : ∀ r ∈ requests, r.type = .array ∧ r.elements ≠ [])
    (hbytes : chunks.flatten = requests.flatMap serialize) :
    FramesRequests requests chunks ↔
      (∀ r ∈ requests, WellFormed r) ∧
        completedReads [] chunks = requests.map serialize ∧
        PassesToHandler Connection.initial requests := by
  have hrequest : (∀ r ∈ requests, WellFormed r) → ∀ r ∈ requests, IsRequest r :=
    fun hformed r hr => ⟨(hrequests r hr).1, (hrequests r hr).2, hformed r hr⟩
  have hactions : (Connection.initial.run chunks).2 =
      runReads Connection.initial (completedReads [] chunks) :=
    run_actions Connection.initial chunks
  rw [FramesRequests, hactions]
  constructor
  · rintro ⟨hhandled, -⟩
    rcases completedReads_flatten [] chunks with ⟨tail, htail⟩
    rw [List.nil_append, hbytes] at htail
    have haligned := aligned_of_handled
      (fun data hdata => ne_nil_of_mem_completedReads hdata) hhandled htail
    have hformed : ∀ r ∈ requests, WellFormed r := by
      rw [← hhandled]
      exact wellFormed_of_handled _ _
    refine ⟨hformed, haligned, passes_of_handled (hrequest hformed) ?_⟩
    rw [← haligned, hhandled]
  · rintro ⟨hformed, haligned, hpass⟩
    rw [haligned]
    exact runReads_aligned (hrequest hformed) hpass

/-- The request {lit}`PING`. -/
def pingRequest : RespValue :=
  .array [.bulkString (ascii "PING")]

/-- {lit}`PING` is a request. -/
theorem pingRequest_isRequest : IsRequest pingRequest :=
  ⟨rfl, by simp [pingRequest, RespValue.array],
    .array (by decide) (by
      intro e he
      rw [List.mem_singleton.mp he]
      exact .bulkString (by decide))⟩

/-- The request {lit}`GET k`. -/
def getRequest : RespValue :=
  .array [.bulkString (ascii "GET"), .bulkString (ascii "k")]

/-- Two requests in three segments, the first one cut inside its header line, are framed. -/
theorem framing_iff_aligned_segments :
    completedReads [] [ascii "*1", ascii "\r\n$4\r\nPING\r\n", serialize getRequest] =
        [pingRequest, getRequest].map serialize ∧
      PassesToHandler Connection.initial [pingRequest, getRequest] := by
  have hrequests : ∀ r ∈ [pingRequest, getRequest], r.type = .array ∧ r.elements ≠ [] := by
    simp [pingRequest, getRequest, RespValue.array]
  have hframes : FramesRequests [pingRequest, getRequest]
      [ascii "*1", ascii "\r\n$4\r\nPING\r\n", serialize getRequest] := by
    decide +kernel
  exact ((framing_iff_aligned hrequests (by decide +kernel)).mp hframes).2

/-- Two pipelined requests in one segment: the second one is dropped. -/
theorem pipelined_request_dropped :
    (∀ r ∈ [pingRequest, pingRequest], IsRequest r) ∧
      [serialize pingRequest ++ serialize pingRequest].flatten =
        [pingRequest, pingRequest].flatMap serialize ∧
      ¬ FramesRequests [pingRequest, pingRequest]
        [serialize pingRequest ++ serialize pingRequest] := by
  refine ⟨?_, by decide +kernel, by decide +kernel⟩
  intro r hr
  have hping : r = pingRequest := by simpa using hr
  rw [hping]
  exact pingRequest_isRequest

end RedisClone
