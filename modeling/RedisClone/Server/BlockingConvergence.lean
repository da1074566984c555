import RedisClone.Server.Convergence
import RedisClone.Server.ListCalls
import RedisClone.State.Serving

/-!
# Convergence with blocked pops

{lit}`BLPOP` is propagated when it replies.  If it pops at once, the replica does the
same; if a later push serves it, its frame comes before the frame of the push, and the
replica blocks first and is then served by the push, too.  As long as no {lit}`BLPOP`
times out, the store threads of master and replica both refine the abstract machine of
calls on lists, the master with the calls in the order in which they come in, the replica
with the same calls in the order of their replies.

Main results:

- Theorem {lit}`HoldsCalls.remove`: the registry holds the blocked calls.
- Theorem {lit}`follows_step`: the store thread follows the abstract machine.
- Theorem {lit}`exists_calls_handled`: a replica comes to the end of its calls.
- Theorem {lit}`blocked_pops_converge`: master and replica have the same lists.
- Theorem {lit}`timed_out_pop_diverges`: a {lit}`BLPOP` that has timed out on the master
  takes an element on the replica.
-/

namespace RedisClone

open RespValue

variable {env : Env}

/-! ## Registrations -/

/-- A registration of a blocked call. -/
structure Registration where
  id : Nat
  callback : BlpopCallback
  call : WaitingCall

/-- What the callback of a call does: on the master, which has this replica, the call is
propagated behind its reply; on a replica nothing happens. -/
def RepliesFor (replica : Option Nat) (onReply : OnReply) (request : RespValue) : Prop :=
  match onReply with
  | .propagating _ raw => replica.isSome = true ∧ raw = serialize request
  | .discard => replica = none
  | _ => False

/-- The queues of the registry hold these registrations, in this order. -/
structure HoldsCalls (replica : Option Nat) (r : BlockingRegistry BlpopCallback)
    (entries : List Registration) : Prop where
  waiters : ∀ key, r.waiters key =
    entries.flatMap fun entry => List.replicate (entry.call.2.count key) (entry.id, entry.callback)
  keys : ∀ entry ∈ entries, r.idToKeys entry.id = some entry.call.2
  nodup : (entries.map Registration.id).Nodup
  bound : ∀ entry ∈ entries, entry.id < r.nextId
  carries : ∀ entry ∈ entries, RepliesFor replica entry.callback.onReply entry.call.1

section Registry

variable {replica : Option Nat} {r : BlockingRegistry BlpopCallback} {entries : List Registration}

/-- The first waiter of a list is the first registration that waits for it. -/
theorem exists_first_registration {key : Bytes} {waiter : Nat × BlpopCallback}
    {later : List (Nat × BlpopCallback)}
    (h : (entries.flatMap fun entry =>
      List.replicate (entry.call.2.count key) (entry.id, entry.callback)) = waiter :: later) :
    ∃ first entry second, entries = first ++ entry :: second ∧
      (∀ other ∈ first, key ∉ other.call.2) ∧ key ∈ entry.call.2 ∧
      waiter = (entry.id, entry.callback) := by
  induction entries with
  | nil => cases h
  | cons entry entries ih =>
      by_cases hmem : key ∈ entry.call.2
      · refine ⟨[], entry, entries, rfl, by simp, hmem, ?_⟩
        have hcount : entry.call.2.count key ≠ 0 := (List.count_pos_iff.mpr hmem).ne'
        rcases Nat.exists_eq_succ_of_ne_zero hcount with ⟨count, hcount⟩
        rw [List.flatMap_cons, hcount, List.replicate_succ, List.cons_append] at h
        exact (List.cons.inj h).1.symm
      · rw [List.flatMap_cons, List.count_eq_zero_of_not_mem hmem] at h
        rcases ih h with ⟨first, found, second, rfl, hfirst, hkey, heq⟩
        refine ⟨entry :: first, found, second, rfl, ?_, hkey, heq⟩
        intro other hother
        rcases List.mem_cons.mp hother with rfl | hother
        · exact hmem
        · exact hfirst other hother

/-- Nobody waits for the list. -/
theorem HoldsCalls.not_mem (h : HoldsCalls replica r entries) {key : Bytes}
    (hnone : r.waiters key = []) {entry : Registration} (hentry : entry ∈ entries) :
    key ∉ entry.call.2 := by
  intro hmem
  rw [h.waiters, List.flatMap_eq_nil_iff] at hnone
  have hcount := hnone entry hentry
  rw [List.replicate_eq_nil_iff] at hcount
  exact (List.count_pos_iff.mpr hmem).ne' hcount

/-- A new call is registered. -/
theorem HoldsCalls.register (h : HoldsCalls replica r entries) {callback : BlpopCallback}
    {call : WaitingCall} (hcarries : RepliesFor replica callback.onReply call.1) :
    HoldsCalls replica (r.registerCallbacks call.2 callback).1
      (entries ++ [⟨r.nextId, callback, call⟩]) := by
  have hne : ∀ entry ∈ entries, entry.id ≠ r.nextId := fun entry hmem => (h.bound entry hmem).ne
  refine ⟨fun key => ?_, ?_, ?_, ?_, ?_⟩
  · rw [BlockingRegistry.waiters_registerCallbacks, h.waiters]
    simp
  · intro entry hmem
    rcases List.mem_append.mp hmem with hmem | hmem
    · simp [BlockingRegistry.registerCallbacks, hne entry hmem, h.keys entry hmem]
    · rw [List.mem_singleton.mp hmem]
      simp [BlockingRegistry.registerCallbacks]
  · rw [List.map_append, List.nodup_append]
    refine ⟨h.nodup, by simp, ?_⟩
    intro id hid id' hid' heq
    rcases List.mem_map.mp hid with ⟨entry, hentry, rfl⟩
    simp only [List.map_cons, List.map_nil, List.mem_singleton] at hid'
    exact hne entry hentry (heq.trans hid')
  · intro entry hmem
    have hnext : (r.registerCallbacks call.2 callback).1.nextId = r.nextId + 1 := rfl
    rcases List.mem_append.mp hmem with hmem | hmem
    · have := h.bound entry hmem
      omega
    · rw [List.mem_singleton.mp hmem, hnext]
      exact Nat.lt_succ_self _
  · intro entry hmem
    rcases List.mem_append.mp hmem with hmem | hmem
    · exact h.carries entry hmem
    · rw [List.mem_singleton.mp hmem]
      exact hcarries

/-- A call is removed. -/
theorem HoldsCalls.remove {first second : List Registration} {entry : Registration}
    (h : HoldsCalls replica r (first ++ entry :: second)) :
    HoldsCalls replica (r.unregister entry.id) (first ++ second) := by
  have hmem : ∀ other ∈ first ++ second, other ∈ first ++ entry :: second := by
    intro other hother
    simp only [List.mem_append, List.mem_cons] at hother ⊢
    tauto
  have hne : ∀ other ∈ first ++ second, other.id ≠ entry.id := by
    have hnodup := h.nodup
    rw [List.map_append, List.map_cons, List.nodup_middle, List.nodup_cons] at hnodup
    intro other hother heq
    refine hnodup.1 ?_
    rw [← heq, ← List.map_append]
    exact List.mem_map_of_mem hother
  have hkept : ∀ (key : Bytes), ∀ others : List Registration, others ⊆ first ++ second →
      (others.flatMap fun other =>
        List.replicate (other.call.2.count key) (other.id, other.callback)).filter
          (fun registration => registration.1 ≠ entry.id) =
        others.flatMap fun other =>
          List.replicate (other.call.2.count key) (other.id, other.callback) := by
    intro key others hothers
    rw [List.filter_eq_self]
    intro registration hregistration
    rcases List.mem_flatMap.mp hregistration with ⟨other, hother, hreplicate⟩
    rw [List.eq_of_mem_replicate hreplicate]
    exact decide_eq_true (hne other (hothers hother))
  refine ⟨fun key => ?_, ?_, ?_, ?_, ?_⟩
  · rw [BlockingRegistry.waiters_unregister, h.keys entry (by simp), h.waiters, Option.getD_some,
      List.flatMap_append, List.flatMap_cons, List.flatMap_append]
    split
    · rw [List.filter_append, List.filter_append, hkept key first (List.subset_append_left _ _),
        hkept key second (List.subset_append_right _ _), List.filter_replicate]
      simp
    · rename_i hkey
      rw [List.count_eq_zero_of_not_mem hkey]
      rfl
  · intro other hother
    rw [BlockingRegistry.idToKeys_unregister, if_neg (hne other hother)]
    exact h.keys other (hmem other hother)
  · refine h.nodup.sublist (List.Sublist.map _ ?_)
    exact List.Sublist.append_left (List.sublist_cons_self _ _) _
  · intro other hother
    rw [BlockingRegistry.unregister_nextId]
    exact h.bound other (hmem other hother)
  · exact fun other hother => h.carries other (hmem other hother)

end Registry

/-! ## The store thread -/

/-- What a replica of the master was handed. -/
def Server.HandedOut (s : Server) (completed : List RespValue) : Option Nat → Prop
  | some id => id ∈ s.replicas.replicas.map Prod.fst ∧
      handedTo id s.trace = completed.flatMap serialize
  | none => True

/-- The server is the abstract machine: the lists, the blocked calls, and what was
propagated. -/
structure Reflects (replica : Option Nat) (s : Server) (l : Listing) : Prop where
  data : s.data = l.data
  noEmptyList : s.data.NoEmptyList
  waits : s.waits = []
  idle : ∀ h, (s.transactions h).inTransaction = false
  queued : ∃ entries, HoldsCalls replica s.blpop entries ∧ l.waiting = entries.map Registration.call
  handed : s.HandedOut l.completed replica

/-- Clients of the master, or the session of a replica. -/
def Sender (replica : Option Nat) : HandlerId → Prop
  | .client _ => replica.isSome = true
  | .session => replica = none
  | .replication _ => False

/-- How far the call has come that is being handled, and what the abstract machine will
be at its end. -/
inductive CallStage (replica : Option Nat) (l : Listing) : List Task → Listing → Prop
  /-- Nothing is running. -/
  | idle : CallStage replica l [] l
  /-- A request is handled. -/
  | handling {h : HandlerId} {request : RespValue} (number : Nat)
      (hh : Sender replica h) (hlists : OnLists request) :
      CallStage replica l [.handle h request number] (l.take request)
  /-- Its command is executed. -/
  | executing {h : HandlerId} {request : RespValue} {cmd : Command} {onReply : OnReply}
      (hparse : parseCommand request = .ok cmd) (hlists : isListCommand cmd.type = true)
      (hreplies : RepliesFor replica onReply request) :
      CallStage replica l [.execute h request cmd onReply] (l.take request)
  /-- A push serves the blocked calls. -/
  | serving {key : Bytes} {request : RespValue} {onReply : OnReply} (response : Bytes)
      (hreplies : RepliesFor replica onReply request) :
      CallStage replica l [.serveBlpop key, .reply onReply response]
        ((l.serve key).complete request)
  /-- A blocked call was served and replies. -/
  | calling {key : Bytes} {request served : RespValue} {onReply callback : OnReply}
      (response element : Bytes) (hreplies : RepliesFor replica onReply request)
      (hserved : RepliesFor replica callback served) :
      CallStage replica l [.reply callback element, .serveBlpop key, .reply onReply response]
        (((l.complete served).serve key).complete request)
  /-- The call replies. -/
  | replying {request : RespValue} {onReply : OnReply} (response : Bytes)
      (hreplies : RepliesFor replica onReply request) :
      CallStage replica l [.reply onReply response] (l.complete request)

/-- Nothing catches exceptions. -/
theorem CallStage.not_tryEnd {replica : Option Nat} {l target : Listing} {stack : List Task}
    (h : CallStage replica l stack target) (onReply : OnReply) : .tryEnd onReply ∉ stack := by
  cases h <;> simp

section Calls

variable {replica : Option Nat} {s s' : Server} {l : Listing} {request : RespValue}
  {cmd : Command} {onReply : OnReply}

/-- Only the lists, the registry and the history matter. -/
theorem Reflects.congr (h : Reflects replica s l) (hdata : s'.data = s.data)
    (hwaits : s'.waits = s.waits)
    (hidle : ∀ h, (s'.transactions h).inTransaction = (s.transactions h).inTransaction)
    (hblpop : s'.blpop = s.blpop) (hreplicas : s'.replicas.replicas = s.replicas.replicas)
    (hhanded : ∀ id, handedTo id s'.trace = handedTo id s.trace) : Reflects replica s' l := by
  refine ⟨hdata.trans h.data, hdata ▸ h.noEmptyList, hwaits.trans h.waits,
    fun handler => (hidle handler).trans (h.idle handler), hblpop ▸ h.queued, ?_⟩
  have hbefore := h.handed
  cases replica with
  | none => trivial
  | some id =>
      simp only [Server.HandedOut] at hbefore ⊢
      rw [hreplicas, hhanded]
      exact hbefore

/-- The commands on lists do not read the clock. -/
theorem listCommand_clock {body : Command → Reading → Store → CommandResult}
    (htype : isListCommand cmd.type = true) (hbody : dataCommand cmd.type = some body)
    (now now' : Reading) (d : Store) : body cmd now d = body cmd now' d := by
  cases hcmd : cmd.type with
  | rpush | lpush | lpop | blpop =>
      rw [hcmd] at hbody
      cases hbody
      rfl
  | _ => simp [hcmd, isListCommand] at htype

/-- The commands on lists are write commands on the keyspace. -/
theorem exists_listBody (htype : isListCommand cmd.type = true) :
    isWriteCommand cmd.type = true ∧ ∃ body, dataCommand cmd.type = some body := by
  cases hcmd : cmd.type with
  | rpush | lpush | lpop | blpop => exact ⟨rfl, _, rfl⟩
  | _ => simp [hcmd, isListCommand] at htype

/-- A command on lists replies, possibly behind those whom it serves, or blocks. -/
theorem listCommand_outcome {body : Command → Reading → Store → CommandResult}
    {now : Reading} {d d' : Store} {outcome : Outcome}
    (htype : isListCommand cmd.type = true) (hbody : dataCommand cmd.type = some body)
    (hresult : body cmd now d = (d', .ok outcome)) :
    (∃ notify response, outcome = .answer ⟨notify, none, false, response⟩) ∨
      (∃ notify key response, outcome = .answer ⟨notify, some (.blpop key), false, response⟩) ∨
      ∃ keys timeout, outcome = .blockBlpop keys timeout := by
  cases hcmd : cmd.type with
  | rpush | lpush =>
      rw [hcmd] at hbody
      cases hbody
      simp only [rpushExecute, lpushExecute, pushExecute, checked] at hresult
      split at hresult
      · cases hresult
        exact .inl ⟨_, _, rfl⟩
      · cases hresult
        exact .inr (.inl ⟨_, _, _, rfl⟩)
  | lpop =>
      rw [hcmd] at hbody
      cases hbody
      simp only [lpopExecute, checked] at hresult
      split at hresult
      · cases hresult
        exact .inl ⟨_, _, rfl⟩
      · split at hresult
        · cases hresult
        · split at hresult
          · cases hresult
            exact .inl ⟨_, _, rfl⟩
          · rename_i values _
            cases hreply : lpopReply cmd values with
            | error e => simp [hreply, Except.map] at hresult
            | ok response =>
                simp only [hreply, Except.map, Prod.mk.injEq, Except.ok.injEq] at hresult
                exact .inl ⟨_, _, hresult.2.symm⟩
  | blpop =>
      rw [hcmd] at hbody
      cases hbody
      simp only [blpopExecute, checked] at hresult
      split at hresult
      · cases hresult
        exact .inl ⟨_, _, rfl⟩
      · split at hresult
        · cases hresult
        · split at hresult
          · cases hresult
          · cases hresult
            exact .inl ⟨_, _, rfl⟩
          · cases hresult
            exact .inr (.inr ⟨_, _, rfl⟩)
  | _ => simp [hcmd, isListCommand] at htype

/-- A request is dispatched at once. -/
theorem handle_onLists {h : HandlerId} (number : Nat) (hlists : OnLists request)
    (hh : Sender replica h)
    (hidle : (s.transactions h).inTransaction = false) :
    ∃ cmd onReply, parseCommand request = .ok cmd ∧ isListCommand cmd.type = true ∧
      RepliesFor replica onReply request ∧
      s.handle h request number = (s.record (.handled number h request),
        .ok [.execute h request cmd onReply]) := by
  rcases hlists with ⟨htype, cmd, hparse, hlist⟩
  have helements : request.elements ≠ [] := by
    intro hnil
    simp [parseCommand, hnil] at hparse
  have hcontrols : Server.isTransactionCommand cmd.type = false := by
    cases hcmd : cmd.type <;> simp [hcmd, isListCommand] at hlist <;> rfl
  have hkind : h.kind = .client := by
    cases h with
    | replication connection => exact hh.elim
    | _ => rfl
  have hfind : findCommand h.kind cmd.type = true := by
    rw [hkind]
    cases hcmd : cmd.type <;> simp [hcmd, isListCommand] at hlist <;> rfl
  refine ⟨cmd, Server.directReply h request cmd.type number, hparse, hlist, ?_, ?_⟩
  · unfold Server.directReply
    cases h with
    | client connection =>
        rw [if_pos ⟨rfl, (exists_listBody hlist).1⟩]
        exact ⟨hh, rfl⟩
    | session =>
        rw [if_neg (by simp [HandlerId.hasReplicaRegistry])]
        exact hh
    | replication connection => exact hh.elim
  · simp [Server.handle, Server.dispatch, htype, helements, hparse, hcontrols, hidle, hfind]

/-- A call replies. -/
theorem reflects_reply (h : Reflects replica s l) (hreplies : RepliesFor replica onReply request)
    {response : Bytes} {new : List Task}
    (hact : s.act env (.reply onReply response) = (s', .ok new)) :
    new = [] ∧ Reflects replica s' (l.complete request) := by
  cases onReply with
  | propagating number raw =>
      rcases hreplies with ⟨hsome, rfl⟩
      cases hact
      refine ⟨rfl, h.data, h.noEmptyList, h.waits, h.idle, h.queued, ?_⟩
      have hbefore := h.handed
      cases replica with
      | none => contradiction
      | some id =>
          rcases hbefore with ⟨hregistered, hhanded⟩
          refine ⟨hregistered, ?_⟩
          simp only [Server.propagate_trace, Server.record_trace, Server.record_replicas,
            handedTo_append, handedTo_cons, handedTo_nil, List.append_nil, hhanded,
            Listing.complete, List.flatMap_append, List.flatMap_cons, List.flatMap_nil]
          rw [if_pos hregistered]
  | discard =>
      have hnone : replica = none := hreplies
      subst hnone
      cases hact
      exact ⟨rfl, h.data, h.noEmptyList, h.waits, h.idle, h.queued, trivial⟩
  | connection number => exact hreplies.elim
  | exec context type request' => exact hreplies.elim

/-- Behind a command that has run, the lists are the new ones. -/
theorem Reflects.settled (h : Reflects replica s l) {handler : HandlerId} {d : Store}
    {outcome : Outcome} (hd : d.NoEmptyList)
    (hblpop : (((s.withData d).record (.executed handler cmd.type request)).settle onReply
      outcome).1.blpop = s.blpop)
    (hwaits : (((s.withData d).record (.executed handler cmd.type request)).settle onReply
      outcome).1.waits = s.waits) :
    Reflects replica (((s.withData d).record (.executed handler cmd.type request)).settle onReply
      outcome).1 { l with data := d } := by
  have hbase : Reflects replica (s.withData d) { l with data := d } :=
    ⟨rfl, hd, h.waits, h.idle, h.queued, h.handed⟩
  refine hbase.congr (by rw [settle_data]; rfl) hwaits (fun handler => ?_) hblpop ?_ fun id => ?_
  · rw [settle_inTransaction]
    rfl
  · rw [settle_replicas]
    rfl
  · rw [settle_trace]
    simp

/-- The command of a call is executed. -/
theorem reflects_execute (h : Reflects replica s l) {handler : HandlerId}
    (hparse : parseCommand request = .ok cmd) (hlists : isListCommand cmd.type = true)
    (hreplies : RepliesFor replica onReply request) {new : List Task}
    (hact : s.act env (.execute handler request cmd onReply) = (s', .ok new)) :
    ∃ l', Reflects replica s' l' ∧ CallStage replica l' new (l.take request) := by
  rcases exists_listBody hlists with ⟨-, body, hbody⟩
  have hclock := listCommand_clock hlists hbody (env.reading s.readings) ⟨0, 0⟩ s.data
  rcases hresult : body cmd (env.reading s.readings) s.data with ⟨d, e | outcome⟩
  · simp [Server.act, Server.execute, hbody, Server.executeData, hresult] at hact
  · rw [act_execute_data hbody hresult] at hact
    simp only [Prod.mk.injEq, Except.ok.injEq] at hact
    rcases hact with ⟨rfl, rfl⟩
    have htake : l.take request = Listing.settle { l with data := d } request outcome := by
      refine take_eq_settle hparse hbody ?_
      rw [← h.data, ← hclock, hresult]
    have hdata := @dataActs_of_dataCommand cmd (env.reading s.readings) s.data body hbody
    rw [hresult] at hdata
    have hd : d.NoEmptyList := noEmptyList_of_dataActs h.noEmptyList hdata
    rw [htake]
    rcases listCommand_outcome hlists hbody hresult with ⟨notify, response, rfl⟩ |
      ⟨notify, key, response, rfl⟩ | ⟨keys, timeout, rfl⟩
    · refine ⟨_, h.settled hd ?_ ?_, .replying response hreplies⟩
      · cases notify <;> rfl
      · cases notify <;> rfl
    · refine ⟨_, h.settled hd ?_ ?_, .serving response hreplies⟩
      · cases notify <;> rfl
      · cases notify <;> rfl
    · rcases h.queued with ⟨entries, hentries, hwaiting⟩
      have hregister := @HoldsCalls.register replica s.blpop entries hentries
        ⟨onReply, s.timers.length⟩ (request, keys) hreplies
      refine ⟨_, ⟨rfl, hd, h.waits, h.idle, ⟨_, hregister, ?_⟩, ?_⟩, .idle⟩
      · simp [Listing.settle, hwaiting]
      · have hbefore := h.handed
        cases replica with
        | none => trivial
        | some id => exact ⟨hbefore.1, by simpa [Listing.settle] using hbefore.2⟩

/-- A round of the loop that serves blocked calls. -/
theorem reflects_serve (h : Reflects replica s l) {key : Bytes} {response : Bytes}
    (hreplies : RepliesFor replica onReply request) {new : List Task}
    (hact : s.act env (.serveBlpop key) = (s', .ok new)) :
    ∃ l', Reflects replica s' l' ∧
      CallStage replica l' (new ++ [.reply onReply response]) ((l.serve key).complete request) ∧
      (new = [] ∨ ∃ callback element served, new = [.reply callback element, .serveBlpop key] ∧
        RepliesFor replica callback served ∧ l'.waiting.length < l.waiting.length) := by
  rcases h.queued with ⟨entries, hentries, hwaiting⟩
  have hstops : serveWaiting key l.data l.waiting = (l.data, l.waiting, []) →
      CallStage replica l [.reply onReply response] ((l.serve key).complete request) := by
    intro hserve
    have hsame : l.serve key = l := by simp [Listing.serve, hserve]
    rw [hsame]
    exact .replying response hreplies
  cases acts_of_act hact with
  | @served _ value id callback later d more hwaiters hpop =>
      rcases exists_first_registration ((hentries.waiters key).symm.trans hwaiters) with
        ⟨first, entry, second, rfl, hfirst, hkey, heq⟩
      cases heq
      have hserve : serveWaiting key l.data l.waiting =
          ((serveWaiting key d ((first ++ second).map Registration.call)).1,
            (serveWaiting key d ((first ++ second).map Registration.call)).2.1,
            entry.call :: (serveWaiting key d ((first ++ second).map Registration.call)).2.2) := by
        rw [hwaiting, List.map_append, List.map_cons, List.map_append]
        refine serveWaiting_of_pop ?_ hkey (by rw [← h.data]; exact hpop)
        intro other hother
        rcases List.mem_map.mp hother with ⟨registration, hregistration, rfl⟩
        exact hfirst registration hregistration
      have hfst : (s.data.lpop key 1).1 = d := by rw [hpop]
      refine ⟨⟨d, (first ++ second).map Registration.call, l.completed⟩,
        ⟨rfl, hfst ▸ h.noEmptyList.lpop key 1, h.waits, h.idle,
          ⟨_, hentries.remove, rfl⟩, h.handed⟩, ?_, .inr ⟨_, _, entry.call.1, rfl,
            hentries.carries entry (by simp), by simp [hwaiting]⟩⟩
      have htarget : ((l.serve key).complete request) =
          (((Listing.complete ⟨d, (first ++ second).map Registration.call, l.completed⟩
            entry.call.1).serve key).complete request) := by
        simp [Listing.serve, Listing.complete, hserve]
      rw [htarget]
      exact .calling response _ hreplies (hentries.carries entry (by simp))
  | unawaited hwaiters =>
      refine ⟨l, h, hstops (serveWaiting_of_forall_not_mem fun waiter hmem => ?_), .inl rfl⟩
      rw [hwaiting] at hmem
      rcases List.mem_map.mp hmem with ⟨entry, hentry, rfl⟩
      exact hentries.not_mem hwaiters hentry
  | unserved hwaiters hpop =>
      rcases hpop with hempty | ⟨hfails, rfl⟩
      · exact absurd hempty h.noEmptyList.lpop_one
      · exact ⟨l, h, hstops (serveWaiting_of_not_isOk (by rw [← h.data]; exact hfails)), .inl rfl⟩

/-- A task that does not throw. -/
theorem reflects_calls (h : Reflects replica s l) {task : Task} {stack new : List Task}
    {target : Listing} (hstage : CallStage replica l (task :: stack) target)
    (hact : s.act env task = (s', .ok new)) :
    ∃ l', Reflects replica s' l' ∧ CallStage replica l' (new ++ stack) target := by
  cases hstage with
  | @handling handler request number hh hlists =>
      rcases @handle_onLists replica s request handler number hlists hh (h.idle handler) with
        ⟨cmd, onReply, hparse, hlist, hreplies, hhandle⟩
      have hact' : s.handle handler request number = (s', .ok new) := hact
      rw [hhandle] at hact'
      simp only [Prod.mk.injEq, Except.ok.injEq] at hact'
      rcases hact' with ⟨rfl, rfl⟩
      exact ⟨l, h.congr rfl rfl (fun _ => rfl) rfl rfl (fun id => by simp),
        .executing hparse hlist hreplies⟩
  | executing hparse hlists hreplies =>
      rcases reflects_execute h hparse hlists hreplies hact with ⟨l', hl', hstage'⟩
      exact ⟨l', hl', by simpa using hstage'⟩
  | serving response hreplies =>
      rcases reflects_serve h hreplies hact with ⟨l', hl', hstage', -⟩
      exact ⟨l', hl', hstage'⟩
  | calling response element hreplies hserved =>
      rcases reflects_reply h hserved hact with ⟨rfl, hl'⟩
      exact ⟨_, hl', .serving response hreplies⟩
  | replying response hreplies =>
      rcases reflects_reply h hreplies hact with ⟨rfl, hl'⟩
      exact ⟨_, hl', .idle⟩

end Calls

/-- The events of a master whose clients push and pop, or of its replica: no
{lit}`BLPOP` times out, and the replica stays registered. -/
def PushesAndPops (replica : Option Nat) : Event → Prop
  | .request h sent => Sender replica h ∧ OnLists sent.value
  | .timeout _ => False
  | .detach id => ∀ id' ∈ replica, id ≠ id'
  | _ => True

/-- The store thread is on its way to what the abstract machine makes of the calls. -/
def ReachesAll (replica : Option Nat) (t : StoreThread) (taken : List RespValue) : Prop :=
  ∃ l, Reflects replica t.server l ∧ CallStage replica l t.stack (handleAll taken)

/-- Other replicas come and go. -/
theorem Reflects.setReplicas {replica : Option Nat} {s : Server} {l : Listing}
    (h : Reflects replica s l) {replicas : ReplicaRegistry}
    (hkept : ∀ id ∈ replica, id ∈ s.replicas.replicas.map Prod.fst →
      id ∈ replicas.replicas.map Prod.fst) : Reflects replica (s.setReplicas replicas) l := by
  refine ⟨h.data, h.noEmptyList, h.waits, h.idle, h.queued, ?_⟩
  have hbefore := h.handed
  cases replica with
  | none => trivial
  | some id => exact ⟨hkept id rfl hbefore.1, hbefore.2⟩

/-- Every event of such a thread. -/
theorem follows_step {replica : Option Nat} {t t' : StoreThread} {event : Event}
    {taken : List RespValue} (h : ReachesAll replica t taken)
    (hevent : PushesAndPops replica event) (hstep : t.step env event = some t') :
    ReachesAll replica t' (taken ++ (event.taken.map Prod.snd).toList) := by
  rcases h with ⟨l, hreflects, hstage⟩
  cases moves_of_step hstep with
  | request s handler sent =>
      cases hstage
      refine ⟨_, hreflects.congr rfl rfl (fun _ => rfl) rfl rfl (fun _ => rfl), ?_⟩
      simp only [Event.taken, Option.map_some, Option.toList_some]
      rw [handleAll_concat]
      exact .handling _ hevent.1 hevent.2
  | calls stack hact =>
      rcases reflects_calls hreflects hstage hact with ⟨l', hl', hstage'⟩
      exact ⟨l', hl', by simpa [Event.taken] using hstage'⟩
  | throws above onReply below hact =>
      exact absurd (by simp) (hstage.not_tryEnd onReply)
  | timeout htimer hqueued => exact hevent.elim
  | poll hwait hactive =>
      rw [hreflects.waits] at hwait
      contradiction
  | idle s => exact ⟨l, hreflects, by simpa [Event.taken] using hstage⟩
  | expires stack htimer harmed =>
      exact ⟨l, hreflects.congr rfl rfl (fun _ => rfl) rfl rfl (fun _ => rfl),
        by simpa [Event.taken] using hstage⟩
  | attach s stack =>
      refine ⟨l, hreflects.setReplicas fun id _ hid => ?_, by simpa [Event.taken] using hstage⟩
      simp only [ReplicaRegistry.add, List.map_append, List.mem_append]
      exact .inl hid
  | detach s stack id =>
      refine ⟨l, hreflects.setReplicas fun id' hid' hmem => ?_, by simpa [Event.taken] using hstage⟩
      rcases List.mem_map.mp hmem with ⟨entry, hentry, heq⟩
      have hne : entry.1 ≠ id := by
        rw [heq]
        exact (hevent id' hid').symm
      exact List.mem_map.mpr ⟨entry, List.mem_filter.mpr ⟨hentry, by simpa using hne⟩, heq⟩
  | ack s stack id offset =>
      refine ⟨l, hreflects.setReplicas fun id' _ hmem => ?_, by simpa [Event.taken] using hstage⟩
      rcases List.mem_map.mp hmem with ⟨entry, hentry, rfl⟩
      refine List.mem_map.mpr ⟨_, List.mem_map_of_mem hentry, ?_⟩
      split <;> rfl

/-- Between jobs it has arrived. -/
theorem ReachesAll.reflects {replica : Option Nat} {t : StoreThread} {taken : List RespValue}
    (h : ReachesAll replica t taken) (hidle : t.Idle) :
    Reflects replica t.server (handleAll taken) := by
  rcases h with ⟨l, hreflects, hstage⟩
  rw [hidle] at hstage
  generalize hgoal : handleAll taken = goal at hstage
  cases hstage
  exact hreflects

/-- A run of such a thread. -/
theorem follows_run {replica : Option Nat} {t t' : StoreThread} {taken : List RespValue}
    {events : List Event} (h : ReachesAll replica t taken)
    (hevents : ∀ event ∈ events, PushesAndPops replica event)
    (hrun : t.run env events = some t') :
    ReachesAll replica t' (taken ++ (events.filterMap Event.taken).map Prod.snd) := by
  induction events generalizing t taken with
  | nil =>
      cases hrun
      simpa using h
  | cons event events ih =>
      rcases Execution.follow_cons hrun with ⟨m, hone, hrest⟩
      have hm := follows_step h (hevents event List.mem_cons_self) hone
      have hlast := ih hm (fun event' hmem => hevents event' (List.mem_cons_of_mem _ hmem)) hrest
      cases htaken : event.taken with
      | none => simpa [htaken] using hlast
      | some pair => simpa [htaken] using hlast

/-- A server that was just started. -/
theorem reachesAll_initial {replica : Option Nat} {registry : ReplicaRegistry}
    (hreplica : ∀ id ∈ replica, registry.registered id = true) :
    ReachesAll replica (.withReplicas registry) [] := by
  refine ⟨.empty, ⟨rfl, Store.NoEmptyList.empty, rfl, fun _ => rfl, ⟨[], ?_, rfl⟩, ?_⟩, .idle⟩
  · exact ⟨fun _ => rfl, by simp, by simp, by simp, by simp⟩
  · cases replica with
    | none => trivial
    | some id => exact ⟨ReplicaRegistry.registered_iff.mp (hreplica id rfl), rfl⟩

/-! ## The replica comes to the end -/

section Replica

variable {s : Server} {l : Listing}

/-- The callbacks of a replica are dropped. -/
theorem eq_discard {onReply : OnReply} {request : RespValue}
    (h : RepliesFor none onReply request) : onReply = .discard := by
  cases onReply with
  | discard => rfl
  | propagating number raw => exact absurd h.1 (by simp)
  | connection number => exact h.elim
  | exec context type request => exact h.elim

/-- A tick of a run. -/
theorem run_tick {s' : Server} {task : Task} {new : List Task}
    (hact : s.act env task = (s', .ok new)) (stack : List Task) (events : List Event) :
    StoreThread.run env ⟨s, task :: stack⟩ (.tick :: events) =
      StoreThread.run env ⟨s', new ++ stack⟩ events := by
  rw [StoreThread.run, Execution.follow, step_tick hact stack]
  rfl

/-- A reply of a replica. -/
theorem run_reply (s : Server) (response : Bytes) (stack : List Task) (events : List Event) :
    StoreThread.run env ⟨s, .reply .discard response :: stack⟩ (.tick :: events) =
      StoreThread.run env ⟨s, stack⟩ events := by
  have hact : s.act env (.reply .discard response) = (s, .ok []) := rfl
  exact run_tick hact stack events

/-- The loop that serves blocked calls ends: every round takes a call away. -/
theorem exists_served (key response : Bytes) (h : Reflects none s l) :
    ∃ ticks s', StoreThread.run env ⟨s, [.serveBlpop key, .reply .discard response]⟩
      (List.replicate ticks .tick) = some ⟨s', []⟩ := by
  induction hn : l.waiting.length using Nat.strong_induction_on generalizing s l with
  | _ n ih =>
      have hact : s.act env (.serveBlpop key) =
          ((s.serveBlpop key).1, .ok (s.serveBlpop key).2) := rfl
      rcases @reflects_serve env none s _ l ⟨.array, [], []⟩ .discard h key response rfl _ hact with
        ⟨l', hl', -, hnil | ⟨callback, element, served, hnew, hreplies, hlt⟩⟩
      · refine ⟨2, (s.serveBlpop key).1, ?_⟩
        rw [List.replicate_succ, run_tick hact, hnil]
        exact run_reply _ _ _ _
      · rcases ih l'.waiting.length (hn ▸ hlt) hl' rfl with ⟨ticks, s', hrun⟩
        refine ⟨ticks + 2, s', ?_⟩
        rw [List.replicate_succ, run_tick hact, hnew, eq_discard hreplies, List.replicate_succ]
        exact (run_reply _ _ _ _).trans hrun

/-- A replica that is idle handles one more call. -/
theorem exists_call_handled {sent : Request} (h : Reflects none s l) (hlists : OnLists sent.value)
    (hruns : s.data.Runs sent.value) :
    ∃ ticks s', StoreThread.run env ⟨s, []⟩ (.request .session sent :: List.replicate ticks .tick) =
      some ⟨s', []⟩ := by
  rcases @handle_onLists none s.countRequest sent.value .session s.requests hlists rfl
    (h.idle .session) with ⟨cmd, onReply, hparse, hlist, hreplies, hhandle⟩
  cases eq_discard hreplies
  rcases hruns with ⟨cmd', body, d, outcome, hparse', hbody, hresult⟩
  rw [hparse] at hparse'
  cases hparse'
  have hresult' : body cmd (env.reading s.readings) s.data = (d, .ok outcome) :=
    (listCommand_clock hlist hbody _ _ _).trans hresult
  -- the server once the request has been dispatched
  generalize hhandled : s.countRequest.record (.handled s.requests .session sent.value) = s₂
    at hhandle
  have hreflects : Reflects none s₂ l := by
    rw [← hhandled]
    exact h.congr rfl rfl (fun _ => rfl) rfl rfl (fun id => by simp)
  have hdata : s₂.data = s.data ∧ s₂.readings = s.readings := by
    rw [← hhandled]
    exact ⟨rfl, rfl⟩
  have hact := @act_execute_data env s₂ .session sent.value cmd .discard body hbody d outcome
    (by rw [hdata.1, hdata.2]; exact hresult')
  have hstart : ∀ ticks, StoreThread.run env ⟨s, []⟩
      (.request .session sent :: List.replicate (ticks + 2) .tick) =
        StoreThread.run env ⟨(((s₂.withData d).record
          (.executed .session cmd.type sent.value)).settle .discard outcome).1,
          (((s₂.withData d).record (.executed .session cmd.type sent.value)).settle .discard
            outcome).2 ++ []⟩ (List.replicate ticks .tick) := by
    intro ticks
    have hhandle' : s.countRequest.act env (.handle .session sent.value s.requests) =
        (s₂, .ok [.execute .session sent.value cmd .discard]) := hhandle
    rw [List.replicate_succ, List.replicate_succ, ← run_tick hact]
    exact run_tick hhandle' [] _
  have hd : d.NoEmptyList := by
    have hacts := @dataActs_of_dataCommand cmd (env.reading s.readings) s.data body hbody
    rw [hresult'] at hacts
    exact noEmptyList_of_dataActs h.noEmptyList hacts
  rcases listCommand_outcome hlist hbody hresult with ⟨notify, response, rfl⟩ |
    ⟨notify, key, response, rfl⟩ | ⟨keys, timeout, rfl⟩
  · exact ⟨1 + 2, _, (hstart 1).trans (run_reply _ _ _ _)⟩
  · have hserving := @Reflects.settled none s₂ l sent.value cmd .discard hreflects .session d
      (.answer ⟨notify, some (.blpop key), false, response⟩) hd (by cases notify <;> rfl)
      (by cases notify <;> rfl)
    rcases exists_served key response hserving with ⟨ticks, s', hrun⟩
    exact ⟨ticks + 2, s', (hstart ticks).trans hrun⟩
  · exact ⟨0 + 2, _, hstart 0⟩

/-- A replica without clients can handle calls that run one after the other. -/
theorem exists_calls_handled {requests taken : List RespValue}
    (h : ReachesAll none ⟨s, []⟩ taken)
    (hrequests : ∀ request ∈ requests, WellFormed request ∧ OnLists request)
    (hruns : RunsAll (handleAll taken) requests) :
    ∃ events t, events.filterMap Event.taken = requests.map (fun command => (.session, command)) ∧
      (∀ i, .timeout i ∉ events) ∧ StoreThread.run env ⟨s, []⟩ events = some t ∧ t.Idle := by
  induction requests generalizing s taken with
  | nil => exact ⟨[], ⟨s, []⟩, rfl, by simp, rfl, rfl⟩
  | cons request requests ih =>
      rcases hrequests request List.mem_cons_self with ⟨hformed, hlists⟩
      have hreflects := h.reflects rfl
      rcases @exists_call_handled env s _ ⟨request, hformed⟩ hreflects hlists
        (hreflects.data ▸ hruns.1) with ⟨ticks, s', hrun⟩
      have hticks : (Event.request .session ⟨request, hformed⟩ ::
          List.replicate ticks .tick).filterMap Event.taken = [(.session, request)] := by
        simp [Event.taken]
      have hnext := follows_run h (fun event hmem => by
        rcases List.mem_cons.mp hmem with rfl | hmem
        · exact ⟨rfl, hlists⟩
        · rw [List.eq_of_mem_replicate hmem]
          trivial) hrun
      rw [hticks] at hnext
      rcases ih hnext (fun r hmem => hrequests r (List.mem_cons_of_mem _ hmem))
        (by rw [List.map_singleton, handleAll_concat]; exact hruns.2) with
        ⟨events, t, htaken, htimeouts, hrest, hidle⟩
      refine ⟨_ ++ events, t, ?_, fun i hmem => ?_, (Execution.follow_append hrun).trans hrest,
        hidle⟩
      · rw [List.filterMap_append, hticks, htaken]
        rfl
      · rcases List.mem_append.mp hmem with hmem | hmem
        · rcases List.mem_cons.mp hmem with heq | hmem
          · contradiction
          · cases List.eq_of_mem_replicate hmem
        · exact htimeouts i hmem

end Replica

/-! ## Convergence -/

/-- The calls that were completed are requests of the run. -/
theorem completed_onLists {replica : Option Nat} {events : List Event}
    (hevents : ∀ event ∈ events, PushesAndPops replica event) {request : RespValue}
    (hmem : request ∈ (handleAll ((events.filterMap Event.taken).map Prod.snd)).completed) :
    WellFormed request ∧ OnLists request := by
  rcases List.mem_map.mp (mem_of_mem_handleAll (.inl hmem)) with ⟨⟨handler, sent⟩, hsent, rfl⟩
  rcases List.mem_filterMap.mp hsent with ⟨event, hevent, heq⟩
  cases event with
  | request handler' sent' =>
      cases heq
      exact ⟨sent'.wellFormed, (hevents _ hevent).2⟩
  | _ => cases heq

/-- The events of a replica that is sent such calls. -/
theorem pushesAndPops_of_frames {events : List Event} {requests : List RespValue}
    (hframes : events.filterMap Event.taken = requests.map fun command => (.session, command))
    (hrequests : ∀ request ∈ requests, OnLists request) (htimeouts : ∀ i, .timeout i ∉ events) :
    ∀ event ∈ events, PushesAndPops none event := by
  intro event hmem
  cases event with
  | request handler sent =>
      have htake : (handler, sent.value) ∈ events.filterMap Event.taken :=
        List.mem_filterMap.mpr ⟨_, hmem, rfl⟩
      rw [hframes] at htake
      rcases List.mem_map.mp htake with ⟨request, hrequest, heq⟩
      cases heq
      exact ⟨rfl, hrequests _ hrequest⟩
  | timeout i => exact htimeouts i hmem
  | detach id => simp [PushesAndPops]
  | _ => trivial

/-- If nobody waits in the abstract machine, no key has a waiter. -/
theorem Reflects.waiters_eq_nil {replica : Option Nat} {s : Server} {l : Listing}
    (h : Reflects replica s l) (hwaiting : l.waiting = []) (key : Bytes) :
    s.blpop.waiters key = [] := by
  rcases h.queued with ⟨entries, hentries, hqueued⟩
  have hnil : entries = [] := List.map_eq_nil_iff.mp (hqueued.symm.trans hwaiting)
  rw [hentries.waiters, hnil]
  rfl

/-- Blocked pops converge: clients of a master that starts empty push, pop and block in
any interleaving, no {lit}`BLPOP` times out, and a replica stays registered.  The session
of the replica takes in the propagated bytes, cut in any way, and its store thread handles
what the session dispatches, in order, on an empty table; no {lit}`BLPOP` times out there
either.  It can do so, and whenever it has done so, its lists are those of the master, and
nobody waits there. -/
theorem blocked_pops_converge {env' : Env} {registry registry' : ReplicaRegistry}
    {id port o : Nat} {events : List Event} {t : StoreThread} {session : ReplicationSession}
    {received : List SessionEvent} (hid : registry.registered id = true)
    (hevents : ∀ event ∈ events, PushesAndPops (some id) event)
    (hrun : StoreThread.run env (.withReplicas registry) events = some t) (hidle : t.Idle)
    (hstate : session.state = ⟨.commands, o % sizeTModulus⟩) (hbuf : session.buf = [])
    (hbytes : (receivedChunks received).flatten = handedTo id t.server.trace) :
    let frames := (dispatched (session.run port received).2).map fun command =>
      (HandlerId.session, command)
    (∃ events' t', events'.filterMap Event.taken = frames ∧ (∀ i, .timeout i ∉ events') ∧
      StoreThread.run env' (.withReplicas registry') events' = some t' ∧ t'.Idle) ∧
    ∀ events' t', events'.filterMap Event.taken = frames → (∀ i, .timeout i ∉ events') →
      StoreThread.run env' (.withReplicas registry') events' = some t' → t'.Idle →
      t'.server.data = t.server.data ∧ ∀ key, t'.server.blpop.waiters key = [] := by
  have hreached := follows_run (reachesAll_initial (by
    intro id' hid'
    cases hid'
    exact hid)) hevents hrun
  rw [List.nil_append] at hreached
  have hreflects := hreached.reflects hidle
  have hcalls := @completed_onLists (some id) events hevents
  generalize (events.filterMap Event.taken).map Prod.snd = taken at hreflects hcalls
  rw [hreflects.handed.2] at hbytes
  have hdispatched : dispatched (session.run port received).2 = (handleAll taken).completed := by
    refine dispatched_run (fun request hmem => ?_) hstate hbuf hbytes
    rcases hcalls hmem with ⟨hformed, -, cmd, hparse, hlist⟩
    exact ⟨hformed, isGetack_of_write hparse (exists_listBody hlist).1⟩
  intro frames
  have hframes_eq : frames = (handleAll taken).completed.map fun command =>
      (.session, command) := by
    rw [← hdispatched]
  rw [hframes_eq]
  have hstart : ReachesAll none (.withReplicas registry') [] := reachesAll_initial (by simp)
  refine ⟨exists_calls_handled hstart (fun _ hmem => hcalls hmem) (handleAll_completed taken).2.1,
    fun events' t' hframes htimeouts hrun' hidle' => ?_⟩
  have hreached' := follows_run hstart
    (pushesAndPops_of_frames hframes (fun _ hmem => (hcalls hmem).2) htimeouts) hrun'
  have hcompleted : (events'.filterMap Event.taken).map Prod.snd = (handleAll taken).completed := by
    rw [hframes]
    simp
  rw [List.nil_append, hcompleted] at hreached'
  -- the replica ends where the completed calls lead, one after the other
  have hreflects' := hreached'.reflects hidle'
  rw [(handleAll_completed taken).2.2] at hreflects'
  exact ⟨hreflects'.data.trans hreflects.data.symm, hreflects'.waiters_eq_nil rfl⟩

/-! ## Sample runs -/

instance (request : RespValue) : Decidable (OnLists request) :=
  decidable_of_iff (request.type = .array ∧
    ∃ cmd ∈ (parseCommand request).toOption, isListCommand cmd.type = true) <| by
    refine and_congr_right fun _ => ?_
    cases parseCommand request with
    | error e => simp [Except.toOption]
    | ok cmd => simp [Except.toOption]

instance (replica : Option Nat) : (h : HandlerId) → Decidable (Sender replica h)
  | .client _ | .session => inferInstanceAs (Decidable (_ = _))
  | .replication _ => .isFalse id

instance (replica : Option Nat) : (event : Event) → Decidable (PushesAndPops replica event)
  | .request _ _ => inferInstanceAs (Decidable (_ ∧ _))
  | .timeout _ => .isFalse id
  | .detach _ => inferInstanceAs (Decidable (∀ _ ∈ replica, _))
  | .tick | .expire _ | .poll _ | .attach | .ack _ _ => .isTrue trivial

/-- {lit}`BLPOP k 1`. -/
def popWithin : Request :=
  .short (ascii "BLPOP") [ascii "k", ascii "1"] (Eq.refl true)

/-- A client blocks, and a push serves it and leaves an element. -/
def servedByPush : List Event :=
  job 1 popWithin 2 ++
    job 2 (.short (ascii "RPUSH") [ascii "k", ascii "x", ascii "y"] (Eq.refl true)) 6

/-- The frame of the blocked call comes first, and the replica ends with the same list. -/
theorem blocked_pops_converge_served :
    ∃ t received, StoreThread.run sampleEnv (.withReplicas oneReplica) servedByPush = some t ∧
      t.server.data (ascii "k") = some ⟨.list [ascii "y"], none⟩ ∧
      (receivedChunks received).flatten = handedTo 0 t.server.trace ∧
      ∃ events' t', events'.filterMap Event.taken =
          (dispatched (ReplicationSession.run 6380 ⟨⟨.commands, 0⟩, [], false⟩ received).2).map
            (fun command => (.session, command)) ∧
        StoreThread.run sampleEnv (.withReplicas .empty) events' = some t' ∧
        t'.server.data = t.server.data := by
  have hfacts : (StoreThread.run sampleEnv (.withReplicas oneReplica) servedByPush).map
      (fun t => (t.stack, t.server.data (ascii "k"))) =
        some ([], some ⟨.list [ascii "y"], none⟩) := by
    decide +kernel
  rcases Option.map_eq_some_iff.mp hfacts with ⟨t, hrun, hvalues⟩
  have hidle : t.Idle := congrArg Prod.fst hvalues
  let received : List SessionEvent := [.receive (handedTo 0 t.server.trace)]
  have hbytes : (receivedChunks received).flatten = handedTo 0 t.server.trace := by
    simp [received, receivedChunks]
  have hconverges := @blocked_pops_converge sampleEnv sampleEnv oneReplica .empty 0 6380 0
    servedByPush t ⟨⟨.commands, 0⟩, [], false⟩ received (by decide) (by decide +kernel) hrun hidle
    rfl rfl hbytes
  rcases hconverges.1 with ⟨events', t', htaken, htimeouts, hrun', hidle'⟩
  exact ⟨t, received, hrun, congrArg Prod.snd hvalues, hbytes, events', t', htaken, hrun',
    (hconverges.2 events' t' htaken htimeouts hrun' hidle').1⟩

/-- {lit}`RPUSH k x`. -/
def pushOne : Request :=
  .short (ascii "RPUSH") [ascii "k", ascii "x"] (Eq.refl true)

/-- {lit}`BLPOP k 1` times out on the master and is propagated, and then an element is
pushed: the replica blocks for the first frame, and its waiter takes the element of the
second. -/
theorem timed_out_pop_diverges :
    (StoreThread.run sampleEnv (.withReplicas oneReplica)
      (job 1 popWithin 2 ++ [.expire 0, .timeout 0, .tick] ++ job 2 pushOne 4)).map
      (fun t => (t.stack.length, handedTo 0 t.server.trace, t.server.data (ascii "k"))) =
        some (0, serialize popWithin.value ++ serialize pushOne.value,
          some ⟨.list [ascii "x"], none⟩) ∧
    (StoreThread.run sampleEnv (.withReplicas .empty)
      (.request .session popWithin :: List.replicate 2 .tick ++
        .request .session pushOne :: List.replicate 6 .tick)).map
      (fun t => (t.stack.length, t.server.data (ascii "k"))) = some (0, none) := by
  decide +kernel

end RedisClone
