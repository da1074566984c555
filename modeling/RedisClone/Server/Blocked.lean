import RedisClone.Server.Transitions
import RedisClone.Command.Footprint

/-!
# Blocked clients

A blocked {lit}`BLPOP` or {lit}`XREAD` leaves a registration and a timer behind.
Two callbacks may answer it: the one of the registration, which a push or an
{lit}`XADD` calls, and the handler of the timer.  They share no flag.  The first
one cancels the timer, the second one removes the registration, and cancelling has
no effect on a timer whose handler is queued already.

Every timer belongs to one blocked request, so a request is named by its timer.

Main results:

- Theorem {lit}`answered_step`: a blocked request is answered when its timer is done, and
  not before, if no request is served whose timer handler is queued, no {lit}`XREAD` names
  a key twice, and no waiter of a stream is copied while copies wait to be called.
- Theorem {lit}`reply_of_answers`: an answer is one call of the callback of a request that
  still waits.
-/

namespace RedisClone

variable {env : Env}

/-! ## Registrations and timers -/

/-- The timer of a blocked request that has no answer yet. -/
def Pending (timers : List Timer) (i : Nat) (kind : BlockKind) (id : Nat) (reply : OnReply) : Prop :=
  ∃ status : TimerStatus, status ≠ .done ∧ timers[i]? = some ⟨kind, id, reply, status⟩

namespace Pending

variable {timers timers' : List Timer} {i j id id' : Nat} {kind kind' : BlockKind}
  {reply reply' : OnReply}

/-- A new timer. -/
theorem append (h : Pending timers i kind id reply) (new : Timer) :
    Pending (timers ++ [new]) i kind id reply := by
  rcases h with ⟨status, hstatus, htimer⟩
  refine ⟨status, hstatus, ?_⟩
  rw [List.getElem?_append_left (List.getElem?_eq_some_iff.mp htimer).1]
  exact htimer

/-- Another timer changes. -/
theorem of_eq (h : Pending timers i kind id reply) (heq : timers'[i]? = timers[i]?) :
    Pending timers' i kind id reply := by
  rcases h with ⟨status, hstatus, htimer⟩
  exact ⟨status, hstatus, heq.trans htimer⟩

/-- A timer belongs to one request. -/
theorem unique (h : Pending timers i kind id reply) (h' : Pending timers i kind' id' reply') :
    kind = kind' ∧ id = id' := by
  rcases h with ⟨status, -, htimer⟩
  rcases h' with ⟨status', -, htimer'⟩
  rw [htimer] at htimer'
  cases htimer'
  exact ⟨rfl, rfl⟩

end Pending

/-- Every waiter of a registry has a timer that waits for an answer, and the timer
knows the registration and the callback.  The projections say what a callback of the
registry holds. -/
structure Linked {κ : Type} (kind : BlockKind) (timer : κ → Nat) (onReply : κ → OnReply)
    (r : BlockingRegistry κ) (timers : List Timer) : Prop where
  waiter : ∀ {key id callback}, (id, callback) ∈ r.waiters key →
    id < r.nextId ∧ key ∈ (r.idToKeys id).getD [] ∧
      Pending timers (timer callback) kind id (onReply callback)

namespace Linked

variable {κ : Type} {kind : BlockKind} {timer : κ → Nat} {onReply : κ → OnReply}
  {r : BlockingRegistry κ} {timers timers' : List Timer}

/-- An empty registry. -/
theorem empty : Linked kind timer onReply BlockingRegistry.empty timers := by
  constructor
  intro key id callback hmem
  simp at hmem

/-- Timers that wait for an answer still do. -/
theorem congr (h : Linked kind timer onReply r timers)
    (htimers : ∀ {i id reply}, Pending timers i kind id reply → Pending timers' i kind id reply) :
    Linked kind timer onReply r timers' := by
  constructor
  intro key id callback hmem
  rcases h.waiter hmem with ⟨hid, hkeys, hpending⟩
  exact ⟨hid, hkeys, htimers hpending⟩

/-- A new registration with its timer. -/
theorem register (h : Linked kind timer onReply r timers) (keys : List Bytes) {callback : κ}
    {status : TimerStatus} (htimer : timer callback = timers.length) (hstatus : status ≠ .done) :
    Linked kind timer onReply (r.registerCallbacks keys callback).1
      (timers ++ [⟨kind, r.nextId, onReply callback, status⟩]) := by
  constructor
  intro key id callback' hmem
  rw [BlockingRegistry.waiters_registerCallbacks, List.mem_append] at hmem
  rcases hmem with hold | hnew
  · rcases h.waiter hold with ⟨hid, hkeys, hpending⟩
    refine ⟨Nat.lt_succ_of_lt hid, ?_, hpending.append _⟩
    simp only [BlockingRegistry.registerCallbacks]
    rw [Function.update_of_ne (Nat.ne_of_lt hid)]
    exact hkeys
  · rcases List.mem_replicate.mp hnew with ⟨hcount, heq⟩
    simp only [Prod.mk.injEq] at heq
    rcases heq with ⟨rfl, rfl⟩
    refine ⟨Nat.lt_succ_self _, ?_, status, hstatus, ?_⟩
    · simp only [BlockingRegistry.registerCallbacks, Function.update_self, Option.getD_some]
      exact List.count_pos_iff.mp (Nat.pos_of_ne_zero hcount)
    · rw [htimer]
      simp

/-- A removed registration is nobody's waiter. -/
theorem ne_of_unregister (h : Linked kind timer onReply r timers) {id id' : Nat} {key : Bytes}
    {callback : κ} (hmem : (id', callback) ∈ (r.unregister id).waiters key) : id' ≠ id := by
  rintro rfl
  have hold := BlockingRegistry.mem_waiters_of_unregister hmem
  rw [BlockingRegistry.waiters_unregister, if_pos (h.waiter hold).2.1] at hmem
  simp at hmem

/-- A registration is removed, and only its own timer changes. -/
theorem unregister (h : Linked kind timer onReply r timers) {i id : Nat} {reply : OnReply}
    (hpending : Pending timers i kind id reply) (hothers : ∀ j, j ≠ i → timers'[j]? = timers[j]?) :
    Linked kind timer onReply (r.unregister id) timers' := by
  constructor
  intro key id' callback hmem
  have hne := h.ne_of_unregister hmem
  rcases h.waiter (BlockingRegistry.mem_waiters_of_unregister hmem) with ⟨hid, hkeys, hold⟩
  refine ⟨?_, ?_, hold.of_eq (hothers _ ?_)⟩
  · unfold BlockingRegistry.unregister
    split <;> exact hid
  · unfold BlockingRegistry.unregister
    split
    · exact hkeys
    · simp only
      rw [Function.update_of_ne hne]
      exact hkeys
  · intro heq
    rw [heq] at hold
    exact hne (hold.unique hpending).2

/-- A timer of the other registry changes. -/
theorem other (h : Linked kind timer onReply r timers) {kind' : BlockKind} {i id : Nat}
    {reply : OnReply} (hpending : Pending timers i kind' id reply) (hkind : kind' ≠ kind)
    (hothers : ∀ j, j ≠ i → timers'[j]? = timers[j]?) :
    Linked kind timer onReply r timers' := by
  refine h.congr fun {j id' reply'} hold => hold.of_eq (hothers j ?_)
  rintro rfl
  exact hkind (hpending.unique hold).1

end Linked

/-! ## Answers -/

/-- The requests that an event answers, named by their timers. -/
def answers (t : StoreThread) : Event → List Nat
  | .tick =>
      match t.stack with
      | .serveBlpop key :: _ =>
          match t.server.blpop.waiters key, (t.server.data.lpop key 1).2 with
          | (_, callback) :: _, .ok (_ :: _) => [callback.timer]
          | _, _ => []
      | .wakeXread (_, callback) :: _ =>
          match t.server.data.xread callback.streams with
          | .ok _ => [callback.timer]
          | .error _ => []
      | _ => []
  | .timeout i => [i]
  | _ => []

/-- A round of {lit}`serve_blpop_waiters` that pops answers the first waiter. -/
theorem answers_served {s : Server} {key value : Bytes} {id : Nat} {callback : BlpopCallback}
    {later : List (Nat × BlpopCallback)} {d : Store} {more : List Bytes} (rest : List Task)
    (hwaiters : s.blpop.waiters key = (id, callback) :: later)
    (hpop : s.data.lpop key 1 = (d, .ok (value :: more))) :
    answers ⟨s, .serveBlpop key :: rest⟩ .tick = [callback.timer] := by
  simp [answers, hwaiters, hpop]

/-- A waiter of a stream that is called is answered. -/
theorem answers_woke {s : Server} {id : Nat} {callback : XreadCallback}
    {results : List (Bytes × List StreamEntry)} (rest : List Task)
    (hread : s.data.xread callback.streams = .ok results) :
    answers ⟨s, .wakeXread (id, callback) :: rest⟩ .tick = [callback.timer] := by
  simp [answers, hread]

/-- The timer of a waiter that is about to be called. -/
def Task.wakes : Task → Option Nat
  | .wakeXread registration => some registration.2.timer
  | _ => none

/-- An {lit}`XREAD`, with {lit}`BLOCK` or without, names each key once. -/
def Task.namesOnce : Task → Prop
  | .execute _ _ cmd _ => cmd.type = .xread → (parseXreadArgs cmd).keys.Nodup
  | _ => True

/-- Whether waiters of a stream are copied. -/
def Task.copies : Task → Bool
  | .serveXread _ => true
  | _ => false

/-- No request is answered whose timer handler is queued, an {lit}`XREAD` names each key once, the
waiters of a stream are not copied while copies wait to be called, and a waiter does not throw. -/
def Orderly (t : StoreThread) : Event → Prop
  | .tick =>
      (∀ i ∈ answers t .tick, ∀ timer ∈ t.server.timers[i]?, timer.status ≠ .queued) ∧
      (∀ task ∈ t.stack.head?, task.namesOnce ∧
        (task.copies = true → t.stack.filterMap Task.wakes = []) ∧
        (task.wakes.isSome = true → answers t .tick ≠ []))
  | _ => True

/-- The answers so far are those of the timers that are done. -/
structure Counted (timers : List Timer) (seen : List Nat) : Prop where
  known : ∀ i ∈ seen, i < timers.length
  count_eq : ∀ {i timer}, timers[i]? = some timer →
    seen.count i = if timer.status = .done then 1 else 0

namespace Counted

variable {timers timers' : List Timer} {seen : List Nat}

/-- A new timer. -/
theorem append (h : Counted timers seen) {new : Timer} (hnew : new.status ≠ .done) :
    Counted (timers ++ [new]) seen := by
  constructor
  · intro i hi
    rw [List.length_append]
    exact Nat.lt_add_right _ (h.known i hi)
  · intro i timer htimer
    by_cases hlt : i < timers.length
    · rw [List.getElem?_append_left hlt] at htimer
      exact h.count_eq htimer
    · have hzero : seen.count i = 0 := List.count_eq_zero.mpr fun hmem => hlt (h.known i hmem)
      rw [List.getElem?_append_right (Nat.le_of_not_lt hlt)] at htimer
      have hsame : timer = new := by
        rcases List.getElem?_eq_some_iff.mp htimer with ⟨hone, hget⟩
        simpa using hget.symm
      rw [hzero, hsame, if_neg hnew]

/-- A timer changes, and is not done before or behind the change. -/
theorem congr (h : Counted timers seen) {i : Nat} {timer timer' : Timer}
    (htimer : timers[i]? = some timer) (hbefore : timer.status ≠ .done)
    (hbehind : timer'.status ≠ .done) : Counted (timers.set i timer') seen := by
  constructor
  · intro j hj
    rw [List.length_set]
    exact h.known j hj
  · intro j timer'' htimer'
    by_cases heq : j = i
    · subst heq
      have hlt := (List.getElem?_eq_some_iff.mp htimer).1
      rw [List.getElem?_set_self hlt] at htimer'
      cases htimer'
      rw [h.count_eq htimer, if_neg hbefore, if_neg hbehind]
    · rw [List.getElem?_set_ne (Ne.symm heq)] at htimer'
      exact h.count_eq htimer'

/-- A pending request is answered. -/
theorem answer (h : Counted timers seen) {i id : Nat} {kind : BlockKind} {reply : OnReply}
    (hpending : Pending timers i kind id reply) (hlength : timers'.length = timers.length)
    (hothers : ∀ j, j ≠ i → timers'[j]? = timers[j]?)
    (hdone : ∀ timer, timers'[i]? = some timer → timer.status = .done) :
    Counted timers' (seen ++ [i]) := by
  rcases hpending with ⟨status, hstatus, htimer⟩
  constructor
  · intro j hj
    rw [hlength]
    rcases List.mem_append.mp hj with hold | hnew
    · exact h.known j hold
    · rw [List.mem_singleton.mp hnew]
      exact (List.getElem?_eq_some_iff.mp htimer).1
  · intro j timer' htimer'
    rw [List.count_append]
    by_cases heq : j = i
    · subst heq
      rw [h.count_eq htimer, if_neg hstatus, if_pos (hdone timer' htimer')]
      simp
    · rw [hothers j heq] at htimer'
      rw [h.count_eq htimer', List.count_singleton]
      simp [Ne.symm heq]

end Counted

/-- The registries, the timers, the waiters on the stack and the answers so far belong
together. -/
structure Answered (t : StoreThread) (seen : List Nat) : Prop where
  blpop : Linked .blpop BlpopCallback.timer BlpopCallback.onReply t.server.blpop t.server.timers
  xread : Linked .xread XreadCallback.timer XreadCallback.onReply t.server.xread t.server.timers
  once : ∀ key, ((t.server.xread.waiters key).map Prod.fst).Nodup
  wakes : ∀ {id callback}, .wakeXread (id, callback) ∈ t.stack →
    Pending t.server.timers callback.timer .xread id callback.onReply
  distinct : (t.stack.filterMap Task.wakes).Nodup
  counted : Counted t.server.timers seen

/-- Nothing changes for blocked clients. -/
theorem Answered.frame {s s' : Server} {stack stack' : List Task} {seen : List Nat}
    (h : Answered ⟨s, stack⟩ seen) (hblpop : s'.blpop = s.blpop) (hxread : s'.xread = s.xread)
    (htimers : s'.timers = s.timers) (hstack : ∀ task ∈ stack', task.wakes ≠ none → task ∈ stack)
    (hwakes : (stack'.filterMap Task.wakes).Sublist (stack.filterMap Task.wakes)) :
    Answered ⟨s', stack'⟩ seen := by
  rcases h with ⟨hlinked, hlinked', honce, hwaiting, hdistinct, hcounted⟩
  refine ⟨?_, ?_, ?_, ?_, hdistinct.sublist hwakes, ?_⟩
  · simp only [hblpop, htimers]
    exact hlinked
  · simp only [hxread, htimers]
    exact hlinked'
  · simp only [hxread]
    exact honce
  · intro id callback hmem
    simp only [htimers]
    exact hwaiting (hstack _ hmem (by simp [Task.wakes]))
  · simp only [htimers]
    exact hcounted

/-- A task calls no waiters. -/
theorem Answered.calls {s s' : Server} {task : Task} {new rest : List Task} {seen : List Nat}
    (h : Answered ⟨s, task :: rest⟩ seen) (hblpop : s'.blpop = s.blpop)
    (hxread : s'.xread = s.xread) (htimers : s'.timers = s.timers)
    (hnew : ∀ task' ∈ new, task'.wakes = none) : Answered ⟨s', new ++ rest⟩ seen := by
  refine h.frame hblpop hxread htimers ?_ ?_
  · intro task' hmem hwakes
    rcases List.mem_append.mp hmem with hmem | hmem
    · exact absurd (hnew task' hmem) hwakes
    · exact List.mem_cons_of_mem _ hmem
  · have hnone : new.filterMap Task.wakes = [] := List.filterMap_eq_nil_iff.mpr hnew
    rw [List.filterMap_append, hnone, List.nil_append]
    exact (List.sublist_cons_self task rest).filterMap _

/-! ## Blocking -/

/-- Valid arguments name as many identifiers as keys. -/
theorem length_keys_le_of_valid {cmd : Command} (h : (parseXreadArgs cmd).valid = true) :
    (parseXreadArgs cmd).keys.length ≤ (parseXreadArgs cmd).ids.length := by
  have hstreams : ∀ {args isBlocking timeout}, (parseStreams args isBlocking timeout).valid = true →
      (parseStreams args isBlocking timeout).keys.length ≤
        (parseStreams args isBlocking timeout).ids.length := by
    intro args isBlocking timeout hvalid
    unfold parseStreams at hvalid ⊢
    split
    · simp
    · split
      · simp
      · simp only [List.length_take, List.length_drop]
        omega
  generalize hparsed : parseXreadArgs cmd = parsed at h ⊢
  unfold parseXreadArgs at hparsed
  split at hparsed
  · split at hparsed
    · subst hparsed
      exact hstreams h
    · subst hparsed
      simp
  · subst hparsed
    exact hstreams h

/-- Only {lit}`XREAD` blocks for streams, with its own keys. -/
theorem keys_of_blockXread {cmd : Command} {now : Reading} {d d' : Store}
    {body : Command → Reading → Store → CommandResult} {streams : List (Bytes × Bytes)}
    {timeout : Double} (hbody : dataCommand cmd.type = some body)
    (h : body cmd now d = (d', .ok (.blockXread streams timeout))) :
    cmd.type = .xread ∧ streams.map Prod.fst = (parseXreadArgs cmd).keys := by
  have hpossible : (Outcome.blockXread streams timeout).PossibleFor cmd.type :=
    possibleFor_of_dataCommand hbody (by rw [h])
  have htype : cmd.type = .xread := hpossible
  rw [htype] at hbody
  cases hbody
  refine ⟨htype, ?_⟩
  unfold xreadExecute at h
  simp only at h
  split at h
  · cases h
  · rename_i hvalid
    split at h
    · cases h
    · rename_i resolved hresolve
      split at h
      · cases h
      · split at h
        · cases h
        · split at h
          · cases h
          · cases h
            rw [map_fst_resolveStreamIds hresolve, List.map_fst_zip]
            exact length_keys_le_of_valid (by simpa using hvalid)

/-- A timer that was just made is not done. -/
theorem timerStatus_ne_done (timeout : Double) : Server.timerStatus timeout ≠ .done := by
  unfold Server.timerStatus
  split <;> simp

/-- What a command on the keyspace does to blocked clients. -/
theorem answered_settle {s : Server} {rest : List Task} {seen : List Nat} {onReply : OnReply}
    {task : Task} {outcome : Outcome} (h : Answered ⟨s, task :: rest⟩ seen)
    (hkeys : ∀ streams timeout, outcome = .blockXread streams timeout →
      (streams.map Prod.fst).Nodup) :
    Answered ⟨(s.settle onReply outcome).1, (s.settle onReply outcome).2 ++ rest⟩ seen := by
  cases outcome with
  | answer a =>
      have hnew : ∀ task' ∈ (s.settle onReply (.answer a)).2, task'.wakes = none := by
        intro task' hmem
        rcases mem_settle hmem with ⟨key, rfl⟩ | ⟨key, rfl⟩ | ⟨response, rfl⟩ | rfl <;> rfl
      refine h.calls ?_ ?_ ?_ hnew <;> (simp only [Server.settle]; split <;> rfl)
  | blockBlpop keys timeout =>
      rcases h with ⟨hlinked, hlinked', honce, hwaiting, hdistinct, hcounted⟩
      refine ⟨?_, hlinked'.congr fun hold => hold.append _, honce, ?_, ?_, ?_⟩
      · exact hlinked.register keys rfl (timerStatus_ne_done timeout)
      · intro id callback hmem
        exact (hwaiting (List.mem_cons_of_mem _ hmem)).append _
      · exact hdistinct.sublist ((List.sublist_cons_self task rest).filterMap _)
      · exact hcounted.append (timerStatus_ne_done timeout)
  | blockXread streams timeout =>
      rcases h with ⟨hlinked, hlinked', honce, hwaiting, hdistinct, hcounted⟩
      refine ⟨hlinked.congr fun hold => hold.append _, ?_, ?_, ?_, ?_, ?_⟩
      · exact hlinked'.register (streams.map Prod.fst) rfl (timerStatus_ne_done timeout)
      · intro key
        simp only [Server.settle, Server.blockXread_xread,
          BlockingRegistry.waiters_registerCallbacks, List.map_append, List.map_replicate]
        refine List.Nodup.append (honce key) ?_ ?_
        · rw [List.nodup_replicate]
          exact List.nodup_iff_count_le_one.mp (hkeys streams timeout rfl) key
        · intro id hold hnew
          rcases List.mem_map.mp hold with ⟨⟨id', callback⟩, hmem, rfl⟩
          have hlt := (hlinked'.waiter hmem).1
          have hid : id' = s.xread.nextId := List.eq_of_mem_replicate hnew
          exact absurd hid (Nat.ne_of_lt hlt)
      · intro id callback hmem
        exact (hwaiting (List.mem_cons_of_mem _ hmem)).append _
      · exact hdistinct.sublist ((List.sublist_cons_self task rest).filterMap _)
      · exact hcounted.append (timerStatus_ne_done timeout)

/-! ## Answering -/

/-- Cancelling finishes a timer whose handler is not queued. -/
theorem cancel_status {timer : Timer} (h : timer.status ≠ .queued) :
    timer.cancel.status = .done := by
  unfold Timer.cancel
  split
  · rfl
  · rfl
  · rename_i harmed hnever
    cases hstatus : timer.status with
    | armed => exact absurd hstatus harmed
    | never => exact absurd hstatus hnever
    | queued => exact absurd hstatus h
    | done => rfl

/-- The timer of an answered request is done, and the others stay as they are. -/
theorem cancelTimer_spec {timers : List Timer} {i : Nat}
    (h : ∀ timer ∈ timers[i]?, timer.status ≠ .queued) :
    (timers.modify i Timer.cancel).length = timers.length ∧
      (∀ j, j ≠ i → (timers.modify i Timer.cancel)[j]? = timers[j]?) ∧
      ∀ timer, (timers.modify i Timer.cancel)[i]? = some timer → timer.status = .done := by
  refine ⟨by simp, ?_, ?_⟩
  · intro j hne
    simp [Ne.symm hne]
  · intro timer htimer
    rw [List.getElem?_modify_eq] at htimer
    rcases Option.map_eq_some_iff.mp htimer with ⟨timer', htimer', rfl⟩
    exact cancel_status (h timer' htimer')

/-- The waiters of a stream are different requests. -/
theorem nodup_timers_of_waiters {r : BlockingRegistry XreadCallback} {timers : List Timer}
    (hlinked : Linked .xread XreadCallback.timer XreadCallback.onReply r timers) {key : Bytes}
    (honce : ((r.waiters key).map Prod.fst).Nodup) :
    ((r.waiters key).map fun registration => registration.2.timer).Nodup := by
  have hids : ((r.waiters key).map Prod.fst).Nodup := honce
  rw [List.nodup_map_iff_inj_on (List.Nodup.of_map _ hids)]
  rintro ⟨id, callback⟩ hmem ⟨id', callback'⟩ hmem' heq
  have hpending := (hlinked.waiter hmem).2.2
  have hpending' := (hlinked.waiter hmem').2.2
  simp only at heq
  rw [← heq] at hpending'
  have hsame : id = id' := (hpending.unique hpending').2
  exact (List.inj_on_of_nodup_map hids) hmem hmem' hsame

/-- A waiting {lit}`BLPOP` is served. -/
theorem Answered.served {s : Server} {rest : List Task} {seen : List Nat} {key : Bytes} {id : Nat}
    {callback : BlpopCallback} {later : List (Nat × BlpopCallback)}
    (h : Answered ⟨s, .serveBlpop key :: rest⟩ seen)
    (hwaiters : s.blpop.waiters key = (id, callback) :: later)
    (hqueued : ∀ timer ∈ s.timers[callback.timer]?, timer.status ≠ .queued)
    (d : Store) (response : Bytes) :
    Answered ⟨((s.setData d).unregisterBlpop id).cancelTimer callback.timer,
      .reply callback.onReply response :: .serveBlpop key :: rest⟩ (seen ++ [callback.timer]) := by
  rcases cancelTimer_spec hqueued with ⟨hlength, hothers, hdone⟩
  rcases h with ⟨hlinked, hlinked', honce, hwaiting, hdistinct, hcounted⟩
  have hmem : (id, callback) ∈ s.blpop.waiters key := by simp [hwaiters]
  have hpending := (hlinked.waiter hmem).2.2
  refine ⟨hlinked.unregister hpending hothers, hlinked'.other hpending (by simp) hothers, honce,
    ?_, hdistinct, hcounted.answer hpending hlength hothers hdone⟩
  intro id' callback' hmem'
  have hold := hwaiting (show .wakeXread (id', callback') ∈ .serveBlpop key :: rest by
    simpa using hmem')
  refine hold.of_eq (hothers _ ?_)
  intro heq
  rw [heq] at hold
  cases (hold.unique hpending).1

/-- The waiters of a stream are copied, if no copies wait to be called. -/
theorem Answered.copied {s : Server} {rest : List Task} {seen : List Nat} {key : Bytes}
    (h : Answered ⟨s, .serveXread key :: rest⟩ seen) (hnone : rest.filterMap Task.wakes = []) :
    Answered ⟨s, (s.xread.waiters key).map .wakeXread ++ rest⟩ seen := by
  rcases h with ⟨hlinked, hlinked', honce, hwaiting, hdistinct, hcounted⟩
  refine ⟨hlinked, hlinked', honce, ?_, ?_, hcounted⟩
  · intro id callback hmem
    rcases List.mem_append.mp hmem with hnew | hold
    · rcases List.mem_map.mp hnew with ⟨registration, hregistration, heq⟩
      cases heq
      exact (hlinked'.waiter hregistration).2.2
    · exact hwaiting (List.mem_cons_of_mem _ hold)
  · rw [List.filterMap_append, hnone, List.append_nil, List.filterMap_map]
    have hmap : (s.xread.waiters key).filterMap (Task.wakes ∘ Task.wakeXread) =
        (s.xread.waiters key).map fun registration => registration.2.timer := by
      rw [← List.filterMap_eq_map]
      rfl
    rw [hmap]
    exact nodup_timers_of_waiters hlinked' (honce key)

/-- A waiting {lit}`XREAD` reads and replies. -/
theorem Answered.woke {s : Server} {rest : List Task} {seen : List Nat} {id : Nat}
    {callback : XreadCallback} (h : Answered ⟨s, .wakeXread (id, callback) :: rest⟩ seen)
    (hqueued : ∀ timer ∈ s.timers[callback.timer]?, timer.status ≠ .queued)
    (response : Bytes) :
    Answered ⟨(s.unregisterXread id).cancelTimer callback.timer,
      .reply callback.onReply response :: rest⟩ (seen ++ [callback.timer]) := by
  rcases cancelTimer_spec hqueued with ⟨hlength, hothers, hdone⟩
  rcases h with ⟨hlinked, hlinked', honce, hwaiting, hdistinct, hcounted⟩
  have hpending := hwaiting List.mem_cons_self
  simp only [List.filterMap_cons, Task.wakes, List.nodup_cons] at hdistinct
  refine ⟨hlinked.other hpending (by simp) hothers, hlinked'.unregister hpending hothers, ?_, ?_,
    hdistinct.2, hcounted.answer hpending hlength hothers hdone⟩
  · intro key
    simp only [Server.cancelTimer_xread, Server.unregisterXread_xread,
      BlockingRegistry.waiters_unregister]
    split
    · exact (honce key).sublist (List.filter_sublist.map _)
    · exact honce key
  · intro id' callback' hmem'
    have hmem'' : .wakeXread (id', callback') ∈ rest := by simpa using hmem'
    refine (hwaiting (List.mem_cons_of_mem _ hmem'')).of_eq (hothers _ ?_)
    intro heq
    exact hdistinct.1 (List.mem_filterMap.mpr ⟨_, hmem'', by simp [Task.wakes, heq]⟩)

/-- One step of the store thread keeps account of the answers. -/
theorem answered_calls {s s' : Server} {task : Task} {new rest : List Task} {seen : List Nat}
    (h : Answered ⟨s, task :: rest⟩ seen) (hord : Orderly ⟨s, task :: rest⟩ .tick)
    (hacts : Acts env s task s' (.ok new)) :
    Answered ⟨s', new ++ rest⟩ (seen ++ answers ⟨s, task :: rest⟩ .tick) := by
  rcases hord with ⟨hqueued, htask⟩
  rcases htask task rfl with ⟨hnames, hcopies, -⟩
  cases hacts with
  | @ran h' request cmd onReply body d outcome hbody hresult =>
      simp only [answers, List.append_nil]
      refine @answered_settle ((s.withData d).record (.executed h' cmd.type request)) rest seen
        onReply _ outcome (h.frame rfl rfl rfl (fun _ hmem _ => hmem) (List.Sublist.refl _)) ?_
      rintro streams timeout rfl
      rcases keys_of_blockXread hbody hresult with ⟨htype, hkeys⟩
      rw [hkeys]
      exact hnames htype
  | @served key value id callback later d more hwaiters hpop =>
      rw [answers_served rest hwaiters hpop] at hqueued ⊢
      exact h.served hwaiters (hqueued _ List.mem_cons_self) d _
  | @unawaited key hwaiters =>
      have hanswers : answers ⟨s, .serveBlpop key :: rest⟩ .tick = [] := by
        simp [answers, hwaiters]
      rw [hanswers, List.append_nil]
      exact h.calls rfl rfl rfl (by simp)
  | @unserved key id callback later d hwaiters hpop =>
      have hanswers : answers ⟨s, .serveBlpop key :: rest⟩ .tick = [] := by
        rcases hpop with hpop | ⟨hpop, -⟩
        · simp [answers, hwaiters, hpop]
        · cases hresult : (s.data.lpop key 1).2 with
          | error e => simp [answers, hwaiters, hresult]
          | ok values => simp [hresult, Except.isOk, Except.toBool] at hpop
      rw [hanswers, List.append_nil]
      exact h.calls rfl rfl rfl (by simp)
  | copied key =>
      have hnone : rest.filterMap Task.wakes = [] := by
        have hall := hcopies rfl
        simpa [Task.wakes] using hall
      simpa [answers] using h.copied hnone
  | @woke id callback results hread =>
      rw [answers_woke rest hread] at hqueued ⊢
      exact h.woke (hqueued _ List.mem_cons_self) _
  | collected hcontext hindex type request response =>
      simp only [answers, List.append_nil]
      split <;> exact h.calls rfl rfl rfl (by simp [Task.wakes])
  | _ =>
      simp only [answers, List.append_nil]
      exact h.calls rfl rfl rfl (by simp [Task.wakes])

/-- An exception leaves only answered and waiting requests behind. -/
theorem answered_throws {s s' : Server} {task : Task} {rest stack : List Task} {e : Exception}
    {onReply : OnReply} {response : Bytes} {seen : List Nat}
    (h : Answered ⟨s, task :: rest⟩ seen) (hord : Orderly ⟨s, task :: rest⟩ .tick)
    (hstack : stack.Sublist rest) (hacts : Acts env s task s' (.error e)) :
    Answered ⟨s', .reply onReply response :: stack⟩
      (seen ++ answers ⟨s, task :: rest⟩ .tick) := by
  have hframe : s'.blpop = s.blpop → s'.xread = s.xread → s'.timers = s.timers →
      Answered ⟨s', .reply onReply response :: stack⟩ seen := by
    intro hblpop hxread htimers
    refine h.frame hblpop hxread htimers ?_ ?_
    · intro task' hmem hwakes
      rcases List.mem_cons.mp hmem with rfl | hmem
      · exact absurd rfl hwakes
      · exact List.mem_cons_of_mem _ (hstack.subset hmem)
    · exact (hstack.trans (List.sublist_cons_self task rest)).filterMap Task.wakes
  cases hacts with
  | threw hbody hresult => simpa [answers] using hframe rfl rfl rfl
  | overrun hfull type request response' => simpa [answers] using hframe rfl rfl rfl
  | @wokeThrew id callback e hread =>
      have hsome := ((hord.2 _ rfl).2.2 rfl)
      simp [answers, hread] at hsome
  | stuck context => simpa [answers] using hframe rfl rfl rfl

/-- The handler of a timer answers its request. -/
theorem answered_timeout {s : Server} {i : Nat} {timer : Timer} {seen : List Nat}
    (h : Answered ⟨s, []⟩ seen) (htimer : s.timers[i]? = some timer)
    (hqueued : timer.status = .queued) :
    Answered (StoreThread.onTimeout s i timer) (seen ++ [i]) := by
  rcases timer with ⟨kind, registration, reply, status⟩
  have hpending : Pending s.timers i kind registration reply :=
    ⟨status, fun hdone => by simp [hdone] at hqueued, htimer⟩
  have hothers : ∀ j, j ≠ i →
      (s.timers.set i ⟨kind, registration, reply, .done⟩)[j]? = s.timers[j]? :=
    fun j hne => List.getElem?_set_ne (Ne.symm hne)
  have hdone : ∀ timer, (s.timers.set i ⟨kind, registration, reply, .done⟩)[i]? = some timer →
      timer.status = .done := by
    intro timer htimer'
    rw [List.getElem?_set_self (List.getElem?_eq_some_iff.mp htimer).1] at htimer'
    cases htimer'
    rfl
  rcases h with ⟨hlinked, hlinked', honce, hwaiting, hdistinct, hcounted⟩
  have hcounted' := hcounted.answer hpending (by simp) hothers hdone
  cases kind with
  | blpop =>
      exact ⟨hlinked.unregister hpending hothers, hlinked'.other hpending (by simp) hothers, honce,
        by simp [StoreThread.onTimeout], List.nodup_nil, hcounted'⟩
  | xread =>
      refine ⟨hlinked.other hpending (by simp) hothers, hlinked'.unregister hpending hothers, ?_,
        by simp [StoreThread.onTimeout], List.nodup_nil, hcounted'⟩
      intro key
      simp only [StoreThread.onTimeout, Server.unregisterXread_xread, Server.setTimer_xread,
        BlockingRegistry.waiters_unregister]
      split
      · exact (honce key).sublist (List.filter_sublist.map _)
      · exact honce key

/-! ## Runs -/

/-- Every event keeps account of the answers. -/
theorem answered_step {t t' : StoreThread} {event : Event} {seen : List Nat} (h : Answered t seen)
    (hord : Orderly t event) (hstep : t.step env event = some t') :
    Answered t' (seen ++ answers t event) := by
  cases moves_of_step hstep with
  | request s handler request =>
      simp only [answers, List.append_nil]
      exact h.frame rfl rfl rfl (by simp [Task.wakes]) (List.Sublist.refl _)
  | idle s => simpa [answers] using h
  | calls stack hact => exact answered_calls h hord (acts_of_act hact)
  | throws above onReply below hact =>
      refine answered_throws h hord ?_ (acts_of_act hact)
      exact (List.sublist_cons_self _ below).trans (List.sublist_append_right above _)
  | @expires s i timer stack htimer harmed =>
      simp only [answers, List.append_nil]
      have hpending : ∀ {j kind id reply}, Pending s.timers j kind id reply →
          Pending (s.timers.set i { timer with status := .queued }) j kind id reply := by
        rintro j kind id reply ⟨status, hstatus, hold⟩
        by_cases heq : j = i
        · subst heq
          rw [htimer] at hold
          cases hold
          refine ⟨.queued, by simp, ?_⟩
          rw [List.getElem?_set_self (List.getElem?_eq_some_iff.mp htimer).1]
        · refine ⟨status, hstatus, ?_⟩
          rw [List.getElem?_set_ne (Ne.symm heq)]
          exact hold
      rcases h with ⟨hlinked, hlinked', honce, hwaiting, hdistinct, hcounted⟩
      exact ⟨hlinked.congr hpending, hlinked'.congr hpending, honce,
        fun hmem => hpending (hwaiting hmem), hdistinct,
        hcounted.congr htimer (by simp [harmed]) (by simp)⟩
  | timeout htimer hqueued => exact answered_timeout h htimer hqueued
  | poll hwait hactive =>
      simp only [answers, List.append_nil]
      exact h.frame rfl rfl rfl (by simp [Task.wakes]) (by simp [Task.wakes])
  | attach | detach | ack =>
      simp only [answers, List.append_nil]
      exact h.frame rfl rfl rfl (fun _ hmem _ => hmem) (List.Sublist.refl _)

/-- The start of a run. -/
theorem answered_initial (registry : ReplicaRegistry) : Answered (.withReplicas registry) [] :=
  ⟨.empty, .empty, by simp, by simp, by simp, ⟨by simp, by simp⟩⟩

/-- An answer is one call of the callback of a request that still waits: nothing else is
put on the stack. -/
theorem reply_of_answers {t t' : StoreThread} {event : Event} {seen : List Nat} {i : Nat}
    (h : Answered t seen) (hstep : t.step env event = some t') (hi : i ∈ answers t event) :
    ∃ timer response rest, t.server.timers[i]? = some timer ∧ timer.status ≠ .done ∧
      t'.stack = .reply timer.onReply response :: rest ∧
      (rest = t.stack ∨ rest = t.stack.tail) := by
  have hreply : ∀ {kind id reply response rest}, Pending t.server.timers i kind id reply →
      t'.stack = .reply reply response :: rest → (rest = t.stack ∨ rest = t.stack.tail) →
      ∃ timer response rest, t.server.timers[i]? = some timer ∧ timer.status ≠ .done ∧
        t'.stack = .reply timer.onReply response :: rest ∧
        (rest = t.stack ∨ rest = t.stack.tail) := by
    rintro kind id reply response rest ⟨status, hstatus, htimer⟩ hstack hrest
    exact ⟨_, response, rest, htimer, hstatus, hstack, hrest⟩
  cases moves_of_step hstep with
  | @calls s s' task new stack hact =>
      cases acts_of_act hact with
      | @served key value id callback later d more hwaiters hpop =>
          have hsame : i = callback.timer := by simpa [answers, hwaiters, hpop] using hi
          subst hsame
          exact hreply (h.blpop.waiter (show (id, callback) ∈ s.blpop.waiters key by
            simp [hwaiters])).2.2 rfl (Or.inl rfl)
      | @unawaited key hwaiters => simp [answers, hwaiters] at hi
      | @unserved key id callback later d hwaiters hpop =>
          rcases hpop with hpop | ⟨hpop, -⟩
          · simp [answers, hwaiters, hpop] at hi
          · cases hresult : (s.data.lpop key 1).2 with
            | error e => simp [answers, hwaiters, hresult] at hi
            | ok values => simp [hresult, Except.isOk, Except.toBool] at hpop
      | @woke id callback results hread =>
          have hsame : i = callback.timer := by simpa [answers, hread] using hi
          subst hsame
          exact hreply (h.wakes List.mem_cons_self) rfl (Or.inr rfl)
      | _ => simp [answers] at hi
  | throws above onReply below hact =>
      cases acts_of_act hact with
      | wokeThrew hread => simp [answers, hread] at hi
      | _ => simp [answers] at hi
  | @timeout s j timer htimer hqueued =>
      have hsame : i = j := by simpa [answers] using hi
      subst hsame
      exact ⟨timer, nullArray, [], htimer, by simp [hqueued], rfl, Or.inl rfl⟩
  | _ => simp [answers] at hi

/-- A command that blocks does not reply. -/
theorem blocks_silently {t t' : StoreThread} {event : Event} (hstep : t.step env event = some t')
    (hblocks : t.server.timers.length < t'.server.timers.length) : t'.stack = t.stack.tail := by
  cases moves_of_step hstep with
  | @calls s s' task new stack hact =>
      cases acts_of_act hact with
      | @ran h request cmd onReply body d outcome hbody hresult =>
          cases outcome with
          | answer a =>
              simp only [Server.settle] at hblocks
              split at hblocks <;> exact absurd hblocks (Nat.lt_irrefl _)
          | blockBlpop keys timeout => rfl
          | blockXread streams timeout => rfl
      | served | woke => simp at hblocks
      | collected =>
          split at hblocks <;> exact absurd hblocks (Nat.lt_irrefl _)
      | _ => exact absurd hblocks (Nat.lt_irrefl _)
  | throws above onReply below hact =>
      cases acts_of_act hact with
      | wokeThrew => simp at hblocks
      | _ => exact absurd hblocks (Nat.lt_irrefl _)
  | expires => simp at hblocks
  | timeout =>
      simp only [StoreThread.onTimeout] at hblocks
      split at hblocks <;> simp at hblocks
  | _ => exact absurd hblocks (Nat.lt_irrefl _)

/-! ## Sample runs -/

instance : (task : Task) → Decidable task.namesOnce
  | .execute _ _ cmd _ =>
      inferInstanceAs (Decidable (cmd.type = .xread → (parseXreadArgs cmd).keys.Nodup))
  | .handle _ _ _ | .reply _ _ | .tryEnd _ | .serveBlpop _ | .serveXread _ | .wakeXread _
  | .runNext _ | .waitPoll _ => .isTrue trivial

instance (t : StoreThread) : (event : Event) → Decidable (Orderly t event)
  | .tick => inferInstanceAs (Decidable (_ ∧ _))
  | .request _ _ | .expire _ | .timeout _ | .poll _ | .attach | .detach _ | .ack _ _ =>
      .isTrue trivial

/-- One client waits in {lit}`BLPOP k 1`. -/
def blockedPop : List Event :=
  job 1 (.short (ascii "BLPOP") [ascii "k", ascii "1"] (Eq.refl true)) 2

/-- Another client sends {lit}`RPUSH k x`. -/
def pushToBlocked : List Event :=
  job 2 (.short (ascii "RPUSH") [ascii "k", ascii "x"] (Eq.refl true)) 6

end RedisClone
