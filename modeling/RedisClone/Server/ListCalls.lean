import RedisClone.Server.ServedWaiters

/-!
# Calls on lists

{lit}`RPUSH`, {lit}`LPUSH`, {lit}`LPOP` and {lit}`BLPOP` on an abstract machine: the lists,
the calls that are blocked, and the calls that have replied.  A push serves the blocked
calls before it replies itself, so a blocked call replies before the push that serves it.
The order in which calls reply is as good as the order in which they came in: a blocked
call that comes right before the push blocks, and is served by it.

Main results:

- Theorem {lit}`serveWaiting_served`: those who are served would be served without the
  others.
- Theorem {lit}`Listing.Valid.settle`: whoever waits finds no list.
- Theorem {lit}`handleAll_completed`: calls in the order of their replies leave the same
  lists behind, and nobody waiting.
-/

namespace RedisClone

/-! ## Lists and waiting calls -/

/-- A blocked call and the keys it waits for. -/
abbrev WaitingCall := RespValue × List Bytes

/-- The lists, the blocked calls in the order in which they blocked, and the calls that
have replied, in this order. -/
structure Listing where
  data : Store
  waiting : List WaitingCall
  completed : List RespValue

/-- The waiting calls that get an element of a list, first come first served: what is
left, and who was served. -/
def serveWaiting (key : Bytes) (d : Store) :
    List WaitingCall → Store × List WaitingCall × List WaitingCall
  | [] => (d, [], [])
  | waiter :: waiting =>
      if key ∈ waiter.2 then
        match d.lpop key 1 with
        | (d', .ok (_ :: _)) =>
            let rest := serveWaiting key d' waiting
            (rest.1, rest.2.1, waiter :: rest.2.2)
        | _ =>
            let rest := serveWaiting key d waiting
            (rest.1, waiter :: rest.2.1, rest.2.2)
      else
        let rest := serveWaiting key d waiting
        (rest.1, waiter :: rest.2.1, rest.2.2)

namespace Listing

/-- No lists, no calls. -/
def empty : Listing :=
  ⟨Store.empty, [], []⟩

/-- A call replies. -/
def complete (l : Listing) (request : RespValue) : Listing :=
  { l with completed := l.completed ++ [request] }

/-- The calls that wait for a list are served. -/
def serve (l : Listing) (key : Bytes) : Listing :=
  ⟨(serveWaiting key l.data l.waiting).1, (serveWaiting key l.data l.waiting).2.1,
    l.completed ++ (serveWaiting key l.data l.waiting).2.2.map Prod.fst⟩

/-- What follows once a call has changed the lists. -/
def settle (l : Listing) (request : RespValue) : Outcome → Listing
  | .answer a =>
      match a.wake with
      | some (.blpop key) => (l.serve key).complete request
      | _ => l.complete request
  | .blockBlpop keys _ => { l with waiting := l.waiting ++ [(request, keys)] }
  | .blockXread _ _ => l

/-- A call is handled. -/
def take (l : Listing) (request : RespValue) : Listing :=
  match parseCommand request with
  | .error _ => l
  | .ok cmd =>
      match dataCommand cmd.type with
      | none => l
      | some body =>
          match body cmd ⟨0, 0⟩ l.data with
          | (d, .ok outcome) => settle { l with data := d } request outcome
          | (_, .error _) => l

end Listing

/-- Calls are handled one after the other, on no lists. -/
def handleAll (requests : List RespValue) : Listing :=
  requests.foldl Listing.take .empty

/-- The commands on lists. -/
def isListCommand : CommandType → Bool
  | .rpush | .lpush | .lpop | .blpop => true
  | _ => false

/-- A call of {lit}`RPUSH`, {lit}`LPUSH`, {lit}`LPOP` or {lit}`BLPOP`. -/
def OnLists (request : RespValue) : Prop :=
  request.type = .array ∧ ∃ cmd, parseCommand request = .ok cmd ∧ isListCommand cmd.type = true

/-! ## Serving -/

section Serving

variable {key : Bytes} {d d' : Store} {waiting : List WaitingCall}

/-- Without an element nobody is served. -/
theorem serveWaiting_of_not_isOk (h : (d.lpop key 1).2.isOk = false) :
    serveWaiting key d waiting = (d, waiting, []) := by
  induction waiting with
  | nil => rfl
  | cons waiter waiting ih =>
      rw [serveWaiting, ih]
      split
      · split
        · rename_i hpop
          rw [hpop] at h
          contradiction
        · rfl
      · rfl

/-- Nobody waits for the list. -/
theorem serveWaiting_of_forall_not_mem (h : ∀ waiter ∈ waiting, key ∉ waiter.2) :
    serveWaiting key d waiting = (d, waiting, []) := by
  induction waiting with
  | nil => rfl
  | cons waiter waiting ih =>
      rw [serveWaiting, if_neg (h waiter List.mem_cons_self),
        ih fun waiter' hmem => h waiter' (List.mem_cons_of_mem _ hmem)]

/-- The first call that waits for the list is served. -/
theorem serveWaiting_of_pop {first second : List WaitingCall} {waiter : WaitingCall}
    {value : Bytes} {more : List Bytes} (hfirst : ∀ other ∈ first, key ∉ other.2)
    (hmem : key ∈ waiter.2) (hpop : d.lpop key 1 = (d', .ok (value :: more))) :
    serveWaiting key d (first ++ waiter :: second) =
      ((serveWaiting key d' (first ++ second)).1, (serveWaiting key d' (first ++ second)).2.1,
        waiter :: (serveWaiting key d' (first ++ second)).2.2) := by
  induction first with
  | nil =>
      simp only [List.nil_append]
      rw [serveWaiting, if_pos hmem, hpop]
  | cons other first ih =>
      have hother := hfirst other List.mem_cons_self
      have hrest := ih fun other' hmem' => hfirst other' (List.mem_cons_of_mem _ hmem')
      simp only [List.cons_append]
      rw [serveWaiting, if_neg hother, hrest, serveWaiting, if_neg hother]

/-- The first of the waiting calls is served, or left alone. -/
theorem serveWaiting_cons (key : Bytes) (d : Store) (waiter : WaitingCall)
    (waiting : List WaitingCall) :
    (∃ d' value more, key ∈ waiter.2 ∧ d.lpop key 1 = (d', .ok (value :: more)) ∧
      serveWaiting key d (waiter :: waiting) =
        ((serveWaiting key d' waiting).1, (serveWaiting key d' waiting).2.1,
          waiter :: (serveWaiting key d' waiting).2.2)) ∨
    serveWaiting key d (waiter :: waiting) =
      ((serveWaiting key d waiting).1, waiter :: (serveWaiting key d waiting).2.1,
        (serveWaiting key d waiting).2.2) := by
  rw [serveWaiting]
  split
  · rename_i hmem
    split
    · rename_i d' value more hpop
      exact .inl ⟨d', value, more, hmem, hpop, rfl⟩
    · exact .inr rfl
  · exact .inr rfl

/-- Those who were served would have been served without the others. -/
theorem serveWaiting_served (key : Bytes) (d : Store) (waiting : List WaitingCall) :
    serveWaiting key d (serveWaiting key d waiting).2.2 =
      ((serveWaiting key d waiting).1, [], (serveWaiting key d waiting).2.2) := by
  induction waiting generalizing d with
  | nil => rfl
  | cons waiter waiting ih =>
      rcases serveWaiting_cons key d waiter waiting with ⟨d', value, more, hmem, hpop, heq⟩ | heq
      · have hserved := @serveWaiting_of_pop key d d' [] (serveWaiting key d' waiting).2.2 waiter
          value more (by simp) hmem hpop
        rw [heq]
        simp only [List.nil_append] at hserved ⊢
        rw [hserved, ih d']
      · rw [heq]
        exact ih d

/-- Who was served and who still waits was waiting. -/
theorem mem_of_mem_serveWaiting {waiter : WaitingCall}
    (h : waiter ∈ (serveWaiting key d waiting).2.1 ∨ waiter ∈ (serveWaiting key d waiting).2.2) :
    waiter ∈ waiting := by
  induction waiting generalizing d with
  | nil => simp [serveWaiting] at h
  | cons other waiting ih =>
      rcases serveWaiting_cons key d other waiting with ⟨d', value, more, -, -, heq⟩ | heq
      · rw [heq] at h
        rcases h with h | h
        · exact List.mem_cons_of_mem _ (ih (.inl h))
        · rcases List.mem_cons.mp h with rfl | h
          · exact List.mem_cons_self
          · exact List.mem_cons_of_mem _ (ih (.inr h))
      · rw [heq] at h
        rcases h with h | h
        · rcases List.mem_cons.mp h with rfl | h
          · exact List.mem_cons_self
          · exact List.mem_cons_of_mem _ (ih (.inl h))
        · exact List.mem_cons_of_mem _ (ih (.inr h))

/-- Serving makes no list appear. -/
theorem isList_serveWaiting {key' : Bytes} (h : (serveWaiting key d waiting).1.IsList key') :
    d.IsList key' := by
  induction waiting generalizing d with
  | nil => exact h
  | cons waiter waiting ih =>
      rcases serveWaiting_cons key d waiter waiting with ⟨d', value, more, -, hpop, heq⟩ | heq
      · rw [heq] at h
        have hbefore := ih h
        have hfst : (d.lpop key 1).1 = d' := by rw [hpop]
        rw [← hfst] at hbefore
        exact isList_lpop hbefore
      · rw [heq] at h
        exact ih h

/-- Serving leaves no empty list. -/
theorem noEmptyList_serveWaiting (hd : d.NoEmptyList) :
    (serveWaiting key d waiting).1.NoEmptyList := by
  induction waiting generalizing d with
  | nil => exact hd
  | cons waiter waiting ih =>
      rcases serveWaiting_cons key d waiter waiting with ⟨d', value, more, -, hpop, heq⟩ | heq
      · rw [heq]
        have hfst : (d.lpop key 1).1 = d' := by rw [hpop]
        exact ih (hfst ▸ hd.lpop key 1)
      · rw [heq]
        exact ih hd

/-- Who still waits for the list waits for good reason. -/
theorem not_isList_serveWaiting (hd : d.NoEmptyList) {waiter : WaitingCall}
    (hmem : waiter ∈ (serveWaiting key d waiting).2.1) (hkey : key ∈ waiter.2) :
    ¬ (serveWaiting key d waiting).1.IsList key := by
  induction waiting generalizing d with
  | nil => cases hmem
  | cons other waiting ih =>
      rcases hpop : d.lpop key 1 with ⟨d', e | _ | ⟨value, more⟩⟩
      · -- there is no list
        have hfails : (d.lpop key 1).2.isOk = false := by rw [hpop]; rfl
        rw [serveWaiting_of_not_isOk hfails]
        intro hlist
        rw [hlist.lpop_isOk] at hfails
        contradiction
      · exact absurd hpop hd.lpop_one
      · have hfst : (d.lpop key 1).1 = d' := by rw [hpop]
        by_cases hother : key ∈ other.2
        · have hrest := @serveWaiting_of_pop key d d' [] waiting other value more (by simp) hother
            hpop
          simp only [List.nil_append] at hrest
          rw [hrest] at hmem ⊢
          exact ih (hfst ▸ hd.lpop key 1) hmem
        · rw [serveWaiting, if_neg hother] at hmem ⊢
          rcases List.mem_cons.mp hmem with rfl | hmem
          · contradiction
          · exact ih hd hmem

end Serving

/-! ## Calls in the order of their replies -/

/-- The command of a call runs without an exception. -/
def Store.Runs (d : Store) (request : RespValue) : Prop :=
  ∃ cmd body d' outcome, parseCommand request = .ok cmd ∧ dataCommand cmd.type = some body ∧
    body cmd ⟨0, 0⟩ d = (d', .ok outcome)

/-- The commands of the calls run one after the other without an exception. -/
def RunsAll (l : Listing) : List RespValue → Prop
  | [] => True
  | request :: requests => l.data.Runs request ∧ RunsAll (l.take request) requests

/-- A call that blocks whenever none of its keys holds a list. -/
def WaitsFor (waiter : WaitingCall) : Prop :=
  ∀ l : Listing, (∀ key ∈ waiter.2, ¬ l.data.IsList key) → l.data.Runs waiter.1 ∧
    l.take waiter.1 = { l with waiting := l.waiting ++ [waiter] }

/-- Whoever waits finds no list, and would block again. -/
structure Listing.Valid (l : Listing) : Prop where
  noEmptyList : l.data.NoEmptyList
  idle : ∀ waiter ∈ l.waiting, ∀ key ∈ waiter.2, ¬ l.data.IsList key
  blocks : ∀ waiter ∈ l.waiting, WaitsFor waiter

section Calls

variable {l : Listing} {request : RespValue} {cmd : Command} {d : Store} {outcome : Outcome}
  {body : Command → Reading → Store → CommandResult}

/-- A call that runs. -/
theorem take_eq_settle (hparse : parseCommand request = .ok cmd)
    (hbody : dataCommand cmd.type = some body)
    (hresult : body cmd ⟨0, 0⟩ l.data = (d, .ok outcome)) :
    l.take request = Listing.settle { l with data := d } request outcome := by
  simp only [Listing.take, hparse, hbody, hresult]

/-- What is no list cannot be popped. -/
theorem not_isOk_of_not_isList {key : Bytes} (h : ¬ d.IsList key) :
    (d.lpop key 1).2.isOk = false := by
  unfold Store.lpop
  split
  · rfl
  · rename_i elements expiresAt hkey
    exact absurd ⟨elements, expiresAt, hkey⟩ h
  · rfl

/-- Without lists {lit}`BLPOP` finds nothing. -/
theorem blpopKeys_of_not_isList {keys : List Bytes} (h : ∀ key ∈ keys, ¬ d.IsList key) :
    blpopKeys d keys = (d, .ok none) := by
  induction keys with
  | nil => rfl
  | cons key keys ih =>
      have hfails := not_isOk_of_not_isList (h key List.mem_cons_self)
      rw [blpopKeys]
      split
      · rename_i hpop
        rw [hpop] at hfails
        contradiction
      · rename_i hpop
        rw [hpop] at hfails
        contradiction
      · exact ih fun key' hmem => h key' (List.mem_cons_of_mem _ hmem)

/-- A call that blocked would block again. -/
theorem waitsFor_of_block (hparse : parseCommand request = .ok cmd)
    (hbody : dataCommand cmd.type = some body) {now : Reading} {d' : Store} {keys : List Bytes}
    {timeout : Double} (hresult : body cmd now d = (d', .ok (.blockBlpop keys timeout))) :
    WaitsFor (request, keys) := by
  have hpossible : (Outcome.blockBlpop keys timeout).PossibleFor cmd.type :=
    possibleFor_of_dataCommand hbody (by rw [hresult])
  have htype : cmd.type = .blpop := hpossible
  have hbody' := hbody
  rw [htype] at hbody'
  cases hbody'
  intro l hnone
  by_cases hargs : 2 ≤ cmd.args.length
  · unfold blpopExecute at hresult
    rw [checked_of_le hargs] at hresult
    split at hresult
    · cases hresult
    · rename_i seconds hseconds
      have hkeys : keys = cmd.args.dropLast := by
        split at hresult <;> cases hresult
        rfl
      subst hkeys
      have hblocks : blpopExecute cmd ⟨0, 0⟩ l.data =
          (l.data, .ok (.blockBlpop cmd.args.dropLast seconds)) := by
        unfold blpopExecute
        rw [checked_of_le hargs, hseconds]
        simp only [blpopKeys_of_not_isList hnone]
      exact ⟨⟨cmd, _, _, _, hparse, hbody, hblocks⟩, take_eq_settle hparse hbody hblocks⟩
  · unfold blpopExecute checked checkArgs at hresult
    rw [if_pos (by omega)] at hresult
    cases hresult

/-- Calls run one after the other. -/
theorem runsAll_append {first second : List RespValue} (hfirst : RunsAll l first)
    (hsecond : RunsAll (first.foldl Listing.take l) second) : RunsAll l (first ++ second) := by
  induction first generalizing l with
  | nil => exact hsecond
  | cons request first ih => exact ⟨hfirst.1, ih hfirst.2 hsecond⟩

/-- Calls that find no list block one after the other. -/
theorem foldl_take_of_waits {waiters : List WaitingCall} {waiting : List WaitingCall}
    {completed : List RespValue} (hwaits : ∀ waiter ∈ waiters, WaitsFor waiter)
    (hnone : ∀ waiter ∈ waiters, ∀ key ∈ waiter.2, ¬ d.IsList key) :
    RunsAll ⟨d, waiting, completed⟩ (waiters.map Prod.fst) ∧
      (waiters.map Prod.fst).foldl Listing.take ⟨d, waiting, completed⟩ =
        ⟨d, waiting ++ waiters, completed⟩ := by
  induction waiters generalizing waiting with
  | nil => simp [RunsAll]
  | cons waiter waiters ih =>
      rcases hwaits waiter List.mem_cons_self ⟨d, waiting, completed⟩
        (hnone waiter List.mem_cons_self) with ⟨hruns, htake⟩
      rcases @ih (waiting ++ [waiter]) (fun w hmem => hwaits w (List.mem_cons_of_mem _ hmem))
        (fun w hmem => hnone w (List.mem_cons_of_mem _ hmem)) with ⟨hrest, hfold⟩
      rw [List.map_cons, List.foldl_cons, htake]
      refine ⟨⟨hruns, ?_⟩, ?_⟩
      · rw [htake]
        exact hrest
      · rw [hfold]
        simp

/-- A call keeps the machine valid. -/
theorem Listing.Valid.settle (h : l.Valid) (hparse : parseCommand request = .ok cmd)
    (hbody : dataCommand cmd.type = some body)
    (hresult : body cmd ⟨0, 0⟩ l.data = (d, .ok outcome)) :
    (Listing.settle { l with data := d } request outcome).Valid := by
  have hdata := @dataActs_of_dataCommand cmd ⟨0, 0⟩ l.data body hbody
  rw [hresult] at hdata
  have hd : d.NoEmptyList := noEmptyList_of_dataActs h.noEmptyList hdata
  cases outcome with
  | answer a =>
      have hbefore : ∀ {key}, d.IsList key → l.data.IsList key ∨ a.wake = some (.blpop key) := by
        intro key hlist
        rcases isList_of_dataActs hdata hlist with hold | ⟨a', heq, hwake⟩
        · exact .inl hold
        · cases heq
          exact .inr hwake
      rcases hwake : a.wake with _ | ⟨key | key⟩
      · simp only [Listing.settle, hwake]
        refine ⟨hd, fun waiter hmem key hkey hlist => ?_, h.blocks⟩
        rcases hbefore hlist with hold | hpush
        · exact h.idle waiter hmem key hkey hold
        · simp [hwake] at hpush
      · simp only [Listing.settle, hwake]
        refine ⟨noEmptyList_serveWaiting hd, fun waiter hmem key' hkey' hlist => ?_,
          fun waiter hmem => h.blocks waiter (mem_of_mem_serveWaiting (.inl hmem))⟩
        by_cases heq : key' = key
        · subst heq
          exact not_isList_serveWaiting hd hmem hkey' hlist
        · rcases hbefore (isList_serveWaiting hlist) with hold | hpush
          · exact h.idle waiter (mem_of_mem_serveWaiting (.inl hmem)) key' hkey' hold
          · rw [hwake] at hpush
            cases hpush
            exact heq rfl
      · simp only [Listing.settle, hwake]
        refine ⟨hd, fun waiter hmem key hkey hlist => ?_, h.blocks⟩
        rcases hbefore hlist with hold | hpush
        · exact h.idle waiter hmem key hkey hold
        · simp [hwake] at hpush
  | blockBlpop keys timeout =>
      cases hdata with
      | blocked htype htimeout hnone =>
          refine ⟨hd, fun waiter hmem key hkey hlist => ?_, fun waiter hmem => ?_⟩
          · rcases List.mem_append.mp hmem with hmem | hmem
            · exact h.idle waiter hmem key hkey hlist
            · cases List.mem_singleton.mp hmem
              have hlist' : l.data.IsList key := hlist
              have hfails := hnone key hkey
              rw [hlist'.lpop_isOk] at hfails
              contradiction
          · rcases List.mem_append.mp hmem with hmem | hmem
            · exact h.blocks waiter hmem
            · cases List.mem_singleton.mp hmem
              exact waitsFor_of_block hparse hbody hresult
  | blockXread streams timeout =>
      cases hdata with
      | waits htype hread => exact h

/-- A call replies behind the calls that it serves; they leave the same lists behind when
they come in this order. -/
theorem exists_completed (h : l.Valid) (request : RespValue) :
    (l.take request).Valid ∧ ∃ new, (l.take request).completed = l.completed ++ new ∧
      RunsAll ⟨l.data, [], l.completed⟩ new ∧
      new.foldl Listing.take ⟨l.data, [], l.completed⟩ =
        ⟨(l.take request).data, [], (l.take request).completed⟩ := by
  have hnothing : l.take request = l → (l.take request).Valid ∧
      ∃ new, (l.take request).completed = l.completed ++ new ∧
        RunsAll ⟨l.data, [], l.completed⟩ new ∧
        new.foldl Listing.take ⟨l.data, [], l.completed⟩ =
          ⟨(l.take request).data, [], (l.take request).completed⟩ := by
    intro heq
    rw [heq]
    exact ⟨h, [], by simp, trivial, rfl⟩
  cases hparse : parseCommand request with
  | error e => exact hnothing (by simp [Listing.take, hparse])
  | ok cmd =>
      cases hbody : dataCommand cmd.type with
      | none => exact hnothing (by simp [Listing.take, hparse, hbody])
      | some body =>
          rcases hresult : body cmd ⟨0, 0⟩ l.data with ⟨d, e | outcome⟩
          · exact hnothing (by simp [Listing.take, hparse, hbody, hresult])
          · have htake := take_eq_settle hparse hbody hresult
            have hruns : l.data.Runs request := ⟨cmd, body, d, outcome, hparse, hbody, hresult⟩
            refine ⟨htake ▸ h.settle hparse hbody hresult, ?_⟩
            have htake' : ∀ waiting completed,
                Listing.take ⟨l.data, waiting, completed⟩ request =
                  Listing.settle ⟨d, waiting, completed⟩ request outcome := fun waiting completed =>
              @take_eq_settle ⟨l.data, waiting, completed⟩ request cmd d outcome body hparse hbody
                hresult
            have hdata := @dataActs_of_dataCommand cmd ⟨0, 0⟩ l.data body hbody
            rw [hresult] at hdata
            rw [htake]
            cases outcome with
            | answer a =>
                rcases hwake : a.wake with _ | ⟨key | key⟩
                · refine ⟨[request], by simp [Listing.settle, hwake, Listing.complete],
                    ⟨hruns, trivial⟩, ?_⟩
                  simp [htake', Listing.settle, hwake, Listing.complete]
                · -- those who are served block first, and are served by the push again
                  have hserved : ∀ waiter ∈ (serveWaiting key d l.waiting).2.2,
                      waiter ∈ l.waiting := fun waiter hmem =>
                    mem_of_mem_serveWaiting (.inr hmem)
                  rcases @foldl_take_of_waits l.data _ [] l.completed
                    (fun waiter hmem => h.blocks waiter (hserved waiter hmem))
                    (fun waiter hmem => h.idle waiter (hserved waiter hmem)) with ⟨hblock, hfold⟩
                  refine ⟨(serveWaiting key d l.waiting).2.2.map Prod.fst ++ [request],
                    by simp [Listing.settle, hwake, Listing.complete, Listing.serve],
                    runsAll_append hblock ⟨?_, trivial⟩, ?_⟩
                  · rw [hfold]
                    exact hruns
                  · rw [List.foldl_append, hfold]
                    simp [htake', Listing.settle, hwake, Listing.complete, Listing.serve,
                      serveWaiting_served]
                · refine ⟨[request], by simp [Listing.settle, hwake, Listing.complete],
                    ⟨hruns, trivial⟩, ?_⟩
                  simp [htake', Listing.settle, hwake, Listing.complete]
            | blockBlpop keys timeout =>
                cases hdata with
                | blocked => exact ⟨[], by simp [Listing.settle], trivial, rfl⟩
            | blockXread streams timeout =>
                cases hdata with
                | waits => exact ⟨[], by simp [Listing.settle], trivial, rfl⟩

end Calls

/-- Further calls. -/
theorem handleAll_append (requests new : List RespValue) :
    handleAll (requests ++ new) = new.foldl Listing.take (handleAll requests) :=
  List.foldl_append

/-- One more call. -/
theorem handleAll_concat (requests : List RespValue) (request : RespValue) :
    handleAll (requests ++ [request]) = (handleAll requests).take request :=
  handleAll_append requests [request]

/-- Calls in the order of their replies run without an exception, and leave the same lists
behind as in the order in which they came in, and nobody waiting. -/
theorem handleAll_completed (requests : List RespValue) :
    (handleAll requests).Valid ∧ RunsAll .empty (handleAll requests).completed ∧
      handleAll (handleAll requests).completed =
        ⟨(handleAll requests).data, [], (handleAll requests).completed⟩ := by
  induction requests using List.reverseRecOn with
  | nil => exact ⟨⟨Store.NoEmptyList.empty, by simp [handleAll, Listing.empty],
      by simp [handleAll, Listing.empty]⟩, trivial, rfl⟩
  | append_singleton requests request ih =>
      rcases ih with ⟨hvalid, hruns, hcompleted⟩
      rcases exists_completed hvalid request with ⟨hvalid', new, hnew, hruns', hfold⟩
      rw [handleAll_concat]
      refine ⟨hvalid', ?_, ?_⟩
      · rw [hnew]
        refine runsAll_append hruns ?_
        change RunsAll (handleAll _) new
        rw [hcompleted]
        exact hruns'
      · rw [← hfold, ← hcompleted, ← handleAll_append, ← hnew]

/-- Whoever has replied or still waits came in. -/
theorem mem_of_mem_take {l : Listing} {request other : RespValue}
    (h : other ∈ (l.take request).completed ∨ other ∈ (l.take request).waiting.map Prod.fst) :
    other = request ∨ other ∈ l.completed ∨ other ∈ l.waiting.map Prod.fst := by
  unfold Listing.take at h
  split at h
  · exact .inr h
  · split at h
    · exact .inr h
    · split at h
      · rename_i outcome _
        cases outcome with
        | answer a =>
            have hcomplete : other ∈ l.completed ++ [request] ∨ other ∈ l.waiting.map Prod.fst →
                other = request ∨ other ∈ l.completed ∨ other ∈ l.waiting.map Prod.fst := by
              simp only [List.mem_append, List.mem_singleton]
              tauto
            rcases hwake : a.wake with _ | ⟨key | key⟩
            · exact hcomplete (by simpa [Listing.settle, hwake, Listing.complete] using h)
            · simp only [Listing.settle, hwake, Listing.complete, Listing.serve, List.mem_append,
                List.mem_singleton] at h
              rcases h with ((h | h) | rfl) | h
              · exact .inr (.inl h)
              · rcases List.mem_map.mp h with ⟨waiter, hwaiter, rfl⟩
                exact .inr (.inr (List.mem_map_of_mem (mem_of_mem_serveWaiting (.inr hwaiter))))
              · exact .inl rfl
              · rcases List.mem_map.mp h with ⟨waiter, hwaiter, rfl⟩
                exact .inr (.inr (List.mem_map_of_mem (mem_of_mem_serveWaiting (.inl hwaiter))))
            · exact hcomplete (by simpa [Listing.settle, hwake, Listing.complete] using h)
        | blockBlpop keys timeout =>
            simp only [Listing.settle, List.map_append, List.map_cons, List.map_nil,
              List.mem_append, List.mem_singleton] at h
            tauto
        | blockXread streams timeout => exact .inr h
      · exact .inr h

/-- Calls that have replied or wait are among those that came in. -/
theorem mem_of_mem_handleAll {requests : List RespValue} {request : RespValue}
    (h : request ∈ (handleAll requests).completed ∨
      request ∈ (handleAll requests).waiting.map Prod.fst) : request ∈ requests := by
  induction requests using List.reverseRecOn with
  | nil => simp [handleAll, Listing.empty] at h
  | append_singleton requests last ih =>
      rw [handleAll_concat] at h
      rcases mem_of_mem_take h with rfl | h
      · simp
      · exact List.mem_append_left _ (ih h)

end RedisClone
