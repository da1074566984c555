import RedisClone.Server.Escape
import RedisClone.State.Serving
import RedisClone.Store.StreamQueries

/-!
# Blocked reads of streams

A blocked {lit}`XREAD` is registered by the keys of its streams only.  Every
{lit}`XADD` to one of them calls its callback, which reads the streams again and
replies with whatever it finds, also with the null array if the new entry does not lie
above the identifier that was asked for.

The waiters are followed from the request that blocks to the answer, along every run
and any nesting of transactions.  As long as every new entry lies above the identifiers
that the waiters of its stream asked for, a waiter is called exactly when one of its
streams has an entry for it.

Main results:

- Theorem {lit}`xread_eq_news`: {lit}`xread` returns, for each stream that has any, the
  entries above the cursor.
- Theorem {lit}`readsAbove_iff`: what above means for identifiers as pairs of numbers.
- Theorem {lit}`dataDriven_step`: who has news is about to be called, and conversely.
- Theorem {lit}`xread_block_wakes_for_data`: whoever waits has no news, and whoever is
  called is given its news.
- Theorem {lit}`xread_block_woken_without_data`: an entry below the requested
  identifier ends the wait with the null array.
-/

namespace RedisClone

open StreamUtils

variable {env : Env}

/-! ## News for a cursor -/

/-- The identifier lies above the cursor, as {lit}`xread` compares them. -/
def readsAbove (cursor id : Bytes) : Bool :=
  match parseStreamBound cursor true, parseStreamBound id true with
  | .ok target, .ok bound => Store.above bound target
  | _, _ => false

/-- The cursor asks for the entries above this pair; its milliseconds do not wrap. -/
def Requests (cursor : Bytes) (pair : Int × Int) : Prop :=
  0 ≤ pair.1 ∧ ∃ bound, parseStreamBound cursor true = .ok bound ∧
    bound.ms = pair.1 ∧ (bound.seq : Int) = pair.2

/-- An identifier below 2^63 milliseconds asks for the entries above itself. -/
theorem Cursor.requests {c : Cursor} (hms : c.ms.value < 9223372036854775808) :
    Requests c.text c.pair := by
  refine ⟨Int.natCast_nonneg _, boundOf c.pair, c.parse_text hms, rfl, ?_⟩
  simp [boundOf, Cursor.pair]

/-- The comparison of {lit}`xread` is the one of the pairs. -/
theorem readsAbove_iff {cursor id : Bytes} {requested pair : Int × Int}
    (hrequests : Requests cursor requested) (hdecodes : Decodes id pair) :
    readsAbove cursor id = true ↔ Precedes requested pair := by
  rcases hrequests with ⟨-, target, htarget, hms, hseq⟩
  rcases hdecodes.2 true with ⟨bound, hbound, hms', hseq'⟩
  have habove : readsAbove cursor id = Store.above bound target := by
    simp [readsAbove, htarget, hbound]
  rw [habove, above_iff]
  unfold Precedes
  omega

/-- The entries of a stream above a cursor. -/
def Store.newer (d : Store) (stream : Bytes × Bytes) : List StreamEntry :=
  (d.entries stream.1).filter fun entry => readsAbove stream.2 entry.id

/-- The streams that have entries above their cursors, with these entries. -/
def Store.news (d : Store) (streams : List (Bytes × Bytes)) : List (Bytes × List StreamEntry) :=
  streams.filterMap fun stream =>
    if d.newer stream = [] then none else some (stream.1, d.newer stream)

/-- Some stream has an entry above its cursor. -/
def Store.HasNews (d : Store) (streams : List (Bytes × Bytes)) : Prop :=
  ∃ stream ∈ streams, ∃ entry ∈ d.entries stream.1, readsAbove stream.2 entry.id = true

section News

variable {d d' : Store} {streams : List (Bytes × Bytes)}

/-- There is news exactly if some stream has an entry above its cursor. -/
theorem news_ne_nil_iff : d.news streams ≠ [] ↔ d.HasNews streams := by
  unfold Store.news Store.HasNews Store.newer
  rw [Ne, List.filterMap_eq_nil_iff]
  push Not
  refine exists_congr fun stream => and_congr_right fun _ => ?_
  rw [ite_ne_left_iff]
  simp [List.filter_eq_nil_iff]

/-- The inner loop of {lit}`xread` on identifiers that can be read. -/
theorem xreadEntries_eq_filter {cursor : Bytes} {target : StreamBoundParts}
    (htarget : parseStreamBound cursor true = .ok target) {entries : List StreamEntry}
    (hentries : ∀ entry ∈ entries, ∃ pair, Decodes entry.id pair) :
    Store.xreadEntries target entries =
      .ok (entries.filter fun entry => readsAbove cursor entry.id) := by
  induction entries with
  | nil => rfl
  | cons entry entries ih =>
      rcases hentries entry List.mem_cons_self with ⟨pair, hdecodes⟩
      rcases hdecodes.2 true with ⟨bound, hbound, -⟩
      have hrest := ih fun entry hmem => hentries entry (List.mem_cons_of_mem _ hmem)
      have habove : readsAbove cursor entry.id = Store.above bound target := by
        simp [readsAbove, htarget, hbound]
      simp only [Store.xreadEntries, hbound, hrest, bind, Except.bind, pure, Except.pure,
        List.filter_cons, habove]

/-- {lit}`xread` returns the news. -/
theorem xread_eq_news (hd : d.Readable) (hcursors : CursorsParse streams) :
    d.xread streams = .ok (d.news streams) := by
  induction streams with
  | nil => rfl
  | cons stream streams ih =>
      rcases stream with ⟨key, cursor⟩
      rcases hcursors (key, cursor) List.mem_cons_self with ⟨target, htarget⟩
      have hrest := ih fun stream hmem => hcursors stream (List.mem_cons_of_mem _ hmem)
      have hfound := xreadEntries_eq_filter htarget (hd key)
      have hnewer : Store.xreadEntries target (d.entries key) = .ok (d.newer (key, cursor)) :=
        hfound
      have hnews : d.news ((key, cursor) :: streams) =
          if d.newer (key, cursor) = [] then d.news streams
          else (key, d.newer (key, cursor)) :: d.news streams := by
        rw [Store.news, List.filterMap_cons]
        by_cases hnil : d.newer (key, cursor) = [] <;> simp [hnil, Store.news]
      simp only [xread_cons, htarget, hnewer, hrest, bind, Except.bind, pure, Except.pure, hnews]

/-- What has news keeps it when entries are added. -/
theorem Store.HasNews.mono (h : d.HasNews streams)
    (hentries : ∀ key, d.entries key ⊆ d'.entries key) : d'.HasNews streams := by
  rcases h with ⟨stream, hstream, entry, hentry, habove⟩
  exact ⟨stream, hstream, entry, hentries stream.1 hentry, habove⟩

end News

/-! ## What commands do to streams -/

/-- Commands that may replace or remove the value of a key. -/
def replacesValue : CommandType → Bool
  | .get | .typeCmd | .set | .incr | .rpush | .lpush => true
  | _ => false

/-- The command is over without a call for streams. -/
def Outcome.sparesReaders : Outcome → Bool
  | .answer a =>
      match a.wake with
      | some (.xread _) => false
      | _ => true
  | .blockBlpop _ _ => true
  | .blockXread _ _ => false

section Commands

variable {d d' : Store} {cmd : Command} {now : Reading}

/-- Removing a key removes its entries. -/
theorem entries_erase_subset (d : Store) (key key' : Bytes) :
    (d.erase key).entries key' ⊆ d.entries key' := by
  by_cases heq : key' = key
  · subst heq
    unfold Store.entries Store.slot
    rw [Store.erase_same]
    exact List.nil_subset _
  · unfold Store.entries Store.slot
    rw [Store.erase_of_ne heq]
    exact List.Subset.refl _

/-- A value that is no stream has no entries. -/
theorem entries_put_subset {key : Bytes} {v : StoreValue} (hv : Store.streamSlot v = [])
    (key' : Bytes) : (d.put key v).entries key' ⊆ d.entries key' := by
  rw [Store.entries_put]
  split
  · rw [hv]
    exact List.nil_subset _
  · exact List.Subset.refl _

/-- Popping leaves the streams alone. -/
theorem entries_lpop (d : Store) (key : Bytes) (count : Nat) (key' : Bytes) :
    (d.lpop key count).1.entries key' = d.entries key' := by
  unfold Store.lpop
  split
  · rfl
  · rename_i elements expiresAt hkey
    have hnone : d.entries key = [] := by simp [Store.entries, Store.slot, hkey, Store.streamSlot]
    simp only
    by_cases heq : key' = key
    · subst heq
      rw [hnone]
      split
      · simp [Store.entries, Store.slot, Store.erase_same, Store.streamSlot, StoreValue.default]
      · rw [Store.entries_put, if_pos rfl]
        rfl
    · split
      · unfold Store.entries Store.slot
        rw [Store.erase_of_ne heq]
      · rw [Store.entries_put, if_neg heq]
  · rfl

/-- What a command does to streams and their readers: it spares them, it blocks
without news, or it adds an entry and calls the waiters of the stream. -/
theorem streams_of_dataActs {outcome : Outcome} (h : DataActs cmd now d (d', .ok outcome)) :
    (outcome.sparesReaders = true ∧ (∀ key, d'.entries key ⊆ d.entries key) ∧
        (replacesValue cmd.type = false → ∀ key, d.entries key ⊆ d'.entries key)) ∨
      (∃ streams timeout, outcome = .blockXread streams timeout ∧ d' = d ∧
        d.xread streams = .ok []) ∨
      ∃ pair response, cmd.type = .xadd ∧
        validatedId (cmd.arg 1) (Store.lastId (d.entries (cmd.arg 0))) now.system = .ok pair ∧
        outcome = .answer ⟨some (cmd.arg 0), some (.xread (cmd.arg 0)), false, response⟩ ∧
        ∀ key, d'.entries key = if key = cmd.arg 0 then d.entries (cmd.arg 0) ++
          [⟨renderId pair.1 pair.2, pairs (cmd.args.drop 2)⟩] else d.entries key := by
  have hpop : ∀ {key count result}, d.lpop key count = (d', result) →
      ∀ key', d'.entries key' = d.entries key' := by
    intro key count result hresult key'
    have hentries := entries_lpop d key count key'
    rwa [hresult] at hentries
  cases h with
  | replied guarded response =>
      exact .inl ⟨rfl, fun _ => List.Subset.refl _, fun _ _ => List.Subset.refl _⟩
  | removed htype hkey hexpired response =>
      refine .inl ⟨rfl, entries_erase_subset d _, ?_⟩
      intro hkeeps
      rcases htype with htype | htype <;> simp [htype, replacesValue] at hkeeps
  | written htype hargs str expiresAt response =>
      refine .inl ⟨rfl, entries_put_subset rfl, ?_⟩
      intro hkeeps
      rcases htype with htype | htype <;> simp [htype, replacesValue] at hkeeps
  | pushed htype hargs =>
      refine .inl ⟨rfl, entries_put_subset rfl, ?_⟩
      intro hkeeps
      rcases htype with htype | htype <;> simp [htype, replacesValue] at hkeeps
  | popped htype hargs hcount hresult hreply =>
      refine .inl ⟨rfl, fun key => ?_, fun _ key => ?_⟩ <;> rw [hpop hresult key] <;>
        exact List.Subset.refl _
  | blpopped htype hkey hresult =>
      refine .inl ⟨rfl, fun key => ?_, fun _ key => ?_⟩ <;> rw [hpop hresult key] <;>
        exact List.Subset.refl _
  | blocked htype htimeout hnone =>
      exact .inl ⟨rfl, fun _ => List.Subset.refl _, fun _ _ => List.Subset.refl _⟩
  | @appended hadd hargs pair hid =>
      refine .inr (.inr ⟨pair, _, hadd, hid, rfl, fun key => ?_⟩)
      rw [Store.entries_put]
      rfl
  | created hadd hargs hkey response =>
      -- the key was not set, so its stream was empty before
      refine .inl ⟨rfl, entries_put_subset rfl, fun _ key => ?_⟩
      rw [Store.entries_put]
      split
      · rename_i heq
        rw [heq]
        simp [Store.entries, Store.slot, hkey, StoreValue.default, Store.streamSlot]
      · exact List.Subset.refl _
  | waits hread hnone => exact .inr (.inl ⟨_, _, rfl, rfl, hnone⟩)

/-- Only {lit}`XREAD` blocks for streams, with its identifiers resolved. -/
theorem resolved_of_blockXread {body : Command → Reading → Store → CommandResult}
    {streams : List (Bytes × Bytes)} {timeout : Double}
    (hbody : dataCommand cmd.type = some body)
    (h : body cmd now d = (d', .ok (.blockXread streams timeout))) :
    cmd.type = .xread ∧ (parseXreadArgs cmd).valid = true ∧
      resolveStreamIds d ((parseXreadArgs cmd).keys.zip (parseXreadArgs cmd).ids) =
        .ok streams := by
  have htype := (keys_of_blockXread hbody h).1
  rw [htype] at hbody
  cases hbody
  refine ⟨htype, ?_⟩
  unfold xreadExecute at h
  simp only at h
  split at h
  · cases h
  · rename_i hvalid
    split at h
    · cases h
    · rename_i resolved hresolve
      split at h
      · cases h
      · split at h
        · cases h
        · split at h
          · cases h
          · cases h
            exact ⟨by simpa using hvalid, hresolve⟩

/-- The identifier above which a request wants the entries of a stream: the one that it
names, or for a dollar sign the last one that the stream has, if any. -/
def requestedId (d : Store) (key id : Bytes) : Bytes :=
  if id = ascii "$" then
    match d.xrange key (ascii "-") (ascii "+") with
    | .ok entries => (entries.getLast?.map StreamEntry.id).getD (ascii "0-0")
    | .error _ => ascii "0-0"
  else id

/-- What the arguments of {lit}`XREAD` ask for: behind the word {lit}`STREAMS` stand the keys
and then, in the same order, the identifiers. -/
def requestedStreams (d : Store) (args : List Bytes) : List (Bytes × Bytes) :=
  let names := (args.dropWhile fun arg => uppercase arg ≠ ascii "STREAMS").tail
  List.zipWith (fun key id => (key, requestedId d key id)) (names.take (names.length / 2))
    (names.drop (names.length / 2))

/-- {lit}`resolve_stream_ids` gives each stream the identifier that was requested. -/
theorem resolveStreamIds_eq {names streams : List (Bytes × Bytes)}
    (h : resolveStreamIds d names = .ok streams) :
    streams = names.map fun name => (name.1, requestedId d name.1 name.2) := by
  induction names generalizing streams with
  | nil =>
      cases h
      rfl
  | cons name names ih =>
      rcases name with ⟨key, id⟩
      have hcons : ∀ {resolved : Bytes}, resolved = requestedId d key id →
          (resolveStreamIds d names).map ((key, resolved) :: ·) = .ok streams →
          streams = ((key, id) :: names).map fun name => (name.1, requestedId d name.1 name.2) := by
        intro resolved hid hrest
        cases hnames : resolveStreamIds d names with
        | error e => simp [hnames, Except.map] at hrest
        | ok rest =>
            rw [hnames] at hrest
            cases hrest
            rw [List.map_cons, ← ih hnames, hid]
      simp only [resolveStreamIds, bind, Except.bind, pure, Except.pure] at h
      split at h
      · rename_i hdollar
        cases hrange : d.xrange key (ascii "-") (ascii "+") with
        | error e => simp [hrange] at h
        | ok entries =>
            rw [hrange] at h
            refine hcons ?_ h
            simp only [requestedId, if_pos hdollar, hrange]
            cases entries.getLast? <;> rfl
      · rename_i hdollar
        refine hcons ?_ h
        rw [requestedId, if_neg hdollar]

/-- The keys and identifiers behind {lit}`STREAMS`. -/
theorem names_of_valid (h : (parseXreadArgs cmd).valid = true) :
    let names := (cmd.args.dropWhile fun arg => uppercase arg ≠ ascii "STREAMS").tail
    (parseXreadArgs cmd).keys = names.take (names.length / 2) ∧
      (parseXreadArgs cmd).ids = names.drop (names.length / 2) := by
  have hstreams : ∀ {args isBlocking timeout}, (parseStreams args isBlocking timeout).valid = true →
      let names := (args.dropWhile fun arg => uppercase arg ≠ ascii "STREAMS").tail
      (parseStreams args isBlocking timeout).keys = names.take (names.length / 2) ∧
        (parseStreams args isBlocking timeout).ids = names.drop (names.length / 2) := by
    intro args isBlocking timeout hvalid
    unfold parseStreams at hvalid ⊢
    split at hvalid
    · contradiction
    · rename_i word rest hwords
      split at hvalid
      · contradiction
      · rename_i hlength
        have hnames : args.dropWhile (fun arg => uppercase arg ≠ ascii "STREAMS") = word :: rest :=
          hwords
        simp only [if_neg hlength, hnames, List.tail_cons, and_self]
  generalize hparsed : parseXreadArgs cmd = parsed at h ⊢
  unfold parseXreadArgs at hparsed
  split at hparsed
  · split at hparsed
    · rw [← hparsed] at h ⊢
      exact hstreams h
    · rw [← hparsed] at h
      contradiction
  · rw [← hparsed] at h ⊢
    exact hstreams h

/-- A request that blocks waits for what its arguments ask for. -/
theorem requested_of_blockXread {body : Command → Reading → Store → CommandResult}
    {streams : List (Bytes × Bytes)} {timeout : Double}
    (hbody : dataCommand cmd.type = some body)
    (h : body cmd now d = (d', .ok (.blockXread streams timeout))) :
    streams = requestedStreams d cmd.args := by
  rcases resolved_of_blockXread hbody h with ⟨-, hvalid, hresolve⟩
  rw [resolveStreamIds_eq hresolve, (names_of_valid hvalid).1, (names_of_valid hvalid).2,
    List.zip, List.map_zipWith]
  rfl

end Commands

/-! ## Registrations of streams -/

/-- A waiter is queued at each of its streams. -/
structure QueuedEverywhere (r : BlockingRegistry XreadCallback) : Prop where
  consistent : r.Consistent
  everywhere : ∀ key, ∀ waiter ∈ r.waiters key, ∀ stream ∈ waiter.2.streams,
    waiter ∈ r.waiters stream.1

section Registry

variable {r : BlockingRegistry XreadCallback}

/-- Removal keeps the other waiters everywhere. -/
theorem QueuedEverywhere.unregister (h : QueuedEverywhere r) (id : Nat) :
    QueuedEverywhere (r.unregister id) := by
  refine ⟨h.consistent.unregister id, fun key waiter hmem stream hstream => ?_⟩
  have hne := h.consistent.ne_of_mem_unregister hmem
  have hqueued := h.everywhere key waiter (BlockingRegistry.mem_waiters_of_unregister hmem)
    stream hstream
  rw [BlockingRegistry.waiters_unregister]
  split
  · exact List.mem_filter.mpr ⟨hqueued, decide_eq_true hne⟩
  · exact hqueued

/-- A new waiter is queued at each of its streams. -/
theorem QueuedEverywhere.register (h : QueuedEverywhere r) (callback : XreadCallback) :
    QueuedEverywhere (r.registerCallbacks (callback.streams.map Prod.fst) callback).1 := by
  refine ⟨h.consistent.registerCallbacks _ _, fun key waiter hmem stream hstream => ?_⟩
  rw [BlockingRegistry.waiters_registerCallbacks, List.mem_append] at hmem ⊢
  rcases hmem with hmem | hmem
  · exact .inl (h.everywhere key waiter hmem stream hstream)
  · cases List.eq_of_mem_replicate hmem
    have hkey : stream.1 ∈ callback.streams.map Prod.fst := List.mem_map_of_mem hstream
    exact .inr (List.mem_replicate.mpr ⟨(List.count_pos_iff.mpr hkey).ne', rfl⟩)

end Registry

/-! ## Runs -/

/-- The identifiers that {lit}`XREAD` asks for are below 2^63 milliseconds, which turn
into a negative number otherwise. -/
def RequestsPlain (cmd : Command) (d : Store) : Prop :=
  cmd.type = .xread →
    match resolveStreamIds d ((parseXreadArgs cmd).keys.zip (parseXreadArgs cmd).ids) with
    | .ok streams => ∀ stream ∈ streams,
        match parseStreamBound stream.2 true with
        | .ok bound => 0 ≤ bound.ms
        | .error _ => True
    | .error _ => True

/-- The entry that {lit}`XADD` adds lies above the identifier that each waiter of the
stream asked for. -/
def AddsNews (cmd : Command) (now : Reading) (d : Store) (r : BlockingRegistry XreadCallback) :
    Prop :=
  cmd.type = .xadd →
    match validatedId (cmd.arg 1) (Store.lastId (d.entries (cmd.arg 0))) now.system with
    | .ok pair => ∀ waiter ∈ r.waiters (cmd.arg 0), ∃ stream ∈ waiter.2.streams,
        stream.1 = cmd.arg 0 ∧ readsAbove stream.2 (renderId pair.1 pair.2) = true
    | .error _ => True

/-- What a step may do: a command that does not throw, reads plain identifiers, adds
above the requested ones, and replaces no value while copied waiters wait. -/
def AddsAbove (env : Env) (t : StoreThread) (event : Event) : Prop :=
  Careful env t event ∧
    match event, t.stack.head? with
    | .tick, some (.execute _ _ cmd _) =>
        RequestsPlain cmd t.server.data ∧
          AddsNews cmd (env.reading t.server.readings) t.server.data t.server.xread ∧
          (replacesValue cmd.type = true → t.stack.filterMap Task.wakes = [])
    | _, _ => True

instance (cmd : Command) (d : Store) : Decidable (RequestsPlain cmd d) := by
  unfold RequestsPlain
  have hstream : ∀ stream : Bytes × Bytes, Decidable (match parseStreamBound stream.2 true with
      | .ok bound => 0 ≤ bound.ms
      | .error _ => True) := by
    intro stream
    split <;> infer_instance
  split <;> infer_instance

/-- The condition of {lit}`AddsNews` on a validated identifier. -/
def decidableNews (cmd : Command) (r : BlockingRegistry XreadCallback)
    (validated : Except Exception (Int × Int)) :
    Decidable (cmd.type = .xadd →
      match validated with
      | .ok pair => ∀ waiter ∈ r.waiters (cmd.arg 0), ∃ stream ∈ waiter.2.streams,
          stream.1 = cmd.arg 0 ∧ readsAbove stream.2 (renderId pair.1 pair.2) = true
      | .error _ => True) := by
  cases validated <;> infer_instance

instance (cmd : Command) (now : Reading) (d : Store) (r : BlockingRegistry XreadCallback) :
    Decidable (AddsNews cmd now d r) :=
  decidableNews cmd r (validatedId (cmd.arg 1) (Store.lastId (d.entries (cmd.arg 0))) now.system)

instance (t : StoreThread) (event : Event) : Decidable (AddsAbove env t event) := by
  unfold AddsAbove
  split <;> infer_instance

/-- The cursors ask for entries above a pair. -/
def AllRequest (streams : List (Bytes × Bytes)) : Prop :=
  ∀ stream ∈ streams, ∃ pair, Requests stream.2 pair

/-- What holds in every state of such a run: who has news is about to be called, and who
is about to be called has news. -/
structure DataDriven (t : StoreThread) : Prop where
  sound : Sound t
  registry : QueuedEverywhere t.server.xread
  requested : ∀ key, ∀ waiter ∈ t.server.xread.waiters key, AllRequest waiter.2.streams
  below : ∀ key, .serveXread key ∉ t.stack.tail
  attended : ∀ key, ∀ waiter ∈ t.server.xread.waiters key,
    t.server.data.HasNews waiter.2.streams →
      .wakeXread waiter ∈ t.stack ∨
        ∃ key', .serveXread key' ∈ t.stack ∧ waiter ∈ t.server.xread.waiters key'
  wakes : ∀ registration, .wakeXread registration ∈ t.stack →
    t.server.data.HasNews registration.2.streams ∧ AllRequest registration.2.streams
  serves : ∀ key, .serveXread key ∈ t.stack → ∀ waiter ∈ t.server.xread.waiters key,
    t.server.data.HasNews waiter.2.streams

/-- A task that neither calls waiters of streams nor copies them. -/
def Task.calm : Task → Bool
  | .serveXread _ | .wakeXread _ => false
  | _ => true

section Steps

variable {s s' : Server} {stack new : List Task} {task : Task}

/-- A calm task that adds no waiters and no entries. -/
theorem DataDriven.calm (h : DataDriven ⟨s, task :: stack⟩) (hsound : Sound ⟨s', new ++ stack⟩)
    (hxread : s'.xread = s.xread) (hless : ∀ key, s'.data.entries key ⊆ s.data.entries key)
    (hmore : ∀ registration, .wakeXread registration ∈ stack →
      ∀ key, s.data.entries key ⊆ s'.data.entries key)
    (htask : task.calm = true) (hnew : ∀ task' ∈ new, task'.calm = true) :
    DataDriven ⟨s', new ++ stack⟩ := by
  have hwake : ∀ registration, .wakeXread registration ∉ new := fun registration hmem =>
    absurd (hnew _ hmem) (by simp [Task.calm])
  have hserve : ∀ key, .serveXread key ∉ new ++ stack := by
    intro key hmem
    rcases List.mem_append.mp hmem with hmem | hmem
    · exact absurd (hnew _ hmem) (by simp [Task.calm])
    · exact h.below key hmem
  refine ⟨hsound, hxread ▸ h.registry, hxread ▸ h.requested, ?_, ?_, ?_, ?_⟩
  · exact fun key hmem => hserve key (List.mem_of_mem_tail hmem)
  · intro key waiter hwaiter hnews
    rw [hxread] at hwaiter ⊢
    rcases h.attended key waiter hwaiter (hnews.mono hless) with hmem | ⟨key', hmem, hqueued⟩
    · rcases List.mem_cons.mp hmem with rfl | hmem
      · contradiction
      · exact .inl (List.mem_append_right _ hmem)
    · rcases List.mem_cons.mp hmem with rfl | hmem
      · contradiction
      · exact absurd hmem (h.below key')
  · intro registration hmem
    rcases List.mem_append.mp hmem with hmem | hmem
    · exact absurd hmem (hwake registration)
    · rcases h.wakes registration (List.mem_cons_of_mem _ hmem) with ⟨hnews, hrequested⟩
      exact ⟨hnews.mono (hmore registration hmem), hrequested⟩
  · exact fun key hmem => absurd hmem (hserve key)

/-- A calm task that leaves the registry and the streams alone. -/
theorem DataDriven.same (h : DataDriven ⟨s, task :: stack⟩) (hsound : Sound ⟨s', new ++ stack⟩)
    (hxread : s'.xread = s.xread) (hentries : ∀ key, s'.data.entries key = s.data.entries key)
    (htask : task.calm = true) (hnew : ∀ task' ∈ new, task'.calm = true) :
    DataDriven ⟨s', new ++ stack⟩ := by
  refine h.calm hsound hxread (fun key => ?_) (fun _ _ key => ?_) htask hnew
  · rw [hentries key]
    exact List.Subset.refl _
  · rw [hentries key]
    exact List.Subset.refl _

/-- A command that spares the readers of streams. -/
theorem DataDriven.spares (h : DataDriven ⟨s, task :: stack⟩) {d : Store} {entry : TraceEntry}
    {onReply : OnReply} {outcome : Outcome} (htask : task.calm = true)
    (hsound : Sound ⟨(((s.withData d).record entry).settle onReply outcome).1,
      (((s.withData d).record entry).settle onReply outcome).2 ++ stack⟩)
    (hspares : outcome.sparesReaders = true) (hless : ∀ key, d.entries key ⊆ s.data.entries key)
    (hmore : ∀ registration, .wakeXread registration ∈ stack →
      ∀ key, s.data.entries key ⊆ d.entries key) :
    DataDriven ⟨(((s.withData d).record entry).settle onReply outcome).1,
      (((s.withData d).record entry).settle onReply outcome).2 ++ stack⟩ := by
  refine h.calm hsound ?_ ?_ ?_ htask ?_
  · cases outcome with
    | answer a =>
        simp only [Server.settle]
        split <;> rfl
    | blockBlpop keys timeout => rfl
    | blockXread streams timeout => contradiction
  · rw [settle_data]
    exact hless
  · rw [settle_data]
    exact hmore
  · intro task' hmem
    rcases mem_settle hmem with ⟨key, rfl⟩ | ⟨key, rfl⟩ | ⟨response, rfl⟩ | rfl
    · rfl
    · cases outcome with
      | answer a =>
          simp only [Outcome.sparesReaders] at hspares
          simp only [Server.settle, Server.wakeTasks] at hmem
          split at hspares
          · contradiction
          · split at hmem <;> simp_all
      | _ => cases hmem
    · rfl
    · rfl

/-- {lit}`XREAD` blocks without news. -/
theorem DataDriven.blocks (h : DataDriven ⟨s, task :: stack⟩) {entry : TraceEntry}
    {onReply : OnReply} {streams : List (Bytes × Bytes)} {timeout : Double}
    (htask : task.calm = true)
    (hsound : Sound ⟨((s.withData s.data).record entry).blockXread streams timeout onReply, stack⟩)
    (hread : s.data.xread streams = .ok []) (hrequested : AllRequest streams) :
    DataDriven ⟨((s.withData s.data).record entry).blockXread streams timeout onReply, stack⟩ := by
  have hserve : ∀ key, .serveXread key ∉ stack := h.below
  have hnone : ¬ s.data.HasNews streams := by
    rw [← news_ne_nil_iff, not_not]
    have hnews := xread_eq_news h.sound.readable (cursorsParse_of_xread hread)
    rw [hread] at hnews
    exact (Except.ok.inj hnews).symm
  refine ⟨hsound, h.registry.register ⟨onReply, s.timers.length, streams⟩, ?_, ?_, ?_, ?_, ?_⟩
  · intro key waiter hmem
    rcases BlockingRegistry.mem_waiters_of_register hmem with hmem | rfl
    · exact h.requested key waiter hmem
    · exact hrequested
  · exact fun key hmem => hserve key (List.mem_of_mem_tail hmem)
  · intro key waiter hmem hnews
    rcases BlockingRegistry.mem_waiters_of_register hmem with hmem | rfl
    · rcases h.attended key waiter hmem hnews with hwake | ⟨key', hmem', -⟩
      · rcases List.mem_cons.mp hwake with rfl | hwake
        · contradiction
        · exact .inl hwake
      · rcases List.mem_cons.mp hmem' with rfl | hmem'
        · contradiction
        · exact absurd hmem' (hserve key')
    · exact absurd hnews hnone
  · exact fun registration hmem => h.wakes registration (List.mem_cons_of_mem _ hmem)
  · exact fun key hmem => absurd hmem (hserve key)

/-- {lit}`XADD` adds an entry above what the waiters of the stream asked for. -/
theorem DataDriven.adds (h : DataDriven ⟨s, task :: stack⟩) (htask : task.calm = true)
    {key : Bytes} {entry : StreamEntry} {onReply : OnReply} {response : Bytes}
    (hsound : Sound ⟨s', .serveXread key :: .reply onReply response :: stack⟩)
    (hxread : s'.xread = s.xread)
    (hentries : ∀ key', s'.data.entries key' =
      if key' = key then s.data.entries key ++ [entry] else s.data.entries key')
    (habove : ∀ waiter ∈ s.xread.waiters key, ∃ stream ∈ waiter.2.streams,
      stream.1 = key ∧ readsAbove stream.2 entry.id = true) :
    DataDriven ⟨s', .serveXread key :: .reply onReply response :: stack⟩ := by
  have hserve : ∀ key', .serveXread key' ∉ stack := h.below
  have hmore : ∀ key', s.data.entries key' ⊆ s'.data.entries key' := by
    intro key'
    rw [hentries]
    split
    · rename_i heq
      rw [heq]
      exact List.subset_append_left _ _
    · exact List.Subset.refl _
  refine ⟨hsound, hxread ▸ h.registry, hxread ▸ h.requested, ?_, ?_, ?_, ?_⟩
  · intro key' hmem
    rcases List.mem_cons.mp hmem with hmem | hmem
    · contradiction
    · exact hserve key' hmem
  · intro key' waiter hwaiter hnews
    rw [hxread] at hwaiter ⊢
    by_cases hold : s.data.HasNews waiter.2.streams
    · rcases h.attended key' waiter hwaiter hold with hwake | ⟨key'', hmem, -⟩
      · rcases List.mem_cons.mp hwake with rfl | hwake
        · contradiction
        · exact .inl (List.mem_cons_of_mem _ (List.mem_cons_of_mem _ hwake))
      · rcases List.mem_cons.mp hmem with rfl | hmem
        · contradiction
        · exact absurd hmem (hserve key'')
    · -- the news is the new entry, and the waiter is queued at its stream
      rcases hnews with ⟨stream, hstream, entry', hentry', hreads⟩
      have hkey : stream.1 = key := by
        by_contra hne
        rw [hentries, if_neg hne] at hentry'
        exact hold ⟨stream, hstream, entry', hentry', hreads⟩
      refine .inr ⟨key, List.mem_cons_self, ?_⟩
      rw [← hkey]
      exact h.registry.everywhere key' waiter hwaiter stream hstream
  · intro registration hmem
    have hmem' : .wakeXread registration ∈ stack := by simpa using hmem
    rcases h.wakes registration (List.mem_cons_of_mem _ hmem') with ⟨hnews, hrequested⟩
    exact ⟨hnews.mono hmore, hrequested⟩
  · intro key' hmem waiter hwaiter
    have hkey : key' = key := by
      rcases List.mem_cons.mp hmem with heq | hmem
      · cases heq
        rfl
      · exact absurd (by simpa using hmem) (hserve key')
    subst hkey
    rw [hxread] at hwaiter
    rcases habove waiter hwaiter with ⟨stream, hstream, hkey, hreads⟩
    refine ⟨stream, hstream, entry, ?_, hreads⟩
    rw [hentries, if_pos hkey]
    exact List.mem_append_right _ List.mem_cons_self

/-- The waiters of a stream are copied. -/
theorem DataDriven.copies {key : Bytes} (h : DataDriven ⟨s, .serveXread key :: stack⟩)
    (hsound : Sound ⟨s, (s.xread.waiters key).map .wakeXread ++ stack⟩) :
    DataDriven ⟨s, (s.xread.waiters key).map .wakeXread ++ stack⟩ := by
  have hserve : ∀ key', .serveXread key' ∉ (s.xread.waiters key).map .wakeXread ++ stack := by
    intro key' hmem
    rcases List.mem_append.mp hmem with hmem | hmem
    · rcases List.mem_map.mp hmem with ⟨waiter, -, heq⟩
      contradiction
    · exact h.below key' hmem
  refine ⟨hsound, h.registry, h.requested, ?_, ?_, ?_, ?_⟩
  · exact fun key' hmem => hserve key' (List.mem_of_mem_tail hmem)
  · intro key' waiter hwaiter hnews
    rcases h.attended key' waiter hwaiter hnews with hwake | ⟨key'', hmem, hqueued⟩
    · rcases List.mem_cons.mp hwake with heq | hwake
      · contradiction
      · exact .inl (List.mem_append_right _ hwake)
    · rcases List.mem_cons.mp hmem with heq | hmem
      · cases heq
        exact .inl (List.mem_append_left _ (List.mem_map_of_mem hqueued))
      · exact absurd hmem (h.below key'')
  · intro registration hmem
    rcases List.mem_append.mp hmem with hmem | hmem
    · rcases List.mem_map.mp hmem with ⟨waiter, hwaiter, heq⟩
      cases heq
      exact ⟨h.serves key List.mem_cons_self registration hwaiter,
        h.requested key registration hwaiter⟩
    · exact h.wakes registration (List.mem_cons_of_mem _ hmem)
  · exact fun key' hmem => absurd hmem (hserve key')

/-- A waiter is removed and answered. -/
theorem DataDriven.called {registration : Nat × XreadCallback} {response : Bytes}
    (h : DataDriven ⟨s, .wakeXread registration :: stack⟩)
    (hsound : Sound ⟨s', .reply registration.2.onReply response :: stack⟩)
    (hxread : s'.xread = s.xread.unregister registration.1) (hdata : s'.data = s.data) :
    DataDriven ⟨s', .reply registration.2.onReply response :: stack⟩ := by
  have hserve : ∀ key, .serveXread key ∉ stack := h.below
  refine ⟨hsound, hxread ▸ h.registry.unregister _, ?_, hserve, ?_, ?_, ?_⟩
  · intro key waiter hwaiter
    rw [hxread] at hwaiter
    exact h.requested key waiter (BlockingRegistry.mem_waiters_of_unregister hwaiter)
  · intro key waiter hwaiter hnews
    rw [hxread] at hwaiter
    rw [hdata] at hnews
    have hne : waiter.1 ≠ registration.1 := h.registry.consistent.ne_of_mem_unregister hwaiter
    rcases h.attended key waiter (BlockingRegistry.mem_waiters_of_unregister hwaiter) hnews with
      hwake | ⟨key', hmem, -⟩
    · rcases List.mem_cons.mp hwake with heq | hwake
      · cases heq
        contradiction
      · exact .inl (List.mem_cons_of_mem _ hwake)
    · rcases List.mem_cons.mp hmem with heq | hmem
      · contradiction
      · exact absurd hmem (hserve key')
  · intro registration' hmem
    rw [hdata]
    exact h.wakes registration' (List.mem_cons_of_mem _ (by simpa using hmem))
  · intro key hmem
    exact absurd (by simpa using hmem) (hserve key)

/-- No copied waiter waits to be called. -/
theorem not_wake_of_wakes (h : (task :: stack).filterMap Task.wakes = [])
    (registration : Nat × XreadCallback) : .wakeXread registration ∉ stack := by
  intro hmem
  have hnone := List.filterMap_eq_nil_iff.mp h _ (List.mem_cons_of_mem _ hmem)
  contradiction

/-- A command on the keyspace. -/
theorem dataDriven_ran {handler : HandlerId} {request : RespValue} {cmd : Command}
    {onReply : OnReply} {body : Command → Reading → Store → CommandResult} {d : Store}
    {outcome : Outcome} (h : DataDriven ⟨s, .execute handler request cmd onReply :: stack⟩)
    (hadds : AddsAbove env ⟨s, .execute handler request cmd onReply :: stack⟩ .tick)
    (hbody : dataCommand cmd.type = some body)
    (hresult : body cmd (env.reading s.readings) s.data = (d, .ok outcome))
    (hsound : Sound
      ⟨(((s.withData d).record (.executed handler cmd.type request)).settle onReply outcome).1,
        (((s.withData d).record (.executed handler cmd.type request)).settle onReply outcome).2 ++
          stack⟩) :
    DataDriven
      ⟨(((s.withData d).record (.executed handler cmd.type request)).settle onReply outcome).1,
        (((s.withData d).record (.executed handler cmd.type request)).settle onReply outcome).2 ++
          stack⟩ := by
  rcases hadds with ⟨-, hplain, hnews, hreplaces⟩
  have hdata := @dataActs_of_dataCommand cmd (env.reading s.readings) s.data body hbody
  rw [hresult] at hdata
  rcases streams_of_dataActs hdata with ⟨hspares, hless, hmore⟩ |
    ⟨streams, timeout, rfl, rfl, hread⟩ | ⟨pair, response, htype, hid, rfl, hentries⟩
  · refine h.spares rfl hsound hspares hless ?_
    intro registration hmem
    apply hmore
    by_contra hreplace
    exact not_wake_of_wakes (hreplaces (by simpa using hreplace)) registration hmem
  · rcases resolved_of_blockXread hbody hresult with ⟨htype, -, hresolve⟩
    refine h.blocks rfl hsound hread ?_
    intro stream hstream
    rcases cursorsParse_of_xread hread stream hstream with ⟨bound, hbound⟩
    have hnonneg := hplain htype
    rw [hresolve] at hnonneg
    have hms := hnonneg stream hstream
    rw [hbound] at hms
    exact ⟨(bound.ms, bound.seq), hms, bound, hbound, rfl, rfl⟩
  · have habove := hnews htype
    rw [hid] at habove
    exact h.adds rfl hsound rfl hentries habove

/-- A task that does not throw. -/
theorem dataDriven_calls (h : DataDriven ⟨s, task :: stack⟩)
    (hadds : AddsAbove env ⟨s, task :: stack⟩ .tick) (hsound : Sound ⟨s', new ++ stack⟩)
    (hacts : Acts env s task s' (.ok new)) : DataDriven ⟨s', new ++ stack⟩ := by
  cases hacts with
  | ran hbody hresult => exact dataDriven_ran h hadds hbody hresult hsound
  | @served key value id callback later d more hwaiters hpop =>
      refine h.same hsound rfl (fun key' => ?_) rfl (by simp [Task.calm])
      have hentries := entries_lpop s.data key 1 key'
      rwa [hpop] at hentries
  | @unserved key id callback later d hwaiters hpop =>
      refine h.same hsound rfl (fun key' => ?_) rfl (by simp)
      rcases hpop with hempty | ⟨-, rfl⟩
      · have hentries := entries_lpop s.data key 1 key'
        rwa [hempty] at hentries
      · rfl
  | copied key => exact h.copies hsound
  | woke hread => exact h.called hsound rfl rfl
  | collected =>
      refine h.same hsound ?_ (fun key => ?_) rfl (by simp [Task.calm])
      · split <;> rfl
      · split <;> rfl
  | _ => exact h.same hsound rfl (fun _ => rfl) rfl (by simp [Task.calm])

end Steps

/-- A server that was just started. -/
theorem dataDriven_initial (registry : ReplicaRegistry) : DataDriven (.withReplicas registry) :=
  ⟨sound_initial registry, ⟨BlockingRegistry.consistent_empty, by simp⟩, by simp, by simp, by simp,
    by simp, by simp⟩

/-- While the store thread is idle, nobody who waits has news. -/
theorem DataDriven.idle {s : Server} (h : DataDriven ⟨s, []⟩) (key : Bytes)
    {waiter : Nat × XreadCallback} (hwaiter : waiter ∈ s.xread.waiters key) :
    ¬ s.data.HasNews waiter.2.streams := by
  intro hnews
  rcases h.attended key waiter hwaiter hnews with hmem | ⟨key', hmem, -⟩
  · cases hmem
  · cases hmem

/-- A step from an idle store thread that removes waiters at most. -/
theorem DataDriven.takes {s s' : Server} {task : Task} (h : DataDriven ⟨s, []⟩)
    (hsound : Sound ⟨s', [task]⟩) (hregistry : QueuedEverywhere s'.xread)
    (hwaiters : ∀ key, s'.xread.waiters key ⊆ s.xread.waiters key) (hdata : s'.data = s.data)
    (htask : task.calm = true) : DataDriven ⟨s', [task]⟩ := by
  refine ⟨hsound, hregistry, ?_, by simp, ?_, ?_, ?_⟩
  · exact fun key waiter hmem => h.requested key waiter (hwaiters key hmem)
  · intro key waiter hmem hnews
    rw [hdata] at hnews
    exact absurd hnews (h.idle key (hwaiters key hmem))
  · intro registration hmem
    rw [← List.mem_singleton.mp hmem] at htask
    contradiction
  · intro key hmem
    rw [← List.mem_singleton.mp hmem] at htask
    contradiction

/-- One step. -/
theorem dataDriven_step {t t' : StoreThread} {event : Event} (h : DataDriven t)
    (hadds : AddsAbove env t event) (hstep : t.step env event = some t') : DataDriven t' := by
  have hsound : Sound t' := sound_step h.sound hadds.1 hstep
  cases moves_of_step hstep with
  | request s handler request =>
      exact h.takes hsound h.registry (fun _ => List.Subset.refl _) rfl rfl
  | calls stack hact => exact dataDriven_calls h hadds hsound (acts_of_act hact)
  | throws above onReply below hact =>
      exact absurd hact (act_ne_error h.sound hadds.1 _ rfl _ _)
  | @timeout s i timer htimer hqueued =>
      refine h.takes hsound ?_ ?_ (onTimeout_data s i timer) rfl
      · cases timer.kind with
        | blpop => exact h.registry
        | xread => exact h.registry.unregister _
      · cases timer.kind with
        | blpop => exact fun _ => List.Subset.refl _
        | xread => exact fun _ _ hmem => BlockingRegistry.mem_waiters_of_unregister hmem
  | poll hwait hactive => exact h.takes hsound h.registry (fun _ => List.Subset.refl _) rfl rfl
  | idle s => exact h
  | _ =>
      exact ⟨hsound, h.registry, h.requested, h.below, h.attended, h.wakes, h.serves⟩

/-! ## Blocked reads -/

/-- Some stream has an entry above the identifier that is requested for it. -/
def Store.Offers (d : Store) (streams : List (Bytes × Bytes)) : Prop :=
  ∃ stream ∈ streams, ∃ requested, Requests stream.2 requested ∧
    ∃ entry ∈ d.entries stream.1, ∃ id, Decodes entry.id id ∧ Precedes requested id

/-- The comparison of {lit}`xread` finds what is offered. -/
theorem offers_iff_hasNews {d : Store} (hd : d.Readable) {streams : List (Bytes × Bytes)}
    (hrequested : AllRequest streams) : d.Offers streams ↔ d.HasNews streams := by
  constructor
  · rintro ⟨stream, hstream, requested, hrequests, entry, hentry, id, hdecodes, hprecedes⟩
    exact ⟨stream, hstream, entry, hentry, (readsAbove_iff hrequests hdecodes).mpr hprecedes⟩
  · rintro ⟨stream, hstream, entry, hentry, habove⟩
    rcases hrequested stream hstream with ⟨requested, hrequests⟩
    rcases hd stream.1 entry hentry with ⟨id, hdecodes⟩
    exact ⟨stream, hstream, requested, hrequests, entry, hentry, id, hdecodes,
      (readsAbove_iff hrequests hdecodes).mp habove⟩

/-- The reply with entries is not the null array. -/
theorem formatStreamEntries_ne_nullArray {results : List (Bytes × List StreamEntry)}
    (h : results ≠ []) : formatStreamEntries results ≠ nullArray := by
  have hstar : ascii "*" = [42] := by decide
  have hnull : nullArray = 42 :: 45 :: ascii "1\r\n" := by decide
  unfold formatStreamEntries arrayHeader
  rw [if_neg h, hnull, hstar, List.append_assoc, List.append_assoc]
  intro heq
  exact Decimal.render_append_ne_dash _ _ _ (List.cons.inj heq).2

namespace DataDriven

variable {t : StoreThread}

/-- Whoever waits while the store thread is idle is offered nothing. -/
theorem not_offers (h : DataDriven t) (hidle : t.stack = []) (key : Bytes)
    {waiter : Nat × XreadCallback} (hwaiter : waiter ∈ t.server.xread.waiters key) :
    ¬ t.server.data.Offers waiter.2.streams := by
  rcases t with ⟨s, stack⟩
  cases hidle
  rw [offers_iff_hasNews h.sound.readable (h.requested key waiter hwaiter)]
  exact h.idle key hwaiter

/-- The handler that is running comes to its end, unless a step of it does not meet the
condition. -/
theorem completes (h : DataDriven t) :
    ∃ n t', t.run env (List.replicate n .tick) = some t' ∧ DataDriven t' ∧
      (t'.stack = [] ∨ ¬ AddsAbove env t' .tick) := by
  refine Execution.exists_follow_replicate StoreThread.measure ?_ t h
  intro t ht hstop
  rw [not_or, not_not] at hstop
  rcases exists_step ht.sound hstop.2.1 hstop.1 with ⟨t', hstep, -, hlt⟩
  exact ⟨t', hstep, dataDriven_step ht hstop.2 hstep, hlt⟩

/-- The call of a waiter. -/
theorem step_wake {s : Server} {registration : Nat × XreadCallback} {rest : List Task}
    (h : DataDriven ⟨s, .wakeXread registration :: rest⟩) :
    StoreThread.step env ⟨s, .wakeXread registration :: rest⟩ .tick =
      some ⟨(s.unregisterXread registration.1).cancelTimer registration.2.timer,
        .reply registration.2.onReply
          (formatStreamEntries (s.data.news registration.2.streams)) :: rest⟩ := by
  have hread := xread_eq_news h.sound.readable
    (h.sound.cursors.wakes registration List.mem_cons_self)
  have hact : s.act env (.wakeXread registration) =
      ((s.unregisterXread registration.1).cancelTimer registration.2.timer,
        .ok [.reply registration.2.onReply
          (formatStreamEntries (s.data.news registration.2.streams))]) := by
    simp only [Server.act, Server.wakeXread]
    rw [hread]
    rfl
  exact step_tick hact rest

/-- The answer to a blocked read is given by its own call. -/
theorem wake_of_answers (h : DataDriven t) {i : Nat} (hanswers : i ∈ answers t .tick)
    {timer : Timer} (htimer : t.server.timers[i]? = some timer) (hkind : timer.kind = .xread) :
    ∃ registration rest, t.stack = .wakeXread registration :: rest ∧ registration.2.timer = i := by
  rcases h.sound.answered with ⟨seen, hanswered⟩
  rcases t with ⟨s, stack⟩
  unfold answers at hanswers
  simp only at hanswers htimer
  split at hanswers
  · -- the timers of popping clients are of the other kind
    split at hanswers
    · rename_i hwaiters _
      rw [List.mem_singleton] at hanswers
      rcases (hanswered.blpop.waiter (hwaiters ▸ List.mem_cons_self)).2.2 with ⟨status, -, hstatus⟩
      rw [← hanswers, htimer] at hstatus
      cases hstatus
      contradiction
    · contradiction
  · rename_i id callback rest
    split at hanswers
    · exact ⟨(id, callback), rest, rfl, (List.mem_singleton.mp hanswers).symm⟩
    · contradiction
  · contradiction

end DataDriven

/-! ## Requests -/

/-- The callback of an {lit}`XREAD` that is executed, with the streams that it asks for. -/
def readRequests (t : StoreThread) : Event → List (OnReply × List (Bytes × Bytes))
  | .tick =>
      match t.stack with
      | .execute _ _ cmd onReply :: _ => [(onReply, requestedStreams t.server.data cmd.args)]
      | _ => []
  | _ => []

/-- Whoever waits asked for its streams. -/
def Asked (t : StoreThread) (seen : List (OnReply × List (Bytes × Bytes))) : Prop :=
  StreamWaiters (fun callback => (callback.onReply, callback.streams) ∈ seen) t

theorem asked_step {t t' : StoreThread} {event : Event}
    {seen : List (OnReply × List (Bytes × Bytes))} (h : Asked t seen)
    (hstep : t.step env event = some t') : Asked t' (seen ++ readRequests t event) := by
  refine streamWaiters_step (h.mono fun callback hmem => List.mem_append_left _ hmem) ?_ hstep
  rintro rfl task htop
  rcases t with ⟨s, _ | ⟨top, stack⟩⟩
  · cases htop
  cases htop
  cases task with
  | execute handler request cmd onReply =>
      intro body d streams timeout timer hbody hresult
      rw [requested_of_blockXread hbody hresult]
      exact List.mem_append_right _ List.mem_cons_self
  | _ => trivial

/-- A client asks for what lies above 5-0 in two streams, and entries are added. -/
def readsTwoStreams : List Event :=
  job 1 (.short (ascii "XREAD") [ascii "BLOCK", ascii "0", ascii "STREAMS", ascii "s",
      ascii "r", ascii "5-0", ascii "$"] (Eq.refl true)) 2 ++
    job 2 (.short (ascii "XADD") [ascii "s", ascii "7-1", ascii "f", ascii "v"] (Eq.refl true)) 3

end RedisClone
