import RedisClone.Command.DataTransitions

/-!
# Exceptions of commands

{lit}`SET`, {lit}`LRANGE`, {lit}`LPOP` and {lit}`BLPOP` convert their numeric
arguments outside of every {lit}`try` block.  {lit}`XADD` and {lit}`XREAD` read the
identifiers of entries that are stored, and throw if one of them cannot be read back.

Main results:

- Theorem {lit}`exists_outcome`: a command whose numbers can be parsed does not throw
  on a table whose identifiers can be read back.
- Theorem {lit}`readable_of_dataActs`: identifiers can be read back behind every
  command that adds no negative component.
- Theorem {lit}`xread_of_cursors`: a cursor that could be parsed once can be read
  again.
-/

namespace RedisClone

open StreamUtils

/-! ## Numeric arguments -/

/-- The numeric arguments of a command can be converted. -/
def NumbersParse (cmd : Command) : Prop :=
  match cmd.type with
  | .set => 2 ≤ cmd.args.length → (parseExpiry (cmd.args.drop 2)).isOk = true
  | .lrange => 3 ≤ cmd.args.length →
      (stoll (cmd.arg 1)).isOk = true ∧ (stoll (cmd.arg 2)).isOk = true
  | .lpop => 1 ≤ cmd.args.length → (lpopCount cmd).isOk = true
  | .blpop => 2 ≤ cmd.args.length → (stod (cmd.args.getLastD [])).isOk = true
  | _ => True

instance (cmd : Command) : Decidable (NumbersParse cmd) := by
  unfold NumbersParse
  split <;> infer_instance

/-- An identifier that {lit}`XADD` adds has no negative component, which is what a
component of 2^63 or more turns into. -/
def AddsReadable (cmd : Command) (now : Reading) (d : Store) : Prop :=
  cmd.type = .xadd →
    match validatedId (cmd.arg 1) (Store.lastId (d.entries (cmd.arg 0))) now.system with
    | .ok pair => 0 ≤ pair.1 ∧ 0 ≤ pair.2 ∧ pair.1 ≤ longLongMax ∧ pair.2 ≤ longLongMax
    | .error _ => True

instance (cmd : Command) (now : Reading) (d : Store) : Decidable (AddsReadable cmd now d) := by
  unfold AddsReadable
  split <;> infer_instance

/-! ## Stored identifiers -/

namespace Store

/-- The identifiers of all entries can be read back. -/
def Readable (d : Store) : Prop :=
  ∀ key, ∀ entry ∈ d.entries key, ∃ pair, Decodes entry.id pair

theorem readable_empty : Store.empty.Readable := by
  intro key entry hmem
  cases hmem

variable {d : Store}

/-- The entries at a key that is written. -/
theorem entries_put (key key' : Bytes) (v : StoreValue) :
    (d.put key v).entries key' = if key' = key then streamSlot v else d.entries key' := by
  unfold entries slot
  by_cases heq : key' = key
  · subst heq
    rw [put_same, if_pos rfl]
    rfl
  · rw [put_of_ne heq, if_neg heq]

/-- A key is written with entries that can be read back. -/
theorem Readable.put (hd : d.Readable) (key : Bytes) {v : StoreValue}
    (hv : ∀ entry ∈ streamSlot v, ∃ pair, Decodes entry.id pair) : (d.put key v).Readable := by
  intro key' entry hmem
  rw [entries_put] at hmem
  split at hmem
  · exact hv entry hmem
  · exact hd key' entry hmem

theorem Readable.erase (hd : d.Readable) (key : Bytes) : (d.erase key).Readable := by
  intro key' entry hmem
  by_cases heq : key' = key
  · subst heq
    unfold entries slot at hmem
    rw [erase_same] at hmem
    cases hmem
  · refine hd key' entry ?_
    unfold entries slot at hmem ⊢
    rwa [erase_of_ne heq] at hmem

theorem Readable.lpop (hd : d.Readable) (key : Bytes) (count : Nat) :
    (d.lpop key count).1.Readable := by
  unfold Store.lpop
  split
  · exact hd
  · simp only
    split
    · exact hd.erase key
    · exact hd.put key (by simp [streamSlot])
  · exact hd

/-- The entries of a stream that is there. -/
theorem entries_of_stream {key : Bytes} {entries : List StreamEntry} {expiresAt : Option Int}
    (hkey : d key = some ⟨.stream entries, expiresAt⟩) : d.entries key = entries := by
  unfold Store.entries slot
  rw [hkey]
  rfl

end Store

section Reading

variable {d : Store} {entries : List StreamEntry}

/-- Entries are read. -/
theorem exists_xrangeEntries (first last : StreamBoundParts)
    (hentries : ∀ entry ∈ entries, ∃ pair, Decodes entry.id pair) :
    ∃ found, Store.xrangeEntries first last entries = .ok found := by
  induction entries with
  | nil => exact ⟨[], rfl⟩
  | cons entry entries ih =>
      rcases hentries entry List.mem_cons_self with ⟨pair, hdecodes⟩
      rcases hdecodes.2 true with ⟨bound, hbound, -⟩
      rcases ih (fun entry hmem => hentries entry (List.mem_cons_of_mem _ hmem)) with ⟨rest, hrest⟩
      simp only [Store.xrangeEntries, hbound, hrest, bind, Except.bind]
      split
      · exact ⟨_, rfl⟩
      · exact ⟨_, rfl⟩

theorem exists_xreadEntries (target : StreamBoundParts)
    (hentries : ∀ entry ∈ entries, ∃ pair, Decodes entry.id pair) :
    ∃ found, Store.xreadEntries target entries = .ok found := by
  induction entries with
  | nil => exact ⟨[], rfl⟩
  | cons entry entries ih =>
      rcases hentries entry List.mem_cons_self with ⟨pair, hdecodes⟩
      rcases hdecodes.2 true with ⟨bound, hbound, -⟩
      rcases ih (fun entry hmem => hentries entry (List.mem_cons_of_mem _ hmem)) with ⟨rest, hrest⟩
      simp only [Store.xreadEntries, hbound, hrest, bind, Except.bind]
      exact ⟨_, rfl⟩

/-- The dollar signs of {lit}`XREAD` are resolved. -/
theorem exists_resolveStreamIds (hd : d.Readable) (streams : List (Bytes × Bytes)) :
    ∃ resolved, resolveStreamIds d streams = .ok resolved := by
  induction streams with
  | nil => exact ⟨[], rfl⟩
  | cons stream streams ih =>
      rcases stream with ⟨key, id⟩
      rcases ih with ⟨rest, hrest⟩
      have hrange : ∃ found, d.xrange key (ascii "-") (ascii "+") = .ok found := by
        unfold Store.xrange
        split
        · rename_i entries expiresAt hkey
          have hfirst : ∀ isStart, ∃ bound, parseStreamBound (ascii "-") isStart = .ok bound :=
            fun isStart => ⟨_, if_pos rfl⟩
          have hlast : ∀ isStart, ∃ bound, parseStreamBound (ascii "+") isStart = .ok bound :=
            fun isStart => ⟨_, rfl⟩
          rcases hfirst true with ⟨first, hfirst⟩
          rcases hlast false with ⟨last, hlast⟩
          simp only [hfirst, hlast, bind, Except.bind]
          refine exists_xrangeEntries first last fun entry hmem => hd key entry ?_
          rwa [Store.entries_of_stream hkey]
        · exact ⟨[], rfl⟩
      rcases hrange with ⟨found, hfound⟩
      simp only [resolveStreamIds, hrest, hfound, bind, Except.bind]
      split
      · exact ⟨_, rfl⟩
      · exact ⟨_, rfl⟩

/-- {lit}`xread` in terms of the entries at each key. -/
theorem xread_cons (d : Store) (key cursor : Bytes) (streams : List (Bytes × Bytes)) :
    d.xread ((key, cursor) :: streams) = do
      let target ← parseStreamBound cursor true
      let found ← Store.xreadEntries target (d.entries key)
      let rest ← d.xread streams
      return if found = [] then rest else (key, found) :: rest := by
  rw [Store.xread]
  unfold Store.entries Store.slot
  rcases d key with _ | ⟨_ | _ | entries, expiresAt⟩ <;> rfl

/-- The cursors can be parsed. -/
def CursorsParse (streams : List (Bytes × Bytes)) : Prop :=
  ∀ stream ∈ streams, ∃ bound, parseStreamBound stream.2 true = .ok bound

/-- Streams were read, so their cursors can be parsed. -/
theorem cursorsParse_of_xread {streams : List (Bytes × Bytes)}
    {found : List (Bytes × List StreamEntry)} (h : d.xread streams = .ok found) :
    CursorsParse streams := by
  induction streams generalizing found with
  | nil => simp [CursorsParse]
  | cons stream streams ih =>
      rcases stream with ⟨key, cursor⟩
      rw [xread_cons] at h
      cases hcursor : parseStreamBound cursor true with
      | error e => simp [hcursor, bind, Except.bind] at h
      | ok target =>
          cases hfound : Store.xreadEntries target (d.entries key) with
          | error e => simp [hcursor, hfound, bind, Except.bind] at h
          | ok entries =>
              cases hrest : d.xread streams with
              | error e => simp [hcursor, hfound, hrest, bind, Except.bind] at h
              | ok rest =>
                  intro stream hmem
                  rcases List.mem_cons.mp hmem with rfl | hmem
                  · exact ⟨target, hcursor⟩
                  · exact ih hrest stream hmem

/-- Streams whose cursors can be parsed are read. -/
theorem xread_of_cursors (hd : d.Readable) {streams : List (Bytes × Bytes)}
    (hcursors : CursorsParse streams) : ∃ found, d.xread streams = .ok found := by
  induction streams with
  | nil => exact ⟨[], rfl⟩
  | cons stream streams ih =>
      rcases stream with ⟨key, cursor⟩
      rcases hcursors (key, cursor) List.mem_cons_self with ⟨target, htarget⟩
      rcases ih (fun stream hmem => hcursors stream (List.mem_cons_of_mem _ hmem)) with
        ⟨rest, hrest⟩
      rcases exists_xreadEntries target (hd key) with ⟨found, hfound⟩
      simp only [xread_cons, htarget, hfound, hrest, bind, Except.bind]
      exact ⟨_, rfl⟩

end Reading

/-! ## Commands -/

section Commands

variable {cmd : Command} {now : Reading} {d : Store}

/-- Identifiers can be read back behind every command. -/
theorem readable_of_dataActs (hd : d.Readable) (hadds : AddsReadable cmd now d)
    {result : CommandResult} (h : DataActs cmd now d result) : result.1.Readable := by
  cases h with
  | replied | blocked | waits | threw => exact hd
  | removed htype hkey hexpired response => exact hd.erase _
  | written htype hargs str expiresAt response => exact hd.put _ (by simp [Store.streamSlot])
  | pushed htype hargs => exact hd.put _ (by simp [Store.streamSlot])
  | @popped count d' values response htype hargs hcount hpop hreply =>
      have hpopped := hd.lpop (cmd.arg 0) count
      rw [hpop] at hpopped
      exact hpopped
  | @poppedNone key d' hpop e =>
      have hpopped := hd.lpop key 1
      rw [hpop] at hpopped
      exact hpopped
  | @blpopped key value d' more htype hkey hpop =>
      have hpopped := hd.lpop key 1
      rw [hpop] at hpopped
      exact hpopped
  | @appended htype hargs pair hid =>
      have hpair := hadds htype
      rw [hid] at hpair
      refine hd.put _ fun entry hmem => ?_
      rcases List.mem_append.mp hmem with hold | hnew
      · exact hd _ entry hold
      · rw [List.mem_singleton.mp hnew]
        exact ⟨pair, (decodes_iff ⟨hpair.2.2.1, hpair.2.2.2⟩).mpr ⟨hpair.1, hpair.2.1⟩⟩
  | created htype hargs hkey response => exact hd.put _ (by simp [Store.streamSlot])

/-- The last identifier of a stream can be parsed. -/
theorem exists_parseLastId (hd : d.Readable) (key : Bytes) :
    ∃ parts, parseLastId (Store.lastId (d.entries key)) = .ok parts := by
  unfold Store.lastId
  split
  · rename_i entry hlast
    rcases hd key entry (List.mem_of_getLast? hlast) with ⟨pair, hdecodes⟩
    exact ⟨_, hdecodes.1⟩
  · exact ⟨_, rfl⟩

/-- {lit}`XADD` replies for every identifier that it rejects. -/
theorem exists_xadd (hd : d.Readable) (key streamId : Bytes) (fields : List (Bytes × Bytes))
    (now : Int) : ∃ result, (d.xadd key streamId fields now).2 = .ok result := by
  unfold Store.xadd
  split
  · exact ⟨_, rfl⟩
  · simp only
    split
    · exact ⟨_, rfl⟩
    · exact ⟨_, rfl⟩
    · rename_i e hinvalid herror
      rcases generateStreamId_error (exists_parseLastId hd key) herror with ⟨what, rfl⟩
      exact absurd rfl (hinvalid what)

/-- A result that is there. -/
theorem exists_of_isOk {ε α : Type} {result : Except ε α} (h : result.isOk = true) :
    ∃ a, result = .ok a := by
  cases result with
  | ok a => exact ⟨a, rfl⟩
  | error e => cases h

/-- The check of the number of arguments does not throw. -/
theorem outcome_checked {n : Nat} {body : CommandResult}
    (h : n ≤ cmd.args.length → ∃ outcome, body.2 = .ok outcome) :
    ∃ outcome, (checked cmd n d body).2 = .ok outcome := by
  unfold checked checkArgs
  split
  · exact ⟨_, rfl⟩
  · rename_i hargs
    split at hargs
    · contradiction
    · exact h (by omega)

theorem outcome_set (htype : cmd.type = .set) (hnumbers : NumbersParse cmd) :
    ∃ outcome, (setExecute cmd now d).2 = .ok outcome := by
  apply outcome_checked
  intro hargs
  simp only [NumbersParse, htype] at hnumbers
  rcases exists_of_isOk (hnumbers hargs) with ⟨_ | ttl, hexpiry⟩
  · simp only [hexpiry]
    exact ⟨_, rfl⟩
  · simp only [hexpiry]
    split <;> exact ⟨_, rfl⟩

theorem outcome_lrange (htype : cmd.type = .lrange) (hnumbers : NumbersParse cmd) :
    ∃ outcome, (lrangeExecute cmd now d).2 = .ok outcome := by
  apply outcome_checked
  intro hargs
  simp only [NumbersParse, htype] at hnumbers
  rcases exists_of_isOk (hnumbers hargs).1 with ⟨start, hstart⟩
  rcases exists_of_isOk (hnumbers hargs).2 with ⟨stop, hstop⟩
  simp only [hstart, hstop]
  exact ⟨_, rfl⟩

/-- {lit}`LPOP` without a count has an element for its reply. -/
theorem Store.NoEmptyList.lpop_replies (hd : d.NoEmptyList) (hcount : cmd.args.length < 2) :
    ∃ outcome, (lpopExecute cmd now d).2 = .ok outcome := by
  apply outcome_checked
  intro _
  have hone : lpopCount cmd = .ok 1 := if_neg (by omega)
  simp only [hone]
  rcases hpop : d.lpop (cmd.arg 0) 1 with ⟨d', error | values⟩
  · exact ⟨_, rfl⟩
  · cases values with
    | nil => exact absurd hpop hd.lpop_one
    | cons value more =>
        simp only [lpopReply, if_pos hcount]
        exact ⟨_, rfl⟩

theorem outcome_lpop (hd : d.NoEmptyList) (htype : cmd.type = .lpop) (hnumbers : NumbersParse cmd) :
    ∃ outcome, (lpopExecute cmd now d).2 = .ok outcome := by
  by_cases hshort : cmd.args.length < 2
  · exact hd.lpop_replies hshort
  · apply outcome_checked
    intro hargs
    simp only [NumbersParse, htype] at hnumbers
    rcases exists_of_isOk (hnumbers hargs) with ⟨count, hcount⟩
    simp only [hcount]
    rcases hpop : d.lpop (cmd.arg 0) count with ⟨d', error | values⟩
    · exact ⟨_, rfl⟩
    · simp only [lpopReply, if_neg hshort]
      exact ⟨_, rfl⟩

/-- The loop of {lit}`BLPOP` over its keys does not fail. -/
theorem Store.NoEmptyList.blpopKeys_ok (hd : d.NoEmptyList) (keys : List Bytes) :
    ∃ found, (blpopKeys d keys).2 = .ok found := by
  rcases blpopKeys_cases d keys with
    ⟨key, -, d', value, more, -, hfound⟩ | ⟨key, -, d', e, hpop, -⟩ | ⟨-, hnone⟩
  · exact ⟨_, congrArg Prod.snd hfound⟩
  · exact absurd hpop hd.lpop_one
  · exact ⟨_, congrArg Prod.snd hnone⟩

theorem outcome_blpop (hd : d.NoEmptyList) (htype : cmd.type = .blpop)
    (hnumbers : NumbersParse cmd) : ∃ outcome, (blpopExecute cmd now d).2 = .ok outcome := by
  apply outcome_checked
  intro hargs
  simp only [NumbersParse, htype] at hnumbers
  rcases exists_of_isOk (hnumbers hargs) with ⟨timeout, htimeout⟩
  rcases hd.blpopKeys_ok cmd.args.dropLast with ⟨found, hfound⟩
  rcases hkeys : blpopKeys d cmd.args.dropLast with ⟨d', result⟩
  rw [hkeys] at hfound
  cases hfound
  simp only [htimeout]
  cases found with
  | none => exact ⟨_, rfl⟩
  | some element => exact ⟨_, rfl⟩

theorem outcome_xadd (hd : d.Readable) : ∃ outcome, (xaddExecute cmd now d).2 = .ok outcome := by
  unfold xaddExecute
  split
  · exact ⟨_, rfl⟩
  · rcases exists_xadd hd (cmd.arg 0) (cmd.arg 1) (pairs (cmd.args.drop 2)) now.system with
      ⟨error | id, hadd⟩
    · rcases hresult : d.xadd (cmd.arg 0) (cmd.arg 1) (pairs (cmd.args.drop 2)) now.system with
        ⟨d', result⟩
      rw [hresult] at hadd
      cases hadd
      exact ⟨_, rfl⟩
    · rcases hresult : d.xadd (cmd.arg 0) (cmd.arg 1) (pairs (cmd.args.drop 2)) now.system with
        ⟨d', result⟩
      rw [hresult] at hadd
      cases hadd
      exact ⟨_, rfl⟩

theorem outcome_xread (hd : d.Readable) :
    ∃ outcome, (xreadExecute cmd now d).2 = .ok outcome := by
  unfold xreadExecute
  simp only
  split
  · exact ⟨_, rfl⟩
  · rcases exists_resolveStreamIds hd ((parseXreadArgs cmd).keys.zip (parseXreadArgs cmd).ids) with
      ⟨resolved, hresolved⟩
    simp only [hresolved]
    split
    · exact ⟨_, rfl⟩
    · split
      · exact ⟨_, rfl⟩
      · split <;> exact ⟨_, rfl⟩

/-- A command whose numbers can be parsed does not throw. -/
theorem exists_outcome {body : Command → Reading → Store → CommandResult}
    (hbody : dataCommand cmd.type = some body) (hd : d.NoEmptyList) (hreadable : d.Readable)
    (hnumbers : NumbersParse cmd) : ∃ outcome, (body cmd now d).2 = .ok outcome := by
  cases htype : cmd.type <;> rw [htype] at hbody <;>
    simp only [dataCommand, Option.some.injEq, reduceCtorEq] at hbody <;> subst hbody
  case ping =>
    unfold pingExecute
    split <;> exact ⟨_, rfl⟩
  case echo => exact outcome_checked fun _ => ⟨_, rfl⟩
  case set => exact outcome_set htype hnumbers
  case get =>
    apply outcome_checked
    intro _
    split <;> exact ⟨_, rfl⟩
  case typeCmd => exact outcome_checked fun _ => ⟨_, rfl⟩
  case incr =>
    apply outcome_checked
    intro _
    split <;> exact ⟨_, rfl⟩
  case rpush => exact outcome_checked fun _ => ⟨_, rfl⟩
  case lpush => exact outcome_checked fun _ => ⟨_, rfl⟩
  case lrange => exact outcome_lrange htype hnumbers
  case llen => exact outcome_checked fun _ => ⟨_, rfl⟩
  case lpop => exact outcome_lpop hd htype hnumbers
  case blpop => exact outcome_blpop hd htype hnumbers
  case xadd => exact outcome_xadd hreadable
  case xrange =>
    unfold xrangeExecute
    split
    · exact ⟨_, rfl⟩
    · split <;> exact ⟨_, rfl⟩
  case xread => exact outcome_xread hreadable

/-- A result that is not there. -/
theorem exists_of_not_isOk {ε α : Type} {result : Except ε α} (h : ¬ result.isOk = true) :
    ∃ e, result = .error e := by
  cases result with
  | ok a => exact absurd rfl h
  | error e => exact ⟨e, rfl⟩

/-- A command whose numbers cannot be parsed throws. -/
theorem throws_of_not_numbersParse (hnumbers : ¬ NumbersParse cmd) :
    ∃ body e, dataCommand cmd.type = some body ∧ body cmd now d = (d, .error e) := by
  unfold NumbersParse at hnumbers
  split at hnumbers
  · rename_i htype
    rcases Classical.not_imp.mp hnumbers with ⟨hargs, hexpiry⟩
    rcases exists_of_not_isOk hexpiry with ⟨e, he⟩
    refine ⟨setExecute, e, by rw [htype]; rfl, ?_⟩
    rw [setExecute, checked_of_le hargs, he]
  · rename_i htype
    rcases Classical.not_imp.mp hnumbers with ⟨hargs, hindices⟩
    refine ⟨lrangeExecute, ?_⟩
    simp only [lrangeExecute]
    rw [checked_of_le hargs, htype]
    cases hstart : stoll (cmd.arg 1) with
    | error e => exact ⟨e, rfl, rfl⟩
    | ok start =>
        cases hstop : stoll (cmd.arg 2) with
        | error e => exact ⟨e, rfl, rfl⟩
        | ok stop => exact absurd ⟨by rw [hstart]; rfl, by rw [hstop]; rfl⟩ hindices
  · rename_i htype
    rcases Classical.not_imp.mp hnumbers with ⟨hargs, hcount⟩
    rcases exists_of_not_isOk hcount with ⟨e, he⟩
    refine ⟨lpopExecute, e, by rw [htype]; rfl, ?_⟩
    rw [lpopExecute, checked_of_le hargs, he]
  · rename_i htype
    rcases Classical.not_imp.mp hnumbers with ⟨hargs, htimeout⟩
    rcases exists_of_not_isOk htimeout with ⟨e, he⟩
    refine ⟨blpopExecute, e, by rw [htype]; rfl, ?_⟩
    rw [blpopExecute, checked_of_le hargs, he]
  · exact absurd trivial hnumbers

end Commands

end RedisClone
