import RedisClone.Store.StreamAutoIds

/-!
# Ranges and cursors over streams

{lit}`XRANGE` walks the entries and stops at the first one above its end;
{lit}`XREAD` returns the entries strictly above a cursor.  Both read the text of
every identifier they pass.  Behind a run of {lit}`XADD` without negative components
the entries are strictly ordered, so the early stop loses nothing, and a consumer
that hands the identifier of its last entry back to {lit}`XREAD` receives every entry
once.  The exception is a first cursor of 2^63 milliseconds or more: it is read as a
negative number and lies below every entry.

Main results:

- Theorem {lit}`xrange_exact`: {lit}`XRANGE` is an exact range query.
- Theorem {lit}`Consumer.sound_consume`: the invariant of a consumer over a whole run.
- Theorem {lit}`xread_cursor_exact`: a consumer neither skips nor repeats entries,
  exactly if its first cursor is below 2^63 milliseconds.
- Theorem {lit}`xread_cursor_wraps`: a first cursor above every identifier that still
  returns an entry.
-/

namespace RedisClone

open StreamUtils

/-! ## Entries with their numbers -/

/-- The bound that a pair without negative components is read as. -/
def boundOf (pair : Int × Int) : StreamBoundParts :=
  ⟨pair.1, pair.2.toNat⟩

/-- The entries of the stream, each with the pair validated for it. -/
def XaddRun.numbered (key : Bytes) (r : XaddRun) : List (StreamEntry × (Int × Int)) :=
  (r.store.entries key).zip r.validated

/-- Entries whose text is their pair, in increasing order. -/
structure EntriesOrdered (entries : List (StreamEntry × (Int × Int))) : Prop where
  id_eq : ∀ e ∈ entries, e.1.id = renderId e.2.1 e.2.2
  nonneg : ∀ e ∈ entries, 0 ≤ e.2.1 ∧ 0 ≤ e.2.2
  fits : ∀ e ∈ entries, Fits e.2
  ordered : entries.Pairwise fun a b => Precedes a.2 b.2

/-- The entries behind the first one. -/
theorem EntriesOrdered.tail {e : StreamEntry × (Int × Int)}
    {entries : List (StreamEntry × (Int × Int))} (h : EntriesOrdered (e :: entries)) :
    EntriesOrdered entries :=
  ⟨fun e' he => h.id_eq e' (List.mem_cons_of_mem _ he),
    fun e' he => h.nonneg e' (List.mem_cons_of_mem _ he),
    fun e' he => h.fits e' (List.mem_cons_of_mem _ he), h.ordered.of_cons⟩

/-- The identifier of an entry is read as its pair. -/
theorem EntriesOrdered.parse_id {entries : List (StreamEntry × (Int × Int))}
    (h : EntriesOrdered entries) {e : StreamEntry × (Int × Int)} (he : e ∈ entries)
    (isStart : Bool) :
    parseStreamBound e.1.id isStart = .ok (boundOf e.2) := by
  rw [h.id_eq e he]
  exact parseStreamBound_renderId (h.nonneg e he).1 (h.nonneg e he).2 (h.fits e he) isStart

/-- The entries and the pairs of a run have the same length. -/
theorem XaddRun.Ordered.length_eq {key : Bytes} {r : XaddRun} (h : r.Ordered key) :
    (r.store.entries key).length = r.validated.length := by
  simpa using congrArg List.length h.ids

/-- Without their pairs, the numbered entries are the entries. -/
theorem XaddRun.Ordered.map_fst {key : Bytes} {r : XaddRun} (h : r.Ordered key) :
    (r.numbered key).map Prod.fst = r.store.entries key :=
  List.map_fst_zip h.length_eq.le

/-- Without their entries, the numbered entries are the pairs. -/
theorem XaddRun.Ordered.map_snd {key : Bytes} {r : XaddRun} (h : r.Ordered key) :
    (r.numbered key).map Prod.snd = r.validated :=
  List.map_snd_zip h.length_eq.ge

/-- The entries of a run without negative components are in increasing order. -/
theorem XaddRun.Ordered.numbered {key : Bytes} {r : XaddRun} (h : r.Ordered key)
    (hpos : ∀ pair ∈ r.validated, 0 ≤ pair.1 ∧ 0 ≤ pair.2) : EntriesOrdered (r.numbered key) := by
  have hpair : ∀ e ∈ r.numbered key, e.2 ∈ r.validated := fun e he => (List.of_mem_zip he).2
  refine ⟨?_, fun e he => hpos _ (hpair e he), fun e he => h.fits _ (hpair e he), ?_⟩
  · have hids : (r.numbered key).map (fun e => e.1.id) =
        (r.numbered key).map fun e => renderId e.2.1 e.2.2 := by
      have hentries := congrArg (List.map StreamEntry.id) h.map_fst
      have hpairs := congrArg (List.map fun pair => renderId pair.1 pair.2) h.map_snd
      rw [List.map_map] at hentries hpairs
      exact hentries.trans (h.ids.trans hpairs.symm)
    intro e he
    exact List.map_inj_left.mp hids e he
  · have : IsTrans (Int × Int) Precedes := ⟨fun _ _ _ => Precedes.trans⟩
    have hpairs := List.isChain_iff_pairwise.mp (h.increasing hpos)
    rw [← h.map_snd, List.pairwise_map] at hpairs
    exact hpairs

/-- The stream at a key, or nothing at all. -/
theorem lookup_of_kind {d : Store} {key : Bytes} (hkind : d.holdsOther key = false) :
    (d key = none ∧ d.entries key = []) ∨
      ∃ expiresAt, d key = some ⟨.stream (d.entries key), expiresAt⟩ := by
  unfold Store.holdsOther at hkind
  cases hvalue : d key with
  | none =>
      left
      simp [Store.entries, Store.slot, hvalue, StoreValue.default, Store.streamSlot]
  | some v =>
      right
      rcases v with ⟨value, expiresAt⟩
      cases value with
      | stream entries =>
          exact ⟨expiresAt, by simp [Store.entries, Store.slot, hvalue, Store.streamSlot]⟩
      | string s => simp [hvalue] at hkind
      | list l => simp [hvalue] at hkind

/-! ## Comparisons on pairs -/

/-- Decision of the order. -/
instance (first second : Int × Int) : Decidable (Precedes first second) :=
  inferInstanceAs (Decidable (_ ∨ _))

/-- A bound above another. -/
theorem above_iff {a b : StreamBoundParts} :
    Store.above a b = true ↔ a.ms > b.ms ∨ (a.ms = b.ms ∧ a.seq > b.seq) := by
  simp [Store.above]

/-- A bound that is not below another. -/
theorem notBelow_iff {a b : StreamBoundParts} :
    Store.notBelow a b = true ↔ a.ms > b.ms ∨ (a.ms = b.ms ∧ a.seq ≥ b.seq) := by
  simp [Store.notBelow]

/-- The comparison with an end, on pairs. -/
theorem above_boundOf {a b : Int × Int} (ha : 0 ≤ a.2) (hb : 0 ≤ b.2) :
    Store.above (boundOf a) (boundOf b) = decide (Precedes b a) := by
  rw [Bool.eq_iff_iff, above_iff, decide_eq_true_iff]
  simp only [boundOf, Precedes]
  omega

/-- The comparison with a start, on pairs. -/
theorem notBelow_boundOf {a b : Int × Int} (ha : 0 ≤ a.2) (hb : 0 ≤ b.2) :
    Store.notBelow (boundOf a) (boundOf b) = !decide (Precedes a b) := by
  rw [← decide_not, Bool.eq_iff_iff, notBelow_iff, decide_eq_true_iff]
  simp only [boundOf, Precedes]
  omega

/-- What lies above a bound is passed upwards. -/
theorem above_of_precedes {a b : Int × Int} (hab : Precedes a b)
    {last : StreamBoundParts} (h : Store.above (boundOf a) last = true) :
    Store.above (boundOf b) last = true := by
  rw [above_iff] at h ⊢
  simp only [boundOf, Precedes] at *
  omega

/-! ## {lit}`XRANGE` -/

/-- The loop of {lit}`xrange` over ordered entries: behind the first entry above the
end, every entry is above the end. -/
theorem xrangeEntries_eq (first last : StreamBoundParts)
    {entries : List (StreamEntry × (Int × Int))} (h : EntriesOrdered entries) :
    Store.xrangeEntries first last (entries.map Prod.fst) =
      .ok ((entries.filter fun e => Store.notBelow (boundOf e.2) first &&
        !Store.above (boundOf e.2) last).map Prod.fst) := by
  induction entries with
  | nil => rfl
  | cons e entries ih =>
      simp only [List.map_cons, Store.xrangeEntries, h.parse_id (List.mem_cons_self) true, bind,
        Except.bind]
      split
      · rename_i habove
        have hrest : (e :: entries).filter (fun e => Store.notBelow (boundOf e.2) first &&
            !Store.above (boundOf e.2) last) = [] := by
          rw [List.filter_eq_nil_iff]
          intro e' he'
          have habove' : Store.above (boundOf e'.2) last = true := by
            rcases List.mem_cons.mp he' with rfl | hmem
            · exact habove
            · exact above_of_precedes ((List.pairwise_cons.mp h.ordered).1 e' hmem) habove
          simp [habove']
        rw [hrest]
        rfl
      · rename_i habove
        rw [ih h.tail]
        simp only [pure, Except.pure, Bool.not_eq_true] at habove ⊢
        by_cases hbelow : Store.notBelow (boundOf e.2) first = true <;>
          simp [hbelow, habove]

/-- The bounds of a range. -/
inductive RangeBound where
  | least
  | greatest
  | bare (ms : Numeral 9223372036854775808)
  | full (ms : Numeral 9223372036854775808) (seq : Numeral 18446744073709551616)

/-- The text of a bound. -/
def RangeBound.text : RangeBound → Bytes
  | .least => ascii "-"
  | .greatest => ascii "+"
  | .bare ms => ms.text
  | .full ms seq => ms.text ++ 45 :: seq.text

/-- The pair that a bound stands for; milliseconds alone are completed. -/
def RangeBound.pair (completed : Nat) : RangeBound → Int × Int
  | .least => (0, 0)
  | .greatest => (longLongMax, 18446744073709551615)
  | .bare ms => (ms.value, completed)
  | .full ms seq => (ms.value, seq.value)

/-- Where a range starts. -/
def RangeBound.first (b : RangeBound) : Int × Int :=
  b.pair 0

/-- Where a range ends. -/
def RangeBound.last (b : RangeBound) : Int × Int :=
  b.pair 18446744073709551615

/-- A numeral alone has no dash to split at. -/
theorem StreamUtils.Numeral.splitDash_eq_none {limit : Nat} (n : Numeral limit) :
    splitDash n.text = none := by
  unfold splitDash
  rw [List.dropWhile_eq_nil_iff.mpr n.ne_dash]

/-- {lit}`parse_stream_bound` reads a cursor with milliseconds below 2^64. -/
theorem parseStreamBound_msSeq (ms seq : Numeral 18446744073709551616) (isStart : Bool) :
    parseStreamBound (ms.text ++ 45 :: seq.text) isStart =
      .ok ⟨toLongLong ms.value, seq.value⟩ := by
  have hdash : ms.text ++ 45 :: seq.text ≠ ascii "-" := ms.append_ne_special _ (by decide)
  have hplus : ms.text ++ 45 :: seq.text ≠ ascii "+" := ms.append_ne_special _ (by decide)
  unfold parseStreamBound
  rw [if_neg hdash, if_neg hplus, ms.splitDash_text]
  simp [component, ms.stoull_text (by decide), seq.stoull_text (by decide), Except.map, bind,
    Except.bind, pure, Except.pure]

/-- {lit}`parse_stream_bound` reads a bound as its pair. -/
theorem parseStreamBound_text (b : RangeBound) (isStart : Bool) :
    parseStreamBound b.text isStart =
      .ok (boundOf (b.pair (if isStart then 0 else 18446744073709551615))) := by
  cases b with
  | least => cases isStart <;> decide
  | greatest => cases isStart <;> decide
  | bare ms =>
      have hdash : ms.text ≠ ascii "-" := by
        rw [← List.append_nil ms.text]
        exact ms.append_ne_special [] (by decide)
      have hplus : ms.text ≠ ascii "+" := by
        rw [← List.append_nil ms.text]
        exact ms.append_ne_special [] (by decide)
      unfold RangeBound.text parseStreamBound
      simp only [if_neg hdash, if_neg hplus, ms.splitDash_eq_none, ms.component_text, bind,
        Except.bind, pure, Except.pure, boundOf, RangeBound.pair]
      cases isStart <;> rfl
  | full ms seq =>
      have hdash : ms.text ++ 45 :: seq.text ≠ ascii "-" := ms.append_ne_special _ (by decide)
      have hplus : ms.text ++ 45 :: seq.text ≠ ascii "+" := ms.append_ne_special _ (by decide)
      unfold RangeBound.text parseStreamBound
      simp [if_neg hdash, if_neg hplus, ms.splitDash_text, ms.component_text,
        seq.stoull_text (by decide), bind, Except.bind, pure, Except.pure, boundOf,
        RangeBound.pair]

/-- The sequence number of a bound is not negative. -/
theorem RangeBound.pair_nonneg (completed : Nat) (b : RangeBound) : 0 ≤ (b.pair completed).2 := by
  cases b <;> simp [RangeBound.pair]

/-- The entries of a stream between two bounds. -/
def XaddRun.between (key : Bytes) (r : XaddRun) (first last : Int × Int) : List StreamEntry :=
  ((r.numbered key).filter fun e => ¬ Precedes e.2 first ∧ ¬ Precedes last e.2).map Prod.fst

/-- {lit}`XRANGE` over the entries behind a run. -/
theorem xrange_eq_between {key : Bytes} {r : XaddRun} (h : r.Ordered key)
    (hpos : ∀ pair ∈ r.validated, 0 ≤ pair.1 ∧ 0 ≤ pair.2) (start stop : RangeBound) :
    r.store.xrange key start.text stop.text = .ok (r.between key start.first stop.last) := by
  have hnumbered := h.numbered hpos
  have hfilter : r.between key start.first stop.last =
      ((r.numbered key).filter fun e => Store.notBelow (boundOf e.2) (boundOf start.first) &&
        !Store.above (boundOf e.2) (boundOf stop.last)).map Prod.fst := by
    unfold XaddRun.between
    congr 1
    refine List.filter_congr fun e he => ?_
    have hseq := (hnumbered.nonneg e he).2
    have hfirst : 0 ≤ start.first.2 := start.pair_nonneg _
    have hlast : 0 ≤ stop.last.2 := stop.pair_nonneg _
    rw [notBelow_boundOf hseq hfirst, above_boundOf hseq hlast]
    simp
  rcases lookup_of_kind h.kind with ⟨hnone, hnil⟩ | ⟨expiresAt, hsome⟩
  · have hempty : r.numbered key = [] := by simp [XaddRun.numbered, hnil]
    simp [Store.xrange, hnone, XaddRun.between, hempty]
  · unfold Store.xrange
    rw [hsome]
    simp only [parseStreamBound_text, bind, Except.bind]
    rw [← h.map_fst, xrangeEntries_eq _ _ hnumbered, hfilter]
    rfl

/-- {lit}`XRANGE` is an exact range query: behind every run of {lit}`XADD` on a key
that was not set, as long as no component is negative, every entry has the pair
validated for it as its identifier, and a range between any two bounds returns the
entries whose pair lies neither below the start nor above the end, in the order in
which they were added. -/
theorem xrange_exact {key : Bytes} {d : Store} (hkey : d key = none) (calls : List XaddCall)
    (hpos : ∀ pair ∈ (xaddAll key d calls).validated, 0 ≤ pair.1 ∧ 0 ≤ pair.2)
    (start stop : RangeBound) :
    ((xaddAll key d calls).store.entries key).map StreamEntry.id =
        (xaddAll key d calls).validated.map (fun pair => renderId pair.1 pair.2) ∧
      (xaddAll key d calls).store.xrange key start.text stop.text =
        .ok ((xaddAll key d calls).between key start.first stop.last) :=
  ⟨(ordered_xaddAll hkey calls).ids, xrange_eq_between (ordered_xaddAll hkey calls) hpos start stop⟩

/-- The numeral 1. -/
def msOne : Numeral 9223372036854775808 :=
  ⟨ascii "1", by decide, by decide +kernel, by decide +kernel⟩

/-- {lit}`XRANGE s - 1` leaves the entry of millisecond 7 out. -/
theorem xrange_exact_sample :
    (xaddAll (ascii "s") Store.empty increasingCalls).store.xrange (ascii "s")
        RangeBound.least.text (RangeBound.bare msOne).text =
      .ok [⟨ascii "1-5", []⟩, ⟨ascii "1-6", []⟩] := by
  have hvalidated : (xaddAll (ascii "s") Store.empty increasingCalls).validated =
      [(1, 5), (1, 6), (7, 0)] := by
    decide +kernel
  rw [(@xrange_exact (ascii "s") Store.empty rfl increasingCalls
    (by rw [hvalidated]; decide) .least (.bare msOne)).2]
  decide +kernel

/-! ## {lit}`XREAD` -/

/-- The entries of a stream above a cursor. -/
def XaddRun.aboveCursor (key : Bytes) (r : XaddRun) (cursor : Int × Int) : List StreamEntry :=
  ((r.numbered key).filter fun e => Precedes cursor e.2).map Prod.fst

/-- The inner loop of {lit}`xread` over entries with their numbers. -/
theorem xreadEntries_eq (target : StreamBoundParts)
    {entries : List (StreamEntry × (Int × Int))} (h : EntriesOrdered entries) :
    Store.xreadEntries target (entries.map Prod.fst) =
      .ok ((entries.filter fun e => Store.above (boundOf e.2) target).map Prod.fst) := by
  induction entries with
  | nil => rfl
  | cons e entries ih =>
      simp only [List.map_cons, Store.xreadEntries, h.parse_id (List.mem_cons_self) true,
        ih h.tail, bind, Except.bind, pure, Except.pure]
      by_cases habove : Store.above (boundOf e.2) target = true <;> simp [habove]

/-- The reply of {lit}`xread` for one stream: nothing, or the stream with its
entries. -/
def oneStream (key : Bytes) (entries : List StreamEntry) : List (Bytes × List StreamEntry) :=
  if entries = [] then [] else [(key, entries)]

/-- {lit}`XREAD` of one stream behind a run, with a cursor that is read as the
bound. -/
theorem xread_eq {key : Bytes} {r : XaddRun} (h : r.Ordered key)
    (hpos : ∀ pair ∈ r.validated, 0 ≤ pair.1 ∧ 0 ≤ pair.2) {cursor : Bytes}
    {target : StreamBoundParts} (hcursor : parseStreamBound cursor true = .ok target) :
    r.store.xread [(key, cursor)] = .ok (oneStream key
      (((r.numbered key).filter fun e => Store.above (boundOf e.2) target).map Prod.fst)) := by
  have hnumbered := h.numbered hpos
  rcases lookup_of_kind h.kind with ⟨hnone, hnil⟩ | ⟨expiresAt, hsome⟩
  · have hempty : r.numbered key = [] := by simp [XaddRun.numbered, hnil]
    simp [Store.xread, hcursor, hnone, hempty, oneStream, bind, Except.bind, pure, Except.pure]
  · unfold Store.xread
    rw [hcursor, hsome]
    simp only [bind, Except.bind, pure, Except.pure]
    rw [← h.map_fst, xreadEntries_eq _ hnumbered]
    rfl

/-- {lit}`XREAD` with a cursor that is read as its pair. -/
theorem xread_eq_aboveCursor {key : Bytes} {r : XaddRun} (h : r.Ordered key)
    (hpos : ∀ pair ∈ r.validated, 0 ≤ pair.1 ∧ 0 ≤ pair.2) {cursor : Bytes}
    {pair : Int × Int} (hpair : 0 ≤ pair.2)
    (hcursor : parseStreamBound cursor true = .ok (boundOf pair)) :
    r.store.xread [(key, cursor)] = .ok (oneStream key (r.aboveCursor key pair)) := by
  rw [xread_eq h hpos hcursor]
  unfold XaddRun.aboveCursor
  congr 3
  refine List.filter_congr fun e he => ?_
  exact above_boundOf ((h.numbered hpos).nonneg e he).2 hpair

/-! ## A consumer -/

/-- A first cursor: any identifier of two 64-bit components. -/
structure Cursor where
  ms : Numeral 18446744073709551616
  seq : Numeral 18446744073709551616

/-- The text of a cursor. -/
def Cursor.text (c : Cursor) : Bytes :=
  c.ms.text ++ 45 :: c.seq.text

/-- The identifier that a cursor denotes. -/
def Cursor.pair (c : Cursor) : Int × Int :=
  (c.ms.value, c.seq.value)

/-- A consumer of a stream: the stream so far, the cursor for the next read, what was
received, and how many entries the stream had at the last read. -/
structure Consumer where
  run : XaddRun
  cursor : Bytes
  received : List StreamEntry
  seen : Nat

/-- What happens to a stream and its consumer. -/
inductive ConsumerEvent where
  | add (call : XaddCall)
  | read

/-- The entries in the reply of {lit}`xread`. -/
def entriesOf : Except Exception (List (Bytes × List StreamEntry)) → List StreamEntry
  | .ok results => results.flatMap Prod.snd
  | .error _ => []

/-- One event; behind a read the cursor is the identifier of the last entry received. -/
def Consumer.step (key : Bytes) (c : Consumer) : ConsumerEvent → Consumer
  | .add call => { c with run := c.run.add key call }
  | .read =>
      let entries := entriesOf (c.run.store.xread [(key, c.cursor)])
      { c with
        cursor := (entries.getLast?.map StreamEntry.id).getD c.cursor
        received := c.received ++ entries
        seen := (c.run.store.entries key).length }

/-- A consumer of a stream that does not exist yet. -/
def Consumer.start (d : Store) (cursor : Cursor) : Consumer :=
  ⟨⟨d, []⟩, cursor.text, [], 0⟩

/-- A run of the stream and its consumer. -/
def consume (key : Bytes) (d : Store) (cursor : Cursor) (events : List ConsumerEvent) : Consumer :=
  events.foldl (Consumer.step key) (Consumer.start d cursor)

/-- No entry was given a negative component. -/
def Consumer.Nonneg (c : Consumer) : Prop :=
  ∀ pair ∈ c.run.validated, 0 ≤ pair.1 ∧ 0 ≤ pair.2

/-- What was received is what existed at the last read above the first cursor, and a
read would return the entries that {lit}`XRANGE key - +` returns, restricted to those
above a given cursor. -/
structure Consumer.Exact (key : Bytes) (start : Cursor) (c : Consumer) : Prop where
  received_eq : c.received =
    (((c.run.numbered key).take c.seen).filter fun e => Precedes start.pair e.2).map Prod.fst
  read_eq : c.run.store.xrange key (ascii "-") (ascii "+") =
      .ok ((c.run.numbered key).map Prod.fst) ∧
    c.run.store.xread [(key, start.text)] =
      .ok (oneStream key (c.run.aboveCursor key start.pair))

/-! ## The invariant of a consumer -/

/-- The entry that an accepted call adds, with its pair. -/
def XaddRun.added (key : Bytes) (r : XaddRun) (call : XaddCall) :
    List (StreamEntry × (Int × Int)) :=
  match validatedId call.streamId (Store.lastId (r.store.entries key)) call.now with
  | .ok pair => [(⟨renderId pair.1 pair.2, call.fields⟩, pair)]
  | .error _ => []

/-- A call adds to the numbered entries. -/
theorem numbered_add {key : Bytes} {r : XaddRun} (h : r.Ordered key) (call : XaddCall) :
    (r.add key call).numbered key = r.numbered key ++ r.added key call := by
  have hentries := (entries_xadd h.kind call.streamId call.fields call.now).2
  unfold XaddRun.numbered XaddRun.add XaddRun.added
  simp only [hentries]
  cases validatedId call.streamId (Store.lastId (r.store.entries key)) call.now with
  | error e => simp
  | ok pair => rw [List.zip_append h.length_eq]; rfl

/-- A call keeps the pairs validated before it. -/
theorem mem_validated_add {key : Bytes} {r : XaddRun} {call : XaddCall} {pair : Int × Int}
    (h : pair ∈ r.validated) : pair ∈ (r.add key call).validated :=
  List.mem_append_left _ h

/-- A consumer whose cursor separates what it has seen from what is new. -/
structure Consumer.Tracks (key : Bytes) (start : Cursor) (c : Consumer) : Prop where
  seen_le : c.seen ≤ (c.run.numbered key).length
  received_eq : c.received =
    (((c.run.numbered key).take c.seen).filter fun e => Precedes start.pair e.2).map Prod.fst
  cursor_reads : ∃ pair, 0 ≤ pair.2 ∧ parseStreamBound c.cursor true = .ok (boundOf pair) ∧
    (∀ e ∈ (c.run.numbered key).take c.seen, ¬ Precedes pair e.2) ∧
    (∀ e ∈ (c.run.numbered key).drop c.seen, Precedes pair e.2 ↔ Precedes start.pair e.2) ∧
    (pair = start.pair ∨ Precedes start.pair pair ∧ pair ∈ c.run.validated)

/-- No pair lies below itself. -/
theorem Precedes.irrefl (pair : Int × Int) : ¬ Precedes pair pair := by
  unfold Precedes
  omega

/-- A call leaves what was seen in place; what it adds lies above every pair before. -/
theorem Consumer.Tracks.add {key : Bytes} {start : Cursor} {c : Consumer}
    (hordered : c.run.Ordered key) (h : c.Tracks key start) (call : XaddCall)
    (hnonneg : (c.step key (.add call)).Nonneg) : (c.step key (.add call)).Tracks key start := by
  have hadd := numbered_add hordered call
  have hnumbered := (ordered_add hordered call).numbered hnonneg
  have htake : ((c.run.add key call).numbered key).take c.seen =
      (c.run.numbered key).take c.seen := by
    rw [hadd, List.take_append_of_le_length h.seen_le]
  have hdrop : ((c.run.add key call).numbered key).drop c.seen =
      (c.run.numbered key).drop c.seen ++ c.run.added key call := by
    rw [hadd, List.drop_append_of_le_length h.seen_le]
  rcases h.cursor_reads with ⟨pair, hseq, hparse, hold, hnew, horigin⟩
  have hlength : c.seen ≤ ((c.run.add key call).numbered key).length := by
    rw [hadd, List.length_append]
    exact Nat.le_add_right_of_le h.seen_le
  refine ⟨hlength, ?_, pair, hseq, hparse, ?_, ?_, ?_⟩
  · change c.received = ((((c.run.add key call).numbered key).take c.seen).filter _).map _
    rw [htake]
    exact h.received_eq
  · intro e he
    exact hold e (htake ▸ he)
  · intro e he
    rcases List.mem_append.mp (hdrop ▸ he) with hmem | hmem
    · exact hnew e hmem
    · rcases horigin with rfl | ⟨habove, hvalid⟩
      · rfl
      · -- the entry of the cursor precedes the new one
        rw [← hordered.map_snd] at hvalid
        rcases List.mem_map.mp hvalid with ⟨e', he', rfl⟩
        have hpairs := hnumbered.ordered
        change List.Pairwise _ ((c.run.add key call).numbered key) at hpairs
        rw [hadd] at hpairs
        have hprecedes := (List.pairwise_append.mp hpairs).2.2 e' he' e hmem
        exact ⟨fun _ => Precedes.trans habove hprecedes, fun _ => hprecedes⟩
  · exact horigin.imp_right (And.imp_right mem_validated_add)

/-- The entries above the cursor are those of the new ones that lie above the first
cursor. -/
theorem filter_cursor {entries : List (StreamEntry × (Int × Int))} {seen : Nat}
    {start pair : Int × Int} (hold : ∀ e ∈ entries.take seen, ¬ Precedes pair e.2)
    (hnew : ∀ e ∈ entries.drop seen, Precedes pair e.2 ↔ Precedes start e.2) :
    entries.filter (fun e => Precedes pair e.2) =
      (entries.drop seen).filter fun e => Precedes start e.2 := by
  have htake : (entries.take seen).filter (fun e => Precedes pair e.2) = [] :=
    List.filter_eq_nil_iff.mpr (by simpa using hold)
  conv_lhs => rw [← List.take_append_drop seen entries]
  rw [List.filter_append, htake, List.nil_append]
  exact List.filter_congr fun e he => by simp [hnew e he]

/-- What a read returns: the entries that are new. -/
theorem Consumer.Tracks.read_entries {key : Bytes} {start : Cursor} {c : Consumer}
    (hordered : c.run.Ordered key) (hnonneg : c.Nonneg) (h : c.Tracks key start) :
    entriesOf (c.run.store.xread [(key, c.cursor)]) =
      (((c.run.numbered key).drop c.seen).filter fun e =>
        Precedes start.pair e.2).map Prod.fst := by
  rcases h.cursor_reads with ⟨pair, hseq, hparse, hold, hnew, -⟩
  rw [xread_eq_aboveCursor hordered hnonneg hseq hparse, XaddRun.aboveCursor,
    filter_cursor hold hnew]
  unfold entriesOf oneStream
  split
  · rename_i heq
    split at heq
    · rename_i hempty
      cases heq
      simp [hempty]
    · cases heq
      simp
  · contradiction

/-- The last entry received is the greatest of the stream. -/
theorem not_precedes_last {entries new : List (StreamEntry × (Int × Int))}
    (h : EntriesOrdered entries) {start : Int × Int}
    (hnew : new = entries.filter fun e => Precedes start e.2)
    {last : StreamEntry × (Int × Int)} (hlast : new.getLast? = some last) :
    ∀ e ∈ entries, ¬ Precedes last.2 e.2 := by
  intro e he habove
  have hmem : last ∈ new := List.mem_of_getLast? hlast
  have hstart : Precedes start last.2 := by
    rw [hnew] at hmem
    simpa using (List.mem_filter.mp hmem).2
  have hin : e ∈ new := by
    rw [hnew]
    exact List.mem_filter.mpr ⟨he, by simpa using Precedes.trans hstart habove⟩
  have hpairs : new.Pairwise fun a b => Precedes a.2 b.2 := by
    rw [hnew]
    exact h.ordered.filter _
  rcases List.getLast?_eq_some_iff.mp hlast with ⟨init, rfl⟩
  rcases List.mem_append.mp hin with hinit | hsame
  · have hbelow := (List.pairwise_append.mp hpairs).2.2 e hinit last (by simp)
    exact Precedes.irrefl _ (Precedes.trans habove hbelow)
  · rw [List.mem_singleton.mp hsame] at habove
    exact Precedes.irrefl _ habove

/-- A read receives what is new, and moves the cursor behind it. -/
theorem Consumer.Tracks.read {key : Bytes} {start : Cursor} {c : Consumer}
    (hordered : c.run.Ordered key) (hnonneg : c.Nonneg) (h : c.Tracks key start) :
    (c.step key .read).Tracks key start := by
  have hnumbered := hordered.numbered hnonneg
  have hread := h.read_entries hordered hnonneg
  have hlength : (c.run.store.entries key).length = (c.run.numbered key).length := by
    rw [← hordered.map_fst, List.length_map]
  have hstep : c.step key .read =
      { c with
        cursor := (((((c.run.numbered key).drop c.seen).filter fun e =>
          Precedes start.pair e.2).map Prod.fst).getLast?.map StreamEntry.id).getD c.cursor
        received := c.received ++ (((c.run.numbered key).drop c.seen).filter fun e =>
          Precedes start.pair e.2).map Prod.fst
        seen := (c.run.numbered key).length } := by
    simp only [Consumer.step, hread, hlength]
  rcases h.cursor_reads with ⟨pair, hseq, hparse, hold, hnew, horigin⟩
  rw [hstep]
  refine ⟨le_rfl, ?_, ?_⟩
  · simp only
    rw [h.received_eq, ← List.map_append, ← List.filter_append, List.take_append_drop,
      List.take_length]
  · simp only [List.take_length, List.drop_length]
    cases hlast : (((c.run.numbered key).drop c.seen).filter fun e =>
        Precedes start.pair e.2).getLast? with
    | none =>
        -- nothing is new: the cursor stays
        have hempty := List.getLast?_eq_none_iff.mp hlast
        refine ⟨pair, hseq, ?_, ?_, by simp, horigin⟩
        · rw [hempty]
          exact hparse
        · intro e he
          rw [← List.take_append_drop c.seen (c.run.numbered key)] at he
          rcases List.mem_append.mp he with hmem | hmem
          · exact hold e hmem
          · have hnot := List.filter_eq_nil_iff.mp hempty e hmem
            rw [hnew e hmem]
            simpa using hnot
    | some last =>
        have hmem := (List.mem_filter.mp (List.mem_of_getLast? hlast))
        have hin : last ∈ c.run.numbered key := List.mem_of_mem_drop hmem.1
        refine ⟨last.2, (hnumbered.nonneg last hin).2, ?_, ?_, by simp, Or.inr ⟨?_, ?_⟩⟩
        · rw [List.getLast?_map, hlast]
          exact hnumbered.parse_id hin true
        · exact not_precedes_last hnumbered (filter_cursor hold hnew).symm hlast
        · simpa using hmem.2
        · rw [← hordered.map_snd]
          exact List.mem_map_of_mem hin

/-- The invariant of a consumer: the order of the stream, and the cursor as long as no
component is negative. -/
structure Consumer.Sound (key : Bytes) (start : Cursor) (c : Consumer) : Prop where
  ordered : c.run.Ordered key
  tracks : c.Nonneg → c.Tracks key start

/-- A cursor below 2^63 milliseconds is read as its pair. -/
theorem Cursor.parse_text {c : Cursor} (hms : c.ms.value < 9223372036854775808) :
    parseStreamBound c.text true = .ok (boundOf c.pair) := by
  unfold Cursor.text
  rw [parseStreamBound_msSeq]
  simp [toLongLong, hms, boundOf, Cursor.pair]

/-- A consumer of a stream that does not exist yet has seen nothing. -/
theorem Consumer.sound_start {key : Bytes} {d : Store} (hkey : d key = none) {start : Cursor}
    (hms : start.ms.value < 9223372036854775808) : (Consumer.start d start).Sound key start := by
  have hordered : (Consumer.start d start).run.Ordered key := ordered_xaddAll hkey []
  have hnil : (Consumer.start d start).run.numbered key = [] := by
    simp [Consumer.start, XaddRun.numbered]
  refine ⟨hordered, fun _ => ⟨Nat.zero_le _, ?_, start.pair, ?_, ?_, ?_, ?_, Or.inl rfl⟩⟩
  · rw [hnil]
    rfl
  · simp [Cursor.pair]
  · exact Cursor.parse_text hms
  · simp [hnil]
  · simp [hnil]

/-- One event keeps the invariant. -/
theorem Consumer.sound_step {key : Bytes} {start : Cursor} {c : Consumer}
    (h : c.Sound key start) (event : ConsumerEvent) : (c.step key event).Sound key start := by
  cases event with
  | add call =>
      refine ⟨ordered_add h.ordered call, fun hnonneg => ?_⟩
      have hbefore : c.Nonneg := fun pair hmem => hnonneg pair (mem_validated_add hmem)
      exact (h.tracks hbefore).add h.ordered call hnonneg
  | read =>
      exact ⟨h.ordered, fun hnonneg => (h.tracks hnonneg).read h.ordered hnonneg⟩

/-- A whole run keeps the invariant. -/
theorem Consumer.sound_consume {key : Bytes} {d : Store} (hkey : d key = none) {start : Cursor}
    (hms : start.ms.value < 9223372036854775808) (events : List ConsumerEvent) :
    (consume key d start events).Sound key start := by
  have hstart := Consumer.sound_start hkey hms
  unfold consume
  generalize Consumer.start d start = c at hstart
  induction events generalizing c with
  | nil => exact hstart
  | cons event events ih => exact ih _ (Consumer.sound_step hstart event)

/-- {lit}`XRANGE key - +` returns all entries. -/
theorem xrange_all {key : Bytes} {r : XaddRun} (h : r.Ordered key)
    (hpos : ∀ pair ∈ r.validated, 0 ≤ pair.1 ∧ 0 ≤ pair.2) :
    r.store.xrange key (ascii "-") (ascii "+") = .ok ((r.numbered key).map Prod.fst) := by
  have hrange := xrange_eq_between h hpos .least .greatest
  have hall : r.between key RangeBound.least.first RangeBound.greatest.last =
      (r.numbered key).map Prod.fst := by
    unfold XaddRun.between
    rw [List.filter_eq_self.mpr]
    intro e he
    have hnonneg := (h.numbered hpos).nonneg e he
    have hfits := (h.numbered hpos).fits e he
    apply decide_eq_true
    simp only [RangeBound.first, RangeBound.last, RangeBound.pair, Precedes]
    unfold Fits at hfits
    unfold longLongMax at *
    omega
  rw [hall] at hrange
  exact hrange

/-- {lit}`XADD key 1-1`. -/
def addOneOne : XaddCall :=
  ⟨ascii "1-1", [], 0, zero_le_longLongMax⟩

/-- On a key that was not set this is the only entry. -/
theorem numbered_addOneOne {key : Bytes} {d : Store} (hkey : d key = none) :
    ((XaddRun.mk d []).add key addOneOne).validated = [(1, 1)] ∧
      ∃ entry, ((XaddRun.mk d []).add key addOneOne).numbered key = [(entry, (1, 1))] := by
  have hordered : ((XaddRun.mk d []).add key addOneOne).Ordered key :=
    ordered_xaddAll hkey [addOneOne]
  have hlast : Store.lastId ((XaddRun.mk d []).store.entries key) = [] := by
    simp [Store.entries, Store.slot, hkey, StoreValue.default, Store.streamSlot, Store.lastId]
  have hvalid : validatedId addOneOne.streamId [] addOneOne.now = .ok (1, 1) := by decide +kernel
  have hvalidated : ((XaddRun.mk d []).add key addOneOne).validated = [(1, 1)] := by
    simp only [XaddRun.add, hlast, hvalid, List.nil_append]
  refine ⟨hvalidated, ?_⟩
  have hlength := congrArg List.length hordered.map_snd
  rw [hvalidated, List.length_map, List.length_singleton] at hlength
  rcases List.length_eq_one_iff.mp hlength with ⟨e, hsingle⟩
  have hpair : e.2 = (1, 1) := by
    have hmem : e ∈ ((XaddRun.mk d []).add key addOneOne).numbered key := by simp [hsingle]
    simpa [hvalidated] using (List.of_mem_zip hmem).2
  exact ⟨e.1, by rw [hsingle, ← hpair]⟩

/-- A cursor of 2^63 milliseconds or more lets the entry 1-1 through, which lies below
it. -/
theorem not_exact_of_wraps {key : Bytes} {d : Store} (hkey : d key = none) {start : Cursor}
    (hms : ¬ start.ms.value < 9223372036854775808) :
    (consume key d start [.add addOneOne]).Nonneg ∧
      ¬ (consume key d start [.add addOneOne]).Exact key start := by
  rcases numbered_addOneOne hkey with ⟨hvalidated, entry, hsingle⟩
  have hpos : ∀ pair ∈ ((XaddRun.mk d []).add key addOneOne).validated,
      0 ≤ pair.1 ∧ 0 ≤ pair.2 := by
    rw [hvalidated]
    decide
  refine ⟨hpos, fun hexact => ?_⟩
  have hread := hexact.read_eq.2
  have hwraps : (toLongLong start.ms.value) < 0 := by
    have hlt : start.ms.value < 18446744073709551616 := start.ms.lt_limit
    unfold toLongLong
    rw [if_neg hms]
    omega
  have habove : Store.above (boundOf (1, 1)) ⟨toLongLong start.ms.value, start.seq.value⟩ =
      true := by
    rw [above_iff]
    simp only [boundOf]
    omega
  have hnot : ¬ Precedes start.pair (1, 1) := by
    simp only [Cursor.pair, Precedes]
    omega
  have hall := xread_eq (ordered_xaddAll hkey [addOneOne]) hpos
    (parseStreamBound_msSeq start.ms start.seq true)
  change Store.xread ((XaddRun.mk d []).add key addOneOne).store
    [(key, start.ms.text ++ 45 :: start.seq.text)] = .ok (oneStream key
      (((XaddRun.mk d []).add key addOneOne).aboveCursor key start.pair)) at hread
  change Store.xread ((XaddRun.mk d []).add key addOneOne).store _ =
    .ok (oneStream key ((((XaddRun.mk d []).add key addOneOne).numbered key).filter _ |>.map _))
      at hall
  rw [hall] at hread
  simp [XaddRun.aboveCursor, hsingle, habove, hnot, oneStream] at hread

/-- A consumer neither skips nor repeats: for every run of {lit}`XADD`s without negative
components, on a key that was not set, and reads of a consumer, it has received the
entries above its first cursor that existed at its last read, in order and each once,
and a read returns the entries of {lit}`XRANGE key - +` above its cursor, exactly if
the first cursor has fewer than 2^63 milliseconds. -/
theorem xread_cursor_exact {key : Bytes} {d : Store} (hkey : d key = none) (start : Cursor) :
    (∀ events, (consume key d start events).Nonneg →
        (consume key d start events).Exact key start) ↔
      start.ms.value < 9223372036854775808 := by
  constructor
  · intro hexact
    by_contra hms
    rcases not_exact_of_wraps hkey hms with ⟨hnonneg, hnot⟩
    exact hnot (hexact _ hnonneg)
  · intro hms events hnonneg
    have hsound := Consumer.sound_consume hkey hms events
    have htracks := hsound.tracks hnonneg
    exact ⟨htracks.received_eq, xrange_all hsound.ordered hnonneg,
      xread_eq_aboveCursor hsound.ordered hnonneg (by simp [Cursor.pair])
        (Cursor.parse_text hms)⟩

/-- The cursor 1-5. -/
def cursorOneFive : Cursor :=
  ⟨⟨ascii "1", by decide, by decide +kernel, by decide +kernel⟩,
    ⟨ascii "5", by decide, by decide +kernel, by decide +kernel⟩⟩

/-- Reads between and behind the calls. -/
def mixedEvents : List ConsumerEvent :=
  [.read, .add ⟨ascii "1-5", [], 0, zero_le_longLongMax⟩,
    .add ⟨ascii "1-*", [], 0, zero_le_longLongMax⟩, .read,
    .add ⟨ascii "*", [], 7000000, seven_le_longLongMax⟩, .read, .read]

/-- A consumer that starts at 1-5 receives 1-6 and 7-0, each once. -/
theorem xread_cursor_exact_sample :
    (consume (ascii "s") Store.empty cursorOneFive mixedEvents).received.map StreamEntry.id =
        [ascii "1-6", ascii "7-0"] ∧
      (consume (ascii "s") Store.empty cursorOneFive mixedEvents).Exact (ascii "s")
        cursorOneFive := by
  have hvalidated : (consume (ascii "s") Store.empty cursorOneFive mixedEvents).run.validated =
      [(1, 5), (1, 6), (7, 0)] := by
    decide +kernel
  refine ⟨by decide +kernel, (xread_cursor_exact rfl cursorOneFive).mpr (by decide) mixedEvents ?_⟩
  unfold Consumer.Nonneg
  rw [hvalidated]
  decide

/-- The cursor 9223372036854775808-0. -/
def cursorWrapped : Cursor :=
  ⟨⟨ascii "9223372036854775808", by decide, by decide +kernel, by decide +kernel⟩,
    ⟨ascii "0", by decide, by decide +kernel, by decide +kernel⟩⟩

/-- {lit}`XADD s 1-1`, then {lit}`XREAD STREAMS s 9223372036854775808-0`: the entry is
returned although it lies below the cursor. -/
theorem xread_cursor_wraps :
    (consume (ascii "s") Store.empty cursorWrapped
        [.add ⟨ascii "1-1", [], 0, by decide⟩, .read]).received = [⟨ascii "1-1", []⟩] ∧
      ¬ Precedes cursorWrapped.pair (1, 1) := by
  decide +kernel

end RedisClone
