import RedisClone.Store.StreamStore

/-!
# The order of stream entries

{lit}`XADD` compares identifiers as pairs of {lit}`long long`, and stores them as
signed decimal text.  {lit}`parse_last_id` and {lit}`parse_stream_bound` split that
text at the first dash and read both parts with {lit}`std::stoull`.  The three
agree as long as no component is negative, which is what a component of 2^63 or
more turns into.

Main results:

- Theorem {lit}`decodes_iff`: an identifier is read back as what was validated
  exactly if neither component is negative.
- Theorem {lit}`stream_strictly_ordered`: in every run of {lit}`XADD` on a key, the
  entries are read back and strictly increase exactly if this holds for all.
- Theorem {lit}`stream_out_of_order`: a run with a component of 2^63.
-/

namespace RedisClone

namespace StreamUtils

/-! ## Reading numerals back -/

/-- A nonempty run of digits has no blanks and no sign. -/
theorem scanInteger_digits {text : Bytes} (hne : text ≠ [])
    (hdigits : ∀ b ∈ text, Decimal.isDigit b = true) :
    scanInteger text = some (false, Decimal.value text) := by
  rcases List.exists_cons_of_ne_nil hne with ⟨b, bs, hcons⟩
  have hdigit : Decimal.isDigit b = true := hdigits b (by simp [hcons])
  have hrange : 48 ≤ b.toNat ∧ b.toNat ≤ 57 := by simpa [Decimal.isDigit] using hdigit
  have hspace : isSpace b = false := by
    simp only [isSpace, Bool.or_eq_false_iff, Bool.and_eq_false_iff, decide_eq_false_iff_not]
    refine ⟨?_, Or.inr ?_⟩
    · rintro rfl
      exact absurd hrange.1 (by decide)
    · intro hle
      have hle' : b.toNat ≤ 13 := UInt8.le_iff_toNat_le.mp hle
      omega
  have hsign : scanSign text = (false, text) := by
    rw [hcons]
    unfold scanSign
    split
    · rename_i heq
      rw [(List.cons.inj heq).1] at hrange
      exact absurd hrange.1 (by decide)
    · rename_i heq
      rw [(List.cons.inj heq).1] at hrange
      exact absurd hrange.1 (by decide)
    · rfl
  have hblank : text.dropWhile isSpace = text := by
    rw [hcons, List.dropWhile_cons_of_neg (by simp [hspace])]
  have htake : text.takeWhile Decimal.isDigit = text := List.takeWhile_eq_self_iff.mpr hdigits
  unfold scanInteger
  rw [hblank, hsign]
  simp [htake, hne]

/-- A numeral is read back. -/
theorem scanInteger_render (n : Nat) : scanInteger (Decimal.render n) = some (false, n) := by
  rw [scanInteger_digits (Decimal.render_ne_nil n) fun b hb => Decimal.isDigit_of_mem_render hb,
    Decimal.value_render]

/-- {lit}`std::stoull` reads a numeral back. -/
theorem stoull_render {n : Nat} (hn : n < sizeTModulus) : stoull (Decimal.render n) = .ok n := by
  unfold stoull
  rw [scanInteger_render]
  simp [Nat.not_le.mpr hn]

/-- A number that is not negative is its own numeral's component. -/
theorem component_renderInt {n : Int} (hpos : 0 ≤ n) (hmax : n ≤ longLongMax) :
    component (Decimal.renderInt n) = .ok n ∧ stoull (Decimal.renderInt n) = .ok n.toNat := by
  have hrender : Decimal.renderInt n = Decimal.render n.toNat := by
    unfold Decimal.renderInt
    rw [if_neg (by omega)]
    congr 1
    omega
  unfold longLongMax at hmax
  have hlt : n.toNat < sizeTModulus := by
    unfold sizeTModulus
    omega
  have hread := stoull_render hlt
  rw [hrender]
  refine ⟨?_, hread⟩
  unfold component
  rw [hread]
  simp only [Except.map, toLongLong]
  rw [if_pos (by omega)]
  simp [hpos]

/-- The first dash of an identifier whose first component is not negative. -/
theorem splitDash_renderId {ms : Int} (hpos : 0 ≤ ms) (seq : Int) :
    splitDash (renderId ms seq) = some (Decimal.renderInt ms, Decimal.renderInt seq) := by
  have hrender : Decimal.renderInt ms = Decimal.render ms.natAbs := by
    unfold Decimal.renderInt
    rw [if_neg (by omega)]
  have hdigits : ∀ b ∈ Decimal.renderInt ms, decide (b ≠ 45) = true := by
    intro b hb
    rw [hrender] at hb
    have hdigit := Decimal.isDigit_of_mem_render hb
    apply decide_eq_true
    rintro rfl
    simp [Decimal.isDigit_dash] at hdigit
  unfold splitDash renderId
  rw [List.dropWhile_append_of_pos hdigits, List.takeWhile_append_of_pos hdigits]
  simp

/-- An identifier whose first component is negative starts with a dash. -/
theorem splitDash_renderId_neg {ms : Int} (hneg : ms < 0) (seq : Int) :
    ∃ back, splitDash (renderId ms seq) = some ([], back) := by
  unfold splitDash renderId Decimal.renderInt
  rw [if_pos hneg]
  exact ⟨_, rfl⟩

/-! ## Reading identifiers back -/

/-- The identifier is read back as the pair, by {lit}`parse_last_id` and by
{lit}`parse_stream_bound`. -/
def Decodes (id : Bytes) (pair : Int × Int) : Prop :=
  parseLastId id = .ok ⟨pair.1, pair.2, true⟩ ∧
    ∀ isStart, ∃ bound, parseStreamBound id isStart = .ok bound ∧
      bound.ms = pair.1 ∧ (bound.seq : Int) = pair.2

/-- Both components are values of {lit}`long long`. -/
def Fits (pair : Int × Int) : Prop :=
  pair.1 ≤ longLongMax ∧ pair.2 ≤ longLongMax

/-- An identifier without negative components, read by {lit}`parse_stream_bound`. -/
theorem parseStreamBound_renderId {ms seq : Int} (hms : 0 ≤ ms) (hseq : 0 ≤ seq)
    (hfits : Fits (ms, seq)) (isStart : Bool) :
    parseStreamBound (renderId ms seq) isStart = .ok ⟨ms, seq.toNat⟩ := by
  have hfirst : ∀ b bs, renderId ms seq = b :: bs → Decimal.isDigit b = true := by
    intro b bs hid
    rcases Decimal.exists_cons_render ms.natAbs with ⟨b', bs', hcons, hdigit⟩
    unfold renderId Decimal.renderInt at hid
    rw [if_neg (by omega), hcons, List.cons_append, List.cons.injEq] at hid
    rw [← hid.1]
    exact hdigit
  unfold parseStreamBound
  rw [if_neg, if_neg, splitDash_renderId hms seq]
  · simp [(component_renderInt hms hfits.1).1, (component_renderInt hseq hfits.2).2, bind,
      Except.bind, pure, Except.pure]
  · intro hplus
    exact absurd (hfirst _ _ hplus) (by decide)
  · intro hdash
    exact absurd (hfirst _ _ hdash) (by decide)

/-- An identifier is read back as what was validated exactly if neither component
is negative. -/
theorem decodes_iff {pair : Int × Int} (hfits : Fits pair) :
    Decodes (renderId pair.1 pair.2) pair ↔ 0 ≤ pair.1 ∧ 0 ≤ pair.2 := by
  rcases pair with ⟨ms, seq⟩
  constructor
  · rintro ⟨hlast, hbound⟩
    rcases hbound true with ⟨bound, -, -, hseq⟩
    refine ⟨?_, by simp only at hseq; omega⟩
    by_contra hneg
    rcases splitDash_renderId_neg (not_le.mp hneg) seq with ⟨back, hsplit⟩
    unfold parseLastId at hlast
    rw [hsplit] at hlast
    contradiction
  · rintro ⟨hms, hseq⟩
    simp only at hms hseq
    constructor
    · unfold parseLastId
      rw [splitDash_renderId hms seq]
      simp [(component_renderInt hms hfits.1).1, (component_renderInt hseq hfits.2).1, bind,
        Except.bind, pure, Except.pure]
    · intro isStart
      refine ⟨_, parseStreamBound_renderId hms hseq hfits isStart, rfl, ?_⟩
      simp [hseq]

/-! ## Validated identifiers -/

/-- The pair that {lit}`generate_stream_id` validates. -/
def validatedId (pattern lastId : Bytes) (now : Int) : Except Exception (Int × Int) := do
  let idParts ← parseStreamId pattern now
  let lastIdParts ← parseLastId lastId
  let seq := resolveSeq idParts lastIdParts
  validateId idParts.ms seq lastIdParts
  return (idParts.ms, seq)

/-- The new identifier is the validated pair as text. -/
theorem generateStreamId_eq (pattern lastId : Bytes) (now : Int) :
    generateStreamId pattern lastId now =
      (validatedId pattern lastId now).map fun pair => renderId pair.1 pair.2 := by
  unfold generateStreamId validatedId
  cases parseStreamId pattern now with
  | error e => rfl
  | ok idParts =>
      cases parseLastId lastId with
      | error e => rfl
      | ok lastIdParts =>
          simp only [bind, Except.bind]
          cases validateId idParts.ms (resolveSeq idParts lastIdParts) lastIdParts <;> rfl

/-- The order in which identifiers are validated. -/
def Precedes (first second : Int × Int) : Prop :=
  first.1 < second.1 ∨ (first.1 = second.1 ∧ first.2 < second.2)

/-- What was validated lies above the last identifier. -/
theorem precedes_of_validatedId {pattern lastId : Bytes} {now : Int} {last pair : Int × Int}
    (hlast : parseLastId lastId = .ok ⟨last.1, last.2, true⟩)
    (h : validatedId pattern lastId now = .ok pair) : Precedes last pair := by
  unfold validatedId at h
  cases hid : parseStreamId pattern now with
  | error e =>
      rw [hid] at h
      contradiction
  | ok idParts =>
      simp only [hid, hlast, bind, Except.bind] at h
      split at h
      · contradiction
      · rename_i hvalid
        cases h
        unfold validateId at hvalid
        split at hvalid
        · contradiction
        · split at hvalid
          · contradiction
          · rename_i hnot
            simp only [true_and, not_or, not_and] at hnot
            unfold Precedes
            simp only
            omega

/-- The components that {lit}`std::stoull` returns fit. -/
theorem component_le {text : Bytes} {n : Int} (h : component text = .ok n) : n ≤ longLongMax := by
  unfold component at h
  cases hread : stoull text with
  | error e => simp [hread, Except.map] at h
  | ok m =>
      simp only [hread, Except.map, Except.ok.injEq] at h
      have hlt : m < sizeTModulus := by
        unfold stoull at hread
        split at hread
        · contradiction
        · split at hread
          · contradiction
          · rename_i hsize
            simp only [Except.ok.injEq] at hread
            split at hread
            · rw [← hread]
              exact Nat.mod_lt _ (by decide)
            · omega
      unfold toLongLong at h
      unfold sizeTModulus at hlt
      unfold longLongMax
      split at h <;> omega

/-- Reduction to {lit}`long long` fits. -/
theorem wrapLongLong_le (n : Int) : wrapLongLong n ≤ longLongMax := by
  unfold wrapLongLong toLongLong longLongMax
  split <;> omega

/-- The milliseconds of a clock reading fit. -/
theorem toMilliseconds_le {now : Int} (h : now ≤ longLongMax) :
    toMilliseconds now ≤ longLongMax := by
  unfold toMilliseconds longLongMax at *
  have hsign : Int.sign 1000000 = 1 := rfl
  rw [Int.tdiv_eq_ediv, hsign]
  split <;> omega

/-- The parsed parts of a new identifier fit. -/
theorem parseStreamId_le {streamId : Bytes} {now : Int} (hnow : now ≤ longLongMax)
    {idParts : StreamIdParts} (h : parseStreamId streamId now = .ok idParts) :
    idParts.ms ≤ longLongMax ∧ idParts.seq ≤ longLongMax := by
  have hzero : (0 : Int) ≤ longLongMax := by decide
  have hcomponent : ∀ {text : Bytes} {n : Int}, newComponent text = .ok n → n ≤ longLongMax := by
    intro text n hnew
    unfold newComponent at hnew
    split at hnew
    · rename_i hread
      cases hnew
      exact component_le hread
    · contradiction
  unfold parseStreamId at h
  split at h
  · cases h
    exact ⟨toMilliseconds_le hnow, hzero⟩
  · split at h
    · contradiction
    · rename_i front back hsplit
      cases hms : newComponent front with
      | error e =>
          rw [hms] at h
          contradiction
      | ok ms =>
          simp only [hms, bind, Except.bind] at h
          split at h
          · cases h
            exact ⟨hcomponent hms, hzero⟩
          · cases hseq : newComponent back with
            | error e => simp [hseq] at h
            | ok seq =>
                simp only [hseq, pure, Except.pure, Except.ok.injEq] at h
                subst h
                exact ⟨hcomponent hms, hcomponent hseq⟩

/-- What was validated fits. -/
theorem fits_of_validatedId {pattern lastId : Bytes} {now : Int} {pair : Int × Int}
    (hnow : now ≤ longLongMax) (h : validatedId pattern lastId now = .ok pair) : Fits pair := by
  unfold validatedId at h
  cases hid : parseStreamId pattern now with
  | error e =>
      rw [hid] at h
      contradiction
  | ok idParts =>
      rcases parseStreamId_le hnow hid with ⟨hms, hseq⟩
      cases hlast : parseLastId lastId with
      | error e => simp [hid, hlast, bind, Except.bind] at h
      | ok lastIdParts =>
          simp only [hid, hlast, bind, Except.bind] at h
          split at h
          · contradiction
          · cases h
            refine ⟨hms, ?_⟩
            unfold resolveSeq
            split
            · exact hseq
            · split
              · exact wrapLongLong_le _
              · simp only [longLongMax]
                split <;> omega

end StreamUtils

/-! ## Runs of {lit}`XADD` -/

open StreamUtils

/-- A call of {lit}`xadd`, with a clock reading in 64-bit nanoseconds. -/
structure XaddCall where
  streamId : Bytes
  fields : List (Bytes × Bytes)
  now : Int
  now_le : now ≤ longLongMax

/-- The table, and the pairs that were validated for the entries, in order. -/
structure XaddRun where
  store : Store
  validated : List (Int × Int)

/-- The entries of the stream at a key. -/
def Store.entries (d : Store) (key : Bytes) : List StreamEntry :=
  Store.streamSlot (d.slot key)

/-- One call. -/
def XaddRun.add (key : Bytes) (r : XaddRun) (call : XaddCall) : XaddRun where
  store := (r.store.xadd key call.streamId call.fields call.now).1
  validated := r.validated ++
    match validatedId call.streamId (Store.lastId (r.store.entries key)) call.now with
    | .ok pair => [pair]
    | .error _ => []

/-- A sequence of calls. -/
def xaddAll (key : Bytes) (d : Store) (calls : List XaddCall) : XaddRun :=
  calls.foldl (XaddRun.add key) ⟨d, []⟩

/-- {lit}`xadd` on a key that holds a stream or nothing: the entry is appended if
the identifier is accepted. -/
theorem entries_xadd {d : Store} {key : Bytes} (hkey : d.holdsOther key = false)
    (streamId : Bytes) (fields : List (Bytes × Bytes)) (now : Int) :
    (d.xadd key streamId fields now).1.holdsOther key = false ∧
      (d.xadd key streamId fields now).1.entries key = d.entries key ++
        match validatedId streamId (Store.lastId (d.entries key)) now with
        | .ok pair => [⟨renderId pair.1 pair.2, fields⟩]
        | .error _ => [] := by
  unfold Store.xadd
  rw [if_neg (by simp [hkey])]
  simp only [generateStreamId_eq]
  change _ ∧ _ = _ ++ match validatedId streamId (Store.lastId (Store.streamSlot (d.slot key))) now
    with | .ok pair => _ | .error _ => _
  cases validatedId streamId (Store.lastId (Store.streamSlot (d.slot key))) now with
  | ok pair => simp [Except.map, Store.holdsOther, Store.entries, Store.slot, Store.streamSlot]
  | error e =>
      cases e <;>
        simp [Except.map, Store.holdsOther, Store.entries, Store.slot, Store.streamSlot]

/-- What holds behind every call: the identifiers are the validated pairs as text,
and these increase as long as none of them has a negative component. -/
structure XaddRun.Ordered (key : Bytes) (r : XaddRun) : Prop where
  kind : r.store.holdsOther key = false
  ids : (r.store.entries key).map StreamEntry.id =
    r.validated.map fun pair => renderId pair.1 pair.2
  fits : ∀ pair ∈ r.validated, Fits pair
  increasing : (∀ pair ∈ r.validated, 0 ≤ pair.1 ∧ 0 ≤ pair.2) → r.validated.IsChain Precedes

/-- The identifier of the last entry. -/
theorem lastId_eq {entries : List StreamEntry} {last : Bytes}
    (h : (entries.map StreamEntry.id).getLast? = some last) : Store.lastId entries = last := by
  rw [List.getLast?_map, Option.map_eq_some_iff] at h
  rcases h with ⟨entry, hentry, rfl⟩
  simp [Store.lastId, hentry]

/-- One call keeps the order. -/
theorem ordered_add {key : Bytes} {r : XaddRun} (h : r.Ordered key) (call : XaddCall) :
    (r.add key call).Ordered key := by
  rcases entries_xadd h.kind call.streamId call.fields call.now with ⟨hkind, hentries⟩
  cases hvalid : validatedId call.streamId (Store.lastId (r.store.entries key)) call.now with
  | error e =>
      rw [hvalid] at hentries
      have hadd : r.add key call =
          ⟨(r.store.xadd key call.streamId call.fields call.now).1, r.validated⟩ := by
        simp [XaddRun.add, hvalid]
      rw [hadd]
      exact ⟨hkind, by rw [hentries]; simpa using h.ids, h.fits, h.increasing⟩
  | ok pair =>
      rw [hvalid] at hentries
      have hadd : r.add key call =
          ⟨(r.store.xadd key call.streamId call.fields call.now).1, r.validated ++ [pair]⟩ := by
        simp [XaddRun.add, hvalid]
      rw [hadd]
      refine ⟨hkind, ?_, ?_, ?_⟩
      · rw [hentries]
        simp [h.ids]
      · intro pair' hmem
        rcases List.mem_append.mp hmem with hmem | hmem
        · exact h.fits pair' hmem
        · rw [List.mem_singleton.mp hmem]
          exact fits_of_validatedId call.now_le hvalid
      · intro hpos
        have hold : ∀ pair ∈ r.validated, 0 ≤ pair.1 ∧ 0 ≤ pair.2 :=
          fun pair' hmem => hpos pair' (List.mem_append_left _ hmem)
        refine List.isChain_append.mpr ⟨h.increasing hold, List.isChain_singleton _, ?_⟩
        -- the last entry is read back as what was validated for it
        intro last hlast pair' hpair'
        simp only [List.head?_cons, Option.mem_def, Option.some.injEq] at hpair'
        subst hpair'
        have hmem := List.mem_of_getLast? hlast
        have hid : Store.lastId (r.store.entries key) = renderId last.1 last.2 := by
          apply lastId_eq
          rw [h.ids, List.getLast?_map, hlast]
          rfl
        rw [hid] at hvalid
        exact precedes_of_validatedId ((decodes_iff (h.fits last hmem)).mpr (hold last hmem)).1 hvalid

/-- The order behind every run on a key that is not set. -/
theorem ordered_xaddAll {key : Bytes} {d : Store} (hkey : d key = none) (calls : List XaddCall) :
    (xaddAll key d calls).Ordered key := by
  have hstart : (XaddRun.mk d []).Ordered key :=
    ⟨by simp [Store.holdsOther, hkey],
      by simp [Store.entries, Store.slot, hkey, StoreValue.default, Store.streamSlot],
      by simp, fun _ => List.isChain_nil⟩
  unfold xaddAll
  generalize XaddRun.mk d [] = r at hstart
  induction calls generalizing r with
  | nil => exact hstart
  | cons call calls ih => exact ih _ (ordered_add hstart call)

/-- The first identifier lies below the second, as {lit}`XRANGE` and {lit}`XREAD`
compare them. -/
def ReadsBelow (first second : Bytes) : Prop :=
  ∃ a b, parseStreamBound first true = .ok a ∧ parseStreamBound second true = .ok b ∧
    Store.above b a = true

/-- The order of validation is transitive. -/
theorem Precedes.trans {a b c : Int × Int} (hab : Precedes a b) (hbc : Precedes b c) :
    Precedes a c := by
  unfold Precedes at *
  omega

/-- Pairs without negative components that increase are read in this order. -/
theorem readsBelow_of_precedes {a b : Int × Int} (ha : 0 ≤ a.1 ∧ 0 ≤ a.2) (hb : 0 ≤ b.1 ∧ 0 ≤ b.2)
    (hfa : Fits a) (hfb : Fits b) (h : Precedes a b) :
    ReadsBelow (renderId a.1 a.2) (renderId b.1 b.2) := by
  refine ⟨_, _, parseStreamBound_renderId ha.1 ha.2 hfa true,
    parseStreamBound_renderId hb.1 hb.2 hfb true, ?_⟩
  unfold Precedes at h
  simp only [Store.above, decide_eq_true_eq]
  omega

/-- Streams stay strictly ordered: in every run of {lit}`XADD` on a key that was not
set, the identifiers of the entries are the validated pairs as text; and every
identifier is read back as its pair, with the entries strictly increasing in the
order of {lit}`XRANGE` and {lit}`XREAD`, exactly if no validated pair has a negative
component. -/
theorem stream_strictly_ordered {key : Bytes} {d : Store} (hkey : d key = none)
    (calls : List XaddCall) :
    ((xaddAll key d calls).store.entries key).map StreamEntry.id =
        (xaddAll key d calls).validated.map (fun pair => renderId pair.1 pair.2) ∧
      ((∀ pair ∈ (xaddAll key d calls).validated, Decodes (renderId pair.1 pair.2) pair) ∧
          (((xaddAll key d calls).store.entries key).map StreamEntry.id).Pairwise ReadsBelow ↔
        ∀ pair ∈ (xaddAll key d calls).validated, 0 ≤ pair.1 ∧ 0 ≤ pair.2) := by
  have hordered := ordered_xaddAll hkey calls
  refine ⟨hordered.ids, ?_⟩
  constructor
  · rintro ⟨hdecodes, -⟩ pair hmem
    exact (decodes_iff (hordered.fits pair hmem)).mp (hdecodes pair hmem)
  · intro hpos
    refine ⟨fun pair hmem => (decodes_iff (hordered.fits pair hmem)).mpr (hpos pair hmem), ?_⟩
    have : IsTrans (Int × Int) Precedes := ⟨fun _ _ _ => Precedes.trans⟩
    have hpairs := List.isChain_iff_pairwise.mp (hordered.increasing hpos)
    rw [hordered.ids, List.pairwise_map]
    refine hpairs.imp_of_mem ?_
    intro a b ha hb hab
    exact readsBelow_of_precedes (hpos a ha) (hpos b hb) (hordered.fits a ha) (hordered.fits b hb) hab

theorem zero_le_longLongMax : 0 ≤ longLongMax := by
  decide

/-- Seven milliseconds are a clock reading. -/
theorem seven_le_longLongMax : 7000000 ≤ longLongMax := by
  decide

/-- Explicit, half automatic and automatic identifiers. -/
def increasingCalls : List XaddCall :=
  [⟨ascii "1-5", [], 0, zero_le_longLongMax⟩, ⟨ascii "1-*", [], 0, zero_le_longLongMax⟩,
    ⟨ascii "1-2", [], 0, zero_le_longLongMax⟩, ⟨ascii "*", [], 7000000, seven_le_longLongMax⟩]

/-- The rejected identifier leaves no entry. -/
theorem stream_strictly_ordered_mixed :
    (xaddAll (ascii "s") Store.empty increasingCalls).validated = [(1, 5), (1, 6), (7, 0)] ∧
      (((xaddAll (ascii "s") Store.empty increasingCalls).store.entries (ascii "s")).map
        StreamEntry.id).Pairwise ReadsBelow := by
  have hvalidated : (xaddAll (ascii "s") Store.empty increasingCalls).validated =
      [(1, 5), (1, 6), (7, 0)] := by
    decide +kernel
  have hordered := @stream_strictly_ordered (ascii "s") Store.empty rfl increasingCalls
  refine ⟨hvalidated, (hordered.2.mpr ?_).2⟩
  rw [hvalidated]
  decide

/-- {lit}`XADD s 1-9223372036854775808` and {lit}`XADD s 1-5` are both accepted,
and the second entry is read as the smaller one. -/
theorem stream_out_of_order :
    ((xaddAll (ascii "s") Store.empty
        [⟨ascii "1-9223372036854775808", [], 0, by decide⟩, ⟨ascii "1-5", [], 0, by decide⟩]).store.entries
          (ascii "s")).map StreamEntry.id = [ascii "1--9223372036854775808", ascii "1-5"] ∧
      parseStreamBound (ascii "1--9223372036854775808") true = .ok ⟨1, 9223372036854775808⟩ ∧
      parseStreamBound (ascii "1-5") true = .ok ⟨1, 5⟩ ∧
      Store.above ⟨1, 5⟩ ⟨1, 9223372036854775808⟩ = false := by
  decide +kernel

end RedisClone
