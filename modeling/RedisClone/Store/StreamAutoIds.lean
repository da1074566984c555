import RedisClone.Store.StreamOrder

/-!
# Identifiers completed by the server

{lit}`XADD key *` takes the milliseconds from the clock and {lit}`XADD key ms-*`
from the request; {lit}`resolve_seq` completes the sequence number, and only then
{lit}`validate_id` compares the result with the last entry.  The clock is not moved
up to the last entry, so an entry with an identifier in the future locks the
automatic form out until the clock has passed it.

Main results:

- Theorem {lit}`validatedId_auto`: the completed sequence number is the least legal
  one, and the identifier is rejected if there is none.
- Theorem {lit}`xadd_picks_least_sequence`: what {lit}`XADD key ms-*` does behind any
  run of {lit}`XADD`.
- Theorem {lit}`xadd_auto_succeeds_iff`: {lit}`XADD key *` succeeds exactly if the
  clock is not behind the entries.
- Theorem {lit}`xadd_auto_behind_top`: a run in which it is behind.
-/

namespace RedisClone

namespace StreamUtils

/-! ## Numerals -/

/-- A decimal numeral below a limit; leading zeros are allowed. -/
structure Numeral (limit : Nat) where
  text : Bytes
  ne_nil : text ≠ []
  isDigit : ∀ b ∈ text, Decimal.isDigit b = true
  lt_limit : Decimal.value text < limit

/-- The number a numeral denotes. -/
def Numeral.value {limit : Nat} (n : Numeral limit) : Nat :=
  Decimal.value n.text

/-- A numeral has no dash. -/
theorem Numeral.ne_dash {limit : Nat} (n : Numeral limit) :
    ∀ b ∈ n.text, decide (b ≠ 45) = true := by
  intro b hb
  apply decide_eq_true
  rintro rfl
  simpa [Decimal.isDigit_dash] using n.isDigit 45 hb

/-- {lit}`std::stoull` reads a numeral. -/
theorem Numeral.stoull_text {limit : Nat} (n : Numeral limit) (hlimit : limit ≤ sizeTModulus) :
    stoull n.text = .ok n.value := by
  have hlt := lt_of_lt_of_le n.lt_limit hlimit
  unfold stoull
  rw [scanInteger_digits n.ne_nil n.isDigit]
  simp [Nat.not_le.mpr hlt, Numeral.value]

/-- A numeral below 2^63 is its own component. -/
theorem Numeral.component_text (n : Numeral 9223372036854775808) :
    component n.text = .ok (n.value : Int) := by
  have hlt : n.value < 9223372036854775808 := n.lt_limit
  unfold component
  rw [n.stoull_text (by decide)]
  simp [Except.map, toLongLong, hlt]

/-- A numeral in front of a dash. -/
theorem Numeral.splitDash_text {limit : Nat} (n : Numeral limit) (back : Bytes) :
    splitDash (n.text ++ 45 :: back) = some (n.text, back) := by
  unfold splitDash
  rw [List.dropWhile_append_of_pos n.ne_dash, List.takeWhile_append_of_pos n.ne_dash]
  simp

/-- A numeral, alone or followed by anything, is not one of the special bounds or
patterns. -/
theorem Numeral.append_ne_special {limit : Nat} (n : Numeral limit) (back : Bytes) {b : UInt8}
    (hb : Decimal.isDigit b = false) : n.text ++ back ≠ [b] := by
  intro h
  rcases List.exists_cons_of_ne_nil n.ne_nil with ⟨c, cs, hcons⟩
  rw [hcons, List.cons_append, List.cons.injEq] at h
  have hdigit := n.isDigit c (by simp [hcons])
  rw [h.1, hb] at hdigit
  contradiction

/-! ## Legal sequence numbers -/

/-- The sequence number makes an identifier above 0-0 and above the last one. -/
structure LegalSeq (last : Option (Int × Int)) (ms seq : Int) : Prop where
  nonneg : 0 ≤ seq
  le_max : seq ≤ longLongMax
  pos : Precedes (0, 0) (ms, seq)
  above_last : ∀ pair ∈ last, Precedes pair (ms, seq)

/-- {lit}`LastIdParts` of the last identifier. -/
def lastParts : Option (Int × Int) → LastIdParts
  | none => ⟨0, 0, false⟩
  | some pair => ⟨pair.1, pair.2, true⟩

/-- The sequence number behind a given one. -/
theorem wrapLongLong_succ {n : Int} (hpos : 0 ≤ n) (hmax : n ≤ longLongMax) :
    wrapLongLong (n + 1) = if n = longLongMax then longLongMin else n + 1 := by
  unfold wrapLongLong toLongLong longLongMin
  unfold longLongMax at *
  split <;> split <;> omega

/-- Without a last identifier nothing but 0-0 is excluded. -/
theorem isLeast_resolveSeq_none {ms : Int} (hms : 0 ≤ ms) :
    IsLeast {seq | LegalSeq none ms seq} (resolveSeq ⟨ms, 0, true⟩ (lastParts none)) ∧
      validateId ms (resolveSeq ⟨ms, 0, true⟩ (lastParts none)) (lastParts none) = .ok () := by
  by_cases hms0 : ms = 0
  · subst hms0
    refine ⟨⟨⟨by decide, by decide, Or.inr ⟨rfl, by decide⟩, by simp⟩, ?_⟩, by decide⟩
    intro seq hlegal
    have hpos := hlegal.pos
    have hseq : resolveSeq ⟨0, 0, true⟩ (lastParts none) = 1 := by decide
    rw [hseq]
    simp only [Precedes] at hpos
    omega
  · have hseq : resolveSeq ⟨ms, 0, true⟩ (lastParts none) = 0 := by
      simp [resolveSeq, lastParts, hms0]
    rw [hseq]
    refine ⟨⟨⟨le_rfl, by decide, Or.inl (by simp only; omega), by simp⟩, fun seq h => h.nonneg⟩, ?_⟩
    simp [validateId, lastParts, hms0]

/-- Behind a last identifier in the future there is no legal sequence number. -/
theorem not_legalSeq_of_lt {ms lastMs lastSeq : Int} (hlt : ms < lastMs) (seq : Int) :
    (¬ LegalSeq (some (lastMs, lastSeq)) ms seq) ∧ ∃ what,
      validateId ms seq (lastParts (some (lastMs, lastSeq))) = .error (.invalidArgument what) := by
  constructor
  · intro hlegal
    have habove := hlegal.above_last _ rfl
    simp only [Precedes] at habove
    omega
  · unfold validateId
    split
    · exact ⟨_, rfl⟩
    · rw [if_pos ⟨rfl, Or.inl hlt⟩]
      exact ⟨_, rfl⟩

/-- In the millisecond of the last identifier the next sequence number is picked. -/
theorem isLeast_resolveSeq_same {ms lastSeq : Int} (hms : 0 ≤ ms) (hlastSeq : 0 ≤ lastSeq)
    (hlt : lastSeq < longLongMax) :
    IsLeast {seq | LegalSeq (some (ms, lastSeq)) ms seq} (lastSeq + 1) ∧
      validateId ms (lastSeq + 1) (lastParts (some (ms, lastSeq))) = .ok () := by
  refine ⟨⟨⟨by omega, by omega, ?_, ?_⟩, ?_⟩, ?_⟩
  · simp only [Precedes]
    omega
  · simp [Precedes]
  · intro seq hlegal
    have habove := hlegal.above_last _ rfl
    simp only [Precedes] at habove
    omega
  · unfold validateId
    rw [if_neg (by omega), if_neg]
    simp [lastParts]

/-- Behind the greatest sequence number of a millisecond there is no other. -/
theorem not_legalSeq_of_top (ms seq : Int) :
    (¬ LegalSeq (some (ms, longLongMax)) ms seq) ∧ ∃ what,
      validateId ms longLongMin (lastParts (some (ms, longLongMax))) =
        .error (.invalidArgument what) := by
  constructor
  · intro hlegal
    have habove := hlegal.above_last _ rfl
    have hle := hlegal.le_max
    simp only [Precedes] at habove
    omega
  · unfold validateId
    rw [if_neg (by simp [longLongMin]), if_pos]
    · exact ⟨_, rfl⟩
    · exact ⟨rfl, Or.inr ⟨rfl, by simp [lastParts, longLongMin, longLongMax]⟩⟩

/-- A later millisecond starts at zero. -/
theorem isLeast_resolveSeq_later {ms lastMs lastSeq : Int} (hlastMs : 0 ≤ lastMs)
    (hgt : lastMs < ms) :
    IsLeast {seq | LegalSeq (some (lastMs, lastSeq)) ms seq} 0 ∧
      validateId ms 0 (lastParts (some (lastMs, lastSeq))) = .ok () := by
  refine ⟨⟨⟨le_rfl, by decide, Or.inl (by simp only; omega), ?_⟩, fun seq h => h.nonneg⟩, ?_⟩
  · simp [Precedes, hgt]
  · unfold validateId
    rw [if_neg (by omega), if_neg]
    simp only [lastParts]
    omega

/-- Completing and validating picks the least legal sequence number, and rejects
if there is none. -/
theorem validateId_resolveSeq {ms : Int} (hms : 0 ≤ ms) {last : Option (Int × Int)}
    (hpos : ∀ pair ∈ last, 0 ≤ pair.1 ∧ 0 ≤ pair.2) (hfits : ∀ pair ∈ last, Fits pair) :
    (IsLeast {seq | LegalSeq last ms seq} (resolveSeq ⟨ms, 0, true⟩ (lastParts last)) ∧
        validateId ms (resolveSeq ⟨ms, 0, true⟩ (lastParts last)) (lastParts last) = .ok ()) ∨
      ((∀ seq, ¬ LegalSeq last ms seq) ∧ ∃ what,
        validateId ms (resolveSeq ⟨ms, 0, true⟩ (lastParts last)) (lastParts last) =
          .error (.invalidArgument what)) := by
  cases last with
  | none => exact .inl (isLeast_resolveSeq_none hms)
  | some pair =>
      rcases pair with ⟨lastMs, lastSeq⟩
      rcases hpos _ rfl with ⟨hlastMs, hlastSeq⟩
      have hmax := (hfits _ rfl).2
      simp only at hlastMs hlastSeq hmax
      rcases lt_trichotomy ms lastMs with hlt | heq | hgt
      · exact .inr ⟨fun seq => (not_legalSeq_of_lt hlt seq).1, (not_legalSeq_of_lt hlt _).2⟩
      · subst heq
        have hseq : resolveSeq ⟨ms, 0, true⟩ (lastParts (some (ms, lastSeq))) =
            if lastSeq = longLongMax then longLongMin else lastSeq + 1 := by
          simp [resolveSeq, lastParts, wrapLongLong_succ hlastSeq hmax]
        rw [hseq]
        by_cases htop : lastSeq = longLongMax
        · subst htop
          rw [if_pos rfl]
          exact .inr ⟨fun seq => (not_legalSeq_of_top ms seq).1, (not_legalSeq_of_top ms 0).2⟩
        · rw [if_neg htop]
          exact .inl (isLeast_resolveSeq_same hms hlastSeq (lt_of_le_of_ne hmax htop))
      · have hseq : resolveSeq ⟨ms, 0, true⟩ (lastParts (some (lastMs, lastSeq))) = 0 := by
          have hne : ms ≠ lastMs := by omega
          have hne' : ms ≠ 0 := by omega
          simp [resolveSeq, lastParts, hne, hne']
        rw [hseq]
        exact .inl (isLeast_resolveSeq_later hlastMs hgt)

end StreamUtils

open StreamUtils

/-! ## Behind a run of {lit}`XADD` -/

/-- {lit}`parse_last_id` behind a run without negative components. -/
theorem XaddRun.Ordered.parseLastId_eq {key : Bytes} {r : XaddRun} (h : r.Ordered key)
    (hpos : ∀ pair ∈ r.validated, 0 ≤ pair.1 ∧ 0 ≤ pair.2) :
    parseLastId (Store.lastId (r.store.entries key)) = .ok (lastParts r.validated.getLast?) := by
  cases hlast : r.validated.getLast? with
  | none =>
      have hnil : r.store.entries key = [] := by
        have hids := h.ids
        rw [List.getLast?_eq_none_iff.mp hlast] at hids
        simpa using hids
      rw [hnil]
      rfl
  | some pair =>
      have hmem := List.mem_of_getLast? hlast
      have hid : Store.lastId (r.store.entries key) = renderId pair.1 pair.2 := by
        apply lastId_eq
        rw [h.ids, List.getLast?_map, hlast]
        rfl
      rw [hid]
      exact ((decodes_iff (h.fits pair hmem)).mpr (hpos pair hmem)).1

/-- An identifier that the server completes is given the least legal sequence
number, and is rejected if there is none. -/
theorem validatedId_auto {key : Bytes} {r : XaddRun} (h : r.Ordered key)
    (hpos : ∀ pair ∈ r.validated, 0 ≤ pair.1 ∧ 0 ≤ pair.2) {pattern : Bytes} {now ms : Int}
    (hparse : parseStreamId pattern now = .ok ⟨ms, 0, true⟩) (hms : 0 ≤ ms) :
    (∃ seq, IsLeast {seq | LegalSeq r.validated.getLast? ms seq} seq ∧
        validatedId pattern (Store.lastId (r.store.entries key)) now = .ok (ms, seq)) ∨
      ((∀ seq, ¬ LegalSeq r.validated.getLast? ms seq) ∧ ∃ what,
        validatedId pattern (Store.lastId (r.store.entries key)) now =
          .error (.invalidArgument what)) := by
  have hlast := h.parseLastId_eq hpos
  have hmem : ∀ pair ∈ r.validated.getLast?, pair ∈ r.validated :=
    fun pair hpair => List.mem_of_getLast? hpair
  have hvalid : validatedId pattern (Store.lastId (r.store.entries key)) now =
      (validateId ms (resolveSeq ⟨ms, 0, true⟩ (lastParts r.validated.getLast?))
        (lastParts r.validated.getLast?)).map
          fun _ => (ms, resolveSeq ⟨ms, 0, true⟩ (lastParts r.validated.getLast?)) := by
    unfold validatedId
    rw [hparse, hlast]
    simp only [bind, Except.bind, pure, Except.pure]
    cases validateId ms (resolveSeq ⟨ms, 0, true⟩ (lastParts r.validated.getLast?))
      (lastParts r.validated.getLast?) <;> rfl
  rcases validateId_resolveSeq hms (fun pair hpair => hpos pair (hmem pair hpair))
    (fun pair hpair => h.fits pair (hmem pair hpair)) with ⟨hleast, hok⟩ | ⟨hnone, what, herr⟩
  · left
    exact ⟨_, hleast, by rw [hvalid, hok]; rfl⟩
  · right
    exact ⟨hnone, what, by rw [hvalid, herr]; rfl⟩

/-- The result of {lit}`xadd` on a key that holds a stream or nothing. -/
theorem xadd_result {d : Store} {key : Bytes} (hkey : d.holdsOther key = false)
    (streamId : Bytes) (fields : List (Bytes × Bytes)) (now : Int) :
    (d.xadd key streamId fields now).2 =
      match validatedId streamId (Store.lastId (d.entries key)) now with
      | .ok pair => .ok (.ok (renderId pair.1 pair.2))
      | .error (.invalidArgument what) => .ok (.error (ascii "-ERR " ++ what))
      | .error e => .error e := by
  unfold Store.xadd
  rw [if_neg (by simp [hkey])]
  simp only [generateStreamId_eq]
  change _ = match validatedId streamId (Store.lastId (Store.streamSlot (d.slot key))) now
    with | .ok pair => _ | .error (.invalidArgument what) => _ | .error e => _
  cases validatedId streamId (Store.lastId (Store.streamSlot (d.slot key))) now with
  | ok pair => rfl
  | error e => cases e <;> rfl

/-- An identifier that the server completes: either the entry is appended with the
least legal sequence number, or there is none and nothing is appended. -/
theorem xadd_completed {key : Bytes} {r : XaddRun} (h : r.Ordered key)
    (hpos : ∀ pair ∈ r.validated, 0 ≤ pair.1 ∧ 0 ≤ pair.2) {pattern : Bytes} {now ms : Int}
    (hparse : parseStreamId pattern now = .ok ⟨ms, 0, true⟩) (hms : 0 ≤ ms)
    (fields : List (Bytes × Bytes)) :
    (∃ seq, IsLeast {seq | LegalSeq r.validated.getLast? ms seq} seq ∧
        (r.store.xadd key pattern fields now).2 = .ok (.ok (renderId ms seq)) ∧
        (r.store.xadd key pattern fields now).1.entries key =
          r.store.entries key ++ [⟨renderId ms seq, fields⟩]) ∨
      ((∀ seq, ¬ LegalSeq r.validated.getLast? ms seq) ∧
        (∃ text, (r.store.xadd key pattern fields now).2 = .ok (.error text)) ∧
        (r.store.xadd key pattern fields now).1.entries key = r.store.entries key) := by
  have hentries := (entries_xadd h.kind pattern fields now).2
  have hresult := xadd_result h.kind pattern fields now
  rcases validatedId_auto h hpos hparse hms with ⟨seq, hleast, hvalid⟩ | ⟨hnone, what, hvalid⟩
  · left
    rw [hvalid] at hentries hresult
    exact ⟨seq, hleast, hresult, hentries⟩
  · right
    rw [hvalid] at hentries hresult
    exact ⟨hnone, ⟨_, hresult⟩, by simpa using hentries⟩

/-! ## {lit}`XADD key ms-*` -/

/-- {lit}`parse_stream_id` of {lit}`ms-*`. -/
theorem parseStreamId_autoSeq (ms : Numeral 9223372036854775808) (now : Int) :
    parseStreamId (ms.text ++ ascii "-*") now = .ok ⟨ms.value, 0, true⟩ := by
  have hne : ms.text ++ ascii "-*" ≠ ascii "*" := ms.append_ne_special _ (by decide)
  have hsplit : splitDash (ms.text ++ ascii "-*") = some (ms.text, ascii "*") :=
    ms.splitDash_text _
  unfold parseStreamId
  rw [if_neg hne, hsplit]
  simp [newComponent, ms.component_text, bind, Except.bind, pure, Except.pure]

/-- {lit}`XADD key ms-*` picks the least legal sequence number: behind every run of
{lit}`XADD` on a key that was not set, as long as no component is negative, the call
succeeds exactly if there is a legal sequence number, the entry is appended with the
least one, and otherwise the call is rejected and appends nothing. -/
theorem xadd_picks_least_sequence {key : Bytes} {d : Store} (hkey : d key = none)
    (calls : List XaddCall)
    (hpos : ∀ pair ∈ (xaddAll key d calls).validated, 0 ≤ pair.1 ∧ 0 ≤ pair.2)
    (ms : Numeral 9223372036854775808) (fields : List (Bytes × Bytes)) (now : Int) :
    let r := xaddAll key d calls
    let added := r.store.xadd key (ms.text ++ ascii "-*") fields now
    let legal := {seq | LegalSeq r.validated.getLast? ms.value seq}
    ((∃ id, added.2 = .ok (.ok id)) ↔ legal.Nonempty) ∧
      (∀ seq, IsLeast legal seq → added.2 = .ok (.ok (renderId ms.value seq)) ∧
        added.1.entries key = r.store.entries key ++ [⟨renderId ms.value seq, fields⟩]) ∧
      (¬ legal.Nonempty → (∃ text, added.2 = .ok (.error text)) ∧
        added.1.entries key = r.store.entries key) := by
  intro r added legal
  have hordered := ordered_xaddAll hkey calls
  rcases xadd_completed hordered hpos (parseStreamId_autoSeq ms now) (by omega) fields with
    ⟨seq, hleast, hresult, hentries⟩ | ⟨hnone, ⟨text, hresult⟩, hentries⟩
  · refine ⟨⟨fun _ => ⟨seq, hleast.1⟩, fun _ => ⟨_, hresult⟩⟩, ?_, ?_⟩
    · intro seq' hleast'
      rw [hleast'.unique hleast]
      exact ⟨hresult, hentries⟩
    · intro hempty
      exact absurd ⟨seq, hleast.1⟩ hempty
  · refine ⟨⟨?_, ?_⟩, ?_, ?_⟩
    · rintro ⟨id, hid⟩
      exact absurd (hid.symm.trans hresult) (by simp)
    · rintro ⟨seq, hseq⟩
      exact absurd hseq (hnone seq)
    · intro seq hleast
      exact absurd hleast.1 (hnone seq)
    · intro _
      exact ⟨⟨text, hresult⟩, hentries⟩

/-- The numeral 7, with a leading zero. -/
def msSeven : Numeral 9223372036854775808 :=
  ⟨ascii "07", by decide, by decide +kernel, by decide +kernel⟩

/-- Behind {lit}`7-5` the next sequence number is picked.  At the top of the range it wraps around,
and the call is rejected. -/
theorem xadd_picks_least_sequence_top :
    ((xaddAll (ascii "s") Store.empty [⟨ascii "7-5", [], 0, by decide⟩]).store.xadd (ascii "s")
        (msSeven.text ++ ascii "-*") [] 0).2 = .ok (.ok (renderId 7 6)) ∧
    (xaddAll (ascii "s") Store.empty
        [⟨ascii "7-9223372036854775807", [], 0, by decide⟩]).validated =
          [(7, 9223372036854775807)] ∧
      ((xaddAll (ascii "s") Store.empty
          [⟨ascii "7-9223372036854775807", [], 0, by decide⟩]).store.xadd (ascii "s")
            (msSeven.text ++ ascii "-*") [] 0).1.entries (ascii "s") =
        (xaddAll (ascii "s") Store.empty
          [⟨ascii "7-9223372036854775807", [], 0, by decide⟩]).store.entries (ascii "s") := by
  have hseven : msSeven.value = 7 := by decide
  have hfirst : (xaddAll (ascii "s") Store.empty [⟨ascii "7-5", [], 0, by decide⟩]).validated =
      [(7, 5)] := by
    decide +kernel
  have hleast : IsLeast {seq | LegalSeq ([(7, 5)] : List (Int × Int)).getLast? 7 seq} 6 :=
    (isLeast_resolveSeq_same (by decide) (by decide) (by decide)).1
  have haccepts := @xadd_picks_least_sequence (ascii "s") Store.empty rfl
    [⟨ascii "7-5", [], 0, by decide⟩] (by rw [hfirst]; decide) msSeven [] 0
  dsimp only at haccepts
  rw [hfirst, hseven] at haccepts
  have hvalidated : (xaddAll (ascii "s") Store.empty
      [⟨ascii "7-9223372036854775807", [], 0, by decide⟩]).validated =
        [(7, 9223372036854775807)] := by
    decide +kernel
  have hpicks := @xadd_picks_least_sequence (ascii "s") Store.empty rfl
    [⟨ascii "7-9223372036854775807", [], 0, by decide⟩]
    (by rw [hvalidated]; decide) msSeven [] 0
  refine ⟨(haccepts.2.1 6 hleast).1, hvalidated, (hpicks.2.2 ?_).2⟩
  rw [hvalidated]
  rintro ⟨seq, hlegal⟩
  have habove := hlegal.above_last (7, 9223372036854775807) rfl
  have hle := hlegal.le_max
  simp only [Precedes, hseven, longLongMax] at habove hle
  omega

/-! ## {lit}`XADD key *` -/

/-- {lit}`parse_stream_id` of the automatic form. -/
theorem parseStreamId_auto (now : Int) :
    parseStreamId (ascii "*") now = .ok ⟨toMilliseconds now, 0, true⟩ := by
  unfold parseStreamId
  rw [if_pos rfl]

/-- The identifier of the last entry is the greatest. -/
theorem precedes_of_last {validated : List (Int × Int)} (hchain : validated.IsChain Precedes)
    {new : Int × Int} (hlast : ∀ pair ∈ validated.getLast?, Precedes pair new) :
    ∀ pair ∈ validated, Precedes pair new := by
  have : IsTrans (Int × Int) Precedes := ⟨fun _ _ _ => Precedes.trans⟩
  have happend : (validated ++ [new]).IsChain Precedes := by
    refine List.isChain_append.mpr ⟨hchain, List.isChain_singleton _, ?_⟩
    intro last hmem pair hpair
    simp only [List.head?_cons, Option.mem_def, Option.some.injEq] at hpair
    rw [← hpair]
    exact hlast last hmem
  have hpairs := List.isChain_iff_pairwise.mp happend
  intro pair hmem
  exact (List.pairwise_append.mp hpairs).2.2 pair hmem new (by simp)

/-- {lit}`XADD key *` succeeds exactly if the clock is not behind: behind every run of
{lit}`XADD` on a key that was not set, with components from 0 to 2^63 - 2, and for
every positive reading of the clock, the call succeeds with an identifier above all
entries exactly if no entry has more milliseconds than the clock. -/
theorem xadd_auto_succeeds_iff {key : Bytes} {d : Store} (hkey : d key = none)
    (calls : List XaddCall)
    (hpos : ∀ pair ∈ (xaddAll key d calls).validated, 0 ≤ pair.1 ∧ 0 ≤ pair.2 ∧
      pair.1 < longLongMax ∧ pair.2 < longLongMax)
    (fields : List (Bytes × Bytes)) {now : Int} (hnow : 0 < now) :
    (∃ pair, ((xaddAll key d calls).store.xadd key (ascii "*") fields now).2 =
          .ok (.ok (renderId pair.1 pair.2)) ∧
        ∀ old ∈ (xaddAll key d calls).validated, Precedes old pair) ↔
      ∀ old ∈ (xaddAll key d calls).validated, old.1 ≤ toMilliseconds now := by
  have hordered := ordered_xaddAll hkey calls
  have hnonneg : ∀ pair ∈ (xaddAll key d calls).validated, 0 ≤ pair.1 ∧ 0 ≤ pair.2 :=
    fun pair hmem => ⟨(hpos pair hmem).1, (hpos pair hmem).2.1⟩
  have hms : 0 ≤ toMilliseconds now := Int.tdiv_nonneg hnow.le (by decide)
  rcases xadd_completed hordered hnonneg (parseStreamId_auto now) hms fields with
    ⟨seq, hleast, hresult, -⟩ | ⟨hnone, ⟨text, hresult⟩, -⟩
  · have habove := precedes_of_last (hordered.increasing hnonneg) hleast.1.above_last
    constructor
    · intro _ old hold
      have hprecedes := habove old hold
      simp only [Precedes] at hprecedes
      omega
    · intro _
      exact ⟨(toMilliseconds now, seq), hresult, habove⟩
  · constructor
    · rintro ⟨pair, hok, -⟩
      exact absurd (hok.symm.trans hresult) (by simp)
    · intro hclock
      exfalso
      -- the number behind the last one would be legal
      cases hlast : (xaddAll key d calls).validated.getLast? with
      | none =>
          rw [hlast] at hnone
          exact hnone 1 ⟨by decide, by decide, by simp only [Precedes]; omega, by simp⟩
      | some last =>
          rw [hlast] at hnone
          have hmem := List.mem_of_getLast? hlast
          rcases hpos last hmem with ⟨-, hseq, -, hmax⟩
          have hle := hclock last hmem
          refine hnone (last.2 + 1) ⟨by omega, by omega, by simp only [Precedes]; omega, ?_⟩
          intro pair hpair
          cases hpair
          simp only [Precedes]
          omega

/-- The clock has passed the entries. -/
theorem xadd_auto_succeeds_iff_sample :
    ∃ pair, ((xaddAll (ascii "s") Store.empty increasingCalls).store.xadd (ascii "s")
        (ascii "*") [] 7000000).2 = .ok (.ok (renderId pair.1 pair.2)) ∧
      ∀ old ∈ (xaddAll (ascii "s") Store.empty increasingCalls).validated, Precedes old pair := by
  have hvalidated : (xaddAll (ascii "s") Store.empty increasingCalls).validated =
      [(1, 5), (1, 6), (7, 0)] := by
    decide +kernel
  refine (@xadd_auto_succeeds_iff (ascii "s") Store.empty rfl increasingCalls ?_ [] 7000000
    (by decide)).mpr ?_
  · rw [hvalidated]
    decide
  · rw [hvalidated]
    decide

/-- {lit}`XADD s 5-0`, then {lit}`XADD s *` at millisecond 1: rejected. -/
theorem xadd_auto_behind_top :
    ((xaddAll (ascii "s") Store.empty [⟨ascii "5-0", [], 0, by decide⟩]).store.xadd
        (ascii "s") (ascii "*") [] 1000000).2 =
      .ok (.error (ascii ("-ERR The ID specified in XADD is equal or smaller than " ++
        "the target stream top item"))) := by
  decide +kernel

end RedisClone
