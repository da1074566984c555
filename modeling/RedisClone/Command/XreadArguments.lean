import RedisClone.Command.DataCommands

/-!
# The arguments of XREAD

{lit}`parse_xread_args` looks for {lit}`BLOCK` and for {lit}`STREAMS` by two searches over the
whole list of arguments, in any case.  A key or an ID can therefore be taken for an option.
Behind {lit}`BLOCK` and a number the searches stop at the keywords themselves, so the
blocking form is read by position.  The form without {lit}`BLOCK` is read by position
exactly if no argument but the last one spells {lit}`BLOCK`.

Main results:

- Theorem {lit}`isBlocking_parseXreadArgs`: when a request counts as blocking.
- Theorem {lit}`parseStreams_pairs`: keys and IDs behind {lit}`STREAMS`.
- Theorem {lit}`parseXreadArgs_positional_iff`: the two forms of the command.
- Theorem {lit}`parseXreadArgs_block_key`: a key of the name {lit}`block`.
-/

namespace RedisClone

/-! ## Keywords -/

/-- The argument is the word, in any case. -/
def Spells (word : String) (arg : Bytes) : Prop :=
  uppercase arg = ascii word

instance (word : String) (arg : Bytes) : Decidable (Spells word arg) :=
  inferInstanceAs (Decidable (uppercase arg = ascii word))

section Keywords

variable {word : String} {arg : Bytes} {args : List Bytes}

/-- The search stops at the word. -/
theorem fromWord_cons_of_spells (h : Spells word arg) :
    fromWord word (arg :: args) = arg :: args := by
  have h' : uppercase arg = ascii word := h
  simp [fromWord, h']

/-- The search passes an argument that is not the word. -/
theorem fromWord_cons_of_not_spells (h : ¬ Spells word arg) :
    fromWord word (arg :: args) = fromWord word args := by
  have h' : ¬ uppercase arg = ascii word := h
  simp [fromWord, h']

/-- The search finds the word in front of another argument, unless it is at most the last
argument. -/
theorem two_le_length_fromWord_iff (word : String) (args : List Bytes) :
    2 ≤ (fromWord word args).length ↔ ∃ arg ∈ args.dropLast, Spells word arg := by
  induction args with
  | nil => simp [fromWord]
  | cons arg args ih =>
      by_cases hword : Spells word arg
      · rw [fromWord_cons_of_spells hword]
        cases args with
        | nil => simp
        | cons next rest => simp [hword]
      · rw [fromWord_cons_of_not_spells hword, ih]
        cases args with
        | nil => simp
        | cons next rest => simp [hword]

end Keywords

/-! ## Streams -/

section Streams

variable {args keys ids : List Bytes} {streams : Bytes}

/-- The search for {lit}`STREAMS` does not change whether the request is blocking. -/
theorem isBlocking_parseStreams (isBlocking : Bool) (timeout : Double) :
    (parseStreams args isBlocking timeout).isBlocking = isBlocking := by
  unfold parseStreams
  split
  · rfl
  · split_ifs <;> rfl

/-- A request is blocking if {lit}`BLOCK` stands somewhere in front of another argument. -/
theorem isBlocking_parseXreadArgs (cmd : Command) :
    (parseXreadArgs cmd).isBlocking = true ↔ ∃ arg ∈ cmd.args.dropLast, Spells "BLOCK" arg := by
  rw [← two_le_length_fromWord_iff]
  unfold parseXreadArgs
  cases hfound : fromWord "BLOCK" cmd.args with
  | nil => simp [isBlocking_parseStreams]
  | cons block rest =>
      cases rest with
      | nil => simp [isBlocking_parseStreams]
      | cons text rest =>
          cases hnumber : stod text with
          | error e => simp [hnumber]
          | ok timeout => simp [hnumber, isBlocking_parseStreams]

/-- As many IDs as keys behind {lit}`STREAMS` are split in the middle. -/
theorem parseStreams_pairs (hstreams : Spells "STREAMS" streams) (hkeys : keys ≠ [])
    (hpairs : ids.length = keys.length) (isBlocking : Bool) (timeout : Double) :
    parseStreams (streams :: (keys ++ ids)) isBlocking timeout =
      ⟨true, isBlocking, timeout, keys, ids⟩ := by
  have hpos : 0 < keys.length := List.length_pos_iff.mpr hkeys
  have hlength : (keys ++ ids).length = 2 * keys.length := by
    rw [List.length_append, hpairs]
    omega
  have hhalf : (keys ++ ids).length / 2 = keys.length := by omega
  unfold parseStreams
  rw [fromWord_cons_of_spells hstreams]
  simp only
  rw [if_neg (by omega), hhalf, List.take_left, List.drop_left]

/-- An argument in front of {lit}`STREAMS` is passed. -/
theorem parseStreams_cons_of_not_spells {arg : Bytes} (h : ¬ Spells "STREAMS" arg)
    (isBlocking : Bool) (timeout : Double) :
    parseStreams (arg :: args) isBlocking timeout = parseStreams args isBlocking timeout := by
  unfold parseStreams
  rw [fromWord_cons_of_not_spells h]

/-- The first letter of {lit}`STREAMS`. -/
theorem eq_of_toUpper_eq {b : UInt8} (h : toUpper b = 83) : b = 83 ∨ b = 115 := by
  unfold toUpper at h
  split_ifs at h
  · right
    rw [← UInt8.sub_add_cancel b 32, h]
    rfl
  · exact .inl h

/-- {lit}`STREAMS` is no number. -/
theorem not_spells_of_stod {text : Bytes} {timeout : Double} (h : stod text = .ok timeout) :
    ¬ Spells "STREAMS" text := by
  intro hspells
  unfold Spells at hspells
  cases text with
  | nil => exact absurd hspells (by decide)
  | cons b text =>
      have hfirst : toUpper b = 83 := (List.cons.inj hspells).1
      have hnone : scanDouble (b :: text) = none := by
        rcases eq_of_toUpper_eq hfirst with rfl | rfl
        · rfl
        · rfl
      unfold stod at h
      rw [hnone] at h
      contradiction

end Streams

/-! ## The two forms -/

/-- {lit}`XREAD STREAMS` with keys and IDs is read by position exactly if no argument in front
of the last one spells {lit}`BLOCK`; {lit}`XREAD BLOCK` with a number, {lit}`STREAMS`, keys and IDs
is always read by position. -/
theorem parseXreadArgs_positional_iff {name block text streams : Bytes} {timeout : Double}
    {keys ids : List Bytes} (hblock : Spells "BLOCK" block) (hstreams : Spells "STREAMS" streams)
    (htimeout : stod text = .ok timeout) (hkeys : keys ≠ [])
    (hpairs : ids.length = keys.length) :
    (parseXreadArgs ⟨.xread, name, streams :: (keys ++ ids)⟩ =
        ⟨true, false, .finite 0, keys, ids⟩ ↔
      ∀ arg ∈ (keys ++ ids).dropLast, ¬ Spells "BLOCK" arg) ∧
    parseXreadArgs ⟨.xread, name, block :: text :: streams :: (keys ++ ids)⟩ =
      ⟨true, true, timeout, keys, ids⟩ := by
  have hother : ¬ Spells "BLOCK" streams := by
    intro hspells
    exact absurd (hspells.symm.trans hstreams) (by decide)
  have hdropLast : (streams :: (keys ++ ids)).dropLast = streams :: (keys ++ ids).dropLast :=
    List.dropLast_cons_of_ne_nil (by simp [hkeys])
  have hblocking := isBlocking_parseXreadArgs ⟨.xread, name, streams :: (keys ++ ids)⟩
  rw [hdropLast] at hblocking
  refine ⟨⟨fun hparsed arg hmem hspells => ?_, fun hnone => ?_⟩, ?_⟩
  · -- a word in front of another argument makes the request blocking
    have htrue := hblocking.mpr ⟨arg, List.mem_cons_of_mem _ hmem, hspells⟩
    rw [hparsed] at htrue
    contradiction
  · have hshort : ¬ 2 ≤ (fromWord "BLOCK" (streams :: (keys ++ ids))).length := by
      rw [two_le_length_fromWord_iff, hdropLast]
      rintro ⟨arg, hmem, hspells⟩
      rcases List.mem_cons.mp hmem with rfl | hmem
      · exact hother hspells
      · exact hnone arg hmem hspells
    have hpairs' := parseStreams_pairs hstreams hkeys hpairs false (.finite 0)
    unfold parseXreadArgs
    simp only
    match hfound : fromWord "BLOCK" (streams :: (keys ++ ids)) with
    | [] => exact hpairs'
    | [last] => exact hpairs'
    | first :: second :: rest => simp [hfound] at hshort
  · have hnumber : ¬ Spells "STREAMS" text := not_spells_of_stod htimeout
    have hfirst : ¬ Spells "STREAMS" block := by
      intro hspells
      exact absurd (hspells.symm.trans hblock) (by decide)
    unfold parseXreadArgs
    simp only [fromWord_cons_of_spells hblock, htimeout]
    rw [parseStreams_cons_of_not_spells hfirst, parseStreams_cons_of_not_spells hnumber]
    exact parseStreams_pairs hstreams hkeys hpairs true timeout

/-- A key that spells {lit}`streams`, and an ID in the last place that spells {lit}`BLOCK`. -/
theorem parseXreadArgs_positional_keywords :
    parseXreadArgs ⟨.xread, ascii "XREAD", [ascii "streams", ascii "STREAMS", ascii "BLOCK"]⟩ =
        ⟨true, false, .finite 0, [ascii "STREAMS"], [ascii "BLOCK"]⟩ ∧
      parseXreadArgs ⟨.xread, ascii "XREAD",
          [ascii "block", ascii "5", ascii "streams", ascii "STREAMS", ascii "BLOCK"]⟩ =
        ⟨true, true, .finite 5, [ascii "STREAMS"], [ascii "BLOCK"]⟩ := by
  have hforms := @parseXreadArgs_positional_iff (ascii "XREAD") (ascii "block") (ascii "5")
    (ascii "streams") (.finite 5) [ascii "STREAMS"] [ascii "BLOCK"] (by decide) (by decide)
    (by decide +kernel) (by simp) rfl
  exact ⟨hforms.1.mpr (by decide), hforms.2⟩

/-- {lit}`XREAD STREAMS block 0` reads the key as the option, with the ID as its timeout: the
request is blocking. -/
theorem parseXreadArgs_block_key :
    parseXreadArgs ⟨.xread, ascii "XREAD", [ascii "STREAMS", ascii "block", ascii "0"]⟩ =
      ⟨true, true, .finite 0, [ascii "block"], [ascii "0"]⟩ := by
  decide +kernel

end RedisClone
